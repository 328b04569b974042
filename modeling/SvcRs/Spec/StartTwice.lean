import SvcRs.Spec.Commands
import SvcRs.Spec.Processes
import SvcRs.Spec.TwoRuns

/-!
# `start` for a running service

The command leaves `manual_start` set on a record whose service runs already. Two runs are
compared, with the command and without it: they stay in step as long as the start pass does
not come to the service at a time when it is down and only the flags keep it down.

## Key results

- `exec_twins`, `run_twins`: one operation, and a continuation, in both runs
- `StartsAgain.parts`: where the two runs part
- `start_noop`: when the command makes no difference to the processes that are started
- `start_remembered`: a second `start` is carried out after the exit
-/

namespace SvcRs

open StateM (Sim)
open Transition (run Along)

/-! ## Tables -/

/-- The second table is the first one, but a start may be pending in slot `i`. -/
structure Twins (i : Nat) (w w' : World) : Prop where
  root : w'.root = w.root
  size : w'.size = w.size
  svc : ∀ j, Pend (decide (j = i)) (w.svc j) (w'.svc j)
  kernel : Twin w.k w'.k

/-- A computation on the table that gets to the same result in both runs. -/
abbrev Lockstep {α : Type} (i : Nat) (m m' : Sup α) : Prop := Sim (Twins i) Eq m m'

section

variable {i : Nat} {w w' : World}

/-- Both tables have the same slots. -/
theorem Twins.slots (h : Twins i w w') : w'.slots = w.slots := by
  unfold World.slots
  rw [h.size]

/-- What is read of a record, apart from the two fields. -/
theorem Twins.read {α : Type} (h : Twins i w w') (f : Service → α)
    (hf : ∀ s m r, f { s with manualStart := m, restartAt := r } = f s) (j : Nat) :
    f (w'.svc j) = f (w.svc j) := by
  obtain ⟨m, r, hsame⟩ := (h.svc j).same
  rw [hsame]
  exact hf _ m r

/-- A search that does not look at the flags of slot `i` finds the same slot. -/
theorem Twins.findSlot (h : Twins i w w') (p : Service → Bool)
    (hp : ∀ s m r, p { s with manualStart := m, restartAt := r } = p s) :
    w'.findSlot p = w.findSlot p := by
  unfold World.findSlot
  rw [h.slots]
  simp only [h.read p hp]

/-- A name is found in the same slot. -/
theorem Twins.findServiceByName (h : Twins i w w') (name : Bytes) :
    findServiceByName w' name = findServiceByName w name := h.findSlot _ fun _ _ _ => rfl

/-- The same services run. -/
theorem Twins.isRunning (h : Twins i w w') (name : Bytes) :
    w'.isRunning name = w.isRunning name := by
  unfold World.isRunning
  rw [h.findServiceByName]
  cases SvcRs.findServiceByName w name with
  | none => rfl
  | some j =>
    show decide ((w'.svc j).state = .running) = decide ((w.svc j).state = .running)
    rw [h.read (·.state) (fun _ _ _ => rfl) j]

/-- A system call. -/
theorem liftSys_lockstep {α : Type} {m m' : Sys α} (hm : Sim Twin Eq m m') :
    Lockstep i (liftSys m) (liftSys m') := by
  intro w w' h
  obtain ⟨hresult, hkernel⟩ := hm w.k w'.k h.kernel
  exact ⟨hresult, h.root, h.size, h.svc, hkernel⟩

/-- A function on one record that does not look at the flags. -/
theorem onSlot_lockstep {f : Service → Sys Service} (hf : Plain f) (j : Nat) :
    Lockstep i (onSlot j f) (onSlot j f) := by
  intro w w' h
  obtain ⟨hrecord, hkernel⟩ := hf (h.svc j) w.k w'.k h.kernel
  refine ⟨rfl, h.root, h.size, fun l => ?_, hkernel⟩
  show Pend _ (if l = j then (f (w.svc j) w.k).1 else w.svc l)
    (if l = j then (f (w'.svc j) w'.k).1 else w'.svc l)
  -- slot `j` is written in both tables, all others are as they were
  by_cases hl : l = j
  · subst hl
    rw [if_pos rfl, if_pos rfl]
    exact hrecord
  · rw [if_neg hl, if_neg hl]
    exact h.svc l

/-- A loop over slots, by induction over them. -/
theorem forSlots_lockstep {body : Nat → Sup Unit} (hbody : ∀ j, Lockstep i (body j) (body j))
    (js : List Nat) : Lockstep i (forSlots body js) (forSlots body js) := by
  induction js with
  | nil => exact .pure rfl
  | cons j js ih => exact (hbody j).seq fun _ => ih

/-! ## Stopping -/

/-- One record of a sweep. -/
theorem stopDependent_lockstep (j : Nat) : Lockstep i (stopDependent j) (stopDependent j) := by
  apply Sim.get
  intro w w' h
  have hguard := h.read (fun s => !s.active || s.stopping || s.pid ≤ 0 || s.state ≠ .running)
    (fun _ _ _ => rfl) j
  -- both tables know the same services as running
  have hdeps : ((w'.svc j).deps.any fun dep => !dep.soft && !w'.isRunning dep.name) =
      (w.svc j).deps.any fun dep => !dep.soft && !w.isRunning dep.name := by
    rw [h.read (·.deps) (fun _ _ _ => rfl) j]
    simp only [h.isRunning]
  dsimp only at hguard ⊢
  rw [hguard, hdeps]
  apply Sim.ite
  · exact fun _ => .pure rfl
  intro _
  apply Sim.ite
  · exact fun _ => (onSlot_lockstep signalStopStatus_plain j).seq fun _ => .pure rfl
  · exact fun _ => .pure rfl

/-- One sweep. -/
theorem stopSweep_lockstep (js : List Nat) : Lockstep i (stopSweep js) (stopSweep js) := by
  induction js with
  | nil => exact .pure rfl
  | cons j js ih =>
    apply (stopDependent_lockstep j).seq
    intro stopped
    exact ih.seq fun _ => .pure rfl

/-- The sweeps until nothing changes. -/
theorem stopTransitiveDeps_lockstep : Lockstep i stopTransitiveDeps stopTransitiveDeps := by
  -- by induction on the fuel: the sweeps change something in both tables or in neither
  have hloop : ∀ fuel, Lockstep i (stopLoop fuel) (stopLoop fuel) := by
    intro fuel
    induction fuel with
    | zero => exact .pure rfl
    | succ fuel ih =>
      apply Sim.get
      intro w w' h
      rw [h.slots]
      apply (stopSweep_lockstep w.slots).seq
      intro changed
      exact .ite (fun _ => ih) fun _ => .pure rfl
  apply Sim.get
  intro w w' h
  rw [h.size]
  exact hloop _

/-- A service whose logger has exited. -/
theorem killOnLogDeath_lockstep (j : Nat) : Lockstep i (killOnLogDeath j) (killOnLogDeath j) := by
  apply Sim.get
  intro w w' h
  rw [h.read lostLogger (fun _ _ _ => rfl) j]
  exact .ite (fun _ => onSlot_lockstep signalStopStatus_plain j) fun _ => .pure rfl

/-- The order in which the services are stopped. -/
theorem Twins.stopPlan (h : Twins i w w') : stopPlan w' = stopPlan w := by
  -- the plan looks at fields in which the two tables agree
  have hneeds : ∀ j, needsStop (w'.svc j) = needsStop (w.svc j) :=
    h.read needsStop fun _ _ _ => rfl
  have hready : ∀ plan j, stopReady w' plan (w'.svc j) = stopReady w plan (w.svc j) := by
    intro plan j
    unfold stopReady
    rw [h.read (·.deps) (fun _ _ _ => rfl) j]
    simp only [h.findServiceByName]
  -- so it makes the same choices in every pass of every round
  have hpass : ∀ js plan, planPass w' js plan = planPass w js plan := by
    intro js
    induction js with
    | nil => exact fun _ => rfl
    | cons j js ih =>
      intro plan
      simp only [planPass, hready, ih]
  have hloop : ∀ count fuel plan, planLoop w' count fuel plan = planLoop w count fuel plan := by
    intro count fuel
    induction fuel with
    | zero => exact fun _ => rfl
    | succ fuel ih =>
      intro plan
      simp only [planLoop, h.slots, hpass, ih]
  unfold SvcRs.stopPlan
  simp only [h.slots, h.size, hneeds, hloop]

/-- The stop of all services. -/
theorem stopAllInOrder_lockstep : Lockstep i stopAllInOrder stopAllInOrder := by
  apply Sim.get
  intro w w' h
  dsimp only
  rw [h.stopPlan, h.slots]
  apply (forSlots_lockstep (fun j => onSlot_lockstep stopOrdered_plain j) _).seq
  intro _
  exact forSlots_lockstep (fun j => onSlot_lockstep stopRemaining_plain j) _

/-- The last SIGKILL. -/
theorem killRemaining_lockstep (j : Nat) : Lockstep i (killRemaining j) (killRemaining j) := by
  apply Sim.get
  intro w w' h
  -- the signals go to pids, which are the same
  have hkill : killProcesses (w'.svc j) = killProcesses (w.svc j) :=
    h.read killProcesses (fun _ _ _ => rfl) j
  have hblind : ∀ s, Blind (killProcesses s) := by
    intro s
    have hlast : Blind (if s.active && s.logPid > 0 then kill s.logPid sigkill else pure ()) :=
      .ite (fun _ => emit_blind _) fun _ => .pure rfl
    unfold killProcesses
    apply Sim.ite
    · exact fun _ => (emit_blind _).seq fun _ => hlast
    · exact fun _ => hlast
  rw [hkill]
  exact liftSys_lockstep (hblind _)

/-! ## Reaping -/

/-- A reaped child. -/
theorem reapChild_lockstep (pid status : Int) :
    Lockstep i (reapChild pid status) (reapChild pid status) := by
  have hrecord : ∀ t, Lockstep i (reapRecord pid status t) (reapRecord pid status t) := by
    intro t
    apply Sim.get
    intro w w' h
    -- both tables look a pid up in the same slot
    have hlogger : w'.loggerSlot pid = w.loggerSlot pid := h.findSlot _ fun _ _ _ => rfl
    have hmain : w'.mainSlot pid = w.mainSlot pid := h.findSlot _ fun _ _ _ => rfl
    rw [hlogger, hmain]
    cases w.loggerSlot pid with
    | some j => exact (onSlot_lockstep reapLogger_plain j).seq fun _ => .pure rfl
    | none =>
      cases w.mainSlot pid with
      | none => exact .pure rfl
      | some j =>
        apply (onSlot_lockstep (reapMain_plain j status t) j).seq
        intro _
        -- whether dependents have to stop does not depend on a pending start
        exact .pure (h.read (exitStopsDeps · status) (fun _ _ _ => rfl) j).symm
  apply (liftSys_lockstep (waitpid_blind pid status)).seq
  intro reaped
  apply Sim.ite
  · exact fun _ => .pure rfl
  intro _
  apply (liftSys_lockstep monoNow_blind).seq
  intro t
  exact (hrecord t).seq fun _ => .pure rfl

/-! ## Scanning -/

/-- The marks before a scan. -/
theorem unmarkPresent_lockstep (j : Nat) : Lockstep i (unmarkPresent j) (unmarkPresent j) := by
  apply Sim.get
  intro w w' h
  rw [h.read (·.active) (fun _ _ _ => rfl) j]
  apply Sim.ite
  · intro _
    apply onSlot_lockstep
    rintro d s _ ⟨⟨m, r, rfl⟩, hm, hr⟩
    exact .pure ⟨⟨m, r, rfl⟩, hm, hr⟩
  · exact fun _ => .pure rfl

/-- An entry of the scan. -/
theorem scanEntry_lockstep (name : Bytes) : Lockstep i (scanEntry name) (scanEntry name) := by
  -- a new service is built from the files alone
  have hadd : ∀ dir, Lockstep i (addService name dir) (addService name dir) := by
    intro dir
    apply Sim.get
    intro w w' h
    rw [h.findSlot _ fun _ _ _ => rfl]
    cases w.findSlot fun s => !s.active with
    | none => exact .pure rfl
    | some j =>
      apply onSlot_lockstep
      intro d s s' _ k k' hk
      obtain ⟨hrecord, hkernel⟩ := newService_blind j name dir k k' hk
      exact ⟨hrecord ▸ .refl _, hkernel⟩
  unfold scanEntry
  apply Sim.ite
  · exact fun _ => .pure rfl
  intro _
  apply Sim.get
  intro w w' h
  -- a directory is looked up by a field in which the tables agree
  have hfound : ∀ dir, findServiceByDir w' dir = findServiceByDir w dir :=
    fun dir => h.findSlot _ fun _ _ _ => rfl
  dsimp only
  rw [h.root, hfound]
  apply (liftSys_lockstep (ask_blind _)).seq
  intro executable
  apply Sim.ite
  · intro _
    cases findServiceByDir w (serviceDir w.root name) with
    | none => exact hadd _
    | some j => exact onSlot_lockstep (foundService_plain j) j
  · exact fun _ => .pure rfl

/-- A service whose directory is gone. -/
theorem missingSlot_lockstep (j : Nat) : Lockstep i (missingSlot j) (missingSlot j) := by
  have hstop : Lockstep i (stopMissing j) (stopMissing j) := by
    apply Sim.get
    intro w w' h
    -- `present` and the pids agree, and only they decide here
    rw [h.read (fun s => s.pid > 0 && !s.stopping) (fun _ _ _ => rfl) j]
    apply Sim.ite
    · exact fun _ => stopTransitiveDeps_lockstep.seq fun _ => onSlot_lockstep signalStop_plain j
    · exact fun _ => .pure rfl
  apply Sim.get
  intro w w' h
  rw [h.read (fun s => s.active && !s.present) (fun _ _ _ => rfl) j]
  apply Sim.ite
  · exact fun _ => hstop.seq fun _ => onSlot_lockstep (releaseMissing_plain j) j
  · exact fun _ => .pure rfl

/-! ## Requests -/

/-- A command for one service. -/
theorem withService_lockstep {usage : String} {arg : Bytes} {act : Nat → Sup Bytes}
    (hact : ∀ j, Lockstep i (act j) (act j)) :
    Lockstep i (withService usage arg act) (withService usage arg act) := by
  unfold withService
  apply Sim.ite
  · exact fun _ => .pure rfl
  intro _
  apply Sim.get
  intro w w' h
  rw [h.findServiceByName]
  -- the name is found in the same slot
  cases findServiceByName w arg with
  | none => exact .pure rfl
  | some j => exact hact j

/-- `stop`, `start` and their like, given to both. -/
theorem svcCommand_lockstep (cmd : SvcCmd) (arg : Bytes) :
    Lockstep i (svcCommand cmd arg) (svcCommand cmd arg) := by
  apply withService_lockstep
  intro j
  have haccept : Lockstep i (do onSlot j (acceptCmd cmd j); return formatOk (svcCmdDone cmd))
      (do onSlot j (acceptCmd cmd j); return formatOk (svcCmdDone cmd)) :=
    (onSlot_lockstep (acceptCmd_plain cmd j) j).seq fun _ => .pure rfl
  apply Sim.ite
  · exact fun _ => stopTransitiveDeps_lockstep.seq fun _ => haccept
  · exact fun _ => haccept

/-- Any other signal. -/
theorem sendSignal_lockstep (sig : Int) (j : Nat) :
    Lockstep i (sendSignal j sig) (sendSignal j sig) := by
  apply Sim.get
  intro w w' h
  rw [h.read (·.pid) (fun _ _ _ => rfl) j]
  apply Sim.ite
  · exact fun _ => .pure rfl
  · exact fun _ => (liftSys_lockstep (emit_blind _)).seq fun _ => .pure rfl

/-- The replies to `list` are the same. -/
theorem Twins.listServices (h : Twins i w w') (now : Int) :
    listServices w' now = listServices w now := by
  unfold SvcRs.listServices
  rw [h.slots]
  simp only [h.read (·.active) fun _ _ _ => rfl,
    h.read (formatServiceStatus · now) fun _ _ _ => rfl]

/-- A request, given to both. -/
theorem respond_lockstep (line : Bytes) : Lockstep i (respond line) (respond line) := by
  unfold respond
  generalize splitCmd line = words
  obtain ⟨cmd, arg⟩ := words
  dsimp only
  cases parseRequest cmd with
  | list =>
    apply (liftSys_lockstep monoNow_blind).seq
    intro now
    apply Sim.get
    intro w w' h
    -- the replies are the same text: `manual_start` is not part of it
    exact .pure (h.listServices now).symm
  | status =>
    apply withService_lockstep
    intro j
    apply (liftSys_lockstep monoNow_blind).seq
    intro now
    apply Sim.get
    intro w w' h
    exact .pure (h.read (formatServiceStatus · now) (fun _ _ _ => rfl) j).symm
  | svc cmd => exact svcCommand_lockstep cmd arg
  | check =>
    apply withService_lockstep
    intro j
    apply Sim.get
    intro w w' h
    exact liftSys_lockstep (runCheck_sim (h.read (·.dir) (fun _ _ _ => rfl) j))
  | reload =>
    -- SIGHUP to the supervisor itself is the same in both runs
    have hraise : Blind raiseHup := by
      apply (emit_blind _).seq
      rintro _ k _ ⟨trace, rfl, hacts⟩
      exact ⟨rfl, trace, rfl, hacts⟩
    exact (liftSys_lockstep hraise).seq fun _ => .pure rfl
  | shortcut sig => exact withService_lockstep (sendSignal_lockstep sig)
  | signal =>
    unfold signalCommand
    generalize splitCmd arg = words
    obtain ⟨name, signum⟩ := words
    dsimp only
    apply Sim.ite
    · exact fun _ => .pure rfl
    intro _
    cases parseSignum signum with
    | none => exact .pure rfl
    | some sig => exact withService_lockstep (sendSignal_lockstep sig)
  | unknown => exact .pure rfl

/-- With the reply. -/
theorem handleControlCommand_lockstep (line : Bytes) :
    Lockstep i (handleControlCommand line) (handleControlCommand line) :=
  (respond_lockstep line).seq fun _ => liftSys_lockstep (emit_blind _)

/-! ## Signals and output -/

/-- The signal pipe is outside the table. -/
theorem drainSignalPipe_blind (reads : List Nat) : Blind (drainSignalPipe reads) := by
  -- both kernels have the same bytes in their pipes
  have hread : ∀ n, Blind (readSigPipe n) := by
    rintro n k _ ⟨trace, rfl, hacts⟩
    refine ⟨rfl, _, rfl, ?_⟩
    simp only [readSigPipe, List.filter_cons, hacts]
  induction reads with
  | nil => exact .pure rfl
  | cons n reads ih =>
    apply (hread n).seq
    intro chunk
    apply Sim.ite
    · exact fun _ => .pure rfl
    intro _
    cases chunk.find? isLoopSignal with
    | none => exact ih
    | some sig => exact .pure rfl

/-- Reading output. -/
theorem drainOutput_lockstep (j : Nat) (err : Bool) (reads : List ReadResult) :
    Lockstep i (drainOutput j err reads) (drainOutput j err reads) := by
  apply Sim.get
  intro w w' h
  rw [h.read (·.active) (fun _ _ _ => rfl) j]
  exact .ite (fun _ => onSlot_lockstep (drainStream_plain err reads) j) fun _ => .pure rfl

/-! ## The start pass -/

/-- The service could be started at `t`, but its flags do not ask for it. -/
def keptDown (t : Int) (s : Service) : Bool :=
  (s.active && s.present && !s.stopping && s.pid ≤ 0 && t ≥ s.restartAt) &&
    !(s.manualStart || (s.autoStart && !s.once))

/-- The start pass decides alike, unless the pending start is all that the service waits for. -/
theorem startDue_pend {d : Bool} {s s' : Service} {t : Int} (h : Pend d s s')
    (hflags : d = true → keptDown t s = true → s'.manualStart = false) :
    startDue t s' = startDue t s := by
  obtain ⟨⟨m, r, rfl⟩, hm, hr⟩ := h
  by_cases hpid : s.pid ≤ 0
  · -- while the service is down, `restart_at` is the same
    have hrestart : r = s.restartAt := by
      rcases hr with hr | ⟨-, hr⟩
      · exact hr
      · omega
    subst hrestart
    rcases hm with hm | ⟨hd, hm⟩
    · have hmanual : m = s.manualStart := hm
      rw [hmanual]
    · have hmanual : m = true := hm
      subst hmanual
      have hkept : keptDown t s = false := by
        cases hk : keptDown t s with
        | false => rfl
        | true => exact absurd (hflags hd hk) (by simp)
      unfold keptDown at hkept
      unfold startDue
      -- what is left are the conditions on time and state, which both runs share
      generalize (s.active && s.present && !s.stopping && s.pid ≤ 0 && t ≥ s.restartAt) = ready at *
      generalize (s.manualStart || (s.autoStart && !s.once)) = wanted at *
      cases ready with
      | false => rfl
      | true =>
        cases wanted with
        | false => exact absurd hkept (by decide)
        | true => rfl
  · simp [startDue, hpid]

/-- A start pass, unless only the second table allows the start. -/
theorem startSlot_twins (h : Twins i w w') {t : Int} {j : Nat}
    (hflags : j = i → keptDown t (w.svc i) = true → (w'.svc i).manualStart = false) :
    Twins i (startSlot t j w).2 (startSlot t j w').2 := by
  -- the two start passes agree on whether the service is due
  have hdue : startDue t (w'.svc j) = startDue t (w.svc j) := by
    apply startDue_pend (h.svc j)
    intro hj
    obtain rfl : j = i := by simpa using hj
    exact hflags rfl
  -- and on its dependencies, as both tables know the same services as running
  have hdeps : depsSatisfied w' (w'.svc j) = depsSatisfied w (w.svc j) := by
    unfold depsSatisfied
    rw [h.read (·.deps) (fun _ _ _ => rfl) j]
    simp only [h.isRunning]
  -- a service that has to wait gets the same time in both tables
  have hretry : Plain retryLater := by
    rintro d s _ ⟨⟨m, r, rfl⟩, hm, -⟩
    exact monoNow_blind.seq fun now => .pure ⟨⟨m, _, rfl⟩, hm, .inl rfl⟩
  unfold startSlot
  rw [Sup.get_bind, Sup.get_bind, hdue, hdeps]
  have hstart : Lockstep i
      (if startDue t (w.svc j) then
        if !depsSatisfied w (w.svc j) then onSlot j retryLater else onSlot j (startService j)
      else pure ())
      (if startDue t (w.svc j) then
        if !depsSatisfied w (w.svc j) then onSlot j retryLater else onSlot j (startService j)
      else pure ()) := by
    apply Sim.ite
    · intro _
      apply Sim.ite
      · exact fun _ => onSlot_lockstep hretry j
      · exact fun _ => onSlot_lockstep (startService_plain j) j
    · exact fun _ => .pure rfl
  exact (hstart w w' h).2

end

/-! ## Runs -/

/-- An operation in both runs. -/
def both (op : Op) (p : World × World) : World × World := (exec op p.1, exec op p.2)

/-- The start pass comes to slot `i`, and nothing but its flags keeps the service down in the
    first run, while the second run still has the flag that `start` sets. -/
def StartsAgain (i : Nat) (p : World × World) : Op → Prop
  | .start t j => j = i ∧ keptDown (min t p.1.k.clock) (p.1.svc i) = true ∧
      (p.2.svc i).manualStart = true
  | _ => False

instance (i : Nat) (p : World × World) : (op : Op) → Decidable (StartsAgain i p op)
  | .start .. => inferInstanceAs (Decidable (_ ∧ _ ∧ _))
  | .reapChild .. | .stopDeps | .logDeath _ | .readClock | .unmark _ | .scanEntry _ | .missing _
  | .request _ | .signals _ | .output .. | .wait .. | .stopAll | .killRemaining _ => isFalse id

section

variable {i : Nat} {w w' : World}

/-- One operation keeps the tables alike, unless it starts the service again. -/
theorem exec_twins (h : Twins i w w') {op : Op} (hop : ¬StartsAgain i (w, w') op) :
    Twins i (exec op w) (exec op w') := by
  cases op with
  | reapChild pid status => exact (reapChild_lockstep pid status w w' h).2
  | stopDeps => exact (stopTransitiveDeps_lockstep w w' h).2
  | logDeath j => exact (killOnLogDeath_lockstep j w w' h).2
  | readClock => exact (liftSys_lockstep monoNow_blind w w' h).2
  | unmark j => exact (unmarkPresent_lockstep j w w' h).2
  | scanEntry name => exact (scanEntry_lockstep name w w' h).2
  | missing j => exact (missingSlot_lockstep j w w' h).2
  | start t j =>
    -- the clock is the same, and with it the time of the pass
    have hclock : w'.k.clock = w.k.clock := by
      obtain ⟨trace, hk, -⟩ := h.kernel
      rw [hk]
    show Twins i (startSlot (min t w.k.clock) j w).2 (startSlot (min t w'.k.clock) j w').2
    rw [hclock]
    apply startSlot_twins h
    intro hj hkept
    exact Bool.eq_false_iff.mpr fun hmanual => hop ⟨hj, hkept, hmanual⟩
  | request line => exact (handleControlCommand_lockstep line w w' h).2
  | signals reads => exact (liftSys_lockstep (drainSignalPipe_blind reads) w w' h).2
  | output j err reads => exact (drainOutput_lockstep j err reads w w' h).2
  | wait elapsed arrivals =>
    -- waiting changes the kernels in the same way
    obtain ⟨trace, hk, hacts⟩ := h.kernel
    refine ⟨h.root, h.size, h.svc, trace, ?_, hacts⟩
    simp only [exec, pollWait, hk]
    rfl
  | stopAll => exact (stopAllInOrder_lockstep w w' h).2
  | killRemaining j => exact (killRemaining_lockstep j w w' h).2

/-- A whole run, by induction over its operations. -/
theorem run_twins (h : Twins i w w') {ops : List Op}
    (hops : Along both (fun p op => ¬StartsAgain i p op) ops (w, w')) :
    Twins i (run exec ops w) (run exec ops w') := by
  induction ops generalizing w w' with
  | nil => exact h
  | cons op ops ih => exact ih (exec_twins h hops.1) hops.2

/-- There the runs part: the start pass turns to the service in the second one only. -/
theorem StartsAgain.parts (h : Twins i w w') {t : Int} {j : Nat}
    (hop : StartsAgain i (w, w') (.start t j)) :
    startDue (min t w.k.clock) (w.svc i) = false ∧
      startDue (min t w.k.clock) (w'.svc i) = true := by
  obtain ⟨-, hkept, hmanual⟩ := hop
  generalize min t w.k.clock = now at hkept ⊢
  have hpend := h.svc i
  generalize w.svc i = s at hkept hpend ⊢
  generalize w'.svc i = s' at hmanual hpend ⊢
  obtain ⟨⟨m, r, rfl⟩, -, hr⟩ := hpend
  unfold keptDown at hkept
  rw [Bool.and_eq_true, Bool.not_eq_true'] at hkept
  obtain ⟨hready, hflags⟩ := hkept
  -- a service that is kept down has no process
  have hpid : s.pid ≤ 0 := by
    simp only [Bool.and_eq_true, decide_eq_true_eq] at hready
    exact hready.1.2
  -- the pending start did not move the time of the next attempt
  have hrestart : r = s.restartAt := by
    rcases hr with hr | ⟨-, hr⟩
    · exact hr
    · omega
  have hset : m = true := hmanual
  subst hrestart hset
  -- one run passes the service over, the other one starts it
  constructor
  · unfold startDue
    rw [hflags, Bool.and_false]
  · unfold startDue
    exact congrArg (· && true) hready

/-- The command for a service that runs. -/
theorem start_twins {line : Bytes} (hw : Reachable w) (hrun : (w.svc i).state = .running)
    (hacc : Accepts w line .start i) : Twins i w (exec (.request line) w) := by
  have hsound := (hw.accounted.tracked.sound i).running hrun
  have hpid : 0 < (w.svc i).pid := hsound.1
  have hstop : (w.svc i).stopping = false := hsound.2
  rw [request_exec hacc]
  refine ⟨rfl, rfl, fun j => ?_, _, rfl, ?_⟩
  · by_cases hj : j = i
    · subst hj
      show Pend _ (w.svc j) ((onSlot j (acceptCmd .start j) w).2.svc j)
      rw [onSlot_svc, if_pos rfl]
      refine ⟨⟨true, 0, ?_⟩, .inr ⟨by simp, rfl⟩, .inr ⟨by simp, hpid⟩⟩
      -- `stopping` was false before
      show { w.svc j with manualStart := true, restartAt := 0, stopping := false } =
        { w.svc j with manualStart := true, restartAt := 0 }
      rw [← hstop]
    · show Pend _ (w.svc j) ((onSlot i (acceptCmd .start i) w).2.svc j)
      rw [onSlot_svc, if_neg hj]
      exact .refl _
  · rfl

/-- A main process is forked for slot `i`. -/
def Event.starts (i : Nat) : Event → Bool
  | .fork (.main j) _ => j = i
  | _ => false

/-- The processes that `start_service` forks for slot `i`, newest first. -/
def startsOf (i : Nat) (evs : List Event) : List Event := evs.filter (Event.starts i)

/-- Alike tables have logged the same starts. -/
theorem Twins.starts (h : Twins i w w') : startsOf i w'.k.log = startsOf i w.k.log := by
  obtain ⟨trace, hk, hacts⟩ := h.kernel
  -- starts are among the events in which the two logs agree
  have hact : ∀ trace : List Event, startsOf i (trace.filter Event.isLife) =
      startsOf i (trace.filter Event.isAct) := by
    intro trace
    unfold startsOf
    rw [List.filter_filter, List.filter_filter]
    apply List.filter_congr
    intro e _
    cases e <;> simp [Event.starts, Event.isLife, Event.isAct]
  show startsOf i (w'.k.trace.filter Event.isLife) = startsOf i (w.k.trace.filter Event.isLife)
  rw [hk, hact, hact]
  exact congrArg (startsOf i) hacts

/-- Twins at both ends of a run. -/
theorem startsOf_logged {ops : List Op} (h : Twins i w w')
    (hend : Twins i (run exec ops w) (run exec ops w')) :
    startsOf i (logged ops w') = startsOf i (logged ops w) := by
  obtain ⟨evs, hevs⟩ : ∃ evs, (run exec ops w).k.log = evs ++ w.k.log :=
    Performs.log_extends ⟨ops, rfl⟩
  obtain ⟨evs', hevs'⟩ : ∃ evs, (run exec ops w').k.log = evs ++ w'.k.log :=
    Performs.log_extends ⟨ops, rfl⟩
  have hall := hend.starts
  rw [hevs, hevs'] at hall
  unfold startsOf at hall
  rw [List.filter_append, List.filter_append] at hall
  -- what was logged before the operations is the same, and drops out
  have hbase : w'.k.log.filter (Event.starts i) = w.k.log.filter (Event.starts i) := h.starts
  rw [hbase] at hall
  unfold logged
  rw [hevs, hevs', Transition.since_append, Transition.since_append]
  exact List.append_cancel_right hall

end

/-- Whether `start` is issued for a running service or not, the same processes are started for it
    in every continuation in which the start pass never comes to the service while nothing but
    its flags keeps it down and the flag of the command is still set. -/
theorem start_noop {w : World} {i : Nat} {line : Bytes} {ops : List Op} (hw : Reachable w)
    (hrun : (w.svc i).state = .running) (hacc : Accepts w line .start i)
    (hops : Along both (fun p op => ¬StartsAgain i p op) ops (w, exec (.request line) w)) :
    startsOf i (logged ops (exec (.request line) w)) = startsOf i (logged ops w) :=
  startsOf_logged (start_twins hw hrun hacc) (run_twins (start_twins hw hrun hacc) hops)

/-- A service that is started automatically: after the exit it is started once in both runs. -/
def exitAgain (pid : Int) : List Op := [.reapChild pid 0, .wait 10 [], .readClock, .start 10 0]

/-- A service that is restarted anyway. -/
theorem start_noop_auto :
    startsOf 0 (logged (exitAgain 116) (exec (.request (bytesOf "start a")) plainStarted)) =
      startsOf 0 (logged (exitAgain 116) plainStarted) := by
  have hstate : (plainStarted.svc 0).state = .running ∧
      Along both (fun p op => ¬StartsAgain 0 p op) (exitAgain 116)
        (plainStarted, exec (.request (bytesOf "start a")) plainStarted) := by
    decide +kernel
  have hacc : Accepts plainStarted (bytesOf "start a") .start 0 :=
    ⟨by decide +kernel, by decide +kernel, by decide +kernel⟩
  exact start_noop plainStarted_reachable hstate.1 hacc hstate.2

/-- A service `a` that is not started automatically. -/
def downFiles : FileSys where
  access path _ := path = bytesOf "/s/a/run" || path = bytesOf "/s/a/down"

/-- After a `start`, `a` runs as process 117. -/
def downStarted : World :=
  (mainLoop [{ listing := some [bytesOf "a"], poll := { control := some (bytesOf "start a") } }, {}]
    (bootOn downFiles)).world

/-- A second `start` while it runs: after the exit it is started once more, and without the
    second `start` it stays down. -/
theorem start_remembered :
    ¬∀ (w : World) (i : Nat) (line : Bytes) (ops : List Op), Reachable w →
      (w.svc i).state = .running → Accepts w line .start i →
      startsOf i (logged ops (exec (.request line) w)) = startsOf i (logged ops w) := by
  intro hnoop
  have hreach : Reachable downStarted := ⟨_, _, _, mainLoop_performs _ _⟩
  have hacc : Accepts downStarted (bytesOf "start a") .start 0 :=
    ⟨by decide +kernel, by decide +kernel, by decide +kernel⟩
  have hrun : (downStarted.svc 0).state = .running ∧
      startsOf 0 (logged (exitAgain 117) downStarted) = [] ∧
      (startsOf 0 (logged (exitAgain 117) (exec (.request (bytesOf "start a")) downStarted))).length
        = 1 := by
    decide +kernel
  -- the process exits once more: only the run with the command starts it again
  have hsame := hnoop downStarted 0 (bytesOf "start a") (exitAgain 117) hreach hrun.1 hacc
  rw [hsame, hrun.2.1] at hrun
  exact absurd hrun.2.2 (by decide)

end SvcRs
