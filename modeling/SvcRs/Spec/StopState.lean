import SvcRs.Spec.Commands
import SvcRs.Spec.Processes
import SvcRs.Spec.ScanEntry

/-!
# STOPPING and a stop in progress

That a stop is in progress is kept in three fields: the state STOPPING, the flag `stopping`
and the pid. Exits, starts, removals and the propagation along the dependencies keep them
in step. `stop` and `restart` do not if there is no process, and `start`, `up` and a scan
do not if a stop is in progress: they clear the flag and leave the state.

## Key results

- `LifeStep.inStep`: every other step keeps the three fields in step
- `inStep_op`: an operation keeps them in step exactly when it is none of these
- `stopping_in_step_iff`: the same for whole runs
-/

namespace SvcRs

open Transition (run Along)

/-! ## One record -/

/-- The three fields agree. -/
def Core.InStep (c : Core) : Prop := c.state = .stopping ↔ c.stopping = true ∧ 0 < c.pid

namespace Core

variable {c : Core}

/-- A record that is neither stopping nor about to be. -/
theorem InStep.of_idle (hstate : c.state ≠ .stopping) (hidle : ¬(c.stopping = true ∧ 0 < c.pid)) :
    c.InStep :=
  ⟨fun h => absurd h hstate, fun h => absurd h hidle⟩

/-- A service that is told to stop. -/
theorem InStep.told (hpid : 0 < c.pid) : c.told.InStep := ⟨fun _ => ⟨rfl, hpid⟩, fun _ => rfl⟩

/-- To clear the flag is harmless exactly when no stop is in progress. -/
theorem InStep.clear_iff {d : Core} (h : c.InStep) (hstate : d.state = c.state)
    (hclear : d.stopping = false) : d.InStep ↔ ¬(c.stopping = true ∧ 0 < c.pid) := by
  unfold InStep at h ⊢
  rw [hstate, hclear, h]
  simp

/-- The commands that leave the three fields in step. -/
theorem InStep.command_iff (h : c.InStep) (t : Int) (cmd : SvcCmd) : (c.command t cmd).InStep ↔
    (cmd = .start ∨ cmd = .up → ¬(c.stopping = true ∧ 0 < c.pid)) ∧
      (cmd = .stop ∨ cmd = .restart → 0 < c.pid) := by
  cases cmd with
  -- `start` and `up` clear `stopping`, which is wrong while a process is being stopped
  | start =>
    have hclear := h.clear_iff (d := c.command t .start) rfl rfl
    simpa using hclear
  | up =>
    have hclear := h.clear_iff (d := c.command t .up) rfl rfl
    simpa using hclear
  -- `stop` and `restart` set both, which is wrong without a process
  | stop | restart => simp [command, InStep, Core.told]
  | once =>
    have honce : (c.command t .once).InStep := h
    simpa using honce
  -- `down` sets both only if there is a process
  | down =>
    have hdown : (c.command t .down).InStep := by
      by_cases hpid : 0 < c.pid
      · rw [command, if_pos hpid]
        exact InStep.told hpid
      · rw [command, if_neg hpid]
        exact h
    simpa using hdown

end Core

/-! ## The steps of the life cycle -/

/-- Every record in use. -/
def Life.InStep (a : Life) : Prop := ∀ i < a.size, (a.core i).active = true → (a.core i).InStep

/-- The steps that neither clear the flag nor carry out a command. -/
def noClear : Kind → Prop
  | .start _ | .add _ => True
  | .found _ | .command .. => False

section

variable {a b : Life}

/-- A step that changes the record of slot `j`. -/
theorem Life.InStep.put (h : a.InStep) {j : Nat} {c : Core} (hcore : b.core = (a.put j c).core)
    (hsize : b.size = a.size) (hc : j < a.size → c.active = true → c.InStep) : b.InStep := by
  intro i hi hact
  rw [hsize] at hi
  rw [hcore, Life.put_core] at hact ⊢
  split at hact
  · next he =>
    rw [if_pos he]
    exact hc (he ▸ hi) hact
  · next he =>
    rw [if_neg he]
    exact h i hi hact

/-- One step, if it clears no `stopping`. -/
theorem LifeStep.inStep (hstep : LifeStep noClear a b) (h : a.InStep) : b.InStep := by
  cases hstep with
  | tick | forkFinish | reapOther | signalMain | signalLogger | raiseHup | runCheck => exact h
  -- these two are excluded from the run
  | found i c hc hS | command i c hc cmd t ht hS => exact hS.elim
  | reapLogger i c hc | unmark i c hc | forkLogger i c hc | retry i c hc =>
    subst hc
    exact h.put rfl rfl fun hi hact => h i hi hact
  | tell i c hc hpid => exact h.put (c := c.told) rfl rfl fun _ _ => .told hpid
  -- after an exit there is no process to be stopped
  | reapMain i c hc status t =>
    apply h.put (c := c.exit status t) rfl rfl
    intro _ _
    exact .of_idle (c.exit_state status t).2 (by simp)
  | add i c hi hact hnew =>
    apply h.put rfl rfl
    intro _ _
    exact .of_idle (by simp [hnew.state]) (by simp [hnew.notStopping])
  | remove i c hc => exact h.put rfl rfl fun _ hact => by cases hact
  -- a service is started only if it is not stopping
  | start i c hc hS pid t hdue =>
    apply h.put (c := c.start pid t) rfl rfl
    intro _ _
    exact .of_idle (by simp [Core.start]) (by simp [Core.start, hdue.notStopping])
  | startFail i c hc hS pid t hdue =>
    apply h.put rfl rfl
    intro _ _
    exact .of_idle (by simp) (by simp [hdue.notStopping])

/-- Any number of them. -/
theorem LifeSteps.inStep (hsteps : LifeSteps noClear a b) (h : a.InStep) : b.InStep :=
  hsteps.invariant (fun _ _ hstep => hstep.inStep) h

end

/-! ## Operations -/

/-- STOPPING means that a stop is in progress. -/
def StoppingInStep (w : World) : Prop :=
  ∀ i < w.size, (w.svc i).active = true →
    ((w.svc i).state = .stopping ↔ (w.svc i).stopping = true ∧ 0 < (w.svc i).pid)

/-- The operation is no scan, `start` or `up` that hits a service on its way down, and no
    `stop` or `restart` that hits a service without a process. -/
def Op.KeepsInStep (w : World) : Op → Prop
  | .scanEntry name => ∀ i, FoundAt w name i → ¬((w.svc i).stopping = true ∧ 0 < (w.svc i).pid)
  | .request line => ∀ cmd i, Accepts w line cmd i →
      (cmd = .start ∨ cmd = .up → ¬((w.svc i).stopping = true ∧ 0 < (w.svc i).pid)) ∧
        (cmd = .stop ∨ cmd = .restart → 0 < (w.svc i).pid)
  | _ => True

instance (w : World) : Decidable (StoppingInStep w) :=
  inferInstanceAs (Decidable (∀ _ < _, _ → (_ ↔ _)))

section

variable {w w' : World} {i : Nat}

/-- If all other records are as they were, it depends on one record. -/
theorem StoppingInStep.slot_iff (h : StoppingInStep w) (hsize : w'.size = w.size) (hi : i < w.size)
    (hact : (w'.svc i).active = true)
    (hother : ∀ j, j ≠ i → (w'.svc j).core = (w.svc j).core) :
    StoppingInStep w' ↔ (w'.svc i).core.InStep := by
  constructor
  · exact fun h' => h' i (hsize ▸ hi) hact
  · intro hc j hj hactj
    -- only slot `i` can have changed
    by_cases he : j = i
    · exact he ▸ hc
    · have hcore := hother j he
      have hold : (w.svc j).core.InStep :=
        h j (hsize ▸ hj) ((congrArg Core.active hcore).symm.trans hactj)
      show (w'.svc j).core.InStep
      rw [hcore]
      exact hold

/-- A directory keeps the records in step exactly under its condition. -/
theorem inStep_scanEntry (h : StoppingInStep w) (name : Bytes) :
    StoppingInStep (exec (.scanEntry name) w) ↔ (Op.scanEntry name).KeepsInStep w := by
  by_cases hfound : ∃ i, FoundAt w name i
  · obtain ⟨i, hi⟩ := hfound
    obtain ⟨hlt, hact⟩ := w.findSlot_some hi.find
    simp only [Bool.and_eq_true, decide_eq_true_eq] at hact
    have hrun : exec (.scanEntry name) w = (onSlot i (foundService i) (probed name w)).2 :=
      scanEntry_found hi
    -- the scan clears the flag of the record that it finds
    have hcore : ((exec (.scanEntry name) w).svc i).core =
        { (w.svc i).core with present := true, stopping := false } := by
      rw [hrun, onSlot_svc, if_pos rfl]
      exact foundService_core i _ _
    have hold : (w.svc i).core.InStep := h i hlt hact.1
    have hslot : StoppingInStep (exec (.scanEntry name) w) ↔
        ((exec (.scanEntry name) w).svc i).core.InStep := by
      apply h.slot_iff (scanEntry_size name w) hlt
      · exact (congrArg Core.active hcore).trans hact.1
      · intro j hj
        show (((scanEntry name w).2.svc j)).core = _
        rw [scanEntry_found hi, onSlot_svc, if_neg hj]
        rfl
    -- which is harmless exactly when no stop is in progress
    rw [hslot, hold.clear_iff (by rw [hcore]) (by rw [hcore])]
    constructor
    · intro hno j hj
      obtain rfl : j = i := Option.some.inj (hj.find.symm.trans hi.find)
      exact hno
    · exact fun hno => hno i hi
  · -- without a known directory the scan takes no step that clears the flag
    have hsteps : Steps noClear w (exec (.scanEntry name) w) :=
      scanEntry_steps name w (fun i hi => (hfound ⟨i, hi⟩).elim) fun _ _ => trivial
    have hkeeps : (Op.scanEntry name).KeepsInStep w := fun i hi => (hfound ⟨i, hi⟩).elim
    exact iff_of_true (hsteps.inStep h) hkeeps

/-- The sweeps before a command. -/
theorem beforeCmd_inStep (h : StoppingInStep w) (cmd : SvcCmd) :
    StoppingInStep (beforeCmd cmd w) := by
  have hsteps : Steps noClear w (beforeCmd cmd w) := by
    unfold beforeCmd
    split
    · exact stopTransitiveDeps_follows.steps w
    · exact .refl
  exact hsteps.inStep h

/-- A request keeps them in step exactly under its condition. -/
theorem inStep_request (h : StoppingInStep w) (line : Bytes) :
    StoppingInStep (exec (.request line) w) ↔ (Op.request line).KeepsInStep w := by
  by_cases haccepts : ∃ cmd i, Accepts w line cmd i
  · obtain ⟨cmd, i, hcmd⟩ := haccepts
    have htells := beforeCmd_tells cmd w
    have hbefore := beforeCmd_inStep h cmd
    have hlt : i < (beforeCmd cmd w).size := htells.size ▸ hcmd.inTable
    have hact : ((beforeCmd cmd w).svc i).active = true := (htells.active i).trans hcmd.active
    obtain ⟨t, hcore⟩ := request_core hcmd
    have hold : ((beforeCmd cmd w).svc i).core.InStep := hbefore i hlt hact
    have hslot : StoppingInStep (exec (.request line) w) ↔
        ((exec (.request line) w).svc i).core.InStep := by
      apply hbefore.slot_iff _ hlt
      · exact (congrArg Core.active hcore).trans
          (((beforeCmd cmd w).svc i).core.command_active t cmd ▸ hact)
      · intro j hj
        rw [request_other hcmd hj]
      · rw [request_exec hcmd]
        rfl
    rw [hslot, hcore, hold.command_iff]
    have hpid : ((beforeCmd cmd w).svc i).core.pid = (w.svc i).pid := htells.pid i
    rw [hpid]
    constructor
    · intro hc cmd' j hj
      obtain rfl : cmd = cmd' := Request.svc.inj (hcmd.request.symm.trans hj.request)
      obtain rfl : i = j := Option.some.inj (hcmd.found.symm.trans hj.found)
      refine ⟨fun hclears => ?_, hc.2⟩
      -- only `stop` looks at the dependents first
      have hsame : beforeCmd cmd w = w := by
        rcases hclears with rfl | rfl <;> rfl
      rw [hsame] at hc
      exact hc.1 hclears
    · intro hkeeps
      obtain ⟨hclears, hstops⟩ := hkeeps cmd i hcmd
      refine ⟨fun he => ?_, hstops⟩
      have hsame : beforeCmd cmd w = w := by
        rcases he with rfl | rfl <;> rfl
      rw [hsame]
      exact hclears he
  · have hsteps : Steps noClear w (exec (.request line) w) :=
      handleControlCommand_steps fun cmd i hc => (haccepts ⟨cmd, i, hc⟩).elim
    have hkeeps : (Op.request line).KeepsInStep w := fun cmd i hc => (haccepts ⟨cmd, i, hc⟩).elim
    exact iff_of_true (hsteps.inStep h) hkeeps

/-- Other operations clear no `stopping`. -/
theorem noClear_steps {op : Op} (hscan : ∀ name, op ≠ .scanEntry name)
    (hrequest : ∀ line, op ≠ .request line) (w : World) : Steps noClear w (exec op w) := by
  apply (exec_steps op w).mono
  intro x hx
  cases x with
  | start | add => trivial
  -- only an entry of a scan finds a directory, and only a request is a command
  | found i =>
    cases op with
    | scanEntry name => exact hscan name rfl
    | _ => exact hx
  | command cmd i =>
    cases op with
    | request line => exact hrequest line rfl
    | _ => exact hx

/-- So they keep the records in step. -/
theorem inStep_other {op : Op} (h : StoppingInStep w) (hscan : ∀ name, op ≠ .scanEntry name)
    (hrequest : ∀ line, op ≠ .request line) : StoppingInStep (exec op w) :=
  (noClear_steps hscan hrequest w).inStep h

/-- One operation. -/
theorem inStep_op (h : StoppingInStep w) (op : Op) :
    StoppingInStep (exec op w) ↔ op.KeepsInStep w := by
  cases op with
  | scanEntry name => exact inStep_scanEntry h name
  | request line => exact inStep_request h line
  | _ => exact iff_of_true (inStep_other h (by simp) (by simp)) trivial

end

/-! ## Runs -/

/-- In every run of the supervisor, STOPPING means after every step that a stop is in progress
    if and only if no step is one of the scans and commands that get the fields out of step. -/
theorem stopping_in_step_iff (root : CStrBuf) (oracle : Nat → Answer) (fds : List Int)
    (ops : List Op) :
    Along exec (fun w op => StoppingInStep (exec op w)) ops (boot root oracle fds).world ↔
      Along exec (fun w op => op.KeepsInStep w) ops (boot root oracle fds).world := by
  apply Transition.along_iff (I := fun _ => True)
  · exact fun _ _ _ => trivial
  · exact fun _ op _ h => inStep_op h op
  · trivial
  · intro i _ hact
    cases hact

/-- After the first scan `a` runs as process 116. `stop a`, and then `start a`, `up a` or a scan. -/
def stopped : World := exec (.request (bytesOf "stop a")) plainStarted

/-- A stop that is cancelled leaves the process in STOPPING, and a `stop` of a service whose
    process has exited makes it STOPPING without one. -/
theorem stopping_out_of_step :
    Reachable stopped ∧
    ¬StoppingInStep (exec (.request (bytesOf "start a")) stopped) ∧
    ¬StoppingInStep (exec (.request (bytesOf "up a")) stopped) ∧
    ¬StoppingInStep (exec (.scanEntry (bytesOf "a")) stopped) ∧
    ¬StoppingInStep (exec (.request (bytesOf "stop a")) (exec (.reapChild 116 15) stopped)) ∧
    ¬StoppingInStep (exec (.request (bytesOf "restart a")) (exec (.reapChild 116 15) stopped)) := by
  refine ⟨plainStarted_reachable.run [.request (bytesOf "stop a")], ?_⟩
  -- record and state disagree in slot 0
  have hno : ∀ w : World, 0 < w.size ∧ (w.svc 0).active = true ∧
      ((w.svc 0).state = .stopping ↔ ¬((w.svc 0).stopping = true ∧ 0 < (w.svc 0).pid)) →
      ¬StoppingInStep w := by
    intro w hw h
    obtain ⟨hsize, hact, hdiffers⟩ := hw
    have hagree := h 0 hsize hact
    rw [hdiffers] at hagree
    exact absurd hagree not_iff_self
  -- three ways to clear `stopping` too early, and two to set it too late
  have hbad : ∀ w ∈ [exec (.request (bytesOf "start a")) stopped,
      exec (.request (bytesOf "up a")) stopped, exec (.scanEntry (bytesOf "a")) stopped,
      exec (.request (bytesOf "stop a")) (exec (.reapChild 116 15) stopped),
      exec (.request (bytesOf "restart a")) (exec (.reapChild 116 15) stopped)],
      ¬StoppingInStep w := by
    intro w hw
    apply hno
    revert w
    decide +kernel
  simpa only [List.forall_mem_cons, List.not_mem_nil, false_imp_iff, implies_true, and_true] using hbad

end SvcRs
