import SvcRs.ForStd.Transition
import SvcRs.Spec.Refinement

/-!
# Runs of the supervisor

An operation is the body of one of the supervisor's loops, or what it does between
two loops. A run takes operations in any order, so what holds of every run holds
whatever the children, the file system, the clients and the clock do in between.
The main loop and the shutdown are runs.

## Key results

- `exec_steps`: every operation is made of life-cycle steps
- `mainLoop_performs`, `shutdown_performs`: the program only makes runs
- `Reachable.invariant`: what life-cycle steps preserve holds in every reachable state
-/

namespace SvcRs

open Transition (run)

/-! ## Operations -/

/-- The operations of a run. -/
inductive Op where
  | reapChild (pid status : Int)
  | stopDeps
  | logDeath (i : Nat)
  | readClock
  | unmark (i : Nat)
  | scanEntry (name : Bytes)
  | missing (i : Nat)
  /-- The start pass at slot `i`, with the clock reading `t`. -/
  | start (t : Int) (i : Nat)
  | request (line : Bytes)
  | signals (reads : List Nat)
  | output (i : Nat) (err : Bool) (reads : List ReadResult)
  | wait (elapsed : Nat) (arrivals : Bytes)
  | stopAll
  | killRemaining (i : Nat)

/-- The state after an operation. -/
def exec : Op → World → World
  | .reapChild pid status, w => (reapChild pid status w).2
  | .stopDeps, w => (stopTransitiveDeps w).2
  | .logDeath i, w => (killOnLogDeath i w).2
  | .readClock, w => (liftSys monoNow w).2
  | .unmark i, w => (unmarkPresent i w).2
  | .scanEntry name, w => (scanEntry name w).2
  | .missing i, w => (missingSlot i w).2
  -- the reading is never ahead of the clock
  | .start t i, w => (startSlot (min t w.k.clock) i w).2
  | .request line, w => (handleControlCommand line w).2
  | .signals reads, w => (liftSys (drainSignalPipe reads) w).2
  | .output i err reads, w => (drainOutput i err reads w).2
  | .wait elapsed arrivals, w => pollWait elapsed arrivals w
  | .stopAll, w => (stopAllInOrder w).2
  | .killRemaining i, w => (killRemaining i w).2

/-- The events of a run, newest first. -/
def logged (ops : List Op) (w : World) : List Event :=
  Transition.since w.k.log (run exec ops w).k.log

/-- A main process is forked for slot `i`. -/
def Starts (i : Nat) (e : Event) : Prop := ∃ pid, e = .fork (.main i) pid

/-- The kinds of steps that an operation may take in a state. -/
def Op.kinds (w : World) : Op → Kind → Prop
  | .start _ i, .start j => j = i
  | .scanEntry name, .found i => FoundAt w name i
  | .scanEntry name, .add i => AddsAt w name i
  | .request line, .command cmd i => Accepts w line cmd i
  | _, _ => False

/-- No restriction. -/
abbrev anyKind : Kind → Prop := fun _ => True

/-- Waiting in `poll` only passes time. -/
theorem pollWait_steps {S : Kind → Prop} (elapsed : Nat) (arrivals : Bytes) (w : World) :
    Steps S w (pollWait elapsed arrivals w) := by
  have hle : w.k.clock ≤ (w.k.advance elapsed).clock := by
    have := w.k.clockLe
    simp only [Kernel.advance]
    omega
  have htick := LifeStep.tick (S := S) (a := w.life) _ hle
  exact .single htick

/-- Every operation is made of life-cycle steps. -/
theorem exec_steps (op : Op) (w : World) : Steps (op.kinds w) w (exec op w) := by
  cases op with
  | reapChild pid status => exact (reapChild_follows pid status).steps w
  | stopDeps => exact stopTransitiveDeps_follows.rel w
  | logDeath i => exact (killOnLogDeath_follows i).steps w
  | readClock => exact monoNow_calm.liftSys.steps w
  | unmark i => exact (unmarkPresent_follows i).steps w
  | scanEntry name => exact scanEntry_steps name w (fun _ hi => hi) fun _ hi => hi
  | missing i => exact (missingSlot_follows i).steps w
  | start t i => exact startSlot_steps (S := (Op.start t i).kinds w) rfl w (Int.min_le_right ..)
  | request line => exact handleControlCommand_steps fun _ _ h => h
  | signals reads => exact (drainSignalPipe_calm reads).liftSys.steps w
  | output i err reads => exact (drainOutput_follows i err reads).steps w
  | wait elapsed arrivals => exact pollWait_steps elapsed arrivals w
  | stopAll => exact stopAllInOrder_follows.steps w
  | killRemaining i => exact (killRemaining_follows i).steps w

/-! ### The start pass -/

/-- The start pass calls `start_service`. -/
theorem exec_start {w : World} {t : Int} {i : Nat}
    (hdue : startDue (min t w.k.clock) (w.svc i) = true) (hdeps : depsSatisfied w (w.svc i) = true) :
    exec (.start t i) w = (onSlot i (startService i) w).2 := by
  show (startSlot (min t w.k.clock) i w).2 = _
  unfold startSlot
  rw [Sup.get_bind, Sup.ite_apply, if_pos hdue, Sup.ite_apply, if_neg (by simp [hdeps])]

/-- The start pass takes service `i` for due, and finds its hard dependencies running or not. -/
def Op.Finds (running : Bool) (i : Nat) : Op → World → Prop
  | .start t j, w =>
    j = i ∧ startDue (min t w.k.clock) (w.svc i) = true ∧ depsSatisfied w (w.svc i) = running
  | _, _ => False

instance Op.Finds.decidable (running : Bool) (i : Nat) :
    (op : Op) → (w : World) → Decidable (op.Finds running i w)
  | .start .., _ => inferInstanceAs (Decidable (_ ∧ _ ∧ _))
  | .reapChild .., _ | .stopDeps, _ | .logDeath _, _ | .readClock, _ | .unmark _, _
  | .scanEntry _, _ | .missing _, _ | .request _, _ | .signals _, _ | .output .., _ | .wait .., _
  | .stopAll, _ | .killRemaining _, _ => isFalse id

/-- The start pass calls `start_service` for service `i`. -/
abbrev Op.StartsAt (op : Op) (i : Nat) (w : World) : Prop := op.Finds true i w

/-- The start pass moves `restart_at` of service `i` to `mono_now() + 1`. -/
abbrev Op.PutsOff (op : Op) (i : Nat) (w : World) : Prop := op.Finds false i w

/-- Such a start pass is the call of `start_service`, which gets past its guard. -/
theorem startsAt_calls {t : Int} {i : Nat} {w : World} (h : (Op.start t i).StartsAt i w) :
    exec (.start t i) w = (onSlot i (startService i) w).2 ∧ PassesGuard (w.svc i) := by
  obtain ⟨-, hdue, hdeps⟩ := h
  exact ⟨exec_start hdue hdeps, startDue_passes hdue⟩

/-! ### Without starts -/

/-- Everything that is not a start. -/
def noStart : Kind → Prop
  | .start _ => False
  | .found _ | .add _ | .command .. => True

/-- Only the start pass starts anything. -/
theorem exec_starts_nothing {op : Op} (h : ∀ t i, op ≠ .start t i) (w : World) :
    Steps noStart w (exec op w) := by
  refine (exec_steps op w).mono fun x hx => ?_
  cases x with
  | found | add | command => trivial
  | start i =>
    cases op with
    | start t j => exact h t j rfl
    | _ => exact hx

/-! ## The program makes runs -/

/-- From one state to another by a run. -/
def Performs (w w' : World) : Prop := ∃ ops, run exec ops w = w'

instance : Std.Refl Performs := ⟨fun _ => ⟨[], rfl⟩⟩

instance : IsTrans World Performs := ⟨fun w _ _ ⟨ops, h⟩ ⟨ops', h'⟩ =>
  ⟨ops ++ ops', by rw [Transition.run_append, h, h']⟩⟩

/-- Operations after operations. -/
theorem Performs.trans {w w' w'' : World} (h : Performs w w') (h' : Performs w' w'') :
    Performs w w'' := IsTrans.trans _ _ _ h h'

/-- A single operation. -/
theorem Performs.op (op : Op) (w : World) : Performs w (exec op w) := ⟨[op], rfl⟩

/-- What the program does is made of life-cycle steps. -/
theorem Performs.steps {w w' : World} (h : Performs w w') : Steps anyKind w w' := by
  obtain ⟨ops, rfl⟩ := h
  induction ops generalizing w with
  | nil => exact .refl
  | cons op ops ih =>
    exact ((exec_steps op w).mono fun _ _ => trivial).trans (ih (w := exec op w))

/-- The log only grows. -/
theorem Performs.log_extends {w w' : World} (h : Performs w w') :
    ∃ evs, w'.k.log = evs ++ w.k.log := LifeSteps.log_extends h.steps

/-- The later events of a run come before the earlier ones. -/
theorem logged_append (ops ops' : List Op) (w : World) :
    logged (ops ++ ops') w = logged ops' (run exec ops w) ++ logged ops w := by
  obtain ⟨early, hearly⟩ : ∃ evs, (run exec ops w).k.log = evs ++ w.k.log :=
    Performs.log_extends ⟨ops, rfl⟩
  obtain ⟨late, hlate⟩ : ∃ evs, (run exec ops' (run exec ops w)).k.log =
      evs ++ (run exec ops w).k.log := Performs.log_extends ⟨ops', rfl⟩
  have hsplit : (run exec (ops ++ ops') w).k.log = (late ++ early) ++ w.k.log := by
    rw [Transition.run_append, hlate, hearly, List.append_assoc]
  simp only [logged, hsplit, hlate, hearly, Transition.since_append]

/-- What holds of all events of a run holds of the events of each operation. -/
theorem along_logged {P : Event → Prop} {ops : List Op} {w : World}
    (h : ∀ e ∈ logged ops w, P e) :
    Transition.Along exec (fun w op => ∀ e ∈ logged [op] w, P e) ops w := by
  induction ops generalizing w with
  | nil => trivial
  | cons op ops ih =>
    have hsplit : logged (op :: ops) w = logged ops (exec op w) ++ logged [op] w :=
      logged_append [op] ops w
    rw [hsplit] at h
    constructor
    · exact fun e he => h e (List.mem_append_right _ he)
    · exact ih fun e he => h e (List.mem_append_left _ he)

/-- Every execution of `m` is a run. -/
abbrev IsRun {α : Type} (m : Sup α) : Prop := StateM.Keeps Performs m fun _ => True

/-! ### What every operation but the starts respects -/

/-- The operations that are no starts move the table along `R`. -/
abbrev Respects (R : World → World → Prop) : Prop :=
  ∀ op, (∀ t i, op ≠ .start t i) → ∀ w, R w (exec op w)

/-- The program performs operations. -/
theorem performs_respects : Respects Performs := fun op _ w => .op op w

/-- Without starts, what it performs are life-cycle steps other than starts. -/
theorem steps_respects : Respects (Steps noStart) := fun _ h w => exec_starts_nothing h w

section

variable {R : World → World → Prop} [Std.Refl R] [IsTrans World R] (hR : Respects R)

include hR

omit [Std.Refl R] [IsTrans World R] in

/-- A computation that is one operation, and not a start. -/
theorem Respects.op {α : Type} {m : Sup α} (op : Op) (h : ∀ w, (m w).2 = exec op w)
    (hop : ∀ t i, op ≠ .start t i) : StateM.Keeps R m fun _ => True :=
  fun w _ => ⟨h w ▸ hR op hop w, trivial⟩

/-- A body that is an operation in every slot. -/
theorem Respects.slots {body : Nat → Sup Unit} (op : Nat → Op)
    (h : ∀ i w, (body i w).2 = exec (op i) w) (hop : ∀ j t i, op j ≠ .start t i) (is : List Nat) :
    StateM.Keeps R (forSlots body is) fun _ => True :=
  forSlots_keeps (fun i => hR.op (op i) (h i) (hop i)) is

omit hR [Std.Refl R] [IsTrans World R] in
theorem keeps_get {α : Type} {f : World → Sup α}
    (h : ∀ w, StateM.Keeps R (f w) fun _ => True) :
    StateM.Keeps R (MonadState.get >>= f) fun _ => True := fun w _ => h w w trivial

omit [Std.Refl R] [IsTrans World R] in

/-- Reading the clock on its own. -/
theorem readClock_keeps : StateM.Keeps R (liftSys monoNow) fun _ => True :=
  hR.op .readClock (fun _ => rfl) nofun

/-- What follows the reaped children: dependents, and services without their logger. -/
theorem finishReap_keeps (need : Bool) : StateM.Keeps R (finishReap need) fun _ => True := by
  have hlog : StateM.Keeps R killMainOnLogDeath fun _ => True :=
    keeps_get fun w => hR.slots .logDeath (fun _ _ => rfl) nofun w.slots
  exact .ite (fun _ => (hR.op .stopDeps (fun _ => rfl) nofun).seq fun _ => hlog) fun _ => hlog

/-- The `waitpid` loop, by induction over its results. -/
theorem reapLoop_keeps (exits : List (Int × Int)) (need : Bool) :
    StateM.Keeps R (reapLoop exits need) fun _ => True := by
  induction exits generalizing need with
  | nil => exact .pure trivial
  | cons e exits ih =>
    apply (hR.op (.reapChild e.1 e.2) (fun _ => rfl) nofun).seq
    intro r
    cases r with
    | none => exact .pure trivial
    | some need' => exact ih _

/-- A whole reaping. -/
theorem reapChildren_keeps (exits : List (Int × Int)) :
    StateM.Keeps R (reapChildren exits) fun _ => True :=
  (reapLoop_keeps hR exits false).seq (finishReap_keeps hR)

/-- The `readdir` loop, by induction over the names. -/
theorem scanEntries_keeps (names : List Bytes) :
    StateM.Keeps R (scanEntries names) fun _ => True := by
  induction names with
  | nil => exact .pure trivial
  | cons name names ih =>
    exact (hR.op (.scanEntry name) (fun _ => rfl) nofun).seq fun _ => ih

/-- A whole scan, whether the directory can be opened or not. -/
theorem rescan_keeps (listing : Option (List Bytes)) :
    StateM.Keeps R (rescan listing) fun _ => True := by
  cases listing with
  | none => exact .pure trivial
  | some names =>
    have hunmark : ∀ is, StateM.Keeps R (forSlots unmarkPresent is) fun _ => True :=
      hR.slots .unmark (fun _ _ => rfl) nofun
    have hmissing : StateM.Keeps R handleMissingServices fun _ => True :=
      keeps_get fun w => hR.slots .missing (fun _ _ => rfl) nofun w.slots
    have hscan : StateM.Keeps R (scanServices names) fun _ => True :=
      keeps_get fun w => (hunmark w.slots).seq fun _ => scanEntries_keeps hR names
    exact hscan.seq fun _ => hmissing

/-- The output that `poll` has reported. -/
theorem drainOutputs_keeps (outputs : List (Nat × Bool × List ReadResult)) :
    StateM.Keeps R (drainOutputs outputs) fun _ => True := by
  induction outputs with
  | nil => exact .pure trivial
  | cons o outputs ih =>
    exact (hR.op (.output o.1 o.2.1 o.2.2) (fun _ => rfl) nofun).seq fun _ => ih

/-- Requests and output after a `poll`. -/
theorem dispatchRequests_keeps (r : PollResult) :
    StateM.Keeps R (dispatchRequests r) fun _ => True := by
  have hcontrol : ∀ request, StateM.Keeps R (dispatchControl request) fun _ => True := by
    intro request
    rcases request with _ | _ | ⟨c, line⟩
    · exact .pure trivial
    · exact .pure trivial
    · exact hR.op (.request ((c :: line).take cmdBuf)) (fun _ => rfl) nofun
  exact (hcontrol r.control).seq fun _ => drainOutputs_keeps hR r.outputs

/-! ### The shutdown -/

omit hR [Std.Refl R] [IsTrans World R] in

/-- The output of a slot in use is that of its record. -/
theorem drainOutput_active {w : World} {i : Nat} (hact : (w.svc i).active = true) (err : Bool)
    (reads : List ReadResult) : drainOutput i err reads w = onSlot i (drainStream err reads) w := by
  simp only [drainOutput, Sup.get_bind, hact, if_true]

/-- Both streams of one slot. -/
theorem drainSlot_keeps (reads : Nat → Bool → List ReadResult) (i : Nat) :
    StateM.Keeps R (drainSlot reads i) fun _ => True := by
  refine fun w _ => ⟨?_, trivial⟩
  cases hact : (w.svc i).active with
  | false =>
    have hskip : (drainSlot reads i w).2 = w := by
      simp only [drainSlot, Sup.get_bind, hact]
      rfl
    rw [hskip]
    exact Std.Refl.refl w
  | true =>
    -- draining one stream leaves the record active
    have hact₁ : ((drainOutput i false (reads i false) w).2.svc i).active = true := by
      have hcore := (drainStream_calm false (reads i false) (w.svc i)).post w.k
      rw [drainOutput_active hact, onSlot_svc, if_pos rfl]
      exact (congrArg Core.active hcore).trans hact
    have hrun : (drainSlot reads i w).2 = exec (.output i true (reads i true))
        (exec (.output i false (reads i false)) w) := by
      simp only [drainSlot, Sup.get_bind, hact, if_true]
      simp only [exec]
      rw [drainOutput_active hact₁, drainOutput_active hact, Sup.bind_apply]
    rw [hrun]
    exact IsTrans.trans _ _ _ (hR (.output i false (reads i false)) nofun w)
      (hR (.output i true (reads i true)) nofun _)

/-- One reading of all streams during the shutdown. -/
theorem drainAllOnce_keeps (reads : Nat → Bool → List ReadResult) :
    StateM.Keeps R (drainAllOnce reads) fun _ => True :=
  keeps_get fun w => forSlots_keeps (drainSlot_keeps hR reads) w.slots

/-- Waiting for the services during the shutdown, by induction over the rounds. -/
theorem waitLoop_keeps (deadline : Int) (rounds : List Round) :
    StateM.Keeps R (waitLoop deadline rounds) fun _ => True := by
  -- by induction on the rounds
  induction rounds with
  | nil => exact .pure trivial
  | cons r rounds ih =>
    apply (reapChildren_keeps hR r.exits).seq
    intro _
    apply (drainAllOnce_keeps hR r.reads).seq
    intro _
    apply keeps_get
    intro w
    apply StateM.Keeps.ite
    · exact fun _ => .pure trivial
    · exact fun _ => (readClock_keeps hR).seq fun now => .ite (fun _ => .pure trivial) fun _ => ih

/-- SIGKILL for what is left. -/
theorem killLoop_keeps (is : List Nat) : StateM.Keeps R (forSlots killRemaining is) fun _ => True :=
  hR.slots .killRemaining (fun _ _ => rfl) nofun is

/-- The shutdown up to the final cleanup. -/
theorem shutdownServices_keeps (first second : List Round) :
    StateM.Keeps R (shutdownServices first second) fun _ => True := by
  -- stop, wait, kill, wait again
  apply (hR.op .stopAll (fun _ => rfl) nofun).seq
  intro _
  apply (readClock_keeps hR).seq
  intro now
  apply (waitLoop_keeps hR _ first).seq
  intro _
  apply keeps_get
  intro w
  apply (killLoop_keeps hR w.slots).seq
  intro _
  exact (readClock_keeps hR).seq fun now => waitLoop_keeps hR _ second

end

/-- The start pass uses a clock reading that is not ahead of the clock. -/
theorem startPass_performs {t : Int} (w : World) (ht : t ≤ w.k.clock) :
    Performs w (startPass t w).2 := by
  -- by induction on the slots, as long as the reading is not ahead of the clock
  have hloop : ∀ is (w : World), t ≤ w.k.clock → Performs w (forSlots (startSlot t) is w).2 := by
    intro is
    induction is with
    | nil => exact fun w _ => Std.Refl.refl w
    | cons i is ih =>
      intro w ht
      have hop : exec (.start t i) w = (startSlot t i w).2 := by
        simp only [exec, Int.min_eq_left ht]
      have hstep := exec_steps (.start t i) w
      have hle : t ≤ (startSlot t i w).2.k.clock := Int.le_trans ht (hop ▸ hstep.clock_le)
      exact (hop ▸ Performs.op (.start t i) w).trans (ih _ hle)
  exact hloop w.slots w ht

/-! ## The main loop and the shutdown -/

/-- The reaper and the clock reading at the top of the loop. -/
theorem loopTop_performs (p : Pass) (m : MainState) : Performs m.world (loopTop p m).world := by
  have hreap := (reapChildren_keeps performs_respects p.exits).rel m.world
  have hclock := (readClock_keeps performs_respects).rel (reapChildren p.exits m.world).2
  have hle : (liftSys monoNow (reapChildren p.exits m.world).2).1 ≤
      (liftSys monoNow (reapChildren p.exits m.world).2).2.k.clock := Int.le_refl _
  simp only [loopTop]
  split
  · have hscan := (rescan_keeps performs_respects p.listing).rel
      (liftSys monoNow (reapChildren p.exits m.world).2).2
    exact (hreap.trans hclock).trans (hscan.trans
      (startPass_performs _ (Int.le_trans hle hscan.steps.clock_le)))
  · exact (hreap.trans hclock).trans (startPass_performs _ hle)

/-- A signal changes no record. -/
@[simp] theorem handleSignal_world (sig : Option UInt8) (m : MainState) :
    (handleSignal sig m).world = m.world := by
  cases sig with
  | none => rfl
  | some sig =>
    simp only [handleSignal]
    split
    · rfl
    · split <;> rfl

/-- Reading the signal pipe is one operation. -/
theorem dispatchSignals_performs (signals : Option (List Nat)) (m : MainState) :
    Performs m.world (dispatchSignals signals m).world := by
  cases signals with
  | none => exact Std.Refl.refl _
  | some reads =>
    simp only [dispatchSignals, handleSignal_world]
    exact .op (.signals reads) m.world

/-- What follows a `poll` performs operations. -/
theorem dispatch_performs (r : PollResult) (m : MainState) :
    Performs m.world (dispatch r m).world := by
  have hsig := dispatchSignals_performs r.signals m
  simp only [dispatch]
  split
  · exact hsig
  · exact hsig.trans ((dispatchRequests_keeps performs_respects r).rel _)

/-- A pass of the main loop performs operations. -/
theorem mainPass_performs (p : Pass) (m : MainState) :
    Performs m.world (mainPass p m).world :=
  (loopTop_performs p m).trans ((Performs.op (.wait p.elapsed p.arrivals) _).trans
    (dispatch_performs p.poll { loopTop p m with
      world := pollWait p.elapsed p.arrivals (loopTop p m).world }))

/-- So does the main loop, by induction over its passes. -/
theorem mainLoop_performs (ps : List Pass) (m : MainState) :
    Performs m.world (mainLoop ps m).world := by
  induction ps generalizing m with
  | nil => exact Std.Refl.refl _
  | cons p ps ih =>
    have hpass := mainPass_performs p m
    simp only [mainLoop]
    split
    · exact hpass
    · exact hpass.trans (ih _)

/-- The shutdown up to the final cleanup. -/
theorem shutdownServices_isRun (first second : List Round) :
    IsRun (shutdownServices first second) := shutdownServices_keeps performs_respects first second

/-! ## Reachable states -/

/-- Reachable from some start of the program. -/
def Reachable (w : World) : Prop :=
  ∃ root oracle fds, Performs (boot root oracle fds).world w

/-- What the program does leads from reachable states to reachable states. -/
theorem Reachable.performs {w w' : World} (hw : Reachable w) (h : Performs w w') :
    Reachable w' :=
  have ⟨root, oracle, fds, hboot⟩ := hw
  ⟨root, oracle, fds, hboot.trans h⟩

/-- Every run continues in reachable states. -/
theorem Reachable.run {w : World} (hw : Reachable w) (ops : List Op) :
    Reachable (Transition.run exec ops w) := hw.performs ⟨ops, rfl⟩

/-- Before the first scan: no child, no entry in the log, and a zeroed table. -/
structure Life.Initial (a : Life) : Prop where
  size : a.size = maxServices
  core : a.core = fun _ => Service.zeroed.core
  children : a.children = []
  log : a.log = []
  clock : 0 ≤ a.clock ∧ a.clock ≤ i64Max

/-- The table is empty at the beginning. -/
theorem boot_initial (root : CStrBuf) (oracle : Nat → Answer) (fds : List Int) :
    (boot root oracle fds).world.life.Initial :=
  ⟨rfl, rfl, rfl, rfl, (boot root oracle fds).world.k.clockNonneg,
    (boot root oracle fds).world.k.clockLe⟩

/-- What holds initially and is preserved by life-cycle steps holds in every reachable
    state. -/
theorem Reachable.invariant {I : Life → Prop} (hinit : ∀ a : Life, a.Initial → I a)
    (hstep : ∀ a b, LifeStep anyKind a b → I a → I b) {w : World} (hw : Reachable w) : I w.life := by
  obtain ⟨root, oracle, fds, hperf⟩ := hw
  exact LifeSteps.invariant hstep hperf.steps (hinit _ (boot_initial root oracle fds))

/-! ## An obliging system -/

/-- Every `fork` and every `pipe` succeeds, `open` fails (so no file is written), and time
    only passes in `poll`. -/
def obliging (fs : FileSys) : Nat → Answer := fun n =>
  { fork := 100 + n, pipe := some (1000 + 2 * n, 1001 + 2 * n), fs }

/-- The start of the supervisor with the service directory `/s` on such a system. -/
def bootOn (fs : FileSys) : MainState :=
  boot (CStrBuf.fromBytes (bytesOf "/s")) (obliging fs) [0, 1, 2]

/-- Every `fork`, `pipe` and `open` succeeds. -/
def opening (fs : FileSys) : Nat → Answer := fun n =>
  { fork := 100 + n, pipe := some (300 + 2 * n, 301 + 2 * n), fd := 10 + n, fs }

/-- The first state over a file system that can be opened. -/
def openingOn (fs : FileSys) : MainState :=
  boot (CStrBuf.fromBytes (bytesOf "/s")) (opening fs) [0, 1, 2]

/-- A service `a` with nothing but `run`. -/
def plainFiles : FileSys where
  access path _ := path = bytesOf "/s/a/run"

/-- After the first scan, which starts `a` as process 116. -/
def plainStarted : World :=
  (mainLoop [{ listing := some [bytesOf "a"] }] (bootOn plainFiles)).world

/-- The example is a run. -/
theorem plainStarted_reachable : Reachable plainStarted := ⟨_, _, _, mainLoop_performs _ _⟩

/-- Services `a` and `b`; `b` hard-depends on `a`. -/
def chainFiles : FileSys where
  access path _ := path = bytesOf "/s/a/run" || path = bytesOf "/s/b/run"
  read path := if path = bytesOf "/s/b/depends" then some (bytesOf "a") else none

/-- After the first scan, which starts `a` as process 126, then `b` as process 135. -/
def chainStarted : World :=
  (mainLoop [{ listing := some [bytesOf "a", bytesOf "b"] }] (bootOn chainFiles)).world

/-- The example is a run. -/
theorem chainStarted_reachable : Reachable chainStarted := ⟨_, _, _, mainLoop_performs _ _⟩

end SvcRs
