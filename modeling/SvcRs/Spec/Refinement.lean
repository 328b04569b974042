import SvcRs.Spec.SlotRefinement

/-!
# The program refines the life cycle: the table

What `Spec/SlotRefinement.lean` says of one record, for the functions that work on
the whole table.
-/

namespace SvcRs

open Relation (ReflTransGen)

variable {S : Kind → Prop}

/-- From one table to another by life-cycle steps. -/
def Steps (S : Kind → Prop) (w w' : World) : Prop := LifeSteps S w.life w'.life

instance (S : Kind → Prop) : Std.Refl (Steps S) := ⟨fun _ => .refl⟩

instance (S : Kind → Prop) : IsTrans World (Steps S) := ⟨fun _ _ _ => ReflTransGen.trans⟩

/-- The clock does not go back. -/
theorem Steps.clock_le {w w' : World} (h : Steps S w w') : w.k.clock ≤ w'.k.clock :=
  LifeSteps.clock_le h

/-- More kinds of steps may be taken. -/
theorem Steps.mono {S' : Kind → Prop} {w w' : World} (hS : ∀ x, S x → S' x) (h : Steps S w w') :
    Steps S' w w' :=
  LifeSteps.mono hS h

/-- Steps after steps. -/
theorem Steps.trans {w w' w'' : World} (h : Steps S w w') (h' : Steps S w' w'') : Steps S w w'' :=
  ReflTransGen.trans h h'

/-- Every run of `m` is made of life-cycle steps. -/
abbrev Follows {α : Type} (S : Kind → Prop) (m : Sup α) : Prop := StateM.Keeps (Steps S) m fun _ => True

namespace Follows

variable {α β : Type} {m m₁ m₂ : Sup α}

/-- From each state. -/
theorem steps (h : Follows S m) (w : World) : Steps S w (m w).2 := h.rel w

/-- A computation all of whose runs are life-cycle steps. -/
theorem of (h : ∀ w, Steps S w (m w).2) : Follows S m := fun w _ => ⟨h w, trivial⟩

/-- A computation that begins by reading the state. -/
theorem get {f : World → Sup α} (h : ∀ w, Steps S w (f w w).2) : Follows S (MonadState.get >>= f) :=
  of h

/-- One computation after the other. -/
theorem bind {f : α → Sup β} (hm : Follows S m) (hf : ∀ a, Follows S (f a)) : Follows S (m >>= f) :=
  StateM.Keeps.seq hm hf

end Follows

/-! ## One record, one call, one loop -/

/-- A function on one record, as far as it follows the life cycle of the slot. -/
theorem onSlot_steps {w : World} {i : Nat} {f : Service → Sys Service}
    (h : Moves S w i (w.svc i) w.k (f (w.svc i))) : Steps S w (onSlot i f w).2 := by
  rw [Steps, life_onSlot, ← w.lifeAt_self i]
  exact h

/-- A computation that changes no record. -/
theorem liftSys_steps {α : Type} {m : Sys α} (w : World) (i : Nat)
    (h : LifeSteps S (w.lifeAt i (w.svc i).core w.k) (w.lifeAt i (w.svc i).core (m w.k).2)) :
    Steps S w (liftSys m w).2 := by
  have he : (liftSys m w).2.life = w.lifeAt i (w.svc i).core (m w.k).2 :=
    ({ w with k := (m w.k).2 } : World).lifeAt_self i |>.symm
  rw [Steps, he, ← w.lifeAt_self i]
  exact h

/-- A system call that the life cycle does not see. -/
theorem Calm.liftSys {α : Type} {m : Sys α} {Q : α → Prop} (h : Calm m Q) :
    Follows S (SvcRs.liftSys m) :=
  .of fun w => liftSys_steps w 0 (quiet_moves (h.rel w.k))

/-- The loop rule. -/
theorem forSlots_keeps {R : World → World → Prop} [Std.Refl R] [IsTrans World R]
    {body : Nat → Sup Unit} (h : ∀ i, StateM.Keeps R (body i) fun _ => True) (is : List Nat) :
    StateM.Keeps R (forSlots body is) fun _ => True := by
  induction is with
  | nil => exact .pure trivial
  | cons i is ih => exact (h i).seq fun _ => ih

/-! ## Searching the table -/

/-- The slot that is found passes the test. -/
theorem World.findSlot_some {w : World} {p : Service → Bool} {i : Nat}
    (h : w.findSlot p = some i) : i < w.size ∧ p (w.svc i) = true := by
  have hmem := List.mem_of_find?_eq_some h
  exact ⟨by simpa [slots] using hmem, by simpa using List.find?_some h⟩

/-- If none is found, no slot passes it. -/
theorem World.findSlot_none {w : World} {p : Service → Bool} (h : w.findSlot p = none) :
    ∀ i < w.size, p (w.svc i) = false := by
  intro i hi
  have := List.find?_eq_none.mp h i (by simpa [slots] using hi)
  simpa using this

/-! ## Reaping -/

/-- An unreaped child is handed out. -/
theorem waitpid_mem {pid : Int} {k : Kernel} (status : Int) (h : ∃ c ∈ k.children, c.pid = pid) :
    ∃ k', waitpid pid status k = (true, k') ∧
      k'.children = (k.children.filter fun c => c.pid ≠ pid) ∧
      k'.log = .reaped pid status :: k.log ∧ k'.clock = k.clock :=
  ⟨_, if_pos h, rfl, rfl, rfl⟩

/-- Any other pid is not. -/
theorem waitpid_not_mem {pid : Int} {k : Kernel} (status : Int)
    (h : ¬∃ c ∈ k.children, c.pid = pid) : waitpid pid status k = (false, k) := if_neg h

section Reaping

/-- The reaper's clock reading. -/
def Kernel.reapTime (k : Kernel) (pid status : Int) : Int := (waitpid pid status k).2.reading

/-- A child is reaped now, or later. -/
theorem Kernel.clock_le_reapTime (k : Kernel) (pid status : Int) :
    k.clock ≤ k.reapTime pid status := by
  have hclock : (waitpid pid status k).2.clock = k.clock := by
    unfold waitpid
    split <;> rfl
  exact hclock ▸ (waitpid pid status k).2.clock_le_reading

/-- `waitpid` handed out a child, and the clock was read. -/
structure Reaps (k k' : Kernel) (pid status : Int) : Prop where
  mem : ∃ c ∈ k.children, c.pid = pid
  children : k'.children = k.children.filter fun c => c.pid ≠ pid
  log : k'.log = .reaped pid status :: k.log
  clock : k.clock ≤ k'.clock
  now : k'.clock = k.reapTime pid status

variable {w : World} {k : Kernel} {pid status : Int}

/-- The pid is that of no logger in the table. -/
theorem loggerSlot_none (h : w.loggerSlot pid = none) :
    ∀ i < w.size, (w.svc i).active = true → (w.svc i).logPid ≠ pid := by
  intro i hi hact
  simpa [hact] using w.findSlot_none h i hi

/-- The pid is that of no main process in the table. -/
theorem mainSlot_none (h : w.mainSlot pid = none) :
    ∀ i < w.size, (w.svc i).active = true → (w.svc i).pid ≠ pid := by
  intro i hi hact
  simpa [hact] using w.findSlot_none h i hi

/-- The logger with this pid. -/
theorem loggerSlot_some {i : Nat} (h : w.loggerSlot pid = some i) :
    i < w.size ∧ (w.svc i).active = true ∧ (w.svc i).logPid = pid := by
  simpa using w.findSlot_some h

/-- The main process with this pid. -/
theorem mainSlot_some {i : Nat} (h : w.mainSlot pid = some i) :
    i < w.size ∧ (w.svc i).active = true ∧ (w.svc i).pid = pid := by
  simpa using w.findSlot_some h

/-- The life cycle after a reaped child. -/
theorem Reaps.life (h : Reaps w.k k pid status) (i : Nat) (c : Core) :
    w.lifeAt i c k = { w.life.put i c with
      children := w.life.without pid, clock := k.clock, log := .reaped pid status :: w.life.log } := by
  simp only [World.lifeAt, h.children, h.log, Life.without]
  rfl

/-- A child of which no record knows: a finish script or a check. -/
theorem reapOther_steps (h : Reaps w.k k pid status) (hlog : w.loggerSlot pid = none)
    (hmain : w.mainSlot pid = none) : Steps S w { w with k } := by
  have hstep := LifeStep.reapOther (S := S) (a := w.life) pid status h.mem (loggerSlot_none hlog)
    (mainSlot_none hmain)
  have htick := LifeStep.tick (S := S) (a := { w.life with
    children := w.life.without pid, log := .reaped pid status :: w.life.log }) k.clock h.clock
  have he : ({ w with k } : World).life = { w.life with
      children := w.life.without pid, log := .reaped pid status :: w.life.log
      clock := k.clock } := by
    simp only [World.life, h.children, h.log, Life.without]
  rw [Steps, he]
  exact .tail (.single hstep) htick

/-- The logger of slot `i`. -/
theorem reapLogger_steps {i : Nat} (h : Reaps w.k k pid status) (hi : w.loggerSlot pid = some i) :
    LifeSteps S w.life (w.lifeAt i { (w.svc i).core with logPid := -1 } k) := by
  obtain ⟨-, hact, rfl⟩ := loggerSlot_some hi
  have hstep := LifeStep.reapLogger (S := S) (a := w.life) i (w.svc i).core rfl status h.mem hact
  have htick := LifeStep.tick (S := S) (a := { w.life.put i { (w.svc i).core with logPid := -1 } with
    children := w.life.without (w.svc i).logPid
    log := .reaped (w.svc i).logPid status :: w.life.log }) k.clock h.clock
  rw [h.life]
  exact .tail (.single hstep) htick

/-- The reaper's clock reading is the one in the log entry. -/
theorem reapMain_steps {i : Nat} (h : Reaps w.k k pid status) (hlog : w.loggerSlot pid = none)
    (hi : w.mainSlot pid = some i) :
    LifeSteps S w.life (w.lifeAt i (reapMain i status k.clock (w.svc i) k).1.core
      (reapMain i status k.clock (w.svc i) k).2) := by
  obtain ⟨-, hact, rfl⟩ := mainSlot_some hi
  -- the life cycle takes one step for the exit
  have hstep := LifeStep.reapMain (S := S) (a := w.life) i (w.svc i).core rfl status k.clock
    (w.svc i) rfl
    h.mem hact (loggerSlot_none hlog) h.clock k.clockLe
  -- which ends where the reaper has logged the exit
  have he : w.lifeAt i ((w.svc i).core.exit status k.clock)
      (emit (.exited i k.clock (w.svc i)) k).2 = { w.life.put i ((w.svc i).core.exit status k.clock)
        with
        children := w.life.without (w.svc i).pid, clock := k.clock
        log := .exited i k.clock (w.svc i) :: .reaped (w.svc i).pid status :: w.life.log } := by
    rw [lifeAt_emit rfl, h.life, h.log]
    rfl
  refine .head hstep ?_
  -- what follows (`finish`, the logger, the status file) is further steps
  have hd := reapMain_drifts (S := S) (w := w) i status k.clock (w.svc i)
  have hrel := hd.rel (emit (.exited i k.clock (w.svc i)) k).2
  have hcore := hd.post (emit (.exited i k.clock (w.svc i)) k).2
  rw [he] at hrel
  rw [reapMain, Sys.bind_apply, hcore]
  exact hrel

/-- The kernel after `waitpid` and the reading of the clock. -/
def Kernel.afterWait (k : Kernel) (pid status : Int) : Kernel := (monoNow (waitpid pid status k).2).2

/-- A child that exits is no child any more. -/
theorem Kernel.afterWait_reaps (h : ∃ c ∈ k.children, c.pid = pid) :
    Reaps k (k.afterWait pid status) pid status := by
  obtain ⟨k', he, hchildren, hlog, hclock⟩ := waitpid_mem status h
  have hnow := monoNow_quiet k'
  have hreading : k'.reading = k.reapTime pid status := by rw [Kernel.reapTime, he]
  have hk' : k.afterWait pid status = (monoNow k').2 := by rw [Kernel.afterWait, he]
  rw [hk']
  exact ⟨h, hnow.children.trans hchildren, hnow.log.trans hlog, hclock ▸ hnow.clock, hreading⟩

/-- The exit is in the trace. -/
theorem Kernel.afterWait_trace (h : ∃ c ∈ k.children, c.pid = pid) :
    (k.afterWait pid status).trace = .reaped pid status :: k.trace := by
  have hwait : (waitpid pid status k).2.trace = .reaped pid status :: k.trace := by
    unfold waitpid
    rw [if_pos h]
  exact hwait

/-- A child that is handed out. -/
theorem reapChild_child (h : ∃ c ∈ w.k.children, c.pid = pid) :
    reapChild pid status w =
      (let k := w.k.afterWait pid status
      (some (reapRecord pid status k.clock { w with k }).1,
        (reapRecord pid status k.clock { w with k }).2)) := by
  obtain ⟨k', he, -⟩ := waitpid_mem status h
  simp only [reapChild, Sup.bind_apply, liftSys, Kernel.afterWait, he]
  rfl

/-- No child. -/
theorem reapChild_none (h : ¬∃ c ∈ w.k.children, c.pid = pid) :
    reapChild pid status w = (none, w) := by
  simp only [reapChild, Sup.bind_apply, liftSys, waitpid_not_mem status h]
  rfl

/-- What one turn of the reaper does: nothing, or one of three things with the child
    that `waitpid` returned. -/
theorem reapChild_cases (pid status : Int) (w : World) :
    ((¬∃ c ∈ w.k.children, c.pid = pid) ∧ reapChild pid status w = (none, w)) ∨
    ∃ k, Reaps w.k k pid status ∧
      ((∃ i, w.loggerSlot pid = some i ∧
          reapChild pid status w = (some false, (onSlot i reapLogger { w with k }).2)) ∨
        (∃ i, w.loggerSlot pid = none ∧ w.mainSlot pid = some i ∧
          reapChild pid status w = (some (exitStopsDeps (w.svc i) status),
            (onSlot i (reapMain i status k.clock) { w with k }).2)) ∨
        (w.loggerSlot pid = none ∧ w.mainSlot pid = none ∧
          reapChild pid status w = (some false, { w with k }))) := by
  -- `waitpid` finds the child, or there is nothing to reap
  by_cases hmem : ∃ c ∈ w.k.children, c.pid = pid
  · refine .inr ⟨_, Kernel.afterWait_reaps hmem, ?_⟩
    rw [reapChild_child hmem]
    generalize w.k.afterWait pid status = k
    simp only [reapRecord, Sup.get_bind]
    -- the lookups see the table, which `waitpid` does not change
    have hlogger : ({ w with k } : World).loggerSlot pid = w.loggerSlot pid := rfl
    have hmain : ({ w with k } : World).mainSlot pid = w.mainSlot pid := rfl
    rw [hlogger]
    cases hl : w.loggerSlot pid with
    | some i => exact .inl ⟨i, rfl, rfl⟩
    | none =>
      dsimp only
      rw [hmain]
      cases hm : w.mainSlot pid with
      | some i => exact .inr (.inl ⟨i, rfl, rfl, rfl⟩)
      | none => exact .inr (.inr ⟨rfl, rfl, rfl⟩)
  · exact .inl ⟨hmem, reapChild_none hmem⟩

/-- Reaping follows the life cycle, whoever it was. -/
theorem reapChild_follows (pid status : Int) : Follows S (reapChild pid status) := by
  refine .of fun w => ?_
  rcases reapChild_cases pid status w with ⟨-, he⟩ | ⟨k, hk, ⟨i, hi, he⟩ | ⟨i, hlog, hi, he⟩ |
    ⟨hlog, hmain, he⟩⟩ <;> rw [he]
  · exact .refl
  · rw [Steps, life_onSlot]
    exact reapLogger_steps hk hi
  · rw [Steps, life_onSlot]
    exact reapMain_steps hk hlog hi
  · exact reapOther_steps hk hlog hmain

end Reaping

/-- Both branches of a test. -/
theorem Steps.ite {α : Type} {w : World} {c : Prop} [Decidable c] {m₁ m₂ : Sup α}
    (h₁ : c → Steps S w (m₁ w).2) (h₂ : ¬c → Steps S w (m₂ w).2) :
    Steps S w ((if c then m₁ else m₂) w).2 := by
  split
  · exact h₁ ‹_›
  · exact h₂ ‹_›

/-! ## Stopping -/

/-- Some running services have been told to stop, and nothing else has happened to any
    core record. -/
structure Tells (w w' : World) : Prop where
  size : w'.size = w.size
  core : ∀ i, (w'.svc i).core = (w.svc i).core ∨
    (w.svc i).state = .running ∧ 0 < (w.svc i).pid ∧ (w'.svc i).core = (w.svc i).core.told

instance : Std.Refl Tells := ⟨fun _ => ⟨rfl, fun _ => .inl rfl⟩⟩

instance : IsTrans World Tells := ⟨fun w₁ w₂ w₃ h₁ h₂ => ⟨h₂.size.trans h₁.size, fun i => by
  rcases h₁.core i with he₁ | ⟨hst, hpid, he₁⟩ <;> rcases h₂.core i with he₂ | ⟨hst₂, hpid₂, he₂⟩
  · exact .inl (he₂.trans he₁)
  · have hst : (w₁.svc i).state = .running := (congrArg Core.state he₁).symm.trans hst₂
    have hpid : (w₂.svc i).pid = (w₁.svc i).pid := congrArg Core.pid he₁
    exact .inr ⟨hst, hpid ▸ hpid₂, by rw [he₂, he₁]⟩
  · exact .inr ⟨hst, hpid, he₂.trans he₁⟩
  · exact .inr ⟨hst, hpid, by rw [he₂, he₁]; rfl⟩⟩⟩

/-- Telling services to stop changes no pid. -/
theorem Tells.pid {w w' : World} (h : Tells w w') (i : Nat) :
    (w'.svc i).pid = (w.svc i).pid := by
  rcases h.core i with he | ⟨-, -, he⟩ <;> exact congrArg Core.pid he

/-- And it frees no slot. -/
theorem Tells.active {w w' : World} (h : Tells w w') (i : Nat) :
    (w'.svc i).active = (w.svc i).active := by
  rcases h.core i with he | ⟨-, -, he⟩ <;> exact congrArg Core.active he

/-- The records after a function on slot `i`. -/
@[simp] theorem onSlot_svc (w : World) (i : Nat) (f : Service → Sys Service) (j : Nat) :
    (onSlot i f w).2.svc j = if j = i then (f (w.svc i) w.k).1 else w.svc j := rfl

/-- A running service is told to stop. -/
theorem signalStop_tells {w : World} {i : Nat} (hst : (w.svc i).state = .running)
    (hpid : 0 < (w.svc i).pid) : Tells w (onSlot i signalStopStatus w).2 := by
  refine ⟨rfl, fun j => ?_⟩
  rw [onSlot_svc]
  split
  · next h => subst h; exact .inr ⟨hst, hpid, rfl⟩
  · exact .inl rfl

/-- The service in slot `i` is running and a hard dependency of it is not. -/
structure Stranded (w : World) (i : Nat) : Prop where
  active : (w.svc i).active = true
  notStopping : (w.svc i).stopping = false
  pid : 0 < (w.svc i).pid
  running : (w.svc i).state = .running
  dep : ∃ dep ∈ (w.svc i).deps, dep.soft = false ∧ w.isRunning dep.name = false

/-- A dependent is stopped exactly if it is stranded. -/
theorem stopDependent_cases (i : Nat) (w : World) :
    (Stranded w i ∧ stopDependent i w = (true, (onSlot i signalStopStatus w).2)) ∨
      (¬Stranded w i ∧ stopDependent i w = (false, w)) := by
  -- the three tests of the source, in its order
  by_cases hskip : (!(w.svc i).active || (w.svc i).stopping || (w.svc i).pid ≤ 0 ||
      (w.svc i).state ≠ .running) = true
  · refine .inr ⟨fun h => ?_, ?_⟩
    · simp [h.active, h.notStopping, h.running, Int.not_le.mpr h.pid] at hskip
    · simp only [stopDependent, Sup.get_bind, Sup.ite_apply, if_pos hskip]
      rfl
  by_cases hdep : ((w.svc i).deps.any fun dep => !dep.soft && !w.isRunning dep.name) = true
  · refine .inl ⟨?_, ?_⟩
    -- what is left of the first test, read as facts about the record
    · simp only [Bool.or_eq_true, Bool.not_eq_true', decide_eq_true_eq, not_or, Int.not_le,
        Bool.not_eq_false, Bool.not_eq_true, ne_eq, Decidable.not_not] at hskip
      simp only [List.any_eq_true, Bool.and_eq_true, Bool.not_eq_true'] at hdep
      exact ⟨hskip.1.1.1, hskip.1.1.2, hskip.1.2, hskip.2, hdep⟩
    · simp only [stopDependent, Sup.get_bind, Sup.ite_apply, if_neg hskip, if_pos hdep]
      rfl
  · refine .inr ⟨fun h => hdep ?_, ?_⟩
    · simpa [List.any_eq_true] using h.dep
    · simp only [stopDependent, Sup.get_bind, Sup.ite_apply, if_neg hskip, if_neg hdep]
      rfl

/-- One record of the sweep. -/
theorem stopDependent_follows (i : Nat) : Follows S (stopDependent i) := by
  refine .of fun w => ?_
  rcases stopDependent_cases i w with ⟨h, he⟩ | ⟨-, he⟩ <;> rw [he]
  · exact onSlot_steps (signalStopStatus_moves h.pid)
  · exact .refl

/-- It only tells services to stop. -/
theorem stopDependent_tells (i : Nat) : StateM.Keeps Tells (stopDependent i) fun _ => True := by
  refine fun w _ => ⟨?_, trivial⟩
  rcases stopDependent_cases i w with ⟨h, he⟩ | ⟨-, he⟩ <;> rw [he]
  · exact signalStop_tells h.running h.pid
  · exact Std.Refl.refl w

section

variable {R : World → World → Prop} [Std.Refl R] [IsTrans World R]

/-- One sweep over the table, by induction over the slots. -/
theorem stopSweep_keeps (h : ∀ i, StateM.Keeps R (stopDependent i) fun _ => True) (is : List Nat) :
    StateM.Keeps R (stopSweep is) fun _ => True := by
  induction is with
  | nil => exact .pure trivial
  | cons i is ih => exact (h i).seq fun _ => ih.seq fun _ => .pure trivial

/-- `stop_transitive_deps` does to the table what its loop body does, again and again. -/
theorem stopTransitiveDeps_keeps (h : ∀ i, StateM.Keeps R (stopDependent i) fun _ => True) :
    StateM.Keeps R stopTransitiveDeps fun _ => True := by
  have hloop : ∀ fuel, StateM.Keeps R (stopLoop fuel) fun _ => True := by
    intro fuel
    induction fuel with
    | zero => exact .pure trivial
    | succ fuel ih =>
      exact fun w _ => ((stopSweep_keeps h w.slots).seq fun _ =>
        .ite (fun _ => ih) fun _ => .pure trivial) w trivial
  exact fun w _ => hloop (w.size + 1) w trivial

end

/-- The sweeps until nothing changes. -/
theorem stopTransitiveDeps_follows : Follows S stopTransitiveDeps :=
  stopTransitiveDeps_keeps stopDependent_follows

/-- They only tell services to stop. -/
theorem stopTransitiveDeps_tells : StateM.Keeps Tells stopTransitiveDeps fun _ => True :=
  stopTransitiveDeps_keeps stopDependent_tells

/-- A service whose logger has exited is stopped. -/
theorem killOnLogDeath_follows (i : Nat) : Follows S (killOnLogDeath i) := by
  refine .get fun w => .ite (fun h => ?_) fun _ => .refl
  simp only [lostLogger, Bool.and_eq_true, decide_eq_true_eq] at h
  exact onSlot_steps (signalStopStatus_moves h.1.1.2)

/-- The stop of all services at the shutdown. -/
theorem stopAllInOrder_follows : Follows S stopAllInOrder := by
  have hordered : ∀ is, Follows S (forSlots (fun i => onSlot i stopOrdered) is) :=
    forSlots_keeps fun _ => Follows.of fun _ => onSlot_steps stopOrdered_moves
  have hremaining : ∀ is, Follows S (forSlots (fun i => onSlot i stopRemaining) is) :=
    forSlots_keeps fun _ => Follows.of fun _ => onSlot_steps stopRemaining_moves
  exact .get fun w => ((hordered _).bind fun _ => hremaining _).steps w

/-! ## Starting -/

/-- The test of the start pass implies that the service is due. -/
theorem startDue_due {t clock : Int} {s : Service} (h : startDue t s = true) (ht : t ≤ clock) :
    s.core.Due clock := by
  simp only [startDue, Bool.and_eq_true, Bool.or_eq_true, Bool.not_eq_true', decide_eq_true_eq] at h
  exact ⟨h.1.1.1.1.1, h.1.1.1.1.2, h.1.1.1.2, h.1.1.2, Int.le_trans h.1.2 ht, h.2⟩

/-- A service that `start_service` does not return from at once. -/
def PassesGuard (s : Service) : Prop := (!s.active || !s.present || s.stopping || s.pid > 0) = false

/-- The guard of `start_service` repeats part of the test of the start pass. -/
theorem startDue_passes {t : Int} {s : Service} (h : startDue t s = true) : PassesGuard s := by
  have hdue := startDue_due h (Int.le_refl _)
  have hact : s.active = true := hdue.active
  have hpresent : s.present = true := hdue.present
  have hstop : s.stopping = false := hdue.notStopping
  have hidle : s.pid ≤ 0 := hdue.idle
  simp [PassesGuard, hact, hpresent, hstop, hidle]

/-- The start pass at slot `i` is a start, or nothing. -/
theorem startSlot_steps {t : Int} {i : Nat} (hS : S (.start i)) (w : World) (ht : t ≤ w.k.clock) :
    Steps S w (startSlot t i w).2 := by
  refine Steps.ite (fun h => ?_) fun _ => .refl
  have hdue := startDue_due h ht
  exact .ite (fun _ => onSlot_steps (retryLater_moves hS hdue))
    fun _ => onSlot_steps (startService_moves hS hdue)

/-! ## Scanning -/

/-- The entry is a directory with an executable `run`, to the answer of the next call. -/
def Listed (w : World) (name : Bytes) : Prop :=
  name ≠ [] ∧ name ≠ bytesOf "." ∧ name ≠ bytesOf ".." ∧
    (access (joinPath (serviceDir w.root name).bytes "/run") .exec w.k).1 = true

/-- The entry `name` of a listing is a service directory that slot `i` is known for. -/
def FoundAt (w : World) (name : Bytes) (i : Nat) : Prop :=
  name ≠ [] ∧ name ≠ bytesOf "." ∧ name ≠ bytesOf ".." ∧
    (access (joinPath (serviceDir w.root name).bytes "/run") .exec w.k).1 = true ∧
    findServiceByDir w (serviceDir w.root name) = some i

/-- The entry `name` of a listing is a new service, and slot `i` is the first free one. -/
def AddsAt (w : World) (name : Bytes) (i : Nat) : Prop :=
  Listed w name ∧ findServiceByDir w (serviceDir w.root name) = none ∧
    (w.findSlot fun s => !s.active) = some i

/-- A new record is put into a free slot. -/
theorem addService_steps {w : World} {name : Bytes} {dir : CStrBuf}
    (hS : ∀ i, (w.findSlot fun s => !s.active) = some i → S (.add i)) :
    Steps S w (addService name dir w).2 := by
  unfold addService
  rw [Sup.get_bind]
  cases h : w.findSlot fun s => !s.active with
  | none => exact .refl
  | some i =>
    obtain ⟨hi, hact⟩ := w.findSlot_some h
    exact onSlot_steps (newService_moves (hS i h) hi (by simpa using hact))

/-- A directory is known, new, or left out. -/
theorem scanEntry_steps (name : Bytes) (w : World) (hS : ∀ i, FoundAt w name i → S (.found i))
    (hadds : ∀ i, AddsAt w name i → S (.add i)) : Steps S w (scanEntry name w).2 := by
  unfold scanEntry
  -- names that `readdir` returns for no service
  by_cases hname : (name = [] || name = bytesOf "." || name = bytesOf "..") = true
  · rw [if_pos hname]
    exact .refl
  rw [if_neg hname]
  simp only [Bool.or_eq_true, decide_eq_true_eq, not_or] at hname
  simp only [Sup.get_bind]
  rw [Sup.bind_apply]
  -- looking for `run` is no step of the life cycle
  have hacc : Steps S w (liftSys (access (joinPath (serviceDir w.root name).bytes "/run") .exec) w).2 :=
    (access_calm _ _).liftSys.steps w
  refine hacc.trans ?_
  cases hok : (liftSys (access (joinPath (serviceDir w.root name).bytes "/run") .exec) w).1 with
  | false => exact .refl
  | true =>
    simp only [if_true]
    cases hdir : findServiceByDir w (serviceDir w.root name) with
    -- both branches are the steps of one slot, the known one or the free one
    | some i =>
      exact onSlot_steps (foundService_moves (hS i ⟨hname.1.1, hname.1.2, hname.2, hok, hdir⟩))
    | none =>
      apply addService_steps
      intro i hfree
      exact hadds i ⟨⟨hname.1.1, hname.1.2, hname.2, hok⟩, hdir, hfree⟩

/-- The marks are taken away before a scan. -/
theorem unmarkPresent_follows (i : Nat) : Follows S (unmarkPresent i) :=
  .get fun _ => .ite (fun _ => onSlot_steps unmark_moves) fun _ => .refl

/-- A service whose directory is gone is stopped. -/
theorem stopMissing_follows (i : Nat) : Follows S (stopMissing i) := by
  refine .get fun w => .ite (fun h => ?_) fun _ => .refl
  simp only [Bool.and_eq_true, decide_eq_true_eq] at h
  have hpid : 0 < ((stopTransitiveDeps w).2.svc i).pid := by
    have := (stopTransitiveDeps_tells.rel w).pid i
    omega
  exact (stopTransitiveDeps_follows.steps w).trans (onSlot_steps (signalStop_moves hpid))

/-- It is released when both of its processes have gone. -/
theorem missingSlot_follows (i : Nat) : Follows S (missingSlot i) :=
  .get fun w => .ite (fun _ => ((stopMissing_follows i).bind fun _ =>
    .of fun _ => onSlot_steps releaseMissing_moves).steps w) fun _ => .refl

/-! ## Commands -/

/-- A signal for the process group of a main process. -/
theorem killMain_steps {w : World} {i : Nat} (h : 0 < (w.svc i).pid) (sig : Int) :
    Steps S w (liftSys (kill (-(w.svc i).pid) sig) w).2 :=
  liftSys_steps w i ((killMain_drifts (c := (w.svc i).core) h sig).rel w.k)

/-- The request is one of the six commands, and it names the active service in slot `i`. -/
structure Accepts (w : World) (line : Bytes) (cmd : SvcCmd) (i : Nat) : Prop where
  request : parseRequest (splitCmd line).1 = .svc cmd
  arg : (splitCmd line).2 ≠ []
  found : findServiceByName w (splitCmd line).2 = some i

/-- A command for one service does what it does to the record that is found, or nothing. -/
theorem withService_steps {w : World} {usage : String} {arg : Bytes} {act : Nat → Sup Bytes}
    (h : ∀ i, arg ≠ [] → findServiceByName w arg = some i → Steps S w (act i w).2) :
    Steps S w (withService usage arg act w).2 := by
  unfold withService
  split
  · exact .refl
  · next harg =>
    rw [Sup.get_bind]
    cases hfind : findServiceByName w arg with
    | none => exact .refl
    | some i => exact h i harg hfind

/-- The same for a command that follows the life cycle on every record. -/
theorem withService_follows {usage : String} {arg : Bytes} {act : Nat → Sup Bytes}
    (h : ∀ i, Follows S (act i)) : Follows S (withService usage arg act) :=
  .of fun w => withService_steps fun i _ _ => (h i).steps w

/-- `stop`, `start` and their like are commands of the life cycle. -/
theorem svcCommand_steps {w : World} {cmd : SvcCmd} {arg : Bytes}
    (hS : ∀ i, arg ≠ [] → findServiceByName w arg = some i → S (.command cmd i)) :
    Steps S w (svcCommand cmd arg w).2 := by
  apply withService_steps
  intro i harg hfind
  have hacc : Follows S (do
      onSlot i (acceptCmd cmd i)
      return formatOk (svcCmdDone cmd)) :=
    .bind (.of fun _ => onSlot_steps (acceptCmd_moves cmd (hS i harg hfind))) fun _ => .pure trivial
  -- `stop` sweeps the dependents first
  have hall : Follows S (do
      if cmd = .stop then stopTransitiveDeps
      onSlot i (acceptCmd cmd i)
      return formatOk (svcCmdDone cmd)) :=
    .ite (fun _ => stopTransitiveDeps_follows.bind fun _ => hacc) fun _ => hacc
  exact hall.steps w

/-- Any other signal for a service. -/
theorem sendSignal_follows (i : Nat) (sig : Int) : Follows S (sendSignal i sig) := by
  refine .get fun w => .ite (fun _ => .refl) fun h => ?_
  exact killMain_steps (Int.not_le.mp h) sig

/-- `check` forks a child and waits for it. -/
theorem forkCheck_drifts {w : World} {i : Nat} (c : Core) :
    Drifts S w i c forkCheck fun _ => True := by
  refine fun k _ => ⟨?_, trivial⟩
  simp only [forkCheck, Sys.bind_apply]
  rcases fork_cases .check k with ⟨hfail, hq⟩ | ⟨hpid, hfresh, hchildren, hlog, hclock⟩
  · rw [if_neg (by omega)]
    exact quiet_moves hq
  · rw [if_pos (by omega)]
    generalize (fork .check k).1 = pid at *
    generalize (fork .check k).2 = k₁ at *
    have hcall := call_calm.rel k₁
    have hmem : ∃ d ∈ (call k₁).2.children, d.pid = pid := by
      rw [hcall.children, hchildren]
      exact ⟨_, List.mem_cons_self, rfl⟩
    obtain ⟨k₂, he, hch, hl, hcl⟩ := waitpid_mem (call k₁).1.status hmem
    simp only [Sys.bind_apply, Sys.pure_apply, he]
    -- the child that is gone is the one that was just forked
    have hkeep : k₂.children = k.children := by
      rw [hch, hcall.children, hchildren, List.filter_cons_of_neg (by simp)]
      exact List.filter_eq_self.mpr fun d hd => by simpa using hfresh d hd
    have hlog₂ : k₂.log = .reaped pid (call k₁).1.status :: .fork .check pid :: k.log := by
      rw [hl, hcall.log, hlog]
    have hclock₂ : k₂.clock = k.clock := hcl.trans hclock
    have hstep := LifeStep.runCheck (S := S) (a := w.lifeAt i c k) pid (call k₁).1.status ⟨hpid, hfresh⟩
    rw [World.lifeAt_eq (k := k) hkeep hclock₂ hlog₂]
    exact .single hstep

/-- A check script is a child of no record. -/
theorem runCheck_steps (s : Service) (w : World) : Steps S w (liftSys (runCheck s) w).2 := by
  have h : Drifts S w 0 (w.svc 0).core (runCheck s) fun _ => True :=
    ((prepareServiceEnv_calm s).drifts _).bind fun _ _ => ((access_calm _ _).drifts _).seq fun _ =>
      .ite (fun _ => .pure trivial) fun _ => forkCheck_drifts _
  exact liftSys_steps w 0 (h.rel w.k)

/-- The supervisor may signal itself. -/
theorem raiseHup_steps (w : World) : Steps S w (liftSys raiseHup w).2 := by
  have hup := LifeStep.raiseHup (S := S) (a := w.life)
  exact .single hup

/-- The `signal` command. -/
theorem signalCommand_follows (arg : Bytes) : Follows S (signalCommand arg) := by
  unfold signalCommand
  generalize splitCmd arg = r
  obtain ⟨svcName, sigNumPart⟩ := r
  refine .ite (fun _ => .pure trivial) fun _ => ?_
  cases parseSignum sigNumPart with
  | none => exact .pure trivial
  | some signum => exact withService_follows fun i => sendSignal_follows i signum

/-- A request is a command for one record, or changes none. -/
theorem respond_steps {w : World} {line : Bytes}
    (hS : ∀ cmd i, Accepts w line cmd i → S (.command cmd i)) :
    Steps S w (respond line w).2 := by
  -- of the requests, only the service commands are of a kind of their own
  have hkind : ∀ cmd i, parseRequest (splitCmd line).1 = .svc cmd → (splitCmd line).2 ≠ [] →
      findServiceByName w (splitCmd line).2 = some i → S (.command cmd i) :=
    fun cmd i hrequest harg hfind => hS cmd i ⟨hrequest, harg, hfind⟩
  unfold respond
  generalize splitCmd line = r at hkind
  obtain ⟨word, arg⟩ := r
  dsimp only at hkind ⊢
  cases hrequest : parseRequest word with
  | list => exact (monoNow_calm.liftSys (S := S)).steps w
  | status => exact withService_steps fun i _ _ => (monoNow_calm.liftSys (S := S)).steps w
  | svc cmd => exact svcCommand_steps fun i => hkind cmd i hrequest
  | check => exact withService_steps fun i _ _ => runCheck_steps (w.svc i) w
  | reload => exact raiseHup_steps w
  | shortcut sig => exact withService_steps fun i _ _ => (sendSignal_follows i sig).steps w
  | signal => exact (signalCommand_follows arg).steps w
  | unknown => exact .refl

/-- With the reply. -/
theorem handleControlCommand_steps {w : World} {line : Bytes}
    (hS : ∀ cmd i, Accepts w line cmd i → S (.command cmd i)) :
    Steps S w (handleControlCommand line w).2 :=
  (respond_steps hS).trans ((reply_calm _).liftSys.steps _)

/-! ## The loop -/

/-- Reading output changes no life cycle. -/
theorem drainOutput_follows (i : Nat) (err : Bool) (reads : List ReadResult) :
    Follows S (drainOutput i err reads) :=
  .get fun _ => .ite (fun _ => onSlot_steps (drainStream_calm err reads _).moves) fun _ => .refl

/-- Reading from the signal pipe. -/
theorem readSigPipe_calm (n : Nat) : Calm (readSigPipe n) fun _ => True := fun k _ =>
  ⟨⟨rfl, by simp [readSigPipe, Kernel.log, Event.isLife], Int.le_refl _⟩, trivial⟩

/-- Reading until it is empty. -/
theorem drainSignalPipe_calm (reads : List Nat) : Calm (drainSignalPipe reads) fun _ => True := by
  induction reads with
  | nil => exact .pure trivial
  | cons n reads ih =>
    refine (readSigPipe_calm n).seq fun chunk => .ite (fun _ => .pure trivial) fun _ => ?_
    cases chunk.find? isLoopSignal with
    | some sig => exact .pure trivial
    | none => exact ih

/-- SIGKILL goes to the processes of the record. -/
theorem killProcesses_drifts {w : World} {i : Nat} (s : Service) :
    Drifts S w i s.core (killProcesses s) fun _ => True := by
  have hlogger : Drifts S w i s.core
      (if s.active && s.logPid > 0 then kill s.logPid sigkill else pure ()) fun _ => True := by
    refine .ite (fun h => ?_) fun _ => .pure trivial
    have hpid : 0 < s.logPid := by simpa using (Bool.and_eq_true_iff.mp h).2
    exact killLogger_drifts rfl hpid sigkill
  refine .ite (fun h => ?_) fun _ => hlogger
  have hpid : 0 < s.pid := by simpa using (Bool.and_eq_true_iff.mp h).2
  exact (killMain_drifts (c := s.core) hpid sigkill).seq fun _ => hlogger

/-- The last SIGKILL at the shutdown. -/
theorem killRemaining_follows (i : Nat) : Follows S (killRemaining i) :=
  .get fun w => liftSys_steps w i ((killProcesses_drifts (w.svc i)).rel w.k)

end SvcRs
