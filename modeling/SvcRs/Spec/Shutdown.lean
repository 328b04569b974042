import SvcRs.Spec.ShutdownOrder

/-!
# The shutdown misses no process

Whatever the dependency graph looks like, `stop_all_in_order` ends with every service that is
to be stopped in `order` or in `remaining`, and the two loops after it visit each of them
once. What the rest of `main` does with the processes that do not exit.

## Key results

- `stopAllInOrder_stops`: one SIGTERM for every main process, at most one for every logger
- `shutdown_starts_nothing`: no main process is started any more
- `shutdown_kills`: SIGKILL for whatever is left after the first deadline
- `shutdown_misses_nothing`: the shutdown from any reachable state
-/

namespace SvcRs

open Transition (since)

/-! ## The order array -/

namespace StopPlan

variable {w : World} {plan : StopPlan}

/-- Every pass but the last places a service, so more fuel changes nothing. -/
theorem planLoop_fuel_independent {fuel : Nat} (hp : plan.Places w)
    (hfuel : stopCount w < fuel + plan.order.length) (more : Nat) :
    planLoop w (stopCount w) (fuel + more) plan = planLoop w (stopCount w) fuel plan := by
  -- by induction on the fuel: every round that moves something uses a service up
  induction fuel generalizing plan with
  | zero =>
    have hlen := hp.length_le
    omega
  | succ fuel ih =>
    have hsucc : fuel + 1 + more = fuel + more + 1 := by omega
    rw [hsucc]
    unfold planLoop
    split
    · dsimp only
      split
      · rfl
      -- the round was not idle, so one service fewer is left
      · next hmoved =>
        obtain ⟨later, hlater⟩ := planPass_order w w.slots plan
        have hlen := congrArg List.length hlater
        rw [List.length_append] at hlen
        exact ih (planPass_places _ hp) (by omega)
    · rfl

end StopPlan

/-- The selection loop ends by itself, and `order` has room for what it places. -/
structure PlanFits (w : World) : Prop where
  ends : ∀ more, planLoop w (StopPlan.stopCount w) (w.size + 1 + more) (StopPlan.initial w) =
    stopPlan w
  fits : (stopPlan w).order.length ≤ maxServices

/-- The plan has an end and fits into the table. -/
theorem plan_fits {w : World} (hsize : w.size = maxServices) : PlanFits w where
  ends := by
    have hcount := StopPlan.stopCount_le w
    exact StopPlan.planLoop_fuel_independent (StopPlan.initial_places w)
      (Nat.lt_add_right _ (Nat.lt_succ_of_le hcount))
  fits := hsize ▸ (stopPlan_places w).length_le.trans (StopPlan.stopCount_le w)

/-- `stop_all_in_order` visits the services that are to be stopped, and no others. -/
theorem mem_visited {w : World} {i : Nat} : i ∈ visited w ↔ ToStop w i := by
  have hplaces := stopPlan_places w
  unfold visited
  rw [List.mem_append, List.mem_filter, hplaces.remaining i]
  constructor
  · intro hi
    exact hi.elim (hplaces.toStop i) fun hleft => hleft.2.1
  · intro hstop
    by_cases hi : i ∈ (stopPlan w).order
    · exact .inl hi
    · exact .inr ⟨List.mem_range.mpr hstop.1, hstop, hi⟩

/-- Each of them once. -/
theorem visited_nodup (w : World) : (visited w).Nodup := by
  have hplaces := stopPlan_places w
  refine List.nodup_append.mpr ⟨hplaces.nodup, List.nodup_range.filter _, ?_⟩
  rintro i hi j hj rfl
  exact ((hplaces.remaining i).mp (List.mem_filter.mp hj).2).2 hi

/-! ## SIGTERM -/

/-- Targets and signals of the `kill`s from one state to another, in order. -/
def signals (w w' : World) : List (Int × Int) :=
  (since w.k.log w'.k.log).reverse.filterMap Event.killed

/-- Whom the stop of a service signals. -/
theorem mem_stopTargets {s : Service} {target : Int} : target ∈ stopTargets s ↔
    s.active = true ∧ 0 < s.pid ∧ target = -s.pid ∨
      0 < s.logPid ∧ s.logStopping = false ∧ target = s.logPid := by
  unfold stopTargets
  rw [List.mem_append]
  -- the main process is one possible target, the logger the other
  constructor
  · rintro (h | h) <;> split at h
    · next hlive =>
      simp only [Bool.and_eq_true, decide_eq_true_eq] at hlive
      exact .inl ⟨hlive.1, hlive.2, List.mem_singleton.mp h⟩
    · cases h
    · next hlive =>
      simp only [Bool.and_eq_true, decide_eq_true_eq, Bool.not_eq_true'] at hlive
      exact .inr ⟨hlive.1, hlive.2, List.mem_singleton.mp h⟩
    · cases h
  · rintro (⟨hact, hpid, rfl⟩ | ⟨hpid, hstopping, rfl⟩)
    · apply Or.inl
      rw [if_pos (by simp [hact, hpid])]
      exact List.mem_singleton_self _
    · apply Or.inr
      rw [if_pos (by simp [hstopping, hpid])]
      exact List.mem_singleton_self _

section

variable {w : World}

/-- Whoever is signalled on behalf of a record is signalled on behalf of this record only. -/
theorem Life.Tracked.target_inj (h : w.life.Tracked) {i j : Nat} {target : Int}
    (hi : target ∈ stopTargets (w.svc i)) (hj : target ∈ stopTargets (w.svc j)) : i = j := by
  cases mem_stopTargets.mp hi with
  | inl hi =>
    cases mem_stopTargets.mp hj with
    | inl hj =>
      -- two main processes with one pid are one
      have hmain := h.main_mem (i := i) hi.2.1
      have hmain' := h.main_mem (i := j) hj.2.1
      have hneg : -(w.svc i).pid = -(w.svc j).pid := hi.2.2.symm.trans hj.2.2
      have hpid : (w.svc i).pid = (w.svc j).pid := by omega
      have hpid : (w.life.core i).pid = (w.life.core j).pid := hpid
      rw [hpid] at hmain
      simpa using h.role_eq hmain hmain'
    | inr hj =>
      -- a group and a process are different targets
      have hneg := hi.2.2
      have hpos := hj.2.2
      omega
  | inr hi =>
    cases mem_stopTargets.mp hj with
    | inl hj =>
      have hpos := hi.2.2
      have hneg := hj.2.2
      omega
    | inr hj =>
      -- two loggers with one pid are one
      have hlogger := h.logger i hi.1
      have hlogger' := h.logger j hj.1
      have hpid : (w.life.core i).logPid = (w.life.core j).logPid := hi.2.2.symm.trans hj.2.2
      rw [hpid] at hlogger
      simpa using h.role_eq hlogger hlogger'

/-- Nobody twice. -/
theorem stopTargets_nodup (s : Service) : (stopTargets s).Nodup := by
  unfold stopTargets
  split
  · next hlive =>
    have hpid : 0 < s.pid := by simpa using (Bool.and_eq_true_iff.mp hlive).2
    split
    · next hlogger =>
      have hlog : 0 < s.logPid := by simpa using (Bool.and_eq_true_iff.mp hlogger).1
      have hne : -s.pid ≠ s.logPid := by omega
      simp [hne]
    · simp
  · split <;> simp

/-- Nobody twice among all services. -/
theorem Life.Tracked.targets_nodup (h : w.life.Tracked) :
    ((visited w).flatMap fun i => stopTargets (w.svc i)).Nodup := by
  apply List.nodup_flatMap.mpr
  refine ⟨fun i _ => stopTargets_nodup (w.svc i), ?_⟩
  apply (visited_nodup w).imp
  intro i j hne target hi hj
  exact hne (h.target_inj hi hj)

/-- The signals of the stop of all services, in order. -/
theorem stopAllInOrder_signals (w : World) : signals w (stopAllInOrder w).2 =
    ((visited w).flatMap fun i => stopTargets (w.svc i)).map fun target => (target, sigterm) := by
  obtain ⟨evs, hlog, htargets⟩ := stopAllInOrder_kills w
  unfold signals
  rw [hlog, Transition.since_append, htargets]

/-- A service with a main process is one of those that are to be stopped. -/
theorem Life.Tracked.toStop (h : w.life.Tracked) {i : Nat} (hact : (w.svc i).active = true)
    (hpid : 0 < (w.svc i).pid) : ToStop w i := by
  refine ⟨h.inTable i hact, ?_⟩
  have halive : (w.svc i).state = .running ∨ (w.svc i).state = .stopping := (h.sound i).alive hpid
  unfold needsStop
  cases halive with
  | inl hst => simp [hact, hst]
  | inr hst => simp [hact, hst]

/-! ## The records afterwards -/

/-- Signalling the logger keeps the life cycle. -/
theorem signalLogger_when_core (c : Bool) (s : Service) (k : Kernel) :
    ((if c then signalLogger s else pure s : Sys Service) k).1.core = s.core := by
  cases c <;> rfl

/-- A service that is stopped in its place. -/
theorem stopOrdered_core {s : Service} (hact : s.active = true) (hpid : 0 < s.pid) (k : Kernel) :
    (stopOrdered s k).1.core = s.core.told := by
  have hlive : (s.active && s.pid > 0) = true := by simp [hact, hpid]
  unfold stopOrdered
  rw [if_pos hlive]
  exact signalLogger_when_core _ (signalStopStatus s k).1 _

/-- A service that has no place. -/
theorem stopRemaining_core {s : Service} (hact : s.active = true) (hpid : 0 < s.pid) (k : Kernel) :
    (stopRemaining s k).1.core = s.core.told := by
  have hlive : (s.active && s.pid > 0) = true := by simp [hact, hpid]
  unfold stopRemaining
  rw [if_pos hlive]
  exact signalLogger_when_core _ (signalStop s k).1 _

/-- What a loop over different slots makes of a record. -/
theorem forSlots_svc {f : Service → Sys Service} {is : List Nat} (hnodup : is.Nodup) {i : Nat}
    (hi : i ∈ is) (w : World) :
    ∃ k, (forSlots (fun i => onSlot i f) is w).2.svc i = (f (w.svc i) k).1 := by
  induction is generalizing w with
  | nil => cases hi
  | cons j is ih =>
    obtain ⟨hnew, hrest⟩ := List.nodup_cons.mp hnodup
    -- its turn is now, and it will not come again
    by_cases hij : i = j
    · subst hij
      have hstays := forSlots_svc_other (f := f) hnew (onSlot i f w).2
      rw [onSlot_svc, if_pos rfl] at hstays
      exact ⟨w.k, hstays⟩
    · obtain ⟨k, hk⟩ := ih hrest ((List.mem_cons.mp hi).resolve_left hij) (onSlot j f w).2
      rw [onSlot_svc, if_neg hij] at hk
      exact ⟨k, hk⟩

/-- Every service with a process is told. -/
theorem stopAllInOrder_core {i : Nat} (hstop : ToStop w i) (hpid : 0 < (w.svc i).pid) :
    ((stopAllInOrder w).2.svc i).core = (w.svc i).core.told := by
  have hplaces := stopPlan_places w
  have hact : (w.svc i).active = true := (Bool.and_eq_true_iff.mp hstop.2).1
  have hslots : (w.slots.filter (stopPlan w).remaining).Nodup := List.nodup_range.filter _
  -- `w₁` is the table after the services that could be ordered
  let w₁ := (forSlots (fun i => onSlot i stopOrdered) (stopPlan w).order w).2
  show ((forSlots (fun i => onSlot i stopRemaining) (w.slots.filter (stopPlan w).remaining) w₁).2.svc
    i).core = _
  -- either the order has a place for it, or it is among those that are left
  by_cases hi : i ∈ (stopPlan w).order
  · have hnot : i ∉ w.slots.filter (stopPlan w).remaining := fun hleft =>
      ((hplaces.remaining i).mp (List.mem_filter.mp hleft).2).2 hi
    obtain ⟨k, hk⟩ := forSlots_svc (f := stopOrdered) hplaces.nodup hi w
    rw [forSlots_svc_other hnot, hk]
    exact stopOrdered_core hact hpid k
  · have hleft : i ∈ w.slots.filter (stopPlan w).remaining :=
      List.mem_filter.mpr ⟨List.mem_range.mpr hstop.1, (hplaces.remaining i).mpr ⟨hstop, hi⟩⟩
    -- what was done in order did not touch it
    have hsame : w₁.svc i = w.svc i := forSlots_svc_other hi w
    obtain ⟨k, hk⟩ := forSlots_svc (f := stopRemaining) hslots hleft w₁
    rw [hk, hsame]
    exact stopRemaining_core hact hpid k

end

/-- What `stop_all_in_order` does to the processes and the records. -/
structure StopsAll (w : World) : Prop where
  main : ∀ i, (w.svc i).active = true → 0 < (w.svc i).pid →
    (signals w (stopAllInOrder w).2).count (-(w.svc i).pid, sigterm) = 1
  logger : ∀ i, (w.svc i).active = true → 0 < (w.svc i).logPid →
    (signals w (stopAllInOrder w).2).count ((w.svc i).logPid, sigterm) ≤ 1
  /-- Nobody else is signalled, and with no other signal. -/
  only : ∀ target sig, (target, sig) ∈ signals w (stopAllInOrder w).2 → sig = sigterm ∧
    ∃ i, (w.svc i).active = true ∧ (0 < (w.svc i).pid ∧ target = -(w.svc i).pid ∨
      0 < (w.svc i).logPid ∧ target = (w.svc i).logPid)
  stopping : ∀ i, (w.svc i).active = true → 0 < (w.svc i).pid →
    ((stopAllInOrder w).2.svc i).pid = (w.svc i).pid ∧
      ((stopAllInOrder w).2.svc i).stopping = true ∧
      ((stopAllInOrder w).2.svc i).state = .stopping

/-- All services are stopped. -/
theorem stopAllInOrder_stops {w : World} (h : w.life.Tracked) : StopsAll w := by
  have hsent := stopAllInOrder_signals w
  -- nobody is signalled twice
  have hnodup : (signals w (stopAllInOrder w).2).Nodup := by
    rw [hsent]
    apply h.targets_nodup.map
    intro t t' heq
    exact congrArg Prod.fst heq
  refine ⟨?_, ?_, ?_, ?_⟩
  -- every main process, once
  · intro i hact hpid
    apply List.count_eq_one_of_mem hnodup
    rw [hsent]
    apply List.mem_map_of_mem
    exact List.mem_flatMap.mpr ⟨i, mem_visited.mpr (h.toStop hact hpid),
      mem_stopTargets.mpr (.inl ⟨hact, hpid, rfl⟩)⟩
  · intro i _ _
    exact List.nodup_iff_count_le_one.mp hnodup _
  -- nobody else
  · intro target sig hmem
    rw [hsent] at hmem
    obtain ⟨t, ht, heq⟩ := List.mem_map.mp hmem
    obtain ⟨rfl, rfl⟩ := Prod.mk.inj heq
    obtain ⟨i, hi, htarget⟩ := List.mem_flatMap.mp ht
    have hact : (w.svc i).active = true := (Bool.and_eq_true_iff.mp (mem_visited.mp hi).2).1
    refine ⟨rfl, i, hact, ?_⟩
    cases mem_stopTargets.mp htarget with
    | inl hmain => exact .inl hmain.2
    | inr hlogger => exact .inr ⟨hlogger.1, hlogger.2.2⟩
  -- and the records know
  · intro i hact hpid
    have hcore := stopAllInOrder_core (h.toStop hact hpid) hpid
    exact ⟨congrArg Core.pid hcore, congrArg Core.stopping hcore, congrArg Core.state hcore⟩

/-! ## The rest of `main` -/

/-- Everything that is not a start forks no main process. -/
theorem LifeStep.startsNothing {a b : Life} (h : LifeStep noStart a b) :
    ∃ evs, b.log = evs ++ a.log ∧ ∀ i, ∀ e ∈ evs, ¬Starts i e := by
  cases h with
  | retry _ _ _ hS | forkLogger _ _ _ hS | start _ _ _ hS | startFail _ _ _ hS => exact hS.elim
  | tick | unmark => exact ⟨[], rfl, fun _ _ he => absurd he List.not_mem_nil⟩
  | runCheck | reapMain => exact ⟨[_, _], rfl, by simp [Starts]⟩
  | _ => exact ⟨[_], rfl, by simp [Starts]⟩

/-- Without starts, the log gets no fork of a service. -/
theorem Steps.startsNothing {w w' : World} (h : Steps noStart w w') :
    ∃ evs, w'.k.log = evs ++ w.k.log ∧ ∀ i, ∀ e ∈ evs, ¬Starts i e := by
  have hlife : ∀ {a b : Life}, LifeSteps noStart a b →
      ∃ evs, b.log = evs ++ a.log ∧ ∀ i, ∀ e ∈ evs, ¬Starts i e := by
    -- by induction on the steps
    intro a b h
    induction h with
    | refl => exact ⟨[], rfl, fun _ _ he => absurd he List.not_mem_nil⟩
    | tail _ hstep ih =>
      obtain ⟨evs, hevs, hnone⟩ := ih
      obtain ⟨evs', hevs', hnone'⟩ := hstep.startsNothing
      refine ⟨evs' ++ evs, by rw [hevs', hevs, List.append_assoc], fun i e he => ?_⟩
      cases List.mem_append.mp he with
      | inl he => exact hnone' i e he
      | inr he => exact hnone i e he
  exact hlife h

/-- The final cleanup only closes descriptors and writes files. -/
theorem cleanupServices_log (w : World) : (cleanupServices w).2.k.log = w.k.log := by
  -- cleaning up a slot closes files and writes the status, which are no entries of this log
  have hslot : ∀ i (w : World), (cleanupSlot i w).2.k.log = w.k.log := by
    intro i w
    unfold cleanupSlot
    rw [Sup.get_bind, Sup.ite_apply]
    split
    · have hclose := (closeServiceFds_calm (w.svc i)).rel w.k
      exact ((writeStatusFile_calm _).rel _).log.trans hclose.log
    · rfl
  have hloop : ∀ is (w : World), (forSlots cleanupSlot is w).2.k.log = w.k.log := by
    intro is
    induction is with
    | nil => exact fun _ => rfl
    | cons i is ih => exact fun w => (ih (cleanupSlot i w).2).trans (hslot i w)
  exact hloop w.slots w

/-- The end of `main`, after the loop. -/
def shutdownEnd (first second : List Round) (w : World) : World :=
  (cleanupServices (shutdownServices first second w).2).2

/-- The table when the first waiting loop has ended. -/
def afterDeadline (first : List Round) (w : World) : World :=
  let w := (liftSys monoNow (stopAllInOrder w).2).2
  (waitLoop (i64 (w.k.clock + shutdownTimeoutS)) first w).2

/-- The phases of the shutdown. -/
theorem shutdownServices_eq (first second : List Round) (w : World) :
    ∃ deadline, (shutdownServices first second w).2 = (waitLoop deadline second (liftSys monoNow
      (forSlots killRemaining (afterDeadline first w).slots (afterDeadline first w)).2).2).2 :=
  ⟨_, rfl⟩

/-- No main process is started any more. -/
theorem shutdown_starts_nothing (first second : List Round) (w : World) :
    ∀ i, ∀ e ∈ since w.k.log (shutdownEnd first second w).k.log, ¬Starts i e := by
  obtain ⟨evs, hlog, hnone⟩ :=
    ((shutdownServices_keeps steps_respects first second).rel w).startsNothing
  have hend : (shutdownEnd first second w).k.log = evs ++ w.k.log :=
    (cleanupServices_log _).trans hlog
  rw [hend, Transition.since_append]
  exact hnone

/-! ### SIGKILL -/

/-- The signals are the kills of the log in between. -/
theorem mem_signals {w w' : World} {evs : List Event} (h : w'.k.log = evs ++ w.k.log)
    {target sig : Int} : (target, sig) ∈ signals w w' ↔ .kill target sig ∈ evs := by
  have hkilled : ∀ e : Event, e.killed = some (target, sig) ↔ e = .kill target sig := by
    intro e
    cases e <;> simp [Event.killed]
  unfold signals
  rw [h, Transition.since_append, List.mem_filterMap]
  constructor
  · rintro ⟨e, he, hsent⟩
    exact (hkilled e).mp hsent ▸ List.mem_reverse.mp he
  · exact fun he => ⟨_, List.mem_reverse.mpr he, rfl⟩

/-- Both processes of the record are sent SIGKILL. -/
structure KillsBoth (s : Service) (evs : List Event) : Prop where
  main : s.active = true → 0 < s.pid → .kill (-s.pid) sigkill ∈ evs
  logger : s.active = true → 0 < s.logPid → .kill s.logPid sigkill ∈ evs

/-- More events do no harm. -/
theorem KillsBoth.mono {s : Service} {evs evs' : List Event} (h : KillsBoth s evs)
    (hsub : evs ⊆ evs') : KillsBoth s evs' :=
  ⟨fun hact hpid => hsub (h.main hact hpid), fun hact hpid => hsub (h.logger hact hpid)⟩

/-- SIGKILL for the processes of one record. -/
theorem killProcesses_kills (s : Service) (k : Kernel) :
    ∃ evs, (killProcesses s k).2.log = evs ++ k.log ∧ KillsBoth s evs := by
  have hkill : ∀ target (k : Kernel), (kill target sigkill k).2.log = .kill target sigkill :: k.log :=
    fun target k => emit_log rfl k
  -- the events of the two tests, each of which may fail
  let main := if s.active && s.pid > 0 then [Event.kill (-s.pid) sigkill] else []
  let logger := if s.active && s.logPid > 0 then [Event.kill s.logPid sigkill] else []
  refine ⟨logger ++ main, ?_, fun hact hpid => ?_, fun hact hpid => ?_⟩
  · unfold killProcesses
    cases hmain : (s.active && s.pid > 0) <;> cases hlogger : (s.active && s.logPid > 0) <;>
      simp [main, logger, hmain, hlogger, hkill]
  · have hmain : (s.active && s.pid > 0) = true := by simp [hact, hpid]
    apply List.mem_append_right
    simp only [main, if_pos hmain]
    exact List.mem_singleton_self _
  · have hlogger : (s.active && s.logPid > 0) = true := by simp [hact, hpid]
    apply List.mem_append_left
    simp only [logger, if_pos hlogger]
    exact List.mem_singleton_self _

/-- SIGKILL for those of all, by induction over the slots. -/
theorem killLoop_kills (is : List Nat) (w : World) :
    ∃ evs, (forSlots killRemaining is w).2.k.log = evs ++ w.k.log ∧
      ∀ i ∈ is, KillsBoth (w.svc i) evs := by
  induction is generalizing w with
  | nil => exact ⟨[], rfl, fun i hi => absurd hi List.not_mem_nil⟩
  | cons i is ih =>
    obtain ⟨evs, hevs, hkills⟩ := killProcesses_kills (w.svc i) w.k
    -- the pass changes no record
    have hsvc : (killRemaining i w).2.svc = w.svc := rfl
    obtain ⟨evs', hevs', hkills'⟩ := ih (killRemaining i w).2
    rw [hsvc] at hkills'
    refine ⟨evs' ++ evs, ?_, fun j hj => ?_⟩
    · show (forSlots killRemaining is (killRemaining i w).2).2.k.log = _
      have hfirst : (killRemaining i w).2.k.log = evs ++ w.k.log := hevs
      rw [hevs', hfirst, List.append_assoc]
    · cases List.mem_cons.mp hj with
      | inl hji => exact hji ▸ hkills.mono (List.subset_append_right _ _)
      | inr hj => exact (hkills' j hj).mono (List.subset_append_left _ _)

/-- Whatever a record still names after the first deadline is sent SIGKILL. -/
theorem shutdown_kills (first second : List Round) (w : World) {i : Nat}
    (hi : i < (afterDeadline first w).size) :
    ∃ evs, (shutdownEnd first second w).k.log = evs ++ (afterDeadline first w).k.log ∧
      KillsBoth ((afterDeadline first w).svc i) evs := by
  obtain ⟨deadline, hrun⟩ := shutdownServices_eq first second w
  -- the signals are sent between the two waits
  obtain ⟨evs, hevs, hkills⟩ := killLoop_kills (afterDeadline first w).slots (afterDeadline first w)
  have hclock := (readClock_keeps steps_respects).rel
    (forSlots killRemaining (afterDeadline first w).slots (afterDeadline first w)).2
  have hwait := (waitLoop_keeps steps_respects deadline second).rel (liftSys monoNow
    (forSlots killRemaining (afterDeadline first w).slots (afterDeadline first w)).2).2
  obtain ⟨later, hlater, -⟩ := (hclock.trans hwait).startsNothing
  refine ⟨later ++ evs, ?_, (hkills i (List.mem_range.mpr hi)).mono (List.subset_append_right _ _)⟩
  show (cleanupServices (shutdownServices first second w).2).2.k.log = _
  rw [cleanupServices_log, hrun, hlater, hevs, List.append_assoc]

/-- The first phase is made of operations. -/
theorem afterDeadline_performs (first : List Round) (w : World) :
    Performs w (afterDeadline first w) := by
  have hstop := Performs.op .stopAll w
  have hclock := (readClock_keeps performs_respects).rel (stopAllInOrder w).2
  exact (hstop.trans hclock).trans ((waitLoop_keeps performs_respects _ first).rel _)

/-- The table never changes its size. -/
theorem Reachable.size {w : World} (hw : Reachable w) : w.size = maxServices :=
  hw.invariant (I := fun a => a.size = maxServices) (fun _ ha => ha.size) fun a b hstep ha => by
    cases hstep <;> exact ha

/-- In every reachable state, whatever the dependency graph looks like: `stop_all_in_order`
    ends and has room in its array, every main process is sent one SIGTERM and is told to
    stop, every logger is sent at most one, and nobody else is signalled; from then on no main
    process is started, and every process that an active record still names after the
    first deadline is sent SIGKILL. -/
theorem shutdown_misses_nothing {w : World} (hw : Reachable w) (first second : List Round) :
    PlanFits w ∧ StopsAll w ∧
      (∀ i, ∀ e ∈ since w.k.log (shutdownEnd first second w).k.log, ¬Starts i e) ∧
      ∀ i, ((afterDeadline first w).svc i).active = true →
        (0 < ((afterDeadline first w).svc i).pid → (-((afterDeadline first w).svc i).pid, sigkill) ∈
          signals (afterDeadline first w) (shutdownEnd first second w)) ∧
        (0 < ((afterDeadline first w).svc i).logPid → (((afterDeadline first w).svc i).logPid, sigkill)
          ∈ signals (afterDeadline first w) (shutdownEnd first second w)) := by
  refine ⟨plan_fits hw.size, stopAllInOrder_stops hw.accounted.tracked,
    shutdown_starts_nothing first second w, fun i hact => ?_⟩
  -- a record that is active after the first wait is still in the table
  have hlater := (hw.performs (afterDeadline_performs first w)).accounted.tracked
  obtain ⟨evs, hevs, hkills⟩ := shutdown_kills first second w (hlater.inTable i hact)
  exact ⟨fun hpid => (mem_signals hevs).mpr (hkills.main hact hpid),
    fun hpid => (mem_signals hevs).mpr (hkills.logger hact hpid)⟩

/-- Two services, of which one depends on the other; the first waiting loop ends at once. -/
theorem shutdown_misses_nothing_chain :
    (signals chainStarted (stopAllInOrder chainStarted).2).count
        (-(chainStarted.svc 1).pid, sigterm) = 1 ∧
      (-((afterDeadline [] chainStarted).svc 1).pid, sigkill) ∈
        signals (afterDeadline [] chainStarted) (shutdownEnd [] [] chainStarted) := by
  obtain ⟨-, hstops, -, hkills⟩ := shutdown_misses_nothing chainStarted_reachable [] []
  have hactive : ((afterDeadline [] chainStarted).svc 1).active = true := by decide +kernel
  exact ⟨hstops.main 1 (by decide +kernel) (by decide +kernel),
    (hkills 1 hactive).1 (by decide +kernel)⟩

end SvcRs
