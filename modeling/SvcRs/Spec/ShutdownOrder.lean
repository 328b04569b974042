import Mathlib.Data.Fintype.Basic
import Mathlib.Data.Fintype.Card
import Mathlib.Data.Fintype.EquivFin
import Mathlib.Data.List.Perm.Subperm
import Mathlib.Order.WellFounded
import SvcRs.ForStd.List
import SvcRs.Spec.Dependencies
import SvcRs.Spec.Processes

/-!
# The order of the shutdown

`stop_all_in_order` stops a service as soon as none of its hard dependencies is left to
be stopped: dependencies come first.

## Key results

- `stopPlan_complete`: without cycles, every service gets a place in the order
- `stopPlan_order`: a hard dependency comes before the services that need it
- `reverse_order_iff`: when the order is the reverse dependency order
-/

namespace SvcRs

open Relation (TransGen)
open Transition (since)

/-! ## The dependency graph -/

/-- The service in slot `i` is one of those that `stop_all_in_order` looks at. -/
def ToStop (w : World) (i : Nat) : Prop := i < w.size ∧ needsStop (w.svc i) = true

/-- A hard dependency between two services that are to be stopped. -/
def Needs (w : World) (i j : Nat) : Prop := ToStop w i ∧ ToStop w j ∧ HardDep w i j

/-- The service has a main process to stop. -/
def HasProcess (w : World) (i : Nat) : Prop := ToStop w i ∧ 0 < (w.svc i).pid

/-- Names are unique, hard dependencies make no cycle, and processes have different pids. -/
structure OrderlyTable (w : World) : Prop where
  names : ∀ i < w.size, ∀ j < w.size, (w.svc i).active = true → (w.svc j).active = true →
    (w.svc i).name = (w.svc j).name → i = j
  acyclic : ∀ i, ¬TransGen (Needs w) i i
  pids : ∀ i j, HasProcess w i → HasProcess w j → (w.svc i).pid = (w.svc j).pid → i = j

section

variable {w : World} {i j : Nat}

/-- The lookup finds the dependency. -/
theorem HardDep.find (h : OrderlyTable w) (hj : j < w.size) (hact : (w.svc j).active = true)
    {name : Bytes} (hname : name = (w.svc j).name) : findServiceByName w name = some j :=
  hname ▸ DistinctNames.find h.names hj hact

/-- The `ready` test, in terms of the dependency graph. -/
theorem stopReady_iff (h : OrderlyTable w) (plan : StopPlan) (i : Nat) :
    stopReady w plan (w.svc i) = true ↔ ∀ j, HardDep w i j → plan.remaining j = false := by
  simp only [stopReady, List.all_eq_true, Bool.or_eq_true]
  constructor
  -- a hard dependency leads to the one slot of that name
  · rintro hready j ⟨hj, hact, dep, hdep, hsoft, hname⟩
    have := hready dep hdep
    rw [hsoft, HardDep.find h hj hact hname] at this
    simpa using this
  · intro hall dep hdep
    cases hsoft : dep.soft with
    | true => exact .inl rfl
    | false =>
      right
      cases hfind : findServiceByName w dep.name with
      -- the name is not in the table, so nothing has to be waited for
      | none => rfl
      | some j =>
        obtain ⟨hj, hp⟩ := w.findSlot_some hfind
        simp only [Bool.and_eq_true, decide_eq_true_eq] at hp
        simp [hall j ⟨hj, hp.1, dep, hdep, hsoft, hp.2.symm⟩]

end

/-! ## The plan -/

/-- Every service that is to be stopped either has one place in `order` or is `remaining`. -/
structure StopPlan.Places (w : World) (plan : StopPlan) : Prop where
  remaining : ∀ i, plan.remaining i = true ↔ ToStop w i ∧ i ∉ plan.order
  toStop : ∀ i ∈ plan.order, ToStop w i
  nodup : plan.order.Nodup

/-- What holds of `order` and `remaining` at any time. -/
structure StopPlan.Sorted (w : World) (plan : StopPlan) : Prop where
  remaining : ∀ i, plan.remaining i = true ↔ ToStop w i ∧ i ∉ plan.order
  toStop : ∀ i ∈ plan.order, ToStop w i
  nodup : plan.order.Nodup
  closed : ∀ i ∈ plan.order, ∀ j, HardDep w i j → plan.remaining j = false
  before : plan.order.Pairwise fun i j => ¬HardDep w i j

namespace StopPlan

variable {w : World} {plan : StopPlan} {i : Nat}

/-- What is sorted has its places. -/
theorem Sorted.places (hp : plan.Sorted w) : plan.Places w := ⟨hp.remaining, hp.toStop, hp.nodup⟩

/-- The plan at the beginning. -/
def initial (w : World) : StopPlan := ⟨[], fun i => i < w.size && needsStop (w.svc i)⟩

/-- No place has been given yet. -/
theorem initial_places (w : World) : (initial w).Places w :=
  ⟨fun i => by simp [initial, ToStop], fun i hi => absurd hi List.not_mem_nil, .nil⟩

/-- One more place. -/
theorem Places.pick (hp : plan.Places w) (hi : plan.remaining i = true) : (plan.pick i).Places w := by
  obtain ⟨hstop, hnew⟩ := (hp.remaining i).mp hi
  refine ⟨fun j => ?_, ?_, ?_⟩
  · simp only [StopPlan.pick, List.mem_append, List.mem_singleton, not_or]
    -- the one that is picked is not remaining, for the others nothing changes
    split
    · next hj => simp [hj]
    · next hj => rw [hp.remaining j]; simp [hj]
  · simp only [StopPlan.pick, List.mem_append, List.mem_singleton]
    rintro j (hj | rfl)
    · exact hp.toStop j hj
    · exact hstop
  · exact List.nodup_append.mpr ⟨hp.nodup, List.nodup_singleton i, by
      rintro a ha b hb rfl
      exact hnew (List.mem_singleton.mp hb ▸ ha)⟩

/-- One pass over the slots. -/
theorem planPass_places (is : List Nat) (hp : plan.Places w) : (planPass w is plan).Places w := by
  induction is generalizing plan with
  | nil => exact hp
  | cons i is ih =>
    unfold planPass
    split
    · next hgo => exact ih (hp.pick (Bool.and_eq_true_iff.mp hgo).1)
    · exact ih hp

/-- The passes together. -/
theorem planLoop_places (count fuel : Nat) (hp : plan.Places w) :
    (planLoop w count fuel plan).Places w := by
  induction fuel generalizing plan with
  | zero => exact hp
  | succ fuel ih =>
    unfold planLoop
    split
    · dsimp only
      split
      · exact hp
      · exact ih (planPass_places _ hp)
    · exact hp

/-- `count`: the number of services that are to be stopped. -/
def stopCount (w : World) : Nat := w.slots.countP fun i => needsStop (w.svc i)

/-- The services to be stopped. -/
theorem mem_filter_slots {w : World} {i : Nat} :
    i ∈ w.slots.filter (fun i => needsStop (w.svc i)) ↔ ToStop w i := by
  simp [World.slots, ToStop]

/-- There are no more places than services. -/
theorem Places.length_le (hp : plan.Places w) : plan.order.length ≤ stopCount w := by
  rw [stopCount, List.countP_eq_length_filter]
  exact (hp.nodup.subperm fun j hj => mem_filter_slots.mpr (hp.toStop j hj)).length_le

/-- And no more services than slots. -/
theorem stopCount_le (w : World) : stopCount w ≤ w.size := by
  have hcount : stopCount w ≤ w.slots.length := List.countP_le_length
  rwa [World.slots, List.length_range] at hcount

/-- The next place is for a service whose dependencies have theirs. -/
theorem Sorted.pick (hp : plan.Sorted w) (hi : plan.remaining i = true)
    (hready : ∀ j, HardDep w i j → plan.remaining j = false) : (plan.pick i).Sorted w := by
  have hplaces := hp.places.pick hi
  -- nothing comes back among the remaining ones
  have hless : ∀ j, plan.remaining j = false → (plan.pick i).remaining j = false := by
    intro j hj
    simp only [StopPlan.pick]
    split
    · rfl
    · exact hj
  refine ⟨hplaces.remaining, hplaces.toStop, hplaces.nodup, ?_, ?_⟩
  -- what the new one depends on has been picked before
  · simp only [StopPlan.pick, List.mem_append, List.mem_singleton]
    rintro a (ha | rfl) j hdep
    · exact hless j (hp.closed a ha j hdep)
    · exact hless j (hready j hdep)
  -- and nothing before it depends on it, as it was still remaining
  · refine List.pairwise_append.mpr ⟨hp.before, List.pairwise_singleton _ i, ?_⟩
    intro a ha b hb hdep
    obtain rfl := List.mem_singleton.mp hb
    exact absurd ((hp.closed a ha b hdep).symm.trans hi) (by decide)

/-- One pass over the slots. -/
theorem planPass_sorted (h : OrderlyTable w) (is : List Nat) (hp : plan.Sorted w) :
    (planPass w is plan).Sorted w := by
  induction is generalizing plan with
  | nil => exact hp
  | cons i is ih =>
    simp only [planPass]
    split
    · next hgo =>
      obtain ⟨hi, hready⟩ := Bool.and_eq_true_iff.mp hgo
      exact ih (hp.pick hi ((stopReady_iff h plan i).mp hready))
    · exact ih hp

/-- The passes together. -/
theorem planLoop_sorted (h : OrderlyTable w) (count fuel : Nat) (hp : plan.Sorted w) :
    (planLoop w count fuel plan).Sorted w := by
  induction fuel generalizing plan with
  | zero => exact hp
  | succ fuel ih =>
    simp only [planLoop]
    split
    · split
      · exact hp
      · exact ih (planPass_sorted h _ hp)
    · exact hp

/-- A pass only adds to the order. -/
theorem planPass_order (w : World) (is : List Nat) (plan : StopPlan) :
    ∃ more, (planPass w is plan).order = plan.order ++ more := by
  induction is generalizing plan with
  | nil => exact ⟨[], (List.append_nil _).symm⟩
  | cons i is ih =>
    simp only [planPass]
    split
    · obtain ⟨more, hmore⟩ := ih (plan.pick i)
      exact ⟨i :: more, by rw [hmore, StopPlan.pick, List.append_assoc]; rfl⟩
    · exact ih plan

/-- A service that is ready gets its place in the next pass. -/
theorem mem_planPass (h : OrderlyTable w) {is : List Nat} (hi : i ∈ is)
    (hrem : plan.remaining i = true) (hready : ∀ j, HardDep w i j → plan.remaining j = false) :
    i ∈ (planPass w is plan).order := by
  -- by induction on the slots of the pass
  induction is generalizing plan with
  | nil => cases hi
  | cons k is ih =>
    simp only [planPass]
    have hgoes := (stopReady_iff h plan i).mpr hready
    -- its turn has come, or another slot is looked at first
    rcases List.mem_cons.mp hi with rfl | hi'
    · rw [if_pos (by simp [hrem, hgoes])]
      obtain ⟨more, hmore⟩ := planPass_order w is (plan.pick i)
      rw [hmore]
      simp [StopPlan.pick]
    · split
      -- picking that slot can only remove obstacles
      · by_cases hk : i = k
        · obtain ⟨more, hmore⟩ := planPass_order w is (plan.pick k)
          rw [hmore]
          simp [StopPlan.pick, hk]
        · refine ih hi' ?_ fun j hdep => ?_
          · simpa [StopPlan.pick, hk] using hrem
          · simp only [StopPlan.pick]
            split
            · rfl
            · exact hready j hdep
      · exact ih hi' hrem hready

/-- Without cycles, some service is ready as long as one is left. -/
theorem Sorted.exists_ready (h : OrderlyTable w) (hp : plan.Sorted w)
    (hleft : plan.remaining i = true) : ∃ m, plan.remaining m = true ∧
      ∀ j, HardDep w m j → plan.remaining j = false := by
  -- a minimal element of the dependency order among those that are left
  let r : Fin w.size → Fin w.size → Prop := fun j i => TransGen (Needs w) i j
  have htrans : IsTrans (Fin w.size) r := ⟨fun _ _ _ hab hbc => hbc.trans hab⟩
  have hirrefl : Std.Irrefl r := ⟨fun i => h.acyclic i⟩
  have hwf : WellFounded r := Finite.wellFounded_of_trans_of_irrefl r
  have hsize := ((hp.remaining i).mp hleft).1.1
  obtain ⟨m, hm, hmin⟩ := hwf.has_min { i | plan.remaining i = true } ⟨⟨i, hsize⟩, hleft⟩
  refine ⟨m, hm, fun j hdep => ?_⟩
  cases hj : plan.remaining j with
  | false => rfl
  | true =>
    have hneeds : Needs w m j := ⟨((hp.remaining m).mp hm).1, ((hp.remaining j).mp hj).1, hdep⟩
    exact absurd (TransGen.single hneeds) (hmin ⟨j, hdep.1⟩ hj)

/-- As long as a service is left, there is room for it in the order. -/
theorem Sorted.length_lt (hp : plan.Sorted w) (hleft : plan.remaining i = true) :
    plan.order.length < stopCount w := by
  obtain ⟨hstop, hnew⟩ := (hp.remaining i).mp hleft
  have hsub : i :: plan.order ⊆ w.slots.filter fun i => needsStop (w.svc i) := by
    intro j hj
    rcases List.mem_cons.mp hj with rfl | hj
    · exact mem_filter_slots.mpr hstop
    · exact mem_filter_slots.mpr (hp.toStop j hj)
  have hlen := ((List.nodup_cons.mpr ⟨hnew, hp.nodup⟩).subperm hsub).length_le
  rwa [← List.countP_eq_length_filter] at hlen

/-- As long as a service is left, a pass places one. -/
theorem Sorted.planPass_length (h : OrderlyTable w) (hp : plan.Sorted w)
    (hleft : plan.remaining i = true) :
    plan.order.length < (planPass w w.slots plan).order.length := by
  obtain ⟨m, hm, hready⟩ := hp.exists_ready h hleft
  obtain ⟨hstop, hnew⟩ := (hp.remaining m).mp hm
  have hslot : m ∈ w.slots := by simpa [World.slots] using hstop.1
  have hplaced := mem_planPass h hslot hm hready
  obtain ⟨more, hmore⟩ := planPass_order w w.slots plan
  rw [hmore] at hplaced ⊢
  cases more with
  | nil => exact absurd (by simpa using hplaced) hnew
  | cons k more => simp

/-- The loop places every service. -/
theorem planLoop_complete (h : OrderlyTable w) {fuel : Nat} (hp : plan.Sorted w)
    (hfuel : stopCount w < fuel + plan.order.length) (i : Nat) :
    (planLoop w (stopCount w) fuel plan).remaining i = false := by
  induction fuel generalizing plan with
  | zero =>
    have := hp.places.length_le
    omega
  | succ fuel ih =>
    simp only [planLoop]
    split
    · split
      · next hsame =>
        -- a pass without progress means that nothing is left
        cases hi : plan.remaining i with
        | false => rfl
        | true =>
          have := hp.planPass_length h hi
          omega
      · next hmoved =>
        obtain ⟨more, hmore⟩ := planPass_order w w.slots plan
        have hlen := congrArg List.length hmore
        rw [List.length_append] at hlen
        exact ih (planPass_sorted h _ hp) (by omega)
    · next hfull =>
      cases hi : plan.remaining i with
      | false => rfl
      | true => exact absurd (hp.length_lt hi) hfull

end StopPlan

/-- Every service has at most one place. -/
theorem stopPlan_places (w : World) : (stopPlan w).Places w :=
  StopPlan.planLoop_places _ _ (StopPlan.initial_places w)

/-- The plan that `stop_all_in_order` makes. -/
theorem stopPlan_sorted {w : World} (h : OrderlyTable w) : (stopPlan w).Sorted w := by
  refine StopPlan.planLoop_sorted h _ _ ⟨fun i => ?_, by simp, .nil, by simp, .nil⟩
  simp [ToStop]

/-- In an orderly table, every service gets a place. -/
theorem stopPlan_complete {w : World} (h : OrderlyTable w) (i : Nat) :
    (stopPlan w).remaining i = false := by
  have hplaces := StopPlan.initial_places w
  have hinit : (StopPlan.initial w).Sorted w :=
    ⟨hplaces.remaining, hplaces.toStop, hplaces.nodup, by simp [StopPlan.initial], .nil⟩
  have hcount := StopPlan.stopCount_le w
  exact StopPlan.planLoop_complete h hinit (Nat.lt_add_right _ (Nat.lt_succ_of_le hcount)) i

/-- Dependencies come first. -/
theorem stopPlan_order {w : World} (h : OrderlyTable w) {i j : Nat} (hneeds : Needs w i j) :
    [j, i].Sublist (stopPlan w).order := by
  have hp := stopPlan_sorted h
  obtain ⟨hi, hj, hdep⟩ := hneeds
  -- the rounds go on until every service to be stopped has its place
  have hplaced : ∀ k, ToStop w k → k ∈ (stopPlan w).order := by
    intro k hk
    refine Decidable.byContradiction fun hnew => ?_
    exact absurd ((hp.remaining k).mpr ⟨hk, hnew⟩) (by simp [stopPlan_complete h k])
  have hne : i ≠ j := by
    rintro rfl
    exact h.acyclic i (.single ⟨hi, hj, hdep⟩)
  -- one of the two comes first, and the dependent cannot
  rcases List.pair_sublist_of_mem (hplaced i hi) (hplaced j hj) hne with hij | hji
  · have hbefore := hp.before.sublist hij
    exact absurd hdep (by simpa using hbefore)
  · exact hji

/-! ## The signals -/

/-- The main process that a SIGTERM goes to. -/
def mainTerm : Event → Option Int
  | .kill target sig => if sig = sigterm ∧ target < 0 then some (-target) else none
  | _ => none

/-- The main processes that were sent SIGTERM, in order. -/
def sigterms (log : List Event) : List Int := log.reverse.filterMap mainTerm

/-- From one kernel to the other, SIGTERM went to these main processes. -/
def Terms (pids : List Int) (k k' : Kernel) : Prop :=
  ∃ evs, k'.log = evs ++ k.log ∧ sigterms evs = pids

/-- The main process behind a target. -/
def mainTarget (target : Int) : Option Int := if target < 0 then some (-target) else none

section

variable {k k' : Kernel} {targets : List Int}

/-- The signals to main processes alone. -/
theorem Kills.terms (h : Kills targets k k') : Terms (targets.filterMap mainTarget) k k' := by
  obtain ⟨evs, hevs, htargets⟩ := h
  refine ⟨evs, hevs, ?_⟩
  have hterm : mainTerm = fun e => e.killed.bind fun p =>
      if p.2 = sigterm ∧ p.1 < 0 then some (-p.1) else none := by
    funext e
    cases e <;> rfl
  rw [sigterms, hterm, ← List.filterMap_filterMap, htargets, List.filterMap_map]
  apply List.filterMap_congr
  intro target _
  simp [mainTarget]

end

/-- The process that the loop bodies send SIGTERM to. -/
def stopTarget (s : Service) : Option Int := if s.active && s.pid > 0 then some s.pid else none

/-- The main process, if there is one. -/
theorem stopTarget_some {s : Service} {pid : Int} (h : stopTarget s = some pid) :
    0 < s.pid ∧ s.pid = pid := by
  unfold stopTarget at h
  split at h
  · next hlive => exact ⟨by simpa using (Bool.and_eq_true_iff.mp hlive).2, Option.some.inj h⟩
  · cases h

/-- Whom the loop bodies send SIGTERM to: the process group of the main process, then the
    logger. -/
def stopTargets (s : Service) : List Int :=
  (if s.active && s.pid > 0 then [-s.pid] else []) ++
    if s.logPid > 0 && !s.logStopping then [s.logPid] else []

/-- Without the logger, this is the one target. -/
theorem stopTargets_main (s : Service) :
    (stopTargets s).filterMap mainTarget = (stopTarget s).toList := by
  -- a logger's pid is positive, so it is not read as a process group
  have hlogger : (if s.logPid > 0 && !s.logStopping then [s.logPid] else []).filterMap mainTarget =
      [] := by
    split
    · next h =>
      have hpos : 0 < s.logPid := by simpa using (Bool.and_eq_true_iff.mp h).1
      have hneg : ¬s.logPid < 0 := by omega
      simp [mainTarget, hneg]
    · rfl
  unfold stopTargets stopTarget
  rw [List.filterMap_append, hlogger, List.append_nil]
  split
  · next h =>
    have hpos : 0 < s.pid := by simpa using (Bool.and_eq_true_iff.mp h).2
    simp [mainTarget, hpos]
  · rfl

/-- The signals for one service. -/
theorem stopOrdered_kills (s : Service) (k : Kernel) :
    Kills (stopTargets s) k (stopOrdered s k).2 := by
  unfold stopOrdered stopTargets
  split
  · have hstatus : Kills [-s.pid] k (signalStopStatus s k).2 :=
      (kill_kills (-s.pid) k).trans ((writeStatusFile_calm _).rel _).kills
    exact hstatus.trans (signalLogger_kills (s := (signalStopStatus s k).1) _)
  · exact signalLogger_kills k

/-- The loop over what is left asks for an active record. -/
theorem stopRemaining_kills {s : Service} (hact : s.active = true) (k : Kernel) :
    Kills (stopTargets s) k (stopRemaining s k).2 := by
  unfold stopRemaining stopTargets
  rw [hact]
  simp only [Bool.true_and]
  -- the main process first, if there is one, and then its logger
  split
  · have hkill : Kills [-s.pid] k (signalStop s k).2 := kill_kills (-s.pid) k
    have hlogger := signalLogger_kills (c := s.logPid > 0 && !s.logStopping)
      (s := (signalStop s k).1) (signalStop s k).2
    have hactive : (signalStop s k).1.active = true := hact
    rw [Sys.bind_apply, hactive]
    exact hkill.trans hlogger
  · rw [Sys.bind_apply, Sys.pure_apply]
    simp only [hact, Bool.true_and]
    exact signalLogger_kills k

/-- The slots that a loop does not visit stay as they are. -/
theorem forSlots_svc_other {f : Service → Sys Service} {is : List Nat} {i : Nat} (hi : i ∉ is)
    (w : World) : (forSlots (fun i => onSlot i f) is w).2.svc i = w.svc i := by
  induction is generalizing w with
  | nil => rfl
  | cons j is ih =>
    simp only [List.mem_cons, not_or] at hi
    obtain ⟨hne, hrest⟩ := hi
    have hnext := ih hrest (onSlot j f w).2
    rwa [onSlot_svc, if_neg hne] at hnext

/-- A loop that stops the records in the slots `is`, each of them once. -/
theorem forSlots_kills {f : Service → Sys Service} {is : List Nat} (hnodup : is.Nodup) (w : World)
    (hf : ∀ i ∈ is, ∀ k, Kills (stopTargets (w.svc i)) k (f (w.svc i) k).2) :
    Kills (is.flatMap fun i => stopTargets (w.svc i)) w.k
      (forSlots (fun i => onSlot i f) is w).2.k := by
  induction is generalizing w with
  | nil => exact (Quiet.refl w.k).kills
  | cons i is ih =>
    obtain ⟨hi, hrest⟩ := List.nodup_cons.mp hnodup
    -- the other records are still as they were
    have hsame : ∀ j ∈ is, (onSlot i f w).2.svc j = w.svc j := by
      intro j hj
      rw [onSlot_svc, if_neg]
      rintro rfl
      exact hi hj
    have hnext := ih hrest (onSlot i f w).2 fun j hj k =>
      hsame j hj ▸ hf j (List.mem_cons_of_mem i hj) k
    have htargets : (is.flatMap fun j => stopTargets ((onSlot i f w).2.svc j)) =
        is.flatMap fun j => stopTargets (w.svc j) :=
      List.flatMap_congr fun j hj => congrArg stopTargets (hsame j hj)
    rw [htargets] at hnext
    rw [List.flatMap_cons]
    exact (hf i List.mem_cons_self w.k).trans hnext

/-- The slots in the order in which `stop_all_in_order` visits them. -/
def visited (w : World) : List Nat :=
  (stopPlan w).order ++ w.slots.filter (stopPlan w).remaining

/-- The signals for all, in the order of the visit. -/
theorem stopAllInOrder_kills (w : World) :
    Kills ((visited w).flatMap fun i => stopTargets (w.svc i)) w.k (stopAllInOrder w).2.k := by
  have hplaces := stopPlan_places w
  have hordered := forSlots_kills hplaces.nodup w fun i _ => stopOrdered_kills (w.svc i)
  let w₁ := (forSlots (fun i => onSlot i stopOrdered) (stopPlan w).order w).2
  -- what is left was not told in order, and is active
  have hleft : ∀ i ∈ w.slots.filter (stopPlan w).remaining,
      w₁.svc i = w.svc i ∧ (w.svc i).active = true := by
    intro i hi
    obtain ⟨hstop, hnew⟩ := (hplaces.remaining i).mp (List.mem_filter.mp hi).2
    exact ⟨forSlots_svc_other hnew w, (Bool.and_eq_true_iff.mp hstop.2).1⟩
  have hslots : (w.slots.filter (stopPlan w).remaining).Nodup := List.nodup_range.filter _
  have hrest := forSlots_kills hslots w₁ fun i hi k =>
    stopRemaining_kills ((hleft i hi).1 ▸ (hleft i hi).2) k
  -- so its pids are still those of the first table
  have htargets : ((w.slots.filter (stopPlan w).remaining).flatMap fun i => stopTargets (w₁.svc i)) =
      (w.slots.filter (stopPlan w).remaining).flatMap fun i => stopTargets (w.svc i) :=
    List.flatMap_congr fun i hi => congrArg stopTargets (hleft i hi).1
  rw [htargets] at hrest
  rw [visited, List.flatMap_append]
  exact hordered.trans hrest

/-- The SIGTERMs of `stop_all_in_order` go along the plan. -/
theorem stopAllInOrder_terms {w : World} (h : OrderlyTable w) :
    Terms ((stopPlan w).order.filterMap fun i => stopTarget (w.svc i)) w.k
      (stopAllInOrder w).2.k := by
  have hrest : w.slots.filter (stopPlan w).remaining = [] :=
    List.filter_eq_nil_iff.mpr fun i _ => by simp [stopPlan_complete h i]
  have hall := (stopAllInOrder_kills w).terms
  rw [visited, hrest, List.append_nil, List.filterMap_flatMap] at hall
  simp only [stopTargets_main] at hall
  rwa [List.filterMap_eq_flatMap_toList]

/-- Whenever a service hard-depends on another and both have a process, the service is sent
    its SIGTERM before the other. -/
def ReverseOrder (w : World) : Prop :=
  ∀ i j, HasProcess w i → HasProcess w j → HardDep w i j →
    [(w.svc i).pid, (w.svc j).pid].Sublist (sigterms (since w.k.log (stopAllInOrder w).2.k.log))

/-- In an orderly table, the order is the reverse of the dependencies exactly if no service with a
    process depends on another one. -/
theorem reverse_order_iff {w : World} (h : OrderlyTable w) :
    ReverseOrder w ↔ ∀ i j, HasProcess w i → HasProcess w j → ¬HardDep w i j := by
  obtain ⟨evs, hlog, hterms⟩ := stopAllInOrder_terms h
  have hsince : sigterms (since w.k.log (stopAllInOrder w).2.k.log) =
      (stopPlan w).order.filterMap fun i => stopTarget (w.svc i) := by
    rw [hlog, Transition.since_append, hterms]
  constructor
  · intro hreverse i j hi hj hdep
    have hij := hreverse i j hi hj hdep
    have htarget : ∀ k, HasProcess w k → stopTarget (w.svc k) = some (w.svc k).pid := by
      rintro k ⟨⟨-, hstop⟩, hpid⟩
      have hact : (w.svc k).active = true := (Bool.and_eq_true_iff.mp hstop).1
      simp [stopTarget, hact, hpid]
    have hji := (stopPlan_order h ⟨hi.1, hj.1, hdep⟩).filterMap fun i => stopTarget (w.svc i)
    simp only [List.filterMap_cons, htarget i hi, htarget j hj, List.filterMap_nil] at hji
    rw [hsince] at hij
    refine List.Nodup.not_pair_sublist ?_ hij hji
    -- every process is sent one signal
    refine List.pairwise_filterMap.mpr (List.Pairwise.imp_of_mem ?_ (stopPlan_sorted h).nodup)
    rintro a b ha hb hne p hp _ hq rfl
    obtain ⟨hpida, hea⟩ := stopTarget_some hp
    obtain ⟨hpidb, heb⟩ := stopTarget_some hq
    exact hne (h.pids a b ⟨(stopPlan_sorted h).toStop a ha, hpida⟩
      ⟨(stopPlan_sorted h).toStop b hb, hpidb⟩ (hea.trans heb.symm))
  · exact fun hno i j hi hj hdep => absurd hdep (hno i j hi hj)

/-- Without a cycle, since dependencies are in lower slots. -/
theorem acyclic_of_lt {w : World} (h : ∀ i j, Needs w i j → j < i) (i : Nat) :
    ¬TransGen (Needs w) i i := by
  intro hcycle
  have hlower : ∀ j, TransGen (Needs w) i j → j < i := by
    intro j hpath
    induction hpath with
    | single hneeds => exact h _ _ hneeds
    | tail _ hneeds ih => exact Nat.lt_trans (h _ _ hneeds) ih
  exact Nat.lt_irrefl i (hlower i hcycle)

/-- The table with `a` in slot 0 and `b`, which needs it, in slot 1. -/
theorem chainStarted_orderly : OrderlyTable chainStarted := by
  have honly : ∀ i < chainStarted.size, (chainStarted.svc i).active = true → i = 0 ∨ i = 1 := by
    decide +kernel
  have hpair : ∀ i, ToStop chainStarted i → i = 0 ∨ i = 1 := by
    rintro i ⟨hi, hstop⟩
    exact honly i hi (Bool.and_eq_true_iff.mp hstop).1
  have hdeps : (chainStarted.svc 0).deps = [] := by decide +kernel
  have hnames : (chainStarted.svc 0).name ≠ (chainStarted.svc 1).name := by decide +kernel
  have hpids : (chainStarted.svc 0).pid ≠ (chainStarted.svc 1).pid := by decide +kernel
  have hself : ∀ dep ∈ (chainStarted.svc 1).deps, dep.name ≠ (chainStarted.svc 1).name := by
    decide +kernel
  refine ⟨fun i hi j hj hacti hactj hname => ?_, acyclic_of_lt fun i j hneeds => ?_,
    fun i j hi hj hpid => ?_⟩
  · rcases honly i hi hacti with rfl | rfl <;> rcases honly j hj hactj with rfl | rfl
    · rfl
    · exact absurd hname hnames
    · exact absurd hname.symm hnames
    · rfl
  · -- `a` has no dependencies, and `b` does not name itself
    obtain ⟨hi, hj, -, -, dep, hdep, -, hname⟩ := hneeds
    rcases hpair i hi with rfl | rfl
    · rw [hdeps] at hdep
      exact absurd hdep List.not_mem_nil
    · rcases hpair j hj with rfl | rfl
      · exact Nat.zero_lt_one
      · exact absurd hname (hself dep hdep)
  · rcases hpair i hi.1 with rfl | rfl <;> rcases hpair j hj.1 with rfl | rfl
    · rfl
    · exact absurd hpid hpids
    · exact absurd hpid.symm hpids
    · rfl

/-- With `a` and `b` running, the order is not the reverse one. -/
theorem reverse_order_chain : HardDep chainStarted 1 0 ∧ ¬ReverseOrder chainStarted := by
  have hdep : HardDep chainStarted 1 0 :=
    ⟨by decide +kernel, by decide +kernel, ⟨bytesOf "a", false⟩, by decide +kernel, rfl,
      by decide +kernel⟩
  have ha : HasProcess chainStarted 0 := ⟨⟨by decide +kernel, by decide +kernel⟩, by decide +kernel⟩
  have hb : HasProcess chainStarted 1 := ⟨⟨by decide +kernel, by decide +kernel⟩, by decide +kernel⟩
  exact ⟨hdep, fun h => (reverse_order_iff chainStarted_orderly).mp h 1 0 hb ha hdep⟩

/-- `b` depends on `a`, and `a` is sent its SIGTERM first. -/
theorem dependency_stopped_first : OrderlyTable chainStarted ∧ HardDep chainStarted 1 0 ∧
    sigterms (since chainStarted.k.log (stopAllInOrder chainStarted).2.k.log) =
      [(chainStarted.svc 0).pid, (chainStarted.svc 1).pid] ∧ ¬ReverseOrder chainStarted := by
  have hdep : HardDep chainStarted 1 0 :=
    ⟨by decide +kernel, by decide +kernel, ⟨bytesOf "a", false⟩, by decide +kernel, rfl,
      by decide +kernel⟩
  have hsent : sigterms (since chainStarted.k.log (stopAllInOrder chainStarted).2.k.log) =
      [(chainStarted.svc 0).pid, (chainStarted.svc 1).pid] := by decide +kernel
  have hne : ¬[(chainStarted.svc 1).pid, (chainStarted.svc 0).pid].Sublist
      [(chainStarted.svc 0).pid, (chainStarted.svc 1).pid] := by decide +kernel
  refine ⟨chainStarted_orderly, hdep, hsent, fun hreverse => hne ?_⟩
  -- the dependent would have to come first
  have hlast := hreverse 1 0 ⟨⟨by decide +kernel, by decide +kernel⟩, by decide +kernel⟩
    ⟨⟨by decide +kernel, by decide +kernel⟩, by decide +kernel⟩ hdep
  rwa [hsent] at hlast

end SvcRs
