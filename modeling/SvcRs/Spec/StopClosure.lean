import SvcRs.ForStd.Saturation
import SvcRs.Spec.DependencyClosure

/-!
# Which services `stop_transitive_deps` stops

The sweeps stop one service after the other, in place. What they stop is the least set of
eligible services that is closed under the loss of hard dependencies, whatever the order of
the slots and whatever cycles there are.

## Key results

- `stranded_iff`: what the sweep tests in the middle of its work
- `stopTransitiveDeps_order`: the services that are told to stop, one after the other
- `stopTransitiveDeps_least`: they are the least closed set, and nothing else changes
-/

namespace SvcRs

open Transition (run Along)
open Saturation (Closed Forced)

/-! ## The closure -/

/-- The services that the sweep may stop. -/
structure Eligible (w : World) (i : Nat) : Prop where
  inTable : i < w.size
  active : (w.svc i).active = true
  running : (w.svc i).state = .running
  notStopping : (w.svc i).stopping = false
  pid : 0 < (w.svc i).pid

/-- The eligible services that have to be stopped when those of a set are: a hard dependency
    is missing, or is not RUNNING, or is in the set. -/
def strands (w : World) : Set Nat →o Set Nat where
  toFun S := {i | Eligible w i ∧
    (MissingDep w i ∨ ∃ j, HardDep w i j ∧ ((w.svc j).state ≠ .running ∨ j ∈ S))}
  monotone' := by
    rintro S T hST i ⟨hi, hmissing | ⟨j, hdep, hj⟩⟩
    · exact ⟨hi, .inl hmissing⟩
    · exact ⟨hi, .inr ⟨j, hdep, hj.imp_right fun hmem => hST hmem⟩⟩

/-- The slots of the table in another order. -/
def World.permute (w : World) (e : Equiv.Perm Nat) : World := { w with svc := fun i => w.svc (e i) }

/-! ## Telling services to stop -/

/-- The record of a service that was told to stop. -/
def Service.told (s : Service) : Service := { s with stopping := true, state := .stopping }

/-- One service is told to stop. -/
def tell (i : Nat) (w : World) : World := (onSlot i signalStopStatus w).2

/-- The sweep meets a stranded service. -/
def Meets (w : World) (i : Nat) : Prop := i < w.size ∧ Stranded w i

section

variable {w : World} {i : Nat}

/-- The table keeps its size. -/
@[simp] theorem tell_size : (tell i w).size = w.size := rfl

/-- One record changes. -/
theorem tell_svc (j : Nat) : (tell i w).svc j = if j = i then (w.svc i).told else w.svc j := by
  show (onSlot i signalStopStatus w).2.svc j = _
  rw [onSlot_svc]
  rfl

/-- One process group is signalled. -/
theorem tell_kills (i : Nat) (w : World) : Kills [-(w.svc i).pid] w.k (tell i w).k :=
  (kill_kills (-(w.svc i).pid) w.k).trans ((writeStatusFile_calm _).rel _).kills

/-- The same for several. -/
@[simp] theorem run_tell_size (order : List Nat) (w : World) : (run tell order w).size = w.size := by
  induction order generalizing w with
  | nil => rfl
  | cons i order ih => exact ih (tell i w)

/-- Telling a service twice is telling it once. -/
theorem run_tell_svc (order : List Nat) (w : World) (j : Nat) :
    (run tell order w).svc j = if j ∈ order then (w.svc j).told else w.svc j := by
  induction order generalizing w with
  | nil => simp
  | cons i order ih =>
    rw [Transition.run_cons, ih, tell_svc]
    by_cases hj : j = i
    · subst hj
      simp [Service.told]
    · simp [hj]

/-- The pid of a record stays. -/
theorem run_tell_kills (order : List Nat) (w : World) :
    Kills (order.map fun i => -(w.svc i).pid) w.k (run tell order w).k := by
  induction order generalizing w with
  | nil => exact (Quiet.refl w.k).kills
  | cons i order ih =>
    -- telling a service leaves every pid as it is
    have hpid : ∀ j, ((tell i w).svc j).pid = (w.svc j).pid := by
      intro j
      rw [tell_svc]
      split
      · next he => rw [he, Service.told]
      · rfl
    have hrest := ih (tell i w)
    simp only [hpid] at hrest
    exact (tell_kills i w).trans hrest

/-! ## The sweeps -/

/-- One sweep tells some services, each when it is its turn. -/
theorem stopSweep_order (is : List Nat) (w : World) (his : ∀ i ∈ is, i < w.size) :
    ∃ order, (stopSweep is w).2 = run tell order w ∧ Along tell Meets order w := by
  induction is generalizing w with
  | nil => exact ⟨[], rfl, trivial⟩
  | cons i is ih =>
    have hrest : ∀ w' : World, w'.size = w.size → ∀ j ∈ is, j < w'.size :=
      fun w' he j hj => he ▸ his j (List.mem_cons_of_mem i hj)
    simp only [stopSweep, Sup.bind_apply, Sup.pure_apply]
    -- the slot is stranded and told, or passed over
    rcases stopDependent_cases i w with ⟨hstranded, he⟩ | ⟨-, he⟩
    · obtain ⟨order, hrun, halong⟩ := ih (tell i w) (hrest (tell i w) rfl)
      refine ⟨i :: order, ?_, ⟨his i List.mem_cons_self, hstranded⟩, halong⟩
      rw [he]
      exact hrun
    · rw [he]
      exact ih w (hrest w rfl)

/-- So do the sweeps together. -/
theorem SweepsEnd.order {w' : World} (h : SweepsEnd w w') :
    ∃ order, w' = run tell order w ∧ Along tell Meets order w := by
  have hslots : ∀ w : World, ∀ i ∈ w.slots, i < w.size := fun _ _ => List.mem_range.mp
  induction h with
  | done w _ => exact stopSweep_order w.slots w (hslots w)
  | again w w' _ _ ih =>
    obtain ⟨first, hfirst, halong⟩ := stopSweep_order w.slots w (hslots w)
    obtain ⟨rest, hrest, halong'⟩ := ih
    rw [hfirst] at hrest halong'
    -- the sweeps after the first begin where it ended
    refine ⟨first ++ rest, ?_, ?_⟩
    · rw [Transition.run_append]
      exact hrest
    · exact (Transition.along_append first rest w).mpr ⟨halong, halong'⟩

/-- The services that `stop_transitive_deps` tells to stop, each of them stranded when its
    turn comes, and no stranded service is left. -/
theorem stopTransitiveDeps_order (w : World) :
    ∃ order, (stopTransitiveDeps w).2 = run tell order w ∧ Along tell Meets order w ∧
      ∀ i < w.size, ¬Stranded (run tell order w) i := by
  obtain ⟨order, hrun, halong⟩ := (stopTransitiveDeps_ends w).order
  have hsettled := stopTransitiveDeps_settles w
  rw [hrun] at hsettled
  exact ⟨order, hrun, halong, hsettled⟩

/-! ## What is stranded in between -/

/-- In a table with distinct names the test of the sweep is about the service of that name. -/
theorem DistinctNames.meets_iff (hnames : DistinctNames w) : Meets w i ↔ i ∈ strands w ∅ := by
  constructor
  · rintro ⟨hi, hact, hstop, hpid, hrun, dep, hdep, hhard, hdown⟩
    refine ⟨⟨hi, hact, hrun, hstop, hpid⟩, ?_⟩
    -- the dependency is not in the table, or it is there and not running
    cases hfind : findServiceByName w dep.name with
    | none => exact .inl ⟨dep, hdep, hhard, findServiceByName_none hfind⟩
    | some j =>
      obtain ⟨hj, hactj, hname⟩ := findServiceByName_some hfind
      refine .inr ⟨j, ⟨hj, hactj, dep, hdep, hhard, hname.symm⟩, .inl fun hrunj => ?_⟩
      have hup : w.isRunning dep.name = true := isRunning_iff.mpr ⟨j, hfind, hrunj⟩
      rw [hdown] at hup
      cases hup
  · rintro ⟨helig, hlost⟩
    have hdep : ∃ dep ∈ (w.svc i).deps, dep.soft = false ∧ w.isRunning dep.name = false := by
      -- with distinct names a lookup leads to the record in question
      rcases hlost with ⟨dep, hdep, hhard, hnone⟩ | ⟨j, ⟨hj, hactj, dep, hdep, hhard, hname⟩, hdown⟩
      · refine ⟨dep, hdep, hhard, Bool.eq_false_iff.mpr fun hup => ?_⟩
        obtain ⟨j, hfind, -⟩ := isRunning_iff.mp hup
        obtain ⟨hj, hactj, hname⟩ := findServiceByName_some hfind
        exact hnone j hj hactj hname
      · refine ⟨dep, hdep, hhard, Bool.eq_false_iff.mpr fun hup => ?_⟩
        obtain ⟨j', hfind, hrun⟩ := isRunning_iff.mp hup
        rw [hname, hnames.find hj hactj, Option.some_inj] at hfind
        subst hfind
        exact hdown.elim (fun hstate => hstate hrun) id
    exact ⟨helig.inTable, helig.active, helig.notStopping, helig.pid, helig.running, hdep⟩

/-- Telling services to stop changes no name, no dependency and no pid. -/
theorem run_tell_frame (pre : List Nat) (w : World) (j : Nat) :
    ((run tell pre w).svc j).active = (w.svc j).active ∧
    ((run tell pre w).svc j).name = (w.svc j).name ∧
    ((run tell pre w).svc j).deps = (w.svc j).deps := by
  rw [run_tell_svc]
  split <;> exact ⟨rfl, rfl, rfl⟩

/-- The services that do not run afterwards. -/
theorem run_tell_state (pre : List Nat) (w : World) (j : Nat) :
    ((run tell pre w).svc j).state ≠ .running ↔ (w.svc j).state ≠ .running ∨ j ∈ pre := by
  rw [run_tell_svc]
  split
  · next hj => simp [Service.told, hj]
  · next hj => simp [hj]

/-- Names do not change. -/
theorem DistinctNames.run_tell (hnames : DistinctNames w) (pre : List Nat) :
    DistinctNames (run tell pre w) := by
  intro i hi j hj hact hactj hname
  obtain ⟨hacti', hnamei', -⟩ := run_tell_frame pre w i
  obtain ⟨hactj', hnamej', -⟩ := run_tell_frame pre w j
  rw [run_tell_size] at hi hj
  rw [hacti'] at hact
  rw [hactj'] at hactj
  rw [hnamei', hnamej'] at hname
  exact hnames i hi j hj hact hactj hname

/-- What is forced in the middle is what was not told yet and is forced by what was. -/
theorem strands_run_tell (pre : List Nat) (w : World) :
    i ∈ strands (run tell pre w) ∅ ↔ i ∉ pre ∧ i ∈ strands w {j | j ∈ pre} := by
  -- telling services to stop changes no dependency
  have hdep : ∀ j, HardDep (run tell pre w) i j ↔ HardDep w i j := by
    intro j
    obtain ⟨-, -, hdeps⟩ := run_tell_frame pre w i
    obtain ⟨hact, hname, -⟩ := run_tell_frame pre w j
    unfold HardDep
    rw [run_tell_size, hact, hname, hdeps]
  have hmissing : MissingDep (run tell pre w) i ↔ MissingDep w i := by
    unfold MissingDep
    rw [(run_tell_frame pre w i).2.2]
    simp only [run_tell_size, fun j => (run_tell_frame pre w j).1,
      fun j => (run_tell_frame pre w j).2.1]
  -- who has been told does not run
  have hlost : (∃ j, HardDep (run tell pre w) i j ∧
      (((run tell pre w).svc j).state ≠ .running ∨ j ∈ (∅ : Set Nat))) ↔
      ∃ j, HardDep w i j ∧ ((w.svc j).state ≠ .running ∨ j ∈ {j | j ∈ pre}) := by
    simp only [hdep, run_tell_state, Set.mem_empty_iff_false, or_false, Set.mem_ofPred_eq]
  -- and is not told again
  have helig : Eligible (run tell pre w) i ↔ i ∉ pre ∧ Eligible w i := by
    have hrec := run_tell_svc pre w i
    constructor
    · rintro ⟨hi, hact, hrun, hstop, hpid⟩
      rw [run_tell_size] at hi
      by_cases hpre : i ∈ pre
      · rw [hrec, if_pos hpre] at hrun
        cases hrun
      · rw [hrec, if_neg hpre] at hact hrun hstop hpid
        exact ⟨hpre, hi, hact, hrun, hstop, hpid⟩
    · rintro ⟨hpre, hi, hact, hrun, hstop, hpid⟩
      rw [if_neg hpre] at hrec
      rw [← hrec] at hact hrun hstop hpid
      exact ⟨by rwa [run_tell_size], hact, hrun, hstop, hpid⟩
  show Eligible _ i ∧ _ ↔ _ ∧ Eligible w i ∧ _
  rw [helig, hmissing, hlost, and_assoc]

/-- Each service of the order is forced by those before it. -/
theorem forced_of_along (hnames : DistinctNames w) (order pre : List Nat)
    (h : Along tell Meets order (run tell pre w)) : Forced (strands w) {i | i ∈ pre} order := by
  induction order generalizing pre with
  | nil => trivial
  | cons i order ih =>
    obtain ⟨hmeets, hrest⟩ := h
    obtain ⟨hnew, hforced⟩ :=
      (strands_run_tell pre w).mp ((hnames.run_tell pre).meets_iff.mp hmeets)
    have hnext := ih (pre ++ [i]) (by rw [Transition.run_append]; exact hrest)
    -- the next service is stranded by one more
    have hset : {j | j ∈ pre ++ [i]} = insert i {j | j ∈ pre} := by
      ext j
      simp [or_comm]
    rw [hset] at hnext
    exact ⟨hforced, hnew, hnext⟩

/-! ## The least closed set -/

/-- What `stop_transitive_deps` has done when it has stopped the services in `order`. -/
structure StopsClosure (w w' : World) (order : List Nat) : Prop where
  least : IsLeast {S | Closed (strands w) S} {i | i ∈ order}
  nodup : order.Nodup
  /-- One SIGTERM for each of them, and no other signal. -/
  signals : Kills (order.map fun i => -(w.svc i).pid) w.k w'.k
  told : ∀ i ∈ order, w'.svc i = (w.svc i).told
  others : ∀ i ∉ order, w'.svc i = w.svc i

/-- The sweeps stop the closure. -/
theorem DistinctNames.stopsClosure (hnames : DistinctNames w) :
    ∃ order, StopsClosure w (stopTransitiveDeps w).2 order := by
  obtain ⟨order, hrun, halong, hsettled⟩ := stopTransitiveDeps_order w
  -- every service in the order was stranded by those before it
  have hforced : Forced (strands w) ∅ order := by
    have h := forced_of_along hnames order [] halong
    simpa using h
  -- and at the end no other service is stranded
  have hdone : Closed (strands w) {i | i ∈ order} := by
    intro i hi
    by_contra hnew
    have hmeets := (hnames.run_tell order).meets_iff.mpr ((strands_run_tell order w).mpr ⟨hnew, hi⟩)
    exact hsettled i hi.1.inTable hmeets.2
  -- one SIGTERM for each service in the order, and none for the others
  have hsvc : ∀ i, (stopTransitiveDeps w).2.svc i =
      if i ∈ order then (w.svc i).told else w.svc i := fun i => by rw [hrun, run_tell_svc]
  refine ⟨order, hforced.isLeast hdone, hforced.nodup.1, ?_, ?_, ?_⟩
  · rw [hrun]
    exact run_tell_kills order w
  · exact fun i hi => by rw [hsvc, if_pos hi]
  · exact fun i hi => by rw [hsvc, if_neg hi]

/-- The least closed set determines the table afterwards. -/
theorem StopsClosure.svc_iff {w' : World} {order : List Nat} {S : Set Nat}
    (h : StopsClosure w w' order) (hS : IsLeast {S | Closed (strands w) S} S) (i : Nat) :
    (i ∈ S → w'.svc i = (w.svc i).told) ∧ (i ∉ S → w'.svc i = w.svc i) := by
  obtain rfl : S = {i | i ∈ order} := hS.unique h.least
  exact ⟨h.told i, h.others i⟩

/-! ## The order of the slots -/

/-- Which services are stranded does not depend on their slots. -/
theorem strands_permute {e : Equiv.Perm Nat} (he : ∀ i, e i < w.size ↔ i < w.size) (S : Set Nat) :
    strands (w.permute e) (Set.preimage e S) = Set.preimage e (strands w S) := by
  ext i
  have helig : Eligible (w.permute e) i ↔ Eligible w (e i) := by
    constructor
    · rintro ⟨hi, hact, hrun, hstop, hpid⟩
      exact ⟨(he i).mpr hi, hact, hrun, hstop, hpid⟩
    · rintro ⟨hi, hact, hrun, hstop, hpid⟩
      exact ⟨(he i).mp hi, hact, hrun, hstop, hpid⟩
  -- a slot of the one table is the image of a slot of the other
  have hdep : ∀ j, HardDep (w.permute e) i j ↔ HardDep w (e i) (e j) := by
    intro j
    unfold HardDep
    rw [show (w.permute e).size = w.size from rfl, ← he j]
    rfl
  have hmissing : MissingDep (w.permute e) i ↔ MissingDep w (e i) := by
    refine exists_congr fun dep => and_congr_right fun _ => and_congr_right fun _ => ?_
    constructor
    · intro h j hj hact
      have hback : e (e.symm j) = j := e.apply_symm_apply j
      have := h (e.symm j) ((he _).mp (by rwa [hback]))
      simp only [World.permute, hback] at this
      exact this hact
    · exact fun h j hj hact => h (e j) ((he j).mpr hj) hact
  show Eligible _ i ∧ _ ↔ Eligible w (e i) ∧ _
  rw [helig, hmissing]
  refine and_congr_right fun _ => or_congr_right ?_
  constructor
  · rintro ⟨j, hj, hlost⟩
    exact ⟨e j, (hdep j).mp hj, hlost⟩
  · rintro ⟨j, hj, hlost⟩
    have hback : e (e.symm j) = j := e.apply_symm_apply j
    refine ⟨e.symm j, (hdep _).mpr (by rwa [hback]), ?_⟩
    simpa [World.permute, hback] using hlost

/-- Nor does it matter for the names. -/
theorem DistinctNames.permute (hnames : DistinctNames w) {e : Equiv.Perm Nat}
    (he : ∀ i, e i < w.size ↔ i < w.size) : DistinctNames (w.permute e) := by
  intro i hi j hj hacti hactj hname
  exact e.injective (hnames (e i) ((he i).mpr hi) (e j) ((he j).mpr hj) hacti hactj hname)

/-- Permuting the table before or after makes no difference. -/
theorem DistinctNames.stop_permute (hnames : DistinctNames w) {e : Equiv.Perm Nat}
    (he : ∀ i, e i < w.size ↔ i < w.size) (i : Nat) :
    (stopTransitiveDeps (w.permute e)).2.svc i = (stopTransitiveDeps w).2.svc (e i) := by
  obtain ⟨order, h⟩ := hnames.stopsClosure
  obtain ⟨order', h'⟩ := (hnames.permute he).stopsClosure
  have hleast := Saturation.isLeast_preimage e (strands_permute he) h.least
  obtain ⟨htold', hothers'⟩ := h'.svc_iff hleast i
  by_cases hi : e i ∈ order
  · rw [htold' hi, h.told (e i) hi]
    rfl
  · rw [hothers' hi, h.others (e i) hi]
    rfl

end

/-- In a table with distinct names, `stop_transitive_deps` terminates and stops exactly the least
    set of eligible services that is closed under the loss of hard dependencies: each gets one
    SIGTERM and is STOPPING, no other record changes, and the order of the slots is irrelevant. -/
theorem stopTransitiveDeps_least {w : World} (hnames : DistinctNames w) :
    SweepsEnd w (stopTransitiveDeps w).2 ∧
    (∃ order, StopsClosure w (stopTransitiveDeps w).2 order) ∧
    ∀ e : Equiv.Perm Nat, (∀ i, e i < w.size ↔ i < w.size) →
      ∀ i, (stopTransitiveDeps (w.permute e)).2.svc i = (stopTransitiveDeps w).2.svc (e i) :=
  ⟨stopTransitiveDeps_ends w, hnames.stopsClosure, fun _ he => hnames.stop_permute he⟩

/-- `b` hard-depends on `a`, and `a` has crashed. -/
def crashed : World := exec (.reapChild 126 256) chainStarted

/-- The names of the example are different. -/
theorem crashed_names : DistinctNames crashed := by
  have hfew : (∀ i < crashed.size, (crashed.svc i).active = true → i ≤ 1) ∧
      ∀ i ≤ 1, ∀ j ≤ 1, (crashed.svc i).name = (crashed.svc j).name → i = j := by decide +kernel
  intro i hi j hj hacti hactj hname
  exact hfew.2 i (hfew.1 i hi hacti) j (hfew.1 j hj hactj) hname

/-- `b` is told to stop. -/
theorem stopTransitiveDeps_least_crashed :
    (∃ order, StopsClosure crashed (stopTransitiveDeps crashed).2 order) ∧
      ((stopTransitiveDeps crashed).2.svc 1).stopping = true :=
  ⟨(stopTransitiveDeps_least crashed_names).2.1, by decide +kernel⟩

end SvcRs
