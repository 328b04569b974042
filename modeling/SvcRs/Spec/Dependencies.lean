import SvcRs.ForStd.DepGraph
import SvcRs.Spec.Refinement

/-!
# The dependency graph

The active services and their hard dependencies, by name, and what the program's lookups
say about them. A lookup finds the first slot with the name, so the two agree when names
are distinct.
-/

namespace SvcRs

/-! ## Services and their hard dependencies -/

/-- The service in slot `i` names the active service in slot `j` as a hard dependency. -/
def HardDep (w : World) (i j : Nat) : Prop :=
  j < w.size ∧ (w.svc j).active = true ∧
    ∃ dep ∈ (w.svc i).deps, dep.soft = false ∧ dep.name = (w.svc j).name

/-- A hard dependency of the service in slot `i` is not the name of any active service. -/
def MissingDep (w : World) (i : Nat) : Prop :=
  ∃ dep ∈ (w.svc i).deps, dep.soft = false ∧
    ∀ j < w.size, (w.svc j).active = true → (w.svc j).name ≠ dep.name

/-- The hard dependencies of the service in slot `i`, direct or not, all exist, and none of
    them is on a cycle. -/
abbrev Grounded (w : World) (i : Nat) : Prop := DepGraph.Grounded (HardDep w) (MissingDep w) i

/-- No two active records have the same name. -/
def DistinctNames (w : World) : Prop :=
  ∀ i < w.size, ∀ j < w.size, (w.svc i).active = true → (w.svc j).active = true →
    (w.svc i).name = (w.svc j).name → i = j

instance (w : World) (i j : Nat) : Decidable (HardDep w i j) :=
  inferInstanceAs (Decidable (_ ∧ _ ∧ ∃ _ ∈ _, _ ∧ _))

instance (w : World) (i : Nat) : Decidable (MissingDep w i) :=
  inferInstanceAs (Decidable (∃ _ ∈ _, _ ∧ ∀ _ < _, _ → _))

instance (w : World) : Decidable (DistinctNames w) :=
  inferInstanceAs (Decidable (∀ _ < _, ∀ _ < _, _ → _ → _ → _))

/-! ## Lookups -/

/-- What the search by name finds has the name. -/
theorem findServiceByName_some {w : World} {name : Bytes} {i : Nat}
    (h : findServiceByName w name = some i) :
    i < w.size ∧ (w.svc i).active = true ∧ (w.svc i).name = name := by
  simpa using w.findSlot_some h

/-- If the search by name finds nothing, no active record has the name. -/
theorem findServiceByName_none {w : World} {name : Bytes} (h : findServiceByName w name = none) :
    ∀ i < w.size, (w.svc i).active = true → (w.svc i).name ≠ name := by
  intro i hi hact
  simpa [hact] using w.findSlot_none h i hi

/-- What the search by directory finds has the directory. -/
theorem findServiceByDir_some {w : World} {dir : CStrBuf} {i : Nat}
    (h : findServiceByDir w dir = some i) :
    i < w.size ∧ (w.svc i).active = true ∧ (w.svc i).dir = dir.bytes := by
  simpa using w.findSlot_some h

/-- If the search by directory finds nothing, no active record has it. -/
theorem findServiceByDir_none {w : World} {dir : CStrBuf} (h : findServiceByDir w dir = none) :
    ∀ i < w.size, (w.svc i).active = true → (w.svc i).dir ≠ dir.bytes := by
  intro i hi hact
  simpa [hact] using w.findSlot_none h i hi

/-- With distinct names, the lookup finds the service. -/
theorem DistinctNames.find {w : World} (hnames : DistinctNames w) {j : Nat} (hj : j < w.size)
    (hact : (w.svc j).active = true) : findServiceByName w (w.svc j).name = some j := by
  cases hfind : findServiceByName w (w.svc j).name with
  | none => exact absurd rfl (findServiceByName_none hfind j hj hact)
  | some i =>
    obtain ⟨hi, hacti, hname⟩ := findServiceByName_some hfind
    rw [hnames i hi j hj hacti hact hname]

/-- The name leads to a service in the state RUNNING. -/
theorem isRunning_iff {w : World} {name : Bytes} :
    w.isRunning name = true ↔
      ∃ j, findServiceByName w name = some j ∧ (w.svc j).state = .running := by
  unfold World.isRunning
  cases findServiceByName w name with
  | none => simp
  | some j => simp

/-- The test of the start pass, as a statement about the hard dependencies. -/
theorem depsSatisfied_iff {w : World} {s : Service} :
    depsSatisfied w s = true ↔
      ∀ dep ∈ s.deps, dep.soft = false → w.isRunning dep.name = true := by
  simp only [depsSatisfied, List.all_eq_true, Bool.or_eq_true]
  refine forall₂_congr fun dep _ => ?_
  cases dep.soft <;> simp

/-- With distinct names, the hard dependencies of a service that may be started exist and
    are RUNNING. -/
theorem depsSatisfied_running {w : World} (hnames : DistinctNames w) {i : Nat}
    (h : depsSatisfied w (w.svc i) = true) :
    ¬MissingDep w i ∧ ∀ j, HardDep w i j → (w.svc j).state = .running := by
  have hrunning := depsSatisfied_iff.mp h
  constructor
  -- a missing service cannot be found running
  · rintro ⟨dep, hdep, hhard, hnone⟩
    obtain ⟨j, hfind, -⟩ := isRunning_iff.mp (hrunning dep hdep hhard)
    obtain ⟨hj, hact, hname⟩ := findServiceByName_some hfind
    exact hnone j hj hact hname
  · rintro j ⟨hj, hact, dep, hdep, hhard, hname⟩
    obtain ⟨j', hfind, hrun⟩ := isRunning_iff.mp (hrunning dep hdep hhard)
    -- the name is found at one slot only
    rw [hname, hnames.find hj hact, Option.some_inj] at hfind
    exact hfind ▸ hrun

/-- Conversely, a service whose hard dependencies exist and are RUNNING may be started. -/
theorem depsSatisfied_of_running {w : World} {i : Nat} (hmissing : ¬MissingDep w i)
    (hdep : ∀ j, HardDep w i j → (w.svc j).state = .running) :
    depsSatisfied w (w.svc i) = true := by
  apply depsSatisfied_iff.mpr
  intro dep hmem hhard
  cases hfind : findServiceByName w dep.name with
  | none => exact absurd ⟨dep, hmem, hhard, findServiceByName_none hfind⟩ hmissing
  | some j =>
    obtain ⟨hj, hact, hname⟩ := findServiceByName_some hfind
    have hdepj : HardDep w i j := ⟨hj, hact, dep, hmem, hhard, hname.symm⟩
    exact isRunning_iff.mpr ⟨j, hfind, hdep j hdepj⟩

end SvcRs
