import Mathlib.Data.Set.Lattice
import Mathlib.Order.CompletePartialOrder
import Mathlib.Order.Hom.Basic

/-!
# Saturation

The least set that is closed under a monotone operator, taken element by element: each
element is forced by those taken before it, until nothing more is forced. The order in
which they are taken does not matter.

## Key results

- `Forced.isLeast`: what is taken is the least closed set
- `isLeast_preimage`: a renaming of the elements renames the least closed set
-/

namespace Saturation

variable {α : Type*} (F : Set α →o Set α)

/-- The sets that the operator does not lead out of. -/
def Closed (S : Set α) : Prop := F S ⊆ S

/-- The elements of the list are new, and each is forced by `S` and those before it. -/
def Forced : Set α → List α → Prop
  | _, [] => True
  | S, a :: order => a ∈ F S ∧ a ∉ S ∧ Forced (insert a S) order

variable {F} {S T : Set α} {order : List α}

/-- Nothing is taken that a closed set does not have. -/
theorem Forced.mem_of_closed (h : Forced F S order) (hT : Closed F T) (hS : S ⊆ T) :
    ∀ a ∈ order, a ∈ T := by
  induction order generalizing S with
  | nil => simp
  | cons a order ih =>
    obtain ⟨hforced, -, hrest⟩ := h
    have ha : a ∈ T := hT (F.monotone hS hforced)
    intro b hb
    rcases List.mem_cons.mp hb with rfl | hb
    · exact ha
    · exact ih hrest (Set.insert_subset ha hS) b hb

/-- Every element is added once. -/
theorem Forced.nodup (h : Forced F S order) : order.Nodup ∧ ∀ a ∈ order, a ∉ S := by
  induction order generalizing S with
  | nil => simp
  | cons a order ih =>
    obtain ⟨-, hnew, hrest⟩ := h
    obtain ⟨hnodup, hothers⟩ := ih hrest
    constructor
    · exact List.nodup_cons.mpr ⟨fun ha => hothers a ha (Set.mem_insert a S), hnodup⟩
    · intro b hb
      rcases List.mem_cons.mp hb with rfl | hb
      · exact hnew
      · exact fun hS => hothers b hb (Set.mem_insert_of_mem a hS)

/-- What is taken until nothing more is forced is the least closed set. -/
theorem Forced.isLeast (h : Forced F ∅ order) (hdone : Closed F {a | a ∈ order}) :
    IsLeast {S | Closed F S} {a | a ∈ order} :=
  ⟨hdone, fun _ hT a ha => h.mem_of_closed hT (Set.empty_subset _) a ha⟩

/-- A renaming of the elements. -/
theorem isLeast_preimage {G : Set α →o Set α} (e : Equiv.Perm α)
    (hG : ∀ S, G (Set.preimage e S) = Set.preimage e (F S)) (h : IsLeast {S | Closed F S} T) :
    IsLeast {S | Closed G S} (Set.preimage e T) := by
  constructor
  · show G (Set.preimage e T) ⊆ _
    rw [hG]
    exact Set.preimage_mono h.1
  · intro S hS a ha
    -- `S` in the old names is closed as well
    have hback : Set.preimage e (Set.preimage e.symm S) = S := by
      ext b
      simp
    have hclosed : Closed F (Set.preimage e.symm S) := by
      intro b hb
      have hmem : e.symm b ∈ G (Set.preimage e (Set.preimage e.symm S)) := by
        rw [hG]
        simpa using hb
      rw [hback] at hmem
      exact hS hmem
    have hle := h.2 hclosed ha
    simpa using hle

end Saturation
