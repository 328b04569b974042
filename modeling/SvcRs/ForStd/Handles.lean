import Mathlib.Order.BooleanAlgebra.Set
import Mathlib.Logic.Function.Basic

/-!
# Tables of handles

A process names what it has open by handles, and several handles may stand for one object:
`dup` makes another name for it, and a child starts with a copy of the table. What matters about
an object is who still has a handle to it.

## Key results

- `holders_install`, `holders_close`, `holders_dup`: who refers to an object after each operation
- `holders_restrict`: a child that keeps some of the handles
- `LessOn`: where nothing is opened
-/

namespace Handles

/-- What each handle refers to. -/
abbrev Table (ι α : Type*) := ι → Option α

namespace Table

variable {ι α : Type*}

/-- The handles to an object. -/
def holders (t : Table ι α) (x : α) : Set ι := { i | t i = some x }

/-- Only the handles in `p` are kept. -/
def restrict (p : ι → Prop) [DecidablePred p] (t : Table ι α) : Table ι α :=
  fun i => if p i then t i else none

/-- A handle that is kept refers to what it did. -/
theorem restrict_of {p : ι → Prop} [DecidablePred p] {i : ι} (h : p i) (t : Table ι α) :
    t.restrict p i = t i := if_pos h

/-- The holders among the handles that are kept. -/
@[simp] theorem holders_restrict (p : ι → Prop) [DecidablePred p] (t : Table ι α) (x : α) :
    (t.restrict p).holders x = { i ∈ t.holders x | p i } := by
  ext i
  show (if p i then t i else none) = some x ↔ t i = some x ∧ p i
  by_cases hp : p i <;> simp [hp]

/-- Of the handles in `p`, the table `t'` has only those of `t`. -/
def LessOn (p : ι → Prop) (t t' : Table ι α) : Prop := ∀ i, p i → t' i = none ∨ t' i = t i

/-- A table has no more handles than itself. -/
theorem LessOn.refl {p : ι → Prop} (t : Table ι α) : LessOn p t t := fun _ _ => .inr rfl

/-- Dropping handles does not add any. -/
theorem LessOn.restrict {p : ι → Prop} {t t' : Table ι α} (h : LessOn p t t') (q : ι → Prop)
    [DecidablePred q] : LessOn p t (t'.restrict q) := by
  intro i hi
  by_cases hq : q i
  · rw [restrict_of hq]
    exact h i hi
  · exact .inl (if_neg hq)

variable [DecidableEq ι]

/-- The handle refers to nothing. -/
def close (i : ι) (t : Table ι α) : Table ι α := Function.update t i none

/-- `i` is a handle to `x` from now on. -/
def install (i : ι) (x : α) (t : Table ι α) : Table ι α := Function.update t i (some x)

/-- `new` becomes another handle to what `old` refers to, unless that is nothing. -/
def dup (old new : ι) (t : Table ι α) : Table ι α :=
  if (t old).isSome then Function.update t new (t old) else t

section

variable {t : Table ι α} {x y : α} {i j old new : ι}

/-- Other handles stay. -/
theorem close_of_ne (h : j ≠ i) : t.close i j = t j := Function.update_of_ne h ..

/-- `dup` writes one handle only. -/
theorem dup_of_ne (h : j ≠ new) : t.dup old new j = t j := by
  unfold dup
  split
  · exact Function.update_of_ne h ..
  · rfl

/-- The new handle refers to the object of the old one. -/
theorem dup_new (h : old ∈ t.holders x) : t.dup old new new = some x := by
  have hold : t old = some x := h
  simp [dup, hold]

/-- Who holds an object after one handle has been written. -/
theorem mem_holders_update {o : Option α} :
    j ∈ holders (Function.update t i o) x ↔ j = i ∧ o = some x ∨ j ≠ i ∧ j ∈ t.holders x := by
  show Function.update t i o j = some x ↔ _
  by_cases hji : j = i
  · subst hji
    simp
  · simp [hji, holders]

/-- A closed handle holds nothing. -/
@[simp] theorem holders_close : (t.close i).holders x = t.holders x \ {i} := by
  ext j
  simp [close, mem_holders_update, and_comm]

/-- A handle that is installed is one, whatever it was before. -/
@[simp] theorem holders_install : (t.install i x).holders x = insert i (t.holders x) := by
  ext j
  by_cases hji : j = i <;> simp [install, mem_holders_update, hji]

/-- The new handle no longer holds what it held. -/
theorem holders_install_ne (h : x ≠ y) : (t.install i x).holders y = t.holders y \ {i} := by
  ext j
  simp [install, mem_holders_update, h, and_comm]

/-- `dup` adds a holder. -/
theorem holders_dup (h : old ∈ t.holders x) :
    (t.dup old new).holders x = insert new (t.holders x) := by
  have hold : t old = some x := h
  ext j
  by_cases hj : j = new <;> simp [dup, hold, mem_holders_update, hj]

/-- The new handle is taken from whatever it was a handle to. -/
theorem holders_dup_ne (h : old ∈ t.holders x) (hne : x ≠ y) :
    (t.dup old new).holders y = t.holders y \ {new} := by
  have hold : t old = some x := h
  ext j
  simp [dup, hold, mem_holders_update, hne, and_comm]

end

section

variable {p : ι → Prop} {t t' : Table ι α}

/-- Closing does not add handles. -/
theorem LessOn.close (h : LessOn p t t') (j : ι) : LessOn p t (t'.close j) := by
  intro i hi
  by_cases hij : i = j
  · rw [hij]
    exact .inl (Function.update_self ..)
  · rw [close_of_ne hij]
    exact h i hi

/-- A copy to a handle that is not in `p`, if it is made at all. -/
theorem LessOn.dupIf (h : LessOn p t t') (old new : ι) (c : Bool) (hnew : ¬p new) :
    LessOn p t (if c then t'.dup old new else t') := by
  intro i hi
  have hne : i ≠ new := fun he => hnew (he ▸ hi)
  split
  · rw [dup_of_ne hne]
    exact h i hi
  · exact h i hi

end

end Table

end Handles
