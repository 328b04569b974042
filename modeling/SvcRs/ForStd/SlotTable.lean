import Mathlib.Data.List.Basic

/-!
# Tables of slots

A table with a fixed number of slots, each empty or holding a key. A key that is not in the
table goes to the first empty slot. What a sequence of such insertions leaves in the table
does not depend on their order, and inserting the same keys again changes nothing.

## Key results

- `insert_cases`: the three outcomes of an insertion
- `has_insertAll`: the keys after a sequence of insertions, if there is room
- `Distinct.insertAll`: no key gets into two slots
- `insertAll_of_has`: keys that are there already
-/

/-- A table with finitely many slots, each with at most one key. -/
structure SlotTable (κ : Type*) where
  size : Nat
  slot : Nat → Option κ

namespace SlotTable

variable {κ : Type*}

/-- The key is in some slot. -/
def Has (t : SlotTable κ) (k : κ) : Prop := ∃ i < t.size, t.slot i = some k

/-- No key is in two slots. -/
def Distinct (t : SlotTable κ) : Prop :=
  ∀ i < t.size, ∀ j < t.size, ∀ k, t.slot i = some k → t.slot j = some k → i = j

/-- How many slots are empty. -/
def free (t : SlotTable κ) : Nat := (List.range t.size).countP fun i => t.slot i = none

/-- The key is put into the slot. -/
def set (t : SlotTable κ) (i : Nat) (k : κ) : SlotTable κ :=
  { t with slot := fun j => if j = i then some k else t.slot j }

variable {t : SlotTable κ} {k : κ} {i : Nat}

/-- One slot less is empty. -/
theorem free_set (hi : i < t.size) (hempty : t.slot i = none) : (t.set i k).free + 1 = t.free := by
  have hcount : ∀ l : List Nat, l.Nodup → i ∈ l →
      l.countP (fun j => (t.set i k).slot j = none) + 1 = l.countP fun j => t.slot j = none := by
    intro l hnodup hmem
    induction l with
    | nil => cases hmem
    | cons j l ih =>
      obtain ⟨hj, hnodup⟩ := List.nodup_cons.mp hnodup
      by_cases hji : j = i
      · -- elsewhere nothing changes
        subst hji
        have hrest : l.countP (fun n => (t.set j k).slot n = none) =
            l.countP fun n => t.slot n = none := by
          apply List.countP_congr
          intro n hn
          have hne : n ≠ j := fun he => hj (he ▸ hn)
          simp [set, hne]
        have hnow : (t.set j k).slot j = some k := if_pos rfl
        rw [List.countP_cons_of_neg (by simp [hnow]), hrest,
          List.countP_cons_of_pos (by simpa using hempty)]
      · have hrest := ih hnodup ((List.mem_cons.mp hmem).resolve_left fun he => hji he.symm)
        have hsame : (t.set i k).slot j = t.slot j := if_neg hji
        rw [List.countP_cons, List.countP_cons, hsame]
        omega
  exact hcount _ List.nodup_range (List.mem_range.mpr hi)

/-- Which keys the table has after one was put into an empty slot. -/
theorem has_set (hi : i < t.size) (hempty : t.slot i = none) {k' : κ} :
    (t.set i k).Has k' ↔ k' = k ∨ t.Has k' := by
  constructor
  · rintro ⟨j, hj, hslot⟩
    -- what is in slot `i` is the new key, and all else is where it was
    by_cases hji : j = i
    · have hnow : (t.set i k).slot j = some k := if_pos hji
      exact .inl (Option.some.inj (hslot.symm.trans hnow))
    · have hsame : (t.set i k).slot j = t.slot j := if_neg hji
      exact .inr ⟨j, hj, hsame ▸ hslot⟩
  · rintro (rfl | ⟨j, hj, hslot⟩)
    · exact ⟨i, hi, if_pos rfl⟩
    · have hji : j ≠ i := by
        rintro rfl
        rw [hempty] at hslot
        cases hslot
      exact ⟨j, hj, (if_neg hji).trans hslot⟩

variable [DecidableEq κ]

instance (t : SlotTable κ) (k : κ) : Decidable (t.Has k) :=
  inferInstanceAs (Decidable (∃ i < t.size, t.slot i = some k))

/-- The first slot with this content. -/
def find (t : SlotTable κ) (o : Option κ) : Option Nat :=
  (List.range t.size).find? fun i => t.slot i = o

/-- Put the key into the first empty slot, unless the table has it. -/
def insert (k : κ) (t : SlotTable κ) : SlotTable κ :=
  if t.Has k then t
  else match t.find none with
    | some i => t.set i k
    | none => t

/-- One key after the other. -/
def insertAll (ks : List κ) (t : SlotTable κ) : SlotTable κ := ks.foldl (fun t k => t.insert k) t

/-- What a search finds is in the table. -/
theorem find_some {o : Option κ} (h : t.find o = some i) : i < t.size ∧ t.slot i = o := by
  have hmem := List.mem_of_find?_eq_some h
  have hslot := List.find?_some h
  exact ⟨List.mem_range.mp hmem, by simpa using hslot⟩

/-- A search that finds nothing has looked at every slot. -/
theorem find_none {o : Option κ} (h : t.find o = none) : ∀ i < t.size, t.slot i ≠ o := by
  intro i hi
  simpa using List.find?_eq_none.mp h i (List.mem_range.mpr hi)

/-- The outcomes of an insertion: the key is there, it is put into an empty slot, or the table
    is full. -/
theorem insert_cases (k : κ) (t : SlotTable κ) :
    (t.Has k ∧ t.insert k = t) ∨
    (¬t.Has k ∧ ∃ i, t.find none = some i ∧ i < t.size ∧ t.slot i = none ∧ t.insert k = t.set i k) ∨
    (¬t.Has k ∧ t.free = 0 ∧ t.insert k = t) := by
  unfold insert
  by_cases hk : t.Has k
  · exact .inl ⟨hk, if_pos hk⟩
  · rw [if_neg hk]
    cases hfind : t.find none with
    | some i =>
      obtain ⟨hi, hslot⟩ := find_some hfind
      exact .inr (.inl ⟨hk, i, rfl, hi, hslot, rfl⟩)
    | none =>
      -- no slot is empty, so none is free
      refine .inr (.inr ⟨hk, ?_, rfl⟩)
      apply List.countP_eq_zero.mpr
      intro i hi
      simpa using find_none hfind i (List.mem_range.mp hi)

/-- Inserting does not change the size. -/
@[simp] theorem insert_size (k : κ) (t : SlotTable κ) : (t.insert k).size = t.size := by
  rcases insert_cases k t with ⟨-, he⟩ | ⟨-, i, -, -, -, he⟩ | ⟨-, -, he⟩ <;> rw [he]
  rfl

/-- Neither does inserting many. -/
@[simp] theorem insertAll_size (ks : List κ) (t : SlotTable κ) : (t.insertAll ks).size = t.size := by
  induction ks generalizing t with
  | nil => rfl
  | cons k ks ih => exact (ih (t.insert k)).trans (insert_size k t)

/-- If there is room, an insertion adds the key and no other. -/
theorem has_insert (hroom : t.Has k ∨ 0 < t.free) {k' : κ} :
    (t.insert k).Has k' ↔ k' = k ∨ t.Has k' := by
  rcases insert_cases k t with ⟨hk, he⟩ | ⟨-, i, -, hi, hempty, he⟩ | ⟨hk, hfull, -⟩
  · rw [he]
    exact ⟨.inr, fun h => h.elim (fun he => he ▸ hk) id⟩
  · rw [he]
    exact has_set hi hempty
  · rcases hroom with h | h
    · exact absurd h hk
    · omega

/-- A key that is there already is not inserted again. -/
theorem Distinct.insert (h : t.Distinct) (k : κ) : (t.insert k).Distinct := by
  rcases insert_cases k t with ⟨-, he⟩ | ⟨hk, i, -, hi, hempty, he⟩ | ⟨-, -, he⟩ <;> rw [he]
  · exact h
  · intro j hj l hl k' hjk hlk
    simp only [set] at hj hl hjk hlk
    -- the new key was nowhere, so it meets no other key
    split at hjk <;> split at hlk
    · next hji hli => rw [hji, hli]
    · next hji hli =>
      obtain rfl := Option.some.inj hjk
      exact absurd ⟨l, hl, hlk⟩ hk
    · next hji hli =>
      obtain rfl := Option.some.inj hlk
      exact absurd ⟨j, hj, hjk⟩ hk
    · exact h j hj l hl k' hjk hlk
  · exact h

/-- The keys of the list that are not in the table. -/
def missing (t : SlotTable κ) (ks : List κ) : Nat := ks.countP fun k => ¬t.Has k

/-- The room for the rest is left. -/
theorem missing_insert (ks : List κ) (hroom : t.missing (k :: ks) ≤ t.free) :
    (t.insert k).missing ks ≤ (t.insert k).free := by
  -- a table that has more keys misses no more of them
  have hfewer : ∀ t' : SlotTable κ, (∀ k', t.Has k' → t'.Has k') → t'.missing ks ≤ t.missing ks := by
    intro t' hmore
    apply List.countP_mono_left
    intro k' _
    simpa using fun h => mt (hmore k') h
  unfold missing at hroom
  rcases insert_cases k t with ⟨hk, he⟩ | ⟨hk, i, -, hi, hempty, he⟩ | ⟨hk, hfull, he⟩
  -- the key is there already, is put in the first empty slot, or finds the table full
  · rw [List.countP_cons_of_neg (by simpa using hk)] at hroom
    rw [he]
    exact hroom
  · rw [List.countP_cons_of_pos (by simpa using hk)] at hroom
    have hfree := free_set (k := k) hi hempty
    have hle := hfewer (t.set i k) fun k' hk' => (has_set hi hempty).mpr (.inr hk')
    unfold missing at hle
    rw [he]
    unfold missing
    omega
  · rw [List.countP_cons_of_pos (by simpa using hk)] at hroom
    -- one slot fewer is free, but one key fewer is missing
    omega

/-- If there is room for all missing keys, the first is there or has room. -/
theorem room_of_missing {ks : List κ} (hroom : t.missing (k :: ks) ≤ t.free) :
    t.Has k ∨ 0 < t.free := by
  by_cases hk : t.Has k
  · exact .inl hk
  · unfold missing at hroom
    rw [List.countP_cons_of_pos (by simpa using hk)] at hroom
    exact .inr (by omega)

/-- If there is room for the keys that are missing, the table has its keys and those of the
    list afterwards. -/
theorem has_insertAll {ks : List κ} (hroom : t.missing ks ≤ t.free) {k : κ} :
    (t.insertAll ks).Has k ↔ k ∈ ks ∨ t.Has k := by
  induction ks generalizing t with
  | nil => simp [insertAll]
  | cons k₁ ks ih =>
    have hnext := ih (missing_insert ks hroom)
    show ((t.insert k₁).insertAll ks).Has k ↔ _
    rw [hnext, has_insert (room_of_missing hroom), List.mem_cons, or_left_comm, or_assoc]

/-- The keys stay distinct. -/
theorem Distinct.insertAll (h : t.Distinct) (ks : List κ) : (t.insertAll ks).Distinct := by
  induction ks generalizing t with
  | nil => exact h
  | cons k ks ih => exact ih (h.insert k)

/-- Keys that are there already. -/
theorem insertAll_of_has {ks : List κ} (h : ∀ k ∈ ks, t.Has k) : t.insertAll ks = t := by
  induction ks with
  | nil => rfl
  | cons k ks ih =>
    have hsame : t.insert k = t := if_pos (h k List.mem_cons_self)
    show (t.insert k).insertAll ks = t
    rw [hsame]
    exact ih fun k' hk' => h k' (List.mem_cons_of_mem k hk')

end SlotTable
