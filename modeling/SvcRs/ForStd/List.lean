import Mathlib.Data.List.Basic
import Mathlib.Data.List.DropRight

/-!
# Order and position in lists

How many entries of a list satisfy a predicate can be read off one entry if the entries
that satisfy it come first; and in which order two entries stand. A list that is filled up
to a length may be cut at any time, and what it holds before a marker survives the cut. What is
left when an end is cut off.
-/

namespace List

variable {α : Type*} {p : α → Bool}

/-- If the predicate passes from an entry to those before it, more than `n` entries satisfy
    it if and only if entry `n` does. -/
theorem lt_countP_iff_getElem? {l : List α} (h : l.Pairwise fun a b => p b = true → p a = true)
    {n : Nat} : n < l.countP p ↔ ∃ a, l[n]? = some a ∧ p a = true := by
  induction l generalizing n with
  | nil => simp
  | cons a l ih =>
    obtain ⟨hhead, htail⟩ := List.pairwise_cons.mp h
    cases ha : p a with
    | true =>
      rw [countP_cons_of_pos ha]
      cases n with
      | zero => simp [ha]
      | succ n => simpa using ih htail
    | false =>
      -- the head fails, and so does all that follows it
      have hnone : ∀ b ∈ a :: l, p b = false := by
        intro b hb
        rcases List.mem_cons.mp hb with rfl | hb
        · exact ha
        · cases hp : p b with
          | false => rfl
          | true => exact absurd (ha.symm.trans (hhead b hb hp)) (by decide)
      rw [countP_eq_zero.mpr fun b hb => by simp [hnone b hb]]
      constructor
      · intro hn
        omega
      · rintro ⟨b, hb, hp⟩
        exact absurd ((hnone b (List.mem_of_getElem? hb)).symm.trans hp) (by decide)

/-- The initial segment that satisfies the predicate is longer than `n` if and only if there
    is an entry `n` and all entries up to it satisfy the predicate. -/
theorem lt_length_takeWhile_iff {l : List α} {n : Nat} :
    n < (l.takeWhile p).length ↔ ∀ k ≤ n, ∃ a, l[k]? = some a ∧ p a = true := by
  induction l generalizing n with
  | nil => simpa using ⟨0, Nat.zero_le n⟩
  | cons a l ih =>
    cases ha : p a with
    | false =>
      simp only [takeWhile_cons, ha, Bool.false_eq_true, if_false, length_nil, Nat.not_lt_zero,
        false_iff]
      -- the prefix is empty, and already index 0 would have to satisfy `p`
      intro h
      obtain ⟨b, hb, hp⟩ := h 0 (Nat.zero_le n)
      obtain rfl : a = b := by simpa using hb
      exact absurd (ha.symm.trans hp) (by decide)
    | true =>
      simp only [takeWhile_cons, ha, if_true, length_cons]
      cases n with
      | zero => simp [ha]
      | succ n =>
        rw [Nat.succ_lt_succ_iff, ih]
        constructor
        -- index 0 is the head, the others are those of the tail
        · rintro h (_ | k) hk
          · exact ⟨a, rfl, ha⟩
          · simpa using h k (by omega)
        · intro h k hk
          simpa using h (k + 1) (by omega)

/-- Two entries stand in one of the two orders. -/
theorem pair_sublist_of_mem {l : List α} {a b : α} (ha : a ∈ l) (hb : b ∈ l) (hne : a ≠ b) :
    [a, b] <+ l ∨ [b, a] <+ l := by
  induction l with
  | nil => cases ha
  | cons c l ih =>
    rcases List.mem_cons.mp ha with rfl | ha'
    · rcases List.mem_cons.mp hb with rfl | hb'
      · exact absurd rfl hne
      · exact .inl (cons_sublist_cons.mpr (singleton_sublist.mpr hb'))
    · rcases List.mem_cons.mp hb with rfl | hb'
      · exact .inr (cons_sublist_cons.mpr (singleton_sublist.mpr ha'))
      · exact (ih ha' hb').imp (·.cons c) (·.cons c)

/-- Without duplicates they do not stand in both. -/
theorem Nodup.not_pair_sublist {l : List α} (h : l.Nodup) {a b : α} (hab : [a, b] <+ l) :
    ¬[b, a] <+ l := by
  induction l with
  | nil => cases hab
  | cons c l ih =>
    obtain ⟨hc, hl⟩ := List.nodup_cons.mp h
    have hmem : ∀ {x y : α}, [x, y] <+ l → x ∈ l ∧ y ∈ l := fun hxy =>
      ⟨hxy.subset (by simp), hxy.subset (by simp)⟩
    intro hba
    -- whichever element comes first is found again behind its own first place
    cases hab with
    | cons _ hab' =>
      cases hba with
      | cons _ hba' => exact ih hl hab' hba'
      | cons_cons _ hba' => exact hc (hmem hab').2
    | cons_cons _ hab' =>
      cases hba with
      | cons _ hba' => exact hc (hmem hba').2
      | cons_cons _ hba' => exact hc (singleton_sublist.mp hba')

/-- Cutting early makes no difference. -/
theorem take_take_append (n : Nat) (l l' : List α) :
    (l.take n ++ l').take n = (l ++ l').take n := by
  by_cases h : l.length ≤ n
  · rw [List.take_of_length_le h]
  · have hlen : n ≤ (l.take n).length := by
      rw [List.length_take]
      omega
    rw [List.take_append_of_le_length hlen, List.take_append_of_le_length (by omega), List.take_take,
      Nat.min_self]

/-- What stands before a marker can be read off a list that was cut behind it or before it. -/
theorem takeWhile_take_append {l rest : List α} {b : α} (hl : ∀ a ∈ l, p a = true) (hb : p b = false)
    (n : Nat) : ((l ++ b :: rest).take n).takeWhile p = l.take n := by
  -- by induction on the prefix, with the cut generalised
  induction l generalizing n with
  | nil =>
    cases n with
    | zero => rfl
    | succ n => simp [hb]
  | cons a l ih =>
    cases n with
    | zero => rfl
    | succ n =>
      have ha : p a = true := hl a mem_cons_self
      simpa [ha] using ih (fun c hc => hl c (mem_cons_of_mem a hc)) n

/-! ### Cutting off an end -/

/-- What is left begins with an element that fails the test. -/
theorem head?_dropWhile_of {l : List α} {a : α} (h : (l.dropWhile p).head? = some a) :
    p a = false := by
  have hfirst := head?_dropWhile_not p l
  rw [h] at hfirst
  exact hfirst

/-- Elements that pass the test may be added at the end. -/
theorem rdropWhile_append_of_pos {l l' : List α} (h : ∀ a ∈ l', p a = true) :
    (l ++ l').rdropWhile p = l.rdropWhile p := by
  have hrev : ∀ a ∈ l'.reverse, p a = true := fun a ha => h a (mem_reverse.mp ha)
  unfold rdropWhile
  rw [reverse_append, dropWhile_append_of_pos hrev]

/-- What ends with an entry that is kept is kept. -/
theorem rdropWhile_of_getLast? {l : List α} (h : ∀ a, l.getLast? = some a → p a = false) :
    l.rdropWhile p = l := by
  apply rdropWhile_eq_self_iff.mpr
  intro hl
  simpa using h _ (getLast?_eq_some_getLast hl)

/-- Nothing is cut off the end that stands before an entry that is kept. -/
theorem rdropWhile_cons_of_neg {l : List α} {a : α} (h : p a = false) :
    (a :: l).rdropWhile p = a :: l.rdropWhile p := by
  induction l using List.reverseRecOn with
  | nil => simp [rdropWhile, h]
  | append_singleton l b ih =>
    rw [← List.cons_append, rdropWhile_concat, rdropWhile_concat, ih]
    split
    · rfl
    · rfl

/-- What is left ends with an element that fails the test. -/
theorem getLast?_rdropWhile {l : List α} {a : α} (h : (l.rdropWhile p).getLast? = some a) :
    p a = false := by
  have hne : l.rdropWhile p ≠ [] := by
    intro hnil
    rw [hnil] at h
    cases h
  rw [getLast?_eq_some_getLast hne] at h
  obtain rfl := Option.some.inj h
  simpa using rdropWhile_last_not p l hne

end List
