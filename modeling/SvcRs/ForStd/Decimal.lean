import Mathlib.Algebra.GroupWithZero.Nat
import Mathlib.Data.List.Basic

/-!
# Decimal numerals

Numbers in ASCII, as `Nat.repr` and `Int.repr` write them.

## Key results

- `ofNat_digit`, `ofNat_snoc`: one digit, and the last of several
- `ofNat_length_le`, `ofInt_length_le`: how long numerals get
- `ofNat_injective`, `ofInt_injective`: the numeral determines the number
- `isNatural_ofNat`, `isInteger_ofInt`: numerals are canonical and denote the number
-/

namespace Decimal

/-- The decimal digits of a natural number, as ASCII bytes. -/
def ofNat (n : Nat) : List UInt8 := (Nat.toDigits 10 n).map fun c => c.toNat.toUInt8

/-- The decimal digits of an integer, after a minus sign if it is negative. -/
def ofInt (v : Int) : List UInt8 := if v < 0 then 45 :: ofNat v.natAbs else ofNat v.natAbs

/-- The digit `d`. -/
def digit (d : Nat) : UInt8 := (48 + d).toUInt8

/-- The two ways to write a digit agree. -/
theorem toUInt8_digitChar {d : Nat} (h : d < 10) : (Nat.digitChar d).toNat.toUInt8 = digit d := by
  have hall : ∀ d < 10, (Nat.digitChar d).toNat.toUInt8 = digit d := by decide
  exact hall d h

/-- The ASCII code of a digit. -/
theorem toNat_digit {d : Nat} (h : d < 10) : (digit d).toNat = 48 + d := by
  have hall : ∀ d < 10, (digit d).toNat = 48 + d := by decide
  exact hall d h

/-- A number below ten is one digit. -/
theorem ofNat_digit {n : Nat} (h : n < 10) : ofNat n = [digit n] := by
  unfold ofNat
  rw [Nat.toDigits_of_lt_base h, List.map_singleton, toUInt8_digitChar h]

/-- The last digit comes off the end. -/
theorem ofNat_snoc {n : Nat} (h : 10 ≤ n) : ofNat n = ofNat (n / 10) ++ [digit (n % 10)] := by
  have hlast : n % 10 < 10 := Nat.mod_lt n (by omega)
  unfold ofNat
  rw [Nat.toDigits_of_base_le (by omega) h, List.map_append, List.map_singleton,
    toUInt8_digitChar hlast]

/-- Numerals by their digits, from the first one on. -/
theorem ofNat_induction {P : Nat → Prop} (hdigit : ∀ n < 10, P n)
    (hsnoc : ∀ n, 10 ≤ n → P (n / 10) → P n) (n : Nat) : P n := by
  induction n using Nat.strongRecOn with
  | ind n ih =>
    by_cases h : n < 10
    · exact hdigit n h
    · exact hsnoc n (by omega) (ih (n / 10) (by omega))

/-- A number below `10 ^ k` has at most `k` digits. -/
theorem ofNat_length_le {n k : Nat} (hk : 0 < k) (h : n < 10 ^ k) : (ofNat n).length ≤ k := by
  unfold ofNat
  rw [List.length_map]
  exact (Nat.length_toDigits_le_iff (by omega) hk).mpr h

/-- The sign takes one more byte. -/
theorem ofInt_length_le {v : Int} {k : Nat} (hk : 0 < k) (h : v.natAbs < 10 ^ k) :
    (ofInt v).length ≤ k + 1 := by
  have hlen := ofNat_length_le hk h
  unfold ofInt
  split
  · rw [List.length_cons]
    omega
  · omega

/-- Only digits. -/
theorem digit_of_mem_ofNat {n : Nat} {c : UInt8} (h : c ∈ ofNat n) : 48 ≤ c.toNat ∧ c.toNat ≤ 57 := by
  have hone : ∀ d < 10, 48 ≤ (digit d).toNat ∧ (digit d).toNat ≤ 57 := by
    intro d hd
    rw [toNat_digit hd]
    omega
  -- by induction on the number, one digit at a time
  induction n using ofNat_induction with
  | hdigit n hn =>
    rw [ofNat_digit hn, List.mem_singleton] at h
    exact h ▸ hone n hn
  | hsnoc n hn ih =>
    rw [ofNat_snoc hn, List.mem_append, List.mem_singleton] at h
    rcases h with h | rfl
    · exact ih h
    · exact hone (n % 10) (Nat.mod_lt n (by omega))

/-- What a row of digits denotes. -/
def value (digits : List UInt8) : Nat := digits.foldl (fun v c => 10 * v + (c.toNat - 48)) 0

/-- Reading the digits gives the number back. -/
theorem value_ofNat (n : Nat) : value (ofNat n) = n := by
  induction n using ofNat_induction with
  | hdigit n hn =>
    have hone := toNat_digit hn
    simp [ofNat_digit hn, value, hone]
  | hsnoc n hn ih =>
    have hlast := toNat_digit (Nat.mod_lt n (y := 10) (by omega))
    unfold value at ih ⊢
    rw [ofNat_snoc hn, List.foldl_append, ih]
    simp only [List.foldl_cons, List.foldl_nil, hlast]
    omega

/-- Different numbers have different digits. -/
theorem ofNat_injective : Function.Injective ofNat := Function.LeftInverse.injective value_ofNat

/-- A sign is not a digit. -/
theorem sign_not_mem_ofNat (n : Nat) : (45 : UInt8) ∉ ofNat n := by
  intro h
  have hdigit := (digit_of_mem_ofNat h).1
  exact absurd hdigit (by decide)

/-- Different integers are written differently. -/
theorem ofInt_injective : Function.Injective ofInt := by
  intro v v' h
  unfold ofInt at h
  split at h <;> split at h
  · have habs := ofNat_injective (List.cons_injective h)
    omega
  · exact absurd (h ▸ List.mem_cons_self) (sign_not_mem_ofNat _)
  · exact absurd (h.symm ▸ List.mem_cons_self) (sign_not_mem_ofNat _)
  · have habs := ofNat_injective h
    omega

/-- Signs and digits. -/
theorem mem_ofInt {v : Int} {c : UInt8} (h : c ∈ ofInt v) : c = 45 ∨ 48 ≤ c.toNat := by
  unfold ofInt at h
  split at h
  · rcases List.mem_cons.mp h with rfl | h
    · exact .inl rfl
    · exact .inr (digit_of_mem_ofNat h).1
  · exact .inr (digit_of_mem_ofNat h).1

/-- No NUL. -/
theorem zero_not_mem_ofNat (n : Nat) : 0 ∉ ofNat n := by
  intro h
  have hdigit := (digit_of_mem_ofNat h).1
  exact absurd hdigit (by decide)

/-- There is no NUL in the text of an integer. -/
theorem zero_not_mem_ofInt (v : Int) : 0 ∉ ofInt v := by
  intro h
  cases mem_ofInt h with
  | inl h => exact absurd h (by decide)
  | inr h => exact absurd h (by decide)

/-! ## Canonical numerals -/

/-- `b` writes `n` in digits, without a leading zero. -/
structure IsNatural (b : List UInt8) (n : Nat) : Prop where
  digits : ∀ c ∈ b, 48 ≤ c.toNat ∧ c.toNat ≤ 57
  denotes : value b = n
  nonempty : b ≠ []
  noLeadingZero : b.head? = some 48 → b = [48]

/-- `b` writes `v`, with a single minus in front of a negative number. -/
def IsInteger (b : List UInt8) (v : Int) : Prop :=
  if v < 0 then ∃ digits, b = 45 :: digits ∧ IsNatural digits v.natAbs else IsNatural b v.natAbs

/-- What a numeral with or without a minus denotes. -/
def valueInt (b : List UInt8) : Int :=
  if b.head? = some 45 then -(value b.tail : Int) else (value b : Int)

/-- Every number has a digit. -/
theorem ofNat_ne_nil (n : Nat) : ofNat n ≠ [] := by
  induction n using ofNat_induction with
  | hdigit n hn => simp [ofNat_digit hn]
  | hsnoc n hn => simp [ofNat_snoc hn]

/-- Only zero begins with a zero. -/
theorem ofNat_head {n : Nat} (hn : 0 < n) : (ofNat n).head? ≠ some 48 := by
  induction n using ofNat_induction with
  | hdigit n hd =>
    have hdigit := toNat_digit hd
    rw [ofNat_digit hd]
    intro h
    have hzero : digit n = 48 := by simpa using h
    rw [hzero] at hdigit
    have h48 : (48 : UInt8).toNat = 48 := rfl
    omega
  | hsnoc n hten ih =>
    -- the first digit is that of `n / 10`, which is still positive
    have hfirst : (ofNat n).head? = (ofNat (n / 10)).head? := by
      rw [ofNat_snoc hten, List.head?_append_of_ne_nil _ (ofNat_ne_nil _)]
    rw [hfirst]
    exact ih (by omega)

/-- The digits of a number are a text of that number. -/
theorem isNatural_ofNat (n : Nat) : IsNatural (ofNat n) n where
  digits _ := digit_of_mem_ofNat
  denotes := value_ofNat n
  nonempty := ofNat_ne_nil n
  noLeadingZero h := by
    have hzero : n = 0 := by
      by_contra hne
      exact ofNat_head (by omega) h
    rw [hzero]
    rfl

/-- The text of an integer is one of that integer. -/
theorem isInteger_ofInt (v : Int) : IsInteger (ofInt v) v := by
  unfold IsInteger ofInt
  split
  · exact ⟨_, rfl, isNatural_ofNat _⟩
  · exact isNatural_ofNat _

/-- Reading the text gives the integer back. -/
theorem valueInt_ofInt (v : Int) : valueInt (ofInt v) = v := by
  unfold valueInt ofInt
  split
  · have hval := value_ofNat v.natAbs
    simp only [List.head?_cons, List.tail_cons, if_true, hval]
    omega
  · have hsign : (ofNat v.natAbs).head? ≠ some 45 := fun h =>
      sign_not_mem_ofNat _ (List.mem_of_mem_head? h)
    rw [if_neg hsign, value_ofNat]
    omega

end Decimal
