import Mathlib.Algebra.GroupWithZero.Nat
import SvcRs.ForStd.List
import SvcRs.Native.Ctrl
import SvcRs.Spec.UserFile

/-!
# Numbers from the operator

The limit files, the `nice` file and the number of `signal` are read by three loops of one shape:
they take the digits at the start, saturate at every digit, and stop at the first other byte. The
files are read into buffers of 32 and 16 bytes first.

## Key results

- `digitLoop_eq`: what such a loop computes
- `parseRlimit_exact_iff`, `parseNice_exact_iff`, `parseSignum_exact_iff`: when that is the number
  that the text denotes
- `numbers_exact_iff`: the three together
-/

namespace SvcRs

/-! ## What a text denotes -/

/-- The text without the blanks and line ends behind it. -/
def withoutTrailing (b : Bytes) : Bytes := trimEnd isSpace b

/-- The limit that the file denotes: a decimal number, at most 2^64 - 1. -/
def denotedLimit (content : Bytes) : Option Nat :=
  let text := withoutTrailing content
  if isDecimal text then some (min (decimalValue text) 18446744073709551615) else none

/-- The nice value that the file denotes: a decimal number that may have a minus sign, kept to 32
    bits. -/
def denotedNice (content : Bytes) : Option Int :=
  match withoutTrailing content with
  | 45 :: text =>
    if isDecimal text then some (max (-(decimalValue text : Int)) (-2147483648)) else none
  | text => if isDecimal text then some (min (decimalValue text : Int) 2147483647) else none

/-- The signal that the text denotes, if it is one. -/
def denotedSignum (b : Bytes) : Option Nat :=
  let text := withoutTrailing b
  if isDecimal text && 1 ≤ decimalValue text && decimalValue text ≤ sigrtmax then
    some (decimalValue text)
  else none

/-! ## The loops -/

/-- The digits at the start. -/
def leading (b : Bytes) : Bytes := b.takeWhile isDigit

/-- Saturation at every digit is saturation at the end. -/
theorem digitLoop_eq {limit : Nat} {loop : Bytes → Nat → Nat} (hnil : ∀ n, loop [] n = n)
    (hcons : ∀ c rest n, loop (c :: rest) n =
      if isDigit c then loop rest (min (min (n * 10) limit + (c - 48).toNat) limit) else n)
    (b : Bytes) : loop b 0 = min (decimalValue (leading b)) limit := by
  -- clamping at every step comes to the same as clamping the whole value once
  have hfrom : ∀ n, loop b (min n limit) =
      min ((leading b).foldl (fun n c => n * 10 + (c - 48).toNat) n) limit := by
    unfold leading
    induction b with
    | nil =>
      intro n
      exact hnil _
    | cons c rest ih =>
      intro n
      rw [hcons, List.takeWhile_cons]
      cases isDigit c with
      | false => rfl
      | true =>
        -- a value that was clamped stays at the limit
        have hstep : min (min (min n limit * 10) limit + (c - 48).toNat) limit =
            min (n * 10 + (c - 48).toNat) limit := by omega
        rw [if_pos rfl, hstep, ih]
        rfl
  have hzero := hfrom 0
  rw [Nat.zero_min] at hzero
  exact hzero

/-- The digits are read up to the first other byte, with saturation. -/
theorem leadingDigits_eq (b : Bytes) :
    leadingDigits b 0 = min (decimalValue (leading b)) 18446744073709551615 :=
  digitLoop_eq (fun _ => rfl) (fun _ _ _ => rfl) b

/-- The same with the smaller limit. -/
theorem niceDigits_eq (b : Bytes) :
    niceDigits b 0 = min (decimalValue (leading b)) 2147483647 :=
  digitLoop_eq (fun _ => rfl) (fun _ _ _ => rfl) b

/-! ## Texts that are cut -/

section

variable {b text : Bytes}

/-- A number in two parts. -/
theorem decimalValue_append (a b : Bytes) :
    decimalValue (a ++ b) = decimalValue a * 10 ^ b.length + decimalValue b := by
  -- by induction on the second part, with the value so far generalised
  have hfrom : ∀ n, b.foldl (fun n c => n * 10 + (c - 48).toNat) n =
      n * 10 ^ b.length + decimalValue b := by
    induction b with
    | nil => simp [decimalValue]
    | cons c b ih =>
      intro n
      unfold decimalValue
      rw [List.foldl_cons, List.foldl_cons, ih, ih (0 * 10 + _), List.length_cons, Nat.pow_succ,
        Nat.add_mul, Nat.zero_mul, Nat.zero_add, Nat.mul_assoc, Nat.mul_comm 10, Nat.add_assoc]
  unfold decimalValue
  rw [List.foldl_append]
  exact hfrom _

/-- The digits that fit in the buffer give the number: they are all of them, or the number is
    beyond the limit anyway, or it is zero. -/
def FitsIn (size limit : Nat) (text : Bytes) : Prop :=
  text.length ≤ size ∨ limit ≤ decimalValue (text.take size) ∨ decimalValue text = 0

/-- Each digit that is cut off divides the number by ten. -/
theorem decimalValue_take (text : Bytes) (size : Nat) (h : size < text.length) :
    10 * decimalValue (text.take size) ≤ decimalValue text := by
  have hsplit := decimalValue_append (text.take size) (text.drop size)
  have hlen : (text.drop size).length = text.length - size := List.length_drop
  have hpow : 10 ≤ 10 ^ (text.drop size).length := by
    rw [hlen]
    exact Nat.le_self_pow (by omega) 10
  rw [List.take_append_drop] at hsplit
  rw [hsplit, Nat.mul_comm]
  exact Nat.le_trans (Nat.mul_le_mul_left _ hpow) (Nat.le_add_right _ _)

/-- A cut number is the same number only if it fits, or if both are too large. -/
theorem saturated_take_iff (text : Bytes) (size limit : Nat) :
    min (decimalValue (text.take size)) limit = min (decimalValue text) limit ↔
      FitsIn size limit text := by
  unfold FitsIn
  by_cases hlen : text.length ≤ size
  · simp [List.take_of_length_le hlen, hlen]
  · have htake := decimalValue_take text size (by omega)
    omega

/-- What is kept ends at the first byte that is not blank, whatever stands before it. -/
theorem withoutTrailing_append (b : Bytes) : ∃ blanks, (∀ c ∈ blanks, isSpace c = true) ∧
    b = withoutTrailing b ++ blanks :=
  ⟨b.rtakeWhile isSpace, fun _ hc => List.mem_rtakeWhile_imp hc,
    List.rdropWhile_append_rtakeWhile.symm⟩

/-- A blank is no digit. -/
theorem isDigit_of_isSpace {c : UInt8} (h : isSpace c = true) : isDigit c = false := by
  have hcases : c = 10 ∨ c = 13 ∨ c = 32 ∨ c = 9 := by
    simpa [isSpace, isNewline, isBlank, or_assoc] using h
  rcases hcases with rfl | rfl | rfl | rfl <;> rfl

/-- One digit at least, and nothing but digits. -/
theorem isDecimal_iff : isDecimal b = true ↔ b ≠ [] ∧ ∀ c ∈ b, isDigit c = true := by
  simp [isDecimal]

/-- The loop stops where the text ends or where it is cut, whichever comes first. -/
theorem leading_take (h : isDecimal (withoutTrailing b) = true) (size : Nat) :
    leading (b.take size) = (withoutTrailing b).take size := by
  obtain ⟨blanks, hblanks, hb⟩ := withoutTrailing_append b
  have hdigits := (isDecimal_iff.mp h).2
  unfold leading
  cases blanks with
  | nil =>
    rw [List.append_nil] at hb
    rw [← hb] at hdigits ⊢
    exact List.takeWhile_eq_self_iff.mpr fun c hc => hdigits c (List.mem_of_mem_take hc)
  | cons c rest =>
    -- the digits end where the trailing space begins
    have hstop := isDigit_of_isSpace (hblanks c List.mem_cons_self)
    calc (b.take size).takeWhile isDigit
        = ((withoutTrailing b ++ c :: rest).take size).takeWhile isDigit := by rw [← hb]
      _ = (withoutTrailing b).take size := List.takeWhile_take_append hdigits hstop size

/-- What is read as a number at all. -/
def StartsWithDigit (b : Bytes) : Prop := (b.head?.map isDigit).getD false = true

instance (b : Bytes) : Decidable (StartsWithDigit b) := inferInstanceAs (Decidable (_ = true))

/-- The cut does not change that. -/
theorem startsWithDigit_take (b : Bytes) {size : Nat} (hsize : 0 < size) :
    StartsWithDigit (b.take size) ↔ StartsWithDigit b := by
  unfold StartsWithDigit
  rw [List.head?_take, if_neg (by omega)]

/-- A decimal text does. -/
theorem startsWithDigit_of_isDecimal (h : isDecimal (withoutTrailing b) = true) :
    StartsWithDigit b := by
  obtain ⟨blanks, -, hb⟩ := withoutTrailing_append b
  obtain ⟨hne, hdigits⟩ := isDecimal_iff.mp h
  unfold StartsWithDigit
  rw [hb]
  cases htext : withoutTrailing b with
  | nil => exact absurd htext hne
  | cons c text =>
    have hc : isDigit c = true := hdigits c (by rw [htext]; exact List.mem_cons_self)
    exact hc

/-- A loop that turns the number it gets into `f`, and a text that denotes `g` of its number. -/
theorem digits_exact_iff {α : Type} (f g : Nat → α) (b : Bytes) (size : Nat) :
    (if StartsWithDigit b then some (f (decimalValue (leading (b.take size)))) else none) =
        (if isDecimal (withoutTrailing b) then some (g (decimalValue (withoutTrailing b))) else none) ↔
      isDecimal (withoutTrailing b) = true ∧
          f (decimalValue ((withoutTrailing b).take size)) = g (decimalValue (withoutTrailing b)) ∨
        ¬StartsWithDigit b := by
  by_cases hdecimal : isDecimal (withoutTrailing b) = true
  · have hstarts := startsWithDigit_of_isDecimal hdecimal
    rw [if_pos hstarts, if_pos hdecimal, leading_take hdecimal, Option.some_inj]
    simp [hdecimal, hstarts]
  · by_cases hstarts : StartsWithDigit b <;> simp [hdecimal, hstarts]

end

/-! ## Limits -/

/-- The file starts with no digit, or it holds a number and the first 32 bytes give it. -/
def LimitExact (content : Bytes) : Prop :=
  isDecimal (withoutTrailing content) = true ∧
      FitsIn 32 18446744073709551615 (withoutTrailing content) ∨
    ¬StartsWithDigit content

/-- What `parse_rlimit` computes. -/
theorem parseRlimit_eq (data : Bytes) : parseRlimit data =
    if StartsWithDigit data then some (min (decimalValue (leading data)) 18446744073709551615)
    else none := by
  unfold parseRlimit
  rw [leadingDigits_eq]
  rfl

/-- It is what the file denotes exactly under the condition. -/
theorem parseRlimit_exact_iff (content : Bytes) :
    parseRlimit (content.take 32) = denotedLimit content ↔ LimitExact content := by
  have hstarts : StartsWithDigit (content.take 32) ↔ StartsWithDigit content :=
      startsWithDigit_take content (by omega)
  have hexact := digits_exact_iff (fun n => min n 18446744073709551615)
    (fun n => min n 18446744073709551615) content 32
  rw [saturated_take_iff] at hexact
  rw [parseRlimit_eq]
  simp only [hstarts]
  exact hexact

/-! ## Nice values -/

/-- The number itself; the sign takes one of the 16 bytes. The least `i32` is out of reach. -/
def NiceExact (content : Bytes) : Prop :=
  match content with
  | 45 :: rest =>
    isDecimal (withoutTrailing rest) = true ∧ decimalValue (withoutTrailing rest) ≤ 2147483647 ∧
        ((withoutTrailing rest).length ≤ 15 ∨ decimalValue (withoutTrailing rest) = 0) ∨
      ¬StartsWithDigit rest
  | _ =>
    isDecimal (withoutTrailing content) = true ∧ FitsIn 16 2147483647 (withoutTrailing content) ∨
      ¬StartsWithDigit content

/-- A sign is not cut off the end. -/
theorem withoutTrailing_sign (rest : Bytes) :
    withoutTrailing (45 :: rest) = 45 :: withoutTrailing rest :=
  List.rdropWhile_cons_of_neg rfl

/-- The minimum may be taken before or after the cast. -/
theorem cast_min_i32 (n : Nat) : ((min n 2147483647 : Nat) : Int) = min (n : Int) 2147483647 := by
  omega

/-- What `parse_nice` computes after a minus sign. -/
theorem parseNice_negative (digits : Bytes) : parseNice (45 :: digits) =
    if StartsWithDigit digits then some (-(min (decimalValue (leading digits)) 2147483647 : Int))
    else none := by
  have hdigits : parseNice (45 :: digits) =
      if StartsWithDigit digits then some (-1 * (niceDigits digits 0 : Int)) else none := rfl
  rw [hdigits, niceDigits_eq, Int.neg_one_mul, cast_min_i32]

/-- And without one. -/
theorem parseNice_positive {data : Bytes} (h : data.head? ≠ some 45) : parseNice data =
    if StartsWithDigit data then some (min (decimalValue (leading data) : Int) 2147483647)
    else none := by
  have hdigits : parseNice data =
      if StartsWithDigit data then some (1 * (niceDigits data 0 : Int)) else none := by
    unfold parseNice
    split
    -- 45 is the minus sign
    next sign digits hmatch =>
      split at hmatch
      · exact absurd rfl h
      · obtain ⟨rfl, rfl⟩ := Prod.mk.inj hmatch
        rfl
  rw [hdigits, niceDigits_eq, Int.one_mul, cast_min_i32]

/-- What the file denotes after a minus sign. -/
theorem denotedNice_negative (rest : Bytes) : denotedNice (45 :: rest) =
    if isDecimal (withoutTrailing rest) then
      some (max (-(decimalValue (withoutTrailing rest) : Int)) (-2147483648))
    else none := by
  unfold denotedNice
  rw [withoutTrailing_sign]
  rfl

/-- And without one. -/
theorem denotedNice_positive {content : Bytes} (h : content.head? ≠ some 45) :
    denotedNice content = if isDecimal (withoutTrailing content) then
      some (min (decimalValue (withoutTrailing content) : Int) 2147483647) else none := by
  unfold denotedNice
  split
  · next text htext =>
    -- the text begins where the file begins
    obtain ⟨blanks, -, hb⟩ := withoutTrailing_append content
    rw [hb, htext] at h
    exact absurd rfl h
  · rfl

/-- Fifteen digits and the sign are enough for a number that `i32` can negate. -/
theorem negated_take_iff {text : Bytes} :
    -(min (decimalValue (text.take 15)) 2147483647 : Int) =
        max (-(decimalValue text : Int)) (-2147483648) ↔
      decimalValue text ≤ 2147483647 ∧ (text.length ≤ 15 ∨ decimalValue text = 0) := by
  by_cases hlen : text.length ≤ 15
  · rw [List.take_of_length_le hlen]
    omega
  · have htake := decimalValue_take text 15 (by omega)
    omega

/-- `parse_nice` returns what the file denotes exactly under the condition. -/
theorem parseNice_exact_iff (content : Bytes) :
    parseNice (content.take 16) = denotedNice content ↔ NiceExact content := by
  by_cases hsign : content.head? = some 45
  -- after a minus sign there are fifteen bytes
  · obtain ⟨rest, rfl⟩ : ∃ rest, content = 45 :: rest := by
      cases content with
      | nil => cases hsign
      | cons c rest => exact ⟨rest, by rw [Option.some.inj hsign]⟩
    have hcut : (45 :: rest : Bytes).take 16 = 45 :: rest.take 15 := rfl
    have hstarts : StartsWithDigit (rest.take 15) ↔ StartsWithDigit rest :=
      startsWithDigit_take rest (by omega)
    have hexact := digits_exact_iff (fun n => -(min n 2147483647 : Int))
      (fun n => max (-(n : Int)) (-2147483648)) rest 15
    rw [negated_take_iff] at hexact
    rw [hcut, parseNice_negative, denotedNice_negative]
    simp only [hstarts]
    exact hexact
  -- without one the text is that of a number
  · have hhead : (content.take 16).head? ≠ some 45 := by
      rw [List.head?_take]
      exact hsign
    have hstarts : StartsWithDigit (content.take 16) ↔ StartsWithDigit content :=
      startsWithDigit_take content (by omega)
    have hexact := digits_exact_iff (fun n => (min n 2147483647 : Int))
      (fun n => (min n 2147483647 : Int)) content 16
    have hfits := saturated_take_iff (withoutTrailing content) 16 2147483647
    have hcases : NiceExact content ↔ isDecimal (withoutTrailing content) = true ∧
        FitsIn 16 2147483647 (withoutTrailing content) ∨ ¬StartsWithDigit content := by
      unfold NiceExact
      split
      · exact absurd rfl hsign
      · rfl
    have hcast : min (decimalValue ((withoutTrailing content).take 16) : Int) 2147483647 =
          min (decimalValue (withoutTrailing content) : Int) 2147483647 ↔
        FitsIn 16 2147483647 (withoutTrailing content) := by
      rw [← hfits]
      omega
    rw [hcast] at hexact
    rw [parseNice_positive hhead, denotedNice_positive hsign, hcases]
    simp only [hstarts]
    exact hexact

/-! ## Signal numbers -/

/-- The argument is a number, or what it begins with is not the number of a signal. -/
def SignumExact (b : Bytes) : Prop :=
  isDecimal (withoutTrailing b) = true ∨
    ¬(1 ≤ decimalValue (leading b) ∧ decimalValue (leading b) ≤ sigrtmax)

/-- So does `parse_signum`. -/
theorem parseSignum_exact_iff (b : Bytes) : parseSignum b = denotedSignum b ↔ SignumExact b := by
  have hmax : sigrtmax = 64 := rfl
  have hsat := leadingDigits_eq b
  unfold parseSignum denotedSignum SignumExact
  dsimp only
  rw [hsat]
  -- a decimal text is read digit by digit; any other is read up to its first other byte
  by_cases hdecimal : isDecimal (withoutTrailing b) = true
  · have hall := leading_take hdecimal b.length
    obtain ⟨blanks, -, hb⟩ := withoutTrailing_append b
    have hle : (withoutTrailing b).length ≤ b.length := by
      have hlen := congrArg List.length hb
      rw [List.length_append] at hlen
      omega
    rw [List.take_length, List.take_of_length_le hle] at hall
    rw [hall]
    generalize decimalValue (withoutTrailing b) = n
    by_cases hn : 1 ≤ n ∧ n ≤ sigrtmax
    · have hmin : min n 18446744073709551615 = n := by omega
      rw [hmin]
      simp [hdecimal, hn.1, hn.2]
      omega
    -- clamped to 64 bits or not, the number is out of range
    · have hsat : ¬(0 < min n 18446744073709551615 ∧ min n 18446744073709551615 ≤ sigrtmax) := by
        omega
      rw [if_neg hsat]
      simp [hdecimal]
      omega
  · generalize decimalValue (leading b) = n
    simp only [hdecimal, Bool.false_and, Bool.false_eq_true, if_false, false_or]
    -- the text denotes nothing, so the two agree only if nothing is read either
    by_cases hn : 1 ≤ n ∧ n ≤ sigrtmax
    · have hmin : min n 18446744073709551615 = n := by omega
      simp [hmin, hn.1, hn.2]
      omega
    · have hsat : ¬(0 < min n 18446744073709551615 ∧ min n 18446744073709551615 ≤ sigrtmax) := by
        omega
      rw [if_neg hsat]
      exact iff_of_true rfl hn

/-! ## The three readers -/

/-- Files are read up to the size of the buffer; an empty file is not parsed. -/
theorem readFile_bind {α : Type} {env : ChildEnv} {path content : Bytes} {size : Nat}
    {parse : Bytes → Option α} (hread : env.read path = some content) (hempty : parse [] = none) :
    (env.readFile path size).bind parse = parse (content.take size) := by
  unfold ChildEnv.readFile
  rw [hread]
  dsimp only [Option.map_some]
  cases content.take size with
  | nil => exact hempty.symm
  | cons c rest => rfl

/-- What is read in a text, as a limit, as a nice value or as the number of `signal`, is what the
    text denotes, for exactly these texts. -/
theorem numbers_exact_iff (env : ChildEnv) (s : Service) (r : Rlimit) (content : Bytes) :
    (env.read (joinPath s.dir (rlimitFile r)) = some content →
      (readRlimitValue env s r = denotedLimit content ↔ LimitExact content)) ∧
    (env.read (joinPath s.dir "/nice") = some content →
      (readNiceValue env s = denotedNice content ↔ NiceExact content)) ∧
    (parseSignum content = denotedSignum content ↔ SignumExact content) := by
  -- two of the three are read from a file
  refine ⟨fun hread => ?_, fun hread => ?_, parseSignum_exact_iff content⟩
  · unfold readRlimitValue
    rw [readFile_bind hread rfl]
    exact parseRlimit_exact_iff content
  · unfold readNiceValue
    rw [readFile_bind hread rfl]
    exact parseNice_exact_iff content

/-- The files of a service, as its children read them. -/
def numberFiles (limit nice : Bytes) : ChildEnv where
  read path :=
    if path = bytesOf "/s/a/rlimit_nofile" then some limit
    else if path = bytesOf "/s/a/nice" then some nice
    else none

/-- A limit, a negative nice value and a signal that are read exactly. -/
theorem numbers_exact_plain :
    readRlimitValue (numberFiles (bytesOf "1024\n") (bytesOf "-5\n")) userRecord .nofile = some 1024 ∧
      readNiceValue (numberFiles (bytesOf "1024\n") (bytesOf "-5\n")) userRecord = some (-5) := by
  have hlimit : (numberFiles (bytesOf "1024\n") (bytesOf "-5\n")).read
      (joinPath userRecord.dir (rlimitFile .nofile)) = some (bytesOf "1024\n") := by decide +kernel
  have hnice : (numberFiles (bytesOf "1024\n") (bytesOf "-5\n")).read
      (joinPath userRecord.dir "/nice") = some (bytesOf "-5\n") := by decide +kernel
  -- a decimal with a newline behind it, with and without a sign
  have hlimitExact : LimitExact (bytesOf "1024\n") :=
    .inl ⟨by decide +kernel, .inl (by decide +kernel)⟩
  have hniceExact : NiceExact (bytesOf "-5\n") :=
    .inl ⟨by decide +kernel, by decide +kernel, .inl (by decide +kernel)⟩
  have hread := ((numbers_exact_iff _ _ _ _).1 hlimit).mpr hlimitExact
  have hread' := ((numbers_exact_iff _ _ .nofile _).2.1 hnice).mpr hniceExact
  rw [hread, hread']
  decide +kernel

/-- A limit with a suffix is taken for the number before it, a limit with many leading zeros for
    zero, the least nice value for its neighbour, and `9x` for the signal 9. -/
theorem numbers_misread :
    (readRlimitValue (numberFiles (bytesOf "64k\n") (bytesOf "-2147483648\n")) userRecord .nofile =
        some 64 ∧ denotedLimit (bytesOf "64k\n") = none) ∧
    (readRlimitValue (numberFiles (List.replicate 32 48 ++ bytesOf "64\n") []) userRecord .nofile =
        some 0 ∧ denotedLimit (List.replicate 32 48 ++ bytesOf "64\n") = some 64) ∧
    (readNiceValue (numberFiles (bytesOf "64k\n") (bytesOf "-2147483648\n")) userRecord =
        some (-2147483647) ∧ denotedNice (bytesOf "-2147483648\n") = some (-2147483648)) ∧
    parseSignum (bytesOf "9x") = some 9 ∧ denotedSignum (bytesOf "9x") = none := by
  decide +kernel

end SvcRs
