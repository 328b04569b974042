import SvcRs.ForStd.List
import SvcRs.Native.Ctrl

/-!
# How a request is split

A request line is a command word, a gap and an argument, with separators behind it. The word has
no separator and the argument neither begins nor ends with one, and there is exactly one way to
see a line like that.

## Key results

- `splitCmd_of_splits`: the parts that a line was put together from
- `splits_splitCmd`: every line is put together like that
- `splitCmd_roundTrip`: both, and the two steps of `signal <name> <signum>`
-/

namespace SvcRs

/-- Nothing but spaces and line ends. -/
def Blank (b : Bytes) : Prop := ∀ c ∈ b, isSeparator c = true

/-- No space and no line end. -/
def Word (b : Bytes) : Prop := ∀ c ∈ b, isSeparator c = false

instance (b : Bytes) : Decidable (Blank b) := inferInstanceAs (Decidable (∀ c ∈ b, _))

instance (b : Bytes) : Decidable (Word b) := inferInstanceAs (Decidable (∀ c ∈ b, _))

/-- No space and no line end at either end. -/
structure Trimmed (b : Bytes) : Prop where
  head : ∀ c, b.head? = some c → isSeparator c = false
  last : ∀ c, b.getLast? = some c → isSeparator c = false

/-- `line` consists of the word `cmd`, a gap, the argument and a trailer. Only an argument needs a
    gap before it. -/
def SplitsInto (line cmd arg : Bytes) : Prop :=
  Word cmd ∧ Trimmed arg ∧ ∃ gap trailer, Blank gap ∧ Blank trailer ∧
    line = cmd ++ gap ++ arg ++ trailer ∧ (arg ≠ [] → gap ≠ [])

section

variable {line cmd arg trailer : Bytes}

/-- A word has no blanks at its ends. -/
theorem Word.trimmed (h : Word arg) : Trimmed arg :=
  ⟨fun c hc => h c (List.mem_of_mem_head? hc), fun c hc => h c (List.mem_of_getLast? hc)⟩

/-- Trimming from the right. -/
theorem trimEnd_eq (p : UInt8 → Bool) (b : Bytes) : trimEnd p b = b.rdropWhile p := rfl

/-- A word ends at the first separator. -/
theorem takeWhile_word {rest : Bytes} (h : Word cmd) (hrest : ∀ c, rest.head? = some c →
      isSeparator c = true) :
    (cmd ++ rest).takeWhile (fun c => !isSeparator c) = cmd ∧
      (cmd ++ rest).dropWhile (fun c => !isSeparator c) = rest := by
  have hword : ∀ c ∈ cmd, (!isSeparator c) = true := by
    intro c hc
    simp [h c hc]
  rw [List.takeWhile_append_of_pos hword, List.dropWhile_append_of_pos hword]
  cases rest with
  | nil => exact ⟨List.append_nil cmd, rfl⟩
  | cons c rest => simp [hrest c rfl]

/-- What is behind a word does not matter for what is before it. -/
theorem dropWhile_trimmed (h : Trimmed arg) (htrailer : Blank trailer) :
    (arg ++ trailer).dropWhile isSeparator = if arg = [] then [] else arg ++ trailer := by
  cases arg with
  | nil => exact List.dropWhile_eq_nil_iff.mpr htrailer
  | cons c arg => simp [h.head c rfl]

/-- The split of a line that was put together. -/
theorem splitCmd_of_splits (h : SplitsInto line cmd arg) : splitCmd line = (cmd, arg) := by
  obtain ⟨hcmd, harg, gap, trailer, hgap, htrailer, rfl, hne⟩ := h
  have hrest : ∀ c, (gap ++ arg ++ trailer).head? = some c → isSeparator c = true := by
    intro c hc
    cases gap with
    | cons b gap =>
      obtain rfl : b = c := by simpa using hc
      exact hgap b List.mem_cons_self
    | nil =>
      -- then there is no argument either
      have hnil : arg = [] := by
        by_contra harg
        exact hne harg rfl
      rw [hnil] at hc
      exact htrailer c (List.mem_of_mem_head? hc)
  obtain ⟨htake, hdrop⟩ := takeWhile_word hcmd hrest
  have hassoc : cmd ++ gap ++ arg ++ trailer = cmd ++ (gap ++ arg ++ trailer) := by
    simp only [List.append_assoc]
  unfold splitCmd
  rw [hassoc, htake, hdrop, trimEnd_eq, List.append_assoc, List.dropWhile_append_of_pos hgap,
    dropWhile_trimmed harg htrailer]
  split
  · next hnil => rw [hnil, List.rdropWhile_nil]
  · rw [List.rdropWhile_append_of_pos htrailer, List.rdropWhile_of_getLast? harg.last]

/-- Every line is put together from the two parts that `split_cmd` returns. -/
theorem splits_splitCmd (line : Bytes) : SplitsInto line (splitCmd line).1 (splitCmd line).2 := by
  have hword : Word (splitCmd line).1 := by
    intro c hc
    simpa using List.mem_takeWhile_imp hc
  -- what follows the word, without the gap
  let rest := line.dropWhile fun c => !isSeparator c
  let tail := rest.dropWhile isSeparator
  have harg : (splitCmd line).2 = tail.rdropWhile isSeparator := rfl
  have hrest : rest.takeWhile isSeparator ++ tail = rest := List.takeWhile_append_dropWhile
  have htail : (splitCmd line).2 ++ tail.rtakeWhile isSeparator = tail :=
    List.rdropWhile_append_rtakeWhile
  have hline : (splitCmd line).1 ++ rest = line := List.takeWhile_append_dropWhile
  refine ⟨hword, ⟨fun c hc => ?_, fun c hc => List.getLast?_rdropWhile hc⟩,
    rest.takeWhile isSeparator, tail.rtakeWhile isSeparator,
    fun c hc => List.mem_takeWhile_imp hc, fun c hc => List.mem_rtakeWhile_imp hc, ?_,
      fun hne hgap => ?_⟩
  · -- the argument begins where the tail begins
    have hhead : tail.head? = some c := by
      rw [← htail, List.head?_append, hc]
      rfl
    exact List.head?_dropWhile_of hhead
  · rw [List.append_assoc, List.append_assoc, htail, hrest, hline]
  · -- without a gap, the word goes on to the end of the line
    have hstop : rest = tail := by
      rw [hgap] at hrest
      exact hrest.symm
    have hnil : rest = [] := by
      cases hcons : rest with
      | nil => rfl
      | cons c rest' =>
        have hhead : (line.dropWhile fun c => !isSeparator c).head? = some c := by
          rw [show line.dropWhile (fun c => !isSeparator c) = c :: rest' from hcons]
          rfl
        have hsep := List.head?_dropWhile_of hhead
        simp only [Bool.not_eq_false'] at hsep
        simp [hcons, hsep] at hgap
    rw [harg, ← hstop, hnil] at hne
    exact hne rfl

end

/-- `split_cmd` returns the two parts of a line, for every line and every way to put it together;
    so `signal` gets the name and the number that the client wrote. -/
theorem splitCmd_roundTrip :
    (∀ line cmd arg, splitCmd line = (cmd, arg) ↔ SplitsInto line cmd arg) ∧
    ∀ name signum gap gap' trailer : Bytes, Word name → Word signum → signum ≠ [] →
      Blank gap → gap ≠ [] → Blank gap' → gap' ≠ [] → Blank trailer → name ≠ [] →
      (splitCmd (bytesOf "signal" ++ gap ++ (name ++ gap' ++ signum) ++ trailer)).1 = bytesOf "signal" ∧
      splitCmd (splitCmd (bytesOf "signal" ++ gap ++ (name ++ gap' ++ signum) ++ trailer)).2 =
        (name, signum) := by
  constructor
  · intro line cmd arg
    constructor
    · intro he
      have hsplits := splits_splitCmd line
      rw [he] at hsplits
      exact hsplits
    · exact splitCmd_of_splits
  · intro name signum gap gap' trailer hname hsignum hne hgap hgap_ne hgap' hgap'_ne htrailer hname_ne
    have hcmd : Word (bytesOf "signal") := by decide +kernel
    -- the argument begins with the name and ends with the number
    have harg : Trimmed (name ++ gap' ++ signum) := by
      constructor
      · intro c hc
        cases name with
        | nil => exact absurd rfl hname_ne
        | cons b name =>
          obtain rfl : b = c := by simpa using hc
          exact hname b List.mem_cons_self
      · intro c hc
        rw [List.getLast?_append_of_ne_nil _ hne] at hc
        exact hsignum c (List.mem_of_getLast? hc)
    have houter := splitCmd_of_splits
      ⟨hcmd, harg, gap, trailer, hgap, htrailer, rfl, fun _ => hgap_ne⟩
    have hinner : splitCmd (name ++ gap' ++ signum) = (name, signum) := by
      apply splitCmd_of_splits
      refine ⟨hname, hsignum.trimmed, gap', [], hgap', ?_, ?_, fun _ => hgap'_ne⟩
      · exact fun c hc => absurd hc List.not_mem_nil
      · rw [List.append_nil]
    rw [houter]
    exact ⟨rfl, hinner⟩

/-- A request with blanks in all places. -/
theorem splitCmd_roundTrip_signal :
    splitCmd (bytesOf "signal \n web  9\r\n") = (bytesOf "signal", bytesOf "web  9") ∧
      splitCmd (splitCmd (bytesOf "signal \n web  9\r\n")).2 = (bytesOf "web", bytesOf "9") := by
  constructor
  -- the line has blanks of both kinds around the word and the argument
  · apply (splitCmd_roundTrip.1 _ _ _).mpr
    have harg : Trimmed (bytesOf "web  9") := by
      constructor
      · intro c hc
        obtain rfl : 119 = c := Option.some.inj hc
        rfl
      · intro c hc
        obtain rfl : 57 = c := Option.some.inj hc
        rfl
    exact ⟨by decide +kernel, harg, bytesOf " \n ", bytesOf "\r\n", by decide +kernel,
      by decide +kernel, by decide +kernel, by decide +kernel⟩
  -- the argument of `signal` is split a second time
  · exact (splitCmd_roundTrip.2 (bytesOf "web") (bytesOf "9") (bytesOf " \n ") (bytesOf "  ")
      (bytesOf "\r\n") (by decide +kernel) (by decide +kernel) (by decide +kernel)
      (by decide +kernel) (by decide +kernel) (by decide +kernel) (by decide +kernel)
      (by decide +kernel) (by decide +kernel)).2

end SvcRs
