import Mathlib.Algebra.GroupWithZero.Nat
import Mathlib.Data.List.Basic

/-!
# Line loops

A loop that cuts the next line off its input, handles it and skips all separators behind
it, until the input is used up or a limit is reached. Such a loop is a fold over the lines
of the input if it does nothing for an empty line. Lines that are written with a separator
behind each can be read back.

## Key results

- `lineLoop_eq_foldl`: the loop as a fold over `List.splitOnP`
- `splitOnP_last`: a text that grows at the end
- `sum_length_splitOnP`: the lines with one separator each are one longer than the input
- `unlines_injective`: the text of lines without separators determines them
-/

namespace Lines

variable {α σ : Type*} (sep : α → Bool) (full : σ → Prop) [DecidablePred full]
  (step : σ → List α → σ)

/-- The loop over the lines of `data`; it stops at the end of the data, or when the state is full.
    -/
def lineLoop : (fuel : Nat) → (data : List α) → σ → σ
  | 0, _, s => s
  | fuel + 1, data, s =>
    if data.length = 0 ∨ full s then s
    else
      let line := data.takeWhile fun c => !sep c
      lineLoop fuel ((data.drop (line.length + 1)).dropWhile sep) (step s line)

/-- One line, unless the limit is reached. -/
def lineStep (s : σ) (line : List α) : σ := if full s then s else step s line

variable {sep full step}

/-- The first line of a list is all of it, or the next byte is a separator. -/
theorem splitOnP_line (data : List α) :
    (data.drop ((data.takeWhile fun c => !sep c).length + 1) = [] ∧
      data.splitOnP sep = [data.takeWhile fun c => !sep c]) ∨
    data.splitOnP sep = (data.takeWhile fun c => !sep c) ::
      (data.drop ((data.takeWhile fun c => !sep c).length + 1)).splitOnP sep := by
  induction data with
  | nil => exact .inl ⟨rfl, rfl⟩
  | cons c data ih =>
    rw [List.splitOnP_cons_eq_if_modifyHead]
    cases hc : sep c with
    -- the first line ends here, or takes the character in
    | true => exact .inr (by simp [hc])
    | false =>
      rcases ih with ⟨hdrop, hlines⟩ | hlines
      · exact .inl (by simpa [hc, hlines] using hdrop)
      · exact .inr (by simp [hc, hlines])

/-- Separators that are skipped stand for empty lines. -/
theorem foldl_dropWhile {f : σ → List α → σ} (hnil : ∀ s, f s [] = s) (data : List α) (s : σ) :
    ((data.dropWhile sep).splitOnP sep).foldl f s = (data.splitOnP sep).foldl f s := by
  induction data with
  | nil => rfl
  | cons c data ih =>
    cases hc : sep c with
    | true =>
      rw [List.dropWhile_cons_of_pos hc, ih, List.splitOnP_cons_eq_if_modifyHead, if_pos hc,
        List.foldl_cons, hnil]
    | false => rw [List.dropWhile_cons_of_neg (by simp [hc])]

/-- A full state stays as it is. -/
theorem foldl_full {s : σ} (hfull : full s) (lines : List (List α)) :
    lines.foldl (lineStep full step) s = s := by
  induction lines with
  | nil => rfl
  | cons line lines ih => rw [List.foldl_cons, lineStep, if_pos hfull, ih]

/-- The loop is the fold over the lines, when an empty line changes nothing. -/
theorem lineLoop_eq_foldl (hnil : ∀ s, step s [] = s) {fuel : Nat} {data : List α}
    (hfuel : data.length ≤ fuel) (s : σ) :
    lineLoop sep full step fuel data s = (data.splitOnP sep).foldl (lineStep full step) s := by
  have hskip : ∀ s, lineStep full step s [] = s := by
    intro s
    unfold lineStep
    rw [hnil, ite_self]
  induction fuel generalizing data s with
  | zero =>
    obtain rfl := List.length_eq_zero_iff.mp (Nat.le_zero.mp hfuel)
    exact (hskip s).symm
  | succ fuel ih =>
    unfold lineLoop
    split
    · next hdone =>
      rcases hdone with hempty | hfull
      · obtain rfl := List.length_eq_zero_iff.mp hempty
        exact (hskip s).symm
      · exact (foldl_full hfull _).symm
    · next hgo =>
      rw [not_or] at hgo
      have hline : lineStep full step s (data.takeWhile fun c => !sep c) =
          step s (data.takeWhile fun c => !sep c) := if_neg hgo.2
      dsimp only
      rw [ih, foldl_dropWhile hskip]
      · rcases @splitOnP_line _ sep data with ⟨hdrop, hlines⟩ | hlines
        · rw [hdrop, hlines, List.foldl_cons, hline]
          exact hskip _
        · rw [hlines, List.foldl_cons, hline]
      · -- the line and its separator are gone
        have hle := (List.dropWhile_sublist sep (l := data.drop
          ((data.takeWhile fun c => !sep c).length + 1))).length_le
        rw [List.length_drop] at hle
        omega

/-- What is put behind a text belongs to its last line up to the first separator. -/
theorem splitOnP_last (data : List α) : ∃ lines line, ∀ rest, (∀ c ∈ rest, sep c = false) →
    (data ++ rest).splitOnP sep = lines ++ [line ++ rest] := by
  induction data with
  | nil => exact ⟨[], [], fun _ hrest => List.splitOnP_eq_singleton hrest⟩
  | cons c data ih =>
    obtain ⟨lines, line, hlast⟩ := ih
    cases hc : sep c with
    | true =>
      refine ⟨[] :: lines, line, fun rest hrest => ?_⟩
      rw [List.cons_append, List.splitOnP_cons_eq_if_modifyHead, if_pos hc, hlast rest hrest,
        List.cons_append]
    | false =>
      -- the byte belongs to the first line, which may be the last one as well
      cases lines with
      | nil =>
        refine ⟨[], c :: line, fun rest hrest => ?_⟩
        rw [List.cons_append, List.splitOnP_cons_eq_if_modifyHead, if_neg (by simp [hc]),
          hlast rest hrest]
        rfl
      | cons first lines =>
        refine ⟨(c :: first) :: lines, line, fun rest hrest => ?_⟩
        rw [List.cons_append, List.splitOnP_cons_eq_if_modifyHead, if_neg (by simp [hc]),
          hlast rest hrest]
        rfl

/-- Every line but the last had a separator behind it. -/
theorem sum_length_splitOnP (data : List α) :
    ((data.splitOnP sep).map fun line => line.length + 1).sum = data.length + 1 := by
  induction data with
  | nil => rfl
  | cons c data ih =>
    rw [List.splitOnP_cons_eq_if_modifyHead]
    -- a separator opens a line of its own
    split
    · rw [List.map_cons, List.sum_cons, ih, List.length_cons, List.length_nil]
      omega
    · cases hlines : data.splitOnP sep with
      | nil => exact absurd hlines (List.splitOnP_ne_nil sep data)
      | cons line lines =>
        rw [hlines] at ih
        simp only [List.modifyHead_cons, List.map_cons, List.sum_cons, List.length_cons] at ih ⊢
        omega

/-- What `List.splitOnP` yields is part of the input. -/
theorem mem_of_mem_splitOnP {data line : List α} (h : line ∈ data.splitOnP sep) :
    ∀ c ∈ line, c ∈ data := by
  induction data generalizing line with
  | nil =>
    rw [List.splitOnP_nil, List.mem_singleton] at h
    simp [h]
  | cons c data ih =>
    rw [List.splitOnP_cons_eq_if_modifyHead] at h
    split at h
    · rcases List.mem_cons.mp h with rfl | h
      · simp
      · exact fun d hd => List.mem_cons_of_mem c (ih h d hd)
    -- no separator: `c` joins the first of the remaining lines
    · cases hlines : data.splitOnP sep with
      | nil => exact absurd hlines (List.splitOnP_ne_nil sep data)
      | cons first lines =>
        rw [hlines, List.modifyHead_cons] at h
        rw [hlines] at ih
        rcases List.mem_cons.mp h with rfl | h
        · intro d hd
          rcases List.mem_cons.mp hd with rfl | hd
          · exact List.mem_cons_self
          · exact List.mem_cons_of_mem c (ih List.mem_cons_self d hd)
        · exact fun d hd => List.mem_cons_of_mem c (ih (List.mem_cons_of_mem first h) d hd)

/-- The lines, with `c` behind each. -/
def unlines (c : α) (lines : List (List α)) : List α := lines.flatMap fun line => line ++ [c]

/-- Lines are ended one by one. -/
theorem unlines_append (c : α) (lines lines' : List (List α)) :
    unlines c (lines ++ lines') = unlines c lines ++ unlines c lines' := List.flatMap_append

/-- Splitting gives the lines back, and an empty rest after the last separator. -/
theorem splitOn_unlines [DecidableEq α] {c : α} {lines : List (List α)}
    (h : ∀ line ∈ lines, c ∉ line) : (unlines c lines).splitOn c = lines ++ [[]] := by
  induction lines with
  | nil => simp [unlines]
  | cons line lines ih =>
    have hcons : unlines c (line :: lines) = line ++ c :: unlines c lines := by simp [unlines]
    rw [hcons, List.splitOn_append_cons_self_of_not_mem (h line List.mem_cons_self),
      ih fun l hl => h l (List.mem_cons_of_mem line hl)]
    rfl

/-- Lines without separators can be read off the text. -/
theorem unlines_injective [DecidableEq α] {c : α} {lines lines' : List (List α)}
    (h : ∀ line ∈ lines, c ∉ line) (h' : ∀ line ∈ lines', c ∉ line)
    (he : unlines c lines = unlines c lines') : lines = lines' := by
  have hsplit := congrArg (List.splitOn c) he
  rw [splitOn_unlines h, splitOn_unlines h'] at hsplit
  exact List.append_cancel_right hsplit

end Lines
