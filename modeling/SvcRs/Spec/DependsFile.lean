import SvcRs.Spec.Numbers
import SvcRs.Spec.Rendering
import SvcRs.Spec.Rescan
import SvcRs.Spec.SplitCmd

/-!
# The `depends` file

An operator writes a list of dependencies, one on a line, with blanks and blank lines as he
likes. The parser finds them again, as far as the file fits in the buffer.

## Key results

- `parseDeps_eq`: the parser takes the first 16 dependencies of the text
- `WritesDeps.depLines`: which are those that were written
- `textLength_take_lt`: a cut that takes more than blanks takes a part of a dependency
- `depends_recorded_iff`: both, for the record that `add_service` builds
-/

namespace SvcRs

/-! ## What operators write -/

/-- A dependency that can be written on a line, within the documented limits. -/
structure Dependency.WellFormed (d : Dependency) : Prop where
  nonempty : d.name ≠ []
  short : d.name.length ≤ nameBuf - 1
  plain : ∀ c ∈ d.name, isNewline c = false ∧ c ≠ 0
  head : ∀ c, d.name.head? = some c → isBlank c = false
  last : ∀ c, d.name.getLast? = some c → isBlank c = false
  /-- Otherwise it reads as a soft one. -/
  unmarked : d.soft = false → d.name.head? ≠ some 63

/-- The text of a line. -/
def lineText (d : Option Dependency) : Bytes := d.elim [] depText

/-- A line for a dependency, or a blank line, with spaces in front and blanks behind. -/
def WritesLine (d : Option Dependency) (line : Bytes) : Prop :=
  ∃ spaces blanks, (∀ c ∈ spaces, c = 32) ∧ (∀ c ∈ blanks, isBlank c = true) ∧
    line = spaces ++ lineText d ++ blanks

/-- How a line may end. -/
inductive LineEnd : Bytes → Prop where
  | lf : LineEnd [10]
  | crlf : LineEnd [13, 10]

/-- The file writes the dependencies in this order. The last line need not be ended. -/
inductive WritesDeps : List Dependency → Bytes → Prop where
  | last {d : Option Dependency} {line : Bytes} (hline : WritesLine d line) : WritesDeps d.toList line
  | line {d : Option Dependency} {line ending : Bytes} {deps : List Dependency} {rest : Bytes}
      (hline : WritesLine d line) (hending : LineEnd ending) (hrest : WritesDeps deps rest) :
      WritesDeps (d.toList ++ deps) (line ++ ending ++ rest)

/-! ## What the parser reads -/

/-- The dependency that a line stands for, if any. -/
def depOfLine (line : Bytes) : Option Dependency :=
  if (cleanDepLine line).length = 0 then none else some (parseDep (cleanDepLine line))

/-- All dependencies of a text. -/
def depLines (data : Bytes) : List Dependency := (data.splitOnP isNewline).filterMap depOfLine

/-- A line adds at most one dependency. -/
theorem depStep_eq (deps : List Dependency) (line : Bytes) :
    depStep deps line = deps ++ (depOfLine line).toList := by
  unfold depStep depOfLine
  split
  · exact (List.append_nil deps).symm
  · rfl

/-- The first 16. -/
theorem parseDeps_eq (data : Bytes) : parseDeps data = (depLines data).take maxDependencies := by
  have hlines : ∀ (lines : List Bytes) (deps : List Dependency), deps.length ≤ maxDependencies →
      lines.foldl (Lines.lineStep (fun deps => deps.length ≥ maxDependencies) depStep) deps =
        (deps ++ lines.filterMap depOfLine).take maxDependencies := by
    intro lines
    induction lines with
    | nil =>
      intro deps hdeps
      rw [List.filterMap_nil, List.append_nil, List.take_of_length_le hdeps]
      rfl
    | cons line lines ih =>
      intro deps hdeps
      have hsplit : (line :: lines).filterMap depOfLine =
          (depOfLine line).toList ++ lines.filterMap depOfLine := by
        cases hone : depOfLine line with
        | none => exact List.filterMap_cons_none hone
        | some d => exact List.filterMap_cons_some hone
      rw [List.foldl_cons, hsplit]
      by_cases hfull : deps.length ≥ maxDependencies
      · -- neither this line nor the next ones are looked at
        have hstep : Lines.lineStep (fun deps => deps.length ≥ maxDependencies) depStep deps line =
            deps := if_pos hfull
        rw [hstep, ih deps hdeps, List.take_append_of_le_length hfull,
          List.take_append_of_le_length hfull]
      · have hstep : Lines.lineStep (fun deps => deps.length ≥ maxDependencies) depStep deps line =
            deps ++ (depOfLine line).toList := (if_neg hfull).trans (depStep_eq deps line)
        have hlen : (depOfLine line).toList.length ≤ 1 := Option.length_toList_le
        have hroom : (deps ++ (depOfLine line).toList).length ≤ maxDependencies := by
          rw [List.length_append]
          omega
        rw [hstep, ih _ hroom, List.append_assoc]
  have hblank : ∀ deps, depStep deps [] = deps := fun deps => if_pos rfl
  unfold parseDeps
  rw [parseDepsLoop_eq, Lines.lineLoop_eq_foldl hblank (Nat.le_refl _)]
  exact hlines _ [] (Nat.zero_le _)

/-! ## Clean lines -/

section

variable {text spaces blanks : Bytes} {c : UInt8}

/-- What was put around the text is taken away. -/
theorem cleanDepLine_text (hspaces : ∀ c ∈ spaces, c = 32) (hblanks : ∀ c ∈ blanks, isBlank c = true)
    (hhead : ∀ c, text.head? = some c → c ≠ 32)
    (hlast : ∀ c, text.getLast? = some c → isBlank c = false) :
    cleanDepLine (spaces ++ text ++ blanks) = text := by
  have hskip : ∀ c ∈ spaces, decide (c = 32) = true := fun c hc => by simp [hspaces c hc]
  unfold cleanDepLine
  rw [trimEnd_eq, List.append_assoc, List.dropWhile_append_of_pos hskip]
  -- the line is blank, or its text begins with a byte that stops the trim
  cases text with
  | nil =>
    rw [List.nil_append]
    exact List.rdropWhile_eq_nil_iff.mpr fun c hc =>
      hblanks c ((List.dropWhile_sublist _).subset hc)
  | cons c text =>
    have hkeep : decide (c = 32) = false := by simp [hhead c rfl]
    rw [List.cons_append, List.dropWhile_cons_of_neg (by simp [hkeep]), ← List.cons_append,
      List.rdropWhile_append_of_pos hblanks, List.rdropWhile_of_getLast? hlast]

/-- A blank at the end of a line does not count. -/
theorem cleanDepLine_snoc_blank (line : Bytes) (hc : isBlank c = true) :
    cleanDepLine (line ++ [c]) = cleanDepLine line := by
  unfold cleanDepLine
  rw [trimEnd_eq, trimEnd_eq, List.dropWhile_append]
  split
  · next hempty =>
    -- nothing but spaces so far
    have hnil : line.dropWhile (fun c => decide (c = 32)) = [] := List.isEmpty_iff.mp hempty
    rw [hnil, List.rdropWhile_nil]
    exact List.rdropWhile_eq_nil_iff.mpr fun b hb => by
      have hmem := (List.dropWhile_sublist _).subset hb
      rw [List.mem_singleton.mp hmem]
      exact hc
  · exact List.rdropWhile_concat_pos _ _ _ hc

/-- Blanks inside a text are kept. -/
theorem cleanDepLine_snoc_lt (line : Bytes) (hc : isBlank c = false) :
    (cleanDepLine line).length < (cleanDepLine (line ++ [c])).length := by
  have hspace : c ≠ 32 := by
    rintro rfl
    exact absurd hc (by decide)
  -- a byte that is no blank survives both the leading and the trailing trim
  have hdrop : (line ++ [c]).dropWhile (fun c => decide (c = 32)) =
      line.dropWhile (fun c => decide (c = 32)) ++ [c] := by
    rw [List.dropWhile_append]
    split
    · next hempty =>
      rw [List.isEmpty_iff.mp hempty]
      simp [hspace]
    · rfl
  have hle := (List.rdropWhile_prefix isBlank (l := line.dropWhile fun c => decide (c = 32))).length_le
  unfold cleanDepLine
  rw [trimEnd_eq, trimEnd_eq, hdrop, List.rdropWhile_concat_neg _ _ _ (by simp [hc]),
    List.length_append, List.length_singleton]
  omega

end

/-! ## Texts that grow -/

/-- The bytes of all lines without the blanks around them. -/
def textLength (data : Bytes) : Nat :=
  ((data.splitOnP isNewline).map fun line => (cleanDepLine line).length).sum

/-- A blank does not end a line. -/
theorem isBlank_not_isNewline {c : UInt8} (h : isBlank c = true) : isNewline c = false := by
  have hcases : c = 32 ∨ c = 9 := by simpa [isBlank] using h
  rcases hcases with rfl | rfl <;> rfl

section

variable {data x y content : Bytes} {c : UInt8} {n : Nat}

/-- A byte that ends no line goes to the last one. -/
theorem splitOnP_snoc (data : Bytes) (hc : isNewline c = false) : ∃ lines line,
    data.splitOnP isNewline = lines ++ [line] ∧
      (data ++ [c]).splitOnP isNewline = lines ++ [line ++ [c]] := by
  obtain ⟨lines, line, hlast⟩ := @Lines.splitOnP_last _ isNewline data
  have hnow := hlast [] (by simp)
  rw [List.append_nil, List.append_nil] at hnow
  exact ⟨lines, line, hnow, hlast [c] (by simpa using hc)⟩

/-- A newline at the end leaves an empty line behind. -/
theorem splitOnP_snoc_newline (data : Bytes) (hc : isNewline c = true) :
    (data ++ [c]).splitOnP isNewline = data.splitOnP isNewline ++ [[]] :=
  List.splitOnP_append_cons data [] hc

/-- A blank or a line end at the end changes nothing. -/
theorem depLines_snoc_space (hc : isSpace c = true) :
    depLines (data ++ [c]) = depLines data ∧ textLength (data ++ [c]) = textLength data := by
  unfold depLines textLength
  cases hnewline : isNewline c with
  -- a newline adds an empty line
  | true =>
    rw [splitOnP_snoc_newline data hnewline]
    have hempty : depOfLine [] = none := rfl
    have hzero : (cleanDepLine []).length = 0 := rfl
    simp [hempty, hzero]
  | false =>
    -- any other space is trimmed from the last line
    have hblank : isBlank c = true := by
      simpa [isSpace, hnewline] using hc
    obtain ⟨lines, line, hdata, hsnoc⟩ := splitOnP_snoc data hnewline
    have hclean := cleanDepLine_snoc_blank line hblank
    have hdep : depOfLine (line ++ [c]) = depOfLine line := by
      unfold depOfLine
      rw [hclean]
    rw [hdata, hsnoc, List.filterMap_append, List.filterMap_append, List.map_append, List.map_append]
    constructor
    · simp [List.filterMap_cons, hdep]
    · simp [hclean]

/-- Any other byte makes the text longer. -/
theorem textLength_snoc_lt (hc : isSpace c = false) :
    textLength data < textLength (data ++ [c]) := by
  obtain ⟨hnewline, hblank⟩ : isNewline c = false ∧ isBlank c = false := by
    simpa [isSpace] using hc
  obtain ⟨lines, line, hdata, hsnoc⟩ := splitOnP_snoc data hnewline
  have hlt := cleanDepLine_snoc_lt line hblank
  unfold textLength
  rw [hdata, hsnoc, List.map_append, List.map_append, List.sum_append, List.sum_append]
  simpa using hlt

/-- White space at the end of the file does not count. -/
theorem depLines_append_space (hy : ∀ c ∈ y, isSpace c = true) : depLines (x ++ y) = depLines x := by
  induction y generalizing x with
  | nil => rw [List.append_nil]
  | cons c y ih =>
    have hc := hy c List.mem_cons_self
    rw [List.append_cons, ih fun b hb => hy b (List.mem_cons_of_mem c hb)]
    exact (depLines_snoc_space hc).1

/-- More text is not shorter. -/
theorem textLength_le_append : textLength x ≤ textLength (x ++ y) := by
  induction y generalizing x with
  | nil => rw [List.append_nil]
  | cons c y ih =>
    rw [List.append_cons]
    refine Nat.le_trans ?_ ih
    cases hc : isSpace c with
    | true => exact Nat.le_of_eq (depLines_snoc_space hc).2.symm
    | false => exact Nat.le_of_lt (textLength_snoc_lt hc)

/-- Text with something to see in it is longer. -/
theorem textLength_lt_append (hc : c ∈ y) (hspace : isSpace c = false) :
    textLength x < textLength (x ++ y) := by
  induction y generalizing x with
  | nil => cases hc
  | cons b y ih =>
    rw [List.append_cons]
    cases List.mem_cons.mp hc with
    | inl hb =>
      rw [← hb]
      exact Nat.lt_of_lt_of_le (textLength_snoc_lt hspace) textLength_le_append
    | inr hmem => exact Nat.lt_of_le_of_lt textLength_le_append (ih hmem)

/-! ## Texts that are cut -/

/-- Only blanks and line ends are cut off. -/
theorem depLines_take (h : (withoutTrailing content).length ≤ n) :
    depLines (content.take n) = depLines content := by
  obtain ⟨blanks, hblanks, hcontent⟩ := withoutTrailing_append content
  have hcut : ∀ c ∈ content.drop n, isSpace c = true := by
    intro c hc
    rw [hcontent, List.drop_append, List.drop_of_length_le h, List.nil_append] at hc
    exact hblanks c (List.mem_of_mem_drop hc)
  calc depLines (content.take n)
      = depLines (content.take n ++ content.drop n) := (depLines_append_space hcut).symm
    _ = depLines content := by rw [List.take_append_drop]

/-- Something else is cut off. -/
theorem textLength_take_lt (h : n < (withoutTrailing content).length) :
    textLength (content.take n) < textLength content := by
  obtain ⟨blanks, -, hcontent⟩ := withoutTrailing_append content
  have hne : withoutTrailing content ≠ [] := by
    intro hnil
    rw [hnil] at h
    exact Nat.not_lt_zero _ h
  have hlast := List.getLast?_eq_some_getLast hne
  have hspace : isSpace ((withoutTrailing content).getLast hne) = false :=
    List.getLast?_rdropWhile hlast
  -- the last byte that counts is among those that are cut off
  have hmem : (withoutTrailing content).getLast hne ∈ content.drop n := by
    have hdrop : ((withoutTrailing content).drop n).getLast? =
        some ((withoutTrailing content).getLast hne) := by
      rw [List.getLast?_drop, if_neg (by omega), hlast]
    have hsplit : content.drop n = (withoutTrailing content).drop n ++ blanks := by
      have happend := congrArg (List.drop n) hcontent
      rwa [List.drop_append_of_le_length (Nat.le_of_lt h)] at happend
    rw [hsplit]
    exact List.mem_append_left _ (List.mem_of_getLast? hdrop)
  have hlt := textLength_lt_append (x := content.take n) hmem hspace
  rwa [List.take_append_drop] at hlt

/-- The dependencies that are found are no longer than the text. -/
theorem depLines_length (data : Bytes) :
    ((depLines data).map fun d => (depText d).length).sum ≤ textLength data := by
  unfold depLines textLength
  -- by induction on the lines
  induction data.splitOnP isNewline with
  | nil => exact Nat.le_refl _
  | cons line lines ih =>
    rw [List.map_cons, List.sum_cons]
    cases hone : depOfLine line with
    | none =>
      -- an empty line counts for nothing
      rw [List.filterMap_cons_none hone]
      omega
    | some d =>
      have hdep : (depText d).length ≤ (cleanDepLine line).length := by
        unfold depOfLine at hone
        split at hone
        · cases hone
        · rw [← Option.some.inj hone]
          exact parseDep_length _
      rw [List.filterMap_cons_some hone, List.map_cons, List.sum_cons]
      omega

end

/-! ## Reading back what was written -/

section

variable {d : Option Dependency} {dep : Dependency} {deps : List Dependency} {line content : Bytes}

/-- The text of a dependency does not begin with a blank. -/
theorem depText_head (h : dep.WellFormed) : ∀ c, (depText dep).head? = some c → c ≠ 32 := by
  intro c hc
  unfold depText at hc
  cases hsoft : dep.soft with
  | true =>
    rw [hsoft, if_pos rfl] at hc
    -- 63 is the question mark
    obtain rfl : 63 = c := by simpa [bytesOf] using hc
    decide
  | false =>
    rw [hsoft, if_neg (by decide), List.nil_append] at hc
    have hblank := h.head c hc
    rintro rfl
    exact absurd hblank (by decide)

/-- The text of a dependency does not end with a blank. -/
theorem depText_last (h : dep.WellFormed) :
    ∀ c, (depText dep).getLast? = some c → isBlank c = false := by
  intro c hc
  unfold depText at hc
  rw [List.getLast?_append_of_ne_nil _ h.nonempty] at hc
  exact h.last c hc

/-- The parser undoes the marker. -/
theorem parseDep_depText (h : dep.WellFormed) : parseDep (depText dep) = dep := by
  have hname : dep.name.take (nameBuf - 1) = dep.name := List.take_of_length_le h.short
  obtain ⟨name, soft⟩ := dep
  unfold depText parseDep
  cases soft with
  | true =>
    show ({ name := name.take (nameBuf - 1), soft := true } : Dependency) = _
    rw [show name.take (nameBuf - 1) = name from hname]
  | false =>
    dsimp only
    rw [if_neg (by decide), List.nil_append]
    split
    -- a name that is no soft dependency does not begin with the mark
    · exact absurd rfl (h.unmarked rfl)
    · rw [show name.take (nameBuf - 1) = name from hname]

/-- What is left of the line is the text of the dependency. -/
theorem WritesLine.clean (h : WritesLine d line) (hd : ∀ dep, d = some dep → dep.WellFormed) :
    cleanDepLine line = lineText d := by
  obtain ⟨spaces, blanks, hspaces, hblanks, rfl⟩ := h
  cases d with
  | none => exact cleanDepLine_text hspaces hblanks nofun nofun
  | some dep =>
    have hdep := hd dep rfl
    exact cleanDepLine_text hspaces hblanks (depText_head hdep) (depText_last hdep)

/-- The line is read as the dependency that it was written for. -/
theorem WritesLine.read (h : WritesLine d line) (hd : ∀ dep, d = some dep → dep.WellFormed) :
    depOfLine line = d := by
  unfold depOfLine
  rw [h.clean hd]
  cases d with
  | none => rfl
  | some dep =>
    have hdep := hd dep rfl
    -- a name of a service is not empty, so the line is not skipped
    have hne : (depText dep).length ≠ 0 := by
      have hpos := List.length_pos_iff.mpr hdep.nonempty
      unfold depText
      rw [List.length_append]
      omega
    exact (if_neg hne).trans (congrArg some (parseDep_depText hdep))

/-- It is a line. -/
theorem WritesLine.plain (h : WritesLine d line) (hd : ∀ dep, d = some dep → dep.WellFormed) :
    ∀ c ∈ line, isNewline c = false := by
  obtain ⟨spaces, blanks, hspaces, hblanks, rfl⟩ := h
  intro c hc
  -- the line consists of leading spaces, an optional `?`, the name and trailing blanks
  rcases List.mem_append.mp hc with hc | hc
  · rcases List.mem_append.mp hc with hc | hc
    · rw [hspaces c hc]
      rfl
    · cases d with
      | none => cases hc
      | some dep =>
        have hdep := hd dep rfl
        rcases List.mem_append.mp hc with hc | hc
        · cases hsoft : dep.soft with
          | true =>
            rw [hsoft, if_pos rfl] at hc
            -- 63 is the question mark
            obtain rfl : c = 63 := by simpa [bytesOf] using hc
            rfl
          | false =>
            rw [hsoft, if_neg (by decide)] at hc
            cases hc
        · exact (hdep.plain c hc).1
  · exact isBlank_not_isNewline (hblanks c hc)

/-- A line and its end. -/
theorem WritesDeps.line_lines {ending : Bytes} (rest : Bytes) (hline : WritesLine d line)
    (hd : ∀ dep, d = some dep → dep.WellFormed) (hending : LineEnd ending) :
    depLines (line ++ ending ++ rest) = d.toList ++ depLines rest ∧
      textLength (line ++ ending ++ rest) = (lineText d).length + textLength rest := by
  have hplain := hline.plain hd
  have hread := hline.read hd
  have hclean := hline.clean hd
  have hcons : ∀ lines : List Bytes, (line :: lines).filterMap depOfLine =
      d.toList ++ lines.filterMap depOfLine := by
    intro lines
    cases d with
    | none => exact List.filterMap_cons_none hread
    | some dep => exact List.filterMap_cons_some hread
  have hempty : depOfLine [] = none := rfl
  have hzero : (cleanDepLine []).length = 0 := rfl
  unfold depLines textLength
  cases hending with
  | lf =>
    rw [List.append_assoc, List.singleton_append,
      List.splitOnP_append_cons_of_forall_mem hplain 10 rfl, hcons, List.map_cons, List.sum_cons,
      hclean]
    exact ⟨rfl, rfl⟩
  | crlf =>
    -- the parser sees an empty line between the two bytes
    have hlf : (10 :: rest).splitOnP isNewline = [] :: rest.splitOnP isNewline := by
      rw [List.splitOnP_cons_eq_if_modifyHead]
      rfl
    rw [List.append_assoc, List.cons_append, List.singleton_append,
      List.splitOnP_append_cons_of_forall_mem hplain 13 rfl, hlf, hcons, List.map_cons,
      List.sum_cons, hclean, List.filterMap_cons_none hempty, List.map_cons, List.sum_cons, hzero,
      Nat.zero_add]
    exact ⟨rfl, rfl⟩

/-- The lines of a file that writes dependencies hold these, and nothing else. -/
theorem WritesDeps.lines (h : WritesDeps deps content) (hdeps : ∀ dep ∈ deps, dep.WellFormed) :
    depLines content = deps ∧
      textLength content = (deps.map fun d => (depText d).length).sum := by
  -- the last line has no newline behind it
  induction h with
  | @last d line hline =>
    have hd : ∀ dep, d = some dep → dep.WellFormed := fun dep he => hdeps dep (by simp [he])
    have hread := hline.read hd
    have hclean := hline.clean hd
    unfold depLines textLength
    rw [List.splitOnP_eq_singleton (hline.plain hd)]
    cases d with
    | none => simp [hread, hclean, lineText]
    | some dep => simp [hread, hclean, lineText]
  | @line d line ending deps rest hline hending hrest ih =>
    have hd : ∀ dep, d = some dep → dep.WellFormed := fun dep he =>
      hdeps dep (List.mem_append_left _ (by simp [he]))
    obtain ⟨hlines, hlength⟩ := WritesDeps.line_lines rest hline hd hending
    obtain ⟨ihlines, ihlength⟩ := ih fun dep hmem => hdeps dep (List.mem_append_right _ hmem)
    rw [hlines, hlength, ihlines, ihlength]
    cases d with
    | none => simp [lineText]
    | some dep => simp [lineText]

/-- The parser gets the list back if and only if no part of it is cut off. -/
theorem parseDeps_take_iff (h : WritesDeps deps content) (hdeps : ∀ dep ∈ deps, dep.WellFormed)
    (hlen : deps.length ≤ maxDependencies) (n : Nat) :
    parseDeps (content.take n) = deps ↔ (withoutTrailing content).length ≤ n := by
  obtain ⟨hlines, hlength⟩ := h.lines hdeps
  rw [parseDeps_eq]
  constructor
  · intro hparse
    by_contra hcut
    have hlt := textLength_take_lt (Nat.lt_of_not_le hcut)
    -- without a byte that is no trailing space, the text is too short for all of `deps`
    have hfound := depLines_length (content.take n)
    have hprefix : (((depLines (content.take n)).take maxDependencies).map fun d =>
        (depText d).length).sum ≤ ((depLines (content.take n)).map fun d => (depText d).length).sum := by
      have hsplit := congrArg (fun l => (l.map fun d => (depText d).length).sum)
        (List.take_append_drop maxDependencies (depLines (content.take n)))
      simp only [List.map_append, List.sum_append] at hsplit
      omega
    rw [hparse] at hprefix
    omega
  · intro hfits
    rw [depLines_take hfits, hlines, List.take_of_length_le hlen]

end

/-! ## The record -/

/-- The later files leave the dependencies alone. -/
theorem loadRest_deps (s : Service) (k : Kernel) : (loadRest s k).1.deps = s.deps := by
  have hcalm : Calm (loadRest s) fun s' => s'.core = s.core := by
    apply (parseUserGroup_calm _).bind
    intro s₁ h₁
    apply (prepareServiceEnv_calm s₁).bind
    intro s₂ h₂
    apply (writeStatusFile_calm s₂).seq
    intro _
    exact StateM.Keeps.pure (h₂.trans h₁)
  exact congrArg Core.deps (hcalm.post k)

/-- `depends` is the third thing that is looked for. -/
theorem buildService_deps (name : Bytes) (dir : CStrBuf) (k : Kernel) :
    (buildService name dir k).1.deps =
      (((k.oracle (k.calls + 2)).fs.read (joinPath dir.bytes "/depends")).map
        fun data => parseDeps (data.take depFileBuf)).getD [] := by
  rw [buildService_eq]
  simp only [Sys.bind_apply]
  rw [loadRest_deps, (looked_frame ..).2.2.1]
  show ((((k.oracle (k.calls + 2)).fs.read (joinPath dir.bytes "/depends")).map
    (List.take depFileBuf)).map parseDeps).getD [] = _
  rw [Option.map_map]
  rfl

/-- The dependencies in the new record are those that the operator wrote, in files of this
    length. -/
theorem depends_recorded_iff {deps : List Dependency} {content : Bytes} {w : World} {i : Nat}
    {name : Bytes} {dir : CStrBuf} (hlen : deps.length ≤ maxDependencies)
    (hdeps : ∀ dep ∈ deps, dep.WellFormed) (hwrites : WritesDeps deps content)
    (hfree : (w.findSlot fun s => !s.active) = some i)
    (hread : (w.k.oracle (w.k.calls + 2)).fs.read (joinPath dir.bytes "/depends") = some content) :
    ((addService name dir w).2.svc i).deps = deps ↔
      (withoutTrailing content).length ≤ depFileBuf := by
  have hadd : (addService name dir w).2 = (onSlot i (fun _ => newService i name dir) w).2 := by
    unfold addService
    rw [Sup.get_bind, hfree]
  -- the record holds what is read from the first 512 bytes
  have hrecord : ((addService name dir w).2.svc i).deps = parseDeps (content.take depFileBuf) := by
    rw [hadd, onSlot_svc, if_pos rfl]
    show (buildService name dir w.k).1.deps = _
    rw [buildService_deps, hread]
    rfl
  rw [hrecord]
  exact parseDeps_take_iff hwrites hdeps hlen depFileBuf

/-! ## Two files -/

/-- One line for each dependency and nothing else. -/
theorem writes_plain (deps : List Dependency) :
    WritesDeps deps (deps.flatMap fun d => depText d ++ [10]) := by
  induction deps with
  | nil =>
    have hblank : WritesLine none [] := ⟨[], [], by simp, by simp, rfl⟩
    exact .last hblank
  | cons d deps ih =>
    have hline : WritesLine (some d) (depText d) :=
      ⟨[], [], by simp, by simp, (List.append_nil _).symm⟩
    exact .line hline .lf ih

/-- `count` dependencies with names of 60 bytes: `aaa...`, `bbb...` and so on. -/
def longDeps (count : Nat) : List Dependency :=
  (List.range count).map fun i => { name := List.replicate 60 (97 + i).toUInt8, soft := false }

/-- A depends file with `count` long names. -/
def longFile (count : Nat) : Bytes := (longDeps count).flatMap fun d => depText d ++ [10]

/-- A service `a` with this `depends` file. -/
def dependsFiles (content : Bytes) : FileSys where
  access path _ := path = bytesOf "/s/a/run"
  read path := if path = bytesOf "/s/a/depends" then some content else none

/-- Before the first scan. -/
def dependsWorld (count : Nat) : World := (bootOn (dependsFiles (longFile count))).world

/-- These names are valid. -/
theorem longDeps_wellFormed {count : Nat} (hcount : count ≤ 16) :
    ∀ d ∈ longDeps count, d.WellFormed := by
  intro d hd
  obtain ⟨i, hi, rfl⟩ := List.mem_map.mp hd
  have hlt : i < 16 := Nat.lt_of_lt_of_le (List.mem_range.mp hi) hcount
  -- the sixteen letters from `a` on, of which each name repeats one
  have hall : ∀ i < 16, isNewline (97 + i).toUInt8 = false ∧ (97 + i).toUInt8 ≠ 0 ∧
      isBlank (97 + i).toUInt8 = false ∧ (97 + i).toUInt8 ≠ 63 := by decide
  obtain ⟨hnewline, hnul, hblank, hmark⟩ := hall i hlt
  have hmem : ∀ c ∈ List.replicate 60 (97 + i).toUInt8, c = (97 + i).toUInt8 := fun c hc =>
    List.eq_of_mem_replicate hc
  refine ⟨nofun, ?_, fun c hc => ?_, fun c hc => ?_, fun c hc => ?_, fun _ hhead => ?_⟩
  · show (List.replicate 60 (97 + i).toUInt8).length ≤ nameBuf - 1
    rw [List.length_replicate]
    decide
  · rw [hmem c hc]
    exact ⟨hnewline, hnul⟩
  · rw [hmem c (List.mem_of_mem_head? hc)]
    exact hblank
  · rw [hmem c (List.mem_of_getLast? hc)]
    exact hblank
  · exact hmark (Option.some.inj hhead)

/-- Eight of them fit in the buffer. -/
theorem depends_recorded_eight :
    ((addService (bytesOf "a") (CStrBuf.fromBytes (bytesOf "/s/a")) (dependsWorld 8)).2.svc 0).deps =
      longDeps 8 := by
  have hworld : ((dependsWorld 8).findSlot fun s => !s.active) = some 0 ∧
      ((dependsWorld 8).k.oracle ((dependsWorld 8).k.calls + 2)).fs.read
        (joinPath (CStrBuf.fromBytes (bytesOf "/s/a")).bytes "/depends") = some (longFile 8) ∧
      (withoutTrailing (longFile 8)).length ≤ depFileBuf := by decide +kernel
  exact (depends_recorded_iff (by decide) (longDeps_wellFormed (by decide)) (writes_plain _)
    hworld.1 hworld.2.1).mpr hworld.2.2

/-- Nine are well within the documented limits, but the last one is recorded under the name that
    is left of it. -/
theorem depends_cut :
    ((longDeps 9).length ≤ maxDependencies ∧ (∀ d ∈ longDeps 9, d.WellFormed) ∧
      WritesDeps (longDeps 9) (longFile 9)) ∧
    ((dependsWorld 9).findSlot fun s => !s.active) = some 0 ∧
    ((dependsWorld 9).k.oracle ((dependsWorld 9).k.calls + 2)).fs.read
        (joinPath (CStrBuf.fromBytes (bytesOf "/s/a")).bytes "/depends") = some (longFile 9) ∧
    ((addService (bytesOf "a") (CStrBuf.fromBytes (bytesOf "/s/a")) (dependsWorld 9)).2.svc 0).deps =
      longDeps 8 ++ [{ name := List.replicate 24 105, soft := false }] ∧
    ((addService (bytesOf "a") (CStrBuf.fromBytes (bytesOf "/s/a")) (dependsWorld 9)).2.svc 0).deps ≠
      longDeps 9 := by
  refine ⟨⟨by decide, longDeps_wellFormed (by decide), writes_plain _⟩, ?_⟩
  decide +kernel

end SvcRs
