import SvcRs.ForStd.Lines
import SvcRs.Spec.Run

/-!
# The `env` file

`read_env` packs the assignments of the file into `env_buf`, one NUL behind each, and
records where they start. The spec is in terms of the lines of the file; the loop is a fold
over them.

## Key results

- `storeEnvLine_holds`: one line, as a step of the packed block
- `readEnvLoop_holds`: the block after the loop holds the lines that fit
- `storedLines_eq_take`: in a file that fits in the buffer these are the first 64 assignments
- `readEnvLoop_checked`: no write is out of bounds
- `read_env_exact`: what `env_ptrs` points to, for every file
-/

namespace SvcRs

open Lines (lineLoop lineStep)

/-! ## The assignments in a file -/

/-- A line without the blanks around it. -/
def stripBlanks (line : Bytes) : Bytes := trimEnd isBlank (line.dropWhile isBlank)

/-- A line that is no comment and has a key and an `=`. -/
structure IsAssignment (line : Bytes) : Prop where
  notComment : line.head? ≠ some 35
  key : ∃ key value, key ≠ [] ∧ (61 : UInt8) ∉ key ∧ line = key ++ 61 :: value

/-- The test of the source, which looks for the first `=`. -/
theorem isAssignment_iff {line : Bytes} : IsAssignment line ↔
    0 < line.length ∧ line.head? ≠ some 35 ∧ 0 < line.findIdx (· = 61) ∧
      line.findIdx (· = 61) < line.length := by
  constructor
  -- 35 is `#`, 61 is `=`: the first `=` stands right behind the key
  · rintro ⟨hcomment, key, value, hne, hnot, rfl⟩
    have hpos : 0 < key.length := List.length_pos_iff.mpr hne
    have hidx : (key ++ 61 :: value).findIdx (· = 61) = key.length := by
      have hkey : key.findIdx (· = 61) = key.length := by
        apply List.findIdx_eq_length.mpr
        intro c hc
        simpa using fun he : c = 61 => hnot (he ▸ hc)
      rw [List.findIdx_append, hkey]
      simp [List.findIdx_cons]
    rw [hidx, List.length_append, List.length_cons]
    exact ⟨by omega, hcomment, hpos, by omega⟩
  · rintro ⟨-, hcomment, hpos, hlt⟩
    -- the line is split at its first `=`
    refine ⟨hcomment, line.take (line.findIdx (· = 61)), line.drop (line.findIdx (· = 61) + 1), ?_,
      ?_, ?_⟩
    · intro hnil
      rw [List.take_eq_nil_iff] at hnil
      rcases hnil with hzero | hempty
      · omega
      · simp [hempty] at hlt
    -- before the first `=` there is none
    · intro hmem
      obtain ⟨n, hn, hget⟩ := List.mem_take_iff_getElem.mp hmem
      have hfirst : n < line.findIdx (· = 61) := by omega
      have hbefore := List.not_of_lt_findIdx hfirst
      simp [hget] at hbefore
    · have hget : (line)[line.findIdx (· = 61)] = 61 := by
        simpa using List.findIdx_getElem (w := hlt)
      conv => lhs; rw [← List.take_append_drop (line.findIdx (· = 61)) line]
      rw [List.drop_eq_getElem_cons hlt, hget]

instance (line : Bytes) : Decidable (IsAssignment line) := decidable_of_iff _ isAssignment_iff.symm

/-- The assignments among the stripped lines. -/
def assignments (lines : List Bytes) : List Bytes :=
  (lines.map stripBlanks).filter fun line => decide (IsAssignment line)

/-- The assignments in a file. -/
noncomputable def envAssignments (data : Bytes) : List Bytes := assignments (data.splitOnP isNewline)

/-! ## The packed block -/

/-- The strings with their NULs, one behind the other. -/
def packed (lines : List Bytes) : Bytes := lines.flatMap fun line => line ++ [0]

/-- Where they start and how long they are. -/
def regions : Nat → List Bytes → List (Nat × Nat)
  | _, [] => []
  | pos, line :: lines => (pos, line.length) :: regions (pos + line.length + 1) lines

/-- `env_buf` and `env_ptrs` have their sizes. -/
structure EnvBlock.Sized (env : EnvBlock) : Prop where
  buf : env.buf.length = envBuf
  ptrs : env.ptrs.length = maxEnvVars + 1

/-- The strings are at the beginning of `env_buf`, up to `pos`. -/
structure EnvBlock.Holds (env : EnvBlock) (pos : Nat) (lines : List Bytes) : Prop where
  sized : env.Sized
  count : env.count = lines.length
  few : lines.length ≤ maxEnvVars
  position : pos = (packed lines).length
  fits : pos ≤ envBuf
  buf : env.buf.take pos = packed lines
  ptrs : env.ptrs.take env.count = (regions 0 lines).map fun r => some r.1

section

variable {env : EnvBlock} {pos : Nat} {lines : List Bytes}

/-- No lines. -/
@[simp] theorem packed_nil : packed [] = [] := rfl

/-- Every line is followed by a NUL. -/
@[simp] theorem packed_cons (line : Bytes) (lines : List Bytes) :
    packed (line :: lines) = line ++ 0 :: packed lines := by
  simp [packed]

/-- The last line comes last. -/
theorem packed_concat (lines : List Bytes) (line : Bytes) :
    packed (lines ++ [line]) = packed lines ++ (line ++ [0]) := by
  simp [packed]

/-- It begins where the others end. -/
theorem regions_concat (pos : Nat) (lines : List Bytes) (line : Bytes) :
    regions pos (lines ++ [line]) =
      regions pos lines ++ [(pos + (packed lines).length, line.length)] := by
  induction lines generalizing pos with
  | nil => rfl
  | cons first lines ih =>
    simp only [List.cons_append, regions, ih, packed_cons, List.length_append, List.length_cons]
    have hpos : pos + first.length + 1 + (packed lines).length =
        pos + (first.length + ((packed lines).length + 1)) := by omega
    rw [hpos]

/-- Writing in place keeps the length. -/
theorem writeAt_length {buf b : Bytes} (h : pos + b.length ≤ buf.length) :
    (writeAt buf pos b).length = buf.length := by
  simp only [writeAt, List.length_append, List.length_take, List.length_drop]
  omega

/-- What is in front of the new bytes stays. -/
theorem writeAt_take {buf b : Bytes} (h : pos + b.length ≤ buf.length) :
    (writeAt buf pos b).take (pos + b.length) = buf.take pos ++ b := by
  have hlen : (buf.take pos ++ b).length = pos + b.length := by
    rw [List.length_append, List.length_take]
    omega
  unfold writeAt
  rw [← hlen, List.take_left']
  rfl

/-- A line that fits is packed behind the others. -/
theorem EnvBlock.Holds.store (h : env.Holds pos lines) (hroom : lines.length < maxEnvVars)
    {line : Bytes} (hfits : pos + line.length + 1 ≤ envBuf) :
    EnvBlock.Holds { buf := writeAt env.buf pos (line ++ [0])
                     ptrs := env.ptrs.set env.count (some pos)
                     count := env.count + 1 } (pos + line.length + 1) (lines ++ [line]) := by
  -- the string and its NUL fit behind what is stored already
  have hlen : pos + (line ++ [0]).length ≤ env.buf.length := by
    rw [h.sized.buf, List.length_append, List.length_singleton]
    omega
  have hcount : env.count < env.ptrs.length := by
    rw [h.count, h.sized.ptrs]
    omega
  constructor
  · exact ⟨(writeAt_length hlen).trans h.sized.buf, by rw [List.length_set, h.sized.ptrs]⟩
  · rw [List.length_append, List.length_singleton, h.count]
  · rw [List.length_append, List.length_singleton]
    omega
  -- the new position is where the next string will be stored
  · rw [packed_concat, List.length_append, ← h.position, List.length_append, List.length_singleton]
    omega
  · exact hfits
  · have htake := writeAt_take hlen
    rw [List.length_append, List.length_singleton] at htake
    rw [packed_concat, ← h.buf]
    exact htake
  -- the pointers of the earlier strings are not overwritten
  · show (env.ptrs.set env.count (some pos)).take (env.count + 1) = _
    rw [List.take_add_one, List.take_set_of_le (Nat.le_refl _), List.getElem?_set_self hcount, h.ptrs,
      regions_concat, List.map_append, h.position]
    simp

/-- The next line is kept if there is room for it and its NUL. -/
def keepLine (lines : List Bytes) (line : Bytes) : List Bytes :=
  if (packed lines).length + line.length + 1 ≤ envBuf then lines ++ [line] else lines

/-- The assignments that are kept, in front of which `lines` are kept already. -/
def keptLines (lines : List Bytes) (more : List Bytes) : List Bytes :=
  more.foldl (lineStep (fun lines => maxEnvVars ≤ lines.length) keepLine) lines

/-- The assignments of a file that get into `env_buf`. -/
noncomputable def storedLines (data : Bytes) : List Bytes := keptLines [] (envAssignments data)

/-- One line of the file. -/
def storeRaw (st : Nat × EnvBlock) (line : Bytes) : Nat × EnvBlock :=
  storeEnvLine (stripBlanks line) st.1 st.2

/-- A line without an assignment is skipped. -/
theorem storeEnvLine_skip {line : Bytes} (h : ¬IsAssignment line) :
    storeEnvLine line pos env = (pos, env) := by
  unfold storeEnvLine
  rw [isAssignment_iff] at h
  exact if_neg h

/-- One line. -/
theorem storeEnvLine_holds (h : env.Holds pos lines) (hroom : lines.length < maxEnvVars)
    {line : Bytes} (hline : IsAssignment line) :
    (storeEnvLine line pos env).2.Holds (storeEnvLine line pos env).1 (keepLine lines line) := by
  -- the four tests of the source come to one on the line and one on the room
  have hstore : storeEnvLine line pos env = if pos + line.length + 1 ≤ envBuf then
      (pos + line.length + 1,
        { buf := writeAt env.buf pos (line ++ [0])
          ptrs := env.ptrs.set env.count (some pos)
          count := env.count + 1 })
      else (pos, env) := if_pos (isAssignment_iff.mp hline)
  rw [hstore]
  unfold keepLine
  rw [← h.position]
  by_cases hfits : pos + line.length + 1 ≤ envBuf
  · rw [if_pos hfits, if_pos hfits]
    exact h.store hroom hfits
  · rw [if_neg hfits, if_neg hfits]
    exact h

/-- By induction on the lines of the file, of which the assignments count. -/
theorem foldl_holds (h : env.Holds pos lines) (raw : List Bytes) :
    (raw.foldl (lineStep (fun st => maxEnvVars ≤ st.2.count) storeRaw) (pos, env)).2.Holds
      (raw.foldl (lineStep (fun st => maxEnvVars ≤ st.2.count) storeRaw) (pos, env)).1
      (keptLines lines (assignments raw)) := by
  -- by induction on the lines; the code and the specification give up at the same line
  induction raw generalizing env pos lines with
  | nil => exact h
  | cons line raw ih =>
    have hfull : (maxEnvVars ≤ env.count) ↔ maxEnvVars ≤ lines.length := by rw [h.count]
    rw [List.foldl_cons]
    by_cases hline : IsAssignment (stripBlanks line)
    · have hmore : keptLines lines (assignments (line :: raw)) = keptLines
          (lineStep (fun lines => maxEnvVars ≤ lines.length) keepLine lines (stripBlanks line))
          (assignments raw) := by
        simp only [assignments, List.map_cons, List.filter_cons, hline, decide_true, if_true, keptLines,
          List.foldl_cons]
      rw [hmore]
      by_cases hroom : maxEnvVars ≤ lines.length
      · rw [lineStep, if_pos (hfull.mpr hroom), lineStep, if_pos hroom]
        exact ih h
      · rw [lineStep, if_neg (fun hle => hroom (hfull.mp hle)), lineStep, if_neg hroom]
        exact ih (storeEnvLine_holds h (Nat.not_le.mp hroom) hline)
    -- comments, empty lines and lines without a key are skipped by both
    · have hmore : assignments (line :: raw) = assignments raw := by
        simp only [assignments, List.map_cons, List.filter_cons, hline, decide_false, Bool.false_eq_true,
          if_false]
      have hsame : lineStep (fun st => maxEnvVars ≤ st.2.count) storeRaw (pos, env) line =
          (pos, env) := by
        unfold lineStep
        split
        · rfl
        · exact storeEnvLine_skip hline
      rw [hmore, hsame]
      exact ih h

/-- The loop of the source is a line loop. -/
theorem readEnvLoop_eq_lineLoop (fuel : Nat) (data : Bytes) (pos : Nat) (env : EnvBlock) :
    readEnvLoop fuel data pos env =
      (lineLoop isNewline (fun st => maxEnvVars ≤ st.2.count) storeRaw fuel data (pos, env)).2 := by
  induction fuel generalizing data pos env with
  | zero => rfl
  | succ fuel ih =>
    unfold readEnvLoop lineLoop
    by_cases hdone : data.length = 0 ∨ maxEnvVars ≤ env.count
    · rw [if_pos hdone, if_pos hdone]
    · rw [if_neg hdone, if_neg hdone]
      exact ih _ _ _

/-- An empty line. -/
theorem stripBlanks_nil : stripBlanks [] = [] := rfl

/-- The block after the loop holds the assignments that are kept. -/
theorem readEnvLoop_holds (h : env.Holds 0 []) (data : Bytes) :
    ∃ pos, (readEnvLoop data.length data 0 env).Holds pos (storedLines data) := by
  have hnil : ∀ st : Nat × EnvBlock, storeRaw st [] = st := by
    intro st
    exact storeEnvLine_skip fun hline => by simpa [stripBlanks_nil] using (isAssignment_iff.mp hline).1
  rw [readEnvLoop_eq_lineLoop, Lines.lineLoop_eq_foldl hnil (Nat.le_refl _)]
  exact ⟨_, foldl_holds h _⟩

/-! ## A file that fits -/

/-- Stripping only takes bytes away. -/
theorem stripBlanks_sublist (line : Bytes) : (stripBlanks line).Sublist line := by
  unfold stripBlanks trimEnd
  have hend := (List.dropWhile_sublist isBlank (l := (line.dropWhile isBlank).reverse)).reverse
  rw [List.reverse_reverse] at hend
  exact hend.trans (List.dropWhile_sublist isBlank)

/-- Stripped lines that are left out take no room. -/
theorem sum_assignments_le (raw : List Bytes) :
    ((assignments raw).map fun line => line.length + 1).sum ≤
      (raw.map fun line => line.length + 1).sum := by
  induction raw with
  | nil => simp [assignments]
  | cons line raw ih =>
    have hlen := (stripBlanks_sublist line).length_le
    unfold assignments at ih ⊢
    rw [List.map_cons, List.filter_cons]
    split <;> simp only [List.map_cons, List.sum_cons] <;> omega

/-- Every line needs one byte more than it has. -/
theorem length_packed (lines : List Bytes) :
    (packed lines).length = (lines.map fun line => line.length + 1).sum := by
  induction lines with
  | nil => rfl
  | cons line lines ih =>
    rw [packed_cons, List.length_append, List.length_cons, ih, List.map_cons, List.sum_cons]
    omega

/-- If there is room for all, the first 64 are kept. -/
theorem keptLines_eq_take (lines more : List Bytes)
    (hfits : (packed lines).length + (more.map fun line => line.length + 1).sum ≤ envBuf) :
    keptLines lines more = lines ++ more.take (maxEnvVars - lines.length) := by
  -- by induction on the lines to come
  induction more generalizing lines with
  | nil => simp [keptLines]
  | cons line more ih =>
    rw [List.map_cons, List.sum_cons] at hfits
    show keptLines (lineStep _ _ lines line) more = _
    -- with all the pointers in use, neither side takes another line
    by_cases hroom : maxEnvVars ≤ lines.length
    · rw [lineStep, if_pos hroom, ih lines (by omega), Nat.sub_eq_zero_of_le hroom]
      rfl
    · have hkeep : keepLine lines line = lines ++ [line] := if_pos (by omega)
      rw [lineStep, if_neg hroom, hkeep, ih]
      · have hleft : maxEnvVars - lines.length = maxEnvVars - (lines ++ [line]).length + 1 := by
          rw [List.length_append, List.length_singleton]
          omega
        rw [hleft, List.take_succ_cons, List.append_assoc]
        rfl
      -- the line that was stored counts on the other side now
      · rw [length_packed, List.map_append, List.sum_append, ← length_packed]
        simp only [List.map_cons, List.map_nil, List.sum_cons, List.sum_nil]
        omega

/-- A file that fits in the buffer loses only what exceeds the number of variables. -/
theorem storedLines_eq_take {data : Bytes} (h : data.length < envBuf) :
    storedLines data = (envAssignments data).take maxEnvVars := by
  have hroom : (packed []).length + ((envAssignments data).map fun line => line.length + 1).sum ≤
      envBuf := by
    have hle := sum_assignments_le (data.splitOnP isNewline)
    rw [Lines.sum_length_splitOnP] at hle
    rw [packed_nil, List.length_nil]
    unfold envAssignments
    omega
  exact keptLines_eq_take [] (envAssignments data) hroom

/-! ## Strings -/

/-- The NUL-terminated string at an offset of the buffer; `none` if there is no NUL behind it. -/
def stringAt (buf : Bytes) (p : Nat) : Option Bytes :=
  if (0 : UInt8) ∈ buf.drop p then some ((buf.drop p).takeWhile fun c => c ≠ 0) else none

/-- What `env_ptrs[0..env_count]` point to. -/
def EnvBlock.strings (env : EnvBlock) : List (Option Bytes) :=
  (env.ptrs.take env.count).map fun p => p.bind (stringAt env.buf)

/-- A line up to its first NUL. -/
def cut (line : Bytes) : Bytes := line.takeWhile fun c => c ≠ 0

/-- A string in the buffer ends at the first NUL. -/
theorem cut_append (line rest : Bytes) :
    (line ++ 0 :: rest).takeWhile (fun c => c ≠ 0) = cut line := by
  induction line with
  | nil => simp [cut]
  | cons c line ih =>
    unfold cut at ih ⊢
    by_cases hc : c = 0
    · simp [hc]
    · simpa [hc] using ih

/-- A line without NUL is not cut. -/
theorem cut_eq_self {line : Bytes} (h : (0 : UInt8) ∉ line) : cut line = line := by
  induction line with
  | nil => rfl
  | cons c line ih =>
    rw [List.mem_cons, not_or] at h
    have hrest := ih h.2
    unfold cut at hrest ⊢
    rw [List.takeWhile_cons_of_pos (by simpa using fun he : c = 0 => h.1 he.symm), hrest]

/-- The string that begins at a line of the buffer. -/
theorem stringAt_packed {buf : Bytes} {p : Nat} {line rest : Bytes}
    (h : buf.drop p = line ++ 0 :: rest) : stringAt buf p = some (cut line) := by
  unfold stringAt
  rw [h, if_pos (by simp), cut_append]

/-- By induction on the packed lines from an offset on. -/
theorem strings_of_drop {buf rest : Bytes} {p : Nat} (h : buf.drop p = packed lines ++ rest) :
    (regions p lines).map (fun r => stringAt buf r.1) = lines.map fun line => some (cut line) := by
  induction lines generalizing p with
  | nil => rfl
  | cons line lines ih =>
    rw [packed_cons, List.append_assoc, List.cons_append] at h
    have hnext : buf.drop (p + line.length + 1) = packed lines ++ rest := by
      rw [Nat.add_assoc, ← List.drop_drop, h, ← List.singleton_append, ← List.append_assoc]
      exact List.drop_left' (by simp)
    simp only [regions, List.map_cons, ih hnext, stringAt_packed h]

/-- The regions end with a NUL each, and do not overlap. -/
theorem regions_of_drop {buf rest : Bytes} {p : Nat} (h : buf.drop p = packed lines ++ rest) :
    (∀ r ∈ regions p lines, p ≤ r.1 ∧ buf[r.1 + r.2]? = some 0) ∧
      (regions p lines).Pairwise fun r r' => r.1 + r.2 < r'.1 := by
  induction lines generalizing p with
  | nil => exact ⟨by simp [regions], .nil⟩
  | cons line lines ih =>
    rw [packed_cons, List.append_assoc, List.cons_append] at h
    have hnext : buf.drop (p + line.length + 1) = packed lines ++ rest := by
      rw [Nat.add_assoc, ← List.drop_drop, h, ← List.singleton_append, ← List.append_assoc]
      exact List.drop_left' (by simp)
    -- the byte behind the line is its NUL
    have hnul : buf[p + line.length]? = some 0 := by
      rw [← List.getElem?_drop, h]
      simp
    obtain ⟨hends, hapart⟩ := ih hnext
    constructor
    · intro r hr
      rcases List.mem_cons.mp hr with rfl | hr
      · exact ⟨Nat.le_refl _, hnul⟩
      · obtain ⟨hle, hend⟩ := hends r hr
        exact ⟨by omega, hend⟩
    -- the next regions all begin behind that NUL
    · apply List.Pairwise.cons
      · intro r hr
        have hle := (hends r hr).1
        show p + line.length < r.1
        omega
      · exact hapart

/-- What the block says once `env_ptrs[env_count]` is null. -/
theorem EnvBlock.Holds.terminated (h : env.Holds pos lines) :
    EnvBlock.Sized { env with ptrs := env.ptrs.set env.count none } ∧
      EnvBlock.strings { env with ptrs := env.ptrs.set env.count none } =
        lines.map (fun line => some (cut line)) ∧
      (env.ptrs.set env.count none)[env.count]? = some none ∧
      (env.ptrs.set env.count none).take env.count = (regions 0 lines).map (fun r => some r.1) := by
  -- there is one pointer more than there may be strings
  have hcount : env.count < env.ptrs.length := by
    have hfew := h.few
    rw [h.count, h.sized.ptrs]
    omega
  have hptrs : (env.ptrs.set env.count none).take env.count =
      (regions 0 lines).map fun r => some r.1 := by
    rw [List.take_set_of_le (Nat.le_refl _)]
    exact h.ptrs
  have hbuf : env.buf.drop 0 = packed lines ++ env.buf.drop pos := by
    rw [← h.buf, List.take_append_drop, List.drop_zero]
  refine ⟨⟨h.sized.buf, by rw [List.length_set, h.sized.ptrs]⟩, ?_, List.getElem?_set_self hcount, hptrs⟩
  show ((env.ptrs.set env.count none).take env.count).map (fun p => p.bind (stringAt env.buf)) = _
  -- each pointer leads to a string up to the first NUL in it
  rw [hptrs, List.map_map]
  exact strings_of_drop hbuf

/-! ## Bounds -/

/-- `buf[pos..pos + b.len()].copy_from_slice(b)`, which has to be inside of the buffer. -/
def writeAt? (buf : Bytes) (pos : Nat) (b : Bytes) : Option Bytes :=
  if pos + b.length ≤ buf.length then some (writeAt buf pos b) else none

/-- `env_ptrs[i] = p`, which has to be inside of the array. -/
def setPtr? (ptrs : List (Option Nat)) (i : Nat) (p : Option Nat) : Option (List (Option Nat)) :=
  if i < ptrs.length then some (ptrs.set i p) else none

/-- `storeEnvLine` with bounds checks. -/
def storeEnvLine? (line : Bytes) (envPos : Nat) (env : EnvBlock) : Option (Nat × EnvBlock) :=
  let eq := line.findIdx (· = 61)
  if 0 < line.length ∧ line.head? ≠ some 35 ∧ 0 < eq ∧ eq < line.length then
    if envPos + line.length + 1 ≤ envBuf then
      (writeAt? env.buf envPos (line ++ [0])).bind fun buf =>
        (setPtr? env.ptrs env.count (some envPos)).map fun ptrs =>
          (envPos + line.length + 1, { buf, ptrs, count := env.count + 1 })
    else some (envPos, env)
  else some (envPos, env)

/-- `readEnvLoop` with bounds checks. -/
def readEnvLoop? : (fuel : Nat) → (data : Bytes) → (envPos : Nat) → EnvBlock → Option EnvBlock
  | 0, _, _, env => some env
  | fuel + 1, data, envPos, env =>
    if data.length = 0 ∨ env.count ≥ maxEnvVars then some env
    else
      let line := data.takeWhile fun c => !isNewline c
      (storeEnvLine? (stripBlanks line) envPos env).bind fun st =>
        readEnvLoop? fuel ((data.drop (line.length + 1)).dropWhile isNewline) st.1 st.2

/-- Storing a line stays inside the buffer and the pointer table. -/
theorem storeEnvLine_checked (h : env.Sized) (hroom : env.count < maxEnvVars) (line : Bytes)
    (envPos : Nat) : storeEnvLine? line envPos env = some (storeEnvLine line envPos env) ∧
      (storeEnvLine line envPos env).2.Sized := by
  unfold storeEnvLine? storeEnvLine
  dsimp only
  split
  · split
    · next hfits =>
      -- the test on the line's length is what keeps both writes in bounds
      have hlen : envPos + (line ++ [0]).length ≤ env.buf.length := by
        rw [h.buf, List.length_append, List.length_singleton]
        omega
      have hcount : env.count < env.ptrs.length := by
        rw [h.ptrs]
        omega
      constructor
      · rw [writeAt?, if_pos hlen, setPtr?, if_pos hcount]
        rfl
      · exact ⟨(writeAt_length hlen).trans h.buf, by rw [List.length_set, h.ptrs]⟩
    · exact ⟨rfl, h⟩
  · exact ⟨rfl, h⟩

/-- No write of the loop is out of bounds, whatever is in the file. -/
theorem readEnvLoop_checked (h : env.Sized) (fuel : Nat) (data : Bytes) (envPos : Nat) :
    readEnvLoop? fuel data envPos env = some (readEnvLoop fuel data envPos env) := by
  induction fuel generalizing data envPos env with
  | zero => rfl
  | succ fuel ih =>
    unfold readEnvLoop? readEnvLoop
    split
    · rfl
    · next hgo =>
      rw [not_or] at hgo
      -- the line that was stored keeps the sizes of buffer and table
      obtain ⟨hline, hsized⟩ := storeEnvLine_checked h (Nat.not_le.mp hgo.2)
        (stripBlanks (data.takeWhile fun c => !isNewline c)) envPos
      dsimp only
      rw [hline, Option.bind_some, ih hsized]
      rfl

/-! ## The whole function -/

/-- `readEnv` with bounds checks. -/
def readEnv? (s : Service) : Sys (Option Service) := do
  match ← readFileToBuf (joinPath s.dir "/env") envBuf with
  | none | some [] =>
    return (setPtr? s.env.ptrs 0 none).map fun ptrs =>
      { s with env := { s.env with count := 0, ptrs } }
  | some data =>
    return (readEnvLoop? data.length data 0 { s.env with count := 0 }).bind fun env =>
      (setPtr? env.ptrs env.count none).map fun ptrs => { s with env := { env with ptrs } }

/-- What `read_env` sees of the file. -/
def seenEnv (s : Service) (k : Kernel) : Bytes :=
  (((k.oracle k.calls).fs.read (joinPath s.dir "/env")).getD []).take envBuf

/-- The buffers keep their sizes when the variables are forgotten. -/
theorem EnvBlock.Sized.empty (h : env.Sized) : EnvBlock.Holds { env with count := 0 } 0 [] :=
  ⟨⟨h.buf, h.ptrs⟩, rfl, Nat.zero_le _, rfl, Nat.zero_le _, rfl, rfl⟩

/-- No lines in an empty file. -/
theorem storedLines_nil : storedLines [] = [] := by
  have hnone : ¬IsAssignment (stripBlanks []) := by decide
  simp [storedLines, envAssignments, assignments, keptLines, hnone]

/-- A file that is missing, or that cannot be read, is an empty one. -/
theorem readEnv_holds {s : Service} (h : s.env.Sized) (k : Kernel) :
    ∃ env pos, EnvBlock.Holds env pos (storedLines (seenEnv s k)) ∧
      (readEnv s k).1 = { s with env := { env with ptrs := env.ptrs.set env.count none } } ∧
      (readEnv? s k).1 = (setPtr? env.ptrs env.count none).map fun ptrs =>
        { s with env := { env with ptrs } } := by
  have hread : (readFileToBuf (joinPath s.dir "/env") envBuf k).1 =
      ((k.oracle k.calls).fs.read (joinPath s.dir "/env")).map (List.take envBuf) := rfl
  unfold readEnv readEnv? seenEnv
  rw [Sys.bind_apply, Sys.bind_apply, hread]
  -- no file, an empty one, or lines to read: `count` is reset in each case
  cases hfile : (k.oracle k.calls).fs.read (joinPath s.dir "/env") with
  | none =>
    refine ⟨{ s.env with count := 0 }, 0, ?_, rfl, rfl⟩
    rw [Option.getD_none, List.take_nil, storedLines_nil]
    exact h.empty
  | some data =>
    rw [Option.getD_some, Option.map_some]
    cases hdata : data.take envBuf with
    | nil =>
      refine ⟨{ s.env with count := 0 }, 0, ?_, rfl, rfl⟩
      rw [storedLines_nil]
      exact h.empty
    | cons c rest =>
      obtain ⟨pos, hholds⟩ := readEnvLoop_holds h.empty (c :: rest)
      refine ⟨_, pos, hholds, rfl, ?_⟩
      show (Option.bind (readEnvLoop? (c :: rest).length (c :: rest) 0 { s.env with count := 0 }) _) = _
      rw [readEnvLoop_checked h.empty.sized]
      rfl

/-- There is one region for each line. -/
theorem length_regions (pos : Nat) (lines : List Bytes) : (regions pos lines).length = lines.length := by
  induction lines generalizing pos with
  | nil => rfl
  | cons line lines ih => rw [regions, List.length_cons, List.length_cons, ih]

/-- The assignments of a file without NUL are without NUL. -/
theorem map_cut_envAssignments {data : Bytes} (h : (0 : UInt8) ∉ data) (n : Nat) :
    ((envAssignments data).take n).map (fun line => some (cut line)) =
      ((envAssignments data).take n).map some := by
  apply List.map_congr_left
  intro line hline
  have hmem := List.mem_of_mem_filter (List.mem_of_mem_take hline)
  obtain ⟨raw, hraw, rfl⟩ := List.mem_map.mp hmem
  have hnul : (0 : UInt8) ∉ stripBlanks raw := fun hmem =>
    h (Lines.mem_of_mem_splitOnP hraw 0 ((stripBlanks_sublist raw).subset hmem))
  rw [cut_eq_self hnul]

/-- `read_env` for every record and every content of the file. In a file of less than `ENV_BUF`
    bytes without NUL, `env_ptrs` points to the first `MAX_ENV_VARS` assignments in order and is
    null behind them. In every file all writes are inside of `env_buf` and `env_ptrs`, and the
    pointers are the starts of regions that end with a NUL and do not overlap. -/
theorem read_env_exact (s : Service) (k : Kernel) (h : s.env.Sized) :
    (∀ data, (k.oracle k.calls).fs.read (joinPath s.dir "/env") = some data →
      data.length < envBuf → (0 : UInt8) ∉ data →
      (readEnv s k).1.env.strings = ((envAssignments data).take maxEnvVars).map some ∧
      (readEnv s k).1.env.count = ((envAssignments data).take maxEnvVars).length ∧
      (readEnv s k).1.env.ptrs[(readEnv s k).1.env.count]? = some none) ∧
    (readEnv? s k).1 = some (readEnv s k).1 ∧
    ∃ rs : List (Nat × Nat),
      (readEnv s k).1.env.ptrs.take (readEnv s k).1.env.count = rs.map (fun r => some r.1) ∧
      (readEnv s k).1.env.count = rs.length ∧
      (∀ r ∈ rs, (readEnv s k).1.env.buf[r.1 + r.2]? = some 0) ∧
      rs.Pairwise fun r r' => r.1 + r.2 < r'.1 := by
  obtain ⟨env, pos, hholds, hresult, hchecked⟩ := readEnv_holds h k
  obtain ⟨-, hstrings, hnull, hptrs⟩ := hholds.terminated
  -- at most 64 lines are stored, and there are 65 pointers
  have hcount : env.count < env.ptrs.length := by
    have hfew := hholds.few
    rw [hholds.count, hholds.sized.ptrs]
    omega
  rw [hresult]
  refine ⟨?_, ?_, ?_⟩
  · intro data hread hsmall hnul
    -- a file of fewer bytes than the buffer is read whole
    have hseen : seenEnv s k = data := by
      unfold seenEnv
      rw [hread, Option.getD_some, List.take_of_length_le (Nat.le_of_lt hsmall)]
    rw [hseen, storedLines_eq_take hsmall] at hstrings hholds
    exact ⟨hstrings.trans (map_cut_envAssignments hnul _), hholds.count, hnull⟩
  · rw [hchecked, setPtr?, if_pos hcount]
    rfl
  -- the strings lie one behind the other from the start of the buffer
  · have hbuf : env.buf.drop 0 = packed (storedLines (seenEnv s k)) ++ env.buf.drop pos := by
      rw [← hholds.buf, List.take_append_drop, List.drop_zero]
    obtain ⟨hends, hapart⟩ := regions_of_drop hbuf
    refine ⟨regions 0 (storedLines (seenEnv s k)), hptrs, ?_, fun r hr => (hends r hr).2, hapart⟩
    rw [length_regions]
    exact hholds.count

end

/-- CRLF, a comment, a blank line, an empty key, a value with blanks and `=` in it, and a last
    line without a newline. -/
def envSample : Bytes := bytesOf "A=1\r\n# B=2\n\n =x\n\t C = y=z \nD=\nE\nF=last"

/-- A system on which every file holds the sample. -/
def sampleFiles : FileSys where
  read _ := some envSample

/-- Four of the lines are assignments. -/
theorem read_env_exact_sample :
    (readEnv Service.empty (bootOn sampleFiles).world.k).1.env.strings =
      [some (bytesOf "A=1"), some (bytesOf "C = y=z"), some (bytesOf "D="),
        some (bytesOf "F=last")] := by
  have hsized : Service.empty.env.Sized := ⟨by decide +kernel, by decide +kernel⟩
  obtain ⟨hexact, -, -⟩ := read_env_exact Service.empty (bootOn sampleFiles).world.k hsized
  rw [(hexact envSample rfl (by decide +kernel) (by decide +kernel)).1]
  decide +kernel

end SvcRs
