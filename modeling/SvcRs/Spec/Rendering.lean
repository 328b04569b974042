import SvcRs.ForStd.Lines
import SvcRs.Spec.PathBuilder
import SvcRs.Spec.ScanEntry

/-!
# Status texts

What `write_status_file` and `format_service_status` put together fits in a `CStrBuf`, whatever
the numbers in the record are: the dependencies come from the first `DEP_FILE_BUF` bytes of
`depends`, so the part of the line that names them is not longer than that. The lines of the
status file determine the fields that they show.

## Key results

- `parseDeps_length`: how much of a status line the dependencies take
- `formatServiceStatus_full`, `statusText_full`: no byte is cut off
- `renderings_exact`: and the status file can be decoded
-/

namespace SvcRs

/-! ## The full texts -/

/-- One dependency between the brackets. -/
def depText (d : Dependency) : Bytes := (if d.soft then bytesOf "?" else []) ++ d.name

/-- The dependencies, separated by commas. -/
def depsText (deps : List Dependency) : Bytes := (bytesOf ",").intercalate (deps.map depText)

/-- The status line of a service. -/
def fullLine (s : Service) (now : Int) : Bytes :=
  s.name ++ bytesOf " state=" ++ stateLabel s.state ++ bytesOf " pid=" ++ Decimal.ofInt s.pid ++
  bytesOf " uptime=" ++ Decimal.ofInt (s.uptimeSeconds now) ++
  bytesOf " restarts=" ++ Decimal.ofNat s.restarts.toNat ++
  bytesOf " exit_code=" ++ Decimal.ofInt s.exitCode ++
  bytesOf " signal=" ++ Decimal.ofInt s.termSignal ++
  bytesOf " auto=" ++ yesNo s.autoStart ++ bytesOf " once=" ++ yesNo s.once ++
  (if s.hasUid then bytesOf " uid=" ++ Decimal.ofNat s.uid.toNat ++
    bytesOf " gid=" ++ Decimal.ofNat s.gid.toNat else []) ++
  bytesOf " deps=[" ++ depsText s.deps ++ bytesOf "]" ++
  (if s.hasLog then bytesOf " log_pid=" ++ Decimal.ofInt s.logPid ++ bytesOf " log_state=" ++
    (if s.logState = .running then bytesOf "running" else bytesOf "down") ++
    bytesOf " log_uptime=" ++ Decimal.ofInt (s.logUptimeSeconds now) else []) ++
  bytesOf "\n"

/-- The lines of the status file. -/
def fullLines (s : Service) (now : Int) : List Bytes :=
  [bytesOf "name=" ++ s.name,
    bytesOf "pid=" ++ Decimal.ofInt s.pid,
    bytesOf "state=" ++ stateLabel s.state,
    bytesOf "uptime=" ++ Decimal.ofInt (s.uptimeSeconds now),
    bytesOf "restarts=" ++ Decimal.ofNat s.restarts.toNat,
    bytesOf "exit_code=" ++ Decimal.ofInt s.exitCode,
    bytesOf "term_signal=" ++ Decimal.ofInt s.termSignal,
    bytesOf "last_wait_status=" ++ Decimal.ofInt s.lastStatus,
    bytesOf "started_at_mono=" ++ Decimal.ofInt s.startedAt,
    bytesOf "auto_start=" ++ yesNo s.autoStart,
    bytesOf "once=" ++ yesNo s.once] ++
  if s.hasUid then
    [bytesOf "uid=" ++ Decimal.ofNat s.uid.toNat, bytesOf "gid=" ++ Decimal.ofNat s.gid.toNat]
  else []

/-- The text of the status file. -/
def fullText (s : Service) (now : Int) : Bytes := Lines.unlines 10 (fullLines s now)

/-! ## Records -/

/-- The values of an `i32`. -/
def IsI32 (v : Int) : Prop := -2147483648 ≤ v ∧ v ≤ 2147483647

/-- The values of an `i64`. -/
def IsI64 (v : Int) : Prop := -9223372036854775808 ≤ v ∧ v ≤ i64Max

instance (v : Int) : Decidable (IsI32 v) := inferInstanceAs (Decidable (_ ∧ _))

instance (v : Int) : Decidable (IsI64 v) := inferInstanceAs (Decidable (_ ∧ _))

/-- The numbers in the record are of the types that `types.rs` declares. -/
structure Service.Typed (s : Service) : Prop where
  pid : IsI32 s.pid
  lastStatus : IsI32 s.lastStatus
  exitCode : IsI32 s.exitCode
  termSignal : IsI32 s.termSignal
  logPid : IsI32 s.logPid
  startedAt : IsI64 s.startedAt

/-- Name, directory and dependencies are as `add_service` set them for some directory entry. -/
def Service.Added (s : Service) : Prop :=
  ∃ name dir k, 0 ∉ name ∧ s.name = (buildService name dir k).1.name ∧
    s.dir = (buildService name dir k).1.dir ∧ s.deps = (buildService name dir k).1.deps

section

variable {s t : Service} {now now' : Int}

/-! ## The dependencies -/

/-- What one line of `depends` adds. -/
def depStep (deps : List Dependency) (line : Bytes) : List Dependency :=
  if (cleanDepLine line).length = 0 then deps else deps ++ [parseDep (cleanDepLine line)]

/-- The loop over the lines of `depends`. -/
theorem parseDepsLoop_eq (fuel : Nat) (data : Bytes) (deps : List Dependency) :
    parseDepsLoop fuel data deps =
      Lines.lineLoop isNewline (fun deps => deps.length ≥ maxDependencies) depStep fuel data deps := by
  induction fuel generalizing data deps with
  | zero => rfl
  | succ fuel ih =>
    unfold parseDepsLoop Lines.lineLoop
    split
    · rfl
    · exact ih _ _

/-- Cleaning makes a line no longer. -/
theorem cleanDepLine_length (line : Bytes) : (cleanDepLine line).length ≤ line.length := by
  have hfront := (List.dropWhile_sublist (fun c => c = 32) (l := line)).length_le
  have hback := (List.dropWhile_sublist isBlank (l := (line.dropWhile (· = 32)).reverse)).length_le
  unfold cleanDepLine trimEnd
  rw [List.length_reverse]
  rw [List.length_reverse] at hback
  exact Nat.le_trans hback hfront

/-- A dependency is no longer than its line. -/
theorem parseDep_length (clean : Bytes) : (depText (parseDep clean)).length ≤ clean.length := by
  unfold parseDep depText
  split
  · next name =>
    have htake := List.length_take_le' (nameBuf - 1) name
    simp only [if_true, List.length_append, List.length_cons]
    have hmark : (bytesOf "?").length = 1 := rfl
    omega
  · simp only [Bool.false_eq_true, if_false, List.nil_append]
    exact List.length_take_le' _ _

/-- The dependencies with the commas behind them. -/
def depsLength (deps : List Dependency) : Nat := (deps.map fun d => (depText d).length + 1).sum

/-- A line gives at most one dependency, which is not longer than the line. -/
theorem depLine_length (deps : List Dependency) (line : Bytes) :
    depsLength (depStep deps line) ≤ depsLength deps + (line.length + 1) := by
  unfold depStep
  split
  · omega
  · have hdep := parseDep_length (cleanDepLine line)
    have hline := cleanDepLine_length line
    unfold depsLength
    rw [List.map_append, List.sum_append, List.map_singleton, List.sum_singleton]
    omega

/-- All that the parser finds is shorter than the file. -/
theorem parseDeps_length (data : Bytes) : depsLength (parseDeps data) ≤ data.length + 1 := by
  have hlines : ∀ (lines : List Bytes) (deps : List Dependency),
      depsLength (lines.foldl (Lines.lineStep (fun deps => deps.length ≥ maxDependencies) depStep)
        deps) ≤ depsLength deps + (lines.map fun line => line.length + 1).sum := by
    intro lines
    -- by induction on the lines, with the table so far generalised
    induction lines with
    | nil => exact fun deps => Nat.le_refl _
    | cons line lines ih =>
      intro deps
      rw [List.foldl_cons, List.map_cons, List.sum_cons]
      refine Nat.le_trans (ih _) ?_
      unfold Lines.lineStep
      split
      -- a full table takes no more lines
      · omega
      · have hone := depLine_length deps line
        omega
  have hblank : ∀ deps, depStep deps [] = deps := fun deps => if_pos rfl
  -- every line and its separator, of which the last has none
  have hsum : ((data.splitOnP isNewline).map fun line => line.length + 1).sum = data.length + 1 :=
    Lines.sum_length_splitOnP data
  unfold parseDeps
  rw [parseDepsLoop_eq, Lines.lineLoop_eq_foldl hblank (Nat.le_refl _), ← hsum]
  have hall := hlines (data.splitOnP isNewline) []
  rwa [show depsLength [] = 0 from rfl, Nat.zero_add] at hall

/-- The first, and the others after commas. -/
theorem depsText_cons (d : Dependency) (deps : List Dependency) :
    depsText (d :: deps) = depText d ++ deps.flatMap fun d => bytesOf "," ++ depText d := by
  induction deps generalizing d with
  | nil => simp [depsText]
  | cons d' deps ih =>
    have hnext := ih d'
    unfold depsText at hnext ⊢
    rw [List.map_cons, List.map_cons, List.intercalate_cons_cons, ← List.map_cons, hnext,
      List.flatMap_cons, List.append_assoc, List.append_assoc]

/-- The length of the text is what the lines allow. -/
theorem depsText_length (deps : List Dependency) : (depsText deps).length ≤ depsLength deps := by
  cases deps with
  | nil => exact Nat.zero_le _
  | cons d deps =>
    -- a comma for every name but the first
    have hrest : ∀ deps : List Dependency,
        (deps.flatMap fun d => bytesOf "," ++ depText d).length = depsLength deps := by
      intro deps
      rw [List.length_flatMap]
      rfl
    rw [depsText_cons, List.length_append, hrest]
    unfold depsLength
    rw [List.map_cons, List.sum_cons]
    omega

/-- For a record of `add_service` that is at most the size of `depends`, and a comma. -/
theorem Service.Added.deps_length (h : s.Added) : (depsText s.deps).length ≤ depFileBuf + 1 := by
  obtain ⟨name, dir, k, -, -, -, hdeps⟩ := h
  refine Nat.le_trans (depsText_length _) ?_
  rw [hdeps]
  rcases (buildService_built name dir k).deps with hnone | ⟨data, hdata, hparse⟩
  · rw [hnone]
    exact Nat.zero_le _
  · rw [hparse]
    have hparsed := parseDeps_length data
    omega

/-- The name was cut at its buffer. -/
theorem Service.Added.name_length (h : s.Added) : s.name.length ≤ nameBuf - 1 := by
  obtain ⟨name, dir, k, -, hname, -, -⟩ := h
  rw [hname, (buildService_built name dir k).name]
  exact List.length_take_le _ _

/-! ## Putting the texts together -/

/-- The dependencies are written out. -/
theorem pushDeps_holds {p : CStrBuf} {b : Bytes} (h : p.Holds b) (deps : List Dependency) :
    (pushDeps deps true p).Holds (b ++ depsText deps) := by
  -- 63 is the `?` of a soft dependency
  have hone : ∀ (d : Dependency) {p : CStrBuf} {b : Bytes}, p.Holds b →
      ((if d.soft then p.pushByte 63 else p).push d.name).Holds (b ++ depText d) := by
    intro d p b h
    unfold depText
    split
    · rw [← List.append_assoc]
      exact (h.pushByte 63).push d.name
    · exact h.push d.name
  -- all but the first are written behind a comma
  have hrest : ∀ (deps : List Dependency) {p : CStrBuf} {b : Bytes}, p.Holds b →
      (pushDeps deps false p).Holds (b ++ deps.flatMap fun d => bytesOf "," ++ depText d) := by
    intro deps
    induction deps with
    | nil =>
      intro p b h
      rw [List.flatMap_nil, List.append_nil]
      exact h
    | cons d deps ih =>
      intro p b h
      rw [List.flatMap_cons, ← List.append_assoc, ← List.append_assoc]
      exact ih (hone d (h.pushByte 44))
  cases deps with
  | nil =>
    rw [show depsText [] = [] from rfl, List.append_nil]
    exact h
  | cons d deps =>
    rw [depsText_cons, ← List.append_assoc]
    exact hrest deps (hone d h)

/-- An `i32` has ten digits at most. -/
theorem IsI32.natAbs {v : Int} (h : IsI32 v) : v.natAbs < 10 ^ 10 := by
  obtain ⟨hlo, hhi⟩ := h
  omega

/-- An `i64` has nineteen. -/
theorem IsI64.natAbs {v : Int} (h : IsI64 v) : v.natAbs < 10 ^ 19 := by
  obtain ⟨hlo, hhi⟩ := h
  simp only [i64Max] at hhi
  omega

/-- What was reduced to an `i64` is one. -/
theorem isI64_i64 (v : Int) : IsI64 (i64 v) := by
  unfold IsI64 i64 i64Max
  omega

/-- So is the time a service is up. -/
theorem isI64_uptime (s : Service) (now : Int) : IsI64 (s.uptimeSeconds now) := by
  unfold Service.uptimeSeconds
  split
  · exact isI64_i64 _
  · exact ⟨by decide, by decide⟩

/-- And its logger. -/
theorem isI64_logUptime (s : Service) (now : Int) : IsI64 (s.logUptimeSeconds now) := by
  unfold Service.logUptimeSeconds
  split
  · exact isI64_i64 _
  · exact ⟨by decide, by decide⟩

/-- A `u32` has ten digits at most. -/
theorem u32_lt (v : UInt32) : v.toNat < 10 ^ 10 := by
  have hlt := v.toNat_lt
  omega

/-- Ten digits, or nineteen, are fewer than twenty. -/
theorem IsI32.fits {v : Int} (h : IsI32 v) : v.natAbs < 10 ^ 20 := by
  have hlt := h.natAbs
  omega

/-- There are enough digits for an `i64`. -/
theorem IsI64.fits {v : Int} (h : IsI64 v) : v.natAbs < 10 ^ 20 := by
  have hlt := h.natAbs
  omega

/-- And for a `u32`. -/
theorem u32_fits (v : UInt32) : v.toNat < 10 ^ 20 := by
  have hlt := u32_lt v
  omega

/-- The status file has the text, as far as it fits. -/
theorem statusText_holds (ht : s.Typed) (now : Int) : (statusText s now).Holds (fullText s now) := by
  have hstart := (CStrBuf.Holds.new.lit "name=").push s.name
  -- one fact per line of the text, each built on the one before
  have hpid := (hstart.lit "\npid=").pushI64 ht.pid.fits
  have hstate := (hpid.lit "\nstate=").push (stateLabel s.state)
  have huptime := (hstate.lit "\nuptime=").pushI64 (isI64_uptime s now).fits
  have hrestarts := (huptime.lit "\nrestarts=").pushU64 (u32_fits s.restarts)
  have hcode := (hrestarts.lit "\nexit_code=").pushI64 ht.exitCode.fits
  have hsignal := (hcode.lit "\nterm_signal=").pushI64 ht.termSignal.fits
  have hlast := (hsignal.lit "\nlast_wait_status=").pushI64 ht.lastStatus.fits
  have hstarted := (hlast.lit "\nstarted_at_mono=").pushI64 ht.startedAt.fits
  have hauto := (hstarted.lit "\nauto_start=").push (yesNo s.autoStart)
  have honce := (hauto.lit "\nonce=").push (yesNo s.once)
  unfold statusText fullText fullLines
  -- `uid` and `gid` are written only if there is a user
  split
  · have huid := (honce.lit "\nuid=").pushU64 (u32_fits s.uid)
    have hgid := (huid.lit "\ngid=").pushU64 (u32_fits s.gid)
    have hall := hgid.lit "\n"
    simp only [List.append_assoc, List.nil_append] at hall
    simp only [Lines.unlines, List.flatMap_append, List.flatMap_cons, List.flatMap_nil,
      List.append_assoc, List.append_nil]
    exact hall
  · have hall := honce.lit "\n"
    simp only [List.append_assoc, List.nil_append] at hall
    simp only [Lines.unlines, List.flatMap_cons, List.flatMap_nil, List.append_assoc, List.append_nil]
    exact hall

/-- The buffer of `format_service_status`. -/
theorem formatServiceStatus_holds (ht : s.Typed) (now : Int) :
    ∃ p : CStrBuf, p.Holds (fullLine s now) ∧ formatServiceStatus s now = p.bytes.take respBuf := by
  have hstate := ((CStrBuf.Holds.new.push s.name).lit " state=").push (stateLabel s.state)
  have hpid := (hstate.lit " pid=").pushI64 ht.pid.fits
  have huptime := (hpid.lit " uptime=").pushI64 (isI64_uptime s now).fits
  have hrestarts := (huptime.lit " restarts=").pushU64 (u32_fits s.restarts)
  have hcode := (hrestarts.lit " exit_code=").pushI64 ht.exitCode.fits
  have hsignal := (hcode.lit " signal=").pushI64 ht.termSignal.fits
  have hauto := (hsignal.lit " auto=").push (yesNo s.autoStart)
  have honce := (hauto.lit " once=").push (yesNo s.once)
  -- the optional parts
  have hids : ∀ {p : CStrBuf} {b : Bytes}, p.Holds b →
      (if s.hasUid then ((p.lit " uid=").pushU64 s.uid.toNat |>.lit " gid=").pushU64 s.gid.toNat
        else p).Holds (b ++ if s.hasUid then bytesOf " uid=" ++ Decimal.ofNat s.uid.toNat ++
          bytesOf " gid=" ++ Decimal.ofNat s.gid.toNat else []) := by
    intro p b h
    split
    · have huid := (h.lit " uid=").pushU64 (u32_fits s.uid)
      have hgid := (huid.lit " gid=").pushU64 (u32_fits s.gid)
      simp only [List.append_assoc] at hgid ⊢
      exact hgid
    · rw [List.append_nil]
      exact h
  have hlog : ∀ {p : CStrBuf} {b : Bytes}, p.Holds b →
      (if s.hasLog then
        ((((p.lit " log_pid=").pushI64 s.logPid).lit " log_state=").push
          (if s.logState = .running then bytesOf "running" else bytesOf "down") |>.lit
            " log_uptime=").pushI64 (s.logUptimeSeconds now)
        else p).Holds (b ++ if s.hasLog then bytesOf " log_pid=" ++ Decimal.ofInt s.logPid ++
          bytesOf " log_state=" ++
          (if s.logState = .running then bytesOf "running" else bytesOf "down") ++
          bytesOf " log_uptime=" ++ Decimal.ofInt (s.logUptimeSeconds now) else []) := by
    intro p b h
    split
    · have hpid := (h.lit " log_pid=").pushI64 ht.logPid.fits
      have hstate := (hpid.lit " log_state=").push
        (if s.logState = .running then bytesOf "running" else bytesOf "down")
      have huptime := (hstate.lit " log_uptime=").pushI64 (isI64_logUptime s now).fits
      simp only [List.append_assoc] at huptime ⊢
      exact huptime
    · rw [List.append_nil]
      exact h
  have hdeps := (pushDeps_holds ((hids honce).lit " deps=[") s.deps).lit "]"
  exact ⟨_, (hlog hdeps).lit "\n", rfl⟩

/-! ## Lengths -/

/-- The longest state. -/
theorem stateLabel_length (state : SvcState) : (stateLabel state).length ≤ 8 := by
  cases state <;> decide

/-- The longer answer. -/
theorem yesNo_length (b : Bool) : (yesNo b).length ≤ 3 := by
  cases b <;> decide

/-- The length of an `i32`. -/
theorem IsI32.length {v : Int} (h : IsI32 v) : (Decimal.ofInt v).length ≤ 11 :=
  Decimal.ofInt_length_le (by decide) h.natAbs

/-- The length of an `i64`. -/
theorem IsI64.length {v : Int} (h : IsI64 v) : (Decimal.ofInt v).length ≤ 20 :=
  Decimal.ofInt_length_le (by decide) h.natAbs

/-- The length of a `u32`. -/
theorem u32_length (v : UInt32) : (Decimal.ofNat v.toNat).length ≤ 10 :=
  Decimal.ofNat_length_le (by decide) (u32_lt v)

/-- The line fits into its buffer. -/
theorem fullLine_length (hadded : s.Added) (ht : s.Typed) (now : Int) :
    (fullLine s now).length ≤ pathBuf - 1 := by
  -- the longest each part can get
  have hname := hadded.name_length
  have hdeps := hadded.deps_length
  have hlabel := stateLabel_length s.state
  have hpid := ht.pid.length
  have huptime := (isI64_uptime s now).length
  have hrestarts := u32_length s.restarts
  have hcode := ht.exitCode.length
  have hsignal := ht.termSignal.length
  have hauto := yesNo_length s.autoStart
  have honce := yesNo_length s.once
  have huid := u32_length s.uid
  have hgid := u32_length s.gid
  have hlogPid := ht.logPid.length
  have hlogUptime := (isI64_logUptime s now).length
  -- the parts that depend on a user and on a logger are bounded as a whole
  have hids : (if s.hasUid then bytesOf " uid=" ++ Decimal.ofNat s.uid.toNat ++
      bytesOf " gid=" ++ Decimal.ofNat s.gid.toNat else []).length ≤ 30 := by
    split
    · simp only [List.length_append, bytesOf, List.length_map, String.reduceToList, List.length_cons,
        List.length_nil]
      omega
    · decide
  have hlog : (if s.hasLog then bytesOf " log_pid=" ++ Decimal.ofInt s.logPid ++
      bytesOf " log_state=" ++ (if s.logState = .running then bytesOf "running" else bytesOf "down") ++
      bytesOf " log_uptime=" ++ Decimal.ofInt (s.logUptimeSeconds now) else []).length ≤ 70 := by
    have hstate : (if s.logState = .running then bytesOf "running" else bytesOf "down").length ≤ 7 := by
      split <;> decide
    split
    · simp only [List.length_append]
      simp only [bytesOf, List.length_map, String.reduceToList, List.length_cons, List.length_nil]
        at hstate ⊢
      omega
    · decide
  -- the constant texts have their own lengths, and the sum stays below the buffer
  unfold fullLine
  simp only [nameBuf, depFileBuf, pathBuf] at hname hdeps ⊢
  simp only [List.length_append] at hids hlog ⊢
  simp only [bytesOf, List.length_map, String.reduceToList, List.length_cons, List.length_nil]
    at hids hlog ⊢
  omega

/-- The text fits into its buffer. -/
theorem fullText_length (hadded : s.Added) (ht : s.Typed) (now : Int) :
    (fullText s now).length ≤ pathBuf - 1 := by
  -- as for the one-line form, but without the dependencies and the logger
  have hname := hadded.name_length
  have hpid := ht.pid.length
  have hlabel := stateLabel_length s.state
  have huptime := (isI64_uptime s now).length
  have hrestarts := u32_length s.restarts
  have hcode := ht.exitCode.length
  have hsignal := ht.termSignal.length
  have hlast := ht.lastStatus.length
  have hstarted := ht.startedAt.length
  have hauto := yesNo_length s.autoStart
  have honce := yesNo_length s.once
  have hids : (Lines.unlines 10 (if s.hasUid then [bytesOf "uid=" ++ Decimal.ofNat s.uid.toNat,
      bytesOf "gid=" ++ Decimal.ofNat s.gid.toNat] else [])).length ≤ 30 := by
    have huid := u32_length s.uid
    have hgid := u32_length s.gid
    split
    · simp only [Lines.unlines, List.flatMap_cons, List.flatMap_nil, List.length_append, bytesOf,
        List.length_map, String.reduceToList, List.length_cons, List.length_nil]
      omega
    · decide
  unfold fullText fullLines
  rw [Lines.unlines_append, List.length_append]
  simp only [nameBuf, pathBuf] at hname ⊢
  simp only [Lines.unlines, List.flatMap_cons, List.flatMap_nil, List.length_append] at hids ⊢
  simp only [bytesOf, List.length_map, String.reduceToList, List.length_cons, List.length_nil] at hids ⊢
  omega

/-- So the line is not cut. -/
theorem formatServiceStatus_full (hadded : s.Added) (ht : s.Typed) (now : Int) :
    formatServiceStatus s now = withoutNul (fullLine s now) := by
  obtain ⟨p, hp, hline⟩ := formatServiceStatus_holds ht now
  have hlen := fullLine_length hadded ht now
  have hcut : p.bytes.length ≤ respBuf := by
    have hfits := p.fits
    simp only [pathBuf, respBuf] at hfits ⊢
    omega
  rw [hline, List.take_of_length_le hcut]
  exact hp.full hlen

/-- Nor is the text. -/
theorem statusText_full (hadded : s.Added) (ht : s.Typed) (now : Int) :
    (statusText s now).bytes = withoutNul (fullText s now) :=
  (statusText_holds ht now).full (fullText_length hadded ht now)

/-- Both texts end in a newline. -/
theorem fullLine_newline (s : Service) (now : Int) : ∃ b, withoutNul (fullLine s now) = b ++ [10] := by
  unfold fullLine withoutNul
  rw [List.filter_append]
  exact ⟨_, rfl⟩

/-- It ends with a newline. -/
theorem fullText_newline (s : Service) (now : Int) : ∃ b, withoutNul (fullText s now) = b ++ [10] := by
  have hlast : ∃ lines line, fullLines s now = lines ++ [line] := by
    unfold fullLines
    split
    · exact ⟨_ ++ [_], _, (List.append_assoc _ [_] [_]).symm⟩
    · exact ⟨[_, _, _, _, _, _, _, _, _, _], _, rfl⟩
  obtain ⟨lines, line, hlines⟩ := hlast
  unfold fullText withoutNul
  rw [hlines, Lines.unlines_append]
  simp only [Lines.unlines, List.flatMap_cons, List.flatMap_nil, List.append_nil, List.filter_append]
  exact ⟨_, (List.append_assoc _ _ _).symm⟩

/-! ## Reading a status file -/

/-- No line contains a newline, or a NUL, if the name does not. -/
theorem fullLines_clean {c : UInt8} (hc : c = 0 ∨ c = 10) (hname : c ∉ s.name) :
    ∀ line ∈ fullLines s now, c ∉ line := by
  -- NUL and newline are below the digits, and neither is the minus sign
  have hlow : c ≠ 45 ∧ ¬48 ≤ c.toNat := by rcases hc with rfl | rfl <;> decide
  have hint : ∀ v, c ∉ Decimal.ofInt v := fun v h => (Decimal.mem_ofInt h).elim hlow.1 hlow.2
  have hnat : ∀ n, c ∉ Decimal.ofNat n := fun n h => hlow.2 (Decimal.digit_of_mem_ofNat h).1
  have hlabel : ∀ state, c ∉ stateLabel state := by
    intro state
    rcases hc with rfl | rfl <;> cases state <;> decide
  have hyes : ∀ b, c ∉ yesNo b := by
    intro b
    rcases hc with rfl | rfl <;> cases b <;> decide
  -- the texts of the fields themselves
  have hfield : ∀ text ∈ ["name=", "pid=", "state=", "uptime=", "restarts=", "exit_code=",
      "term_signal=", "last_wait_status=", "started_at_mono=", "auto_start=", "once=", "uid=", "gid="],
      c ∉ bytesOf text := by
    rcases hc with rfl | rfl <;> decide
  simp only [List.forall_mem_cons] at hfield
  unfold fullLines
  cases s.hasUid <;> simp [hfield, hname, hint, hnat, hlabel, hyes]

/-- Only the name could contain a NUL. -/
theorem withoutNul_fullText (hname : 0 ∉ s.name) : withoutNul (fullText s now) = fullText s now := by
  apply withoutNul_eq_self
  intro hmem
  obtain ⟨line, hline, hmem⟩ := List.mem_flatMap.mp hmem
  rcases List.mem_append.mp hmem with hmem | hmem
  · exact fullLines_clean (.inl rfl) hname line hline hmem
  · exact absurd (List.mem_singleton.mp hmem) (by decide)

/-- What the status file shows is the same. -/
structure SameStatus (s : Service) (now : Int) (t : Service) (now' : Int) : Prop where
  name : s.name = t.name
  pid : s.pid = t.pid
  state : stateLabel s.state = stateLabel t.state
  uptime : s.uptimeSeconds now = t.uptimeSeconds now'
  restarts : s.restarts = t.restarts
  exitCode : s.exitCode = t.exitCode
  termSignal : s.termSignal = t.termSignal
  lastStatus : s.lastStatus = t.lastStatus
  startedAt : s.startedAt = t.startedAt
  autoStart : s.autoStart = t.autoStart
  once : s.once = t.once
  hasUid : s.hasUid = t.hasUid
  ids : s.hasUid = true → s.uid = t.uid ∧ s.gid = t.gid

/-- The answers differ. -/
theorem yesNo_injective : Function.Injective yesNo := by
  intro b b' h
  cases b <;> cases b' <;> first | rfl | exact absurd h (by decide)

/-- The number can be read back. -/
theorem u32_injective {v v' : UInt32} (h : Decimal.ofNat v.toNat = Decimal.ofNat v'.toNat) : v = v' :=
  UInt32.toNat_inj.mp (Decimal.ofNat_injective h)

/-- Equal lines are about equal statuses. -/
theorem fullLines_sameStatus (h : fullLines s now = fullLines t now') : SameStatus s now t now' := by
  unfold fullLines at h
  have hhas : s.hasUid = t.hasUid := by
    -- the two numbers of lines differ by the lines for the ids
    have hlen := congrArg List.length h
    cases hs : s.hasUid <;> cases ht : t.hasUid <;> simp [hs, ht] at hlen ⊢
  obtain ⟨hlines, hids⟩ := List.append_inj h rfl
  simp only [List.cons.injEq, List.append_cancel_left_eq, and_true] at hlines
  obtain ⟨hname, hpid, hstate, huptime, hrestarts, hcode, hsignal, hlast, hstarted, hauto,
    honce⟩ := hlines
  -- each number and each flag can be read off its line
  refine ⟨hname, Decimal.ofInt_injective hpid, hstate, Decimal.ofInt_injective huptime,
    u32_injective hrestarts, Decimal.ofInt_injective hcode, Decimal.ofInt_injective hsignal,
    Decimal.ofInt_injective hlast, Decimal.ofInt_injective hstarted, yesNo_injective hauto,
    yesNo_injective honce, hhas, ?_⟩
  intro hs
  rw [if_pos hs, if_pos (hhas.symm.trans hs)] at hids
  simp only [List.cons.injEq, List.append_cancel_left_eq, and_true] at hids
  exact ⟨u32_injective hids.1, u32_injective hids.2⟩

/-- For all records of `add_service`: the status line and the text of the status file are full
    and end in a newline. For two whose names contain no newline, the text of the status file
    determines what it shows. -/
theorem renderings_exact (hs : s.Added) (hst : s.Typed) (ht : t.Added) (htt : t.Typed)
    (now now' : Int) :
    formatServiceStatus s now = withoutNul (fullLine s now) ∧
    (∃ b, formatServiceStatus s now = b ++ [10]) ∧
    (statusText s now).bytes = withoutNul (fullText s now) ∧
    (∃ b, (statusText s now).bytes = b ++ [10]) ∧
    (10 ∉ s.name → 10 ∉ t.name → (statusText s now).bytes = (statusText t now').bytes →
      SameStatus s now t now') := by
  have hline := formatServiceStatus_full hs hst now
  have htext := statusText_full hs hst now
  -- an added name has been cut at its first NUL
  have hclean : ∀ {s : Service}, s.Added → 0 ∉ s.name := by
    rintro s ⟨name, dir, k, hname, hs, -, -⟩ hmem
    rw [hs, (buildService_built name dir k).name] at hmem
    exact hname (List.mem_of_mem_take hmem)
  refine ⟨hline, ?_, htext, ?_, ?_⟩
  · rw [hline]
    exact fullLine_newline s now
  · rw [htext]
    exact fullText_newline s now
  -- equal texts have equal lines, as no line contains a newline
  · intro hsname htname heq
    rw [htext, statusText_full ht htt now', withoutNul_fullText (hclean hs),
      withoutNul_fullText (hclean ht)] at heq
    have hlines := Lines.unlines_injective (fullLines_clean (.inr rfl) hsname)
      (fullLines_clean (.inr rfl) htname) heq
    exact fullLines_sameStatus hlines

end

/-! ## A service with a dependency -/

/-- The record of the service `b`, whose `depends` names `a`. -/
def chained : Service :=
  (buildService (bytesOf "b") (CStrBuf.fromBytes (bytesOf "/s/b")) (bootOn chainFiles).world.k).1

example : formatServiceStatus chained 5 = bytesOf
    "b state=down pid=-1 uptime=0 restarts=0 exit_code=0 signal=0 auto=yes once=no deps=[a]\n" := by
  decide +kernel

/-- The status file does not show when the service will be started again. -/
theorem renderings_exact_chained :
    (statusText chained 5).bytes = withoutNul (fullText chained 5) ∧
      SameStatus chained 5 { chained with restartAt := 7 } 5 := by
  have hall : ∀ s : Service, s.Added → s.Typed → 10 ∉ s.name →
      (statusText s 5).bytes = withoutNul (fullText s 5) ∧
        SameStatus s 5 { s with restartAt := 7 } 5 := by
    intro s hadded htyped hname
    -- the time of the next start does not appear in the text
    have htyped' : { s with restartAt := 7 }.Typed :=
      ⟨htyped.pid, htyped.lastStatus, htyped.exitCode, htyped.termSignal, htyped.logPid,
        htyped.startedAt⟩
    obtain ⟨-, -, hfull, -, hdecode⟩ :=
      renderings_exact hadded htyped (t := { s with restartAt := 7 }) hadded htyped' 5 5
    exact ⟨hfull, hdecode hname hname rfl⟩
  have hadded : chained.Added :=
    ⟨bytesOf "b", CStrBuf.fromBytes (bytesOf "/s/b"), (bootOn chainFiles).world.k, by decide, rfl,
      rfl, rfl⟩
  have hvalues : 10 ∉ chained.name ∧ IsI32 chained.pid ∧ IsI32 chained.lastStatus ∧
      IsI32 chained.exitCode ∧ IsI32 chained.termSignal ∧ IsI32 chained.logPid ∧
      IsI64 chained.startedAt := by
    decide +kernel
  obtain ⟨hname, hpid, hlast, hcode, hsignal, hlogPid, hstarted⟩ := hvalues
  exact hall chained hadded ⟨hpid, hlast, hcode, hsignal, hlogPid, hstarted⟩ hname

end SvcRs
