import SvcRs.ForStd.List
import SvcRs.Spec.Privileges

/-!
# The `user` file

What a `user` file denotes, and with which uid the main process is executed. The source
looks at the first 64 bytes, cuts blanks off the end only, and takes a file that it can
make no sense of for a missing one.

## Key results

- `parseNumericOrName_eq`: the numeric parser computes the saturated decimal value
- `parseUserGroup_user`: the uid in the record is what the source reads in the file
- `user_fails_closed_iff`: when the main process runs as the user that the file denotes, or
  not at all
- `unknown_user_runs_as_root`: a name that does not resolve
-/

namespace SvcRs

/-! ## What the file denotes -/

/-- Digits only, and at least one. -/
def isDecimal (b : Bytes) : Bool := b ≠ [] && b.all isDigit

/-- The number that a string of digits stands for. -/
def decimalValue (b : Bytes) : Nat := b.foldl (fun n c => n * 10 + (c - 48).toNat) 0

/-- A blank or a newline. -/
def isSpace (c : UInt8) : Bool := isNewline c || isBlank c

/-- The text without the blanks and line ends around it. -/
def stripped (b : Bytes) : Bytes := trimEnd isSpace (b.dropWhile isSpace)

/-- The number in the file if it fits in 32 bits, otherwise the uid of the user it names. -/
def denotedUid (passwd : Bytes → Option UInt32) (content : Bytes) : Option UInt32 :=
  let text := stripped content
  if isDecimal text && decimalValue text < UInt32.size then some (UInt32.ofNat (decimalValue text))
  else if text.contains 0 then none
  else passwd text

/-! ## What the source reads in it -/

/-- The part of the file that fits in the buffer. -/
def seenPart (content : Bytes) : Bytes := content.take nameBuf

/-- That part without the spaces and line ends behind it. -/
def seenText (content : Bytes) : Bytes :=
  trimEnd (fun c => isNewline c || c = 32) (seenPart content)

/-- The uid that `parse_user_group` finds: the number, saturated, or the uid of the user
    whose name is left when NULs are cut off the end as well. -/
def userRead (passwd : Bytes → Option UInt32) (content : Bytes) : Option UInt32 :=
  if isDecimal (seenText content) then
    some (UInt32.ofNat (min (decimalValue (seenText content)) 4294967295))
  else (cleanName (seenPart content)).bind passwd

/-- Saturation at every digit is saturation at the end. -/
theorem parseDigits_eq (b : Bytes) (n : Nat) :
    parseDigits b (min n 4294967295) =
      if b.all isDigit then
        some (min (b.foldl (fun n c => n * 10 + (c - 48).toNat) n) 4294967295)
      else none := by
  induction b generalizing n with
  | nil => simp [parseDigits]
  | cons c rest ih =>
    unfold parseDigits
    cases hc : isDigit c with
    | false => simp [hc]
    | true =>
      -- clamping at every step comes to the same as clamping the whole value once
      have hstep : saturateU32 (saturateU32 (min n 4294967295 * 10) + (c - 48).toNat) =
          min (n * 10 + (c - 48).toNat) 4294967295 := by
        unfold saturateU32
        omega
      rw [if_pos rfl, hstep, ih]
      simp [hc]

/-- What the parser makes of the file. -/
theorem parseNumericOrName_eq (data : Bytes) :
    parseNumericOrName data =
      let text := trimEnd (fun c => isNewline c || c = 32) data
      if isDecimal text then some (UInt32.ofNat (min (decimalValue text) 4294967295))
      else none := by
  unfold parseNumericOrName
  dsimp only
  generalize trimEnd (fun c => isNewline c || c = 32) data = text
  have hdigits := parseDigits_eq text 0
  simp only [Nat.zero_min] at hdigits
  -- an empty text is neither a number nor a name
  by_cases hnil : text = []
  · simp [hnil, isDecimal]
  · have hlen : ¬text.length = 0 := by simpa using hnil
    rw [if_neg hlen, hdigits]
    cases hall : text.all isDigit with
    | false => simp [isDecimal, hall]
    | true => simp [isDecimal, hall, hnil, decimalValue]

/-- The answers that `parse_user_group` gets: the content of the file, and the user
    database. -/
structure UserAnswers (k : Kernel) (s : Service) (content : Bytes)
    (passwd : Bytes → Option UInt32) : Prop where
  read : (k.oracle k.calls).fs.read (joinPath s.dir "/user") = some content
  lookup : (k.oracle (k.calls + 1)).fs.uidOf = passwd

section

variable {k : Kernel} {s : Service} {content : Bytes} {passwd : Bytes → Option UInt32}

/-- The user database is asked for the cleaned name. -/
theorem resolveUid_fst (name : Bytes) (k : Kernel) :
    (resolveUid name k).1 = (cleanName name).bind (k.oracle k.calls).fs.uidOf := by
  unfold resolveUid
  cases cleanName name <;> rfl

/-- `parseIdFile` on the user file of `s`. -/
theorem parseIdFile_user (h : UserAnswers k s content passwd) (hne : content ≠ []) :
    (parseIdFile (joinPath s.dir "/user") resolveUid k).1 = userRead passwd content := by
  have hread : (readFileToBuf (joinPath s.dir "/user") nameBuf k).1 = some (seenPart content) := by
    show ((k.oracle k.calls).fs.read _).map _ = _
    rw [h.read]
    rfl
  -- the first 64 bytes of a file that is not empty are not empty
  obtain ⟨c, rest, hseen⟩ : ∃ c rest, seenPart content = c :: rest := by
    cases content with
    | nil => exact absurd rfl hne
    | cons c rest => exact ⟨c, rest.take 63, rfl⟩
  have hparse : parseNumericOrName (seenPart content) = if isDecimal (seenText content) then
      some (UInt32.ofNat (min (decimalValue (seenText content)) 4294967295)) else none :=
    parseNumericOrName_eq _
  unfold parseIdFile userRead
  rw [Sys.bind_apply, hread, hseen]
  dsimp only
  rw [← hseen, hparse]
  -- a decimal text is the id itself, any other is looked up as a name
  by_cases hdecimal : isDecimal (seenText content) = true
  · rw [if_pos hdecimal, if_pos hdecimal]
    rfl
  · rw [if_neg hdecimal, if_neg hdecimal]
    show (resolveUid (seenPart content) _).1 = _
    rw [resolveUid_fst, ← h.lookup]
    rfl

/-- The uid in the record. -/
theorem parseUserGroup_user (h : UserAnswers k s content passwd) (hne : content ≠ []) :
    (parseUserGroup s k).1.hasUid = (userRead passwd content).isSome ∧
      (parseUserGroup s k).1.uid = (userRead passwd content).getD 0 := by
  unfold parseUserGroup
  rw [Sys.bind_apply, parseIdFile_user h hne, Sys.bind_apply, Sys.pure_apply]
  -- the group file does not matter
  generalize (parseIdFile _ resolveGid _).1 = gid
  cases userRead passwd content <;> cases gid <;> exact ⟨rfl, rfl⟩

end

/-! ## The uid of the main process -/

/-- The supervisor runs as root. -/
def Creds.IsRoot (c : Creds) : Prop := c.ruid = 0 ∧ c.euid = 0

/-- `setgid` and `setgroups` leave the uids alone. -/
theorem grouped_uids (gid : UInt32) (p : Proc) :
    (grouped gid p).ruid = p.creds.ruid ∧ (grouped gid p).euid = p.creds.euid := by
  -- `setgid` and `setgroups` change group ids only
  have hset : ∀ c : Creds, (c.setgid gid).ruid = c.ruid ∧ (c.setgid gid).euid = c.euid := by
    intro c
    unfold Creds.setgid
    split
    · exact ⟨rfl, rfl⟩
    · split
      · exact ⟨rfl, rfl⟩
      · split <;> exact ⟨rfl, rfl⟩
  have hgroups : ∀ c : Creds, (c.setgroups gid).ruid = c.ruid ∧ (c.setgroups gid).euid = c.euid := by
    intro c
    unfold Creds.setgroups
    split <;> exact ⟨rfl, rfl⟩
  unfold grouped
  split
  · exact ⟨rfl, rfl⟩
  · dsimp only
    -- each of the two calls may fail
    split <;> split
    · exact ⟨(hgroups _).1.trans (hset _).1, (hgroups _).2.trans (hset _).2⟩
    · exact hgroups _
    · exact hset _
    · exact ⟨rfl, rfl⟩

/-- The real uid that a child of root has after `dropPrivileges`. -/
theorem dropped_ruid {s : Service} {p : Proc} (hroot : p.creds.IsRoot) :
    (dropped s p).ruid = if s.hasUid && p.env.setuid && s.uid ≠ noId then s.uid else 0 := by
  obtain ⟨hr, he⟩ := grouped_uids s.gid p
  unfold dropped
  cases s.hasUid with
  | false => exact hroot.1
  | true =>
    cases p.env.setuid with
    | false => exact hr.trans hroot.1
    | true =>
      simp only [if_true, Creds.setuid, he.trans hroot.2, Bool.true_and]
      -- `setuid` refuses `(uid_t) -1`, so root stays root
      by_cases hno : s.uid = noId
      · simp [hno, hr.trans hroot.1]
      · simp [hno]

/-- The main process of any record with this user is executed with the real uid `uid`, or
    not at all. -/
def RunsOnlyAs (s : Service) (uid : Option UInt32) : Prop :=
  ∀ (r : Service) (sf : StartFds) (p q : Proc), r.hasUid = s.hasUid → r.uid = s.uid →
    p.creds.IsRoot → Execs (mainChild r sf) p q → uid = some q.creds.ruid

/-- The ids of a main process that is executed. -/
theorem execs_main_ruid {r : Service} {sf : StartFds} {p q : Proc}
    (h : Execs (mainChild r sf) p q) : q.creds.ruid = (dropped r p).ruid ∧
      (r.hasUid = true → (dropped r p).ruid = r.uid) := by
  obtain ⟨⟨-, huid, -⟩, hq⟩ := (execs_mainChild sf).mp h
  rw [hq]
  exact ⟨rfl, huid⟩

/-- On a system where no call fails, the main process gets to `execve` unless its uid
    is the impossible one. -/
theorem rootProc_execs (r : Service) (sf : StartFds) (huid : r.hasUid = true → r.uid ≠ noId) :
    Execs (mainChild r sf) rootProc (atExec r rootProc (.run sf)) := by
  apply (execs_mainChild sf).mpr
  refine ⟨⟨fun _ => rfl, fun hhas => ?_, rfl⟩, rfl⟩
  rw [dropped_ruid ⟨rfl, rfl⟩]
  simp [hhas, huid hhas, rootProc]

/-- What a record with these fields runs as. -/
theorem runsOnlyAs_iff (s : Service) (uid : Option UInt32) :
    RunsOnlyAs s uid ↔
      if s.hasUid then s.uid = noId ∨ uid = some s.uid else uid = some 0 := by
  cases hhas : s.hasUid with
  | false =>
    -- without a uid the main process runs as root
    simp only [Bool.false_eq_true, if_false]
    constructor
    · intro h
      have hexecs := rootProc_execs s {} (by simp [hhas])
      have hrun := h s {} _ _ rfl rfl ⟨rfl, rfl⟩ hexecs
      rw [(execs_main_ruid hexecs).1, dropped_ruid ⟨rfl, rfl⟩] at hrun
      simpa [hhas] using hrun
    · intro h r sf p q hr _ hroot hexecs
      rw [(execs_main_ruid hexecs).1, dropped_ruid hroot, hr, hhas, h]
      rfl
  | true =>
    -- with one, a child that gets as far as `execve` has it
    simp only [if_true]
    constructor
    · intro h
      by_cases hno : s.uid = noId
      · exact .inl hno
      · have hexecs := rootProc_execs s {} fun _ => hno
        have hrun := h s {} _ _ rfl rfl ⟨rfl, rfl⟩ hexecs
        rw [(execs_main_ruid hexecs).1, (execs_main_ruid hexecs).2 hhas] at hrun
        exact .inr hrun
    · intro h r sf p q hr huid hroot hexecs
      obtain ⟨hq, hchecked⟩ := execs_main_ruid hexecs
      have hsame := hchecked (hr.trans hhas)
      rw [hq, hsame, huid]
      rcases h with hno | h
      · -- no call gives the impossible uid, so the check ends the child
        rw [dropped_ruid hroot, huid, hno] at hsame
        simp [noId] at hsame
      · exact h

/-! ## The file and the process -/

/-- The source reads in the file what the file denotes, or a number that no process can
    have, or nothing at all in a file that denotes root. -/
def ReadsDenoted (passwd : Bytes → Option UInt32) (content : Bytes) : Prop :=
  if isDecimal (seenText content) then
    4294967295 ≤ decimalValue (seenText content) ∨
      denotedUid passwd content = some (UInt32.ofNat (decimalValue (seenText content)))
  else
    match (cleanName (seenPart content)).bind passwd with
    | some uid => uid = noId ∨ denotedUid passwd content = some uid
    | none => denotedUid passwd content = some 0

/-- For every `user` file that is not empty: the main process runs only as the user that the file
    denotes if and only if the source reads what the file denotes. -/
theorem user_fails_closed_iff {k : Kernel} {s : Service} {content : Bytes}
    {passwd : Bytes → Option UInt32} (h : UserAnswers k s content passwd) (hne : content ≠ []) :
    RunsOnlyAs (parseUserGroup s k).1 (denotedUid passwd content) ↔
      ReadsDenoted passwd content := by
  obtain ⟨hhas, huid⟩ := parseUserGroup_user h hne
  rw [runsOnlyAs_iff, hhas, huid]
  unfold ReadsDenoted userRead
  by_cases hdecimal : isDecimal (seenText content) = true
  · rw [if_pos hdecimal, if_pos hdecimal]
    simp only [Option.isSome_some, if_true, Option.getD_some]
    generalize decimalValue (seenText content) = n
    -- from 2^32 - 1 on, the number becomes `(uid_t) -1`
    by_cases hbig : 4294967295 ≤ n
    · have hno : UInt32.ofNat (min n 4294967295) = noId := by
        rw [Nat.min_eq_right hbig]
        rfl
      rw [hno]
      exact ⟨fun _ => .inl hbig, fun _ => .inl rfl⟩
    · have hmin : min n 4294967295 = n := by omega
      have hno : UInt32.ofNat n ≠ noId := by
        intro he
        have hnat := congrArg UInt32.toNat he
        rw [UInt32.toNat_ofNat_of_lt' (by simp only [UInt32.size]; omega)] at hnat
        simp only [noId] at hnat
        exact absurd hnat (by simp; omega)
      simp [hmin, hno, hbig]
  -- a name is looked up, and an unknown one leaves the service without a user
  · rw [if_neg hdecimal, if_neg hdecimal]
    cases (cleanName (seenPart content)).bind passwd with
    | none => simp
    | some uid => simp

/-- White space that the source cuts off is white space. -/
theorem isSpace_of_trimmed {c : UInt8} (h : (isNewline c || c = 32) = true) : isSpace c = true := by
  unfold isSpace isBlank
  cases hnewline : isNewline c with
  | true => rfl
  | false =>
    have hblank : c = 32 := by simpa [hnewline] using h
    simp [hblank]

/-- A digit is no white space. -/
theorem not_isSpace_of_isDigit {c : UInt8} (h : isDigit c = true) : isSpace c = false := by
  simp only [isDigit, Bool.and_eq_true, decide_eq_true_eq] at h
  have hlow : 48 ≤ c.toNat := h.1
  have hne : ∀ d : UInt8, d.toNat < 48 → c ≠ d := by
    rintro d hd rfl
    omega
  simp [isSpace, isNewline, isBlank, hne 10 (by decide), hne 13 (by decide), hne 32 (by decide),
    hne 9 (by decide)]

/-- Digits with nothing but white space behind them are the stripped text. -/
theorem stripped_of_decimal {digits space : Bytes} (hdigits : isDecimal digits = true)
    (hspace : ∀ c ∈ space, isSpace c = true) : stripped (digits ++ space) = digits := by
  unfold isDecimal at hdigits
  obtain ⟨hne, hall⟩ := Bool.and_eq_true_iff.mp hdigits
  rw [List.all_eq_true] at hall
  have hkept : ∀ c ∈ digits, isSpace c = false := fun c hc => not_isSpace_of_isDigit (hall c hc)
  -- a decimal text has a first digit, which stops the leading trim
  cases digits with
  | nil => simp at hne
  | cons c digits =>
    have hfirst : ((c :: digits) ++ space).dropWhile isSpace = (c :: digits) ++ space := by
      rw [List.cons_append, List.dropWhile_cons_of_neg]
      simp [hkept c List.mem_cons_self]
    unfold stripped
    rw [hfirst]
    show (c :: digits ++ space).rdropWhile isSpace = _
    rw [List.rdropWhile_append_of_pos hspace]
    apply List.rdropWhile_of_getLast?
    intro b hb
    exact hkept b (List.mem_of_getLast? hb)

/-- A decimal text in a file that the buffer holds is read as what it denotes. -/
theorem readsDenoted_decimal {passwd : Bytes → Option UInt32} {content : Bytes}
    (hlen : content.length ≤ nameBuf) (hdecimal : isDecimal (seenText content) = true) :
    ReadsDenoted passwd content := by
  -- nothing is cut
  have hseen : seenText content = content.rdropWhile fun c => isNewline c || c = 32 := by
    unfold seenText seenPart
    rw [List.take_of_length_le hlen]
    rfl
  have hsplit : content =
      seenText content ++ content.rtakeWhile fun c => isNewline c || c = 32 := by
    rw [hseen]
    exact List.rdropWhile_append_rtakeWhile.symm
  have hspace : ∀ c ∈ content.rtakeWhile (fun c => isNewline c || c = 32), isSpace c = true := by
    intro c hc
    have htrimmed := List.mem_rtakeWhile_imp (p := fun c => isNewline c || c = 32) hc
    exact isSpace_of_trimmed htrimmed
  -- and what is dropped at the end are blanks
  have hstripped : stripped content = seenText content := by
    have hdigits := stripped_of_decimal hdecimal hspace
    rwa [← hsplit] at hdigits
  unfold ReadsDenoted
  rw [if_pos hdecimal]
  -- saturation gives the id that no call accepts
  by_cases hbig : 4294967295 ≤ decimalValue (seenText content)
  · exact .inl hbig
  · right
    have hsmall : decimalValue (seenText content) < UInt32.size := by
      simp only [UInt32.size]
      omega
    unfold denotedUid
    rw [hstripped]
    simp [hdecimal, hsmall]

/-- A service `a` with `run` and this `user` file, on a system without users. -/
def userFiles (content : Bytes) : FileSys where
  access path _ := path = bytesOf "/s/a/run"
  read path := if path = bytesOf "/s/a/user" then some content else none

/-- The record that `add_service` has when it reads the file. -/
def userRecord : Service := { Service.empty with dir := bytesOf "/s/a" }

/-- A number is a uid whatever the user database holds. -/
theorem user_fails_closed_number :
    UserAnswers (bootOn (userFiles (bytesOf "1000\n"))).world.k userRecord (bytesOf "1000\n")
        (fun _ => none) ∧
      RunsOnlyAs (parseUserGroup userRecord (bootOn (userFiles (bytesOf "1000\n"))).world.k).1
        (some 1000) := by
  have hanswers : UserAnswers (bootOn (userFiles (bytesOf "1000\n"))).world.k userRecord
      (bytesOf "1000\n") (fun _ => none) := ⟨by decide +kernel, rfl⟩
  have hdenoted : denotedUid (fun _ => none) (bytesOf "1000\n") = some 1000 := by decide +kernel
  have hdecimal : isDecimal (seenText (bytesOf "1000\n")) = true := by decide +kernel
  have hvalue : decimalValue (seenText (bytesOf "1000\n")) = 1000 := by decide +kernel
  -- a decimal text is read as it stands
  have hreads : ReadsDenoted (fun _ => none) (bytesOf "1000\n") := by
    unfold ReadsDenoted
    rw [if_pos hdecimal, hvalue, hdenoted]
    exact .inr rfl
  have hruns := (user_fails_closed_iff hanswers (by decide +kernel)).mpr hreads
  rw [hdenoted] at hruns
  exact ⟨hanswers, hruns⟩

/-- After the first scan. -/
def userStarted (content : Bytes) : World :=
  (mainLoop [{ listing := some [bytesOf "a"] }] (bootOn (userFiles content))).world

/-- The name of a user that does not exist denotes no uid, but the service is started, and
    its main process is executed as root. -/
theorem unknown_user_runs_as_root :
    denotedUid (fun _ => none) (bytesOf "nosuchuser\n") = none ∧
      ((userStarted (bytesOf "nosuchuser\n")).svc 0).state = .running ∧
      ∀ sf, ∃ q, Execs (mainChild ((userStarted (bytesOf "nosuchuser\n")).svc 0) sf) rootProc q ∧
        q.creds.ruid = 0 := by
  have hdenoted : denotedUid (fun _ => none) (bytesOf "nosuchuser\n") = none := by decide +kernel
  have hrecord : ((userStarted (bytesOf "nosuchuser\n")).svc 0).state = .running ∧
      ((userStarted (bytesOf "nosuchuser\n")).svc 0).hasUid = false := by decide +kernel
  generalize (userStarted (bytesOf "nosuchuser\n")).svc 0 = a at hrecord ⊢
  refine ⟨hdenoted, hrecord.1, fun sf => ?_⟩
  have hexecs := rootProc_execs a sf fun hhas => absurd (hrecord.2.symm.trans hhas) (by decide)
  refine ⟨_, hexecs, ?_⟩
  -- without a user nothing is dropped
  rw [(execs_main_ruid hexecs).1, dropped_ruid ⟨rfl, rfl⟩, hrecord.2]
  rfl

end SvcRs
