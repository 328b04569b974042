import Mathlib.Data.List.Nodup
import SvcRs.ForStd.RotatingLog
import SvcRs.Native.Log
import SvcRs.Spec.LogFiles

/-!
# The supervisor's own log on disk

`supervisor_log` keeps the length of its log in a static, and archives the file when that
exceeds the limit. Replayed on a file system, a sequence of messages does what the abstract
rotating log does: no line is lost, and all files stay small.

## Key results

- `logText_length`: a line has at most 256 bytes before its newline
- `logMessage_mirrors`: one message
- `supervisor_log_kept`: every sequence of messages
-/

namespace SvcRs

open Transition (run Along)

/-! ## Lines and names -/

/-- The text grows by at most what is pushed. -/
theorem CStrBuf.push_length_le (p : CStrBuf) (b : Bytes) :
    (p.push b).bytes.length ≤ p.bytes.length + b.length := by
  have hfilter : (withoutNul b).length ≤ b.length := List.length_filter_le ..
  rw [CStrBuf.push_bytes, List.length_take, List.length_append]
  omega

/-- No more digits than fuel. -/
theorem digitsRev_length (fuel v : Nat) : (CStrBuf.digitsRev fuel v).length ≤ fuel := by
  fun_induction CStrBuf.digitsRev fuel v with
  | case1 => exact Nat.le_refl 0
  | case2 => exact Nat.zero_le _
  | case3 fuel v hv ih =>
    rw [List.length_cons]
    omega

/-- At most twenty digits. -/
theorem CStrBuf.pushU64_length_le (p : CStrBuf) (v : Nat) :
    (p.pushU64 v).bytes.length ≤ p.bytes.length + 20 := by
  unfold CStrBuf.pushU64
  split
  · have hbyte := p.push_length_le [48]
    have hone : (p.push [48]).bytes.length = (p.pushByte 48).bytes.length := rfl
    rw [List.length_singleton] at hbyte
    omega
  · have hpush := p.push_length_le (digitsRev 20 v).reverse
    have hdigits := digitsRev_length 20 v
    rw [List.length_reverse] at hpush
    omega

/-- The buffer on the stack has room for the text, whatever the message. -/
theorem logText_length (ts : Nat) (msg : Bytes) : (logText ts msg).length ≤ 256 := by
  unfold logText
  dsimp only
  generalize hpre : ((CStrBuf.new.pushU64 ts).push (bytesOf " [svc-rs] ")).bytes = pre
  have hstamp := CStrBuf.new.pushU64_length_le ts
  have hpush := (CStrBuf.new.pushU64 ts).push_length_le (bytesOf " [svc-rs] ")
  have hlabel : (bytesOf " [svc-rs] ").length = 10 := by decide
  have hnew : CStrBuf.new.bytes.length = 0 := rfl
  rw [hpre] at hpush
  rw [List.length_append, List.length_take]
  omega

/-- An archive never has the name of the log. -/
theorem supervisorArchive_ne (ts : Nat) : supervisorArchive ts ≠ supervisorLogPath := by
  let base := (CStrBuf.fromBytes supervisorLogPath).pushByte 46
  -- path and dot have 20 bytes, one more than the path
  have hbase : base.bytes.length = 20 := by decide +kernel
  have hpush : ∀ b, 20 ≤ (base.push b).bytes.length := by
    intro b
    rw [CStrBuf.push_bytes, List.length_take, List.length_append, hbase]
    simp only [pathBuf]
    omega
  have hlength : 20 ≤ (supervisorArchive ts).length := by
    show 20 ≤ (base.pushU64 ts).bytes.length
    unfold CStrBuf.pushU64
    -- zero is written without the digit loop
    split
    · exact hpush [48]
    · exact hpush _
  have hpath : supervisorLogPath.length = 19 := by decide
  intro he
  rw [he, hpath] at hlength
  omega

/-! ## The log and its file -/

/-- One call of `supervisor_log`. -/
def logMessage (msg : Bytes) (x : SupervisorLog × Kernel) : SupervisorLog × Kernel :=
  supervisorLog msg x.1 x.2

/-- The archive that the event makes. -/
def Event.archived : Event → Option Bytes
  | .rename source target => if source = supervisorLogPath then some target else none
  | _ => none

/-- Every `write` of this system succeeds in the end. -/
def WritesWhole (k : Kernel) : Prop :=
  ∀ n data, (writeLoop (k.oracle n).writes data []).2 = true

/-- The files are those of the abstract log; the statics name the current one. -/
structure Mirrors (old : List Bytes) (d : Disk) (x : SupervisorLog × Kernel)
    (l : RotatingLog Bytes UInt8) : Prop where
  current : (d.after x.2.trace).content supervisorLogPath = l.current
  archives : ∀ a ∈ l.archives, (d.after x.2.trace).content a.1 = a.2
  apart : ∀ a ∈ l.archives, a.1 ≠ supervisorLogPath
  /-- The renames since those to `old` have made the archives, in this order. -/
  names : x.2.trace.filterMap Event.archived = l.archives.map Prod.fst ++ old
  distinct : (l.archives.map Prod.fst).Nodup
  isOpen : 0 ≤ x.1.fd →
    (d.after x.2.trace).openOn x.1.fd = some supervisorLogPath ∧ x.1.len = l.current.length

/-- The log is open again after the message, `lseek` told the truth, and no archive has got
    the name of an earlier one. -/
structure LogWorks (d : Disk) (x : SupervisorLog × Kernel) (msg : Bytes) : Prop where
  isOpen : 0 ≤ (logMessage msg x).1.fd
  seeks : SeeksEnd d (logMessage msg x).2.trace
  fresh : ((logMessage msg x).2.trace.filterMap Event.archived).Nodup

/-- The same system answers. -/
def SameOracle (k k' : Kernel) : Prop := k'.oracle = k.oracle

instance : Std.Refl SameOracle := ⟨fun _ => rfl⟩

instance : IsTrans Kernel SameOracle := ⟨fun _ _ _ h h' => h'.trans h⟩

section

variable {old : List Bytes} {d : Disk} {x : SupervisorLog × Kernel} {l : RotatingLog Bytes UInt8}
  {k : Kernel}

/-! ### Calls -/

theorem openFile_sameOracle (path : Bytes) (mode : OpenMode) (k : Kernel) :
    SameOracle k (openFile path mode k).2 := by
  unfold openFile
  rw [Sys.bind_apply]
  split <;> rfl

theorem closeFd_sameOracle (fd : Int) (k : Kernel) : SameOracle k (closeFd fd k).2 := by
  unfold closeFd
  split <;> rfl

theorem supervisorLogInit_sameOracle (log : SupervisorLog) (k : Kernel) :
    SameOracle k (supervisorLogInit log k).2 := by
  unfold supervisorLogInit
  rw [Sys.bind_apply]
  have hopen := openFile_sameOracle supervisorLogPath .append k
  split <;> exact hopen

theorem supervisorLogRotate_sameOracle (log : SupervisorLog) (k : Kernel) :
    SameOracle k (supervisorLogRotate log k).2 := by
  have hclose := closeFd_sameOracle log.fd k
  exact IsTrans.trans _ _ _ hclose (supervisorLogInit_sameOracle _ _)

theorem supervisorLog_sameOracle (msg : Bytes) (log : SupervisorLog) (k : Kernel) :
    SameOracle k (supervisorLog msg log k).2 := by
  unfold supervisorLog
  split
  · rfl
  · simp only [Sys.bind_apply]
    split
    · split
      · exact supervisorLogRotate_sameOracle _ _
      · rfl
    · rfl

/-- A write that succeeds writes everything. -/
theorem writeAll_whole (h : WritesWhole k) (fd : Int) (data : Bytes) :
    (writeAll fd data k).1 = true ∧ (writeAll fd data k).2.trace = .wrote fd data :: k.trace := by
  have hok := h k.calls data
  refine ⟨hok, ?_⟩
  show .wrote fd (writeLoop _ data []).1 :: k.trace = _
  rw [writeLoop_all _ data [] hok]
  rfl

/-! ### Opening -/

/-- `supervisor_log_init` when it succeeds. -/
theorem supervisorLogInit_success {log : SupervisorLog} (hlog : log.fd < 0)
    (h : 0 ≤ (supervisorLogInit log k).1.fd) :
    ∃ fd len, 0 ≤ fd ∧ (supervisorLogInit log k).1 = ⟨fd, len⟩ ∧
      (supervisorLogInit log k).2.trace =
        .seeked fd len :: .opened supervisorLogPath .append fd :: k.trace := by
  unfold supervisorLogInit at h ⊢
  rw [Sys.bind_apply] at h ⊢
  have hcases := openFile_cases supervisorLogPath .append k
  generalize openFile supervisorLogPath .append k = r at h hcases ⊢
  by_cases hfd : r.1 ≥ 0
  · rw [if_pos hfd]
    have htrace := (hcases.resolve_left (Int.not_lt.mpr hfd)).2
    refine ⟨r.1, (seekEnd r.1 (setCloexec r.1 r.2).2).1, hfd, rfl, ?_⟩
    show .seeked r.1 _ :: r.2.trace = _
    rw [htrace]
    rfl
  · -- the log stays closed
    rw [if_neg hfd] at h
    exact absurd h (Int.not_le.mpr hlog)

/-- The log is open, and its length has been measured. -/
theorem supervisorLogInit_opens {log : SupervisorLog} (hlog : log.fd < 0)
    (h : 0 ≤ (supervisorLogInit log k).1.fd)
    (hseek : SeeksEnd d (supervisorLogInit log k).2.trace) :
    (∀ path, (d.after (supervisorLogInit log k).2.trace).content path =
      (d.after k.trace).content path) ∧
    (supervisorLogInit log k).2.trace.filterMap Event.archived =
      k.trace.filterMap Event.archived ∧
    (d.after (supervisorLogInit log k).2.trace).openOn (supervisorLogInit log k).1.fd =
      some supervisorLogPath ∧
    (supervisorLogInit log k).1.len = ((d.after k.trace).content supervisorLogPath).length := by
  obtain ⟨fd, len, hfd, hstatics, htrace⟩ := supervisorLogInit_success hlog h
  have hafter : d.after (supervisorLogInit log k).2.trace =
      (d.after k.trace).openAppend supervisorLogPath fd := by
    rw [htrace]
    rfl
  have hopen := (d.after k.trace).openOn_openAppend supervisorLogPath fd
  -- `lseek` reports the length of the file that was opened
  have hlen : len = ((d.after k.trace).content supervisorLogPath).length := by
    rw [htrace] at hseek
    have hreported := hseek [] _ _ rfl fd len rfl
    have hlength : ((d.after k.trace).openAppend supervisorLogPath fd).length fd =
        ((d.after k.trace).content supervisorLogPath).length := by
      rw [FileStore.Store.length_of_openOn _ hopen, FileStore.Store.content_openAppend]
    exact hreported.trans (congrArg Int.ofNat hlength)
  -- contents, archives, the descriptor and the length
  refine ⟨fun path => ?_, ?_, ?_, ?_⟩
  · rw [hafter, FileStore.Store.content_openAppend]
  · rw [htrace]
    rfl
  · rw [hafter, hstatics]
    exact hopen
  · rw [hstatics]
    exact hlen

/-! ### One message -/

/-- The line is in the file, and the static says how long that is now. -/
structure Written (d : Disk) (fd : Int) (k k' : Kernel) (line : Bytes) : Prop where
  trace : ∃ evs, k'.trace = evs ++ k.trace
  archived : k'.trace.filterMap Event.archived = k.trace.filterMap Event.archived
  files : (d.after k'.trace).files supervisorLogPath =
    some ((d.after k.trace).content supervisorLogPath ++ line)
  others : ∀ path, path ≠ supervisorLogPath →
    (d.after k'.trace).content path = (d.after k.trace).content path
  isOpen : (d.after k'.trace).openOn fd = some supervisorLogPath

/-- A line and its newline are written. -/
theorem writeLine_written (hwhole : WritesWhole k) {fd : Int}
    (hopen : (d.after k.trace).openOn fd = some supervisorLogPath) (text : Bytes) :
    Written d fd k (writeAll fd [10] (writeAll fd text k).2).2 (text ++ [10]) := by
  obtain ⟨-, hfirst⟩ := writeAll_whole hwhole fd text
  -- the second `write` finds the kernel as willing as the first
  have hwhole' : WritesWhole (writeAll fd text k).2 := hwhole
  obtain ⟨-, hsecond⟩ := writeAll_whole hwhole' fd [10]
  rw [hfirst] at hsecond
  -- the file after the text, before the newline
  let d₁ := (d.after k.trace).append fd text
  have hafter : d.after (writeAll fd [10] (writeAll fd text k).2).2.trace = d₁.append fd [10] := by
    rw [hsecond]
    rfl
  have hopen₁ : d₁.openOn fd = some supervisorLogPath := by
    rw [FileStore.Store.openOn_append]
    exact hopen
  have hcontent : d₁.content supervisorLogPath =
      (d.after k.trace).content supervisorLogPath ++ text :=
    FileStore.Store.content_append _ hopen text
  refine ⟨⟨[_, _], hsecond⟩, ?_, ?_, fun path hne => ?_, ?_⟩
  · rw [hsecond]
    rfl
  · rw [hafter, FileStore.Store.files_append _ hopen₁, hcontent, List.append_assoc]
  · rw [hafter, FileStore.Store.content_append_other _ hopen₁ hne,
      FileStore.Store.content_append_other _ hopen hne]
  · rw [hafter, FileStore.Store.openOn_append]
    exact hopen₁

/-- An archive is the target of a rename. -/
theorem Mirrors.named (h : Mirrors old d x l) {a : Bytes × Bytes} (ha : a ∈ l.archives) :
    a.1 ∈ x.2.trace.filterMap Event.archived := by
  rw [h.names]
  exact List.mem_append_left old (List.mem_map_of_mem ha)

/-- No rotation: the abstract log gets the line, too. -/
theorem Mirrors.fits (h : Mirrors old d x l) {k' : Kernel} {line : Bytes}
    (hw : Written d x.1.fd x.2 k' line) {len : Int} (hlen : len = (l.current ++ line).length) :
    Mirrors old d ({ x.1 with len }, k') ⟨l.current ++ line, l.archives⟩ := by
  refine ⟨?_, fun a ha => ?_, h.apart, ?_, h.distinct, fun _ => ⟨hw.isOpen, hlen⟩⟩
  · show ((d.after k'.trace).files supervisorLogPath).getD [] = _
    rw [hw.files, h.current]
    rfl
  · exact (hw.others a.1 (h.apart a ha)).trans (h.archives a ha)
  · exact hw.archived.trans h.names

/-- A rotation: the file with the line in it becomes an archive. -/
theorem Mirrors.rotates (h : Mirrors old d x l) {k' : Kernel} {line : Bytes}
    (hw : Written d x.1.fd x.2 k' line) {log : SupervisorLog}
    (hopen : 0 ≤ (supervisorLogRotate log k').1.fd)
    (hseek : SeeksEnd d (supervisorLogRotate log k').2.trace)
    (hfresh : ((supervisorLogRotate log k').2.trace.filterMap Event.archived).Nodup) :
    ∃ ts, Mirrors old d (supervisorLogRotate log k')
      ⟨[], (supervisorArchive ts, l.current ++ line) :: l.archives⟩ := by
  let k₁ := (closeFd log.fd k').2
  let ts := (wallNow k₁).1
  let k₂ := (emit (.rename supervisorLogPath (supervisorArchive ts)) (wallNow k₁).2).2
  have hrun : supervisorLogRotate log k' =
      supervisorLogInit { log with fd := -1, len := 0 } k₂ := rfl
  rw [hrun] at hopen hseek hfresh ⊢
  have hclosed : ({ log with fd := -1, len := 0 } : SupervisorLog).fd < 0 := by decide
  obtain ⟨hcontent, harchived, hon, hlen⟩ := supervisorLogInit_opens hclosed hopen hseek
  -- closing changes no file
  have hclose : (d.after k₁.trace).files = (d.after k'.trace).files := by
    show (d.after (closeFd log.fd k').2.trace).files = _
    unfold closeFd
    split <;> rfl
  have hcloseArchived : k₁.trace.filterMap Event.archived = k'.trace.filterMap Event.archived := by
    show (closeFd log.fd k').2.trace.filterMap Event.archived = _
    unfold closeFd
    split <;> rfl
  have hfile : (d.after k₁.trace).files supervisorLogPath = some (l.current ++ line) := by
    rw [hclose, hw.files, h.current]
  have hdisk : d.after k₂.trace =
      (d.after k₁.trace).rename supervisorLogPath (supervisorArchive ts) := rfl
  have hne := supervisorArchive_ne ts
  obtain ⟨htarget, hsource⟩ :=
    FileStore.Store.content_rename_moves _ hfile hne.symm
  have hnames : k₂.trace.filterMap Event.archived =
      supervisorArchive ts :: x.2.trace.filterMap Event.archived := by
    rw [← hw.archived, ← hcloseArchived]
    show (Event.rename _ _ :: k₁.trace).filterMap Event.archived = _
    rw [List.filterMap_cons_some (b := supervisorArchive ts) (by simp [Event.archived])]
  rw [harchived, hnames] at hfresh
  have hnew : supervisorArchive ts ∉ x.2.trace.filterMap Event.archived :=
    (List.nodup_cons.mp hfresh).1
  have hother : ∀ a ∈ l.archives, a.1 ≠ supervisorArchive ts := fun a ha he =>
    hnew (he ▸ h.named ha)
  refine ⟨ts, ?_, fun a ha => ?_, fun a ha => ?_, ?_, ?_, fun _ => ⟨hon, ?_⟩⟩
  · rw [hcontent, hdisk, hsource]
  · rw [hcontent, hdisk]
    cases List.mem_cons.mp ha with
    | inl he =>
      subst he
      exact htarget
    | inr hold =>
      have hkept : (d.after k₁.trace).content a.1 = (d.after k'.trace).content a.1 := by
        unfold FileStore.Store.content
        rw [hclose]
      rw [FileStore.Store.content_rename _ (.inl (h.apart a hold)) (.inl (hother a hold)), hkept,
        hw.others a.1 (h.apart a hold)]
      exact h.archives a hold
  · cases List.mem_cons.mp ha with
    | inl he =>
      subst he
      exact hne
    | inr hold => exact h.apart a hold
  · rw [harchived, hnames, h.names]
    rfl
  · show (supervisorArchive ts :: l.archives.map Prod.fst).Nodup
    refine List.nodup_cons.mpr ⟨fun hmem => ?_, h.distinct⟩
    obtain ⟨a, ha, he⟩ := List.mem_map.mp hmem
    exact hother a ha he
  · rw [hlen, hdisk, hsource]

/-- The limit, as a number of bytes. -/
def supervisorLimit : Nat := supervisorLogLimit.toNat

/-- One message. -/
theorem logMessage_mirrors (h : Mirrors old d x l) (hfd : 0 ≤ x.1.fd)
    (hcur : l.current.length ≤ supervisorLimit) (hwhole : WritesWhole x.2) {msg : Bytes}
    (hok : LogWorks d x msg) : ∃ name ts,
      Mirrors old d (logMessage msg x) (l.add supervisorLimit (name, logText ts msg ++ [10])) := by
  obtain ⟨hopen, hseek, hfresh⟩ := hok
  let k₁ := (wallNow x.2).2
  let ts := (wallNow x.2).1
  let text := logText ts msg
  let k₂ := (writeAll x.1.fd [10] (writeAll x.1.fd text k₁).2).2
  let log : SupervisorLog := { x.1 with len := i64 (x.1.len + text.length + 1) }
  have hwhole₁ : WritesWhole k₁ := hwhole
  obtain ⟨hon, hlen⟩ := h.isOpen hfd
  have hw : Written d x.1.fd x.2 k₂ (text ++ [10]) :=
    have hline := writeLine_written hwhole₁ (k := k₁) hon text
    ⟨hline.trace, hline.archived, hline.files, hline.others, hline.isOpen⟩
  -- the static is the new length of the file
  have hsmall : text.length ≤ 256 := logText_length ts msg
  have hlimit : supervisorLimit = 1048576 := rfl
  have hcount : (l.current ++ (text ++ [10])).length = l.current.length + text.length + 1 := by
    simp only [List.length_append, List.length_singleton]
    omega
  have hnewLen : log.len = (l.current ++ (text ++ [10])).length := by
    show i64 (x.1.len + text.length + 1) = _
    rw [hcount, hlen, i64_eq_self (by omega) (by simp only [i64Max]; omega)]
    omega
  have hrun : logMessage msg x =
      if log.len > supervisorLogLimit then supervisorLogRotate log k₂ else (log, k₂) := by
    have hgiven : ¬x.1.fd < 0 := Int.not_lt.mpr hfd
    have hwrote : (writeAll x.1.fd text k₁).1 = true := (writeAll_whole hwhole₁ _ _).1
    unfold logMessage supervisorLog
    rw [if_neg hgiven, Sys.bind_apply, Sys.bind_apply]
    show (if (writeAll x.1.fd text k₁).1 = true then _ else _ : Sys SupervisorLog) _ = _
    rw [if_pos hwrote, Sys.bind_apply]
    show (if log.len > supervisorLogLimit then supervisorLogRotate log else pure log) k₂ = _
    split <;> rfl
  have hlimitInt : supervisorLogLimit = 1048576 := rfl
  by_cases hexceeds : log.len > supervisorLogLimit
  · rw [hrun, if_pos hexceeds] at hopen hseek hfresh ⊢
    obtain ⟨ts', hrotated⟩ := h.rotates hw hopen hseek hfresh
    refine ⟨supervisorArchive ts', ts, ?_⟩
    have hlong : supervisorLimit < (l.current ++ (text ++ [10])).length := by omega
    exact RotatingLog.add_exceeds (x := (supervisorArchive ts', text ++ [10])) hlong ▸ hrotated
  · rw [hrun, if_neg hexceeds]
    refine ⟨[], ts, ?_⟩
    have hshort : (l.current ++ (text ++ [10])).length ≤ supervisorLimit := by omega
    exact RotatingLog.add_fits (x := (([] : Bytes), text ++ [10])) hshort ▸ h.fits hw hnewLen

/-- A sequence of messages is a run of the abstract log. -/
theorem logMessages_mirror (h : Mirrors old d x l) (hfd : 0 ≤ x.1.fd)
    (hl : l.Within supervisorLimit 257) (hwhole : WritesWhole x.2) {msgs : List Bytes}
    (hok : Along logMessage (LogWorks d) msgs x) :
    ∃ pieces : List (Bytes × Bytes),
      Mirrors old d (run logMessage msgs x) (run (RotatingLog.add supervisorLimit) pieces l) ∧
      (run (RotatingLog.add supervisorLimit) pieces l).Within supervisorLimit 257 ∧
      List.Forall₂ (fun msg piece => ∃ ts, piece = logText ts msg ++ [10]) msgs
        (pieces.map Prod.snd) := by
  -- by induction on the messages, with log and file generalised
  induction msgs generalizing x l with
  | nil => exact ⟨[], h, hl, .nil⟩
  | cons msg msgs ih =>
    obtain ⟨name, ts, hone⟩ := logMessage_mirrors h hfd hl.current hwhole hok.1
    -- a line is cut at 256 bytes, and its newline follows
    have hwidth : (logText ts msg ++ [10]).length ≤ 257 := by
      have htext := logText_length ts msg
      rw [List.length_append, List.length_singleton]
      omega
    have hwithin := hl.add (x := (name, logText ts msg ++ [10])) hwidth
    -- `write` answers whole for the next message too
    have hsame : SameOracle x.2 (logMessage msg x).2 := supervisorLog_sameOracle msg x.1 x.2
    have hwhole' : WritesWhole (logMessage msg x).2 := by
      unfold WritesWhole
      rw [hsame]
      exact hwhole
    obtain ⟨pieces, hrest, hwithin', hlines⟩ := ih hone hok.1.isOpen hwithin hwhole' hok.2
    exact ⟨(name, logText ts msg ++ [10]) :: pieces, hrest, hwithin', .cons ⟨ts, rfl⟩ hlines⟩

end

/-! ## Every sequence of messages -/

/-- After the messages: `archives` are the files that were made meanwhile, oldest first. -/
structure LogKept (d : Disk) (x : SupervisorLog × Kernel) (msgs archives : List Bytes) : Prop where
  distinct : archives.Nodup
  others : supervisorLogPath ∉ archives
  /-- They are the files that the renames since `x` have made, and all of them. -/
  renamed : (run logMessage msgs x).2.trace.filterMap Event.archived =
    archives.reverse ++ x.2.trace.filterMap Event.archived
  /-- The files in order are what was there in the beginning and one line for each message. -/
  kept : ∃ lines : List Bytes,
    List.Forall₂ (fun msg line => ∃ ts, line = logText ts msg ++ [10]) msgs lines ∧
    archives.flatMap (d.after (run logMessage msgs x).2.trace).content ++
        (d.after (run logMessage msgs x).2.trace).content supervisorLogPath =
      (d.after x.2.trace).content supervisorLogPath ++ lines.flatten
  current : ((d.after (run logMessage msgs x).2.trace).content supervisorLogPath).length ≤
    supervisorLimit
  archived : ∀ path ∈ archives,
    supervisorLimit < ((d.after (run logMessage msgs x).2.trace).content path).length ∧
      ((d.after (run logMessage msgs x).2.trace).content path).length ≤ supervisorLimit + 257

/-- If the log is open and within the limit, nothing fails, and no two rotations happen in the
    same second, no line is lost and every file stays small, whatever the messages are. -/
theorem supervisor_log_kept {d : Disk} {x : SupervisorLog × Kernel} (hfd : 0 ≤ x.1.fd)
    (hopen : (d.after x.2.trace).openOn x.1.fd = some supervisorLogPath)
    (hlen : x.1.len = ((d.after x.2.trace).content supervisorLogPath).length)
    (hcur : ((d.after x.2.trace).content supervisorLogPath).length ≤ supervisorLimit)
    (hwhole : WritesWhole x.2) {msgs : List Bytes}
    (hok : Along logMessage (LogWorks d) msgs x) : ∃ archives, LogKept d x msgs archives := by
  let l : RotatingLog Bytes UInt8 := ⟨(d.after x.2.trace).content supervisorLogPath, []⟩
  have hstart : Mirrors (x.2.trace.filterMap Event.archived) d x l :=
    ⟨rfl, fun a ha => absurd ha List.not_mem_nil, fun a ha => absurd ha List.not_mem_nil, rfl,
      List.nodup_nil, fun _ => ⟨hopen, hlen⟩⟩
  have hwithin : l.Within supervisorLimit 257 :=
    ⟨hcur, fun a ha => absurd ha List.not_mem_nil⟩
  obtain ⟨pieces, hmirrors, hbounds, hlines⟩ := logMessages_mirror hstart hfd hwithin hwhole hok
  have hall : (run (RotatingLog.add supervisorLimit) pieces l).all = _ :=
    RotatingLog.all_run pieces l
  generalize run (RotatingLog.add supervisorLimit) pieces l = l' at hmirrors hbounds hall
  -- the archives of the abstract log, read from the disk
  have hread : ∀ as : List (Bytes × Bytes), (∀ a ∈ as, a ∈ l'.archives) →
      (as.map Prod.fst).flatMap (d.after (run logMessage msgs x).2.trace).content =
        as.flatMap Prod.snd := by
    intro as has
    induction as with
    | nil => rfl
    | cons a as ih =>
      have hone := hmirrors.archives a (has a List.mem_cons_self)
      rw [List.map_cons, List.flatMap_cons, List.flatMap_cons, hone,
        ih fun b hb => has b (List.mem_cons_of_mem _ hb)]
  refine ⟨(l'.archives.reverse.map Prod.fst), ?_, ?_, ?_, ⟨_, hlines, ?_⟩, ?_, ?_⟩
  · rw [List.map_reverse]
    exact List.nodup_reverse.mpr hmirrors.distinct
  · intro hmem
    obtain ⟨a, ha, he⟩ := List.mem_map.mp hmem
    exact hmirrors.apart a (List.mem_reverse.mp ha) he
  · rw [← List.map_reverse, List.reverse_reverse]
    exact hmirrors.names
  · rw [hread _ fun a ha => List.mem_reverse.mp ha, hmirrors.current]
    show l'.all = _
    rw [hall, List.flatMap_def]
    rfl
  · rw [hmirrors.current]
    exact hbounds.current
  · intro path hpath
    obtain ⟨a, ha, rfl⟩ := List.mem_map.mp hpath
    have hmem := List.mem_reverse.mp ha
    rw [hmirrors.archives a hmem]
    exact hbounds.archives a hmem

/-- The log is open, and has reached the limit. -/
def fullLog : SupervisorLog × Kernel :=
  (⟨3, 1048576⟩, { (openingOn plainFiles).world.k with
    calls := 0, fds := [0, 1, 2, 3], oracle := opening plainFiles })

/-- The log is full. -/
def fullLogDisk : Disk where
  files path := if path = supervisorLogPath then some (List.replicate 1048576 65) else none
  openOn fd := if fd = 3 then some supervisorLogPath else none

/-- The next line is the last one in the file. -/
theorem supervisor_log_kept_full :
    ∃ archives, LogKept fullLogDisk fullLog [bytesOf "up"] archives := by
  have hopen : (fullLogDisk.after fullLog.2.trace).openOn 3 = some supervisorLogPath := rfl
  have hcontent : ((fullLogDisk.after fullLog.2.trace).content supervisorLogPath).length =
      1048576 := by
    show ((if supervisorLogPath = supervisorLogPath then some (List.replicate 1048576 (65 : UInt8))
      else none).getD []).length = _
    rw [if_pos rfl, Option.getD_some, List.length_replicate]
  have hwhole : WritesWhole fullLog.2 := by
    intro n data
    cases data <;> rfl
  have htrace : (logMessage (bytesOf "up") fullLog).2.trace =
      [.seeked 14 0, .opened supervisorLogPath .append 14,
        .rename supervisorLogPath (supervisorArchive 0), .closed 3, .wrote 3 [10],
        .wrote 3 (logText 0 (bytesOf "up"))] := by decide +kernel
  have hok : LogWorks fullLogDisk fullLog (bytesOf "up") := by
    refine ⟨by decide +kernel, ?_, by rw [htrace]; decide +kernel⟩
    rw [htrace]
    -- the file that is opened in the end is a new one
    have hwritten := (seeksEnd_nil fullLogDisk).cons
      (e := .wrote 3 (logText 0 (bytesOf "up"))) nofun
    have hline := (hwritten.cons (e := .wrote 3 [10]) nofun).cons (e := .closed 3) nofun
    have hmoved := (hline.cons (e := .rename supervisorLogPath (supervisorArchive 0)) nofun).cons
      (e := .opened supervisorLogPath .append 14) nofun
    refine hmoved.cons fun fd len he => ?_
    cases he
    let d₁ := fullLogDisk.append 3 (logText 0 (bytesOf "up"))
    have hon : d₁.openOn 3 = some supervisorLogPath := by
      rw [FileStore.Store.openOn_append]
      exact hopen
    have hfile : ((d₁.append 3 [10]).close 3).files supervisorLogPath =
        some (d₁.content supervisorLogPath ++ [10]) := FileStore.Store.files_append _ hon [10]
    have hnew : supervisorLogPath ≠ supervisorArchive 0 := (supervisorArchive_ne 0).symm
    have hempty := (FileStore.Store.content_rename_moves _ hfile hnew).2
    have hlength := FileStore.Store.length_of_openOn (fullLogDisk.after
      [.opened supervisorLogPath .append 14, .rename supervisorLogPath (supervisorArchive 0),
        .closed 3, .wrote 3 [10], .wrote 3 (logText 0 (bytesOf "up"))])
      (FileStore.Store.openOn_openAppend _ supervisorLogPath 14)
    rw [hlength]
    show (0 : Int) = ((FileStore.Store.openAppend _ supervisorLogPath 14).content _).length
    rw [FileStore.Store.content_openAppend]
    exact congrArg (fun b : Bytes => (b.length : Int)) hempty.symm
  have hlen : fullLog.1.len =
      ((fullLogDisk.after fullLog.2.trace).content supervisorLogPath).length := by
    rw [hcontent]
    rfl
  exact supervisor_log_kept (by decide) hopen hlen (Nat.le_of_eq hcontent) hwhole ⟨hok, trivial⟩

end SvcRs
