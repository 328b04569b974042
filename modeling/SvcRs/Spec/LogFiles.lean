import SvcRs.ForStd.FileStore
import SvcRs.ForStd.Transition
import SvcRs.Spec.PathBuilder
import SvcRs.Spec.Run

/-!
# Log files on disk

The trace of the supervisor replayed on a file system: what a sequence of `write_log`
calls leaves in the current log and in the archives. `rotate_log` looks for the current
log in the service directory, but `open_log` puts it in the directory `log` below; so
nothing is ever moved, and the log grows.

## Key results

- `rename_spares_log`: the rename of `rotate_log` never concerns the current log
- `writeLog_content`: every successful `write_log` appends to the current log
- `logs_rotate_iff`: when the current log stays bounded and is rotated
- `log_outgrows_limit`: the first chunk beyond the limit
-/

namespace SvcRs

/-! ## Paths -/

/-- The file that `open_log` opens. -/
def logPath (s : Service) (err : Bool) : Bytes := joinPath (joinPath s.dir "/log") (streamSuffix err)

/-- The file that `rotate_log` renames. -/
def renamedPath (s : Service) (err : Bool) : Bytes := joinPath s.dir (streamSuffix err)

/-- Both suffixes begin with `/c`. -/
theorem streamSuffix_bytes (err : Bool) :
    ∃ rest, withoutNul (bytesOf (streamSuffix err)) = 47 :: 99 :: rest := by
  cases err with
  | false => exact ⟨_, rfl⟩
  | true => exact ⟨_, rfl⟩

/-- The path of the log continues with `/l` behind the directory. -/
theorem logPath_eq (s : Service) (err : Bool) :
    ∃ rest, logPath s err = (withoutNul s.dir ++ 47 :: 108 :: rest).take (pathBuf - 1) := by
  unfold logPath
  rw [joinPath_eq, joinPath_eq, withoutNul_take, List.take_take_append, List.append_assoc]
  exact ⟨_, rfl⟩

/-- The path that is renamed continues with `/c`. -/
theorem renamedPath_eq (s : Service) (err : Bool) :
    ∃ rest, renamedPath s err = (withoutNul s.dir ++ 47 :: 99 :: rest).take (pathBuf - 1) := by
  obtain ⟨rest, hrest⟩ := streamSuffix_bytes err
  unfold renamedPath
  rw [joinPath_eq, hrest]
  exact ⟨rest, rfl⟩

/-- So does the path of the archive. -/
theorem archivePath_eq (s : Service) (err : Bool) (ts : Nat) (rotations : UInt32) :
    ∃ rest, archivePath s err ts rotations =
      (withoutNul s.dir ++ 47 :: 99 :: rest).take (pathBuf - 1) := by
  -- every push adds something behind what is there
  have hpush : ∀ (x : Bytes) (p : CStrBuf) (b : Bytes),
      (∃ rest, p.bytes = (x ++ rest).take (pathBuf - 1)) →
      ∃ rest, (p.push b).bytes = (x ++ rest).take (pathBuf - 1) := by
    intro x p b ⟨rest, hp⟩
    rw [CStrBuf.push_bytes, hp, List.take_take_append, List.append_assoc]
    exact ⟨_, rfl⟩
  have hnumber : ∀ (x : Bytes) (p : CStrBuf) (v : Nat),
      (∃ rest, p.bytes = (x ++ rest).take (pathBuf - 1)) →
      ∃ rest, (p.pushU64 v).bytes = (x ++ rest).take (pathBuf - 1) := by
    intro x p v hp
    unfold CStrBuf.pushU64
    split
    · exact hpush x p [48] hp
    · exact hpush x p _ hp
  obtain ⟨rest, hrest⟩ := renamedPath_eq s err
  let x := withoutNul s.dir ++ 47 :: 99 :: rest
  have hbase : ∃ more, ((CStrBuf.fromBytes s.dir).push (bytesOf (streamSuffix err))).bytes =
      (x ++ more).take (pathBuf - 1) := ⟨[], by rw [List.append_nil]; exact hrest⟩
  obtain ⟨more, hmore⟩ := hnumber x _ rotations.toNat
    (hpush x _ [46] (hnumber x _ ts (hpush x _ [46] hbase)))
  refine ⟨rest ++ more, ?_⟩
  rw [archivePath]
  exact hmore.trans (by simp only [x, List.append_assoc, List.cons_append])

/-- Two paths that go on differently below the service directory differ, unless the
    directory alone fills the buffer. -/
theorem take_branches {dir a b : Bytes} {x y : UInt8} (hne : x ≠ y) (hlen : dir.length < 1022) :
    (dir ++ 47 :: x :: a).take (pathBuf - 1) ≠ (dir ++ 47 :: y :: b).take (pathBuf - 1) := by
  intro h
  have hat : ∀ (z : UInt8) (c : Bytes),
      ((dir ++ 47 :: z :: c).take (pathBuf - 1))[dir.length + 1]? = some z := by
    intro z c
    rw [List.getElem?_take_of_lt (by simp only [pathBuf]; omega),
      List.getElem?_append_right (by omega)]
    simp
  have hget := congrArg (fun l : Bytes => l[dir.length + 1]?) h
  have hsame := (hat x a).symm.trans (hget.trans (hat y b))
  exact hne (Option.some.inj hsame)

/-- With a directory this long, the next byte is the last one. -/
theorem take_full {dir a b : Bytes} {x : UInt8} (hlen : 1022 ≤ dir.length) :
    (dir ++ x :: a).take (pathBuf - 1) = (dir ++ x :: b).take (pathBuf - 1) := by
  have hsplit : ∀ c, dir ++ x :: c = (dir ++ [x]) ++ c := by
    intro c
    rw [List.append_assoc]
    rfl
  have hcut : pathBuf - 1 ≤ (dir ++ [x]).length := by
    rw [List.length_append, List.length_singleton]
    simp only [pathBuf]
    omega
  rw [hsplit a, hsplit b, List.take_append_of_le_length hcut, List.take_append_of_le_length hcut]

/-- The current log is neither the source nor the target of the rename, or these are the
    same file. -/
theorem rename_spares_log (s : Service) (err : Bool) (ts : Nat) (rotations : UInt32) :
    (logPath s err ≠ renamedPath s err ∨ renamedPath s err = archivePath s err ts rotations) ∧
      (logPath s err ≠ archivePath s err ts rotations ∨
        renamedPath s err = archivePath s err ts rotations) := by
  obtain ⟨a, ha⟩ := logPath_eq s err
  obtain ⟨b, hb⟩ := renamedPath_eq s err
  obtain ⟨c, hc⟩ := archivePath_eq s err ts rotations
  rw [ha, hb, hc]
  by_cases hlen : (withoutNul s.dir).length < 1022
  · exact ⟨.inl (take_branches (by decide) hlen), .inl (take_branches (by decide) hlen)⟩
  · have hsame := take_full (a := 99 :: b) (b := 99 :: c) (x := 47) (Nat.not_lt.mp hlen)
    exact ⟨.inr hsame, .inr hsame⟩

/-! ## The disk -/

/-- The file system as the supervisor sees it. -/
abbrev Disk := FileStore.Store Bytes Int UInt8

/-- What an event does to the files. -/
def Event.effect : Event → Disk → Disk
  | .opened path .append fd, d => d.openAppend path fd
  | .opened path .trunc fd, d => d.openTrunc path fd
  | .closed fd, d => d.close fd
  | .wrote fd data, d => d.append fd data
  | .rename source target, d => d.rename source target
  | .unlinked path, d => d.unlink path
  | _, d => d

/-- The disk after the events, of which the newest comes first. -/
def Disk.after (d : Disk) : List Event → Disk
  | [] => d
  | e :: older => e.effect (after d older)

/-- `lseek` has reported the length of the file every time. -/
def SeeksEnd (d : Disk) (trace : List Event) : Prop :=
  Transition.Each
    (fun e older => ∀ fd (len : Int), e = .seeked fd len → len = (d.after older).length fd) trace

/-- What holds of a trace holds of its beginning. -/
theorem SeeksEnd.suffix {d : Disk} {trace older : List Event} (h : SeeksEnd d trace)
    (hsuffix : older <:+ trace) : SeeksEnd d older := by
  obtain ⟨newer, rfl⟩ := hsuffix
  intro evs e rest heq
  exact h (newer ++ evs) e rest (by rw [heq, List.append_assoc])

/-- No `lseek` yet. -/
theorem seeksEnd_nil (d : Disk) : SeeksEnd d [] := Transition.each_nil _

/-- One more event. -/
theorem SeeksEnd.cons {d : Disk} {older : List Event} {e : Event} (h : SeeksEnd d older)
    (he : ∀ fd (len : Int), e = .seeked fd len → len = (d.after older).length fd) :
    SeeksEnd d (e :: older) := Transition.each_cons.mpr ⟨he, h⟩

/-- The current log holds `cur`, and the record says so: the descriptor, if there is one,
    is open on that file, and the length is that of the file. -/
structure Logs (d : Disk) (err : Bool) (s : Service) (k : Kernel) (cur : Bytes) : Prop where
  content : (d.after k.trace).content (logPath s err) = cur
  isOpen : 0 ≤ (s.stream err).logFd →
    (d.after k.trace).openOn (s.stream err).logFd = some (logPath s err) ∧
      (s.stream err).logLen = cur.length

section

variable {d : Disk} {err : Bool} {s : Service} {k : Kernel} {cur data : Bytes}

/-- Calls only add to the trace. -/
abbrev Grows {α : Type} (m : Sys α) : Prop :=
  StateM.Keeps (fun k k' : Kernel => k.trace <:+ k'.trace) m fun _ => True

instance : Std.Refl (fun k k' : Kernel => k.trace <:+ k'.trace) := ⟨fun _ => List.suffix_rfl⟩

instance : IsTrans Kernel (fun k k' : Kernel => k.trace <:+ k'.trace) := ⟨fun _ _ _ => .trans⟩

/-- The event is put on top of the trace. -/
theorem emit_grows (e : Event) : Grows (emit e) := fun _ _ => ⟨⟨[e], rfl⟩, trivial⟩

/-- An answer that is used up is no event. -/
theorem call_grows : Grows call := fun _ _ => ⟨List.suffix_rfl, trivial⟩

theorem closeFd_grows (fd : Int) : Grows (closeFd fd) := by
  intro k _
  refine ⟨?_, trivial⟩
  unfold closeFd
  split
  · exact ⟨[.closed fd], rfl⟩
  · exact List.suffix_rfl

/-- Closing a descriptor changes no file. -/
theorem content_closeFd (d : Disk) (fd : Int) (k : Kernel) (path : Bytes) :
    (d.after (closeFd fd k).2.trace).content path = (d.after k.trace).content path := by
  unfold closeFd
  split <;> rfl

/-! ## Opening -/

/-- The stream that was set. -/
theorem stream_setStream (s : Service) (err : Bool) (st : Stream) :
    (s.setStream err st).stream err = st := by
  cases err <;> rfl

/-- The path of the log does not depend on the stream. -/
theorem logPath_setStream (s : Service) (err : Bool) (st : Stream) :
    logPath (s.setStream err st) err = logPath s err := by
  cases err <;> rfl

/-- `open` fails, or leaves an event. -/
theorem openFile_cases (path : Bytes) (mode : OpenMode) (k : Kernel) :
    (openFile path mode k).1 < 0 ∨ 0 ≤ (openFile path mode k).1 ∧
      (openFile path mode k).2.trace = .opened path mode (openFile path mode k).1 :: k.trace := by
  unfold openFile
  rw [Sys.bind_apply]
  split
  · next h => exact .inr ⟨h.1, rfl⟩
  · exact .inl (Int.negSucc_lt_zero 0)

/-- What `open_log` does when it succeeds. -/
theorem openLog_success (h : 0 ≤ ((openLog err s k).1.stream err).logFd) :
    ∃ fd len, 0 ≤ fd ∧
      (openLog err s k).1 = s.setStream err { s.stream err with logFd := fd, logLen := len } ∧
      (openLog err s k).2.trace = .seeked fd len :: .opened (logPath s err) .append fd ::
        .mkdir (joinPath s.dir "/log") :: (closeFd (s.stream err).logFd k).2.trace := by
  unfold openLog at h ⊢
  rw [Sys.bind_apply, Sys.bind_apply, Sys.bind_apply] at h ⊢
  have hcases := openFile_cases (joinPath (joinPath s.dir "/log") (streamSuffix err)) .append
    (emit (.mkdir (joinPath s.dir "/log")) (closeFd (s.stream err).logFd k).2).2
  generalize openFile _ _ _ = r at h hcases ⊢
  -- the descriptor in the record is the one `open` returned, so `open` succeeded
  by_cases hfd : r.1 ≥ 0
  · rw [if_pos hfd]
    have htrace := (hcases.resolve_left (Int.not_lt.mpr hfd)).2
    refine ⟨r.1, (seekEnd r.1 r.2).1, hfd, rfl, ?_⟩
    show .seeked r.1 _ :: r.2.trace = _
    rw [htrace]
    rfl
  · rw [if_neg hfd] at h
    have h : 0 ≤
        ((s.setStream err { s.stream err with logFd := r.1, logLen := 0 }).stream err).logFd :=
      h
    rw [stream_setStream] at h
    exact absurd h hfd

/-- Opening the log only adds to the trace. -/
theorem openLog_grows (err : Bool) (s : Service) : Grows (openLog err s) := by
  have hopen : ∀ path mode, Grows (openFile path mode) := by
    intro path mode k _
    refine ⟨?_, trivial⟩
    -- `open` leaves at most one event
    cases openFile_cases path mode k with
    | inl h =>
      unfold openFile at h ⊢
      rw [Sys.bind_apply] at h ⊢
      split
      · exact ⟨[_], rfl⟩
      · exact List.suffix_rfl
    | inr h => exact h.2 ▸ ⟨[_], rfl⟩
  apply (closeFd_grows _).seq
  intro _
  apply (emit_grows _).seq
  intro _
  apply (hopen _ _).seq
  intro fd
  have hseek : Grows (seekEnd fd) :=
    call_grows.seq fun _ => (emit_grows _).seq fun _ => .pure trivial
  exact .iteBind (fun _ => hseek) (fun _ => .pure trivial) fun _ _ => .pure trivial

/-- The log is opened without a change, and its length is measured. -/
theorem openLog_logs (hcontent : (d.after k.trace).content (logPath s err) = cur)
    (h : 0 ≤ ((openLog err s k).1.stream err).logFd)
    (hseek : SeeksEnd d (openLog err s k).2.trace) :
    Logs d err (openLog err s k).1 (openLog err s k).2 cur ∧
      logPath (openLog err s k).1 err = logPath s err := by
  obtain ⟨fd, len, hfd, hrecord, htrace⟩ := openLog_success h
  have hpath : logPath (openLog err s k).1 err = logPath s err := by
    rw [hrecord, logPath_setStream]
  -- the file is on disk as it was before the log was opened
  let before := d.after (closeFd (s.stream err).logFd k).2.trace
  have hafter : d.after (openLog err s k).2.trace = before.openAppend (logPath s err) fd := by
    rw [htrace]
    rfl
  have hbefore : before.content (logPath s err) = cur :=
    (content_closeFd d (s.stream err).logFd k _).trans hcontent
  have hopen : (before.openAppend (logPath s err) fd).openOn fd = some (logPath s err) :=
    before.openOn_openAppend _ _
  -- `lseek` reports the length of the file that was opened
  have hlen : len = cur.length := by
    rw [htrace] at hseek
    have hreported := hseek [] _ _ rfl fd len rfl
    have hlength : (before.openAppend (logPath s err) fd).length fd = cur.length := by
      rw [FileStore.Store.length_of_openOn _ hopen, before.content_openAppend, hbefore]
    exact hreported.trans (congrArg Int.ofNat hlength)
  refine ⟨⟨?_, ?_⟩, hpath⟩
  · rw [hpath, hafter, before.content_openAppend, hbefore]
  · intro _
    rw [hpath, hafter, hrecord, stream_setStream]
    exact ⟨hopen, hlen⟩

/-! ## Writing -/

/-- A loop that succeeds has written everything. -/
theorem writeLoop_all (rs : List WriteResult) (data done : Bytes)
    (h : (writeLoop rs data done).2 = true) : (writeLoop rs data done).1 = done ++ data := by
  fun_induction writeLoop rs data done with
  | case1 => exact (List.append_nil _).symm
  | case2 => rfl
  | case3 n rs data done hne ih =>
    rw [ih h, List.append_assoc, List.take_append_drop]
  | case4 rs data done hne ih => exact ih h
  | case5 => cases h
  | case6 => cases h

theorem appendLog_grows (err : Bool) (data : Bytes) (s : Service) :
    Grows (appendLog err data s) := by
  have hwrite : ∀ fd, Grows (writeAll fd data) := fun fd =>
    call_grows.seq fun _ => (emit_grows _).seq fun _ => .pure trivial
  apply (hwrite _).seq
  intro ok
  exact .ite (fun _ => .pure trivial) fun _ => (closeFd_grows _).seq fun _ => .pure trivial

/-- A successful append. -/
theorem appendLog_logs (hlogs : Logs d err s k cur) (hfd : 0 ≤ (s.stream err).logFd)
    (hlen : (cur.length : Int) + data.length ≤ i64Max)
    (h : 0 ≤ ((appendLog err data s k).1.stream err).logFd) :
    Logs d err (appendLog err data s k).1 (appendLog err data s k).2 (cur ++ data) ∧
      logPath (appendLog err data s k).1 err = logPath s err := by
  obtain ⟨hopen, hlogLen⟩ := hlogs.isOpen hfd
  unfold appendLog at h ⊢
  rw [Sys.bind_apply] at h ⊢
  cases hwrote : (writeAll (s.stream err).logFd data k).1 with
  | false =>
    -- the log has been given up
    rw [hwrote] at h
    have h : 0 ≤ ((s.setStream err { s.stream err with logFd := -1 }).stream err).logFd := h
    rw [stream_setStream] at h
    have hnone : ¬(0 : Int) ≤ -1 := by decide
    exact absurd h hnone
  | true =>
    simp only [if_true]
    have hall : (writeAll (s.stream err).logFd data k).2.trace =
        .wrote (s.stream err).logFd data :: k.trace := by
      have hloop := writeLoop_all _ data [] hwrote
      show .wrote _ (writeLoop _ data []).1 :: k.trace = _
      rw [hloop]
      rfl
    have hafter : d.after (writeAll (s.stream err).logFd data k).2.trace =
        (d.after k.trace).append (s.stream err).logFd data := by
      rw [hall]
      rfl
    rw [Sys.pure_apply]
    refine ⟨⟨?_, fun _ => ?_⟩, logPath_setStream s err _⟩
    · rw [logPath_setStream, hafter, FileStore.Store.content_append _ hopen, hlogs.content]
    · rw [logPath_setStream, hafter, FileStore.Store.openOn_append, stream_setStream,
        List.length_append, hlogLen]
      refine ⟨hopen, ?_⟩
      show i64 _ = _
      rw [i64_eq_self (by omega) hlen]
      omega

theorem rotateLog_grows (err : Bool) (s : Service) : Grows (rotateLog err s) := by
  have hwall : Grows wallNow := call_grows.seq fun _ => .pure trivial
  exact (closeFd_grows _).seq fun _ => hwall.seq fun _ => (emit_grows _).seq fun _ =>
    openLog_grows err _

/-- The rotation does not move the current log. -/
theorem rotateLog_logs (hlogs : Logs d err s k cur)
    (h : 0 ≤ ((rotateLog err s k).1.stream err).logFd)
    (hseek : SeeksEnd d (rotateLog err s k).2.trace) :
    Logs d err (rotateLog err s k).1 (rotateLog err s k).2 cur ∧
      logPath (rotateLog err s k).1 err = logPath s err := by
  unfold rotateLog at h hseek ⊢
  rw [Sys.bind_apply, Sys.bind_apply, Sys.bind_apply] at h hseek ⊢
  -- the record between closing the old log and opening the new one
  let st := { s.stream err with logFd := -1, rotations := (s.stream err).rotations + 1 }
  generalize hts : (wallNow (closeFd (s.stream err).logFd k).2).1 = ts at h hseek ⊢
  let renamed : Event := .rename (renamedPath (s.setStream err st) err)
    (archivePath (s.setStream err st) err ts ((s.stream err).rotations + 1))
  -- the renamed path lies beside the log directory, so the log itself is untouched
  have hspares := rename_spares_log (s.setStream err st) err ts ((s.stream err).rotations + 1)
  have hpath := logPath_setStream s err st
  have hcontent : (d.after (renamed :: (closeFd (s.stream err).logFd k).2.trace)).content
      (logPath (s.setStream err st) err) = cur := by
    show ((d.after (closeFd (s.stream err).logFd k).2.trace).rename _ _).content _ = cur
    rw [FileStore.Store.content_rename _ hspares.1 hspares.2, hpath, content_closeFd]
    exact hlogs.content
  have hopened := openLog_logs hcontent h hseek
  exact ⟨hopened.1, hopened.2.trans hpath⟩

/-! ## `write_log` -/

/-- If `m` succeeds, it has added `data` to the current log. -/
structure Appends (d : Disk) (err : Bool) (m : Service → Sys Service) (data : Bytes) : Prop where
  grows : ∀ s, Grows (m s)
  logs : ∀ s k cur, Logs d err s k cur → (cur.length : Int) + data.length ≤ i64Max →
    0 ≤ ((m s k).1.stream err).logFd → SeeksEnd d (m s k).2.trace →
    Logs d err (m s k).1 (m s k).2 (cur ++ data) ∧ logPath (m s k).1 err = logPath s err

/-- A function that returns the record as it is when there is no log. -/
def guarded (err : Bool) (m : Service → Sys Service) (s : Service) : Sys Service :=
  if (s.stream err).logFd < 0 then pure s else m s

/-- `open_log` adds nothing to the log. -/
theorem openLog_appends (d : Disk) (err : Bool) : Appends d err (openLog err) [] := by
  refine ⟨openLog_grows err, fun s k cur hlogs _ hok hseek => ?_⟩
  rw [List.append_nil]
  exact openLog_logs hlogs.content hok hseek

/-- Neither does `rotate_log`. -/
theorem rotateLog_appends (d : Disk) (err : Bool) : Appends d err (rotateLog err) [] := by
  refine ⟨rotateLog_grows err, fun s k cur hlogs _ hok hseek => ?_⟩
  rw [List.append_nil]
  exact rotateLog_logs hlogs hok hseek

/-- What is appended under the guard is appended to an open log. -/
theorem appends_guarded {m : Service → Sys Service} (hgrows : ∀ s, Grows (m s))
    (h : ∀ s k cur, 0 ≤ (s.stream err).logFd → Logs d err s k cur →
      (cur.length : Int) + data.length ≤ i64Max → 0 ≤ ((m s k).1.stream err).logFd →
      SeeksEnd d (m s k).2.trace →
      Logs d err (m s k).1 (m s k).2 (cur ++ data) ∧ logPath (m s k).1 err = logPath s err) :
    Appends d err (guarded err m) data := by
  refine ⟨fun s => .ite (fun _ => .pure trivial) fun _ => hgrows s,
    fun s k cur hlogs hlen hok hseek => ?_⟩
  unfold guarded at hok hseek ⊢
  split at hok
  -- without a descriptor the rest is skipped, and none can come of it
  · next hneg => exact absurd hok (Int.not_le.mpr hneg)
  · next hfd =>
    rw [if_neg hfd] at hseek ⊢
    exact h s k cur (Int.not_lt.mp hfd) hlogs hlen hok hseek

/-- The chunk goes to the end of the log, if that is open. -/
theorem appendLog_appends (d : Disk) (err : Bool) (data : Bytes) :
    Appends d err (guarded err (appendLog err data)) data :=
  appends_guarded (appendLog_grows err data) fun _ _ _ hfd hlogs hlen hok _ =>
    appendLog_logs hlogs hfd hlen hok

namespace Appends

variable {m f : Service → Sys Service}

/-- First something that leaves the log alone, under a condition, then what is guarded. -/
theorem whenBind (hm : Appends d err m []) (hf : Appends d err (guarded err f) data)
    (c : Service → Prop) [DecidablePred c] :
    Appends d err (fun s => if c s then m s >>= guarded err f else guarded err f s) data := by
  refine ⟨fun s => .ite (fun _ => (hm.grows s).seq hf.grows) fun _ => hf.grows s,
    fun s k cur hlogs hlen hok hseek => ?_⟩
  -- the first part must have succeeded, or the guard would have skipped the second
  by_cases hc : c s
  · simp only [if_pos hc] at hok hseek ⊢
    rw [Sys.bind_apply] at hok hseek ⊢
    have hfd : 0 ≤ ((m s k).1.stream err).logFd := by
      apply Int.not_lt.mp
      intro hneg
      rw [guarded, if_pos hneg] at hok
      exact absurd hok (Int.not_le.mpr hneg)
    have hfirst := hm.logs s k cur hlogs (by simp only [List.length_nil]; omega) hfd
      (hseek.suffix ((hf.grows _).rel _))
    rw [List.append_nil] at hfirst
    have hthen := hf.logs _ _ cur hfirst.1 hlen hok hseek
    exact ⟨hthen.1, hthen.2.trans hfirst.2⟩
  · simp only [if_neg hc] at hok hseek ⊢
    exact hf.logs s k cur hlogs hlen hok hseek

end Appends

/-- Rotation or not, a successful `write_log` appends to the current log. -/
theorem writeLog_appends (d : Disk) (err : Bool) (data : Bytes) :
    Appends d err (writeLog err data) data := by
  have hrotate := (rotateLog_appends d err).whenBind (appendLog_appends d err data) fun s =>
    i64 ((s.stream err).logLen + data.length) > logLimit
  have hrest := appends_guarded hrotate.grows fun s k cur _ => hrotate.logs s k cur
  exact (openLog_appends d err).whenBind hrest fun s => (s.stream err).logFd < 0

/-! ## Sequences of writes -/

/-- One call of `write_log`. -/
def writeChunk (err : Bool) (chunk : Bytes) (x : Service × Kernel) : Service × Kernel :=
  writeLog err chunk x.1 x.2

/-- The content of the current log. -/
def current (d : Disk) (err : Bool) (x : Service × Kernel) : Bytes :=
  (d.after x.2.trace).content (logPath x.1 err)

/-- Opening and writing worked, and `lseek` told the truth. -/
def Succeeds (d : Disk) (err : Bool) (x : Service × Kernel) (chunk : Bytes) : Prop :=
  0 ≤ ((writeChunk err chunk x).1.stream err).logFd ∧ SeeksEnd d (writeChunk err chunk x).2.trace

/-- What the write of one chunk should do: the current log stays within the limit, and if
    the chunk does not fit, what was there is moved to another file as a whole. -/
structure RotatesAt (d : Disk) (err : Bool) (x : Service × Kernel) (chunk : Bytes) : Prop where
  bounded : ((current d err (writeChunk err chunk x)).length : Int) ≤ logLimit
  moved : ((current d err x).length : Int) + chunk.length > logLimit →
    current d err (writeChunk err chunk x) = chunk ∧
      ∃ archive, archive ≠ logPath x.1 err ∧
        (d.after (writeChunk err chunk x).2.trace).files archive = some (current d err x)

/-- The same for all chunks, and nothing is lost: the archives in order and the current log
    are what was there in the beginning and all the chunks. -/
structure LogsRotate (d : Disk) (err : Bool) (x : Service × Kernel) (chunks : List Bytes) :
    Prop where
  steps : Transition.Along (writeChunk err) (RotatesAt d err) chunks x
  kept : ∃ archives : List Bytes, archives.Nodup ∧ logPath x.1 err ∉ archives ∧
    archives.flatMap (d.after (Transition.run (writeChunk err) chunks x).2.trace).content ++
      current d err (Transition.run (writeChunk err) chunks x) =
    current d err x ++ chunks.flatten

/-- The step lemma. -/
theorem writeChunk_logs {x : Service × Kernel} {chunk : Bytes} (h : Logs d err x.1 x.2 cur)
    (hcur : (cur.length : Int) ≤ logLimit) (hchunk : chunk.length ≤ ioBuf)
    (hok : Succeeds d err x chunk) :
    Logs d err (writeChunk err chunk x).1 (writeChunk err chunk x).2 (cur ++ chunk) ∧
      logPath (writeChunk err chunk x).1 err = logPath x.1 err := by
  have hsmall : (cur.length : Int) + chunk.length ≤ i64Max := by
    simp only [logLimit, ioBuf, i64Max] at *
    omega
  exact (writeLog_appends d err chunk).logs x.1 x.2 cur h hsmall hok.1 hok.2

/-- If every write rotates as it should, all the chunks fit in the first file. -/
theorem fits_of_rotates {x : Service × Kernel} {chunks : List Bytes} (h : Logs d err x.1 x.2 cur)
    (hcur : (cur.length : Int) ≤ logLimit) (hchunks : ∀ chunk ∈ chunks, chunk.length ≤ ioBuf)
    (hok : Transition.Along (writeChunk err) (Succeeds d err) chunks x)
    (hrotates : Transition.Along (writeChunk err) (RotatesAt d err) chunks x) :
    (cur.length : Int) + chunks.flatten.length ≤ logLimit := by
  -- by induction on the chunks
  induction chunks generalizing x cur with
  | nil => simpa using hcur
  | cons chunk chunks ih =>
    obtain ⟨hlogs, -⟩ := writeChunk_logs h hcur (hchunks _ List.mem_cons_self) hok.1
    -- after the first chunk the file is within the limit, since it was not rotated
    have hbounded := hrotates.1.bounded
    rw [current, hlogs.content] at hbounded
    have hrest := ih hlogs hbounded (fun c hc => hchunks c (List.mem_cons_of_mem _ hc)) hok.2
      hrotates.2
    rw [List.length_append] at hrest
    rw [List.flatten_cons, List.length_append]
    omega

/-- As long as all the chunks fit in the first file, there is nothing to rotate. -/
theorem rotates_of_fits {x : Service × Kernel} {chunks : List Bytes} (h : Logs d err x.1 x.2 cur)
    (hchunks : ∀ chunk ∈ chunks, chunk.length ≤ ioBuf)
    (hok : Transition.Along (writeChunk err) (Succeeds d err) chunks x)
    (hfits : (cur.length : Int) + chunks.flatten.length ≤ logLimit) :
    Transition.Along (writeChunk err) (RotatesAt d err) chunks x ∧
      Logs d err (Transition.run (writeChunk err) chunks x).1
        (Transition.run (writeChunk err) chunks x).2 (cur ++ chunks.flatten) := by
  -- by induction on the chunks, with the content so far generalised
  induction chunks generalizing x cur with
  | nil =>
    rw [List.flatten_nil, List.append_nil]
    exact ⟨trivial, h⟩
  | cons chunk chunks ih =>
    rw [List.flatten_cons, List.length_append] at hfits
    obtain ⟨hlogs, -⟩ := writeChunk_logs h (by omega) (hchunks _ List.mem_cons_self) hok.1
    obtain ⟨hsteps, hlast⟩ := ih hlogs (fun c hc => hchunks c (List.mem_cons_of_mem _ hc)) hok.2
      (by rw [List.length_append]; omega)
    rw [List.append_assoc] at hlast
    refine ⟨⟨⟨?_, ?_⟩, hsteps⟩, hlast⟩
    · rw [current, hlogs.content, List.length_append]
      omega
    -- below the limit nothing is rotated
    · intro hexceeds
      rw [current, h.content] at hexceeds
      omega

/-- The current log stays within the limit and is rotated if and only if it never has to
    be. -/
theorem logs_rotate_iff {x : Service × Kernel} {chunks : List Bytes} (h : Logs d err x.1 x.2 cur)
    (hcur : (cur.length : Int) ≤ logLimit) (hchunks : ∀ chunk ∈ chunks, chunk.length ≤ ioBuf)
    (hok : Transition.Along (writeChunk err) (Succeeds d err) chunks x) :
    LogsRotate d err x chunks ↔ (cur.length : Int) + chunks.flatten.length ≤ logLimit := by
  constructor
  · intro hrotates
    exact fits_of_rotates h hcur hchunks hok hrotates.steps
  · intro hfits
    obtain ⟨hsteps, hlast⟩ := rotates_of_fits h hchunks hok hfits
    refine ⟨hsteps, [], List.nodup_nil, List.not_mem_nil, ?_⟩
    rw [current, hlast.content, current, h.content]
    rfl

end

/-- The record of the service in `/s/a`, without an open log. -/
def logRecord : Service := { Service.empty with dir := bytesOf "/s/a" }

/-- The path of its log. -/
def logFile : Bytes := bytesOf "/s/a/log/current.out"

/-- A kernel in which every `open` and `write` succeeds and `lseek` returns `seek`. -/
def seeking (seek : Int) : Kernel :=
  { (openingOn plainFiles).world.k with
    calls := 0, oracle := fun n => { opening plainFiles n with seek } }

/-- A disk without files. -/
def emptyDisk : Disk := { files := fun _ => none, openOn := fun _ => none }

/-- The path of the log of this record. -/
theorem logPath_logRecord : logPath logRecord false = logFile := by decide +kernel

/-- The events of a first line in a new log. -/
def firstLine : List Event :=
  [.wrote 10 (bytesOf "hi"), .seeked 10 0, .opened logFile .append 10, .mkdir (bytesOf "/s/a/log")]

/-- `lseek` has told the truth. -/
theorem seeksEnd_firstLine : SeeksEnd emptyDisk firstLine := by
  have hempty : (emptyDisk.openAppend logFile 10).length 10 = 0 := by
    rw [FileStore.Store.length_of_openOn _ (FileStore.Store.openOn_openAppend ..),
      FileStore.Store.content_openAppend]
    rfl
  have hopened := ((seeksEnd_nil emptyDisk).cons (e := .mkdir (bytesOf "/s/a/log")) nofun).cons
    (e := .opened logFile .append 10) nofun
  refine (hopened.cons fun fd len he => ?_).cons nofun
  cases he
  exact congrArg Int.ofNat hempty.symm

/-- A first line in a new log. -/
theorem logs_rotate_first :
    LogsRotate emptyDisk false (logRecord, seeking 0) [bytesOf "hi"] := by
  -- nothing is open yet
  have hlogs : Logs emptyDisk false logRecord (seeking 0) [] := ⟨rfl, fun h => absurd h (by decide)⟩
  have hfd :
      0 ≤ ((writeChunk false (bytesOf "hi") (logRecord, seeking 0)).1.stream false).logFd := by
    decide +kernel
  have htrace : (writeChunk false (bytesOf "hi") (logRecord, seeking 0)).2.trace = firstLine := by
    decide +kernel
  have hseek : SeeksEnd emptyDisk
      (writeChunk false (bytesOf "hi") (logRecord, seeking 0)).2.trace := by
    rw [htrace]
    exact seeksEnd_firstLine
  have hok : Transition.Along (writeChunk false) (Succeeds emptyDisk false) [bytesOf "hi"]
      (logRecord, seeking 0) := ⟨⟨hfd, hseek⟩, trivial⟩
  exact (logs_rotate_iff hlogs (by decide) (by decide) hok).mpr (by decide)

/-- A current log of exactly 1 MB. -/
def fullDisk : Disk :=
  { emptyDisk with
    files := fun path => if path = logFile then some (List.replicate 1048576 65) else none }

/-- The log has reached the limit. -/
theorem fullDisk_content : fullDisk.content logFile = List.replicate 1048576 65 := by
  unfold fullDisk FileStore.Store.content
  dsimp only
  rw [if_pos rfl, Option.getD_some]

/-- One more byte: the rotation renames `/s/a/current.out`, which does not exist, and the
    log grows beyond the limit. -/
theorem log_outgrows_limit :
    (current fullDisk false (logRecord, seeking 1048576)).length = 1048576 ∧
    Succeeds fullDisk false (logRecord, seeking 1048576) [10] ∧
    (current fullDisk false (writeChunk false [10] (logRecord, seeking 1048576))).length = 1048577 ∧
    ¬LogsRotate fullDisk false (logRecord, seeking 1048576) [[10]] := by
  have hlogs : Logs fullDisk false logRecord (seeking 1048576) (List.replicate 1048576 65) := by
    refine ⟨?_, fun h => absurd h (by decide)⟩
    rw [logPath_logRecord]
    exact fullDisk_content
  have hfd : 0 ≤ ((writeChunk false [10] (logRecord, seeking 1048576)).1.stream false).logFd := by
    decide +kernel
  -- the rename has another source than the log
  have htrace : (writeChunk false [10] (logRecord, seeking 1048576)).2.trace =
      [.wrote 13 [10], .seeked 13 1048576, .opened logFile .append 13, .mkdir (bytesOf "/s/a/log"),
        .rename (bytesOf "/s/a/current.out") (bytesOf "/s/a/current.out.0.1"), .closed 10,
        .seeked 10 1048576, .opened logFile .append 10, .mkdir (bytesOf "/s/a/log")] := by
    decide +kernel
  have hfirst : (fullDisk.openAppend logFile 10).length 10 = 1048576 := by
    rw [FileStore.Store.length_of_openOn _ (FileStore.Store.openOn_openAppend ..),
      FileStore.Store.content_openAppend, fullDisk_content, List.length_replicate]
  have hsecond : ((((fullDisk.openAppend logFile 10).close 10).rename (bytesOf "/s/a/current.out")
      (bytesOf "/s/a/current.out.0.1")).openAppend logFile 13).length 13 = 1048576 := by
    rw [FileStore.Store.length_of_openOn _ (FileStore.Store.openOn_openAppend ..),
      FileStore.Store.content_openAppend,
      FileStore.Store.content_rename _ (.inl (by decide)) (.inl (by decide)),
      FileStore.Store.content_close, FileStore.Store.content_openAppend, fullDisk_content,
      List.length_replicate]
  -- both times `lseek` tells the length of the same file
  have hseek : SeeksEnd fullDisk (writeChunk false [10] (logRecord, seeking 1048576)).2.trace := by
    rw [htrace]
    have hopened := ((seeksEnd_nil fullDisk).cons (e := .mkdir (bytesOf "/s/a/log")) nofun).cons
      (e := .opened logFile .append 10) nofun
    have hseeked := hopened.cons (e := .seeked 10 1048576) fun fd len he => by
      cases he
      exact congrArg Int.ofNat hfirst.symm
    have hrotated := (((hseeked.cons (e := .closed 10) nofun).cons
      (e := .rename (bytesOf "/s/a/current.out") (bytesOf "/s/a/current.out.0.1")) nofun).cons
      (e := .mkdir (bytesOf "/s/a/log")) nofun).cons (e := .opened logFile .append 13) nofun
    refine (hrotated.cons fun fd len he => ?_).cons nofun
    cases he
    exact congrArg Int.ofNat hsecond.symm
  have hok : Succeeds fullDisk false (logRecord, seeking 1048576) [10] := ⟨hfd, hseek⟩
  have hcur : ((List.replicate 1048576 (65 : UInt8)).length : Int) ≤ logLimit := by
    rw [List.length_replicate]
    decide
  obtain ⟨hafter, -⟩ := writeChunk_logs hlogs hcur (by decide) hok
  have hlength : (current fullDisk false
      (writeChunk false [10] (logRecord, seeking 1048576))).length = 1048577 := by
    rw [current, hafter.content, List.length_append, List.length_replicate]
    rfl
  refine ⟨?_, hok, hlength, fun h => ?_⟩
  · rw [current, hlogs.content, List.length_replicate]
  · have hbounded := h.steps.1.bounded
    rw [hlength] at hbounded
    exact absurd hbounded (by decide)

end SvcRs
