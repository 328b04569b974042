import SvcRs.Spec.Events
import SvcRs.Spec.Pipes

/-!
# Draining a stream

`drain_stream` reads a pipe, `write_log` appends what was read, `write_all` repeats short
writes, and a rotation may reopen the log in between. One rule takes a property of
`open_log`, `rotate_log` and the final append through `write_log`; the loop over the reads
is an induction over their results.

## Key results

- `writeLog_rule`: the rule for `write_log`
- `writeLog_logAt`: what `write_log` leaves in the log, whether it succeeds or not
- `drain_preserves`: the length counter, the read end and the bytes after `drain_stream`
-/

namespace SvcRs

/-! ## The reads that are made -/

namespace ReadResult

/-- `drain_stream` reads again: the read was interrupted, or it filled the buffer. -/
def goesOn : ReadResult → Bool
  | eintr => true
  | data b => ioBuf ≤ b.length
  | _ => false

/-- The end of the file, or an error other than EAGAIN and EINTR. -/
def ends : ReadResult → Bool
  | eof | error | data [] => true
  | _ => false

/-- What is in the buffer after the read. -/
def bytes : ReadResult → Bytes
  | data b => b.take ioBuf
  | _ => []

end ReadResult

/-- The results up to the first after which there is no other read. -/
def readsUpTo : List ReadResult → List ReadResult
  | [] => []
  | r :: reads => if r.goesOn then r :: readsUpTo reads else [r]

/-- The reads that `drain_stream` makes: none if there is no read end. -/
def readsMade (st : Stream) (reads : List ReadResult) : List ReadResult :=
  if st.readFd < 0 then [] else readsUpTo reads

/-! ## The law -/

/-- The record is right about the log: it is the file that `open_log` opens, and `log_len` is
    its length. The read end is an open descriptor, and not that of the log. -/
structure StreamLaw (d : Disk) (err : Bool) (s : Service) (k : Kernel) : Prop where
  isOpen : 0 ≤ (s.stream err).logFd →
    (d.after k.trace).openOn (s.stream err).logFd = some (logPath s err)
  length : 0 ≤ (s.stream err).logFd →
    (s.stream err).logLen = (d.after k.trace).length (s.stream err).logFd
  pipe : 0 ≤ (s.stream err).readFd →
    (s.stream err).readFd ∈ k.fds ∧ (s.stream err).readFd ≠ (s.stream err).logFd

/-- No file has ever been longer than an `off_t` can say. -/
def SizesFit (d : Disk) (trace : List Event) : Prop :=
  ∀ older, older <:+ trace → ∀ path, (((d.after older).content path).length : Int) ≤ i64Max

/-! ## The rule for `write_log` -/

section

variable {err : Bool} {data : Bytes} {s : Service} {k : Kernel}

/-- What `open_log` and `rotate_log` keep holds when the data are appended, or when the data are
    dropped because there is no log. -/
theorem writeLog_rule {I J : Service → Kernel → Prop}
    (hopen : ∀ s k, I s k → I (openLog err s k).1 (openLog err s k).2)
    (hrotate : ∀ s k, I s k → I (rotateLog err s k).1 (rotateLog err s k).2)
    (happend : ∀ s k, I s k → 0 ≤ (s.stream err).logFd →
      J (appendLog err data s k).1 (appendLog err data s k).2)
    (hdrop : ∀ s k, I s k → (s.stream err).logFd < 0 → J s k) (h : I s k) :
    J (writeLog err data s k).1 (writeLog err data s k).2 := by
  have hlast : ∀ s k, I s k →
      J (guarded err (appendLog err data) s k).1 (guarded err (appendLog err data) s k).2 := by
    intro s k h
    unfold guarded
    split
    · next hnone => exact hdrop s k h hnone
    · next hsome => exact happend s k h (Int.not_lt.mp hsome)
  -- the rotation, under its condition
  have hmiddle : ∀ s k, I s k → J
      ((if i64 ((s.stream err).logLen + data.length) > logLimit then
        rotateLog err s >>= guarded err (appendLog err data)
        else guarded err (appendLog err data) s : Sys Service) k).1
      ((if i64 ((s.stream err).logLen + data.length) > logLimit then
        rotateLog err s >>= guarded err (appendLog err data)
        else guarded err (appendLog err data) s : Sys Service) k).2 := by
    intro s k h
    split
    · exact hlast _ _ (hrotate s k h)
    · exact hlast s k h
  have hrest : ∀ s k, I s k → J
      (guarded err (fun s => if i64 ((s.stream err).logLen + data.length) > logLimit then
        rotateLog err s >>= guarded err (appendLog err data)
        else guarded err (appendLog err data) s) s k).1
      (guarded err (fun s => if i64 ((s.stream err).logLen + data.length) > logLimit then
        rotateLog err s >>= guarded err (appendLog err data)
        else guarded err (appendLog err data) s) s k).2 := by
    intro s k h
    unfold guarded
    split
    · next hnone => exact hdrop s k h hnone
    · exact hmiddle s k h
  unfold writeLog
  split
  · exact hrest _ _ (hopen s k h)
  · exact hrest s k h

/-! ## The log -/

/-- The log at `path` holds `cur`. If it is open, it is open there, and its length is known. -/
structure LogAt (d : Disk) (err : Bool) (path cur : Bytes) (s : Service) (k : Kernel) : Prop where
  path_eq : logPath s err = path
  content : (d.after k.trace).content path = cur
  isOpen : 0 ≤ (s.stream err).logFd → (d.after k.trace).openOn (s.stream err).logFd = some path
  length : 0 ≤ (s.stream err).logFd → SeeksEnd d k.trace → (cur.length : Int) ≤ i64Max →
    (s.stream err).logLen = cur.length

variable {d : Disk} {path cur : Bytes}

/-- A log that is not open. -/
theorem LogAt.closed (hpath : logPath s err = path)
    (hcontent : (d.after k.trace).content path = cur) (hfd : (s.stream err).logFd < 0) :
    LogAt d err path cur s k :=
  ⟨hpath, hcontent, fun h => absurd hfd (Int.not_lt.mpr h), fun h => absurd hfd (Int.not_lt.mpr h)⟩

/-- The path of the log does not depend on its descriptor. -/
theorem openLog_path (err : Bool) (s : Service) (k : Kernel) :
    logPath (openLog err s k).1 err = logPath s err := by
  obtain ⟨st, -, he⟩ := openLog_logOnly err s k
  rw [he, logPath_setStream]

/-- Opening the log changes no file. -/
theorem openLog_content (d : Disk) (err : Bool) (s : Service) (k : Kernel) (path : Bytes) :
    (d.after (openLog err s k).2.trace).content path = (d.after k.trace).content path := by
  -- `O_APPEND` without `O_TRUNC` leaves every file's content as it was
  have hopen : ∀ file mode k, mode = .append →
      (d.after (openFile file mode k).2.trace).content path = (d.after k.trace).content path := by
    intro file mode k hmode
    subst hmode
    unfold openFile
    rw [Sys.bind_apply]
    split
    · exact FileStore.Store.content_openAppend _ _ _ _
    · rfl
  unfold openLog
  rw [Sys.bind_apply, Sys.bind_apply, Sys.bind_apply]
  have hfile := hopen (joinPath (joinPath s.dir "/log") (streamSuffix err)) .append
    (emit (.mkdir (joinPath s.dir "/log")) (closeFd (s.stream err).logFd k).2).2 rfl
  have hclose := content_closeFd d (s.stream err).logFd k path
  -- the length read by `lseek` is a matter of the record only
  split
  · exact hfile.trans hclose
  · exact hfile.trans hclose

/-- Whatever was open before, the log is opened where it is. -/
theorem openLog_logAt (hpath : logPath s err = path)
    (hcontent : (d.after k.trace).content path = cur) :
    LogAt d err path cur (openLog err s k).1 (openLog err s k).2 := by
  have hpath' := (openLog_path err s k).trans hpath
  have hcontent' := (openLog_content d err s k path).trans hcontent
  -- the log is open on the file, or the record knows of no log
  by_cases hfd : 0 ≤ ((openLog err s k).1.stream err).logFd
  · obtain ⟨fd, len, -, hrecord, htrace⟩ := openLog_success hfd
    refine ⟨hpath', hcontent', fun _ => ?_, fun _ hseek _ => ?_⟩
    · rw [hrecord, Service.stream_setStream, htrace, ← hpath]
      exact FileStore.Store.openOn_openAppend _ _ _
    · have hlogs := (openLog_logs (hpath ▸ hcontent) hfd hseek).1
      exact (hlogs.isOpen hfd).2
  · exact .closed hpath' hcontent' (Int.not_le.mp hfd)

/-- The log is opened at its end. -/
theorem LogAt.openLog (h : LogAt d err path cur s k) :
    LogAt d err path cur (openLog err s k).1 (openLog err s k).2 :=
  openLog_logAt h.path_eq h.content

/-- The rotation moves some other file. -/
theorem LogAt.rotateLog (h : LogAt d err path cur s k) :
    LogAt d err path cur (rotateLog err s k).1 (rotateLog err s k).2 := by
  unfold SvcRs.rotateLog
  rw [Sys.bind_apply, Sys.bind_apply, Sys.bind_apply]
  generalize (wallNow (closeFd (s.stream err).logFd k).2).1 = ts
  let st := { s.stream err with logFd := -1, rotations := (s.stream err).rotations + 1 }
  have hspares := rename_spares_log (s.setStream err st) err ts ((s.stream err).rotations + 1)
  have hpath := (logPath_setStream s err st).trans h.path_eq
  apply openLog_logAt hpath
  rw [hpath] at hspares
  have hclosed := (content_closeFd d (s.stream err).logFd k path).trans h.content
  exact (FileStore.Store.content_rename _ hspares.1 hspares.2).trans hclosed

/-- Whatever happens, a prefix of the data has been written. -/
theorem writeLoop_prefix (rs : List WriteResult) (data done : Bytes) :
    ∃ w, (writeLoop rs data done).1 = done ++ w := by
  fun_induction writeLoop rs data done with
  | case1 => exact ⟨[], (List.append_nil _).symm⟩
  | case2 rs data done => exact ⟨_, rfl⟩
  | case3 n rs data done hne ih =>
    obtain ⟨w, hw⟩ := ih
    exact ⟨_, hw.trans (List.append_assoc ..)⟩
  | case4 rs data done hne ih => exact ih
  | case5 => exact ⟨[], (List.append_nil _).symm⟩
  | case6 => exact ⟨[], (List.append_nil _).symm⟩

/-- The data are appended; if not all of them are, the log is given up. -/
theorem LogAt.appendLog (h : LogAt d err path cur s k) (hfd : 0 ≤ (s.stream err).logFd)
    (data : Bytes) :
    ∃ w, LogAt d err path (cur ++ w) (appendLog err data s k).1 (appendLog err data s k).2 ∧
      (0 ≤ ((SvcRs.appendLog err data s k).1.stream err).logFd → w = data) := by
  have hopen := h.isOpen hfd
  unfold SvcRs.appendLog
  rw [Sys.bind_apply]
  cases hall : (writeAll (s.stream err).logFd data k).1 with
  -- everything was written
  | true =>
    have hloop := writeLoop_all _ data [] hall
    have htrace : (writeAll (s.stream err).logFd data k).2.trace =
        .wrote (s.stream err).logFd data :: k.trace := by
      show .wrote _ (writeLoop _ data []).1 :: k.trace = _
      rw [hloop, List.nil_append]
    generalize (writeAll (s.stream err).logFd data k).2 = k₁ at htrace ⊢
    have hafter : d.after k₁.trace = (d.after k.trace).append (s.stream err).logFd data := by
      rw [htrace]
      rfl
    refine ⟨data, ⟨?_, ?_, fun _ => ?_, fun _ hseek hlen => ?_⟩, fun _ => rfl⟩
    · exact (logPath_setStream s err _).trans h.path_eq
    · show (d.after k₁.trace).content path = _
      rw [hafter, FileStore.Store.content_append _ hopen, h.content]
    · show (d.after k₁.trace).openOn ((s.setStream err _).stream err).logFd = _
      rw [hafter, FileStore.Store.openOn_append, Service.stream_setStream]
      exact hopen
    · -- the length before and the length of what was written
      have hbefore := h.length hfd (hseek.suffix (htrace ▸ ⟨[_], rfl⟩))
      rw [List.length_append] at hlen
      have hcur := hbefore (by omega)
      show ((s.setStream err { s.stream err with
        logLen := i64 ((s.stream err).logLen + data.length) }).stream err).logLen = _
      rw [Service.stream_setStream, List.length_append, hcur]
      show i64 _ = _
      rw [i64_eq_self (by omega) (by omega)]
      omega
  -- only `w` was written, and the log is closed
  | false =>
    obtain ⟨w, hw⟩ := writeLoop_prefix (k.oracle k.calls).writes data []
    have htrace : (writeAll (s.stream err).logFd data k).2.trace =
        .wrote (s.stream err).logFd w :: k.trace := by
      show .wrote _ (writeLoop _ data []).1 :: k.trace = _
      rw [← hw.trans (List.nil_append w)]
    generalize (writeAll (s.stream err).logFd data k).2 = k₁ at htrace ⊢
    have hgone : ((s.setStream err { s.stream err with logFd := -1 }).stream err).logFd < 0 := by
      rw [Service.stream_setStream]
      show (-1 : Int) < 0
      decide
    refine ⟨w, .closed ?_ ?_ hgone, fun hsome => absurd hgone (Int.not_lt.mpr hsome)⟩
    · exact (logPath_setStream s err _).trans h.path_eq
    · show (d.after (closeFd (s.stream err).logFd k₁).2.trace).content path = _
      rw [content_closeFd, htrace]
      show ((d.after k.trace).append _ w).content path = _
      rw [FileStore.Store.content_append _ hopen, h.content]

/-- Success or not, `write_log` only appends; it has appended the data if the log is open at
    the end. -/
theorem writeLog_logAt (h : LogAt d err path cur s k) (data : Bytes) :
    ∃ w, LogAt d err path (cur ++ w) (writeLog err data s k).1 (writeLog err data s k).2 ∧
      (0 ≤ ((writeLog err data s k).1.stream err).logFd → w = data) := by
  apply writeLog_rule (I := LogAt d err path cur)
    (J := fun s k => ∃ w, LogAt d err path (cur ++ w) s k ∧ (0 ≤ (s.stream err).logFd → w = data))
  · exact fun s k h => h.openLog
  · exact fun s k h => h.rotateLog
  · exact fun s k h hfd => h.appendLog hfd data
  -- nothing was written, so nothing is missing from the file
  · intro s k h hnone
    refine ⟨[], ?_, fun hsome => absurd hnone (Int.not_lt.mpr hsome)⟩
    rw [List.append_nil]
    exact h
  · exact h

/-! ## The read end -/

/-- `r` is open, and it is not the descriptor of the log. -/
structure Apart (err : Bool) (r : Int) (s : Service) (k : Kernel) : Prop where
  mem : r ∈ k.fds
  ne : r ≠ (s.stream err).logFd

/-- Between the two kernels, `r` has not been closed. -/
abbrev NotClosed (r : Int) : Kernel → Kernel → Prop := Emits fun e => e ≠ .closed r

variable {r : Int}

/-- Another descriptor is closed. -/
theorem closeFd_apart {fd : Int} (hmem : r ∈ k.fds) (hne : r ≠ fd) :
    r ∈ (closeFd fd k).2.fds ∧ NotClosed r k (closeFd fd k).2 := by
  refine ⟨?_, (closeFd_allEvents (P := fun e => e ≠ .closed r) ?_).rel k⟩
  · unfold closeFd
    split
    · exact (List.mem_erase_of_ne hne).mpr hmem
    · exact hmem
  · simpa using hne.symm

/-- The log gets a descriptor that was not open, or none. -/
theorem openLog_apart (hr : 0 ≤ r) (h : Apart err r s k) :
    Apart err r (openLog err s k).1 (openLog err s k).2 ∧ NotClosed r k (openLog err s k).2 := by
  -- a file that is opened gets another descriptor than the read end's
  have hopen : ∀ file k, r ∈ k.fds → r ∈ (openFile file .append k).2.fds ∧
      r ≠ (openFile file .append k).1 ∧ NotClosed r k (openFile file .append k).2 := by
    intro file k hmem
    refine ⟨?_, ?_, (openFile_allEvents (P := fun e => e ≠ .closed r) (by simp)).rel k⟩
    · unfold openFile
      rw [Sys.bind_apply]
      split
      · exact List.mem_cons_of_mem _ hmem
      · exact hmem
    · unfold openFile
      rw [Sys.bind_apply]
      split
      · next hnew =>
        intro he
        have hfd : r = (call k).1.fd := he
        exact hnew.2 (hfd ▸ hmem)
      · show r ≠ -1
        -- `open` failed, and -1 is no read end
        omega
  obtain ⟨hmem₁, hclose⟩ := closeFd_apart h.mem h.ne
  have hmkdir : NotClosed r (closeFd (s.stream err).logFd k).2
      (emit (.mkdir (joinPath s.dir "/log")) (closeFd (s.stream err).logFd k).2).2 :=
    (emit_allEvents (P := fun e => e ≠ .closed r) (by simp)).rel _
  have hmem₂ :
      r ∈ (emit (.mkdir (joinPath s.dir "/log")) (closeFd (s.stream err).logFd k).2).2.fds :=
    hmem₁
  obtain ⟨hmem₃, hne, hopened⟩ :=
    hopen (joinPath (joinPath s.dir "/log") (streamSuffix err)) _ hmem₂
  have hbefore := IsTrans.trans _ _ _ hclose (IsTrans.trans _ _ _ hmkdir hopened)
  unfold openLog
  rw [Sys.bind_apply, Sys.bind_apply, Sys.bind_apply]
  generalize openFile (joinPath (joinPath s.dir "/log") (streamSuffix err)) .append _ = opened
    at hmem₃ hne hbefore ⊢
  -- the record's log descriptor is the one that `open` returned
  have hlogFd : ∀ len, r ≠ ((s.setStream err { s.stream err with
      logFd := opened.1, logLen := len }).stream err).logFd := by
    intro len
    rw [Service.stream_setStream]
    exact hne
  -- the length is asked for only if `open` succeeded
  split
  · have hcall : AllEvents (fun e => e ≠ .closed r) call := allEvents_silent fun _ => rfl
    have hseek : AllEvents (fun e => e ≠ .closed r) (seekEnd opened.1) :=
      hcall.seq fun _ => (emit_allEvents (by simp)).seq fun _ => .pure trivial
    exact ⟨⟨hmem₃, hlogFd _⟩, IsTrans.trans _ _ _ hbefore (hseek.rel opened.2)⟩
  · exact ⟨⟨hmem₃, hlogFd _⟩, hbefore⟩

/-- A rotation does not touch the read end. -/
theorem rotateLog_apart (hr : 0 ≤ r) (h : Apart err r s k) :
    Apart err r (rotateLog err s k).1 (rotateLog err s k).2 ∧
      NotClosed r k (rotateLog err s k).2 := by
  obtain ⟨hmem, hclose⟩ := closeFd_apart h.mem h.ne
  unfold rotateLog
  rw [Sys.bind_apply, Sys.bind_apply, Sys.bind_apply]
  generalize (wallNow (closeFd (s.stream err).logFd k).2).1 = ts
  -- while the file is renamed the record has no log descriptor
  let st := { s.stream err with logFd := -1, rotations := (s.stream err).rotations + 1 }
  generalize hrename : Event.rename (joinPath (s.setStream err st).dir (streamSuffix err))
    (archivePath (s.setStream err st) err ts ((s.stream err).rotations + 1)) = e
  -- neither the clock nor `rename` closes anything
  have hwall : NotClosed r (closeFd (s.stream err).logFd k).2
      (emit e (wallNow (closeFd (s.stream err).logFd k).2).2).2 := by
    have hcall : AllEvents (fun e => e ≠ .closed r) wallNow := allEvents_silent fun _ => rfl
    have hemit : AllEvents (fun e => e ≠ .closed r) (emit e) := by
      subst hrename
      exact emit_allEvents (by simp)
    exact (hcall.seq fun _ => hemit).rel _
  have hapart : Apart err r (s.setStream err st)
      (emit e (wallNow (closeFd (s.stream err).logFd k).2).2).2 := by
    refine ⟨hmem, ?_⟩
    rw [Service.stream_setStream]
    show r ≠ -1
    omega
  obtain ⟨hend, hopen⟩ := openLog_apart hr hapart
  subst hrename
  exact ⟨hend, IsTrans.trans _ _ _ hclose (IsTrans.trans _ _ _ hwall hopen)⟩

/-- Neither does a write to the log. -/
theorem appendLog_apart (hr : 0 ≤ r) (h : Apart err r s k) (data : Bytes) :
    Apart err r (appendLog err data s k).1 (appendLog err data s k).2 ∧
      NotClosed r k (appendLog err data s k).2 := by
  have hwrite : AllEvents (fun e => e ≠ .closed r) (writeAll (s.stream err).logFd data) := by
    have hcall : AllEvents (fun e => e ≠ .closed r) call := allEvents_silent fun _ => rfl
    exact hcall.seq fun _ => (emit_allEvents (by simp)).seq fun _ => .pure trivial
  have hmem : r ∈ (writeAll (s.stream err).logFd data k).2.fds := h.mem
  have hwrote := hwrite.rel k
  unfold appendLog
  rw [Sys.bind_apply]
  generalize writeAll (s.stream err).logFd data k = wrote at hmem hwrote ⊢
  split
  · refine ⟨⟨hmem, ?_⟩, hwrote⟩
    show r ≠ ((s.setStream err { s.stream err with
      logLen := i64 ((s.stream err).logLen + data.length) }).stream err).logFd
    rw [Service.stream_setStream]
    exact h.ne
  -- a failed `write` closes the log, not the read end
  · obtain ⟨hmem', hclose⟩ := closeFd_apart hmem h.ne
    refine ⟨⟨hmem', ?_⟩, IsTrans.trans _ _ _ hwrote hclose⟩
    show r ≠ ((s.setStream err { s.stream err with logFd := -1 }).stream err).logFd
    rw [Service.stream_setStream]
    show r ≠ -1
    omega

/-- Nor opening, rotating and writing together. -/
theorem writeLog_apart (hr : 0 ≤ r) (h : Apart err r s k) (data : Bytes) :
    Apart err r (writeLog err data s k).1 (writeLog err data s k).2 ∧
      NotClosed r k (writeLog err data s k).2 := by
  -- one goal for each of the parts of `write_log`
  apply writeLog_rule (I := fun s k' => Apart err r s k' ∧ NotClosed r k k')
    (J := fun s k' => Apart err r s k' ∧ NotClosed r k k')
  · intro s k' hk
    obtain ⟨hend, hopen⟩ := openLog_apart hr hk.1
    exact ⟨hend, IsTrans.trans _ _ _ hk.2 hopen⟩
  · intro s k' hk
    obtain ⟨hend, hrotate⟩ := rotateLog_apart hr hk.1
    exact ⟨hend, IsTrans.trans _ _ _ hk.2 hrotate⟩
  · intro s k' hk _
    obtain ⟨hend, happend⟩ := appendLog_apart hr hk.1 data
    exact ⟨hend, IsTrans.trans _ _ _ hk.2 happend⟩
  · exact fun s k' hk _ => hk
  · exact ⟨h, Std.Refl.refl k⟩

/-! ## The loop -/

/-- Closing the read end does not concern the log. -/
theorem LogAt.closeRead (h : LogAt d err path cur s k) (hne : r ≠ (s.stream err).logFd) :
    LogAt d err path cur (s.setStream err { s.stream err with readFd := -1 }) (closeFd r k).2 := by
  -- `close` leaves an event only if the descriptor was open
  have htrace : (closeFd r k).2.trace = k.trace ∨ (closeFd r k).2.trace = .closed r :: k.trace := by
    unfold closeFd
    split
    · exact .inr rfl
    · exact .inl rfl
  -- other descriptors are still open on their files
  have hopen : ∀ fd, fd ≠ r →
      (d.after (closeFd r k).2.trace).openOn fd = (d.after k.trace).openOn fd := by
    intro fd hfd
    rcases htrace with he | he <;> rw [he]
    exact Function.update_of_ne hfd _ _
  have hsuffix : k.trace <:+ (closeFd r k).2.trace := by
    cases htrace with
    | inl he => rw [he]
    | inr he =>
      rw [he]
      exact List.suffix_cons _ _
  refine ⟨(logPath_setStream s err _).trans h.path_eq, ?_, ?_, ?_⟩
  · rw [content_closeFd, h.content]
  · rw [Service.stream_setStream]
    intro hfd
    exact (hopen _ hne.symm).trans (h.isOpen hfd)
  · rw [Service.stream_setStream]
    exact fun hfd hseek => h.length hfd (hseek.suffix hsuffix)

/-- What the reads `made` have done to a stream whose read end was `r`: `written` has been
    appended to the log, and the read end is closed if one of the reads was the end. -/
structure Drained (d : Disk) (err : Bool) (path : Bytes) (r : Int) (made : List ReadResult)
    (k : Kernel) (written : Bytes) (s' : Service) (k' : Kernel) : Prop where
  log : LogAt d err path written s' k'
  ended : made.any ReadResult.ends = true → (s'.stream err).readFd = -1 ∧
    ∃ evs, k'.trace = evs ++ k.trace ∧ .closed r ∈ evs
  going : made.any ReadResult.ends = false → (s'.stream err).readFd = r ∧
    Apart err r s' k' ∧ NotClosed r k k'

/-- A read before, which was not the end. -/
theorem Drained.after {read : ReadResult} {made : List ReadResult} {k₁ k' : Kernel}
    {written : Bytes} {s' : Service} (h : Drained d err path r made k₁ written s' k')
    (hends : read.ends = false) (hbefore : NotClosed r k k₁) :
    Drained d err path r (read :: made) k written s' k' := by
  have hany : (read :: made).any ReadResult.ends = made.any ReadResult.ends := by simp [hends]
  refine ⟨h.log, fun hend => ?_, fun hgo => ?_⟩
  · obtain ⟨hread, evs, htrace, hclosed⟩ := h.ended (hany ▸ hend)
    obtain ⟨before, hbefore, -⟩ := hbefore
    refine ⟨hread, evs ++ before, ?_, List.mem_append_left _ hclosed⟩
    rw [htrace, hbefore, List.append_assoc]
  · obtain ⟨hread, hapart, hlater⟩ := h.going (hany ▸ hgo)
    exact ⟨hread, hapart, IsTrans.trans _ _ _ hbefore hlater⟩

/-- The loop, by induction on the results of its reads. -/
theorem drainStream_drained (hlog : s.hasLog = false) (hread : (s.stream err).readFd = r)
    (hr : 0 ≤ r) (hat : LogAt d err path cur s k) (hapart : Apart err r s k)
    (reads : List ReadResult) :
    ∃ w, Drained d err path r (readsUpTo reads) k (cur ++ w) (drainStream err reads s k).1
        (drainStream err reads s k).2 ∧
      (LogsWork err reads s k → w = (readsUpTo reads).flatMap ReadResult.bytes) := by
  induction reads generalizing s k cur with
  | nil =>
    refine ⟨[], ⟨?_, by simp [readsUpTo], fun _ => ⟨hread, hapart, Std.Refl.refl k⟩⟩, fun _ => rfl⟩
    rw [List.append_nil]
    exact hat
  | cons read reads ih =>
    -- the three ways to go on: stop, stop and close, read again
    have hstop : ∀ {read : ReadResult}, read.goesOn = false → read.ends = false →
        Drained d err path r (readsUpTo (read :: reads)) k (cur ++ []) s k := by
      intro read hgoes hends
      rw [List.append_nil]
      refine ⟨hat, fun h => ?_, fun _ => ⟨hread, hapart, Std.Refl.refl k⟩⟩
      simp [readsUpTo, hgoes, hends] at h
    have hclose : ∀ {read : ReadResult}, read.goesOn = false → read.ends = true →
        Drained d err path r (readsUpTo (read :: reads)) k (cur ++ [])
          (s.setStream err { s.stream err with readFd := -1 }) (closeFd r k).2 := by
      intro read hgoes hends
      rw [List.append_nil]
      refine ⟨hat.closeRead hapart.ne, fun _ => ⟨?_, [.closed r], ?_, by simp⟩, fun h => ?_⟩
      · rw [Service.stream_setStream]
      · unfold closeFd
        rw [if_pos hr]
        rfl
      · simp [readsUpTo, hgoes, hends] at h
    unfold drainStream
    rw [hread, if_neg (Int.not_lt.mpr hr)]
    cases read with
    | eof => exact ⟨[], hclose rfl rfl, fun _ => rfl⟩
    | error => exact ⟨[], hclose rfl rfl, fun _ => rfl⟩
    | eagain => exact ⟨[], hstop rfl rfl, fun _ => rfl⟩
    | eintr =>
      obtain ⟨w, hw, hbytes⟩ := ih hlog hread hat hapart
      exact ⟨w, hw.after rfl (Std.Refl.refl k), hbytes⟩
    | data b =>
      cases b with
      | nil => exact ⟨[], hclose rfl rfl, fun _ => rfl⟩
      | cons c rest =>
        obtain ⟨w₁, hat₁, hall⟩ := writeLog_logAt hat ((c :: rest).take ioBuf)
        obtain ⟨hapart₁, hkept⟩ := writeLog_apart hr hapart ((c :: rest).take ioBuf)
        have honly := writeLog_logOnly err ((c :: rest).take ioBuf) s k
        have hgoes : (ReadResult.data (c :: rest)).goesOn =
            !decide (((c :: rest).take ioBuf).length < ioBuf) := by
          simp only [ReadResult.goesOn, List.length_take, ← decide_not, decide_eq_decide]
          omega
        simp only [hlog, Bool.false_eq_true, if_false, readsUpTo, hgoes, LogsWork]
        rw [Sys.bind_apply]
        generalize hb : (c :: rest).take ioBuf = b at *
        have hbytes : ReadResult.bytes (.data (c :: rest)) = b := hb
        generalize writeLog err b s k = x at *
        by_cases hshort : b.length < ioBuf
        · -- a short read is the last one
          rw [if_pos hshort]
          simp only [hshort, decide_true, Bool.not_true, Bool.false_eq_true, if_false]
          refine ⟨w₁, ⟨hat₁, fun h => ?_, fun _ => ⟨?_, hapart₁, hkept⟩⟩, fun h => ?_⟩
          · simp [ReadResult.ends] at h
          · exact honly.readFd.trans hread
          · rw [hall h.1, List.flatMap_singleton, hbytes]
        · rw [if_neg hshort]
          simp only [hshort, decide_false, Bool.not_false, if_true]
          obtain ⟨w₂, hw, hrest⟩ :=
            ih (honly.hasLog.trans hlog) (honly.readFd.trans hread) hat₁ hapart₁
          rw [List.append_assoc] at hw
          refine ⟨w₁ ++ w₂, hw.after rfl hkept, fun h => ?_⟩
          rw [hall h.1, hrest (h.2.resolve_left (by simp)), List.flatMap_cons, hbytes]

/-! ## The law after a call -/

/-- The law as the entry condition of the loop. -/
theorem StreamLaw.logAt (h : StreamLaw d err s k) :
    LogAt d err (logPath s err) ((d.after k.trace).content (logPath s err)) s k := by
  refine ⟨rfl, rfl, h.isOpen, fun hfd _ _ => ?_⟩
  rw [h.length hfd, FileStore.Store.length_of_openOn _ (h.isOpen hfd)]

/-- The law again, when the loop is over. -/
theorem LogAt.law (h : LogAt d err path cur s k) (hseeks : SeeksEnd d k.trace)
    (hsizes : SizesFit d k.trace) (hpipe : 0 ≤ (s.stream err).readFd →
      Apart err (s.stream err).readFd s k) : StreamLaw d err s k := by
  have hcur : (cur.length : Int) ≤ i64Max := by
    rw [← h.content]
    exact hsizes k.trace List.suffix_rfl path
  refine ⟨fun hfd => ?_, fun hfd => ?_, fun hread => ⟨(hpipe hread).mem, (hpipe hread).ne⟩⟩
  · rw [h.isOpen hfd, h.path_eq]
  · rw [h.length hfd hseeks hcur, FileStore.Store.length_of_openOn _ (h.isOpen hfd), h.content]

/-- After any call of `drain_stream` for a service without a logger, `log_len` is the length of
    the file that `log_fd` is open on; the read end has been closed and set to -1 if one of the
    reads returned the end of the file or an error other than EAGAIN and EINTR, and otherwise it
    is as it was; and if no `open` and no `write` failed, the bytes that the reads returned have
    been appended to the log, in order. -/
theorem drain_preserves {reads : List ReadResult} (hlog : s.hasLog = false)
    (hlaw : StreamLaw d err s k) (hseeks : SeeksEnd d (drainStream err reads s k).2.trace)
    (hsizes : SizesFit d (drainStream err reads s k).2.trace) :
    let made := readsMade (s.stream err) reads
    let s' := (drainStream err reads s k).1
    let k' := (drainStream err reads s k).2
    StreamLaw d err s' k' ∧
      (if made.any ReadResult.ends then (s'.stream err).readFd = -1 ∧
          ∃ evs, k'.trace = evs ++ k.trace ∧ .closed (s.stream err).readFd ∈ evs
        else (s'.stream err).readFd = (s.stream err).readFd ∧
          ∃ evs, k'.trace = evs ++ k.trace ∧ .closed (s.stream err).readFd ∉ evs) ∧
      (LogsWork err reads s k → (d.after k'.trace).content (logPath s err) =
        (d.after k.trace).content (logPath s err) ++ made.flatMap ReadResult.bytes) := by
  by_cases hread : (s.stream err).readFd < 0
  · -- nothing is read
    have hstays : drainStream err reads s k = (s, k) := by
      cases reads with
      | nil => rfl
      | cons r reads =>
        unfold drainStream
        rw [if_pos hread]
        rfl
    simp only [hstays, readsMade, if_pos hread]
    refine ⟨hlaw, ?_, fun _ => (List.append_nil _).symm⟩
    rw [if_neg (by simp)]
    exact ⟨trivial, [], rfl, List.not_mem_nil⟩
  · have hr : 0 ≤ (s.stream err).readFd := Int.not_lt.mp hread
    have hpipe := hlaw.pipe hr
    have hapart : Apart err (s.stream err).readFd s k := ⟨hpipe.1, hpipe.2⟩
    obtain ⟨w, hdrained, hbytes⟩ :=
      drainStream_drained hlog rfl hr hlaw.logAt hapart reads
    simp only [readsMade, if_neg hread]
    refine ⟨hdrained.log.law hseeks hsizes fun hopen => ?_, ?_, fun hworks => ?_⟩
    · -- the read end that is left, if any
      cases hend : (readsUpTo reads).any ReadResult.ends with
      | true =>
        have hgone := (hdrained.ended hend).1
        omega
      | false =>
        obtain ⟨hsame, hapart, -⟩ := hdrained.going hend
        rw [hsame]
        exact hapart
    · split
      · next hend => exact hdrained.ended hend
      · next hend =>
        obtain ⟨hsame, -, evs, htrace, hkept⟩ := hdrained.going (Bool.eq_false_iff.mpr hend)
        exact ⟨hsame, evs, htrace, fun hclosed => hkept _ hclosed rfl⟩
    · rw [hdrained.log.content, hbytes hworks]

end

/-- No file is longer than the longest one at the beginning and all that has been written. -/
theorem Disk.after_bounded {d : Disk} {n : Nat} (h : d.Bounded n) (trace : List Event) :
    (d.after trace).Bounded (n + (wroteBytes trace).length) := by
  -- by induction on the events, oldest first
  induction trace with
  | nil => exact h
  | cons e older ih =>
    cases e with
    -- `openAppend` and `rename` add no byte, truncation and removal take some away
    | opened path mode fd =>
      cases mode with
      | append =>
        intro path'
        show ((((d.after older).openAppend path fd)).content path').length ≤ _
        rw [FileStore.Store.content_openAppend]
        exact ih path'
      | trunc => exact ih.openTrunc path fd
    | wrote fd data =>
      have hlast := ih.append fd data
      rw [Nat.add_assoc, ← List.length_append] at hlast
      exact hlast
    | rename source target => exact ih.rename source target
    | unlinked path => exact ih.remove path _
    | _ => exact ih

/-- The sizes fit if there is room for all that is written. -/
theorem sizesFit_of_bounded {d : Disk} {n : Nat} {trace : List Event} (h : d.Bounded n)
    (hroom : (n + (wroteBytes trace).length : Int) ≤ i64Max) : SizesFit d trace := by
  rintro older ⟨newer, rfl⟩ path
  have hle := Disk.after_bounded h older path
  rw [wroteBytes_append, List.length_append] at hroom
  omega

/-- A record with a read end, but without an open log. -/
def drainRecord : Service := logRecord.setStream false { logRecord.stream false with readFd := 7 }

/-- The read end is open, and `lseek` returns 0. -/
def drainKernel : Kernel := { seeking 0 with fds := [0, 1, 2, 7] }

/-- An interrupted read, then a line. -/
def lineReads : List ReadResult := [.eintr, .data (bytesOf "hi")]

/-- An interrupted read, and then a line, for a log that is not open yet. -/
theorem drain_preserves_first :
    StreamLaw emptyDisk false (drainStream false lineReads drainRecord drainKernel).1
        (drainStream false lineReads drainRecord drainKernel).2 ∧
      (emptyDisk.after (drainStream false lineReads drainRecord drainKernel).2.trace).content
        logFile = bytesOf "hi" := by
  have htrace : (drainStream false lineReads drainRecord drainKernel).2.trace = firstLine := by
    decide +kernel
  -- nothing is open yet, so the law holds trivially at the start
  have hlaw : StreamLaw emptyDisk false drainRecord drainKernel :=
    ⟨fun h => absurd h (by decide), fun h => absurd h (by decide),
      fun _ => ⟨by decide +kernel, by decide⟩⟩
  have hseeks : SeeksEnd emptyDisk (drainStream false lineReads drainRecord drainKernel).2.trace :=
    htrace ▸ seeksEnd_firstLine
  have hempty : emptyDisk.Bounded 0 := fun _ => Nat.le_refl 0
  have hsizes : SizesFit emptyDisk (drainStream false lineReads drainRecord drainKernel).2.trace :=
    htrace ▸ sizesFit_of_bounded hempty (by decide)
  have hworks : LogsWork false lineReads drainRecord drainKernel :=
    ⟨by decide +kernel, .inl (by decide)⟩
  obtain ⟨hafter, -, hbytes⟩ := drain_preserves rfl hlaw hseeks hsizes
  exact ⟨hafter, hbytes hworks⟩

end SvcRs
