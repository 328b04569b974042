import SvcRs.Spec.DescriptorTable
import SvcRs.Spec.LogFiles

/-!
# Output pipes as queues

The pipes between the services and the supervisor. What a process writes is put into the
queue of a pipe, the reads of `drain_stream` take it out, and what is left when the read end
is closed is gone. What opens and closes pipes is replayed from the trace.

## Key results

- `queueAfter_spared`: a queue changes only by events about its descriptor
- `drainStream_writes`: the bytes that are read are appended to the log, in order
- `drainStream_handsLog`: while something is left in the pipe, it is not closed
-/

namespace SvcRs

open Ownership (Transfers)

/-! ## Queues -/

/-- A new pipe is empty, and nothing can be read after the read end has been closed. -/
def Event.onQueue : Event → (Int → Bytes) → Int → Bytes
  | .piped readFd _, q => Function.update q readFd []
  | .closed fd, q => Function.update q fd []
  | _, q => q

/-- The queues, by read end, after the events, of which the newest comes first. -/
def queueAfter (q : Int → Bytes) : List Event → Int → Bytes
  | [] => q
  | e :: older => e.onQueue (queueAfter q older)

/-- An event empties a queue or leaves it alone. -/
theorem Event.onQueue_cases (e : Event) (q : Int → Bytes) (fd : Int) :
    e.onQueue q fd = [] ∨ e.onQueue q fd = q fd := by
  have hupdate : ∀ fd', Function.update q fd' [] fd = [] ∨ Function.update q fd' [] fd = q fd := by
    intro fd'
    by_cases h : fd = fd'
    · exact .inl (h ▸ Function.update_self ..)
    · exact .inr (Function.update_of_ne h ..)
  cases e with
  | piped readFd writeFd => exact hupdate readFd
  | closed fd' => exact hupdate fd'
  | _ => exact .inr rfl

/-- An event about other descriptors. -/
theorem Event.onQueue_spared {e : Event} {fd : Int} (h : fd ∉ e.opens ∧ fd ∉ e.closes)
    (q : Int → Bytes) : e.onQueue q fd = q fd := by
  cases e with
  | piped readFd writeFd =>
    apply Function.update_of_ne
    intro he
    exact h.1 (he ▸ Multiset.mem_add.mpr (.inl (Multiset.mem_singleton_self fd)))
  | closed fd' =>
    apply Function.update_of_ne
    intro he
    exact h.2 (he ▸ Multiset.mem_singleton_self fd)
  | _ => rfl

/-- Events put nothing into a queue. -/
theorem queueAfter_cases (q : Int → Bytes) (evs : List Event) (fd : Int) :
    queueAfter q evs fd = [] ∨ queueAfter q evs fd = q fd := by
  induction evs with
  | nil => exact .inr rfl
  | cons e evs ih =>
    cases e.onQueue_cases (queueAfter q evs) fd with
    | inl hnone => exact .inl hnone
    | inr hsame => exact ih.imp hsame.trans hsame.trans

/-- Events about other descriptors. -/
theorem queueAfter_spared {evs : List Event} {fd : Int}
    (h : ∀ e ∈ evs, fd ∉ e.opens ∧ fd ∉ e.closes) (q : Int → Bytes) :
    queueAfter q evs fd = q fd := by
  induction evs with
  | nil => rfl
  | cons e evs ih =>
    have hrest := ih fun e' he' => h e' (List.mem_cons_of_mem e he')
    exact (Event.onQueue_spared (h e List.mem_cons_self) _).trans hrest

/-! ## Reading -/

/-- What the reads of `drain_stream` leave of a queue, or `none` if no pipe gives these
    results: neither the end of the file nor an error is reported while there is something
    to read. The last read is the first that is short. -/
def drainQueue : List ReadResult → Bytes → Option Bytes
  | [], q => some q
  | .eintr :: reads, q => drainQueue reads q
  | .eagain :: _, q => some q
  | .eof :: _, q | .error :: _, q | .data [] :: _, q => if q = [] then some [] else none
  | .data (c :: rest) :: reads, q =>
    let b := (c :: rest).take ioBuf
    if b.isPrefixOf q then
      if b.length < ioBuf then some (q.drop b.length) else drainQueue reads (q.drop b.length)
    else none

/-- Opening and writing the log succeed for every chunk that is read. -/
def LogsWork (err : Bool) : List ReadResult → Service → Kernel → Prop
  | .data (c :: rest) :: reads, s, k =>
    let b := (c :: rest).take ioBuf
    let r := writeLog err b s k
    0 ≤ (r.1.stream err).logFd ∧ (b.length < ioBuf ∨ LogsWork err reads r.1 r.2)
  | .eintr :: reads, s, k => LogsWork err reads s k
  | _, _, _ => True

/-! ## Writing -/

/-- The bytes of all writes, in order; the newest event comes first. -/
def wroteBytes : List Event → Bytes
  | [] => []
  | .wrote _ data :: older => wroteBytes older ++ data
  | _ :: older => wroteBytes older

/-- Older writes come first. -/
theorem wroteBytes_append (evs older : List Event) :
    wroteBytes (evs ++ older) = wroteBytes older ++ wroteBytes evs := by
  induction evs with
  | nil => exact (List.append_nil _).symm
  | cons e evs ih =>
    cases e with
    | wrote fd data =>
      show wroteBytes (evs ++ older) ++ data = _ ++ (wroteBytes evs ++ data)
      rw [ih, List.append_assoc]
    | _ => exact ih

/-- If `m` succeeds, it has written `data`. -/
def Writes (err : Bool) (m : Service → Sys Service) (data : Bytes) : Prop :=
  ∀ s k, 0 ≤ ((m s k).1.stream err).logFd →
    wroteBytes (m s k).2.trace = wroteBytes k.trace ++ data

/-- Closing a file writes nothing. -/
theorem wroteBytes_closeFd (fd : Int) (k : Kernel) :
    wroteBytes (closeFd fd k).2.trace = wroteBytes k.trace := by
  unfold closeFd
  split <;> rfl

section

variable {err : Bool} {data : Bytes} {m f : Service → Sys Service}

/-- Opening the log writes nothing. -/
theorem openLog_writes (err : Bool) : Writes err (openLog err) [] := by
  intro s k h
  obtain ⟨fd, len, -, -, htrace⟩ := openLog_success h
  rw [htrace, List.append_nil]
  exact wroteBytes_closeFd _ k

/-- Nor does rotating it. -/
theorem rotateLog_writes (err : Bool) : Writes err (rotateLog err) [] := by
  intro s k h
  unfold rotateLog at h ⊢
  rw [Sys.bind_apply, Sys.bind_apply, Sys.bind_apply] at h ⊢
  rw [openLog_writes err _ _ h]
  exact congrArg (· ++ []) (wroteBytes_closeFd (s.stream err).logFd k)

/-- Appending to the log writes the data. -/
theorem appendLog_writes (err : Bool) (data : Bytes) : Writes err (appendLog err data) data := by
  intro s k h
  unfold appendLog at h ⊢
  rw [Sys.bind_apply] at h ⊢
  cases hwrote : (writeAll (s.stream err).logFd data k).1 with
  | true =>
    show wroteBytes k.trace ++ (writeLoop _ data []).1 = _
    rw [writeLoop_all _ data [] hwrote, List.nil_append]
  | false =>
    -- the log has been given up
    rw [hwrote] at h
    have h : 0 ≤ ((s.setStream err { s.stream err with logFd := -1 }).stream err).logFd := h
    rw [Service.stream_setStream] at h
    exact absurd h (by decide : ¬(0 : Int) ≤ -1)

/-- Nothing is written without a log. -/
theorem Writes.guarded (h : Writes err m data) : Writes err (SvcRs.guarded err m) data := by
  intro s k hok
  unfold SvcRs.guarded at hok ⊢
  split at hok
  · next hneg => exact absurd hok (Int.not_le.mpr hneg)
  · next hfd =>
    rw [if_neg hfd]
    exact h s k hok

/-- First something that writes nothing, under a condition, then what is guarded. -/
theorem Writes.whenBind (hm : Writes err m []) (hf : Writes err f data) (c : Service → Prop)
    [DecidablePred c] : Writes err
      (fun s => if c s then m s >>= SvcRs.guarded err f else SvcRs.guarded err f s) data := by
  intro s k hok
  by_cases hc : c s
  · simp only [if_pos hc] at hok ⊢
    rw [Sys.bind_apply] at hok ⊢
    -- the guard let the second part pass, so there was a descriptor
    have hfd : 0 ≤ ((m s k).1.stream err).logFd := by
      apply Int.not_lt.mp
      intro hneg
      rw [SvcRs.guarded, if_pos hneg] at hok
      exact absurd hok (Int.not_le.mpr hneg)
    rw [hf.guarded _ _ hok, hm s k hfd, List.append_nil]
  · simp only [if_neg hc] at hok ⊢
    exact hf.guarded s k hok

/-- Success means that the data were written. -/
theorem writeLog_writes (err : Bool) (data : Bytes) : Writes err (writeLog err data) data := by
  have hrotate := (rotateLog_writes err).whenBind (appendLog_writes err data) fun s =>
    i64 ((s.stream err).logLen + data.length) > logLimit
  exact (openLog_writes err).whenBind hrotate fun s => (s.stream err).logFd < 0

end

/-! ### Only the log is different -/

/-- Opening the log. -/
theorem openLog_logOnly (err : Bool) (s : Service) (k : Kernel) :
    LogOnly err s (openLog err s k).1 := by
  unfold openLog
  rw [Sys.bind_apply, Sys.bind_apply, Sys.bind_apply]
  split
  · refine ⟨_, ?_, rfl⟩
    rfl
  · refine ⟨_, ?_, rfl⟩
    rfl

/-- Rotating it. -/
theorem rotateLog_logOnly (err : Bool) (s : Service) (k : Kernel) :
    LogOnly err s (rotateLog err s k).1 := by
  let st := { s.stream err with logFd := -1, rotations := (s.stream err).rotations + 1 }
  have hclosed : LogOnly err s (s.setStream err st) := ⟨st, rfl, rfl⟩
  exact hclosed.trans (openLog_logOnly err _ _)

/-- Appending to it. -/
theorem appendLog_logOnly (err : Bool) (data : Bytes) (s : Service) (k : Kernel) :
    LogOnly err s (appendLog err data s k).1 := by
  unfold appendLog
  rw [Sys.bind_apply]
  split
  · exact ⟨{ s.stream err with logLen := i64 ((s.stream err).logLen + data.length) }, rfl, rfl⟩
  · exact ⟨{ s.stream err with logFd := -1 }, rfl, rfl⟩

/-- The same through a step under a condition and a guard. -/
theorem LogOnly.guarded {err : Bool} {m : Service → Sys Service}
    (h : ∀ s k, LogOnly err s (m s k).1) (s : Service) (k : Kernel) :
    LogOnly err s (SvcRs.guarded err m s k).1 := by
  unfold SvcRs.guarded
  split
  · exact .refl err s
  · exact h s k

/-- A step that is taken under a condition. -/
theorem LogOnly.whenBind {err : Bool} {m f : Service → Sys Service}
    (hm : ∀ s k, LogOnly err s (m s k).1) (hf : ∀ s k, LogOnly err s (f s k).1)
    (c : Service → Prop) [DecidablePred c] (s : Service) (k : Kernel) :
    LogOnly err s ((if c s then m s >>= f else f s : Sys Service) k).1 := by
  split
  · exact (hm s k).trans (hf _ _)
  · exact hf s k

/-- All of them together. -/
theorem writeLog_logOnly (err : Bool) (data : Bytes) (s : Service) (k : Kernel) :
    LogOnly err s (writeLog err data s k).1 := by
  have hrotate := LogOnly.whenBind (rotateLog_logOnly err)
    (LogOnly.guarded (appendLog_logOnly err data)) fun s =>
      i64 ((s.stream err).logLen + data.length) > logLimit
  exact LogOnly.whenBind (openLog_logOnly err) (LogOnly.guarded hrotate)
    (fun s => (s.stream err).logFd < 0) s k

/-- Whether there is a logger does not change. -/
theorem LogOnly.hasLog {err : Bool} {s s' : Service} (h : LogOnly err s s') :
    s'.hasLog = s.hasLog := by
  obtain ⟨st, -, rfl⟩ := h
  cases err <;> rfl

/-- The read end does not change. -/
theorem LogOnly.readFd {err : Bool} {s s' : Service} (h : LogOnly err s s') :
    (s'.stream err).readFd = (s.stream err).readFd := by
  obtain ⟨st, hread, rfl⟩ := h
  rw [Service.stream_setStream, hread]

/-! ## Draining -/

/-- What the reads take out of the pipe of a service without a logger is appended to its
    log, in order. -/
theorem drainStream_writes {err : Bool} {reads : List ReadResult} {s : Service} {k : Kernel}
    {q left : Bytes} (hlog : s.hasLog = false) (hread : 0 ≤ (s.stream err).readFd)
    (hq : drainQueue reads q = some left) (hworks : LogsWork err reads s k) :
    ∃ data, q = data ++ left ∧
      wroteBytes (drainStream err reads s k).2.trace = wroteBytes k.trace ++ data := by
  induction reads generalizing s k q with
  | nil =>
    cases hq
    exact ⟨[], rfl, (List.append_nil _).symm⟩
  | cons r reads ih =>
    unfold drainStream
    rw [if_neg (Int.not_lt.mpr hread)]
    have hclose : (if q = [] then some ([] : Bytes) else none) = some left →
        ∃ data, q = data ++ left ∧
          wroteBytes (closeFd (s.stream err).readFd k).2.trace = wroteBytes k.trace ++ data := by
      intro hq
      split at hq
      · next hnil =>
        cases hq
        exact ⟨[], hnil, (wroteBytes_closeFd _ k).trans (List.append_nil _).symm⟩
      · cases hq
    cases r with
    | eof | error => exact hclose hq
    | eintr => exact ih hlog hread hq hworks
    | eagain =>
      cases hq
      exact ⟨[], rfl, (List.append_nil _).symm⟩
    | data b =>
      cases b with
      | nil => exact hclose hq
      | cons c rest =>
        simp only [drainQueue] at hq
        simp only [LogsWork] at hworks
        simp only [hlog, Bool.false_eq_true, if_false]
        rw [Sys.bind_apply]
        generalize List.take ioBuf (c :: rest) = b at hq hworks ⊢
        split at hq
        · next hprefix =>
          obtain ⟨tail, rfl⟩ := List.isPrefixOf_iff_prefix.mp hprefix
          rw [List.drop_left] at hq
          have hwrote := writeLog_writes err b s k hworks.1
          split at hq
          · next hshort =>
            -- a short read is the last one
            cases hq
            rw [if_pos hshort]
            exact ⟨b, rfl, hwrote⟩
          · next hfull =>
            have honly := writeLog_logOnly err b s k
            rw [if_neg hfull]
            obtain ⟨data, htail, hrest⟩ := ih (honly.hasLog.trans hlog)
              (honly.readFd.symm ▸ hread) hq (hworks.2.resolve_left hfull)
            refine ⟨b ++ data, ?_, ?_⟩
            · rw [htail, List.append_assoc]
            · rw [hrest, hwrote, List.append_assoc]
        · cases hq

variable {books : Books}

/-- As long as something is left in the pipe, its read end is kept. -/
theorem drainStream_handsLog {err : Bool} {reads : List ReadResult} {s : Service} {q left : Bytes}
    (hq : drainQueue reads q = some left) (hleft : left ≠ []) :
    HandsLog books err s (drainStream err reads s) := by
  have hnothing : ∀ s, HandsLog books err s (pure s) := fun s => .pure rfl (.refl err s)
  -- no pipe with something in it reports its end
  have hclose : ∀ q : Bytes, (if q = [] then some ([] : Bytes) else none) ≠ some left := by
    intro q hq
    split at hq
    · exact hleft (Option.some.inj hq).symm
    · cases hq
  induction reads generalizing s q with
  | nil => exact hnothing s
  | cons r reads ih =>
    unfold drainStream
    apply Transfers.ite
    · exact fun _ => hnothing s
    intro _
    cases r with
    | eof | error => exact absurd hq (hclose q)
    | eintr => exact ih hq
    | eagain => exact hnothing s
    | data b =>
      cases b with
      | nil => exact absurd hq (hclose q)
      | cons c rest =>
        simp only [drainQueue] at hq
        apply Transfers.iteBind (b := fun s₁ => ownFd (s₁.stream err).logFd) (Q := LogOnly err s)
        · exact fun _ => .pure rfl (.refl err s)
        · exact fun _ => writeLog_handsLog err _ s
        intro s₁ h₁
        apply Transfers.ite
        · exact fun _ => .pure rfl h₁
        intro hfull
        rw [if_neg hfull] at hq
        split at hq
        · exact (ih hq).weaken rfl (fun _ _ => rfl) fun _ => h₁.trans
        · cases hq

end SvcRs
