import SvcRs.Spec.Events

/-!
# The status file of one record

What a function that works on one record does to the status file of the service: nothing while
the fields that the file shows stay as they are, otherwise `write_status_file` is the last thing
that it does.

## Key results

- `writeStatusFile_shows`: the file shows the record
- `startService_reports`, `reapMain_reports`, `buildService_reports`: written after the last change
- `releaseMissing_honest`, `acceptCmd_honest`: a file that showed the record before shows it after
-/

namespace SvcRs

/-! ## What the file shows -/

/-- The path of the status file. -/
def statusPath (s : Service) : Bytes := joinPath s.dir "/status"

/-- The outcome of a `write_status_file` for this path. -/
def Event.reportOn (path : Bytes) : Event → Option (Option Bytes)
  | .status p text => if p = path then some text else none
  | _ => none

/-- The outcome of the last `write_status_file` for this path. -/
def Kernel.lastReport (k : Kernel) (path : Bytes) : Option (Option Bytes) :=
  k.trace.findSome? (Event.reportOn path)

/-- A status file that could not be opened, or not written. -/
def Event.isFailure : Event → Bool
  | .status _ none => true
  | _ => false

/-- The last `write_status_file` failed, or it wrote the status of this record. -/
def Shows (s : Service) (k : Kernel) : Prop :=
  ∃ outcome, k.lastReport (statusPath s) = some outcome ∧
    ∀ text, outcome = some text → ∃ now, text = (statusText s now).bytes

/-- The two records have the same status file, with the same text at all times. -/
structure SameReport (s s' : Service) : Prop where
  dir : s'.dir = s.dir
  text : ∀ now, statusText s' now = statusText s now

section

variable {s s' s'' : Service} {k k' : Kernel}

/-- Nothing changes. -/
theorem SameReport.refl (s : Service) : SameReport s s := ⟨rfl, fun _ => rfl⟩

/-- One after the other. -/
theorem SameReport.trans (h : SameReport s s') (h' : SameReport s' s'') : SameReport s s'' :=
  ⟨h'.dir.trans h.dir, fun now => (h'.text now).trans (h.text now)⟩

/-- The file is the same. -/
theorem SameReport.path (h : SameReport s s') : statusPath s' = statusPath s := by
  unfold statusPath
  rw [h.dir]

/-- The streams are not reported. -/
theorem sameReport_setStream (s : Service) (err : Bool) (st : Stream) :
    SameReport s (s.setStream err st) := by
  cases err <;> exact ⟨rfl, fun _ => rfl⟩

/-- Events that are about other files. -/
theorem Emits.lastReport {path : Bytes} (h : Emits (fun e => e.reportOn path = none) k k') :
    k'.lastReport path = k.lastReport path := by
  obtain ⟨evs, hevs, hnone⟩ := h
  have hskip : evs.findSome? (Event.reportOn path) = none := List.findSome?_eq_none_iff.mpr hnone
  unfold Kernel.lastReport
  rw [hevs, List.findSome?_append, hskip, Option.none_or]

/-- A later record with the same text is shown as long as nobody writes the file. -/
theorem Shows.same (h : Shows s k) (hsame : SameReport s s')
    (hemits : Emits (fun e => e.reportOn (statusPath s) = none) k k') : Shows s' k' := by
  obtain ⟨outcome, hlast, htext⟩ := h
  refine ⟨outcome, ?_, fun text he => ?_⟩
  · rw [hsame.path, hemits.lastReport]
    exact hlast
  · obtain ⟨now, hnow⟩ := htext text he
    exact ⟨now, by rw [hsame.text, hnow]⟩

/-- If no write fails, the file shows the record. -/
theorem Shows.written (h : Shows s k) (hok : ∀ e ∈ k.trace, e.isFailure = false) :
    ∃ now, k.lastReport (statusPath s) = some (some (statusText s now).bytes) := by
  obtain ⟨outcome, hlast, htext⟩ := h
  obtain ⟨e, he, hreport⟩ := List.exists_of_findSome?_eq_some hlast
  -- the last report is the event that was found
  cases e with
  | status path text =>
    have hout : text = outcome := by
      simp only [Event.reportOn] at hreport
      split at hreport
      · exact Option.some.inj hreport
      · cases hreport
    -- a failed write is excluded by hypothesis
    cases text with
    | none => cases hok _ he
    | some text =>
      obtain ⟨now, hnow⟩ := htext text hout.symm
      exact ⟨now, by rw [hlast, ← hout, hnow]⟩
  | _ => cases hreport

end

/-! ## Three kinds of functions -/

/-- An outcome of `write_status_file`. -/
def Event.isStatus : Event → Bool
  | .status .. => true
  | _ => false

/-- Not an outcome of `write_status_file` for another path. -/
def Event.ReportsOnly (path : Bytes) : Event → Prop
  | .status p _ => p = path
  | _ => True

/-- No status file is written. -/
abbrev Silent {α : Type} (m : Sys α) (Q : α → Prop) : Prop :=
  StateM.Keeps (Emits fun e => e.isStatus = false) m Q

/-- No status file is written, and the text in that of `s` stays right. -/
abbrev KeepsStatus (s : Service) (m : Sys Service) : Prop := Silent m (SameReport s)

/-- If the file showed `s`, it shows the new record. -/
abbrev Honest (s : Service) (m : Sys Service) : Prop :=
  StateM.Within (Emits (Event.ReportsOnly (statusPath s))) (Shows s) m fun s' k =>
    s'.dir = s.dir ∧ Shows s' k

/-- Whatever it showed, the file in `dir` shows the new record, which is in `dir`. -/
abbrev Reports (dir : Bytes) (m : Sys Service) : Prop :=
  StateM.Within (Emits (Event.ReportsOnly (joinPath dir "/status"))) (fun _ => True) m fun s' k =>
    s'.dir = dir ∧ Shows s' k

section

variable {α : Type} {s s' : Service} {dir : Bytes}

/-- An event that is not about a status file reports nothing. -/
theorem Event.reportsOnly_of {e : Event} (h : e.isStatus = false) (path : Bytes) :
    e.ReportsOnly path := by
  cases e with
  | status => cases h
  | _ => trivial

/-- Whatever the path is. -/
theorem Event.reportOn_of {e : Event} (h : e.isStatus = false) (path : Bytes) :
    e.reportOn path = none := by
  cases e with
  | status => cases h
  | _ => rfl

/-- An outcome for one path says nothing of another. -/
theorem Event.ReportsOnly.reportOn {e : Event} {path other : Bytes} (h : e.ReportsOnly path)
    (hne : path ≠ other) : e.reportOn other = none := by
  cases e with
  | status p text =>
    have hp : p ≠ other := fun he => hne (h.symm.trans he)
    exact if_neg hp
  | _ => rfl

/-- A call that leaves no trace. -/
theorem silent_of {m : Sys α} (h : ∀ k, (m k).2.trace = k.trace) : Silent m fun _ => True :=
  allEvents_silent h

/-- The clock. -/
theorem monoNow_silent : Silent monoNow fun _ => True := silent_of fun _ => rfl

/-- A function that changes nothing that is reported. -/
theorem KeepsStatus.honest {m : Sys Service} (h : KeepsStatus s m) : Honest s m := by
  intro k hshows
  have hsame := h.post k
  have hemits := h.rel k
  refine ⟨hemits.mono fun _ he => Event.reportsOnly_of he _, hsame.dir, ?_⟩
  exact hshows.same hsame (hemits.mono fun _ he => Event.reportOn_of he _)

/-- A function that ends with a report. -/
theorem Reports.honest {m : Sys Service} (h : Reports s.dir m) : Honest s m :=
  h.weaken (fun _ _ => trivial) fun _ _ => id

/-- Before anything else, a part that does not change what is shown. -/
theorem Honest.after {m : Sys Service} {f : Service → Sys Service} (hm : KeepsStatus s m)
    (hf : ∀ s', SameReport s s' → Honest s' (f s')) : Honest s (m >>= f) := by
  intro k hshows
  have hsame := hm.post k
  obtain ⟨hemits, -, hshows'⟩ := hm.honest k hshows
  obtain ⟨hemits', hdir', hresult⟩ := hf _ hsame (m k).2 hshows'
  rw [hsame.path] at hemits'
  exact ⟨IsTrans.trans _ _ _ hemits hemits', hdir'.trans hsame.dir, hresult⟩

/-- Before the file is written, anything else. -/
theorem Reports.after {m : Sys α} {f : α → Sys Service} {Q : α → Prop} (hm : Silent m Q)
    (hf : ∀ a, Q a → Reports dir (f a)) : Reports dir (m >>= f) := by
  intro k _
  obtain ⟨hemits, hresult⟩ := hf _ (hm.post k) (m k).2 trivial
  exact ⟨IsTrans.trans _ _ _ ((hm.rel k).mono fun _ he => Event.reportsOnly_of he _) hemits, hresult⟩

/-- Both branches of a test. -/
theorem Reports.ite {c : Prop} [Decidable c] {m₁ m₂ : Sys Service} (h₁ : c → Reports dir m₁)
    (h₂ : ¬c → Reports dir m₂) : Reports dir (if c then m₁ else m₂) := by
  split
  · next hc => exact h₁ hc
  · next hc => exact h₂ hc

/-- The outcome is the last event. -/
theorem writeStatusFile_outcome (s : Service) (k : Kernel) : ∃ outcome k',
    (writeStatusFile s k).2 = (emit (.status (statusPath s) outcome) k').2 ∧
      ∀ text, outcome = some text → ∃ now, text = (statusText s now).bytes := by
  unfold writeStatusFile
  rw [Sys.bind_apply]
  split
  · -- it could not be opened
    exact ⟨none, _, rfl, by simp⟩
  · refine ⟨_, _, rfl, fun text he => ?_⟩
    split at he
    · exact ⟨_, (Option.some.inj he).symm⟩
    · cases he

/-- `write_status_file` writes the status of the record to its file. -/
theorem writeStatusFile_shows (s : Service) :
    StateM.Within (Emits (Event.ReportsOnly (statusPath s))) (fun _ => True) (writeStatusFile s)
      fun _ k => Shows s k := by
  have hevents : AllEvents (Event.ReportsOnly (statusPath s)) (writeStatusFile s) := by
    apply writeStatusFile_reports s
    -- of the events on files, only the last one is a report
    · intro e _ hother
      cases e with
      | status path text => exact absurd rfl (hother path text)
      | _ => trivial
    · exact fun _ => rfl
  intro k _
  refine ⟨hevents.rel k, ?_⟩
  obtain ⟨outcome, k', hrun, htext⟩ := writeStatusFile_outcome s k
  refine ⟨outcome, ?_, htext⟩
  rw [hrun]
  simp [Kernel.lastReport, emit, Event.reportOn]

/-- The file is written, and nothing that it shows is changed any more. -/
theorem Reports.write {f : Unit → Sys Service} (hf : KeepsStatus s (f ())) :
    Reports s.dir (writeStatusFile s >>= f) := by
  intro k _
  obtain ⟨hemits, hshows⟩ := writeStatusFile_shows s k trivial
  obtain ⟨hemits', hdir, hshows'⟩ := hf.honest (writeStatusFile s k).2 hshows
  exact ⟨IsTrans.trans _ _ _ hemits hemits', hdir, hshows'⟩

/-- A function that ends by writing the status. -/
theorem reports_status (s : Service) : Reports s.dir (do writeStatusFile s; return s) :=
  .write (.pure (.refl s))

end

/-! ## Functions that do not touch what is shown -/

section

variable {s : Service}

/-- Files that are not status files. -/
theorem openFile_silent (path : Bytes) (mode : OpenMode) :
    Silent (openFile path mode) fun _ => True :=
  openFile_allEvents fun _ => rfl

theorem closeFd_silent (fd : Int) : Silent (closeFd fd) fun _ => True := closeFd_allEvents rfl

theorem fork_silent (role : Role) : Silent (fork role) fun _ => True := fork_allEvents fun _ => rfl

theorem call_silent : Silent call fun _ => True := silent_of fun _ => rfl

theorem access_silent (path : Bytes) (mode : AccessMode) : Silent (access path mode) fun _ => True :=
  silent_of fun _ => rfl

/-- A single event. -/
theorem emit_silent {e : Event} (h : e.isStatus = false) : Silent (emit e) fun _ => True :=
  emit_allEvents h

theorem newPipe_silent : Silent newPipe fun _ => True := by
  intro k _
  refine ⟨?_, trivial⟩
  simp only [newPipe, Sys.bind_apply]
  split
  · split
    · exact ⟨[_], rfl, by simp [Event.isStatus]⟩
    · exact ⟨[], rfl, by simp⟩
  · exact ⟨[], rfl, by simp⟩

theorem prepareServiceEnv_keepsStatus (s : Service) : KeepsStatus s (prepareServiceEnv s) := by
  have henv : KeepsStatus s (readEnv s) := by
    intro k _
    unfold readEnv
    rw [Sys.bind_apply]
    rcases (readFileToBuf (joinPath s.dir "/env") envBuf k).1 with _ | _ | ⟨c, rest⟩ <;>
      exact ⟨⟨[], rfl, by simp⟩, rfl, fun _ => rfl⟩
  apply henv.bind
  intro s₁ h₁
  apply (access_silent _ _).seq
  intro chroot
  exact .pure (h₁.trans ⟨rfl, fun _ => rfl⟩)

/-- The ids are read anew. -/
theorem parseUserGroup_silent (s : Service) : Silent (parseUserGroup s) fun s' => s'.dir = s.dir := by
  -- reading a file with an id writes no status
  have hread : ∀ path {resolve : Bytes → Sys (Option UInt32)},
      (∀ name, Silent (resolve name) fun _ => True) →
      Silent (parseIdFile path resolve) fun _ => True := by
    intro path resolve hresolve
    have hfile : Silent (readFileToBuf path nameBuf) fun _ => True := silent_of fun _ => rfl
    apply hfile.seq
    intro data
    rcases data with _ | _ | ⟨c, rest⟩
    · exact .pure trivial
    · exact .pure trivial
    · dsimp only
      cases parseNumericOrName (c :: rest) with
      | some id => exact .pure trivial
      | none => exact hresolve _
  -- nor do the two lookups by name
  have hlookup : ∀ name, Silent (resolveUid name) fun _ => True := by
    intro name
    unfold resolveUid
    cases cleanName name with
    | none => exact .pure trivial
    | some clean => exact silent_of fun _ => rfl
  have hlookup' : ∀ name, Silent (resolveGid name) fun _ => True := by
    intro name
    unfold resolveGid
    cases cleanName name with
    | none => exact .pure trivial
    | some clean => exact silent_of fun _ => rfl
  apply (hread _ hlookup).seq
  intro uid
  apply (hread _ hlookup').seq
  intro gid
  apply StateM.Keeps.pure
  cases uid <;> cases gid <;> rfl

/-! ### Streams -/

theorem openLog_keepsStatus (err : Bool) (s : Service) : KeepsStatus s (openLog err s) := by
  apply (closeFd_silent _).seq
  intro _
  apply (emit_silent rfl).seq
  intro _
  apply (openFile_silent _ _).seq
  intro fd
  have hseek : Silent (seekEnd fd) fun _ => True :=
    call_silent.seq fun _ => (emit_silent rfl).seq fun _ => .pure trivial
  exact .iteBind (fun _ => hseek) (fun _ => .pure trivial) fun logLen _ =>
    .pure (sameReport_setStream s err _)

theorem rotateLog_keepsStatus (err : Bool) (s : Service) : KeepsStatus s (rotateLog err s) := by
  have hclock : Silent wallNow fun _ => True := silent_of fun _ => rfl
  apply (closeFd_silent _).seq
  intro _
  apply hclock.seq
  intro ts
  apply (emit_silent rfl).seq
  intro _
  exact (openLog_keepsStatus err _).weaken fun _ h => (sameReport_setStream s err _).trans h

theorem appendLog_keepsStatus (err : Bool) (data : Bytes) (s : Service) :
    KeepsStatus s (appendLog err data s) := by
  have hwrite : Silent (writeAll (s.stream err).logFd data) fun _ => True :=
    call_silent.seq fun _ => (emit_silent rfl).seq fun _ => .pure trivial
  apply hwrite.seq
  intro written
  exact .ite (fun _ => .pure (sameReport_setStream s err _)) fun _ =>
    (closeFd_silent _).seq fun _ => .pure (sameReport_setStream s err _)

theorem writeLog_keepsStatus (err : Bool) (data : Bytes) (s : Service) :
    KeepsStatus s (writeLog err data s) := by
  refine .iteBind (fun _ => openLog_keepsStatus err s) (fun _ => .pure (.refl s)) fun s₁ h₁ => ?_
  refine .ite (fun _ => .pure h₁) fun _ => ?_
  refine .iteBind (fun _ => rotateLog_keepsStatus err s₁) (fun _ => .pure (.refl s₁)) fun s₂ h₂ => ?_
  refine .ite (fun _ => .pure (h₁.trans h₂)) fun _ => ?_
  exact (appendLog_keepsStatus err data s₂).weaken fun _ h => h₁.trans (h₂.trans h)

theorem drainStream_keepsStatus (err : Bool) (reads : List ReadResult) (s : Service) :
    KeepsStatus s (drainStream err reads s) := by
  induction reads generalizing s with
  | nil => exact .pure (.refl s)
  | cons r reads ih =>
    unfold drainStream
    refine .ite (fun _ => .pure (.refl s)) fun _ => ?_
    -- closing a read end is not part of a report
    have hclose : KeepsStatus s (do
        closeFd (s.stream err).readFd
        return s.setStream err { s.stream err with readFd := -1 }) :=
      (closeFd_silent _).seq fun _ => .pure (sameReport_setStream s err _)
    cases r with
    | eof | error => exact hclose
    | eintr => exact ih s
    | eagain => exact .pure (.refl s)
    | data b =>
      cases b with
      | nil => exact hclose
      | cons c rest =>
        refine StateM.Keeps.iteBind (Q := SameReport s) (fun _ => .pure (.refl s))
          (fun _ => writeLog_keepsStatus err _ s) fun s₁ h₁ => ?_
        exact .ite (fun _ => .pure h₁) fun _ => (ih s₁).weaken fun _ h => h₁.trans h

theorem closeServiceFds_keepsStatus (s : Service) : KeepsStatus s (closeServiceFds s) := by
  apply (closeFd_silent _).seq
  intro _
  apply (closeFd_silent _).seq
  intro _
  apply (closeFd_silent _).seq
  intro _
  apply (closeFd_silent _).seq
  intro _
  exact .pure ⟨rfl, fun _ => rfl⟩

theorem closeReadEnds_keepsStatus (s : Service) : KeepsStatus s (closeReadEnds s) := by
  apply (closeFd_silent _).seq
  intro _
  apply (closeFd_silent _).seq
  intro _
  exact .pure ⟨rfl, fun _ => rfl⟩

theorem attachStreams_keepsStatus (s : Service) (fds : StartFds) :
    KeepsStatus s (attachStreams s fds) := by
  unfold attachStreams
  refine .ite (fun _ => .pure ⟨rfl, fun _ => rfl⟩) fun _ => ?_
  have hopened := openLog_keepsStatus false { s with
    out := { s.out with readFd := fds.out0 }, err := { s.err with readFd := fds.err0 } }
  apply StateM.Keeps.bind hopened
  intro s₁ h₁
  have hsame : SameReport s s₁ := ⟨h₁.dir, h₁.text⟩
  exact (openLog_keepsStatus true s₁).weaken fun _ h => hsame.trans h

/-! ## Starting -/

/-- `log_pid` and `log_state` are not shown. -/
theorem startLogger_silent (slot : Nat) (s : Service) :
    Silent (startLogger slot s) fun r => SameReport s r.1 := by
  -- `has_log` appears in the report through the logger's fields only
  have hnoLog : SameReport s { s with hasLog := false } := ⟨rfl, fun _ => rfl⟩
  refine .ite (fun _ => .pure (.refl s)) fun _ => ?_
  apply (access_silent _ _).seq
  intro ok
  refine .ite (fun _ => .pure hnoLog) fun _ => ?_
  apply newPipe_silent.seq
  intro pipe
  rcases pipe with _ | ⟨pipeRead, pipeWrite⟩
  · exact .pure hnoLog
  · apply (fork_silent _).seq
    intro pid
    apply StateM.Keeps.ite
    · intro _
      apply monoNow_silent.seq
      intro now
      exact (closeFd_silent _).seq fun _ => .pure ⟨rfl, fun _ => rfl⟩
    -- after a failed `fork` the record has no logger again
    · intro _
      exact (closeFd_silent _).seq fun _ => (closeFd_silent _).seq fun _ => .pure hnoLog

theorem openPipes_silent : Silent openPipes fun _ => True := by
  apply newPipe_silent.seq
  intro out
  rcases out with _ | ⟨outRead, outWrite⟩
  · exact .pure trivial
  · apply newPipe_silent.seq
    intro err
    rcases err with _ | ⟨errRead, errWrite⟩
    · exact (closeFd_silent _).seq fun _ => (closeFd_silent _).seq fun _ => .pure trivial
    · exact .pure trivial

/-- FAILED is written down. -/
theorem startFailed_reports (s : Service) : Reports s.dir (startFailed s) :=
  .after monoNow_silent fun now _ =>
    reports_status { s with state := .failed, restartAt := i64 (now + backoffShort) }

/-- A start that succeeds. -/
theorem mainStarted_reports (slot : Nat) (s : Service) (fds : StartFds) (pid : Int) :
    Reports s.dir (mainStarted slot s fds pid) := by
  apply Reports.after monoNow_silent
  intro now _
  apply Reports.after (emit_silent rfl)
  intro _ _
  apply Reports.after (attachStreams_keepsStatus (s.started pid now) fds)
  intro s₁ h₁
  have hdir : s₁.dir = s.dir := h₁.dir
  rw [← hdir]
  exact reports_status s₁

/-- A start from the fork on. -/
theorem forkMain_reports (slot : Nat) (s : Service) (fds : StartFds) :
    Reports s.dir (forkMain slot s fds) := by
  -- before the last write nothing is reported
  have hclose : Silent (closeChildEnds s fds) fun _ => True :=
    .ite (fun _ => closeFd_silent _) fun _ => (closeFd_silent _).seq fun _ => closeFd_silent _
  have hfailed : Reports s.dir (startFailed { s with pid := -1 }) :=
    startFailed_reports { s with pid := -1 }
  have hnone : Reports s.dir (mainForkFailed s fds) := by
    unfold mainForkFailed
    split
    · apply Reports.after (closeFd_silent _)
      intro _ _
      exact .after (closeFd_silent _) fun _ _ => hfailed
    · exact hfailed
  apply Reports.after (fork_silent _)
  intro pid _
  apply Reports.after hclose
  intro _ _
  -- both ends of the function write the status
  split
  · exact mainStarted_reports slot s fds pid
  · exact hnone

/-- However a start ends, the file is written. -/
theorem startMain_reports (slot : Nat) (s : Service) (out0 : Int) :
    Reports s.dir (startMain slot s out0) := by
  apply Reports.ite
  · exact fun _ => forkMain_reports slot s _
  · intro _
    apply Reports.after openPipes_silent
    intro pipes _
    cases pipes with
    | none => exact startFailed_reports s
    | some fds => exact forkMain_reports slot s fds

/-- A start, successful or not. -/
theorem startService_honest (slot : Nat) (s : Service) : Honest s (startService slot s) := by
  unfold startService
  split
  · exact KeepsStatus.honest (.pure (.refl s))
  · apply Reports.honest
    apply Reports.after (prepareServiceEnv_keepsStatus s)
    intro s₁ h₁
    apply Reports.after (closeReadEnds_keepsStatus s₁)
    intro s₂ h₂
    apply Reports.after (startLogger_silent slot s₂)
    intro r h₃
    -- none of the steps moves the record to another directory
    have hdir : r.1.dir = s.dir := h₃.dir.trans (h₂.dir.trans h₁.dir)
    rw [← hdir]
    exact startMain_reports slot r.1 r.2

/-! ## Exits, stopping and removal -/

/-- The accounting of an exit leaves the directory alone. -/
theorem accountExit_dir (s : Service) (t : Int) : (accountExit s t).dir = s.dir := by
  unfold accountExit
  split
  · rfl
  · dsimp only
    split <;> rfl

theorem signalLogger_keepsStatus (s : Service) : KeepsStatus s (signalLogger s) :=
  (emit_silent rfl).seq fun _ => .pure ⟨rfl, fun _ => rfl⟩

/-- `run_finish` sees the record, but the exit is written down after it. -/
theorem reapMain_reports (slot : Nat) (status t : Int) (s : Service) :
    Reports s.dir (reapMain slot status t s) := by
  -- `finish` has no status of its own
  have hfinish : Silent (runFinish (s.exited status)) fun _ => True := by
    apply (access_silent _ _).seq
    intro ok
    refine .ite (fun _ => .pure trivial) fun _ => ?_
    exact (prepareServiceEnv_keepsStatus _).bind fun _ _ =>
      (fork_silent _).seq fun _ => .pure trivial
  have hlogger : KeepsStatus (s.exited status) (stopExitedLogger (s.exited status)) :=
    .ite (fun _ => signalLogger_keepsStatus _) fun _ => .pure (.refl _)
  apply Reports.after (emit_silent rfl)
  intro _ _
  apply Reports.after hfinish
  intro _ _
  apply Reports.after hlogger
  intro s₁ h₁
  -- the record that is written belongs to the same directory
  have hdir : (accountExit s₁ t).dir = s.dir := (accountExit_dir s₁ t).trans h₁.dir
  rw [← hdir]
  exact reports_status _

theorem reapLogger_keepsStatus (s : Service) : KeepsStatus s (reapLogger s) :=
  .pure ⟨rfl, fun _ => rfl⟩

/-- A service that is told to stop. -/
theorem signalStopStatus_reports (s : Service) : Reports s.dir (signalStopStatus s) :=
  .after (Q := fun s' => s'.dir = s.dir) ((emit_silent rfl).seq fun _ => .pure rfl)
    fun s' hdir => hdir ▸ reports_status s'

/-- Without `write_status_file`, STOPPING must have been there before. -/
theorem signalStop_keepsStatus (h : s.state = .stopping) : KeepsStatus s (signalStop s) := by
  have hsame : SameReport s { s with stopping := true, state := .stopping } := by
    refine ⟨rfl, fun now => ?_⟩
    rw [← h]
    rfl
  exact (emit_silent rfl).seq fun _ => .pure hsame

/-- A record that is given up is written once more. -/
theorem releaseMissing_honest (slot : Nat) (s : Service) : Honest s (releaseMissing slot s) := by
  -- either the status DOWN is written, or the record stays as it is
  have hlast : ∀ s : Service, Honest s
      (if s.pid ≤ 0 && s.logPid ≤ 0 then releaseSlot slot s else return s) := by
    intro s
    split
    · apply Reports.honest
      apply Reports.after (closeServiceFds_keepsStatus s)
      intro s₁ h₁
      have hwrite : Reports s₁.dir (do
          writeStatusFile { s₁ with active := false, state := .down }
          emit (.removed slot)
          return { s₁ with active := false, state := .down }) :=
        Reports.write (s := { s₁ with active := false, state := .down })
          ((emit_silent rfl).seq fun _ => .pure (.refl _))
      rw [← h₁.dir]
      exact hwrite
    · exact KeepsStatus.honest (.pure (.refl s))
  unfold releaseMissing
  split
  · exact .after (signalLogger_keepsStatus s) fun s' _ => hlast s'
  · exact hlast s

/-! ## Scanning -/

/-- A new record. -/
theorem buildService_reports (name : Bytes) (dir : CStrBuf) :
    Reports dir.bytes (buildService name dir) := by
  -- one step for each file that is read, and the status at the end
  have hread : Silent (readFileToBuf (joinPath dir.bytes "/depends") depFileBuf) fun _ => True :=
    silent_of fun _ => rfl
  apply Reports.after (access_silent _ _)
  intro down _
  apply Reports.after (access_silent _ _)
  intro once _
  apply Reports.after hread
  intro data _
  apply Reports.after (access_silent _ _)
  intro log _
  apply Reports.after (parseUserGroup_silent _)
  intro s₁ h₁
  apply Reports.after (prepareServiceEnv_keepsStatus s₁)
  intro s₂ h₂
  -- the record is for this directory, whatever the files say
  have hdir : s₂.dir = dir.bytes := by
    rw [h₂.dir, h₁]
    cases down <;> cases once <;> cases data <;> cases log <;> rfl
  rw [← hdir]
  exact reports_status s₂

/-- A new record, put into its slot. -/
theorem newService_reports (slot : Nat) (name : Bytes) (dir : CStrBuf) :
    Reports dir.bytes (newService slot name dir) := by
  have hdone : ∀ s : Service, KeepsStatus s (do emit (.added slot); return s) := fun s =>
    (emit_silent rfl).seq fun _ => .pure (.refl s)
  intro k _
  obtain ⟨hemits, hdir, hshows⟩ := buildService_reports name dir k trivial
  obtain ⟨hemits', hdir', hshows'⟩ := (hdone _).honest _ hshows
  rw [statusPath, hdir] at hemits'
  exact ⟨IsTrans.trans _ _ _ hemits hemits', hdir'.trans hdir, hshows'⟩

/-- The uid and the gid in the status file. -/
def Service.shownIds (s : Service) : Option (UInt32 × UInt32) :=
  if s.hasUid then some (s.uid, s.gid) else none

/-- The ids that the `user` and `group` files in `dir` give. -/
def readIds (dir : Bytes) (k : Kernel) : Option (UInt32 × UInt32) :=
  (parseUserGroup { Service.empty with dir } k).1.shownIds

/-- `parse_user_group` looks at the directory of the record only. -/
theorem parseUserGroup_ids (s : Service) (k : Kernel) :
    ∃ uid gid hasUid, (parseUserGroup s k).1 = { s with uid, gid, hasUid } ∧
      (parseUserGroup s k).1.shownIds = readIds s.dir k := by
  unfold readIds parseUserGroup
  simp only [Sys.bind_apply, Sys.pure_apply]
  generalize (parseIdFile (joinPath s.dir "/user") resolveUid k).2 = k'
  -- user and group are read independently of each other
  cases (parseIdFile (joinPath s.dir "/user") resolveUid k).1 with
  | none =>
    dsimp only
    cases (parseIdFile (joinPath s.dir "/group") resolveGid k').1 with
    | none => exact ⟨_, _, _, rfl, rfl⟩
    | some gid => exact ⟨_, _, _, rfl, rfl⟩
  | some uid =>
    dsimp only
    cases (parseIdFile (joinPath s.dir "/group") resolveGid k').1 with
    | none => exact ⟨_, _, _, rfl, rfl⟩
    | some gid => exact ⟨_, _, _, rfl, rfl⟩

/-- Other ids that are shown alike. -/
theorem sameReport_ids {uid gid : UInt32} {hasUid : Bool}
    (h : { s with uid, gid, hasUid }.shownIds = s.shownIds) :
    SameReport s { s with uid, gid, hasUid } := by
  refine ⟨rfl, fun now => ?_⟩
  -- ids are part of the text only if there is a user
  cases hhas : s.hasUid with
  | false =>
    cases hasUid with
    | false => simp [statusText, hhas, Service.uptimeSeconds]
    | true => simp [Service.shownIds, hhas] at h
  | true =>
    cases hasUid with
    | false => simp [Service.shownIds, hhas] at h
    | true =>
      obtain ⟨rfl, rfl⟩ : uid = s.uid ∧ gid = s.gid := by simpa [Service.shownIds, hhas] using h
      simp [statusText, hhas, Service.uptimeSeconds]

/-- The scan does not write the file, so the ids must be those in the record. -/
theorem foundService_honest {slot : Nat} {k : Kernel} (hshows : Shows s k)
    (h : readIds s.dir (emit (.found slot) k).2 = s.shownIds) :
    Emits (Event.ReportsOnly (statusPath s)) k (foundService slot s k).2 ∧
      (foundService slot s k).1.dir = s.dir ∧
      Shows (foundService slot s k).1 (foundService slot s k).2 := by
  have hfound : Silent (foundService slot s) fun _ => True := by
    apply (emit_silent rfl).seq
    intro _
    exact (parseUserGroup_silent _).bind fun s' _ =>
      (prepareServiceEnv_keepsStatus s').weaken fun _ _ => trivial
  -- the ids are read again: the report is the same if they are
  have hsame : SameReport s (foundService slot s k).1 := by
    obtain ⟨uid, gid, hasUid, hrecord, hids⟩ :=
      parseUserGroup_ids { s with present := true, stopping := false } (emit (.found slot) k).2
    have hagree : { s with uid, gid, hasUid }.shownIds = s.shownIds := by
      rw [← h, ← hids, hrecord]
      rfl
    have hread : SameReport s { s with present := true, stopping := false, uid, gid, hasUid } :=
      ⟨rfl, (sameReport_ids hagree).text⟩
    show SameReport s (prepareServiceEnv (parseUserGroup _ (emit (.found slot) k).2).1 _).1
    rw [hrecord]
    exact hread.trans ((prepareServiceEnv_keepsStatus _).post _)
  have hemits := hfound.rel k
  -- no status is written, so the last one still stands
  refine ⟨hemits.mono fun _ he => Event.reportsOnly_of he _, hsame.dir, ?_⟩
  exact hshows.same hsame (hemits.mono fun _ he => Event.reportOn_of he _)

/-! ## Commands -/

theorem stopSignals_keepsStatus (s : Service) : KeepsStatus s (stopSignals s) := by
  have hlogger : KeepsStatus s (if s.logPid > 0 then signalLogger s else pure s) :=
    .ite (fun _ => signalLogger_keepsStatus s) fun _ => .pure (.refl s)
  exact .ite (fun _ => (emit_silent rfl).seq fun _ => hlogger) fun _ => hlogger

/-- The fields that `start` sets are not shown, and the other commands write the file last. -/
theorem acceptCmd_honest (cmd : SvcCmd) (slot : Nat) (s : Service) :
    Honest s (acceptCmd cmd slot s) := by
  have htouch : ∀ path, Silent (touchFile path) fun _ => True := fun path =>
    (openFile_silent path .trunc).seq fun fd => closeFd_silent fd
  have hwrite : ∀ s' : Service, s'.dir = s.dir → Reports s.dir (do writeStatusFile s'; return s') :=
    fun s' hdir => hdir ▸ reports_status s'
  have hsignals : ∀ s' : Service, s'.dir = s.dir →
      Reports s.dir (do let s ← stopSignals s'; writeStatusFile s; return s) := fun s' hdir =>
    .after (stopSignals_keepsStatus s') fun s₁ h₁ => hwrite s₁ (h₁.dir.trans hdir)
  cases cmd with
  | start =>
    -- `start` changes nothing that is reported
    exact KeepsStatus.honest ((emit_silent rfl).seq fun _ => .pure ⟨rfl, fun _ => rfl⟩)
  | stop =>
    apply Reports.honest
    apply Reports.after (emit_silent rfl)
    intro _ _
    exact hsignals { s with stopping := true, state := .stopping } rfl
  | restart =>
    apply Reports.honest
    apply Reports.after (emit_silent rfl)
    intro _ _
    exact hsignals { s with stopping := true, state := .stopping, manualStart := true } rfl
  | down =>
    apply Reports.honest
    apply Reports.after (emit_silent rfl)
    intro _ _
    apply Reports.after (htouch _)
    intro _ _
    split
    · exact hsignals { s with autoStart := false, stopping := true, state := .stopping } rfl
    · exact hwrite { s with autoStart := false } rfl
  | up =>
    apply Reports.honest
    apply Reports.after (emit_silent rfl)
    intro _ _
    apply Reports.after (emit_silent rfl)
    intro _ _
    apply Reports.after monoNow_silent
    intro now _
    exact hwrite { s with autoStart := true, restartAt := now, stopping := false } rfl
  | once =>
    apply Reports.honest
    apply Reports.after (emit_silent rfl)
    intro _ _
    apply Reports.after (htouch _)
    intro _ _
    exact hwrite { s with once := true } rfl

end

end SvcRs
