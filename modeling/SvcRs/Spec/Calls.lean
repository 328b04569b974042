import SvcRs.Spec.Run

/-!
# Operations as sequences of system calls

Whatever the supervisor does to the world outside its table, it does by the calls of
`Native/Kernel.lean`. `SysCall` lists what one call can do, together with what it checks; every
operation is a sequence of calls. So what no single call can break holds in every run.

## Key results

- `exec_calls`: every operation is a sequence of system calls
- `Performs.calls`: so is every run
-/

namespace SvcRs

open Relation (ReflTransGen)
open StateM (Keeps)

/-! ## Calls -/

/-- An entry of the trace that goes with nothing else. -/
def Event.isNote : Event → Bool
  | .fork .. | .reaped .. | .piped .. | .opened .. | .closed _ | .sigRead _ => false
  | _ => true

/-- The effect of one system call, or of time that passes while the supervisor waits. -/
inductive SysCall (k : Kernel) : Kernel → Prop
  | answer : SysCall k { k with calls := k.calls + 1 }
  | tick (seconds : Nat) : SysCall k (k.advance seconds)
  | note (e : Event) (he : e.isNote = true) : SysCall k { k with trace := e :: k.trace }
  -- `fork` returns a pid that no child has
  | fork (role : Role) (pid : Int) (hpid : 1 < pid ∧ ∀ c ∈ k.children, c.pid ≠ pid) :
    SysCall k { k with
      children := ⟨pid, role⟩ :: k.children
      trace := .fork role pid :: k.trace }
  | reap (pid status : Int) (hpid : ∃ c ∈ k.children, c.pid = pid) :
    SysCall k { k with
      children := k.children.filter fun c => c.pid ≠ pid
      trace := .reaped pid status :: k.trace }
  | signals (arrivals : Bytes) : SysCall k { k with sigPipe := k.sigPipe ++ arrivals }
  | readSignals (chunk left : Bytes) (hpipe : k.sigPipe = chunk ++ left) :
    SysCall k { k with sigPipe := left, trace := .sigRead chunk :: k.trace }
  -- a new descriptor is one that is not in use
  | openFile (path : Bytes) (mode : OpenMode) (fd : Int) (hfd : 0 ≤ fd ∧ fd ∉ k.fds) :
    SysCall k { k with
      fds := fd :: k.fds, inheritable := fd :: k.inheritable
      trace := .opened path mode fd :: k.trace }
  | newPipe (r w : Int) (hfds : 0 ≤ r ∧ 0 ≤ w ∧ r ≠ w ∧ r ∉ k.fds ∧ w ∉ k.fds) :
    SysCall k { k with fds := r :: w :: k.fds, trace := .piped r w :: k.trace }
  | closeFd (fd : Int) (hfd : 0 ≤ fd) :
    SysCall k { k with
      fds := k.fds.erase fd, inheritable := k.inheritable.erase fd
      trace := .closed fd :: k.trace }

/-- Any number of calls. -/
abbrev Calls : Kernel → Kernel → Prop := ReflTransGen SysCall

instance : Std.Refl Calls := ⟨fun _ => .refl⟩

instance : IsTrans Kernel Calls := ⟨fun _ _ _ => ReflTransGen.trans⟩

/-- Every execution of `m` is a sequence of calls. -/
abbrev ByCalls {α : Type} (m : Sys α) : Prop := Keeps Calls m fun _ => True

section

variable {α β : Type}

/-- From each kernel. -/
theorem ByCalls.of {m : Sys α} (h : ∀ k, Calls k (m k).2) : ByCalls m := fun k _ => ⟨h k, trivial⟩

theorem call_byCalls : ByCalls call := .of fun _ => .single .answer

/-- A call whose answer is returned. -/
theorem answer_byCalls (f : Answer → α) : ByCalls (do return f (← call)) :=
  call_byCalls.seq fun _ => .pure trivial

/-- A note is no call. -/
theorem emit_byCalls {e : Event} (he : e.isNote = true) : ByCalls (emit e) :=
  .of fun _ => .single (.note e he)

theorem monoNow_byCalls : ByCalls monoNow :=
  call_byCalls.seq fun a => ByCalls.of fun _ => .single (.tick a.tick)

theorem fork_byCalls (role : Role) : ByCalls (fork role) := by
  apply call_byCalls.seq
  intro a
  apply ByCalls.of
  intro k
  split
  · next hpid => exact .single (.fork role a.fork hpid)
  · exact .refl

theorem waitpid_byCalls (pid status : Int) : ByCalls (waitpid pid status) := by
  apply ByCalls.of
  intro k
  unfold waitpid
  split
  · next hpid => exact .single (.reap pid status hpid)
  · exact .refl

theorem raiseHup_byCalls : ByCalls raiseHup :=
  (emit_byCalls rfl).seq fun _ => ByCalls.of fun _ => .single (.signals [1])

theorem openFile_byCalls (path : Bytes) (mode : OpenMode) : ByCalls (openFile path mode) := by
  apply call_byCalls.seq
  intro a
  apply ByCalls.of
  intro k
  split
  · next hfd => exact .single (.openFile path mode a.fd hfd)
  · exact .refl

theorem newPipe_byCalls : ByCalls newPipe := by
  apply call_byCalls.seq
  intro a
  apply ByCalls.of
  intro k
  split
  · next r w _ =>
    split
    · next hfds => exact .single (.newPipe r w hfds)
    · exact .refl
  · exact .refl

theorem closeFd_byCalls (fd : Int) : ByCalls (closeFd fd) := by
  apply ByCalls.of
  intro k
  unfold closeFd
  split
  · next hfd => exact .single (.closeFd fd hfd)
  · exact .refl

theorem seekEnd_byCalls (fd : Int) : ByCalls (seekEnd fd) :=
  call_byCalls.seq fun _ => (emit_byCalls rfl).seq fun _ => .pure trivial

theorem writeAll_byCalls (fd : Int) (data : Bytes) : ByCalls (writeAll fd data) :=
  call_byCalls.seq fun _ => (emit_byCalls rfl).seq fun _ => .pure trivial

theorem readSigPipe_byCalls (n : Nat) : ByCalls (readSigPipe n) :=
  .of fun _ => .single (.readSignals _ _ (List.take_append_drop _ _).symm)

/-! ## Status and environment -/

theorem writeStatusFile_byCalls (s : Service) : ByCalls (writeStatusFile s) := by
  apply (openFile_byCalls _ _).seq
  intro fd
  apply Keeps.ite
  · exact fun _ => emit_byCalls rfl
  · exact fun _ => monoNow_byCalls.seq fun _ => (writeAll_byCalls _ _).seq fun _ =>
      (closeFd_byCalls fd).seq fun _ => emit_byCalls rfl

/-- The last two lines of most functions on a record. -/
theorem writeStatus_byCalls (s : Service) : ByCalls (do writeStatusFile s; return s) :=
  (writeStatusFile_byCalls s).seq fun _ => .pure trivial

theorem parseIdFile_byCalls (path : Bytes) {resolve : Bytes → Sys (Option UInt32)}
    (h : ∀ b, ByCalls (resolve b)) : ByCalls (parseIdFile path resolve) := by
  apply (answer_byCalls _).seq
  intro data
  match data with
  | none | some [] => exact .pure trivial
  | some (c :: rest) =>
    dsimp only
    split
    · exact .pure trivial
    · exact h _

theorem parseUserGroup_byCalls (s : Service) : ByCalls (parseUserGroup s) := by
  have huid : ∀ b, ByCalls (resolveUid b) := by
    intro b
    unfold resolveUid
    -- a name that is empty or too long is not looked up at all
    split
    · exact .pure trivial
    · exact answer_byCalls _
  have hgid : ∀ b, ByCalls (resolveGid b) := by
    intro b
    unfold resolveGid
    split
    · exact .pure trivial
    · exact answer_byCalls _
  exact (parseIdFile_byCalls _ huid).seq fun _ => (parseIdFile_byCalls _ hgid).seq fun _ => .pure trivial

theorem prepareServiceEnv_byCalls (s : Service) : ByCalls (prepareServiceEnv s) := by
  have henv : ByCalls (readEnv s) := by
    apply (answer_byCalls _).seq
    intro data
    match data with
    | none | some [] | some (_ :: _) => exact .pure trivial
  exact henv.seq fun _ => (answer_byCalls _).seq fun _ => .pure trivial

/-! ## Logs -/

theorem openLog_byCalls (err : Bool) (s : Service) : ByCalls (openLog err s) := by
  apply (closeFd_byCalls _).seq
  intro _
  apply (emit_byCalls rfl).seq
  intro _
  apply (openFile_byCalls _ _).seq
  intro fd
  apply Keeps.iteBind (Q := fun _ => True)
  · exact fun _ => seekEnd_byCalls fd
  · exact fun _ => .pure trivial
  · exact fun _ _ => .pure trivial

theorem rotateLog_byCalls (err : Bool) (s : Service) : ByCalls (rotateLog err s) :=
  (closeFd_byCalls _).seq fun _ => (answer_byCalls _).seq fun _ => (emit_byCalls rfl).seq fun _ =>
    openLog_byCalls err _

theorem appendLog_byCalls (err : Bool) (data : Bytes) (s : Service) :
    ByCalls (appendLog err data s) := by
  apply (writeAll_byCalls _ _).seq
  intro ok
  apply Keeps.ite
  · exact fun _ => .pure trivial
  · exact fun _ => (closeFd_byCalls _).seq fun _ => .pure trivial

theorem writeLog_byCalls (err : Bool) (data : Bytes) (s : Service) :
    ByCalls (writeLog err data s) := by
  apply Keeps.iteBind (Q := fun _ => True)
  · exact fun _ => openLog_byCalls err s
  · exact fun _ => .pure trivial
  -- open, rotate, write: after each the log may be closed
  intro s₁ _
  apply Keeps.ite
  · exact fun _ => .pure trivial
  intro _
  apply Keeps.iteBind (Q := fun _ => True)
  · exact fun _ => rotateLog_byCalls err s₁
  · exact fun _ => .pure trivial
  intro s₂ _
  apply Keeps.ite
  · exact fun _ => .pure trivial
  · exact fun _ => appendLog_byCalls err data s₂

theorem drainStream_byCalls (err : Bool) (reads : List ReadResult) (s : Service) :
    ByCalls (drainStream err reads s) := by
  -- end of file and errors close the read end alike
  have hclose : ∀ s : Service, ByCalls (do
      closeFd (s.stream err).readFd
      return s.setStream err { s.stream err with readFd := -1 }) :=
    fun s => (closeFd_byCalls _).seq fun _ => .pure trivial
  -- by induction on the results of `read`
  induction reads generalizing s with
  | nil => exact .pure trivial
  | cons r reads ih =>
    unfold drainStream
    apply Keeps.ite
    · exact fun _ => .pure trivial
    intro _
    cases r with
    | eof | error => exact hclose s
    | eintr => exact ih s
    | eagain => exact .pure trivial
    | data b =>
      cases b with
      | nil => exact hclose s
      | cons c rest =>
        apply Keeps.iteBind (Q := fun _ => True)
        · exact fun _ => .pure trivial
        · exact fun _ => writeLog_byCalls err _ s
        · exact fun s₁ _ => .ite (fun _ => .pure trivial) fun _ => ih s₁

/-! ## Starting -/

theorem closeServiceFds_byCalls (s : Service) : ByCalls (closeServiceFds s) :=
  (closeFd_byCalls _).seq fun _ => (closeFd_byCalls _).seq fun _ => (closeFd_byCalls _).seq fun _ =>
    (closeFd_byCalls _).seq fun _ => .pure trivial

theorem closeReadEnds_byCalls (s : Service) : ByCalls (closeReadEnds s) :=
  (closeFd_byCalls _).seq fun _ => (closeFd_byCalls _).seq fun _ => .pure trivial

theorem startLogger_byCalls (slot : Nat) (s : Service) : ByCalls (startLogger slot s) := by
  -- one answer decides each of the early returns
  apply Keeps.ite
  · exact fun _ => .pure trivial
  intro _
  apply (answer_byCalls _).seq
  intro ok
  apply Keeps.ite
  · exact fun _ => .pure trivial
  intro _
  apply newPipe_byCalls.seq
  intro ends
  match ends with
  | none => exact .pure trivial
  | some (pipeRead, pipeWrite) =>
    apply (fork_byCalls _).seq
    intro pid
    -- the parent closes the read end, or both if `fork` failed
    apply Keeps.ite
    · exact fun _ => monoNow_byCalls.seq fun _ => (closeFd_byCalls _).seq fun _ => .pure trivial
    · exact fun _ => (closeFd_byCalls _).seq fun _ => (closeFd_byCalls _).seq fun _ => .pure trivial

theorem openPipes_byCalls : ByCalls openPipes := by
  apply newPipe_byCalls.seq
  intro out
  match out with
  | none => exact .pure trivial
  | some (outRead, outWrite) =>
    apply newPipe_byCalls.seq
    intro err
    match err with
    | none => exact (closeFd_byCalls _).seq fun _ => (closeFd_byCalls _).seq fun _ => .pure trivial
    | some (errRead, errWrite) => exact .pure trivial

theorem startFailed_byCalls (s : Service) : ByCalls (startFailed s) :=
  monoNow_byCalls.seq fun _ => writeStatus_byCalls _

theorem closeChildEnds_byCalls (s : Service) (sf : StartFds) : ByCalls (closeChildEnds s sf) :=
  .ite (fun _ => closeFd_byCalls _) fun _ => (closeFd_byCalls _).seq fun _ => closeFd_byCalls _

theorem mainStarted_byCalls (slot : Nat) (s : Service) (sf : StartFds) (pid : Int) :
    ByCalls (mainStarted slot s sf pid) := by
  have hattach : ∀ s, ByCalls (attachStreams s sf) := fun s => .ite (fun _ => .pure trivial)
    fun _ => (openLog_byCalls false _).seq fun _ => openLog_byCalls true _
  exact monoNow_byCalls.seq fun _ => (emit_byCalls rfl).seq fun _ => (hattach _).seq fun s =>
    writeStatus_byCalls s

theorem mainForkFailed_byCalls (s : Service) (sf : StartFds) : ByCalls (mainForkFailed s sf) :=
  .ite (fun _ => (closeFd_byCalls _).seq fun _ => (closeFd_byCalls _).seq fun _ =>
    startFailed_byCalls _) fun _ => startFailed_byCalls _

theorem forkMain_byCalls (slot : Nat) (s : Service) (sf : StartFds) :
    ByCalls (forkMain slot s sf) :=
  (fork_byCalls _).seq fun pid => (closeChildEnds_byCalls s sf).seq fun _ =>
    .ite (fun _ => mainStarted_byCalls slot s sf pid) fun _ => mainForkFailed_byCalls s sf

theorem startMain_byCalls (slot : Nat) (s : Service) (out0 : Int) :
    ByCalls (startMain slot s out0) := by
  apply Keeps.ite
  · exact fun _ => forkMain_byCalls slot s _
  intro _
  apply openPipes_byCalls.seq
  intro ends
  match ends with
  | none => exact startFailed_byCalls s
  | some sf => exact forkMain_byCalls slot s sf

theorem startService_byCalls (slot : Nat) (s : Service) : ByCalls (startService slot s) := by
  apply Keeps.ite
  · exact fun _ => .pure trivial
  · exact fun _ => (prepareServiceEnv_byCalls s).seq fun s₁ => (closeReadEnds_byCalls s₁).seq
      fun s₂ => (startLogger_byCalls slot s₂).seq fun r => startMain_byCalls slot r.1 r.2

/-! ## Exits, signals and commands -/

theorem signalLogger_byCalls (s : Service) : ByCalls (signalLogger s) :=
  (emit_byCalls rfl).seq fun _ => .pure trivial

theorem signalStop_byCalls (s : Service) : ByCalls (signalStop s) :=
  (emit_byCalls rfl).seq fun _ => .pure trivial

theorem signalStopStatus_byCalls (s : Service) : ByCalls (signalStopStatus s) :=
  (signalStop_byCalls s).seq fun s₁ => writeStatus_byCalls s₁

theorem reapMain_byCalls (slot : Nat) (status t : Int) (s : Service) :
    ByCalls (reapMain slot status t s) := by
  -- `finish` is forked if it is there
  have hfinish : ∀ s, ByCalls (runFinish s) := by
    intro s
    apply (answer_byCalls _).seq
    intro ok
    apply Keeps.ite
    · exact fun _ => .pure trivial
    · exact fun _ => (prepareServiceEnv_byCalls s).seq fun _ => (fork_byCalls _).seq fun _ =>
        .pure trivial
  have hlogger : ∀ s, ByCalls (stopExitedLogger s) :=
    fun s => .ite (fun _ => signalLogger_byCalls s) fun _ => .pure trivial
  exact (emit_byCalls rfl).seq fun _ => (hfinish _).seq fun _ => (hlogger _).seq fun _ =>
    writeStatus_byCalls _

theorem stopSignals_byCalls (s : Service) : ByCalls (stopSignals s) := by
  have hlogger : ByCalls (if s.logPid > 0 then signalLogger s else return s) :=
    .ite (fun _ => signalLogger_byCalls s) fun _ => .pure trivial
  apply Keeps.ite
  · exact fun _ => (emit_byCalls rfl).seq fun _ => hlogger
  · exact fun _ => hlogger

theorem touchFile_byCalls (path : Bytes) : ByCalls (touchFile path) :=
  (openFile_byCalls _ _).seq fun fd => closeFd_byCalls fd

theorem acceptCmd_byCalls (cmd : SvcCmd) (slot : Nat) (s : Service) :
    ByCalls (acceptCmd cmd slot s) := by
  have hstop : ∀ s, ByCalls (do let s ← stopSignals s; writeStatusFile s; return s) :=
    fun s => (stopSignals_byCalls s).seq fun s₁ => writeStatus_byCalls s₁
  apply (emit_byCalls rfl).seq
  intro _
  cases cmd with
  | start => exact .pure trivial
  -- `stop` and `restart` differ in the record only
  | stop | restart => exact hstop _
  | down =>
    apply (touchFile_byCalls _).seq
    intro _
    apply Keeps.ite
    · exact fun _ => hstop _
    · exact fun _ => writeStatus_byCalls _
  | up => exact (emit_byCalls rfl).seq fun _ => monoNow_byCalls.seq fun _ => writeStatus_byCalls _
  | once => exact (touchFile_byCalls _).seq fun _ => writeStatus_byCalls _

theorem runCheck_byCalls (s : Service) : ByCalls (runCheck s) := by
  apply (prepareServiceEnv_byCalls s).seq
  intro _
  apply (answer_byCalls _).seq
  intro ok
  apply Keeps.ite
  · exact fun _ => .pure trivial
  -- a check that is not there is not forked
  intro _
  apply (fork_byCalls _).seq
  intro pid
  apply Keeps.ite
  · exact fun _ => call_byCalls.seq fun _ => (waitpid_byCalls _ _).seq fun _ => .pure trivial
  · exact fun _ => .pure trivial

theorem drainSignalPipe_byCalls (reads : List Nat) : ByCalls (drainSignalPipe reads) := by
  induction reads with
  | nil => exact .pure trivial
  | cons n reads ih =>
    apply (readSigPipe_byCalls n).seq
    intro chunk
    apply Keeps.ite
    · exact fun _ => .pure trivial
    intro _
    cases chunk.find? isLoopSignal with
    | some sig => exact .pure trivial
    | none => exact ih

/-! ## Scanning -/

theorem newService_byCalls (slot : Nat) (name : Bytes) (dir : CStrBuf) :
    ByCalls (newService slot name dir) := by
  have hbuild : ByCalls (buildService name dir) :=
    (answer_byCalls _).seq fun _ => (answer_byCalls _).seq fun _ => (answer_byCalls _).seq fun _ =>
      (answer_byCalls _).seq fun _ => (parseUserGroup_byCalls _).seq fun _ =>
        (prepareServiceEnv_byCalls _).seq fun _ => writeStatus_byCalls _
  exact hbuild.seq fun _ => (emit_byCalls rfl).seq fun _ => .pure trivial

theorem foundService_byCalls (slot : Nat) (s : Service) : ByCalls (foundService slot s) :=
  (emit_byCalls rfl).seq fun _ => (parseUserGroup_byCalls _).seq fun s₁ =>
    prepareServiceEnv_byCalls s₁

theorem releaseMissing_byCalls (slot : Nat) (s : Service) : ByCalls (releaseMissing slot s) := by
  have hrelease : ∀ s, ByCalls (releaseSlot slot s) :=
    fun s => (closeServiceFds_byCalls s).seq fun _ => (writeStatusFile_byCalls _).seq fun _ =>
      (emit_byCalls rfl).seq fun _ => .pure trivial
  apply Keeps.iteBind (Q := fun _ => True)
  · exact fun _ => signalLogger_byCalls s
  · exact fun _ => .pure trivial
  · exact fun s₁ _ => .ite (fun _ => hrelease s₁) fun _ => .pure trivial

end

/-! ## The table -/

/-- What happens to the kernel when the table is worked on. -/
def TableCalls (w w' : World) : Prop := Calls w.k w'.k

instance : Std.Refl TableCalls := ⟨fun _ => .refl⟩

instance : IsTrans World TableCalls := ⟨fun _ _ _ => ReflTransGen.trans⟩

/-- The whole table is worked on by system calls. -/
abbrev SupByCalls {α : Type} (m : Sup α) : Prop := Keeps TableCalls m fun _ => True

section

variable {α : Type}

/-- System calls outside the table. -/
theorem ByCalls.lift {m : Sys α} (h : ByCalls m) : SupByCalls (liftSys m) :=
  fun w _ => ⟨h.rel w.k, trivial⟩

/-- A function on one record. -/
theorem onSlot_byCalls (i : Nat) {f : Service → Sys Service} (h : ∀ s, ByCalls (f s)) :
    SupByCalls (onSlot i f) :=
  fun w _ => ⟨(h (w.svc i)).rel w.k, trivial⟩

/-- A computation that begins by reading the table. -/
theorem SupByCalls.get {f : World → Sup α} (h : ∀ w, SupByCalls (f w)) :
    SupByCalls (MonadState.get >>= f) :=
  fun w _ => ⟨(h w).rel w, trivial⟩

/-- A function that is called under a condition on the table. -/
theorem SupByCalls.when {m : Sup Unit} {c : World → Prop} [∀ w, Decidable (c w)] (h : SupByCalls m) :
    SupByCalls (do let w ← MonadState.get; if c w then m) :=
  .get fun _ => .ite (fun _ => h) fun _ => .pure trivial

/-- A reaped child. -/
theorem reapChild_byCalls (pid status : Int) : SupByCalls (reapChild pid status) := by
  have hrecord : ∀ t, SupByCalls (reapRecord pid status t) := by
    intro t
    apply SupByCalls.get
    intro w
    -- a logger's record comes first, then a main process's
    cases w.loggerSlot pid with
    | some i => exact (onSlot_byCalls i fun _ => .pure trivial).seq fun _ => .pure trivial
    | none =>
      dsimp only
      cases w.mainSlot pid with
      | some i => exact (onSlot_byCalls i (reapMain_byCalls i status t)).seq fun _ => .pure trivial
      | none => exact .pure trivial
  apply (waitpid_byCalls pid status).lift.seq
  intro reaped
  apply Keeps.ite
  · exact fun _ => .pure trivial
  · exact fun _ => monoNow_byCalls.lift.seq fun t => (hrecord t).seq fun _ => .pure trivial

theorem stopTransitiveDeps_byCalls : SupByCalls stopTransitiveDeps := by
  apply stopTransitiveDeps_keeps
  refine fun i w _ => ⟨?_, trivial⟩
  cases stopDependent_cases i w with
  | inl h =>
    rw [h.2]
    exact (onSlot_byCalls i signalStopStatus_byCalls).rel w
  | inr h =>
    rw [h.2]
    exact Std.Refl.refl w

theorem scanEntry_byCalls (name : Bytes) : SupByCalls (scanEntry name) := by
  apply Keeps.ite
  · exact fun _ => .pure trivial
  intro _
  apply SupByCalls.get
  intro w
  apply (answer_byCalls _).lift.seq
  intro ok
  apply Keeps.ite
  · intro _
    -- a known directory, a new one with a slot to spare, or a full table
    cases findServiceByDir w (serviceDir w.root name) with
    | some i => exact onSlot_byCalls i (foundService_byCalls i)
    | none =>
      apply SupByCalls.get
      intro w
      cases w.findSlot fun s => !s.active with
      | none => exact .pure trivial
      | some i => exact onSlot_byCalls i fun _ => newService_byCalls i name _
  · exact fun _ => .pure trivial

theorem missingSlot_byCalls (i : Nat) : SupByCalls (missingSlot i) := by
  apply SupByCalls.when
  have hstop : SupByCalls (stopMissing i) :=
    .when (stopTransitiveDeps_byCalls.seq fun _ => onSlot_byCalls i signalStop_byCalls)
  exact hstop.seq fun _ => onSlot_byCalls i (releaseMissing_byCalls i)

theorem startSlot_byCalls (t : Int) (i : Nat) : SupByCalls (startSlot t i) := by
  apply SupByCalls.get
  intro w
  apply Keeps.ite
  · intro _
    apply Keeps.ite
    · exact fun _ => onSlot_byCalls i fun _ => monoNow_byCalls.seq fun _ => .pure trivial
    · exact fun _ => onSlot_byCalls i (startService_byCalls i)
  · exact fun _ => .pure trivial

theorem withService_byCalls {usage : String} {arg : Bytes} {act : Nat → Sup Bytes}
    (h : ∀ i, SupByCalls (act i)) : SupByCalls (withService usage arg act) := by
  apply Keeps.ite
  · exact fun _ => .pure trivial
  intro _
  apply SupByCalls.get
  intro w
  cases findServiceByName w arg with
  | none => exact .pure trivial
  | some i => exact h i

theorem svcCommand_byCalls (cmd : SvcCmd) (arg : Bytes) : SupByCalls (svcCommand cmd arg) := by
  apply withService_byCalls
  intro i
  have haccept : SupByCalls (do
      onSlot i (acceptCmd cmd i)
      return formatOk (svcCmdDone cmd)) :=
    (onSlot_byCalls i (acceptCmd_byCalls cmd i)).seq fun _ => .pure trivial
  exact .ite (fun _ => stopTransitiveDeps_byCalls.seq fun _ => haccept) fun _ => haccept

theorem sendSignal_byCalls (i : Nat) (sig : Int) : SupByCalls (sendSignal i sig) := by
  apply SupByCalls.get
  intro w
  apply Keeps.ite
  · exact fun _ => .pure trivial
  · exact fun _ => (emit_byCalls rfl).lift.seq fun _ => .pure trivial

/-- A request. -/
theorem respond_byCalls (line : Bytes) : SupByCalls (respond line) := by
  have hclock : SupByCalls (liftSys monoNow) := monoNow_byCalls.lift
  unfold respond
  generalize splitCmd line = r
  obtain ⟨cmd, arg⟩ := r
  dsimp only
  cases parseRequest cmd with
  | list => exact hclock.seq fun _ => SupByCalls.get fun _ => .pure trivial
  | status => exact withService_byCalls fun _ => hclock.seq fun _ =>
      SupByCalls.get fun _ => .pure trivial
  | svc c => exact svcCommand_byCalls c arg
  | check => exact withService_byCalls fun i => SupByCalls.get fun w => (runCheck_byCalls (w.svc i)).lift
  | reload => exact raiseHup_byCalls.lift.seq fun _ => .pure trivial
  | shortcut sig => exact withService_byCalls fun i => sendSignal_byCalls i sig
  -- only `signal` splits its argument again
  | signal =>
    unfold signalCommand
    generalize splitCmd arg = r
    obtain ⟨svcName, sigNumPart⟩ := r
    apply Keeps.ite
    · exact fun _ => .pure trivial
    intro _
    cases parseSignum sigNumPart with
    | none => exact .pure trivial
    | some signum => exact withService_byCalls fun i => sendSignal_byCalls i signum
  | unknown => exact .pure trivial

theorem stopAllInOrder_byCalls : SupByCalls stopAllInOrder := by
  have hordered : ∀ s, ByCalls (stopOrdered s) := by
    intro s
    -- each service is stopped, and its logger told
    apply Keeps.iteBind (Q := fun _ => True)
    · exact fun _ => signalStopStatus_byCalls s
    · exact fun _ => .pure trivial
    · exact fun s₁ _ => .ite (fun _ => signalLogger_byCalls s₁) fun _ => .pure trivial
  have hremaining : ∀ s, ByCalls (stopRemaining s) := by
    intro s
    apply Keeps.iteBind (Q := fun _ => True)
    · exact fun _ => signalStop_byCalls s
    · exact fun _ => .pure trivial
    · exact fun s₁ _ => .ite (fun _ => signalLogger_byCalls s₁) fun _ => .pure trivial
  apply SupByCalls.get
  intro w
  exact (forSlots_keeps (fun i => onSlot_byCalls i hordered) _).seq fun _ =>
    forSlots_keeps (fun i => onSlot_byCalls i hremaining) _

theorem killRemaining_byCalls (i : Nat) : SupByCalls (killRemaining i) := by
  apply SupByCalls.get
  intro w
  have hlogger : ByCalls (if (w.svc i).active && (w.svc i).logPid > 0
      then kill (w.svc i).logPid sigkill else pure ()) :=
    .ite (fun _ => emit_byCalls rfl) fun _ => .pure trivial
  exact ByCalls.lift (.ite (fun _ => (emit_byCalls rfl).seq fun _ => hlogger) fun _ => hlogger)

/-- One operation. -/
theorem exec_calls (op : Op) (w : World) : Calls w.k (exec op w).k := by
  cases op with
  | reapChild pid status => exact (reapChild_byCalls pid status).rel w
  | stopDeps => exact stopTransitiveDeps_byCalls.rel w
  | logDeath i => exact (SupByCalls.when (onSlot_byCalls i signalStopStatus_byCalls)).rel w
  | readClock => exact monoNow_byCalls.lift.rel w
  | unmark i => exact (SupByCalls.when (onSlot_byCalls i fun _ => .pure trivial)).rel w
  | scanEntry name => exact (scanEntry_byCalls name).rel w
  | missing i => exact (missingSlot_byCalls i).rel w
  | start t i => exact (startSlot_byCalls _ i).rel w
  | request line =>
    exact ((respond_byCalls line).seq fun _ => (emit_byCalls rfl).lift).rel w
  | signals reads => exact (drainSignalPipe_byCalls reads).lift.rel w
  | output i err reads =>
    exact (SupByCalls.when (onSlot_byCalls i fun s => drainStream_byCalls err reads s)).rel w
  -- time passes first, then the signals that arrived meanwhile are in the pipe
  | wait elapsed arrivals => exact .tail (.single (.tick elapsed)) (.signals arrivals)
  | stopAll => exact stopAllInOrder_byCalls.rel w
  | killRemaining i => exact (killRemaining_byCalls i).rel w

end

/-- The program does nothing to the kernel but by calls. -/
theorem Performs.calls {w w' : World} (h : Performs w w') : Calls w.k w'.k := by
  obtain ⟨ops, rfl⟩ := h
  induction ops generalizing w with
  | nil => exact .refl
  | cons op ops ih => exact (exec_calls op w).trans ih

end SvcRs
