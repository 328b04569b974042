import SvcRs.ForStd.StateM
import SvcRs.Native.Main

/-!
# Calls that the life cycle does not see

`Core` is the part of a record that decides when a service is started and stopped;
`Kernel.log` keeps the events about processes. Most system calls are `Quiet`: they
leave the children and that log alone and at most move the clock forward. A
computation is `Calm` if all its calls are; the lemmas below say so for everything
that only reads files, writes files or handles descriptors.
-/

namespace SvcRs

/-! ## Core records and the process log -/

/-- The fields of a record that the life cycle depends on. -/
structure Core where
  active : Bool
  present : Bool
  stopping : Bool
  manualStart : Bool
  name : Bytes
  dir : Bytes
  pid : Int
  restartAt : Int
  startedAt : Int
  restarts : UInt32
  state : SvcState
  autoStart : Bool
  once : Bool
  deps : List Dependency
  logPid : Int

/-- The fields of a record in which its life cycle is. -/
def Service.core (s : Service) : Core :=
  { active := s.active, present := s.present, stopping := s.stopping
    manualStart := s.manualStart, name := s.name, dir := s.dir, pid := s.pid
    restartAt := s.restartAt, startedAt := s.startedAt, restarts := s.restarts
    state := s.state, autoStart := s.autoStart, once := s.once, deps := s.deps
    logPid := s.logPid }

/-- The streams are not among them. -/
@[simp] theorem Service.core_setStream (s : Service) (err : Bool) (st : Stream) :
    (s.setStream err st).core = s.core := by
  cases err <;> rfl

/-- Events about processes and about the life cycle of records. -/
def Event.isLife : Event → Bool
  | .fork .. | .reaped .. | .kill .. | .killSelf .. | .added .. | .removed .. | .found ..
  | .started .. | .exited .. | .accepted .. => true
  | _ => false

/-- The events of the life cycle. -/
def Kernel.log (k : Kernel) : List Event := k.trace.filter Event.isLife

/-! ## Quiet calls -/

/-- Nothing of the life cycle happened, but time may have passed. -/
structure Quiet (k k' : Kernel) : Prop where
  children : k'.children = k.children
  log : k'.log = k.log
  clock : k.clock ≤ k'.clock

instance : Std.Refl Quiet := ⟨fun _ => ⟨rfl, rfl, Int.le_refl _⟩⟩

instance : IsTrans Kernel Quiet := ⟨fun _ _ _ h₁ h₂ =>
  ⟨h₂.children.trans h₁.children, h₂.log.trans h₁.log, Int.le_trans h₁.clock h₂.clock⟩⟩

/-- Nothing at all. -/
theorem Quiet.refl (k : Kernel) : Quiet k k := Std.Refl.refl k

/-- One after the other. -/
theorem Quiet.trans {k₁ k₂ k₃ : Kernel} (h₁ : Quiet k₁ k₂) (h₂ : Quiet k₂ k₃) : Quiet k₁ k₃ :=
  IsTrans.trans _ _ _ h₁ h₂

/-- Only quiet calls, and a result that satisfies `Q`. -/
abbrev Calm {α : Type} (m : Sys α) (Q : α → Prop) : Prop := StateM.Keeps Quiet m Q

/-- An event outside the life cycle. -/
theorem emit_calm {e : Event} (h : e.isLife = false) : Calm (emit e) fun _ => True := fun k _ =>
  ⟨⟨rfl, by simp [emit, Kernel.log, h], Int.le_refl _⟩, trivial⟩

/-- The events of the life cycle go to the log. -/
theorem emit_log {e : Event} (h : e.isLife = true) (k : Kernel) :
    (emit e k).2.log = e :: k.log := by simp [emit, Kernel.log, h]

@[simp] theorem emit_children (e : Event) (k : Kernel) : (emit e k).2.children = k.children := rfl

@[simp] theorem emit_clock (e : Event) (k : Kernel) : (emit e k).2.clock = k.clock := rfl

/-- An answer of the system is used up. -/
theorem call_calm : Calm call fun _ => True := fun _ _ => ⟨⟨rfl, rfl, Int.le_refl _⟩, trivial⟩

theorem wallNow_calm : Calm wallNow fun _ => True :=
  call_calm.seq fun _ => .pure trivial

theorem access_calm (path : Bytes) (mode : AccessMode) : Calm (access path mode) fun _ => True :=
  call_calm.seq fun _ => .pure trivial

theorem readFileToBuf_calm (path : Bytes) (n : Nat) :
    Calm (readFileToBuf path n) fun _ => True :=
  call_calm.seq fun _ => .pure trivial

theorem getpwnam_calm (name : Bytes) : Calm (getpwnam name) fun _ => True :=
  call_calm.seq fun _ => .pure trivial

theorem getgrnam_calm (name : Bytes) : Calm (getgrnam name) fun _ => True :=
  call_calm.seq fun _ => .pure trivial

theorem seekEnd_calm (fd : Int) : Calm (seekEnd fd) fun _ => True :=
  call_calm.seq fun _ => (emit_calm rfl).seq fun _ => .pure trivial

theorem writeAll_calm (fd : Int) (data : Bytes) : Calm (writeAll fd data) fun _ => True :=
  call_calm.seq fun _ => (emit_calm rfl).seq fun _ => .pure trivial

theorem reply_calm (text : Bytes) : Calm (reply text) fun _ => True := emit_calm rfl

theorem openFile_calm (path : Bytes) (mode : OpenMode) :
    Calm (openFile path mode) fun _ => True := by
  refine call_calm.seq fun a k _ => ⟨?_, trivial⟩
  split
  · exact ⟨rfl, by simp [Kernel.log, Event.isLife], Int.le_refl _⟩
  · exact Quiet.refl k

theorem newPipe_calm : Calm newPipe fun _ => True := by
  refine call_calm.seq fun a k _ => ⟨?_, trivial⟩
  split
  · split
    · exact ⟨rfl, by simp [Kernel.log, Event.isLife], Int.le_refl _⟩
    · exact Quiet.refl k
  · exact Quiet.refl k

theorem closeFd_calm (fd : Int) : Calm (closeFd fd) fun _ => True := by
  refine fun k _ => ⟨?_, trivial⟩
  simp only [closeFd]
  split
  · exact ⟨rfl, by simp [Kernel.log, Event.isLife], Int.le_refl _⟩
  · exact Quiet.refl k

/-! ## The clock -/

/-- What `mono_now()` would return in this state. -/
def Kernel.reading (k : Kernel) : Int := (monoNow k).1

/-- Reading the clock passes time. -/
theorem monoNow_quiet (k : Kernel) : Quiet k (monoNow k).2 := by
  refine ⟨rfl, rfl, ?_⟩
  have := k.clockLe
  simp only [monoNow, Sys.bind_apply, call, Kernel.advance]
  omega

/-- The clock is what was read. -/
theorem monoNow_clock (k : Kernel) : (monoNow k).2.clock = k.reading := rfl

/-- It does not go back. -/
theorem Kernel.clock_le_reading (k : Kernel) : k.clock ≤ k.reading := (monoNow_quiet k).clock

/-- It fits into an `i64`. -/
theorem Kernel.reading_le (k : Kernel) : k.reading ≤ i64Max := (monoNow k).2.clockLe

/-- So the result is a time that is not negative. -/
theorem monoNow_calm : Calm monoNow fun t => 0 ≤ t ∧ t ≤ i64Max := fun k _ =>
  ⟨monoNow_quiet k, (monoNow k).2.clockNonneg, (monoNow k).2.clockLe⟩

/-! ## Reading and writing the service directory -/

/-- The calm computations that keep the core of the record they are given. -/
abbrev KeepsCore (s : Service) (m : Sys Service) : Prop := Calm m fun s' => s'.core = s.core

/-- Reading an id, by number or by name. -/
theorem parseIdFile_calm (path : Bytes) {resolve : Bytes → Sys (Option UInt32)}
    (h : ∀ b, Calm (resolve b) fun _ => True) : Calm (parseIdFile path resolve) fun _ => True := by
  refine (readFileToBuf_calm path nameBuf).seq fun data => ?_
  rcases data with _ | _ | ⟨c, rest⟩
  · exact .pure trivial
  · exact .pure trivial
  · dsimp only
    cases parseNumericOrName (c :: rest) with
    | none => exact h _
    | some id => exact .pure trivial

theorem resolveUid_calm (name : Bytes) : Calm (resolveUid name) fun _ => True := by
  unfold resolveUid
  cases cleanName name with
  | none => exact .pure trivial
  | some clean => exact getpwnam_calm clean

theorem resolveGid_calm (name : Bytes) : Calm (resolveGid name) fun _ => True := by
  unfold resolveGid
  cases cleanName name with
  | none => exact .pure trivial
  | some clean => exact getgrnam_calm clean

theorem parseUserGroup_calm (s : Service) : KeepsCore s (parseUserGroup s) := by
  refine (parseIdFile_calm _ resolveUid_calm).seq fun uid => ?_
  refine (parseIdFile_calm _ resolveGid_calm).seq fun gid => .pure ?_
  cases uid <;> cases gid <;> rfl

theorem readEnv_calm (s : Service) : KeepsCore s (readEnv s) := by
  refine (readFileToBuf_calm _ envBuf).seq fun data => ?_
  rcases data with _ | _ | ⟨c, rest⟩ <;> exact .pure rfl

theorem prepareServiceEnv_calm (s : Service) : KeepsCore s (prepareServiceEnv s) :=
  (readEnv_calm s).bind fun _ h => (access_calm _ _).seq fun _ => .pure h

theorem writeStatusFile_calm (s : Service) : Calm (writeStatusFile s) fun _ => True :=
  (openFile_calm _ _).seq fun _ => .ite (fun _ => emit_calm rfl) fun _ =>
    monoNow_calm.bind fun _ _ => (writeAll_calm _ _).seq fun _ => (closeFd_calm _).seq fun _ =>
      emit_calm rfl

theorem touchFile_calm (path : Bytes) : Calm (touchFile path) fun _ => True :=
  (openFile_calm _ _).seq fun _ => closeFd_calm _

/-! ## Streams -/

theorem openLog_calm (err : Bool) (s : Service) : KeepsCore s (openLog err s) := by
  refine (closeFd_calm _).seq fun _ => (emit_calm rfl).seq fun _ =>
    (openFile_calm _ _).seq fun fd => ?_
  exact .iteBind (fun _ => seekEnd_calm _) (fun _ => .pure trivial)
    fun logLen _ => .pure (s.core_setStream err _)

theorem rotateLog_calm (err : Bool) (s : Service) : KeepsCore s (rotateLog err s) := by
  refine (closeFd_calm _).seq fun _ => wallNow_calm.seq fun ts => (emit_calm rfl).seq fun _ => ?_
  exact (openLog_calm err _).weaken fun _ h => h.trans (s.core_setStream err _)

theorem appendLog_calm (err : Bool) (data : Bytes) (s : Service) :
    KeepsCore s (appendLog err data s) :=
  (writeAll_calm _ _).seq fun _ => .ite (fun _ => .pure (s.core_setStream err _)) fun _ =>
    (closeFd_calm _).seq fun _ => .pure (s.core_setStream err _)

theorem writeLog_calm (err : Bool) (data : Bytes) (s : Service) :
    KeepsCore s (writeLog err data s) := by
  refine .iteBind (fun _ => openLog_calm err s) (fun _ => .pure rfl) fun s₁ h₁ => ?_
  refine .ite (fun _ => .pure h₁) fun _ => ?_
  refine .iteBind (fun _ => rotateLog_calm err s₁) (fun _ => .pure rfl) fun s₂ h₂ => ?_
  refine .ite (fun _ => .pure (h₂.trans h₁)) fun _ => ?_
  exact (appendLog_calm err data s₂).weaken fun _ h => h.trans (h₂.trans h₁)

theorem drainStream_calm (err : Bool) (reads : List ReadResult) (s : Service) :
    KeepsCore s (drainStream err reads s) := by
  -- by induction on the results of `read`; the loop writes to the log only
  induction reads generalizing s with
  | nil => exact .pure rfl
  | cons r reads ih =>
    unfold drainStream
    refine .ite (fun _ => .pure rfl) fun _ => ?_
    have hclose : KeepsCore s (do
        closeFd (s.stream err).readFd
        return s.setStream err { s.stream err with readFd := -1 }) :=
      (closeFd_calm _).seq fun _ => .pure (s.core_setStream err _)
    cases r with
    | eof | error => exact hclose
    | eintr => exact ih s
    | eagain => exact .pure rfl
    | data b =>
      cases b with
      | nil => exact hclose
      | cons c rest =>
        refine StateM.Keeps.iteBind (Q := fun s₁ => s₁.core = s.core) (fun _ => .pure rfl)
          (fun _ => writeLog_calm err _ s) fun s₁ h₁ => ?_
        exact .ite (fun _ => .pure h₁) fun _ => (ih s₁).weaken fun _ h => h.trans h₁

theorem closeServiceFds_calm (s : Service) : KeepsCore s (closeServiceFds s) :=
  (closeFd_calm _).seq fun _ => (closeFd_calm _).seq fun _ => (closeFd_calm _).seq fun _ =>
    (closeFd_calm _).seq fun _ => .pure rfl

theorem openPipes_calm : Calm openPipes fun _ => True := by
  refine newPipe_calm.seq fun out => ?_
  rcases out with _ | ⟨outRead, outWrite⟩
  · exact .pure trivial
  · refine newPipe_calm.seq fun err => ?_
    rcases err with _ | ⟨errRead, errWrite⟩
    · exact (closeFd_calm _).seq fun _ => (closeFd_calm _).seq fun _ => .pure trivial
    · exact .pure trivial

/-! ## Signals -/

/-- The target and the signal of a `kill`. -/
def Event.killed : Event → Option (Int × Int)
  | .kill target sig => some (target, sig)
  | _ => none

/-- From one kernel to the other, SIGTERM went to these targets in order, and no other signal
    to anybody. -/
def Kills (targets : List Int) (k k' : Kernel) : Prop :=
  ∃ evs, k'.log = evs ++ k.log ∧
    evs.reverse.filterMap Event.killed = targets.map fun target => (target, sigterm)

section

variable {k k' k'' : Kernel} {targets targets' : List Int}

/-- Signals after signals. -/
theorem Kills.trans (h : Kills targets k k') (h' : Kills targets' k' k'') :
    Kills (targets ++ targets') k k'' := by
  obtain ⟨evs, hevs, htargets⟩ := h
  obtain ⟨evs', hevs', htargets'⟩ := h'
  refine ⟨evs' ++ evs, by rw [hevs', hevs, List.append_assoc], ?_⟩
  rw [List.reverse_append, List.filterMap_append, htargets, htargets', List.map_append]

/-- No signals. -/
theorem Quiet.kills (h : Quiet k k') : Kills [] k k' := ⟨[], h.log, rfl⟩

/-- One signal. -/
theorem kill_kills (target : Int) (k : Kernel) : Kills [target] k (kill target sigterm k).2 :=
  ⟨[.kill target sigterm], emit_log rfl k, rfl⟩

theorem signalLogger_kills {c : Bool} {s : Service} (k : Kernel) :
    Kills (if c then [s.logPid] else []) k
      ((if c then signalLogger s else pure s : Sys Service) k).2 := by
  cases c with
  | true => exact kill_kills s.logPid k
  | false => exact (Quiet.refl k).kills

end

end SvcRs
