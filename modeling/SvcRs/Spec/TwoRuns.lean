import SvcRs.ForStd.Relational
import SvcRs.Native.Main

/-!
# Two runs that differ in a pending start

A `start` for a running service changes two fields of its record, `manual_start` and
`restart_at`. The lemmas below compare every function of the supervisor with itself on two
records that differ in these fields only, and on two kernels that differ in what the
supervisor has answered.

## Key results

- `emit_sim`, `fork_blind`: the system calls
- `drainStream_plain`, `runSvcCmd_plain`: functions that keep the difference as it is
- `startService_plain`, `reapMain_plain`: the two that end it
-/

namespace SvcRs

open StateM (Sim)

/-! ## Kernels -/

/-- What the supervisor does, without its replies and the entries that tag its own log lines. -/
def Event.isAct : Event → Bool
  | .reply _ | .accepted .. | .exited .. => false
  | _ => true

/-- The kernels are in the same state, after the same acts. -/
def Twin (k k' : Kernel) : Prop :=
  ∃ trace, k' = { k with trace } ∧ trace.filter Event.isAct = k.trace.filter Event.isAct

/-- The result and the acts do not depend on what has been answered. -/
abbrev Blind {α : Type} (m : Sys α) : Prop := Sim Twin Eq m m

section

variable {α : Type}

/-- An entry that says the same in both runs, or is no act. -/
theorem emit_sim {e e' : Event} (h : e.isAct = false ∧ e'.isAct = false ∨ e = e') :
    Sim Twin Eq (emit e) (emit e') := by
  rintro k _ ⟨trace, rfl, hacts⟩
  refine ⟨rfl, e' :: trace, rfl, ?_⟩
  show (e' :: trace).filter Event.isAct = (e :: k.trace).filter Event.isAct
  rcases h with ⟨he, he'⟩ | rfl
  · simp only [List.filter_cons, he, he', Bool.false_eq_true, if_false, hacts]
  · simp only [List.filter_cons, hacts]

/-- An event is an act in both runs, or in neither. -/
theorem emit_blind (e : Event) : Blind (emit e) := emit_sim (.inr rfl)

theorem call_blind : Blind call := by
  rintro k _ ⟨trace, rfl, hacts⟩
  exact ⟨rfl, trace, rfl, hacts⟩

/-- The clock is the same in both runs. -/
theorem monoNow_blind : Blind monoNow := by
  rintro k _ ⟨trace, rfl, hacts⟩
  exact ⟨rfl, trace, rfl, hacts⟩

/-- One answer, of which the result is a part. -/
theorem ask_blind (f : Answer → α) : Blind (do return f (← call)) :=
  call_blind.seq fun _ => .pure rfl

theorem fork_blind (role : Role) : Blind (fork role) := by
  apply call_blind.seq
  rintro a k _ ⟨trace, rfl, hacts⟩
  by_cases hfork : 1 < a.fork ∧ ∀ c ∈ k.children, c.pid ≠ a.fork
  · simp only [if_pos hfork]
    refine ⟨trivial, _, rfl, ?_⟩
    simp only [List.filter_cons, hacts]
  · simp only [if_neg hfork]
    exact ⟨trivial, trace, rfl, hacts⟩

theorem waitpid_blind (pid status : Int) : Blind (waitpid pid status) := by
  rintro k _ ⟨trace, rfl, hacts⟩
  unfold waitpid
  by_cases hchild : ∃ c ∈ k.children, c.pid = pid
  · simp only [if_pos hchild]
    refine ⟨trivial, _, rfl, ?_⟩
    simp only [List.filter_cons, hacts]
  · simp only [if_neg hchild]
    exact ⟨trivial, trace, rfl, hacts⟩

theorem openFile_blind (path : Bytes) (mode : OpenMode) : Blind (openFile path mode) := by
  apply call_blind.seq
  rintro a k _ ⟨trace, rfl, hacts⟩
  by_cases hfd : 0 ≤ a.fd ∧ a.fd ∉ k.fds
  · simp only [if_pos hfd]
    refine ⟨trivial, _, rfl, ?_⟩
    simp only [List.filter_cons, hacts]
  · simp only [if_neg hfd]
    exact ⟨trivial, trace, rfl, hacts⟩

theorem closeFd_blind (fd : Int) : Blind (closeFd fd) := by
  rintro k _ ⟨trace, rfl, hacts⟩
  unfold closeFd
  by_cases hfd : 0 ≤ fd
  · simp only [if_pos hfd]
    refine ⟨trivial, _, rfl, ?_⟩
    simp only [List.filter_cons, hacts]
  · simp only [if_neg hfd]
    exact ⟨trivial, trace, rfl, hacts⟩

theorem newPipe_blind : Blind newPipe := by
  apply call_blind.seq
  rintro a k _ ⟨trace, rfl, hacts⟩
  cases a.pipe with
  | none => exact ⟨rfl, trace, rfl, hacts⟩
  | some ends =>
    obtain ⟨r, w⟩ := ends
    -- both kernels have the same descriptors in use
    by_cases hends : 0 ≤ r ∧ 0 ≤ w ∧ r ≠ w ∧ r ∉ k.fds ∧ w ∉ k.fds
    · simp only [if_pos hends]
      refine ⟨trivial, _, rfl, ?_⟩
      simp only [List.filter_cons, hacts]
    · simp only [if_neg hends]
      exact ⟨trivial, trace, rfl, hacts⟩

theorem writeAll_blind (fd : Int) (data : Bytes) : Blind (writeAll fd data) :=
  call_blind.seq fun _ => (emit_blind _).seq fun _ => .pure rfl

theorem seekEnd_blind (fd : Int) : Blind (seekEnd fd) :=
  call_blind.seq fun _ => (emit_blind _).seq fun _ => .pure rfl

end

/-! ## Records -/

/-- The second record is the first one, but a start may be pending (`d`): `manual_start` is
    set, and while the service runs, `restart_at` is another time. -/
structure Pend (d : Bool) (s s' : Service) : Prop where
  same : ∃ manualStart restartAt, s' = { s with manualStart, restartAt }
  manual : s'.manualStart = s.manualStart ∨ d = true ∧ s'.manualStart = true
  restart : s'.restartAt = s.restartAt ∨ d = true ∧ 0 < s.pid

/-- Computations that treat such records alike. -/
abbrev Plain (f : Service → Sys Service) : Prop :=
  ∀ {d s s'}, Pend d s s' → Sim Twin (Pend d) (f s) (f s')

section

variable {d : Bool} {s s' : Service}

/-- The same record. -/
theorem Pend.refl (s : Service) : Pend d s s := ⟨⟨_, _, rfl⟩, .inl rfl, .inl rfl⟩

/-- If no difference is allowed, there is none. -/
theorem Pend.eq (h : Pend false s s') : s' = s := by
  obtain ⟨⟨manualStart, restartAt, rfl⟩, hmanual, hrestart⟩ := h
  have hm : manualStart = s.manualStart := by simpa using hmanual
  have hr : restartAt = s.restartAt := by simpa using hrestart
  rw [hm, hr]

/-- On one and the same record. -/
theorem Plain.blind {f : Service → Sys Service} (hf : Plain f) (s : Service) : Blind (f s) := by
  intro k k' hk
  have h : Pend false s s := .refl s
  obtain ⟨hresult, hkernel⟩ := hf h k k' hk
  exact ⟨hresult.eq.symm, hkernel⟩

/-- The flag is outside the streams. -/
theorem Pend.setStream (h : Pend d s s') (err : Bool) (st : Stream) :
    Pend d (s.setStream err st) (s'.setStream err st) := by
  obtain ⟨⟨m, r, rfl⟩, hm, hr⟩ := h
  cases err <;> exact ⟨⟨m, r, rfl⟩, hm, hr⟩

/-! ### The service directory -/

/-- The status may differ; the acts do not. -/
theorem writeStatusFile_sim (h : Pend d s s') :
    Sim Twin Eq (writeStatusFile s) (writeStatusFile s') := by
  obtain ⟨⟨m, r, rfl⟩, -, -⟩ := h
  apply (openFile_blind _ _).seq
  intro fd
  -- the text is the same: the pending start is not part of it
  apply Sim.ite
  · exact fun _ => emit_blind _
  · intro _
    apply monoNow_blind.seq
    intro now
    apply (writeAll_blind _ _).seq
    intro written
    exact (closeFd_blind _).seq fun _ => emit_blind _

/-- Every function that changes a record writes the status file at the end. -/
theorem writeStatus_plain (h : Pend d s s') : Sim Twin (Pend d)
    (do writeStatusFile s; return s) (do writeStatusFile s'; return s') :=
  (writeStatusFile_sim h).seq fun _ => .pure h

theorem touchFile_blind (path : Bytes) : Blind (touchFile path) :=
  (openFile_blind _ _).seq fun _ => closeFd_blind _

theorem parseIdFile_blind (path : Bytes) {resolve : Bytes → Sys (Option UInt32)}
    (h : ∀ b, Blind (resolve b)) : Blind (parseIdFile path resolve) := by
  apply (ask_blind _).seq
  intro data
  rcases data with _ | _ | ⟨c, rest⟩
  · exact .pure rfl
  · exact .pure rfl
  · dsimp only
    cases parseNumericOrName (c :: rest) with
    | none => exact h _
    | some id => exact .pure rfl

theorem resolveUid_blind (name : Bytes) : Blind (resolveUid name) := by
  unfold resolveUid
  cases cleanName name with
  | none => exact .pure rfl
  | some clean => exact ask_blind _

theorem resolveGid_blind (name : Bytes) : Blind (resolveGid name) := by
  unfold resolveGid
  cases cleanName name with
  | none => exact .pure rfl
  | some clean => exact ask_blind _

theorem parseUserGroup_plain : Plain parseUserGroup := by
  -- `manual_start` and `restart_at` are not among the ids
  rintro d s _ ⟨⟨m, r, rfl⟩, hm, hr⟩
  apply (parseIdFile_blind _ resolveUid_blind).seq
  intro uid
  cases uid with
  | none =>
    apply (parseIdFile_blind _ resolveGid_blind).seq
    intro gid
    apply Sim.pure
    cases gid with
    | none => exact ⟨⟨m, r, rfl⟩, hm, hr⟩
    | some gid => exact ⟨⟨m, r, rfl⟩, hm, hr⟩
  | some uid =>
    apply (parseIdFile_blind _ resolveGid_blind).seq
    intro gid
    apply Sim.pure
    cases gid with
    | none => exact ⟨⟨m, r, rfl⟩, hm, hr⟩
    | some gid => exact ⟨⟨m, r, rfl⟩, hm, hr⟩

theorem prepareServiceEnv_plain : Plain prepareServiceEnv := by
  rintro d s _ ⟨⟨m, r, rfl⟩, hm, hr⟩
  have henv : Sim Twin (Pend d) (readEnv s)
      (readEnv { s with manualStart := m, restartAt := r }) := by
    apply (ask_blind _).seq
    intro data
    rcases data with _ | _ | ⟨c, rest⟩ <;> exact .pure ⟨⟨m, r, rfl⟩, hm, hr⟩
  apply henv.bind
  rintro s _ ⟨⟨m, r, rfl⟩, hm, hr⟩
  exact (ask_blind _).seq fun _ => .pure ⟨⟨m, r, rfl⟩, hm, hr⟩

/-! ### Streams -/

theorem openLog_plain (err : Bool) : Plain (openLog err) := by
  intro d s s' h
  have hset := h.setStream err
  obtain ⟨⟨m, r, rfl⟩, -, -⟩ := h
  apply (closeFd_blind _).seq
  intro _
  apply (emit_blind _).seq
  intro _
  apply (openFile_blind _ _).seq
  intro fd
  -- the length is asked for only if `open` succeeded
  apply Sim.iteBind (A := Eq)
  · exact fun _ => seekEnd_blind fd
  · exact fun _ => .pure rfl
  · rintro len _ rfl
    exact .pure (hset _)

theorem rotateLog_plain (err : Bool) : Plain (rotateLog err) := by
  intro d s s' h
  have hset := h.setStream err
  obtain ⟨⟨m, r, rfl⟩, -, -⟩ := h
  apply (closeFd_blind _).seq
  intro _
  apply (ask_blind _).seq
  intro ts
  have hnext := openLog_plain err (hset { s.stream err with
    logFd := -1, rotations := (s.stream err).rotations + 1 })
  cases err <;> exact (emit_blind _).seq fun _ => hnext

theorem appendLog_plain (err : Bool) (data : Bytes) : Plain (appendLog err data) := by
  intro d s s' h
  have hset := h.setStream err
  obtain ⟨⟨m, r, rfl⟩, -, -⟩ := h
  apply (writeAll_blind _ _).seq
  intro written
  cases written with
  | true => exact .pure (hset _)
  | false => exact (closeFd_blind _).seq fun _ => .pure (hset _)

theorem writeLog_plain (err : Bool) (data : Bytes) : Plain (writeLog err data) := by
  intro d s s' h
  -- the streams are the same in both records
  have hfd : ∀ {s s' : Service}, Pend d s s' → s'.stream err = s.stream err := by
    rintro s _ ⟨⟨m, r, rfl⟩, -, -⟩
    cases err <;> rfl
  unfold writeLog
  rw [hfd h]
  apply Sim.iteBind (A := Pend d)
  · exact fun _ => openLog_plain err h
  · exact fun _ => .pure h
  intro s₁ s₁' h₁
  dsimp only
  rw [hfd h₁]
  apply Sim.ite
  · exact fun _ => .pure h₁
  intro _
  -- rotation may close the log, so the descriptor is looked at again
  apply Sim.iteBind (A := Pend d)
  · exact fun _ => rotateLog_plain err h₁
  · exact fun _ => .pure h₁
  intro s₂ s₂' h₂
  rw [hfd h₂]
  apply Sim.ite
  · exact fun _ => .pure h₂
  · exact fun _ => appendLog_plain err data h₂

theorem drainStream_plain (err : Bool) (reads : List ReadResult) :
    Plain (drainStream err reads) := by
  -- by induction on the results of `read`
  induction reads with
  | nil => exact fun h => .pure h
  | cons read reads ih =>
    intro d s s' h
    have hstream : s'.stream err = s.stream err := by
      obtain ⟨⟨m, r, rfl⟩, -, -⟩ := h
      cases err <;> rfl
    have hlog : s'.hasLog = s.hasLog := by
      obtain ⟨⟨m, r, rfl⟩, -, -⟩ := h
      rfl
    -- end of file and errors close the read end alike
    have hclose : Sim Twin (Pend d)
        (do closeFd (s.stream err).readFd
            return s.setStream err { s.stream err with readFd := -1 })
        (do closeFd (s.stream err).readFd
            return s'.setStream err { s.stream err with readFd := -1 }) :=
      (closeFd_blind _).seq fun _ => .pure (h.setStream err _)
    unfold drainStream
    rw [hstream]
    apply Sim.ite
    · exact fun _ => .pure h
    intro _
    cases read with
    | eof | error => exact hclose
    | eintr => exact ih h
    | eagain => exact .pure h
    | data b =>
      cases b with
      | nil => exact hclose
      | cons c rest =>
        simp only [hlog]
        apply Sim.iteBind (A := Pend d)
        · exact fun _ => .pure h
        · exact fun _ => writeLog_plain err _ h
        intro s₁ s₁' h₁
        apply Sim.ite
        · exact fun _ => .pure h₁
        · exact fun _ => ih h₁

theorem closeServiceFds_plain : Plain closeServiceFds := by
  rintro d s _ ⟨⟨m, r, rfl⟩, hm, hr⟩
  apply (closeFd_blind _).seq
  intro _
  apply (closeFd_blind _).seq
  intro _
  apply (closeFd_blind _).seq
  intro _
  apply (closeFd_blind _).seq
  exact fun _ => .pure ⟨⟨m, r, rfl⟩, hm, hr⟩

/-! ### Starting -/

theorem openPipes_blind : Blind openPipes := by
  apply newPipe_blind.seq
  intro out
  rcases out with _ | ⟨outRead, outWrite⟩
  · exact .pure rfl
  · apply newPipe_blind.seq
    intro err
    rcases err with _ | ⟨errRead, errWrite⟩
    · exact (closeFd_blind _).seq fun _ => (closeFd_blind _).seq fun _ => .pure rfl
    · exact .pure rfl

/-- The records and the write ends of the logger's pipe. -/
def PendWith (d : Bool) (x x' : Service × Int) : Prop := Pend d x.1 x'.1 ∧ x'.2 = x.2

/-- The logger is started in both runs. -/
theorem startLogger_sim (slot : Nat) (h : Pend d s s') :
    Sim Twin (PendWith d) (startLogger slot s) (startLogger slot s') := by
  obtain ⟨⟨m, r, rfl⟩, hm, hr⟩ := h
  -- without a logger nothing is handed on
  have hwithout : PendWith d ({ s with hasLog := false }, -1)
      ({ s with manualStart := m, restartAt := r, hasLog := false }, -1) :=
    ⟨⟨⟨m, r, rfl⟩, hm, hr⟩, rfl⟩
  unfold startLogger
  apply Sim.ite
  · exact fun _ => .pure ⟨⟨⟨m, r, rfl⟩, hm, hr⟩, rfl⟩
  intro _
  apply (ask_blind _).seq
  intro exists_
  apply Sim.ite
  · exact fun _ => .pure hwithout
  intro _
  apply newPipe_blind.seq
  intro pipe
  rcases pipe with _ | ⟨pipeRead, pipeWrite⟩
  · exact .pure hwithout
  · apply (fork_blind _).seq
    intro pid
    -- the parent keeps the write end, or closes both after a failed `fork`
    apply Sim.ite
    · intro _
      apply monoNow_blind.seq
      intro now
      exact (closeFd_blind _).seq fun _ => .pure ⟨⟨⟨m, r, rfl⟩, hm, hr⟩, rfl⟩
    · intro _
      apply (closeFd_blind _).seq
      intro _
      exact (closeFd_blind _).seq fun _ => .pure hwithout

theorem closeReadEnds_plain : Plain closeReadEnds := by
  rintro d s _ ⟨⟨m, r, rfl⟩, hm, hr⟩
  exact (closeFd_blind _).seq fun _ => (closeFd_blind _).seq fun _ => .pure ⟨⟨m, r, rfl⟩, hm, hr⟩

theorem startFailed_plain : Plain startFailed := by
  rintro d s _ ⟨⟨m, r, rfl⟩, hm, -⟩
  apply monoNow_blind.seq
  intro now
  exact writeStatus_plain ⟨⟨m, _, rfl⟩, hm, .inl rfl⟩

theorem attachStreams_plain (fds : StartFds) : Plain fun s => attachStreams s fds := by
  rintro d s _ ⟨⟨m, r, rfl⟩, hm, hr⟩
  apply Sim.ite
  · exact fun _ => .pure ⟨⟨m, r, rfl⟩, hm, hr⟩
  · intro _
    -- the read ends move into both records
    have h : Pend d
        { s with
          out := { s.out with readFd := fds.out0 }, err := { s.err with readFd := fds.err0 } }
        { s with
          manualStart := m, restartAt := r
          out := { s.out with readFd := fds.out0 }, err := { s.err with readFd := fds.err0 } } :=
      ⟨⟨m, r, rfl⟩, hm, hr⟩
    exact (openLog_plain false h).bind fun _ _ h₁ => openLog_plain true h₁

/-- The pending start is over. -/
theorem mainStarted_sim (slot : Nat) (fds : StartFds) {pid : Int} (hpid : 0 < pid)
    (h : Pend d s s') :
    Sim Twin (Pend d) (mainStarted slot s fds pid) (mainStarted slot s' fds pid) := by
  obtain ⟨⟨m, r, rfl⟩, -, hr⟩ := h
  apply monoNow_blind.seq
  intro now
  apply (emit_blind _).seq
  intro _
  have hstarted : Pend d (s.started pid now)
      (Service.started { s with manualStart := m, restartAt := r } pid now) :=
    ⟨⟨false, r, rfl⟩, .inl rfl, hr.imp_right fun hd => ⟨hd.1, hpid⟩⟩
  exact (attachStreams_plain fds hstarted).bind fun _ _ h₁ => writeStatus_plain h₁

theorem mainForkFailed_plain (fds : StartFds) : Plain fun s => mainForkFailed s fds := by
  rintro d s _ ⟨⟨m, r, rfl⟩, hm, -⟩
  have hfailed : Sim Twin (Pend d) (startFailed { s with pid := -1 })
      (startFailed { s with manualStart := m, restartAt := r, pid := -1 }) := by
    apply monoNow_blind.seq
    intro now
    exact writeStatus_plain ⟨⟨m, _, rfl⟩, hm, .inl rfl⟩
  apply Sim.ite
  · intro _
    exact (closeFd_blind _).seq fun _ => (closeFd_blind _).seq fun _ => hfailed
  · exact fun _ => hfailed

theorem forkMain_plain (slot : Nat) (fds : StartFds) : Plain fun s => forkMain slot s fds := by
  intro d s s' h
  -- which ends are closed depends on `has_log` alone
  have hclose : Sim Twin Eq (closeChildEnds s fds) (closeChildEnds s' fds) := by
    obtain ⟨⟨m, r, rfl⟩, -, -⟩ := h
    apply Sim.ite
    · exact fun _ => closeFd_blind _
    · exact fun _ => (closeFd_blind _).seq fun _ => closeFd_blind _
  apply (fork_blind _).seq
  intro pid
  apply hclose.seq
  intro _
  apply Sim.ite
  · exact fun hpid => mainStarted_sim slot fds hpid h
  · exact fun _ => mainForkFailed_plain fds h

theorem startMain_plain (slot : Nat) (out0 : Int) : Plain fun s => startMain slot s out0 := by
  intro d s s' h
  have hlog : s'.hasLog = s.hasLog := by
    obtain ⟨⟨m, r, rfl⟩, -, -⟩ := h
    rfl
  dsimp only [startMain]
  rw [hlog]
  -- a logger's pipe, or two fresh ones
  apply Sim.ite
  · exact fun _ => forkMain_plain slot _ h
  · intro _
    apply openPipes_blind.seq
    intro fds
    cases fds with
    | none => exact startFailed_plain h
    | some fds => exact forkMain_plain slot fds h

theorem startService_plain (slot : Nat) : Plain (startService slot) := by
  intro d s s' h
  -- the guard does not look at `manual_start`
  have hguard : (!s'.active || !s'.present || s'.stopping || decide (s'.pid > 0)) =
      (!s.active || !s.present || s.stopping || decide (s.pid > 0)) := by
    obtain ⟨⟨m, r, rfl⟩, -, -⟩ := h
    rfl
  unfold startService
  rw [hguard]
  apply Sim.ite
  · exact fun _ => .pure h
  intro _
  -- then the parts of `start_service`, one after the other
  apply (prepareServiceEnv_plain h).bind
  intro s₁ s₁' h₁
  apply (closeReadEnds_plain h₁).bind
  intro s₂ s₂' h₂
  apply (startLogger_sim slot h₂).bind
  rintro ⟨s₃, out0⟩ ⟨s₃', out0'⟩ ⟨h₃, hout⟩
  cases hout
  exact startMain_plain slot _ h₃

/-! ### Exits -/

/-- The environment of a copy of the record: only the directory matters. -/
theorem prepareServiceEnv_sim (hdir : s'.dir = s.dir) :
    Sim Twin (fun _ _ => True) (prepareServiceEnv s) (prepareServiceEnv s') := by
  -- the same file is read in both runs
  have henv : Sim Twin (fun x x' => x'.dir = x.dir) (readEnv s) (readEnv s') := by
    unfold readEnv
    rw [hdir]
    apply (ask_blind _).seq
    intro data
    rcases data with _ | _ | ⟨c, rest⟩ <;> exact .pure rfl
  apply henv.bind
  intro x x' hx
  unfold checkChroot
  rw [hx]
  exact (ask_blind _).seq fun _ => .pure trivial

/-- The finish script depends on the directory only. -/
theorem runFinish_sim (hdir : s'.dir = s.dir) : Sim Twin Eq (runFinish s) (runFinish s') := by
  unfold runFinish
  rw [hdir]
  apply (ask_blind _).seq
  intro finish
  apply Sim.ite
  · exact fun _ => .pure rfl
  · intro _
    apply (prepareServiceEnv_sim hdir).bind
    intro _ _ _
    exact (fork_blind _).seq fun _ => .pure rfl

theorem signalLogger_plain : Plain signalLogger := by
  rintro d s _ ⟨⟨m, r, rfl⟩, hm, hr⟩
  exact (emit_blind _).seq fun _ => .pure ⟨⟨m, r, rfl⟩, hm, hr⟩

/-- The exit overwrites `restart_at`. -/
theorem accountExit_pend (hsame : ∃ manualStart restartAt, s' = { s with manualStart, restartAt })
    (hmanual : s'.manualStart = s.manualStart ∨ d = true ∧ s'.manualStart = true) (t : Int) :
    Pend d (accountExit s t) (accountExit s' t) := by
  obtain ⟨m, r, rfl⟩ := hsame
  have hnext : nextRestarts { s with manualStart := m, restartAt := r } t = nextRestarts s t := rfl
  -- only `manual_start` still differs: the time of the restart is computed anew
  have haccount : accountExit { s with manualStart := m, restartAt := r } t =
      { accountExit s t with manualStart := m } := by
    unfold accountExit
    rw [hnext]
    generalize nextRestarts s t = restarts
    by_cases hlast : (s.stopping || s.once) = true
    · simp only [if_pos hlast]
    · simp only [if_neg hlast]
      by_cases hmax : restarts > maxRestartsInWindow
      · simp only [if_pos hmax]
      · simp only [if_neg hmax]
  -- and accounting for an exit leaves `manual_start` alone
  have hkeeps : (accountExit s t).manualStart = s.manualStart := by
    unfold accountExit
    generalize nextRestarts s t = restarts
    dsimp only
    split
    · rfl
    · split <;> rfl
  rw [haccount]
  exact ⟨⟨m, _, rfl⟩, hkeeps ▸ hmanual, .inl rfl⟩

theorem reapMain_plain (slot : Nat) (status t : Int) : Plain (reapMain slot status t) := by
  intro d s s' h
  obtain ⟨⟨m, r, rfl⟩, hm, -⟩ := h
  have hfinish : Sim Twin Eq (runFinish (s.exited status))
      (runFinish (Service.exited { s with manualStart := m, restartAt := r } status)) :=
    runFinish_sim rfl
  apply (emit_sim (.inl ⟨rfl, rfl⟩)).seq
  intro _
  apply hfinish.seq
  intro _
  -- the logger may be told in between, in both runs or in none
  have htell : Sim Twin (fun x x' => Pend d (accountExit x t) (accountExit x' t))
      (stopExitedLogger (s.exited status))
      (stopExitedLogger (Service.exited { s with manualStart := m, restartAt := r } status)) := by
    apply Sim.ite
    · intro _
      apply (emit_blind _).seq
      intro _
      apply Sim.pure
      apply accountExit_pend
      · exact ⟨m, r, rfl⟩
      · exact hm
    · intro _
      apply Sim.pure
      apply accountExit_pend
      · exact ⟨m, r, rfl⟩
      · exact hm
  exact htell.bind fun _ _ h₁ => writeStatus_plain h₁

theorem reapLogger_plain : Plain reapLogger := by
  rintro d s _ ⟨⟨m, r, rfl⟩, hm, hr⟩
  exact .pure ⟨⟨m, r, rfl⟩, hm, hr⟩

/-! ### Stopping -/

theorem signalStop_plain : Plain signalStop := by
  rintro d s _ ⟨⟨m, r, rfl⟩, hm, hr⟩
  exact (emit_blind _).seq fun _ => .pure ⟨⟨m, r, rfl⟩, hm, hr⟩

theorem signalStopStatus_plain : Plain signalStopStatus := by
  intro d s s' h
  exact (signalStop_plain h).bind fun _ _ h₁ => writeStatus_plain h₁

theorem stopOrdered_plain : Plain stopOrdered := by
  rintro d s _ ⟨⟨m, r, rfl⟩, hm, hr⟩
  apply Sim.iteBind (A := Pend d)
  · exact fun _ => signalStopStatus_plain ⟨⟨m, r, rfl⟩, hm, hr⟩
  · exact fun _ => .pure ⟨⟨m, r, rfl⟩, hm, hr⟩
  rintro s _ ⟨⟨m, r, rfl⟩, hm, hr⟩
  apply Sim.ite
  · exact fun _ => signalLogger_plain ⟨⟨m, r, rfl⟩, hm, hr⟩
  · exact fun _ => .pure ⟨⟨m, r, rfl⟩, hm, hr⟩

theorem stopRemaining_plain : Plain stopRemaining := by
  rintro d s _ ⟨⟨m, r, rfl⟩, hm, hr⟩
  apply Sim.iteBind (A := Pend d)
  · exact fun _ => signalStop_plain ⟨⟨m, r, rfl⟩, hm, hr⟩
  · exact fun _ => .pure ⟨⟨m, r, rfl⟩, hm, hr⟩
  rintro s _ ⟨⟨m, r, rfl⟩, hm, hr⟩
  apply Sim.ite
  · exact fun _ => signalLogger_plain ⟨⟨m, r, rfl⟩, hm, hr⟩
  · exact fun _ => .pure ⟨⟨m, r, rfl⟩, hm, hr⟩

/-! ### Commands -/

theorem stopSignals_plain : Plain stopSignals := by
  rintro d s _ ⟨⟨m, r, rfl⟩, hm, hr⟩
  have hlogger : Sim Twin (Pend d) (if s.logPid > 0 then signalLogger s else return s)
      (if s.logPid > 0 then signalLogger { s with manualStart := m, restartAt := r }
        else return { s with manualStart := m, restartAt := r }) := by
    apply Sim.ite
    · exact fun _ => signalLogger_plain ⟨⟨m, r, rfl⟩, hm, hr⟩
    · exact fun _ => .pure ⟨⟨m, r, rfl⟩, hm, hr⟩
  apply Sim.ite
  · exact fun _ => (emit_blind _).seq fun _ => hlogger
  · exact fun _ => hlogger

/-- The part that `stop`, `restart` and `down` share. -/
theorem stopStatus_plain (h : Pend d s s') : Sim Twin (Pend d)
    (do let s ← stopSignals s; writeStatusFile s; return s)
    (do let s' ← stopSignals s'; writeStatusFile s'; return s') :=
  (stopSignals_plain h).bind fun _ _ h₁ => writeStatus_plain h₁

theorem runSvcCmd_plain (cmd : SvcCmd) : Plain (runSvcCmd cmd) := by
  rintro d s _ ⟨⟨m, r, rfl⟩, hm, hr⟩
  cases cmd with
  -- `start` and `restart` set the flag, `start` and `up` the time: no difference remains there
  | start => exact .pure ⟨⟨true, 0, rfl⟩, .inl rfl, .inl rfl⟩
  | stop => exact stopStatus_plain ⟨⟨m, r, rfl⟩, hm, hr⟩
  | restart => exact stopStatus_plain ⟨⟨true, r, rfl⟩, .inl rfl, hr⟩
  | down =>
    apply (touchFile_blind _).seq
    intro _
    apply Sim.iteBind (A := Pend d)
    · exact fun _ => stopSignals_plain ⟨⟨m, r, rfl⟩, hm, hr⟩
    · exact fun _ => .pure ⟨⟨m, r, rfl⟩, hm, hr⟩
    · exact fun _ _ h₁ => writeStatus_plain h₁
  | up =>
    apply (emit_blind _).seq
    intro _
    apply monoNow_blind.seq
    intro now
    exact writeStatus_plain ⟨⟨m, now, rfl⟩, hm, .inl rfl⟩
  | once =>
    apply (touchFile_blind _).seq
    intro _
    exact writeStatus_plain ⟨⟨m, r, rfl⟩, hm, hr⟩

theorem acceptCmd_plain (cmd : SvcCmd) (slot : Nat) : Plain (acceptCmd cmd slot) :=
  fun h => (emit_blind _).seq fun _ => runSvcCmd_plain cmd h

/-- So does the check. -/
theorem runCheck_sim (hdir : s'.dir = s.dir) : Sim Twin Eq (runCheck s) (runCheck s') := by
  -- the check is forked and waited for in both runs
  have hfork : Blind forkCheck := by
    apply (fork_blind _).seq
    intro pid
    apply Sim.ite
    · intro _
      apply call_blind.seq
      intro a
      exact (waitpid_blind _ _).seq fun _ => .pure rfl
    · exact fun _ => .pure rfl
  unfold runCheck
  rw [hdir]
  apply (prepareServiceEnv_sim hdir).bind
  intro _ _ _
  apply (ask_blind _).seq
  intro script
  apply Sim.ite
  · exact fun _ => .pure rfl
  · exact fun _ => hfork

/-! ### Scanning -/

theorem newService_blind (slot : Nat) (name : Bytes) (dir : CStrBuf) :
    Blind (newService slot name dir) := by
  -- the same files are looked at in the same order
  have hbuild : Blind (buildService name dir) := by
    apply (ask_blind _).seq
    intro down
    apply (ask_blind _).seq
    intro once
    apply (ask_blind _).seq
    intro depends
    apply (ask_blind _).seq
    intro log
    apply (parseUserGroup_plain.blind _).seq
    intro s
    apply (prepareServiceEnv_plain.blind s).seq
    intro s
    exact (writeStatusFile_sim (.refl (d := false) s)).seq fun _ => .pure rfl
  exact hbuild.seq fun _ => (emit_blind _).seq fun _ => .pure rfl

theorem foundService_plain (slot : Nat) : Plain (foundService slot) := by
  rintro d s _ ⟨⟨m, r, rfl⟩, hm, hr⟩
  apply (emit_blind _).seq
  intro _
  have h : Pend d { s with present := true, stopping := false }
      { s with manualStart := m, restartAt := r, present := true, stopping := false } :=
    ⟨⟨m, r, rfl⟩, hm, hr⟩
  exact (parseUserGroup_plain h).bind fun _ _ h₁ => prepareServiceEnv_plain h₁

theorem releaseMissing_plain (slot : Nat) : Plain (releaseMissing slot) := by
  rintro d s _ ⟨⟨m, r, rfl⟩, hm, hr⟩
  -- the logger is told first, if it was not told before
  apply Sim.iteBind (A := Pend d)
  · exact fun _ => signalLogger_plain ⟨⟨m, r, rfl⟩, hm, hr⟩
  · exact fun _ => .pure ⟨⟨m, r, rfl⟩, hm, hr⟩
  rintro s _ ⟨⟨m, r, rfl⟩, hm, hr⟩
  apply Sim.ite
  · intro _
    apply (closeServiceFds_plain ⟨⟨m, r, rfl⟩, hm, hr⟩).bind
    rintro s _ ⟨⟨m, r, rfl⟩, hm, hr⟩
    have h : Pend d { s with active := false, state := .down }
        { s with manualStart := m, restartAt := r, active := false, state := .down } :=
      ⟨⟨m, r, rfl⟩, hm, hr⟩
    apply (writeStatusFile_sim h).seq
    intro _
    exact (emit_blind _).seq fun _ => .pure h
  · exact fun _ => .pure ⟨⟨m, r, rfl⟩, hm, hr⟩

end

end SvcRs
