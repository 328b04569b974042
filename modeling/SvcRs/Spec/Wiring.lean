import SvcRs.Spec.Loggers
import SvcRs.Spec.OpenFiles

/-!
# How the output of a service is wired

A start makes pipes, forks one or two children that copy the ends to their standard streams, and
closes what it does not need. Afterwards the pipes are where they should be: with a logger, the two
output streams of the main process and the standard input of the logger are the only ends of one
pipe; without one, each stream has a pipe of its own, and the record has its read end.

## Key results

- `startService_logged`, `startService_piped`: one start
- `output_wired`: every successful start in every run
-/

namespace SvcRs

open Transition (run)

/-! ## Calls of a start -/

section

variable {slot : Nat} {s s' : Service} {k k' : Kernel} {sf : StartFds}

/-- A pipe that was made has two new descriptors. -/
theorem newPipe_some {r w : Int} (h : newPipe k = (some (r, w), k')) :
    (0 ≤ r ∧ 0 ≤ w ∧ r ≠ w ∧ r ∉ k.fds ∧ w ∉ k.fds) ∧ k'.fds = r :: w :: k.fds ∧
      k'.trace = .piped r w :: k.trace := by
  unfold newPipe at h
  rw [Sys.bind_apply] at h
  split at h
  · split at h
    · next hfds =>
      cases h
      exact ⟨hfds, rfl, rfl⟩
    · cases h
  · cases h

/-- A fork that succeeds is in the trace. -/
theorem fork_trace (role : Role) (k : Kernel) :
    (fork role k).1 ≤ 0 ∧ (fork role k).2.trace = k.trace ∨
      (fork role k).2.trace = .fork role (fork role k).1 :: k.trace := by
  have hrun : fork role k =
      (if 1 < (k.oracle k.calls).fork ∧ ∀ c ∈ k.children, c.pid ≠ (k.oracle k.calls).fork then
        ((k.oracle k.calls).fork, { k with
          calls := k.calls + 1
          children := ⟨(k.oracle k.calls).fork, role⟩ :: k.children
          trace := .fork role (k.oracle k.calls).fork :: k.trace })
      else (-1, { k with calls := k.calls + 1 })) := rfl
  -- an answer that is no fresh pid counts as a failure
  rw [hrun]
  split
  · exact .inr rfl
  · exact .inl ⟨by simp, rfl⟩

/-- A fork changes nothing about files. -/
theorem fork_files (base : List Int) (role : Role) (k : Kernel) :
    filesAfter base (fork role k).2.trace = filesAfter base k.trace ∧
      k.trace.length ≤ (fork role k).2.trace.length := by
  cases fork_trace role k with
  | inl h =>
    rw [h.2]
    exact ⟨rfl, Nat.le_refl _⟩
  | inr h =>
    rw [h]
    exact ⟨rfl, Nat.le_succ _⟩

/-- So is a close. -/
theorem closeFd_trace {fd : Int} (h : 0 ≤ fd) (k : Kernel) :
    (closeFd fd k).2.trace = .closed fd :: k.trace := by
  unfold closeFd
  rw [if_pos h]

/-- A logger was forked: its pipe, and what is left of it in the supervisor. -/
theorem startLogger_logged (hlog : (startLogger slot s k).1.1.hasLog = true) :
    ∃ r w k₀ k₁ pid, k₀.trace = k.trace ∧ k₀.fds = k.fds ∧ Calls k k₀ ∧
      newPipe k₀ = (some (r, w), k₁) ∧ loggerPipe s k = (some (r, w), k₁) ∧
      (startLogger slot s k).1.2 = w ∧
      (startLogger slot s k).2.trace = .closed r :: .fork (.logger slot) pid :: k₁.trace := by
  unfold startLogger loggerPipe at *
  -- each of the three tests of `start_logger` was passed, or `has_log` would be false
  cases hhas : s.hasLog with
  | false => simp [hhas] at hlog
  | true =>
    simp only [hhas, Bool.not_true, Bool.false_eq_true, if_false, Sys.bind_apply] at hlog ⊢
    have hcalls : Calls k (access (joinPath s.dir "/log/run") .exec k).2 := (answer_byCalls _).rel k
    have htrace : (access (joinPath s.dir "/log/run") .exec k).2.trace = k.trace := rfl
    have hfds : (access (joinPath s.dir "/log/run") .exec k).2.fds = k.fds := rfl
    generalize access (joinPath s.dir "/log/run") .exec k = a at hlog hcalls htrace hfds ⊢
    obtain ⟨ok, k₀⟩ := a
    cases ok with
    | false => cases hlog
    | true =>
      simp only [Bool.not_true, Bool.false_eq_true, if_false, Sys.bind_apply] at hlog ⊢
      cases hpipe : newPipe k₀ with
      | mk ends k₁ =>
        rw [hpipe] at hlog
        cases ends with
        | none => cases hlog
        | some ends =>
          obtain ⟨r, w⟩ := ends
          have hr := (newPipe_some hpipe).1.1
          simp only [Sys.bind_apply] at hlog ⊢
          split at hlog
          · next hpid =>
            refine ⟨r, w, k₀, k₁, (fork (.logger slot) k₁).1, htrace, hfds, hcalls, hpipe, rfl, ?_, ?_⟩
            · rw [if_pos hpid]
              rfl
            -- the parent closes the read end after the fork
            · rw [if_pos hpid]
              have hclosed := closeFd_trace hr (monoNow (fork (.logger slot) k₁).2).2
              have hforked := (fork_trace (.logger slot) k₁).resolve_left fun h =>
                absurd hpid (Int.not_lt.mpr h.1)
              exact hclosed.trans (congrArg _ hforked)
          · cases hlog

/-- Two pipes were made, one after the other. -/
theorem openPipes_some (h : openPipes k = (some sf, k')) :
    ∃ k₁, newPipe k = (some (sf.out0, sf.out1), k₁) ∧ newPipe k₁ = (some (sf.err0, sf.err1), k') := by
  unfold openPipes at h
  rw [Sys.bind_apply] at h
  -- both calls of `pipe` succeeded
  cases hout : newPipe k with
  | mk out k₁ =>
    rw [hout] at h
    cases out with
    | none => cases h
    | some out =>
      obtain ⟨outRead, outWrite⟩ := out
      dsimp only at h
      rw [Sys.bind_apply] at h
      cases herr : newPipe k₁ with
      | mk err k₂ =>
        rw [herr] at h
        cases err with
        | none => cases h
        | some err =>
          cases h
          exact ⟨k₁, rfl, herr⟩

/-- A start is what comes before the fork, and the fork. -/
theorem startService_beforeMain (hgo : PassesGuard s) (k : Kernel) :
    startService slot s k = match beforeMain slot s k with
      | ((s', none), k') => startFailed s' k'
      | ((s', some sf), k') => forkMain slot s' sf k' := by
  -- the guard was passed
  have hgo : (!s.active || !s.present || s.stopping || s.pid > 0) = false := hgo
  simp only [startService, beforeMain, hgo, Bool.false_eq_true, if_false, Sys.bind_apply]
  generalize closeReadEnds (prepareServiceEnv s k).1 (prepareServiceEnv s k).2 = r
  obtain ⟨s₂, k₂⟩ := r
  generalize startLogger slot s₂ k₂ = r
  obtain ⟨⟨s₃, out0⟩, k₃⟩ := r
  dsimp only
  unfold startMain
  -- with a logger there are no pipes to open
  cases s₃.hasLog with
  | true => rfl
  | false =>
    simp only [Bool.false_eq_true, if_false, Sys.bind_apply]
    generalize openPipes k₃ = r
    obtain ⟨ends, k₄⟩ := r
    cases ends <;> rfl

/-- The record after `prepare_service_env` and the closing of the old read ends. -/
def readsClosed (s : Service) : Sys Service := do
  let s ← prepareServiceEnv s
  closeReadEnds s

/-- The record at the fork of the main process is the one that the logger's part returns. -/
theorem beforeMain_record (slot : Nat) (s : Service) (k : Kernel) :
    (beforeMain slot s k).1.1 = (startLogger slot (readsClosed s k).1 (readsClosed s k).2).1.1 := by
  unfold beforeMain readsClosed
  simp only [Sys.bind_apply]
  split <;> rfl

/-- Either a logger was forked, or there are two pipes. -/
theorem beforeMain_some (h : beforeMain slot s k = ((s', some sf), k')) :
    ∃ out0 k₁, startLogger slot (readsClosed s k).1 (readsClosed s k).2 = ((s', out0), k₁) ∧
      (s'.hasLog = true ∧ sf = { out0 } ∧ k' = k₁ ∨
        s'.hasLog = false ∧ openPipes k₁ = (some sf, k')) := by
  -- the same run with the result of `start_logger` named
  have hrun : beforeMain slot s k =
      (let r := startLogger slot (readsClosed s k).1 (readsClosed s k).2
      (if r.1.1.hasLog then pure (r.1.1, some { out0 := r.1.2 })
        else do return (r.1.1, ← openPipes) : Sys (Service × Option StartFds)) r.2) := rfl
  rw [hrun] at h
  generalize startLogger slot (readsClosed s k).1 (readsClosed s k).2 = r at h ⊢
  obtain ⟨⟨s₁, out0⟩, k₁⟩ := r
  cases hlog : s₁.hasLog with
  | true =>
    simp only [hlog, if_true] at h
    cases h
    exact ⟨_, _, rfl, .inl ⟨hlog, rfl, rfl⟩⟩
  | false =>
    simp only [hlog, Bool.false_eq_true, if_false, Sys.bind_apply] at h
    generalize hopen : openPipes k₁ = ends at h
    obtain ⟨ends, k₂⟩ := ends
    cases h
    exact ⟨_, _, rfl, .inr ⟨hlog, hopen⟩⟩

/-- What comes before the fork is made of system calls. -/
theorem beforeMain_byCalls (slot : Nat) (s : Service) : ByCalls (beforeMain slot s) :=
  (prepareServiceEnv_byCalls s).seq fun s₁ => (closeReadEnds_byCalls s₁).seq fun s₂ =>
    (startLogger_byCalls slot s₂).seq fun _ => .ite (fun _ => .pure trivial) fun _ =>
      openPipes_byCalls.seq fun _ => .pure trivial

end

/-! ## Before the forks -/

/-- What a child is after the fork, if its calls for the standard streams will succeed. -/
structure Forked (k : Kernel) (p : Proc) : Prop extends StreamCalls p where
  fds : p.fds = k.fdTable

/-- The accounts are right, the descriptors of the record are on them, and the standard streams
    were open in the beginning. -/
structure OnBooks (base : List Int) (s : Service) (k : Kernel) : Prop where
  accounted : k.Accounted { base }
  owned : ∃ rest, k.free { base } = s.fds + rest
  traced : Traced base k
  std : ∀ fd, 0 ≤ fd → fd ≤ 2 → fd ∈ base

section

variable {base : List Int} {slot : Nat} {s s' : Service} {k k' : Kernel} {sf : StartFds}

/-- A new descriptor is not a standard one. -/
theorem OnBooks.above (h : OnBooks base s k) {fd : Int} (hfd : 0 ≤ fd) (hfresh : fd ∉ k.fds) :
    2 < fd := by
  by_contra hlow
  have hbase : fd ∈ (base : Multiset Int) := h.std fd hfd (by omega)
  have hmem : fd ∈ (k.fds : Multiset Int) := by
    rw [h.accounted.fds]
    exact Multiset.mem_add.mpr (.inr hbase)
  exact hfresh hmem

/-- A computation that hands the descriptors of the record on. -/
theorem OnBooks.hands {α : Type} {m : Sys α} {b : α → Multiset Int} {Q : α → Prop}
    (h : OnBooks base s k) (hm : Hands { base } s.fds m b Q) :
    (m k).2.Accounted { base } ∧ (∃ rest, (m k).2.free { base } = b (m k).1 + rest) ∧ Q (m k).1 := by
  obtain ⟨rest, hrest⟩ := h.owned
  obtain ⟨hok, hfree, hQ⟩ := hm k rest h.accounted hrest
  exact ⟨hok, ⟨rest, hfree⟩, hQ⟩

/-- A step whose descriptors are accounted for. -/
theorem OnBooks.step {m : Sys Service} {Q : Service → Prop} (h : OnBooks base s k)
    (hm : Hands { base } s.fds m Service.fds Q) (hcalls : ByCalls m) :
    OnBooks base (m k).1 (m k).2 ∧ Q (m k).1 := by
  obtain ⟨hok, hfree, hQ⟩ := h.hands hm
  exact ⟨⟨hok, hfree, h.traced.calls (hcalls.rel k), h.std⟩, hQ⟩

/-- The read ends of the last run are closed first. -/
theorem OnBooks.readsClosed (h : OnBooks base s k) :
    OnBooks base (readsClosed s k).1 (readsClosed s k).2 ∧ (SvcRs.readsClosed s k).1.NoReads := by
  have henv := h.step (prepareServiceEnv_leavesFds s).keeps (prepareServiceEnv_byCalls s)
  have hclose := henv.1.step (closeReadEnds_hands _) (closeReadEnds_byCalls _)
  exact ⟨hclose.1, hclose.2.2⟩

/-! ## With a logger -/

/-- The fork of a logger, and what is left of its pipe in the supervisor. -/
theorem startLogger_wired (h : OnBooks base s k) (hlog : (startLogger slot s k).1.1.hasLog = true) :
    ∃ r w k₁ pipe, loggerPipe s k = (some (r, w), k₁) ∧ (startLogger slot s k).1.2 = w ∧ 2 < w ∧
      (∀ p, Forked k₁ p →
        Ends (programFiles s p (filesAfter base k₁.trace) (.logRun r w)) pipe {0} ∅) ∧
      pipe < (startLogger slot s k).2.trace.length ∧
      Ends (filesAfter base (startLogger slot s k).2.trace) pipe ∅ {w} := by
  obtain ⟨r, w, k₀, k₁, pid, htrace, hfds, hcalls, hpipe, hends, hout, hafter⟩ :=
    startLogger_logged hlog
  obtain ⟨⟨hr, hw, hrw, hrfresh, hwfresh⟩, -, hpiped⟩ := newPipe_some hpipe
  rw [hfds] at hrfresh hwfresh
  -- the pipe has its two ends
  have hmade : Ends (filesAfter base k₁.trace) k₀.trace.length {r} {w} := by
    rw [hpiped]
    exact ends_piped base _ hrw
  have htraced : Traced base k₁ := by
    have hmake : Calls k₀ k₁ := by
      have := newPipe_byCalls.rel k₀
      rwa [hpipe] at this
    exact h.traced.calls (hcalls.trans hmake)
  have hlength : k₀.trace.length < k₁.trace.length := by
    rw [hpiped]
    exact Nat.lt_succ_self _
  refine ⟨r, w, k₁, k₀.trace.length, hends, hout, h.above hw hwfresh, fun p hp => ?_, ?_, ?_⟩
  -- the logger's child has the read end as its input
  · apply loggerProgram _ hp.toStreamCalls (h.above hr hrfresh) (h.above hw hwfresh) hmade
    rw [hp.fds]
    exact htraced.agrees
  · rw [hafter, List.length_cons, List.length_cons]
    omega
  -- the parent has closed the read end and keeps the write end
  · rw [hafter]
    have hfork := hmade.event (.fork (.logger slot) pid) (by omega)
    apply (hfork.event (.closed r) (by rw [List.length_cons]; omega)).congr
    · simp
    · ext n
      simp only [Event.touches_closed, Event.touches_fork, Set.mem_sdiff, Set.mem_singleton_iff,
        Set.mem_empty_iff_false, not_false_eq_true, and_true]
      omega

/-- With a logger, nothing of the pipe is left in the supervisor after the fork. -/
theorem forkMain_logged (hlog : s.hasLog = true) (hout : 0 ≤ sf.out0) {pipe : Nat}
    (hmade : pipe < k.trace.length) (h : Ends (filesAfter base k.trace) pipe ∅ {sf.out0}) :
    Ends (filesAfter base (forkMain slot s sf k).2.trace) pipe ∅ ∅ := by
  obtain ⟨hfiles, hlength⟩ := fork_files base (.main slot) k
  -- the write end is closed after the fork, and with it the last end in the parent
  have hclosed : Ends (filesAfter base (closeFd sf.out0 (fork (.main slot) k).2).2.trace) pipe ∅ ∅ := by
    rw [closeFd_trace hout]
    have hfork : Ends (filesAfter base (fork (.main slot) k).2.trace) pipe ∅ {sf.out0} := hfiles ▸ h
    exact (hfork.event (.closed sf.out0) (by omega)).congr (by simp) (by simp)
  have hends : (closeChildEnds s sf (fork (.main slot) k).2).2 =
      (closeFd sf.out0 (fork (.main slot) k).2).2 := by
    unfold closeChildEnds
    rw [if_pos hlog]
  -- what follows opens other files
  have hrest : ByCalls (if (fork (.main slot) k).1 > 0
      then mainStarted slot s sf (fork (.main slot) k).1 else mainForkFailed s sf) :=
    .ite (fun _ => mainStarted_byCalls slot s sf _) fun _ => mainForkFailed_byCalls s sf
  have hmade' : pipe < (closeFd sf.out0 (fork (.main slot) k).2).2.trace.length := by
    rw [closeFd_trace hout, List.length_cons]
    omega
  have hcalls := hrest.rel (closeFd sf.out0 (fork (.main slot) k).2).2
  unfold forkMain
  rw [Sys.bind_apply, Sys.bind_apply, hends]
  exact hclosed.calls hmade' hcalls

/-- The output of a service with a logger: both streams of the program go to the standard input
    of the logger, and there is no other end of the pipe. -/
theorem startService_logged (h : OnBooks base s k) (hgo : PassesGuard s)
    (hmain : beforeMain slot s k = ((s', some sf), k')) (hlog : s'.hasLog = true) :
    ∃ s₀ r w k₀ pipe, beforeLogger s k = ((s₀, some (r, w)), k₀) ∧
      (∀ p, Forked k₀ p →
        Ends (programFiles s₀ p (filesAfter base k₀.trace) (.logRun r w)) pipe {0} ∅) ∧
      (∀ p, Forked k' p →
        programFiles s' p (filesAfter base k'.trace) (.run sf) 0 = some .null ∧
        Ends (programFiles s' p (filesAfter base k'.trace) (.run sf)) pipe ∅ {1, 2}) ∧
      Ends (filesAfter base (startService slot s k).2.trace) pipe ∅ ∅ := by
  have htraced : Traced base k' := by
    have hbefore := h.traced.calls ((beforeMain_byCalls slot s).rel k)
    rwa [hmain] at hbefore
  -- with a logger, the output goes into its pipe
  obtain ⟨out0, k₁, hlogger, hcases⟩ := beforeMain_some hmain
  obtain ⟨-, rfl, rfl⟩ := hcases.resolve_right fun hno => by simp [hlog] at hno
  have hstarted : (startLogger slot (readsClosed s k).1 (readsClosed s k).2).1.1.hasLog = true := by
    rw [hlogger]
    exact hlog
  have hwired := startLogger_wired h.readsClosed.1 hstarted
  rw [hlogger] at hwired
  obtain ⟨r, w, k₀, pipe, hends, rfl, hw, hchild, hmade, hleft⟩ := hwired
  have hw : 2 < out0 := hw
  refine ⟨(readsClosed s k).1, r, out0, k₀, pipe, ?_, hchild, fun p hp => ?_, ?_⟩
  · have hrun : beforeLogger s k =
        (((readsClosed s k).1, (loggerPipe (readsClosed s k).1 (readsClosed s k).2).1),
          (loggerPipe (readsClosed s k).1 (readsClosed s k).2).2) := rfl
    rw [hrun, hends]
  -- the main process writes into it
  · apply mainProgram_logged _ hp.toStreamCalls hlog hw hleft
    rw [hp.fds]
    exact htraced.agrees
  -- and the supervisor keeps neither end
  · rw [startService_beforeMain hgo, hmain]
    exact forkMain_logged hlog (show 0 ≤ out0 by omega) hmade hleft

/-! ## Without a logger -/

/-- Two new pipes, of which nothing is a standard stream. -/
theorem openPipes_wired (h : OnBooks base s k) (hopen : openPipes k = (some sf, k')) :
    ∃ out err, out ≠ err ∧ out < k'.trace.length ∧ err < k'.trace.length ∧
      (2 < sf.out0 ∧ 2 < sf.out1 ∧ 2 < sf.err0 ∧ 2 < sf.err1) ∧
      Ends (filesAfter base k'.trace) out {sf.out0} {sf.out1} ∧
      Ends (filesAfter base k'.trace) err {sf.err0} {sf.err1} := by
  obtain ⟨k₁, hout, herr⟩ := openPipes_some hopen
  obtain ⟨⟨hout0, hout1, hne, hfresh0, hfresh1⟩, hfds, htrace⟩ := newPipe_some hout
  obtain ⟨⟨herr0, herr1, hne', hfresh0', hfresh1'⟩, -, htrace'⟩ := newPipe_some herr
  rw [hfds, List.mem_cons, List.mem_cons, not_or, not_or] at hfresh0' hfresh1'
  have hmade : Ends (filesAfter base k₁.trace) k.trace.length {sf.out0} {sf.out1} := by
    rw [htrace]
    exact ends_piped base _ hne
  have hlength : k₁.trace.length = k.trace.length + 1 := by rw [htrace, List.length_cons]
  have hlength' : k'.trace.length = k₁.trace.length + 1 := by rw [htrace', List.length_cons]
  -- a pipe is known by the position of its event in the trace
  refine ⟨k.trace.length, k₁.trace.length, by omega, by omega, by omega,
    ⟨h.above hout0 hfresh0, h.above hout1 hfresh1, h.above herr0 hfresh0'.2.2,
      h.above herr1 hfresh1'.2.2⟩, ?_, ?_⟩
  · rw [htrace']
    show Ends (filesAfter base ([.piped sf.err0 sf.err1] ++ k₁.trace)) _ _ _
    apply hmade.since (by omega)
    intro e he fd hfd
    -- the second pipe has other descriptors
    simp only [List.mem_singleton] at he
    subst he
    simp only [Set.mem_singleton_iff] at hfd
    have hother : fd ≠ sf.err0 ∧ fd ≠ sf.err1 := by omega
    simpa [Event.opens, Event.closes] using hother
  · rw [htrace']
    exact ends_piped base _ hne'

/-- The log files of a record. -/
def Service.logFds (s : Service) : Multiset Int := ownFd s.out.logFd + ownFd s.err.logFd

/-- The read ends stay in the record when both logs are opened. -/
theorem openLogs_reads {books : Books} (s : Service) :
    Hands books s.logFds (openLog false s >>= openLog true) Service.logFds
      fun s' => s'.out.readFd = s.out.readFd ∧ s'.err.readFd = s.err.readFd := by
  apply (openLog_handsLog false s).give (r := ownFd s.err.logFd) rfl
  intro s₁ h₁
  obtain ⟨st, hread, rfl⟩ := h₁
  -- the second log is opened in a record whose read ends are those of the first
  have hlast : HandsLog books true (s.setStream false st) (openLog true (s.setStream false st)) :=
    openLog_handsLog true _
  apply (hlast.frame (ownFd st.logFd)).weaken (add_comm (ownFd st.logFd) (ownFd s.err.logFd))
  · intro s₂ h₂
    obtain ⟨st', -, rfl⟩ := h₂
    exact add_comm _ _
  · intro s₂ h₂
    obtain ⟨st', hread', rfl⟩ := h₂
    exact ⟨hread, hread'⟩

/-- Without a logger, the record gets the read ends of the pipes. -/
theorem mainStarted_reads {books : Books} (hlog : s.hasLog = false) (pid : Int) :
    Hands books s.logFds (mainStarted slot s sf pid) Service.logFds
      fun s' => s'.out.readFd = sf.out0 ∧ s'.err.readFd = sf.err0 := by
  apply monoNow_noFds.skip
  intro now _
  apply (emit_noFds rfl rfl).skip
  intro _ _
  -- without a logger the read ends move into the record
  have hattach : Hands books s.logFds (attachStreams (s.started pid now) sf) Service.logFds
      fun s' => s'.out.readFd = sf.out0 ∧ s'.err.readFd = sf.err0 := by
    unfold attachStreams
    have hlog' : ¬(s.started pid now).hasLog = true := by
      show ¬s.hasLog = true
      simp [hlog]
    let s₀ : Service := { s.started pid now with
      out := { s.out with readFd := sf.out0 }, err := { s.err with readFd := sf.err0 } }
    rw [if_neg hlog']
    exact openLogs_reads s₀
  apply hattach.bind
  intro s₁ h₁
  exact (writeStatusFile_noFds s₁).skip fun _ _ => .pure rfl h₁

/-- The supervisor closes the write ends of both pipes. -/
theorem closeChildEnds_piped (hlog : s.hasLog = false)
    (hlow : 0 ≤ sf.out0 ∧ 0 ≤ sf.out1 ∧ 0 ≤ sf.err0 ∧ 0 ≤ sf.err1) {out err : Nat}
    (hout : out < k.trace.length) (herr : err < k.trace.length)
    (houts : Ends (filesAfter base k.trace) out {sf.out0} {sf.out1})
    (herrs : Ends (filesAfter base k.trace) err {sf.err0} {sf.err1}) :
    (closeChildEnds s sf k).2.trace.length = k.trace.length + 2 ∧
      Ends (filesAfter base (closeChildEnds s sf k).2.trace) out {sf.out0} ∅ ∧
      Ends (filesAfter base (closeChildEnds s sf k).2.trace) err {sf.err0} ∅ := by
  have htrace : (closeChildEnds s sf k).2.trace = .closed sf.err1 :: .closed sf.out1 :: k.trace := by
    unfold closeChildEnds
    rw [if_neg (by simp [hlog]), Sys.bind_apply, closeFd_trace hlow.2.2.2, closeFd_trace hlow.2.1]
  have hclosed : ∀ {pipe : Nat} {r w : Set Int}, pipe < k.trace.length →
      Ends (filesAfter base k.trace) pipe r w →
      Ends (filesAfter base (closeChildEnds s sf k).2.trace) pipe ((r \ {sf.out1}) \ {sf.err1})
        ((w \ {sf.out1}) \ {sf.err1}) := by
    intro pipe r w hmade h
    -- one close after the other
    have hfirst := h.event (.closed sf.out1) (by omega)
    have hsecond := hfirst.event (.closed sf.err1) (by rw [List.length_cons]; omega)
    rw [htrace]
    simpa only [Event.touches_closed] using hsecond
  -- an open descriptor is one end of one pipe
  have hself : sf.out0 ≠ sf.out1 := houts.read_ne_write houts rfl rfl
  have hself' : sf.err0 ≠ sf.err1 := herrs.read_ne_write herrs rfl rfl
  have hcross : sf.out0 ≠ sf.err1 := houts.read_ne_write herrs rfl rfl
  have hcross' : sf.err0 ≠ sf.out1 := herrs.read_ne_write houts rfl rfl
  refine ⟨by rw [htrace, List.length_cons, List.length_cons], ?_, ?_⟩
  · apply (hclosed hout houts).congr <;>
      · ext n
        simp only [Set.mem_sdiff, Set.mem_singleton_iff, Set.mem_empty_iff_false, iff_false]
        omega
  · apply (hclosed herr herrs).congr <;>
      · ext n
        simp only [Set.mem_sdiff, Set.mem_singleton_iff, Set.mem_empty_iff_false, iff_false]
        omega

/-- The end of a start without a logger: the write ends are closed, the read ends stay. -/
theorem forkMain_piped (hacc : k.Accounted { base })
    (howned : ∃ rest, k.free { base } = sf.fds + (s.logFds + rest)) (hlog : s.hasLog = false)
    (hlow : 0 ≤ sf.out0 ∧ 0 ≤ sf.out1 ∧ 0 ≤ sf.err0 ∧ 0 ≤ sf.err1) (hup : 0 < (fork (.main slot) k).1)
    {out err : Nat} (hout : out < k.trace.length) (herr : err < k.trace.length)
    (houts : Ends (filesAfter base k.trace) out {sf.out0} {sf.out1})
    (herrs : Ends (filesAfter base k.trace) err {sf.err0} {sf.err1}) :
    let r := forkMain slot s sf k
    Ends (filesAfter base r.2.trace) out {r.1.out.readFd} ∅ ∧
      Ends (filesAfter base r.2.trace) err {r.1.err.readFd} ∅ := by
  obtain ⟨rest, hfree⟩ := howned
  obtain ⟨hok₁, hfree₁, -⟩ := fork_noFds (.main slot) k _ hacc (hfree.trans (zero_add _).symm)
  obtain ⟨hfiles, hlength⟩ := fork_files base (.main slot) k
  rw [← hfiles] at houts herrs
  have hrun : forkMain slot s sf k =
      mainStarted slot s sf (fork (.main slot) k).1 (closeChildEnds s sf (fork (.main slot) k).2).2 := by
    unfold forkMain
    rw [Sys.bind_apply, Sys.bind_apply, if_pos hup]
  generalize (fork (.main slot) k).1 = pid at hrun
  generalize (fork (.main slot) k).2 = k₁ at hok₁ hfree₁ hfiles hlength houts herrs hrun
  -- the write ends
  have hgiven : k₁.free { base } = sf.given s.hasLog + (s.logFds + rest) := by
    rw [StartFds.given, hlog]
    exact hfree₁.trans (zero_add _)
  obtain ⟨hok₂, hfree₂, -⟩ := closeChildEnds_hands s sf k₁ _ hok₁ hgiven
  obtain ⟨hlength₂, houts₂, herrs₂⟩ := closeChildEnds_piped hlog hlow (by omega) (by omega) houts herrs
  generalize (closeChildEnds s sf k₁).2 = k₂ at hok₂ hfree₂ hlength₂ houts₂ herrs₂ hrun
  -- nothing that follows touches the read ends
  let books : Books := { base, spared := {sf.out0} + {sf.err0}, start := k₂.trace }
  have hheld : k₂.held = {sf.out0} + {sf.err0} + (s.logFds + rest) := by
    rw [hok₂.held_eq, hfree₂, StartFds.kept, hlog, if_neg (by simp), ownFd_open hlow.1,
      ownFd_open hlow.2.2.1, add_zero]
  have hbooks : k₂.Accounted books :=
    { fds := hok₂.fds, nodup := hok₂.nodup, solvent := hok₂.solvent
      kept := hheld ▸ Multiset.le_add_right _ _
      events := ⟨[], rfl, fun _ he => absurd he List.not_mem_nil⟩ }
  have hfree₃ : k₂.free books = s.logFds + rest := by
    rw [Kernel.free, hheld]
    exact add_tsub_cancel_left _ _
  have hreads : Hands books s.logFds (mainStarted slot s sf pid) _ _ := mainStarted_reads hlog pid
  obtain ⟨hok₃, -, hread, hread'⟩ := hreads k₂ rest hbooks hfree₃
  intro r
  have hr : r = mainStarted slot s sf pid k₂ := hrun
  rw [hr, hread, hread']
  constructor
  · exact houts₂.spared (by omega) rfl (by simp [books]) hok₃
  · exact herrs₂.spared (by omega) rfl (by simp [books]) hok₃

/-- The output of a service without a logger: each stream of the program goes to a pipe of which
    the record has the read end, and there is no other end. -/
theorem startService_piped (h : OnBooks base s k) (hgo : PassesGuard s)
    (hmain : beforeMain slot s k = ((s', some sf), k')) (hlog : s'.hasLog = false)
    (hup : 0 < (fork (.main slot) k').1) :
    let r := startService slot s k
    ∃ out err, out ≠ err ∧
      (∀ p, Forked k' p →
        programFiles s' p (filesAfter base k'.trace) (.run sf) 0 = some .null ∧
        Ends (programFiles s' p (filesAfter base k'.trace) (.run sf)) out ∅ {1} ∧
        Ends (programFiles s' p (filesAfter base k'.trace) (.run sf)) err ∅ {2}) ∧
      Ends (filesAfter base r.2.trace) out {r.1.out.readFd} ∅ ∧
      Ends (filesAfter base r.2.trace) err {r.1.err.readFd} ∅ := by
  have htraced : Traced base k' := by
    have hbefore := h.traced.calls ((beforeMain_byCalls slot s).rel k)
    rwa [hmain] at hbefore
  obtain ⟨out0, k₁, hlogger, hcases⟩ := beforeMain_some hmain
  obtain ⟨-, hopen⟩ := hcases.resolve_left fun hyes => by simp [hlog] at hyes
  obtain ⟨hready, hnoReads⟩ := h.readsClosed
  -- the record and the books after the logger's part
  obtain ⟨hok, hfree, hsame⟩ := hready.hands (startLogger_hands slot _)
  have hcalls := (startLogger_byCalls slot (readsClosed s k).1).rel (readsClosed s k).2
  rw [hlogger] at hok hfree hsame hcalls
  have hbooks : OnBooks base s' k₁ := by
    refine ⟨hok, ?_, hready.traced.calls hcalls, h.std⟩
    obtain ⟨rest, hrest⟩ := hfree
    exact ⟨rest, by simpa [hlog] using hrest⟩
  have hlogFds : s'.fds = s'.logFds := by
    have hout : s'.out.readFd = -1 := (congrArg Stream.readFd hsame.out).trans hnoReads.1
    have herr : s'.err.readFd = -1 := (congrArg Stream.readFd hsame.err).trans hnoReads.2
    simp only [Service.fds, Stream.fds, hout, herr, ownFd_none, zero_add, Service.logFds]
  obtain ⟨out, err, hne, hout, herr, hlow, houts, herrs⟩ := openPipes_wired hbooks hopen
  have hends : ∀ fd ∈ sf.ends s', 2 < fd := by
    simp only [StartFds.ends, hlog, Bool.false_eq_true, if_false, List.forall_mem_cons]
    exact ⟨hlow.1, hlow.2.2.1, hlow.2.1, hlow.2.2.2, by simp⟩
  refine ⟨out, err, hne, fun p hp => ?_, ?_⟩
  · apply mainProgram_piped _ hp.toStreamCalls hlog hends hne houts herrs
    rw [hp.fds]
    exact htraced.agrees
  · obtain ⟨rest, hrest⟩ := hbooks.owned
    obtain ⟨hok', hfree', -⟩ := openPipes_hands k₁ (s'.fds + rest) hbooks.accounted
      (hrest.trans (zero_add _).symm)
    rw [hopen] at hok' hfree'
    rw [startService_beforeMain hgo, hmain]
    exact forkMain_piped hok' ⟨rest, by rw [← hlogFds]; exact hfree'⟩ hlog
      ⟨by omega, by omega, by omega, by omega⟩ hup hout herr houts herrs

end

/-! ## Whole runs -/

/-- Both streams go to the logger, and there is no other end of their pipe. -/
def ToLogger (base : List Int) (s : Service) (k k₁ k' : Kernel) (main : Proc → Files) : Prop :=
  ∃ s₀ r w k₀ pipe, beforeLogger s k = ((s₀, some (r, w)), k₀) ∧
    (∀ p, Forked k₀ p →
      Ends (programFiles s₀ p (filesAfter base k₀.trace) (.logRun r w)) pipe {0} ∅) ∧
    (∀ p, Forked k₁ p → Ends (main p) pipe ∅ {1, 2}) ∧
    Ends (filesAfter base k'.trace) pipe ∅ ∅

/-- Each stream goes to a pipe of which the record `s'` has the read end, and there is no other
    end of it. -/
def ToSupervisor (base : List Int) (s' : Service) (k₁ k' : Kernel) (main : Proc → Files) : Prop :=
  ∃ out err, out ≠ err ∧
    (∀ p, Forked k₁ p → Ends (main p) out ∅ {1} ∧ Ends (main p) err ∅ {2}) ∧
    Ends (filesAfter base k'.trace) out {s'.out.readFd} ∅ ∧
    Ends (filesAfter base k'.trace) err {s'.err.readFd} ∅

/-- The streams of the program that is started for the record `s` in `k`; the start ends with the
    record `s'` in `k'`. -/
def OutputWired (base : List Int) (slot : Nat) (s : Service) (k : Kernel) (s' : Service)
    (k' : Kernel) : Prop :=
  ∃ s₁ sf k₁, beforeMain slot s k = ((s₁, some sf), k₁) ∧
    let main := fun p => programFiles s₁ p (filesAfter base k₁.trace) (.run sf)
    (∀ p, Forked k₁ p → main p 0 = some .null) ∧
    if s₁.hasLog then ToLogger base s k k₁ k' main else ToSupervisor base s' k₁ k' main

/-- The logger is not the main process. -/
theorem startLogger_pid (slot : Nat) (s : Service) (k : Kernel) :
    (startLogger slot s k).1.1.pid = s.pid := by
  unfold startLogger
  -- no logger, no `run`, no pipe or no child: the main pid is never written
  split
  · rfl
  rw [Sys.bind_apply]
  split
  · rfl
  rw [Sys.bind_apply]
  cases (newPipe (access (joinPath s.dir "/log/run") .exec k).2).1 with
  | none => rfl
  | some ends =>
    dsimp only
    rw [Sys.bind_apply]
    split <;> rfl

/-- A start that does not get to the fork, or whose fork fails, leaves no process. -/
theorem startService_up {slot : Nat} {s : Service} {k : Kernel} (hgo : PassesGuard s)
    (hidle : s.pid ≤ 0) (hup : 0 < (startService slot s k).1.pid) :
    ∃ s₁ sf k₁, beforeMain slot s k = ((s₁, some sf), k₁) ∧ 0 < (fork (.main slot) k₁).1 := by
  rw [startService_beforeMain hgo] at hup
  have hpid : (beforeMain slot s k).1.1.pid = s.pid := by
    have hcore := ((closeReadEnds_calm _).post (prepareServiceEnv s k).2).trans
      ((prepareServiceEnv_calm s).post k)
    rw [beforeMain_record, startLogger_pid]
    exact congrArg Core.pid hcore
  generalize beforeMain slot s k = r at hup hpid
  obtain ⟨⟨s₁, sf⟩, k₁⟩ := r
  have hpid : s₁.pid = s.pid := hpid
  cases sf with
  | none =>
    -- the record has the pid that it had before, which is none
    have hsame : (startFailed s₁ k₁).1.pid = s₁.pid := rfl
    have hup : 0 < (startFailed s₁ k₁).1.pid := hup
    omega
  | some sf =>
    refine ⟨s₁, sf, k₁, rfl, ?_⟩
    by_contra hfailed
    have hnone : (forkMain slot s₁ sf k₁).1.pid = -1 := by
      unfold forkMain
      rw [Sys.bind_apply, Sys.bind_apply, if_neg hfailed]
      unfold mainForkFailed
      split <;> rfl
    have hup : 0 < (forkMain slot s₁ sf k₁).1.pid := hup
    omega

section

variable {base : List Int} {slot : Nat} {s : Service} {k : Kernel}

/-- A start that succeeds. -/
theorem startService_wired (h : OnBooks base s k) (hgo : PassesGuard s) (hidle : s.pid ≤ 0)
    (hup : 0 < (startService slot s k).1.pid) :
    OutputWired base slot s k (startService slot s k).1 (startService slot s k).2 := by
  obtain ⟨s₁, sf, k₁, hmain, hforked⟩ := startService_up hgo hidle hup
  -- one pipe into the logger, or two into the supervisor
  cases hlog : s₁.hasLog with
  | true =>
    obtain ⟨s₀, r, w, k₀, pipe, hlogger, hchild, hprogram, hleft⟩ :=
      startService_logged h hgo hmain hlog
    refine ⟨s₁, sf, k₁, hmain, fun p hp => (hprogram p hp).1, ?_⟩
    rw [if_pos hlog]
    exact ⟨s₀, r, w, k₀, pipe, hlogger, hchild, fun p hp => (hprogram p hp).2, hleft⟩
  | false =>
    obtain ⟨out, err, hne, hprogram, hleft⟩ := startService_piped h hgo hmain hlog hforked
    refine ⟨s₁, sf, k₁, hmain, fun p hp => (hprogram p hp).1, ?_⟩
    rw [if_neg (by simp [hlog])]
    exact ⟨out, err, hne, fun p hp => (hprogram p hp).2, hleft⟩

end

/-! ### The start pass -/

/-- A start pass that leaves a process behind found the service due. -/
theorem exec_start_up {w : World} {t : Int} {i : Nat} (hidle : (w.svc i).pid ≤ 0)
    (hup : 0 < ((exec (.start t i) w).svc i).pid) :
    startDue (min t w.k.clock) (w.svc i) = true ∧ depsSatisfied w (w.svc i) = true := by
  have hexec : exec (.start t i) w = (startSlot (min t w.k.clock) i w).2 := rfl
  rw [hexec, startSlot, Sup.get_bind, Sup.ite_apply] at hup
  -- neither of the other two branches brings a process up
  split at hup
  · next hdue =>
    refine ⟨hdue, ?_⟩
    rw [Sup.ite_apply] at hup
    split at hup
    · rw [onSlot_svc, if_pos rfl] at hup
      exact absurd hup (Int.not_lt.mpr hidle)
    · next hdeps => simpa using hdeps
  · exact absurd hup (Int.not_lt.mpr hidle)

/-- The books for one record. -/
theorem World.Accounted.onBooks {base : List Int} {w : World} {i : Nat}
    (hw : w.Accounted { base }) (htraced : Traced base w.k)
    (hstd : ∀ fd, 0 ≤ fd → fd ≤ 2 → fd ∈ base) (hact : (w.svc i).active = true) :
    OnBooks base (w.svc i) w.k := by
  refine ⟨hw.kernel, ⟨w.others i, ?_⟩, htraced, hstd⟩
  have hrecorded := (w.recorded_setSvc (hw.inTable i hact) (w.svc i)).1
  rw [Service.recorded, if_pos hact] at hrecorded
  rw [Kernel.free, hw.held, hrecorded]
  exact tsub_zero _

/-- In every run, when a start succeeds, the streams of the new process are wired as they
    should be. The supervisor itself must have been given its standard streams. -/
theorem output_wired (root : CStrBuf) (oracle : Nat → Answer) {fds : List Int} (hfds : fds.Nodup)
    (hstd : ∀ fd, 0 ≤ fd → fd ≤ 2 → fd ∈ fds) {w : World}
    (hw : Performs (boot root oracle fds).world w) {t : Int} {i : Nat} (hidle : (w.svc i).pid ≤ 0)
    (hup : 0 < ((exec (.start t i) w).svc i).pid) :
    OutputWired fds i (w.svc i) w.k ((exec (.start t i) w).svc i) (exec (.start t i) w).k := by
  obtain ⟨ops, hops⟩ := hw
  have hacc : w.Accounted { base := fds } := hops ▸ run_accounted root oracle hfds ops
  have htraced : Traced fds w.k := (boot_traced root oracle hfds).calls (Performs.calls ⟨ops, hops⟩)
  obtain ⟨hdue, hdeps⟩ := exec_start_up hidle hup
  have hact : (w.svc i).active = true := (startDue_due hdue (Int.le_refl _)).active
  rw [exec_start hdue hdeps, onSlot_svc, if_pos rfl] at hup ⊢
  exact startService_wired (hacc.onBooks htraced hstd hact) (startDue_passes hdue) hidle hup

/-- After the first scan has found `a`, which has a logger. -/
def loggedFound : World := run exec [.scanEntry (bytesOf "a")] (bootOn loggedFiles).world

/-- The standard streams. -/
theorem mem_std (fd : Int) (h0 : 0 ≤ fd) (h2 : fd ≤ 2) : fd ∈ ([0, 1, 2] : List Int) := by
  simp only [List.mem_cons, List.not_mem_nil, or_false]
  omega

/-- A service with a logger. -/
theorem output_wired_a : OutputWired [0, 1, 2] 0 (loggedFound.svc 0) loggedFound.k
    ((exec (.start 0 0) loggedFound).svc 0) (exec (.start 0 0) loggedFound).k := by
  have hidle : (loggedFound.svc 0).pid ≤ 0 := by decide +kernel
  have hup : 0 < ((exec (.start 0 0) loggedFound).svc 0).pid := by decide +kernel
  have hw : Performs (boot (CStrBuf.fromBytes (bytesOf "/s")) (obliging loggedFiles) [0, 1, 2]).world
      loggedFound := ⟨_, rfl⟩
  generalize loggedFound = w at hidle hup hw
  exact output_wired _ _ (by decide) mem_std hw hidle hup

end SvcRs
