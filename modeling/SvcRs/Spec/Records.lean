import SvcRs.Spec.LoggerTold
import SvcRs.Spec.Pipes
import SvcRs.Spec.Polling
import SvcRs.Spec.StatusFile
import SvcRs.Spec.Updates

/-!
# The records as a register

What the records say about the past of their processes, apart from how they are started and
stopped: the times, the counter of restarts, the last exit, and the logger. `Change` lists
everything that can happen to this register and what is written down when it happens; here the
program is shown to do nothing else.

## Key results

- `startService_changes`, `reapMain_changes`, `acceptCmd_changes`: one lemma for each function
- `Performs.changes`: every run of the program is a run of the register
-/

namespace SvcRs

open Relation (ReflTransGen)

/-! ## The register -/

/-- What a slot remembers of the main processes of its record. -/
structure Tally where
  startedAt : Int := 0
  restarts : UInt32 := 0
  lastStatus : Int := 0
  exitCode : Int := 0
  termSignal : Int := 0
  deriving DecidableEq

namespace Tally

/-- A main process is started at `t`. -/
def start (x : Tally) (t : Int) : Tally := { x with startedAt := t, exitCode := 0, termSignal := 0 }

/-- The counter after a counted exit at time `t`. -/
def nextRestarts (x : Tally) (t : Int) : UInt32 :=
  if i64 (t - x.startedAt) > restartWindowS then 0 else x.restarts + 1

/-- It exits at `t`. The exit is not counted if it was expected. -/
def exit (x : Tally) (status t : Int) (expected : Bool) : Tally :=
  { x with
    lastStatus := status
    exitCode := (decodeWaitStatus status).2.1
    termSignal := (decodeWaitStatus status).2.2
    restarts := if expected then x.restarts else x.nextRestarts t }

end Tally

/-- The tally, the state that is shown with it, and the logger. -/
structure Vitals where
  tally : Tally := {}
  state : SvcState := .down
  logPid : Int := -1
  logState : SvcState := .down
  logStartedAt : Int := 0
  logStopping : Bool := false
  deriving DecidableEq

/-- What the record counts and remembers. -/
def Service.tally (s : Service) : Tally :=
  { startedAt := s.startedAt, restarts := s.restarts, lastStatus := s.lastStatus
    exitCode := s.exitCode, termSignal := s.termSignal }

/-- What the record says of its processes. -/
def Service.vitals (s : Service) : Vitals :=
  { tally := s.tally, state := s.state, logPid := s.logPid, logState := s.logState
    logStartedAt := s.logStartedAt, logStopping := s.logStopping }

/-- Nothing of this is in the streams. -/
@[simp] theorem Service.vitals_setStream (s : Service) (err : Bool) (st : Stream) :
    (s.setStream err st).vitals = s.vitals := by
  cases err <;> rfl

/-- The records, as far as they speak of processes, beside the log. -/
structure Register where
  vitals : Nat → Vitals
  clock : Int
  log : List Event

/-- The register of a table. -/
def World.register (w : World) : Register :=
  { vitals := fun i => (w.svc i).vitals, clock := w.k.clock, log := w.k.log }

namespace Register

/-- One record is replaced. -/
def put (r : Register) (i : Nat) (v : Vitals) : Register :=
  { r with vitals := fun j => if j = i then v else r.vitals j }

@[simp] theorem put_vitals (r : Register) (i j : Nat) (v : Vitals) :
    (r.put i v).vitals j = if j = i then v else r.vitals j := rfl

@[simp] theorem put_clock (r : Register) (i : Nat) (v : Vitals) : (r.put i v).clock = r.clock := rfl
@[simp] theorem put_log (r : Register) (i : Nat) (v : Vitals) : (r.put i v).log = r.log := rfl

end Register

/-- `waitpid` has just returned this process. -/
def EndsInWait (log : List Event) (pid status : Int) : Prop := ∃ rest, log = .reaped pid status :: rest

/-- The exit of a main process has just been written down. -/
def EndsInExit (log : List Event) : Prop :=
  ∃ i t before status rest,
    log = .exited i t before :: rest ∧ EndsInWait rest before.pid status

/-! ## Changes -/

/-- What can be entered into the register, one event at a time. -/
inductive Change (r : Register) : Register → Prop
  | tick (t : Int) (ht : r.clock ≤ t) : Change r { r with clock := t }
  | note (e : Event) (he : e.isEntry = false) : Change r { r with log := e :: r.log }
  | add (i : Nat) : Change r { r.put i {} with log := .added i :: r.log }
  | start (i : Nat) (v : Vitals) (hv : r.vitals i = v) :
    Change r { r.put i { v with tally := v.tally.start r.clock, state := .running } with
      log := .started i r.clock :: r.log }
  | exit (i : Nat) (v : Vitals) (hv : r.vitals i = v) (status t : Int) (before : Service)
    (state : SvcState) (hwait : EndsInWait r.log before.pid status)
    (hstate : state = (decodeWaitStatus status).1 ∨ state = .failed) :
    Change r { r.put i { v with
        tally := v.tally.exit status t (before.stopping || before.once), state } with
      log := .exited i t before :: r.log }
  | finish (pid : Int) (hexit : EndsInExit r.log) :
    Change r { r with log := .fork .finish pid :: r.log }
  /-- A stop, a start that failed, or the end of the record. -/
  | quit (i : Nat) (v : Vitals) (hv : r.vitals i = v) (state : SvcState)
    -- a record never goes back to RUNNING in this way
    (hstate : state = .stopping ∨ state = .failed ∨ state = .down) :
    Change r (r.put i { v with state })
  | startLogger (i : Nat) (v : Vitals) (hv : r.vitals i = v) (pid : Int) (hpid : 0 < pid) :
    Change r (r.put i { v with
      logPid := pid, logState := .running, logStartedAt := r.clock, logStopping := false })
  | tellLogger (i : Nat) (v : Vitals) (hv : r.vitals i = v) (hpid : 0 < v.logPid) :
    Change r (r.put i { v with logStopping := true })
  | loseLogger (i : Nat) (v : Vitals) (hv : r.vitals i = v) :
    Change r (r.put i { v with logPid := -1, logState := .down, logStopping := false })

/-- Any number of changes. -/
abbrev Changes : Register → Register → Prop := ReflTransGen Change

/-- Events that are no entries may be added at will. -/
theorem changes_notes (r : Register) {evs : List Event} (h : ∀ e ∈ evs, e.isEntry = false) :
    Changes r { r with log := evs ++ r.log } := by
  induction evs with
  | nil => exact .refl
  | cons e evs ih =>
    have hrest := ih fun e he => h e (List.mem_cons_of_mem _ he)
    have hone := Change.note (r := { r with log := evs ++ r.log }) e (h e List.mem_cons_self)
    exact hrest.tail hone

/-! ## One record at a time -/

/-- The register of `w` with the entry of slot `i` and the kernel replaced. -/
def World.registerAt (w : World) (i : Nat) (v : Vitals) (k : Kernel) : Register :=
  { w.register.put i v with clock := k.clock, log := k.log }

section

variable {w : World} {i : Nat} {v v' : Vitals} {s s' : Service} {k k' : Kernel}

/-- The record that is worked on. -/
@[simp] theorem World.registerAt_vitals : (w.registerAt i v k).vitals i = v := by simp [registerAt]

/-- The last version counts. -/
theorem World.registerAt_put : (w.registerAt i v k).put i v' = w.registerAt i v' k := by
  simp only [registerAt, Register.put, Register.mk.injEq, and_true]
  funext j
  split <;> rfl

/-- With the record as it is, nothing is different. -/
theorem World.registerAt_self :
    w.registerAt i (w.svc i).vitals k = { w with k : World }.register := by
  simp only [registerAt, Register.put, register, Register.mk.injEq, and_true]
  funext j
  split
  · next h => rw [h]
  · rfl

/-- The register after a function on slot `i`. -/
theorem register_onSlot (w : World) (i : Nat) (f : Service → Sys Service) :
    (onSlot i f w).2.register =
      w.registerAt i (f (w.svc i) w.k).1.vitals (f (w.svc i) w.k).2 := by
  simp only [onSlot, World.register, World.registerAt, World.setSvc, Register.put,
    Register.mk.injEq, and_true]
  funext j
  split <;> rfl

/-- Without entries, only the clock may have changed. -/
theorem Uneventful.changes (h : Uneventful k k') :
    Changes (w.registerAt i v k) (w.registerAt i v k') := by
  obtain ⟨evs, hevs, hnone⟩ := h.log
  have hnotes := changes_notes (w.registerAt i v k) hnone
  have htick := Change.tick (r := { w.registerAt i v k with log := evs ++ k.log }) k'.clock h.clock
  have he : w.registerAt i v k' =
      { w.registerAt i v k with log := evs ++ k.log, clock := k'.clock } := by
    simp only [World.registerAt, hevs]
  exact he ▸ hnotes.tail htick

/-- From record `s` and kernel `k`, the computation `m` ends in a record and a kernel that
    changes of slot `i` lead to. -/
def Turns (w : World) (i : Nat) (s : Service) (k : Kernel) (m : Sys Service) : Prop :=
  Changes (w.registerAt i s.vitals k) (w.registerAt i (m k).1.vitals (m k).2)

/-- No entries, and the vitals of the record stay as they are. -/
abbrev KeepsVitals (s : Service) (m : Sys Service) : Prop := Dull m fun s' => s'.vitals = s.vitals

/-- A function that keeps what the record says. -/
theorem KeepsVitals.turns {m : Sys Service} (h : KeepsVitals s m) : Turns w i s k m := by
  rw [Turns, h.post k]
  exact (h.rel k).changes

/-- Nothing has changed. -/
theorem Turns.pure (h : s'.vitals = s.vitals) : Turns w i s k (Pure.pure s') :=
  KeepsVitals.turns (.pure h)

/-- One function after the other. -/
theorem Turns.bind {m : Sys Service} {f : Service → Sys Service} (hm : Turns w i s k m)
    (hf : Turns w i (m k).1 (m k).2 (f (m k).1)) : Turns w i s k (m >>= f) :=
  ReflTransGen.trans hm hf

/-- Calls without entries may come first. -/
theorem Turns.after {α : Type} {m : Sys α} {Q : α → Prop} {f : α → Sys Service} (hm : Dull m Q)
    (hf : ∀ a k, Turns w i s k (f a)) : Turns w i s k (m >>= f) :=
  ReflTransGen.trans (hm.rel k).changes (hf _ _)

/-- Both branches of a test. -/
theorem Turns.ite {c : Prop} [Decidable c] {m₁ m₂ : Sys Service} (h₁ : c → Turns w i s k m₁)
    (h₂ : ¬c → Turns w i s k m₂) : Turns w i s k (if c then m₁ else m₂) := by
  split
  · exact h₁ ‹_›
  · exact h₂ ‹_›

/-- A change of the record before the rest. -/
theorem Turns.head {m : Sys Service} (s' : Service)
    (h : Change (w.registerAt i s.vitals k) (w.registerAt i s'.vitals k))
    (hm : Turns w i s' k m) : Turns w i s k m :=
  ReflTransGen.head h hm

/-- Most operations end with the status file. -/
theorem Turns.status {m : Sys Service} (hm : Turns w i s k m) :
    Turns w i s k (do
      let s ← m
      writeStatusFile s
      return s) :=
  hm.bind (.after (writeStatusFile_calm _).dull fun _ _ => .pure rfl)

/-! ## Functions that keep the vitals -/

/-- A calm function that only changes other fields. -/
theorem keepsVitals_of {m : Sys Service} {Q : Service → Prop} (hm : Calm m Q)
    (h : ∀ k, (m k).1.vitals = s.vitals) : KeepsVitals s m :=
  fun k _ => ⟨(hm.rel k).uneventful, h k⟩

theorem readEnv_vitals (s : Service) (k : Kernel) : (readEnv s k).1.vitals = s.vitals := by
  unfold readEnv
  rw [Sys.bind_apply]
  rcases (readFileToBuf (joinPath s.dir "/env") envBuf k).1 with _ | _ | ⟨c, rest⟩ <;> rfl

theorem prepareServiceEnv_keepsVitals (s : Service) : KeepsVitals s (prepareServiceEnv s) :=
  keepsVitals_of (prepareServiceEnv_calm s) fun k => readEnv_vitals s k

theorem parseUserGroup_keepsVitals (s : Service) : KeepsVitals s (parseUserGroup s) := by
  apply keepsVitals_of (parseUserGroup_calm s)
  intro k
  obtain ⟨_, _, _, hrecord, -⟩ := parseUserGroup_ids s k
  rw [hrecord]
  rfl

theorem closeReadEnds_keepsVitals (s : Service) : KeepsVitals s (closeReadEnds s) :=
  keepsVitals_of (closeReadEnds_calm s) fun _ => rfl

theorem closeServiceFds_keepsVitals (s : Service) : KeepsVitals s (closeServiceFds s) :=
  keepsVitals_of (closeServiceFds_calm s) fun _ => rfl

theorem openLog_keepsVitals (err : Bool) (s : Service) : KeepsVitals s (openLog err s) := by
  apply keepsVitals_of (openLog_calm err s)
  intro k
  obtain ⟨st, -, hrecord⟩ := openLog_logOnly err s k
  rw [hrecord, Service.vitals_setStream]

theorem drainStream_keepsVitals (err : Bool) (reads : List ReadResult) (s : Service) :
    KeepsVitals s (drainStream err reads s) := by
  apply keepsVitals_of (drainStream_calm err reads s)
  intro k
  obtain ⟨st, -, hrecord⟩ := drainStream_streamOnly err reads s k
  rw [hrecord, Service.vitals_setStream]

theorem attachStreams_keepsVitals (s : Service) (fds : StartFds) :
    KeepsVitals s (attachStreams s fds) := by
  apply StateM.Keeps.ite
  · exact fun _ => .pure rfl
  · intro _
    exact (openLog_keepsVitals false _).bind fun s₁ h₁ =>
      (openLog_keepsVitals true s₁).weaken fun _ h => h.trans h₁

/-! ## Signals -/

/-- The logger is told to stop. -/
theorem signalLogger_changes (h : 0 < s.logPid) : Turns w i s k (signalLogger s) := by
  have htold := Change.tellLogger (r := w.registerAt i s.vitals k) i s.vitals
    World.registerAt_vitals h
  rw [World.registerAt_put] at htold
  exact .head { s with logStopping := true } htold
    (.after (kill_dull s.logPid sigterm) fun _ _ => .pure rfl)

/-- The state of the record becomes one in which nothing runs any more. -/
theorem quit_turns {m : Sys Service} (s' : Service) {state : SvcState}
    (hstate : state = .stopping ∨ state = .failed ∨ state = .down)
    (hs : s'.vitals = { s.vitals with state }) (hm : Turns w i s' k m) : Turns w i s k m := by
  have hquit := Change.quit (r := w.registerAt i s.vitals k) i s.vitals
    World.registerAt_vitals state hstate
  rw [World.registerAt_put, ← hs] at hquit
  exact .head s' hquit hm

/-- The service is told to stop. -/
theorem signalStop_changes : Turns w i s k (signalStop s) :=
  quit_turns { s with stopping := true, state := .stopping } (.inl rfl) rfl
    (.after (kill_dull (-s.pid) sigterm) fun _ _ => .pure rfl)

theorem signalStopStatus_changes : Turns w i s k (signalStopStatus s) := signalStop_changes.status

/-- The stop of a service in its place. -/
theorem stopOrdered_changes : Turns w i s k (stopOrdered s) := by
  have hlogger : ∀ s k, Turns w i s k
      (if s.logPid > 0 && !s.logStopping then signalLogger s else pure s) := by
    intro s k
    refine .ite (fun h => ?_) fun _ => .pure rfl
    simp only [Bool.and_eq_true, decide_eq_true_eq] at h
    exact signalLogger_changes h.1
  unfold stopOrdered
  exact .ite (fun _ => signalStopStatus_changes.bind (hlogger _ _)) fun _ => hlogger s k

/-- The stop of a service without a place. -/
theorem stopRemaining_changes : Turns w i s k (stopRemaining s) := by
  have hlogger : ∀ s k, Turns w i s k
      (if s.active && s.logPid > 0 && !s.logStopping then signalLogger s else pure s) := by
    intro s k
    refine .ite (fun h => ?_) fun _ => .pure rfl
    simp only [Bool.and_eq_true, decide_eq_true_eq] at h
    exact signalLogger_changes h.1.2
  unfold stopRemaining
  exact .ite (fun _ => signalStop_changes.bind (hlogger _ _)) fun _ => hlogger s k

/-! ## Starting -/

/-- `Turns` for a computation that returns a descriptor with the record. -/
def LoggerTurns (w : World) (i : Nat) (s : Service) (k : Kernel) (m : Sys (Service × Int)) : Prop :=
  Changes (w.registerAt i s.vitals k) (w.registerAt i (m k).1.1.vitals (m k).2)

/-- A start without a logger. -/
theorem LoggerTurns.dull {m : Sys (Service × Int)} (hm : Dull m fun r => r.1.vitals = s.vitals) :
    LoggerTurns w i s k m := by
  rw [LoggerTurns, hm.post k]
  exact (hm.rel k).changes

/-- What comes before the logger. -/
theorem LoggerTurns.after {α : Type} {m : Sys α} {Q : α → Prop} {f : α → Sys (Service × Int)}
    (hm : Dull m Q) (hf : ∀ a k, LoggerTurns w i s k (f a)) : LoggerTurns w i s k (m >>= f) :=
  ReflTransGen.trans (hm.rel k).changes (hf _ _)

/-- The logger is forked and entered. -/
theorem startLogger_changes : LoggerTurns w i s k (startLogger i s) := by
  unfold startLogger
  split
  · exact .dull (.pure rfl)
  apply LoggerTurns.after (access_calm _ _).dull
  intro ok k
  split
  · exact .dull (.pure rfl)
  apply LoggerTurns.after newPipe_calm.dull
  intro ends k
  cases ends with
  | none => exact .dull (.pure rfl)
  | some ends =>
    apply LoggerTurns.after (fork_dull (.logger i) (by simp))
    intro pid k
    split
    · next hpid =>
      -- the clock that is read for the record is still the kernel's
      let k₁ := (monoNow k).2
      have hclock : Changes (w.registerAt i s.vitals k) (w.registerAt i s.vitals k₁) :=
        (monoNow_calm.dull.rel k).changes
      have hstart := Change.startLogger (r := w.registerAt i s.vitals k₁) i s.vitals
        World.registerAt_vitals pid hpid
      rw [World.registerAt_put] at hstart
      exact hclock.trans (.head hstart ((closeFd_calm ends.1).dull.rel k₁).changes)
    · exact .dull ((closeFd_calm _).dull.seq fun _ => (closeFd_calm _).dull.seq fun _ => .pure rfl)

theorem startFailed_changes : Turns w i s k (startFailed s) := by
  apply Turns.after monoNow_calm.dull
  intro now k
  exact quit_turns { s with state := .failed, restartAt := i64 (now + backoffShort) }
    (.inr (.inl rfl)) rfl (.after (writeStatusFile_calm _).dull fun _ _ => .pure rfl)

/-- The start is entered with its time. -/
theorem mainStarted_changes (fds : StartFds) (pid : Int) :
    Turns w i s k (mainStarted i s fds pid) := by
  let k₁ := (monoNow k).2
  have hclock : Changes (w.registerAt i s.vitals k) (w.registerAt i s.vitals k₁) :=
    (monoNow_calm.dull.rel k).changes
  have hstart := Change.start (r := w.registerAt i s.vitals k₁) i s.vitals World.registerAt_vitals
  rw [World.registerAt_put] at hstart
  -- the entry shows what the clock says
  have hlog : (emit (.started i k₁.clock) k₁).2.log = .started i k₁.clock :: k₁.log :=
    emit_log rfl k₁
  have hentry : Change (w.registerAt i s.vitals k₁)
      (w.registerAt i (s.started pid k₁.clock).vitals (emit (.started i k₁.clock) k₁).2) := by
    unfold World.registerAt
    rw [hlog]
    exact hstart
  have hrest : Turns w i (s.started pid k₁.clock) (emit (.started i k₁.clock) k₁).2 (do
      let s ← attachStreams (s.started pid k₁.clock) fds
      writeStatusFile s
      return s) :=
    (attachStreams_keepsVitals _ fds).turns.status
  exact hclock.trans (ReflTransGen.head hentry hrest)

theorem mainForkFailed_changes (fds : StartFds) : Turns w i s k (mainForkFailed s fds) := by
  have hfail : ∀ k, Turns w i s k (startFailed { s with pid := -1 }) := fun k =>
    startFailed_changes (s := { s with pid := -1 })
  unfold mainForkFailed
  exact .ite (fun _ => .after (closeFd_calm _).dull fun _ _ => .after (closeFd_calm _).dull
    fun _ k => hfail k) fun _ => hfail k

theorem forkMain_changes (fds : StartFds) : Turns w i s k (forkMain i s fds) := by
  apply Turns.after (fork_dull (.main i) (by simp))
  intro pid k
  apply Turns.after (closeChildEnds_calm s fds).dull
  intro _ k
  exact .ite (fun _ => mainStarted_changes fds pid) fun _ => mainForkFailed_changes fds

theorem startMain_changes (out0 : Int) : Turns w i s k (startMain i s out0) := by
  refine .ite (fun _ => forkMain_changes _) fun _ => ?_
  apply Turns.after openPipes_calm.dull
  intro fds k
  cases fds with
  | none => exact startFailed_changes
  | some fds => exact forkMain_changes fds

/-- A start, successful or not. -/
theorem startService_changes : Turns w i s k (startService i s) := by
  refine .ite (fun _ => .pure rfl) fun _ => ?_
  apply (prepareServiceEnv_keepsVitals s).turns.bind
  apply (closeReadEnds_keepsVitals _).turns.bind
  exact ReflTransGen.trans startLogger_changes (startMain_changes _)

theorem retryLater_changes : Turns w i s k (retryLater s) :=
  .after monoNow_calm.dull fun _ _ => .pure rfl

/-! ## Exits -/

/-- `finish` is forked, if at all, when the exit has just been written down. -/
theorem runFinish_changes (s : Service) (h : EndsInExit k.log) :
    Changes (w.registerAt i v k) (w.registerAt i v (runFinish s k).2) := by
  unfold runFinish
  -- looking for the file and reading the environment leave no event
  rw [Sys.bind_apply]
  let k₁ := (access (joinPath s.dir "/finish") .exec k).2
  have haccess : Quiet k k₁ := (access_calm _ _).rel k
  split
  · exact haccess.uneventful.changes
  have henv : Quiet k₁ (prepareServiceEnv s k₁).2 := (prepareServiceEnv_calm s).rel k₁
  have hquiet := haccess.trans henv
  apply hquiet.uneventful.changes.trans
  show Changes _ (w.registerAt i v (fork .finish (prepareServiceEnv s k₁).2).2)
  have hexit : EndsInExit (prepareServiceEnv s k₁).2.log := hquiet.log ▸ h
  generalize (prepareServiceEnv s k₁).2 = k₂ at hexit ⊢
  -- a `finish` that could not be forked leaves no event either
  cases fork_cases .finish k₂ with
  | inl hfailed => exact hfailed.2.uneventful.changes
  | inr hforked =>
    obtain ⟨-, -, -, hlog, hclock⟩ := hforked
    have hfinish := Change.finish (r := w.registerAt i v k₂) (fork .finish k₂).1 hexit
    have he : w.registerAt i v (fork .finish k₂).2 = { w.registerAt i v k₂ with
        log := .fork .finish (fork .finish k₂).1 :: k₂.log } := by
      simp only [World.registerAt, hlog, hclock]
    exact .single (he ▸ hfinish)

/-- Exit and accounting together. -/
theorem accountExit_vitals (s : Service) (status t : Int) (b : Bool) : ∃ state,
    (state = (decodeWaitStatus status).1 ∨ state = .failed) ∧
      (accountExit { s.exited status with logStopping := b } t).vitals = { s.vitals with
        tally := s.tally.exit status t (s.stopping || s.once), state, logStopping := b } := by
  have hstop : ({ s.exited status with logStopping := b }).stopping = s.stopping := rfl
  have honce : ({ s.exited status with logStopping := b }).once = s.once := rfl
  unfold accountExit
  rw [hstop, honce]
  -- an expected exit keeps the decoded state, the breaker replaces it by FAILED
  split
  · next hexpected =>
    refine ⟨(decodeWaitStatus status).1, .inl rfl, ?_⟩
    rw [hexpected]
    rfl
  · next hexpected =>
    rw [Bool.not_eq_true] at hexpected
    rw [hexpected]
    dsimp only
    split
    · exact ⟨.failed, .inr rfl, rfl⟩
    · exact ⟨(decodeWaitStatus status).1, .inl rfl, rfl⟩

/-- The logger of a service that exited is left alone or told to stop. -/
theorem stopExitedLogger_cases (s : Service) (k : Kernel) :
    stopExitedLogger s k = (s, k) ∨ 0 < s.logPid ∧
      stopExitedLogger s k = ({ s with logStopping := true }, (kill s.logPid sigterm k).2) := by
  unfold stopExitedLogger
  split
  · next htell =>
    simp only [Bool.and_eq_true, decide_eq_true_eq] at htell
    exact .inr ⟨htell.1, rfl⟩
  · exact .inl rfl

/-- The exit is entered with its status, and the finish script follows. -/
theorem reapMain_changes {status : Int} (t : Int) (h : EndsInWait k.log s.pid status) :
    Turns w i s k (reapMain i status t s) := by
  let k₁ := (emit (.exited i t s) k).2
  have hlog : k₁.log = .exited i t s :: k.log := emit_log rfl k
  let k₂ := (runFinish (s.exited status) k₁).2
  have hfinish : ∀ v, Changes (w.registerAt i v k₁) (w.registerAt i v k₂) := fun v =>
    runFinish_changes _ ⟨i, t, s, status, k.log, hlog, h⟩
  -- the exit, once it is known what becomes of the logger
  have hexit : ∀ b, Changes (w.registerAt i { s.vitals with logStopping := b } k) (w.registerAt i
      (accountExit { s.exited status with logStopping := b } t).vitals k₂) := by
    intro b
    obtain ⟨state, hstate, hvitals⟩ := accountExit_vitals s status t b
    have hchange := Change.exit (r := w.registerAt i { s.vitals with logStopping := b } k) i
      { s.vitals with logStopping := b } World.registerAt_vitals status t s state h hstate
    rw [World.registerAt_put] at hchange
    have he : w.registerAt i (accountExit { s.exited status with logStopping := b } t).vitals k₁ =
        { w.registerAt i { s.vitals with
            tally := s.tally.exit status t (s.stopping || s.once), state, logStopping := b } k with
          log := .exited i t s :: k.log } := by
      simp only [World.registerAt, hlog, hvitals]
      rfl
    exact .head (he ▸ hchange) (hfinish _)
  have hstatus : ∀ (s' : Service) k, Changes (w.registerAt i s'.vitals k)
      (w.registerAt i s'.vitals (writeStatusFile s' k).2) := fun s' k =>
    ((writeStatusFile_calm s').dull.rel k).changes
  unfold Turns
  rw [reapMain_apply]
  cases stopExitedLogger_cases (s.exited status) k₂ with
  | inl hkept =>
    rw [hkept]
    exact (hexit s.logStopping).trans (hstatus _ k₂)
  | inr htold =>
    obtain ⟨hpid, hrun⟩ := htold
    rw [hrun]
    have hchange := Change.tellLogger (r := w.registerAt i s.vitals k) i s.vitals
      World.registerAt_vitals hpid
    rw [World.registerAt_put] at hchange
    have hkill := ((kill_dull s.logPid sigterm).rel k₂).changes (w := w) (i := i)
      (v := (accountExit { s.exited status with logStopping := true } t).vitals)
    exact .head hchange ((hexit true).trans (hkill.trans (hstatus _ _)))

/-- The logger is gone. -/
theorem reapLogger_changes : Turns w i s k (reapLogger s) := by
  have hlost := Change.loseLogger (r := w.registerAt i s.vitals k) i s.vitals
    World.registerAt_vitals
  rw [World.registerAt_put] at hlost
  exact .single hlost

/-! ## Scanning -/

/-- A new record has nothing to say. -/
theorem buildService_vitals (name : Bytes) (dir : CStrBuf) :
    Dull (buildService name dir) fun s => s.vitals = {} := by
  -- one step for each file that is looked at or read
  apply (access_calm _ _).dull.seq
  intro down
  apply (access_calm _ _).dull.seq
  intro once
  apply (readFileToBuf_calm _ _).dull.seq
  intro data
  apply (access_calm _ _).dull.seq
  intro log
  apply (parseUserGroup_keepsVitals _).bind
  intro s₁ h₁
  apply (prepareServiceEnv_keepsVitals s₁).bind
  intro s₂ h₂
  apply (writeStatusFile_calm s₂).dull.seq
  intro _
  apply StateM.Keeps.pure
  -- whichever files there are, the vitals are those of an empty record
  rw [h₂, h₁]
  cases down <;> cases once <;> cases data <;> cases log <;> rfl

/-- It is entered as new. -/
theorem newService_changes (name : Bytes) (dir : CStrBuf) :
    Turns w i s k (newService i name dir) := by
  have hbuild := buildService_vitals name dir
  have hcalls := (hbuild.rel k).changes (w := w) (i := i) (v := s.vitals)
  have hnew := hbuild.post k
  unfold Turns newService
  rw [Sys.bind_apply]
  -- the record that was built, before it is put into its slot
  generalize buildService name dir k = r at hcalls hnew ⊢
  obtain ⟨s₁, k₁⟩ := r
  have hadd := Change.add (r := w.registerAt i s.vitals k₁) i
  rw [World.registerAt_put, ← hnew] at hadd
  have hlog : (emit (.added i) k₁).2.log = .added i :: k₁.log := emit_log rfl k₁
  apply hcalls.tail
  show Change _ (w.registerAt i s₁.vitals (emit (.added i) k₁).2)
  unfold World.registerAt at hadd ⊢
  rw [hlog]
  exact hadd

/-- A known directory. -/
theorem foundService_changes : Turns w i s k (foundService i s) := by
  apply Turns.after (emit_dull rfl)
  intro _ k
  have hids := parseUserGroup_keepsVitals { s with present := true, stopping := false }
  exact KeepsVitals.turns (hids.bind fun s₁ h₁ =>
    (prepareServiceEnv_keepsVitals s₁).weaken fun _ h => h.trans h₁)

/-- A missing service. -/
theorem releaseMissing_changes : Turns w i s k (releaseMissing i s) := by
  -- the slot is given up when both processes are gone
  have hslot : ∀ s k, Turns w i s k
      (if s.pid ≤ 0 && s.logPid ≤ 0 then releaseSlot i s else pure s) := by
    refine fun s k => .ite (fun _ => ?_) fun _ => .pure rfl
    refine .bind (closeServiceFds_keepsVitals s).turns ?_
    generalize closeServiceFds s k = r
    obtain ⟨s₁, k₁⟩ := r
    apply quit_turns (s := s₁) { s₁ with active := false, state := .down } (.inr (.inr rfl)) rfl
    apply Turns.after (writeStatusFile_calm _).dull
    intro _ k
    exact .after (emit_dull rfl) fun _ _ => .pure rfl
  refine .ite (fun h => ?_) fun _ => hslot s k
  simp only [Bool.and_eq_true, decide_eq_true_eq] at h
  exact (signalLogger_changes h.1).bind (hslot _ _)

/-! ## Commands -/

theorem stopSignals_changes : Turns w i s k (stopSignals s) := by
  have hlogger : ∀ k, Turns w i s k (if s.logPid > 0 then signalLogger s else pure s) := fun k =>
    .ite (fun h => signalLogger_changes h) fun _ => .pure rfl
  exact .ite (fun _ => .after (kill_dull _ _) fun _ k => hlogger k) fun _ => hlogger k

/-- A command for the service. -/
theorem acceptCmd_changes (cmd : SvcCmd) : Turns w i s k (acceptCmd cmd i s) := by
  apply Turns.after (emit_dull rfl)
  intro _ k
  cases cmd with
  | start => exact .pure rfl
  -- these three stop the service, and the others only change what is written down
  | stop =>
    exact quit_turns { s with stopping := true, state := .stopping } (.inl rfl) rfl
      stopSignals_changes.status
  | restart =>
    exact quit_turns { s with stopping := true, state := .stopping, manualStart := true }
      (.inl rfl) rfl stopSignals_changes.status
  | down =>
    apply Turns.after (touchFile_calm _).dull
    intro _ k
    dsimp only
    split
    · exact quit_turns { s with autoStart := false, stopping := true, state := .stopping }
        (.inl rfl) rfl stopSignals_changes.status
    · exact Turns.status (.pure rfl)
  | up =>
    apply Turns.after (emit_dull rfl)
    intro _ k
    apply Turns.after monoNow_calm.dull
    intro now k
    exact .after (writeStatusFile_calm _).dull fun _ _ => .pure rfl
  | once =>
    apply Turns.after (touchFile_calm _).dull
    intro _ k
    exact .after (writeStatusFile_calm _).dull fun _ _ => .pure rfl

end

/-! ## Runs -/

section

variable {w w' : World}

/-- A function that is applied to the record in slot `i`, after calls that lead to `k`. -/
theorem changes_onSlot {i : Nat} {k : Kernel} {f : Service → Sys Service}
    (hcalls : Uneventful w.k k) (hf : Turns w i (w.svc i) k (f (w.svc i))) :
    Changes w.register (onSlot i f { w with k }).2.register := by
  have hself : w.register = w.registerAt i (w.svc i).vitals w.k := World.registerAt_self.symm
  rw [register_onSlot, hself]
  exact hcalls.changes.trans hf

/-- One update of the table. -/
theorem Update.changes (h : Update w w') : Changes w.register w'.register := by
  -- every update but a system call is the change of one slot
  have hslot : ∀ (i : Nat) (f : Service → Sys Service), Turns w i (w.svc i) w.k (f (w.svc i)) →
      Changes w.register (onSlot i f w).2.register := fun i f hf =>
    changes_onSlot (Std.Refl.refl w.k) hf
  cases h with
  | calls k hk =>
    have hself : w.register = w.registerAt 0 (w.svc 0).vitals w.k := World.registerAt_self.symm
    have he : ({ w with k } : World).register = w.registerAt 0 (w.svc 0).vitals k :=
      World.registerAt_self.symm
    rw [he, hself]
    exact hk.changes
  | stopStatus i hpid => exact hslot i _ signalStopStatus_changes
  | stop i hpid => exact hslot i _ signalStop_changes
  | stopOrdered i => exact hslot i _ stopOrdered_changes
  | stopRemaining i => exact hslot i _ stopRemaining_changes
  | unmark i hact => exact hslot i _ (.pure rfl)
  | found i hact => exact hslot i _ foundService_changes
  | add i name dir hi hact => exact hslot i _ (newService_changes name dir)
  | release i => exact hslot i _ releaseMissing_changes
  | retry t i hdue => exact hslot i _ retryLater_changes
  | start t i hdue hdeps => exact hslot i _ startService_changes
  | command cmd i hact => exact hslot i _ (acceptCmd_changes cmd)
  | drain i err reads hact => exact hslot i _ (drainStream_keepsVitals err reads _).turns

/-- One child that is reaped. -/
theorem Reap.changes (h : Reap w w') : Changes w.register w'.register := by
  cases h with
  | logger pid status k i hk hi => exact changes_onSlot hk.uneventful reapLogger_changes
  | main pid status k i hk hlog hi =>
    apply changes_onSlot hk.uneventful
    apply reapMain_changes
    -- `waitpid` has returned the process of this record
    obtain ⟨-, -, hpid⟩ := mainSlot_some hi
    rw [hpid]
    exact ⟨w.k.log, hk.log⟩

/-- Whatever the program does. -/
theorem Performs.changes (h : Performs w w') : Changes w.register w'.register := by
  have hall : ∀ w', ReflTransGen Happens w w' → Changes w.register w'.register := by
    intro w' hruns
    induction hruns with
    | refl => exact .refl
    | tail _ hlast ih => exact ih.trans (hlast.elim Update.changes Reap.changes)
  exact hall w' h.happens

end

end SvcRs
