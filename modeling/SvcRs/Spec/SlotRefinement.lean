import SvcRs.Spec.Lifecycle

/-!
# The program refines the life cycle

Every function of the supervisor takes the abstract state along `LifeSteps`.

A function on one record is described by `Moves`: with the rest of the table as in
`w`, it moves slot `i` and the kernel from one abstract state to another. `onSlot`
turns this into a statement about the table, and the loops follow by `forSlots_sim`.
-/

namespace SvcRs

open Relation (ReflTransGen)
open StateM (Within)

/-! ## One slot at a time -/

/-- The abstract state of `w` with the core of slot `i` and the kernel replaced. -/
def World.lifeAt (w : World) (i : Nat) (c : Core) (k : Kernel) : Life :=
  { w.life.put i c with children := k.children, clock := k.clock, log := k.log }

/-- The record that is worked on. -/
@[simp] theorem World.lifeAt_core (w : World) (i : Nat) (c : Core) (k : Kernel) :
    (w.lifeAt i c k).core i = c := by simp [lifeAt]

/-- The last version counts. -/
theorem World.lifeAt_put (w : World) (i : Nat) (c c' : Core) (k : Kernel) :
    (w.lifeAt i c k).put i c' = w.lifeAt i c' k := by
  simp only [lifeAt, Life.put, Life.mk.injEq, true_and, and_true]
  funext j
  split <;> rfl

/-- With the record as it is, nothing is different. -/
theorem World.lifeAt_self (w : World) (i : Nat) : w.lifeAt i (w.svc i).core w.k = w.life := by
  simp only [lifeAt, Life.put, life, Life.mk.injEq, true_and, and_true]
  funext j
  split
  · next h => rw [h]
  · rfl

/-- A kernel given by its children, clock and log. -/
theorem World.lifeAt_eq {w : World} {i : Nat} {c : Core} {k k' : Kernel} {children : List Child}
    {clock : Int} {log : List Event} (hchildren : k'.children = children)
    (hclock : k'.clock = clock) (hlog : k'.log = log) :
    w.lifeAt i c k' = { w.lifeAt i c k with children, clock, log } := by
  subst hchildren hclock hlog
  rfl

/-- The state after `onSlot`. -/
theorem life_onSlot (w : World) (i : Nat) (f : Service → Sys Service) :
    (onSlot i f w).2.life = w.lifeAt i (f (w.svc i) w.k).1.core (f (w.svc i) w.k).2 := by
  simp only [onSlot, World.life, World.lifeAt, World.setSvc, Life.put, Life.mk.injEq, true_and,
    and_true]
  funext j
  split <;> rfl

/-- From record `s` and kernel `k`, the computation `m` ends in a record and a kernel
    that life-cycle steps of slot `i` lead to. -/
def Moves (S : Kind → Prop) (w : World) (i : Nat) (s : Service) (k : Kernel) (m : Sys Service) : Prop :=
  LifeSteps S (w.lifeAt i s.core k) (w.lifeAt i (m k).1.core (m k).2)

section Moves

variable {S : Kind → Prop} {w : World} {i : Nat} {s s' : Service} {k k' : Kernel}

/-- Quiet calls are at most the passing of time. -/
theorem quiet_moves {c : Core} (h : Quiet k k') :
    LifeSteps S (w.lifeAt i c k) (w.lifeAt i c k') := by
  have ht := LifeStep.tick (S := S) (a := w.lifeAt i c k) k'.clock h.clock
  have he : w.lifeAt i c k' = { w.lifeAt i c k with clock := k'.clock } := by
    simp only [World.lifeAt, h.children, h.log]
  exact he ▸ .single ht

/-- A computation that keeps the core moves the slot. -/
theorem KeepsCore.moves {m : Sys Service} (h : KeepsCore s m) : Moves S w i s k m := by
  rw [Moves, h.post k]
  exact quiet_moves (h.rel k)

/-- Moves compose along `>>=`. -/
theorem Moves.bind {m : Sys Service} {f : Service → Sys Service} (hm : Moves S w i s k m)
    (hf : Moves S w i (m k).1 (m k).2 (f (m k).1)) : Moves S w i s k (m >>= f) :=
  ReflTransGen.trans hm hf

/-- Calm calls may come first. -/
theorem Moves.after {α : Type} {m : Sys α} {Q : α → Prop} {f : α → Sys Service} (hm : Calm m Q)
    (hf : Q (m k).1 → Moves S w i s (m k).2 (f (m k).1)) : Moves S w i s k (m >>= f) :=
  ReflTransGen.trans (quiet_moves (hm.rel k)) (hf (hm.post k))

/-- Both branches of a test. -/
theorem Moves.ite {c : Prop} [Decidable c] {m₁ m₂ : Sys Service} (h₁ : c → Moves S w i s k m₁)
    (h₂ : ¬c → Moves S w i s k m₂) : Moves S w i s k (if c then m₁ else m₂) := by
  split
  · exact h₁ ‹_›
  · exact h₂ ‹_›

/-- Nothing of the life cycle has changed. -/
theorem Moves.pure (h : s'.core = s.core) : Moves S w i s k (Pure.pure s') := by
  rw [Moves, Sys.pure_apply, h]

/-- A status file is written at the end of most operations. -/
theorem Moves.status {m : Sys Service} (hm : Moves S w i s k m) :
    Moves S w i s k (do
      let s ← m
      writeStatusFile s
      return s) :=
  hm.bind <| .after (writeStatusFile_calm _) fun _ => .pure rfl

/-- A test whose branches go on alike. -/
theorem Moves.iteBind {c : Prop} [Decidable c] {m₁ m₂ : Sys Service}
    {f : Service → Sys Service} (h₁ : c → Moves S w i s k m₁) (h₂ : ¬c → Moves S w i s k m₂)
    (hf : ∀ s k, Moves S w i s k (f s)) :
    Moves S w i s k (if c then m₁ >>= f else m₂ >>= f) :=
  .ite (fun hc => (h₁ hc).bind (hf _ _)) fun hc => (h₂ hc).bind (hf _ _)

/-! ## Signals -/

/-- The computation leaves the record alone and its calls are steps of the life cycle. -/
abbrev Drifts {α : Type} (S : Kind → Prop) (w : World) (i : Nat) (c : Core) (m : Sys α)
    (Q : α → Prop) : Prop :=
  StateM.Keeps (fun k k' => LifeSteps S (w.lifeAt i c k) (w.lifeAt i c k')) m Q

instance (S : Kind → Prop) (w : World) (i : Nat) (c : Core) :
    Std.Refl fun k k' => LifeSteps S (w.lifeAt i c k) (w.lifeAt i c k') := ⟨fun _ => .refl⟩

instance (S : Kind → Prop) (w : World) (i : Nat) (c : Core) :
    IsTrans Kernel fun k k' => LifeSteps S (w.lifeAt i c k) (w.lifeAt i c k') :=
  ⟨fun _ _ _ => ReflTransGen.trans⟩

/-- A call outside the life cycle. -/
theorem Calm.drifts {α : Type} {m : Sys α} {Q : α → Prop} (h : Calm m Q) (c : Core) :
    Drifts S w i c m Q :=
  h.mono fun _ _ => quiet_moves

/-- A signal for the process group of the main process. -/
theorem killMain_drifts {c : Core} (h : 0 < c.pid) (sig : Int) :
    Drifts S w i c (kill (-c.pid) sig) fun _ => True := fun _ _ =>
  ⟨.single (.signalMain i c (w.lifeAt_core ..) sig h), trivial⟩

/-- A signal for the logger. -/
theorem killLogger_drifts {c : Core} {pid : Int} (hc : c.logPid = pid) (h : 0 < pid) (sig : Int) :
    Drifts S w i c (kill pid sig) fun _ => True := fun _ _ =>
  ⟨hc ▸ .single (.signalLogger i c (w.lifeAt_core ..) sig (hc ▸ h)), trivial⟩

/-- A function that only drifts takes no step of its own. -/
theorem Drifts.moves {c : Core} {m : Sys Service} (hs : s.core = c)
    (h : Drifts S w i c m fun s' => s'.core = c) : Moves S w i s k m := by
  rw [Moves, h.post k, hs]
  exact h.rel k

/-- SIGTERM for the logger. -/
theorem signalLogger_moves (h : 0 < s.logPid) : Moves S w i s k (signalLogger s) :=
  Drifts.moves rfl <| (killLogger_drifts (c := s.core) rfl h sigterm).seq fun _ => .pure rfl

/-- A service is told to stop. -/
theorem signalStop_moves (h : 0 < s.pid) : Moves S w i s k (signalStop s) := by
  have ht := LifeStep.tell (S := S) (a := w.lifeAt i s.core k) i s.core (w.lifeAt_core ..) h
  rw [World.lifeAt_put] at ht
  exact .single ht

/-- The same, with the status. -/
theorem signalStopStatus_moves (h : 0 < s.pid) : Moves S w i s k (signalStopStatus s) :=
  (signalStop_moves h).status

/-- The stop of a service in its place. -/
theorem stopOrdered_moves : Moves S w i s k (stopOrdered s) := by
  refine .iteBind (fun h => signalStopStatus_moves ?_) (fun _ => .pure rfl) fun s k => ?_
  · simpa using (Bool.and_eq_true_iff.mp h).2
  · refine .ite (fun h => signalLogger_moves ?_) fun _ => .pure rfl
    simpa using (Bool.and_eq_true_iff.mp h).1

/-- The stop of a service without a place. -/
theorem stopRemaining_moves : Moves S w i s k (stopRemaining s) := by
  refine .iteBind (fun h => signalStop_moves ?_) (fun _ => .pure rfl) fun s k => ?_
  · simpa using (Bool.and_eq_true_iff.mp h).2
  · refine .ite (fun h => signalLogger_moves ?_) fun _ => .pure rfl
    simp only [Bool.and_eq_true, decide_eq_true_eq] at h
    exact h.1.2

/-! ## Forking -/

/-- `fork` fails quietly or adds a child with a fresh pid. -/
theorem fork_cases (role : Role) (k : Kernel) :
    ((fork role k).1 = -1 ∧ Quiet k (fork role k).2) ∨
      1 < (fork role k).1 ∧ (∀ c ∈ k.children, c.pid ≠ (fork role k).1) ∧
        (fork role k).2.children = ⟨(fork role k).1, role⟩ :: k.children ∧
        (fork role k).2.log = .fork role (fork role k).1 :: k.log ∧
        (fork role k).2.clock = k.clock := by
  simp only [fork, Sys.bind_apply]
  split
  · next h => exact .inr ⟨h.1, h.2, rfl, rfl, rfl⟩
  · exact .inl ⟨rfl, ⟨rfl, rfl, Int.le_refl _⟩⟩

/-- Starting stays due while time passes. -/
theorem Core.Due.mono {c : Core} {t t' : Int} (h : c.Due t) (ht : t ≤ t') : c.Due t' :=
  { h with elapsed := Int.le_trans h.elapsed ht }

/-- The finish script is a child of no record. -/
theorem forkFinish_drifts (c : Core) : Drifts S w i c (fork .finish) fun _ => True := by
  refine fun k _ => ⟨?_, trivial⟩
  rcases fork_cases .finish k with ⟨-, hq⟩ | ⟨hpid, hfresh, hchildren, hlog, hclock⟩
  · exact quiet_moves hq
  · have ht := LifeStep.forkFinish (S := S) (a := w.lifeAt i c k) _ ⟨hpid, hfresh⟩
    rw [World.lifeAt_eq (k := k) hchildren hclock hlog]
    exact .single ht

/-- Whether it is there or not. -/
theorem runFinish_drifts (c : Core) : Drifts S w i c (runFinish s) fun _ => True :=
  ((access_calm _ _).drifts c).seq fun _ => .ite (fun _ => .pure trivial) fun _ =>
    ((prepareServiceEnv_calm s).drifts c).bind fun _ _ =>
      (forkFinish_drifts c).seq fun _ => .pure trivial

/-- A successful fork of the logger is a step of its own. -/
theorem forkLogger_step (hS : S (.start i)) (hdue : s.core.Due k.clock)
    (hpid : 1 < (fork (.logger i) k).1)
    (hfresh : ∀ c ∈ k.children, c.pid ≠ (fork (.logger i) k).1)
    (hchildren : (fork (.logger i) k).2.children = ⟨(fork (.logger i) k).1, .logger i⟩ :: k.children)
    (hlog : (fork (.logger i) k).2.log = .fork (.logger i) (fork (.logger i) k).1 :: k.log)
    (hclock : (fork (.logger i) k).2.clock = k.clock) :
    LifeStep S (w.lifeAt i s.core k)
      (w.lifeAt i { s.core with logPid := (fork (.logger i) k).1 } (fork (.logger i) k).2) := by
  have ht := LifeStep.forkLogger (S := S) (a := w.lifeAt i s.core k) i s.core (w.lifeAt_core ..) hS _
    hdue ⟨hpid, hfresh⟩
  rw [World.lifeAt_put] at ht
  rw [World.lifeAt_eq (k := k) hchildren hclock hlog]
  exact ht

/-- What `startLogger` does to the core and the kernel. -/
def StartsLogger (S : Kind → Prop) (w : World) (i : Nat) (s : Service) (k : Kernel)
    (m : Sys (Service × Int)) :
    Prop :=
  LifeSteps S (w.lifeAt i s.core k) (w.lifeAt i (m k).1.1.core (m k).2) ∧
    ∃ logPid, (m k).1.1.core = { s.core with logPid }

/-- A start without a logger. -/
theorem Calm.startsLogger {m : Sys (Service × Int)} (hm : Calm m fun r => r.1.core = s.core) :
    StartsLogger S w i s k m := by
  rw [StartsLogger, hm.post k]
  exact ⟨quiet_moves (hm.rel k), s.logPid, rfl⟩

/-- What comes before the logger. -/
theorem StartsLogger.after {α : Type} {m : Sys α} {Q : α → Prop} {f : α → Sys (Service × Int)}
    (hm : Calm m Q) (hf : StartsLogger S w i s (m k).2 (f (m k).1)) :
    StartsLogger S w i s k (m >>= f) :=
  ⟨(quiet_moves (hm.rel k)).trans hf.1, hf.2⟩

/-- The logger's part of a start changes nothing but the logger's pid. -/
theorem startLogger_moves (hS : S (.start i)) (hdue : s.core.Due k.clock) :
    StartsLogger S w i s k (startLogger i s) := by
  unfold startLogger
  -- no logger wanted, no `run` for it, no pipe: nothing happens
  split
  · exact Calm.startsLogger (.pure rfl)
  refine .after (access_calm _ _) ?_
  -- the service is still due when the next call is made
  have hdue₁ := hdue.mono ((access_calm (joinPath s.dir "/log/run") .exec).rel k).clock
  revert hdue₁
  generalize (access (joinPath s.dir "/log/run") .exec k).2 = k₁
  intro hdue₁
  split
  · exact Calm.startsLogger (.pure rfl)
  refine .after newPipe_calm ?_
  have hdue₂ := hdue₁.mono (newPipe_calm.rel k₁).clock
  revert hdue₂
  generalize (newPipe k₁).2 = k₂
  intro hdue₂
  split
  · exact Calm.startsLogger (.pure rfl)
  next pipeRead pipeWrite _ =>
    simp only [StartsLogger, Sys.bind_apply]
    -- `fork` is the one step of the life cycle
    rcases fork_cases (.logger i) k₂ with ⟨hfail, hq⟩ | ⟨hpid, hfresh, hchildren, hlog, hclock⟩
    · rw [if_neg (by omega)]
      have hrest := ((closeFd_calm pipeWrite).rel (fork (.logger i) k₂).2).trans
        ((closeFd_calm pipeRead).rel _)
      exact ⟨quiet_moves (hq.trans hrest), s.logPid, rfl⟩
    · rw [if_pos (by omega)]
      have hrest := (monoNow_quiet (fork (.logger i) k₂).2).trans ((closeFd_calm pipeRead).rel _)
      exact ⟨.head (forkLogger_step hS hdue₂ hpid hfresh hchildren hlog hclock) (quiet_moves hrest),
        _, rfl⟩

/-! ## Starting -/

/-- The failures of `start_service`. -/
theorem startFailed_moves {c : Core} {pid : Int} (hS : S (.start i)) (hdue : c.Due k.clock)
    (hpid : pid = c.pid ∨ pid = -1) (hs : s.core = { c with pid }) :
    LifeSteps S (w.lifeAt i c k) (w.lifeAt i (startFailed s k).1.core (startFailed s k).2) := by
  have ht := LifeStep.startFail (S := S) (a := w.lifeAt i c k) i c (w.lifeAt_core ..) hS pid
    k.reading hdue hpid
    k.clock_le_reading
  have hcore : (startFailed s k).1.core =
      { s.core with state := .failed, restartAt := i64 (k.reading + backoffShort) } := rfl
  rw [World.lifeAt_put] at ht
  rw [hcore, hs]
  exact .head ht (quiet_moves ((writeStatusFile_calm _).rel (monoNow k).2))

theorem closeChildEnds_calm (s : Service) (fds : StartFds) :
    Calm (closeChildEnds s fds) fun _ => True :=
  .ite (fun _ => closeFd_calm _) fun _ => (closeFd_calm _).seq fun _ => closeFd_calm _

theorem attachStreams_calm (s : Service) (fds : StartFds) : KeepsCore s (attachStreams s fds) := by
  refine .ite (fun _ => .pure rfl) fun _ => ?_
  exact (openLog_calm false _).bind fun s₁ h₁ => (openLog_calm true s₁).weaken fun _ h => h.trans h₁

theorem attachStatus_calm (s : Service) (fds : StartFds) :
    KeepsCore s (do
      let s ← attachStreams s fds
      writeStatusFile s
      return s) :=
  (attachStreams_calm s fds).bind fun s₁ h₁ => (writeStatusFile_calm s₁).seq fun _ => .pure h₁

/-- The fork fails, and the start is put off. -/
theorem mainForkFailed_moves {fds : StartFds} (hS : S (.start i)) (hdue : s.core.Due k.clock) :
    Moves S w i s k (mainForkFailed s fds) := by
  have hfail : ∀ k₁, Quiet k k₁ → Moves S w i s k₁ (startFailed { s with pid := -1 }) :=
    fun k₁ h => startFailed_moves hS (hdue.mono h.clock) (.inr rfl) rfl
  unfold mainForkFailed
  split
  · have h₁ := (closeFd_calm fds.out0).rel k
    have h₂ := h₁.trans ((closeFd_calm fds.err0).rel _)
    exact .after (closeFd_calm _) fun _ => .after (closeFd_calm _) fun _ => hfail _ h₂
  · exact hfail k (Quiet.refl k)

/-- The fork of a main process, the clock reading and the log line make up one step. -/
theorem start_step {c : Core} {pid : Int} (k' : Kernel) (hS : S (.start i)) (hdue : c.Due k.clock)
    (hpid : 1 < pid)
    (hfresh : ∀ d ∈ k.children, d.pid ≠ pid)
    (hchildren : k'.children = ⟨pid, .main i⟩ :: k.children) (hclock : k.clock ≤ k'.clock)
    (hlog : k'.log = .started i k'.clock :: .fork (.main i) pid :: k.log) :
    LifeStep S (w.lifeAt i c k) (w.lifeAt i (c.start pid k'.clock) k') := by
  have ht := LifeStep.start (S := S) (a := w.lifeAt i c k) i c (w.lifeAt_core ..) hS pid k'.clock hdue
    ⟨hpid, hfresh⟩ hclock
  rw [World.lifeAt_put] at ht
  rw [World.lifeAt_eq (k := k) hchildren rfl hlog]
  exact ht

/-- The fork of the main process is the start. -/
theorem forkMain_moves {fds : StartFds} (hS : S (.start i)) (hdue : s.core.Due k.clock) :
    Moves S w i s k (forkMain i s fds) := by
  simp only [Moves, forkMain, Sys.bind_apply]
  have hclose := (closeChildEnds_calm s fds).rel (fork (.main i) k).2
  -- no child, or one whose start is logged after the ends are closed
  rcases fork_cases (.main i) k with ⟨hfail, hq⟩ | ⟨hpid, hfresh, hchildren, hlog, hclock⟩
  · rw [if_neg (by omega)]
    have hk := hq.trans hclose
    exact (quiet_moves hk).trans (mainForkFailed_moves hS (hdue.mono hk.clock))
  · rw [if_pos (by omega)]
    -- the time of the start is read after the fork
    have hle := hclose.clock
    rw [hclock] at hle
    generalize (closeChildEnds s fds (fork (.main i) k).2).2 = k₁ at hclose hle ⊢
    have hlog₁ : (emit (.started i k₁.reading) (monoNow k₁).2).2.log =
        .started i k₁.reading :: .fork (.main i) (fork (.main i) k).1 :: k.log := by
      rw [emit_log rfl, (monoNow_quiet k₁).log, hclose.log, hlog]
    have hstart : LifeStep S (w.lifeAt i s.core k)
        (w.lifeAt i (s.core.start (fork (.main i) k).1 k₁.reading)
          (emit (.started i k₁.reading) (monoNow k₁).2).2) :=
      start_step (emit (.started i k₁.reading) (monoNow k₁).2).2 hS hdue hpid hfresh
        (hclose.children.trans hchildren)
        (Int.le_trans hle k₁.clock_le_reading) hlog₁
    -- what follows the start is silent
    have hrest := attachStatus_calm (s.started (fork (.main i) k).1 k₁.reading) fds
    exact .head hstart (hrest.moves (w := w))

/-- What comes before the fork is not seen. -/
theorem startMain_moves {out0 : Int} (hS : S (.start i)) (hdue : s.core.Due k.clock) :
    Moves S w i s k (startMain i s out0) := by
  refine .ite (fun _ => forkMain_moves hS hdue) fun _ => .after openPipes_calm fun _ => ?_
  have h := hdue.mono (openPipes_calm.rel k).clock
  split
  · exact startFailed_moves hS h (.inl rfl) rfl
  · exact forkMain_moves hS h

theorem closeReadEnds_calm (s : Service) : KeepsCore s (closeReadEnds s) :=
  (closeFd_calm _).seq fun _ => (closeFd_calm _).seq fun _ => .pure rfl

/-- Starting stays due over a computation that keeps the core. -/
theorem KeepsCore.due {m : Sys Service} (h : KeepsCore s m) (hdue : s.core.Due k.clock) :
    (m k).1.core.Due (m k).2.clock := by
  rw [h.post k]
  exact hdue.mono (h.rel k).clock

/-- After its logger, the service is still due. -/
theorem StartsLogger.due {m : Sys (Service × Int)} (h : StartsLogger S w i s k m)
    (hdue : s.core.Due k.clock) : (m k).1.1.core.Due (m k).2.clock := by
  obtain ⟨hsteps, logPid, hcore⟩ := h
  rw [hcore]
  exact Core.Due.mono { hdue with } hsteps.clock_le

/-- A start of a service that is due. -/
theorem startService_moves (hS : S (.start i)) (hdue : s.core.Due k.clock) :
    Moves S w i s k (startService i s) := by
  refine .ite (fun _ => .pure rfl) fun _ => ?_
  have henv := prepareServiceEnv_calm s
  refine .bind henv.moves (.bind (closeReadEnds_calm _).moves ?_)
  have h₁ := (closeReadEnds_calm _).due (henv.due hdue)
  have hlogger := startLogger_moves hS (w := w) (i := i) h₁
  exact hlogger.1.trans (startMain_moves hS (hlogger.due h₁))

/-! ## Exits -/

/-- The record without its main process. -/
@[simp] theorem exited_core (s : Service) (status : Int) :
    (s.exited status).core =
      { s.core with pid := -1, state := (decodeWaitStatus status).1 } := rfl

/-- The accounting of an exit is that of the life cycle. -/
theorem accountExit_core (s : Service) (t : Int) :
    (accountExit s t).core = s.core.account t := by
  simp only [accountExit, apply_ite Service.core]
  rfl

/-- The logger may be told to stop. -/
theorem stopExitedLogger_drifts {c : Core} (h : c.logPid = s.logPid) :
    Drifts S w i c (stopExitedLogger s) fun s' => s'.core = s.core := by
  refine .ite (fun hc => ?_) fun _ => .pure rfl
  have hpid : s.logPid > 0 := by simpa using (Bool.and_eq_true_iff.mp hc).1
  exact (killLogger_drifts h hpid sigterm).seq fun _ => .pure rfl

/-- After the entry in the log, the record only loses its process. -/
theorem reapMain_drifts (i : Nat) (status t : Int) (s : Service) :
    Drifts S w i (s.core.exit status t) (do
      runFinish (s.exited status)
      let s ← stopExitedLogger (s.exited status)
      writeStatusFile (accountExit s t)
      return accountExit s t) fun s' => s'.core = s.core.exit status t := by
  have hlog : (s.core.exit status t).logPid = (s.exited status).logPid := by
    obtain ⟨_, _, _, _, h, -⟩ := Core.account_frame (s.exited status).core t
    exact congrArg Core.logPid h
  refine (runFinish_drifts _).seq fun _ => (stopExitedLogger_drifts hlog).bind fun s' h' => ?_
  refine ((writeStatusFile_calm _).drifts _).seq fun _ => .pure ?_
  rw [accountExit_core, h', exited_core, Core.exit]

/-! ## Scanning -/

/-- A new record, not in its slot yet. -/
theorem buildService_calm (name : Bytes) (dir : CStrBuf) :
    Calm (buildService name dir) fun s => s.core.New := by
  refine (access_calm _ _).seq fun down => (access_calm _ _).seq fun once =>
    (readFileToBuf_calm _ _).seq fun data => (access_calm _ _).seq fun log => ?_
  refine (parseUserGroup_calm _).bind fun s₁ h₁ => (prepareServiceEnv_calm s₁).bind fun s₂ h₂ =>
    (writeStatusFile_calm s₂).seq fun _ => .pure ?_
  rw [h₂, h₁]
  cases down <;> cases once <;> cases data <;> cases log <;>
    exact ⟨rfl, rfl, rfl, rfl, rfl, rfl, rfl, rfl, rfl⟩

/-- An event of the life cycle is logged. -/
theorem lifeAt_emit {c : Core} {e : Event} (h : e.isLife = true) :
    w.lifeAt i c (emit e k).2 = { w.lifeAt i c k with log := e :: k.log } :=
  World.lifeAt_eq rfl rfl (emit_log h k)

/-- A step that changes the record and makes one entry in the log. -/
theorem Moves.emit {r : Service} {e : Event} (he : e.isLife = true) {f : Unit → Sys Service}
    (hstep : LifeStep S (w.lifeAt i s.core k) { w.lifeAt i r.core k with log := e :: k.log })
    (hf : Moves S w i r (SvcRs.emit e k).2 (f ())) : Moves S w i s k (SvcRs.emit e >>= f) := by
  rw [← lifeAt_emit he] at hstep
  exact .head hstep hf

/-- A new record in a free slot. -/
theorem newService_moves (hS : S (.add i)) (hi : i < w.size) (hact : s.active = false)
    {name : Bytes} {dir : CStrBuf} : Moves S w i s k (newService i name dir) := by
  refine .after (buildService_calm name dir) fun hnew => ?_
  generalize buildService name dir k = r at hnew ⊢
  obtain ⟨s₁, k₁⟩ := r
  have hadd := LifeStep.add (S := S) (a := w.lifeAt i s.core k₁) i s₁.core hi
    (by rw [World.lifeAt_core]; exact hact) hnew hS
  rw [World.lifeAt_put] at hadd
  exact .emit rfl hadd (.pure rfl)

/-- A known directory. -/
theorem foundService_moves (hS : S (.found i)) : Moves S w i s k (foundService i s) := by
  have hfound := LifeStep.found (S := S) (a := w.lifeAt i s.core k) i s.core (w.lifeAt_core ..) hS
  rw [World.lifeAt_put] at hfound
  refine .emit (r := { s with present := true, stopping := false }) rfl hfound ?_
  exact .bind (parseUserGroup_calm _).moves (prepareServiceEnv_calm _).moves

/-- The mark is taken away. -/
theorem unmark_moves : Moves S w i s k (pure { s with present := false }) := by
  have h := LifeStep.unmark (S := S) (a := w.lifeAt i s.core k) i s.core (w.lifeAt_core ..)
  rw [World.lifeAt_put] at h
  exact .single h

/-- A slot without processes is freed. -/
theorem releaseSlot_moves (hpid : s.pid ≤ 0) (hlog : s.logPid ≤ 0) :
    Moves S w i s k (releaseSlot i s) := by
  have hclose := closeServiceFds_calm s
  refine .bind hclose.moves ?_
  have hcore := hclose.post k
  generalize closeServiceFds s k = r at hcore ⊢
  obtain ⟨s₁, k₁⟩ := r
  refine .after (writeStatusFile_calm _) fun _ => ?_
  generalize (writeStatusFile _ k₁).2 = k₂
  -- closing files does not bring a process back
  have hpid₁ : s₁.core.pid ≤ 0 := hcore ▸ hpid
  have hlog₁ : s₁.core.logPid ≤ 0 := hcore ▸ hlog
  have h := LifeStep.remove (S := S) (a := w.lifeAt i s₁.core k₂) i s₁.core (w.lifeAt_core ..)
    hpid₁ hlog₁
  rw [World.lifeAt_put] at h
  exact .emit (r := { s₁ with active := false, state := .down }) rfl h (.pure rfl)

/-- A missing service is freed, or waited for. -/
theorem releaseMissing_moves : Moves S w i s k (releaseMissing i s) := by
  refine .iteBind (fun h => signalLogger_moves ?_) (fun _ => .pure rfl) fun s₁ k₁ => ?_
  · simpa using (Bool.and_eq_true_iff.mp h).1
  · refine .ite (fun h => ?_) fun _ => .pure rfl
    simp only [Bool.and_eq_true, decide_eq_true_eq] at h
    exact releaseSlot_moves h.1 h.2

/-- A start that is put off. -/
theorem retryLater_moves (hS : S (.start i)) (hdue : s.core.Due k.clock) :
    Moves S w i s k (retryLater s) := by
  have h := LifeStep.retry (S := S) (a := w.lifeAt i s.core k) i s.core (w.lifeAt_core ..) hS
    k.reading hdue
    k.clock_le_reading
  rw [World.lifeAt_put] at h
  exact .single h

/-! ## Commands -/

/-- The logger of the service, if there is one. -/
theorem stopLogger_drifts (s : Service) :
    Drifts S w i s.core (if s.logPid > 0 then signalLogger s else pure s)
      fun s' => s'.core = s.core :=
  .ite (fun h => (killLogger_drifts rfl h sigterm).seq fun _ => .pure rfl) fun _ => .pure rfl

/-- The signals of a `stop`. -/
theorem stopSignals_drifts (s : Service) :
    Drifts S w i s.core (stopSignals s) fun s' => s'.core = s.core :=
  .ite (fun h => (killMain_drifts (c := s.core) h sigterm).seq fun _ => stopLogger_drifts s)
    fun _ => stopLogger_drifts s

/-- The signals of `stop` and `restart`, and the status file. -/
theorem stopStatus_moves : Moves S w i s k (do
    let s ← stopSignals s
    writeStatusFile s
    return s) :=
  ((stopSignals_drifts s).moves rfl).status

/-- `up` reads the clock before it changes the record. -/
theorem upCmd_moves (hS : S (.command .up i)) : Moves S w i s k (acceptCmd .up i s) := by
  let path := joinPath s.dir "/down"
  have hunlink := (emit_calm (e := .unlinked path) rfl).rel (emit (.accepted .up i) k).2
  let k₁ := (emit (.unlinked path) (emit (.accepted .up i) k).2).2
  have hcmd := LifeStep.command (S := S) (a := w.lifeAt i s.core k) i s.core (w.lifeAt_core ..) .up
    k₁.reading k₁.clock_le_reading hS
  -- removing `down` leaves no entry in the log
  have hlog : (monoNow k₁).2.log = .accepted .up i :: k.log := by
    rw [(monoNow_quiet k₁).log, hunlink.log, emit_log rfl]
  rw [World.lifeAt_put] at hcmd
  have hcmd' : LifeStep S (w.lifeAt i s.core k)
      (w.lifeAt i (s.core.command k₁.reading .up) (monoNow k₁).2) := by
    rw [World.lifeAt_eq (k := k) rfl rfl hlog]
    exact hcmd
  exact .head hcmd' (quiet_moves ((writeStatusFile_calm _).rel _))

/-- A command for the service. -/
theorem acceptCmd_moves (cmd : SvcCmd) (hS : S (.command cmd i)) :
    Moves S w i s k (acceptCmd cmd i s) := by
  have hcmd := LifeStep.command (S := S) (a := w.lifeAt i s.core k) i s.core (w.lifeAt_core ..) cmd
  simp only [World.lifeAt_put] at hcmd
  -- the answer OK and the change of the record are one step
  have hnow := hcmd k.clock (Int.le_refl _) hS
  cases cmd with
  | start =>
    exact .emit (r := { s with manualStart := true, restartAt := 0, stopping := false }) rfl hnow
      (.pure rfl)
  | stop =>
    exact .emit (r := { s with stopping := true, state := .stopping }) rfl hnow stopStatus_moves
  | restart =>
    exact .emit (r := { s with stopping := true, state := .stopping, manualStart := true }) rfl
      hnow stopStatus_moves
  | down =>
    -- `down` stops the process, if there is one
    by_cases hpid : 0 < s.pid
    · have hcore : s.core.command k.clock .down =
          { s with autoStart := false, stopping := true, state := .stopping : Service }.core :=
        if_pos hpid
      rw [hcore] at hnow
      refine .emit rfl hnow (.after (touchFile_calm _) fun _ => ?_)
      simp only [gt_iff_lt, if_pos hpid]
      exact stopStatus_moves
    · have hcore : s.core.command k.clock .down = { s with autoStart := false : Service }.core :=
        if_neg hpid
      rw [hcore] at hnow
      refine .emit rfl hnow (.after (touchFile_calm _) fun _ => ?_)
      simp only [gt_iff_lt, if_neg hpid]
      exact .status (.pure rfl)
  | up => exact upCmd_moves hS
  | once =>
    refine .emit (r := { s with once := true }) rfl hnow (.after (touchFile_calm _) fun _ => ?_)
    exact .after (writeStatusFile_calm _) fun _ => .pure rfl

end Moves

end SvcRs
