import SvcRs.Spec.Processes

/-!
# Loggers and records

The logger of a service outlives a crash of the main process. The next start forks
another one and overwrites the `log_pid` of the first.

## Key results

- `loggers_recorded_iff`: no logger is forgotten as long as no start overwrites one
-/

namespace SvcRs

open Transition (run Along)

/-! ## Loggers in the life cycle -/

/-- Every unreaped logger is the `log_pid` of its service. -/
def Life.LoggersKept (a : Life) : Prop :=
  ∀ i pid, ⟨pid, .logger i⟩ ∈ a.children → (a.core i).active = true ∧ (a.core i).logPid = pid

/-- A record that keeps its logger. -/
theorem Life.LoggersKept.put {a : Life} (h : a.LoggersKept) {i : Nat} {c : Core}
    (hact : c.active = (a.core i).active) (hpid : c.logPid = (a.core i).logPid) :
    (a.put i c).LoggersKept := by
  intro j pid hmem
  have := h j pid hmem
  rw [put_core]
  split
  · next hj => subst hj; rw [hact, hpid]; exact this
  · exact this

/-- With fewer children, fewer records are asked for. -/
theorem Life.LoggersKept.without {a : Life} (h : a.LoggersKept) (pid : Int) :
    ({ a with children := a.without pid } : Life).LoggersKept :=
  fun j p hmem => h j p (Tracked.mem_without.mp hmem).1

/-- Neither the clock nor the log matters. -/
theorem Life.LoggersKept.withLog {a : Life} (h : a.LoggersKept) (clock : Int) (log : List Event) :
    ({ a with clock, log } : Life).LoggersKept := h

/-- A step that starts nothing keeps the loggers. -/
theorem LifeStep.loggersKept {a b : Life} (hstep : LifeStep noStart a b) (ht : a.Tracked)
    (h : a.LoggersKept) : b.LoggersKept := by
  cases hstep with
  | tick | runCheck | signalMain | signalLogger | raiseHup => exact h
  | forkFinish pid hpid => exact fun j p hmem => h j p (by simpa using hmem)
  | reapOther pid status hmem hlog hmain => exact h.without pid
  | reapLogger i c hc status hmem hact =>
    subst hc
    intro j p hmem
    obtain ⟨hold, hne⟩ := Life.Tracked.mem_without.mp hmem
    have hj := h j p hold
    rw [Life.put_core]
    split
    -- the logger that is recorded is the one that was reaped
    · next he => subst he; exact absurd hj.2.symm hne
    · exact hj
  | reapMain i c hc status t before hbefore hmem hact hlog ht hmax =>
    subst hc
    exact (h.put ((a.core i).exit_active status t) ((a.core i).exit_logPid status t)).without _
  | remove i c hc hpid hlog =>
    subst hc
    intro j p hmem
    have hj := h j p hmem
    have hpos : 1 < p := ht.above _ hmem
    rw [Life.put_core]
    split
    -- a slot that is freed has no logger
    · next he => subst he; omega
    · exact hj
  | add i c hi hact hnew =>
    intro j p hmem
    have hj := h j p hmem
    rw [Life.put_core]
    split
    -- nor has one that was free
    · next he => subst he; exact absurd (hj.1.symm.trans hact) (by decide)
    · exact hj
  | tell i c hc => subst hc; exact h.put (c := (a.core i).told) rfl rfl
  | unmark i c hc => subst hc; exact h.put rfl rfl
  | found i c hc hS =>
    subst hc
    exact h.put (c := { a.core i with present := true, stopping := false }) rfl rfl
  | command i c hc cmd t ht =>
    subst hc
    exact h.put ((a.core i).command_active t cmd) ((a.core i).command_logPid t cmd)
  | retry _ _ _ hS | forkLogger _ _ _ hS | start _ _ _ hS | startFail _ _ _ hS => exact hS.elim

/-! ## Loggers during a start -/

/-- The same loggers are unreaped. -/
def SameLoggers (k k' : Kernel) : Prop :=
  ∀ i pid, ⟨pid, .logger i⟩ ∈ k'.children ↔ ⟨pid, .logger i⟩ ∈ k.children

instance : Std.Refl SameLoggers := ⟨fun _ _ _ => Iff.rfl⟩

instance : IsTrans Kernel SameLoggers := ⟨fun _ _ _ h₁ h₂ i pid => (h₂ i pid).trans (h₁ i pid)⟩

/-- What is quiet starts and reaps no logger. -/
theorem Quiet.sameLoggers {k k' : Kernel} (h : Quiet k k') : SameLoggers k k' := by
  intro i pid
  rw [h.children]

/-- A computation that touches neither the loggers nor `log_pid`. -/
abbrev LeavesLogger (s : Service) (m : Sys Service) : Prop :=
  StateM.Keeps SameLoggers m fun s' => s'.logPid = s.logPid ∧ s'.active = s.active

/-- A function that keeps the life cycle keeps the logger. -/
theorem KeepsCore.leavesLogger {s : Service} {m : Sys Service} (h : KeepsCore s m) :
    LeavesLogger s m :=
  (h.mono fun _ _ => Quiet.sameLoggers).weaken fun _ he =>
    ⟨congrArg Core.logPid he, congrArg Core.active he⟩

theorem Calm.sameLoggers {α : Type} {m : Sys α} {Q : α → Prop} (h : Calm m Q) :
    StateM.Keeps SameLoggers m Q :=
  h.mono fun _ _ => Quiet.sameLoggers

/-- A start that fails. -/
theorem startFailed_leavesLogger (s : Service) : LeavesLogger s (startFailed s) :=
  monoNow_calm.sameLoggers.bind fun _ _ => (writeStatusFile_calm _).sameLoggers.seq fun _ =>
    .pure ⟨rfl, rfl⟩

/-- The fork of the main process. -/
theorem forkMain_leavesLogger (i : Nat) (s : Service) (fds : StartFds) :
    LeavesLogger s (forkMain i s fds) := by
  have hfork : StateM.Keeps SameLoggers (fork (.main i)) fun _ => True := by
    refine fun k _ => ⟨fun j pid => ?_, trivial⟩
    -- forking a main process makes no logger
    rcases fork_cases (.main i) k with ⟨-, hq⟩ | ⟨-, -, hchildren, -, -⟩
    · exact hq.sameLoggers j pid
    · simp [hchildren]
  refine hfork.seq fun pid => (closeChildEnds_calm s fds).sameLoggers.seq fun _ =>
    .ite (fun _ => ?_) fun _ => ?_
  · refine monoNow_calm.sameLoggers.bind fun now _ => ?_
    have hemit : StateM.Keeps SameLoggers (emit (.started i now)) fun _ => True :=
      fun _ _ => ⟨fun _ _ => Iff.rfl, trivial⟩
    exact hemit.seq fun _ => (attachStatus_calm (s.started pid now) fds).leavesLogger
  · refine .ite (fun _ => ?_) fun _ => startFailed_leavesLogger _
    exact (closeFd_calm _).sameLoggers.seq fun _ => (closeFd_calm _).sameLoggers.seq fun _ =>
      startFailed_leavesLogger _

/-- The part of a start after the logger. -/
theorem startMain_leavesLogger (i : Nat) (s : Service) (out0 : Int) :
    LeavesLogger s (startMain i s out0) := by
  refine .ite (fun _ => forkMain_leavesLogger i s _) fun _ =>
    openPipes_calm.sameLoggers.seq fun fds => ?_
  cases fds with
  | none => exact startFailed_leavesLogger s
  | some fds => exact forkMain_leavesLogger i s fds

/-- What `fork` returns to `startLogger`, or -1 if it does not get that far. -/
def loggerFork (slot : Nat) (s : Service) : Sys Int := do
  if !s.hasLog then return -1
  if !(← access (joinPath s.dir "/log/run") .exec) then return -1
  match ← newPipe with
  | none => return -1
  | some _ => fork (.logger slot)

/-- Either the logger is forked or nothing happens to the loggers. -/
theorem startLogger_cases (i : Nat) (s : Service) (k : Kernel) :
    (startLogger i s k).1.1.active = s.active ∧
      ((loggerFork i s k).1 ≤ 0 ∧ (startLogger i s k).1.1.logPid = s.logPid ∧
          SameLoggers k (startLogger i s k).2 ∨
        1 < (loggerFork i s k).1 ∧ (startLogger i s k).1.1.logPid = (loggerFork i s k).1 ∧
          (∀ c ∈ k.children, c.pid ≠ (loggerFork i s k).1) ∧
          (startLogger i s k).2.children = ⟨(loggerFork i s k).1, .logger i⟩ :: k.children) := by
  unfold startLogger loggerFork
  split
  · exact ⟨rfl, .inl ⟨by simp, rfl, Std.Refl.refl k⟩⟩
  simp only [Sys.bind_apply]
  have hacc := ((access_calm (joinPath s.dir "/log/run") .exec).rel k)
  generalize access (joinPath s.dir "/log/run") .exec k = r at hacc ⊢
  obtain ⟨ok, k₁⟩ := r
  cases ok with
  | false => exact ⟨rfl, .inl ⟨by simp, rfl, hacc.sameLoggers⟩⟩
  | true =>
    simp only [Bool.not_true, Bool.false_eq_true, if_false, Sys.bind_apply]
    have hpipe := hacc.trans (newPipe_calm.rel k₁)
    generalize newPipe k₁ = r at hpipe ⊢
    obtain ⟨pipe, k₂⟩ := r
    cases pipe with
    | none => exact ⟨rfl, .inl ⟨by simp, rfl, hpipe.sameLoggers⟩⟩
    | some ends =>
      simp only [Sys.bind_apply]
      -- the last call that can fail
      rcases fork_cases (.logger i) k₂ with ⟨hfail, hq⟩ | ⟨hpid, hfresh, hchildren, -, -⟩
      · rw [if_neg (by omega), hfail]
        have hclose := ((closeFd_calm ends.2).rel (fork (.logger i) k₂).2).trans
          ((closeFd_calm ends.1).rel _)
        exact ⟨rfl, .inl ⟨by simp, rfl, (hpipe.trans (hq.trans hclose)).sameLoggers⟩⟩
      · rw [if_pos (by omega)]
        have hrest := (monoNow_quiet (fork (.logger i) k₂).2).trans ((closeFd_calm ends.1).rel _)
        refine ⟨rfl, .inr ⟨hpid, rfl, fun c hc => hfresh c (hpipe.children.symm ▸ hc), ?_⟩⟩
        exact hrest.children.trans (hchildren.trans (by rw [hpipe.children]))

/-- The answer that `start_service` gets when it forks the logger of `s`. -/
def startLoggerFork (slot : Nat) (s : Service) : Sys Int := do
  let s ← prepareServiceEnv s
  let s ← closeReadEnds s
  loggerFork slot s

/-- What a start does to the loggers and to `log_pid`. -/
theorem startService_cases {i : Nat} {s : Service} {t : Int} (hdue : s.core.Due t) (k : Kernel) :
    (startService i s k).1.active = s.active ∧
      ((startLoggerFork i s k).1 ≤ 0 ∧ (startService i s k).1.logPid = s.logPid ∧
          SameLoggers k (startService i s k).2 ∨
        1 < (startLoggerFork i s k).1 ∧
          (startService i s k).1.logPid = (startLoggerFork i s k).1 ∧
          (∀ c ∈ k.children, c.pid ≠ (startLoggerFork i s k).1) ∧
          ∀ j pid, ⟨pid, .logger j⟩ ∈ (startService i s k).2.children ↔
            (pid = (startLoggerFork i s k).1 ∧ j = i) ∨ ⟨pid, .logger j⟩ ∈ k.children) := by
  have hgo : (!s.active || !s.present || s.stopping || s.pid > 0) = false := by
    have hact : s.active = true := hdue.active
    have hpresent : s.present = true := hdue.present
    have hstop : s.stopping = false := hdue.notStopping
    have hidle : s.pid ≤ 0 := hdue.idle
    simp [hact, hpresent, hstop, hidle]
  simp only [startService, startLoggerFork, hgo, Bool.false_eq_true, if_false, Sys.bind_apply]
  -- what comes before the logger is quiet
  have henv := prepareServiceEnv_calm s
  have hclose := closeReadEnds_calm (prepareServiceEnv s k).1
  have hcore₁ := (hclose.post (prepareServiceEnv s k).2).trans (henv.post k)
  have hk₁ := (henv.rel k).trans (hclose.rel (prepareServiceEnv s k).2)
  generalize closeReadEnds (prepareServiceEnv s k).1 (prepareServiceEnv s k).2 = r at hcore₁ hk₁ ⊢
  obtain ⟨s₁, k₁⟩ := r
  obtain ⟨hact₂, hlogger⟩ := startLogger_cases i s₁ k₁
  generalize startLogger i s₁ k₁ = r at hact₂ hlogger ⊢
  obtain ⟨⟨s₂, out0⟩, k₂⟩ := r
  -- and what comes after it leaves it alone
  have hmain := startMain_leavesLogger i s₂ out0
  obtain ⟨hlogPid₃, hact₃⟩ := hmain.post k₂
  have hk₃ := hmain.rel k₂
  have hact₁ : s₁.active = s.active := congrArg Core.active hcore₁
  have hlogPid₁ : s₁.logPid = s.logPid := congrArg Core.logPid hcore₁
  refine ⟨hact₃.trans (hact₂.trans hact₁), ?_⟩
  rcases hlogger with ⟨hpid, hlogPid₂, hk₂⟩ | ⟨hpid, hlogPid₂, hfresh, hchildren⟩
  · exact .inl ⟨hpid, hlogPid₃.trans (hlogPid₂.trans hlogPid₁),
      fun j p => (hk₃ j p).trans ((hk₂ j p).trans (hk₁.sameLoggers j p))⟩
  · refine .inr ⟨hpid, hlogPid₃.trans hlogPid₂, fun c hc => hfresh c (hk₁.children.symm ▸ hc),
      fun j p => (hk₃ j p).trans ?_⟩
    rw [show k₂.children = _ from hchildren, show k₁.children = k.children from hk₁.children]
    simp

/-! ## Loggers in a run -/

/-- Every unreaped logger is the `log_pid` of exactly one active service. -/
def World.LoggersRecorded (w : World) : Prop :=
  ∀ c ∈ w.k.children, ∀ i, c.role = .logger i →
    i < w.size ∧ (w.svc i).active = true ∧ (w.svc i).logPid = c.pid ∧
      ∀ j, (w.svc j).active = true → (w.svc j).logPid = c.pid → j = i

/-- The operation starts a service and forks a logger for it although the record still
    has one. -/
def Overwrites (w : World) : Op → Prop
  | .start t i =>
    startDue (min t w.k.clock) (w.svc i) = true ∧ depsSatisfied w (w.svc i) = true ∧
      0 < (w.svc i).logPid ∧ 0 < (startLoggerFork i (w.svc i) w.k).1
  | _ => False

/-- What is asked of the supervisor, in terms of the life cycle. -/
theorem loggersRecorded_iff {w : World} (h : w.life.Tracked) :
    w.LoggersRecorded ↔ w.life.LoggersKept := by
  constructor
  · intro hrec i pid hmem
    obtain ⟨-, hact, hpid, -⟩ := hrec ⟨pid, .logger i⟩ hmem i rfl
    exact ⟨hact, hpid⟩
  · rintro hkept ⟨pid, role⟩ hmem i rfl
    obtain ⟨hact, hpid⟩ := hkept i pid hmem
    refine ⟨h.inTable i hact, hact, hpid, fun j hactj hpidj => ?_⟩
    -- two records with one logger are two names for the same child
    have hpos : 1 < pid := h.above _ hmem
    have hpid' : (w.life.core j).logPid = pid := hpidj
    have hj := h.logger j (by omega)
    rw [hpid'] at hj
    simpa using h.role_eq hj hmem

/-- A start that is put off. -/
theorem retryLater_leavesLogger (s : Service) : LeavesLogger s (retryLater s) :=
  monoNow_calm.sameLoggers.bind fun _ _ => .pure ⟨rfl, rfl⟩

/-- A function on one record that keeps its logger. -/
theorem loggersKept_onSlot {w : World} (hkept : w.life.LoggersKept) {i : Nat}
    {f : Service → Sys Service} (h : LeavesLogger (w.svc i) (f (w.svc i))) :
    (onSlot i f w).2.life.LoggersKept := by
  intro j pid hmem
  have hj := hkept j pid ((h.rel w.k j pid).mp hmem)
  obtain ⟨hlogPid, hact⟩ := h.post w.k
  simp only [World.life, onSlot_svc]
  split
  · next he =>
    subst he
    exact ⟨hact.trans hj.1, hlogPid.trans hj.2⟩
  · exact hj

/-- Starting a service keeps the loggers recorded unless it forks one over another. -/
theorem loggersKept_startService {w : World} (h : w.life.Tracked) (hkept : w.life.LoggersKept)
    {i : Nat} (hdue : (w.svc i).core.Due w.k.clock) :
    (onSlot i (startService i) w).2.life.LoggersKept ↔
      ¬(0 < (w.svc i).logPid ∧ 0 < (startLoggerFork i (w.svc i) w.k).1) := by
  obtain ⟨hact, hcases⟩ := startService_cases (i := i) hdue w.k
  have hactive : (w.svc i).active = true := hdue.active
  constructor
  · rintro hkept' ⟨hlogPid, hpid⟩
    rcases hcases with ⟨hno, -⟩ | ⟨-, hnew, hfresh, hchildren⟩
    · omega
    · -- the old logger is still there, and its record has another pid
      have hold := h.logger i hlogPid
      have hrec := (hkept' i _ ((hchildren i _).mpr (.inr hold))).2
      simp only [World.life, onSlot_svc, if_true] at hrec
      exact hfresh _ hold (hrec.symm.trans hnew)
  · intro hno j pid hmem
    simp only [World.life, onSlot_svc]
    rcases hcases with ⟨-, hlogPid, hsame⟩ | ⟨hpid, hnew, -, hchildren⟩
    -- no logger was forked
    · have hj := hkept j pid ((hsame j pid).mp hmem)
      split
      · next he => subst he; exact ⟨hact.trans hj.1, hlogPid.trans hj.2⟩
      · exact hj
    -- the new one is recorded, and an old one can only be that of another slot
    · rcases (hchildren j pid).mp hmem with ⟨rfl, rfl⟩ | hold
      · rw [if_pos rfl]
        exact ⟨hact.trans hactive, hnew⟩
      · have hj := hkept j pid hold
        split
        · next he =>
          subst he
          have habove : 1 < pid := h.above _ hold
          have hlogPid : (w.svc j).logPid = pid := hj.2
          omega
        · exact hj

/-- One operation: the loggers stay recorded unless it overwrites one. -/
theorem loggersKept_op {w : World} (h : w.life.Tracked) (hkept : w.life.LoggersKept) (op : Op) :
    (exec op w).life.LoggersKept ↔ ¬Overwrites w op := by
  cases op with
  | start t i =>
    simp only [exec, Overwrites, startSlot, Sup.get_bind, Sup.ite_apply]
    -- only a start that is carried out forks a logger
    cases hgo : startDue (min t w.k.clock) (w.svc i) with
    | false => simpa using hkept
    | true =>
      have hdue := startDue_due hgo (Int.min_le_right ..)
      cases hdeps : depsSatisfied w (w.svc i) with
      | false => simpa using loggersKept_onSlot hkept (retryLater_leavesLogger (w.svc i))
      | true => simpa using loggersKept_startService h hkept hdue
  | _ =>
    simp only [Overwrites, not_false_eq_true, iff_true]
    exact (LifeSteps.invariant (I := fun a => a.Tracked ∧ a.LoggersKept)
      (fun _ _ hstep ha => ⟨hstep.tracked ha.1, hstep.loggersKept ha.1 ha.2⟩)
      (exec_starts_nothing (by simp) w) ⟨h, hkept⟩).2

/-- In a run from a state in which the loggers are recorded, they are recorded after every
    step if and only if no step overwrites one. -/
theorem loggersKept_run {w : World} (hw : Reachable w) (hkept : w.life.LoggersKept)
    (ops : List Op) :
    Along exec (fun w op => (exec op w).LoggersRecorded) ops w ↔
      Along exec (fun w op => ¬Overwrites w op) ops w := by
  -- by induction on the operations, with the state generalised
  induction ops generalizing w with
  | nil => exact Iff.rfl
  | cons op ops ih =>
    have hnext : Reachable (exec op w) := hw.performs (.op op w)
    have hop := loggersKept_op hw.accounted.tracked hkept op
    have hrec := loggersRecorded_iff hnext.accounted.tracked
    simp only [Along]
    constructor
    · rintro ⟨hnow, hrest⟩
      have hkept' := hrec.mp hnow
      exact ⟨hop.mp hkept', (ih hnext hkept').mp hrest⟩
    · rintro ⟨hno, hrest⟩
      have hkept' := hop.mpr hno
      exact ⟨hrec.mpr hkept', (ih hnext hkept').mpr hrest⟩

/-- In every run: each unreaped logger is the one recorded in its slot after every step, if and
    only if no start overwrites the pid of a logger that is still there. -/
theorem loggers_recorded_iff (root : CStrBuf) (oracle : Nat → Answer) (fds : List Int)
    (ops : List Op) :
    Along exec (fun w op => (exec op w).LoggersRecorded) ops (boot root oracle fds).world ↔
      Along exec (fun w op => ¬Overwrites w op) ops (boot root oracle fds).world := by
  have hinit := boot_initial root oracle fds
  refine loggersKept_run ⟨root, oracle, fds, Std.Refl.refl _⟩ (fun i pid hmem => ?_) ops
  rw [hinit.children] at hmem
  cases hmem

/-- A service with a logger. -/
def loggedFiles : FileSys where
  access path _ := path = bytesOf "/s/a/run" || path = bytesOf "/s/a/log/run"

/-- The service is started, exits with code 1 and is started again. -/
def loggedCrash : List Pass :=
  [{ listing := some [bytesOf "a"], elapsed := 3 }, { exits := [(118, 256)], elapsed := 3 }, {}]

/-- The logger of the first start is alive and no record has its pid. -/
theorem logger_forgotten : ¬(mainLoop loggedCrash (bootOn loggedFiles)).world.LoggersRecorded := by
  intro h
  have hmem : ⟨116, .logger 0⟩ ∈ (mainLoop loggedCrash (bootOn loggedFiles)).world.k.children := by
    decide +kernel
  have hpid : ((mainLoop loggedCrash (bootOn loggedFiles)).world.svc 0).logPid ≠ 116 := by
    decide +kernel
  exact hpid (h _ hmem 0 rfl).2.2.1

end SvcRs
