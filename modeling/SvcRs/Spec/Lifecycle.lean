import SvcRs.ForStd.Transition
import SvcRs.Spec.Quiet

/-!
# The life cycle of service records as a transition system

An abstract view of the supervisor: the core of every record, the children that
have not been reaped, the clock and the process log. `LifeStep` lists everything
that can happen to it, one constructor for each thing the supervisor does to one
record or one child; `S` says which kinds of steps may be taken.
`Spec/Refinement.lean` shows that the program does nothing else.

The guards say less than the program checks (they leave out `active` wherever no
invariant needs it), so the system has at least the behaviours of the program.
-/

namespace SvcRs

open Relation (ReflTransGen)

/-! ## Abstract states -/

/-- What invariants about processes are stated of. -/
structure Life where
  size : Nat
  core : Nat → Core
  children : List Child
  clock : Int
  log : List Event

/-- The abstract view of the supervisor. -/
def World.life (w : World) : Life :=
  { size := w.size, core := fun i => (w.svc i).core, children := w.k.children
    clock := w.k.clock, log := w.k.log }

namespace Life

/-- A new core in slot `i`. -/
def put (a : Life) (i : Nat) (c : Core) : Life :=
  { a with core := fun j => if j = i then c else a.core j }

/-- A pid that `fork` may return. -/
def Fresh (a : Life) (pid : Int) : Prop := 1 < pid ∧ ∀ c ∈ a.children, c.pid ≠ pid

/-- The children that are left when `pid` has been reaped. -/
def without (a : Life) (pid : Int) : List Child := a.children.filter fun c => c.pid ≠ pid

/-- The records after one of them is replaced. -/
@[simp] theorem put_core (a : Life) (i j : Nat) (c : Core) :
    (a.put i c).core j = if j = i then c else a.core j := rfl

/-- The table keeps its size. -/
@[simp] theorem put_size (a : Life) (i : Nat) (c : Core) : (a.put i c).size = a.size := rfl
@[simp] theorem put_children (a : Life) (i : Nat) (c : Core) :
    (a.put i c).children = a.children := rfl
@[simp] theorem put_clock (a : Life) (i : Nat) (c : Core) : (a.put i c).clock = a.clock := rfl
@[simp] theorem put_log (a : Life) (i : Nat) (c : Core) : (a.put i c).log = a.log := rfl

end Life

/-! ## What happens to a core record -/

namespace Core

/-- The start pass may start the service at time `t`. -/
structure Due (c : Core) (t : Int) : Prop where
  active : c.active = true
  present : c.present = true
  notStopping : c.stopping = false
  idle : c.pid ≤ 0
  elapsed : c.restartAt ≤ t
  wanted : c.manualStart = true ∨ (c.autoStart = true ∧ c.once = false)

/-- SIGTERM has been sent to the main process. -/
def told (c : Core) : Core := { c with stopping := true, state := .stopping }

/-- The `restarts` counter after a counted exit. -/
def nextRestarts (c : Core) (t : Int) : UInt32 :=
  if i64 (t - c.startedAt) > restartWindowS then 0 else c.restarts + 1

/-- A counted exit at time `t` trips the circuit breaker. -/
def Trips (c : Core) (t : Int) : Prop := c.nextRestarts t > maxRestartsInWindow

instance (c : Core) (t : Int) : Decidable (c.Trips t) := inferInstanceAs (Decidable (_ > _))

/-- The restart accounting. -/
def account (c : Core) (t : Int) : Core :=
  if c.stopping || c.once then { c with restartAt := i64Max, once := false }
  else if c.Trips t then
    { c with restarts := c.nextRestarts t, state := .failed, restartAt := i64Max }
  else
    { c with
      restarts := c.nextRestarts t, restartAt := i64 (t + backoffDelay (c.nextRestarts t)) }

/-- The accounting writes four fields. -/
theorem account_frame (c : Core) (t : Int) : ∃ restartAt restarts state once,
    c.account t = { c with restartAt, restarts, state, once } ∧
      (state = c.state ∨ state = .failed) := by
  unfold account
  split
  · exact ⟨_, _, _, _, rfl, .inl rfl⟩
  · split
    · exact ⟨_, _, _, _, rfl, .inr rfl⟩
    · exact ⟨_, _, _, _, rfl, .inl rfl⟩

/-- The exit of the main process. -/
def exit (c : Core) (status t : Int) : Core :=
  account { c with pid := -1, state := (decodeWaitStatus status).1 } t

/-! The three outcomes of an exit. -/

/-- The service was stopped, or was to run once. -/
theorem exit_final {c : Core} (h : (c.stopping || c.once) = true) (status t : Int) :
    c.exit status t = { c with
      pid := -1, state := (decodeWaitStatus status).1, restartAt := i64Max, once := false } :=
  if_pos h

section

variable {c : Core} {t : Int} (hstop : c.stopping = false) (honce : c.once = false) (status : Int)

include hstop honce

/-- The breaker trips. -/
theorem exit_trips (h : c.Trips t) : c.exit status t = { c with
    pid := -1, state := .failed, restarts := c.nextRestarts t, restartAt := i64Max } :=
  (if_neg (by simp [hstop, honce])).trans (if_pos h)

/-- A restart is scheduled. -/
theorem exit_restarts (h : ¬c.Trips t) : c.exit status t = { c with
    pid := -1, state := (decodeWaitStatus status).1, restarts := c.nextRestarts t
    restartAt := i64 (t + backoffDelay (c.nextRestarts t)) } :=
  (if_neg (by simp [hstop, honce])).trans (if_neg h)

end

/-- A wait status is decoded as EXITED, SIGNALED or DOWN. -/
theorem decodeWaitStatus_ne (status : Int) :
    (decodeWaitStatus status).1 ≠ .running ∧ (decodeWaitStatus status).1 ≠ .stopping := by
  unfold decodeWaitStatus
  split
  · simp
  · split <;> simp

/-- What an exit leaves alone; the state is neither RUNNING nor STOPPING after it. -/
theorem exit_frame (c : Core) (status t : Int) : ∃ restartAt restarts state once,
    c.exit status t = { c with pid := -1, restartAt, restarts, state, once } ∧
      state ≠ .running ∧ state ≠ .stopping := by
  obtain ⟨restartAt, restarts, state, once, he, hstate⟩ :=
    account_frame { c with pid := -1, state := (decodeWaitStatus status).1 } t
  refine ⟨restartAt, restarts, state, once, he, ?_⟩
  rcases hstate with rfl | rfl
  · exact decodeWaitStatus_ne status
  · simp

section

variable (c : Core) (status t : Int)

/-- The fields of a record after an exit. -/
@[simp] theorem exit_pid : (c.exit status t).pid = -1 := by
  obtain ⟨_, _, _, _, he, -⟩ := c.exit_frame status t
  rw [he]

@[simp] theorem exit_active : (c.exit status t).active = c.active := by
  obtain ⟨_, _, _, _, he, -⟩ := c.exit_frame status t
  rw [he]

@[simp] theorem exit_present : (c.exit status t).present = c.present := by
  obtain ⟨_, _, _, _, he, -⟩ := c.exit_frame status t
  rw [he]

@[simp] theorem exit_stopping : (c.exit status t).stopping = c.stopping := by
  obtain ⟨_, _, _, _, he, -⟩ := c.exit_frame status t
  rw [he]

@[simp] theorem exit_manualStart : (c.exit status t).manualStart = c.manualStart := by
  obtain ⟨_, _, _, _, he, -⟩ := c.exit_frame status t
  rw [he]

@[simp] theorem exit_name : (c.exit status t).name = c.name := by
  obtain ⟨_, _, _, _, he, -⟩ := c.exit_frame status t
  rw [he]

@[simp] theorem exit_startedAt : (c.exit status t).startedAt = c.startedAt := by
  obtain ⟨_, _, _, _, he, -⟩ := c.exit_frame status t
  rw [he]

@[simp] theorem exit_autoStart : (c.exit status t).autoStart = c.autoStart := by
  obtain ⟨_, _, _, _, he, -⟩ := c.exit_frame status t
  rw [he]

@[simp] theorem exit_deps : (c.exit status t).deps = c.deps := by
  obtain ⟨_, _, _, _, he, -⟩ := c.exit_frame status t
  rw [he]

@[simp] theorem exit_logPid : (c.exit status t).logPid = c.logPid := by
  obtain ⟨_, _, _, _, he, -⟩ := c.exit_frame status t
  rw [he]

/-- After an exit the service neither runs nor is being stopped. -/
theorem exit_state : (c.exit status t).state ≠ .running ∧ (c.exit status t).state ≠ .stopping := by
  obtain ⟨_, _, _, _, he, hstate⟩ := c.exit_frame status t
  rw [he]
  exact hstate

end

/-- A successful start. -/
def start (c : Core) (pid t : Int) : Core :=
  { c with pid, state := .running, startedAt := t, manualStart := false }

/-- A command that was answered OK; signals are separate steps. -/
def command (c : Core) (t : Int) : SvcCmd → Core
  | .start => { c with manualStart := true, restartAt := 0, stopping := false }
  | .stop => c.told
  | .restart => { c.told with manualStart := true }
  | .down =>
    if 0 < c.pid then { c.told with autoStart := false } else { c with autoStart := false }
  | .up => { c with autoStart := true, restartAt := t, stopping := false }
  | .once => { c with once := true }

/-- What a command leaves alone. -/
theorem command_frame (c : Core) (t : Int) (cmd : SvcCmd) :
    ∃ stopping manualStart restartAt state autoStart once,
      c.command t cmd = { c with stopping, manualStart, restartAt, state, autoStart, once } := by
  cases cmd with
  | down =>
    by_cases hpid : 0 < c.pid
    · exact ⟨_, _, _, _, _, _, if_pos hpid⟩
    · exact ⟨_, _, _, _, _, _, if_neg hpid⟩
  | _ => exact ⟨_, _, _, _, _, _, rfl⟩

section

variable (c : Core) (t : Int) (cmd : SvcCmd)

/-- What a command leaves alone. -/
@[simp] theorem command_active : (c.command t cmd).active = c.active := by
  obtain ⟨_, _, _, _, _, _, he⟩ := c.command_frame t cmd
  rw [he]

@[simp] theorem command_pid : (c.command t cmd).pid = c.pid := by
  obtain ⟨_, _, _, _, _, _, he⟩ := c.command_frame t cmd
  rw [he]

@[simp] theorem command_restarts : (c.command t cmd).restarts = c.restarts := by
  obtain ⟨_, _, _, _, _, _, he⟩ := c.command_frame t cmd
  rw [he]

@[simp] theorem command_startedAt : (c.command t cmd).startedAt = c.startedAt := by
  obtain ⟨_, _, _, _, _, _, he⟩ := c.command_frame t cmd
  rw [he]

/-- Only `start` and `up` change the time of the next start. -/
theorem command_restartAt (h : cmd ≠ .start ∧ cmd ≠ .up) :
    (c.command t cmd).restartAt = c.restartAt := by
  cases cmd with
  | start => exact absurd rfl h.1
  | up => exact absurd rfl h.2
  | stop | restart | once => rfl
  | down =>
    by_cases hpid : 0 < c.pid
    · simp only [command, if_pos hpid, told]
    · simp only [command, if_neg hpid]

/-- No command takes a manual start back. -/
theorem command_manualStart (h : c.manualStart = true) : (c.command t cmd).manualStart = true := by
  cases cmd with
  | start | restart => rfl
  | stop | up | once => exact h
  | down =>
    by_cases hpid : 0 < c.pid
    · simpa only [command, if_pos hpid, told] using h
    · simpa only [command, if_neg hpid] using h

@[simp] theorem command_logPid : (c.command t cmd).logPid = c.logPid := by
  obtain ⟨_, _, _, _, _, _, he⟩ := c.command_frame t cmd
  rw [he]

end

/-- A record as `add_service` creates it. -/
structure New (c : Core) : Prop where
  active : c.active = true
  notStopping : c.stopping = false
  notManual : c.manualStart = false
  pid : c.pid = -1
  logPid : c.logPid = -1
  restartAt : c.restartAt = 0
  startedAt : c.startedAt = 0
  restarts : c.restarts = 0
  state : c.state = .down

end Core

/-! ## Steps -/

/-- The kinds of steps that are worth telling apart: only the start pass takes the first,
    only a scan the second and the third, only a request the fourth. -/
inductive Kind where
  | start (slot : Nat)
  | found (slot : Nat)
  | add (slot : Nat)
  | command (cmd : SvcCmd) (slot : Nat)

/-- One step of the life cycle; `S` says which kinds of steps may be taken. -/
inductive LifeStep (S : Kind → Prop) (a : Life) : Life → Prop
  /-- Time passes. -/
  | tick (t : Int) (ht : a.clock ≤ t) : LifeStep S a { a with clock := t }
  /-- `finish` is forked. -/
  | forkFinish (pid : Int) (hpid : a.Fresh pid) :
    LifeStep S a { a with
      children := ⟨pid, .finish⟩ :: a.children, log := .fork .finish pid :: a.log }
  /-- `check` is forked and waited for. -/
  | runCheck (pid status : Int) (hpid : a.Fresh pid) :
    LifeStep S a { a with log := .reaped pid status :: .fork .check pid :: a.log }
  /-- A child that no record names is reaped. -/
  | reapOther (pid status : Int) (hmem : ∃ c ∈ a.children, c.pid = pid)
    (hlog : ∀ i < a.size, (a.core i).active = true → (a.core i).logPid ≠ pid)
    (hmain : ∀ i < a.size, (a.core i).active = true → (a.core i).pid ≠ pid) :
    LifeStep S a { a with children := a.without pid, log := .reaped pid status :: a.log }
  /-- A logger is reaped. -/
  | reapLogger (i : Nat) (c : Core) (hc : a.core i = c) (status : Int)
    (hmem : ∃ d ∈ a.children, d.pid = c.logPid) (hact : c.active = true) :
    LifeStep S a { a.put i { c with logPid := -1 } with
      children := a.without c.logPid, log := .reaped c.logPid status :: a.log }
  /-- A main process is reaped. -/
  | reapMain (i : Nat) (c : Core) (hc : a.core i = c) (status t : Int) (before : Service)
    (hbefore : before.core = c) (hmem : ∃ d ∈ a.children, d.pid = c.pid)
    (hact : c.active = true)
    (hlog : ∀ j < a.size, (a.core j).active = true → (a.core j).logPid ≠ c.pid)
    (ht : a.clock ≤ t) (hmax : t ≤ i64Max) :
    LifeStep S a { a.put i (c.exit status t) with
      children := a.without c.pid, clock := t
      log := .exited i t before :: .reaped c.pid status :: a.log }
  /-- A main process is sent a signal. -/
  | signalMain (i : Nat) (c : Core) (hc : a.core i = c) (sig : Int) (hpid : 0 < c.pid) :
    LifeStep S a { a with log := .kill (-c.pid) sig :: a.log }
  /-- A logger is sent a signal. -/
  | signalLogger (i : Nat) (c : Core) (hc : a.core i = c) (sig : Int) (hpid : 0 < c.logPid) :
    LifeStep S a { a with log := .kill c.logPid sig :: a.log }
  /-- The supervisor sends itself SIGHUP. -/
  | raiseHup : LifeStep S a { a with log := .killSelf sighup :: a.log }
  /-- The supervisor itself stops a service. -/
  | tell (i : Nat) (c : Core) (hc : a.core i = c) (hpid : 0 < c.pid) :
    LifeStep S a { a.put i c.told with log := .kill (-c.pid) sigterm :: a.log }
  /-- A scan begins: no directory has been met yet. -/
  | unmark (i : Nat) (c : Core) (hc : a.core i = c) :
    LifeStep S a (a.put i { c with present := false })
  /-- A scan meets the directory of a known service. -/
  | found (i : Nat) (c : Core) (hc : a.core i = c) (hS : S (.found i)) :
    LifeStep S a { a.put i { c with present := true, stopping := false } with
      log := .found i :: a.log }
  /-- A new service gets a free slot. -/
  | add (i : Nat) (c : Core) (hi : i < a.size) (hact : (a.core i).active = false)
    (hnew : c.New) (hS : S (.add i)) : LifeStep S a { a.put i c with log := .added i :: a.log }
  /-- A slot is given up. -/
  | remove (i : Nat) (c : Core) (hc : a.core i = c) (hpid : c.pid ≤ 0) (hlog : c.logPid ≤ 0) :
    LifeStep S a { a.put i { c with active := false, state := .down } with
      log := .removed i :: a.log }
  /-- A hard dependency is not running. -/
  | retry (i : Nat) (c : Core) (hc : a.core i = c) (hS : S (.start i)) (t : Int) (hdue : c.Due a.clock)
    (ht : a.clock ≤ t) :
    LifeStep S a { a.put i { c with restartAt := i64 (t + 1) } with clock := t }
  /-- `start_service` forks the logger. -/
  | forkLogger (i : Nat) (c : Core) (hc : a.core i = c) (hS : S (.start i)) (pid : Int)
      (hdue : c.Due a.clock)
    (hpid : a.Fresh pid) :
    LifeStep S a { a.put i { c with logPid := pid } with
      children := ⟨pid, .logger i⟩ :: a.children, log := .fork (.logger i) pid :: a.log }
  /-- `start_service` forks the main process. -/
  | start (i : Nat) (c : Core) (hc : a.core i = c) (hS : S (.start i)) (pid t : Int)
      (hdue : c.Due a.clock)
    (hpid : a.Fresh pid) (ht : a.clock ≤ t) :
    LifeStep S a { a.put i (c.start pid t) with
      children := ⟨pid, .main i⟩ :: a.children, clock := t
      log := .started i t :: .fork (.main i) pid :: a.log }
  /-- `start_service` gives up. -/
  | startFail (i : Nat) (c : Core) (hc : a.core i = c) (hS : S (.start i)) (pid t : Int)
      (hdue : c.Due a.clock)
    (hpid : pid = c.pid ∨ pid = -1) (ht : a.clock ≤ t) :
    LifeStep S a { a.put i { c with pid, state := .failed, restartAt := i64 (t + backoffShort) } with
      clock := t }
  /-- A control command changes a record. -/
  | command (i : Nat) (c : Core) (hc : a.core i = c) (cmd : SvcCmd) (t : Int)
    (ht : a.clock ≤ t) (hS : S (.command cmd i)) :
    LifeStep S a { a.put i (c.command t cmd) with clock := t, log := .accepted cmd i :: a.log }

/-- Any number of steps. -/
abbrev LifeSteps (S : Kind → Prop) : Life → Life → Prop := ReflTransGen (LifeStep S)

section

variable {S S' : Kind → Prop} {a b : Life}

/-- More kinds of steps may be taken. -/
theorem LifeStep.mono (hS : ∀ x, S x → S' x) (h : LifeStep S a b) : LifeStep S' a b := by
  cases h with
  | found i c hc hi => exact .found i c hc (hS _ hi)
  | add i c hlt hact hnew hi => exact .add i c hlt hact hnew (hS _ hi)
  | retry i c hc hi t hdue ht => exact .retry i c hc (hS _ hi) t hdue ht
  | forkLogger i c hc hi pid hdue hpid => exact .forkLogger i c hc (hS _ hi) pid hdue hpid
  | start i c hc hi pid t hdue hpid ht => exact .start i c hc (hS _ hi) pid t hdue hpid ht
  | startFail i c hc hi pid t hdue hpid ht =>
    exact .startFail i c hc (hS _ hi) pid t hdue hpid ht
  | command i c hc cmd t ht hi => exact .command i c hc cmd t ht (hS _ hi)
  | _ => constructor <;> assumption

/-- The same for any number of steps. -/
theorem LifeSteps.mono (hS : ∀ x, S x → S' x) (h : LifeSteps S a b) : LifeSteps S' a b := by
  induction h with
  | refl => exact .refl
  | tail _ hbc ih => exact .tail ih (hbc.mono hS)

/-- Every step only adds to the log. -/
theorem LifeStep.log_extends (h : LifeStep S a b) : ∃ evs, b.log = evs ++ a.log := by
  cases h <;> first
    | exact ⟨[], rfl⟩
    | exact ⟨[_], rfl⟩
    | exact ⟨[_, _], rfl⟩

/-- The clock never goes back. -/
theorem LifeStep.clock_le (h : LifeStep S a b) : a.clock ≤ b.clock := by
  cases h <;> first
    | exact Int.le_refl _
    | assumption

/-- The log only grows. -/
theorem LifeSteps.log_extends (h : LifeSteps S a b) : ∃ evs, b.log = evs ++ a.log :=
  Transition.log_of_steps Life.log (fun _ _ => LifeStep.log_extends) h

/-- The clock never goes back. -/
theorem LifeSteps.clock_le (h : LifeSteps S a b) : a.clock ≤ b.clock := by
  induction h with
  | refl => exact Int.le_refl _
  | tail _ hbc ih => exact Int.le_trans ih hbc.clock_le

/-- The run rule for invariants of the life cycle. -/
theorem LifeSteps.invariant {I : Life → Prop} (hstep : ∀ a b, LifeStep S a b → I a → I b)
    (h : LifeSteps S a b) (ha : I a) : I b := by
  induction h with
  | refl => exact ha
  | tail _ hbc ih => exact hstep _ _ hbc ih

end

end SvcRs
