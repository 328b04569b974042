import SvcRs.Native.User
import SvcRs.Native.Status

/-!
# Service life cycle

`service.rs` and the body of the reaper's loop in `main.rs`. A function of the
source that takes `&mut Service` is a function from the record to the new record
in `Sys`; the slot argument stands for the address of the record and only labels
the trace. A function that takes the whole table works in `Sup`. The table is a
function from slot numbers to records, of which the source has the first `size`.
-/

namespace SvcRs

/-! ## The table -/

/-- The supervisor: the service table and the system. -/
structure World where
  root : CStrBuf
  size : Nat
  svc : Nat → Service
  k : Kernel

/-- A computation on the service table. -/
abbrev Sup := StateM World

namespace World

/-- A new record in slot `i`. -/
def setSvc (w : World) (i : Nat) (s : Service) : World :=
  { w with svc := fun j => if j = i then s else w.svc j }

/-- `0..services.len()`. -/
def slots (w : World) : List Nat := List.range w.size

end World

namespace Sup

/-- Composition runs one computation after the other. -/
@[simp] theorem bind_apply {α β : Type} (m : Sup α) (f : α → Sup β) (w : World) :
    (m >>= f) w = f (m w).1 (m w).2 := rfl

/-- A result changes no record. -/
@[simp] theorem pure_apply {α : Type} (a : α) (w : World) : (pure a : Sup α) w = (a, w) := rfl

/-- The computation may look at the table. -/
@[simp] theorem get_bind {α : Type} (f : World → Sup α) (w : World) :
    ((get : Sup World) >>= f) w = f w w := rfl

/-- The test is made before either branch is run. -/
@[simp] theorem ite_apply {α : Type} {c : Prop} [Decidable c] (m₁ m₂ : Sup α) (w : World) :
    (if c then m₁ else m₂ : Sup α) w = if c then m₁ w else m₂ w := by
  split <;> rfl

end Sup

/-- Make system calls on behalf of no particular record. -/
def liftSys {α : Type} (m : Sys α) : Sup α := fun w =>
  ((m w.k).1, { w with k := (m w.k).2 })

/-- Run `f` on the record in slot `i`. -/
def onSlot (i : Nat) (f : Service → Sys Service) : Sup Unit := fun w =>
  ((), { w.setSvc i (f (w.svc i) w.k).1 with k := (f (w.svc i) w.k).2 })

/-- A `for` loop over slot numbers. -/
def forSlots (body : Nat → Sup Unit) : List Nat → Sup Unit
  | [] => pure ()
  | i :: is => do
    body i
    forSlots body is

/-! ## Lookup -/

/-- The first slot whose record satisfies `p`. -/
def World.findSlot (w : World) (p : Service → Bool) : Option Nat :=
  w.slots.find? fun i => p (w.svc i)

/-- `find_service_by_name`: the first active slot with the name. -/
def findServiceByName (w : World) (name : Bytes) : Option Nat :=
  w.findSlot fun s => s.active && s.name = name

/-- `find_service_by_dir`: the first active slot with the directory. -/
def findServiceByDir (w : World) (dir : CStrBuf) : Option Nat :=
  w.findSlot fun s => s.active && s.dir = dir.bytes

/-- The dependency is known and in the state RUNNING. -/
def World.isRunning (w : World) (name : Bytes) : Bool :=
  match findServiceByName w name with
  | none => false
  | some i => (w.svc i).state = .running

/-- `deps_satisfied`: soft dependencies do not count. -/
def depsSatisfied (w : World) (s : Service) : Bool :=
  s.deps.all fun dep => dep.soft || w.isRunning dep.name

/-! ## Logs -/

/-- The name of the log file of a stream. -/
def streamSuffix (err : Bool) : String := if err then "/current.err" else "/current.out"

/-- `open_log`: the file in `log` is opened at its end, and `log_len` is its length. -/
def openLog (err : Bool) (s : Service) : Sys Service := do
  closeFd (s.stream err).logFd
  let logdir := joinPath s.dir "/log"
  emit (.mkdir logdir)
  -- without the file there is no log, and its length counts as 0
  let fd ← openFile (joinPath logdir (streamSuffix err)) .append
  let logLen ← if fd ≥ 0 then seekEnd fd else pure 0
  return s.setStream err { s.stream err with logFd := fd, logLen }

/-- The name of the archive: path, clock and rotation counter. -/
def archivePath (s : Service) (err : Bool) (ts : Nat) (rotations : UInt32) : Bytes :=
  let arch := (CStrBuf.fromBytes s.dir).push (bytesOf (streamSuffix err))
  (((arch.pushByte 46).pushU64 ts).pushByte 46).pushU64 rotations.toNat |>.bytes

/-- `rotate_log`: the file is renamed to an archive and opened again. The path that is renamed
    lacks `/log`. -/
def rotateLog (err : Bool) (s : Service) : Sys Service := do
  closeFd (s.stream err).logFd
  let rotations := (s.stream err).rotations + 1
  let s := s.setStream err { s.stream err with logFd := -1, rotations }
  let ts ← wallNow
  -- the log is in `log`, so the rename finds nothing, and the same file is opened again
  emit (.rename (joinPath s.dir (streamSuffix err)) (archivePath s err ts rotations))
  openLog err s

/-- The last part of `write_log`: append, and give the log up on failure. -/
def appendLog (err : Bool) (data : Bytes) (s : Service) : Sys Service := do
  let st := s.stream err
  if ← writeAll st.logFd data then
    return s.setStream err { st with logLen := i64 (st.logLen + data.length) }
  else
    -- the log is given up until the next chunk
    closeFd st.logFd
    return s.setStream err { st with logFd := -1 }

/-- `write_log`: a chunk that would exceed the limit goes to the next file. -/
def writeLog (err : Bool) (data : Bytes) (s : Service) : Sys Service := do
  let s ← if (s.stream err).logFd < 0 then openLog err s else pure s
  -- a chunk for which no log can be opened is dropped
  if (s.stream err).logFd < 0 then return s
  let s ←
    -- the limit is for the file with the chunk
    if i64 ((s.stream err).logLen + data.length) > logLimit then rotateLog err s else pure s
  if (s.stream err).logFd < 0 then return s
  appendLog err data s

/-- One result of `read` on a pipe. -/
inductive ReadResult where
  | data (b : Bytes)
  | eof
  | eagain
  | eintr
  | error
  deriving DecidableEq, Repr

/-- `drain_stream`, fed with the results of its reads; when they run out, the pipe
    is empty. `read_all_nonblock` repeats a read that was interrupted. -/
def drainStream (err : Bool) : List ReadResult → Service → Sys Service
  | [], s => return s
  | r :: reads, s =>
    if (s.stream err).readFd < 0 then return s
    else match r with
      -- the end of the file and an error close the read end
      | .eof | .data [] | .error => do
        closeFd (s.stream err).readFd
        return s.setStream err { s.stream err with readFd := -1 }
      | .data b => do
        let b := b.take ioBuf
        -- what is read while there is a logger is dropped
        let s ← if s.hasLog then pure s else writeLog err b s
        -- a buffer that is not full means that the pipe is empty
        if b.length < ioBuf then return s
        drainStream err reads s
      | .eintr => drainStream err reads s
      | .eagain => return s

/-- `close_service_fds`: all four descriptors of the record. -/
def closeServiceFds (s : Service) : Sys Service := do
  closeFd s.out.readFd
  closeFd s.out.logFd
  closeFd s.err.readFd
  closeFd s.err.logFd
  return { s with
    out := { s.out with readFd := -1, logFd := -1 }
    err := { s.err with readFd := -1, logFd := -1 } }

/-! ## Starting -/

/-- `out_fds` and `err_fds` of `start_service`. -/
structure StartFds where
  out0 : Int := -1
  out1 : Int := -1
  err0 : Int := -1
  err1 : Int := -1

/-- The first part of `start_service`: fork `log/run`, if there is one. `has_log` is
    cleared when that fails. Returns the write end of the logger's pipe. -/
def startLogger (slot : Nat) (s : Service) : Sys (Service × Int) := do
  if !s.hasLog then return (s, -1)
  -- whatever goes wrong, the service is started without its logger
  if !(← access (joinPath s.dir "/log/run") .exec) then
    return ({ s with hasLog := false }, -1)
  match ← newPipe with
  | none => return ({ s with hasLog := false }, -1)
  | some (pipeRead, pipeWrite) =>
    let pid ← fork (.logger slot)
    if pid > 0 then
      let now ← monoNow
      closeFd pipeRead
      return ({ s with
        logPid := pid, logState := .running, logStartedAt := now, logStopping := false },
        pipeWrite)
    else
      closeFd pipeWrite
      closeFd pipeRead
      return ({ s with hasLog := false }, -1)

/-- The two pipes of a service without a logger. -/
def openPipes : Sys (Option StartFds) := do
  match ← newPipe with
  | none => return none
  | some (outRead, outWrite) =>
    match ← newPipe with
    | none =>
      closeFd outRead
      closeFd outWrite
      return none
    | some (errRead, errWrite) =>
      return some { out0 := outRead, out1 := outWrite, err0 := errRead, err1 := errWrite }

/-- What `start_service` does after each of its failures. -/
def startFailed (s : Service) : Sys Service := do
  let now ← monoNow
  let s := { s with state := .failed, restartAt := i64 (now + backoffShort) }
  writeStatusFile s
  return s

/-- The parent's copies of the descriptors that the main process writes to. -/
def closeChildEnds (s : Service) (fds : StartFds) : Sys Unit := do
  if s.hasLog then closeFd fds.out0
  else
    closeFd fds.out1
    closeFd fds.err1

/-- The read ends and the log files of a started service; with a logger it has none. -/
def attachStreams (s : Service) (fds : StartFds) : Sys Service := do
  if s.hasLog then
    return { s with out := { s.out with readFd := -1 }, err := { s.err with readFd := -1 } }
  else
    let s := { s with
      out := { s.out with readFd := fds.out0 }, err := { s.err with readFd := fds.err0 } }
    openLog true (← openLog false s)

/-- The assignments of a successful start. -/
def Service.started (s : Service) (pid now : Int) : Service :=
  { s with
    pid, state := .running, exitCode := 0, termSignal := 0, startedAt := now
    manualStart := false }

/-- `start_service` after the fork of the main process. -/
def mainStarted (slot : Nat) (s : Service) (fds : StartFds) (pid : Int) : Sys Service := do
  let now ← monoNow
  emit (.started slot now)
  let s ← attachStreams (s.started pid now) fds
  writeStatusFile s
  return s

/-- `start_service` when the fork of the main process failed. -/
def mainForkFailed (s : Service) (fds : StartFds) : Sys Service := do
  if !s.hasLog then
    closeFd fds.out0
    closeFd fds.err0
  -- the logger that was forked before goes on
  startFailed { s with pid := -1 }

/-- The last part of `start_service`: fork the main process. -/
def forkMain (slot : Nat) (s : Service) (fds : StartFds) : Sys Service := do
  let pid ← fork (.main slot)
  closeChildEnds s fds
  if pid > 0 then mainStarted slot s fds pid else mainForkFailed s fds

/-- `start_service` closes the pipes of the previous run. -/
def closeReadEnds (s : Service) : Sys Service := do
  closeFd s.out.readFd
  closeFd s.err.readFd
  return { s with out := { s.out with readFd := -1 }, err := { s.err with readFd := -1 } }

/-- `start_service` after the logger's part: the pipes, unless a logger reads the
    output, and the main process. -/
def startMain (slot : Nat) (s : Service) (out0 : Int) : Sys Service := do
  if s.hasLog then forkMain slot s { out0 }
  else
    match ← openPipes with
    | none => startFailed s
    | some fds => forkMain slot s fds

/-- `start_service`: the environment, the old read ends, the logger if there is one, the pipes,
    and the main process. -/
def startService (slot : Nat) (s : Service) : Sys Service := do
  -- the guard does not look at a logger that may be left
  if !s.active || !s.present || s.stopping || s.pid > 0 then return s
  let s ← prepareServiceEnv s
  -- what the previous run left in its pipes is lost
  let s ← closeReadEnds s
  let (s, out0) ← startLogger slot s
  startMain slot s out0

/-! ## Exits -/

/-- The parent's side of `run_finish`. -/
def runFinish (s : Service) : Sys Unit := do
  if !(← access (joinPath s.dir "/finish") .exec) then return ()
  let _ ← prepareServiceEnv s
  let _ ← fork .finish

/-- State, exit code and signal; `status & 0x7f` and `(status >> 8) & 0xff` on an `int`. -/
def decodeWaitStatus (status : Int) : SvcState × Int × Int :=
  if status % 128 = 0 then (.exited, status / 256 % 256, 0)
  else if status % 128 = 127 then (.down, 0, 0)
  else (.signaled, 0, status % 128)

/-- The `restarts` counter after a counted exit at time `t`. -/
def nextRestarts (s : Service) (t : Int) : UInt32 :=
  if i64 (t - s.startedAt) > restartWindowS then 0 else s.restarts + 1

/-- The delay after the given number of restarts. -/
def backoffDelay (restarts : UInt32) : Int :=
  if restarts < 5 then backoffShort else if restarts < 20 then backoffMed else backoffLong

/-- The restart accounting of `reap_children`. -/
def accountExit (s : Service) (t : Int) : Service :=
  -- also when the stop was that of a `restart`
  if s.stopping || s.once then { s with restartAt := i64Max, once := false }
  else
    -- the counter of short runs, however far apart they are
    let s := { s with restarts := nextRestarts s t }
    if s.restarts > maxRestartsInWindow then { s with state := .failed, restartAt := i64Max }
    else { s with restartAt := i64 (t + backoffDelay s.restarts) }

/-- When the exit of a main process sets `need_stop_deps`. -/
def exitStopsDeps (s : Service) (status : Int) : Bool :=
  !s.stopping && (decodeWaitStatus status).1 ≠ .running

/-- The record after the exit of its main process, before the restart accounting. -/
def Service.exited (s : Service) (status : Int) : Service :=
  let (state, exitCode, termSignal) := decodeWaitStatus status
  { s with pid := -1, lastStatus := status, state, exitCode, termSignal }

/-- SIGTERM to the logger, which the record remembers. -/
def signalLogger (s : Service) : Sys Service := do
  kill s.logPid sigterm
  return { s with logStopping := true }

/-- The logger of a service that exited is stopped unless the service may come back. -/
def stopExitedLogger (s : Service) : Sys Service := do
  if s.logPid > 0 && (s.stopping || s.state = .failed || s.state = .down) then signalLogger s
  else return s

/-- What `reap_children` does with the record of a main process that exited. -/
def reapMain (slot : Nat) (status t : Int) (s : Service) : Sys Service := do
  emit (.exited slot t s)
  let s := s.exited status
  runFinish s
  -- the state is that before the accounting, so a failure it finds comes too late for the logger
  let s ← stopExitedLogger s
  let s := accountExit s t
  writeStatusFile s
  return s

/-- What `reap_children` does with the record of a logger that exited. -/
def reapLogger (s : Service) : Sys Service :=
  return { s with logPid := -1, logState := .down, logStopping := false }

/-! ## Stopping -/

/-- The assignments that go with the SIGTERM to a main process. -/
def signalStop (s : Service) : Sys Service := do
  kill (-s.pid) sigterm
  return { s with stopping := true, state := .stopping }

/-- `signalStop` followed by `write_status_file`. -/
def signalStopStatus (s : Service) : Sys Service := do
  let s ← signalStop s
  writeStatusFile s
  return s

/-- The body of the sweep of `stop_transitive_deps`: whether slot `i` was stopped. -/
def stopDependent (i : Nat) : Sup Bool := do
  let w ← get
  let s := w.svc i
  if !s.active || s.stopping || s.pid ≤ 0 || s.state ≠ .running then return false
  -- a dependency that is not there does not run either
  if s.deps.any fun dep => !dep.soft && !w.isRunning dep.name then
    onSlot i signalStopStatus
    return true
  else return false

/-- One sweep over the table; the result is `changed`. -/
def stopSweep : List Nat → Sup Bool
  | [] => return false
  | i :: is => do
    let stopped ← stopDependent i
    let changed ← stopSweep is
    return stopped || changed

/-- `while changed { .. }`. A sweep that changes something takes a service out of
    RUNNING, so one sweep more than there are slots is enough fuel. -/
def stopLoop : (fuel : Nat) → Sup Unit
  | 0 => return ()
  | fuel + 1 => do
    let w ← get
    if ← stopSweep w.slots then stopLoop fuel

/-- `stop_transitive_deps`: passes over the table until one changes nothing. -/
def stopTransitiveDeps : Sup Unit := do
  let w ← get
  stopLoop (w.size + 1)

/-- The `order` and `remaining` arrays of `stop_all_in_order`. -/
structure StopPlan where
  order : List Nat
  remaining : Nat → Bool

/-- A service that is ready gets the next place in the order. -/
def StopPlan.pick (plan : StopPlan) (i : Nat) : StopPlan :=
  { order := plan.order ++ [i], remaining := fun j => if j = i then false else plan.remaining j }

/-- The `ready` test: no remaining service has the name of a hard dependency. -/
def stopReady (w : World) (plan : StopPlan) (s : Service) : Bool :=
  s.deps.all fun dep => dep.soft ||
    match findServiceByName w dep.name with
    -- a dependency that is not there holds nobody up
    | none => true
    | some j => !plan.remaining j

/-- One pass of the selection loop over the slots. -/
def planPass (w : World) : List Nat → StopPlan → StopPlan
  | [], plan => plan
  | i :: is, plan =>
    if plan.remaining i && stopReady w plan (w.svc i) then planPass w is (plan.pick i)
    else planPass w is plan

/-- `while pos < count`: passes until one finds nothing. -/
def planLoop (w : World) (count : Nat) : (fuel : Nat) → StopPlan → StopPlan
  | 0, plan => plan
  | fuel + 1, plan =>
    if plan.order.length < count then
      let next := planPass w w.slots plan
      if next.order.length = plan.order.length then plan else planLoop w count fuel next
    else plan

/-- The services that `stop_all_in_order` looks at. -/
def needsStop (s : Service) : Bool :=
  s.active && (s.state = .running || s.state = .stopping)

/-- The order in which `stop_all_in_order` visits the slots, and those it found no
    place for. A pass that finds nothing ends the loop, so one pass more than there
    are slots is enough fuel. -/
def stopPlan (w : World) : StopPlan :=
  planLoop w (w.slots.countP fun i => needsStop (w.svc i)) (w.size + 1)
    { order := [], remaining := fun i => i < w.size && needsStop (w.svc i) }

/-- The body of the loop over `order`. -/
def stopOrdered (s : Service) : Sys Service := do
  let s ← if s.active && s.pid > 0 then signalStopStatus s else pure s
  if s.logPid > 0 && !s.logStopping then signalLogger s else return s

/-- The body of the loop over the slots that are still in `remaining`. -/
def stopRemaining (s : Service) : Sys Service := do
  -- here the status is not written
  let s ← if s.active && s.pid > 0 then signalStop s else pure s
  if s.active && s.logPid > 0 && !s.logStopping then signalLogger s else return s

/-- `stop_all_in_order`: in the order of the plan, then what the plan has left. -/
def stopAllInOrder : Sup Unit := do
  let w ← get
  let plan := stopPlan w
  forSlots (fun i => onSlot i stopOrdered) plan.order
  forSlots (fun i => onSlot i stopRemaining) (w.slots.filter plan.remaining)

/-- The test of `kill_main_on_log_death`. -/
def lostLogger (s : Service) : Bool :=
  s.active && s.hasLog && s.logPid ≤ 0 && s.pid > 0 && !s.stopping && s.state = .running

/-- The body of the loop in `kill_main_on_log_death`. -/
def killOnLogDeath (i : Nat) : Sup Unit := do
  let w ← get
  if lostLogger (w.svc i) then onSlot i signalStopStatus

/-- `kill_main_on_log_death`. -/
def killMainOnLogDeath : Sup Unit := do
  let w ← get
  forSlots killOnLogDeath w.slots

/-- `any_open_services`: a process or a pipe is left. -/
def anyOpenServices (w : World) : Bool :=
  w.slots.any fun i =>
    (w.svc i).active && ((w.svc i).pid > 0 || (w.svc i).out.readFd ≥ 0 ||
      (w.svc i).err.readFd ≥ 0 || (w.svc i).logPid > 0)

end SvcRs
