import SvcRs.Native.Ctrl

/-!
# The main loop

`main.rs` and the reading side of `signal.rs`. What the environment decides during
one turn of the loop (which children have exited, what the directory holds, what
`poll` reports) is the `Pass` that the turn is given.
-/

namespace SvcRs

/-! ## The self-pipe -/

/-- SIGTERM, SIGINT or SIGHUP, the signals that `drain_signal_pipe` returns. -/
def isLoopSignal (b : UInt8) : Bool := b = 15 || b = 2 || b = 1

/-- `read(sig_fd, buf, 64)`: up to `n` of the bytes that are there. -/
def readSigPipe (n : Nat) : Sys Bytes := fun k =>
  let chunk := k.sigPipe.take (min n 64)
  (chunk, { k with sigPipe := k.sigPipe.drop (min n 64), trace := .sigRead chunk :: k.trace })

/-- `drain_signal_pipe`; `reads` are the sizes of its successive reads. It returns at
    the first interesting byte, whatever follows that byte in the chunk. -/
def drainSignalPipe : (reads : List Nat) → Sys (Option UInt8)
  | [] => return none
  | n :: reads => do
    let chunk ← readSigPipe n
    if chunk = [] then return none
    match chunk.find? isLoopSignal with
    -- what is behind the signal in the chunk is gone
    | some sig => return some sig
    | none => drainSignalPipe reads

/-! ## Reaping -/

/-- The record of the logger with this pid. -/
def World.loggerSlot (w : World) (pid : Int) : Option Nat :=
  w.findSlot fun s => s.active && s.logPid = pid

/-- The record of the main process with this pid. -/
def World.mainSlot (w : World) (pid : Int) : Option Nat :=
  w.findSlot fun s => s.active && s.pid = pid

/-- What the reaper does with the record that names the child: loggers first. The
    result is whether `need_stop_deps` is to be set. -/
def reapRecord (pid status t : Int) : Sup Bool := do
  let w ← get
  match w.loggerSlot pid with
  | some i =>
    onSlot i reapLogger
    return false
  | none =>
    match w.mainSlot pid with
    | some i =>
      onSlot i (reapMain i status t)
      -- judged by the record before the exit was entered
      return exitStopsDeps (w.svc i) status
    | none => return false

/-- One turn of the `waitpid` loop; `none` when there was nothing to reap. -/
def reapChild (pid status : Int) : Sup (Option Bool) := do
  -- without a child that has exited the loop ends
  if !(← liftSys (waitpid pid status)) then return none
  let t ← liftSys monoNow
  let need ← reapRecord pid status t
  return some need

/-- The `waitpid` loop over the children that have exited. -/
def reapLoop : List (Int × Int) → (needStopDeps : Bool) → Sup Bool
  | [], needStopDeps => return needStopDeps
  | (pid, status) :: exits, needStopDeps => do
    match ← reapChild pid status with
    | none => return needStopDeps
    | some need => reapLoop exits (needStopDeps || need)

/-- The end of `reap_children`. -/
def finishReap (needStopDeps : Bool) : Sup Unit := do
  if needStopDeps then stopTransitiveDeps
  killMainOnLogDeath

/-- `reap_children`. -/
def reapChildren (exits : List (Int × Int)) : Sup Unit := do
  let needStopDeps ← reapLoop exits false
  finishReap needStopDeps

/-! ## Starting -/

/-- `restart_at = mono_now() + 1`, when a hard dependency is not running. -/
def retryLater (s : Service) : Sys Service := do
  let now ← monoNow
  return { s with restartAt := i64 (now + 1) }

/-- The conditions of the start pass, apart from the dependencies. -/
def startDue (t : Int) (s : Service) : Bool :=
  (s.active && s.present && !s.stopping && s.pid ≤ 0 && t ≥ s.restartAt) &&
    (s.manualStart || (s.autoStart && !s.once))

/-- The body of the start pass. -/
def startSlot (t : Int) (i : Nat) : Sup Unit := do
  let w ← get
  if startDue t (w.svc i) then
    -- a dependency may run since this very pass
    if !depsSatisfied w (w.svc i) then onSlot i retryLater else onSlot i (startService i)

/-- The start pass over all slots, with the reading of the clock from the top of the loop. -/
def startPass (t : Int) : Sup Unit := do
  let w ← get
  forSlots (startSlot t) w.slots

/-! ## The loop -/

/-- A scan; a directory that cannot be opened leaves the table alone. -/
def rescan : (listing : Option (List Bytes)) → Sup Unit
  | none => return ()
  | some listing => do
    scanServices listing
    handleMissingServices

/-- What `poll` reports: the sizes of the reads from the self-pipe, the request of a
    client, and the readable streams with the results of their reads. -/
structure PollResult where
  signals : Option (List Nat) := none
  control : Option Bytes := none
  outputs : List (Nat × Bool × List ReadResult) := []

/-- The environment's part in one turn of the main loop. -/
structure Pass where
  exits : List (Int × Int) := []
  listing : Option (List Bytes) := none
  /-- Seconds spent in `poll`. -/
  elapsed : Nat := 0
  /-- Signals that arrive during the turn. -/
  arrivals : Bytes := []
  poll : PollResult := {}

/-- The local variables of `main`. -/
structure MainState where
  world : World
  nextScan : Int
  reloadNeeded : Bool := false
  shutdown : Bool := false

/-- The loop body up to the call of `poll`. -/
def loopTop (p : Pass) (m : MainState) : MainState :=
  let w := (reapChildren p.exits m.world).2
  let t := (liftSys monoNow w).1
  let w := (liftSys monoNow w).2
  let m :=
    -- the request is done with even if the directory cannot be opened
    if t ≥ m.nextScan || m.reloadNeeded then
      { m with
        world := (rescan p.listing w).2, nextScan := i64 (t + 15), reloadNeeded := false }
    else { m with world := w }
  { m with world := (startPass t m.world).2 }

/-- Time passes and signals are delivered while `poll` waits. -/
def pollWait (elapsed : Nat) (arrivals : Bytes) (w : World) : World :=
  { w with k := { w.k.advance elapsed with sigPipe := w.k.sigPipe ++ arrivals } }

/-- What the main loop does with the signal that `drain_signal_pipe` returned. -/
def handleSignal (sig : Option UInt8) (m : MainState) : MainState :=
  match sig with
  | none => m
  | some sig =>
    if sig = 15 || sig = 2 then { m with shutdown := true }
    else if sig = 1 then { m with reloadNeeded := true }
    else m

/-- The branch for the self-pipe. -/
def dispatchSignals (signals : Option (List Nat)) (m : MainState) : MainState :=
  match signals with
  | none => m
  | some reads =>
    let r := liftSys (drainSignalPipe reads) m.world
    handleSignal r.1 { m with world := r.2 }

/-- The branch for an output pipe. Only the pipes of active records are polled. -/
def drainOutput (i : Nat) (err : Bool) (reads : List ReadResult) : Sup Unit := do
  let w ← get
  if (w.svc i).active then onSlot i (drainStream err reads)

/-- The branches for the output pipes, in the order of the poll table. -/
def drainOutputs : List (Nat × Bool × List ReadResult) → Sup Unit
  | [] => return ()
  | (i, err, reads) :: outputs => do
    drainOutput i err reads
    drainOutputs outputs

/-- The branch for the control socket: one request of at most `CMD_BUF` bytes. -/
def dispatchControl : Option Bytes → Sup Unit
  | none | some [] => pure ()
  | some line => handleControlCommand (line.take cmdBuf)

/-- The branches after the one for the self-pipe. -/
def dispatchRequests (r : PollResult) : Sup Unit := do
  dispatchControl r.control
  drainOutputs r.outputs

/-- The loop body after `poll`. -/
def dispatch (r : PollResult) (m : MainState) : MainState :=
  let m := dispatchSignals r.signals m
  -- the loop is left at once, and neither requests nor output are looked at
  if m.shutdown then m else { m with world := (dispatchRequests r m.world).2 }

/-- One turn of the main loop. -/
def mainPass (p : Pass) (m : MainState) : MainState :=
  let m := loopTop p m
  dispatch p.poll { m with world := pollWait p.elapsed p.arrivals m.world }

/-- The main loop until it breaks or the passes run out. -/
def mainLoop : List Pass → MainState → MainState
  | [], m => m
  | p :: ps, m =>
    let m := mainPass p m
    if m.shutdown then m else mainLoop ps m

/-- The state in which `main` enters the loop. `fds` are the descriptors it has open
    by then, all but the standard ones with `FD_CLOEXEC`; the first clock reading is the
    first scan time. -/
def boot (root : CStrBuf) (oracle : Nat → Answer) (fds : List Int) : MainState :=
  let w : World :=
    { root, size := maxServices, svc := fun _ => Service.zeroed
      k := { oracle, fds, inheritable := fds.filter fun fd => fd ≤ 2 } }
  { world := (liftSys monoNow w).2, nextScan := (liftSys monoNow w).1 }

/-! ## Shutdown -/

/-- Both streams of one active service. -/
def drainSlot (reads : Nat → Bool → List ReadResult) (i : Nat) : Sup Unit := do
  let w ← get
  if (w.svc i).active then
    onSlot i (drainStream false (reads i false))
    onSlot i (drainStream true (reads i true))

/-- `drain_all_streams_once`. -/
def drainAllOnce (reads : Nat → Bool → List ReadResult) : Sup Unit := do
  let w ← get
  forSlots (drainSlot reads) w.slots

/-- The body of the SIGKILL pass. -/
def killProcesses (s : Service) : Sys Unit := do
  if s.active && s.pid > 0 then kill (-s.pid) sigkill
  if s.active && s.logPid > 0 then kill s.logPid sigkill

/-- SIGKILL to what the first waiting loop has left. -/
def killRemaining (i : Nat) : Sup Unit := do
  let w ← get
  liftSys (killProcesses (w.svc i))

/-- The environment's part in one turn of a waiting loop. -/
structure Round where
  exits : List (Int × Int) := []
  reads : Nat → Bool → List ReadResult := fun _ _ => []

/-- The waiting loops of the shutdown. -/
def waitLoop (deadline : Int) : List Round → Sup Unit
  | [] => return ()
  | r :: rounds => do
    reapChildren r.exits
    drainAllOnce r.reads
    let w ← get
    -- processes and pipes, those of loggers too
    if !anyOpenServices w then return ()
    let now ← liftSys monoNow
    if now ≥ deadline then return ()
    waitLoop deadline rounds

/-- The body of the final cleanup. -/
def cleanupService (s : Service) : Sys Service := do
  let s ← closeServiceFds s
  let s := { s with pid := -1, logPid := -1, state := .down, logState := .down }
  writeStatusFile s
  return s

/-- The final cleanup of an active slot. -/
def cleanupSlot (i : Nat) : Sup Unit := do
  let w ← get
  if (w.svc i).active then onSlot i cleanupService

/-- The final cleanup. -/
def cleanupServices : Sup Unit := do
  let w ← get
  forSlots cleanupSlot w.slots

/-- `main` after the loop, up to the final cleanup. -/
def shutdownServices (first second : List Round) : Sup Unit := do
  stopAllInOrder
  let now ← liftSys monoNow
  waitLoop (i64 (now + shutdownTimeoutS)) first
  let w ← get
  forSlots killRemaining w.slots
  let now ← liftSys monoNow
  waitLoop (i64 (now + 2)) second

end SvcRs
