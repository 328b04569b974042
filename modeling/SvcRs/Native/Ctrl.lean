import SvcRs.Native.Scan

/-!
# The control socket

`ctrl.rs`. `handle_control_command` gets the bytes of one request and answers it;
the replies go to the trace.
-/

namespace SvcRs

/-- A blank, a newline or a carriage return. -/
def isSeparator (c : UInt8) : Bool := c = 32 || c = 10 || c = 13

/-- `split_cmd`: the first word, and the rest without the separators around it. -/
def splitCmd (line : Bytes) : Bytes × Bytes :=
  (line.takeWhile fun c => !isSeparator c,
    trimEnd isSeparator ((line.dropWhile fun c => !isSeparator c).dropWhile isSeparator))

/-- `signal_from_name`; 0 is no signal. -/
def signalFromName (name : Bytes) : Int :=
  if name = bytesOf "hup" then sighup
  else if name = bytesOf "int" then sigint
  else if name = bytesOf "term" then sigterm
  else if name = bytesOf "kill" then sigkill
  else if name = bytesOf "usr1" then sigusr1
  else if name = bytesOf "usr2" then sigusr2
  else if name = bytesOf "quit" then sigquit
  else if name = bytesOf "alrm" then sigalrm
  else if name = bytesOf "cont" then sigcont
  else 0

/-- What the first word of a request asks for, in the order of the source's tests. -/
inductive Request where
  | list
  | status
  | svc (cmd : SvcCmd)
  | check
  | reload
  | shortcut (sig : Int)
  | signal
  | unknown
  deriving DecidableEq, Repr

/-- The command words that `handle_control_command` compares with, in its order. -/
def parseRequest (cmd : Bytes) : Request :=
  -- `stat` is another word for `list`
  if cmd = bytesOf "list" || cmd = bytesOf "stat" then .list
  else if cmd = bytesOf "status" then .status
  else if cmd = bytesOf "start" then .svc .start
  else if cmd = bytesOf "stop" then .svc .stop
  else if cmd = bytesOf "restart" then .svc .restart
  else if cmd = bytesOf "down" then .svc .down
  else if cmd = bytesOf "up" then .svc .up
  else if cmd = bytesOf "once" then .svc .once
  else if cmd = bytesOf "check" then .check
  else if cmd = bytesOf "reload" then .reload
  -- the nine signal words stand for `signal <name> <number>`
  else if signalFromName cmd ≠ 0 then .shortcut (signalFromName cmd)
  else if cmd = bytesOf "signal" then .signal
  else .unknown

/-! ## Replies that only read the table -/

/-- The status lines of the active services, collected in one `CStrBuf`. -/
def listServices (w : World) (now : Int) : Bytes :=
  (w.slots.foldl (fun p i =>
    if (w.svc i).active then p.push (formatServiceStatus (w.svc i) now) else p)
    CStrBuf.new).bytes.take respBuf

/-- The checks that every command with a service argument begins with. -/
def withService (usage : String) (arg : Bytes) (act : Nat → Sup Bytes) : Sup Bytes := do
  if arg = [] then return formatError usage
  let w ← get
  match findServiceByName w arg with
  | none => return formatError "service not found\n"
  | some i => act i

/-! ## Commands that change a record -/

/-- `start`: the record is marked, and the next start pass does the rest. -/
def startCmd (s : Service) : Sys Service :=
  return { s with manualStart := true, restartAt := 0, stopping := false }

/-- The signals that `stop`, `restart` and `down` send. -/
def stopSignals (s : Service) : Sys Service := do
  if s.pid > 0 then kill (-s.pid) sigterm
  if s.logPid > 0 then signalLogger s else return s

/-- `stop`: SIGTERM to both processes. -/
def stopCmd (s : Service) : Sys Service := do
  let s ← stopSignals { s with stopping := true, state := .stopping }
  writeStatusFile s
  return s

/-- `restart`: `stop`, and a manual start is asked for. -/
def restartCmd (s : Service) : Sys Service := do
  -- the exit sets `restart_at` to the maximum all the same
  let s ← stopSignals { s with stopping := true, state := .stopping, manualStart := true }
  writeStatusFile s
  return s

/-- `open(path, O_WRONLY | O_CREAT | O_TRUNC)` and `close`. -/
def touchFile (path : Bytes) : Sys Unit := do
  let fd ← openFile path .trunc
  closeFd fd

/-- `down`: the file `down` is made, and a running service is stopped. -/
def downCmd (s : Service) : Sys Service := do
  let s := { s with autoStart := false }
  touchFile (joinPath s.dir "/down")
  let s ←
    -- a service that waits for its restart is only kept from being started
    if s.pid > 0 then stopSignals { s with stopping := true, state := .stopping } else pure s
  writeStatusFile s
  return s

/-- `up`: the file `down` is removed, and the service is due at once. -/
def upCmd (s : Service) : Sys Service := do
  emit (.unlinked (joinPath s.dir "/down"))
  let now ← monoNow
  -- `stopping` is cleared even while the process is still there
  let s := { s with autoStart := true, restartAt := now, stopping := false }
  writeStatusFile s
  return s

/-- `once`: the file `once` is made; nothing is started. -/
def onceCmd (s : Service) : Sys Service := do
  let s := { s with once := true }
  touchFile (joinPath s.dir "/once")
  writeStatusFile s
  return s

/-- The effect of a command on the record it names. -/
def runSvcCmd : SvcCmd → Service → Sys Service
  | .start => startCmd
  | .stop => stopCmd
  | .restart => restartCmd
  | .down => downCmd
  | .up => upCmd
  | .once => onceCmd

/-- A command that found its service: the change of the record and the reply. -/
def acceptCmd (cmd : SvcCmd) (slot : Nat) (s : Service) : Sys Service := do
  emit (.accepted cmd slot)
  runSvcCmd cmd s

/-- The error for a missing name. -/
def svcCmdUsage : SvcCmd → String
  | .start => "usage: start <name>\n"
  | .stop => "usage: stop <name>\n"
  | .restart => "usage: restart <name>\n"
  | .down => "usage: down <name>\n"
  | .up => "usage: up <name>\n"
  | .once => "usage: once <name>\n"

/-- The answer when the command has been carried out. -/
def svcCmdDone : SvcCmd → String
  | .start => "starting\n"
  | .stop => "stopping\n"
  | .restart => "restarting\n"
  | .down => "set down and stopping\n"
  | .up => "set up\n"
  | .once => "once flag set\n"

/-- `start`, `stop`, `restart`, `down`, `up` and `once`. Only `stop` looks at the
    dependents, and it does so before it changes the record. -/
def svcCommand (cmd : SvcCmd) (arg : Bytes) : Sup Bytes :=
  withService (svcCmdUsage cmd) arg fun i => do
    -- the service still runs, so its dependents do not fall
    if cmd = .stop then stopTransitiveDeps
    onSlot i (acceptCmd cmd i)
    return formatOk (svcCmdDone cmd)

/-! ## Check and signals -/

/-- The reply to `check` once the script has exited. -/
def checkReply (status : Int) : Bytes :=
  if status % 128 = 0 then
    formatOk "check exited with " ++ ((CStrBuf.new.pushI64 (status / 256 % 256)).lit "\n").bytes
  else if status % 128 = 127 then formatError "check stopped\n"
  else formatError "check killed by signal\n"

/-- Fork the `check` script and wait for it. -/
def forkCheck : Sys Bytes := do
  let pid ← fork .check
  if pid > 0 then
    let status := (← call).status
    -- the supervisor waits here; what else exits is reaped later
    let _ ← waitpid pid status
    return checkReply status
  else return formatError "fork failed\n"

/-- The parent's side of `check`. -/
def runCheck (s : Service) : Sys Bytes := do
  let _ ← prepareServiceEnv s
  if !(← access (joinPath s.dir "/check") .exec) then return formatError "no check script\n"
  forkCheck

/-- The common end of `signal` and its shortcuts. -/
def sendSignal (i : Nat) (sig : Int) : Sup Bytes := do
  let w ← get
  if (w.svc i).pid ≤ 0 then return formatError "service not running\n"
  liftSys (kill (-(w.svc i).pid) sig)
  return formatOk "signal sent\n"

/-- A signal number from its leading digits: 1 up to `SIGRTMAX`. -/
def parseSignum (b : Bytes) : Option Nat :=
  let n := leadingDigits b 0
  if 0 < n ∧ n ≤ sigrtmax then some n else none

/-- `signal <name> <signum>`, with the second argument split off the first. -/
def signalCommand (arg : Bytes) : Sup Bytes := do
  let (svcName, sigNumPart) := splitCmd arg
  if arg = [] || svcName = [] || sigNumPart = [] then
    return formatError "usage: signal <name> <signum>\n"
  match parseSignum sigNumPart with
  | none => return formatError "invalid signal number\n"
  | some signum =>
    withService "usage: signal <name> <signum>\n" svcName fun i => sendSignal i signum

/-- The error for any other word. -/
def unknownCommand : String :=
  "unknown command. use: list|stat|status|start|stop|restart|down|up|once|check|reload|" ++
    "signal|hup|term|kill|usr1|usr2|int|quit|alrm|cont\n"

/-- The reply to one request. -/
def respond (line : Bytes) : Sup Bytes :=
  let (cmd, arg) := splitCmd line
  match parseRequest cmd with
  | .list => do
    let now ← liftSys monoNow
    let w ← get
    return listServices w now
  | .status => withService "usage: status <name>\n" arg fun i => do
    let now ← liftSys monoNow
    -- the uptime is taken at the same reading of the clock
    let w ← get
    return formatServiceStatus (w.svc i) now
  | .svc c => svcCommand c arg
  | .check => withService "usage: check <name>\n" arg fun i => do
    let w ← get
    liftSys (runCheck (w.svc i))
  | .reload => do
    -- `kill(getpid(), SIGHUP)`: the scan itself happens in a later pass
    liftSys raiseHup
    return formatOk "reload scheduled\n"
  | .shortcut sig => withService "usage: <signal> <name>\n" arg fun i => sendSignal i sig
  | .signal => signalCommand arg
  | .unknown => return formatError unknownCommand

/-- `handle_control_command`: one request, one answer. -/
def handleControlCommand (line : Bytes) : Sup Unit := do
  let text ← respond line
  liftSys (reply text)

end SvcRs
