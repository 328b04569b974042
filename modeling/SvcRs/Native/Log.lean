import SvcRs.Native.Kernel

/-!
# The supervisor's own log

`log.rs`. The two statics are the record `SupervisorLog`, which every function takes and
returns.
-/

namespace SvcRs

/-- `SUPERVISOR_LOG_LIMIT` -/
def supervisorLogLimit : Int := 1048576

/-- `SUPERVISOR_LOG_PATH` -/
def supervisorLogPath : Bytes := bytesOf "/var/log/svc-rs.log"

/-- `SUPERVISOR_LOG_FD` and `SUPERVISOR_LOG_LEN`. -/
structure SupervisorLog where
  fd : Int := -1
  len : Int := 0
  deriving DecidableEq, Repr

/-- `set_cloexec`. -/
def setCloexec (fd : Int) : Sys Unit := fun k =>
  ((), { k with inheritable := k.inheritable.erase fd })

/-- `supervisor_log_init`: the log is opened at its end. -/
def supervisorLogInit (l : SupervisorLog) : Sys SupervisorLog := do
  let fd ← openFile supervisorLogPath .append
  if fd ≥ 0 then
    setCloexec fd
    let len ← seekEnd fd
    return { fd, len }
  else return l

/-- The path to which a rotation at the time `ts` moves the log. -/
def supervisorArchive (ts : Nat) : Bytes :=
  (((CStrBuf.fromBytes supervisorLogPath).pushByte 46).pushU64 ts).bytes

/-- `supervisor_log_rotate`: the log is renamed after the time of day, and a new one is opened. -/
def supervisorLogRotate (l : SupervisorLog) : Sys SupervisorLog := do
  closeFd l.fd
  let ts ← wallNow
  emit (.rename supervisorLogPath (supervisorArchive ts))
  supervisorLogInit { l with fd := -1, len := 0 }

/-- The bytes in `buf[..total]`: a time stamp and as much of the message as fits. -/
def logText (ts : Nat) (msg : Bytes) : Bytes :=
  let pre := ((CStrBuf.new.pushU64 ts).push (bytesOf " [svc-rs] ")).bytes
  let maxCopy := min 256 (pre.length + msg.length)
  let msgLen := min msg.length (maxCopy - pre.length)
  pre ++ msg.take msgLen

/-- `supervisor_log`: one line, after which the log is rotated if it has grown too long. -/
def supervisorLog (msg : Bytes) (l : SupervisorLog) : Sys SupervisorLog := do
  if l.fd < 0 then return l
  let ts ← wallNow
  let text := logText ts msg
  if ← writeAll l.fd text then
    let l := { l with len := i64 (l.len + text.length + 1) }
    -- the newline is counted whether it is written or not
    let _ ← writeAll l.fd [10]
    -- the line that exceeds the limit is still in the old file
    if l.len > supervisorLogLimit then supervisorLogRotate l else return l
  else return l

end SvcRs
