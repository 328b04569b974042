import SvcRs.Native.Path

/-!
# The service record

`types.rs`. Fixed-size byte arrays with a length (`name`, `dir`) are the bytes up
to that length; `deps[..deps_count]` is a list. The environment block keeps its
buffer and offsets, because `read_env` overwrites it in place.
-/

namespace SvcRs

/-- The `STATE_*` constants. -/
inductive SvcState where
  | down | running | exited | signaled | failed | stopping
  deriving DecidableEq, Repr

/-- A name in a depends file. -/
structure Dependency where
  name : Bytes
  soft : Bool
  deriving DecidableEq, Repr

/-- One of the two output streams of a service. -/
structure Stream where
  readFd : Int := -1
  logFd : Int := -1
  logLen : Int := 0
  rotations : UInt32 := 0
  deriving DecidableEq, Repr

/-- `env_buf`, `env_ptrs` (as offsets into the buffer) and `env_count`. -/
structure EnvBlock where
  buf : Bytes := List.replicate envBuf 0
  ptrs : List (Option Nat) := List.replicate (maxEnvVars + 1) none
  count : Nat := 0
  deriving DecidableEq, Repr

/-- `Service`; the field defaults are those of `SERVICE_EMPTY`. -/
structure Service where
  active : Bool := false
  present : Bool := false
  stopping : Bool := false
  manualStart : Bool := false
  name : Bytes := []
  dir : Bytes := []
  pid : Int := -1
  out : Stream := {}
  err : Stream := {}
  restartAt : Int := 0
  startedAt : Int := 0
  restarts : UInt32 := 0
  lastStatus : Int := 0
  state : SvcState := .down
  exitCode : Int := 0
  termSignal : Int := 0
  autoStart : Bool := true
  once : Bool := false
  deps : List Dependency := []
  hasLog : Bool := false
  logPid : Int := -1
  logState : SvcState := .down
  logStartedAt : Int := 0
  logStopping : Bool := false
  uid : UInt32 := 0
  gid : UInt32 := 0
  hasUid : Bool := false
  env : EnvBlock := {}
  chrootEnabled : Bool := false
  deriving DecidableEq, Repr

namespace Service

/-- `SERVICE_EMPTY`. -/
def empty : Service := {}

/-- A slot of the static table before its first use (`mem::zeroed()`): unlike in
    `SERVICE_EMPTY`, the pids and descriptors are 0. -/
def zeroed : Service :=
  { pid := 0, out := { readFd := 0, logFd := 0 }, err := { readFd := 0, logFd := 0 },
    logPid := 0, autoStart := false }

/-- `set_name` keeps the first `NAME_BUF - 1` bytes. -/
def setName (s : Service) (b : Bytes) : Service := { s with name := b.take (nameBuf - 1) }

/-- `set_dir`. -/
def setDir (s : Service) (p : CStrBuf) : Service := { s with dir := p.bytes }

/-- `uptime_seconds`. -/
def uptimeSeconds (s : Service) (now : Int) : Int :=
  if s.state = .running ∧ s.startedAt > 0 then i64 (now - s.startedAt) else 0

/-- `log_uptime_seconds`. -/
def logUptimeSeconds (s : Service) (now : Int) : Int :=
  if s.logState = .running ∧ s.logStartedAt > 0 then i64 (now - s.logStartedAt) else 0

/-- One of `s.streams[0]`, `s.streams[1]`. -/
def stream (s : Service) (err : Bool) : Stream := if err then s.err else s.out

/-- `streams[err] = st`. -/
def setStream (s : Service) (err : Bool) (st : Stream) : Service :=
  if err then { s with err := st } else { s with out := st }

end Service

end SvcRs
