import SvcRs.Native.Types

/-!
# The system-call interface

The part of `libc` (and of the wrappers in `fd.rs`) that the supervisor calls.
Every call consumes one `Answer` of an arbitrary oracle, so the failures of
`fork`, `pipe`, `open` and `write`, the contents of the file system and the
passage of time are all unconstrained. Only what the operating system guarantees
is built in: the monotonic clock never goes back, `fork` never returns the pid of
an unreaped child (nor 1, which is always `init`), `waitpid` returns unreaped
children only, and a new descriptor is not an open one.

The trace records what the supervisor did, newest event first. The entries
`added`, `removed`, `found`, `started`, `exited` and `accepted` are the
supervisor's own log lines and replies, tagged with the slot they are about;
`status` sums up a call of `write_status_file`, which fails silently.
-/

namespace SvcRs

/-! ## Signals -/

def sighup : Int := 1
def sigint : Int := 2
def sigquit : Int := 3
def sigkill : Int := 9
def sigusr1 : Int := 10
def sigusr2 : Int := 12
def sigalrm : Int := 14
def sigterm : Int := 15
def sigcont : Int := 18
def sigrtmax : Nat := 64

/-! ## Children -/

/-- What a child was forked for; `main` and `logger` name the slot of the record. -/
inductive Role where
  | main (slot : Nat)
  | logger (slot : Nat)
  | finish
  | check
  deriving DecidableEq, Repr

/-- A child that the supervisor has forked and not reaped. -/
structure Child where
  pid : Int
  role : Role
  deriving DecidableEq, Repr

/-- The control commands that address one service record. -/
inductive SvcCmd where
  | start | stop | restart | down | up | once
  deriving DecidableEq, Repr

/-! ## Events -/

/-- How a file is opened for writing: its end is kept, or its content goes. -/
inductive OpenMode where
  | append | trunc
  deriving DecidableEq, Repr

/-- What the supervisor has done, as far as another process or the disk can tell. -/
inductive Event where
  /-- `fork` returned `pid` in the parent. -/
  | fork (role : Role) (pid : Int)
  /-- `waitpid` returned `pid`. -/
  | reaped (pid status : Int)
  | kill (target sig : Int)
  /-- `kill(getpid(), sig)`. -/
  | killSelf (sig : Int)
  | added (slot : Nat)
  | removed (slot : Nat)
  /-- A scan met the directory of a known service. -/
  | found (slot : Nat)
  /-- "service started", with the `started_at` it recorded. -/
  | started (slot : Nat) (startedAt : Int)
  /-- "service exited", with the reaper's clock reading and the record it found. -/
  | exited (slot : Nat) (t : Int) (before : Service)
  /-- A command was answered OK for the record in `slot`. -/
  | accepted (cmd : SvcCmd) (slot : Nat)
  | piped (readFd writeFd : Int)
  | opened (path : Bytes) (mode : OpenMode) (fd : Int)
  | closed (fd : Int)
  | wrote (fd : Int) (data : Bytes)
  /-- `lseek` to the end of the file returned `len`. -/
  | seeked (fd len : Int)
  | mkdir (path : Bytes)
  | rename (source target : Bytes)
  | unlinked (path : Bytes)
  | reply (text : Bytes)
  /-- The outcome of `write_status_file`: the text in the file, or `none` if the file could not
      be opened or not all of the text was written. -/
  | status (path : Bytes) (text : Option Bytes)
  /-- A `read` of the self-pipe. -/
  | sigRead (chunk : Bytes)
  deriving DecidableEq, Repr

/-! ## The oracle -/

/-- `F_OK` and `X_OK`. -/
inductive AccessMode where
  | exists | exec
  deriving DecidableEq, Repr

/-- The file system and the user database as one call sees them. -/
structure FileSys where
  /-- `access(path, mode) == 0`. -/
  access : Bytes → AccessMode → Bool := fun _ _ => false
  /-- What reading the file yields; `none` when `open` or `read` fails. -/
  read : Bytes → Option Bytes := fun _ => none
  /-- `getpwnam_r`. -/
  uidOf : Bytes → Option UInt32 := fun _ => none
  /-- `getgrnam_r`. -/
  gidOf : Bytes → Option UInt32 := fun _ => none

/-- One result of `write`; `wrote n` accepts `n + 1` bytes, or all if there are fewer. -/
inductive WriteResult where
  | wrote (n : Nat)
  | zero
  | eintr
  | error
  deriving DecidableEq, Repr

/-- What the operating system answers to one call. Each call reads the field it needs. -/
structure Answer where
  /-- Seconds by which the monotonic clock has advanced. -/
  tick : Nat := 0
  wall : Nat := 0
  fork : Int := -1
  pipe : Option (Int × Int) := none
  fd : Int := -1
  seek : Int := 0
  status : Int := 0
  writes : List WriteResult := []
  fs : FileSys := {}

/-- The part of the system that the supervisor sees: the answers still to come, and what its own
    calls have made of the processes and the descriptors. -/
structure Kernel where
  oracle : Nat → Answer
  calls : Nat := 0
  /-- The last reading of the monotonic clock, in seconds (an `i64`). -/
  clock : Int := 0
  clockNonneg : 0 ≤ clock := by decide
  clockLe : clock ≤ i64Max := by decide
  children : List Child := []
  fds : List Int := []
  /-- The open descriptors without `FD_CLOEXEC`. -/
  inheritable : List Int := []
  /-- Bytes written by the signal handler and not read yet. -/
  sigPipe : Bytes := []
  trace : List Event := []

/-- A computation that makes system calls. -/
abbrev Sys := StateM Kernel

namespace Sys

/-- Composition runs one computation after the other. -/
@[simp] theorem bind_apply {α β : Type} (m : Sys α) (f : α → Sys β) (k : Kernel) :
    (m >>= f) k = f (m k).1 (m k).2 := rfl

/-- A result needs no call. -/
@[simp] theorem pure_apply {α : Type} (a : α) (k : Kernel) : (pure a : Sys α) k = (a, k) := rfl

end Sys

/-! ## Calls -/

/-- A call whose effect is on record only. -/
def emit (e : Event) : Sys Unit := fun k => ((), { k with trace := e :: k.trace })

/-- The answer to the next call. -/
def call : Sys Answer := fun k => (k.oracle k.calls, { k with calls := k.calls + 1 })

/-- The clock stays in the range of an `i64` that is not negative. -/
theorem Kernel.advance_range (k : Kernel) (seconds : Nat) :
    0 ≤ min (k.clock + seconds) i64Max ∧ min (k.clock + seconds) i64Max ≤ i64Max := by
  have := k.clockNonneg
  simp only [i64Max]
  omega

/-- Let `seconds` pass. -/
def Kernel.advance (k : Kernel) (seconds : Nat) : Kernel :=
  { k with
    clock := min (k.clock + seconds) i64Max
    clockNonneg := (k.advance_range seconds).1
    clockLe := (k.advance_range seconds).2 }

/-- `mono_now()`. -/
def monoNow : Sys Int := do
  let a ← call
  fun k => ((k.advance a.tick).clock, k.advance a.tick)

/-- `wall_now()`, only used in the names of archived logs. -/
def wallNow : Sys Nat := do return (← call).wall

/-- `libc::access(path, mode) == 0`. -/
def access (path : Bytes) (mode : AccessMode) : Sys Bool := do
  return (← call).fs.access path mode

/-- `read_file_to_buf`: at most `n` bytes of the file; `none` stands for a negative result. -/
def readFileToBuf (path : Bytes) (n : Nat) : Sys (Option Bytes) := do
  return ((← call).fs.read path).map (List.take n)

/-- `getpwnam_r`. -/
def getpwnam (name : Bytes) : Sys (Option UInt32) := do return (← call).fs.uidOf name

/-- `getgrnam_r`. -/
def getgrnam (name : Bytes) : Sys (Option UInt32) := do return (← call).fs.gidOf name

/-- The parent's side of `fork`: a pid above 1 that no unreaped child has, or -1. -/
def fork (role : Role) : Sys Int := do
  let a ← call
  fun k =>
    if 1 < a.fork ∧ ∀ c ∈ k.children, c.pid ≠ a.fork then
      (a.fork, { k with
        children := ⟨a.fork, role⟩ :: k.children
        trace := .fork role a.fork :: k.trace })
    else (-1, k)

/-- `waitpid` hands out `pid` with `status` if it is an unreaped child. -/
def waitpid (pid status : Int) : Sys Bool := fun k =>
  if ∃ c ∈ k.children, c.pid = pid then
    (true, { k with
      children := k.children.filter fun c => c.pid ≠ pid
      trace := .reaped pid status :: k.trace })
  else (false, k)

/-- `libc::kill`; the result is ignored everywhere. -/
def kill (target sig : Int) : Sys Unit := emit (.kill target sig)

/-- The handler of `signal.rs`: one byte into the self-pipe. -/
def signalHandler (sig : UInt8) : Sys Unit := fun k =>
  ((), { k with sigPipe := k.sigPipe ++ [sig] })

/-- `kill(getpid(), SIGHUP)`: the signal reaches the supervisor's own handler. -/
def raiseHup : Sys Unit := do
  emit (.killSelf sighup)
  signalHandler 1

/-- `open` for writing, without `O_CLOEXEC`; -1 on failure. -/
def openFile (path : Bytes) (mode : OpenMode) : Sys Int := do
  let a ← call
  fun k =>
    if 0 ≤ a.fd ∧ a.fd ∉ k.fds then
      (a.fd, { k with
        fds := a.fd :: k.fds, inheritable := a.fd :: k.inheritable
        trace := .opened path mode a.fd :: k.trace })
    else (-1, k)

/-- `Pipe::new`: the read end and the write end, both with `FD_CLOEXEC`. -/
def newPipe : Sys (Option (Int × Int)) := do
  let a ← call
  fun k =>
    match a.pipe with
    | some (r, w) =>
      if 0 ≤ r ∧ 0 ≤ w ∧ r ≠ w ∧ r ∉ k.fds ∧ w ∉ k.fds then
        (some (r, w), { k with fds := r :: w :: k.fds, trace := .piped r w :: k.trace })
      else (none, k)
    | none => (none, k)

/-- `close_fd`: negative descriptors are ignored. -/
def closeFd (fd : Int) : Sys Unit := fun k =>
  if 0 ≤ fd then
    ((), { k with
      fds := k.fds.erase fd, inheritable := k.inheritable.erase fd
      trace := .closed fd :: k.trace })
  else ((), k)

/-- `lseek(fd, 0, SEEK_END)`. -/
def seekEnd (fd : Int) : Sys Int := do
  let a ← call
  emit (.seeked fd a.seek)
  return a.seek

/-- The loop of `write_all`: the bytes that were written and whether all of them were. -/
def writeLoop : List WriteResult → Bytes → Bytes → Bytes × Bool
  | _, [], done => (done, true)
  | [], data, done => (done ++ data, true)
  | .wrote n :: rs, data, done => writeLoop rs (data.drop (n + 1)) (done ++ data.take (n + 1))
  | .eintr :: rs, data, done => writeLoop rs data done
  | .zero :: _, _, done => (done, false)
  | .error :: _, _, done => (done, false)

/-- `write_all`: whether every byte was written. -/
def writeAll (fd : Int) (data : Bytes) : Sys Bool := do
  let a ← call
  let r := writeLoop a.writes data []
  emit (.wrote fd r.1)
  return r.2

/-- `write_all(client_fd, ...)`, whose result every caller ignores. -/
def reply (text : Bytes) : Sys Unit := emit (.reply text)

end SvcRs
