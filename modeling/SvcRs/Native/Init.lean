import SvcRs.Native.Log

/-!
# Before the main loop

`main` up to the loop: `ensure_stdio` of `fd.rs`, `init_signal_pipe` of `signal.rs` and
`create_control_socket` of `ctrl.rs`. `Setup` is the kernel with what only these functions
touch, the `umask` and the socket file.
-/

namespace SvcRs

/-! ## Standard streams -/

/-- `fcntl(fd, F_GETFL)` succeeds. -/
def isFdOpen (fd : Int) : Sys Bool := fun k => (decide (fd ∈ k.fds), k)

/-- `open("/dev/null", O_RDWR)`. -/
def openDevNull : Sys Int := do
  let a ← call
  fun k =>
    if 0 ≤ a.fd ∧ a.fd ∉ k.fds then
      (a.fd, { k with fds := a.fd :: k.fds, inheritable := a.fd :: k.inheritable })
    else (-1, k)

/-- `dup2`: what `new` was is closed, and the copy does not have `FD_CLOEXEC`. -/
def dup2Fd (old new : Int) : Sys Unit := do
  let a ← call
  fun k =>
    if 0 ≤ a.status ∧ old ∈ k.fds ∧ old ≠ new then
      ((), { k with
        fds := new :: k.fds.erase new, inheritable := new :: k.inheritable.erase new })
    else ((), k)

/-- The body of the loop in `ensure_stdio`. -/
def ensureFd (fd : Int) : Sys Unit := do
  if !(← isFdOpen fd) then
    let nfd ← openDevNull
    if nfd ≥ 0 && nfd ≠ fd then
      dup2Fd nfd fd
      closeFd nfd

/-- `ensure_stdio`: whatever is closed of 0, 1 and 2 is opened on `/dev/null`. -/
def ensureStdio : Sys Unit := do
  ensureFd 0
  ensureFd 1
  ensureFd 2

/-! ## The self-pipe -/

/-- The result of `init_signal_pipe` and the value of `SIG_PIPE_W`. -/
def initSignalPipe : Sys (Int × Int) := do
  match ← newPipe with
  | some (r, w) => return (r, w)
  | none => return (-1, -1)

/-! ## The control socket -/

/-- Permission bits, those of others lowest. -/
abbrev Mode := BitVec 9

/-- What happens to the socket file; its `mode` is what `bind` or `chmod` makes of it. -/
inductive SocketEvent where
  | bound (fd : Int) (path : Bytes) (mode : Mode)
  | chmod (path : Bytes) (mode : Mode)
  | listening (fd : Int)
  deriving DecidableEq, Repr

/-- The kernel with what only the prologue of `main` touches. -/
structure Setup where
  k : Kernel
  umask : Mode
  /-- Newest first. -/
  socket : List SocketEvent := []

/-- A system call that touches nothing but the kernel. -/
def onKernel {α : Type} (m : Sys α) : StateM Setup α := fun h =>
  ((m h.k).1, { h with k := (m h.k).2 })

namespace Setup

/-- Composition runs one computation after the other. -/
@[simp] theorem bind_apply {α β : Type} (m : StateM Setup α) (f : α → StateM Setup β)
    (h : Setup) : (m >>= f) h = f (m h).1 (m h).2 := rfl

/-- A result needs no call. -/
@[simp] theorem pure_apply {α : Type} (a : α) (h : Setup) :
    (pure a : StateM Setup α) h = (a, h) := rfl

end Setup

/-- `libc::umask`, which returns the old mask. -/
def setUmask (mask : Mode) : StateM Setup Mode := fun h => (h.umask, { h with umask := mask })

/-- `socket(AF_UNIX, SOCK_STREAM | SOCK_CLOEXEC, 0)`. -/
def newSocket : Sys Int := do
  let a ← call
  fun k =>
    if 0 ≤ a.fd ∧ a.fd ∉ k.fds then (a.fd, { k with fds := a.fd :: k.fds }) else (-1, k)

/-- The sizes of `sun_path` and of `sockaddr_un`. -/
def sunPathLen : Nat := 108

/-- `size_of::<sockaddr_un>()`. -/
def sockaddrUnLen : Nat := 110

/-- `bind`: the file gets the bits that the `umask` does not mask. An address that is longer
    than a `sockaddr_un` is refused. -/
def bindSocket (fd : Int) (sunPath : Bytes) (addrLen : Nat) : StateM Setup Bool := do
  let a ← onKernel call
  fun h =>
    if 0 ≤ a.status ∧ addrLen ≤ sockaddrUnLen then
      (true, { h with socket := .bound fd sunPath (~~~h.umask) :: h.socket })
    else (false, h)

/-- `libc::chmod`; the caller ignores a failure. -/
def chmodFile (path : Bytes) (mode : Mode) : StateM Setup Unit := do
  let a ← onKernel call
  fun h =>
    if 0 ≤ a.status then ((), { h with socket := .chmod path mode :: h.socket }) else ((), h)

/-- `libc::listen`. -/
def listenSocket (fd : Int) : StateM Setup Bool := do
  let a ← onKernel call
  fun h =>
    if 0 ≤ a.status then (true, { h with socket := .listening fd :: h.socket }) else (false, h)

/-- `<root>/.control.sock`. -/
def controlPath (root : CStrBuf) : CStrBuf :=
  (CStrBuf.fromBytes root.bytes).push (bytesOf "/.control.sock")

/-- The calls after `socket` has succeeded. -/
def publishSocket (fd : Int) (sockPath : CStrBuf) (oldUmask : Mode) : StateM Setup Int := do
  let maxLen := sunPathLen - 1
  let copyLen := min sockPath.bytes.length maxLen
  let addrLen := sockaddrUnLen - maxLen + copyLen + 1
  if !(← bindSocket fd (sockPath.bytes.take copyLen) addrLen) then
    -- on every way out the old umask is back
    onKernel (closeFd fd)
    let _ ← setUmask oldUmask
    return -1
  let _ ← setUmask oldUmask
  chmodFile sockPath.bytes 0o660#9
  if !(← listenSocket fd) then
    onKernel (closeFd fd)
    return -1
  return fd

/-- `create_control_socket`: the socket file is made under the mask 077 and opened up to the group
    at the end. -/
def createControlSocket (root : CStrBuf) : StateM Setup Int := do
  let sockPath := controlPath root
  onKernel (emit (.unlinked sockPath.bytes))
  let oldUmask ← setUmask 0o077#9
  let fd ← onKernel newSocket
  if fd < 0 then
    let _ ← setUmask oldUmask
    return -1
  publishSocket fd sockPath oldUmask

/-! ## The beginning of `main` -/

/-- The service directory, from `argv[1]` if there is one. -/
def rootArg (arg : Option Bytes) : CStrBuf :=
  let root := match arg with
    | some b => CStrBuf.new.push b
    | none => CStrBuf.new
  if root.bytes.length = 0 then root.push (bytesOf "/etc/svc") else root

/-- The variables of `main`, and the statics, when the loop begins. -/
structure Started where
  root : CStrBuf
  log : SupervisorLog
  sigFd : Int
  sigPipeW : Int
  ctrlFd : Int

/-- `main` up to the loop. -/
def startup (arg : Option Bytes) : StateM Setup Started := do
  onKernel ensureStdio
  let root := rootArg arg
  let log ← onKernel (supervisorLogInit {})
  let log ← onKernel (supervisorLog (bytesOf "svc-rs starting") log)
  let (sigFd, sigPipeW) ← onKernel initSignalPipe
  let ctrlFd ← createControlSocket root
  return { root, log, sigFd, sigPipeW, ctrlFd }

end SvcRs
