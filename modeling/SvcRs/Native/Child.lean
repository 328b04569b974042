import SvcRs.Native.Service

/-!
# Forked children up to `execve`

What the four kinds of children do before they become another program, with the
restrictions of `security.rs`. The parent's side of these functions is in
`Native/Service.lean` and `Native/Ctrl.lean`. A child runs until `execve` succeeds or
`_exit` is called; both end the computation with an `Outcome`.

Every call before `execve` is made at most once with the same arguments, so the answers
of the operating system are a table (`ChildEnv`) instead of a sequence.
-/

namespace SvcRs

/-! ## Processes -/

/-- A descriptor and its close-on-exec flag. -/
structure Fd where
  num : Int
  cloexec : Bool
  deriving DecidableEq, Repr

/-- Real, effective and saved ids; `groups` are the supplementary groups. The defaults are
    those of root. -/
structure Creds where
  ruid : UInt32 := 0
  euid : UInt32 := 0
  suid : UInt32 := 0
  rgid : UInt32 := 0
  egid : UInt32 := 0
  sgid : UInt32 := 0
  groups : List UInt32 := []
  deriving DecidableEq, Repr

/-- The resources that `apply_security_restrictions` limits. -/
inductive Rlimit where
  | cpu | as | nofile | fsize | nproc | core
  deriving DecidableEq, Repr

/-- How the system answers a child before `execve`. -/
structure ChildEnv where
  /-- What reading the file yields; `none` when `open` or `read` fails. -/
  read : Bytes → Option Bytes := fun _ => none
  setrlimit : Rlimit → Bool := fun _ => true
  nice : Bool := true
  /-- Whether `dup2` to this descriptor succeeds. -/
  dup2 : Int → Bool := fun _ => true
  /-- The result of `open("/dev/null")`, unless that descriptor is open. -/
  openNull : Int := -1
  chroot : Bool := true
  setgid : Bool := true
  setgroups : Bool := true
  setuid : Bool := true
  execve : Bool := true

/-- The process image of a child: what the calls before `execve` change. -/
structure Proc where
  env : ChildEnv
  creds : Creds
  fds : List Fd
  /-- The soft limits (`rlim_t`). -/
  limit : Rlimit → Nat
  niceness : Int := 0

/-- How the child's own code ends. -/
inductive Outcome where
  | exec (path : Bytes) (args : List Bytes)
  | exit (code : Int)
  deriving DecidableEq, Repr

/-- A computation of a child. -/
abbrev PreExec := ExceptT Outcome (StateM Proc)

/-- A call that cannot end the child. -/
def onProc (f : Proc → Proc) : PreExec Unit := fun p => (.ok (), f p)

/-- `libc::_exit`. -/
def exitChild (code : Int) : PreExec Unit := fun p => (.error (.exit code), p)

/-- `execve(path, args)`, and `_exit(code)` if it returns. -/
def execOrExit (path : Bytes) (args : List Bytes) (code : Int) : PreExec Unit := fun p =>
  if p.env.execve then (.error (.exec path args), p) else (.error (.exit code), p)

/-! ## Descriptors -/

/-- The descriptor `num` is open. -/
def isOpen (fds : List Fd) (num : Int) : Bool := fds.any fun f => f.num = num

/-- `close`. -/
def closeNum (num : Int) (fds : List Fd) : List Fd := fds.filter fun f => f.num ≠ num

/-- `dup2(old, new)`: the copy does not have `FD_CLOEXEC`. -/
def dupNum (old new : Int) (fds : List Fd) : List Fd :=
  -- with equal descriptors nothing is done, and `FD_CLOEXEC` stays
  if isOpen fds old && old ≠ new then ⟨new, false⟩ :: closeNum new fds else fds

/-- `libc::close`. -/
def closeChildFd (num : Int) : PreExec Unit :=
  onProc fun p => { p with fds := closeNum num p.fds }

/-- `libc::dup2`. -/
def dup2 (old new : Int) : PreExec Unit :=
  onProc fun p => if p.env.dup2 new then { p with fds := dupNum old new p.fds } else p

/-- `open("/dev/null")`; -1 on failure. -/
def openNull : PreExec Int := fun p =>
  if 0 ≤ p.env.openNull && !isOpen p.fds p.env.openNull then
    (.ok p.env.openNull, { p with fds := ⟨p.env.openNull, false⟩ :: p.fds })
  else (.ok (-1), p)

/-- `stdin` from `/dev/null`. -/
def redirectStdin : PreExec Unit := do
  let null ← openNull
  if null ≥ 0 then
    dup2 null 0
    if null ≠ 0 then closeChildFd null

/-- `sysconf(_SC_OPEN_MAX)` under this soft limit, which it returns as a `long`: -1 for
    `RLIM_INFINITY`. -/
def sysconfOpenMax (nofile : Nat) : Int := i64 nofile

/-- The bound of the loop in `close_from`. -/
def closeBound (nofile : Nat) : Int :=
  let max := sysconfOpenMax nofile
  -- this includes an unlimited number of descriptors
  let max := if max ≤ 0 then 1024 else max
  if max > 65536 then 65536 else max

/-- `count` turns of the loop in `close_from`. -/
def closeLoop : (count : Nat) → (fd : Int) → List Fd → List Fd
  | 0, _, fds => fds
  | count + 1, fd, fds => closeLoop count (fd + 1) (closeNum fd fds)

/-- `close_from(min)`: up to the soft limit for open files, but never beyond 65536. -/
def closeFrom (min : Int) : PreExec Unit :=
  onProc fun p => { p with fds := closeLoop (closeBound (p.limit .nofile) - min).toNat min p.fds }

/-! ## security.rs -/

/-- The file in the service directory that holds a limit. -/
def rlimitFile : Rlimit → String
  | .cpu => "/rlimit_cpu"
  | .as => "/rlimit_as"
  | .nofile => "/rlimit_nofile"
  | .fsize => "/rlimit_fsize"
  | .nproc => "/rlimit_nproc"
  | .core => "/rlimit_core"

/-- The digits at the start of a limit file. -/
def parseRlimit (data : Bytes) : Option Nat :=
  if (data.head?.map isDigit).getD false then some (leadingDigits data 0) else none

/-- `read_file_to_buf` in a child; `none` also stands for an empty file. -/
def ChildEnv.readFile (env : ChildEnv) (path : Bytes) (n : Nat) : Option Bytes :=
  match (env.read path).map (List.take n) with
  | some (c :: rest) => some (c :: rest)
  | _ => none

/-- `read_rlimit_value`: the first 32 bytes of the file are looked at. -/
def readRlimitValue (env : ChildEnv) (s : Service) (r : Rlimit) : Option Nat :=
  (env.readFile (joinPath s.dir (rlimitFile r)) 32).bind parseRlimit

/-- `i32` saturation of a number that is not negative. -/
def saturateI32 (n : Nat) : Nat := min n 2147483647

/-- The leading digits, with `i32` saturation. -/
def niceDigits : Bytes → Nat → Nat
  | [], n => n
  | c :: rest, n =>
    if isDigit c then niceDigits rest (saturateI32 (saturateI32 (n * 10) + (c - 48).toNat))
    else n

/-- What `read_nice_value` makes of the content: a sign and the digits after it, up to the first
    other byte. -/
def parseNice (data : Bytes) : Option Int :=
  let (sign, digits) : Int × Bytes := match data with
    | 45 :: rest => (-1, rest)
    | _ => (1, data)
  if (digits.head?.map isDigit).getD false then some (sign * niceDigits digits 0) else none

/-- `read_nice_value`. -/
def readNiceValue (env : ChildEnv) (s : Service) : Option Int :=
  (env.readFile (joinPath s.dir "/nice") 16).bind parseNice

/-- The macro `set_rlimit!`. -/
def setRlimit (s : Service) (r : Rlimit) : PreExec Unit := onProc fun p =>
  match readRlimitValue p.env s r with
  | none => p
  | some val =>
    if p.env.setrlimit r then { p with limit := fun q => if q = r then val else p.limit q } else p

/-- `libc::nice`, when the file holds a value; its failure is ignored. -/
def applyNice (s : Service) : PreExec Unit := onProc fun p =>
  match readNiceValue p.env s with
  | none => p
  | some n => if p.env.nice then { p with niceness := p.niceness + n } else p

/-- `apply_security_restrictions`: the limits in the order of the source, then `nice`. -/
def applySecurityRestrictions (s : Service) : PreExec Unit := do
  setRlimit s .cpu
  setRlimit s .as
  setRlimit s .nofile
  setRlimit s .fsize
  setRlimit s .nproc
  setRlimit s .core
  applyNice s

/-! ## Root directory and credentials -/

/-- `chroot` to the service directory, if asked for. The results of the two `chdir`s are
    not looked at. -/
def enterRoot (s : Service) : PreExec Unit := fun p =>
  if s.chrootEnabled && !p.env.chroot then exitChild 126 p else (.ok (), p)

/-- `(uid_t) -1`, which no call accepts. -/
def noId : UInt32 := 4294967295

/-- The ids after `setuid(uid)`: all three for a privileged process. -/
def Creds.setuid (c : Creds) (uid : UInt32) : Creds :=
  -- the system refuses the call
  if uid = noId then c
  else if c.euid = 0 then { c with ruid := uid, euid := uid, suid := uid }
  else if uid = c.ruid || uid = c.suid then { c with euid := uid }
  else c

/-- The ids after `setgid(gid)`. -/
def Creds.setgid (c : Creds) (gid : UInt32) : Creds :=
  if gid = noId then c
  else if c.euid = 0 then { c with rgid := gid, egid := gid, sgid := gid }
  else if gid = c.rgid || gid = c.sgid then { c with egid := gid }
  else c

/-- The supplementary groups after `setgroups(1, [gid])`. -/
def Creds.setgroups (c : Creds) (gid : UInt32) : Creds :=
  if c.euid = 0 then { c with groups := [gid] } else c

/-- `libc::setgid`; the caller does not look at the result. -/
def setgid (gid : UInt32) : PreExec Unit :=
  onProc fun p => if p.env.setgid then { p with creds := p.creds.setgid gid } else p

/-- `libc::setgroups(1, &gid)`. -/
def setgroups (gid : UInt32) : PreExec Unit :=
  onProc fun p => if p.env.setgroups then { p with creds := p.creds.setgroups gid } else p

/-- `libc::setuid`. -/
def setuid (uid : UInt32) : PreExec Unit :=
  onProc fun p => if p.env.setuid then { p with creds := p.creds.setuid uid } else p

/-- `if getuid() != uid { _exit(125) }`. -/
def checkUid (uid : UInt32) : PreExec Unit := fun p =>
  if p.creds.ruid ≠ uid then exitChild 125 p else (.ok (), p)

/-- `setgid` and `setgroups`, if there is a group. -/
def setGroup (gid : UInt32) : PreExec Unit := do
  if gid ≠ 0 then
    setgid gid
    setgroups gid

/-- The block that `start_service`, `run_finish` and `check` share. Only the result of
    `getuid` is looked at. -/
def dropPrivileges (s : Service) : PreExec Unit := do
  if s.hasUid then
    setGroup s.gid
    setuid s.uid
    checkUid s.uid

/-- The path for `execve`: relative to the new root, or in the service directory. -/
def programPath (s : Service) (suffix : String) : Bytes :=
  if s.chrootEnabled then bytesOf suffix else joinPath s.dir suffix

/-! ## The four children -/

/-- The child that becomes `log/run`. -/
def loggerChild (s : Service) (pipeRead pipeWrite : Int) : PreExec Unit := do
  dup2 pipeRead 0
  closeChildFd pipeRead
  closeChildFd pipeWrite
  -- before the limits are set
  closeFrom 3
  applySecurityRestrictions s
  enterRoot s
  execOrExit (programPath s "/log/run") [programPath s "/log/run"] 126

/-- `stdout` and `stderr` of the main process. -/
def redirectOutput (s : Service) (fds : StartFds) : PreExec Unit := do
  if s.hasLog then
    dup2 fds.out0 1
    dup2 fds.out0 2
    closeChildFd fds.out0
  else
    dup2 fds.out1 1
    dup2 fds.err1 2
    closeChildFd fds.out0
    closeChildFd fds.err0
    closeChildFd fds.out1
    closeChildFd fds.err1

/-- The child that becomes `run`. -/
def mainChild (s : Service) (fds : StartFds) : PreExec Unit := do
  applySecurityRestrictions s
  enterRoot s
  dropPrivileges s
  redirectStdin
  redirectOutput s fds
  -- under the new limit for open files
  closeFrom 3
  execOrExit (programPath s "/run") [programPath s "/run"] 127

/-- `format_i64_buf`: at most 19 bytes of the decimal text. -/
def formatI64Buf (v : Int) : Bytes := (CStrBuf.new.pushI64 v).bytes.take 19

/-- The child that becomes `finish`. -/
def finishChild (s : Service) : PreExec Unit := do
  applySecurityRestrictions s
  enterRoot s
  dropPrivileges s
  execOrExit (programPath s "/finish")
    [programPath s "/finish", formatI64Buf s.exitCode, formatI64Buf s.termSignal] 127

/-- The child that becomes `check`. -/
def checkChild (s : Service) : PreExec Unit := do
  applySecurityRestrictions s
  enterRoot s
  dropPrivileges s
  execOrExit (programPath s "/check") [programPath s "/check"] 126

/-- The kinds of children, with the descriptors that `start_service` hands to them. -/
inductive ChildKind where
  | run (fds : StartFds)
  | logRun (pipeRead pipeWrite : Int)
  | finish
  | check

/-- What each kind of child does between `fork` and the end of its code. -/
def child (s : Service) : ChildKind → PreExec Unit
  | .run fds => mainChild s fds
  | .logRun pipeRead pipeWrite => loggerChild s pipeRead pipeWrite
  | .finish => finishChild s
  | .check => checkChild s

/-- The descriptor table of the supervisor, which a child starts with. -/
def Kernel.fdTable (k : Kernel) : List Fd :=
  k.fds.map fun fd => ⟨fd, !k.inheritable.contains fd⟩

end SvcRs
