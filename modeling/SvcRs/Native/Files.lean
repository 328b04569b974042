import SvcRs.ForStd.Handles
import SvcRs.Native.Child

/-!
# What descriptors refer to

`Native/Child.lean` says which descriptors are open in a child. Here the same calls act on a table
that also says on what: a pipe, a file, or something that was open when the main loop started. A
pipe or a file is named by the number of events before it, so that a descriptor that is closed
and opened again is not taken for the old one.
-/

namespace SvcRs

/-- What a descriptor of the supervisor stands for. -/
inductive OpenFile where
  /-- Open when the main loop starts. -/
  | atStart (fd : Int)
  | readEnd (pipe : Nat)
  | writeEnd (pipe : Nat)
  | file (path : Bytes) (opening : Nat)
  /-- `/dev/null` in a child. -/
  | null
  deriving DecidableEq, Repr

/-- The descriptor table, with the open file behind each descriptor. -/
abbrev Files := Handles.Table Int OpenFile

/-! ## The supervisor -/

/-- The table after the event, which is number `n`. -/
def Event.onFiles (n : Nat) : Event → Files → Files
  | .piped readFd writeFd, t => (t.install readFd (.readEnd n)).install writeFd (.writeEnd n)
  | .opened path _ fd, t => t.install fd (.file path n)
  | .closed fd, t => t.close fd
  | _, t => t

/-- The table after a trace, when `base` is open in the beginning. -/
def filesAfter (base : List Int) : List Event → Files
  | [] => fun fd => if fd ∈ base then some (.atStart fd) else none
  | e :: older => e.onFiles older.length (filesAfter base older)

/-! ## The start of a service up to its forks -/

/-- The pipe of a logger, unless there is none to be forked. -/
def loggerPipe (s : Service) : Sys (Option (Int × Int)) := do
  if !s.hasLog then return none
  if !(← access (joinPath s.dir "/log/run") .exec) then return none
  newPipe

/-- `start_service` up to the fork of the logger. -/
def beforeLogger (s : Service) : Sys (Service × Option (Int × Int)) := do
  let s ← prepareServiceEnv s
  let s ← closeReadEnds s
  return (s, ← loggerPipe s)

/-- `start_service` up to the fork of the main process, with the descriptors that are handed to
    the child. -/
def beforeMain (slot : Nat) (s : Service) : Sys (Service × Option StartFds) := do
  let s ← prepareServiceEnv s
  let s ← closeReadEnds s
  let (s, out0) ← startLogger slot s
  if s.hasLog then return (s, some { out0 })
  return (s, ← openPipes)

/-! ## Children -/

/-- `redirectStdin` -/
def stdinFiles (env : ChildEnv) (t : Files) : Files :=
  if 0 ≤ env.openNull && !(t env.openNull).isSome then
    let t := t.install env.openNull .null
    let t := if env.dup2 0 then t.dup env.openNull 0 else t
    if env.openNull ≠ 0 then t.close env.openNull else t
  else t

/-- `redirectOutput` -/
def outputFiles (s : Service) (fds : StartFds) (env : ChildEnv) (t : Files) : Files :=
  if s.hasLog then
    let t := if env.dup2 1 then t.dup fds.out0 1 else t
    let t := if env.dup2 2 then t.dup fds.out0 2 else t
    t.close fds.out0
  else
    let t := if env.dup2 1 then t.dup fds.out1 1 else t
    let t := if env.dup2 2 then t.dup fds.err1 2 else t
    (((t.close fds.out0).close fds.err0).close fds.out1).close fds.err1

/-- `closeFrom` under this limit. -/
def closeFromFiles (min : Int) (nofile : Nat) (t : Files) : Files :=
  t.restrict fun fd => ¬(min ≤ fd ∧ fd < closeBound nofile)

/-- The child that becomes `log/run`. -/
def loggerFiles (pipeRead pipeWrite : Int) (env : ChildEnv) (nofile : Nat) (t : Files) : Files :=
  let t := if env.dup2 0 then t.dup pipeRead 0 else t
  closeFromFiles 3 nofile ((t.close pipeRead).close pipeWrite)

/-- The child that becomes `run`. -/
def mainFiles (s : Service) (fds : StartFds) (env : ChildEnv) (nofile : Nat) (t : Files) : Files :=
  closeFromFiles 3 nofile (outputFiles s fds env (stdinFiles env t))

end SvcRs
