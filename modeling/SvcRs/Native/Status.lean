import SvcRs.Native.Kernel

/-!
# Status file and replies

`status.rs`. All texts are assembled in a `CStrBuf`, so they are limited to
`PATH_BUF - 1` bytes like a path.
-/

namespace SvcRs

/-- `state_label`. -/
def stateLabel : SvcState → Bytes
  | .running => bytesOf "running"
  | .exited => bytesOf "exited"
  | .signaled => bytesOf "signaled"
  | .failed => bytesOf "failed"
  | .stopping => bytesOf "stopping"
  | .down => bytesOf "down"

/-- How the status text writes a flag. -/
def yesNo (b : Bool) : Bytes := if b then bytesOf "yes" else bytesOf "no"

/-- `t.push(b"...")`. -/
def CStrBuf.lit (p : CStrBuf) (s : String) : CStrBuf := p.push (bytesOf s)

/-- The text that `write_status_file` puts together. -/
def statusText (s : Service) (now : Int) : CStrBuf :=
  let t := (CStrBuf.new.lit "name=").push s.name
  let t := (t.lit "\npid=").pushI64 s.pid
  let t := (t.lit "\nstate=").push (stateLabel s.state)
  let t := (t.lit "\nuptime=").pushI64 (s.uptimeSeconds now)
  let t := (t.lit "\nrestarts=").pushU64 s.restarts.toNat
  let t := (t.lit "\nexit_code=").pushI64 s.exitCode
  let t := (t.lit "\nterm_signal=").pushI64 s.termSignal
  let t := (t.lit "\nlast_wait_status=").pushI64 s.lastStatus
  let t := (t.lit "\nstarted_at_mono=").pushI64 s.startedAt
  let t := (t.lit "\nauto_start=").push (yesNo s.autoStart)
  let t := (t.lit "\nonce=").push (yesNo s.once)
  -- `uid` and `gid` are written for a service with a user only
  let t := if s.hasUid then
      ((t.lit "\nuid=").pushU64 s.uid.toNat |>.lit "\ngid=").pushU64 s.gid.toNat
    else t
  t.lit "\n"

/-- `write_status_file`: the text replaces the old one, if the file can be opened. -/
def writeStatusFile (s : Service) : Sys Unit := do
  let path := joinPath s.dir "/status"
  -- from here on the old text is gone
  let fd ← openFile path .trunc
  if fd < 0 then emit (.status path none)
  else
    let now ← monoNow
    let text := (statusText s now).bytes
    let written ← writeAll fd text
    closeFd fd
    emit (.status path (if written then some text else none))

/-- `name,?name,...` between the brackets of the status line. -/
def pushDeps : List Dependency → (first : Bool) → CStrBuf → CStrBuf
  | [], _, p => p
  | d :: rest, first, p =>
    let p := if first then p else p.pushByte 44
    let p := if d.soft then p.pushByte 63 else p
    pushDeps rest false (p.push d.name)

/-- `format_service_status`, cut to the size of a `CStrBuf`. -/
def formatServiceStatus (s : Service) (now : Int) : Bytes :=
  let p := (CStrBuf.new.push s.name).lit " state="
  let p := (p.push (stateLabel s.state)).lit " pid="
  let p := (p.pushI64 s.pid).lit " uptime="
  let p := (p.pushI64 (s.uptimeSeconds now)).lit " restarts="
  let p := (p.pushU64 s.restarts.toNat).lit " exit_code="
  let p := (p.pushI64 s.exitCode).lit " signal="
  let p := (p.pushI64 s.termSignal).lit " auto="
  let p := (p.push (yesNo s.autoStart)).lit " once="
  let p := p.push (yesNo s.once)
  let p := if s.hasUid then
      ((p.lit " uid=").pushU64 s.uid.toNat |>.lit " gid=").pushU64 s.gid.toNat
    else p
  let p := (pushDeps s.deps true (p.lit " deps=[")).lit "]"
  let p := if s.hasLog then
      let p := ((p.lit " log_pid=").pushI64 s.logPid).lit " log_state="
      let p := p.push (if s.logState = .running then bytesOf "running" else bytesOf "down")
      (p.lit " log_uptime=").pushI64 (s.logUptimeSeconds now)
    -- the reply buffer may be shorter than the line
    else p
  (p.lit "\n").bytes.take respBuf

/-- An answer that begins with `ERROR: `. -/
def formatError (msg : String) : Bytes := (bytesOf "ERROR: " ++ bytesOf msg).take respBuf

/-- An answer that begins with `OK: `. -/
def formatOk (msg : String) : Bytes := (bytesOf "OK: " ++ bytesOf msg).take respBuf

end SvcRs
