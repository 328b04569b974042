import SvcRs.Native.Kernel

/-!
# User, group, environment and chroot of a service

`user.rs`. These functions read the service directory and fill the credential and
environment fields of a record; they never touch its life-cycle fields.
-/

namespace SvcRs

/-- A newline or a carriage return. -/
def isNewline (c : UInt8) : Bool := c = 10 || c = 13

/-- A blank or a tab. -/
def isBlank (c : UInt8) : Bool := c = 32 || c = 9

/-- An ASCII digit. -/
def isDigit (c : UInt8) : Bool := 48 ≤ c && c ≤ 57

/-- Cut the bytes that satisfy `p` off the end. -/
def trimEnd (p : UInt8 → Bool) (b : Bytes) : Bytes := (b.reverse.dropWhile p).reverse

/-- `u32` saturation. -/
def saturateU32 (n : Nat) : Nat := min n 4294967295

/-- What `saturating_mul` and `saturating_add` make of a value that does not fit. -/
def saturateU64 (n : Nat) : Nat := min n 18446744073709551615

/-- The leading digits, with `u64` saturation. -/
def leadingDigits : Bytes → Nat → Nat
  | [], n => n
  | c :: rest, n =>
    if isDigit c then leadingDigits rest (saturateU64 (saturateU64 (n * 10) + (c - 48).toNat))
    else n

/-! ## Users and groups -/

/-- The trimming and validation that `resolve_uid` and `resolve_gid` share: the
    name to look up, or `none`. -/
def cleanName (name : Bytes) : Option Bytes :=
  -- `\n`, `\r`, blanks and NULs at the end
  let clean := trimEnd (fun c => isNewline c || c = 32 || c = 0) name
  if clean.length = 0 ∨ clean.length ≥ nameBuf then none
  else if clean.contains 0 then none
  else some clean

/-- `resolve_uid`: by the user database. -/
def resolveUid (name : Bytes) : Sys (Option UInt32) :=
  match cleanName name with
  | none => return none
  | some clean => getpwnam clean

/-- `resolve_gid`: by the group database. -/
def resolveGid (name : Bytes) : Sys (Option UInt32) :=
  match cleanName name with
  | none => return none
  | some clean => getgrnam clean

/-- The digits of a `u32`, with saturating arithmetic; `none` at the first other byte. -/
def parseDigits : Bytes → Nat → Option Nat
  | [], val => some val
  | c :: rest, val =>
    if isDigit c then
      parseDigits rest (saturateU32 (saturateU32 (val * 10) + (c - 48).toNat))
    -- a suffix makes the text a name
    else none

/-- The branch for a number: leading digits, as a `u32`. -/
def parseNumericOrName (data : Bytes) : Option UInt32 :=
  let data := trimEnd (fun c => isNewline c || c = 32) data
  if data.length = 0 then none else (parseDigits data 0).map UInt32.ofNat

/-- One half of `parse_user_group`: the number in the file, else the id of the name in it. -/
def parseIdFile (path : Bytes) (resolve : Bytes → Sys (Option UInt32)) :
    Sys (Option UInt32) := do
  match ← readFileToBuf path nameBuf with
  | none => return none
  | some [] => return none
  | some data =>
    match parseNumericOrName data with
    | some id => return some id
    | none => resolve data

/-- `parse_user_group`: `user` and `group`; a file without a valid id leaves the default. -/
def parseUserGroup (s : Service) : Sys Service := do
  -- an id from before does not survive
  let s := { s with uid := 0, gid := 0, hasUid := false }
  let uid ← parseIdFile (joinPath s.dir "/user") resolveUid
  let s := match uid with
    | some uid => { s with uid, hasUid := true }
    | none => s
  let gid ← parseIdFile (joinPath s.dir "/group") resolveGid
  return match gid with
    | some gid => { s with gid }
    | none => s

/-! ## Environment -/

/-- Overwrite `buf` from `pos` on. -/
def writeAt (buf : Bytes) (pos : Nat) (b : Bytes) : Bytes :=
  buf.take pos ++ b ++ buf.drop (pos + b.length)

/-- Store one stripped line, if it is an assignment with a non-empty key and there
    is room for it and its NUL. Returns the next free position of the buffer. -/
def storeEnvLine (line : Bytes) (envPos : Nat) (env : EnvBlock) : Nat × EnvBlock :=
  let eq := line.findIdx (· = 61)
  if 0 < line.length ∧ line.head? ≠ some 35 ∧ 0 < eq ∧ eq < line.length then
    -- a line that does not fit is left out, and shorter ones may follow
    if envPos + line.length + 1 ≤ envBuf then
      (envPos + line.length + 1,
        { buf := writeAt env.buf envPos (line ++ [0])
          ptrs := env.ptrs.set env.count (some envPos)
          count := env.count + 1 })
    else (envPos, env)
  else (envPos, env)

/-- The line loop of `read_env`. Every line consumes at least one byte, so
    `data.length` is enough fuel. -/
def readEnvLoop : (fuel : Nat) → (data : Bytes) → (envPos : Nat) → EnvBlock → EnvBlock
  | 0, _, _, env => env
  | fuel + 1, data, envPos, env =>
    if data.length = 0 ∨ env.count ≥ maxEnvVars then env
    else
      let line := data.takeWhile fun c => !isNewline c
      let stripped := trimEnd isBlank (line.dropWhile isBlank)
      let (envPos, env) := storeEnvLine stripped envPos env
      readEnvLoop fuel ((data.drop (line.length + 1)).dropWhile isNewline) envPos env

/-- `read_env`: the environment file, with the limits on its size and on the number of variables. -/
def readEnv (s : Service) : Sys Service := do
  match ← readFileToBuf (joinPath s.dir "/env") envBuf with
  | none | some [] =>
    -- the buffer keeps what it held, and the list ends at once
    return { s with env := { s.env with count := 0, ptrs := s.env.ptrs.set 0 none } }
  | some data =>
    let env := readEnvLoop data.length data 0 { s.env with count := 0 }
    return { s with env := { env with ptrs := env.ptrs.set env.count none } }

/-- `check_chroot`: the directory `root` exists. -/
def checkChroot (s : Service) : Sys Bool := access (joinPath s.dir "/root") .exists

/-- `prepare_service_env`. -/
def prepareServiceEnv (s : Service) : Sys Service := do
  let s ← readEnv s
  let chrootEnabled ← checkChroot s
  return { s with chrootEnabled }

end SvcRs
