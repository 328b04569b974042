/-!
# Constants and the path builder

`consts.rs` and `path.rs`. Byte strings are lists of bytes; `bytesOf` turns the
literals of the source into them. `CStrBuf` carries the two guarantees that its
documentation promises (room for the terminator, no interior NUL) as fields, so
every path that reaches a system call has them by construction.
-/

namespace SvcRs

/-- A byte string of the source (`&[u8]`). -/
abbrev Bytes := List UInt8

/-- A byte-string literal of the source (`b"..."`). -/
def bytesOf (s : String) : Bytes := s.toList.map fun c => c.toNat.toUInt8

/-! ## consts.rs -/

/-- `MAX_SERVICES` -/
def maxServices : Nat := 256

/-- `PATH_BUF` -/
def pathBuf : Nat := 1024

/-- `NAME_BUF` -/
def nameBuf : Nat := 64

/-- `IO_BUF` -/
def ioBuf : Nat := 4096

/-- `CMD_BUF` -/
def cmdBuf : Nat := 512

/-- `RESP_BUF` -/
def respBuf : Nat := 8192

/-- `ENV_BUF` -/
def envBuf : Nat := 4096

/-- `MAX_ENV_VARS` -/
def maxEnvVars : Nat := 64

/-- `MAX_DEPENDENCIES` -/
def maxDependencies : Nat := 16

/-- `DEP_FILE_BUF` -/
def depFileBuf : Nat := 512

/-- `LOG_LIMIT` -/
def logLimit : Int := 1048576

/-- `SHUTDOWN_TIMEOUT_S` -/
def shutdownTimeoutS : Int := 5

/-- `RESTART_WINDOW_S` -/
def restartWindowS : Int := 60

/-- `MAX_RESTARTS_IN_WINDOW` -/
def maxRestartsInWindow : UInt32 := 5

/-- `BACKOFF_SHORT` -/
def backoffShort : Int := 2

/-- `BACKOFF_MED` -/
def backoffMed : Int := 10

/-- `BACKOFF_LONG` -/
def backoffLong : Int := 60

/-- `i64::MAX`, the value of `restart_at` that means "not until an operator asks". -/
def i64Max : Int := 9223372036854775807

/-- The result of an `i64` operation: two's-complement wrap-around, as the release
    profile (`overflow-checks = false`) computes it. -/
def i64 (x : Int) : Int := (x + 9223372036854775808) % 18446744073709551616 - 9223372036854775808

/-- `i64` arithmetic is exact on results that fit. -/
theorem i64_eq_self {x : Int} (hlo : -9223372036854775808 ≤ x) (hhi : x ≤ i64Max) :
    i64 x = x := by
  simp only [i64, i64Max] at *
  omega

/-! ## path.rs -/

/-- `CStrBuf`: a NUL-terminated buffer of `PATH_BUF` bytes, seen through its contents. -/
@[ext]
structure CStrBuf where
  bytes : Bytes
  fits : bytes.length + 1 ≤ pathBuf
  noNul : (0 : UInt8) ∉ bytes

namespace CStrBuf

/-- `CStrBuf::new`. -/
def new : CStrBuf := ⟨[], by decide, by simp⟩

/-- NULs are skipped; a byte that would leave no room for the terminator is dropped. -/
def pushByte (p : CStrBuf) (c : UInt8) : CStrBuf :=
  if hc : c = 0 then p
  else if hlen : p.bytes.length + 1 < pathBuf then
    ⟨p.bytes ++ [c], by simp only [List.length_append, List.length_singleton]; omega, by
      simp only [List.mem_append, List.mem_singleton, not_or]
      exact ⟨p.noNul, fun h => hc h.symm⟩⟩
  else p

/-- `push`: byte by byte, so what does not fit is cut off. -/
def push (p : CStrBuf) (b : Bytes) : CStrBuf := b.foldl pushByte p

/-- `CStrBuf::from_bytes`. -/
def fromBytes (b : Bytes) : CStrBuf := new.push b

/-- The digits that `push_u64` stores in `tmp`, least significant first. The buffer
    has room for the 20 digits of `u64::MAX`, which `fuel` mirrors. -/
def digitsRev : (fuel : Nat) → Nat → Bytes
  | 0, _ => []
  | fuel + 1, v => if v = 0 then [] else (48 + v % 10).toUInt8 :: digitsRev fuel (v / 10)

/-- `push_u64`. -/
def pushU64 (p : CStrBuf) (v : Nat) : CStrBuf :=
  if v = 0 then p.pushByte 48 else p.push (digitsRev 20 v).reverse

/-- The source treats `i64::MIN` apart because `-v` overflows there; on `Int` the
    two branches for negative values agree. -/
def pushI64 (p : CStrBuf) (v : Int) : CStrBuf :=
  if v < 0 then (p.pushByte 45).pushU64 (-v).toNat else p.pushU64 v.toNat

end CStrBuf

/-- `CStrBuf::from_bytes(dir)` followed by `push(suffix)`: how every path inside a
    service directory is built. -/
def joinPath (dir : Bytes) (suffix : String) : Bytes :=
  ((CStrBuf.fromBytes dir).push (bytesOf suffix)).bytes

end SvcRs
