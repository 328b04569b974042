import SvcRs.Native.Path

/-!
# The path builder, byte by byte

`CStrBuf` of `path.rs` as it lies in memory: an array of `PATH_BUF` bytes and a length. Its
`Guarantees` are fields. `CStrBuf` in `Native/Path` is the same buffer seen through its contents.

`none` is a panic (an index outside the array).
-/

namespace SvcRs

/-- `CStrBuf`, with the whole array. -/
structure CBuffer where
  buf : Vector UInt8 pathBuf
  len : Nat
  room : len < pathBuf
  terminated : buf[len] = 0
  noNul : ∀ i (_ : i < len), buf[i] ≠ 0

namespace CBuffer

/-- `CStrBuf::new`: all zeros, which is an empty string. -/
def new : CBuffer :=
  ⟨Vector.replicate pathBuf 0, 0, by decide, Vector.getElem_replicate _, by
    intro i hi
    omega⟩

/-- `as_bytes`. -/
def asBytes (s : CBuffer) : Bytes := s.buf.toList.take s.len

/-- `as_cstr`, with the terminator. -/
def asCstr (s : CBuffer) : Bytes := s.buf.toList.take (s.len + 1)

/-- `push_byte`: a NUL, and a byte for which there is no room, are dropped. -/
def pushByte (s : CBuffer) (c : UInt8) : CBuffer :=
  if hc : c = 0 then s
  else if hlen : s.len + 1 < pathBuf then
    { buf := (s.buf.set s.len c s.room).set (s.len + 1) 0 hlen
      len := s.len + 1
      room := hlen
      terminated := Vector.getElem_set_self hlen
      -- the two bytes written last are the new one and the NUL
      noNul := by
        intro i hi
        rw [Vector.getElem_set_ne hlen (by omega) (by omega), Vector.getElem_set]
        split
        · exact hc
        · exact s.noNul i (by omega) }
  else s

/-- `push`: byte by byte, so what does not fit is cut off. -/
def push (s : CBuffer) (b : Bytes) : CBuffer := b.foldl pushByte s

/-- The first loop of `push_u64`: the digits of `v` go to `tmp`, the last one first. -/
def storeDigits (tmp : Vector UInt8 20) (n : Nat) (v : UInt64) : Option (Vector UInt8 20 × Nat) :=
  if v = 0 then some (tmp, n)
  else if h : n < 20 then storeDigits (tmp.set n (48 + (v % 10).toUInt8) h) (n + 1) (v / 10)
  else none
termination_by 20 - n

/-- The second loop: the `n` bytes of `tmp` from the last one down. -/
def pushDigits (s : CBuffer) (tmp : Vector UInt8 20) : (n : Nat) → Option CBuffer
  | 0 => some s
  | n + 1 => if h : n < 20 then pushDigits (s.pushByte tmp[n]) tmp n else none

/-- `push_u64`: the digits go into `tmp` lowest first, and are pushed from its end. `none` is the
    panic of an index that is out of bounds. -/
def pushU64 (s : CBuffer) (v : UInt64) : Option CBuffer :=
  if v = 0 then some (s.pushByte 48)
  else do
    let (tmp, n) ← storeDigits (Vector.replicate 20 0) 0 v
    pushDigits s tmp n

/-- `push_i64`: `i64::MIN` has no negation and is written out. -/
def pushI64 (s : CBuffer) (v : Int64) : Option CBuffer :=
  if v < 0 then
    let s := s.pushByte 45
    if v = Int64.minValue then s.pushU64 9223372036854775808
    else s.pushU64 (-v).toUInt64
  else s.pushU64 v.toUInt64

end CBuffer

/-- `buf[..b.len()].copy_from_slice(b)`, for a `b` that is not longer than `buf`. -/
def copyFromSlice (buf : Vector UInt8 20) (b : Bytes) : Vector UInt8 20 :=
  Vector.ofFn fun i => if h : i.val < b.length then b[i.val] else buf[i]

/-- `format_i64_buf` with the array that it returns. -/
def formatI64Array (v : Int64) : Option (Vector UInt8 20) := do
  let p ← CBuffer.new.pushI64 v
  let b := p.asBytes
  let n := min b.length 19
  return (copyFromSlice (Vector.replicate 20 0) (b.take n)).set n 0 (by omega)

end SvcRs
