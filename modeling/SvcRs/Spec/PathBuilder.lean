import SvcRs.ForStd.Decimal
import SvcRs.ForStd.List
import SvcRs.Native.Scan

/-!
# What the path builder holds

A `CStrBuf` holds everything that was pushed, except for NULs, up to `PATH_BUF - 1` bytes.

## Key results

- `CStrBuf.push_bytes`: what is cut off
- `CStrBuf.push_fits`, `joinPath_fits`, `serviceDir_fits`: when nothing is
- `CStrBuf.Holds`: a text that is put together piece by piece
-/

namespace SvcRs

/-- The bytes of a path without the NULs that `CStrBuf` skips. -/
def withoutNul (b : Bytes) : Bytes := b.filter (· ≠ 0)

namespace CStrBuf

/-- One byte, if there is room. -/
theorem pushByte_bytes (p : CStrBuf) (c : UInt8) :
    (p.pushByte c).bytes = (p.bytes ++ withoutNul [c]).take (pathBuf - 1) := by
  have hfits := p.fits
  simp only [pathBuf] at hfits ⊢
  unfold pushByte withoutNul
  split
  · next hc =>
    -- a NUL is left out, and a full buffer cut at its end is itself
    have hfull : p.bytes.take 1023 = p.bytes := List.take_of_length_le (by omega)
    simp [hc, hfull]
  · next hc =>
    have hkeep : List.filter (fun x : UInt8 => decide (x ≠ 0)) [c] = [c] := by simp [hc]
    rw [hkeep]
    split
    -- there is room for the byte and the NUL behind it
    · next hlen =>
      have hlen : p.bytes.length + 1 < 1024 := hlen
      have hshort : (p.bytes ++ [c]).length ≤ 1023 := by
        rw [List.length_append, List.length_singleton]
        omega
      exact (List.take_of_length_le hshort).symm
    -- the buffer is full: cutting drops the byte again
    · next hlen =>
      have hlen : ¬p.bytes.length + 1 < 1024 := hlen
      rw [List.take_append_of_le_length (by omega)]
      exact (List.take_of_length_le (by omega)).symm

/-- What does not fit is cut off. -/
theorem push_bytes (p : CStrBuf) (b : Bytes) :
    (p.push b).bytes = (p.bytes ++ withoutNul b).take (pathBuf - 1) := by
  induction b generalizing p with
  | nil =>
    have hfits := p.fits
    have hall : p.bytes.length ≤ pathBuf - 1 := by omega
    simp only [withoutNul, List.filter_nil, List.append_nil]
    exact (List.take_of_length_le hall).symm
  | cons c b ih =>
    -- the bytes are pushed one by one, and each NUL is dropped
    have hsplit : withoutNul (c :: b) = withoutNul [c] ++ withoutNul b := by
      unfold withoutNul
      rw [← List.filter_append]
      rfl
    have hpush : p.push (c :: b) = (p.pushByte c).push b := rfl
    rw [hpush, ih, pushByte_bytes, List.take_take_append, List.append_assoc, hsplit]

end CStrBuf

/-- A path is cut at the size of the buffer. -/
theorem joinPath_eq (dir : Bytes) (suffix : String) :
    joinPath dir suffix = (withoutNul dir ++ withoutNul (bytesOf suffix)).take (pathBuf - 1) := by
  unfold joinPath CStrBuf.fromBytes
  rw [CStrBuf.push_bytes, CStrBuf.push_bytes, List.take_take_append]
  rfl

/-- Dropping the NULs again changes nothing. -/
theorem withoutNul_take (b b' : Bytes) (n : Nat) :
    withoutNul ((withoutNul b ++ withoutNul b').take n) = (withoutNul b ++ withoutNul b').take n := by
  apply List.filter_eq_self.mpr
  intro c hc
  cases List.mem_append.mp (List.mem_of_mem_take hc) with
  | inl hc => exact (List.mem_filter.mp hc).2
  | inr hc => exact (List.mem_filter.mp hc).2

namespace CStrBuf

/-- What fits is not cut. -/
theorem push_fits {p : CStrBuf} {b : Bytes} (h : (p.bytes ++ withoutNul b).length ≤ pathBuf - 1) :
    (p.push b).bytes = p.bytes ++ withoutNul b :=
  (push_bytes p b).trans (List.take_of_length_le h)

end CStrBuf

/-- A text without NULs stays. -/
theorem withoutNul_eq_self {b : Bytes} (h : 0 ∉ b) : withoutNul b = b := by
  apply List.filter_eq_self.mpr
  intro c hc
  have hne : c ≠ 0 := fun he => h (he ▸ hc)
  simpa using hne

/-- A path that fits is not cut. -/
theorem joinPath_fits {dir : Bytes} {suffix : String} (hdir : 0 ∉ dir) (hsuffix : 0 ∉ bytesOf suffix)
    (h : (dir ++ bytesOf suffix).length ≤ pathBuf - 1) :
    joinPath dir suffix = dir ++ bytesOf suffix := by
  rw [joinPath_eq, withoutNul_eq_self hdir, withoutNul_eq_self hsuffix]
  exact List.take_of_length_le h

/-- Nor is the directory of a service. -/
theorem serviceDir_fits {root : CStrBuf} {name : Bytes} (hname : 0 ∉ name)
    (h : (root.bytes ++ bytesOf "/" ++ name).length ≤ pathBuf - 1) :
    (serviceDir root name).bytes = root.bytes ++ bytesOf "/" ++ name := by
  have hslash : withoutNul (bytesOf "/") = bytesOf "/" := by decide
  -- the root fits, as it is shorter than the whole
  have hroot : ((CStrBuf.fromBytes root.bytes).lit "/").bytes = root.bytes ++ bytesOf "/" := by
    have hjoin : ((CStrBuf.fromBytes root.bytes).lit "/").bytes = joinPath root.bytes "/" := rfl
    rw [hjoin]
    apply joinPath_fits root.noNul (by decide)
    rw [List.length_append] at h
    omega
  unfold serviceDir
  have hbytes := withoutNul_eq_self hname
  rw [CStrBuf.push_fits, hroot, hbytes]
  rw [hroot, hbytes]
  exact h

/-! ## Numbers -/

/-- The digits that `push_u64` stores. -/
theorem digitsRev_eq {fuel v : Nat} (hv : 0 < v) (hfuel : v < 10 ^ fuel) :
    (CStrBuf.digitsRev fuel v).reverse = Decimal.ofNat v := by
  -- by induction on the fuel, which counts the digits
  induction fuel generalizing v with
  | zero => omega
  | succ fuel ih =>
    have hcons : CStrBuf.digitsRev (fuel + 1) v =
        Decimal.digit (v % 10) :: CStrBuf.digitsRev fuel (v / 10) := if_neg (by omega)
    rw [hcons, List.reverse_cons]
    -- a single digit is left, or the last digit is split off
    by_cases hten : v < 10
    · have hzero : v / 10 = 0 := by omega
      have hnone : CStrBuf.digitsRev fuel 0 = [] := by
        cases fuel with
        | zero => rfl
        | succ fuel => rfl
      rw [hzero, hnone, Decimal.ofNat_digit hten, Nat.mod_eq_of_lt hten]
      rfl
    · have hless : v / 10 < 10 ^ fuel := Nat.div_lt_of_lt_mul (Nat.pow_succ' ▸ hfuel)
      have hlast := Decimal.ofNat_snoc (n := v) (by omega)
      rw [ih (by omega) hless, hlast]

namespace CStrBuf

/-- The digits of an unsigned number. -/
theorem pushU64_eq (p : CStrBuf) {v : Nat} (hv : v < 10 ^ 20) :
    p.pushU64 v = p.push (Decimal.ofNat v) := by
  unfold pushU64
  split
  · next hzero =>
    rw [hzero]
    rfl
  · next hpos => rw [digitsRev_eq (by omega) hv]

/-- The digits of a number, behind its sign. -/
theorem pushI64_eq (p : CStrBuf) {v : Int} (hv : v.natAbs < 10 ^ 20) :
    p.pushI64 v = p.push (Decimal.ofInt v) := by
  unfold pushI64 Decimal.ofInt
  split
  · have habs : (-v).toNat = v.natAbs := by omega
    rw [habs, pushU64_eq _ hv]
    rfl
  · have habs : v.toNat = v.natAbs := by omega
    rw [habs, pushU64_eq _ hv]

/-! ## Texts -/

/-- `p` holds as much of `b` as fits. -/
def Holds (p : CStrBuf) (b : Bytes) : Prop := p.bytes = (withoutNul b).take (pathBuf - 1)

namespace Holds

variable {p : CStrBuf} {b : Bytes}

/-- An empty buffer. -/
theorem new : CStrBuf.new.Holds [] := rfl

/-- More text. -/
theorem push (h : p.Holds b) (c : Bytes) : (p.push c).Holds (b ++ c) := by
  unfold Holds at h ⊢
  rw [push_bytes, h, List.take_take_append]
  unfold withoutNul
  rw [List.filter_append]

/-- A literal. -/
theorem lit (h : p.Holds b) (s : String) : (p.lit s).Holds (b ++ bytesOf s) := h.push (bytesOf s)

/-- A byte. -/
theorem pushByte (h : p.Holds b) (c : UInt8) : (p.pushByte c).Holds (b ++ [c]) := h.push [c]

/-- An unsigned number. -/
theorem pushU64 (h : p.Holds b) {v : Nat} (hv : v < 10 ^ 20) :
    (p.pushU64 v).Holds (b ++ Decimal.ofNat v) := by
  rw [pushU64_eq p hv]
  exact h.push _

/-- A signed number. -/
theorem pushI64 (h : p.Holds b) {v : Int} (hv : v.natAbs < 10 ^ 20) :
    (p.pushI64 v).Holds (b ++ Decimal.ofInt v) := by
  rw [pushI64_eq p hv]
  exact h.push _

/-- Nothing is cut. -/
theorem full (h : p.Holds b) (hlen : b.length ≤ pathBuf - 1) : p.bytes = withoutNul b := by
  have hle : (withoutNul b).length ≤ b.length := List.length_filter_le _ b
  exact h.trans (List.take_of_length_le (Nat.le_trans hle hlen))

end Holds

end CStrBuf

end SvcRs
