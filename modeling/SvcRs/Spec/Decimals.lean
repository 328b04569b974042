import SvcRs.ForStd.List
import SvcRs.Native.Buffer
import SvcRs.Native.Child
import SvcRs.Spec.PathBuilder

/-!
# Decimal numbers in a path buffer

The byte-level buffer refines `CStrBuf`, and its two digit loops write canonical numerals over the
whole range of the machine integers.

## Key results

- `CBuffer.toCStrBuf_push`: the refinement
- `CBuffer.storeDigits_eq`, `CBuffer.pushDigits_eq`: the two loops of `push_u64`
- `CBuffer.pushU64_eq`, `CBuffer.pushI64_eq`: the number's text, and no index out of bounds
- `decimals_exact`: what callers get
-/

namespace SvcRs

namespace CBuffer

/-! ## The contents of the array -/

/-- The content has the recorded length. -/
theorem asBytes_length (s : CBuffer) : s.asBytes.length = s.len := by
  have hroom := s.room
  unfold asBytes
  rw [List.length_take, Vector.length_toList]
  omega

/-- The C string is the content with a NUL after it. -/
theorem asCstr_eq (s : CBuffer) : s.asCstr = s.asBytes ++ [0] := by
  have hlen : s.len < s.buf.toList.length := by
    rw [Vector.length_toList]
    exact s.room
  unfold asCstr asBytes
  rw [List.take_succ_eq_append_getElem hlen, Vector.getElem_toList, s.terminated]

/-- There is no NUL in the content. -/
theorem zero_not_mem_asBytes (s : CBuffer) : 0 ∉ s.asBytes := by
  intro h
  have hroom := s.room
  obtain ⟨i, hi, hget⟩ := List.mem_take_iff_getElem.mp h
  rw [Vector.getElem_toList] at hget
  exact s.noNul i (by omega) hget

/-- The buffer seen through its contents. -/
def toCStrBuf (s : CBuffer) : CStrBuf where
  bytes := s.asBytes
  fits := by
    have hroom := s.room
    rw [s.asBytes_length]
    omega
  noNul := s.zero_not_mem_asBytes

/-- The abstraction keeps the content. -/
@[simp] theorem toCStrBuf_bytes (s : CBuffer) : s.toCStrBuf.bytes = s.asBytes := rfl

/-- A new buffer is empty. -/
@[simp] theorem asBytes_new : new.asBytes = [] := rfl

/-- A byte that is not NUL is appended if there is room. -/
theorem pushByte_asBytes {s : CBuffer} {c : UInt8} (hc : c ≠ 0) (hlen : s.len + 1 < pathBuf) :
    (s.pushByte c).asBytes = s.asBytes ++ [c] := by
  have hroom := s.room
  have hsize : s.len < s.buf.toList.length := by
    rw [Vector.length_toList]
    exact hroom
  unfold pushByte asBytes
  rw [dif_neg hc, dif_pos hlen]
  simp only [Vector.toList_set]
  -- the terminator is behind what is taken
  rw [List.take_set_of_le (Nat.le_refl _), List.take_set, List.take_succ_eq_append_getElem hsize,
    List.set_append_right _ _ (by rw [List.length_take]; omega)]
  have hzero : s.len - (s.buf.toList.take s.len).length = 0 := by
    rw [List.length_take]
    omega
  rw [hzero]
  rfl

/-- `push_byte` on the array is `push_byte` on the content. -/
theorem toCStrBuf_pushByte (s : CBuffer) (c : UInt8) :
    (s.pushByte c).toCStrBuf = s.toCStrBuf.pushByte c := by
  have hlength := s.asBytes_length
  apply CStrBuf.ext
  -- a NUL is dropped by both, and so is a byte that finds the buffer full
  by_cases hc : c = 0
  · unfold pushByte CStrBuf.pushByte
    rw [dif_pos hc, dif_pos hc]
  · by_cases hlen : s.len + 1 < pathBuf
    · have hroom : s.toCStrBuf.bytes.length + 1 < pathBuf := by
        rw [toCStrBuf_bytes, hlength]
        exact hlen
      rw [toCStrBuf_bytes, pushByte_asBytes hc hlen]
      unfold CStrBuf.pushByte
      rw [dif_neg hc, dif_pos hroom]
      rfl
    · have hroom : ¬s.toCStrBuf.bytes.length + 1 < pathBuf := by
        rw [toCStrBuf_bytes, hlength]
        exact hlen
      unfold pushByte CStrBuf.pushByte
      rw [dif_neg hc, dif_neg hlen, dif_neg hc, dif_neg hroom]

/-- The byte-level buffer refines `CStrBuf`. -/
theorem toCStrBuf_push (s : CBuffer) (b : Bytes) : (s.push b).toCStrBuf = s.toCStrBuf.push b := by
  induction b generalizing s with
  | nil => rfl
  | cons c b ih =>
    have hhead := toCStrBuf_pushByte s c
    have hpush : (s.push (c :: b)).toCStrBuf = ((s.pushByte c).push b).toCStrBuf := rfl
    rw [hpush, ih, hhead]
    rfl

/-! ## The two loops -/

/-- The byte that is stored for a digit. -/
theorem digit_eq (v : UInt64) : 48 + (v % 10).toUInt8 = Decimal.digit (v.toNat % 10) := by
  have hlast : v.toNat % 10 < 10 := Nat.mod_lt _ (by omega)
  have hdigit := Decimal.toNat_digit hlast
  have hten : (10 : UInt64).toNat = 10 := rfl
  have h48 : (48 : UInt8).toNat = 48 := rfl
  apply UInt8.toNat_inj.mp
  rw [hdigit, UInt8.toNat_add, UInt64.toNat_toUInt8, UInt64.toNat_mod, hten, h48]
  omega

/-- The digits of a number below `10 ^ k` take `k` bytes of `tmp` at most, and lie there in the
    order of `digitsRev`. -/
theorem storeDigits_eq (tmp : Vector UInt8 20) {n : Nat} (k : Nat) {v : UInt64} (hv : v.toNat < 10 ^ k)
    (hk : n + k ≤ 20) :
    ∃ tmp' n', storeDigits tmp n v = some (tmp', n') ∧ n' ≤ 20 ∧
      tmp'.toList.take n' = tmp.toList.take n ++ CStrBuf.digitsRev k v.toNat := by
  induction k generalizing tmp n v with
  | zero =>
    have hzero : v = 0 := by
      apply UInt64.toNat_inj.mp
      have h0 : (0 : UInt64).toNat = 0 := rfl
      omega
    refine ⟨tmp, n, ?_, hk, ?_⟩
    · rw [storeDigits, if_pos hzero]
    · exact (List.append_nil _).symm
  | succ k ih =>
    by_cases hzero : v = 0
    · refine ⟨tmp, n, ?_, by omega, ?_⟩
      · rw [storeDigits, if_pos hzero]
      · rw [hzero]
        exact (List.append_nil _).symm
    · have hn : n < 20 := by omega
      have hpos : v.toNat ≠ 0 := fun h => hzero (UInt64.toNat_inj.mp h)
      have hdiv : (v / 10).toNat = v.toNat / 10 := UInt64.toNat_div v 10
      have hless : (v / 10).toNat < 10 ^ k := by
        rw [hdiv]
        exact Nat.div_lt_of_lt_mul (Nat.pow_succ' ▸ hv)
      obtain ⟨tmp', n', hloop, hle, htake⟩ :=
        ih (tmp.set n (48 + (v % 10).toUInt8) hn) hless (show n + 1 + k ≤ 20 by omega)
      refine ⟨tmp', n', ?_, hle, ?_⟩
      · rw [storeDigits, if_neg hzero, dif_pos hn, hloop]
      · -- one more byte of `tmp` is in use
        have hsize : n < tmp.toList.length := by
          rw [Vector.length_toList]
          exact hn
        have hstored : (tmp.set n (48 + (v % 10).toUInt8) hn).toList.take (n + 1) =
            tmp.toList.take n ++ [Decimal.digit (v.toNat % 10)] := by
          rw [Vector.toList_set, List.take_set, List.take_succ_eq_append_getElem hsize,
            List.set_append_right _ _ (by rw [List.length_take]; omega), digit_eq]
          have hlast : n - (tmp.toList.take n).length = 0 := by
            rw [List.length_take]
            omega
          rw [hlast]
          rfl
        have hdigits : CStrBuf.digitsRev (k + 1) v.toNat =
            Decimal.digit (v.toNat % 10) :: CStrBuf.digitsRev k (v.toNat / 10) := if_neg hpos
        rw [htake, hstored, hdigits, hdiv, List.append_assoc]
        rfl

/-- The bytes of `tmp` come out in reverse. -/
theorem pushDigits_eq (s : CBuffer) (tmp : Vector UInt8 20) {n : Nat} (hn : n ≤ 20) :
    pushDigits s tmp n = some (s.push (tmp.toList.take n).reverse) := by
  -- by induction on the number of digits left
  induction n generalizing s with
  | zero => rfl
  | succ n ih =>
    have hlt : n < 20 := hn
    have hsize : n < tmp.toList.length := by
      rw [Vector.length_toList]
      exact hlt
    unfold pushDigits
    rw [dif_pos hlt, ih (s.pushByte tmp[n]) (by omega), List.take_succ_eq_append_getElem hsize,
      List.reverse_append, Vector.getElem_toList]
    rfl

/-- The scratch array is large enough for every number of 64 bits, and what is pushed is the
    numeral. -/
theorem pushU64_eq (s : CBuffer) (v : UInt64) :
    s.pushU64 v = some (s.push (Decimal.ofNat v.toNat)) := by
  unfold pushU64
  split
  · next hzero =>
    rw [hzero]
    rfl
  · next hne =>
    have hpos : v.toNat ≠ 0 := fun h => hne (UInt64.toNat_inj.mp h)
    -- 20 digits hold every 64-bit number
    have hlt : v.toNat < 10 ^ 20 := by
      have hmax := v.toNat_lt
      omega
    -- `tmp` holds the digits from the last to the first
    obtain ⟨tmp, n, hstore, hn, htake⟩ :=
      storeDigits_eq (Vector.replicate 20 0) 20 hlt (show 0 + 20 ≤ 20 by omega)
    have hdigits : (tmp.toList.take n).reverse = Decimal.ofNat v.toNat := by
      rw [htake]
      exact digitsRev_eq (by omega) hlt
    rw [hstore]
    exact (pushDigits_eq s tmp hn).trans (by rw [hdigits])

/-- Two's complement. -/
theorem toInt_eq (v : Int64) : v.toInt = if v.toUInt64.toNat < 9223372036854775808
    then (v.toUInt64.toNat : Int) else v.toUInt64.toNat - 18446744073709551616 := by
  have h := BitVec.toInt_eq_toNat_cond v.toBitVec
  have hnat : v.toBitVec.toNat = v.toUInt64.toNat := rfl
  have hint : v.toInt = v.toBitVec.toInt := rfl
  rw [hint, h, hnat]
  split <;> split <;> omega

/-- `push_i64` never panics and pushes the decimal text, `i64::MIN` included. -/
theorem pushI64_eq (s : CBuffer) (v : Int64) :
    s.pushI64 v = some (s.push (Decimal.ofInt v.toInt)) := by
  have hlt := v.toUInt64.toNat_lt
  have hint := toInt_eq v
  unfold pushI64 Decimal.ofInt
  by_cases hneg : v < 0
  · have hsign : v.toInt < 0 := Int64.lt_iff_toInt_lt.mp hneg
    rw [if_pos hneg, if_pos hsign]
    have hpush : s.push (45 :: Decimal.ofNat v.toInt.natAbs) =
        (s.pushByte 45).push (Decimal.ofNat v.toInt.natAbs) := rfl
    rw [hpush]
    dsimp only
    split
    · next hmin =>
      rw [pushU64_eq, hmin]
      rfl
    · -- the negation of any other number does not overflow
      have habs : (-v).toUInt64.toNat = v.toInt.natAbs := by
        have hsize : UInt64.size = 18446744073709551616 := rfl
        rw [Int64.toUInt64_neg, UInt64.toNat_neg, hsize]
        split at hint <;> omega
      rw [pushU64_eq, habs]
  · have hsign : ¬v.toInt < 0 := fun h => hneg (Int64.lt_iff_toInt_lt.mpr h)
    have habs : v.toUInt64.toNat = v.toInt.natAbs := by
      split at hint <;> omega
    rw [if_neg hneg, if_neg hsign, pushU64_eq, habs]

/-! ## What callers get -/

/-- `s'` is `s` with `text` behind what it held: terminated, and without a NUL inside. -/
def Appended (s s' : CBuffer) (text : Bytes) : Prop :=
  s'.asBytes = s.asBytes ++ text ∧ s'.asCstr = s.asBytes ++ text ++ [0] ∧ 0 ∉ s.asBytes ++ text

/-- Bytes for which there is room are appended. -/
theorem push_appended {s : CBuffer} {b : Bytes} (hroom : s.len + b.length < pathBuf) (hb : 0 ∉ b) :
    s.Appended (s.push b) b := by
  have hkeep := withoutNul_eq_self hb
  have hlen := s.asBytes_length
  -- no byte is dropped, and there is room for all of them
  have hfits : (s.toCStrBuf.bytes ++ withoutNul b).length ≤ pathBuf - 1 := by
    rw [hkeep, List.length_append, toCStrBuf_bytes, hlen]
    omega
  have hbytes : (s.push b).asBytes = s.asBytes ++ b := by
    have hpush := CStrBuf.push_fits hfits
    rw [hkeep, ← toCStrBuf_push] at hpush
    exact hpush
  have hnul := zero_not_mem_asBytes (s.push b)
  have hcstr := asCstr_eq (s.push b)
  rw [hbytes] at hnul hcstr
  exact ⟨hbytes, hcstr, hnul⟩

end CBuffer

/-! ## The arguments of `finish` -/

/-- The slice replaces the beginning of the buffer. -/
theorem copyFromSlice_toList {buf : Vector UInt8 20} {b : Bytes} (hb : b.length ≤ 20) :
    (copyFromSlice buf b).toList = b ++ buf.toList.drop b.length := by
  have hsize : buf.toList.length = 20 := Vector.length_toList
  unfold copyFromSlice
  rw [Vector.toList_ofFn]
  apply List.ext_getElem
  · rw [List.length_ofFn, List.length_append, List.length_drop, hsize]
    omega
  · intro i h₁ h₂
    rw [List.getElem_ofFn]
    -- the new bytes come first, what was behind them is kept
    by_cases hi : i < b.length
    · rw [List.getElem_append_left hi]
      exact dif_pos hi
    · have hindex : b.length + (i - b.length) = i := by omega
      rw [List.getElem_append_right (by omega), List.getElem_drop, Vector.getElem_toList]
      simp only [hindex]
      exact dif_neg hi

/-- The text, cut at 19 bytes, a terminator, and whatever is left of the array. -/
theorem formatI64Array_eq (v : Int64) :
    ∃ buf rest, formatI64Array v = some buf ∧
      buf.toList = (Decimal.ofInt v.toInt).take 19 ++ 0 :: rest := by
  have hlength : (Decimal.ofInt v.toInt).length ≤ 20 := by
    have hmax := v.toInt_lt
    have hmin := v.le_toInt
    exact Decimal.ofInt_length_le (k := 19) (by omega) (by omega)
  have hroom : CBuffer.new.len + (Decimal.ofInt v.toInt).length < pathBuf := by
    have hzero : CBuffer.new.len = 0 := rfl
    have hsize : pathBuf = 1024 := rfl
    omega
  have htext := (CBuffer.push_appended hroom (Decimal.zero_not_mem_ofInt v.toInt)).1
  rw [CBuffer.asBytes_new, List.nil_append] at htext
  generalize hb : (Decimal.ofInt v.toInt).take (min (Decimal.ofInt v.toInt).length 19) = b
  have hcut : b = (Decimal.ofInt v.toInt).take 19 := by
    rw [← hb, ← List.take_take]
    exact List.take_of_length_le (by rw [List.length_take]; omega)
  have hn : b.length = min (Decimal.ofInt v.toInt).length 19 := by
    rw [hcut, List.length_take]
    omega
  let copied := copyFromSlice (Vector.replicate 20 0) b
  refine ⟨copied.set (min (Decimal.ofInt v.toInt).length 19) 0 (by omega),
    List.replicate (19 - b.length) 0, ?_, ?_⟩
  · unfold formatI64Array
    rw [CBuffer.pushI64_eq]
    simp only [Option.bind_eq_bind, Option.bind_some, htext, hb]
    rfl
  · -- the terminator replaces the first of the zeros
    have hcopied : copied.toList = b ++ List.replicate (20 - b.length) 0 := by
      rw [copyFromSlice_toList (by omega), Vector.toList_replicate, List.drop_replicate]
    have hzeros : List.replicate (20 - b.length) (0 : UInt8) =
        0 :: List.replicate (19 - b.length) 0 := by
      rw [show 20 - b.length = 19 - b.length + 1 by omega, List.replicate_succ]
    rw [Vector.toList_set, hcopied, hzeros, ← hn, List.set_append_right _ _ (Nat.le_refl _),
      Nat.sub_self, hcut]
    rfl

/-- The finish script gets the numeral of every `c_int`. -/
theorem formatI64Array_int32 (v : Int32) :
    ∃ buf, formatI64Array v.toInt64 = some buf ∧ 0 ∈ buf.toList ∧
      buf.toList.takeWhile (· ≠ 0) = Decimal.ofInt v.toInt := by
  -- an `i32` has at most ten digits and a sign
  have hshort : (Decimal.ofInt v.toInt).length ≤ 19 := by
    have hmax := v.toInt_lt
    have hmin := v.le_toInt
    exact Nat.le_trans (Decimal.ofInt_length_le (k := 10) (by omega) (by omega)) (by omega)
  obtain ⟨buf, rest, hbuf, hlist⟩ := formatI64Array_eq v.toInt64
  rw [Int32.toInt_toInt64, List.take_of_length_le hshort] at hlist
  refine ⟨buf, hbuf, ?_, ?_⟩
  · rw [hlist]
    exact List.mem_append_right _ List.mem_cons_self
  -- no digit or sign is NUL, so the text ends where the buffer is terminated
  · have hkeep : ∀ c ∈ Decimal.ofInt v.toInt, decide (c ≠ 0) = true := by
      intro c hc
      have hne : c ≠ 0 := fun h => Decimal.zero_not_mem_ofInt _ (h ▸ hc)
      simpa using hne
    rw [hlist, List.takeWhile_append_of_pos hkeep]
    exact List.append_nil _

/-- `format_i64_buf` of the exec model is what the array holds. -/
theorem formatI64Buf_int32 (v : Int32) : formatI64Buf v.toInt = Decimal.ofInt v.toInt := by
  have hmax := v.toInt_lt
  have hmin := v.le_toInt
  have hlen : (Decimal.ofInt v.toInt).length ≤ 11 :=
    Decimal.ofInt_length_le (k := 10) (by omega) (by omega)
  have hfull := (CStrBuf.Holds.new.pushI64 (v := v.toInt) (by omega)).full (by
    simp only [List.nil_append, pathBuf]
    omega)
  unfold formatI64Buf
  rw [hfull, List.nil_append, withoutNul_eq_self (Decimal.zero_not_mem_ofInt _)]
  exact List.take_of_length_le (by omega)

/-- Numbers of the machine are written out in full: the buffer holds what it held and behind it
    the canonical numeral, which denotes the number, and the finish script gets that of every
    `c_int`. -/
theorem decimals_exact :
    (∀ (s : CBuffer) (v : UInt64), s.len + (Decimal.ofNat v.toNat).length < pathBuf →
      ∃ s' digits, s.pushU64 v = some s' ∧ s.Appended s' digits ∧
        Decimal.IsNatural digits v.toNat ∧ Decimal.value digits = v.toNat) ∧
    (∀ (s : CBuffer) (v : Int64), s.len + (Decimal.ofInt v.toInt).length < pathBuf →
      ∃ s' text, s.pushI64 v = some s' ∧ s.Appended s' text ∧
        Decimal.IsInteger text v.toInt ∧ Decimal.valueInt text = v.toInt) ∧
    ∀ v : Int32, ∃ buf, formatI64Array v.toInt64 = some buf ∧ 0 ∈ buf.toList ∧
      buf.toList.takeWhile (· ≠ 0) = formatI64Buf v.toInt ∧
      Decimal.IsInteger (formatI64Buf v.toInt) v.toInt ∧
      Decimal.valueInt (formatI64Buf v.toInt) = v.toInt := by
  -- one conjunct for each of the three functions
  refine ⟨fun s v hroom => ?_, fun s v hroom => ?_, fun v => ?_⟩
  · exact ⟨_, _, CBuffer.pushU64_eq s v, CBuffer.push_appended hroom (Decimal.zero_not_mem_ofNat _),
      Decimal.isNatural_ofNat _, Decimal.value_ofNat _⟩
  · exact ⟨_, _, CBuffer.pushI64_eq s v, CBuffer.push_appended hroom (Decimal.zero_not_mem_ofInt _),
      Decimal.isInteger_ofInt _, Decimal.valueInt_ofInt _⟩
  · obtain ⟨buf, hbuf, hterminated, htext⟩ := formatI64Array_int32 v
    have hmodel := formatI64Buf_int32 v
    rw [hmodel]
    exact ⟨buf, hbuf, hterminated, htext, Decimal.isInteger_ofInt _, Decimal.valueInt_ofInt _⟩

/-- The numbers at both ends of the range behind an equals sign. -/
theorem decimals_exact_extremes :
    let s := CBuffer.new.pushByte 61
    (∃ s' digits, s.pushU64 18446744073709551615 = some s' ∧ s.Appended s' digits ∧
      Decimal.value digits = 18446744073709551615) ∧
    ∃ s' text, s.pushI64 Int64.minValue = some s' ∧ s.Appended s' text ∧
      Decimal.valueInt text = -9223372036854775808 := by
  -- twenty bytes behind the one that is there
  have hroom : ∀ n ≤ 20, (CBuffer.new.pushByte 61).len + n < pathBuf := by
    have hlen : (CBuffer.new.pushByte 61).len = 1 := rfl
    have hsize : pathBuf = 1024 := rfl
    omega
  obtain ⟨s₁, digits, hpush₁, happended₁, -, hvalue₁⟩ :=
    decimals_exact.1 (CBuffer.new.pushByte 61) 18446744073709551615
      (hroom _ (Decimal.ofNat_length_le (k := 20) (by omega) (by decide)))
  obtain ⟨s₂, text, hpush₂, happended₂, -, hvalue₂⟩ :=
    decimals_exact.2.1 (CBuffer.new.pushByte 61) Int64.minValue
      (hroom _ (Decimal.ofInt_length_le (k := 19) (by omega) (by decide)))
  exact ⟨⟨s₁, digits, hpush₁, happended₁, hvalue₁⟩, s₂, text, hpush₂, happended₂, hvalue₂⟩

end SvcRs
