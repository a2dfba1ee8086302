import SsrJson.Output.Appends
import SsrJson.Output.IntegerWriters

/-!
# Integers

An integer comes from a Python `int`, a numpy scalar or an element of an array. The encoders split
it into a sign and a magnitude, each in its own way, and write the magnitude in place or into a
local buffer that is widened. `IntExact` is what they owe: the magnitude is computed by operations
that are defined, the text is the decimal one, and the stores stay inside of what was reserved. The
container encoder of `dumps_to_bytes` negates a signed number and fails on the least one.
-/

namespace SsrJson.Output

open Decode StoreWriter

/-! ## The integers -/

/-- The value of a numpy integer. -/
inductive NumpyInt where
  | int8 (v : Int8)
  | int16 (v : Int16)
  | int32 (v : Int32)
  | int64 (v : Int64)
  | uint8 (v : UInt8)
  | uint16 (v : UInt16)
  | uint32 (v : UInt32)
  | uint64 (v : UInt64)

/-- The number. -/
def NumpyInt.value : NumpyInt → Int
  | .int8 v => v.toInt
  | .int16 v => v.toInt
  | .int32 v => v.toInt
  | .int64 v => v.toInt
  | .uint8 v => v.toNat
  | .uint16 v => v.toNat
  | .uint32 v => v.toNat
  | .uint64 v => v.toNat

/-- The units reserved for numbers of a size. -/
def NumpyInt.units : NumpyInt → Nat
  | .int64 _ => 32
  | .uint64 _ => 32
  | .int32 _ => 16
  | .uint32 _ => 16
  | .int16 _ => 8
  | .uint16 _ => 8
  | .int8 _ => 5
  | .uint8 _ => 5

/-- `_NdaElemWriteSizeTable` at the integers. -/
def NumpyInt.elemWriteSize : NumpyInt → Nat
  | .int64 _ => 20
  | .int32 _ => 11
  | .int16 _ => 6
  | .int8 _ => 4
  | .uint64 _ => 20
  | .uint32 _ => 10
  | .uint16 _ => 5
  | .uint8 _ => 3

/-- A Python `int` that has 64 bits, or a numpy scalar. -/
inductive IntObject where
  | pyLong (v : Int) (range : -2 ^ 63 ≤ v ∧ v < 2 ^ 64)
  | numpy (n : NumpyInt)

/-- The number. -/
def IntObject.value : IntObject → Int
  | .pyLong v _ => v
  | .numpy n => n.value

/-- The units reserved for the number. -/
def IntObject.units : IntObject → Nat
  | .pyLong _ _ => 32
  | .numpy n => n.units

/-! ## Sign and magnitude -/

/-- What can go wrong: an `int` is too large, or the behaviour is undefined. -/
inductive IntFault where
  | convert
  | signedOverflow
  deriving DecidableEq, Repr

/-- `-v` on `i64`. -/
def negInt64 (v : Int64) : Except IntFault Int64 :=
  if v = Int64.minValue then .error .signedOverflow else .ok (-v)

/-- `-v` on `int`. -/
def negInt32 (v : Int32) : Except IntFault Int32 :=
  if v = Int32.minValue then .error .signedOverflow else .ok (-v)

/-- The argument of one of the writers. -/
inductive Magnitude where
  | u64 (v : UInt64)
  | u32 (v : UInt32)
  | u16 (v : UInt16)
  | u8 (v : UInt8)
  deriving DecidableEq, Repr

/-- Where the encoders go on: `t_long_zero`, or one of the labels for other numbers. -/
inductive IntBranch where
  | zero
  | nonzero (m : Magnitude) (sign : Bool)
  deriving DecidableEq, Repr

/-- `pylong_to_clong`, whose sign of zero is -1. -/
def pylongToClong (v : Int) : Except IntFault (UInt64 × Int) :=
  if v = 0 then .ok (0, -1)
  else if 0 < v then
    if v < 2 ^ 64 then .ok (UInt64.ofNat v.toNat, 0) else .error .convert
  else if -2 ^ 63 ≤ v then .ok (-(Int64.ofInt v).toUInt64, 1)
  else .error .convert

/-- The branch of a Python `int` in either encoder. -/
def pyLongBranch (v : Int) : Except IntFault IntBranch := do
  let (value, sign) ← pylongToClong v
  return if sign = -1 then .zero else .nonzero (.u64 value) (sign == 1)

/-- The branches of `dumps` for numpy scalars, and the array writers: `-(u64)v` and the like. -/
def dumpsBranch : NumpyInt → IntBranch
  | .int64 v => if v = 0 then .zero else
    .nonzero (.u64 (if v < 0 then -v.toUInt64 else v.toUInt64)) (v < 0)
  | .int32 v => if v = 0 then .zero else
    .nonzero (.u32 (if v < 0 then -v.toUInt32 else v.toUInt32)) (v < 0)
  | .int16 v => if v = 0 then .zero else
    .nonzero (.u16 (if v < 0 then -v.toUInt16 else v.toUInt16)) (v < 0)
  | .int8 v => if v = 0 then .zero else
    .nonzero (.u8 (if v < 0 then -v.toUInt8 else v.toUInt8)) (v < 0)
  | .uint64 v => if v = 0 then .zero else .nonzero (.u64 v) false
  | .uint32 v => if v = 0 then .zero else .nonzero (.u32 v) false
  | .uint16 v => if v = 0 then .zero else .nonzero (.u16 v) false
  | .uint8 v => if v = 0 then .zero else .nonzero (.u8 v) false

/-- The branches of `dumps_to_bytes` for numpy scalars: `(u64)(-(i64)v)` and the like, where the
types below `int` are promoted to it. -/
def bytesBranch : NumpyInt → Except IntFault IntBranch
  | .int64 v =>
    if v = 0 then .ok .zero
    else if v < 0 then do
      let n ← negInt64 v
      return .nonzero (.u64 n.toUInt64) true
    else .ok (.nonzero (.u64 v.toUInt64) false)
  | .int32 v =>
    if v = 0 then .ok .zero
    else if v < 0 then do
      let n ← negInt32 v
      return .nonzero (.u32 n.toUInt32) true
    else .ok (.nonzero (.u32 v.toUInt32) false)
  | .int16 v =>
    if v = 0 then .ok .zero
    else if v < 0 then do
      let n ← negInt32 v.toInt32
      return .nonzero (.u16 n.toUInt32.toUInt16) true
    else .ok (.nonzero (.u16 v.toUInt16) false)
  | .int8 v =>
    if v = 0 then .ok .zero
    else if v < 0 then do
      let n ← negInt32 v.toInt32
      return .nonzero (.u8 n.toUInt32.toUInt8) true
    else .ok (.nonzero (.u8 v.toUInt8) false)
  | n => .ok (dumpsBranch n)

/-- The branches of both encoders for a numpy scalar that is the whole document: it is widened
before it is negated. -/
def rootBranch : NumpyInt → Except IntFault IntBranch
  | .int8 v =>
    if v = 0 then .ok .zero
    else if v < 0 then do
      let n ← negInt32 v.toInt32
      return .nonzero (.u8 n.toUInt32.toUInt8) true
    else .ok (.nonzero (.u8 v.toUInt8) false)
  | .int16 v =>
    if v = 0 then .ok .zero
    else if v < 0 then do
      let n ← negInt32 v.toInt32
      return .nonzero (.u16 n.toUInt32.toUInt16) true
    else .ok (.nonzero (.u16 v.toUInt16) false)
  | .int32 v =>
    if v = 0 then .ok .zero
    else if v < 0 then do
      let n ← negInt64 v.toInt64
      return .nonzero (.u32 n.toUInt64.toUInt32) true
    else .ok (.nonzero (.u32 v.toInt64.toUInt64.toUInt32) false)
  | n => .ok (dumpsBranch n)

/-! ## Writing -/

namespace Magnitude

/-- The magnitude. -/
def toNat : Magnitude → Nat
  | .u64 v => v.toNat
  | .u32 v => v.toNat
  | .u16 v => v.toNat
  | .u8 v => v.toNat

/-- The functions `write_u64`, `write_u32`, `write_u16` and `write_u8`. -/
def write : Magnitude → StoreWriter → StoreWriter
  | .u64 v => writeU64 v
  | .u32 v => writeU32 v
  | .u16 v => writeU16 v
  | .u8 v => writeU8 v

/-- How many bytes they write at most. -/
def maxDigits : Magnitude → Nat
  | .u64 _ => 20
  | .u32 _ => 10
  | .u16 _ => 5
  | .u8 _ => 3

/-- The elements of the local buffer that is widened. -/
def cvtCount : Magnitude → Nat
  | .u64 _ => 32
  | .u32 _ => 16
  | .u16 _ => 8
  | .u8 _ => 4

/-- What is reserved. -/
def reserved : Magnitude → Nat
  | .u64 _ => 32
  | .u32 _ => 16
  | .u16 _ => 8
  | .u8 _ => 5

/-- The size of the buffer of a number that is the whole document. -/
def rootSize : Magnitude → Nat
  | .u64 _ => 32
  | .u32 _ => 16
  | .u16 _ => 8
  | .u8 _ => 8

end Magnitude

/-- `*buffer = '-'`, and the digits behind it or over it. -/
def writeSigned (m : Magnitude) (sign : Bool) (buffer : StoreWriter) : StoreWriter :=
  m.write ((buffer.put 0 1 fun _ => 0x2D).move sign.toNat)

/-- The functions `u64_to_unicode`, `u32_to_unicode`, `u16_to_unicode` and `u8_to_unicode`. Wider
elements come from a local buffer, of which all elements are widened and stored: what `stack` has
behind the text, too. -/
def toUnicode (stack : ByteBuffer) (m : Magnitude) (sign : Bool) (writer : StoreWriter) :
    StoreWriter :=
  if writer.width = 1 then writeSigned m sign writer
  else
    let buffer := writeSigned m sign ⟨1, 0, []⟩
    (writer.put 0 m.cvtCount fun i => (buffer.buffer stack).load 1 i).move buffer.index

/-- What is reserved in a container: two units for `t_long_zero`. -/
def IntBranch.reserved : IntBranch → Nat
  | .zero => 2
  | .nonzero m _ => m.reserved

/-- The number and its comma. -/
def writeItem (stack : ByteBuffer) : IntBranch → StoreWriter → StoreWriter
  | .zero, writer => (writer.push 0x30).push 0x2C
  | .nonzero m sign, writer => (toUnicode stack m sign writer).push 0x2C

/-- The functions `ndarray_write_*_elem`. Only the signed ones store the `-`. -/
def ndarrayWriteElem (n : NumpyInt) (writer : StoreWriter) : StoreWriter :=
  match dumpsBranch n with
  | .zero => (writer.push 0x30).push 0x2C
  | .nonzero m sign =>
    match n with
    | .uint8 _ => (m.write writer).push 0x2C
    | .uint16 _ => (m.write writer).push 0x2C
    | .uint32 _ => (m.write writer).push 0x2C
    | .uint64 _ => (m.write writer).push 0x2C
    | _ => (writeSigned m sign writer).push 0x2C

/-- The size of the buffer, or of the literal `"0"` with its zero. -/
def IntBranch.rootSize : IntBranch → Nat
  | .zero => 2
  | .nonzero m _ => m.rootSize

/-- A document that is a number, with a zero behind it. -/
def rootWriter (branch : IntBranch) : StoreWriter :=
  let w :=
    match branch with
    | .zero => StoreWriter.push ⟨1, 0, []⟩ 0x30
    | .nonzero m sign => writeSigned m sign ⟨1, 0, []⟩
  w.put 0 1 fun _ => 0

/-! ## The encoders -/

/-- `dumps` while its output has elements of some kind, or `dumps_to_bytes`. -/
inductive IntEncoder where
  | dumps (kind : StrKind)
  | dumpsToBytes
  deriving DecidableEq, Repr

/-- The bytes of an element of the output. -/
def IntEncoder.width : IntEncoder → Nat
  | .dumps kind => kind.size
  | .dumpsToBytes => 1

/-- The branch of an element of a container. -/
def IntEncoder.itemBranch (enc : IntEncoder) : IntObject → Except IntFault IntBranch
  | .pyLong v _ => pyLongBranch v
  | .numpy n =>
    match enc with
    | .dumps _ => .ok (dumpsBranch n)
    | .dumpsToBytes => bytesBranch n

/-- The branch of a whole document. -/
def documentBranch : IntObject → Except IntFault IntBranch
  | .pyLong v _ => pyLongBranch v
  | .numpy n => rootBranch n

/-- Append an element of a container, inside of what `unicode_indent_writer` has reserved. -/
def uBufApdInt (indent : Nat) (realloc : Nat → Bool) (stack : ByteBuffer) (curNestedDepth : Nat)
    (isInObj : Bool) (branch : IntBranch) : UBuf → Except UBuf UBuf :=
  uBufApdValue indent realloc curNestedDepth isInObj branch.reserved (writeItem stack branch)

/-- Where an integer comes from. -/
inductive IntSource where
  | document (obj : IntObject)
  | item (obj : IntObject)
  | element (n : NumpyInt)

/-! ## The magnitudes -/

/-- The branch is that of a number with some units reserved. -/
def IntBranch.Means (v : Int) (units : Nat) : IntBranch → Prop
  | .zero => v = 0 ∧ 2 ≤ units
  | .nonzero m sign => v ≠ 0 ∧ sign = decide (v < 0) ∧ m.toNat = v.natAbs ∧ m.reserved = units

/-- The bits of a negative number, negated without a sign, are its magnitude. -/
theorem toNat_neg_of_neg {n : Nat} {x : BitVec n} (h : x.toInt < 0) :
    (-x).toNat = x.toInt.natAbs := by
  have hlt := x.isLt
  rw [BitVec.toNat_neg]
  rw [BitVec.toInt_eq_toNat_cond] at h ⊢
  split at h
  · omega
  · rename_i hcond
    rw [if_neg hcond, Nat.mod_eq_of_lt (by omega)]
    omega

theorem toNat_of_nonneg {n : Nat} {x : BitVec n} (h : ¬ x.toInt < 0) :
    x.toNat = x.toInt.natAbs := by
  have hlt := x.isLt
  rw [BitVec.toInt_eq_toNat_cond] at h ⊢
  split at h
  · rename_i hcond
    rw [if_pos hcond]
    omega
  · omega

/-- The bits that a number gets when it is widened, negated and cut off. -/
theorem toNat_neg_widened {n m : Nat} {x : BitVec n} (hle : n ≤ m) (h : x.toInt < 0) :
    (-(x.signExtend m)).toNat % 2 ^ n = x.toInt.natAbs := by
  have hwide : (x.signExtend m).toInt = x.toInt := BitVec.toInt_signExtend_of_le hle
  have hneg := toNat_neg_of_neg (x := x.signExtend m) (hwide ▸ h)
  have hmod := (-x).isLt
  rw [hneg, hwide]
  rw [toNat_neg_of_neg h] at hmod
  exact Nat.mod_eq_of_lt hmod

theorem toNat_widened {n m : Nat} {x : BitVec n} (hle : n ≤ m) (h : ¬ x.toInt < 0) :
    (x.signExtend m).toNat % 2 ^ n = x.toInt.natAbs := by
  have hwide : (x.signExtend m).toInt = x.toInt := BitVec.toInt_signExtend_of_le hle
  have habs := toNat_of_nonneg (x := x.signExtend m) (hwide ▸ h)
  have hmod := x.isLt
  rw [habs, hwide]
  rw [toNat_of_nonneg h] at hmod
  exact Nat.mod_eq_of_lt hmod

theorem Magnitude.two_le_reserved (m : Magnitude) : 2 ≤ m.reserved := by
  cases m <;> simp [reserved]

/-- The branches of an unsigned type. -/
theorem means_unsigned {zero : Prop} [Decidable zero] {m : Magnitude}
    (hzero : zero ↔ m.toNat = 0) :
    (if zero then IntBranch.zero else .nonzero m false).Means m.toNat m.reserved := by
  split
  · exact ⟨by exact_mod_cast hzero.mp ‹_›, m.two_le_reserved⟩
  · have hne : m.toNat ≠ 0 := fun h => ‹¬ zero› (hzero.mpr h)
    exact ⟨by exact_mod_cast hne, (decide_eq_false (by omega)).symm, (Int.natAbs_natCast _).symm,
      rfl⟩

/-- The branches of a signed type. -/
theorem means_signed {zero neg : Prop} [Decidable zero] [Decidable neg] {m : Magnitude} {v : Int}
    (hzero : zero ↔ v = 0) (hneg : neg ↔ v < 0) (hm : m.toNat = v.natAbs) :
    (if zero then IntBranch.zero else .nonzero m (decide neg)).Means v m.reserved := by
  split
  · exact ⟨hzero.mp ‹_›, m.two_le_reserved⟩
  · exact ⟨fun h => ‹¬ zero› (hzero.mpr h), decide_eq_decide.mpr hneg, hm, rfl⟩

/-- The branches of a signed type where a negation may fail. -/
theorem means_negated {zero neg : Prop} [Decidable zero] [Decidable neg] {m m' : Magnitude}
    {v : Int} {negated : Except IntFault IntBranch} (hzero : zero ↔ v = 0) (hneg : neg ↔ v < 0)
    (hnegated : v < 0 → negated = .ok (.nonzero m true) ∧ m.toNat = v.natAbs)
    (hm : ¬ v < 0 → m'.toNat = v.natAbs) (hreserved : m.reserved = m'.reserved) :
    ∃ branch, (if zero then .ok .zero else if neg then negated else .ok (.nonzero m' false)) =
      (.ok branch : Except IntFault IntBranch) ∧ branch.Means v m'.reserved := by
  split
  · exact ⟨_, rfl, hzero.mp ‹_›, m'.two_le_reserved⟩
  · have hne : v ≠ 0 := fun h => ‹¬ zero› (hzero.mpr h)
    split
    · have hlt := hneg.mp ‹_›
      obtain ⟨heq, hmag⟩ := hnegated hlt
      exact ⟨_, heq, hne, (decide_eq_true hlt).symm, hmag, hreserved⟩
    · have hge : ¬ v < 0 := fun h => ‹¬ neg› (hneg.mpr h)
      exact ⟨_, rfl, hne, (decide_eq_false hge).symm, hm hge, rfl⟩

theorem int64_eq_zero (v : Int64) : v = 0 ↔ v.toInt = 0 := Int64.toInt_inj.symm

theorem int32_eq_zero (v : Int32) : v = 0 ↔ v.toInt = 0 := Int32.toInt_inj.symm

theorem int16_eq_zero (v : Int16) : v = 0 ↔ v.toInt = 0 := Int16.toInt_inj.symm

theorem int8_eq_zero (v : Int8) : v = 0 ↔ v.toInt = 0 := Int8.toInt_inj.symm

/-- `-(u64)v` and `(u64)v`, on bits of any length. -/
theorem toNat_abs {n : Nat} (x : BitVec n) {neg : Prop} [Decidable neg] (hneg : neg ↔ x.toInt < 0) :
    (if neg then -x else x).toNat = x.toInt.natAbs := by
  split
  · exact toNat_neg_of_neg (hneg.mp ‹_›)
  · exact toNat_of_nonneg fun h => ‹¬ neg› (hneg.mpr h)

theorem dumpsBranch_means (n : NumpyInt) : (dumpsBranch n).Means n.value n.units := by
  cases n with
  | int64 v =>
      refine means_signed (int64_eq_zero v) Int64.lt_iff_toInt_lt ?_
      refine .trans ?_ (toNat_abs v.toBitVec (show v < 0 ↔ v.toInt < 0 from Int64.lt_iff_toInt_lt))
      show (if v < 0 then -v.toUInt64 else v.toUInt64).toNat = _
      split <;> rfl
  | int32 v =>
      refine means_signed (int32_eq_zero v) Int32.lt_iff_toInt_lt ?_
      refine .trans ?_ (toNat_abs v.toBitVec (show v < 0 ↔ v.toInt < 0 from Int32.lt_iff_toInt_lt))
      show (if v < 0 then -v.toUInt32 else v.toUInt32).toNat = _
      split <;> rfl
  | int16 v =>
      refine means_signed (int16_eq_zero v) Int16.lt_iff_toInt_lt ?_
      refine .trans ?_ (toNat_abs v.toBitVec (show v < 0 ↔ v.toInt < 0 from Int16.lt_iff_toInt_lt))
      show (if v < 0 then -v.toUInt16 else v.toUInt16).toNat = _
      split <;> rfl
  | int8 v =>
      refine means_signed (int8_eq_zero v) Int8.lt_iff_toInt_lt ?_
      refine .trans ?_ (toNat_abs v.toBitVec (show v < 0 ↔ v.toInt < 0 from Int8.lt_iff_toInt_lt))
      show (if v < 0 then -v.toUInt8 else v.toUInt8).toNat = _
      split <;> rfl
  | uint64 v => exact means_unsigned UInt64.toNat_inj.symm
  | uint32 v => exact means_unsigned UInt32.toNat_inj.symm
  | uint16 v => exact means_unsigned UInt16.toNat_inj.symm
  | uint8 v => exact means_unsigned UInt8.toNat_inj.symm

/-- A negation that is defined. -/
theorem negInt64_ok {v : Int64} (h : v ≠ Int64.minValue) : negInt64 v = .ok (-v) := if_neg h

theorem negInt32_ok {v : Int32} (h : v ≠ Int32.minValue) : negInt32 v = .ok (-v) := if_neg h

theorem int8_negated {v : Int8} (h : v.toInt < 0) :
    negInt32 v.toInt32 = .ok (-v.toInt32) ∧
      (-v.toInt32).toUInt32.toUInt8.toNat = v.toInt.natAbs := by
  refine ⟨negInt32_ok fun hmin => ?_, @toNat_neg_widened _ 32 v.toBitVec (by decide) h⟩
  have hle := Int8.le_toInt v
  have hwide : v.toInt32.toInt = v.toInt := Int8.toInt_toInt32 v
  rw [hmin] at hwide
  rw [← hwide] at hle
  exact absurd hle (by decide)

theorem int16_negated {v : Int16} (h : v.toInt < 0) :
    negInt32 v.toInt32 = .ok (-v.toInt32) ∧
      (-v.toInt32).toUInt32.toUInt16.toNat = v.toInt.natAbs := by
  refine ⟨negInt32_ok fun hmin => ?_, @toNat_neg_widened _ 32 v.toBitVec (by decide) h⟩
  have hle := Int16.le_toInt v
  have hwide : v.toInt32.toInt = v.toInt := Int16.toInt_toInt32 v
  rw [hmin] at hwide
  rw [← hwide] at hle
  exact absurd hle (by decide)

theorem int32_negated {v : Int32} (h : v.toInt < 0) :
    negInt64 v.toInt64 = .ok (-v.toInt64) ∧
      (-v.toInt64).toUInt64.toUInt32.toNat = v.toInt.natAbs := by
  refine ⟨negInt64_ok fun hmin => ?_, @toNat_neg_widened _ 64 v.toBitVec (by decide) h⟩
  have hle := Int32.le_toInt v
  have hwide : v.toInt64.toInt = v.toInt := Int32.toInt_toInt64 v
  rw [hmin] at hwide
  rw [← hwide] at hle
  exact absurd hle (by decide)

/-- The negations of a whole document are defined. -/
theorem rootBranch_means (n : NumpyInt) :
    ∃ branch, rootBranch n = .ok branch ∧ branch.Means n.value n.units := by
  cases n with
  | int8 v =>
      refine means_negated (int8_eq_zero v) Int8.lt_iff_toInt_lt
        (m := .u8 (-v.toInt32).toUInt32.toUInt8) (fun h => ?_)
        (fun h => toNat_of_nonneg (x := v.toBitVec) h) rfl
      obtain ⟨hneg, hmag⟩ := int8_negated h
      rw [hneg]
      exact ⟨rfl, hmag⟩
  | int16 v =>
      refine means_negated (int16_eq_zero v) Int16.lt_iff_toInt_lt
        (m := .u16 (-v.toInt32).toUInt32.toUInt16) (fun h => ?_)
        (fun h => toNat_of_nonneg (x := v.toBitVec) h) rfl
      obtain ⟨hneg, hmag⟩ := int16_negated h
      rw [hneg]
      exact ⟨rfl, hmag⟩
  | int32 v =>
      refine means_negated (int32_eq_zero v) Int32.lt_iff_toInt_lt
        (m := .u32 (-v.toInt64).toUInt64.toUInt32) (fun h => ?_)
        (fun h => toNat_widened (x := v.toBitVec) (m := 64) (by decide) h) rfl
      obtain ⟨hneg, hmag⟩ := int32_negated h
      rw [hneg]
      exact ⟨rfl, hmag⟩
  | int64 v => exact ⟨_, rfl, dumpsBranch_means _⟩
  | uint64 v => exact ⟨_, rfl, dumpsBranch_means _⟩
  | uint32 v => exact ⟨_, rfl, dumpsBranch_means _⟩
  | uint16 v => exact ⟨_, rfl, dumpsBranch_means _⟩
  | uint8 v => exact ⟨_, rfl, dumpsBranch_means _⟩

/-- The least numbers of the two types that are not promoted. -/
def NumpyInt.IsLeast : NumpyInt → Prop
  | .int64 v => v = Int64.minValue
  | .int32 v => v = Int32.minValue
  | _ => False

/-- The negations of `dumps_to_bytes` are defined on all other numbers. -/
theorem bytesBranch_means {n : NumpyInt} (h : ¬ n.IsLeast) :
    ∃ branch, bytesBranch n = .ok branch ∧ branch.Means n.value n.units := by
  cases n with
  | int64 v =>
      refine means_negated (int64_eq_zero v) Int64.lt_iff_toInt_lt
        (m := .u64 (-v).toUInt64) (fun hneg => ?_)
        (fun hneg => toNat_of_nonneg (x := v.toBitVec) hneg) rfl
      rw [negInt64_ok h]
      exact ⟨rfl, toNat_neg_of_neg hneg⟩
  | int32 v =>
      refine means_negated (int32_eq_zero v) Int32.lt_iff_toInt_lt
        (m := .u32 (-v).toUInt32) (fun hneg => ?_)
        (fun hneg => toNat_of_nonneg (x := v.toBitVec) hneg) rfl
      rw [negInt32_ok h]
      exact ⟨rfl, toNat_neg_of_neg hneg⟩
  | int16 v => exact rootBranch_means (.int16 v)
  | int8 v => exact rootBranch_means (.int8 v)
  | uint64 v => exact ⟨_, rfl, dumpsBranch_means _⟩
  | uint32 v => exact ⟨_, rfl, dumpsBranch_means _⟩
  | uint16 v => exact ⟨_, rfl, dumpsBranch_means _⟩
  | uint8 v => exact ⟨_, rfl, dumpsBranch_means _⟩

/-- On the least numbers the negation is not defined. -/
theorem bytesBranch_least {n : NumpyInt} (h : n.IsLeast) :
    bytesBranch n = .error .signedOverflow := by
  cases n with
  | int64 v =>
      obtain rfl := h
      rfl
  | int32 v =>
      obtain rfl := h
      rfl
  | int16 v => exact h.elim
  | int8 v => exact h.elim
  | uint64 v => exact h.elim
  | uint32 v => exact h.elim
  | uint16 v => exact h.elim
  | uint8 v => exact h.elim

/-- An `int` that has 64 bits is converted. -/
theorem pyLongBranch_means {v : Int} (range : -2 ^ 63 ≤ v ∧ v < 2 ^ 64) :
    ∃ branch, pyLongBranch v = .ok branch ∧ branch.Means v 32 := by
  unfold pyLongBranch pylongToClong
  split_ifs with hzero hpos hlt hge
  · exact ⟨_, rfl, hzero, by decide⟩
  · refine ⟨_, rfl, hzero, (decide_eq_false (by omega)).symm, ?_, rfl⟩
    show (UInt64.ofNat v.toNat).toNat = v.natAbs
    rw [UInt64.toNat_ofNat', Nat.mod_eq_of_lt (by omega)]
    omega
  · exact absurd range.2 hlt
  · refine ⟨_, rfl, hzero, (decide_eq_true (by omega)).symm, ?_, rfl⟩
    have hint : (Int64.ofInt v).toInt = v := Int64.toInt_ofInt_of_le range.1 (by omega)
    have hneg := @toNat_neg_of_neg _ (Int64.ofInt v).toBitVec
      (show (Int64.ofInt v).toInt < 0 by omega)
    refine hneg.trans ?_
    show (Int64.ofInt v).toInt.natAbs = v.natAbs
    rw [hint]
  · exact absurd range.1 hge

/-! ## The text -/

theorem Magnitude.write_writes (m : Magnitude) {w : StoreWriter} (hw : 0 < w.width) :
    Writes w (m.write w) (decimalText m.toNat) m.maxDigits := by
  cases m with
  | u64 v => exact writeU64_writes hw v
  | u32 v => exact writeU32_writes hw v
  | u16 v => exact writeU16_writes hw v
  | u8 v => exact writeU8_writes hw v

/-- No number has more digits than its writer may write. -/
theorem Magnitude.length_le (m : Magnitude) : (decimalText m.toNat).length ≤ m.maxDigits := by
  cases m with
  | u64 v => exact length_decimalText_le (k := 20) (by decide) (v.toNat_lt.trans (by decide))
  | u32 v => exact length_decimalText_le (k := 10) (by decide) (v.toNat_lt.trans (by decide))
  | u16 v => exact length_decimalText_le (k := 5) (by decide) (v.toNat_lt.trans (by decide))
  | u8 v => exact length_decimalText_le (k := 3) (by decide) (v.toNat_lt.trans (by decide))

/-- A sign and the digits of a magnitude. -/
def signedText (m : Magnitude) (sign : Bool) : List Nat :=
  (if sign then [0x2D] else []) ++ decimalText m.toNat

theorem length_signedText (m : Magnitude) (sign : Bool) :
    (signedText m sign).length = sign.toNat + (decimalText m.toNat).length := by
  unfold signedText
  rw [List.length_append]
  cases sign <;> rfl

theorem signedText_lt {m : Magnitude} {sign : Bool} {c : Nat} (h : c ∈ signedText m sign) :
    c < 256 := by
  rcases List.mem_append.mp h with h | h
  · cases sign with
    | true =>
        obtain rfl := List.mem_singleton.mp h
        decide
    | false => exact absurd h List.not_mem_nil
  · exact (decimalText_lt h).trans (by decide)

/-- What a branch stands for is the text of the number. -/
theorem signedText_eq {m : Magnitude} {sign : Bool} {v : Int} {units : Nat}
    (h : IntBranch.Means v units (.nonzero m sign)) : signedText m sign = integerText v := by
  obtain ⟨-, hsign, hmag, -⟩ := h
  unfold signedText integerText
  rw [hmag, hsign]
  by_cases hneg : v < 0
  · rw [if_pos hneg, decide_eq_true hneg, if_pos rfl, List.singleton_append]
  · rw [if_neg hneg, decide_eq_false hneg, if_neg (by decide), List.nil_append]

theorem writeSigned_writes (m : Magnitude) (sign : Bool) {w : StoreWriter} (hw : 0 < w.width) :
    Writes w (writeSigned m sign w) (signedText m sign) (sign.toNat + m.maxDigits) := by
  have hminus : Writes w ((w.put 0 1 fun _ => 0x2D).move sign.toNat)
      (if sign then [0x2D] else []) 1 := by
    cases sign with
    | true => exact Writes.push w (lt_pow_width hw (by decide))
    | false => exact writes_put w 1 fun _ => 0x2D
  have hdigits := m.write_writes (w := (w.put 0 1 fun _ => 0x2D).move sign.toNat) hw
  refine (hminus.append hdigits).mono ?_
  have hpos : 1 ≤ m.maxDigits := by cases m <;> simp [Magnitude.maxDigits]
  cases sign with
  | true => exact Nat.max_le.mpr ⟨Nat.le_add_right 1 _, Nat.le_refl _⟩
  | false => exact Nat.max_le.mpr ⟨by simpa using hpos, Nat.le_refl _⟩

/-- The local buffer has room for the sign and the digits. -/
theorem Magnitude.fits (m : Magnitude) (sign : Bool) : sign.toNat + m.maxDigits ≤ m.cvtCount := by
  cases m <;> cases sign <;> simp [maxDigits, cvtCount]

theorem toUnicode_writes (stack : ByteBuffer) (m : Magnitude) (sign : Bool) {w : StoreWriter}
    (hw : 0 < w.width) : Writes w (toUnicode stack m sign w) (signedText m sign) m.cvtCount := by
  have hfits := m.fits sign
  unfold toUnicode
  split
  · exact (writeSigned_writes m sign hw).mono hfits
  · -- The text is in the local buffer, and what is behind it is stored but not kept.
    have hlocal := writeSigned_writes m sign (w := ⟨1, 0, []⟩) (by decide)
    have hload := hlocal.load stack
    have hindex : (writeSigned m sign ⟨1, 0, []⟩).index = (signedText m sign).length := by
      rw [hlocal.index]
      exact Nat.zero_add _
    have hlength := length_signedText m sign
    have hdigits := m.length_le
    have hlanes : (List.range (signedText m sign).length).map
        (fun i => ((writeSigned m sign ⟨1, 0, []⟩).buffer stack).load 1 i) =
          signedText m sign := by
      refine Eq.trans (List.map_congr_left fun i _ => ?_) hload
      rw [Nat.zero_add]
    dsimp only
    rw [hindex]
    have hput := @Writes.put_move w _ _
      (fun i => ((writeSigned m sign ⟨1, 0, []⟩).buffer stack).load 1 i)
      (show (signedText m sign).length ≤ m.cvtCount by omega) fun i hi => by
        refine lt_pow_width hw (@signedText_lt m sign _ ?_)
        rw [← hlanes]
        exact List.mem_map_of_mem (List.mem_range.mpr hi)
    rwa [hlanes] at hput

/-- An element of a container stays inside of what is reserved for it. -/
theorem writeItem_writes (stack : ByteBuffer) {branch : IntBranch} {v : Int} {units : Nat}
    (h : branch.Means v units) {w : StoreWriter} (hw : 0 < w.width) :
    Writes w (writeItem stack branch w) (integerText v ++ [0x2C]) branch.reserved := by
  cases branch with
  | zero =>
      obtain ⟨rfl, -⟩ := h
      have hdigit := Writes.push w (v := 0x30) (lt_pow_width hw (by decide))
      have hcomma := Writes.push (w.push 0x30) (v := 0x2C) (lt_pow_width hw (by decide))
      exact (hdigit.append hcomma).mono (by decide)
  | nonzero m sign =>
      have htext := toUnicode_writes stack m sign hw
      have hcomma := Writes.push (toUnicode stack m sign w) (v := 0x2C)
        (lt_pow_width (width_pos htext hw) (by decide))
      rw [← signedText_eq h]
      refine (htext.append hcomma).mono (Nat.max_le.mpr ⟨?_, ?_⟩)
      · cases m <;> simp [Magnitude.cvtCount, IntBranch.reserved, Magnitude.reserved]
      · have hlength := length_signedText m sign
        have hdigits := m.length_le
        have hsign := sign.toNat_le
        have hroom : 1 + m.maxDigits + 1 ≤ m.reserved := by
          cases m <;> simp [Magnitude.maxDigits, Magnitude.reserved]
        show _ ≤ m.reserved
        omega

/-- A comma behind a number in place. -/
theorem writes_comma {w w' : StoreWriter} {text : List Nat} {room bound : Nat} (hw : 0 < w.width)
    (h : Writes w w' text room) (hroom : room ≤ bound) (hlength : text.length + 1 ≤ bound) :
    Writes w (w'.push 0x2C) (text ++ [0x2C]) bound :=
  (h.append (Writes.push w' (lt_pow_width (width_pos h hw) (by decide)))).mono
    (Nat.max_le.mpr ⟨hroom, hlength⟩)

theorem length_integerText_le {z : Int} {k : Nat} (hk : 0 < k) (h : z.natAbs < 10 ^ k) :
    (integerText z).length ≤ k + if z < 0 then 1 else 0 := by
  have hlength := length_decimalText_le hk h
  unfold integerText
  split
  · rw [List.length_cons]
    omega
  · exact hlength

/-- The sizes of `_NdaElemWriteSizeTable` are those of the longest texts. -/
theorem NumpyInt.length_le (n : NumpyInt) : (integerText n.value).length ≤ n.elemWriteSize := by
  have hsigned : ∀ {z : Int} {k : Nat}, 0 < k → z.natAbs < 10 ^ k →
      (integerText z).length ≤ k + 1 := fun hk h =>
    (length_integerText_le hk h).trans (Nat.add_le_add_left (by split <;> decide) _)
  have hunsigned : ∀ {m k : Nat}, 0 < k → m < 10 ^ k → (integerText m).length ≤ k := fun hk h =>
    (length_integerText_le hk (by rwa [Int.natAbs_natCast])).trans
      (by rw [if_neg (by omega), Nat.add_zero])
  cases n with
  | int64 v =>
      have hlow : -2 ^ 63 ≤ v.toInt := Int64.le_toInt v
      have hhigh : v.toInt < 2 ^ 63 := Int64.toInt_lt v
      exact hsigned (k := 19) (by decide) (by simp only [value]; omega)
  | int32 v =>
      have hlow : -2 ^ 31 ≤ v.toInt := Int32.le_toInt v
      have hhigh : v.toInt < 2 ^ 31 := Int32.toInt_lt v
      exact hsigned (k := 10) (by decide) (by simp only [value]; omega)
  | int16 v =>
      have hlow : -2 ^ 15 ≤ v.toInt := Int16.le_toInt v
      have hhigh : v.toInt < 2 ^ 15 := Int16.toInt_lt v
      exact hsigned (k := 5) (by decide) (by simp only [value]; omega)
  | int8 v =>
      have hlow : -2 ^ 7 ≤ v.toInt := Int8.le_toInt v
      have hhigh : v.toInt < 2 ^ 7 := Int8.toInt_lt v
      exact hsigned (k := 3) (by decide) (by simp only [value]; omega)
  | uint64 v => exact hunsigned (k := 20) (by decide) (v.toNat_lt.trans (by decide))
  | uint32 v => exact hunsigned (k := 10) (by decide) (v.toNat_lt.trans (by decide))
  | uint16 v => exact hunsigned (k := 5) (by decide) (v.toNat_lt.trans (by decide))
  | uint8 v => exact hunsigned (k := 3) (by decide) (v.toNat_lt.trans (by decide))

/-- The writer of a magnitude keeps to the sizes of its type. -/
theorem maxDigits_le {m : Magnitude} {n : NumpyInt} (h : m.reserved = n.units) :
    m.maxDigits ≤ n.elemWriteSize := by
  cases m <;> cases n <;>
    simp_all [Magnitude.reserved, NumpyInt.units, Magnitude.maxDigits, NumpyInt.elemWriteSize]

/-- An element of an array takes no more than `_NdaElemWriteSizeTable` says, and its comma. -/
theorem ndarrayWriteElem_writes (n : NumpyInt) {w : StoreWriter} (hw : 0 < w.width) :
    Writes w (ndarrayWriteElem n w) (integerText n.value ++ [0x2C]) (n.elemWriteSize + 1) := by
  have hmeans := dumpsBranch_means n
  have hlength := n.length_le
  unfold ndarrayWriteElem
  split
  · rename_i hbranch
    rw [hbranch] at hmeans
    rw [hmeans.1]
    have hdigit := Writes.push w (v := 0x30) (lt_pow_width hw (by decide))
    have hsize : 2 ≤ n.elemWriteSize + 1 := by cases n <;> simp [NumpyInt.elemWriteSize]
    exact writes_comma hw hdigit (by omega) hsize
  · rename_i m sign hbranch
    rw [hbranch] at hmeans
    have htext := signedText_eq hmeans
    rw [← htext] at hlength ⊢
    have hsign := sign.toNat_le
    have hmax := maxDigits_le hmeans.2.2.2
    have hsigned := writes_comma hw (writeSigned_writes m sign hw)
      (show _ ≤ n.elemWriteSize + 1 by omega) (by omega)
    have hunsigned : sign = false →
        Writes w ((m.write w).push 0x2C) (signedText m sign ++ [0x2C]) (n.elemWriteSize + 1) := by
      intro hfalse
      subst hfalse
      exact writes_comma hw (m.write_writes hw) (by omega) (by simpa [signedText] using hlength)
    have hnonneg : 0 ≤ n.value → sign = false := fun h => by
      rw [hmeans.2.1]
      exact decide_eq_false (by omega)
    split
    · exact hunsigned (hnonneg (Int.natCast_nonneg _))
    · exact hunsigned (hnonneg (Int.natCast_nonneg _))
    · exact hunsigned (hnonneg (Int.natCast_nonneg _))
    · exact hunsigned (hnonneg (Int.natCast_nonneg _))
    · exact hsigned

/-- A whole document stays inside of its buffer. -/
theorem rootWriter_writes {branch : IntBranch} {v : Int} {units : Nat}
    (h : branch.Means v units) :
    Writes ⟨1, 0, []⟩ (rootWriter branch) (integerText v) branch.rootSize := by
  have hterminated : ∀ {w : StoreWriter} {text : List Nat} {room : Nat},
      Writes ⟨1, 0, []⟩ w text room → room ≤ branch.rootSize →
        text.length + 1 ≤ branch.rootSize →
        Writes ⟨1, 0, []⟩ (w.put 0 1 fun _ => 0) text branch.rootSize := by
    intro w text room hw hroom hlength
    have hzero := hw.append (writes_put w 1 fun _ => 0)
    rw [List.append_nil] at hzero
    exact hzero.mono (Nat.max_le.mpr ⟨hroom, hlength⟩)
  cases branch with
  | zero =>
      obtain ⟨rfl, -⟩ := h
      exact hterminated (Writes.push ⟨1, 0, []⟩ (v := 0x30) (by decide)) (by decide) (by decide)
  | nonzero m sign =>
      have hlength := length_signedText m sign
      have hdigits := m.length_le
      have hsign := sign.toNat_le
      have hsize : 1 + m.maxDigits + 1 ≤ m.rootSize := by
        cases m <;> simp [Magnitude.maxDigits, Magnitude.rootSize]
      rw [← signedText_eq h]
      exact hterminated (writeSigned_writes m sign (by decide))
        (show _ ≤ m.rootSize by omega) (show _ ≤ m.rootSize by omega)

/-! ## Integers are written exactly -/

/-- The multiplications and shifts are divisions on the ranges they are used on. -/
def DivisionsExact : Prop :=
  ∀ val : UInt32,
    (val.toNat < 10 ^ 8 → (div10000Len8 val).toNat = val.toNat / 10000) ∧
    (val.toNat < 10 ^ 6 → (div10000Len6 val).toNat = val.toNat / 10000) ∧
    (val.toNat < 10 ^ 4 → (div100Len4 val).toNat = val.toNat / 100)

/-- An integer is written exactly: nothing that is computed is undefined, the text is the decimal
one, the writer advances by its length, and all stores are inside of what is reserved: the local
buffer of a document, the units of an element of a container behind its indent, the size of an
element of an array. -/
def IntExact (enc : IntEncoder) (indent : Nat) (realloc : Nat → Bool) (stack : ByteBuffer) :
    IntSource → Prop
  | .document obj => ∃ branch, documentBranch obj = .ok branch ∧
      Writes ⟨1, 0, []⟩ (rootWriter branch) (integerText obj.value) branch.rootSize
  | .item obj => ∃ branch, enc.itemBranch obj = .ok branch ∧ branch.reserved ≤ obj.units ∧
      (∀ w : StoreWriter, w.width = enc.width →
        Writes w (writeItem stack branch w) (integerText obj.value ++ [0x2C]) branch.reserved) ∧
      ∀ (curNestedDepth : Nat) (isInObj : Bool) (u : UBuf), u.writer.width = enc.width →
        Appended u
          (valueIndent indent curNestedDepth isInObj ++ (integerText obj.value ++ [0x2C]))
          (uBufApdInt indent realloc stack curNestedDepth isInObj branch u)
  | .element n => n.elemWriteSize + 1 ≤ n.units ∧
      ∀ w : StoreWriter, w.width = 1 →
        Writes w (ndarrayWriteElem n w) (integerText n.value ++ [0x2C]) (n.elemWriteSize + 1)

/-- The negation of a signed number that `dumps_to_bytes` has no value for. -/
def IntSource.NegatesLeast (enc : IntEncoder) : IntSource → Prop
  | .item (.numpy n) => enc = .dumpsToBytes ∧ n.IsLeast
  | _ => False

theorem IntEncoder.width_pos (enc : IntEncoder) : 0 < enc.width := by
  cases enc with
  | dumps kind => cases kind <;> decide
  | dumpsToBytes => decide

/-- The branch of an element of a container. -/
theorem itemBranch_means (enc : IntEncoder) (obj : IntObject)
    (h : ¬ (IntSource.item obj).NegatesLeast enc) :
    ∃ branch, enc.itemBranch obj = .ok branch ∧ branch.Means obj.value obj.units := by
  cases obj with
  | pyLong v range => exact pyLongBranch_means range
  | numpy n =>
      cases enc with
      | dumps kind => exact ⟨_, rfl, dumpsBranch_means n⟩
      | dumpsToBytes => exact bytesBranch_means fun hleast => h ⟨rfl, hleast⟩

theorem documentBranch_means (obj : IntObject) :
    ∃ branch, documentBranch obj = .ok branch ∧ branch.Means obj.value obj.units := by
  cases obj with
  | pyLong v range => exact pyLongBranch_means range
  | numpy n => exact rootBranch_means n

theorem IntBranch.Means.reserved_le {branch : IntBranch} {v : Int} {units : Nat}
    (h : branch.Means v units) : branch.reserved ≤ units := by
  cases branch with
  | zero => exact h.2
  | nonzero m sign => exact h.2.2.2.le

/-- Every integer is written exactly, apart from the least ones of 64 and 32 bits as elements of a
container in `dumps_to_bytes`, whose negation is undefined. -/
theorem integers_exact (enc : IntEncoder) (indent : Nat) (realloc : Nat → Bool)
    (stack : ByteBuffer) (source : IntSource) : DivisionsExact ∧
      (IntExact enc indent realloc stack source ↔ ¬ source.NegatesLeast enc) := by
  refine ⟨fun val => ⟨div10000Len8_eq, div10000Len6_eq, div100Len4_eq⟩, ?_⟩
  cases source with
  | document obj =>
      obtain ⟨branch, hbranch, hmeans⟩ := documentBranch_means obj
      exact iff_of_true ⟨branch, hbranch, rootWriter_writes hmeans⟩ id
  | item obj =>
      constructor
      · intro hexact hleast
        obtain ⟨branch, hbranch, -⟩ := hexact
        cases obj with
        | pyLong v range => exact hleast
        | numpy n =>
            obtain ⟨rfl, hleast⟩ := hleast
            cases hbranch.symm.trans (bytesBranch_least hleast)
      · intro h
        obtain ⟨branch, hbranch, hmeans⟩ := itemBranch_means enc obj h
        refine ⟨branch, hbranch, hmeans.reserved_le, fun w hw => ?_, fun depth inObj u hu => ?_⟩
        · exact writeItem_writes stack hmeans (hw ▸ enc.width_pos)
        · exact uBufApdValue_appended (hu ▸ enc.width_pos) depth inObj fun w hw =>
            writeItem_writes stack hmeans (by rw [hw, hu]; exact enc.width_pos)
  | element n =>
      refine iff_of_true ⟨?_, fun w hw => ndarrayWriteElem_writes n (by omega)⟩ id
      cases n <;> simp [NumpyInt.elemWriteSize, NumpyInt.units]

/-- `dumps_to_bytes([np.int64(-2 ** 63)])`. -/
theorem least_not_exact : ¬ IntExact .dumpsToBytes 0 (fun _ => true) (fun _ => 0)
    (.item (.numpy (.int64 Int64.minValue))) := by
  intro hexact
  obtain ⟨branch, hbranch, -⟩ := hexact
  cases hbranch

end SsrJson.Output
