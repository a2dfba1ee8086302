import SsrJson.Library.Decimal
import SsrJson.Library.StoreWriter

/-!
# The integer writers

Digits are copied in pairs from a table. A number is split into pairs by divisions that are
multiplications and shifts, each of them exact on the range of numbers it is used on; the leading
pair is copied without its zero. Every writer leaves the decimal text and nothing else behind.
-/

namespace SsrJson.Output

open StoreWriter

/-! ## Pairs of digits -/

/-- `EncodeDigitTable`: the digits of the numbers below 100. -/
def encodeDigitTable : List Nat :=
  (List.range 100).flatMap fun n => [digitChar (n / 10), digitChar (n % 10)]

/-- `byte_copy_2` from an entry of the table, of which the writer keeps `count` bytes. -/
def byteCopy2 (entry : UInt32) (count : Nat) (w : StoreWriter) : StoreWriter :=
  w.putRow [encodeDigitTable.getD entry.toNat 0, encodeDigitTable.getD (entry.toNat + 1) 0] count

/-- Two digits. -/
def copyPair (v : UInt32) (w : StoreWriter) : StoreWriter := byteCopy2 (v * 2) 2 w

/-- The leading one or two digits: with `lz` the copy begins at the second digit, and what follows
is written over the other byte, as `buf` has moved back by `lz`. -/
def copyHead (v : UInt32) (w : StoreWriter) : StoreWriter :=
  let lz : UInt32 := if v < 10 then 1 else 0
  byteCopy2 (v * 2 + lz) (2 - lz.toNat) w

/-- `val / 10000` below `10 ^ 8`. -/
def div10000Len8 (val : UInt32) : UInt32 := ((val.toUInt64 * 109951163) >>> 40).toUInt32

/-- `val / 10000` below `10 ^ 6`. -/
def div10000Len6 (val : UInt32) : UInt32 := ((val.toUInt64 * 429497) >>> 32).toUInt32

/-- `val / 100` below `10 ^ 4`. -/
def div100Len4 (val : UInt32) : UInt32 := (val * 5243) >>> 19

/-! ## The writers -/

/-- `write_u32_len_8`. -/
def writeU32Len8 (val : UInt32) (w : StoreWriter) : StoreWriter :=
  let aabb := div10000Len8 val
  let ccdd := val - aabb * 10000
  let aa := div100Len4 aabb
  let cc := div100Len4 ccdd
  let bb := aabb - aa * 100
  let dd := ccdd - cc * 100
  copyPair dd (copyPair cc (copyPair bb (copyPair aa w)))

/-- `write_u32_len_4`. -/
def writeU32Len4 (val : UInt32) (w : StoreWriter) : StoreWriter :=
  let aa := div100Len4 val
  let bb := val - aa * 100
  copyPair bb (copyPair aa w)

/-- The branch of 3 or 4 digits, which several writers have. -/
def write3To4 (val : UInt32) (w : StoreWriter) : StoreWriter :=
  let aa := div100Len4 val
  let bb := val - aa * 100
  copyPair bb (copyHead aa w)

/-- The branch of 5 or 6 digits. -/
def write5To6 (val : UInt32) (w : StoreWriter) : StoreWriter :=
  let aa := div10000Len6 val
  let bbcc := val - aa * 10000
  let bb := div100Len4 bbcc
  let cc := bbcc - bb * 100
  copyPair cc (copyPair bb (copyHead aa w))

/-- The branch of 7 or 8 digits. -/
def write7To8 (val : UInt32) (w : StoreWriter) : StoreWriter :=
  let aabb := div10000Len8 val
  let ccdd := val - aabb * 10000
  let aa := div100Len4 aabb
  let cc := div100Len4 ccdd
  let bb := aabb - aa * 100
  let dd := ccdd - cc * 100
  copyPair dd (copyPair cc (copyPair bb (copyHead aa w)))

/-- `write_u32_len_1_8`. -/
def writeU32Len1To8 (val : UInt32) (w : StoreWriter) : StoreWriter :=
  if val < 100 then copyHead val w
  else if val < 10000 then write3To4 val w
  else if val < 1000000 then write5To6 val w
  else write7To8 val w

/-- `write_u16_len_1_5`. -/
def writeU16Len1To5 (val : UInt16) (w : StoreWriter) : StoreWriter :=
  if val < 100 then copyHead val.toUInt32 w
  else if val < 10000 then write3To4 val.toUInt32 w
  else
    let aa := div10000Len6 val.toUInt32
    let bbcc := val.toUInt32 - aa * 10000
    let bb := div100Len4 bbcc
    let cc := bbcc - bb * 100
    copyPair cc (copyPair bb (w.push (0x30 + aa.toUInt8).toNat))

/-- `write_u8_len_1_3`. -/
def writeU8Len1To3 (val : UInt8) (w : StoreWriter) : StoreWriter :=
  if val < 100 then copyHead val.toUInt32 w
  else
    let aa := div100Len4 val.toUInt32
    let bb := val.toUInt32 - aa * 100
    copyPair bb (w.push (0x30 + aa.toUInt8).toNat)

/-- `write_u64_len_5_8`. -/
def writeU64Len5To8 (val : UInt32) (w : StoreWriter) : StoreWriter :=
  if val < 1000000 then write5To6 val w else write7To8 val w

/-- `write_u64`. -/
def writeU64 (val : UInt64) (w : StoreWriter) : StoreWriter :=
  if val < 100000000 then writeU32Len1To8 val.toUInt32 w
  else if val < 100000000 * 100000000 then
    let hgh := val / 100000000
    let low := (val - hgh * 100000000).toUInt32
    writeU32Len8 low (writeU32Len1To8 hgh.toUInt32 w)
  else
    let tmp := val / 100000000
    let low := (val - tmp * 100000000).toUInt32
    let hgh := (tmp / 10000).toUInt32.toUInt64
    let mid := (tmp - hgh * 10000).toUInt32
    writeU32Len8 low (writeU32Len4 mid (writeU64Len5To8 hgh.toUInt32 w))

/-- `write_u32`. -/
def writeU32 (val : UInt32) (w : StoreWriter) : StoreWriter :=
  if val < 100000000 then writeU32Len1To8 val w
  else
    let hgh := (val / 100000000).toUInt64
    let low := (val.toUInt64 - hgh * 100000000).toUInt32
    writeU32Len8 low (copyHead hgh.toUInt32 w)

/-- `write_u16`. -/
def writeU16 : UInt16 → StoreWriter → StoreWriter := writeU16Len1To5

/-- `write_u8`. -/
def writeU8 : UInt8 → StoreWriter → StoreWriter := writeU8Len1To3

/-! ## The divisions -/

/-- No bit of the product is lost, so that the quotient is right as soon as the factor is. -/
theorem mulShift64_toNat {val : UInt32} {factor shift : UInt64} {bound : Nat}
    (h : val.toNat < bound) (hfactor : bound * factor.toNat ≤ 2 ^ 64) (hshift : shift.toNat < 64)
    (hquot : val.toNat * factor.toNat / 2 ^ shift.toNat < 2 ^ 32) :
    ((val.toUInt64 * factor) >>> shift).toUInt32.toNat =
      val.toNat * factor.toNat / 2 ^ shift.toNat := by
  have hmul : val.toNat * factor.toNat < 2 ^ 64 := by
    rcases Nat.eq_zero_or_pos factor.toNat with hzero | hpos
    · rw [hzero, Nat.mul_zero]
      decide
    · exact ((Nat.mul_lt_mul_right hpos).mpr h).trans_le hfactor
  rw [UInt64.toNat_toUInt32, UInt64.toNat_shiftRight, UInt64.toNat_mul, UInt32.toNat_toUInt64,
    Nat.mod_eq_of_lt hmul, Nat.mod_eq_of_lt hshift, Nat.shiftRight_eq_div_pow,
    Nat.mod_eq_of_lt hquot]

theorem div10000Len8_eq {val : UInt32} (h : val.toNat < 10 ^ 8) :
    (div10000Len8 val).toNat = val.toNat / 10000 := by
  have hquot : val.toNat * 109951163 / 2 ^ 40 = val.toNat / 10000 := by omega
  have hval := val.toNat_lt
  exact (@mulShift64_toNat val 109951163 40 (10 ^ 8) h (by decide) (by decide)
    (show val.toNat * 109951163 / 2 ^ 40 < 2 ^ 32 by omega)).trans hquot

theorem div10000Len6_eq {val : UInt32} (h : val.toNat < 10 ^ 6) :
    (div10000Len6 val).toNat = val.toNat / 10000 := by
  have hquot : val.toNat * 429497 / 2 ^ 32 = val.toNat / 10000 := by omega
  have hval := val.toNat_lt
  exact (@mulShift64_toNat val 429497 32 (10 ^ 6) h (by decide) (by decide)
    (show val.toNat * 429497 / 2 ^ 32 < 2 ^ 32 by omega)).trans hquot

theorem div100Len4_eq {val : UInt32} (h : val.toNat < 10 ^ 4) :
    (div100Len4 val).toNat = val.toNat / 100 := by
  have hquot : val.toNat * 5243 / 2 ^ 19 = val.toNat / 100 := by omega
  show ((val * 5243) >>> 19).toNat = _
  rw [UInt32.toNat_shiftRight, UInt32.toNat_mul]
  show (val.toNat * 5243 % 2 ^ 32) >>> (19 % 32) = _
  rw [Nat.mod_eq_of_lt (show val.toNat * 5243 < 2 ^ 32 by omega), Nat.shiftRight_eq_div_pow]
  exact hquot

/-- What is left of a number behind a quotient. -/
theorem sub_mul_toNat (val : UInt32) {quot : UInt32} (divisor : UInt32)
    (h : quot.toNat = val.toNat / divisor.toNat) :
    (val - quot * divisor).toNat = val.toNat % divisor.toNat := by
  have hle := Nat.div_mul_le_self val.toNat divisor.toNat
  have hmul : (quot * divisor).toNat = val.toNat / divisor.toNat * divisor.toNat := by
    rw [UInt32.toNat_mul, h]
    exact Nat.mod_eq_of_lt (hle.trans_lt val.toNat_lt)
  have hsplit := Nat.div_add_mod' val.toNat divisor.toNat
  rw [UInt32.toNat_sub_of_le _ _ (UInt32.le_iff_toNat_le.mpr (by rw [hmul]; exact hle)), hmul]
  omega

/-! ## What is written -/

theorem encodeDigitTable_pair {v : Nat} (hv : v < 100) :
    encodeDigitTable.getD (v * 2) 0 = digitChar (v / 10) ∧
      encodeDigitTable.getD (v * 2 + 1) 0 = digitChar (v % 10) := by
  have hall : ∀ v < 100, encodeDigitTable.getD (v * 2) 0 = digitChar (v / 10) ∧
      encodeDigitTable.getD (v * 2 + 1) 0 = digitChar (v % 10) := by decide
  exact hall v hv

theorem encodeDigitTable_lt (i : Nat) : encodeDigitTable.getD i 0 < 256 := by
  have hall : ∀ d ∈ encodeDigitTable, d < 256 := by
    intro d hd
    obtain ⟨n, hn, hd⟩ := List.mem_flatMap.mp hd
    have hlt := List.mem_range.mp hn
    rcases List.mem_pair.mp hd with rfl | rfl
    · show 0x30 + n / 10 < 256
      omega
    · show 0x30 + n % 10 < 256
      omega
  rcases Nat.lt_or_ge i encodeDigitTable.length with hlt | hge
  · rw [List.getD_eq_getElem _ _ hlt]
    exact hall _ (List.getElem_mem hlt)
  · rw [List.getD_eq_default _ _ hge]
    decide

variable {w : StoreWriter}

theorem byteCopy2_writes (hw : 0 < w.width) (entry : UInt32) {count : Nat} (hcount : count ≤ 2) :
    Writes w (byteCopy2 entry count w)
      ([encodeDigitTable.getD entry.toNat 0, encodeDigitTable.getD (entry.toNat + 1) 0].take count)
      2 := by
  have hbyte : 256 ≤ 256 ^ w.width := Nat.le_self_pow (by omega) 256
  refine Writes.putRow w hcount fun v hv => ?_
  rcases List.mem_pair.mp hv with rfl | rfl
  · exact (encodeDigitTable_lt _).trans_le hbyte
  · exact (encodeDigitTable_lt _).trans_le hbyte

theorem copyPair_writes (hw : 0 < w.width) (v : UInt32) (hv : v.toNat < 100) :
    Writes w (copyPair v w) (paddedText 2 v.toNat) 2 := by
  have hentry : (v * 2).toNat = v.toNat * 2 := by
    rw [UInt32.toNat_mul]
    exact Nat.mod_eq_of_lt (show v.toNat * 2 < 2 ^ 32 by omega)
  have hcopy := byteCopy2_writes hw (v * 2) (Nat.le_refl 2)
  obtain ⟨hfirst, hsecond⟩ := encodeDigitTable_pair hv
  rw [hentry, hfirst, hsecond] at hcopy
  have hpadded : paddedText 2 v.toNat =
      [digitChar (v.toNat / 10 % 10), digitChar (v.toNat % 10)] := rfl
  rw [hpadded, Nat.mod_eq_of_lt (show v.toNat / 10 < 10 by omega)]
  exact hcopy

theorem copyHead_writes (hw : 0 < w.width) (v : UInt32) (hv : v.toNat < 100) :
    Writes w (copyHead v w) (decimalText v.toNat) 2 := by
  obtain ⟨-, hsecond⟩ := encodeDigitTable_pair hv
  unfold copyHead
  split
  · rename_i hlz
    have hdigit : v.toNat < 10 := UInt32.lt_iff_toNat_lt.mp hlz
    have hentry : (v * 2 + 1).toNat = v.toNat * 2 + 1 := by
      rw [UInt32.toNat_add, UInt32.toNat_mul]
      show (v.toNat * 2 % 2 ^ 32 + 1) % 2 ^ 32 = _
      omega
    have hcopy := byteCopy2_writes hw (v * 2 + 1) (show 1 ≤ 2 by decide)
    rw [hentry, hsecond, Nat.mod_eq_of_lt hdigit] at hcopy
    rw [decimalText_digit hdigit]
    exact hcopy
  · rename_i hlz
    have hdigits : 10 ≤ v.toNat := Nat.not_lt.mp fun h => hlz (UInt32.lt_iff_toNat_lt.mpr h)
    rw [decimalText_pair hdigits hv]
    have hpair := copyPair_writes hw v hv
    rwa [copyPair, show v * 2 = v * 2 + 0 by rw [UInt32.add_zero]] at hpair

theorem width_pos {w' : StoreWriter} {us : List Nat} {room : Nat} (h : Writes w w' us room)
    (hw : 0 < w.width) : 0 < w'.width := by
  rw [h.width]
  exact hw

/-- The text of a quotient and the digits of the remainder behind it. -/
theorem writes_split {w' w'' : StoreWriter} {n quot rem k room room' bound : Nat}
    (hquot : quot = n / 10 ^ k) (hrem : rem = n % 10 ^ k) (hpos : 10 ^ k ≤ n)
    (h : Writes w w' (decimalText quot) room) (h' : Writes w' w'' (paddedText k rem) room')
    (hroom : room ≤ bound) (hbound : (decimalText quot).length + room' ≤ bound) :
    Writes w w'' (decimalText n) bound := by
  have hpow : 0 < 10 ^ k := Nat.pow_pos (by decide)
  have htext : decimalText n = decimalText quot ++ paddedText k rem := by
    rw [hquot, hrem, ← decimalText_split k (Nat.div_pos hpos hpow) (Nat.mod_lt n hpow),
      Nat.div_add_mod']
  rw [htext]
  exact (h.append h').mono (Nat.max_le.mpr ⟨hroom, hbound⟩)

theorem writeU32Len4_writes (hw : 0 < w.width) (val : UInt32) (h : val.toNat < 10 ^ 4) :
    Writes w (writeU32Len4 val w) (paddedText 4 val.toNat) 4 := by
  have hquot := div100Len4_eq h
  have hrem := sub_mul_toNat val 100 hquot
  have hhead := copyPair_writes hw (div100Len4 val) (by omega)
  have hmod : val.toNat % 100 < 100 := Nat.mod_lt _ (by decide)
  have htail := copyPair_writes (width_pos hhead hw) (val - div100Len4 val * 100) (hrem ▸ hmod)
  have htext : paddedText 4 val.toNat =
      paddedText 2 (div100Len4 val).toNat ++ paddedText 2 (val - div100Len4 val * 100).toNat := by
    rw [hquot, hrem]
    show _ = paddedText 2 (val.toNat / 100) ++ paddedText 2 (val.toNat % 100)
    rw [← paddedText_split 2 2 (val.toNat / 100) (val.toNat % 100) hmod]
    show paddedText 4 val.toNat = paddedText 4 (val.toNat / 100 * 100 + val.toNat % 100)
    rw [Nat.div_add_mod']
  rw [htext]
  exact (hhead.append htail).mono (by rw [length_paddedText]; decide)

theorem writeU32Len8_writes (hw : 0 < w.width) (val : UInt32) (h : val.toNat < 10 ^ 8) :
    Writes w (writeU32Len8 val w) (paddedText 8 val.toNat) 8 := by
  have hquot := div10000Len8_eq h
  have hrem := sub_mul_toNat val 10000 hquot
  have hhead := writeU32Len4_writes hw (div10000Len8 val) (by omega)
  have hmod : val.toNat % 10000 < 10000 := Nat.mod_lt _ (by decide)
  have htail := writeU32Len4_writes (width_pos hhead hw) (val - div10000Len8 val * 10000) (hrem ▸ hmod)
  have htext : paddedText 8 val.toNat = paddedText 4 (div10000Len8 val).toNat ++
      paddedText 4 (val - div10000Len8 val * 10000).toNat := by
    rw [hquot, hrem]
    show _ = paddedText 4 (val.toNat / 10000) ++ paddedText 4 (val.toNat % 10000)
    rw [← paddedText_split 4 4 (val.toNat / 10000) (val.toNat % 10000) hmod]
    show paddedText 8 val.toNat = paddedText 8 (val.toNat / 10000 * 10000 + val.toNat % 10000)
    rw [Nat.div_add_mod']
  rw [htext]
  exact (hhead.append htail).mono (by rw [length_paddedText]; decide)

theorem write3To4_writes (hw : 0 < w.width) (val : UInt32) (hlow : 100 ≤ val.toNat)
    (h : val.toNat < 10 ^ 4) : Writes w (write3To4 val w) (decimalText val.toNat) 4 := by
  have hquot := div100Len4_eq h
  have hrem := sub_mul_toNat val 100 hquot
  have hlt : (div100Len4 val).toNat < 100 := by omega
  have hhead := copyHead_writes hw _ hlt
  have hmod : val.toNat % 100 < 100 := Nat.mod_lt _ (by decide)
  have htail := copyPair_writes (width_pos hhead hw) (val - div100Len4 val * 100) (hrem ▸ hmod)
  have hlength := @length_decimalText_le _ 2 (by decide) hlt
  exact writes_split (k := 2) hquot hrem hlow hhead htail (by decide) (by omega)

theorem write5To6_writes (hw : 0 < w.width) (val : UInt32) (hlow : 10000 ≤ val.toNat)
    (h : val.toNat < 10 ^ 6) : Writes w (write5To6 val w) (decimalText val.toNat) 6 := by
  have hquot := div10000Len6_eq h
  have hrem := sub_mul_toNat val 10000 hquot
  have hlt : (div10000Len6 val).toNat < 100 := by omega
  have hhead := copyHead_writes hw _ hlt
  have hmod : val.toNat % 10000 < 10000 := Nat.mod_lt _ (by decide)
  have htail := writeU32Len4_writes (width_pos hhead hw) (val - div10000Len6 val * 10000) (hrem ▸ hmod)
  have hlength := @length_decimalText_le _ 2 (by decide) hlt
  exact writes_split (k := 4) hquot hrem hlow hhead htail (by decide) (by omega)

theorem write7To8_writes (hw : 0 < w.width) (val : UInt32) (hlow : 1000000 ≤ val.toNat)
    (h : val.toNat < 10 ^ 8) : Writes w (write7To8 val w) (decimalText val.toNat) 8 := by
  have hquot := div10000Len8_eq h
  have hrem := sub_mul_toNat val 10000 hquot
  have hlt : (div10000Len8 val).toNat < 10 ^ 4 := by omega
  have hhead := write3To4_writes hw (div10000Len8 val) (by omega) hlt
  have hmod : val.toNat % 10000 < 10000 := Nat.mod_lt _ (by decide)
  have htail := writeU32Len4_writes (width_pos hhead hw) (val - div10000Len8 val * 10000) (hrem ▸ hmod)
  have hlength := @length_decimalText_le _ 4 (by decide) hlt
  exact writes_split (k := 4) hquot hrem (by omega) hhead htail (by decide) (by omega)

theorem writeU32Len1To8_writes (hw : 0 < w.width) (val : UInt32) (h : val.toNat < 10 ^ 8) :
    Writes w (writeU32Len1To8 val w) (decimalText val.toNat) 8 := by
  unfold writeU32Len1To8
  simp only [UInt32.lt_iff_toNat_lt, UInt32.reduceToNat]
  split_ifs with h2 h4 h6
  · exact (copyHead_writes hw val h2).mono (by decide)
  · exact (write3To4_writes hw val (Nat.not_lt.mp h2) h4).mono (by decide)
  · exact (write5To6_writes hw val (Nat.not_lt.mp h4) h6).mono (by decide)
  · exact write7To8_writes hw val (Nat.not_lt.mp h6) h

theorem writeU64Len5To8_writes (hw : 0 < w.width) (val : UInt32) (hlow : 10000 ≤ val.toNat)
    (h : val.toNat < 10 ^ 8) : Writes w (writeU64Len5To8 val w) (decimalText val.toNat) 8 := by
  unfold writeU64Len5To8
  simp only [UInt32.lt_iff_toNat_lt, UInt32.reduceToNat]
  split_ifs with h6
  · exact (write5To6_writes hw val hlow h6).mono (by decide)
  · exact write7To8_writes hw val (Nat.not_lt.mp h6) h

/-- What is left of a 64-bit number behind a quotient, if it fits into 32 bits. -/
theorem sub_mul_toUInt32 (val quot divisor : UInt64)
    (h : quot.toNat = val.toNat / divisor.toNat) (hdivisor : divisor.toNat < 2 ^ 32)
    (hpos : 0 < divisor.toNat) :
    (val - quot * divisor).toUInt32.toNat = val.toNat % divisor.toNat := by
  have hle := Nat.div_mul_le_self val.toNat divisor.toNat
  have hmul : (quot * divisor).toNat = val.toNat / divisor.toNat * divisor.toNat := by
    rw [UInt64.toNat_mul, h]
    exact Nat.mod_eq_of_lt (hle.trans_lt val.toNat_lt)
  have hsplit := Nat.div_add_mod' val.toNat divisor.toNat
  have hmod := Nat.mod_lt val.toNat hpos
  have hsub : (val - quot * divisor).toNat = val.toNat % divisor.toNat := by
    rw [UInt64.toNat_sub_of_le _ _ (UInt64.le_iff_toNat_le.mpr (by rw [hmul]; exact hle)), hmul]
    omega
  rw [UInt64.toNat_toUInt32, hsub]
  exact Nat.mod_eq_of_lt (hmod.trans hdivisor)

theorem toUInt32_toNat (val : UInt64) (h : val.toNat < 2 ^ 32) :
    val.toUInt32.toNat = val.toNat := by
  rw [UInt64.toNat_toUInt32]
  exact Nat.mod_eq_of_lt h

/-- `write_u64` writes the number, over at most 20 bytes. -/
theorem writeU64_writes (hw : 0 < w.width) (val : UInt64) :
    Writes w (writeU64 val w) (decimalText val.toNat) 20 := by
  have hval := val.toNat_lt
  have hlow := sub_mul_toUInt32 val (val / 100000000) 100000000 (UInt64.toNat_div _ _)
    (by decide) (by decide)
  have hquot : (val / 100000000).toNat = val.toNat / 100000000 := UInt64.toNat_div _ _
  have hmod : val.toNat % 100000000 < 10 ^ 8 := Nat.mod_lt _ (by decide)
  unfold writeU64
  split_ifs with h8 h16
  · have hlt : val.toNat < 10 ^ 8 := UInt64.lt_iff_toNat_lt.mp h8
    have heq := toUInt32_toNat val (by omega)
    have hwrites := writeU32Len1To8_writes hw val.toUInt32 (by omega)
    rw [heq] at hwrites
    exact hwrites.mono (by decide)
  · have hlt : val.toNat < 10 ^ 16 := UInt64.lt_iff_toNat_lt.mp h16
    have hge : 10 ^ 8 ≤ val.toNat := Nat.not_lt.mp fun h => h8 (UInt64.lt_iff_toNat_lt.mpr h)
    have heq := toUInt32_toNat (val / 100000000) (by omega)
    have hhead := writeU32Len1To8_writes hw (val / 100000000).toUInt32 (by omega)
    have htail := writeU32Len8_writes (width_pos hhead hw)
      (val - val / 100000000 * 100000000).toUInt32 (hlow ▸ hmod)
    have hlength := @length_decimalText_le (val / 100000000).toUInt32.toNat 8 (by decide) (by omega)
    exact writes_split (k := 8) (heq.trans hquot) hlow hge hhead htail (by decide) (by omega)
  · have hge : 10 ^ 16 ≤ val.toNat := Nat.not_lt.mp fun h => h16 (UInt64.lt_iff_toNat_lt.mpr h)
    -- The number is `hgh`, four digits of `mid` and eight of `low`.
    have hquot' : (val / 100000000 / 10000).toNat = val.toNat / 100000000 / 10000 := by
      rw [UInt64.toNat_div, hquot]
      rfl
    have heq := toUInt32_toNat (val / 100000000 / 10000) (by omega)
    have hhgh : (val / 100000000 / 10000).toUInt32.toUInt64 = val / 100000000 / 10000 := by
      refine UInt64.toNat_inj.mp ?_
      rw [UInt32.toNat_toUInt64, heq]
    have hmid := sub_mul_toUInt32 (val / 100000000) (val / 100000000 / 10000) 10000
      (UInt64.toNat_div _ _) (by decide) (by decide)
    have hmodMid : (val / 100000000).toNat % 10000 < 10 ^ 4 := Nat.mod_lt _ (by decide)
    dsimp only
    rw [hhgh]
    have hhead := writeU64Len5To8_writes hw (val / 100000000 / 10000).toUInt32 (by omega) (by omega)
    have hmiddle := writeU32Len4_writes (width_pos hhead hw)
      (val / 100000000 - val / 100000000 / 10000 * 10000).toUInt32 (hmid ▸ hmodMid)
    have hlength := @length_decimalText_le (val / 100000000 / 10000).toUInt32.toNat 8 (by decide)
      (by omega)
    have hupper : Writes w _ (decimalText (val / 100000000).toNat) 12 :=
      writes_split (k := 4) (heq.trans (UInt64.toNat_div _ _)) hmid (by omega) hhead hmiddle
        (by decide) (by omega)
    have htail := writeU32Len8_writes (width_pos hupper hw)
      (val - val / 100000000 * 100000000).toUInt32 (hlow ▸ hmod)
    have hlength' := @length_decimalText_le (val / 100000000).toNat 12 (by decide) (by omega)
    exact writes_split (k := 8) hquot hlow (by omega) hupper htail (by decide) (by omega)

/-- `write_u32` writes the number, over at most 10 bytes. -/
theorem writeU32_writes (hw : 0 < w.width) (val : UInt32) :
    Writes w (writeU32 val w) (decimalText val.toNat) 10 := by
  have hval := val.toNat_lt
  unfold writeU32
  split_ifs with h8
  · exact (writeU32Len1To8_writes hw val (UInt32.lt_iff_toNat_lt.mp h8)).mono (by decide)
  · have hge : 10 ^ 8 ≤ val.toNat := Nat.not_lt.mp fun h => h8 (UInt32.lt_iff_toNat_lt.mpr h)
    have hquot : (val / 100000000).toUInt64.toNat = val.toNat / 100000000 := by
      rw [UInt32.toNat_toUInt64, UInt32.toNat_div]
      rfl
    have hlow := sub_mul_toUInt32 val.toUInt64 ((val / 100000000).toUInt64) 100000000
      (by rw [hquot, UInt32.toNat_toUInt64]; rfl) (by decide) (by decide)
    rw [UInt32.toNat_toUInt64] at hlow
    have hmod : val.toNat % 100000000 < 10 ^ 8 := Nat.mod_lt _ (by decide)
    have heq := toUInt32_toNat ((val / 100000000).toUInt64) (by omega)
    have hhead := copyHead_writes hw (val / 100000000).toUInt64.toUInt32 (by omega)
    have htail := writeU32Len8_writes (width_pos hhead hw)
      (val.toUInt64 - (val / 100000000).toUInt64 * 100000000).toUInt32 (hlow ▸ hmod)
    have hlength := @length_decimalText_le (val / 100000000).toUInt64.toUInt32.toNat 2 (by decide)
      (by omega)
    exact writes_split (k := 8) (heq.trans hquot) hlow hge hhead htail (by decide) (by omega)

/-- `'0' + (u8)aa`. -/
theorem push_leading (hw : 0 < w.width) {d : UInt32} (hd : d.toNat < 10) :
    Writes w (w.push (0x30 + d.toUInt8).toNat) (decimalText d.toNat) 1 := by
  have hchar : (0x30 + d.toUInt8).toNat = digitChar d.toNat := by
    rw [UInt8.toNat_add, UInt32.toNat_toUInt8]
    show (0x30 + d.toNat % 2 ^ 8) % 2 ^ 8 = 0x30 + d.toNat
    omega
  have hbyte : 256 ≤ 256 ^ w.width := Nat.le_self_pow (by omega) 256
  have hpush := Writes.push w ((UInt8.toNat_lt (0x30 + d.toUInt8)).trans_le hbyte)
  rw [decimalText_digit hd]
  rwa [hchar] at hpush ⊢

/-- `write_u16` writes the number, over at most 5 bytes. -/
theorem writeU16_writes (hw : 0 < w.width) (val : UInt16) :
    Writes w (writeU16 val w) (decimalText val.toNat) 5 := by
  have hval := val.toNat_lt
  have hnat : val.toUInt32.toNat = val.toNat := UInt16.toNat_toUInt32 val
  unfold writeU16 writeU16Len1To5
  split_ifs with h2 h4
  · have hlt : val.toNat < 100 := UInt16.lt_iff_toNat_lt.mp h2
    exact hnat ▸ (copyHead_writes hw val.toUInt32 (by omega)).mono (by decide)
  · have hge : 100 ≤ val.toNat := Nat.not_lt.mp fun h => h2 (UInt16.lt_iff_toNat_lt.mpr h)
    have hlt : val.toNat < 10000 := UInt16.lt_iff_toNat_lt.mp h4
    exact hnat ▸ (write3To4_writes hw val.toUInt32 (by omega) (by omega)).mono (by decide)
  · have hge : 10000 ≤ val.toNat := Nat.not_lt.mp fun h => h4 (UInt16.lt_iff_toNat_lt.mpr h)
    have hquot := @div10000Len6_eq val.toUInt32 (by omega)
    have hrem := sub_mul_toNat val.toUInt32 10000 hquot
    have hmod : val.toUInt32.toNat % 10000 < 10000 := Nat.mod_lt _ (by decide)
    have hdigit : (div10000Len6 val.toUInt32).toNat < 10 := by omega
    have hhead := push_leading hw hdigit
    have hlength := @length_decimalText_le _ 1 (by decide) hdigit
    have htail := writeU32Len4_writes (width_pos hhead hw)
      (val.toUInt32 - div10000Len6 val.toUInt32 * 10000) (hrem ▸ hmod)
    rw [← hnat]
    exact writes_split (k := 4) hquot hrem (by omega) hhead htail (by decide)
      (by omega)

/-- `write_u8` writes the number, over at most 3 bytes. -/
theorem writeU8_writes (hw : 0 < w.width) (val : UInt8) :
    Writes w (writeU8 val w) (decimalText val.toNat) 3 := by
  have hval := val.toNat_lt
  have hnat : val.toUInt32.toNat = val.toNat := UInt8.toNat_toUInt32 val
  unfold writeU8 writeU8Len1To3
  split_ifs with h2
  · have hlt : val.toNat < 100 := UInt8.lt_iff_toNat_lt.mp h2
    exact hnat ▸ (copyHead_writes hw val.toUInt32 (by omega)).mono (by decide)
  · have hge : 100 ≤ val.toNat := Nat.not_lt.mp fun h => h2 (UInt8.lt_iff_toNat_lt.mpr h)
    have hquot := @div100Len4_eq val.toUInt32 (by omega)
    have hrem := sub_mul_toNat val.toUInt32 100 hquot
    have hmod : val.toUInt32.toNat % 100 < 100 := Nat.mod_lt _ (by decide)
    have hdigit : (div100Len4 val.toUInt32).toNat < 10 := by omega
    have hhead := push_leading hw hdigit
    have hlength := @length_decimalText_le _ 1 (by decide) hdigit
    have htail := copyPair_writes (width_pos hhead hw)
      (val.toUInt32 - div100Len4 val.toUInt32 * 100) (hrem ▸ hmod)
    rw [← hnat]
    exact writes_split (k := 2) hquot hrem (by omega) hhead htail (by decide)
      (by omega)

end SsrJson.Output
