import SsrJson.Decode.Str
import SsrJson.Decode.Utf8Tables

/-!
# Decoding UTF-8 in blocks

`decode_bytes_block` brings the characters of a string in a `bytes` source into the scratch buffer,
sixteen bytes at a time where they form a pattern it knows, and byte by byte where they do not. It
is compiled for characters of one, two and four bytes; which one runs is the level of the writer.
-/

namespace SsrJson.Decode

section Source

variable (src : Source)

/-! ## One sequence -/

/-- `byte_load_4`. -/
def byteLoad4 (cur : Nat) : Nat :=
  src.read cur + 256 * (src.read (cur + 1) + 256 * (src.read (cur + 2) + 256 * src.read (cur + 3)))

/-- `utf8_is_seq_2`. -/
def utf8IsSeq2 (uni : Nat) : Bool :=
  uni &&& 0x0000C0E0 = 0x000080C0 && uni &&& 0x0000001E ≠ 0

/-- `utf8_is_seq_3`. -/
def utf8IsSeq3 (uni : Nat) : Bool :=
  let tmp := uni &&& 0x0000200F
  uni &&& 0x00C0C0F0 = 0x008080E0 && tmp ≠ 0 && tmp ≠ 0x0000200D

/-- `utf8_is_seq_4`. -/
def utf8IsSeq4 (uni : Nat) : Bool :=
  let tmp := uni &&& 0x00003007
  uni &&& 0xC0C0C0F8 = 0x808080F0 && tmp ≠ 0 &&
    (tmp &&& 0x00000004 = 0 || tmp &&& 0x00003003 = 0)

/-- `to_b2_unicode`. -/
def toB2Unicode (uni : Nat) : Nat := (uni &&& 0x1F) <<< 6 ||| (uni &&& 0x3F00) >>> 8

/-- `to_b3_unicode`. -/
def toB3Unicode (uni : Nat) : Nat :=
  (uni &&& 0x0F) <<< 12 ||| (uni &&& 0x3F00) >>> 2 ||| (uni &&& 0x3F0000) >>> 16

/-- `to_b4_unicode`. -/
def toB4Unicode (uni : Nat) : Nat :=
  (uni &&& 0x07) <<< 18 ||| (uni &&& 0x3F00) <<< 4 ||| (uni &&& 0x3F0000) >>> 10 |||
    (uni &&& 0x3F000000) >>> 24

/-- `utf8_lead_min_ucs_level`. -/
def utf8LeadMinUcsLevel (c : Nat) : Nat := if c < 0xC4 then 1 else if c < 0xF0 then 2 else 4

/-- `char_is_ascii_stop`. -/
def charIsAsciiStop (c : Nat) : Bool := charIsType c 0x0C

/-! ## Byte by byte -/

/-- The states a block is left in. -/
inductive BlockState where
  | continue
  | end
  | escape
  | promote
  | invalid
  deriving DecidableEq, Repr

/-- `while (src < limit && !char_is_ascii_stop(*src)) *dst++ = *src++`. -/
def asciiRun (limit : Nat) : (fuel : Nat) → Writer → Nat → Writer × Nat
  | 0, w, cur => (w, cur)
  | fuel + 1, w, cur =>
    if cur < limit ∧ charIsAsciiStop (src.read cur) = false then
      asciiRun limit fuel (w.push (src.read cur)) (cur + 1)
    else (w, cur)

/-- `while (utf8_is_seq_n(uni))`: sequences of one length, one behind the other. -/
def seqRun (accept : Nat → Bool) (toUnicode : Nat → Nat) (width : Nat) :
    (fuel : Nat) → Writer → Nat → Writer × Nat
  | 0, w, cur => (w, cur)
  | fuel + 1, w, cur =>
    let uni := byteLoad4 src cur
    if accept uni then seqRun accept toUnicode width fuel (w.push (toUnicode uni)) (cur + width)
    else (w, cur)

/-- The runs of two bytes that fit one byte. -/
def seqRun2U8 (w : Writer) (cur : Nat) : Writer × Nat :=
  seqRun src (fun uni => utf8IsSeq2 uni && toB2Unicode uni < 0x100) toB2Unicode 2 src.len w cur

/-- `while (utf8_is_seq_2(uni))`. -/
def seqRun2 (w : Writer) (cur : Nat) : Writer × Nat :=
  seqRun src utf8IsSeq2 toB2Unicode 2 src.len w cur

/-- `while (utf8_is_seq_3(uni, tmp))`. -/
def seqRun3 (w : Writer) (cur : Nat) : Writer × Nat :=
  seqRun src utf8IsSeq3 toB3Unicode 3 src.len w cur

/-- `while (utf8_is_seq_4(uni, tmp))`. -/
def seqRun4 (w : Writer) (cur : Nat) : Writer × Nat :=
  seqRun src utf8IsSeq4 toB4Unicode 4 src.len w cur

/-- The sequences read at one byte a character, if there are any. -/
def seqsU8 (w : Writer) (start : Nat) : Option (Writer × Nat) :=
  let (w, cur) := seqRun2U8 src w start
  if cur ≠ start then some ({ w with isAscii := false }, cur) else none

/-- The sequences read at two bytes a character, if there are any. -/
def seqsU16 (w : Writer) (start : Nat) : Option (Writer × Nat) :=
  let (w, cur) := seqRun3 src w start
  if byteLoad4 src cur &&& 0x80 = 0 then some (w, cur)
  else
    let (w, cur) := seqRun2 src w cur
    if cur ≠ start then some (w, cur) else none

/-- The sequences read at four bytes a character, if there are any. -/
def seqsU32 (w : Writer) (start : Nat) : Option (Writer × Nat) :=
  let (w, cur) := seqRun4 src w start
  if byteLoad4 src cur &&& 0x80 = 0 then some (w, cur)
  else
    let (w, cur) := seqRun3 src w cur
    if byteLoad4 src cur &&& 0x80 = 0 then some (w, cur)
    else
      let (w, cur) := seqRun2 src w cur
      if cur ≠ start then some (w, cur) else none

/-- The sequences a level reads. -/
def seqs (w : Writer) (start : Nat) : Option (Writer × Nat) :=
  if w.level = 1 then seqsU8 src w start
  else if w.level = 2 then seqsU16 src w start
  else seqsU32 src w start

/-- Whether a sequence that could not be read needs wider characters. -/
def needsPromote (level uni : Nat) : Bool :=
  if level = 1 then utf8IsSeq2 uni || utf8IsSeq3 uni || utf8IsSeq4 uni
  else if level = 2 then utf8IsSeq4 uni
  else false

/-- `decode_bytes_block_scalar`. -/
def decodeBytesBlockScalar (limit : Nat) : (fuel : Nat) → Writer → Nat → BlockState × Writer × Nat
  | 0, w, cur => (.continue, w, cur)
  | fuel + 1, w, cur =>
    let (w, cur) := asciiRun src limit (src.len - cur) w cur
    if limit ≤ cur then (.continue, w, cur)
    else
      let c := src.read cur
      if c < 0x80 then
        if c = 0x22 then (.end, w, cur)
        else if c = 0x5C then (.escape, w, cur)
        else (.invalid, w, cur)
      else
        match seqs src w cur with
        | some (w, cur) => decodeBytesBlockScalar limit fuel w cur
        | none =>
          if needsPromote w.level (byteLoad4 src cur) then (.promote, w, cur)
          else (.invalid, w, cur)

/-! ## Sixteen bytes -/

end Source

/-- `utf8_has_stop_128`. -/
def utf8HasStop (v : Vec) : Bool := (List.range 16).any fun i => isEscapeUnit (v i)

/-- `utf8_all_ascii_128`. -/
def utf8AllAscii (v : Vec) : Bool := (List.range 16).all fun i => v i < 0x80

/-- `utf8_any_byte_above_128`. -/
def utf8AnyByteAbove (v : Vec) (limit : Nat) : Bool := (List.range 16).any fun i => limit < v i

/-- The test for a continuation byte in `utf8_end_of_cp_bitmask_128`. -/
def isContByte (b : Nat) : Bool := b &&& 0xC0 = 0x80

/-- `utf8_end_of_cp_bitmask_128`: whether a code point ends with a byte, the seventeenth being the
one behind the block. -/
def utf8EndOfCp (v : Vec) : Nat → Bool := fun i => !isContByte (v (i + 1))

/-- The low bits of a mask as a number. -/
def maskBits (mask : Nat → Bool) (count : Nat) : Nat := Nat.ofBits fun i : Fin count => mask i

/-- `shuffle_128`; an index with its high bit set selects zero. -/
def shuffle (v : Vec) (indices : List Nat) : Vec := fun i =>
  let k := indices.getD i 0x80
  if k < 0x80 then v (k % 16) else 0

/-- The lanes of two bytes. -/
def asU16 (v : Vec) : Vec := fun i => v (2 * i) + 256 * v (2 * i + 1)

/-- The lanes of four bytes. -/
def asU32 (v : Vec) : Vec := fun i =>
  v (4 * i) + 256 * (v (4 * i + 1) + 256 * (v (4 * i + 2) + 256 * v (4 * i + 3)))

/-- `_UTF8_SHUF_SWAP2`. -/
def shufSwap2 : List Nat := [1, 0, 3, 2, 5, 4, 7, 6, 9, 8, 11, 10, 13, 12, 15, 14]

/-- `_UTF8_SHUF_REV3`. -/
def shufRev3 : List Nat := [2, 1, 0, 0xFF, 5, 4, 3, 0xFF, 8, 7, 6, 0xFF, 11, 10, 9, 0xFF]

/-- `_UTF8_SHUF_REV4`. -/
def shufRev4 : List Nat := [3, 2, 1, 0, 7, 6, 5, 4, 11, 10, 9, 8, 15, 14, 13, 12]

/-- `utf8_compose_upto2_128`, on one lane. -/
def composeUpto2 (p : Nat) : Nat := p &&& 0x007F ||| (p &&& 0x1F00) >>> 2

/-- `utf8_compose_upto3_128`, on one lane. -/
def composeUpto3 (p : Nat) : Nat :=
  p &&& 0x0000007F ||| (p &&& 0x00003F00) >>> 2 ||| (p &&& 0x000F0000) >>> 4

/-- `utf8_compose_4_128`, on one lane. -/
def compose4 (p : Nat) : Nat :=
  p &&& 0x0000003F ||| (p &&& 0x00003F00) >>> 2 ||| (p &&& 0x003F0000) >>> 4 |||
    (p &&& 0x07000000) >>> 6

/-- `utf8_seq2x8_has_error_128`. -/
def seq2x8HasError (v : Vec) : Bool :=
  (List.range 16).any fun i =>
    v i < (if i % 2 = 0 then 0xC2 else 0x80) || (if i % 2 = 0 then 0xDF else 0xBF) < v i

/-- `utf8_seq3x4_has_error_128`. -/
def seq3x4HasError (v cp : Vec) : Bool :=
  (List.range 4).any fun k =>
    v (3 * k) &&& 0xF0 ≠ 0xE0 || max (cp k) 0x7FF = 0x7FF || cp k &&& 0xF800 = 0xD800

/-- `utf8_seq4x4_has_error_128`: the subtraction wraps around. -/
def seq4x4HasError (v cp : Vec) : Bool :=
  (List.range 4).any fun k =>
    v (4 * k) &&& 0xF8 ≠ 0xF0 || max ((cp k + 2 ^ 32 - 0x10000) % 2 ^ 32) 0xFFFFF ≠ 0xFFFFF

/-- `t_prev_high`. -/
def prevHighTable : List Nat :=
  [0x02, 0x02, 0x02, 0x02, 0x02, 0x02, 0x02, 0x02, 0x80, 0x80, 0x80, 0x80, 0x21, 0x01, 0x15, 0x49]

/-- `t_prev_low`. -/
def prevLowTable : List Nat :=
  [0xE7, 0xA3, 0x83, 0x83, 0x8B, 0xCB, 0xCB, 0xCB, 0xCB, 0xCB, 0xCB, 0xCB, 0xCB, 0xDB, 0xCB, 0xCB]

/-- `t_cur_high`. -/
def curHighTable : List Nat :=
  [0x01, 0x01, 0x01, 0x01, 0x01, 0x01, 0x01, 0x01, 0xE6, 0xAE, 0xBA, 0xBA, 0x01, 0x01, 0x01, 0x01]

/-- The errors two adjacent bytes show. -/
def pairErrors (prev cur : Nat) : Nat :=
  prevHighTable.getD (prev >>> 4) 0 &&& prevLowTable.getD (prev &&& 0x0F) 0 &&&
    curHighTable.getD (cur >>> 4) 0

/-- `byte_lshift_128`: the byte so many places before each byte, and zero before the block. -/
def byteLshift (v : Vec) (count : Nat) : Vec := fun i => if i < count then 0 else v (i - count)

/-- `utf8_block_has_error_128`. -/
def utf8BlockHasError (v : Vec) : Bool :=
  (List.range 16).any fun i =>
    let must23 := (byteLshift v 2 i - 0x60) ||| (byteLshift v 3 i - 0x70)
    (must23 &&& 0x80) ^^^ pairErrors (byteLshift v 1 i) (v i) ≠ 0

/-- The entry of `_Utf8ToUcsIndex` for a mask. -/
def utf8ToUcsIndexEntry (mask : Nat) : Nat × Nat :=
  (utf8ToUcsIndex.getD (mask / 64) []).getD (mask % 64) (0, 0)

/-- The number of bytes above `0x7F`. -/
def countNonAscii (v : Vec) : Nat := ((List.range 16).filter fun i => 0x80 ≤ v i).length

/-- What the vector patterns make of a block: the characters in their lanes, how many of them are
kept, and how many bytes they take; or an error. -/
inductive Pattern where
  | chars (lanes : Vec) (stored kept taken : Nat)
  | error
  | none

/-- The patterns of `decode_bytes_block`, for blocks that are not all ASCII. -/
def blockPattern (isa : Isa) (level : Nat) (v : Vec) : Pattern :=
  let eocp := utf8EndOfCp v
  if (List.range 16).all (fun i => eocp i = (i % 2 == 1)) then
    if seq2x8HasError v then .error
    else .chars (fun k => composeUpto2 (asU16 (shuffle v shufSwap2) k)) 8 8 16
  else if level = 4 ∧ (List.range 16).all (fun i => eocp i = (i % 4 == 3)) then
    let composed := fun k => compose4 (asU32 (shuffle v shufRev4) k)
    if seq4x4HasError v composed then .error else .chars composed 4 4 16
  else if level ≠ 1 ∧ (List.range 12).all (fun i => eocp i = (i % 3 == 2)) then
    let composed := fun k => composeUpto3 (asU32 (shuffle v shufRev3) k)
    if seq3x4HasError v composed then .error else .chars composed 4 4 12
  else if level ≠ 4 ∧ isa ≠ .neon ∧ 12 ≤ countNonAscii v ∧ utf8AnyByteAbove v 0xDF = false then
    if utf8BlockHasError v then .error
    else
      let entry := utf8ToUcsIndexEntry (maskBits eocp 12)
      let indices := utf8ToUcsShuffle.getD entry.1 []
      .chars (fun k => composeUpto2 (asU16 (shuffle v indices) k)) 8 6 entry.2
  else .none

/-- `_PromoteAbove`. -/
def promoteAbove (level : Nat) : Nat := if level = 1 then 0xC3 else 0xEF

/-- `decode_bytes_block`. The budget for reading byte by byte doubles from 32 up to 256. -/
def decodeBytesBlock (isa : Isa) (src : Source) :
    (fuel budget : Nat) → Writer → Nat → BlockState × Writer × Nat
  | 0, _, w, cur => (.continue, w, cur)
  | fuel + 1, budget, w, cur =>
    let v := loadVec src cur
    if utf8HasStop v then decodeBytesBlockScalar src (src.len + 1) (src.len + 1) w cur
    else if utf8AllAscii v then
      decodeBytesBlock isa src fuel budget ((w.put 0 16 v).advance 16) (cur + 16)
    else if w.level ≠ 4 ∧ utf8AnyByteAbove v (promoteAbove w.level) then
      decodeBytesBlockScalar src (src.len + 1) (src.len + 1) w cur
    else
      let w := if w.level = 1 then { w with isAscii := false } else w
      match blockPattern isa w.level v with
      | .error => (.invalid, w, cur)
      | .chars lanes stored kept taken =>
        decodeBytesBlock isa src fuel 32 ((w.put 0 stored lanes).advance kept) (cur + taken)
      | .none =>
        match decodeBytesBlockScalar src (cur + budget) (src.len + 1) w cur with
        | (.continue, w, cur) =>
          decodeBytesBlock isa src fuel (if budget < 256 then budget * 2 else budget) w cur
        | result => result

end SsrJson.Decode
