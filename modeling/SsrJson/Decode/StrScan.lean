import SsrJson.Decode.Source
import SsrJson.Library.Lanes
import SsrJson.Object.Value

/-!
# Reading a string with vectors

The readers shared by all string decoders over `str` sources: load one register or four, mask the
units that end a run of plain characters, find the first one, and look at it. Every instruction
set has its own width, and its own way of reading the last few units, which fill no register.
-/

namespace SsrJson.Decode

/-- The instruction sets the decoders are compiled for. -/
inductive Isa where
  | sse
  | neon
  | avx2
  | avx512
  deriving DecidableEq, Repr

/-- `_CompileVectorBits`. -/
def Isa.vectorBits : Isa → Nat
  | .sse => 128
  | .neon => 128
  | .avx2 => 256
  | .avx512 => 512

/-- `READ_BATCH_COUNT`. -/
def readBatchCount (isa : Isa) (kind : StrKind) : Nat := isa.vectorBits / 8 / kind.size

/-! ## Registers -/

/-- The lanes of a register. -/
abbrev Vec := Nat → Nat

namespace Vec

/-- `setzero`. -/
def setzero : Vec := fun _ => 0

/-- `unsigned_max`. -/
def unsignedMax (v w : Vec) : Vec := fun i => max (v i) (w i)

/-- `low_mask`: keep the first `count` lanes. -/
def lowMask (v : Vec) (count : Nat) : Vec := fun i => if i < count then v i else 0

/-- `high_mask`: keep the last `count` of `width` lanes. -/
def highMask (width : Nat) (v : Vec) (count : Nat) : Vec := fun i =>
  if width ≤ i + count then v i else 0

/-- `runtime_byte_rshift`, by whole lanes of a register of `width` lanes. -/
def rshift (width : Nat) (v : Vec) (count : Nat) : Vec := fun i =>
  if i + count < width then v (i + count) else 0

/-- `checkmax`: no lane is above the bound. -/
def checkmax (width : Nat) (v : Vec) (bound : Nat) : Bool :=
  (List.range width).all fun i => v i ≤ bound

end Vec

/-- What `get_escape_mask` sets a lane for: a quote, a backslash or a control character. -/
def isEscapeUnit (u : Nat) : Bool := u == 0x22 || u == 0x5C || u < 0x20

/-! ## Escapes -/

/-- `hex_conv_table`. -/
def hexConvTable : List Nat :=
  List.replicate 48 0xF0 ++ [0x00, 0x01, 0x02, 0x03, 0x04, 0x05, 0x06, 0x07, 0x08, 0x09] ++
    List.replicate 7 0xF0 ++ [0x0A, 0x0B, 0x0C, 0x0D, 0x0E, 0x0F] ++ List.replicate 26 0xF0 ++
    [0x0A, 0x0B, 0x0C, 0x0D, 0x0E, 0x0F] ++ List.replicate 153 0xF0

/-- The entry of `hex_conv_table` for a unit of one byte. -/
def hexConv (u : Nat) : Nat := hexConvTable.getD (u % 256) 0xF0

section Source

variable (isa : Isa) (kind : StrKind) (src : Source)

/-- `verify_escape_hex`: four units are there, and for wide sources none is above one byte. -/
def verifyEscapeHex (pos offset : Nat) : Bool :=
  pos + 4 + offset ≤ src.len &&
    (kind.size == 1 || (List.range 4).all fun i => src.read (pos + offset + i) ≤ 0xFF)

/-- `to_hex`: the unit four hexadecimal digits stand for. The arithmetic is on 16 bits. -/
def toHex (pos : Nat) : Option Nat :=
  let c0 := hexConv (src.read pos)
  let c1 := hexConv (src.read (pos + 1))
  let c2 := hexConv (src.read (pos + 2))
  let c3 := hexConv (src.read (pos + 3))
  let t0 := c0 <<< 8 ||| c2
  let t1 := c1 <<< 8 ||| c3
  if (t0 ||| t1) &&& 0xF0F0 = 0 then some ((t0 <<< 4 ||| t1) % 0x10000) else none

/-- `verify_escape_hex`, then `to_hex`. -/
def readHex (pos offset : Nat) : Option Nat :=
  if verifyEscapeHex kind src pos offset then toHex src (pos + offset) else none

/-- The case `'u'` of `do_decode_escape`. -/
def decodeUnicodeEscape (pos : Nat) : Option (Nat × Nat) :=
  match readHex kind src pos 2 with
  | none => none
  | some hi =>
    if hi &&& 0xF800 ≠ 0xD800 then some (hi, 6)
    else if hi &&& 0xFC00 ≠ 0xD800 then none
    else if src.len < pos + 12 ∨ src.read (pos + 6) ≠ 0x5C ∨ src.read (pos + 7) ≠ 0x75 then none
    else
      match readHex kind src pos 8 with
      | none => none
      | some lo =>
        if lo &&& 0xFC00 ≠ 0xDC00 then none
        else some (((hi - 0xD800) <<< 10 ||| (lo - 0xDC00)) + 0x10000, 12)

/-- `do_decode_escape` at a backslash: the character and the number of units the escape takes. -/
def doDecodeEscape (pos : Nat) : Option (Nat × Nat) :=
  let c := src.read (pos + 1)
  if c = 0x22 then some (0x22, 2)
  else if c = 0x5C then some (0x5C, 2)
  else if c = 0x2F then some (0x2F, 2)
  else if c = 0x62 then some (0x08, 2)
  else if c = 0x66 then some (0x0C, 2)
  else if c = 0x6E then some (0x0A, 2)
  else if c = 0x72 then some (0x0D, 2)
  else if c = 0x74 then some (0x09, 2)
  else if c = 0x75 then decodeUnicodeEscape kind src pos
  else none

/-! ## The readers -/

/-- `DECODE_LOOPSTATE_*`. -/
inductive LoopState where
  | continue
  | end
  | escape (val size : Nat)
  | invalid
  deriving DecidableEq, Repr

/-- What a reader leaves: how many plain units it passed, its verdict, the cursor, and the largest
units met so far in each lane. -/
structure Scan where
  doneCount : Nat
  state : LoopState
  cur : Nat
  maxvec : Vec

/-- What the unit at the end of a run of plain units says. -/
def loopState (pos : Nat) : LoopState :=
  let unicode := src.read pos
  if unicode = 0x22 then .end
  else if unicode = 0x5C then
    match doDecodeEscape kind src pos with
    | some (val, size) => .escape val size
    | none => .invalid
  else .invalid

/-- An unaligned load. -/
def loadVec (pos : Nat) : Vec := fun i => src.read (pos + i)

/-- Whether the units met are recorded (`track_max`); ASCII sources do without. -/
def trackMax : Bool := kind ≠ .ascii

/-- `unsigned_max` into the record, where one is kept. -/
def track (maxvec vec : Vec) : Vec := if trackMax kind then maxvec.unsignedMax vec else maxvec

/-- `_decode_str_loop_decoder_impl` for one register and `_decode_str_loop4_decoder_impl` for
four: the registers are asked in order, and each one passed goes into the record. -/
def decodeStrLoop (cur : Nat) : (remaining done : Nat) → Vec → Scan
  | 0, done, maxvec => ⟨done, .continue, cur + done, maxvec⟩
  | remaining + 1, done, maxvec =>
    let batch := readBatchCount isa kind
    let vec := loadVec src (cur + done)
    match firstLane batch fun i => isEscapeUnit (vec i) with
    | none => decodeStrLoop cur remaining (done + batch) (track kind maxvec vec)
    | some i =>
      ⟨done + i, loopState kind src (cur + done + i), cur + done + i,
        track kind maxvec (vec.lowMask i)⟩

/-- The register that ends at the end of the source. -/
def loadVecBack : Vec :=
  let batch := readBatchCount isa kind
  fun i => src.readBack (src.len + i) batch

/-- `_decode_str_trailing_read_src_impl`: the last units of the source as each instruction set
brings them into a register. -/
def trailingVec (cur : Nat) : Vec :=
  let batch := readBatchCount isa kind
  let trailingLen := src.len - cur
  match isa with
  | .avx512 => fun i => if i < trailingLen then src.read (cur + i) else 0
  | .avx2 => (loadVecBack isa kind src).highMask batch trailingLen
  | .sse | .neon => (loadVecBack isa kind src).rshift batch (batch - trailingLen)

/-- The mask that belongs to `trailingVec`. -/
def trailingMask (cur : Nat) : Nat → Bool :=
  let batch := readBatchCount isa kind
  let trailingLen := src.len - cur
  match isa with
  | .avx2 => fun i => batch ≤ i + trailingLen && isEscapeUnit (loadVecBack isa kind src i)
  | .avx512 | .sse | .neon => fun i =>
    i < trailingLen && isEscapeUnit (trailingVec isa kind src cur i)

/-- `_decode_str_trailing_decoder_impl`. A source that ends without a quote leaves the cursor one
register further on, past the end. -/
def decodeStrTrailing (cur : Nat) (maxvec : Vec) : Scan :=
  let batch := readBatchCount isa kind
  match firstLane batch (trailingMask isa kind src cur) with
  | none => ⟨0, .invalid, cur + batch, maxvec⟩
  | some i =>
    let doneCount := if isa = .avx2 then i - (batch - (src.len - cur)) else i
    ⟨doneCount, loopState kind src (cur + doneCount), cur + doneCount,
      track kind maxvec ((trailingVec isa kind src cur).lowMask i)⟩

/-- `CAN_LOOP4`, `CAN_LOOP` and the last units, in this order. A loop once left is not entered
again, since the cursor only moves on, so that one test a round stands for the three loops. -/
def scanNext (four : Bool) (cur : Nat) (maxvec : Vec) : Scan :=
  let batch := readBatchCount isa kind
  if four = true ∧ cur + 4 * batch ≤ src.len then decodeStrLoop isa kind src cur 4 0 maxvec
  else if cur + batch ≤ src.len then decodeStrLoop isa kind src cur 1 0 maxvec
  else decodeStrTrailing isa kind src cur maxvec

end Source

end SsrJson.Decode
