import SsrJson.Decode.KeyCache
import SsrJson.Library.ByteBuffer

/-!
# The string decoders for `str` sources

`decode_str` passes the plain characters of a string without copying them. At the first escape it
goes on in `decode_str_with_escape`, which copies into a scratch buffer: bytes first, then two and
four bytes for each character from the first escape on that needs them. What was copied stays as
it is until the string is made, so the buffer holds up to three parts of different widths.
-/

namespace SsrJson.Decode

section Source

variable (isa : Isa) (kind : StrKind) (src : Source)

/-- How the readers without copying end. -/
inductive FastEnd where
  | done
  | escape (val size : Nat)
  | failed
  deriving DecidableEq, Repr

/-- `decode_str_fast_loop4`, `decode_str_fast_loop` and `decode_str_fast_trailing` as `decode_str`
runs them. Keys go without the loop of four. -/
def decodeStrFast (isKey : Bool) : (fuel cur : Nat) → Vec → FastEnd × Nat × Vec
  | 0, cur, maxvec => (.failed, cur, maxvec)
  | fuel + 1, cur, maxvec =>
    if src.len ≤ cur then (.failed, cur, maxvec)
    else
      let scan := scanNext isa kind src (!isKey) cur maxvec
      match scan.state with
      | .continue => decodeStrFast isKey fuel scan.cur scan.maxvec
      | .end => (.done, scan.cur, scan.maxvec)
      | .escape val size => (.escape val size, scan.cur, scan.maxvec)
      | .invalid => (.failed, scan.cur, scan.maxvec)

/-! ## The scratch buffer -/

/-- The scratch buffer with its writer: the parts of one, two and four bytes a character, in this
order, of which the one of `level` bytes grows. -/
structure Writer where
  level : Nat
  buffer : ByteBuffer
  u8size : Nat
  u16size : Nat
  u32size : Nat
  /-- `is_ascii`, kept for ASCII sources. -/
  isAscii : Bool
  /-- `max_escape`, kept for the other sources. -/
  maxEscape : Nat

namespace Writer

/-- The index of the next character, at any width. -/
def pos (w : Writer) : Nat := w.u8size + w.u16size + w.u32size

/-- Store some lanes `offset` characters behind the writer, at its width. -/
def put (w : Writer) (offset count : Nat) (lanes : Nat → Nat) : Writer :=
  { w with buffer := w.buffer.store w.level (w.pos + offset) count lanes }

/-- Move the writer on. -/
def advance (w : Writer) (count : Nat) : Writer :=
  if w.level = 1 then { w with u8size := w.u8size + count }
  else if w.level = 2 then { w with u16size := w.u16size + count }
  else { w with u32size := w.u32size + count }

/-- Go on with wider characters where `val` needs them. -/
def promote (w : Writer) (val : Nat) : Writer :=
  if w.level = 1 then
    if val < 0x100 then w else if val < 0x10000 then { w with level := 2 } else { w with level := 4 }
  else if w.level = 2 then if val < 0x10000 then w else { w with level := 4 }
  else w

/-- `*writer++ = val`. -/
def push (w : Writer) (val : Nat) : Writer := (w.put 0 1 fun _ => val).advance 1

/-- `process_escape_ascii_u8`, `process_escape_ascii_u16` and `process_escape_ascii_u32`. -/
def processEscapeAscii (w : Writer) (val : Nat) : Writer :=
  let nonAscii := w.level = 1 ∧ 0x80 ≤ val ∧ val < 0x100
  ({ w with isAscii := if nonAscii then false else w.isAscii }.promote val).push val

/-- `process_escape_ucs1_u8`, `process_escape_ucs1_u16`, `process_escape_ucs2_u16` and
`process_escape_to_u32`. -/
def processEscapeUcs (w : Writer) (val : Nat) : Writer :=
  ({ w with maxEscape := max w.maxEscape val }.promote val).push val

end Writer

/-- The escape processing of a source kind. -/
def processEscape (w : Writer) (val : Nat) : Writer :=
  if kind = .ascii then w.processEscapeAscii val else w.processEscapeUcs val

/-- The stores of `decode_str_copy_loop` (one register) and `decode_str_copy_loop4`. -/
def copyLoop (cur count : Nat) (w : Writer) : Writer :=
  let batch := readBatchCount isa kind
  (List.range count).foldl
    (fun w i => w.put (i * batch) batch (loadVec src (cur + i * batch))) w

/-- The stores of `__avx2_trailing_cvt_same_size`: half a register from the start of the trailing
units, and half a register that ends with them, which is stored first. -/
def avx2TrailingSameSize (cur : Nat) (w : Writer) : Writer :=
  let half := readBatchCount isa kind / 2
  let len := src.len - cur
  let shift := if len < half then half - len else 0
  let offset := if len < half then 0 else len - half
  let head := Vec.rshift half (fun i => src.readBack (cur + i) shift) shift
  let tail := fun i => src.readBack (src.len + i) half
  (w.put offset half tail).put 0 half head

/-- The stores of `avx2_trailing_cvt_u8_u16`, `avx2_trailing_cvt_u8_u32` and
`avx2_trailing_cvt_u16_u32`: two halves of a register, each widened. -/
def avx2TrailingWiden (cur : Nat) (w : Writer) : Writer :=
  let half := readBatchCount isa kind / 2
  let t1 := fun i => src.readBack (src.len + i) half
  let s1 := if src.len < cur + half then Vec.rshift half t1 (cur + half - src.len)
    else loadVec src cur
  let s2 := if src.len < cur + half then t1 else Vec.rshift half t1 (cur + 2 * half - src.len)
  (w.put 0 half s1).put half half s2

/-- The stores of `decode_str_copy_trailing`. -/
def copyTrailing (cur : Nat) (w : Writer) : Writer :=
  if isa = .avx2 then
    if w.level = kind.size then avx2TrailingSameSize isa kind src cur w
    else avx2TrailingWiden isa kind src cur w
  else w.put 0 (readBatchCount isa kind) (trailingVec isa kind src cur)

/-! ## Strings with escapes -/

/-- The stores that go with `scanNext`. -/
def copyNext (cur : Nat) (w : Writer) : Writer :=
  let batch := readBatchCount isa kind
  if cur + 4 * batch ≤ src.len then copyLoop isa kind src cur 4 w
  else if cur + batch ≤ src.len then copyLoop isa kind src cur 1 w
  else copyTrailing isa kind src cur w

/-- The loops of `decode_str_with_escape`: copy, then look at the unit that ends the run. -/
def decodeStrCopy : (fuel cur : Nat) → Writer → Vec → Option (Writer × Vec) × Nat
  | 0, cur, _, _ => (none, cur)
  | fuel + 1, cur, w, maxvec =>
    if src.len ≤ cur then (none, cur)
    else
      let scan := scanNext isa kind src true cur maxvec
      let w := (copyNext isa kind src cur w).advance scan.doneCount
      match scan.state with
      | .continue => decodeStrCopy fuel scan.cur w scan.maxvec
      | .end => (some (w, scan.maxvec), scan.cur)
      | .escape val size =>
        decodeStrCopy fuel (scan.cur + size) (processEscape kind w val) scan.maxvec
      | .invalid => (none, scan.cur)

/-- The width the copying begins with: that of the source, or wider for the first escape. -/
def startLevel (val : Nat) : Nat :=
  if kind.size ≤ 1 ∧ val < 0x100 then 1 else if kind.size ≤ 2 ∧ val < 0x10000 then 2 else 4

/-- The state in which `decode_str_with_escape` enters its loops: what was passed is copied and
the first escape is behind it. The scratch buffer holds anything at first. -/
def startWriter (scratch : ByteBuffer) (start cur val : Nat) : Writer :=
  let w : Writer := ⟨startLevel kind val, scratch, 0, 0, 0, val < 0x80, val⟩
  ((w.put 0 (cur - start) (loadVec src start)).advance (cur - start)).push val

/-- The characters in the scratch buffer. -/
def Writer.content (w : Writer) : List Nat :=
  w.buffer.loadList 1 0 w.u8size ++ w.buffer.loadList 2 w.u8size w.u16size ++
    w.buffer.loadList 4 (w.u8size + w.u16size) w.u32size

/-- The kind chosen for the characters of the scratch buffer, at `done_ascii` to `done_ucs4`. -/
def finishKind (w : Writer) (maxvec : Vec) : StrKind :=
  let batch := readBatchCount isa kind
  let fits (bound : Nat) : Bool := w.maxEscape ≤ bound && Vec.checkmax batch maxvec bound
  if w.level = 1 then
    if kind = .ascii then if w.isAscii then .ascii else .ucs1
    else if fits 0x7F then .ascii else .ucs1
  else if w.level = 2 then
    if kind = .ucs2 ∧ fits 0xFF then if fits 0x7F then .ascii else .ucs1 else .ucs2
  else if kind = .ucs4 ∧ fits 0xFFFF then
    if fits 0xFF then if fits 0x7F then .ascii else .ucs1 else .ucs2
  else .ucs4

/-- `make_unicode_from_src_ascii`. -/
def makeUnicodeFromSrcAscii (isKey : Bool) (chars : List Nat) : Made :=
  ⟨⟨.ascii, chars⟩, if isKey && chars.length ≤ 64 then some ⟨chars, .ascii⟩ else none⟩

/-- Make the string of the scratch buffer. Only ASCII strings of ASCII sources are cached. -/
def finish (isKey : Bool) (w : Writer) (maxvec : Vec) : Made :=
  if kind = .ascii ∧ w.level = 1 ∧ w.isAscii = true then makeUnicodeFromSrcAscii isKey w.content
  else ⟨⟨finishKind isa kind w maxvec, w.content⟩, none⟩

/-- `decode_str_with_escape`, called at the first escape. -/
def decodeStrWithEscape (scratch : ByteBuffer) (isKey : Bool) (start cur val size : Nat)
    (maxvec : Vec) : Option Made × Nat :=
  match decodeStrCopy isa kind src (src.len + 1) (cur + size)
      (startWriter kind src scratch start cur val) maxvec with
  | (some (w, maxvec), cur) => (some (finish isa kind isKey w maxvec), cur + 1)
  | (none, cur) => (none, cur)

/-! ## Strings without escapes -/

/-- The kind `make_unicode_from_src` chooses. -/
def kindFromSrc (maxvec : Vec) : StrKind :=
  let fits := Vec.checkmax (readBatchCount isa kind) maxvec
  match kind with
  | .ascii => .ascii
  | .ucs1 => if fits 0x7F then .ascii else .ucs1
  | .ucs2 => if fits 0xFF then if fits 0x7F then .ascii else .ucs1 else .ucs2
  | .ucs4 =>
    if fits 0xFFFF then if fits 0x7F then .ascii else if fits 0xFF then .ucs1 else .ucs2 else .ucs4

/-- `get_cache_key_hash_and_size`: the bytes of the units passed, narrowed to `tpsize` bytes each
where the string is stored in fewer bytes than the source. -/
def getCacheKeyHashAndSize (tpsize : Nat) (needSizeCvt : Bool) (units : List Nat) : List Nat :=
  if kind.size = 1 then units
  else units.flatMap (leBytes (if needSizeCvt then tpsize else kind.size))

/-- `make_unicode_from_src`: the units passed are the characters. -/
def makeUnicodeFromSrc (isKey : Bool) (start count : Nat) (maxvec : Vec) : Made :=
  let units := (List.range count).map (loadVec src start)
  if kind = .ascii then makeUnicodeFromSrcAscii isKey units
  else
    let target := kindFromSrc isa kind maxvec
    let needSizeCvt := Vec.checkmax (readBatchCount isa kind) maxvec
      (if kind = .ucs1 then 0x7F else if kind = .ucs2 then 0xFF else 0xFFFF) && kind ≠ .ucs1
    ⟨⟨target, units⟩,
      if isKey && count * target.size ≤ 64 then
        some ⟨getCacheKeyHashAndSize kind target.size needSizeCvt units, target⟩
      else none⟩

/-- `decode_str`, called behind the opening quote. -/
def decodeStr (scratch : ByteBuffer) (isKey : Bool) (cur : Nat) : Option Made × Nat :=
  match decodeStrFast isa kind src isKey (src.len + 1) cur Vec.setzero with
  | (.done, last, maxvec) => (some (makeUnicodeFromSrc isa kind src isKey cur (last - cur) maxvec),
      last + 1)
  | (.escape val size, last, maxvec) =>
    decodeStrWithEscape isa kind src scratch isKey cur last val size maxvec
  | (.failed, last, _) => (none, last)

end Source

end SsrJson.Decode
