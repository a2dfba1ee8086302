import SsrJson.Decode.BytesBlock

/-!
# The string decoder for `bytes` sources

`loads_bytes` looks for the first byte that is no plain ASCII character. A string that has none up
to its closing quote is made from the source; otherwise `decode_bytes_utf8` copies what was passed
into the scratch buffer and goes on there.
-/

namespace SsrJson.Decode

section Source

variable (isa : Isa) (src : Source)

/-- `get_bytes_stop_anymask`, on one lane. -/
def isBytesStop (b : Nat) : Bool := isEscapeUnit b || 0x80 ≤ b

/-- `decode_bytes_scan_loop`, with `registers = 1`, and `decode_bytes_scan_loop4`: whether no byte
of the registers stops, and where the cursor then is. -/
def decodeBytesScanLoop (registers cur : Nat) : Bool × Nat :=
  let count := registers * readBatchCount isa .ucs1
  match firstLane count fun i => isBytesStop (src.read (cur + i)) with
  | none => (true, cur + count)
  | some i => (false, cur + i)

/-- `while (1)` with one register. -/
def scanOnes : (fuel : Nat) → Nat → Nat
  | 0, cur => cur
  | fuel + 1, cur =>
    match decodeBytesScanLoop isa src 1 cur with
    | (true, cur) => scanOnes fuel cur
    | (false, cur) => cur

/-- `while (src_end - src >= 3 * READ_BATCH_COUNT)` with four registers, then one. -/
def scanFours : (fuel : Nat) → Nat → Nat
  | 0, cur => scanOnes isa src (src.len + 1) cur
  | fuel + 1, cur =>
    if 3 * readBatchCount isa .ucs1 ≤ src.len - cur then
      match decodeBytesScanLoop isa src 4 cur with
      | (true, cur) => scanFours fuel cur
      | (false, cur) => cur
    else scanOnes isa src (src.len + 1) cur

/-- The scanning part of `loads_bytes`, up to `scan_stopped`. Values begin with two single
registers. -/
def bytesScan (isKey : Bool) (cur : Nat) : Nat :=
  if isKey then scanOnes isa src (src.len + 1) cur
  else
    match decodeBytesScanLoop isa src 1 cur with
    | (false, cur) => cur
    | (true, cur) =>
      match decodeBytesScanLoop isa src 1 cur with
      | (false, cur) => cur
      | (true, cur) => scanFours isa src (src.len + 1) cur

/-- The level `decode_bytes_utf8` goes on with when a block asks for wider characters:
`promote_buffer_u8_to_u16`, `promote_buffer_u8_to_u32` or `promote_buffer_u16_to_u32`. -/
def promoteBuffer (w : Writer) (lead : Nat) : Writer :=
  if w.level = 1 ∧ utf8LeadMinUcsLevel lead = 2 then { w with level := 2 }
  else { w with level := 4 }

/-- The loops of `decode_bytes_utf8`. -/
def decodeBytesUtf8Loop : (fuel : Nat) → Writer → Nat → Option Writer × Nat
  | 0, _, cur => (none, cur)
  | fuel + 1, w, cur =>
    match decodeBytesBlock isa src (src.len + 1) 32 w cur with
    | (.continue, w, cur) => decodeBytesUtf8Loop fuel w cur
    | (.end, w, cur) => (some w, cur)
    | (.escape, w, cur) =>
      match doDecodeEscape .ucs1 src cur with
      | none => (none, cur)
      | some (val, size) => decodeBytesUtf8Loop fuel (w.processEscapeAscii val) (cur + size)
    | (.promote, w, cur) => decodeBytesUtf8Loop fuel (promoteBuffer w (src.read cur)) cur
    | (.invalid, _, cur) => (none, cur)

/-- The string at `done_u8`, `done_u16` or `done_u32`. -/
def finishBytes (isKey : Bool) (w : Writer) : Made :=
  if w.level = 1 then
    if w.isAscii then makeUnicodeFromSrcAscii isKey w.content else ⟨⟨.ucs1, w.content⟩, none⟩
  else if w.level = 2 then ⟨⟨.ucs2, w.content⟩, none⟩
  else ⟨⟨.ucs4, w.content⟩, none⟩

/-- `decode_bytes_utf8`. -/
def decodeBytesUtf8 (scratch : ByteBuffer) (isKey : Bool) (start cur : Nat) : Option Made × Nat :=
  let w : Writer := ⟨1, scratch, 0, 0, 0, true, 0⟩
  let w := (w.put 0 (cur - start) (loadVec src start)).advance (cur - start)
  match decodeBytesUtf8Loop isa src (2 * src.len + 3) w cur with
  | (some w, cur) => (some (finishBytes isKey w), cur + 1)
  | (none, cur) => (none, cur)

/-- `loads_bytes`, called behind the opening quote. -/
def loadsBytes (scratch : ByteBuffer) (isKey : Bool) (start : Nat) : Option Made × Nat :=
  let cur := bytesScan isa src isKey start
  let c := src.read cur
  if c = 0x22 then
    (some (makeUnicodeFromSrcAscii isKey ((List.range (cur - start)).map (loadVec src start))),
      cur + 1)
  else if c < 0x20 then (none, cur)
  else decodeBytesUtf8 isa src scratch isKey start cur

end Source

end SsrJson.Decode
