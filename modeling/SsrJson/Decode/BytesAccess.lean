import SsrJson.Decode.BytesStr
import SsrJson.Decode.StrStores

/-!
# The loads and stores of the string decoder for `bytes` sources

`loads_bytes` reads whole registers and blocks of sixteen bytes from the copy of its source, also
behind the end of the text, and stores whole vectors to the scratch buffer. This module lists both:
each function has a trace beside it that goes the same way. Carrying out the stores gives the
scratch buffer of the decoder (`decodeBytesUtf8Loop_replay`).
-/

namespace SsrJson.Decode

/-! ## The buffers -/

/-- `SSRJSON_MEMCPY_SIMD_SIZE`. -/
def memcpySimdSize (isa : Isa) : Nat := isa.vectorBits / 8

/-- `_alloc_aligned_b_buf`: the size of the buffer the text is copied into, which is one of its own
for a long text and `decoder_ctx_bytes_src_buffer` otherwise. -/
def allocAlignedBBuf (isa : Isa) (len : Nat) : Option Nat :=
  if 2 ^ 63 - 1 - 3 * memcpySimdSize isa - 4 < len then none
  else
    let requiredSize := sizeAlignUp (len + 2 * memcpySimdSize isa + 4) (memcpySimdSize isa)
    some (if stringBufferSize < requiredSize then requiredSize else stringBufferSize)

/-- `_BytesDstPadding`. -/
def bytesDstPadding (isa : Isa) : Nat := 4 * memcpySimdSize isa

/-- `check_and_reserve_bytes_str_buffer`: the number of bytes from the head it hands out to the end
of the scratch buffer. -/
def checkAndReserveBytesStrBuffer (isa : Isa) (len : Nat) : Option Nat :=
  if (2 ^ 63 - 1 - bytesDstPadding isa * 2) / 4 < len then none
  else
    let newBufferSize := 4 * len + 2 * bytesDstPadding isa
    some ((if stringBufferSize < newBufferSize then newBufferSize else stringBufferSize) -
      bytesDstPadding isa)

section Source

open Trace

variable (isa : Isa) (src : Source)

/-! ## Byte by byte -/

/-- The accesses of `asciiRun`. -/
def asciiRunTrace (limit : Nat) : (fuel : Nat) → Writer → Nat → Trace
  | 0, _, _ => empty
  | fuel + 1, w, cur =>
    if cur < limit then
      load cur 1 ++
        if charIsAsciiStop (src.read cur) = false then
          store (w.storeAt 0 1 fun _ => src.read cur) ++
            asciiRunTrace limit fuel (w.push (src.read cur)) (cur + 1)
        else empty
    else empty

/-- The accesses of `seqRun`. -/
def seqRunTrace (accept : Nat → Bool) (toUnicode : Nat → Nat) (width : Nat) :
    (fuel : Nat) → Writer → Nat → Trace
  | 0, _, _ => empty
  | fuel + 1, w, cur =>
    let uni := byteLoad4 src cur
    load cur 4 ++
      if accept uni then
        store (w.storeAt 0 1 fun _ => toUnicode uni) ++
          seqRunTrace accept toUnicode width fuel (w.push (toUnicode uni)) (cur + width)
      else empty

/-- The accesses of `seqRun2U8`. -/
def seqRun2U8Trace (w : Writer) (cur : Nat) : Trace :=
  seqRunTrace src (fun uni => utf8IsSeq2 uni && toB2Unicode uni < 0x100) toB2Unicode 2 src.len w cur

/-- The accesses of `seqRun2`. -/
def seqRun2Trace (w : Writer) (cur : Nat) : Trace :=
  seqRunTrace src utf8IsSeq2 toB2Unicode 2 src.len w cur

/-- The accesses of `seqRun3`. -/
def seqRun3Trace (w : Writer) (cur : Nat) : Trace :=
  seqRunTrace src utf8IsSeq3 toB3Unicode 3 src.len w cur

/-- The accesses of `seqRun4`. -/
def seqRun4Trace (w : Writer) (cur : Nat) : Trace :=
  seqRunTrace src utf8IsSeq4 toB4Unicode 4 src.len w cur

/-- The accesses of `seqsU16`. -/
def seqsU16Trace (w : Writer) (start : Nat) : Trace :=
  let (w', cur) := seqRun3 src w start
  seqRun3Trace src w start ++
    if byteLoad4 src cur &&& 0x80 = 0 then empty else seqRun2Trace src w' cur

/-- The accesses of `seqsU32`. -/
def seqsU32Trace (w : Writer) (start : Nat) : Trace :=
  let (w', cur) := seqRun4 src w start
  seqRun4Trace src w start ++
    if byteLoad4 src cur &&& 0x80 = 0 then empty else seqsU16Trace src w' cur

/-- The accesses of `seqs`. -/
def seqsTrace (w : Writer) (start : Nat) : Trace :=
  if w.level = 1 then seqRun2U8Trace src w start
  else if w.level = 2 then seqsU16Trace src w start
  else seqsU32Trace src w start

/-- The accesses of `decodeBytesBlockScalar`. -/
def decodeBytesBlockScalarTrace (limit : Nat) : (fuel : Nat) → Writer → Nat → Trace
  | 0, _, _ => empty
  | fuel + 1, w, cur =>
    let (w', cur') := asciiRun src limit (src.len - cur) w cur
    asciiRunTrace src limit (src.len - cur) w cur ++
      if limit ≤ cur' then empty
      else
        load cur' 1 ++
          if src.read cur' < 0x80 then empty
          else
            seqsTrace src w' cur' ++
              match seqs src w' cur' with
              | some (w, cur) => decodeBytesBlockScalarTrace limit fuel w cur
              | none => load cur' 4

/-! ## Sixteen bytes -/

/-- The accesses of `decodeBytesBlock`. -/
def decodeBytesBlockTrace : (fuel budget : Nat) → Writer → Nat → Trace
  | 0, _, _, _ => empty
  | fuel + 1, budget, w, cur =>
    let v := loadVec src cur
    load cur 16 ++
      if utf8HasStop v then decodeBytesBlockScalarTrace src (src.len + 1) (src.len + 1) w cur
      else if utf8AllAscii v then
        store (w.storeAt 0 16 v) ++
          decodeBytesBlockTrace fuel budget ((w.put 0 16 v).advance 16) (cur + 16)
      else if w.level ≠ 4 ∧ utf8AnyByteAbove v (promoteAbove w.level) then
        decodeBytesBlockScalarTrace src (src.len + 1) (src.len + 1) w cur
      else
        let w := if w.level = 1 then { w with isAscii := false } else w
        load (cur + 16) 1 ++
          match blockPattern isa w.level v with
          | .error => empty
          | .chars lanes stored kept taken =>
            store (w.storeAt 0 stored lanes) ++
              decodeBytesBlockTrace fuel 32 ((w.put 0 stored lanes).advance kept) (cur + taken)
          | .none =>
            decodeBytesBlockScalarTrace src (cur + budget) (src.len + 1) w cur ++
              match decodeBytesBlockScalar src (cur + budget) (src.len + 1) w cur with
              | (.continue, w, cur) =>
                decodeBytesBlockTrace fuel (if budget < 256 then budget * 2 else budget) w cur
              | _ => empty

/-! ## Strings -/

/-- The accesses of `readHex`, which asks for the end first. -/
def readHexTrace (pos offset : Nat) : Trace :=
  if pos + 4 + offset ≤ src.len then load (pos + offset) 4 else empty

/-- The accesses of `decodeUnicodeEscape`. -/
def decodeUnicodeEscapeTrace (pos : Nat) : Trace :=
  readHexTrace src pos 2 ++
    match readHex .ucs1 src pos 2 with
    | none => empty
    | some hi =>
      if hi &&& 0xF800 ≠ 0xD800 ∨ hi &&& 0xFC00 ≠ 0xD800 ∨ src.len < pos + 12 then empty
      else
        load (pos + 6) 2 ++
          if src.read (pos + 6) ≠ 0x5C ∨ src.read (pos + 7) ≠ 0x75 then empty
          else readHexTrace src pos 8

/-- The accesses of `doDecodeEscape` behind the backslash. -/
def doDecodeEscapeTrace (pos : Nat) : Trace :=
  load (pos + 1) 1 ++
    if src.read (pos + 1) = 0x75 then decodeUnicodeEscapeTrace src pos else empty

/-- The accesses of `decodeBytesScanLoop`. -/
def decodeBytesScanLoopTrace (registers cur : Nat) : Trace :=
  load cur (registers * readBatchCount isa .ucs1)

/-- The accesses of `scanOnes`. -/
def scanOnesTrace : (fuel : Nat) → Nat → Trace
  | 0, _ => empty
  | fuel + 1, cur =>
    decodeBytesScanLoopTrace isa 1 cur ++
      match decodeBytesScanLoop isa src 1 cur with
      | (true, cur) => scanOnesTrace fuel cur
      | (false, _) => empty

/-- The accesses of `scanFours`. -/
def scanFoursTrace : (fuel : Nat) → Nat → Trace
  | 0, cur => scanOnesTrace isa src (src.len + 1) cur
  | fuel + 1, cur =>
    if 3 * readBatchCount isa .ucs1 ≤ src.len - cur then
      decodeBytesScanLoopTrace isa 4 cur ++
        match decodeBytesScanLoop isa src 4 cur with
        | (true, cur) => scanFoursTrace fuel cur
        | (false, _) => empty
    else scanOnesTrace isa src (src.len + 1) cur

/-- The accesses of `bytesScan`. -/
def bytesScanTrace (isKey : Bool) (cur : Nat) : Trace :=
  if isKey then scanOnesTrace isa src (src.len + 1) cur
  else
    decodeBytesScanLoopTrace isa 1 cur ++
      match decodeBytesScanLoop isa src 1 cur with
      | (false, _) => empty
      | (true, cur) =>
        decodeBytesScanLoopTrace isa 1 cur ++
          match decodeBytesScanLoop isa src 1 cur with
          | (false, _) => empty
          | (true, cur) => scanFoursTrace isa src (src.len + 1) cur

/-- The accesses of `decodeBytesUtf8Loop`. -/
def decodeBytesUtf8LoopTrace : (fuel : Nat) → Writer → Nat → Trace
  | 0, _, _ => empty
  | fuel + 1, w, cur =>
    decodeBytesBlockTrace isa src (src.len + 1) 32 w cur ++
      match decodeBytesBlock isa src (src.len + 1) 32 w cur with
      | (.continue, w, cur) => decodeBytesUtf8LoopTrace fuel w cur
      | (.end, _, _) => empty
      | (.escape, w, cur) =>
        doDecodeEscapeTrace src cur ++
          match doDecodeEscape .ucs1 src cur with
          | none => empty
          | some (val, size) =>
            store (escapeStore w val) ++
              decodeBytesUtf8LoopTrace fuel (w.processEscapeAscii val) (cur + size)
      | (.promote, w, cur) =>
        load cur 1 ++ decodeBytesUtf8LoopTrace fuel (promoteBuffer w (src.read cur)) cur
      | (.invalid, _, _) => empty

/-- The accesses of `decodeBytesUtf8`. -/
def decodeBytesUtf8Trace (scratch : ByteBuffer) (start cur : Nat) : Trace :=
  let w : Writer := ⟨1, scratch, 0, 0, 0, true, 0⟩
  load start (cur - start) ++ store (w.storeAt 0 (cur - start) (loadVec src start)) ++
    decodeBytesUtf8LoopTrace isa src (2 * src.len + 3)
      ((w.put 0 (cur - start) (loadVec src start)).advance (cur - start)) cur

/-- The accesses of `loadsBytes`, those to the text it makes a string from directly included. -/
def loadsBytesTrace (scratch : ByteBuffer) (isKey : Bool) (start : Nat) : Trace :=
  let cur := bytesScan isa src isKey start
  bytesScanTrace isa src isKey start ++ load cur 1 ++
    if src.read cur = 0x22 then load start (cur - start)
    else if src.read cur < 0x20 then empty
    else decodeBytesUtf8Trace isa src scratch start cur

end Source

/-! ## The stores make the buffer -/

section Replay

open Store

variable {src : Source} {isa : Isa} {cur : Nat}

theorem asciiRun_replay (limit fuel : Nat) (w : Writer) :
    (asciiRun src limit fuel w cur).1.buffer =
      replay (asciiRunTrace src limit fuel w cur).stores w.buffer := by
  induction fuel generalizing w cur with
  | zero => rfl
  | succ fuel ih =>
      unfold asciiRun asciiRunTrace
      by_cases hlt : cur < limit
      · by_cases hstop : charIsAsciiStop (src.read cur) = false
        · rw [if_pos ⟨hlt, hstop⟩, if_pos hlt, if_pos hstop, ih, push_buffer]
          rfl
        · rw [if_neg fun h => hstop h.2, if_pos hlt, if_neg hstop]
          rfl
      · rw [if_neg fun h => hlt h.1, if_neg hlt]
        rfl

section Runs

variable {accept : Nat → Bool} {toUnicode : Nat → Nat} {width : Nat}

theorem seqRun_replay (fuel : Nat) (w : Writer) :
    (seqRun src accept toUnicode width fuel w cur).1.buffer =
      replay (seqRunTrace src accept toUnicode width fuel w cur).stores w.buffer := by
  induction fuel generalizing w cur with
  | zero => rfl
  | succ fuel ih =>
      unfold seqRun seqRunTrace
      dsimp only
      split
      · rw [ih, push_buffer]
        rfl
      · rfl

theorem le_seqRun (fuel : Nat) (w : Writer) :
    cur ≤ (seqRun src accept toUnicode width fuel w cur).2 := by
  induction fuel generalizing w cur with
  | zero => exact Nat.le_refl cur
  | succ fuel ih =>
      unfold seqRun
      dsimp only
      split
      · exact (Nat.le_add_right cur width).trans (ih _)
      · exact Nat.le_refl cur

/-- A run that passes nothing stores nothing. -/
theorem seqRun_still (hwidth : 0 < width) (fuel : Nat) {w : Writer}
    (h : (seqRun src accept toUnicode width fuel w cur).2 = cur) :
    (seqRunTrace src accept toUnicode width fuel w cur).stores = [] := by
  cases fuel with
  | zero => rfl
  | succ fuel =>
      unfold seqRun at h
      unfold seqRunTrace
      dsimp only at h ⊢
      split
      · rename_i haccept
        rw [if_pos haccept] at h
        have hle := @le_seqRun src (cur + width) accept toUnicode width fuel
          (w.push (toUnicode (byteLoad4 src cur)))
        omega
      · rfl

end Runs

/-- The stores of a reader of sequences, which stores nothing where it passes nothing. -/
def SeqsReplay (w : Writer) (trace : Trace) : Option (Writer × Nat) → Prop
  | some (w', _) => w'.buffer = replay trace.stores w.buffer
  | none => trace.stores = []

theorem seqsU8_replay (w : Writer) : SeqsReplay w (seqRun2U8Trace src w cur) (seqsU8 src w cur) := by
  unfold seqsU8 seqRun2U8 seqRun2U8Trace
  dsimp only
  split
  · exact seqRun_replay _ w
  · exact seqRun_still (by decide) _ (not_not.mp ‹_›)

/-- Where the sequences of three and then two end. -/
def threesAndTwos (src : Source) (w : Writer) (start : Nat) : Writer × Nat :=
  let (w, cur) := seqRun3 src w start
  if byteLoad4 src cur &&& 0x80 = 0 then (w, cur) else seqRun2 src w cur

theorem threesAndTwos_replay (w : Writer) :
    (threesAndTwos src w cur).1.buffer = replay (seqsU16Trace src w cur).stores w.buffer := by
  have hthree := @seqRun_replay src cur utf8IsSeq3 toB3Unicode 3 src.len w
  unfold threesAndTwos seqsU16Trace seqRun3 seqRun3Trace seqRun2 seqRun2Trace
  dsimp only
  split
  · show _ = replay (_ ++ []) _
    rw [List.append_nil]
    exact hthree
  · rw [Trace.stores_append, replay_append, ← hthree]
    exact seqRun_replay _ _

theorem le_threesAndTwos (w : Writer) : cur ≤ (threesAndTwos src w cur).2 := by
  have hle := @le_seqRun src cur utf8IsSeq3 toB3Unicode 3 src.len w
  unfold threesAndTwos
  dsimp only
  split
  · exact hle
  · exact hle.trans (le_seqRun _ _)

theorem threesAndTwos_still {w : Writer} (h : (threesAndTwos src w cur).2 = cur) :
    (seqsU16Trace src w cur).stores = [] := by
  have hle := @le_seqRun src cur utf8IsSeq3 toB3Unicode 3 src.len w
  have hstill := @seqRun_still src cur utf8IsSeq3 toB3Unicode 3 (by decide) src.len w
  unfold threesAndTwos seqRun3 seqRun2 at h
  unfold seqsU16Trace seqRun3 seqRun3Trace seqRun2Trace
  dsimp only at h ⊢
  split
  · rename_i hhigh
    rw [if_pos hhigh] at h
    show _ ++ [] = _
    rw [hstill h, List.nil_append]
  · rename_i hhigh
    rw [if_neg hhigh] at h
    have hle' := @le_seqRun src (seqRun src utf8IsSeq3 toB3Unicode 3 src.len w cur).2 utf8IsSeq2
      toB2Unicode 2 src.len (seqRun src utf8IsSeq3 toB3Unicode 3 src.len w cur).1
    rw [Trace.stores_append, hstill (by omega), seqRun_still (by decide) _ (by omega)]
    rfl

theorem seqsU16_replay (w : Writer) : SeqsReplay w (seqsU16Trace src w cur) (seqsU16 src w cur) := by
  have hreplay := @threesAndTwos_replay src cur w
  have hstill := @threesAndTwos_still src cur w
  unfold threesAndTwos at hreplay hstill
  unfold seqsU16
  dsimp only at hreplay hstill ⊢
  split
  · rename_i hhigh
    rwa [if_pos hhigh] at hreplay
  rename_i hhigh
  rw [if_neg hhigh] at hreplay hstill
  split
  · exact hreplay
  · exact hstill (not_not.mp ‹_›)

theorem seqsU32_replay (w : Writer) : SeqsReplay w (seqsU32Trace src w cur) (seqsU32 src w cur) := by
  have hfour := @seqRun_replay src cur utf8IsSeq4 toB4Unicode 4 src.len w
  have hle := @le_seqRun src cur utf8IsSeq4 toB4Unicode 4 src.len w
  have hfours := @seqRun_still src cur utf8IsSeq4 toB4Unicode 4 (by decide) src.len w
  unfold seqsU32 seqsU32Trace seqRun4 seqRun4Trace
  dsimp only
  generalize seqRun src utf8IsSeq4 toB4Unicode 4 src.len w cur = result at hfour hle hfours ⊢
  obtain ⟨w₁, cur₁⟩ := result
  dsimp only at hfour hle hfours ⊢
  split
  · show _ = replay (_ ++ []) _
    rw [List.append_nil]
    exact hfour
  -- behind the sequences of four the others are read as at two bytes a character
  have hreplay := @threesAndTwos_replay src cur₁ w₁
  have hle' := @le_threesAndTwos src cur₁ w₁
  have hstill := @threesAndTwos_still src cur₁ w₁
  rw [hfour, ← replay_append] at hreplay
  unfold threesAndTwos at hreplay hle' hstill
  dsimp only at hreplay hle' hstill
  split
  · rename_i hhigh
    rwa [if_pos hhigh] at hreplay
  rename_i hhigh
  rw [if_neg hhigh] at hreplay hle' hstill
  split
  · exact hreplay
  · rename_i hsame
    have hsame := not_not.mp hsame
    rw [SeqsReplay, Trace.stores_append, hfours (by omega), hstill (by omega)]
    rfl

theorem seqs_replay (w : Writer) : SeqsReplay w (seqsTrace src w cur) (seqs src w cur) := by
  unfold seqs seqsTrace
  split
  · exact seqsU8_replay w
  split
  · exact seqsU16_replay w
  · exact seqsU32_replay w

theorem decodeBytesBlockScalar_replay (limit fuel : Nat) (w : Writer) :
    (decodeBytesBlockScalar src limit fuel w cur).2.1.buffer =
      replay (decodeBytesBlockScalarTrace src limit fuel w cur).stores w.buffer := by
  induction fuel generalizing w cur with
  | zero => rfl
  | succ fuel ih =>
      have hascii := @asciiRun_replay src cur limit (src.len - cur) w
      unfold decodeBytesBlockScalar decodeBytesBlockScalarTrace
      dsimp only
      generalize asciiRun src limit (src.len - cur) w cur = result at hascii ⊢
      obtain ⟨w₁, cur₁⟩ := result
      rw [Trace.stores_append, replay_append, ← hascii]
      dsimp only
      split
      · rfl
      split
      · split
        · rfl
        split <;> rfl
      have hseqs := @seqs_replay src cur₁ w₁
      cases hread : seqs src w₁ cur₁ with
      | none =>
          rw [hread] at hseqs
          rw [Trace.stores_append, Trace.stores_append, hseqs]
          dsimp only
          split <;> rfl
      | some read =>
          rw [hread] at hseqs
          rw [Trace.stores_append, Trace.stores_append, Trace.stores_load, List.nil_append,
            replay_append, ← hseqs]
          exact ih _

theorem decodeBytesBlock_replay (fuel budget : Nat) (w : Writer) :
    (decodeBytesBlock isa src fuel budget w cur).2.1.buffer =
      replay (decodeBytesBlockTrace isa src fuel budget w cur).stores w.buffer := by
  induction fuel generalizing budget w cur with
  | zero => rfl
  | succ fuel ih =>
      unfold decodeBytesBlock decodeBytesBlockTrace
      dsimp only
      rw [Trace.stores_append, Trace.stores_load, List.nil_append]
      split
      · exact decodeBytesBlockScalar_replay _ _ w
      split
      · rw [ih, advance_buffer]
        rfl
      split
      · exact decodeBytesBlockScalar_replay _ _ w
      have hsame : (if w.level = 1 then { w with isAscii := false } else w).buffer = w.buffer := by
        split <;> rfl
      generalize (if w.level = 1 then { w with isAscii := false } else w) = w₀ at hsame
      rw [← hsame, Trace.stores_append, Trace.stores_load, List.nil_append]
      cases blockPattern isa w₀.level (loadVec src cur) with
      | error => rfl
      | chars lanes stored kept taken =>
          dsimp only
          rw [ih, advance_buffer]
          rfl
      | none =>
          have hscalar := @decodeBytesBlockScalar_replay src cur (cur + budget) (src.len + 1) w₀
          dsimp only
          rw [Trace.stores_append, replay_append, ← hscalar]
          generalize decodeBytesBlockScalar src (cur + budget) (src.len + 1) w₀ cur = result
          obtain ⟨state, w₁, cur₁⟩ := result
          cases state with
          | «continue» => exact ih _ _
          | «end» | escape | promote | invalid => rfl

theorem readHexTrace_stores (pos offset : Nat) : (readHexTrace src pos offset).stores = [] := by
  unfold readHexTrace
  split <;> rfl

/-- Reading an escape stores nothing. -/
theorem doDecodeEscapeTrace_stores (pos : Nat) : (doDecodeEscapeTrace src pos).stores = [] := by
  unfold doDecodeEscapeTrace decodeUnicodeEscapeTrace
  rw [Trace.stores_append, Trace.stores_load, List.nil_append]
  split
  · rw [Trace.stores_append, readHexTrace_stores, List.nil_append]
    split
    · rfl
    split
    · rfl
    · rw [Trace.stores_append, Trace.stores_load, List.nil_append]
      split
      · rfl
      · exact readHexTrace_stores _ _
  · rfl

/-- The scratch buffer a string is made from is the one the stores listed leave. -/
theorem decodeBytesUtf8Loop_replay {fuel : Nat} {w w' : Writer} {last : Nat}
    (h : decodeBytesUtf8Loop isa src fuel w cur = (some w', last)) :
    w'.buffer = replay (decodeBytesUtf8LoopTrace isa src fuel w cur).stores w.buffer := by
  induction fuel generalizing w cur with
  | zero => simp [decodeBytesUtf8Loop] at h
  | succ fuel ih =>
      have hblock := @decodeBytesBlock_replay src isa cur (src.len + 1) 32 w
      unfold decodeBytesUtf8Loop at h
      unfold decodeBytesUtf8LoopTrace
      rw [Trace.stores_append, replay_append, ← hblock]
      generalize decodeBytesBlock isa src (src.len + 1) 32 w cur = result at h ⊢
      obtain ⟨state, w₁, cur₁⟩ := result
      cases state with
      | «continue» => exact ih h
      | «end» =>
          simp only [Prod.mk.injEq, Option.some.injEq] at h
          rw [← h.1]
          rfl
      | escape =>
          dsimp only at h ⊢
          rw [Trace.stores_append, doDecodeEscapeTrace_stores, List.nil_append]
          cases hread : doDecodeEscape .ucs1 src cur₁ with
          | none =>
              rw [hread] at h
              simp at h
          | some read =>
              have hpush : (w₁.processEscapeAscii read.1).buffer =
                  apply w₁.buffer (escapeStore w₁ read.1) := promote_push_buffer read.1 rfl rfl rfl
              rw [hread] at h
              rw [Trace.stores_append, Trace.stores_store, List.singleton_append]
              show _ = replay _ (apply _ _)
              rw [← hpush]
              exact ih h
      | promote =>
          have hsame : (promoteBuffer w₁ (src.read cur₁)).buffer = w₁.buffer := by
            unfold promoteBuffer
            split <;> rfl
          dsimp only at h ⊢
          rw [Trace.stores_append, Trace.stores_load, List.nil_append, ← hsame]
          exact ih h
      | invalid => simp at h

end Replay

end SsrJson.Decode
