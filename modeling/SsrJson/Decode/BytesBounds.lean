import SsrJson.Decode.BytesSpec
import SsrJson.Decode.BytesAccess
import SsrJson.Decode.StaleReaders

/-!
# Bounds of the bytes decoder's loads and stores

The zero behind the text ends every loop of the string decoder, so the cursor stays inside of the
text and the writer has passed no more characters than the cursor bytes (`InPlace`). A load at the
cursor is at most one register, which the copy of the source has room for behind its end, and a
vector is stored only where a whole block of text was read for it.
-/

namespace SsrJson.Decode

open Spec Store

/-- The writer is in front of the cursor, which is inside of the text. -/
structure InPlace (src : Source) (w : Writer) (cur : Nat) : Prop where
  sound : w.Sound
  le : cur ≤ src.len
  pos : w.pos ≤ cur

variable {src : Source} {isa : Isa} {w : Writer} {cur limit : Nat}

/-- Each character takes a byte or more. -/
theorem Took.length_le {cur' : Nat} {ds : List Nat} (h : Took src cur cur' ds) :
    ds.length ≤ cur' - cur := by
  have hrest := congrArg List.length h.rest
  have hle := h.le
  have hbytes : ds.length ≤ (ds.flatMap Utf8.bytes).length := by
    have hplain := h.plain
    clear hrest h
    induction ds with
    | nil => exact Nat.le_refl 0
    | cons d ds ih =>
        obtain ⟨b, t, hb, -⟩ := CharCode.utf8.head (if_pos (hplain d List.mem_cons_self).1)
        have htail := ih fun e he => hplain e (List.mem_cons_of_mem d he)
        rw [List.flatMap_cons, hb]
        simp only [List.cons_append, List.length_cons, List.length_append]
        omega
  rw [List.length_append, Source.length_rest, Source.length_rest] at hrest
  have hbound := h.bound
  omega

theorem length_content (w : Writer) : w.content.length = w.pos := by
  simp only [Writer.content, List.length_append, ByteBuffer.length_loadList, Writer.pos]

namespace InPlace

/-- What a reader copied is in place too. -/
theorem copied {w' : Writer} {cur' : Nat} {ds : List Nat} (h : InPlace src w cur)
    (hcopied : Copied src w cur w' cur' ds) : InPlace src w' cur' := by
  have hlength := congrArg List.length hcopied.content
  rw [List.length_append, length_content, length_content] at hlength
  have hds := hcopied.took.length_le
  have hle := hcopied.took.le
  have hpos := h.pos
  exact ⟨hcopied.sound, hcopied.took.bound, by omega⟩

/-- A character was stored and some bytes passed. -/
theorem push (h : InPlace src w cur) (val : Nat) {n : Nat} (hn : 0 < n)
    (hle : cur + n ≤ src.len) : InPlace src (w.push val) (cur + n) := by
  have hpos : (w.push val).pos = w.pos + 1 := advance_pos _ 1
  exact ⟨Writer.push_sound h.sound, hle, by have := h.pos; omega⟩

/-- Wider characters are stored behind the others, at the same index. -/
theorem promote (h : InPlace src w cur) (val : Nat) : InPlace src (w.promote val) cur := by
  refine ⟨h.sound.promote val, h.le, ?_⟩
  rw [promote_same]
  exact h.pos

theorem processEscapeAscii (h : InPlace src w cur) (val : Nat) {n : Nat} (hn : 0 < n)
    (hle : cur + n ≤ src.len) : InPlace src (w.processEscapeAscii val) (cur + n) := by
  have hmarked : ∀ mark, InPlace src { w with isAscii := mark } cur := fun mark =>
    ⟨⟨h.sound.level, h.sound.one, h.sound.two⟩, h.le, h.pos⟩
  exact ((hmarked _).promote val).push val hn hle

theorem promoteBuffer (h : InPlace src w cur) (lead : Nat) :
    InPlace src (promoteBuffer w lead) cur := by
  unfold Decode.promoteBuffer
  split
  · rename_i hone
    exact ⟨⟨.inr (.inl rfl), by simp, fun _ => (h.sound.one hone.1).2⟩, h.le, h.pos⟩
  · exact ⟨⟨.inr (.inr rfl), by simp, by simp⟩, h.le, h.pos⟩

/-- Some characters stored at the writer end in front of the room for the text. -/
theorem stop_le (h : InPlace src w cur) {offset count : Nat} (lanes : Nat → Nat)
    (hle : cur + offset + count ≤ src.len) :
    (w.storeAt offset count lanes).stop ≤ 4 * src.len := by
  have hlevel := h.sound.level
  have hpos := h.pos
  show w.level * (w.pos + offset + count) ≤ 4 * src.len
  exact Nat.mul_le_mul (by omega) (by omega)

end InPlace

/-! ## Byte by byte -/

section Scalar

variable (hlimit : src.len + 16 ≤ limit)

include hlimit

theorem asciiRunTrace_within (stop fuel : Nat) (h : InPlace src w cur) :
    (asciiRunTrace src stop fuel w cur).Within limit (4 * src.len) := by
  induction fuel generalizing w cur with
  | zero => exact .empty
  | succ fuel ih =>
      have hle := h.le
      unfold asciiRunTrace
      split
      · refine .append (.load (by omega)) ?_
        split
        · rename_i hplain
          have hlt : cur < src.len := Source.lt_of_read hle fun hzero => by
            rw [hzero] at hplain
            exact absurd hplain (by decide)
          exact .append (.store (h.stop_le _ hlt)) (ih (h.push _ Nat.one_pos hlt))
        · exact .empty
      · exact .empty

variable {accept : Nat → Bool} {toUnicode : Nat → Nat} {width : Nat}

theorem seqRunTrace_within (hwidth : 0 < width)
    (haccept : ∀ c ≤ src.len, accept (byteLoad4 src c) = true → c + width ≤ src.len)
    (fuel : Nat) (h : InPlace src w cur) :
    (seqRunTrace src accept toUnicode width fuel w cur).Within limit (4 * src.len) ∧
      InPlace src (seqRun src accept toUnicode width fuel w cur).1
        (seqRun src accept toUnicode width fuel w cur).2 := by
  induction fuel generalizing w cur with
  | zero => exact ⟨.empty, h⟩
  | succ fuel ih =>
      have hle := h.le
      unfold seqRunTrace seqRun
      dsimp only
      split
      · rename_i hseq
        have hbound := haccept cur hle hseq
        obtain ⟨hwithin, hplace⟩ := ih (h.push (toUnicode (byteLoad4 src cur)) hwidth hbound)
        exact ⟨.append (.load (by omega)) (.append (.store (h.stop_le _ (by omega))) hwithin), hplace⟩
      · exact ⟨.append (.load (by omega)) .empty, h⟩

omit hlimit in
/-- A sequence ends inside of the text. -/
theorem seq2_bound (hbytes : src.IsBytes) (hle : cur ≤ src.len)
    (h : utf8IsSeq2 (byteLoad4 src cur) = true) : cur + 2 ≤ src.len :=
  (Took.seq2 hle ((utf8IsSeq2_iff hbytes).mp h)).bound

omit hlimit in
theorem seq3_bound (hbytes : src.IsBytes) (hle : cur ≤ src.len)
    (h : utf8IsSeq3 (byteLoad4 src cur) = true) : cur + 3 ≤ src.len :=
  (Took.seq3 hle ((utf8IsSeq3_iff hbytes).mp h)).bound

omit hlimit in
theorem seq4_bound (hbytes : src.IsBytes) (hle : cur ≤ src.len)
    (h : utf8IsSeq4 (byteLoad4 src cur) = true) : cur + 4 ≤ src.len :=
  (Took.seq4 hle ((utf8IsSeq4_iff hbytes).mp h)).bound

variable (hbytes : src.IsBytes)

include hbytes

theorem seqRun2U8Trace_within (h : InPlace src w cur) :
    (seqRun2U8Trace src w cur).Within limit (4 * src.len) :=
  (seqRunTrace_within hlimit (by decide)
    (fun _ hle hseq => seq2_bound hbytes hle (Bool.and_eq_true_iff.mp hseq).1) _ h).1

theorem seqsU16Trace_within (h : InPlace src w cur) :
    (seqsU16Trace src w cur).Within limit (4 * src.len) := by
  obtain ⟨hthree, hplace⟩ := @seqRunTrace_within src w cur limit hlimit utf8IsSeq3
    toB3Unicode 3 (by decide) (fun _ hle hseq => seq3_bound hbytes hle hseq) src.len h
  unfold seqsU16Trace
  refine .append hthree ?_
  split
  · exact .empty
  · exact (seqRunTrace_within hlimit (by decide)
      (fun c hle hseq => seq2_bound hbytes hle hseq) _ hplace).1

theorem seqsTrace_within (h : InPlace src w cur) :
    (seqsTrace src w cur).Within limit (4 * src.len) := by
  unfold seqsTrace
  split
  · exact seqRun2U8Trace_within hlimit hbytes h
  split
  · exact seqsU16Trace_within hlimit hbytes h
  obtain ⟨hfour, hplace⟩ := @seqRunTrace_within src w cur limit hlimit utf8IsSeq4
    toB4Unicode 4 (by decide) (fun _ hle hseq => seq4_bound hbytes hle hseq) src.len h
  unfold seqsU32Trace
  refine .append hfour ?_
  split
  · exact .empty
  · exact seqsU16Trace_within hlimit hbytes hplace

/-- Byte by byte everything stays in place, whatever the limit. -/
theorem decodeBytesBlockScalarTrace_within (stop fuel : Nat) (h : InPlace src w cur) :
    (decodeBytesBlockScalarTrace src stop fuel w cur).Within limit (4 * src.len) := by
  induction fuel generalizing w cur with
  | zero => exact .empty
  | succ fuel ih =>
      obtain ⟨w₁, cur₁, ds₁, heq, hcopied, -⟩ :=
        asciiRun_spec hbytes stop (src.len - cur) h.sound h.le (Nat.le_refl _)
      have hplace := h.copied hcopied
      have hle := hplace.le
      unfold decodeBytesBlockScalarTrace
      dsimp only
      rw [heq]
      dsimp only
      refine .append (asciiRunTrace_within hlimit stop _ h) ?_
      split
      · exact .empty
      refine .append (.load (by omega)) ?_
      split
      · exact .empty
      rename_i hhigh
      refine .append (seqsTrace_within hlimit hbytes hplace) ?_
      rcases seqs_spec hbytes hplace.sound hle (Nat.le_of_not_lt hhigh) with
        ⟨w₂, cur₂, ds₂, hread, hcopied₂, -⟩ | ⟨hread, -⟩
      · rw [hread]
        exact ih (hplace.copied hcopied₂)
      · rw [hread]
        exact .load (by omega)

end Scalar

/-! ## Sixteen bytes -/

/-- A pattern stores no more lanes than half a block. -/
theorem blockPattern_stored {v : Vec} {level : Nat} {lanes : Vec} {stored kept taken : Nat}
    (h : blockPattern isa level v = .chars lanes stored kept taken) : stored ≤ 8 := by
  unfold blockPattern at h
  dsimp only at h
  split_ifs at h <;> cases h <;> decide

section Blocks

variable (hlimit : src.len + 16 ≤ limit) (hbytes : src.IsBytes)

include hlimit hbytes

/-- The induction is on the fuel; a block that is stored has sixteen bytes of text. -/
theorem decodeBytesBlockTrace_within (fuel budget : Nat) (h : InPlace src w cur) :
    (decodeBytesBlockTrace isa src fuel budget w cur).Within limit (4 * src.len) := by
  induction fuel generalizing budget w cur with
  | zero => exact .empty
  | succ fuel ih =>
      have hle := h.le
      have hscalar : ∀ {stop : Nat} {w' : Writer}, InPlace src w' cur →
          (decodeBytesBlockScalarTrace src stop (src.len + 1) w' cur).Within limit (4 * src.len) :=
        fun h' => decodeBytesBlockScalarTrace_within hlimit hbytes _ _ h'
      unfold decodeBytesBlockTrace
      dsimp only
      refine .append (.load (by omega)) ?_
      split
      · exact hscalar h
      rename_i hstop
      have hplain : PlainBlock src cur := plainBlock_iff.mp (by simpa using hstop)
      have hbound := hplain.bound hle
      split
      · -- sixteen characters of the block
        have hpos := h.pos
        refine .append (.store (h.stop_le _ hbound)) (ih _ ⟨?_, hbound, ?_⟩)
        · exact Writer.Sound.advance (w := w.put 0 16 (loadVec src cur))
            ⟨h.sound.level, h.sound.one, h.sound.two⟩ 16
        · rw [advance_pos]
          show w.pos + 16 ≤ cur + 16
          omega
      split
      · exact hscalar h
      rename_i habove
      have hnarrow : Narrow src w.level cur := by
        intro hl i hi
        by_contra hlt
        refine habove ⟨hl, ?_⟩
        simp only [utf8AnyByteAbove, List.any_eq_true, List.mem_range, decide_eq_true_eq]
        exact ⟨i, hi, Nat.lt_of_not_le hlt⟩
      have h₀ : InPlace src (if w.level = 1 then { w with isAscii := false } else w) cur := by
        split
        · exact ⟨⟨h.sound.level, h.sound.one, h.sound.two⟩, hle, h.pos⟩
        · exact h
      have hlevel : (if w.level = 1 then { w with isAscii := false } else w).level = w.level := by
        split <;> rfl
      generalize (if w.level = 1 then { w with isAscii := false } else w) = w₀ at h₀ hlevel ⊢
      have hpattern := blockPattern_spec hbytes h₀.sound hle hplain isa (hlevel ▸ hnarrow)
      refine .append (.load (by omega)) ?_
      cases hcase : blockPattern isa w₀.level (loadVec src cur) with
      | error => exact .empty
      | chars lanes stored kept taken =>
          rw [hcase] at hpattern
          have hstored := blockPattern_stored hcase
          exact .append (.store (h₀.stop_le _ (by omega))) (ih _ (h₀.copied hpattern.1))
      | none =>
          obtain ⟨state, w₁, cur₁, ds₁, heq, hspec⟩ :=
            decodeBytesBlockScalar_spec hbytes (cur + budget) (src.len + 1) h₀.sound hle (by omega)
          refine .append (hscalar h₀) ?_
          rw [heq]
          cases state with
          | «continue» => exact ih _ (h₀.copied hspec.copied)
          | «end» | escape | promote | invalid => exact .empty

omit hbytes in
theorem readHexTrace_within (pos offset : Nat) :
    (readHexTrace src pos offset).Within limit (4 * src.len) := by
  unfold readHexTrace
  split
  · exact .load (by omega)
  · exact .empty

omit hbytes in
/-- The byte behind a backslash is there, and others are read only where they are in the text. -/
theorem doDecodeEscapeTrace_within {pos : Nat} (hlt : pos < src.len) :
    (doDecodeEscapeTrace src pos).Within limit (4 * src.len) := by
  unfold doDecodeEscapeTrace decodeUnicodeEscapeTrace
  refine .append (.load (by omega)) ?_
  split
  · refine .append (readHexTrace_within hlimit _ _) ?_
    split
    · exact .empty
    split
    · exact .empty
    rename_i hi _ hlong
    have hbound : pos + 12 ≤ src.len := Nat.le_of_not_lt fun h => hlong (.inr (.inr h))
    refine .append (.load (by omega)) ?_
    split
    · exact .empty
    · exact readHexTrace_within hlimit _ _
  · exact .empty

/-- All rounds of the loops stay in place, in the widths they are promoted to as well. -/
theorem decodeBytesUtf8LoopTrace_within (fuel : Nat) (h : InPlace src w cur) :
    (decodeBytesUtf8LoopTrace isa src fuel w cur).Within limit (4 * src.len) := by
  induction fuel generalizing w cur with
  | zero => exact .empty
  | succ fuel ih =>
      have hle := h.le
      obtain ⟨state, w', cur', ds, heq, hspec⟩ := decodeBytesBlock_spec isa hbytes (src.len + 1) 32
        (by decide) h.sound hle (by omega)
      have h' := h.copied hspec.copied
      have hle' := h'.le
      have hstop := hspec.stop
      unfold decodeBytesUtf8LoopTrace
      rw [heq]
      refine .append (decodeBytesBlockTrace_within hlimit hbytes _ _ h) ?_
      cases state with
      | «continue» => exact ih h'
      | «end» => exact .empty
      | escape =>
          have hback : src.read cur' = 0x5C := hstop
          have hlt := Source.lt_of_read hle' (show src.read cur' ≠ 0 by omega)
          have hescape := doDecodeEscape_spec hbytes.fits hlt
          refine .append (doDecodeEscapeTrace_within hlimit hlt) ?_
          cases hread : doDecodeEscape .ucs1 src cur' with
          | none => exact .empty
          | some read =>
              obtain ⟨val, size⟩ := read
              rw [hread] at hescape
              cases hescape with
              | found htwo hsize hval hsome =>
                  have hpos := h'.pos
                  have hescaped := h'.processEscapeAscii val (n := size) (by omega) hsize
                  refine .append (.store ?_) (ih hescaped)
                  exact (h'.promote val).stop_le _ (by omega)
      | promote => exact .append (.load (by omega)) (ih (h'.promoteBuffer _))
      | invalid => exact .empty

end Blocks

/-! ## Scanning -/

section Scanning

variable (hlimit : src.len + isa.vectorBits / 8 ≤ limit)

/-- A register of the scan. -/
theorem readBatchCount_ucs1 : readBatchCount isa .ucs1 = isa.vectorBits / 8 := Nat.div_one _

include hlimit

theorem scanOnesTrace_within (fuel : Nat) (hle : cur ≤ src.len) :
    (scanOnesTrace isa src fuel cur).Within limit (4 * src.len) := by
  induction fuel generalizing cur with
  | zero => exact .empty
  | succ fuel ih =>
      have hone := (decodeBytesScanLoop_alike (rfl : src.Alike src) isa 1 hle).2
      unfold scanOnesTrace
      refine .append (.load ?_) ?_
      · rw [readBatchCount_ucs1]
        omega
      generalize decodeBytesScanLoop isa src 1 cur = result at hone ⊢
      obtain ⟨_ | _, next⟩ := result
      · exact .empty
      · exact ih hone

theorem scanFoursTrace_within (fuel : Nat) (hle : cur ≤ src.len) :
    (scanFoursTrace isa src fuel cur).Within limit (4 * src.len) := by
  induction fuel generalizing cur with
  | zero => exact scanOnesTrace_within hlimit _ hle
  | succ fuel ih =>
      have hfour := (decodeBytesScanLoop_alike (rfl : src.Alike src) isa 4 hle).2
      unfold scanFoursTrace
      split
      · rename_i hroom
        refine .append (.load ?_) ?_
        · rw [readBatchCount_ucs1] at hroom ⊢
          omega
        generalize decodeBytesScanLoop isa src 4 cur = result at hfour ⊢
        obtain ⟨_ | _, next⟩ := result
        · exact .empty
        · exact ih hfour
      · exact scanOnesTrace_within hlimit _ hle

theorem bytesScanTrace_within (isKey : Bool) (hle : cur ≤ src.len) :
    (bytesScanTrace isa src isKey cur).Within limit (4 * src.len) := by
  have hload : ∀ {c : Nat}, c ≤ src.len →
      (decodeBytesScanLoopTrace isa 1 c).Within limit (4 * src.len) := by
    intro c hc
    refine .load ?_
    rw [readBatchCount_ucs1]
    omega
  have hone := (decodeBytesScanLoop_alike (rfl : src.Alike src) isa 1 hle).2
  unfold bytesScanTrace
  split
  · exact scanOnesTrace_within hlimit _ hle
  refine .append (hload hle) ?_
  generalize decodeBytesScanLoop isa src 1 cur = result at hone ⊢
  obtain ⟨_ | _, next⟩ := result
  · exact .empty
  have hnext : next ≤ src.len := hone
  have htwo := (decodeBytesScanLoop_alike (rfl : src.Alike src) isa 1 hnext).2
  refine .append (hload hnext) ?_
  generalize decodeBytesScanLoop isa src 1 next = result at htwo ⊢
  obtain ⟨_ | _, next'⟩ := result
  · exact .empty
  · exact scanFoursTrace_within hlimit _ htwo

end Scanning

/-! ## Whole strings -/

theorem vectorBits_ge (isa : Isa) : 16 ≤ isa.vectorBits / 8 := by
  cases isa <;> decide

/-- No load of a string goes a register past the text, and no store past the room for its bytes. -/
theorem loadsBytesTrace_within (hlimit : src.len + isa.vectorBits / 8 ≤ limit)
    (hbytes : src.IsBytes) (scratch : ByteBuffer) (isKey : Bool) {start : Nat}
    (hle : start ≤ src.len) :
    (loadsBytesTrace isa src scratch isKey start).Within limit (4 * src.len) := by
  have hregister := vectorBits_ge isa
  have hscan := bytesScanTrace_within hlimit isKey hle
  have hlast := (bytesScan_alike (rfl : src.Alike src) isa isKey hle).2
  unfold loadsBytesTrace
  dsimp only
  generalize bytesScan isa src isKey start = last at hlast ⊢
  refine .append (.append hscan (.load (by omega))) ?_
  split
  · exact .load (by omega)
  split
  · exact .empty
  unfold decodeBytesUtf8Trace
  dsimp only
  have hempty : InPlace src ⟨1, scratch, 0, 0, 0, true, 0⟩ 0 :=
    ⟨⟨.inl rfl, fun _ => ⟨rfl, rfl⟩, fun _ => rfl⟩, Nat.zero_le _, Nat.le_refl 0⟩
  refine .append (.append (.load (by omega)) (.store (hempty.stop_le _ (by omega)))) ?_
  refine decodeBytesUtf8LoopTrace_within (by omega) hbytes _ ⟨?_, hlast, ?_⟩
  · exact Writer.Sound.advance (w := Writer.put ⟨1, scratch, 0, 0, 0, true, 0⟩ 0 (last - start) _)
      ⟨.inl rfl, fun _ => ⟨rfl, rfl⟩, fun _ => rfl⟩ _
  · rw [advance_pos]
    show 0 + 0 + 0 + (last - start) ≤ last
    omega

/-- Behind the text the copy has room for a register and five bytes more, wherever it begins. -/
theorem allocAlignedBBuf_room {len size offset : Nat} (h : allocAlignedBBuf isa len = some size)
    (hoffset : offset < memcpySimdSize isa) :
    offset + len + isa.vectorBits / 8 + 5 ≤ size := by
  have hsimd : memcpySimdSize isa = isa.vectorBits / 8 := rfl
  have hpos := vectorBits_ge isa
  have halign : len + 2 * memcpySimdSize isa + 4 ≤
      sizeAlignUp (len + 2 * memcpySimdSize isa + 4) (memcpySimdSize isa) := by
    have hdiv := Nat.div_add_mod (len + 2 * memcpySimdSize isa + 4 + memcpySimdSize isa - 1)
      (memcpySimdSize isa)
    have hmod := Nat.mod_lt (len + 2 * memcpySimdSize isa + 4 + memcpySimdSize isa - 1)
      (show 0 < memcpySimdSize isa by omega)
    rw [Nat.mul_comm] at hdiv
    unfold sizeAlignUp
    omega
  unfold allocAlignedBBuf at h
  split at h
  · cases h
  · obtain rfl := Option.some.inj h
    split <;> omega

/-- The scratch buffer has four bytes for each byte of the text. -/
theorem checkAndReserveBytesStrBuffer_room {len capacity : Nat}
    (h : checkAndReserveBytesStrBuffer isa len = some capacity) : 4 * len ≤ capacity := by
  unfold checkAndReserveBytesStrBuffer at h
  split at h
  · cases h
  · obtain rfl := Option.some.inj h
    split <;> omega

end SsrJson.Decode
