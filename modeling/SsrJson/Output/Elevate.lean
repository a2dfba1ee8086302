import SsrJson.Output.Appends
import SsrJson.Simd.LongCvt

/-!
# The final elevation

The parts of the output that were written narrow are widened when it is complete, in the same
memory and from the last part to the first one. `Holds` says what is in the memory at any moment:
the parts that were finished, each with its own width, and the one that is written; the result is
the concatenation of everything appended.
-/

namespace SsrJson.Output

open Decode StoreWriter Simd ByteBuffer

/-! ## The end of a call -/

section Elevate

variable (isa : Isa) (header : StrHeader) (address : Nat) (info : EncodeUnicodeInfo)

/-- `ascii_elevate2`. -/
def asciiElevate2 : ByteBuffer → ByteBuffer :=
  longBackCvt isa address 1 2 (header.compact / 2) header.ascii info.asciiSize

/-- `ascii_elevate4`. -/
def asciiElevate4 : ByteBuffer → ByteBuffer :=
  longBackCvt isa address 1 4 (header.compact / 4) header.ascii info.asciiSize

/-- `ucs1_elevate2`. -/
def ucs1Elevate2 : ByteBuffer → ByteBuffer :=
  longBackCvt isa address 1 2 (header.compact / 2 + info.asciiSize)
    (header.compact + info.asciiSize) info.u8Size

/-- `ucs1_elevate4`. -/
def ucs1Elevate4 : ByteBuffer → ByteBuffer :=
  longBackCvt isa address 1 4 (header.compact / 4 + info.asciiSize)
    (header.compact + info.asciiSize) info.u8Size

/-- `ucs2_elevate4`. -/
def ucs2Elevate4 : ByteBuffer → ByteBuffer :=
  longBackCvt isa address 2 4 (header.compact / 4 + (info.asciiSize + info.u8Size))
    (header.compact / 2 + (info.asciiSize + info.u8Size)) info.u16Size

/-- `ascii_elevate1`: `memmove`. -/
def asciiElevate1 (memory : ByteBuffer) : ByteBuffer :=
  memory.convert 1 header.ascii 1 header.compact info.asciiSize

/-- What each of the functions `ssrjson_dumps_obj` does at `success`, one for each kind. -/
def elevate (memory : ByteBuffer) : ByteBuffer :=
  match info.curUcsType with
  | .ucs4 => asciiElevate4 isa header address info
      (ucs1Elevate4 isa header address info (ucs2Elevate4 isa header address info memory))
  | .ucs2 => asciiElevate2 isa header address info (ucs1Elevate2 isa header address info memory)
  | .ucs1 => asciiElevate1 header info memory
  | .ascii => memory

end Elevate

/-- The end of `ssrjson_dumps_obj`: the last comma is removed, the parts are widened and the memory
is cut down to the object. `memory` is what was in it before. -/
def dumpsSuccess (isa : Isa) (header : StrHeader) (address : Nat) (realloc : Nat → Bool) (u : UBuf)
    (memory : ByteBuffer) : Option PyStr :=
  let kind := u.unicodeInfo.curUcsType
  let elevated := elevate isa header address u.unicodeInfo (u.writer.buffer memory)
  let finalLen := u.writer.index - 1 - header.start kind / kind.size
  if realloc (header.start kind + (finalLen + 1) * kind.size) then
    some ⟨kind, elevated.loadList kind.size (header.start kind / kind.size) finalLen⟩
  else none

/-! ## What is in the memory -/

/-- How much of the output the finished parts have. -/
def EncodeUnicodeInfo.finished (info : EncodeUnicodeInfo) : Nat :=
  info.asciiSize + info.u8Size + info.u16Size

/-- The parts of the output, as they are in the memory. -/
def contents (header : StrHeader) (u : UBuf) (memory : ByteBuffer) : List Nat :=
  let info := u.unicodeInfo
  let kind := info.curUcsType
  memory.loadList 1 header.ascii info.asciiSize ++
    memory.loadList 1 (header.compact + info.asciiSize) info.u8Size ++
    memory.loadList 2 (header.compact / 2 + (info.asciiSize + info.u8Size)) info.u16Size ++
    memory.loadList kind.size (header.start kind / kind.size + info.finished)
      (u.writer.index - (header.start kind / kind.size + info.finished))

/-- Where the parts of an output of `n` characters lie: those of wider kinds than the current one
are empty. -/
structure Laid (header : StrHeader) (u : UBuf) (n : Nat) : Prop where
  width : u.writer.width = u.unicodeInfo.curUcsType.size
  index : u.writer.index =
    header.start u.unicodeInfo.curUcsType / u.unicodeInfo.curUcsType.size + n
  finished : u.unicodeInfo.finished ≤ n
  ascii : u.unicodeInfo.curUcsType = .ascii → u.unicodeInfo.asciiSize = 0
  u8 : u.unicodeInfo.curUcsType = .ascii ∨ u.unicodeInfo.curUcsType = .ucs1 →
    u.unicodeInfo.u8Size = 0
  u16 : u.unicodeInfo.curUcsType ≠ .ucs4 → u.unicodeInfo.u16Size = 0

/-- The output so far is a text. -/
structure Holds (header : StrHeader) (u : UBuf) (text : List Nat) : Prop
    extends Laid header u text.length where
  text : ∀ memory, contents header u (u.writer.buffer memory) = text

variable {header : StrHeader} {u u' : UBuf} {text more : List Nat} {n room : Nat}

/-- The start of the characters is a multiple of their size. -/
theorem StrHeader.size_mul_start (header : StrHeader) (kind : StrKind) :
    kind.size * (header.start kind / kind.size) = header.start kind := by
  refine Nat.mul_div_cancel' ?_
  cases kind with
  | ascii => exact Nat.one_dvd _
  | ucs1 => exact Nat.one_dvd _
  | ucs2 => exact (show 2 ∣ 4 by decide).trans header.aligned
  | ucs4 => exact header.aligned

theorem StrHeader.ascii_le_start (header : StrHeader) (kind : StrKind) :
    header.ascii ≤ header.start kind := by
  unfold StrHeader.start
  split
  · exact Nat.le_refl _
  · exact header.le

/-- The output is empty in the beginning. -/
theorem holds_init (header : StrHeader) : Holds header (initUBuf header) [] where
  width := rfl
  index := (Nat.div_one _).symm
  finished := Nat.le_refl 0
  ascii := fun _ => rfl
  u8 := fun _ => rfl
  u16 := fun _ => rfl
  text := fun memory => by
    show _ ++ ByteBuffer.loadList _ _ _ (header.ascii - (header.ascii / 1 + 0)) = []
    rw [Nat.div_one, Nat.add_zero, Nat.sub_self]
    rfl

/-- Where the writer is. -/
theorem Laid.address (h : Laid header u n) : u.writer.width * u.writer.index =
    header.start u.unicodeInfo.curUcsType + u.unicodeInfo.curUcsType.size * n := by
  rw [h.width, h.index, Nat.mul_add, header.size_mul_start]

/-- The parts lie in front of the writer. -/
theorem Laid.contents_congr (h : Laid header u n) {memory memory' : ByteBuffer}
    (hsame : ∀ a < u.writer.width * u.writer.index, memory a = memory' a) :
    contents header u memory = contents header u memory' := by
  have hpos := StrKind.size_pos u.unicodeInfo.curUcsType
  have haddress := h.address
  have hfinished := h.finished
  have hascii := header.ascii_le_start u.unicodeInfo.curUcsType
  have hgrow : n ≤ u.unicodeInfo.curUcsType.size * n := Nat.le_mul_of_pos_left n hpos
  unfold EncodeUnicodeInfo.finished at hfinished
  unfold contents
  dsimp only
  congr 1
  · congr 1
    · congr 1
      · exact loadList_congr hsame (by omega)
      · cases hkind : u.unicodeInfo.curUcsType with
        | ascii => rw [h.u8 (.inl hkind)]; rfl
        | ucs1 => rw [h.u8 (.inr hkind)]; rfl
        | ucs2 | ucs4 =>
            rw [hkind] at haddress hgrow
            have hstart : header.start u.unicodeInfo.curUcsType = header.compact := by
              rw [hkind]
              rfl
            rw [hkind] at hstart
            exact loadList_congr hsame (by omega)
    · cases hkind : u.unicodeInfo.curUcsType with
      | ascii | ucs1 | ucs2 => rw [h.u16 (by rw [hkind]; decide)]; rfl
      | ucs4 =>
          have hstart : header.start .ucs4 = header.compact := rfl
          have hsize : StrKind.ucs4.size = 4 := rfl
          rw [hkind, hstart, hsize] at haddress
          exact loadList_congr hsame (by omega)
  · refine loadList_congr hsame ?_
    rw [h.width, h.index]
    unfold EncodeUnicodeInfo.finished
    exact Nat.mul_le_mul_left _ (by omega)

/-- An append behind the writer leaves what is there. -/
theorem Holds.append (h : Holds header u text) (hinfo : u'.unicodeInfo = u.unicodeInfo)
    (hwrites : Writes u.writer u'.writer more room) : Holds header u' (text ++ more) := by
  have hindex := hwrites.index
  have hlaid : Laid header u' (text ++ more).length := by
    refine ⟨by rw [hwrites.width, hinfo, h.width], ?_, ?_, hinfo ▸ h.ascii, hinfo ▸ h.u8,
      hinfo ▸ h.u16⟩
    · rw [hindex, h.index, hinfo, List.length_append, Nat.add_assoc]
    · rw [hinfo, List.length_append]
      exact h.finished.trans (Nat.le_add_right _ _)
  refine ⟨hlaid, fun memory => ?_⟩
  have hold := h.text memory
  have hfinished := h.finished
  rw [← h.contents_congr fun a ha => hwrites.below memory ha] at hold
  have hnew := hwrites.load memory
  have hat := h.index
  rw [← hold]
  unfold contents
  dsimp only
  rw [hinfo, show u'.writer.index - (header.start u.unicodeInfo.curUcsType /
      u.unicodeInfo.curUcsType.size + u.unicodeInfo.finished) =
    u.writer.index - (header.start u.unicodeInfo.curUcsType / u.unicodeInfo.curUcsType.size +
      u.unicodeInfo.finished) + more.length by omega, loadList_add, ← List.append_assoc]
  congr 1
  rw [← h.width, show header.start u.unicodeInfo.curUcsType / u.writer.width +
    u.unicodeInfo.finished + (u.writer.index - (header.start u.unicodeInfo.curUcsType /
      u.writer.width + u.unicodeInfo.finished)) = u.writer.index by rw [h.width]; omega]
  exact hnew

/-- The end of a container steps back over a comma of the current part. -/
theorem Holds.stepBack (h : Holds header u text) (hlive : u.unicodeInfo.finished < text.length) :
    Holds header (stepBack u) text.dropLast := by
  have hat := h.index
  have hlaid : Laid header (SsrJson.Output.stepBack u) text.dropLast.length := by
    refine ⟨h.width, ?_, ?_, h.ascii, h.u8, h.u16⟩
    · rw [List.length_dropLast]
      show u.writer.index - 1 = header.start u.unicodeInfo.curUcsType /
        u.unicodeInfo.curUcsType.size + (text.length - 1)
      rw [hat]
      exact Nat.add_sub_assoc (Nat.succ_le_of_lt (Nat.zero_lt_of_lt hlive)) _
    · rw [List.length_dropLast]
      exact Nat.le_sub_one_of_lt hlive
  refine ⟨hlaid, fun memory => ?_⟩
  have hold := h.text memory
  rw [← hold]
  unfold contents
  dsimp only
  show _ ++ ByteBuffer.loadList _ _ _ (u.writer.index - 1 - (header.start u.unicodeInfo.curUcsType /
    u.unicodeInfo.curUcsType.size + u.unicodeInfo.finished)) = _
  rw [show u.writer.index - (header.start u.unicodeInfo.curUcsType /
      u.unicodeInfo.curUcsType.size + u.unicodeInfo.finished) =
    u.writer.index - 1 - (header.start u.unicodeInfo.curUcsType /
      u.unicodeInfo.curUcsType.size + u.unicodeInfo.finished) + 1 by omega, loadList_add,
    ← List.append_assoc]
  exact (List.dropLast_concat).symm

/-- The ASCII part is finished. -/
theorem Holds.memorizeAscii (h : Holds header u text) (hcur : u.unicodeInfo.curUcsType = .ascii)
    {wide : StrKind} (hwide : wide ≠ .ascii) : Holds header (memorizeAscii header wide u) text := by
  obtain ⟨⟨width, index, log⟩, info, ⟨a, b, c, kind⟩⟩ := u
  obtain rfl : kind = .ascii := hcur
  obtain rfl : a = 0 := h.ascii rfl
  obtain rfl : b = 0 := h.u8 (.inl rfl)
  obtain rfl : c = 0 := h.u16 (show StrKind.ascii ≠ .ucs4 by decide)
  have hindex : index = header.ascii / 1 + text.length := h.index
  have hstart : header.start wide = header.compact := if_neg hwide
  have hlen : index - header.ascii = text.length := by
    rw [hindex, Nat.div_one, Nat.add_sub_cancel_left]
  refine ⟨⟨rfl, ?_, ?_, fun hfalse => absurd hfalse hwide, fun _ => rfl, fun _ => rfl⟩,
    fun memory => ?_⟩
  · show header.compact / wide.size + (index - header.ascii) =
      header.start wide / wide.size + text.length
    rw [hlen, hstart]
  · show index - header.ascii + 0 + 0 ≤ text.length
    rw [hlen]
    exact Nat.le_refl _
  · have hold : ByteBuffer.loadList _ 1 (header.ascii / 1 + 0) (index - (header.ascii / 1 + 0)) =
      text := h.text memory
    rw [Nat.div_one, Nat.add_zero, hlen] at hold
    show ByteBuffer.loadList _ 1 header.ascii (index - header.ascii) ++ [] ++ [] ++
      ByteBuffer.loadList _ wide.size (header.start wide / wide.size + (index - header.ascii + 0 + 0))
        (header.compact / wide.size + (index - header.ascii) -
          (header.start wide / wide.size + (index - header.ascii + 0 + 0))) = text
    rw [hlen, hstart, Nat.add_zero, Nat.sub_self, loadList_zero, List.append_nil,
      List.append_nil, List.append_nil]
    exact hold

/-- The UCS1 part is finished. -/
theorem Holds.memorizeUcs1 (h : Holds header u text) (hcur : u.unicodeInfo.curUcsType = .ucs1)
    {wide : StrKind} (hwide : wide ≠ .ascii) (hwide' : wide ≠ .ucs1) :
    Holds header (memorizeUcs1 header wide u) text := by
  obtain ⟨⟨width, index, log⟩, info, ⟨a, b, c, kind⟩⟩ := u
  obtain rfl : kind = .ucs1 := hcur
  obtain rfl : b = 0 := h.u8 (.inr rfl)
  obtain rfl : c = 0 := h.u16 (show StrKind.ucs1 ≠ .ucs4 by decide)
  have hindex : index = header.compact / 1 + text.length := h.index
  have hfinished : a ≤ text.length := h.finished
  have hstart : header.start wide = header.compact := if_neg hwide
  have hlen : index - header.compact = text.length := by
    rw [hindex, Nat.div_one, Nat.add_sub_cancel_left]
  refine ⟨⟨rfl, ?_, ?_, fun hfalse => absurd hfalse hwide, fun hfalse => ?_, fun _ => rfl⟩,
    fun memory => ?_⟩
  · show header.compact / wide.size + (index - header.compact) =
      header.start wide / wide.size + text.length
    rw [hlen, hstart]
  · show a + (index - header.compact - a) + 0 ≤ text.length
    omega
  · rcases hfalse with hfalse | hfalse
    · exact absurd hfalse hwide
    · exact absurd hfalse hwide'
  · have hold : ByteBuffer.loadList _ 1 header.ascii a ++ [] ++ [] ++
      ByteBuffer.loadList _ 1 (header.compact / 1 + a) (index - (header.compact / 1 + a)) =
        text := h.text memory
    rw [Nat.div_one, ← Nat.sub_sub, hlen, List.append_nil, List.append_nil] at hold
    show ByteBuffer.loadList _ 1 header.ascii a ++
      ByteBuffer.loadList _ 1 (header.compact + a) (index - header.compact - a) ++ [] ++
        ByteBuffer.loadList _ wide.size
          (header.start wide / wide.size + (a + (index - header.compact - a) + 0))
          (header.compact / wide.size + (index - header.compact) -
            (header.start wide / wide.size + (a + (index - header.compact - a) + 0))) = text
    rw [hlen, hstart, Nat.add_zero, Nat.add_sub_cancel' hfinished, Nat.sub_self, loadList_zero,
      List.append_nil, List.append_nil]
    exact hold

/-- The UCS2 part is finished. -/
theorem Holds.memorizeUcs2 (h : Holds header u text) (hcur : u.unicodeInfo.curUcsType = .ucs2) :
    Holds header (memorizeUcs2ToUcs4 header u) text := by
  obtain ⟨⟨width, index, log⟩, info, ⟨a, b, c, kind⟩⟩ := u
  obtain rfl : kind = .ucs2 := hcur
  obtain rfl : c = 0 := h.u16 (show StrKind.ucs2 ≠ .ucs4 by decide)
  have hindex : index = header.compact / 2 + text.length := h.index
  have hfinished : a + b ≤ text.length := h.finished
  have hlen : index - header.compact / 2 = text.length := by
    rw [hindex, Nat.add_sub_cancel_left]
  refine ⟨⟨rfl, ?_, ?_, fun hfalse => ?_, fun hfalse => ?_, fun hfalse => ?_⟩, fun memory => ?_⟩
  · show header.compact / 4 + (index - header.compact / 2) = header.compact / 4 + text.length
    rw [hlen]
  · show a + b + (index - header.compact / 2 - a - b) ≤ text.length
    omega
  · exact absurd (show StrKind.ucs4 = .ascii from hfalse) (by decide)
  · rcases hfalse with hfalse | hfalse
    · exact absurd (show StrKind.ucs4 = .ascii from hfalse) (by decide)
    · exact absurd (show StrKind.ucs4 = .ucs1 from hfalse) (by decide)
  · exact absurd rfl hfalse
  · have hold : ByteBuffer.loadList _ 1 header.ascii a ++
      ByteBuffer.loadList _ 1 (header.compact + a) b ++ [] ++
      ByteBuffer.loadList _ 2 (header.compact / 2 + (a + b + 0))
        (index - (header.compact / 2 + (a + b + 0))) = text := h.text memory
    rw [Nat.add_zero, ← Nat.sub_sub, hlen, List.append_nil] at hold
    show ByteBuffer.loadList _ 1 header.ascii a ++
      ByteBuffer.loadList _ 1 (header.compact + a) b ++
      ByteBuffer.loadList _ 2 (header.compact / 2 + (a + b)) (index - header.compact / 2 - a - b) ++
        ByteBuffer.loadList _ 4
          (header.compact / 4 + (a + b + (index - header.compact / 2 - a - b)))
          (header.compact / 4 + (index - header.compact / 2) -
            (header.compact / 4 + (a + b + (index - header.compact / 2 - a - b)))) = text
    rw [hlen, Nat.sub_sub, Nat.add_sub_cancel' hfinished, Nat.sub_self, loadList_zero,
      List.append_nil]
    exact hold

/-- Going on to wider elements finishes the current part. -/
theorem Holds.prepare (h : Holds header u text) (kind : StrKind) :
    Holds header (prepareUnicodeWrite header kind u) text := by
  unfold prepareUnicodeWrite
  cases hcur : u.unicodeInfo.curUcsType with
  | ascii =>
      cases kind with
      | ascii => exact h
      | ucs1 | ucs2 | ucs4 => exact h.memorizeAscii hcur (by decide)
  | ucs1 =>
      cases kind with
      | ascii | ucs1 => exact h
      | ucs2 | ucs4 => exact h.memorizeUcs1 hcur (by decide) (by decide)
  | ucs2 =>
      cases kind with
      | ascii | ucs1 | ucs2 => exact h
      | ucs4 => exact h.memorizeUcs2 hcur
  | ucs4 => exact h

/-! ## Runs keep it -/

section Runs

variable {isa : Isa} {indent : Nat} {realloc : Nat → Bool}

theorem appendText_ne_nil (curNestedDepth : Nat) (op : Append) :
    0 < (appendText indent curNestedDepth op).length := by
  cases op with
  | str slot arg =>
      cases slot <;> simp only [appendText, keyText, strText, List.length_append, List.length_cons] <;>
        omega
  | bool isInObj falsy =>
      cases falsy <;> simp [appendText]
  | null | emptyArr | emptyObj | arrBegin | objBegin | arrEnd | objEnd => simp [appendText]

/-- What an append finds is the text so far, without its last comma at the end of a container. -/
theorem Holds.entered (h : Holds header u text) (op : Append)
    (hlive : op.isEnd = true → u.unicodeInfo.finished < text.length) :
    Holds header (entered header op u) (if op.isEnd then text.dropLast else text) := by
  cases op with
  | str slot arg => exact h.prepare arg.kind
  | arrEnd => exact h.stepBack (hlive rfl)
  | objEnd => exact h.stepBack (hlive rfl)
  | null | bool | emptyArr | emptyObj | arrBegin | objBegin => exact h

/-- One append. Behind it the current part is not empty. -/
theorem Holds.step (h : Holds header u text) {op : Nat × Append}
    (hlive : op.2.isEnd = true → u.unicodeInfo.finished < text.length)
    (hok : SsrJson.Output.append isa header indent realloc op.1 op.2 u = .ok u') :
    Holds header u' (appended indent text op) ∧
      u'.unicodeInfo.finished < (appended indent text op).length := by
  have happended := @append_appended isa header indent realloc op.1 op.2 _ h.width
  rw [hok] at happended
  obtain ⟨hinfo, -, size, hwrites, -⟩ := happended
  have hentered := h.entered op.2 hlive
  have hpos := @appendText_ne_nil indent op.1 op.2
  have hfinished := hentered.finished
  refine ⟨hentered.append hinfo hwrites, ?_⟩
  unfold appended
  rw [List.length_append, hinfo]
  omega

/-- All appends, from a buffer whose current part is not empty. -/
theorem Holds.run (ops : List (Nat × Append)) (h : Holds header u text)
    (hlive : u.unicodeInfo.finished < text.length)
    (hok : appendAll isa header indent realloc ops u = .ok u') :
    Holds header u' (ops.foldl (appended indent) text) ∧
      u'.unicodeInfo.finished < (ops.foldl (appended indent) text).length := by
  induction ops generalizing u text with
  | nil =>
      obtain rfl : u = u' := by injection hok
      exact ⟨h, hlive⟩
  | cons op ops ih =>
      rw [appendAll] at hok
      cases hone : SsrJson.Output.append isa header indent realloc op.1 op.2 u with
      | error => rw [hone] at hok; cases hok
      | ok u₁ =>
          rw [hone] at hok
          obtain ⟨hstep, hlive'⟩ := h.step (fun _ => hlive) hone
          exact ih hstep hlive' hok

end Runs

/-! ## Widening the parts -/

/-- Memory is bytes, and remains so. -/
theorem isBytes_buffer {memory : ByteBuffer} (hbytes : memory.IsBytes) (w : StoreWriter) :
    (w.buffer memory).IsBytes := by
  unfold StoreWriter.buffer
  induction w.log generalizing memory with
  | nil => exact hbytes
  | cons s log ih => exact ih (hbytes.store s.width s.index s.count s.lanes)

/-- Elements of memory that is the same where they lie. -/
theorem loadList_congr_of {memory memory' : ByteBuffer} {width i n : Nat}
    (hsame : ∀ a, width * i ≤ a → a < width * (i + n) → memory a = memory' a) :
    memory.loadList width i n = memory'.loadList width i n := by
  refine List.map_congr_left fun k hk => ofBytes_congr fun j hj => hsame _ ?_ ?_
  · rw [Nat.mul_add]
    omega
  · have hle : width * (k + 1) ≤ width * n :=
      Nat.mul_le_mul_left width (List.mem_range.mp hk)
    rw [Nat.mul_add] at hle ⊢
    rw [Nat.mul_add]
    omega

/-- One part is widened: it is at its place then, and what lies elsewhere is the same. -/
theorem widened (isa : Isa) (address : Nat) {rd wr dst src count : Nat} {memory : ByteBuffer}
    (hbytes : memory.IsBytes) (hwidths : (rd, wr) ∈ cvtWidths) (hplace : rd * src ≤ wr * dst) :
    ∃ memory' : ByteBuffer, longBackCvt isa address rd wr dst src count memory = memory' ∧
      memory'.IsBytes ∧ memory'.loadList wr dst count = memory.loadList rd src count ∧
      ∀ width i n : Nat, width * (i + n) ≤ wr * dst ∨ wr * (dst + count) ≤ width * i →
        memory'.loadList width i n = memory.loadList width i n := by
  obtain ⟨hlist, hkept⟩ := @longBackCvt_spec isa address _ _ _ _ count _ hwidths hbytes
    hplace
  refine ⟨_, rfl, hbytes.convertBack _ _ _ _ _, hlist, fun width i n hout => ?_⟩
  refine loadList_congr_of fun a hlow hhigh => hkept a ?_
  rcases hout with hout | hout
  · exact .inl (hhigh.trans_le hout)
  · exact .inr (hout.trans hlow)

section Widths

variable (isa : Isa) (header : StrHeader) (address : Nat) {memory : ByteBuffer}
  (hbytes : memory.IsBytes) (a b c d : Nat)

include hbytes

/-- The parts in front of UCS4: each is widened before the one in front of it. -/
theorem elevate_ucs4 : (elevate isa header address ⟨a, b, c, .ucs4⟩ memory).loadList 4
      (header.compact / 4) (a + b + c + d) =
    memory.loadList 1 header.ascii a ++ memory.loadList 1 (header.compact + a) b ++
      memory.loadList 2 (header.compact / 2 + (a + b)) c ++
        memory.loadList 4 (header.compact / 4 + (a + b + c)) d := by
  have hle := header.le
  obtain ⟨q, hq⟩ := header.aligned
  obtain ⟨memory₁, hstep₁, hbytes₁, hpart₁, hkept₁⟩ := @widened isa address _ _ _ _ c _ hbytes
    (show (2, 4) ∈ cvtWidths by decide)
    (show 2 * (header.compact / 2 + (a + b)) ≤ 4 * (header.compact / 4 + (a + b)) by omega)
  obtain ⟨memory₂, hstep₂, hbytes₂, hpart₂, hkept₂⟩ := @widened isa address _ _ _ _ b _ hbytes₁
    (show (1, 4) ∈ cvtWidths by decide)
    (show 1 * (header.compact + a) ≤ 4 * (header.compact / 4 + a) by omega)
  obtain ⟨memory₃, hstep₃, -, hpart₃, hkept₃⟩ := @widened isa address _ _ _ _ a _ hbytes₂
    (show (1, 4) ∈ cvtWidths by decide)
    (show 1 * header.ascii ≤ 4 * (header.compact / 4) by omega)
  have helevate : elevate isa header address ⟨a, b, c, .ucs4⟩ memory = memory₃ := by
    unfold elevate asciiElevate4 ucs1Elevate4 ucs2Elevate4
    dsimp only
    rw [hstep₁, hstep₂, hstep₃]
  rw [helevate, loadList_add, loadList_add, loadList_add, hpart₃]
  congr 1
  · congr 1
    · congr 1
      · rw [hkept₂ 1 header.ascii a (by omega), hkept₁ 1 header.ascii a (by omega)]
      · rw [hkept₃ 4 (header.compact / 4 + a) b (by omega), hpart₂,
          hkept₁ 1 (header.compact + a) b (by omega)]
    · rw [hkept₃ 4 (header.compact / 4 + (a + b)) c (by omega),
        hkept₂ 4 (header.compact / 4 + (a + b)) c (by omega), hpart₁]
  · rw [hkept₃ 4 (header.compact / 4 + (a + b + c)) d (by omega),
      hkept₂ 4 (header.compact / 4 + (a + b + c)) d (by omega),
      hkept₁ 4 (header.compact / 4 + (a + b + c)) d (by omega)]

/-- The parts in front of UCS2. -/
theorem elevate_ucs2 : (elevate isa header address ⟨a, b, 0, .ucs2⟩ memory).loadList 2
      (header.compact / 2) (a + b + d) =
    memory.loadList 1 header.ascii a ++ memory.loadList 1 (header.compact + a) b ++
      memory.loadList 2 (header.compact / 2 + (a + b)) d := by
  have hle := header.le
  obtain ⟨q, hq⟩ := header.aligned
  obtain ⟨memory₁, hstep₁, hbytes₁, hpart₁, hkept₁⟩ := @widened isa address _ _ _ _ b _ hbytes
    (show (1, 2) ∈ cvtWidths by decide)
    (show 1 * (header.compact + a) ≤ 2 * (header.compact / 2 + a) by omega)
  obtain ⟨memory₂, hstep₂, -, hpart₂, hkept₂⟩ := @widened isa address _ _ _ _ a _ hbytes₁
    (show (1, 2) ∈ cvtWidths by decide)
    (show 1 * header.ascii ≤ 2 * (header.compact / 2) by omega)
  have helevate : elevate isa header address ⟨a, b, 0, .ucs2⟩ memory = memory₂ := by
    unfold elevate asciiElevate2 ucs1Elevate2
    dsimp only
    rw [hstep₁, hstep₂]
  rw [helevate, loadList_add, loadList_add, hpart₂]
  congr 1
  · congr 1
    · rw [hkept₁ 1 header.ascii a (by omega)]
    · rw [hkept₂ 2 (header.compact / 2 + a) b (by omega), hpart₁]
  · rw [hkept₂ 2 (header.compact / 2 + (a + b)) d (by omega),
      hkept₁ 2 (header.compact / 2 + (a + b)) d (by omega)]

/-- The ASCII part in front of UCS1 is moved. -/
theorem elevate_ucs1 : (elevate isa header address ⟨a, 0, 0, .ucs1⟩ memory).loadList 1
      header.compact (a + d) =
    memory.loadList 1 header.ascii a ++ memory.loadList 1 (header.compact + a) d := by
  unfold elevate asciiElevate1
  dsimp only
  rw [loadList_add]
  congr 1
  · refine List.map_congr_left fun i hi => ?_
    exact load_store (List.mem_range.mp hi) (hbytes.load_lt 1 _)
  · refine loadList_congr_of fun address hlow _ => store_outside (.inr ?_)
    exact hlow

end Widths

/-- Behind the elevation the elements of the final width are what the parts held. -/
theorem elevate_contents (isa : Isa) (address : Nat) (h : Laid header u n) {memory : ByteBuffer}
    (hbytes : memory.IsBytes) :
    (elevate isa header address u.unicodeInfo memory).loadList u.unicodeInfo.curUcsType.size
        (header.start u.unicodeInfo.curUcsType / u.unicodeInfo.curUcsType.size) n =
      contents header u memory := by
  obtain ⟨⟨width, index, log⟩, info, ⟨a, b, c, kind⟩⟩ := u
  obtain ⟨d, rfl⟩ : ∃ d, n = a + b + c + d := Nat.exists_eq_add_of_le h.finished
  have hindex : index = header.start kind / kind.size + (a + b + c + d) := h.index
  have hlast : index - (header.start kind / kind.size + (a + b + c)) = d := by omega
  show (elevate isa header address ⟨a, b, c, kind⟩ memory).loadList kind.size
      (header.start kind / kind.size) (a + b + c + d) =
    memory.loadList 1 header.ascii a ++ memory.loadList 1 (header.compact + a) b ++
      memory.loadList 2 (header.compact / 2 + (a + b)) c ++
        memory.loadList kind.size (header.start kind / kind.size + (a + b + c))
          (index - (header.start kind / kind.size + (a + b + c)))
  rw [hlast]
  cases kind with
  | ascii =>
      obtain rfl : a = 0 := h.ascii rfl
      obtain rfl : b = 0 := h.u8 (.inl rfl)
      obtain rfl : c = 0 := h.u16 (show StrKind.ascii ≠ .ucs4 by decide)
      simp only [Nat.zero_add, Nat.add_zero, loadList_zero, List.nil_append]
      rfl
  | ucs1 =>
      obtain rfl : b = 0 := h.u8 (.inr rfl)
      obtain rfl : c = 0 := h.u16 (show StrKind.ucs1 ≠ .ucs4 by decide)
      have hparts := elevate_ucs1 isa header address hbytes a d
      simp only [Nat.add_zero, loadList_zero, List.append_nil]
      show ByteBuffer.loadList _ 1 (header.compact / 1) (a + d) = _ ++
        ByteBuffer.loadList _ 1 (header.compact / 1 + a) d
      rw [Nat.div_one]
      exact hparts
  | ucs2 =>
      obtain rfl : c = 0 := h.u16 (show StrKind.ucs2 ≠ .ucs4 by decide)
      simp only [Nat.add_zero, loadList_zero, List.append_nil]
      exact elevate_ucs2 isa header address hbytes a b d
  | ucs4 => exact elevate_ucs4 isa header address hbytes a b c d

/-! ## The result -/

/-- Whatever is appended, in whatever order of kinds, the result has the widest kind and is the
concatenation of everything without the last comma. The first append is not the end of a
container; the memory held any bytes before. -/
theorem dumpsSuccess_concatenation (isa : Isa) (header : StrHeader) (address indent : Nat)
    (realloc : Nat → Bool) (first : Nat × Append) (ops : List (Nat × Append)) (u : UBuf)
    (memory : ByteBuffer) (str : PyStr) (hfirst : first.2.isEnd = false) (hbytes : memory.IsBytes)
    (hrun : appendAll isa header indent realloc (first :: ops) (initUBuf header) = .ok u)
    (hstr : dumpsSuccess isa header address realloc u memory = some str) :
    str.chars = (concatenation indent (first :: ops)).dropLast ∧
      str.kind = widestKind (first :: ops) := by
  obtain ⟨-, hkind⟩ := appendAll_width _ rfl hrun
  have hholds : Holds header u (concatenation indent (first :: ops)) ∧
      u.unicodeInfo.finished < (concatenation indent (first :: ops)).length := by
    rw [appendAll] at hrun
    cases hone : append isa header indent realloc first.1 first.2 (initUBuf header) with
    | error => rw [hone] at hrun; cases hrun
    | ok u₁ =>
        rw [hone] at hrun
        obtain ⟨hstep, hlive⟩ := (holds_init header).step (fun hend => by
          rw [hfirst] at hend
          cases hend) hone
        exact hstep.run ops hlive hrun
  obtain ⟨hholds, hlive⟩ := hholds
  have hcontents := elevate_contents isa address hholds.toLaid (isBytes_buffer hbytes u.writer)
  rw [hholds.text] at hcontents
  have hindex := hholds.index
  have hlen : u.writer.index - 1 - header.start u.unicodeInfo.curUcsType /
      u.unicodeInfo.curUcsType.size = (concatenation indent (first :: ops)).length - 1 := by omega
  unfold dumpsSuccess at hstr
  dsimp only at hstr
  rw [hlen] at hstr
  split at hstr
  · obtain rfl := Option.some.inj hstr
    refine ⟨?_, hkind⟩
    obtain ⟨k, hk⟩ : ∃ k, (concatenation indent (first :: ops)).length = k + 1 :=
      ⟨_, (Nat.sub_add_cancel (Nat.succ_le_of_lt (Nat.zero_lt_of_lt hlive))).symm⟩
    rw [hk, loadList_add] at hcontents
    rw [hk, Nat.add_sub_cancel, ← hcontents]
    exact (List.dropLast_concat).symm
  · cases hstr

/-- A `str` of Latin letters. -/
def latinArg : StrArg where
  kind := .ucs1
  src := .ofUnits [0xE9]
  isCompact := true
  fits := by
    show ∀ u ∈ [0xE9], u ≤ 0xFF
    decide

/-- Appends that get wider twice. -/
def mixedOps : List (Nat × Append) :=
  [(1, .str .key latinArg), (1, .str .value wideArg), (0, .objEnd)]

/-- The buffer behind them. -/
def mixedUBuf : UBuf :=
  match appendAll .sse headerOf312 0 (fun _ => true) ((0, .objBegin true) :: mixedOps)
    (initUBuf headerOf312) with
  | .ok u => u
  | .error u => u

/-- ASCII, then Latin letters, then four bytes a character. -/
theorem dumpsSuccess_concatenation_mixed :
    ∃ str, dumpsSuccess .sse headerOf312 4096 (fun _ => true) mixedUBuf (fun _ => 0) = some str ∧
      str.chars = [0x7B, 0x22, 0xE9, 0x22, 0x3A, 0x22, 0x1F600, 0x5C, 0x22, 0x22, 0x7D] ∧
      str.kind = .ucs4 := by
  obtain ⟨hchars, hkind⟩ := dumpsSuccess_concatenation .sse headerOf312 4096 0 (fun _ => true)
    (0, .objBegin true) mixedOps mixedUBuf (fun _ => 0) _ rfl (fun _ => Nat.zero_lt_succ 255) rfl rfl
  exact ⟨_, rfl, hchars, hkind⟩

end SsrJson.Output
