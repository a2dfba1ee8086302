import SsrJson.Decode.BytesStr
import SsrJson.Decode.StrScanLemmas
import SsrJson.Decode.StrWriterLemmas
import SsrJson.Library.Bits

/-!
# Sequences of UTF-8 in a source

The tests on four bytes loaded at once are the rules for UTF-8 sequences. `Took` says that a reader
passed the bytes of some characters; what is left of the string is then read as before.
-/

namespace SsrJson.Decode

open Spec Utf8

variable {src : Source} {cur : Nat}

/-- A source of bytes, with bytes beyond it. -/
def Source.IsBytes (src : Source) : Prop := ∀ pos, src.read pos < 256

theorem Source.IsBytes.fits (h : src.IsBytes) : src.Fits .ucs1 := by
  intro u hu
  obtain ⟨i, hi, rfl⟩ := List.getElem_of_mem hu
  have := h i
  rw [Source.read_of_lt hi] at this
  exact Nat.le_of_lt_succ this

theorem Source.isBytes_ofUnits {units : List Nat} (h : ∀ u ∈ units, u < 256) :
    (Source.ofUnits units).IsBytes := by
  intro pos
  unfold Source.read
  split
  · exact h _ (List.getElem_mem _)
  · split <;> exact Nat.zero_lt_succ _

/-! ## Tests on four bytes -/

/-- A mask on four bytes is a mask on each. -/
theorem byteLoad4_and (hbytes : src.IsBytes) {m₀ m₁ m₂ : Nat} (m₃ : Nat) (h₀ : m₀ < 256)
    (h₁ : m₁ < 256) (h₂ : m₂ < 256) :
    byteLoad4 src cur &&& (m₀ + 256 * (m₁ + 256 * (m₂ + 256 * m₃))) =
      (src.read cur &&& m₀) + 256 * ((src.read (cur + 1) &&& m₁) +
        256 * ((src.read (cur + 2) &&& m₂) + 256 * (src.read (cur + 3) &&& m₃))) := by
  rw [byteLoad4, and_byte _ _ (hbytes _) h₀, and_byte _ _ (hbytes _) h₁, and_byte _ _ (hbytes _) h₂]

theorem and_c0 (b : Nat) : b &&& 0xC0 = b / 64 % 4 * 64 := and_mask b 6 2
theorem and_3f (b : Nat) : b &&& 0x3F = b % 64 := by simpa using and_mask b 0 6

theorem utf8IsSeq2_iff (hbytes : src.IsBytes) :
    utf8IsSeq2 (byteLoad4 src cur) = true ↔ IsSeq2 (src.read cur) (src.read (cur + 1)) := by
  have hlead : byteLoad4 src cur &&& 0x0000C0E0 =
      (src.read cur &&& 0xE0) + 256 * ((src.read (cur + 1) &&& 0xC0) + 0) := by
    have := @byteLoad4_and _ cur hbytes 0xE0 0xC0 0 0 (by decide) (by decide) (by decide)
    simpa using this
  have hlow : byteLoad4 src cur &&& 0x0000001E = src.read cur &&& 0x1E := by
    have := @byteLoad4_and _ cur hbytes 0x1E 0 0 0 (by decide) (by decide) (by decide)
    simpa using this
  have h₀ := hbytes cur
  have h₁ := hbytes (cur + 1)
  rw [show src.read cur &&& 0xE0 = src.read cur / 32 % 8 * 32 from and_mask _ 5 3, and_c0] at hlead
  rw [show src.read cur &&& 0x1E = src.read cur / 2 % 16 * 2 from and_mask _ 1 4] at hlow
  simp only [utf8IsSeq2, hlead, hlow, Bool.and_eq_true, decide_eq_true_eq, IsSeq2, isCont_iff]
  omega

theorem toB2Unicode_eq (hbytes : src.IsBytes)
    (h : IsSeq2 (src.read cur) (src.read (cur + 1))) :
    toB2Unicode (byteLoad4 src cur) = seq2 (src.read cur) (src.read (cur + 1)) := by
  have hhigh : byteLoad4 src cur &&& 0x1F = src.read cur &&& 0x1F := by
    have := @byteLoad4_and _ cur hbytes 0x1F 0 0 0 (by decide) (by decide) (by decide)
    simpa using this
  have hlow : byteLoad4 src cur &&& 0x3F00 = 256 * (src.read (cur + 1) &&& 0x3F) := by
    have := @byteLoad4_and _ cur hbytes 0 0x3F 0 0 (by decide) (by decide) (by decide)
    simpa using this
  obtain ⟨h₀, h₀', h₁⟩ := h
  rw [isCont_iff] at h₁
  rw [show src.read cur &&& 0x1F = src.read cur % 32 by simpa using and_mask (src.read cur) 0 5]
    at hhigh
  rw [and_3f] at hlow
  simp only [toB2Unicode, hhigh, hlow, Nat.shiftLeft_eq, Nat.shiftRight_eq_div_pow]
  rw [mul_or _ (by omega)]
  unfold seq2
  omega

theorem utf8IsSeq3_iff (hbytes : src.IsBytes) : utf8IsSeq3 (byteLoad4 src cur) = true ↔
    IsSeq3 (src.read cur) (src.read (cur + 1)) (src.read (cur + 2)) := by
  have hlead : byteLoad4 src cur &&& 0x00C0C0F0 = (src.read cur &&& 0xF0) +
      256 * ((src.read (cur + 1) &&& 0xC0) + 256 * (src.read (cur + 2) &&& 0xC0)) := by
    have := @byteLoad4_and _ cur hbytes 0xF0 0xC0 0xC0 0 (by decide) (by decide) (by decide)
    simpa using this
  have htmp : byteLoad4 src cur &&& 0x0000200F =
      (src.read cur &&& 0x0F) + 256 * (src.read (cur + 1) &&& 0x20) := by
    have := @byteLoad4_and _ cur hbytes 0x0F 0x20 0 0 (by decide) (by decide) (by decide)
    simpa using this
  have h₀ := hbytes cur
  have h₁ := hbytes (cur + 1)
  have h₂ := hbytes (cur + 2)
  rw [show src.read cur &&& 0xF0 = src.read cur / 16 % 16 * 16 from and_mask _ 4 4, and_c0, and_c0]
    at hlead
  rw [show src.read cur &&& 0x0F = src.read cur % 16 by simpa using and_mask (src.read cur) 0 4,
    show src.read (cur + 1) &&& 0x20 = src.read (cur + 1) / 32 % 2 * 32 from and_mask _ 5 1] at htmp
  have hshape : (src.read cur / 16 % 16 * 16 + 256 * (src.read (cur + 1) / 64 % 4 * 64 +
      256 * (src.read (cur + 2) / 64 % 4 * 64)) = 0x008080E0) ↔
      src.read cur / 16 = 14 ∧ src.read (cur + 1) / 64 = 2 ∧ src.read (cur + 2) / 64 = 2 := by
    omega
  have hoverlong : src.read cur % 16 + 256 * (src.read (cur + 1) / 32 % 2 * 32) ≠ 0 ↔
      ¬ (src.read cur % 16 = 0 ∧ src.read (cur + 1) / 32 % 2 = 0) := by
    omega
  have hsurrogate : src.read cur % 16 + 256 * (src.read (cur + 1) / 32 % 2 * 32) ≠ 0x0000200D ↔
      ¬ (src.read cur % 16 = 13 ∧ src.read (cur + 1) / 32 % 2 = 1) := by
    omega
  simp only [utf8IsSeq3, hlead, htmp, Bool.and_eq_true, decide_eq_true_eq, hshape, hoverlong,
    hsurrogate, IsSeq3, isCont_iff, isScalar_iff]
  unfold seq3
  constructor
  · rintro ⟨⟨⟨hb₀, hb₁, hb₂⟩, hlow⟩, hsur⟩
    omega
  · rintro ⟨hb₀, hb₀', ⟨hb₁, hb₁'⟩, ⟨hb₂, hb₂'⟩, hlow, -, hsur⟩
    omega

theorem toB3Unicode_eq (hbytes : src.IsBytes)
    (h : IsSeq3 (src.read cur) (src.read (cur + 1)) (src.read (cur + 2))) :
    toB3Unicode (byteLoad4 src cur) =
      seq3 (src.read cur) (src.read (cur + 1)) (src.read (cur + 2)) := by
  have hhigh : byteLoad4 src cur &&& 0x0F = src.read cur &&& 0x0F := by
    have := @byteLoad4_and _ cur hbytes 0x0F 0 0 0 (by decide) (by decide) (by decide)
    simpa using this
  have hmid : byteLoad4 src cur &&& 0x3F00 = 256 * (src.read (cur + 1) &&& 0x3F) := by
    have := @byteLoad4_and _ cur hbytes 0 0x3F 0 0 (by decide) (by decide) (by decide)
    simpa using this
  have hlow : byteLoad4 src cur &&& 0x3F0000 = 256 * (256 * (src.read (cur + 2) &&& 0x3F)) := by
    have := @byteLoad4_and _ cur hbytes 0 0 0x3F 0 (by decide) (by decide) (by decide)
    simpa using this
  obtain ⟨h₀, h₀', h₁, h₂, -⟩ := h
  rw [isCont_iff] at h₁ h₂
  rw [show src.read cur &&& 0x0F = src.read cur % 16 by simpa using and_mask (src.read cur) 0 4]
    at hhigh
  rw [and_3f] at hmid hlow
  simp only [toB3Unicode, hhigh, hmid, hlow, Nat.shiftLeft_eq, Nat.shiftRight_eq_div_pow]
  rw [show 256 * (src.read (cur + 1) % 64) / 2 ^ 2 = src.read (cur + 1) % 64 * 2 ^ 6 by omega,
    Nat.or_assoc, mul_or _ (show 256 * (256 * (src.read (cur + 2) % 64)) / 2 ^ 16 < 2 ^ 6 by omega),
    mul_or _ (by omega)]
  unfold seq3
  omega

theorem utf8IsSeq4_iff (hbytes : src.IsBytes) : utf8IsSeq4 (byteLoad4 src cur) = true ↔
    IsSeq4 (src.read cur) (src.read (cur + 1)) (src.read (cur + 2)) (src.read (cur + 3)) := by
  have hlead : byteLoad4 src cur &&& 0xC0C0C0F8 = (src.read cur &&& 0xF8) +
      256 * ((src.read (cur + 1) &&& 0xC0) + 256 * ((src.read (cur + 2) &&& 0xC0) +
        256 * (src.read (cur + 3) &&& 0xC0))) :=
    @byteLoad4_and _ cur hbytes 0xF8 0xC0 0xC0 0xC0 (by decide) (by decide) (by decide)
  have htmp : byteLoad4 src cur &&& 0x00003007 =
      (src.read cur &&& 0x07) + 256 * (src.read (cur + 1) &&& 0x30) := by
    have := @byteLoad4_and _ cur hbytes 0x07 0x30 0 0 (by decide) (by decide) (by decide)
    simpa using this
  have h₀ := hbytes cur
  have h₁ := hbytes (cur + 1)
  have h₂ := hbytes (cur + 2)
  have h₃ := hbytes (cur + 3)
  rw [show src.read cur &&& 0xF8 = src.read cur / 8 % 32 * 8 from and_mask _ 3 5, and_c0, and_c0,
    and_c0] at hlead
  rw [show src.read cur &&& 0x07 = src.read cur % 8 by simpa using and_mask (src.read cur) 0 3,
    show src.read (cur + 1) &&& 0x30 = src.read (cur + 1) / 16 % 4 * 16 from and_mask _ 4 2] at htmp
  have hfour : (src.read cur % 8 + 256 * (src.read (cur + 1) / 16 % 4 * 16)) &&& 0x04 =
      src.read cur % 8 / 4 % 2 * 4 := by
    have := and_byte (a := src.read cur % 8) (b := 0x04) (src.read (cur + 1) / 16 % 4 * 16) 0
      (by omega) (by decide)
    simp only [Nat.and_zero, Nat.mul_zero, Nat.add_zero] at this
    rw [this]
    exact and_mask _ 2 1
  have hrest : (src.read cur % 8 + 256 * (src.read (cur + 1) / 16 % 4 * 16)) &&& 0x3003 =
      src.read cur % 8 % 4 + 256 * (src.read (cur + 1) / 16 % 4 * 16 / 16 % 4 * 16) := by
    have := and_byte (a := src.read cur % 8) (b := 0x03) (src.read (cur + 1) / 16 % 4 * 16) 0x30
      (by omega) (by decide)
    rw [show 0x03 + 256 * 0x30 = 0x3003 from rfl] at this
    rw [this, show (src.read (cur + 1) / 16 % 4 * 16) &&& 0x30 =
      src.read (cur + 1) / 16 % 4 * 16 / 16 % 4 * 16 from and_mask _ 4 2]
    congr 1
    simpa using and_mask (src.read cur % 8) 0 2
  simp only [utf8IsSeq4, hlead, htmp, hfour, hrest, Bool.and_eq_true, Bool.or_eq_true,
    decide_eq_true_eq, IsSeq4, isCont_iff]
  unfold seq4
  omega

theorem toB4Unicode_eq (hbytes : src.IsBytes)
    (h : IsSeq4 (src.read cur) (src.read (cur + 1)) (src.read (cur + 2)) (src.read (cur + 3))) :
    toB4Unicode (byteLoad4 src cur) =
      seq4 (src.read cur) (src.read (cur + 1)) (src.read (cur + 2)) (src.read (cur + 3)) := by
  have hhigh : byteLoad4 src cur &&& 0x07 = src.read cur &&& 0x07 := by
    have := @byteLoad4_and _ cur hbytes 0x07 0 0 0 (by decide) (by decide) (by decide)
    simpa using this
  have hone : byteLoad4 src cur &&& 0x3F00 = 256 * (src.read (cur + 1) &&& 0x3F) := by
    have := @byteLoad4_and _ cur hbytes 0 0x3F 0 0 (by decide) (by decide) (by decide)
    simpa using this
  have htwo : byteLoad4 src cur &&& 0x3F0000 = 256 * (256 * (src.read (cur + 2) &&& 0x3F)) := by
    have := @byteLoad4_and _ cur hbytes 0 0 0x3F 0 (by decide) (by decide) (by decide)
    simpa using this
  have hthree : byteLoad4 src cur &&& 0x3F000000 =
      256 * (256 * (256 * (src.read (cur + 3) &&& 0x3F))) := by
    have := @byteLoad4_and _ cur hbytes 0 0 0 0x3F (by decide) (by decide) (by decide)
    simpa using this
  obtain ⟨h₀, h₀', h₁, h₂, h₃, -⟩ := h
  rw [isCont_iff] at h₁ h₂ h₃
  rw [show src.read cur &&& 0x07 = src.read cur % 8 by simpa using and_mask (src.read cur) 0 3]
    at hhigh
  rw [and_3f] at hone htwo hthree
  simp only [toB4Unicode, hhigh, hone, htwo, hthree, Nat.shiftLeft_eq, Nat.shiftRight_eq_div_pow]
  rw [show 256 * (src.read (cur + 1) % 64) * 2 ^ 4 = src.read (cur + 1) % 64 * 2 ^ 12 by omega,
    show 256 * (256 * (src.read (cur + 2) % 64)) / 2 ^ 10 = src.read (cur + 2) % 64 * 2 ^ 6 by omega,
    show 256 * (256 * (256 * (src.read (cur + 3) % 64))) / 2 ^ 24 = src.read (cur + 3) % 64 by omega,
    Nat.or_assoc, Nat.or_assoc, mul_or (a := src.read (cur + 2) % 64) 6 (by omega),
    mul_or (a := src.read (cur + 1) % 64) 12 (by omega),
    mul_or (a := src.read cur % 8) 18 (by omega)]
  unfold seq4
  omega

/-! ## Characters passed -/

/-- A reader passed the bytes of `ds`, which stand for themselves in a string. -/
structure Took (src : Source) (cur cur' : Nat) (ds : List Nat) : Prop where
  le : cur ≤ cur'
  bound : cur' ≤ src.len
  plain : ∀ d ∈ ds, isScalar d = true ∧ isEscapeUnit d = false
  rest : src.rest cur = ds.flatMap bytes ++ src.rest cur'

namespace Took

variable {cur' cur'' : Nat} {ds es : List Nat}

theorem refl (h : cur ≤ src.len) : Took src cur cur [] := ⟨Nat.le_refl _, h, nofun, rfl⟩

theorem trans (h : Took src cur cur' ds) (h' : Took src cur' cur'' es) :
    Took src cur cur'' (ds ++ es) := by
  refine ⟨h.le.trans h'.le, h'.bound, fun d hd => ?_, ?_⟩
  · exact (List.mem_append.mp hd).elim (h.plain d) (h'.plain d)
  · rw [h.rest, h'.rest, List.flatMap_append, List.append_assoc]

/-- Characters take bytes. -/
theorem lt (h : Took src cur cur' ds) (hne : ds ≠ []) : cur < cur' := by
  refine Nat.lt_of_le_of_ne h.le fun heq => hne ?_
  have hrest := congrArg List.length h.rest
  rw [heq, List.length_append] at hrest
  cases ds with
  | nil => rfl
  | cons d ds =>
      obtain ⟨b, t, hb, -⟩ := CharCode.utf8.head (if_pos (h.plain d List.mem_cons_self).1)
      rw [List.flatMap_cons, hb] at hrest
      simp only [List.cons_append, List.length_cons] at hrest
      omega

/-- What is left of the string is read as before. -/
theorem unescape_eq (h : Took src cur cur' ds) :
    unescape .utf8 (src.rest cur) = prepend ds (unescape .utf8 (src.rest cur')) := by
  rw [h.rest]
  have hplain := h.plain
  clear h
  induction ds with
  | nil => simp
  | cons d ds ih =>
      obtain ⟨⟨hscalar, hesc⟩, htail⟩ := List.forall_mem_cons.mp hplain
      obtain ⟨hq, hb, hctl⟩ := isEscapeUnit_eq_false.mp hesc
      rw [List.flatMap_cons, List.append_assoc,
        @unescape_enc .utf8 _ _ _ (if_pos hscalar) hctl hq hb, ih htail, prepend_prepend]
      rfl

theorem ascii (hle : cur ≤ src.len) (hlow : src.read cur < 0x80)
    (hplain : isEscapeUnit (src.read cur) = false) : Took src cur (cur + 1) [src.read cur] := by
  have hpos := isEscapeUnit_eq_false.mp hplain
  have hlt := Source.lt_of_read hle (by omega)
  refine ⟨Nat.le_succ _, hlt, fun d hd => ?_, ?_⟩
  · rw [List.mem_singleton.mp hd]
    exact ⟨isScalar_iff.mpr (by omega), hplain⟩
  · rw [Source.rest_of_lt hlt, List.flatMap_singleton, bytes, if_pos hlow]
    rfl

theorem isEscapeUnit_high {c : Nat} (h : 0x80 ≤ c) : isEscapeUnit c = false :=
  isEscapeUnit_eq_false.mpr (by omega)

theorem seq2 (hle : cur ≤ src.len) (h : IsSeq2 (src.read cur) (src.read (cur + 1))) :
    Took src cur (cur + 2) [Utf8.seq2 (src.read cur) (src.read (cur + 1))] := by
  have hrange := h.range
  have h₀ := h.1
  have h₁ := isCont_iff.mp h.2.2
  have hlt := Source.lt_of_read hle (by omega)
  have hlt₁ := @Source.lt_of_read _ (cur + 1) hlt (by omega)
  refine ⟨by omega, hlt₁, fun d hd => ?_, ?_⟩
  · rw [List.mem_singleton.mp hd]
    exact ⟨isScalar_iff.mpr (by omega), isEscapeUnit_high hrange.1⟩
  · rw [Source.rest_of_lt hlt, Source.rest_of_lt hlt₁, List.flatMap_singleton, h.bytes_eq]
    rfl

theorem seq3 (hle : cur ≤ src.len)
    (h : IsSeq3 (src.read cur) (src.read (cur + 1)) (src.read (cur + 2))) :
    Took src cur (cur + 3)
      [Utf8.seq3 (src.read cur) (src.read (cur + 1)) (src.read (cur + 2))] := by
  have hrange := h.range
  have h₀ := h.1
  have h₁ := isCont_iff.mp h.2.2.1
  have h₂ := isCont_iff.mp h.2.2.2.1
  have hlt := Source.lt_of_read hle (by omega)
  have hlt₁ := @Source.lt_of_read _ (cur + 1) hlt (by omega)
  have hlt₂ := @Source.lt_of_read _ (cur + 2) hlt₁ (by omega)
  refine ⟨by omega, hlt₂, fun d hd => ?_, ?_⟩
  · rw [List.mem_singleton.mp hd]
    exact ⟨h.2.2.2.2.2, isEscapeUnit_high (by omega)⟩
  · rw [Source.rest_of_lt hlt, Source.rest_of_lt hlt₁, Source.rest_of_lt hlt₂,
      List.flatMap_singleton, h.bytes_eq]
    rfl

theorem seq4 (hle : cur ≤ src.len) (h : IsSeq4 (src.read cur) (src.read (cur + 1))
      (src.read (cur + 2)) (src.read (cur + 3))) :
    Took src cur (cur + 4) [Utf8.seq4 (src.read cur) (src.read (cur + 1)) (src.read (cur + 2))
      (src.read (cur + 3))] := by
  have hlow := h.2.2.2.2.2
  have h₀ := h.1
  have h₁ := isCont_iff.mp h.2.2.1
  have h₂ := isCont_iff.mp h.2.2.2.1
  have h₃ := isCont_iff.mp h.2.2.2.2.1
  have hlt := Source.lt_of_read hle (by omega)
  have hlt₁ := @Source.lt_of_read _ (cur + 1) hlt (by omega)
  have hlt₂ := @Source.lt_of_read _ (cur + 2) hlt₁ (by omega)
  have hlt₃ := @Source.lt_of_read _ (cur + 3) hlt₂ (by omega)
  refine ⟨by omega, hlt₃, fun d hd => ?_, ?_⟩
  · rw [List.mem_singleton.mp hd]
    exact ⟨isScalar_iff.mpr (by omega), isEscapeUnit_high (by omega)⟩
  · rw [Source.rest_of_lt hlt, Source.rest_of_lt hlt₁, Source.rest_of_lt hlt₂,
      Source.rest_of_lt hlt₃, List.flatMap_singleton, h.bytes_eq]
    rfl

end Took

theorem Took.same {cur' : Nat} (h : Took src cur cur' []) : cur' = cur := by
  have hrest := congrArg List.length h.rest
  have hle := h.le
  have hbound := h.bound
  simp only [Source.length_rest, List.flatMap_nil, List.nil_append] at hrest
  omega

/-- A character passed is the one the UTF-8 reader finds. -/
theorem Took.next_eq {cur' d : Nat} (h : Took src cur cur' [d]) :
    Utf8.next (src.rest cur) = some (d, src.rest cur') := by
  refine next_iff.mpr ⟨bytes d, if_pos (h.plain d List.mem_cons_self).1, ?_⟩
  rw [h.rest, List.flatMap_singleton]

/-- The units of the first character, read off the text. -/
theorem Took.reads_bytes {cur' d i : Nat} {ds : List Nat} (h : Took src cur cur' (d :: ds))
    (hi : i < (bytes d).length) : (bytes d)[i]? = some (src.read (cur + i)) := by
  have hlen := congrArg List.length h.rest
  have hbound := h.bound
  simp only [Source.length_rest, List.flatMap_cons, List.length_append] at hlen
  have hhead : (src.rest (cur + i)).head? = (bytes d)[i]? := by
    rw [Source.rest_add, List.head?_drop, h.rest, List.flatMap_cons, List.append_assoc,
      List.getElem?_append_left hi]
  rw [← hhead, Source.rest_of_lt (by omega)]
  rfl

/-- The first character passed is one of one to four bytes. -/
theorem Took.cases {cur' d : Nat} {ds : List Nat} (h : Took src cur cur' (d :: ds)) :
    (src.read cur < 0x80 ∧ d = src.read cur ∧ (bytes d).length = 1) ∨
    (IsSeq2 (src.read cur) (src.read (cur + 1)) ∧
      d = Utf8.seq2 (src.read cur) (src.read (cur + 1)) ∧ (bytes d).length = 2) ∨
    (IsSeq3 (src.read cur) (src.read (cur + 1)) (src.read (cur + 2)) ∧
      d = Utf8.seq3 (src.read cur) (src.read (cur + 1)) (src.read (cur + 2)) ∧
        (bytes d).length = 3) ∨
    (IsSeq4 (src.read cur) (src.read (cur + 1)) (src.read (cur + 2)) (src.read (cur + 3)) ∧
      d = Utf8.seq4 (src.read cur) (src.read (cur + 1)) (src.read (cur + 2)) (src.read (cur + 3)) ∧
        (bytes d).length = 4) := by
  have hread := fun i (hi : i < (bytes d).length) => h.reads_bytes hi
  rcases bytes_cases (h.plain d List.mem_cons_self).1 with ⟨hsmall, hbytes⟩ |
    ⟨b₀, b₁, hseq, hval, hbytes⟩ | ⟨b₀, b₁, b₂, hseq, hval, hbytes⟩ |
    ⟨b₀, b₁, b₂, b₃, hseq, hval, hbytes⟩
  · have h₀ := hread 0 (by simp [hbytes])
    simp only [hbytes, List.getElem?_cons_zero, Option.some.injEq, Nat.add_zero] at h₀
    exact .inl ⟨h₀ ▸ hsmall, h₀, by rw [hbytes]; rfl⟩
  · have h₀ := hread 0 (by simp [hbytes])
    have h₁ := hread 1 (by simp [hbytes])
    simp only [hbytes, List.getElem?_cons_zero, List.getElem?_cons_succ, Option.some.injEq,
      Nat.add_zero] at h₀ h₁
    rw [h₀, h₁] at hseq hval
    exact .inr (.inl ⟨hseq, hval, by rw [hbytes]; rfl⟩)
  · have h₀ := hread 0 (by simp [hbytes])
    have h₁ := hread 1 (by simp [hbytes])
    have h₂ := hread 2 (by simp [hbytes])
    simp only [hbytes, List.getElem?_cons_zero, List.getElem?_cons_succ, Option.some.injEq,
      Nat.add_zero] at h₀ h₁ h₂
    rw [h₀, h₁, h₂] at hseq hval
    exact .inr (.inr (.inl ⟨hseq, hval, by rw [hbytes]; rfl⟩))
  · have h₀ := hread 0 (by simp [hbytes])
    have h₁ := hread 1 (by simp [hbytes])
    have h₂ := hread 2 (by simp [hbytes])
    have h₃ := hread 3 (by simp [hbytes])
    simp only [hbytes, List.getElem?_cons_zero, List.getElem?_cons_succ, Option.some.injEq,
      Nat.add_zero] at h₀ h₁ h₂ h₃
    rw [h₀, h₁, h₂, h₃] at hseq hval
    exact .inr (.inr (.inr ⟨hseq, hval, by rw [hbytes]; rfl⟩))

/-- The first character passed ends no run. -/
theorem Took.head_plain {cur' d : Nat} {ds : List Nat} (h : Took src cur cur' (d :: ds)) :
    isEscapeUnit (src.read cur) = false := by
  rcases h.cases with ⟨-, hval, -⟩ | ⟨hseq, -⟩ | ⟨hseq, -⟩ | ⟨hseq, -⟩
  · exact hval ▸ (h.plain d List.mem_cons_self).2
  · exact Took.isEscapeUnit_high (le_trans (by decide) hseq.1)
  · exact Took.isEscapeUnit_high (le_trans (by decide) hseq.1)
  · exact Took.isEscapeUnit_high (le_trans (by decide) hseq.1)

/-- The characters passed one by one. -/
theorem Took.uncons {cur' d : Nat} {ds : List Nat} (h : Took src cur cur' (d :: ds)) :
    Took src cur (cur + (bytes d).length) [d] ∧ Took src (cur + (bytes d).length) cur' ds := by
  have hlen := congrArg List.length h.rest
  have hbound := h.bound
  have hle := h.le
  have hpos : 0 < (bytes d).length := by
    rcases h.cases with ⟨-, -, hd⟩ | ⟨-, -, hd⟩ | ⟨-, -, hd⟩ | ⟨-, -, hd⟩ <;> omega
  simp only [Source.length_rest, List.flatMap_cons, List.length_append] at hlen
  have hrest : src.rest (cur + (bytes d).length) = ds.flatMap bytes ++ src.rest cur' := by
    rw [Source.rest_add, h.rest, List.flatMap_cons, List.append_assoc, List.drop_left]
  refine ⟨⟨Nat.le_add_right _ _, by omega, fun e he => ?_, ?_⟩, ⟨by omega, hbound, fun e he => ?_,
    hrest⟩⟩
  · exact h.plain e (List.mem_singleton.mp he ▸ List.mem_cons_self)
  · rw [h.rest, hrest, List.flatMap_cons, List.flatMap_singleton, List.append_assoc]
  · exact h.plain e (List.mem_cons_of_mem _ he)

/-- Of two runs of characters from one place, one goes on where the other ends. -/
theorem Took.split {cur₁ cur₂ : Nat} {ds es : List Nat} (h : Took src cur cur₁ ds)
    (h' : Took src cur cur₂ es) : (∃ fs, es = ds ++ fs ∧ Took src cur₁ cur₂ fs) ∨
      ∃ fs, ds = es ++ fs ∧ Took src cur₂ cur₁ fs := by
  induction ds generalizing cur es with
  | nil =>
      rw [h.same]
      exact .inl ⟨es, rfl, h'⟩
  | cons d ds ih =>
      cases es with
      | nil =>
          rw [h'.same]
          exact .inr ⟨d :: ds, rfl, h⟩
      | cons e es =>
          obtain ⟨hfirst, hrest⟩ := h.uncons
          obtain ⟨hfirst', hrest'⟩ := h'.uncons
          have hnext := hfirst.next_eq
          rw [hfirst'.next_eq, Option.some.injEq, Prod.mk.injEq] at hnext
          obtain rfl := hnext.1
          rcases ih hrest hrest' with ⟨fs, rfl, hfs⟩ | ⟨fs, rfl, hfs⟩
          · exact .inl ⟨fs, rfl, hfs⟩
          · exact .inr ⟨fs, rfl, hfs⟩

/-- What the UTF-8 reader finds is passed, where it stands for itself. -/
theorem Took.of_next {c : Nat} {r : List Nat} (hle : cur ≤ src.len)
    (hplain : isEscapeUnit (src.read cur) = false) (hnext : Utf8.next (src.rest cur) = some (c, r)) :
    Took src cur (cur + (bytes c).length) [c] := by
  obtain ⟨u, hu, hrest⟩ := next_iff.mp hnext
  simp only [enc, Option.ite_none_right_eq_some, Option.some.injEq] at hu
  obtain ⟨hscalar, rfl⟩ := hu
  have hlen := congrArg List.length hrest
  simp only [Source.length_rest, List.length_append] at hlen
  have hlt := Source.lt_of_read hle (by have := isEscapeUnit_eq_false.mp hplain; omega)
  refine ⟨Nat.le_add_right _ _, by omega, fun d hd => ?_, ?_⟩
  · rw [List.mem_singleton.mp hd]
    refine ⟨hscalar, ?_⟩
    by_cases hlow : c < 0x80
    · have hhead := congrArg List.head? hrest
      rw [Source.rest_of_lt hlt, bytes, if_pos hlow] at hhead
      simp only [List.cons_append, List.head?_cons, Option.some.injEq] at hhead
      rwa [← hhead]
    · exact Took.isEscapeUnit_high (Nat.le_of_not_lt hlow)
  · rw [List.flatMap_singleton, Source.rest_add, hrest, List.drop_left]

/-! ## What can stand in a string -/

/-- Characters go on up to a quote or a backslash, or at least up to `stop`. -/
def Reads (src : Source) (stop cur : Nat) : Prop :=
  ∃ cur' ds, Took src cur cur' ds ∧ (stop ≤ cur' ∨ src.read cur' = 0x22 ∨ src.read cur' = 0x5C)

variable {stop : Nat}

theorem Took.reads {cur' : Nat} {ds : List Nat} (h : Took src cur cur' ds)
    (hreads : Reads src stop cur) : Reads src stop cur' := by
  obtain ⟨last, es, hes, hend⟩ := hreads
  rcases h.split hes with ⟨fs, -, hfs⟩ | ⟨fs, -, hfs⟩
  · exact ⟨last, fs, hfs, hend⟩
  · cases fs with
    | nil =>
        rw [hfs.same]
        exact ⟨last, [], .refl hes.bound, hend⟩
    | cons f fs =>
        -- behind a quote or a backslash nothing was passed
        have hplain := isEscapeUnit_eq_false.mp hfs.head_plain
        exact ⟨cur', [], .refl h.bound, .inl ((hend.resolve_right (by omega)).trans hfs.le)⟩

/-- A byte that ends no run begins a character, where characters go on. -/
theorem Reads.cases (hlt : cur < stop) (h : Reads src stop cur)
    (hplain : isEscapeUnit (src.read cur) = false) :
    (src.read cur < 0x80 ∧ Took src cur (cur + 1) [src.read cur]) ∨
    (IsSeq2 (src.read cur) (src.read (cur + 1)) ∧
      Took src cur (cur + 2) [seq2 (src.read cur) (src.read (cur + 1))]) ∨
    (IsSeq3 (src.read cur) (src.read (cur + 1)) (src.read (cur + 2)) ∧
      Took src cur (cur + 3) [seq3 (src.read cur) (src.read (cur + 1)) (src.read (cur + 2))]) ∨
    (IsSeq4 (src.read cur) (src.read (cur + 1)) (src.read (cur + 2)) (src.read (cur + 3)) ∧
      Took src cur (cur + 4)
        [seq4 (src.read cur) (src.read (cur + 1)) (src.read (cur + 2)) (src.read (cur + 3))]) := by
  obtain ⟨last, ds, hds, hend⟩ := h
  cases ds with
  | nil =>
      have hplain := isEscapeUnit_eq_false.mp hplain
      rw [hds.same] at hend
      omega
  | cons d ds =>
      have hfirst := hds.uncons.1
      rcases hds.cases with ⟨hlow, hval, hsize⟩ | ⟨hseq, hval, hsize⟩ | ⟨hseq, hval, hsize⟩ |
        ⟨hseq, hval, hsize⟩ <;> rw [hsize, hval] at hfirst
      · exact .inl ⟨hlow, hfirst⟩
      · exact .inr (.inl ⟨hseq, hfirst⟩)
      · exact .inr (.inr (.inl ⟨hseq, hfirst⟩))
      · exact .inr (.inr (.inr ⟨hseq, hfirst⟩))

/-- No character stands at the cursor that a string can hold, nor anything else that it can. -/
structure BadAt (src : Source) (cur : Nat) : Prop where
  quote : src.read cur ≠ 0x22
  backslash : src.read cur ≠ 0x5C
  char : ∀ d cur', ¬ Took src cur cur' [d]

/-- Characters go on to the end, or up to a place where none stands. -/
theorem exists_longest (hle : cur ≤ src.len) : ∃ cur' ds, Took src cur cur' ds ∧
    (src.read cur' = 0x22 ∨ src.read cur' = 0x5C ∨ BadAt src cur') := by
  induction hleft : src.len - cur using Nat.strongRecOn generalizing cur with
  | ind left ih =>
      by_cases hchar : ∃ d cur', Took src cur cur' [d]
      · obtain ⟨d, cur₁, htook⟩ := hchar
        have hlt := htook.lt (List.cons_ne_nil _ _)
        have hbound := htook.bound
        obtain ⟨cur', ds, hds, hend⟩ := ih (src.len - cur₁) (by omega) htook.bound rfl
        exact ⟨cur', d :: ds, htook.trans hds, hend⟩
      · refine ⟨cur, [], .refl hle, ?_⟩
        by_cases hquote : src.read cur = 0x22
        · exact .inl hquote
        by_cases hback : src.read cur = 0x5C
        · exact .inr (.inl hback)
        · exact .inr (.inr ⟨hquote, hback, fun d cur' h => hchar ⟨d, cur', h⟩⟩)

/-- A string cannot go on where nothing it can hold stands. -/
theorem BadAt.unescape_eq (hle : cur ≤ src.len) (h : BadAt src cur) :
    unescape .utf8 (src.rest cur) = none := by
  rcases Nat.lt_or_eq_of_le hle with hlt | rfl
  · rw [Source.rest_of_lt hlt]
    by_cases hctl : src.read cur < 0x20
    · exact unescape_control .utf8 _ hctl
    · have hplain := isEscapeUnit_eq_false.mpr ⟨h.quote, h.backslash, Nat.le_of_not_lt hctl⟩
      rw [unescape_char .utf8 _ (Nat.le_of_not_lt hctl) h.quote h.backslash,
        ← Source.rest_of_lt hlt]
      cases hnext : Utf8.next (src.rest cur) with
      | none => rw [show CharCode.utf8.next (src.rest cur) = none from hnext]
      | some p => exact absurd (Took.of_next hle hplain hnext) (h.char _ _)
  · rw [Source.rest_len]
    exact unescape_nil .utf8

/-! ## Characters copied -/

/-- The first character too large for a level. -/
def levelBound (level : Nat) : Nat :=
  if level = 1 then 0x100 else if level = 2 then 0x10000 else 0x110000

theorem levelBound_le {level : Nat} (h : level = 1 ∨ level = 2 ∨ level = 4) :
    levelBound level ≤ 256 ^ level := by
  rcases h with rfl | rfl | rfl <;> decide

/-- A reader passed `ds` and put them behind the writer, without going on with wider characters. -/
structure Copied (src : Source) (w : Writer) (cur : Nat) (w' : Writer) (cur' : Nat)
    (ds : List Nat) : Prop where
  took : Took src cur cur' ds
  sound : w'.Sound
  content : w'.content = w.content ++ ds
  level : w'.level = w.level
  fits : ∀ d ∈ ds, d < levelBound w.level

namespace Copied

variable {w w' w'' : Writer} {cur' cur'' : Nat} {ds es : List Nat}

theorem refl (hsound : w.Sound) (h : cur ≤ src.len) : Copied src w cur w cur [] :=
  ⟨.refl h, hsound, (List.append_nil _).symm, rfl, nofun⟩

theorem trans (h : Copied src w cur w' cur' ds) (h' : Copied src w' cur' w'' cur'' es) :
    Copied src w cur w'' cur'' (ds ++ es) := by
  refine ⟨h.took.trans h'.took, h'.sound, ?_, h'.level.trans h.level, fun d hd => ?_⟩
  · rw [h'.content, h.content, List.append_assoc]
  · exact (List.mem_append.mp hd).elim (h.fits d) fun hd => h.level ▸ h'.fits d hd

/-- The mark for ASCII does not matter. -/
theorem mark (h : Copied src w cur w' cur' ds) (mark mark' : Bool) :
    Copied src { w with isAscii := mark } cur { w' with isAscii := mark' } cur' ds :=
  ⟨h.took, ⟨h.sound.level, h.sound.one, h.sound.two⟩, h.content, h.level, h.fits⟩

/-- One character. -/
theorem push {d : Nat} (hsound : w.Sound) (htook : Took src cur cur' [d])
    (hd : d < levelBound w.level) : Copied src w cur (w.push d) cur' [d] := by
  refine ⟨htook, Writer.push_sound hsound, ?_, Writer.push_level w d, fun e he => ?_⟩
  · exact Writer.push_content hsound (hd.trans_le (levelBound_le hsound.level))
  · rwa [List.mem_singleton.mp he]

/-- The characters in the first lanes of a register. -/
theorem store {lanes : Vec} {stored : Nat} (hsound : w.Sound) (htook : Took src cur cur' ds)
    (hstored : ds.length ≤ stored) (hlanes : ∀ k (h : k < ds.length), lanes k = ds[k])
    (hfits : ∀ d ∈ ds, d < levelBound w.level) :
    Copied src w cur ((w.put 0 stored lanes).advance ds.length) cur' ds := by
  have hput : w.Stored (w.put 0 stored lanes) lanes (· < ds.length) := by
    refine (Writer.Stored.refl w _).put (fun k _ hk => ?_) (fun k hk => .inl (by omega))
    rw [Nat.zero_add] at hk ⊢
    refine ⟨rfl, (hlanes k hk).trans_lt ?_⟩
    exact (hfits _ (List.getElem_mem hk)).trans_le (levelBound_le hsound.level)
  refine ⟨htook, (hput.sound hsound).advance _, ?_, ?_, hfits⟩
  · rw [hput.content hsound (Nat.le_refl _)]
    congr 1
    refine List.ext_getElem (by simp) fun k h₁ h₂ => ?_
    simp only [List.getElem_map, List.getElem_range]
    exact hlanes k h₂
  · rw [Writer.advance_level]
    rfl

end Copied

end SsrJson.Decode
