import SsrJson.Decode.KeyCacheLemmas
import SsrJson.Decode.StrSpec

/-!
# The copying readers

Every round of `decode_str_with_escape` stores the units it passes behind the writer, whatever the
instruction set makes of the last ones, and every escape adds its character. `Records` is what the
scratch buffer and the record of the largest units say about the characters read so far.
-/

namespace SsrJson.Decode

open Spec

variable {isa : Isa} {kind : StrKind} {src : Source}

/-! ## Stores -/

section Stores

variable {cur : Nat} {w : Writer} (hfits : src.Fits kind) (hsize : kind.size ≤ w.level)

include hfits hsize

/-- Whole registers are stored one behind the other. -/
theorem copyLoop_stored (count : Nat) (hle : cur + count * readBatchCount isa kind ≤ src.len) :
    w.Stored (copyLoop isa kind src cur count w) (loadVec src cur)
      (· < count * readBatchCount isa kind) := by
  induction count with
  | zero => exact (Writer.Stored.refl w _).mono fun k hk => by omega
  | succ count ih =>
      rw [Nat.succ_mul] at hle ⊢
      have hstep : copyLoop isa kind src cur (count + 1) w =
          (copyLoop isa kind src cur count w).put (count * readBatchCount isa kind)
            (readBatchCount isa kind) (loadVec src (cur + count * readBatchCount isa kind)) := by
        simp only [copyLoop, List.range_succ, List.foldl_append, List.foldl_cons, List.foldl_nil]
      rw [hstep]
      refine (ih (by omega)).put (fun k hk _ => ⟨?_, ?_⟩) (fun k hk => by omega)
      · simp only [loadVec, Nat.add_assoc]
      · exact hfits.lt hsize (by omega)

variable (hlt : cur < src.len) (hshort : src.len < cur + readBatchCount isa kind)

include hlt hshort

/-- The register shifted or masked to the last units. -/
theorem trailingVec_stored (hisa : isa ≠ .avx2) :
    w.Stored (w.put 0 (readBatchCount isa kind) (trailingVec isa kind src cur)) (loadVec src cur)
      (· < src.len - cur) := by
  have hoff : trailingOffset isa kind src cur = 0 := if_neg hisa
  refine (Writer.Stored.refl w _).put (fun k hk hlast => ?_) (fun k hk => .inl (by omega))
  rw [Nat.zero_add] at hlast ⊢
  rw [trailingVec_eq hlt hshort hk, hoff, if_pos (by omega), Nat.sub_zero]
  exact ⟨rfl, hfits.lt hsize (by omega)⟩

omit hshort in
/-- Two halves that may overlap: the second one ends with the last unit. -/
theorem avx2TrailingSameSize_stored {half : Nat} (hhalf : readBatchCount isa kind = 2 * half)
    (hshort : src.len < cur + 2 * half) :
    w.Stored (avx2TrailingSameSize isa kind src cur w) (loadVec src cur) (· < src.len - cur) := by
  have hdiv : readBatchCount isa kind / 2 = half := by omega
  unfold avx2TrailingSameSize
  simp only [hdiv]
  by_cases hsmall : src.len - cur < half
  · simp only [if_pos hsmall]
    have htail : w.Stored (w.put 0 half fun i => src.readBack (src.len + i) half)
        (loadVec src cur) fun _ => False :=
      (Writer.Stored.refl w _).put (fun _ _ h => h.elim) (fun _ h => h.elim)
    refine htail.put (fun k hk hlast => ?_) (fun k hk => .inl (by omega))
    have hback : src.readBack (cur + (k + (half - (src.len - cur)))) (half - (src.len - cur)) =
        src.read (cur + k) := by
      rw [Source.readBack, if_pos (by omega)]
      congr 1
      omega
    rw [Vec.rshift, if_pos (by omega), hback, Nat.zero_add]
    exact ⟨rfl, hfits.lt hsize (by omega)⟩
  · simp only [if_neg hsmall]
    have htail : w.Stored (w.put (src.len - cur - half) half
        fun i => src.readBack (src.len + i) half) (loadVec src cur)
        (fun k => src.len - cur - half ≤ k ∧ k < src.len - cur) := by
      refine (Writer.Stored.refl w _).put (fun k hk hlast => ?_) (fun k hk => .inl (by omega))
      have hback : src.readBack (src.len + k) half = src.read (cur + (src.len - cur - half + k)) := by
        rw [Source.readBack, if_pos (by omega)]
        congr 1
        omega
      rw [hback]
      exact ⟨rfl, hfits.lt hsize (by omega)⟩
    refine htail.put (fun k hk hlast => ?_) (fun k hk => by omega)
    have hback : src.readBack (cur + (k + 0)) 0 = src.read (cur + k) := by
      rw [Source.readBack, if_pos (by omega)]
      rfl
    rw [Vec.rshift, if_pos (by omega), hback, Nat.zero_add]
    exact ⟨rfl, hfits.lt hsize (by omega)⟩

omit hshort in
/-- Two halves side by side. -/
theorem avx2TrailingWiden_stored {half : Nat} (hhalf : readBatchCount isa kind = 2 * half)
    (hshort : src.len < cur + 2 * half) :
    w.Stored (avx2TrailingWiden isa kind src cur w) (loadVec src cur) (· < src.len - cur) := by
  have hdiv : readBatchCount isa kind / 2 = half := by omega
  have hback : ∀ i, src.readBack (cur + half + i) half = src.read (cur + i) := by
    intro i
    rw [Source.readBack, if_pos (by omega)]
    congr 1
    omega
  unfold avx2TrailingWiden
  simp only [hdiv]
  by_cases hsmall : src.len < cur + half
  · simp only [if_pos hsmall]
    have hfirst : w.Stored (w.put 0 half (Vec.rshift half
        (fun i => src.readBack (src.len + i) half) (cur + half - src.len))) (loadVec src cur)
        (· < src.len - cur) := by
      refine (Writer.Stored.refl w _).put (fun k hk hlast => ?_) (fun k hk => .inl (by omega))
      rw [Vec.rshift, if_pos (by omega),
        show src.len + (k + (cur + half - src.len)) = cur + half + k by omega, hback, Nat.zero_add]
      exact ⟨rfl, hfits.lt hsize (by omega)⟩
    exact hfirst.put (fun k _ hlast => by omega) (fun k hk => .inr hk)
  · simp only [if_neg hsmall]
    have hfirst : w.Stored (w.put 0 half (loadVec src cur)) (loadVec src cur) (· < half) := by
      refine (Writer.Stored.refl w _).put (fun k hk _ => ?_) (fun k hk => .inl (by omega))
      rw [Nat.zero_add]
      exact ⟨rfl, hfits.lt hsize (by omega)⟩
    refine hfirst.put (fun k hk hlast => ?_) (fun k hk => by omega)
    rw [Vec.rshift, if_pos (by omega),
      show src.len + (k + (cur + 2 * half - src.len)) = cur + half + (half + k) by omega, hback]
    exact ⟨rfl, hfits.lt hsize (by omega)⟩

/-- The last units are stored behind the writer. -/
theorem copyTrailing_stored :
    w.Stored (copyTrailing isa kind src cur w) (loadVec src cur) (· < src.len - cur) := by
  unfold copyTrailing
  split
  · rename_i hisa
    subst hisa
    have hhalf : readBatchCount .avx2 kind = 2 * (16 / kind.size) := by
      cases kind <;> rfl
    split
    · exact avx2TrailingSameSize_stored hfits hsize hlt hhalf (hhalf ▸ hshort)
    · exact avx2TrailingWiden_stored hfits hsize hlt hhalf (hhalf ▸ hshort)
  · exact trailingVec_stored hfits hsize hlt hshort ‹_›

omit hshort in
/-- A round stores the units it passes. -/
theorem copyNext_stored (maxvec : Vec)
    (hbound : cur + (scanNext isa kind src true cur maxvec).doneCount ≤ src.len) :
    ∃ n, (scanNext isa kind src true cur maxvec).doneCount ≤ n ∧
      w.Stored (copyNext isa kind src cur w) (loadVec src cur) (· < n) := by
  unfold scanNext copyNext at *
  simp only [true_and] at hbound ⊢
  split
  · have hdone := @decodeStrLoop_doneCount isa kind src cur 4 0 maxvec
    exact ⟨4 * readBatchCount isa kind, by omega, copyLoop_stored hfits hsize 4 (by omega)⟩
  split
  · have hdone := @decodeStrLoop_doneCount isa kind src cur 1 0 maxvec
    exact ⟨1 * readBatchCount isa kind, by omega, copyLoop_stored hfits hsize 1 (by omega)⟩
  · rename_i hfour hone
    rw [if_neg hfour, if_neg hone] at hbound
    exact ⟨src.len - cur, by omega, copyTrailing_stored hfits hsize hlt (by omega)⟩

end Stores

/-! ## The characters read so far -/

/-- The scratch buffer and the record of the largest units stand for the characters `cs`. -/
structure Records (isa : Isa) (kind : StrKind) (w : Writer) (maxvec : Vec) (cs : List Nat) :
    Prop where
  sound : w.Sound
  content : w.content = cs
  size_le : kind.size ≤ w.level
  fits : maxChar cs < 256 ^ w.level
  bounds : kind ≠ .ascii → ∀ b, (w.maxEscape ≤ b ∧
    maxvec.checkmax (readBatchCount isa kind) b = true) ↔ maxChar cs ≤ b
  ascii : kind = .ascii → w.level = 1 → (w.isAscii = true ↔ maxChar cs ≤ 0x7F)
  two : w.level = 2 → kind = .ucs2 ∨ 0xFF < maxChar cs
  four : w.level = 4 → kind = .ucs4 ∨ 0xFFFF < maxChar cs

theorem maxChar_append (cs ds : List Nat) : maxChar (cs ++ ds) = max (maxChar cs) (maxChar ds) := by
  refine eq_of_forall_ge_iff fun b => ?_
  rw [Nat.max_le, maxChar_le, maxChar_le, maxChar_le, List.forall_mem_append]

theorem maxChar_singleton (c : Nat) : maxChar [c] = c := Nat.max_zero c

theorem trackMax_iff : trackMax kind = true ↔ kind ≠ .ascii := by
  simp [trackMax]

theorem maxChar_slice {cur n b : Nat} :
    maxChar (src.slice cur n) ≤ b ↔ ∀ i < n, src.read (cur + i) ≤ b := by
  rw [maxChar_le]
  constructor
  · exact fun h i hi => h _ (Source.mem_slice.mpr ⟨i, hi, rfl⟩)
  · rintro h c hc
    obtain ⟨i, hi, rfl⟩ := Source.mem_slice.mp hc
    exact h i hi

/-- Units of the source are no larger than its kind allows. -/
theorem maxChar_slice_le {cur n : Nat} (hfits : src.Fits kind) (hle : cur + n ≤ src.len) :
    maxChar (src.slice cur n) ≤ kind.maxChar :=
  maxChar_slice.mpr fun _ hi => hfits.read (by omega)

namespace Records

variable {w : Writer} {maxvec : Vec} {cs : List Nat}

/-- The kind chosen at the end is that of the characters. -/
theorem finishKind_eq (h : Records isa kind w maxvec cs) :
    finishKind isa kind w maxvec = .ofChar (maxChar cs) := by
  have hsize := h.size_le
  have hfits := h.fits
  have htwo := h.two
  have hfour := h.four
  unfold finishKind StrKind.ofChar
  simp only [Bool.and_eq_true, decide_eq_true_eq]
  rcases h.sound.level with hl | hl | hl
  · rw [hl] at hsize hfits
    rw [if_pos hl]
    by_cases hkind : kind = .ascii
    · simp only [hkind, if_true, h.ascii hkind hl]
      split_ifs <;> first | rfl | omega
    · simp only [hkind, if_false, h.bounds hkind]
      split_ifs <;> first | rfl | omega
  · rw [hl] at hsize hfits
    rw [if_neg (by omega), if_pos hl]
    by_cases hkind : kind = .ucs2
    · subst hkind
      simp only [h.bounds (by decide), true_and]
      split_ifs <;> first | rfl | omega
    · have hbig := (htwo hl).resolve_left hkind
      simp only [hkind, false_and, if_false]
      split_ifs <;> first | rfl | omega
  · rw [if_neg (by omega), if_neg (by omega)]
    by_cases hkind : kind = .ucs4
    · subst hkind
      simp only [h.bounds (by decide), true_and]
      split_ifs <;> first | rfl | omega
    · have hbig := (hfour hl).resolve_left hkind
      simp only [hkind, false_and, if_false]
      split_ifs <;> first | rfl | omega

/-- Units of the source that were stored behind the writer and recorded. -/
theorem run {w' : Writer} {maxvec' : Vec} {cur n d : Nat} (h : Records isa kind w maxvec cs)
    (hfits : src.Fits kind) (hle : cur + d ≤ src.len) (hd : d ≤ n)
    (hstored : w.Stored w' (loadVec src cur) (· < n))
    (hmax : ∀ b, maxvec'.checkmax (readBatchCount isa kind) b = true ↔
      maxvec.checkmax (readBatchCount isa kind) b = true ∧
        (trackMax kind = true → ∀ i < d, src.read (cur + i) ≤ b)) :
    Records isa kind (w'.advance d) maxvec' (cs ++ src.slice cur d) := by
  have hslice := maxChar_slice_le hfits hle
  have hlevel : w'.level = w.level := by rw [hstored.same]
  have hesc : w'.maxEscape = w.maxEscape := by rw [hstored.same]
  have hascii : w'.isAscii = w.isAscii := by rw [hstored.same]
  refine ⟨(hstored.sound h.sound).advance d, ?_, ?_, ?_, fun hkind b => ?_, fun hkind hl => ?_,
    fun hl => ?_, fun hl => ?_⟩
  · rw [hstored.content h.sound hd, h.content]
    rfl
  · rw [Writer.advance_level, hlevel]
    exact h.size_le
  · rw [Writer.advance_level, hlevel, maxChar_append]
    exact Nat.max_lt.mpr ⟨h.fits, hslice.trans_lt (StrKind.maxChar_lt h.size_le)⟩
  · rw [Writer.advance_maxEscape, hesc, hmax, maxChar_append, Nat.max_le, ← h.bounds hkind b,
      maxChar_slice, and_assoc]
    simp only [trackMax_iff.mpr hkind, true_implies]
  · rw [Writer.advance_level, hlevel] at hl
    rw [Writer.advance_isAscii, hascii, h.ascii hkind hl, maxChar_append, Nat.max_le]
    subst hkind
    exact ⟨fun hcs => ⟨hcs, hslice⟩, And.left⟩
  · rw [Writer.advance_level, hlevel] at hl
    rw [maxChar_append]
    exact (h.two hl).imp_right fun hbig => lt_max_of_lt_left hbig
  · rw [Writer.advance_level, hlevel] at hl
    rw [maxChar_append]
    exact (h.four hl).imp_right fun hbig => lt_max_of_lt_left hbig

/-- A character behind the writer, which has gone on with wider characters where it needs them. -/
theorem push {val : Nat} {w' : Writer} (h : Records isa kind w maxvec cs) (hval : val ≤ 0x10FFFF)
    (hsound : w'.Sound) (hcontent : w'.content = w.content)
    (hlevel : w'.level = (w.promote val).level)
    (hmax : kind ≠ .ascii → w'.maxEscape = max w.maxEscape val)
    (hascii : kind = .ascii → w'.level = 1 →
      (w'.isAscii = true ↔ w.isAscii = true ∧ val ≤ 0x7F)) :
    Records isa kind (w'.push val) maxvec (cs ++ [val]) := by
  have hsize := h.size_le
  have hlt := h.fits
  have hrec := h.bounds
  have htwo := h.two
  have hfour := h.four
  rw [Writer.promote_level] at hlevel
  have hgrow : w.level ≤ w'.level ∧ val < 256 ^ w'.level := by
    rcases h.sound.level with hl | hl | hl
    · rw [if_pos hl] at hlevel
      split_ifs at hlevel <;> simp only [hlevel, hl] <;> omega
    · rw [if_neg (by omega), if_pos hl] at hlevel
      split_ifs at hlevel <;> simp only [hlevel, hl] <;> omega
    · rw [if_neg (by omega), if_neg (by omega)] at hlevel
      simp only [hlevel, hl]
      omega
  refine ⟨Writer.push_sound hsound, ?_, ?_, ?_, fun hkind b => ?_, fun hkind hl => ?_, fun hl => ?_,
    fun hl => ?_⟩
  · rw [Writer.push_content hsound hgrow.2, hcontent, h.content]
  · rw [Writer.push_level]
    exact hsize.trans hgrow.1
  · rw [Writer.push_level, maxChar_append, maxChar_singleton]
    exact Nat.max_lt.mpr ⟨hlt.trans_le (Nat.pow_le_pow_right (by decide) hgrow.1), hgrow.2⟩
  · rw [Writer.push_maxEscape, hmax hkind, maxChar_append, maxChar_singleton, Nat.max_le,
      Nat.max_le, ← hrec hkind b, and_right_comm]
  · rw [Writer.push_level] at hl
    have hl' : w.level = 1 := by
      have := h.sound.level
      omega
    rw [Writer.push_isAscii, hascii hkind hl, h.ascii hkind hl', maxChar_append, maxChar_singleton,
      Nat.max_le]
  · rw [Writer.push_level] at hl
    rw [maxChar_append, maxChar_singleton, lt_max_iff]
    rcases h.sound.level with hw | hw | hw
    · rw [if_pos hw] at hlevel
      split_ifs at hlevel <;> omega
    · exact (htwo hw).imp_right .inl
    · omega
  · rw [Writer.push_level] at hl
    rw [maxChar_append, maxChar_singleton, lt_max_iff]
    rcases h.sound.level with hw | hw | hw
    · rw [if_pos hw] at hlevel
      split_ifs at hlevel <;> omega
    · rw [if_neg (by omega), if_pos hw] at hlevel
      split_ifs at hlevel <;> omega
    · exact (hfour hw).imp_right .inl

/-- An escape adds its character. -/
theorem escape {val : Nat} (h : Records isa kind w maxvec cs) (hval : val ≤ 0x10FFFF) :
    Records isa kind (processEscape kind w val) maxvec (cs ++ [val]) := by
  unfold processEscape
  split
  · rename_i hkind
    refine h.push hval ?_ ?_ ?_ (fun h => absurd hkind h) (fun _ hl => ?_)
    · refine Writer.Sound.promote ?_ val
      exact ⟨h.sound.level, h.sound.one, h.sound.two⟩
    · rw [Writer.promote_content]
      rfl
    · rw [Writer.promote_level, Writer.promote_level]
    · rw [Writer.promote_level] at hl
      have hw : w.level = 1 ∧ val < 0x100 := by
        have := h.sound.level
        split_ifs at hl <;> first | omega | exact ⟨‹_›, ‹_›⟩
      rw [Writer.promote_isAscii]
      by_cases hbig : 0x80 ≤ val
      · simp only [hw.1, hw.2, hbig, and_self, if_true, Bool.false_eq_true, false_iff, not_and]
        omega
      · simp only [hw.1, hw.2, hbig, and_true, and_false, if_false, iff_self_and]
        omega
  · refine h.push hval ?_ ?_ ?_ (fun _ => ?_) (fun hkind => absurd hkind ‹_›)
    · refine Writer.Sound.promote ?_ val
      exact ⟨h.sound.level, h.sound.one, h.sound.two⟩
    · rw [Writer.promote_content]
      rfl
    · rw [Writer.promote_level, Writer.promote_level]
    · rw [Writer.promote_maxEscape]

/-- The width the copying begins with, and why. -/
theorem startLevel_cases (kind : StrKind) (val : Nat) :
    startLevel kind val = 1 ∧ kind.size ≤ 1 ∧ val < 0x100 ∨
      startLevel kind val = 2 ∧ kind.size ≤ 2 ∧ val < 0x10000 ∧ (kind = .ucs2 ∨ 0xFF < val) ∨
      startLevel kind val = 4 ∧ (kind = .ucs4 ∨ 0xFFFF < val) := by
  unfold startLevel
  by_cases hbyte : val < 0x100
  · cases kind <;> simp [StrKind.size, hbyte]
    omega
  by_cases hword : val < 0x10000
  · cases kind <;> simp [StrKind.size, hbyte, hword] <;> omega
  · cases kind <;> simp [StrKind.size, hbyte, hword] <;> omega

/-- What was passed before the first escape, and the escape. -/
theorem start {scratch : ByteBuffer} {start cur val : Nat} (hfits : src.Fits kind)
    (hval : val ≤ 0x10FFFF) (h : Passed isa kind src start cur maxvec) :
    Records isa kind (startWriter kind src scratch start cur val) maxvec
      (src.slice start (cur - start) ++ [val]) := by
  have hle := h.le
  have hbound := h.bound
  have hslice := @maxChar_slice_le _ _ start (cur - start) hfits (by omega)
  have hlevel := startLevel_cases kind val
  have hsize : kind.size ≤ startLevel kind val := by
    have : kind.size ≤ 4 := by cases kind <;> decide
    omega
  have hfit : val < 256 ^ startLevel kind val := by
    rcases hlevel with ⟨hl, _⟩ | ⟨hl, _⟩ | ⟨hl, _⟩ <;> rw [hl] <;> omega
  generalize hw₀ : (⟨startLevel kind val, scratch, 0, 0, 0, val < 0x80, val⟩ : Writer) = w₀
  have hl₀ : w₀.level = startLevel kind val := by rw [← hw₀]
  have hascii₀ : w₀.isAscii = decide (val < 0x80) := by rw [← hw₀]
  have hmax₀ : w₀.maxEscape = val := by rw [← hw₀]
  have hcontent₀ : w₀.content = [] := by
    rw [← hw₀]
    rfl
  have hsound₀ : w₀.Sound := by
    rw [← hw₀]
    exact ⟨hlevel.imp And.left (Or.imp And.left And.left), fun _ => ⟨rfl, rfl⟩, fun _ => rfl⟩
  have hstored : w₀.Stored (w₀.put 0 (cur - start) (loadVec src start)) (loadVec src start)
      (· < cur - start) := by
    refine (Writer.Stored.refl w₀ _).put (fun k hk _ => ?_) (fun k hk => .inl (by omega))
    rw [Nat.zero_add, hl₀]
    exact ⟨rfl, hfits.lt hsize (by omega)⟩
  have hcontent : ((w₀.put 0 (cur - start) (loadVec src start)).advance (cur - start)).content =
      src.slice start (cur - start) := by
    rw [hstored.content hsound₀ (Nat.le_refl _), hcontent₀]
    rfl
  have hsound := (hstored.sound hsound₀).advance (cur - start)
  have hlevel₁ : ((w₀.put 0 (cur - start) (loadVec src start)).advance (cur - start)).level =
      startLevel kind val := by
    rw [Writer.advance_level]
    exact hl₀
  simp only [startWriter, hw₀]
  refine ⟨Writer.push_sound hsound, ?_, ?_, ?_, fun hkind b => ?_, fun hkind hl => ?_, fun hl => ?_,
    fun hl => ?_⟩
  · rw [Writer.push_content hsound (by rwa [hlevel₁]), hcontent]
  · rwa [Writer.push_level, hlevel₁]
  · rw [Writer.push_level, hlevel₁, maxChar_append, maxChar_singleton]
    exact Nat.max_lt.mpr ⟨hslice.trans_lt (StrKind.maxChar_lt hsize), hfit⟩
  · rw [Writer.push_maxEscape, Writer.advance_maxEscape, maxChar_append, maxChar_singleton,
      Nat.max_le, maxChar_slice, h.max, trackMax_iff]
    simp only [hkind, ne_eq, not_false_eq_true, true_implies]
    exact (and_congr_left fun _ => by rw [← hmax₀]; rfl).trans and_comm
  · rw [Writer.push_isAscii, Writer.advance_isAscii, maxChar_append, maxChar_singleton, Nat.max_le]
    subst hkind
    have hiff : (w₀.put 0 (cur - start) (loadVec src start)).isAscii = true ↔ val < 0x80 := by
      change w₀.isAscii = true ↔ val < 0x80
      rw [hascii₀, decide_eq_true_iff]
    rw [hiff]
    exact ⟨fun hv => ⟨hslice, by omega⟩, fun hand => by omega⟩
  · rw [Writer.push_level, hlevel₁] at hl
    rw [maxChar_append, maxChar_singleton, lt_max_iff]
    rcases hlevel with ⟨h', _⟩ | ⟨_, _, _, hbig⟩ | ⟨h', _⟩
    · omega
    · exact hbig.imp_right .inr
    · omega
  · rw [Writer.push_level, hlevel₁] at hl
    rw [maxChar_append, maxChar_singleton, lt_max_iff]
    rcases hlevel with ⟨h', _⟩ | ⟨h', _⟩ | ⟨_, hbig⟩
    · omega
    · omega
    · exact hbig.imp_right .inr

end Records

/-! ## With escapes -/

/-- How the copying readers may end when `cs` was read before. -/
def CopySpec (isa : Isa) (kind : StrKind) (src : Source) (cs : List Nat) (cur : Nat) :
    Option (Writer × Vec) × Nat → Prop
  | (some (w, maxvec), last) => ∃ ds, unescape .plain (src.rest cur) = some (ds, src.rest (last + 1)) ∧
      Records isa kind w maxvec (cs ++ ds) ∧ last < src.len
  | (none, _) => unescape .plain (src.rest cur) = none

/-- What a round adds stands before what the rest of the text gives. -/
theorem CopySpec.prepend {cs ds : List Nat} {cur next : Nat} {result : Option (Writer × Vec) × Nat}
    (heq : unescape .plain (src.rest cur) = prepend ds (unescape .plain (src.rest next)))
    (h : CopySpec isa kind src (cs ++ ds) next result) : CopySpec isa kind src cs cur result := by
  obtain ⟨_ | ⟨w, maxvec⟩, last⟩ := result
  · simp only [CopySpec] at h ⊢
    rw [heq, h, prepend_none]
  · obtain ⟨es, hes, hrec, hlt⟩ := h
    refine ⟨ds ++ es, ?_, ?_, hlt⟩
    · rw [heq, hes]
      rfl
    · rwa [← List.append_assoc]

/-- The induction is on the fuel, which outlasts the units left; `Records` is its invariant. -/
theorem decodeStrCopy_spec (hfits : src.Fits kind) (fuel cur : Nat) (w : Writer) (maxvec : Vec)
    {cs : List Nat} (h : Records isa kind w maxvec cs) (hle : cur ≤ src.len)
    (hfuel : src.len - cur < fuel) :
    CopySpec isa kind src cs cur (decodeStrCopy isa kind src fuel cur w maxvec) := by
  induction fuel generalizing cur w maxvec cs with
  | zero => omega
  | succ fuel ih =>
      unfold decodeStrCopy
      split
      · rename_i hend
        simp only [CopySpec]
        rw [show cur = src.len by omega, Source.rest_len, unescape_nil]
      rename_i hlt
      have hlt := Nat.lt_of_not_le hlt
      rcases @scanNext_spec isa kind _ _ hlt true maxvec with hscan | ⟨hstate, hnone⟩
      · have hout := hscan.outcome hfits
        have hcur := hscan.cur_eq
        have hbound := hscan.bound
        have hplain := unescape_slice hbound hscan.plain
        obtain ⟨n, hn, hstored⟩ := copyNext_stored hfits h.size_le hlt maxvec hbound
        have hrec := h.run hfits hbound hn hstored hscan.max
        rw [← hcur] at hplain
        cases hstate : (scanNext isa kind src true cur maxvec).state with
        | «continue» =>
            simp only [hstate] at hout ⊢
            exact .prepend hplain (ih _ _ _ hrec (by omega) (by omega))
        | «end» =>
            simp only [hstate] at hout ⊢
            refine .prepend hplain ⟨[], hout.2, ?_, hout.1⟩
            rwa [List.append_nil]
        | escape val size =>
            simp only [hstate] at hout ⊢
            obtain ⟨hsize, hlast, hval, hesc⟩ := hout
            exact .prepend hplain (.prepend hesc
              (ih _ _ _ (hrec.escape hval) hlast (by omega)))
        | invalid =>
            simp only [hstate] at hout ⊢
            exact .prepend hplain hout
      · simp only [hstate]
        exact hnone

/-! ## The whole reader -/

theorem makeUnicodeFromSrcAscii_faithful (isKey : Bool) {chars : List Nat}
    (h : ∀ c ∈ chars, c < 0x100) : (makeUnicodeFromSrcAscii isKey chars).Faithful := by
  intro lookup hlookup
  simp only [makeUnicodeFromSrcAscii, Option.mem_def, Option.ite_none_right_eq_some,
    Bool.and_eq_true, decide_eq_true_eq, Option.some.injEq] at hlookup
  obtain ⟨⟨-, hlen⟩, rfl⟩ := hlookup
  exact ⟨(flatMap_leBytes_one h).symm, rfl, hlen, h⟩

/-- The characters of a text fit the kind of the largest one. -/
theorem ofChars_fitting {cs : List Nat} (h : maxChar cs ≤ 0x10FFFF) : Fitting (.ofChars cs) := by
  intro c hc
  have hle := maxChar_le.mp (Nat.le_refl (maxChar cs)) c hc
  simp only [PyStr.ofChars, StrKind.ofChar]
  split_ifs <;> simp only [StrKind.size] <;> omega

/-- Narrowing the units gives the bytes of the string in its own kind. -/
theorem getCacheKeyHashAndSize_eq (hkind : kind ≠ .ascii) {units : List Nat} {maxvec : Vec}
    (hunits : ∀ u ∈ units, u ≤ kind.maxChar) :
    getCacheKeyHashAndSize kind (kindFromSrc isa kind maxvec).size
        (Vec.checkmax (readBatchCount isa kind) maxvec
          (if kind = .ucs1 then 0x7F else if kind = .ucs2 then 0xFF else 0xFFFF) && kind ≠ .ucs1)
        units =
      units.flatMap (leBytes (kindFromSrc isa kind maxvec).size) := by
  unfold getCacheKeyHashAndSize kindFromSrc
  cases kind with
  | ascii => exact absurd rfl hkind
  | ucs1 =>
      have hbytes : ∀ u ∈ units, u < 0x100 := fun u hu => Nat.lt_succ_of_le (hunits u hu)
      by_cases h : Vec.checkmax (readBatchCount isa .ucs1) maxvec 0x7F = true <;>
        simp [h, flatMap_leBytes_one hbytes, StrKind.size]
  | ucs2 =>
      by_cases h : Vec.checkmax (readBatchCount isa .ucs2) maxvec 0xFF = true <;>
        simp [h, StrKind.size]
  | ucs4 =>
      by_cases h : Vec.checkmax (readBatchCount isa .ucs4) maxvec 0xFFFF = true <;>
        simp [h, StrKind.size]

theorem makeUnicodeFromSrc_str (hfits : src.Fits kind) (isKey : Bool) {start last : Nat}
    {maxvec : Vec} (h : Passed isa kind src start last maxvec) :
    (makeUnicodeFromSrc isa kind src isKey start (last - start) maxvec).str =
      .ofChars (src.slice start (last - start)) := by
  have hkind := kindFromSrc_eq hfits h
  unfold makeUnicodeFromSrc
  dsimp only
  split
  · rename_i hascii
    subst hascii
    rw [PyStr.ofChars, ← hkind]
    rfl
  · rw [PyStr.ofChars, ← hkind]
    rfl

theorem makeUnicodeFromSrc_faithful (hfits : src.Fits kind) (isKey : Bool) {start last : Nat}
    {maxvec : Vec} (h : Passed isa kind src start last maxvec) :
    (makeUnicodeFromSrc isa kind src isKey start (last - start) maxvec).Faithful := by
  have hle := h.le
  have hbound := h.bound
  have hstr := makeUnicodeFromSrc_str hfits isKey h
  have hslice := @maxChar_slice_le _ _ start (last - start) hfits (by omega)
  have hunits : ∀ u ∈ src.slice start (last - start), u ≤ kind.maxChar := maxChar_le.mp hslice
  have hmax : kind.maxChar ≤ 0x10FFFF := by cases kind <;> decide
  have hfitting := ofChars_fitting (hslice.trans hmax)
  rw [← hstr] at hfitting
  unfold makeUnicodeFromSrc at hfitting ⊢
  dsimp only at hfitting ⊢
  split
  · rename_i hkind
    subst hkind
    exact makeUnicodeFromSrcAscii_faithful isKey fun u hu => (hunits u hu).trans_lt (by decide)
  · rename_i hkind
    rw [if_neg hkind] at hfitting
    intro lookup hlookup
    simp only [Option.mem_def, Option.ite_none_right_eq_some, Bool.and_eq_true, decide_eq_true_eq,
      Option.some.injEq] at hlookup
    obtain ⟨⟨-, hlen⟩, rfl⟩ := hlookup
    have hbytes := @getCacheKeyHashAndSize_eq isa _ hkind _ maxvec hunits
    refine ⟨hbytes, rfl, ?_, hfitting⟩
    refine (congrArg List.length hbytes).trans_le ?_
    rw [flatMap_leBytes_length, Source.slice, List.length_map, List.length_range]
    exact hlen

/-- What reading a string must give. -/
def StrSpec (code : CharCode) (src : Source) (cur : Nat) : Option Made × Nat → Prop
  | (some made, last) => ∃ cs, unescape code (src.rest cur) = some (cs, src.rest last) ∧
      made.str = .ofChars cs ∧ made.Faithful ∧ last ≤ src.len
  | (none, _) => unescape code (src.rest cur) = none

/-- The string of the scratch buffer. -/
theorem finish_spec {w : Writer} {maxvec : Vec} {cs : List Nat}
    (h : Records isa kind w maxvec cs) (isKey : Bool) :
    (finish isa kind isKey w maxvec).str = .ofChars cs ∧
      (finish isa kind isKey w maxvec).Faithful := by
  have hkind := h.finishKind_eq
  unfold finish
  split
  · rename_i hascii
    have hmax := (h.ascii hascii.1 hascii.2.1).mp hascii.2.2
    rw [h.content]
    refine ⟨?_, makeUnicodeFromSrcAscii_faithful isKey fun c hc => ?_⟩
    · rw [PyStr.ofChars, StrKind.ofChar, if_pos hmax]
      rfl
    · exact (maxChar_le.mp hmax c hc).trans_lt (by decide)
  · rw [h.content, hkind]
    exact ⟨rfl, nofun⟩

/-- `decode_str` reads as the plain reader does. -/
theorem decodeStr_spec (hfits : src.Fits kind) (scratch : ByteBuffer) (isKey : Bool) {cur : Nat}
    (hle : cur ≤ src.len) : StrSpec .plain src cur (decodeStr isa kind src scratch isKey cur) := by
  have hfast := decodeStrFast_spec hfits isKey (src.len + 1) cur Vec.setzero
    (@Passed.init isa _ _ _ hle) (by omega)
  unfold decodeStr
  generalize decodeStrFast isa kind src isKey (src.len + 1) cur Vec.setzero = result at hfast ⊢
  obtain ⟨_ | ⟨val, size⟩ | _, last, maxvec⟩ := result
  · obtain ⟨hpass, hlt, hend⟩ := hfast
    refine ⟨src.slice cur (last - cur), ?_, makeUnicodeFromSrc_str hfits isKey hpass,
      makeUnicodeFromSrc_faithful hfits isKey hpass, hlt⟩
    rw [hpass.unescape_eq, hend, prepend_some, List.append_nil]
  · obtain ⟨hpass, hsize, hbound, hval, hesc⟩ := hfast
    have hcopy := @decodeStrCopy_spec isa _ _ hfits (src.len + 1) (last + size) _ maxvec _
      (@Records.start _ _ _ _ scratch _ _ _ hfits hval hpass) hbound (by omega)
    have heq : unescape .plain (src.rest cur) = prepend (src.slice cur (last - cur) ++ [val])
        (unescape .plain (src.rest (last + size))) := by
      rw [hpass.unescape_eq, hesc, prepend_prepend]
    simp only [decodeStrWithEscape]
    generalize decodeStrCopy isa kind src (src.len + 1) (last + size)
      (startWriter kind src scratch cur last val) maxvec = result at hcopy ⊢
    obtain ⟨_ | ⟨w, maxvec⟩, stop⟩ := result
    · simp only [CopySpec] at hcopy
      simp only [StrSpec]
      rw [heq, hcopy, prepend_none]
    · obtain ⟨ds, hds, hrec, hlt⟩ := hcopy
      obtain ⟨hstr, hfaithful⟩ := finish_spec hrec isKey
      exact ⟨_, by rw [heq, hds, prepend_some], hstr, hfaithful, hlt⟩
  · exact hfast

/-- For every source kind, instruction set and start of a string, `decode_str` gives the string
the plain reader gives and leaves the cursor behind its closing quote, or fails as it does. -/
theorem decodeStr_eq_unescape (isa : Isa) (kind : StrKind) (src : Source) (hfits : src.Fits kind)
    (scratch : ByteBuffer) (isKey : Bool) (cur : Nat) (hle : cur ≤ src.len) :
    match unescape .plain (src.rest cur) with
    | some (cs, r) => ∃ lookup, decodeStr isa kind src scratch isKey cur =
        (some ⟨.ofChars cs, lookup⟩, src.len - r.length) ∧ src.read (src.len - r.length - 1) = 0x22
    | none => (decodeStr isa kind src scratch isKey cur).1 = none := by
  have hspec := @decodeStr_spec isa _ _ hfits scratch isKey _ hle
  generalize decodeStr isa kind src scratch isKey cur = result at hspec ⊢
  obtain ⟨_ | ⟨str, lookup⟩, last⟩ := result
  · rw [show unescape .plain (src.rest cur) = none from hspec]
  · obtain ⟨cs, hcs, rfl, -, hlast⟩ := hspec
    have hcursor : src.len - (src.rest last).length = last := by
      rw [Source.length_rest]
      omega
    obtain ⟨t, ht, -⟩ := (chars_iff_unescape.mpr hcs).text
    have hlen := congrArg List.length ht
    simp only [Source.length_rest, List.length_append, List.length_cons] at hlen
    have hquote : src.read (cur + t.length) = 0x22 := by
      refine Source.read_of_head (by omega) ?_
      rw [Source.rest_add, ht, List.drop_left]
      rfl
    rw [hcs]
    dsimp only
    rw [hcursor, show last - 1 = cur + t.length by omega]
    exact ⟨lookup, rfl, hquote⟩

/-- A key with an escape that widens it, read behind its opening quote. -/
theorem decodeStr_eq_unescape_widened :
    let src := Source.ofUnits [0x61, 0x5C, 0x75, 0x30, 0x31, 0x34, 0x31, 0x22]
    match unescape .plain (src.rest 0) with
    | some (cs, r) => ∃ lookup, decodeStr .avx2 .ascii src (fun _ => 0) true 0 =
        (some ⟨.ofChars cs, lookup⟩, src.len - r.length) ∧ src.read (src.len - r.length - 1) = 0x22
    | none => (decodeStr .avx2 .ascii src (fun _ => 0) true 0).1 = none := by
  intro src
  have hfits : ∀ u ∈ src.units, u ≤ StrKind.ascii.maxChar := by decide
  exact decodeStr_eq_unescape .avx2 .ascii src hfits (fun _ => 0) true 0 (Nat.zero_le _)

end SsrJson.Decode
