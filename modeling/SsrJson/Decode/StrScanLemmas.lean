import SsrJson.Decode.StrScan
import SsrJson.Decode.TokenLemmas
import SsrJson.Spec.Unescape
import Mathlib.Data.Nat.Bitwise

/-!
# What the vector readers find

An escape is read as the plain reader reads it, and a vector reader passes exactly the plain
characters up to the first unit that ends a run, whichever registers it fell into.
-/

namespace SsrJson.Decode

open Spec

variable {isa : Isa} {kind : StrKind} {src : Source}

/-- The units of a source are characters its kind can hold. -/
def Source.Fits (src : Source) (kind : StrKind) : Prop := ∀ u ∈ src.units, u ≤ kind.maxChar

theorem Source.Fits.read {cur : Nat} (h : src.Fits kind) (hlt : cur < src.len) :
    src.read cur ≤ kind.maxChar := by
  rw [Source.read_of_lt hlt]
  exact h _ (List.getElem_mem _)

theorem StrKind.maxChar_lt {kind : StrKind} {level : Nat} (hsize : kind.size ≤ level) :
    kind.maxChar < 256 ^ level := by
  have hkind : kind.maxChar < 256 ^ kind.size := by
    cases kind <;> decide
  exact hkind.trans_le (Nat.pow_le_pow_right (by decide) hsize)

/-- A unit fits the characters being written. -/
theorem Source.Fits.lt {level cur : Nat} (hfits : src.Fits kind) (hsize : kind.size ≤ level)
    (hlt : cur < src.len) : src.read cur < 256 ^ level :=
  (hfits.read hlt).trans_lt (StrKind.maxChar_lt hsize)

/-! ## Hexadecimal digits -/

theorem hexConv_eq {u : Nat} (hu : u ≤ 0xFF) : hexConv u = (hexVal u).getD 0xF0 := by
  have h : ∀ u < 256, hexConv u = (hexVal u).getD 0xF0 := by decide +kernel
  exact h u (by omega)

theorem hexVal_lt {u d : Nat} (h : hexVal u = some d) : d < 16 := by
  unfold hexVal at h
  split at h
  · cases h
    omega
  split at h
  · cases h
    omega
  split at h
  · cases h
    omega
  · cases h

/-- A table entry is a digit or the mark `0xF0`. -/
theorem hexConv_cases {u : Nat} (hu : u ≤ 0xFF) :
    (∃ d < 16, hexVal u = some d ∧ hexConv u = d) ∨ (hexVal u = none ∧ hexConv u = 0xF0) := by
  rw [hexConv_eq hu]
  cases h : hexVal u with
  | none => exact .inr ⟨rfl, rfl⟩
  | some d => exact .inl ⟨d, hexVal_lt h, rfl, rfl⟩

/-- The test of `to_hex` on two table entries. -/
theorem hexMask_eq_zero {c d : Nat} (hc : c < 16 ∨ c = 0xF0) (hd : d < 16 ∨ d = 0xF0) :
    (c <<< 8 ||| d) &&& 0xF0F0 = 0 ↔ c < 16 ∧ d < 16 := by
  have hall : ∀ c ∈ 0xF0 :: List.range 16, ∀ d ∈ 0xF0 :: List.range 16,
      ((c <<< 8 ||| d) &&& 0xF0F0 = 0 ↔ c < 16 ∧ d < 16) := by
    decide +kernel
  have hmem : ∀ {c : Nat}, c < 16 ∨ c = 0xF0 → c ∈ 0xF0 :: List.range 16 := by
    intro c h
    rw [List.mem_cons, List.mem_range]
    exact h.symm
  exact hall c (hmem hc) d (hmem hd)

/-- The test of `to_hex`: all four entries are digits. -/
theorem hexTest {a b c d : Nat} (ha : a < 16 ∨ a = 0xF0) (hb : b < 16 ∨ b = 0xF0)
    (hc : c < 16 ∨ c = 0xF0) (hd : d < 16 ∨ d = 0xF0) :
    ((a <<< 8 ||| c) ||| (b <<< 8 ||| d)) &&& 0xF0F0 = 0 ↔ (a < 16 ∧ c < 16) ∧ b < 16 ∧ d < 16 := by
  rw [Nat.and_or_distrib_right, Nat.or_eq_zero_iff, hexMask_eq_zero ha hc, hexMask_eq_zero hb hd]

/-- The bytes of two digits each make up four digits. -/
theorem hexJoin {a b c d : Nat} (ha : a < 16) (hb : b < 16) (hc : c < 16) (hd : d < 16) :
    ((a <<< 8 ||| c) <<< 4 ||| (b <<< 8 ||| d)) % 0x10000 = ((a * 16 + b) * 16 + c) * 16 + d := by
  have hpair : ∀ {a b : Nat}, a < 16 → b < 16 → a <<< 4 ||| b = a * 16 + b := by
    intro a b _ hb
    rw [← Nat.shiftLeft_add_eq_or_of_lt (by omega), Nat.shiftLeft_eq]
  have hbyte : ∀ {a c : Nat}, c < 256 → a <<< 8 ||| c = a * 256 + c := by
    intro a c hc
    rw [← Nat.shiftLeft_add_eq_or_of_lt (by omega), Nat.shiftLeft_eq]
  have hhigh : ((a * 256 + c) <<< 4 ||| (b * 256 + d)) / 2 ^ 8 = a * 16 + b := by
    rw [Nat.or_div_two_pow, Nat.shiftLeft_eq, show (a * 256 + c) * 2 ^ 4 / 2 ^ 8 = a <<< 4 by
      rw [Nat.shiftLeft_eq]; omega, show (b * 256 + d) / 2 ^ 8 = b by omega, hpair ha hb]
  have hlow : ((a * 256 + c) <<< 4 ||| (b * 256 + d)) % 2 ^ 8 = c * 16 + d := by
    rw [Nat.or_mod_two_pow, Nat.shiftLeft_eq, show (a * 256 + c) * 2 ^ 4 % 2 ^ 8 = c <<< 4 by
      rw [Nat.shiftLeft_eq]; omega, show (b * 256 + d) % 2 ^ 8 = d by omega, hpair hc hd]
  rw [hbyte (by omega), hbyte (by omega)]
  have hsplit := Nat.div_add_mod ((a * 256 + c) <<< 4 ||| (b * 256 + d)) (2 ^ 8)
  rw [hhigh, hlow] at hsplit
  omega

/-- `to_hex` reads four hexadecimal digits. -/
theorem toHex_eq {pos : Nat} (h : ∀ i < 4, src.read (pos + i) ≤ 0xFF) :
    toHex src pos = hex4 (src.read pos) (src.read (pos + 1)) (src.read (pos + 2))
      (src.read (pos + 3)) := by
  rcases hexConv_cases (h 0 (by omega)) with ⟨a, ha, hva, hca⟩ | ⟨hva, hca⟩ <;>
  rcases hexConv_cases (h 1 (by omega)) with ⟨b, hb, hvb, hcb⟩ | ⟨hvb, hcb⟩ <;>
  rcases hexConv_cases (h 2 (by omega)) with ⟨c, hc, hvc, hcc⟩ | ⟨hvc, hcc⟩ <;>
  rcases hexConv_cases (h 3 (by omega)) with ⟨d, hd, hvd, hcd⟩ | ⟨hvd, hcd⟩ <;>
  simp only [Nat.add_zero] at hva hca <;>
  simp only [toHex, hex4, hca, hcb, hcc, hcd, hva, hvb, hvc, hvd, Option.bind_eq_bind,
    Option.bind_some, Option.bind_none]
  · have hdigits := (hexTest (.inl ha) (.inl hb) (.inl hc) (.inl hd)).mpr ⟨⟨ha, hc⟩, hb, hd⟩
    rw [if_pos hdigits, hexJoin ha hb hc hd]
  all_goals
    -- one entry is the mark
    refine if_neg fun hzero => ?_
    rw [hexTest (by omega) (by omega) (by omega) (by omega)] at hzero
    omega

/-! ## Escapes -/

/-- The high bits of a unit. -/
theorem and_high {x n k : Nat} (h : x < 2 ^ (k + n)) :
    x &&& ((2 ^ k - 1) * 2 ^ n) = x / 2 ^ n * 2 ^ n := by
  have hdiv : (x &&& ((2 ^ k - 1) * 2 ^ n)) / 2 ^ n = x / 2 ^ n := by
    rw [Nat.and_div_two_pow, Nat.mul_div_cancel _ (Nat.two_pow_pos n)]
    refine Nat.and_two_pow_sub_one_of_lt_two_pow ?_
    rw [Nat.div_lt_iff_lt_mul (Nat.two_pow_pos n), ← Nat.pow_add]
    exact h
  have hmod : (x &&& ((2 ^ k - 1) * 2 ^ n)) % 2 ^ n = 0 := by
    rw [Nat.and_mod_two_pow, Nat.mul_mod_left, Nat.and_zero]
  have hsplit := Nat.div_add_mod (x &&& ((2 ^ k - 1) * 2 ^ n)) (2 ^ n)
  rw [hdiv, hmod, Nat.add_zero, Nat.mul_comm] at hsplit
  exact hsplit.symm

theorem surrogate_mask {c : Nat} (h : c < 0x10000) :
    c &&& 0xF800 ≠ 0xD800 ↔ isSurrogate c = false := by
  have hand : c &&& 0xF800 = c / 2 ^ 11 * 2 ^ 11 := and_high (k := 5) (n := 11) h
  simp only [isSurrogate, Bool.and_eq_false_iff, decide_eq_false_iff_not]
  omega

theorem high_mask {c : Nat} (h : c < 0x10000) :
    c &&& 0xFC00 = 0xD800 ↔ isHighSurrogate c = true := by
  have hand : c &&& 0xFC00 = c / 2 ^ 10 * 2 ^ 10 := and_high (k := 6) (n := 10) h
  simp only [isHighSurrogate, Bool.and_eq_true, decide_eq_true_eq]
  omega

theorem low_mask {c : Nat} (h : c < 0x10000) :
    c &&& 0xFC00 = 0xDC00 ↔ isLowSurrogate c = true := by
  have hand : c &&& 0xFC00 = c / 2 ^ 10 * 2 ^ 10 := and_high (k := 6) (n := 10) h
  simp only [isLowSurrogate, Bool.and_eq_true, decide_eq_true_eq]
  omega

theorem hex4_lt {a b c d v : Nat} (h : hex4 a b c d = some v) : v < 0x10000 := by
  simp only [hex4, Option.bind_eq_bind, Option.bind_eq_some_iff, Option.some.injEq] at h
  obtain ⟨a', ha, b', hb, c', hc, d', hd, rfl⟩ := h
  have := hexVal_lt ha
  have := hexVal_lt hb
  have := hexVal_lt hc
  have := hexVal_lt hd
  omega

/-- The checked digits are those the plain reader reads. -/
theorem readHex_eq {pos offset : Nat} (hfits : src.Fits kind) :
    readUnit (src.rest (pos + offset)) =
      (readHex kind src pos offset).map fun c => (c, src.rest (pos + offset + 4)) := by
  unfold readHex
  by_cases hlen : pos + 4 + offset ≤ src.len
  · have hrest : src.rest (pos + offset) = src.read (pos + offset) ::
        src.read (pos + offset + 1) :: src.read (pos + offset + 2) ::
        src.read (pos + offset + 3) :: src.rest (pos + offset + 4) := by
      rw [Source.rest_of_lt (by omega), Source.rest_of_lt (by omega), Source.rest_of_lt (by omega),
        Source.rest_of_lt (by omega)]
    by_cases hsmall : ∀ i < 4, src.read (pos + offset + i) ≤ 0xFF
    · have hverify : verifyEscapeHex kind src pos offset = true := by
        simp only [verifyEscapeHex, Bool.and_eq_true, decide_eq_true_eq, Bool.or_eq_true,
          List.all_eq_true, List.mem_range]
        exact ⟨hlen, .inr hsmall⟩
      rw [if_pos hverify, toHex_eq hsmall, hrest]
      rfl
    · -- a wide unit is no digit, and a narrow source has no wide units
      have hwide : kind.size ≠ 1 := by
        intro hsize
        refine hsmall fun i hi => ?_
        have hmax := @Source.Fits.read _ _ (pos + offset + i) hfits (by omega)
        cases kind <;> simp_all [StrKind.size, StrKind.maxChar]
        omega
      have hverify : ¬ verifyEscapeHex kind src pos offset = true := by
        simp only [verifyEscapeHex, Bool.and_eq_true, decide_eq_true_eq, Bool.or_eq_true,
          List.all_eq_true, List.mem_range, beq_iff_eq, not_and]
        exact fun _ h => h.elim hwide hsmall
      rw [if_neg hverify, hrest, readUnit]
      have hnone : ∀ {u : Nat}, 0xFF < u → hexVal u = none := by
        intro u hu
        simp only [hexVal]
        rw [if_neg (by omega), if_neg (by omega), if_neg (by omega)]
      have hhex : hex4 (src.read (pos + offset)) (src.read (pos + offset + 1))
          (src.read (pos + offset + 2)) (src.read (pos + offset + 3)) = none := by
        by_contra hsome
        obtain ⟨v, hv⟩ := Option.ne_none_iff_exists'.mp hsome
        simp only [hex4, Option.bind_eq_bind, Option.bind_eq_some_iff] at hv
        obtain ⟨_, h₀, _, h₁, _, h₂, _, h₃, -⟩ := hv
        refine hsmall fun i hi => Nat.le_of_not_lt fun hbig => ?_
        have hi' : i = 0 ∨ i = 1 ∨ i = 2 ∨ i = 3 := by omega
        rcases hi' with rfl | rfl | rfl | rfl
        · exact absurd (h₀.symm.trans (hnone hbig)) (by simp)
        · exact absurd (h₁.symm.trans (hnone hbig)) (by simp)
        · exact absurd (h₂.symm.trans (hnone hbig)) (by simp)
        · exact absurd (h₃.symm.trans (hnone hbig)) (by simp)
      rw [hhex]
  · have hverify : ¬ verifyEscapeHex kind src pos offset = true := by
      simp only [verifyEscapeHex, Bool.and_eq_true, decide_eq_true_eq, not_and]
      exact fun h => absurd h hlen
    rw [if_neg hverify]
    have hshort : (src.rest (pos + offset)).length < 4 := by
      rw [Source.length_rest]
      omega
    cases h : readUnit (src.rest (pos + offset)) with
    | none => rfl
    | some p =>
        obtain ⟨_, _, _, _, heq, -⟩ := readUnit_eq_some.mp h
        rw [heq] at hshort
        simp only [List.length_cons] at hshort
        omega

theorem readHex_bound {pos offset c : Nat} (h : readHex kind src pos offset = some c) :
    pos + 4 + offset ≤ src.len := by
  unfold readHex at h
  split at h
  · rename_i hverify
    simp only [verifyEscapeHex, Bool.and_eq_true, decide_eq_true_eq] at hverify
    exact hverify.1
  · cases h

/-- What reading the escape at a backslash must give. -/
inductive EscapeSpec (src : Source) (pos : Nat) : Option (Nat × Nat) → Prop where
  | found {val size} : 2 ≤ size → pos + size ≤ src.len → val ≤ 0x10FFFF →
      readEscape (src.rest (pos + 1)) = some (val, src.rest (pos + size)) →
      EscapeSpec src pos (some (val, size))
  | notFound : readEscape (src.rest (pos + 1)) = none → EscapeSpec src pos none

/-- An escape of two characters. -/
theorem escapeSpec_short {pos e val : Nat} (hle : pos + 1 ≤ src.len) (he : src.read (pos + 1) = e)
    (hne : e ≠ 0) (hshort : shortEscape e = some val) (hval : val ≤ 0x10FFFF) :
    EscapeSpec src pos (some (val, 2)) := by
  have hlt := Source.lt_of_read hle (he ▸ hne)
  refine .found (by omega) hlt hval (readEscape_eq_some.mpr (.inl ⟨e, ?_, hshort⟩))
  exact Source.rest_of_read hle he hne

/-- No escape begins with such a character. -/
theorem readEscape_none_of_head {e : Nat} {s : List Nat} (hu : e ≠ 0x75)
    (hshort : shortEscape e = none) : readEscape (e :: s) = none := by
  simp [readEscape, hu, hshort]

/-- A unit, or the two units of a surrogate pair. -/
theorem decodeUnicodeEscape_spec {pos : Nat} (hfits : src.Fits kind) (hle : pos + 1 ≤ src.len)
    (hu : src.read (pos + 1) = 0x75) : EscapeSpec src pos (decodeUnicodeEscape kind src pos) := by
  have hrest : src.rest (pos + 1) = 0x75 :: src.rest (pos + 2) :=
    Source.rest_of_read hle hu (by decide)
  have hhi := @readHex_eq _ _ pos 2 hfits
  unfold decodeUnicodeEscape
  cases hhex : readHex kind src pos 2 with
  | none =>
      rw [hhex] at hhi
      refine .notFound ?_
      rw [hrest]
      simp [readEscape, hhi]
  | some hi =>
      rw [hhex] at hhi
      have hbound := readHex_bound hhex
      obtain ⟨_, _, _, _, -, hdigits⟩ := readUnit_eq_some.mp hhi
      have hsmall := hex4_lt hdigits
      dsimp only
      split
      · rename_i hplain
        have hns := (surrogate_mask hsmall).mp hplain
        exact .found (by omega) (by omega) (by omega)
          (readEscape_eq_some.mpr (.inr (.inl ⟨_, hrest, hhi, hns⟩)))
      rename_i hsur
      have hsur : isSurrogate hi = true := by
        by_contra h
        exact hsur ((surrogate_mask hsmall).mpr (by simpa using h))
      -- from here on the escape is a high surrogate with its partner, or nothing
      have hnone : (isHighSurrogate hi = true → readLow hi (src.rest (pos + 6)) = none) →
          readEscape (src.rest (pos + 1)) = none := by
        intro h
        rw [hrest]
        by_cases hhigh : isHighSurrogate hi = true
        · simp [readEscape, hhi, hsur, hhigh, h hhigh]
        · simp [readEscape, hhi, hsur, hhigh]
      split
      · rename_i hlow
        exact .notFound (hnone fun h => absurd ((high_mask hsmall).mpr h) hlow)
      rename_i hhigh
      have hhigh : isHighSurrogate hi = true := (high_mask hsmall).mp (not_not.mp hhigh)
      have hlo := @readHex_eq _ _ pos 8 hfits
      split
      · rename_i hshort
        refine .notFound (hnone fun _ => ?_)
        cases hlow : readLow hi (src.rest (pos + 6)) with
        | none => rfl
        | some p =>
            obtain ⟨t, low, heq, hunit, -⟩ := readLow_eq_some.mp hlow
            obtain ⟨_, _, _, _, rfl, -⟩ := readUnit_eq_some.mp hunit
            have hlen := congrArg List.length heq
            simp only [Source.length_rest, List.length_cons] at hlen
            have h₆ : src.read (pos + 6) = 0x5C := Source.read_of_head (by omega) (by rw [heq]; rfl)
            have h₇ : src.read (pos + 7) = 0x75 := by
              refine Source.read_of_head (by omega) ?_
              rw [show pos + 7 = pos + 6 + 1 by omega, Source.rest_add, heq]
              rfl
            omega
      rename_i hpair
      have hpair : pos + 12 ≤ src.len ∧ src.read (pos + 6) = 0x5C ∧ src.read (pos + 7) = 0x75 := by
        omega
      have hrest₆ : src.rest (pos + 6) = 0x5C :: 0x75 :: src.rest (pos + 8) := by
        rw [Source.rest_of_read (by omega) hpair.2.1 (by decide),
          Source.rest_of_read (by omega) hpair.2.2 (by decide)]
      cases hhex' : readHex kind src pos 8 with
      | none =>
          rw [hhex'] at hlo
          refine .notFound (hnone fun _ => ?_)
          rw [hrest₆]
          simp [readLow, hlo]
      | some lo =>
          rw [hhex'] at hlo
          obtain ⟨_, _, _, _, -, hdigits'⟩ := readUnit_eq_some.mp hlo
          have hsmall' := hex4_lt hdigits'
          dsimp only
          split
          · rename_i hnot
            refine .notFound (hnone fun _ => ?_)
            have hlow : ¬ isLowSurrogate lo = true := fun h => hnot ((low_mask hsmall').mpr h)
            rw [hrest₆]
            simp [readLow, hlo, hlow]
          · rename_i hislow
            have hislow : isLowSurrogate lo = true := (low_mask hsmall').mp (not_not.mp hislow)
            have hrange : 0xDC00 ≤ lo ∧ lo ≤ 0xDFFF := by
              simpa [isLowSurrogate] using hislow
            have hrange' : 0xD800 ≤ hi ∧ hi ≤ 0xDBFF := by
              simpa [isHighSurrogate] using hhigh
            have hval : ((hi - 0xD800) <<< 10 ||| (lo - 0xDC00)) + 0x10000 = pairVal hi lo := by
              have hor := Nat.shiftLeft_add_eq_or_of_lt (i := 10) (b := lo - 0xDC00) (by omega)
                (hi - 0xD800)
              simp only [Nat.shiftLeft_eq] at hor ⊢
              unfold pairVal
              omega
            rw [hval]
            have hread : readLow hi (src.rest (pos + 6)) =
                some (pairVal hi lo, src.rest (pos + 12)) :=
              readLow_eq_some.mpr ⟨_, lo, hrest₆, hlo, hislow, Eq.refl (pairVal hi lo)⟩
            refine .found (by omega) hpair.1 (by unfold pairVal; omega) ?_
            exact readEscape_eq_some.mpr (.inr (.inr ⟨_, hi, _, hrest, hhi, hhigh, hread⟩))

/-- Escapes are read as the plain reader reads them. -/
theorem doDecodeEscape_spec {pos : Nat} (hfits : src.Fits kind) (hlt : pos < src.len) :
    EscapeSpec src pos (doDecodeEscape kind src pos) := by
  unfold doDecodeEscape
  dsimp only
  split
  · exact escapeSpec_short hlt ‹_› (by decide) rfl (by decide)
  split
  · exact escapeSpec_short hlt ‹_› (by decide) rfl (by decide)
  split
  · exact escapeSpec_short hlt ‹_› (by decide) rfl (by decide)
  split
  · exact escapeSpec_short hlt ‹_› (by decide) rfl (by decide)
  split
  · exact escapeSpec_short hlt ‹_› (by decide) rfl (by decide)
  split
  · exact escapeSpec_short hlt ‹_› (by decide) rfl (by decide)
  split
  · exact escapeSpec_short hlt ‹_› (by decide) rfl (by decide)
  split
  · exact escapeSpec_short hlt ‹_› (by decide) rfl (by decide)
  split
  · exact decodeUnicodeEscape_spec hfits hlt ‹_›
  · rename_i h₁ h₂ h₃ h₄ h₅ h₆ h₇ h₈ h₉
    refine .notFound ?_
    rcases Nat.lt_or_eq_of_le (Nat.succ_le_of_lt hlt) with hlt' | heq
    · rw [Source.rest_of_lt hlt']
      refine readEscape_none_of_head h₉ ?_
      unfold shortEscape
      split <;> simp_all
    · rw [show pos + 1 = src.len from heq, Source.rest_len]
      rfl

/-! ## Runs of plain characters -/

theorem readBatchCount_pos (isa : Isa) (kind : StrKind) : 0 < readBatchCount isa kind := by
  cases isa <;> cases kind <;> decide

theorem isEscapeUnit_eq_false {u : Nat} :
    isEscapeUnit u = false ↔ u ≠ 0x22 ∧ u ≠ 0x5C ∧ 0x20 ≤ u := by
  simp only [isEscapeUnit, Bool.or_eq_false_iff, beq_eq_false_iff_ne, decide_eq_false_iff_not]
  omega

/-- Some units of a source. -/
def Source.slice (src : Source) (pos n : Nat) : List Nat := (List.range n).map (loadVec src pos)

namespace Source

@[simp] theorem slice_zero (src : Source) (pos : Nat) : src.slice pos 0 = [] := rfl

theorem slice_add (src : Source) (pos n m : Nat) :
    src.slice pos (n + m) = src.slice pos n ++ src.slice (pos + n) m := by
  simp [slice, loadVec, List.range_add, Function.comp_def, Nat.add_assoc]

theorem slice_one (src : Source) (pos : Nat) : src.slice pos 1 = [src.read pos] := rfl

theorem mem_slice {src : Source} {pos n c : Nat} :
    c ∈ src.slice pos n ↔ ∃ i < n, src.read (pos + i) = c := by
  simp [slice, loadVec]

end Source

/-- A run of plain units is read as it stands. -/
theorem unescape_slice {cur n : Nat} (hle : cur + n ≤ src.len)
    (hplain : ∀ i < n, isEscapeUnit (src.read (cur + i)) = false) :
    unescape .plain (src.rest cur) = prepend (src.slice cur n) (unescape .plain (src.rest (cur + n))) := by
  induction n with
  | zero => simp
  | succ n ih =>
      have hunit := isEscapeUnit_eq_false.mp (hplain n (Nat.lt_succ_self n))
      rw [ih (by omega) fun i hi => hplain i (by omega), Source.slice_add, ← prepend_prepend,
        Source.rest_of_lt (show cur + n < src.len by omega),
        unescape_plain _ hunit.2.2 hunit.1 hunit.2.1, Source.slice_one, Nat.add_assoc]

/-- The reader's verdict on the unit that ends a run. -/
theorem loopState_spec {pos : Nat} (hfits : src.Fits kind) (hlt : pos < src.len)
    (hstop : isEscapeUnit (src.read pos) = true) :
    match loopState kind src pos with
    | .continue => False
    | .end => unescape .plain (src.rest pos) = some ([], src.rest (pos + 1))
    | .escape val size => 2 ≤ size ∧ pos + size ≤ src.len ∧ val ≤ 0x10FFFF ∧
        unescape .plain (src.rest pos) = prepend [val] (unescape .plain (src.rest (pos + size)))
    | .invalid => unescape .plain (src.rest pos) = none := by
  have hrest := Source.rest_of_lt hlt
  unfold loopState
  dsimp only
  by_cases hq : src.read pos = 0x22
  · rw [if_pos hq, hrest, hq]
    exact unescape_quote .plain _
  rw [if_neg hq]
  by_cases hb : src.read pos = 0x5C
  · rw [if_pos hb]
    have hesc := doDecodeEscape_spec hfits hlt
    rw [hb] at hrest
    cases hread : doDecodeEscape kind src pos with
    | none =>
        rw [hread] at hesc
        cases hesc with
        | notFound hnone => simp only [hrest, unescape_backslash, hnone]
    | some p =>
        obtain ⟨val, size⟩ := p
        rw [hread] at hesc
        cases hesc with
        | found htwo hbound hval hsome =>
            exact ⟨htwo, hbound, hval, by rw [hrest, unescape_backslash, hsome]⟩
  · rw [if_neg hb]
    have hctl : src.read pos < 0x20 := by
      by_contra h
      have := isEscapeUnit_eq_false.mpr ⟨hq, hb, Nat.le_of_not_lt h⟩
      rw [this] at hstop
      cases hstop
    rw [hrest]
    exact unescape_control .plain _ hctl

/-! ## The record of the largest units -/

theorem checkmax_iff {width bound : Nat} {v : Vec} :
    v.checkmax width bound = true ↔ ∀ i < width, v i ≤ bound := by
  simp [Vec.checkmax]

/-- The record bounds what it bounded before and the lanes put in. -/
theorem checkmax_track {width bound : Nat} {maxvec vec : Vec} :
    (track kind maxvec vec).checkmax width bound = true ↔
      maxvec.checkmax width bound = true ∧
        (trackMax kind = true → ∀ i < width, vec i ≤ bound) := by
  unfold track
  split
  · rename_i htrack
    simp only [checkmax_iff, Vec.unsignedMax, Nat.max_le, htrack, true_implies]
    exact ⟨fun h => ⟨fun i hi => (h i hi).1, fun i hi => (h i hi).2⟩,
      fun h i hi => ⟨h.1 i hi, h.2 i hi⟩⟩
  · rename_i htrack
    simp [htrack]

/-- What a reader that started at `cur` has done: passed plain units and recorded them, and
stopped at a unit that ends a run or gone through its registers. -/
structure ScanSpec (isa : Isa) (kind : StrKind) (src : Source) (cur : Nat) (maxvec : Vec)
    (scan : Scan) : Prop where
  cur_eq : scan.cur = cur + scan.doneCount
  bound : cur + scan.doneCount ≤ src.len
  plain : ∀ i < scan.doneCount, isEscapeUnit (src.read (cur + i)) = false
  max : ∀ b, scan.maxvec.checkmax (readBatchCount isa kind) b = true ↔
    maxvec.checkmax (readBatchCount isa kind) b = true ∧
      (trackMax kind = true → ∀ i < scan.doneCount, src.read (cur + i) ≤ b)
  stop : (scan.state = .continue ∧ 0 < scan.doneCount) ∨
    (cur + scan.doneCount < src.len ∧ isEscapeUnit (src.read (cur + scan.doneCount)) = true ∧
      scan.state = loopState kind src (cur + scan.doneCount))

theorem ScanSpec.mk' {cur n : Nat} {maxvec maxvec' : Vec} {state : LoopState}
    (hle : cur + n ≤ src.len) (hplain : ∀ i < n, isEscapeUnit (src.read (cur + i)) = false)
    (hmax : ∀ b, maxvec'.checkmax (readBatchCount isa kind) b = true ↔
      maxvec.checkmax (readBatchCount isa kind) b = true ∧
        (trackMax kind = true → ∀ i < n, src.read (cur + i) ≤ b))
    (hstop : (state = .continue ∧ 0 < n) ∨
      (cur + n < src.len ∧ isEscapeUnit (src.read (cur + n)) = true ∧
        state = loopState kind src (cur + n))) :
    ScanSpec isa kind src cur maxvec ⟨n, state, cur + n, maxvec'⟩ :=
  ⟨rfl, hle, hplain, hmax, hstop⟩

/-- The lanes of a register below the one that ends the run. -/
theorem lowMask_le {width count b : Nat} {vec : Vec} (hcount : count ≤ width) :
    (∀ i < width, vec.lowMask count i ≤ b) ↔ ∀ i < count, vec i ≤ b := by
  constructor
  · intro h i hi
    have := h i (by omega)
    rwa [Vec.lowMask, if_pos hi] at this
  · intro h i _
    unfold Vec.lowMask
    split
    · exact h i ‹_›
    · exact Nat.zero_le _

/-- Facts about two runs, one behind the other. -/
theorem forall_lt_add {p : Nat → Prop} {n m : Nat} :
    (∀ i < n + m, p i) ↔ (∀ i < n, p i) ∧ ∀ i < m, p (n + i) := by
  constructor
  · exact fun h => ⟨fun i hi => h i (by omega), fun i hi => h (n + i) (by omega)⟩
  · rintro ⟨h₁, h₂⟩ i hi
    by_cases hin : i < n
    · exact h₁ i hin
    · have := h₂ (i - n) (by omega)
      rwa [show n + (i - n) = i by omega] at this

/-- The readers of whole registers. The induction is on the registers left; `done` units have been
passed. -/
theorem decodeStrLoop_spec {cur : Nat} {maxvec₀ : Vec} (remaining done : Nat) (maxvec : Vec)
    (hle : cur + done + remaining * readBatchCount isa kind ≤ src.len)
    (hplain : ∀ i < done, isEscapeUnit (src.read (cur + i)) = false)
    (hmax : ∀ b, maxvec.checkmax (readBatchCount isa kind) b = true ↔
      maxvec₀.checkmax (readBatchCount isa kind) b = true ∧
        (trackMax kind = true → ∀ i < done, src.read (cur + i) ≤ b))
    (hpos : 0 < done + remaining) :
    ScanSpec isa kind src cur maxvec₀ (decodeStrLoop isa kind src cur remaining done maxvec) := by
  induction remaining generalizing done maxvec with
  | zero => exact .mk' (by omega) hplain hmax (.inl ⟨rfl, hpos⟩)
  | succ remaining ih =>
      have hbatch := readBatchCount_pos isa kind
      rw [Nat.succ_mul] at hle
      unfold decodeStrLoop
      dsimp only
      cases hfirst : firstLane (readBatchCount isa kind)
          (fun i => isEscapeUnit (loadVec src (cur + done) i)) with
      | none =>
          rw [firstLane_eq_none] at hfirst
          refine ih (done + readBatchCount isa kind) _ (by omega)
            (forall_lt_add.mpr ⟨hplain, fun i hi => ?_⟩) (fun b => ?_) (by omega)
          · rw [← Nat.add_assoc]
            exact hfirst i hi
          · rw [checkmax_track, hmax b, and_assoc, ← imp_and, forall_lt_add]
            simp only [loadVec, Nat.add_assoc]
      | some i =>
          rw [firstLane_eq_some] at hfirst
          obtain ⟨hi, hstop, hbelow⟩ := hfirst
          simp only [Nat.add_assoc cur done i]
          refine .mk' (by omega) (forall_lt_add.mpr ⟨hplain, fun j hj => ?_⟩) (fun b => ?_)
            (.inr ⟨by omega, ?_, rfl⟩)
          · rw [← Nat.add_assoc]
            exact hbelow j hj
          · rw [checkmax_track, hmax b, and_assoc, ← imp_and, lowMask_le (Nat.le_of_lt hi),
              forall_lt_add]
            simp only [loadVec, Nat.add_assoc]
          · rw [← Nat.add_assoc]
            exact hstop

/-- A reader of whole registers passes no more than them. -/
theorem decodeStrLoop_doneCount {cur : Nat} (remaining done : Nat) (maxvec : Vec) :
    (decodeStrLoop isa kind src cur remaining done maxvec).doneCount ≤
      done + remaining * readBatchCount isa kind := by
  induction remaining generalizing done maxvec with
  | zero => exact Nat.le_add_right _ _
  | succ remaining ih =>
      rw [Nat.succ_mul]
      unfold decodeStrLoop
      dsimp only
      cases hfirst : firstLane (readBatchCount isa kind)
          (fun i => isEscapeUnit (loadVec src (cur + done) i)) with
      | none =>
          have := ih (done + readBatchCount isa kind) (track kind maxvec (loadVec src (cur + done)))
          exact this.trans (by omega)
      | some i =>
          have := (firstLane_eq_some.mp hfirst).1
          exact Nat.add_le_add_left (by omega) done

/-! ## The last units -/

/-- Where the last units begin in the register that holds them. -/
def trailingOffset (isa : Isa) (kind : StrKind) (src : Source) (cur : Nat) : Nat :=
  if isa = .avx2 then readBatchCount isa kind - (src.len - cur) else 0

section Trailing

variable {cur : Nat} (hlt : cur < src.len) (hshort : src.len < cur + readBatchCount isa kind)

include hlt hshort

theorem trailingOffset_le :
    trailingOffset isa kind src cur + (src.len - cur) ≤ readBatchCount isa kind := by
  unfold trailingOffset
  split <;> omega

/-- Moving back a register from the end reaches the last units in its last lanes. -/
theorem loadVecBack_eq {i : Nat} (_hi : i < src.len - cur) :
    loadVecBack isa kind src (readBatchCount isa kind - (src.len - cur) + i) =
      src.read (cur + i) := by
  simp only [loadVecBack, Source.readBack]
  rw [if_pos (by omega)]
  congr 1
  omega

/-- The register holds the last units and zeros. -/
theorem trailingVec_eq {i : Nat} (hi : i < readBatchCount isa kind) :
    trailingVec isa kind src cur i =
      if trailingOffset isa kind src cur ≤ i ∧
          i < trailingOffset isa kind src cur + (src.len - cur) then
        src.read (cur + (i - trailingOffset isa kind src cur))
      else 0 := by
  have hback : ∀ {isa : Isa}, src.len < cur + readBatchCount isa kind → ∀ {j : Nat},
      j < src.len - cur →
      loadVecBack isa kind src (readBatchCount isa kind - (src.len - cur) + j) =
        src.read (cur + j) := fun hshort _ hj => loadVecBack_eq hlt hshort hj
  unfold trailingVec trailingOffset
  cases isa with
  | avx512 => simp
  | avx2 =>
      simp only [Vec.highMask, if_true]
      by_cases h : readBatchCount .avx2 kind ≤ i + (src.len - cur)
      · have := hback hshort (j := i - (readBatchCount .avx2 kind - (src.len - cur))) (by omega)
        rw [show readBatchCount .avx2 kind - (src.len - cur) +
          (i - (readBatchCount .avx2 kind - (src.len - cur))) = i by omega] at this
        rw [if_pos h, if_pos (by omega), this]
      · rw [if_neg h, if_neg (by omega)]
  | sse =>
      simp only [Vec.rshift, reduceCtorEq, if_false, Nat.zero_le, true_and, Nat.zero_add,
        Nat.sub_zero]
      by_cases h : i < src.len - cur
      · have := hback hshort h
        rw [if_pos (by omega), if_pos h, Nat.add_comm i, this]
      · rw [if_neg (by omega), if_neg h]
  | neon =>
      simp only [Vec.rshift, reduceCtorEq, if_false, Nat.zero_le, true_and, Nat.zero_add,
        Nat.sub_zero]
      by_cases h : i < src.len - cur
      · have := hback hshort h
        rw [if_pos (by omega), if_pos h, Nat.add_comm i, this]
      · rw [if_neg (by omega), if_neg h]

/-- A lane is set for a unit among the last ones that ends a run. -/
theorem trailingMask_eq {i : Nat} (hi : i < readBatchCount isa kind) :
    trailingMask isa kind src cur i = true ↔
      trailingOffset isa kind src cur ≤ i ∧
        i < trailingOffset isa kind src cur + (src.len - cur) ∧
        isEscapeUnit (src.read (cur + (i - trailingOffset isa kind src cur))) = true := by
  have hvec := trailingVec_eq hlt hshort hi
  by_cases havx2 : isa = .avx2
  · subst havx2
    have hback := fun j => loadVecBack_eq (i := j) hlt hshort
    simp only [trailingMask, trailingOffset, if_true, Bool.and_eq_true, decide_eq_true_eq]
    constructor
    · rintro ⟨h, hesc⟩
      have := hback (i - (readBatchCount .avx2 kind - (src.len - cur))) (by omega)
      rw [show readBatchCount .avx2 kind - (src.len - cur) +
        (i - (readBatchCount .avx2 kind - (src.len - cur))) = i by omega] at this
      exact ⟨by omega, by omega, this ▸ hesc⟩
    · rintro ⟨h, _, hesc⟩
      have := hback (i - (readBatchCount .avx2 kind - (src.len - cur))) (by omega)
      rw [show readBatchCount .avx2 kind - (src.len - cur) +
        (i - (readBatchCount .avx2 kind - (src.len - cur))) = i by omega] at this
      exact ⟨by omega, this.symm ▸ hesc⟩
  · have hoff : trailingOffset isa kind src cur = 0 := by rw [trailingOffset, if_neg havx2]
    have hmask : trailingMask isa kind src cur i =
        (decide (i < src.len - cur) && isEscapeUnit (trailingVec isa kind src cur i)) := by
      cases isa <;> first | rfl | exact absurd rfl havx2
    rw [hmask, hvec, hoff]
    by_cases h : i < src.len - cur <;> simp [h]

/-- The reader of the last units stops like the others, or no unit left ends the string. -/
theorem decodeStrTrailing_spec (maxvec : Vec) :
    ScanSpec isa kind src cur maxvec (decodeStrTrailing isa kind src cur maxvec) ∨
    ((decodeStrTrailing isa kind src cur maxvec).state = .invalid ∧
      ∀ i < src.len - cur, isEscapeUnit (src.read (cur + i)) = false) := by
  have hoff := trailingOffset_le hlt hshort
  unfold decodeStrTrailing
  dsimp only
  cases hfirst : firstLane (readBatchCount isa kind) (trailingMask isa kind src cur) with
  | none =>
      rw [firstLane_eq_none] at hfirst
      refine .inr ⟨rfl, fun i hi => ?_⟩
      have hlane : trailingOffset isa kind src cur + i < readBatchCount isa kind := by omega
      have hclear := hfirst _ hlane
      rw [← Bool.not_eq_true, trailingMask_eq hlt hshort hlane, Nat.add_sub_cancel_left] at hclear
      rw [← Bool.not_eq_true]
      exact fun hesc => hclear ⟨by omega, by omega, hesc⟩
  | some i =>
      rw [firstLane_eq_some] at hfirst
      obtain ⟨hi, hset, hbelow⟩ := hfirst
      obtain ⟨hlow, hhigh, hesc⟩ := (trailingMask_eq hlt hshort hi).mp hset
      have hdone : (if isa = .avx2 then i - (readBatchCount isa kind - (src.len - cur)) else i) =
          i - trailingOffset isa kind src cur := by
        unfold trailingOffset
        split <;> rfl
      simp only [hdone]
      refine .inl (.mk' (by omega) (fun j hj => ?_) (fun b => ?_) (.inr ⟨by omega, hesc, rfl⟩))
      · have hlane : trailingOffset isa kind src cur + j < readBatchCount isa kind := by omega
        have hclear := hbelow (trailingOffset isa kind src cur + j) (by omega)
        rw [← Bool.not_eq_true, trailingMask_eq hlt hshort hlane,
          Nat.add_sub_cancel_left] at hclear
        rw [← Bool.not_eq_true]
        exact fun hesc => hclear ⟨by omega, by omega, hesc⟩
      · rw [checkmax_track, lowMask_le (Nat.le_of_lt hi)]
        refine and_congr_right fun _ => imp_congr_right fun _ => ⟨fun h j hj => ?_, fun h j hj => ?_⟩
        · have := h (trailingOffset isa kind src cur + j) (by omega)
          rwa [trailingVec_eq hlt hshort (by omega), if_pos (by omega),
            Nat.add_sub_cancel_left] at this
        · rw [trailingVec_eq hlt hshort (by omega)]
          split
          · exact h _ (by omega)
          · exact Nat.zero_le _

end Trailing

end SsrJson.Decode
