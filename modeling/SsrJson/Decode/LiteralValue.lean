import SsrJson.Decode.BigintSet
import SsrJson.Library.CutDecimal
import SsrJson.Spec.NumberValue

/-!
# The decimal of a literal

`literalDecimal` is the significand and the exponent that `digi_finish` starts from. Its value is
that of the literal unless digits were cut off, and where they were, it still says where the last
digit stands.
-/

namespace SsrJson.Decode

open Spec

/-! ## Digits -/

theorem digitsVal_append (ds ds' : List Nat) :
    digitsVal (ds ++ ds') = digitsVal ds * 10 ^ ds'.length + digitsVal ds' := by
  rw [digitsVal_eq, List.foldl_append, ← digitsVal_eq, foldl_addDigit]

/-- Zeros in front change nothing. -/
theorem digitsVal_dropWhile (ds : List Nat) :
    digitsVal (ds.dropWhile (· == 0x30)) = digitsVal ds := by
  induction ds with
  | nil => rfl
  | cons d ds ih =>
      rw [List.dropWhile_cons]
      split
      · rename_i hd
        rw [beq_iff_eq] at hd
        rw [ih, hd, digitsVal_eq, digitsVal_eq, List.foldl_cons]
        rfl
      · rfl

/-- Zeros at the end multiply. -/
theorem digitsVal_zeros {ds : List Nat} (h : ds.all (· == 0x30) = true) : digitsVal ds = 0 := by
  rw [← digitsVal_dropWhile, List.dropWhile_eq_nil_iff.mpr (List.all_eq_true.mp h)]
  rfl

/-- Digits that are not all zero. -/
theorem digitsVal_pos {ds : List Nat} (hds : ∀ d ∈ ds, isDigit d = true)
    (h : ds.all (· == 0x30) = false) : 0 < digitsVal ds := by
  obtain ⟨n, hsplit, hhead⟩ := zeros_split ds
  rw [← digitsVal_dropWhile]
  cases hrest : ds.dropWhile (· == 0x30) with
  | nil =>
      rw [List.dropWhile_eq_nil_iff] at hrest
      rw [List.all_eq_true.mpr hrest] at h
      cases h
  | cons c cs =>
      have hne : c ≠ 0x30 := hhead c (by rw [hrest]; rfl)
      have hc := isDigit_iff.mp (hds c ((List.dropWhile_sublist _).mem (hrest ▸ List.mem_cons_self)))
      have hge := @digitsVal_ge c cs (isNonzeroDigit_iff.mpr ⟨by omega, hc.2⟩)
      exact (Nat.pow_pos (by decide)).trans_le hge

variable {p : NumberParts}

/-- The significant digits of a literal are digits, the first one not zero. -/
structure SignificantDigits (p : NumberParts) : Prop where
  digit : ∀ d ∈ p.significant, isDigit d = true
  head : ∀ c ∈ p.significant.head?, c ≠ 0x30

theorem intPart_digits {t : List Nat} (h : IntPart t) : ∀ d ∈ t, isDigit d = true := by
  cases h with
  | zero => decide
  | nonzero hc hds => exact allDigits hc hds

theorem significantDigits {t : List Nat} (h : p.IsText t) : SignificantDigits p := by
  refine ⟨significant_digits (intPart_digits h.int) h.frac, ?_⟩
  obtain ⟨-, -, hhead⟩ := zeros_split (p.int ++ p.frac)
  exact hhead

/-- The first significant digits as a number. -/
theorem SignificantDigits.take_ge (h : SignificantDigits p) {k : Nat}
    (hk : k < p.significant.length) : 10 ^ k ≤ digitsVal (p.significant.take (k + 1)) := by
  obtain ⟨c, cs, hcons⟩ := List.exists_cons_of_length_pos (show 0 < p.significant.length by omega)
  have hc := isDigit_iff.mp (h.digit c (hcons ▸ List.mem_cons_self))
  have hne : c ≠ 0x30 := h.head c (by rw [hcons]; rfl)
  have hge := @digitsVal_ge c (cs.take k) (isNonzeroDigit_iff.mpr ⟨by omega, hc.2⟩)
  rw [hcons, List.length_cons] at hk
  rw [List.length_take_of_le (by omega)] at hge
  rw [hcons, List.take_succ_cons]
  exact hge

theorem SignificantDigits.take_lt (h : SignificantDigits p) (k : Nat) :
    digitsVal (p.significant.take k) < 10 ^ k := by
  have hlt := digitsVal_lt fun d hd => h.digit d (List.mem_of_mem_take (i := k) hd)
  exact hlt.trans_le (Nat.pow_le_pow_right (by decide) (List.length_take_le _ _))

/-- The significant digits in two parts. -/
theorem significant_split (p : NumberParts) (k : Nat) : digitsVal p.significant =
    digitsVal (p.significant.take k) * 10 ^ (p.significant.length - k) +
      digitsVal (p.significant.drop k) := by
  conv_lhs => rw [← List.take_append_drop k p.significant]
  rw [digitsVal_append, List.length_drop]

theorem value_eq (p : NumberParts) : p.value = digitsVal p.significant * 10 ^ p.lastExp := by
  rw [NumberParts.value, NumberParts.significant, digitsVal_dropWhile]

/-! ## The decimal -/

/-- What `digi_exp_finish` lets through. -/
def finishDecimal (d : Decimal) : Option Decimal :=
  if d.exp < -324 - 19 then none else if 308 < d.exp then none else some d

/-- The decimal that `digi_finish` starts from, if the reader of the literal gets there. -/
def literalDecimal (p : NumberParts) : Option Decimal :=
  if p.frac = [] ∧ p.exp = none ∧ digitsVal p.int < 2 ^ 64 then none
  else if p.significant = [] then none
  else
    match p.exp with
    | none => finishDecimal (partsDecimal 0 p)
    | some (neg, ds) =>
      let ds := ds.dropWhile (· == 0x30)
      if 19 ≤ ds.length then none
      else
        let d := partsDecimal 0 p
        finishDecimal { d with exp := if neg then d.exp - digitsVal ds else d.exp + digitsVal ds }

theorem finishDecimal_some {d d' : Decimal} (h : finishDecimal d = some d') :
    d' = d ∧ -343 ≤ d.exp ∧ d.exp ≤ 308 ∧ ∀ src, finishRaw src d = digiFinish src d := by
  unfold finishDecimal at h
  split at h
  · cases h
  · split at h
    · cases h
    · obtain rfl := Option.some.inj h
      refine ⟨rfl, by omega, by omega, fun src => ?_⟩
      rw [finishRaw, if_neg (by assumption), if_neg (by assumption)]

/-- The decimal has the exponent of the literal in it, and decides the number read. -/
theorem literalDecimal_some {d : Decimal} (h : literalDecimal p = some d) :
    p.significant ≠ [] ∧
      d = { partsDecimal 0 p with exp := (partsDecimal 0 p).exp + expVal p.exp } ∧
      -343 ≤ d.exp ∧ d.exp ≤ 308 ∧
      partsVal p = f64Bin p.neg (digiFinish (.ofUnits p.mantissa) d) := by
  unfold literalDecimal at h
  split at h
  · cases h
  · rename_i hint
    split at h
    · cases h
    · rename_i hsig
      refine ⟨hsig, ?_⟩
      rw [partsVal, partsNum, if_neg hint, if_neg hsig]
      split at h
      · rename_i hexp
        obtain ⟨rfl, hlow, hhigh, hraw⟩ := finishDecimal_some h
        rw [hexp, expRaw, hraw]
        exact ⟨by rw [expVal, Int.add_zero], hlow, hhigh, rfl⟩
      · rename_i neg ds hexp
        dsimp only at h
        split at h
        · cases h
        · rename_i hshort
          obtain ⟨rfl, hlow, hhigh, hraw⟩ := finishDecimal_some h
          rw [hexp, expRaw]
          dsimp only
          rw [if_neg hshort, hraw, expVal, digitsVal_dropWhile]
          refine ⟨?_, ?_, ?_, ?_⟩
          · congr 1
            cases neg <;> rfl
          · rwa [digitsVal_dropWhile] at hlow
          · rwa [digitsVal_dropWhile] at hhigh
          · rfl

/-- A decimal without digits that were cut off. -/
structure UncutDecimal (p : NumberParts) (d : Decimal) : Prop where
  zeros : (p.significant.drop 19).all (· == 0x30) = true
  pos : 0 < d.sig
  lt : d.sig < 10 ^ 19
  value : p.value = d.sig * 10 ^ d.exp

/-- A decimal with digits that were cut off. -/
structure CutDecimal (p : NumberParts) (d : Decimal) : Prop where
  long : 19 < p.significant.length
  cut : (p.significant.drop 19).all (· == 0x30) = false
  sig : d.sig = digitsVal (p.significant.take 19) + roundUp (p.significant.getD 19 0)
  sigCut : d.sigCut = some (cutPos p)
  sigEnd : d.sigEnd = p.mantissa.length
  dotPos : d.dotPos = p.int.length
  exp : p.lastExp = d.exp - (p.significant.length - 19 : Nat)

theorem getD_zeros {ds : List Nat} (k : Nat) (hk : k < ds.length)
    (h : (ds.drop k).all (· == 0x30) = true) : ds.getD k 0 = 0x30 := by
  rw [List.getD_eq_getElem _ _ hk]
  refine beq_iff_eq.mp (List.all_eq_true.mp h _ ?_)
  rw [List.drop_eq_getElem_cons hk]
  exact List.mem_cons_self

/-- The decimal of a literal. -/
theorem literalDecimal_cases (hs : SignificantDigits p) {d : Decimal}
    (h : literalDecimal p = some d) :
    d.sigCut = none ∧ UncutDecimal p d ∨ CutDecimal p d := by
  obtain ⟨hne, rfl, -⟩ := literalDecimal_some h
  have hpos := List.length_pos_of_ne_nil hne
  rcases Nat.lt_or_ge 19 p.significant.length with hlong | hshort
  · rw [partsDecimal_long hlong]
    by_cases hzeros : (p.significant.drop 19).all (· == 0x30) = true
    · refine .inl ⟨if_pos hzeros, ?_⟩
      have hround : roundUp (p.significant.getD 19 0) = 0 := by
        rw [getD_zeros 19 hlong hzeros]
        rfl
      have hge : 10 ^ 18 ≤ digitsVal (p.significant.take 19) := hs.take_ge (by omega)
      have hlt := hs.take_lt 19
      rw [hround]
      refine ⟨hzeros, by dsimp only; omega, hlt, ?_⟩
      dsimp only
      rw [value_eq, significant_split p 19, digitsVal_zeros hzeros, Nat.add_zero, Nat.add_zero,
        NumberParts.lastExp, Nat.cast_mul, Nat.cast_pow, Nat.cast_ofNat, mul_assoc, ← zpow_natCast,
        ← zpow_add₀ (by norm_num)]
      congr 2
      omega
    · refine .inr ⟨hlong, Bool.eq_false_iff.mpr hzeros, rfl, if_neg hzeros, rfl, rfl, ?_⟩
      dsimp only
      rw [NumberParts.lastExp]
      omega
  · rw [partsDecimal, if_pos hshort]
    refine .inl ⟨rfl, ?_⟩
    have hge := hs.take_ge (show p.significant.length - 1 < p.significant.length by omega)
    have hlt := hs.take_lt p.significant.length
    rw [Nat.sub_add_cancel hpos, List.take_length] at hge
    rw [List.take_length] at hlt
    refine ⟨by rw [List.drop_eq_nil_of_le hshort]; rfl, ?_, ?_, ?_⟩
    · exact (Nat.pow_pos (by decide)).trans_le hge
    · exact hlt.trans_le (Nat.pow_le_pow_right (by decide) hshort)
    · dsimp only
      rw [value_eq, NumberParts.lastExp, neg_add_eq_sub]

end SsrJson.Decode
