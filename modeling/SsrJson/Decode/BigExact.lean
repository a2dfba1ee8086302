import SsrJson.Decode.BigCompare

/-!
# The comparison is exact

For every literal that is compared with large integers, all operations on them compute what they
say, and the chunks suffice, as long as the digits are kept: with too many digits, where the
ones that are left out are all zeros or the dot is among them, the comparison starts from a number
that does not stand for the literal, and a count of digits that does not fit 32 bits lets the
number outgrow its chunks.
-/

namespace SsrJson.Decode

open Spec Bigint Binary64

variable {p : NumberParts} {d : Decimal} {raw : Nat}

/-- The reader of the literal compares `d` with the middle above the double `raw`. -/
structure ReachesBig (p : NumberParts) (d : Decimal) (raw : Nat) : Prop where
  decimal : literalDecimal p = some d
  raw : bigRaw d = some raw

/-- The literal is then what the comparison makes of it. -/
theorem ReachesBig.partsVal_eq (h : ReachesBig p d raw) :
    partsVal p = f64Bin p.neg (bigCompare (.ofUnits p.mantissa) d raw) := by
  obtain ⟨-, -, -, -, hval⟩ := literalDecimal_some h.decimal
  rw [hval, digiFinish_big h.raw]

/-- Everything about the comparison is as it should be: each operation computes its result within
the chunks there are, the digits are set to a number that stands for the literal, and the two
numbers in the end are compared. -/
structure BigExact (p : NumberParts) (d : Decimal) (raw : Nat) : Prop where
  full : AllExact (fullOps (.ofUnits p.mantissa) d raw) [] 0
  comp : AllExact (compOps (.ofUnits p.mantissa) d raw) [] 0
  digits : StandsFor 767 p.value (resultAll (setOps (.ofUnits p.mantissa) d) 0 *
    10 ^ setExp (.ofUnits p.mantissa) d)
  cmp : (runAll (fullOps (.ofUnits p.mantissa) d raw) []).cmp
      (runAll (compOps (.ofUnits p.mantissa) d raw) []) =
    compare (resultAll (fullOps (.ofUnits p.mantissa) d raw) 0)
      (resultAll (compOps (.ofUnits p.mantissa) d raw) 0)

/-- The middle above a finite double. -/
structure UpperRange (raw : Nat) : Prop where
  pos : 0 < (upperBoundary raw).sig
  lt : (upperBoundary raw).sig < 2 ^ 54
  low : -1075 ≤ (upperBoundary raw).exp
  high : (upperBoundary raw).exp ≤ 970

theorem upperRange (h : raw < infRaw) : UpperRange raw := by
  obtain ⟨⟨-, hplace, -⟩, hlt⟩ := onGrid_significand raw
  have hhigh : lastPlace raw ≤ 971 := by
    unfold infRaw at h
    unfold lastPlace
    omega
  constructor <;> rw [upperBoundary_eq h] <;> dsimp only <;> omega

/-- A literal below its middle that is not small has an exponent that is not small. -/
theorem exp_of_upper (hs : SignificantDigits p) (h : ReachesBig p d raw)
    (hupper : 0 < (upperBoundary raw).exp) : -20 < d.exp := by
  obtain ⟨hsig, x, hvalue, hx⟩ := literal_near hs h.decimal
  obtain ⟨hraw, hbelow, -⟩ := bigRaw_some hs h.decimal h.raw
  rw [upperBoundary_eq hraw] at hupper
  dsimp only at hupper
  have hplace : 2 ≤ lastPlace raw := by omega
  have hone : 1 ≤ value raw := by
    obtain ⟨⟨-, -, hfull⟩, -⟩ := onGrid_significand raw
    have hlarge : (1 : ℚ) ≤ significand raw := by
      exact_mod_cast (show 1 ≤ significand raw by omega)
    have hpow : (1 : ℚ) ≤ 2 ^ lastPlace raw := one_le_zpow₀ (by norm_num) (by omega)
    exact one_le_mul_of_one_le_of_one_le hlarge hpow
  by_contra hsmall
  have hxlt : x < 10 ^ 20 := by
    have hsiglt : (d.sig : ℚ) < 2 ^ 64 := by exact_mod_cast hsig.lt
    have hle := (abs_le.mp hx).2
    split at hle <;> linarith
  have hpow : (10 : ℚ) ^ d.exp ≤ 10 ^ (-20 : Int) := zpow_le_zpow_right₀ (by norm_num) (by omega)
  have hlt : x * 10 ^ d.exp < 1 := by
    calc x * 10 ^ d.exp < 10 ^ 20 * 10 ^ d.exp := mul_lt_mul_of_pos_right hxlt (by positivity)
      _ ≤ 10 ^ 20 * 10 ^ (-20 : Int) := mul_le_mul_of_nonneg_left hpow (by norm_num)
      _ = 1 := by norm_num
  rw [hvalue] at hbelow
  linarith

/-- Once the digits are set, everything else is exact. -/
theorem bigExact_of_set (hs : SignificantDigits p) (h : ReachesBig p d raw)
    (hset : AllExact (setOps (.ofUnits p.mantissa) d) [] 0)
    (hnumber : SetNumber p d (resultAll (setOps (.ofUnits p.mantissa) d) 0)
      (setExp (.ofUnits p.mantissa) d)) :
    BigExact p d raw ↔ StandsFor 767 p.value (resultAll (setOps (.ofUnits p.mantissa) d) 0 *
      10 ^ setExp (.ofUnits p.mantissa) d) := by
  have hupper := upperRange (bigRaw_some hs h.decimal h.raw).1
  obtain ⟨-, -, hlow, hhigh, -⟩ := literalDecimal_some h.decimal
  have hexp : d.exp - 750 ≤ setExp (.ofUnits p.mantissa) d := by
    by_cases hfew : d.sigCut = none ∨ p.significant.length ≤ 768
    · exact (hnumber.few hfew).2
    · obtain ⟨hsome, hmany⟩ := not_or.mp hfew
      exact (hnumber.many hsome (Nat.lt_of_not_le hmany)).2.ge
  obtain ⟨hfull, -⟩ := fullOps_exact ⟨hset, hnumber.pos, hnumber.lt, hexp, hnumber.large⟩ hupper.low
  obtain ⟨hcomp, -⟩ := compOps_exact hupper.pos hupper.lt hupper.high
    (show -1093 ≤ setExp (.ofUnits p.mantissa) d by omega)
    (fun hpos => by have := exp_of_upper hs h hpos; omega)
  refine ⟨fun hexact => hexact.digits, fun hstands => ⟨hfull, hcomp, hstands, ?_⟩⟩
  rw [hfull.final, hcomp.final, cmp_ofNat]

/-- More digits than 32 bits count are all taken, and take more chunks than there are. -/
theorem not_setOps_exact {t : List Nat} (ht : p.IsText t) (hcut : CutDecimal p d)
    (hlong : 2 ^ 32 ≤ p.significant.length) :
    ¬ AllExact (setOps (.ofUnits p.mantissa) d) [] 0 := by
  intro hexact
  have hs := significantDigits ht
  have hge : 10 ^ 18 ≤ digitsVal (p.significant.take 19) := hs.take_ge (by omega)
  obtain ⟨hresult, -⟩ := setBuf_literal hcut.long (intPart_digits ht.int) ht.frac hcut.sigEnd
    hcut.dotPos (show 0 < digitsVal (p.significant.take 19) by omega)
  have htotal := cutTotal_eq hcut.long hcut.sigEnd hcut.dotPos
  have hmod := Nat.mod_lt p.significant.length (Nat.two_pow_pos 32)
  have hall : resultAll (setOps (.ofUnits p.mantissa) d) 0 =
      markCut (768 < p.significant.length % 2 ^ 32)
        (digitsVal (p.significant.take (19 + takenCount p (p.significant.length % 2 ^ 32)))) := by
    unfold setOps
    rw [hcut.sigCut]
    dsimp only
    rw [htotal, read_cutPos hcut.long, hcut.sig, Nat.add_sub_cancel]
    exact hresult
  have hmany : 1300 < takenCount p (p.significant.length % 2 ^ 32) ∧
      18 + takenCount p (p.significant.length % 2 ^ 32) < p.significant.length := by
    have hdot : DotLeftOut p (p.significant.length % 2 ^ 32) →
        769 < p.significant.length % 2 ^ 32 := fun h => by have := h.2; omega
    unfold takenCount
    split_ifs with hfew hleft
    · omega
    · have := hdot hleft
      omega
    · omega
  have hnumber := hs.take_ge hmany.2
  rw [show 18 + takenCount p (p.significant.length % 2 ^ 32) + 1 =
    19 + takenCount p (p.significant.length % 2 ^ 32) by omega] at hnumber
  have hfits := hexact.fits (Nat.zero_le _)
  rw [hexact.final, length_le_maxChunks, hall] at hfits
  generalize digitsVal (p.significant.take
    (19 + takenCount p (p.significant.length % 2 ^ 32))) = n at hnumber hfits
  have hpow : 10 ^ 1300 ≤ 10 ^ (18 + takenCount p (p.significant.length % 2 ^ 32)) :=
    Nat.pow_le_pow_right (by decide) (by omega)
  have hmark : n ≤ markCut (768 < p.significant.length % 2 ^ 32) n + 9 := by
    unfold markCut
    split <;> omega
  have hlarge : 2 ^ 4096 + 9 ≤ 10 ^ 1300 := by decide +kernel
  exact absurd ((hlarge.trans (hpow.trans hnumber)).trans hmark)
    (Nat.not_le.mpr (Nat.add_lt_add_right hfits 9))

/-- The digits decide whether the comparison is exact. -/
theorem bigExact_iff {t : List Nat} (ht : p.IsText t) (h : ReachesBig p d raw) :
    BigExact p d raw ↔ DigitsKept p := by
  have hs := significantDigits ht
  rcases literalDecimal_cases hs h.decimal with ⟨hnone, huncut⟩ | hcut
  · obtain ⟨hset, hnumber⟩ := setOps_literal ht h.decimal (.inl hnone)
    rw [bigExact_of_set hs h hset hnumber]
    exact iff_of_true (.inl (hnumber.few (.inl hnone)).1.symm) (.inl huncut.zeros)
  · rcases Nat.lt_or_ge p.significant.length (2 ^ 32) with hlt | hge
    · obtain ⟨hset, hnumber⟩ := setOps_literal ht h.decimal (.inr hlt)
      rw [bigExact_of_set hs h hset hnumber]
      exact hnumber.stands hs hcut hlt
    · refine iff_of_false (fun hexact => not_setOps_exact ht hcut hge hexact.full.left) ?_
      rintro (hzeros | hfew | ⟨hlt, -⟩)
      · rw [hcut.cut] at hzeros
        cases hzeros
      · omega
      · omega

/-- For every literal that gets there, the number read is what the comparison says, and the large
integers are exact and have chunks enough if and only if its digits are kept. -/
theorem big_integers_exact {t : List Nat} (ht : p.IsText t) (h : ReachesBig p d raw) :
    partsVal p = f64Bin p.neg (bigCompare (.ofUnits p.mantissa) d raw) ∧
      (BigExact p d raw ↔ DigitsKept p) :=
  ⟨h.partsVal_eq, bigExact_iff ht h⟩

/-- The parts of `9007199254740993.0`, halfway between two doubles. -/
def halfwayParts : NumberParts :=
  ⟨false, [57, 48, 48, 55, 49, 57, 57, 50, 53, 52, 55, 52, 48, 57, 57, 51], [48], none⟩

theorem halfwayParts_isText : halfwayParts.IsText halfwayParts.mantissa :=
  ⟨.nonzero rfl (by decide), by decide, [], .none, (List.append_nil _).symm⟩

/-- The parts of `9007199254740993.0000000001`, which is little more: seven digits are cut. -/
def cutParts : NumberParts :=
  ⟨false, [57, 48, 48, 55, 49, 57, 57, 50, 53, 52, 55, 52, 48, 57, 57, 51],
    List.replicate 9 48 ++ [49], none⟩

theorem cutParts_isText : cutParts.IsText cutParts.mantissa :=
  ⟨.nonzero rfl (by decide), by decide, [], .none, (List.append_nil _).symm⟩

theorem big_integers_exact_halfway :
    partsVal cutParts = f64Bin false (bigCompare (.ofUnits cutParts.mantissa)
      ⟨9007199254740993000, -3, some 20, 27, 16⟩ 0x4340000000000000) ∧
    (BigExact cutParts ⟨9007199254740993000, -3, some 20, 27, 16⟩ 0x4340000000000000 ↔
      DigitsKept cutParts) :=
  big_integers_exact cutParts_isText ⟨by decide +kernel, by decide +kernel⟩

/-- The parts of `1180591620717411434496.` and 750 zeros, halfway between two doubles. -/
def zerosParts : NumberParts :=
  ⟨false, [49, 49, 56, 48, 53, 57, 49, 54, 50, 48, 55, 49, 55, 52, 49, 49, 52, 51, 52, 52, 57, 54],
    List.replicate 750 0x30, none⟩

theorem zerosParts_isText : zerosParts.IsText zerosParts.mantissa :=
  ⟨.nonzero rfl (by decide), fun d hd => by rw [List.eq_of_mem_replicate hd]; rfl, [], .none,
    (List.append_nil _).symm⟩

instance (p : NumberParts) : Decidable (DigitsKept p) := inferInstanceAs (Decidable (_ ∨ _))

/-- The digits of that literal are not kept. -/
theorem big_integers_inexact : ¬ ∀ (p : NumberParts) (t : List Nat) (d : Decimal) (raw : Nat),
    p.IsText t → ReachesBig p d raw → BigExact p d raw := by
  intro h
  have hreach : ReachesBig zerosParts ⟨1180591620717411434, 3, some 19, 773, 22⟩
      0x4450000000000000 := ⟨by decide +kernel, by decide +kernel⟩
  have hkept := (bigExact_iff zerosParts_isText hreach).mp (h _ _ _ _ zerosParts_isText hreach)
  exact absurd hkept (by decide +kernel)

end SsrJson.Decode
