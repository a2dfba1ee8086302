import SsrJson.Decode.FastPath
import SsrJson.Decode.BigExact

/-!
# Literals are rounded correctly

A literal is read as the double nearest to it: on the path with the table of powers of ten, where
the approximation is certain, and where large integers are compared and compare as the literal does
with the middle between two doubles. What is left are the exponents that are given up at once, and
integers that fit 64 bits.
-/

namespace SsrJson.Decode

open Spec Bigint Binary64

variable {p : NumberParts} {d : Decimal} {raw : Nat}

/-! ## Certain bits -/

/-- The powers of two, five and ten that the least and the highest middle lie between. -/
theorem power_bounds :
    (4940656458412465441 : Nat) * 2 ^ 1075 < 2 * 10 ^ 342 ∧
    ((2 : Nat) ^ 64 + 19) * 10 ^ 342 < (2470328229206232720 + 4) * 2 ^ 1139 ∧
    (1 : Nat) * 2 ^ 1075 < 1 * 10 ^ 325 ∧ (2 : Nat) ^ 54 * 2 ^ 970 ≤ 10 ^ 309 ∧
    (2 : Nat) ^ 54 * 2 ^ 970 ≤ 10 ^ 768 ∧ (2 : Nat) ^ 54 * 5 ^ 1075 ≤ 10 ^ 768 := by
  decide +kernel

theorem halfway_zero : halfway 0 = 2 ^ (-1075 : Int) := by
  unfold halfway significand lastPlace
  norm_num

/-- The significands above the least middle, which is at 2470328229206232720.88, are scaled to a
place that doubles have. -/
theorem least_scaled {sig : Nat} (hlow : 2470328229206232720 < sig)
    (hhigh : sig < 2470328229206232725) : (scaled sig (-342)).exp = -1138 := by
  obtain ⟨k, hk, rfl⟩ : ∃ k < 4, sig = 2470328229206232721 + k :=
    ⟨sig - 2470328229206232721, by omega, by omega⟩
  interval_cases k <;> decide +kernel

theorem mul_ten_zpow_lt {a b : ℚ} {m k : Nat} (h : a * 2 ^ k < b * 10 ^ m) :
    a * 10 ^ (-(m : Int)) < b * 2 ^ (-(k : Int)) := by
  rw [zpow_neg, zpow_neg, zpow_natCast, zpow_natCast, ← div_eq_mul_inv, ← div_eq_mul_inv,
    div_lt_div_iff₀ (by positivity) (by positivity)]
  exact h

theorem mul_two_zpow_lt {a b : ℚ} {m k : Nat} (h : a * 10 ^ m < b * 2 ^ k) :
    a * 2 ^ (-(k : Int)) < b * 10 ^ (-(m : Int)) := by
  rw [zpow_neg, zpow_neg, zpow_natCast, zpow_natCast, ← div_eq_mul_inv, ← div_eq_mul_inv,
    div_lt_div_iff₀ (by positivity) (by positivity)]
  exact h

/-- The least middle between nineteen digits and half a last place more. -/
theorem least_middle_low :
    (2470328229206232720 + 1 / 2 : ℚ) * 10 ^ (-342 : Int) < 2 ^ (-1075 : Int) := by
  have hcast : (4940656458412465441 * 2 ^ 1075 : ℚ) < 2 * 10 ^ 342 := by
    exact_mod_cast power_bounds.1
  have hhalf : (2470328229206232720 + 1 / 2 : ℚ) * 2 ^ 1075 < 1 * 10 ^ 342 := by
    generalize (2 : ℚ) ^ 1075 = a at *
    generalize (10 : ℚ) ^ 342 = b at *
    linarith
  have hlt := mul_ten_zpow_lt hhalf
  rwa [one_mul] at hlt

theorem least_middle_high :
    (2 ^ 64 + 19 : ℚ) * 2 ^ (-1139 : Int) < (2470328229206232720 + 4) * 10 ^ (-342 : Int) :=
  mul_two_zpow_lt (by exact_mod_cast power_bounds.2.1)

/-- What is scaled to a place below those of doubles is not above the least middle. -/
theorem tiny_le {sig : Nat} {exp : Int} {cut : Bool} (h : SigRange sig cut)
    (hpow : Pow10Entry exp) {x : ℚ} (hx : |x - sig| ≤ if cut then 1 / 2 else 0)
    (htiny : 64 + (scaled sig exp).exp < -1074) : x * 10 ^ exp ≤ 2 ^ (-1075 : Int) := by
  by_contra hgt
  obtain ⟨-, hlt, -, herr⟩ := @scaled_range sig exp cut h hpow
  have hhigh := (scaled_approximates h hpow hx).high
  obtain ⟨n, hn⟩ : ∃ n : ℚ, n = x * 10 ^ (exp + 342) := ⟨_, rfl⟩
  have hsplit : x * 10 ^ exp = n * 10 ^ (-342 : Int) := by
    rw [hn, mul_assoc, ← zpow_add₀ (by norm_num), show exp + 342 + -342 = exp by omega]
  -- In units of the last place of nineteen digits there are only three numbers left.
  have hbelow : n * 10 ^ (-342 : Int) < (2 ^ 64 + 19) * 2 ^ (-1139 : Int) := by
    have hsig : ((scaled sig exp).sig : ℚ) < 2 ^ 64 := by exact_mod_cast hlt
    have herr' : (scaledErr sig exp cut : ℚ) ≤ 146 := by exact_mod_cast herr
    have hplace : (2 : ℚ) ^ (scaled sig exp).exp ≤ 2 ^ (-1139 : Int) :=
      zpow_le_zpow_right₀ (by norm_num) (by omega)
    rw [← hsplit]
    calc x * 10 ^ exp < ((scaled sig exp).sig + scaledErr sig exp cut / 8) *
          2 ^ (scaled sig exp).exp := hhigh
      _ ≤ (2 ^ 64 + 19) * 2 ^ (scaled sig exp).exp :=
          mul_le_mul_of_nonneg_right (by linarith) (by positivity)
      _ ≤ (2 ^ 64 + 19) * 2 ^ (-1139 : Int) := mul_le_mul_of_nonneg_left hplace (by norm_num)
  have hlow : 2470328229206232720 + 1 / 2 < n := by
    have habove : (2 : ℚ) ^ (-1075 : Int) < n * 10 ^ (-342 : Int) := by
      rw [← hsplit]
      exact not_le.mp hgt
    exact lt_of_mul_lt_mul_right (least_middle_low.trans habove) (by positivity)
  have hupper : n < 2470328229206232720 + 4 :=
    lt_of_mul_lt_mul_right (hbelow.trans least_middle_high) (by positivity)
  have hclose : |x - sig| ≤ 1 / 2 := hx.trans (by split <;> norm_num)
  obtain ⟨hxlow, hxhigh⟩ := abs_le.mp hclose
  rcases lt_trichotomy exp (-342) with hless | rfl | hmore
  · -- The significand would not fit 64 bits.
    have hten : (10 : ℚ) ^ (exp + 342) ≤ 10 ^ (-1 : Int) :=
      zpow_le_zpow_right₀ (by norm_num) (by omega)
    have hxpos : 0 < x := by
      have hpos : (0 : ℚ) < 10 ^ (exp + 342) := by positivity
      refine pos_of_mul_pos_left ?_ hpos.le
      rw [← hn]
      linarith
    have hle : n ≤ x * 10 ^ (-1 : Int) := by
      rw [hn]
      exact mul_le_mul_of_nonneg_left hten hxpos.le
    have hsig : (sig : ℚ) < 2 ^ 64 := by exact_mod_cast h.lt
    norm_num at hle
    linarith
  · rw [show (-342 + 342 : Int) = 0 from rfl, zpow_zero, mul_one] at hn
    have hsiglow : 2470328229206232720 < sig := by
      have : ((2470328229206232720 : Nat) : ℚ) < sig := by
        push_cast
        linarith
      exact_mod_cast this
    have hsighigh : sig < 2470328229206232725 := by
      have : (sig : ℚ) < ((2470328229206232725 : Nat) : ℚ) := by
        push_cast
        linarith
      exact_mod_cast this
    rw [least_scaled hsiglow hsighigh] at htiny
    exact absurd htiny (by decide)
  · -- No multiple of ten is among them, and a significand that was cut is larger.
    obtain ⟨j, hj⟩ : ∃ j : Nat, exp + 342 = j + 1 := ⟨(exp + 341).toNat, by omega⟩
    have hten : (10 : ℚ) ≤ 10 ^ (exp + 342) := by
      rw [hj]
      calc (10 : ℚ) = 10 ^ (1 : Int) := (zpow_one _).symm
        _ ≤ 10 ^ ((j : Int) + 1) := zpow_le_zpow_right₀ (by norm_num) (by omega)
    cases cut with
    | true =>
        have hlarge : ((2 ^ 59 : Nat) : ℚ) ≤ sig := by exact_mod_cast h.large rfl
        push_cast at hlarge
        have hle : x * 10 ≤ n := by
          rw [hn]
          exact mul_le_mul_of_nonneg_left hten (by linarith)
        linarith
    | false =>
        have hxsig : x = sig := by
          have habs : |x - sig| ≤ 0 := hx
          linarith [abs_nonpos_iff.mp habs]
        have hnat : n = ((sig * 10 ^ j * 10 : Nat) : ℚ) := by
          rw [hn, hxsig, hj, zpow_add_one₀ (by norm_num), zpow_natCast]
          push_cast
          ring
        rw [hnat] at hlow hupper
        have hlow' : 2470328229206232720 < sig * 10 ^ j * 10 := by
          have : ((2470328229206232720 : Nat) : ℚ) < (sig * 10 ^ j * 10 : Nat) := by
            push_cast at hlow ⊢
            linarith
          exact_mod_cast this
        have hupper' : sig * 10 ^ j * 10 < 2470328229206232724 := by
          have : ((sig * 10 ^ j * 10 : Nat) : ℚ) < (2470328229206232724 : Nat) := by
            push_cast at hupper ⊢
            linarith
          exact_mod_cast this
        omega

/-- A number that is not above the least middle rounds to zero. -/
theorem nearest_zero {x : ℚ} (h : x ≤ 2 ^ (-1075 : Int)) : Nearest x 0 :=
  nearest_of (Nat.zero_le _) (fun r hr => absurd hr (Nat.succ_ne_zero r)) fun _ => by
    rw [halfway_zero]
    exact ⟨h, fun _ => rfl⟩

/-- A number that is not below the highest middle rounds to infinity. -/
theorem nearest_inf {x : ℚ} (h : halfway (infRaw - 1) ≤ x) : Nearest x infRaw := by
  refine nearest_of (Nat.le_refl _) (fun r hr => ?_) (fun hlt => absurd hlt (lt_irrefl _))
  obtain rfl : r = infRaw - 1 := by omega
  exact ⟨h, fun _ => by decide⟩

theorem diyFpToIeeeRaw_tiny {place : Int} (h : place < -1074) : diyFpToIeeeRaw ⟨1, place⟩ = 0 := by
  have hlz : u64LzBits 1 = 63 := by decide
  unfold diyFpToIeeeRaw
  rw [if_neg (show (1 : Nat) ≠ 0 by decide)]
  dsimp only
  rw [hlz, if_neg (by omega), if_neg (by omega), if_neg (by omega)]

/-- Where the approximation is certain, or infinite, its bits are the right ones. -/
theorem approximate_nearest (hs : SignificantDigits p) (h : literalDecimal p = some d)
    {certain : Bool} (happrox : diyApproximate d.sig d.exp d.sigCut.isSome = (raw, certain))
    (hcertain : raw = infRaw ∨ certain = true) : Nearest p.value raw := by
  obtain ⟨hsig, x, hvalue, hx⟩ := literal_near hs h
  obtain ⟨-, -, hlow, hhigh, -⟩ := literalDecimal_some h
  have htiny_le := @tiny_le _ _ _ hsig (pow10Entry hlow hhigh) x hx
  obtain ⟨M, place, hgrid, hround⟩ := diyApproximate_spec hsig (pow10Entry hlow hhigh) hx
  rw [happrox] at hround
  rw [hvalue]
  generalize x * 10 ^ d.exp = v at *
  have hpow : (0 : ℚ) < 2 ^ place := by positivity
  generalize hresult : (raw, certain) = result at hround
  cases hround with
  | down hbelow habove =>
      obtain ⟨rfl, -⟩ := Prod.mk.inj hresult
      rcases hgrid with ⟨hgrid, hM⟩ | ⟨htiny, hplace, rfl⟩
      · rw [diyFpToIeeeRaw_rawOf hgrid]
        refine nearest_down hgrid hM (lt_of_le_of_lt ?_ hbelow) habove
        exact mul_le_mul_of_nonneg_right (by linarith) hpow.le
      · exact nearest_zero (htiny_le (by omega))
  | up hbelow habove =>
      obtain ⟨rfl, -⟩ := Prod.mk.inj hresult
      rcases hgrid with ⟨hgrid, hM⟩ | ⟨htiny, hplace, rfl⟩
      · have hnext : OnGrid (M + 1) place := ⟨hM, hgrid.2.1, hgrid.2.2.imp_left Nat.le_succ_of_le⟩
        rw [diyFpToIeeeRaw_rawOf hnext]
        refine nearest_up hgrid hM hbelow (habove.trans_le ?_)
        exact mul_le_mul_of_nonneg_right (by linarith) hpow.le
      · rw [Nat.zero_add, diyFpToIeeeRaw_tiny htiny]
        exact nearest_zero (htiny_le (by omega))
  | near hbelow habove =>
      obtain ⟨rfl, rfl⟩ := Prod.mk.inj hresult
      have hinf := hcertain.resolve_right Bool.false_ne_true
      rcases hgrid with ⟨hgrid, hM⟩ | ⟨htiny, -, rfl⟩
      · rw [hinf]
        rw [diyFpToIeeeRaw_rawOf hgrid] at hinf
        have hvalue := value_rawOf hgrid
        have hmono : value infRaw ≤ value (rawOf M place) :=
          value_strictMono.monotone (by omega)
        have hmid := halfway_lt_value (infRaw - 1)
        rw [show infRaw - 1 + 1 = infRaw from rfl] at hmid
        exact nearest_inf (by linarith)
      · exact absurd hinf (show diyFpToIeeeRaw ⟨0, place⟩ ≠ infRaw from Nat.zero_ne_add_one _)

/-- The approximation of every literal is the right double, or it says that it is not certain and is
the double just below. -/
theorem approximation_rounds_or_brackets {t : List Nat} (ht : p.IsText t)
    (h : literalDecimal p = some d) (hfast : fastResult d = none) :
    let result := diyApproximate d.sig d.exp d.sigCut.isSome
    if result.1 = infRaw ∨ result.2 then Nearest p.value result.1
    else result.1 < infRaw ∧ value result.1 < p.value ∧ p.value < value (result.1 + 1) := by
  intro result
  have hs := significantDigits ht
  split
  next hcertain => exact approximate_nearest hs h rfl hcertain
  next huncertain =>
      refine bigRaw_some hs h ?_
      rw [bigRaw, hfast]
      exact if_neg huncertain

theorem approximation_rounds_or_brackets_halfway :
    let d : Decimal := ⟨90071992547409930, -1, none, 0, 0⟩
    let result := diyApproximate d.sig d.exp d.sigCut.isSome
    if result.1 = infRaw ∨ result.2 then Nearest halfwayParts.value result.1
    else result.1 < infRaw ∧ value result.1 < halfwayParts.value ∧
      halfwayParts.value < value (result.1 + 1) :=
  approximation_rounds_or_brackets halfwayParts_isText
    (show literalDecimal halfwayParts = some ⟨90071992547409930, -1, none, 0, 0⟩ by decide +kernel)
    (by decide +kernel)

/-! ## The comparison -/

/-- The lower of two doubles around a number is the nearest one up to the middle. -/
theorem nearest_lower_iff {x : ℚ} (hraw : raw < infRaw) (hlow : value raw ≤ x) :
    Nearest x raw ↔ x ≤ halfway raw ∧ (x = halfway raw → raw % 2 = 0) := by
  refine ⟨fun h => h.le_halfway hraw, fun h => nearest_of hraw.le (fun r hr => ?_) fun _ => h⟩
  have hmid := halfway_lt_value r
  rw [hr] at hmid
  exact ⟨by linarith, fun heq => by linarith⟩

/-- The upper one is the nearest from the middle on. -/
theorem nearest_upper_iff {x : ℚ} (hraw : raw < infRaw) (hhigh : x < value (raw + 1)) :
    Nearest x (raw + 1) ↔ halfway raw ≤ x ∧ (x = halfway raw → raw % 2 = 1) := by
  have hodd : (raw + 1) % 2 = 0 ↔ raw % 2 = 1 := by omega
  rw [← hodd]
  refine ⟨fun h => h.halfway_le, fun h => nearest_of hraw (fun r hr => ?_) fun _ => ?_⟩
  · obtain rfl := Nat.succ.inj hr
    exact h
  · have hmid := value_lt_halfway (raw + 1)
    exact ⟨by linarith, fun heq => by linarith⟩

/-- A number is rounded to the right double where it is compared with the middle itself. -/
theorem nearest_compared {x : ℚ} (hraw : raw < infRaw) (hlow : value raw ≤ x)
    (hhigh : x < value (raw + 1)) : Nearest x (compared raw (compare x (halfway raw))) := by
  rcases lt_trichotomy x (halfway raw) with hlt | heq | hgt
  · rw [compare_lt_iff_lt.mpr hlt]
    exact (nearest_lower_iff hraw hlow).mpr ⟨hlt.le, fun h => absurd h hlt.ne⟩
  · rw [compare_eq_iff_eq.mpr heq]
    show Nearest x (raw + raw % 2)
    rcases Nat.mod_two_eq_zero_or_one raw with heven | hodd
    · rw [heven]
      exact (nearest_lower_iff hraw hlow).mpr ⟨heq.le, fun _ => heven⟩
    · rw [hodd]
      exact (nearest_upper_iff hraw hhigh).mpr ⟨heq.ge, fun _ => hodd⟩
  · rw [compare_gt_iff_gt.mpr hgt]
    exact (nearest_upper_iff hraw hhigh).mpr ⟨hgt.le, fun h => absurd h hgt.ne'⟩

/-- Where another number is compared in its place, and is no middle, that number has to be on the
same side. -/
theorem nearest_compared_iff {x y : ℚ} (hraw : raw < infRaw) (hlow : value raw ≤ x)
    (hhigh : x < value (raw + 1)) (hne : y ≠ halfway raw) :
    Nearest x (compared raw (compare y (halfway raw))) ↔
      (y < halfway raw → x ≤ halfway raw ∧ (x = halfway raw → raw % 2 = 0)) ∧
      (¬ y < halfway raw → halfway raw ≤ x ∧ (x = halfway raw → raw % 2 = 1)) := by
  rcases lt_or_gt_of_ne hne with hlt | hgt
  · rw [compare_lt_iff_lt.mpr hlt]
    exact (nearest_lower_iff hraw hlow).trans
      ⟨fun h => ⟨fun _ => h, fun hnot => absurd hlt hnot⟩, fun h => h.1 hlt⟩
  · rw [compare_gt_iff_gt.mpr hgt]
    exact (nearest_upper_iff hraw hhigh).trans
      ⟨fun h => ⟨fun hlt => absurd hlt hgt.not_gt, fun _ => h⟩, fun h => h.2 hgt.not_gt⟩

/-- Both numbers brought to whole ones compare as they did. -/
theorem compare_scaled (n m : Nat) (e u : Int) :
    compare (n * 10 ^ e.toNat * 2 ^ (-u).toNat) (m * 10 ^ (-e).toNat * 2 ^ u.toNat) =
      compare ((n : ℚ) * 10 ^ e) (m * 2 ^ u) := by
  have hsplit : ∀ (b : ℚ) (i : Int), b ≠ 0 → b ^ i.toNat = b ^ i * b ^ (-i).toNat := by
    intro b i hb
    rw [← zpow_natCast b i.toNat, ← zpow_natCast b (-i).toNat, ← zpow_add₀ hb]
    congr 1
    omega
  have hpos : (0 : ℚ) < 10 ^ (-e).toNat * 2 ^ (-u).toNat := by positivity
  have hn : ((n * 10 ^ e.toNat * 2 ^ (-u).toNat : Nat) : ℚ) =
      n * 10 ^ e * (10 ^ (-e).toNat * 2 ^ (-u).toNat) := by
    push_cast
    rw [hsplit 10 e (by norm_num)]
    ring
  have hm : ((m * 10 ^ (-e).toNat * 2 ^ u.toNat : Nat) : ℚ) =
      m * 2 ^ u * (10 ^ (-e).toNat * 2 ^ (-u).toNat) := by
    push_cast
    rw [hsplit 2 u (by norm_num)]
    ring
  rcases lt_trichotomy ((n : ℚ) * 10 ^ e) (m * 2 ^ u) with hlt | heq | hgt
  · rw [compare_lt_iff_lt.mpr hlt, compare_lt_iff_lt, ← Nat.cast_lt (α := ℚ), hn, hm]
    exact mul_lt_mul_of_pos_right hlt hpos
  · rw [compare_eq_iff_eq.mpr heq, compare_eq_iff_eq, ← Nat.cast_inj (R := ℚ), hn, hm, heq]
  · rw [compare_gt_iff_gt.mpr hgt, compare_gt_iff_gt, ← Nat.cast_lt (α := ℚ), hn, hm]
    exact mul_lt_mul_of_pos_right hgt hpos

/-- The comparison is one with the middle, of the number that the digits were set to. -/
theorem bigCompare_eq (hs : SignificantDigits p) (h : ReachesBig p d raw)
    (hset : AllExact (setOps (.ofUnits p.mantissa) d) [] 0)
    (hnumber : SetNumber p d (resultAll (setOps (.ofUnits p.mantissa) d) 0)
      (setExp (.ofUnits p.mantissa) d)) :
    bigCompare (.ofUnits p.mantissa) d raw =
      compared raw (compare ((resultAll (setOps (.ofUnits p.mantissa) d) 0 : ℚ) *
        10 ^ setExp (.ofUnits p.mantissa) d) (halfway raw)) := by
  have hraw := (bigRaw_some hs h.decimal h.raw).1
  have hupper := upperRange hraw
  obtain ⟨-, -, hlow, -, -⟩ := literalDecimal_some h.decimal
  have hexp : d.exp - 750 ≤ setExp (.ofUnits p.mantissa) d := by
    by_cases hfew : d.sigCut = none ∨ p.significant.length ≤ 768
    · exact (hnumber.few hfew).2
    · obtain ⟨hsome, hmany⟩ := not_or.mp hfew
      exact (hnumber.many hsome (Nat.lt_of_not_le hmany)).2.ge
  obtain ⟨hfull, hfull'⟩ :=
    fullOps_exact ⟨hset, hnumber.pos, hnumber.lt, hexp, hnumber.large⟩ hupper.low
  obtain ⟨hcomp, hcomp'⟩ := compOps_exact hupper.pos hupper.lt hupper.high
    (show -1093 ≤ setExp (.ofUnits p.mantissa) d by omega)
    (fun hpos => by have := exp_of_upper hs h hpos; omega)
  rw [bigCompare_ops, hfull.final, hcomp.final, cmp_ofNat, hfull', hcomp', compare_scaled,
    upperBoundary_eq hraw]
  rfl

/-- A middle has few digits. -/
theorem halfway_decimal (h : raw < infRaw) :
    ∃ (C : Nat) (s : Int), halfway raw = C * 10 ^ s ∧ C < 10 ^ 768 := by
  obtain ⟨-, -, -, -, htwo, hfive⟩ := power_bounds
  obtain ⟨⟨-, hplace, -⟩, hlt⟩ := onGrid_significand raw
  have hsig : 2 * significand raw + 1 < 2 ^ 54 := by omega
  have hhigh : lastPlace raw ≤ 971 := by
    unfold infRaw at h
    unfold lastPlace
    omega
  rcases lt_or_ge (lastPlace raw - 1) 0 with hneg | hnonneg
  · -- Halves are fifths of the power of ten.
    obtain ⟨j, hj, hj'⟩ : ∃ j : Nat, lastPlace raw - 1 = -(j : Int) ∧ j ≤ 1075 :=
      ⟨(1 - lastPlace raw).toNat, by omega, by omega⟩
    refine ⟨(2 * significand raw + 1) * 5 ^ j, -(j : Int), ?_, ?_⟩
    · rw [halfway, hj, zpow_neg, zpow_neg, zpow_natCast, zpow_natCast,
        show (10 : ℚ) ^ j = 5 ^ j * 2 ^ j by rw [← mul_pow]; norm_num]
      push_cast
      field_simp
    · have hpow : 5 ^ j ≤ 5 ^ 1075 := Nat.pow_le_pow_right (by decide) hj'
      exact (Nat.mul_lt_mul_of_lt_of_le hsig hpow (Nat.pow_pos (by decide))).trans_le hfive
  · obtain ⟨j, hj, hj'⟩ : ∃ j : Nat, lastPlace raw - 1 = j ∧ j ≤ 970 :=
      ⟨(lastPlace raw - 1).toNat, by omega, by omega⟩
    refine ⟨(2 * significand raw + 1) * 2 ^ j, 0, ?_, ?_⟩
    · rw [halfway, hj, zpow_natCast, zpow_zero, mul_one]
      push_cast
      ring
    · have hpow : 2 ^ j ≤ 2 ^ 970 := Nat.pow_le_pow_right (by decide) hj'
      exact (Nat.mul_lt_mul_of_lt_of_le hsig hpow (Nat.pow_pos (by decide))).trans_le htwo

/-- When the comparison rounds a literal correctly: with few digits always; with too many, not
where the literal is a middle whose lower double is even, and not where a dot that is left out
makes it ten times as large and brings it across the middle. -/
def RoundsMiddle (p : NumberParts) (raw : Nat) : Prop :=
  (p.significant.drop 19).all (· == 0x30) = true ∨ p.significant.length ≤ 768 ∨
    p.significant.length < 2 ^ 32 ∧ (p.value = halfway raw → raw % 2 = 1) ∧
      (DotLeftOut p p.significant.length → halfway raw ≤ 10 * p.value → halfway raw ≤ p.value)

/-- With too many digits the number that is compared lies beside the literal, or beside ten times
the literal, in the same interval of decimals of 768 digits. -/
theorem many_interval (hs : SignificantDigits p) (hcut : CutDecimal p d)
    (hmany : 768 < p.significant.length) :
    ∃ (T : Nat) (t : Int), 10 ^ 767 ≤ T ∧
      (T * 10 ^ t < ((digitsVal (p.significant.take (keptCount p p.significant.length)) * 10 + 1 :
          Nat) : ℚ) * 10 ^ (d.exp - 750) ∧
        ((digitsVal (p.significant.take (keptCount p p.significant.length)) * 10 + 1 : Nat) : ℚ) *
          10 ^ (d.exp - 750) < (T + 1) * 10 ^ t) ∧
      T * 10 ^ t ≤ (if DotLeftOut p p.significant.length then 10 else 1) * p.value ∧
      (if DotLeftOut p p.significant.length then 10 else 1) * p.value < (T + 1) * 10 ^ t := by
  have hkept := keptCount_lt p hmany
  obtain ⟨r, hvalue, hr, hr', -⟩ := value_split hs (keptCount p p.significant.length)
  have hge : 10 ^ 767 ≤ digitsVal (p.significant.take (keptCount p p.significant.length)) := by
    obtain ⟨k, hk, hk'⟩ : ∃ k, keptCount p p.significant.length = k + 1 ∧ 767 ≤ k := by
      unfold keptCount
      split
      · exact ⟨768, rfl, by decide⟩
      · exact ⟨767, rfl, by decide⟩
    rw [hk] at hkept ⊢
    exact (Nat.pow_le_pow_right (by decide) hk').trans (hs.take_ge (by omega))
  have hplace : p.lastExp + (p.significant.length - keptCount p p.significant.length : Nat) =
      d.exp - 750 + 1 + (768 - keptCount p p.significant.length : Int) := by
    rw [hcut.exp]
    omega
  have hscale : (if DotLeftOut p p.significant.length then (10 : ℚ) else 1) * p.value =
      (digitsVal (p.significant.take (keptCount p p.significant.length)) + r) *
        10 ^ (d.exp - 750 + 1) := by
    rw [hvalue, hplace]
    by_cases hdot : DotLeftOut p p.significant.length
    · rw [if_pos hdot, show keptCount p p.significant.length = 769 by rw [keptCount, if_pos hdot],
        show d.exp - 750 + 1 + (768 - (769 : Nat) : Int) = d.exp - 750 by omega,
        zpow_add_one₀ (by norm_num)]
      ring
    · rw [if_neg hdot, show keptCount p p.significant.length = 768 by rw [keptCount, if_neg hdot],
        show d.exp - 750 + 1 + (768 - (768 : Nat) : Int) = d.exp - 750 + 1 by omega, one_mul]
  refine ⟨_, d.exp - 750 + 1, hge, ?_⟩
  rw [hscale]
  generalize digitsVal (p.significant.take (keptCount p p.significant.length)) = T
  have hten : (0 : ℚ) < 10 ^ (d.exp - 750 + 1) := by positivity
  have hnumber : ((T * 10 + 1 : Nat) : ℚ) * 10 ^ (d.exp - 750) =
      (T + 1 / 10) * 10 ^ (d.exp - 750 + 1) := by
    rw [zpow_add_one₀ (by norm_num)]
    push_cast
    ring
  rw [hnumber]
  exact ⟨⟨mul_lt_mul_of_pos_right (by linarith) hten, mul_lt_mul_of_pos_right (by linarith) hten⟩,
    mul_le_mul_of_nonneg_right (by linarith) hten.le, mul_lt_mul_of_pos_right (by linarith) hten⟩

/-- A literal that is compared with large integers is rounded correctly, inside of the chunks there
are, exactly when it `RoundsMiddle`. -/
theorem bigCompare_nearest_iff {t : List Nat} (ht : p.IsText t) (h : ReachesBig p d raw) :
    AllExact (setOps (.ofUnits p.mantissa) d) [] 0 ∧
      Nearest p.value (bigCompare (.ofUnits p.mantissa) d raw) ↔ RoundsMiddle p raw := by
  have hs := significantDigits ht
  obtain ⟨hraw, hlow, hhigh⟩ := bigRaw_some hs h.decimal h.raw
  rcases literalDecimal_cases hs h.decimal with ⟨hnone, huncut⟩ | hcut
  · obtain ⟨hset, hnumber⟩ := setOps_literal ht h.decimal (.inl hnone)
    refine iff_of_true ⟨hset, ?_⟩ (.inl huncut.zeros)
    rw [bigCompare_eq hs h hset hnumber, ← (hnumber.few (.inl hnone)).1]
    exact nearest_compared hraw hlow.le hhigh
  · rcases Nat.lt_or_ge p.significant.length (2 ^ 32) with hlt | hge
    · obtain ⟨hset, hnumber⟩ := setOps_literal ht h.decimal (.inr hlt)
      rw [and_iff_right hset, bigCompare_eq hs h hset hnumber]
      rcases Nat.lt_or_ge 768 p.significant.length with hmany | hfew
      · have hrounds : RoundsMiddle p raw ↔ (p.value = halfway raw → raw % 2 = 1) ∧
            (DotLeftOut p p.significant.length → halfway raw ≤ 10 * p.value →
              halfway raw ≤ p.value) := by
          unfold RoundsMiddle
          rw [hcut.cut, or_iff_right Bool.false_ne_true, or_iff_right (Nat.not_le.mpr hmany),
            and_iff_right hlt]
        rw [hrounds]
        obtain ⟨T, t', hT, hy, hz⟩ := many_interval hs hcut hmany
        obtain ⟨C, s, hmid, hC⟩ := halfway_decimal hraw
        obtain ⟨hn, he⟩ := hnumber.many (by rw [hcut.sigCut]; nofun) hmany
        rw [hn, he]
        obtain ⟨hside, hne⟩ := lt_iff_of_interval hT (s := s) hC hy hz
        rw [← hmid] at hside hne
        rw [nearest_compared_iff hraw hlow.le hhigh hne, hside]
        have hpos : 0 < p.value := (value_zero ▸ value_strictMono.monotone (Nat.zero_le raw)).trans_lt hlow
        by_cases hdot : DotLeftOut p p.significant.length
        · rw [if_pos hdot, forall_prop_of_true hdot, not_lt]
          constructor
          · rintro ⟨-, hright⟩
            refine ⟨fun heq => (hright (by linarith)).2 heq, fun hle => (hright hle).1⟩
          · rintro ⟨hodd, hright⟩
            exact ⟨fun hlt => ⟨by linarith, fun heq => by linarith⟩, fun hle => ⟨hright hle, hodd⟩⟩
        · rw [if_neg hdot, one_mul, not_lt]
          constructor
          · rintro ⟨-, hright⟩
            exact ⟨fun heq => (hright heq.ge).2 heq, fun h => absurd h hdot⟩
          · rintro ⟨hodd, -⟩
            exact ⟨fun hlt => ⟨hlt.le, fun heq => absurd heq hlt.ne⟩, fun hle => ⟨hle, hodd⟩⟩
      · refine iff_of_true ?_ (.inr (.inl hfew))
        rw [← (hnumber.few (.inr hfew)).1]
        exact nearest_compared hraw hlow.le hhigh
    · refine iff_of_false (fun hexact => not_setOps_exact ht hcut hge hexact.1) ?_
      rintro (hzeros | hfew | ⟨hlt, -⟩)
      · rw [hcut.cut] at hzeros
        cases hzeros
      · omega
      · omega

/-! ## Exponents that are given up -/

/-- The order of a literal. -/
theorem value_order (hs : SignificantDigits p) (hne : p.significant ≠ []) :
    10 ^ (p.significant.length - 1 + p.lastExp) ≤ p.value ∧
      p.value < 10 ^ (p.significant.length + p.lastExp) := by
  have hpos := List.length_pos_of_ne_nil hne
  have hge := hs.take_ge (show p.significant.length - 1 < p.significant.length by omega)
  have hlt := hs.take_lt p.significant.length
  rw [Nat.sub_add_cancel hpos, List.take_length] at hge
  rw [List.take_length] at hlt
  have hge' : (10 ^ (p.significant.length - 1) : ℚ) ≤ digitsVal p.significant := by
    exact_mod_cast hge
  have hlt' : (digitsVal p.significant : ℚ) < 10 ^ p.significant.length := by exact_mod_cast hlt
  have hten : (0 : ℚ) < 10 ^ p.lastExp := by positivity
  rw [value_eq]
  constructor
  · rw [zpow_add₀ (by norm_num), show (p.significant.length - 1 : Int) =
      (p.significant.length - 1 : Nat) by omega, zpow_natCast]
    exact mul_le_mul_of_nonneg_right hge' hten.le
  · rw [zpow_add₀ (by norm_num), zpow_natCast]
    exact mul_lt_mul_of_pos_right hlt' hten

/-- The exponent of the decimal is that of the last of the first nineteen digits. -/
theorem partsDecimal_exp (p : NumberParts) : (partsDecimal 0 p).exp + expVal p.exp =
    p.lastExp + (p.significant.length - 19 : Nat) := by
  rw [NumberParts.lastExp, partsDecimal]
  rcases Nat.lt_or_ge 19 p.significant.length with hlong | hshort
  · rw [if_neg (Nat.not_le.mpr hlong)]
    dsimp only
    omega
  · rw [if_pos hshort]
    dsimp only
    omega

theorem value_small (hs : SignificantDigits p)
    (hexp : (partsDecimal 0 p).exp + expVal p.exp < -324 - 19) : Nearest p.value 0 := by
  refine nearest_zero ?_
  rw [partsDecimal_exp] at hexp
  by_cases hne : p.significant = []
  · rw [value_eq, hne, show digitsVal [] = 0 from rfl, Nat.cast_zero, zero_mul]
    positivity
  · have hpow : (10 : ℚ) ^ (p.significant.length + p.lastExp) ≤ 10 ^ (-(325 : Nat) : Int) :=
      zpow_le_zpow_right₀ (by norm_num) (by omega)
    have hconst : (1 : ℚ) * 10 ^ (-(325 : Nat) : Int) < 1 * 2 ^ (-(1075 : Nat) : Int) := by
      exact mul_ten_zpow_lt (by exact_mod_cast power_bounds.2.2.1)
    rw [one_mul, one_mul] at hconst
    exact ((value_order hs hne).2.trans_le hpow).le.trans hconst.le

/-- The highest middle. -/
theorem halfway_inf : halfway (infRaw - 1) ≤ 10 ^ (309 : Int) := by
  have hlast : lastPlace (infRaw - 1) = 971 := by decide
  have hsig : significand (infRaw - 1) < 2 ^ 53 := (onGrid_significand _).2
  have hnat : (2 * significand (infRaw - 1) + 1) * 2 ^ 970 ≤ 10 ^ 309 :=
    (Nat.mul_le_mul_right _ (show _ ≤ 2 ^ 54 by omega)).trans power_bounds.2.2.2.1
  rw [halfway, hlast, show (971 - 1 : Int) = (970 : Nat) from rfl,
    show (309 : Int) = (309 : Nat) from rfl, zpow_natCast, zpow_natCast]
  calc ((2 * significand (infRaw - 1) + 1 : Nat) : ℚ) * 2 ^ 970 =
        ((2 * significand (infRaw - 1) + 1) * 2 ^ 970 : Nat) := by
        rw [Nat.cast_mul, Nat.cast_pow, Nat.cast_ofNat]
    _ ≤ (10 ^ 309 : Nat) := Nat.cast_le.mpr hnat
    _ = 10 ^ 309 := by rw [Nat.cast_pow, Nat.cast_ofNat]

theorem value_large (hs : SignificantDigits p) (hne : p.significant ≠ [])
    (hexp : 308 < (partsDecimal 0 p).exp + expVal p.exp) : Nearest p.value infRaw := by
  rw [partsDecimal_exp] at hexp
  have hpos := List.length_pos_of_ne_nil hne
  have hpow : (10 : ℚ) ^ (309 : Int) ≤ 10 ^ (p.significant.length - 1 + p.lastExp) :=
    zpow_le_zpow_right₀ (by norm_num) (by omega)
  exact nearest_inf (halfway_inf.trans (hpow.trans (value_order hs hne).1))

/-! ## Integers -/

/-- The double for an integer between 2 ^ 63 and 2 ^ 64. -/
theorem roundQuot_nearest {v : Nat} (hlow : 2 ^ 63 ≤ v) (hhigh : v < 2 ^ 64) :
    Nearest v (roundQuot v 1) := by
  have hlog : Nat.log2 v = 63 := (Nat.log2_eq_iff (by omega)).mpr ⟨hlow, hhigh⟩
  have hplace : max (leadingBit v 1 - 52) (-1074) = 11 := by
    unfold leadingBit
    rw [hlog, show Nat.log2 1 = 0 by decide]
    dsimp only
    rw [show (-(((63 : Nat) : Int) - ((0 : Nat) : Int))).toNat = 0 from rfl,
      show (((63 : Nat) : Int) - ((0 : Nat) : Int)).toNat = 63 from rfl, Nat.pow_zero, Nat.mul_one,
      Nat.one_mul, if_neg (by omega)]
    rfl
  have hraw : roundQuot v 1 = min (rawOf (roundHalfEven v (2 ^ 11)) 11) infRaw := by
    unfold roundQuot
    rw [if_neg (by omega)]
    dsimp only
    rw [hplace, show (-11 : Int).toNat = 0 from rfl, Nat.pow_zero, Nat.mul_one, Nat.one_mul]
    rfl
  obtain ⟨q, hq⟩ : ∃ q, v / 2 ^ 11 = q := ⟨_, rfl⟩
  obtain ⟨r, hr⟩ : ∃ r, v % 2 ^ 11 = r := ⟨_, rfl⟩
  have hv : v = q * 2 ^ 11 + r := by omega
  have hgrid : OnGrid q 11 := ⟨by omega, by decide, .inl (by omega)⟩
  have hqlt : q < 2 ^ 53 := by omega
  have hmid : halfway (rawOf q 11) = (q + 1 / 2) * 2 ^ (11 : Int) := halfway_rawOf hgrid hqlt
  have hfinite : rawOf q 11 < infRaw := by
    unfold rawOf infRaw
    omega
  have hrlt : r < 2 ^ 11 := by omega
  have hvalue : (v : ℚ) = q * 2 ^ (11 : Int) + r := by
    rw [hv]
    push_cast
    norm_num
  have hbelow : value (rawOf q 11) ≤ v := by
    rw [value_rawOf hgrid, hvalue]
    exact le_add_of_nonneg_right (Nat.cast_nonneg r)
  have habove : (v : ℚ) < value (rawOf q 11 + 1) := by
    have hnext : OnGrid (q + 1) 11 := ⟨hqlt, by decide, .inl (by omega)⟩
    have hrq : (r : ℚ) < 2 ^ 11 := by exact_mod_cast hrlt
    rw [rawOf_succ, value_rawOf hnext, hvalue]
    push_cast
    linarith
  have hless : 2 * r < 2 ^ 11 ↔ (v : ℚ) < halfway (rawOf q 11) := by
    rw [hmid, hvalue, ← Nat.cast_lt (α := ℚ)]
    push_cast
    norm_num
    constructor <;> intro h <;> linarith
  have hmore : 2 ^ 11 < 2 * r ↔ halfway (rawOf q 11) < (v : ℚ) := by
    rw [hmid, hvalue, ← Nat.cast_lt (α := ℚ)]
    push_cast
    norm_num
    constructor <;> intro h <;> linarith
  have hparity : rawOf q 11 % 2 = q % 2 := by
    unfold rawOf
    omega
  have hround : rawOf (roundHalfEven v (2 ^ 11)) 11 =
      compared (rawOf q 11) (compare (v : ℚ) (halfway (rawOf q 11))) := by
    unfold roundHalfEven
    rw [hq, hr]
    dsimp only
    rcases lt_trichotomy (v : ℚ) (halfway (rawOf q 11)) with hlt | heq | hgt
    · rw [if_pos (hless.mpr hlt), compare_lt_iff_lt.mpr hlt]
      rfl
    · rw [if_neg (fun h => heq.not_lt (hless.mp h)), if_neg (fun h => heq.not_gt (hmore.mp h)),
        compare_eq_iff_eq.mpr heq]
      show _ = rawOf q 11 + rawOf q 11 % 2
      rw [hparity]
      exact (Nat.add_assoc _ _ _).symm
    · rw [if_neg (fun h => hgt.not_gt (hless.mp h)), if_pos (hmore.mpr hgt),
        compare_gt_iff_gt.mpr hgt]
      exact (rawOf_succ q 11).symm
  have hnearest := nearest_compared hfinite hbelow habove
  rw [hraw, hround, Nat.min_eq_left hnearest.le]
  exact hnearest

/-! ## The number of a literal -/

/-- The number a literal denotes: an integer where it is one and fits, and else the nearest double. -/
def RightNumber (p : NumberParts) (num : Num) : Prop :=
  if p.frac = [] ∧ p.exp = none ∧ (if p.neg then digitsVal p.int ≤ 2 ^ 63 else digitsVal p.int < 2 ^ 64)
  then num = .int (if p.neg then -(digitsVal p.int : Int) else digitsVal p.int)
  else ∃ raw, Nearest p.value raw ∧
    num = .float (.ofNat 64 (raw + if p.neg then 2 ^ 63 else 0))

/-- The large integers stay inside of their chunks. -/
def ChunksSuffice (p : NumberParts) : Prop :=
  ∀ d raw, ReachesBig p d raw → AllExact (setOps (.ofUnits p.mantissa) d) [] 0

/-- An exponent of nineteen digits or more is not computed. The result is right where the literal
is as small or as large as that makes believe. -/
def ExponentFits (p : NumberParts) : Prop :=
  ∀ neg ds, p.exp = some (neg, ds) → 19 ≤ (ds.dropWhile (· == 0x30)).length →
    p.significant ≠ [] → if neg then p.value ≤ halfway 0 else halfway (infRaw - 1) ≤ p.value

/-- When a literal is rounded correctly. -/
structure RoundsRight (p : NumberParts) : Prop where
  exponent : ExponentFits p
  middle : ∀ d raw, ReachesBig p d raw → RoundsMiddle p raw

/-- The bits of a literal that is no integer that fits 64 bits, without the sign. -/
def literalRaw (p : NumberParts) : Nat :=
  if p.significant = [] then 0
  else expRaw (.ofUnits p.mantissa) (partsDecimal 0 p) p.exp

/-- Whether the literal is an integer that fits 64 bits. -/
def IsSmallInt (p : NumberParts) : Prop :=
  p.frac = [] ∧ p.exp = none ∧ digitsVal p.int < 2 ^ 64

theorem partsVal_float (h : ¬ IsSmallInt p) : partsVal p = f64Bin p.neg (literalRaw p) := by
  rw [partsVal, partsNum, if_neg (show ¬ (_ ∧ _ ∧ _) from h), literalRaw]
  split <;> rfl

theorem f64Bin_bits {neg : Bool} (h : raw < 2 ^ 63) :
    f64Bin neg raw = .float (.ofNat 64 (raw + if neg then 2 ^ 63 else 0)) := by
  unfold f64Bin
  cases neg with
  | false => simp
  | true =>
      congr 2
      have hor := Nat.two_pow_add_eq_or_of_lt h 1
      rw [Nat.mul_one] at hor
      rw [Nat.shiftLeft_eq, Bool.toNat_true, Nat.one_mul, if_pos rfl, Nat.add_comm, hor]

/-- The ways through the exponent. -/
theorem literalRaw_cases (hint : ¬ IsSmallInt p) :
    p.significant = [] ∧ literalRaw p = 0 ∧ literalDecimal p = none ∨
    p.significant ≠ [] ∧
      ((∃ neg ds, p.exp = some (neg, ds) ∧ 19 ≤ (ds.dropWhile (· == 0x30)).length ∧
        literalRaw p = (if neg then 0 else infRaw) ∧ literalDecimal p = none) ∨
      (∀ neg ds, p.exp = some (neg, ds) → ¬ 19 ≤ (ds.dropWhile (· == 0x30)).length) ∧
        ∃ d, d.exp = (partsDecimal 0 p).exp + expVal p.exp ∧
          literalRaw p = finishRaw (.ofUnits p.mantissa) d ∧ literalDecimal p = finishDecimal d) := by
  unfold literalRaw literalDecimal
  rw [if_neg (show ¬ (_ ∧ _ ∧ _) from hint)]
  by_cases hsig : p.significant = []
  · rw [if_pos hsig, if_pos hsig]
    exact .inl ⟨hsig, rfl, rfl⟩
  · rw [if_neg hsig, if_neg hsig]
    refine .inr ⟨hsig, ?_⟩
    cases hexp : p.exp with
    | none =>
        refine .inr ⟨nofun, partsDecimal 0 p, ?_, rfl, rfl⟩
        rw [expVal, Int.add_zero]
    | some e =>
        obtain ⟨neg, ds⟩ := e
        rw [expRaw]
        dsimp only
        by_cases hlong : 19 ≤ (ds.dropWhile (· == 0x30)).length
        · rw [if_pos hlong, if_pos hlong]
          exact .inl ⟨neg, ds, rfl, hlong, rfl, rfl⟩
        · rw [if_neg hlong, if_neg hlong]
          refine .inr ⟨fun neg' ds' h => ?_, _, ?_, rfl, rfl⟩
          · obtain ⟨rfl, rfl⟩ := Prod.mk.inj (Option.some.inj h)
            exact hlong
          · rw [expVal, digitsVal_dropWhile]
            cases neg <;> rfl

/-- Where the decimal is finished, the middle is all there is to see to. -/
theorem digiFinish_nearest_iff {t : List Nat} (ht : p.IsText t) (h : literalDecimal p = some d) :
    ChunksSuffice p ∧ Nearest p.value (digiFinish (.ofUnits p.mantissa) d) ↔
      ∀ d raw, ReachesBig p d raw → RoundsMiddle p raw := by
  have hs := significantDigits ht
  cases hbig : bigRaw d with
  | some raw =>
      have hreach : ReachesBig p d raw := ⟨h, hbig⟩
      have honly : ∀ d' raw', ReachesBig p d' raw' → d' = d ∧ raw' = raw := by
        intro d' raw' h'
        obtain rfl := Option.some.inj (h.symm.trans h'.decimal)
        exact ⟨rfl, (Option.some.inj (hbig.symm.trans h'.raw)).symm⟩
      rw [digiFinish_big hbig]
      constructor
      · intro hright d' raw' h'
        obtain ⟨rfl, rfl⟩ := honly d' raw' h'
        exact (bigCompare_nearest_iff ht hreach).mp ⟨hright.1 _ _ hreach, hright.2⟩
      · intro hmiddle
        obtain ⟨hexact, hnear⟩ := (bigCompare_nearest_iff ht hreach).mpr (hmiddle _ _ hreach)
        refine ⟨fun d' raw' h' => ?_, hnear⟩
        obtain ⟨rfl, rfl⟩ := honly d' raw' h'
        exact hexact
  | none =>
      have hnone : ∀ d' raw', ¬ ReachesBig p d' raw' := by
        intro d' raw' h'
        obtain rfl := Option.some.inj (h.symm.trans h'.decimal)
        exact Option.some_ne_none _ (h'.raw.symm.trans hbig)
      refine iff_of_true ⟨fun d' raw' h' => absurd h' (hnone d' raw'), ?_⟩
        fun d' raw' h' => absurd h' (hnone d' raw')
      rw [digiFinish_eq]
      unfold bigRaw at hbig
      cases hfast : fastResult d with
      | some raw =>
          unfold fastResult at hfast
          split at hfast
          · rename_i hrange
            obtain ⟨huncut, hlow, hhigh⟩ := hrange
            rcases literalDecimal_cases hs h with ⟨-, hnum⟩ | hcut
            · rw [hnum.value]
              exact fastPath_nearest hnum.pos (hnum.lt.trans (by decide)) hlow hhigh hfast
            · rw [hcut.sigCut] at huncut
              cases huncut
          · cases hfast
      | none =>
          rw [hfast] at hbig
          rcases happrox : diyApproximate d.sig d.exp d.sigCut.isSome with ⟨raw, certain⟩
          rw [happrox] at hbig
          dsimp only at hbig ⊢
          split at hbig
          · rename_i hcertain
            rw [if_pos hcertain]
            exact approximate_nearest hs h happrox hcertain
          · cases hbig

/-- The bits of a literal are the right ones, inside of the chunks, exactly when it
`RoundsRight`. -/
theorem literalRaw_nearest_iff {t : List Nat} (ht : p.IsText t) (hint : ¬ IsSmallInt p) :
    ChunksSuffice p ∧ Nearest p.value (literalRaw p) ↔ RoundsRight p := by
  have hs := significantDigits ht
  have hnone : literalDecimal p = none → ∀ d raw, ¬ ReachesBig p d raw := by
    intro hdecimal d raw h
    exact Option.some_ne_none _ (h.decimal.symm.trans hdecimal)
  have hvacuous : literalDecimal p = none →
      ((ChunksSuffice p ∧ Nearest p.value (literalRaw p) ↔ RoundsRight p) ↔
        (Nearest p.value (literalRaw p) ↔ ExponentFits p)) := by
    intro hdecimal
    have hchunks : ChunksSuffice p := fun d raw h => absurd h (hnone hdecimal d raw)
    have hright : RoundsRight p ↔ ExponentFits p :=
      ⟨fun h => h.exponent, fun h => ⟨h, fun d raw h => absurd h (hnone hdecimal d raw)⟩⟩
    rw [and_iff_right hchunks, hright]
  rcases literalRaw_cases hint with ⟨hsig, hraw, hdecimal⟩ |
    ⟨hsig, ⟨neg, ds, hexp, hlong, hraw, hdecimal⟩ | ⟨hshort, d, hd, hraw, hdecimal⟩⟩
  · -- All digits are zeros.
    rw [hvacuous hdecimal, hraw]
    refine iff_of_true (nearest_zero ?_) fun _ _ _ _ hne => absurd hsig hne
    rw [value_eq, hsig, show digitsVal [] = 0 from rfl, Nat.cast_zero, zero_mul]
    positivity
  · rw [hvacuous hdecimal, hraw]
    have hfits : ExponentFits p ↔ if neg then p.value ≤ halfway 0 else halfway (infRaw - 1) ≤ p.value := by
      refine ⟨fun h => h neg ds hexp hlong hsig, fun h neg' ds' hexp' _ _ => ?_⟩
      obtain ⟨rfl, rfl⟩ := Prod.mk.inj (Option.some.inj (hexp.symm.trans hexp'))
      exact h
    rw [hfits]
    cases neg with
    | false =>
        exact ⟨fun h => (@Nearest.halfway_le _ (infRaw - 1) h).1, nearest_inf⟩
    | true =>
        exact ⟨fun h => (h.le_halfway (by decide)).1, fun h => nearest_zero (halfway_zero ▸ h)⟩
  · have hfits : ExponentFits p := fun neg ds hexp hlong => absurd hlong (hshort neg ds hexp)
    rw [hraw]
    have hright : RoundsRight p ↔ ∀ d raw, ReachesBig p d raw → RoundsMiddle p raw :=
      ⟨fun h => h.middle, fun h => ⟨hfits, h⟩⟩
    rw [hright]
    by_cases hsmall : d.exp < -324 - 19
    · have hdecimal' : literalDecimal p = none := by rw [hdecimal, finishDecimal, if_pos hsmall]
      rw [finishRaw, if_pos hsmall]
      exact iff_of_true ⟨fun d raw h => absurd h (hnone hdecimal' d raw), value_small hs (hd ▸ hsmall)⟩
        fun d raw h => absurd h (hnone hdecimal' d raw)
    · by_cases hlarge : 308 < d.exp
      · have hdecimal' : literalDecimal p = none := by
          rw [hdecimal, finishDecimal, if_neg hsmall, if_pos hlarge]
        rw [finishRaw, if_neg hsmall, if_pos hlarge]
        exact iff_of_true
          ⟨fun d raw h => absurd h (hnone hdecimal' d raw), value_large hs hsig (hd ▸ hlarge)⟩
          fun d raw h => absurd h (hnone hdecimal' d raw)
      · rw [finishDecimal, if_neg hsmall, if_neg hlarge] at hdecimal
        rw [finishRaw, if_neg hsmall, if_neg hlarge]
        exact digiFinish_nearest_iff ht hdecimal

/-- Bits have at most 63 places without the sign. -/
theorem literalRaw_lt {t : List Nat} (ht : p.IsText t) (hint : ¬ IsSmallInt p) :
    literalRaw p < 2 ^ 63 := by
  have hs := significantDigits ht
  have hinf : infRaw < 2 ^ 63 := by decide
  rcases literalRaw_cases hint with ⟨-, hraw, -⟩ |
    ⟨-, ⟨neg, ds, -, -, hraw, -⟩ | ⟨-, d, -, hraw, hdecimal⟩⟩
  · omega
  · rw [hraw]
    split <;> omega
  · rw [hraw]
    unfold finishRaw
    unfold finishDecimal at hdecimal
    split
    · decide
    · rename_i hsmall
      rw [if_neg hsmall] at hdecimal
      split
      · exact hinf
      · rename_i hlarge
        rw [if_neg hlarge] at hdecimal
        cases hbig : bigRaw d with
        | some raw =>
            have hraw := (bigRaw_some hs hdecimal hbig).1
            rw [digiFinish_big hbig, bigCompare_ops]
            generalize Bigint.cmp _ _ = c
            cases c <;> unfold compared <;> dsimp only <;> omega
        | none =>
            have hno : ∀ d' raw', ReachesBig p d' raw' → RoundsMiddle p raw' := by
              intro d' raw' h'
              obtain rfl := Option.some.inj (hdecimal.symm.trans h'.decimal)
              exact absurd (h'.raw.symm.trans hbig) (Option.some_ne_none _)
            exact ((digiFinish_nearest_iff ht hdecimal).mpr hno).2.le.trans_lt hinf

/-- The number of a literal is the right one, and the large integers that it takes stay inside of
their chunks, exactly when it `RoundsRight`. -/
theorem partsVal_right_iff {t : List Nat} (ht : p.IsText t) :
    RightNumber p (partsVal p) ∧ ChunksSuffice p ↔ RoundsRight p := by
  by_cases hint : IsSmallInt p
  · obtain ⟨hfrac, hexp, hlt⟩ := hint
    have hdecimal : literalDecimal p = none := by
      unfold literalDecimal
      rw [if_pos ⟨hfrac, hexp, hlt⟩]
    have hnone : ∀ d raw, ¬ ReachesBig p d raw := fun d raw h =>
      Option.some_ne_none _ (h.decimal.symm.trans hdecimal)
    refine iff_of_true ⟨?_, fun d raw h => absurd h (hnone d raw)⟩
      ⟨fun neg ds h => absurd (hexp.symm.trans h) nofun, fun d raw h => absurd h (hnone d raw)⟩
    rw [partsVal, partsNum, if_pos ⟨hfrac, hexp, hlt⟩, intNum]
    unfold RightNumber
    by_cases hneg : p.neg = true
    · simp only [hneg, hfrac, hexp, true_and, if_true]
      split
      · rfl
      · rename_i hbeyond
        have hvalue : p.value = (digitsVal p.int : ℚ) := by
          rw [NumberParts.value, NumberParts.lastExp, hfrac, hexp, List.append_nil]
          simp [expVal]
        have hnear := roundQuot_nearest (show 2 ^ 63 ≤ digitsVal p.int by omega) hlt
        have hinf : infRaw < 2 ^ 63 := by decide
        refine ⟨_, hvalue ▸ hnear, ?_⟩
        rw [u64AsF64, f64Bin_bits (hnear.le.trans_lt hinf), if_pos rfl]
    · simp only [hneg, hfrac, hexp, true_and, if_false, Bool.false_eq_true, hlt, if_true]
  · rw [partsVal_float hint, f64Bin_bits (literalRaw_lt ht hint), ← literalRaw_nearest_iff ht hint,
      and_comm]
    refine and_congr_right fun _ => ?_
    have hint' : ¬ (p.frac = [] ∧ p.exp = none ∧
        (if p.neg then digitsVal p.int ≤ 2 ^ 63 else digitsVal p.int < 2 ^ 64)) := by
      rintro ⟨hfrac, hexp, hrange⟩
      refine hint ⟨hfrac, hexp, ?_⟩
      split at hrange <;> omega
    unfold RightNumber
    rw [if_neg hint']
    constructor
    · rintro ⟨raw, hnear, hbits⟩
      have hinf : infRaw < 2 ^ 63 := by decide
      have hlt := literalRaw_lt ht hint
      have hraw := hnear.le
      have heq := congrArg BitVec.toNat (Num.float.inj hbits)
      rw [BitVec.toNat_ofNat, BitVec.toNat_ofNat] at heq
      have hsame : literalRaw p = raw := by
        split at heq <;> omega
      rw [hsame]
      exact hnear
    · exact fun h => ⟨_, h, rfl⟩

/-! ## The number reader -/

/-- The reader takes a literal off the text and gives the number of it. -/
theorem loadsNumber_literal {src : Source} {cur : Nat} {t r : List Nat} (hunits : src.Units32)
    (hle : cur ≤ src.len) (ht : p.IsText t) (hrest : src.rest cur = t ++ r) (hends : NumberEnds r) :
    loadsNumber src cur = (some (partsVal p), src.len - r.length) := by
  have hlex := lexNumber_complete ht hends
  rw [← hrest] at hlex
  obtain ⟨-, -, r', hmantissa⟩ := lexNumber_end hle hlex
  rw [loadsNumber_eq hunits hle, hlex]
  dsimp only
  rw [partsNum_eq hmantissa]

/-- The reader gives a literal its integer or the double nearest to it, and keeps the large integers
inside of their chunks, exactly when the literal `RoundsRight`. -/
theorem numbers_correctly_rounded {src : Source} {cur : Nat} {t r : List Nat}
    (hunits : src.Units32) (hle : cur ≤ src.len) (ht : p.IsText t) (hrest : src.rest cur = t ++ r)
    (hends : NumberEnds r) :
    ∃ num, loadsNumber src cur = (some num, src.len - r.length) ∧
      (RightNumber p num ∧ ChunksSuffice p ↔ RoundsRight p) :=
  ⟨partsVal p, loadsNumber_literal hunits hle ht hrest hends, partsVal_right_iff ht⟩

theorem numbers_correctly_rounded_halfway :
    ∃ num, loadsNumber (.ofUnits halfwayParts.mantissa) 0 = (some num, 18) ∧
      (RightNumber halfwayParts num ∧ ChunksSuffice halfwayParts ↔ RoundsRight halfwayParts) :=
  numbers_correctly_rounded
    (show Source.Units32 (.ofUnits halfwayParts.mantissa) from
      show ∀ u ∈ halfwayParts.mantissa, u < 2 ^ 32 by decide) (by decide) halfwayParts_isText
    (show _ = _ ++ [] from rfl) (by nofun)

/-- The literal of 2 ^ 70 + 2 ^ 17 with 750 zeros behind the dot lies halfway between two doubles and
is not rounded to the even one. -/
theorem halfway_misrounded : ∃ num,
    (loadsNumber (.ofUnits zerosParts.mantissa) 0).1 = some num ∧ ¬ RightNumber zerosParts num := by
  have hunits : (Source.ofUnits zerosParts.mantissa).Units32 :=
    show ∀ u ∈ zerosParts.mantissa, u < 2 ^ 32 by decide +kernel
  have hread := loadsNumber_literal hunits (Nat.zero_le _) zerosParts_isText
    (show (Source.ofUnits zerosParts.mantissa).rest 0 = zerosParts.mantissa ++ [] from
      (List.append_nil _).symm) (by nofun)
  refine ⟨partsVal zerosParts, congrArg Prod.fst hread, fun hnumber => ?_⟩
  have hreach : ReachesBig zerosParts ⟨1180591620717411434, 3, some 19, 773, 22⟩
      0x4450000000000000 := ⟨by decide +kernel, by decide +kernel⟩
  have hchunks : ChunksSuffice zerosParts := fun d raw h =>
    (setOps_literal zerosParts_isText h.decimal (.inr (by decide +kernel))).1
  have hright := (partsVal_right_iff zerosParts_isText).mp ⟨hnumber, hchunks⟩
  have hvalue : zerosParts.value = halfway 0x4450000000000000 := by
    have hdigits : digitsVal (zerosParts.int ++ zerosParts.frac) =
        1180591620717411434496 * 10 ^ 750 := by decide +kernel
    have hexp : zerosParts.lastExp = -(750 : Nat) := by decide +kernel
    have hsig : 2 * significand 0x4450000000000000 + 1 = 2 ^ 53 + 1 := by decide +kernel
    have hlast : lastPlace 0x4450000000000000 - 1 = 17 := by decide +kernel
    rw [NumberParts.value, hdigits, hexp, halfway, hsig, hlast, zpow_neg, zpow_natCast,
      Nat.cast_mul, Nat.cast_pow, Nat.cast_ofNat, Nat.cast_ofNat,
      mul_inv_cancel_right₀ (show (10 : ℚ) ^ 750 ≠ 0 by positivity)]
    norm_num
  rcases hright.middle _ _ hreach with hzeros | hfew | ⟨-, hodd, -⟩
  · exact absurd hzeros (by decide +kernel)
  · exact absurd hfew (by decide +kernel)
  · exact absurd (hodd hvalue) (by decide)

end SsrJson.Decode
