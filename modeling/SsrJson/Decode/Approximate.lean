import Mathlib.Tactic.FieldSimp
import SsrJson.Decode.DoubleBits
import SsrJson.Decode.Pow10Bounds
import SsrJson.Library.Rounding

/-!
# The approximation of the slow path

The slow path multiplies the significand by a power of ten of 64 bits and keeps account of the
error in eighths of the last place. `scaled_approximates` is that account, and
`diyApproximate_spec` what it makes of the bits that come out: where the reader is certain the
number lies on the side of the middle that it rounds to, and elsewhere it lies between the double
and the next one.
-/

namespace SsrJson.Decode

open Binary64

/-! ## The error of the product -/

/-- A number is less than so many eighths of the last place away. -/
structure Approximates (fp : DiyFp) (err : Nat) (v : ℚ) : Prop where
  low : (fp.sig - err / 8) * 2 ^ fp.exp < v
  high : v < (fp.sig + err / 8) * 2 ^ fp.exp

theorem normalize_eq {fp : DiyFp} (hpos : 0 < fp.sig) (hlt : fp.sig < 2 ^ 64) :
    fp.normalize = ⟨fp.sig * 2 ^ u64LzBits fp.sig, fp.exp - u64LzBits fp.sig⟩ := by
  rw [DiyFp.normalize, (shl64_lzBits hpos hlt).2.1]

/-- Shifting zeros in changes the last place, and the error with it. -/
theorem Approximates.normalize {fp : DiyFp} {err : Nat} {v : ℚ} (h : Approximates fp err v)
    (hpos : 0 < fp.sig) (hlt : fp.sig < 2 ^ 64) :
    Approximates fp.normalize (err * 2 ^ u64LzBits fp.sig) v := by
  have hscale : ∀ x : ℚ, x * 2 ^ u64LzBits fp.sig * 2 ^ (fp.exp - u64LzBits fp.sig : Int) =
      x * 2 ^ fp.exp := by
    intro x
    rw [mul_assoc, ← zpow_natCast, ← zpow_add₀ (by norm_num)]
    congr 2
    omega
  rw [normalize_eq hpos hlt]
  constructor
  · have hlow := h.low
    rw [← hscale] at hlow
    push_cast
    calc _ = (fp.sig - err / 8 : ℚ) * 2 ^ u64LzBits fp.sig *
          2 ^ (fp.exp - u64LzBits fp.sig : Int) := by ring
      _ < v := hlow
  · have hhigh := h.high
    rw [← hscale] at hhigh
    push_cast
    calc v < (fp.sig + err / 8 : ℚ) * 2 ^ u64LzBits fp.sig *
          2 ^ (fp.exp - u64LzBits fp.sig : Int) := hhigh
      _ = _ := by ring

/-- The power of ten with 64 bits is half a last place away at most. -/
theorem cachedPow10_spec {e : Int} (h : Pow10Entry e) :
    ∃ t : ℚ, (10 ^ e : ℚ) = t * 2 ^ pow10TableGetExp e ∧ 0 < t ∧ t < 2 ^ 64 ∧
      |t - (diyFpGetCachedPow10 e).sig| ≤ 1 / 2 ∧
      2 ^ 63 ≤ (diyFpGetCachedPow10 e).sig ∧ (diyFpGetCachedPow10 e).sig < 2 ^ 64 := by
  obtain ⟨hle, hlt⟩ := h.bounds
  obtain ⟨hhigh, hext, hround, -⟩ := h
  have hcached : (diyFpGetCachedPow10 e).sig =
      (pow10TableGetSig e).1 + (pow10TableGetSig e).2 / 2 ^ 63 := by
    show ((pow10TableGetSig e).1 + (pow10TableGetSig e).2 >>> 63) % 2 ^ 64 = _
    rw [Nat.shiftRight_eq_div_pow, Nat.mod_eq_of_lt hround]
  have hplace : (2 : ℚ) ^ pow10Place e = 2 ^ pow10TableGetExp e / 2 ^ 64 := by
    rw [pow10Place, zpow_sub₀ (by norm_num)]
    norm_num
  have hpow : (0 : ℚ) < 2 ^ pow10TableGetExp e := by positivity
  rw [hplace, mul_div_left_comm] at hle hlt
  rw [hcached]
  unfold pow10Sig at hle hlt
  generalize (pow10TableGetSig e).1 = sig at *
  generalize (pow10TableGetSig e).2 = ext at *
  -- The highest bit of the lower half tells which way is nearer.
  obtain ⟨t, ht⟩ : ∃ t : ℚ, (10 ^ e : ℚ) = t * 2 ^ pow10TableGetExp e :=
    ⟨10 ^ e / 2 ^ pow10TableGetExp e, (div_mul_cancel₀ _ hpow.ne').symm⟩
  rw [ht] at hle hlt
  have hle' := le_of_mul_le_mul_right ((mul_comm _ _).trans_le hle) hpow
  have hlt' := lt_of_mul_lt_mul_right (hlt.trans_eq (mul_comm _ _)) hpow.le
  push_cast at hle' hlt'
  have hcast : ∀ {a b : Nat}, a ≤ b → (a : ℚ) ≤ b := fun h => by exact_mod_cast h
  have hsig : (2 ^ 63 : ℚ) ≤ sig := by exact_mod_cast hhigh
  have hextnonneg : (0 : ℚ) ≤ ext := Nat.cast_nonneg ext
  rcases Nat.lt_or_ge ext (2 ^ 63) with hsmall | hlarge
  · have hdiv : ext / 2 ^ 63 = 0 := Nat.div_eq_of_lt hsmall
    rw [hdiv, Nat.add_zero] at hround ⊢
    have hsmall' : (ext : ℚ) + 1 ≤ 2 ^ 63 := by exact_mod_cast hsmall
    have hround' : (sig : ℚ) + 1 ≤ 2 ^ 64 := by exact_mod_cast hround
    refine ⟨t, ht, ?_, ?_, ?_, hhigh, hround⟩
    · linarith
    · linarith
    · rw [abs_le]
      constructor <;> linarith
  · have hdiv : ext / 2 ^ 63 = 1 := by omega
    rw [hdiv] at hround ⊢
    have hlarge' : (2 ^ 63 : ℚ) ≤ ext := by exact_mod_cast hlarge
    have hext' : (ext : ℚ) + 1 ≤ 2 ^ 64 := by exact_mod_cast hext
    have hround' : (sig : ℚ) + 1 + 1 ≤ 2 ^ 64 := by exact_mod_cast hround
    refine ⟨t, ht, ?_, ?_, ?_, by omega, hround⟩
    · linarith
    · linarith
    · push_cast
      rw [abs_le]
      constructor <;> linarith

/-- The leading bit of the lower half tells which way is nearer. -/
theorem round_half (q : Nat) {m : Nat} (hm : m < 2 ^ 64) : ∃ r, q + m / 2 ^ 63 = r ∧
    r * 2 ^ 64 ≤ 2 ^ 64 * q + m + 2 ^ 63 ∧ 2 ^ 64 * q + m ≤ r * 2 ^ 64 + 2 ^ 63 := by
  rcases Nat.lt_or_ge m (2 ^ 63) with hsmall | hlarge
  · exact ⟨q, by rw [Nat.div_eq_of_lt hsmall, Nat.add_zero], by omega, by omega⟩
  · exact ⟨q + 1, by rw [show m / 2 ^ 63 = 1 by omega], by omega, by omega⟩

/-- The product of two significands is rounded to the nearest number of 64 bits. -/
theorem diyFpMul_spec {a b : DiyFp} (ha : 2 ^ 63 ≤ a.sig) (ha' : a.sig < 2 ^ 64)
    (hb : 2 ^ 63 ≤ b.sig) (hb' : b.sig < 2 ^ 64) :
    2 ^ 62 ≤ (diyFpMul a b).sig ∧ (diyFpMul a b).sig < 2 ^ 64 ∧
      |(a.sig * b.sig / 2 ^ 64 : ℚ) - (diyFpMul a b).sig| ≤ 1 / 2 := by
  have hproduct : a.sig * b.sig ≤ (2 ^ 64 - 1) * (2 ^ 64 - 1) :=
    Nat.mul_le_mul (by omega) (by omega)
  have hlarge : 2 ^ 63 * 2 ^ 63 ≤ a.sig * b.sig := Nat.mul_le_mul ha hb
  have hcast : (a.sig * b.sig : ℚ) = (a.sig * b.sig : Nat) := by push_cast; rfl
  have hmul : (diyFpMul a b).sig =
      (a.sig * b.sig / 2 ^ 64 + (a.sig * b.sig % 2 ^ 64) / 2 ^ 63) % 2 ^ 64 := by
    rw [← Nat.shiftRight_eq_div_pow (_ % _)]
    rfl
  rw [hmul, hcast]
  generalize a.sig * b.sig = product at hproduct hlarge
  have hdiv := Nat.div_add_mod product (2 ^ 64)
  have hmod := Nat.mod_lt product (Nat.two_pow_pos 64)
  generalize product / 2 ^ 64 = q at hdiv ⊢
  generalize product % 2 ^ 64 = m at hdiv hmod ⊢
  obtain ⟨r, hr, hlow, hhigh⟩ := round_half q hmod
  rw [hdiv] at hlow hhigh
  have hsum : r < 2 ^ 64 := by omega
  rw [hr, Nat.mod_eq_of_lt hsum]
  refine ⟨by omega, hsum, ?_⟩
  have hlow' : (r : ℚ) * 2 ^ 64 ≤ product + 2 ^ 63 := by exact_mod_cast hlow
  have hhigh' : (product : ℚ) ≤ r * 2 ^ 64 + 2 ^ 63 := by exact_mod_cast hhigh
  rw [abs_le]
  constructor
  · rw [neg_le_sub_iff_le_add, ← sub_le_iff_le_add, le_div_iff₀ (by norm_num)]
    linarith
  · rw [sub_le_iff_le_add, div_le_iff₀ (by norm_num)]
    linarith

/-! ## The account of the error -/

section Scaled

variable {sig : Nat} {exp : Int} {cut : Bool}

/-- The product of the significand and the power of ten, before its zeros are shifted out. -/
def product (sig : Nat) (exp : Int) : DiyFp :=
  diyFpMul (DiyFp.mk sig 0).normalize (diyFpGetCachedPow10 exp)

/-- The error of the significand in eighths: a half is lost with the digits that were cut off. -/
def cutErr (sig : Nat) (cut : Bool) : Nat := shl64 (if cut then 4 else 0) (u64LzBits sig)

/-- The error of the product. -/
def productErr (sig : Nat) (cut : Bool) : Nat :=
  (cutErr sig cut + 4 + (if cutErr sig cut ≠ 0 then 1 else 0) + 4) % 2 ^ 64

/-- What is known of the significand: digits are cut off only from one that is large. -/
structure SigRange (sig : Nat) (cut : Bool) : Prop where
  pos : 0 < sig
  lt : sig < 2 ^ 64
  large : cut = true → 2 ^ 59 ≤ sig

theorem cutErr_eq (h : SigRange sig cut) :
    cutErr sig cut = (if cut then 4 else 0) * 2 ^ u64LzBits sig ∧ cutErr sig cut ≤ 64 := by
  unfold cutErr
  cases cut with
  | false => simp [shl64]
  | true =>
      have hlz : u64LzBits sig ≤ 4 := by
        have hlog := (Nat.le_log2 h.pos.ne').mpr (h.large rfl)
        unfold u64LzBits
        omega
      have hpow := Nat.pow_le_pow_right (show 0 < 2 by decide) hlz
      rw [if_pos rfl, shl64, Nat.shiftLeft_eq, Nat.mod_eq_of_lt (by omega)]
      exact ⟨rfl, by omega⟩

theorem productErr_le (h : SigRange sig cut) :
    cutErr sig cut + 8 ≤ productErr sig cut ∧ productErr sig cut ≤ 73 := by
  have hcut := (cutErr_eq h).2
  unfold productErr
  split <;> omega

theorem product_range (h : SigRange sig cut) (hpow : Pow10Entry exp) :
    2 ^ 62 ≤ (product sig exp).sig ∧ (product sig exp).sig < 2 ^ 64 := by
  obtain ⟨-, -, hlow, hhigh⟩ := shl64_lzBits h.pos h.lt
  obtain ⟨-, -, -, -, -, hcached, hcached'⟩ := cachedPow10_spec hpow
  rw [product, normalize_eq h.pos h.lt]
  obtain ⟨hp, hp', -⟩ := @diyFpMul_spec
    ⟨sig * 2 ^ u64LzBits sig, 0 - u64LzBits sig⟩ (diyFpGetCachedPow10 exp) hlow hhigh hcached hcached'
  exact ⟨hp, hp'⟩

/-- The product is as close as the account says. -/
theorem product_approximates (h : SigRange sig cut) (hpow : Pow10Entry exp) {x : ℚ}
    (hx : |x - sig| ≤ if cut then 1 / 2 else 0) :
    Approximates (product sig exp) (productErr sig cut) (x * 10 ^ exp) := by
  obtain ⟨-, -, hlow, hhigh⟩ := shl64_lzBits h.pos h.lt
  obtain ⟨t, ht, htpos, htlt, hct, hcached, hcached'⟩ := cachedPow10_spec hpow
  obtain ⟨-, -, hround⟩ := @diyFpMul_spec
    ⟨sig * 2 ^ u64LzBits sig, 0 - u64LzBits sig⟩ (diyFpGetCachedPow10 exp) hlow hhigh hcached hcached'
  have hproduct : product sig exp = diyFpMul ⟨sig * 2 ^ u64LzBits sig, 0 - u64LzBits sig⟩
      (diyFpGetCachedPow10 exp) := by
    rw [product, normalize_eq h.pos h.lt]
  have hexp : (product sig exp).exp = pow10TableGetExp exp - u64LzBits sig + 64 := by
    rw [hproduct]
    show (0 - u64LzBits sig : Int) + pow10TableGetExp exp + 64 = _
    omega
  rw [← hproduct] at hround
  have herr := (cutErr_eq h).1
  have hle := (productErr_le h).1
  generalize product sig exp = fp at hround hexp
  generalize (diyFpGetCachedPow10 exp).sig = c at hct hround
  generalize u64LzBits sig = lz at *
  dsimp only at hround
  push_cast at hround
  -- The exact product, in last places of the one that was computed.
  have hvalue : x * 10 ^ exp = x * 2 ^ lz * t / 2 ^ 64 * 2 ^ fp.exp := by
    rw [ht, hexp, zpow_add₀ (by norm_num), zpow_sub₀ (by norm_num), zpow_natCast]
    field_simp
  have hlz : (0 : ℚ) < 2 ^ lz := by positivity
  have hsig : (sig * 2 ^ lz : ℚ) < 2 ^ 64 := by exact_mod_cast hhigh
  have hsigpos : (0 : ℚ) < sig * 2 ^ lz := by
    have hpos : (0 : ℚ) < sig := by exact_mod_cast h.pos
    positivity
  have hfirst : |x * 2 ^ lz * t - sig * 2 ^ lz * t| ≤ cutErr sig cut / 8 * 2 ^ 64 := by
    have hsplit : x * 2 ^ lz * t - sig * 2 ^ lz * t = (x - sig) * (2 ^ lz * t) := by ring
    rw [hsplit, abs_mul, abs_of_pos (mul_pos hlz htpos), herr]
    have hbound : (if cut then 1 / 2 else 0 : ℚ) = (((if cut then 4 else 0 : Nat)) : ℚ) / 8 := by
      cases cut <;> norm_num
    rw [hbound] at hx
    push_cast
    calc |x - sig| * (2 ^ lz * t) ≤ ((if cut then 4 else 0 : Nat) : ℚ) / 8 * (2 ^ lz * 2 ^ 64) := by
          refine mul_le_mul hx ?_ (by positivity) (by positivity)
          exact mul_le_mul_of_nonneg_left htlt.le hlz.le
      _ = _ := by
          push_cast
          ring
  have hsecond : |sig * 2 ^ lz * t - sig * 2 ^ lz * c| < 1 / 2 * 2 ^ 64 := by
    rw [← mul_sub, abs_mul, abs_of_pos hsigpos]
    calc sig * 2 ^ lz * |t - c| ≤ sig * 2 ^ lz * (1 / 2) :=
          mul_le_mul_of_nonneg_left hct hsigpos.le
      _ < 1 / 2 * 2 ^ 64 := by linarith
  have hle' : (cutErr sig cut : ℚ) + 8 ≤ productErr sig cut := by exact_mod_cast hle
  rw [abs_le] at hfirst hround
  rw [abs_lt] at hsecond
  have hfp : (0 : ℚ) < 2 ^ fp.exp := by positivity
  rw [hvalue]
  constructor
  · refine mul_lt_mul_of_pos_right ?_ hfp
    rw [lt_div_iff₀ (by norm_num)]
    linarith
  · refine mul_lt_mul_of_pos_right ?_ hfp
    rw [div_lt_iff₀ (by norm_num)]
    linarith

/-- The product with its zeros shifted out. -/
def scaled (sig : Nat) (exp : Int) : DiyFp := (product sig exp).normalize

/-- The error of it. -/
def scaledErr (sig : Nat) (exp : Int) (cut : Bool) : Nat :=
  shl64 (productErr sig cut) (u64LzBits (product sig exp).sig)

theorem scaledErr_eq (h : SigRange sig cut) (hpow : Pow10Entry exp) :
    u64LzBits (product sig exp).sig ≤ 1 ∧ scaledErr sig exp cut =
      productErr sig cut * 2 ^ u64LzBits (product sig exp).sig := by
  obtain ⟨hlow, hhigh⟩ := product_range h hpow
  have hlz : u64LzBits (product sig exp).sig ≤ 1 := by
    have hlog := (Nat.le_log2 (show (product sig exp).sig ≠ 0 by omega)).mpr hlow
    unfold u64LzBits
    omega
  have hpow := Nat.pow_le_pow_right (show 0 < 2 by decide) hlz
  have hmul := Nat.mul_le_mul (productErr_le h).2 hpow
  refine ⟨hlz, ?_⟩
  rw [scaledErr, shl64, Nat.shiftLeft_eq, Nat.mod_eq_of_lt (by omega)]

theorem scaled_range (h : SigRange sig cut) (hpow : Pow10Entry exp) :
    2 ^ 63 ≤ (scaled sig exp).sig ∧ (scaled sig exp).sig < 2 ^ 64 ∧
      8 ≤ scaledErr sig exp cut ∧ scaledErr sig exp cut ≤ 146 := by
  obtain ⟨hlow, hhigh⟩ := product_range h hpow
  obtain ⟨-, -, hle, hlt⟩ := shl64_lzBits (show 0 < (product sig exp).sig by omega) hhigh
  obtain ⟨hlz, hshift⟩ := scaledErr_eq h hpow
  have herr := productErr_le h
  rw [scaled, normalize_eq (by omega) hhigh, hshift]
  refine ⟨hle, hlt, ?_⟩
  rcases Nat.le_one_iff_eq_zero_or_eq_one.mp hlz with hzero | hone
  · rw [hzero]
    omega
  · rw [hone]
    omega

theorem scaled_approximates (h : SigRange sig cut) (hpow : Pow10Entry exp) {x : ℚ}
    (hx : |x - sig| ≤ if cut then 1 / 2 else 0) :
    Approximates (scaled sig exp) (scaledErr sig exp cut) (x * 10 ^ exp) := by
  obtain ⟨hlow, hhigh⟩ := product_range h hpow
  rw [(scaledErr_eq h hpow).2]
  exact (product_approximates h hpow hx).normalize (by omega) hhigh

end Scaled

/-! ## Rounding the product -/

/-- The rounding of the slow path, with `digits` bits too many. -/
def roundDigits (fp : DiyFp) (err digits : Nat) : Nat × Bool :=
  let precision := (fp.sig &&& (2 ^ digits - 1)) * 8 % 2 ^ 64
  let half := shl64 1 (digits - 1) * 8 % 2 ^ 64
  let up := (half + err) % 2 ^ 64 ≤ precision
  (diyFpToIeeeRaw ⟨(fp.sig >>> digits + if up then 1 else 0) % 2 ^ 64, fp.exp + digits⟩,
    precision ≤ sub64 half err ∨ up)

/-- The bits that come out, for a number near `M` at some place, and whether they are certain. -/
inductive Rounded (v : ℚ) (M : Nat) (place : Int) : Nat × Bool → Prop where
  | down : (M - 1 / 100) * 2 ^ place < v → v < (M + 1 / 2) * 2 ^ place →
      Rounded v M place (diyFpToIeeeRaw ⟨M, place⟩, true)
  | up : (M + 1 / 2) * 2 ^ place < v → v < (M + 1 + 1 / 100) * 2 ^ place →
      Rounded v M place (diyFpToIeeeRaw ⟨M + 1, place⟩, true)
  | near : M * 2 ^ place < v → v < (M + 1) * 2 ^ place →
      Rounded v M place (diyFpToIeeeRaw ⟨M, place⟩, false)

theorem roundDigits_spec {fp : DiyFp} {err digits : Nat} {v : ℚ} (h : Approximates fp err v)
    (hsig : fp.sig < 2 ^ 64) (herr : err ≤ 160) (hlow : 11 ≤ digits) (hhigh : digits ≤ 60) :
    Rounded v (fp.sig / 2 ^ digits) (fp.exp + digits) (roundDigits fp err digits) := by
  obtain ⟨d, rfl⟩ : ∃ d, digits = d + 1 := ⟨digits - 1, by omega⟩
  have hpow : 2 ^ 10 ≤ 2 ^ d := Nat.pow_le_pow_right (by decide) (by omega)
  have hpow' : 2 ^ d ≤ 2 ^ 59 := Nat.pow_le_pow_right (by decide) (by omega)
  have hsucc : 2 ^ (d + 1) = 2 * 2 ^ d := by rw [Nat.pow_succ, Nat.mul_comm]
  have hsplit := Nat.div_add_mod fp.sig (2 ^ (d + 1))
  have hmod := Nat.mod_lt fp.sig (Nat.two_pow_pos (d + 1))
  have hM : fp.sig / 2 ^ (d + 1) ≤ fp.sig := Nat.div_le_self _ _
  have hround : roundDigits fp err (d + 1) =
      if 8 * 2 ^ d + err ≤ 8 * (fp.sig % 2 ^ (d + 1)) then
        (diyFpToIeeeRaw ⟨fp.sig / 2 ^ (d + 1) + 1, fp.exp + (d + 1 : Nat)⟩, true)
      else (diyFpToIeeeRaw ⟨fp.sig / 2 ^ (d + 1), fp.exp + (d + 1 : Nat)⟩,
        decide (8 * (fp.sig % 2 ^ (d + 1)) ≤ 8 * 2 ^ d - err)) := by
    have hM' : fp.sig / 2 ^ (d + 1) + 1 < 2 ^ 64 := by
      have hdiv : fp.sig / 2 ^ (d + 1) ≤ fp.sig / 2 :=
        Nat.div_le_div_left (by omega) (by decide)
      omega
    have hhalf : shl64 1 (d + 1 - 1) * 8 % 2 ^ 64 = 8 * 2 ^ d := by
      rw [shl64, Nat.shiftLeft_eq, Nat.add_sub_cancel, Nat.one_mul, Nat.mod_eq_of_lt (by omega)]
      omega
    have hsum : (8 * 2 ^ d + err) % 2 ^ 64 = 8 * 2 ^ d + err := Nat.mod_eq_of_lt (by omega)
    have hdiff : sub64 (8 * 2 ^ d) err = 8 * 2 ^ d - err := by
      unfold sub64
      omega
    unfold roundDigits
    dsimp only
    rw [Nat.and_two_pow_sub_one_eq_mod, Nat.mod_eq_of_lt (show fp.sig % 2 ^ (d + 1) * 8 < 2 ^ 64 by
      omega), hhalf, hsum, hdiff, Nat.shiftRight_eq_div_pow, Nat.mul_comm _ 8]
    split
    · rename_i hup
      rw [Nat.mod_eq_of_lt hM', decide_eq_true (Or.inr hup)]
    · rename_i hup
      rw [Nat.add_zero, Nat.mod_eq_of_lt (by omega)]
      simp only [hup, or_false]
  rw [hround]
  obtain ⟨hv, hv'⟩ := h
  generalize fp.sig / 2 ^ (d + 1) = M at hsplit ⊢
  generalize fp.sig % 2 ^ (d + 1) = r at hsplit hmod ⊢
  rw [hsucc] at hsplit hmod
  -- The number in units of the product's last place.
  have hplace : (2 : ℚ) ^ (fp.exp + (d + 1 : Nat)) = 2 * 2 ^ d * 2 ^ fp.exp := by
    rw [zpow_add₀ (by norm_num), zpow_natCast, pow_succ]
    ring
  have hsigq : (fp.sig : ℚ) = 2 * 2 ^ d * M + r := by exact_mod_cast hsplit.symm
  have hpowq : (2 ^ 10 : ℚ) ≤ 2 ^ d := by exact_mod_cast hpow
  have herrq : (err : ℚ) ≤ 160 := by exact_mod_cast herr
  have hmodq : (r : ℚ) + 1 ≤ 2 * 2 ^ d := by exact_mod_cast hmod
  have hmodnn : (0 : ℚ) ≤ r := Nat.cast_nonneg _
  have hunit : (0 : ℚ) < 2 ^ fp.exp := by positivity
  have hbelow : ∀ {a : ℚ}, a * (2 * 2 ^ d) ≤ fp.sig - err / 8 →
      a * 2 ^ (fp.exp + (d + 1 : Nat)) < v := by
    intro a ha
    rw [hplace, ← mul_assoc]
    exact (mul_le_mul_of_nonneg_right ha hunit.le).trans_lt hv
  have habove : ∀ {a : ℚ}, fp.sig + err / 8 ≤ a * (2 * 2 ^ d) →
      v < a * 2 ^ (fp.exp + (d + 1 : Nat)) := by
    intro a ha
    rw [hplace, ← mul_assoc]
    exact hv'.trans_le (mul_le_mul_of_nonneg_right ha hunit.le)
  rw [hsigq] at hbelow habove
  split
  · rename_i hup
    have hupq : (8 * 2 ^ d + err : ℚ) ≤ 8 * r := by exact_mod_cast hup
    exact .up (hbelow (by linarith)) (habove (by linarith))
  · rename_i hup
    by_cases hdown : 8 * r ≤ 8 * 2 ^ d - err
    · have hdown' : 8 * r + err ≤ 8 * 2 ^ d := by omega
      have hdownq : (8 * r + err : ℚ) ≤ 8 * 2 ^ d := by exact_mod_cast hdown'
      rw [decide_eq_true hdown]
      exact .down (hbelow (by linarith)) (habove (by linarith))
    · have hlow' : 8 * 2 ^ d ≤ 8 * r + err := by omega
      have hhigh' : 8 * r ≤ 8 * 2 ^ d + err := by omega
      have hlowq : (8 * 2 ^ d : ℚ) ≤ 8 * r + err := by exact_mod_cast hlow'
      have hhighq : (8 * r : ℚ) ≤ 8 * 2 ^ d + err := by exact_mod_cast hhigh'
      rw [decide_eq_false hdown]
      exact .near (hbelow (by linarith)) (habove (by linarith))

/-! ## The approximation as a whole -/

/-- The bits that a double has where the leading bit is this large. -/
def effectiveSize (order : Int) : Nat :=
  if -1074 + 53 ≤ order then 53 else if order ≤ -1074 then 0 else (order + 1074).toNat

/-- Shifting bits out adds to the error. -/
theorem Approximates.shiftRight {fp : DiyFp} {err : Nat} {v : ℚ} (h : Approximates fp err v)
    (k : Nat) : Approximates ⟨fp.sig >>> k, fp.exp + k⟩ (err >>> k + 9) v := by
  have hsig := Nat.div_add_mod fp.sig (2 ^ k)
  have hmod := Nat.mod_lt fp.sig (Nat.two_pow_pos k)
  have herr : err < 2 ^ k * (err / 2 ^ k + 1) := Nat.lt_mul_div_succ err (Nat.two_pow_pos k)
  have hscale : (2 : ℚ) ^ (fp.exp + k) = 2 ^ k * 2 ^ fp.exp := by
    rw [zpow_add₀ (by norm_num), zpow_natCast, mul_comm]
  have hk : (0 : ℚ) < 2 ^ k := by positivity
  have hunit : (0 : ℚ) < 2 ^ fp.exp := by positivity
  rw [Nat.shiftRight_eq_div_pow, Nat.shiftRight_eq_div_pow]
  generalize fp.sig / 2 ^ k = q at *
  generalize fp.sig % 2 ^ k = m at *
  generalize err / 2 ^ k = e at *
  have hsigq : (fp.sig : ℚ) = 2 ^ k * q + m := by exact_mod_cast hsig.symm
  have hmodq : (m : ℚ) < 2 ^ k := by exact_mod_cast hmod
  have hmodnn : (0 : ℚ) ≤ m := Nat.cast_nonneg m
  have herrq : (err : ℚ) < 2 ^ k * (e + 1) := by exact_mod_cast herr
  obtain ⟨hlow, hhigh⟩ := h
  constructor
  · dsimp only
    rw [hscale, ← mul_assoc]
    refine (mul_le_mul_of_nonneg_right ?_ hunit.le).trans_lt hlow
    push_cast
    linarith
  · dsimp only
    rw [hscale, ← mul_assoc]
    refine hhigh.trans_le (mul_le_mul_of_nonneg_right ?_ hunit.le)
    push_cast
    linarith

variable {sig : Nat} {exp : Int} {cut : Bool}

/-- The rounding that the slow path comes to. -/
theorem diyApproximate_eq (sig : Nat) (exp : Int) (cut : Bool) : diyApproximate sig exp cut =
    let fp := scaled sig exp
    let err := scaledErr sig exp cut
    let digits := 64 - effectiveSize (64 + fp.exp)
    if 64 ≤ digits + 3 then
      roundDigits ⟨fp.sig >>> (digits + 3 - 64 + 1), fp.exp + (digits + 3 - 64 + 1 : Nat)⟩
        ((err >>> (digits + 3 - 64 + 1) + 1 + 8) % 2 ^ 64) (digits - (digits + 3 - 64 + 1))
    else roundDigits fp err digits := by
  let fp := scaled sig exp
  let err := scaledErr sig exp cut
  let digits := 64 - effectiveSize (64 + fp.exp)
  have hround : diyApproximate sig exp cut =
      (fun t : DiyFp × Nat × Nat => roundDigits t.1 t.2.1 t.2.2)
        (if 64 ≤ digits + 3 then
          (⟨fp.sig >>> (digits + 3 - 64 + 1), fp.exp + (digits + 3 - 64 + 1 : Nat)⟩,
            (err >>> (digits + 3 - 64 + 1) + 1 + 8) % 2 ^ 64, digits - (digits + 3 - 64 + 1))
        else (fp, err, digits)) := rfl
  rw [hround]
  dsimp only
  split <;> rfl

/-- What the approximation says about the number. Where the place is below those of doubles, the
number lies below the least of them. -/
theorem diyApproximate_spec (h : SigRange sig cut) (hpow : Pow10Entry exp) {x : ℚ}
    (hx : |x - sig| ≤ if cut then 1 / 2 else 0) : ∃ M place,
      (OnGrid M place ∧ M < 2 ^ 53 ∨ place < -1074 ∧ place = 64 + (scaled sig exp).exp ∧ M = 0) ∧
      Rounded (x * 10 ^ exp) M place (diyApproximate sig exp cut) := by
  obtain ⟨hlow, hhigh, -, herr⟩ := @scaled_range sig exp cut h hpow
  have happrox := scaled_approximates h hpow hx
  rw [diyApproximate_eq]
  dsimp only
  generalize scaled sig exp = fp at *
  generalize scaledErr sig exp cut = err at *
  have hsize : effectiveSize (64 + fp.exp) ≤ 53 := by
    unfold effectiveSize
    split_ifs <;> omega
  split
  · rename_i hmany
    obtain ⟨k, hk, hk', hdigits⟩ : ∃ k, 1 ≤ k ∧ k ≤ 4 ∧
        64 - effectiveSize (64 + fp.exp) = k + 60 :=
      ⟨4 - effectiveSize (64 + fp.exp), by omega, by omega, by omega⟩
    rw [hdigits, show k + 60 + 3 - 64 + 1 = k by omega, show k + 60 - k = 60 by omega]
    have herr' : err >>> k ≤ err := by
      rw [Nat.shiftRight_eq_div_pow]
      exact Nat.div_le_self _ _
    have hhalf : err >>> k ≤ 73 := by
      rw [Nat.shiftRight_eq_div_pow]
      calc err / 2 ^ k ≤ err / 2 ^ 1 :=
            Nat.div_le_div_left (Nat.pow_le_pow_right (by decide) hk) (by decide)
        _ ≤ 73 := by omega
    have hsig : fp.sig >>> k ≤ fp.sig := by
      rw [Nat.shiftRight_eq_div_pow]
      exact Nat.div_le_self _ _
    rw [Nat.mod_eq_of_lt (show err >>> k + 1 + 8 < 2 ^ 64 by omega)]
    refine ⟨_, _, ?_, roundDigits_spec (happrox.shiftRight k) (hsig.trans_lt hhigh)
      (by omega) (by decide) (by decide)⟩
    dsimp only
    rw [Nat.shiftRight_eq_div_pow, Nat.div_div_eq_div_mul, ← Nat.pow_add]
    have hM : fp.sig / 2 ^ (k + 60) < 2 ^ (4 - k) := by
      refine Nat.div_lt_of_lt_mul (hhigh.trans_eq ?_)
      rw [← Nat.pow_add]
      congr 1
      omega
    have hM' : 2 ^ (4 - k) ≤ 2 ^ 3 := Nat.pow_le_pow_right (by decide) (by omega)
    by_cases htiny : 64 + fp.exp < -1074
    · right
      have hk4 : k = 4 := by
        unfold effectiveSize at hdigits
        rw [if_neg (by omega), if_pos (by omega)] at hdigits
        omega
      subst hk4
      refine ⟨by omega, by omega, ?_⟩
      exact Nat.lt_one_iff.mp hM
    · left
      have hplace : fp.exp + k + (60 : Nat) = -1074 := by
        unfold effectiveSize at hdigits
        split_ifs at hdigits <;> omega
      exact ⟨⟨by omega, by omega, .inr hplace⟩, by omega⟩
  · rename_i hfew
    have hle : 11 ≤ 64 - effectiveSize (64 + fp.exp) := by omega
    refine ⟨_, _, .inl ?_, roundDigits_spec happrox hhigh (by omega) hle (by omega)⟩
    have hM : fp.sig / 2 ^ (64 - effectiveSize (64 + fp.exp)) < 2 ^ effectiveSize (64 + fp.exp) := by
      refine Nat.div_lt_of_lt_mul (hhigh.trans_eq ?_)
      rw [← Nat.pow_add]
      congr 1
      omega
    have hM' := Nat.pow_le_pow_right (show 0 < 2 by decide) hsize
    refine ⟨⟨(hM.trans_le hM').le, ?_, ?_⟩, hM.trans_le hM'⟩
    · unfold effectiveSize at hfew ⊢
      split_ifs at hfew ⊢ <;> omega
    · by_cases hfull : -1074 + 53 ≤ 64 + fp.exp
      · left
        rw [effectiveSize, if_pos hfull]
        omega
      · right
        unfold effectiveSize at hfew ⊢
        rw [if_neg hfull] at hfew ⊢
        split_ifs at hfew ⊢ <;> omega

end SsrJson.Decode
