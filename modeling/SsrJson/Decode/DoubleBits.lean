import Mathlib.Tactic.Ring
import SsrJson.Decode.Number
import SsrJson.Library.Bits

/-!
# The bits of a double

`diy_fp_to_ieee_raw` packs a significand with its exponent, and the reader takes the bits of a double
apart again to get the value halfway to the next one.
-/

namespace SsrJson.Decode

open Binary64

/-- The leading zeros of a 64 bit value are shifted out. -/
theorem shl64_lzBits {v : Nat} (hpos : 0 < v) (hv : v < 2 ^ 64) :
    u64LzBits v ≤ 63 ∧ shl64 v (u64LzBits v) = v * 2 ^ u64LzBits v ∧
      2 ^ 63 ≤ v * 2 ^ u64LzBits v ∧ v * 2 ^ u64LzBits v < 2 ^ 64 := by
  have hlog : Nat.log2 v < 64 := (Nat.log2_lt hpos.ne').mpr hv
  have hlow := Nat.log2_self_le hpos.ne'
  have hhigh := @Nat.lt_log2_self v
  unfold u64LzBits
  have hge : 2 ^ 63 ≤ v * 2 ^ (63 - Nat.log2 v) := by
    calc 2 ^ 63 = 2 ^ Nat.log2 v * 2 ^ (63 - Nat.log2 v) := by
          rw [← Nat.pow_add]
          congr 1
          omega
      _ ≤ v * 2 ^ (63 - Nat.log2 v) := Nat.mul_le_mul_right _ hlow
  have hlt : v * 2 ^ (63 - Nat.log2 v) < 2 ^ 64 := by
    calc v * 2 ^ (63 - Nat.log2 v) < 2 ^ (Nat.log2 v + 1) * 2 ^ (63 - Nat.log2 v) :=
          Nat.mul_lt_mul_of_pos_right hhigh (Nat.two_pow_pos _)
      _ = 2 ^ 64 := by
          rw [← Nat.pow_add]
          congr 1
          omega
  refine ⟨by omega, ?_, hge, hlt⟩
  rw [shl64, Nat.shiftLeft_eq, Nat.mod_eq_of_lt hlt]

/-- A biased exponent and the bits of a significand, the leading one dropped. -/
theorem pack_bits {e s : Nat} (he : e < 2 ^ 11) (hlow : 2 ^ 52 ≤ s) (hhigh : s < 2 ^ 53) :
    shl64 e 52 ||| s &&& (2 ^ 52 - 1) = e * 2 ^ 52 + (s - 2 ^ 52) := by
  have hmod : s % 2 ^ 52 = s - 2 ^ 52 := by omega
  rw [Nat.and_two_pow_sub_one_eq_mod, hmod, shl64, Nat.shiftLeft_eq, Nat.mod_eq_of_lt (by omega),
    mul_or _ (by omega)]

/-! ## From a significand and its exponent -/

/-- The significand with the exponent of its last place is that of a double, or of the one behind
the largest. -/
structure Canonical (fp : DiyFp) : Prop where
  pos : 0 < fp.sig
  le : fp.sig ≤ 2 ^ 53
  place : -1074 ≤ fp.exp
  full : 2 ^ 52 ≤ fp.sig ∨ fp.exp = -1074

/-- `diy_fp_to_ieee_raw`: the places of the exponent and the significand overlap by one bit. -/
theorem diyFpToIeeeRaw_eq {fp : DiyFp} (h : Canonical fp) :
    diyFpToIeeeRaw fp = min ((fp.exp + 1074).toNat * 2 ^ 52 + fp.sig) infRaw := by
  obtain ⟨hpos, hle, hplace, hfull⟩ := h
  obtain ⟨hlz, hshift, hlow, hhigh⟩ := shl64_lzBits hpos (show fp.sig < 2 ^ 64 by omega)
  obtain ⟨place, hexp⟩ : ∃ place : Nat, fp.exp = place - 1074 := ⟨(fp.exp + 1074).toNat, by omega⟩
  have hnat : (fp.exp + 1074).toNat = place := by omega
  unfold diyFpToIeeeRaw infRaw
  rw [if_neg hpos.ne']
  dsimp only
  rw [hshift, hnat, Nat.shiftRight_eq_div_pow]
  -- The leading zeros leave 53 bits, so nothing is cut off.
  rcases Nat.lt_or_ge fp.sig (2 ^ 53) with hlt | hge
  · have hlz' : 11 ≤ u64LzBits fp.sig := by
      by_contra hsmall
      have hpow := Nat.pow_le_pow_right (show 0 < 2 by decide)
        (show u64LzBits fp.sig ≤ 10 by omega)
      have hmul := Nat.mul_lt_mul_of_lt_of_le hlt hpow (Nat.two_pow_pos _)
      exact absurd (hlow.trans_lt hmul) (by decide)
    obtain ⟨k, hk⟩ := Nat.exists_eq_add_of_le hlz'
    have hdiv : fp.sig * 2 ^ u64LzBits fp.sig / 2 ^ 11 = fp.sig * 2 ^ k := by
      rw [hk, Nat.pow_add, Nat.mul_left_comm, Nat.mul_div_cancel_left _ (Nat.two_pow_pos 11)]
    have hsplit : fp.sig * 2 ^ u64LzBits fp.sig = fp.sig * 2 ^ k * 2 ^ 11 := by
      rw [hk, Nat.pow_add]
      ring
    rw [hdiv, hk]
    rw [hsplit] at hlow hhigh
    have hlow' : 2 ^ 52 ≤ fp.sig * 2 ^ k := by omega
    have hhigh' : fp.sig * 2 ^ k < 2 ^ 53 := by omega
    rcases hfull with hfull | hsub
    · -- All 53 bits are there.
      have hk0 : k = 0 := by
        by_contra hne
        have hpow := Nat.pow_le_pow_right (show 0 < 2 by decide) (show 1 ≤ k by omega)
        have hmul := Nat.mul_le_mul hfull hpow
        omega
      subst hk0
      rw [Nat.pow_zero, Nat.mul_one]
      split
      · exact (Nat.min_eq_right (by omega)).symm
      · rw [if_pos (by omega), pack_bits (by omega) hfull hlt, Nat.min_eq_left (by omega),
          show (fp.exp - ((11 + 0 : Nat) : Int) + 11 + 52 + 1023).toNat = place + 1 by omega]
        omega
    · obtain rfl : place = 0 := by omega
      rw [if_neg (by omega)]
      by_cases hk0 : k = 0
      · subst hk0
        rw [Nat.pow_zero, Nat.mul_one] at hlow' ⊢
        rw [if_pos (by omega), pack_bits (by omega) hlow' hlt, Nat.min_eq_left (by omega),
          show (fp.exp - ((11 + 0 : Nat) : Int) + 11 + 52 + 1023).toNat = 1 by omega]
        omega
      · have hkle : k ≤ 52 := by omega
        rw [if_neg (by omega), if_pos (by omega),
          show (-1021 - (fp.exp - ((11 + k : Nat) : Int) + 11 + 52) - 1).toNat = k by omega,
          Nat.shiftRight_eq_div_pow, Nat.mul_div_cancel _ (Nat.two_pow_pos k),
          Nat.min_eq_left (by omega)]
        omega
  · obtain hsig : fp.sig = 2 ^ 53 := by omega
    have hlz' : u64LzBits fp.sig = 10 := by
      rw [hsig, u64LzBits, Nat.log2_two_pow]
    rw [hlz', hsig]
    split
    · exact (Nat.min_eq_right (by omega)).symm
    · rw [if_pos (by omega), pack_bits (by omega) (by decide) (by decide),
        Nat.min_eq_left (by omega),
        show (fp.exp - ((10 : Nat) : Int) + 11 + 52 + 1023).toNat = place + 2 by omega]
      omega

/-! ## From the bits -/

/-- The value halfway to the next double. -/
theorem upperBoundary_eq {raw : Nat} (h : raw < infRaw) :
    upperBoundary raw = ⟨2 * significand raw + 1, lastPlace raw - 1⟩ := by
  have hand : raw &&& 0x7FF0000000000000 = raw / 2 ^ 52 * 2 ^ 52 := by
    rw [show 0x7FF0000000000000 = (2 ^ 11 - 1) * 2 ^ 52 from rfl, and_mask, Nat.mod_eq_of_lt]
    unfold infRaw at h
    omega
  have hmod : raw &&& (2 ^ 52 - 1) = raw % 2 ^ 52 := Nat.and_two_pow_sub_one_eq_mod raw 52
  have hshl : ∀ v, v < 2 ^ 53 → shl64 v 1 = 2 * v := by
    intro v hv
    rw [shl64, Nat.shiftLeft_eq]
    omega
  have hmodlt := Nat.mod_lt raw (Nat.two_pow_pos 52)
  unfold upperBoundary significand lastPlace
  rw [hand, hmod]
  by_cases hzero : raw / 2 ^ 52 = 0
  · rw [if_neg (by omega), if_pos hzero]
    dsimp only
    rw [hshl _ (by omega), hzero]
    congr 1
    omega
  · rw [if_pos (by omega), if_neg hzero, Nat.shiftRight_eq_div_pow,
      Nat.mul_div_cancel _ (Nat.two_pow_pos 52)]
    dsimp only
    rw [hshl _ (by omega)]
    congr 1
    omega

end SsrJson.Decode
