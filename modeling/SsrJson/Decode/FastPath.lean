import SsrJson.Decode.LiteralRange
import SsrJson.Library.Bits

/-!
# The path with the table of powers of ten

The product of the significand with the highest 128 bits of the power of ten is short of the exact
one. The reader tells from bits that are neither all zeros nor all ones that what is missing cannot
change the leading 54 bits, and that there is something behind them. So it always knows on which
side of a middle between doubles the literal lies.
-/

namespace SsrJson.Decode

open Spec Binary64

/-- The upper half of the product that the reader settles for. -/
def fastHigh (sig1 sig2 sig2Ext : Nat) : Option Nat :=
  let hi := (u128Mul sig1 sig2).1
  let lo := (u128Mul sig1 sig2).2
  let hi2 := (u128Mul sig1 sig2Ext).1
  let bits := hi &&& (2 ^ 9 - 1)
  let add := (lo + hi2) % 2 ^ 64
  if sub64 bits 1 < 2 ^ 9 - 2 then some hi
  else if 1 < (add + 1) % 2 ^ 64 then
    some ((hi + if add < lo ∨ add < hi2 then 1 else 0) % 2 ^ 64)
  else none

/-- The double made of the upper half; the rounding may run over. -/
def fastRaw (exp2 : Int) (hi : Nat) : Nat :=
  let lz : Nat := if hi < 2 ^ 63 then 1 else 0
  let hi := shl64 hi lz
  let exp2 := exp2 - lz + 64
  let hi := if hi &&& 2 ^ 10 ≠ 0 then (hi + 2 ^ 10) % 2 ^ 64 else hi
  let parts := if hi < 2 ^ 10 then (2 ^ 63, exp2 + 1) else (hi, exp2)
  let hi := parts.1 >>> 11
  let exp2 := parts.2 + 11 + 52 + 1023
  shl64 exp2.toNat 52 ||| hi &&& (2 ^ 52 - 1)

/-- The path in its two halves. -/
theorem fastPath_some {sig : Nat} {exp : Int} {raw : Nat} (h : fastPath sig exp = some raw) :
    ∃ hi, fastHigh (shl64 sig (u64LzBits sig)) (pow10TableGetSig exp).1
        (pow10TableGetSig exp).2 = some hi ∧
      raw = fastRaw (pow10TableGetExp exp - u64LzBits sig) hi := by
  -- The functions of 64 bits are taken for variables, so that nothing computes with them.
  have hdef : fastPath = fastPath := rfl
  have hhigh : fastHigh = fastHigh := rfl
  have hraw : fastRaw = fastRaw := rfl
  conv_rhs at hdef => delta fastPath
  conv_rhs at hhigh => delta fastHigh
  conv_rhs at hraw => delta fastRaw
  obtain ⟨s, hs⟩ : ∃ s, s = sub64 := ⟨_, rfl⟩
  obtain ⟨l, hl⟩ : ∃ l, l = shl64 := ⟨_, rfl⟩
  obtain ⟨m, hm⟩ : ∃ m, m = u128Mul := ⟨_, rfl⟩
  obtain ⟨z, hz⟩ : ∃ z, z = u64LzBits := ⟨_, rfl⟩
  obtain ⟨t, ht⟩ : ∃ t, t = pow10TableGetSig := ⟨_, rfl⟩
  obtain ⟨e, he⟩ : ∃ e, e = pow10TableGetExp := ⟨_, rfl⟩
  rw [← hs, ← hl, ← hm, ← hz, ← ht, ← he] at hdef
  rw [← hs, ← hm] at hhigh
  rw [← hl] at hraw
  rw [← hl, ← hz, ← ht, ← he]
  have hstep := congrFun (congrFun hdef sig) exp
  rw [h] at hstep
  generalize t exp = ts at hstep ⊢
  obtain ⟨sig2, ext⟩ := ts
  dsimp -zeta only at hstep ⊢
  extract_lets exp2 lz sig1 exp2' bits add exact at hstep
  have hexact : exact = fastHigh sig1 sig2 ext := by rw [hhigh]
  clear_value exact
  cases exact with
  | none => cases hstep
  | some hi =>
      refine ⟨hi, hexact.symm, ?_⟩
      rw [hraw]
      exact Option.some.inj hstep

/-! ## The bits that are sure -/

/-- The product is known well enough to round it: with what may be missing it lies strictly between
two neighbouring multiples of the 55th bit of its upper half. -/
structure Sure (product h : Nat) : Prop where
  ge : 2 ^ 62 ≤ h
  lt : h < 2 ^ 64
  low : h / 2 ^ 9 * 2 ^ 137 < product
  high : product + 2 ^ 64 ≤ (h / 2 ^ 9 + 1) * 2 ^ 137

/-- The lowest bits of the upper half are enough. -/
theorem sure_of_bits {hi lo hi2 lo2 : Nat} (hhi : 2 ^ 62 ≤ hi) (hlt : hi < 2 ^ 64)
    (hlo : lo < 2 ^ 64) (hhi2 : hi2 < 2 ^ 64 - 1) (hlo2 : lo2 < 2 ^ 64)
    (hbits : sub64 (hi % 2 ^ 9) 1 < 2 ^ 9 - 2) :
    Sure ((hi * 2 ^ 64 + lo) * 2 ^ 64 + (hi2 * 2 ^ 64 + lo2)) hi := by
  unfold sub64 at hbits
  constructor <;> omega

/-- The carry from the lower half of the product. -/
theorem carry_eq {lo hi2 : Nat} (hlo : lo < 2 ^ 64) (hhi2 : hi2 < 2 ^ 64) :
    (if (lo + hi2) % 2 ^ 64 < lo ∨ (lo + hi2) % 2 ^ 64 < hi2 then 1 else 0) =
      (lo + hi2) / 2 ^ 64 := by
  split <;> omega

/-- The next 64 bits are neither all zeros nor all ones. -/
theorem sure_of_add {hi lo hi2 lo2 : Nat} (hhi : 2 ^ 62 ≤ hi) (hlo2 : lo2 < 2 ^ 64)
    (hlt : hi + (lo + hi2) / 2 ^ 64 < 2 ^ 64)
    (hadd : 1 < ((lo + hi2) % 2 ^ 64 + 1) % 2 ^ 64) :
    Sure ((hi * 2 ^ 64 + lo) * 2 ^ 64 + (hi2 * 2 ^ 64 + lo2)) (hi + (lo + hi2) / 2 ^ 64) := by
  obtain ⟨add, hmod⟩ : ∃ add, (lo + hi2) % 2 ^ 64 = add := ⟨_, rfl⟩
  obtain ⟨carry, hdiv⟩ : ∃ carry, (lo + hi2) / 2 ^ 64 = carry := ⟨_, rfl⟩
  have hsum : lo + hi2 = carry * 2 ^ 64 + add := by omega
  have hsplit : (hi * 2 ^ 64 + lo) * 2 ^ 64 + (hi2 * 2 ^ 64 + lo2) =
      (hi + carry) * 2 ^ 128 + add * 2 ^ 64 + lo2 := by
    calc (hi * 2 ^ 64 + lo) * 2 ^ 64 + (hi2 * 2 ^ 64 + lo2) =
          hi * 2 ^ 128 + (lo + hi2) * 2 ^ 64 + lo2 := by ring
      _ = (hi + carry) * 2 ^ 128 + add * 2 ^ 64 + lo2 := by
          rw [hsum]
          ring
  have haddlt : add < 2 ^ 64 := hmod ▸ Nat.mod_lt _ (by decide)
  rw [hmod] at hadd
  rw [hdiv] at hlt ⊢
  rw [hsplit]
  clear hmod hdiv hsum hsplit
  constructor
  · omega
  · omega
  · omega
  · omega

theorem fastHigh_sure {sig1 sig2 ext h : Nat} (h1 : 2 ^ 63 ≤ sig1) (h1' : sig1 < 2 ^ 64)
    (h2 : 2 ^ 63 ≤ sig2) (h2' : sig2 < 2 ^ 64) (hext : ext < 2 ^ 64)
    (hhigh : fastHigh sig1 sig2 ext = some h) : Sure (sig1 * (sig2 * 2 ^ 64 + ext)) h := by
  have hlarge : 2 ^ 63 * 2 ^ 63 ≤ sig1 * sig2 := Nat.mul_le_mul h1 h2
  have hsmall : sig1 * sig2 ≤ (2 ^ 64 - 1) * (2 ^ 64 - 1) := Nat.mul_le_mul (by omega) (by omega)
  have hsmall' : sig1 * ext ≤ (2 ^ 64 - 1) * (2 ^ 64 - 1) := Nat.mul_le_mul (by omega) (by omega)
  obtain ⟨hi, lo, hhi, hlo⟩ : ∃ hi lo, sig1 * sig2 / 2 ^ 64 = hi ∧ sig1 * sig2 % 2 ^ 64 = lo :=
    ⟨_, _, rfl, rfl⟩
  obtain ⟨hi2, lo2, hhi2, hlo2⟩ : ∃ hi2 lo2, sig1 * ext / 2 ^ 64 = hi2 ∧ sig1 * ext % 2 ^ 64 = lo2 :=
    ⟨_, _, rfl, rfl⟩
  have hsplit : sig1 * (sig2 * 2 ^ 64 + ext) = (hi * 2 ^ 64 + lo) * 2 ^ 64 + (hi2 * 2 ^ 64 + lo2) := by
    calc sig1 * (sig2 * 2 ^ 64 + ext) = sig1 * sig2 * 2 ^ 64 + sig1 * ext := by ring
      _ = (hi * 2 ^ 64 + lo) * 2 ^ 64 + (hi2 * 2 ^ 64 + lo2) := by
          rw [show sig1 * sig2 = hi * 2 ^ 64 + lo by omega,
            show sig1 * ext = hi2 * 2 ^ 64 + lo2 by omega]
  have hproduct : sig1 * (sig2 * 2 ^ 64 + ext) < 2 ^ 64 * 2 ^ 128 :=
    Nat.mul_lt_mul_of_lt_of_le h1' (by omega) (by decide)
  rw [hsplit] at hproduct ⊢
  unfold fastHigh u128Mul at hhigh
  dsimp only at hhigh
  rw [Nat.and_two_pow_sub_one_eq_mod, hhi, hlo, hhi2] at hhigh
  by_cases hbits : sub64 (hi % 2 ^ 9) 1 < 2 ^ 9 - 2
  · rw [if_pos hbits] at hhigh
    rw [← Option.some.inj hhigh]
    exact sure_of_bits (by omega) (by omega) (by omega) (by omega) (by omega) hbits
  · rw [if_neg hbits] at hhigh
    by_cases hadd : 1 < ((lo + hi2) % 2 ^ 64 + 1) % 2 ^ 64
    · have hlt : hi + (lo + hi2) / 2 ^ 64 < 2 ^ 64 := by omega
      have hsure := sure_of_add (by omega) (show lo2 < 2 ^ 64 by omega) hlt hadd
      rw [if_pos hadd, carry_eq (by omega) (by omega), Nat.mod_eq_of_lt hlt] at hhigh
      rw [← Option.some.inj hhigh]
      exact hsure
    · rw [if_neg hadd] at hhigh
      cases hhigh

/-! ## The double -/

/-- How far the upper half is shifted to set its leading bit. -/
def highShift (h : Nat) : Nat := if h < 2 ^ 63 then 1 else 0

/-- The leading 54 bits, the last of which decides the rounding. -/
def leading (h : Nat) : Nat := h * 2 ^ highShift h / 2 ^ 10

theorem leading_range {h : Nat} (hge : 2 ^ 62 ≤ h) (hlt : h < 2 ^ 64) :
    2 ^ 53 ≤ leading h ∧ leading h < 2 ^ 54 := by
  unfold leading highShift
  split <;> omega

/-- The product lies strictly between the leading bits and their successor. -/
theorem Sure.bounds {product h : Nat} (s : Sure product h) :
    leading h * 2 ^ 138 < product * 2 ^ highShift h ∧
      (product + 2 ^ 64) * 2 ^ highShift h ≤ (leading h + 1) * 2 ^ 138 := by
  obtain ⟨-, -, hlow, hhigh⟩ := s
  unfold leading highShift
  split
  · omega
  · omega

/-- The packed double of a significand with its leading bit set. -/
theorem pack_rawOf {n : Nat} {place : Int} (hge : 2 ^ 63 ≤ n) (hlt : n < 2 ^ 64)
    (hlow : -1074 ≤ place) (hhigh : place ≤ 971) :
    shl64 (place + 1075).toNat 52 ||| n >>> 11 &&& (2 ^ 52 - 1) = rawOf (n / 2 ^ 11) place := by
  rw [Nat.shiftRight_eq_div_pow, pack_bits (by omega) (by omega) (by omega), rawOf]
  omega

/-- The 54th bit is the rounding direction. The sum may run over 64 bits, and is then a power of
two. -/
theorem fastRaw_eq {h : Nat} {exp2 : Int} (hge : 2 ^ 62 ≤ h) (hlt : h < 2 ^ 64)
    (hlow : -1148 ≤ exp2) (hhigh : exp2 ≤ 895) :
    fastRaw exp2 h =
      rawOf (leading h / 2 + leading h % 2) (exp2 - highShift h + 75) := by
  have hshift : highShift h ≤ 1 ∧ 2 ^ 63 ≤ h * 2 ^ highShift h ∧ h * 2 ^ highShift h < 2 ^ 64 := by
    unfold highShift
    split <;> omega
  obtain ⟨hlz, hge', hlt'⟩ := hshift
  have hshl : shl64 h (highShift h) = h * 2 ^ highShift h := by
    rw [shl64, Nat.shiftLeft_eq, Nat.mod_eq_of_lt hlt']
  unfold fastRaw Decode.leading
  dsimp only
  rw [show (if h < 2 ^ 63 then 1 else 0) = highShift h from rfl, hshl]
  generalize h * 2 ^ highShift h = n at hge' hlt'
  obtain ⟨place, hplace⟩ : ∃ place, exp2 - highShift h + 75 = place := ⟨_, rfl⟩
  have hbit : n &&& 2 ^ 10 = n / 2 ^ 10 % 2 * 2 ^ 10 := and_mask n 10 1
  rw [hplace, hbit]
  by_cases hdown : n / 2 ^ 10 % 2 = 0
  · rw [if_neg (show ¬ n / 2 ^ 10 % 2 * 2 ^ 10 ≠ 0 by omega), if_neg (by omega)]
    dsimp only
    rw [show exp2 - (highShift h : Int) + 64 + 11 + 52 + 1023 = place + 1075 by omega,
      pack_rawOf hge' hlt' (by omega) (by omega)]
    congr 1
    omega
  · rw [if_pos (show n / 2 ^ 10 % 2 * 2 ^ 10 ≠ 0 by omega)]
    by_cases hover : n + 2 ^ 10 < 2 ^ 64
    · rw [Nat.mod_eq_of_lt hover, if_neg (by omega)]
      dsimp only
      rw [show exp2 - (highShift h : Int) + 64 + 11 + 52 + 1023 = place + 1075 by omega,
        pack_rawOf (by omega) hover (by omega) (by omega)]
      congr 1
      omega
    · rw [if_pos (by omega)]
      dsimp only
      rw [show exp2 - (highShift h : Int) + 64 + 1 + 11 + 52 + 1023 = place + 1 + 1075 by omega,
        pack_rawOf (by decide) (by decide) (by omega) (by omega), rawOf, rawOf]
      omega

/-- The product and what may be missing, in units of half the last place of the double. -/
theorem Sure.between {product h : Nat} (s : Sure product h) {x : ℚ} {exp2 : Int}
    (hx : product * (2 : ℚ) ^ (exp2 - 64) ≤ x)
    (hx' : x < (product + 2 ^ 64) * (2 : ℚ) ^ (exp2 - 64)) :
    leading h * ((2 : ℚ) ^ (exp2 - highShift h + 75) / 2) < x ∧
      x < (leading h + 1) * ((2 : ℚ) ^ (exp2 - highShift h + 75) / 2) := by
  obtain ⟨hlow, hhigh⟩ := s.bounds
  have hlow' : (leading h * 2 ^ 138 : ℚ) < product * 2 ^ highShift h := by exact_mod_cast hlow
  have hhigh' : ((product + 2 ^ 64) * 2 ^ highShift h : ℚ) ≤ (leading h + 1) * 2 ^ 138 := by
    exact_mod_cast hhigh
  obtain ⟨unit, hunit⟩ : ∃ unit : ℚ, unit = 2 ^ (exp2 - 64 - highShift h) := ⟨_, rfl⟩
  have hpos : 0 < unit := by
    rw [hunit]
    positivity
  have hproduct : (2 : ℚ) ^ (exp2 - 64) = 2 ^ highShift h * unit := by
    rw [hunit, ← zpow_natCast, ← zpow_add₀ (by norm_num)]
    congr 1
    omega
  have hplace : (2 : ℚ) ^ (exp2 - highShift h + 75) / 2 = 2 ^ 138 * unit := by
    rw [hunit, ← zpow_natCast, ← zpow_add₀ (by norm_num), div_eq_mul_inv,
      ← zpow_sub_one₀ (by norm_num)]
    congr 1
    omega
  rw [hproduct, ← mul_assoc] at hx hx'
  rw [hplace, ← mul_assoc, ← mul_assoc]
  exact ⟨(mul_lt_mul_of_pos_right hlow' hpos).trans_le hx,
    hx'.trans_le (mul_le_mul_of_nonneg_right hhigh' hpos.le)⟩

/-- What the sure bits are packed into is the nearest double. -/
theorem Sure.nearest {product h : Nat} (s : Sure product h) {x : ℚ} {exp2 : Int}
    (hlow : -1148 ≤ exp2) (hhigh : exp2 ≤ 895) (hx : product * (2 : ℚ) ^ (exp2 - 64) ≤ x)
    (hx' : x < (product + 2 ^ 64) * (2 : ℚ) ^ (exp2 - 64)) : Nearest x (fastRaw exp2 h) := by
  obtain ⟨habove, hbelow⟩ := s.between hx hx'
  obtain ⟨hge, hlt⟩ := leading_range s.ge s.lt
  have hshift : highShift h ≤ 1 := by
    unfold highShift
    split <;> omega
  rw [fastRaw_eq s.ge s.lt hlow hhigh]
  generalize hplace : exp2 - highShift h + 75 = place at habove hbelow ⊢
  have hpos : (0 : ℚ) < 2 ^ place := by positivity
  obtain ⟨m, b, hleading, hb⟩ : ∃ m b, leading h = 2 * m + b ∧ b < 2 :=
    ⟨leading h / 2, leading h % 2, by omega, by omega⟩
  rw [hleading] at habove hbelow hge hlt ⊢
  push_cast at habove hbelow
  have hgrid : OnGrid m place := ⟨by omega, by omega, .inl (by omega)⟩
  have hfinite : ∀ n ≤ 2 ^ 53, min (rawOf n place) infRaw = rawOf n place := by
    intro n hn
    refine Nat.min_eq_left ?_
    unfold rawOf infRaw
    omega
  rcases Nat.lt_or_ge b 1 with hzero | hone
  · obtain rfl : b = 0 := by omega
    rw [show (2 * m + 0) / 2 + (2 * m + 0) % 2 = m by omega, ← hfinite m (by omega)]
    rw [Nat.cast_zero] at habove hbelow
    exact nearest_down hgrid (by omega) (by linarith) (by linarith)
  · obtain rfl : b = 1 := by omega
    rw [show (2 * m + 1) / 2 + (2 * m + 1) % 2 = m + 1 by omega, ← hfinite (m + 1) (by omega)]
    rw [Nat.cast_one] at habove hbelow
    exact nearest_up hgrid (by omega) (by linarith) (by linarith)

theorem fastPath_nearest {sig : Nat} {exp : Int} {raw : Nat} (hpos : 0 < sig) (hlt : sig < 2 ^ 64)
    (hlow : -308 + 1 < exp) (hhigh : exp < 308 - 20) (h : fastPath sig exp = some raw) :
    Nearest (sig * 10 ^ exp) raw := by
  obtain ⟨hi, hhi, rfl⟩ := fastPath_some h
  have hentry : Pow10Entry exp := pow10Entry (by omega) (by omega)
  obtain ⟨hbelow, habove⟩ := hentry.bounds
  obtain ⟨hsig2, hext, hround, -⟩ := hentry
  obtain ⟨hlz, hshl, hge, hlt'⟩ := shl64_lzBits hpos hlt
  rw [hshl] at hhi
  have hsure : Sure (sig * 2 ^ u64LzBits sig * pow10Sig exp) hi :=
    fastHigh_sure hge hlt' hsig2 (by omega) hext hhi
  have hexp : -1085 ≤ pow10TableGetExp exp ∧ pow10TableGetExp exp ≤ 895 := by
    unfold pow10TableGetExp
    rw [Int.shiftRight_eq_div_pow]
    omega
  rw [pow10Place] at hbelow habove
  generalize pow10TableGetExp exp = e at hexp hbelow habove ⊢
  obtain ⟨unit, hunit⟩ : ∃ unit : ℚ, unit = 2 ^ (e - u64LzBits sig - 64) := ⟨_, rfl⟩
  have hplace : (2 : ℚ) ^ (e - 64) = 2 ^ u64LzBits sig * unit := by
    rw [hunit, ← zpow_natCast, ← zpow_add₀ (by norm_num),
      show (u64LzBits sig : Int) + (e - u64LzBits sig - 64) = e - 64 by omega]
  have hunitpos : 0 < unit := by
    rw [hunit]
    positivity
  have hsigpos : (0 : ℚ) < sig := by exact_mod_cast hpos
  have hcut : (sig * 2 ^ u64LzBits sig : ℚ) < 2 ^ 64 := by exact_mod_cast hlt'
  have hcast : ((sig * 2 ^ u64LzBits sig * pow10Sig exp : Nat) : ℚ) =
      sig * 2 ^ u64LzBits sig * pow10Sig exp := by push_cast; rfl
  rw [hplace] at hbelow habove
  refine hsure.nearest (by omega) (by omega) ?_ ?_
  · rw [hcast, ← hunit]
    calc (sig * 2 ^ u64LzBits sig * pow10Sig exp * unit : ℚ) =
          sig * (pow10Sig exp * (2 ^ u64LzBits sig * unit)) := by ring
      _ ≤ sig * 10 ^ exp := mul_le_mul_of_nonneg_left hbelow hsigpos.le
  · rw [hcast, ← hunit]
    calc (sig * 10 ^ exp : ℚ) < sig * ((pow10Sig exp + 1) * (2 ^ u64LzBits sig * unit)) :=
          mul_lt_mul_of_pos_left habove hsigpos
      _ = (sig * 2 ^ u64LzBits sig * pow10Sig exp + sig * 2 ^ u64LzBits sig) * unit := by ring
      _ ≤ (sig * 2 ^ u64LzBits sig * pow10Sig exp + 2 ^ 64) * unit :=
          mul_le_mul_of_nonneg_right (add_le_add_right hcut.le _) hunitpos.le

/-! ## The literal -/

/-- Wherever the path with the table of powers of ten declares its result exact, the double is the
one nearest to what the whole literal says, ties to even, and it is the one that is read. -/
theorem fast_path_correctly_rounded {t : List Nat} {p : NumberParts} (ht : p.IsText t)
    {d : Decimal} (hd : literalDecimal p = some d) {raw : Nat} (h : fastResult d = some raw) :
    partsVal p = f64Bin p.neg raw ∧ Nearest p.value raw := by
  obtain ⟨-, -, -, -, hval⟩ := literalDecimal_some hd
  refine ⟨?_, ?_⟩
  · rw [hval, digiFinish_eq, h]
  · unfold fastResult at h
    split at h
    · rename_i hrange
      obtain ⟨huncut, hlow, hhigh⟩ := hrange
      rcases literalDecimal_cases (significantDigits ht) hd with ⟨-, hnum⟩ | hcut
      · rw [hnum.value]
        exact fastPath_nearest hnum.pos (hnum.lt.trans (by decide)) hlow hhigh h
      · -- The path is not taken where digits were cut off.
        rw [hcut.sigCut] at huncut
        cases huncut
    · cases h

/-- The parts of `0.1`. -/
def tenthParts : NumberParts := ⟨false, [48], [49], none⟩

theorem tenthParts_isText : tenthParts.IsText tenthParts.mantissa :=
  ⟨.zero, by decide, [], .none, (List.append_nil _).symm⟩

theorem fast_path_correctly_rounded_tenth :
    partsVal tenthParts = f64Bin false 0x3FB999999999999A ∧
      Nearest tenthParts.value 0x3FB999999999999A :=
  fast_path_correctly_rounded tenthParts_isText
    (show literalDecimal tenthParts = some ⟨1, -1, none, 0, 0⟩ by decide +kernel)
    (by decide +kernel)

end SsrJson.Decode
