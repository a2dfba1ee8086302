import SsrJson.Decode.Approximate
import SsrJson.Decode.LiteralValue

/-!
# The double below a literal

Where the approximation is not certain, the bits that it gives are those of the double just below
the number that is written: the number lies between that double and the next one.
-/

namespace SsrJson.Decode

open Spec Binary64

variable {p : NumberParts} {d : Decimal}

/-- The significand is the number that is written up to a power of ten, or half a unit away from it
where digits were cut off. -/
theorem literal_near (hs : SignificantDigits p) (h : literalDecimal p = some d) :
    SigRange d.sig d.sigCut.isSome ∧ ∃ x : ℚ, p.value = x * 10 ^ d.exp ∧
      |x - d.sig| ≤ if d.sigCut.isSome then 1 / 2 else 0 := by
  rcases literalDecimal_cases hs h with ⟨hcut, huncut⟩ | hcut
  · rw [hcut]
    refine ⟨⟨huncut.pos, huncut.lt.trans (by decide), nofun⟩, d.sig, huncut.value, ?_⟩
    simp
  · obtain ⟨m, hm⟩ : ∃ m, p.significant.length - 19 = m + 1 :=
      ⟨p.significant.length - 20, by have := hcut.long; omega⟩
    have hge : 10 ^ 18 ≤ digitsVal (p.significant.take 19) :=
      hs.take_ge (by have := hcut.long; omega)
    have hlt := hs.take_lt 19
    have hround : roundUp (p.significant.getD 19 0) ≤ 1 := by
      unfold roundUp
      split <;> omega
    rw [hcut.sigCut]
    refine ⟨⟨?_, ?_, fun _ => ?_⟩, digitsVal p.significant / 10 ^ (m + 1), ?_, ?_⟩
    · rw [hcut.sig]
      omega
    · rw [hcut.sig]
      omega
    · rw [hcut.sig]
      omega
    · rw [value_eq, hcut.exp, hm, zpow_sub₀ (by norm_num), zpow_natCast]
      ring
    · -- The twentieth digit tells which way the significand was rounded.
      obtain ⟨c, cs, hdrop⟩ := List.exists_cons_of_length_pos
        (show 0 < (p.significant.drop 19).length by rw [List.length_drop]; omega)
      have hcs : cs.length = m := by
        have hlen := congrArg List.length hdrop
        rw [List.length_drop, List.length_cons] at hlen
        omega
      have hdigits : ∀ a ∈ c :: cs, isDigit a = true := fun a ha =>
        hs.digit a (List.mem_of_mem_drop (hdrop ▸ ha))
      have hget : p.significant.getD 19 0 = c := by
        have h := congrArg (List.headD · 0) hdrop
        rw [List.headD_cons] at h
        rw [← h, List.getD_eq_getElem?_getD, ← List.head?_drop, List.headD_eq_head?_getD]
      have hc := isDigit_iff.mp (hdigits c List.mem_cons_self)
      have hrest : digitsVal cs < 10 ^ m :=
        hcs ▸ digitsVal_lt fun a ha => hdigits a (List.mem_cons_of_mem _ ha)
      have hsplit := significant_split p 19
      have hvalue : digitsVal (c :: cs) = (c - 0x30) * 10 ^ m + digitsVal cs := by
        rw [show c :: cs = [c] ++ cs from rfl, digitsVal_append, hcs]
        congr 2
        exact Nat.zero_add _
      rw [hm, hdrop, hvalue] at hsplit
      rw [hsplit, hcut.sig, hget]
      generalize digitsVal (p.significant.take 19) = head
      generalize digitsVal cs = tail at hrest
      obtain ⟨k, hk, hk9⟩ : ∃ k, c - 0x30 = k ∧ k ≤ 9 := ⟨_, rfl, by omega⟩
      have hup : roundUp c = if 5 ≤ k then 1 else 0 := by
        unfold roundUp
        exact if_congr (by omega) rfl rfl
      rw [hk, hup]
      have hpow : (0 : ℚ) < 10 ^ m := by positivity
      have hrestq : (tail : ℚ) < 10 ^ m := by exact_mod_cast hrest
      have hrestnn : (0 : ℚ) ≤ tail := Nat.cast_nonneg _
      have hquot : ((head * 10 ^ (m + 1) + (k * 10 ^ m + tail) : Nat) : ℚ) / 10 ^ (m + 1) =
          head + (k + tail / 10 ^ m) / 10 := by
        push_cast
        rw [pow_succ]
        field_simp
      have htail : (tail / 10 ^ m : ℚ) < 1 := (div_lt_one hpow).mpr hrestq
      have htailnn : (0 : ℚ) ≤ tail / 10 ^ m := div_nonneg hrestnn hpow.le
      rw [hquot]
      simp only [Option.isSome_some, if_true]
      push_cast
      rw [abs_le]
      split
      · rename_i hge5
        have hk5 : (5 : ℚ) ≤ k := by exact_mod_cast hge5
        have hk9q : (k : ℚ) ≤ 9 := by exact_mod_cast hk9
        constructor <;> push_cast <;> linarith
      · rename_i hlt5
        have hk4 : (k : ℚ) ≤ 4 := by exact_mod_cast (show k ≤ 4 by omega)
        have hknn : (0 : ℚ) ≤ k := Nat.cast_nonneg _
        constructor <;> push_cast <;> linarith

/-! ## Uncertain bits -/

/-- The bits from the path with the table of powers of ten, if that is taken and certain. -/
def fastResult (d : Decimal) : Option Nat :=
  if d.sigCut = none ∧ -308 + 1 < d.exp ∧ d.exp < 308 - 20 then fastPath d.sig d.exp else none

/-- The bits that are compared with the literal, where `digi_finish` goes that far. -/
def bigRaw (d : Decimal) : Option Nat :=
  match fastResult d with
  | some _ => none
  | none =>
    let (raw, certain) := diyApproximate d.sig d.exp d.sigCut.isSome
    if raw = infRaw ∨ certain then none else some raw

/-- The ways through `digi_finish`. -/
theorem digiFinish_eq (src : Source) (d : Decimal) : digiFinish src d =
    match fastResult d with
    | some raw => raw
    | none =>
      let result := diyApproximate d.sig d.exp d.sigCut.isSome
      if result.1 = infRaw ∨ result.2 then result.1 else bigCompare src d result.1 := rfl

theorem digiFinish_big {src : Source} {raw : Nat} (h : bigRaw d = some raw) :
    digiFinish src d = bigCompare src d raw := by
  rw [digiFinish_eq]
  unfold bigRaw at h
  generalize fastResult d = fast at h ⊢
  cases fast with
  | some raw => cases h
  | none =>
      dsimp only at h ⊢
      split at h
      · cases h
      · rename_i hcertain
        rw [if_neg hcertain, Option.some.inj h]

theorem bigRaw_approximate {raw : Nat} (h : bigRaw d = some raw) :
    diyApproximate d.sig d.exp d.sigCut.isSome = (raw, false) ∧ raw ≠ infRaw := by
  unfold bigRaw at h
  generalize fastResult d = fast at h
  generalize diyApproximate d.sig d.exp d.sigCut.isSome = result at h ⊢
  obtain ⟨raw', certain⟩ := result
  cases fast with
  | some raw => cases h
  | none =>
      dsimp only at h
      split at h
      · cases h
      · rename_i hcertain
        obtain rfl := Option.some.inj h
        obtain ⟨hraw, hfalse⟩ := not_or.mp hcertain
        exact ⟨congrArg (Prod.mk raw') (Bool.eq_false_iff.mpr hfalse), hraw⟩

/-- What is on the grid has its bits, or those of infinity. -/
theorem diyFpToIeeeRaw_rawOf {M : Nat} {place : Int} (h : OnGrid M place) :
    diyFpToIeeeRaw ⟨M, place⟩ = min (rawOf M place) infRaw := by
  rcases Nat.eq_zero_or_pos M with rfl | hpos
  · have hplace : place = -1074 := h.2.2.resolve_left (by decide)
    rw [hplace]
    rfl
  · exact diyFpToIeeeRaw_eq ⟨hpos, h.1, h.2.1, h.2.2⟩

/-- A number below the least place of doubles. -/
theorem tiny_below {place : Int} (h : place < -1074) : (2 : ℚ) ^ place < value 1 := by
  have hvalue : value 1 = 2 ^ (-1074 : Int) := by
    have h := @value_rawOf 1 (-1074) ⟨by decide, by decide, .inr rfl⟩
    rwa [Nat.cast_one, one_mul] at h
  rw [hvalue]
  exact zpow_lt_zpow_right₀ (by norm_num) h

theorem value_zero : value 0 = 0 := by
  have h := @value_rawOf 0 (-1074) ⟨by decide, by decide, .inr rfl⟩
  rwa [Nat.cast_zero, zero_mul] at h

/-- Bits that are not certain are those of the double just below. -/
theorem bigRaw_some (hs : SignificantDigits p) (h : literalDecimal p = some d) {raw : Nat}
    (hraw : bigRaw d = some raw) :
    raw < infRaw ∧ value raw < p.value ∧ p.value < value (raw + 1) := by
  obtain ⟨hsig, x, hvalue, hx⟩ := literal_near hs h
  obtain ⟨-, -, hlow, hhigh, -⟩ := literalDecimal_some h
  obtain ⟨happrox, hne⟩ := bigRaw_approximate hraw
  obtain ⟨M, place, hgrid, hround⟩ := diyApproximate_spec hsig (pow10Entry hlow hhigh) hx
  rw [happrox] at hround
  rw [hvalue]
  generalize hresult : (raw, false) = result at hround
  cases hround with
  | down => cases hresult
  | up => cases hresult
  | near hbelow habove =>
      obtain ⟨rfl, -⟩ := Prod.mk.inj hresult
      rcases hgrid with ⟨hgrid, hM⟩ | ⟨htiny, -, rfl⟩
      · have hnext : OnGrid (M + 1) place := ⟨hM, hgrid.2.1, hgrid.2.2.imp_left Nat.le_succ_of_le⟩
        have hvalue := value_rawOf hgrid
        have hvalue' := value_rawOf hnext
        rw [Nat.cast_succ] at hvalue'
        rw [diyFpToIeeeRaw_rawOf hgrid] at hne ⊢
        have hmin : min (rawOf M place) infRaw = rawOf M place := Nat.min_eq_left (by omega)
        rw [hmin] at hne ⊢
        rw [rawOf_succ, hvalue, hvalue']
        exact ⟨by omega, hbelow, habove⟩
      · have hzero : diyFpToIeeeRaw ⟨0, place⟩ = 0 := rfl
        have hlt := tiny_below htiny
        rw [Nat.cast_zero, zero_add, one_mul] at habove
        rw [Nat.cast_zero, zero_mul] at hbelow
        rw [hzero, value_zero]
        exact ⟨by decide, hbelow, habove.trans hlt⟩

end SsrJson.Decode
