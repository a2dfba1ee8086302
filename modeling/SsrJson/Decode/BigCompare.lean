import SsrJson.Decode.LiteralRange

/-!
# Comparing with large integers

Where the bits of a literal are not certain, its digits and the middle between two doubles are
brought to whole numbers and compared. The operations on both are listed here; none of them loses
anything or needs a chunk too many, whatever the literal. What they start from stands for the
literal under the condition `DigitsKept` only.
-/

namespace SsrJson.Decode

open Spec Bigint

/-! ## The operations -/

section Ops

variable (src : Source) (d : Decimal) (raw : Nat)

/-- The operations of `bigint_set_buf`. -/
def setOps : List Op :=
  match d.sigCut with
  | none => [.setU64 d.sig]
  | some sigCut =>
    .setU64 (d.sig - roundUp (src.read sigCut)) ::
      setBufOps src (cutEnd d sigCut) d.dotPos (768 < cutTotal d sigCut) (cutEnd d sigCut - sigCut)
        sigCut 0 0

/-- The exponent that `bigint_set_buf` leaves. -/
def setExp : Int := (bigintSetBuf src d).2

/-- The operations on the digits of the literal. -/
def fullOps : List Op :=
  setOps src d ++
    ((if 0 ≤ setExp src d then mulPow10Ops ((setExp src d).toNat / 19 + 1) (setExp src d).toNat
      else []) ++
    if 0 < (upperBoundary raw).exp then [] else [.mulPow2 (-(upperBoundary raw).exp).toNat])

/-- The operations on the middle between two doubles. -/
def compOps : List Op :=
  .setU64 (upperBoundary raw).sig ::
    ((if 0 ≤ setExp src d then []
      else mulPow10Ops ((-setExp src d).toNat / 19 + 1) (-setExp src d).toNat) ++
    if 0 < (upperBoundary raw).exp then [.mulPow2 (upperBoundary raw).exp.toNat] else [])

theorem runAll_setOps : runAll (setOps src d) [] = (bigintSetBuf src d).1 := by
  unfold setOps
  split
  · rename_i hcut
    rw [bigintSetBuf, hcut]
    rfl
  · rename_i sigCut hcut
    rw [bigintSetBuf_some src hcut]
    exact runAll_setBuf _ _ _ _ _ _ _ _ _

/-- The bits that a comparison with the middle decides on. -/
def compared (raw : Nat) : Ordering → Nat
  | .lt => raw
  | .gt => raw + 1
  | .eq => raw + raw % 2

/-- The comparison does these operations and compares what comes out. -/
theorem bigCompare_ops : bigCompare src d raw =
    compared raw ((runAll (fullOps src d raw) []).cmp (runAll (compOps src d raw) [])) := by
  have hfull : runAll (fullOps src d raw) [] =
      let big := if 0 ≤ setExp src d then
        mulPow10 ((setExp src d).toNat / 19 + 1) (bigintSetBuf src d).1 (setExp src d).toNat
        else (bigintSetBuf src d).1
      if 0 < (upperBoundary raw).exp then big else mulPow2 big (-(upperBoundary raw).exp).toNat := by
    rw [fullOps, runAll_append, runAll_append, runAll_setOps]
    split <;> split <;> first | rfl | (rw [runAll_mulPow10]; rfl)
  have hcomp : runAll (compOps src d raw) [] =
      let big := if 0 ≤ setExp src d then [(upperBoundary raw).sig]
        else mulPow10 ((-setExp src d).toNat / 19 + 1) [(upperBoundary raw).sig]
          (-setExp src d).toNat
      if 0 < (upperBoundary raw).exp then mulPow2 big (upperBoundary raw).exp.toNat else big := by
    show runAll (_ ++ _) [(upperBoundary raw).sig] = _
    rw [runAll_append]
    split <;> split <;> first | rfl | (rw [runAll_mulPow10]; rfl)
  rw [hfull, hcomp]
  unfold bigCompare
  dsimp only
  show compared raw _ = _
  unfold setExp
  by_cases hexp : 0 ≤ (bigintSetBuf src d).2 <;> by_cases hupper : 0 < (upperBoundary raw).exp <;>
    simp only [hexp, hupper, ↓reduceIte]

end Ops

/-! ## The chunks that are needed -/

section Room

variable {src : Source} {d : Decimal} {raw : Nat}

/-- What the digits are set to: a number of so many digits that what follows has room. -/
structure SetDone (src : Source) (d : Decimal) : Prop where
  exact : AllExact (setOps src d) [] 0
  pos : 0 < resultAll (setOps src d) 0
  lt : resultAll (setOps src d) 0 < 10 ^ 770
  exp : d.exp - 750 ≤ setExp src d
  large : 0 ≤ setExp src d → resultAll (setOps src d) 0 * 10 ^ (setExp src d).toNat < 10 ^ 328

theorem setU64_exact {x : Nat} {ops : List Op} (hpos : 0 < x) (hlt : x < 2 ^ 64)
    (h : AllExact ops (ofNat x) x) : AllExact (.setU64 x :: ops) [] 0 := by
  refine ⟨ofNat_zero.symm, show 1 ≤ maxChunks by decide, ?_⟩
  show AllExact ops [x] x
  rwa [← ofNat_small hpos.ne' hlt]

/-- The rounds of `bigint_mul_pow10` that there are. -/
theorem rounds_enough (n : Nat) : n ≤ 19 * (n / 19 + 1) := by
  omega

/-- The operations on the digits, once they are set. -/
theorem fullOps_exact (h : SetDone src d) (hupper : -1075 ≤ (upperBoundary raw).exp) :
    AllExact (fullOps src d raw) [] 0 ∧ resultAll (fullOps src d raw) 0 =
      resultAll (setOps src d) 0 * 10 ^ (setExp src d).toNat *
        2 ^ (-(upperBoundary raw).exp).toNat := by
  obtain ⟨hexact, hpos, hlt, -, hlarge⟩ := h
  have hfinal := hexact.final
  rw [fullOps]
  generalize setOps src d = ops at *
  generalize setExp src d = e at *
  generalize (upperBoundary raw).exp = u at *
  generalize hn : resultAll ops 0 = n at *
  have hroom : 40 + (-u).toNat / 64 + 1 ≤ maxChunks := by
    unfold maxChunks
    omega
  -- The product with the power of ten takes 40 chunks.
  have hbits : n * 10 ^ e.toNat < 2 ^ (64 * 40) := by
    rcases lt_or_ge e 0 with hneg | hnonneg
    · rw [Int.toNat_of_nonpos hneg.le, Nat.pow_zero, Nat.mul_one]
      exact hlt.trans (by decide +kernel)
    · exact (hlarge hnonneg).trans (by decide +kernel)
  have hpow2 : AllExact (if 0 < u then [] else [.mulPow2 (-u).toNat]) (ofNat (n * 10 ^ e.toNat))
      (n * 10 ^ e.toNat) ∧ resultAll (if 0 < u then [] else [.mulPow2 (-u).toNat])
        (n * 10 ^ e.toNat) = n * 10 ^ e.toNat * 2 ^ (-u).toNat := by
    split
    · rename_i hpos
      rw [Int.toNat_of_nonpos (Int.neg_nonpos_of_nonneg hpos.le), Nat.pow_zero, Nat.mul_one]
      exact ⟨rfl, rfl⟩
    · exact ⟨mulPow2_exact (Nat.mul_pos hpos (Nat.pow_pos (by decide))) hbits hroom, rfl⟩
  have hpow10 : AllExact (if 0 ≤ e then mulPow10Ops (e.toNat / 19 + 1) e.toNat else []) (ofNat n) n ∧
      resultAll (if 0 ≤ e then mulPow10Ops (e.toNat / 19 + 1) e.toNat else []) n =
        n * 10 ^ e.toNat := by
    split
    · refine mulPow10_exact hpos (rounds_enough _) (hbits.trans ?_)
      exact (by decide +kernel)
    · rename_i hneg
      rw [Int.toNat_of_nonpos (not_le.mp hneg).le, Nat.pow_zero, Nat.mul_one]
      exact ⟨rfl, rfl⟩
  refine ⟨hexact.append ?_, ?_⟩
  · rw [hfinal, hn]
    refine hpow10.1.append ?_
    rw [hpow10.1.final, hpow10.2]
    exact hpow2.1
  · rw [resultAll_append, resultAll_append, hn, hpow10.2, hpow2.2]

/-- The operations on the middle. A middle that is not small goes with a literal whose exponent is
not small either. -/
theorem compOps_exact (hsig : 0 < (upperBoundary raw).sig) (hsig' : (upperBoundary raw).sig < 2 ^ 54)
    (hupper : (upperBoundary raw).exp ≤ 970) (hexp : -1093 ≤ setExp src d)
    (hboth : 0 < (upperBoundary raw).exp → -773 ≤ setExp src d) :
    AllExact (compOps src d raw) [] 0 ∧ resultAll (compOps src d raw) 0 =
      (upperBoundary raw).sig * 10 ^ (-setExp src d).toNat * 2 ^ (upperBoundary raw).exp.toNat := by
  rw [compOps]
  generalize setExp src d = e at *
  generalize (upperBoundary raw).exp = u at *
  generalize (upperBoundary raw).sig = n at *
  have hpower : ∀ {k}, (-e).toNat ≤ k → n * 10 ^ (-e).toNat < 2 ^ 54 * 10 ^ k := by
    intro k hk
    exact Nat.mul_lt_mul_of_lt_of_le hsig' (Nat.pow_le_pow_right (by decide) hk)
      (Nat.pow_pos (by decide))
  have hmove : 41 + u.toNat / 64 + 1 ≤ maxChunks := by
    unfold maxChunks
    omega
  have hroom : n * 10 ^ (-e).toNat < 2 ^ 4096 :=
    (hpower (show (-e).toNat ≤ 1093 by omega)).trans (by decide +kernel)
  have hpow2 : AllExact (if 0 < u then [.mulPow2 u.toNat] else []) (ofNat (n * 10 ^ (-e).toNat))
      (n * 10 ^ (-e).toNat) ∧ resultAll (if 0 < u then [.mulPow2 u.toNat] else [])
        (n * 10 ^ (-e).toNat) = n * 10 ^ (-e).toNat * 2 ^ u.toNat := by
    split
    · have hbits : n * 10 ^ (-e).toNat < 2 ^ (64 * 41) :=
        (hpower (show (-e).toNat ≤ 773 by omega)).trans (by decide +kernel)
      exact ⟨mulPow2_exact (Nat.mul_pos hsig (Nat.pow_pos (by decide))) hbits hmove, rfl⟩
    · rw [Int.toNat_of_nonpos (show u ≤ 0 by omega), Nat.pow_zero, Nat.mul_one]
      exact ⟨rfl, rfl⟩
  have hpow10 : AllExact (if 0 ≤ e then [] else mulPow10Ops ((-e).toNat / 19 + 1) (-e).toNat)
      (ofNat n) n ∧ resultAll (if 0 ≤ e then [] else mulPow10Ops ((-e).toNat / 19 + 1) (-e).toNat)
        n = n * 10 ^ (-e).toNat := by
    split
    · rw [Int.toNat_of_nonpos (show -e ≤ 0 by omega), Nat.pow_zero, Nat.mul_one]
      exact ⟨rfl, rfl⟩
    · exact mulPow10_exact hsig (rounds_enough _) hroom
  refine ⟨setU64_exact hsig (hsig'.trans (by decide)) (hpow10.1.append ?_), ?_⟩
  · rw [hpow10.1.final, hpow10.2]
    exact hpow2.1
  · show resultAll (_ ++ _) n = _
    rw [resultAll_append, hpow10.2, hpow2.2]

end Room

/-! ## The digits that are set -/

section Literal

variable {p : NumberParts} {d : Decimal}

/-- The first digit that is cut off, at its position in the literal. -/
theorem read_cutPos (h : 19 < p.significant.length) :
    (Source.ofUnits p.mantissa).read (cutPos p) = p.significant.getD 19 0 := by
  obtain ⟨c, cs, hdrop⟩ := List.exists_cons_of_length_pos
    (show 0 < (p.significant.drop 19).length by rw [List.length_drop]; omega)
  have hget : p.significant.getD 19 0 = c := by
    rw [List.getD_eq_getElem?_getD, ← List.head?_drop, hdrop]
    rfl
  have hhead : ∃ s, p.mantissa.drop (cutPos p) = c :: s := by
    cases cutText h with
    | plain htext => exact ⟨cs, htext.trans hdrop⟩
    | dotted a b htext ha hb hsplit =>
        obtain ⟨a', a, rfl⟩ := List.exists_cons_of_ne_nil ha
        rw [hdrop, List.cons_append] at hsplit
        obtain ⟨rfl, -⟩ := List.cons.inj hsplit
        exact ⟨_, htext⟩
  obtain ⟨s, hs⟩ := hhead
  have hrest : (Source.ofUnits p.mantissa).rest (cutPos p) = c :: s := hs
  rw [hget]
  exact (Source.rest_cons hrest).2.1

/-- How many digits are kept where there are too many: a dot that is left out makes it one more. -/
def keptCount (p : NumberParts) (total : Nat) : Nat := 768 + if DotLeftOut p total then 1 else 0

theorem mul_ten_lt {n k : Nat} (h : n < 10 ^ k) : n * 10 + 1 < 10 ^ (k + 1) := by
  rw [Nat.pow_succ]
  omega

theorem keptCount_le (p : NumberParts) (total : Nat) : keptCount p total ≤ 769 := by
  unfold keptCount
  split <;> decide

theorem keptCount_lt (p : NumberParts) {total : Nat} (h : 768 < total) :
    keptCount p total < total := by
  unfold keptCount
  by_cases hdot : DotLeftOut p total
  · have hlt := hdot.2
    rw [if_pos hdot]
    omega
  · rw [if_neg hdot]
    exact h

/-- What the digits of a literal are set to. -/
structure SetNumber (p : NumberParts) (d : Decimal) (n : Nat) (e : Int) : Prop where
  pos : 0 < n
  lt : n < 10 ^ 770
  large : 0 ≤ e → n * 10 ^ e.toNat < 10 ^ 328
  few : d.sigCut = none ∨ p.significant.length ≤ 768 → p.value = n * 10 ^ e ∧ d.exp - 750 ≤ e
  many : d.sigCut ≠ none → 768 < p.significant.length →
    n = digitsVal (p.significant.take (keptCount p p.significant.length)) * 10 + 1 ∧
      e = d.exp - 750

theorem markCut_snoc {cut : Bool} {v c : Nat} (hc : c < 10) (hcut : cut = true) :
    markCut cut (v * 10 + c) = v * 10 + 1 := by
  unfold markCut
  rw [if_pos hcut]
  omega

/-- The digits are set to a number that has room. -/
theorem setOps_literal {t : List Nat} (ht : p.IsText t) (h : literalDecimal p = some d)
    (hlength : d.sigCut = none ∨ p.significant.length < 2 ^ 32) :
    AllExact (setOps (.ofUnits p.mantissa) d) [] 0 ∧
      SetNumber p d (resultAll (setOps (.ofUnits p.mantissa) d) 0)
        (setExp (.ofUnits p.mantissa) d) := by
  have hs := significantDigits ht
  obtain ⟨-, -, hlow, hhigh, -⟩ := literalDecimal_some h
  rcases literalDecimal_cases hs h with ⟨hcut, huncut⟩ | hcut
  · -- The significand has all digits.
    have hset : setOps (.ofUnits p.mantissa) d = [.setU64 d.sig] := by rw [setOps, hcut]
    have hexp : setExp (.ofUnits p.mantissa) d = d.exp := by rw [setExp, bigintSetBuf, hcut]
    rw [hset, hexp]
    refine ⟨setU64_exact huncut.pos (huncut.lt.trans (by decide)) rfl, huncut.pos, ?_, ?_, ?_, ?_⟩
    · exact huncut.lt.trans (by decide +kernel)
    · intro hnonneg
      have hpow : 10 ^ d.exp.toNat ≤ 10 ^ 308 := Nat.pow_le_pow_right (by decide) (by omega)
      exact (Nat.mul_lt_mul_of_lt_of_le huncut.lt hpow (Nat.pow_pos (by decide))).trans
        (by decide +kernel)
    · exact fun _ => ⟨huncut.value, by omega⟩
    · exact fun hsome => absurd hcut hsome
  · have hlong := hcut.long
    have hlt : p.significant.length < 2 ^ 32 := hlength.resolve_left (by rw [hcut.sigCut]; nofun)
    have hge : 10 ^ 18 ≤ digitsVal (p.significant.take 19) := hs.take_ge (by omega)
    have hhead := hs.take_lt 19
    have hpos : 0 < digitsVal (p.significant.take 19) := by omega
    have htotal := cutTotal_eq hlong hcut.sigEnd hcut.dotPos
    obtain ⟨hresult, hexact⟩ :=
      setBuf_literal hlong (intPart_digits ht.int) ht.frac hcut.sigEnd hcut.dotPos hpos
    rw [Nat.mod_eq_of_lt hlt] at htotal hresult hexact
    have hsig : d.sig - roundUp ((Source.ofUnits p.mantissa).read (cutPos p)) =
        digitsVal (p.significant.take 19) := by
      rw [read_cutPos hlong, hcut.sig, Nat.add_sub_cancel]
    have hset : setOps (.ofUnits p.mantissa) d =
        .setU64 (digitsVal (p.significant.take 19)) ::
          setBufOps (.ofUnits p.mantissa) (cutEnd d (cutPos p)) d.dotPos
            (768 < p.significant.length) (cutEnd d (cutPos p) - cutPos p) (cutPos p) 0 0 := by
      unfold setOps
      rw [hcut.sigCut]
      dsimp only
      rw [hsig, htotal]
    have hexp : setExp (.ofUnits p.mantissa) d = d.exp -
        (((if 768 < p.significant.length then 769 else p.significant.length : Nat) : Int) - 19) := by
      rw [setExp, bigintSetBuf_some _ hcut.sigCut, htotal]
    have hnumber : digitsVal (p.significant.take (19 + takenCount p p.significant.length)) <
        10 ^ 770 := by
      refine (hs.take_lt _).trans_le (Nat.pow_le_pow_right (by decide) ?_)
      unfold takenCount
      split_ifs <;> omega
    have hroom : digitsVal (p.significant.take (19 + takenCount p p.significant.length)) + 1 <
        2 ^ 4096 :=
      (Nat.succ_le_of_lt hnumber).trans_lt (by decide +kernel)
    have hall : resultAll (setOps (.ofUnits p.mantissa) d) 0 =
        markCut (768 < p.significant.length)
          (digitsVal (p.significant.take (19 + takenCount p p.significant.length))) := by
      rw [hset]
      exact hresult
    refine ⟨?_, ?_⟩
    · rw [hset]
      exact setU64_exact hpos (hhead.trans (by decide)) (hexact hroom)
    · rw [hall, hexp]
      rcases Nat.lt_or_ge 768 p.significant.length with hmany | hfew
      · -- The last digit that is taken becomes a one.
        have hkept : 19 + takenCount p p.significant.length =
            keptCount p p.significant.length + 1 := by
          unfold takenCount keptCount
          rw [if_neg (Nat.not_le.mpr hmany)]
          omega
        have hkeptle := keptCount_lt p hmany
        have hsnoc : digitsVal (p.significant.take (keptCount p p.significant.length + 1)) =
            digitsVal (p.significant.take (keptCount p p.significant.length)) * 10 +
              (p.significant[keptCount p p.significant.length] - 0x30) := by
          rw [← digitsVal_snoc, List.take_succ_eq_append_getElem hkeptle]
        have hdigit := isDigit_iff.mp (hs.digit _ (List.getElem_mem hkeptle))
        have hmark : markCut (768 < p.significant.length)
            (digitsVal (p.significant.take (19 + takenCount p p.significant.length))) =
              digitsVal (p.significant.take (keptCount p p.significant.length)) * 10 + 1 := by
          rw [hkept, hsnoc]
          exact markCut_snoc (by omega) (decide_eq_true hmany)
        have hkeptlt := hs.take_lt (keptCount p p.significant.length)
        have hkept769 : 10 ^ (keptCount p p.significant.length + 1) ≤ 10 ^ 770 :=
          Nat.pow_le_pow_right (by decide) (Nat.succ_le_succ (keptCount_le p _))
        rw [hmark, if_pos hmany]
        refine ⟨Nat.succ_pos _, ?_, fun hnonneg => ?_, fun hfew => ?_, fun _ _ => ⟨rfl, by omega⟩⟩
        · exact (mul_ten_lt hkeptlt).trans_le hkept769
        · omega
        · exact absurd hfew (not_or.mpr ⟨by rw [hcut.sigCut]; nofun, by omega⟩)
      · -- All digits are taken.
        have htake : 19 + takenCount p p.significant.length = p.significant.length := by
          unfold takenCount
          rw [if_pos hfew]
          omega
        have hnumlt := hs.take_lt p.significant.length
        have hnumpos := hs.take_ge (show p.significant.length - 1 < p.significant.length by omega)
        rw [Nat.sub_add_cancel (by omega), List.take_length] at hnumpos
        rw [List.take_length] at hnumlt
        rw [htake, List.take_length, if_neg (Nat.not_lt.mpr hfew), markCut,
          if_neg (by simpa using hfew)]
        refine ⟨(Nat.pow_pos (by decide)).trans_le hnumpos, ?_, fun hnonneg => ?_, fun _ => ?_,
          fun _ hmany => absurd hmany (Nat.not_lt.mpr hfew)⟩
        · exact hnumlt.trans_le (Nat.pow_le_pow_right (by decide) (hfew.trans (by decide)))
        · obtain ⟨e, he⟩ := Int.eq_ofNat_of_zero_le hnonneg
          rw [he, Int.toNat_natCast]
          calc digitsVal p.significant * 10 ^ e < 10 ^ p.significant.length * 10 ^ e :=
                Nat.mul_lt_mul_of_pos_right hnumlt (Nat.pow_pos (by decide))
            _ ≤ 10 ^ 328 := by
                rw [← Nat.pow_add]
                exact Nat.pow_le_pow_right (by decide) (by omega)
        · refine ⟨?_, by omega⟩
          rw [value_eq, hcut.exp]
          congr 2
          omega

/-! ## What the numbers stand for -/

/-- Either no digit is left out, or there are others than zeros among those that are, and the dot is
in front of them. -/
def DigitsKept (p : NumberParts) : Prop :=
  (p.significant.drop 19).all (· == 0x30) = true ∨ p.significant.length ≤ 768 ∨
    p.significant.length < 2 ^ 32 ∧ ¬ DotLeftOut p p.significant.length ∧
      (p.significant.drop 768).all (· == 0x30) = false

/-- A literal of too many digits in last places of those that are kept. -/
theorem value_split (hs : SignificantDigits p) (k : Nat) : ∃ r : ℚ,
    p.value = (digitsVal (p.significant.take k) + r) *
      10 ^ (p.lastExp + (p.significant.length - k : Nat)) ∧ 0 ≤ r ∧ r < 1 ∧
      (r = 0 ↔ (p.significant.drop k).all (· == 0x30) = true) := by
  have hrest : digitsVal (p.significant.drop k) < 10 ^ (p.significant.length - k) := by
    have hlt := digitsVal_lt fun a ha => hs.digit a (List.mem_of_mem_drop (i := k) ha)
    rwa [List.length_drop] at hlt
  have hpow : (0 : ℚ) < 10 ^ (p.significant.length - k) := by positivity
  refine ⟨digitsVal (p.significant.drop k) / 10 ^ (p.significant.length - k), ?_, ?_, ?_, ?_⟩
  · rw [value_eq, significant_split p k, zpow_add₀ (by norm_num), zpow_natCast]
    push_cast
    field_simp
  · positivity
  · rw [div_lt_one hpow]
    exact_mod_cast hrest
  · rw [div_eq_zero_iff, or_iff_left hpow.ne', Nat.cast_eq_zero]
    constructor
    · intro hzero
      by_contra hne
      have hpos := digitsVal_pos (fun a ha => hs.digit a (List.mem_of_mem_drop (i := k) ha))
        (Bool.eq_false_iff.mpr hne)
      omega
    · exact digitsVal_zeros

/-- The number that is set stands for the literal exactly when the digits are kept. -/
theorem SetNumber.stands {n : Nat} {e : Int} (hs : SignificantDigits p) (hcut : CutDecimal p d)
    (hset : SetNumber p d n e) (hlt : p.significant.length < 2 ^ 32) :
    StandsFor 767 p.value (n * 10 ^ e) ↔ DigitsKept p := by
  have hsome : d.sigCut ≠ none := by
    rw [hcut.sigCut]
    nofun
  rcases Nat.lt_or_ge 768 p.significant.length with hmany | hfew
  · obtain ⟨rfl, rfl⟩ := hset.many hsome hmany
    have hkept : DigitsKept p ↔ ¬ DotLeftOut p p.significant.length ∧
        (p.significant.drop 768).all (· == 0x30) = false := by
      unfold DigitsKept
      rw [hcut.cut, or_iff_right Bool.false_ne_true, or_iff_right (Nat.not_le.mpr hmany),
        and_iff_right hlt]
    obtain ⟨r, hvalue, hr, hr', hzero⟩ := value_split hs (keptCount p p.significant.length)
    have hplace : p.lastExp + (p.significant.length - keptCount p p.significant.length : Nat) =
        d.exp - 750 + 1 + (768 - keptCount p p.significant.length : Int) := by
      have hkept := keptCount_lt p hmany
      rw [hcut.exp]
      omega
    rw [hkept, hvalue, hplace]
    have hge := hs.take_ge (show 767 < p.significant.length by omega)
    generalize d.exp - 750 = e
    have hten : (0 : ℚ) < 10 ^ e := by positivity
    by_cases hdot : DotLeftOut p p.significant.length
    · -- The digits are one too many for the exponent.
      have hcount : keptCount p p.significant.length = 769 := by rw [keptCount, if_pos hdot]
      refine iff_of_false ?_ (fun h => h.1 hdot)
      have hge' : 10 ^ 768 ≤ digitsVal (p.significant.take 769) :=
        hs.take_ge (by have := hdot.2; omega)
      rw [hcount, show e + 1 + (768 - (769 : Nat) : Int) = e by omega]
      push_cast
      have hone : (1 : ℚ) ≤ digitsVal (p.significant.take 769) := by
        exact_mod_cast (Nat.one_le_pow 768 10 (by decide)).trans hge'
      generalize (digitsVal (p.significant.take 769) : ℚ) = T at hone
      have hfar : 2 * ((T + r) * 10 ^ e) ≤ (T * 10 + 1) * 10 ^ e := by
        rw [← mul_assoc]
        exact mul_le_mul_of_nonneg_right (by linarith) hten.le
      have hpos : 0 < (T + r) * 10 ^ e := mul_pos (by linarith) hten
      rintro (heq | hsame)
      · linarith
      · exact absurd hsame.lt_two_mul (not_lt.mpr hfar)
    · have hcount : keptCount p p.significant.length = 768 := by rw [keptCount, if_neg hdot]
      rw [hcount] at hzero ⊢
      rw [and_iff_right hdot, show e + 1 + (768 - (768 : Nat) : Int) = e + 1 by omega,
        zpow_add_one₀ (by norm_num)]
      have hlt768 := hs.take_lt 768
      generalize digitsVal (p.significant.take 768) = T at *
      have hnumber : ((T * 10 + 1 : Nat) : ℚ) * 10 ^ e = (T + 1 / 10) * (10 ^ e * 10) := by
        push_cast
        ring
      rw [hnumber, ← zpow_add_one₀ (by norm_num)]
      have hten' : (0 : ℚ) < 10 ^ (e + 1) := by positivity
      by_cases hall : (p.significant.drop 768).all (· == 0x30) = true
      · -- Zeros are left out, and the one in their place is wrong.
        rw [hzero.mpr hall, add_zero]
        refine iff_of_false ?_ (by rw [hall]; nofun)
        rintro (heq | hsame)
        · have heq' := mul_right_cancel₀ hten'.ne' heq
          linarith
        · exact not_sameInterval hlt768 hsame
      · have hrpos : 0 < r := lt_of_le_of_ne hr fun h => hall (hzero.mp h.symm)
        refine iff_of_true (.inr ⟨T, e + 1, hge, ⟨?_, ?_⟩, ?_, ?_⟩) (Bool.eq_false_iff.mpr hall)
        all_goals
          refine mul_lt_mul_of_pos_right ?_ hten'
          linarith
  · obtain ⟨hvalue, -⟩ := hset.few (.inr hfew)
    exact iff_of_true (.inl hvalue.symm) (.inr (.inl hfew))

end Literal

end SsrJson.Decode
