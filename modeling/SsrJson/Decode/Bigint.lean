import Mathlib.Data.Nat.Digits.Lemmas
import Mathlib.Tactic.Ring
import SsrJson.Decode.Number

/-!
# Large integers of the number reader

The chunks of a `bigint` are the digits of a number in base `2 ^ 64`. Every operation takes the
digits of a number to the digits of the number it computes: the carries that are dropped, the zeros
that are passed over and the chunks that are moved change nothing about that.
-/

namespace SsrJson.Decode.Bigint

/-- The chunks of a number. -/
def ofNat (v : Nat) : Bigint := Nat.digits (2 ^ 64) v

theorem ofNat_zero : ofNat 0 = [] := Nat.digits_zero _

theorem ofNat_small {v : Nat} (hpos : v ≠ 0) (hlt : v < 2 ^ 64) : ofNat v = [v] :=
  Nat.digits_of_lt _ v hpos hlt

/-- The lowest chunk and the others. -/
theorem ofNat_cons {v : Nat} (hpos : v ≠ 0) :
    ofNat v = v % 2 ^ 64 :: ofNat (v / 2 ^ 64) :=
  Nat.digits_eq_cons_digits_div (by decide) hpos

/-- The chunks a number takes. -/
theorem length_ofNat_le {v n : Nat} : (ofNat v).length ≤ n ↔ v < 2 ^ (64 * n) := by
  rw [Nat.pow_mul]
  exact Nat.digits_length_le_iff (by decide) v

/-! ## Sums -/

/-- A carry of one. -/
theorem carryOne_ofNat (v : Nat) : carryOne (ofNat v) = ofNat (v + 1) := by
  induction v using Nat.strong_induction_on with
  | _ v ih =>
      rcases Nat.eq_zero_or_pos v with rfl | hpos
      · rw [ofNat_zero, carryOne, ofNat_small (by decide) (by decide)]
      · rw [ofNat_cons hpos.ne', carryOne, ofNat_cons (Nat.succ_ne_zero v)]
        have hlt := Nat.mod_lt v (show 0 < 2 ^ 64 by decide)
        unfold u64Max
        by_cases hmax : v % 2 ^ 64 = 2 ^ 64 - 1
        · rw [if_neg (by simpa using hmax), ih _ (Nat.div_lt_self hpos (by decide)),
            show (v + 1) % 2 ^ 64 = 0 by omega, show (v + 1) / 2 ^ 64 = v / 2 ^ 64 + 1 by omega]
        · rw [if_pos hmax, show (v + 1) % 2 ^ 64 = v % 2 ^ 64 + 1 by omega,
            show (v + 1) / 2 ^ 64 = v / 2 ^ 64 by omega]

/-- `bigint_add_u64`: a sum that is less than one of its terms has lost a carry. -/
theorem addU64_ofNat {v x : Nat} (hpos : 0 < v) (hx : x < 2 ^ 64) :
    addU64 (ofNat v) x = ofNat (v + x) := by
  have hlt := Nat.mod_lt v (show 0 < 2 ^ 64 by decide)
  have hsum : (v % 2 ^ 64 + x) % 2 ^ 64 = (v + x) % 2 ^ 64 := by omega
  rw [ofNat_cons hpos.ne', addU64, ofNat_cons (show v + x ≠ 0 by omega), hsum]
  by_cases hcarry : v % 2 ^ 64 ≤ (v + x) % 2 ^ 64 ∨ x ≤ (v + x) % 2 ^ 64
  · rw [if_pos hcarry, show (v + x) / 2 ^ 64 = v / 2 ^ 64 by omega]
  · rw [if_neg hcarry, carryOne_ofNat, show (v + x) / 2 ^ 64 = v / 2 ^ 64 + 1 by omega]

/-! ## Products -/

/-- The products of the chunks, each with the carry of the one below. -/
theorem mulCarry_ofNat {val : Nat} (hpos : 0 < val) (hval : val < 2 ^ 64) (v : Nat) {carry : Nat}
    (hcarry : carry < 2 ^ 64) : mulCarry val carry (ofNat v) = ofNat (v * val + carry) := by
  induction v using Nat.strong_induction_on generalizing carry with
  | _ v ih =>
      rcases Nat.eq_zero_or_pos v with rfl | hv
      · rw [ofNat_zero, mulCarry, Nat.zero_mul, Nat.zero_add]
        by_cases hzero : carry = 0
        · rw [if_neg (by simpa using hzero), hzero, ofNat_zero]
        · rw [if_pos hzero, ofNat_small hzero hcarry]
      · have hlt := Nat.mod_lt v (show 0 < 2 ^ 64 by decide)
        have hsplit : v * val + carry =
            2 ^ 64 * (v / 2 ^ 64 * val) + (v % 2 ^ 64 * val + carry) := by
          conv_lhs => rw [← Nat.div_add_mod v (2 ^ 64)]
          ring
        have hnext : (v % 2 ^ 64 * val + carry) / 2 ^ 64 < 2 ^ 64 := by
          refine Nat.div_lt_of_lt_mul ?_
          calc v % 2 ^ 64 * val + carry < v % 2 ^ 64 * 2 ^ 64 + 2 ^ 64 :=
                Nat.add_lt_add_of_le_of_lt (Nat.mul_le_mul_left _ hval.le) hcarry
            _ = (v % 2 ^ 64 + 1) * 2 ^ 64 := by ring
            _ ≤ 2 ^ 64 * 2 ^ 64 := Nat.mul_le_mul_right _ hlt
        have hproduct := Nat.mul_pos hv hpos
        rw [ofNat_cons hv.ne', mulCarry, ih _ (Nat.div_lt_self hv (by decide)) hnext,
          ofNat_cons (show v * val + carry ≠ 0 by omega), hsplit, Nat.mul_add_mod,
          Nat.mul_add_div (by decide)]

/-- `bigint_mul_u64`: the lowest chunks stay if they are zero. -/
theorem mulU64_ofNat {val : Nat} (hpos : 0 < val) (hval : val < 2 ^ 64) (v : Nat) :
    mulU64 val (ofNat v) = ofNat (v * val) := by
  induction v using Nat.strong_induction_on with
  | _ v ih =>
      rcases Nat.eq_zero_or_pos v with rfl | hv
      · rw [ofNat_zero, mulU64, Nat.zero_mul, ofNat_zero]
      · have hproduct := Nat.mul_pos hv hpos
        have hcarry := mulCarry_ofNat hpos hval v (show 0 < 2 ^ 64 by decide)
        rw [ofNat_cons hv.ne'] at hcarry ⊢
        rw [mulU64]
        by_cases hzero : v % 2 ^ 64 = 0
        · have hsplit : v * val = 2 ^ 64 * (v / 2 ^ 64 * val) := by
            conv_lhs => rw [← Nat.div_add_mod v (2 ^ 64), hzero]
            ring
          rw [if_pos hzero, ih _ (Nat.div_lt_self hv (by decide)), ofNat_cons hproduct.ne', hsplit,
            Nat.mul_mod_right, Nat.mul_div_cancel_left _ (by decide)]
        · rw [if_neg hzero, hcarry, Nat.add_zero]

theorem pow10_lt {k : Nat} (hk : k ≤ 19) : 10 ^ k < 2 ^ 64 :=
  (Nat.pow_le_pow_right (by decide) hk).trans_lt (by decide)

/-! ## Shifts -/

/-- The chunks shifted by less than a chunk, with what comes from the chunk below. -/
theorem shiftChunks_ofNat {shft : Nat} (hpos : 0 < shft) (hlt : shft < 64) (v : Nat) {prev : Nat}
    (hprev : prev < 2 ^ 64) :
    shiftChunks shft prev (ofNat v) = ofNat (v * 2 ^ shft + prev / 2 ^ (64 - shft)) := by
  have hpow : 2 ^ 64 = 2 ^ (64 - shft) * 2 ^ shft := by
    rw [← Nat.pow_add]
    congr 1
    omega
  induction v using Nat.strong_induction_on generalizing prev with
  | _ v ih =>
      have hcarry : prev / 2 ^ (64 - shft) < 2 ^ shft :=
        Nat.div_lt_of_lt_mul (by rw [← hpow]; exact hprev)
      rcases Nat.eq_zero_or_pos v with rfl | hv
      · rw [ofNat_zero, shiftChunks, Nat.shiftRight_eq_div_pow, Nat.zero_mul, Nat.zero_add]
        by_cases hzero : prev / 2 ^ (64 - shft) = 0
        · rw [hzero, if_neg (Nat.lt_irrefl 0), ofNat_zero]
        · have hsmall := hcarry.trans (Nat.pow_lt_pow_right (show 1 < 2 by decide) hlt)
          rw [if_pos (Nat.pos_of_ne_zero hzero), ofNat_small hzero hsmall]
      · have hmod := Nat.mod_lt v (show 0 < 2 ^ 64 by decide)
        have hv' := Nat.mul_pos hv (Nat.two_pow_pos shft)
        generalize hchunk : v % 2 ^ 64 = chunk at hmod
        -- The bits of the chunk that stay, and in front of them those of the chunk below.
        have hstay : chunk % 2 ^ (64 - shft) * 2 ^ shft + prev / 2 ^ (64 - shft) < 2 ^ 64 := by
          have hlow := Nat.mod_lt chunk (Nat.two_pow_pos (64 - shft))
          calc chunk % 2 ^ (64 - shft) * 2 ^ shft + prev / 2 ^ (64 - shft) <
                chunk % 2 ^ (64 - shft) * 2 ^ shft + 2 ^ shft := Nat.add_lt_add_left hcarry _
            _ = (chunk % 2 ^ (64 - shft) + 1) * 2 ^ shft := by ring
            _ ≤ 2 ^ (64 - shft) * 2 ^ shft := Nat.mul_le_mul_right _ hlow
            _ = 2 ^ 64 := hpow.symm
        have hor : shl64 chunk shft ||| prev >>> (64 - shft) =
            chunk % 2 ^ (64 - shft) * 2 ^ shft + prev / 2 ^ (64 - shft) := by
          rw [shl64, Nat.shiftLeft_eq, Nat.shiftRight_eq_div_pow, hpow, Nat.mul_mod_mul_right,
            ← Nat.shiftLeft_eq, Nat.shiftLeft_add_eq_or_of_lt hcarry]
        have hsplit : v * 2 ^ shft + prev / 2 ^ (64 - shft) =
            2 ^ 64 * (v / 2 ^ 64 * 2 ^ shft + chunk / 2 ^ (64 - shft)) +
              (chunk % 2 ^ (64 - shft) * 2 ^ shft + prev / 2 ^ (64 - shft)) := by
          have hbits := Nat.div_add_mod chunk (2 ^ (64 - shft))
          conv_lhs => rw [← Nat.div_add_mod v (2 ^ 64), hchunk, ← hbits]
          rw [hpow]
          ring
        rw [ofNat_cons hv.ne', hchunk, shiftChunks, ih _ (Nat.div_lt_self hv (by decide)) hmod,
          hor, ofNat_cons (Nat.add_pos_left hv' _).ne', hsplit,
          Nat.mul_add_mod, Nat.mul_add_div (by decide), Nat.mod_eq_of_lt hstay,
          Nat.div_eq_of_lt hstay, Nat.add_zero]

/-- `bigint_mul_pow2`: whole chunks are moved, the bits of the rest shifted. -/
theorem mulPow2_ofNat {v : Nat} (hpos : 0 < v) (exp : Nat) :
    mulPow2 (ofNat v) exp = ofNat (v * 2 ^ exp) := by
  have hsplit : v * 2 ^ exp = (2 ^ 64) ^ (exp / 64) * (v * 2 ^ (exp % 64)) := by
    conv_lhs => rw [← Nat.div_add_mod exp 64, Nat.pow_add, Nat.pow_mul]
    ring
  unfold mulPow2
  dsimp only
  rw [hsplit]
  have hmove : ∀ w, 0 < w → List.replicate (exp / 64) 0 ++ ofNat w =
      ofNat ((2 ^ 64) ^ (exp / 64) * w) := fun w hw =>
    (Nat.digits_base_pow_mul (by decide) hw).symm
  by_cases hzero : exp % 64 = 0
  · rw [if_pos hzero, hmove v hpos, hzero, Nat.pow_zero, Nat.mul_one]
  · have hshift := shiftChunks_ofNat (Nat.pos_of_ne_zero hzero) (Nat.mod_lt exp (by decide)) v
      (show 0 < 2 ^ 64 by decide)
    rw [Nat.zero_div, Nat.add_zero] at hshift
    rw [if_neg hzero, hshift, hmove _ (Nat.mul_pos hpos (Nat.two_pow_pos _))]

/-! ## Comparison -/

/-- Chunks compared from the highest one down. -/
theorem cmpDown_append (as bs : List Nat) (hlength : as.length = bs.length) (a b : Nat) :
    cmpDown (as ++ [a]) (bs ++ [b]) = (cmpDown as bs).then (compare a b) := by
  induction as generalizing bs with
  | nil =>
      obtain rfl := List.length_eq_zero_iff.mp hlength.symm
      have hnil : cmpDown [] [] = .eq := rfl
      rw [List.nil_append, List.nil_append, cmpDown, hnil, Ordering.eq_then, Nat.compare_eq_ite_lt]
  | cons x as ih =>
      obtain ⟨y, bs, rfl⟩ := List.exists_cons_of_length_pos
        (show 0 < bs.length by rw [← hlength]; exact Nat.succ_pos _)
      rw [List.cons_append, List.cons_append, cmpDown, cmpDown]
      split
      · rfl
      · split
        · rfl
        · exact ih bs (Nat.succ.inj hlength)

theorem cmpDown_ofNat {a b : Nat} (hlength : (ofNat a).length = (ofNat b).length) :
    cmpDown (ofNat a).reverse (ofNat b).reverse = compare a b := by
  induction a using Nat.strong_induction_on generalizing b with
  | _ a ih =>
      rcases Nat.eq_zero_or_pos a with rfl | ha
      · rw [ofNat_zero, List.length_nil] at hlength
        have hb : ofNat b = [] := List.length_eq_zero_iff.mp hlength.symm
        obtain rfl : b = 0 := Nat.digits_eq_nil_iff_eq_zero.mp hb
        rw [ofNat_zero]
        rfl
      · have hb : b ≠ 0 := by
          rintro rfl
          rw [ofNat_zero, ofNat_cons ha.ne'] at hlength
          cases hlength
        rw [ofNat_cons ha.ne', ofNat_cons hb, List.length_cons, List.length_cons] at hlength
        have hrest := ih _ (Nat.div_lt_self ha (by decide)) (Nat.succ.inj hlength)
        rw [ofNat_cons ha.ne', ofNat_cons hb, List.reverse_cons, List.reverse_cons,
          cmpDown_append _ _ (by rw [List.length_reverse, List.length_reverse]; omega), hrest]
        rcases Nat.lt_trichotomy (a / 2 ^ 64) (b / 2 ^ 64) with hlt | heq | hlt
        · rw [Nat.compare_eq_lt.mpr hlt, Nat.compare_eq_lt.mpr (show a < b by omega)]
          rfl
        · rw [heq, Nat.compare_eq_eq.mpr rfl, Ordering.eq_then, Nat.compare_eq_ite_lt,
            Nat.compare_eq_ite_lt]
          simp only [show (a % 2 ^ 64 < b % 2 ^ 64) = (a < b) from propext (by omega),
            show (b % 2 ^ 64 < a % 2 ^ 64) = (b < a) from propext (by omega)]
        · rw [Nat.compare_eq_gt.mpr hlt, Nat.compare_eq_gt.mpr (show b < a by omega)]
          rfl

/-- `bigint_cmp`. -/
theorem cmp_ofNat (a b : Nat) : cmp (ofNat a) (ofNat b) = compare a b := by
  have hmono : ∀ {x y : Nat}, x ≤ y → (ofNat x).length ≤ (ofNat y).length := fun h =>
    Nat.le_length_digits_le _ _ _ h
  unfold cmp
  split
  · rename_i hlt
    have hab : a < b := Nat.lt_of_not_le fun h => absurd (hmono h) (Nat.not_le.mpr hlt)
    exact (Nat.compare_eq_lt.mpr hab).symm
  · split
    · rename_i hlt
      have hab : b < a := Nat.lt_of_not_le fun h => absurd (hmono h) (Nat.not_le.mpr hlt)
      exact (Nat.compare_eq_gt.mpr hab).symm
    · exact cmpDown_ofNat (by omega)

/-! ## Sequences of operations -/

/-- An operation on a large integer. -/
inductive Op where
  | setU64 (val : Nat)
  | addU64 (val : Nat)
  | mulU64 (val : Nat)
  | mulPow2 (exp : Nat)
  deriving DecidableEq, Repr

/-- What the operation does to the chunks. -/
def Op.run : Op → Bigint → Bigint
  | .setU64 val, _ => [val]
  | .addU64 val, big => Bigint.addU64 big val
  | .mulU64 val, big => Bigint.mulU64 val big
  | .mulPow2 exp, big => Bigint.mulPow2 big exp

/-- What it computes. -/
def Op.result : Op → Nat → Nat
  | .setU64 val, _ => val
  | .addU64 val, v => v + val
  | .mulU64 val, v => v * val
  | .mulPow2 exp, v => v * 2 ^ exp

/-- The chunks it stores to. A shift by less than a chunk clears the one behind those in use. -/
def Op.room : Op → Bigint → Nat
  | .mulPow2 exp, big => big.length + exp / 64 + if exp % 64 = 0 then 0 else 1
  | op, big => (op.run big).length

/-- `BIGINT_MAX_CHUNKS`. -/
def maxChunks : Nat := 64

/-- One operation after the other. -/
def runAll (ops : List Op) (big : Bigint) : Bigint := ops.foldl (fun big op => op.run big) big

/-- What they compute. -/
def resultAll (ops : List Op) (v : Nat) : Nat := ops.foldl (fun v op => op.result v) v

/-- Every operation finds the chunks of a number, keeps to the chunks there are, and leaves those of
the number it computes. -/
def AllExact : List Op → Bigint → Nat → Prop
  | [], big, v => big = ofNat v
  | op :: ops, big, v =>
    big = ofNat v ∧ op.room big ≤ maxChunks ∧ AllExact ops (op.run big) (op.result v)

/-- The rounds of `bigint_mul_pow10`. -/
def mulPow10Ops : (fuel exp : Nat) → List Op
  | 0, _ => []
  | fuel + 1, exp =>
    if 19 ≤ exp then .mulU64 (10 ^ 19) :: mulPow10Ops fuel (exp - 19)
    else if exp ≠ 0 then [.mulU64 (10 ^ exp)] else []

theorem runAll_append (ops ops' : List Op) (big : Bigint) :
    runAll (ops ++ ops') big = runAll ops' (runAll ops big) := List.foldl_append

theorem resultAll_append (ops ops' : List Op) (v : Nat) :
    resultAll (ops ++ ops') v = resultAll ops' (resultAll ops v) := List.foldl_append

theorem runAll_mulPow10 (fuel exp : Nat) (big : Bigint) :
    runAll (mulPow10Ops fuel exp) big = mulPow10 fuel big exp := by
  induction fuel generalizing exp big with
  | zero => rfl
  | succ fuel ih =>
      rw [mulPow10Ops, mulPow10]
      split
      · exact ih _ _
      · split <;> rfl

theorem AllExact.start {ops : List Op} {big : Bigint} {v : Nat} (h : AllExact ops big v) :
    big = ofNat v := by
  cases ops with
  | nil => exact h
  | cons op ops => exact h.1

/-- The last chunks are those of the number that was computed. -/
theorem AllExact.final {ops : List Op} {big : Bigint} {v : Nat} (h : AllExact ops big v) :
    runAll ops big = ofNat (resultAll ops v) := by
  induction ops generalizing big v with
  | nil => exact h
  | cons op ops ih => exact ih h.2.2

theorem AllExact.append {ops ops' : List Op} {big : Bigint} {v : Nat} (h : AllExact ops big v)
    (h' : AllExact ops' (runAll ops big) (resultAll ops v)) : AllExact (ops ++ ops') big v := by
  induction ops generalizing big v with
  | nil => exact h'
  | cons op ops ih => exact ⟨h.1, h.2.1, ih h.2.2 h'⟩

/-- What is computed along the way is exact, too. -/
theorem AllExact.left {ops ops' : List Op} {big : Bigint} {v : Nat}
    (h : AllExact (ops ++ ops') big v) : AllExact ops big v := by
  induction ops generalizing big v with
  | nil => exact h.start
  | cons op ops ih => exact ⟨h.1, h.2.1, ih h.2.2⟩

theorem length_shiftChunks_le (shft prev : Nat) (chunks : List Nat) :
    (shiftChunks shft prev chunks).length ≤ chunks.length + 1 := by
  induction chunks generalizing prev with
  | nil =>
      rw [shiftChunks]
      split <;> simp
  | cons chunk chunks ih =>
      rw [shiftChunks, List.length_cons, List.length_cons]
      exact Nat.succ_le_succ (ih chunk)

/-- What is left is stored. -/
theorem Op.length_run_le (op : Op) (big : Bigint) : (op.run big).length ≤ op.room big := by
  cases op with
  | setU64 val => exact Nat.le_refl _
  | addU64 val => exact Nat.le_refl _
  | mulU64 val => exact Nat.le_refl _
  | mulPow2 exp =>
      show (Bigint.mulPow2 big exp).length ≤
        big.length + exp / 64 + (if exp % 64 = 0 then 0 else 1)
      rw [Bigint.mulPow2, List.length_append, List.length_replicate]
      have hle := length_shiftChunks_le (exp % 64) 0 big
      split <;> omega

/-- The chunks in the end are there. -/
theorem AllExact.fits {ops : List Op} {big : Bigint} {v : Nat} (h : AllExact ops big v)
    (hbig : big.length ≤ maxChunks) : (runAll ops big).length ≤ maxChunks := by
  induction ops generalizing big v with
  | nil => exact hbig
  | cons op ops ih => exact ih h.2.2 ((op.length_run_le big).trans h.2.1)

/-- Numbers below this one have chunks enough. -/
theorem length_le_maxChunks {v : Nat} : (ofNat v).length ≤ maxChunks ↔ v < 2 ^ 4096 :=
  length_ofNat_le

theorem addU64_exact {ops : List Op} {v x : Nat} (hpos : 0 < v) (hx : x < 2 ^ 64)
    (hroom : v + x < 2 ^ 4096) (h : AllExact ops (ofNat (v + x)) (v + x)) :
    AllExact (.addU64 x :: ops) (ofNat v) v := by
  refine ⟨rfl, ?_, ?_⟩
  · show (addU64 (ofNat v) x).length ≤ maxChunks
    rw [addU64_ofNat hpos hx]
    exact length_le_maxChunks.mpr hroom
  · show AllExact ops (addU64 (ofNat v) x) (v + x)
    rwa [addU64_ofNat hpos hx]

theorem mulU64_exact {ops : List Op} {v x : Nat} (hpos : 0 < x) (hx : x < 2 ^ 64)
    (hroom : v * x < 2 ^ 4096) (h : AllExact ops (ofNat (v * x)) (v * x)) :
    AllExact (.mulU64 x :: ops) (ofNat v) v := by
  refine ⟨rfl, ?_, ?_⟩
  · show (mulU64 x (ofNat v)).length ≤ maxChunks
    rw [mulU64_ofNat hpos hx]
    exact length_le_maxChunks.mpr hroom
  · show AllExact ops (mulU64 x (ofNat v)) (v * x)
    rwa [mulU64_ofNat hpos hx]

/-- A product with a power of ten that has chunks enough. -/
theorem mulPow10_exact {fuel exp v : Nat} (hpos : 0 < v) (hfuel : exp ≤ 19 * fuel)
    (hroom : v * 10 ^ exp < 2 ^ 4096) :
    AllExact (mulPow10Ops fuel exp) (ofNat v) v ∧
      resultAll (mulPow10Ops fuel exp) v = v * 10 ^ exp := by
  induction fuel generalizing v exp with
  | zero =>
      obtain rfl : exp = 0 := by omega
      exact ⟨rfl, (Nat.mul_one v).symm⟩
  | succ fuel ih =>
      rw [mulPow10Ops]
      by_cases hlarge : 19 ≤ exp
      · have hsplit : v * 10 ^ exp = v * 10 ^ 19 * 10 ^ (exp - 19) := by
          rw [Nat.mul_assoc, ← Nat.pow_add, show 19 + (exp - 19) = exp by omega]
        obtain ⟨hexact, hresult⟩ := ih (Nat.mul_pos hpos (Nat.pow_pos (by decide)))
          (show exp - 19 ≤ 19 * fuel by omega) (hsplit ▸ hroom)
        have hle : v * 10 ^ 19 ≤ v * 10 ^ exp :=
          Nat.mul_le_mul_left v (Nat.pow_le_pow_right (by decide) hlarge)
        rw [if_pos hlarge, hsplit]
        exact ⟨mulU64_exact (by decide) (pow10_lt (Nat.le_refl 19)) (hle.trans_lt hroom) hexact,
          hresult⟩
      · rw [if_neg hlarge]
        by_cases hzero : exp = 0
        · rw [if_neg (by simpa using hzero), hzero]
          exact ⟨rfl, (Nat.mul_one v).symm⟩
        · rw [if_pos hzero]
          exact ⟨mulU64_exact (Nat.pow_pos (by decide)) (pow10_lt (by omega)) hroom rfl, rfl⟩

/-- A product with a power of two whose chunks, and the one behind them, are there. -/
theorem mulPow2_exact {v e bits : Nat} (hpos : 0 < v) (hv : v < 2 ^ (64 * bits))
    (hroom : bits + e / 64 + 1 ≤ maxChunks) :
    AllExact [.mulPow2 e] (ofNat v) v := by
  refine ⟨rfl, ?_, mulPow2_ofNat hpos e⟩
  have hlength := length_ofNat_le.mpr hv
  show (ofNat v).length + e / 64 + (if e % 64 = 0 then 0 else 1) ≤ maxChunks
  split <;> omega

end SsrJson.Decode.Bigint
