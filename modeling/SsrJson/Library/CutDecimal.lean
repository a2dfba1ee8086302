import Mathlib.Algebra.Order.Field.Basic
import Mathlib.Algebra.Order.Field.Power
import Mathlib.Algebra.Order.Field.Rat
import Mathlib.Tactic.Linarith
import Mathlib.Tactic.Positivity
import Mathlib.Tactic.Ring

/-!
# Decimals that were cut

A decimal of too many digits may be replaced by another one where only comparisons with decimals of
few digits are made: the two have to lie strictly between the same neighbours among the decimals
that have enough digits.
-/

namespace SsrJson

/-- The numbers lie strictly between two neighbouring multiples of a power of ten, the lower one of
which has at least `k + 1` digits. -/
def SameInterval (k : Nat) (x y : ℚ) : Prop :=
  ∃ (T : Nat) (t : Int), 10 ^ k ≤ T ∧ (T * 10 ^ t < x ∧ x < (T + 1) * 10 ^ t) ∧
    T * 10 ^ t < y ∧ y < (T + 1) * 10 ^ t

/-- `y` may stand for `x` in comparisons with decimals of `k + 1` digits. -/
def StandsFor (k : Nat) (x y : ℚ) : Prop := y = x ∨ SameInterval k x y

/-- A decimal of few digits is none of the numbers between two neighbours of many digits. -/
theorem not_between {k T C : Nat} {t s : Int} (hT : 10 ^ k ≤ T) (hC : C < 10 ^ (k + 1)) :
    (C * 10 ^ s : ℚ) ≤ T * 10 ^ t ∨ ((T + 1) * 10 ^ t : ℚ) ≤ C * 10 ^ s := by
  have hten : (0 : ℚ) < 10 ^ t := by positivity
  rcases lt_or_ge s t with hlt | hge
  · -- The power of ten is smaller, and there are not enough digits to make up for that.
    left
    have hC' : (C : ℚ) ≤ 10 ^ (k + 1) := by exact_mod_cast hC.le
    have hT' : (10 ^ k : ℚ) ≤ T := by exact_mod_cast hT
    calc (C * 10 ^ s : ℚ) ≤ 10 ^ (k + 1) * 10 ^ (t - 1) := by
          refine mul_le_mul hC' ?_ (by positivity) (by positivity)
          exact zpow_le_zpow_right₀ (by norm_num) (by omega)
      _ = 10 ^ k * 10 ^ t := by
          rw [zpow_sub₀ (by norm_num), pow_succ]
          ring
      _ ≤ T * 10 ^ t := mul_le_mul_of_nonneg_right hT' hten.le
  · -- It is a multiple of the same power of ten.
    obtain ⟨n, rfl⟩ : ∃ n : Nat, s = t + n := ⟨(s - t).toNat, by omega⟩
    have hmul : (C * 10 ^ (t + n : Int) : ℚ) = (C * 10 ^ n : Nat) * 10 ^ t := by
      rw [zpow_add₀ (by norm_num), zpow_natCast]
      push_cast
      ring
    rw [hmul]
    rcases Nat.lt_or_ge T (C * 10 ^ n) with hlt | hle
    · right
      have hcast : ((T + 1 : Nat) : ℚ) ≤ (C * 10 ^ n : Nat) := by exact_mod_cast hlt
      push_cast at hcast ⊢
      exact mul_le_mul_of_nonneg_right hcast hten.le
    · left
      have hcast : ((C * 10 ^ n : Nat) : ℚ) ≤ T := by exact_mod_cast hle
      exact mul_le_mul_of_nonneg_right hcast hten.le

/-- A number compares with decimals of few digits as the one that stands for it. -/
theorem StandsFor.compare {k C : Nat} {s : Int} {x y : ℚ} (h : StandsFor k x y)
    (hC : C < 10 ^ (k + 1)) :
    (y < C * 10 ^ s ↔ x < C * 10 ^ s) ∧ ((C * 10 ^ s : ℚ) < y ↔ (C * 10 ^ s : ℚ) < x) := by
  obtain rfl | ⟨T, t, hT, ⟨hx, hx'⟩, hy, hy'⟩ := h
  · exact ⟨Iff.rfl, Iff.rfl⟩
  · rcases @not_between k T C t s hT hC with hle | hle
    · exact ⟨iff_of_false (by linarith) (by linarith), iff_of_true (by linarith) (by linarith)⟩
    · exact ⟨iff_of_true (by linarith) (by linarith), iff_of_false (by linarith) (by linarith)⟩

/-- A number strictly between two neighbours of many digits compares with decimals of few digits as
any number of the interval does, the lower neighbour included. -/
theorem lt_iff_of_interval {k T C : Nat} {t s : Int} {y z : ℚ} (hT : 10 ^ k ≤ T)
    (hC : C < 10 ^ (k + 1)) (hy : T * 10 ^ t < y ∧ y < (T + 1) * 10 ^ t)
    (hz : T * 10 ^ t ≤ z ∧ z < (T + 1) * 10 ^ t) :
    (y < C * 10 ^ s ↔ z < C * 10 ^ s) ∧ y ≠ C * 10 ^ s := by
  rcases @not_between k T C t s hT hC with hle | hle
  · exact ⟨iff_of_false (by linarith) (by linarith), fun h => by linarith⟩
  · exact ⟨iff_of_true (by linarith) (by linarith), fun h => by linarith⟩

/-- Numbers in the same interval are close to each other. -/
theorem SameInterval.lt_two_mul {k : Nat} {x y : ℚ} (h : SameInterval k x y) : y < 2 * x := by
  obtain ⟨T, t, hT, ⟨hx, -⟩, -, hy⟩ := h
  have hten : (0 : ℚ) < 10 ^ t := by positivity
  have hone : (1 : ℚ) ≤ T := by
    exact_mod_cast (Nat.one_le_pow k 10 (by norm_num)).trans hT
  calc y < (T + 1) * 10 ^ t := hy
    _ ≤ 2 * (T * 10 ^ t) := by
        rw [← mul_assoc]
        exact mul_le_mul_of_nonneg_right (by linarith) hten.le
    _ < 2 * x := by linarith

/-- A decimal of few digits is in no interval. -/
theorem not_sameInterval {k C : Nat} {s : Int} {y : ℚ} (hC : C < 10 ^ (k + 1)) :
    ¬ SameInterval k (C * 10 ^ s) y := by
  rintro ⟨T, t, hT, ⟨hx, hx'⟩, -⟩
  rcases @not_between k T C t s hT hC with hle | hle
  · exact absurd hx hle.not_gt
  · exact absurd hx' hle.not_gt

end SsrJson
