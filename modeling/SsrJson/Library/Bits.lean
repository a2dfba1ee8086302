import Mathlib.Data.Nat.Bitwise

/-!
# Masks

Bitwise operations on numbers as quotients and remainders: a mask of adjacent bits, operations byte
by byte, and parts put together that share no bit.
-/

namespace SsrJson

/-- A mask of `k` adjacent bits. -/
theorem and_mask (x n k : Nat) : x &&& ((2 ^ k - 1) * 2 ^ n) = x / 2 ^ n % 2 ^ k * 2 ^ n := by
  have hdiv : (x &&& ((2 ^ k - 1) * 2 ^ n)) / 2 ^ n = x / 2 ^ n % 2 ^ k := by
    rw [Nat.and_div_two_pow, Nat.mul_div_cancel _ (Nat.two_pow_pos n), Nat.and_two_pow_sub_one_eq_mod]
  have hmod : (x &&& ((2 ^ k - 1) * 2 ^ n)) % 2 ^ n = 0 := by
    rw [Nat.and_mod_two_pow, Nat.mul_mod_left, Nat.and_zero]
  have hsplit := Nat.div_add_mod (x &&& ((2 ^ k - 1) * 2 ^ n)) (2 ^ n)
  rw [hdiv, hmod, Nat.add_zero, Nat.mul_comm] at hsplit
  exact hsplit.symm

/-- A conjunction, the lowest byte apart. -/
theorem and_byte {a b : Nat} (x y : Nat) (ha : a < 256) (hb : b < 256) :
    (a + 256 * x) &&& (b + 256 * y) = (a &&& b) + 256 * (x &&& y) := by
  have hdiv : ((a + 256 * x) &&& (b + 256 * y)) / 2 ^ 8 = x &&& y := by
    rw [Nat.and_div_two_pow]
    congr 1 <;> omega
  have hmod : ((a + 256 * x) &&& (b + 256 * y)) % 2 ^ 8 = a &&& b := by
    rw [Nat.and_mod_two_pow]
    congr 1 <;> omega
  have hsplit := Nat.div_add_mod ((a + 256 * x) &&& (b + 256 * y)) (2 ^ 8)
  rw [hdiv, hmod] at hsplit
  omega

/-- Parts that share no bit. -/
theorem mul_or {a b : Nat} (n : Nat) (hb : b < 2 ^ n) : a * 2 ^ n ||| b = a * 2 ^ n + b := by
  rw [← Nat.shiftLeft_eq, Nat.shiftLeft_add_eq_or_of_lt hb]

end SsrJson
