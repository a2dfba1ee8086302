import Mathlib.Algebra.Group.Nat.Defs
import Mathlib.Data.Nat.Digits.Lemmas

/-!
# Decimal text

`decimalText n` is the text of a number as everybody writes it, without zeros in front, and
`paddedText k n` that of its last `k` digits. Code that divides a number by a power of ten writes
the text of the quotient and behind it the padded text of the remainder; `decimalText_split` and
`paddedText_split` say that this is the text of the number.
-/

namespace SsrJson

/-- The character of a digit. -/
def digitChar (d : Nat) : Nat := 0x30 + d

/-- The last `k` digits of a number. -/
def paddedText : (k : Nat) → (n : Nat) → List Nat
  | 0, _ => []
  | k + 1, n => paddedText k (n / 10) ++ [digitChar (n % 10)]

/-- A number in decimal. -/
def decimalText (n : Nat) : List Nat :=
  if n = 0 then [digitChar 0] else ((Nat.digits 10 n).map digitChar).reverse

/-- An integer in decimal. -/
def integerText (z : Int) : List Nat :=
  if z < 0 then 0x2D :: decimalText z.natAbs else decimalText z.natAbs

theorem length_paddedText (k n : Nat) : (paddedText k n).length = k := by
  induction k generalizing n with
  | zero => rfl
  | succ k ih => rw [paddedText, List.length_append, ih, List.length_singleton]

/-- The digits of a quotient in front of those of the remainder. -/
theorem paddedText_split (j k a b : Nat) (hb : b < 10 ^ k) :
    paddedText (j + k) (a * 10 ^ k + b) = paddedText j a ++ paddedText k b := by
  induction k generalizing b with
  | zero =>
      rw [Nat.pow_zero] at hb
      obtain rfl : b = 0 := by omega
      rw [Nat.pow_zero, Nat.mul_one, Nat.add_zero, Nat.add_zero, paddedText, List.append_nil]
  | succ k ih =>
      have hquot : (a * 10 ^ (k + 1) + b) / 10 = a * 10 ^ k + b / 10 := by
        rw [Nat.pow_succ, ← Nat.mul_assoc]
        omega
      have hrem : (a * 10 ^ (k + 1) + b) % 10 = b % 10 := by
        rw [Nat.pow_succ, ← Nat.mul_assoc]
        omega
      have hlow : b / 10 < 10 ^ k := by
        rw [Nat.pow_succ] at hb
        omega
      rw [← Nat.add_assoc, paddedText, hquot, hrem, ih _ hlow, List.append_assoc, paddedText]

/-- The last digit of a number of several digits. -/
theorem decimalText_snoc {n d : Nat} (hn : 0 < n) (hd : d < 10) :
    decimalText (n * 10 + d) = decimalText n ++ [digitChar d] := by
  have hne : n * 10 + d ≠ 0 := by omega
  rw [decimalText, decimalText, if_neg hne, if_neg (by omega),
    Nat.digits_def' (by decide) (by omega), List.map_cons, List.reverse_cons,
    show (n * 10 + d) / 10 = n by omega, show (n * 10 + d) % 10 = d by omega]

/-- The text of a quotient in front of the digits of the remainder. -/
theorem decimalText_split {a b : Nat} (k : Nat) (ha : 0 < a) (hb : b < 10 ^ k) :
    decimalText (a * 10 ^ k + b) = decimalText a ++ paddedText k b := by
  induction k generalizing b with
  | zero =>
      rw [Nat.pow_zero] at hb
      obtain rfl : b = 0 := by omega
      rw [Nat.pow_zero, Nat.mul_one, Nat.add_zero, paddedText, List.append_nil]
  | succ k ih =>
      have hlow : b / 10 < 10 ^ k := by
        rw [Nat.pow_succ] at hb
        omega
      have hpos : 0 < a * 10 ^ k := Nat.mul_pos ha (Nat.pow_pos (by decide))
      have hsplit : a * 10 ^ (k + 1) + b = (a * 10 ^ k + b / 10) * 10 + b % 10 := by
        rw [Nat.pow_succ, ← Nat.mul_assoc]
        omega
      rw [hsplit, decimalText_snoc (by omega) (Nat.mod_lt b (by decide)), ih hlow,
        List.append_assoc, paddedText]

theorem decimalText_digit {d : Nat} (hd : d < 10) : decimalText d = [digitChar d] := by
  unfold decimalText
  split
  · rename_i hzero
    rw [hzero]
  · rw [Nat.digits_of_lt 10 d ‹_› hd]
    rfl

/-- A number of two digits. -/
theorem decimalText_pair {n : Nat} (hlow : 10 ≤ n) (hhigh : n < 100) :
    decimalText n = paddedText 2 n := by
  have hsplit : n = n / 10 * 10 + n % 10 := by omega
  conv_lhs => rw [hsplit]
  rw [decimalText_snoc (by omega) (Nat.mod_lt n (by decide)), decimalText_digit (by omega)]
  show [digitChar (n / 10), digitChar (n % 10)] = [digitChar (n / 10 % 10), digitChar (n % 10)]
  rw [Nat.mod_eq_of_lt (show n / 10 < 10 by omega)]

theorem length_decimalText_le {n k : Nat} (hk : 0 < k) (h : n < 10 ^ k) :
    (decimalText n).length ≤ k := by
  unfold decimalText
  split
  · exact hk
  · rw [List.length_reverse, List.length_map]
    exact (Nat.digits_length_le_iff (by decide) n).mpr h

theorem decimalText_lt {n v : Nat} (hv : v ∈ decimalText n) : v < 0x3A := by
  unfold decimalText at hv
  split at hv
  · obtain rfl := List.mem_singleton.mp hv
    decide
  · obtain ⟨d, hd, rfl⟩ := List.mem_map.mp (List.mem_reverse.mp hv)
    have hlt : d < 10 := Nat.digits_lt_base (by decide) hd
    show 0x30 + d < 0x3A
    omega

end SsrJson
