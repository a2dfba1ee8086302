import Mathlib.Algebra.Field.Rat
import SsrJson.Spec.NumberLex

/-!
# The value of a number literal

A literal denotes a rational number: its digits, with the dot moved by the exponent.
-/

namespace SsrJson.Spec

/-- The exponent that is written. -/
def expVal : Option (Bool × List Nat) → Int
  | none => 0
  | some (neg, ds) => if neg then -(digitsVal ds : Int) else digitsVal ds

/-- The power of ten that the last digit of the literal stands for. -/
def NumberParts.lastExp (p : NumberParts) : Int := expVal p.exp - p.frac.length

/-- The number that is written, without its sign. -/
def NumberParts.value (p : NumberParts) : ℚ := digitsVal (p.int ++ p.frac) * 10 ^ p.lastExp

end SsrJson.Spec
