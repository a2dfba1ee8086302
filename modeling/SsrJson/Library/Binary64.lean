import Mathlib.Algebra.Group.Nat.Defs
import Mathlib.Data.Nat.Log

/-!
# Rounding to doubles

The double nearest to a quotient of natural numbers, ties to even, as the bits of a nonnegative
IEEE-754 binary64 number. Bit patterns of nonnegative finite doubles are ordered as the doubles
are, and the pattern one further on is the next double.
-/

namespace SsrJson.Binary64

/-- The bits of positive infinity. -/
def infRaw : Nat := 0x7FF0000000000000

/-- The exponent of the last place of the finite double with these bits. -/
def lastPlace (raw : Nat) : Int := max (raw / 2 ^ 52 : Nat) 1 - 1075

/-- The integer significand of the finite double with these bits. -/
def significand (raw : Nat) : Nat :=
  if raw / 2 ^ 52 = 0 then raw else raw % 2 ^ 52 + 2 ^ 52

/-- The exponent of the leading bit of a quotient. -/
def leadingBit (num den : Nat) : Int :=
  let k : Int := Nat.log2 num - Nat.log2 den
  if num * 2 ^ (-k).toNat < den * 2 ^ k.toNat then k - 1 else k

/-- A quotient to the nearest integer, ties to even. -/
def roundHalfEven (num den : Nat) : Nat :=
  let q := num / den
  let r := num % den
  if 2 * r < den then q else if den < 2 * r then q + 1 else q + q % 2

/-- The bits of the double nearest to `num / den`. -/
def roundQuot (num den : Nat) : Nat :=
  if num = 0 then 0
  else
    let place := max (leadingBit num den - 52) (-1074)
    let sig := roundHalfEven (num * 2 ^ (-place).toNat) (den * 2 ^ place.toNat)
    min ((place + 1074).toNat * 2 ^ 52 + sig) infRaw

end SsrJson.Binary64
