import Mathlib.Data.List.TakeWhile

/-!
# The source buffer

The decoders read a buffer of code units through pointers. A `Source` is the buffer as memory: the
units, the zero after the last one, and whatever lies further on. Characters are classified by
`char_type_table` and `DigiTypeTable`.
-/

namespace SsrJson.Decode

/-- A buffer of code units, a zero after the last one, and the memory beyond. `before n` is the
unit `n + 1` places ahead of the first one. -/
structure Source where
  units : List Nat
  beyond : Nat → Nat
  before : Nat → Nat

namespace Source

/-- A text with zeros around it. -/
def ofUnits (units : List Nat) : Source := ⟨units, fun _ => 0, fun _ => 0⟩

/-- The number of units; `end` points there. -/
def len (src : Source) : Nat := src.units.length

/-- The unit a pointer reads. -/
def read (src : Source) (pos : Nat) : Nat :=
  if h : pos < src.units.length then src.units[pos]
  else if pos = src.units.length then 0 else src.beyond pos

/-- The unit a pointer reads that was moved back from `pos` by `back` units. -/
def readBack (src : Source) (pos back : Nat) : Nat :=
  if back ≤ pos then src.read (pos - back) else src.before (back - pos - 1)

/-- What is left of the text at a position. -/
def rest (src : Source) (pos : Nat) : List Nat := src.units.drop pos

end Source

/-! ## Character classes -/

/-- `char_type_table`. -/
def charTypeTable : List Nat :=
  [0x44, 0x04, 0x04, 0x04, 0x04, 0x04, 0x04, 0x04, 0x04, 0x05, 0x45, 0x04, 0x04, 0x45, 0x04, 0x04,
   0x04, 0x04, 0x04, 0x04, 0x04, 0x04, 0x04, 0x04, 0x04, 0x04, 0x04, 0x04, 0x04, 0x04, 0x04, 0x04,
   0x01, 0x00, 0x04, 0x00, 0x00, 0x00, 0x00, 0x00, 0x00, 0x00, 0x00, 0x00, 0x00, 0x02, 0x00, 0x20,
   0x82, 0x82, 0x82, 0x82, 0x82, 0x82, 0x82, 0x82, 0x82, 0x82, 0x00, 0x00, 0x00, 0x00, 0x00, 0x00,
   0x00, 0x80, 0x80, 0x80, 0x80, 0x80, 0x80, 0x00, 0x00, 0x00, 0x00, 0x00, 0x00, 0x00, 0x00, 0x00,
   0x00, 0x00, 0x00, 0x00, 0x00, 0x00, 0x00, 0x00, 0x00, 0x00, 0x00, 0x10, 0x04, 0x00, 0x00, 0x00,
   0x00, 0x80, 0x80, 0x80, 0x80, 0x80, 0x80, 0x00, 0x00, 0x00, 0x00, 0x00, 0x00, 0x00, 0x00, 0x00,
   0x00, 0x00, 0x00, 0x00, 0x00, 0x00, 0x00, 0x00, 0x00, 0x00, 0x00, 0x10, 0x00, 0x00, 0x00, 0x00,
   0x08, 0x08, 0x08, 0x08, 0x08, 0x08, 0x08, 0x08, 0x08, 0x08, 0x08, 0x08, 0x08, 0x08, 0x08, 0x08,
   0x08, 0x08, 0x08, 0x08, 0x08, 0x08, 0x08, 0x08, 0x08, 0x08, 0x08, 0x08, 0x08, 0x08, 0x08, 0x08,
   0x08, 0x08, 0x08, 0x08, 0x08, 0x08, 0x08, 0x08, 0x08, 0x08, 0x08, 0x08, 0x08, 0x08, 0x08, 0x08,
   0x08, 0x08, 0x08, 0x08, 0x08, 0x08, 0x08, 0x08, 0x08, 0x08, 0x08, 0x08, 0x08, 0x08, 0x08, 0x08,
   0x08, 0x08, 0x08, 0x08, 0x08, 0x08, 0x08, 0x08, 0x08, 0x08, 0x08, 0x08, 0x08, 0x08, 0x08, 0x08,
   0x08, 0x08, 0x08, 0x08, 0x08, 0x08, 0x08, 0x08, 0x08, 0x08, 0x08, 0x08, 0x08, 0x08, 0x08, 0x08,
   0x08, 0x08, 0x08, 0x08, 0x08, 0x08, 0x08, 0x08, 0x08, 0x08, 0x08, 0x08, 0x08, 0x08, 0x08, 0x08,
   0x08, 0x08, 0x08, 0x08, 0x08, 0x08, 0x08, 0x08, 0x08, 0x08, 0x08, 0x08, 0x08, 0x08, 0x08, 0x08]

/-- `DigiTypeTable`; the entries from 128 on are zero. -/
def digiTypeTable : List Nat :=
  [0x00, 0x00, 0x00, 0x00, 0x00, 0x00, 0x00, 0x00, 0x00, 0x00, 0x00, 0x00, 0x00, 0x00, 0x00, 0x00,
   0x00, 0x00, 0x00, 0x00, 0x00, 0x00, 0x00, 0x00, 0x00, 0x00, 0x00, 0x00, 0x00, 0x00, 0x00, 0x00,
   0x00, 0x00, 0x00, 0x00, 0x00, 0x00, 0x00, 0x00, 0x00, 0x00, 0x00, 0x04, 0x00, 0x08, 0x10, 0x00,
   0x01, 0x02, 0x02, 0x02, 0x02, 0x02, 0x02, 0x02, 0x02, 0x02, 0x00, 0x00, 0x00, 0x00, 0x00, 0x00,
   0x00, 0x00, 0x00, 0x00, 0x00, 0x20, 0x00, 0x00, 0x00, 0x00, 0x00, 0x00, 0x00, 0x00, 0x00, 0x00,
   0x00, 0x00, 0x00, 0x00, 0x00, 0x00, 0x00, 0x00, 0x00, 0x00, 0x00, 0x00, 0x00, 0x00, 0x00, 0x00,
   0x00, 0x00, 0x00, 0x00, 0x00, 0x20, 0x00, 0x00, 0x00, 0x00, 0x00, 0x00, 0x00, 0x00, 0x00, 0x00,
   0x00, 0x00, 0x00, 0x00, 0x00, 0x00, 0x00, 0x00, 0x00, 0x00, 0x00, 0x00, 0x00, 0x00, 0x00, 0x00]

/-- `char_is_type`: the argument is converted to `u8`. -/
def charIsType (c flags : Nat) : Bool :=
  charTypeTable.getD (c % 256) 0 &&& flags != 0

/-- `char_is_space`: `CHAR_TYPE_SPACE`. -/
def charIsSpace (c : Nat) : Bool := charIsType c 0x01

/-- `char_is_number`: `CHAR_TYPE_NUMBER`. -/
def charIsNumber (c : Nat) : Bool := charIsType c 0x02

/-- `char_is_container`: `CHAR_TYPE_CONTAINER`. -/
def charIsContainer (c : Nat) : Bool := charIsType c 0x10

/-- `char_is_space_or_comment`: `CHAR_TYPE_SPACE | CHAR_TYPE_COMMENT`. -/
def charIsSpaceOrComment (c : Nat) : Bool := charIsType c 0x21

/-- `_digi_is_type` behind the guard `d <= U8MAX` every caller of the number reader has. -/
def digiIsType (d flags : Nat) : Bool :=
  d ≤ 0xFF && digiTypeTable.getD d 0 &&& flags != 0

/-- `digi_is_nonzero`: `DIGI_TYPE_NONZERO`. -/
def digiIsNonzero (d : Nat) : Bool := digiIsType d 0x02

/-- `digi_is_digit`: `DIGI_TYPE_ZERO | DIGI_TYPE_NONZERO`. -/
def digiIsDigit (d : Nat) : Bool := digiIsType d 0x03

/-- `digi_is_sign`: `DIGI_TYPE_POS | DIGI_TYPE_NEG`. -/
def digiIsSign (d : Nat) : Bool := digiIsType d 0x0C

/-- `digi_is_exp`: `DIGI_TYPE_EXP`. -/
def digiIsExp (d : Nat) : Bool := digiIsType d 0x20

/-- `digi_is_fp`: `DIGI_TYPE_DOT | DIGI_TYPE_EXP`. -/
def digiIsFp (d : Nat) : Bool := digiIsType d 0x30

/-- `digi_is_digit_or_fp`: a digit, `.`, `e` or `E`. -/
def digiIsDigitOrFp (d : Nat) : Bool := digiIsType d 0x33

end SsrJson.Decode
