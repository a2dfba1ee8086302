import Mathlib.Algebra.Group.Nat.Defs
import Mathlib.Data.List.Basic

/-!
# Python values

The values `loads` builds and `dumps` reads. A `str` carries its storage kind beside its code
points; a `dict` keeps its items in insertion order.
-/

namespace SsrJson

/-- How CPython stores a `str`: one byte per character up to `U+007F` (ASCII) or `U+00FF` (UCS1),
two up to `U+FFFF`, else four. -/
inductive StrKind where
  | ascii
  | ucs1
  | ucs2
  | ucs4
  deriving DecidableEq, Repr

/-- The largest code point a kind holds. -/
def StrKind.maxChar : StrKind → Nat
  | .ascii => 0x7F
  | .ucs1 => 0xFF
  | .ucs2 => 0xFFFF
  | .ucs4 => 0x10FFFF

/-- Bytes per character. -/
def StrKind.size : StrKind → Nat
  | .ascii => 1
  | .ucs1 => 1
  | .ucs2 => 2
  | .ucs4 => 4

/-- The number the C API has for a kind: bytes per character, and zero for ASCII. -/
def StrKind.code : StrKind → Nat
  | .ascii => 0
  | .ucs1 => 1
  | .ucs2 => 2
  | .ucs4 => 4

/-- The smallest kind that holds a code point. -/
def StrKind.ofChar (c : Nat) : StrKind :=
  if c ≤ 0x7F then .ascii else if c ≤ 0xFF then .ucs1 else if c ≤ 0xFFFF then .ucs2 else .ucs4

/-- A `str` object: its storage kind and its code points. -/
structure PyStr where
  kind : StrKind
  chars : List Nat
  deriving DecidableEq, Repr

/-- A number in so many bytes, the lowest first. -/
def leBytes (width value : Nat) : List Nat :=
  (List.range width).map fun k => value / 256 ^ k % 256

/-- The bytes a `str` object holds. -/
def PyStr.data (str : PyStr) : List Nat :=
  str.chars.flatMap (leBytes str.kind.size)

/-- The largest code point of a text. -/
def maxChar (chars : List Nat) : Nat :=
  chars.foldr max 0

/-- The `str` CPython stores a text as. -/
def PyStr.ofChars (chars : List Nat) : PyStr :=
  ⟨.ofChar (maxChar chars), chars⟩

/-- A number: a Python `int` or the bits of a Python `float`. -/
inductive Num where
  | int (value : Int)
  | float (bits : BitVec 64)
  deriving DecidableEq, Repr

/-- The values `loads` builds. -/
inductive PyVal where
  | none
  | bool (value : Bool)
  | num (value : Num)
  | str (value : PyStr)
  | list (items : List PyVal)
  | dict (items : List (PyStr × PyVal))
  deriving Repr

/-- `PyDict_SetItem`: a key already present keeps its place and gets the new value. -/
def dictSet {V : Type} (items : List (PyStr × V)) (key : PyStr) (value : V) : List (PyStr × V) :=
  if items.any (·.1 = key) then items.map fun item => if item.1 = key then (key, value) else item
  else items ++ [(key, value)]

/-- The dict that results from setting the pairs in order. -/
def dictOf (pairs : List (PyStr × PyVal)) : PyVal :=
  .dict (pairs.foldl (fun items pair => dictSet items pair.1 pair.2) [])

end SsrJson
