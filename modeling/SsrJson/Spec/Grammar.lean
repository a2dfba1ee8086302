import SsrJson.Object.Value

/-!
# The JSON grammar

The grammar of RFC 8259 as derivations over code units, each relating a text to the value it
denotes and to what is left of the text behind it. Three things are left open: `enc`, how a
character stands in the text (as itself in a `str`, as UTF-8 in `bytes`), `numVal`, the number a
number literal denotes, and `objVal`, what the members of an object make. Beyond the RFC the literals `NaN` and `Infinity` are values, in any case
and with an optional minus. `Value n` derives values with at most `n` containers open at any point.
-/

namespace SsrJson.Spec

/-! ## Characters -/

/-- `ws`: space, tab, line feed and carriage return. -/
def isWs (c : Nat) : Bool := c == 0x20 || c == 0x09 || c == 0x0A || c == 0x0D

/-- `DIGIT`. -/
def isDigit (c : Nat) : Bool := 0x30 ≤ c && c ≤ 0x39

/-- `digit1-9`. -/
def isNonzeroDigit (c : Nat) : Bool := 0x31 ≤ c && c ≤ 0x39

/-- The value of a hexadecimal digit in either case. -/
def hexVal (c : Nat) : Option Nat :=
  if 0x30 ≤ c ∧ c ≤ 0x39 then some (c - 0x30)
  else if 0x41 ≤ c ∧ c ≤ 0x46 then some (c - 0x41 + 10)
  else if 0x61 ≤ c ∧ c ≤ 0x66 then some (c - 0x61 + 10)
  else none

/-- The value of four hexadecimal digits. -/
def hex4 (a b c d : Nat) : Option Nat := do
  let a ← hexVal a
  let b ← hexVal b
  let c ← hexVal c
  let d ← hexVal d
  some (((a * 16 + b) * 16 + c) * 16 + d)

/-- The first half of a surrogate pair. -/
def isHighSurrogate (c : Nat) : Bool := 0xD800 ≤ c && c ≤ 0xDBFF

/-- The second half of a surrogate pair. -/
def isLowSurrogate (c : Nat) : Bool := 0xDC00 ≤ c && c ≤ 0xDFFF

/-- A code point reserved for surrogates. -/
def isSurrogate (c : Nat) : Bool := 0xD800 ≤ c && c ≤ 0xDFFF

/-- The character a surrogate pair stands for. -/
def pairVal (high low : Nat) : Nat := 0x10000 + (high - 0xD800) * 0x400 + (low - 0xDC00)

/-- The character a two-character escape stands for. -/
def shortEscape (c : Nat) : Option Nat :=
  match c with
  | 0x22 => some 0x22
  | 0x5C => some 0x5C
  | 0x2F => some 0x2F
  | 0x62 => some 0x08
  | 0x66 => some 0x0C
  | 0x6E => some 0x0A
  | 0x72 => some 0x0D
  | 0x74 => some 0x09
  | _ => none

/-! ## Tokens -/

/-- `Ws s r` says that white space stands in `s` before `r`. -/
inductive Ws : List Nat → List Nat → Prop where
  | nil (s) : Ws s s
  | cons {c s r} : isWs c = true → Ws s r → Ws (c :: s) r

/-- One or more digits. -/
def Digits (t : List Nat) : Prop := t ≠ [] ∧ ∀ c ∈ t, isDigit c = true

/-- `int`: zero, or digits that do not begin with a zero. -/
inductive IntPart : List Nat → Prop where
  | zero : IntPart [0x30]
  | nonzero {c ds} : isNonzeroDigit c = true → (∀ d ∈ ds, isDigit d = true) → IntPart (c :: ds)

/-- `[ frac ]`. -/
inductive FracPart : List Nat → Prop where
  | none : FracPart []
  | some {ds} : Digits ds → FracPart (0x2E :: ds)

/-- `[ minus / plus ]` in an exponent. -/
inductive SignPart : List Nat → Prop where
  | none : SignPart []
  | plus : SignPart [0x2B]
  | minus : SignPart [0x2D]

/-- `[ exp ]`. -/
inductive ExpPart : List Nat → Prop where
  | none : ExpPart []
  | some {e sign ds} : e = 0x65 ∨ e = 0x45 → SignPart sign → Digits ds →
      ExpPart (e :: (sign ++ ds))

/-- `[ minus ]` before a number. -/
def minusPart (neg : Bool) : List Nat := if neg then [0x2D] else []

/-- `number`. -/
inductive NumberText : List Nat → Prop where
  | mk (neg) {int frac exp} : IntPart int → FracPart frac → ExpPart exp →
      NumberText (minusPart neg ++ (int ++ (frac ++ exp)))

/-- Two texts are equal up to the case of letters; `upper` is the one in capitals. -/
def EqIgnoringCase (t upper : List Nat) : Prop :=
  List.Forall₂ (fun c u => c = u ∨ c = u + 0x20) t upper

/-- `Infinity` or `NaN` in any case, with an optional minus, and the double it denotes. -/
inductive SpecialText : List Nat → BitVec 64 → Prop where
  | inf (neg) {t} : EqIgnoringCase t [0x49, 0x4E, 0x46, 0x49, 0x4E, 0x49, 0x54, 0x59] →
      SpecialText (minusPart neg ++ t) (if neg then 0xFFF0000000000000 else 0x7FF0000000000000)
  | nan (neg) {t} : EqIgnoringCase t [0x4E, 0x41, 0x4E] →
      SpecialText (minusPart neg ++ t) (if neg then 0xFFF8000000000000 else 0x7FF8000000000000)

/-- `Chars enc s cs r` says that `s` holds the characters `cs`, written plainly or as escapes,
then a quotation mark, then `r`. -/
inductive Chars (enc : Nat → Option (List Nat)) : List Nat → List Nat → List Nat → Prop where
  | close (r) : Chars enc (0x22 :: r) [] r
  | plain {c u s cs r} : enc c = some u → 0x20 ≤ c → c ≠ 0x22 → c ≠ 0x5C →
      Chars enc s cs r → Chars enc (u ++ s) (c :: cs) r
  | short {e c s cs r} : shortEscape e = some c → Chars enc s cs r →
      Chars enc (0x5C :: e :: s) (c :: cs) r
  | unit {h₁ h₂ h₃ h₄ c s cs r} : hex4 h₁ h₂ h₃ h₄ = some c → isSurrogate c = false →
      Chars enc s cs r → Chars enc (0x5C :: 0x75 :: h₁ :: h₂ :: h₃ :: h₄ :: s) (c :: cs) r
  | pair {h₁ h₂ h₃ h₄ l₁ l₂ l₃ l₄ high low s cs r} :
      hex4 h₁ h₂ h₃ h₄ = some high → isHighSurrogate high = true →
      hex4 l₁ l₂ l₃ l₄ = some low → isLowSurrogate low = true → Chars enc s cs r →
      Chars enc (0x5C :: 0x75 :: h₁ :: h₂ :: h₃ :: h₄ ::
        0x5C :: 0x75 :: l₁ :: l₂ :: l₃ :: l₄ :: s) (pairVal high low :: cs) r

/-- `string`. -/
inductive StringToken (enc : Nat → Option (List Nat)) : List Nat → PyStr → List Nat → Prop where
  | mk {s cs r} : Chars enc s cs r → StringToken enc (0x22 :: s) (.ofChars cs) r

/-! ## Values -/

section

variable (enc : Nat → Option (List Nat)) (numVal : List Nat → Num)
  (objVal : List (PyStr × PyVal) → PyVal)

mutual

/-- `Value enc numVal objVal n s v r` says that `s` begins with a value denoting `v` that opens at
most `n` containers inside one another, and that `r` is left behind it. -/
inductive Value : Nat → List Nat → PyVal → List Nat → Prop where
  | null (n r) : Value n (0x6E :: 0x75 :: 0x6C :: 0x6C :: r) .none r
  | true (n r) : Value n (0x74 :: 0x72 :: 0x75 :: 0x65 :: r) (.bool true) r
  | false (n r) : Value n (0x66 :: 0x61 :: 0x6C :: 0x73 :: 0x65 :: r) (.bool false) r
  | number (n) {t} (r) : NumberText t → Value n (t ++ r) (.num (numVal t)) r
  | special (n) {t bits} (r) : SpecialText t bits → Value n (t ++ r) (.num (.float bits)) r
  | string (n) {s str r} : StringToken enc s str r → Value n s (.str str) r
  | emptyArray (n) {s r} : Ws s (0x5D :: r) → Value (n + 1) (0x5B :: s) (.list []) r
  | array {n s vs r} : Elements n s vs r → Value (n + 1) (0x5B :: s) (.list vs) r
  | emptyObject (n) {s r} : Ws s (0x7D :: r) → Value (n + 1) (0x7B :: s) (objVal []) r
  | object {n s ms r} : Members n s ms r → Value (n + 1) (0x7B :: s) (objVal ms) r

/-- The elements of an array and the bracket that closes it. -/
inductive Elements : Nat → List Nat → List PyVal → List Nat → Prop where
  | last {n s s₁ s₂ v r} : Ws s s₁ → Value n s₁ v s₂ → Ws s₂ (0x5D :: r) → Elements n s [v] r
  | more {n s s₁ s₂ s₃ v vs r} : Ws s s₁ → Value n s₁ v s₂ → Ws s₂ (0x2C :: s₃) →
      Elements n s₃ vs r → Elements n s (v :: vs) r

/-- The members of an object and the brace that closes it. -/
inductive Members : Nat → List Nat → List (PyStr × PyVal) → List Nat → Prop where
  | last {n s s₁ s₂ s₃ s₄ s₅ k v r} : Ws s s₁ → StringToken enc s₁ k s₂ → Ws s₂ (0x3A :: s₃) →
      Ws s₃ s₄ → Value n s₄ v s₅ → Ws s₅ (0x7D :: r) → Members n s [(k, v)] r
  | more {n s s₁ s₂ s₃ s₄ s₅ s₆ k v ms r} : Ws s s₁ → StringToken enc s₁ k s₂ →
      Ws s₂ (0x3A :: s₃) → Ws s₃ s₄ → Value n s₄ v s₅ → Ws s₅ (0x2C :: s₆) →
      Members n s₆ ms r → Members n s ((k, v) :: ms) r

end

/-- `JSON-text`: one value with white space around it. -/
inductive Document (n : Nat) (s : List Nat) (v : PyVal) : Prop where
  | mk {s₁ s₂} : Ws s s₁ → Value enc numVal objVal n s₁ v s₂ → Ws s₂ [] → Document n s v

end

end SsrJson.Spec
