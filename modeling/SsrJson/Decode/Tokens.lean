import SsrJson.Decode.Source
import SsrJson.Library.Lanes
import SsrJson.Object.Value

/-!
# Literals and white space

The small readers both root functions share (`decode/str/tools/_r_tools.inl.h`) and the vector
skipper `fast_skip_spaces`. Every reader returns whether it matched and where the cursor then is.
-/

namespace SsrJson.Decode

variable (src : Source)

/-- The units in a window compare equal to a template, as `memcmp` on them does. -/
def matchUnits (pos : Nat) (template : List Nat) : Bool :=
  (List.range template.length).map (fun i => src.read (pos + i)) = template

/-- `_read_true`. -/
def readTrue (cur : Nat) : Bool × Nat :=
  if cur + 4 ≤ src.len ∧ matchUnits src cur [0x74, 0x72, 0x75, 0x65] then (true, cur + 4)
  else (false, cur)

/-- `_read_false`: the first character is already checked, the bound covers four characters. -/
def readFalse (cur : Nat) : Bool × Nat :=
  if cur + 4 ≤ src.len ∧ matchUnits src (cur + 1) [0x61, 0x6C, 0x73, 0x65] then (true, cur + 5)
  else (false, cur)

/-- `_read_null`. -/
def readNull (cur : Nat) : Bool × Nat :=
  if cur + 4 ≤ src.len ∧ matchUnits src cur [0x6E, 0x75, 0x6C, 0x6C] then (true, cur + 4)
  else (false, cur)

/-- A unit with bit `0x20` cleared. -/
def maskCase (unit : Nat) : Nat := unit - (unit &&& 0x20)

/-- The units in a window, with bit `0x20` cleared, compare equal to a template. -/
def matchUpper (pos : Nat) (template : List Nat) : Bool :=
  (List.range template.length).map (fun i => maskCase (src.read (pos + i))) = template

/-- `_read_inf`: `Infinity` in any case. -/
def readInf (cur : Nat) : Bool × Nat :=
  if src.len < cur + 8 then (false, cur)
  else if matchUpper src cur [0x49, 0x4E, 0x46, 0x49, 0x4E, 0x49, 0x54, 0x59] then (true, cur + 8)
  else (false, cur)

/-- `_read_nan`: `NaN` in any case. The fourth lane is masked out. -/
def readNan (cur : Nat) : Bool × Nat :=
  if src.len < cur + 3 then (false, cur)
  else if matchUpper src cur [0x4E, 0x41, 0x4E] then (true, cur + 3)
  else (false, cur)

/-- The bits of an infinity. -/
def infBits (sign : Bool) : BitVec 64 :=
  if sign then 0xFFF0000000000000 else 0x7FF0000000000000

/-- The bits of `Py_NAN` with the given sign. -/
def nanBits (sign : Bool) : BitVec 64 :=
  if sign then 0xFFF8000000000000 else 0x7FF8000000000000

/-- `loads_inf_or_nan`. -/
def loadsInfOrNan (sign : Bool) (cur : Nat) : Option Num × Nat :=
  match readInf src cur with
  | (true, cur) => (some (.float (infBits sign)), cur)
  | (false, cur) =>
    match readNan src cur with
    | (true, cur) => (some (.float (nanBits sign)), cur)
    | (false, cur) => (none, cur)

/-- `WRAPPED_CHAR_IS_SPACE`. -/
def wrappedCharIsSpace (unit : Nat) : Bool := unit ≤ 0xFF && charIsSpace unit

/-- `while (WRAPPED_CHAR_IS_SPACE(cur)) cur++`. The zero at `end` stops the loop, so the fuel
given to it, the distance to `end`, is never used up before. -/
def skipSpaces : Nat → Nat → Nat
  | 0, cur => cur
  | fuel + 1, cur =>
    if wrappedCharIsSpace (src.read cur) then skipSpaces fuel (cur + 1) else cur

/-- `SKIP_CONSECUTIVE_SPACES`, used after a `WRAPPED_CHAR_IS_SPACE` check. -/
def skipConsecutiveSpaces (cur : Nat) : Nat :=
  skipSpaces src (src.len - cur) (cur + 1)

/-- `cmpeq_2chars`. -/
def cmpeq2Chars (cur first second : Nat) : Bool :=
  cur + 2 ≤ src.len && matchUnits src cur [first, second]

/-- `byte_match_2`: like `cmpeq_2chars`, without the bound. -/
def byteMatch2 (cur first second : Nat) : Bool :=
  matchUnits src cur [first, second]

/-- The part of `fast_skip_spaces` near the end: pairs of spaces, then a single one. -/
def skipSpacePairs : Nat → Nat → Nat
  | 0, cur => cur
  | fuel + 1, cur =>
    if cmpeq2Chars src cur 0x20 0x20 then skipSpacePairs fuel (cur + 2)
    else if src.read cur = 0x20 then cur + 1 else cur

/-- `fast_skip_spaces` with vectors of `batch` lanes. The fuel counts whole batches. -/
def fastSkipSpacesLoop (batch : Nat) : Nat → Nat → Nat
  | 0, cur => cur
  | fuel + 1, cur =>
    if cur + batch < src.len then
      match firstLane batch (fun i => src.read (cur + i) != 0x20) with
      | none => fastSkipSpacesLoop batch fuel (cur + batch)
      | some done => cur + done
    else skipSpacePairs src (src.len - cur + 1) cur

/-- `fast_skip_spaces`. -/
def fastSkipSpaces (batch cur : Nat) : Nat :=
  fastSkipSpacesLoop src batch (src.len - cur + 1) cur

end SsrJson.Decode
