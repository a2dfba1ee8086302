import SsrJson.Decode.RootRead

/-!
# `loads` on a source

`decode` for `str` sources and `ssrjson_decode_bytes` skip the white space in front of the document
and call a root function: one of the two for containers, chosen by `should_loads_pretty`, or
`loads_root_single`. What a call finds besides the text is its `DecodeEnv`.
-/

namespace SsrJson.Decode

/-- What a call finds: the instruction set, the string buffer for a text of so many units, if it can
be reserved, whether a text of so many bytes can be copied, and the memory around that copy. -/
structure DecodeEnv where
  isa : Isa
  reserve : Nat → Option ByteBuffer
  copies : Nat → Bool
  beyond : Nat → BitVec 8
  before : Nat → BitVec 8

/-- How a call ends. The position is where the cursor was, in the units the message counts. -/
inductive Loaded (Obj : Type) where
  | ok (obj : Obj)
  | error (error : DecodeError) (pos : Nat)
  /-- A string was unescaped into a buffer that had not been reserved. -/
  | wild
  deriving DecidableEq, Repr

/-! ## The text -/

/-- The rest of the buffer from a position on. -/
def Source.suffix (src : Source) (pos : Nat) : Source where
  units := src.rest pos
  beyond n := src.beyond (n + pos)
  before n := src.readBack pos (n + 1)

/-- The copy `ssrjson_decode_bytes` makes of a text. -/
def Source.copied (src : Source) (env : DecodeEnv) : Source where
  units := src.units
  beyond n := (env.beyond n).toNat
  before n := (env.before n).toNat

/-- The white space in front of the document. Where nothing else is left, the input is empty. -/
def skipLeading (src : Source) : Option Nat :=
  let c := src.read 0
  if c ≤ 0xFF ∧ charIsSpaceOrComment c then
    let cur := if c ≤ 0xFF ∧ charIsSpace c then skipConsecutiveSpaces src 0 else 0
    if src.len ≤ cur then none else some cur
  else some 0

/-- The buffer the root function reads: the source itself, or a copy of `bytes`. -/
def rootText (env : DecodeEnv) (kind : SourceKind) (src : Source) (start : Nat) : Option Source :=
  match kind with
  | .str _ => some (src.suffix start)
  | .bytes =>
    if env.copies (src.len - start) then some ((src.suffix start).copied env) else none

/-- `should_loads_pretty` and `should_loads_bytes_pretty`. -/
def shouldLoadsPretty (text : Source) : Bool :=
  let second := text.read 1
  let third := text.read 2
  3 < text.len && (second == 0x0A || third == 0x0A ||
    second ≤ 0xFF && third ≤ 0xFF && charIsSpace second && charIsSpace third)

/-! ## Root functions -/

section Root

variable {σ Obj : Type} (env : DecodeEnv) (kind : SourceKind) (ops : ObjectOps σ Obj)
  (hooks : Hooks) (hook : Obj → σ → Option Obj × σ) (text : Source) (rt : σ)

/-- `failed_cleanup`: what is on the object stack is released, from its bottom up. -/
def cleanup (s : RootState σ Obj) : σ := s.objs.reverse.foldl (fun rt obj => ops.decref obj rt) s.rt

/-- `loads_root_pretty` or `loads_root_minify`, or their counterparts for `bytes`. -/
def loadsRoot (pretty : Bool) : Option (Loaded Obj × σ) :=
  match env.reserve text.len with
  | none => some (.error .allocation 0, rt)
  | some scratch =>
    let readers := rootReaders env.isa scratch kind pretty
    (Root.run readers ops hooks text hook (rootFuel text) (Root.start readers text rt)).map
      fun (result, s) =>
        match result with
        | .ok obj => (.ok obj, s.rt)
        | .error error => (.error error s.cur, cleanup ops s)

/-- What `loads_root_single` finds in the text. -/
inductive Single where
  | number (num : Num)
  | string (made : Made)
  | bool (b : Bool)
  | null

/-- The string of a text that is one string. Where the buffer could not be reserved, the decoder
for `str` does not look at that, and works in whatever the pointer happens to hold. -/
def singleString : Except DecodeError (Option (Option Made × Nat)) :=
  match env.reserve text.len, kind with
  | some scratch, kind => .ok (some ((rootReaders env.isa scratch kind false).loadsString false text 0))
  | none, .bytes => .error .allocation
  | none, .str kind =>
    match decodeStrFast env.isa kind text false (text.len + 1) 1 Vec.setzero with
    | (.escape _ _, _, _) => .ok none
    | _ => .ok (some (decodeStr env.isa kind text (fun _ => 0) false 1))

/-- How reading a single value ends, and the label for an object that cannot be made. -/
inductive SingleRead where
  | found (single : Single) (error : DecodeError) (cur : Nat)
  | fail (error : DecodeError) (cur : Nat)
  | wild

/-- `loads_root_single` up to the object. -/
def readSingle : SingleRead :=
  let c := text.read 0
  if c ≤ 0xFF ∧ charIsNumber c then
    match loadsNumber text 0 with
    | (some num, cur) => .found (.number num) .invalidNumber cur
    | (none, cur) => .fail .invalidNumber cur
  else if c = 0x22 then
    match singleString env kind text with
    | .error error => .fail error 0
    | .ok none => .wild
    | .ok (some (some made, cur)) => .found (.string made) .invalidString cur
    | .ok (some (none, cur)) => .fail .invalidString cur
  else if c = 0x74 then
    match readTrue text 0 with
    | (true, cur) => .found (.bool true) .literalTrue cur
    | (false, cur) => .fail .literalTrue cur
  else if c = 0x66 then
    match readFalse text 0 with
    | (true, cur) => .found (.bool false) .literalFalse cur
    | (false, cur) => .fail .literalFalse cur
  else if c = 0x6E then
    match readNull text 0 with
    | (true, cur) => .found .null .literalNull cur
    | (false, cur) =>
      match readNan text cur with
      | (true, cur) => .found (.number (.float (nanBits false))) .literalNull cur
      | (false, cur) => .fail .literalNull cur
  else
    match loadsInfOrNan text false 0 with
    | (some num, cur) => .found (.number num) .characterRoot cur
    | (none, cur) => .fail .characterRoot cur

/-- The object for a single value. -/
def makeSingle (single : Single) : Option Obj × σ :=
  match single with
  | .number num => ops.number num rt
  | .string made => ops.string made rt
  | .bool b => let (obj, rt) := ops.bool b rt; (some obj, rt)
  | .null => let (obj, rt) := ops.none rt; (some obj, rt)

/-- The white space behind a single value. -/
def singleTrailing (cur : Nat) : Nat :=
  match kind with
  | .str _ => Root.spacesThenWs (rootReaders env.isa (fun _ => 0) kind false) text cur
  | .bytes => skipSpaces text (text.len - cur) cur

/-- The position in the message of `loads_root_single`, which counts bytes. -/
def singlePos (cur : Nat) : Nat := cur * kind.units.size

/-- `loads_root_single` and `loads_root_single_bytes`. -/
def loadsRootSingle : Loaded Obj × σ :=
  match readSingle env kind text with
  | .wild => (.wild, rt)
  | .fail error cur => (.error error (singlePos kind cur), rt)
  | .found single error cur =>
    match makeSingle ops rt single with
    | (none, rt) => (.error error (singlePos kind cur), rt)
    | (some obj, rt) =>
      if cur < text.len then
        let cur := singleTrailing env kind text cur
        if cur < text.len then (.error .garbage (singlePos kind cur), ops.decref obj rt)
        else (.ok obj, rt)
      else (.ok obj, rt)

end Root

/-! ## The call -/

section Call

variable {σ Obj : Type} (env : DecodeEnv) (kind : SourceKind) (ops : ObjectOps σ Obj)
  (hooks : Hooks) (hook : Obj → σ → Option Obj × σ)

/-- A document: a container goes to the root function `pretty` chooses. -/
def loadsText (pretty : Source → Bool) (text : Source) (rt : σ) : Option (Loaded Obj × σ) :=
  if text.read 0 ≤ 0xFF ∧ charIsContainer (text.read 0) then
    loadsRoot env kind ops hooks hook text rt (pretty text)
  else some (loadsRootSingle env kind ops text rt)

/-- `decode` and `ssrjson_decode_bytes`, with any way to choose between the two root functions. -/
def decodeWith (pretty : Source → Bool) (src : Source) (rt : σ) : Option (Loaded Obj × σ) :=
  if src.len = 0 then some (.error .empty 0, rt)
  else
    match skipLeading src with
    | none => some (.error .empty 0, rt)
    | some start =>
      match rootText env kind src start with
      | none => some (.error .alreadySet 0, rt)
      | some text => loadsText env kind ops hooks hook pretty text rt

/-- `decode` and `ssrjson_decode_bytes`. -/
def decode (src : Source) (rt : σ) : Option (Loaded Obj × σ) :=
  decodeWith env kind ops hooks hook shouldLoadsPretty src rt

end Call

end SsrJson.Decode
