import SsrJson.Decode.KeyCache
import SsrJson.Decode.Tokens

/-!
# The root readers

`loads_root_pretty`, `loads_root_minify` and their `bytes` counterparts are one machine of labels
and jumps compiled with different readers. `Root.step` performs what the source does from one
label to the next jump. The objects the machine creates, stacks and drops are reached through an
`ObjectOps`, so that the same machine can run on values, on counted references or with failing
allocators.
-/

namespace SsrJson.Decode

/-- `SSRJSON_DECODE_MAX_RECURSION`. -/
def decodeMaxRecursion : Nat := 1024

/-- The `fail_*` labels of the readers, and `failed_cleanup` for an exception already set. -/
inductive DecodeError where
  | invalidString
  | invalidNumber
  | allocation
  | trailingComma
  | literalTrue
  | literalFalse
  | literalNull
  | characterVal
  | characterRoot
  | characterArrEnd
  | characterObjKey
  | characterObjSep
  | characterObjEnd
  | garbage
  | ctnGrow
  | empty
  | alreadySet
  deriving DecidableEq, Repr

/-- The text of the exception a `fail_*` label sets. -/
def DecodeError.message : DecodeError → Option String
  | .invalidString => some "invalid string"
  | .invalidNumber => some "invalid number"
  | .allocation => some "memory allocation failed"
  | .trailingComma => some "trailing comma is not allowed"
  | .literalTrue => some "invalid literal, expected a valid literal such as 'true'"
  | .literalFalse => some "invalid literal, expected a valid literal such as 'false'"
  | .literalNull => some "invalid literal, expected a valid literal such as 'null'"
  | .characterVal => some "unexpected character, expected a valid JSON value"
  | .characterRoot => some "unexpected character, expected a valid root value"
  | .characterArrEnd => some "unexpected character, expected a comma or a closing bracket"
  | .characterObjKey => some "unexpected character, expected a string for object key"
  | .characterObjSep => some "unexpected character, expected a colon after object key"
  | .characterObjEnd => some "unexpected character, expected a comma or a closing brace"
  | .garbage => some "unexpected content after document"
  | .ctnGrow => some "max recursion exceeded"
  | .empty => some "input data is empty"
  | .alreadySet => none

/-- What the readers ask of the interpreter. `σ` is the state behind the operations. -/
structure ObjectOps (σ Obj : Type) where
  /-- `PyLong_FromLongLong`, `PyLong_FromUnsignedLongLong` or `PyFloat_FromDouble`. -/
  number : Num → σ → Option Obj × σ
  /-- The `str` object for a string just read, from the key cache where it is asked. -/
  string : Made → σ → Option Obj × σ
  /-- A new reference to `None`, `True` or `False`. -/
  none : σ → Obj × σ
  bool : Bool → σ → Obj × σ
  /-- `_decoder_push_obj`: whether the stack, holding so many objects, takes this one. -/
  push : Obj → Nat → σ → Bool × σ
  /-- `decode_arr` up to the hook: the list made of the given number of topmost objects. -/
  buildArr : Nat → List Obj → σ → Option Obj × List Obj × σ
  /-- `decode_obj` up to the hook: the dict made of the given number of topmost pairs. -/
  buildObj : Nat → List Obj → σ → Option Obj × List Obj × σ
  /-- `Py_DECREF`. -/
  decref : Obj → σ → σ

/-- The parts that differ between the readers: the pretty variant skips line breaks, and the `str`
and `bytes` variants have their own helpers. -/
structure Readers where
  pretty : Bool
  match2 : Source → Nat → Nat → Nat → Bool
  fastSkipSpaces : Source → Nat → Nat
  loadsNumber : Source → Nat → Option Num × Nat
  /-- Read a string whose opening quote is under the cursor; the flag says whether it is a key. -/
  loadsString : Bool → Source → Nat → Option Made × Nat

/-- Which hooks the call has. -/
structure Hooks where
  object : Bool
  array : Bool
  deriving DecidableEq, Repr

/-- `DecodeCtnWithSize`: the sign bit of `raw` and the rest of it. -/
structure Ctn where
  isArr : Bool
  len : Nat
  deriving DecidableEq, Repr

/-- `incr_decode_ctn_size` of the current container. -/
def incrCtn : List Ctn → List Ctn
  | [] => []
  | c :: outer => { c with len := c.len + 1 } :: outer

/-- The labels of `READ_ROOT_IMPL`. -/
inductive Label where
  | arrBegin
  | arrValBegin
  | arrValEnd
  | arrEnd
  | objBegin
  | objKeyBegin
  | objKeyEnd
  | objValBegin
  | objValEnd
  | objEnd
  | docEnd
  deriving DecidableEq, Repr

/-- The local variables of `READ_ROOT_IMPL`. Both stacks have their top first. -/
structure RootState (σ Obj : Type) where
  label : Label
  cur : Nat
  ctn : List Ctn
  objs : List Obj
  rt : σ

/-- How a step ends. -/
inductive Transition (σ Obj : Type) where
  | goto (state : RootState σ Obj)
  /-- Call a hook with a new container; the answer is `none` when it raises. -/
  | callHook (argument : Obj) (rt : σ) (resume : Option Obj → σ → Transition σ Obj)
  | fail (error : DecodeError) (state : RootState σ Obj)
  | ret (obj : Obj) (state : RootState σ Obj)

namespace Root

variable {σ Obj : Type} (readers : Readers) (ops : ObjectOps σ Obj) (hooks : Hooks) (src : Source)

/-- `if (DECODE_READ_PRETTY && *cur == '\n') cur++`. -/
def skipReturn (cur : Nat) : Nat :=
  if readers.pretty ∧ src.read cur = 0x0A then cur + 1 else cur

/-- `if (*cur == ' ') fast_skip_spaces(&cur, end)` where only the pretty variant has it. -/
def prettySkip (cur : Nat) : Nat :=
  if readers.pretty ∧ src.read cur = 0x20 then readers.fastSkipSpaces src cur else cur

/-- A run of spaces, then any other white space. -/
def spacesThenWs (cur : Nat) : Nat :=
  let cur := if src.read cur = 0x20 then readers.fastSkipSpaces src cur else cur
  if wrappedCharIsSpace (src.read cur) then skipConsecutiveSpaces src cur else cur

/-- `cur++` and what follows in the rarely taken branches for white space. -/
def slowSkip (cur : Nat) : Nat := spacesThenWs readers src (cur + 1)

/-- `while (*cur != ',') cur--`, which only moves the reported position. -/
def rewindToComma : Nat → Nat
  | 0 => 0
  | cur + 1 => if src.read (cur + 1) = 0x2C then cur + 1 else rewindToComma cur

/-- `obj && _decoder_push_obj(...)`, then count the element and go on at `next`. An object that
cannot be pushed is dropped without a `Py_DECREF`. -/
def pushElement (next : Label) (error : DecodeError) (s : RootState σ Obj) (obj : Option Obj) :
    Transition σ Obj :=
  match obj with
  | none => .fail error s
  | some obj =>
    match ops.push obj s.objs.length s.rt with
    | (false, rt) => .fail error { s with rt }
    | (true, rt) =>
      .goto { s with label := next, ctn := incrCtn s.ctn, objs := obj :: s.objs, rt }

/-- The branch for a number. -/
def numberArm (next : Label) (s : RootState σ Obj) : Transition σ Obj :=
  match readers.loadsNumber src s.cur with
  | (none, cur) => .fail .invalidNumber { s with cur }
  | (some num, cur) =>
    let (obj, rt) := ops.number num s.rt
    pushElement ops next .invalidNumber { s with cur, rt } obj

/-- The branch for a string that is a value. -/
def stringArm (next : Label) (s : RootState σ Obj) : Transition σ Obj :=
  match readers.loadsString false src s.cur with
  | (none, cur) => .fail .invalidString { s with cur }
  | (some made, cur) =>
    let (obj, rt) := ops.string made s.rt
    pushElement ops next .invalidString { s with cur, rt } obj

/-- The branch for `t`. -/
def trueArm (next : Label) (s : RootState σ Obj) : Transition σ Obj :=
  match readTrue src s.cur with
  | (false, cur) => .fail .literalTrue { s with cur }
  | (true, cur) =>
    let (obj, rt) := ops.bool true s.rt
    pushElement ops next .literalTrue { s with cur, rt } (some obj)

/-- The branch for `f`. -/
def falseArm (next : Label) (s : RootState σ Obj) : Transition σ Obj :=
  match readFalse src s.cur with
  | (false, cur) => .fail .literalFalse { s with cur }
  | (true, cur) =>
    let (obj, rt) := ops.bool false s.rt
    pushElement ops next .literalFalse { s with cur, rt } (some obj)

/-- The second half of the branch for `n`: `nan`. -/
def nanArm (next : Label) (s : RootState σ Obj) : Transition σ Obj :=
  match readNan src s.cur with
  | (false, cur) => .fail .literalNull { s with cur }
  | (true, cur) =>
    let (obj, rt) := ops.number (.float (nanBits false)) s.rt
    pushElement ops next .literalNull { s with cur, rt } obj

/-- The branch for `n`. When `null` was read but cannot be pushed, `nan` is tried after it. -/
def nullArm (next : Label) (s : RootState σ Obj) : Transition σ Obj :=
  match readNull src s.cur with
  | (false, cur) => nanArm ops src next { s with cur }
  | (true, cur) =>
    let (obj, rt) := ops.none s.rt
    match pushElement ops next .literalNull { s with cur, rt } (some obj) with
    | .fail _ s => nanArm ops src next s
    | transition => transition

/-- The branch for `i`, `I` and `N`. -/
def infArm (next : Label) (s : RootState σ Obj) : Transition σ Obj :=
  match loadsInfOrNan src false s.cur with
  | (none, cur) => .fail .characterVal { s with cur }
  | (some num, cur) =>
    let (obj, rt) := ops.number num s.rt
    pushElement ops next .characterVal { s with cur, rt } obj

/-- `arr_begin`. -/
def arrBegin (s : RootState σ Obj) : Transition σ Obj :=
  if s.ctn.length < decodeMaxRecursion then
    .goto { s with label := .arrValBegin, cur := skipReturn readers src s.cur
                   ctn := ⟨true, 0⟩ :: s.ctn }
  else .fail .ctnGrow s

/-- `obj_begin`. -/
def objBegin (s : RootState σ Obj) : Transition σ Obj :=
  if s.ctn.length < decodeMaxRecursion then
    .goto { s with label := .objKeyBegin, cur := skipReturn readers src s.cur
                   ctn := ⟨false, 0⟩ :: s.ctn }
  else .fail .ctnGrow s

/-- The number of elements recorded for the current container. -/
def ctnLen (s : RootState σ Obj) : Nat :=
  match s.ctn with
  | [] => 0
  | c :: _ => c.len

/-- `arr_val_begin` behind the spaces the pretty variant skips. -/
def arrValDispatch (s : RootState σ Obj) : Transition σ Obj :=
  let c := src.read s.cur
  if c = 0x7B then .goto { s with label := .objBegin, cur := s.cur + 1 }
  else if c = 0x5B then .goto { s with label := .arrBegin, cur := s.cur + 1 }
  else if c ≤ 0xFF ∧ charIsNumber c then numberArm readers ops src .arrValEnd s
  else if c = 0x22 then stringArm readers ops src .arrValEnd s
  else if c = 0x74 then trueArm ops src .arrValEnd s
  else if c = 0x66 then falseArm ops src .arrValEnd s
  else if c = 0x6E then nullArm ops src .arrValEnd s
  else if c = 0x5D then
    if ctnLen s = 0 then .goto { s with label := .arrEnd, cur := s.cur + 1 }
    else .fail .trailingComma { s with cur := rewindToComma src (s.cur + 1) }
  else if wrappedCharIsSpace c then
    .goto { s with label := .arrValBegin, cur := skipConsecutiveSpaces src s.cur }
  else if c = 0x69 ∨ c = 0x49 ∨ c = 0x4E then infArm ops src .arrValEnd s
  else .fail .characterVal s

/-- `arr_val_begin`. -/
def arrValBegin (s : RootState σ Obj) : Transition σ Obj :=
  arrValDispatch readers ops src { s with cur := prettySkip readers src s.cur }

/-- The second character of the separator a variant expects: a line break or a space. -/
def separatorTail : Nat := if readers.pretty then 0x0A else 0x20

/-- `arr_val_end`. -/
def arrValEnd (s : RootState σ Obj) : Transition σ Obj :=
  let c := src.read s.cur
  if readers.match2 src s.cur 0x2C (separatorTail readers) then
    .goto { s with label := .arrValBegin, cur := s.cur + 2 }
  else if c = 0x2C then .goto { s with label := .arrValBegin, cur := s.cur + 1 }
  else if c = 0x5D then .goto { s with label := .arrEnd, cur := s.cur + 1 }
  else if wrappedCharIsSpace c then
    .goto { s with label := .arrValEnd, cur := slowSkip readers src s.cur }
  else .fail .characterArrEnd s

/-- Push a finished container and go on in the one around it. -/
def pushContainer (outer : List Ctn) (obj : Obj) (s : RootState σ Obj) : Transition σ Obj :=
  match ops.push obj s.objs.length s.rt with
  | (false, rt) => .fail .alreadySet { s with rt }
  | (true, rt) =>
    match outer with
    | [] => .goto { s with label := .docEnd, ctn := [], objs := obj :: s.objs, rt }
    | c :: _ =>
      .goto { label := if c.isArr then .arrValEnd else .objValEnd
              cur := skipReturn readers src s.cur
              ctn := incrCtn outer, objs := obj :: s.objs, rt }

/-- `decode_arr` or `decode_obj` from the hook on. The container is released after the hook. -/
def callHookThenPush (hooked : Bool) (outer : List Ctn) (obj : Obj) (s : RootState σ Obj) :
    Transition σ Obj :=
  if hooked then
    .callHook obj s.rt fun answer rt =>
      let rt := ops.decref obj rt
      match answer with
      | none => .fail .alreadySet { s with rt }
      | some obj => pushContainer readers ops src outer obj { s with rt }
  else pushContainer readers ops src outer obj s

/-- `arr_end`. -/
def arrEnd (s : RootState σ Obj) : Transition σ Obj :=
  match ops.buildArr (ctnLen s) s.objs s.rt with
  | (none, objs, rt) => .fail .alreadySet { s with objs, rt }
  | (some obj, objs, rt) =>
    callHookThenPush readers ops src hooks.array s.ctn.tail obj { s with objs, rt }

/-- The branch for a string that is a key. -/
def keyArm (s : RootState σ Obj) : Transition σ Obj :=
  match readers.loadsString true src s.cur with
  | (none, cur) => .fail .invalidString { s with cur }
  | (some made, cur) =>
    match ops.string made s.rt with
    | (none, rt) => .fail .invalidString { s with cur, rt }
    | (some obj, rt) =>
      match ops.push obj s.objs.length rt with
      | (false, rt) => .fail .invalidString { s with cur, rt }
      | (true, rt) => .goto { s with label := .objKeyEnd, cur, objs := obj :: s.objs, rt }

/-- `obj_key_begin` behind the spaces the pretty variant skips. -/
def objKeyDispatch (s : RootState σ Obj) : Transition σ Obj :=
  let c := src.read s.cur
  if c = 0x22 then keyArm readers ops src s
  else if c = 0x7D then
    if ctnLen s = 0 then .goto { s with label := .objEnd, cur := s.cur + 1 }
    else .fail .trailingComma { s with cur := s.cur + 1 }
  else if wrappedCharIsSpace c then
    .goto { s with label := .objKeyBegin, cur := skipConsecutiveSpaces src s.cur }
  else .fail .characterObjKey s

/-- `obj_key_begin`. -/
def objKeyBegin (s : RootState σ Obj) : Transition σ Obj :=
  objKeyDispatch readers ops src { s with cur := prettySkip readers src s.cur }

/-- `obj_key_end`. -/
def objKeyEnd (s : RootState σ Obj) : Transition σ Obj :=
  let c := src.read s.cur
  if readers.match2 src s.cur 0x3A 0x20 then
    .goto { s with label := .objValBegin, cur := s.cur + 2 }
  else if c = 0x3A then .goto { s with label := .objValBegin, cur := s.cur + 1 }
  else if wrappedCharIsSpace c then
    .goto { s with label := .objKeyEnd, cur := slowSkip readers src s.cur }
  else .fail .characterObjSep s

/-- `obj_val_begin`. The test for a number looks at the low byte of the unit only. -/
def objValBegin (s : RootState σ Obj) : Transition σ Obj :=
  let c := src.read s.cur
  if c = 0x22 then stringArm readers ops src .objValEnd s
  else if charIsNumber c then numberArm readers ops src .objValEnd s
  else if c = 0x7B then .goto { s with label := .objBegin, cur := s.cur + 1 }
  else if c = 0x5B then .goto { s with label := .arrBegin, cur := s.cur + 1 }
  else if c = 0x74 then trueArm ops src .objValEnd s
  else if c = 0x66 then falseArm ops src .objValEnd s
  else if c = 0x6E then nullArm ops src .objValEnd s
  else if wrappedCharIsSpace c then
    let cur := prettySkip readers src (s.cur + 1)
    let cur :=
      if wrappedCharIsSpace (src.read cur) then skipConsecutiveSpaces src cur else cur
    .goto { s with label := .objValBegin, cur }
  else if c = 0x69 ∨ c = 0x49 ∨ c = 0x4E then infArm ops src .objValEnd s
  else .fail .characterVal s

/-- `obj_val_end`. -/
def objValEnd (s : RootState σ Obj) : Transition σ Obj :=
  let c := src.read s.cur
  if readers.match2 src s.cur 0x2C (separatorTail readers) then
    .goto { s with label := .objKeyBegin, cur := s.cur + 2 }
  else if c = 0x2C then .goto { s with label := .objKeyBegin, cur := s.cur + 1 }
  else if c = 0x7D then .goto { s with label := .objEnd, cur := s.cur + 1 }
  else if wrappedCharIsSpace c then
    .goto { s with label := .objValEnd, cur := slowSkip readers src s.cur }
  else .fail .characterObjEnd s

/-- `obj_end`. -/
def objEnd (s : RootState σ Obj) : Transition σ Obj :=
  match ops.buildObj (ctnLen s) s.objs s.rt with
  | (none, objs, rt) => .fail .alreadySet { s with objs, rt }
  | (some obj, objs, rt) =>
    callHookThenPush readers ops src hooks.object s.ctn.tail obj { s with objs, rt }

/-- `success`: the object at the bottom of the stack. -/
def success (s : RootState σ Obj) : Transition σ Obj :=
  match s.objs.getLast? with
  | none => .fail .alreadySet s
  | some obj => .ret obj s

/-- `doc_end`. -/
def docEnd (s : RootState σ Obj) : Transition σ Obj :=
  if s.cur < src.len then
    let cur := spacesThenWs readers src s.cur
    if cur < src.len then .fail .garbage { s with cur } else success { s with cur }
  else success s

/-- From one label to the next jump. -/
def step (s : RootState σ Obj) : Transition σ Obj :=
  match s.label with
  | .arrBegin => arrBegin readers src s
  | .arrValBegin => arrValBegin readers ops src s
  | .arrValEnd => arrValEnd readers src s
  | .arrEnd => arrEnd readers ops hooks src s
  | .objBegin => objBegin readers src s
  | .objKeyBegin => objKeyBegin readers ops src s
  | .objKeyEnd => objKeyEnd readers src s
  | .objValBegin => objValBegin readers ops src s
  | .objValEnd => objValEnd readers src s
  | .objEnd => objEnd readers ops hooks src s
  | .docEnd => docEnd readers src s

/-- The entry of `READ_ROOT_IMPL`: the first container is opened without a check. -/
def start (rt : σ) : RootState σ Obj :=
  if src.read 0 = 0x7B then
    ⟨.objKeyBegin, skipReturn readers src 1, [⟨false, 0⟩], [], rt⟩
  else ⟨.arrValBegin, skipReturn readers src 1, [⟨true, 0⟩], [], rt⟩

/-- Let a hook answer. -/
def resolve (hook : Obj → σ → Option Obj × σ) : Transition σ Obj → Transition σ Obj
  | .callHook obj rt resume =>
    let (answer, rt) := hook obj rt
    resume answer rt
  | transition => transition

/-- The machine from a state on: the object returned or the error, and the last state. -/
def run (hook : Obj → σ → Option Obj × σ) :
    Nat → RootState σ Obj → Option (Except DecodeError Obj × RootState σ Obj)
  | 0, _ => none
  | fuel + 1, s =>
    match resolve hook (step readers ops hooks src s) with
    | .goto s' => run hook fuel s'
    | .fail error s' => some (.error error, s')
    | .ret obj s' => some (.ok obj, s')
    | .callHook _ _ _ => none

end Root

end SsrJson.Decode
