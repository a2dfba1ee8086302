import SsrJson.Encode.Objects

/-!
# The encoder of containers

`ssrjson_dumps_obj` and `ssrjson_dumps_to_bytes_obj` are one machine of labels and jumps. `dumps`
has a copy of it for each width of the output, and goes on in another copy when a `str` needs a
wider one. `EncodeMachine.step` performs what the source does from one label to the next jump. It
stops where other code can run: while it waits for the lock of a container, and while an array
answers an attribute lookup. What comes behind these points has a label of its own.
-/

namespace SsrJson.Encode

/-- `SSRJSON_ENCODE_MAX_RECURSION`. -/
def encodeMaxRecursion : Nat := 1024

/-- `EncodeValJumpFlag`; the flags that change the output width carry the new one. -/
inductive JumpFlag where
  | default
  | arrValBegin
  | dictPairBegin
  | tupleValBegin
  | elevate (ucs : Nat)
  | fail
  deriving DecidableEq, Repr

/-- The labels of `ssrjson_dumps_obj`, and the points behind a wait. -/
inductive EncodeLabel where
  | start
  /-- Behind the lock of the root. -/
  | rootLocked
  | dictPairBegin
  | dictKeyDone
  | arrValBegin
  /-- Behind the lock of a container in `encode_process_val`, with the size read before it. -/
  | ctnLocked (inObj : Bool) (listSize : Nat)
  /-- Behind the lookup in `u8_buffer_append_ndarray`. -/
  | arrayStruct (inObj : Bool)
  deriving DecidableEq, Repr

/-- The local variables of `ssrjson_dumps_obj`, the copy of it that is running, and what it shares
with other code: the objects, its container stack and the locks it took. -/
structure EncodeState where
  label : EncodeLabel
  ucs : Nat
  val : ObjId
  curObj : ObjId
  curPos : Nat
  depth : Nat
  listSize : Nat
  isTuple : Bool
  toplevel : Option ObjId
  out : EncodeOut
  /-- `pyobj_set`. -/
  set : PathSet
  /-- How often a container was locked more than unlocked. -/
  locks : ObjId → Int
  /-- `ctn_stack`. -/
  stack : Nat → CtnEntry
  heap : Heap
  /-- What the lookups of `__array_struct__` answer. -/
  answers : Nat → ArrayStruct
  lookups : Nat

/-- How a step ends. -/
inductive EncodeTransition where
  | goto (state : EncodeState)
  /-- Wait for the lock of a container. -/
  | lock (obj : ObjId) (state : EncodeState)
  /-- Look `__array_struct__` up on an instance of a subclass of `numpy.ndarray`. -/
  | lookup (state : EncodeState)
  /-- `success` and `fail` at their ends. -/
  | ret (state : EncodeState)
  | retNull (state : EncodeState)
  /-- The use of the set after `kh_init` gave none. -/
  | nullSet (state : EncodeState)
  /-- The dispatch on a flag that was not assigned. -/
  | undefinedFlag (state : EncodeState)
  /-- The read of a list item behind the last one. -/
  | badItem (state : EncodeState)

/-- The state a step ends in. -/
def EncodeTransition.state : EncodeTransition → EncodeState
  | .goto s | .lock _ s | .lookup s | .ret s | .retNull s | .nullSet s | .undefinedFlag s
  | .badItem s => s

namespace EncodeState

/-- `PyMutex_Lock`, once the lock is free. -/
def lock (s : EncodeState) (obj : ObjId) : EncodeState :=
  { s with locks := Function.update s.locks obj (s.locks obj + 1) }

/-- `PyMutex_Unlock`. -/
def unlock (s : EncodeState) (obj : ObjId) : EncodeState :=
  { s with locks := Function.update s.locks obj (s.locks obj - 1) }

/-- Store an entry of `ctn_stack`. -/
def pushCtn (s : EncodeState) (entry : CtnEntry) : EncodeState :=
  { s with stack := Function.update s.stack s.depth entry, depth := s.depth + 1 }

/-- Set an exception. -/
def raise (s : EncodeState) (error : EncodeError) : EncodeState :=
  { s with out := s.out.raise error }

end EncodeState

namespace EncodeMachine

variable (v : Variant)

/-! ## The ends -/

/-- `fail`: unlock what the path set records, free the output. -/
def fail (s : EncodeState) : EncodeTransition :=
  let s :=
    if v.locking then
      { s.set.members.foldl EncodeState.unlock s with set := s.set.khDestroy }
    else s
  .retNull { s with out := s.out.free }

/-- `success`: remove the last comma, shrink the output, unlock the root. -/
def success (s : EncodeState) : EncodeTransition :=
  match s.out.dropLast.uBufReserve with
  | (false, out) => fail v { s with out }
  | (true, out) =>
    if v.locking then
      let s := match s.toplevel with
        | some obj => s.unlock obj
        | none => s
      .ret { s with out, set := s.set.khDestroy }
    else .ret { s with out }

/-! ## `encode_process_val` -/

/-- `switch (jump_flag)` behind `encode_process_val`, which may not have assigned the flag. A wider
copy resumes at the value behind the `str`. -/
def dispatch (inObj : Bool) (s : EncodeState) (flag : Option JumpFlag) : EncodeTransition :=
  match flag with
  | none => .undefinedFlag s
  | some .default => .goto { s with label := if inObj then .dictPairBegin else .arrValBegin }
  | some .arrValBegin => .goto { s with label := .arrValBegin, isTuple := false }
  | some .dictPairBegin => .goto { s with label := .dictPairBegin }
  | some .tupleValBegin => .goto { s with label := .arrValBegin, isTuple := true }
  | some (.elevate ucs) =>
    if inObj then .goto { s with label := .dictPairBegin, ucs }
    else .goto { s with label := .arrValBegin, ucs, isTuple := !(s.heap s.curObj).isList }
  | some .fail => fail v s

/-- `return_jump_fail_if_unlikely(!writer)` behind a writer, then `JumpFlag_Default`. -/
def checked (inObj : Bool) (s : EncodeState) (written : Bool × EncodeOut) : EncodeTransition :=
  match written with
  | (false, out) => dispatch v inObj { s with out } (some .fail)
  | (true, out) => dispatch v inObj { s with out } (some .default)

/-- A `str` that was written may have widened the output. -/
def strFlag (s : EncodeState) (out : EncodeOut) : JumpFlag :=
  if s.ucs < out.ucsType then .elevate out.ucsType else .default

/-- `T_Unicode` and `encode_noncompact_val`. -/
def processStr (inObj : Bool) (s : EncodeState) (str : PyStr) (compact : Bool) :
    EncodeTransition :=
  match uBufApdStr v s.depth inObj s.out str compact with
  | (false, out) => dispatch v inObj { s with out } (some .fail)
  | (true, out) => dispatch v inObj { s with out } (some (strFlag s out))

/-- `t_long_zero`, `t_long_nonzero` and their like. `write_indent_return_if_fail` returns without
assigning the flag; `dumps_to_bytes` assigns it. -/
def processInt (inObj : Bool) (s : EncodeState) (value : Scalar) : EncodeTransition :=
  match unicodeIndentWriter v s.depth inObj s.out with
  | (false, out) => dispatch v inObj { s with out } (if v.toBytes then some .fail else none)
  | (true, out) =>
    dispatch v inObj { s with out := out.emit [.scalar value, .comma] } (some .default)

/-- `T_Long`: `pylong_to_clong` first. -/
def processLong (inObj : Bool) (s : EncodeState) (value : Int) : EncodeTransition :=
  if 2 ^ 64 ≤ value then dispatch v inObj (s.raise .unsignedLong) (some .fail)
  else if value < -2 ^ 63 then dispatch v inObj (s.raise .signedLong) (some .fail)
  else processInt v inObj s (.long value)

/-- `T_NumpyArray`, behind the lookup. -/
def processArray (inObj : Bool) (s : EncodeState) : EncodeTransition :=
  checked v inObj { s with lookups := s.lookups + 1 }
    (uBufApdNdarray v s.depth inObj s.out s.ucs (s.answers s.lookups))

/-- The type that tells how the container around a value is resumed, `get_encode_ctn_type`. -/
def getEncodeCtnType (inObj inTuple : Bool) : CtnType :=
  if inObj then .dict else if inTuple then .tuple else .list

/-- `ctn_size_grow`, then go into the value, whose items are read up to the size given. -/
def enterCtn (inObj : Bool) (s : EncodeState) (listSize : Nat) : EncodeTransition :=
  if s.depth = encodeMaxRecursion then dispatch v inObj (s.raise .tooNested) (some .fail)
  else
    let s := s.pushCtn ⟨s.curObj, s.curPos, getEncodeCtnType inObj s.isTuple⟩
    let s := { s with curObj := s.val, curPos := 0 }
    match s.heap s.val with
    | .dict _ => dispatch v inObj s (some .dictPairBegin)
    | .tuple _ => dispatch v inObj { s with listSize } (some .tupleValBegin)
    | _ => dispatch v inObj { s with listSize } (some .arrValBegin)

/-- A list or a dict is recorded and locked before it is entered, where containers are locked. Only
0 is taken for a failure of `kh_put`. -/
def lockThenEnter (inObj : Bool) (s : EncodeState) (listSize : Nat) : EncodeTransition :=
  if v.locking then
    match s.set.khPut s.val with
    | (0, set) => dispatch v inObj ({ s with set }.raise .circular) (some .fail)
    | (_, set) => .lock s.val { s with set, label := .ctnLocked inObj listSize }
  else enterCtn v inObj s listSize

/-- `T_List`: the size is read first. -/
def processList (inObj : Bool) (s : EncodeState) (listSize : Nat) : EncodeTransition :=
  if listSize = 0 then checked v inObj s (uBufApdEmptyArr v s.depth inObj s.out)
  else
    match uBufApdArrBegin v s.depth inObj s.out with
    | (false, out) => dispatch v inObj { s with out } (some .fail)
    | (true, out) => lockThenEnter v inObj { s with out } listSize

/-- `T_Dict`. -/
def processDict (inObj : Bool) (s : EncodeState) (dictSize : Nat) : EncodeTransition :=
  if dictSize = 0 then checked v inObj s (uBufApdEmptyObj v s.depth inObj s.out)
  else
    match uBufApdObjBegin v s.depth inObj s.out with
    | (false, out) => dispatch v inObj { s with out } (some .fail)
    | (true, out) => lockThenEnter v inObj { s with out } 0

/-- `T_Tuple`: never locked. -/
def processTuple (inObj : Bool) (s : EncodeState) (listSize : Nat) : EncodeTransition :=
  if listSize = 0 then checked v inObj s (uBufApdEmptyArr v s.depth inObj s.out)
  else
    match uBufApdArrBegin v s.depth inObj s.out with
    | (false, out) => dispatch v inObj { s with out } (some .fail)
    | (true, out) => enterCtn v inObj { s with out } listSize

/-- `encode_process_val` without the containers. -/
def processScalar (inObj : Bool) (s : EncodeState) (scalar : Scalar) : EncodeTransition :=
  match scalar with
  | .str str compact => processStr v inObj s str compact
  | .long value => processLong v inObj s value
  | .numpyInt width value => processInt v inObj s (.numpyInt width value)
  | .bool value => checked v inObj s (uBufApdBool v s.depth inObj s.out (.bool value))
  | .numpyBool value => checked v inObj s (uBufApdBool v s.depth inObj s.out (.numpyBool value))
  | .none => checked v inObj s (uBufApdNull v s.depth inObj s.out)
  | .float bits => checked v inObj s (uBufApdFloat v s.depth inObj s.out bits)
  | .numpyFloat bits => checked v inObj s (uBufApdF32 v s.depth inObj s.out bits)
  | .numpyArray true => .lookup { s with label := .arrayStruct inObj }
  | .numpyArray false => processArray v inObj s
  | .unknown => dispatch v inObj (s.raise .unsupportedType) (some .fail)

/-- `encode_process_val` and the `switch` behind it. -/
def encodeProcessVal (inObj : Bool) (s : EncodeState) : EncodeTransition :=
  match s.heap s.val with
  | .scalar value => processScalar v inObj s value
  | .list items => processList v inObj s items.length
  | .dict entries => processDict v inObj s (HeapObj.dict entries).dictSize
  | .tuple items => processTuple v inObj s items.length

/-! ## `ssrjson_dumps_obj` -/

/-- Behind the end of a container: go on in the one around it. -/
def popCtn (s : EncodeState) : EncodeTransition :=
  let entry := s.stack s.depth
  let s := { s with curObj := entry.ctn, curPos := entry.index }
  match entry.type with
  | .dict => .goto { s with label := .dictPairBegin }
  | .list =>
    .goto { s with label := .arrValBegin, listSize := (s.heap entry.ctn).size, isTuple := false }
  | .tuple =>
    .goto { s with label := .arrValBegin, listSize := (s.heap entry.ctn).size, isTuple := true }

/-- `dict end` and `list end`. The root stays locked until the end. -/
def endCtn (s : EncodeState) (locked : Bool) (written : Bool × EncodeOut) : EncodeTransition :=
  match written with
  | (false, out) => fail v { s with out, depth := s.depth - 1 }
  | (true, out) =>
    let s := { s with out, depth := s.depth - 1 }
    if s.depth = 0 then success v s
    else if v.locking ∧ locked then popCtn ({ s with set := s.set.khDel s.curObj }.unlock s.curObj)
    else popCtn s

/-- The name of a key is written, and the machine goes on in a wider copy if the name needs it. -/
def keyDone (s : EncodeState) (written : Bool × EncodeOut) : EncodeTransition :=
  match written with
  | (false, out) => fail v { s with out }
  | (true, out) => .goto { s with label := .dictKeyDone, out, ucs := max s.ucs out.ucsType }

/-- `dict_pair_begin`. -/
def dictPairBegin (s : EncodeState) : EncodeTransition :=
  match (s.heap s.curObj).dictNext s.curPos with
  | some (key, val, pos) =>
    let s := { s with curPos := pos, val }
    match s.heap key with
    | .scalar (.str str _) => keyDone v s (uBufApdKey v s.depth s.out str)
    | _ => fail v (s.raise .keyType)
  | none => endCtn v s true (uBufApdObjEnd v (s.depth - 1) s.out)

/-- `arr_val_begin`. -/
def arrValBegin (s : EncodeState) : EncodeTransition :=
  if s.curPos < s.listSize then
    match (s.heap s.curObj).item s.curPos with
    | none => .badItem s
    | some val => encodeProcessVal v false { s with curPos := s.curPos + 1, val }
  else endCtn v s (!s.isTuple) (uBufApdArrEnd v (s.depth - 1) s.out)

/-- The root list or dict is recorded and locked. What `kh_put` says is not looked at. -/
def lockRoot (s : EncodeState) (unlocked : EncodeTransition) : EncodeTransition :=
  if v.locking then
    let (_, set) := s.set.khPut s.curObj
    .lock s.curObj { s with set, toplevel := some s.curObj, label := .rootLocked }
  else unlocked

/-- Behind the lock of the root. -/
def rootLocked (s : EncodeState) : EncodeTransition :=
  if (s.heap s.curObj).isDict then .goto { s with label := .dictPairBegin, depth := 1 }
  else .goto { s with label := .arrValBegin, depth := 1, isTuple := false }

/-- Behind the allocations. The first bytes of the output need no growth. -/
def startRoot (s : EncodeState) : EncodeTransition :=
  match s.heap s.curObj with
  | .dict entries =>
    if (HeapObj.dict entries).dictSize = 0 then
      success v { s with out := s.out.emit [.openObj, .closeObj, .comma] }
    else
      let s := { s with out := s.out.emit [.openObj] }
      lockRoot v s (rootLocked s)
  | .list items =>
    if items.length = 0 then
      success v { s with out := s.out.emit [.openArr, .closeArr, .comma], listSize := 0 }
    else
      let s := { s with out := s.out.emit [.openArr], listSize := items.length }
      lockRoot v s (rootLocked s)
  | .tuple items =>
    if items.length = 0 then
      success v { s with out := s.out.emit [.openArr, .closeArr, .comma], listSize := 0 }
    else
      .goto { s with out := s.out.emit [.openArr], listSize := items.length, label := .arrValBegin,
                     depth := 1, isTuple := true }
  | .scalar _ => fail v (s.raise .unsupportedType)

/-- `init_encode_ctn_stack`, which allocates where each thread has a stack. -/
def initEncodeCtnStack (out : EncodeOut) : Bool × EncodeOut :=
  if v.build = .gil then (true, out) else out.uBufReserve

/-- `init_u_buf`, then `init_encode_ctn_stack`. -/
def startBuffers (s : EncodeState) : EncodeTransition :=
  match s.out.initUBuf with
  | (false, out) => fail v { s with out }
  | (true, out) =>
    match initEncodeCtnStack v out with
    | (false, out) => fail v { s with out }
    | (true, out) => startRoot v { s with out }

/-- The entry of `ssrjson_dumps_obj`: `kh_init`, whose result is not looked at, `kh_resize`. -/
def start (s : EncodeState) : EncodeTransition :=
  if v.locking then
    match s.set.request with
    | (false, set) => .nullSet { s with set }
    | (true, set) =>
      match set.request with
      | (false, set) => .retNull ({ s with set }.raise .noMemory)
      | (true, set) => startBuffers v { s with set }
  else startBuffers v s

/-- From one label to the next jump. -/
def step (s : EncodeState) : EncodeTransition :=
  match s.label with
  | .start => start v s
  | .rootLocked => rootLocked s
  | .dictPairBegin => dictPairBegin v s
  | .dictKeyDone => encodeProcessVal v true s
  | .arrValBegin => arrValBegin v s
  | .ctnLocked inObj listSize => enterCtn v inObj s listSize
  | .arrayStruct inObj => processArray v inObj s

/-- What a call is given: the object to encode, the objects around it, and what fails or answers
while it runs. -/
structure EncodeCall where
  obj : ObjId
  heap : Heap
  stack : Nat → CtnEntry
  growth : Nat → Bool
  insert : Nat → Bool
  answers : Nat → ArrayStruct

/-- A call that begins. -/
def initial (call : EncodeCall) : EncodeState :=
  { label := .start, ucs := 0, val := call.obj, curObj := call.obj, curPos := 0, depth := 0
    listSize := 0, isTuple := false, toplevel := none
    out := { growth := call.growth, growths := 0, tokens := [], ucsType := 0, head := false
             allocs := 0, frees := 0, error := none }
    set := { members := [], insert := call.insert, inserts := 0 }
    locks := fun _ => 0, stack := call.stack, heap := call.heap, answers := call.answers
    lookups := 0 }

/-- The next transition when no other code runs in between: every lock is free. -/
def next : EncodeTransition → Option EncodeTransition
  | .goto s => some (step v s)
  | .lock obj s => some (.goto (s.lock obj))
  | .lookup s => some (.goto s)
  | .ret _ | .retNull _ | .nullSet _ | .undefinedFlag _ | .badItem _ => none

end EncodeMachine

end SsrJson.Encode
