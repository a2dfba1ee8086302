import SsrJson.Decode.RootAction

/-!
# The object stack in memory

The root machine keeps the objects it has made in an array behind `decode_obj_stack`, with
`decode_obj_writer` at the first free cell. The array is the one of the decoder's buffers until it
is full; then its cells are copied into a block from the allocator, which is reallocated from then
on. `stackOps` is the root machine's interface to that array, so that a run of the machine over
`stackOps` is a run of the code, with the list of objects in its state as a view of the array.
-/

namespace SsrJson.Decode

/-- `SSRJSON_DECODE_OBJ_BUFFER_INIT_SIZE`. -/
def decodeObjBufferInitSize : Nat := 1024

/-- `PY_SSIZE_T_MAX`. -/
def pySsizeTMax : Nat := 2 ^ 63 - 1

/-- The cells from `decode_obj_stack` to `decode_obj_stack_end`, and `decode_obj_writer` as the
number of cells in front of it. A cell nothing was written to holds `none`. -/
structure ObjStack (Obj : Type) where
  cells : List (Option Obj)
  writer : Nat

/-- What the decoder asks of the interpreter and the allocator. -/
structure Interpreter (τ Obj : Type) where
  /-- `PyLong_FromLongLong`, `PyLong_FromUnsignedLongLong` or `PyFloat_FromDouble`. -/
  number : Num → τ → Option Obj × τ
  /-- `make_string`. -/
  string : Made → τ → Option Obj × τ
  none : τ → Obj × τ
  bool : Bool → τ → Obj × τ
  /-- `SSRJSON_MALLOC` or `SSRJSON_REALLOC` for so many bytes: whether they are given. -/
  alloc : Nat → τ → Bool × τ
  /-- `PyList_New`, then `PyList_SET_ITEM` for every item, which never fails. -/
  newList : List Obj → τ → Option Obj × τ
  /-- `_PyDict_NewPresized`. -/
  newDict : Nat → τ → Option Obj × τ
  /-- `_PyDict_SetItem_KnownHash`: the dict with the pair in it. -/
  setItem : Obj → Obj → Obj → τ → Option Obj × τ
  /-- `Py_DECREF`. -/
  decref : Obj → τ → τ

namespace ObjStack

variable {τ Obj : Type} (py : Interpreter τ Obj)

/-- The objects on the stack, the bottom first. -/
def contents (stack : ObjStack Obj) : List (Option Obj) := stack.cells.take stack.writer

/-- The objects on the stack, the top first. -/
def objs (stack : ObjStack Obj) : List Obj := stack.contents.reduceOption.reverse

/-- `_decode_obj_stack_resize`. -/
def resize (stack : ObjStack Obj) (rt : τ) : Option (ObjStack Obj) × τ :=
  if stack.cells.length = decodeObjBufferInitSize then
    match py.alloc (8 * (decodeObjBufferInitSize <<< 1)) rt with
    | (false, rt) => (none, rt)
    | (true, rt) =>
      (some ⟨stack.cells.take decodeObjBufferInitSize ++
          List.replicate decodeObjBufferInitSize none, decodeObjBufferInitSize⟩, rt)
  else
    let oldCapacity := stack.cells.length
    if pySsizeTMax >>> 1 < oldCapacity then (none, rt)
    else
      match py.alloc (8 * (oldCapacity <<< 1)) rt with
      | (false, rt) => (none, rt)
      | (true, rt) => (some ⟨stack.cells ++ List.replicate oldCapacity none, oldCapacity⟩, rt)

/-- `*decode_obj_writer++ = obj`. -/
def store (stack : ObjStack Obj) (obj : Obj) : ObjStack Obj :=
  ⟨stack.cells.set stack.writer (some obj), stack.writer + 1⟩

/-- `_decoder_push_obj`. -/
def push (stack : ObjStack Obj) (obj : Obj) (rt : τ) : Bool × ObjStack Obj × τ :=
  if stack.cells.length ≤ stack.writer then
    match resize py stack rt with
    | (none, rt) => (false, stack, rt)
    | (some stack, rt) => (true, stack.store obj, rt)
  else (true, stack.store obj, rt)

/-- The objects in so many cells below the writer, the lowest first. -/
def top (stack : ObjStack Obj) (count : Nat) : List Obj :=
  ((stack.cells.drop (stack.writer - count)).take count).reduceOption

/-- `decode_obj_writer -= count`. -/
def pop (stack : ObjStack Obj) (count : Nat) : ObjStack Obj :=
  { stack with writer := stack.writer - count }

/-- `decode_arr` up to the hook. -/
def buildArr (count : Nat) (stack : ObjStack Obj) (rt : τ) : Option Obj × ObjStack Obj × τ :=
  match py.newList (stack.top count) rt with
  | (none, rt) => (none, stack, rt)
  | (some list, rt) => (some list, stack.pop count, rt)

/-- The loop of `decode_obj` over the keys and values in the cells, with its cleanup. -/
def setPairs (dict : Obj) : List Obj → τ → Option Obj × τ
  | key :: val :: rest, rt =>
    match py.setItem dict key val rt with
    | (some dict, rt) => setPairs dict rest (py.decref val (py.decref key rt))
    | (none, rt) =>
      (none, (key :: val :: rest).foldl (fun rt obj => py.decref obj rt) (py.decref dict rt))
  | _, rt => (some dict, rt)

/-- The dict `decode_obj` makes of keys and values, once it has one. -/
def makeDict (count : Nat) (objs : List Obj) (rt : τ) : Option Obj × τ :=
  match py.newDict count rt with
  | (none, rt) => (none, rt)
  | (some dict, rt) => setPairs py dict objs rt

/-- `decode_obj` up to the hook. Where a pair cannot be set its cells are given up as well. -/
def buildObj (count : Nat) (stack : ObjStack Obj) (rt : τ) : Option Obj × ObjStack Obj × τ :=
  match py.newDict count rt with
  | (none, rt) => (none, stack, rt)
  | (some dict, rt) =>
    let (obj, rt) := setPairs py dict (stack.top (count * 2)) rt
    (obj, stack.pop (count * 2), rt)

/-- The array of the decoder's buffers, with what earlier calls left in it. -/
def initial (stale : Fin decodeObjBufferInitSize → Option Obj) : ObjStack Obj :=
  ⟨List.ofFn stale, 0⟩

end ObjStack

/-- The object stack and the interpreter. -/
structure StackRt (τ Obj : Type) where
  stack : ObjStack Obj
  py : τ

/-- The root machine on the array: objects are written to its cells and read back from them. -/
def stackOps {τ Obj : Type} (py : Interpreter τ Obj) : ObjectOps (StackRt τ Obj) Obj where
  number num rt := let (obj, τ) := py.number num rt.py; (obj, { rt with py := τ })
  string made rt := let (obj, τ) := py.string made rt.py; (obj, { rt with py := τ })
  none rt := let (obj, τ) := py.none rt.py; (obj, { rt with py := τ })
  bool b rt := let (obj, τ) := py.bool b rt.py; (obj, { rt with py := τ })
  push obj _ rt := let (pushed, stack, τ) := rt.stack.push py obj rt.py; (pushed, ⟨stack, τ⟩)
  buildArr n _ rt :=
    let (obj, stack, τ) := rt.stack.buildArr py n rt.py
    (obj, stack.objs, ⟨stack, τ⟩)
  buildObj n _ rt :=
    let (obj, stack, τ) := rt.stack.buildObj py n rt.py
    (obj, stack.objs, ⟨stack, τ⟩)
  decref obj rt := { rt with py := py.decref obj rt.py }

end SsrJson.Decode
