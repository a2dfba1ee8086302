import Mathlib.Algebra.Group.Int.Defs
import Mathlib.Algebra.Group.Nat.Defs
import Mathlib.Logic.Function.Basic
import SsrJson.Object.Value

/-!
# What an encode call works on

The objects `dumps` reads, as a graph whose containers refer to their items, and what one call
writes to: its output and the set of the containers it is inside of. Growth of the output and
insertions into the set may fail; which of them do is given by streams the call reads from.
-/

namespace SsrJson.Encode

/-- A reference to an object. -/
abbrev ObjId := Nat

/-- An object without items. An exact `str` is compact. -/
inductive Scalar where
  | none
  | bool (value : Bool)
  | long (value : Int)
  | float (bits : BitVec 64)
  | str (s : PyStr) (compact : Bool)
  | numpyInt (width : Nat) (value : Int)
  | numpyFloat (bits : BitVec 32)
  | numpyBool (value : Bool)
  | numpyArray (subclass : Bool)
  | unknown
  deriving DecidableEq, Repr

/-- An object. The entries of a dict that were deleted are `none`. -/
inductive HeapObj where
  | scalar (value : Scalar)
  | list (items : List ObjId)
  | tuple (items : List ObjId)
  | dict (entries : List (Option (ObjId × ObjId)))
  deriving DecidableEq, Repr

/-- The objects of a process. -/
abbrev Heap := ObjId → HeapObj

namespace HeapObj

/-- `PyList_GET_SIZE`, `PyTuple_GET_SIZE`. -/
def size : HeapObj → Nat
  | .list items => items.length
  | .tuple items => items.length
  | _ => 0

/-- `PyList_GET_ITEM`, `PyTuple_GET_ITEM`; nothing is there from the size on. -/
def item (obj : HeapObj) (pos : Nat) : Option ObjId :=
  match obj with
  | .list items => items[pos]?
  | .tuple items => items[pos]?
  | _ => none

/-- `PyDict_GET_SIZE`. -/
def dictSize : HeapObj → Nat
  | .dict entries => entries.countP Option.isSome
  | _ => 0

/-- The loop of `pydict_next` over the entries from a position on. -/
def nextEntry : (pos : Nat) → List (Option (ObjId × ObjId)) → Option (ObjId × ObjId × Nat)
  | _, [] => none
  | pos, some (key, val) :: _ => some (key, val, pos + 1)
  | pos, none :: entries => nextEntry (pos + 1) entries

/-- `pydict_next`: the next key, its value and the position behind them. -/
def dictNext (obj : HeapObj) (pos : Nat) : Option (ObjId × ObjId × Nat) :=
  match obj with
  | .dict entries => nextEntry pos (entries.drop pos)
  | _ => none

/-- `PyDict_Check`. -/
def isDict : HeapObj → Bool
  | .dict _ => true
  | _ => false

/-- `PyList_Check`. -/
def isList : HeapObj → Bool
  | .list _ => true
  | _ => false

/-- The objects a container refers to. -/
def children : HeapObj → List ObjId
  | .scalar _ => []
  | .list items => items
  | .tuple items => items
  | .dict entries => entries.flatMap fun
    | some (key, val) => [key, val]
    | none => []

end HeapObj

/-- `EncodeContainerType`. -/
inductive CtnType where
  | dict
  | list
  | tuple
  deriving DecidableEq, Repr

/-- The type of a container. -/
def HeapObj.ctnType : HeapObj → Option CtnType
  | .scalar _ => none
  | .list _ => some .list
  | .tuple _ => some .tuple
  | .dict _ => some .dict

/-- A list or a dict: tuples are never locked. -/
def HeapObj.lockable (obj : HeapObj) : Bool := obj.isList || obj.isDict

/-- `EncodeCtnWithIndex`: a container that is resumed when the one inside it ends. -/
structure CtnEntry where
  ctn : ObjId
  index : Nat
  type : CtnType
  deriving DecidableEq, Repr

/-! ## Arrays -/

/-- `MAX_NDARRAY_DIMENSION`. -/
def maxNdarrayDimension : Int := 32

/-- What the lookup of `__array_struct__` answers with: an exception, another object than a
capsule, a capsule whose pointer cannot be read, or a description of the array. -/
inductive ArrayStruct where
  | raised
  | notCapsule
  | noPointer
  | interface (two : Int) (cContiguous notSwapped : Bool) (nd : Int) (dtypeValid : Bool)
      (shape : List Nat)
  deriving DecidableEq, Repr

/-- Why `u8_buffer_append_ndarray` refuses an array. -/
inductive ArrayError where
  | lookup
  | capsule
  | malformed
  | notContiguous
  | byteOrder
  | zeroDimensional
  | tooManyDimensions
  | dtype
  deriving DecidableEq, Repr

/-- The text of the exception, where the encoder chooses it. -/
def ArrayError.message : ArrayError → Option String
  | .lookup => none
  | .capsule => some "__array_struct__ is not a valid PyCapsule"
  | .malformed => some "Malformed __array_struct__"
  | .notContiguous => some "numpy array must be C-contiguous"
  | .byteOrder => some "numpy array must have native byte order"
  | .zeroDimensional => some "numpy 0-d array should not reach ndarray encoder"
  | .tooManyDimensions => some "numpy array has too many dimensions"
  | .dtype => some "unsupported numpy dtype"

/-- The checks of `u8_buffer_append_ndarray`, and the shape that is left to be written. -/
def ArrayStruct.check : ArrayStruct → Except ArrayError (List Nat)
  | .raised | .noPointer => .error .lookup
  | .notCapsule => .error .capsule
  | .interface two cContiguous notSwapped nd dtypeValid shape =>
    if two ≠ 2 then .error .malformed
    else if cContiguous = false then .error .notContiguous
    else if notSwapped = false then .error .byteOrder
    else if nd < 1 then .error .zeroDimensional
    else if maxNdarrayDimension < nd then .error .tooManyDimensions
    else if dtypeValid = false then .error .dtype
    else .ok shape

/-! ## The output -/

/-- The exceptions a call raises. -/
inductive EncodeError where
  | noMemory
  | circular
  | tooNested
  | unsupportedType
  | keyType
  | unsignedLong
  | signedLong
  | surrogate
  | array (error : ArrayError)
  deriving DecidableEq, Repr

/-- The text of the exceptions whose text the encoder chooses. -/
def EncodeError.message : EncodeError → Option String
  | .circular => some "Circular reference detected"
  | .tooNested => some "Too many nested structures"
  | .unsupportedType => some "Unsupported type to encode"
  | .keyType => some "Expected `str` as key"
  | .unsignedLong => some "convert value to unsigned long long failed"
  | .signedLong => some "convert value to long long failed"
  | .array error => error.message
  | .noMemory | .surrogate => none

/-- What is written to the output at a time. -/
inductive OutToken where
  | openArr
  | closeArr
  | openObj
  | closeObj
  | comma
  | indent (depth : Nat)
  | key (s : PyStr)
  | scalar (value : Scalar)
  | array (shape : List Nat)
  deriving DecidableEq, Repr

/-- What the compiled variants differ in. -/
inductive Build where
  /-- `SSRJSON_GIL_ENABLED`. -/
  | gil
  | locking
  /-- `SSRJSON_FREE_THREADING_LOCKFREE`. -/
  | lockFree
  deriving DecidableEq, Repr

/-- A compiled variant of the encoder. -/
structure Variant where
  /-- `dumps_to_bytes` instead of `dumps`. -/
  toBytes : Bool
  build : Build
  /-- `COMPILE_INDENT_LEVEL`. -/
  indent : Nat
  deriving DecidableEq, Repr

/-- `!SSRJSON_GIL_ENABLED && !SSRJSON_FREE_THREADING_LOCKFREE`. -/
def Variant.locking (v : Variant) : Bool := v.build = .locking

/-- `_u_buf_info` and `unicode_info`, what is written so far, and the exception that is set. -/
structure EncodeOut where
  /-- Which requests for room fail. -/
  growth : Nat → Bool
  /-- How many requests were made. -/
  growths : Nat
  /-- The last token first. -/
  tokens : List OutToken
  /-- `cur_ucs_type`. -/
  ucsType : Nat
  /-- Whether `_u_buf_info.head` is a block, how many were allocated, and how often one was
  freed. -/
  head : Bool
  allocs : Nat
  frees : Nat
  /-- `PyErr_Occurred`. -/
  error : Option EncodeError

namespace EncodeOut

variable (out : EncodeOut)

/-- Write behind what is written. -/
def emit (tokens : List OutToken) : EncodeOut := { out with tokens := tokens.reverse ++ out.tokens }

/-- `writer--`. -/
def dropLast : EncodeOut := { out with tokens := out.tokens.tail }

/-- Set an exception. -/
def raise (error : EncodeError) : EncodeOut := { out with error := some error }

/-- `u_buf_reserve`: whether there is the room asked for. When growing fails, the old block is
still the output. -/
def uBufReserve : Bool × EncodeOut :=
  let asked := { out with growths := out.growths + 1 }
  if out.growth out.growths then (false, asked.raise .noMemory) else (true, asked)

/-- `init_u_buf`, `init_b_buf`. -/
def initUBuf : Bool × EncodeOut :=
  match out.uBufReserve with
  | (false, out) => (false, { out with head := false })
  | (true, out) => (true, { out with head := true, allocs := out.allocs + 1 })

/-- `if (_u_buf_info.head) { PyObject_Free(_u_buf_info.head); }`. -/
def free : EncodeOut := if out.head then { out with head := false, frees := out.frees + 1 } else out

end EncodeOut

/-! ## The writers -/

section Writers

variable (v : Variant) (depth : Nat) (inObj : Bool) (out : EncodeOut)

/-- `unicode_indent_writer`: no indent in front of the value of a key. -/
def unicodeIndentWriter : Bool × EncodeOut :=
  match out.uBufReserve with
  | (false, out) => (false, out)
  | (true, out) => (true, if inObj = false ∧ v.indent ≠ 0 then out.emit [.indent depth] else out)

/-- Reserve, write the indent, then some tokens. -/
def uBufApd (tokens : List OutToken) : Bool × EncodeOut :=
  match unicodeIndentWriter v depth inObj out with
  | (false, out) => (false, out)
  | (true, out) => (true, out.emit tokens)

/-- `u_buf_apd_bool`. -/
def uBufApdBool (value : Scalar) := uBufApd v depth inObj out [.scalar value, .comma]

/-- `u_buf_apd_null`. -/
def uBufApdNull := uBufApd v depth inObj out [.scalar .none, .comma]

/-- `u_buf_apd_float`. -/
def uBufApdFloat (bits : BitVec 64) := uBufApd v depth inObj out [.scalar (.float bits), .comma]

/-- `u_buf_apd_f32`. -/
def uBufApdF32 (bits : BitVec 32) := uBufApd v depth inObj out [.scalar (.numpyFloat bits), .comma]

/-- `u_buf_apd_empty_arr`. -/
def uBufApdEmptyArr := uBufApd v depth inObj out [.openArr, .closeArr, .comma]

/-- `u_buf_apd_arr_begin`. -/
def uBufApdArrBegin := uBufApd v depth inObj out [.openArr]

/-- `u_buf_apd_empty_obj`. -/
def uBufApdEmptyObj := uBufApd v depth inObj out [.openObj, .closeObj, .comma]

/-- `u_buf_apd_obj_begin`. -/
def uBufApdObjBegin := uBufApd v depth inObj out [.openObj]

/-- `u_buf_apd_obj_end`: over the last comma. -/
def uBufApdObjEnd := uBufApd v depth false out.dropLast [.closeObj, .comma]

/-- `u_buf_apd_arr_end`: over the last comma. -/
def uBufApdArrEnd := uBufApd v depth false out.dropLast [.closeArr, .comma]

/-- A code point reserved for surrogates is in a `str`. -/
def hasSurrogate (s : PyStr) : Bool := s.chars.any fun c => 0xD800 ≤ c && c ≤ 0xDFFF

/-- `prepare_unicode_write`: the width of the output after a `str` was written to it. -/
def prepareUnicodeWrite (s : PyStr) : EncodeOut :=
  if v.toBytes then out else { out with ucsType := max out.ucsType s.kind.code }

/-- The text of a `str` behind the indent. UTF-8 has none for a surrogate. -/
def writeStr (s : PyStr) (tokens : List OutToken) : Bool × EncodeOut :=
  if v.toBytes ∧ hasSurrogate s then (false, out.raise .surrogate) else (true, out.emit tokens)

/-- `u_buf_apd_str_wrapped`, `b_buf_apd_str`. -/
def uBufApdStr (s : PyStr) (compact : Bool) : Bool × EncodeOut :=
  match unicodeIndentWriter v depth inObj (prepareUnicodeWrite v out s) with
  | (false, out) => (false, out)
  | (true, out) => writeStr v out s [.scalar (.str s compact), .comma]

/-- `u_buf_apd_key_wrapped`, `b_buf_apd_key`. -/
def uBufApdKey (s : PyStr) : Bool × EncodeOut :=
  match unicodeIndentWriter v depth false (prepareUnicodeWrite v out s) with
  | (false, out) => (false, out)
  | (true, out) => writeStr v out s [.key s]

/-- `u8_buffer_append_ndarray` behind the attribute lookup, and `encode_ndarray_val` behind it,
which needs more room in a wider output. -/
def uBufApdNdarray (ucs : Nat) (answer : ArrayStruct) : Bool × EncodeOut :=
  match answer.check with
  | .error error => (false, out.raise (.array error))
  | .ok shape =>
    match uBufApd v depth inObj out [.array shape, .comma] with
    | (false, out) => (false, out)
    | (true, out) => if 1 < ucs then out.uBufReserve else (true, out)

end Writers

/-! ## The set of the containers on the path -/

/-- `pyobj_set`. -/
structure PathSet where
  members : List ObjId
  /-- Which requests for room fail. -/
  insert : Nat → Bool
  /-- How many requests were made. -/
  inserts : Nat

namespace PathSet

/-- A request for room: `kh_init`, `kh_resize`, and `kh_put` before it looks for the element. -/
def request (set : PathSet) : Bool × PathSet :=
  (!set.insert set.inserts, { set with inserts := set.inserts + 1 })

/-- `kh_put`: positive for a new element, 0 for one that is there, -1 when there is no room. -/
def khPut (set : PathSet) (obj : ObjId) : Int × PathSet :=
  match set.request with
  | (false, set) => (-1, set)
  | (true, set) =>
    if obj ∈ set.members then (0, set) else (1, { set with members := obj :: set.members })

/-- `kh_get`, then `kh_del`, which does nothing at `kh_end`. -/
def khDel (set : PathSet) (obj : ObjId) : PathSet := { set with members := set.members.erase obj }

/-- `kh_destroy`. -/
def khDestroy (set : PathSet) : PathSet := { set with members := [] }

end PathSet

end SsrJson.Encode
