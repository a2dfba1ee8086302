import SsrJson.Ndarray.ReserveWrap
import SsrJson.Output.Lists
import SsrJson.Simd.LongCvt

/-!
# Arrays as nested lists

An array in a container is written as bytes where the output stands, and widened in place where the
output has wider elements. `toList` is the nested list that numpy makes of the array. The two
encoders append the same text: `arrayText_eq` for the text of the traversal, and
`ndarray_like_list` for the output in any width.
-/

namespace SsrJson.Ndarray

open Output StoreWriter ByteBuffer

/-! ## The list of an array -/

/-- The types of integers and bools. -/
def NdaType.Exact (type : NdaType) : Prop := type ≠ .f64 ∧ type ≠ .f32 ∧ type ≠ .f16

instance (type : NdaType) : Decidable type.Exact := inferInstanceAs (Decidable (_ ∧ _ ∧ _))

/-- The Python value of an element. -/
def elemValue : (type : NdaType) → type.Exact → type.Elem → Nested
  | .f64, h, _ => absurd rfl h.1
  | .f32, h, _ => absurd rfl h.2.1
  | .f16, h, _ => absurd rfl h.2.2
  | .i64, _, v => .long (NumpyInt.int64 v).value
  | .i32, _, v => .long (NumpyInt.int32 v).value
  | .i16, _, v => .long (NumpyInt.int16 v).value
  | .i8, _, v => .long (NumpyInt.int8 v).value
  | .u64, _, v => .long (NumpyInt.uint64 v).value
  | .u32, _, v => .long (NumpyInt.uint32 v).value
  | .u16, _, v => .long (NumpyInt.uint16 v).value
  | .u8, _, v => .long (NumpyInt.uint8 v).value
  | .bool, _, v => .bool (v != (0 : UInt8))

/-- The lists along a dimension. -/
def rowsOf (child : Int → Nested) (stride : Int) : (n : Nat) → (p : Int) → List Nested
  | 0, _ => []
  | n + 1, p => child p :: rowsOf child stride n (p + stride)

/-- The nested list of some dimensions. -/
def listOf (elem : Int → Nested) : List Dim → (p : Int) → Nested
  | [], p => elem p
  | d :: dims, p => .list (rowsOf (listOf elem dims) d.stride d.extent p)

/-- `array.tolist()`. -/
def PyArrayInterface.toList (array : PyArrayInterface) (h : array.ndatype.Exact) : Nested :=
  listOf (fun p => elemValue array.ndatype h (array.load p)) array.dims array.data

/-! ## The encoders -/

section Encoders

variable (isa : Decode.Isa) (floats : FloatWriters) (indent : Nat) (realloc : Nat → Bool)

/-- `u8_buffer_append_ndarray` behind its checks. -/
def u8BufferAppendNdarray (curNestedDepth : Nat) (array : PyArrayInterface) (isInObj : Bool)
    (u : UBuf) : Option (Except UBuf UBuf) :=
  let reserveCnt := getNdarrayReserveCnt wrap64 indent (getElemWriteSize array.ndatype) array.shape
    curNestedDepth isInObj
  match uBufReserve realloc reserveCnt u with
  | .error u => some (.error u)
  | .ok u =>
    (writeNdarray isa floats indent curNestedDepth isInObj array u.writer).map fun writer =>
      .ok { u with writer }

/-- The output behind an array: its size, the index of the next element, and the memory. -/
structure ArrayOutput where
  info : EncodeUBufInfo
  index : Nat
  memory : ByteBuffer

/-- `encode_ndarray_val`, or the branch for arrays of `dumps_to_bytes` where elements are bytes.
The memory, which begins at an address, is what it was before the stores of the writer. -/
def encodeNdarrayVal (address curNestedDepth : Nat) (array : PyArrayInterface) (isInObj : Bool)
    (memory : ByteBuffer) (u : UBuf) : Option (Except UBuf ArrayOutput) :=
  let width := u.writer.width
  let originalU8Offset := width * u.writer.index
  let bytes := { u with writer := { u.writer with width := 1, index := originalU8Offset } }
  match u8BufferAppendNdarray isa floats indent realloc curNestedDepth array isInObj bytes with
  | none => none
  | some (.error u) => some (.error u)
  | some (.ok v) =>
    if width = 1 then some (.ok ⟨v.info, v.writer.index, v.writer.buffer memory⟩)
    else
      let writtenCnt := v.writer.index - originalU8Offset
      -- The wide elements may need more memory than the bytes.
      match uBufReserve realloc writtenCnt { v with writer := u.writer } with
      | .error u => some (.error u)
      | .ok wide => some (.ok ⟨wide.info, u.writer.index + writtenCnt,
          Simd.longBackCvt isa address 1 width u.writer.index originalU8Offset writtenCnt
            (v.writer.buffer memory)⟩)

/-- `ENCODE_DST_BUFFER_INIT_SIZE` is a power of two. -/
theorem initSize_pow : ∃ k ≤ 62, 1024 = 2 ^ k := ⟨10, by decide, rfl⟩

/-- The output of a whole document: it begins behind a header, in memory of the first size. -/
def initBuf (start : Nat) : UBuf where
  writer := ⟨1, start, []⟩
  info := ⟨1024, initSize_pow⟩
  unicodeInfo := ⟨0, 0, 0, .ascii⟩

/-- The text of a document: what is behind the header, less the last comma. -/
def documentText (start : Nat) (memory : ByteBuffer) (u : UBuf) : List Nat :=
  (u.writer.buffer memory).loadList 1 start (u.writer.index - 1 - start)

/-- `ssrjson_dumps_single_ndarray`, up to where the object is made. -/
def dumpsSingleNdarray (start : Nat) (array : PyArrayInterface) (memory : ByteBuffer) :
    Option (Except UBuf (List Nat)) :=
  (u8BufferAppendNdarray isa floats indent realloc 0 array true (initBuf start)).map fun result =>
    result.map (documentText start memory)

/-- `ssrjson_dumps_obj` and `ssrjson_dumps_to_bytes_obj` on a list of ASCII, up to there. -/
def dumpsList (stack : ByteBuffer) (start : Nat) (val : Nested) (memory : ByteBuffer) :
    Option (Except ListFault (List Nat)) :=
  (encodeVal isa indent realloc stack 0 true val (initBuf start)).map fun result =>
    result.map (documentText start memory)

end Encoders

/-! ## The texts are the same -/

section Texts

variable {indent : Nat}

/-- The texts of the elements of a dimension are those of the items of the list. -/
theorem childrenText_eq {child : Int → Nested} {text : Int → List Nat} {curNestedDepth : Nat}
    (h : ∀ p, text p = nestedText indent curNestedDepth (child p)) (stride : Int) (n : Nat)
    (p : Int) :
    childrenText (fun p => indentText indent curNestedDepth ++ text p) stride n p =
      itemsText indent curNestedDepth (rowsOf child stride n p) := by
  induction n generalizing p with
  | zero =>
      rw [rowsOf, itemsText]
      rfl
  | succ n ih => rw [childrenText, rowsOf, itemsText, ih, h]

/-- The text of the traversal is that of the nested list. -/
theorem arrayText_eq {elem : Int → Nested} {elemText : Int → List Nat}
    (h : ∀ depth p, elemText p = nestedText indent depth (elem p)) (baseNestedDepth : Nat)
    (dims : List Dim) (depth : Nat) (p : Int) :
    arrayText indent baseNestedDepth elemText depth dims p =
      nestedText indent (baseNestedDepth + depth) (listOf elem dims p) := by
  induction dims generalizing depth p with
  | nil => exact h _ p
  | cons d dims ih =>
      have hrow : ∀ p, arrayText indent baseNestedDepth elemText (depth + 1) dims p =
          nestedText indent (baseNestedDepth + depth + 1) (listOf elem dims p) := ih (depth + 1)
      rw [arrayText, listOf, childrenText_eq hrow, closeText]
      cases hextent : d.extent with
      | zero =>
          rw [if_neg (Nat.lt_irrefl 0), rowsOf, itemsText, nestedText]
          rfl
      | succ n =>
          rw [if_pos (Nat.succ_pos n), rowsOf, nestedText, List.append_assoc]

/-- How deep the list is. -/
theorem height_listOf {elem : Int → Nested} (h : ∀ p, (elem p).height = 0) (dims : List Dim)
    (p : Int) : (listOf elem dims p).height ≤ dims.length := by
  induction dims generalizing p with
  | nil => exact (h p).le
  | cons d dims ih =>
      have hrows : ∀ (n : Nat) (p : Int),
          heightList (rowsOf (listOf elem dims) d.stride n p) ≤ dims.length := by
        intro n
        induction n with
        | zero =>
            intro p
            rw [rowsOf, heightList]
            exact Nat.zero_le _
        | succ n ihn =>
            intro p
            rw [rowsOf, heightList]
            exact Nat.max_le.mpr ⟨ih p, ihn _⟩
      rw [listOf, List.length_cons]
      cases hextent : d.extent with
      | zero =>
          rw [rowsOf, Nested.height]
          exact Nat.zero_le _
      | succ n =>
          rw [rowsOf, Nested.height]
          exact Nat.succ_le_succ (hrows (n + 1) p)

theorem fits_listOf {elem : Int → Nested} (h : ∀ p, (elem p).Fits) (dims : List Dim) (p : Int) :
    (listOf elem dims p).Fits := by
  induction dims generalizing p with
  | nil => exact h p
  | cons d dims ih =>
      rw [listOf, Nested.Fits]
      generalize d.extent = n
      induction n generalizing p with
      | zero =>
          rw [rowsOf, FitsList]
          trivial
      | succ n ihn =>
          rw [rowsOf, FitsList]
          exact ⟨ih p, ihn _⟩

end Texts

/-! ## What the traversal writes -/

section Writes

variable {indent : Nat}

/-- A numpy integer has 64 bits. -/
theorem fits_numpyInt (n : NumpyInt) : (Nested.long n.value).Fits := by
  rw [Nested.Fits]
  cases n with
  | int8 v =>
      have hle := Int8.le_toInt v
      have hlt := Int8.toInt_lt v
      show -2 ^ 63 ≤ v.toInt ∧ v.toInt < 2 ^ 64
      omega
  | int16 v =>
      have hle := Int16.le_toInt v
      have hlt := Int16.toInt_lt v
      show -2 ^ 63 ≤ v.toInt ∧ v.toInt < 2 ^ 64
      omega
  | int32 v =>
      have hle := Int32.le_toInt v
      have hlt := Int32.toInt_lt v
      show -2 ^ 63 ≤ v.toInt ∧ v.toInt < 2 ^ 64
      omega
  | int64 v =>
      have hle := Int64.le_toInt v
      have hlt := Int64.toInt_lt v
      show -2 ^ 63 ≤ v.toInt ∧ v.toInt < 2 ^ 64
      omega
  | uint8 v =>
      have hlt := UInt8.toNat_lt v
      show -2 ^ 63 ≤ (v.toNat : Int) ∧ (v.toNat : Int) < 2 ^ 64
      omega
  | uint16 v =>
      have hlt := UInt16.toNat_lt v
      show -2 ^ 63 ≤ (v.toNat : Int) ∧ (v.toNat : Int) < 2 ^ 64
      omega
  | uint32 v =>
      have hlt := UInt32.toNat_lt v
      show -2 ^ 63 ≤ (v.toNat : Int) ∧ (v.toNat : Int) < 2 ^ 64
      omega
  | uint64 v =>
      have hlt := UInt64.toNat_lt v
      show -2 ^ 63 ≤ (v.toNat : Int) ∧ (v.toNat : Int) < 2 ^ 64
      omega

/-- What an element is, by its type. -/
theorem elemValue_cases (type : NdaType) (hexact : type.Exact) (v : type.Elem) :
    (∃ n : NumpyInt, elemValue type hexact v = .long n.value ∧
      n.elemWriteSize = getElemWriteSize type ∧
      ∀ isa floats w, writeElem isa floats type v w = ndarrayWriteElem n w) ∨
    ∃ b : UInt8, elemValue type hexact v = .bool (b != 0) ∧
      getElemWriteSize .bool = getElemWriteSize type ∧
      ∀ isa floats w, writeElem isa floats type v w = writeUnicodeBool isa (b == 0) w := by
  cases type with
  | f64 => exact absurd rfl hexact.1
  | f32 => exact absurd rfl hexact.2.1
  | f16 => exact absurd rfl hexact.2.2
  | i64 => exact .inl ⟨.int64 v, rfl, rfl, fun _ _ _ => rfl⟩
  | i32 => exact .inl ⟨.int32 v, rfl, rfl, fun _ _ _ => rfl⟩
  | i16 => exact .inl ⟨.int16 v, rfl, rfl, fun _ _ _ => rfl⟩
  | i8 => exact .inl ⟨.int8 v, rfl, rfl, fun _ _ _ => rfl⟩
  | u64 => exact .inl ⟨.uint64 v, rfl, rfl, fun _ _ _ => rfl⟩
  | u32 => exact .inl ⟨.uint32 v, rfl, rfl, fun _ _ _ => rfl⟩
  | u16 => exact .inl ⟨.uint16 v, rfl, rfl, fun _ _ _ => rfl⟩
  | u8 => exact .inl ⟨.uint8 v, rfl, rfl, fun _ _ _ => rfl⟩
  | bool => exact .inr ⟨v, rfl, rfl, fun _ _ _ => rfl⟩

theorem elemValue_height (type : NdaType) (hexact : type.Exact) (v : type.Elem) :
    (elemValue type hexact v).height = 0 := by
  rcases elemValue_cases type hexact v with ⟨n, hvalue, -⟩ | ⟨b, hvalue, -⟩
  · rw [hvalue, Nested.height]
  · rw [hvalue, Nested.height]

theorem elemValue_fits (type : NdaType) (hexact : type.Exact) (v : type.Elem) :
    (elemValue type hexact v).Fits := by
  rcases elemValue_cases type hexact v with ⟨n, hvalue, -⟩ | ⟨b, hvalue, -⟩
  · rw [hvalue]
    exact fits_numpyInt n
  · rw [hvalue, Nested.Fits]
    trivial

/-- The list of an array is nested as deep as the array has dimensions, or less. -/
theorem PyArrayInterface.toList_height (array : PyArrayInterface) (hexact : array.ndatype.Exact) :
    (array.toList hexact).height ≤ array.dims.length :=
  height_listOf (fun p => elemValue_height _ hexact (array.load p)) array.dims array.data

theorem PyArrayInterface.toList_fits (array : PyArrayInterface) (hexact : array.ndatype.Exact) :
    (array.toList hexact).Fits :=
  fits_listOf (fun p => elemValue_fits _ hexact (array.load p)) array.dims array.data

/-- The text of an integer or a bool does not depend on its position. -/
theorem elemValue_text (type : NdaType) (hexact : type.Exact) (v : type.Elem)
    (depth depth' : Nat) : nestedText indent depth (elemValue type hexact v) =
      nestedText indent depth' (elemValue type hexact v) := by
  rcases elemValue_cases type hexact v with ⟨n, hvalue, -⟩ | ⟨b, hvalue, -⟩
  · rw [hvalue, nestedText, nestedText]
  · rw [hvalue, nestedText, nestedText]

/-- An element is written as the value is. -/
theorem writeElem_value (isa : Decode.Isa) (floats : FloatWriters) (type : NdaType)
    (hexact : type.Exact) (v : type.Elem) (depth : Nat) (w : StoreWriter) (hw : 0 < w.width) :
    Writes w (writeElem isa floats type v w) (nestedText indent depth (elemValue type hexact v))
        (getElemWriteSize type + 1 + 9) ∧
      (nestedText indent depth (elemValue type hexact v)).length ≤ getElemWriteSize type + 1 := by
  rcases elemValue_cases type hexact v with ⟨n, hvalue, hsize, hwrite⟩ | ⟨b, hvalue, hsize, hwrite⟩
  · rw [hvalue, nestedText, hwrite, ← hsize, List.length_append]
    exact ⟨(ndarrayWriteElem_writes n hw).mono (Nat.le_add_right _ _),
      Nat.add_le_add_right n.length_le 1⟩
  · have hbool := writeBool_writes isa b hw
    have htext : boolItemText (b != 0) = boolText b := by
      unfold boolItemText boolText
      by_cases hzero : b = 0
      · rw [if_pos hzero, if_neg (by simp [hzero])]
      · rw [if_neg hzero, if_pos (by simp [hzero])]
    rw [hvalue, nestedText, hwrite, ← hsize, htext]
    exact hbool

/-- An array writes what its list is written as, and stores no more than its exact count. -/
theorem writeNdarray_writes (isa : Decode.Isa) (floats : FloatWriters) (curNestedDepth : Nat)
    (isInObj : Bool) (array : PyArrayInterface) (hexact : array.ndatype.Exact) {w : StoreWriter}
    (hw : 0 < w.width) :
    ∃ w', writeNdarray isa floats indent curNestedDepth isInObj array w = some w' ∧
      Writes w w' (valueIndent indent curNestedDepth isInObj ++
          nestedText indent curNestedDepth (array.toList hexact))
        (getNdarrayReserveCnt id indent (getElemWriteSize array.ndatype) array.shape curNestedDepth
          isInObj) := by
  obtain ⟨w', hwritten, hwrites⟩ := @writeNdarray_within isa floats indent curNestedDepth isInObj
    array (fun v => nestedText indent 0 (elemValue array.ndatype hexact v))
    (fun v w hw => writeElem_value isa floats array.ndatype hexact v 0 w hw) w hw
  have htext := @arrayText_eq indent (fun p => elemValue array.ndatype hexact (array.load p)) _
    (fun depth p => elemValue_text array.ndatype hexact (array.load p) 0 depth) curNestedDepth
    array.dims 0 array.data
  rw [htext] at hwrites
  exact ⟨w', hwritten, hwrites⟩

end Writes

/-! ## The outputs are the same -/

section Alike

/-- A text was appended: the index has moved on by its length, it is read back from where the output
ended, and the output in front of it is still there. -/
structure TextAppended (width index : Nat) (before : ByteBuffer) (text : List Nat) (index' : Nat)
    (after : ByteBuffer) : Prop where
  advanced : index' = index + text.length
  kept : after.loadList width index text.length = text
  below : ∀ a < width * index, after a = before a

variable (isa : Decode.Isa) (floats : FloatWriters) (indent : Nat) (realloc : Nat → Bool)
  (stack : ByteBuffer)

/-- The output as a writer of bytes: the index counts bytes. -/
def asBytes (u : UBuf) : UBuf :=
  { u with writer := { u.writer with width := 1, index := u.writer.width * u.writer.index } }

/-- The count of an array in 64 bits is not granted where the output stands as bytes, or the wider
elements of its text are not, behind the bytes. -/
def NdarrayRefused (curNestedDepth : Nat) (isInObj : Bool) (array : PyArrayInterface)
    (length : Nat) (u : UBuf) : Prop :=
  (∃ v, uBufReserve realloc (getNdarrayReserveCnt wrap64 indent (getElemWriteSize array.ndatype)
      array.shape curNestedDepth isInObj) (asBytes u) = .error v) ∨
    ∃ v, uBufReserve realloc (getNdarrayReserveCnt wrap64 indent (getElemWriteSize array.ndatype)
        array.shape curNestedDepth isInObj) (asBytes u) = .ok v ∧
      u.writer.width ≠ 1 ∧
      ∃ v', uBufReserve realloc length { v with writer := u.writer } = .error v'

/-- The encoder of arrays fails just where a reservation is not granted, and otherwise appends a
text. Where the exact count has 64 bits, it changes no byte behind the memory it made sure of. -/
def NdarrayAppends (address curNestedDepth : Nat) (isInObj : Bool) (array : PyArrayInterface)
    (memory : ByteBuffer) (u : UBuf) (text : List Nat) : Prop :=
  ∃ result, encodeNdarrayVal isa floats indent realloc address curNestedDepth array isInObj
      memory u = some result ∧
    (NdarrayRefused indent realloc curNestedDepth isInObj array text.length u →
      ∃ v, result = .error v) ∧
    (¬ NdarrayRefused indent realloc curNestedDepth isInObj array text.length u →
      ∃ out, result = .ok out ∧
        TextAppended u.writer.width u.writer.index (u.writer.buffer memory) text out.index
          out.memory ∧
        (getNdarrayReserveCnt id indent (getElemWriteSize array.ndatype) array.shape curNestedDepth
            isInObj < 2 ^ 64 →
          ∀ a, out.info.u8len ≤ a → out.memory a = u.writer.buffer memory a))

/-- The encoder of lists appends a text, or there is no memory for it, or the list is nested too
deeply to be encoded at all. -/
def ListAppends (curNestedDepth : Nat) (isInObj : Bool) (val : Nested) (height : Nat)
    (memory : ByteBuffer) (u : UBuf) (text : List Nat) : Prop :=
  ∃ result, encodeVal isa indent realloc stack curNestedDepth isInObj val u = some result ∧
    (∀ u', result = .ok u' → TextAppended u.writer.width u.writer.index (u.writer.buffer memory)
      text u'.writer.index (u'.writer.buffer memory)) ∧
    ∀ fault, result = .error fault → fault = .memory ∧ NoMemory realloc u text.length ∨
      fault = .tooNested ∧ maxRecursion < curNestedDepth + height

/-- An array and its list append the same text, which is that of the list. -/
def AppendAlike (address curNestedDepth : Nat) (isInObj : Bool) (array : PyArrayInterface)
    (hexact : array.ndatype.Exact) (memory : ByteBuffer) (u : UBuf) : Prop :=
  NdarrayAppends isa floats indent realloc address curNestedDepth isInObj array memory u
      (valueIndent indent curNestedDepth isInObj ++
        nestedText indent curNestedDepth (array.toList hexact)) ∧
    ListAppends isa indent realloc stack curNestedDepth isInObj (array.toList hexact)
      array.dims.length memory u
      (valueIndent indent curNestedDepth isInObj ++
        nestedText indent curNestedDepth (array.toList hexact))

/-- The array is not granted its count where it is the whole document. -/
def DocumentRefused (start : Nat) (array : PyArrayInterface) : Prop :=
  ∃ v, uBufReserve realloc (getNdarrayReserveCnt wrap64 indent (getElemWriteSize array.ndatype)
    array.shape 0 true) (initBuf start) = .error v

/-- As whole documents they are the text of the list without its last comma. The array fails just
where its count is not granted, the list only where there is no memory for the text. -/
def DocumentsAlike (start : Nat) (array : PyArrayInterface) (hexact : array.ndatype.Exact)
    (memory : ByteBuffer) : Prop :=
  (∃ result, dumpsSingleNdarray isa floats indent realloc start array memory = some result ∧
    (DocumentRefused indent realloc start array → ∃ v, result = .error v) ∧
    (¬ DocumentRefused indent realloc start array →
      result = .ok (nestedText indent 0 (array.toList hexact)).dropLast)) ∧
  ∃ result, dumpsList isa indent realloc stack start (array.toList hexact) memory = some result ∧
    (∀ text, result = .ok text → text = (nestedText indent 0 (array.toList hexact)).dropLast) ∧
    ∀ fault, result = .error fault → fault = .memory ∧
      NoMemory realloc (initBuf start) (nestedText indent 0 (array.toList hexact)).length

variable {isa floats indent realloc stack}

theorem textAppended_writes {w w' : StoreWriter} {text : List Nat} {room : Nat}
    (h : Writes w w' text room) (memory : ByteBuffer) :
    TextAppended w.width w.index (w.buffer memory) text w'.index (w'.buffer memory) where
  advanced := h.index
  kept := h.load memory
  below := fun _ ha => h.below memory ha

/-- A reservation leaves the writer alone, and makes sure of what it was asked for. -/
theorem uBufReserve_ok {size : Nat} {u u' : UBuf} (h : uBufReserve realloc size u = .ok u') :
    u'.writer = u.writer ∧ u.info.u8len ≤ u'.info.u8len ∧
      u.writer.width * (u.writer.index + size) ≤ u'.info.u8len := by
  unfold uBufReserve at h
  dsimp only at h
  split at h
  · have hgrow := EncodeUBufInfo.grow_spec (u.writer.width * (u.writer.index + size)) u.info
    cases hresult : u.info.grow (u.writer.width * (u.writer.index + size)) with
    | none =>
        rw [hresult] at h
        cases h
    | some info =>
        rw [hresult] at h hgrow
        dsimp only at h
        split at h
        · cases h
          exact ⟨rfl, hgrow.2, hgrow.1⟩
        · cases h
  · rename_i hsmall
    cases h
    exact ⟨rfl, Nat.le_refl _, Nat.not_lt.mp hsmall⟩

/-- Where every size is granted and no more than the greatest is asked for, a reservation is
granted. -/
theorem uBufReserve_granted {size : Nat} {u : UBuf} (hrealloc : ∀ n, realloc n = true)
    (hmax : u.writer.width * (u.writer.index + size) ≤ reserveMax) {v : UBuf} :
    uBufReserve realloc size u ≠ .error v := by
  intro h
  rcases uBufReserve_error h with ⟨n, hrefused⟩ | hlarge
  · rw [hrealloc n] at hrefused
    cases hrefused
  · exact Nat.not_lt.mpr hmax hlarge

theorem isBytes_replay (log : List Store) {memory : ByteBuffer} (h : memory.IsBytes) :
    (Store.replay log memory).IsBytes := by
  induction log generalizing memory with
  | nil => exact h
  | cons s log ih => exact ih (h.store _ _ _ _)

/-- The stores of a text leave everything behind the room alone. -/
theorem writes_behind {w w' : StoreWriter} {text : List Nat} {room bound : Nat}
    (h : Writes w w' text room) (hbound : w.width * (w.index + room) ≤ bound)
    (memory : ByteBuffer) {a : Nat} (ha : bound ≤ a) : w'.buffer memory a = w.buffer memory a := by
  obtain ⟨log, hlog, hwithin⟩ := h.within hbound
  unfold StoreWriter.buffer
  rw [hlog, Store.replay_append]
  exact Store.replay_beyond hwithin ha

/-- Behind a writer of bytes an array fails where its count is not granted, and otherwise appends
its text within the exact count. -/
theorem u8BufferAppendNdarray_writes (curNestedDepth : Nat) (array : PyArrayInterface)
    (hexact : array.ndatype.Exact) (isInObj : Bool) {u : UBuf} (hwidth : 0 < u.writer.width) :
    (∀ v, uBufReserve realloc (getNdarrayReserveCnt wrap64 indent (getElemWriteSize array.ndatype)
          array.shape curNestedDepth isInObj) u = .error v →
        u8BufferAppendNdarray isa floats indent realloc curNestedDepth array isInObj u =
          some (.error v)) ∧
      ∀ v, uBufReserve realloc (getNdarrayReserveCnt wrap64 indent (getElemWriteSize array.ndatype)
          array.shape curNestedDepth isInObj) u = .ok v →
        ∃ writer, u8BufferAppendNdarray isa floats indent realloc curNestedDepth array isInObj u =
            some (.ok { v with writer }) ∧
          Writes u.writer writer (valueIndent indent curNestedDepth isInObj ++
              nestedText indent curNestedDepth (array.toList hexact))
            (getNdarrayReserveCnt id indent (getElemWriteSize array.ndatype) array.shape
              curNestedDepth isInObj) := by
  unfold u8BufferAppendNdarray
  dsimp only
  refine ⟨fun v hreserve => ?_, fun v hreserve => ?_⟩
  · rw [hreserve]
  · have hwriter := (uBufReserve_ok hreserve).1
    obtain ⟨w', hwritten, hwrites⟩ := @writeNdarray_writes indent isa floats curNestedDepth
      isInObj array hexact u.writer hwidth
    rw [hreserve]
    dsimp only
    rw [hwriter, hwritten]
    exact ⟨w', rfl, hwrites⟩

/-- An array appends its text in elements of any width. -/
theorem encodeNdarrayVal_appended (address curNestedDepth : Nat) (isInObj : Bool)
    (array : PyArrayInterface) (hexact : array.ndatype.Exact) {memory : ByteBuffer}
    (hmemory : memory.IsBytes) {u : UBuf} (hwidth : u.writer.width ∈ [1, 2, 4]) :
    NdarrayAppends isa floats indent realloc address curNestedDepth isInObj array memory u
      (valueIndent indent curNestedDepth isInObj ++
        nestedText indent curNestedDepth (array.toList hexact)) := by
  obtain ⟨hrefused, hgranted⟩ := @u8BufferAppendNdarray_writes isa floats indent realloc
    curNestedDepth array hexact isInObj (asBytes u) Nat.one_pos
  unfold NdarrayAppends NdarrayRefused encodeNdarrayVal
  generalize valueIndent indent curNestedDepth isInObj ++
    nestedText indent curNestedDepth (array.toList hexact) = text at hgranted ⊢
  dsimp only
  show ∃ result, (match u8BufferAppendNdarray isa floats indent realloc curNestedDepth array isInObj
    (asBytes u) with | none => _ | some (.error u) => _ | some (.ok v) => _) = some result ∧ _
  cases hreserve : uBufReserve realloc (getNdarrayReserveCnt wrap64 indent
      (getElemWriteSize array.ndatype) array.shape curNestedDepth isInObj) (asBytes u) with
  | error v =>
      rw [hrefused v hreserve]
      exact ⟨_, rfl, fun _ => ⟨v, rfl⟩, fun h => absurd (.inl ⟨v, rfl⟩) h⟩
  | ok v =>
      obtain ⟨writer, happend, hwrites⟩ := hgranted v hreserve
      obtain ⟨-, hlarger, hroom⟩ := uBufReserve_ok hreserve
      rw [happend]
      have hbytes : TextAppended 1 (u.writer.width * u.writer.index) (u.writer.buffer memory) text
          writer.index (writer.buffer memory) := textAppended_writes hwrites memory
      have hindex : writer.index = u.writer.width * u.writer.index + text.length :=
        hbytes.advanced
      -- What was asked for in 64 bits is the exact count where that has 64 bits.
      have hbehind : getNdarrayReserveCnt id indent (getElemWriteSize array.ndatype) array.shape
          curNestedDepth isInObj < 2 ^ 64 →
          ∀ a, v.info.u8len ≤ a → writer.buffer memory a = u.writer.buffer memory a := by
        intro hcount a ha
        rw [getNdarrayReserveCnt_wrap, wrap64, Nat.mod_eq_of_lt hcount] at hroom
        exact writes_behind hwrites hroom memory ha
      dsimp only
      by_cases hone : u.writer.width = 1
      · rw [if_pos hone]
        refine ⟨_, rfl, fun h => ?_, fun _ => ⟨_, rfl, ?_, hbehind⟩⟩
        · rcases h with ⟨v', h⟩ | ⟨v', -, hne, -⟩
          · cases h
          · exact absurd hone hne
        · rw [hone, Nat.one_mul] at hbytes
          rw [hone]
          exact hbytes
      · have hcount : writer.index - u.writer.width * u.writer.index = text.length := by
          rw [hindex, Nat.add_sub_cancel_left]
        rw [if_neg hone, hcount]
        cases hwide : uBufReserve realloc text.length { v with writer := u.writer } with
        | error v' =>
            exact ⟨_, rfl, fun _ => ⟨v', rfl⟩,
              fun h => absurd (.inr ⟨v, rfl, hone, v', hwide⟩) h⟩
        | ok wide =>
            refine ⟨_, rfl, fun h => ?_, fun _ => ⟨_, rfl, ?_⟩⟩
            · rcases h with ⟨v', h⟩ | ⟨v', h, -, v'', hrefused'⟩
              · cases h
              · cases h
                rw [hwide] at hrefused'
                cases hrefused'
            · -- The bytes are widened from where they begin, which is where the output ended.
              have hwidths : (1, u.writer.width) ∈ Simd.cvtWidths := by
                simp only [List.mem_cons, List.not_mem_nil, or_false] at hwidth
                rcases hwidth with hwidth | hwidth | hwidth
                · exact absurd hwidth hone
                · rw [hwidth]
                  decide
                · rw [hwidth]
                  decide
              obtain ⟨hload, houtside⟩ := @Simd.longBackCvt_spec isa address 1 u.writer.width
                u.writer.index (u.writer.width * u.writer.index) text.length (writer.buffer memory)
                hwidths (isBytes_replay _ hmemory) (by rw [Nat.one_mul])
              obtain ⟨-, hlarger', hroom'⟩ := uBufReserve_ok hwide
              have hlarger' : v.info.u8len ≤ wide.info.u8len := hlarger'
              have hroom' : u.writer.width * (u.writer.index + text.length) ≤ wide.info.u8len :=
                hroom'
              refine ⟨⟨rfl, ?_, fun a ha => ?_⟩, fun hexactCount a ha => ?_⟩
              · dsimp only
                rw [hload]
                exact hbytes.kept
              · dsimp only
                rw [houtside a (.inl ha)]
                exact hbytes.below a (by rwa [Nat.one_mul])
              · dsimp only at ha ⊢
                rw [houtside a (.inr (hroom'.trans ha))]
                exact hbehind hexactCount a (hlarger'.trans ha)

/-- What a list appends. -/
theorem encodeVal_appended (curNestedDepth : Nat) (isInObj : Bool) (array : PyArrayInterface)
    (hexact : array.ndatype.Exact) {u : UBuf} (hwidth : 0 < u.writer.width) (memory : ByteBuffer) :
    ListAppends isa indent realloc stack curNestedDepth isInObj (array.toList hexact)
      array.dims.length memory u
      (valueIndent indent curNestedDepth isInObj ++
        nestedText indent curNestedDepth (array.toList hexact)) := by
  have hheight := array.toList_height hexact
  have hwrote := @encodeNested_wrote isa indent realloc stack (array.toList hexact)
    (array.toList_fits hexact) curNestedDepth isInObj u hwidth
  refine ⟨_, encodeVal_eq curNestedDepth isInObj (array.toList hexact) u, fun u' h => ?_,
    fun fault h => ?_⟩
  · rw [h] at hwrote
    obtain ⟨room, hwrites⟩ := hwrote
    exact textAppended_writes hwrites memory
  · rw [h] at hwrote
    cases fault with
    | memory => exact .inl ⟨rfl, hwrote⟩
    | tooNested =>
        have hlt : maxRecursion < curNestedDepth + (array.toList hexact).height := hwrote
        exact .inr ⟨rfl, by omega⟩
    | convert => exact absurd hwrote id

/-- The text of a document is what was appended, without the last comma. -/
theorem documentText_writes {start : Nat} {memory : ByteBuffer} {u : UBuf} {text : List Nat}
    {room : Nat} (h : Writes (initBuf start).writer u.writer text room) (htext : text ≠ []) :
    documentText start memory u = text.dropLast := by
  have hback := h.dropLast htext
  have hload := hback.load memory
  have hindex : u.writer.index - 1 = start + text.dropLast.length := hback.index
  unfold documentText
  rw [hindex, Nat.add_sub_cancel_left]
  exact hload

theorem nestedText_ne_nil (curNestedDepth : Nat) (val : Nested) :
    nestedText indent curNestedDepth val ≠ [] := by
  match val with
  | .long v =>
    rw [nestedText]
    exact List.append_ne_nil_of_right_ne_nil _ (List.cons_ne_nil _ _)
  | .bool v =>
    rw [nestedText]
    cases v <;> exact List.cons_ne_nil _ _
  | .list [] =>
    rw [nestedText]
    exact List.cons_ne_nil _ _
  | .list (item :: items) =>
    rw [nestedText]
    exact List.append_ne_nil_of_right_ne_nil _
      (List.append_ne_nil_of_right_ne_nil _ (List.cons_ne_nil _ _))

/-- What an array returns where it is the whole document. -/
theorem dumpsSingleNdarray_text (start : Nat) (array : PyArrayInterface)
    (hexact : array.ndatype.Exact) (memory : ByteBuffer) :
    ∃ result, dumpsSingleNdarray isa floats indent realloc start array memory = some result ∧
      (DocumentRefused indent realloc start array → ∃ v, result = .error v) ∧
      (¬ DocumentRefused indent realloc start array →
        result = .ok (nestedText indent 0 (array.toList hexact)).dropLast) := by
  obtain ⟨hrefused, hgranted⟩ := @u8BufferAppendNdarray_writes isa floats indent realloc 0 array
    hexact true (initBuf start) Nat.one_pos
  unfold dumpsSingleNdarray DocumentRefused
  cases hreserve : uBufReserve realloc (getNdarrayReserveCnt wrap64 indent
      (getElemWriteSize array.ndatype) array.shape 0 true) (initBuf start) with
  | error v =>
      rw [hrefused v hreserve]
      exact ⟨_, rfl, fun _ => ⟨v, rfl⟩, fun h => absurd ⟨v, rfl⟩ h⟩
  | ok v =>
      obtain ⟨writer, happend, hwrites⟩ := hgranted v hreserve
      rw [happend]
      refine ⟨_, rfl, fun h => ?_, fun _ => ?_⟩
      · obtain ⟨v', h⟩ := h
        cases h
      · have htext : documentText start memory { v with writer } =
            (nestedText indent 0 (array.toList hexact)).dropLast :=
          documentText_writes hwrites (nestedText_ne_nil 0 (array.toList hexact))
        show Except.ok (documentText start memory { v with writer }) = _
        rw [htext]

/-- What a list returns where it is the whole document. -/
theorem dumpsList_text (start : Nat) {val : Nested} (hfits : val.Fits)
    (hheight : val.height ≤ maxRecursion) (memory : ByteBuffer) :
    ∃ result, dumpsList isa indent realloc stack start val memory = some result ∧
      (∀ text, result = .ok text → text = (nestedText indent 0 val).dropLast) ∧
      ∀ fault, result = .error fault → fault = .memory ∧
        NoMemory realloc (initBuf start) (nestedText indent 0 val).length := by
  have hwrote := @encodeNested_wrote isa indent realloc stack val hfits 0 true (initBuf start)
    Nat.one_pos
  refine ⟨(encodeNested isa indent realloc stack 0 true val (initBuf start)).map
    (documentText start memory), ?_, ?_⟩
  · rw [dumpsList, encodeVal_eq]
    rfl
  · generalize encodeNested isa indent realloc stack 0 true val (initBuf start) = result at hwrote
    cases result with
    | ok u =>
        obtain ⟨room, hwrites⟩ := hwrote
        refine ⟨fun text h => ?_, fun fault h => ?_⟩
        · cases h
          exact documentText_writes hwrites (nestedText_ne_nil 0 val)
        · cases h
    | error fault =>
        refine ⟨fun text h => ?_, fun fault' h => ?_⟩
        · cases h
        · cases h
          cases fault with
          | memory => exact ⟨rfl, hwrote⟩
          | tooNested =>
              have hlt : maxRecursion < 0 + val.height := hwrote
              omega
          | convert => exact hwrote.elim

/-- Where every size is granted, there is memory for a text that a size leaves room for. -/
theorem not_noMemory {u : UBuf} {length : Nat} (hrealloc : ∀ n, realloc n = true)
    (hmax : u.writer.width * (u.writer.index + (length + reserveExcess)) ≤ reserveMax) :
    ¬ NoMemory realloc u length := by
  rintro (⟨size, hrefused⟩ | hlarge)
  · rw [hrealloc size] at hrefused
    cases hrefused
  · exact Nat.not_lt.mpr hmax hlarge

/-- So no array is refused, in memory that a size leaves room for. -/
theorem not_ndarrayRefused {curNestedDepth : Nat} {isInObj : Bool} {array : PyArrayInterface}
    {length : Nat} {u : UBuf} (hrealloc : ∀ n, realloc n = true)
    (hcount : 1 * (u.writer.width * u.writer.index +
      getNdarrayReserveCnt wrap64 indent (getElemWriteSize array.ndatype) array.shape
        curNestedDepth isInObj) ≤ reserveMax)
    (hmax : u.writer.width * (u.writer.index + length) ≤ reserveMax) :
    ¬ NdarrayRefused indent realloc curNestedDepth isInObj array length u := by
  rintro (⟨v, hrefused⟩ | ⟨v, -, -, v', hrefused⟩)
  · exact uBufReserve_granted hrealloc hcount hrefused
  · exact @uBufReserve_granted realloc length { v with writer := u.writer } hrealloc hmax v' hrefused

end Alike

/-- Encoding an array of integers or bools appends the text that encoding its nested list at the
same position appends, in every width of the output, and as a whole document. -/
theorem ndarray_like_list (isa : Decode.Isa) (floats : FloatWriters) (indent : Nat)
    (realloc : Nat → Bool) (stack : ByteBuffer) (array : PyArrayInterface)
    (hexact : array.ndatype.Exact) (memory : ByteBuffer) (hmemory : memory.IsBytes) :
    (∀ (address curNestedDepth : Nat) (isInObj : Bool) (u : UBuf), u.writer.width ∈ [1, 2, 4] →
      AppendAlike isa floats indent realloc stack address curNestedDepth isInObj array hexact
        memory u) ∧
    ∀ start, DocumentsAlike isa floats indent realloc stack start array hexact memory := by
  refine ⟨fun address depth isInObj u hwidth => ⟨?_, ?_⟩, fun start => ⟨?_, ?_⟩⟩
  · exact encodeNdarrayVal_appended address depth isInObj array hexact hmemory hwidth
  · have hpos : 0 < u.writer.width := by
      simp only [List.mem_cons, List.not_mem_nil, or_false] at hwidth
      omega
    exact encodeVal_appended depth isInObj array hexact hpos memory
  · exact dumpsSingleNdarray_text start array hexact memory
  · have hheight := (array.toList_height hexact).trans array.dims_le
    exact dumpsList_text start (array.toList_fits hexact) (hheight.trans (by decide)) memory

/-- `np.array([[0, 1], [-2, 3]], np.int8)`. -/
def smallArray : PyArrayInterface where
  ndatype := .i8
  dims := [⟨2, 2⟩, ⟨2, 1⟩]
  data := 0
  load := fun p => if p = 2 then -2 else Int8.ofInt p
  dims_pos := by decide
  dims_le := by decide
  extent_lt := by decide

/-- An output that has elements of two bytes. -/
def wideBuf : UBuf := { initBuf 40 with writer := ⟨2, 40, []⟩ }

/-- The text of the small array with an indent of two. -/
def smallText : List Nat :=
  [0x5B, 0x0A, 0x20, 0x20, 0x5B, 0x0A, 0x20, 0x20, 0x20, 0x20, 0x30, 0x2C, 0x0A,
    0x20, 0x20, 0x20, 0x20, 0x31, 0x0A, 0x20, 0x20, 0x5D, 0x2C, 0x0A,
    0x20, 0x20, 0x5B, 0x0A, 0x20, 0x20, 0x20, 0x20, 0x2D, 0x32, 0x2C, 0x0A,
    0x20, 0x20, 0x20, 0x20, 0x33, 0x0A, 0x20, 0x20, 0x5D, 0x0A, 0x5D]

theorem smallText_eq :
    nestedText 2 0 (smallArray.toList (by decide)) = smallText ++ [0x2C] := by decide

/-- The array and its list, in elements of two bytes and as documents, where memory is granted. -/
theorem ndarray_like_list_small :
    (∃ out, encodeNdarrayVal .avx2 writeOne 2 (fun _ => true) 0 0 smallArray true (fun _ => 0)
        wideBuf = some (.ok out) ∧
      TextAppended 2 40 (fun _ => 0) (smallText ++ [0x2C]) out.index out.memory) ∧
    (∃ u, encodeVal .avx2 2 (fun _ => true) (fun _ => 0) 0 true (smallArray.toList (by decide))
        wideBuf = some (.ok u) ∧
      TextAppended 2 40 (fun _ => 0) (smallText ++ [0x2C]) u.writer.index
        (u.writer.buffer fun _ => 0)) ∧
    dumpsSingleNdarray .avx2 writeOne 2 (fun _ => true) 40 smallArray (fun _ => 0) =
      some (.ok smallText) ∧
    dumpsList .avx2 2 (fun _ => true) (fun _ => 0) 40 (smallArray.toList (by decide))
      (fun _ => 0) = some (.ok smallText) := by
  obtain ⟨happend, hdocuments⟩ := ndarray_like_list .avx2 writeOne 2 (fun _ => true) (fun _ => 0)
    smallArray (by decide) (fun _ => 0) fun _ => show 0 < 256 by decide
  obtain ⟨⟨result, hresult, -, hok⟩, result', hresult', hok', hfault'⟩ :=
    happend 0 0 true wideBuf (by decide)
  obtain ⟨⟨text, htext, -, hsingle⟩, text', htext', hlist, hfault⟩ := hdocuments 40
  rw [smallText_eq] at hok hok' hfault' hsingle hlist hfault
  refine ⟨?_, ?_, ?_, ?_⟩
  · obtain ⟨out, rfl, happended, -⟩ := hok (not_ndarrayRefused (fun _ => rfl) (by decide)
      (by decide))
    exact ⟨out, hresult, happended⟩
  · cases result' with
    | ok u => exact ⟨u, hresult', hok' u rfl⟩
    | error fault =>
        rcases hfault' fault rfl with ⟨-, hnone⟩ | ⟨-, hdeep⟩
        · exact absurd hnone (not_noMemory (fun _ => rfl) (by decide))
        · exact absurd hdeep (by decide)
  · have hgranted : ¬ DocumentRefused 2 (fun _ => true) 40 smallArray := by
      rintro ⟨v, hrefused⟩
      exact uBufReserve_granted (fun _ => rfl) (by decide) hrefused
    rw [htext, hsingle hgranted, List.dropLast_concat]
  · cases text' with
    | ok text' => rw [htext', hlist text' rfl, List.dropLast_concat]
    | error fault =>
        exact absurd (hfault fault rfl).2 (not_noMemory (fun _ => rfl) (by decide))

end SsrJson.Ndarray
