import SsrJson.Ndarray.Traverse

/-!
# The room for an array

The room an array needs is counted before it is written: once over the dimensions up to the first
that is empty or the last one, and back over those that were passed. In exact integers the count
is at least what the array takes. In 64 bits it may be less.
-/

namespace SsrJson.Ndarray

open Output StoreWriter

/-! ## The count -/

section Count

variable (wrap : Nat → Nat) (indent elemSize : Nat)

/-- `get_1darray_reserve_cnt`, with what is left of a sum in the integers that are used. -/
def get1darrayReserveCnt (curNestedDepth length : Nat) : Nat :=
  if 0 < indent then
    if length = 0 then 3
    else
      let cnt := wrap ((curNestedDepth * indent + 1) * (length + 1))
      let cnt := wrap (cnt + length * (elemSize + 1 + indent))
      wrap (cnt + (3 - 1))
  else wrap (length * (elemSize + 1) + 3 - 1 + if length = 0 then 1 else 0)

/-- The walk forward: the dimensions that are not empty are pushed, with their depths. -/
def reserveWalk : (shape : List Nat) → (curNestedDepth : Nat) → (stack : List (Nat × Nat)) →
    Nat × List (Nat × Nat)
  | [], _, stack => (0, stack)
  | [length], curNestedDepth, stack =>
    (get1darrayReserveCnt wrap indent elemSize curNestedDepth length, stack)
  | length :: length' :: shape, curNestedDepth, stack =>
    if length = 0 then (3, stack)
    else reserveWalk (length' :: shape) (curNestedDepth + 1) ((length, curNestedDepth) :: stack)

/-- What a dimension makes of the count of its elements. -/
def reserveOuter (length depth cnt : Nat) : Nat :=
  if 0 < indent then
    wrap (cnt * length + ((depth + 1) * indent + 1) * (length - 1) +
      (((depth + 1) * indent + 1) + 1) + (depth * indent + 1) + 2 - 1)
  else wrap (cnt * length + 1 + 2 - 1)

/-- The way back over the dimensions that were pushed. -/
def reserveUnwind (cnt : Nat) (stack : List (Nat × Nat)) : Nat :=
  stack.foldl (fun cnt dim => reserveOuter wrap indent dim.1 dim.2 cnt) cnt

/-- `get_ndarray_reserve_cnt_internal`. -/
def getNdarrayReserveCntInternal (shape : List Nat) (curNestedDepth : Nat) : Nat :=
  match shape with
  | [length] => get1darrayReserveCnt wrap indent elemSize curNestedDepth length
  | shape =>
    let (cnt, stack) := reserveWalk wrap indent elemSize shape curNestedDepth []
    reserveUnwind wrap indent cnt stack

/-- `get_ndarray_reserve_cnt`, with its padding. -/
def getNdarrayReserveCnt (shape : List Nat) (baseNestedDepth : Nat) (isInObj : Bool) : Nat :=
  let ret := if 0 < indent ∧ isInObj = false then wrap (indent * baseNestedDepth + 1) else 0
  let padding := 10
  wrap (ret + padding +
    getNdarrayReserveCntInternal wrap indent elemSize shape (baseNestedDepth + 1))

end Count

/-! ## The count as a recursion -/

section Recursion

variable (wrap : Nat → Nat) (indent elemSize : Nat)

/-- The count, from the outer dimensions to the inner ones. -/
def reserveCnt : (shape : List Nat) → (curNestedDepth : Nat) → Nat
  | [], _ => 0
  | [length], curNestedDepth => get1darrayReserveCnt wrap indent elemSize curNestedDepth length
  | length :: length' :: shape, curNestedDepth =>
    if length = 0 then 3
    else reserveOuter wrap indent length curNestedDepth
      (reserveCnt (length' :: shape) (curNestedDepth + 1))

variable {wrap indent elemSize}

theorem reserveUnwind_walk (shape : List Nat) (curNestedDepth : Nat) (stack : List (Nat × Nat)) :
    reserveUnwind wrap indent (reserveWalk wrap indent elemSize shape curNestedDepth stack).1
        (reserveWalk wrap indent elemSize shape curNestedDepth stack).2 =
      reserveUnwind wrap indent (reserveCnt wrap indent elemSize shape curNestedDepth) stack := by
  fun_induction reserveCnt wrap indent elemSize shape curNestedDepth generalizing stack with
  | case1 => rfl
  | case2 => rfl
  | case3 => simp [reserveWalk]
  | case4 length length' shape curNestedDepth hlength ih =>
      rw [reserveWalk, if_neg hlength, ih]
      rfl

theorem getNdarrayReserveCntInternal_eq (shape : List Nat) (curNestedDepth : Nat) :
    getNdarrayReserveCntInternal wrap indent elemSize shape curNestedDepth =
      reserveCnt wrap indent elemSize shape curNestedDepth := by
  unfold getNdarrayReserveCntInternal
  split
  · rfl
  · exact reserveUnwind_walk shape curNestedDepth []

end Recursion

/-! ## The room is enough -/

section Enough

variable {indent baseNestedDepth elemSize : Nat} {write : Int → StoreWriter → StoreWriter}
  {elemText : Int → List Nat}

/-- How many characters an indent has, where it has one. -/
theorem getIndentCharCount_pos (hindent : 0 < indent) (depth : Nat) :
    getIndentCharCount indent depth = depth * indent + 1 := by
  unfold getIndentCharCount
  rw [if_pos (by omega), Nat.mul_comm]

theorem getIndentCharCount_zero (hindent : ¬ 0 < indent) (depth : Nat) :
    getIndentCharCount indent depth = 0 :=
  if_neg (by omega)

/-- The count of a dimension covers its elements, brackets and indents. -/
theorem reserve_dim (elemSize length depth size : Nat)
    (hsize : size = getIndentCharCount indent (depth + 1) + (elemSize + 1)) :
    length * size + (if 0 < length then getIndentCharCount indent depth + 2 else 3) ≤
      get1darrayReserveCnt id indent elemSize (depth + 1) length := by
  unfold get1darrayReserveCnt
  subst hsize
  rcases Nat.eq_zero_or_pos length with rfl | hlength
  · rw [if_neg (Nat.lt_irrefl 0), Nat.zero_mul]
    split <;> simp
  · rw [if_pos hlength]
    by_cases hindent : 0 < indent
    · rw [if_pos hindent, if_neg (by omega), getIndentCharCount_pos hindent,
        getIndentCharCount_pos hindent]
      simp only [id]
      nlinarith [Nat.mul_le_mul_right indent (Nat.le_succ depth), Nat.zero_le (length * indent)]
    · rw [if_neg hindent, getIndentCharCount_zero hindent, getIndentCharCount_zero hindent]
      simp only [id, Nat.zero_add]
      omega

theorem reserve_outer (length depth cnt : Nat) (hlength : 0 < length) :
    length * (getIndentCharCount indent (depth + 1) + cnt) + (getIndentCharCount indent depth + 2) ≤
      reserveOuter id indent length (depth + 1) cnt := by
  unfold reserveOuter
  by_cases hindent : 0 < indent
  · rw [if_pos hindent, getIndentCharCount_pos hindent, getIndentCharCount_pos hindent]
    obtain ⟨n, rfl⟩ : ∃ n, length = n + 1 := ⟨length - 1, by omega⟩
    simp only [id, Nat.add_sub_cancel]
    have hsub : ∀ a : Nat, a + 2 - 1 = a + 1 := fun a => by omega
    rw [hsub]
    nlinarith [Nat.zero_le (n * indent)]
  · rw [if_neg hindent, getIndentCharCount_zero hindent, getIndentCharCount_zero hindent]
    simp only [id, Nat.zero_add]
    rw [Nat.mul_comm]
    omega

/-- A dimension whose elements take no more than a size takes no more than these, its brackets and
its indent. -/
theorem writeDim_writes {child : Int → StoreWriter → StoreWriter} {text : Int → List Nat}
    {size excess : Nat}
    (hchild : ∀ (p : Int) (w : StoreWriter), 0 < w.width →
      Writes w (child p w) (text p) (size + excess) ∧ (text p).length ≤ size)
    (depth : Nat) (d : Dim) (p : Int) {w : StoreWriter} (hw : 0 < w.width) {room : Nat}
    (hroom : d.extent * size + (if 0 < d.extent then
      getIndentCharCount indent (baseNestedDepth + depth) + 2 else 3) ≤ room) :
    Writes w (closeDim indent baseNestedDepth depth d.extent
        (writeChildren child d.stride d.extent p (w.push 0x5B)))
      (closeText indent baseNestedDepth depth d.extent
        (0x5B :: childrenText text d.stride d.extent p)) (room + excess) ∧
      (closeText indent baseNestedDepth depth d.extent
        (0x5B :: childrenText text d.stride d.extent p)).length ≤ room := by
  have hopen := Writes.push w (v := 0x5B) (lt_pow_width hw (by decide))
  obtain ⟨hchildren, hlength⟩ := writeChildren_writes hchild d.stride d.extent p
    (w := w.push 0x5B) hw
  have hall := @closeDim_writes indent baseNestedDepth _ _ _ _ hw (hopen.append hchildren) depth
    d.extent
  have hclose : (closeText indent baseNestedDepth depth d.extent
      (0x5B :: childrenText text d.stride d.extent p)).length ≤ room := by
    have hindent := @length_indentText indent (baseNestedDepth + depth)
    unfold closeText
    split
    · rename_i hpos
      rw [if_pos hpos] at hroom
      simp only [List.length_append, List.length_dropLast, List.length_cons, List.length_nil]
      omega
    · rename_i hzero
      obtain hnone : d.extent = 0 := by omega
      rw [if_neg hzero] at hroom
      rw [hnone, childrenText]
      simp only [List.length_append, List.length_cons, List.length_nil]
      omega
  refine ⟨hall.mono (Nat.max_le.mpr ⟨Nat.max_le.mpr ⟨?_, ?_⟩,
    hclose.trans (Nat.le_add_right _ _)⟩), hclose⟩
  · split at hroom <;> omega
  · rw [List.length_singleton]
    split at hroom <;> omega

/-- What comes behind the indent of an element. -/
theorem indented_writes {child : Int → StoreWriter → StoreWriter} {text : Int → List Nat}
    {size excess : Nat}
    (hchild : ∀ (p : Int) (w : StoreWriter), 0 < w.width →
      Writes w (child p w) (text p) (size + excess) ∧ (text p).length ≤ size)
    (depth : Nat) (p : Int) (w : StoreWriter) (hw : 0 < w.width) :
    Writes w (child p (writeUnicodeIndent indent depth w)) (indentText indent depth ++ text p)
        (getIndentCharCount indent depth + size + excess) ∧
      (indentText indent depth ++ text p).length ≤ getIndentCharCount indent depth + size := by
  have hindent := @writeUnicodeIndent_writes indent w hw depth
  have hlength := @length_indentText indent depth
  obtain ⟨hwrites, hle⟩ := hchild p _ (width_pos hindent hw)
  refine ⟨(hindent.append hwrites).mono (Nat.max_le.mpr ⟨by omega, by omega⟩), ?_⟩
  rw [List.length_append]
  omega

/-- An array takes no more than its count, and its stores no more than the excess of an element. -/
theorem writeArray_writes {excess : Nat}
    (hwrite : ∀ (p : Int) (w : StoreWriter), 0 < w.width →
      Writes w (write p w) (elemText p) (elemSize + 1 + excess) ∧
        (elemText p).length ≤ elemSize + 1)
    (d : Dim) (dims : List Dim) (depth : Nat) (p : Int) {w : StoreWriter} (hw : 0 < w.width) :
    Writes w (writeArray indent baseNestedDepth write depth (d :: dims) p w)
      (arrayText indent baseNestedDepth elemText depth (d :: dims) p)
      (reserveCnt id indent elemSize ((d :: dims).map Dim.extent) (baseNestedDepth + depth + 1) +
        excess) ∧
      (arrayText indent baseNestedDepth elemText depth (d :: dims) p).length ≤
        reserveCnt id indent elemSize ((d :: dims).map Dim.extent) (baseNestedDepth + depth + 1) := by
  induction dims generalizing d depth p w with
  | nil =>
      exact writeDim_writes (indented_writes hwrite _) depth d p hw
        (reserve_dim elemSize d.extent (baseNestedDepth + depth) _ rfl)
  | cons d' dims ih =>
      refine writeDim_writes (indented_writes (fun p w hw => ih d' (depth + 1) p hw) _) depth d p hw ?_
      show _ ≤ if d.extent = 0 then 3 else _
      by_cases hzero : d.extent = 0
      · rw [if_pos hzero, hzero, if_neg (Nat.lt_irrefl 0), Nat.zero_mul]
      · rw [if_neg hzero, if_pos (Nat.pos_of_ne_zero hzero)]
        exact reserve_outer d.extent (baseNestedDepth + depth) _ (Nat.pos_of_ne_zero hzero)

end Enough

/-! ## The elements -/

/-- `ssrjson_dtoa_output_maxlen`, `ssrjson_dtoa_write_length` and their likes for `float`: how long
the texts are, and how much is stored. -/
def FloatWriters.KeepLengths (floats : FloatWriters) : Prop :=
  (∀ v, ∃ text : List Nat, text.length ≤ 24 ∧
    ∀ w : StoreWriter, 0 < w.width → Writes w (floats.xjb64 v w) text 34) ∧
  ∀ v, ∃ text : List Nat, text.length ≤ 15 ∧
    ∀ w : StoreWriter, 0 < w.width → Writes w (floats.xjb32 v w) text 21

/-- The text of a bool of numpy. -/
def boolText (v : UInt8) : List Nat :=
  if v = 0 then [0x66, 0x61, 0x6C, 0x73, 0x65, 0x2C] else [0x74, 0x72, 0x75, 0x65, 0x2C]

theorem writeBool_writes (isa : Decode.Isa) (v : UInt8) {w : StoreWriter} (hw : 0 < w.width) :
    Writes w (writeUnicodeBool isa (v == 0) w) (boolText v) (getElemWriteSize .bool + 1 + 9) ∧
      (boolText v).length ≤ getElemWriteSize .bool + 1 := by
  have hwrites := @writeUnicodeBool_writes isa w hw (v == 0)
  have hcount : writeBoolCopyCnt isa w.width ≤ 15 := by
    unfold writeBoolCopyCnt
    split <;> decide
  unfold boolText
  by_cases hzero : v = 0
  · rw [if_pos hzero]
    rw [if_pos (beq_iff_eq.mpr hzero)] at hwrites
    exact ⟨hwrites.mono hcount, by decide⟩
  · rw [if_neg hzero]
    rw [if_neg (by simpa using hzero)] at hwrites
    exact ⟨hwrites.mono hcount, by decide⟩

/-- Every element keeps to the size of its type; past it are no more than nine bytes stored. -/
theorem writeElem_writes {floats : FloatWriters} (hfloats : floats.KeepLengths) (isa : Decode.Isa)
    (type : NdaType) (v : type.Elem) :
    ∃ text : List Nat, text.length ≤ getElemWriteSize type + 1 ∧
      ∀ w : StoreWriter, 0 < w.width →
        Writes w (writeElem isa floats type v w) text (getElemWriteSize type + 1 + 9) := by
  have hint : ∀ n : NumpyInt, n.elemWriteSize = getElemWriteSize type →
      (∀ w, writeElem isa floats type v w = ndarrayWriteElem n w) →
      ∃ text : List Nat, text.length ≤ getElemWriteSize type + 1 ∧
        ∀ w : StoreWriter, 0 < w.width →
          Writes w (writeElem isa floats type v w) text (getElemWriteSize type + 1 + 9) := by
    intro n hsize heq
    refine ⟨integerText n.value ++ [0x2C], ?_, fun w hw => ?_⟩
    · rw [List.length_append, ← hsize]
      exact Nat.add_le_add_right n.length_le 1
    · rw [heq, ← hsize]
      exact (ndarrayWriteElem_writes n hw).mono (Nat.le_add_right _ _)
  have hfloat : ∀ (write : StoreWriter → StoreWriter) (text : List Nat) (room : Nat),
      text.length ≤ getElemWriteSize type → room ≤ getElemWriteSize type + 10 →
      (∀ w : StoreWriter, 0 < w.width → Writes w (write w) text room) →
      (∀ w, writeElem isa floats type v w = (write w).push 0x2C) →
      ∃ text : List Nat, text.length ≤ getElemWriteSize type + 1 ∧
        ∀ w : StoreWriter, 0 < w.width →
          Writes w (writeElem isa floats type v w) text (getElemWriteSize type + 1 + 9) := by
    intro write text room hlength hroom hwrites heq
    refine ⟨text ++ [0x2C], ?_, fun w hw => ?_⟩
    · rw [List.length_append]
      exact Nat.add_le_add_right hlength 1
    · rw [heq]
      exact writes_comma hw (hwrites w hw) (by omega) (by omega)
  obtain ⟨h64, h32⟩ := hfloats
  cases type with
  | f64 =>
      obtain ⟨text, hlength, hwrites⟩ := h64 v
      exact hfloat (floats.xjb64 v) text 34 hlength (by decide) hwrites fun _ => rfl
  | f32 =>
      obtain ⟨text, hlength, hwrites⟩ := h32 v
      exact hfloat (floats.xjb32 v) text 21 hlength (by decide) hwrites fun _ => rfl
  | f16 =>
      obtain ⟨text, hlength, hwrites⟩ := h32 (floats.f16ToF32 v)
      exact hfloat (floats.xjb32 _) text 21 hlength (by decide) hwrites fun _ => rfl
  | i64 => exact hint (.int64 v) rfl fun _ => rfl
  | i32 => exact hint (.int32 v) rfl fun _ => rfl
  | i16 => exact hint (.int16 v) rfl fun _ => rfl
  | i8 => exact hint (.int8 v) rfl fun _ => rfl
  | u64 => exact hint (.uint64 v) rfl fun _ => rfl
  | u32 => exact hint (.uint32 v) rfl fun _ => rfl
  | u16 => exact hint (.uint16 v) rfl fun _ => rfl
  | u8 => exact hint (.uint8 v) rfl fun _ => rfl
  | bool =>
      exact ⟨boolText v, (@writeBool_writes isa v ⟨1, 0, []⟩ (by decide)).2,
        fun w hw => (writeBool_writes isa v hw).1⟩

/-! ## An array -/

/-- The extents of an array. -/
def PyArrayInterface.shape (array : PyArrayInterface) : List Nat := array.dims.map Dim.extent

/-- What `u8_buffer_append_ndarray` writes behind its reservation. -/
def writeNdarray (isa : Decode.Isa) (floats : FloatWriters) (indent baseNestedDepth : Nat)
    (isInObj : Bool) (array : PyArrayInterface) (w : StoreWriter) : Option StoreWriter :=
  let w := if isInObj = false then writeUnicodeIndent indent baseNestedDepth w else w
  ndarrayTraverse indent baseNestedDepth
    (fun p w => writeElem isa floats array.ndatype (array.load p) w) array.dims array.data w

/-- An array whose elements keep to the size of their type takes no more than the count in exact
integers. -/
theorem writeNdarray_within (isa : Decode.Isa) {floats : FloatWriters}
    (indent baseNestedDepth : Nat) (isInObj : Bool) (array : PyArrayInterface)
    {elemText : array.ndatype.Elem → List Nat}
    (helem : ∀ (v : array.ndatype.Elem) (w : StoreWriter), 0 < w.width →
      Writes w (writeElem isa floats array.ndatype v w) (elemText v)
          (getElemWriteSize array.ndatype + 1 + 9) ∧
        (elemText v).length ≤ getElemWriteSize array.ndatype + 1)
    {w : StoreWriter} (hw : 0 < w.width) :
    ∃ w', writeNdarray isa floats indent baseNestedDepth isInObj array w = some w' ∧
      Writes w w' (valueIndent indent baseNestedDepth isInObj ++
          arrayText indent baseNestedDepth (fun p => elemText (array.load p)) 0 array.dims array.data)
        (getNdarrayReserveCnt id indent (getElemWriteSize array.ndatype) array.shape baseNestedDepth
          isInObj) := by
  have hne : array.dims ≠ [] := List.ne_nil_of_length_pos array.dims_pos
  obtain ⟨d, dims, hdims⟩ := List.exists_cons_of_ne_nil hne
  have harray := fun (w : StoreWriter) (hw : 0 < w.width) => (@writeArray_writes indent
    baseNestedDepth (getElemWriteSize array.ndatype)
    (fun p w => writeElem isa floats array.ndatype (array.load p) w)
    (fun p => elemText (array.load p)) 9
    (fun p w hw => helem (array.load p) w hw) d dims 0 array.data w hw).1
  unfold writeNdarray
  dsimp only
  rw [ndarrayTraverse_eq hne, PyArrayInterface.shape, hdims, getNdarrayReserveCnt,
    getNdarrayReserveCntInternal_eq]
  simp only [id]
  cases isInObj with
  | true =>
      refine ⟨_, rfl, (harray w hw).mono ?_⟩
      rw [if_neg (by simp)]
      simp only [Nat.add_zero]
      omega
  | false =>
      have hindent := @writeUnicodeIndent_writes indent w hw baseNestedDepth
      have hcount := @length_indentText indent baseNestedDepth
      refine ⟨_, rfl, (hindent.append (harray _ (width_pos hindent hw))).mono ?_⟩
      rw [hcount]
      by_cases hpos : 0 < indent
      · rw [getIndentCharCount_pos hpos, if_pos ⟨hpos, rfl⟩, Nat.mul_comm indent]
        refine Nat.max_le.mpr ⟨by omega, ?_⟩
        simp only [Nat.add_zero]
        omega
      · rw [getIndentCharCount_zero hpos, if_neg (by omega)]
        refine Nat.max_le.mpr ⟨by omega, ?_⟩
        simp only [Nat.add_zero]
        omega

/-- An array, its indent and its comma, and all that is stored while they are written, take no more
than the count in exact integers. -/
theorem ndarray_within_count (isa : Decode.Isa) {floats : FloatWriters}
    (hfloats : floats.KeepLengths) (indent baseNestedDepth : Nat) (isInObj : Bool)
    (array : PyArrayInterface) {w : StoreWriter} (hw : w.width = 1) :
    ∃ w' text, writeNdarray isa floats indent baseNestedDepth isInObj array w = some w' ∧
      Writes w w' text (getNdarrayReserveCnt id indent (getElemWriteSize array.ndatype)
        array.shape baseNestedDepth isInObj) := by
  choose elemText hlength hwrites using writeElem_writes hfloats isa array.ndatype
  obtain ⟨w', hwritten, hall⟩ := writeNdarray_within isa indent baseNestedDepth isInObj array
    (fun v w hw => ⟨hwrites v w hw, hlength v⟩) (show 0 < w.width by omega)
  exact ⟨w', _, hwritten, hall⟩

/-- What `xjb64` stores for a one: the sign, zeros, the digits, the last digit, what it moves behind
the dot, the dot and no exponent. -/
def xjb64One : List (Nat × List Nat) :=
  [(0, [0x2D]), (0, List.replicate 16 0x30), (16, List.replicate 16 0x30),
    (0, 0x31 :: List.replicate 15 0x30), (16, List.replicate 4 0x30), (2, List.replicate 16 0x30),
    (1, [0x2E]), (3, List.replicate 8 0)]

/-- What `xjb32` stores for it. -/
def xjb32One : List (Nat × List Nat) :=
  [(0, [0x2D]), (0, List.replicate 16 0x30), (0, 0x31 :: List.replicate 7 0x30),
    (8, [0x30, 0x30, 0, 0]), (2, List.replicate 8 0x30), (1, [0x2E]), (3, List.replicate 8 0)]

/-- `xjb64` and `xjb32` on a one, the other numbers left out. -/
def writeOne : FloatWriters where
  xjb64 := fun _ w => (w.putRows xjb64One).move 3
  xjb32 := fun _ w => (w.putRows xjb32One).move 3
  f16ToF32 := fun _ => 0x3F800000

theorem writeOne_keepLengths : writeOne.KeepLengths := by
  have hone : ∀ c ∈ [0x31, 0x2E, 0x30], c < 256 := by decide
  exact ⟨fun _ => ⟨[0x31, 0x2E, 0x30], by decide, fun w hw => Writes.putRows w (by decide)
      (fun c hc => lt_pow_width hw (hone c hc)) (by decide)⟩,
    fun _ => ⟨[0x31, 0x2E, 0x30], by decide, fun w hw => Writes.putRows w (by decide)
      (fun c hc => lt_pow_width hw (hone c hc)) (by decide)⟩⟩

/-- `np.ones((2, 1, 3))`. -/
def onesArray : PyArrayInterface where
  ndatype := .f64
  dims := [⟨2, 24⟩, ⟨1, 24⟩, ⟨3, 8⟩]
  data := 0
  load := fun _ => 0x3FF0000000000000
  dims_pos := by decide
  dims_le := by decide
  extent_lt := by decide

/-- `np.ones((2, 3, 0, 4), np.float32)`. -/
def noOnesArray : PyArrayInterface where
  ndatype := .f32
  dims := [⟨2, 48⟩, ⟨3, 16⟩, ⟨0, 16⟩, ⟨4, 4⟩]
  data := 0
  load := fun _ => 0x3F800000
  dims_pos := by decide
  dims_le := by decide
  extent_lt := by decide

/-- Arrays of several dimensions, also of an empty one, with the stores of `xjb64` on a one. -/
theorem ndarray_within_count_one :
    (∃ w' text, writeNdarray .avx2 writeOne 2 1 false onesArray ⟨1, 40, []⟩ = some w' ∧
      Writes ⟨1, 40, []⟩ w' text (getNdarrayReserveCnt id 2 24 [2, 1, 3] 1 false)) ∧
    ∃ w' text, writeNdarray .sse writeOne 0 0 true noOnesArray ⟨1, 40, []⟩ = some w' ∧
      Writes ⟨1, 40, []⟩ w' text (getNdarrayReserveCnt id 0 15 [2, 3, 0, 4] 0 true) :=
  ⟨ndarray_within_count .avx2 writeOne_keepLengths 2 1 false onesArray rfl,
    ndarray_within_count .sse writeOne_keepLengths 0 0 true noOnesArray rfl⟩

end SsrJson.Ndarray
