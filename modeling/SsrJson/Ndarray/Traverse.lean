import SsrJson.Output.Integers

/-!
# Writing an array

An array is written by a loop over the frames of its dimensions. The loop opens a bracket when it
goes into a dimension, writes all elements at the last one, and closes a bracket where nothing
remains. `writeArray` is the same as a recursion over the shape; `traverse_eq` says that the loop
ends and has written just that.
-/

namespace SsrJson.Ndarray

open Output StoreWriter

/-! ## Arrays -/

/-- `NDATypes` without `NDA_err`. -/
inductive NdaType where
  | f64
  | f32
  | f16
  | i64
  | i32
  | i16
  | i8
  | u64
  | u32
  | u16
  | u8
  | bool
  deriving DecidableEq, Repr

/-- What the elements of a type are: `NDARRAY_ELEM_T`. -/
abbrev NdaType.Elem : NdaType → Type
  | .f64 => BitVec 64
  | .f32 => BitVec 32
  | .f16 => BitVec 16
  | .i64 => Int64
  | .i32 => Int32
  | .i16 => Int16
  | .i8 => Int8
  | .u64 => UInt64
  | .u32 => UInt32
  | .u16 => UInt16
  | .u8 => UInt8
  | .bool => UInt8

/-- `_NdaElemWriteSizeTable`. -/
def getElemWriteSize : NdaType → Nat
  | .f64 => 24
  | .f32 => 15
  | .f16 => 15
  | .i64 => 20
  | .i32 => 11
  | .i16 => 6
  | .i8 => 4
  | .u64 => 20
  | .u32 => 10
  | .u16 => 5
  | .u8 => 3
  | .bool => 5

/-- A dimension: its extent and its stride in bytes. -/
structure Dim where
  extent : Nat
  stride : Int

/-- `PyArrayInterface` behind the checks: one to 32 dimensions whose extents are `Py_ssize_t`, and
what its memory holds at each address. -/
structure PyArrayInterface where
  ndatype : NdaType
  dims : List Dim
  data : Int
  load : Int → ndatype.Elem
  dims_pos : 1 ≤ dims.length
  dims_le : dims.length ≤ 32
  extent_lt : ∀ d ∈ dims, d.extent < 2 ^ 63

/-! ## Elements -/

/-- The writers of floating-point numbers, and `f16_to_f32`. -/
structure FloatWriters where
  xjb64 : BitVec 64 → StoreWriter → StoreWriter
  xjb32 : BitVec 32 → StoreWriter → StoreWriter
  f16ToF32 : BitVec 16 → BitVec 32

/-- `NDARRAY_WRITE_ELEM`. -/
def writeElem (isa : Decode.Isa) (floats : FloatWriters) :
    (type : NdaType) → type.Elem → StoreWriter → StoreWriter
  | .f64, v, w => (floats.xjb64 v w).push 0x2C
  | .f32, v, w => (floats.xjb32 v w).push 0x2C
  | .f16, v, w => (floats.xjb32 (floats.f16ToF32 v) w).push 0x2C
  | .i64, v, w => ndarrayWriteElem (.int64 v) w
  | .i32, v, w => ndarrayWriteElem (.int32 v) w
  | .i16, v, w => ndarrayWriteElem (.int16 v) w
  | .i8, v, w => ndarrayWriteElem (.int8 v) w
  | .u64, v, w => ndarrayWriteElem (.uint64 v) w
  | .u32, v, w => ndarrayWriteElem (.uint32 v) w
  | .u16, v, w => ndarrayWriteElem (.uint16 v) w
  | .u8, v, w => ndarrayWriteElem (.uint8 v) w
  | .bool, v, w => writeUnicodeBool isa (v == (0 : UInt8)) w

/-! ## The loop -/

/-- `NdarrayFrame`. -/
structure NdarrayFrame where
  dataPtr : Int
  remaining : Nat
  stride : Int

/-- The local variables of `_ndarray_traverse_fn`. -/
structure TraverseState where
  stack : Nat → NdarrayFrame
  depth : Nat
  writer : StoreWriter

section Traverse

variable (indent baseNestedDepth : Nat) (write : Int → StoreWriter → StoreWriter)

/-- Close the bracket of a dimension, over the last comma if there was an element. -/
def closeDim (depth extent : Nat) (w : StoreWriter) : StoreWriter :=
  let w := if 0 < extent then writeUnicodeIndent indent (baseNestedDepth + depth) w.back else w
  (w.push 0x5D).push 0x2C

/-- The loop over the last dimension. -/
def leafLoop (depth : Nat) (stride : Int) : (n : Nat) → (p : Int) → StoreWriter → StoreWriter
  | 0, _, w => w
  | n + 1, p, w => leafLoop depth stride n (p + stride)
    (write p (writeUnicodeIndent indent (baseNestedDepth + depth + 1) w))

/-- One turn of the loop: `none` when it has ended, with the writer. -/
def traverseStep (dims : List Dim) (s : TraverseState) : StoreWriter ⊕ TraverseState :=
  let frame := s.stack s.depth
  if frame.remaining = 0 then
    let w := closeDim indent baseNestedDepth s.depth ((dims.map Dim.extent).getD s.depth 0) s.writer
    if s.depth = 0 then .inl w else .inr { s with depth := s.depth - 1, writer := w }
  else if s.depth + 1 = dims.length then
    .inr { s with
      stack := Function.update s.stack s.depth { frame with remaining := 0 }
      writer := leafLoop indent baseNestedDepth write s.depth frame.stride frame.remaining
        frame.dataPtr s.writer }
  else
    let stack := Function.update s.stack s.depth
      { frame with dataPtr := frame.dataPtr + frame.stride, remaining := frame.remaining - 1 }
    let depth := s.depth + 1
    .inr {
      stack := Function.update stack depth ⟨frame.dataPtr, (dims.map Dim.extent).getD depth 0,
        (dims.map Dim.stride).getD depth 0⟩
      depth
      writer := (writeUnicodeIndent indent (baseNestedDepth + depth) s.writer).push 0x5B }

/-- The loop, for a number of turns at most. -/
def traverseLoop (dims : List Dim) : (fuel : Nat) → TraverseState → Option StoreWriter
  | 0, _ => none
  | fuel + 1, s =>
    match traverseStep indent baseNestedDepth write dims s with
    | .inl w => some w
    | .inr s => traverseLoop dims fuel s

/-- `_ndarray_traverse_fn` up to the loop: the frame of the first dimension. -/
def traverseStart (dims : List Dim) (data : Int) (w : StoreWriter) : TraverseState where
  stack := fun _ => ⟨data, (dims.map Dim.extent).getD 0 0, (dims.map Dim.stride).getD 0 0⟩
  depth := 0
  writer := w.push 0x5B

/-! ## The recursion -/

/-- The elements of a dimension, one stride after the other. -/
def writeChildren (child : Int → StoreWriter → StoreWriter) (stride : Int) :
    (n : Nat) → (p : Int) → StoreWriter → StoreWriter
  | 0, _, w => w
  | n + 1, p, w => writeChildren child stride n (p + stride) (child p w)

/-- An array, or an element where no dimension is left. -/
def writeArray : (depth : Nat) → List Dim → (p : Int) → StoreWriter → StoreWriter
  | _, [], p, w => write p w
  | depth, d :: dims, p, w =>
    closeDim indent baseNestedDepth depth d.extent (writeChildren
      (fun p w => writeArray (depth + 1) dims p
        (writeUnicodeIndent indent (baseNestedDepth + depth + 1) w))
      d.stride d.extent p (w.push 0x5B))

/-- The turns the loop takes from where `remaining` elements of a dimension are left. -/
def turnsFrom : (remaining : Nat) → List Dim → Nat
  | remaining, [] => if remaining = 0 then 1 else 2
  | remaining, d :: dims => remaining * (1 + turnsFrom d.extent dims) + 1

/-- `_ndarray_traverse_fn`. -/
def ndarrayTraverse (dims : List Dim) (data : Int) (w : StoreWriter) : Option StoreWriter :=
  traverseLoop indent baseNestedDepth write dims
    (turnsFrom ((dims.map Dim.extent).getD 0 0) dims.tail) (traverseStart dims data w)

/-! ## The loop is the recursion -/

/-- Behind the last bracket of a dimension: the loop ends or goes on in the dimension around it. -/
def leave (dims : List Dim) (fuel : Nat) (s : TraverseState) : Option StoreWriter :=
  if s.depth = 0 then some s.writer
  else traverseLoop indent baseNestedDepth write dims fuel { s with depth := s.depth - 1 }

variable {indent baseNestedDepth write}

theorem leafLoop_eq (depth : Nat) (stride : Int) (n : Nat) (p : Int) (w : StoreWriter) :
    leafLoop indent baseNestedDepth write depth stride n p w =
      writeChildren (fun p w => write p (writeUnicodeIndent indent (baseNestedDepth + depth + 1) w))
        stride n p w := by
  induction n generalizing p w with
  | zero => rfl
  | succ n ih => exact ih _ _

theorem getD_middle {α β : Type} (f : α → β) (before : List α) (a : α) (behind : List α) (b : β) :
    (List.map f (before ++ a :: behind)).getD before.length b = f a := by
  simp

/-- A dimension of which nothing is left is closed. -/
theorem traverseLoop_close {dims before behind : List Dim} {d : Dim} {s : TraverseState}
    (hdims : dims = before ++ d :: behind) (hdepth : s.depth = before.length)
    (hempty : (s.stack s.depth).remaining = 0) (fuel : Nat) :
    traverseLoop indent baseNestedDepth write dims (fuel + 1) s =
      leave indent baseNestedDepth write dims fuel
        { s with writer := closeDim indent baseNestedDepth s.depth d.extent s.writer } := by
  have hextent : (dims.map Dim.extent).getD s.depth 0 = d.extent := by
    rw [hdims, hdepth, getD_middle]
  rw [traverseLoop, traverseStep, if_pos hempty, hextent, leave]
  by_cases hzero : s.depth = 0
  · rw [if_pos hzero, if_pos hzero]
  · rw [if_neg hzero, if_neg hzero]

/-- The loop from where some elements of a dimension are left until it has closed the dimension.
The frames of the dimensions around it stay. -/
theorem traverseLoop_dim {dims : List Dim} (behind : List Dim) :
    ∀ {before : List Dim} {d : Dim} {s : TraverseState} {p : Int} {remaining : Nat},
      dims = before ++ d :: behind → s.depth = before.length →
      s.stack s.depth = ⟨p, remaining, d.stride⟩ → ∀ fuel : Nat,
      ∃ stack, (∀ j < s.depth, stack j = s.stack j) ∧
        traverseLoop indent baseNestedDepth write dims (turnsFrom remaining behind + fuel) s =
          leave indent baseNestedDepth write dims fuel
            { stack, depth := s.depth
              writer := closeDim indent baseNestedDepth s.depth d.extent (writeChildren
                (fun p w => writeArray indent baseNestedDepth write (s.depth + 1) behind p
                  (writeUnicodeIndent indent (baseNestedDepth + s.depth + 1) w))
                d.stride remaining p s.writer) } := by
  induction behind with
  | nil =>
      intro before d s p remaining hdims hdepth hframe fuel
      by_cases hzero : remaining = 0
      · subst hzero
        refine ⟨s.stack, fun _ _ => rfl, ?_⟩
        rw [turnsFrom, if_pos rfl, Nat.add_comm,
          traverseLoop_close hdims hdepth (by rw [hframe])]
        rfl
      · -- All elements of the last dimension are written in one turn.
        have hlast : s.depth + 1 = dims.length := by
          rw [hdims, List.length_append, hdepth]
          rfl
        refine ⟨Function.update s.stack s.depth ⟨p, 0, d.stride⟩, fun j hj => ?_, ?_⟩
        · exact Function.update_of_ne (by omega) _ _
        · have hclose := @traverseLoop_close indent baseNestedDepth write dims before [] d
            { stack := Function.update s.stack s.depth ⟨p, 0, d.stride⟩, depth := s.depth
              writer := leafLoop indent baseNestedDepth write s.depth d.stride remaining p s.writer }
            hdims hdepth (by
              show (Function.update s.stack s.depth ⟨p, 0, d.stride⟩ s.depth).remaining = 0
              rw [Function.update_self]) fuel
          rw [turnsFrom, if_neg hzero, show 2 + fuel = fuel + 1 + 1 by omega, traverseLoop,
            traverseStep, hframe, if_neg hzero, if_pos hlast]
          dsimp only
          rw [leafLoop_eq] at hclose ⊢
          exact hclose
  | cons d' behind ih =>
      intro before d s p remaining hdims hdepth hframe fuel
      have hmore : s.depth + 1 ≠ dims.length := by
        rw [hdims, List.length_append, hdepth, List.length_cons, List.length_cons]
        omega
      have hdims' : dims = (before ++ [d]) ++ d' :: behind := by
        rw [hdims, List.append_assoc]
        rfl
      have hlength : s.depth + 1 = (before ++ [d]).length := by
        rw [List.length_append, hdepth]
        rfl
      induction remaining generalizing s p fuel with
      | zero =>
          refine ⟨s.stack, fun _ _ => rfl, ?_⟩
          rw [turnsFrom, Nat.zero_mul, Nat.zero_add, Nat.add_comm,
            traverseLoop_close hdims hdepth (by rw [hframe])]
          rfl
      | succ remaining ihRemaining =>
          have hturns : turnsFrom (remaining + 1) (d' :: behind) + fuel =
              turnsFrom d'.extent behind + (turnsFrom remaining (d' :: behind) + fuel) + 1 := by
            rw [turnsFrom, turnsFrom, Nat.succ_mul]
            omega
          have hextent : (dims.map Dim.extent).getD (s.depth + 1) 0 = d'.extent := by
            rw [hlength, hdims', getD_middle]
          have hstride : (dims.map Dim.stride).getD (s.depth + 1) 0 = d'.stride := by
            rw [hlength, hdims', getD_middle]
          -- The element is written and its bracket closed, which leads back to this dimension.
          obtain ⟨stack, hkept, hinner⟩ := ih
            (s := { stack := Function.update (Function.update s.stack s.depth
                      ⟨p + d.stride, remaining, d.stride⟩) (s.depth + 1) ⟨p, d'.extent, d'.stride⟩
                    depth := s.depth + 1
                    writer := (writeUnicodeIndent indent (baseNestedDepth + s.depth + 1)
                      s.writer).push 0x5B })
            hdims' hlength (Function.update_self _ _ _) (turnsFrom remaining (d' :: behind) + fuel)
          have hframe' : stack s.depth = ⟨p + d.stride, remaining, d.stride⟩ := by
            rw [hkept s.depth (Nat.lt_succ_self _)]
            dsimp only
            rw [Function.update_of_ne (by omega), Function.update_self]
          obtain ⟨stack', hkept', hrest⟩ := ihRemaining
            (s := { stack, depth := s.depth
                    writer := writeArray indent baseNestedDepth write (s.depth + 1) (d' :: behind) p
                      (writeUnicodeIndent indent (baseNestedDepth + s.depth + 1) s.writer) })
            hdepth hframe' fuel hmore hlength
          refine ⟨stack', fun j hj => ?_, ?_⟩
          · refine (hkept' j hj).trans ((hkept j (Nat.lt_succ_of_lt hj)).trans ?_)
            dsimp only
            rw [Function.update_of_ne (by omega), Function.update_of_ne (by omega)]
          · rw [hturns, traverseLoop, traverseStep, hframe, if_neg (Nat.succ_ne_zero _), if_neg hmore]
            dsimp only
            rw [hextent, hstride]
            refine hinner.trans ?_
            rw [leave, if_neg (Nat.succ_ne_zero _)]
            exact hrest

/-- The loop ends, and has written the array. -/
theorem ndarrayTraverse_eq {dims : List Dim} (hdims : dims ≠ []) (data : Int) (w : StoreWriter) :
    ndarrayTraverse indent baseNestedDepth write dims data w =
      some (writeArray indent baseNestedDepth write 0 dims data w) := by
  obtain ⟨d, behind, rfl⟩ := List.exists_cons_of_ne_nil hdims
  obtain ⟨stack, -, hloop⟩ := @traverseLoop_dim indent baseNestedDepth write (d :: behind) behind
    [] d (traverseStart (d :: behind) data w) data d.extent rfl rfl rfl 0
  exact hloop

/-! ## The text -/

variable (indent baseNestedDepth)

/-- The text of a dimension up to and behind its closing bracket. -/
def closeText (depth extent : Nat) (text : List Nat) : List Nat :=
  (if 0 < extent then text.dropLast ++ indentText indent (baseNestedDepth + depth) else text) ++
    [0x5D, 0x2C]

/-- The texts of the elements of a dimension. -/
def childrenText (child : Int → List Nat) (stride : Int) : (n : Nat) → (p : Int) → List Nat
  | 0, _ => []
  | n + 1, p => child p ++ childrenText child stride n (p + stride)

/-- The text of an array with a comma behind it. -/
def arrayText (elemText : Int → List Nat) : (depth : Nat) → List Dim → (p : Int) → List Nat
  | _, [], p => elemText p
  | depth, d :: dims, p =>
    closeText indent baseNestedDepth depth d.extent (0x5B :: childrenText
      (fun p => indentText indent (baseNestedDepth + depth + 1) ++
        arrayText elemText (depth + 1) dims p)
      d.stride d.extent p)

variable {indent baseNestedDepth}

/-- The elements of a dimension follow each other. No store goes further past the end of what a
number of elements may take than the stores of one element. -/
theorem writeChildren_writes {child : Int → StoreWriter → StoreWriter} {text : Int → List Nat}
    {size excess : Nat}
    (hchild : ∀ (p : Int) (w : StoreWriter), 0 < w.width →
      Writes w (child p w) (text p) (size + excess) ∧ (text p).length ≤ size)
    (stride : Int) (n : Nat) (p : Int) {w : StoreWriter} (hw : 0 < w.width) :
    Writes w (writeChildren child stride n p w) (childrenText text stride n p)
        (n * size + excess) ∧
      (childrenText text stride n p).length ≤ n * size := by
  induction n generalizing p w with
  | zero => exact ⟨(Writes.refl w).mono (Nat.zero_le _), Nat.zero_le _⟩
  | succ n ih =>
      obtain ⟨hhead, hlength⟩ := hchild p w hw
      obtain ⟨htail, hlength'⟩ := ih (p + stride) (width_pos hhead hw)
      rw [Nat.succ_mul]
      refine ⟨(hhead.append htail).mono (Nat.max_le.mpr ⟨by omega, by omega⟩), ?_⟩
      rw [childrenText, List.length_append]
      omega

/-- A dimension that was opened is closed. -/
theorem closeDim_writes {w w' : StoreWriter} {text : List Nat} {room : Nat} (hw : 0 < w.width)
    (h : Writes w w' (0x5B :: text) room) (depth extent : Nat) :
    Writes w (closeDim indent baseNestedDepth depth extent w')
      (closeText indent baseNestedDepth depth extent (0x5B :: text))
      (max room ((closeText indent baseNestedDepth depth extent (0x5B :: text)).length)) := by
  have hbrackets : ∀ {w'' : StoreWriter} {text : List Nat} {room : Nat},
      Writes w w'' text room → Writes w ((w''.push 0x5D).push 0x2C) (text ++ [0x5D, 0x2C])
        (max room (text.length + 2)) := by
    intro w'' text room h
    exact h.append (@writes_ascii w'' (width_pos h hw) [0x5D, 0x2C] (by decide))
  unfold closeDim closeText
  split
  · have hback := h.dropLast (List.cons_ne_nil _ _)
    have hindent := @writeUnicodeIndent_writes indent w'.back (width_pos hback hw)
      (baseNestedDepth + depth)
    have hlength := @length_indentText indent (baseNestedDepth + depth)
    refine (hbrackets (hback.append hindent)).mono ?_
    simp only [List.length_append, List.length_cons, List.length_nil]
    omega
  · refine (hbrackets h).mono ?_
    rw [List.length_append]
    exact Nat.le_refl _

end Traverse

end SsrJson.Ndarray
