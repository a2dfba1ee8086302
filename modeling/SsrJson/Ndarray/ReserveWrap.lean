import Mathlib.Algebra.BigOperators.Ring.List
import SsrJson.Encode.Objects
import SsrJson.Ndarray.Reserve

/-!
# The count in 64 bits

The room for an array is counted in `usize`. Empty arrays need no memory for their elements, so
that the extents around an empty dimension may be as large as one likes, and the count as well.
`roomSum` is the count as a sum over the dimensions that are counted; what the encoder asks for is
right just when that sum has 64 bits.
-/

namespace SsrJson.Ndarray

open Output StoreWriter
open Encode (ArrayStruct ArrayError maxNdarrayDimension)

/-! ## The count in 64 bits -/

/-- Sums in `usize`. -/
def wrap64 (n : Nat) : Nat := n % 2 ^ 64

section Wrap

variable {indent elemSize : Nat}

theorem get1darrayReserveCnt_wrap (curNestedDepth length : Nat) :
    get1darrayReserveCnt wrap64 indent elemSize curNestedDepth length % 2 ^ 64 =
      get1darrayReserveCnt id indent elemSize curNestedDepth length % 2 ^ 64 := by
  unfold get1darrayReserveCnt wrap64
  split
  · split
    · rfl
    · simp only [id]
      omega
  · exact Nat.mod_mod _ _

theorem reserveOuter_wrap {cnt cnt' : Nat} (length depth : Nat)
    (h : cnt % 2 ^ 64 = cnt' % 2 ^ 64) :
    reserveOuter wrap64 indent length depth cnt % 2 ^ 64 =
      reserveOuter id indent length depth cnt' % 2 ^ 64 := by
  have hmul : cnt * length % 2 ^ 64 = cnt' * length % 2 ^ 64 := Nat.ModEq.mul_right length h
  unfold reserveOuter wrap64
  split
  · simp only [id]
    generalize ((depth + 1) * indent + 1) * (length - 1) = a
    generalize (depth + 1) * indent = b
    generalize depth * indent = c
    omega
  · simp only [id]
    omega

theorem reserveCnt_wrap (shape : List Nat) (curNestedDepth : Nat) :
    reserveCnt wrap64 indent elemSize shape curNestedDepth % 2 ^ 64 =
      reserveCnt id indent elemSize shape curNestedDepth % 2 ^ 64 := by
  fun_induction reserveCnt wrap64 indent elemSize shape curNestedDepth with
  | case1 => rfl
  | case2 length curNestedDepth => exact get1darrayReserveCnt_wrap curNestedDepth length
  | case3 => rw [reserveCnt, if_pos rfl]
  | case4 length length' shape curNestedDepth hlength ih =>
      rw [reserveCnt, if_neg hlength]
      exact reserveOuter_wrap length curNestedDepth ih

/-- What is counted in 64 bits is what is left of the count. -/
theorem getNdarrayReserveCnt_wrap (shape : List Nat) (baseNestedDepth : Nat) (isInObj : Bool) :
    getNdarrayReserveCnt wrap64 indent elemSize shape baseNestedDepth isInObj =
      wrap64 (getNdarrayReserveCnt id indent elemSize shape baseNestedDepth isInObj) := by
  have hcnt := @reserveCnt_wrap indent elemSize shape (baseNestedDepth + 1)
  unfold getNdarrayReserveCnt
  rw [getNdarrayReserveCntInternal_eq, getNdarrayReserveCntInternal_eq]
  simp only [id, wrap64]
  split <;> omega

end Wrap

/-! ## When nothing is lost -/

/-- The extents in front of the first that is zero. -/
def leading (shape : List Nat) : List Nat := shape.takeWhile (· ≠ 0)

/-- The product of the first extents. -/
def product (shape : List Nat) (j : Nat) : Nat := ((leading shape).take j).prod

/-- The room as a sum over the dimensions in front of the first that is empty: an indent for each
array in a dimension, and for each dimension itself its brackets, its comma and an indent. In the
innermost one there are empty arrays, or elements with their commas. -/
def roomSum (indent elemSize : Nat) (shape : List Nat) (depth : Nat) : Nat :=
  ((List.range (leading shape).length).map fun j =>
    product shape (j + 1) * getIndentCharCount indent (depth + j + 1) +
      product shape j * (getIndentCharCount indent (depth + j) + 2)).sum +
    product shape (leading shape).length *
      (if (leading shape).length < shape.length then 3 else elemSize + 1)

section RoomSum

variable {indent elemSize : Nat}

theorem leading_cons {n : Nat} (hn : n ≠ 0) (shape : List Nat) :
    leading (n :: shape) = n :: leading shape := by
  unfold leading
  rw [List.takeWhile_cons_of_pos (by simpa using hn)]

theorem leading_zero (shape : List Nat) : leading (0 :: shape) = [] := rfl

theorem product_cons {n : Nat} (hn : n ≠ 0) (shape : List Nat) (j : Nat) :
    product (n :: shape) (j + 1) = n * product shape j := by
  unfold product
  rw [leading_cons hn, List.take_succ_cons, List.prod_cons]

theorem roomSum_zero (shape : List Nat) (depth : Nat) :
    roomSum indent elemSize (0 :: shape) depth = 3 := by
  unfold roomSum
  rw [leading_zero]
  simp [product, leading_zero]

theorem roomSum_nil (depth : Nat) : roomSum indent elemSize [] depth = elemSize + 1 := by
  simp [roomSum, leading, product]

/-- The first dimension of the sum. -/
theorem roomSum_cons {n : Nat} (hn : n ≠ 0) (shape : List Nat) (depth : Nat) :
    roomSum indent elemSize (n :: shape) depth =
      n * (getIndentCharCount indent (depth + 1) + roomSum indent elemSize shape (depth + 1)) +
        (getIndentCharCount indent depth + 2) := by
  have hterms : ∀ j, product (n :: shape) (j + 1 + 1) *
      getIndentCharCount indent (depth + (j + 1) + 1) +
        product (n :: shape) (j + 1) * (getIndentCharCount indent (depth + (j + 1)) + 2) =
      n * (product shape (j + 1) * getIndentCharCount indent (depth + 1 + j + 1) +
        product shape j * (getIndentCharCount indent (depth + 1 + j) + 2)) := by
    intro j
    rw [product_cons hn, product_cons hn, show depth + (j + 1) = depth + 1 + j by omega]
    ring
  have hzero : product (n :: shape) 0 = 1 := rfl
  have hone : product (n :: shape) (0 + 1) = n := by
    rw [product_cons hn]
    exact Nat.mul_one n
  unfold roomSum
  rw [leading_cons hn, List.length_cons, List.length_cons, List.range_succ_eq_map, List.map_cons,
    List.map_map, List.sum_cons, hone, hzero, product_cons hn]
  have hrest : ((List.range (leading shape).length).map ((fun j =>
      product (n :: shape) (j + 1) * getIndentCharCount indent (depth + j + 1) +
        product (n :: shape) j * (getIndentCharCount indent (depth + j) + 2)) ∘ Nat.succ)).sum =
      n * ((List.range (leading shape).length).map fun j =>
        product shape (j + 1) * getIndentCharCount indent (depth + 1 + j + 1) +
          product shape j * (getIndentCharCount indent (depth + 1 + j) + 2)).sum := by
    rw [← List.sum_map_mul_left]
    exact congrArg List.sum (List.map_congr_left fun j _ => hterms j)
  rw [hrest]
  simp only [Nat.add_lt_add_iff_right, Nat.add_zero]
  ring

/-- The count is the sum. -/
theorem reserveCnt_eq_roomSum {shape : List Nat} (hshape : shape ≠ []) (depth : Nat) :
    reserveCnt id indent elemSize shape depth = roomSum indent elemSize shape depth := by
  fun_induction reserveCnt id indent elemSize shape depth with
  | case1 => exact absurd rfl hshape
  | case2 length depth =>
      unfold get1darrayReserveCnt
      rcases Nat.eq_zero_or_pos length with rfl | hpos
      · rw [roomSum_zero]
        split <;> simp
      · rw [roomSum_cons hpos.ne', roomSum_nil]
        by_cases hindent : 0 < indent
        · rw [if_pos hindent, if_neg hpos.ne', getIndentCharCount_pos hindent,
            getIndentCharCount_pos hindent]
          simp only [id]
          ring
        · rw [if_neg hindent, if_neg hpos.ne', getIndentCharCount_zero hindent,
            getIndentCharCount_zero hindent]
          simp only [id, Nat.zero_add]
          omega
  | case3 => rw [roomSum_zero]
  | case4 length length' shape depth hlength ih =>
      rw [roomSum_cons hlength, ← ih (List.cons_ne_nil _ _)]
      generalize reserveCnt id indent elemSize (length' :: shape) (depth + 1) = cnt
      unfold reserveOuter
      by_cases hindent : 0 < indent
      · rw [if_pos hindent, getIndentCharCount_pos hindent, getIndentCharCount_pos hindent]
        obtain ⟨n, rfl⟩ : ∃ n, length = n + 1 := ⟨length - 1, by omega⟩
        have hsub : ∀ a : Nat, a + 2 - 1 = a + 1 := fun a => by omega
        simp only [id, Nat.add_sub_cancel]
        rw [hsub]
        ring
      · rw [if_neg hindent, getIndentCharCount_zero hindent, getIndentCharCount_zero hindent]
        simp only [id, Nat.zero_add]
        rw [Nat.mul_comm]
        omega

/-- The whole count: the indent, the padding and the sum. -/
theorem getNdarrayReserveCnt_eq {shape : List Nat} (hshape : shape ≠ []) (baseNestedDepth : Nat)
    (isInObj : Bool) :
    getNdarrayReserveCnt id indent elemSize shape baseNestedDepth isInObj =
      (if isInObj then 0 else getIndentCharCount indent baseNestedDepth) + 10 +
        roomSum indent elemSize shape (baseNestedDepth + 1) := by
  unfold getNdarrayReserveCnt
  rw [getNdarrayReserveCntInternal_eq, reserveCnt_eq_roomSum hshape]
  simp only [id]
  cases isInObj with
  | true => rw [if_neg (by simp), if_pos rfl]
  | false =>
      by_cases hindent : 0 < indent
      · rw [if_pos ⟨hindent, rfl⟩, if_neg (by decide), getIndentCharCount_pos hindent, Nat.mul_comm]
      · rw [if_neg (by omega), if_neg (by decide), getIndentCharCount_zero hindent]

end RoomSum

/-! ## Which arrays are counted -/

/-- `to_ndatype`. -/
def toNdatype (typekind : Char) (itemsize : Int) : Option NdaType :=
  match typekind with
  | 'f' =>
    if itemsize = 8 then some .f64 else if itemsize = 4 then some .f32
    else if itemsize = 2 then some .f16 else none
  | 'i' =>
    if itemsize = 8 then some .i64 else if itemsize = 4 then some .i32
    else if itemsize = 2 then some .i16 else if itemsize = 1 then some .i8 else none
  | 'u' =>
    if itemsize = 8 then some .u64 else if itemsize = 4 then some .u32
    else if itemsize = 2 then some .u16 else if itemsize = 1 then some .u8 else none
  | 'b' => some .bool
  | _ => none

/-- What a capsule of `__array_struct__` describes. -/
structure ArrayDescription where
  two : Int
  cContiguous : Bool
  notSwapped : Bool
  typekind : Char
  itemsize : Int
  shape : List Nat

/-- `u8_buffer_append_ndarray` up to its reservation: the checks, and the size it asks for. -/
def reserveRequest (wrap : Nat → Nat) (indent baseNestedDepth : Nat) (isInObj : Bool)
    (array : ArrayDescription) : Except ArrayError Nat :=
  let ndatype := toNdatype array.typekind array.itemsize
  match (ArrayStruct.interface array.two array.cContiguous array.notSwapped array.shape.length
    ndatype.isSome array.shape).check with
  | .error error => .error error
  | .ok shape =>
    match ndatype with
    | none => .error .dtype
    | some type =>
      .ok (getNdarrayReserveCnt wrap indent (getElemWriteSize type) shape baseNestedDepth isInObj)

/-- What is asked for in 64 bits is the count in exact integers, or nothing is. -/
def CountsExactly (indent baseNestedDepth : Nat) (isInObj : Bool) (array : ArrayDescription) :
    Prop :=
  ∀ cnt, reserveRequest wrap64 indent baseNestedDepth isInObj array = .ok cnt →
    reserveRequest id indent baseNestedDepth isInObj array = .ok cnt

/-- The indent, the padding and the sum over the dimensions have 64 bits, for an array of a type
the encoder takes. -/
def RoomHas64Bits (indent baseNestedDepth : Nat) (isInObj : Bool) (array : ArrayDescription) :
    Prop :=
  ∃ type, toNdatype array.typekind array.itemsize = some type ∧
    (if isInObj then 0 else getIndentCharCount indent baseNestedDepth) + 10 +
      roomSum indent (getElemWriteSize type) array.shape (baseNestedDepth + 1) < 2 ^ 64

/-- An array the encoder refuses. -/
def Refused (array : ArrayDescription) : Prop :=
  array.two ≠ 2 ∨ array.cContiguous = false ∨ array.notSwapped = false ∨ array.shape.length < 1 ∨
    32 < array.shape.length ∨ toNdatype array.typekind array.itemsize = none

/-- The checks let the other arrays through. -/
theorem reserveRequest_eq (wrap : Nat → Nat) (indent baseNestedDepth : Nat) (isInObj : Bool)
    (array : ArrayDescription) :
    (Refused array ∧ ∃ error, reserveRequest wrap indent baseNestedDepth isInObj array =
      .error error) ∨
    ¬ Refused array ∧ ∃ type, toNdatype array.typekind array.itemsize = some type ∧
      reserveRequest wrap indent baseNestedDepth isInObj array =
        .ok (getNdarrayReserveCnt wrap indent (getElemWriteSize type) array.shape baseNestedDepth
          isInObj) := by
  unfold reserveRequest ArrayStruct.check Refused
  cases htype : toNdatype array.typekind array.itemsize with
  | none =>
      refine .inl ⟨by simp, ?_⟩
      dsimp only
      split_ifs <;> exact ⟨_, rfl⟩
  | some type =>
      dsimp only
      split_ifs with htwo hcontiguous hswapped hlow hhigh hdtype
      · exact .inl ⟨.inl htwo, _, rfl⟩
      · exact .inl ⟨.inr (.inl hcontiguous), _, rfl⟩
      · exact .inl ⟨.inr (.inr (.inl hswapped)), _, rfl⟩
      · exact .inl ⟨.inr (.inr (.inr (.inl (by omega)))), _, rfl⟩
      · refine .inl ⟨.inr (.inr (.inr (.inr (.inl ?_)))), _, rfl⟩
        unfold maxNdarrayDimension at hhigh
        omega
      · cases hdtype
      · refine .inr ⟨?_, type, rfl, rfl⟩
        unfold maxNdarrayDimension at hhigh
        rw [not_or, not_or, not_or, not_or, not_or]
        exact ⟨htwo, hcontiguous, hswapped, by omega, by omega, id⟩

/-- The count in 64 bits is the exact one just when the array is refused or the sum over its
dimensions has 64 bits. -/
theorem countsExactly_iff (indent baseNestedDepth : Nat) (isInObj : Bool)
    (array : ArrayDescription) :
    CountsExactly indent baseNestedDepth isInObj array ↔
      Refused array ∨ RoomHas64Bits indent baseNestedDepth isInObj array := by
  unfold CountsExactly RoomHas64Bits
  rcases reserveRequest_eq wrap64 indent baseNestedDepth isInObj array with
    ⟨hrefused, error, herror⟩ | ⟨hadmitted, type, htype, hcount⟩
  · rw [herror]
    exact iff_of_true (fun cnt h => by cases h) (.inl hrefused)
  · rcases reserveRequest_eq id indent baseNestedDepth isInObj array with
      ⟨hrefused, -⟩ | ⟨-, type', htype', hcount'⟩
    · exact absurd hrefused hadmitted
    · obtain rfl : type = type' := Option.some.inj (htype.symm.trans htype')
      have hshape : array.shape ≠ [] := by
        rintro hnil
        exact hadmitted (.inr (.inr (.inr (.inl (by rw [hnil]; decide)))))
      rw [hcount, hcount', getNdarrayReserveCnt_wrap, getNdarrayReserveCnt_eq hshape]
      constructor
      · intro hexact
        have heq := Except.ok.inj (hexact _ rfl)
        refine .inr ⟨type, htype, ?_⟩
        rw [heq]
        exact Nat.mod_lt _ (by decide)
      · rintro (hrefused | ⟨type', htype'', hroom⟩) cnt hcnt
        · exact absurd hrefused hadmitted
        · obtain rfl : type = type' := Option.some.inj (htype.symm.trans htype'')
          rw [← hcnt, wrap64, Nat.mod_eq_of_lt hroom]

/-- `np.empty(0, np.int8).reshape(2 ** 61, 2, 0)`. -/
def emptyRows : ArrayDescription where
  two := 2
  cContiguous := true
  notSwapped := true
  typekind := 'i'
  itemsize := 1
  shape := [2 ^ 61, 2, 0]

/-- Twelve bytes are reserved for it. -/
theorem emptyRows_not_counted : ¬ CountsExactly 0 0 true emptyRows := by
  intro hexact
  have hcnt : reserveRequest id 0 0 true emptyRows = .ok 12 := hexact 12 (by decide)
  exact absurd hcnt (by decide)

end SsrJson.Ndarray
