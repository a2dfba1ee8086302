import SsrJson.Output.Integers

/-!
# Lists of integers and bools

The encoder of containers goes through nested lists with a stack of the lists around the current
one. `encodeNested` is the same as a recursion, and `listLoop_item` says that the loop, from the
item of a list, does what the recursion does. `Wrote` says what text that adds to the output.
-/

namespace SsrJson.Output

open StoreWriter

/-! ## The lists -/

/-- A list of lists of integers and bools, to any depth. -/
inductive Nested where
  | long (v : Int)
  | bool (v : Bool)
  | list (items : List Nested)

/-- `SSRJSON_ENCODE_MAX_RECURSION`. -/
def maxRecursion : Nat := 1024

/-- Why the encoder gives up. -/
inductive ListFault where
  | memory
  | tooNested
  | convert
  deriving DecidableEq, Repr

/-- The local variables of the encoder inside of a list, and the output. -/
structure ListState where
  curObj : List Nested
  curPos : Nat
  curNestedDepth : Nat
  ctnStack : List (List Nested × Nat)
  u : UBuf

section Loop

variable (isa : Decode.Isa) (indent : Nat) (realloc : Nat → Bool) (stack : ByteBuffer)

/-- A writer that reserves may fail. -/
def checked : Except UBuf UBuf → Except ListFault UBuf
  | .error _ => .error .memory
  | .ok u => .ok u

/-- `encode_process_val` on a value that is not a list with items. -/
def processScalar (curNestedDepth : Nat) (isInObj : Bool) (val : Nested) (u : UBuf) :
    Except ListFault UBuf :=
  match val with
  | .long v =>
    match pyLongBranch v with
    | .error _ => .error .convert
    | .ok branch => checked (uBufApdInt indent realloc stack curNestedDepth isInObj branch u)
  | .bool v => checked (uBufApdBool isa indent realloc curNestedDepth isInObj (!v) u)
  | .list _ => checked (uBufApdEmptyArr indent realloc curNestedDepth isInObj u)

/-- One turn of the loop at `arr_val_begin`: `inl` when the list that the loop was entered with is
closed. -/
def listStep (s : ListState) : Except ListFault (UBuf ⊕ ListState) :=
  match s.curObj[s.curPos]? with
  | some (.list (item :: items)) => do
    let u ← checked (uBufApdArrBegin indent realloc s.curNestedDepth false s.u)
    if s.curNestedDepth = maxRecursion then .error .tooNested
    else return .inr ⟨item :: items, 0, s.curNestedDepth + 1,
      (s.curObj, s.curPos + 1) :: s.ctnStack, u⟩
  | some val => do
    let u ← processScalar isa indent realloc stack s.curNestedDepth false val s.u
    return .inr { s with curPos := s.curPos + 1, u }
  | none => do
    let u ← checked (uBufApdArrEnd indent realloc (s.curNestedDepth - 1) s.u)
    match s.ctnStack with
    | [] => return .inl u
    | (obj, pos) :: ctnStack => return .inr ⟨obj, pos, s.curNestedDepth - 1, ctnStack, u⟩

/-- The loop, for a number of turns at most. -/
def listLoop : (fuel : Nat) → ListState → Option (Except ListFault UBuf)
  | 0, _ => none
  | fuel + 1, s =>
    match listStep isa indent realloc stack s with
    | .error fault => some (.error fault)
    | .ok (.inl u) => some (.ok u)
    | .ok (.inr s) => listLoop fuel s

mutual

/-- The turns of the loop at an item. -/
def Nested.turns : Nested → Nat
  | .long _ => 1
  | .bool _ => 1
  | .list [] => 1
  | .list (item :: items) => turnsList (item :: items) + 2

/-- The turns of the loop at the items of a list. -/
def turnsList : List Nested → Nat
  | [] => 0
  | item :: items => item.turns + turnsList items

end

/-- A value at its position, from `encode_process_val` on until it is written. -/
def encodeVal (curNestedDepth : Nat) (isInObj : Bool) (val : Nested) (u : UBuf) :
    Option (Except ListFault UBuf) :=
  match val with
  | .list (item :: items) =>
    match checked (uBufApdArrBegin indent realloc curNestedDepth isInObj u) with
    | .error fault => some (.error fault)
    | .ok u =>
      if curNestedDepth = maxRecursion then some (.error .tooNested)
      else listLoop isa indent realloc stack (turnsList (item :: items) + 1)
        ⟨item :: items, 0, curNestedDepth + 1, [], u⟩
  | val => some (processScalar isa indent realloc stack curNestedDepth isInObj val u)

/-! ## The recursion -/

mutual

/-- A value. -/
def encodeNested (curNestedDepth : Nat) (isInObj : Bool) :
    (val : Nested) → UBuf → Except ListFault UBuf
  | .list (item :: items), u => do
    let u ← checked (uBufApdArrBegin indent realloc curNestedDepth isInObj u)
    if curNestedDepth = maxRecursion then .error .tooNested
    else do
      let u ← encodeItems (curNestedDepth + 1) (item :: items) u
      checked (uBufApdArrEnd indent realloc curNestedDepth u)
  | .list [], u => processScalar isa indent realloc stack curNestedDepth isInObj (.list []) u
  | .long v, u => processScalar isa indent realloc stack curNestedDepth isInObj (.long v) u
  | .bool v, u => processScalar isa indent realloc stack curNestedDepth isInObj (.bool v) u

/-- The items of a list. -/
def encodeItems (curNestedDepth : Nat) : (items : List Nested) → UBuf → Except ListFault UBuf
  | [], u => .ok u
  | item :: items, u => do
    let u ← encodeNested curNestedDepth false item u
    encodeItems curNestedDepth items u

end

end Loop

/-! ## The loop is the recursion -/

section Recursion

variable {isa : Decode.Isa} {indent : Nat} {realloc : Nat → Bool} {stack : ByteBuffer}

/-- The loop goes on behind what the recursion has done. -/
def goOn (result : Except ListFault UBuf) (next : UBuf → Option (Except ListFault UBuf)) :
    Option (Except ListFault UBuf) :=
  match result with
  | .error fault => some (.error fault)
  | .ok u => next u

/-- A value that is written in one turn. -/
theorem listLoop_scalar {s : ListState} {val : Nested} (hval : s.curObj[s.curPos]? = some val)
    (hscalar : ∀ item items, val ≠ .list (item :: items)) (fuel : Nat) :
    listLoop isa indent realloc stack (fuel + 1) s =
      goOn (processScalar isa indent realloc stack s.curNestedDepth false val s.u)
        fun u => listLoop isa indent realloc stack fuel { s with curPos := s.curPos + 1, u } := by
  have hstep : listStep isa indent realloc stack s = (do
      let u ← processScalar isa indent realloc stack s.curNestedDepth false val s.u
      return .inr { s with curPos := s.curPos + 1, u }) := by
    unfold listStep
    rw [hval]
    split
    · rename_i item items heq
      exact absurd (Option.some.inj heq) (hscalar item items)
    · rename_i val' _ heq
      rw [Option.some.inj heq]
    · rename_i heq
      cases heq
  rw [listLoop, hstep]
  cases processScalar isa indent realloc stack s.curNestedDepth false val s.u with
  | error fault => rfl
  | ok u => rfl

mutual

/-- The loop at an item does what the recursion does, and goes on behind the item. -/
theorem listLoop_item (val : Nested) (s : ListState) (hval : s.curObj[s.curPos]? = some val)
    (fuel : Nat) :
    listLoop isa indent realloc stack (val.turns + fuel) s =
      goOn (encodeNested isa indent realloc stack s.curNestedDepth false val s.u)
        fun u => listLoop isa indent realloc stack fuel { s with curPos := s.curPos + 1, u } := by
  match val with
  | .long v =>
    rw [Nested.turns, encodeNested, Nat.add_comm]
    exact listLoop_scalar hval (fun _ _ h => by cases h) fuel
  | .bool v =>
    rw [Nested.turns, encodeNested, Nat.add_comm]
    exact listLoop_scalar hval (fun _ _ h => by cases h) fuel
  | .list [] =>
    rw [Nested.turns, encodeNested, Nat.add_comm]
    exact listLoop_scalar hval (fun _ _ h => by cases h) fuel
  | .list (item :: items) =>
    have hstep : listStep isa indent realloc stack s = (do
        let u ← checked (uBufApdArrBegin indent realloc s.curNestedDepth false s.u)
        if s.curNestedDepth = maxRecursion then .error .tooNested
        else return .inr ⟨item :: items, 0, s.curNestedDepth + 1,
          (s.curObj, s.curPos + 1) :: s.ctnStack, u⟩) := by
      unfold listStep
      rw [hval]
    rw [Nested.turns, encodeNested,
      show turnsList (item :: items) + 2 + fuel = turnsList (item :: items) + (fuel + 1) + 1 by omega,
      listLoop, hstep]
    cases checked (uBufApdArrBegin indent realloc s.curNestedDepth false s.u) with
    | error fault => rfl
    | ok u =>
        by_cases hdepth : s.curNestedDepth = maxRecursion
        · simp only [bind, Except.bind, if_pos hdepth]
          rfl
        · have hitems := listLoop_items (item :: items) [] (s.curNestedDepth + 1)
            ((s.curObj, s.curPos + 1) :: s.ctnStack) u (fuel + 1)
          simp only [bind, Except.bind, if_neg hdepth]
          refine hitems.trans ?_
          cases encodeItems isa indent realloc stack (s.curNestedDepth + 1) (item :: items) u with
          | error fault => rfl
          | ok u =>
              -- Behind the last item the list is closed and the list around it goes on.
              have hnone : ([] ++ item :: items)[([] : List Nested).length +
                  (item :: items).length]? = none := by simp
              show listLoop isa indent realloc stack (fuel + 1) _ = _
              rw [listLoop, listStep]
              dsimp only
              rw [hnone]
              dsimp only
              rw [Nat.add_sub_cancel]
              cases checked (uBufApdArrEnd indent realloc s.curNestedDepth u) with
              | error fault => rfl
              | ok u => rfl

/-- The loop from an item of a list on to the end of the list. -/
theorem listLoop_items (rest before : List Nested) (curNestedDepth : Nat)
    (ctnStack : List (List Nested × Nat)) (u : UBuf) (fuel : Nat) :
    listLoop isa indent realloc stack (turnsList rest + fuel)
        ⟨before ++ rest, before.length, curNestedDepth, ctnStack, u⟩ =
      goOn (encodeItems isa indent realloc stack curNestedDepth rest u) fun u =>
        listLoop isa indent realloc stack fuel
          ⟨before ++ rest, before.length + rest.length, curNestedDepth, ctnStack, u⟩ := by
  match rest with
  | [] =>
    rw [turnsList, encodeItems, Nat.zero_add]
    rfl
  | item :: rest =>
    have hval : (before ++ item :: rest)[before.length]? = some item := by simp
    have hitem := listLoop_item item
      ⟨before ++ item :: rest, before.length, curNestedDepth, ctnStack, u⟩ hval
      (turnsList rest + fuel)
    rw [turnsList, encodeItems, Nat.add_assoc, hitem]
    cases encodeNested isa indent realloc stack curNestedDepth false item u with
    | error fault => rfl
    | ok u =>
        have hrest := listLoop_items rest (before ++ [item]) curNestedDepth ctnStack u fuel
        rw [List.append_assoc, List.length_append, List.length_singleton] at hrest
        refine hrest.trans ?_
        rw [List.length_cons, show before.length + 1 + rest.length = before.length +
          (rest.length + 1) by omega]
        rfl

end

/-- The encoder comes to an end, and does what the recursion does. -/
theorem encodeVal_eq (curNestedDepth : Nat) (isInObj : Bool) (val : Nested) (u : UBuf) :
    encodeVal isa indent realloc stack curNestedDepth isInObj val u =
      some (encodeNested isa indent realloc stack curNestedDepth isInObj val u) := by
  match val with
  | .long v => rw [encodeVal, encodeNested]; exact fun _ _ h => by cases h
  | .bool v => rw [encodeVal, encodeNested]; exact fun _ _ h => by cases h
  | .list [] => rw [encodeVal, encodeNested]; exact fun _ _ h => by cases h
  | .list (item :: items) =>
    rw [encodeVal, encodeNested]
    cases checked (uBufApdArrBegin indent realloc curNestedDepth isInObj u) with
    | error fault => rfl
    | ok u =>
        by_cases hdepth : curNestedDepth = maxRecursion
        · simp only [bind, Except.bind, if_pos hdepth]
        · simp only [bind, Except.bind, if_neg hdepth]
          refine (listLoop_items (item :: items) [] (curNestedDepth + 1) [] u 1).trans ?_
          cases encodeItems isa indent realloc stack (curNestedDepth + 1) (item :: items) u with
          | error fault => rfl
          | ok u =>
              have hnone : ([] ++ item :: items)[([] : List Nested).length +
                  (item :: items).length]? = none := by simp
              show listLoop isa indent realloc stack 1 _ = _
              rw [listLoop, listStep]
              dsimp only
              rw [hnone]
              dsimp only
              rw [Nat.add_sub_cancel]
              cases checked (uBufApdArrEnd indent realloc curNestedDepth u) with
              | error fault => rfl
              | ok u => rfl

end Recursion

/-! ## The text -/

section Text

variable (indent : Nat)

/-- The characters of a bool and of a comma behind it. -/
def boolItemText (v : Bool) : List Nat :=
  if v then [0x74, 0x72, 0x75, 0x65, 0x2C] else [0x66, 0x61, 0x6C, 0x73, 0x65, 0x2C]

mutual

/-- A value with a comma behind it, without the indent in front. -/
def nestedText (curNestedDepth : Nat) : Nested → List Nat
  | .long v => integerText v ++ [0x2C]
  | .bool v => boolItemText v
  | .list [] => [0x5B, 0x5D, 0x2C]
  | .list (item :: items) =>
    (0x5B :: itemsText (curNestedDepth + 1) (item :: items)).dropLast ++
      (indentText indent curNestedDepth ++ [0x5D, 0x2C])

/-- The items of a list, each with its indent and its comma. -/
def itemsText (curNestedDepth : Nat) : List Nested → List Nat
  | [] => []
  | item :: items =>
    indentText indent curNestedDepth ++ nestedText curNestedDepth item ++
      itemsText curNestedDepth items

end

mutual

/-- How deep lists with items are nested. -/
def Nested.height : Nested → Nat
  | .long _ => 0
  | .bool _ => 0
  | .list [] => 0
  | .list (item :: items) => heightList (item :: items) + 1

/-- The greatest height of the items of a list. -/
def heightList : List Nested → Nat
  | [] => 0
  | item :: items => max item.height (heightList items)

end

mutual

/-- The integers have 64 bits. -/
def Nested.Fits : Nested → Prop
  | .long v => -2 ^ 63 ≤ v ∧ v < 2 ^ 64
  | .bool _ => True
  | .list items => FitsList items

/-- So have those of the items of a list. -/
def FitsList : List Nested → Prop
  | [] => True
  | item :: items => item.Fits ∧ FitsList items

end

end Text

/-! ## What is appended -/

section Appends

variable {isa : Decode.Isa} {indent : Nat} {realloc : Nat → Bool} {stack : ByteBuffer}

/-- What is reserved behind the text of an integer, a bool or a bracket. -/
def reserveExcess : Nat := 32

/-- There is no memory for some characters more: a size is not granted, or the characters and what
is reserved behind them take more than any size. -/
def NoMemory (realloc : Nat → Bool) (u : UBuf) (length : Nat) : Prop :=
  (∃ size, realloc size = false) ∨
    reserveMax < u.writer.width * (u.writer.index + (length + reserveExcess))

theorem NoMemory.mono {u : UBuf} {length length' : Nat} (h : NoMemory realloc u length)
    (hle : length ≤ length') : NoMemory realloc u length' := by
  rcases h with hrefused | hmax
  · exact .inl hrefused
  · refine .inr (hmax.trans_le (Nat.mul_le_mul_left _ ?_))
    omega

/-- Behind a text there is no memory, so there was none for both. -/
theorem NoMemory.append {u u' : UBuf} {text : List Nat} {room length : Nat}
    (hwrites : Writes u.writer u'.writer text room) (h : NoMemory realloc u' length) :
    NoMemory realloc u (text.length + length) := by
  rcases h with hrefused | hmax
  · exact .inl hrefused
  · rw [hwrites.width, hwrites.index] at hmax
    refine .inr (hmax.trans_le (Nat.mul_le_mul_left _ ?_))
    omega

/-- What the encoder does to the output: it appends a text, or fails for want of memory, or because
lists are nested too deeply. -/
def Wrote (realloc : Nat → Bool) (u : UBuf) (text : List Nat) (depth : Nat) :
    Except ListFault UBuf → Prop
  | .ok u' => ∃ room, Writes u.writer u'.writer text room
  | .error .memory => NoMemory realloc u text.length
  | .error .tooNested => maxRecursion < depth
  | .error .convert => False

theorem Wrote.append {u u' : UBuf} {text text' : List Nat} {room depth : Nat}
    (h : Writes u.writer u'.writer text room) {result : Except ListFault UBuf}
    (h' : Wrote realloc u' text' depth result) : Wrote realloc u (text ++ text') depth result := by
  match result with
  | .ok _ =>
    obtain ⟨room', hwrites⟩ := h'
    exact ⟨_, h.append hwrites⟩
  | .error .memory =>
    have hmemory : NoMemory realloc u' text'.length := h'
    have hboth := hmemory.append h
    rw [← List.length_append] at hboth
    exact hboth
  | .error .tooNested => exact h'
  | .error .convert => exact h'

/-- What comes behind a fault is not written. -/
theorem Wrote.fault {u : UBuf} {text text' : List Nat} {depth depth' : Nat} {fault : ListFault}
    (h : Wrote realloc u text depth (.error fault)) (hlength : text.length ≤ text'.length)
    (hdepth : depth ≤ depth') : Wrote realloc u text' depth' (.error fault) := by
  match fault with
  | .memory => exact NoMemory.mono h hlength
  | .tooNested => exact Nat.lt_of_lt_of_le h hdepth
  | .convert => exact h

theorem Wrote.mono {u : UBuf} {text : List Nat} {depth depth' : Nat}
    {result : Except ListFault UBuf} (h : Wrote realloc u text depth result)
    (hle : depth ≤ depth') : Wrote realloc u text depth' result := by
  match result with
  | .ok _ => exact h
  | .error _ => exact h.fault (Nat.le_refl _) hle

theorem valueReserveCount_eq (curNestedDepth : Nat) (isInObj : Bool) (additional : Nat) :
    valueReserveCount indent curNestedDepth isInObj additional =
      (valueIndent indent curNestedDepth isInObj).length + additional := by
  have hlength := @length_indentText indent curNestedDepth
  unfold valueReserveCount valueIndent
  cases isInObj with
  | true =>
      rw [if_neg (by simp), if_pos rfl, List.length_nil, Nat.zero_add]
  | false =>
      rw [if_neg (Bool.false_ne_true), hlength]
      by_cases hindent : indent = 0
      · rw [if_neg (fun h => h.2 hindent)]
        unfold getIndentCharCount
        rw [if_neg (fun h => h hindent), Nat.zero_add]
      · rw [if_pos ⟨rfl, hindent⟩]

/-- One append. -/
theorem uBufApdValue_wrote {u : UBuf} (hwidth : 0 < u.writer.width) (curNestedDepth : Nat)
    (isInObj : Bool) {additional : Nat} (hexcess : additional ≤ reserveExcess)
    {write : StoreWriter → StoreWriter} {text : List Nat}
    (h : ∀ w : StoreWriter, w.width = u.writer.width → Writes w (write w) text additional)
    (depth : Nat) :
    Wrote realloc u (valueIndent indent curNestedDepth isInObj ++ text) depth
      (checked (uBufApdValue indent realloc curNestedDepth isInObj additional write u)) := by
  have happended := @uBufApdValue_appended indent realloc u hwidth curNestedDepth isInObj
    additional write text h
  cases hreserve : uBufReserve realloc
      (valueReserveCount indent curNestedDepth isInObj additional) u with
  | error v =>
      have hfault : uBufApdValue indent realloc curNestedDepth isInObj additional write u =
          .error v := by
        unfold uBufApdValue
        rw [hreserve]
        rfl
      rw [hfault]
      have hmemory := uBufReserve_error hreserve
      rw [valueReserveCount_eq] at hmemory
      have hnone : NoMemory realloc u (valueIndent indent curNestedDepth isInObj).length := by
        rcases hmemory with hrefused | hmax
        · exact .inl hrefused
        · refine .inr (hmax.trans_le (Nat.mul_le_mul_left _ ?_))
          omega
      refine hnone.mono ?_
      rw [List.length_append]
      exact Nat.le_add_right _ _
  | ok v =>
      have hdone : uBufApdValue indent realloc curNestedDepth isInObj additional write u =
          .ok { v with
            writer := write (writeValueIndent indent curNestedDepth isInObj v.writer) } := by
        unfold uBufApdValue
        rw [hreserve]
        rfl
      rw [hdone] at happended ⊢
      obtain ⟨-, -, size, hwrites, -⟩ := happended
      exact ⟨size, hwrites⟩

/-- An integer, a bool or an empty list. -/
theorem processScalar_wrote {val : Nested} (hscalar : val.height = 0) (hfits : val.Fits) {u : UBuf}
    (hwidth : 0 < u.writer.width) (curNestedDepth : Nat) (isInObj : Bool) (depth : Nat) :
    Wrote realloc u
      (valueIndent indent curNestedDepth isInObj ++ nestedText indent curNestedDepth val)
      depth (processScalar isa indent realloc stack curNestedDepth isInObj val u) := by
  match val with
  | .long v =>
    obtain ⟨branch, hbranch, hmeans⟩ := pyLongBranch_means hfits
    have hexcess : branch.reserved ≤ reserveExcess := by
      cases branch with
      | zero => decide
      | nonzero m sign => cases m <;> simp [IntBranch.reserved, Magnitude.reserved, reserveExcess]
    rw [processScalar, hbranch]
    exact uBufApdValue_wrote hwidth curNestedDepth isInObj hexcess
      (fun w hw => writeItem_writes stack hmeans (hw ▸ hwidth)) depth
  | .bool v =>
    have hexcess : writeBoolCopyCnt isa u.writer.width ≤ reserveExcess := by
      unfold writeBoolCopyCnt
      split <;> decide
    rw [processScalar]
    refine uBufApdValue_wrote hwidth curNestedDepth isInObj hexcess (fun w hw => ?_) depth
    rw [← hw]
    have hbool := @writeUnicodeBool_writes isa w (hw ▸ hwidth) (!v)
    cases v with
    | true => exact hbool
    | false => exact hbool
  | .list [] =>
    rw [processScalar]
    exact uBufApdValue_wrote hwidth curNestedDepth isInObj (by decide)
      (fun w hw => writeUnicodeEmpty_writes (hw ▸ hwidth) (by decide) (by decide)) depth
  | .list (item :: items) => cases hscalar

/-- The closing bracket of a list that has items, over the comma of the last one. -/
theorem arrEnd_wrote {u u' : UBuf} {text : List Nat} {room : Nat}
    (h : Writes u.writer u'.writer text room) (htext : text ≠ []) (hwidth : 0 < u.writer.width)
    (curNestedDepth depth : Nat) :
    Wrote realloc u (text.dropLast ++ (indentText indent curNestedDepth ++ [0x5D, 0x2C])) depth
      (checked (uBufApdArrEnd indent realloc curNestedDepth u')) := by
  have hback : Writes u.writer (stepBack u').writer text.dropLast room := h.dropLast htext
  have hpos := width_pos hback hwidth
  have hend : Wrote realloc (stepBack u') (indentText indent curNestedDepth ++ [0x5D, 0x2C]) depth
      (checked (uBufApdArrEnd indent realloc curNestedDepth u')) :=
    uBufApdValue_wrote hpos curNestedDepth false (by decide)
      (fun w hw => writes_ascii (hw ▸ hpos) (by decide)) depth
  exact Wrote.append hback hend

mutual

/-- A value appends its text. -/
theorem encodeNested_wrote (val : Nested) (hfits : val.Fits) (curNestedDepth : Nat)
    (isInObj : Bool) (u : UBuf) (hwidth : 0 < u.writer.width) :
    Wrote realloc u
      (valueIndent indent curNestedDepth isInObj ++ nestedText indent curNestedDepth val)
      (curNestedDepth + val.height)
      (encodeNested isa indent realloc stack curNestedDepth isInObj val u) := by
  match val with
  | .long v =>
    rw [encodeNested]
    exact processScalar_wrote rfl hfits hwidth curNestedDepth isInObj _
  | .bool v =>
    rw [encodeNested]
    exact processScalar_wrote rfl hfits hwidth curNestedDepth isInObj _
  | .list [] =>
    rw [encodeNested]
    exact processScalar_wrote rfl hfits hwidth curNestedDepth isInObj _
  | .list (item :: items) =>
    rw [encodeNested, nestedText, Nested.height]
    have hbegin : Wrote realloc u (valueIndent indent curNestedDepth isInObj ++ [0x5B])
        (curNestedDepth + (heightList (item :: items) + 1))
        (checked (uBufApdArrBegin indent realloc curNestedDepth isInObj u)) :=
      uBufApdValue_wrote hwidth curNestedDepth isInObj (by decide)
        (fun w hw => @writes_ascii w (hw ▸ hwidth) [0x5B] (by decide)) _
    cases hresult : checked (uBufApdArrBegin indent realloc curNestedDepth isInObj u) with
    | error fault =>
        rw [hresult] at hbegin
        refine hbegin.fault ?_ (Nat.le_refl _)
        simp only [List.length_append, List.length_cons, List.length_nil]
        omega
    | ok u' =>
        rw [hresult] at hbegin
        obtain ⟨size, hwrites⟩ := hbegin
        by_cases hdepth : curNestedDepth = maxRecursion
        · simp only [bind, Except.bind, if_pos hdepth]
          show maxRecursion < curNestedDepth + (heightList (item :: items) + 1)
          omega
        · simp only [bind, Except.bind, if_neg hdepth]
          have hitems := encodeItems_wrote (item :: items) hfits (curNestedDepth + 1) u'
            (width_pos hwrites hwidth)
          have hall := Wrote.append hwrites hitems
          rw [List.append_assoc, List.singleton_append] at hall
          cases hinner : encodeItems isa indent realloc stack (curNestedDepth + 1) (item :: items)
              u' with
          | error fault =>
              rw [hinner] at hall
              -- The brackets behind the items are longer than the comma that is dropped.
              refine hall.fault ?_ (by omega)
              simp only [List.length_append, List.length_dropLast, List.length_cons,
                List.length_nil]
              omega
          | ok u'' =>
              rw [hinner] at hall
              obtain ⟨room, hwrites'⟩ := hall
              have hend := @arrEnd_wrote indent realloc u u'' _ _ hwrites'
                (List.append_ne_nil_of_right_ne_nil _ (List.cons_ne_nil _ _)) hwidth curNestedDepth
                (curNestedDepth + (heightList (item :: items) + 1))
              rw [List.dropLast_append_of_ne_nil (List.cons_ne_nil _ _), List.append_assoc] at hend
              exact hend

/-- The items of a list append their texts, one after the other. -/
theorem encodeItems_wrote (items : List Nested) (hfits : FitsList items) (curNestedDepth : Nat)
    (u : UBuf) (hwidth : 0 < u.writer.width) :
    Wrote realloc u (itemsText indent curNestedDepth items) (curNestedDepth + heightList items)
      (encodeItems isa indent realloc stack curNestedDepth items u) := by
  match items with
  | [] => exact ⟨0, Writes.refl u.writer⟩
  | item :: items =>
    rw [encodeItems, itemsText, heightList]
    have hitem := encodeNested_wrote item hfits.1 curNestedDepth false u hwidth
    cases hresult : encodeNested isa indent realloc stack curNestedDepth false item u with
    | error fault =>
        rw [hresult] at hitem
        refine hitem.fault ?_ (by omega)
        rw [@List.length_append _ (_ ++ _)]
        exact Nat.le_add_right _ _
    | ok u' =>
        rw [hresult] at hitem
        obtain ⟨room, hwrites⟩ := hitem
        have hrest := encodeItems_wrote items hfits.2 curNestedDepth u' (width_pos hwrites hwidth)
        exact (Wrote.append hwrites hrest).mono (by omega)

end

end Appends

end SsrJson.Output
