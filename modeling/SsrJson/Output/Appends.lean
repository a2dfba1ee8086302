import SsrJson.Output.UBuf

/-!
# Sequences of appends

A call of `dumps` appends strings and separators one after the other, and the elements of the
output get wider on the way. `Holds` says what is in the memory at any moment: the parts that were
finished, each with its own width, and the one that is written. Every append keeps it.
-/

namespace SsrJson.Output

open Decode StoreWriter

/-! ## Separators -/

section Separators

variable (isa : Isa) (indent : Nat) (realloc : Nat → Bool)

/-- The indent of `unicode_indent_writer`. -/
def writeValueIndent (curNestedDepth : Nat) (isInObj : Bool) (w : StoreWriter) : StoreWriter :=
  if isInObj = false ∧ indent ≠ 0 then writeUnicodeIndent indent curNestedDepth w else w

/-- The size `unicode_indent_writer` reserves. -/
def valueReserveCount (curNestedDepth : Nat) (isInObj : Bool) (additional : Nat) : Nat :=
  if isInObj = false ∧ indent ≠ 0 then getIndentCharCount indent curNestedDepth + additional
  else additional

/-- `unicode_indent_writer`, and then one of the writers of `_sw_writers.inl.h`. -/
def uBufApdValue (curNestedDepth : Nat) (isInObj : Bool) (additional : Nat)
    (write : StoreWriter → StoreWriter) (u : UBuf) : Except UBuf UBuf := do
  let u ← uBufReserve realloc (valueReserveCount indent curNestedDepth isInObj additional) u
  return { u with writer := write (writeValueIndent indent curNestedDepth isInObj u.writer) }

/-- `write_unicode_null`: three zeros fill up the store, or one where four elements of four bytes
are a register. -/
def writeUnicodeNull (w : StoreWriter) : StoreWriter :=
  let w := w.pushAll [0x6E, 0x75, 0x6C, 0x6C, 0x2C]
  w.put 0 (if w.width < 4 ∨ isa ≠ .sse then 3 else 1) fun _ => 0

/-- `_WriteBoolCopyCnt`. -/
def writeBoolCopyCnt (width : Nat) : Nat := if isa = .sse ∧ width = 4 then 6 else 8

/-- `write_unicode_bool`. -/
def writeUnicodeBool (isFalse : Bool) (w : StoreWriter) : StoreWriter :=
  let row :=
    if isFalse then [0x66, 0x61, 0x6C, 0x73, 0x65, 0x2C, 0, 0]
    else [0x74, 0x72, 0x75, 0x65, 0x2C, 0, 0, 0]
  w.putRow (row.take (writeBoolCopyCnt isa w.width)) (if isFalse then 6 else 5)

/-- `write_unicode_empty_arr` and `write_unicode_empty_obj`. -/
def writeUnicodeEmpty (opening closing : Nat) (w : StoreWriter) : StoreWriter :=
  let w := w.pushAll [opening, closing, 0x2C]
  if w.width ≠ 4 then w.put 0 1 fun _ => 0 else w

/-- `u_buf_apd_null`. -/
def uBufApdNull (curNestedDepth : Nat) (isInObj : Bool) : UBuf → Except UBuf UBuf :=
  uBufApdValue indent realloc curNestedDepth isInObj 8 (writeUnicodeNull isa)

/-- `u_buf_apd_bool`. -/
def uBufApdBool (curNestedDepth : Nat) (isInObj isFalse : Bool) (u : UBuf) : Except UBuf UBuf :=
  uBufApdValue indent realloc curNestedDepth isInObj (writeBoolCopyCnt isa u.writer.width)
    (writeUnicodeBool isa isFalse) u

/-- `u_buf_apd_empty_arr`. -/
def uBufApdEmptyArr (curNestedDepth : Nat) (isInObj : Bool) : UBuf → Except UBuf UBuf :=
  uBufApdValue indent realloc curNestedDepth isInObj 4 (writeUnicodeEmpty 0x5B 0x5D)

/-- `u_buf_apd_empty_obj`. -/
def uBufApdEmptyObj (curNestedDepth : Nat) (isInObj : Bool) : UBuf → Except UBuf UBuf :=
  uBufApdValue indent realloc curNestedDepth isInObj 4 (writeUnicodeEmpty 0x7B 0x7D)

/-- `u_buf_apd_arr_begin`. -/
def uBufApdArrBegin (curNestedDepth : Nat) (isInObj : Bool) : UBuf → Except UBuf UBuf :=
  uBufApdValue indent realloc curNestedDepth isInObj 1 fun w => w.push 0x5B

/-- `u_buf_apd_obj_begin`. -/
def uBufApdObjBegin (curNestedDepth : Nat) (isInObj : Bool) : UBuf → Except UBuf UBuf :=
  uBufApdValue indent realloc curNestedDepth isInObj 1 fun w => w.push 0x7B

/-- Remove the last comma: `writer--`. -/
def stepBack (u : UBuf) : UBuf := { u with writer := { u.writer with index := u.writer.index - 1 } }

/-- `u_buf_apd_arr_end`. -/
def uBufApdArrEnd (curNestedDepth : Nat) (u : UBuf) : Except UBuf UBuf :=
  uBufApdValue indent realloc curNestedDepth false 2 (fun w => w.pushAll [0x5D, 0x2C]) (stepBack u)

/-- `u_buf_apd_obj_end`. -/
def uBufApdObjEnd (curNestedDepth : Nat) (u : UBuf) : Except UBuf UBuf :=
  uBufApdValue indent realloc curNestedDepth false 2 (fun w => w.pushAll [0x7D, 0x2C]) (stepBack u)

end Separators

/-! ## Runs -/

/-- A `str` object that is appended: its kind, its data, and whether that follows the header. -/
structure StrArg where
  kind : StrKind
  src : Source
  isCompact : Bool
  fits : src.Fits kind

/-- What is appended. -/
inductive Append where
  | str (slot : StrSlot) (arg : StrArg)
  | null (isInObj : Bool)
  | bool (isInObj falsy : Bool)
  | emptyArr (isInObj : Bool)
  | emptyObj (isInObj : Bool)
  | arrBegin (isInObj : Bool)
  | objBegin (isInObj : Bool)
  | arrEnd
  | objEnd

/-- The end of a container takes the place of a comma. -/
def Append.isEnd : Append → Bool
  | .arrEnd => true
  | .objEnd => true
  | _ => false

section Runs

variable (isa : Isa) (header : StrHeader) (indent : Nat) (realloc : Nat → Bool)

/-- One append at a depth. -/
def append (curNestedDepth : Nat) (op : Append) (u : UBuf) : Except UBuf UBuf :=
  match op with
  | .str slot arg => uBufApdWrapped isa header indent realloc slot arg.kind arg.src arg.isCompact
      curNestedDepth u
  | .null isInObj => uBufApdNull isa indent realloc curNestedDepth isInObj u
  | .bool isInObj falsy => uBufApdBool isa indent realloc curNestedDepth isInObj falsy u
  | .emptyArr isInObj => uBufApdEmptyArr indent realloc curNestedDepth isInObj u
  | .emptyObj isInObj => uBufApdEmptyObj indent realloc curNestedDepth isInObj u
  | .arrBegin isInObj => uBufApdArrBegin indent realloc curNestedDepth isInObj u
  | .objBegin isInObj => uBufApdObjBegin indent realloc curNestedDepth isInObj u
  | .arrEnd => uBufApdArrEnd indent realloc curNestedDepth u
  | .objEnd => uBufApdObjEnd indent realloc curNestedDepth u

/-- Several appends, each at its depth. -/
def appendAll : List (Nat × Append) → UBuf → Except UBuf UBuf
  | [], u => .ok u
  | (curNestedDepth, op) :: ops, u => do
    let u ← append isa header indent realloc curNestedDepth op u
    appendAll ops u

/-- `init_u_buf`: `SSRJSON_ENCODE_DST_BUFFER_INIT_SIZE` bytes. -/
def initUBuf : UBuf where
  writer := ⟨1, header.ascii, []⟩
  info := ⟨1024, 10, by decide, rfl⟩
  unicodeInfo := ⟨0, 0, 0, .ascii⟩

end Runs

/-! ## What is appended -/

section Text

variable (indent : Nat)

/-- The indent of a value. -/
def valueIndent (curNestedDepth : Nat) (isInObj : Bool) : List Nat :=
  if isInObj then [] else indentText indent curNestedDepth

/-- The characters that are appended. -/
def appendText (curNestedDepth : Nat) : Append → List Nat
  | .str .key arg => keyText indent curNestedDepth arg.src.units
  | .str .item arg => strText indent curNestedDepth false arg.src.units
  | .str .value arg => strText indent curNestedDepth true arg.src.units
  | .null isInObj => valueIndent indent curNestedDepth isInObj ++ [0x6E, 0x75, 0x6C, 0x6C, 0x2C]
  | .bool isInObj true => valueIndent indent curNestedDepth isInObj ++
      [0x66, 0x61, 0x6C, 0x73, 0x65, 0x2C]
  | .bool isInObj false => valueIndent indent curNestedDepth isInObj ++
      [0x74, 0x72, 0x75, 0x65, 0x2C]
  | .emptyArr isInObj => valueIndent indent curNestedDepth isInObj ++ [0x5B, 0x5D, 0x2C]
  | .emptyObj isInObj => valueIndent indent curNestedDepth isInObj ++ [0x7B, 0x7D, 0x2C]
  | .arrBegin isInObj => valueIndent indent curNestedDepth isInObj ++ [0x5B]
  | .objBegin isInObj => valueIndent indent curNestedDepth isInObj ++ [0x7B]
  | .arrEnd => indentText indent curNestedDepth ++ [0x5D, 0x2C]
  | .objEnd => indentText indent curNestedDepth ++ [0x7D, 0x2C]

/-- The text behind an append. -/
def appended (text : List Nat) (op : Nat × Append) : List Nat :=
  (if op.2.isEnd then text.dropLast else text) ++ appendText indent op.1 op.2

/-- The concatenation of everything that was appended, in order. -/
def concatenation (ops : List (Nat × Append)) : List Nat := ops.foldl (appended indent) []

end Text

/-- The wider one of two kinds. -/
def widerKind (kind kind' : StrKind) : StrKind := if kind.code ≤ kind'.code then kind' else kind

/-- The kind of what is appended. -/
def Append.kind : Append → StrKind
  | .str _ arg => arg.kind
  | _ => .ascii

/-- The widest kind of everything that was appended. -/
def widestKind (ops : List (Nat × Append)) : StrKind :=
  ops.foldl (fun kind op => widerKind kind op.2.kind) .ascii

/-! ## Every append keeps to what it reserves -/

section Reserved

variable {isa : Isa} {header : StrHeader} {indent : Nat} {realloc : Nat → Bool}

/-- A separator that writes a text inside of what is reserved for it. -/
theorem uBufApdValue_appended {u : UBuf} (hwidth : 0 < u.writer.width) (curNestedDepth : Nat)
    (isInObj : Bool) {additional : Nat} {write : StoreWriter → StoreWriter} {text : List Nat}
    (h : ∀ w : StoreWriter, w.width = u.writer.width → Writes w (write w) text additional) :
    Appended u (valueIndent indent curNestedDepth isInObj ++ text)
      (uBufApdValue indent realloc curNestedDepth isInObj additional write u) := by
  have hindent := @writeUnicodeIndent_writes indent _ hwidth curNestedDepth
  have hlength := @length_indentText indent curNestedDepth
  refine @appended_reserve _ _ (valueReserveCount indent curNestedDepth isInObj additional) _
    (fun w => write (writeValueIndent indent curNestedDepth isInObj w)) _ ?_ (Nat.le_refl _)
  unfold writeValueIndent valueIndent valueReserveCount
  cases isInObj with
  | true =>
      simp only [Bool.true_eq_false, false_and, if_false, if_true, List.nil_append]
      exact h u.writer rfl
  | false =>
      by_cases hpos : indent ≠ 0
      · simp only [true_and, if_pos hpos, Bool.false_eq_true, if_false]
        refine (hindent.append (h _ hindent.width)).mono ?_
        rw [hlength]
        omega
      · have hnone : indentText indent curNestedDepth = [] := if_neg (by omega)
        simp only [true_and, if_neg hpos, Bool.false_eq_true, if_false, hnone, List.nil_append]
        exact h u.writer rfl

/-- Lanes that are stored behind the writer and not kept. -/
theorem writes_put (w : StoreWriter) (count : Nat) (lanes : Nat → Nat) :
    Writes w (w.put 0 count lanes) [] count :=
  Writes.put_move w (Nat.zero_le count) fun i hi => absurd hi (Nat.not_lt_zero i)

/-- Characters of ASCII are elements of every width. -/
theorem writes_ascii {w : StoreWriter} (hwidth : 0 < w.width) {text : List Nat}
    (htext : ∀ c ∈ text, c < 256) : Writes w (w.pushAll text) text text.length :=
  Writes.pushAll w text fun c hc => lt_pow_width hwidth (htext c hc)

theorem writeUnicodeNull_writes {w : StoreWriter} (hwidth : 0 < w.width) :
    Writes w (writeUnicodeNull isa w) [0x6E, 0x75, 0x6C, 0x6C, 0x2C] 8 := by
  have hall := (@writes_ascii _ hwidth [0x6E, 0x75, 0x6C, 0x6C, 0x2C] (by decide)).append
    (writes_put (w.pushAll [0x6E, 0x75, 0x6C, 0x6C, 0x2C])
      (if w.width < 4 ∨ isa ≠ .sse then 3 else 1) fun _ => 0)
  rw [List.append_nil] at hall
  refine hall.mono ?_
  simp only [List.length_cons, List.length_nil]
  split <;> omega

theorem writeUnicodeBool_writes {w : StoreWriter} (hwidth : 0 < w.width) (falsy : Bool) :
    Writes w (writeUnicodeBool isa falsy w)
      (if falsy then [0x66, 0x61, 0x6C, 0x73, 0x65, 0x2C] else [0x74, 0x72, 0x75, 0x65, 0x2C])
      (writeBoolCopyCnt isa w.width) := by
  have hcount : writeBoolCopyCnt isa w.width = 6 ∨ writeBoolCopyCnt isa w.width = 8 := by
    unfold writeBoolCopyCnt
    split
    · exact .inl rfl
    · exact .inr rfl
  have hrow := fun (row : List Nat) (n : Nat) (hle : n ≤ row.length) (hall : ∀ c ∈ row, c < 256) =>
    Writes.putRow w hle fun c hc => lt_pow_width hwidth (hall c hc)
  unfold writeUnicodeBool
  rcases hcount with hcount | hcount <;> rw [hcount] <;> cases falsy
  · exact hrow [0x74, 0x72, 0x75, 0x65, 0x2C, 0] 5 (by decide) (by decide)
  · exact hrow [0x66, 0x61, 0x6C, 0x73, 0x65, 0x2C] 6 (by decide) (by decide)
  · exact hrow [0x74, 0x72, 0x75, 0x65, 0x2C, 0, 0, 0] 5 (by decide) (by decide)
  · exact hrow [0x66, 0x61, 0x6C, 0x73, 0x65, 0x2C, 0, 0] 6 (by decide) (by decide)

theorem writeUnicodeEmpty_writes {w : StoreWriter} (hwidth : 0 < w.width) {opening closing : Nat}
    (hopening : opening < 256) (hclosing : closing < 256) :
    Writes w (writeUnicodeEmpty opening closing w) [opening, closing, 0x2C] 4 := by
  have htext := @writes_ascii _ hwidth [opening, closing, 0x2C] fun c hc => by
    simp only [List.mem_cons, List.not_mem_nil, or_false] at hc
    omega
  unfold writeUnicodeEmpty
  dsimp only
  split
  · have hall := htext.append (writes_put (w.pushAll [opening, closing, 0x2C]) 1 fun _ => 0)
    rw [List.append_nil] at hall
    exact hall.mono (by simp)
  · exact htext.mono (by simp)

/-- What an append finds: the end of a container steps back first, and a string goes on to wider
elements if it has to. -/
def entered (header : StrHeader) (op : Append) (u : UBuf) : UBuf :=
  match op with
  | .str _ arg => prepareUnicodeWrite header arg.kind u
  | .arrEnd => stepBack u
  | .objEnd => stepBack u
  | _ => u

/-- Going on to wider elements changes neither the memory nor what was stored. -/
theorem prepareUnicodeWrite_frame (header : StrHeader) (kind : StrKind) (u : UBuf) :
    (prepareUnicodeWrite header kind u).info = u.info ∧
      (prepareUnicodeWrite header kind u).writer.log = u.writer.log := by
  unfold prepareUnicodeWrite
  split <;> exact ⟨rfl, rfl⟩

/-- The elements are as wide as the wider kind. -/
theorem prepareUnicodeWrite_kind (header : StrHeader) (kind : StrKind) {u : UBuf}
    (hwidth : u.writer.width = u.unicodeInfo.curUcsType.size) :
    (prepareUnicodeWrite header kind u).unicodeInfo.curUcsType =
        widerKind u.unicodeInfo.curUcsType kind ∧
      (prepareUnicodeWrite header kind u).writer.width =
        (widerKind u.unicodeInfo.curUcsType kind).size := by
  unfold prepareUnicodeWrite
  cases hcur : u.unicodeInfo.curUcsType <;> cases kind <;>
    first
    | exact ⟨hcur, hwidth.trans (congrArg StrKind.size hcur)⟩
    | exact ⟨rfl, rfl⟩

theorem widerKind_size_le (kind kind' : StrKind) : kind'.size ≤ (widerKind kind kind').size := by
  cases kind <;> cases kind' <;> decide

theorem entered_frame (header : StrHeader) (op : Append) (u : UBuf) :
    (entered header op u).info = u.info ∧ (entered header op u).writer.log = u.writer.log := by
  unfold entered
  split
  · exact prepareUnicodeWrite_frame header _ u
  · exact ⟨rfl, rfl⟩
  · exact ⟨rfl, rfl⟩
  · exact ⟨rfl, rfl⟩

/-- Every append writes its text behind what it finds, inside of what it reserves. -/
theorem append_appended (curNestedDepth : Nat) (op : Append) {u : UBuf}
    (hwidth : u.writer.width = u.unicodeInfo.curUcsType.size) :
    Appended (entered header op u) (appendText indent curNestedDepth op)
      (append isa header indent realloc curNestedDepth op u) := by
  have hpos : 0 < u.writer.width := hwidth ▸ StrKind.size_pos _
  cases op with
  | str slot arg =>
      obtain ⟨-, hprepared⟩ := prepareUnicodeWrite_kind header arg.kind hwidth
      have hsize := hprepared ▸ widerKind_size_le u.unicodeInfo.curUcsType arg.kind
      have hpos' : 0 < (prepareUnicodeWrite header arg.kind u).writer.width :=
        hprepared ▸ StrKind.size_pos _
      cases slot with
      | key =>
          exact appended_reserve (writeKey_writes hpos' arg.fits hsize arg.isCompact curNestedDepth)
            (Nat.le_refl _)
      | item =>
          exact appended_reserve
            (writeStr_writes hpos' arg.fits hsize arg.isCompact curNestedDepth false) (Nat.le_refl _)
      | value =>
          exact appended_reserve
            (writeStr_writes hpos' arg.fits hsize arg.isCompact curNestedDepth true) (Nat.le_refl _)
  | null isInObj =>
      exact uBufApdValue_appended hpos curNestedDepth isInObj fun w hw =>
        writeUnicodeNull_writes (hw ▸ hpos)
  | bool isInObj falsy =>
      have hbool := @uBufApdValue_appended indent realloc _ hpos curNestedDepth isInObj
        (writeBoolCopyCnt isa u.writer.width) _ _ fun w hw =>
          hw ▸ @writeUnicodeBool_writes isa w (hw ▸ hpos) falsy
      cases falsy with
      | true => exact hbool
      | false => exact hbool
  | emptyArr isInObj =>
      exact uBufApdValue_appended hpos curNestedDepth isInObj fun w hw =>
        writeUnicodeEmpty_writes (hw ▸ hpos) (by decide) (by decide)
  | emptyObj isInObj =>
      exact uBufApdValue_appended hpos curNestedDepth isInObj fun w hw =>
        writeUnicodeEmpty_writes (hw ▸ hpos) (by decide) (by decide)
  | arrBegin isInObj =>
      exact uBufApdValue_appended hpos curNestedDepth isInObj fun w hw =>
        @writes_ascii _ (hw ▸ hpos) [0x5B] (by decide)
  | objBegin isInObj =>
      exact uBufApdValue_appended hpos curNestedDepth isInObj fun w hw =>
        @writes_ascii _ (hw ▸ hpos) [0x7B] (by decide)
  | arrEnd =>
      exact uBufApdValue_appended (u := stepBack u) hpos curNestedDepth false fun w hw =>
        @writes_ascii _ (hw ▸ hpos) [0x5D, 0x2C] (by decide)
  | objEnd =>
      exact uBufApdValue_appended (u := stepBack u) hpos curNestedDepth false fun w hw =>
        @writes_ascii _ (hw ▸ hpos) [0x7D, 0x2C] (by decide)

/-- The elements stay as wide as the kind that is written. -/
theorem append_width (curNestedDepth : Nat) (op : Append) {u u' : UBuf}
    (hwidth : u.writer.width = u.unicodeInfo.curUcsType.size)
    (h : append isa header indent realloc curNestedDepth op u = .ok u') :
    u'.writer.width = u'.unicodeInfo.curUcsType.size ∧
      u'.unicodeInfo.curUcsType = widerKind u.unicodeInfo.curUcsType op.kind := by
  have happended := @append_appended isa header indent realloc curNestedDepth op _ hwidth
  rw [h] at happended
  obtain ⟨hinfo, -, size, hwrites, -⟩ := happended
  rw [hinfo, hwrites.width]
  have hself : widerKind u.unicodeInfo.curUcsType .ascii = u.unicodeInfo.curUcsType := by
    cases u.unicodeInfo.curUcsType <;> rfl
  cases op with
  | str slot arg =>
      obtain ⟨hkind, hprepared⟩ := prepareUnicodeWrite_kind header arg.kind hwidth
      exact ⟨hprepared.trans (congrArg StrKind.size hkind.symm), hkind⟩
  | null | bool | emptyArr | emptyObj | arrBegin | objBegin | arrEnd | objEnd =>
      exact ⟨hwidth, hself.symm⟩

/-- What holds of every buffer that appends reach. -/
theorem appendAll_width (ops : List (Nat × Append)) {u u' : UBuf}
    (hwidth : u.writer.width = u.unicodeInfo.curUcsType.size)
    (h : appendAll isa header indent realloc ops u = .ok u') :
    u'.writer.width = u'.unicodeInfo.curUcsType.size ∧
      u'.unicodeInfo.curUcsType =
        ops.foldl (fun kind op => widerKind kind op.2.kind) u.unicodeInfo.curUcsType := by
  induction ops generalizing u with
  | nil =>
      obtain rfl : u = u' := by injection h
      exact ⟨hwidth, rfl⟩
  | cons op ops ih =>
      rw [appendAll] at h
      cases hone : append isa header indent realloc op.1 op.2 u with
      | error => rw [hone] at h; cases h
      | ok u₁ =>
          rw [hone] at h
          obtain ⟨hwidth', hkind⟩ := append_width op.1 op.2 hwidth hone
          have hrest := ih hwidth' h
          rw [hkind] at hrest
          exact hrest

end Reserved

/-! ## Stores and the memory -/

/-- `usize` has room for the sizes that are computed: `len` is below `2 ^ 48`, the nesting is
limited and addresses have 57 bits at most. -/
theorem reserve_target_lt (isa : Isa) (kind : StrKind) {width index indent len curNestedDepth : Nat}
    (hwidth : width ≤ 4) (hindex : width * index ≤ 2 ^ 57) (hindent : indent ≤ 4)
    (hlen : len < 2 ^ 48) (hdepth : curNestedDepth ≤ 1024) (isInObj : Bool) :
    width * (index + keyReserveCount isa indent kind len curNestedDepth) < 2 ^ 64 ∧
      width * (index + strReserveCount isa indent kind len curNestedDepth isInObj) < 2 ^ 64 := by
  have hexcess : excessCountInEncoding isa kind ≤ 58 := by
    cases isa <;> cases kind <;> decide
  have hspaces : indent * curNestedDepth ≤ 4 * 1024 := Nat.mul_le_mul hindent hdepth
  have hchars : getIndentCharCount indent curNestedDepth ≤ 4 * 1024 + 1 := by
    unfold getIndentCharCount
    split <;> omega
  have hsum : ∀ size, size ≤ 2 ^ 51 → width * (index + size) < 2 ^ 64 := by
    intro size hsize
    have hpart : width * size ≤ 4 * 2 ^ 51 := Nat.mul_le_mul hwidth hsize
    rw [Nat.mul_add]
    omega
  refine ⟨hsum _ ?_, hsum _ ?_⟩
  · unfold keyReserveCount
    dsimp only
    split <;> omega
  · unfold strReserveCount
    dsimp only
    split <;> omega

/-- Whatever was appended before, every store of an append stays inside of the memory it reserved
in front of it, or it fails with the memory that was there. The search for a larger size ends with
one that is enough, or gives up where none is. -/
theorem append_stores_within (isa : Isa) (header : StrHeader) (indent : Nat) (realloc : Nat → Bool)
    (ops : List (Nat × Append)) (u : UBuf)
    (hrun : appendAll isa header indent realloc ops (initUBuf header) = .ok u)
    (curNestedDepth : Nat) (op : Append) :
    (match append isa header indent realloc curNestedDepth op u with
      | .ok u' => u.info.u8len ≤ u'.info.u8len ∧
          ∃ log, u'.writer.log = u.writer.log ++ log ∧ Store.AllWithin u'.info.u8len log
      | .error u' => u'.info = u.info ∧ u'.writer.log = u.writer.log) ∧
      ∀ target, match u.info.grow target with
        | some info => target ≤ info.u8len ∧ u.info.u8len ≤ info.u8len
        | none => reserveMax < target := by
  refine ⟨?_, fun target => EncodeUBufInfo.grow_spec target u.info⟩
  obtain ⟨hwidth, -⟩ := appendAll_width ops rfl hrun
  obtain ⟨hinfo, hlog⟩ := entered_frame header op u
  have happended := @append_appended isa header indent realloc curNestedDepth op _ hwidth
  cases hresult : append isa header indent realloc curNestedDepth op u with
  | error u' =>
      rw [hresult] at happended
      exact ⟨happended.1.trans hinfo, happended.2.trans hlog⟩
  | ok u' =>
      rw [hresult] at happended
      obtain ⟨-, hlarger, size, hwrites, hroom⟩ := happended
      obtain ⟨log, hwritten, hwithin⟩ := hwrites.within hroom
      exact ⟨hinfo ▸ hlarger, log, hlog ▸ hwritten, hwithin⟩

/-- The headers of CPython from 3.12 on. -/
def headerOf312 : StrHeader := ⟨40, 56, by decide, by decide⟩

/-- A `str` of four bytes a character. -/
def wideArg : StrArg where
  kind := .ucs4
  src := .ofUnits [0x1F600, 0x22]
  isCompact := true
  fits := by
    show ∀ u ∈ [0x1F600, 0x22], u ≤ 0x10FFFF
    decide

/-- A wide key in the first block of memory, where no other is to be had. -/
theorem append_stores_within_key :
    ∃ u', append .avx512 headerOf312 2 (fun _ => false) 1 (.str .key wideArg)
        (initUBuf headerOf312) = .ok u' ∧
      ∃ log, u'.writer.log = [] ++ log ∧ Store.AllWithin u'.info.u8len log :=
  ⟨_, rfl, (append_stores_within .avx512 headerOf312 2 (fun _ => false) [] _ rfl 1
    (.str .key wideArg)).1.2⟩

end SsrJson.Output
