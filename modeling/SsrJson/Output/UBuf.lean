import SsrJson.Output.EscapeCopy

/-!
# The output buffer of `dumps`

The output is built in the memory of the `str` object it becomes: behind the header of an ASCII
object as long as everything is ASCII, and behind the longer header of the other kinds from the
first character on that is not. The elements get wider when a wider string comes; what is already
there stays as it is, and only its extent is noted. Every append makes sure of the memory it may
store to before it stores anything.
-/

namespace SsrJson.Output

open Decode

/-! ## The buffer -/

/-- The sizes of the two headers: `PyASCIIObject` and `PyCompactUnicodeObject`, which begins with
the former. The data of the wider kinds is aligned. -/
structure StrHeader where
  ascii : Nat
  compact : Nat
  le : ascii ≤ compact
  aligned : 4 ∣ compact

/-- Where the characters of a `str` object begin: `GET_VEC_ASCII_START`, `GET_VEC_COMPACT_START`. -/
def StrHeader.start (header : StrHeader) (kind : StrKind) : Nat :=
  if kind = .ascii then header.ascii else header.compact

/-- `EncodeUnicodeInfo`: the extents of the parts that were finished, and the kind written now. -/
structure EncodeUnicodeInfo where
  asciiSize : Nat
  u8Size : Nat
  u16Size : Nat
  curUcsType : StrKind
  deriving DecidableEq, Repr

/-- The bit of `RESERVE_MAX`. -/
def reserveMax : Nat := 2 ^ 62

/-- `EncodeUBufInfo`: the size of the memory, which is a power of two, as `_u_buf_reserve` asserts. -/
structure EncodeUBufInfo where
  u8len : Nat
  pow : ∃ k ≤ 62, u8len = 2 ^ k

/-- The output: the writer, whose index counts elements from the object on, the memory and the
parts. -/
structure UBuf where
  writer : StoreWriter
  info : EncodeUBufInfo
  unicodeInfo : EncodeUnicodeInfo

/-! ## Growth -/

namespace EncodeUBufInfo

variable (info : EncodeUBufInfo)

theorem u8len_pos : 0 < info.u8len := by
  obtain ⟨k, -, hk⟩ := info.pow
  rw [hk]
  exact Nat.two_pow_pos k

theorem u8len_le : info.u8len ≤ reserveMax := by
  obtain ⟨k, hle, hk⟩ := info.pow
  rw [hk]
  exact Nat.pow_le_pow_right (by decide) hle

/-- The bit is set in the largest size only. -/
theorem and_reserveMax : info.u8len &&& reserveMax = 0 ↔ info.u8len ≠ reserveMax := by
  obtain ⟨k, hle, hk⟩ := info.pow
  rw [hk, reserveMax, Nat.and_two_pow, Nat.testBit_two_pow]
  by_cases heq : k = 62
  · subst heq
    decide
  · have hne : (2 : Nat) ^ k ≠ 2 ^ 62 := fun h => heq (Nat.pow_right_injective (Nat.le_refl 2) h)
    rw [decide_eq_false heq]
    exact iff_of_true (Nat.zero_mul _) hne

/-- `u8len << 1`. -/
def double (h : info.u8len &&& reserveMax = 0) : EncodeUBufInfo where
  u8len := info.u8len <<< 1
  pow := by
    obtain ⟨k, hle, hk⟩ := info.pow
    have hne := info.and_reserveMax.mp h
    refine ⟨k + 1, ?_, ?_⟩
    · rcases Nat.lt_or_eq_of_le hle with hlt | rfl
      · exact hlt
      · exact absurd hk hne
    · rw [hk, Nat.shiftLeft_eq, Nat.pow_one, Nat.pow_succ]

theorem double_u8len (h : info.u8len &&& reserveMax = 0) :
    (info.double h).u8len = 2 * info.u8len := by
  show info.u8len <<< 1 = 2 * info.u8len
  rw [Nat.shiftLeft_eq, Nat.pow_one, Nat.mul_comm]

/-- The loop of `_u_buf_reserve`: double the size until it is enough, or give up. -/
def grow (target : Nat) (info : EncodeUBufInfo) : Option EncodeUBufInfo :=
  if info.u8len < target then
    if h : info.u8len &&& reserveMax = 0 then grow target (info.double h) else none
  else some info
termination_by reserveMax - info.u8len
decreasing_by
  have hlt := Nat.lt_of_le_of_ne info.u8len_le (info.and_reserveMax.mp h)
  have hpos := info.u8len_pos
  rw [double_u8len]
  omega

/-- The loop ends with a size that is enough, or gives up on more than any size. -/
theorem grow_spec (target : Nat) (info : EncodeUBufInfo) :
    match grow target info with
    | some info' => target ≤ info'.u8len ∧ info.u8len ≤ info'.u8len
    | none => reserveMax < target := by
  fun_induction grow target info with
  | case1 info hlt h ih =>
      have hdouble := info.double_u8len h
      cases hgrow : grow target (info.double h) with
      | none =>
          rw [hgrow] at ih
          exact ih
      | some info' =>
          rw [hgrow] at ih
          exact ⟨ih.1, by have := ih.2; omega⟩
  | case2 info hlt h =>
      have hmax := mt info.and_reserveMax.mpr h
      rwa [not_not.mp hmax] at hlt
  | case3 info hle => exact ⟨Nat.not_lt.mp hle, Nat.le_refl _⟩

end EncodeUBufInfo

/-! ## Writers -/

section Writers

variable (isa : Isa) (header : StrHeader) (indent : Nat) (realloc : Nat → Bool)

/-- `u_buf_reserve` and `_u_buf_reserve`: make sure of some elements behind the writer. It fails
with the buffer that was there; `realloc` tells which sizes `PyObject_Realloc` finds memory for. -/
def uBufReserve (size : Nat) (u : UBuf) : Except UBuf UBuf :=
  let target := u.writer.width * (u.writer.index + size)
  if u.info.u8len < target then
    match u.info.grow target with
    | none => .error u
    | some info => if realloc info.u8len then .ok { u with info := info } else .error u
  else .ok u

/-- `get_indent_char_count`. -/
def getIndentCharCount (curNestedDepth : Nat) : Nat :=
  if indent ≠ 0 then indent * curNestedDepth + 1 else 0

/-- `write_unicode_indent`. -/
def writeUnicodeIndent (curNestedDepth : Nat) (w : StoreWriter) : StoreWriter :=
  if 0 < indent then
    (w.push 0x0A).pushAll (List.replicate (indent * curNestedDepth) 0x20)
  else w

/-- The quoted text of `u_buf_apd_key_impl` and `u_buf_apd_str_impl`: the scalar encoder takes
short strings whose data does not follow their header, unless masked loads are at hand. -/
def uBufApdQuoted (kind : StrKind) (src : Source) (isCompact : Bool) (w : StoreWriter) :
    StoreWriter :=
  let w := w.push 0x22
  let w :=
    if isa ≠ .avx512 ∧ isCompact = false ∧ src.len < readBatchCount isa kind then
      encodeScalar w src.units
    else encodeUnicodeImpl isa kind src w
  w.push 0x22

/-- `u_buf_apd_key_impl`. -/
def uBufApdKeyImpl (kind : StrKind) (src : Source) (isCompact : Bool) (w : StoreWriter) :
    StoreWriter :=
  (uBufApdQuoted isa kind src isCompact w).push 0x3A

/-- `u_buf_apd_str_impl`. -/
def uBufApdStrImpl (kind : StrKind) (src : Source) (isCompact : Bool) (w : StoreWriter) :
    StoreWriter :=
  (uBufApdQuoted isa kind src isCompact w).push 0x2C

/-- `excess_count_in_encoding`. -/
def excessCountInEncoding (kind : StrKind) : Nat := max (readBatchCount isa kind) 8 - 6

/-- The size `u_buf_apd_key_rsv_idt` reserves. -/
def keyReserveCount (kind : StrKind) (len curNestedDepth : Nat) : Nat :=
  let excessCountAfter := if 0 < indent then 4 else 2
  getIndentCharCount indent curNestedDepth + 1 + 6 * len +
    max excessCountAfter (excessCountInEncoding isa kind)

/-- What `u_buf_apd_key` writes. The zero behind the blank fills up a store of four elements. -/
def writeKey (kind : StrKind) (src : Source) (isCompact : Bool) (curNestedDepth : Nat)
    (w : StoreWriter) : StoreWriter :=
  let w := uBufApdKeyImpl isa kind src isCompact (writeUnicodeIndent indent curNestedDepth w)
  if 0 < indent then
    let w := w.push 0x20
    if w.width < 4 then w.put 0 1 fun _ => 0 else w
  else w

/-- `u_buf_apd_key`. -/
def uBufApdKey (kind : StrKind) (src : Source) (isCompact : Bool) (curNestedDepth : Nat)
    (u : UBuf) : Except UBuf UBuf := do
  let u ← uBufReserve realloc (keyReserveCount isa indent kind src.len curNestedDepth) u
  return { u with writer := writeKey isa indent kind src isCompact curNestedDepth u.writer }

/-- The size `u_buf_apd_str_rsv_idt` reserves. -/
def strReserveCount (kind : StrKind) (len curNestedDepth : Nat) (isInObj : Bool) : Nat :=
  let excessCountAfter := max 2 (excessCountInEncoding isa kind)
  if isInObj then 1 + 6 * len + excessCountAfter
  else getIndentCharCount indent curNestedDepth + 1 + 6 * len + excessCountAfter

/-- What `u_buf_apd_str` writes. -/
def writeStr (kind : StrKind) (src : Source) (isCompact : Bool) (curNestedDepth : Nat)
    (isInObj : Bool) (w : StoreWriter) : StoreWriter :=
  let w := if isInObj then w else writeUnicodeIndent indent curNestedDepth w
  uBufApdStrImpl isa kind src isCompact w

/-- `u_buf_apd_str`. -/
def uBufApdStr (kind : StrKind) (src : Source) (isCompact : Bool) (curNestedDepth : Nat)
    (isInObj : Bool) (u : UBuf) : Except UBuf UBuf := do
  let u ← uBufReserve realloc (strReserveCount isa indent kind src.len curNestedDepth isInObj) u
  return { u with writer := writeStr isa indent kind src isCompact curNestedDepth isInObj u.writer }

end Writers

/-! ## Wider elements -/

section Memorize

variable (header : StrHeader)

/-- The functions `memorize_ascii_to_*`: note the extent of the ASCII part and go on behind it with
the elements of another kind, which begin behind the longer header. -/
def memorizeAscii (wide : StrKind) (u : UBuf) : UBuf :=
  let len := u.writer.index - header.ascii
  { u with
    writer := { u.writer with width := wide.size, index := header.compact / wide.size + len }
    unicodeInfo := { u.unicodeInfo with asciiSize := len, curUcsType := wide } }

/-- The functions `memorize_ucs1_to_*`. -/
def memorizeUcs1 (wide : StrKind) (u : UBuf) : UBuf :=
  let diff := u.writer.index - header.compact
  { u with
    writer := { u.writer with width := wide.size, index := header.compact / wide.size + diff }
    unicodeInfo := { u.unicodeInfo with
      u8Size := diff - u.unicodeInfo.asciiSize
      curUcsType := wide } }

/-- `memorize_ascii_to_ucs4`. -/
def memorizeAsciiToUcs4 : UBuf → UBuf := memorizeAscii header .ucs4

/-- `memorize_ascii_to_ucs2`. -/
def memorizeAsciiToUcs2 : UBuf → UBuf := memorizeAscii header .ucs2

/-- `memorize_ascii_to_ucs1`. -/
def memorizeAsciiToUcs1 : UBuf → UBuf := memorizeAscii header .ucs1

/-- `memorize_ucs1_to_ucs2`. -/
def memorizeUcs1ToUcs2 : UBuf → UBuf := memorizeUcs1 header .ucs2

/-- `memorize_ucs1_to_ucs4`. -/
def memorizeUcs1ToUcs4 : UBuf → UBuf := memorizeUcs1 header .ucs4

/-- `memorize_ucs2_to_ucs4`. -/
def memorizeUcs2ToUcs4 (u : UBuf) : UBuf :=
  let diff := u.writer.index - header.compact / 2
  { u with
    writer := { u.writer with width := 4, index := header.compact / 4 + diff }
    unicodeInfo := { u.unicodeInfo with
      u16Size := diff - u.unicodeInfo.asciiSize - u.unicodeInfo.u8Size
      curUcsType := .ucs4 } }

/-- `prepare_unicode_write`: go on to wider elements if the string has wider characters. -/
def prepareUnicodeWrite (kind : StrKind) (u : UBuf) : UBuf :=
  match u.unicodeInfo.curUcsType, kind with
  | .ucs4, _ => u
  | .ucs2, .ucs4 => memorizeUcs2ToUcs4 header u
  | .ucs2, _ => u
  | .ucs1, .ucs2 => memorizeUcs1ToUcs2 header u
  | .ucs1, .ucs4 => memorizeUcs1ToUcs4 header u
  | .ucs1, _ => u
  | .ascii, .ascii => u
  | .ascii, .ucs2 => memorizeAsciiToUcs2 header u
  | .ascii, .ucs4 => memorizeAsciiToUcs4 header u
  | .ascii, .ucs1 => memorizeAsciiToUcs1 header u

end Memorize

/-! ## Appending a string -/

section Append

variable (isa : Isa) (header : StrHeader) (indent : Nat) (realloc : Nat → Bool)

/-- What a string is appended as. -/
inductive StrSlot where
  | key
  | item
  | value
  deriving DecidableEq, Repr

/-- `u_buf_apd_key_wrapped`, or `u_buf_apd_str_wrapped` with `is_in_obj` for a value. -/
def uBufApdWrapped (slot : StrSlot) (kind : StrKind) (src : Source) (isCompact : Bool)
    (curNestedDepth : Nat) (u : UBuf) : Except UBuf UBuf :=
  let u := prepareUnicodeWrite header kind u
  match slot with
  | .key => uBufApdKey isa indent realloc kind src isCompact curNestedDepth u
  | .item => uBufApdStr isa indent realloc kind src isCompact curNestedDepth false u
  | .value => uBufApdStr isa indent realloc kind src isCompact curNestedDepth true u

end Append

/-! ## What a reservation is good for -/

section Spec

open StoreWriter

variable {isa : Isa} {header : StrHeader} {indent : Nat} {realloc : Nat → Bool}

/-- What an append did: it wrote a text inside of what it had made sure of, or it failed and left
the memory as it was. -/
def Appended (u : UBuf) (text : List Nat) : Except UBuf UBuf → Prop
  | .ok u' => u'.unicodeInfo = u.unicodeInfo ∧ u.info.u8len ≤ u'.info.u8len ∧
      ∃ size, Writes u.writer u'.writer text size ∧
        u.writer.width * (u.writer.index + size) ≤ u'.info.u8len
  | .error u' => u'.info = u.info ∧ u'.writer.log = u.writer.log

/-- A writer that stays inside of what was reserved for it. -/
theorem appended_reserve {size room : Nat} {u : UBuf} {write : StoreWriter → StoreWriter}
    {text : List Nat} (h : Writes u.writer (write u.writer) text room) (hroom : room ≤ size) :
    Appended u text (do
      let u ← uBufReserve realloc size u
      return { u with writer := write u.writer }) := by
  unfold uBufReserve
  dsimp only
  by_cases hsmall : u.info.u8len < u.writer.width * (u.writer.index + size)
  · rw [if_pos hsmall]
    have hgrow := EncodeUBufInfo.grow_spec (u.writer.width * (u.writer.index + size)) u.info
    cases hresult : u.info.grow (u.writer.width * (u.writer.index + size)) with
    | none => exact ⟨rfl, rfl⟩
    | some info =>
        rw [hresult] at hgrow
        obtain ⟨henough, hlarger⟩ := hgrow
        by_cases halloc : realloc info.u8len = true
        · simp only [if_pos halloc]
          exact ⟨rfl, hlarger, size, h.mono hroom, henough⟩
        · simp only [if_neg halloc]
          exact ⟨rfl, rfl⟩
  · rw [if_neg hsmall]
    exact ⟨rfl, Nat.le_refl _, size, h.mono hroom, Nat.not_lt.mp hsmall⟩

/-- A reservation fails where a size is not granted, or where more than any size is asked for. -/
theorem uBufReserve_error {size : Nat} {u u' : UBuf} (h : uBufReserve realloc size u = .error u') :
    (∃ n, realloc n = false) ∨ reserveMax < u.writer.width * (u.writer.index + size) := by
  unfold uBufReserve at h
  dsimp only at h
  split at h
  · have hgrow := EncodeUBufInfo.grow_spec (u.writer.width * (u.writer.index + size)) u.info
    cases hresult : u.info.grow (u.writer.width * (u.writer.index + size)) with
    | none =>
        rw [hresult] at hgrow
        exact .inr hgrow
    | some info =>
        rw [hresult] at h
        dsimp only at h
        split at h
        · cases h
        · rename_i hrefused
          exact .inl ⟨info.u8len, Bool.eq_false_iff.mpr hrefused⟩
  · cases h

/-- The characters of an indent. -/
def indentText (indent curNestedDepth : Nat) : List Nat :=
  if 0 < indent then 0x0A :: List.replicate (indent * curNestedDepth) 0x20 else []

theorem length_indentText (curNestedDepth : Nat) :
    (indentText indent curNestedDepth).length = getIndentCharCount indent curNestedDepth := by
  unfold indentText getIndentCharCount
  by_cases hindent : 0 < indent
  · rw [if_pos hindent, if_pos (by omega), List.length_cons, List.length_replicate]
  · rw [if_neg hindent, if_neg (by omega)]
    rfl

/-- What a key adds to the output. -/
def keyText (indent curNestedDepth : Nat) (chars : List Nat) : List Nat :=
  indentText indent curNestedDepth ++
    (0x22 :: escapeText chars ++ 0x22 :: if 0 < indent then [0x3A, 0x20] else [0x3A])

/-- What a value or an element adds to the output. -/
def strText (indent curNestedDepth : Nat) (isInObj : Bool) (chars : List Nat) : List Nat :=
  (if isInObj then [] else indentText indent curNestedDepth) ++
    (0x22 :: escapeText chars ++ [0x22, 0x2C])

/-- Characters up to `U+00FF` are elements of every width. -/
theorem lt_pow_width {w : StoreWriter} (hwidth : 0 < w.width) {c : Nat} (hc : c < 256) :
    c < 256 ^ w.width :=
  hc.trans_le (Nat.le_self_pow (by omega) 256)

section Writes

variable {w : StoreWriter} (hwidth : 0 < w.width)

include hwidth

theorem writeUnicodeIndent_writes (curNestedDepth : Nat) :
    Writes w (writeUnicodeIndent indent curNestedDepth w) (indentText indent curNestedDepth)
      (getIndentCharCount indent curNestedDepth) := by
  rw [← length_indentText]
  unfold writeUnicodeIndent indentText
  split
  · have hall := Writes.pushAll w (0x0A :: List.replicate (indent * curNestedDepth) 0x20)
      fun c hc => lt_pow_width hwidth (by
        rcases List.mem_cons.mp hc with rfl | hc
        · decide
        · rw [List.eq_of_mem_replicate hc]
          decide)
    exact hall
  · exact (Writes.refl w).mono (Nat.le_refl _)

variable {kind : StrKind} {src : Source} (hfits : src.Fits kind) (hsize : kind.size ≤ w.width)

include hfits hsize

/-- What stands between the quotes. -/
theorem uBufApdBody_writes (isCompact : Bool) :
    Writes w
      (if isa ≠ .avx512 ∧ isCompact = false ∧ src.len < readBatchCount isa kind then
        encodeScalar w src.units
      else encodeUnicodeImpl isa kind src w) (escapeText src.units)
      (6 * src.len + excessCountInEncoding isa kind) := by
  split
  · have hunits : ∀ c ∈ src.units, c < 256 ^ w.width := by
      intro c hc
      obtain ⟨i, hi, rfl⟩ := List.getElem_of_mem hc
      exact Source.read_of_lt hi ▸ hfits.lt hsize hi
    refine (encodeScalar_writes w hwidth hunits).mono ?_
    show 6 * src.len + 2 ≤ 6 * src.len + (max (readBatchCount isa kind) 8 - 6)
    omega
  · exact encodeUnicodeImpl_writes hfits isa hsize

/-- A quoted text and some characters behind it. -/
theorem uBufApdQuoted_writes (isCompact : Bool) {suffix : List Nat} (hsuffix : ∀ c ∈ suffix, c < 256) :
    Writes w ((uBufApdQuoted isa kind src isCompact w).pushAll suffix)
      (0x22 :: escapeText src.units ++ 0x22 :: suffix)
      (1 + 6 * src.len + max (1 + suffix.length) (excessCountInEncoding isa kind)) := by
  have hlength := length_escapeText_le src.units
  have hquote := Writes.push w (lt_pow_width hwidth (show 0x22 < 256 by decide))
  have hbody := @uBufApdBody_writes isa (w.push 0x22) hwidth _ _ hfits hsize isCompact
  have hend := Writes.pushAll (if isa ≠ .avx512 ∧ isCompact = false ∧
      src.len < readBatchCount isa kind then encodeScalar (w.push 0x22) src.units
    else encodeUnicodeImpl isa kind src (w.push 0x22)) (0x22 :: suffix) fun c hc => by
      rw [hbody.width]
      refine lt_pow_width hwidth ?_
      rcases List.mem_cons.mp hc with rfl | hc
      · decide
      · exact hsuffix c hc
  refine ((hquote.append hbody).append hend).mono ?_
  rw [List.length_append, List.length_singleton, List.length_cons]
  show _ ≤ 1 + 6 * src.len + _
  have hlen : src.units.length = src.len := rfl
  omega

/-- A key and what separates it from its value. -/
theorem writeKey_writes (isCompact : Bool) (curNestedDepth : Nat) :
    Writes w (writeKey isa indent kind src isCompact curNestedDepth w)
      (keyText indent curNestedDepth src.units)
      (keyReserveCount isa indent kind src.len curNestedDepth) := by
  have hindent := @writeUnicodeIndent_writes indent _ hwidth curNestedDepth
  have hexcess : 2 ≤ excessCountInEncoding isa kind := by
    unfold excessCountInEncoding
    omega
  generalize hw' : writeUnicodeIndent indent curNestedDepth w = w' at hindent
  have hquoted := fun suffix => @uBufApdQuoted_writes isa w' (hindent.width ▸ hwidth) kind src hfits
    (hindent.width ▸ hsize) isCompact suffix
  have hlength := @length_indentText indent curNestedDepth
  unfold writeKey keyText keyReserveCount
  simp only [hw']
  by_cases hpos : 0 < indent
  · have hkey := hindent.append (hquoted [0x3A, 0x20] (by decide))
    simp only [if_pos hpos]
    split
    · -- The zero is stored behind the blank and nothing is kept of it.
      have hzero : Writes ((uBufApdKeyImpl isa kind src isCompact w').push 0x20)
          (((uBufApdKeyImpl isa kind src isCompact w').push 0x20).put 0 1 fun _ => 0) [] 1 :=
        Writes.put_move _ (Nat.zero_le 1) fun i hi => absurd hi (Nat.not_lt_zero i)
      have hall := hkey.append hzero
      rw [List.append_nil] at hall
      refine hall.mono ?_
      have hescape := length_escapeText_le src.units
      have hlen : src.units.length = src.len := rfl
      simp only [List.length_append, List.length_cons, List.length_nil, hlength]
      omega
    · refine hkey.mono ?_
      simp only [List.length_cons, List.length_nil, hlength]
      omega
  · have hkey := hindent.append (hquoted [0x3A] (by decide))
    simp only [if_neg hpos]
    refine hkey.mono ?_
    simp only [List.length_cons, List.length_nil, hlength]
    omega

/-- A value or an element and the comma behind it. -/
theorem writeStr_writes (isCompact : Bool) (curNestedDepth : Nat) (isInObj : Bool) :
    Writes w (writeStr isa indent kind src isCompact curNestedDepth isInObj w)
      (strText indent curNestedDepth isInObj src.units)
      (strReserveCount isa indent kind src.len curNestedDepth isInObj) := by
  have hindent := @writeUnicodeIndent_writes indent _ hwidth curNestedDepth
  have hlength := @length_indentText indent curNestedDepth
  unfold writeStr strText strReserveCount
  cases isInObj with
  | true =>
      have hvalue := @uBufApdQuoted_writes isa _ hwidth _ _ hfits hsize isCompact
        [0x2C] (by decide)
      refine hvalue.mono ?_
      simp only [List.length_cons, List.length_nil, if_true]
      omega
  | false =>
      have hitem := hindent.append (@uBufApdQuoted_writes isa _ (hindent.width ▸ hwidth) kind src
        hfits (hindent.width ▸ hsize) isCompact [0x2C] (by decide))
      refine hitem.mono ?_
      simp only [List.length_cons, List.length_nil, hlength, Bool.false_eq_true, if_false]
      omega

end Writes

end Spec

end SsrJson.Output
