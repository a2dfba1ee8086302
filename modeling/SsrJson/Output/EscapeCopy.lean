import SsrJson.Decode.StrScanLemmas
import SsrJson.Library.StoreWriter

/-!
# Copying strings with escapes

`encode_unicode_impl` copies a string into the output and escapes quotes, backslashes and control
characters. It loads and stores whole registers, finds the first character to escape in the mask of
a register, stores a row of eight elements for it and goes on behind it; the last characters, which
fill no register, are read as every instruction set can. The result is that of `encode_scalar`,
which takes the characters one by one: `encodeUnicodeImpl_eq_scalar`.
-/

namespace SsrJson.Output

open Decode StoreWriter

/-! ## Tables -/

/-- `CONTROL_SEQ_ESCAPE_PREFIX`, two digits and `CONTROL_SEQ_ESCAPE_SUFFIX`. -/
def controlSeqEscape (high low : Nat) : List Nat := [0x5C, 0x75, 0x30, 0x30, high, low, 0, 0]

/-- A backslash, a letter and zeros. -/
def controlSeqShort (letter : Nat) : List Nat := [0x5C, letter, 0, 0, 0, 0, 0, 0]

/-- `CONTROL_SEQ_PLAIN`. -/
def controlSeqPlain (c : Nat) : List Nat := [c, 0, 0, 0, 0, 0, 0, 0]

/-- `ControlEscapeTable`: a row of eight elements for each character up to `U+00FF`. -/
def controlEscapeTable : List (List Nat) :=
  [controlSeqEscape 0x30 0x30, controlSeqEscape 0x30 0x31, controlSeqEscape 0x30 0x32,
    controlSeqEscape 0x30 0x33, controlSeqEscape 0x30 0x34, controlSeqEscape 0x30 0x35,
    controlSeqEscape 0x30 0x36, controlSeqEscape 0x30 0x37, controlSeqShort 0x62,
    controlSeqShort 0x74, controlSeqShort 0x6E, controlSeqEscape 0x30 0x62, controlSeqShort 0x66,
    controlSeqShort 0x72, controlSeqEscape 0x30 0x65, controlSeqEscape 0x30 0x66,
    controlSeqEscape 0x31 0x30, controlSeqEscape 0x31 0x31, controlSeqEscape 0x31 0x32,
    controlSeqEscape 0x31 0x33, controlSeqEscape 0x31 0x34, controlSeqEscape 0x31 0x35,
    controlSeqEscape 0x31 0x36, controlSeqEscape 0x31 0x37, controlSeqEscape 0x31 0x38,
    controlSeqEscape 0x31 0x39, controlSeqEscape 0x31 0x61, controlSeqEscape 0x31 0x62,
    controlSeqEscape 0x31 0x63, controlSeqEscape 0x31 0x64, controlSeqEscape 0x31 0x65,
    controlSeqEscape 0x31 0x66] ++
  (List.range' 32 224).map fun c =>
    if c = 0x22 ∨ c = 0x5C then controlSeqShort c else controlSeqPlain c

/-- `_ControlJump`: how much of a row counts. -/
def controlJump : List Nat :=
  [6, 6, 6, 6, 6, 6, 6, 6, 2, 2, 2, 6, 2, 2, 6, 6, 6, 6, 6, 6, 6, 6, 6, 6, 6, 6, 6, 6, 6, 6, 6, 6] ++
  (List.range' 32 224).map fun c => if c = 0x22 ∨ c = 0x5C then 2 else 1

/-- `memcpy(dst, &ControlEscapeTable[unicode * 8], 8 * sizeof(dst_t)); dst += _ControlJump[unicode]`. -/
def putEscape (w : StoreWriter) (unicode : Nat) : StoreWriter :=
  w.putRow (controlEscapeTable.getD unicode []) (controlJump.getD unicode 0)

/-- `encode_scalar`. -/
def encodeScalar (w : StoreWriter) (units : List Nat) : StoreWriter :=
  units.foldl (fun w unicode => if 255 < unicode then w.push unicode else putEscape w unicode) w

/-! ## Registers -/

section Source

variable (isa : Isa) (kind : StrKind) (src : Source)

/-- `encode_unicode_loop`: registers as long as they are full. -/
def encodeUnicodeLoop : (fuel : Nat) → StoreWriter → (cur : Nat) → StoreWriter × Nat
  | 0, w, cur => (w, cur)
  | fuel + 1, w, cur =>
    let batch := readBatchCount isa kind
    if cur + batch ≤ src.len then
      let x := loadVec src cur
      let w := w.put 0 batch x
      match firstLane batch fun i => isEscapeUnit (x i) with
      | none => encodeUnicodeLoop fuel (w.move batch) (cur + batch)
      | some done =>
        encodeUnicodeLoop fuel (putEscape (w.move done) (src.read (cur + done))) (cur + done + 1)
    else (w, cur)

/-- `__avx2_trailing_cvt_same_size`, or one of the conversions `avx2_trailing_cvt_u8_u16`,
`avx2_trailing_cvt_u8_u32` and `avx2_trailing_cvt_u16_u32`: two halves of a register, of which the
second one ends with the source or holds what the first one leaves. -/
def avx2TrailingCvt (w : StoreWriter) (cur : Nat) : StoreWriter :=
  let half := readBatchCount isa kind / 2
  let len := src.len - cur
  let back := fun i => src.readBack (src.len + i) half
  if w.width = kind.size then
    let shift := if len < half then half - len else 0
    let offset := if len < half then 0 else len - half
    let head := Vec.rshift half (fun i => src.readBack (cur + i) shift) shift
    (w.put offset half back).put 0 half head
  else
    let s1 := if src.len < cur + half then Vec.rshift half back (cur + half - src.len)
      else loadVec src cur
    let s2 := if src.len < cur + half then back
      else Vec.rshift half back (cur + 2 * half - src.len)
    (w.put 0 half s1).put half half s2

/-- The store of the last characters. -/
def trailingCvt (w : StoreWriter) (cur : Nat) : StoreWriter :=
  if isa = .avx2 then avx2TrailingCvt isa kind src w cur
  else w.put 0 (readBatchCount isa kind) (trailingVec isa kind src cur)

/-- How many of the last characters are in front of the first one to escape. AVX-512 computes the
mask of a register that begins with them and shifts it behind each escape; the others mask the
register that ends with the source again. -/
def trailingDone (cur : Nat) : Option Nat :=
  let batch := readBatchCount isa kind
  let len := src.len - cur
  match isa with
  | .avx512 => firstLane batch fun i => i < len && isEscapeUnit (src.read (cur + i))
  | .avx2 | .sse | .neon =>
    (firstLane batch fun i => batch ≤ i + len && isEscapeUnit (loadVecBack isa kind src i)).map
      fun done => done + len - batch

/-- `encode_trailing_copy_with_cvt`; `restart` is the recursion. The variant `encode_tail_escaped`
for bytes does the same behind a first look at the mask. -/
def encodeTrailingCopyWithCvt : (fuel : Nat) → StoreWriter → (cur : Nat) → StoreWriter
  | 0, w, _ => w
  | fuel + 1, w, cur =>
    let w := trailingCvt isa kind src w cur
    match trailingDone isa kind src cur with
    | none => w.move (src.len - cur)
    | some done =>
      let w := putEscape (w.move done) (src.read (cur + done))
      if cur + done + 1 < src.len then encodeTrailingCopyWithCvt fuel w (cur + done + 1) else w

/-- `encode_unicode_impl`. -/
def encodeUnicodeImpl (w : StoreWriter) : StoreWriter :=
  let (w, cur) := encodeUnicodeLoop isa kind src src.len w 0
  if cur < src.len then encodeTrailingCopyWithCvt isa kind src src.len w cur else w

end Source

/-! ## Escapes -/

/-- A hexadecimal digit. -/
def hexDigit (d : Nat) : Nat := if d < 10 then 0x30 + d else 0x57 + d

/-- What a JSON string spells a character as: quotes, backslashes and control characters are
escaped, in two characters where there is a letter for them. -/
def escapeChar (c : Nat) : List Nat :=
  if c = 0x22 ∨ c = 0x5C then [0x5C, c]
  else if c = 0x08 then [0x5C, 0x62]
  else if c = 0x09 then [0x5C, 0x74]
  else if c = 0x0A then [0x5C, 0x6E]
  else if c = 0x0C then [0x5C, 0x66]
  else if c = 0x0D then [0x5C, 0x72]
  else if c < 0x20 then [0x5C, 0x75, 0x30, 0x30, hexDigit (c / 16), hexDigit (c % 16)]
  else [c]

/-- A text with its escapes. -/
def escapeText (cs : List Nat) : List Nat := cs.flatMap escapeChar

@[simp] theorem escapeText_nil : escapeText [] = [] := rfl

theorem escapeText_append (cs ds : List Nat) :
    escapeText (cs ++ ds) = escapeText cs ++ escapeText ds :=
  List.flatMap_append

/-- A row of the table is the escape and zeros, and the jump is the length of the escape. -/
theorem controlEscapeTable_row : ∀ c < 256,
    (controlEscapeTable.getD c []).take (controlJump.getD c 0) = escapeChar c ∧
      controlJump.getD c 0 ≤ 6 ∧ (controlEscapeTable.getD c []).length = 8 ∧
      ∀ v ∈ controlEscapeTable.getD c [], v < 256 := by
  decide +kernel

theorem escapeChar_plain {c : Nat} (h : isEscapeUnit c = false) : escapeChar c = [c] := by
  obtain ⟨hquote, hslash, hcontrol⟩ := isEscapeUnit_eq_false.mp h
  unfold escapeChar
  rw [if_neg (by omega), if_neg (by omega), if_neg (by omega), if_neg (by omega), if_neg (by omega),
    if_neg (by omega), if_neg (by omega)]

/-- What is escaped is in the table. -/
theorem lt_of_isEscapeUnit {c : Nat} (h : isEscapeUnit c = true) : c < 256 := by
  simp only [isEscapeUnit, Bool.or_eq_true, beq_iff_eq, decide_eq_true_eq] at h
  omega

theorem length_escapeChar_le (c : Nat) : (escapeChar c).length ≤ 6 := by
  unfold escapeChar
  split_ifs <;> simp

theorem length_escapeText_le (cs : List Nat) : (escapeText cs).length ≤ 6 * cs.length := by
  induction cs with
  | nil => exact Nat.le_refl 0
  | cons c cs ih =>
      have hc := length_escapeChar_le c
      show (escapeChar c ++ escapeText cs).length ≤ _
      rw [List.length_append, List.length_cons]
      omega

/-- A text without escapes. -/
theorem escapeText_plain {cs : List Nat} (h : ∀ c ∈ cs, isEscapeUnit c = false) :
    escapeText cs = cs := by
  induction cs with
  | nil => rfl
  | cons c cs ih =>
      show escapeChar c ++ escapeText cs = c :: cs
      rw [escapeChar_plain (h c List.mem_cons_self),
        ih fun d hd => h d (List.mem_cons_of_mem c hd)]
      rfl

/-! ## What is written -/

/-- A character of the table is escaped as its row says. -/
theorem putEscape_writes (w : StoreWriter) (hwidth : 0 < w.width) {c : Nat} (hc : c < 256) :
    Writes w (putEscape w c) (escapeChar c) 8 := by
  obtain ⟨htake, hjump, hlength, hrow⟩ := controlEscapeTable_row c hc
  have hwide : 256 ≤ 256 ^ w.width := Nat.le_self_pow (by omega) 256
  have h := Writes.putRow w (show controlJump.getD c 0 ≤ (controlEscapeTable.getD c []).length by omega)
    fun v hv => (hrow v hv).trans_le hwide
  rwa [htake, hlength] at h

/-- The scalar encoder writes a text with its escapes, and two elements more at most. -/
theorem encodeScalar_writes (w : StoreWriter) (hwidth : 0 < w.width) {cs : List Nat}
    (hcs : ∀ c ∈ cs, c < 256 ^ w.width) :
    Writes w (encodeScalar w cs) (escapeText cs) (6 * cs.length + 2) := by
  induction cs generalizing w with
  | nil => exact (Writes.refl w).mono (Nat.zero_le _)
  | cons c cs ih =>
      have hlength := length_escapeChar_le c
      have hone : Writes w (if 255 < c then w.push c else putEscape w c) (escapeChar c) 8 := by
        split
        · have hplain : isEscapeUnit c = false := isEscapeUnit_eq_false.mpr (by omega)
          rw [escapeChar_plain hplain]
          exact (Writes.push w (hcs c List.mem_cons_self)).mono (by decide)
        · exact putEscape_writes w hwidth (by omega)
      have hrest := ih _ (by rw [hone.width]; exact hwidth) fun d hd => by
        rw [hone.width]
        exact hcs d (List.mem_cons_of_mem c hd)
      refine (hone.append hrest).mono ?_
      rw [List.length_cons]
      omega

theorem StrKind.size_pos (kind : StrKind) : 0 < kind.size := by
  cases kind <;> decide

section Spec

variable {isa : Isa} {kind : StrKind} {src : Source} {w : StoreWriter} {cur : Nat}

@[simp] theorem length_slice (n : Nat) : (src.slice cur n).length = n := by
  simp [Source.slice]

/-- A run of plain characters has no escapes. -/
theorem escapeText_slice {n : Nat} (hplain : ∀ i < n, isEscapeUnit (src.read (cur + i)) = false) :
    escapeText (src.slice cur n) = src.slice cur n := by
  refine escapeText_plain fun c hc => ?_
  obtain ⟨i, hi, rfl⟩ := Source.mem_slice.mp hc
  exact hplain i hi

/-- Behind a run of plain characters one is escaped. -/
theorem escape_writes {w' : StoreWriter} {n room : Nat} (h : Writes w w' (src.slice cur n) room)
    (hwidth : 0 < w.width) (hplain : ∀ i < n, isEscapeUnit (src.read (cur + i)) = false)
    (hescape : isEscapeUnit (src.read (cur + n)) = true) :
    Writes w (putEscape w' (src.read (cur + n))) (escapeText (src.slice cur (n + 1)))
      (max room (n + 8)) := by
  have hlast := putEscape_writes w' (h.width ▸ hwidth) (lt_of_isEscapeUnit hescape)
  have hboth := h.append hlast
  rw [length_slice] at hboth
  rw [Source.slice_add, escapeText_append, escapeText_slice hplain]
  show Writes w _ (src.slice cur n ++ (escapeChar (src.read (cur + n)) ++ [])) _
  rw [List.append_nil]
  exact hboth

/-- One part of a text behind another. The room is counted from the characters that are left. -/
theorem writes_slice {w' w'' : StoreWriter} {n m room excess : Nat}
    (h : Writes w w' (escapeText (src.slice cur n)) room)
    (h' : Writes w' w'' (escapeText (src.slice (cur + n) m)) (6 * (src.len - (cur + n)) + excess))
    (hle : cur + n ≤ src.len) (hroom : room ≤ 6 * (src.len - cur) + excess) :
    Writes w w'' (escapeText (src.slice cur (n + m))) (6 * (src.len - cur) + excess) := by
  have hlength := length_escapeText_le (src.slice cur n)
  rw [length_slice] at hlength
  rw [Source.slice_add, escapeText_append]
  exact (h.append h').mono (by omega)

variable (hfits : src.Fits kind)

include hfits

/-- A full register is stored as it is. -/
theorem loadVec_writes (hsize : kind.size ≤ w.width) {n count : Nat} (hn : n ≤ count)
    (hle : cur + n ≤ src.len) :
    Writes w ((w.put 0 count (loadVec src cur)).move n) (src.slice cur n) count :=
  Writes.put_move w hn fun i hi => hfits.lt hsize (show cur + i < src.len by omega)

/-- The loop over full registers writes what it passes, and stops in front of the last units. -/
theorem encodeUnicodeLoop_writes (fuel : Nat) (hsize : kind.size ≤ w.width)
    (hle : cur ≤ src.len) :
    ∃ n, (encodeUnicodeLoop isa kind src fuel w cur).2 = cur + n ∧ cur + n ≤ src.len ∧
      (src.len ≤ cur + fuel → src.len < cur + n + readBatchCount isa kind) ∧
      Writes w (encodeUnicodeLoop isa kind src fuel w cur).1 (escapeText (src.slice cur n))
        (6 * (src.len - cur) + 2) := by
  have hbatch := readBatchCount_pos isa kind
  induction fuel generalizing w cur with
  | zero =>
      exact ⟨0, rfl, hle, fun _ => by omega, (Writes.refl w).mono (Nat.zero_le _)⟩
  | succ fuel ih =>
      rw [encodeUnicodeLoop]
      dsimp only
      split
      · rename_i hfull
        cases hfirst : firstLane (readBatchCount isa kind)
            (fun i => isEscapeUnit (loadVec src cur i)) with
        | none =>
            have hplain := firstLane_eq_none.mp hfirst
            have hone := @loadVec_writes kind src w cur hfits hsize _ _ (Nat.le_refl _) hfull
            rw [← escapeText_slice hplain] at hone
            obtain ⟨n, hcur, hn, hstop, hrest⟩ := ih (w := (w.put 0 (readBatchCount isa kind)
              (loadVec src cur)).move (readBatchCount isa kind)) hsize hfull
            refine ⟨readBatchCount isa kind + n, ?_, by omega, fun h => ?_, ?_⟩
            · rw [← Nat.add_assoc]
              exact hcur
            · have := hstop (by omega)
              omega
            · exact writes_slice hone hrest hfull (by omega)
        | some done =>
            obtain ⟨hlt, hescape, hplain⟩ := firstLane_eq_some.mp hfirst
            have hrun := @loadVec_writes kind src w cur hfits hsize done
              (readBatchCount isa kind) hlt.le (by omega)
            have hpos := StrKind.size_pos kind
            have hone := escape_writes hrun (by omega) hplain hescape
            obtain ⟨n, hcur, hn, hstop, hrest⟩ := @ih
              (putEscape ((w.put 0 (readBatchCount isa kind) (loadVec src cur)).move done)
                (src.read (cur + done))) (cur + done + 1) hsize (by omega)
            refine ⟨done + 1 + n, ?_, by omega, fun h => ?_, ?_⟩
            · rw [← Nat.add_assoc]
              exact hcur
            · have := hstop (by omega)
              omega
            · exact writes_slice hone hrest (by omega) (by omega)
      · exact ⟨0, rfl, hle, fun _ => by omega, (Writes.refl w).mono (Nat.zero_le _)⟩

/-! ### The last characters -/

section Trailing

variable (hlt : cur < src.len) (hshort : src.len < cur + readBatchCount isa kind)

include hlt hshort

omit hfits in
/-- The mask shows the first of the last characters that is escaped. -/
theorem trailingDone_spec :
    match trailingDone isa kind src cur with
    | none => ∀ i < src.len - cur, isEscapeUnit (src.read (cur + i)) = false
    | some done => done < src.len - cur ∧ isEscapeUnit (src.read (cur + done)) = true ∧
        ∀ i < done, isEscapeUnit (src.read (cur + i)) = false := by
  have hback := fun i => @loadVecBack_eq isa kind src cur hlt hshort i
  have hlow : ∀ {p : Nat → Bool}, (∀ i < readBatchCount isa kind, p i =
      (decide (i < src.len - cur) && isEscapeUnit (src.read (cur + i)))) →
      match firstLane (readBatchCount isa kind) p with
      | none => ∀ i < src.len - cur, isEscapeUnit (src.read (cur + i)) = false
      | some done => done < src.len - cur ∧ isEscapeUnit (src.read (cur + done)) = true ∧
          ∀ i < done, isEscapeUnit (src.read (cur + i)) = false := by
    intro p hp
    cases hfirst : firstLane (readBatchCount isa kind) p with
    | none =>
        intro i hi
        have hclear := firstLane_eq_none.mp hfirst i (by omega)
        rw [hp i (by omega), decide_eq_true hi, Bool.true_and] at hclear
        exact hclear
    | some done =>
        obtain ⟨hdone, hset, hbelow⟩ := firstLane_eq_some.mp hfirst
        rw [hp done hdone, Bool.and_eq_true, decide_eq_true_eq] at hset
        refine ⟨hset.1, hset.2, fun i hi => ?_⟩
        have hclear := hbelow i hi
        rw [hp i (by omega), decide_eq_true (show i < src.len - cur by omega),
          Bool.true_and] at hclear
        exact hclear
  -- The register that ends with the source has the last characters in its last lanes.
  have hhigh : match (firstLane (readBatchCount isa kind) fun i =>
        decide (readBatchCount isa kind ≤ i + (src.len - cur)) &&
          isEscapeUnit (loadVecBack isa kind src i)).map
            fun done => done + (src.len - cur) - readBatchCount isa kind with
      | none => ∀ i < src.len - cur, isEscapeUnit (src.read (cur + i)) = false
      | some done => done < src.len - cur ∧ isEscapeUnit (src.read (cur + done)) = true ∧
          ∀ i < done, isEscapeUnit (src.read (cur + i)) = false := by
    cases hfirst : firstLane (readBatchCount isa kind) fun i =>
        decide (readBatchCount isa kind ≤ i + (src.len - cur)) &&
          isEscapeUnit (loadVecBack isa kind src i) with
    | none =>
        intro i hi
        have hclear := firstLane_eq_none.mp hfirst
          (readBatchCount isa kind - (src.len - cur) + i) (by omega)
        rw [decide_eq_true (by omega), Bool.true_and, hback i hi] at hclear
        exact hclear
    | some done =>
        obtain ⟨hdone, hset, hbelow⟩ := firstLane_eq_some.mp hfirst
        rw [Bool.and_eq_true, decide_eq_true_eq] at hset
        have hlane := hback (done + (src.len - cur) - readBatchCount isa kind) (by omega)
        rw [show readBatchCount isa kind - (src.len - cur) +
          (done + (src.len - cur) - readBatchCount isa kind) = done by omega] at hlane
        dsimp only [Option.map_some]
        refine ⟨by omega, hlane ▸ hset.2, fun i hi => ?_⟩
        have hclear := hbelow (readBatchCount isa kind - (src.len - cur) + i) (by omega)
        rw [decide_eq_true (by omega), Bool.true_and, hback i (by omega)] at hclear
        exact hclear
  unfold trailingDone
  cases isa with
  | avx512 => exact hlow fun _ _ => rfl
  | avx2 | sse | neon => exact hhigh

/-- The halves of `avx2_trailing_cvt` hold the last characters. -/
theorem avx2TrailingCvt_writes (hsize : kind.size ≤ w.width) {half n : Nat}
    (hhalf : readBatchCount isa kind = 2 * half) (hn : n ≤ src.len - cur) :
    Writes w ((avx2TrailingCvt isa kind src w cur).move n) (src.slice cur n)
      (readBatchCount isa kind) := by
  have hdiv : readBatchCount isa kind / 2 = half := by omega
  have hlanes : ∀ i < n, loadVec src cur i < 256 ^ w.width := fun i hi =>
    hfits.lt hsize (show cur + i < src.len by omega)
  have hread : ∀ pos back i, back ≤ pos → pos - back = cur + i →
      src.readBack pos back = loadVec src cur i := by
    intro pos back i hle heq
    rw [Source.readBack, if_pos hle, heq, loadVec]
  unfold avx2TrailingCvt
  simp only [hdiv]
  split
  · by_cases hsmall : src.len - cur < half
    · simp only [if_pos hsmall]
      refine (Writes.put_put_move w (fun i hi => .inl ⟨Nat.zero_le i, by omega, ?_⟩) hlanes).mono
        (by omega)
      rw [Vec.rshift, if_pos (by omega)]
      exact hread _ _ _ (by omega) (by omega)
    · simp only [if_neg hsmall]
      refine (Writes.put_put_move w (fun i hi => ?_) hlanes).mono (by omega)
      by_cases hi' : i < half
      · refine .inl ⟨Nat.zero_le i, by omega, ?_⟩
        rw [Vec.rshift, if_pos (by omega)]
        exact hread _ _ _ (by omega) (by omega)
      · refine .inr ⟨.inr (by omega), by omega, by omega, ?_⟩
        exact hread _ _ _ (by omega) (by omega)
  · by_cases hsmall : src.len < cur + half
    · simp only [if_pos hsmall]
      refine (Writes.put_put_move w (fun i hi => .inr ⟨.inl (by omega), Nat.zero_le i, by omega, ?_⟩)
        hlanes).mono (by omega)
      rw [Vec.rshift, if_pos (by omega)]
      exact hread _ _ _ (by omega) (by omega)
    · simp only [if_neg hsmall]
      refine (Writes.put_put_move w (fun i hi => ?_) hlanes).mono (by omega)
      by_cases hi' : i < half
      · exact .inr ⟨.inl hi', Nat.zero_le i, by omega, rfl⟩
      · refine .inl ⟨by omega, by omega, ?_⟩
        rw [Vec.rshift, if_pos (by omega)]
        exact hread _ _ _ (by omega) (by omega)

/-- The last characters are stored as they are, and no more than a register in all. -/
theorem trailingCvt_writes (hsize : kind.size ≤ w.width) {n : Nat} (hn : n ≤ src.len - cur) :
    Writes w ((trailingCvt isa kind src w cur).move n) (src.slice cur n)
      (readBatchCount isa kind) := by
  unfold trailingCvt
  split
  · rename_i hisa
    subst hisa
    have hhalf : readBatchCount .avx2 kind = 2 * (16 / kind.size) := by
      cases kind <;> rfl
    exact avx2TrailingCvt_writes hfits hlt hshort hsize hhalf hn
  · rename_i hisa
    have hoff : trailingOffset isa kind src cur = 0 := if_neg hisa
    have hvec : ∀ i < n, trailingVec isa kind src cur i = loadVec src cur i := by
      intro i hi
      rw [trailingVec_eq hlt hshort (by omega), hoff, if_pos (by omega), Nat.sub_zero, loadVec]
    have hslice : src.slice cur n = (List.range n).map (trailingVec isa kind src cur) :=
      List.map_congr_left fun i hi => (hvec i (List.mem_range.mp hi)).symm
    rw [hslice]
    refine Writes.put_move w (by omega) fun i hi => ?_
    rw [hvec i hi]
    exact hfits.lt hsize (show cur + i < src.len by omega)

end Trailing

/-- The reader of the last characters writes them with their escapes. -/
theorem encodeTrailing_writes (fuel : Nat) (hsize : kind.size ≤ w.width) (hlt : cur < src.len)
    (hshort : src.len < cur + readBatchCount isa kind) (hfuel : src.len ≤ cur + fuel) :
    Writes w (encodeTrailingCopyWithCvt isa kind src fuel w cur)
      (escapeText (src.slice cur (src.len - cur)))
      (6 * (src.len - cur) + (max (readBatchCount isa kind) 8 - 6)) := by
  induction fuel generalizing w cur with
  | zero => omega
  | succ fuel ih =>
      have hdone := trailingDone_spec hlt hshort
      rw [encodeTrailingCopyWithCvt]
      dsimp only
      cases hmask : trailingDone isa kind src cur with
      | none =>
          rw [hmask] at hdone
          have hstored := trailingCvt_writes hfits hlt hshort hsize (Nat.le_refl _)
          rw [escapeText_slice hdone]
          exact hstored.mono (by omega)
      | some done =>
          rw [hmask] at hdone
          obtain ⟨hlast, hescape, hplain⟩ := hdone
          have hpos := StrKind.size_pos kind
          have hstored := trailingCvt_writes hfits hlt hshort hsize hlast.le
          have hone := escape_writes hstored (by omega) hplain hescape
          dsimp only
          split
          · rename_i hmore
            have hrest := @ih (putEscape ((trailingCvt isa kind src w cur).move done)
              (src.read (cur + done))) (cur + done + 1) (hone.width ▸ hsize) hmore (by omega)
              (by omega)
            have hboth := writes_slice hone hrest (by omega) (by omega)
            rwa [show done + 1 + (src.len - (cur + done + 1)) = src.len - cur by omega] at hboth
          · rw [show src.len - cur = done + 1 by omega]
            exact hone.mono (by omega)

/-- `encode_unicode_impl` writes a string with its escapes, whatever the instruction set, and ends
its stores in front of the room that six elements a character and the excess give. -/
theorem encodeUnicodeImpl_writes (isa : Isa) (hsize : kind.size ≤ w.width) :
    Writes w (encodeUnicodeImpl isa kind src w) (escapeText src.units)
      (6 * src.len + (max (readBatchCount isa kind) 8 - 6)) := by
  have hunits : src.slice 0 src.len = src.units := by
    refine List.ext_getElem (by simp [Source.len]) fun i hi hi' => ?_
    have hread : src.read (0 + i) = src.units[i] := by
      rw [Nat.zero_add, Source.read, dif_pos hi']
    simpa [Source.slice, loadVec] using hread
  obtain ⟨n, hcur, hle, hstop, hloop⟩ := @encodeUnicodeLoop_writes isa _ _ w _ hfits src.len
    hsize (Nat.zero_le src.len)
  simp only [Nat.zero_add] at hcur hle hstop
  unfold encodeUnicodeImpl
  rw [← hunits]
  generalize encodeUnicodeLoop isa kind src src.len w 0 = result at hcur hloop ⊢
  obtain ⟨w', cur⟩ := result
  obtain rfl : cur = n := hcur
  dsimp only at hloop ⊢
  split
  · rename_i hlt
    have hrest := @encodeTrailing_writes isa _ _ w' _ hfits src.len (hloop.width ▸ hsize)
      hlt (hstop (Nat.le_refl _)) (by omega)
    have hboth := @writes_slice _ _ 0 _ _ _ _ _ (max (readBatchCount isa kind) 8 - 6) hloop
      (by rwa [Nat.zero_add]) (by omega) (by omega)
    rwa [Nat.add_sub_cancel' hlt.le, Nat.sub_zero] at hboth
  · obtain rfl : cur = src.len := by omega
    exact hloop.mono (by omega)

end Spec

/-! ## The two encoders -/

/-- The vector encoder and the scalar encoder advance the writer alike and leave the same elements
in between, which are the text with its escapes. In front of the writer neither changes a byte. -/
theorem encodeUnicodeImpl_eq_scalar (isa : Isa) (kind : StrKind) (src : Source) (w : StoreWriter)
    (hfits : src.Fits kind) (hsize : kind.size ≤ w.width) :
    (encodeUnicodeImpl isa kind src w).index = (encodeScalar w src.units).index ∧
      (encodeScalar w src.units).index = w.index + (escapeText src.units).length ∧
      ∀ b : ByteBuffer,
        ((encodeUnicodeImpl isa kind src w).buffer b).loadList w.width w.index
            (escapeText src.units).length = escapeText src.units ∧
          ((encodeScalar w src.units).buffer b).loadList w.width w.index
            (escapeText src.units).length = escapeText src.units ∧
          ∀ a < w.width * w.index,
            (encodeUnicodeImpl isa kind src w).buffer b a = w.buffer b a ∧
              (encodeScalar w src.units).buffer b a = w.buffer b a := by
  have hpos := StrKind.size_pos kind
  have hunits : ∀ c ∈ src.units, c < 256 ^ w.width := by
    intro c hc
    obtain ⟨i, hi, rfl⟩ := List.getElem_of_mem hc
    exact Source.read_of_lt hi ▸ hfits.lt hsize hi
  have hvector := encodeUnicodeImpl_writes hfits isa hsize
  have hscalar := encodeScalar_writes w (by omega) hunits
  refine ⟨hvector.index.trans hscalar.index.symm, hscalar.index, fun b => ?_⟩
  exact ⟨hvector.load b, hscalar.load b, fun a ha => ⟨hvector.below b ha, hscalar.below b ha⟩⟩

/-- A quote and a newline among Latin letters, into elements of two bytes. -/
theorem encodeUnicodeImpl_eq_scalar_quote :
    (encodeUnicodeImpl .avx2 .ucs1 (.ofUnits [0x61, 0x22, 0xE9, 0x0A]) ⟨2, 3, []⟩).index = 9 ∧
      (encodeScalar ⟨2, 3, []⟩ [0x61, 0x22, 0xE9, 0x0A]).index = 9 := by
  have hfits : (Source.ofUnits [0x61, 0x22, 0xE9, 0x0A]).Fits .ucs1 := by
    show ∀ u ∈ [0x61, 0x22, 0xE9, 0x0A], u ≤ 0xFF
    decide
  obtain ⟨hvector, hscalar, -⟩ := encodeUnicodeImpl_eq_scalar .avx2 .ucs1
    (.ofUnits [0x61, 0x22, 0xE9, 0x0A]) ⟨2, 3, []⟩ hfits (by decide)
  exact ⟨hvector.trans hscalar, hscalar⟩

end SsrJson.Output
