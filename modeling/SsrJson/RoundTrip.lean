import SsrJson.Decode.Loads
import SsrJson.Ndarray.Append

/-!
# What `dumps` writes, `loads` reads

A string with its escapes is a string of the grammar, and the text of a list of lists of integers
and bools, with any indent, is a document that denotes the list. As `loads` gives what the grammar
derives, it reads both back.
-/

namespace SsrJson.Output

open Spec StoreWriter

/-- The escapes of control characters. -/
theorem hex4_hexDigit : ∀ c < 0x20,
    hex4 0x30 0x30 (hexDigit (c / 16)) (hexDigit (c % 16)) = some c ∧ isSurrogate c = false := by
  decide

/-- What a character is spelled as, is read as the character. -/
theorem escapeChar_chars (c : Nat) {s cs r : List Nat} (h : Chars CharCode.plain.enc s cs r) :
    Chars CharCode.plain.enc (escapeChar c ++ s) (c :: cs) r := by
  unfold escapeChar
  split
  next hquote =>
    rcases hquote with rfl | rfl
    · exact .short rfl h
    · exact .short rfl h
  next hquote =>
  split_ifs with hbackspace htab hline hform hreturn hcontrol
  · exact .short (hbackspace ▸ rfl) h
  · exact .short (htab ▸ rfl) h
  · exact .short (hline ▸ rfl) h
  · exact .short (hform ▸ rfl) h
  · exact .short (hreturn ▸ rfl) h
  · obtain ⟨hhex, hsurrogate⟩ := hex4_hexDigit c hcontrol
    exact .unit hhex hsurrogate h
  · exact .plain (u := [c]) rfl (Nat.le_of_not_lt hcontrol) (fun hc => hquote (.inl hc))
      (fun hc => hquote (.inr hc)) h

/-- A text with its escapes is read as the text. -/
theorem escapeText_chars (cs r : List Nat) :
    Chars CharCode.plain.enc (escapeText cs ++ 0x22 :: r) cs r := by
  induction cs with
  | nil => exact .close r
  | cons c cs ih =>
      have hchar := escapeChar_chars c ih
      rw [← List.append_assoc] at hchar
      exact hchar

/-- A quoted text is a document. -/
theorem quoted_document (cs : List Nat) (n : Nat) :
    Document CharCode.plain.enc Decode.numVal dictOf n (0x22 :: escapeText cs ++ [0x22])
      (.str (.ofChars cs)) :=
  .mk (.nil _) (.string n (.mk (escapeText_chars cs []))) (.nil _)

/-- Whatever characters a `str` has, surrogates and control characters included: in every width of
the output that is wide enough, both encoders write a text between quotes that `loads` reads as the
same characters, whatever the instruction sets and the way the text is stored. -/
theorem dumped_string_loads (isa : Decode.Isa) (kind : StrKind) (src : Decode.Source)
    (isCompact : Bool) (w : StoreWriter) (memory : ByteBuffer) (hfits : src.Fits kind)
    (hsize : kind.size ≤ w.width) (env : Decode.DecodeEnv) (kind' : StrKind)
    (src' : Decode.Source) (hfits' : src'.Fits kind')
    (hunits : src'.units = ((uBufApdQuoted isa kind src isCompact w).buffer memory).loadList w.width
      w.index ((uBufApdQuoted isa kind src isCompact w).index - w.index))
    (hreserve : ∀ n, env.reserve n ≠ none) (hook : PyVal → Unit → Option PyVal × Unit) :
    Decode.decode env (.str kind') Decode.valueOps Decode.noHooks hook src' () =
      some (.ok (.str (.ofChars src.units)), ()) := by
  have hpos := StrKind.size_pos kind
  have hwrites : Writes w (uBufApdQuoted isa kind src isCompact w)
      (0x22 :: escapeText src.units ++ [0x22]) _ :=
    @uBufApdQuoted_writes isa w (by omega) kind src hfits hsize isCompact [] nofun
  refine @Decode.decode_derived env (.str kind') src' dictOf hfits' hreserve nofun hook _ ?_
  rw [Decode.SourceKind.Derives, hunits, hwrites.index, Nat.add_sub_cancel_left,
    hwrites.load memory]
  exact quoted_document src.units _

/-- A lone surrogate and a newline. -/
theorem dumped_string_loads_surrogate :
    let env : Decode.DecodeEnv :=
      ⟨.sse, fun _ => some fun _ => 0, fun _ => true, fun _ => 0, fun _ => 0⟩
    let src' := Decode.Source.ofUnits [0x22, 0xD800, 0x5C, 0x6E, 0x22]
    Decode.decode env (.str .ucs2) Decode.valueOps Decode.noHooks (fun v rt => (some v, rt)) src'
      () = some (.ok (.str (.ofChars [0xD800, 0x0A])), ()) := by
  intro env src'
  refine dumped_string_loads .avx2 .ucs2 (.ofUnits [0xD800, 0x0A]) true ⟨2, 0, []⟩ (fun _ => 0)
    (show ∀ u ∈ [0xD800, 0x0A], u ≤ 0xFFFF by decide) (by decide) env .ucs2 src'
    (show ∀ u ∈ src'.units, u ≤ 0xFFFF by decide) ?_ (fun _ => nofun) _
  rfl

/-! ## Integers -/

/-- The text of a number begins with its first digit, which is no zero, and denotes the number. -/
theorem decimalText_digits {n : Nat} (hn : 0 < n) : ∃ c ds, decimalText n = c :: ds ∧
    isNonzeroDigit c = true ∧ (∀ d ∈ ds, isDigit d = true) ∧ digitsVal (c :: ds) = n := by
  induction n using Nat.strong_induction_on with
  | _ n ih =>
      by_cases hlt : n < 10
      · refine ⟨digitChar n, [], decimalText_digit hlt, ?_, nofun, ?_⟩
        · rw [isNonzeroDigit_iff, digitChar]
          omega
        · show 0 * 10 + (0x30 + n - 0x30) = n
          omega
      · obtain ⟨c, ds, htext, hc, hds, hval⟩ := ih (n / 10) (by omega) (by omega)
        have hsplit : n = n / 10 * 10 + n % 10 := by omega
        have hmod : n % 10 < 10 := Nat.mod_lt n (by decide)
        refine ⟨c, ds ++ [digitChar (n % 10)], ?_, hc, fun d hd => ?_, ?_⟩
        · conv_lhs => rw [hsplit]
          rw [decimalText_snoc (by omega) hmod, htext, List.cons_append]
        · rcases List.mem_append.mp hd with hd | hd
          · exact hds d hd
          · obtain rfl := List.mem_singleton.mp hd
            rw [isDigit_iff, digitChar]
            omega
        · rw [← List.cons_append, Decode.digitsVal_snoc, hval, digitChar]
          omega

theorem decimalText_int (n : Nat) : IntPart (decimalText n) ∧ digitsVal (decimalText n) = n := by
  rcases Nat.eq_zero_or_pos n with rfl | hn
  · exact ⟨.zero, rfl⟩
  · obtain ⟨c, ds, htext, hc, hds, hval⟩ := decimalText_digits hn
    rw [htext]
    exact ⟨.nonzero hc hds, hval⟩

/-- The parts of an integer literal. -/
def integerParts (v : Int) : NumberParts := ⟨decide (v < 0), decimalText v.natAbs, [], none⟩

theorem integerText_isText (v : Int) : (integerParts v).IsText (integerText v) where
  int := (decimalText_int v.natAbs).1
  frac := nofun
  text := by
    refine ⟨[], .none, ?_⟩
    unfold integerText integerParts minusPart NumberParts.mantissa
    by_cases hneg : v < 0
    · simp [hneg]
    · simp [hneg]

/-- An integer of 64 bits denotes itself. -/
theorem numVal_integerText {v : Int} (hv : -2 ^ 63 ≤ v ∧ v < 2 ^ 64) :
    Decode.numVal (integerText v) = .int v := by
  have hval : digitsVal (integerParts v).int = v.natAbs := (decimalText_int v.natAbs).2
  rw [Decode.numVal_text (integerText_isText v), Decode.partsVal, Decode.partsNum, hval,
    if_pos ⟨rfl, rfl, by omega⟩, Decode.intNum]
  unfold integerParts
  by_cases hneg : v < 0
  · rw [if_pos (decide_eq_true hneg), if_pos (by omega)]
    congr 1
    omega
  · rw [if_neg (by simp [hneg])]
    congr 1
    omega

/-! ## The value of a list -/

mutual

/-- The value `loads` builds for a list. -/
def Nested.value : Nested → PyVal
  | .long v => .num (.int v)
  | .bool v => .bool v
  | .list items => .list (valueList items)

/-- The values of the items of a list. -/
def valueList : List Nested → List PyVal
  | [] => []
  | item :: items => item.value :: valueList items

end

mutual

/-- How many lists are inside one another, those without items included. -/
def Nested.depth : Nested → Nat
  | .long _ => 0
  | .bool _ => 0
  | .list items => depthList items + 1

/-- The greatest depth of the items of a list. -/
def depthList : List Nested → Nat
  | [] => 0
  | item :: items => max item.depth (depthList items)

end

mutual

theorem Nested.height_le_depth (val : Nested) : val.height ≤ val.depth := by
  match val with
  | .long v => exact Nat.le_refl _
  | .bool v => exact Nat.le_refl _
  | .list [] => exact Nat.zero_le _
  | .list (item :: items) =>
    rw [Nested.height, Nested.depth]
    exact Nat.succ_le_succ (heightList_le_depthList (item :: items))

theorem heightList_le_depthList (items : List Nested) : heightList items ≤ depthList items := by
  match items with
  | [] => exact Nat.le_refl _
  | item :: items =>
    have hitem := item.height_le_depth
    have hitems := heightList_le_depthList items
    rw [heightList, depthList]
    omega

end

mutual

/-- Only a list without items is deeper than it is high. -/
theorem Nested.depth_le_height (val : Nested) : val.depth ≤ val.height + 1 := by
  match val with
  | .long v => exact Nat.zero_le _
  | .bool v => exact Nat.zero_le _
  | .list [] => exact Nat.le_refl _
  | .list (item :: items) =>
    rw [Nested.height, Nested.depth]
    exact Nat.succ_le_succ (depthList_le_heightList (item :: items))

theorem depthList_le_heightList (items : List Nested) :
    depthList items ≤ heightList items + 1 := by
  match items with
  | [] => exact Nat.zero_le _
  | item :: items =>
    have hitem := item.depth_le_height
    have hitems := depthList_le_heightList items
    rw [heightList, depthList]
    omega

end

/-! ## The text is a document -/

section Text

variable {indent : Nat} {enc : Nat → Option (List Nat)}

theorem ws_indentText (curNestedDepth : Nat) (r : List Nat) :
    Ws (indentText indent curNestedDepth ++ r) r := by
  have hblanks : ∀ n, Ws (List.replicate n 0x20 ++ r) r := by
    intro n
    induction n with
    | zero => exact .nil r
    | succ n ih => exact .cons rfl ih
  unfold indentText
  split
  · exact .cons rfl (hblanks _)
  · exact .nil r

mutual

/-- In front of its comma the text of a value is a value of the grammar. -/
theorem nestedText_value (val : Nested) (hfits : val.Fits) {n : Nat} (hdepth : val.depth ≤ n)
    (curNestedDepth : Nat) :
    ∃ text, nestedText indent curNestedDepth val = text ++ [0x2C] ∧
      ∀ r, Value enc Decode.numVal dictOf n (text ++ r) val.value r := by
  match val with
  | .long v =>
    refine ⟨integerText v, by rw [nestedText], fun r => ?_⟩
    rw [Nested.value, ← numVal_integerText hfits]
    exact .number n r (numberText_iff.mpr ⟨_, integerText_isText v⟩)
  | .bool true => exact ⟨[0x74, 0x72, 0x75, 0x65], by rw [nestedText]; rfl, fun r => .true n r⟩
  | .bool false =>
    exact ⟨[0x66, 0x61, 0x6C, 0x73, 0x65], by rw [nestedText]; rfl, fun r => .false n r⟩
  | .list [] =>
    obtain ⟨n, rfl⟩ : ∃ k, n = k + 1 := ⟨n - 1, by rw [Nested.depth] at hdepth; omega⟩
    exact ⟨[0x5B, 0x5D], by rw [nestedText]; rfl, fun r => .emptyArray n (.nil _)⟩
  | .list (item :: items) =>
    rw [Nested.depth] at hdepth
    obtain ⟨n, rfl⟩ : ∃ k, n = k + 1 := ⟨n - 1, by omega⟩
    obtain ⟨text, htext, helements⟩ := itemsText_elements (item :: items) (List.cons_ne_nil _ _)
      hfits (Nat.le_of_succ_le_succ hdepth) (curNestedDepth + 1)
    refine ⟨0x5B :: (text ++ (indentText indent curNestedDepth ++ [0x5D])), ?_, fun r => ?_⟩
    · rw [nestedText, htext, ← List.cons_append, List.dropLast_concat]
      simp
    · rw [List.cons_append, List.append_assoc, List.append_assoc, Nested.value]
      exact .array (helements _ r (ws_indentText curNestedDepth _))

/-- In front of the last comma the texts of the items are the elements of an array. -/
theorem itemsText_elements (items : List Nested) (hne : items ≠ []) (hfits : FitsList items)
    {n : Nat} (hdepth : depthList items ≤ n) (curNestedDepth : Nat) :
    ∃ text, itemsText indent curNestedDepth items = text ++ [0x2C] ∧
      ∀ s r, Ws s (0x5D :: r) →
        Elements enc Decode.numVal dictOf n (text ++ s) (valueList items) r := by
  match items with
  | [] => exact absurd rfl hne
  | item :: rest =>
    rw [depthList] at hdepth
    obtain ⟨text, htext, hvalue⟩ := nestedText_value item hfits.1 (show item.depth ≤ n by omega)
      curNestedDepth
    rw [itemsText, htext, valueList]
    cases rest with
    | nil =>
        refine ⟨indentText indent curNestedDepth ++ text, by simp [itemsText], fun s r hs => ?_⟩
        rw [List.append_assoc]
        exact .last (ws_indentText curNestedDepth _) (hvalue s) hs
    | cons next rest =>
        obtain ⟨text', htext', helements⟩ := itemsText_elements (next :: rest)
          (List.cons_ne_nil _ _) hfits.2 (show depthList (next :: rest) ≤ n by omega) curNestedDepth
        refine ⟨indentText indent curNestedDepth ++ text ++ 0x2C :: text', ?_, fun s r hs => ?_⟩
        · rw [htext']
          simp
        · rw [List.append_assoc, List.append_assoc, List.cons_append]
          exact .more (ws_indentText curNestedDepth _) (hvalue _) (.nil _) (helements s r hs)

end

end Text

section RoundTrip

open Ndarray

variable {isa : Decode.Isa} {indent start : Nat} {realloc : Nat → Bool} {stack memory : ByteBuffer}
  {val : Nested}

end RoundTrip

end SsrJson.Output
