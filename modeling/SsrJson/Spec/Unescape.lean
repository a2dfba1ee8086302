import SsrJson.Library.Utf8
import SsrJson.Spec.Grammar

/-!
# Reading a string character by character

`unescape` is the plain reader of a JSON string: one character or one escape at a time, up to the
first unescaped quotation mark. It is the derivations `Chars` made into a function. How a character
stands in the text is a `CharCode`.
-/

namespace SsrJson.Spec

/-- Four hexadecimal digits. -/
def readUnit : List Nat → Option (Nat × List Nat)
  | h₁ :: h₂ :: h₃ :: h₄ :: s => (hex4 h₁ h₂ h₃ h₄).map fun c => (c, s)
  | _ => none

/-- The second half of a surrogate pair. -/
def readLow (high : Nat) : List Nat → Option (Nat × List Nat)
  | b :: u :: s =>
    if b = 0x5C ∧ u = 0x75 then
      match readUnit s with
      | none => none
      | some (low, r) => if isLowSurrogate low = true then some (pairVal high low, r) else none
    else none
  | _ => none

/-- The escape whose backslash has been read: its character and what is left behind it. -/
def readEscape : List Nat → Option (Nat × List Nat)
  | [] => none
  | e :: s =>
    if e = 0x75 then
      match readUnit s with
      | none => none
      | some (c, r) =>
        if isSurrogate c = false then some (c, r)
        else if isHighSurrogate c = true then readLow c r
        else none
    else (shortEscape e).map fun c => (c, s)

theorem readUnit_eq_some {s r : List Nat} {c : Nat} : readUnit s = some (c, r) ↔
    ∃ h₁ h₂ h₃ h₄, s = h₁ :: h₂ :: h₃ :: h₄ :: r ∧ hex4 h₁ h₂ h₃ h₄ = some c := by
  constructor
  · intro h
    unfold readUnit at h
    split at h
    · simp only [Option.map_eq_some_iff, Prod.mk.injEq] at h
      obtain ⟨_, hhex, rfl, rfl⟩ := h
      exact ⟨_, _, _, _, rfl, hhex⟩
    · cases h
  · rintro ⟨h₁, h₂, h₃, h₄, rfl, hhex⟩
    simp [readUnit, hhex]

theorem readLow_eq_some {high : Nat} {s r : List Nat} {c : Nat} : readLow high s = some (c, r) ↔
    ∃ t low, s = 0x5C :: 0x75 :: t ∧ readUnit t = some (low, r) ∧ isLowSurrogate low = true ∧
      c = pairVal high low := by
  constructor
  · intro h
    unfold readLow at h
    split at h
    · rename_i b u t
      split at h
      · rename_i hbu
        obtain ⟨rfl, rfl⟩ := hbu
        cases hunit : readUnit t with
        | none => simp [hunit] at h
        | some p =>
            obtain ⟨low, r'⟩ := p
            simp only [hunit] at h
            split at h
            · rename_i hlow
              simp only [Option.some.injEq, Prod.mk.injEq] at h
              obtain ⟨hc, rfl⟩ := h
              exact ⟨t, low, rfl, hunit, hlow, hc.symm⟩
            · cases h
      · cases h
    · cases h
  · rintro ⟨t, low, rfl, hunit, hlow, hc⟩
    simp [readLow, hunit, hlow, hc]

/-- The three kinds of escape. -/
theorem readEscape_eq_some {s r : List Nat} {c : Nat} : readEscape s = some (c, r) ↔
    (∃ e, s = e :: r ∧ shortEscape e = some c) ∨
    (∃ t, s = 0x75 :: t ∧ readUnit t = some (c, r) ∧ isSurrogate c = false) ∨
    (∃ t high r', s = 0x75 :: t ∧ readUnit t = some (high, r') ∧ isHighSurrogate high = true ∧
      readLow high r' = some (c, r)) := by
  have hsur : ∀ {c}, isHighSurrogate c = true → isSurrogate c = true := by
    intro c h
    simp only [isHighSurrogate, isSurrogate, Bool.and_eq_true, decide_eq_true_eq] at *
    omega
  have hu : shortEscape 0x75 = none := by decide
  constructor
  · intro h
    cases s with
    | nil => simp [readEscape] at h
    | cons e t =>
        simp only [readEscape] at h
        split at h
        · rename_i he
          subst he
          cases hunit : readUnit t with
          | none => simp [hunit] at h
          | some p =>
              obtain ⟨unit, r'⟩ := p
              simp only [hunit] at h
              split at h
              · rename_i hns
                cases h
                exact .inr (.inl ⟨t, rfl, hunit, hns⟩)
              · split at h
                · rename_i hhigh
                  exact .inr (.inr ⟨t, unit, r', rfl, hunit, hhigh, h⟩)
                · cases h
        · simp only [Option.map_eq_some_iff, Prod.mk.injEq] at h
          obtain ⟨_, hshort, rfl, rfl⟩ := h
          exact .inl ⟨e, rfl, hshort⟩
  · rintro (⟨e, rfl, hshort⟩ | ⟨t, rfl, hunit, hns⟩ | ⟨t, high, r', rfl, hunit, hhigh, hlow⟩)
    · have hne : e ≠ 0x75 := by
        rintro rfl
        rw [hu] at hshort
        cases hshort
      simp [readEscape, hne, hshort]
    · simp [readEscape, hunit, hns]
    · simp [readEscape, hunit, hsur hhigh, hhigh, hlow]

/-- Reading an escape consumes something. -/
theorem readEscape_length {s r : List Nat} {c : Nat} (h : readEscape s = some (c, r)) :
    r.length < s.length := by
  have hunit : ∀ {s r : List Nat} {c : Nat}, readUnit s = some (c, r) →
      r.length < s.length := by
    intro s r c h
    obtain ⟨_, _, _, _, rfl, -⟩ := readUnit_eq_some.mp h
    simp only [List.length_cons]
    omega
  rcases readEscape_eq_some.mp h with ⟨e, rfl, -⟩ | ⟨t, rfl, ht, -⟩ | ⟨t, high, r', rfl, ht, -, hlow⟩
  · simp
  · have := hunit ht
    simp only [List.length_cons]
    omega
  · obtain ⟨t', low, rfl, ht', -⟩ := readLow_eq_some.mp hlow
    have := hunit ht
    have := hunit ht'
    simp only [List.length_cons] at *
    omega

/-- Put characters in front of those read. -/
def prepend (cs : List Nat) (result : Option (List Nat × List Nat)) :
    Option (List Nat × List Nat) :=
  result.map fun (ds, r) => (cs ++ ds, r)

@[simp] theorem prepend_none (cs : List Nat) : prepend cs none = none := rfl

@[simp] theorem prepend_some (cs ds r : List Nat) :
    prepend cs (some (ds, r)) = some (cs ++ ds, r) := rfl

@[simp] theorem prepend_nil (result : Option (List Nat × List Nat)) :
    prepend [] result = result := by
  cases result <;> rfl

theorem prepend_prepend (cs ds : List Nat) (result : Option (List Nat × List Nat)) :
    prepend cs (prepend ds result) = prepend (cs ++ ds) result := by
  cases result <;> simp [prepend]

theorem prepend_eq_some {cs ds r : List Nat} {result : Option (List Nat × List Nat)} :
    prepend cs result = some (ds, r) ↔ ∃ es, result = some (es, r) ∧ ds = cs ++ es := by
  cases result with
  | none => simp
  | some p =>
      obtain ⟨es, r'⟩ := p
      simp only [prepend_some, Option.some.injEq, Prod.mk.injEq]
      constructor
      · rintro ⟨rfl, rfl⟩
        exact ⟨es, ⟨rfl, rfl⟩, rfl⟩
      · rintro ⟨_, ⟨rfl, rfl⟩, rfl⟩
        exact ⟨rfl, rfl⟩

/-- How characters stand in a text: the units a character is written as, and the reader of one.
Characters below `0x80` stand for themselves, and no other begins with such a unit. -/
structure CharCode where
  enc : Nat → Option (List Nat)
  next : List Nat → Option (Nat × List Nat)
  next_iff : ∀ {s c r}, next s = some (c, r) ↔ ∃ u, enc c = some u ∧ s = u ++ r
  low : ∀ {c}, c < 0x80 → enc c = some [c]
  high : ∀ {c u}, 0x80 ≤ c → enc c = some u → ∃ b t, u = b :: t ∧ 0x80 ≤ b

namespace CharCode

/-- Every unit is a character. -/
def plain : CharCode where
  enc c := some [c]
  next
    | [] => none
    | c :: s => some (c, s)
  next_iff {s c r} := by
    cases s with
    | nil => simp
    | cons d s => simp [eq_comm]
  low _ := rfl
  high hc h := ⟨_, [], (Option.some.inj h).symm, hc⟩

/-- UTF-8. -/
def utf8 : CharCode where
  enc := Utf8.enc
  next := Utf8.next
  next_iff := Utf8.next_iff
  low hc := Utf8.enc_low hc
  high hc h := Utf8.enc_high hc h

variable {code : CharCode}

/-- The head of what a character is written as. -/
theorem head (code : CharCode) {c : Nat} {u : List Nat} (h : code.enc c = some u) :
    ∃ b t, u = b :: t ∧ (b = c ∨ 0x80 ≤ b ∧ 0x80 ≤ c) := by
  by_cases hc : c < 0x80
  · rw [code.low hc] at h
    obtain rfl := Option.some.inj h
    exact ⟨c, [], rfl, .inl rfl⟩
  · obtain ⟨b, t, rfl, hb⟩ := code.high (Nat.le_of_not_lt hc) h
    exact ⟨b, t, rfl, .inr ⟨hb, Nat.le_of_not_lt hc⟩⟩

theorem next_length {s r : List Nat} {c : Nat} (h : code.next s = some (c, r)) :
    r.length < s.length := by
  obtain ⟨u, hu, rfl⟩ := code.next_iff.mp h
  obtain ⟨b, t, rfl, -⟩ := code.head hu
  simp only [List.cons_append, List.length_cons, List.length_append]
  omega

end CharCode

/-- The characters of a string whose opening quote has been read, and the text behind its closing
quote. -/
def unescape (code : CharCode) : List Nat → Option (List Nat × List Nat)
  | [] => none
  | c :: s =>
    if c = 0x22 then some ([], s)
    else if c = 0x5C then
      match _h : readEscape s with
      | none => none
      | some (e, r) => prepend [e] (unescape code r)
    else if c < 0x20 then none
    else
      match _h : code.next (c :: s) with
      | none => none
      | some (d, r) => prepend [d] (unescape code r)
termination_by s => s.length
decreasing_by
  · have := readEscape_length _h
    simp only [List.length_cons]
    omega
  · exact CharCode.next_length _h

section

variable (code : CharCode)

@[simp] theorem unescape_nil : unescape code [] = none := by
  rw [unescape]

@[simp] theorem unescape_quote (s : List Nat) : unescape code (0x22 :: s) = some ([], s) := by
  rw [unescape, if_pos rfl]

theorem unescape_backslash (s : List Nat) : unescape code (0x5C :: s) =
    match readEscape s with
    | none => none
    | some (e, r) => prepend [e] (unescape code r) := by
  rw [unescape, if_neg (by decide), if_pos rfl]
  split <;> simp_all

theorem unescape_control {c : Nat} (s : List Nat) (h : c < 0x20) :
    unescape code (c :: s) = none := by
  rw [unescape, if_neg (by omega), if_neg (by omega), if_pos h]

theorem unescape_char {c : Nat} (s : List Nat) (h : 0x20 ≤ c) (hq : c ≠ 0x22) (hb : c ≠ 0x5C) :
    unescape code (c :: s) =
      match code.next (c :: s) with
      | none => none
      | some (d, r) => prepend [d] (unescape code r) := by
  rw [unescape, if_neg hq, if_neg hb, if_neg (by omega)]
  split <;> simp_all

end

theorem unescape_plain {c : Nat} (s : List Nat) (h : 0x20 ≤ c) (hq : c ≠ 0x22) (hb : c ≠ 0x5C) :
    unescape .plain (c :: s) = prepend [c] (unescape .plain s) :=
  unescape_char .plain s h hq hb

/-- A character is read whatever units it is written as. -/
theorem unescape_enc {code : CharCode} {c : Nat} {u : List Nat} (s : List Nat)
    (henc : code.enc c = some u) (h : 0x20 ≤ c) (hq : c ≠ 0x22) (hb : c ≠ 0x5C) :
    unescape code (u ++ s) = prepend [c] (unescape code s) := by
  have hnext := code.next_iff.mpr ⟨u, henc, Eq.refl (u ++ s)⟩
  obtain ⟨b, t, rfl, hhead⟩ := code.head henc
  rw [List.cons_append] at hnext ⊢
  rw [unescape_char code (t ++ s) (by omega) (by omega) (by omega), hnext]

/-- The escapes of the grammar are those the reader reads. -/
theorem chars_escape {enc : Nat → Option (List Nat)} {c : Nat} {s r cs t : List Nat}
    (h : readEscape s = some (c, r)) (hrest : Chars enc r cs t) :
    Chars enc (0x5C :: s) (c :: cs) t := by
  rcases readEscape_eq_some.mp h with
    ⟨e, rfl, hshort⟩ | ⟨u, rfl, hu, hns⟩ | ⟨u, high, r', rfl, hu, hhigh, hlow⟩
  · exact .short hshort hrest
  · obtain ⟨_, _, _, _, rfl, hhex⟩ := readUnit_eq_some.mp hu
    exact .unit hhex hns hrest
  · obtain ⟨_, _, _, _, rfl, hhex⟩ := readUnit_eq_some.mp hu
    obtain ⟨v, low, rfl, hv, hislow, hc⟩ := readLow_eq_some.mp hlow
    obtain ⟨_, _, _, _, rfl, hhex'⟩ := readUnit_eq_some.mp hv
    rw [hc]
    exact .pair hhex hhigh hhex' hislow hrest

/-- The function reads what the grammar derives. -/
theorem chars_iff_unescape {code : CharCode} {s cs r : List Nat} :
    Chars code.enc s cs r ↔ unescape code s = some (cs, r) := by
  constructor
  · intro h
    induction h with
    | close r => exact unescape_quote code r
    | plain henc hc hq hb _ ih =>
        rw [unescape_enc _ henc hc hq hb, ih]
        rfl
    | short hshort _ ih =>
        rw [unescape_backslash, readEscape_eq_some.mpr (.inl ⟨_, rfl, hshort⟩)]
        simp only [ih]
        rfl
    | @unit _ _ _ _ _ s _ _ hhex hns _ ih =>
        have hunit := readUnit_eq_some.mpr ⟨_, _, _, _, Eq.refl (_ :: _ :: _ :: _ :: s), hhex⟩
        rw [unescape_backslash, readEscape_eq_some.mpr (.inr (.inl ⟨_, rfl, hunit, hns⟩))]
        simp only [ih]
        rfl
    | @pair h₁ h₂ h₃ h₄ l₁ l₂ l₃ l₄ high low s _ _ hhex hhigh hhex' hislow _ ih =>
        have hunit : readUnit (h₁ :: h₂ :: h₃ :: h₄ :: 0x5C :: 0x75 :: l₁ :: l₂ :: l₃ :: l₄ :: s) =
            some (high, 0x5C :: 0x75 :: l₁ :: l₂ :: l₃ :: l₄ :: s) :=
          readUnit_eq_some.mpr ⟨_, _, _, _, rfl, hhex⟩
        have hunit' : readUnit (l₁ :: l₂ :: l₃ :: l₄ :: s) = some (low, s) :=
          readUnit_eq_some.mpr ⟨_, _, _, _, rfl, hhex'⟩
        have hlow := readLow_eq_some.mpr ⟨_, _, rfl, hunit', hislow, Eq.refl (pairVal high low)⟩
        rw [unescape_backslash,
          readEscape_eq_some.mpr (.inr (.inr ⟨_, _, _, rfl, hunit, hhigh, hlow⟩))]
        simp only [ih]
        rfl
  · intro h
    induction s using unescape.induct code generalizing cs with
    | case1 => simp at h
    | case2 s =>
        rw [unescape_quote] at h
        cases h
        exact .close _
    | case3 s hnone =>
        rw [unescape_backslash, hnone] at h
        cases h
    | case4 s e t hsome _ ih =>
        rw [unescape_backslash, hsome] at h
        obtain ⟨es, hes, rfl⟩ := prepend_eq_some.mp h
        exact chars_escape hsome (ih hes)
    | case5 c s hq hb hctl =>
        rw [unescape_control code s hctl] at h
        cases h
    | case6 c s hq hb hctl hnone =>
        rw [unescape_char code s (by omega) hq hb, hnone] at h
        cases h
    | case7 c s hq hb hctl d t hsome ih =>
        rw [unescape_char code s (by omega) hq hb, hsome] at h
        obtain ⟨es, hes, rfl⟩ := prepend_eq_some.mp h
        obtain ⟨u, hu, heq⟩ := code.next_iff.mp hsome
        obtain ⟨b, v, rfl, hhead⟩ := code.head hu
        obtain rfl : c = b := (List.cons.inj heq).1
        rw [heq]
        exact .plain hu (by omega) (by omega) (by omega) (ih hes)

/-- The text up to the closing quote gives the characters, whatever follows it. -/
theorem Chars.text {enc : Nat → Option (List Nat)} {s cs r : List Nat} (h : Chars enc s cs r) :
    ∃ t, s = t ++ 0x22 :: r ∧ ∀ r', Chars enc (t ++ 0x22 :: r') cs r' := by
  induction h with
  | close r => exact ⟨[], rfl, fun r' => .close r'⟩
  | @plain c u s cs r hu hlow hquote hback _ ih =>
      obtain ⟨t, rfl, ht⟩ := ih
      refine ⟨u ++ t, (List.append_assoc _ _ _).symm, fun r' => ?_⟩
      rw [List.append_assoc]
      exact .plain hu hlow hquote hback (ht r')
  | @short e c s cs r he _ ih =>
      obtain ⟨t, rfl, ht⟩ := ih
      exact ⟨0x5C :: e :: t, rfl, fun r' => .short he (ht r')⟩
  | @unit h₁ h₂ h₃ h₄ c s cs r hhex hsur _ ih =>
      obtain ⟨t, rfl, ht⟩ := ih
      exact ⟨0x5C :: 0x75 :: h₁ :: h₂ :: h₃ :: h₄ :: t, rfl, fun r' => .unit hhex hsur (ht r')⟩
  | @pair h₁ h₂ h₃ h₄ l₁ l₂ l₃ l₄ high low s cs r hhigh hsur hlow hsur' _ ih =>
      obtain ⟨t, rfl, ht⟩ := ih
      exact ⟨0x5C :: 0x75 :: h₁ :: h₂ :: h₃ :: h₄ :: 0x5C :: 0x75 :: l₁ :: l₂ :: l₃ :: l₄ :: t, rfl,
        fun r' => .pair hhigh hsur hlow hsur' (ht r')⟩

end SsrJson.Spec
