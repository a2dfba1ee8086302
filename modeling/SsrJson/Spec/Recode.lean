import SsrJson.Spec.GrammarLemmas
import SsrJson.Spec.Unescape

/-!
# The same text in another encoding

`Recodes` relates two texts of the same characters, each written in an encoding of its own. All
tokens but strings consist of characters below `0x80`, which stand for themselves in every
encoding, so the grammar derives the same values for both texts.
-/

namespace SsrJson.Spec

/-- The texts hold the same characters, in the one encoding and in the other. -/
inductive Recodes (code code' : CharCode) : List Nat → List Nat → Prop where
  | nil : Recodes code code' [] []
  | cons {c u u' s s'} : code.enc c = some u → code'.enc c = some u' → Recodes code code' s s' →
      Recodes code code' (u ++ s) (u' ++ s')

variable {code code' : CharCode} {s r t : List Nat}

namespace Recodes

theorem symm (h : Recodes code code' s t) : Recodes code' code t s := by
  induction h with
  | nil => exact .nil
  | cons hu hu' _ ih => exact .cons hu' hu ih

theorem of_nil (h : Recodes code code' [] t) : t = [] := by
  generalize hs : ([] : List Nat) = s at h
  cases h with
  | nil => rfl
  | cons hu _ _ =>
      obtain ⟨b, w, rfl, -⟩ := code.head hu
      cases hs

/-- The first character of the one text is the first one of the other. -/
theorem char {c : Nat} {u : List Nat} (hu : code.enc c = some u) (h : Recodes code code' (u ++ s) t) :
    ∃ u' t', code'.enc c = some u' ∧ t = u' ++ t' ∧ Recodes code code' s t' := by
  generalize hw : u ++ s = w at h
  cases h with
  | nil =>
      obtain ⟨b, v, rfl, -⟩ := code.head hu
      cases hw
  | @cons d v v' w w' hv hv' hrest =>
      -- Both are what the reader of characters takes off the text.
      have hnext : code.next (u ++ s) = some (c, s) := code.next_iff.mpr ⟨u, hu, rfl⟩
      rw [hw, code.next_iff.mpr ⟨v, hv, rfl⟩] at hnext
      simp only [Option.some.injEq, Prod.mk.injEq] at hnext
      obtain ⟨rfl, rfl⟩ := hnext
      exact ⟨v', w', hv', rfl, hrest⟩

theorem low {c : Nat} (hc : c < 0x80) (h : Recodes code code' (c :: s) t) :
    ∃ t', t = c :: t' ∧ Recodes code code' s t' := by
  obtain ⟨u', t', hu', rfl, hrest⟩ := h.char (u := [c]) (code.low hc)
  rw [code'.low hc] at hu'
  obtain rfl := Option.some.inj hu'
  exact ⟨t', rfl, hrest⟩

theorem lows {w : List Nat} (hw : ∀ c ∈ w, c < 0x80) (h : Recodes code code' (w ++ s) t) :
    ∃ t', t = w ++ t' ∧ Recodes code code' s t' := by
  induction w generalizing t with
  | nil => exact ⟨t, rfl, h⟩
  | cons c w ih =>
      obtain ⟨t₁, rfl, h₁⟩ := h.low (hw c List.mem_cons_self)
      obtain ⟨t₂, rfl, h₂⟩ := ih (fun d hd => hw d (List.mem_cons_of_mem _ hd)) h₁
      exact ⟨t₂, rfl, h₂⟩

end Recodes

/-! ## Tokens -/

theorem isWs_low {c : Nat} (h : isWs c = true) : c < 0x80 := by
  rcases isWs_iff.mp h with rfl | rfl | rfl | rfl <;> decide

theorem isDigit_low {c : Nat} (h : isDigit c = true) : c < 0x80 :=
  Nat.lt_of_le_of_lt (isDigit_iff.mp h).2 (by decide)

theorem hexVal_low {c d : Nat} (h : hexVal c = some d) : c < 0x80 := by
  unfold hexVal at h
  split_ifs at h <;> omega

theorem shortEscape_low {c d : Nat} (h : shortEscape c = some d) : c < 0x80 := by
  unfold shortEscape at h
  split at h <;> first | decide | cases h

theorem hex4_low {a b c d v : Nat} (h : hex4 a b c d = some v) : ∀ e ∈ [a, b, c, d], e < 0x80 := by
  simp only [hex4, Option.bind_eq_bind, Option.bind_eq_some_iff] at h
  obtain ⟨_, ha, _, hb, _, hc, _, hd, -⟩ := h
  simp only [List.forall_mem_cons]
  exact ⟨hexVal_low ha, hexVal_low hb, hexVal_low hc, hexVal_low hd, nofun⟩

theorem minusPart_low (neg : Bool) : ∀ c ∈ minusPart neg, c < 0x80 := by
  cases neg <;> decide

theorem NumberText.low {w : List Nat} (h : NumberText w) : ∀ c ∈ w, c < 0x80 := by
  obtain ⟨neg, hint, hfrac, hexp⟩ := h
  simp only [List.forall_mem_append]
  refine ⟨minusPart_low neg, ?_, ?_, ?_⟩
  · cases hint with
    | zero => decide
    | nonzero hc hds =>
        refine List.forall_mem_cons.mpr ⟨?_, fun d hd => isDigit_low (hds d hd)⟩
        exact Nat.lt_of_le_of_lt (isNonzeroDigit_iff.mp hc).2 (by decide)
  · cases hfrac with
    | none => exact List.forall_mem_nil _
    | some hds => exact List.forall_mem_cons.mpr ⟨by decide, fun d hd => isDigit_low (hds.2 d hd)⟩
  · cases hexp with
    | none => exact List.forall_mem_nil _
    | some he hsign hds =>
        refine List.forall_mem_cons.mpr ⟨by omega, List.forall_mem_append.mpr ⟨?_, ?_⟩⟩
        · cases hsign <;> decide
        · exact fun d hd => isDigit_low (hds.2 d hd)

theorem EqIgnoringCase.low {w upper : List Nat} (h : EqIgnoringCase w upper)
    (hupper : ∀ u ∈ upper, u < 0x60) : ∀ c ∈ w, c < 0x80 := by
  unfold EqIgnoringCase at h
  induction h with
  | nil => nofun
  | cons hc _ ih =>
      have hu := hupper _ List.mem_cons_self
      refine List.forall_mem_cons.mpr ⟨by omega, ih fun u hu => hupper u (List.mem_cons_of_mem _ hu)⟩

theorem SpecialText.low {w : List Nat} {bits : BitVec 64} (h : SpecialText w bits) :
    ∀ c ∈ w, c < 0x80 := by
  cases h with
  | inf neg heq => exact List.forall_mem_append.mpr ⟨minusPart_low neg, heq.low (by decide)⟩
  | nan neg heq => exact List.forall_mem_append.mpr ⟨minusPart_low neg, heq.low (by decide)⟩

theorem Ws.recode (h : Ws s r) (ht : Recodes code code' s t) :
    ∃ t', Ws t t' ∧ Recodes code code' r t' := by
  induction h generalizing t with
  | nil => exact ⟨t, .nil t, ht⟩
  | cons hc _ ih =>
      obtain ⟨t₁, rfl, h₁⟩ := ht.low (isWs_low hc)
      obtain ⟨t₂, hws, h₂⟩ := ih h₁
      exact ⟨t₂, .cons hc hws, h₂⟩

/-- White space in front of a character that stands for itself. -/
theorem Ws.recode_low {c : Nat} (hc : c < 0x80) (h : Ws s (c :: r)) (ht : Recodes code code' s t) :
    ∃ t', Ws t (c :: t') ∧ Recodes code code' r t' := by
  obtain ⟨t₁, hws, h₁⟩ := h.recode ht
  obtain ⟨t₂, rfl, h₂⟩ := h₁.low hc
  exact ⟨t₂, hws, h₂⟩

theorem Chars.recode {cs : List Nat} (h : Chars code.enc s cs r) (ht : Recodes code code' s t) :
    ∃ t', Chars code'.enc t cs t' ∧ Recodes code code' r t' := by
  induction h generalizing t with
  | close r =>
      obtain ⟨t₁, rfl, h₁⟩ := ht.low (by decide)
      exact ⟨t₁, .close t₁, h₁⟩
  | plain hu hlow hquote hslash _ ih =>
      obtain ⟨u', t₁, hu', rfl, h₁⟩ := ht.char hu
      obtain ⟨t₂, hchars, h₂⟩ := ih h₁
      exact ⟨t₂, .plain hu' hlow hquote hslash hchars, h₂⟩
  | short he _ ih =>
      obtain ⟨t₁, rfl, h₁⟩ := ht.low (by decide)
      obtain ⟨t₂, rfl, h₂⟩ := h₁.low (shortEscape_low he)
      obtain ⟨t₃, hchars, h₃⟩ := ih h₂
      exact ⟨t₃, .short he hchars, h₃⟩
  | @unit a b c d _ s cs r hhex hunit _ ih =>
      obtain ⟨t₁, rfl, h₁⟩ := Recodes.lows (w := [0x5C, 0x75, a, b, c, d])
        (List.forall_mem_cons.mpr ⟨by decide, List.forall_mem_cons.mpr ⟨by decide, hex4_low hhex⟩⟩) ht
      obtain ⟨t₂, hchars, h₂⟩ := ih h₁
      exact ⟨t₂, .unit hhex hunit hchars, h₂⟩
  | @pair a b c d a' b' c' d' _ _ s cs r hhex hhigh hhex' hlow _ ih =>
      have hfirst : ∀ e ∈ [0x5C, 0x75, a, b, c, d], e < 0x80 :=
        List.forall_mem_cons.mpr ⟨by decide, List.forall_mem_cons.mpr ⟨by decide, hex4_low hhex⟩⟩
      have hsecond : ∀ e ∈ [0x5C, 0x75, a', b', c', d'], e < 0x80 :=
        List.forall_mem_cons.mpr ⟨by decide, List.forall_mem_cons.mpr ⟨by decide, hex4_low hhex'⟩⟩
      obtain ⟨t₁, rfl, h₁⟩ := Recodes.lows (w := [0x5C, 0x75, a, b, c, d]) hfirst ht
      obtain ⟨t₂, rfl, h₂⟩ := Recodes.lows (w := [0x5C, 0x75, a', b', c', d']) hsecond h₁
      obtain ⟨t₃, hchars, h₃⟩ := ih h₂
      exact ⟨t₃, .pair hhex hhigh hhex' hlow hchars, h₃⟩

theorem StringToken.recode {str : PyStr} (h : StringToken code.enc s str r)
    (ht : Recodes code code' s t) : ∃ t', StringToken code'.enc t str t' ∧ Recodes code code' r t' := by
  obtain ⟨hchars⟩ := h
  obtain ⟨t₁, rfl, h₁⟩ := ht.low (by decide)
  obtain ⟨t₂, hchars', h₂⟩ := hchars.recode h₁
  exact ⟨t₂, .mk hchars', h₂⟩

/-! ## Values -/

variable {numVal : List Nat → Num} {objVal : List (PyStr × PyVal) → PyVal}

mutual

/-- The derivation is followed constructor by constructor. -/
theorem Value.recode {n : Nat} {s r t : List Nat} {v : PyVal}
    (h : Value code.enc numVal objVal n s v r) (ht : Recodes code code' s t) :
    ∃ t', Value code'.enc numVal objVal n t v t' ∧ Recodes code code' r t' := by
  match h with
  | .null n r =>
      obtain ⟨t₁, rfl, h₁⟩ := Recodes.lows (w := [0x6E, 0x75, 0x6C, 0x6C]) (by decide) ht
      exact ⟨t₁, .null n t₁, h₁⟩
  | .true n r =>
      obtain ⟨t₁, rfl, h₁⟩ := Recodes.lows (w := [0x74, 0x72, 0x75, 0x65]) (by decide) ht
      exact ⟨t₁, .true n t₁, h₁⟩
  | .false n r =>
      obtain ⟨t₁, rfl, h₁⟩ := Recodes.lows (w := [0x66, 0x61, 0x6C, 0x73, 0x65]) (by decide) ht
      exact ⟨t₁, .false n t₁, h₁⟩
  | .number n r htext =>
      obtain ⟨t₁, rfl, h₁⟩ := ht.lows htext.low
      exact ⟨t₁, .number n t₁ htext, h₁⟩
  | .special n r htext =>
      obtain ⟨t₁, rfl, h₁⟩ := ht.lows htext.low
      exact ⟨t₁, .special n t₁ htext, h₁⟩
  | .string n hstr =>
      obtain ⟨t₁, hstr', h₁⟩ := hstr.recode ht
      exact ⟨t₁, .string n hstr', h₁⟩
  | .emptyArray n hend =>
      obtain ⟨t₁, rfl, h₁⟩ := ht.low (by decide)
      obtain ⟨t₂, hend', h₂⟩ := hend.recode_low (by decide) h₁
      exact ⟨t₂, .emptyArray n hend', h₂⟩
  | .array hels =>
      obtain ⟨t₁, rfl, h₁⟩ := ht.low (by decide)
      obtain ⟨t₂, hels', h₂⟩ := Elements.recode hels h₁
      exact ⟨t₂, .array hels', h₂⟩
  | .emptyObject n hend =>
      obtain ⟨t₁, rfl, h₁⟩ := ht.low (by decide)
      obtain ⟨t₂, hend', h₂⟩ := hend.recode_low (by decide) h₁
      exact ⟨t₂, .emptyObject n hend', h₂⟩
  | .object hms =>
      obtain ⟨t₁, rfl, h₁⟩ := ht.low (by decide)
      obtain ⟨t₂, hms', h₂⟩ := Members.recode hms h₁
      exact ⟨t₂, .object hms', h₂⟩

theorem Elements.recode {n : Nat} {s r t : List Nat} {vs : List PyVal}
    (h : Elements code.enc numVal objVal n s vs r)
    (ht : Recodes code code' s t) :
    ∃ t', Elements code'.enc numVal objVal n t vs t' ∧ Recodes code code' r t' := by
  match h with
  | .last hws hv hend =>
      obtain ⟨t₁, hws', h₁⟩ := hws.recode ht
      obtain ⟨t₂, hv', h₂⟩ := Value.recode hv h₁
      obtain ⟨t₃, hend', h₃⟩ := hend.recode_low (by decide) h₂
      exact ⟨t₃, .last hws' hv' hend', h₃⟩
  | .more hws hv hcomma hels =>
      obtain ⟨t₁, hws', h₁⟩ := hws.recode ht
      obtain ⟨t₂, hv', h₂⟩ := Value.recode hv h₁
      obtain ⟨t₃, hcomma', h₃⟩ := hcomma.recode_low (by decide) h₂
      obtain ⟨t₄, hels', h₄⟩ := Elements.recode hels h₃
      exact ⟨t₄, .more hws' hv' hcomma' hels', h₄⟩

theorem Members.recode {n : Nat} {s r t : List Nat} {ms : List (PyStr × PyVal)}
    (h : Members code.enc numVal objVal n s ms r)
    (ht : Recodes code code' s t) :
    ∃ t', Members code'.enc numVal objVal n t ms t' ∧ Recodes code code' r t' := by
  match h with
  | .last hws hk hcolon hws₂ hv hend =>
      obtain ⟨t₁, hws', h₁⟩ := hws.recode ht
      obtain ⟨t₂, hk', h₂⟩ := hk.recode h₁
      obtain ⟨t₃, hcolon', h₃⟩ := hcolon.recode_low (by decide) h₂
      obtain ⟨t₄, hws₂', h₄⟩ := hws₂.recode h₃
      obtain ⟨t₅, hv', h₅⟩ := Value.recode hv h₄
      obtain ⟨t₆, hend', h₆⟩ := hend.recode_low (by decide) h₅
      exact ⟨t₆, .last hws' hk' hcolon' hws₂' hv' hend', h₆⟩
  | .more hws hk hcolon hws₂ hv hcomma hms =>
      obtain ⟨t₁, hws', h₁⟩ := hws.recode ht
      obtain ⟨t₂, hk', h₂⟩ := hk.recode h₁
      obtain ⟨t₃, hcolon', h₃⟩ := hcolon.recode_low (by decide) h₂
      obtain ⟨t₄, hws₂', h₄⟩ := hws₂.recode h₃
      obtain ⟨t₅, hv', h₅⟩ := Value.recode hv h₄
      obtain ⟨t₆, hcomma', h₆⟩ := hcomma.recode_low (by decide) h₅
      obtain ⟨t₇, hms', h₇⟩ := Members.recode hms h₆
      exact ⟨t₇, .more hws' hk' hcolon' hws₂' hv' hcomma' hms', h₇⟩

end

/-- The grammar derives the same documents for both texts. -/
theorem Document.recode {n : Nat} {v : PyVal} (ht : Recodes code code' s t) :
    Document code.enc numVal objVal n s v ↔ Document code'.enc numVal objVal n t v := by
  have hone : ∀ {code code' : CharCode} {s t : List Nat}, Recodes code code' s t →
      Document code.enc numVal objVal n s v → Document code'.enc numVal objVal n t v := by
    intro code code' s t ht hdoc
    obtain ⟨hws, hv, hend⟩ := hdoc
    obtain ⟨t₁, hws', h₁⟩ := hws.recode ht
    obtain ⟨t₂, hv', h₂⟩ := Value.recode hv h₁
    obtain ⟨t₃, hend', h₃⟩ := hend.recode h₂
    obtain rfl := h₃.of_nil
    exact ⟨hws', hv', hend'⟩
  exact ⟨hone ht, hone ht.symm⟩

end SsrJson.Spec
