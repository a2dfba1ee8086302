import SsrJson.Spec.Grammar

/-!
# Reading the grammar from the left

White space before a construct can be taken off in one way only, and the first character of a
value tells which rule derives it. These inversions are what a deterministic reader needs of the
grammar.
-/

namespace SsrJson.Spec

variable {enc : Nat → Option (List Nat)} {numVal : List Nat → Num}

/-! ## White space -/

/-- A text that does not begin with white space. -/
def NoWs (s : List Nat) : Prop := ∀ c ∈ s.head?, isWs c = false

@[simp] theorem noWs_nil : NoWs [] := by simp [NoWs]

@[simp] theorem noWs_cons {c : Nat} {s : List Nat} : NoWs (c :: s) ↔ isWs c = false := by
  simp [NoWs]

namespace Ws

theorem trans {s t r : List Nat} (h : Ws s t) (h' : Ws t r) : Ws s r := by
  induction h with
  | nil => exact h'
  | cons hc _ ih => exact .cons hc (ih h')

/-- Nothing can be taken off a text that does not begin with white space. -/
theorem eq_of_noWs {s r : List Nat} (hs : NoWs s) (h : Ws s r) : r = s := by
  cases h with
  | nil => rfl
  | cons hc _ => simp [hc] at hs

/-- A text that begins with white space is not what is left when all of it is taken off. -/
theorem tail {c : Nat} {s r : List Nat} (hc : isWs c = true) (hr : NoWs r) (h : Ws (c :: s) r) :
    Ws s r := by
  cases h with
  | nil => simp [hc] at hr
  | cons _ h => exact h

/-- Taking off some white space first does not change what can be left. -/
theorem iff {s t r : List Nat} (hst : Ws s t) (hr : NoWs r) : Ws s r ↔ Ws t r := by
  refine ⟨fun h => ?_, hst.trans⟩
  induction hst with
  | nil => exact h
  | cons hc _ ih => exact ih (tail hc hr h)

/-- There is one way to take off all white space. -/
theorem unique {s r r' : List Nat} (h : Ws s r) (hr : NoWs r) (h' : Ws s r') (hr' : NoWs r') :
    r = r' :=
  (eq_of_noWs hr ((iff h hr').mp h')).symm

end Ws

/-! ## First characters -/

theorem isDigit_iff {c : Nat} : isDigit c = true ↔ 0x30 ≤ c ∧ c ≤ 0x39 := by
  simp [isDigit]

theorem isNonzeroDigit_iff {c : Nat} : isNonzeroDigit c = true ↔ 0x31 ≤ c ∧ c ≤ 0x39 := by
  simp [isNonzeroDigit]

theorem isWs_iff {c : Nat} : isWs c = true ↔ c = 0x20 ∨ c = 0x09 ∨ c = 0x0A ∨ c = 0x0D := by
  simp [isWs, or_assoc]

/-- An integer part begins with a digit. -/
theorem IntPart.head {t : List Nat} (h : IntPart t) : ∃ c t', t = c :: t' ∧ isDigit c = true := by
  cases h with
  | zero => exact ⟨0x30, [], rfl, rfl⟩
  | nonzero hc _ =>
      rw [isNonzeroDigit_iff] at hc
      exact ⟨_, _, rfl, isDigit_iff.mpr ⟨by omega, hc.2⟩⟩

/-- A number begins with a minus or a digit. -/
theorem NumberText.head {t : List Nat} (h : NumberText t) :
    ∃ c t', t = c :: t' ∧ (c = 0x2D ∨ isDigit c = true) := by
  obtain ⟨neg, hint, -, -⟩ := h
  obtain ⟨c, t', rfl, hc⟩ := hint.head
  cases neg with
  | true => exact ⟨0x2D, _, rfl, .inl rfl⟩
  | false => exact ⟨c, _, rfl, .inr hc⟩

/-- `Infinity` and `NaN` begin with a minus, an `i` or an `n` of either case. -/
theorem SpecialText.head {t : List Nat} {bits : BitVec 64} (h : SpecialText t bits) :
    ∃ c t', t = c :: t' ∧ (c = 0x2D ∨ c = 0x49 ∨ c = 0x69 ∨ c = 0x4E ∨ c = 0x6E) := by
  cases h with
  | inf neg heq =>
      cases neg with
      | true => exact ⟨0x2D, _, rfl, .inl rfl⟩
      | false =>
          cases heq with
          | cons hc _ => exact ⟨_, _, rfl, by omega⟩
  | nan neg heq =>
      cases neg with
      | true => exact ⟨0x2D, _, rfl, .inl rfl⟩
      | false =>
          cases heq with
          | cons hc _ => exact ⟨_, _, rfl, by omega⟩

/-- The literals of numbers: RFC 8259 numbers and the special ones. -/
def NumToken (numVal : List Nat → Num) (s : List Nat) (num : Num) (r : List Nat) : Prop :=
  ∃ t, s = t ++ r ∧ ((NumberText t ∧ num = numVal t) ∨ ∃ bits, SpecialText t bits ∧
    num = .float bits)

/-- The characters a number literal can begin with. -/
def isNumHead (c : Nat) : Bool :=
  c == 0x2D || isDigit c || c == 0x49 || c == 0x69 || c == 0x4E || c == 0x6E

theorem NumToken.head {c : Nat} {s r : List Nat} {num : Num} (h : NumToken numVal (c :: s) num r) :
    isNumHead c = true := by
  obtain ⟨t, ht, ⟨hnum, -⟩ | ⟨bits, hspecial, -⟩⟩ := h
  · obtain ⟨c', t', rfl, hc⟩ := hnum.head
    obtain ⟨rfl, -⟩ := List.cons.inj ht
    rcases hc with rfl | hc
    · rfl
    · simp [isNumHead, hc]
  · obtain ⟨c', t', rfl, hc⟩ := hspecial.head
    obtain ⟨rfl, -⟩ := List.cons.inj ht
    rcases hc with rfl | rfl | rfl | rfl | rfl <;> rfl

theorem NumToken.ne_nil {r : List Nat} {num : Num} (h : NumToken numVal [] num r) : False := by
  obtain ⟨t, ht, ⟨hnum, -⟩ | ⟨bits, hspecial, -⟩⟩ := h
  · obtain ⟨c', t', rfl, -⟩ := hnum.head
    cases ht
  · obtain ⟨c', t', rfl, -⟩ := hspecial.head
    cases ht

namespace Value

variable {objVal : List (PyStr × PyVal) → PyVal} {n : Nat} {s r : List Nat} {v : PyVal}

/-- A number or a special literal, seen from outside. -/
theorem of_numToken {num : Num} (n : Nat) (h : NumToken numVal s num r) :
    Value enc numVal objVal n s (.num num) r := by
  obtain ⟨t, rfl, ⟨hnum, rfl⟩ | ⟨bits, hspecial, rfl⟩⟩ := h
  · exact .number n r hnum
  · exact .special n r hspecial

/-- The rule that derives a value, by the first character. -/
theorem cases_head {c : Nat} (h : Value enc numVal objVal n (c :: s) v r) :
    (c = 0x6E ∧ s = 0x75 :: 0x6C :: 0x6C :: r ∧ v = .none) ∨
    (c = 0x74 ∧ s = 0x72 :: 0x75 :: 0x65 :: r ∧ v = .bool Bool.true) ∨
    (c = 0x66 ∧ s = 0x61 :: 0x6C :: 0x73 :: 0x65 :: r ∧ v = .bool Bool.false) ∨
    (∃ num, NumToken numVal (c :: s) num r ∧ v = .num num) ∨
    (c = 0x22 ∧ ∃ str, StringToken enc (c :: s) str r ∧ v = .str str) ∨
    (c = 0x5B ∧ ∃ m, n = m + 1 ∧ ((Ws s (0x5D :: r) ∧ v = .list []) ∨
      ∃ vs, Elements enc numVal objVal m s vs r ∧ v = .list vs)) ∨
    (c = 0x7B ∧ ∃ m, n = m + 1 ∧ ((Ws s (0x7D :: r) ∧ v = objVal []) ∨
      ∃ ms, Members enc numVal objVal m s ms r ∧ v = objVal ms)) := by
  generalize hcs : c :: s = cs at h
  cases h with
  | null => cases hcs; simp
  | true => cases hcs; simp
  | false => cases hcs; simp
  | number _ _ hnum =>
      exact .inr (.inr (.inr (.inl ⟨_, ⟨_, rfl, .inl ⟨hnum, rfl⟩⟩, rfl⟩)))
  | special _ _ hspecial =>
      exact .inr (.inr (.inr (.inl ⟨_, ⟨_, rfl, .inr ⟨_, hspecial, rfl⟩⟩, rfl⟩)))
  | string _ hstr =>
      subst hcs
      have hc : c = 0x22 := by
        generalize hcs : c :: s = cs at hstr
        cases hstr
        exact (List.cons.inj hcs).1
      exact .inr (.inr (.inr (.inr (.inl ⟨hc, _, hstr, rfl⟩))))
  | emptyArray _ hws =>
      cases hcs
      exact .inr (.inr (.inr (.inr (.inr (.inl ⟨rfl, _, rfl, .inl ⟨hws, rfl⟩⟩)))))
  | array hels =>
      cases hcs
      exact .inr (.inr (.inr (.inr (.inr (.inl ⟨rfl, _, rfl, .inr ⟨_, hels, rfl⟩⟩)))))
  | emptyObject _ hws =>
      cases hcs
      exact .inr (.inr (.inr (.inr (.inr (.inr ⟨rfl, _, rfl, .inl ⟨hws, rfl⟩⟩)))))
  | object hms =>
      cases hcs
      exact .inr (.inr (.inr (.inr (.inr (.inr ⟨rfl, _, rfl, .inr ⟨_, hms, rfl⟩⟩)))))

/-- No value is empty. -/
theorem ne_nil (h : Value enc numVal objVal n [] v r) : False := by
  generalize hs : ([] : List Nat) = s at h
  cases h with
  | number _ _ hnum =>
      obtain ⟨c, t', rfl, -⟩ := hnum.head
      cases hs
  | special _ _ hspecial =>
      obtain ⟨c, t', rfl, -⟩ := hspecial.head
      cases hs
  | string _ hstr => cases hstr; cases hs
  | _ => cases hs

/-- No value begins with white space. -/
theorem noWs (h : Value enc numVal objVal n s v r) : NoWs s := by
  cases s with
  | nil => simp
  | cons c s =>
      rw [noWs_cons]
      rcases h.cases_head with ⟨rfl, -⟩ | ⟨rfl, -⟩ | ⟨rfl, -⟩ | ⟨num, hnum, -⟩ | ⟨rfl, -⟩ |
        ⟨rfl, -⟩ | ⟨rfl, -⟩
      any_goals rfl
      have hhead := hnum.head
      simp only [isNumHead, isDigit, Bool.or_eq_true, beq_iff_eq, Bool.and_eq_true,
        decide_eq_true_eq] at hhead
      simp only [isWs, Bool.or_eq_false_iff, beq_eq_false_iff_ne]
      omega

end Value

/-- No string begins with white space. -/
theorem StringToken.noWs {s r : List Nat} {str : PyStr} (h : StringToken enc s str r) :
    NoWs s := by
  cases h
  exact noWs_cons.mpr rfl

end SsrJson.Spec
