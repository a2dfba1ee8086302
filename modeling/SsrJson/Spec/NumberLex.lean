import SsrJson.Spec.GrammarLemmas
import Mathlib.Data.List.TakeWhile

/-!
# Number literals by longest match

`lexNumber` takes a number literal off a text, every run of digits as far as it goes, and keeps the
parts that decide its value. A text begins with a literal of the grammar that nothing continues
exactly when `lexNumber` finds that literal.
-/

namespace SsrJson.Spec

/-- The parts of a number literal. There is a dot if there are digits behind it. -/
structure NumberParts where
  neg : Bool
  int : List Nat
  frac : List Nat
  exp : Option (Bool × List Nat)
  deriving DecidableEq, Repr

/-- The number a run of digits denotes. -/
def digitsVal (ds : List Nat) : Nat := ds.foldl (fun v d => v * 10 + (d - 0x30)) 0

/-- The number with its dot moved to the end, without leading zeros. -/
def NumberParts.significant (p : NumberParts) : List Nat :=
  (p.int ++ p.frac).dropWhile (· == 0x30)

/-! ## Taking a literal off -/

/-- The integer part, which is alone where it is a zero. -/
def lexInt : List Nat → Option (List Nat × List Nat)
  | [] => none
  | c :: s =>
    if c = 0x30 then if s.head?.any isDigit then none else some ([c], s)
    else if isNonzeroDigit c then some (c :: s.takeWhile isDigit, s.dropWhile isDigit)
    else none

/-- The fraction, if there is a dot. -/
def lexFrac : List Nat → Option (List Nat × List Nat)
  | [] => some ([], [])
  | c :: s =>
    if c = 0x2E then
      if s.head?.any isDigit then some (s.takeWhile isDigit, s.dropWhile isDigit) else none
    else some ([], c :: s)

/-- The sign of an exponent, if there is one. -/
def lexSign : List Nat → Bool × List Nat
  | [] => (false, [])
  | c :: s => if c = 0x2D then (true, s) else if c = 0x2B then (false, s) else (false, c :: s)

/-- The exponent, if there is the letter. -/
def lexExp : List Nat → Option (Option (Bool × List Nat) × List Nat)
  | [] => some (none, [])
  | c :: s =>
    if c = 0x65 ∨ c = 0x45 then
      let (neg, s) := lexSign s
      if s.head?.any isDigit then some (some (neg, s.takeWhile isDigit), s.dropWhile isDigit)
      else none
    else some (none, c :: s)

/-- The minus, if there is one. -/
def lexMinus : List Nat → Bool × List Nat
  | [] => (false, [])
  | c :: s => if c = 0x2D then (true, s) else (false, c :: s)

/-- A number literal by longest match. -/
def lexNumber (s : List Nat) : Option (NumberParts × List Nat) := do
  let (neg, s) := lexMinus s
  let (int, s) ← lexInt s
  let (frac, s) ← lexFrac s
  let (exp, s) ← lexExp s
  some (⟨neg, int, frac, exp⟩, s)

/-! ## Literals with given parts -/

/-- The sign of an exponent as it is written. -/
inductive SignText : Bool → List Nat → Prop where
  | none : SignText false []
  | plus : SignText false [0x2B]
  | minus : SignText true [0x2D]

/-- An exponent as it is written. -/
inductive ExpText : Option (Bool × List Nat) → List Nat → Prop where
  | none : ExpText none []
  | some {neg e sign ds} : e = 0x65 ∨ e = 0x45 → SignText neg sign → Digits ds →
      ExpText (some (neg, ds)) (e :: (sign ++ ds))

/-- The digits of a number and its dot. -/
def NumberParts.mantissa (p : NumberParts) : List Nat :=
  p.int ++ if p.frac = [] then [] else 0x2E :: p.frac

/-- `t` is the literal with the parts `p`. -/
structure NumberParts.IsText (p : NumberParts) (t : List Nat) : Prop where
  int : IntPart p.int
  frac : ∀ d ∈ p.frac, isDigit d = true
  text : ∃ e, ExpText p.exp e ∧ t = minusPart p.neg ++ (p.mantissa ++ e)

/-- The literals of the grammar are those that have parts. -/
theorem numberText_iff {t : List Nat} : NumberText t ↔ ∃ p : NumberParts, p.IsText t := by
  constructor
  · intro h
    obtain @⟨neg, int, frac, exp, hint, hfrac, hexp⟩ := h
    obtain ⟨parts, hparts⟩ : ∃ parts, ExpText parts exp := by
      cases hexp with
      | none => exact ⟨_, .none⟩
      | some he hsign hds =>
          cases hsign with
          | none => exact ⟨_, .some he .none hds⟩
          | plus => exact ⟨_, .some he .plus hds⟩
          | minus => exact ⟨_, .some he .minus hds⟩
    cases hfrac with
    | none => exact ⟨⟨neg, _, [], parts⟩, hint, nofun, _, hparts, by simp [NumberParts.mantissa]⟩
    | some hds =>
        exact ⟨⟨neg, _, _, parts⟩, hint, hds.2, _, hparts, by simp [NumberParts.mantissa, hds.1]⟩
  · rintro ⟨⟨neg, int, frac, exp⟩, hint, hfrac, e, hexp, rfl⟩
    have hexp' : ExpPart e := by
      cases hexp with
      | none => exact .none
      | some he hsign hds =>
          cases hsign with
          | none => exact .some he .none hds
          | plus => exact .some he .plus hds
          | minus => exact .some he .minus hds
    unfold NumberParts.mantissa
    split
    · rw [List.append_nil]
      exact .mk neg hint .none hexp'
    · rename_i hne
      rw [List.append_assoc]
      exact .mk neg hint (.some ⟨hne, hfrac⟩) hexp'

/-! ## Runs of digits -/

/-- A text that does not go on with a digit. -/
def NoDigit (s : List Nat) : Prop := s.head?.any isDigit = false

/-- A text with which a literal does not go on. -/
def NumberEnds (s : List Nat) : Prop :=
  ∀ c ∈ s.head?, isDigit c = false ∧ c ≠ 0x2E ∧ c ≠ 0x65 ∧ c ≠ 0x45

theorem NumberEnds.noDigit {s : List Nat} (h : NumberEnds s) : NoDigit s := by
  cases s with
  | nil => rfl
  | cons c s => exact (h c rfl).1

theorem noDigit_dropWhile (s : List Nat) : NoDigit (s.dropWhile isDigit) := by
  induction s with
  | nil => rfl
  | cons c s ih =>
      rw [List.dropWhile_cons]
      split
      · exact ih
      · simpa [NoDigit] using ‹¬ isDigit c = true›

/-- A run of digits that ends is taken whole. -/
theorem takeWhile_digits {ds r : List Nat} (hds : ∀ d ∈ ds, isDigit d = true) (hr : NoDigit r) :
    (ds ++ r).takeWhile isDigit = ds ∧ (ds ++ r).dropWhile isDigit = r := by
  rw [List.takeWhile_append_of_pos hds, List.dropWhile_append_of_pos hds]
  cases r with
  | nil => simp
  | cons c r =>
      have hc : isDigit c = false := hr
      simp [hc]

/-- Every text is a run of digits and what does not go on with one. -/
theorem digits_split (s : List Nat) : ∃ ds r, s = ds ++ r ∧ (∀ d ∈ ds, isDigit d = true) ∧
    NoDigit r :=
  ⟨_, _, List.takeWhile_append_dropWhile.symm, fun _ h => List.mem_takeWhile_imp h,
    noDigit_dropWhile s⟩

/-! ## The literal taken off is one of the grammar -/

theorem head_any_isDigit {s : List Nat} : s.head?.any isDigit = true ↔
    s.takeWhile isDigit ≠ [] := by
  cases s with
  | nil => simp
  | cons c s => cases h : isDigit c <;> simp [h]

theorem lexInt_sound {s i r : List Nat} (h : lexInt s = some (i, r)) : IntPart i ∧ s = i ++ r := by
  cases s with
  | nil => cases h
  | cons c s =>
      rw [lexInt] at h
      split_ifs at h with hzero hdigit hnonzero
      · obtain ⟨rfl, rfl⟩ : [c] = i ∧ s = r := by simpa using h
        subst hzero
        exact ⟨.zero, rfl⟩
      · obtain ⟨rfl, rfl⟩ : c :: s.takeWhile isDigit = i ∧ s.dropWhile isDigit = r := by
          simpa using h
        exact ⟨.nonzero hnonzero fun _ => List.mem_takeWhile_imp, by simp⟩

theorem lexFrac_sound {s f r : List Nat} (h : lexFrac s = some (f, r)) :
    (∀ d ∈ f, isDigit d = true) ∧ s = (if f = [] then [] else 0x2E :: f) ++ r := by
  cases s with
  | nil =>
      obtain ⟨rfl, rfl⟩ : [] = f ∧ [] = r := by simpa [lexFrac] using h
      exact ⟨nofun, rfl⟩
  | cons c s =>
      rw [lexFrac] at h
      split_ifs at h with hdot hdigit
      · obtain ⟨rfl, rfl⟩ : s.takeWhile isDigit = f ∧ s.dropWhile isDigit = r := by simpa using h
        exact ⟨fun _ => List.mem_takeWhile_imp, by
          rw [if_neg (head_any_isDigit.mp hdigit), hdot, List.cons_append,
            List.takeWhile_append_dropWhile]⟩
      · obtain ⟨rfl, rfl⟩ : [] = f ∧ c :: s = r := by simpa using h
        exact ⟨nofun, rfl⟩

theorem lexSign_sound (s : List Nat) : ∃ t, SignText (lexSign s).1 t ∧ s = t ++ (lexSign s).2 := by
  cases s with
  | nil => exact ⟨[], .none, rfl⟩
  | cons c s =>
      rw [lexSign]
      split_ifs with hminus hplus
      · exact ⟨[0x2D], .minus, by rw [hminus]; rfl⟩
      · exact ⟨[0x2B], .plus, by rw [hplus]; rfl⟩
      · exact ⟨[], .none, rfl⟩

theorem lexExp_sound {s r : List Nat} {exp : Option (Bool × List Nat)}
    (h : lexExp s = some (exp, r)) : ∃ e, ExpText exp e ∧ s = e ++ r := by
  cases s with
  | nil =>
      obtain ⟨rfl, rfl⟩ : none = exp ∧ [] = r := by simpa [lexExp] using h
      exact ⟨[], .none, rfl⟩
  | cons c s =>
      rw [lexExp] at h
      split at h
      · rename_i he
        obtain ⟨t, ht, hs⟩ := lexSign_sound s
        generalize lexSign s = sign at h ht hs
        obtain ⟨neg, s'⟩ := sign
        dsimp only at h ht hs
        split_ifs at h with hdigit
        obtain ⟨rfl, rfl⟩ : some (neg, s'.takeWhile isDigit) = exp ∧ s'.dropWhile isDigit = r := by
          simpa using h
        exact ⟨_, .some he ht ⟨head_any_isDigit.mp hdigit, fun _ => List.mem_takeWhile_imp⟩, by
          rw [hs]; simp⟩
      · obtain ⟨rfl, rfl⟩ : none = exp ∧ c :: s = r := by simpa using h
        exact ⟨[], .none, rfl⟩

theorem lexMinus_sound (s : List Nat) : s = minusPart (lexMinus s).1 ++ (lexMinus s).2 := by
  cases s with
  | nil => rfl
  | cons c s =>
      rw [lexMinus]
      split_ifs with hminus
      · rw [hminus]
        rfl
      · rfl

/-- The text taken off is the literal with the parts found. -/
theorem lexNumber_sound {s r : List Nat} {p : NumberParts} (h : lexNumber s = some (p, r)) :
    ∃ t, p.IsText t ∧ s = t ++ r := by
  have hminus := lexMinus_sound s
  simp only [lexNumber, Option.bind_eq_bind, Option.bind_eq_some_iff, Prod.exists,
    Option.some.injEq, Prod.mk.injEq] at h
  obtain ⟨int, s₁, hint, frac, s₂, hfrac, exp, s₃, hexp, rfl, rfl⟩ := h
  obtain ⟨hint, hs₁⟩ := lexInt_sound hint
  obtain ⟨hfrac, hs₂⟩ := lexFrac_sound hfrac
  obtain ⟨e, hexp, hs₃⟩ := lexExp_sound hexp
  refine ⟨_, ⟨hint, hfrac, e, hexp, rfl⟩, ?_⟩
  refine hminus.trans ?_
  rw [hs₁, hs₂, hs₃]
  simp only [NumberParts.mantissa, List.append_assoc]

/-! ## A literal that ends is taken off whole -/

theorem any_digits {ds r : List Nat} (hds : Digits ds) : (ds ++ r).head?.any isDigit = true := by
  obtain ⟨hne, hds⟩ := hds
  cases ds with
  | nil => exact absurd rfl hne
  | cons d ds => simpa using hds d List.mem_cons_self

theorem lexInt_complete {i r : List Nat} (hi : IntPart i) (hr : NoDigit r) :
    lexInt (i ++ r) = some (i, r) := by
  cases hi with
  | zero => simp [lexInt, show r.head?.any isDigit = false from hr]
  | nonzero hc hds =>
      rename_i c ds
      have hne : c ≠ 0x30 := by
        rintro rfl
        cases hc
      obtain ⟨htake, hdrop⟩ := takeWhile_digits hds hr
      rw [List.cons_append, lexInt, if_neg hne, if_pos hc, htake, hdrop]

theorem lexFrac_complete {f r : List Nat} (hf : ∀ d ∈ f, isDigit d = true) (hr : NoDigit r)
    (hdot : f = [] → ∀ c ∈ r.head?, c ≠ 0x2E) :
    lexFrac ((if f = [] then [] else 0x2E :: f) ++ r) = some (f, r) := by
  split
  · rename_i hnil
    subst hnil
    cases r with
    | nil => rfl
    | cons c r => rw [List.nil_append, lexFrac, if_neg (hdot rfl c rfl)]
  · rename_i hne
    obtain ⟨htake, hdrop⟩ := takeWhile_digits hf hr
    rw [List.cons_append, lexFrac, if_pos rfl, if_pos (any_digits ⟨hne, hf⟩), htake, hdrop]

theorem lexExp_complete {e r : List Nat} {exp : Option (Bool × List Nat)} (he : ExpText exp e)
    (hr : NumberEnds r) : lexExp (e ++ r) = some (exp, r) := by
  cases he with
  | none =>
      cases r with
      | nil => rfl
      | cons c r =>
          have hc := hr c rfl
          rw [List.nil_append, lexExp, if_neg (by tauto)]
  | some hletter hsign hds =>
      rename_i neg e sign ds
      have hlex : lexSign (sign ++ ds ++ r) = (neg, ds ++ r) := by
        cases hsign with
        | plus => rfl
        | minus => rfl
        | none =>
            obtain ⟨hne, hds⟩ := hds
            cases ds with
            | nil => exact absurd rfl hne
            | cons d ds =>
                have hd := isDigit_iff.mp (hds d List.mem_cons_self)
                simp only [List.nil_append, List.cons_append, lexSign]
                rw [if_neg (by omega), if_neg (by omega)]
      obtain ⟨htake, hdrop⟩ := takeWhile_digits hds.2 hr.noDigit
      rw [List.cons_append, lexExp, if_pos hletter, hlex]
      simp only [any_digits hds, if_true, htake, hdrop]

theorem lexMinus_complete {i : List Nat} (neg : Bool) (hi : IntPart i) (r : List Nat) :
    lexMinus (minusPart neg ++ (i ++ r)) = (neg, i ++ r) := by
  cases neg with
  | true => rfl
  | false =>
      obtain ⟨c, i', rfl, hc⟩ := hi.head
      rw [isDigit_iff] at hc
      simp only [minusPart, Bool.false_eq_true, if_false, List.nil_append, List.cons_append,
        lexMinus]
      rw [if_neg (by omega)]

/-- A fraction or an exponent does not begin with a digit. -/
theorem ExpText.noDigit {e r : List Nat} {exp : Option (Bool × List Nat)} (he : ExpText exp e)
    (hr : NumberEnds r) : NoDigit (e ++ r) ∧ ∀ c ∈ (e ++ r).head?, c ≠ 0x2E := by
  cases he with
  | none => exact ⟨hr.noDigit, fun c hc => (hr c hc).2.1⟩
  | some hletter _ _ =>
      rcases hletter with rfl | rfl
      · exact ⟨rfl, by simp⟩
      · exact ⟨rfl, by simp⟩

/-- A literal is taken off whole where nothing continues it. -/
theorem lexNumber_complete {p : NumberParts} {t r : List Nat} (h : p.IsText t)
    (hr : NumberEnds r) : lexNumber (t ++ r) = some (p, r) := by
  obtain ⟨hint, hfrac, e, hexp, rfl⟩ := h
  obtain ⟨hdigit, hdot⟩ := hexp.noDigit hr
  have hdigit' : NoDigit ((if p.frac = [] then [] else 0x2E :: p.frac) ++ (e ++ r)) := by
    split
    · exact hdigit
    · rfl
  simp only [lexNumber, NumberParts.mantissa, List.append_assoc, lexMinus_complete p.neg hint,
    lexInt_complete hint hdigit', lexFrac_complete hfrac hdigit fun _ => hdot,
    lexExp_complete hexp hr, Option.bind_eq_bind, Option.bind_some]

end SsrJson.Spec
