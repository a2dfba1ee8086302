import SsrJson.Decode.Number
import SsrJson.Decode.TokenLemmas
import SsrJson.Spec.NumberLex
import Mathlib.Tactic.Ring

/-!
# Runs of digits under the cursor

What the loops of the number reader do on a run of digits that ends: where they stop, and the value
they gather as long as it has at most nineteen digits.
-/

namespace SsrJson.Decode

open Spec

/-! ## Digits -/

/-- The units of a source are no wider than four bytes. -/
def Source.Units32 (src : Source) : Prop := ∀ u ∈ src.units, u < 2 ^ 32

theorem digiIsType_wide {c flags : Nat} (hc : ¬ c < 256) : digiIsType c flags = false := by
  simp only [digiIsType, Bool.and_eq_false_iff, decide_eq_false_iff_not]
  exact .inl (by omega)

theorem digiIsDigit_eq (c : Nat) : digiIsDigit c = isDigit c := by
  by_cases hc : c < 256
  · revert c
    decide +kernel
  · have hdigit : isDigit c = false := by
      rw [← Bool.not_eq_true, isDigit_iff]
      omega
    rw [hdigit]
    exact digiIsType_wide hc

theorem digiIsNonzero_eq (c : Nat) : digiIsNonzero c = isNonzeroDigit c := by
  by_cases hc : c < 256
  · revert c
    decide +kernel
  · have hdigit : isNonzeroDigit c = false := by
      rw [← Bool.not_eq_true, isNonzeroDigit_iff]
      omega
    rw [hdigit]
    exact digiIsType_wide hc

theorem digiIsExp_iff {c : Nat} : digiIsExp c = true ↔ c = 0x65 ∨ c = 0x45 := by
  by_cases hc : c < 256
  · revert c
    decide +kernel
  · rw [digiIsExp, digiIsType_wide hc]
    simp only [Bool.false_eq_true, false_iff]
    omega

theorem digiIsSign_iff {c : Nat} : digiIsSign c = true ↔ c = 0x2B ∨ c = 0x2D := by
  by_cases hc : c < 256
  · revert c
    decide +kernel
  · rw [digiIsSign, digiIsType_wide hc]
    simp only [Bool.false_eq_true, false_iff]
    omega

theorem digiIsFp_iff {c : Nat} : digiIsFp c = true ↔ c = 0x2E ∨ c = 0x65 ∨ c = 0x45 := by
  by_cases hc : c < 256
  · revert c
    decide +kernel
  · rw [digiIsFp, digiIsType_wide hc]
    simp only [Bool.false_eq_true, false_iff]
    omega

theorem digiIsDigitOrFp_iff {c : Nat} :
    digiIsDigitOrFp c = true ↔ isDigit c = true ∨ c = 0x2E ∨ c = 0x65 ∨ c = 0x45 := by
  by_cases hc : c < 256
  · revert c
    decide +kernel
  · rw [digiIsDigitOrFp, digiIsType_wide hc, isDigit_iff]
    simp only [Bool.false_eq_true, false_iff]
    omega

/-- The value of a digit, and no other unit has a value below ten. -/
theorem digitNum_digit {u : Nat} (hu : isDigit u = true) : digitNum u = u - 0x30 := by
  rw [isDigit_iff] at hu
  unfold digitNum sub64
  omega

theorem digitNum_le_iff {u : Nat} (hu : u < 2 ^ 32) : digitNum u ≤ 9 ↔ isDigit u = true := by
  rw [isDigit_iff]
  unfold digitNum sub64
  omega

/-! ## The text under the cursor -/

/-- The step of `digitsVal`. -/
def addDigit (v d : Nat) : Nat := v * 10 + (d - 0x30)

theorem digitsVal_eq (ds : List Nat) : digitsVal ds = ds.foldl addDigit 0 := rfl

theorem foldl_addDigit (ds : List Nat) (v : Nat) :
    ds.foldl addDigit v = v * 10 ^ ds.length + digitsVal ds := by
  induction ds generalizing v with
  | nil => simp [digitsVal]
  | cons d ds ih =>
      rw [digitsVal_eq, List.foldl_cons, List.foldl_cons, ih, ih (addDigit 0 d), addDigit, addDigit,
        List.length_cons, Nat.pow_succ]
      ring

/-- A number with so many digits more. -/
theorem foldl_addDigit_lt {ds : List Nat} (hds : ∀ d ∈ ds, isDigit d = true) {v k : Nat}
    (hv : v < 10 ^ k) : ds.foldl addDigit v < 10 ^ (k + ds.length) := by
  induction ds generalizing v k with
  | nil => simpa using hv
  | cons d ds ih =>
      have hd := isDigit_iff.mp (hds d List.mem_cons_self)
      have hnext : addDigit v d < 10 ^ (k + 1) := by
        rw [Nat.pow_succ, addDigit]
        omega
      have := ih (fun d hd => hds d (List.mem_cons_of_mem _ hd)) hnext
      rwa [List.length_cons, ← Nat.add_assoc, Nat.add_right_comm]

theorem digitsVal_lt {ds : List Nat} (hds : ∀ d ∈ ds, isDigit d = true) :
    digitsVal ds < 10 ^ ds.length := by
  have h := @foldl_addDigit_lt ds hds 0 0 (by decide)
  rwa [Nat.zero_add] at h

namespace Source

variable {src : Source} {cur : Nat}

/-- The unit under the cursor is the first one left, and zero at the end. -/
theorem read_eq_headD (hle : cur ≤ src.len) : src.read cur = (src.rest cur).headD 0 := by
  rcases Nat.lt_or_eq_of_le hle with hlt | rfl
  · rw [rest_of_lt hlt]
    rfl
  · simp

/-- What is known of the cursor when the text left is known. -/
theorem rest_cons {c : Nat} {s : List Nat} (h : src.rest cur = c :: s) :
    cur < src.len ∧ src.read cur = c ∧ src.rest (cur + 1) = s := by
  have hlt : cur < src.len := by
    by_contra hge
    rw [rest, List.drop_eq_nil_of_le (Nat.le_of_not_lt hge)] at h
    cases h
  rw [rest_of_lt hlt, List.cons.injEq] at h
  exact ⟨hlt, h.1, h.2⟩

theorem rest_append {t s : List Nat} (h : src.rest cur = t ++ s) :
    src.rest (cur + t.length) = s := by
  rw [rest_add, h, List.drop_left]

theorem le_of_rest {t s : List Nat} (h : src.rest cur = t ++ s) (hle : cur ≤ src.len) :
    cur + t.length ≤ src.len := by
  have := congrArg List.length h
  rw [length_rest, List.length_append] at this
  omega

/-- Where a text that is left begins. -/
theorem pos_of_rest (hle : cur ≤ src.len) : cur = src.len - (src.rest cur).length := by
  rw [length_rest]
  omega

/-- The units of a prefix of the text left. -/
theorem read_of_rest {t s : List Nat} {i : Nat} (h : src.rest cur = t ++ s) (hi : i < t.length) :
    src.read (cur + i) = t[i] := by
  have hrest : src.rest (cur + i) = t[i] :: (t.drop (i + 1) ++ s) := by
    rw [rest_add, h, List.drop_append_of_le_length (Nat.le_of_lt hi), List.drop_eq_getElem_cons hi,
      List.cons_append]
  exact (rest_cons hrest).2.1

theorem Units32.read (h : src.Units32) (hlt : cur < src.len) : src.read cur < 2 ^ 32 := by
  rw [read_of_lt hlt]
  exact h _ (List.getElem_mem _)

/-- The test for a digit under the cursor. -/
theorem isDigit_read (hle : cur ≤ src.len) :
    digiIsDigit (src.read cur) = (src.rest cur).head?.any isDigit := by
  rw [digiIsDigit_eq, read_eq_headD hle]
  cases src.rest cur <;> rfl

theorem noDigit_read {s : List Nat} (hle : cur ≤ src.len) (h : src.rest cur = s) (hs : NoDigit s) :
    isDigit (src.read cur) = false := by
  rw [← digiIsDigit_eq, isDigit_read hle, h]
  exact hs

end Source

/-! ## The loops -/

variable {src : Source} {cur : Nat} {ds r : List Nat}

/-- `while (digi_is_digit(*cur)) cur++` stops behind the run. -/
theorem skipDigits_eq (hle : cur ≤ src.len) (h : src.rest cur = ds ++ r)
    (hds : ∀ d ∈ ds, isDigit d = true) (hr : NoDigit r) {fuel : Nat} (hfuel : ds.length < fuel) :
    skipDigits src fuel cur = cur + ds.length := by
  induction ds generalizing cur fuel with
  | nil =>
      obtain _ | fuel := fuel
      · rfl
      · rw [skipDigits, digiIsDigit_eq, Source.noDigit_read hle h hr]
        rfl
  | cons d ds ih =>
      obtain _ | fuel := fuel
      · cases hfuel
      obtain ⟨hlt, hread, hrest⟩ := Source.rest_cons h
      have hd := hds d List.mem_cons_self
      rw [skipDigits, hread, digiIsDigit_eq, if_pos hd, ih hlt hrest
        (fun d hd => hds d (List.mem_cons_of_mem _ hd)) (Nat.lt_of_succ_lt_succ hfuel),
        List.length_cons]
      omega

/-- `while (*cur == '0') cur++` stops behind the zeros. -/
theorem skipZeros_eq {n : Nat} (hle : cur ≤ src.len) (h : src.rest cur = List.replicate n 0x30 ++ r)
    (hr : ∀ c ∈ r.head?, c ≠ 0x30) {fuel : Nat} (hfuel : n < fuel) :
    skipZeros src fuel cur = cur + n := by
  induction n generalizing cur fuel with
  | zero =>
      obtain _ | fuel := fuel
      · rfl
      · have hne : src.read cur ≠ 0x30 := by
          rw [Source.read_eq_headD hle, h]
          cases r with
          | nil => decide
          | cons c r => exact hr c rfl
        rw [skipZeros, if_neg hne]
        rfl
  | succ n ih =>
      obtain _ | fuel := fuel
      · cases hfuel
      obtain ⟨hlt, hread, hrest⟩ := Source.rest_cons h
      rw [skipZeros, if_pos hread, ih hlt hrest (Nat.lt_of_succ_lt_succ hfuel)]
      omega

/-- `expr_intg` and `expr_frac` read so many digits of the run, and none is lost to an overflow. -/
theorem readDigits_eq (hunits : src.Units32) (hle : cur ≤ src.len) (h : src.rest cur = ds ++ r)
    (hds : ∀ d ∈ ds, isDigit d = true) (hr : NoDigit r) {left sig k : Nat} (hsig : sig < 10 ^ k)
    (hk : k + left ≤ 19) :
    readDigits src left cur sig =
      (cur + min left ds.length, (ds.take left).foldl addDigit sig) := by
  induction left generalizing cur ds sig k with
  | zero => simp [readDigits]
  | succ left ih =>
      cases ds with
      | nil =>
          have hnum : ¬ digitNum (src.read cur) ≤ 9 := by
            rcases Nat.lt_or_eq_of_le hle with hlt | rfl
            · rw [digitNum_le_iff (hunits.read hlt), Source.noDigit_read hle h hr]
              decide
            · rw [Source.read_len]
              decide
          simp only [readDigits]
          rw [if_neg hnum]
          simp
      | cons d ds =>
          obtain ⟨hlt, hread, hrest⟩ := Source.rest_cons h
          have hd := hds d List.mem_cons_self
          have hnum : digitNum d = d - 0x30 := digitNum_digit hd
          have hrange := isDigit_iff.mp hd
          have hpow : 10 ^ (k + 1) ≤ 10 ^ 19 := Nat.pow_le_pow_right (by decide) (by omega)
          have hnext : addDigit sig d < 10 ^ (k + 1) := by
            rw [Nat.pow_succ, addDigit]
            omega
          have hwrap : (d - 0x30 + sig * 10) % 2 ^ 64 = addDigit sig d := by
            rw [Nat.add_comm]
            exact Nat.mod_eq_of_lt (hnext.trans_le (hpow.trans (by decide)))
          simp only [readDigits]
          rw [hread, hnum, if_pos (by omega), hwrap, ih hlt hrest
            (fun d hd => hds d (List.mem_cons_of_mem _ hd)) hnext (by omega)]
          simp only [List.length_cons, List.take_succ_cons, List.foldl_cons, Prod.mk.injEq, and_true]
          omega

/-- The digits of an exponent are read to their end, and their value is kept when they are few. -/
theorem readExpLit_eq (hle : cur ≤ src.len) (h : src.rest cur = ds ++ r)
    (hds : ∀ d ∈ ds, isDigit d = true) (hr : NoDigit r) {fuel : Nat} (hfuel : ds.length < fuel)
    (lit : Nat) :
    readExpLit src fuel cur lit = (cur + ds.length, ds.foldl
      (fun lit d => (d - 0x30 + lit * 10) % 2 ^ 64) lit) := by
  induction ds generalizing cur fuel lit with
  | nil =>
      obtain _ | fuel := fuel
      · rfl
      · rw [readExpLit, digiIsDigit_eq, Source.noDigit_read hle h hr]
        rfl
  | cons d ds ih =>
      obtain _ | fuel := fuel
      · cases hfuel
      obtain ⟨hlt, hread, hrest⟩ := Source.rest_cons h
      have hd := hds d List.mem_cons_self
      rw [readExpLit, hread, digiIsDigit_eq, if_pos hd, digitNum_digit hd, ih hlt hrest
        (fun d hd => hds d (List.mem_cons_of_mem _ hd)) (Nat.lt_of_succ_lt_succ hfuel),
        List.length_cons, List.foldl_cons]
      congr 1
      omega

theorem foldl_expLit {k lit : Nat} (hds : ∀ d ∈ ds, isDigit d = true) (hlit : lit < 10 ^ k)
    (hk : k + ds.length ≤ 19) :
    ds.foldl (fun lit d => (d - 0x30 + lit * 10) % 2 ^ 64) lit = ds.foldl addDigit lit := by
  induction ds generalizing lit k with
  | nil => rfl
  | cons d ds ih =>
      have hd := isDigit_iff.mp (hds d List.mem_cons_self)
      rw [List.length_cons] at hk
      have hpow : 10 ^ (k + 1) ≤ 10 ^ 19 := Nat.pow_le_pow_right (by decide) (by omega)
      have hnext : addDigit lit d < 10 ^ (k + 1) := by
        rw [Nat.pow_succ, addDigit]
        omega
      have hwrap : (d - 0x30 + lit * 10) % 2 ^ 64 = addDigit lit d := by
        rw [Nat.add_comm]
        exact Nat.mod_eq_of_lt (hnext.trans_le (hpow.trans (by decide)))
      rw [List.foldl_cons, List.foldl_cons, hwrap]
      exact ih (fun d hd => hds d (List.mem_cons_of_mem _ hd)) hnext (by omega)

/-- `while (*tmp == '0' || *tmp == '.') tmp--` passes a position exactly when nothing else stands
from there on. -/
theorem backOverZeros_lt {tmp cut : Nat} (hcut : 0 < cut) :
    backOverZeros src tmp < cut ↔
      ∀ i, cut ≤ i → i ≤ tmp → src.read i = 0x30 ∨ src.read i = 0x2E := by
  induction tmp with
  | zero =>
      rw [backOverZeros]
      exact ⟨fun _ i h₁ h₂ => by omega, fun _ => hcut⟩
  | succ tmp ih =>
      rw [backOverZeros]
      split
      · rename_i hzero
        rw [ih]
        constructor
        · intro h i h₁ h₂
          rcases Nat.lt_or_eq_of_le h₂ with hlt | rfl
          · exact h i h₁ (Nat.le_of_lt_succ hlt)
          · exact hzero
        · intro h i h₁ h₂
          exact h i h₁ (by omega)
      · rename_i hzero
        constructor
        · intro h i h₁ h₂
          omega
        · intro h
          by_contra hge
          exact hzero (h (tmp + 1) (by omega) (Nat.le_refl _))

end SsrJson.Decode
