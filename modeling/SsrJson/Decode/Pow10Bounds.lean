import Mathlib.Algebra.Order.Field.Basic
import Mathlib.Algebra.Order.Field.Power
import Mathlib.Algebra.Order.Field.Rat
import Mathlib.Tactic.Positivity
import Mathlib.Tactic.Ring
import SsrJson.Decode.Number

/-!
# The table of powers of ten

An entry of the table is the power of ten cut off behind its highest 128 bits. What that says about
the power of ten is checked for every entry, with whole numbers, and stated for rational ones.
-/

namespace SsrJson.Decode

/-- An entry as one number of 128 bits. -/
def pow10Sig (e : Int) : Nat := (pow10TableGetSig e).1 * 2 ^ 64 + (pow10TableGetSig e).2

/-- The exponent that belongs to it. -/
def pow10Place (e : Int) : Int := pow10TableGetExp e - 64

/-- What is checked of an entry: its halves are 64 bits wide and the leading bit is set, it is the
power of ten cut off, and rounding its upper half does not overflow. -/
def EntryOk (e : Int) (s : Nat × Nat) : Prop :=
  2 ^ 63 ≤ s.1 ∧ s.2 < 2 ^ 64 ∧ s.1 + s.2 / 2 ^ 63 < 2 ^ 64 ∧
    (s.1 * 2 ^ 64 + s.2) * 2 ^ (pow10Place e).toNat * 10 ^ (-e).toNat ≤
      10 ^ e.toNat * 2 ^ (-pow10Place e).toNat ∧
    10 ^ e.toNat * 2 ^ (-pow10Place e).toNat <
      (s.1 * 2 ^ 64 + s.2 + 1) * 2 ^ (pow10Place e).toNat * 10 ^ (-e).toNat

instance (e : Int) (s : Nat × Nat) : Decidable (EntryOk e s) := inferInstanceAs (Decidable (_ ∧ _))

theorem entryOk_all : ∀ x ∈ pow10SigTable.zipIdx, EntryOk (x.2 - 343) x.1 := by
  decide +kernel

/-- The entry of a power of ten. -/
abbrev Pow10Entry (e : Int) : Prop := EntryOk e (pow10TableGetSig e)

/-- The exponents that the reader looks up. -/
theorem pow10Entry {e : Int} (hlow : -343 ≤ e) (hhigh : e ≤ 308) : Pow10Entry e := by
  have hlt : (e + 343).toNat < pow10SigTable.length := by
    have hlength : pow10SigTable.length = 668 := by decide +kernel
    omega
  have hmem : (pow10SigTable[(e + 343).toNat], (e + 343).toNat) ∈ pow10SigTable.zipIdx :=
    List.mk_mem_zipIdx_iff_getElem?.mpr (List.getElem?_eq_getElem hlt)
  have h := entryOk_all _ hmem
  rw [show (((e + 343).toNat : Nat) : Int) - 343 = e by omega] at h
  unfold Pow10Entry pow10TableGetSig
  rwa [List.getD_eq_getElem?_getD, List.getElem?_eq_getElem hlt]

theorem zpow_toNat {b : ℚ} (hb : b ≠ 0) (e : Int) : b ^ e = b ^ e.toNat / b ^ (-e).toNat := by
  rw [eq_div_iff (pow_ne_zero _ hb), ← zpow_natCast, ← zpow_natCast, ← zpow_add₀ hb]
  congr 1
  omega

/-- The entry as bounds of the power of ten. -/
theorem Pow10Entry.bounds {e : Int} (h : Pow10Entry e) :
    (pow10Sig e * 2 ^ pow10Place e : ℚ) ≤ 10 ^ e ∧
      (10 ^ e : ℚ) < (pow10Sig e + 1) * 2 ^ pow10Place e := by
  obtain ⟨-, -, -, hle, hlt⟩ := h
  change pow10Sig e * _ * _ ≤ _ at hle
  change _ < (pow10Sig e + 1) * _ * _ at hlt
  have hcast : ∀ {a b : Nat}, a ≤ b → (a : ℚ) ≤ b := fun h => by exact_mod_cast h
  have hcast' : ∀ {a b : Nat}, a < b → (a : ℚ) < b := fun h => by exact_mod_cast h
  have hle := hcast hle
  have hlt := hcast' hlt
  push_cast at hle hlt
  rw [zpow_toNat (show (2 : ℚ) ≠ 0 by norm_num) (pow10Place e),
    zpow_toNat (show (10 : ℚ) ≠ 0 by norm_num) e, ← mul_div_assoc, ← mul_div_assoc]
  exact ⟨(div_le_div_iff₀ (by positivity) (by positivity)).mpr hle,
    (div_lt_div_iff₀ (by positivity) (by positivity)).mpr hlt⟩


end SsrJson.Decode
