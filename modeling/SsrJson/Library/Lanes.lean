import Mathlib.Data.List.Basic

/-!
# Vector lanes

A vector of `width` lanes compared with something gives one bit a lane. What the code asks of such
a mask is the first lane set, or that none is. `firstLane` is that question and `firstLane_eq_some`
and `firstLane_eq_none` say what each answer means.
-/

namespace SsrJson

/-- The first of `width` lanes that satisfies `p`. -/
def firstLane (width : Nat) (p : Nat → Bool) : Option Nat :=
  (List.range width).find? p

/-- No lane is set. -/
theorem firstLane_eq_none {width : Nat} {p : Nat → Bool} :
    firstLane width p = none ↔ ∀ i < width, p i = false := by
  simp [firstLane, List.find?_eq_none]

/-- The answer is the first lane set. -/
theorem firstLane_eq_some {width : Nat} {p : Nat → Bool} {i : Nat} :
    firstLane width p = some i ↔ i < width ∧ p i = true ∧ ∀ j < i, p j = false := by
  unfold firstLane
  rw [List.find?_range_eq_some]
  constructor
  · rintro ⟨hp, hi, hlt⟩
    exact ⟨List.mem_range.mp hi, hp, fun j hj => by simpa using hlt j hj⟩
  · rintro ⟨hi, hp, hlt⟩
    exact ⟨hp, List.mem_range.mpr hi, fun j hj => by simpa using hlt j hj⟩

/-- Lanes behind one that is set do not matter. -/
theorem firstLane_congr_stop {width stop : Nat} {p q : Nat → Bool} (h : ∀ i ≤ stop, p i = q i)
    (hstop : p stop = true) : firstLane width p = firstLane width q := by
  have hset : q stop = true := by
    rwa [← h stop (Nat.le_refl stop)]
  cases hq : firstLane width q with
  | none =>
      rw [firstLane_eq_none] at hq ⊢
      intro i hi
      rcases Nat.lt_or_ge stop i with hlt | hle
      · have hfalse := hq stop (by omega)
        rw [hset] at hfalse
        cases hfalse
      · rw [h i hle]
        exact hq i hi
  | some i =>
      obtain ⟨hi, hset', hlow⟩ := firstLane_eq_some.mp hq
      have hle : i ≤ stop := by
        refine Nat.le_of_not_lt fun hlt => ?_
        rw [hlow stop hlt] at hset
        cases hset
      exact firstLane_eq_some.mpr
        ⟨hi, (h i hle).trans hset', fun j hj => (h j (by omega)).trans (hlow j hj)⟩

/-- Only the lanes asked for matter. -/
theorem firstLane_congr {width : Nat} {p q : Nat → Bool} (h : ∀ i < width, p i = q i) :
    firstLane width p = firstLane width q := by
  cases hq : firstLane width q with
  | none =>
      rw [firstLane_eq_none] at hq ⊢
      exact fun i hi => (h i hi).trans (hq i hi)
  | some i =>
      obtain ⟨hi, hset, hlow⟩ := firstLane_eq_some.mp hq
      exact firstLane_eq_some.mpr
        ⟨hi, (h i hi).trans hset, fun j hj => (h j (Nat.lt_trans hj hi)).trans (hlow j hj)⟩

end SsrJson
