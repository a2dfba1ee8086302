import Mathlib.Algebra.Order.Field.Basic
import Mathlib.Algebra.Order.Field.Power
import Mathlib.Algebra.Order.Field.Rat
import Mathlib.Tactic.Linarith
import Mathlib.Tactic.Positivity
import Mathlib.Tactic.Ring
import SsrJson.Library.Binary64

/-!
# The values of doubles

The bits of nonnegative doubles have rational values, with the value that would come next for
infinity. A double is the right one for a number if no other is closer to it, and if its bits are
even where another is as close. The numbers halfway between neighbours decide that.
-/

namespace SsrJson.Binary64

/-- The value of the double with these bits; that of infinity is where overflow begins. -/
def value (raw : Nat) : ℚ := significand raw * 2 ^ lastPlace raw

/-- The number halfway to the next double. -/
def halfway (raw : Nat) : ℚ := ((2 * significand raw + 1 : Nat) : ℚ) * 2 ^ (lastPlace raw - 1)

/-- `raw` are the bits of the double nearest to `x`, ties to even. -/
structure Nearest (x : ℚ) (raw : Nat) : Prop where
  le : raw ≤ infRaw
  near : ∀ r ≤ infRaw, |x - value raw| ≤ |x - value r|
  even : ∀ r ≤ infRaw, r ≠ raw → |x - value r| = |x - value raw| → raw % 2 = 0

/-! ## Significands and places -/

/-- A significand of at most 53 bits at a place that doubles have, with all bits there unless the
place is the lowest one. -/
def OnGrid (sig : Nat) (place : Int) : Prop :=
  sig ≤ 2 ^ 53 ∧ -1074 ≤ place ∧ (2 ^ 52 ≤ sig ∨ place = -1074)

/-- The bits of a significand at a place. -/
def rawOf (sig : Nat) (place : Int) : Nat := (place + 1074).toNat * 2 ^ 52 + sig

theorem rawOf_succ (sig : Nat) (place : Int) : rawOf sig place + 1 = rawOf (sig + 1) place :=
  Nat.add_assoc _ _ _

/-- The bits of a double come from its significand and its place. -/
theorem rawOf_significand (raw : Nat) : rawOf (significand raw) (lastPlace raw) = raw := by
  unfold rawOf significand lastPlace
  split <;> omega

theorem onGrid_significand (raw : Nat) : OnGrid (significand raw) (lastPlace raw) ∧
    significand raw < 2 ^ 53 := by
  unfold OnGrid significand lastPlace
  split <;> omega

/-- What is on the grid has its value, also where the significand runs over. -/
theorem value_rawOf {sig : Nat} {place : Int} (h : OnGrid sig place) :
    value (rawOf sig place) = sig * 2 ^ place := by
  obtain ⟨hle, hplace, hfull⟩ := h
  obtain ⟨n, rfl⟩ : ∃ n : Nat, place = n - 1074 := ⟨(place + 1074).toNat, by omega⟩
  have hraw : rawOf sig (n - 1074) = n * 2 ^ 52 + sig := by
    unfold rawOf
    rw [show ((n : Int) - 1074 + 1074).toNat = n by omega]
  rw [hraw, value]
  rcases Nat.lt_or_ge sig (2 ^ 53) with hlt | hge
  · have hsig : significand (n * 2 ^ 52 + sig) = sig := by
      unfold significand
      split <;> omega
    have hlast : lastPlace (n * 2 ^ 52 + sig) = n - 1074 := by
      unfold lastPlace
      omega
    rw [hsig, hlast]
  · -- The significand is a power of two, and the next place has half of it.
    obtain rfl : sig = 2 ^ 53 := by omega
    have hsig : significand (n * 2 ^ 52 + 2 ^ 53) = 2 ^ 52 := by
      unfold significand
      split <;> omega
    have hlast : lastPlace (n * 2 ^ 52 + 2 ^ 53) = (n - 1074) + 1 := by
      unfold lastPlace
      omega
    have hpow : ((2 ^ 53 : Nat) : ℚ) = (2 ^ 52 : Nat) * 2 := by norm_num
    rw [hsig, hlast, zpow_add_one₀ (by norm_num), hpow, mul_assoc, mul_comm (2 : ℚ)]

/-- The next double is one last place further on. -/
theorem value_succ (raw : Nat) : value (raw + 1) = value raw + 2 ^ lastPlace raw := by
  obtain ⟨⟨hle, hplace, hfull⟩, hlt⟩ := onGrid_significand raw
  have hnext : OnGrid (significand raw + 1) (lastPlace raw) :=
    ⟨hlt, hplace, hfull.imp_left Nat.le_succ_of_le⟩
  have hraw : raw + 1 = rawOf (significand raw + 1) (lastPlace raw) := by
    rw [← rawOf_succ, rawOf_significand]
  rw [hraw, value_rawOf hnext, value]
  push_cast
  ring

theorem value_lt_succ (raw : Nat) : value raw < value (raw + 1) := by
  have hpos : (0 : ℚ) < 2 ^ lastPlace raw := by positivity
  rw [value_succ]
  linarith

theorem value_strictMono : StrictMono value := strictMono_nat_of_lt_succ value_lt_succ

theorem halfway_eq (raw : Nat) : halfway raw = value raw + 2 ^ lastPlace raw / 2 := by
  rw [halfway, value, zpow_sub_one₀ (by norm_num)]
  push_cast
  ring

/-- The number halfway between two neighbours. -/
theorem two_mul_halfway (raw : Nat) : 2 * halfway raw = value raw + value (raw + 1) := by
  rw [halfway_eq, value_succ]
  ring

theorem value_lt_halfway (raw : Nat) : value raw < halfway raw := by
  have hlt := value_lt_succ raw
  have htwo := two_mul_halfway raw
  linarith

theorem halfway_lt_value (raw : Nat) : halfway raw < value (raw + 1) := by
  have hlt := value_lt_succ raw
  have htwo := two_mul_halfway raw
  linarith

/-! ## The nearest double -/

/-- A number up to the middle is nearer to the lower of two doubles. -/
theorem near_of_le {a b x : ℚ} (hab : a < b) (hx : 2 * x ≤ a + b) :
    |x - a| ≤ |x - b| ∧ (|x - b| = |x - a| → 2 * x = a + b) := by
  have hb : |x - b| = b - x := by
    rw [abs_of_nonpos (by linarith)]
    ring
  rw [hb]
  rcases abs_cases (x - a) with ⟨h, -⟩ | ⟨h, -⟩ <;> rw [h]
  · exact ⟨by linarith, fun h => by linarith⟩
  · exact ⟨by linarith, fun h => by linarith⟩

/-- A number from the middle on is nearer to the upper one. -/
theorem near_of_ge {a b x : ℚ} (hab : a < b) (hx : a + b ≤ 2 * x) :
    |x - b| ≤ |x - a| ∧ (|x - a| = |x - b| → 2 * x = a + b) := by
  have ha : |x - a| = x - a := abs_of_nonneg (by linarith)
  rw [ha]
  rcases abs_cases (x - b) with ⟨h, -⟩ | ⟨h, -⟩ <;> rw [h]
  · exact ⟨by linarith, fun h => by linarith⟩
  · exact ⟨by linarith, fun h => by linarith⟩

/-- The middles to both sides make a double the nearest one. -/
theorem nearest_of {x : ℚ} {raw : Nat} (hle : raw ≤ infRaw)
    (hlow : ∀ r, r + 1 = raw → halfway r ≤ x ∧ (x = halfway r → raw % 2 = 0))
    (hhigh : raw < infRaw → x ≤ halfway raw ∧ (x = halfway raw → raw % 2 = 0)) :
    Nearest x raw := by
  have hside : ∀ r ≤ infRaw, r ≠ raw → |x - value raw| ≤ |x - value r| ∧
      (|x - value r| = |x - value raw| → raw % 2 = 0) := by
    intro r hr hne
    rcases Nat.lt_or_gt_of_ne hne with hlt | hgt
    · obtain ⟨q, rfl⟩ : ∃ q, q + 1 = raw := ⟨raw - 1, by omega⟩
      obtain ⟨hx, heven⟩ := hlow q rfl
      have htwo := two_mul_halfway q
      have hle : value r ≤ value q := value_strictMono.monotone (by omega)
      obtain ⟨hnear, htie⟩ := near_of_ge (value_strictMono hlt) (show _ ≤ 2 * x by linarith)
      refine ⟨hnear, fun heq => heven ?_⟩
      have hmid := htie heq
      linarith
    · obtain ⟨hx, heven⟩ := hhigh (hgt.trans_le hr)
      have htwo := two_mul_halfway raw
      have hle : value (raw + 1) ≤ value r := value_strictMono.monotone hgt
      obtain ⟨hnear, htie⟩ := near_of_le (value_strictMono hgt) (show 2 * x ≤ _ by linarith)
      refine ⟨hnear, fun heq => heven ?_⟩
      have hmid := htie heq
      linarith
  refine ⟨hle, fun r hr => ?_, fun r hr hne => (hside r hr hne).2⟩
  by_cases hne : r = raw
  · rw [hne]
  · exact (hside r hr hne).1

/-- What the nearest double says about the middle above it. -/
theorem Nearest.le_halfway {x : ℚ} {raw : Nat} (h : Nearest x raw) (hlt : raw < infRaw) :
    x ≤ halfway raw ∧ (x = halfway raw → raw % 2 = 0) := by
  have htwo := two_mul_halfway raw
  have hnear := h.near (raw + 1) hlt
  have hle : x ≤ halfway raw := by
    by_contra hgt
    have hfar := near_of_ge (value_lt_succ raw) (show _ ≤ 2 * x by linarith)
    have hmid := hfar.2 (le_antisymm hnear hfar.1)
    linarith
  refine ⟨hle, fun heq => h.even (raw + 1) hlt (Nat.succ_ne_self raw) ?_⟩
  have hupper := near_of_ge (value_lt_succ raw) (show _ ≤ 2 * x by linarith)
  exact le_antisymm hupper.1 hnear

/-- What the nearest double says about the middle below it. -/
theorem Nearest.halfway_le {x : ℚ} {raw : Nat} (h : Nearest x (raw + 1)) :
    halfway raw ≤ x ∧ (x = halfway raw → (raw + 1) % 2 = 0) := by
  have htwo := two_mul_halfway raw
  have hr : raw ≤ infRaw := Nat.le_of_succ_le h.le
  have hnear := h.near raw hr
  have hle : halfway raw ≤ x := by
    by_contra hgt
    have hfar := near_of_le (value_lt_succ raw) (show 2 * x ≤ _ by linarith)
    have hmid := hfar.2 (le_antisymm hnear hfar.1)
    linarith
  refine ⟨hle, fun heq => h.even raw hr (Nat.succ_ne_self raw).symm ?_⟩
  have hlower := near_of_le (value_lt_succ raw) (show 2 * x ≤ _ by linarith)
  exact le_antisymm hlower.1 hnear

/-- Strictly between the middles to both sides. -/
theorem nearest_between {x : ℚ} {raw : Nat} (hraw : raw ≤ infRaw)
    (hlow : ∀ r, r + 1 = raw → halfway r < x) (hhigh : raw < infRaw → x < halfway raw) :
    Nearest x raw :=
  nearest_of hraw (fun r hr => ⟨(hlow r hr).le, fun h => absurd h (hlow r hr).ne'⟩)
    fun hlt => ⟨(hhigh hlt).le, fun h => absurd h (hhigh hlt).ne⟩

theorem halfway_strictMono : StrictMono halfway :=
  strictMono_nat_of_lt_succ fun raw => (halfway_lt_value raw).trans (value_lt_halfway (raw + 1))

/-- No number has two nearest doubles. -/
theorem Nearest.unique {x : ℚ} {raw raw' : Nat} (h : Nearest x raw) (h' : Nearest x raw') :
    raw = raw' := by
  have hnot : ∀ {r r' : Nat}, Nearest x r → Nearest x r' → ¬ r < r' := by
    intro r r' h h' hlt
    obtain ⟨q, rfl⟩ : ∃ q, r' = q + 1 := ⟨r' - 1, by omega⟩
    obtain ⟨hhigh, heven⟩ := h.le_halfway (hlt.trans_le h'.le)
    obtain ⟨hlow, heven'⟩ := h'.halfway_le
    have hle : halfway r ≤ halfway q := halfway_strictMono.monotone (Nat.le_of_lt_succ hlt)
    -- Both are at the one middle between them, and both are even.
    have hmid : x = halfway q := le_antisymm (hhigh.trans hle) hlow
    have hsame : r = q := halfway_strictMono.injective (by linarith)
    subst hsame
    have := heven hmid
    have := heven' hmid
    omega
  exact Nat.le_antisymm (Nat.le_of_not_lt (hnot h' h)) (Nat.le_of_not_lt (hnot h h'))

/-- Every number has a nearest double. -/
theorem exists_nearest (x : ℚ) : ∃ raw, Nearest x raw := by
  classical
  have hsome : ∃ r, r = infRaw ∨ x ≤ halfway r := ⟨infRaw, .inl rfl⟩
  obtain ⟨r, hr, hleast⟩ : ∃ r, (r = infRaw ∨ x ≤ halfway r) ∧
      ∀ q < r, ¬ (q = infRaw ∨ x ≤ halfway q) :=
    ⟨Nat.find hsome, Nat.find_spec hsome, fun q => Nat.find_min hsome⟩
  have hle : r ≤ infRaw := Nat.le_of_not_lt fun hlt => hleast _ hlt (.inl rfl)
  have hlow : ∀ q, q + 1 = r → halfway q < x := fun q hq =>
    lt_of_not_ge fun h => hleast q (by omega) (.inr h)
  by_cases htie : r < infRaw ∧ x = halfway r ∧ r % 2 ≠ 0
  · -- The middle above an odd double belongs to the next one.
    obtain ⟨hlt, hx, hodd⟩ := htie
    refine ⟨r + 1, nearest_of hlt (fun q hq => ?_) fun _ => ?_⟩
    · obtain rfl : q = r := Nat.succ.inj hq
      exact ⟨hx.ge, fun _ => by omega⟩
    · have hmore := halfway_strictMono (Nat.lt_succ_self r)
      exact ⟨hx.trans_le hmore.le, fun h => by omega⟩
  · refine ⟨r, nearest_of hle (fun q hq => ⟨(hlow q hq).le, fun h => absurd h (hlow q hq).ne'⟩)
      fun hlt => ⟨hr.resolve_left hlt.ne, fun h => ?_⟩⟩
    by_contra hodd
    exact htie ⟨hlt, h, hodd⟩

/-! ## Numbers near the grid -/

section Grid

variable {M : Nat} {place : Int}

/-- The double on the grid has the place of the grid or, if its significand runs over, the next. -/
theorem lastPlace_rawOf (h : OnGrid M place) : place ≤ lastPlace (rawOf M place) ∧
    (M < 2 ^ 53 → lastPlace (rawOf M place) = place) ∧
    ∀ r, r + 1 = rawOf M place → place - 1 ≤ lastPlace r := by
  obtain ⟨hle, hplace, hfull⟩ := h
  obtain ⟨n, rfl⟩ : ∃ n : Nat, place = n - 1074 := ⟨(place + 1074).toNat, by omega⟩
  have hraw : rawOf M (n - 1074) = n * 2 ^ 52 + M := by
    unfold rawOf
    rw [show ((n : Int) - 1074 + 1074).toNat = n by omega]
  rw [hraw]
  unfold lastPlace
  refine ⟨by omega, fun _ => by omega, fun r hr => by omega⟩

theorem halfway_rawOf (h : OnGrid M place) (hlt : M < 2 ^ 53) :
    halfway (rawOf M place) = (M + 1 / 2) * 2 ^ place := by
  rw [halfway_eq, value_rawOf h, (lastPlace_rawOf h).2.1 hlt]
  ring

/-- A quarter of a last place below a double there is at most the middle below it. -/
theorem halfway_below (h : OnGrid M place) {r : Nat} (hr : r + 1 = rawOf M place) :
    halfway r ≤ (M - 1 / 4) * 2 ^ place := by
  have hsucc := value_succ r
  rw [hr, value_rawOf h] at hsucc
  have hpow : (2 : ℚ) ^ (place - 1) ≤ 2 ^ lastPlace r :=
    zpow_le_zpow_right₀ (by norm_num) ((lastPlace_rawOf h).2.2 r hr)
  rw [zpow_sub_one₀ (by norm_num)] at hpow
  rw [halfway_eq]
  linarith

/-- A number just above the grid, or a little below it, rounds down to it. -/
theorem nearest_down {x : ℚ} (h : OnGrid M place) (hlt : M < 2 ^ 53)
    (hlow : (M - 1 / 4) * 2 ^ place < x) (hhigh : x < (M + 1 / 2) * 2 ^ place) :
    Nearest x (min (rawOf M place) infRaw) := by
  rcases Nat.lt_or_ge infRaw (rawOf M place) with hover | hle
  · -- Beyond infinity there is nothing left to round to.
    rw [Nat.min_eq_right hover.le]
    obtain ⟨q, hq⟩ : ∃ q, q + 1 = rawOf M place := ⟨rawOf M place - 1, by omega⟩
    refine nearest_between (Nat.le_refl _) (fun r hr => ?_) (fun hlt => absurd hlt (lt_irrefl _))
    have hbelow := halfway_below h hq
    have hmono : value (r + 1) ≤ value q := value_strictMono.monotone (by omega)
    have hr' := halfway_lt_value r
    have hq' := value_lt_halfway q
    linarith
  · rw [Nat.min_eq_left hle]
    refine nearest_between hle (fun r hr => (halfway_below h hr).trans_lt hlow) fun _ => ?_
    rw [halfway_rawOf h hlt]
    exact hhigh

/-- A number above the middle rounds up. -/
theorem nearest_up {x : ℚ} (h : OnGrid M place) (hlt : M < 2 ^ 53)
    (hlow : (M + 1 / 2) * 2 ^ place < x) (hhigh : x < (M + 1 + 1 / 4) * 2 ^ place) :
    Nearest x (min (rawOf (M + 1) place) infRaw) := by
  have hnext : OnGrid (M + 1) place := ⟨hlt, h.2.1, h.2.2.imp_left Nat.le_succ_of_le⟩
  rw [← rawOf_succ]
  have hmid := halfway_rawOf h hlt
  rcases Nat.lt_or_ge (rawOf M place) infRaw with hfinite | hover
  · rw [Nat.min_eq_left (show rawOf M place + 1 ≤ infRaw from hfinite)]
    refine nearest_between hfinite (fun r hr => ?_) fun _ => ?_
    · rw [Nat.succ.inj hr, hmid]
      exact hlow
    · have hpow : (2 : ℚ) ^ place ≤ 2 ^ lastPlace (rawOf (M + 1) place) :=
        zpow_le_zpow_right₀ (by norm_num) (lastPlace_rawOf hnext).1
      rw [rawOf_succ, halfway_eq, value_rawOf hnext]
      have hpos : (0 : ℚ) < 2 ^ place := by positivity
      push_cast
      linarith
  · rw [Nat.min_eq_right (by omega)]
    refine nearest_between (Nat.le_refl _) (fun r hr => ?_) (fun hlt => absurd hlt (lt_irrefl _))
    have hmono : value (r + 1) ≤ value (rawOf M place) := value_strictMono.monotone (by omega)
    have hr' := halfway_lt_value r
    have hraw := value_lt_halfway (rawOf M place)
    linarith

end Grid

end SsrJson.Binary64
