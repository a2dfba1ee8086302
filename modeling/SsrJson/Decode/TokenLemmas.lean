import SsrJson.Decode.Tokens
import SsrJson.Spec.GrammarLemmas

/-!
# What the small readers read

The positions of the readers are related to the text left at them: a skipper takes white space
off, a literal reader takes its literal off or leaves the cursor alone.
-/

namespace SsrJson.Decode

open Spec

namespace Source

variable {src : Source} {cur : Nat}

theorem read_of_lt (h : cur < src.len) : src.read cur = src.units[cur] := dif_pos h

@[simp] theorem read_len : src.read src.len = 0 := by
  simp [read, len]

@[simp] theorem rest_len : src.rest src.len = [] := List.drop_length

theorem rest_zero : src.rest 0 = src.units := rfl

/-- The unit under the cursor and the ones behind it. -/
theorem rest_of_lt (h : cur < src.len) : src.rest cur = src.read cur :: src.rest (cur + 1) := by
  rw [rest, List.drop_eq_getElem_cons h, read_of_lt h, rest]

/-- A cursor at a character that is not zero is before the end. -/
theorem lt_of_read (hle : cur ≤ src.len) (h : src.read cur ≠ 0) : cur < src.len := by
  rcases Nat.lt_or_eq_of_le hle with hlt | rfl
  · exact hlt
  · exact absurd read_len h

theorem rest_of_read {c : Nat} (hle : cur ≤ src.len) (h : src.read cur = c) (hc : c ≠ 0) :
    src.rest cur = c :: src.rest (cur + 1) := by
  rw [rest_of_lt (lt_of_read hle (h ▸ hc)), h]

/-- The character under the cursor is the first one left, if any is left. -/
theorem read_of_head {c : Nat} (hle : cur ≤ src.len) (h : c ∈ (src.rest cur).head?) :
    src.read cur = c := by
  rcases Nat.lt_or_eq_of_le hle with hlt | rfl
  · rw [rest_of_lt hlt] at h
    exact Option.some.inj h
  · simp at h

theorem length_rest : (src.rest cur).length = src.len - cur := List.length_drop

theorem rest_add {n : Nat} : src.rest (cur + n) = (src.rest cur).drop n := by
  simp [rest]

end Source

/-! ## Character classes -/

theorem wrappedCharIsSpace_eq (c : Nat) : wrappedCharIsSpace c = isWs c := by
  by_cases hc : c < 256
  · revert c
    decide +kernel
  · have hws : isWs c = false := by
      simp only [isWs, Bool.or_eq_false_iff, beq_eq_false_iff_ne]
      omega
    simp [wrappedCharIsSpace, hws, show ¬ c ≤ 0xFF by omega]

theorem charIsNumber_iff {c : Nat} :
    charIsNumber c = true ↔ c % 256 = 0x2D ∨ isDigit (c % 256) = true := by
  have h : ∀ d < 256, (charTypeTable.getD d 0 &&& 0x02 != 0) = (d == 0x2D || isDigit d) := by
    decide +kernel
  rw [charIsNumber, charIsType, h _ (Nat.mod_lt _ (by decide))]
  simp

/-! ## White space -/

variable {src : Source} {cur : Nat}

/-- A skipper went from `cur` to `cur'` over white space and did not pass the end. -/
structure Skips (src : Source) (cur cur' : Nat) : Prop where
  le : cur ≤ cur'
  bound : cur' ≤ src.len
  ws : Ws (src.rest cur) (src.rest cur')

namespace Skips

theorem refl (h : cur ≤ src.len) : Skips src cur cur := ⟨Nat.le_refl _, h, .nil _⟩

theorem trans {cur₁ cur₂ cur₃ : Nat} (h : Skips src cur₁ cur₂) (h' : Skips src cur₂ cur₃) :
    Skips src cur₁ cur₃ :=
  ⟨h.le.trans h'.le, h'.bound, h.ws.trans h'.ws⟩

/-- One character of white space. -/
theorem one (hle : cur ≤ src.len) (h : isWs (src.read cur) = true) : Skips src cur (cur + 1) := by
  have hne : src.read cur ≠ 0 := by
    intro h0
    simp [h0, isWs] at h
  refine ⟨Nat.le_succ _, Source.lt_of_read hle hne, ?_⟩
  rw [Source.rest_of_read hle rfl hne]
  exact .cons h (.nil _)

/-- A run of white space. -/
theorem run {n : Nat} (hle : cur ≤ src.len) (h : ∀ i < n, isWs (src.read (cur + i)) = true) :
    Skips src cur (cur + n) := by
  induction n with
  | zero => exact refl hle
  | succ n ih =>
      have hrun := ih fun i hi => h i (by omega)
      exact hrun.trans (one hrun.bound (h n (by omega)))

end Skips

theorem skipSpaces_skips (fuel : Nat) (hle : cur ≤ src.len) :
    Skips src cur (skipSpaces src fuel cur) := by
  induction fuel generalizing cur with
  | zero => exact .refl hle
  | succ fuel ih =>
      unfold skipSpaces
      split
      · rename_i hspace
        have hone := Skips.one hle (wrappedCharIsSpace_eq _ ▸ hspace)
        exact hone.trans (ih hone.bound)
      · exact .refl hle

/-- With the distance to the end as fuel, nothing but the first other character stops it. -/
theorem skipSpaces_stops {fuel : Nat} (hle : cur ≤ src.len) (hfuel : src.len - cur ≤ fuel) :
    isWs (src.read (skipSpaces src fuel cur)) = false := by
  induction fuel generalizing cur with
  | zero =>
      obtain rfl : cur = src.len := by omega
      rw [skipSpaces, Source.read_len]
      rfl
  | succ fuel ih =>
      unfold skipSpaces
      split
      · rename_i hspace
        have hone := Skips.one hle (wrappedCharIsSpace_eq _ ▸ hspace)
        exact ih hone.bound (by omega)
      · rename_i hspace
        rwa [wrappedCharIsSpace_eq, Bool.not_eq_true] at hspace

theorem skipConsecutiveSpaces_skips (hle : cur ≤ src.len)
    (hspace : wrappedCharIsSpace (src.read cur) = true) :
    Skips src cur (skipConsecutiveSpaces src cur) ∧ cur < skipConsecutiveSpaces src cur := by
  have hone := Skips.one hle (wrappedCharIsSpace_eq _ ▸ hspace)
  have hskip := skipSpaces_skips (src.len - cur) hone.bound
  exact ⟨hone.trans hskip, hskip.le⟩

theorem skipConsecutiveSpaces_stops (hle : cur ≤ src.len)
    (hspace : wrappedCharIsSpace (src.read cur) = true) :
    isWs (src.read (skipConsecutiveSpaces src cur)) = false := by
  have hone := Skips.one hle (wrappedCharIsSpace_eq _ ▸ hspace)
  exact skipSpaces_stops hone.bound (by omega)

/-- A window that matches a template holds its units. -/
theorem matchUnits_iff {template : List Nat} :
    matchUnits src cur template = true ↔
      ∀ i, (h : i < template.length) → src.read (cur + i) = template[i] := by
  simp only [matchUnits, decide_eq_true_eq]
  constructor
  · intro h i hi
    have := congrArg (·[i]?) h
    simpa [List.getElem?_eq_getElem hi, hi] using this
  · intro h
    refine List.ext_getElem (by simp) fun i h₁ h₂ => ?_
    simpa using h i h₂

/-- A match of units none of which is zero is a prefix of the text left. -/
theorem matchUnits_rest {template : List Nat} (hle : cur ≤ src.len) (hne : ∀ c ∈ template, c ≠ 0) :
    matchUnits src cur template = true ↔ src.rest cur = template ++ src.rest (cur + template.length) := by
  rw [matchUnits_iff]
  induction template generalizing cur with
  | nil => simp
  | cons c template ih =>
      have hc : c ≠ 0 := hne c List.mem_cons_self
      constructor
      · intro h
        have h0 : src.read cur = c := h 0 (by simp)
        have hlt : cur < src.len := Source.lt_of_read hle (h0 ▸ hc)
        have htail : ∀ i, (hi : i < template.length) → src.read (cur + 1 + i) = template[i] := by
          intro i hi
          have := h (i + 1) (by simpa using hi)
          rwa [← Nat.add_assoc, Nat.add_right_comm] at this
        have hrest := (ih hlt fun d hd => hne d (List.mem_cons_of_mem c hd)).mp htail
        have hpos : cur + (c :: template).length = cur.succ + template.length := by
          simp only [List.length_cons]
          omega
        rw [Source.rest_of_lt hlt, h0, hrest, hpos, List.cons_append]
      · intro h i hi
        have hlt : cur < src.len := by
          by_contra hge
          obtain rfl : cur = src.len := by omega
          simp at h
        rw [Source.rest_of_lt hlt, List.cons_append, List.cons.injEq] at h
        obtain ⟨h0, htail⟩ := h
        rw [List.length_cons, Nat.add_comm template.length, ← Nat.add_assoc] at htail
        cases i with
        | zero => simpa using h0
        | succ i =>
            have hunit := (ih hlt fun d hd => hne d (List.mem_cons_of_mem c hd)).mpr htail i
              (by simpa using hi)
            have hpos : cur + (i + 1) = cur.succ + i := by omega
            simpa [hpos] using hunit

theorem cmpeq2Chars_rest {a b : Nat} (hle : cur ≤ src.len) (ha : a ≠ 0) (hb : b ≠ 0)
    (h : cmpeq2Chars src cur a b = true) : src.rest cur = a :: b :: src.rest (cur + 2) := by
  simp only [cmpeq2Chars, Bool.and_eq_true] at h
  exact (matchUnits_rest hle (by simp [ha, hb])).mp h.2

theorem byteMatch2_rest {a b : Nat} (hle : cur ≤ src.len) (ha : a ≠ 0) (hb : b ≠ 0)
    (h : byteMatch2 src cur a b = true) : src.rest cur = a :: b :: src.rest (cur + 2) :=
  (matchUnits_rest hle (by simp [ha, hb])).mp h

/-- The cursor behind a prefix of the text left is inside the text. -/
theorem bound_of_rest {t : List Nat} (hle : cur ≤ src.len)
    (h : src.rest cur = t ++ src.rest (cur + t.length)) : cur + t.length ≤ src.len := by
  have hlen := congrArg List.length h
  simp only [Source.length_rest, List.length_append] at hlen
  omega

theorem skipSpacePairs_skips (fuel : Nat) (hle : cur ≤ src.len) :
    Skips src cur (skipSpacePairs src fuel cur) := by
  induction fuel generalizing cur with
  | zero => exact .refl hle
  | succ fuel ih =>
      unfold skipSpacePairs
      split
      · rename_i hpair
        have hrest := cmpeq2Chars_rest hle (by decide) (by decide) hpair
        have hbound := bound_of_rest (t := [0x20, 0x20]) hle hrest
        have hskip : Skips src cur (cur + 2) :=
          ⟨by omega, hbound, hrest ▸ .cons rfl (.cons rfl (.nil _))⟩
        exact hskip.trans (ih hbound)
      · split
        · rename_i hspace
          exact .one hle (by rw [hspace]; rfl)
        · exact .refl hle

theorem fastSkipSpacesLoop_skips (batch fuel : Nat) (hle : cur ≤ src.len) :
    Skips src cur (fastSkipSpacesLoop src batch fuel cur) := by
  induction fuel generalizing cur with
  | zero => exact .refl hle
  | succ fuel ih =>
      unfold fastSkipSpacesLoop
      split
      · rename_i hbatch
        have hspace : ∀ i, (src.read (cur + i) != 0x20) = false → isWs (src.read (cur + i)) = true := by
          intro i hi
          rw [bne_eq_false_iff_eq.mp hi]
          rfl
        split
        · rename_i hnone
          have hrun := Skips.run hle fun i hi => hspace i (firstLane_eq_none.mp hnone i hi)
          exact hrun.trans (ih hrun.bound)
        · rename_i done hdone
          exact .run hle fun i hi => hspace i ((firstLane_eq_some.mp hdone).2.2 i hi)
      · exact skipSpacePairs_skips _ hle

/-- `fast_skip_spaces` takes off spaces. -/
theorem fastSkipSpaces_skips (batch : Nat) (hle : cur ≤ src.len) :
    Skips src cur (fastSkipSpaces src batch cur) :=
  fastSkipSpacesLoop_skips batch _ hle

end SsrJson.Decode
