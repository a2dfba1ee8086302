import Mathlib.Logic.Equiv.List
import SsrJson.Spec.Grammar

/-!
# The literals of a value

The grammar leaves open which number a literal denotes. A value derived with the label of each
literal in the place of its number holds the literals themselves, and the values derived with any
numbers are what comes of putting these in for the labels. Two ways to read literals give a text the
same value if they agree on the literals that are left in it.
-/

namespace SsrJson

mutual

/-- A value with its numbers replaced. -/
def PyVal.mapNum (g : Num → Num) : PyVal → PyVal
  | .none => .none
  | .bool b => .bool b
  | .num num => .num (g num)
  | .str str => .str str
  | .list items => .list (mapNums g items)
  | .dict items => .dict (mapMembers g items)

/-- The elements of an array with their numbers replaced. -/
def mapNums (g : Num → Num) : List PyVal → List PyVal
  | [] => []
  | v :: vs => v.mapNum g :: mapNums g vs

/-- The members of an object with their numbers replaced. -/
def mapMembers (g : Num → Num) : List (PyStr × PyVal) → List (PyStr × PyVal)
  | [] => []
  | (k, v) :: ms => (k, v.mapNum g) :: mapMembers g ms

end

mutual

/-- The numbers in a value. -/
def PyVal.nums : PyVal → List Num
  | .none | .bool _ | .str _ => []
  | .num num => [num]
  | .list items => numsOf items
  | .dict items => memberNums items

/-- The numbers in the elements of an array. -/
def numsOf : List PyVal → List Num
  | [] => []
  | v :: vs => v.nums ++ numsOf vs

/-- The numbers in the members of an object. -/
def memberNums : List (PyStr × PyVal) → List Num
  | [] => []
  | (_, v) :: ms => v.nums ++ memberNums ms

end

mutual

/-- Two replacements make the same of a value if they do of each of its numbers. -/
theorem PyVal.mapNum_eq_iff {g g' : Num → Num} (v : PyVal) :
    v.mapNum g = v.mapNum g' ↔ ∀ x ∈ v.nums, g x = g' x := by
  match v with
  | .none => simp [PyVal.mapNum, PyVal.nums]
  | .bool b => simp [PyVal.mapNum, PyVal.nums]
  | .str str => simp [PyVal.mapNum, PyVal.nums]
  | .num num => simp [PyVal.mapNum, PyVal.nums]
  | .list items => simp [PyVal.mapNum, PyVal.nums, mapNums_eq_iff items]
  | .dict items => simp [PyVal.mapNum, PyVal.nums, mapMembers_eq_iff items]

theorem mapNums_eq_iff {g g' : Num → Num} (vs : List PyVal) :
    mapNums g vs = mapNums g' vs ↔ ∀ x ∈ numsOf vs, g x = g' x := by
  match vs with
  | [] => simp [mapNums, numsOf]
  | v :: vs =>
      simp only [mapNums, numsOf, List.cons.injEq, PyVal.mapNum_eq_iff v, mapNums_eq_iff vs,
        List.forall_mem_append]

theorem mapMembers_eq_iff {g g' : Num → Num} (ms : List (PyStr × PyVal)) :
    mapMembers g ms = mapMembers g' ms ↔ ∀ x ∈ memberNums ms, g x = g' x := by
  match ms with
  | [] => simp [mapMembers, memberNums]
  | (k, v) :: ms =>
      simp only [mapMembers, memberNums, List.cons.injEq, Prod.mk.injEq, true_and,
        PyVal.mapNum_eq_iff v, mapMembers_eq_iff ms, List.forall_mem_append]

end

theorem mapMembers_eq_map (g : Num → Num) (ms : List (PyStr × PyVal)) :
    mapMembers g ms = ms.map fun item => (item.1, item.2.mapNum g) := by
  induction ms with
  | nil => rfl
  | cons item ms ih => rw [mapMembers, ih, List.map_cons]

theorem mem_memberNums {x : Num} {ms : List (PyStr × PyVal)} :
    x ∈ memberNums ms ↔ ∃ item ∈ ms, x ∈ item.2.nums := by
  induction ms with
  | nil => simp [memberNums]
  | cons item ms ih => simp [memberNums, ih]

/-! ## Dicts -/

/-- Setting a key and replacing the values may change places. -/
theorem dictSet_map {V W : Type} (f : V → W) (items : List (PyStr × V)) (key : PyStr) (value : V) :
    dictSet (items.map fun item => (item.1, f item.2)) key (f value) =
      (dictSet items key value).map fun item => (item.1, f item.2) := by
  unfold dictSet
  rw [List.any_map]
  simp only [Function.comp_def]
  split
  · rw [List.map_map, List.map_map]
    refine List.map_congr_left fun item _ => ?_
    simp only [Function.comp_def]
    split <;> rfl
  · rw [List.map_append, List.map_singleton]

/-- What stands in a dict was there before or has been set. -/
theorem mem_dictSet {V : Type} {items : List (PyStr × V)} {key : PyStr} {value : V}
    {item : PyStr × V} (h : item ∈ dictSet items key value) :
    item ∈ items ∨ item = (key, value) := by
  unfold dictSet at h
  split at h
  · obtain ⟨old, hold, rfl⟩ := List.mem_map.mp h
    split
    · exact .inr rfl
    · exact .inl hold
  · rw [List.mem_append, List.mem_singleton] at h
    exact h

theorem dictOf_mapMembers (g : Num → Num) (ms : List (PyStr × PyVal)) :
    dictOf (mapMembers g ms) = (dictOf ms).mapNum g := by
  have hfold : ∀ items : List (PyStr × PyVal),
      (mapMembers g ms).foldl (fun items pair => dictSet items pair.1 pair.2)
          (items.map fun item => (item.1, item.2.mapNum g)) =
        (ms.foldl (fun items pair => dictSet items pair.1 pair.2) items).map
          fun item => (item.1, item.2.mapNum g) := by
    induction ms with
    | nil => exact fun _ => rfl
    | cons item ms ih =>
        intro items
        rw [mapMembers, List.foldl_cons, List.foldl_cons, ← ih]
        have hset := dictSet_map (PyVal.mapNum g) items item.1 item.2
        exact congrArg (List.foldl (fun items pair => dictSet items pair.1 pair.2) ·
          (mapMembers g ms)) hset
  rw [dictOf, dictOf, PyVal.mapNum, mapMembers_eq_map g (List.foldl _ _ ms), ← hfold []]
  rfl

theorem mem_foldl_dictSet {V : Type} {items ms : List (PyStr × V)} {item : PyStr × V}
    (h : item ∈ ms.foldl (fun items pair => dictSet items pair.1 pair.2) items) :
    item ∈ items ∨ item ∈ ms := by
  induction ms generalizing items with
  | nil => exact .inl h
  | cons pair ms ih =>
      rcases ih h with hbefore | hms
      · rcases mem_dictSet hbefore with hold | hset
        · exact .inl hold
        · exact .inr (hset ▸ List.mem_cons_self)
      · exact .inr (List.mem_cons_of_mem _ hms)

/-- The numbers left in a dict are numbers of its members. -/
theorem nums_dictOf {x : Num} {ms : List (PyStr × PyVal)} (h : x ∈ (dictOf ms).nums) :
    x ∈ memberNums ms := by
  rw [dictOf, PyVal.nums, mem_memberNums] at h
  obtain ⟨item, hitem, hx⟩ := h
  rcases mem_foldl_dictSet hitem with hnil | hms
  · cases hnil
  · exact mem_memberNums.mpr ⟨item, hms, hx⟩

namespace Spec

/-! ## Labels -/

/-- A number that stands for a literal. -/
def label (t : List Nat) : Num := .int (Encodable.encode t)

/-- The number of the literal a label stands for; doubles are no labels. -/
def unlabel (numVal : List Nat → Num) : Num → Num
  | .int k => ((Encodable.decode k.toNat : Option (List Nat)).map numVal).getD (.int k)
  | .float bits => .float bits

theorem unlabel_label (numVal : List Nat → Num) (t : List Nat) :
    unlabel numVal (label t) = numVal t := by
  simp [unlabel, label]

variable {enc : Nat → Option (List Nat)} {numVal : List Nat → Num}

mutual

/-- Numbers may be put in for the labels of a derivation. -/
theorem Value.unlabel {n : Nat} {s r : List Nat} {v : PyVal}
    (h : Value enc label dictOf n s v r) :
    Value enc numVal dictOf n s (v.mapNum (unlabel numVal)) r := by
  match h with
  | .null n r => exact .null n r
  | .true n r => exact .true n r
  | .false n r => exact .false n r
  | .number n r htext =>
      rw [PyVal.mapNum, unlabel_label]
      exact .number n r htext
  | .special n r htext => exact .special n r htext
  | .string n hstr => exact .string n hstr
  | .emptyArray n hend => exact .emptyArray n hend
  | .array hels => exact .array (Elements.unlabel hels)
  | .emptyObject n hend =>
      rw [← dictOf_mapMembers]
      exact .emptyObject n hend
  | .object hms =>
      rw [← dictOf_mapMembers]
      exact .object (Members.unlabel hms)

theorem Elements.unlabel {n : Nat} {s r : List Nat} {vs : List PyVal}
    (h : Elements enc label dictOf n s vs r) :
    Elements enc numVal dictOf n s (mapNums (unlabel numVal) vs) r := by
  match h with
  | .last hws hv hend => exact .last hws (Value.unlabel hv) hend
  | .more hws hv hcomma hels =>
      exact .more hws (Value.unlabel hv) hcomma (Elements.unlabel hels)

theorem Members.unlabel {n : Nat} {s r : List Nat} {ms : List (PyStr × PyVal)}
    (h : Members enc label dictOf n s ms r) :
    Members enc numVal dictOf n s (mapMembers (unlabel numVal) ms) r := by
  match h with
  | .last hws hk hcolon hws' hv hend => exact .last hws hk hcolon hws' (Value.unlabel hv) hend
  | .more hws hk hcolon hws' hv hcomma hms =>
      exact .more hws hk hcolon hws' (Value.unlabel hv) hcomma (Members.unlabel hms)

end

mutual

/-- Every derivation comes from one with labels. -/
theorem Value.labels {n : Nat} {s r : List Nat} {v : PyVal}
    (h : Value enc numVal dictOf n s v r) :
    ∃ t, Value enc label dictOf n s t r ∧ t.mapNum (Spec.unlabel numVal) = v := by
  match h with
  | .null n r => exact ⟨_, .null n r, rfl⟩
  | .true n r => exact ⟨_, .true n r, rfl⟩
  | .false n r => exact ⟨_, .false n r, rfl⟩
  | .number n r htext => exact ⟨_, .number n r htext, by rw [PyVal.mapNum, unlabel_label]⟩
  | .special n r htext => exact ⟨_, .special n r htext, rfl⟩
  | .string n hstr => exact ⟨_, .string n hstr, rfl⟩
  | .emptyArray n hend => exact ⟨_, .emptyArray n hend, rfl⟩
  | .array hels =>
      obtain ⟨ts, hels', rfl⟩ := Elements.labels hels
      exact ⟨_, .array hels', rfl⟩
  | .emptyObject n hend => exact ⟨_, .emptyObject n hend, rfl⟩
  | .object hms =>
      obtain ⟨ts, hms', rfl⟩ := Members.labels hms
      exact ⟨_, .object hms', (dictOf_mapMembers _ ts).symm⟩

theorem Elements.labels {n : Nat} {s r : List Nat} {vs : List PyVal}
    (h : Elements enc numVal dictOf n s vs r) :
    ∃ ts, Elements enc label dictOf n s ts r ∧ mapNums (Spec.unlabel numVal) ts = vs := by
  match h with
  | .last hws hv hend =>
      obtain ⟨t, hv', rfl⟩ := Value.labels hv
      exact ⟨_, .last hws hv' hend, rfl⟩
  | .more hws hv hcomma hels =>
      obtain ⟨t, hv', rfl⟩ := Value.labels hv
      obtain ⟨ts, hels', rfl⟩ := Elements.labels hels
      exact ⟨_, .more hws hv' hcomma hels', rfl⟩

theorem Members.labels {n : Nat} {s r : List Nat} {ms : List (PyStr × PyVal)}
    (h : Members enc numVal dictOf n s ms r) :
    ∃ ts, Members enc label dictOf n s ts r ∧ mapMembers (Spec.unlabel numVal) ts = ms := by
  match h with
  | .last hws hk hcolon hws' hv hend =>
      obtain ⟨t, hv', rfl⟩ := Value.labels hv
      exact ⟨_, .last hws hk hcolon hws' hv' hend, rfl⟩
  | .more hws hk hcolon hws' hv hcomma hms =>
      obtain ⟨t, hv', rfl⟩ := Value.labels hv
      obtain ⟨ts, hms', rfl⟩ := Members.labels hms
      exact ⟨_, .more hws hk hcolon hws' hv' hcomma hms', rfl⟩

end

/-- The number of a literal, or a double. -/
def IsLiteral (numVal : List Nat → Num) (x : Num) : Prop :=
  (∃ bits, x = .float bits) ∨ ∃ t, NumberText t ∧ x = numVal t

mutual

/-- The numbers of a value are those of literals. -/
theorem Value.literals {n : Nat} {s r : List Nat} {v : PyVal}
    (h : Value enc numVal dictOf n s v r) : ∀ x ∈ v.nums, IsLiteral numVal x := by
  match h with
  | .null n r => simp [PyVal.nums, numsOf, dictOf, memberNums]
  | .true n r => simp [PyVal.nums, numsOf, dictOf, memberNums]
  | .false n r => simp [PyVal.nums, numsOf, dictOf, memberNums]
  | .number n r htext =>
      intro x hx
      exact .inr ⟨_, htext, List.mem_singleton.mp hx⟩
  | .special n r htext =>
      intro x hx
      exact .inl ⟨_, List.mem_singleton.mp hx⟩
  | .string n hstr => simp [PyVal.nums, numsOf, dictOf, memberNums]
  | .emptyArray n hend => simp [PyVal.nums, numsOf, dictOf, memberNums]
  | .array hels => exact Elements.literals hels
  | .emptyObject n hend => simp [PyVal.nums, numsOf, dictOf, memberNums]
  | .object hms => exact fun x hx => Members.literals hms x (nums_dictOf hx)

theorem Elements.literals {n : Nat} {s r : List Nat} {vs : List PyVal}
    (h : Elements enc numVal dictOf n s vs r) : ∀ x ∈ numsOf vs, IsLiteral numVal x := by
  match h with
  | .last hws hv hend =>
      intro x hx
      exact Value.literals hv x (by simpa [numsOf] using hx)
  | .more hws hv hcomma hels =>
      intro x hx
      rcases List.mem_append.mp hx with hx | hx
      · exact Value.literals hv x hx
      · exact Elements.literals hels x hx

theorem Members.literals {n : Nat} {s r : List Nat} {ms : List (PyStr × PyVal)}
    (h : Members enc numVal dictOf n s ms r) : ∀ x ∈ memberNums ms, IsLiteral numVal x := by
  match h with
  | .last hws hk hcolon hws' hv hend =>
      intro x hx
      exact Value.literals hv x (by simpa [memberNums] using hx)
  | .more hws hk hcolon hws' hv hcomma hms =>
      intro x hx
      rcases List.mem_append.mp hx with hx | hx
      · exact Value.literals hv x hx
      · exact Members.literals hms x hx

end

/-! ## Documents -/

/-- A literal that stands in the value of a text, where no later member of the same key overrides
it. -/
def KeptLiteral (enc : Nat → Option (List Nat)) (n : Nat) (s t : List Nat) : Prop :=
  ∃ v, Document enc label dictOf n s v ∧ label t ∈ v.nums

theorem Document.unlabel {n : Nat} {s : List Nat} {v : PyVal}
    (h : Document enc label dictOf n s v) :
    Document enc numVal dictOf n s (v.mapNum (Spec.unlabel numVal)) := by
  obtain ⟨hws, hv, hend⟩ := h
  exact ⟨hws, Value.unlabel hv, hend⟩

theorem Document.labels {n : Nat} {s : List Nat} {v : PyVal}
    (h : Document enc numVal dictOf n s v) :
    ∃ t, Document enc label dictOf n s t ∧ t.mapNum (Spec.unlabel numVal) = v := by
  obtain ⟨hws, hv, hend⟩ := h
  obtain ⟨t, hv', hval⟩ := Value.labels hv
  exact ⟨t, ⟨hws, hv', hend⟩, hval⟩

theorem Document.literals {n : Nat} {s : List Nat} {v : PyVal}
    (h : Document enc numVal dictOf n s v) : ∀ x ∈ v.nums, IsLiteral numVal x := by
  obtain ⟨hws, hv, hend⟩ := h
  exact Value.literals hv

/-- Two ways to read literals agree on the value with these labels if they agree on the literals
that are kept. -/
theorem mapNum_unlabel_eq_iff {n : Nat} {s : List Nat} {v : PyVal} {numVal' : List Nat → Num}
    (h : Document enc label dictOf n s v) :
    v.mapNum (Spec.unlabel numVal) = v.mapNum (Spec.unlabel numVal') ↔
      ∀ t, NumberText t → label t ∈ v.nums → numVal t = numVal' t := by
  rw [PyVal.mapNum_eq_iff]
  constructor
  · intro hall t _ ht
    have heq := hall _ ht
    rwa [unlabel_label, unlabel_label] at heq
  · intro hall x hx
    -- A double is left alone, a label stands for its literal.
    rcases h.literals x hx with ⟨bits, rfl⟩ | ⟨t, htext, rfl⟩
    · rfl
    · rw [unlabel_label, unlabel_label]
      exact hall t htext hx

end Spec

end SsrJson
