import SsrJson.Spec.Grammar

/-!
# Parse trees

With `PyVal.dict` for `objVal` the grammar derives the parse tree of a text: an object is the list
of all its members, in the order of the text. `treeValue` sets them one after the other, and every
derivation of a value is one of a parse tree.
-/

namespace SsrJson.Spec

mutual

/-- The value of a parse tree: a key that comes again overrides. -/
def treeValue : PyVal → PyVal
  | .none => .none
  | .bool b => .bool b
  | .num num => .num num
  | .str str => .str str
  | .list items => .list (treeValues items)
  | .dict members => dictOf (treeMembers members)

/-- The values of the elements of an array. -/
def treeValues : List PyVal → List PyVal
  | [] => []
  | t :: ts => treeValue t :: treeValues ts

/-- The members of an object with their values. -/
def treeMembers : List (PyStr × PyVal) → List (PyStr × PyVal)
  | [] => []
  | (k, t) :: ms => (k, treeValue t) :: treeMembers ms

end

variable {enc : Nat → Option (List Nat)} {numVal : List Nat → Num}

mutual

/-- The derivation of a value is one of a parse tree. -/
theorem Value.tree {n : Nat} {s r : List Nat} {v : PyVal}
    (h : Value enc numVal dictOf n s v r) :
    ∃ t, Value enc numVal .dict n s t r ∧ treeValue t = v := by
  match h with
  | .null n r => exact ⟨_, .null n r, by rw [treeValue]⟩
  | .true n r => exact ⟨_, .true n r, by rw [treeValue]⟩
  | .false n r => exact ⟨_, .false n r, by rw [treeValue]⟩
  | .number n r htext => exact ⟨_, .number n r htext, by rw [treeValue]⟩
  | .special n r htext => exact ⟨_, .special n r htext, by rw [treeValue]⟩
  | .string n hstr => exact ⟨_, .string n hstr, by rw [treeValue]⟩
  | .emptyArray n hend => exact ⟨_, .emptyArray n hend, by rw [treeValue, treeValues]⟩
  | .array hels =>
      obtain ⟨ts, hels', rfl⟩ := Elements.tree hels
      exact ⟨_, .array hels', by rw [treeValue]⟩
  | .emptyObject n hend => exact ⟨_, .emptyObject n hend, by rw [treeValue, treeMembers]⟩
  | .object hms =>
      obtain ⟨ts, hms', rfl⟩ := Members.tree hms
      exact ⟨_, .object hms', by rw [treeValue]⟩

theorem Elements.tree {n : Nat} {s r : List Nat} {vs : List PyVal}
    (h : Elements enc numVal dictOf n s vs r) :
    ∃ ts, Elements enc numVal .dict n s ts r ∧ treeValues ts = vs := by
  match h with
  | .last hws hv hend =>
      obtain ⟨t, hv', rfl⟩ := Value.tree hv
      exact ⟨_, .last hws hv' hend, by rw [treeValues, treeValues]⟩
  | .more hws hv hcomma hels =>
      obtain ⟨t, hv', rfl⟩ := Value.tree hv
      obtain ⟨ts, hels', rfl⟩ := Elements.tree hels
      exact ⟨_, .more hws hv' hcomma hels', by rw [treeValues]⟩

theorem Members.tree {n : Nat} {s r : List Nat} {ms : List (PyStr × PyVal)}
    (h : Members enc numVal dictOf n s ms r) :
    ∃ ts, Members enc numVal .dict n s ts r ∧ treeMembers ts = ms := by
  match h with
  | .last hws hk hcolon hws' hv hend =>
      obtain ⟨t, hv', rfl⟩ := Value.tree hv
      exact ⟨_, .last hws hk hcolon hws' hv' hend, by rw [treeMembers, treeMembers]⟩
  | .more hws hk hcolon hws' hv hcomma hms =>
      obtain ⟨t, hv', rfl⟩ := Value.tree hv
      obtain ⟨ts, hms', rfl⟩ := Members.tree hms
      exact ⟨_, .more hws hk hcolon hws' hv' hcomma hms', by rw [treeMembers]⟩

end

/-- Every document has a parse tree. -/
theorem Document.tree {n : Nat} {s : List Nat} {v : PyVal}
    (h : Document enc numVal dictOf n s v) :
    ∃ t, Document enc numVal .dict n s t ∧ treeValue t = v := by
  obtain ⟨hws, hv, hend⟩ := h
  obtain ⟨t, hv', hval⟩ := hv.tree
  exact ⟨t, ⟨hws, hv', hend⟩, hval⟩

end SsrJson.Spec
