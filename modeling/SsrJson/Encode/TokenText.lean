import SsrJson.Encode.Outcomes

/-!
# The text that is written

What the tokens of the output spell, without the white space of an indent: a JSON value, or the
beginning of one with some containers still open. In the beginning every element that is finished
has its comma behind it; the end of a container writes its bracket over the last one.
-/

namespace SsrJson.Encode

open OutToken

/-- The bracket a container begins with. -/
def openToken (isDict : Bool) : OutToken := if isDict then .openObj else .openArr

/-- The bracket a container ends with. -/
def closeToken (isDict : Bool) : OutToken := if isDict then .closeObj else .closeArr

/-- What stands in front of an element: the key of a pair. -/
inductive Slot : Bool → List OutToken → Prop where
  | item : Slot false []
  | pair (key : PyStr) : Slot true [.key key]

mutual

/-- The tokens of a JSON value. -/
inductive JsonText : List OutToken → Prop where
  | scalar (value : Scalar) : JsonText [.scalar value]
  | array (shape : List Nat) : JsonText [.array shape]
  | empty (isDict : Bool) : JsonText [openToken isDict, closeToken isDict]
  | ctn {isDict : Bool} {elements : List OutToken} :
      JsonElements isDict elements → JsonText (openToken isDict :: elements ++ [closeToken isDict])

/-- The elements of a container that is not empty, with commas between them. -/
inductive JsonElements : Bool → List OutToken → Prop where
  | one {isDict : Bool} {slot value : List OutToken} :
      Slot isDict slot → JsonText value → JsonElements isDict (slot ++ value)
  | more {isDict : Bool} {elements slot value : List OutToken} :
      JsonElements isDict elements → Slot isDict slot → JsonText value →
      JsonElements isDict (elements ++ .comma :: (slot ++ value))

end

/-- The elements of an open container so far, each with a comma behind it. -/
inductive Elements (isDict : Bool) : List OutToken → Prop where
  | nil : Elements isDict []
  | snoc {elements slot value : List OutToken} :
      Elements isDict elements → Slot isDict slot → JsonText value →
      Elements isDict (elements ++ (slot ++ value ++ [.comma]))

/-- The beginning of a JSON value, up to an element of the innermost of its open containers. -/
inductive Beginning : List Bool → List OutToken → Prop where
  | root {isDict : Bool} {elements : List OutToken} :
      Elements isDict elements → Beginning [isDict] (openToken isDict :: elements)
  | inner {outer isDict : Bool} {frames : List Bool} {text slot elements : List OutToken} :
      Beginning (outer :: frames) text → Slot outer slot → Elements isDict elements →
      Beginning (isDict :: outer :: frames) (text ++ slot ++ openToken isDict :: elements)

/-- The beginning of a JSON value, up to the value of an element. -/
inductive Pending : List Bool → List OutToken → Prop where
  | slot {isDict : Bool} {frames : List Bool} {text slot : List OutToken} :
      Beginning (isDict :: frames) text → Slot isDict slot → Pending (isDict :: frames) (text ++ slot)

variable {isDict outer : Bool} {frames : List Bool} {text slot value elements : List OutToken}

theorem Beginning.pendingItem (h : Beginning (false :: frames) text) :
    Pending (false :: frames) text := by
  have hslot := Pending.slot h .item
  rwa [List.append_nil] at hslot

theorem Beginning.pendingPair (h : Beginning (true :: frames) text) (key : PyStr) :
    Pending (true :: frames) (text ++ [.key key]) :=
  .slot h (.pair key)

/-- A root is opened. -/
theorem beginning_root (isDict : Bool) : Beginning [isDict] [openToken isDict] := .root .nil

/-- A container is opened as an element. -/
theorem Pending.opened (h : Pending frames text) (isDict : Bool) :
    Beginning (isDict :: frames) (text ++ [openToken isDict]) := by
  cases h with
  | slot h hslot => exact .inner h hslot .nil

/-- A value is written as an element. -/
theorem Pending.written (h : Pending frames text) (hvalue : JsonText value) :
    Beginning frames (text ++ value ++ [.comma]) := by
  cases h with
  | slot h hslot =>
      cases h with
      | root helements =>
          have hsnoc := Beginning.root (helements.snoc hslot hvalue)
          simpa using hsnoc
      | inner houter houtside helements =>
          have hsnoc := houter.inner houtside (helements.snoc hslot hvalue)
          simpa using hsnoc

/-- The last comma of a container stands behind its elements. -/
theorem Elements.last (h : Elements isDict elements) :
    elements = [] ∨ ∃ inside, JsonElements isDict inside ∧ elements = inside ++ [.comma] := by
  induction h with
  | nil => exact .inl rfl
  | @snoc elements slot value _ hslot hvalue ih =>
      right
      rcases ih with rfl | ⟨inside, hinside, rfl⟩
      · exact ⟨slot ++ value, .one hslot hvalue, rfl⟩
      · exact ⟨inside ++ .comma :: (slot ++ value), .more hinside hslot hvalue, by simp⟩

/-- An open container with a comma at its end, and the closing bracket over it. -/
theorem Elements.closed (h : Elements isDict elements)
    (hcomma : (openToken isDict :: elements).getLast? = some .comma) :
    JsonText ((openToken isDict :: elements).dropLast ++ [closeToken isDict]) := by
  rcases h.last with rfl | ⟨inside, hinside, rfl⟩
  · cases isDict <;> cases hcomma
  · have htext := JsonText.ctn hinside
    rwa [← List.cons_append, List.dropLast_concat]

/-- The root is closed. -/
theorem Beginning.closed (h : Beginning [isDict] text) (hcomma : text.getLast? = some .comma) :
    JsonText (text.dropLast ++ [closeToken isDict]) := by
  cases h with
  | root h => exact h.closed hcomma

/-- A container is closed as an element of the one around it. -/
theorem Beginning.closedInner (h : Beginning (isDict :: outer :: frames) text)
    (hcomma : text.getLast? = some .comma) :
    Beginning (outer :: frames) (text.dropLast ++ [closeToken isDict, .comma]) := by
  cases h with
  | @inner _ _ _ text slot elements h hslot helements =>
      have hne : openToken isDict :: elements ≠ [] := List.cons_ne_nil _ _
      rw [List.getLast?_append_of_ne_nil _ hne] at hcomma
      have hwritten := (Pending.slot h hslot).written (helements.closed hcomma)
      rw [List.dropLast_append_of_ne_nil hne]
      simpa using hwritten

end SsrJson.Encode
