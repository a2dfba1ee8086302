import SsrJson.Decode.ObjStack
import SsrJson.Decode.RootReaders
import Mathlib.Logic.Relation

/-!
# The object stack and the counters of the containers

The counters on the container stack tell how many objects of each open container lie on the object
stack: `stackedObjects` adds them up, and at every label the sum is the number of objects there
(`StackInv`). Each action keeps it (`RootAction.inv`), whatever the text, the hooks and the allocator
do, and the array holds the same objects in the same order before and after it grows.
-/

namespace SsrJson.Decode

/-! ## Counting -/

/-- Whether an object that is the current container has a key whose value is still to come. -/
def Label.awaitsValue : Label → Bool
  | .arrBegin | .objBegin | .objKeyEnd | .objValBegin => true
  | _ => false

/-- The objects of an open container: one for each element of an array, two for each pair of an
object and one for a key that awaits its value. -/
def Ctn.stacked (awaits : Bool) (c : Ctn) : Nat :=
  if c.isArr then c.len else 2 * c.len + awaits.toNat

/-- The objects of all open containers. A container inside an object is the value of a key. -/
def stackedObjects (awaits : Bool) : List Ctn → Nat
  | [] => 0
  | c :: outer => c.stacked awaits + (outer.map (Ctn.stacked true)).sum

/-- What the current container is at a label. -/
def Label.Within (label : Label) : List Ctn → Prop
  | [] => label = .docEnd
  | c :: _ =>
    match label with
    | .arrValBegin | .arrValEnd | .arrEnd => c.isArr = true
    | .objKeyBegin | .objKeyEnd | .objValBegin | .objValEnd | .objEnd => c.isArr = false
    | .arrBegin | .objBegin => True
    | .docEnd => False

/-- A jump stays in the container and neither completes nor begins a pair. -/
theorem Label.JumpsTo.keeps {label next : Label} {ctn : List Ctn} (h : label.JumpsTo next)
    (hwithin : label.Within ctn) : next.Within ctn ∧ next ≠ .docEnd ∧
      stackedObjects next.awaitsValue ctn = stackedObjects label.awaitsValue ctn := by
  cases ctn with
  | nil =>
      cases hwithin
      exact h.elim
  | cons c outer =>
      have hstacked : ∀ awaits, c.isArr = true ∨ awaits = label.awaitsValue →
          stackedObjects awaits (c :: outer) = stackedObjects label.awaitsValue (c :: outer) := by
        rintro awaits (harr | rfl)
        · simp [stackedObjects, Ctn.stacked, harr]
        · rfl
      cases label with
      | arrValBegin =>
          rcases h with rfl | rfl | rfl | rfl <;>
            exact ⟨by first | exact hwithin | trivial, by decide, hstacked _ (.inl hwithin)⟩
      | arrValEnd =>
          rcases h with rfl | rfl | rfl <;>
            exact ⟨hwithin, by decide, hstacked _ (.inl hwithin)⟩
      | objKeyBegin => rcases h with rfl | rfl <;> exact ⟨hwithin, by decide, rfl⟩
      | objKeyEnd => rcases h with rfl | rfl <;> exact ⟨hwithin, by decide, rfl⟩
      | objValBegin =>
          rcases h with rfl | rfl | rfl <;>
            exact ⟨by first | exact hwithin | trivial, by decide, rfl⟩
      | objValEnd => rcases h with rfl | rfl | rfl <;> exact ⟨hwithin, by decide, rfl⟩
      | arrBegin | arrEnd | objBegin | objEnd | docEnd => exact h.elim

/-! ## The array as a stack -/

namespace ObjStack

variable {τ Obj : Type} {py : Interpreter τ Obj} {stack : ObjStack Obj} {objs : List Obj}

/-- The cells below the writer hold these objects, the top first, in an array that never gets
smaller than it began. -/
structure Holds (stack : ObjStack Obj) (objs : List Obj) : Prop where
  contents : stack.contents = objs.reverse.map some
  writer : stack.writer = objs.length
  capacity : decodeObjBufferInitSize ≤ stack.cells.length

theorem reduceOption_map_some (objs : List Obj) : (objs.map some).reduceOption = objs := by
  induction objs with
  | nil => rfl
  | cons obj objs ih => exact congrArg (obj :: ·) ih

theorem Holds.objs_eq (h : stack.Holds objs) : stack.objs = objs := by
  rw [ObjStack.objs, h.contents, reduceOption_map_some, List.reverse_reverse]

theorem initial_holds (stale : Fin decodeObjBufferInitSize → Option Obj) :
    (initial stale).Holds [] :=
  ⟨rfl, rfl, by simp [initial]⟩

theorem Holds.writer_le (h : stack.Holds objs) : stack.writer ≤ stack.cells.length := by
  have hlen := congrArg List.length h.contents
  rw [ObjStack.contents, List.length_take, List.length_map, List.length_reverse, ← h.writer] at hlen
  omega

/-- Growing gives room, and keeps the contents and their order. -/
theorem Holds.resize {rt rt' : τ} {stack' : ObjStack Obj} (h : stack.Holds objs)
    (hfull : stack.cells.length ≤ stack.writer)
    (hresize : stack.resize py rt = (some stack', rt')) :
    stack'.Holds objs ∧ stack'.writer < stack'.cells.length := by
  have hwriter : stack.writer = stack.cells.length := Nat.le_antisymm h.writer_le hfull
  have hcells : stack.cells = objs.reverse.map some := by
    rw [← h.contents, ObjStack.contents, List.take_of_length_le hfull]
  have hcap := h.capacity
  have hpos : 0 < decodeObjBufferInitSize := by decide
  rw [ObjStack.resize] at hresize
  split at hresize
  · rename_i hinit
    split at hresize
    · cases hresize
    · cases hresize
      have htake : stack.cells.take decodeObjBufferInitSize = stack.cells :=
        List.take_of_length_le hinit.le
      refine ⟨⟨?_, ?_, ?_⟩, ?_⟩
      · show List.take _ _ = _
        rw [htake, ← hinit, List.take_left, hcells]
      · rw [← hinit, ← hwriter]
        exact h.writer
      · simp [hinit]
      · simp [hinit, hpos]
  · dsimp only at hresize
    split at hresize
    · cases hresize
    · split at hresize
      · cases hresize
      · cases hresize
        refine ⟨⟨?_, ?_, ?_⟩, ?_⟩
        · show List.take _ _ = _
          rw [List.take_left, hcells]
        · rw [← hwriter]
          exact h.writer
        · rw [List.length_append]
          omega
        · show stack.cells.length < (stack.cells ++ _).length
          rw [List.length_append, List.length_replicate]
          omega

theorem Holds.store {obj : Obj} (h : stack.Holds objs) (hroom : stack.writer < stack.cells.length) :
    (stack.store obj).Holds (obj :: objs) := by
  refine ⟨?_, congrArg Nat.succ h.writer, ?_⟩
  · have hcontents := h.contents
    rw [ObjStack.contents] at hcontents
    rw [ObjStack.store, ObjStack.contents, List.reverse_cons, List.map_append, ← hcontents,
      List.take_add_one, List.take_set_of_le (Nat.le_refl _), List.getElem?_set_self hroom]
    rfl
  · simpa [ObjStack.store] using h.capacity

/-- `_decoder_push_obj` puts the object on top, or leaves the stack as it was. -/
theorem Holds.push {obj : Obj} {rt rt' : τ} {pushed : Bool} {stack' : ObjStack Obj}
    (h : stack.Holds objs) (hpush : stack.push py obj rt = (pushed, stack', rt')) :
    if pushed then stack'.Holds (obj :: objs) else stack' = stack := by
  rw [ObjStack.push] at hpush
  split at hpush
  · rename_i hfull
    split at hpush
    · cases hpush
      rfl
    · rename_i hresize
      cases hpush
      obtain ⟨hholds, hroom⟩ := h.resize hfull hresize
      exact hholds.store hroom
  · rename_i hroom
    cases hpush
    exact h.store (Nat.lt_of_not_le hroom)

/-- The topmost objects, read from the lowest on. -/
theorem Holds.top (h : stack.Holds objs) {count : Nat} (hle : count ≤ objs.length) :
    stack.top count = (objs.take count).reverse := by
  have hcells : (stack.cells.drop (stack.writer - count)).take count =
      stack.contents.drop (stack.writer - count) := by
    rw [ObjStack.contents, List.drop_take]
    congr 1
    have := h.writer
    omega
  rw [ObjStack.top, hcells, h.contents, h.writer, ← List.map_drop, reduceOption_map_some,
    List.drop_reverse]
  congr 2
  omega

theorem Holds.pop (h : stack.Holds objs) {count : Nat} (hle : count ≤ objs.length) :
    (stack.pop count).Holds (objs.drop count) := by
  refine ⟨?_, ?_, h.capacity⟩
  · have hcontents := congrArg (List.take (stack.writer - count)) h.contents
    rw [ObjStack.contents, List.take_take, Nat.min_eq_left (Nat.sub_le _ _)] at hcontents
    rw [ObjStack.pop, ObjStack.contents, hcontents, h.writer, ← List.map_take, List.take_reverse]
    congr 3
    omega
  · rw [ObjStack.pop, List.length_drop]
    exact congrArg (· - count) h.writer

end ObjStack

/-! ## Steps -/

/-- The value is counted where it was read. -/
theorem Label.IsAfterValue.counts {label next : Label} {ctn : List Ctn}
    (h : label.IsAfterValue next) (hwithin : label.Within ctn) :
    next.Within (incrCtn ctn) ∧ label ≠ .docEnd ∧ next ≠ .docEnd ∧
      stackedObjects next.awaitsValue (incrCtn ctn) =
        stackedObjects label.awaitsValue ctn + 1 := by
  cases ctn with
  | nil =>
      cases hwithin
      rcases h with ⟨h, -⟩ | ⟨h, -⟩ <;> cases h
  | cons c outer =>
      obtain ⟨isArr, len⟩ := c
      rcases h with ⟨rfl, rfl⟩ | ⟨rfl, rfl⟩
      · obtain rfl : isArr = true := hwithin
        refine ⟨rfl, by decide, by decide, ?_⟩
        simp only [incrCtn, stackedObjects, Ctn.stacked, if_true]
        omega
      · obtain rfl : isArr = false := hwithin
        refine ⟨rfl, by decide, by decide, ?_⟩
        simp only [incrCtn, stackedObjects, Ctn.stacked, Label.awaitsValue, Bool.toNat_true,
          Bool.toNat_false, Bool.false_eq_true, if_false]
        omega

namespace Root

variable {τ Obj : Type} {readers : Readers} {py : Interpreter τ Obj} {hooks : Hooks}
  {src : Source} {s s' : RootState (StackRt τ Obj) Obj}

/-- The array holds the objects of the state, and as many as the counters say. The finished
document is all that is left when no container is open. -/
structure StackInv (s : RootState (StackRt τ Obj) Obj) : Prop where
  holds : s.rt.stack.Holds s.objs
  within : s.label.Within s.ctn
  count : s.objs.length = stackedObjects s.label.awaitsValue s.ctn +
    if s.label = .docEnd then 1 else 0

/-- One object was pushed, and the array holds it. -/
def Pushed (s s' : RootState (StackRt τ Obj) Obj) : Prop :=
  s'.rt.stack.Holds s'.objs ∧ ∃ obj, s'.objs = obj :: s.objs

theorem makeScalar_stack (scalar : Scalar) (rt : StackRt τ Obj) :
    (makeScalar (stackOps py) scalar rt).2.stack = rt.stack := by
  cases scalar <;> rfl

/-- How pushing an element ends. -/
theorem pushElement_outcome {next : Label} {error : DecodeError} {obj : Option Obj}
    (h : s.rt.stack.Holds s.objs) :
    match pushElement (stackOps py) next error s obj with
    | .goto s' => s'.label = next ∧ s'.ctn = incrCtn s.ctn ∧ Pushed s s'
    | .fail _ s' => s'.label = s.label ∧ s'.ctn = s.ctn ∧ s'.objs = s.objs ∧
        s'.rt.stack = s.rt.stack
    | _ => False := by
  cases obj with
  | none => exact ⟨rfl, rfl, rfl, rfl⟩
  | some obj =>
      obtain ⟨pushed, stack, rt, hpush⟩ : ∃ pushed stack rt,
        s.rt.stack.push py obj s.rt.py = (pushed, stack, rt) := ⟨_, _, _, rfl⟩
      have hstack := h.push hpush
      have hops : (stackOps py).push obj s.objs.length s.rt = (pushed, ⟨stack, rt⟩) := by
        simp only [stackOps, hpush]
      cases pushed with
      | false =>
          rw [pushElement, hops]
          exact ⟨rfl, rfl, rfl, hstack⟩
      | true =>
          rw [pushElement, hops]
          exact ⟨rfl, rfl, hstack, obj, rfl⟩

theorem performScalar_next {scalar : Scalar} {next : Label} {error : DecodeError}
    (h : s.rt.stack.Holds s.objs)
    (hnext : performScalar (stackOps py) scalar next error s = .goto s') :
    s'.label = next ∧ s'.ctn = incrCtn s.ctn ∧ Pushed s s' := by
  have hstack := @makeScalar_stack _ _ py scalar s.rt
  rw [performScalar] at hnext
  generalize makeScalar (stackOps py) scalar s.rt = made at hstack hnext
  obtain ⟨obj, rt⟩ := made
  have houtcome := @pushElement_outcome _ _ py { s with rt } next error obj (hstack ▸ h)
  dsimp only at hnext
  rw [hnext] at houtcome
  exact houtcome

theorem performNull_next {next : Label} {nan : Bool × Nat} (h : s.rt.stack.Holds s.objs)
    (hnext : performNull (stackOps py) next nan s = .goto s') :
    s'.label = next ∧ s'.ctn = incrCtn s.ctn ∧ Pushed s s' := by
  have houtcome := @pushElement_outcome _ _ py
    { s with rt := ((stackOps py).none s.rt).2 } next .literalNull
    (some ((stackOps py).none s.rt).1) h
  dsimp only [performNull] at hnext
  split at hnext
  · rename_i s₁ hfail
    rw [hfail] at houtcome
    obtain ⟨-, hctn, hobjs, hstack⟩ := houtcome
    have hholds : s₁.rt.stack.Holds s₁.objs := by
      rw [hstack, hobjs]
      exact h
    obtain ⟨_ | _, cur⟩ := nan
    · cases hnext
    · obtain ⟨hlabel, hctn', hholds', obj, hobjs'⟩ :=
        @performScalar_next _ _ py { s₁ with cur } s' _ _ _ hholds hnext
      exact ⟨hlabel, hctn'.trans (congrArg incrCtn hctn), hholds', obj,
        hobjs'.trans (congrArg (obj :: ·) hobjs)⟩
  · rw [hnext] at houtcome
    exact houtcome

/-- A counted element keeps the invariant. -/
theorem StackInv.element (h : StackInv s) {next : Label} (hlabel : s.label.IsAfterValue next)
    (hnext : s'.label = next ∧ s'.ctn = incrCtn s.ctn ∧ Pushed s s') : StackInv s' := by
  obtain ⟨hwithin, hne, hne', hcount⟩ := hlabel.counts h.within
  obtain ⟨rfl, hctn, hholds, obj, hobjs⟩ := hnext
  refine ⟨hholds, hctn ▸ hwithin, ?_⟩
  rw [hobjs, List.length_cons, h.count, hctn, hcount, if_neg hne, if_neg hne']

theorem performKey_next {made : Made} (h : s.rt.stack.Holds s.objs)
    (hnext : performKey (stackOps py) made s = .goto s') :
    s'.label = .objKeyEnd ∧ s'.ctn = s.ctn ∧ Pushed s s' := by
  rw [performKey] at hnext
  split at hnext
  · cases hnext
  · rename_i obj rt hstring
    have hstack : rt.stack = s.rt.stack := by
      have hmade : rt = ((stackOps py).string made s.rt).2 := by rw [hstring]
      rw [hmade]
      rfl
    split at hnext
    · cases hnext
    · rename_i rt' hpush
      cases hnext
      have hholds : rt.stack.Holds s.objs := hstack ▸ h
      have hpushed := @ObjStack.Holds.push _ _ py _ _ obj rt.py rt'.py true rt'.stack hholds
        (by
          have hfst := congrArg Prod.fst hpush
          have hsnd := congrArg Prod.snd hpush
          exact Prod.ext hfst (Prod.ext (congrArg StackRt.stack hsnd) (congrArg StackRt.py hsnd)))
      exact ⟨rfl, rfl, hpushed, obj, rfl⟩

theorem StackInv.key (h : StackInv s) (hlabel : s.label = .objKeyBegin)
    (hnext : s'.label = .objKeyEnd ∧ s'.ctn = s.ctn ∧ Pushed s s') : StackInv s' := by
  obtain ⟨hlabel', hctn, hholds, obj, hobjs⟩ := hnext
  have hwithin := h.within
  have hcount := h.count
  rw [hlabel] at hwithin hcount
  obtain ⟨_ | ⟨⟨isArr, len⟩, outer⟩, hs⟩ : ∃ ctn, s.ctn = ctn := ⟨_, rfl⟩
  · rw [hs] at hwithin
    cases hwithin
  rw [hs] at hwithin hcount hctn
  obtain rfl : isArr = false := hwithin
  refine ⟨hholds, ?_, ?_⟩
  · rw [hlabel', hctn]
    rfl
  · rw [hobjs, List.length_cons, hcount, hlabel', hctn]
    simp only [stackedObjects, Ctn.stacked, Label.awaitsValue, Bool.toNat_true, Bool.toNat_false,
      Bool.false_eq_true, if_false, reduceCtorEq]
    omega

theorem StackInv.jump (h : StackInv s) {next : Label} {cur : Nat} (hlabel : s.label.JumpsTo next) :
    StackInv { s with label := next, cur } := by
  obtain ⟨hwithin, hne, hcount⟩ := hlabel.keeps h.within
  have hne' : s.label ≠ .docEnd := by
    intro hdoc
    rw [hdoc] at hlabel
    exact hlabel
  refine ⟨h.holds, hwithin, ?_⟩
  have := h.count
  rw [if_neg hne'] at this
  rw [if_neg hne, hcount]
  exact this

theorem StackInv.opened (h : StackInv s) {isArr : Bool} {cur : Nat}
    (hlabel : s.label = if isArr then .arrBegin else .objBegin) :
    StackInv { s with label := if isArr then .arrValBegin else .objKeyBegin
                      cur, ctn := ⟨isArr, 0⟩ :: s.ctn } := by
  have hcount := h.count
  have hwithin := h.within
  obtain ⟨_ | ⟨c, outer⟩, hs⟩ : ∃ ctn, s.ctn = ctn := ⟨_, rfl⟩
  · rw [hs, hlabel] at hwithin
    cases isArr <;> cases hwithin
  cases isArr with
  | true =>
      rw [hlabel, hs] at hcount
      refine ⟨h.holds, rfl, hcount.trans ?_⟩
      rw [hs]
      simp [stackedObjects, Ctn.stacked, Label.awaitsValue]
  | false =>
      rw [hlabel, hs] at hcount
      refine ⟨h.holds, rfl, hcount.trans ?_⟩
      rw [hs]
      simp [stackedObjects, Ctn.stacked, Label.awaitsValue]

/-! ## Closing a container -/

/-- The container `decode_arr` or `decode_obj` makes of the objects of `c`. -/
def makeCtn (py : Interpreter τ Obj) (c : Ctn) (own : List Obj) (rt : τ) : Option Obj × τ :=
  if c.isArr then py.newList own rt else ObjStack.makeDict py c.len own rt

/-- Exactly the objects of `c` leave the stack, for a container made of them in the order they
were pushed in, and this container or what its hook answers takes their place. -/
def Closed (py : Interpreter τ Obj) (hooks : Hooks) (c : Ctn)
    (s s' : RootState (StackRt τ Obj) Obj) : Prop :=
  ∃ below own obj rt result,
    s.rt.stack.contents = below ++ own.map some ∧ own.length = c.stacked false ∧
    makeCtn py c own s.rt.py = (some obj, rt) ∧
    s'.rt.stack.contents = below ++ [some result] ∧
    (hooked hooks c.isArr = false → result = obj)

theorem buildCtn_next {c : Ctn} {obj : Obj} {objs : List Obj} {rt : StackRt τ Obj}
    (h : s.rt.stack.Holds s.objs) (hle : c.stacked false ≤ s.objs.length)
    (hbuild : buildCtn (stackOps py) c.isArr c.len s.objs s.rt = (some obj, objs, rt)) :
    objs = s.objs.drop (c.stacked false) ∧ rt.stack.Holds objs ∧
      makeCtn py c (s.objs.take (c.stacked false)).reverse s.rt.py = (some obj, rt.py) := by
  obtain ⟨isArr, len⟩ := c
  have hpop := h.pop hle
  cases isArr with
  | true =>
      have hle' : len ≤ s.objs.length := hle
      change (stackOps py).buildArr len s.objs s.rt = _ at hbuild
      simp only [stackOps, ObjStack.buildArr, h.top hle'] at hbuild
      show _ ∧ _ ∧ py.newList (s.objs.take len).reverse s.rt.py = _
      split at hbuild
      · cases hbuild
      · rename_i hlist
        cases hbuild
        exact ⟨hpop.objs_eq, hpop.objs_eq.symm ▸ hpop, hlist⟩
  | false =>
      have hstacked : (⟨false, len⟩ : Ctn).stacked false = len * 2 := by
        simp [Ctn.stacked, Nat.mul_comm]
      rw [hstacked] at hle hpop ⊢
      change (stackOps py).buildObj len s.objs s.rt = _ at hbuild
      simp only [stackOps, ObjStack.buildObj, h.top hle] at hbuild
      show _ ∧ _ ∧ ObjStack.makeDict py len (s.objs.take (len * 2)).reverse s.rt.py = _
      rw [ObjStack.makeDict]
      split at hbuild
      · cases hbuild
      · rename_i dict rt₁ hdict
        obtain ⟨made, rt₂, hpairs⟩ : ∃ made rt₂,
          ObjStack.setPairs py dict (s.objs.take (len * 2)).reverse rt₁ = (made, rt₂) :=
          ⟨_, _, rfl⟩
        rw [hpairs] at hbuild
        cases hbuild
        exact ⟨hpop.objs_eq, hpop.objs_eq.symm ▸ hpop, hpairs⟩

theorem enterOuter_next {outer : List Ctn} {cur : Nat} {obj : Obj} (h : s.rt.stack.Holds s.objs)
    (hnext : enterOuter (stackOps py) outer cur obj s = .goto s') :
    s'.rt.stack.Holds s'.objs ∧ s'.objs = obj :: s.objs ∧ s'.label.Within s'.ctn ∧
      stackedObjects s'.label.awaitsValue s'.ctn + (if s'.label = .docEnd then 1 else 0) =
        (outer.map (Ctn.stacked true)).sum + 1 := by
  obtain ⟨pushed, stack, rt, hpush⟩ : ∃ pushed stack rt,
    s.rt.stack.push py obj s.rt.py = (pushed, stack, rt) := ⟨_, _, _, rfl⟩
  have hstack := h.push hpush
  have hops : (stackOps py).push obj s.objs.length s.rt = (pushed, ⟨stack, rt⟩) := by
    simp only [stackOps, hpush]
  rw [enterOuter, hops] at hnext
  cases pushed with
  | false => cases hnext
  | true =>
      cases outer with
      | nil =>
          cases hnext
          exact ⟨hstack, rfl, rfl, rfl⟩
      | cons c outer =>
          obtain ⟨isArr, len⟩ := c
          cases hnext
          refine ⟨hstack, rfl, ?_, ?_⟩
          · cases isArr <;> rfl
          · cases isArr <;>
              simp [incrCtn, stackedObjects, Ctn.stacked, Label.awaitsValue] <;> omega

/-- The container on top of the outer ones is replaced by one object. -/
theorem StackInv.closed {c : Ctn} {outer : List Ctn} {cur : Nat} {isArr : Bool}
    (h : StackInv s) (hlabel : s.label = if isArr then .arrEnd else .objEnd)
    {obj result : Obj} {objs : List Obj} {rt rt' : StackRt τ Obj} (hctn : s.ctn = c :: outer)
    (hbuild : buildCtn (stackOps py) isArr (ctnLen s) s.objs s.rt = (some obj, objs, rt))
    (hstack : rt'.stack = rt.stack) (hresult : hooked hooks isArr = false → result = obj)
    (hnext : enterOuter (stackOps py) outer cur result { s with objs, rt := rt' } = .goto s') :
    StackInv s' ∧ Closed py hooks c s s' := by
  have hwithin := h.within
  have hcount := h.count
  rw [hctn, hlabel] at hwithin hcount
  have hisArr : c.isArr = isArr := by cases isArr <;> exact hwithin
  have hlen : ctnLen s = c.len := by rw [ctnLen, hctn]
  have hsum : s.objs.length = c.stacked false + (outer.map (Ctn.stacked true)).sum := by
    rw [hcount]
    cases isArr <;> rfl
  rw [hlen, ← hisArr] at hbuild
  have hle : c.stacked false ≤ s.objs.length := by omega
  obtain ⟨hobjs, hholds, hmake⟩ := buildCtn_next h.holds hle hbuild
  obtain ⟨hholds', hobjs', hwithin', hcount'⟩ :=
    @enterOuter_next _ _ py { s with objs, rt := rt' } s' outer cur result (hstack ▸ hholds) hnext
  refine ⟨⟨hholds', hwithin', ?_⟩, ?_⟩
  · rw [hcount', hobjs', List.length_cons, hobjs, List.length_drop]
    omega
  · refine ⟨(s.objs.drop (c.stacked false)).reverse.map some,
      (s.objs.take (c.stacked false)).reverse, obj, rt.py, result, ?_, ?_, hmake, ?_, ?_⟩
    · rw [h.holds.contents, ← List.map_append, ← List.reverse_append, List.take_append_drop]
    · rw [List.length_reverse, List.length_take]
      omega
    · rw [hholds'.contents, hobjs', hobjs, List.reverse_cons, List.map_append]
      rfl
    · rw [hisArr]
      exact hresult

/-! ## Runs -/

/-- From one label to the next. A hook answers anything and changes anything of the interpreter,
but not the object stack of the call. -/
inductive Next (readers : Readers) (py : Interpreter τ Obj) (hooks : Hooks) (src : Source)
    (s : RootState (StackRt τ Obj) Obj) : RootState (StackRt τ Obj) Obj → Prop where
  | goto {next} : step readers (stackOps py) hooks src s = .goto next →
      Next readers py hooks src s next
  | answered {obj rt resume answer state next} :
      step readers (stackOps py) hooks src s = .callHook obj rt resume →
      resume answer { rt with py := state } = .goto next → Next readers py hooks src s next

/-- What a step does to the objects in the array: nothing, or one more is pushed, or a container
is closed. -/
def Moved (py : Interpreter τ Obj) (hooks : Hooks) (s s' : RootState (StackRt τ Obj) Obj) : Prop :=
  match s.label, s.ctn with
  | .arrEnd, c :: _ | .objEnd, c :: _ => Closed py hooks c s s'
  | _, _ => s'.rt.stack.contents = s.rt.stack.contents ∨
      ∃ obj, s'.rt.stack.contents = s.rt.stack.contents ++ [some obj]

theorem Moved.of_open (h : s.label ≠ .arrEnd ∧ s.label ≠ .objEnd)
    (hmoved : s'.rt.stack.contents = s.rt.stack.contents ∨
      ∃ obj, s'.rt.stack.contents = s.rt.stack.contents ++ [some obj]) : Moved py hooks s s' := by
  rw [Moved]
  split
  · exact absurd ‹_› h.1
  · exact absurd ‹_› h.2
  · exact hmoved

theorem Moved.of_pushed (h : s.label ≠ .arrEnd ∧ s.label ≠ .objEnd)
    (hholds : s.rt.stack.Holds s.objs) (hpushed : Pushed s s') : Moved py hooks s s' := by
  obtain ⟨hholds', obj, hobjs⟩ := hpushed
  refine .of_open h (.inr ⟨obj, ?_⟩)
  rw [hholds'.contents, hholds.contents, hobjs, List.reverse_cons, List.map_append]
  rfl

theorem not_end_of_afterValue {label next : Label} (h : label.IsAfterValue next) :
    label ≠ .arrEnd ∧ label ≠ .objEnd := by
  rcases h with ⟨rfl, -⟩ | ⟨rfl, -⟩ <;> decide

theorem not_end_of_jumpsTo {label next : Label} (h : label.JumpsTo next) :
    label ≠ .arrEnd ∧ label ≠ .objEnd := by
  constructor <;> (rintro rfl; exact h)

/-- Closing the current container keeps the invariant. -/
theorem StackInv.leave (h : StackInv s) {isArr : Bool} {cur : Nat} {obj result : Obj}
    {objs : List Obj} {rt rt' : StackRt τ Obj}
    (hlabel : s.label = if isArr then .arrEnd else .objEnd)
    (hbuild : buildCtn (stackOps py) isArr (ctnLen s) s.objs s.rt = (some obj, objs, rt))
    (hstack : rt'.stack = rt.stack) (hresult : hooked hooks isArr = false → result = obj)
    (hnext : enterOuter (stackOps py) s.ctn.tail cur result { s with objs, rt := rt' } =
      .goto s') : StackInv s' ∧ Moved py hooks s s' := by
  have hwithin := h.within
  obtain ⟨_ | ⟨c, outer⟩, hctn⟩ : ∃ ctn, s.ctn = ctn := ⟨_, rfl⟩
  · rw [hctn, hlabel] at hwithin
    cases isArr <;> cases hwithin
  · have htail : s.ctn.tail = outer := by rw [hctn, List.tail_cons]
    rw [htail] at hnext
    obtain ⟨hinv, hclosed⟩ := h.closed hlabel hctn hbuild hstack hresult hnext
    refine ⟨hinv, ?_⟩
    rw [Moved, hctn, hlabel]
    cases isArr <;> exact hclosed

/-- An action that leads on keeps the invariant. -/
theorem perform_inv {action : RootAction} (h : StackInv s) (hfits : action.FitsLabel s.label)
    (hnext : perform (stackOps py) hooks s action = .goto s') :
    StackInv s' ∧ Moved py hooks s s' := by
  cases action with
  | jump next cur =>
      cases hnext
      exact ⟨h.jump hfits, .of_open (not_end_of_jumpsTo hfits) (.inl rfl)⟩
  | openCtn isArr cur =>
      have hne : s.label ≠ .arrEnd ∧ s.label ≠ .objEnd := by
        rw [show s.label = _ from hfits]
        cases isArr <;> decide
      rw [perform] at hnext
      split at hnext
      · cases hnext
        exact ⟨h.opened hfits, .of_open hne (.inl rfl)⟩
      · cases hnext
  | scalar scalar next error cur =>
      have hpushed := @performScalar_next _ _ py { s with cur } _ _ _ _ h.holds hnext
      exact ⟨h.element hfits hpushed,
        .of_pushed (not_end_of_afterValue hfits) h.holds hpushed.2.2⟩
  | null next nan cur =>
      have hpushed := @performNull_next _ _ py { s with cur } _ _ _ h.holds hnext
      exact ⟨h.element hfits hpushed,
        .of_pushed (not_end_of_afterValue hfits) h.holds hpushed.2.2⟩
  | key made cur =>
      have hpushed := @performKey_next _ _ py { s with cur } _ _ h.holds hnext
      refine ⟨h.key hfits hpushed, .of_pushed ?_ h.holds hpushed.2.2⟩
      rw [show s.label = _ from hfits]
      decide
  | close isArr cur =>
      change performClose (stackOps py) hooks isArr cur s = _ at hnext
      rw [performClose] at hnext
      obtain ⟨_ | obj, objs, rt, hbuild⟩ : ∃ obj objs rt,
        buildCtn (stackOps py) isArr (ctnLen s) s.objs s.rt = (obj, objs, rt) := ⟨_, _, _, rfl⟩
      · rw [hbuild] at hnext
        cases hnext
      · rw [hbuild] at hnext
        dsimp only at hnext
        split at hnext
        · cases hnext
        · exact h.leave hfits hbuild rfl (fun _ => rfl) hnext
  | finish cur =>
      have hplain : ∀ next, success { s with cur } ≠ .goto next := by
        intro next
        rw [success]
        split <;> (intro h; cases h)
      exact absurd hnext (hplain _)
  | fail error cur => cases hnext

/-- A step of the machine keeps the invariant. -/
theorem Next.inv (hnext : Next readers py hooks src s s') (h : StackInv s) :
    StackInv s' ∧ Moved py hooks s s' := by
  cases hnext with
  | goto hgoto =>
      rw [step_eq] at hgoto
      exact perform_inv h readAction_fits hgoto
  | answered hcall hresume =>
      rw [step_eq] at hcall
      have hfits := @readAction_fits readers src s.label (ctnLen s) s.cur
      obtain ⟨isArr, cur, objs, haction, hhooked, hbuild, hres⟩ := perform_callHook hcall
      rw [haction] at hfits
      rw [hres] at hresume
      split at hresume
      · cases hresume
      · refine h.leave hfits hbuild ?_ ?_ hresume
        · rfl
        · rw [hhooked]
          exact Bool.noConfusion

theorem start_inv (stale : Fin decodeObjBufferInitSize → Option Obj) (rt : τ) :
    StackInv (@start (StackRt τ Obj) Obj readers src ⟨.initial stale, rt⟩) := by
  unfold start
  split
  · exact ⟨ObjStack.initial_holds stale, rfl, rfl⟩
  · exact ⟨ObjStack.initial_holds stale, rfl, rfl⟩

/-- The invariant holds in every state of a run. -/
theorem reach_inv {stale : Fin decodeObjBufferInitSize → Option Obj} {rt : τ}
    (hreach : Relation.ReflTransGen (Next readers py hooks src)
      (start readers src ⟨.initial stale, rt⟩) s) : StackInv s := by
  induction hreach with
  | refl => exact start_inv stale rt
  | tail _ hnext ih => exact (hnext.inv ih).1

/-- In every state a run of the container reader reaches, for any text, readers, hooks, interpreter
and allocator, the object stack holds as many objects as the counters of the open containers say,
and only the document when none is open. Closing a container takes exactly its objects off and
puts the container built from them in their place, pushing keeps what is on the stack and its
order, also where the stack grows, and what is returned is the one object left. -/
theorem object_stack_counts (readers : Readers) (py : Interpreter τ Obj) (hooks : Hooks)
    (src : Source) (stale : Fin decodeObjBufferInitSize → Option Obj) (rt : τ)
    (s : RootState (StackRt τ Obj) Obj)
    (hreach : Relation.ReflTransGen (Next readers py hooks src)
      (start readers src ⟨.initial stale, rt⟩) s) :
    s.rt.stack.writer = stackedObjects s.label.awaitsValue s.ctn +
        (if s.label = .docEnd then 1 else 0) ∧
      (∀ s', Next readers py hooks src s s' → Moved py hooks s s') ∧
      (∀ obj state, (s.rt.stack.push py obj state).2.1.contents =
        if (s.rt.stack.push py obj state).1 then s.rt.stack.contents ++ [some obj]
        else s.rt.stack.contents) ∧
      ∀ result s', step readers (stackOps py) hooks src s = .ret result s' →
        s'.rt.stack.contents = [some result] := by
  have hinv := reach_inv hreach
  refine ⟨hinv.holds.writer.trans hinv.count, fun s' hnext => (hnext.inv hinv).2,
    fun obj state => ?_, fun result s' hret => ?_⟩
  · obtain ⟨pushed, stack, rt', hpush⟩ : ∃ pushed stack rt',
      s.rt.stack.push py obj state = (pushed, stack, rt') := ⟨_, _, _, rfl⟩
    have hholds := hinv.holds.push hpush
    rw [hpush]
    cases pushed with
    | false => exact congrArg ObjStack.contents hholds
    | true =>
        show stack.contents = s.rt.stack.contents ++ [some obj]
        rw [ObjStack.Holds.contents hholds, hinv.holds.contents, List.reverse_cons, List.map_append]
        rfl
  · rw [step_eq] at hret
    have hfits := @readAction_fits readers src s.label (ctnLen s) s.cur
    obtain ⟨cur, haction, hlast, rfl⟩ := perform_ret hret
    rw [haction] at hfits
    have hwithin := hinv.within
    have hcount := hinv.count
    have hdoc : s.label = .docEnd := hfits
    rw [hdoc] at hwithin hcount
    have hempty : s.ctn = [] := by
      cases hctn : s.ctn with
      | nil => rfl
      | cons c outer =>
          rw [hctn] at hwithin
          exact hwithin.elim
    rw [hempty] at hcount
    obtain ⟨obj, hobjs⟩ := List.length_eq_one_iff.mp hcount
    rw [hobjs] at hlast
    cases hlast
    show s.rt.stack.contents = [some obj]
    rw [hinv.holds.contents, hobjs]
    rfl

/-- An interpreter that numbers its objects and never fails. -/
def freshObjects : Interpreter Nat Nat where
  number _ n := (some n, n + 1)
  string _ n := (some n, n + 1)
  none n := (n, n + 1)
  bool _ n := (n, n + 1)
  alloc _ n := (true, n)
  newList _ n := (some n, n + 1)
  newDict _ n := (some n, n + 1)
  setItem dict _ _ n := (some dict, n)
  decref _ n := n

/-- Some turns of the loop, or fewer where it ends or a hook is called. -/
def turns (readers : Readers) (py : Interpreter τ Obj) (hooks : Hooks) (src : Source) :
    Nat → RootState (StackRt τ Obj) Obj → RootState (StackRt τ Obj) Obj
  | 0, s => s
  | n + 1, s =>
    match step readers (stackOps py) hooks src s with
    | .goto s' => turns readers py hooks src n s'
    | _ => s

theorem reach_turns (n : Nat) (s : RootState (StackRt τ Obj) Obj) :
    Relation.ReflTransGen (Next readers py hooks src) s (turns readers py hooks src n s) := by
  induction n generalizing s with
  | zero => exact .refl
  | succ n ih =>
      rw [turns]
      cases hstep : step readers (stackOps py) hooks src s with
      | goto s' => exact .head (.goto hstep) (ih s')
      | _ => exact .refl

/-- The state behind some turns over `{"a":true,"b":[null]}`. -/
def pairsState (n : Nat) : RootState (StackRt Nat Nat) Nat :=
  let readers := rootReaders .avx2 (fun _ => 0) (.str .ascii) true
  let src := Source.ofUnits [0x7B, 0x22, 0x61, 0x22, 0x3A, 0x74, 0x72, 0x75, 0x65, 0x2C, 0x22, 0x62,
    0x22, 0x3A, 0x5B, 0x6E, 0x75, 0x6C, 0x6C, 0x5D, 0x7D]
  turns readers freshObjects ⟨false, true⟩ src n
    (start readers src ⟨.initial fun _ => none, 0⟩)

/-- In front of the bracket that closes the array there are four objects: a completed pair, a key
that awaits its value, and an element. -/
theorem object_stack_counts_nested :
    let readers := rootReaders .avx2 (fun _ => 0) (.str .ascii) true
    let src := Source.ofUnits [0x7B, 0x22, 0x61, 0x22, 0x3A, 0x74, 0x72, 0x75, 0x65, 0x2C, 0x22,
      0x62, 0x22, 0x3A, 0x5B, 0x6E, 0x75, 0x6C, 0x6C, 0x5D, 0x7D]
    let s := pairsState 10
    (s.label = .arrEnd ∧ s.ctn.map Ctn.len = [1, 1] ∧
      s.rt.stack.contents = [some 0, some 1, some 2, some 3]) ∧
    s.rt.stack.writer = stackedObjects s.label.awaitsValue s.ctn +
        (if s.label = .docEnd then 1 else 0) ∧
      (∀ s', Next readers freshObjects ⟨false, true⟩ src s s' →
        Moved freshObjects ⟨false, true⟩ s s') ∧
      (∀ obj state, (s.rt.stack.push freshObjects obj state).2.1.contents =
        if (s.rt.stack.push freshObjects obj state).1 then s.rt.stack.contents ++ [some obj]
        else s.rt.stack.contents) ∧
      ∀ result s', step readers (stackOps freshObjects) ⟨false, true⟩ src s = .ret result s' →
        s'.rt.stack.contents = [some result] :=
  ⟨by decide +kernel, object_stack_counts (rootReaders .avx2 (fun _ => 0) (.str .ascii) true)
    freshObjects ⟨false, true⟩ (Source.ofUnits [0x7B, 0x22, 0x61, 0x22, 0x3A, 0x74, 0x72, 0x75, 0x65,
      0x2C, 0x22, 0x62, 0x22, 0x3A, 0x5B, 0x6E, 0x75, 0x6C, 0x6C, 0x5D, 0x7D]) (fun _ => none) 0
    (pairsState 10) (reach_turns 10 _)⟩

end Root

end SsrJson.Decode
