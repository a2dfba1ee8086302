import SsrJson.Decode.Root

/-!
# Reading, then acting

A step of the root machine reads the text and then works on the stacks. `Root.readAction` is the
first half: what the text under the cursor asks for at a label. It sees no object, only the number
of elements counted for the current container. `Root.perform` is the second half, and
`Root.step_eq` says that the two are the step. What a proof needs to know about a step is then a
matter of the eight actions, whatever label they come from (`RootAction.FitsLabel`).
-/

namespace SsrJson.Decode

/-- A scalar that has been read. -/
inductive Scalar where
  | number (num : Num)
  | string (made : Made)
  | bool (b : Bool)

/-- What the text under the cursor asks for. -/
inductive RootAction where
  /-- Go on at a label. -/
  | jump (label : Label) (cur : Nat)
  /-- Open a container. -/
  | openCtn (isArr : Bool) (cur : Nat)
  /-- Push a scalar and count it. -/
  | scalar (scalar : Scalar) (next : Label) (error : DecodeError) (cur : Nat)
  /-- The same for `null`; `nan` is what reading `nan` behind it gives. -/
  | null (next : Label) (nan : Bool × Nat) (cur : Nat)
  /-- Push a key. -/
  | key (made : Made) (cur : Nat)
  /-- Close the current container; `cur` is where the one around it goes on. -/
  | close (isArr : Bool) (cur : Nat)
  | finish (cur : Nat)
  | fail (error : DecodeError) (cur : Nat)

namespace Root

/-! ## Reading -/

section Reading

variable (readers : Readers) (src : Source)

/-- A number under the cursor. -/
def numberAction (next : Label) (cur : Nat) : RootAction :=
  match readers.loadsNumber src cur with
  | (none, cur) => .fail .invalidNumber cur
  | (some num, cur) => .scalar (.number num) next .invalidNumber cur

/-- A string under the cursor that is a value. -/
def stringAction (next : Label) (cur : Nat) : RootAction :=
  match readers.loadsString false src cur with
  | (none, cur) => .fail .invalidString cur
  | (some made, cur) => .scalar (.string made) next .invalidString cur

/-- A string under the cursor that is a key. -/
def keyAction (cur : Nat) : RootAction :=
  match readers.loadsString true src cur with
  | (none, cur) => .fail .invalidString cur
  | (some made, cur) => .key made cur

/-- `t` under the cursor. -/
def trueAction (next : Label) (cur : Nat) : RootAction :=
  match readTrue src cur with
  | (false, cur) => .fail .literalTrue cur
  | (true, cur) => .scalar (.bool true) next .literalTrue cur

/-- `f` under the cursor. -/
def falseAction (next : Label) (cur : Nat) : RootAction :=
  match readFalse src cur with
  | (false, cur) => .fail .literalFalse cur
  | (true, cur) => .scalar (.bool false) next .literalFalse cur

/-- `n` under the cursor. -/
def nullAction (next : Label) (cur : Nat) : RootAction :=
  match readNull src cur with
  | (true, cur) => .null next (readNan src cur) cur
  | (false, cur) =>
    match readNan src cur with
    | (false, cur) => .fail .literalNull cur
    | (true, cur) => .scalar (.number (.float (nanBits false))) next .literalNull cur

/-- `i`, `I` or `N` under the cursor. -/
def infAction (next : Label) (cur : Nat) : RootAction :=
  match loadsInfOrNan src false cur with
  | (none, cur) => .fail .characterVal cur
  | (some num, cur) => .scalar (.number num) next .characterVal cur

/-- `arr_val_begin` behind the spaces the pretty variant skips. -/
def arrValAction (len cur : Nat) : RootAction :=
  let c := src.read cur
  if c = 0x7B then .jump .objBegin (cur + 1)
  else if c = 0x5B then .jump .arrBegin (cur + 1)
  else if c ≤ 0xFF ∧ charIsNumber c then numberAction readers src .arrValEnd cur
  else if c = 0x22 then stringAction readers src .arrValEnd cur
  else if c = 0x74 then trueAction src .arrValEnd cur
  else if c = 0x66 then falseAction src .arrValEnd cur
  else if c = 0x6E then nullAction src .arrValEnd cur
  else if c = 0x5D then
    if len = 0 then .jump .arrEnd (cur + 1)
    else .fail .trailingComma (rewindToComma src (cur + 1))
  else if wrappedCharIsSpace c then .jump .arrValBegin (skipConsecutiveSpaces src cur)
  else if c = 0x69 ∨ c = 0x49 ∨ c = 0x4E then infAction src .arrValEnd cur
  else .fail .characterVal cur

/-- `arr_val_end`. -/
def arrSepAction (cur : Nat) : RootAction :=
  let c := src.read cur
  if readers.match2 src cur 0x2C (separatorTail readers) then .jump .arrValBegin (cur + 2)
  else if c = 0x2C then .jump .arrValBegin (cur + 1)
  else if c = 0x5D then .jump .arrEnd (cur + 1)
  else if wrappedCharIsSpace c then .jump .arrValEnd (slowSkip readers src cur)
  else .fail .characterArrEnd cur

/-- `obj_key_begin` behind the spaces the pretty variant skips. -/
def objKeyAction (len cur : Nat) : RootAction :=
  let c := src.read cur
  if c = 0x22 then keyAction readers src cur
  else if c = 0x7D then
    if len = 0 then .jump .objEnd (cur + 1) else .fail .trailingComma (cur + 1)
  else if wrappedCharIsSpace c then .jump .objKeyBegin (skipConsecutiveSpaces src cur)
  else .fail .characterObjKey cur

/-- `obj_key_end`. -/
def colonAction (cur : Nat) : RootAction :=
  let c := src.read cur
  if readers.match2 src cur 0x3A 0x20 then .jump .objValBegin (cur + 2)
  else if c = 0x3A then .jump .objValBegin (cur + 1)
  else if wrappedCharIsSpace c then .jump .objKeyEnd (slowSkip readers src cur)
  else .fail .characterObjSep cur

/-- `obj_val_begin`. -/
def objValAction (cur : Nat) : RootAction :=
  let c := src.read cur
  if c = 0x22 then stringAction readers src .objValEnd cur
  else if charIsNumber c then numberAction readers src .objValEnd cur
  else if c = 0x7B then .jump .objBegin (cur + 1)
  else if c = 0x5B then .jump .arrBegin (cur + 1)
  else if c = 0x74 then trueAction src .objValEnd cur
  else if c = 0x66 then falseAction src .objValEnd cur
  else if c = 0x6E then nullAction src .objValEnd cur
  else if wrappedCharIsSpace c then
    let cur := prettySkip readers src (cur + 1)
    .jump .objValBegin
      (if wrappedCharIsSpace (src.read cur) then skipConsecutiveSpaces src cur else cur)
  else if c = 0x69 ∨ c = 0x49 ∨ c = 0x4E then infAction src .objValEnd cur
  else .fail .characterVal cur

/-- `obj_val_end`. -/
def objSepAction (cur : Nat) : RootAction :=
  let c := src.read cur
  if readers.match2 src cur 0x2C (separatorTail readers) then .jump .objKeyBegin (cur + 2)
  else if c = 0x2C then .jump .objKeyBegin (cur + 1)
  else if c = 0x7D then .jump .objEnd (cur + 1)
  else if wrappedCharIsSpace c then .jump .objValEnd (slowSkip readers src cur)
  else .fail .characterObjEnd cur

/-- `doc_end`. -/
def docAction (cur : Nat) : RootAction :=
  if cur < src.len then
    let cur := spacesThenWs readers src cur
    if cur < src.len then .fail .garbage cur else .finish cur
  else .finish cur

/-- What the text asks for at a label, where `len` elements of the current container are
counted. -/
def readAction (label : Label) (len cur : Nat) : RootAction :=
  match label with
  | .arrBegin => .openCtn true (skipReturn readers src cur)
  | .arrValBegin => arrValAction readers src len (prettySkip readers src cur)
  | .arrValEnd => arrSepAction readers src cur
  | .arrEnd => .close true (skipReturn readers src cur)
  | .objBegin => .openCtn false (skipReturn readers src cur)
  | .objKeyBegin => objKeyAction readers src len (prettySkip readers src cur)
  | .objKeyEnd => colonAction readers src cur
  | .objValBegin => objValAction readers src cur
  | .objValEnd => objSepAction readers src cur
  | .objEnd => .close false (skipReturn readers src cur)
  | .docEnd => docAction readers src cur

end Reading

/-! ## Acting -/

section Acting

variable {σ Obj : Type} (ops : ObjectOps σ Obj) (hooks : Hooks)

/-- The object for a scalar. -/
def makeScalar (scalar : Scalar) (rt : σ) : Option Obj × σ :=
  match scalar with
  | .number num => ops.number num rt
  | .string made => ops.string made rt
  | .bool b => let (obj, rt) := ops.bool b rt; (some obj, rt)

/-- Make a scalar and push it. -/
def performScalar (scalar : Scalar) (next : Label) (error : DecodeError) (s : RootState σ Obj) :
    Transition σ Obj :=
  let (obj, rt) := makeScalar ops scalar s.rt
  pushElement ops next error { s with rt } obj

/-- Push `None`. When that fails, `nan` is pushed if it was read. -/
def performNull (next : Label) (nan : Bool × Nat) (s : RootState σ Obj) : Transition σ Obj :=
  let (obj, rt) := ops.none s.rt
  match pushElement ops next .literalNull { s with rt } (some obj) with
  | .fail _ s =>
    match nan with
    | (false, cur) => .fail .literalNull { s with cur }
    | (true, cur) =>
      performScalar ops (.number (.float (nanBits false))) next .literalNull { s with cur }
  | transition => transition

/-- Make a key and push it. -/
def performKey (made : Made) (s : RootState σ Obj) : Transition σ Obj :=
  match ops.string made s.rt with
  | (none, rt) => .fail .invalidString { s with rt }
  | (some obj, rt) =>
    match ops.push obj s.objs.length rt with
    | (false, rt) => .fail .invalidString { s with rt }
    | (true, rt) => .goto { s with label := .objKeyEnd, objs := obj :: s.objs, rt }

/-- `decode_arr` or `decode_obj` up to the hook. -/
def buildCtn (isArr : Bool) : Nat → List Obj → σ → Option Obj × List Obj × σ :=
  if isArr then ops.buildArr else ops.buildObj

/-- Push a finished container; `cur` is where the container around it goes on. -/
def enterOuter (outer : List Ctn) (cur : Nat) (obj : Obj) (s : RootState σ Obj) :
    Transition σ Obj :=
  match ops.push obj s.objs.length s.rt with
  | (false, rt) => .fail .alreadySet { s with rt }
  | (true, rt) =>
    match outer with
    | [] => .goto { s with label := .docEnd, ctn := [], objs := obj :: s.objs, rt }
    | c :: _ =>
      .goto { label := if c.isArr then .arrValEnd else .objValEnd
              cur, ctn := incrCtn outer, objs := obj :: s.objs, rt }

/-- Whether a container of this type goes through a hook. -/
def hooked (isArr : Bool) : Bool := if isArr then hooks.array else hooks.object

/-- Build the current container, let its hook answer and push the result. -/
def performClose (isArr : Bool) (cur : Nat) (s : RootState σ Obj) : Transition σ Obj :=
  match buildCtn ops isArr (ctnLen s) s.objs s.rt with
  | (none, objs, rt) => .fail .alreadySet { s with objs, rt }
  | (some obj, objs, rt) =>
    if hooked hooks isArr then
      .callHook obj rt fun answer rt =>
        let rt := ops.decref obj rt
        match answer with
        | none => .fail .alreadySet { s with objs, rt }
        | some obj => enterOuter ops s.ctn.tail cur obj { s with objs, rt }
    else enterOuter ops s.ctn.tail cur obj { s with objs, rt }

/-- Work on the stacks as the text asks. -/
def perform (s : RootState σ Obj) : RootAction → Transition σ Obj
  | .jump label cur => .goto { s with label, cur }
  | .openCtn isArr cur =>
    if s.ctn.length < decodeMaxRecursion then
      .goto { s with label := if isArr then .arrValBegin else .objKeyBegin
                     cur, ctn := ⟨isArr, 0⟩ :: s.ctn }
    else .fail .ctnGrow s
  | .scalar scalar next error cur => performScalar ops scalar next error { s with cur }
  | .null next nan cur => performNull ops next nan { s with cur }
  | .key made cur => performKey ops made { s with cur }
  | .close isArr cur => performClose ops hooks isArr cur s
  | .finish cur => success { s with cur }
  | .fail error cur => .fail error { s with cur }

end Acting

/-! ## The two halves are the step -/

section

variable {σ Obj : Type} {readers : Readers} {ops : ObjectOps σ Obj} (hooks : Hooks) {src : Source}
  {s : RootState σ Obj} {next : Label} {cur : Nat}

theorem numberArm_eq : numberArm readers ops src next { s with cur } =
    perform ops hooks s (numberAction readers src next cur) := by
  unfold numberArm numberAction
  rcases readers.loadsNumber src cur with ⟨_ | _, _⟩ <;> rfl

theorem stringArm_eq : stringArm readers ops src next { s with cur } =
    perform ops hooks s (stringAction readers src next cur) := by
  unfold stringArm stringAction
  rcases readers.loadsString false src cur with ⟨_ | _, _⟩ <;> rfl

theorem keyArm_eq : keyArm readers ops src { s with cur } =
    perform ops hooks s (keyAction readers src cur) := by
  unfold keyArm keyAction
  rcases readers.loadsString true src cur with ⟨_ | _, _⟩ <;> rfl

theorem trueArm_eq : trueArm ops src next { s with cur } =
    perform ops hooks s (trueAction src next cur) := by
  unfold trueArm trueAction
  rcases readTrue src cur with ⟨_ | _, _⟩ <;> rfl

theorem falseArm_eq : falseArm ops src next { s with cur } =
    perform ops hooks s (falseAction src next cur) := by
  unfold falseArm falseAction
  rcases readFalse src cur with ⟨_ | _, _⟩ <;> rfl

theorem nullArm_eq : nullArm ops src next { s with cur } =
    perform ops hooks s (nullAction src next cur) := by
  unfold nullArm nullAction nanArm
  rcases readNull src cur with ⟨_ | _, cur⟩
  · dsimp only
    rcases readNan src cur with ⟨_ | _, _⟩ <;> rfl
  · dsimp only [perform, performNull, pushElement]
    rcases ops.push (ops.none s.rt).1 s.objs.length (ops.none s.rt).2 with ⟨_ | _, rt⟩
    · dsimp only
      rcases readNan src cur with ⟨_ | _, _⟩ <;> rfl
    · rfl

theorem infArm_eq : infArm ops src next { s with cur } =
    perform ops hooks s (infAction src next cur) := by
  unfold infArm infAction
  rcases loadsInfOrNan src false cur with ⟨_ | _, _⟩ <;> rfl

theorem arrValDispatch_eq : arrValDispatch readers ops src { s with cur } =
    perform ops hooks s (arrValAction readers src (ctnLen s) cur) := by
  simp only [arrValDispatch, arrValAction, apply_ite (perform ops hooks s), numberArm_eq hooks,
    stringArm_eq hooks, trueArm_eq hooks, falseArm_eq hooks, nullArm_eq hooks, infArm_eq hooks]
  rfl

theorem objKeyDispatch_eq : objKeyDispatch readers ops src { s with cur } =
    perform ops hooks s (objKeyAction readers src (ctnLen s) cur) := by
  simp only [objKeyDispatch, objKeyAction, apply_ite (perform ops hooks s), keyArm_eq hooks]
  rfl

theorem objValBegin_eq : objValBegin readers ops src { s with cur } =
    perform ops hooks s (objValAction readers src cur) := by
  simp only [objValBegin, objValAction, apply_ite (perform ops hooks s), numberArm_eq hooks,
    stringArm_eq hooks, trueArm_eq hooks, falseArm_eq hooks, nullArm_eq hooks, infArm_eq hooks]
  rfl

theorem arrValEnd_eq : arrValEnd readers src s =
    perform ops hooks s (arrSepAction readers src s.cur) := by
  simp only [arrValEnd, arrSepAction, apply_ite (perform ops hooks s)]
  rfl

theorem objKeyEnd_eq : objKeyEnd readers src s =
    perform ops hooks s (colonAction readers src s.cur) := by
  simp only [objKeyEnd, colonAction, apply_ite (perform ops hooks s)]
  rfl

theorem objValEnd_eq : objValEnd readers src s =
    perform ops hooks s (objSepAction readers src s.cur) := by
  simp only [objValEnd, objSepAction, apply_ite (perform ops hooks s)]
  rfl

theorem docEnd_eq : docEnd readers src s =
    perform ops hooks s (docAction readers src s.cur) := by
  simp only [docEnd, docAction, apply_ite (perform ops hooks s)]
  rfl

/-- A step reads what the text asks for and does it. -/
theorem step_eq : step readers ops hooks src s =
    perform ops hooks s (readAction readers src s.label (ctnLen s) s.cur) := by
  rw [step]
  cases s.label with
  | arrBegin => rfl
  | arrValBegin => exact arrValDispatch_eq hooks
  | arrValEnd => exact arrValEnd_eq hooks
  | arrEnd => rfl
  | objBegin => rfl
  | objKeyBegin => exact objKeyDispatch_eq hooks
  | objKeyEnd => exact objKeyEnd_eq hooks
  | objValBegin => exact objValBegin_eq hooks
  | objValEnd => exact objValEnd_eq hooks
  | objEnd => rfl
  | docEnd => exact docEnd_eq hooks

end

end Root

/-! ## Which actions ask a hook or return -/

/-- A transition that goes on or fails. -/
def Transition.IsPlain {σ Obj : Type} : Transition σ Obj → Prop
  | .goto _ | .fail _ _ => True
  | .callHook _ _ _ | .ret _ _ => False

namespace Root

section

variable {σ Obj : Type} {ops : ObjectOps σ Obj} {hooks : Hooks} {s s' : RootState σ Obj}

theorem pushElement_plain {next : Label} {error : DecodeError} {obj : Option Obj} :
    (pushElement ops next error s obj).IsPlain := by
  unfold pushElement
  cases obj with
  | none => trivial
  | some obj =>
      dsimp only
      rcases ops.push obj s.objs.length s.rt with ⟨_ | _, _⟩ <;> trivial

theorem performScalar_plain {scalar : Scalar} {next : Label} {error : DecodeError} :
    (performScalar ops scalar next error s).IsPlain :=
  pushElement_plain

theorem performNull_plain {next : Label} {nan : Bool × Nat} :
    (performNull ops next nan s).IsPlain := by
  unfold performNull
  dsimp only
  split
  · obtain ⟨_ | _, _⟩ := nan
    · trivial
    · exact performScalar_plain
  · exact pushElement_plain

theorem performKey_plain {made : Made} : (performKey ops made s).IsPlain := by
  unfold performKey
  rcases ops.string made s.rt with ⟨_ | obj, rt⟩
  · trivial
  · dsimp only
    rcases ops.push obj s.objs.length rt with ⟨_ | _, _⟩ <;> trivial

theorem enterOuter_plain {outer : List Ctn} {cur : Nat} {obj : Obj} :
    (enterOuter ops outer cur obj s).IsPlain := by
  unfold enterOuter
  rcases ops.push obj s.objs.length s.rt with ⟨_ | _, _⟩
  · trivial
  · cases outer <;> trivial

/-- Only closing a container asks a hook. -/
theorem perform_callHook {action : RootAction} {obj : Obj} {rt : σ}
    {resume : Option Obj → σ → Transition σ Obj}
    (h : perform ops hooks s action = .callHook obj rt resume) :
    ∃ isArr cur objs, action = .close isArr cur ∧ hooked hooks isArr = true ∧
      buildCtn ops isArr (ctnLen s) s.objs s.rt = (some obj, objs, rt) ∧
      ∀ answer rt, resume answer rt =
        match answer with
        | none => .fail .alreadySet { s with objs, rt := ops.decref obj rt }
        | some result =>
          enterOuter ops s.ctn.tail cur result { s with objs, rt := ops.decref obj rt } := by
  have hplain : ¬ (perform ops hooks s action).IsPlain := by
    rw [h]
    exact id
  cases action with
  | jump | fail => exact absurd trivial hplain
  | openCtn =>
      rw [perform] at hplain
      split at hplain <;> exact absurd trivial hplain
  | scalar => exact absurd performScalar_plain hplain
  | null => exact absurd performNull_plain hplain
  | key => exact absurd performKey_plain hplain
  | finish cur =>
      change success { s with cur } = _ at h
      rw [success] at h
      split at h <;> cases h
  | close isArr cur =>
      change performClose ops hooks isArr cur s = _ at h
      rw [performClose] at h
      obtain ⟨_ | obj', objs, rt', hbuild⟩ : ∃ obj objs rt,
        buildCtn ops isArr (ctnLen s) s.objs s.rt = (obj, objs, rt) := ⟨_, _, _, rfl⟩
      · rw [hbuild] at h
        cases h
      · rw [hbuild] at h
        dsimp only at h
        split at h
        · rename_i hhook
          cases h
          exact ⟨isArr, cur, objs, rfl, hhook, hbuild, fun answer rt => by cases answer <;> rfl⟩
        · have hplain := @enterOuter_plain _ _ ops { s with objs, rt := rt' } s.ctn.tail cur obj'
          rw [h] at hplain
          exact hplain.elim

/-- Only the end of the document returns. -/
theorem perform_ret {action : RootAction} {obj : Obj} (h : perform ops hooks s action = .ret obj s') :
    ∃ cur, action = .finish cur ∧ s.objs.getLast? = some obj ∧ s' = { s with cur } := by
  have hplain : ¬ (perform ops hooks s action).IsPlain := by
    rw [h]
    exact id
  cases action with
  | jump | fail => exact absurd trivial hplain
  | openCtn =>
      rw [perform] at hplain
      split at hplain <;> exact absurd trivial hplain
  | scalar => exact absurd performScalar_plain hplain
  | null => exact absurd performNull_plain hplain
  | key => exact absurd performKey_plain hplain
  | close isArr cur =>
      change performClose ops hooks isArr cur s = _ at h
      rw [performClose] at h
      obtain ⟨_ | obj', objs, rt, hbuild⟩ : ∃ obj objs rt,
        buildCtn ops isArr (ctnLen s) s.objs s.rt = (obj, objs, rt) := ⟨_, _, _, rfl⟩
      · rw [hbuild] at h
        cases h
      · rw [hbuild] at h
        dsimp only at h
        split at h
        · cases h
        · have hplain := @enterOuter_plain _ _ ops { s with objs, rt } s.ctn.tail cur obj'
          rw [h] at hplain
          exact hplain.elim
  | finish cur =>
      change success { s with cur } = _ at h
      rw [success] at h
      split at h
      · cases h
      · rename_i hlast
        cases h
        exact ⟨cur, rfl, hlast, rfl⟩

end

end Root

/-! ## Which actions a label has -/

/-- The label behind a value inside an array or an object. -/
def Label.IsAfterValue (label next : Label) : Prop :=
  (label = .arrValBegin ∧ next = .arrValEnd) ∨ (label = .objValBegin ∧ next = .objValEnd)

/-- The jumps of the source that push and pop nothing. -/
def Label.JumpsTo (label next : Label) : Prop :=
  match label with
  | .arrValBegin => next = .arrValBegin ∨ next = .arrBegin ∨ next = .objBegin ∨ next = .arrEnd
  | .arrValEnd => next = .arrValEnd ∨ next = .arrValBegin ∨ next = .arrEnd
  | .objKeyBegin => next = .objKeyBegin ∨ next = .objEnd
  | .objKeyEnd => next = .objKeyEnd ∨ next = .objValBegin
  | .objValBegin => next = .objValBegin ∨ next = .arrBegin ∨ next = .objBegin
  | .objValEnd => next = .objValEnd ∨ next = .objKeyBegin ∨ next = .objEnd
  | _ => False

/-- The actions that can come from a label. -/
def RootAction.FitsLabel (label : Label) : RootAction → Prop
  | .jump next _ => label.JumpsTo next
  | .openCtn isArr _ => label = if isArr then .arrBegin else .objBegin
  | .scalar _ next _ _ | .null next _ _ => label.IsAfterValue next
  | .key _ _ => label = .objKeyBegin
  | .close isArr _ => label = if isArr then .arrEnd else .objEnd
  | .finish _ => label = .docEnd
  | .fail _ _ => True

namespace Root

section

variable {readers : Readers} {src : Source} {label next : Label} {len cur : Nat}

theorem numberAction_fits (h : label.IsAfterValue next) :
    (numberAction readers src next cur).FitsLabel label := by
  unfold numberAction
  rcases readers.loadsNumber src cur with ⟨_ | _, _⟩
  · trivial
  · exact h

theorem stringAction_fits (h : label.IsAfterValue next) :
    (stringAction readers src next cur).FitsLabel label := by
  unfold stringAction
  rcases readers.loadsString false src cur with ⟨_ | _, _⟩
  · trivial
  · exact h

theorem keyAction_fits : (keyAction readers src cur).FitsLabel .objKeyBegin := by
  unfold keyAction
  rcases readers.loadsString true src cur with ⟨_ | _, _⟩
  · trivial
  · rfl

theorem trueAction_fits (h : label.IsAfterValue next) :
    (trueAction src next cur).FitsLabel label := by
  unfold trueAction
  rcases readTrue src cur with ⟨_ | _, _⟩
  · trivial
  · exact h

theorem falseAction_fits (h : label.IsAfterValue next) :
    (falseAction src next cur).FitsLabel label := by
  unfold falseAction
  rcases readFalse src cur with ⟨_ | _, _⟩
  · trivial
  · exact h

theorem nullAction_fits (h : label.IsAfterValue next) :
    (nullAction src next cur).FitsLabel label := by
  unfold nullAction
  rcases readNull src cur with ⟨_ | _, cur⟩
  · dsimp only
    rcases readNan src cur with ⟨_ | _, _⟩
    · trivial
    · exact h
  · exact h

theorem infAction_fits (h : label.IsAfterValue next) :
    (infAction src next cur).FitsLabel label := by
  unfold infAction
  rcases loadsInfOrNan src false cur with ⟨_ | _, _⟩
  · trivial
  · exact h

theorem arrValAction_fits : (arrValAction readers src len cur).FitsLabel .arrValBegin := by
  have h : Label.arrValBegin.IsAfterValue .arrValEnd := .inl ⟨rfl, rfl⟩
  unfold arrValAction
  dsimp only
  split_ifs
  · exact .inr (.inr (.inl rfl))
  · exact .inr (.inl rfl)
  · exact numberAction_fits h
  · exact stringAction_fits h
  · exact trueAction_fits h
  · exact falseAction_fits h
  · exact nullAction_fits h
  · exact .inr (.inr (.inr rfl))
  · trivial
  · exact .inl rfl
  · exact infAction_fits h
  · trivial

theorem objValAction_fits : (objValAction readers src cur).FitsLabel .objValBegin := by
  have h : Label.objValBegin.IsAfterValue .objValEnd := .inr ⟨rfl, rfl⟩
  unfold objValAction
  dsimp only
  split_ifs
  · exact stringAction_fits h
  · exact numberAction_fits h
  · exact .inr (.inr rfl)
  · exact .inr (.inl rfl)
  · exact trueAction_fits h
  · exact falseAction_fits h
  · exact nullAction_fits h
  · exact .inl rfl
  · exact .inl rfl
  · exact infAction_fits h
  · trivial

/-- What the text asks for at a label is one of the actions of the label. -/
theorem readAction_fits : (readAction readers src label len cur).FitsLabel label := by
  cases label with
  | arrBegin => rfl
  | arrValBegin => exact arrValAction_fits
  | arrValEnd =>
      show (arrSepAction readers src cur).FitsLabel _
      unfold arrSepAction
      dsimp only
      split_ifs
      · exact .inr (.inl rfl)
      · exact .inr (.inl rfl)
      · exact .inr (.inr rfl)
      · exact .inl rfl
      · trivial
  | arrEnd => rfl
  | objBegin => rfl
  | objKeyBegin =>
      show (objKeyAction readers src len (prettySkip readers src cur)).FitsLabel _
      unfold objKeyAction
      dsimp only
      split_ifs
      · exact keyAction_fits
      · exact .inr rfl
      · trivial
      · exact .inl rfl
      · trivial
  | objKeyEnd =>
      show (colonAction readers src cur).FitsLabel _
      unfold colonAction
      dsimp only
      split_ifs
      · exact .inr rfl
      · exact .inr rfl
      · exact .inl rfl
      · trivial
  | objValBegin => exact objValAction_fits
  | objValEnd =>
      show (objSepAction readers src cur).FitsLabel _
      unfold objSepAction
      dsimp only
      split_ifs
      · exact .inr (.inl rfl)
      · exact .inr (.inl rfl)
      · exact .inr (.inr rfl)
      · exact .inl rfl
      · trivial
  | objEnd => rfl
  | docEnd =>
      show (docAction readers src cur).FitsLabel _
      unfold docAction
      dsimp only
      split_ifs
      · trivial
      · rfl
      · rfl

end

end Root

end SsrJson.Decode
