import SsrJson.Decode.HookFold
import SsrJson.Decode.Loads

/-!
# Runs with hooks

A call with hooks reads what a call without them reads. Step by step, what lies on its object
stack is the fold of the parse trees that lie on the other's (`Folded`), until a hook raises. So a
call returns the fold of the parse tree of the document, or raises what a hook has raised.
-/

namespace SsrJson.Decode

open Spec

variable {α σ : Type} {hooks : Hooks} {objectHook arrayHook : Hook σ α} {rt₀ : σ}

/-- The objects of a call with hooks are the fold of the parse trees of a call without. -/
structure Folded (hooks : Hooks) (objectHook arrayHook : Hook σ α) (rt₀ : σ)
    (s : RootState Unit PyVal) (s' : RootState σ (HookVal α)) : Prop where
  label : s'.label = s.label
  cur : s'.cur = s.cur
  ctn : s'.ctn = s.ctn
  objs : foldItems hooks objectHook arrayHook s.objs.reverse rt₀ = (some s'.objs.reverse, s'.rt)

/-- What a step of a call with hooks does where the other goes on or returns: the same, or it ends
because a hook has raised. -/
def Follows (hooks : Hooks) (objectHook arrayHook : Hook σ α) (rt₀ : σ) :
    Transition Unit PyVal → Transition σ (HookVal α) → Prop
  | .goto s, .goto s' => Folded hooks objectHook arrayHook rt₀ s s'
  | .goto s, .fail error s' => error = .alreadySet ∧
      foldItems hooks objectHook arrayHook s.objs.reverse rt₀ = (none, s'.rt)
  | .fail _ _, _ => True
  | .ret t _, .ret obj s' => foldTree hooks objectHook arrayHook t rt₀ = (some obj, s'.rt)
  | _, _ => False

namespace Root

variable {readers : Readers} {src : Source} {enc : Nat → Option (List Nat)}
  {numVal : List Nat → Num} {c : Config} {s : RootState Unit PyVal}
  {s' : RootState σ (HookVal α)}

/-! ## One step -/

/-- A scalar or a key is pushed. -/
theorem push_folded (h : Folded hooks objectHook arrayHook rt₀ s s') {t : PyVal} {obj : HookVal α}
    (hfold : ∀ rt, foldTree hooks objectHook arrayHook t rt = (some obj, rt)) (label : Label)
    (cur : Nat) {ctn ctn' : List Ctn} (hctn : ctn' = ctn) (rt : Unit) :
    Folded hooks objectHook arrayHook rt₀ ⟨label, cur, ctn, t :: s.objs, rt⟩
      ⟨label, cur, ctn', obj :: s'.objs, s'.rt⟩ where
  label := rfl
  cur := rfl
  ctn := hctn
  objs := by
    rw [List.reverse_cons, List.reverse_cons, foldItems_snoc, h.objs]
    show andThen (foldTree hooks objectHook arrayHook t s'.rt)
      (fun obj rt => (some (s'.objs.reverse ++ [obj]), rt)) = _
    rw [hfold]
    rfl

/-- The objects for a container that ends are on top of those for the others. -/
theorem split_objs {own outer : List PyVal} {objs : List (HookVal α)} {rt : σ}
    (h : foldItems hooks objectHook arrayHook (outer ++ own) rt₀ = (some objs.reverse, rt)) :
    ∃ outerObjs ownObjs rt₁, objs = ownObjs.reverse ++ outerObjs.reverse ∧
      foldItems hooks objectHook arrayHook outer rt₀ = (some outerObjs, rt₁) ∧
      foldItems hooks objectHook arrayHook own rt₁ = (some ownObjs, rt) := by
  rw [foldItems_append] at h
  obtain ⟨outerObjs, rt₁, houter, hrest⟩ := andThen_eq_some h
  obtain ⟨ownObjs, rt₂, hown, hmade⟩ := andThen_eq_some hrest
  rw [Prod.mk.injEq, Option.some.injEq] at hmade
  obtain ⟨hobjs, rfl⟩ := hmade
  refine ⟨outerObjs, ownObjs, rt₁, ?_, houter, hown⟩
  rw [← List.reverse_append, hobjs, List.reverse_reverse]

/-- The end of a container with its hook. -/
theorem resolve_close {isArr : Bool} {cur : Nat} {obj : HookVal α} {rest : List (HookVal α)}
    {hook : Hook σ α}
    (hbuild : buildCtn hookOps isArr (ctnLen s') s'.objs s'.rt = (some obj, rest, s'.rt)) :
    resolve hook (performClose hookOps hooks isArr cur s') =
      match callIf (hooked hooks isArr) hook obj s'.rt with
      | (none, rt) => .fail .alreadySet { s' with objs := rest, rt }
      | (some obj, rt) => enterOuter hookOps s'.ctn.tail cur obj { s' with objs := rest, rt } := by
  unfold performClose callIf
  rw [hbuild]
  dsimp only
  split
  · unfold resolve
    dsimp only
    cases hook obj s'.rt with
    | mk answer rt => cases answer <;> rfl
  · unfold enterOuter
    cases s'.ctn.tail <;> rfl

/-- The end of a container without hooks. -/
theorem close_eq {objVal : List (PyStr × PyVal) → PyVal} {isArr : Bool} {cur : Nat} {t : PyVal}
    {rest : List PyVal}
    (hbuild : buildCtn (valuesWith objVal) isArr (ctnLen s) s.objs s.rt = (some t, rest, ())) :
    performClose (valuesWith objVal) noHooks isArr cur s =
      enterOuter (valuesWith objVal) s.ctn.tail cur t { s with objs := rest, rt := () } := by
  unfold performClose
  rw [hbuild]
  cases isArr <;> rfl

/-- A container goes through its hook, or has none, and takes the place of what it was made of. -/
theorem close_follows {isArr : Bool} {cur : Nat} {t : PyVal} {obj : HookVal α} {rest : List PyVal}
    {outerObjs : List (HookVal α)} {rt₁ : σ} (h : Folded hooks objectHook arrayHook rt₀ s s')
    (hbuild : buildCtn (valuesWith .dict) isArr (ctnLen s) s.objs s.rt = (some t, rest, ()))
    (hbuild' : buildCtn hookOps isArr (ctnLen s') s'.objs s'.rt =
      (some obj, outerObjs.reverse, s'.rt))
    (hrest : foldItems hooks objectHook arrayHook rest.reverse rt₀ = (some outerObjs, rt₁))
    (htree : foldTree hooks objectHook arrayHook t rt₁ =
      callIf (hooked hooks isArr) (hookPair objectHook arrayHook) obj s'.rt) :
    Follows hooks objectHook arrayHook rt₀ (performClose (valuesWith .dict) noHooks isArr cur s)
      (resolve (hookPair objectHook arrayHook) (performClose hookOps hooks isArr cur s')) := by
  have hfold : foldItems hooks objectHook arrayHook (t :: rest).reverse rt₀ =
      andThen (callIf (hooked hooks isArr) (hookPair objectHook arrayHook) obj s'.rt) fun obj rt =>
        (some (obj :: outerObjs.reverse).reverse, rt) := by
    rw [List.reverse_cons, foldItems_snoc, hrest]
    show andThen (foldTree hooks objectHook arrayHook t rt₁) _ = _
    rw [htree]
    congr 1
    funext obj rt
    rw [List.reverse_cons, List.reverse_reverse]
  rw [close_eq hbuild, resolve_close hbuild', h.ctn]
  generalize callIf (hooked hooks isArr) (hookPair objectHook arrayHook) obj s'.rt = result
    at hfold ⊢
  -- The container around it goes on alike, or there is none.
  obtain ⟨_ | obj, rt⟩ := result
  · cases s.ctn.tail with
    | nil => exact ⟨rfl, hfold⟩
    | cons ctn outer => exact ⟨rfl, hfold⟩
  · cases s.ctn.tail with
    | nil => exact ⟨rfl, h.cur, rfl, hfold⟩
    | cons ctn outer => exact ⟨rfl, rfl, rfl, hfold⟩

/-- The list for an array that ends. -/
theorem arrEnd_build {objVal : List (PyStr × PyVal) → PyVal} {vs : List PyVal} {outer : List Open}
    (habs : Abs src (.arrEnd vs outer) s) :
    buildCtn (valuesWith objVal) true (ctnLen s) s.objs s.rt =
      (some (.list vs), outerObjs outer, ()) := by
  have hlen : ctnLen s = vs.length := by
    rw [ctnLen, habs.ctn]
    rfl
  rw [hlen, habs.objs]
  exact buildArr_valuesWith objVal vs _

/-- What is made of the members of an object that ends. -/
theorem objEnd_build {objVal : List (PyStr × PyVal) → PyVal} {ms : List (PyStr × PyVal)}
    {outer : List Open} (habs : Abs src (.objEnd ms outer) s) :
    buildCtn (valuesWith objVal) false (ctnLen s) s.objs s.rt =
      (some (objVal ms), outerObjs outer, ()) := by
  have hlen : ctnLen s = ms.length := by
    rw [ctnLen, habs.ctn]
    rfl
  rw [hlen, habs.objs]
  exact buildObj_valuesWith objVal ms _

theorem hookOps_buildArr (objs rest : List (HookVal α)) (rt : σ) :
    hookOps.buildArr objs.length (objs.reverse ++ rest) rt = (some (.list objs), rest, rt) := by
  have hlen : objs.length = objs.reverse.length := List.length_reverse.symm
  simp only [hookOps]
  rw [hlen, List.take_left, List.drop_left, List.reverse_reverse]

theorem hookOps_buildObj (pairs : List (PyStr × HookVal α)) (rest : List (HookVal α)) (rt : σ) :
    hookOps.buildObj pairs.length ((pairObjs pairs).reverse ++ rest) rt =
      (some (hookDict pairs), rest, rt) := by
  have hlen : 2 * pairs.length = (pairObjs pairs).reverse.length := by
    rw [List.length_reverse, length_pairObjs]
  simp only [hookOps]
  rw [hlen, List.take_left, List.drop_left, hookPairsOf_pairObjs]

theorem arrEnd_follows {vs : List PyVal} {outer : List Open} {cur : Nat}
    (habs : Abs src (.arrEnd vs outer) s) (h : Folded hooks objectHook arrayHook rt₀ s s') :
    Follows hooks objectHook arrayHook rt₀ (performClose (valuesWith .dict) noHooks true cur s)
      (resolve (hookPair objectHook arrayHook) (performClose hookOps hooks true cur s')) := by
  have hobjs := h.objs
  rw [habs.objs, Config.objs, List.reverse_append, List.reverse_reverse] at hobjs
  obtain ⟨made, objs, rt₁, hsplit, houter, hown⟩ := split_objs hobjs
  have hlen : ctnLen s' = objs.length := by
    rw [length_foldItems hown, ctnLen, h.ctn, habs.ctn]
    rfl
  refine @close_follows _ _ _ _ _ _ _ _ _ _ (.list vs) (.list objs) (outerObjs outer) made _ h
    (arrEnd_build habs) ?_ houter ?_
  · rw [hlen, hsplit]
    exact hookOps_buildArr objs _ s'.rt
  · rw [foldTree, hown]
    rfl

theorem objEnd_follows {ms : List (PyStr × PyVal)} {outer : List Open} {cur : Nat}
    (habs : Abs src (.objEnd ms outer) s) (h : Folded hooks objectHook arrayHook rt₀ s s') :
    Follows hooks objectHook arrayHook rt₀ (performClose (valuesWith .dict) noHooks false cur s)
      (resolve (hookPair objectHook arrayHook) (performClose hookOps hooks false cur s')) := by
  have hobjs := h.objs
  rw [habs.objs, Config.objs, List.reverse_append] at hobjs
  obtain ⟨made, objs, rt₁, hsplit, houter, hown⟩ := split_objs hobjs
  rw [foldItems_memberObjs] at hown
  obtain ⟨pairs, rt₂, hpairs, hmade⟩ := andThen_eq_some hown
  rw [Prod.mk.injEq, Option.some.injEq] at hmade
  obtain ⟨rfl, rfl⟩ := hmade
  have hlen : ctnLen s' = pairs.length := by
    rw [length_foldMembers hpairs, ctnLen, h.ctn, habs.ctn]
    rfl
  refine @close_follows _ _ _ _ _ _ _ _ _ _ (.dict ms) (hookDict pairs) (outerObjs outer) made _ h
    (objEnd_build habs) ?_ houter ?_
  · rw [hlen, hsplit]
    exact hookOps_buildObj pairs _ s'.rt
  · rw [foldTree, hpairs]
    rfl

/-- An action is followed. -/
theorem perform_follows {action : RootAction} (habs : Abs src c s)
    (hfits : action.FitsLabel s.label) (h : Folded hooks objectHook arrayHook rt₀ s s') :
    Follows hooks objectHook arrayHook rt₀ (perform (valuesWith .dict) noHooks s action)
      (resolve (hookPair objectHook arrayHook) (perform hookOps hooks s' action)) := by
  have hincr : incrCtn s'.ctn = incrCtn s.ctn := by
    rw [h.ctn]
  cases action with
  | jump label cur => exact ⟨rfl, rfl, h.ctn, h.objs⟩
  | openCtn isArr cur =>
      unfold perform
      dsimp only
      rw [h.ctn]
      by_cases hdeep : s.ctn.length < decodeMaxRecursion
      · rw [if_pos hdeep, if_pos hdeep]
        exact ⟨rfl, rfl, rfl, h.objs⟩
      · rw [if_neg hdeep]
        trivial
  | scalar scalar next error cur =>
      cases scalar with
      | number num => exact push_folded h (fun rt => by rw [foldTree]) next cur hincr ()
      | string made => exact push_folded h (fun rt => by rw [foldTree]) next cur hincr ()
      | bool b => exact push_folded h (fun rt => by rw [foldTree]) next cur hincr ()
  | null next nan cur => exact push_folded h (fun rt => by rw [foldTree]) next cur hincr ()
  | key made cur => exact push_folded h (fun rt => by rw [foldTree]) .objKeyEnd cur h.ctn ()
  | close isArr cur =>
      have hlabel : c.label = if isArr then .arrEnd else .objEnd := habs.label.symm.trans hfits
      cases isArr with
      | true =>
          cases c with
          | arrEnd vs outer => exact arrEnd_follows habs h
          | _ => cases hlabel
      | false =>
          cases c with
          | objEnd ms outer => exact objEnd_follows habs h
          | _ => cases hlabel
  | finish cur =>
      have hlabel : c.label = .docEnd := habs.label.symm.trans hfits
      cases c with
      | docEnd t =>
          have hobjs := h.objs
          rw [habs.objs, Config.objs, List.reverse_singleton, foldItems] at hobjs
          obtain ⟨obj, rt₁, htree, hrest⟩ := andThen_eq_some hobjs
          rw [foldItems] at hrest
          obtain ⟨hmade, rfl⟩ := Prod.mk.inj hrest
          have hsingle : s'.objs = [obj] := by
            rw [← List.reverse_reverse s'.objs, ← Option.some.inj hmade]
            rfl
          unfold perform success
          dsimp only
          rw [habs.objs, hsingle]
          exact htree
      | _ => cases hlabel
  | fail error cur => trivial

/-- A step of a call with hooks follows that of one without. -/
theorem step_follows (habs : Abs src c s) (h : Folded hooks objectHook arrayHook rt₀ s s') :
    Follows hooks objectHook arrayHook rt₀ (step readers (valuesWith .dict) noHooks src s)
      (resolve (hookPair objectHook arrayHook) (step readers hookOps hooks src s')) := by
  have hlen : ctnLen s' = ctnLen s := by
    rw [ctnLen, ctnLen, h.ctn]
  rw [step_eq, step_eq, h.label, h.cur, hlen]
  exact perform_follows habs readAction_fits h

/-! ## Once a hook has raised -/

/-- What a step of a call without hooks does after a hook of the other has raised: what it has read
up to there is still in front of what follows. -/
def Raised (hooks : Hooks) (objectHook arrayHook : Hook σ α) (rt₀ rt : σ) :
    Transition Unit PyVal → Prop
  | .goto s => foldItems hooks objectHook arrayHook s.objs.reverse rt₀ = (none, rt)
  | .ret t _ => foldTree hooks objectHook arrayHook t rt₀ = (none, rt)
  | _ => True

section Raised

variable {rt : σ} (h : foldItems hooks objectHook arrayHook s.objs.reverse rt₀ = (none, rt))

include h

/-- An object on top changes nothing. -/
theorem push_raised (t : PyVal) :
    foldItems hooks objectHook arrayHook (t :: s.objs).reverse rt₀ = (none, rt) := by
  rw [List.reverse_cons, foldItems_snoc, h]
  rfl

/-- A hook has raised in front of a container that ends, or inside of it. -/
theorem close_raised {isArr : Bool} {cur : Nat} {t : PyVal} {rest own : List PyVal}
    (hbuild : buildCtn (valuesWith .dict) isArr (ctnLen s) s.objs s.rt = (some t, rest, ()))
    (hobjs : s.objs.reverse = rest.reverse ++ own)
    (htree : ∀ rt₁, foldItems hooks objectHook arrayHook own rt₁ = (none, rt) →
      foldTree hooks objectHook arrayHook t rt₁ = (none, rt)) :
    Raised hooks objectHook arrayHook rt₀ rt
      (performClose (valuesWith .dict) noHooks isArr cur s) := by
  have hfold : foldItems hooks objectHook arrayHook (t :: rest).reverse rt₀ = (none, rt) := by
    rw [hobjs, foldItems_append] at h
    rw [List.reverse_cons, foldItems_snoc]
    rcases andThen_eq_none h with hrest | ⟨objs, rt₁, hrest, hown⟩
    · rw [hrest]
      rfl
    · rw [hrest]
      rcases andThen_eq_none hown with hown | ⟨objs', rt₂, -, hmade⟩
      · show andThen (foldTree hooks objectHook arrayHook t rt₁) _ = _
        rw [htree rt₁ hown]
        rfl
      · cases hmade
  rw [close_eq hbuild]
  cases hctn : s.ctn.tail with
  | nil => exact hfold
  | cons ctn outer => exact hfold

theorem arrEnd_raised {vs : List PyVal} {outer : List Open} {cur : Nat}
    (habs : Abs src (.arrEnd vs outer) s) :
    Raised hooks objectHook arrayHook rt₀ rt
      (performClose (valuesWith .dict) noHooks true cur s) := by
  refine @close_raised _ _ _ _ _ _ _ _ h _ _ (.list vs) (outerObjs outer) vs (arrEnd_build habs)
    ?_ ?_
  · rw [habs.objs, Config.objs, List.reverse_append, List.reverse_reverse]
  · intro rt₁ hown
    rw [foldTree, hown]
    rfl

theorem objEnd_raised {ms : List (PyStr × PyVal)} {outer : List Open} {cur : Nat}
    (habs : Abs src (.objEnd ms outer) s) :
    Raised hooks objectHook arrayHook rt₀ rt
      (performClose (valuesWith .dict) noHooks false cur s) := by
  refine @close_raised _ _ _ _ _ _ _ _ h _ _ (.dict ms) (outerObjs outer) (memberObjs ms).reverse
    (objEnd_build habs) ?_ ?_
  · rw [habs.objs, Config.objs, List.reverse_append]
  · intro rt₁ hown
    rw [foldItems_memberObjs] at hown
    rcases andThen_eq_none hown with hmembers | ⟨pairs, rt₂, -, hmade⟩
    · rw [foldTree, hmembers]
      rfl
    · cases hmade

theorem perform_raised {action : RootAction} (habs : Abs src c s)
    (hfits : action.FitsLabel s.label) :
    Raised hooks objectHook arrayHook rt₀ rt (perform (valuesWith .dict) noHooks s action) := by
  cases action with
  | jump label cur => exact h
  | openCtn isArr cur =>
      unfold perform
      dsimp only
      by_cases hdeep : s.ctn.length < decodeMaxRecursion
      · rw [if_pos hdeep]
        exact h
      · rw [if_neg hdeep]
        trivial
  | scalar scalar next error cur =>
      cases scalar with
      | number num => exact push_raised h (.num num)
      | string made => exact push_raised h (.str made.str)
      | bool b => exact push_raised h (.bool b)
  | null next nan cur => exact push_raised h .none
  | key made cur => exact push_raised h (.str made.str)
  | close isArr cur =>
      have hlabel : c.label = if isArr then .arrEnd else .objEnd := habs.label.symm.trans hfits
      cases isArr with
      | true =>
          cases c with
          | arrEnd vs outer => exact arrEnd_raised h habs
          | _ => cases hlabel
      | false =>
          cases c with
          | objEnd ms outer => exact objEnd_raised h habs
          | _ => cases hlabel
  | finish cur =>
      have hlabel : c.label = .docEnd := habs.label.symm.trans hfits
      cases c with
      | docEnd t =>
          rw [habs.objs, Config.objs, List.reverse_singleton, foldItems] at h
          unfold perform success
          dsimp only
          rw [habs.objs]
          rcases andThen_eq_none h with htree | ⟨obj, rt₁, -, hrest⟩
          · exact htree
          · rw [foldItems] at hrest
            cases hrest
      | _ => cases hlabel
  | fail error cur => trivial

end Raised

/-! ## Runs -/

variable {hook : PyVal → Unit → Option PyVal × Unit} {last : RootState Unit PyVal} {t : PyVal}

/-- If a hook has raised, it raises in the fold of the document. The induction is on the fuel. -/
theorem run_raised (spec : ReadersSpec readers enc numVal src) (fuel : Nat) {rt : σ}
    (habs : Abs src c s) (h : foldItems hooks objectHook arrayHook s.objs.reverse rt₀ = (none, rt))
    (hrun : run readers (valuesWith .dict) noHooks src hook fuel s = some (.ok t, last)) :
    foldTree hooks objectHook arrayHook t rt₀ = (none, rt) := by
  induction fuel generalizing s c with
  | zero => cases hrun
  | succ fuel ih =>
      have hsim := @step_simulates _ _ _ PyVal.dict _ _ _ spec habs
      have hraised : Raised hooks objectHook arrayHook rt₀ rt
          (step readers (valuesWith .dict) noHooks src s) := by
        rw [step_eq]
        exact perform_raised h habs readAction_fits
      unfold run at hrun
      cases hstep : step readers (valuesWith .dict) noHooks src s with
      | goto next =>
          rw [hstep] at hsim hraised hrun
          obtain ⟨-, c', habs', -⟩ := hsim
          exact ih habs' hraised hrun
      | fail e next =>
          rw [hstep] at hrun
          cases hrun
      | ret v next =>
          rw [hstep] at hraised hrun
          cases hrun
          exact hraised
      | callHook a rt k =>
          rw [hstep] at hsim
          exact hsim.elim

/-- What a run with hooks must end with. -/
def answer : Option (HookVal α) → Except DecodeError (HookVal α)
  | none => .error .alreadySet
  | some obj => .ok obj

/-- A run with hooks ends as the fold of the document does. The induction is on the fuel. -/
theorem run_follows (spec : ReadersSpec readers enc numVal src) (fuel : Nat)
    (habs : Abs src c s) (h : Folded hooks objectHook arrayHook rt₀ s s')
    (hrun : run readers (valuesWith .dict) noHooks src hook fuel s = some (.ok t, last)) :
    ∃ last', run readers hookOps hooks src (hookPair objectHook arrayHook) fuel s' =
        some (answer (foldTree hooks objectHook arrayHook t rt₀).1, last') ∧
      last'.rt = (foldTree hooks objectHook arrayHook t rt₀).2 := by
  induction fuel generalizing s s' c with
  | zero => cases hrun
  | succ fuel ih =>
      have hsim := @step_simulates _ _ _ PyVal.dict _ _ _ spec habs
      have hfollows := @step_follows _ _ _ _ _ _ readers _ _ _ _ habs h
      unfold run at hrun ⊢
      generalize resolve (hookPair objectHook arrayHook) (step readers hookOps hooks src s') = t'
        at hfollows
      cases hstep : step readers (valuesWith .dict) noHooks src s with
      | goto next =>
          rw [hstep] at hsim hfollows hrun
          obtain ⟨-, c', habs', -⟩ := hsim
          cases t' with
          | goto next' => exact ih habs' hfollows hrun
          | fail e next' =>
              obtain ⟨rfl, hnone⟩ := hfollows
              have htree := run_raised spec fuel habs' hnone hrun
              exact ⟨next', by rw [htree]; rfl, by rw [htree]⟩
          | ret v next' => exact hfollows.elim
          | callHook a rt k => exact hfollows.elim
      | fail e next =>
          rw [hstep] at hrun
          cases hrun
      | ret v next =>
          rw [hstep] at hfollows hrun
          cases hrun
          cases t' with
          | goto next' => exact hfollows.elim
          | fail e next' => exact hfollows.elim
          | ret v next' => exact ⟨next', by rw [hfollows]; rfl, by rw [hfollows]⟩
          | callHook a rt k => exact hfollows.elim
      | callHook a rt k =>
          rw [hstep] at hsim
          exact hsim.elim

end Root

/-! ## The call -/

section Call

variable {env : DecodeEnv} {kind : SourceKind} {src text : Source} {t : PyVal}
  {hook : PyVal → Unit → Option PyVal × Unit}

/-- How a call ends where the fold of the document gives `result`: it returns the object, or raises
what a hook has raised. -/
def HookResult (result : Option (HookVal α)) : Loaded (HookVal α) → Prop
  | .ok obj => result = some obj
  | .error error _ => result = none ∧ error = .alreadySet
  | .wild => False

theorem cleanup_hookOps (s : RootState σ (HookVal α)) : cleanup hookOps s = s.rt := by
  unfold cleanup
  induction s.objs.reverse with
  | nil => rfl
  | cons obj objs ih => exact ih

/-- At the start there is nothing to fold. -/
theorem start_folded (readers : Readers) : Folded hooks objectHook arrayHook rt₀
    (Root.start readers text ()) (Root.start readers text rt₀) := by
  unfold Root.start
  split <;> exact ⟨rfl, rfl, rfl, by rw [List.reverse_nil, foldItems]; rfl⟩

/-- `loads_root_pretty` and `loads_root_minify` with hooks. -/
theorem loadsRoot_follows (hholds : kind.Holds text)
    (hopen : text.read 0 = 0x5B ∨ text.read 0 = 0x7B) {pretty : Bool}
    (h : loadsRoot env kind (valuesWith .dict) noHooks hook text () pretty = some (.ok t, ())) :
    ∃ result, loadsRoot env kind hookOps hooks (hookPair objectHook arrayHook) text rt₀ pretty =
        some (result, (foldTree hooks objectHook arrayHook t rt₀).2) ∧
      HookResult (foldTree hooks objectHook arrayHook t rt₀).1 result := by
  unfold loadsRoot at h ⊢
  cases hscratch : env.reserve text.len with
  | none =>
      rw [hscratch] at h
      cases h
  | some scratch =>
      rw [hscratch] at h
      have hspec := @rootReaders_spec text kind env.isa scratch pretty hholds
      obtain ⟨⟨result, last⟩, hrun, hmade⟩ := Option.map_eq_some_iff.mp h
      cases result with
      | error error => cases hmade
      | ok t' =>
          cases hmade
          obtain ⟨c, habs, -⟩ := @start_abs (rootReaders env.isa scratch kind pretty) kind.code.enc
            numVal .dict _ hopen
          obtain ⟨last', hrun', hrt⟩ := Root.run_follows hspec _ habs
            (@start_folded _ _ hooks objectHook arrayHook rt₀ _ _) hrun
          dsimp only
          rw [hrun', ← hrt]
          generalize (foldTree hooks objectHook arrayHook t rt₀).1 = result
          cases result with
          | none =>
              refine ⟨.error .alreadySet last'.cur, ?_, rfl, rfl⟩
              rw [← cleanup_hookOps last']
              rfl
          | some obj => exact ⟨.ok obj, rfl, rfl⟩

theorem makeSingle_fold (single : Single) : makeSingle hookOps rt₀ single =
    foldTree hooks objectHook arrayHook single.val rt₀ := by
  cases single <;> rw [Single.val, foldTree] <;> rfl

/-- A single value goes through no hook. -/
theorem foldTree_single (single : Single) : ∃ obj : HookVal α,
    foldTree hooks objectHook arrayHook single.val rt₀ = (some obj, rt₀) := by
  cases single <;> exact ⟨_, by rw [Single.val, foldTree]⟩

/-- `loads_root_single` with hooks. -/
theorem loadsRootSingle_follows
    (h : loadsRootSingle env kind (valuesWith .dict) text () = (.ok t, ())) :
    ∃ result, loadsRootSingle env kind hookOps text rt₀ =
        (result, (foldTree hooks objectHook arrayHook t rt₀).2) ∧
      HookResult (foldTree hooks objectHook arrayHook t rt₀).1 result := by
  unfold loadsRootSingle at h ⊢
  cases hread : readSingle env kind text with
  | wild =>
      rw [hread] at h
      cases h
  | fail error cur =>
      rw [hread] at h
      cases h
  | found single error cur =>
      obtain ⟨obj, hobj⟩ := @foldTree_single _ _ hooks objectHook arrayHook rt₀ single
      rw [hread] at h
      dsimp only at h ⊢
      rw [makeSingle_value] at h
      rw [@makeSingle_fold _ _ hooks objectHook arrayHook rt₀ single, hobj]
      dsimp only at h ⊢
      split at h
      · rename_i hmore
        split at h
        · cases h
        · rename_i hdone
          cases h
          rw [if_pos hmore, if_neg hdone, hobj]
          exact ⟨_, rfl, rfl⟩
      · rename_i hdone
        cases h
        rw [if_neg hdone, hobj]
        exact ⟨_, rfl, rfl⟩

/-- A call with hooks follows the call that makes the parse tree. -/
theorem decode_follows (hholds : kind.Holds src)
    (h : decode env kind (valuesWith .dict) noHooks hook src () = some (.ok t, ())) :
    ∃ result, decode env kind hookOps hooks (hookPair objectHook arrayHook) src rt₀ =
        some (result, (foldTree hooks objectHook arrayHook t rt₀).2) ∧
      HookResult (foldTree hooks objectHook arrayHook t rt₀).1 result := by
  unfold decode decodeWith at h ⊢
  split at h
  · cases h
  rename_i hlen
  rw [if_neg hlen]
  cases hskip : skipLeading src with
  | none =>
      rw [hskip] at h
      cases h
  | some start =>
      rw [hskip] at h
      dsimp only at h ⊢
      cases htext : rootText env kind src start with
      | none =>
          rw [htext] at h
          cases h
      | some text =>
          rw [htext] at h
          dsimp only at h ⊢
          unfold loadsText at h ⊢
          split at h
          · rename_i hopen
            rw [if_pos hopen]
            exact loadsRoot_follows (Holds.rootText hholds htext) (isContainer_iff.mp hopen) h
          · rename_i hopen
            rw [if_neg hopen]
            obtain ⟨result, hresult, hright⟩ := loadsRootSingle_follows (Option.some.inj h)
            exact ⟨result, congrArg some hresult, hright⟩

/-- For every text that a call without hooks accepts, a call with hooks calls them as the fold of
the parse tree does, once for each container when it closes, with the hooked members. It returns
what the fold gives, or raises what a hook has raised. -/
theorem hooks_fold (env : DecodeEnv) (kind : SourceKind) (src : Source) (hholds : kind.Holds src)
    (hreserve : ∀ n, env.reserve n ≠ none) (hcopies : kind = .bytes → ∀ n, env.copies n = true)
    (hook : PyVal → Unit → Option PyVal × Unit) (v : PyVal)
    (haccepted : decode env kind valueOps noHooks hook src () = some (.ok v, ()))
    (hooks : Hooks) (objectHook arrayHook : Hook σ α) (rt₀ : σ) :
    ∃ t, (∀ t', kind.Derives .dict src t' ↔ t' = t) ∧ treeValue t = v ∧
      ∃ result, decode env kind hookOps hooks (hookPair objectHook arrayHook) src rt₀ =
          some (result, (foldTree hooks objectHook arrayHook t rt₀).2) ∧
        HookResult (foldTree hooks objectHook arrayHook t rt₀).1 result := by
  obtain ⟨result, hresult, hright⟩ := @decode_right env kind src dictOf hholds hreserve hcopies hook
  obtain ⟨hloaded, -⟩ := Prod.mk.inj (Option.some.inj (hresult.symm.trans haccepted))
  subst hloaded
  obtain ⟨t, htree, hval⟩ := Document.tree ((hright v).mpr rfl)
  have hdecoded := decode_derived hholds hreserve hcopies hook htree
  obtain ⟨tree, htreed, hunique⟩ := @decode_right env kind src .dict hholds hreserve hcopies hook
  obtain ⟨hloaded, -⟩ := Prod.mk.inj (Option.some.inj (htreed.symm.trans hdecoded))
  subst hloaded
  exact ⟨t, hunique, hval, decode_follows hholds hdecoded⟩

theorem hooks_fold_raises :
    let env : DecodeEnv := ⟨.avx2, fun _ => some fun _ => 0, fun _ => true, fun _ => 0, fun _ => 0⟩
    let src := Source.ofUnits [0x5B, 0x7B, 0x7D, 0x5D]
    let objectHook : Hook (List Nat) Unit := fun _ calls => (some (.foreign ()), calls ++ [1])
    let arrayHook : Hook (List Nat) Unit := fun _ calls => (none, calls ++ [2])
    ∃ t, (∀ t', (SourceKind.str .ascii).Derives .dict src t' ↔ t' = t) ∧
      treeValue t = .list [.dict []] ∧
      ∃ result, decode env (.str .ascii) hookOps ⟨true, true⟩ (hookPair objectHook arrayHook) src
          [] = some (result, (foldTree ⟨true, true⟩ objectHook arrayHook t []).2) ∧
        HookResult (foldTree ⟨true, true⟩ objectHook arrayHook t []).1 result := by
  have haccepted : decode
      ⟨.avx2, fun _ => some fun _ => 0, fun _ => true, fun _ => 0, fun _ => 0⟩ (.str .ascii) valueOps
      noHooks (fun v rt => (some v, rt)) (Source.ofUnits [0x5B, 0x7B, 0x7D, 0x5D]) () =
        some (.ok (.list [.dict []]), ()) := rfl
  intro env src objectHook arrayHook
  have hholds : SourceKind.Holds src (.str .ascii) := show ∀ u ∈ src.units, u ≤ 0x7F by decide
  exact hooks_fold env _ src hholds (fun _ => nofun) nofun (fun v rt => (some v, rt)) _
    haccepted ⟨true, true⟩ objectHook arrayHook []

end Call

end SsrJson.Decode
