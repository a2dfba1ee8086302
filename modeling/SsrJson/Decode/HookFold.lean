import SsrJson.Decode.RootConfig
import SsrJson.Spec.ParseTree

/-!
# Hooks

A call with hooks makes the objects of `hookOps`: values as `loads` builds them, and whatever a hook
returns. What the hooks are to be called with is a fold of the parse tree from the leaves up,
`foldTree`, which threads the state that the hooks share and stops where one raises.
-/

namespace SsrJson.Decode

open Spec

/-- An object of a call with hooks. `foreign` is one that `loads` does not build itself. -/
inductive HookVal (α : Type) where
  | foreign (obj : α)
  | none
  | bool (value : Bool)
  | num (value : Num)
  | str (value : PyStr)
  | list (items : List (HookVal α))
  | dict (items : List (PyStr × HookVal α))

variable {α σ : Type}

/-- The dict that results from setting the pairs in order. -/
def hookDict (pairs : List (PyStr × HookVal α)) : HookVal α :=
  .dict (pairs.foldl (fun items pair => dictSet items pair.1 pair.2) [])

/-- The pairs among the topmost objects, each a value on top of its key. -/
def hookPairsOf : List (HookVal α) → List (PyStr × HookVal α)
  | v :: .str k :: rest => hookPairsOf rest ++ [(k, v)]
  | _ => []

/-- Objects are values and no operation fails. -/
def hookOps : ObjectOps σ (HookVal α) where
  number num rt := (some (.num num), rt)
  string made rt := (some (.str made.str), rt)
  none rt := (.none, rt)
  bool b rt := (.bool b, rt)
  push _ _ rt := (true, rt)
  buildArr n objs rt := (some (.list (objs.take n).reverse), objs.drop n, rt)
  buildObj n objs rt := (some (hookDict (hookPairsOf (objs.take (2 * n)))), objs.drop (2 * n), rt)
  decref _ rt := rt

/-- What a hook does: it returns an object or raises, and may change what it shares with others. -/
abbrev Hook (σ α : Type) : Type := HookVal α → σ → Option (HookVal α) × σ

/-- `object_hook` is called with dicts, `array_hook` with lists. -/
def hookPair (objectHook arrayHook : Hook σ α) : Hook σ α
  | .dict items, rt => objectHook (.dict items) rt
  | v, rt => arrayHook v rt

/-! ## The fold -/

/-- Go on with what was made, unless a hook has raised. -/
def andThen {β γ : Type} (result : Option β × σ) (next : β → σ → Option γ × σ) : Option γ × σ :=
  match result with
  | (none, rt) => (none, rt)
  | (some made, rt) => next made rt

theorem andThen_assoc {β γ δ : Type} (result : Option β × σ) (next : β → σ → Option γ × σ)
    (last : γ → σ → Option δ × σ) :
    andThen (andThen result next) last =
      andThen result fun made rt => andThen (next made rt) last := by
  obtain ⟨_ | made, rt⟩ := result <;> rfl

theorem andThen_eq_some {β γ : Type} {result : Option β × σ} {next : β → σ → Option γ × σ}
    {made : γ} {rt : σ} (h : andThen result next = (some made, rt)) :
    ∃ first rt', result = (some first, rt') ∧ next first rt' = (some made, rt) := by
  obtain ⟨_ | first, rt'⟩ := result
  · cases h
  · exact ⟨first, rt', rfl, h⟩

theorem andThen_eq_none {β γ : Type} {result : Option β × σ} {next : β → σ → Option γ × σ}
    {rt : σ} (h : andThen result next = (none, rt)) :
    result = (none, rt) ∨
      ∃ first rt', result = (some first, rt') ∧ next first rt' = (none, rt) := by
  obtain ⟨_ | first, rt'⟩ := result
  · obtain rfl : rt' = rt := congrArg Prod.snd h
    exact .inl rfl
  · exact .inr ⟨first, rt', rfl, h⟩

/-- Call a hook, if there is one. -/
def callIf (present : Bool) (hook : Hook σ α) (obj : HookVal α) (rt : σ) : Option (HookVal α) × σ :=
  if present then hook obj rt else (some obj, rt)

section Fold

variable (hooks : Hooks) (objectHook arrayHook : Hook σ α)

mutual

/-- The object for a parse tree: a container is made of the objects for what is in it, and goes
through its hook. -/
def foldTree : PyVal → σ → Option (HookVal α) × σ
  | .none, rt => (some .none, rt)
  | .bool b, rt => (some (.bool b), rt)
  | .num num, rt => (some (.num num), rt)
  | .str str, rt => (some (.str str), rt)
  | .list items, rt => andThen (foldItems items rt) fun objs =>
      callIf hooks.array arrayHook (.list objs)
  | .dict members, rt => andThen (foldMembers members rt) fun pairs =>
      callIf hooks.object objectHook (hookDict pairs)

/-- The objects for the elements of an array, from the first to the last. -/
def foldItems : List PyVal → σ → Option (List (HookVal α)) × σ
  | [], rt => (some [], rt)
  | t :: ts, rt => andThen (foldTree t rt) fun obj rt =>
      andThen (foldItems ts rt) fun objs rt => (some (obj :: objs), rt)

/-- The pairs for the members of an object, from the first to the last. -/
def foldMembers : List (PyStr × PyVal) → σ → Option (List (PyStr × HookVal α)) × σ
  | [], rt => (some [], rt)
  | (k, t) :: ms, rt => andThen (foldTree t rt) fun obj rt =>
      andThen (foldMembers ms rt) fun pairs rt => (some ((k, obj) :: pairs), rt)

end

end Fold

/-! ## The fold of a stack -/

section Stack

variable {hooks : Hooks} {objectHook arrayHook : Hook σ α}

theorem foldItems_append (ts ts' : List PyVal) (rt : σ) :
    foldItems hooks objectHook arrayHook (ts ++ ts') rt =
      andThen (foldItems hooks objectHook arrayHook ts rt) fun objs rt =>
        andThen (foldItems hooks objectHook arrayHook ts' rt) fun objs' rt =>
          (some (objs ++ objs'), rt) := by
  induction ts generalizing rt with
  | nil =>
      rw [foldItems, List.nil_append]
      show _ = andThen (foldItems hooks objectHook arrayHook ts' rt) fun objs' rt =>
        (some ([] ++ objs'), rt)
      obtain ⟨_ | objs, rt'⟩ := foldItems hooks objectHook arrayHook ts' rt <;> rfl
  | cons t ts ih =>
      rw [List.cons_append, foldItems, foldItems, andThen_assoc]
      congr 1
      funext obj rt'
      rw [ih, andThen_assoc, andThen_assoc]
      congr 1
      funext objs rt''
      rw [andThen_assoc]
      rfl

theorem foldItems_snoc (ts : List PyVal) (t : PyVal) (rt : σ) :
    foldItems hooks objectHook arrayHook (ts ++ [t]) rt =
      andThen (foldItems hooks objectHook arrayHook ts rt) fun objs rt =>
        andThen (foldTree hooks objectHook arrayHook t rt) fun obj rt =>
          (some (objs ++ [obj]), rt) := by
  rw [foldItems_append]
  congr 1
  funext objs rt'
  rw [foldItems, andThen_assoc]
  rfl

/-- The members of an object as they lie on the object stack, the bottom first. -/
def pairObjs : List (PyStr × HookVal α) → List (HookVal α)
  | [] => []
  | (k, v) :: pairs => .str k :: v :: pairObjs pairs

theorem length_foldItems {ts : List PyVal} {objs : List (HookVal α)} {rt rt' : σ}
    (h : foldItems hooks objectHook arrayHook ts rt = (some objs, rt')) :
    objs.length = ts.length := by
  induction ts generalizing objs rt rt' with
  | nil =>
      rw [foldItems, Prod.mk.injEq, Option.some.injEq] at h
      rw [← h.1]
      rfl
  | cons t ts ih =>
      rw [foldItems] at h
      obtain ⟨obj, rt₁, -, hrest⟩ := andThen_eq_some h
      obtain ⟨objs', rt₂, hitems, hmade⟩ := andThen_eq_some hrest
      rw [Prod.mk.injEq, Option.some.injEq] at hmade
      rw [← hmade.1, List.length_cons, List.length_cons, ih hitems]

theorem length_foldMembers {ms : List (PyStr × PyVal)} {pairs : List (PyStr × HookVal α)}
    {rt rt' : σ} (h : foldMembers hooks objectHook arrayHook ms rt = (some pairs, rt')) :
    pairs.length = ms.length := by
  induction ms generalizing pairs rt rt' with
  | nil =>
      rw [foldMembers, Prod.mk.injEq, Option.some.injEq] at h
      rw [← h.1]
      rfl
  | cons m ms ih =>
      obtain ⟨k, t⟩ := m
      rw [foldMembers] at h
      obtain ⟨obj, rt₁, -, hrest⟩ := andThen_eq_some h
      obtain ⟨pairs', rt₂, hmembers, hmade⟩ := andThen_eq_some hrest
      rw [Prod.mk.injEq, Option.some.injEq] at hmade
      rw [← hmade.1, List.length_cons, List.length_cons, ih hmembers]

theorem length_pairObjs (pairs : List (PyStr × HookVal α)) :
    (pairObjs pairs).length = 2 * pairs.length := by
  induction pairs with
  | nil => rfl
  | cons pair pairs ih =>
      rw [pairObjs, List.length_cons, List.length_cons, List.length_cons, ih]
      omega

theorem pairObjs_append (pairs : List (PyStr × HookVal α)) (k : PyStr) (v : HookVal α) :
    pairObjs (pairs ++ [(k, v)]) = pairObjs pairs ++ [.str k, v] := by
  induction pairs with
  | nil => rfl
  | cons pair pairs ih => rw [List.cons_append, pairObjs, ih, pairObjs, List.cons_append,
      List.cons_append]

/-- The pairs on the object stack are those that were made. -/
theorem hookPairsOf_pairObjs (pairs : List (PyStr × HookVal α)) :
    hookPairsOf (pairObjs pairs).reverse = pairs := by
  induction pairs using List.reverseRecOn with
  | nil => rfl
  | append_singleton pairs pair ih =>
      obtain ⟨k, v⟩ := pair
      rw [pairObjs_append, List.reverse_append]
      show hookPairsOf (pairObjs pairs).reverse ++ [(k, v)] = _
      rw [ih]

/-- The fold of the members as they lie on the object stack. -/
theorem foldItems_memberObjs (ms : List (PyStr × PyVal)) (rt : σ) :
    foldItems hooks objectHook arrayHook (memberObjs ms).reverse rt =
      andThen (foldMembers hooks objectHook arrayHook ms rt) fun pairs rt =>
        (some (pairObjs pairs), rt) := by
  induction ms generalizing rt with
  | nil =>
      rw [memberObjs, List.reverse_nil, foldItems, foldMembers]
      rfl
  | cons m ms ih =>
      obtain ⟨k, t⟩ := m
      rw [memberObjs, List.reverse_append, foldMembers, andThen_assoc]
      show foldItems hooks objectHook arrayHook (.str k :: t :: (memberObjs ms).reverse) rt = _
      rw [foldItems, foldTree]
      show andThen (foldItems hooks objectHook arrayHook (t :: (memberObjs ms).reverse) rt)
        (fun objs rt => (some (.str k :: objs), rt)) = _
      rw [foldItems, andThen_assoc]
      congr 1
      funext obj rt'
      rw [ih, andThen_assoc, andThen_assoc, andThen_assoc]
      rfl

end Stack

end SsrJson.Decode
