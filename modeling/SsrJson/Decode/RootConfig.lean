import SsrJson.Decode.ReaderSpec
import Mathlib.Data.List.Induction

/-!
# The states of the root machine

The object stack and the container stack of the root machine are one structure taken apart: the
containers still open, each with the elements read so far. `Config` is that structure at one
label, `Abs` relates it to the stacks, and `Config.demand` is what the grammar still asks of the
text there.
-/

namespace SsrJson.Decode

open Spec

/-! ## Objects as values -/

/-- The pairs among the topmost objects, each a value on top of its key. -/
def pairsOf : List PyVal → List (PyStr × PyVal)
  | v :: .str k :: rest => pairsOf rest ++ [(k, v)]
  | _ => []

/-- Objects are values and no operation fails. What an object is made to is left open. -/
def valuesWith (objVal : List (PyStr × PyVal) → PyVal) : ObjectOps Unit PyVal where
  number num rt := (some (.num num), rt)
  string made rt := (some (.str made.str), rt)
  none rt := (.none, rt)
  bool b rt := (.bool b, rt)
  push _ _ rt := (true, rt)
  buildArr n objs rt := (some (.list (objs.take n).reverse), objs.drop n, rt)
  buildObj n objs rt := (some (objVal (pairsOf (objs.take (2 * n)))), objs.drop (2 * n), rt)
  decref _ rt := rt

/-- Objects are dicts. -/
def valueOps : ObjectOps Unit PyVal := valuesWith dictOf

/-- A call without hooks. -/
def noHooks : Hooks := ⟨false, false⟩

/-! ## Configurations -/

/-- The members of an object as they lie on the object stack, top first. -/
def memberObjs : List (PyStr × PyVal) → List PyVal
  | [] => []
  | (k, v) :: ms => memberObjs ms ++ [v, .str k]

/-- The entry of an open container on the container stack. -/
def openCtn : Open → Ctn
  | .array vs => ⟨true, vs.length⟩
  | .member ms _ => ⟨false, ms.length⟩

/-- The objects of an open container. -/
def openObjs : Open → List PyVal
  | .array vs => vs.reverse
  | .member ms k => .str k :: memberObjs ms

/-- The objects of all open containers. -/
def outerObjs (outer : List Open) : List PyVal := outer.flatMap openObjs

/-- A label of the machine with the containers open there. -/
inductive Config where
  | arrBegin (outer : List Open)
  | arrValBegin (values : List PyVal) (outer : List Open)
  | arrValEnd (values : List PyVal) (nonempty : values ≠ []) (outer : List Open)
  | arrEnd (values : List PyVal) (outer : List Open)
  | objBegin (outer : List Open)
  | objKeyBegin (members : List (PyStr × PyVal)) (outer : List Open)
  | objKeyEnd (members : List (PyStr × PyVal)) (key : PyStr) (outer : List Open)
  | objValBegin (members : List (PyStr × PyVal)) (key : PyStr) (outer : List Open)
  | objValEnd (members : List (PyStr × PyVal)) (nonempty : members ≠ []) (outer : List Open)
  | objEnd (members : List (PyStr × PyVal)) (outer : List Open)
  | docEnd (value : PyVal)

namespace Config

/-- The label of a configuration. -/
def label : Config → Label
  | .arrBegin _ => .arrBegin
  | .arrValBegin _ _ => .arrValBegin
  | .arrValEnd _ _ _ => .arrValEnd
  | .arrEnd _ _ => .arrEnd
  | .objBegin _ => .objBegin
  | .objKeyBegin _ _ => .objKeyBegin
  | .objKeyEnd _ _ _ => .objKeyEnd
  | .objValBegin _ _ _ => .objValBegin
  | .objValEnd _ _ _ => .objValEnd
  | .objEnd _ _ => .objEnd
  | .docEnd _ => .docEnd

/-- The container stack. -/
def ctn : Config → List Ctn
  | .arrBegin outer | .objBegin outer => outer.map openCtn
  | .arrValBegin vs outer | .arrValEnd vs _ outer | .arrEnd vs outer =>
      ⟨true, vs.length⟩ :: outer.map openCtn
  | .objKeyBegin ms outer | .objKeyEnd ms _ outer | .objValBegin ms _ outer | .objValEnd ms _ outer
  | .objEnd ms outer => ⟨false, ms.length⟩ :: outer.map openCtn
  | .docEnd _ => []

/-- The object stack. -/
def objs : Config → List PyVal
  | .arrBegin outer | .objBegin outer => outerObjs outer
  | .arrValBegin vs outer | .arrValEnd vs _ outer | .arrEnd vs outer => vs.reverse ++ outerObjs outer
  | .objKeyBegin ms outer | .objValEnd ms _ outer | .objEnd ms outer =>
      memberObjs ms ++ outerObjs outer
  | .objKeyEnd ms k outer | .objValBegin ms k outer => .str k :: (memberObjs ms ++ outerObjs outer)
  | .docEnd v => [v]

/-- What the text left must be for the document to end in the value `res`. -/
def demand (enc : Nat → Option (List Nat)) (numVal : List Nat → Num)
    (objVal : List (PyStr × PyVal) → PyVal) (c : Config) (s : List Nat) (res : PyVal) : Prop :=
  match c with
  | .arrBegin outer => outer.length < decodeMaxRecursion ∧
      ArrNext enc numVal objVal decodeMaxRecursion [] outer s res
  | .arrValBegin vs outer => ArrNext enc numVal objVal decodeMaxRecursion vs outer s res
  | .arrValEnd vs _ outer => ArrAfter enc numVal objVal decodeMaxRecursion vs outer s res
  | .arrEnd vs outer => Closes enc numVal objVal decodeMaxRecursion outer (.list vs) s res
  | .objBegin outer => outer.length < decodeMaxRecursion ∧
      KeyNext enc numVal objVal decodeMaxRecursion [] outer s res
  | .objKeyBegin ms outer => KeyNext enc numVal objVal decodeMaxRecursion ms outer s res
  | .objKeyEnd ms k outer => ColonNext enc numVal objVal decodeMaxRecursion ms k outer s res
  | .objValBegin ms k outer =>
      ValNext enc numVal objVal decodeMaxRecursion (.member ms k :: outer) s res
  | .objValEnd ms _ outer => ObjAfter enc numVal objVal decodeMaxRecursion ms outer s res
  | .objEnd ms outer => Closes enc numVal objVal decodeMaxRecursion outer (objVal ms) s res
  | .docEnd v => res = v ∧ Ws s []

variable {enc : Nat → Option (List Nat)} {numVal : List Nat → Num}
  {objVal : List (PyStr × PyVal) → PyVal}

/-- White space in front of the text left does not matter anywhere. -/
theorem demand_ws (c : Config) {s s' : List Nat} {res : PyVal} (h : Ws s s') :
    c.demand enc numVal objVal s res ↔ c.demand enc numVal objVal s' res := by
  cases c with
  | arrBegin outer => exact and_congr_right fun _ => arrNext_ws h
  | arrValBegin vs outer => exact arrNext_ws h
  | arrValEnd vs _ outer => exact arrAfter_ws h
  | arrEnd vs outer => exact closes_ws h
  | objBegin outer => exact and_congr_right fun _ => keyNext_ws h
  | objKeyBegin ms outer => exact keyNext_ws h
  | objKeyEnd ms k outer => exact colonNext_ws h
  | objValBegin ms k outer => exact valNext_ws h
  | objValEnd ms _ outer => exact objAfter_ws h
  | objEnd ms outer => exact closes_ws h
  | docEnd v => exact and_congr_right fun _ => Ws.iff h noWs_nil

/-- The configuration after a value read inside `o`. -/
def afterValue (o : Open) (v : PyVal) (outer : List Open) : Config :=
  match o with
  | .array vs => .arrValEnd (vs ++ [v]) (by simp) outer
  | .member ms k => .objValEnd (ms ++ [(k, v)]) (by simp) outer

/-- The label a value read inside `o` leads to. -/
def nextLabel : Open → Label
  | .array _ => .arrValEnd
  | .member _ _ => .objValEnd

theorem label_afterValue (o : Open) (v : PyVal) (outer : List Open) :
    (afterValue o v outer).label = nextLabel o := by
  cases o <;> rfl

theorem ctn_afterValue (o : Open) (v : PyVal) (outer : List Open) :
    (afterValue o v outer).ctn = incrCtn (openCtn o :: outer.map openCtn) := by
  cases o <;> simp [afterValue, ctn, incrCtn, openCtn]

theorem memberObjs_append (ms : List (PyStr × PyVal)) (k : PyStr) (v : PyVal) :
    memberObjs (ms ++ [(k, v)]) = v :: .str k :: memberObjs ms := by
  induction ms with
  | nil => rfl
  | cons m ms ih => simp [memberObjs, ih]

theorem objs_afterValue (o : Open) (v : PyVal) (outer : List Open) :
    (afterValue o v outer).objs = v :: (openObjs o ++ outerObjs outer) := by
  cases o <;> simp [afterValue, objs, openObjs, memberObjs_append]

theorem demand_afterValue {o : Open} {v : PyVal} {outer : List Open} {s : List Nat}
    {res : PyVal} :
    (afterValue o v outer).demand enc numVal objVal s res ↔
      Closes enc numVal objVal decodeMaxRecursion (o :: outer) v s res := by
  cases o with
  | array vs => exact closes_array_iff.symm
  | member ms k => exact closes_member_iff.symm

end Config

/-! ## Containers on the object stack -/

theorem length_memberObjs (ms : List (PyStr × PyVal)) : (memberObjs ms).length = 2 * ms.length := by
  induction ms with
  | nil => rfl
  | cons m ms ih =>
      simp only [memberObjs, List.length_append, ih, List.length_cons, List.length_nil]
      omega

/-- The pairs on the object stack are the members of the object. -/
theorem pairsOf_memberObjs (ms : List (PyStr × PyVal)) : pairsOf (memberObjs ms) = ms := by
  induction ms using List.reverseRecOn with
  | nil => rfl
  | append_singleton ms m ih =>
      obtain ⟨k, v⟩ := m
      rw [Config.memberObjs_append, pairsOf, ih]

theorem buildArr_valuesWith (objVal : List (PyStr × PyVal) → PyVal) (vs objs : List PyVal) :
    (valuesWith objVal).buildArr vs.length (vs.reverse ++ objs) () =
      (some (.list vs), objs, ()) := by
  have hlen : vs.length = vs.reverse.length := List.length_reverse.symm
  simp only [valuesWith]
  rw [hlen, List.take_left, List.drop_left, List.reverse_reverse]

theorem buildObj_valuesWith (objVal : List (PyStr × PyVal) → PyVal) (ms : List (PyStr × PyVal))
    (objs : List PyVal) :
    (valuesWith objVal).buildObj ms.length (memberObjs ms ++ objs) () =
      (some (objVal ms), objs, ()) := by
  simp only [valuesWith]
  rw [← length_memberObjs, List.take_left, List.drop_left, pairsOf_memberObjs]

/-! ## The relation between states and configurations -/

/-- The stacks of the machine hold the configuration. -/
structure Abs (src : Source) (c : Config) (s : RootState Unit PyVal) : Prop where
  label : s.label = c.label
  ctn : s.ctn = c.ctn
  objs : s.objs = c.objs
  bound : s.cur ≤ src.len

/-- Labels passed without reading. -/
def labelRank : Label → Nat
  | .arrBegin | .arrEnd | .objBegin | .objEnd => 1
  | _ => 0

/-- How far the machine still has to go. -/
def distance {σ Obj : Type} (src : Source) (s : RootState σ Obj) : Nat :=
  2 * (src.len - s.cur) + labelRank s.label

/-- What a step from a state in configuration `c` must do: reach a configuration that demands the
same and is nearer to the end, fail where nothing meets the demand, or return the one value that
meets it. -/
def Simulates (enc : Nat → Option (List Nat)) (numVal : List Nat → Num)
    (objVal : List (PyStr × PyVal) → PyVal) (src : Source) (c : Config)
    (s : RootState Unit PyVal) : Transition Unit PyVal → Prop
  | .goto s' => distance src s' < distance src s ∧ ∃ c', Abs src c' s' ∧
      ∀ res, c.demand enc numVal objVal (src.rest s.cur) res ↔
        c'.demand enc numVal objVal (src.rest s'.cur) res
  | .fail e s' => (e = .invalidString ∨ s'.cur ≤ src.len) ∧
      ∀ res, ¬ c.demand enc numVal objVal (src.rest s.cur) res
  | .ret v s' => s'.cur ≤ src.len ∧ ∀ res, c.demand enc numVal objVal (src.rest s.cur) res ↔ res = v
  | .callHook _ _ _ => False

end SsrJson.Decode
