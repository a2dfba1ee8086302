import Mathlib.Data.List.Chain
import Mathlib.Data.Set.Defs
import SsrJson.Encode.Outcomes

/-!
# The path of open containers

The container stack and the current container spell the path from the root to the current element:
every container on it refers to the next one, and the type its entry records is its type. This
holds whether or not containers are locked, and as long as the objects of the path keep their
references also when other code changes the objects.
-/

namespace SsrJson.Encode

/-- An object refers to another one. -/
def Child (heap : Heap) (outer inner : ObjId) : Prop := inner ∈ (heap outer).children

/-- A container refers to another one, or other code does. -/
def Link (kept : Set ObjId) (heap : Heap) (outer inner : ObjId) : Prop :=
  Child heap outer inner ∨ inner ∈ kept

/-- Where other code keeps nothing, the containers alone keep what is inside of them. -/
theorem link_empty {heap : Heap} {outer inner : ObjId} :
    Link ∅ heap outer inner ↔ Child heap outer inner :=
  or_iff_left fun h => h

/-- The containers that wait on the stack, the innermost first. -/
def below (stack : Nat → CtnEntry) : Nat → List ObjId
  | 0 | 1 => []
  | depth + 2 => (stack (depth + 1)).ctn :: below stack (depth + 1)

/-- The containers that wait depend on the entries under the depth only. -/
theorem below_congr {stack stack' : Nat → CtnEntry} {depth : Nat}
    (h : ∀ i, 0 < i → i < depth → stack i = stack' i) : below stack depth = below stack' depth := by
  induction depth with
  | zero => rfl
  | succ depth ih =>
      cases depth with
      | zero => rfl
      | succ depth =>
          rw [below, below, h (depth + 1) (Nat.succ_pos _) (Nat.lt_succ_self _),
            ih fun i hpos hlt => h i hpos (Nat.lt_succ_of_lt hlt)]

/-- The entry stored at the depth waits in front of the others. -/
theorem below_update (stack : Nat → CtnEntry) (entry : CtnEntry) {depth : Nat}
    (hdepth : 0 < depth) :
    below (Function.update stack depth entry) (depth + 1) = entry.ctn :: below stack depth := by
  obtain ⟨depth, rfl⟩ := Nat.exists_eq_succ_of_ne_zero (Nat.pos_iff_ne_zero.mp hdepth)
  have hcongr : below (Function.update stack (depth + 1) entry) (depth + 1) =
      below stack (depth + 1) :=
    below_congr fun i _ hlt => Function.update_of_ne (Nat.ne_of_lt hlt) _ _
  rw [Nat.succ_eq_add_one, below, hcongr, Function.update_self]

namespace EncodeState

variable (s : EncodeState)

/-- The items are encoded as values of keys. -/
def inDict : Bool :=
  match s.label with
  | .dictPairBegin | .dictKeyDone => true
  | .ctnLocked inObj _ | .arrayStruct inObj => inObj
  | .start | .rootLocked | .arrValBegin => false

/-- The containers that are entered, the innermost first. -/
def path : List ObjId := if s.depth = 0 then [] else s.curObj :: below s.stack s.depth

/-- The container that is locked to be entered next. -/
def opening : List ObjId :=
  match s.label with
  | .rootLocked => [s.curObj]
  | .ctnLocked _ _ => [s.val]
  | _ => []

/-- The path to the current element. -/
def openCtns : List ObjId := s.opening ++ s.path

/-- The path leads through the objects from the root, and the types that are recorded are right. -/
structure PathOk (kept : Set ObjId) (root : ObjId) (s : EncodeState) : Prop where
  depth_zero : s.depth = 0 ↔ s.label = .start ∨ s.label = .rootLocked
  cur : s.depth ≠ 0 →
    (s.heap s.curObj).ctnType = some (EncodeMachine.getEncodeCtnType s.inDict s.isTuple)
  entries : ∀ i, 0 < i → i < s.depth → (s.heap (s.stack i).ctn).ctnType = some (s.stack i).type
  chain : s.openCtns.IsChain fun inner outer => Link kept s.heap outer inner
  opening : ∀ obj ∈ s.opening, (s.heap obj).lockable = true
  val : s.label = .dictKeyDone → Link kept s.heap s.curObj s.val
  starts : s.depth = 0 → s.curObj = root
  rooted : ∀ obj ∈ s.openCtns.getLast?, obj = root

end EncodeState

theorem Opens.ctnType_ne {obj : HeapObj} {bracket : OutToken} {size : Nat}
    (h : Opens obj bracket size) : obj.ctnType ≠ none := by
  cases h <;> exact nofun

namespace HeapObj

variable {obj : HeapObj}

theorem isList_eq_of_ctnType {isTuple : Bool}
    (h : obj.ctnType = some (if isTuple then .tuple else .list)) : isTuple = !obj.isList := by
  cases obj <;> cases isTuple <;> simp_all [ctnType, isList]

theorem ctnType_of_isList (h : obj.isList = true) : obj.ctnType = some .list := by
  cases obj <;> cases h
  rfl

theorem ctnType_ne_of_lockable (h : obj.lockable = true) : obj.ctnType ≠ none := by
  cases obj <;> cases h <;> exact nofun

theorem lockable_iff_ctnType : obj.lockable = true ↔
    obj.ctnType = some .list ∨ obj.ctnType = some .dict := by
  cases obj <;> simp [lockable, isList, isDict, ctnType]

/-- What is read of a list or a tuple is something it refers to. -/
theorem item_mem_children {pos : Nat} {val : ObjId} (h : obj.item pos = some val) :
    val ∈ obj.children := by
  cases obj with
  | scalar | dict => cases h
  | list items => exact List.mem_of_getElem? h
  | tuple items => exact List.mem_of_getElem? h

theorem nextEntry_mem {pos : Nat} {entries : List (Option (ObjId × ObjId))} {key val : ObjId}
    {next : Nat} (h : nextEntry pos entries = some (key, val, next)) :
    some (key, val) ∈ entries := by
  induction entries generalizing pos with
  | nil => cases h
  | cons entry entries ih =>
      cases entry with
      | none => exact List.mem_cons_of_mem _ (ih h)
      | some pair =>
          cases h
          exact List.mem_cons_self

/-- What is read of a dict is something it refers to. -/
theorem dictNext_mem_children {pos : Nat} {key val : ObjId} {next : Nat}
    (h : obj.dictNext pos = some (key, val, next)) : val ∈ obj.children := by
  cases obj with
  | scalar | list | tuple => cases h
  | dict entries =>
      have hmem := List.mem_of_mem_drop (nextEntry_mem h)
      exact List.mem_flatMap.mpr ⟨_, hmem, by simp⟩

end HeapObj

namespace EncodeState

variable {s s' : EncodeState} {kept : Set ObjId} {root : ObjId}

theorem path_of_pos (hdepth : s.depth ≠ 0) : s.path = s.curObj :: below s.stack s.depth :=
  if_neg hdepth

/-- The path behind what is being opened. -/
theorem PathOk.rooted_path (h : PathOk kept root s) (hdepth : s.depth ≠ 0) :
    ∀ obj ∈ s.path.getLast?, obj = root := by
  intro obj hobj
  refine h.rooted obj ?_
  rw [path_of_pos hdepth] at hobj
  rwa [openCtns, path_of_pos hdepth, List.getLast?_append_of_ne_nil _ (List.cons_ne_nil _ _)]

theorem PathOk.chain_path (h : PathOk kept root s) :
    s.path.IsChain fun inner outer => Link kept s.heap outer inner :=
  h.chain.suffix (List.suffix_append _ _)

theorem PathOk.label_ne (h : PathOk kept root s) (hdepth : s.depth ≠ 0) : s.label ≠ .start :=
  fun hl => hdepth (h.depth_zero.mpr (.inl hl))

/-- The machine goes on in the same container. -/
theorem PathOk.stay (h : PathOk kept root s) (hdepth : s.depth ≠ 0) (hheap : s'.heap = s.heap)
    (hstack : s'.stack = s.stack) (hcur : s'.curObj = s.curObj) (hdepth' : s'.depth = s.depth)
    (hopening : s'.opening = []) (hlabel : s'.label ≠ .start)
    (htype : EncodeMachine.getEncodeCtnType s'.inDict s'.isTuple =
      EncodeMachine.getEncodeCtnType s.inDict s.isTuple)
    (hval : s'.label = .dictKeyDone → Link kept s.heap s.curObj s'.val) : PathOk kept root s' := by
  have hpath : s'.path = s.path := by rw [path, path, hdepth', hcur, hstack]
  have hopen : s'.openCtns = s.path := by rw [openCtns, hopening, hpath, List.nil_append]
  refine ⟨iff_of_false (by rwa [hdepth']) ?_, fun _ => ?_, ?_, ?_, ?_, ?_, ?_, ?_⟩
  · rintro (hl | hl)
    · exact hlabel hl
    · rw [EncodeState.opening, hl] at hopening
      cases hopening
  · rw [hheap, hcur, htype]
    exact h.cur hdepth
  · rw [hheap, hstack, hdepth']
    exact h.entries
  · rw [hopen, hheap]
    exact h.chain_path
  · rw [hopening]
    exact nofun
  · rw [hheap, hcur]
    exact hval
  · rw [hdepth']
    exact fun hzero => absurd hzero hdepth
  · rw [hopen]
    exact h.rooted_path hdepth

theorem entered_fields (inObj : Bool) (listSize : Nat) :
    (s.entered inObj listSize).heap = s.heap ∧ (s.entered inObj listSize).depth = s.depth + 1 ∧
    (s.entered inObj listSize).curObj = s.val ∧
    (s.entered inObj listSize).stack = Function.update s.stack s.depth
      ⟨s.curObj, s.curPos, EncodeMachine.getEncodeCtnType inObj s.isTuple⟩ ∧
    (s.entered inObj listSize).opening = [] := by
  rw [entered]
  cases s.heap s.val <;> exact ⟨rfl, rfl, rfl, rfl, rfl⟩

theorem entered_path (inObj : Bool) (listSize : Nat) (hdepth : s.depth ≠ 0) :
    (s.entered inObj listSize).path = s.val :: s.path := by
  obtain ⟨-, hd, hc, hs, -⟩ := @entered_fields s inObj listSize
  rw [path_of_pos (by rw [hd]; exact Nat.succ_ne_zero _), path_of_pos hdepth, hc, hs, hd,
    below_update _ _ (Nat.pos_of_ne_zero hdepth)]

theorem entered_ctnType (inObj : Bool) (listSize : Nat) (hctn : (s.heap s.val).ctnType ≠ none) :
    (s.heap s.val).ctnType =
      some (EncodeMachine.getEncodeCtnType (s.entered inObj listSize).inDict
        (s.entered inObj listSize).isTuple) ∧
      (s.entered inObj listSize).label ≠ .start ∧
      (s.entered inObj listSize).label ≠ .dictKeyDone := by
  rw [entered]
  cases hobj : s.heap s.val with
  | scalar =>
      rw [hobj] at hctn
      exact absurd rfl hctn
  | list | tuple | dict => exact ⟨rfl, EncodeLabel.noConfusion, EncodeLabel.noConfusion⟩

/-- Inside of a container that is entered. -/
theorem PathOk.entered (h : PathOk kept root s) (hdepth : s.depth ≠ 0)
    (hchild : Link kept s.heap s.curObj s.val) (hctn : (s.heap s.val).ctnType ≠ none)
    (listSize : Nat) :
    PathOk kept root (s.entered s.inDict listSize) := by
  obtain ⟨hheap, hd, hc, hs, ho⟩ := @entered_fields s s.inDict listSize
  obtain ⟨htype, hstart, hkey⟩ := entered_ctnType s.inDict listSize hctn
  have hopen : (s.entered s.inDict listSize).openCtns = s.val :: s.path := by
    rw [openCtns, ho, entered_path _ _ hdepth, List.nil_append]
  refine ⟨iff_of_false (by rw [hd]; exact Nat.succ_ne_zero _) ?_, fun _ => ?_, ?_, ?_, ?_, ?_,
    ?_, ?_⟩
  · rintro (hl | hl)
    · exact hstart hl
    · rw [EncodeState.opening, hl] at ho
      cases ho
  · rw [hheap, hc]
    exact htype
  · intro i hpos hlt
    rw [hheap, hs]
    rw [hd] at hlt
    rcases Nat.lt_succ_iff_lt_or_eq.mp hlt with hlt | rfl
    · rw [Function.update_of_ne (Nat.ne_of_lt hlt)]
      exact h.entries i hpos hlt
    · rw [Function.update_self]
      exact h.cur hdepth
  · rw [hopen, hheap]
    refine List.isChain_cons.mpr ⟨fun outer houter => ?_, h.chain_path⟩
    rw [path_of_pos hdepth] at houter
    cases houter
    exact hchild
  · rw [ho]
    exact nofun
  · exact fun hl => absurd hl hkey
  · rw [hd]
    exact fun hzero => absurd hzero (Nat.succ_ne_zero _)
  · rw [hopen, path_of_pos hdepth, List.getLast?_cons_cons, ← path_of_pos hdepth]
    exact h.rooted_path hdepth

theorem resumed_fields : s.resumed.heap = s.heap ∧ s.resumed.depth = s.depth ∧
    s.resumed.curObj = (s.stack s.depth).ctn ∧ s.resumed.stack = s.stack ∧
    s.resumed.opening = [] ∧ s.resumed.label ≠ .start ∧ s.resumed.label ≠ .dictKeyDone ∧
    EncodeMachine.getEncodeCtnType s.resumed.inDict s.resumed.isTuple =
      (s.stack s.depth).type := by
  rw [resumed]
  cases (s.stack s.depth).type <;> exact ⟨rfl, rfl, rfl, rfl, rfl, EncodeLabel.noConfusion,
    EncodeLabel.noConfusion, rfl⟩

/-- The path without the container that ends. -/
theorem path_tail (hdepth : s.depth ≠ 0) (hdepth' : s.depth - 1 ≠ 0) :
    s.path = s.curObj :: (s.stack (s.depth - 1)).ctn :: below s.stack (s.depth - 1) := by
  obtain ⟨depth, hd⟩ : ∃ depth, s.depth = depth + 2 := ⟨s.depth - 2, by omega⟩
  rw [path_of_pos hdepth, hd]
  rfl

/-- Objects that keep their types, and on the path their references, may change otherwise. -/
theorem PathOk.withHeap (h : PathOk kept root s) {heap : Heap} {kept' : Set ObjId}
    (htype : ∀ obj, (heap obj).ctnType = (s.heap obj).ctnType)
    (hchain : s.openCtns.IsChain fun inner outer => Link kept' heap outer inner)
    (hval : s.label = .dictKeyDone → Link kept' heap s.curObj s.val) :
    PathOk kept' root { s with heap } := by
  refine ⟨h.depth_zero, fun hdepth => ?_, fun i hpos hlt => ?_, hchain, fun obj hobj => ?_, hval,
    h.starts, h.rooted⟩
  · exact (htype s.curObj).trans (h.cur hdepth)
  · exact (htype _).trans (h.entries i hpos hlt)
  · have hlock := HeapObj.lockable_iff_ctnType.mp (h.opening obj hobj)
    rw [← htype obj] at hlock
    exact HeapObj.lockable_iff_ctnType.mpr hlock

/-- Behind a container that ended, in the one around it. -/
theorem PathOk.resumed (h : PathOk kept root s) (hdepth : s.depth - 1 ≠ 0)
    (hs : s'.depth = s.depth - 1) (hheap : s'.heap = s.heap) (hstack : s'.stack = s.stack) : PathOk kept root s'.resumed := by
  have hdepth' : s.depth ≠ 0 := by omega
  obtain ⟨hh, hd, hc, hst, ho, hstart, hkey, htype⟩ := @resumed_fields s'
  rw [hs, hstack] at hc htype
  rw [hheap] at hh
  rw [hs] at hd
  rw [hstack] at hst
  have hopen : s'.resumed.openCtns = s.path.tail := by
    rw [openCtns, ho, path_of_pos (by rwa [hd]), hc, hst, hd, path_tail hdepth' hdepth]
    rfl
  refine ⟨iff_of_false (by rwa [hd]) ?_, fun _ => ?_, ?_, ?_, ?_, ?_, ?_, ?_⟩
  · rintro (hl | hl)
    · exact hstart hl
    · rw [EncodeState.opening, hl] at ho
      cases ho
  · rw [hh, hc, htype]
    exact h.entries _ (Nat.pos_of_ne_zero hdepth) (by omega)
  · intro i hpos hlt
    rw [hh, hst]
    exact h.entries i hpos (by omega)
  · rw [hopen, hh]
    exact h.chain_path.tail
  · rw [ho]
    exact nofun
  · exact fun hl => absurd hl hkey
  · rw [hd]
    exact fun hzero => absurd hzero hdepth
  · have hrooted := h.rooted_path hdepth'
    rw [hopen]
    rw [path_tail hdepth' hdepth, List.getLast?_cons_cons] at hrooted
    rw [path_tail hdepth' hdepth]
    exact hrooted

end EncodeState

namespace EncodeMachine

open EncodeState

variable {v : Variant} {s : EncodeState} {kept : Set ObjId} {root : ObjId}

/-- The path at a transition; the container that is waited for is the one to be entered. -/
def PathAt (kept : Set ObjId) (root : ObjId) : EncodeTransition → Prop
  | .goto s | .lookup s => PathOk kept root s
  | .lock obj s => PathOk kept root s ∧ s.opening = [obj]
  | .ret _ | .retNull _ | .nullSet _ | .undefinedFlag _ | .badItem _ => True

theorem fail_path : PathAt kept root (fail v s) := by rw [fail]; trivial

theorem success_path : PathAt kept root (success v s) := by
  rw [success]
  split
  · exact fail_path
  · split <;> trivial

theorem enterCtn_path (h : PathOk kept root s) (hdepth : s.depth ≠ 0)
    (hchild : Link kept s.heap s.curObj s.val) (hctn : (s.heap s.val).ctnType ≠ none)
    (listSize : Nat) :
    PathAt kept root (enterCtn v s.inDict s listSize) := by
  rw [enterCtn_eq]
  split
  · exact fail_path
  · exact h.entered hdepth hchild hctn listSize

theorem inDict_valueLabel {inObj : Bool} (h : s.label = valueLabel inObj) : s.inDict = inObj := by
  rw [inDict, h]
  cases inObj <;> rfl

theorem opening_valueLabel {inObj : Bool} (h : s.label = valueLabel inObj) : s.opening = [] := by
  rw [EncodeState.opening, h]
  cases inObj <;> rfl

/-- A value of the current container keeps to the path. -/
theorem ValOutcome.pathAt {t : EncodeTransition} (h : ValOutcome v s.inDict s t)
    (hp : PathOk kept root s) (hdepth : s.depth ≠ 0) (hchild : Link kept s.heap s.curObj s.val) :
    PathAt kept root t := by
  cases h with
  | @written ucs lookups out tokens isTuple hleaf hw htuple =>
      refine hp.stay hdepth rfl rfl rfl rfl (opening_valueLabel rfl) (valueLabel_ne _) ?_ ?_
      · rw [inDict_valueLabel rfl]
        rcases htuple with rfl | ⟨hin, rfl⟩
        · rfl
        · have hcur := hp.cur hdepth
          rw [getEncodeCtnType, hin] at hcur
          rw [HeapObj.isList_eq_of_ctnType hcur]
      · intro hl
        cases hin : s.inDict <;> rw [hin] at hl <;> cases hl
  | refused => exact fail_path
  | unassigned => trivial
  | lookup hval => exact hp.stay hdepth rfl rfl rfl rfl rfl nofun rfl nofun
  | circular => exact fail_path
  | @lock out set ret bracket listSize hopens hw hgranted hv hlock hput hret =>
      refine ⟨⟨iff_of_false hdepth ?_, fun _ => hp.cur hdepth, hp.entries, ?_, ?_, nofun,
        fun hzero => absurd hzero hdepth, ?_⟩, rfl⟩
      · rintro (hl | hl) <;> cases hl
      · show (s.val :: s.path).IsChain fun inner outer => Link kept s.heap outer inner
        refine List.isChain_cons.mpr ⟨fun outer houter => ?_, hp.chain_path⟩
        rw [path_of_pos hdepth] at houter
        cases houter
        exact hchild
      · intro obj hobj
        obtain rfl := List.mem_singleton.mp hobj
        exact hlock
      · show ∀ obj ∈ (s.val :: s.path).getLast?, obj = root
        rw [path_of_pos hdepth, List.getLast?_cons_cons, ← path_of_pos hdepth]
        exact hp.rooted_path hdepth
  | @enter out bracket listSize hopens hw hgranted hv =>
      have hp' : PathOk kept root { s with out } :=
        ⟨hp.depth_zero, hp.cur, hp.entries, hp.chain, hp.opening, hp.val, hp.starts, hp.rooted⟩
      exact enterCtn_path hp' hdepth hchild hopens.ctnType_ne listSize

theorem EndOutcome.pathAt {bracket : OutToken} {locked : Bool} {t : EncodeTransition}
    (h : EndOutcome v s bracket locked t) (hp : PathOk kept root s) : PathAt kept root t := by
  cases h with
  | refused => exact fail_path
  | root => exact success_path
  | inner hw hdepth =>
      rw [leave]
      split <;> exact hp.resumed hdepth rfl rfl rfl

theorem PairOutcome.pathAt {t : EncodeTransition} (h : PairOutcome v s t) (hp : PathOk kept root s)
    (hdepth : s.depth ≠ 0) (hlabel : s.label = .dictPairBegin) : PathAt kept root t := by
  cases h with
  | key ucs hnext hkey hw =>
      refine hp.stay hdepth rfl rfl rfl rfl rfl nofun ?_ fun _ =>
        Or.inl (HeapObj.dictNext_mem_children hnext)
      rw [inDict, inDict, hlabel]
  | refused => exact fail_path
  | done hnext hend => exact hend.pathAt hp

theorem ItemOutcome.pathAt {t : EncodeTransition} (h : ItemOutcome v s t) (hp : PathOk kept root s)
    (hdepth : s.depth ≠ 0) (hlabel : s.label = .arrValBegin) : PathAt kept root t := by
  cases h with
  | @value val t hpos hitem hval =>
      have hstay : PathOk kept root { s with curPos := s.curPos + 1, val } := by
        refine hp.stay hdepth rfl rfl rfl rfl ?_ (hp.label_ne hdepth) rfl ?_
        · rw [EncodeState.opening, hlabel]
        · rw [hlabel]
          exact nofun
      have hin : inDict { s with curPos := s.curPos + 1, val } = false := by
        rw [inDict, hlabel]
      rw [← hin] at hval
      exact hval.pathAt hstay hdepth (Or.inl (HeapObj.item_mem_children hitem))
  | badItem => trivial
  | done hpos hend => exact hend.pathAt hp

/-- Inside of the root. -/
theorem rooted_path (hroot : s.curObj = root) (hlock : (s.heap s.curObj).lockable = true) :
    PathOk kept root s.rooted := by
  rw [EncodeState.rooted]
  generalize hobj : s.heap s.curObj = obj at hlock
  have hpath : (s.curObj :: below s.stack 1).IsChain
      fun inner outer => Link kept s.heap outer inner :=
    List.isChain_singleton _
  have hrooted : ∀ obj ∈ (s.curObj :: below s.stack 1).getLast?, obj = root := by
    rintro _ ⟨⟩
    exact hroot
  cases obj with
  | list | dict =>
      refine ⟨iff_of_false Nat.one_ne_zero ?_, fun _ => ?_, fun i hpos hlt => ?_, hpath,
        List.forall_mem_nil _, EncodeLabel.noConfusion, fun hzero => absurd hzero Nat.one_ne_zero, hrooted⟩
      · rintro (hl | hl) <;> cases hl
      · simp only [HeapObj.isDict, if_false, if_true, Bool.false_eq_true, hobj]
        rfl
      · exact absurd hlt (Nat.not_lt.mpr hpos)
  | scalar | tuple => cases hlock

/-- In front of the root. -/
theorem waiting_path (hlabel : s.label = .rootLocked) (hdepth : s.depth = 0)
    (hroot : s.curObj = root) (hlock : (s.heap s.curObj).lockable = true) : PathOk kept root s := by
  have hopen : s.openCtns = [s.curObj] := by
    rw [openCtns, EncodeState.opening, hlabel, path, if_pos hdepth, List.append_nil]
  refine ⟨iff_of_true hdepth (.inr hlabel), fun hne => absurd hdepth hne, fun i hpos hlt => ?_,
    ?_, ?_, ?_, fun _ => hroot, ?_⟩
  · exact absurd (hdepth ▸ hlt) (Nat.not_lt_zero _)
  · rw [hopen]
    exact List.isChain_singleton _
  · rw [EncodeState.opening, hlabel]
    intro obj hobj
    obtain rfl := List.mem_singleton.mp hobj
    exact hlock
  · rw [hlabel]
    exact nofun
  · rw [hopen]
    rintro _ ⟨⟩
    exact hroot

theorem StartOutcome.pathAt {t : EncodeTransition} (h : StartOutcome v s t)
    (hdepth : s.depth = 0) (hroot : s.curObj = root) : PathAt kept root t := by
  cases h with
  | nullSet | noSet => trivial
  | refused | unsupported => exact fail_path
  | empty => exact success_path
  | @tuple set out items hset hout hobj hne =>
      refine ⟨iff_of_false Nat.one_ne_zero ?_, fun _ => ?_, fun i hpos hlt => ?_,
        List.isChain_singleton _, nofun, nofun, fun hzero => absurd hzero Nat.one_ne_zero, ?_⟩
      · rintro (hl | hl) <;> cases hl
      · show (s.heap s.curObj).ctnType = _
        rw [hobj]
        rfl
      · exact absurd hlt (Nat.not_lt.mpr hpos)
      · rintro _ ⟨⟩
        exact hroot
  | lock listSize hset hup hout hv hlock hopens hsize hput =>
      exact ⟨waiting_path rfl hdepth hroot hlock, rfl⟩
  | unlocked listSize hset hout hv hlock hopens hsize => exact rooted_path hroot hlock

/-- A step keeps to the path. -/
theorem step_path (hp : PathOk kept root s) : PathAt kept root (step v s) := by
  have hdepth : s.label ≠ .start → s.label ≠ .rootLocked → s.depth ≠ 0 := by
    intro h1 h2 hzero
    rcases hp.depth_zero.mp hzero with hl | hl
    · exact h1 hl
    · exact h2 hl
  rw [step]
  cases hl : s.label with
  | start =>
      have hzero := hp.depth_zero.mpr (.inl hl)
      exact start_outcome.pathAt hzero (hp.starts hzero)
  | rootLocked =>
      dsimp only
      rw [rootLocked_eq]
      refine rooted_path (hp.starts (hp.depth_zero.mpr (.inr hl))) (hp.opening _ ?_)
      rw [EncodeState.opening, hl]
      exact List.mem_singleton_self _
  | dictPairBegin =>
      exact dictPairBegin_outcome.pathAt hp (hdepth (by simp [hl]) (by simp [hl])) hl
  | dictKeyDone =>
      have hin : s.inDict = true := by rw [inDict, hl]
      have h := (@encodeProcessVal_outcome v s.inDict s).pathAt hp
        (hdepth (by simp [hl]) (by simp [hl])) (hp.val hl)
      rwa [hin] at h
  | arrValBegin =>
      exact arrValBegin_outcome.pathAt hp (hdepth (by simp [hl]) (by simp [hl])) hl
  | ctnLocked inObj listSize =>
      have hd := hdepth (by simp [hl]) (by simp [hl])
      have hin : s.inDict = inObj := by rw [inDict, hl]
      have hopening : s.opening = [s.val] := by rw [EncodeState.opening, hl]
      have hchain := hp.chain
      rw [openCtns, hopening, path_of_pos hd] at hchain
      have hlock := hp.opening s.val (by rw [hopening]; exact List.mem_singleton_self _)
      have h : PathAt kept root (enterCtn v s.inDict s listSize) :=
        enterCtn_path hp hd (List.isChain_cons_cons.mp hchain).1
          (HeapObj.ctnType_ne_of_lockable hlock) listSize
      rwa [hin] at h
  | arrayStruct inObj =>
      have hd := hdepth (by simp [hl]) (by simp [hl])
      have hin : s.inDict = inObj := by rw [inDict, hl]
      obtain ⟨tokens, -, h⟩ :=
        uBufApdNdarray_attempt s.out v s.depth inObj s.ucs (s.answers s.lookups)
      dsimp only
      rw [processArray]
      generalize uBufApdNdarray v s.depth inObj s.out s.ucs (s.answers s.lookups) = r at h
      cases h with
      | failed => exact fail_path
      | done =>
          refine hp.stay hd rfl rfl rfl rfl (opening_valueLabel rfl) (valueLabel_ne _) ?_ ?_
          · rw [inDict_valueLabel rfl, hin]
          · intro hkey
            cases inObj <;> cases hkey

/-- A call begins on its object. -/
theorem initial_path (kept : Set ObjId) (call : EncodeCall) :
    PathOk kept call.obj (initial call) := by
  refine ⟨iff_of_true rfl (.inl rfl), fun hne => absurd rfl hne, fun i hpos hlt => ?_, .nil, nofun,
    nofun, fun _ => rfl, nofun⟩
  exact absurd hlt (Nat.not_lt_zero _)

/-- The path is kept from one transition to the next. -/
theorem next_path {t t' : EncodeTransition} (h : next v t = some t') (ht : PathAt kept root t) :
    PathAt kept root t' := by
  cases t with
  | goto s =>
      cases h
      exact step_path ht
  | lock obj s =>
      cases h
      have hp := ht.1
      exact ⟨hp.depth_zero, hp.cur, hp.entries, hp.chain, hp.opening, hp.val, hp.starts, hp.rooted⟩
  | lookup s =>
      cases h
      exact ht
  | ret | retNull | nullSet | undefinedFlag | badItem => cases h

end EncodeMachine

end SsrJson.Encode
