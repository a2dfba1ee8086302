import SsrJson.Encode.ItemRead
import SsrJson.Encode.OutputOwned
import SsrJson.Encode.Refs
import SsrJson.Encode.TextOk

/-!
# Other code that changes the value

A call shares the lists and dicts it encodes with other code. In the locking build other threads
change any of them whose lock the call does not hold, at any time; in the GIL build other code runs
while an array answers an attribute lookup. A size that was read, and that a dict had pairs, is
relied on after such a wait. As long as that is still true then, and the containers of the path
stay alive, the call reads no item that is not there and returns JSON.
-/

namespace SsrJson.Encode

open EncodeMachine EncodeState

/-- A call, and the objects that other code refers to. -/
structure Shared where
  position : EncodeTransition
  kept : Set ObjId

/-- Who takes a step. -/
inductive Actor where
  | encoder
  | other

/-- The call at the same place, with other objects. -/
def EncodeTransition.withHeap (t : EncodeTransition) (heap : Heap) : EncodeTransition :=
  match t with
  | .goto s => .goto { s with heap }
  | .lock obj s => .lock obj { s with heap }
  | .lookup s => .lookup { s with heap }
  | t => t

/-- Items are appended, popped, cleared or assigned; other objects do not change. -/
inductive Mutation : HeapObj → HeapObj → Prop where
  | list (items items' : List ObjId) : Mutation (.list items) (.list items')
  | dict (entries entries' : List (Option (ObjId × ObjId))) :
      Mutation (.dict entries) (.dict entries')

/-- Other code runs while a call is there. -/
inductive OtherRuns : Build → EncodeTransition → Prop where
  | lookup (s : EncodeState) : OtherRuns .gil (.lookup s)
  | running (s : EncodeState) : OtherRuns .locking (.goto s)
  | waiting (obj : ObjId) (s : EncodeState) : OtherRuns .locking (.lock obj s)
  | answering (s : EncodeState) : OtherRuns .locking (.lookup s)

/-- The call does not wait for a lock it holds. -/
def Granted (t : EncodeTransition) : Prop :=
  match t with
  | .lock obj s => s.locks obj = 0
  | _ => True

/-- A step of the call or of other code. -/
inductive SharedStep (v : Variant) : Actor → Shared → Shared → Prop where
  | encode {t t' : EncodeTransition} {kept : Set ObjId} :
      next v t = some t' → Granted t → SharedStep v .encoder ⟨t, kept⟩ ⟨t', kept⟩
  | mutate {t : EncodeTransition} {kept : Set ObjId} (obj : ObjId) (changed : HeapObj) :
      OtherRuns v.build t → (v.locking = true → t.state.locks obj = 0) →
      Mutation (t.state.heap obj) changed →
      SharedStep v .other ⟨t, kept⟩
        ⟨t.withHeap (Function.update t.state.heap obj changed), kept⟩
  | keep {t : EncodeTransition} {kept : Set ObjId} (kept' : Set ObjId) :
      OtherRuns v.build t → SharedStep v .other ⟨t, kept⟩ ⟨t, kept'⟩

/-- What was found out before a wait is still true: a list has the items that are left to be read,
and a dict that is entered is not empty. -/
structure EncodeState.Ready (s : EncodeState) : Prop where
  size : s.SizeOk
  dict : ∀ obj ∈ s.opening, (s.heap obj).isDict = true → (s.heap obj).dictSize ≠ 0

/-- When a wait is over, the call finds what it relies on; where containers are not locked, other
code leaves the containers of the path alive. -/
def Spares (v : Variant) (root : ObjId) : Actor → Shared → Shared → Prop
  | .encoder, x, _ =>
    match x.position with
    | .lock _ s | .lookup s => s.Ready
    | _ => True
  | .other, _, y =>
    v.build = .gil →
      ∀ obj ∈ y.position.state.path, Alive y.position.state.heap y.kept root obj

/-- The containers that a call refers to; none when it is over. -/
def EncodeTransition.refs : EncodeTransition → List ObjId
  | .goto s | .lock _ s | .lookup s => s.refs
  | _ => []

/-- No item is read that is not there, what the call refers to is alive, and what it returns is
JSON. -/
structure SafeAt (root : ObjId) (x : Shared) : Prop where
  item : ∀ s, x.position ≠ .badItem s
  alive : ∀ obj ∈ x.position.refs, Alive x.position.state.heap x.kept root obj
  text : ∀ s, x.position = .ret s → JsonText s.out.text

/-! ## Objects that keep their types -/

namespace Mutation

variable {obj changed : HeapObj}

theorem ctnType_eq (h : Mutation obj changed) : changed.ctnType = obj.ctnType := by
  cases h <;> rfl

theorem lockable (h : Mutation obj changed) : obj.lockable = true := by
  cases h <;> rfl

end Mutation

/-- The objects have the types they had. -/
def SameTypes (heap heap' : Heap) : Prop := ∀ obj, (heap' obj).ctnType = (heap obj).ctnType

namespace SameTypes

variable {heap heap' : Heap}

theorem of_update {obj : ObjId} {changed : HeapObj} (h : Mutation (heap obj) changed) :
    SameTypes heap (Function.update heap obj changed) := by
  intro o
  by_cases ho : o = obj
  · subst ho
    rw [Function.update_self]
    exact h.ctnType_eq
  · rw [Function.update_of_ne ho]

theorem isDict_eq (h : SameTypes heap heap') (obj : ObjId) :
    (heap' obj).isDict = (heap obj).isDict := by
  have htype := h obj
  cases hold : heap obj <;> cases hnew : heap' obj <;> rw [hold, hnew] at htype <;>
    first | rfl | cases htype

theorem isList_eq (h : SameTypes heap heap') (obj : ObjId) :
    (heap' obj).isList = (heap obj).isList := by
  have htype := h obj
  cases hold : heap obj <;> cases hnew : heap' obj <;> rw [hold, hnew] at htype <;>
    first | rfl | cases htype

theorem lockable_eq (h : SameTypes heap heap') (obj : ObjId) :
    (heap' obj).lockable = (heap obj).lockable := by
  rw [HeapObj.lockable, HeapObj.lockable, h.isDict_eq, h.isList_eq]

theorem framesOf_eq (h : SameTypes heap heap') (ctns : List ObjId) :
    framesOf heap' ctns = framesOf heap ctns :=
  List.map_congr_left fun obj _ => h.isDict_eq obj

theorem lockables_eq (h : SameTypes heap heap') (ctns : List ObjId) :
    lockables heap' ctns = lockables heap ctns :=
  List.filter_congr fun obj _ => h.lockable_eq obj

end SameTypes

namespace EncodeState

variable {s : EncodeState} {v : Variant} {kept linked : Set ObjId} {root : ObjId} {heap : Heap}

theorem Holds.withHeap {ctns : List ObjId} (h : s.Holds ctns) (htypes : SameTypes s.heap heap) :
    EncodeState.Holds { s with heap } ctns := by
  intro obj
  show s.locks obj = ((lockables heap ctns).count obj : Nat)
  rw [htypes.lockables_eq]
  exact h obj

theorem MembersOk.withHeap (h : s.MembersOk v root) (htypes : SameTypes s.heap heap) :
    MembersOk v root { s with heap } := by
  refine ⟨h.nodup, fun obj hobj => ?_, h.toplevel⟩
  obtain ⟨hopen, hlock, hv⟩ := h.mem obj hobj
  exact ⟨hopen, (htypes.lockable_eq obj).trans hlock, hv⟩

theorem TextOk.withHeap (h : s.TextOk) (htypes : SameTypes s.heap heap) :
    TextOk { s with heap } := by
  have htext := h.text
  have hunread := h.unread
  constructor
  · show s.TextFits heap
    rw [TextFits] at htext ⊢
    rw [htypes.framesOf_eq]
    exact htext
  · show s.ListUnread heap
    rw [ListUnread] at hunread ⊢
    rw [htypes.isDict_eq, htypes.isDict_eq]
    exact hunread

theorem opening_length : s.opening.length ≤ 1 := by
  rw [EncodeState.opening]
  split
  · exact Nat.le_refl _
  · exact Nat.le_refl _
  · exact Nat.zero_le _

theorem mem_openCtns_curObj (hdepth : s.depth ≠ 0) : s.curObj ∈ s.openCtns := by
  rw [openCtns, path_of_pos hdepth]
  exact List.mem_append_right _ List.mem_cons_self

/-- The size that is kept is that of a container of the path. -/
theorem PathOk.sized_mem (hp : PathOk linked root s) {obj : ObjId} {pos size : Nat}
    (h : s.sized = some (obj, pos, size)) : obj ∈ s.openCtns := by
  have hcur : s.label ≠ .start → s.label ≠ .rootLocked → s.curObj ∈ s.openCtns := by
    intro h1 h2
    refine mem_openCtns_curObj fun hzero => ?_
    rcases hp.depth_zero.mp hzero with hl | hl
    · exact h1 hl
    · exact h2 hl
  rw [EncodeState.sized] at h
  cases hl : s.label with
  | start | dictPairBegin | dictKeyDone =>
      rw [hl] at h
      cases h
  | arrValBegin =>
      rw [hl] at h
      cases h
      exact hcur (by simp [hl]) (by simp [hl])
  | arrayStruct inObj =>
      rw [hl] at h
      cases inObj with
      | true => cases h
      | false =>
          cases h
          exact hcur (by simp [hl]) (by simp [hl])
  | rootLocked =>
      rw [hl] at h
      dsimp only at h
      split at h
      · cases h
        rw [openCtns, EncodeState.opening, hl]
        exact List.mem_append_left _ (List.mem_singleton_self _)
      · cases h
  | ctnLocked inObj listSize =>
      rw [hl] at h
      dsimp only at h
      split at h
      · cases h
        rw [openCtns, EncodeState.opening, hl]
        exact List.mem_append_left _ (List.mem_singleton_self _)
      · cases h

/-- What was found out about the containers of the path stays true as long as they do not
change. -/
theorem SizeOk.withHeap (h : s.SizeOk) (hp : PathOk linked root s)
    (htypes : SameTypes s.heap heap) (hsame : ∀ obj ∈ s.openCtns, heap obj = s.heap obj) :
    SizeOk { s with heap } := by
  have hsized : EncodeState.sized { s with heap } = s.sized := by
    rw [EncodeState.sized, EncodeState.sized]
    simp only [htypes.isList_eq]
  intro obj pos size hsize hpos
  rw [hsized] at hsize
  show size ≤ (heap obj).size
  rw [hsame obj (hp.sized_mem hsize)]
  exact h obj pos size hsize hpos

theorem DictOk.withHeap (h : s.DictOk) (hp : PathOk linked root s)
    (hsame : ∀ obj ∈ s.openCtns, heap obj = s.heap obj) : DictOk { s with heap } := by
  constructor
  · show ∀ obj ∈ s.opening, (heap obj).isDict = true → (heap obj).dictSize ≠ 0
    intro obj hobj
    rw [hsame obj (List.mem_append_left _ hobj)]
    exact h.opening obj hobj
  · intro hl
    have hl : s.label = .dictPairBegin := hl
    have hdepth : s.depth ≠ 0 := by
      intro hzero
      rcases hp.depth_zero.mp hzero with h | h <;> rw [hl] at h <;> cases h
    show (heap s.curObj).dictNext s.curPos ≠ none ∨ s.out.tokens.head? = some .comma
    rw [hsame _ (mem_openCtns_curObj hdepth)]
    exact h.unread hl

/-- Containers that do not change keep what is inside of them. -/
theorem chain_congr {ctns : List ObjId} (hsame : ∀ obj ∈ ctns.tail, heap obj = s.heap obj)
    (h : ctns.IsChain fun inner outer => Link linked s.heap outer inner) :
    ctns.IsChain fun inner outer => Link linked heap outer inner := by
  induction ctns with
  | nil => exact .nil
  | cons inner ctns ih =>
      refine List.isChain_cons.mpr ⟨fun outer houter => ?_, ih (fun obj hobj => ?_) h.tail⟩
      · have hlink := (List.isChain_cons.mp h).1 outer houter
        have hmem : outer ∈ ctns := List.mem_of_mem_head? houter
        rwa [Link, Child, hsame outer hmem]
      · exact hsame obj (List.mem_of_mem_tail hobj)

/-- The path of containers that do not change, but for the one that is waited for. -/
theorem PathOk.mutated (h : PathOk linked root s) (htypes : SameTypes s.heap heap)
    (hsame : ∀ obj ∈ s.path, heap obj = s.heap obj) (hopening : s.opening.length ≤ 1) :
    PathOk linked root { s with heap } := by
  refine h.withHeap htypes (chain_congr (fun obj hobj => hsame obj ?_) h.chain) fun hl => ?_
  · rw [openCtns] at hobj
    cases hop : s.opening with
    | nil =>
        rw [hop] at hobj
        exact List.mem_of_mem_tail hobj
    | cons first others =>
        rw [hop, List.length_cons] at hopening
        rw [hop, List.length_eq_zero_iff.mp (Nat.le_zero.mp (Nat.le_of_succ_le_succ hopening))]
          at hobj
        exact hobj
  · have hdepth : s.depth ≠ 0 := by
      intro hzero
      rcases h.depth_zero.mp hzero with h | h <;> rw [hl] at h <;> cases h
    have hlink := h.val hl
    rwa [Link, Child, hsame s.curObj (by rw [path_of_pos hdepth]; exact List.mem_cons_self)]

theorem chain_of_mem {ctns : List ObjId} (h : ∀ obj ∈ ctns, obj ∈ linked) :
    ctns.IsChain fun inner outer => Link linked heap outer inner := by
  induction ctns with
  | nil => exact .nil
  | cons inner ctns ih =>
      refine List.isChain_cons.mpr ⟨fun outer houter => .inr (h inner List.mem_cons_self), ?_⟩
      exact ih fun obj hobj => h obj (List.mem_cons_of_mem _ hobj)

end EncodeState

/-! ## Safety -/

/-- What holds of a call and the objects around it at any time. -/
structure SoundAt (v : Variant) (root : ObjId) (x : Shared) : Prop where
  linked : ∃ linked, (v.locking = true → linked = ∅) ∧
    (∀ obj ∈ linked, Alive x.position.state.heap x.kept root obj) ∧ PathAt linked root x.position
  held : v.locking = true → HeldAt x.position
  members : MembersAt v root x.position
  text : match x.position with
    | .goto s => s.TextOk ∧ s.DictOk
    | .lock _ s => s.TextOk
    | .lookup s => s.TextOk ∧ ∃ inObj, s.label = .arrayStruct inObj
    | .ret s => JsonText s.out.text
    | .retNull _ | .nullSet _ | .undefinedFlag _ | .badItem _ => True
  size : match x.position with
    | .goto s => s.SizeOk
    | .badItem _ => False
    | .lock _ _ | .lookup _ | .ret _ | .retNull _ | .nullSet _ | .undefinedFlag _ => True

section Steps

variable {v : Variant} {root : ObjId} {x y : Shared} {kept : Set ObjId}

theorem SoundAt.safeAt (h : SoundAt v root x) : SafeAt root x := by
  obtain ⟨⟨linked, -, hlinked, hpath⟩, -, hmembers, htext, hsize⟩ := h
  obtain ⟨t, kept⟩ := x
  refine ⟨?_, ?_, ?_⟩
  · rintro s rfl
    exact hsize
  · cases t with
    | goto s | lookup s => exact hpath.refs_alive hmembers hlinked
    | lock obj s => exact hpath.1.refs_alive hmembers hlinked
    | ret | retNull | nullSet | undefinedFlag | badItem => exact nofun
  · rintro s rfl
    exact htext

/-- A step of the machine. -/
theorem sound_goto {s : EncodeState} (h : SoundAt v root ⟨.goto s, kept⟩) :
    SoundAt v root ⟨step v s, kept⟩ := by
  obtain ⟨⟨linked, hv, hlinked, hpath⟩, hheld, hmembers, htext, hsize⟩ := h
  have hheap : (step v s).state.heap = s.heap := step_heap
  have htextAt := step_text (v := v) hpath htext.1 htext.2
  have hsizeAt := step_size (v := v) hpath hsize
  refine ⟨⟨linked, hv, ?_, step_path hpath⟩, fun hlock => step_held hlock hpath (hheld hlock),
    step_members hpath hmembers, ?_, ?_⟩
  · rw [hheap]
    exact hlinked
  · dsimp only
    generalize step v s = t at htextAt
    cases t with
    | goto => exact htextAt
    | lock => exact htextAt.1
    | lookup => exact ⟨htextAt.1.1, htextAt.2⟩
    | ret | retNull | nullSet | undefinedFlag | badItem => exact htextAt
  · dsimp only
    generalize step v s = t at hsizeAt
    cases t with
    | goto => exact hsizeAt
    | badItem => exact hsizeAt
    | lock | lookup | ret | retNull | nullSet | undefinedFlag => trivial

/-- A wait is over. -/
theorem sound_resumed {t : EncodeTransition} {s : EncodeState}
    (h : SoundAt v root ⟨t, kept⟩) (ht : (∃ obj, t = .lock obj s) ∨ t = .lookup s)
    (hready : s.Ready) {t' : EncodeTransition} (hnext : next v t = some t') :
    SoundAt v root ⟨t', kept⟩ := by
  obtain ⟨⟨linked, hv, hlinked, hpath⟩, hheld, hmembers, htext, -⟩ := h
  have hpath' := next_path hnext hpath
  have hheld' : v.locking = true → HeldAt t' :=
    fun hlock => next_held hlock hnext hpath (hheld hlock)
  rcases ht with ⟨obj, rfl⟩ | rfl
  · cases hnext
    have hlabel : s.label ≠ .dictPairBegin := by
      intro hl
      have hopening := hpath.2
      rw [EncodeState.opening, hl] at hopening
      cases hopening
    exact ⟨⟨linked, hv, hlinked, hpath'⟩, hheld', ⟨hmembers.nodup, hmembers.mem, hmembers.toplevel⟩,
      ⟨⟨htext.text, htext.unread⟩, ⟨hready.dict, fun hl => absurd hl hlabel⟩⟩, hready.size⟩
  · cases hnext
    obtain ⟨htext, inObj, hlabel⟩ := htext
    refine ⟨⟨linked, hv, hlinked, hpath'⟩, hheld', hmembers, ⟨htext, ⟨hready.dict, ?_⟩⟩, hready.size⟩
    intro hl
    rw [hlabel] at hl
    cases hl

/-- A list or a dict whose lock is not held is not among those that are locked. -/
theorem unchanged_of_held {s : EncodeState} {ctns : List ObjId} {obj : ObjId} {changed : HeapObj}
    (hheld : s.Holds ctns) (hfree : s.locks obj = 0) (hm : Mutation (s.heap obj) changed) :
    ∀ ctn ∈ ctns, Function.update s.heap obj changed ctn = s.heap ctn := by
  intro ctn hctn
  refine Function.update_of_ne ?_ _ _
  rintro rfl
  have hmem : ctn ∈ lockables s.heap ctns := List.mem_filter.mpr ⟨hctn, hm.lockable⟩
  have hpos := List.count_pos_iff.mpr hmem
  have hcount := hheld ctn
  omega

/-- Where containers are locked, other code does not get at those of the path. -/
theorem sound_mutate_locking {t : EncodeTransition} {obj : ObjId} {changed : HeapObj}
    (h : SoundAt v root ⟨t, kept⟩) (hv : v.locking = true) (hruns : OtherRuns .locking t)
    (hfree : t.state.locks obj = 0) (hm : Mutation (t.state.heap obj) changed) :
    SoundAt v root ⟨t.withHeap (Function.update t.state.heap obj changed), kept⟩ := by
  have htypes := SameTypes.of_update hm
  obtain ⟨⟨linked, hlocking, hlinked, hpath⟩, hheld, hmembers, htext, hsize⟩ := h
  obtain rfl := hlocking hv
  have hheld := hheld hv
  cases hruns with
  | running s =>
      have hsame := unchanged_of_held hheld hfree hm
      have hopening : s.opening.length ≤ 1 := opening_length
      have hpath' := hpath.mutated htypes
        (fun ctn hctn => hsame ctn (List.mem_append_right _ hctn)) hopening
      exact ⟨⟨∅, fun _ => rfl, fun _ => False.elim, hpath'⟩, fun _ => hheld.withHeap htypes,
        hmembers.withHeap htypes, ⟨htext.1.withHeap htypes, htext.2.withHeap hpath hsame⟩,
        hsize.withHeap hpath htypes hsame⟩
  | waiting waited s =>
      have hsame := unchanged_of_held hheld hfree hm
      have hopening : s.opening.length ≤ 1 := opening_length
      have hpath' := hpath.1.mutated htypes hsame hopening
      exact ⟨⟨∅, fun _ => rfl, fun _ => False.elim, hpath', hpath.2⟩, fun _ => hheld.withHeap htypes,
        hmembers.withHeap htypes, htext.withHeap htypes, trivial⟩
  | answering s =>
      have hsame := unchanged_of_held hheld hfree hm
      have hopening : s.opening.length ≤ 1 := opening_length
      have hpath' := hpath.mutated htypes
        (fun ctn hctn => hsame ctn (List.mem_append_right _ hctn)) hopening
      exact ⟨⟨∅, fun _ => rfl, fun _ => False.elim, hpath'⟩, fun _ => hheld.withHeap htypes,
        hmembers.withHeap htypes, ⟨htext.1.withHeap htypes, htext.2⟩, trivial⟩

/-- Where containers are not locked, other code leaves those of the path alive. -/
theorem sound_other_gil {s : EncodeState} {heap : Heap} {kept' : Set ObjId}
    (h : SoundAt v root ⟨.lookup s, kept⟩) (hv : v.locking = false)
    (htypes : SameTypes s.heap heap) (halive : ∀ obj ∈ s.path, Alive heap kept' root obj) :
    SoundAt v root ⟨.lookup { s with heap }, kept'⟩ := by
  obtain ⟨⟨linked, -, -, hpath⟩, -, hmembers, htext, -⟩ := h
  obtain ⟨htext, inObj, hlabel⟩ := htext
  have hfree : v.locking ≠ true := by simp [hv]
  have hopen : s.openCtns = s.path := openCtns_eq_path (by rw [EncodeState.opening, hlabel])
  have hpath' : PathOk {obj | Alive heap kept' root obj} root { s with heap } := by
    refine hpath.withHeap htypes (chain_of_mem ?_) fun hl => ?_
    · rw [hopen]
      exact halive
    · rw [hlabel] at hl
      cases hl
  exact ⟨⟨_, fun hlock => absurd hlock hfree, fun _ hobj => hobj, hpath'⟩,
    fun hlock => absurd hlock hfree, hmembers.withHeap htypes,
    ⟨htext.withHeap htypes, inObj, hlabel⟩, trivial⟩

theorem locking_of_gil (hbuild : v.build = .gil) : v.locking = false := by
  rw [Variant.locking, hbuild]
  rfl

/-- A step that spares the call keeps everything that holds of it. -/
theorem SharedStep.sound {actor : Actor} (hstep : SharedStep v actor x y)
    (hspares : Spares v root actor x y) (h : SoundAt v root x) : SoundAt v root y := by
  cases hstep with
  | @encode t t' kept hnext hfree =>
      cases t with
      | goto s =>
          cases hnext
          exact sound_goto h
      | lock obj s => exact sound_resumed h (.inl ⟨obj, rfl⟩) hspares hnext
      | lookup s => exact sound_resumed h (.inr rfl) hspares hnext
      | ret | retNull | nullSet | undefinedFlag | badItem => cases hnext
  | @mutate t kept obj changed hruns hfree hm =>
      generalize hbuild : v.build = build at hruns
      cases build with
      | gil =>
          cases hruns with
          | lookup s =>
              exact sound_other_gil h (locking_of_gil hbuild) (SameTypes.of_update hm)
                (hspares hbuild)
      | locking =>
          have hv : v.locking = true := by rw [Variant.locking, hbuild]; rfl
          exact sound_mutate_locking h hv hruns (hfree hv) hm
      | lockFree => cases hruns
  | @keep t kept kept' hruns =>
      generalize hbuild : v.build = build at hruns
      cases build with
      | gil =>
          cases hruns with
          | lookup s =>
              exact sound_other_gil h (locking_of_gil hbuild) (fun _ => rfl) (hspares hbuild)
      | locking =>
          have hv : v.locking = true := by rw [Variant.locking, hbuild]; rfl
          obtain ⟨⟨linked, hlocking, -, hpath⟩, hheld, hmembers, htext, hsize⟩ := h
          obtain rfl := hlocking hv
          exact ⟨⟨∅, fun _ => rfl, fun _ => False.elim, hpath⟩, hheld, hmembers, htext, hsize⟩
      | lockFree => cases hruns

theorem initial_sound (v : Variant) (call : EncodeCall) (kept : Set ObjId) :
    SoundAt v call.obj ⟨.goto (initial call), kept⟩ := by
  refine ⟨⟨∅, fun _ => rfl, fun _ => False.elim, initial_path ∅ call⟩, fun _ obj => rfl,
    ⟨.nil, nofun, nofun⟩, ⟨⟨⟨rfl, rfl⟩, trivial⟩, ⟨nofun, nofun⟩⟩, nofun⟩

end Steps

/-- As long as what a call relies on is still true when its waits are over, and the containers of
the path stay alive where they are not locked, no change of the value makes the call read an item
that is not there, refer to a container that is gone, or return anything but JSON. -/
theorem encode_safe_of_spared (v : Variant) (call : EncodeCall) (kept : Set ObjId) {x : Shared}
    (h : Relation.ReflTransGen
      (fun x y => ∃ actor, SharedStep v actor x y ∧ Spares v call.obj actor x y)
      ⟨.goto (initial call), kept⟩ x) : SafeAt call.obj x := by
  have hsound : SoundAt v call.obj x := by
    induction h with
    | refl => exact initial_sound v call kept
    | tail hreach hstep ih =>
        obtain ⟨actor, hstep, hspares⟩ := hstep
        exact hstep.sound hspares ih
  exact hsound.safeAt

/-! ## A list that grows, and one that is cleared -/

/-- `dumps` of a list with an array. -/
def arrayList : EncodeCall where
  obj := 0
  heap := fun obj => if obj = 0 then .list [1] else .scalar (.numpyArray true)
  stack := fun _ => ⟨0, 0, .list⟩
  growth := fun _ => false
  insert := fun _ => false
  answers := fun _ => .interface 2 true true 1 true [3]

/-- The call behind some transitions. -/
def arrayListAfter (n : Nat) : EncodeTransition :=
  follow ⟨false, .gil, 0⟩ n (.goto (initial arrayList))

/-- The array answers, and appends itself to the list; then the call goes on. -/
def arrayListGrown (n : Nat) : EncodeTransition :=
  follow ⟨false, .gil, 0⟩ n ((arrayListAfter 2).withHeap
    (Function.update (arrayListAfter 2).state.heap 0 (.list [1, 1])))

theorem arrayList_grows :
    SharedStep ⟨false, .gil, 0⟩ .other ⟨arrayListAfter 2, ∅⟩ ⟨arrayListGrown 0, ∅⟩ :=
  .mutate 0 (.list [1, 1]) (.lookup _) nofun (.list [1] [1, 1])

/-- When the array has answered, no more items are left to be read. -/
theorem arrayListGrown_ready : (arrayListGrown 0).state.Ready := by
  constructor
  · rintro obj pos size ⟨⟩ hpos
    exact absurd hpos (by decide)
  · exact nofun

/-- The array is written once: the size of the list was read before. -/
theorem encode_safe_of_spared_arrayList :
    (∃ s, arrayListGrown 3 = .ret s ∧ s.out.text = [.openArr, .array [3], .closeArr]) ∧
    SafeAt 0 ⟨arrayListGrown 3, ∅⟩ := by
  refine ⟨⟨_, rfl, by decide⟩, encode_safe_of_spared ⟨false, .gil, 0⟩ arrayList ∅ ?_⟩
  have hencode : ∀ {t t'}, next ⟨false, .gil, 0⟩ t = some t' → Granted t →
      Spares ⟨false, .gil, 0⟩ 0 .encoder ⟨t, ∅⟩ ⟨t', ∅⟩ → ∃ actor,
        SharedStep ⟨false, .gil, 0⟩ actor ⟨t, ∅⟩ ⟨t', ∅⟩ ∧
          Spares ⟨false, .gil, 0⟩ 0 actor ⟨t, ∅⟩ ⟨t', ∅⟩ :=
    fun hnext hlock hspares => ⟨.encoder, .encode hnext hlock, hspares⟩
  have halive : Spares ⟨false, .gil, 0⟩ 0 .other ⟨arrayListAfter 2, ∅⟩ ⟨arrayListGrown 0, ∅⟩ := by
    intro _ obj hobj
    obtain rfl := List.mem_singleton.mp hobj
    exact Alive.root _ _ _
  have hbegins := @hencode (arrayListAfter 0) (arrayListAfter 1) rfl trivial trivial
  have hlooksUp := @hencode (arrayListAfter 1) (arrayListAfter 2) rfl trivial trivial
  have hanswered := @hencode (arrayListGrown 0) (arrayListGrown 1) rfl trivial arrayListGrown_ready
  have hwritten := @hencode (arrayListGrown 1) (arrayListGrown 2) rfl trivial trivial
  have hends := @hencode (arrayListGrown 2) (arrayListGrown 3) rfl trivial trivial
  exact .tail (.tail (.tail (.tail (.tail (.tail .refl hbegins) hlooksUp)
    ⟨.other, arrayList_grows, halive⟩) hanswered) hwritten) hends

/-- `dumps` of a list with an element. -/
def shortList : EncodeCall where
  obj := 0
  heap := fun obj => if obj = 0 then .list [1] else .scalar .none
  stack := fun _ => ⟨0, 0, .list⟩
  growth := fun _ => false
  insert := fun _ => false
  answers := fun _ => .raised

/-- The call waits for the lock of the list. -/
def shortListWaits : EncodeTransition := step ⟨false, .locking, 0⟩ (initial shortList)

/-- Another thread clears the list; then the call goes on. -/
def shortListCleared (n : Nat) : EncodeTransition :=
  follow ⟨false, .locking, 0⟩ n (shortListWaits.withHeap
    (Function.update shortListWaits.state.heap 0 (.list [])))

/-- A list that is cleared after its size was read and before it is locked is read behind its
end. -/
theorem cleared_list_read_behind_end :
    ¬ ∀ (v : Variant) (call : EncodeCall) (kept : Set ObjId) (x : Shared),
      Relation.ReflTransGen (fun x y => ∃ actor, SharedStep v actor x y)
        ⟨.goto (initial call), kept⟩ x → SafeAt call.obj x := by
  intro h
  have hencode : ∀ {t t'}, next ⟨false, .locking, 0⟩ t = some t' → Granted t →
      ∃ actor, SharedStep ⟨false, .locking, 0⟩ actor ⟨t, ∅⟩ ⟨t', ∅⟩ :=
    fun hnext hlock => ⟨.encoder, .encode hnext hlock⟩
  have hcleared : SharedStep ⟨false, .locking, 0⟩ .other
      ⟨shortListWaits, ∅⟩ ⟨shortListCleared 0, ∅⟩ :=
    .mutate 0 (.list []) (.waiting _ _) (fun _ => rfl) (.list [1] [])
  have hwaits := @hencode (.goto (initial shortList)) shortListWaits rfl trivial
  have hlocked := @hencode (shortListCleared 0) (shortListCleared 1) rfl rfl
  have hentered := @hencode (shortListCleared 1) (shortListCleared 2) rfl trivial
  have hread := @hencode (shortListCleared 2) (shortListCleared 3) rfl trivial
  have hreached : Relation.ReflTransGen
      (fun x y => ∃ actor, SharedStep ⟨false, .locking, 0⟩ actor x y)
      ⟨.goto (initial shortList), ∅⟩ ⟨shortListCleared 3, ∅⟩ :=
    .tail (.tail (.tail (.tail (.tail .refl hwaits) ⟨.other, hcleared⟩) hlocked) hentered) hread
  have hbad : ∃ s, shortListCleared 3 = .badItem s := ⟨_, rfl⟩
  obtain ⟨s, hs⟩ := hbad
  exact (h _ _ _ _ hreached).item s hs

end SsrJson.Encode
