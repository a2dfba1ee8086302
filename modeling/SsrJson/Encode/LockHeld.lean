import SsrJson.Encode.Path

/-!
# The locks a call holds

Where containers are locked, a call holds the locks of the lists and dicts on its path, each as
often as it is on it, whether or not the set that records them had room.
-/

namespace SsrJson.Encode

/-- The lists and dicts among some containers. -/
def lockables (heap : Heap) (ctns : List ObjId) : List ObjId :=
  ctns.filter fun obj => (heap obj).lockable

namespace EncodeState

/-- The locks that are held are those of the lists and dicts among some containers. -/
def Holds (s : EncodeState) (ctns : List ObjId) : Prop :=
  ∀ obj, s.locks obj = ((lockables s.heap ctns).count obj : Nat)

variable {s s' : EncodeState} {root : ObjId} {ctns : List ObjId}

theorem Holds.congr (h : s.Holds ctns) (hlocks : s'.locks = s.locks) (hheap : s'.heap = s.heap) :
    s'.Holds ctns := by
  intro obj
  rw [hlocks, hheap]
  exact h obj

/-- The lock of one more list or dict. -/
theorem Holds.lock {obj : ObjId} (h : s.Holds ctns) (hlock : (s.heap obj).lockable = true) :
    (s.lock obj).Holds (obj :: ctns) := by
  intro o
  have hcons : lockables s.heap (obj :: ctns) = obj :: lockables s.heap ctns :=
    List.filter_cons_of_pos hlock
  show Function.update s.locks obj (s.locks obj + 1) o = _
  show _ = ((lockables s.heap (obj :: ctns)).count o : Int)
  rw [hcons, List.count_cons]
  by_cases ho : o = obj
  · subst ho
    rw [Function.update_self, h o]
    simp
  · rw [Function.update_of_ne ho, h o]
    simp [Ne.symm ho]

/-- A tuple that is entered. -/
theorem Holds.cons {obj : ObjId} (h : s.Holds ctns) (hfree : (s.heap obj).lockable = false) :
    s.Holds (obj :: ctns) := by
  have hcons : lockables s.heap (obj :: ctns) = lockables s.heap ctns :=
    List.filter_cons_of_neg (by simp [hfree])
  intro o
  rw [hcons]
  exact h o

/-- A list or a dict is unlocked when it ends. -/
theorem Holds.unlock {obj : ObjId} (h : s.Holds (obj :: ctns))
    (hlock : (s.heap obj).lockable = true) : (s.unlock obj).Holds ctns := by
  intro o
  have hcons : lockables s.heap (obj :: ctns) = obj :: lockables s.heap ctns :=
    List.filter_cons_of_pos hlock
  have ho := h o
  rw [hcons, List.count_cons] at ho
  show Function.update s.locks obj (s.locks obj - 1) o = ((lockables s.heap ctns).count o : Int)
  by_cases heq : o = obj
  · subst heq
    rw [Function.update_self, ho]
    simp
  · rw [Function.update_of_ne heq, ho]
    simp [Ne.symm heq]

/-- A tuple ends. -/
theorem Holds.tail {obj : ObjId} (h : s.Holds (obj :: ctns))
    (hfree : (s.heap obj).lockable = false) : s.Holds ctns := by
  have hcons : lockables s.heap (obj :: ctns) = lockables s.heap ctns :=
    List.filter_cons_of_neg (by simp [hfree])
  intro o
  rw [← hcons]
  exact h o

theorem openCtns_eq_path (hopening : s.opening = []) : s.openCtns = s.path := by
  rw [openCtns, hopening, List.nil_append]

theorem entered_locks (inObj : Bool) (listSize : Nat) :
    (s.entered inObj listSize).locks = s.locks := by
  rw [entered]
  cases s.heap s.val <;> rfl

theorem resumed_locks : s.resumed.locks = s.locks := by
  rw [resumed]
  cases (s.stack s.depth).type <;> rfl

/-- The containers around the one that ended. -/
theorem resumed_openCtns (hdepth : s.depth - 1 ≠ 0) (hs : s'.depth = s.depth - 1)
    (hstack : s'.stack = s.stack) : s'.resumed.openCtns = s.path.tail := by
  have hdepth' : s.depth ≠ 0 := by omega
  obtain ⟨-, hd, hc, hst, ho, -⟩ := @resumed_fields s'
  rw [hs, hstack] at hc
  rw [hs] at hd
  rw [hstack] at hst
  rw [openCtns, ho, path_of_pos (by rwa [hd]), hc, hst, hd, path_tail hdepth' hdepth]
  rfl

end EncodeState

namespace EncodeMachine

open EncodeState

variable {v : Variant} {s : EncodeState} {kept : Set ObjId} {root : ObjId}

/-- The locks held at a transition. -/
def HeldAt : EncodeTransition → Prop
  | .goto s | .lookup s => s.Holds s.openCtns
  | .lock _ s => s.Holds s.path
  | .ret _ | .retNull _ | .nullSet _ | .undefinedFlag _ | .badItem _ => True

theorem fail_held : HeldAt (fail v s) := by rw [fail]; trivial

theorem success_held : HeldAt (success v s) := by
  rw [success]
  split
  · exact fail_held
  · split <;> trivial

theorem entered_openCtns (inObj : Bool) (listSize : Nat) (hdepth : s.depth ≠ 0) :
    (s.entered inObj listSize).openCtns = s.val :: s.path := by
  obtain ⟨-, -, -, -, ho⟩ := @entered_fields s inObj listSize
  rw [openCtns_eq_path ho, entered_path _ _ hdepth]

theorem enterCtn_held (inObj : Bool) (listSize : Nat) (hdepth : s.depth ≠ 0)
    (h : s.Holds (s.val :: s.path)) : HeldAt (enterCtn v inObj s listSize) := by
  rw [enterCtn_eq]
  split
  · exact fail_held
  · show EncodeState.Holds _ (EncodeState.openCtns _)
    rw [entered_openCtns _ _ hdepth]
    exact h.congr (entered_locks _ _) (entered_fields _ _).1

theorem ValOutcome.heldAt {inObj : Bool} {t : EncodeTransition} (h : ValOutcome v inObj s t)
    (hv : v.locking = true) (hdepth : s.depth ≠ 0) (hs : s.Holds s.path) : HeldAt t := by
  cases h with
  | written ucs lookups hleaf hw htuple =>
      show EncodeState.Holds _ (EncodeState.openCtns _)
      rw [openCtns_eq_path (opening_valueLabel rfl)]
      exact hs
  | refused => exact fail_held
  | unassigned => trivial
  | lookup hval => exact hs
  | circular => exact fail_held
  | lock hopens hw hgranted hv hlock hput hret => exact hs
  | enter hopens hw hgranted hfree =>
      rcases hfree with hfree | hfree
      · rw [hv] at hfree
        cases hfree
      · refine enterCtn_held _ _ hdepth ?_
        exact (hs.congr rfl rfl).cons hfree

/-- Behind a container that ended. -/
theorem resumed_held {s' : EncodeState} (hdepth : s.depth - 1 ≠ 0) (hd : s'.depth = s.depth - 1)
    (hstack : s'.stack = s.stack) (h : s'.Holds (below s.stack s.depth)) :
    HeldAt (.goto s'.resumed) := by
  show s'.resumed.Holds s'.resumed.openCtns
  have hdepth' : s.depth ≠ 0 := by omega
  rw [resumed_openCtns hdepth hd hstack, path_of_pos hdepth', List.tail_cons]
  exact h.congr resumed_locks resumed_fields.1

theorem EndOutcome.heldAt {bracket : OutToken} {locked : Bool} {t : EncodeTransition}
    (h : EndOutcome v s bracket locked t) (hv : v.locking = true)
    (hlocked : locked = (s.heap s.curObj).lockable) (hs : s.Holds s.path) : HeldAt t := by
  cases h with
  | refused => exact fail_held
  | root => exact success_held
  | @inner out hw hdepth =>
      have hdepth' : s.depth ≠ 0 := by omega
      rw [path_of_pos hdepth'] at hs
      rw [leave]
      split
      · next hlock =>
          have hunlock : (s.unlock s.curObj).Holds (below s.stack s.depth) :=
            hs.unlock (by rw [← hlocked]; exact hlock.2)
          exact resumed_held hdepth rfl rfl (hunlock.congr rfl rfl)
      · next hlock =>
          have hfree : (s.heap s.curObj).lockable = false := by
            rw [← hlocked]
            simpa [hv] using hlock
          exact resumed_held hdepth rfl rfl ((hs.tail hfree).congr rfl rfl)

theorem PairOutcome.heldAt {t : EncodeTransition} (h : PairOutcome v s t)
    (hv : v.locking = true) (hdict : (s.heap s.curObj).ctnType = some .dict)
    (hs : s.Holds s.path) : HeldAt t := by
  cases h with
  | key ucs hnext hkey hw => exact hs
  | refused => exact fail_held
  | done hnext hend =>
      exact hend.heldAt hv (HeapObj.lockable_iff_ctnType.mpr (.inr hdict)).symm hs

theorem ItemOutcome.heldAt {t : EncodeTransition} (h : ItemOutcome v s t)
    (hv : v.locking = true) (hdepth : s.depth ≠ 0)
    (htype : (s.heap s.curObj).ctnType = some (if s.isTuple then .tuple else .list))
    (hs : s.Holds s.path) : HeldAt t := by
  cases h with
  | value hpos hitem hval => exact hval.heldAt hv hdepth hs
  | badItem => trivial
  | done hpos hend =>
      refine hend.heldAt hv ?_ hs
      generalize s.heap s.curObj = obj at htype
      cases hl : s.isTuple <;> rw [hl] at htype <;> cases obj <;> cases htype <;> rfl

theorem StartOutcome.heldAt {t : EncodeTransition} (h : StartOutcome v s t)
    (hv : v.locking = true) (hdepth : s.depth = 0) (hs : s.Holds []) : HeldAt t := by
  cases h with
  | nullSet | noSet => trivial
  | refused | unsupported => exact fail_held
  | empty => exact success_held
  | tuple hset hout hobj hne =>
      have hfree : (s.heap s.curObj).lockable = false := by rw [hobj]; rfl
      exact (hs.congr rfl rfl).cons hfree
  | lock listSize hset hup hout hv hlock hopens hsize hput =>
      show EncodeState.Holds _ (if s.depth = 0 then [] else s.curObj :: below s.stack s.depth)
      rw [if_pos hdepth]
      exact hs
  | unlocked listSize hset hout hfree =>
      rw [hv] at hfree
      cases hfree

/-- A step keeps the locks of the path. -/
theorem step_held (hv : v.locking = true) (hp : PathOk kept root s) (hs : s.Holds s.openCtns) :
    HeldAt (step v s) := by
  have hdepth : s.label ≠ .start → s.label ≠ .rootLocked → s.depth ≠ 0 := by
    intro h1 h2 hzero
    rcases hp.depth_zero.mp hzero with hl | hl
    · exact h1 hl
    · exact h2 hl
  have hpath : s.opening = [] → s.Holds s.path := fun h => openCtns_eq_path h ▸ hs
  rw [step]
  cases hl : s.label with
  | start =>
      have hzero := hp.depth_zero.mpr (.inl hl)
      refine start_outcome.heldAt hv hzero ?_
      have h := hpath (by rw [EncodeState.opening, hl])
      rwa [path, if_pos hzero] at h
  | rootLocked =>
      have hzero := hp.depth_zero.mpr (.inr hl)
      have hopen : s.openCtns = [s.curObj] := by
        rw [openCtns, EncodeState.opening, hl, path, if_pos hzero, List.append_nil]
      dsimp only
      rw [rootLocked_eq]
      show EncodeState.Holds _ (EncodeState.openCtns _)
      rw [hopen] at hs
      rw [EncodeState.rooted]
      split <;> exact hs
  | dictPairBegin =>
      have hd := hdepth (by simp [hl]) (by simp [hl])
      have hcur := hp.cur hd
      rw [getEncodeCtnType, inDict, hl] at hcur
      exact dictPairBegin_outcome.heldAt hv hcur (hpath (by rw [EncodeState.opening, hl]))
  | dictKeyDone =>
      exact encodeProcessVal_outcome.heldAt hv (hdepth (by simp [hl]) (by simp [hl]))
        (hpath (by rw [EncodeState.opening, hl]))
  | arrValBegin =>
      have hd := hdepth (by simp [hl]) (by simp [hl])
      have hcur := hp.cur hd
      rw [getEncodeCtnType, inDict, hl] at hcur
      exact arrValBegin_outcome.heldAt hv hd hcur (hpath (by rw [EncodeState.opening, hl]))
  | ctnLocked inObj listSize =>
      refine enterCtn_held _ _ (hdepth (by simp [hl]) (by simp [hl])) ?_
      have hopen : s.openCtns = s.val :: s.path := by rw [openCtns, EncodeState.opening, hl]; rfl
      rwa [hopen] at hs
  | arrayStruct inObj =>
      have h := hpath (by rw [EncodeState.opening, hl])
      obtain ⟨tokens, -, hw⟩ :=
        uBufApdNdarray_attempt s.out v s.depth inObj s.ucs (s.answers s.lookups)
      dsimp only
      rw [processArray]
      generalize uBufApdNdarray v s.depth inObj s.out s.ucs (s.answers s.lookups) = r at hw
      cases hw with
      | failed => exact fail_held
      | done =>
          show EncodeState.Holds _ (EncodeState.openCtns _)
          rw [openCtns_eq_path (opening_valueLabel rfl)]
          exact h

/-- The locks of the path are held from one transition to the next. -/
theorem next_held {t t' : EncodeTransition} (hv : v.locking = true) (h : next v t = some t')
    (hp : PathAt kept root t) (ht : HeldAt t) : HeldAt t' := by
  cases t with
  | goto s =>
      cases h
      exact step_held hv hp ht
  | lock obj s =>
      cases h
      have hopening := hp.2
      have hlock := hp.1.opening obj (by rw [hopening]; exact List.mem_singleton_self _)
      have hopen : (s.lock obj).openCtns = obj :: s.path := by
        show s.opening ++ s.path = _
        rw [hopening]
        rfl
      show (s.lock obj).Holds (s.lock obj).openCtns
      rw [hopen]
      exact Holds.lock ht hlock
  | lookup s =>
      cases h
      exact ht
  | ret | retNull | nullSet | undefinedFlag | badItem => cases h

end EncodeMachine

end SsrJson.Encode
