import SsrJson.Encode.Path

/-!
# The items that are read

The size of a list is kept while its items are encoded. As long as no list has fewer items than the
size that is kept for it, no item behind the last one is read.
-/

namespace SsrJson.Encode

/-- The list or tuple whose size is kept at a label, where it is read next, and the size. -/
def EncodeState.sized (s : EncodeState) : Option (ObjId × Nat × Nat) :=
  match s.label with
  | .arrValBegin | .arrayStruct false => some (s.curObj, s.curPos, s.listSize)
  | .rootLocked => if (s.heap s.curObj).isList then some (s.curObj, s.curPos, s.listSize) else none
  | .ctnLocked _ listSize => if (s.heap s.val).isList then some (s.val, 0, listSize) else none
  | .start | .dictPairBegin | .dictKeyDone | .arrayStruct true => none

/-- No size that is kept is too large, if there is more to be read. -/
def EncodeState.SizeOk (s : EncodeState) : Prop :=
  ∀ obj pos size, s.sized = some (obj, pos, size) → pos < size → size ≤ (s.heap obj).size

/-- The size that is read in front of the bracket is right. -/
theorem Opens.size_eq {obj : HeapObj} {bracket : OutToken} {listSize : Nat}
    (h : Opens obj bracket listSize)
    (htype : obj.ctnType = some .list ∨ obj.ctnType = some .tuple) : listSize = obj.size := by
  cases h with
  | list | tuple => rfl
  | dict => rcases htype with h | h <;> cases h

namespace EncodeMachine

open EncodeState

variable {v : Variant} {s : EncodeState} {kept : Set ObjId} {root : ObjId}

/-- The size that is kept at a transition; no item is read behind the last one. -/
def SizeAt : EncodeTransition → Prop
  | .goto s | .lookup s | .lock _ s => s.SizeOk
  | .badItem _ => False
  | .ret _ | .retNull _ | .nullSet _ | .undefinedFlag _ => True

theorem fail_size : SizeAt (fail v s) := by rw [fail]; trivial

theorem success_size : SizeAt (success v s) := by
  rw [success]
  split
  · exact fail_size
  · split <;> trivial

/-- The size a list is entered with. -/
theorem enterCtn_size (inObj : Bool) (listSize : Nat)
    (h : (s.heap s.val).ctnType = some .list ∨ (s.heap s.val).ctnType = some .tuple →
      0 < listSize → listSize ≤ (s.heap s.val).size) (hctn : (s.heap s.val).ctnType ≠ none) :
    SizeAt (enterCtn v inObj s listSize) := by
  rw [enterCtn_eq]
  split
  · exact fail_size
  · intro obj pos size hsized hpos
    rw [entered_heap]
    rw [EncodeState.sized, EncodeState.entered] at hsized
    cases hobj : s.heap s.val with
    | scalar =>
        rw [hobj] at hctn
        exact absurd rfl hctn
    | dict =>
        rw [hobj] at hsized
        cases hsized
    | list =>
        rw [hobj] at hsized
        cases hsized
        exact h (.inl (by rw [hobj]; rfl)) hpos
    | tuple =>
        rw [hobj] at hsized
        cases hsized
        exact h (.inr (by rw [hobj]; rfl)) hpos

theorem ValOutcome.sizeAt {inObj : Bool} {t : EncodeTransition} (h : ValOutcome v inObj s t)
    (hsize : inObj = false → s.curPos < s.listSize → s.listSize ≤ (s.heap s.curObj).size) :
    SizeAt t := by
  cases h with
  | written ucs lookups hleaf hw htuple =>
      intro obj pos size hsized hpos
      cases inObj with
      | true => cases hsized
      | false =>
          cases hsized
          exact hsize rfl hpos
  | refused | circular => exact fail_size
  | unassigned => trivial
  | lookup hval =>
      intro obj pos size hsized hpos
      cases inObj with
      | true => cases hsized
      | false =>
          cases hsized
          exact hsize rfl hpos
  | @lock out set ret bracket listSize hopens hw hgranted hv hlock hput hret =>
      intro obj pos size hsized hpos
      have hsized : (if (s.heap s.val).isList then some (s.val, 0, listSize) else none) =
          some (obj, pos, size) := hsized
      split at hsized
      · next hlist =>
          cases hsized
          exact Nat.le_of_eq (hopens.size_eq (.inl (HeapObj.ctnType_of_isList hlist)))
      · cases hsized
  | enter hopens hw hgranted hfree =>
      exact enterCtn_size _ _ (fun htype _ => Nat.le_of_eq (hopens.size_eq htype)) hopens.ctnType_ne

theorem resumed_size : SizeAt (.goto s.resumed) := by
  intro obj pos size hsized hpos
  rw [resumed_fields.1]
  rw [EncodeState.sized, EncodeState.resumed] at hsized
  cases htype : (s.stack s.depth).type with
  | dict =>
      rw [htype] at hsized
      cases hsized
  | list | tuple =>
      rw [htype] at hsized
      cases hsized
      exact Nat.le_refl _

theorem EndOutcome.sizeAt {bracket : OutToken} {locked : Bool} {t : EncodeTransition}
    (h : EndOutcome v s bracket locked t) : SizeAt t := by
  cases h with
  | refused => exact fail_size
  | root => exact success_size
  | inner => exact resumed_size

/-- The size the root is entered with. -/
theorem rooted_size (h : (s.heap s.curObj).isList = true → s.curPos < s.listSize →
    s.listSize ≤ (s.heap s.curObj).size) (hlock : (s.heap s.curObj).lockable = true) :
    SizeAt (.goto s.rooted) := by
  intro obj pos size hsized hpos
  have hheap : s.rooted.heap = s.heap := by
    rw [EncodeState.rooted]
    split <;> rfl
  rw [hheap]
  rw [EncodeState.rooted] at hsized
  cases hobj : s.heap s.curObj with
  | scalar | tuple =>
      rw [hobj] at hlock
      cases hlock
  | list items =>
      rw [hobj] at hsized
      cases hsized
      exact h (by rw [hobj]; rfl) hpos
  | dict entries =>
      rw [hobj] at hsized
      cases hsized

theorem StartOutcome.sizeAt {t : EncodeTransition} (h : StartOutcome v s t) : SizeAt t := by
  cases h with
  | nullSet | noSet => trivial
  | refused | unsupported => exact fail_size
  | empty => exact success_size
  | tuple hset hout hobj hne =>
      intro obj pos size hsized hpos
      cases hsized
      show _ ≤ (s.heap s.curObj).size
      rw [hobj]
      exact Nat.le_refl _
  | @lock listSize set set' out bracket ret size hset hup hout hv hlock hopens hsize hput =>
      intro obj pos kept hsized hpos
      have hsized : (if (s.heap s.curObj).isList then some (s.curObj, s.curPos, listSize)
          else none) = some (obj, pos, kept) := hsized
      split at hsized
      · next hlist =>
          cases hsized
          rw [hsize hlist]
          exact Nat.le_of_eq (hopens.size_eq (.inl (HeapObj.ctnType_of_isList hlist)))
      · cases hsized
  | @unlocked listSize set out bracket size hset hout hv hlock hopens hsize =>
      refine rooted_size (fun hlist _ => ?_) hlock
      show listSize ≤ (s.heap s.curObj).size
      rw [hsize hlist]
      exact Nat.le_of_eq (hopens.size_eq (.inl (HeapObj.ctnType_of_isList hlist)))

/-- A step reads no item behind the last one and keeps the right size. -/
theorem step_size (hp : PathOk kept root s) (hs : s.SizeOk) : SizeAt (step v s) := by
  rw [step]
  cases hl : s.label with
  | start => exact start_outcome.sizeAt
  | rootLocked =>
      dsimp only
      rw [rootLocked_eq]
      refine rooted_size (fun hlist => hs _ _ _ ?_) (hp.opening _ ?_)
      · rw [EncodeState.sized, hl]
        exact if_pos hlist
      · rw [EncodeState.opening, hl]
        exact List.mem_singleton_self _
  | dictPairBegin =>
      have h := @dictPairBegin_outcome v s
      show SizeAt (dictPairBegin v s)
      generalize dictPairBegin v s = t at h
      cases h with
      | key =>
          intro obj pos size hsized hpos
          cases hsized
      | refused => exact fail_size
      | done hnext hend => exact hend.sizeAt
  | dictKeyDone => exact encodeProcessVal_outcome.sizeAt (Bool.noConfusion ·)
  | arrValBegin =>
      have hkept : s.curPos < s.listSize → s.listSize ≤ (s.heap s.curObj).size :=
        hs _ _ _ (by rw [EncodeState.sized, hl])
      have hdepth : s.depth ≠ 0 := by
        intro hzero
        rcases hp.depth_zero.mp hzero with h | h <;> rw [hl] at h <;> cases h
      have hcur := hp.cur hdepth
      rw [getEncodeCtnType, inDict, hl] at hcur
      have h := @arrValBegin_outcome v s
      show SizeAt (arrValBegin v s)
      generalize arrValBegin v s = t at h
      cases h with
      | value hpos hitem hval => exact hval.sizeAt fun _ _ => hkept hpos
      | badItem hpos hitem =>
          have hlt : s.curPos < (s.heap s.curObj).size := Nat.lt_of_lt_of_le hpos (hkept hpos)
          generalize s.heap s.curObj = ctn at hcur hitem hlt
          cases ctn with
          | scalar => cases hcur
          | dict => cases ht : s.isTuple <;> rw [ht] at hcur <;> cases hcur
          | list items => exact absurd hlt (Nat.not_lt.mpr (List.getElem?_eq_none_iff.mp hitem))
          | tuple items => exact absurd hlt (Nat.not_lt.mpr (List.getElem?_eq_none_iff.mp hitem))
      | done hpos hend => exact hend.sizeAt
  | ctnLocked inObj listSize =>
      have hlock := hp.opening s.val (by
        rw [EncodeState.opening, hl]
        exact List.mem_singleton_self _)
      refine enterCtn_size _ _ (fun htype => hs _ _ _ ?_) (HeapObj.ctnType_ne_of_lockable hlock)
      rw [EncodeState.sized, hl]
      refine if_pos ?_
      generalize s.heap s.val = ctn at htype hlock
      rcases htype with h | h <;> cases ctn <;> cases h
      · rfl
      · cases hlock
  | arrayStruct inObj =>
      have hkept : inObj = false → s.curPos < s.listSize →
          s.listSize ≤ (s.heap s.curObj).size := by
        intro hin
        exact hs _ _ _ (by rw [EncodeState.sized, hl, hin])
      dsimp only
      rw [processArray]
      generalize uBufApdNdarray v s.depth inObj s.out s.ucs (s.answers s.lookups) = r
      obtain ⟨written, out⟩ := r
      cases written with
      | false => exact fail_size
      | true =>
          intro obj pos size hsized hpos
          cases inObj with
          | true => cases hsized
          | false =>
              cases hsized
              exact hkept rfl hpos

/-- The size is kept from one transition to the next. -/
theorem next_size {t t' : EncodeTransition} (h : next v t = some t') (hp : PathAt kept root t)
    (ht : SizeAt t) : SizeAt t' := by
  cases t with
  | goto s =>
      cases h
      exact step_size hp ht
  | lock obj s =>
      cases h
      exact ht
  | lookup s =>
      cases h
      exact ht
  | ret | retNull | nullSet | undefinedFlag | badItem => cases h

end EncodeMachine

end SsrJson.Encode
