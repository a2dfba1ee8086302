import SsrJson.Encode.LockHeld

/-!
# The containers a call refers to

While it runs a call refers to the containers of its path, to the value of a key, and to the
members of its path set and the root that it is going to unlock. All of these are alive as long as
the containers of the path keep each other alive.
-/

namespace SsrJson.Encode

/-- The root of a call or an object other code refers to leads to the object. -/
def Alive (heap : Heap) (kept : Set ObjId) (root obj : ObjId) : Prop :=
  ∃ held, (held = root ∨ held ∈ kept) ∧ Relation.ReflTransGen (Child heap) held obj

namespace EncodeState

/-- The containers a call refers to. -/
def refs (s : EncodeState) : List ObjId :=
  s.openCtns ++ (if s.label = .dictKeyDone then [s.val] else []) ++ s.set.members ++
    s.toplevel.toList

/-- What is recorded is on the path, and the root is what is unlocked at the end. -/
structure MembersOk (v : Variant) (root : ObjId) (s : EncodeState) : Prop where
  nodup : s.set.members.Nodup
  mem : ∀ obj ∈ s.set.members,
    obj ∈ s.openCtns ∧ (s.heap obj).lockable = true ∧ v.locking = true
  toplevel : ∀ obj ∈ s.toplevel, obj = root

end EncodeState

theorem Alive.root (heap : Heap) (kept : Set ObjId) (root : ObjId) : Alive heap kept root root :=
  ⟨root, .inl rfl, .refl⟩

theorem Alive.kept {heap : Heap} {kept : Set ObjId} {root obj : ObjId} (h : obj ∈ kept) :
    Alive heap kept root obj :=
  ⟨obj, .inr h, .refl⟩

theorem Alive.child {heap : Heap} {kept : Set ObjId} {root outer inner : ObjId}
    (h : Alive heap kept root outer) (hchild : Child heap outer inner) :
    Alive heap kept root inner := by
  obtain ⟨held, hheld, hpath⟩ := h
  exact ⟨held, hheld, hpath.tail hchild⟩

/-- A container that is referred to is alive with the one that refers to it. -/
theorem Alive.link {heap : Heap} {kept linked : Set ObjId} {root outer inner : ObjId}
    (h : Alive heap kept root outer) (hlinked : ∀ obj ∈ linked, Alive heap kept root obj)
    (hlink : Link linked heap outer inner) : Alive heap kept root inner := by
  rcases hlink with hchild | hmem
  · exact h.child hchild
  · exact hlinked inner hmem

namespace EncodeState

variable {s : EncodeState} {kept linked : Set ObjId} {root : ObjId}

/-- Containers that keep each other alive from the root on are alive. -/
theorem alive_of_chain {heap : Heap} {ctns : List ObjId}
    (hlinked : ∀ obj ∈ linked, Alive heap kept root obj)
    (hchain : ctns.IsChain fun inner outer => Link linked heap outer inner)
    (hroot : ∀ obj ∈ ctns.getLast?, obj = root) : ∀ obj ∈ ctns, Alive heap kept root obj := by
  induction ctns with
  | nil => exact nofun
  | cons inner ctns ih =>
      cases ctns with
      | nil =>
          intro obj hobj
          obtain rfl := List.mem_singleton.mp hobj
          rw [hroot obj rfl]
          exact Alive.root heap kept root
      | cons outer ctns =>
          obtain ⟨hlink, hchain⟩ := List.isChain_cons_cons.mp hchain
          rw [List.getLast?_cons_cons] at hroot
          have halive := ih hchain hroot
          intro obj hobj
          rcases List.mem_cons.mp hobj with rfl | hobj
          · exact (halive outer List.mem_cons_self).link hlinked hlink
          · exact halive obj hobj

/-- The path is alive. -/
theorem PathOk.alive (h : PathOk linked root s)
    (hlinked : ∀ obj ∈ linked, Alive s.heap kept root obj) :
    ∀ obj ∈ s.openCtns, Alive s.heap kept root obj :=
  alive_of_chain hlinked h.chain h.rooted

/-- What a call refers to is alive. -/
theorem PathOk.refs_alive {v : Variant} (h : PathOk linked root s) (hmembers : s.MembersOk v root)
    (hlinked : ∀ obj ∈ linked, Alive s.heap kept root obj) :
    ∀ obj ∈ s.refs, Alive s.heap kept root obj := by
  have hopen := h.alive hlinked
  intro obj hobj
  rw [refs, List.mem_append, List.mem_append, List.mem_append] at hobj
  rcases hobj with ((hobj | hobj) | hobj) | hobj
  · exact hopen obj hobj
  · split at hobj
    · next hl =>
        obtain rfl := List.mem_singleton.mp hobj
        have hdepth : s.depth ≠ 0 := by
          intro hzero
          rcases h.depth_zero.mp hzero with h | h <;> rw [hl] at h <;> cases h
        refine (hopen s.curObj ?_).link hlinked (h.val hl)
        rw [openCtns, path_of_pos hdepth]
        exact List.mem_append_right _ List.mem_cons_self
    · cases hobj
  · exact hopen obj (hmembers.mem obj hobj).1
  · rw [hmembers.toplevel obj (Option.mem_toList.mp hobj)]
    exact Alive.root _ _ _

end EncodeState

namespace EncodeMachine

open EncodeState

variable {v : Variant} {s : EncodeState} {kept : Set ObjId} {root : ObjId}

/-- What is recorded at a transition. -/
def MembersAt (v : Variant) (root : ObjId) : EncodeTransition → Prop
  | .goto s | .lookup s | .lock _ s => s.MembersOk v root
  | .ret _ | .retNull _ | .nullSet _ | .undefinedFlag _ | .badItem _ => True

theorem fail_members : MembersAt v root (fail v s) := by rw [fail]; trivial

theorem success_members : MembersAt v root (success v s) := by
  rw [success]
  split
  · exact fail_members
  · split <;> trivial

theorem enterCtn_members {inObj : Bool} {listSize : Nat} (hdepth : s.depth ≠ 0)
    (h : s.MembersOk v root) (hopen : s.openCtns ⊆ s.val :: s.path) :
    MembersAt v root (enterCtn v inObj s listSize) := by
  rw [enterCtn_eq]
  split
  · exact fail_members
  · have hfields : (s.entered inObj listSize).set = s.set ∧
        (s.entered inObj listSize).toplevel = s.toplevel := by
      rw [EncodeState.entered]
      cases s.heap s.val <;> exact ⟨rfl, rfl⟩
    refine ⟨hfields.1 ▸ h.nodup, ?_, hfields.2 ▸ h.toplevel⟩
    rw [hfields.1, entered_openCtns _ _ hdepth, entered_heap]
    intro obj hobj
    obtain ⟨hmem, hlock⟩ := h.mem obj hobj
    exact ⟨hopen hmem, hlock⟩

theorem ValOutcome.membersAt {inObj : Bool} {t : EncodeTransition} (h : ValOutcome v inObj s t)
    (hdepth : s.depth ≠ 0) (hopening : s.opening = []) (hm : s.MembersOk v root) :
    MembersAt v root t := by
  have hpath := openCtns_eq_path hopening
  have hmem : ∀ obj ∈ s.set.members,
      obj ∈ s.path ∧ (s.heap obj).lockable = true ∧ v.locking = true := hpath ▸ hm.mem
  cases h with
  | written ucs lookups hleaf hw htuple =>
      refine ⟨hm.nodup, ?_, hm.toplevel⟩
      rw [openCtns_eq_path (opening_valueLabel rfl)]
      exact hmem
  | refused | circular => exact fail_members
  | unassigned => trivial
  | lookup hval => exact ⟨hm.nodup, hmem, hm.toplevel⟩
  | @lock out set ret bracket listSize hopens hw hgranted hv hlock hput hret =>
      have hcons : ∀ obj ∈ s.set.members,
          obj ∈ s.val :: s.path ∧ (s.heap obj).lockable = true ∧ v.locking = true :=
        fun obj hobj => ⟨List.mem_cons_of_mem _ (hmem obj hobj).1, (hmem obj hobj).2⟩
      obtain ⟨-, -, h | h | h⟩ := PathSet.khPut_cases hput
      · refine ⟨?_, ?_, hm.toplevel⟩
        · show set.members.Nodup
          rw [h.2.2]
          exact hm.nodup
        · show ∀ obj ∈ set.members, obj ∈ s.val :: s.path ∧ _
          rw [h.2.2]
          exact hcons
      · exact absurd h.1 hret
      · refine ⟨?_, ?_, hm.toplevel⟩
        · show set.members.Nodup
          rw [h.2.2.2]
          exact List.nodup_cons.mpr ⟨h.2.2.1, hm.nodup⟩
        · show ∀ obj ∈ set.members, obj ∈ s.val :: s.path ∧ _
          rw [h.2.2.2]
          intro obj hobj
          rcases List.mem_cons.mp hobj with rfl | hobj
          · exact ⟨List.mem_cons_self, hlock, hv⟩
          · exact hcons obj hobj
  | @enter out bracket listSize hopens hw hgranted hfree =>
      have hm' : MembersOk v root { s with out } := ⟨hm.nodup, hm.mem, hm.toplevel⟩
      refine enterCtn_members hdepth hm' fun obj hobj => ?_
      have hobj : obj ∈ s.openCtns := hobj
      rw [hpath] at hobj
      exact List.mem_cons_of_mem _ hobj

/-- A container that ended is not recorded any more. -/
theorem EndOutcome.membersAt {bracket : OutToken} {locked : Bool} {t : EncodeTransition}
    (h : EndOutcome v s bracket locked t) (hdepth : s.depth ≠ 0) (hopening : s.opening = [])
    (hlocked : locked = (s.heap s.curObj).lockable) (hm : s.MembersOk v root) :
    MembersAt v root t := by
  have hmem := hm.mem
  rw [openCtns_eq_path hopening, path_of_pos hdepth] at hmem
  cases h with
  | refused => exact fail_members
  | root => exact success_members
  | @inner out hw hinner =>
      have hresumed : ∀ s' : EncodeState, s'.depth = s.depth - 1 → s'.stack = s.stack →
          s'.heap = s.heap → s'.toplevel = s.toplevel → s'.set.members.Nodup →
          (∀ obj ∈ s'.set.members, obj ∈ s.set.members ∧ obj ≠ s.curObj) →
          MembersAt v root (.goto s'.resumed) := by
        intro s' hd hstack hheap htoplevel hnodup hleft
        have hset : s'.resumed.set = s'.set ∧ s'.resumed.toplevel = s'.toplevel := by
          rw [EncodeState.resumed]
          cases (s'.stack s'.depth).type <;> exact ⟨rfl, rfl⟩
        refine ⟨hset.1 ▸ hnodup, ?_, hset.2 ▸ htoplevel ▸ hm.toplevel⟩
        rw [hset.1, resumed_openCtns hinner hd hstack, path_of_pos hdepth, List.tail_cons,
          resumed_fields.1, hheap]
        intro obj hobj
        obtain ⟨hold, hne⟩ := hleft obj hobj
        obtain ⟨hpath, hrest⟩ := hmem obj hold
        exact ⟨(List.mem_cons.mp hpath).resolve_left hne, hrest⟩
      rw [leave]
      split
      · refine hresumed _ rfl rfl rfl rfl (hm.nodup.erase _) fun obj hobj => ?_
        have hobj : obj ∈ s.set.members.erase s.curObj := hobj
        obtain ⟨hne, hold⟩ := hm.nodup.mem_erase_iff.mp hobj
        exact ⟨hold, hne⟩
      · next hfree =>
          refine hresumed _ rfl rfl rfl rfl hm.nodup fun obj hobj => ⟨hobj, ?_⟩
          rintro rfl
          obtain ⟨-, hlock, hv⟩ := hmem _ hobj
          exact hfree ⟨hv, hlocked.trans hlock⟩

theorem StartOutcome.membersAt {t : EncodeTransition} (h : StartOutcome v s t)
    (hroot : s.curObj = root) (hnone : s.set.members = [])
    (htop : ∀ obj ∈ s.toplevel, obj = root) : MembersAt v root t := by
  have hempty : ∀ s' : EncodeState, s'.set.members = s.set.members → s'.toplevel = s.toplevel →
      s'.MembersOk v root := by
    intro s' hmembers htoplevel
    rw [hnone] at hmembers
    refine ⟨hmembers ▸ .nil, ?_, htoplevel ▸ htop⟩
    rw [hmembers]
    exact nofun
  cases h with
  | nullSet | noSet => trivial
  | refused | unsupported => exact fail_members
  | empty => exact success_members
  | tuple hset hout hobj hne => exact hempty _ hset rfl
  | @lock listSize set set' out bracket ret size hset hup hout hv hlock hopens hsize hput =>
      have htoplevel : ∀ obj ∈ some s.curObj, obj = root := by
        rintro _ ⟨⟩
        exact hroot
      obtain ⟨-, -, h⟩ := PathSet.khPut_cases hput
      have hmembers : set'.members = [] ∨ set'.members = [s.curObj] := by
        rcases h with h | h | h
        · exact .inl (h.2.2.trans (hset.trans hnone))
        · exact .inl (h.2.2.2.trans (hset.trans hnone))
        · rw [hset, hnone] at h
          exact .inr h.2.2.2
      rcases hmembers with hmembers | hmembers
      · refine ⟨?_, ?_, htoplevel⟩
        · show set'.members.Nodup
          rw [hmembers]
          exact .nil
        · show ∀ obj ∈ set'.members, _
          rw [hmembers]
          exact nofun
      · refine ⟨?_, ?_, htoplevel⟩
        · show set'.members.Nodup
          rw [hmembers]
          exact List.nodup_cons.mpr ⟨List.not_mem_nil, .nil⟩
        · show ∀ obj ∈ set'.members, _
          rw [hmembers]
          intro obj hobj
          obtain rfl := List.mem_singleton.mp hobj
          exact ⟨List.mem_append_left _ (List.mem_singleton_self _), hlock, hv⟩
  | unlocked listSize hset hout hv hlock hopens hsize =>
      rw [EncodeState.rooted]
      split <;> exact hempty _ hset rfl

/-- What has a path is recorded on it. -/
theorem step_members (hp : PathOk kept root s) (hm : s.MembersOk v root) :
    MembersAt v root (step v s) := by
  have hdepth : s.label ≠ .start → s.label ≠ .rootLocked → s.depth ≠ 0 := by
    intro h1 h2 hzero
    rcases hp.depth_zero.mp hzero with hl | hl
    · exact h1 hl
    · exact h2 hl
  rw [step]
  cases hl : s.label with
  | start =>
      have hzero := hp.depth_zero.mpr (.inl hl)
      have hopening : s.opening = [] := by rw [EncodeState.opening, hl]
      have hmem := hm.mem
      rw [openCtns, hopening, EncodeState.path, if_pos hzero, List.append_nil] at hmem
      have hnone : s.set.members = [] :=
        List.eq_nil_iff_forall_not_mem.mpr fun obj hobj => List.not_mem_nil (hmem obj hobj).1
      exact start_outcome.membersAt (hp.starts hzero) hnone hm.toplevel
  | rootLocked =>
      have hzero := hp.depth_zero.mpr (.inr hl)
      have hopening : s.opening = [s.curObj] := by rw [EncodeState.opening, hl]
      have hmem := hm.mem
      rw [openCtns, hopening, EncodeState.path, if_pos hzero, List.append_nil] at hmem
      dsimp only
      rw [rootLocked_eq, EncodeState.rooted]
      split
      · refine ⟨hm.nodup, fun obj hobj => ?_, hm.toplevel⟩
        obtain ⟨hobj, hrest⟩ := hmem obj hobj
        obtain rfl := List.mem_singleton.mp hobj
        exact ⟨List.mem_cons_self, hrest⟩
      · refine ⟨hm.nodup, fun obj hobj => ?_, hm.toplevel⟩
        obtain ⟨hobj, hrest⟩ := hmem obj hobj
        obtain rfl := List.mem_singleton.mp hobj
        exact ⟨List.mem_cons_self, hrest⟩
  | dictPairBegin =>
      have hopening : s.opening = [] := by rw [EncodeState.opening, hl]
      have hpos := hdepth (by simp [hl]) (by simp [hl])
      have hcur := hp.cur hpos
      rw [getEncodeCtnType, inDict, hl] at hcur
      have h := @dictPairBegin_outcome v s
      show MembersAt v root (dictPairBegin v s)
      generalize dictPairBegin v s = t at h
      cases h with
      | key ucs hnext hkey hw =>
          refine ⟨hm.nodup, ?_, hm.toplevel⟩
          have hmem := hm.mem
          rw [openCtns_eq_path hopening] at hmem
          exact hmem
      | refused => exact fail_members
      | done hnext hend =>
          exact hend.membersAt hpos hopening
            (HeapObj.lockable_iff_ctnType.mpr (.inr hcur)).symm hm
  | dictKeyDone =>
      exact encodeProcessVal_outcome.membersAt (hdepth (by simp [hl]) (by simp [hl]))
        (by rw [EncodeState.opening, hl]) hm
  | arrValBegin =>
      have hopening : s.opening = [] := by rw [EncodeState.opening, hl]
      have hpos := hdepth (by simp [hl]) (by simp [hl])
      have hcur := hp.cur hpos
      rw [getEncodeCtnType, inDict, hl] at hcur
      have h := @arrValBegin_outcome v s
      show MembersAt v root (arrValBegin v s)
      generalize arrValBegin v s = t at h
      cases h with
      | @value val t hlt hitem hval =>
          have hm' : MembersOk v root { s with curPos := s.curPos + 1, val } := by
            refine ⟨hm.nodup, ?_, hm.toplevel⟩
            have hmem := hm.mem
            rw [openCtns_eq_path hopening] at hmem
            rw [openCtns_eq_path (by rw [EncodeState.opening, hl])]
            exact hmem
          exact hval.membersAt hpos (by rw [EncodeState.opening, hl]) hm'
      | badItem => trivial
      | done hge hend =>
          refine hend.membersAt hpos hopening ?_ hm
          rw [HeapObj.isList_eq_of_ctnType hcur, Bool.not_not]
          generalize s.heap s.curObj = ctn at hcur
          cases ctn with
          | scalar => cases hcur
          | dict => cases ht : s.isTuple <;> rw [ht] at hcur <;> cases hcur
          | list | tuple => rfl
  | ctnLocked inObj listSize =>
      have hopening : s.opening = [s.val] := by rw [EncodeState.opening, hl]
      refine enterCtn_members (hdepth (by simp [hl]) (by simp [hl])) hm ?_
      rw [openCtns, hopening]
      exact List.Subset.refl _
  | arrayStruct inObj =>
      have hmem := hm.mem
      rw [openCtns_eq_path (by rw [EncodeState.opening, hl])] at hmem
      dsimp only
      rw [processArray]
      generalize uBufApdNdarray v s.depth inObj s.out s.ucs (s.answers s.lookups) = r
      obtain ⟨written, out⟩ := r
      cases written with
      | false => exact fail_members
      | true =>
          refine ⟨hm.nodup, ?_, hm.toplevel⟩
          rw [openCtns_eq_path (@opening_valueLabel _ inObj rfl)]
          exact hmem

end EncodeMachine

end SsrJson.Encode
