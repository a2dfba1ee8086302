import SsrJson.Encode.ItemRead
import SsrJson.Encode.LockHeld
import SsrJson.Encode.OutputOwned

/-!
# Locks and the set that records them

In a call of the locking build whose insertions into the path set succeed, the set records the
lists and dicts on the path, each once, and the call holds their locks and no others. So a list or
dict that is met again is found in the set, and every end of the call unlocks what is locked. An
insertion that fails is not noticed: the container is locked and not recorded.
-/

namespace SsrJson.Encode

/-- The members of the path set are the lists and dicts among some containers, none of which is
empty. -/
structure Records (heap : Heap) (members ctns : List ObjId) : Prop where
  perm : members.Perm (lockables heap ctns)
  nodup : (lockables heap ctns).Nodup
  opens : ∀ obj ∈ ctns, ∃ bracket size, Opens (heap obj) bracket size

namespace Records

variable {heap : Heap} {members ctns : List ObjId} {obj : ObjId}

/-- A list or a dict that is recorded. -/
theorem insert (h : Records heap members ctns) (hnew : obj ∉ members)
    (hlock : (heap obj).lockable = true)
    (hopens : ∃ bracket size, Opens (heap obj) bracket size) :
    Records heap (obj :: members) (obj :: ctns) := by
  have hcons : lockables heap (obj :: ctns) = obj :: lockables heap ctns :=
    List.filter_cons_of_pos hlock
  refine ⟨?_, ?_, ?_⟩
  · rw [hcons]
    exact h.perm.cons obj
  · rw [hcons]
    exact List.nodup_cons.mpr ⟨fun hmem => hnew (h.perm.mem_iff.mpr hmem), h.nodup⟩
  · intro ctn hctn
    rcases List.mem_cons.mp hctn with rfl | hctn
    · exact hopens
    · exact h.opens ctn hctn

/-- A tuple is not recorded. -/
theorem cons (h : Records heap members ctns) (hfree : (heap obj).lockable = false)
    (hopens : ∃ bracket size, Opens (heap obj) bracket size) :
    Records heap members (obj :: ctns) := by
  have hcons : lockables heap (obj :: ctns) = lockables heap ctns :=
    List.filter_cons_of_neg (by simp [hfree])
  refine ⟨hcons ▸ h.perm, hcons ▸ h.nodup, ?_⟩
  intro ctn hctn
  rcases List.mem_cons.mp hctn with rfl | hctn
  · exact hopens
  · exact h.opens ctn hctn

/-- A list or a dict that ends is deleted. -/
theorem erase (h : Records heap members (obj :: ctns)) (hlock : (heap obj).lockable = true) :
    Records heap (members.erase obj) ctns := by
  have hcons : lockables heap (obj :: ctns) = obj :: lockables heap ctns :=
    List.filter_cons_of_pos hlock
  refine ⟨?_, ?_, fun ctn hctn => h.opens ctn (List.mem_cons_of_mem _ hctn)⟩
  · have hperm := h.perm.erase obj
    rwa [hcons, List.erase_cons_head] at hperm
  · have hnodup := h.nodup
    rw [hcons] at hnodup
    exact hnodup.of_cons

/-- A tuple ends. -/
theorem tail (h : Records heap members (obj :: ctns)) (hfree : (heap obj).lockable = false) :
    Records heap members ctns := by
  have hcons : lockables heap (obj :: ctns) = lockables heap ctns :=
    List.filter_cons_of_neg (by simp [hfree])
  exact ⟨hcons ▸ h.perm, hcons ▸ h.nodup, fun ctn hctn => h.opens ctn (List.mem_cons_of_mem _ hctn)⟩

end Records

/-- The locks that are held are those of the members of the set. -/
def EncodeState.Balanced (s : EncodeState) : Prop :=
  ∀ obj, s.locks obj = (s.set.members.count obj : Nat)

/-- What is recorded is what is locked. -/
theorem Records.balanced {s : EncodeState} {ctns : List ObjId}
    (h : Records s.heap s.set.members ctns) (hheld : s.Holds ctns) : s.Balanced := by
  intro obj
  rw [hheld obj, h.perm.count_eq]

/-- No lock is held. -/
def EncodeState.Unlocked (s : EncodeState) : Prop := ∀ obj, s.locks obj = 0

/-- The root that is unlocked when the call succeeds. -/
def lockedRoot (heap : Heap) (root : ObjId) : Option ObjId :=
  if (heap root).lockable then some root else none

namespace EncodeMachine

open EncodeState

variable {v : Variant} {s : EncodeState} {kept : Set ObjId} {root : ObjId}

/-- What the set records at a transition, and that nothing is locked at an end. -/
def RecordedAt (root : ObjId) : EncodeTransition → Prop
  | .goto s | .lookup s | .lock _ s =>
    Records s.heap s.set.members s.openCtns ∧
      s.toplevel = if s.label = .start then none else lockedRoot s.heap root
  | .ret s | .retNull s | .nullSet s => s.Unlocked
  | .undefinedFlag _ => False
  | .badItem _ => True

/-- The step asks the set for room for a container, and there is none. -/
def InsertFails (v : Variant) (s : EncodeState) : Prop :=
  v.locking = true ∧
    ((∃ inObj val bracket size, valueAt s = some (inObj, val) ∧ (s.heap val).lockable = true ∧
      Opens (s.heap val) bracket size ∧ s.out.growth s.out.growths = false ∧
      s.set.insert s.set.inserts = true) ∨
    (s.label = .start ∧ (s.heap s.curObj).lockable = true ∧
      (∃ bracket size, Opens (s.heap s.curObj) bracket size) ∧
      s.out.growth s.out.growths = false ∧ s.out.growth (s.out.growths + 1) = false ∧
      s.set.insert s.set.inserts = false ∧ s.set.insert (s.set.inserts + 1) = false ∧
      s.set.insert (s.set.inserts + 2) = true))

/-! ## Ends -/

theorem foldl_unlock_locks (members : List ObjId) (s : EncodeState) (obj : ObjId) :
    (members.foldl EncodeState.unlock s).locks obj = s.locks obj - (members.count obj : Nat) := by
  induction members generalizing s with
  | nil => simp
  | cons member members ih =>
      rw [List.foldl_cons, ih, List.count_cons]
      show Function.update s.locks member (s.locks member - 1) obj - _ = _
      by_cases heq : obj = member
      · subst heq
        rw [Function.update_self]
        simp
        omega
      · rw [Function.update_of_ne heq]
        simp [Ne.symm heq]

/-- A call that fails unlocks what is recorded. -/
theorem fail_recorded (hv : v.locking = true) (h : s.Balanced) : RecordedAt root (fail v s) := by
  rw [fail, if_pos hv]
  intro obj
  show (s.set.members.foldl EncodeState.unlock s).locks obj = 0
  rw [foldl_unlock_locks, h obj]
  omega

/-- A call that succeeds unlocks the root, which is all that is locked then. -/
theorem success_recorded (hv : v.locking = true) (h : s.Balanced)
    (htop : s.toplevel = none ∧ s.Unlocked ∨
      ∃ obj, s.toplevel = some obj ∧ s.Holds [obj] ∧ (s.heap obj).lockable = true) :
    RecordedAt root (success v s) := by
  rw [success]
  split
  · exact fail_recorded hv h
  · rw [if_pos hv]
    rcases htop with ⟨htop, hfree⟩ | ⟨obj, htop, hheld, hlock⟩
    · rw [htop]
      exact hfree
    · rw [htop]
      exact fun o => (hheld.unlock hlock) o

/-! ## Steps -/

theorem enterCtn_recorded (hv : v.locking = true) (inObj : Bool) (listSize : Nat)
    (hdepth : s.depth ≠ 0) (hrec : Records s.heap s.set.members (s.val :: s.path))
    (htop : s.toplevel = lockedRoot s.heap root) (hheld : s.Holds (s.val :: s.path)) :
    RecordedAt root (enterCtn v inObj s listSize) := by
  have hset : (s.entered inObj listSize).set = s.set ∧
      (s.entered inObj listSize).toplevel = s.toplevel ∧
      (s.entered inObj listSize).label ≠ .start := by
    rw [EncodeState.entered]
    cases s.heap s.val <;> exact ⟨rfl, rfl, EncodeLabel.noConfusion⟩
  rw [enterCtn_eq]
  split
  · exact fail_recorded hv (hrec.balanced hheld)
  · refine ⟨?_, ?_⟩
    · rw [entered_openCtns _ _ hdepth, entered_heap, hset.1]
      exact hrec
    · rw [if_neg hset.2.2, hset.2.1, entered_heap]
      exact htop

theorem ValOutcome.recordedAt {inObj : Bool} {t : EncodeTransition}
    (h : ValOutcome v inObj s t) (hv : v.locking = true) (hdepth : s.depth ≠ 0)
    (hlabel : s.label ≠ .start) (hrec : Records s.heap s.set.members s.path)
    (htop : s.toplevel = lockedRoot s.heap root) (hheld : s.Holds s.path)
    (hinsert : ∀ bracket size, Opens (s.heap s.val) bracket size →
      (s.heap s.val).lockable = true → s.out.growth s.out.growths = false →
      s.set.insert s.set.inserts ≠ true)
    (hint : ¬ (v.toBytes = false ∧ s.out.growth s.out.growths = true ∧
      WritableInt (s.heap s.val))) : RecordedAt root t := by
  have htop' : s.toplevel = if s.label = .start then none else lockedRoot s.heap root := by
    rw [if_neg hlabel, htop]
  cases h with
  | written ucs lookups hleaf hw htuple =>
      refine ⟨?_, ?_⟩
      · rw [openCtns_eq_path (opening_valueLabel rfl)]
        exact hrec
      · rw [if_neg (valueLabel_ne inObj)]
        exact htop
  | refused => exact fail_recorded hv (hrec.balanced hheld)
  | unassigned hbytes hval hgrowth hr => exact hint ⟨hbytes, hgrowth, hval⟩
  | lookup hval => exact ⟨hrec, htop⟩
  | @circular out set bracket listSize hopens hw hgranted hv hlock hput =>
      obtain ⟨-, -, h | h | h⟩ := PathSet.khPut_cases hput
      · cases h.1
      · refine fail_recorded hv fun obj => ?_
        show s.locks obj = (set.members.count obj : Nat)
        rw [h.2.2.2]
        exact hrec.balanced hheld obj
      · cases h.1
  | @lock out set ret bracket listSize hopens hw hgranted hv hlock hput hret =>
      obtain ⟨-, -, h | h | h⟩ := PathSet.khPut_cases hput
      · exact absurd h.2.1 (hinsert _ _ hopens hlock hgranted)
      · exact absurd h.1 hret
      · refine ⟨?_, htop⟩
        show Records s.heap set.members (s.val :: s.path)
        rw [h.2.2.2]
        exact hrec.insert h.2.2.1 hlock ⟨_, _, hopens⟩
  | enter hopens hw hgranted hfree =>
      rcases hfree with hfree | hfree
      · rw [hv] at hfree
        cases hfree
      · exact enterCtn_recorded hv _ _ hdepth (hrec.cons hfree ⟨_, _, hopens⟩) htop
          ((hheld.congr rfl rfl).cons hfree)

theorem EndOutcome.recordedAt {bracket : OutToken} {locked : Bool} {t : EncodeTransition}
    (h : EndOutcome v s bracket locked t) (hv : v.locking = true) (hdepth : s.depth ≠ 0)
    (hlocked : locked = (s.heap s.curObj).lockable)
    (hrec : Records s.heap s.set.members s.path) (htop : s.toplevel = lockedRoot s.heap root)
    (hroot : ∀ obj ∈ s.path.getLast?, obj = root) (hheld : s.Holds s.path) :
    RecordedAt root t := by
  have hbal := hrec.balanced hheld
  cases h with
  | refused => exact fail_recorded hv hbal
  | @root out hw hzero =>
      refine success_recorded hv hbal ?_
      have hone : s.path = [s.curObj] := by
        obtain hd : s.depth = 1 := by omega
        rw [path_of_pos hdepth, hd]
        rfl
      have hcur : s.curObj = root := hroot _ (by rw [hone]; rfl)
      rw [hone] at hheld
      show s.toplevel = none ∧ s.Unlocked ∨ _
      cases hlock : (s.heap root).lockable with
      | true =>
          right
          refine ⟨root, ?_, ?_, hlock⟩
          · show s.toplevel = some root
            rw [htop, lockedRoot, if_pos hlock]
          · rw [hcur] at hheld
            exact hheld.congr rfl rfl
      | false =>
          left
          refine ⟨by rw [htop, lockedRoot, hlock]; rfl, fun obj => ?_⟩
          rw [hheld.tail (by rwa [hcur]) obj]
          rfl
  | @inner out hw hinner =>
      rw [path_of_pos hdepth] at hrec
      have hresumed : ∀ s' : EncodeState, s'.depth = s.depth - 1 → s'.stack = s.stack →
          s'.heap = s.heap → s'.toplevel = s.toplevel →
          Records s.heap s'.set.members (below s.stack s.depth) →
          RecordedAt root (.goto s'.resumed) := by
        intro s' hd hstack hheap htoplevel hrec'
        obtain ⟨hh, -, -, -, -, hstart, -, -⟩ := @resumed_fields s'
        have hset : s'.resumed.set = s'.set ∧ s'.resumed.toplevel = s'.toplevel := by
          rw [EncodeState.resumed]
          cases (s'.stack s'.depth).type <;> exact ⟨rfl, rfl⟩
        refine ⟨?_, ?_⟩
        · rw [resumed_openCtns hinner hd hstack, path_of_pos hdepth, List.tail_cons, hh, hheap,
            hset.1]
          exact hrec'
        · rw [if_neg hstart, hset.2, hh, hheap, htoplevel]
          exact htop
      rw [leave]
      split
      · next hlock =>
          refine hresumed _ rfl rfl rfl rfl ?_
          exact hrec.erase (by rw [← hlocked]; exact hlock.2)
      · next hlock =>
          refine hresumed _ rfl rfl rfl rfl ?_
          exact hrec.tail (by rw [← hlocked]; simpa [hv] using hlock)

theorem PairOutcome.recordedAt {t : EncodeTransition} (h : PairOutcome v s t)
    (hv : v.locking = true) (hdepth : s.depth ≠ 0)
    (hdict : (s.heap s.curObj).ctnType = some .dict)
    (hrec : Records s.heap s.set.members s.path) (htop : s.toplevel = lockedRoot s.heap root)
    (hroot : ∀ obj ∈ s.path.getLast?, obj = root) (hheld : s.Holds s.path) :
    RecordedAt root t := by
  cases h with
  | key ucs hnext hkey hw => exact ⟨hrec, htop⟩
  | refused => exact fail_recorded hv (hrec.balanced hheld)
  | done hnext hend =>
      exact hend.recordedAt hv hdepth (HeapObj.lockable_iff_ctnType.mpr (.inr hdict)).symm hrec
        htop hroot hheld

theorem StartOutcome.recordedAt {t : EncodeTransition} (h : StartOutcome v s t)
    (hv : v.locking = true) (hlabel : s.label = .start) (hdepth : s.depth = 0)
    (hroot : s.curObj = root) (hrec : Records s.heap s.set.members [])
    (htop : s.toplevel = none) (hheld : s.Holds []) (hinsert : ¬ InsertFails v s) :
    RecordedAt root t := by
  have hfree : s.Unlocked := fun obj => hheld obj
  have hnone : s.set.members = [] := hrec.perm.eq_nil
  have hbal : ∀ {s' : EncodeState}, s'.locks = s.locks → s'.set.members = s.set.members →
      s'.Balanced := by
    intro s' hlocks hmembers obj
    rw [hlocks, hmembers]
    exact hrec.balanced hheld obj
  cases h with
  | nullSet | noSet => exact hfree
  | refused hset hout => exact fail_recorded hv (hbal rfl hset)
  | unsupported hset hout => exact fail_recorded hv (hbal rfl hset)
  | empty listSize hset hout hobj hleaf =>
      exact success_recorded hv (hbal rfl hset) (.inl ⟨htop, hfree⟩)
  | @tuple set out items hset hout hobj hne =>
      have hlock : (s.heap s.curObj).lockable = false := by rw [hobj]; rfl
      refine ⟨?_, ?_⟩
      · show Records s.heap set.members [s.curObj]
        rw [hset]
        exact hrec.cons hlock ⟨.openArr, items.length, hobj ▸ Opens.tuple hne⟩
      · show s.toplevel = lockedRoot s.heap root
        rw [htop, lockedRoot, ← hroot, hlock]
        rfl
  | @lock listSize set set' out bracket ret size hset hup hout hv hlock hopens hsize hput =>
      have hpath : (if s.depth = 0 then [] else s.curObj :: below s.stack s.depth) = [] :=
        if_pos hdepth
      obtain ⟨-, -, h | h | h⟩ := PathSet.khPut_cases hput
      · refine absurd ⟨hv, .inr ⟨hlabel, hlock, ⟨_, _, hopens⟩, hup.initUBuf, hup.ctnStack,
          hup.khInit, hup.khResize, ?_⟩⟩ hinsert
        rw [← hup.inserts, ← hup.insert]
        exact h.2.1
      · rw [hset, hnone] at h
        cases h.2.2.1
      · refine ⟨?_, ?_⟩
        · show Records s.heap set'.members ([s.curObj] ++ if s.depth = 0 then [] else _)
          rw [hpath, h.2.2.2, hset]
          exact hrec.insert (hset ▸ h.2.2.1) hlock ⟨_, _, hopens⟩
        · show some s.curObj = lockedRoot s.heap root
          rw [lockedRoot, ← hroot, if_pos hlock]
  | unlocked listSize hset hout hfree' =>
      rw [hv] at hfree'
      cases hfree'

/-- A step records what it locks, unless an insertion or the growth for an integer fails. -/
theorem step_recorded (hv : v.locking = true) (hp : PathOk kept root s)
    (hheld : s.Holds s.openCtns) (hrec : Records s.heap s.set.members s.openCtns)
    (htop : s.toplevel = if s.label = .start then none else lockedRoot s.heap root)
    (hinsert : ¬ InsertFails v s) (hint : ¬ IntegerGrowthFails v s) :
    RecordedAt root (step v s) := by
  have hdepth : s.label ≠ .start → s.label ≠ .rootLocked → s.depth ≠ 0 := by
    intro h1 h2 hzero
    rcases hp.depth_zero.mp hzero with hl | hl
    · exact h1 hl
    · exact h2 hl
  have hpath : s.opening = [] → s.Holds s.path ∧ Records s.heap s.set.members s.path :=
    fun h => openCtns_eq_path h ▸ ⟨hheld, hrec⟩
  have hvalue : ∀ inObj val, valueAt s = some (inObj, val) →
      (∀ bracket size, Opens (s.heap val) bracket size → (s.heap val).lockable = true →
        s.out.growth s.out.growths = false → s.set.insert s.set.inserts ≠ true) ∧
      ¬ (v.toBytes = false ∧ s.out.growth s.out.growths = true ∧ WritableInt (s.heap val)) := by
    intro inObj val hval
    refine ⟨fun bracket size hopens hlock hgranted hroom => hinsert ⟨hv, .inl ⟨inObj, val, bracket,
      size, hval, hlock, hopens, hgranted, hroom⟩⟩, ?_⟩
    rintro ⟨hbytes, hgrowth, hwritable⟩
    exact hint ⟨hbytes, hgrowth, inObj, val, hval, hwritable⟩
  rw [step]
  cases hl : s.label with
  | start =>
      have hzero := hp.depth_zero.mpr (.inl hl)
      obtain ⟨hheld', hrec'⟩ := hpath (by rw [EncodeState.opening, hl])
      rw [path, if_pos hzero] at hheld' hrec'
      rw [if_pos hl] at htop
      exact start_outcome.recordedAt hv hl hzero (hp.starts hzero) hrec' htop hheld' hinsert
  | rootLocked =>
      have hzero := hp.depth_zero.mpr (.inr hl)
      have hopen : s.openCtns = [s.curObj] := by
        rw [openCtns, EncodeState.opening, hl, path, if_pos hzero, List.append_nil]
      rw [if_neg (by simp [hl])] at htop
      dsimp only
      rw [rootLocked_eq]
      rw [hopen] at hrec
      rw [EncodeState.rooted]
      split <;> exact ⟨hrec, htop⟩
  | dictPairBegin =>
      have hd := hdepth (by simp [hl]) (by simp [hl])
      have hcur := hp.cur hd
      rw [getEncodeCtnType, inDict, hl] at hcur
      obtain ⟨hheld', hrec'⟩ := hpath (by rw [EncodeState.opening, hl])
      rw [if_neg (by simp [hl])] at htop
      exact dictPairBegin_outcome.recordedAt hv hd hcur hrec' htop (hp.rooted_path hd) hheld'
  | dictKeyDone =>
      obtain ⟨hheld', hrec'⟩ := hpath (by rw [EncodeState.opening, hl])
      obtain ⟨hins, hint'⟩ := hvalue true s.val (by rw [valueAt, hl])
      rw [if_neg (by simp [hl])] at htop
      exact encodeProcessVal_outcome.recordedAt hv (hdepth (by simp [hl]) (by simp [hl]))
        (by simp [hl]) hrec' htop hheld' hins hint'
  | arrValBegin =>
      have hd := hdepth (by simp [hl]) (by simp [hl])
      have hcur := hp.cur hd
      rw [getEncodeCtnType, inDict, hl] at hcur
      obtain ⟨hheld', hrec'⟩ := hpath (by rw [EncodeState.opening, hl])
      rw [if_neg (by simp [hl])] at htop
      have h := @arrValBegin_outcome v s
      show RecordedAt root (arrValBegin v s)
      generalize arrValBegin v s = t at h
      cases h with
      | value hpos hitem hval =>
          obtain ⟨hins, hint'⟩ := hvalue false _ (by rw [valueAt, hl]; simp only [hpos, hitem]; rfl)
          exact hval.recordedAt hv hd (by simp [hl]) hrec' htop hheld' hins hint'
      | badItem => trivial
      | done hpos hend =>
          refine hend.recordedAt hv hd ?_ hrec' htop (hp.rooted_path hd) hheld'
          generalize s.heap s.curObj = obj at hcur
          cases ht : s.isTuple <;> rw [ht] at hcur <;> cases obj <;> cases hcur <;> rfl
  | ctnLocked inObj listSize =>
      have hopen : s.openCtns = s.val :: s.path := by rw [openCtns, EncodeState.opening, hl]; rfl
      rw [hopen] at hrec hheld
      rw [if_neg (by simp [hl])] at htop
      exact enterCtn_recorded hv _ _ (hdepth (by simp [hl]) (by simp [hl])) hrec htop hheld
  | arrayStruct inObj =>
      obtain ⟨hheld', hrec'⟩ := hpath (by rw [EncodeState.opening, hl])
      rw [if_neg (by simp [hl])] at htop
      dsimp only
      rw [processArray]
      generalize uBufApdNdarray v s.depth inObj s.out s.ucs (s.answers s.lookups) = r
      obtain ⟨written, out⟩ := r
      cases written with
      | false => exact fail_recorded hv (hrec'.balanced hheld')
      | true =>
          refine ⟨?_, ?_⟩
          · rw [openCtns_eq_path (opening_valueLabel rfl)]
            exact hrec'
          · show s.toplevel = if valueLabel inObj = .start then none else _
            rw [if_neg (valueLabel_ne inObj)]
            exact htop

/-! ## Circular references -/

/-- The call ended with the exception for a circular reference. -/
def EndsCircular (t : EncodeTransition) : Prop :=
  ∃ s, t = .retNull s ∧ s.out.error = some .circular

/-- The step comes to a list or a dict that is on the path, and there is room for its bracket. -/
def MeetsAgain (s : EncodeState) : Prop :=
  s.out.growth s.out.growths = false ∧
    ∃ inObj val, valueAt s = some (inObj, val) ∧ (s.heap val).lockable = true ∧ val ∈ s.openCtns

theorem fail_endsCircular : EndsCircular (fail v s) ↔ s.out.error = some .circular := by
  have hfree : ∀ out : EncodeOut, out.free.error = out.error := by
    intro out
    rw [EncodeOut.free]
    split <;> rfl
  rw [fail]
  constructor
  · rintro ⟨s', hs', herror⟩
    cases hs'
    split at herror
    · rw [hfree] at herror
      rwa [foldl_unlock_out] at herror
    · rwa [hfree] at herror
  · intro herror
    refine ⟨_, rfl, ?_⟩
    split
    · show (EncodeOut.free _).error = _
      rw [hfree]
      rwa [foldl_unlock_out]
    · show (EncodeOut.free _).error = _
      rwa [hfree]

theorem refused_not_circular {out : EncodeOut} {s' : EncodeState} (h : out.Refused s'.out) :
    ¬ EndsCircular (fail v s') := by
  obtain ⟨error, herror, hne⟩ := h.error
  rw [fail_endsCircular, herror]
  rintro ⟨⟩
  exact hne rfl

theorem success_not_circular : ¬ EndsCircular (success v s) := by
  have h := uBufReserve_attempt s.out.dropLast
  rw [success]
  generalize s.out.dropLast.uBufReserve = r at h
  cases h with
  | failed h => exact refused_not_circular h
  | done h =>
      dsimp only
      split <;> rintro ⟨s', hs', -⟩ <;> cases hs'

theorem enterCtn_not_circular (inObj : Bool) (listSize : Nat) :
    ¬ EndsCircular (enterCtn v inObj s listSize) := by
  rw [enterCtn_eq]
  split
  · rw [fail_endsCircular]
    rintro ⟨⟩
  · rintro ⟨s', hs', -⟩
    cases hs'

/-- Of what can happen to a value, only a container that is found in the set is circular. -/
theorem ValOutcome.of_endsCircular {inObj : Bool} {t : EncodeTransition}
    (h : ValOutcome v inObj s t) (hcirc : EndsCircular t) :
    s.out.growth s.out.growths = false ∧ (s.heap s.val).lockable = true ∧
      s.val ∈ s.set.members := by
  cases h with
  | written | unassigned | lookup | lock =>
      obtain ⟨s', hs', -⟩ := hcirc
      cases hs'
  | refused lookups hr => exact absurd hcirc (refused_not_circular hr)
  | circular hopens hw hgranted hv hlock hput =>
      obtain ⟨-, -, h | h | h⟩ := PathSet.khPut_cases hput
      · cases h.1
      · exact ⟨hgranted, hlock, h.2.2.1⟩
      · cases h.1
  | enter => exact absurd hcirc (enterCtn_not_circular _ _)

theorem EndOutcome.not_circular {bracket : OutToken} {locked : Bool} {t : EncodeTransition}
    (h : EndOutcome v s bracket locked t) : ¬ EndsCircular t := by
  cases h with
  | refused hr => exact refused_not_circular hr
  | root => exact success_not_circular
  | inner =>
      rintro ⟨s', hs', -⟩
      cases hs'

/-- A step that raises the exception came to a list or dict on the path. -/
theorem MeetsAgain.of_endsCircular
    (hrec : Records s.heap s.set.members s.openCtns) (hcirc : EndsCircular (step v s)) :
    MeetsAgain s := by
  have hmet : ∀ inObj val, valueAt s = some (inObj, val) → s.out.growth s.out.growths = false ∧
      (s.heap val).lockable = true ∧ val ∈ s.set.members → MeetsAgain s := by
    rintro inObj val hval ⟨hgranted, hlock, hmem⟩
    have hopen := (List.mem_filter.mp (hrec.perm.mem_iff.mp hmem)).1
    exact ⟨hgranted, inObj, val, hval, hlock, hopen⟩
  rw [step] at hcirc
  cases hl : s.label with
  | start =>
      rw [hl] at hcirc
      have h := @start_outcome v s
      change EndsCircular (start v s) at hcirc
      generalize start v s = t at h hcirc
      cases h with
      | nullSet | tuple | lock | unlocked =>
          obtain ⟨s', hs', -⟩ := hcirc
          cases hs'
      | noSet =>
          obtain ⟨s', hs', herror⟩ := hcirc
          cases hs'
          cases herror
      | refused hset hout =>
          rw [fail_endsCircular] at hcirc
          have herror := hout.error.symm.trans hcirc
          cases herror
      | unsupported =>
          rw [fail_endsCircular] at hcirc
          cases hcirc
      | empty => exact absurd hcirc success_not_circular
  | rootLocked =>
      rw [hl] at hcirc
      change EndsCircular (rootLocked s) at hcirc
      rw [rootLocked_eq] at hcirc
      obtain ⟨s', hs', -⟩ := hcirc
      cases hs'
  | dictPairBegin =>
      rw [hl] at hcirc
      have h := @dictPairBegin_outcome v s
      change EndsCircular (dictPairBegin v s) at hcirc
      generalize dictPairBegin v s = t at h hcirc
      cases h with
      | key =>
          obtain ⟨s', hs', -⟩ := hcirc
          cases hs'
      | refused hnext hr => exact absurd hcirc (refused_not_circular hr)
      | done hnext hend => exact absurd hcirc hend.not_circular
  | dictKeyDone =>
      rw [hl] at hcirc
      exact hmet true s.val (by rw [valueAt, hl])
        ((@encodeProcessVal_outcome v true s).of_endsCircular hcirc)
  | arrValBegin =>
      rw [hl] at hcirc
      have h := @arrValBegin_outcome v s
      change EndsCircular (arrValBegin v s) at hcirc
      generalize arrValBegin v s = t at h hcirc
      cases h with
      | value hpos hitem hval =>
          exact hmet false _ (by rw [valueAt, hl]; simp only [hpos, hitem]; rfl)
            (hval.of_endsCircular hcirc)
      | badItem =>
          obtain ⟨s', hs', -⟩ := hcirc
          cases hs'
      | done hpos hend => exact absurd hcirc hend.not_circular
  | ctnLocked inObj listSize =>
      rw [hl] at hcirc
      exact absurd hcirc (enterCtn_not_circular _ _)
  | arrayStruct inObj =>
      obtain ⟨tokens, -, h⟩ :=
        uBufApdNdarray_attempt s.out v s.depth inObj s.ucs (s.answers s.lookups)
      rw [hl] at hcirc
      change EndsCircular (processArray v inObj s) at hcirc
      rw [processArray] at hcirc
      generalize uBufApdNdarray v s.depth inObj s.out s.ucs (s.answers s.lookups) = r at h hcirc
      cases h with
      | failed hr => exact absurd hcirc (refused_not_circular hr)
      | done =>
          obtain ⟨s', hs', -⟩ := hcirc
          cases hs'

/-- A list or a dict with items, behind a bracket there is room for. -/
theorem encodeProcessVal_lockable {inObj : Bool} {bracket : OutToken} {listSize : Nat}
    (hopens : Opens (s.heap s.val) bracket listSize) (hlock : (s.heap s.val).lockable = true)
    (hgranted : s.out.growth s.out.growths = false) :
    ∃ out, encodeProcessVal v inObj s = lockThenEnter v inObj { s with out } listSize := by
  have hfst := uBufApd_fst s.out v s.depth inObj [bracket]
  rw [hgranted, Bool.not_false] at hfst
  rw [encodeProcessVal]
  generalize s.heap s.val = obj at hopens hlock
  cases hopens with
  | tuple => cases hlock
  | list hne =>
      dsimp only
      rw [processList, if_neg hne, uBufApdArrBegin]
      generalize uBufApd v s.depth inObj s.out [.openArr] = r at hfst
      obtain ⟨written, out⟩ := r
      cases hfst
      exact ⟨out, rfl⟩
  | dict hne =>
      dsimp only
      rw [processDict, if_neg hne, uBufApdObjBegin]
      generalize uBufApd v s.depth inObj s.out [.openObj] = r at hfst
      obtain ⟨written, out⟩ := r
      cases hfst
      exact ⟨out, rfl⟩

/-- A list or dict on the path that is met again is refused, if the set has room for a request. -/
theorem MeetsAgain.endsCircular (hv : v.locking = true)
    (hrec : Records s.heap s.set.members s.openCtns) (h : MeetsAgain s)
    (hinsert : ¬ InsertFails v s) : EndsCircular (step v s) := by
  obtain ⟨hgranted, inObj, val, hval, hlock, hopen⟩ := h
  obtain ⟨bracket, listSize, hopens⟩ := hrec.opens val hopen
  have hmem : val ∈ s.set.members :=
    hrec.perm.mem_iff.mpr (List.mem_filter.mpr ⟨hopen, hlock⟩)
  obtain ⟨pos, hstep⟩ := @step_valueAt v s inObj val hval
  obtain ⟨out, henter⟩ := @encodeProcessVal_lockable v { s with curPos := pos, val } inObj bracket
    listSize hopens hlock hgranted
  have hroom : s.set.insert s.set.inserts = false := by
    by_contra hfails
    exact hinsert ⟨hv, .inl ⟨inObj, val, bracket, listSize, hval, hlock, hopens, hgranted,
      by simpa using hfails⟩⟩
  rw [hstep, henter, lockThenEnter, if_pos hv]
  simp only [PathSet.khPut, PathSet.request, hroom, Bool.not_false, hmem, if_true]
  exact fail_endsCircular.mpr rfl

/-! ## Insertions that fail -/

/-- A list or a dict is missing among the members. -/
theorem not_records_cons {heap : Heap} {members ctns : List ObjId} {obj : ObjId}
    (h : Records heap members ctns) (hlock : (heap obj).lockable = true) :
    ¬ Records heap members (obj :: ctns) := by
  intro hcons
  have hlist : lockables heap (obj :: ctns) = obj :: lockables heap ctns :=
    List.filter_cons_of_pos hlock
  have hlength := hcons.perm.length_eq
  rw [hlist, List.length_cons, h.perm.length_eq] at hlength
  omega

/-- The lock of the root is waited for when everything in front of it is granted. -/
theorem start_lock (hv : v.locking = true) (hlock : (s.heap s.curObj).lockable = true)
    {bracket : OutToken} {size : Nat} (hopens : Opens (s.heap s.curObj) bracket size)
    (hinit : s.out.growth s.out.growths = false)
    (hstack : s.out.growth (s.out.growths + 1) = false)
    (hkh : s.set.insert s.set.inserts = false)
    (hresize : s.set.insert (s.set.inserts + 1) = false)
    (hroom : s.set.insert (s.set.inserts + 2) = true) :
    ∃ s', start v s = .lock s.curObj s' ∧ s'.set.members = s.set.members ∧ s'.heap = s.heap ∧
      s'.openCtns = s.curObj :: s.path := by
  have hgil : v.build ≠ .gil := by
    intro hbuild
    rw [Variant.locking, hbuild] at hv
    cases hv
  have hstart : start v s = startRoot v { s with
      set := { s.set with inserts := s.set.inserts + 2 }
      out := { s.out with head := true, allocs := s.out.allocs + 1,
                          growths := s.out.growths + 2 } } := by
    rw [start, if_pos hv]
    simp only [PathSet.request, hkh, hresize, Bool.not_false, startBuffers, EncodeOut.initUBuf,
      EncodeOut.uBufReserve, hinit, initEncodeCtnStack, if_neg hgil, hstack,
      Bool.false_eq_true, if_false]
  rw [hstart, startRoot]
  generalize hobj : s.heap s.curObj = obj at hopens hlock
  cases hopens with
  | tuple => cases hlock
  | list hne | dict hne =>
      dsimp only
      rw [if_neg hne, lockRoot, if_pos hv]
      simp only [PathSet.khPut, PathSet.request, hroom, Bool.not_true]
      exact ⟨_, rfl, rfl, rfl, rfl⟩

/-- A container whose insertion fails is waited for and not recorded. -/
theorem InsertFails.not_recorded (h : InsertFails v s)
    (hrec : Records s.heap s.set.members s.openCtns) :
    ∃ obj s', step v s = .lock obj s' ∧ ¬ Records s'.heap s'.set.members s'.openCtns := by
  obtain ⟨hv, h | h⟩ := h
  · obtain ⟨inObj, val, bracket, listSize, hval, hlock, hopens, hgranted, hroom⟩ := h
    obtain ⟨pos, hstep⟩ := @step_valueAt v s inObj val hval
    obtain ⟨out, henter⟩ := @encodeProcessVal_lockable v { s with curPos := pos, val } inObj bracket
      listSize hopens hlock hgranted
    have hopening : s.opening = [] := by
      rw [valueAt] at hval
      split at hval <;> next hlabel => first | rw [EncodeState.opening, hlabel] | cases hval
    rw [openCtns_eq_path hopening] at hrec
    rw [hstep, henter, lockThenEnter, if_pos hv]
    simp only [PathSet.khPut, PathSet.request, hroom, Bool.not_true]
    exact ⟨val, _, rfl, not_records_cons hrec hlock⟩
  · obtain ⟨hl, hlock, ⟨bracket, size, hopens⟩, hinit, hstack, hkh, hresize, hroom⟩ := h
    obtain ⟨s', hs', hmembers, hheap, hopen⟩ :=
      start_lock hv hlock hopens hinit hstack hkh hresize hroom
    have hstep : step v s = .lock s.curObj s' := by
      rw [step, hl]
      exact hs'
    rw [openCtns_eq_path (by rw [EncodeState.opening, hl])] at hrec
    refine ⟨s.curObj, s', hstep, ?_⟩
    rw [hopen, hmembers, hheap]
    exact not_records_cons hrec hlock

/-! ## Calls -/

/-- The locks that are held at a transition are those of the lists and dicts on the path from the
root, which the set records once each; at an end none is held, and no other transition is
reached. -/
def LocksMatch (root : ObjId) : EncodeTransition → Prop
  | .goto s | .lookup s =>
    PathOk ∅ root s ∧ s.Holds s.openCtns ∧ Records s.heap s.set.members s.openCtns
  | .lock obj s =>
    PathOk ∅ root s ∧ s.opening = [obj] ∧ s.Holds s.path ∧
      Records s.heap s.set.members s.openCtns
  | .ret s | .retNull s | .nullSet s => s.Unlocked
  | .undefinedFlag _ | .badItem _ => False

/-- Locks, path and set agree in all of a call, and the exception for a circular reference is
raised exactly where a list or a dict of the path is met again. -/
structure LockProtocol (v : Variant) (call : EncodeCall) : Prop where
  locks : ∀ t, Reaches v call t → LocksMatch call.obj t
  circular : ∀ s, Reaches v call (.goto s) → (EndsCircular (step v s) ↔ MeetsAgain s)

/-- All that is known of a transition. -/
structure ProtocolAt (root : ObjId) (t : EncodeTransition) : Prop where
  path : PathAt ∅ root t
  held : HeldAt t
  size : SizeAt t
  recorded : RecordedAt root t

theorem ProtocolAt.locksMatch {t : EncodeTransition} (h : ProtocolAt root t) :
    LocksMatch root t := by
  cases t with
  | goto s | lookup s => exact ⟨h.path, h.held, h.recorded.1⟩
  | lock obj s => exact ⟨h.path.1, h.path.2, h.held, h.recorded.1⟩
  | ret s | retNull s | nullSet s => exact h.recorded
  | undefinedFlag s => exact h.recorded
  | badItem s => exact h.size

theorem initial_protocol (call : EncodeCall) : ProtocolAt call.obj (.goto (initial call)) where
  path := initial_path ∅ call
  held := fun _ => rfl
  size := fun _ _ _ hsized => nomatch hsized
  recorded := ⟨⟨.nil, .nil, fun _ hobj => nomatch hobj⟩, rfl⟩

theorem next_protocol {t t' : EncodeTransition} (hv : v.locking = true)
    (hnext : next v t = some t') (h : ProtocolAt root t)
    (hguard : ∀ s, t = .goto s → ¬ InsertFails v s ∧ ¬ IntegerGrowthFails v s) :
    ProtocolAt root t' := by
  refine ⟨next_path hnext h.path, next_held hv hnext h.path h.held, next_size hnext h.path h.size,
    ?_⟩
  cases t with
  | goto s =>
      cases hnext
      obtain ⟨hinsert, hint⟩ := hguard s rfl
      exact step_recorded hv h.path h.held h.recorded.1 h.recorded.2 hinsert hint
  | lock obj s =>
      cases hnext
      exact h.recorded
  | lookup s =>
      cases hnext
      exact h.recorded
  | ret | retNull | nullSet | undefinedFlag | badItem => cases hnext

/-- Locks, path and set agree in all of a call of the locking build if and only if no insertion
into the set fails that the call asks for, and no growth for an integer of `dumps`. -/
theorem lock_protocol_iff (toBytes : Bool) (indent : Nat) (call : EncodeCall) :
    LockProtocol ⟨toBytes, .locking, indent⟩ call ↔
      ∀ s, Reaches ⟨toBytes, .locking, indent⟩ call (.goto s) →
        ¬ InsertFails ⟨toBytes, .locking, indent⟩ s ∧
          ¬ IntegerGrowthFails ⟨toBytes, .locking, indent⟩ s := by
  have hv : (⟨toBytes, .locking, indent⟩ : Variant).locking = true := rfl
  generalize (⟨toBytes, .locking, indent⟩ : Variant) = v at hv
  constructor
  · intro h s hs
    have hstep : Reaches v call (step v s) := hs.tail rfl
    constructor
    · intro hinsert
      obtain ⟨obj, s', hs', hmissing⟩ := hinsert.not_recorded (h.locks _ hs).2.2
      have hmatch := h.locks _ hstep
      rw [hs'] at hmatch
      exact hmissing hmatch.2.2.2
    · intro hint
      obtain ⟨s', hs'⟩ := step_undefinedFlag hint
      have hmatch := h.locks _ hstep
      rw [hs'] at hmatch
      exact hmatch
  · intro h
    have hprotocol : ∀ t, Reaches v call t → ProtocolAt call.obj t := by
      intro t ht
      induction ht with
      | refl => exact initial_protocol call
      | tail hreach hnext ih => exact next_protocol hv hnext ih fun s hs => h s (hs ▸ hreach)
    refine ⟨fun t ht => (hprotocol t ht).locksMatch, fun s hs => ?_⟩
    have hrec := (hprotocol _ hs).recorded.1
    exact ⟨MeetsAgain.of_endsCircular hrec, fun hmeets => hmeets.endsCircular hv hrec (h s hs).1⟩

/-- 395 lists inside of each other around an object of an unsupported type. The set has room for
the first 394 and cannot grow for the last one. -/
def deepList : EncodeCall where
  obj := 0
  heap := fun obj => if obj < 395 then .list [obj + 1] else .scalar .unknown
  stack := fun _ => ⟨0, 0, .list⟩
  growth := fun _ => false
  insert := fun request => request = 396
  answers := fun _ => .raised

/-- A call ended without unlocking a container. -/
def leaks (obj : ObjId) : EncodeTransition → Bool
  | .ret s | .retNull s => s.locks obj ≠ 0
  | _ => false

theorem not_locksMatch_of_leaks {obj : ObjId} {t : EncodeTransition} (h : leaks obj t = true) :
    ¬ LocksMatch root t := by
  cases t with
  | ret s | retNull s =>
      intro hmatch
      rw [leaks, hmatch obj] at h
      cases h
  | goto | lock | lookup | nullSet | undefinedFlag | badItem => cases h

/-- An insertion fails, and the call ends without unlocking the list that was not recorded. -/
theorem insertion_failure_leaks_lock :
    ¬ ∀ toBytes indent call, LockProtocol ⟨toBytes, .locking, indent⟩ call := by
  intro h
  have hreach : Reaches ⟨false, .locking, 0⟩ deepList
      (follow ⟨false, .locking, 0⟩ 1200 (.goto (initial deepList))) := reaches_follow 1200 .refl
  have hleaks : leaks 394 (follow ⟨false, .locking, 0⟩ 1200 (.goto (initial deepList))) = true := by
    decide +kernel
  generalize follow ⟨false, .locking, 0⟩ 1200 (.goto (initial deepList)) = t at hreach hleaks
  exact not_locksMatch_of_leaks hleaks ((h false 0 deepList).locks _ hreach)

end EncodeMachine

end SsrJson.Encode
