import Mathlib.Logic.Relation
import SsrJson.Encode.Outcomes

/-!
# Failing growths of the output

While a call is running its output is one block and no growth has failed. A growth that fails ends
the call at once, with an exception and the block freed once, unless an integer element of `dumps`
asked for it: there the jump flag is left unassigned.
-/

namespace SsrJson.Encode

namespace EncodeOut

/-- All growths so far were granted. -/
def Granted (out : EncodeOut) : Prop := ∀ i < out.growths, out.growth i = false

/-- The output of a call that is running. -/
structure Live (out : EncodeOut) : Prop where
  granted : out.Granted
  error : out.error = none
  frees : out.frees = 0
  allocs : out.allocs = out.head.toNat

/-- The output of a call that is going to fail. -/
structure Failing (out : EncodeOut) : Prop where
  denied : ¬ out.Granted → out.error = some .noMemory
  error : out.error ≠ none
  frees : out.frees = 0
  allocs : out.allocs = out.head.toNat

/-- The output of a call that failed. -/
structure Dead (out : EncodeOut) : Prop where
  denied : ¬ out.Granted → out.error = some .noMemory
  error : out.error ≠ none
  head : out.head = false
  allocs : out.allocs ≤ 1
  frees : out.frees = out.allocs

variable {out out' : EncodeOut} {tokens : List OutToken}

/-- Growths that are granted after granted ones. -/
theorem Granted.extend (h : out.Granted) (hgrowth : out'.growth = out.growth)
    (hnew : ∀ i, out.growths ≤ i → i < out'.growths → out.growth i = false) : out'.Granted := by
  intro i hi
  rw [hgrowth]
  rcases Nat.lt_or_ge i out.growths with hlt | hge
  · exact h i hlt
  · exact hnew i hge hi

theorem Live.dropLast (h : out.Live) : out.dropLast.Live := ⟨h.granted, h.error, h.frees, h.allocs⟩

theorem Live.emit (h : out.Live) (tokens : List OutToken) : (out.emit tokens).Live :=
  ⟨h.granted, h.error, h.frees, h.allocs⟩

theorem Live.wrote (h : out.Live) (hw : out.Wrote tokens out') : out'.Live :=
  ⟨h.granted.extend hw.growth hw.granted, hw.error.trans h.error, hw.frees.trans h.frees,
    by rw [hw.allocs, hw.head, h.allocs]⟩

theorem Live.refused (h : out.Live) (hr : out.Refused out') : out'.Failing := by
  obtain ⟨error, herror, -⟩ := hr.error
  refine ⟨fun hlost => ?_, by simp [herror], hr.frees.trans h.frees, by rw [hr.allocs, hr.head, h.allocs]⟩
  by_contra hne
  refine hlost (h.granted.extend hr.growth fun i hle hlt => ?_)
  by_contra hi
  exact hne (hr.denied ⟨i, hle, hlt, by simpa using hi⟩)

theorem Live.raise (h : out.Live) (error : EncodeError) : (out.raise error).Failing :=
  ⟨fun hlost => absurd h.granted hlost, Option.some_ne_none _, h.frees, h.allocs⟩

theorem Live.allocated (h : out.Live) (hhead : out.head = false) (ha : out.Allocated out') :
    out'.Live :=
  ⟨h.granted.extend ha.growth ha.granted, ha.error.trans h.error, ha.frees.trans h.frees,
    by rw [ha.allocs, ha.head, h.allocs, hhead]; rfl⟩

theorem Live.unallocated (h : out.Live) (hhead : out.head = false) (hu : out.Unallocated out') :
    out'.Failing := by
  refine ⟨fun _ => hu.error, by rw [hu.error]; exact Option.some_ne_none _,
    hu.frees.trans h.frees, ?_⟩
  have hallocs : out.allocs = 0 := by rw [h.allocs, hhead]; rfl
  rcases hu.head with ⟨h1, h2⟩ | ⟨h1, h2⟩ <;> rw [h1, h2, hallocs] <;> rfl

/-- Freeing the block of a call that fails frees it once. -/
theorem Failing.free (h : out.Failing) : out.free.Dead := by
  have hallocs := h.allocs
  rw [EncodeOut.free]
  split
  · next hhead =>
      rw [hhead] at hallocs
      exact ⟨h.denied, h.error, rfl, by simp [hallocs], by simp [hallocs, h.frees]⟩
  · next hhead =>
      have hhead : out.head = false := by simpa using hhead
      rw [hhead] at hallocs
      exact ⟨h.denied, h.error, hhead, by simp [hallocs], by simp [hallocs, h.frees]⟩

end EncodeOut

namespace EncodeMachine

/-- A transition at which the output of the call is accounted for: it is one block while the call
runs, handed over when it returns, and freed when it fails. -/
def Owned : EncodeTransition → Prop
  | .goto s | .lock _ s | .lookup s => s.out.Live ∧ (s.out.head = false ↔ s.label = .start)
  | .ret s => s.out.Live ∧ s.out.head = true
  | .retNull s => s.out.Dead
  | .nullSet s | .badItem s => s.out.Live
  | .undefinedFlag _ => False

/-- `dumps` comes to an integer, and the growth asked for in front of it fails. -/
def IntegerGrowthFails (v : Variant) (s : EncodeState) : Prop :=
  v.toBytes = false ∧ s.out.growth s.out.growths = true ∧
    ∃ inObj val, valueAt s = some (inObj, val) ∧ WritableInt (s.heap val)

variable {v : Variant} {s : EncodeState}

/-- Unlocking does not touch the output. -/
theorem foldl_unlock_out (members : List ObjId) (s : EncodeState) :
    (members.foldl EncodeState.unlock s).out = s.out := by
  induction members generalizing s with
  | nil => rfl
  | cons obj members ih => exact ih (s.unlock obj)

theorem fail_owned (h : s.out.Failing) : Owned (fail v s) := by
  rw [fail]
  split
  · show (EncodeOut.free _).Dead
    simpa only [foldl_unlock_out] using h.free
  · exact h.free

theorem success_owned (h : s.out.Live) (hhead : s.out.head = true) : Owned (success v s) := by
  rw [success]
  have hreserve := uBufReserve_attempt s.out.dropLast
  generalize s.out.dropLast.uBufReserve = r at hreserve
  cases hreserve with
  | failed hr => exact fail_owned (h.dropLast.refused hr)
  | @done out hw =>
      have hout : out.Live ∧ out.head = true := ⟨h.dropLast.wrote hw, hw.head.trans hhead⟩
      dsimp only
      split
      · cases s.toplevel <;> exact hout
      · exact hout

theorem entered_out (inObj : Bool) (listSize : Nat) : (s.entered inObj listSize).out = s.out := by
  rw [EncodeState.entered]
  cases s.heap s.val <;> rfl

theorem entered_label (inObj : Bool) (listSize : Nat) :
    (s.entered inObj listSize).label ≠ .start := by
  rw [EncodeState.entered]
  cases s.heap s.val <;> exact EncodeLabel.noConfusion

theorem enterCtn_owned {inObj : Bool} {listSize : Nat} (h : s.out.Live)
    (hhead : s.out.head = true) : Owned (enterCtn v inObj s listSize) := by
  rw [enterCtn_eq]
  split
  · exact fail_owned (h.raise _)
  · refine ⟨by rwa [entered_out], ?_⟩
    rw [entered_out, hhead]
    exact iff_of_false nofun (entered_label _ _)

/-- A value is written, or the call ends with the output accounted for. -/
theorem ValOutcome.owned {inObj : Bool} {t : EncodeTransition} (h : ValOutcome v inObj s t)
    (hlive : s.out.Live) (hhead : s.out.head = true)
    (hint : ¬ (v.toBytes = false ∧ s.out.growth s.out.growths = true ∧
      WritableInt (s.heap s.val))) : Owned t := by
  cases h with
  | written ucs lookups hleaf hw htuple =>
      refine ⟨hlive.wrote hw, iff_of_false ?_ (valueLabel_ne inObj)⟩
      simp [hw.head, hhead]
  | refused lookups hr => exact fail_owned (hlive.refused hr)
  | unassigned hbytes hval hgrowth hr => exact hint ⟨hbytes, hgrowth, hval⟩
  | lookup hval => exact ⟨hlive, iff_of_false (by simp [hhead]) nofun⟩
  | circular hopens hw hgranted hv hlock hput => exact fail_owned ((hlive.wrote hw).raise _)
  | lock hopens hw hgranted hv hlock hput hret =>
      exact ⟨hlive.wrote hw, iff_of_false (by simp [hw.head, hhead]) nofun⟩
  | enter hopens hw hgranted hv => exact enterCtn_owned (hlive.wrote hw) (hw.head.trans hhead)

theorem leave_out (locked : Bool) : (s.leave v locked).out = s.out := by
  rw [EncodeState.leave]
  split <;> rfl

theorem resumed_out : s.resumed.out = s.out := by
  rw [EncodeState.resumed]
  cases (s.stack s.depth).type <;> rfl

theorem resumed_label : s.resumed.label ≠ .start := by
  rw [EncodeState.resumed]
  cases (s.stack s.depth).type <;> exact EncodeLabel.noConfusion

theorem EndOutcome.owned {bracket : OutToken} {locked : Bool} {t : EncodeTransition}
    (h : EndOutcome v s bracket locked t) (hlive : s.out.Live) (hhead : s.out.head = true) :
    Owned t := by
  cases h with
  | refused hr => exact fail_owned (hlive.dropLast.refused hr)
  | root hw hdepth => exact success_owned (hlive.dropLast.wrote hw) (hw.head.trans hhead)
  | inner hw hdepth =>
      refine ⟨?_, iff_of_false ?_ resumed_label⟩
      · rw [resumed_out, leave_out]
        exact hlive.dropLast.wrote hw
      · rw [resumed_out, leave_out]
        simp [hw.head.trans hhead]

theorem PairOutcome.owned {t : EncodeTransition} (h : PairOutcome v s t) (hlive : s.out.Live)
    (hhead : s.out.head = true) : Owned t := by
  cases h with
  | key ucs hnext hkey hw => exact ⟨hlive.wrote hw, iff_of_false (by simp [hw.head, hhead]) nofun⟩
  | refused hnext hr => exact fail_owned (hlive.refused hr)
  | done hnext hend => exact hend.owned hlive hhead

theorem ItemOutcome.owned {t : EncodeTransition} (h : ItemOutcome v s t) (hlive : s.out.Live)
    (hhead : s.out.head = true) (hlabel : s.label = .arrValBegin)
    (hint : ¬ IntegerGrowthFails v s) : Owned t := by
  cases h with
  | value hpos hitem hval =>
      refine hval.owned hlive hhead ?_
      rintro ⟨hbytes, hgrowth, hint'⟩
      refine hint ⟨hbytes, hgrowth, false, _, ?_, hint'⟩
      rw [valueAt, hlabel]
      simp [hpos, hitem]
  | badItem hpos hitem => exact hlive
  | done hpos hend => exact hend.owned hlive hhead

theorem rooted_out : s.rooted.out = s.out := by
  rw [EncodeState.rooted]
  split <;> rfl

theorem rooted_label : s.rooted.label ≠ .start := by
  rw [EncodeState.rooted]
  split <;> exact EncodeLabel.noConfusion

theorem StartOutcome.owned {t : EncodeTransition} (h : StartOutcome v s t) (hlive : s.out.Live)
    (hhead : s.out.head = false) : Owned t := by
  cases h with
  | nullSet set => exact hlive
  | noSet set =>
      have hfail := (hlive.raise .noMemory).free
      rwa [EncodeOut.free, if_neg (by simp [EncodeOut.raise, hhead])] at hfail
  | refused hset hout => exact fail_owned (hlive.unallocated hhead hout)
  | unsupported hset hout => exact fail_owned ((hlive.allocated hhead hout).raise _)
  | empty listSize hset hout hobj hleaf =>
      exact success_owned ((hlive.allocated hhead hout).emit _) hout.head
  | tuple hset hout hobj hne =>
      exact ⟨(hlive.allocated hhead hout).emit _,
        iff_of_false (by simp [EncodeOut.emit, hout.head]) nofun⟩
  | lock listSize hset hup hout hv hlock hopens hsize hput =>
      exact ⟨(hlive.allocated hhead hout).emit _,
        iff_of_false (by simp [EncodeOut.emit, hout.head]) nofun⟩
  | unlocked listSize hset hout hv hlock hopens hsize =>
      refine ⟨?_, iff_of_false ?_ rooted_label⟩
      · rw [rooted_out]
        exact (hlive.allocated hhead hout).emit _
      · rw [rooted_out]
        simp [EncodeOut.emit, hout.head]

/-- A step keeps the output accounted for when it does not come to an integer whose growth
fails. -/
theorem step_owned (hlive : s.out.Live) (hlabel : s.out.head = false ↔ s.label = .start)
    (hint : ¬ IntegerGrowthFails v s) : Owned (step v s) := by
  have hhead : s.label ≠ .start → s.out.head = true := by
    intro hne
    simpa using mt hlabel.mp hne
  rw [step]
  cases hl : s.label with
  | start => exact start_outcome.owned hlive (hlabel.mpr hl)
  | rootLocked =>
      dsimp only
      rw [rootLocked_eq]
      refine ⟨by rwa [rooted_out], iff_of_false ?_ rooted_label⟩
      rw [rooted_out]
      simp [hhead (by simp [hl])]
  | dictPairBegin => exact dictPairBegin_outcome.owned hlive (hhead (by simp [hl]))
  | dictKeyDone =>
      refine encodeProcessVal_outcome.owned hlive (hhead (by simp [hl])) ?_
      rintro ⟨hbytes, hgrowth, hval⟩
      exact hint ⟨hbytes, hgrowth, true, s.val, by rw [valueAt, hl], hval⟩
  | arrValBegin => exact arrValBegin_outcome.owned hlive (hhead (by simp [hl])) hl hint
  | ctnLocked inObj listSize => exact enterCtn_owned hlive (hhead (by simp [hl]))
  | arrayStruct inObj =>
      have hhead := hhead (by simp [hl])
      obtain ⟨tokens, -, h⟩ :=
        uBufApdNdarray_attempt s.out v s.depth inObj s.ucs (s.answers s.lookups)
      dsimp only
      rw [processArray]
      generalize uBufApdNdarray v s.depth inObj s.out s.ucs (s.answers s.lookups) = r at h
      cases h with
      | done hw =>
          exact ⟨hlive.wrote hw, iff_of_false (by simp [hw.head, hhead]) (valueLabel_ne inObj)⟩
      | failed hr => exact fail_owned (hlive.refused hr)

/-- `write_indent_return_if_fail` in front of an integer. -/
theorem processInt_unassigned {inObj : Bool} (value : Scalar) (hbytes : v.toBytes = false)
    (hgrowth : s.out.growth s.out.growths = true) :
    ∃ s', processInt v inObj s value = .undefinedFlag s' := by
  have hfst := unicodeIndentWriter_fst s.out v s.depth inObj
  rw [processInt]
  generalize unicodeIndentWriter v s.depth inObj s.out = r at hfst
  obtain ⟨granted, out⟩ := r
  obtain rfl : granted = false := by simpa [hgrowth] using hfst
  exact ⟨{ s with out }, by simp [hbytes, dispatch]⟩

theorem encodeProcessVal_unassigned {inObj : Bool} (hint : WritableInt (s.heap s.val))
    (hbytes : v.toBytes = false) (hgrowth : s.out.growth s.out.growths = true) :
    ∃ s', encodeProcessVal v inObj s = .undefinedFlag s' := by
  rw [encodeProcessVal]
  generalize s.heap s.val = obj at hint
  cases hint with
  | @long value hbig hsmall =>
      show ∃ s', processLong v inObj s value = _
      rw [processLong, if_neg hbig, if_neg hsmall]
      exact processInt_unassigned _ hbytes hgrowth
  | numpyInt width value => exact processInt_unassigned _ hbytes hgrowth

/-- An integer whose growth fails leaves the flag unassigned. -/
theorem step_undefinedFlag (hint : IntegerGrowthFails v s) :
    ∃ s', step v s = .undefinedFlag s' := by
  obtain ⟨hbytes, hgrowth, inObj, val, hval, hwritable⟩ := hint
  obtain ⟨pos, hstep⟩ := @step_valueAt v s inObj val hval
  rw [hstep]
  exact encodeProcessVal_unassigned hwritable hbytes hgrowth

/-! ## Calls -/

/-- The transitions of a call during which no other code runs. -/
def Reaches (v : Variant) (call : EncodeCall) : EncodeTransition → Prop :=
  Relation.ReflTransGen (fun t t' => next v t = some t') (.goto (initial call))

/-- What a transition owes a caller whose growths may fail: the flag is assigned, a failed growth
has ended the call with an exception, and a call that failed has freed its block once. -/
structure FailsCleanly (t : EncodeTransition) : Prop where
  assigned : ∀ s, t ≠ .undefinedFlag s
  atOnce : ¬ t.state.out.Granted → ∃ s, t = .retNull s ∧ s.out.error = some .noMemory
  freed : ∀ s, t = .retNull s →
    s.out.error ≠ none ∧ s.out.head = false ∧ s.out.allocs ≤ 1 ∧ s.out.frees = s.out.allocs
  kept : (∀ s, t ≠ .retNull s) → t.state.out.error = none ∧ t.state.out.frees = 0

theorem Owned.failsCleanly {t : EncodeTransition} (h : Owned t) : FailsCleanly t := by
  have running : ∀ t : EncodeTransition, t.state.out.Live → (∀ s, t ≠ .undefinedFlag s) →
      (∀ s, t ≠ .retNull s) → FailsCleanly t := by
    intro t hlive hflag hnull
    exact ⟨hflag, fun hlost => absurd hlive.granted hlost, fun s hs => absurd hs (hnull s),
      fun _ => ⟨hlive.error, hlive.frees⟩⟩
  cases t with
  | goto s => exact running _ h.1 (fun _ => nofun) (fun _ => nofun)
  | lock obj s => exact running _ h.1 (fun _ => nofun) (fun _ => nofun)
  | lookup s => exact running _ h.1 (fun _ => nofun) (fun _ => nofun)
  | ret s => exact running _ h.1 (fun _ => nofun) (fun _ => nofun)
  | nullSet s => exact running _ h (fun _ => nofun) (fun _ => nofun)
  | badItem s => exact running _ h (fun _ => nofun) (fun _ => nofun)
  | undefinedFlag s => exact h.elim
  | retNull s =>
      refine ⟨fun _ => nofun, fun hlost => ⟨s, rfl, h.denied hlost⟩, ?_,
        fun hne => absurd rfl (hne s)⟩
      intro s' hs
      cases hs
      exact ⟨h.error, h.head, h.allocs, h.frees⟩

theorem initial_owned (call : EncodeCall) : Owned (.goto (initial call)) :=
  ⟨⟨fun _ hlt => absurd hlt (Nat.not_lt_zero _), rfl, rfl, rfl⟩, iff_of_true rfl rfl⟩

/-- The output is accounted for from one transition to the next. -/
theorem next_owned {t t' : EncodeTransition} (h : next v t = some t') (ht : Owned t)
    (hint : ∀ s, t = .goto s → ¬ IntegerGrowthFails v s) : Owned t' := by
  cases t with
  | goto s =>
      cases h
      exact step_owned ht.1 ht.2 (hint s rfl)
  | lock obj s =>
      cases h
      exact ht
  | lookup s =>
      cases h
      exact ht
  | ret | retNull | nullSet | undefinedFlag | badItem => cases h

/-- Failing growths are handled in all of a call if and only if the call comes to no integer of
`dumps` whose growth fails. -/
theorem growth_failures_handled_iff (v : Variant) (call : EncodeCall) :
    (∀ t, Reaches v call t → FailsCleanly t) ↔
      ∀ s, Reaches v call (.goto s) → ¬ IntegerGrowthFails v s := by
  constructor
  · intro h s hs hint
    obtain ⟨s', hs'⟩ := step_undefinedFlag hint
    have hnext : next v (.goto s) = some (.undefinedFlag s') := congrArg some hs'
    exact (h _ (hs.tail hnext)).assigned s' rfl
  · intro h t ht
    suffices Owned t from this.failsCleanly
    induction ht with
    | refl => exact initial_owned call
    | tail hreach hnext ih => exact next_owned hnext ih fun s hs => h s (hs ▸ hreach)

/-- Some transitions of a call. -/
def follow (v : Variant) : Nat → EncodeTransition → EncodeTransition
  | 0, t => t
  | n + 1, t => match next v t with
    | some t' => follow v n t'
    | none => t

theorem reaches_follow {call : EncodeCall} (n : Nat) {t : EncodeTransition}
    (h : Reaches v call t) : Reaches v call (follow v n t) := by
  induction n generalizing t with
  | zero => exact h
  | succ n ih =>
      rw [follow]
      split
      · next t' hnext => exact ih (h.tail hnext)
      · exact h

/-- `[10**15] * 57`, where the growth for the last element fails: the first 56 fill the buffer. -/
def longList : EncodeCall where
  obj := 0
  heap := fun obj => if obj = 0 then .list (List.replicate 57 1) else .scalar (.long (10 ^ 15))
  stack := fun _ => ⟨0, 0, .list⟩
  growth := fun request => request = 57
  insert := fun _ => false
  answers := fun _ => .raised

/-- The growth for an integer fails, and `dumps` goes on with a flag that was never assigned. -/
theorem integer_growth_failure_unhandled :
    ¬ ∀ v call, v.toBytes = false → ∀ t, Reaches v call t → FailsCleanly t := by
  intro h
  have hclean := (h ⟨false, .gil, 0⟩ longList rfl _ (reaches_follow 60 .refl)).assigned
  have hflag : ∃ s, follow ⟨false, .gil, 0⟩ 60 (.goto (initial longList)) = .undefinedFlag s :=
    ⟨_, rfl⟩
  obtain ⟨s, hs⟩ := hflag
  exact hclean s hs

end EncodeMachine

end SsrJson.Encode
