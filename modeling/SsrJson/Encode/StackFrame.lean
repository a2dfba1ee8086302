import SsrJson.Encode.Path

/-!
# The entries a call depends on

Of the container stack a call reads only the entries it stored itself, under its depth. A step
stores at most one entry, at its depth, where a container inside of another one is entered. So a
call does the same on two stacks that agree under its depth.
-/

namespace SsrJson.Encode

/-- Two stacks have the same entries under a depth. The first one is never used. -/
def AgreeBelow (depth : Nat) (stack stack' : Nat → CtnEntry) : Prop :=
  ∀ i, 0 < i → i < depth → stack i = stack' i

theorem AgreeBelow.mono {depth depth' : Nat} {stack stack' : Nat → CtnEntry}
    (h : AgreeBelow depth stack stack') (hle : depth' ≤ depth) : AgreeBelow depth' stack stack' :=
  fun i hpos hlt => h i hpos (Nat.lt_of_lt_of_le hlt hle)

/-- The call at the same place, on another stack. -/
def EncodeTransition.withStack (t : EncodeTransition) (stack : Nat → CtnEntry) :
    EncodeTransition :=
  match t with
  | .goto s => .goto { s with stack }
  | .lock obj s => .lock obj { s with stack }
  | .lookup s => .lookup { s with stack }
  | .ret s => .ret { s with stack }
  | .retNull s => .retNull { s with stack }
  | .nullSet s => .nullSet { s with stack }
  | .undefinedFlag s => .undefinedFlag { s with stack }
  | .badItem s => .badItem { s with stack }

/-- The states of a call on two stacks. -/
def SameCall (s s' : EncodeState) : Prop := s' = { s with stack := s'.stack }

/-- The same call on two stacks that agree where it depends on them. -/
inductive Alike : EncodeTransition → EncodeTransition → Prop where
  | goto {s s' : EncodeState} :
      SameCall s s' → AgreeBelow s.depth s.stack s'.stack → Alike (.goto s) (.goto s')
  | lock {obj : ObjId} {s s' : EncodeState} :
      SameCall s s' → AgreeBelow s.depth s.stack s'.stack → Alike (.lock obj s) (.lock obj s')
  | lookup {s s' : EncodeState} :
      SameCall s s' → AgreeBelow s.depth s.stack s'.stack → Alike (.lookup s) (.lookup s')
  | ret {s s' : EncodeState} : SameCall s s' → Alike (.ret s) (.ret s')
  | retNull {s s' : EncodeState} : SameCall s s' → Alike (.retNull s) (.retNull s')
  | nullSet {s s' : EncodeState} : SameCall s s' → Alike (.nullSet s) (.nullSet s')
  | undefinedFlag {s s' : EncodeState} :
      SameCall s s' → Alike (.undefinedFlag s) (.undefinedFlag s')
  | badItem {s s' : EncodeState} : SameCall s s' → Alike (.badItem s) (.badItem s')

namespace EncodeMachine

variable {v : Variant} {stack : Nat → CtnEntry}

theorem foldl_unlock_stack (members : List ObjId) (s : EncodeState) (stack : Nat → CtnEntry) :
    members.foldl EncodeState.unlock { s with stack } =
      { members.foldl EncodeState.unlock s with stack } := by
  induction members generalizing s with
  | nil => rfl
  | cons obj members ih => exact ih (s.unlock obj)

theorem fail_alike (s : EncodeState) (stack : Nat → CtnEntry) :
    Alike (fail v s) (fail v { s with stack }) := by
  rw [fail, fail]
  split
  · have hunlocked := foldl_unlock_stack s.set.members s stack
    dsimp only
    rw [hunlocked]
    exact .retNull rfl
  · exact .retNull rfl

theorem success_alike (s : EncodeState) (stack : Nat → CtnEntry) :
    Alike (success v s) (success v { s with stack }) := by
  rw [success, success]
  dsimp only
  split
  · next out hout => exact fail_alike { s with out } stack
  · next out hout =>
      split
      · split
        · next obj htop =>
            exact .ret rfl
        · next htop => exact .ret rfl
      · exact .ret rfl

theorem dispatch_alike (inObj : Bool) (s : EncodeState) (flag : Option JumpFlag)
    (h : AgreeBelow s.depth s.stack stack) :
    Alike (dispatch v inObj s flag) (dispatch v inObj { s with stack } flag) := by
  cases flag with
  | none => exact .undefinedFlag rfl
  | some flag =>
      cases flag with
      | default | arrValBegin | dictPairBegin | tupleValBegin => exact .goto rfl h
      | elevate ucs => cases inObj <;> exact .goto rfl h
      | fail => exact fail_alike s stack

theorem checked_alike (inObj : Bool) (s : EncodeState) (written : Bool × EncodeOut)
    (h : AgreeBelow s.depth s.stack stack) :
    Alike (checked v inObj s written) (checked v inObj { s with stack } written) := by
  obtain ⟨granted, out⟩ := written
  cases granted with
  | false => exact @dispatch_alike v stack inObj { s with out } (some .fail) h
  | true => exact @dispatch_alike v stack inObj { s with out } (some .default) h

theorem processScalar_alike (inObj : Bool) (s : EncodeState) (scalar : Scalar)
    (h : AgreeBelow s.depth s.stack stack) :
    Alike (processScalar v inObj s scalar) (processScalar v inObj { s with stack } scalar) := by
  have hint : ∀ value, Alike (processInt v inObj s value)
      (processInt v inObj { s with stack } value) := by
    intro value
    rw [processInt, processInt]
    dsimp only
    split
    · next out hout => exact dispatch_alike inObj { s with out } _ h
    · next out hout =>
        exact dispatch_alike inObj { s with out := out.emit [.scalar value, .comma] } _ h
  cases scalar with
  | none | bool | float | numpyFloat | numpyBool => exact checked_alike inObj s _ h
  | numpyInt width value => exact hint _
  | long value =>
      show Alike (processLong v inObj s value) (processLong v inObj { s with stack } value)
      rw [processLong, processLong]
      split
      · exact dispatch_alike inObj (s.raise .unsignedLong) _ h
      · split
        · exact dispatch_alike inObj (s.raise .signedLong) _ h
        · exact hint _
  | str str compact =>
      show Alike (processStr v inObj s str compact) (processStr v inObj { s with stack } str compact)
      rw [processStr, processStr]
      dsimp only
      split
      · next out hout => exact dispatch_alike inObj { s with out } _ h
      · next out hout => exact dispatch_alike inObj { s with out } _ h
  | numpyArray subclass =>
      cases subclass with
      | true => exact .lookup rfl h
      | false => exact checked_alike inObj { s with lookups := s.lookups + 1 } _ h
  | unknown => exact @dispatch_alike v stack inObj (s.raise .unsupportedType) (some .fail) h

/-- The same entry is stored on both stacks. -/
theorem enterCtn_alike (inObj : Bool) (s : EncodeState) (listSize : Nat)
    (h : AgreeBelow s.depth s.stack stack) :
    Alike (enterCtn v inObj s listSize) (enterCtn v inObj { s with stack } listSize) := by
  rw [enterCtn_eq, enterCtn_eq]
  dsimp only
  split
  · exact fail_alike (s.raise .tooNested) stack
  · rw [EncodeState.entered, EncodeState.entered]
    dsimp only
    have hagree : ∀ entry, AgreeBelow (s.depth + 1) (Function.update s.stack s.depth entry)
        (Function.update stack s.depth entry) := by
      intro entry i hpos hlt
      rcases Nat.lt_succ_iff_lt_or_eq.mp hlt with hlt | rfl
      · rw [Function.update_of_ne (Nat.ne_of_lt hlt), Function.update_of_ne (Nat.ne_of_lt hlt)]
        exact h i hpos hlt
      · rw [Function.update_self, Function.update_self]
    cases s.heap s.val <;> exact .goto rfl (hagree _)

theorem encodeProcessVal_alike (inObj : Bool) (s : EncodeState)
    (h : AgreeBelow s.depth s.stack stack) :
    Alike (encodeProcessVal v inObj s) (encodeProcessVal v inObj { s with stack }) := by
  have hlock : ∀ (out : EncodeOut) (listSize : Nat),
      Alike (lockThenEnter v inObj { s with out } listSize)
        (lockThenEnter v inObj { s with out, stack } listSize) := by
    intro out listSize
    rw [lockThenEnter, lockThenEnter]
    dsimp only
    split
    · split
      · next set hput => exact fail_alike (EncodeState.raise { s with out, set } .circular) stack
      · exact .lock rfl h
    · exact enterCtn_alike inObj { s with out } listSize h
  rw [encodeProcessVal, encodeProcessVal]
  dsimp only
  cases s.heap s.val with
  | scalar value => exact processScalar_alike inObj s value h
  | list items =>
      dsimp only
      rw [processList, processList]
      split
      · exact checked_alike inObj s _ h
      · dsimp only
        split
        · next out hout => exact fail_alike { s with out } stack
        · exact hlock _ _
  | tuple items =>
      dsimp only
      rw [processTuple, processTuple]
      split
      · exact checked_alike inObj s _ h
      · dsimp only
        split
        · next out hout => exact fail_alike { s with out } stack
        · next out hout => exact enterCtn_alike inObj { s with out } _ h
  | dict entries =>
      dsimp only
      rw [processDict, processDict]
      split
      · exact checked_alike inObj s _ h
      · dsimp only
        split
        · next out hout => exact fail_alike { s with out } stack
        · exact hlock _ _

theorem resumed_alike (s : EncodeState) (h : AgreeBelow (s.depth + 1) s.stack stack)
    (hdepth : s.depth ≠ 0) :
    Alike (.goto s.resumed) (.goto (EncodeState.resumed { s with stack })) := by
  have hentry : s.stack s.depth = stack s.depth :=
    h s.depth (Nat.pos_of_ne_zero hdepth) (Nat.lt_succ_self _)
  have hagree := h.mono (Nat.le_succ _)
  rw [EncodeState.resumed, EncodeState.resumed]
  dsimp only
  rw [← hentry]
  cases (s.stack s.depth).type <;> exact .goto rfl hagree

theorem endCtn_alike (s : EncodeState) (locked : Bool) (written : Bool × EncodeOut)
    (h : AgreeBelow s.depth s.stack stack) :
    Alike (endCtn v s locked written) (endCtn v { s with stack } locked written) := by
  obtain ⟨granted, out⟩ := written
  cases granted with
  | false => exact fail_alike { s with out, depth := s.depth - 1 } stack
  | true =>
      rw [endCtn, endCtn]
      dsimp only
      split
      · exact success_alike { s with out, depth := s.depth - 1 } stack
      · next hinner =>
          have hagree : AgreeBelow (s.depth - 1 + 1) s.stack stack := h.mono (by omega)
          split
          · rw [popCtn_eq, popCtn_eq]
            exact resumed_alike (EncodeState.unlock
              { s with out, depth := s.depth - 1, set := s.set.khDel s.curObj } s.curObj)
              hagree hinner
          · rw [popCtn_eq, popCtn_eq]
            exact resumed_alike { s with out, depth := s.depth - 1 } hagree hinner

theorem dictPairBegin_alike (s : EncodeState) (h : AgreeBelow s.depth s.stack stack) :
    Alike (dictPairBegin v s) (dictPairBegin v { s with stack }) := by
  rw [dictPairBegin, dictPairBegin]
  dsimp only
  split
  · next key val pos hnext =>
      split
      · next str compact hkey =>
          generalize uBufApdKey v s.depth s.out str = written
          obtain ⟨granted, out⟩ := written
          cases granted with
          | false => exact fail_alike { s with curPos := pos, val, out } stack
          | true => exact .goto rfl h
      · exact fail_alike (EncodeState.raise { s with curPos := pos, val } .keyType) stack
  · exact endCtn_alike s true _ h

theorem arrValBegin_alike (s : EncodeState) (h : AgreeBelow s.depth s.stack stack) :
    Alike (arrValBegin v s) (arrValBegin v { s with stack }) := by
  rw [arrValBegin, arrValBegin]
  dsimp only
  split
  · split
    · exact .badItem rfl
    · next val hitem =>
        exact encodeProcessVal_alike false { s with curPos := s.curPos + 1, val } h
  · exact endCtn_alike s (!s.isTuple) _ h

theorem rooted_alike (s : EncodeState) (stack : Nat → CtnEntry) :
    Alike (.goto s.rooted) (.goto (EncodeState.rooted { s with stack })) := by
  have hagree : AgreeBelow 1 s.stack stack :=
    fun i hpos hlt => absurd hlt (Nat.not_lt.mpr hpos)
  rw [EncodeState.rooted, EncodeState.rooted]
  dsimp only
  split <;> exact .goto rfl hagree

theorem startRoot_alike (s : EncodeState) (h : AgreeBelow s.depth s.stack stack) :
    Alike (startRoot v s) (startRoot v { s with stack }) := by
  have hlock : ∀ s : EncodeState, AgreeBelow s.depth s.stack stack →
      Alike (lockRoot v s (rootLocked s))
        (lockRoot v { s with stack } (rootLocked { s with stack })) := by
    intro s h
    rw [lockRoot, lockRoot]
    split
    · exact .lock rfl h
    · rw [rootLocked_eq, rootLocked_eq]
      exact rooted_alike s stack
  have hagree : AgreeBelow 1 s.stack stack :=
    fun i hpos hlt => absurd hlt (Nat.not_lt.mpr hpos)
  rw [startRoot, startRoot]
  dsimp only
  cases s.heap s.curObj with
  | scalar value => exact fail_alike (s.raise .unsupportedType) stack
  | list items =>
      dsimp only
      split
      · exact success_alike
          { s with out := s.out.emit [.openArr, .closeArr, .comma], listSize := 0 } stack
      · exact hlock { s with out := s.out.emit [.openArr], listSize := items.length } h
  | tuple items =>
      dsimp only
      split
      · exact success_alike
          { s with out := s.out.emit [.openArr, .closeArr, .comma], listSize := 0 } stack
      · exact .goto rfl hagree
  | dict entries =>
      dsimp only
      split
      · exact success_alike { s with out := s.out.emit [.openObj, .closeObj, .comma] } stack
      · exact hlock { s with out := s.out.emit [.openObj] } h

theorem start_alike (s : EncodeState) (h : AgreeBelow s.depth s.stack stack) :
    Alike (start v s) (start v { s with stack }) := by
  have hbuffers : ∀ s : EncodeState, AgreeBelow s.depth s.stack stack →
      Alike (startBuffers v s) (startBuffers v { s with stack }) := by
    intro s h
    rw [startBuffers, startBuffers]
    dsimp only
    split
    · next out hout => exact fail_alike { s with out } stack
    · next out hout =>
        split
        · next out hout => exact fail_alike { s with out } stack
        · next out hout => exact startRoot_alike { s with out } h
  rw [start, start]
  dsimp only
  split
  · split
    · next set hset => exact .nullSet rfl
    · next set hset =>
        split
        · next set hset => exact .retNull rfl
        · next set hset => exact hbuffers { s with set } h
  · exact hbuffers s h

/-- A step does the same on stacks that agree under its depth. -/
theorem step_alike (s : EncodeState) (h : AgreeBelow s.depth s.stack stack) :
    Alike (step v s) (step v { s with stack }) := by
  rw [step, step]
  dsimp only
  split
  · exact start_alike s h
  · rw [rootLocked_eq, rootLocked_eq]
    exact rooted_alike s stack
  · exact dictPairBegin_alike s h
  · exact encodeProcessVal_alike true s h
  · exact arrValBegin_alike s h
  · exact enterCtn_alike _ s _ h
  · exact checked_alike _ { s with lookups := s.lookups + 1 } _ h

/-- The next transition is the same on stacks that agree under the depth. -/
theorem next_alike {t t' after' : EncodeTransition} (h : Alike t t')
    (hnext : next v t' = some after') : ∃ after, next v t = some after ∧ Alike after after' := by
  cases h with
  | @goto s s' hsame h =>
      obtain ⟨stack, rfl⟩ : ∃ stack, s' = { s with stack } := ⟨_, hsame⟩
      cases hnext
      exact ⟨_, rfl, step_alike s h⟩
  | @lock obj s s' hsame h =>
      obtain ⟨stack, rfl⟩ : ∃ stack, s' = { s with stack } := ⟨_, hsame⟩
      cases hnext
      exact ⟨_, rfl, .goto rfl h⟩
  | lookup hsame h =>
      cases hnext
      exact ⟨_, rfl, .goto hsame h⟩
  | ret | retNull | nullSet | undefinedFlag | badItem => cases hnext

end EncodeMachine

/-! ## What a step stores -/

/-- The step stores an entry: a container inside of another one is entered. -/
def Enters (v : Variant) (s : EncodeState) : Prop :=
  0 < s.depth ∧ s.depth ≠ encodeMaxRecursion ∧
    ((∃ inObj listSize, s.label = .ctnLocked inObj listSize) ∨
      ∃ inObj val bracket size, EncodeMachine.valueAt s = some (inObj, val) ∧ Opens (s.heap val) bracket size ∧
        s.out.growth s.out.growths = false ∧
        (v.locking = false ∨ (s.heap val).lockable = false))

namespace EncodeMachine

variable {v : Variant} {s : EncodeState}

theorem fail_stack : (fail v s).state.stack = s.stack := by
  rw [fail]
  split
  · have hfold : ∀ (members : List ObjId) (s : EncodeState),
        (members.foldl EncodeState.unlock s).stack = s.stack := by
      intro members
      induction members with
      | nil => exact fun _ => rfl
      | cons obj members ih => exact fun s => ih (s.unlock obj)
    exact hfold s.set.members s
  · rfl

theorem success_stack : (success v s).state.stack = s.stack := by
  rw [success]
  split
  · exact fail_stack
  · split
    · cases s.toplevel <;> rfl
    · rfl

/-- Entering a container stores the one around it. -/
theorem enterCtn_stack (inObj : Bool) (listSize : Nat) :
    (enterCtn v inObj s listSize).state.stack = s.stack ∨
      s.depth ≠ encodeMaxRecursion ∧
        ∃ entry, (enterCtn v inObj s listSize).state.stack =
          Function.update s.stack s.depth entry := by
  rw [enterCtn_eq]
  split
  · exact .inl fail_stack
  · next hdepth => exact .inr ⟨hdepth, _, (EncodeState.entered_fields inObj listSize).2.2.2.1⟩

/-- What a value stores. -/
theorem ValOutcome.stack {inObj : Bool} {t : EncodeTransition} (h : ValOutcome v inObj s t) :
    t.state.stack = s.stack ∨
      (s.depth ≠ encodeMaxRecursion ∧ (∃ bracket size, Opens (s.heap s.val) bracket size) ∧
        s.out.growth s.out.growths = false ∧
        (v.locking = false ∨ (s.heap s.val).lockable = false)) ∧
        ∃ entry, t.state.stack = Function.update s.stack s.depth entry := by
  cases h with
  | written | unassigned | lookup | lock => exact .inl rfl
  | refused | circular => exact .inl fail_stack
  | @enter out bracket listSize hopens hw hgranted hfree =>
      rcases @enterCtn_stack v { s with out } inObj listSize with h | ⟨hdepth, h⟩
      · exact .inl h
      · exact .inr ⟨⟨hdepth, ⟨_, _, hopens⟩, hgranted, hfree⟩, h⟩

theorem EndOutcome.stack {bracket : OutToken} {locked : Bool} {t : EncodeTransition}
    (h : EndOutcome v s bracket locked t) : t.state.stack = s.stack := by
  cases h with
  | refused => exact fail_stack
  | root => exact success_stack
  | inner hw hdepth =>
      rw [EncodeState.leave]
      split <;> exact EncodeState.resumed_fields.2.2.2.1

/-- Apart from the first entry, which is never used, a step stores at most one entry. -/
theorem step_stack {i : Nat} (hpos : 0 < i) :
    (step v s).state.stack i = s.stack i ∨ Enters v s ∧ i = s.depth := by
  have hval : ∀ {inObj : Bool} {s' : EncodeState} {t : EncodeTransition}, ValOutcome v inObj s' t →
      s'.stack = s.stack → s'.depth = s.depth → s'.heap = s.heap → s'.out = s.out →
      valueAt s = some (inObj, s'.val) →
      t.state.stack i = s.stack i ∨ Enters v s ∧ i = s.depth := by
    intro inObj s' t h hstack hdepth hheap hout hvalue
    rcases h.stack with h | ⟨⟨hmax, hopens, hroom, hfree⟩, h⟩
    · rw [h, hstack]
      exact .inl rfl
    · obtain ⟨entry, h⟩ := h
      obtain ⟨bracket, size, hopens⟩ := hopens
      rw [hdepth] at hmax
      rw [hheap] at hopens hfree
      rw [hout] at hroom
      rw [h, hstack, hdepth]
      by_cases hi : i = s.depth
      · exact .inr ⟨⟨hi ▸ hpos, hmax, .inr ⟨inObj, _, bracket, size, hvalue, hopens, hroom, hfree⟩⟩,
          hi⟩
      · rw [Function.update_of_ne hi]
        exact .inl rfl
  rw [step]
  cases hl : s.label with
  | start =>
      left
      have h := @start_outcome v s
      show (start v s).state.stack i = s.stack i
      generalize start v s = t at h
      cases h with
      | nullSet | noSet | tuple | lock => rfl
      | refused | unsupported => exact congrFun fail_stack i
      | empty => exact congrFun success_stack i
      | unlocked =>
          rw [EncodeTransition.state, EncodeState.rooted]
          split <;> rfl
  | rootLocked =>
      left
      dsimp only
      rw [rootLocked_eq, EncodeTransition.state, EncodeState.rooted]
      split <;> rfl
  | dictPairBegin =>
      left
      have h := @dictPairBegin_outcome v s
      show (dictPairBegin v s).state.stack i = s.stack i
      generalize dictPairBegin v s = t at h
      cases h with
      | key => rfl
      | refused => exact congrFun fail_stack i
      | done hnext hend => exact congrFun hend.stack i
  | dictKeyDone => exact hval encodeProcessVal_outcome rfl rfl rfl rfl (by rw [valueAt, hl])
  | arrValBegin =>
      have h := @arrValBegin_outcome v s
      show (arrValBegin v s).state.stack i = s.stack i ∨ _
      generalize arrValBegin v s = t at h
      cases h with
      | value hlt hitem h =>
          refine hval h rfl rfl rfl rfl ?_
          rw [valueAt, hl]
          dsimp only
          rw [if_pos hlt, hitem]
          rfl
      | badItem => exact .inl rfl
      | done hge hend => exact .inl (congrFun hend.stack i)
  | ctnLocked inObj listSize =>
      dsimp only
      rcases @enterCtn_stack v s inObj listSize with h | ⟨hmax, entry, h⟩
      · rw [h]
        exact .inl rfl
      · rw [h]
        by_cases hi : i = s.depth
        · exact .inr ⟨⟨hi ▸ hpos, hmax, .inl ⟨inObj, listSize, hl⟩⟩, hi⟩
        · rw [Function.update_of_ne hi]
          exact .inl rfl
  | arrayStruct inObj =>
      left
      dsimp only
      rw [processArray]
      generalize uBufApdNdarray v s.depth inObj s.out s.ucs (s.answers s.lookups) = r
      obtain ⟨written, out⟩ := r
      cases written with
      | false => exact congrFun fail_stack i
      | true => rfl

end EncodeMachine

end SsrJson.Encode
