import SsrJson.Encode.Machine

/-!
# What the steps of the encoder can do

Each writer either writes its tokens or fails with an exception and leaves the block where it is.
From this follows, once for each function of the machine, the list of everything a step can do.
The invariants of the encoder are read off these lists.
-/

namespace SsrJson.Encode

/-! ## Writers -/

/-- What no writer changes, and that requests are only added. -/
structure EncodeOut.Kept (out out' : EncodeOut) : Prop where
  growth : out'.growth = out.growth
  growths : out.growths ≤ out'.growths
  head : out'.head = out.head
  allocs : out'.allocs = out.allocs
  frees : out'.frees = out.frees

/-- Some tokens were written, and all room that was asked for was given. -/
structure EncodeOut.Wrote (out : EncodeOut) (tokens : List OutToken) (out' : EncodeOut) : Prop
    extends EncodeOut.Kept out out' where
  tokens : out'.tokens = tokens.reverse ++ out.tokens
  error : out'.error = out.error
  granted : ∀ i, out.growths ≤ i → i < out'.growths → out.growth i = false

/-- An exception was set, `MemoryError` if the room that was asked for was not given. -/
structure EncodeOut.Refused (out out' : EncodeOut) : Prop extends EncodeOut.Kept out out' where
  error : ∃ error, out'.error = some error ∧ error ≠ .circular
  denied : (∃ i, out.growths ≤ i ∧ i < out'.growths ∧ out.growth i = true) →
    out'.error = some .noMemory

/-- What a writer returns. -/
inductive Attempt (out : EncodeOut) (tokens : List OutToken) : Bool × EncodeOut → Prop where
  | done {out' : EncodeOut} : out.Wrote tokens out' → Attempt out tokens (true, out')
  | failed {out' : EncodeOut} : out.Refused out' → Attempt out tokens (false, out')

namespace EncodeOut

variable {out out' out'' : EncodeOut} {tokens tokens' : List OutToken}

theorem Kept.refl (out : EncodeOut) : out.Kept out := ⟨rfl, Nat.le_refl _, rfl, rfl, rfl⟩

theorem Kept.trans (h : out.Kept out') (h' : out'.Kept out'') : out.Kept out'' :=
  ⟨h'.growth.trans h.growth, Nat.le_trans h.growths h'.growths, h'.head.trans h.head,
    h'.allocs.trans h.allocs, h'.frees.trans h.frees⟩

theorem Wrote.refl (out : EncodeOut) : out.Wrote [] out :=
  ⟨.refl out, rfl, rfl, fun _ hle hlt => absurd hlt (Nat.not_lt.mpr hle)⟩

/-- Tokens that need no room. -/
theorem wrote_emit (out : EncodeOut) (tokens : List OutToken) :
    out.Wrote tokens (out.emit tokens) :=
  ⟨⟨rfl, Nat.le_refl _, rfl, rfl, rfl⟩, rfl, rfl,
    fun _ hle hlt => absurd hlt (Nat.not_lt.mpr hle)⟩

theorem Wrote.trans (h : out.Wrote tokens out') (h' : out'.Wrote tokens' out'') :
    out.Wrote (tokens ++ tokens') out'' := by
  refine ⟨h.toKept.trans h'.toKept, ?_, h'.error.trans h.error, fun i hle hlt => ?_⟩
  · rw [h'.tokens, h.tokens, List.reverse_append, List.append_assoc]
  · rcases Nat.lt_or_ge i out'.growths with hi | hi
    · exact h.granted i hle hi
    · exact h.growth ▸ h'.granted i hi hlt

/-- An exception behind something that was written. -/
theorem Wrote.refused (h : out.Wrote tokens out') (h' : out'.Refused out'') :
    out.Refused out'' := by
  refine ⟨h.toKept.trans h'.toKept, h'.error, ?_⟩
  rintro ⟨i, hle, hlt, hi⟩
  rcases Nat.lt_or_ge i out'.growths with hlt' | hge
  · exact absurd hi (by simp [h.granted i hle hlt'])
  · exact h'.denied ⟨i, hge, hlt, by rw [h.growth]; exact hi⟩

/-- An exception that has nothing to do with room. -/
theorem refused_raise (out : EncodeOut) {error : EncodeError} (h : error ≠ .circular) :
    out.Refused (out.raise error) :=
  ⟨⟨rfl, Nat.le_refl _, rfl, rfl, rfl⟩, ⟨error, rfl, h⟩,
    fun ⟨_, hle, hlt, _⟩ => absurd hlt (Nat.not_lt.mpr hle)⟩

end EncodeOut

section Writers

variable {out out' : EncodeOut} {tokens tokens' : List OutToken} {r : Bool × EncodeOut}

/-- What comes in front of a value or a closing bracket. -/
def indentTokens (v : Variant) (depth : Nat) (inObj : Bool) : List OutToken :=
  if inObj = false ∧ v.indent ≠ 0 then [.indent depth] else []

/-- A request for room. -/
theorem uBufReserve_attempt (out : EncodeOut) : Attempt out [] out.uBufReserve := by
  rw [EncodeOut.uBufReserve]
  split
  · exact .failed ⟨⟨rfl, Nat.le_succ _, rfl, rfl, rfl⟩, ⟨.noMemory, rfl, nofun⟩, fun _ => rfl⟩
  · next hroom =>
      refine .done ⟨⟨rfl, Nat.le_succ _, rfl, rfl, rfl⟩, rfl, rfl, fun i hle hlt => ?_⟩
      have hi : i = out.growths := Nat.le_antisymm (Nat.le_of_lt_succ hlt) hle
      simpa [hi] using hroom

/-- Whether a request for room is granted is up to the stream. -/
theorem uBufReserve_fst (out : EncodeOut) : out.uBufReserve.1 = !out.growth out.growths := by
  rw [EncodeOut.uBufReserve]
  split <;> simp_all

variable (v : Variant) (depth : Nat) (inObj : Bool) (out)

theorem unicodeIndentWriter_attempt :
    Attempt out (indentTokens v depth inObj) (unicodeIndentWriter v depth inObj out) := by
  rw [unicodeIndentWriter, indentTokens]
  have h := uBufReserve_attempt out
  generalize out.uBufReserve = r at h
  cases h with
  | failed h => exact .failed h
  | done h =>
      refine .done ?_
      show out.Wrote _ (if _ then _ else _)
      split
      · exact h.trans (EncodeOut.wrote_emit _ _)
      · exact h

/-- The indent is all that can fail in front of a number. -/
theorem unicodeIndentWriter_fst :
    (unicodeIndentWriter v depth inObj out).1 = !out.growth out.growths := by
  rw [unicodeIndentWriter, ← uBufReserve_fst]
  rcases out.uBufReserve with ⟨granted, out'⟩
  cases granted <;> rfl

theorem uBufApd_attempt (tokens : List OutToken) :
    Attempt out (indentTokens v depth inObj ++ tokens) (uBufApd v depth inObj out tokens) := by
  rw [uBufApd]
  have h := unicodeIndentWriter_attempt out v depth inObj
  generalize unicodeIndentWriter v depth inObj out = r at h
  cases h with
  | failed h => exact .failed h
  | done h => exact .done (h.trans (EncodeOut.wrote_emit _ _))

theorem uBufApd_fst (tokens : List OutToken) :
    (uBufApd v depth inObj out tokens).1 = !out.growth out.growths := by
  rw [uBufApd, ← unicodeIndentWriter_fst out v depth inObj]
  rcases unicodeIndentWriter v depth inObj out with ⟨granted, out'⟩
  cases granted <;> rfl

/-- The width a `str` asks for is no output. -/
theorem wrote_prepareUnicodeWrite (s : PyStr) : out.Wrote [] (prepareUnicodeWrite v out s) := by
  rw [prepareUnicodeWrite]
  split
  · exact .refl out
  · exact ⟨⟨rfl, Nat.le_refl _, rfl, rfl, rfl⟩, rfl, rfl,
      fun _ hle hlt => absurd hlt (Nat.not_lt.mpr hle)⟩

theorem writeStr_attempt (s : PyStr) : Attempt out tokens (writeStr v out s tokens) := by
  rw [writeStr]
  split
  · exact .failed (EncodeOut.refused_raise _ nofun)
  · exact .done (EncodeOut.wrote_emit _ _)

variable {out} in
/-- A writer behind something that was written. -/
theorem EncodeOut.Wrote.attempt (h : out.Wrote tokens out') (h' : Attempt out' tokens' r) :
    Attempt out (tokens ++ tokens') r := by
  cases h' with
  | done h' => exact .done (h.trans h')
  | failed h' => exact .failed (h.refused h')

theorem uBufApdStr_attempt (s : PyStr) (compact : Bool) :
    Attempt out (indentTokens v depth inObj ++ [.scalar (.str s compact), .comma])
      (uBufApdStr v depth inObj out s compact) := by
  rw [uBufApdStr]
  have h := (wrote_prepareUnicodeWrite out v s).attempt
    (unicodeIndentWriter_attempt (prepareUnicodeWrite v out s) v depth inObj)
  generalize unicodeIndentWriter v depth inObj (prepareUnicodeWrite v out s) = r at h
  cases h with
  | failed h => exact .failed h
  | done h => exact h.attempt (writeStr_attempt _ v s)

theorem uBufApdKey_attempt (s : PyStr) :
    Attempt out (indentTokens v depth false ++ [.key s]) (uBufApdKey v depth out s) := by
  rw [uBufApdKey]
  have h := (wrote_prepareUnicodeWrite out v s).attempt
    (unicodeIndentWriter_attempt (prepareUnicodeWrite v out s) v depth false)
  generalize unicodeIndentWriter v depth false (prepareUnicodeWrite v out s) = r at h
  cases h with
  | failed h => exact .failed h
  | done h => exact h.attempt (writeStr_attempt _ v s)

/-- An array that is refused is refused with an exception. -/
theorem uBufApdNdarray_attempt (ucs : Nat) (answer : ArrayStruct) :
    ∃ tokens, (∀ shape, answer.check = .ok shape → tokens = [.array shape, .comma]) ∧
      Attempt out (indentTokens v depth inObj ++ tokens)
        (uBufApdNdarray v depth inObj out ucs answer) := by
  rw [uBufApdNdarray]
  rcases hcheck : answer.check with error | shape
  · exact ⟨[], nofun, .failed (EncodeOut.refused_raise _ nofun)⟩
  · refine ⟨_, fun _ h => by cases h; rfl, ?_⟩
    have h := uBufApd_attempt out v depth inObj [.array shape, .comma]
    dsimp only
    generalize uBufApd v depth inObj out [.array shape, .comma] = r at h
    cases h with
    | failed h => exact .failed h
    | done h =>
        dsimp only
        split
        · simpa using h.attempt (uBufReserve_attempt _)
        · exact .done h

end Writers

/-! ## Values -/

/-- What stands in the output for an object that is written at once. -/
inductive LeafTokens : HeapObj → List OutToken → Prop where
  | scalar (value : Scalar) : LeafTokens (.scalar value) [.scalar value, .comma]
  | array (subclass : Bool) (shape : List Nat) :
      LeafTokens (.scalar (.numpyArray subclass)) [.array shape, .comma]
  | list : LeafTokens (.list []) [.openArr, .closeArr, .comma]
  | tuple : LeafTokens (.tuple []) [.openArr, .closeArr, .comma]
  | dict {entries : List (Option (ObjId × ObjId))} : (HeapObj.dict entries).dictSize = 0 →
      LeafTokens (.dict entries) [.openObj, .closeObj, .comma]

/-- The bracket of an object with items, and the size that is read up to. -/
inductive Opens : HeapObj → OutToken → Nat → Prop where
  | list {items : List ObjId} : items.length ≠ 0 → Opens (.list items) .openArr items.length
  | tuple {items : List ObjId} : items.length ≠ 0 → Opens (.tuple items) .openArr items.length
  | dict {entries : List (Option (ObjId × ObjId))} : (HeapObj.dict entries).dictSize ≠ 0 →
      Opens (.dict entries) .openObj 0

/-- An integer `pylong_to_clong` converts, or one of numpy's. -/
inductive WritableInt : HeapObj → Prop where
  | long {value : Int} : ¬ 2 ^ 64 ≤ value → ¬ value < -2 ^ 63 →
      WritableInt (.scalar (.long value))
  | numpyInt (width : Nat) (value : Int) : WritableInt (.scalar (.numpyInt width value))

/-- Where the machine goes on behind a value. -/
def valueLabel (inObj : Bool) : EncodeLabel := if inObj then .dictPairBegin else .arrValBegin

theorem valueLabel_ne (inObj : Bool) : valueLabel inObj ≠ .start := by cases inObj <;> exact nofun

/-- The state inside of a container that is entered. -/
def EncodeState.entered (inObj : Bool) (s : EncodeState) (listSize : Nat) : EncodeState :=
  let entry := ⟨s.curObj, s.curPos, EncodeMachine.getEncodeCtnType inObj s.isTuple⟩
  let inside := { s.pushCtn entry with curObj := s.val, curPos := 0 }
  match s.heap s.val with
  | .dict _ => { inside with label := .dictPairBegin }
  | .tuple _ => { inside with label := .arrValBegin, listSize, isTuple := true }
  | _ => { inside with label := .arrValBegin, listSize, isTuple := false }

namespace EncodeMachine

variable (v : Variant) (inObj : Bool) (s : EncodeState)

/-- What `encode_process_val` and the `switch` behind it can do. -/
inductive ValOutcome : EncodeTransition → Prop where
  | written (ucs lookups : Nat) {out : EncodeOut} {tokens : List OutToken} {isTuple : Bool} :
      LeafTokens (s.heap s.val) tokens →
      s.out.Wrote (indentTokens v s.depth inObj ++ tokens) out →
      isTuple = s.isTuple ∨ inObj = false ∧ isTuple = !(s.heap s.curObj).isList →
      ValOutcome (.goto { s with label := valueLabel inObj, out, ucs, lookups, isTuple })
  | refused (lookups : Nat) {out : EncodeOut} :
      s.out.Refused out → ValOutcome (fail v { s with out, lookups })
  | unassigned {out : EncodeOut} :
      v.toBytes = false → WritableInt (s.heap s.val) → s.out.growth s.out.growths = true →
      s.out.Refused out → ValOutcome (.undefinedFlag { s with out })
  | lookup :
      s.heap s.val = .scalar (.numpyArray true) →
      ValOutcome (.lookup { s with label := .arrayStruct inObj })
  | circular {out : EncodeOut} {set : PathSet} {bracket : OutToken} {listSize : Nat} :
      Opens (s.heap s.val) bracket listSize →
      s.out.Wrote (indentTokens v s.depth inObj ++ [bracket]) out →
      s.out.growth s.out.growths = false → v.locking = true →
      (s.heap s.val).lockable = true → s.set.khPut s.val = (0, set) →
      ValOutcome (fail v ({ s with out, set }.raise .circular))
  | lock {out : EncodeOut} {set : PathSet} {ret : Int} {bracket : OutToken} {listSize : Nat} :
      Opens (s.heap s.val) bracket listSize →
      s.out.Wrote (indentTokens v s.depth inObj ++ [bracket]) out →
      s.out.growth s.out.growths = false → v.locking = true →
      (s.heap s.val).lockable = true → s.set.khPut s.val = (ret, set) → ret ≠ 0 →
      ValOutcome (.lock s.val { s with out, set, label := .ctnLocked inObj listSize })
  | enter {out : EncodeOut} {bracket : OutToken} {listSize : Nat} :
      Opens (s.heap s.val) bracket listSize →
      s.out.Wrote (indentTokens v s.depth inObj ++ [bracket]) out →
      s.out.growth s.out.growths = false →
      v.locking = false ∨ (s.heap s.val).lockable = false →
      ValOutcome (enterCtn v inObj { s with out } listSize)

variable {v inObj s}

/-- A container is entered unless it is too deep. -/
theorem enterCtn_eq (listSize : Nat) :
    enterCtn v inObj s listSize =
      if s.depth = encodeMaxRecursion then fail v (s.raise .tooNested)
      else .goto (s.entered inObj listSize) := by
  rw [enterCtn, EncodeState.entered]
  split
  · rfl
  · dsimp only [EncodeState.pushCtn]
    cases s.heap s.val <;> rfl

/-- A value that is written at once. -/
theorem ValOutcome.of_checked {tokens : List OutToken} {written : Bool × EncodeOut}
    (hleaf : LeafTokens (s.heap s.val) tokens)
    (h : Attempt s.out (indentTokens v s.depth inObj ++ tokens) written) :
    ValOutcome v inObj s (checked v inObj s written) := by
  cases h with
  | done h => exact .written s.ucs s.lookups hleaf h (.inl rfl)
  | failed h => exact .refused s.lookups h

theorem processStr_outcome {str : PyStr} {compact : Bool}
    (hval : s.heap s.val = .scalar (.str str compact)) :
    ValOutcome v inObj s (processStr v inObj s str compact) := by
  have h := uBufApdStr_attempt s.out v s.depth inObj str compact
  rw [processStr]
  generalize uBufApdStr v s.depth inObj s.out str compact = r at h
  have hleaf : LeafTokens (s.heap s.val) [.scalar (.str str compact), .comma] :=
    hval ▸ LeafTokens.scalar _
  cases h with
  | failed h => exact .refused s.lookups h
  | @done out h =>
      dsimp only
      rw [strFlag]
      split
      · cases inObj with
        | true => exact .written _ s.lookups hleaf h (.inl rfl)
        | false => exact .written _ s.lookups hleaf h (.inr ⟨rfl, rfl⟩)
      · exact .written s.ucs s.lookups hleaf h (.inl rfl)

theorem processInt_outcome {value : Scalar} (hval : s.heap s.val = .scalar value)
    (hint : WritableInt (s.heap s.val)) :
    ValOutcome v inObj s (processInt v inObj s value) := by
  have h := unicodeIndentWriter_attempt s.out v s.depth inObj
  have hfst := unicodeIndentWriter_fst s.out v s.depth inObj
  rw [processInt]
  generalize unicodeIndentWriter v s.depth inObj s.out = r at h hfst
  cases h with
  | done h =>
      have hleaf : LeafTokens (s.heap s.val) [.scalar value, .comma] := hval ▸ .scalar _
      exact .written s.ucs s.lookups hleaf
        (h.trans (EncodeOut.wrote_emit _ _)) (.inl rfl)
  | failed h =>
      dsimp only
      split
      · exact .refused s.lookups h
      · next hbytes => exact .unassigned (by simpa using hbytes) hint (by simpa using hfst) h

theorem processLong_outcome {value : Int} (hval : s.heap s.val = .scalar (.long value)) :
    ValOutcome v inObj s (processLong v inObj s value) := by
  rw [processLong]
  split
  · exact .refused s.lookups (EncodeOut.refused_raise _ nofun)
  · next hbig =>
      split
      · exact .refused s.lookups (EncodeOut.refused_raise _ nofun)
      · next hsmall => exact processInt_outcome hval (hval ▸ .long hbig hsmall)

theorem processArray_outcome {subclass : Bool}
    (hval : s.heap s.val = .scalar (.numpyArray subclass)) :
    ValOutcome v inObj s (processArray v inObj s) := by
  obtain ⟨tokens, htokens, h⟩ :=
    uBufApdNdarray_attempt s.out v s.depth inObj s.ucs (s.answers s.lookups)
  rw [processArray]
  rcases hcheck : (s.answers s.lookups).check with error | shape
  · rw [uBufApdNdarray, hcheck]
    exact .refused _ (EncodeOut.refused_raise _ nofun)
  · rw [htokens shape hcheck] at h
    generalize uBufApdNdarray v s.depth inObj s.out s.ucs (s.answers s.lookups) = r at h
    cases h with
    | done h => exact .written s.ucs _ (hval ▸ LeafTokens.array _ _) h (.inl rfl)
    | failed h => exact .refused _ h

theorem processScalar_outcome {value : Scalar} (hval : s.heap s.val = .scalar value) :
    ValOutcome v inObj s (processScalar v inObj s value) := by
  cases value with
  | str str compact => exact processStr_outcome hval
  | long value => exact processLong_outcome hval
  | numpyInt width value => exact processInt_outcome hval (hval ▸ .numpyInt _ _)
  | bool | numpyBool | none | float | numpyFloat =>
      exact .of_checked (hval ▸ LeafTokens.scalar _) (uBufApd_attempt _ _ _ _ _)
  | numpyArray subclass =>
      cases subclass with
      | true => exact .lookup hval
      | false => exact processArray_outcome hval
  | unknown => exact .refused s.lookups (EncodeOut.refused_raise _ nofun)

/-- A list or a dict behind its bracket. -/
theorem lockThenEnter_outcome {out : EncodeOut} {bracket : OutToken} {listSize : Nat}
    (hopens : Opens (s.heap s.val) bracket listSize) (hlock : (s.heap s.val).lockable = true)
    (hw : s.out.Wrote (indentTokens v s.depth inObj ++ [bracket]) out)
    (hgranted : s.out.growth s.out.growths = false) :
    ValOutcome v inObj s (lockThenEnter v inObj { s with out } listSize) := by
  rw [lockThenEnter]
  split
  · next hv =>
      dsimp only
      rcases hput : s.set.khPut s.val with ⟨ret, set⟩
      by_cases hret : ret = 0
      · subst hret
        exact .circular hopens hw hgranted hv hlock hput
      · have hmatch := ValOutcome.lock hopens hw hgranted hv hlock hput hret
        split
        · next heq => exact absurd (congrArg Prod.fst heq) hret
        · next heq => cases heq; exact hmatch
  · next hv => exact .enter hopens hw hgranted (.inl (by simpa using hv))

/-- `encode_process_val` and the `switch` behind it do one of the things listed. -/
theorem encodeProcessVal_outcome : ValOutcome v inObj s (encodeProcessVal v inObj s) := by
  rw [encodeProcessVal]
  rcases hval : s.heap s.val with value | items | items | entries
  · exact processScalar_outcome hval
  · dsimp only
    rw [processList]
    split
    · next hempty =>
        rw [List.length_eq_zero_iff] at hempty
        exact .of_checked (hval ▸ hempty ▸ .list) (uBufApd_attempt _ _ _ _ _)
    · next hne =>
        have h := uBufApd_attempt s.out v s.depth inObj [.openArr]
        rw [uBufApdArrBegin]
        have hfst := uBufApd_fst s.out v s.depth inObj [.openArr]
        generalize uBufApd v s.depth inObj s.out [.openArr] = r at h hfst
        cases h with
        | done h =>
            have hgranted : s.out.growth s.out.growths = false := by simpa using hfst
            exact lockThenEnter_outcome (hval ▸ .list hne) (hval ▸ rfl) h hgranted
        | failed h => exact .refused s.lookups h
  · dsimp only
    rw [processTuple]
    split
    · next hempty =>
        rw [List.length_eq_zero_iff] at hempty
        exact .of_checked (hval ▸ hempty ▸ .tuple) (uBufApd_attempt _ _ _ _ _)
    · next hne =>
        have h := uBufApd_attempt s.out v s.depth inObj [.openArr]
        rw [uBufApdArrBegin]
        have hfst := uBufApd_fst s.out v s.depth inObj [.openArr]
        generalize uBufApd v s.depth inObj s.out [.openArr] = r at h hfst
        cases h with
        | done h =>
            have hgranted : s.out.growth s.out.growths = false := by simpa using hfst
            exact .enter (hval ▸ .tuple hne) h hgranted (.inr (hval ▸ rfl))
        | failed h => exact .refused s.lookups h
  · dsimp only
    rw [processDict]
    split
    · next hempty => exact .of_checked (hval ▸ .dict hempty) (uBufApd_attempt _ _ _ _ _)
    · next hne =>
        have h := uBufApd_attempt s.out v s.depth inObj [.openObj]
        rw [uBufApdObjBegin]
        have hfst := uBufApd_fst s.out v s.depth inObj [.openObj]
        generalize uBufApd v s.depth inObj s.out [.openObj] = r at h hfst
        cases h with
        | done h =>
            have hgranted : s.out.growth s.out.growths = false := by simpa using hfst
            exact lockThenEnter_outcome (hval ▸ .dict hne) (hval ▸ rfl) h hgranted
        | failed h => exact .refused s.lookups h

/-! ## Keys, ends and the root -/

end EncodeMachine

/-- What a container that ends gives up, where it is locked. -/
def EncodeState.leave (v : Variant) (s : EncodeState) (locked : Bool) : EncodeState :=
  if v.locking ∧ locked then { s with set := s.set.khDel s.curObj }.unlock s.curObj else s

/-- The state behind the container that ended. -/
def EncodeState.resumed (s : EncodeState) : EncodeState :=
  let entry := s.stack s.depth
  let outside := { s with curObj := entry.ctn, curPos := entry.index }
  match entry.type with
  | .dict => { outside with label := .dictPairBegin }
  | .list =>
    { outside with label := .arrValBegin, listSize := (s.heap entry.ctn).size, isTuple := false }
  | .tuple =>
    { outside with label := .arrValBegin, listSize := (s.heap entry.ctn).size, isTuple := true }

/-- The state inside of the root. -/
def EncodeState.rooted (s : EncodeState) : EncodeState :=
  if (s.heap s.curObj).isDict then { s with label := .dictPairBegin, depth := 1 }
  else { s with label := .arrValBegin, depth := 1, isTuple := false }

/-- The output is a block that was allocated for it, and nothing else happened. -/
structure EncodeOut.Allocated (out out' : EncodeOut) : Prop where
  growth : out'.growth = out.growth
  growths : out.growths ≤ out'.growths
  head : out'.head = true
  allocs : out'.allocs = out.allocs + 1
  frees : out'.frees = out.frees
  tokens : out'.tokens = out.tokens
  error : out'.error = out.error
  granted : ∀ i, out.growths ≤ i → i < out'.growths → out.growth i = false

/-- The buffers were not all allocated. -/
structure EncodeOut.Unallocated (out out' : EncodeOut) : Prop where
  growth : out'.growth = out.growth
  growths : out.growths ≤ out'.growths
  head : out'.head = false ∧ out'.allocs = out.allocs ∨
    out'.head = true ∧ out'.allocs = out.allocs + 1
  frees : out'.frees = out.frees
  error : out'.error = some .noMemory

namespace PathSet

variable {set set' : PathSet} {obj : ObjId} {ret : Int}

/-- What `kh_put` can do. -/
theorem khPut_cases (h : set.khPut obj = (ret, set')) :
    set'.insert = set.insert ∧ set'.inserts = set.inserts + 1 ∧
      (ret = -1 ∧ set.insert set.inserts = true ∧ set'.members = set.members ∨
        ret = 0 ∧ set.insert set.inserts = false ∧ obj ∈ set.members ∧
          set'.members = set.members ∨
        ret = 1 ∧ set.insert set.inserts = false ∧ obj ∉ set.members ∧
          set'.members = obj :: set.members) := by
  rw [khPut, request] at h
  cases hroom : set.insert set.inserts with
  | true =>
      simp only [hroom, Bool.not_true, Prod.mk.injEq] at h
      obtain ⟨rfl, rfl⟩ := h
      exact ⟨rfl, rfl, .inl ⟨rfl, rfl, rfl⟩⟩
  | false =>
      simp only [hroom, Bool.not_false] at h
      split at h
      · next hmem =>
          cases h
          exact ⟨rfl, rfl, .inr (.inl ⟨rfl, rfl, hmem, rfl⟩)⟩
      · next hmem =>
          cases h
          exact ⟨rfl, rfl, .inr (.inr ⟨rfl, rfl, hmem, rfl⟩)⟩

end PathSet

namespace EncodeMachine

variable (v : Variant) (s : EncodeState)

/-- What the end of a container can do. -/
inductive EndOutcome (bracket : OutToken) (locked : Bool) : EncodeTransition → Prop where
  | refused {out : EncodeOut} :
      s.out.dropLast.Refused out →
      EndOutcome bracket locked (fail v { s with out, depth := s.depth - 1 })
  | root {out : EncodeOut} :
      s.out.dropLast.Wrote (indentTokens v (s.depth - 1) false ++ [bracket, .comma]) out →
      s.depth - 1 = 0 →
      EndOutcome bracket locked (success v { s with out, depth := s.depth - 1 })
  | inner {out : EncodeOut} :
      s.out.dropLast.Wrote (indentTokens v (s.depth - 1) false ++ [bracket, .comma]) out →
      s.depth - 1 ≠ 0 →
      EndOutcome bracket locked
        (.goto (EncodeState.leave v { s with out, depth := s.depth - 1 } locked).resumed)

/-- What `dict_pair_begin` can do. -/
inductive PairOutcome : EncodeTransition → Prop where
  | key (ucs : Nat) {key val : ObjId} {pos : Nat} {str : PyStr} {compact : Bool}
      {out : EncodeOut} :
      (s.heap s.curObj).dictNext s.curPos = some (key, val, pos) →
      s.heap key = .scalar (.str str compact) →
      s.out.Wrote (indentTokens v s.depth false ++ [.key str]) out →
      PairOutcome (.goto { s with curPos := pos, val, label := .dictKeyDone, out, ucs })
  | refused {key val : ObjId} {pos : Nat} {out : EncodeOut} :
      (s.heap s.curObj).dictNext s.curPos = some (key, val, pos) →
      s.out.Refused out → PairOutcome (fail v { s with curPos := pos, val, out })
  | done {t : EncodeTransition} :
      (s.heap s.curObj).dictNext s.curPos = none → EndOutcome v s .closeObj true t →
      PairOutcome t

/-- What `arr_val_begin` can do. -/
inductive ItemOutcome : EncodeTransition → Prop where
  | value {val : ObjId} {t : EncodeTransition} :
      s.curPos < s.listSize → (s.heap s.curObj).item s.curPos = some val →
      ValOutcome v false { s with curPos := s.curPos + 1, val } t → ItemOutcome t
  | badItem :
      s.curPos < s.listSize → (s.heap s.curObj).item s.curPos = none → ItemOutcome (.badItem s)
  | done {t : EncodeTransition} :
      ¬ s.curPos < s.listSize → EndOutcome v s .closeArr (!s.isTuple) t → ItemOutcome t

/-- The requests in front of the root, where containers are locked, were all granted. -/
structure SetUp (s : EncodeState) (set : PathSet) (out : EncodeOut) : Prop where
  insert : set.insert = s.set.insert
  inserts : set.inserts = s.set.inserts + 2
  khInit : s.set.insert s.set.inserts = false
  khResize : s.set.insert (s.set.inserts + 1) = false
  initUBuf : s.out.growth s.out.growths = false
  ctnStack : s.out.growth (s.out.growths + 1) = false

/-- What the entry can do, up to the first jump. -/
inductive StartOutcome : EncodeTransition → Prop where
  | nullSet (set : PathSet) : StartOutcome (.nullSet { s with set })
  | noSet (set : PathSet) : StartOutcome (.retNull ({ s with set }.raise .noMemory))
  | refused {set : PathSet} {out : EncodeOut} :
      set.members = s.set.members → s.out.Unallocated out →
      StartOutcome (fail v { s with set, out })
  | unsupported {set : PathSet} {out : EncodeOut} :
      set.members = s.set.members → s.out.Allocated out →
      StartOutcome (fail v ({ s with set, out }.raise .unsupportedType))
  | empty (listSize : Nat) {set : PathSet} {out : EncodeOut} {tokens : List OutToken} :
      set.members = s.set.members → s.out.Allocated out → (∀ value, s.heap s.curObj ≠ .scalar value) →
      LeafTokens (s.heap s.curObj) tokens →
      StartOutcome (success v { s with set, out := out.emit tokens, listSize })
  | tuple {set : PathSet} {out : EncodeOut} {items : List ObjId} :
      set.members = s.set.members → s.out.Allocated out → s.heap s.curObj = .tuple items →
      items.length ≠ 0 →
      StartOutcome (.goto { s with set, out := out.emit [.openArr], listSize := items.length,
                                   label := .arrValBegin, depth := 1, isTuple := true })
  | lock (listSize : Nat) {set set' : PathSet} {out : EncodeOut} {bracket : OutToken} {ret : Int}
      {size : Nat} :
      set.members = s.set.members → SetUp s set out → s.out.Allocated out →
      v.locking = true → (s.heap s.curObj).lockable = true → Opens (s.heap s.curObj) bracket size →
      ((s.heap s.curObj).isList = true → listSize = size) →
      set.khPut s.curObj = (ret, set') →
      StartOutcome (.lock s.curObj { s with set := set', toplevel := some s.curObj, listSize,
                                            out := out.emit [bracket], label := .rootLocked })
  | unlocked (listSize : Nat) {set : PathSet} {out : EncodeOut} {bracket : OutToken}
      {size : Nat} :
      set.members = s.set.members → s.out.Allocated out → v.locking = false →
      (s.heap s.curObj).lockable = true → Opens (s.heap s.curObj) bracket size →
      ((s.heap s.curObj).isList = true → listSize = size) →
      StartOutcome (.goto { s with set, listSize, out := out.emit [bracket] }.rooted)

variable {v s}

theorem popCtn_eq (s : EncodeState) : popCtn s = .goto s.resumed := by
  rw [popCtn, EncodeState.resumed]
  cases (s.stack s.depth).type <;> rfl

theorem rootLocked_eq (s : EncodeState) : rootLocked s = .goto s.rooted := by
  rw [rootLocked, EncodeState.rooted]
  split <;> rfl

theorem endCtn_outcome {bracket : OutToken} {locked : Bool} {written : Bool × EncodeOut}
    (h : Attempt s.out.dropLast (indentTokens v (s.depth - 1) false ++ [bracket, .comma]) written) :
    EndOutcome v s bracket locked (endCtn v s locked written) := by
  cases h with
  | failed h => exact .refused h
  | @done out h =>
      rw [endCtn]
      dsimp only
      split
      · next hroot => exact .root h hroot
      · next hinner =>
          have hin := @EndOutcome.inner v s bracket locked out h hinner
          rw [EncodeState.leave] at hin
          split
          · next hlock => rw [if_pos hlock] at hin; rw [popCtn_eq]; exact hin
          · next hlock => rw [if_neg hlock] at hin; rw [popCtn_eq]; exact hin

theorem dictPairBegin_outcome : PairOutcome v s (dictPairBegin v s) := by
  rw [dictPairBegin]
  split
  · next key val pos hnext =>
      dsimp only
      split
      · next str compact hkey =>
          have h := uBufApdKey_attempt s.out v s.depth str
          generalize uBufApdKey v s.depth s.out str = r at h
          cases h with
          | @done out h => exact .key (max s.ucs out.ucsType) hnext hkey h
          | failed h => exact .refused hnext h
      · exact .refused hnext (EncodeOut.refused_raise _ nofun)
  · next hnext => exact .done hnext (endCtn_outcome (uBufApd_attempt _ _ _ _ _))

theorem arrValBegin_outcome : ItemOutcome v s (arrValBegin v s) := by
  rw [arrValBegin]
  split
  · next hpos =>
      split
      · next hitem => exact .badItem hpos hitem
      · next val hitem => exact .value hpos hitem encodeProcessVal_outcome
  · next hpos => exact .done hpos (endCtn_outcome (uBufApd_attempt _ _ _ _ _))

theorem startRoot_outcome {set : PathSet} {out : EncodeOut} (hset : set.members = s.set.members)
    (hup : v.locking = true → SetUp s set out) (hout : s.out.Allocated out) :
    StartOutcome v s (startRoot v { s with set, out }) := by
  rw [startRoot]
  rcases hobj : s.heap s.curObj with value | items | items | entries
  · exact .unsupported hset hout
  · dsimp only
    split
    · next hempty =>
        rw [List.length_eq_zero_iff] at hempty
        refine .empty 0 hset hout (fun value h => ?_) (hobj ▸ hempty ▸ .list)
        rw [hobj] at h
        cases h
    · next hne =>
        rw [lockRoot]
        split
        · next hv =>
            exact .lock items.length hset (hup hv) hout hv (hobj ▸ rfl) (hobj ▸ .list hne)
              (fun _ => rfl) rfl
        · next hv =>
            rw [rootLocked_eq]
            exact .unlocked items.length hset hout (by simpa using hv) (hobj ▸ rfl)
              (hobj ▸ .list hne) (fun _ => rfl)
  · dsimp only
    split
    · next hempty =>
        rw [List.length_eq_zero_iff] at hempty
        refine .empty 0 hset hout (fun value h => ?_) (hobj ▸ hempty ▸ .tuple)
        rw [hobj] at h
        cases h
    · next hne => exact .tuple hset hout hobj hne
  · have hlist : (s.heap s.curObj).isList = true → s.listSize = 0 := by
      rw [hobj]
      intro h
      cases h
    dsimp only
    split
    · next hempty =>
        refine .empty s.listSize hset hout (fun value h => ?_) (hobj ▸ .dict hempty)
        rw [hobj] at h
        cases h
    · next hne =>
        rw [lockRoot]
        split
        · next hv =>
            exact .lock s.listSize hset (hup hv) hout hv (hobj ▸ rfl) (hobj ▸ .dict hne)
              hlist rfl
        · next hv =>
            rw [rootLocked_eq]
            exact .unlocked s.listSize hset hout (by simpa using hv) (hobj ▸ rfl)
              (hobj ▸ .dict hne) hlist

/-- The first block of the output. -/
theorem initUBuf_cases (out : EncodeOut) :
    (∃ out', out.initUBuf = (true, out') ∧ out.Allocated out' ∧
      out.growth out.growths = false ∧ out'.growths = out.growths + 1) ∨
    ∃ out', out.initUBuf = (false, out') ∧ out.Unallocated out' := by
  rw [EncodeOut.initUBuf, EncodeOut.uBufReserve]
  cases hroom : out.growth out.growths with
  | true =>
      right
      exact ⟨_, rfl, rfl, Nat.le_succ _, .inl ⟨rfl, rfl⟩, rfl, rfl⟩
  | false =>
      left
      refine ⟨_, rfl, ⟨rfl, Nat.le_succ _, rfl, rfl, rfl, rfl, rfl, fun i hle hlt => ?_⟩, rfl, rfl⟩
      have hi : i = out.growths := Nat.le_antisymm (Nat.le_of_lt_succ hlt) hle
      rw [hi]
      exact hroom

/-- The stack is allocated behind the output. -/
theorem initEncodeCtnStack_cases (v : Variant) (out : EncodeOut) :
    (∃ out', initEncodeCtnStack v out = (true, out') ∧ out.Wrote [] out' ∧
      (v.locking = true → out.growth out.growths = false)) ∨
    ∃ out', initEncodeCtnStack v out = (false, out') ∧ out.Kept out' ∧
      out'.error = some .noMemory := by
  have h := uBufReserve_attempt out
  rw [initEncodeCtnStack]
  split
  · next hgil =>
      left
      refine ⟨out, rfl, .refl out, fun hlock => ?_⟩
      rw [Variant.locking, hgil] at hlock
      cases hlock
  · rw [EncodeOut.uBufReserve] at h ⊢
    cases hroom : out.growth out.growths with
    | true =>
        right
        exact ⟨_, rfl, ⟨rfl, Nat.le_succ _, rfl, rfl, rfl⟩, rfl⟩
    | false =>
        left
        simp only [hroom, Bool.false_eq_true, if_false] at h
        cases h with
        | done h => exact ⟨_, rfl, h, fun _ => rfl⟩

theorem startBuffers_outcome {set : PathSet} (hset : set.members = s.set.members)
    (hup : v.locking = true → set.insert = s.set.insert ∧ set.inserts = s.set.inserts + 2 ∧
      s.set.insert s.set.inserts = false ∧ s.set.insert (s.set.inserts + 1) = false) :
    StartOutcome v s (startBuffers v { s with set }) := by
  rw [startBuffers]
  rcases initUBuf_cases s.out with ⟨out, hinit, hout, hroom, hgrowths⟩ | ⟨out, hinit, hout⟩
  · dsimp only
    rw [hinit]
    dsimp only
    rcases initEncodeCtnStack_cases v out with ⟨out', hstack, h, hroom'⟩ | ⟨out', hstack, h, herror⟩
    · rw [hstack]
      refine startRoot_outcome hset (fun hv => ?_) ⟨h.growth.trans hout.growth,
        Nat.le_trans hout.growths h.growths, h.head.trans hout.head, h.allocs.trans hout.allocs,
        h.frees.trans hout.frees, h.tokens.trans hout.tokens, h.error.trans hout.error,
        fun i hle hlt => ?_⟩
      · obtain ⟨h1, h2, h3, h4⟩ := hup hv
        refine ⟨h1, h2, h3, h4, hroom, ?_⟩
        rw [← hgrowths, ← hout.growth]
        exact hroom' hv
      · rcases Nat.lt_or_ge i out.growths with hi | hi
        · exact hout.granted i hle hi
        · exact hout.growth ▸ h.granted i hi hlt
    · rw [hstack]
      exact .refused hset ⟨h.growth.trans hout.growth, Nat.le_trans hout.growths h.growths,
        .inr ⟨h.head.trans hout.head, h.allocs.trans hout.allocs⟩, h.frees.trans hout.frees,
        herror⟩
  · dsimp only
    rw [hinit]
    exact .refused hset hout

/-- The entry of a call does one of the things listed. -/
theorem start_outcome : StartOutcome v s (start v s) := by
  rw [start]
  split
  · rw [PathSet.request]
    cases hinit : s.set.insert s.set.inserts with
    | true => exact .nullSet _
    | false =>
        simp only [Bool.not_false, PathSet.request]
        cases hresize : s.set.insert (s.set.inserts + 1) with
        | true => exact .noSet _
        | false => exact startBuffers_outcome rfl fun _ => ⟨rfl, rfl, hinit, hresize⟩
  · next hv => exact @startBuffers_outcome v s s.set rfl fun hlock => absurd hlock hv

/-! ## The objects

No step changes an object. -/

theorem foldl_unlock_heap (members : List ObjId) (s : EncodeState) :
    (members.foldl EncodeState.unlock s).heap = s.heap := by
  induction members generalizing s with
  | nil => rfl
  | cons obj members ih => exact ih (s.unlock obj)

theorem fail_heap : (fail v s).state.heap = s.heap := by
  rw [fail]
  split
  · exact foldl_unlock_heap s.set.members s
  · rfl

theorem success_heap : (success v s).state.heap = s.heap := by
  rw [success]
  split
  · exact fail_heap
  · split
    · cases s.toplevel <;> rfl
    · rfl

theorem entered_heap (inObj : Bool) (listSize : Nat) :
    (s.entered inObj listSize).heap = s.heap := by
  rw [EncodeState.entered]
  cases s.heap s.val <;> rfl

theorem enterCtn_heap (inObj : Bool) (listSize : Nat) :
    (enterCtn v inObj s listSize).state.heap = s.heap := by
  rw [enterCtn_eq]
  split
  · exact fail_heap
  · exact entered_heap _ _

theorem ValOutcome.heap {inObj : Bool} {t : EncodeTransition} (h : ValOutcome v inObj s t) :
    t.state.heap = s.heap := by
  cases h with
  | written | unassigned | lookup | lock => rfl
  | refused | circular => exact fail_heap
  | enter => exact enterCtn_heap _ _

theorem EndOutcome.heap {bracket : OutToken} {locked : Bool} {t : EncodeTransition}
    (h : EndOutcome v s bracket locked t) : t.state.heap = s.heap := by
  cases h with
  | refused => exact fail_heap
  | root => exact success_heap
  | inner hw hdepth =>
      rw [EncodeState.leave]
      split <;> (rw [EncodeTransition.state, EncodeState.resumed]; split <;> rfl)

theorem step_heap : (step v s).state.heap = s.heap := by
  rw [step]
  cases s.label with
  | start =>
      have h := @start_outcome v s
      show (start v s).state.heap = s.heap
      generalize start v s = t at h
      cases h with
      | nullSet | noSet | tuple | lock => rfl
      | refused | unsupported => exact fail_heap
      | empty => exact success_heap
      | unlocked =>
          rw [EncodeTransition.state, EncodeState.rooted]
          split <;> rfl
  | rootLocked =>
      dsimp only
      rw [rootLocked_eq, EncodeTransition.state, EncodeState.rooted]
      split <;> rfl
  | dictPairBegin =>
      have h := @dictPairBegin_outcome v s
      show (dictPairBegin v s).state.heap = s.heap
      generalize dictPairBegin v s = t at h
      cases h with
      | key => rfl
      | refused => exact fail_heap
      | done hnext hend => exact hend.heap
  | dictKeyDone => exact encodeProcessVal_outcome.heap
  | arrValBegin =>
      have h := @arrValBegin_outcome v s
      show (arrValBegin v s).state.heap = s.heap
      generalize arrValBegin v s = t at h
      cases h with
      | value hpos hitem hval => exact hval.heap
      | badItem => rfl
      | done hpos hend => exact hend.heap
  | ctnLocked inObj listSize => exact enterCtn_heap _ _
  | arrayStruct inObj =>
      dsimp only
      rw [processArray]
      generalize uBufApdNdarray v s.depth inObj s.out s.ucs (s.answers s.lookups) = r
      obtain ⟨written, out⟩ := r
      cases written with
      | false => exact fail_heap
      | true => rfl

/-! ## The value a step comes to -/

/-- The value the machine comes to at a label. -/
def valueAt (s : EncodeState) : Option (Bool × ObjId) :=
  match s.label with
  | .dictKeyDone => some (true, s.val)
  | .arrValBegin =>
    if s.curPos < s.listSize then ((s.heap s.curObj).item s.curPos).map (false, ·) else none
  | _ => none

/-- The state in which the value is encoded. -/
theorem step_valueAt {inObj : Bool} {val : ObjId} (h : valueAt s = some (inObj, val)) :
    ∃ pos, step v s = encodeProcessVal v inObj { s with curPos := pos, val } := by
  rw [valueAt] at h
  split at h
  · next hlabel =>
      cases h
      have hstep : step v s = encodeProcessVal v true s := by rw [step, hlabel]
      exact ⟨s.curPos, hstep⟩
  · next hlabel =>
      split at h
      · next hpos =>
          obtain ⟨item, hitem, heq⟩ := Option.map_eq_some_iff.mp h
          cases heq
          have hstep : step v s = arrValBegin v s := by rw [step, hlabel]
          exact ⟨s.curPos + 1, by rw [hstep, arrValBegin, if_pos hpos, hitem]⟩
      · cases h
  · cases h

end EncodeMachine

end SsrJson.Encode
