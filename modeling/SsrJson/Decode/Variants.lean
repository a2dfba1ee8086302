import SsrJson.Decode.Entry
import SsrJson.Decode.RootAction

/-!
# The pretty and the minified variant

The two variants of a root function skip white space at different moments. `settle` is where the
white space at a cursor ends, and `Readers.plain` a reader that skips only where it has to. A step
of either variant skips white space at its label, or does what the plain step does at the settled
cursor (`step_settled`). So both reach the same end with the same objects and the same state of the
interpreter, whatever the heuristic guessed.
-/

namespace SsrJson.Decode

open Spec

variable {src : Source} {cur cur' : Nat}

/-! ## Settled cursors -/

/-- The first unit from the cursor on that is no white space. -/
def settle (src : Source) (cur : Nat) : Nat := skipSpaces src (src.len - cur) cur

theorem settle_skips (hle : cur ≤ src.len) : Skips src cur (settle src cur) :=
  skipSpaces_skips _ hle

theorem settle_stops (hle : cur ≤ src.len) : isWs (src.read (settle src cur)) = false :=
  skipSpaces_stops hle (Nat.le_refl _)

/-- A cursor in front of no white space is settled. -/
theorem settle_eq (h : isWs (src.read cur) = false) : settle src cur = cur := by
  unfold settle
  generalize src.len - cur = fuel
  cases fuel with
  | zero => rfl
  | succ fuel => rw [skipSpaces, wrappedCharIsSpace_eq, h, if_neg Bool.false_ne_true]

theorem noWs_rest (hle : cur ≤ src.len) (h : isWs (src.read cur) = false) :
    NoWs (src.rest cur) := by
  intro c hc
  rw [← Source.read_of_head hle hc]
  exact h

/-- White space ends in one place. -/
theorem Skips.settle_eq (h : Skips src cur cur') (hle : cur ≤ src.len) :
    settle src cur = settle src cur' := by
  have hskip := settle_skips hle
  have hskip' := h.trans (settle_skips h.bound)
  have hrest : src.rest (settle src cur) = src.rest (settle src cur') :=
    hskip.ws.unique (noWs_rest hskip.bound (settle_stops hle)) hskip'.ws
      (noWs_rest hskip'.bound (settle_stops h.bound))
  rw [Source.pos_of_rest hskip.bound, Source.pos_of_rest hskip'.bound, hrest]

@[simp] theorem settle_settle : settle src (settle src cur) = settle src cur := by
  rcases Nat.le_total cur src.len with hle | hge
  · exact SsrJson.Decode.settle_eq (settle_stops hle)
  · have hself : settle src cur = cur := by
      rw [settle, Nat.sub_eq_zero_of_le hge]
      rfl
    rw [hself, hself]

/-! ## Settled states, actions and transitions -/

variable {σ Obj : Type}

/-- Where the cursor of a label counts. In front of the labels that read nothing it stands right
behind a bracket. -/
def settleAt (src : Source) (label : Label) (cur : Nat) : Nat :=
  if labelRank label = 1 then cur else settle src cur

/-- A state up to the white space under its cursor. -/
def RootState.settle (src : Source) (s : RootState σ Obj) : RootState σ Obj :=
  { s with cur := settleAt src s.label s.cur }

/-- An action up to the white space it leaves under the cursor. -/
def RootAction.settle (src : Source) : RootAction → RootAction
  | .jump label cur => .jump label (settleAt src label cur)
  | .openCtn isArr cur => .openCtn isArr (SsrJson.Decode.settle src cur)
  | .close isArr cur => .close isArr (SsrJson.Decode.settle src cur)
  | action => action

/-- A transition up to the white space under the cursor of the state it leads to. -/
def Transition.settle (src : Source) : Transition σ Obj → Transition σ Obj
  | .goto s => .goto (s.settle src)
  | .callHook obj rt resume => .callHook obj rt fun answer rt => (resume answer rt).settle src
  | .fail error s => .fail error s
  | .ret obj s => .ret obj s

@[simp] theorem settleAt_settleAt {label : Label} :
    settleAt src label (settleAt src label cur) = settleAt src label cur := by
  unfold settleAt
  split
  · rfl
  · exact settle_settle

@[simp] theorem settleAt_settle {label : Label} (h : labelRank label = 0) :
    settleAt src label (settle src cur) = settleAt src label cur := by
  rw [settleAt, settleAt, if_neg (by omega), if_neg (by omega), settle_settle]

namespace Root

variable {ops : ObjectOps σ Obj} {hooks : Hooks} {s : RootState σ Obj}

theorem enterOuter_settle {outer : List Ctn} {obj : Obj} :
    (enterOuter ops outer (settle src cur) obj s).settle src =
      (enterOuter ops outer cur obj s).settle src := by
  unfold enterOuter
  rcases ops.push obj s.objs.length s.rt with ⟨_ | _, rt⟩
  · rfl
  · cases outer with
    | nil => rfl
    | cons c outer =>
        have hrank : labelRank (if c.isArr then .arrValEnd else .objValEnd) = 0 := by
          split <;> rfl
        simp only [Transition.settle, RootState.settle, settleAt_settle hrank]

/-- White space an action leaves under the cursor does not matter. -/
theorem perform_settle (action : RootAction) :
    (perform ops hooks s (action.settle src)).settle src =
      (perform ops hooks s action).settle src := by
  cases action with
  | jump label cur =>
      simp only [RootAction.settle, perform, Transition.settle, RootState.settle,
        settleAt_settleAt]
  | openCtn isArr cur =>
      have hrank : labelRank (if isArr then .arrValBegin else .objKeyBegin) = 0 := by
        split <;> rfl
      simp only [RootAction.settle, perform]
      split
      · simp only [Transition.settle, RootState.settle, settleAt_settle hrank]
      · rfl
  | close isArr cur =>
      simp only [RootAction.settle, perform, performClose]
      rcases buildCtn ops isArr (ctnLen s) s.objs s.rt with ⟨_ | obj, objs, rt⟩
      · rfl
      · dsimp only
        split
        · simp only [Transition.settle]
          congr 1
          funext answer rt
          cases answer with
          | none => rfl
          | some obj => exact enterOuter_settle
        · exact enterOuter_settle
  | scalar | null | key | finish | fail => rfl

/-- The cursor of a state matters to the actions of the labels that read nothing only. -/
theorem perform_cur {action : RootAction} (hfits : action.FitsLabel s.label)
    (hrank : labelRank s.label = 0) :
    perform ops hooks { s with cur } action = perform ops hooks s action := by
  cases action with
  | openCtn isArr =>
      rw [show s.label = if isArr then .arrBegin else .objBegin from hfits] at hrank
      cases isArr <;> cases hrank
  | close isArr =>
      rw [show s.label = if isArr then .arrEnd else .objEnd from hfits] at hrank
      cases isArr <;> cases hrank
  | jump | scalar | null | key | finish | fail => rfl

end Root

/-! ## Steps of a variant -/

/-- The reader that skips white space only where it has to. -/
def Readers.plain (readers : Readers) : Readers :=
  { readers with pretty := false, match2 := fun _ _ _ _ => false }

namespace Root

variable {readers : Readers} {enc : Nat → Option (List Nat)} {numVal : List Nat → Num}
  (spec : ReadersSpec readers enc numVal src) (hle : cur ≤ src.len)

/-- Going on at the same label behind white space. -/
def Skipping (src : Source) (label : Label) (cur : Nat) (action : RootAction) : Prop :=
  ∃ cur', action = .jump label cur' ∧ Skips src cur cur' ∧ cur < cur'

theorem Skipping.of_skips {label : Label} {cur₁ : Nat} {action : RootAction}
    (hskip : Skips src cur cur₁) (h : Skipping src label cur₁ action) :
    Skipping src label cur action := by
  obtain ⟨cur', haction, hskip', hlt⟩ := h
  exact ⟨cur', haction, hskip.trans hskip', by have := hskip.le; omega⟩

/-- A step of a variant: it skips white space, or does what the plain reader does behind it. -/
def Settles (readers : Readers) (src : Source) (label : Label) (len cur : Nat) : Prop :=
  Skipping src label cur (readAction readers src label len cur) ∨
    (readAction readers src label len cur).settle src =
      (readAction readers.plain src label len (settleAt src label cur)).settle src

theorem separatorTail_cases (readers : Readers) :
    separatorTail readers = 0x0A ∨ separatorTail readers = 0x20 := by
  unfold separatorTail
  split <;> simp

include spec hle

/-- A separator of two characters that a variant takes at once. -/
theorem separator_settled {first : Nat} {second : Nat} (hfirst : first ≠ 0)
    (hsecond : second = 0x0A ∨ second = 0x20) (hmatch : readers.match2 src cur first second = true) :
    src.read cur = first ∧ settle src (cur + 2) = settle src (cur + 1) := by
  have hrest := spec.match2 cur first second hle hfirst (by omega) hmatch
  obtain ⟨hlt, hread, hrest'⟩ := Source.rest_cons hrest
  obtain ⟨-, hread', -⟩ := Source.rest_cons hrest'
  refine ⟨hread, ((Skips.one hlt ?_).settle_eq hlt).symm⟩
  rw [hread', isWs_iff]
  omega

theorem arrValBegin_settled {len : Nat} : Settles readers src .arrValBegin len cur := by
  have hskip := prettySkip_skips spec hle
  show Skipping src _ cur (arrValAction readers src len (prettySkip readers src cur)) ∨ _
  cases hws : wrappedCharIsSpace (src.read (prettySkip readers src cur)) with
  | true =>
      have hspace := isWs_iff.mp ((wrappedCharIsSpace_eq _).symm.trans hws)
      refine .inl (Skipping.of_skips hskip ?_)
      obtain ⟨hskip', hlt⟩ := skipConsecutiveSpaces_skips hskip.bound hws
      refine ⟨_, ?_, hskip', hlt⟩
      have hnumber : ¬ charIsNumber (src.read (prettySkip readers src cur)) = true := by
        rw [charIsNumber_iff, isDigit_iff]
        omega
      unfold arrValAction
      dsimp only
      rw [if_neg (by omega), if_neg (by omega), if_neg (fun h => hnumber h.2), if_neg (by omega),
        if_neg (by omega), if_neg (by omega), if_neg (by omega), if_neg (by omega), if_pos hws]
  | false =>
      rw [wrappedCharIsSpace_eq] at hws
      refine .inr ?_
      show RootAction.settle src (arrValAction readers src len (prettySkip readers src cur)) =
        RootAction.settle src (arrValAction readers.plain src len
          (prettySkip readers.plain src (settle src cur)))
      rw [hskip.settle_eq hle, settle_eq hws]
      rfl

theorem objKeyBegin_settled {len : Nat} : Settles readers src .objKeyBegin len cur := by
  have hskip := prettySkip_skips spec hle
  show Skipping src _ cur (objKeyAction readers src len (prettySkip readers src cur)) ∨ _
  cases hws : wrappedCharIsSpace (src.read (prettySkip readers src cur)) with
  | true =>
      have hspace := isWs_iff.mp ((wrappedCharIsSpace_eq _).symm.trans hws)
      refine .inl (Skipping.of_skips hskip ?_)
      obtain ⟨hskip', hlt⟩ := skipConsecutiveSpaces_skips hskip.bound hws
      refine ⟨_, ?_, hskip', hlt⟩
      unfold objKeyAction
      dsimp only
      rw [if_neg (by omega), if_neg (by omega), if_pos hws]
  | false =>
      rw [wrappedCharIsSpace_eq] at hws
      refine .inr ?_
      show RootAction.settle src (objKeyAction readers src len (prettySkip readers src cur)) =
        RootAction.settle src (objKeyAction readers.plain src len
          (prettySkip readers.plain src (settle src cur)))
      rw [hskip.settle_eq hle, settle_eq hws]
      rfl

theorem objValBegin_settled {len : Nat} : Settles readers src .objValBegin len cur := by
  cases hws : wrappedCharIsSpace (src.read cur) with
  | true =>
      have hspace := isWs_iff.mp ((wrappedCharIsSpace_eq _).symm.trans hws)
      have hone := Skips.one hle ((wrappedCharIsSpace_eq _).symm.trans hws)
      have hskip := hone.trans (prettySkip_skips spec hone.bound)
      have hlt := (prettySkip_skips spec hone.bound).le
      have hnumber : ¬ charIsNumber (src.read cur) = true := by
        rw [charIsNumber_iff, isDigit_iff]
        omega
      refine .inl ?_
      show Skipping src _ cur (objValAction readers src cur)
      unfold objValAction
      dsimp only
      rw [if_neg (by omega), if_neg hnumber, if_neg (by omega), if_neg (by omega),
        if_neg (by omega), if_neg (by omega), if_neg (by omega), if_pos hws]
      refine ⟨_, rfl, ?_⟩
      split
      · rename_i hws'
        obtain ⟨hskip', hlt'⟩ := skipConsecutiveSpaces_skips hskip.bound hws'
        exact ⟨hskip.trans hskip', by omega⟩
      · exact ⟨hskip, hlt⟩
  | false =>
      refine .inr ?_
      have hsettled : settle src cur = cur := settle_eq ((wrappedCharIsSpace_eq _).symm.trans hws)
      show RootAction.settle src (objValAction readers src cur) =
        RootAction.settle src (objValAction readers.plain src (settle src cur))
      rw [hsettled]
      unfold objValAction
      dsimp only
      rw [hws]
      rfl

/-- The labels that look for a separator: two characters at once, the separator alone, or `other`,
which skips white space. The plain reader has `other'` there. -/
theorem separator_settles {first second : Nat} {label next : Label} {other other' : RootAction}
    (hfirst : first ≠ 0 ∧ isWs first = false) (hsecond : second = 0x0A ∨ second = 0x20)
    (hrank : labelRank next = 0)
    (hskips : wrappedCharIsSpace (src.read cur) = true →
      other = .jump label (slowSkip readers src cur))
    (hsame : wrappedCharIsSpace (src.read cur) = false → other = other') :
    Skipping src label cur
      (if readers.match2 src cur first second then .jump next (cur + 2)
        else if src.read cur = first then .jump next (cur + 1) else other) ∨
    settle src cur = cur ∧
      RootAction.settle src (if readers.match2 src cur first second then .jump next (cur + 2)
        else if src.read cur = first then .jump next (cur + 1) else other) =
      RootAction.settle src (if src.read cur = first then .jump next (cur + 1) else other') := by
  cases hmatch : readers.match2 src cur first second with
  | true =>
      obtain ⟨hread, hsettle⟩ := separator_settled spec hle hfirst.1 hsecond hmatch
      refine .inr ⟨settle_eq (hread ▸ hfirst.2), ?_⟩
      rw [if_pos rfl, if_pos hread, RootAction.settle, RootAction.settle, settleAt, settleAt,
        if_neg (by omega), if_neg (by omega), hsettle]
  | false =>
      cases hws : wrappedCharIsSpace (src.read cur) with
      | true =>
          have hspace := (wrappedCharIsSpace_eq _).symm.trans hws
          obtain ⟨hskip, hlt⟩ := slowSkip_skips spec hle hws
          have hne : src.read cur ≠ first := by
            rintro rfl
            rw [hspace] at hfirst
            exact Bool.noConfusion hfirst.2
          refine .inl ⟨_, ?_, hskip, hlt⟩
          rw [if_neg Bool.false_ne_true, if_neg hne, hskips hws]
      | false =>
          refine .inr ⟨settle_eq ((wrappedCharIsSpace_eq _).symm.trans hws), ?_⟩
          rw [if_neg Bool.false_ne_true, hsame hws]

theorem arrValEnd_settled {len : Nat} : Settles readers src .arrValEnd len cur := by
  rcases @separator_settles src cur readers enc numVal spec hle 0x2C (separatorTail readers)
    .arrValEnd .arrValBegin
    (if src.read cur = 0x5D then .jump .arrEnd (cur + 1)
      else if wrappedCharIsSpace (src.read cur) then .jump .arrValEnd (slowSkip readers src cur)
      else .fail .characterArrEnd cur)
    (if src.read cur = 0x5D then .jump .arrEnd (cur + 1)
      else if wrappedCharIsSpace (src.read cur) then
        .jump .arrValEnd (slowSkip readers.plain src cur)
      else .fail .characterArrEnd cur)
    (by decide) (separatorTail_cases readers) rfl
    (fun hws => by
      have hspace := isWs_iff.mp ((wrappedCharIsSpace_eq _).symm.trans hws)
      rw [if_neg (by omega), if_pos hws])
    (fun hws => by rw [hws]; rfl) with hskip | ⟨hsettled, haction⟩
  · exact .inl hskip
  · refine .inr (haction.trans ?_)
    show _ = RootAction.settle src (arrSepAction readers.plain src (settle src cur))
    rw [hsettled]
    rfl

theorem objKeyEnd_settled {len : Nat} : Settles readers src .objKeyEnd len cur := by
  rcases @separator_settles src cur readers enc numVal spec hle 0x3A 0x20 .objKeyEnd .objValBegin
    (if wrappedCharIsSpace (src.read cur) then .jump .objKeyEnd (slowSkip readers src cur)
      else .fail .characterObjSep cur)
    (if wrappedCharIsSpace (src.read cur) then .jump .objKeyEnd (slowSkip readers.plain src cur)
      else .fail .characterObjSep cur)
    (by decide) (.inr rfl) rfl (fun hws => if_pos hws)
    (fun hws => by rw [hws]; rfl) with hskip | ⟨hsettled, haction⟩
  · exact .inl hskip
  · refine .inr (haction.trans ?_)
    show _ = RootAction.settle src (colonAction readers.plain src (settle src cur))
    rw [hsettled]
    rfl

theorem objValEnd_settled {len : Nat} : Settles readers src .objValEnd len cur := by
  rcases @separator_settles src cur readers enc numVal spec hle 0x2C (separatorTail readers)
    .objValEnd .objKeyBegin
    (if src.read cur = 0x7D then .jump .objEnd (cur + 1)
      else if wrappedCharIsSpace (src.read cur) then .jump .objValEnd (slowSkip readers src cur)
      else .fail .characterObjEnd cur)
    (if src.read cur = 0x7D then .jump .objEnd (cur + 1)
      else if wrappedCharIsSpace (src.read cur) then
        .jump .objValEnd (slowSkip readers.plain src cur)
      else .fail .characterObjEnd cur)
    (by decide) (separatorTail_cases readers) rfl
    (fun hws => by
      have hspace := isWs_iff.mp ((wrappedCharIsSpace_eq _).symm.trans hws)
      rw [if_neg (by omega), if_pos hws])
    (fun hws => by rw [hws]; rfl) with hskip | ⟨hsettled, haction⟩
  · exact .inl hskip
  · refine .inr (haction.trans ?_)
    show _ = RootAction.settle src (objSepAction readers.plain src (settle src cur))
    rw [hsettled]
    rfl

theorem docEnd_settled {len : Nat} : Settles readers src .docEnd len cur := by
  refine .inr (congrArg (RootAction.settle src) ?_)
  show docAction readers src cur = docAction readers.plain src (settle src cur)
  rcases Nat.lt_or_eq_of_le hle with hlt | rfl
  · obtain ⟨hskip, hstop⟩ := spacesThenWs_skips spec hle
    have hsettled : spacesThenWs readers src cur = settle src cur := by
      rw [hskip.settle_eq hle, settle_eq hstop]
    have hplain : spacesThenWs readers.plain src (settle src cur) = settle src cur := by
      have hws := settle_stops hle
      have hspace := mt isWs_iff.mpr (Bool.not_eq_true _ ▸ hws)
      unfold spacesThenWs
      rw [if_neg (show src.read (settle src cur) ≠ 0x20 by omega)]
      dsimp only
      rw [wrappedCharIsSpace_eq, hws]
      rfl
    unfold docAction
    dsimp only
    rw [if_pos hlt, hsettled, hplain]
    split <;> rfl
  · have hsettled : settle src src.len = src.len := settle_eq (by rw [Source.read_len]; rfl)
    rw [hsettled]
    unfold docAction
    rw [if_neg (Nat.lt_irrefl _), if_neg (Nat.lt_irrefl _)]

/-- What a variant reads at a label. -/
theorem readAction_settles (label : Label) (len : Nat) : Settles readers src label len cur := by
  have hskip := (@skipReturn_skips readers _ _ hle).settle_eq hle
  cases label with
  | arrBegin => exact .inr (congrArg (RootAction.openCtn true) hskip.symm)
  | arrValBegin => exact arrValBegin_settled spec hle
  | arrValEnd => exact arrValEnd_settled spec hle
  | arrEnd => exact .inr (congrArg (RootAction.close true) hskip.symm)
  | objBegin => exact .inr (congrArg (RootAction.openCtn false) hskip.symm)
  | objKeyBegin => exact objKeyBegin_settled spec hle
  | objKeyEnd => exact objKeyEnd_settled spec hle
  | objValBegin => exact objValBegin_settled spec hle
  | objValEnd => exact objValEnd_settled spec hle
  | objEnd => exact .inr (congrArg (RootAction.close false) hskip.symm)
  | docEnd => exact docEnd_settled spec hle

end Root

/-! ## Progress -/

/-- An action leaves its cursor further on in the text. -/
def RootAction.Moves (src : Source) (cur : Nat) : RootAction → Prop
  | .jump _ cur' | .scalar _ _ _ cur' | .key _ cur' => cur < cur' ∧ cur' ≤ src.len
  | .null _ nan cur' =>
    (cur < cur' ∧ cur' ≤ src.len) ∧ (nan.1 = true → cur < nan.2 ∧ nan.2 ≤ src.len)
  | .openCtn _ cur' | .close _ cur' => cur ≤ cur' ∧ cur' ≤ src.len
  | .finish _ | .fail _ _ => True

namespace Root

section Progress

variable {readers : Readers} {enc : Nat → Option (List Nat)} {numVal : List Nat → Num}

theorem Moves.of_le {action : RootAction} (hle : cur ≤ cur') (h : action.Moves src cur') :
    action.Moves src cur := by
  cases action with
  | jump | scalar | key | openCtn | close => exact ⟨by have := h.1; omega, h.2⟩
  | null => exact ⟨⟨by have := h.1.1; omega, h.1.2⟩, fun hnan => ⟨by have := (h.2 hnan).1; omega,
      (h.2 hnan).2⟩⟩
  | finish | fail => trivial

/-- The bracket or the letter under the cursor is inside the text. -/
theorem moves_char {c : Nat} (label : Label) (hle : cur ≤ src.len) (h : src.read cur = c)
    (hc : c ≠ 0) : (RootAction.jump label (cur + 1)).Moves src cur :=
  ⟨Nat.lt_succ_self _, Source.lt_of_read hle (h ▸ hc)⟩

theorem numberAction_moves (spec : ReadersSpec readers enc numVal src) (hle : cur ≤ src.len)
    (hnumber : charIsNumber (src.read cur) = true) (next : Label) :
    (numberAction readers src next cur).Moves src cur := by
  have htoken := spec.number cur hle hnumber
  unfold numberAction
  generalize readers.loadsNumber src cur = result at htoken ⊢
  obtain ⟨_ | num, cur'⟩ := result
  · trivial
  · obtain ⟨hlt, hbound, -⟩ := htoken.found num rfl
    exact ⟨hlt, hbound⟩

theorem string_moves (spec : ReadersSpec readers enc numVal src) (hle : cur ≤ src.len)
    (hquote : src.read cur = 0x22) (isKey : Bool) {made : Made} {cur' : Nat}
    (h : readers.loadsString isKey src cur = (some made, cur')) : cur < cur' ∧ cur' ≤ src.len := by
  have htoken := spec.string isKey cur hle hquote
  rw [h] at htoken
  obtain ⟨hlt, hbound, -⟩ := htoken.found made.str rfl
  exact ⟨hlt, hbound⟩

theorem stringAction_moves (spec : ReadersSpec readers enc numVal src) (hle : cur ≤ src.len)
    (hquote : src.read cur = 0x22) (next : Label) :
    (stringAction readers src next cur).Moves src cur := by
  have hmoves := fun made cur' => @string_moves src cur readers enc numVal spec hle hquote false
    made cur'
  unfold stringAction
  generalize readers.loadsString false src cur = result at hmoves ⊢
  obtain ⟨_ | made, cur'⟩ := result
  · trivial
  · exact hmoves made cur' rfl

theorem keyAction_moves (spec : ReadersSpec readers enc numVal src) (hle : cur ≤ src.len)
    (hquote : src.read cur = 0x22) : (keyAction readers src cur).Moves src cur := by
  have hmoves := fun made cur' => @string_moves src cur readers enc numVal spec hle hquote true
    made cur'
  unfold keyAction
  generalize readers.loadsString true src cur = result at hmoves ⊢
  obtain ⟨_ | made, cur'⟩ := result
  · trivial
  · exact hmoves made cur' rfl

theorem trueAction_moves (hle : cur ≤ src.len) (next : Label) :
    (trueAction src next cur).Moves src cur := by
  have hspec := readTrue_spec hle
  unfold trueAction
  rcases hspec with ⟨h, hbound, -⟩ | ⟨h, -⟩
  · rw [h]
    exact ⟨by omega, hbound⟩
  · rw [h]
    trivial

theorem falseAction_moves (hle : cur ≤ src.len) (hf : src.read cur = 0x66) (next : Label) :
    (falseAction src next cur).Moves src cur := by
  unfold falseAction
  rcases readFalse_spec hle hf with ⟨h, hbound, -⟩ | ⟨h, -⟩
  · rw [h]
    exact ⟨by omega, hbound⟩
  · rw [h]
    trivial

theorem nullAction_moves (hle : cur ≤ src.len) (next : Label) :
    (nullAction src next cur).Moves src cur := by
  unfold nullAction
  rcases readNull_spec hle with ⟨h, hbound, -⟩ | ⟨h, -⟩
  · rw [h]
    refine ⟨⟨by omega, hbound⟩, fun hnan => ?_⟩
    rcases readNan_spec hbound with ⟨h', hbound', -⟩ | ⟨h', -⟩
    · rw [h']
      exact ⟨by omega, hbound'⟩
    · rw [h'] at hnan
      cases hnan
  · rw [h]
    dsimp only
    rcases readNan_spec hle with ⟨h', hbound', -⟩ | ⟨h', -⟩
    · rw [h']
      exact ⟨by omega, hbound'⟩
    · rw [h']
      trivial

theorem infAction_moves (hle : cur ≤ src.len) (next : Label) :
    (infAction src next cur).Moves src cur := by
  unfold infAction
  rcases loadsInfOrNan_spec false hle with ⟨num, cur', h, hlt, hbound, -⟩ | ⟨h, -⟩
  · rw [h]
    exact ⟨hlt, hbound⟩
  · rw [h]
    trivial

theorem arrValAction_moves (spec : ReadersSpec readers enc numVal src) (hle : cur ≤ src.len)
    (len : Nat) : (arrValAction readers src len cur).Moves src cur := by
  unfold arrValAction
  dsimp only
  split_ifs with hbrace hbracket hnumber hquote ht hf hn hclose hlen hws hinf
  · exact moves_char .objBegin hle hbrace (by decide)
  · exact moves_char .arrBegin hle hbracket (by decide)
  · exact numberAction_moves spec hle hnumber.2 _
  · exact stringAction_moves spec hle hquote _
  · exact trueAction_moves hle _
  · exact falseAction_moves hle hf _
  · exact nullAction_moves hle _
  · exact moves_char .arrEnd hle hclose (by decide)
  · trivial
  · obtain ⟨hskip, hlt⟩ := skipConsecutiveSpaces_skips hle hws
    exact ⟨hlt, hskip.bound⟩
  · exact infAction_moves hle _
  · trivial

theorem objKeyAction_moves (spec : ReadersSpec readers enc numVal src) (hle : cur ≤ src.len)
    (len : Nat) : (objKeyAction readers src len cur).Moves src cur := by
  unfold objKeyAction
  dsimp only
  split_ifs with hquote hclose hlen hws
  · exact keyAction_moves spec hle hquote
  · exact moves_char .objEnd hle hclose (by decide)
  · trivial
  · obtain ⟨hskip, hlt⟩ := skipConsecutiveSpaces_skips hle hws
    exact ⟨hlt, hskip.bound⟩
  · trivial

theorem objValAction_moves (spec : ReadersSpec readers enc numVal src) (hle : cur ≤ src.len) :
    (objValAction readers src cur).Moves src cur := by
  unfold objValAction
  dsimp only
  split_ifs with hquote hnumber hbrace hbracket ht hf hn hws hws' hinf
  · exact stringAction_moves spec hle hquote _
  · exact numberAction_moves spec hle hnumber _
  · exact moves_char .objBegin hle hbrace (by decide)
  · exact moves_char .arrBegin hle hbracket (by decide)
  · exact trueAction_moves hle _
  · exact falseAction_moves hle hf _
  · exact nullAction_moves hle _
  · have hone := Skips.one hle ((wrappedCharIsSpace_eq _).symm.trans hws)
    have hskip := prettySkip_skips spec hone.bound
    obtain ⟨hskip', -⟩ := skipConsecutiveSpaces_skips hskip.bound hws'
    exact ⟨by have := hskip.le; have := hskip'.le; omega, hskip'.bound⟩
  · have hone := Skips.one hle ((wrappedCharIsSpace_eq _).symm.trans hws)
    have hskip := prettySkip_skips spec hone.bound
    exact ⟨hskip.le, hskip.bound⟩
  · exact infAction_moves hle _
  · trivial

/-- The two characters of a separator are inside the text. -/
theorem moves_separator (spec : ReadersSpec readers enc numVal src) (hle : cur ≤ src.len)
    {first second : Nat} (hfirst : first ≠ 0) (hsecond : second ≠ 0) {label : Label}
    (h : readers.match2 src cur first second = true) :
    (RootAction.jump label (cur + 2)).Moves src cur := by
  have hrest := spec.match2 cur first second hle hfirst hsecond h
  have hbound := bound_of_rest (t := [first, second]) hle hrest
  exact ⟨by omega, hbound⟩

theorem separatorTail_ne_zero : separatorTail readers ≠ 0 := by
  rcases separatorTail_cases readers with h | h <;> rw [h] <;> decide

theorem arrSepAction_moves (spec : ReadersSpec readers enc numVal src) (hle : cur ≤ src.len) :
    (arrSepAction readers src cur).Moves src cur := by
  unfold arrSepAction
  dsimp only
  split_ifs with hmatch hcomma hclose hws
  · exact moves_separator spec hle (by decide) separatorTail_ne_zero hmatch
  · exact moves_char .arrValBegin hle hcomma (by decide)
  · exact moves_char .arrEnd hle hclose (by decide)
  · obtain ⟨hskip, hlt⟩ := slowSkip_skips spec hle hws
    exact ⟨hlt, hskip.bound⟩
  · trivial

theorem colonAction_moves (spec : ReadersSpec readers enc numVal src) (hle : cur ≤ src.len) :
    (colonAction readers src cur).Moves src cur := by
  unfold colonAction
  dsimp only
  split_ifs with hmatch hcolon hws
  · exact moves_separator spec hle (by decide) (by decide) hmatch
  · exact moves_char .objValBegin hle hcolon (by decide)
  · obtain ⟨hskip, hlt⟩ := slowSkip_skips spec hle hws
    exact ⟨hlt, hskip.bound⟩
  · trivial

theorem objSepAction_moves (spec : ReadersSpec readers enc numVal src) (hle : cur ≤ src.len) :
    (objSepAction readers src cur).Moves src cur := by
  unfold objSepAction
  dsimp only
  split_ifs with hmatch hcomma hclose hws
  · exact moves_separator spec hle (by decide) separatorTail_ne_zero hmatch
  · exact moves_char .objKeyBegin hle hcomma (by decide)
  · exact moves_char .objEnd hle hclose (by decide)
  · obtain ⟨hskip, hlt⟩ := slowSkip_skips spec hle hws
    exact ⟨hlt, hskip.bound⟩
  · trivial

/-- What the text asks for moves the cursor on, inside the text. -/
theorem readAction_moves (spec : ReadersSpec readers enc numVal src) (hle : cur ≤ src.len)
    (label : Label) (len : Nat) : (readAction readers src label len cur).Moves src cur := by
  have hreturn := @skipReturn_skips readers _ _ hle
  have hpretty := prettySkip_skips spec hle
  cases label with
  | arrBegin | arrEnd | objBegin | objEnd => exact ⟨hreturn.le, hreturn.bound⟩
  | arrValBegin => exact Moves.of_le hpretty.le (arrValAction_moves spec hpretty.bound len)
  | arrValEnd => exact arrSepAction_moves spec hle
  | objKeyBegin => exact Moves.of_le hpretty.le (objKeyAction_moves spec hpretty.bound len)
  | objKeyEnd => exact colonAction_moves spec hle
  | objValBegin => exact objValAction_moves spec hle
  | objValEnd => exact objSepAction_moves spec hle
  | docEnd =>
      show (docAction readers src cur).Moves src cur
      unfold docAction
      dsimp only
      split_ifs <;> trivial

/-- A transition leads further on. -/
def Nearer (src : Source) (s : RootState σ Obj) : Transition σ Obj → Prop
  | .goto s' => distance src s' < distance src s ∧ s'.cur ≤ src.len
  | .callHook _ _ resume => ∀ answer rt, Nearer src s (resume answer rt)
  | .fail _ _ | .ret _ _ => True

variable {ops : ObjectOps σ Obj} {hooks : Hooks} {s : RootState σ Obj}

theorem pushElement_nearer {s' : RootState σ Obj} {next : Label} {error : DecodeError}
    {obj : Option Obj} (hlt : s.cur < s'.cur) (hle : s'.cur ≤ src.len) :
    Nearer src s (pushElement ops next error s' obj) := by
  unfold pushElement
  cases obj with
  | none => trivial
  | some obj =>
      dsimp only
      rcases ops.push obj s'.objs.length s'.rt with ⟨_ | _, rt⟩
      · trivial
      · exact ⟨distance_lt hlt hle, hle⟩

theorem enterOuter_nearer {s' : RootState σ Obj} {outer : List Ctn} {obj : Obj}
    (hcur : s'.cur = s.cur) (hle' : s.cur ≤ src.len) (hle : s.cur ≤ cur) (hbound : cur ≤ src.len)
    (hrank : labelRank s.label = 1) : Nearer src s (enterOuter ops outer cur obj s') := by
  unfold enterOuter
  rcases ops.push obj s'.objs.length s'.rt with ⟨_ | _, rt⟩
  · trivial
  · cases outer with
    | nil => exact ⟨distance_lt_of_rank hcur.symm.le hrank rfl, hcur ▸ hle'⟩
    | cons c outer =>
        refine ⟨distance_lt_of_rank hle hrank ?_, hbound⟩
        dsimp only
        split <;> rfl

/-- Every step gets nearer to the end of the text. -/
theorem perform_nearer {action : RootAction} (hfits : action.FitsLabel s.label)
    (hmoves : action.Moves src s.cur) (hle : s.cur ≤ src.len) :
    Nearer src s (perform ops hooks s action) := by
  cases action with
  | jump label cur => exact ⟨distance_lt hmoves.1 hmoves.2, hmoves.2⟩
  | openCtn isArr cur =>
      rw [perform]
      split
      · refine ⟨distance_lt_of_rank hmoves.1 ?_ ?_, hmoves.2⟩
        · rw [show s.label = if isArr then .arrBegin else .objBegin from hfits]
          split <;> rfl
        · dsimp only
          split <;> rfl
      · trivial
  | scalar scalar next error cur =>
      exact @pushElement_nearer src σ Obj ops s { s with cur, rt := _ } _ _ _ hmoves.1 hmoves.2
  | null next nan cur =>
      rw [perform, performNull]
      dsimp only
      have hpush := @pushElement_nearer src σ Obj ops s
        { s with cur, rt := (ops.none s.rt).2 } next .literalNull (some (ops.none s.rt).1)
        hmoves.1.1 hmoves.1.2
      split
      · rename_i failed _
        obtain ⟨_ | _, cur'⟩ := nan
        · trivial
        · exact @pushElement_nearer src σ Obj ops s { failed with cur := cur', rt := _ } _ _ _
            (hmoves.2 rfl).1 (hmoves.2 rfl).2
      · exact hpush
  | key made cur =>
      rw [perform, performKey]
      dsimp only
      rcases ops.string made s.rt with ⟨_ | obj, rt⟩
      · trivial
      · dsimp only
        rcases ops.push obj s.objs.length rt with ⟨_ | _, rt⟩
        · trivial
        · exact ⟨distance_lt hmoves.1 hmoves.2, hmoves.2⟩
  | close isArr cur =>
      have hrank : labelRank s.label = 1 := by
        rw [show s.label = if isArr then .arrEnd else .objEnd from hfits]
        split <;> rfl
      rw [perform, performClose]
      rcases buildCtn ops isArr (ctnLen s) s.objs s.rt with ⟨_ | obj, objs, rt⟩
      · trivial
      · dsimp only
        split
        · intro answer rt
          cases answer with
          | none => trivial
          | some obj => exact enterOuter_nearer rfl hle hmoves.1 hmoves.2 hrank
        · exact enterOuter_nearer rfl hle hmoves.1 hmoves.2 hrank
  | finish cur =>
      rw [perform, success]
      split <;> trivial
  | fail => trivial

end Progress

/-! ## Runs of two variants -/

section Agree

variable {readers readers' : Readers} {enc : Nat → Option (List Nat)} {numVal : List Nat → Num}
  {ops : ObjectOps σ Obj} {hooks : Hooks} {s s' : RootState σ Obj}

theorem settle_rank (h : labelRank s.label = 1) : s.settle src = s := by
  rw [RootState.settle, settleAt, if_pos h]

/-- A step of a variant skips white space, or is the plain step at the settled cursor. -/
theorem step_settled (ops : ObjectOps σ Obj) (hooks : Hooks)
    (spec : ReadersSpec readers enc numVal src) (hle : s.cur ≤ src.len) :
    (∃ s', step readers ops hooks src s = .goto s' ∧ s'.settle src = s.settle src) ∨
      (step readers ops hooks src s).settle src =
        (step readers.plain ops hooks src (s.settle src)).settle src := by
  rw [step_eq, step_eq]
  have hfits := @readAction_fits readers src s.label (ctnLen s) s.cur
  rcases readAction_settles spec hle s.label (ctnLen s) with ⟨cur', haction, hskip, -⟩ | hsame
  · rw [haction] at hfits ⊢
    have hrank : labelRank s.label ≠ 1 := by
      cases hlabel : s.label <;> rw [hlabel] at hfits <;> first | exact hfits.elim | decide
    refine .inl ⟨_, rfl, ?_⟩
    show { s with cur := settleAt src s.label cur' } = s.settle src
    rw [RootState.settle, settleAt, settleAt, if_neg hrank, if_neg hrank, hskip.settle_eq hle]
  · refine .inr ?_
    have hfits' := @readAction_fits readers.plain src s.label (ctnLen s)
      (settleAt src s.label s.cur)
    rw [← perform_settle, hsame, perform_settle]
    show _ = (perform ops hooks (s.settle src)
      (readAction readers.plain src s.label (ctnLen s) (settleAt src s.label s.cur))).settle src
    rcases Nat.lt_or_eq_of_le (labelRank_le s.label) with hrank | hrank
    · exact congrArg (Transition.settle src) (perform_cur hfits' (by omega)).symm
    · rw [settle_rank hrank]

theorem resolve_settle {hook : Obj → σ → Option Obj × σ} (t : Transition σ Obj) :
    (resolve hook t).settle src = resolve hook (t.settle src) := by
  cases t <;> rfl

theorem Nearer.resolve {hook : Obj → σ → Option Obj × σ} {t : Transition σ Obj}
    (h : Nearer src s t) : Nearer src s (resolve hook t) := by
  cases t with
  | callHook obj rt resume => exact h _ _
  | goto | fail | ret => exact h

/-- A hook that has answered is not asked again. -/
theorem resolve_step {hook : Obj → σ → Option Obj × σ} {obj : Obj} {rt : σ}
    {resume : Option Obj → σ → Transition σ Obj} :
    resolve hook (step readers ops hooks src s) ≠ .callHook obj rt resume := by
  intro h
  rw [step_eq] at h
  cases htrans : perform ops hooks s (readAction readers src s.label (ctnLen s) s.cur) with
  | goto | fail | ret =>
      rw [htrans] at h
      cases h
  | callHook obj' rt' resume' =>
      obtain ⟨isArr, cur, objs, -, -, -, hresume⟩ := perform_callHook htrans
      rw [htrans] at h
      change resume' (hook obj' rt').1 (hook obj' rt').2 = _ at h
      rw [hresume] at h
      generalize hook obj' rt' = answered at h
      obtain ⟨_ | result, rt''⟩ := answered
      · cases h
      · have hplain := @enterOuter_plain σ Obj ops
          { s with objs, rt := ops.decref obj' rt'' } s.ctn.tail cur result
        change enterOuter ops s.ctn.tail cur result _ = _ at h
        rw [h] at hplain
        exact hplain.elim

/-- From states that agree up to white space two variants reach the same end. -/
theorem run_agrees (spec : ReadersSpec readers enc numVal src)
    (spec' : ReadersSpec readers' enc numVal src) (hplain : readers.plain = readers'.plain)
    (hook : Obj → σ → Option Obj × σ) (n : Nat) :
    ∀ {fuel fuel' : Nat} {s s' : RootState σ Obj}, fuel + fuel' ≤ n → s.cur ≤ src.len →
      s'.cur ≤ src.len → distance src s < fuel → distance src s' < fuel' →
      s.settle src = s'.settle src →
      ∃ last, run readers ops hooks src hook fuel s = some last ∧
        run readers' ops hooks src hook fuel' s' = some last := by
  induction n with
  | zero =>
      intro fuel fuel' s s' hn _ _ hfuel _ _
      omega
  | succ n ih =>
      intro fuel fuel' s s' hn hle hle' hfuel hfuel' hsame
      obtain _ | fuel := fuel
      · omega
      obtain _ | fuel' := fuel'
      · omega
      have hnear : Nearer src s (step readers ops hooks src s) := by
        rw [step_eq]
        exact perform_nearer readAction_fits (readAction_moves spec hle _ _) hle
      have hnear' : Nearer src s' (step readers' ops hooks src s') := by
        rw [step_eq]
        exact perform_nearer readAction_fits (readAction_moves spec' hle' _ _) hle'
      rcases step_settled ops hooks spec hle with ⟨s₁, hstep, hsettle⟩ | hstep
      · -- the first variant skips white space
        have hrun : run readers ops hooks src hook (fuel + 1) s =
            run readers ops hooks src hook fuel s₁ := by
          rw [run, hstep]
          rfl
        rw [hstep] at hnear
        rw [hrun]
        exact ih (by omega) hnear.2 hle' (by have := hnear.1; omega) hfuel' (hsettle.trans hsame)
      rcases step_settled ops hooks spec' hle' with
        ⟨s₁, hstep', hsettle⟩ | hstep'
      · -- the second one does
        have hrun : run readers' ops hooks src hook (fuel' + 1) s' =
            run readers' ops hooks src hook fuel' s₁ := by
          rw [run, hstep']
          rfl
        rw [hstep'] at hnear'
        rw [hrun]
        exact ih (by omega) hle hnear'.2 hfuel (by have := hnear'.1; omega)
          (hsame.trans hsettle.symm)
      -- both do what the plain reader does
      have heq : (resolve hook (step readers ops hooks src s)).settle src =
          (resolve hook (step readers' ops hooks src s')).settle src := by
        rw [resolve_settle, resolve_settle, hstep, hstep', hplain, hsame]
      have hnear : Nearer src s (resolve hook _) := hnear.resolve
      have hnear' : Nearer src s' (resolve hook _) := hnear'.resolve
      have hno := fun obj rt resume => @resolve_step src σ Obj readers ops hooks s hook obj rt resume
      have hno' := fun obj rt resume =>
        @resolve_step src σ Obj readers' ops hooks s' hook obj rt resume
      rw [run, run]
      generalize resolve hook (step readers ops hooks src s) = t at heq hnear hno ⊢
      generalize resolve hook (step readers' ops hooks src s') = t' at heq hnear' hno' ⊢
      cases t with
      | goto s₁ =>
          cases t' with
          | goto s₁' =>
              exact ih (by omega) hnear.2 hnear'.2 (by have := hnear.1; omega)
                (by have := hnear'.1; omega) (Transition.goto.inj heq)
          | callHook | fail | ret => cases heq
      | callHook obj rt resume => exact absurd rfl (hno obj rt resume)
      | fail error s₁ =>
          cases t' with
          | fail error' s₁' =>
              obtain ⟨rfl, rfl⟩ := Transition.fail.inj heq
              exact ⟨_, rfl, rfl⟩
          | callHook | goto | ret => cases heq
      | ret obj s₁ =>
          cases t' with
          | ret obj' s₁' =>
              obtain ⟨rfl, rfl⟩ := Transition.ret.inj heq
              exact ⟨_, rfl, rfl⟩
          | callHook | goto | fail => cases heq

/-- Both variants begin at the same place. -/
theorem start_settle {rt : σ} (hopen : src.read 0 = 0x5B ∨ src.read 0 = 0x7B) :
    (start readers src rt : RootState σ Obj).settle src = (start readers' src rt).settle src ∧
      (start readers src rt : RootState σ Obj).cur ≤ src.len ∧
      distance src (start readers src rt : RootState σ Obj) < rootFuel src := by
  have hlt : 1 ≤ src.len := Source.lt_of_read (Nat.zero_le _) (by omega)
  have hskip := @skipReturn_skips readers _ _ hlt
  have hskip' := @skipReturn_skips readers' _ _ hlt
  have hsettle := (hskip.settle_eq hlt).symm.trans (hskip'.settle_eq hlt)
  have hbound := hskip.bound
  unfold start
  split
  · refine ⟨?_, hbound, ?_⟩
    · show (⟨.objKeyBegin, settle src _, _, _, _⟩ : RootState σ Obj) = ⟨_, settle src _, _, _, _⟩
      rw [hsettle]
    · simp only [distance, rootFuel, labelRank]
      omega
  · refine ⟨?_, hbound, ?_⟩
    · show (⟨.arrValBegin, settle src _, _, _, _⟩ : RootState σ Obj) = ⟨_, settle src _, _, _, _⟩
      rw [hsettle]
    · simp only [distance, rootFuel, labelRank]
      omega

end Agree

end Root

/-! ## Calls -/

section Call

variable {env : DecodeEnv} {kind : SourceKind} {ops : ObjectOps σ Obj} {hooks : Hooks}
  {hook : Obj → σ → Option Obj × σ} {text : Source}

/-- The two root functions halt, and alike. -/
theorem loadsRoot_agrees (hmem : kind.Holds text)
    (hopen : text.read 0 = 0x5B ∨ text.read 0 = 0x7B) (rt : σ) :
    ∃ result, ∀ pretty, loadsRoot env kind ops hooks hook text rt pretty = some result := by
  unfold loadsRoot
  cases env.reserve text.len with
  | none => exact ⟨_, fun _ => rfl⟩
  | some scratch =>
      have hagree : ∀ pretty, ∃ last,
          Root.run (rootReaders env.isa scratch kind pretty) ops hooks text hook (rootFuel text)
            (Root.start (rootReaders env.isa scratch kind pretty) text rt) = some last ∧
          Root.run (rootReaders env.isa scratch kind false) ops hooks text hook (rootFuel text)
            (Root.start (rootReaders env.isa scratch kind false) text rt) = some last := by
        intro pretty
        obtain ⟨hsettle, hle, hfuel⟩ := @Root.start_settle text σ Obj
          (rootReaders env.isa scratch kind pretty) (rootReaders env.isa scratch kind false) rt hopen
        obtain ⟨-, hle', hfuel'⟩ := @Root.start_settle text σ Obj
          (rootReaders env.isa scratch kind false) (rootReaders env.isa scratch kind false) rt hopen
        have hspec := @rootReaders_spec text kind env.isa scratch pretty hmem
        have hspec' := @rootReaders_spec text kind env.isa scratch false hmem
        exact Root.run_agrees hspec hspec' rfl hook _ (Nat.le_refl _) hle hle' hfuel hfuel' hsettle
      obtain ⟨last, hlast, -⟩ := hagree false
      have hrun : ∀ pretty, Root.run (rootReaders env.isa scratch kind pretty) ops hooks text hook
          (rootFuel text) (Root.start (rootReaders env.isa scratch kind pretty) text rt) =
            some last := by
        intro pretty
        obtain ⟨last', hpretty, hplain⟩ := hagree pretty
        rw [hpretty, ← hplain, hlast]
      dsimp only
      obtain ⟨error | obj, s⟩ := last
      · exact ⟨(.error error s.cur, cleanup ops s), fun pretty => by rw [hrun pretty]; rfl⟩
      · exact ⟨(.ok obj, s.rt), fun pretty => by rw [hrun pretty]; rfl⟩

theorem isContainer_iff {c : Nat} :
    (c ≤ 0xFF ∧ charIsContainer c = true) ↔ c = 0x5B ∨ c = 0x7B := by
  by_cases hc : c < 256
  · have h : ∀ c < 256, charIsContainer c = true ↔ c = 0x5B ∨ c = 0x7B := by
      decide +kernel
    rw [h c hc]
    omega
  · omega

/-- The buffer a root function reads is memory of the same kind. -/
theorem Holds.rootText {src : Source} {start : Nat} (hmem : kind.Holds src)
    (h : rootText env kind src start = some text) : kind.Holds text := by
  cases kind with
  | str kind =>
      obtain rfl := Option.some.inj h
      exact fun u hu => hmem u (List.mem_of_mem_drop hu)
  | bytes =>
      unfold SsrJson.Decode.rootText at h
      dsimp only at h
      split at h
      · obtain rfl := Option.some.inj h
        intro pos
        unfold Source.read
        split
        · rename_i hlt
          have hmem' : ((src.suffix start).copied env).units[pos] ∈ src.units.drop start :=
            List.getElem_mem hlt
          obtain ⟨i, hi, hunit⟩ := List.mem_iff_getElem.mp (List.mem_of_mem_drop hmem')
          have hread := hmem i
          rw [Source.read_of_lt hi, hunit] at hread
          exact hread
        · split
          · decide
          · exact (env.beyond pos).isLt
      · cases h

/-- The variant does not matter to a call. -/
theorem decodeWith_agrees {src : Source} (hmem : kind.Holds src) (choose : Source → Bool) (rt : σ) :
    decodeWith env kind ops hooks hook choose src rt = decode env kind ops hooks hook src rt := by
  unfold decode decodeWith
  split
  · rfl
  · cases skipLeading src with
    | none => rfl
    | some start =>
        dsimp only
        cases htext : rootText env kind src start with
        | none => rfl
        | some text =>
            dsimp only
            unfold loadsText
            split
            · rename_i hopen
              obtain ⟨result, hresult⟩ := @loadsRoot_agrees σ Obj env kind ops hooks hook text
                (Holds.rootText hmem htext) (isContainer_iff.mp hopen) rt
              rw [hresult, hresult]
            · rfl

/-- For every source kind, instruction set, interpreter and hooks: from a text that begins with a
container the pretty and the minified root function return the same object, or fail with the same
error at the same position, and leave the same interpreter behind; so the choice between them
does not matter to a call. -/
theorem pretty_and_minify_agree (env : DecodeEnv) (kind : SourceKind) (ops : ObjectOps σ Obj)
    (hooks : Hooks) (hook : Obj → σ → Option Obj × σ) (src : Source) (hmem : kind.Holds src)
    (rt : σ) :
    (src.read 0 = 0x5B ∨ src.read 0 = 0x7B →
      ∃ result, loadsRoot env kind ops hooks hook src rt true = some result ∧
        loadsRoot env kind ops hooks hook src rt false = some result) ∧
    ∀ choose, decodeWith env kind ops hooks hook choose src rt =
      decode env kind ops hooks hook src rt := by
  refine ⟨fun hopen => ?_, fun choose => decodeWith_agrees hmem choose rt⟩
  obtain ⟨result, hresult⟩ := @loadsRoot_agrees σ Obj env kind ops hooks hook src hmem hopen rt
  exact ⟨result, hresult true, hresult false⟩

/-- An array of which one element is indented and the other is not. -/
theorem pretty_and_minify_agree_mixed :
    let src := Source.ofUnits [0x5B, 0x0A, 0x20, 0x31, 0x2C, 0x32, 0x5D]
    let env : DecodeEnv := ⟨.avx2, fun _ => some fun _ => 0, fun _ => true, fun _ => 0, fun _ => 0⟩
    (src.read 0 = 0x5B ∨ src.read 0 = 0x7B →
      ∃ result, loadsRoot env (.str .ascii) valueOps noHooks (fun v rt => (some v, rt)) src () true =
          some result ∧
        loadsRoot env (.str .ascii) valueOps noHooks (fun v rt => (some v, rt)) src () false =
          some result) ∧
    ∀ choose, decodeWith env (.str .ascii) valueOps noHooks (fun v rt => (some v, rt)) choose src () =
      decode env (.str .ascii) valueOps noHooks (fun v rt => (some v, rt)) src () := by
  intro src env
  have hfits : ∀ u ∈ src.units, u ≤ StrKind.ascii.maxChar := by decide
  exact pretty_and_minify_agree env (.str .ascii) valueOps noHooks (fun v rt => (some v, rt)) src
    hfits ()

end Call

end SsrJson.Decode
