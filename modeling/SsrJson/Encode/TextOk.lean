import SsrJson.Encode.LockHeld
import SsrJson.Encode.TokenText

/-!
# The output of a call

While a call runs its output is the beginning of a JSON value whose open containers are those of
the path, as long as no container that was found to have elements is empty when they are read.
-/

namespace SsrJson.Encode

/-- White space. -/
def OutToken.isIndent : OutToken → Bool
  | .indent _ => true
  | _ => false

/-- Tokens without the white space between them. -/
def plain (tokens : List OutToken) : List OutToken := tokens.filter fun token => !token.isIndent

/-- The text that is written so far. -/
def EncodeOut.text (out : EncodeOut) : List OutToken := (plain out.tokens).reverse

theorem plain_append (tokens tokens' : List OutToken) :
    plain (tokens ++ tokens') = plain tokens ++ plain tokens' := List.filter_append _ _

theorem plain_indentTokens (v : Variant) (depth : Nat) (inObj : Bool) :
    plain (indentTokens v depth inObj) = [] := by
  rw [indentTokens]
  split <;> rfl

namespace EncodeOut

variable {out out' : EncodeOut} {tokens : List OutToken}

/-- What is written comes behind the text, without its indent. -/
theorem Wrote.text {v : Variant} {depth : Nat} {inObj : Bool}
    (h : out.Wrote (indentTokens v depth inObj ++ tokens) out') :
    out'.text = out.text ++ plain tokens := by
  rw [EncodeOut.text, h.tokens, EncodeOut.text, plain_append, List.reverse_append]
  congr 1
  rw [plain, ← List.filter_reverse, List.reverse_reverse]
  show plain _ = _
  rw [plain_append, plain_indentTokens, List.nil_append]

/-- What was written at last. -/
theorem Wrote.head? {v : Variant} {depth : Nat} {inObj : Bool} {token : OutToken}
    (h : out.Wrote (indentTokens v depth inObj ++ (tokens ++ [token])) out') :
    out'.tokens.head? = some token := by
  rw [h.tokens, ← List.append_assoc, List.reverse_append]
  rfl

theorem Wrote.comma {v : Variant} {depth : Nat} {inObj : Bool} {bracket : OutToken}
    (h : out.Wrote (indentTokens v depth inObj ++ [bracket, .comma]) out') :
    out'.tokens.head? = some .comma :=
  @Wrote.head? out out' [bracket] v depth inObj .comma h

/-- The last comma is the end of the text. -/
theorem text_of_comma (h : out.tokens.head? = some .comma) :
    out.text.getLast? = some .comma ∧ out.dropLast.text = out.text.dropLast := by
  obtain ⟨tokens, htokens⟩ : ∃ tokens, out.tokens = .comma :: tokens := by
    cases htokens : out.tokens with
    | nil => rw [htokens] at h; cases h
    | cons token tokens =>
        rw [htokens] at h
        cases h
        exact ⟨tokens, rfl⟩
  have hplain : plain out.tokens = .comma :: plain tokens := by rw [htokens]; rfl
  constructor
  · rw [EncodeOut.text, hplain, List.reverse_cons, List.getLast?_concat]
  · rw [EncodeOut.text, EncodeOut.text, hplain, List.reverse_cons, List.dropLast_concat,
      EncodeOut.dropLast, htokens]
    rfl

end EncodeOut

/-- The tokens of an object that is written at once. -/
theorem LeafTokens.text {obj : HeapObj} {tokens : List OutToken} (h : LeafTokens obj tokens) :
    ∃ value, tokens = value ++ [.comma] ∧ JsonText value ∧ plain tokens = tokens := by
  cases h with
  | scalar value => exact ⟨[.scalar value], rfl, .scalar value, rfl⟩
  | array subclass shape => exact ⟨[.array shape], rfl, .array shape, rfl⟩
  | list | tuple => exact ⟨[.openArr, .closeArr], rfl, .empty false, rfl⟩
  | dict => exact ⟨[.openObj, .closeObj], rfl, .empty true, rfl⟩

/-- The bracket in front of a container. -/
theorem Opens.bracket_eq {obj : HeapObj} {bracket : OutToken} {listSize : Nat}
    (h : Opens obj bracket listSize) : bracket = openToken obj.isDict := by
  cases h <;> rfl

theorem Opens.size_pos {obj : HeapObj} {bracket : OutToken} {listSize : Nat}
    (h : Opens obj bracket listSize) (hlist : obj.isDict = false) : 0 < listSize := by
  cases h with
  | list hne | tuple hne => exact Nat.pos_of_ne_zero hne
  | dict => cases hlist

theorem Opens.rootSize_pos {obj : HeapObj} {bracket : OutToken} {listSize size : Nat}
    (h : Opens obj bracket size) (hlock : obj.lockable = true)
    (hsize : obj.isList = true → listSize = size) : obj.isDict = false → 0 < listSize := by
  intro hlist
  have hisList : obj.isList = true := by
    rw [HeapObj.lockable, hlist, Bool.or_false] at hlock
    exact hlock
  rw [hsize hisList]
  exact h.size_pos hlist

theorem Opens.dictSize_ne {obj : HeapObj} {bracket : OutToken} {listSize : Nat}
    (h : Opens obj bracket listSize) (hdict : obj.isDict = true) : obj.dictSize ≠ 0 := by
  cases h with
  | list | tuple => cases hdict
  | dict hne => exact hne

theorem plain_openToken (isDict : Bool) : plain [openToken isDict] = [openToken isDict] := by
  cases isDict <;> rfl

theorem plain_closeToken (isDict : Bool) :
    plain [closeToken isDict, .comma] = [closeToken isDict, .comma] := by
  cases isDict <;> rfl

namespace HeapObj

variable {obj : HeapObj}

theorem nextEntry_ne_none {entries : List (Option (ObjId × ObjId))}
    (h : entries.countP Option.isSome ≠ 0) (pos : Nat) : nextEntry pos entries ≠ none := by
  induction entries generalizing pos with
  | nil => exact absurd rfl h
  | cons entry entries ih =>
      cases entry with
      | some pair => exact nofun
      | none => exact ih (by simpa using h) (pos + 1)

/-- In a dict that is not empty there is a first pair. -/
theorem dictNext_ne_none (h : obj.dictSize ≠ 0) : obj.dictNext 0 ≠ none := by
  cases obj with
  | scalar | list | tuple => exact absurd rfl h
  | dict entries => exact nextEntry_ne_none h 0

theorem isDict_of_ctnType {inObj isTuple : Bool}
    (h : obj.ctnType = some (EncodeMachine.getEncodeCtnType inObj isTuple)) :
    obj.isDict = inObj := by
  cases obj <;> cases inObj <;> cases isTuple <;> first | rfl | cases h

end HeapObj

namespace EncodeState

variable (s : EncodeState)

/-- Which of some containers are dicts. -/
def framesOf (heap : Heap) (ctns : List ObjId) : List Bool := ctns.map fun obj => (heap obj).isDict

/-- The text that is written belongs to the path. -/
def TextFits (heap : Heap) : Prop :=
  match s.label with
  | .start => s.out.tokens = [] ∧ s.curPos = 0
  | .dictKeyDone | .arrayStruct _ => Pending (framesOf heap s.openCtns) s.out.text
  | .rootLocked | .dictPairBegin | .arrValBegin | .ctnLocked _ _ =>
    Beginning (framesOf heap s.openCtns) s.out.text

/-- A list that is read is not at its end unless an element of it was written. -/
def ListUnread (heap : Heap) : Prop :=
  match s.label with
  | .arrValBegin => s.curPos < s.listSize ∨ s.out.tokens.head? = some .comma
  | .rootLocked => s.curPos = 0 ∧ ((heap s.curObj).isDict = false → 0 < s.listSize)
  | .ctnLocked _ listSize => (heap s.val).isDict = false → 0 < listSize
  | .start | .dictKeyDone | .arrayStruct _ | .dictPairBegin => True

/-- The text belongs to the path, and will go on to do so where a list is read. -/
structure TextOk : Prop where
  text : s.TextFits s.heap
  unread : s.ListUnread s.heap

/-- A dict that is read is not at its end unless a pair of it was written. -/
structure DictOk : Prop where
  opening : ∀ obj ∈ s.opening, (s.heap obj).isDict = true → (s.heap obj).dictSize ≠ 0
  unread : s.label = .dictPairBegin →
    (s.heap s.curObj).dictNext s.curPos ≠ none ∨ s.out.tokens.head? = some .comma

variable {s}

/-- Something was written in the dict. -/
theorem DictOk.of_comma (hopening : s.opening = []) (hcomma : s.out.tokens.head? = some .comma) :
    s.DictOk := by
  refine ⟨?_, fun _ => .inr hcomma⟩
  rw [hopening]
  exact List.forall_mem_nil _

/-- No dict is read. -/
theorem DictOk.of_label (hopening : s.opening = []) (hlabel : s.label ≠ .dictPairBegin) :
    s.DictOk := by
  refine ⟨?_, fun hl => absurd hl hlabel⟩
  rw [hopening]
  exact List.forall_mem_nil _

end EncodeState

namespace EncodeMachine

open EncodeState

variable {v : Variant} {s : EncodeState} {kept : Set ObjId} {root : ObjId}

/-- The text at a transition; a call that succeeds returns a JSON value. -/
def TextAt : EncodeTransition → Prop
  | .goto s | .lock _ s => s.TextOk ∧ s.DictOk
  | .lookup s => (s.TextOk ∧ s.DictOk) ∧ ∃ inObj, s.label = .arrayStruct inObj
  | .ret s => JsonText s.out.text
  | .retNull _ | .nullSet _ | .undefinedFlag _ | .badItem _ => True

theorem fail_text : TextAt (fail v s) := by rw [fail]; trivial

theorem success_text (hcomma : s.out.tokens.head? = some .comma)
    (htext : JsonText s.out.text.dropLast) : TextAt (success v s) := by
  have hdrop := (EncodeOut.text_of_comma hcomma).2
  have hreserve : ∀ out, s.out.dropLast.uBufReserve = (true, out) →
      out.text = s.out.text.dropLast := by
    intro out hout
    have hattempt := uBufReserve_attempt s.out.dropLast
    rw [hout] at hattempt
    cases hattempt with
    | done hw => rw [EncodeOut.text, hw.tokens, ← hdrop]; rfl
  rw [success]
  split
  · exact fail_text
  · next out hout =>
      split
      · show JsonText out.text
        rwa [hreserve out hout]
      · show JsonText out.text
        rwa [hreserve out hout]

/-- The elements of a container that is entered are read next. -/
theorem enterCtn_text {inObj : Bool} {listSize : Nat} (hdepth : s.depth ≠ 0)
    (hctn : (s.heap s.val).ctnType ≠ none)
    (htext : Beginning (framesOf s.heap (s.val :: s.path)) s.out.text)
    (hlist : (s.heap s.val).isDict = false → 0 < listSize)
    (hdict : (s.heap s.val).isDict = true → (s.heap s.val).dictSize ≠ 0) :
    TextAt (enterCtn v inObj s listSize) := by
  rw [enterCtn_eq]
  split
  · exact fail_text
  · have hopen := @entered_openCtns s inObj listSize hdepth
    have hheap := @entered_heap s inObj listSize
    rw [← hheap, ← hopen] at htext
    rw [EncodeState.entered] at htext ⊢
    cases hobj : s.heap s.val with
    | scalar =>
        rw [hobj] at hctn
        exact absurd rfl hctn
    | list | tuple =>
        rw [hobj] at htext hlist
        exact ⟨⟨htext, .inl (hlist rfl)⟩, .of_label rfl EncodeLabel.noConfusion⟩
    | dict =>
        rw [hobj] at htext hdict
        refine ⟨⟨htext, trivial⟩, ⟨List.forall_mem_nil _, fun _ => .inl ?_⟩⟩
        show (s.heap s.val).dictNext 0 ≠ none
        rw [hobj]
        exact HeapObj.dictNext_ne_none (hdict rfl)

/-- The value of an element keeps to the text. -/
theorem ValOutcome.textAt {inObj : Bool} {t : EncodeTransition} (h : ValOutcome v inObj s t)
    (hdepth : s.depth ≠ 0) (htext : Pending (framesOf s.heap s.path) s.out.text) : TextAt t := by
  cases h with
  | @written ucs lookups out tokens isTuple hleaf hw htuple =>
      obtain ⟨value, rfl, hvalue, hplain⟩ := hleaf.text
      have hcomma := hw.head?
      have hout := hw.text
      rw [hplain, ← List.append_assoc] at hout
      have hwritten := htext.written hvalue
      rw [← hout] at hwritten
      cases inObj with
      | true => exact ⟨⟨hwritten, trivial⟩, .of_comma rfl hcomma⟩
      | false => exact ⟨⟨hwritten, .inr hcomma⟩, .of_label rfl EncodeLabel.noConfusion⟩
  | refused | circular => exact fail_text
  | unassigned => trivial
  | lookup hval => exact ⟨⟨⟨htext, trivial⟩, .of_label rfl EncodeLabel.noConfusion⟩, inObj, rfl⟩
  | @lock out set ret bracket listSize hopens hw hgranted hv hlock hput hret =>
      have hopened := htext.opened (s.heap s.val).isDict
      have hout := hw.text
      rw [hopens.bracket_eq, plain_openToken] at hout
      rw [← hout] at hopened
      refine ⟨⟨hopened, hopens.size_pos⟩, ⟨?_, EncodeLabel.noConfusion⟩⟩
      intro obj hobj
      obtain rfl := List.mem_singleton.mp hobj
      exact hopens.dictSize_ne
  | @enter out bracket listSize hopens hw hgranted hfree =>
      have hopened := htext.opened (s.heap s.val).isDict
      have hout := hw.text
      rw [hopens.bracket_eq, plain_openToken] at hout
      rw [← hout] at hopened
      exact enterCtn_text hdepth hopens.ctnType_ne hopened hopens.size_pos hopens.dictSize_ne

/-- The text behind a container that ended in another one. -/
theorem resumed_text (htext : Beginning (framesOf s.resumed.heap s.resumed.openCtns) s.out.text)
    (hcomma : s.out.tokens.head? = some .comma) : TextAt (.goto s.resumed) := by
  rw [EncodeState.resumed] at htext ⊢
  cases htype : (s.stack s.depth).type with
  | dict =>
      rw [htype] at htext
      exact ⟨⟨htext, trivial⟩, .of_comma rfl hcomma⟩
  | list | tuple =>
      rw [htype] at htext
      exact ⟨⟨htext, .inr hcomma⟩, .of_label rfl EncodeLabel.noConfusion⟩

/-- The end of a container is written over the last comma. -/
theorem EndOutcome.textAt {locked : Bool} {t : EncodeTransition}
    (h : EndOutcome v s (closeToken (s.heap s.curObj).isDict) locked t) (hdepth : s.depth ≠ 0)
    (htext : Beginning (framesOf s.heap s.path) s.out.text)
    (hcomma : s.out.tokens.head? = some .comma) : TextAt t := by
  obtain ⟨hlast, hdrop⟩ := EncodeOut.text_of_comma hcomma
  cases h with
  | refused => exact fail_text
  | @root out hw hroot =>
      have hone : s.depth = 1 := by omega
      have hpath : s.path = [s.curObj] := by rw [path_of_pos hdepth, hone]; rfl
      have hout := hw.text
      rw [plain_closeToken, hdrop] at hout
      rw [hpath] at htext
      have hclosed := Beginning.closed htext hlast
      refine success_text hw.comma ?_
      show JsonText out.text.dropLast
      rw [hout]
      simpa using hclosed
  | @inner out hw hinner =>
      have hout := hw.text
      rw [plain_closeToken, hdrop] at hout
      have hframes : framesOf s.heap s.path = (s.heap s.curObj).isDict ::
          (s.heap (s.stack (s.depth - 1)).ctn).isDict ::
            framesOf s.heap (below s.stack (s.depth - 1)) := by
        rw [path_tail hdepth hinner]
        rfl
      have hclosed := Beginning.closedInner (hframes ▸ htext) hlast
      rw [← hout] at hclosed
      have hfields : (EncodeState.leave v { s with out, depth := s.depth - 1 } locked).depth =
          s.depth - 1 ∧
          (EncodeState.leave v { s with out, depth := s.depth - 1 } locked).stack = s.stack ∧
          (EncodeState.leave v { s with out, depth := s.depth - 1 } locked).heap = s.heap ∧
          (EncodeState.leave v { s with out, depth := s.depth - 1 } locked).out = out := by
        rw [EncodeState.leave]
        split <;> exact ⟨rfl, rfl, rfl, rfl⟩
      obtain ⟨hd, hst, hh, ho⟩ := hfields
      refine resumed_text ?_ ?_
      · rw [resumed_openCtns hinner hd hst, resumed_fields.1, hh, ho, path_tail hdepth hinner]
        exact hclosed
      · rw [ho]
        exact hw.comma

/-- The first bracket is written in front of the root. -/
theorem rooted_text (hbegin : Beginning [(s.heap s.curObj).isDict] s.out.text)
    (hpos : s.curPos = 0) (hlist : (s.heap s.curObj).isDict = false → 0 < s.listSize)
    (hdict : (s.heap s.curObj).isDict = true → (s.heap s.curObj).dictSize ≠ 0) :
    TextAt (.goto s.rooted) := by
  rw [EncodeState.rooted]
  split
  · next hd =>
      refine ⟨⟨hbegin, trivial⟩, ⟨List.forall_mem_nil _, fun _ => .inl ?_⟩⟩
      show (s.heap s.curObj).dictNext s.curPos ≠ none
      rw [hpos]
      exact HeapObj.dictNext_ne_none (hdict hd)
  · next hd =>
      refine ⟨⟨hbegin, .inl ?_⟩, .of_label rfl EncodeLabel.noConfusion⟩
      show s.curPos < s.listSize
      rw [hpos]
      exact hlist (by simpa using hd)

theorem StartOutcome.textAt {t : EncodeTransition} (h : StartOutcome v s t)
    (hdepth : s.depth = 0) (htokens : s.out.tokens = []) (hpos : s.curPos = 0) : TextAt t := by
  cases h with
  | nullSet | noSet => trivial
  | refused | unsupported => exact fail_text
  | @empty listSize set out tokens hset hout hctn hleaf =>
      obtain ⟨value, rfl, hvalue, hplain⟩ := hleaf.text
      have htext : (out.emit (value ++ [.comma])).text = value ++ [.comma] := by
        rw [EncodeOut.text, EncodeOut.emit, hout.tokens, htokens, List.append_nil, plain,
          List.filter_reverse, List.reverse_reverse]
        exact hplain
      have hhead : (out.emit (value ++ [.comma])).tokens.head? = some .comma := by
        rw [EncodeOut.emit, List.reverse_append]
        rfl
      refine success_text hhead ?_
      show JsonText (out.emit (value ++ [.comma])).text.dropLast
      rwa [htext, List.dropLast_concat]
  | @tuple set out items hset hout hobj hne =>
      have htext : Beginning [false] (out.emit [.openArr]).text := by
        rw [EncodeOut.text, EncodeOut.emit, hout.tokens, htokens]
        exact beginning_root false
      have hframes : framesOf s.heap [s.curObj] = [false] := by
        show [(s.heap s.curObj).isDict] = _
        rw [hobj]
        rfl
      rw [← hframes] at htext
      refine ⟨⟨htext, .inl ?_⟩, .of_label rfl EncodeLabel.noConfusion⟩
      show s.curPos < items.length
      rw [hpos]
      exact Nat.pos_of_ne_zero hne
  | @lock listSize set set' out bracket ret size hset hup hout hv hlock hopens hsize hput =>
      have htext : (out.emit [bracket]).text = [openToken (s.heap s.curObj).isDict] := by
        rw [EncodeOut.text, EncodeOut.emit, hout.tokens, htokens, hopens.bracket_eq]
        exact congrArg List.reverse (plain_openToken _)
      have hframes : (s.curObj :: if s.depth = 0 then [] else s.curObj :: below s.stack s.depth) =
          [s.curObj] := by rw [if_pos hdepth]
      refine ⟨⟨?_, hpos, hopens.rootSize_pos hlock hsize⟩, ⟨?_, EncodeLabel.noConfusion⟩⟩
      · show Beginning (framesOf s.heap (s.curObj :: if s.depth = 0 then []
          else s.curObj :: below s.stack s.depth)) (out.emit [bracket]).text
        rw [hframes, htext]
        exact beginning_root _
      · intro obj hobj
        obtain rfl := List.mem_singleton.mp hobj
        exact hopens.dictSize_ne
  | @unlocked listSize set out bracket size hset hout hv hlock hopens hsize =>
      have htext : (out.emit [bracket]).text = [openToken (s.heap s.curObj).isDict] := by
        rw [EncodeOut.text, EncodeOut.emit, hout.tokens, htokens, hopens.bracket_eq]
        exact congrArg List.reverse (plain_openToken _)
      have hbegin := beginning_root (s.heap s.curObj).isDict
      rw [← htext] at hbegin
      exact rooted_text hbegin hpos (hopens.rootSize_pos hlock hsize) hopens.dictSize_ne

/-- A step keeps to the text. -/
theorem step_text (hp : PathOk kept root s) (hs : s.TextOk) (hd : s.DictOk) :
    TextAt (step v s) := by
  have hdepth : s.label ≠ .start → s.label ≠ .rootLocked → s.depth ≠ 0 := by
    intro h1 h2 hzero
    rcases hp.depth_zero.mp hzero with hl | hl
    · exact h1 hl
    · exact h2 hl
  have htext := hs.text
  have hunread := hs.unread
  rw [TextFits] at htext
  rw [ListUnread] at hunread
  rw [step]
  cases hl : s.label with
  | start =>
      rw [hl] at htext
      exact start_outcome.textAt (hp.depth_zero.mpr (.inl hl)) htext.1 htext.2
  | rootLocked =>
      rw [hl] at htext hunread
      dsimp only at htext hunread
      have hzero := hp.depth_zero.mpr (.inr hl)
      have hopening : s.opening = [s.curObj] := by rw [EncodeState.opening, hl]
      have hopen : s.openCtns = [s.curObj] := by
        rw [openCtns, hopening, EncodeState.path, if_pos hzero, List.append_nil]
      rw [hopen] at htext
      dsimp only
      rw [rootLocked_eq]
      refine rooted_text htext hunread.1 hunread.2 (hd.opening s.curObj ?_)
      rw [hopening]
      exact List.mem_singleton_self _
  | dictPairBegin =>
      rw [hl] at htext
      dsimp only at htext
      have hpos := hdepth (by simp [hl]) (by simp [hl])
      rw [openCtns_eq_path (by rw [EncodeState.opening, hl])] at htext
      have hdict : (s.heap s.curObj).isDict = true := by
        have hin : s.inDict = true := by rw [inDict, hl]
        rw [HeapObj.isDict_of_ctnType (hp.cur hpos), hin]
      have h := @dictPairBegin_outcome v s
      show TextAt (dictPairBegin v s)
      generalize dictPairBegin v s = t at h
      cases h with
      | @key ucs key val pos str compact out hnext hkey hw =>
          have hframes : framesOf s.heap s.path =
              true :: framesOf s.heap (below s.stack s.depth) := by
            rw [path_of_pos hpos, ← hdict]
            rfl
          have hout := hw.text
          rw [hframes] at htext
          have hpending := htext.pendingPair str
          rw [show [OutToken.key str] = plain [.key str] from rfl, ← hout, ← hframes] at hpending
          exact ⟨⟨hpending, trivial⟩, .of_label rfl EncodeLabel.noConfusion⟩
      | refused => exact fail_text
      | done hnext hend =>
          have hcomma := (hd.unread hl).resolve_left fun hne => hne hnext
          rw [show OutToken.closeObj = closeToken (s.heap s.curObj).isDict by rw [hdict]; rfl]
            at hend
          exact hend.textAt hpos htext hcomma
  | dictKeyDone =>
      rw [hl] at htext
      have hopening : s.opening = [] := by rw [EncodeState.opening, hl]
      rw [openCtns_eq_path hopening] at htext
      exact encodeProcessVal_outcome.textAt (hdepth (by simp [hl]) (by simp [hl])) htext
  | arrValBegin =>
      rw [hl] at htext hunread
      dsimp only at htext hunread
      have hpos := hdepth (by simp [hl]) (by simp [hl])
      rw [openCtns_eq_path (by rw [EncodeState.opening, hl])] at htext
      have hlist : (s.heap s.curObj).isDict = false := by
        have hin : s.inDict = false := by rw [inDict, hl]
        rw [HeapObj.isDict_of_ctnType (hp.cur hpos), hin]
      have h := @arrValBegin_outcome v s
      show TextAt (arrValBegin v s)
      generalize arrValBegin v s = t at h
      cases h with
      | @value val t hlt hitem hval =>
          have hframes : framesOf s.heap s.path =
              false :: framesOf s.heap (below s.stack s.depth) := by
            rw [path_of_pos hpos, ← hlist]
            rfl
          rw [hframes] at htext
          have hpending := htext.pendingItem
          rw [← hframes] at hpending
          exact hval.textAt hpos hpending
      | badItem => trivial
      | done hge hend =>
          have hcomma := hunread.resolve_left hge
          rw [show OutToken.closeArr = closeToken (s.heap s.curObj).isDict by rw [hlist]; rfl]
            at hend
          exact hend.textAt hpos htext hcomma
  | ctnLocked inObj listSize =>
      rw [hl] at htext hunread
      dsimp only at htext hunread
      have hopening : s.opening = [s.val] := by rw [EncodeState.opening, hl]
      have hmem : s.val ∈ s.opening := by rw [hopening]; exact List.mem_singleton_self _
      rw [openCtns, hopening] at htext
      exact enterCtn_text (hdepth (by simp [hl]) (by simp [hl]))
        (HeapObj.ctnType_ne_of_lockable (hp.opening s.val hmem)) htext hunread
        (hd.opening s.val hmem)
  | arrayStruct inObj =>
      rw [hl] at htext
      dsimp only at htext
      rw [openCtns_eq_path (by rw [EncodeState.opening, hl])] at htext
      obtain ⟨tokens, htokens, h⟩ :=
        uBufApdNdarray_attempt s.out v s.depth inObj s.ucs (s.answers s.lookups)
      dsimp only
      rw [processArray]
      rcases hcheck : (s.answers s.lookups).check with error | shape
      · rw [uBufApdNdarray, hcheck]
        exact fail_text
      · rw [htokens shape hcheck] at h
        generalize uBufApdNdarray v s.depth inObj s.out s.ucs (s.answers s.lookups) = r at h
        cases h with
        | failed => exact fail_text
        | @done out hw =>
            have hwritten := htext.written (.array shape)
            rw [List.append_assoc, show [OutToken.array shape] ++ [.comma] =
              plain [.array shape, .comma] from rfl, ← hw.text] at hwritten
            cases inObj with
            | true => exact ⟨⟨hwritten, trivial⟩, .of_comma rfl hw.comma⟩
            | false => exact ⟨⟨hwritten, .inr hw.comma⟩, .of_label rfl EncodeLabel.noConfusion⟩

end EncodeMachine

end SsrJson.Encode
