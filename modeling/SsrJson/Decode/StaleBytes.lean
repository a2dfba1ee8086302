import SsrJson.Decode.StaleReaders
import SsrJson.Decode.Variants

/-!
# Calls and the memory behind the copy of a `bytes` text

`ssrjson_decode_bytes` copies its input into a buffer that held something else before. Whatever that
left behind the text, the call returns the same: the same object, or the same error at the same
position.
-/

namespace SsrJson.Decode

open Spec

variable {src src' : Source} {isa : Isa} {scratch : ByteBuffer} {pretty : Bool} {cur : Nat}

/-! ## What the text asks for -/

/-- The readers of a root function for `bytes` cannot tell two sources apart. -/
structure ReadAlike (readers : Readers) (src src' : Source) : Prop where
  alike : src.Alike src'
  match2 : ∀ {cur first second}, cur ≤ src.len → first ≠ 0 →
    readers.match2 src cur first second = readers.match2 src' cur first second
  skip : ∀ {cur}, cur ≤ src.len → readers.fastSkipSpaces src cur = readers.fastSkipSpaces src' cur
  number : ∀ {cur}, cur ≤ src.len → readers.loadsNumber src cur = readers.loadsNumber src' cur
  string : ∀ {isKey cur}, cur < src.len →
    readers.loadsString isKey src cur = readers.loadsString isKey src' cur

theorem rootReaders_alike (h : src.Alike src') (hbytes : src.IsBytes) (hbytes' : src'.IsBytes) :
    ReadAlike (rootReaders isa scratch .bytes pretty) src src' where
  alike := h
  match2 hle hfirst := byteMatch2_alike h hle hfirst
  skip hle := fastSkipSpaces_alike h _ hle
  number hle := loadsNumber_alike h (Source.IsBytes.units32 hbytes) hle
  string hlt := loadsBytes_alike h hbytes hbytes' isa scratch _ hlt

/-- White space under the cursor is inside the text. -/
theorem lt_of_space (hle : cur ≤ src.len) (hws : wrappedCharIsSpace (src.read cur) = true) :
    cur < src.len :=
  (Skips.one hle ((wrappedCharIsSpace_eq _).symm.trans hws)).bound

namespace Root

variable {readers : Readers}

section Reading

variable (h : ReadAlike readers src src')

include h

theorem skipReturn_alike (hle : cur ≤ src.len) :
    skipReturn readers src cur = skipReturn readers src' cur := by
  unfold skipReturn
  rw [h.alike.read_eq hle]

theorem prettySkip_alike (hle : cur ≤ src.len) :
    prettySkip readers src cur = prettySkip readers src' cur := by
  unfold prettySkip
  rw [h.alike.read_eq hle, h.skip hle]

theorem numberAction_alike (next : Label) (hle : cur ≤ src.len) :
    numberAction readers src next cur = numberAction readers src' next cur := by
  unfold numberAction
  rw [h.number hle]

theorem stringAction_alike (next : Label) (hle : cur ≤ src.len) (hquote : src.read cur = 0x22) :
    stringAction readers src next cur = stringAction readers src' next cur := by
  unfold stringAction
  rw [h.string (Source.lt_of_read hle (by omega))]

theorem keyAction_alike (hle : cur ≤ src.len) (hquote : src.read cur = 0x22) :
    keyAction readers src cur = keyAction readers src' cur := by
  unfold keyAction
  rw [h.string (Source.lt_of_read hle (by omega))]

theorem trueAction_alike (next : Label) : trueAction src next cur = trueAction src' next cur := by
  unfold trueAction
  rw [readTrue_alike h.alike]

theorem falseAction_alike (next : Label) : falseAction src next cur = falseAction src' next cur := by
  unfold falseAction
  rw [readFalse_alike h.alike]

theorem nullAction_alike (next : Label) : nullAction src next cur = nullAction src' next cur := by
  simp only [nullAction, readNull_alike h.alike, readNan_alike h.alike]

theorem infAction_alike (next : Label) : infAction src next cur = infAction src' next cur := by
  unfold infAction
  rw [loadsInfOrNan_alike h.alike]

theorem rewindToComma_alike (hle : cur ≤ src.len) :
    rewindToComma src cur = rewindToComma src' cur := by
  induction cur with
  | zero => rfl
  | succ cur ih =>
      rw [rewindToComma, rewindToComma, h.alike.read_eq hle, ih (by omega)]

end Reading

variable {enc : Nat → Option (List Nat)} {numVal : List Nat → Num}
  (h : ReadAlike readers src src') (spec : ReadersSpec readers enc numVal src)

include h spec

theorem spacesThenWs_alike (hle : cur ≤ src.len) :
    spacesThenWs readers src cur = spacesThenWs readers src' cur := by
  have hskip := h.skip hle
  unfold spacesThenWs
  rw [← h.alike.read_eq hle, ← hskip]
  have hbound : (if src.read cur = 0x20 then readers.fastSkipSpaces src cur else cur) ≤ src.len := by
    split
    · exact (spec.skip cur hle).bound
    · exact hle
  generalize (if src.read cur = 0x20 then readers.fastSkipSpaces src cur else cur) = next at hbound
  dsimp only
  rw [← h.alike.read_eq hbound, skipConsecutiveSpaces_alike h.alike hbound]

theorem slowSkip_alike (hlt : cur < src.len) :
    slowSkip readers src cur = slowSkip readers src' cur :=
  spacesThenWs_alike h spec hlt

omit spec in
theorem arrValAction_alike (len : Nat) (hle : cur ≤ src.len) :
    arrValAction readers src len cur = arrValAction readers src' len cur := by
  unfold arrValAction
  rw [← h.alike.read_eq hle, numberAction_alike h _ hle, trueAction_alike h, falseAction_alike h,
    nullAction_alike h, infAction_alike h, skipConsecutiveSpaces_alike h.alike hle]
  dsimp only
  refine ite_congr rfl (fun _ => rfl) fun _ => ite_congr rfl (fun _ => rfl) fun _ =>
    ite_congr rfl (fun _ => rfl) fun _ => ite_congr rfl (fun hquote => ?_) fun _ =>
    ite_congr rfl (fun _ => rfl) fun _ => ite_congr rfl (fun _ => rfl) fun _ =>
    ite_congr rfl (fun _ => rfl) fun _ => ite_congr rfl (fun hclose => ?_) fun _ => rfl
  · exact stringAction_alike h _ hle hquote
  · rw [rewindToComma_alike h (Source.lt_of_read hle (by omega))]

theorem arrSepAction_alike (hle : cur ≤ src.len) :
    arrSepAction readers src cur = arrSepAction readers src' cur := by
  unfold arrSepAction
  rw [← h.alike.read_eq hle, h.match2 hle (by decide)]
  dsimp only
  split_ifs with hmatch hcomma hclose hws
  · rfl
  · rfl
  · rfl
  · rw [slowSkip_alike h spec (lt_of_space hle hws)]
  · rfl

omit spec in
theorem objKeyAction_alike (len : Nat) (hle : cur ≤ src.len) :
    objKeyAction readers src len cur = objKeyAction readers src' len cur := by
  unfold objKeyAction
  rw [← h.alike.read_eq hle, skipConsecutiveSpaces_alike h.alike hle]
  exact ite_congr rfl (fun hquote => keyAction_alike h hle hquote) fun _ => rfl

theorem colonAction_alike (hle : cur ≤ src.len) :
    colonAction readers src cur = colonAction readers src' cur := by
  unfold colonAction
  rw [← h.alike.read_eq hle, h.match2 hle (by decide)]
  dsimp only
  split_ifs with hmatch hcolon hws
  · rfl
  · rfl
  · rw [slowSkip_alike h spec (lt_of_space hle hws)]
  · rfl

theorem objValAction_alike (hle : cur ≤ src.len) :
    objValAction readers src cur = objValAction readers src' cur := by
  unfold objValAction
  rw [← h.alike.read_eq hle, numberAction_alike h _ hle, trueAction_alike h, falseAction_alike h,
    nullAction_alike h, infAction_alike h]
  dsimp only
  refine ite_congr rfl (fun hquote => stringAction_alike h _ hle hquote) fun _ =>
    ite_congr rfl (fun _ => rfl) fun _ => ite_congr rfl (fun _ => rfl) fun _ =>
    ite_congr rfl (fun _ => rfl) fun _ => ite_congr rfl (fun _ => rfl) fun _ =>
    ite_congr rfl (fun _ => rfl) fun _ => ite_congr rfl (fun _ => rfl) fun _ =>
    ite_congr rfl (fun hws => ?_) fun _ => rfl
  have hlt := lt_of_space hle hws
  have hbound := (prettySkip_skips spec hlt).bound
  rw [prettySkip_alike h hlt] at hbound ⊢
  rw [← h.alike.read_eq hbound, skipConsecutiveSpaces_alike h.alike hbound]

theorem objSepAction_alike (hle : cur ≤ src.len) :
    objSepAction readers src cur = objSepAction readers src' cur := by
  unfold objSepAction
  rw [← h.alike.read_eq hle, h.match2 hle (by decide)]
  dsimp only
  split_ifs with hmatch hcomma hclose hws
  · rfl
  · rfl
  · rfl
  · rw [slowSkip_alike h spec (lt_of_space hle hws)]
  · rfl

theorem docAction_alike (hle : cur ≤ src.len) :
    docAction readers src cur = docAction readers src' cur := by
  unfold docAction
  rw [spacesThenWs_alike h spec hle, h.alike.len_eq]

/-- What a text asks for does not depend on what lies behind it. -/
theorem readAction_alike (label : Label) (len : Nat) (hle : cur ≤ src.len) :
    readAction readers src label len cur = readAction readers src' label len cur := by
  have hreturn := skipReturn_alike h hle
  have hpretty := prettySkip_alike h hle
  have hbound := (prettySkip_skips spec hle).bound
  cases label with
  | arrBegin => exact congrArg (RootAction.openCtn true) hreturn
  | arrValBegin =>
      show arrValAction readers src len _ = arrValAction readers src' len _
      rw [← hpretty, arrValAction_alike h len hbound]
  | arrValEnd => exact arrSepAction_alike h spec hle
  | arrEnd => exact congrArg (RootAction.close true) hreturn
  | objBegin => exact congrArg (RootAction.openCtn false) hreturn
  | objKeyBegin =>
      show objKeyAction readers src len _ = objKeyAction readers src' len _
      rw [← hpretty, objKeyAction_alike h len hbound]
  | objKeyEnd => exact colonAction_alike h spec hle
  | objValBegin => exact objValAction_alike h spec hle
  | objValEnd => exact objSepAction_alike h spec hle
  | objEnd => exact congrArg (RootAction.close false) hreturn
  | docEnd => exact docAction_alike h spec hle

/-- A run goes the same way. The induction is on the fuel; the cursor stays inside the text. -/
theorem run_alike {σ Obj : Type} (ops : ObjectOps σ Obj) (hooks : Hooks)
    (hook : Obj → σ → Option Obj × σ) (fuel : Nat) (s : RootState σ Obj) (hle : s.cur ≤ src.len) :
    run readers ops hooks src hook fuel s = run readers ops hooks src' hook fuel s := by
  induction fuel generalizing s with
  | zero => rfl
  | succ fuel ih =>
      have hstep : step readers ops hooks src s = step readers ops hooks src' s := by
        rw [step_eq, step_eq, readAction_alike h spec s.label (ctnLen s) hle]
      have hnear : Nearer src s (step readers ops hooks src s) := by
        rw [step_eq]
        exact perform_nearer readAction_fits (readAction_moves spec hle _ _) hle
      have hnear : Nearer src s (resolve hook _) := hnear.resolve
      rw [run, run, ← hstep]
      generalize resolve hook (step readers ops hooks src s) = t at hnear
      cases t with
      | goto s' => exact ih s' hnear.2
      | callHook | fail | ret => rfl

end Root

/-! ## Calls -/

section Call

variable {σ Obj : Type} {env : DecodeEnv} {beyond before : Nat → BitVec 8} {ops : ObjectOps σ Obj}
  {hooks : Hooks} {hook : Obj → σ → Option Obj × σ} {text text' : Source}

/-- The environment of a call that finds other bytes around the copy of its text. -/
def DecodeEnv.around (env : DecodeEnv) (beyond before : Nat → BitVec 8) : DecodeEnv :=
  { env with beyond, before }

/-- A container. -/
theorem loadsRoot_alike (h : text.Alike text') (hbytes : text.IsBytes) (hbytes' : text'.IsBytes)
    (hlt : 0 < text.len) (rt : σ) (pretty : Bool) :
    loadsRoot (env.around beyond before) .bytes ops hooks hook text' rt pretty =
      loadsRoot env .bytes ops hooks hook text rt pretty := by
  unfold loadsRoot
  rw [← h.len_eq, show (env.around beyond before).reserve = env.reserve from rfl]
  cases env.reserve text.len with
  | none => rfl
  | some scratch =>
      have halike := @rootReaders_alike text text' env.isa scratch pretty h hbytes hbytes'
      have hspec := @rootReaders_spec text .bytes env.isa scratch pretty hbytes
      have hreturn := Root.skipReturn_alike halike (show 1 ≤ text.len from hlt)
      have hstart : (Root.start (rootReaders env.isa scratch .bytes pretty) text rt :
          RootState σ Obj) = Root.start (rootReaders env.isa scratch .bytes pretty) text' rt := by
        unfold Root.start
        rw [h.read_eq (Nat.zero_le _), hreturn]
      have hbound : (Root.start (rootReaders env.isa scratch .bytes pretty) text rt :
          RootState σ Obj).cur ≤ text.len := by
        have hskip := (@skipReturn_skips (rootReaders env.isa scratch .bytes pretty) text 1 hlt).bound
        unfold Root.start
        split <;> exact hskip
      have hfuel : rootFuel text' = rootFuel text := by
        unfold rootFuel
        rw [h.len_eq]
      have hrun := Root.run_alike halike hspec ops hooks hook (rootFuel text) _ hbound
      dsimp only
      rw [show (env.around beyond before).isa = env.isa from rfl, hfuel, ← hstart, ← hrun]

/-- A value that is no container. -/
theorem readSingle_alike (h : text.Alike text') (hbytes : text.IsBytes) (hbytes' : text'.IsBytes)
    (hlt : 0 < text.len) :
    readSingle (env.around beyond before) .bytes text' = readSingle env .bytes text := by
  have hstring : singleString (env.around beyond before) .bytes text' =
      singleString env .bytes text := by
    unfold singleString
    rw [← h.len_eq, show (env.around beyond before).reserve = env.reserve from rfl]
    cases env.reserve text.len with
    | none => rfl
    | some scratch =>
        have halike := @rootReaders_alike text text' env.isa scratch false h hbytes hbytes'
        dsimp only
        rw [halike.string hlt]
        rfl
  unfold readSingle
  rw [← h.read_eq (Nat.zero_le _), hstring,
    ← loadsNumber_alike h (Source.IsBytes.units32 hbytes) (Nat.zero_le _),
    ← readTrue_alike h, ← readFalse_alike h, ← readNull_alike h, ← loadsInfOrNan_alike h]
  simp only [← readNan_alike h]

theorem loadsRootSingle_alike (h : text.Alike text') (hbytes : text.IsBytes)
    (hbytes' : text'.IsBytes) (hlt : 0 < text.len) (rt : σ) :
    loadsRootSingle (env.around beyond before) .bytes ops text' rt =
      loadsRootSingle env .bytes ops text rt := by
  unfold loadsRootSingle
  rw [readSingle_alike h hbytes hbytes' hlt, ← h.len_eq]
  cases readSingle env .bytes text with
  | wild | fail => rfl
  | found single error cur =>
      dsimp only
      rcases makeSingle ops rt single with ⟨_ | obj, rt⟩
      · rfl
      · dsimp only
        split
        · rename_i hcur
          rw [show singleTrailing (env.around beyond before) .bytes text' cur =
            singleTrailing env .bytes text cur by
              show skipSpaces text' (text'.len - cur) cur = skipSpaces text (text.len - cur) cur
              rw [← h.len_eq, skipSpaces_alike h (by omega)]]
        · rfl

theorem loadsText_alike (h : text.Alike text') (hbytes : text.IsBytes) (hbytes' : text'.IsBytes)
    (hlt : 0 < text.len) (rt : σ) :
    loadsText (env.around beyond before) .bytes ops hooks hook shouldLoadsPretty text' rt =
      loadsText env .bytes ops hooks hook shouldLoadsPretty text rt := by
  have hpretty : shouldLoadsPretty text' = shouldLoadsPretty text := by
    unfold shouldLoadsPretty
    rw [← h.len_eq]
    by_cases hlong : 3 < text.len
    · rw [h.read_eq (show 1 ≤ text.len by omega), h.read_eq (show 2 ≤ text.len by omega)]
    · simp only [hlong, decide_false, Bool.false_and]
  unfold loadsText
  rw [← h.read_eq (Nat.zero_le _), hpretty, loadsRoot_alike h hbytes hbytes' hlt,
    loadsRootSingle_alike h hbytes hbytes' hlt]

/-- Where the document begins, some of the text is left. -/
theorem skipLeading_lt {src : Source} {start : Nat} (hpos : 0 < src.len)
    (h : skipLeading src = some start) : start < src.len := by
  unfold skipLeading at h
  dsimp only at h
  split_ifs at h <;> cases h <;> omega

/-- For every input, instruction set, interpreter and hooks: what a call for `bytes` returns, the
object or the error with its position, and the interpreter it leaves behind do not depend on what
the buffer for the copy of the text held before, behind the zero or in front of the text. -/
theorem decode_ignores_stale (env : DecodeEnv) (beyond before : Nat → BitVec 8)
    (ops : ObjectOps σ Obj) (hooks : Hooks) (hook : Obj → σ → Option Obj × σ) (src : Source)
    (hbytes : src.IsBytes) (rt : σ) :
    decode { env with beyond, before } .bytes ops hooks hook src rt =
      decode env .bytes ops hooks hook src rt := by
  unfold decode decodeWith
  split
  · rfl
  rename_i hne
  cases hskip : skipLeading src with
  | none => rfl
  | some start =>
      have hlt := skipLeading_lt (Nat.pos_of_ne_zero hne) hskip
      dsimp only
      by_cases hcopies : env.copies (src.len - start) = true
      · have htext : rootText env .bytes src start = some ((src.suffix start).copied env) :=
          if_pos hcopies
        have htext' : rootText { env with beyond, before } .bytes src start =
            some ((src.suffix start).copied (env.around beyond before)) := if_pos hcopies
        have hlen : ((src.suffix start).copied env).len = src.len - start := List.length_drop
        have halike : ((src.suffix start).copied env).Alike
          ((src.suffix start).copied (env.around beyond before)) := rfl
        rw [htext, htext']
        exact loadsText_alike halike (Holds.rootText (show SourceKind.Holds src .bytes from hbytes) htext)
          (Holds.rootText (show SourceKind.Holds src .bytes from hbytes) htext') (by omega) rt
      · have htext : rootText env .bytes src start = none := if_neg hcopies
        have htext' : rootText { env with beyond, before } .bytes src start = none :=
          if_neg hcopies
        rw [htext, htext']

/-- A string cut off inside a character, with quotes behind it. -/
theorem decode_ignores_stale_truncated :
    let src := Source.ofUnits [0x5B, 0x22, 0xE2, 0x82]
    let env : DecodeEnv := ⟨.avx2, fun _ => some fun _ => 0, fun _ => true, fun _ => 0, fun _ => 0⟩
    decode { env with beyond := fun _ => 0x22, before := fun _ => 0 } .bytes valueOps noHooks
        (fun v rt => (some v, rt)) src () =
      decode env .bytes valueOps noHooks (fun v rt => (some v, rt)) src () := by
  intro src env
  exact decode_ignores_stale env (fun _ => 0x22) (fun _ => 0) valueOps noHooks
    (fun v rt => (some v, rt)) src (Source.isBytes_ofUnits (by decide)) ()

end Call

end SsrJson.Decode
