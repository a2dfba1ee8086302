import SsrJson.Decode.BytesBounds
import SsrJson.Decode.StaleBytes
import SsrJson.Decode.TokenAccess

/-!
# All accesses of a call for `bytes`

Beside strings, the root functions read white space, literals, numbers and separators from the copy
of the text. This module follows a whole call: every load ends inside the copy and every store to
the scratch buffer inside its capacity, however long the text is and wherever it is cut off.
-/

namespace SsrJson.Decode

open Trace

/-! ## The root functions -/

section Root

variable (isa : Isa) (scratch : ByteBuffer) (pretty : Bool) (src : Source)

/-- The readers of a root function for `bytes`. -/
abbrev bytesReaders : Readers := rootReaders isa scratch .bytes pretty

/-- The accesses of `skipReturn`. -/
def skipReturnTrace (cur : Nat) : Trace := if pretty then load cur 1 else empty

/-- The accesses of `if (*cur == ' ') fast_skip_spaces(&cur, end)`. -/
def spacesTrace (cur : Nat) : Trace :=
  load cur 1 ++
    if src.read cur = 0x20 then fastSkipSpacesTrace src (readBatchCount isa .ucs1) cur else empty

/-- The accesses of `prettySkip`. -/
def prettySkipTrace (cur : Nat) : Trace := if pretty then spacesTrace isa src cur else empty

/-- The accesses of `if (WRAPPED_CHAR_IS_SPACE(cur)) SKIP_CONSECUTIVE_SPACES(cur)`. -/
def wsTrace (cur : Nat) : Trace :=
  load cur 1 ++
    if wrappedCharIsSpace (src.read cur) then skipConsecutiveSpacesTrace src cur else empty

/-- The accesses of `spacesThenWs`. -/
def spacesThenWsTrace (cur : Nat) : Trace :=
  spacesTrace isa src cur ++
    wsTrace src
      (if src.read cur = 0x20 then fastSkipSpaces src (readBatchCount isa .ucs1) cur else cur)

/-- The accesses of `rewindToComma`. -/
def rewindToCommaTrace : (cur : Nat) → Trace
  | 0 => empty
  | cur + 1 =>
    load (cur + 1) 1 ++ if src.read (cur + 1) = 0x2C then empty else rewindToCommaTrace cur

/-- The accesses of the arms for scalars, chosen by the unit under the cursor. After `null`, the
word `NaN` is looked for when the stack is full. -/
def scalarTrace (cur : Nat) : Trace :=
  let c := src.read cur
  if charIsNumber c then loadsNumberTrace src cur
  else if c = 0x22 then loadsBytesTrace isa src scratch false (cur + 1)
  else if c = 0x74 then readFourTrace src cur
  else if c = 0x66 then readFalseTrace src cur
  else if c = 0x6E then readFourTrace src cur ++ readNanTrace src (readNull src cur).2
  else if c = 0x69 ∨ c = 0x49 ∨ c = 0x4E then loadsInfOrNanTrace src cur
  else empty

/-- The accesses of `arrValAction`. -/
def arrValTrace (len cur : Nat) : Trace :=
  load cur 1 ++ scalarTrace isa scratch src cur ++
    if src.read cur = 0x5D ∧ len ≠ 0 then rewindToCommaTrace src (cur + 1)
    else if wrappedCharIsSpace (src.read cur) then skipConsecutiveSpacesTrace src cur
    else empty

/-- The accesses of `arrSepAction`, `colonAction` and `objSepAction`. -/
def separatorTrace (cur : Nat) : Trace :=
  byteMatch2Trace cur ++ load cur 1 ++
    if wrappedCharIsSpace (src.read cur) then spacesThenWsTrace isa src (cur + 1) else empty

/-- The accesses of `objKeyAction`. -/
def objKeyTrace (cur : Nat) : Trace :=
  load cur 1 ++
    if src.read cur = 0x22 then loadsBytesTrace isa src scratch true (cur + 1)
    else if wrappedCharIsSpace (src.read cur) then skipConsecutiveSpacesTrace src cur
    else empty

/-- The accesses of `objValAction`. -/
def objValTrace (cur : Nat) : Trace :=
  load cur 1 ++ scalarTrace isa scratch src cur ++
    if wrappedCharIsSpace (src.read cur) then
      prettySkipTrace isa pretty src (cur + 1) ++
        wsTrace src (Root.prettySkip (bytesReaders isa scratch pretty) src (cur + 1))
    else empty

/-- The accesses of `readAction`. -/
def readActionTrace (label : Label) (len cur : Nat) : Trace :=
  let behind := Root.prettySkip (bytesReaders isa scratch pretty) src cur
  match label with
  | .arrBegin | .arrEnd | .objBegin | .objEnd => skipReturnTrace pretty cur
  | .arrValBegin => prettySkipTrace isa pretty src cur ++ arrValTrace isa scratch src len behind
  | .objKeyBegin => prettySkipTrace isa pretty src cur ++ objKeyTrace isa scratch src behind
  | .arrValEnd | .objKeyEnd | .objValEnd => separatorTrace isa src cur
  | .objValBegin => objValTrace isa scratch pretty src cur
  | .docEnd => if cur < src.len then spacesThenWsTrace isa src cur else empty

variable {σ Obj : Type} (ops : ObjectOps σ Obj) (hooks : Hooks) (hook : Obj → σ → Option Obj × σ)

/-- The accesses of `Root.run`. -/
def runTrace : (fuel : Nat) → RootState σ Obj → Trace
  | 0, _ => empty
  | fuel + 1, s =>
    readActionTrace isa scratch pretty src s.label (Root.ctnLen s) s.cur ++
      match Root.resolve hook (Root.step (bytesReaders isa scratch pretty) ops hooks src s) with
      | .goto s' => runTrace fuel s'
      | _ => empty

end Root

/-! ### Bounds -/

section Within

variable {isa : Isa} {scratch : ByteBuffer} {pretty : Bool} {src : Source} {cur limit : Nat}
  (hlimit : src.len + isa.vectorBits / 8 ≤ limit) (hbytes : src.IsBytes)

include hlimit

theorem room_of_register : src.len + 2 ≤ limit := by
  have := vectorBits_ge isa
  omega

theorem spacesTrace_within (hle : cur ≤ src.len) :
    (spacesTrace isa src cur).Within limit (4 * src.len) := by
  have hlimit := room_of_register hlimit
  refine .append (unit_within hlimit hle) (.ite (fun _ => ?_) fun _ => .empty)
  exact fastSkipSpacesTrace_within hlimit _ hle

theorem prettySkipTrace_within (hle : cur ≤ src.len) :
    (prettySkipTrace isa pretty src cur).Within limit (4 * src.len) :=
  .ite (fun _ => spacesTrace_within hlimit hle) fun _ => .empty

theorem skipConsecutiveSpacesTrace_within (hlt : cur < src.len) :
    (skipConsecutiveSpacesTrace src cur).Within limit (4 * src.len) :=
  passTrace_within (room_of_register hlimit) rfl _ hlt

theorem wsTrace_within (hle : cur ≤ src.len) : (wsTrace src cur).Within limit (4 * src.len) := by
  refine .append (unit_within (room_of_register hlimit) hle) (.ite (fun hws => ?_) fun _ => .empty)
  exact skipConsecutiveSpacesTrace_within hlimit (lt_of_space hle hws)

theorem spacesThenWsTrace_within (hle : cur ≤ src.len) :
    (spacesThenWsTrace isa src cur).Within limit (4 * src.len) := by
  refine .append (spacesTrace_within hlimit hle) (wsTrace_within hlimit ?_)
  split
  · exact (fastSkipSpaces_skips _ hle).bound
  · exact hle

theorem rewindToCommaTrace_within (hle : cur ≤ src.len) :
    (rewindToCommaTrace src cur).Within limit (4 * src.len) := by
  induction cur with
  | zero => exact .empty
  | succ cur ih =>
      refine .append (unit_within (room_of_register hlimit) hle) (.ite (fun _ => .empty) fun _ => ?_)
      exact ih (by omega)

theorem separatorTrace_within (hle : cur ≤ src.len) :
    (separatorTrace isa src cur).Within limit (4 * src.len) := by
  have hroom := room_of_register hlimit
  refine .append (.append (byteMatch2Trace_within hroom hle) (unit_within hroom hle))
    (.ite (fun hws => ?_) fun _ => .empty)
  exact spacesThenWsTrace_within hlimit (lt_of_space hle hws)

include hbytes

theorem scalarTrace_within (hle : cur ≤ src.len) :
    (scalarTrace isa scratch src cur).Within limit (4 * src.len) := by
  have hroom := room_of_register hlimit
  refine .ite (fun _ => loadsNumberTrace_within hroom hle) fun _ => .ite (fun hquote => ?_) fun _ =>
    .ite (fun _ => readFourTrace_within hroom) fun _ =>
    .ite (fun _ => readFalseTrace_within hroom) fun _ =>
    .ite (fun _ => .append (readFourTrace_within hroom) (readNanTrace_within hroom)) fun _ =>
    .ite (fun _ => loadsInfOrNanTrace_within hroom) fun _ => .empty
  exact loadsBytesTrace_within hlimit hbytes _ _
    (lt_of_read_eq (c := 0x22) (by decide) hle hquote)

theorem arrValTrace_within (len : Nat) (hle : cur ≤ src.len) :
    (arrValTrace isa scratch src len cur).Within limit (4 * src.len) := by
  refine .append (.append (unit_within (room_of_register hlimit) hle)
    (scalarTrace_within hlimit hbytes hle)) (.ite (fun hclose => ?_) fun _ =>
    .ite (fun hws => ?_) fun _ => .empty)
  · exact rewindToCommaTrace_within hlimit (lt_of_read_eq (c := 0x5D) (by decide) hle hclose.1)
  · exact skipConsecutiveSpacesTrace_within hlimit (lt_of_space hle hws)

theorem objKeyTrace_within (hle : cur ≤ src.len) :
    (objKeyTrace isa scratch src cur).Within limit (4 * src.len) := by
  refine .append (unit_within (room_of_register hlimit) hle) (.ite (fun hquote => ?_) fun _ =>
    .ite (fun hws => ?_) fun _ => .empty)
  · exact loadsBytesTrace_within hlimit hbytes _ _
      (lt_of_read_eq (c := 0x22) (by decide) hle hquote)
  · exact skipConsecutiveSpacesTrace_within hlimit (lt_of_space hle hws)

theorem objValTrace_within (hle : cur ≤ src.len) :
    (objValTrace isa scratch pretty src cur).Within limit (4 * src.len) := by
  have spec := @rootReaders_spec src .bytes isa scratch pretty hbytes
  refine .append (.append (unit_within (room_of_register hlimit) hle)
    (scalarTrace_within hlimit hbytes hle)) (.ite (fun hws => ?_) fun _ => .empty)
  have hlt := lt_of_space hle hws
  exact .append (prettySkipTrace_within hlimit hlt)
    (wsTrace_within hlimit (prettySkip_skips spec hlt).bound)

/-- What is read at a label ends inside the copy, where the cursor is inside the text. -/
theorem readActionTrace_within (label : Label) (len : Nat) (hle : cur ≤ src.len) :
    (readActionTrace isa scratch pretty src label len cur).Within limit (4 * src.len) := by
  have spec := @rootReaders_spec src .bytes isa scratch pretty hbytes
  have hreturn : (skipReturnTrace pretty cur).Within limit (4 * src.len) :=
    .ite (fun _ => unit_within (room_of_register hlimit) hle) fun _ => .empty
  have hpretty : (prettySkipTrace isa pretty src cur).Within limit (4 * src.len) :=
    prettySkipTrace_within hlimit hle
  have hbehind := (prettySkip_skips spec hle).bound
  cases label with
  | arrBegin | arrEnd | objBegin | objEnd => exact hreturn
  | arrValBegin => exact .append hpretty (arrValTrace_within hlimit hbytes len hbehind)
  | objKeyBegin => exact .append hpretty (objKeyTrace_within hlimit hbytes hbehind)
  | arrValEnd | objKeyEnd | objValEnd => exact separatorTrace_within hlimit hle
  | objValBegin => exact objValTrace_within hlimit hbytes hle
  | docEnd => exact .ite (fun _ => spacesThenWsTrace_within hlimit hle) fun _ => .empty

/-- A run accesses nothing else. The induction is on the fuel; the cursor stays inside the text. -/
theorem runTrace_within {σ Obj : Type} (ops : ObjectOps σ Obj) (hooks : Hooks)
    (hook : Obj → σ → Option Obj × σ) (fuel : Nat) (s : RootState σ Obj) (hle : s.cur ≤ src.len) :
    (runTrace isa scratch pretty src ops hooks hook fuel s).Within limit (4 * src.len) := by
  have spec := @rootReaders_spec src .bytes isa scratch pretty hbytes
  induction fuel generalizing s with
  | zero => exact .empty
  | succ fuel ih =>
      have hnear : Root.Nearer src s
          (Root.step (bytesReaders isa scratch pretty) ops hooks src s) := by
        rw [Root.step_eq]
        exact Root.perform_nearer Root.readAction_fits (Root.readAction_moves spec hle _ _) hle
      have hnear := @Root.Nearer.resolve _ _ _ _ hook _ hnear
      refine .append (readActionTrace_within hlimit hbytes _ _ hle) ?_
      generalize Root.resolve hook _ = t at hnear
      cases t with
      | goto s' => exact ih s' hnear.2
      | callHook | fail | ret => exact .empty

end Within

/-! ## Calls -/

section Call

variable {σ Obj : Type} (env : DecodeEnv) (ops : ObjectOps σ Obj) (hooks : Hooks)
  (hook : Obj → σ → Option Obj × σ) (text : Source) (rt : σ)

/-- The accesses of `loadsRoot`, which looks at the first unit to see what it has to open. -/
def loadsRootTrace (pretty : Bool) : Trace :=
  match env.reserve text.len with
  | none => empty
  | some scratch =>
    load 0 1 ++ skipReturnTrace pretty 1 ++
      runTrace env.isa scratch pretty text ops hooks hook (rootFuel text)
        (Root.start (bytesReaders env.isa scratch pretty) text rt)

/-- The accesses of `readSingle`. -/
def readSingleTrace : Trace :=
  let c := text.read 0
  load 0 1 ++
    if charIsNumber c then loadsNumberTrace text 0
    else if c = 0x22 then
      match env.reserve text.len with
      | none => empty
      | some scratch => loadsBytesTrace env.isa text scratch false 1
    else if c = 0x74 then readFourTrace text 0
    else if c = 0x66 then readFalseTrace text 0
    else if c = 0x6E then
      readFourTrace text 0 ++ if (readNull text 0).1 then empty else readNanTrace text 0
    else loadsInfOrNanTrace text 0

/-- The accesses of `loadsRootSingle`. -/
def loadsRootSingleTrace : Trace :=
  readSingleTrace env text ++
    match readSingle env .bytes text with
    | .found _ _ cur =>
      if cur < text.len then skipSpacesTrace text (text.len - cur + 1) cur else empty
    | _ => empty

/-- The accesses of `shouldLoadsPretty`. -/
def shouldLoadsPrettyTrace : Trace := if 3 < text.len then load 1 1 ++ load 2 1 else empty

/-- The accesses of `loadsText`. -/
def loadsTextTrace : Trace :=
  load 0 1 ++
    if charIsContainer (text.read 0) then
      shouldLoadsPrettyTrace text ++
        loadsRootTrace env ops hooks hook text rt (shouldLoadsPretty text)
    else loadsRootSingleTrace env text

/-- The accesses of `skipLeading`, which reads the object passed to the call. -/
def skipLeadingTrace (src : Source) : Trace :=
  load 0 1 ++ if charIsSpace (src.read 0) then skipConsecutiveSpacesTrace src 0 else empty

variable {env ops hooks hook text rt} {limit : Nat}
  (hlimit : text.len + env.isa.vectorBits / 8 ≤ limit) (hbytes : text.IsBytes) (hlt : 0 < text.len)

include hlimit hbytes hlt

theorem loadsRootTrace_within (pretty : Bool) :
    (loadsRootTrace env ops hooks hook text rt pretty).Within limit (4 * text.len) := by
  unfold loadsRootTrace
  split
  · exact .empty
  · rename_i scratch hreserve
    have hbound : (Root.start (bytesReaders env.isa scratch pretty) text rt :
        RootState σ Obj).cur ≤ text.len := by
      have hskip := (@skipReturn_skips (bytesReaders env.isa scratch pretty) text 1 hlt).bound
      unfold Root.start
      split <;> exact hskip
    have hroom := room_of_register hlimit
    exact .append (.append (unit_within hroom (Nat.zero_le _))
      (.ite (fun _ => unit_within hroom hlt) fun _ => .empty))
      (runTrace_within hlimit hbytes ops hooks hook _ _ hbound)

theorem readSingleTrace_within : (readSingleTrace env text).Within limit (4 * text.len) := by
  have hroom := room_of_register hlimit
  refine .append (unit_within hroom (Nat.zero_le _)) (.ite
    (fun _ => loadsNumberTrace_within hroom (Nat.zero_le _)) fun _ => .ite (fun _ => ?_) fun _ =>
    .ite (fun _ => readFourTrace_within hroom) fun _ =>
    .ite (fun _ => readFalseTrace_within hroom) fun _ =>
    .ite (fun _ => .append (readFourTrace_within hroom) (.ite (fun _ => .empty) fun _ =>
      readNanTrace_within hroom)) fun _ => loadsInfOrNanTrace_within hroom)
  split
  · exact .empty
  · exact loadsBytesTrace_within hlimit hbytes _ _ hlt

theorem loadsRootSingleTrace_within :
    (loadsRootSingleTrace env text).Within limit (4 * text.len) := by
  refine .append (readSingleTrace_within hlimit hbytes hlt) ?_
  split
  · exact .ite (fun hcur => passTrace_within (room_of_register hlimit) rfl _ hcur.le) fun _ => .empty
  · exact .empty

/-- A call reads from the copy of its text only, and stores to the scratch buffer only. -/
theorem loadsTextTrace_within :
    (loadsTextTrace env ops hooks hook text rt).Within limit (4 * text.len) := by
  have hroom := room_of_register hlimit
  refine .append (unit_within hroom (Nat.zero_le _)) (.ite (fun _ => .append
    (.ite (fun hlong => ?_) fun _ => .empty) (loadsRootTrace_within hlimit hbytes hlt _)) fun _ =>
    loadsRootSingleTrace_within hlimit hbytes hlt)
  exact .append (.load (by omega)) (.load (by omega))

omit hlimit hbytes hlt

/-- The white space in front of the document is read up to the zero that ends the object. -/
theorem skipLeadingTrace_within {src : Source} {bound : Nat} (hpos : 0 < src.len) :
    (skipLeadingTrace src).Within (src.len + 1) bound :=
  .append (.load (by omega))
    (.ite (fun _ => passTrace_upto_zero (Nat.le_refl _) rfl _ hpos) fun _ => .empty)

/-- For every input, instruction set, interpreter and hooks, wherever the input is cut off and
whatever the buffers held before: in front of the document nothing behind the terminating zero of
the input is read; the copy of the text and its zero fit into their buffer, at any offset the
alignment of the input gives it; every load of the decoder ends inside that buffer; and every store
to the scratch buffer ends inside its capacity. -/
theorem decode_accesses_within (env : DecodeEnv) (ops : ObjectOps σ Obj) (hooks : Hooks)
    (hook : Obj → σ → Option Obj × σ) (src : Source) (hbytes : src.IsBytes) (hpos : 0 < src.len)
    (rt : σ) (start : Nat) (hstart : skipLeading src = some start) (text : Source)
    (htext : rootText env .bytes src start = some text) (offset size capacity : Nat)
    (hoffset : offset < memcpySimdSize env.isa)
    (hsize : allocAlignedBBuf env.isa text.len = some size)
    (hcapacity : checkAndReserveBytesStrBuffer env.isa text.len = some capacity) :
    (skipLeadingTrace src).Within (src.len + 1) 0 ∧ offset + text.len + 1 ≤ size ∧
      (loadsTextTrace env ops hooks hook text rt).Within (size - offset) capacity := by
  have hroom := allocAlignedBBuf_room hsize hoffset
  have hlt : 0 < text.len := by
    have hlead := skipLeading_lt hpos hstart
    have htext : (if env.copies (src.len - start) then some ((src.suffix start).copied env)
        else none) = some text := htext
    split at htext
    · obtain rfl := Option.some.inj htext
      show 0 < (src.rest start).length
      rw [Source.length_rest]
      omega
    · cases htext
  have hholds : text.IsBytes :=
    Holds.rootText (show SourceKind.Holds src .bytes from hbytes) htext
  have hwithin : (loadsTextTrace env ops hooks hook text rt).Within
      (text.len + env.isa.vectorBits / 8) (4 * text.len) :=
    loadsTextTrace_within (Nat.le_refl _) hholds hlt
  exact ⟨skipLeadingTrace_within hpos, by omega,
    hwithin.mono (by omega) (checkAndReserveBytesStrBuffer_room hcapacity)⟩

/-- A string cut off inside a character, in the last byte of a register. -/
theorem decode_accesses_within_truncated :
    let src := Source.ofUnits [0x5B, 0x22, 0xE2, 0x82]
    let env : DecodeEnv := ⟨.avx2, fun _ => some fun _ => 0, fun _ => true, fun _ => 0, fun _ => 0⟩
    (skipLeadingTrace src).Within 5 0 ∧ 31 + 4 + 1 ≤ 512 * 1024 ∧
      (loadsTextTrace env valueOps noHooks (fun v rt => (some v, rt))
        ((src.suffix 0).copied env) ()).Within (512 * 1024 - 31) (512 * 1024 - 128) := by
  intro src env
  exact decode_accesses_within env valueOps noHooks (fun v rt => (some v, rt)) src
    (Source.isBytes_ofUnits (by decide)) (by decide) () 0 (by decide) _ rfl 31 _ _ (by decide)
    (by decide) (by decide)

end Call

end SsrJson.Decode
