import Mathlib.Logic.Relation
import SsrJson.Decode.BytesBounds
import SsrJson.Decode.RootAction
import SsrJson.Decode.RootRead

/-!
# Where a string leaves the cursor

A reader of strings that succeeds leaves the cursor behind the closing quote. One that fails leaves
it at the unit that is not allowed, inside the text, with one exception: the readers for `str`
leave it one register behind the last place they looked at where no unit left ends the string
(`RunsOut`). The root functions stop where their readers do.
-/

namespace SsrJson.Decode

open Spec

/-- The cursor stands behind the end of the text, by less than a register, and the register before
it held plain units only, as far as the text goes. -/
structure RunsOut (src : Source) (batch stop : Nat) : Prop where
  past : src.len < stop
  near : stop < src.len + batch
  plain : ∀ pos, stop ≤ pos + batch → pos < src.len → isEscapeUnit (src.read pos) = false

/-- Where a reader of strings that fails may leave the cursor. -/
def SourceKind.Stopped (isa : Isa) (src : Source) (stop : Nat) : SourceKind → Prop
  | .str kind => stop ≤ src.len ∨ RunsOut src (readBatchCount isa kind) stop
  | .bytes => stop ≤ src.len

theorem SourceKind.Stopped.of_le {isa : Isa} {src : Source} {stop : Nat} (kind : SourceKind)
    (h : stop ≤ src.len) : kind.Stopped isa src stop := by
  cases kind with
  | str kind => exact .inl h
  | bytes => exact h

variable {isa : Isa} {src : Source} {cur : Nat}

/-! ## `str` sources -/

section Str

variable {kind : StrKind}

/-- The reader of the last units stops like the others, or the string runs out. -/
theorem decodeStrTrailing_stop (hlt : cur < src.len)
    (hshort : src.len < cur + readBatchCount isa kind) (maxvec : Vec) :
    ScanSpec isa kind src cur maxvec (decodeStrTrailing isa kind src cur maxvec) ∨
    ((decodeStrTrailing isa kind src cur maxvec).state = .invalid ∧
      (decodeStrTrailing isa kind src cur maxvec).cur = cur + readBatchCount isa kind ∧
      RunsOut src (readBatchCount isa kind) (decodeStrTrailing isa kind src cur maxvec).cur) := by
  refine (decodeStrTrailing_spec hlt hshort maxvec).imp_right fun ⟨hstate, hplain⟩ => ⟨hstate, ?_⟩
  have hcur : (decodeStrTrailing isa kind src cur maxvec).cur = cur + readBatchCount isa kind := by
    unfold decodeStrTrailing
    dsimp only
    cases hfirst : firstLane (readBatchCount isa kind) (trailingMask isa kind src cur) with
    | none => rfl
    | some i =>
        -- A lane is set for none of the units left.
        obtain ⟨hi, hset, -⟩ := firstLane_eq_some.mp hfirst
        obtain ⟨hlow, hhigh, hesc⟩ := (trailingMask_eq hlt hshort hi).mp hset
        rw [hplain _ (by omega)] at hesc
        cases hesc
  rw [hcur]
  refine ⟨rfl, hshort, by omega, fun pos hpos hlast => ?_⟩
  have h := hplain (pos - cur) (by omega)
  rwa [Nat.add_sub_cancel' (by omega)] at h

/-- A round leaves the cursor inside the text, or the string runs out. -/
theorem scanNext_stop (hlt : cur < src.len) (four : Bool) (maxvec : Vec) :
    ScanSpec isa kind src cur maxvec (scanNext isa kind src four cur maxvec) ∨
    ((scanNext isa kind src four cur maxvec).state = .invalid ∧
      (scanNext isa kind src four cur maxvec).cur = cur + readBatchCount isa kind ∧
      RunsOut src (readBatchCount isa kind) (scanNext isa kind src four cur maxvec).cur) := by
  have hzero : ∀ b, maxvec.checkmax (readBatchCount isa kind) b = true ↔
      maxvec.checkmax (readBatchCount isa kind) b = true ∧
        (trackMax kind = true → ∀ i < 0, src.read (cur + i) ≤ b) := by
    simp
  unfold scanNext
  dsimp only
  split
  · exact .inl (decodeStrLoop_spec 4 0 maxvec (by omega) (by simp) hzero (by omega))
  split
  · exact .inl (decodeStrLoop_spec 1 0 maxvec (by omega) (by simp) hzero (by omega))
  · exact decodeStrTrailing_stop hlt (Nat.lt_of_not_le ‹_›) maxvec

theorem ScanSpec.cur_le {maxvec : Vec} {scan : Scan} (h : ScanSpec isa kind src cur maxvec scan) :
    scan.cur ≤ src.len := by
  rw [h.cur_eq]
  exact h.bound

/-- Without escapes. The induction is on the fuel. -/
theorem decodeStrFast_stop (isKey : Bool) (fuel : Nat) {maxvec maxvec' : Vec} {last : Nat}
    (hle : cur ≤ src.len)
    (h : decodeStrFast isa kind src isKey fuel cur maxvec = (.failed, last, maxvec')) :
    (SourceKind.str kind).Stopped isa src last := by
  induction fuel generalizing cur maxvec with
  | zero =>
      cases h
      exact .inl hle
  | succ fuel ih =>
      unfold decodeStrFast at h
      split at h
      · cases h
        exact .inl hle
      rename_i hlt
      dsimp only at h
      rcases @scanNext_stop isa _ _ kind (Nat.lt_of_not_le hlt) (!isKey) maxvec with
        hscan | ⟨hstate, -, hout⟩
      · have hcur := hscan.cur_le
        split at h
        · exact ih hcur h
        · cases h
        · cases h
        · cases h
          exact .inl hcur
      · rw [hstate] at h
        cases h
        exact .inr hout

/-- With escapes. -/
theorem decodeStrCopy_stop (hfits : src.Fits kind) (fuel : Nat) {w : Writer} {maxvec : Vec}
    {last : Nat} (hle : cur ≤ src.len)
    (h : decodeStrCopy isa kind src fuel cur w maxvec = (none, last)) :
    (SourceKind.str kind).Stopped isa src last := by
  induction fuel generalizing cur w maxvec with
  | zero =>
      cases h
      exact .inl hle
  | succ fuel ih =>
      unfold decodeStrCopy at h
      split at h
      · cases h
        exact .inl hle
      rename_i hlt
      dsimp only at h
      rcases @scanNext_stop isa _ _ kind (Nat.lt_of_not_le hlt) true maxvec with
        hscan | ⟨hstate, -, hout⟩
      · have hcur := hscan.cur_le
        have houtcome := hscan.outcome hfits
        split at h
        · exact ih hcur h
        · cases h
        · rename_i val size hstate
          rw [hstate] at houtcome
          exact ih houtcome.2.1 h
        · cases h
          exact .inl hcur
      · rw [hstate] at h
        cases h
        exact .inr hout

/-- `decode_str` leaves the cursor inside the text, or the string runs out. -/
theorem decodeStr_stop (hfits : src.Fits kind) (scratch : ByteBuffer) (isKey : Bool) {last : Nat}
    (hle : cur ≤ src.len) (h : decodeStr isa kind src scratch isKey cur = (none, last)) :
    (SourceKind.str kind).Stopped isa src last := by
  have hfast := decodeStrFast_spec hfits isKey (src.len + 1) cur Vec.setzero
    (@Passed.init isa _ _ _ hle) (by omega)
  unfold decodeStr at h
  generalize hresult : decodeStrFast isa kind src isKey (src.len + 1) cur Vec.setzero = result
    at h hfast
  obtain ⟨_ | ⟨val, size⟩ | _, stop, maxvec⟩ := result
  · cases h
  · dsimp only at h
    unfold decodeStrWithEscape at h
    generalize hcopy : decodeStrCopy isa kind src (src.len + 1) (stop + size)
      (startWriter kind src scratch cur stop val) maxvec = copied at h
    obtain ⟨_ | ⟨w, maxvec⟩, stop⟩ := copied
    · cases h
      exact decodeStrCopy_stop hfits _ hfast.2.2.1 hcopy
    · cases h
  · cases h
    exact decodeStrFast_stop isKey _ hle hresult

end Str

/-! ## `bytes` sources -/

section Bytes

variable (hbytes : src.IsBytes)

include hbytes

/-- The loops over blocks and escapes. The induction is on the fuel; the writer stays in front of
the cursor. -/
theorem decodeBytesUtf8Loop_stop (fuel : Nat) {w : Writer} (h : InPlace src w cur) :
    (decodeBytesUtf8Loop isa src fuel w cur).2 ≤ src.len := by
  induction fuel generalizing w cur with
  | zero => exact h.le
  | succ fuel ih =>
      have hle := h.le
      obtain ⟨state, w', cur', ds, heq, hspec⟩ := decodeBytesBlock_spec isa hbytes (src.len + 1) 32
        (by decide) h.sound hle (by omega)
      have h' := h.copied hspec.copied
      have hle' := h'.le
      have hstop := hspec.stop
      unfold decodeBytesUtf8Loop
      rw [heq]
      cases state with
      | «continue» => exact ih h'
      | «end» => exact hle'
      | escape =>
          have hback : src.read cur' = 0x5C := hstop
          have hlt := Source.lt_of_read hle' (show src.read cur' ≠ 0 by omega)
          have hescape := doDecodeEscape_spec hbytes.fits hlt
          dsimp only
          cases hread : doDecodeEscape .ucs1 src cur' with
          | none => exact hle'
          | some read =>
              obtain ⟨val, size⟩ := read
              rw [hread] at hescape
              cases hescape with
              | found htwo hsize hval hsome =>
                  exact ih (h'.processEscapeAscii val (show 0 < size by omega) hsize)
      | promote => exact ih (h'.promoteBuffer _)
      | invalid => exact hle'

/-- `loads_bytes` leaves the cursor inside the text. -/
theorem loadsBytes_stop (scratch : ByteBuffer) (isKey : Bool) {start last : Nat}
    (hle : start ≤ src.len) (h : loadsBytes isa src scratch isKey start = (none, last)) :
    last ≤ src.len := by
  have hscan := (bytesScan_alike (rfl : src.Alike src) isa isKey hle).2
  unfold loadsBytes at h
  dsimp only at h
  generalize bytesScan isa src isKey start = cur at hscan h
  split at h
  · cases h
  split at h
  · cases h
    exact hscan
  unfold decodeBytesUtf8 at h
  dsimp only at h
  have hplace : InPlace src ((Writer.put ⟨1, scratch, 0, 0, 0, true, 0⟩ 0 (cur - start)
      (loadVec src start)).advance (cur - start)) cur := by
    refine ⟨?_, hscan, ?_⟩
    · exact Writer.Sound.advance (w := Writer.put ⟨1, scratch, 0, 0, 0, true, 0⟩ 0 (cur - start) _)
        ⟨.inl rfl, fun _ => ⟨rfl, rfl⟩, fun _ => rfl⟩ _
    · rw [advance_pos]
      show 0 + 0 + 0 + (cur - start) ≤ cur
      omega
  have hloop := @decodeBytesUtf8Loop_stop isa _ _ hbytes (2 * src.len + 3) _ hplace
  split at h
  · cases h
  · rename_i heq
    cases h
    rwa [heq] at hloop

end Bytes

/-! ## The root functions -/

section Root

variable {kind : SourceKind} {scratch : ByteBuffer} {pretty : Bool}

/-- The readers of strings the root functions are compiled with. -/
theorem rootReaders_stop (hholds : kind.Holds src) (isKey : Bool) {last : Nat} (hlt : cur < src.len)
    (h : (rootReaders isa scratch kind pretty).loadsString isKey src cur = (none, last)) :
    kind.Stopped isa src last := by
  cases kind with
  | str kind => exact decodeStr_stop hholds scratch isKey hlt h
  | bytes => exact loadsBytes_stop hholds scratch isKey hlt h

/-- An action that fails with an invalid string does so at a place of `P`. -/
def RootAction.StringStops (P : Nat → Prop) : RootAction → Prop
  | .fail error cur => error = .invalidString → P cur
  | _ => True

namespace Root

variable {readers : Readers} {P : Nat → Prop} {next : Label} {len : Nat}
  {enc : Nat → Option (List Nat)} {numVal : List Nat → Num}

/-- At a label with the cursor at `cur`, the string that begins at `q` is read next. -/
structure StringDue (readers : Readers) (src : Source) (label : Label) (cur q : Nat) : Prop where
  quote : src.read q = 0x22
  place : (label = .arrValBegin ∨ label = .objKeyBegin) ∧ q = prettySkip readers src cur ∨
    label = .objValBegin ∧ q = cur

theorem StringDue.lt (spec : ReadersSpec readers enc numVal src) {label : Label} {q : Nat}
    (hle : cur ≤ src.len) (h : StringDue readers src label cur q) : q < src.len := by
  have hquote := h.quote
  refine Source.lt_of_read ?_ (by omega)
  rcases h.place with ⟨-, hq⟩ | ⟨-, hq⟩
  · exact hq ▸ (prettySkip_skips spec hle).bound
  · exact hq ▸ hle

theorem numberAction_stops : (numberAction readers src next cur).StringStops P := by
  unfold numberAction
  rcases readers.loadsNumber src cur with ⟨_ | _, _⟩
  · exact nofun
  · trivial

theorem trueAction_stops : (trueAction src next cur).StringStops P := by
  unfold trueAction
  rcases readTrue src cur with ⟨_ | _, _⟩
  · exact nofun
  · trivial

theorem falseAction_stops : (falseAction src next cur).StringStops P := by
  unfold falseAction
  rcases readFalse src cur with ⟨_ | _, _⟩
  · exact nofun
  · trivial

theorem nullAction_stops : (nullAction src next cur).StringStops P := by
  unfold nullAction
  rcases readNull src cur with ⟨_ | _, cur⟩
  · dsimp only
    rcases readNan src cur with ⟨_ | _, _⟩
    · exact nofun
    · trivial
  · trivial

theorem infAction_stops : (infAction src next cur).StringStops P := by
  unfold infAction
  rcases loadsInfOrNan src false cur with ⟨_ | _, _⟩
  · exact nofun
  · trivial

section

variable (hstop : src.read cur = 0x22 → ∀ isKey last,
  readers.loadsString isKey src cur = (none, last) → P last)

include hstop

theorem stringAction_stops (hquote : src.read cur = 0x22) :
    (stringAction readers src next cur).StringStops P := by
  unfold stringAction
  rcases hread : readers.loadsString false src cur with ⟨_ | _, last⟩
  · exact fun _ => hstop hquote false last hread
  · trivial

theorem keyAction_stops (hquote : src.read cur = 0x22) :
    (keyAction readers src cur).StringStops P := by
  unfold keyAction
  rcases hread : readers.loadsString true src cur with ⟨_ | _, last⟩
  · exact fun _ => hstop hquote true last hread
  · trivial

theorem arrValAction_stops : (arrValAction readers src len cur).StringStops P := by
  unfold arrValAction
  dsimp only
  split_ifs with _ _ _ hquote
  · trivial
  · trivial
  · exact numberAction_stops
  · exact stringAction_stops hstop hquote
  · exact trueAction_stops
  · exact falseAction_stops
  · exact nullAction_stops
  · trivial
  · exact nofun
  · trivial
  · exact infAction_stops
  · exact nofun

theorem objKeyAction_stops : (objKeyAction readers src len cur).StringStops P := by
  unfold objKeyAction
  dsimp only
  split_ifs with hquote
  · exact keyAction_stops hstop hquote
  · trivial
  · exact nofun
  · trivial
  · exact nofun

theorem objValAction_stops : (objValAction readers src cur).StringStops P := by
  unfold objValAction
  dsimp only
  split_ifs with hquote
  · exact stringAction_stops hstop hquote
  · exact numberAction_stops
  · trivial
  · trivial
  · exact trueAction_stops
  · exact falseAction_stops
  · exact nullAction_stops
  · trivial
  · trivial
  · exact infAction_stops
  · exact nofun

end

/-- What a text asks for fails with an invalid string where the reader of a string that is due
does. -/
theorem readAction_stops {label : Label} (hstop : ∀ isKey q last,
    StringDue readers src label cur q → readers.loadsString isKey src q = (none, last) → P last) :
    (readAction readers src label len cur).StringStops P := by
  cases label with
  | arrBegin => trivial
  | arrValBegin =>
      exact arrValAction_stops fun hquote isKey last =>
        hstop isKey _ last ⟨hquote, .inl ⟨.inl rfl, rfl⟩⟩
  | arrValEnd =>
      show (arrSepAction readers src cur).StringStops _
      unfold arrSepAction
      dsimp only
      split_ifs <;> first | trivial | exact nofun
  | arrEnd => trivial
  | objBegin => trivial
  | objKeyBegin =>
      exact objKeyAction_stops fun hquote isKey last =>
        hstop isKey _ last ⟨hquote, .inl ⟨.inr rfl, rfl⟩⟩
  | objKeyEnd =>
      show (colonAction readers src cur).StringStops _
      unfold colonAction
      dsimp only
      split_ifs <;> first | trivial | exact nofun
  | objValBegin =>
      exact objValAction_stops fun hquote isKey last => hstop isKey _ last ⟨hquote, .inr ⟨rfl, rfl⟩⟩
  | objValEnd =>
      show (objSepAction readers src cur).StringStops _
      unfold objSepAction
      dsimp only
      split_ifs <;> first | trivial | exact nofun
  | objEnd => trivial
  | docEnd =>
      show (docAction readers src cur).StringStops _
      unfold docAction
      dsimp only
      split_ifs <;> first | trivial | exact nofun

/-- Where the string that is due cannot be read, the text asks to fail there. -/
theorem StringDue.readAction {label : Label} {q : Nat} (h : StringDue readers src label cur q)
    (hfail : ∀ isKey, ∃ last, readers.loadsString isKey src q = (none, last) ∧ P last) :
    ∃ last, readAction readers src label len cur = .fail .invalidString last ∧ P last := by
  obtain ⟨vlast, hval, hpval⟩ := hfail false
  obtain ⟨klast, hkey, hpkey⟩ := hfail true
  obtain ⟨hquote, ⟨rfl | rfl, rfl⟩ | ⟨rfl, rfl⟩⟩ := h
  · refine ⟨vlast, ?_, hpval⟩
    show arrValAction readers src len _ = _
    unfold arrValAction stringAction
    rw [hquote, hval]
    rfl
  · refine ⟨klast, ?_, hpkey⟩
    show objKeyAction readers src len _ = _
    unfold objKeyAction keyAction
    rw [hquote, hkey]
    rfl
  · refine ⟨vlast, ?_, hpval⟩
    show objValAction readers src _ = _
    unfold objValAction stringAction
    rw [hquote, hval]
    rfl

/-- On values only the text makes a string invalid. -/
theorem perform_invalidString {objVal : List (PyStr × PyVal) → PyVal}
    {s s' : RootState Unit PyVal} {action : RootAction}
    (haction : action.StringStops P)
    (h : perform (valuesWith objVal) noHooks s action = .fail .invalidString s') : P s'.cur := by
  cases action with
  | jump label cur => cases h
  | openCtn isArr cur =>
      rw [perform] at h
      split at h <;> cases h
  | scalar scalar next error cur => cases scalar <;> cases h
  | null next nan cur => cases h
  | key made cur => cases h
  | close isArr cur =>
      unfold perform performClose at h
      generalize s.ctn.tail = outer at h
      cases isArr <;> cases outer <;> cases h
  | finish cur =>
      rw [perform, success] at h
      split at h <;> cases h
  | fail error cur =>
      cases h
      exact haction rfl

end Root

/-! ### Runs -/

section Runs

variable {readers : Readers} {P : Nat → Prop} {enc : Nat → Option (List Nat)}
  {numVal : List Nat → Num} {objVal : List (PyStr × PyVal) → PyVal}
  (hook : PyVal → Unit → Option PyVal × Unit) {s s' s₀ : RootState Unit PyVal}

/-- One jump of the root machine. -/
def Root.Jumps (readers : Readers) (objVal : List (PyStr × PyVal) → PyVal) (src : Source)
    (s s' : RootState Unit PyVal) : Prop :=
  Root.step readers (valuesWith objVal) noHooks src s = .goto s'

/-- A run that ends with an invalid string ends where the reader of a string does that is due in a
state it came through. The induction is on the fuel; the states hold configurations of the
grammar. -/
theorem run_stops (spec : ReadersSpec readers enc numVal src) (fuel : Nat) {c : Config}
    (habs : Abs src c s)
    (hstop : ∀ s₀, Relation.ReflTransGen (Root.Jumps readers objVal src) s s₀ → ∀ isKey q last,
      Root.StringDue readers src s₀.label s₀.cur q → q < src.len →
      readers.loadsString isKey src q = (none, last) → P last)
    (h : Root.run readers (valuesWith objVal) noHooks src hook fuel s =
      some (.error .invalidString, s')) :
    P s'.cur := by
  induction fuel generalizing s c with
  | zero => cases h
  | succ fuel ih =>
      have hsim := @step_simulates _ _ _ objVal _ _ _ spec habs
      have hstops : (Root.readAction readers src s.label (Root.ctnLen s) s.cur).StringStops P :=
        Root.readAction_stops fun isKey q last hdue =>
          hstop s .refl isKey q last hdue (hdue.lt spec habs.bound)
      unfold Root.run at h
      cases hstep : Root.step readers (valuesWith objVal) noHooks src s with
      | goto next =>
          rw [hstep] at hsim h
          obtain ⟨-, c', habs', -⟩ := hsim
          exact ih habs' (fun s₀ hreach => hstop s₀ (.head hstep hreach)) h
      | fail e next =>
          rw [hstep] at h
          cases h
          rw [Root.step_eq] at hstep
          exact Root.perform_invalidString hstops hstep
      | ret v next =>
          rw [hstep] at h
          cases h
      | callHook a rt k =>
          rw [hstep] at hsim
          exact hsim.elim

/-- A run that comes to a state whose step fails ends with it. -/
theorem run_of_jumps (hreach : Relation.ReflTransGen (Root.Jumps readers objVal src) s s₀)
    {error : DecodeError} {s₁ : RootState Unit PyVal}
    (hfail : Root.step readers (valuesWith objVal) noHooks src s₀ = .fail error s₁) {fuel : Nat}
    {result : Except DecodeError PyVal × RootState Unit PyVal}
    (h : Root.run readers (valuesWith objVal) noHooks src hook fuel s = some result) :
    result = (.error error, s₁) := by
  induction hreach using Relation.ReflTransGen.head_induction_on generalizing fuel with
  | refl =>
      cases fuel with
      | zero => cases h
      | succ fuel =>
          unfold Root.run at h
          rw [hfail] at h
          exact (Option.some.inj h).symm
  | head hjump _ ih =>
      cases fuel with
      | zero => cases h
      | succ fuel =>
          unfold Root.run at h
          rw [show Root.step readers (valuesWith objVal) noHooks src _ = _ from hjump] at h
          exact ih h

end Runs

end Root

end SsrJson.Decode
