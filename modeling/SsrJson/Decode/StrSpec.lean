import SsrJson.Decode.StrWriterLemmas

/-!
# The string decoders read as the plain reader does

Without escapes the characters are the units passed, and the record of the largest ones gives the
kind. With escapes the scratch buffer holds the characters read so far (`Records`), which every
round of the loop and every escape extends. Either way the result is that of `unescape`, for every
source kind and instruction set.
-/

namespace SsrJson.Decode

open Spec

variable {isa : Isa} {kind : StrKind} {src : Source}

/-! ## One round -/

/-- A round stops or passes registers like the plain reader, or finds that nothing ends the
string. -/
theorem scanNext_spec {cur : Nat} (hlt : cur < src.len) (four : Bool) (maxvec : Vec) :
    ScanSpec isa kind src cur maxvec (scanNext isa kind src four cur maxvec) ∨
    ((scanNext isa kind src four cur maxvec).state = .invalid ∧ unescape .plain (src.rest cur) = none) := by
  have hzero : ∀ b, maxvec.checkmax (readBatchCount isa kind) b = true ↔
      maxvec.checkmax (readBatchCount isa kind) b = true ∧
        (trackMax kind = true → ∀ i < 0, src.read (cur + i) ≤ b) := by
    simp
  unfold scanNext
  dsimp only
  split
  · rename_i h
    exact .inl (decodeStrLoop_spec 4 0 maxvec (by omega) (by simp) hzero (by omega))
  split
  · exact .inl (decodeStrLoop_spec 1 0 maxvec (by omega) (by simp) hzero (by omega))
  · rcases decodeStrTrailing_spec hlt (Nat.lt_of_not_le ‹_›) maxvec with h | ⟨hstate, hplain⟩
    · exact .inl h
    · refine .inr ⟨hstate, ?_⟩
      rw [unescape_slice (by omega) hplain, show cur + (src.len - cur) = src.len by omega,
        Source.rest_len, unescape_nil]
      rfl

/-- What stands behind the units a round passed. -/
theorem ScanSpec.outcome {cur : Nat} {maxvec : Vec} {scan : Scan} (hfits : src.Fits kind)
    (h : ScanSpec isa kind src cur maxvec scan) :
    match scan.state with
    | .continue => 0 < scan.doneCount
    | .end => scan.cur < src.len ∧ unescape .plain (src.rest scan.cur) = some ([], src.rest (scan.cur + 1))
    | .escape val size => 2 ≤ size ∧ scan.cur + size ≤ src.len ∧ val ≤ 0x10FFFF ∧
        unescape .plain (src.rest scan.cur) = prepend [val] (unescape .plain (src.rest (scan.cur + size)))
    | .invalid => unescape .plain (src.rest scan.cur) = none := by
  rw [h.cur_eq]
  rcases h.stop with ⟨hstate, hpos⟩ | ⟨hlt, hstop, hstate⟩
  · rw [hstate]
    exact hpos
  · have hspec := loopState_spec hfits hlt hstop
    rw [hstate]
    cases hl : loopState kind src (cur + scan.doneCount) with
    | «continue» =>
        rw [hl] at hspec
        exact hspec.elim
    | «end» =>
        rw [hl] at hspec
        exact ⟨hlt, hspec⟩
    | escape val size =>
        rw [hl] at hspec
        exact hspec
    | invalid =>
        rw [hl] at hspec
        exact hspec

/-! ## Without escapes -/

/-- From `start` to `last` all units are plain and recorded. -/
structure Passed (isa : Isa) (kind : StrKind) (src : Source) (start last : Nat) (maxvec : Vec) :
    Prop where
  le : start ≤ last
  bound : last ≤ src.len
  plain : ∀ i < last - start, isEscapeUnit (src.read (start + i)) = false
  max : ∀ b, maxvec.checkmax (readBatchCount isa kind) b = true ↔
    (trackMax kind = true → ∀ i < last - start, src.read (start + i) ≤ b)

namespace Passed

variable {start cur last : Nat} {maxvec : Vec}

theorem init (hle : start ≤ src.len) : Passed isa kind src start start Vec.setzero := by
  refine ⟨Nat.le_refl _, hle, by simp, fun b => ?_⟩
  simp [checkmax_iff, Vec.setzero]

theorem scan {scan : Scan} (h : Passed isa kind src start cur maxvec)
    (hscan : ScanSpec isa kind src cur maxvec scan) :
    Passed isa kind src start scan.cur scan.maxvec := by
  have hle := h.le
  have hsplit : cur + scan.doneCount - start = (cur - start) + scan.doneCount := by omega
  have hidx : ∀ i, start + (cur - start + i) = cur + i := by omega
  rw [hscan.cur_eq]
  refine ⟨by omega, hscan.bound, ?_, fun b => ?_⟩
  · rw [hsplit, forall_lt_add]
    simp only [hidx]
    exact ⟨h.plain, hscan.plain⟩
  · rw [hscan.max, h.max, hsplit, ← imp_and, forall_lt_add]
    simp only [hidx]

theorem unescape_eq (h : Passed isa kind src start last maxvec) :
    unescape .plain (src.rest start) =
      prepend (src.slice start (last - start)) (unescape .plain (src.rest last)) := by
  have hle := h.le
  have hbound := h.bound
  rw [unescape_slice (by omega) h.plain, show start + (last - start) = last by omega]

end Passed

/-- How the readers without copying may end. -/
def FastSpec (isa : Isa) (kind : StrKind) (src : Source) (start : Nat) :
    FastEnd × Nat × Vec → Prop
  | (.done, last, maxvec) => Passed isa kind src start last maxvec ∧ last < src.len ∧
      unescape .plain (src.rest last) = some ([], src.rest (last + 1))
  | (.escape val size, last, maxvec) => Passed isa kind src start last maxvec ∧ 2 ≤ size ∧
      last + size ≤ src.len ∧ val ≤ 0x10FFFF ∧
      unescape .plain (src.rest last) = prepend [val] (unescape .plain (src.rest (last + size)))
  | (.failed, _, _) => unescape .plain (src.rest start) = none

/-- The induction is on the fuel, which outlasts the units left. -/
theorem decodeStrFast_spec (hfits : src.Fits kind) {start : Nat} (isKey : Bool) (fuel cur : Nat)
    (maxvec : Vec) (h : Passed isa kind src start cur maxvec) (hfuel : src.len - cur < fuel) :
    FastSpec isa kind src start (decodeStrFast isa kind src isKey fuel cur maxvec) := by
  induction fuel generalizing cur maxvec with
  | zero => omega
  | succ fuel ih =>
      unfold decodeStrFast
      split
      · rename_i hend
        have hcur := Nat.le_antisymm h.bound hend
        simp only [FastSpec]
        rw [h.unescape_eq, hcur, Source.rest_len, unescape_nil, prepend_none]
      rename_i hlt
      rcases @scanNext_spec isa kind _ _ (Nat.lt_of_not_le hlt) (!isKey) maxvec with
        hscan | ⟨hstate, hnone⟩
      · have hout := hscan.outcome hfits
        have hpass := h.scan hscan
        have hcur := hscan.cur_eq
        cases hstate : (scanNext isa kind src (!isKey) cur maxvec).state with
        | «continue» =>
            simp only [hstate] at hout ⊢
            exact ih _ _ hpass (by omega)
        | «end» =>
            simp only [hstate] at hout ⊢
            exact ⟨hpass, hout⟩
        | escape val size =>
            simp only [hstate] at hout ⊢
            exact ⟨hpass, hout⟩
        | invalid =>
            simp only [hstate] at hout ⊢
            simp only [FastSpec]
            rw [hpass.unescape_eq, hout, prepend_none]
      · simp only [hstate, FastSpec]
        rw [h.unescape_eq, hnone, prepend_none]

/-! ## Storage kinds -/

theorem maxChar_le {cs : List Nat} {b : Nat} : maxChar cs ≤ b ↔ ∀ c ∈ cs, c ≤ b := by
  induction cs with
  | nil => simp [maxChar]
  | cons c cs ih =>
      have hcons : maxChar (c :: cs) = max c (maxChar cs) := rfl
      rw [hcons, Nat.max_le, ih, List.forall_mem_cons]

/-- The kind chosen from the record is that of the characters passed. -/
theorem kindFromSrc_eq (hfits : src.Fits kind) {start last : Nat} {maxvec : Vec}
    (h : Passed isa kind src start last maxvec) :
    kindFromSrc isa kind maxvec = .ofChar (maxChar (src.slice start (last - start))) := by
  have hle := h.le
  have hlast := h.bound
  have hmem : ∀ b, (∀ i < last - start, src.read (start + i) ≤ b) ↔
      maxChar (src.slice start (last - start)) ≤ b := by
    intro b
    rw [maxChar_le]
    constructor
    · rintro h c hc
      obtain ⟨i, hi, rfl⟩ := Source.mem_slice.mp hc
      exact h i hi
    · exact fun h i hi => h _ (Source.mem_slice.mpr ⟨i, hi, rfl⟩)
  have hbound : maxChar (src.slice start (last - start)) ≤ kind.maxChar :=
    (hmem _).mp fun i hi => hfits.read (by omega)
  have hmax := h.max
  simp only [hmem] at hmax
  unfold kindFromSrc StrKind.ofChar
  cases kind with
  | ascii => exact (if_pos hbound).symm
  | ucs1 | ucs2 | ucs4 =>
      simp only [trackMax, ne_eq, reduceCtorEq, not_false_eq_true, decide_true, true_implies] at hmax
      simp only [hmax, StrKind.maxChar] at hbound ⊢
      split_ifs <;> first | rfl | omega

end SsrJson.Decode
