import SsrJson.Decode.StrBounds
import SsrJson.Decode.StringStop

/-!
# Strings without an end

A reader of strings for `str` leaves the text exactly where the string has no closing quote, where
what follows its last escape is plain up to the end of the text, and where these units are no whole
number of registers (`Unclosed`). The readers for `bytes` never do. A call leaves the text exactly
where it comes to such a string (`Overshoots`).
-/

namespace SsrJson.Decode

open Spec

/-- Nothing ends the string that begins at `start`: behind escapes there are plain units up to the
end, and they do not fill their registers. -/
def Unclosed (src : Source) (batch start : Nat) : Prop :=
  ∃ cur cs, Escapes src start cs cur ∧ PlainRun src cur src.len ∧ ¬ batch ∣ src.len - cur

variable {src : Source} {batch cur : Nat}

/-- An escape takes the string on. -/
theorem unclosed_escape {p val next : Nat} (h : NextEscape src cur p val next) :
    Unclosed src batch cur ↔ Unclosed src batch next := by
  constructor
  · rintro ⟨last, cs, hescapes, hplain, hdvd⟩
    cases hescapes with
    | nil =>
        have hle := hplain.le_stop h.plain.1 h.stop
        have hlt := h.lt
        omega
    | cons hnext hrest =>
        obtain ⟨rfl, rfl, rfl⟩ := h.unique hnext
        exact ⟨last, _, hrest, hplain, hdvd⟩
  · rintro ⟨last, cs, hrest, hplain, hdvd⟩
    exact ⟨last, _, .cons h hrest, hplain, hdvd⟩

/-- Without an escape the units up to the end decide. -/
theorem unclosed_last (h : ∀ p val next, ¬ NextEscape src cur p val next) :
    Unclosed src batch cur ↔ PlainRun src cur src.len ∧ ¬ batch ∣ src.len - cur := by
  constructor
  · rintro ⟨last, cs, hescapes, hend⟩
    cases hescapes with
    | nil => exact hend
    | cons hnext _ => exact absurd hnext (h _ _ _)
  · exact fun hend => ⟨cur, [], .nil cur, hend⟩

/-- Whole registers of plain units do not matter. -/
theorem unclosed_passed {mid : Nat} (hrun : PlainRun src cur mid) (hle : mid ≤ src.len)
    (hdvd : batch ∣ mid - cur) : Unclosed src batch cur ↔ Unclosed src batch mid := by
  have hcur := hrun.1
  by_cases hescape : ∃ p val next, NextEscape src cur p val next
  · obtain ⟨p, val, next, h⟩ := hescape
    rw [unclosed_escape h, unclosed_escape (h.behind hrun)]
  · have hnone : ∀ p val next, ¬ NextEscape src cur p val next :=
      fun p val next h => hescape ⟨p, val, next, h⟩
    rw [unclosed_last hnone, unclosed_last fun p val next h => hnone p val next (h.before hrun)]
    have hsplit : src.len - cur = (mid - cur) + (src.len - mid) := by omega
    rw [hsplit, Nat.dvd_add_right hdvd]
    refine and_congr_left fun _ => ⟨fun h => ⟨hle, fun q hq => h.2 q (by omega)⟩, hrun.trans⟩

/-- At the end of the text there is nothing left to run out. -/
theorem not_unclosed_end (hend : src.len ≤ cur) (hle : cur ≤ src.len) :
    ¬ Unclosed src batch cur := by
  rw [unclosed_last fun p val next h => by
    have hp := h.plain.1
    have hlt := h.lt
    omega]
  rintro ⟨-, hdvd⟩
  rw [Nat.sub_eq_zero_of_le hend] at hdvd
  exact hdvd (Nat.dvd_zero _)

/-! ## `str` sources -/

section Str

variable {isa : Isa} {kind : StrKind}

/-- What one round says about the end of the string. -/
theorem scanNext_unclosed (hfits : src.Fits kind) (hlt : cur < src.len) (four : Bool)
    (maxvec : Vec) :
    match (scanNext isa kind src four cur maxvec).state with
    | .continue => cur < (scanNext isa kind src four cur maxvec).cur ∧
        (scanNext isa kind src four cur maxvec).cur ≤ src.len ∧
        (Unclosed src (readBatchCount isa kind) cur ↔
          Unclosed src (readBatchCount isa kind) (scanNext isa kind src four cur maxvec).cur)
    | .escape _ size => cur < (scanNext isa kind src four cur maxvec).cur + size ∧
        (scanNext isa kind src four cur maxvec).cur + size ≤ src.len ∧
        (Unclosed src (readBatchCount isa kind) cur ↔
          Unclosed src (readBatchCount isa kind)
            ((scanNext isa kind src four cur maxvec).cur + size))
    | .end => ¬ Unclosed src (readBatchCount isa kind) cur
    | .invalid => src.len < (scanNext isa kind src four cur maxvec).cur ↔
        Unclosed src (readBatchCount isa kind) cur := by
  have hround := @scanNext_roundEnd src isa kind cur hfits hlt four maxvec
  have hstop := @scanNext_stop isa src cur kind hlt four maxvec
  generalize scanNext isa kind src four cur maxvec = scan at hround hstop
  cases hround with
  | passed hstate hrun hmore hdvd =>
      rcases hstop with hscan | ⟨hinvalid, -⟩
      · rw [hstate]
        exact ⟨hmore, hscan.cur_le, unclosed_passed hrun hscan.cur_le hdvd⟩
      · rw [hstate] at hinvalid
        cases hinvalid
  | escaped hstate hnext =>
      have hafter := hnext.after
      have hplain := hnext.plain.1
      rw [hstate]
      exact ⟨by omega, hnext.bound, unclosed_escape hnext⟩
  | ended hstate hnone hnear =>
      rw [unclosed_last hnone]
      rcases hstop with hscan | ⟨hinvalid, hcur, hout⟩
      · -- A unit ends the string or is not allowed in it.
        have hclosed : ¬ PlainRun src cur src.len := by
          intro hplain
          rcases hscan.stop with ⟨hcontinue, -⟩ | ⟨hlast, hunit, -⟩
          · rcases hstate with h | h <;> rw [hcontinue] at h <;> cases h
          · have hle := hplain.le_stop (Nat.le_add_right cur _) hunit
            omega
        have hle := hscan.cur_le
        rcases hstate with h | h <;> rw [h]
        · exact fun hend => hclosed hend.1
        · exact ⟨fun hpast => absurd hle (Nat.not_le.mpr hpast), fun hend => absurd hend.1 hclosed⟩
      · -- The last register holds plain units, and fewer than it has lanes.
        rw [hinvalid]
        have hpast := hout.past
        refine iff_of_true hpast ⟨⟨hlt.le, fun q hq => hout.plain q (by omega)⟩, fun hdvd => ?_⟩
        have hle := Nat.le_of_dvd (by omega) hdvd
        omega

/-- Without escapes. The induction is on the fuel. -/
theorem decodeStrFast_unclosed (hfits : src.Fits kind) (isKey : Bool) (fuel : Nat) {maxvec : Vec}
    (hle : cur ≤ src.len) (hfuel : src.len - cur < fuel) :
    match decodeStrFast isa kind src isKey fuel cur maxvec with
    | (.done, _, _) => ¬ Unclosed src (readBatchCount isa kind) cur
    | (.escape _ size, stop, _) => stop + size ≤ src.len ∧
        (Unclosed src (readBatchCount isa kind) cur ↔
          Unclosed src (readBatchCount isa kind) (stop + size))
    | (.failed, last, _) => src.len < last ↔ Unclosed src (readBatchCount isa kind) cur := by
  induction fuel generalizing cur maxvec with
  | zero => omega
  | succ fuel ih =>
      unfold decodeStrFast
      by_cases hlt : src.len ≤ cur
      · rw [if_pos hlt]
        exact iff_of_false (Nat.not_lt.mpr hle) (not_unclosed_end hlt hle)
      rw [if_neg hlt]
      have hround := @scanNext_unclosed src cur isa kind hfits (Nat.lt_of_not_le hlt) (!isKey)
        maxvec
      dsimp only
      cases hstate : (scanNext isa kind src (!isKey) cur maxvec).state with
      | «continue» =>
          rw [hstate] at hround
          obtain ⟨hmore, hnext, hsame⟩ := hround
          have hrest := @ih _ (scanNext isa kind src (!isKey) cur maxvec).maxvec hnext (by omega)
          rw [← hsame] at hrest
          exact hrest
      | «end» =>
          rw [hstate] at hround
          exact hround
      | escape val size =>
          rw [hstate] at hround
          exact hround.2
      | invalid =>
          rw [hstate] at hround
          exact hround

/-- With escapes. -/
theorem decodeStrCopy_unclosed (hfits : src.Fits kind) (fuel : Nat) {w : Writer} {maxvec : Vec}
    (hle : cur ≤ src.len) (hfuel : src.len - cur < fuel) :
    match decodeStrCopy isa kind src fuel cur w maxvec with
    | (some _, _) => ¬ Unclosed src (readBatchCount isa kind) cur
    | (none, last) => src.len < last ↔ Unclosed src (readBatchCount isa kind) cur := by
  induction fuel generalizing cur w maxvec with
  | zero => omega
  | succ fuel ih =>
      unfold decodeStrCopy
      by_cases hlt : src.len ≤ cur
      · rw [if_pos hlt]
        exact iff_of_false (Nat.not_lt.mpr hle) (not_unclosed_end hlt hle)
      rw [if_neg hlt]
      have hround := @scanNext_unclosed src cur isa kind hfits (Nat.lt_of_not_le hlt) true maxvec
      dsimp only
      cases hstate : (scanNext isa kind src true cur maxvec).state with
      | «continue» =>
          rw [hstate] at hround
          obtain ⟨hmore, hnext, hsame⟩ := hround
          rw [hsame]
          exact ih hnext (by omega)
      | «end» =>
          rw [hstate] at hround
          exact hround
      | escape val size =>
          rw [hstate] at hround
          obtain ⟨hmore, hnext, hsame⟩ := hround
          rw [hsame]
          exact ih hnext (by omega)
      | invalid =>
          rw [hstate] at hround
          exact hround

/-- `decode_str` leaves the text exactly where the string is unclosed. -/
theorem decodeStr_unclosed (hfits : src.Fits kind) (scratch : ByteBuffer) (isKey : Bool)
    (hle : cur ≤ src.len) :
    (∃ last, decodeStr isa kind src scratch isKey cur = (none, last) ∧ src.len < last) ↔
      Unclosed src (readBatchCount isa kind) cur := by
  have hfast := @decodeStrFast_unclosed src cur isa kind hfits isKey (src.len + 1) Vec.setzero hle
    (by omega)
  unfold decodeStr
  generalize decodeStrFast isa kind src isKey (src.len + 1) cur Vec.setzero = result at hfast
  obtain ⟨_ | ⟨val, size⟩ | _, stop, maxvec⟩ := result
  · refine iff_of_false ?_ hfast
    rintro ⟨last, h, -⟩
    cases h
  · -- The rest of the string is read by the copying loops.
    obtain ⟨hstop, hsame⟩ := hfast
    have hcopy := @decodeStrCopy_unclosed src (stop + size) isa kind hfits (src.len + 1)
      (startWriter kind src scratch cur stop val) maxvec hstop (by omega)
    dsimp only
    unfold decodeStrWithEscape
    rw [hsame]
    generalize decodeStrCopy isa kind src (src.len + 1) (stop + size)
      (startWriter kind src scratch cur stop val) maxvec = copied at hcopy
    obtain ⟨_ | ⟨w, maxvec⟩, stop⟩ := copied
    · refine Iff.trans ?_ hcopy
      constructor
      · rintro ⟨last, h, hpast⟩
        cases h
        exact hpast
      · exact fun hpast => ⟨stop, rfl, hpast⟩
    · refine iff_of_false ?_ hcopy
      rintro ⟨last, h, -⟩
      cases h
  · refine Iff.trans ?_ hfast
    constructor
    · rintro ⟨last, h, hpast⟩
      cases h
      exact hpast
    · exact fun hpast => ⟨stop, rfl, hpast⟩

end Str

/-- Nothing ends the string whose quote is at `q`, and its reader leaves the text. -/
def SourceKind.Unclosed (isa : Isa) (src : Source) (q : Nat) : SourceKind → Prop
  | .str kind => Decode.Unclosed src (readBatchCount isa kind) (q + 1)
  | .bytes => False

/-- The readers of strings the root functions are compiled with. -/
theorem rootReaders_unclosed {isa : Isa} {kind : SourceKind} {scratch : ByteBuffer} {pretty : Bool}
    (hholds : kind.Holds src) (isKey : Bool) {q : Nat} (hlt : q < src.len) :
    (∃ last, (rootReaders isa scratch kind pretty).loadsString isKey src q = (none, last) ∧
      src.len < last) ↔ kind.Unclosed isa src q := by
  cases kind with
  | str kind => exact decodeStr_unclosed hholds scratch isKey hlt
  | bytes =>
      refine iff_of_false ?_ id
      rintro ⟨last, hread, hpast⟩
      have hle := loadsBytes_stop hholds scratch isKey hlt hread
      omega

end SsrJson.Decode
