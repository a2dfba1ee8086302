import SsrJson.Decode.NumberToken
import SsrJson.Library.AccessLog

/-!
# The loads of the readers without vectors

White space, literals and numbers are read unit by unit or in small groups, always a little ahead of
what is accepted. Each reader has a trace beside it that goes the same way; none of them stores
anything. All loads end at most one unit behind the zero that terminates the text.
-/

namespace SsrJson.Decode

open Trace

section Source

variable (src : Source)

/-! ## Loops over single units -/

/-- The accesses of a loop that passes the units with a property. -/
def passTrace (p : Nat → Bool) : (fuel cur : Nat) → Trace
  | 0, _ => empty
  | fuel + 1, cur => load cur 1 ++ if p (src.read cur) then passTrace p fuel (cur + 1) else empty

/-- The accesses of `skipSpaces`. -/
def skipSpacesTrace (fuel cur : Nat) : Trace := passTrace src wrappedCharIsSpace fuel cur

/-- The accesses of `skipDigits`. -/
def skipDigitsTrace (fuel cur : Nat) : Trace := passTrace src digiIsDigit fuel cur

/-- The accesses of `skipZeros`. -/
def skipZerosTrace (fuel cur : Nat) : Trace := passTrace src (fun u => u == 0x30) fuel cur

/-- The accesses of `readExpLit`. -/
def readExpLitTrace (fuel cur : Nat) : Trace := passTrace src digiIsDigit fuel cur

/-- The accesses of `readDigits`. -/
def readDigitsTrace (left cur : Nat) : Trace := passTrace src (fun u => digitNum u ≤ 9) left cur

/-- The accesses of `skipConsecutiveSpaces`. -/
def skipConsecutiveSpacesTrace (cur : Nat) : Trace := skipSpacesTrace src (src.len - cur) (cur + 1)

/-- The accesses of `backOverZeros`. -/
def backOverZerosTrace : (tmp : Nat) → Trace
  | 0 => empty
  | tmp + 1 =>
    load (tmp + 1) 1 ++
      if src.read (tmp + 1) = 0x30 ∨ src.read (tmp + 1) = 0x2E then backOverZerosTrace tmp else empty

/-! ## Groups of units -/

/-- The accesses of `cmpeq2Chars`. -/
def cmpeq2CharsTrace (cur : Nat) : Trace := if cur + 2 ≤ src.len then load cur 2 else empty

/-- The accesses of `byteMatch2`. -/
def byteMatch2Trace (cur : Nat) : Trace := load cur 2

/-- The accesses of `skipSpacePairs`. -/
def skipSpacePairsTrace : (fuel cur : Nat) → Trace
  | 0, _ => empty
  | fuel + 1, cur =>
    cmpeq2CharsTrace src cur ++
      if cmpeq2Chars src cur 0x20 0x20 then skipSpacePairsTrace fuel (cur + 2) else load cur 1

/-- The accesses of `fastSkipSpacesLoop`. -/
def fastSkipSpacesLoopTrace (batch : Nat) : (fuel cur : Nat) → Trace
  | 0, _ => empty
  | fuel + 1, cur =>
    if cur + batch < src.len then
      load cur batch ++
        match firstLane batch (fun i => src.read (cur + i) != 0x20) with
        | none => fastSkipSpacesLoopTrace batch fuel (cur + batch)
        | some _ => empty
    else skipSpacePairsTrace src (src.len - cur + 1) cur

/-- The accesses of `fastSkipSpaces`. -/
def fastSkipSpacesTrace (batch cur : Nat) : Trace :=
  fastSkipSpacesLoopTrace src batch (src.len - cur + 1) cur

/-- The accesses of `readTrue` and `readNull`. -/
def readFourTrace (cur : Nat) : Trace := if cur + 4 ≤ src.len then load cur 4 else empty

/-- The accesses of `readFalse`. -/
def readFalseTrace (cur : Nat) : Trace := if cur + 4 ≤ src.len then load (cur + 1) 4 else empty

/-- The accesses of `readInf`. -/
def readInfTrace (cur : Nat) : Trace := if src.len < cur + 8 then empty else load cur 8

/-- The accesses of `readNan`, which loads the unit behind the word too. -/
def readNanTrace (cur : Nat) : Trace := if src.len < cur + 3 then empty else load cur 4

/-- The accesses of `loadsInfOrNan`. -/
def loadsInfOrNanTrace (cur : Nat) : Trace :=
  readInfTrace src cur ++ if (readInf src cur).1 then empty else readNanTrace src cur

/-! ## Numbers -/

/-- The accesses of `setBufLoop`. -/
def setBufLoopTrace (sigEnd dotPos : Nat) : (fuel cur : Nat) → Trace
  | 0, _ => empty
  | fuel + 1, cur =>
    if sigEnd ≤ cur then empty
    else if cur = dotPos then setBufLoopTrace sigEnd dotPos fuel (cur + 1)
    else load cur 1 ++ setBufLoopTrace sigEnd dotPos fuel (cur + 1)

/-- The accesses of `bigintSetBuf`. -/
def bigintSetBufTrace (d : Decimal) : Trace :=
  match d.sigCut with
  | none => empty
  | some sigCut =>
    let hasDot := sigCut < d.dotPos ∧ d.dotPos < d.sigEnd
    let total := (19 + (d.sigEnd - sigCut) % 2 ^ 32 - if hasDot then 1 else 0) % 2 ^ 32
    let bigCut := 768 < total
    let sigEnd := if bigCut then d.sigEnd - (total - 769) else d.sigEnd
    let sigEnd := if bigCut ∧ d.dotPos + 1 = sigEnd then sigEnd - 1 else sigEnd
    load sigCut 1 ++ setBufLoopTrace sigEnd d.dotPos (sigEnd - sigCut) sigCut

/-- The accesses of `digiFinish`. -/
def digiFinishTrace (d : Decimal) : Trace :=
  let fast :=
    if d.sigCut = none ∧ -308 + 1 < d.exp ∧ d.exp < 308 - 20 then fastPath d.sig d.exp else none
  if fast.isSome then empty
  else
    let (raw, certain) := diyApproximate d.sig d.exp d.sigCut.isSome
    if raw = Binary64.infRaw ∨ certain then empty else bigintSetBufTrace d

/-- The accesses of `digiExpFinish`. -/
def digiExpFinishTrace (d : Decimal) : Trace :=
  if d.exp < -324 - 19 then empty else if 308 < d.exp then empty else digiFinishTrace d

/-- The accesses of `digiExpMore`. -/
def digiExpMoreTrace (d : Decimal) (cur : Nat) : Trace :=
  let cur := cur + 1
  let expSign := src.read cur = 0x2D
  let cur' := if digiIsSign (src.read cur) then cur + 1 else cur
  load cur 1 ++ load cur' 1 ++
    if digiIsDigit (src.read cur') = false then empty
    else
      let tmp := skipZeros src (src.len + 1) cur'
      let (last, expLit) := readExpLit src (src.len + 1) tmp 0
      skipZerosTrace src (src.len + 1) cur' ++ readExpLitTrace src (src.len + 1) tmp ++
        if 19 ≤ last - tmp then empty
        else digiExpFinishTrace { d with exp := if expSign then d.exp - expLit else d.exp + expLit }

/-- The accesses of `digiFracEnd`. -/
def digiFracEndTrace (sig dotPos cur : Nat) : Trace :=
  if dotPos + 1 = cur then empty
  else
    let d : Decimal := ⟨sig, -((cur - dotPos - 1 : Nat) : Int), none, cur, dotPos⟩
    load cur 1 ++
      if digiIsExp (src.read cur) then digiExpMoreTrace src d cur
      else if d.exp < -324 - 19 then empty else digiFinishTrace d

/-- The accesses of `digiFracMoreEnd`. -/
def digiFracMoreEndTrace (sig sigCut dotPos cur : Nat) : Trace :=
  let exp : Int := (dotPos : Int) - sigCut + if dotPos < sigCut then 1 else 0
  let cut := if backOverZeros src (cur - 1) < sigCut then none else some sigCut
  let d : Decimal := ⟨sig, exp, cut, cur, dotPos⟩
  backOverZerosTrace src (cur - 1) ++ load cur 1 ++
    if digiIsExp (src.read cur) then digiExpMoreTrace src d cur else digiExpFinishTrace d

/-- The accesses of `digiFracMore`. -/
def digiFracMoreTrace (sig : Nat) (dotPos : Option Nat) (sigCut : Nat) : Trace :=
  let sig := (sig + if 0x35 ≤ src.read sigCut then 1 else 0) % 2 ^ 64
  let cur := skipDigits src (src.len + 1) (sigCut + 1)
  load sigCut 1 ++ skipDigitsTrace src (src.len + 1) (sigCut + 1) ++
    match dotPos with
    | some dotPos => digiFracMoreEndTrace src sig sigCut dotPos cur
    | none =>
      load cur 1 ++
        if src.read cur = 0x2E then
          load (cur + 1) 1 ++
            if digiIsDigit (src.read (cur + 1)) = false then empty
            else
              skipDigitsTrace src (src.len + 1) (cur + 1) ++
                digiFracMoreEndTrace src sig sigCut cur (skipDigits src (src.len + 1) (cur + 1))
        else digiFracMoreEndTrace src sig sigCut cur cur

/-- The accesses of `digiFrac`. -/
def digiFracTrace (sig dotPos left cur : Nat) : Trace :=
  let (next, sig') := readDigits src left cur sig
  readDigitsTrace src left cur ++
    if next < cur + left then digiFracEndTrace src sig' dotPos next
    else
      load next 1 ++
        if digiIsDigit (src.read next) then digiFracMoreTrace src sig' (some dotPos) next
        else digiFracEndTrace src sig' dotPos next

/-- The accesses of `digiIntgMore`. The unit behind a digit is looked at, too. -/
def digiIntgMoreTrace (sig cur : Nat) : Trace :=
  let c := src.read cur
  let num := digitNum c
  load cur 1 ++ (if digiIsDigit c then load (cur + 1) 1 else empty) ++
    if digiIsDigit c ∧ digiIsDigitOrFp (src.read (cur + 1)) = false ∧
        (sig < u64Max / 10 ∨ sig = u64Max / 10 ∧ num ≤ u64Max % 10) then empty
    else if digiIsExp c then digiExpMoreTrace src ⟨sig, 0, none, 0, cur⟩ cur
    else if c = 0x2E then
      load (cur + 1) 1 ++
        if digiIsDigit (src.read (cur + 1)) = false then empty
        else digiFracMoreTrace src sig (some cur) (cur + 1)
    else digiFracMoreTrace src sig none cur

/-- The accesses of `digiNonzero` behind the first digits, which end at `next`. -/
def digiNonzeroEndTrace (cur next sig : Nat) : Trace :=
  let c := src.read next
  load next 1 ++
    if next < cur + 19 then
      if digiIsFp c = false then empty
      else if c = 0x2E then digiFracTrace src sig next (cur + 19 - next) (next + 1)
      else digiExpMoreTrace src ⟨sig, 0, none, next, next⟩ next
    else if digiIsDigitOrFp c = false then empty
    else digiIntgMoreTrace src sig next

/-- The accesses of `digiNonzero`. -/
def digiNonzeroTrace (cur : Nat) : Trace :=
  load cur 1 ++ readDigitsTrace src 18 (cur + 1) ++
    digiNonzeroEndTrace src cur (readDigits src 18 (cur + 1) (digitNum (src.read cur))).1
      (readDigits src 18 (cur + 1) (digitNum (src.read cur))).2

/-- The accesses of `digiZeroEnd`. -/
def digiZeroEndTrace (cur : Nat) : Trace :=
  load cur 1 ++
    if digiIsDigit (src.read cur) then empty
    else if digiIsExp (src.read cur) then
      let cur' := if digiIsSign (src.read (cur + 1)) then cur + 2 else cur + 1
      load (cur + 1) 1 ++ load cur' 1 ++
        if digiIsDigit (src.read cur') = false then empty
        else skipDigitsTrace src (src.len + 1) (cur' + 1)
    else empty

/-- The accesses of `digiZero`. -/
def digiZeroTrace (cur : Nat) : Trace :=
  let dotPos := cur + 1
  load dotPos 1 ++
    if digiIsDigitOrFp (src.read dotPos) = false then empty
    else if src.read dotPos = 0x2E then
      let cur := dotPos + 1
      load cur 1 ++
        if digiIsDigit (src.read cur) = false then empty
        else
          let last := skipZeros src (src.len + 1) cur
          skipZerosTrace src (src.len + 1) cur ++ load last 1 ++
            if digiIsDigit (src.read last) then
              digiFracTrace src (digitNum (src.read last)) dotPos 18 (last + 1)
            else digiZeroEndTrace src last
    else digiZeroEndTrace src dotPos

/-- The accesses of `loadsNumber`. -/
def loadsNumberTrace (hdr : Nat) : Trace :=
  let cur := if src.read hdr = 0x2D then hdr + 1 else hdr
  load hdr 1 ++ load cur 1 ++
    if digiIsNonzero (src.read cur) then digiNonzeroTrace src cur
    else if src.read cur = 0x30 then digiZeroTrace src cur
    else loadsInfOrNanTrace src cur

end Source

/-! ## Bounds -/

variable {src : Source} {cur limit bound : Nat}

/-- A unit with a property the terminating zero does not have is inside the text. -/
theorem lt_of_read {p : Nat → Bool} (hzero : p 0 = false) (hle : cur ≤ src.len)
    (h : p (src.read cur) = true) : cur < src.len := by
  rcases Nat.lt_or_eq_of_le hle with hlt | rfl
  · exact hlt
  · rw [Source.read_len, hzero] at h
    cases h

theorem lt_of_read_eq {c : Nat} (hc : c ≠ 0) (hle : cur ≤ src.len) (h : src.read cur = c) :
    cur < src.len :=
  @lt_of_read src cur (fun u => u == c) (beq_false_of_ne hc.symm) hle (beq_of_eq h)

theorem skipDigits_le (fuel : Nat) (hle : cur ≤ src.len) : skipDigits src fuel cur ≤ src.len := by
  induction fuel generalizing cur with
  | zero => exact hle
  | succ fuel ih =>
      rw [skipDigits]
      split
      · exact ih (lt_of_read rfl hle ‹_›)
      · exact hle

theorem skipZeros_le (fuel : Nat) (hle : cur ≤ src.len) : skipZeros src fuel cur ≤ src.len := by
  induction fuel generalizing cur with
  | zero => exact hle
  | succ fuel ih =>
      rw [skipZeros]
      split
      · exact ih (lt_of_read_eq (c := 0x30) (by decide) hle ‹_›)
      · exact hle

/-- `readDigits` stops inside the text, after `left` digits or before. -/
theorem readDigits_le (left sig : Nat) (hle : cur ≤ src.len) :
    (readDigits src left cur sig).1 ≤ src.len := by
  induction left generalizing cur sig with
  | zero => exact hle
  | succ left ih =>
      rw [readDigits]
      split
      · exact ih _ (@lt_of_read src cur (fun u => digitNum u ≤ 9) (by decide) hle
          (decide_eq_true ‹_›))
      · exact hle

/-- A loop over units stops at the terminating zero. -/
theorem passTrace_upto_zero (hlimit : src.len + 1 ≤ limit) {p : Nat → Bool} (hzero : p 0 = false)
    (fuel : Nat) (hle : cur ≤ src.len) : (passTrace src p fuel cur).Within limit bound := by
  induction fuel generalizing cur with
  | zero => exact .empty
  | succ fuel ih =>
      refine .append (.load (by omega)) ?_
      split
      · exact ih (lt_of_read hzero hle ‹_›)
      · exact .empty

section Within

variable (hlimit : src.len + 2 ≤ limit)

include hlimit

theorem passTrace_within {p : Nat → Bool} (hzero : p 0 = false) (fuel : Nat)
    (hle : cur ≤ src.len) : (passTrace src p fuel cur).Within limit bound :=
  passTrace_upto_zero (Nat.le_of_succ_le hlimit) hzero fuel hle

theorem readDigitsTrace_within (left : Nat) (hle : cur ≤ src.len) :
    (readDigitsTrace src left cur).Within limit bound :=
  passTrace_within hlimit (by decide) left hle

/-- A unit under the cursor, or the zero behind the text. -/
theorem unit_within (hle : cur ≤ src.len) : (load cur 1).Within limit bound := .load (by omega)

theorem backOverZerosTrace_within (hle : cur ≤ src.len) :
    (backOverZerosTrace src cur).Within limit bound := by
  induction cur with
  | zero => exact .empty
  | succ cur ih =>
      refine .append (unit_within hlimit hle) ?_
      split
      · exact ih (by omega)
      · exact .empty

theorem cmpeq2CharsTrace_within : (cmpeq2CharsTrace src cur).Within limit bound := by
  unfold cmpeq2CharsTrace
  split
  · exact .load (by omega)
  · exact .empty

theorem byteMatch2Trace_within (hle : cur ≤ src.len) : (byteMatch2Trace cur).Within limit bound :=
  .load (by omega)

theorem skipSpacePairsTrace_within (fuel : Nat) (hle : cur ≤ src.len) :
    (skipSpacePairsTrace src fuel cur).Within limit bound := by
  induction fuel generalizing cur with
  | zero => exact .empty
  | succ fuel ih =>
      refine .append (cmpeq2CharsTrace_within hlimit) ?_
      split
      · rename_i h
        exact ih (of_decide_eq_true (Bool.and_eq_true_iff.mp h).1)
      · exact unit_within hlimit hle

theorem fastSkipSpacesTrace_within (batch : Nat) (hle : cur ≤ src.len) :
    (fastSkipSpacesTrace src batch cur).Within limit bound := by
  unfold fastSkipSpacesTrace
  generalize src.len - cur + 1 = fuel
  induction fuel generalizing cur with
  | zero => exact .empty
  | succ fuel ih =>
      rw [fastSkipSpacesLoopTrace]
      split
      · refine .append (.load (by omega)) ?_
        split
        · exact ih (by omega)
        · exact .empty
      · exact skipSpacePairsTrace_within hlimit _ hle

theorem readFourTrace_within : (readFourTrace src cur).Within limit bound := by
  unfold readFourTrace
  split
  · exact .load (by omega)
  · exact .empty

theorem readFalseTrace_within : (readFalseTrace src cur).Within limit bound := by
  unfold readFalseTrace
  split
  · exact .load (by omega)
  · exact .empty

theorem readNanTrace_within : (readNanTrace src cur).Within limit bound := by
  unfold readNanTrace
  split
  · exact .empty
  · exact .load (by omega)

theorem loadsInfOrNanTrace_within : (loadsInfOrNanTrace src cur).Within limit bound := by
  unfold loadsInfOrNanTrace readInfTrace
  refine .append ?_ ?_
  · split
    · exact .empty
    · exact .load (by omega)
  · split
    · exact .empty
    · exact readNanTrace_within hlimit

/-! ### Numbers -/

theorem setBufLoopTrace_within {sigEnd : Nat} (hend : sigEnd ≤ src.len) (dotPos fuel : Nat) :
    (setBufLoopTrace sigEnd dotPos fuel cur).Within limit bound := by
  induction fuel generalizing cur with
  | zero => exact .empty
  | succ fuel ih =>
      rw [setBufLoopTrace]
      split
      · exact .empty
      split
      · exact ih
      · exact .append (.load (by omega)) ih

/-- The digits that are read again end where the significand does. -/
theorem bigintSetBufTrace_within {d : Decimal} (hend : d.sigEnd ≤ src.len)
    (hcut : ∀ cut ∈ d.sigCut, cut ≤ src.len) : (bigintSetBufTrace d).Within limit bound := by
  unfold bigintSetBufTrace
  split
  · exact .empty
  · rename_i cut h
    have hshort : ∀ (p : Prop) [Decidable p] (a b : Nat), (if p then a - b else a) ≤ a := by
      intro p _ a b
      split
      · exact Nat.sub_le a b
      · exact Nat.le_refl a
    exact .append (unit_within hlimit (hcut cut h)) (setBufLoopTrace_within hlimit
      ((hshort _ _ _).trans ((hshort _ _ _).trans hend)) _ _)

theorem digiFinishTrace_within {d : Decimal} (hend : d.sigEnd ≤ src.len)
    (hcut : ∀ cut ∈ d.sigCut, cut ≤ src.len) : (digiFinishTrace d).Within limit bound := by
  have hbig : (bigintSetBufTrace d).Within limit bound :=
    bigintSetBufTrace_within hlimit hend hcut
  unfold digiFinishTrace
  generalize diyApproximate d.sig d.exp d.sigCut.isSome = approximation
  exact .ite (fun _ => .empty) fun _ => .ite (fun _ => .empty) fun _ => hbig

theorem digiExpFinishTrace_within {d : Decimal} (hend : d.sigEnd ≤ src.len)
    (hcut : ∀ cut ∈ d.sigCut, cut ≤ src.len) : (digiExpFinishTrace d).Within limit bound := by
  unfold digiExpFinishTrace
  split
  · exact .empty
  split
  · exact .empty
  · exact digiFinishTrace_within hlimit hend hcut

theorem digiExpMoreTrace_within {d : Decimal} (hend : d.sigEnd ≤ src.len)
    (hcut : ∀ cut ∈ d.sigCut, cut ≤ src.len) (hlt : cur < src.len) :
    (digiExpMoreTrace src d cur).Within limit bound := by
  have hsign : (if digiIsSign (src.read (cur + 1)) then cur + 1 + 1 else cur + 1) ≤ src.len := by
    split
    · exact lt_of_read rfl hlt ‹_›
    · exact hlt
  unfold digiExpMoreTrace
  dsimp only
  generalize (if digiIsSign (src.read (cur + 1)) then cur + 1 + 1 else cur + 1) = first at hsign ⊢
  refine .append (.append (unit_within hlimit hlt) (unit_within hlimit hsign)) ?_
  split
  · exact .empty
  refine .append (.append (passTrace_within hlimit rfl _ hsign)
    (passTrace_within hlimit rfl _ (skipZeros_le _ hsign))) ?_
  split
  · exact .empty
  · exact digiExpFinishTrace_within hlimit hend hcut

theorem digiFracEndTrace_within (sig dotPos : Nat) (hle : cur ≤ src.len) :
    (digiFracEndTrace src sig dotPos cur).Within limit bound := by
  have hcut : ∀ cut ∈ (none : Option Nat), cut ≤ src.len := fun _ h => by cases h
  unfold digiFracEndTrace
  split
  · exact .empty
  refine .append (unit_within hlimit hle) ?_
  split
  · exact digiExpMoreTrace_within hlimit hle hcut (lt_of_read rfl hle ‹_›)
  split
  · exact .empty
  · exact digiFinishTrace_within hlimit hle hcut

theorem digiFracMoreEndTrace_within (sig dotPos : Nat) {sigCut : Nat} (hsig : sigCut ≤ src.len)
    (hle : cur ≤ src.len) : (digiFracMoreEndTrace src sig sigCut dotPos cur).Within limit bound := by
  have hcut : ∀ cut ∈ (if backOverZeros src (cur - 1) < sigCut then none else some sigCut),
      cut ≤ src.len := by
    intro cut hmem
    split at hmem
    · cases hmem
    · exact Option.some.inj hmem ▸ hsig
  unfold digiFracMoreEndTrace
  refine .append (.append (backOverZerosTrace_within hlimit (by omega))
    (unit_within hlimit hle)) ?_
  split
  · exact digiExpMoreTrace_within hlimit hle hcut (lt_of_read rfl hle ‹_›)
  · exact digiExpFinishTrace_within hlimit hle hcut

theorem digiFracMoreTrace_within (sig : Nat) (dotPos : Option Nat) (hlt : cur < src.len) :
    (digiFracMoreTrace src sig dotPos cur).Within limit bound := by
  have hskip := @skipDigits_le src (cur + 1) (src.len + 1) hlt
  unfold digiFracMoreTrace
  dsimp only
  generalize skipDigits src (src.len + 1) (cur + 1) = last at hskip ⊢
  refine .append (.append (unit_within hlimit hlt.le) (passTrace_within hlimit rfl _ hlt)) ?_
  cases dotPos with
  | some dotPos => exact digiFracMoreEndTrace_within hlimit _ _ hlt.le hskip
  | none =>
      refine .append (unit_within hlimit hskip) ?_
      split
      · have hdot : last < src.len := lt_of_read_eq (c := 0x2E) (by decide) hskip ‹_›
        refine .append (unit_within hlimit hdot) ?_
        split
        · exact .empty
        · exact .append (passTrace_within hlimit rfl _ hdot)
            (digiFracMoreEndTrace_within hlimit _ _ hlt.le (skipDigits_le _ hdot))
      · exact digiFracMoreEndTrace_within hlimit _ _ hlt.le hskip

theorem digiFracTrace_within (sig dotPos left : Nat) (hle : cur ≤ src.len) :
    (digiFracTrace src sig dotPos left cur).Within limit bound := by
  have hnext := readDigits_le left sig hle
  unfold digiFracTrace
  generalize readDigits src left cur sig = read at hnext ⊢
  obtain ⟨next, sig'⟩ := read
  dsimp only at hnext ⊢
  refine .append (readDigitsTrace_within hlimit left hle) ?_
  split
  · exact digiFracEndTrace_within hlimit _ _ hnext
  refine .append (unit_within hlimit hnext) ?_
  split
  · exact digiFracMoreTrace_within hlimit _ _ (lt_of_read rfl hnext ‹_›)
  · exact digiFracEndTrace_within hlimit _ _ hnext

/-- What nineteen digits are followed by: one of the units a number goes on with. -/
theorem digiIntgMoreTrace_within (sig : Nat) (hle : cur ≤ src.len)
    (hmore : digiIsDigitOrFp (src.read cur) = true) :
    (digiIntgMoreTrace src sig cur).Within limit bound := by
  have hcut : ∀ cut ∈ (none : Option Nat), cut ≤ src.len := fun _ h => by cases h
  have hlt := lt_of_read rfl hle hmore
  unfold digiIntgMoreTrace
  refine .append (.append (unit_within hlimit hle) ?_) ?_
  · split
    · exact unit_within hlimit hlt
    · exact .empty
  split
  · exact .empty
  split
  · exact digiExpMoreTrace_within hlimit (Nat.zero_le _) hcut hlt
  split
  · refine .append (unit_within hlimit hlt) ?_
    split
    · exact .empty
    · rename_i hdigit
      exact digiFracMoreTrace_within hlimit _ _
        (lt_of_read rfl hlt (Bool.eq_true_of_not_eq_false hdigit))
  · exact digiFracMoreTrace_within hlimit _ _ hlt

theorem digiNonzeroEndTrace_within (start sig : Nat) (hle : cur ≤ src.len) :
    (digiNonzeroEndTrace src start cur sig).Within limit bound := by
  have hcut : ∀ cut ∈ (none : Option Nat), cut ≤ src.len := fun _ h => by cases h
  unfold digiNonzeroEndTrace
  refine .append (unit_within hlimit hle) ?_
  split
  · split
    · exact .empty
    rename_i hfp
    have hlt : cur < src.len := lt_of_read rfl hle (Bool.eq_true_of_not_eq_false hfp)
    split
    · exact digiFracTrace_within hlimit _ _ _ hlt
    · exact digiExpMoreTrace_within hlimit hle hcut hlt
  split
  · exact .empty
  · exact digiIntgMoreTrace_within hlimit _ hle (Bool.eq_true_of_not_eq_false ‹_›)

theorem digiNonzeroTrace_within (hlt : cur < src.len) :
    (digiNonzeroTrace src cur).Within limit bound :=
  .append (.append (unit_within hlimit hlt.le) (readDigitsTrace_within hlimit 18 hlt))
    (digiNonzeroEndTrace_within hlimit _ _ (readDigits_le 18 _ hlt))

theorem digiZeroEndTrace_within (hle : cur ≤ src.len) :
    (digiZeroEndTrace src cur).Within limit bound := by
  unfold digiZeroEndTrace
  refine .append (unit_within hlimit hle) ?_
  split
  · exact .empty
  split
  · have hlt : cur < src.len := lt_of_read rfl hle ‹_›
    have hsign : (if digiIsSign (src.read (cur + 1)) then cur + 2 else cur + 1) ≤ src.len := by
      split
      · exact lt_of_read rfl hlt ‹_›
      · exact hlt
    dsimp only
    generalize (if digiIsSign (src.read (cur + 1)) then cur + 2 else cur + 1) = first at hsign ⊢
    refine .append (.append (unit_within hlimit hlt) (unit_within hlimit hsign)) ?_
    split
    · exact .empty
    · exact passTrace_within hlimit rfl _
        (lt_of_read rfl hsign (Bool.eq_true_of_not_eq_false ‹_›))
  · exact .empty

theorem digiZeroTrace_within (hlt : cur < src.len) :
    (digiZeroTrace src cur).Within limit bound := by
  unfold digiZeroTrace
  refine .append (unit_within hlimit hlt) ?_
  split
  · exact .empty
  split
  · have hdot : cur + 1 < src.len := lt_of_read_eq (c := 0x2E) (by decide) hlt ‹_›
    have hlast := @skipZeros_le src (cur + 1 + 1) (src.len + 1) hdot
    refine .append (unit_within hlimit hdot) ?_
    split
    · exact .empty
    generalize skipZeros src (src.len + 1) (cur + 1 + 1) = last at hlast ⊢
    refine .append (.append (passTrace_within hlimit rfl _ hdot) (unit_within hlimit hlast)) ?_
    split
    · exact digiFracTrace_within hlimit _ _ _ (lt_of_read rfl hlast ‹_›)
    · exact digiZeroEndTrace_within hlimit hlast
  · exact digiZeroEndTrace_within hlimit hlt

/-- A number is read with no load far behind the text. -/
theorem loadsNumberTrace_within (hle : cur ≤ src.len) :
    (loadsNumberTrace src cur).Within limit bound := by
  have hsign : (if src.read cur = 0x2D then cur + 1 else cur) ≤ src.len := by
    split
    · exact lt_of_read_eq (c := 0x2D) (by decide) hle ‹_›
    · exact hle
  unfold loadsNumberTrace
  dsimp only
  generalize (if src.read cur = 0x2D then cur + 1 else cur) = first at hsign ⊢
  refine .append (.append (unit_within hlimit hle) (unit_within hlimit hsign)) ?_
  split
  · exact digiNonzeroTrace_within hlimit (lt_of_read rfl hsign ‹_›)
  split
  · exact digiZeroTrace_within hlimit (lt_of_read_eq (c := 0x30) (by decide) hsign ‹_›)
  · exact loadsInfOrNanTrace_within hlimit

end Within

end SsrJson.Decode
