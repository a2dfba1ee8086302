import SsrJson.Decode.NumberRead

/-!
# The number reader as a reader of tokens

The value of a literal is the same wherever it stands in a text: what the large integers read again
are its own units. So `numVal` gives the value of a literal by itself, and `loads_number` reads
number tokens with these values.
-/

namespace SsrJson.Decode

open Spec

variable {src src' : Source} {start cur : Nat}

/-! ## The value of a literal does not depend on its place -/

/-- The same decimal in a text that begins `k` units further on. -/
def Decimal.shift (k : Nat) (d : Decimal) : Decimal :=
  { d with sigCut := d.sigCut.map (k + ·), sigEnd := k + d.sigEnd, dotPos := k + d.dotPos }

theorem setBufLoop_shift {k sigEnd dotPos : Nat} {bigCut : Bool}
    (hread : ∀ i < sigEnd, src.read (k + i) = src'.read i) (fuel cur len val : Nat) (big : Bigint) :
    setBufLoop src (k + sigEnd) (k + dotPos) bigCut fuel (k + cur) len val big =
      setBufLoop src' sigEnd dotPos bigCut fuel cur len val big := by
  induction fuel generalizing cur len val big with
  | zero => rfl
  | succ fuel ih =>
      unfold setBufLoop
      simp only [Nat.add_le_add_iff_left, Nat.add_left_cancel_iff, Nat.add_assoc]
      split
      · rfl
      · rename_i hlt
        rw [hread cur (Nat.lt_of_not_le hlt)]
        simp only [ih]

theorem bigintSetBuf_shift {k : Nat} {d : Decimal}
    (hread : ∀ i < d.sigEnd, src.read (k + i) = src'.read i)
    (hcut : ∀ c ∈ d.sigCut, c < d.sigEnd) :
    bigintSetBuf src (d.shift k) = bigintSetBuf src' d := by
  obtain ⟨sig, exp, _ | c, sigEnd, dotPos⟩ := d
  · rfl
  · have hlt : c < sigEnd := hcut c rfl
    unfold bigintSetBuf Decimal.shift
    dsimp only at hread ⊢
    simp only [Option.map_some, Nat.add_lt_add_iff_left, Nat.add_sub_add_left, hread c hlt]
    generalize htotal : (19 + (sigEnd - c) % 2 ^ 32 -
      if c < dotPos ∧ dotPos < sigEnd then 1 else 0) % 2 ^ 32 = total
    have hbound : total - 769 ≤ sigEnd := by
      have hmod := Nat.mod_le (19 + (sigEnd - c) % 2 ^ 32 -
        if c < dotPos ∧ dotPos < sigEnd then 1 else 0) (2 ^ 32)
      have hmod' := Nat.mod_le (sigEnd - c) (2 ^ 32)
      omega
    have hlast : (if 768 < total then k + sigEnd - (total - 769) else k + sigEnd) =
        k + if 768 < total then sigEnd - (total - 769) else sigEnd := by
      split <;> omega
    have hle : (if 768 < total then sigEnd - (total - 769) else sigEnd) ≤ sigEnd := by
      split <;> omega
    rw [hlast]
    generalize (if 768 < total then sigEnd - (total - 769) else sigEnd) = last at hle
    have hlast' : (if 768 < total ∧ k + dotPos + 1 = k + last then k + last - 1 else k + last) =
        k + if 768 < total ∧ dotPos + 1 = last then last - 1 else last := by
      split_ifs <;> omega
    have hle' : (if 768 < total ∧ dotPos + 1 = last then last - 1 else last) ≤ sigEnd := by
      split <;> omega
    rw [hlast']
    generalize (if 768 < total ∧ dotPos + 1 = last then last - 1 else last) = last' at hle'
    rw [Nat.add_sub_add_left, setBufLoop_shift fun i hi => hread i (hi.trans_le hle')]

theorem digiFinish_shift {k : Nat} {d : Decimal}
    (hread : ∀ i < d.sigEnd, src.read (k + i) = src'.read i)
    (hcut : ∀ c ∈ d.sigCut, c < d.sigEnd) :
    digiFinish src (d.shift k) = digiFinish src' d := by
  have hbig : ∀ raw, bigCompare src (d.shift k) raw = bigCompare src' d raw := by
    intro raw
    unfold bigCompare
    rw [bigintSetBuf_shift hread hcut]
  have hnone : (d.shift k).sigCut = none ↔ d.sigCut = none := Option.map_eq_none_iff
  have hsome : (d.shift k).sigCut.isSome = d.sigCut.isSome := Option.isSome_map
  unfold digiFinish
  simp only [hbig, hnone, hsome]
  rfl

/-- The bits of a decimal do not depend on where its text stands. -/
theorem expRaw_shift {k : Nat} {d : Decimal}
    (hread : ∀ i < d.sigEnd, src.read (k + i) = src'.read i)
    (hcut : ∀ c ∈ d.sigCut, c < d.sigEnd) (exp : Option (Bool × List Nat)) :
    expRaw src (d.shift k) exp = expRaw src' d exp := by
  have hfinish : ∀ e, finishRaw src { d.shift k with exp := e } = finishRaw src' { d with exp := e } := by
    intro e
    have h := @digiFinish_shift src src' k { d with exp := e } hread hcut
    unfold finishRaw
    rw [← h]
    rfl
  cases exp with
  | none => exact hfinish d.exp
  | some part =>
      obtain ⟨neg, ds⟩ := part
      unfold expRaw
      simp only [hfinish]
      rfl

/-- The value of a literal by itself. -/
def partsVal (p : NumberParts) : Num := partsNum (.ofUnits p.mantissa) 0 p

/-- A significand of many digits moves with its text. -/
theorem partsDecimal_shift {p : NumberParts} (hlong : 19 < p.significant.length) :
    partsDecimal start p = (partsDecimal 0 p).shift start := by
  unfold partsDecimal Decimal.shift
  rw [if_neg (Nat.not_le.mpr hlong), if_neg (Nat.not_le.mpr hlong)]
  dsimp only
  congr 1
  · split
    · rfl
    · simp only [Option.map_some, Option.some.injEq]
      omega
  · omega
  · omega

/-- The first digit that is cut off stands inside the literal. -/
theorem partsDecimal_cut {p : NumberParts} (hlong : 19 < p.significant.length) :
    ∀ c ∈ (partsDecimal 0 p).sigCut, c < (partsDecimal 0 p).sigEnd := by
  intro c hc
  have hlen := (significant_drop p).1
  have hmantissa : p.mantissa.length = p.int.length + if p.frac = [] then 0 else p.frac.length + 1 := by
    rw [NumberParts.mantissa, List.length_append]
    split <;> simp
  unfold partsDecimal at hc ⊢
  rw [if_neg (Nat.not_le.mpr hlong)] at hc ⊢
  dsimp only at hc ⊢
  split at hc
  · cases hc
  · obtain rfl := Option.some.inj hc
    rw [Nat.zero_add, Nat.zero_add, hmantissa]
    clear hmantissa hc
    by_cases hnil : p.frac = []
    · have hzero := List.length_eq_zero_iff.mpr hnil
      rw [if_pos hnil, if_neg (by omega)]
      omega
    · rw [if_neg hnil]
      split <;> omega

/-- A literal has the same value wherever it stands. -/
theorem partsNum_eq {p : NumberParts} {r : List Nat}
    (h : src.rest start = p.mantissa ++ r) : partsNum src start p = partsVal p := by
  have hread : ∀ i < p.mantissa.length, src.read (start + i) = (Source.ofUnits p.mantissa).read i := by
    intro i hi
    rw [Source.read_of_rest h hi]
    exact (@Source.read_of_lt (.ofUnits p.mantissa) i hi).symm
  unfold partsVal partsNum
  split
  · rfl
  · split
    · rfl
    · congr 1
      rcases Nat.lt_or_ge 19 p.significant.length with hlong | hshort
      · have hend : (partsDecimal 0 p).sigEnd = p.mantissa.length := by
          rw [partsDecimal, if_neg (Nat.not_le.mpr hlong)]
          exact Nat.zero_add _
        rw [partsDecimal_shift hlong]
        exact expRaw_shift (hend ▸ hread) (partsDecimal_cut hlong) p.exp
      · rw [partsDecimal, partsDecimal, if_pos hshort, if_pos hshort, @expRaw_uncut src src]
        exact (expRaw_uncut _ _ _ _ _).symm

/-! ## Number tokens -/

/-- The value of a number literal. -/
def numVal (t : List Nat) : Num :=
  match lexNumber t with
  | some (p, _) => partsVal p
  | none => .int 0

theorem numVal_text {p : NumberParts} {t : List Nat} (h : p.IsText t) : numVal t = partsVal p := by
  have hlex := lexNumber_complete h (r := []) (by simp [NumberEnds])
  rw [List.append_nil] at hlex
  rw [numVal, hlex]

/-- A literal does not go on where a value may end. -/
theorem numberEnds_of_delimited {s : List Nat} (h : Delimited s) : NumberEnds s := by
  intro c hc
  have hcases := h c hc
  rw [isWs_iff] at hcases
  have hdigit := @isDigit_iff c
  rw [← Bool.not_eq_true, hdigit]
  omega

/-- The words for infinity and NaN begin with a letter. -/
theorem SpecialWord.head {neg : Bool} {w : List Nat} {num : Num} (h : SpecialWord neg w num) :
    ∃ c w', w = c :: w' ∧ c ≠ 0x2D ∧ isDigit c = false := by
  have hletter : ∀ {t : List Nat} {u : Nat} {us : List Nat}, u = 0x49 ∨ u = 0x4E →
      EqIgnoringCase t (u :: us) → ∃ c w', t = c :: w' ∧ c ≠ 0x2D ∧ isDigit c = false := by
    intro t u us hu heq
    cases heq with
    | cons hc _ =>
        refine ⟨_, _, rfl, by omega, ?_⟩
        rw [← Bool.not_eq_true, isDigit_iff]
        omega
  rcases h with ⟨heq, -⟩ | ⟨heq, -⟩
  · exact hletter (.inl rfl) heq
  · exact hletter (.inr rfl) heq

/-- A minus is taken off in front of anything but another one. -/
theorem lexMinus_letter {c : Nat} (neg : Bool) (hc : c ≠ 0x2D) (r : List Nat) :
    lexMinus (minusPart neg ++ c :: r) = (neg, c :: r) := by
  cases neg with
  | true => rfl
  | false =>
      show lexMinus (c :: r) = _
      rw [lexMinus, if_neg hc]

/-- A literal that is one of the words is none by its digits. -/
theorem lexNumber_special {neg : Bool} {w r : List Nat} {num : Num} (h : SpecialWord neg w num) :
    lexNumber (minusPart neg ++ (w ++ r)) = none ∧
      lexMinus (minusPart neg ++ (w ++ r)) = (neg, w ++ r) := by
  obtain ⟨c, w', rfl, hminus, hdigit⟩ := h.head
  have hlex := lexMinus_letter neg hminus (w' ++ r)
  have hnonzero : isNonzeroDigit c = false ∧ c ≠ 0x30 := by
    rw [← Bool.not_eq_true, isDigit_iff] at hdigit
    rw [← Bool.not_eq_true, isNonzeroDigit_iff]
    omega
  refine ⟨?_, hlex⟩
  rw [List.cons_append, lexNumber, hlex]
  dsimp only
  rw [lexInt, if_neg hnonzero.2, if_neg (by rw [hnonzero.1]; decide)]
  rfl

/-- One of the words behind the minus is a token. -/
theorem numToken_of_special {s w r : List Nat} {num : Num}
    (hword : SpecialWord (lexMinus s).1 w num) (hrest : (lexMinus s).2 = w ++ r) :
    NumToken numVal s num r := by
  refine ⟨minusPart (lexMinus s).1 ++ w, ?_, .inr ?_⟩
  · rw [List.append_assoc, ← hrest]
    exact lexMinus_sound s
  · have hfloat : ∃ bits, num = .float bits := by
      rcases hword with ⟨-, rfl⟩ | ⟨-, rfl⟩
      · exact ⟨_, rfl⟩
      · exact ⟨_, rfl⟩
    obtain ⟨bits, rfl⟩ := hfloat
    exact ⟨bits, specialText_iff.mpr ⟨_, w, rfl, hword⟩, rfl⟩

/-- Where no literal of digits begins, a token is one of the words behind the minus. -/
theorem special_of_numToken {s r : List Nat} {num : Num} (hlex : lexNumber s = none)
    (hr : Delimited r) (h : NumToken numVal s num r) :
    ∃ w, SpecialWord (lexMinus s).1 w num ∧ (lexMinus s).2 = w ++ r := by
  obtain ⟨t, rfl, ⟨htext, rfl⟩ | ⟨bits, hspecial, rfl⟩⟩ := h
  · obtain ⟨p, htext⟩ := numberText_iff.mp htext
    rw [lexNumber_complete htext (numberEnds_of_delimited hr)] at hlex
    cases hlex
  · obtain ⟨neg, w, rfl, hword⟩ := specialText_iff.mp hspecial
    rw [List.append_assoc, (lexNumber_special hword).2]
    exact ⟨w, hword, rfl⟩

/-- What `lexNumber` takes off is a token, and the only one. -/
theorem lexNumber_token {s r : List Nat} {p : NumberParts} (h : lexNumber s = some (p, r)) :
    NumToken numVal s (partsVal p) r ∧
      ∀ num r', NumToken numVal s num r' → Delimited r' → num = partsVal p ∧ r' = r := by
  obtain ⟨t, htext, hs⟩ := lexNumber_sound h
  refine ⟨⟨t, hs, .inl ⟨numberText_iff.mpr ⟨p, htext⟩, (numVal_text htext).symm⟩⟩, ?_⟩
  rintro num r' ⟨t', hs', ⟨htext', rfl⟩ | ⟨bits, hspecial, rfl⟩⟩ hr'
  · obtain ⟨p', htext'⟩ := numberText_iff.mp htext'
    have hlex := lexNumber_complete htext' (numberEnds_of_delimited hr')
    rw [← hs', h, Option.some.injEq, Prod.mk.injEq] at hlex
    exact ⟨(numVal_text htext').trans (congrArg partsVal hlex.1.symm), hlex.2.symm⟩
  · obtain ⟨neg, w, rfl, hword⟩ := specialText_iff.mp hspecial
    rw [hs', List.append_assoc, (lexNumber_special hword).1] at h
    cases h

/-! ## The reader -/

/-- Where the literal that `lexNumber` takes off ends. -/
theorem lexNumber_end {r : List Nat} {p : NumberParts} (hle : cur ≤ src.len)
    (h : lexNumber (src.rest cur) = some (p, r)) :
    cur < src.len - r.length ∧ src.rest (src.len - r.length) = r ∧
      ∃ r', src.rest (cur + (minusPart p.neg).length) = p.mantissa ++ r' := by
  obtain ⟨t, htext, hrest⟩ := lexNumber_sound h
  have hbound := Source.le_of_rest hrest hle
  have hend := Source.rest_append hrest
  have hpos := Source.pos_of_rest hbound
  rw [hend] at hpos
  have hne : 0 < t.length := by
    obtain ⟨c, t', rfl, -⟩ := (numberText_iff.mpr ⟨p, htext⟩).head
    exact Nat.succ_pos _
  refine ⟨by omega, by rw [← hpos, hend], ?_⟩
  obtain ⟨e, -, rfl⟩ := htext.text
  rw [List.append_assoc] at hrest
  rw [Source.rest_append hrest]
  exact ⟨_, List.append_assoc _ _ _⟩

/-- `loads_number` reads number tokens. -/
theorem loadsNumber_token (hunits : src.Units32) (hle : cur ≤ src.len) :
    TokenSpec (NumToken numVal) Delimited src cur (loadsNumber src cur) := by
  rw [loadsNumber_eq hunits hle]
  cases hlex : lexNumber (src.rest cur) with
  | some result =>
      obtain ⟨p, r⟩ := result
      obtain ⟨hlt, hend, r', hmantissa⟩ := lexNumber_end hle hlex
      obtain ⟨htoken, hunique⟩ := lexNumber_token hlex
      dsimp only
      rw [partsNum_eq hmantissa]
      refine ⟨fun a ha => ?_, fun h => absurd h (Option.some_ne_none _)⟩
      obtain rfl := Option.some.inj ha
      dsimp only
      rw [hend]
      exact ⟨hlt, by omega, htoken, fun a' r' h hr => hunique a' r' h hr⟩
  | none =>
      obtain ⟨-, hle', hrest⟩ := lexMinus_read hle
      have hspecial : ∀ num r, NumToken numVal (src.rest cur) num r → Delimited r →
          ∃ w, SpecialWord (lexMinus (src.rest cur)).1 w num ∧
            (lexMinus (src.rest cur)).2 = w ++ r :=
        fun num r h hr => special_of_numToken hlex hr h
      dsimp only
      split
      · rename_i hdigit
        refine ⟨fun a ha => absurd ha.symm (Option.some_ne_none _), fun _ num r h hr => ?_⟩
        obtain ⟨w, hword, hw⟩ := hspecial num r h hr
        obtain ⟨c, w', rfl, -, hc⟩ := hword.head
        rw [hw, List.cons_append, List.head?_cons, Option.any_some, hc] at hdigit
        cases hdigit
      · rcases loadsInfOrNan_spec (lexMinus (src.rest cur)).1 hle' with
          ⟨num, cur', h, hlt, hbound, w, hword, hw⟩ | ⟨h, hnone⟩
        · rw [h]
          rw [hrest] at hw
          refine ⟨fun a ha => ?_, fun h => absurd h (Option.some_ne_none _)⟩
          obtain rfl := Option.some.inj ha
          refine ⟨show cur < cur' by omega, hbound, numToken_of_special hword hw,
            fun num' r h hr => ?_⟩
          obtain ⟨w', hword', hw'⟩ := hspecial num' r h hr
          obtain ⟨hnum, hr⟩ := hword'.unique hword (hw'.symm.trans hw)
          exact ⟨hnum, hr⟩
        · rw [h]
          refine ⟨fun a ha => absurd ha.symm (Option.some_ne_none _), fun _ num r h hr => ?_⟩
          obtain ⟨w, hword, hw⟩ := hspecial num r h hr
          exact hnone w r num hword (hrest.trans hw)

theorem loadsNumber_bound (hunits : src.Units32) (hle : cur ≤ src.len) :
    (loadsNumber src cur).2 ≤ src.len := by
  rw [loadsNumber_eq hunits hle]
  split
  · exact Nat.sub_le _ _
  · split
    · exact hle
    · have hbound := loadsInfOrNan_bound (lexMinus (src.rest cur)).1 (lexMinus_read hle).2.1
      generalize loadsInfOrNan src (lexMinus (src.rest cur)).1
        (cur + (minusPart (lexMinus (src.rest cur)).1).length) = result at hbound
      obtain ⟨_ | num, cur'⟩ := result
      · exact hle
      · exact hbound

end SsrJson.Decode
