import SsrJson.Decode.NumberSpec

/-!
# `loads_number` against the literals

The two branches of the reader, by the first digit, read what `numberTail` says, and the whole
reader takes off the literal `lexNumber` finds or one of the words for infinity and NaN.
-/

namespace SsrJson.Decode

open Spec

variable {src : Source} {sign : Bool} {start cur c : Nat} {cs s : List Nat}

/-! ## A first digit that is not zero -/

/-- A dot without a digit behind it. -/
theorem digiFrac_none {sig k left dotPos : Nat} (hunits : src.Units32)
    (hle : dotPos + 1 ≤ src.len) (hdigit : (src.rest (dotPos + 1)).head?.any isDigit = false)
    (hsig : sig < 10 ^ k) (hk : k + left ≤ 19) :
    digiFrac src sign sig dotPos left (dotPos + 1) = none := by
  have hread := @digiFrac_eq src sign (dotPos + 1) [] (src.rest (dotPos + 1)) sig k left dotPos
    hunits hle rfl (by simp) hdigit hsig hk
  rw [hread, if_pos (show [].length ≤ left from Nat.zero_le _)]
  exact if_pos rfl

/-- A dot behind nineteen digits. -/
theorem digiFrac_full {sig dotPos : Nat} : digiFrac src sign sig dotPos 0 cur =
    if digiIsDigit (src.read cur) then digiFracMore src sign sig (some dotPos) cur
    else digiFracEnd src sign sig dotPos cur := by
  rw [digiFrac]
  dsimp only [readDigits]
  rw [if_neg (show ¬ cur < cur + 0 from Nat.lt_irrefl cur)]

/-- `digi_nonzero` behind its first digits. -/
theorem digiNonzero_read {next sig : Nat}
    (hread : readDigits src 18 (start + 1) (digitNum (src.read start)) = (next, sig)) :
    digiNonzero src sign start =
      if next < start + 19 then
        if digiIsFp (src.read next) = false then some (i64Num sign sig, next)
        else if src.read next = 0x2E then
          digiFrac src sign sig next (start + 19 - next) (next + 1)
        else digiExpMore src sign ⟨sig, 0, none, next, next⟩ next
      else if digiIsDigitOrFp (src.read next) = false then
        some (if sign ∧ 2 ^ 63 < sig then u64AsF64 true sig else i64Num sign sig, next)
      else digiIntgMore src sign sig next := by
  -- unfolded without its arguments, so that the kernel does not evaluate `readDigits`
  have hbody := Eq.refl digiNonzero
  conv at hbody => rhs; delta digiNonzero
  rw [hbody]
  beta_reduce
  rw [hread]

/-- Fewer than nineteen digits in front. -/
theorem digiNonzero_short (hunits : src.Units32) (hle : start ≤ src.len)
    (h : src.rest start = c :: cs ++ s) (hc : isNonzeroDigit c = true)
    (hcs : ∀ d ∈ cs, isDigit d = true) (hs : NoDigit s) (hshort : cs.length < 18) :
    digiNonzero src sign start = numberTail src sign start (c :: cs) s := by
  have hbound := Source.le_of_rest h hle
  have hrest := Source.rest_append h
  have hdigits := allDigits hc hcs
  have hval := digitsVal_lt hdigits
  have hpow : 10 ^ (c :: cs).length ≤ 10 ^ 18 := Nat.pow_le_pow_right (by decide) hshort
  have htake : (c :: cs).take 19 = c :: cs := List.take_of_length_le (by simp; omega)
  have hfirst := readInt_eq hunits h hc hcs hs
  rw [htake, Nat.min_eq_right hshort.le,
    show start + 1 + cs.length = start + (c :: cs).length by simp; omega] at hfirst
  rw [digiNonzero_read hfirst]
  generalize hnext : start + (c :: cs).length = next at hbound hrest
  have hread := Source.read_eq_headD hbound
  rw [hrest] at hread
  rw [if_pos (by rw [← hnext]; simp; omega)]
  rcases tail_cases s with ⟨s', rfl⟩ | ⟨e, s', rfl, he, hfrac⟩ | ⟨hplain, hfrac, hexp⟩
  · have hleft : (c :: cs).length + (start + 19 - next) = 19 := by simp at hnext ⊢; omega
    have hfrac := @digiFrac_nonzero src sign start c cs hunits hle s' (start + 19 - next) h hc hcs hleft
    obtain ⟨hlt, -, hrest'⟩ := Source.rest_cons hrest
    rw [hread, List.headD_cons, if_neg (by decide), if_pos rfl]
    cases hdigit : s'.head?.any isDigit with
    | true =>
        rw [← hfrac.1 hdigit, hnext]
    | false =>
        rw [hfrac.2 hdigit]
        exact digiFrac_none hunits hlt (hrest' ▸ hdigit) hval hleft.le
  · have hfp : digiIsFp e = true := digiIsFp_iff.mpr (.inr he)
    rw [hread, List.headD_cons, if_neg (by rw [hfp]; decide), if_neg (by omega)]
    exact digiExpMore_short hc (by simp; omega) hbound hrest he hfrac rfl _ _
  · have hfp : digiIsFp (src.read next) = false := by
      rw [hread, ← Bool.not_eq_true, digiIsFp_iff]
      cases s with
      | nil => decide
      | cons d s =>
          have := hplain d rfl
          simp only [List.headD_cons]
          omega
    have hpos : 0 < digitsVal (c :: cs) :=
      (digitsVal_ge hc).trans_lt' (Nat.pow_pos (show 0 < 10 by decide))
    rw [if_pos hfp, i64Num_eq (by split <;> omega) hpos,
      numberTail_int hfrac hexp (by omega), ← hrest, ← Source.pos_of_rest hbound]

/-- Nineteen digits in front. -/
theorem digiNonzero_exact (hunits : src.Units32) (hle : start ≤ src.len)
    (h : src.rest start = c :: cs ++ s) (hc : isNonzeroDigit c = true)
    (hcs : ∀ d ∈ cs, isDigit d = true) (hs : NoDigit s) (hexact : cs.length = 18) :
    digiNonzero src sign start = numberTail src sign start (c :: cs) s := by
  have hbound := Source.le_of_rest h hle
  have hrest := Source.rest_append h
  have hdigits := allDigits hc hcs
  have hval := digitsVal_lt hdigits
  have hlen : (c :: cs).length = 19 := by simp [hexact]
  rw [hlen] at hval
  have htake : (c :: cs).take 19 = c :: cs := List.take_of_length_le hlen.le
  have hfirst := readInt_eq hunits h hc hcs hs
  rw [htake, hexact, Nat.min_self, show start + 1 + 18 = start + (c :: cs).length by omega] at hfirst
  rw [digiNonzero_read hfirst]
  generalize hnext : start + (c :: cs).length = next at hbound hrest
  have hread := Source.read_eq_headD hbound
  rw [hrest] at hread
  rw [if_neg (by omega)]
  rcases tail_cases s with ⟨s', rfl⟩ | ⟨e, s', rfl, he, hfrac⟩ | ⟨hplain, hfrac, hexp⟩
  · have hfrac := @digiFrac_nonzero src sign start c cs hunits hle s' 0 h hc hcs hlen
    obtain ⟨hlt, -, hrest'⟩ := Source.rest_cons hrest
    rw [List.headD_cons] at hread
    rw [hread, if_neg (by decide), digiIntgMore, hread]
    rw [if_neg (by rintro ⟨hd, -⟩; revert hd; decide), if_neg (by decide), if_pos rfl,
      Source.isDigit_read hlt, hrest']
    cases hdigit : s'.head?.any isDigit with
    | true =>
        -- with no room for another digit the fraction is cut off at once
        rw [← hfrac.1 hdigit, hnext, digiFrac_full, Source.isDigit_read hlt, hrest', hdigit]
        rfl
    | false =>
        rw [hfrac.2 hdigit]
        rfl
  · rw [List.headD_cons] at hread
    have hany : digiIsDigitOrFp e = true := digiIsDigitOrFp_iff.mpr (.inr (.inr he))
    have hdigit : digiIsDigit e = false := by
      rw [digiIsDigit_eq]
      exact hs
    rw [hread, if_neg (by rw [hany]; decide), digiIntgMore, hread,
      if_neg (by rintro ⟨hd, -⟩; rw [hdigit] at hd; cases hd), if_pos (digiIsExp_iff.mpr he)]
    exact digiExpMore_short hc hlen.le hbound hrest he hfrac rfl _ _
  · have hany : digiIsDigitOrFp (src.read next) = false := by
      rw [← Bool.not_eq_true, digiIsDigitOrFp_iff, hread]
      cases s with
      | nil => decide
      | cons d s =>
          have hd : isDigit d = false := hs
          have := hplain d rfl
          rw [List.headD_cons, hd]
          simp
          omega
    have hpos : 0 < digitsVal (c :: cs) :=
      (digitsVal_ge hc).trans_lt' (Nat.pow_pos (show 0 < 10 by decide))
    have hpow : (10 ^ 19 : Nat) < 2 ^ 64 := by decide
    rw [if_pos hany, numberTail_int hfrac hexp (by omega), ← hrest, ← Source.pos_of_rest hbound]
    refine congrArg (fun num => some (num, next)) ?_
    by_cases hbig : sign = true ∧ 2 ^ 63 < digitsVal (c :: cs)
    · obtain ⟨rfl, hbig⟩ := hbig
      rw [if_pos ⟨rfl, hbig⟩, intNum, if_pos rfl, if_neg (by omega)]
    · rw [if_neg hbig, i64Num_eq _ hpos]
      cases sign with
      | true => exact Nat.le_of_not_lt fun hlt => hbig ⟨rfl, hlt⟩
      | false => exact hval.trans hpow

/-- The value of the digits read and one more. -/
theorem digitsVal_snoc (ds : List Nat) (d : Nat) :
    digitsVal (ds ++ [d]) = digitsVal ds * 10 + (d - 0x30) := by
  rw [digitsVal_eq, List.foldl_append]
  rfl

/-- The test for a twentieth digit that still fits is exact. -/
theorem twenty_fits {sig d : Nat} (hd : isDigit d = true) :
    (sig < u64Max / 10 ∨ sig = u64Max / 10 ∧ digitNum d ≤ u64Max % 10) ↔
      sig * 10 + (d - 0x30) < 2 ^ 64 := by
  have hrange := isDigit_iff.mp hd
  rw [digitNum_digit hd, show u64Max = 18446744073709551615 from rfl]
  omega

/-- More than nineteen digits in front. -/
theorem digiNonzero_long (hunits : src.Units32) (hle : start ≤ src.len)
    (h : src.rest start = c :: cs ++ s) (hc : isNonzeroDigit c = true)
    (hcs : ∀ d ∈ cs, isDigit d = true) (hs : NoDigit s) (hlong : 18 < cs.length) :
    digiNonzero src sign start = numberTail src sign start (c :: cs) s := by
  have hbound := Source.le_of_rest h hle
  have hdigits := allDigits hc hcs
  have hsplit : c :: cs = (c :: cs).take 19 ++ (cs[18] :: cs.drop 19) := by
    rw [← List.drop_eq_getElem_cons hlong, List.take_succ_cons, List.cons_append,
      List.take_append_drop]
  have hnine := digitsVal_lt (fun d hd => hdigits d (List.mem_of_mem_take hd) :
    ∀ d ∈ (c :: cs).take 19, isDigit d = true)
  have htake : ((c :: cs).take 19).length = 19 := by
    rw [List.length_take, List.length_cons]
    omega
  rw [htake] at hnine
  have hfirst := readInt_eq hunits h hc hcs hs
  rw [Nat.min_eq_left hlong.le, show start + 1 + 18 = start + 19 by omega] at hfirst
  have hd : isDigit cs[18] = true := hcs _ (List.getElem_mem _)
  have hds : ∀ d ∈ cs.drop 19, isDigit d = true := fun d hd => hcs d (List.mem_of_mem_drop hd)
  have hrest : src.rest (start + 19) = cs[18] :: cs.drop 19 ++ s := by
    have := @Source.rest_append src start ((c :: cs).take 19) (cs[18] :: cs.drop 19 ++ s) (by
      rw [← List.append_assoc, ← hsplit, h])
    rwa [htake] at this
  obtain ⟨hlt, hread, -⟩ := Source.rest_cons hrest
  have hrest' : src.rest (start + 19 + 1) = cs.drop 19 ++ s := (Source.rest_cons hrest).2.2
  have hany : digiIsDigitOrFp cs[18] = true := digiIsDigitOrFp_iff.mpr (.inl hd)
  have hrange := isDigit_iff.mp hd
  rw [digiNonzero_read hfirst, if_neg (Nat.lt_irrefl _), hread, if_neg (by rw [hany]; decide),
    digiIntgMore, hread]
  dsimp only
  rw [digiIsDigit_eq, hd]
  have hnext : src.read (start + 19 + 1) = (cs.drop 19 ++ s).headD 0 := by
    rw [← hrest']
    exact Source.read_eq_headD hlt
  have hplainTail : cs.drop 19 = [] → (∀ c ∈ s.head?, c ≠ 0x2E ∧ c ≠ 0x65 ∧ c ≠ 0x45) →
      digiIsDigitOrFp (src.read (start + 19 + 1)) = false := by
    intro hnil hplain
    rw [hnext, hnil, List.nil_append, ← Bool.not_eq_true, digiIsDigitOrFp_iff]
    cases s with
    | nil => decide
    | cons d s =>
        have hd' : isDigit d = false := hs
        have := hplain d rfl
        rw [List.headD_cons, hd']
        simp
        omega
  have hvalue : cs.drop 19 = [] →
      digitsVal (c :: cs) = digitsVal ((c :: cs).take 19) * 10 + (cs[18] - 0x30) := by
    intro hnil
    conv_lhs => rw [hsplit, hnil]
    exact digitsVal_snoc _ _
  by_cases hfit : digiIsDigitOrFp (src.read (start + 19 + 1)) = false ∧
      digitsVal ((c :: cs).take 19) * 10 + (cs[18] - 0x30) < 2 ^ 64
  · -- the twentieth digit is the last one, and the integer still fits
    obtain ⟨hstop, hfits⟩ := hfit
    have hnot : ¬ (isDigit (src.read (start + 19 + 1)) = true ∨ src.read (start + 19 + 1) = 0x2E ∨
        src.read (start + 19 + 1) = 0x65 ∨ src.read (start + 19 + 1) = 0x45) := by
      rw [← digiIsDigitOrFp_iff, hstop]
      decide
    have hnil : cs.drop 19 = [] := by
      cases hrests : cs.drop 19 with
      | nil => rfl
      | cons d ds =>
          rw [hnext, hrests] at hnot
          exact absurd (.inl (hds d (by rw [hrests]; exact List.mem_cons_self))) hnot
    rw [hnext, hnil, List.nil_append] at hnot
    have hval := hvalue hnil
    have hge := @digitsVal_ge c cs hc
    have hlen : cs.length = 19 := by
      have := congrArg List.length hnil
      rw [List.length_drop, List.length_nil] at this
      omega
    rw [hlen] at hge
    rw [if_pos ⟨rfl, hstop, (twenty_fits hd).mpr hfits⟩]
    rcases tail_cases s with ⟨s', rfl⟩ | ⟨e, s', rfl, he, -⟩ | ⟨-, hfrac, hexp⟩
    · exact absurd (.inr (.inl rfl)) hnot
    · exact absurd (.inr (.inr he)) hnot
    · rw [numberTail_int hfrac hexp (hval ▸ hfits), digitNum_digit hd, Nat.add_comm (cs[18] - 0x30),
        ← hval]
      rw [hnil, List.nil_append] at hrest'
      rw [← hrest', ← Source.pos_of_rest hlt, intNum]
      have hbig : ¬ digitsVal (c :: cs) ≤ 2 ^ 63 := by
        have hpow : (2 ^ 63 : Nat) < 10 ^ 19 := by decide
        omega
      rw [if_neg hbig]
  · have hnot : ¬ (true = true ∧ digiIsDigitOrFp (src.read (start + 19 + 1)) = false ∧
        (digitsVal ((c :: cs).take 19) < u64Max / 10 ∨
          digitsVal ((c :: cs).take 19) = u64Max / 10 ∧ digitNum cs[18] ≤ u64Max % 10)) := by
      rintro ⟨-, hstop, hfits⟩
      exact hfit ⟨hstop, (twenty_fits hd).mp hfits⟩
    have hexp : digiIsExp cs[18] = false := by
      rw [← Bool.not_eq_true, digiIsExp_iff]
      omega
    rw [if_neg hnot, if_neg (by rw [hexp]; decide), if_neg (by omega),
      digiFracMore_none hnine hrest hds hs, numberTail]
    cases hfrac : lexFrac s with
    | none => rfl
    | some result =>
        obtain ⟨frac, r⟩ := result
        obtain ⟨hfracDigits, hs'⟩ := lexFrac_sound hfrac
        have hmantissa : (⟨sign, c :: cs, frac, none⟩ : NumberParts).mantissa =
            c :: cs ++ if frac = [] then [] else 0x2E :: frac := rfl
        have hsig := @significant_of_nonzero sign c cs frac none hc
        have hstop : start + 19 + 1 + (cs.drop 19).length +
            (if frac = [] then 0 else frac.length + 1) =
              start + (⟨sign, c :: cs, frac, none⟩ : NumberParts).mantissa.length := by
          rw [hmantissa, List.length_append, List.length_drop, List.length_cons]
          split <;> simp <;> omega
        have hdot : start + 19 + 1 + (cs.drop 19).length = start + (c :: cs).length := by
          rw [List.length_drop, List.length_cons]
          omega
        have hcutSig : digitsVal ((c :: cs).take 19) + roundUp cs[18] =
            (partsDecimal start ⟨sign, c :: cs, frac, none⟩).sig := by
          rw [partsDecimal, hsig, if_neg (by simp; omega)]
          have hfirst19 : (c :: cs ++ frac).take 19 = (c :: cs).take 19 := by
            rw [List.take_append_of_le_length (by simp; omega)]
          have hnth : (c :: cs ++ frac).getD 19 0 = cs[18] := by
            rw [List.getD_append _ _ _ _ (by simp; omega), List.getD_cons_succ,
              List.getD_eq_getElem _ _ hlong]
          simp only [hfirst19, hnth]
          rfl
        dsimp only
        rw [hstop, hdot, digiFracMoreEnd_eq (s := r) hdigits hfracDigits hle
          (by rw [hmantissa, h, hs', List.append_assoc]) (by rw [hsig]; simp; omega) hcutSig
          (by rw [hsig, if_neg (by simp; omega)]; simp; omega)]
        cases hlex : lexExp r with
        | none => rfl
        | some result =>
            obtain ⟨exp, r'⟩ := result
            have hbig : frac = [] → exp = none → 2 ^ 64 ≤ digitsVal (c :: cs) := by
              rintro rfl rfl
              obtain rfl : s = r := hs'
              rcases tail_cases s with ⟨s', rfl⟩ | ⟨e, s', rfl, he, -⟩ | ⟨hplain, -, -⟩
              · rcases @lexFrac_dot s' with ⟨hnone, -⟩ | ⟨fs, r, -, hne, -, -, hsome, -⟩
                · rw [hnone] at hfrac
                  cases hfrac
                · rw [hsome] at hfrac
                  cases hfrac
                  exact absurd rfl hne
              · exact absurd rfl (lexExp_letter he hlex)
              · by_cases hnil : cs.drop 19 = []
                · have := hvalue hnil
                  exact Nat.le_of_not_lt fun hlt' =>
                    hfit ⟨hplainTail hnil hplain, by omega⟩
                · have hlen : 20 ≤ cs.length := by
                    have := List.length_pos_iff.mpr hnil
                    rw [List.length_drop] at this
                    omega
                  have hpow := Nat.pow_le_pow_right (show 0 < 10 by decide) hlen
                  have hbig : (2 ^ 64 : Nat) ≤ 10 ^ 20 := by decide
                  exact (hbig.trans hpow).trans (digitsVal_ge hc)
            dsimp only
            rw [partsNum_float hbig (by
              rw [significant_of_nonzero hc]
              exact List.cons_ne_nil _ _)]
            rfl

/-- The branch for a first digit that is not zero. -/
theorem digiNonzero_eq (hunits : src.Units32) (hle : start ≤ src.len)
    (h : src.rest start = c :: cs ++ s) (hc : isNonzeroDigit c = true)
    (hcs : ∀ d ∈ cs, isDigit d = true) (hs : NoDigit s) :
    digiNonzero src sign start = numberTail src sign start (c :: cs) s := by
  rcases Nat.lt_trichotomy cs.length 18 with hshort | hexact | hlong
  · exact digiNonzero_short hunits hle h hc hcs hs hshort
  · exact digiNonzero_exact hunits hle h hc hcs hs hexact
  · exact digiNonzero_long hunits hle h hc hcs hs hlong

/-! ## A first digit that is zero -/

/-- A literal whose digits are all zeros and that is no integer. -/
theorem partsNum_zero {p : NumberParts} (hsig : p.significant = [])
    (hfloat : p.frac ≠ [] ∨ p.exp ≠ none) : partsNum src start p = f64Bin p.neg 0 := by
  rw [partsNum, if_neg, if_pos hsig]
  rintro ⟨hfrac, hexp, -⟩
  exact hfloat.elim (absurd hfrac) (absurd hexp)

/-- What may stand behind zeros that are the whole mantissa. -/
theorem digiZeroEnd_eq {frac : List Nat} (hle : cur ≤ src.len) (hs : NoDigit (src.rest cur))
    (hzeros : ∀ d ∈ frac, d = 0x30)
    (hfloat : frac ≠ [] ∨ digiIsExp (src.read cur) = true) :
    digiZeroEnd src sign cur =
      match lexExp (src.rest cur) with
      | none => none
      | some (exp, r) => some (partsNum src start ⟨sign, [0x30], frac, exp⟩, src.len - r.length) := by
  have hsig : ∀ exp, (⟨sign, [0x30], frac, exp⟩ : NumberParts).significant = [] := by
    intro exp
    rw [NumberParts.significant, List.dropWhile_eq_nil_iff]
    simpa using hzeros
  have hdigit : digiIsDigit (src.read cur) = false := by
    rw [Source.isDigit_read hle]
    exact hs
  rw [digiZeroEnd, hdigit]
  simp only [Bool.false_eq_true, if_false]
  cases hexp : digiIsExp (src.read cur) with
  | false =>
      have hlex : lexExp (src.rest cur) = some (none, src.rest cur) := by
        cases hrest : src.rest cur with
        | nil => rfl
        | cons d s =>
            obtain ⟨-, rfl, -⟩ := Source.rest_cons hrest
            rw [lexExp, if_neg (fun h => by rw [digiIsExp_iff.mpr h] at hexp; cases hexp)]
      rw [hlex]
      dsimp only
      rw [partsNum_zero (hsig none) (hfloat.imp_right fun h => by rw [hexp] at h; cases h),
        ← Source.pos_of_rest hle]
      rfl
  | true =>
      have hletter := digiIsExp_iff.mp hexp
      have hlt : cur < src.len := Source.lt_of_read hle (by omega)
      obtain ⟨-, hle', hrest⟩ := @lexSign_read src (cur + 1) hlt
      rw [Source.rest_of_lt hlt, lexExp, if_pos hletter]
      dsimp only
      have hstep : (if digiIsSign (src.read (cur + 1)) then cur + 2 else cur + 1) =
          if digiIsSign (src.read (cur + 1)) then cur + 1 + 1 else cur + 1 := rfl
      rw [if_pos rfl, hstep]
      generalize (if digiIsSign (src.read (cur + 1)) then cur + 1 + 1 else cur + 1) = cur'
        at hle' hrest ⊢
      generalize lexSign (src.rest (cur + 1)) = lexed at hrest ⊢
      obtain ⟨neg, s⟩ := lexed
      dsimp only at hrest ⊢
      rw [Source.isDigit_read hle', hrest]
      cases hany : s.head?.any isDigit with
      | false => rfl
      | true =>
          obtain ⟨ds, r, rfl, hds, hr⟩ := digits_split s
          obtain ⟨htake, hdrop⟩ := takeWhile_digits hds hr
          have hbound := Source.le_of_rest hrest hle'
          have hend : cur' + ds.length = src.len - r.length := by
            have := Source.pos_of_rest hbound
            rwa [Source.rest_append hrest] at this
          cases ds with
          | nil =>
              rw [List.nil_append, show r.head?.any isDigit = false from hr] at hany
              cases hany
          | cons d ds =>
              obtain ⟨hlt', -, hrest'⟩ := Source.rest_cons hrest
              have hskip := skipDigits_eq hlt' hrest'
                (fun d hd => hds d (List.mem_cons_of_mem _ hd)) hr
                (show ds.length < src.len + 1 by simp at hbound; omega)
              simp only [Bool.true_eq_false, if_false, if_true, htake, hdrop]
              rw [partsNum_zero (hsig _) (.inr (Option.some_ne_none _)), hskip, ← hend]
              simp
              omega

/-- A fraction behind a zero. -/
theorem digiZero_frac {fs r : List Nat} (hunits : src.Units32) (hle : start ≤ src.len)
    (h : src.rest start = 0x30 :: 0x2E :: (fs ++ r)) (hne : fs ≠ [])
    (hfs : ∀ d ∈ fs, isDigit d = true) (hr : NoDigit r) :
    digiZero src sign start =
      match lexExp r with
      | none => none
      | some (exp, r') =>
        some (partsNum src start ⟨sign, [0x30], fs, exp⟩, src.len - r'.length) := by
  obtain ⟨hlt, -, hdot⟩ := Source.rest_cons h
  obtain ⟨hlt', hread, hrest⟩ := Source.rest_cons hdot
  have hany : (fs ++ r).head?.any isDigit = true := by
    cases fs with
    | nil => exact absurd rfl hne
    | cons d fs => exact hfs d List.mem_cons_self
  have hbound := Source.le_of_rest hrest hlt'
  obtain ⟨n, hsplit, hhead⟩ := zeros_split fs
  generalize fs.dropWhile (· == 0x30) = e at hsplit hhead
  have hlen : fs.length = n + e.length := by
    rw [hsplit, List.length_append, List.length_replicate]
  have hrest' : src.rest (start + 1 + 1) = List.replicate n 0x30 ++ (e ++ r) := by
    rw [hrest, ← List.append_assoc, ← hsplit]
  have hfirst : ∀ c ∈ (e ++ r).head?, c ≠ 0x30 := by
    cases e with
    | cons d e => exact hhead
    | nil =>
        rintro c hc rfl
        cases r with
        | nil => cases hc
        | cons c' r =>
            cases hc
            cases hr
  have hskip := skipZeros_eq hlt' hrest' hfirst (show n < src.len + 1 by omega)
  have hrest'' : src.rest (start + 1 + 1 + n) = e ++ r := by
    have := Source.rest_append hrest'
    rwa [List.length_replicate] at this
  have hfp : digiIsDigitOrFp (src.read (start + 1)) = true := by
    rw [hread]
    decide
  rw [digiZero]
  dsimp only
  rw [hfp, hread, if_neg (by decide), if_pos rfl, Source.isDigit_read hlt', hrest, hany,
    if_neg (by decide), hskip, Source.isDigit_read (by omega), hrest'']
  cases e with
  | nil =>
      rw [List.nil_append, show r.head?.any isDigit = false from hr, if_neg (by decide)]
      rw [List.nil_append] at hrest''
      have hzeros : ∀ d ∈ fs, d = 0x30 := by
        rw [hsplit, List.append_nil]
        exact fun d hd => List.eq_of_mem_replicate hd
      rw [digiZeroEnd_eq (by omega) (hrest'' ▸ hr) hzeros (.inl hne), hrest'']
  | cons d e =>
      have hd : isDigit d = true := hfs d (by rw [hsplit]; simp)
      have hd' : d ≠ 0x30 := hhead d rfl
      obtain ⟨-, hread', -⟩ := Source.rest_cons hrest''
      have hmantissa : (⟨sign, [0x30], fs, none⟩ : NumberParts).mantissa = 0x30 :: 0x2E :: fs := by
        rw [NumberParts.mantissa, if_neg hne]
        rfl
      have hsig : (⟨sign, [0x30], fs, none⟩ : NumberParts).significant = [d] ++ e := by
        rw [NumberParts.significant]
        simp only [hsplit, List.cons_append, List.nil_append]
        rw [List.dropWhile_cons_of_pos (by decide),
          List.dropWhile_append_of_pos (by simp), List.dropWhile_cons_of_neg (by simpa using hd')]
      have hval : digitNum d = digitsVal [d] := by
        rw [digitNum_digit hd, digitsVal_eq]
        simp [addDigit]
      have htail := @digiFrac_tail src sign (start + 1 + 1 + n + 1) start ⟨sign, [0x30], fs, none⟩ r
        [d] e (List.replicate n 0x30 ++ [d]) (digitNum d) 18 hunits (by simp; decide) hfs hle
        (by rw [hmantissa, h]; rfl) hr hne (by rw [hsplit, List.append_assoc]; rfl) hsig hval
        (by simpa using hd) rfl (by simp; omega)
      rw [hread', show (d :: e ++ r).head?.any isDigit = true from hd, if_pos rfl]
      refine htail.trans ?_
      cases lexExp r with
      | none => rfl
      | some result =>
          obtain ⟨exp, r'⟩ := result
          dsimp only
          rw [partsNum_float (fun hnil => absurd hnil hne) (by
            rw [show (⟨sign, [0x30], fs, exp⟩ : NumberParts).significant = [d] ++ e from hsig]
            exact List.cons_ne_nil _ _)]
          rfl

/-- The branch for a first digit that is zero. -/
theorem digiZero_eq (hunits : src.Units32) (hle : start ≤ src.len)
    (h : src.rest start = 0x30 :: s) :
    digiZero src sign start =
      if s.head?.any isDigit then none else numberTail src sign start [0x30] s := by
  obtain ⟨hlt, -, hrest⟩ := Source.rest_cons h
  have hread := @Source.read_eq_headD src (start + 1) hlt
  have hdigit := @Source.isDigit_read src (start + 1) hlt
  rw [hrest] at hread hdigit
  cases hany : s.head?.any isDigit with
  | true =>
      rw [hany, digiIsDigit_eq] at hdigit
      have hrange := isDigit_iff.mp hdigit
      have hfp : digiIsDigitOrFp (src.read (start + 1)) = true :=
        digiIsDigitOrFp_iff.mpr (.inl hdigit)
      rw [digiZero]
      dsimp only
      rw [hfp, if_neg (by decide), if_neg (by omega), digiZeroEnd, digiIsDigit_eq, hdigit]
      rfl
  | false =>
      rw [if_neg (by decide), numberTail]
      rcases tail_cases s with ⟨s', rfl⟩ | ⟨e, s', rfl, he, hfrac⟩ | ⟨hplain, hfrac, hexp⟩
      · rcases @lexFrac_dot s' with ⟨hnone, hdigit'⟩ | ⟨fs, r, rfl, hne, hfs, hr, hsome, -⟩
        · obtain ⟨hlt', -, hrest'⟩ := Source.rest_cons hrest
          rw [List.headD_cons] at hread
          rw [hnone, digiZero]
          dsimp only
          rw [hread, if_neg (by decide), if_pos rfl, Source.isDigit_read hlt', hrest', hdigit']
          rfl
        · rewrite [hsome, digiZero_frac hunits hle h hne hfs hr]
          rfl
      · rw [List.headD_cons] at hread
        have hexp : digiIsExp (src.read (start + 1)) = true := digiIsExp_iff.mpr (hread ▸ he)
        have hfp : digiIsDigitOrFp (src.read (start + 1)) = true :=
          digiIsDigitOrFp_iff.mpr (.inr (.inr (hread ▸ he)))
        rw [digiZero]
        dsimp only
        have hend := @digiZeroEnd_eq src sign start (start + 1) [] hlt (hrest ▸ hany) (by simp)
          (.inr hexp)
        rewrite [hfp, if_neg (by decide), if_neg (by omega), hfrac, hend, hrest]
        rfl
      · have hfp : digiIsDigitOrFp (src.read (start + 1)) = false := by
          rw [← Bool.not_eq_true, digiIsDigitOrFp_iff, hread]
          cases s with
          | nil => decide
          | cons d s =>
              have hd : isDigit d = false := hany
              have := hplain d rfl
              rw [List.headD_cons, hd]
              simp
              omega
        rw [digiZero]
        dsimp only
        rw [hfp, if_pos rfl, hfrac]
        dsimp only
        rw [hexp]
        dsimp only
        rw [partsNum, if_pos ⟨rfl, rfl, show digitsVal [0x30] < 2 ^ 64 by decide⟩, intNum, ← hrest, ← Source.pos_of_rest hlt]
        cases sign <;> rfl

/-! ## The whole reader -/

/-- Where the digits of a literal begin. -/
theorem lexMinus_read {hdr : Nat} (hle : hdr ≤ src.len) :
    (src.read hdr = 0x2D ↔ (lexMinus (src.rest hdr)).1 = true) ∧
      hdr + (minusPart (lexMinus (src.rest hdr)).1).length ≤ src.len ∧
      src.rest (hdr + (minusPart (lexMinus (src.rest hdr)).1).length) =
        (lexMinus (src.rest hdr)).2 := by
  have hread := Source.read_eq_headD hle
  cases hrest : src.rest hdr with
  | nil =>
      rw [hrest, List.headD_nil] at hread
      rw [hread]
      exact ⟨by simp [lexMinus], hle, hrest⟩
  | cons c s =>
      obtain ⟨hlt, rfl, hs⟩ := Source.rest_cons hrest
      rw [lexMinus]
      by_cases hminus : src.read hdr = 0x2D
      · rw [if_pos hminus]
        exact ⟨iff_of_true hminus rfl, hlt, hs⟩
      · rw [if_neg hminus]
        exact ⟨iff_of_false hminus Bool.false_ne_true, hle, hrest⟩

/-- What the rest of a literal gives `loads_number`. -/
theorem numberTail_parts {hdr : Nat} {int : List Nat} {other : Option Num × Nat}
    (hpos : hdr + (minusPart sign).length = start) (hother : other = (none, hdr)) :
    (match numberTail src sign start int s with
      | some (num, cur) => (some num, cur)
      | none => (none, hdr)) =
    match (do
      let x ← lexFrac s
      let y ← lexExp x.2
      some ((⟨sign, int, x.1, y.1⟩ : NumberParts), y.2)) with
    | some (p, r) =>
      (some (partsNum src (hdr + (minusPart p.neg).length) p), src.len - r.length)
    | none => other := by
  subst hpos
  rw [numberTail, hother]
  cases lexFrac s with
  | none => rfl
  | some frac =>
      dsimp only [Option.bind_eq_bind, Option.bind_some]
      cases lexExp frac.2 <;> rfl

/-- `loads_number` takes off the literal that `lexNumber` finds. Where there is none and no digit
stands under the cursor, it looks for one of the two words. -/
theorem loadsNumber_eq (hunits : src.Units32) {hdr : Nat} (hle : hdr ≤ src.len) :
    loadsNumber src hdr =
      match lexNumber (src.rest hdr) with
      | some (p, r) =>
        (some (partsNum src (hdr + (minusPart p.neg).length) p), src.len - r.length)
      | none =>
        if (lexMinus (src.rest hdr)).2.head?.any isDigit then (none, hdr)
        else
          match loadsInfOrNan src (lexMinus (src.rest hdr)).1
            (hdr + (minusPart (lexMinus (src.rest hdr)).1).length) with
          | (some num, cur) => (some num, cur)
          | (none, _) => (none, hdr) := by
  obtain ⟨hsign, hle', hrest⟩ := lexMinus_read hle
  have hstart : (if src.read hdr = 0x2D then hdr + 1 else hdr) =
      hdr + (minusPart (lexMinus (src.rest hdr)).1).length := by
    by_cases hminus : src.read hdr = 0x2D
    · rw [if_pos hminus, hsign.mp hminus]
      rfl
    · have hneg := mt hsign.mpr hminus
      rw [if_neg hminus, Bool.not_eq_true _ |>.mp hneg]
      rfl
  have hneg : decide (src.read hdr = 0x2D) = (lexMinus (src.rest hdr)).1 := by
    rw [Bool.eq_iff_iff, decide_eq_true_iff, hsign]
  unfold loadsNumber
  dsimp only
  rw [hstart, hneg, lexNumber]
  generalize hlexed : lexMinus (src.rest hdr) = lexed at hle' hrest ⊢
  obtain ⟨sign, s⟩ := lexed
  dsimp only at hle' hrest ⊢
  generalize hpos : hdr + (minusPart sign).length = start at hle' hrest ⊢
  have hread := Source.read_eq_headD hle'
  rw [hrest] at hread
  cases s with
  | nil =>
      rw [List.headD_nil] at hread
      rw [hread, if_neg (by decide), if_neg (by decide)]
      rcases loadsInfOrNan src sign start with ⟨_ | _, _⟩ <;> rfl
  | cons c s =>
      rw [List.headD_cons] at hread
      rw [hread, digiIsNonzero_eq, lexInt]
      by_cases hzero : c = 0x30
      · subst hzero
        rw [if_neg (by decide), if_pos rfl, if_pos rfl, digiZero_eq hunits hle' hrest]
        cases hany : s.head?.any isDigit with
        | true => rfl
        | false =>
            rw [if_neg (by decide), if_neg (by decide)]
            exact numberTail_parts hpos rfl
      · rw [if_neg hzero, if_neg hzero]
        cases hc : isNonzeroDigit c with
        | true =>
            have hd : isDigit c = true := by
              rw [isNonzeroDigit_iff] at hc
              exact isDigit_iff.mpr ⟨by omega, hc.2⟩
            rw [if_pos rfl, if_pos rfl, digiNonzero_eq hunits hle'
              (by rw [hrest, List.cons_append, List.takeWhile_append_dropWhile]) hc
              (fun d hd => List.mem_takeWhile_imp hd) (noDigit_dropWhile s)]
            exact numberTail_parts hpos (if_pos hd)
        | false =>
            have hd : isDigit c = false := by
              rw [← Bool.not_eq_true, isNonzeroDigit_iff] at hc
              rw [← Bool.not_eq_true, isDigit_iff]
              omega
            rw [if_neg (by decide), if_neg (by decide), List.head?_cons, Option.any_some, hd]
            rcases loadsInfOrNan src sign start with ⟨_ | _, _⟩ <;> rfl

end SsrJson.Decode
