import SsrJson.Decode.Bigint
import SsrJson.Decode.NumberToken

/-!
# Reading the digits that were cut off

`bigint_set_buf` reads the digits behind the first nineteen again, nineteen at a time, and passes
over the dot. Where there are too many digits it makes the last one that it takes a one, whatever
it was. `setBufOps` are the operations it does, and `setBufOps_spec` says what they compute.
-/

namespace SsrJson.Decode

open Spec Bigint

/-! ## The operations -/

section Ops

variable (src : Source) (sigEnd dotPos : Nat) (bigCut : Bool)

/-- The operations of the loop of `bigint_set_buf`. -/
def setBufOps : (fuel cur len val : Nat) → List Bigint.Op
  | 0, _, _, _ => []
  | fuel + 1, cur, len, val =>
    if sigEnd ≤ cur then []
    else if cur = dotPos then setBufOps fuel (cur + 1) len val
    else
      let val := (val * 10 + digitNum (src.read cur)) % 2 ^ 64
      let cur := cur + 1
      let len := len + 1
      let val := if cur = sigEnd ∧ bigCut then val - val % 10 + 1 else val
      if len = 19 ∨ cur = sigEnd then
        mulPow10Ops 1 len ++ .addU64 val :: setBufOps fuel cur 0 0
      else setBufOps fuel cur len val

theorem runAll_setBuf (fuel cur len val : Nat) (big : Bigint) :
    runAll (setBufOps src sigEnd dotPos bigCut fuel cur len val) big =
      setBufLoop src sigEnd dotPos bigCut fuel cur len val big := by
  induction fuel generalizing cur len val big with
  | zero => rfl
  | succ fuel ih =>
      rw [setBufOps, setBufLoop]
      split
      · rfl
      · split
        · exact ih _ _ _ _
        · dsimp only
          split
          · rw [runAll_append, runAll_mulPow10]
            exact ih _ _ _ _
          · exact ih _ _ _ _

end Ops

/-! ## What they compute -/

section Spec

variable {src : Source} {dotPos : Nat} {bigCut : Bool} {s : List Nat}

/-- The last digit of a number that was cut is made a one. -/
def markCut (bigCut : Bool) (v : Nat) : Nat := if bigCut then v - v % 10 + 1 else v

/-- The digits of a text with a dot. -/
def digitsOf (text : List Nat) : List Nat := text.filter (· != 0x2E)

theorem digitsOf_dot (text : List Nat) : digitsOf (0x2E :: text) = digitsOf text := rfl

theorem digitsOf_cons {c : Nat} (hc : c ≠ 0x2E) (text : List Nat) :
    digitsOf (c :: text) = c :: digitsOf text := by
  unfold digitsOf
  rw [List.filter_cons_of_pos (by simpa using hc)]

theorem le_foldl_addDigit (ds : List Nat) (v : Nat) : v ≤ ds.foldl addDigit v := by
  rw [foldl_addDigit]
  exact (Nat.le_mul_of_pos_right v (Nat.pow_pos (by decide))).trans (Nat.le_add_right _ _)

theorem markCut_add {v val len : Nat} :
    markCut bigCut (v * 10 ^ (len + 1) + val) = v * 10 ^ (len + 1) + markCut bigCut val := by
  have hmod : (v * 10 ^ (len + 1) + val) % 10 = val % 10 := by
    rw [Nat.pow_succ, ← Nat.mul_assoc, Nat.add_comm, Nat.add_mul_mod_self_right]
  unfold markCut
  split
  · rw [hmod]
    have hle := Nat.mod_le val 10
    omega
  · rfl

/-- The digits read so far go into the number. -/
theorem flush_spec {v x k : Nat} (hv : 0 < v) (hk : k ≤ 19) (hx : x < 2 ^ 64)
    (ops : List Bigint.Op) :
    resultAll (mulPow10Ops 1 k ++ .addU64 x :: ops) v = resultAll ops (v * 10 ^ k + x) ∧
      (v * 10 ^ k + x < 2 ^ 4096 → AllExact ops (ofNat (v * 10 ^ k + x)) (v * 10 ^ k + x) →
        AllExact (mulPow10Ops 1 k ++ .addU64 x :: ops) (ofNat v) v) := by
  have hproduct : resultAll (mulPow10Ops 1 k) v = v * 10 ^ k := by
    unfold mulPow10Ops
    split
    · obtain rfl : k = 19 := by omega
      rfl
    · split
      · rfl
      · obtain rfl : k = 0 := by omega
        exact (Nat.mul_one v).symm
  refine ⟨?_, fun hroom hexact => ?_⟩
  · rw [resultAll_append, hproduct]
    rfl
  · obtain ⟨hmul, -⟩ := mulPow10_exact hv (show k ≤ 19 * 1 by omega)
      (show v * 10 ^ k < 2 ^ 4096 by omega)
    refine hmul.append ?_
    rw [hmul.final, hproduct]
    exact addU64_exact (Nat.mul_pos hv (Nat.pow_pos (by decide))) hx hroom hexact

/-- A turn of the loop at a digit. -/
theorem setBufOps_digit {fuel cur len val sigEnd : Nat} (hlt : cur < sigEnd) (hne : cur ≠ dotPos)
    (hd : isDigit (src.read cur) = true) (hlen : len < 19) (hval : val < 10 ^ len) :
    setBufOps src sigEnd dotPos bigCut (fuel + 1) cur len val =
      if cur + 1 = sigEnd then
        mulPow10Ops 1 (len + 1) ++ .addU64 (markCut bigCut (addDigit val (src.read cur))) ::
          setBufOps src sigEnd dotPos bigCut fuel (cur + 1) 0 0
      else if len + 1 = 19 then
        mulPow10Ops 1 19 ++ .addU64 (addDigit val (src.read cur)) ::
          setBufOps src sigEnd dotPos bigCut fuel (cur + 1) 0 0
      else setBufOps src sigEnd dotPos bigCut fuel (cur + 1) (len + 1)
        (addDigit val (src.read cur)) := by
  have hsmall : addDigit val (src.read cur) < 10 ^ (len + 1) :=
    @foldl_addDigit_lt [src.read cur] (by simpa using hd) val len hval
  have hmod : (val * 10 + digitNum (src.read cur)) % 2 ^ 64 = addDigit val (src.read cur) := by
    rw [digitNum_digit hd]
    exact Nat.mod_eq_of_lt (hsmall.trans (pow10_lt (by omega)))
  rw [setBufOps, if_neg (Nat.not_le.mpr hlt), if_neg hne, hmod]
  dsimp only
  by_cases hend : cur + 1 = sigEnd
  · have hmark : (if cur + 1 = sigEnd ∧ bigCut = true then addDigit val (src.read cur) -
        addDigit val (src.read cur) % 10 + 1 else addDigit val (src.read cur)) =
          markCut bigCut (addDigit val (src.read cur)) :=
      if_congr (and_iff_right hend) rfl rfl
    rw [hmark, if_pos hend, if_pos (show len + 1 = 19 ∨ cur + 1 = sigEnd from .inr hend)]
  · rw [if_neg (show ¬ (cur + 1 = sigEnd ∧ bigCut = true) from fun h => hend h.1), if_neg hend]
    by_cases hfull : len + 1 = 19
    · rw [if_pos (show len + 1 = 19 ∨ cur + 1 = sigEnd from .inl hfull), if_pos hfull, hfull]
    · rw [if_neg (show ¬ (len + 1 = 19 ∨ cur + 1 = sigEnd) from fun h => h.elim hfull hend),
        if_neg hfull]

/-- The digits from the cursor on are appended to the number, and the last one is marked. -/
theorem setBufOps_spec {text : List Nat} :
    ∀ {cur len val v : Nat}, src.rest cur = text ++ s →
      (∀ c ∈ text, isDigit c = true ∨ c = 0x2E) → (∀ k c, text[k]? = some c →
        (cur + k = dotPos ↔ c = 0x2E)) → text.getLast? ≠ some 0x2E → text ≠ [] →
      len < 19 → val < 10 ^ len → 0 < v →
      resultAll (setBufOps src (cur + text.length) dotPos bigCut text.length cur len val) v =
          markCut bigCut ((digitsOf text).foldl addDigit (v * 10 ^ len + val)) ∧
        ((digitsOf text).foldl addDigit (v * 10 ^ len + val) + 1 < 2 ^ 4096 →
          AllExact (setBufOps src (cur + text.length) dotPos bigCut text.length cur len val)
            (ofNat v) v) := by
  induction text with
  | nil => exact fun _ _ _ _ h => absurd rfl h
  | cons c text ih =>
      intro cur len val v hrest hdigits hdot hlast _ hlen hval hv
      obtain ⟨-, hread, hnext⟩ := Source.rest_cons (s := text ++ s) hrest
      have hdigits' : ∀ c ∈ text, isDigit c = true ∨ c = 0x2E := fun c hc =>
        hdigits c (List.mem_cons_of_mem _ hc)
      have hdot' : ∀ k c, text[k]? = some c → (cur + 1 + k = dotPos ↔ c = 0x2E) := by
        intro k c' hk
        have := hdot (k + 1) c' hk
        rwa [← Nat.add_assoc, Nat.add_right_comm] at this
      have hlast' : text ≠ [] → text.getLast? ≠ some 0x2E := by
        intro hne
        rwa [List.getLast?_cons_of_ne_nil hne] at hlast
      have hlength : cur + (c :: text).length = cur + 1 + text.length := by
        rw [List.length_cons]
        omega
      rw [hlength, List.length_cons]
      have hhere := hdot 0 c rfl
      rw [Nat.add_zero] at hhere
      by_cases hc : c = 0x2E
      · -- The dot is passed over; a digit comes behind it.
        have hne : text ≠ [] := by
          rintro rfl
          exact hlast (by rw [hc]; rfl)
        rw [setBufOps, if_neg (by omega), if_pos (hhere.mpr hc), hc, digitsOf_dot]
        exact ih hnext hdigits' hdot' (hlast' hne) hne hlen hval hv
      · have hd : isDigit c = true := (hdigits c List.mem_cons_self).resolve_right hc
        have hsmall : addDigit val c < 10 ^ (len + 1) :=
          @foldl_addDigit_lt [c] (by simpa using hd) val len hval
        have hbound : addDigit val c + 1 < 2 ^ 64 := by
          have hle : 10 ^ (len + 1) ≤ 10 ^ 19 := Nat.pow_le_pow_right (by decide) (by omega)
          omega
        have hvalue : addDigit (v * 10 ^ len + val) c = v * 10 ^ (len + 1) + addDigit val c := by
          rw [addDigit, addDigit, Nat.pow_succ]
          ring
        rw [setBufOps_digit (by omega) (fun h => hc (hhere.mp h)) (hread ▸ hd) hlen hval, hread,
          digitsOf_cons hc, List.foldl_cons, hvalue]
        have hmark : markCut bigCut (addDigit val c) ≤ addDigit val c + 1 := by
          unfold markCut
          split <;> omega
        by_cases hend : text = []
        · subst hend
          rw [if_pos (show cur + 1 = cur + 1 + ([] : List Nat).length from rfl)]
          have hflush := @flush_spec v (markCut bigCut (addDigit val c)) (len + 1) hv (by omega)
            (by omega) []
          refine ⟨hflush.1.trans (markCut_add).symm, fun hroom => hflush.2 ?_ rfl⟩
          exact (Nat.add_le_add_left hmark _).trans_lt hroom
        · have hpos := List.length_pos_of_ne_nil hend
          rw [if_neg (by omega)]
          by_cases hfull : len + 1 = 19
          · rw [if_pos hfull, hfull]
            have hv' : 0 < v * 10 ^ 19 + addDigit val c :=
              Nat.add_pos_left (Nat.mul_pos hv (by decide)) _
            have hrec := @ih (cur + 1) 0 0 (v * 10 ^ 19 + addDigit val c) hnext hdigits' hdot'
              (hlast' hend) hend (by decide) (by decide) hv'
            rw [show (v * 10 ^ 19 + addDigit val c) * 10 ^ 0 + 0 = v * 10 ^ 19 + addDigit val c by
              rw [Nat.pow_zero, Nat.mul_one, Nat.add_zero]] at hrec
            have hflush := @flush_spec v (addDigit val c) 19 hv (Nat.le_refl 19) (by omega)
              (setBufOps src (cur + 1 + text.length) dotPos bigCut text.length (cur + 1) 0 0)
            refine ⟨hflush.1.trans hrec.1, fun hroom => hflush.2 ?_ (hrec.2 hroom)⟩
            have hle := le_foldl_addDigit (digitsOf text) (v * 10 ^ 19 + addDigit val c)
            exact hle.trans_lt ((Nat.lt_succ_self _).trans hroom)
          · rw [if_neg hfull]
            exact ih hnext hdigits' hdot' (hlast' hend) hend (by omega) hsmall hv

end Spec

/-! ## The digits of a literal that are cut off -/

section Literal

/-- The text of a literal from the twentieth significant digit on, with the positions of its parts:
all digits, or some in front of the dot and some behind it. -/
inductive CutText (p : NumberParts) (sigCut : Nat) : Prop where
  | plain : p.mantissa.drop sigCut = p.significant.drop 19 →
      sigCut + (p.significant.length - 19) = p.mantissa.length →
      (p.int.length + 1 ≤ sigCut ∨ p.mantissa.length ≤ p.int.length) → CutText p sigCut
  | dotted (a b : List Nat) : p.mantissa.drop sigCut = a ++ 0x2E :: b → a ≠ [] → b ≠ [] →
      p.significant.drop 19 = a ++ b → p.int.length = sigCut + a.length → b.length = p.frac.length →
      CutText p sigCut

variable {p : NumberParts}

/-- Where the twentieth significant digit is. -/
def cutPos (p : NumberParts) : Nat :=
  let index := p.int.length + p.frac.length - p.significant.length + 19
  index + if p.int.length ≤ index then 1 else 0

theorem length_mantissa (p : NumberParts) :
    p.mantissa.length = p.int.length + if p.frac = [] then 0 else p.frac.length + 1 := by
  rw [NumberParts.mantissa, List.length_append]
  split <;> simp

theorem cutText (hlong : 19 < p.significant.length) : CutText p (cutPos p) := by
  obtain ⟨hlen, hdrop⟩ := significant_drop p
  have hmantissa := length_mantissa p
  have hsuffix : p.significant.drop 19 = (p.int ++ p.frac).drop
      (p.int.length + p.frac.length - p.significant.length + 19) := by
    conv_lhs => rw [hdrop]
    rw [List.drop_drop]
  unfold cutPos
  dsimp only
  generalize hindex : p.int.length + p.frac.length - p.significant.length + 19 = index at hsuffix ⊢
  have hlt : index < p.int.length + p.frac.length := by omega
  by_cases hpast : p.int.length ≤ index
  · have hne : p.frac ≠ [] := by
      rintro hnil
      rw [hnil, List.length_nil] at hlt
      omega
    rw [if_neg hne] at hmantissa
    rw [if_pos hpast]
    obtain ⟨m, rfl⟩ := Nat.exists_eq_add_of_le hpast
    refine .plain ?_ (by omega) (.inl (by omega))
    rw [hsuffix, NumberParts.mantissa, if_neg hne, Nat.add_assoc, List.drop_append,
      List.drop_append]
    simp only [Nat.add_sub_cancel_left, List.drop_eq_nil_of_le (Nat.le_add_right _ _),
      List.nil_append, List.drop_succ_cons]
  · have hle := Nat.le_of_lt (Nat.lt_of_not_le hpast)
    rw [if_neg hpast, Nat.add_zero]
    by_cases hnil : p.frac = []
    · rw [if_pos hnil] at hmantissa
      rw [hnil, List.length_nil] at hlt hindex hlen
      refine .plain ?_ (by omega) (.inr (by omega))
      rw [hsuffix, NumberParts.mantissa, hnil, if_pos rfl]
    · refine .dotted (p.int.drop index) p.frac ?_ ?_ hnil ?_ ?_ rfl
      · rw [NumberParts.mantissa, if_neg hnil, List.drop_append_of_le_length hle]
      · exact List.ne_nil_of_length_pos (by rw [List.length_drop]; omega)
      · rw [hsuffix, List.drop_append_of_le_length hle]
      · rw [List.length_drop]
        omega

/-- `dig_len_total`. -/
def cutTotal (d : Decimal) (sigCut : Nat) : Nat :=
  (19 + (d.sigEnd - sigCut) % 2 ^ 32 - if sigCut < d.dotPos ∧ d.dotPos < d.sigEnd then 1 else 0) %
    2 ^ 32

/-- `sig_end` behind the branch for too many digits. -/
def cutEnd (d : Decimal) (sigCut : Nat) : Nat :=
  let sigEnd :=
    if 768 < cutTotal d sigCut then d.sigEnd - (cutTotal d sigCut - 769) else d.sigEnd
  if 768 < cutTotal d sigCut ∧ d.dotPos + 1 = sigEnd then sigEnd - 1 else sigEnd

theorem bigintSetBuf_some (src : Source) {d : Decimal} {sigCut : Nat} (h : d.sigCut = some sigCut) :
    bigintSetBuf src d =
      (setBufLoop src (cutEnd d sigCut) d.dotPos (768 < cutTotal d sigCut)
        (cutEnd d sigCut - sigCut) sigCut 0 0 [d.sig - roundUp (src.read sigCut)],
        d.exp - (((if 768 < cutTotal d sigCut then 769 else cutTotal d sigCut : Nat) : Int) - 19)) := by
  unfold bigintSetBuf
  rw [h]
  rfl

/-- The end of the digits that are taken: a number of characters, less what is too much. -/
theorem cutEnd_cases {d : Decimal} {sigCut total : Nat} (htotal : cutTotal d sigCut = total) :
    cutEnd d sigCut = if total ≤ 768 then d.sigEnd
      else if d.dotPos + 1 = d.sigEnd - (total - 769) then d.sigEnd - (total - 769) - 1
      else d.sigEnd - (total - 769) := by
  unfold cutEnd
  rw [htotal]
  dsimp only
  split_ifs <;> omega

/-- The decimal of a literal with many digits. -/
theorem partsDecimal_long (hlong : 19 < p.significant.length) :
    partsDecimal 0 p =
      ⟨digitsVal (p.significant.take 19) + roundUp (p.significant.getD 19 0),
        (p.significant.length : Int) - 19 - p.frac.length,
        if (p.significant.drop 19).all (· == 0x30) then none else some (cutPos p),
        p.mantissa.length, p.int.length⟩ := by
  rw [partsDecimal, if_neg (Nat.not_le.mpr hlong), Nat.zero_add, Nat.zero_add]
  simp only [cutPos, Nat.zero_add]
  rfl

/-- All digits are counted, up to 32 bits. -/
theorem cutTotal_eq {d : Decimal} (hlong : 19 < p.significant.length)
    (hend : d.sigEnd = p.mantissa.length) (hdot : d.dotPos = p.int.length) :
    cutTotal d (cutPos p) = p.significant.length % 2 ^ 32 := by
  unfold cutTotal
  rw [hend, hdot]
  cases cutText hlong with
  | plain htext hlength hout =>
      rw [if_neg (by omega)]
      omega
  | dotted a b htext ha hb hdigits hpos hfrac =>
      have hlength := congrArg List.length htext
      have hcount := congrArg List.length hdigits
      have hpos' := List.length_pos_of_ne_nil ha
      have hbpos := List.length_pos_of_ne_nil hb
      simp only [List.length_drop, List.length_append, List.length_cons] at hlength hcount
      rw [if_pos (by omega)]
      omega

/-- Whether the dot is among the characters that are left out. -/
def DotLeftOut (p : NumberParts) (total : Nat) : Prop := p.frac ≠ [] ∧ p.frac.length + 769 < total

instance (p : NumberParts) (total : Nat) : Decidable (DotLeftOut p total) :=
  inferInstanceAs (Decidable (_ ∧ _))

/-- How many digits are taken behind the first nineteen. A dot that is left out has been counted as
one of the characters that are too much. -/
def takenCount (p : NumberParts) (total : Nat) : Nat :=
  if total ≤ 768 then p.significant.length - 19
  else p.significant.length - 19 - (total - 769) + if DotLeftOut p total then 1 else 0

/-- The characters from the twentieth significant digit to where the loop ends. -/
structure Taken (p : NumberParts) (total m : Nat) : Prop where
  length : ((p.mantissa.drop (cutPos p)).take m).length = m
  pos : 0 < m
  last : ((p.mantissa.drop (cutPos p)).take m).getLast? ≠ some 0x2E
  digits : digitsOf ((p.mantissa.drop (cutPos p)).take m) =
    (p.significant.drop 19).take (takenCount p total)

theorem digitsOf_digits {ds : List Nat} (hds : ∀ d ∈ ds, isDigit d = true) : digitsOf ds = ds := by
  refine List.filter_eq_self.mpr fun d hd => ?_
  have hdigit := isDigit_iff.mp (hds d hd)
  simp only [bne_iff_ne]
  omega

theorem digitsOf_append (text text' : List Nat) :
    digitsOf (text ++ text') = digitsOf text ++ digitsOf text' := List.filter_append _ _

theorem getLast_digit {ds : List Nat} (hds : ∀ d ∈ ds, isDigit d = true) :
    ds.getLast? ≠ some 0x2E := by
  intro h
  have hdigit := isDigit_iff.mp (hds _ (List.mem_of_getLast? h))
  omega

theorem significant_digits (hint : ∀ d ∈ p.int, isDigit d = true)
    (hfrac : ∀ d ∈ p.frac, isDigit d = true) : ∀ d ∈ p.significant, isDigit d = true := by
  intro d hd
  rcases List.mem_append.mp ((List.dropWhile_sublist _).mem hd) with h | h
  · exact hint d h
  · exact hfrac d h

/-- What the loop takes of a literal. -/
theorem taken (hlong : 19 < p.significant.length) (hint : ∀ d ∈ p.int, isDigit d = true)
    (hfrac : ∀ d ∈ p.frac, isDigit d = true) {d : Decimal} (hend : d.sigEnd = p.mantissa.length)
    (hdot : d.dotPos = p.int.length) :
    Taken p (p.significant.length % 2 ^ 32) (cutEnd d (cutPos p) - cutPos p) := by
  have htotal := cutTotal_eq hlong hend hdot
  have hmod := Nat.mod_le p.significant.length (2 ^ 32)
  have hdigits : ∀ c ∈ p.significant.drop 19, isDigit c = true := fun c hc =>
    significant_digits hint hfrac c (List.mem_of_mem_drop hc)
  rw [cutEnd_cases htotal, hend, hdot]
  generalize p.significant.length % 2 ^ 32 = total at hmod
  have hmantissa := length_mantissa p
  cases cutText hlong with
  | plain htext hlength hout =>
      have hno : ¬ DotLeftOut p total := by
        rintro ⟨hne, hlt⟩
        rw [if_neg hne] at hmantissa
        omega
      have hcount : (if total ≤ 768 then p.mantissa.length
          else if p.int.length + 1 = p.mantissa.length - (total - 769) then
            p.mantissa.length - (total - 769) - 1
          else p.mantissa.length - (total - 769)) - cutPos p = takenCount p total := by
        unfold takenCount
        rw [if_neg hno]
        split_ifs <;> omega
      have hle : takenCount p total ≤ p.significant.length - 19 ∧ 0 < takenCount p total := by
        unfold takenCount
        rw [if_neg hno]
        split_ifs <;> omega
      have htake : ∀ c ∈ (p.significant.drop 19).take (takenCount p total), isDigit c = true :=
        fun c hc => hdigits c (List.mem_of_mem_take hc)
      rw [hcount]
      refine ⟨?_, hle.2, ?_, ?_⟩
      · rw [htext, List.length_take, List.length_drop]
        omega
      · rw [htext]
        exact getLast_digit htake
      · rw [htext]
        exact digitsOf_digits htake
  | dotted a b htext ha hb hsplit hpos hblen =>
      have hlength := congrArg List.length htext
      have hcount := congrArg List.length hsplit
      have hapos := List.length_pos_of_ne_nil ha
      have hbpos := List.length_pos_of_ne_nil hb
      simp only [List.length_drop, List.length_append, List.length_cons] at hlength hcount
      have hfracne : p.frac ≠ [] := List.ne_nil_of_length_pos (by omega)
      have hleft : DotLeftOut p total ↔ b.length + 769 < total := by
        unfold DotLeftOut
        rw [hblen]
        exact and_iff_right hfracne
      rw [hsplit] at hdigits
      have hda : ∀ c ∈ a, isDigit c = true := fun c hc => hdigits c (List.mem_append_left b hc)
      have hdb : ∀ c ∈ b, isDigit c = true := fun c hc => hdigits c (List.mem_append_right a hc)
      have htaken : takenCount p total = if total ≤ 768 then a.length + b.length
          else a.length + b.length - (total - 769) + if b.length + 769 < total then 1 else 0 := by
        unfold takenCount
        rw [if_congr hleft rfl rfl]
        split_ifs <;> omega
      generalize hm : (if total ≤ 768 then p.mantissa.length
          else if p.int.length + 1 = p.mantissa.length - (total - 769) then
            p.mantissa.length - (total - 769) - 1
          else p.mantissa.length - (total - 769)) - cutPos p = m
      -- Either the loop ends in front of the dot, or behind some digits of the fraction.
      have hcases : 0 < m ∧ m ≤ a.length ∧ takenCount p total = m ∨
          ∃ k, 0 < k ∧ k ≤ b.length ∧ m = a.length + (k + 1) ∧
            takenCount p total = a.length + k := by
        by_cases hfew : total ≤ 768
        · refine .inr ⟨b.length, hbpos, Nat.le_refl _, ?_, ?_⟩
          · rw [if_pos hfew] at hm
            omega
          · rw [htaken, if_pos hfew]
        · rw [if_neg hfew] at hm
          rw [htaken, if_neg hfew]
          rcases Nat.lt_trichotomy (b.length + 769) total with hlt | heq | hgt
          · rw [if_neg (by omega)] at hm
            rw [if_pos hlt]
            exact .inl ⟨by omega, by omega, by omega⟩
          · rw [if_pos (by omega)] at hm
            rw [if_neg (by omega)]
            exact .inl ⟨by omega, by omega, by omega⟩
          · rw [if_neg (by omega)] at hm
            rw [if_neg (by omega)]
            exact .inr ⟨b.length - (total - 769), by omega, by omega, by omega, by omega⟩
      rcases hcases with ⟨hm0, hma, hcount'⟩ | ⟨k, hk, hkb, rfl, hcount'⟩
      · have htake : ∀ c ∈ a.take m, isDigit c = true := fun c hc => hda c (List.mem_of_mem_take hc)
        refine ⟨?_, hm0, ?_, ?_⟩
        · rw [htext, List.length_take, List.length_append, List.length_cons]
          omega
        · rw [htext, List.take_append_of_le_length hma]
          exact getLast_digit htake
        · rw [htext, hsplit, hcount', List.take_append_of_le_length hma,
            List.take_append_of_le_length hma]
          exact digitsOf_digits htake
      · have htake : ∀ c ∈ b.take k, isDigit c = true := fun c hc => hdb c (List.mem_of_mem_take hc)
        have hne : b.take k ≠ [] := List.ne_nil_of_length_pos (by rw [List.length_take]; omega)
        have hprefix : (a ++ 0x2E :: b).take (a.length + (k + 1)) = a ++ 0x2E :: b.take k := by
          rw [List.take_length_add_append, List.take_succ_cons]
        refine ⟨?_, by omega, ?_, ?_⟩
        · rw [htext, List.length_take, List.length_append, List.length_cons]
          omega
        · rw [htext, hprefix, List.getLast?_append_cons, List.getLast?_cons_of_ne_nil hne]
          exact getLast_digit htake
        · rw [htext, hprefix, hsplit, hcount', List.take_length_add_append, digitsOf_append,
            digitsOf_digits hda, digitsOf_dot, digitsOf_digits htake]

/-- The dot is where it stands. -/
theorem mantissa_dot (hint : ∀ d ∈ p.int, isDigit d = true) (hfrac : ∀ d ∈ p.frac, isDigit d = true)
    {i c : Nat} (h : p.mantissa[i]? = some c) : i = p.int.length ↔ c = 0x2E := by
  have hdigit : ∀ {c}, isDigit c = true → c ≠ 0x2E := by
    intro c hc
    have := isDigit_iff.mp hc
    omega
  rw [NumberParts.mantissa] at h
  rcases Nat.lt_trichotomy i p.int.length with hlt | rfl | hgt
  · rw [List.getElem?_append_left hlt] at h
    exact iff_of_false (by omega) (hdigit (hint c (List.mem_of_getElem? h)))
  · rw [List.getElem?_append_right (Nat.le_refl _), Nat.sub_self] at h
    split at h
    · cases h
    · exact iff_of_true rfl (Option.some.inj h).symm
  · rw [List.getElem?_append_right hgt.le] at h
    split at h
    · cases h
    · obtain ⟨k, hk⟩ : ∃ k, i - p.int.length = k + 1 := ⟨i - p.int.length - 1, by omega⟩
      rw [hk, List.getElem?_cons_succ] at h
      exact iff_of_false (by omega) (hdigit (hfrac c (List.mem_of_getElem? h)))

/-- The digits of a literal that are taken, as a number. -/
theorem setBuf_literal (hlong : 19 < p.significant.length) (hint : ∀ d ∈ p.int, isDigit d = true)
    (hfrac : ∀ d ∈ p.frac, isDigit d = true) {d : Decimal} (hend : d.sigEnd = p.mantissa.length)
    (hdot : d.dotPos = p.int.length) (hpos : 0 < digitsVal (p.significant.take 19)) :
    let total := p.significant.length % 2 ^ 32
    let number := digitsVal (p.significant.take (19 + takenCount p total))
    let ops := setBufOps (.ofUnits p.mantissa) (cutEnd d (cutPos p)) d.dotPos (768 < total)
      (cutEnd d (cutPos p) - cutPos p) (cutPos p) 0 0
    resultAll ops (digitsVal (p.significant.take 19)) = markCut (768 < total) number ∧
      (number + 1 < 2 ^ 4096 → AllExact ops (ofNat (digitsVal (p.significant.take 19)))
        (digitsVal (p.significant.take 19))) := by
  intro total number ops
  obtain ⟨hlength, hm, hlast, hdigits⟩ := taken hlong hint hfrac hend hdot
  generalize hcount : cutEnd d (cutPos p) - cutPos p = m at hlength hm hlast hdigits
  have hsigEnd : cutEnd d (cutPos p) = cutPos p + m := by omega
  have hrest : (Source.ofUnits p.mantissa).rest (cutPos p) =
      (p.mantissa.drop (cutPos p)).take m ++ (p.mantissa.drop (cutPos p)).drop m :=
    (List.take_append_drop m _).symm
  have hchars : ∀ c ∈ (p.mantissa.drop (cutPos p)).take m, isDigit c = true ∨ c = 0x2E := by
    intro c hc
    have hmem := List.mem_of_mem_drop (List.mem_of_mem_take hc)
    rw [NumberParts.mantissa] at hmem
    rcases List.mem_append.mp hmem with h | h
    · exact .inl (hint c h)
    · split at h
      · cases h
      · rcases List.mem_cons.mp h with rfl | h
        · exact .inr rfl
        · exact .inl (hfrac c h)
  have hdotPos : ∀ k c, ((p.mantissa.drop (cutPos p)).take m)[k]? = some c →
      (cutPos p + k = d.dotPos ↔ c = 0x2E) := by
    intro k c hk
    rw [List.getElem?_take] at hk
    split at hk
    · rw [List.getElem?_drop] at hk
      rw [hdot]
      exact mantissa_dot hint hfrac hk
    · cases hk
  have hspec := @setBufOps_spec (.ofUnits p.mantissa) d.dotPos (768 < total) _
    ((p.mantissa.drop (cutPos p)).take m) (cutPos p) 0 0 (digitsVal (p.significant.take 19)) hrest
    hchars hdotPos hlast (List.ne_nil_of_length_pos (hlength.symm ▸ hm)) (by decide) (by decide) hpos
  have hnumber : (digitsOf ((p.mantissa.drop (cutPos p)).take m)).foldl addDigit
      (digitsVal (p.significant.take 19) * 10 ^ 0 + 0) = number := by
    rw [hdigits, Nat.pow_zero, Nat.mul_one, Nat.add_zero, digitsVal_eq, ← List.foldl_append,
      ← digitsVal_eq, ← List.take_add]
  rw [hlength, hnumber] at hspec
  have hops : ops = setBufOps (.ofUnits p.mantissa) (cutPos p + m) d.dotPos (768 < total) m
      (cutPos p) 0 0 := by
    show setBufOps _ _ _ _ _ _ _ _ = _
    rw [hcount, hsigEnd]
  rw [hops]
  exact hspec

end Literal

end SsrJson.Decode
