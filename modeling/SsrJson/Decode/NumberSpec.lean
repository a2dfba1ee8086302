import SsrJson.Decode.NumberRuns
import SsrJson.Decode.ReaderSpec

/-!
# What the number reader reads

`loads_number` reads the literal that `lexNumber` takes off the text. The value it gives depends on
the parts of the literal only: `partsDecimal` is the significand with its exponent that the
branches of the reader arrive at, whichever way they cut the digits, and `partsNum` the number made
of it.
-/

namespace SsrJson.Decode

open Spec

variable {src : Source} {sign : Bool} {cur : Nat}

/-! ## The number a literal denotes -/

/-- The bits of a decimal without its sign, with the bounds of `digi_exp_finish`. -/
def finishRaw (src : Source) (d : Decimal) : Nat :=
  if d.exp < -324 - 19 then 0 else if 308 < d.exp then Binary64.infRaw else digiFinish src d

/-- The bits of a decimal with an exponent part behind it. -/
def expRaw (src : Source) (d : Decimal) : Option (Bool × List Nat) → Nat
  | none => finishRaw src d
  | some (neg, ds) =>
    let ds := ds.dropWhile (· == 0x30)
    if 19 ≤ ds.length then if neg then 0 else Binary64.infRaw
    else
      finishRaw src { d with exp := if neg then d.exp - digitsVal ds else d.exp + digitsVal ds }

/-- The significand and exponent of a literal whose digits begin at `start`. From the twentieth
significant digit on they are cut off, unless all of them are zeros. -/
def partsDecimal (start : Nat) (p : NumberParts) : Decimal :=
  let digits := p.significant
  if digits.length ≤ 19 then ⟨digitsVal digits, -(p.frac.length : Int), none, 0, 0⟩
  else
    let index := p.int.length + p.frac.length - digits.length + 19
    ⟨digitsVal (digits.take 19) + if 0x35 ≤ digits.getD 19 0 then 1 else 0,
      (digits.length : Int) - 19 - p.frac.length,
      if (digits.drop 19).all (· == 0x30) then none
      else some (start + index + if p.int.length ≤ index then 1 else 0),
      start + p.mantissa.length, start + p.int.length⟩

/-- The number of an integer literal that fits 64 bits. -/
def intNum (neg : Bool) (v : Nat) : Num :=
  if neg then if v ≤ 2 ^ 63 then .int (-(v : Int)) else u64AsF64 true v else .int v

/-- The number of a literal whose digits begin at `start`. -/
def partsNum (src : Source) (start : Nat) (p : NumberParts) : Num :=
  if p.frac = [] ∧ p.exp = none ∧ digitsVal p.int < 2 ^ 64 then intNum p.neg (digitsVal p.int)
  else if p.significant = [] then f64Bin p.neg 0
  else f64Bin p.neg (expRaw src (partsDecimal start p) p.exp)

/-! ## The exponent -/

theorem digiExpFinish_eq (d : Decimal) :
    digiExpFinish src sign d cur = some (f64Bin sign (finishRaw src d), cur) := by
  unfold digiExpFinish finishRaw
  split_ifs <;> rfl

/-- The zeros in front of a run of digits. -/
theorem zeros_split (ds : List Nat) : ∃ n, ds = List.replicate n 0x30 ++ ds.dropWhile (· == 0x30) ∧
    ∀ c ∈ (ds.dropWhile (· == 0x30)).head?, c ≠ 0x30 := by
  induction ds with
  | nil => exact ⟨0, rfl, by simp⟩
  | cons d ds ih =>
      by_cases hd : d = 0x30
      · obtain ⟨n, hds, hhead⟩ := ih
        subst hd
        refine ⟨n + 1, ?_, hhead⟩
        rw [List.replicate_succ, List.cons_append]
        exact congrArg _ hds
      · refine ⟨0, ?_, ?_⟩
        · simp [hd]
        · simp [hd]

/-- The sign of an exponent under the cursor. -/
theorem lexSign_read (hle : cur ≤ src.len) :
    (src.read cur = 0x2D ↔ (lexSign (src.rest cur)).1 = true) ∧
      (if digiIsSign (src.read cur) then cur + 1 else cur) ≤ src.len ∧
      src.rest (if digiIsSign (src.read cur) then cur + 1 else cur) =
        (lexSign (src.rest cur)).2 := by
  have hread := Source.read_eq_headD hle
  cases hrest : src.rest cur with
  | nil =>
      rw [hrest, List.headD_nil] at hread
      have hsign : digiIsSign (src.read cur) = false := by rw [hread]; rfl
      rw [hsign, hread]
      exact ⟨by simp [lexSign], hle, hrest⟩
  | cons c s =>
      obtain ⟨hlt, rfl, hs⟩ := Source.rest_cons hrest
      have hsign := @digiIsSign_iff (src.read cur)
      rw [lexSign]
      by_cases hminus : src.read cur = 0x2D
      · rw [if_pos hminus, if_pos (hsign.mpr (.inr hminus))]
        exact ⟨iff_of_true hminus rfl, hlt, hs⟩
      · rw [if_neg hminus]
        by_cases hplus : src.read cur = 0x2B
        · rw [if_pos hplus, if_pos (hsign.mpr (.inl hplus))]
          exact ⟨iff_of_false hminus Bool.false_ne_true, hlt, hs⟩
        · rw [if_neg hplus, if_neg (by rw [hsign]; tauto)]
          exact ⟨iff_of_false hminus Bool.false_ne_true, hle, hrest⟩

/-- Reading the digits of an exponent behind its zeros. -/
theorem readExp_eq {ds r : List Nat} (hle : cur ≤ src.len) (h : src.rest cur = ds ++ r)
    (hds : ∀ d ∈ ds, isDigit d = true) (hr : NoDigit r) :
    ∃ tmp lit, skipZeros src (src.len + 1) cur = tmp ∧
      readExpLit src (src.len + 1) tmp 0 = (cur + ds.length, lit) ∧
      cur + ds.length - tmp = (ds.dropWhile (· == 0x30)).length ∧
      ((ds.dropWhile (· == 0x30)).length < 19 → lit = digitsVal (ds.dropWhile (· == 0x30))) := by
  obtain ⟨n, hsplit, hhead⟩ := zeros_split ds
  generalize ds.dropWhile (· == 0x30) = e at hsplit hhead
  have hlen : ds.length = n + e.length := by
    rw [hsplit, List.length_append, List.length_replicate]
  have he : ∀ d ∈ e, isDigit d = true := fun d hd =>
    hds d (hsplit ▸ List.mem_append_right _ hd)
  have hbound := Source.le_of_rest h hle
  have hrest : src.rest cur = List.replicate n 0x30 ++ (e ++ r) := by
    rw [h, ← List.append_assoc, ← hsplit]
  have hrest' : src.rest (cur + n) = e ++ r := by
    have := Source.rest_append hrest
    rwa [List.length_replicate] at this
  have hfirst : ∀ c ∈ (e ++ r).head?, c ≠ 0x30 := by
    cases e with
    | cons d e => exact hhead
    | nil =>
        rintro c hc rfl
        cases r with
        | nil => cases hc
        | cons c' r =>
            cases hc
            cases hr
  have hlit := readExpLit_eq (by omega) hrest' he hr (show e.length < src.len + 1 by omega) 0
  rw [Nat.add_assoc, ← hlen] at hlit
  refine ⟨_, _, skipZeros_eq hle hrest hfirst (by omega), hlit, by omega, fun hshort => ?_⟩
  exact foldl_expLit he (by decide : 0 < 10 ^ 0) (by omega)

/-- `digi_exp_more` reads the exponent, whatever the significand. -/
theorem digiExpMore_eq (hle : cur ≤ src.len) (hexp : digiIsExp (src.read cur) = true)
    (d : Decimal) : digiExpMore src sign d cur =
      match lexExp (src.rest cur) with
      | none => none
      | some (exp, r) => some (f64Bin sign (expRaw src d exp), src.len - r.length) := by
  have hletter := digiIsExp_iff.mp hexp
  have hlt : cur < src.len := Source.lt_of_read hle (by omega)
  obtain ⟨hneg, hle', hrest⟩ := @lexSign_read src (cur + 1) hlt
  rw [Source.rest_of_lt hlt, lexExp, if_pos hletter, digiExpMore]
  dsimp only
  generalize (if digiIsSign (src.read (cur + 1)) then cur + 1 + 1 else cur + 1) = cur'
    at hle' hrest ⊢
  generalize lexSign (src.rest (cur + 1)) = lexed at hneg hrest ⊢
  obtain ⟨neg, s⟩ := lexed
  dsimp only at hneg hrest ⊢
  rw [Source.isDigit_read hle', hrest]
  cases hdigit : s.head?.any isDigit with
  | false => simp
  | true =>
      simp only [Bool.true_eq_false, if_false, if_true]
      obtain ⟨ds, r, rfl, hds, hr⟩ := digits_split s
      obtain ⟨htake, hdrop⟩ := takeWhile_digits hds hr
      obtain ⟨tmp, lit, htmp, hlit, hlen, hval⟩ := readExp_eq hle' hrest hds hr
      have hend : cur' + ds.length = src.len - r.length := by
        have := Source.pos_of_rest (Source.le_of_rest hrest hle')
        rwa [Source.rest_append hrest] at this
      rw [htake, hdrop, htmp, hlit]
      dsimp only
      rw [hlen, hend]
      simp only [expRaw]
      split
      · simp only [hneg]
        cases neg <;> rfl
      · rename_i hshort
        rw [digiExpFinish_eq, hval (by omega)]
        simp only [hneg]

/-- What stands behind the digits: an exponent, or nothing more of the literal. -/
theorem expEnd_eq (hle : cur ≤ src.len) (d : Decimal) :
    (if digiIsExp (src.read cur) then digiExpMore src sign d cur
      else digiExpFinish src sign d cur) =
      match lexExp (src.rest cur) with
      | none => none
      | some (exp, r) => some (f64Bin sign (expRaw src d exp), src.len - r.length) := by
  split
  · exact digiExpMore_eq hle ‹_› d
  · rename_i hexp
    rw [digiExpFinish_eq]
    have hlex : lexExp (src.rest cur) = some (none, src.rest cur) := by
      cases hrest : src.rest cur with
      | nil => rfl
      | cons c s =>
          obtain ⟨-, rfl, -⟩ := Source.rest_cons hrest
          rw [lexExp, if_neg (fun h => hexp (digiIsExp_iff.mpr h))]
    rw [hlex]
    simp only [expRaw, ← Source.pos_of_rest hle]

/-! ## The fraction -/

/-- Where no digit is cut off, the text is not read again. -/
theorem expRaw_uncut {src' : Source} (sig : Nat) (e : Int) (sigEnd dotPos : Nat)
    (exp : Option (Bool × List Nat)) :
    expRaw src ⟨sig, e, none, sigEnd, dotPos⟩ exp = expRaw src' ⟨sig, e, none, 0, 0⟩ exp := by
  cases exp <;> rfl

/-- `digi_frac_end` behind at least one digit of the fraction. -/
theorem digiFracEnd_eq {sig dotPos : Nat} (hle : cur ≤ src.len) (hdot : dotPos + 1 < cur) :
    digiFracEnd src sign sig dotPos cur =
      match lexExp (src.rest cur) with
      | none => none
      | some (exp, r) =>
        some (f64Bin sign (expRaw src ⟨sig, -((cur - dotPos - 1 : Nat) : Int), none, 0, 0⟩ exp),
          src.len - r.length) := by
  have hend := @expEnd_eq src sign cur hle ⟨sig, -((cur - dotPos - 1 : Nat) : Int), none, cur, dotPos⟩
  simp only [@expRaw_uncut src src] at hend
  rw [← hend, digiFracEnd, if_neg (by omega)]
  dsimp only
  congr 1
  rw [digiExpFinish]
  dsimp only
  rw [if_neg (show ¬ 308 < -((cur - dotPos - 1 : Nat) : Int) by omega)]

/-- `digi_frac_i` reads the fraction to its end, or to the last digit there is room for. -/
theorem digiFrac_eq {ds r : List Nat} {sig k left dotPos : Nat} (hunits : src.Units32)
    (hle : cur ≤ src.len) (h : src.rest cur = ds ++ r) (hds : ∀ d ∈ ds, isDigit d = true)
    (hr : NoDigit r) (hsig : sig < 10 ^ k) (hk : k + left ≤ 19) :
    digiFrac src sign sig dotPos left cur =
      if ds.length ≤ left then
        digiFracEnd src sign (ds.foldl addDigit sig) dotPos (cur + ds.length)
      else digiFracMore src sign ((ds.take left).foldl addDigit sig) (some dotPos) (cur + left) := by
  have hbound := Source.le_of_rest h hle
  have hread := readDigits_eq hunits hle h hds hr hsig hk
  rw [digiFrac, hread]
  dsimp only
  rcases Nat.lt_or_ge ds.length left with hlt | hge
  · rw [Nat.min_eq_right hlt.le, if_pos (by omega), if_pos hlt.le, List.take_of_length_le hlt.le]
  · have htake : src.rest (cur + left) = ds.drop left ++ r := by
      rw [Source.rest_add, h, List.drop_append_of_le_length hge]
    rw [Nat.min_eq_left hge, if_neg (Nat.lt_irrefl _), Source.isDigit_read (by omega), htake]
    rcases Nat.lt_or_eq_of_le hge with hlt | rfl
    · rw [List.drop_eq_getElem_cons hlt, List.cons_append]
      simp only [List.head?_cons, Option.any_some, hds _ (List.getElem_mem hlt), if_true]
      rw [if_neg (Nat.not_le.mpr hlt)]
    · rw [List.drop_length, List.nil_append, if_neg (by rw [show r.head?.any isDigit = false from hr]; decide),
        if_pos (Nat.le_refl _), List.take_length]

/-- The digit rounded away. -/
def roundUp (d : Nat) : Nat := if 0x35 ≤ d then 1 else 0

/-- `digi_frac_more` behind the dot: the digits go on from `sigCut` to the end of the fraction. -/
theorem digiFracMore_some {d : Nat} {ds r : List Nat} {sig sigCut dotPos : Nat}
    (hsig : sig < 10 ^ 19) (h : src.rest sigCut = d :: ds ++ r)
    (hds : ∀ d ∈ ds, isDigit d = true) (hr : NoDigit r) :
    digiFracMore src sign sig (some dotPos) sigCut =
      digiFracMoreEnd src sign (sig + roundUp d) sigCut dotPos (sigCut + 1 + ds.length) := by
  obtain ⟨hlt, rfl, hrest⟩ := Source.rest_cons h
  have hbound := Source.le_of_rest hrest hlt
  have hpow : (10 ^ 19 : Nat) + 1 < 2 ^ 64 := by decide
  have hround : roundUp (src.read sigCut) ≤ 1 := by
    unfold roundUp
    split <;> omega
  rw [digiFracMore, skipDigits_eq hlt hrest hds hr (by omega)]
  congr 1
  exact Nat.mod_eq_of_lt (by unfold roundUp at hround; omega)

/-- `digi_frac_more` in front of the dot: the digits go on to the end of the integer part, and a
fraction may follow. -/
theorem digiFracMore_none {d : Nat} {ds r : List Nat} {sig sigCut : Nat}
    (hsig : sig < 10 ^ 19) (h : src.rest sigCut = d :: ds ++ r)
    (hds : ∀ d ∈ ds, isDigit d = true) (hr : NoDigit r) :
    digiFracMore src sign sig none sigCut =
      match lexFrac r with
      | none => none
      | some (frac, _) =>
        digiFracMoreEnd src sign (sig + roundUp d) sigCut (sigCut + 1 + ds.length)
          (sigCut + 1 + ds.length + if frac = [] then 0 else frac.length + 1) := by
  obtain ⟨hlt, rfl, hrest⟩ := Source.rest_cons h
  have hbound := Source.le_of_rest hrest hlt
  have hrest' := Source.rest_append hrest
  have hpow : (10 ^ 19 : Nat) + 1 < 2 ^ 64 := by decide
  have hround : (sig + if 0x35 ≤ src.read sigCut then 1 else 0) % 2 ^ 64 =
      sig + roundUp (src.read sigCut) :=
    Nat.mod_eq_of_lt (by split <;> omega)
  rw [digiFracMore, skipDigits_eq hlt hrest hds hr (by omega), hround]
  generalize sigCut + 1 + ds.length = cur at hbound hrest'
  cases r with
  | nil =>
      have hread : src.read cur ≠ 0x2E := by
        rw [Source.read_eq_headD hbound, hrest']
        decide
      rw [if_neg hread]
      rfl
  | cons c r =>
      obtain ⟨hlt', rfl, hrest''⟩ := Source.rest_cons hrest'
      rw [lexFrac]
      split
      · rw [Source.isDigit_read hlt', hrest'']
        cases hdigit : r.head?.any isDigit with
        | false => simp
        | true =>
            obtain ⟨fs, r', rfl, hfs, hr'⟩ := digits_split r
            obtain ⟨htake, hdrop⟩ := takeWhile_digits hfs hr'
            have hne : fs ≠ [] := by
              rintro rfl
              rw [List.nil_append] at hdigit
              rw [show r'.head?.any isDigit = false from hr'] at hdigit
              cases hdigit
            have hbound' := Source.le_of_rest hrest'' hlt'
            have hskip := skipDigits_eq hlt' hrest'' hfs hr'
              (show fs.length < src.len + 1 by omega)
            simp only [if_true, Bool.true_eq_false, if_false, htake, if_neg hne, hskip]
            congr 1
            omega
      · rfl

/-! ## Digits that are cut off -/

section Cut

variable {start : Nat} {p : NumberParts} {s : List Nat}

/-- Where the units of a literal stand. -/
theorem read_range_iff {t : List Nat} (h : src.rest start = t ++ s) (k : Nat) (P : Nat → Prop) :
    (∀ i, start + k ≤ i → i < start + t.length → P (src.read i)) ↔ ∀ c ∈ t.drop k, P c := by
  constructor
  · intro hread c hc
    obtain ⟨m, hm, rfl⟩ := List.mem_iff_getElem.mp hc
    rw [List.length_drop] at hm
    have := hread (start + (k + m)) (by omega) (by omega)
    rwa [Source.read_of_rest h (show k + m < t.length by omega), ← List.getElem_drop] at this
  · intro hmem i hle hlt
    obtain ⟨m, rfl⟩ := Nat.exists_eq_add_of_le hle
    rw [Nat.add_assoc, Source.read_of_rest h (show k + m < t.length by omega),
      ← @List.getElem_drop _ t k m (by rw [List.length_drop]; omega)]
    exact hmem _ (List.getElem_mem _)

/-- The digits of a literal from an index on, where they stand in its text. -/
theorem mantissa_drop_zeros {index : Nat} (hint : ∀ d ∈ p.int, isDigit d = true)
    (hfrac : ∀ d ∈ p.frac, isDigit d = true) (hindex : index < p.int.length + p.frac.length) :
    (∀ c ∈ p.mantissa.drop (index + if p.int.length ≤ index then 1 else 0),
      c = 0x30 ∨ c = 0x2E) ↔ ∀ d ∈ (p.int ++ p.frac).drop index, d = 0x30 := by
  have hnotDot : ∀ c, isDigit c = true → (c = 0x30 ∨ c = 0x2E ↔ c = 0x30) := by
    intro c hc
    rw [isDigit_iff] at hc
    omega
  rw [NumberParts.mantissa]
  by_cases hpast : p.int.length ≤ index
  · have hne : p.frac ≠ [] := by
      rintro hnil
      rw [hnil, List.length_nil] at hindex
      omega
    obtain ⟨m, rfl⟩ := Nat.exists_eq_add_of_le hpast
    rw [if_pos hpast, if_neg hne, Nat.add_assoc, List.drop_append, List.drop_append]
    simp only [Nat.add_sub_cancel_left, List.drop_eq_nil_of_le (Nat.le_add_right _ _),
      List.nil_append, List.drop_succ_cons]
    exact forall₂_congr fun c hc => hnotDot c (hfrac c (List.mem_of_mem_drop hc))
  · have hlt := Nat.lt_of_not_le hpast
    have hfirst : ∀ c ∈ p.int.drop index, (c = 0x30 ∨ c = 0x2E ↔ c = 0x30) := fun c hc =>
      hnotDot c (hint c (List.mem_of_mem_drop hc))
    have hsecond : (∀ c ∈ (if p.frac = [] then [] else 0x2E :: p.frac), c = 0x30 ∨ c = 0x2E) ↔
        ∀ d ∈ p.frac, d = 0x30 := by
      split
      · rename_i hnil
        simp [hnil]
      · rw [List.forall_mem_cons]
        exact ⟨fun h d hd => (hnotDot d (hfrac d hd)).mp (h.2 d hd),
          fun h => ⟨.inr rfl, fun d hd => .inl (h d hd)⟩⟩
    rw [if_neg hpast, Nat.add_zero, List.drop_append_of_le_length hlt.le,
      List.drop_append_of_le_length hlt.le, List.forall_mem_append, List.forall_mem_append, hsecond]
    exact and_congr_left fun _ => forall₂_congr fun c hc => hfirst c hc

/-- The significant digits end the digits of the literal. -/
theorem significant_drop (p : NumberParts) : p.significant.length ≤ p.int.length + p.frac.length ∧
    p.significant =
      (p.int ++ p.frac).drop (p.int.length + p.frac.length - p.significant.length) := by
  obtain ⟨n, hsplit, -⟩ := zeros_split (p.int ++ p.frac)
  have hlen := congrArg List.length hsplit
  rw [List.length_append, List.length_append, List.length_replicate] at hlen
  change _ = n + p.significant.length at hlen
  refine ⟨by omega, ?_⟩
  conv_rhs => rw [hsplit]
  rw [show p.int.length + p.frac.length - p.significant.length = n by omega,
    List.drop_append_of_le_length (by simp), List.drop_of_length_le (by simp), List.nil_append]
  rfl

/-- The end of `digi_frac_more` arrives at the decimal of the literal. -/
theorem digiFracMoreEnd_eq (hint : ∀ d ∈ p.int, isDigit d = true)
    (hfrac : ∀ d ∈ p.frac, isDigit d = true) (hle : start ≤ src.len)
    (h : src.rest start = p.mantissa ++ s) (hlong : 19 < p.significant.length)
    {sig sigCut : Nat} (hsig : sig = (partsDecimal start p).sig)
    (hcut : sigCut = start + (p.int.length + p.frac.length - p.significant.length + 19 +
      if p.int.length ≤ p.int.length + p.frac.length - p.significant.length + 19 then 1 else 0)) :
    digiFracMoreEnd src sign sig sigCut (start + p.int.length) (start + p.mantissa.length) =
      match lexExp s with
      | none => none
      | some (exp, r) =>
        some (f64Bin sign (expRaw src (partsDecimal start p) exp), src.len - r.length) := by
  obtain ⟨hlen, hdrop⟩ := significant_drop p
  have hbound := Source.le_of_rest h hle
  have hrest := Source.rest_append h
  generalize hindex : p.int.length + p.frac.length - p.significant.length + 19 = index at hcut
  have hlt : index < p.int.length + p.frac.length := by omega
  have hmantissa : p.mantissa.length = p.int.length + if p.frac = [] then 0 else p.frac.length + 1 := by
    rw [NumberParts.mantissa, List.length_append]
    split <;> simp
  have hlt' : index + (if p.int.length ≤ index then 1 else 0) < p.mantissa.length := by
    have hne : p.int.length ≤ index → p.frac ≠ [] := by
      intro hpast hnil
      rw [hnil, List.length_nil] at hlt
      omega
    rw [hmantissa]
    split <;> split <;> first | omega | exact absurd ‹_› (hne ‹_›)
  have hzeros : (∀ i, sigCut ≤ i → i ≤ start + p.mantissa.length - 1 →
      src.read i = 0x30 ∨ src.read i = 0x2E) ↔ (p.significant.drop 19).all (· == 0x30) := by
    have hrange := read_range_iff h (index + if p.int.length ≤ index then 1 else 0)
      (fun c => c = 0x30 ∨ c = 0x2E)
    rw [← hcut, mantissa_drop_zeros hint hfrac hlt] at hrange
    have hsuffix : p.significant.drop 19 = (p.int ++ p.frac).drop index := by
      conv_lhs => rw [hdrop]
      rw [List.drop_drop, hindex]
    rw [hsuffix, List.all_eq_true]
    simp only [beq_iff_eq]
    rw [← hrange]
    exact forall₂_congr fun i _ => by
      constructor <;> intro hi hlt <;> exact hi (by omega)
  have hd : (partsDecimal start p) = ⟨sig, (start + p.int.length : Nat) - (sigCut : Int) +
        (if start + p.int.length < sigCut then 1 else 0),
      if backOverZeros src (start + p.mantissa.length - 1) < sigCut then none else some sigCut,
      start + p.mantissa.length, start + p.int.length⟩ := by
    rw [hsig]
    simp only [partsDecimal, if_neg (Nat.not_le.mpr hlong), hindex]
    congr 1
    · split_ifs at hcut ⊢ <;> omega
    · rw [if_congr ((backOverZeros_lt (by omega)).trans hzeros).symm rfl rfl]
      rw [hcut, Nat.add_assoc]
  rw [digiFracMoreEnd, ← hrest, ← expEnd_eq hbound, hd]

/-- What follows the digits that are read before the fraction, or a part of it, is taken up. -/
theorem digiFrac_tail {q fs pre : List Nat} {sig left : Nat} (hunits : src.Units32)
    (hint : ∀ d ∈ p.int, isDigit d = true) (hfrac : ∀ d ∈ p.frac, isDigit d = true)
    (hle : start ≤ src.len) (h : src.rest start = p.mantissa ++ s) (hs : NoDigit s)
    (hne : p.frac ≠ []) (hsplit : p.frac = pre ++ fs) (hsig : p.significant = q ++ fs)
    (hq : sig = digitsVal q) (hqdigits : ∀ d ∈ q, isDigit d = true)
    (hleft : q.length + left = 19) (hcur : cur = start + p.int.length + 1 + pre.length) :
    digiFrac src sign sig (start + p.int.length) left cur =
      match lexExp s with
      | none => none
      | some (exp, r) =>
        some (f64Bin sign (expRaw src (partsDecimal start p) exp), src.len - r.length) := by
  have hmantissa : p.mantissa = (p.int ++ 0x2E :: pre) ++ fs := by
    rw [NumberParts.mantissa, if_neg hne, hsplit, List.append_assoc, List.cons_append]
  have hbound := Source.le_of_rest h hle
  have hlen : p.mantissa.length = p.int.length + 1 + pre.length + fs.length := by
    rw [hmantissa]
    simp only [List.length_append, List.length_cons]
    omega
  have hfs : ∀ d ∈ fs, isDigit d = true := fun d hd =>
    hfrac d (hsplit ▸ List.mem_append_right _ hd)
  have hrest : src.rest cur = fs ++ s := by
    have := @Source.rest_append src start (p.int ++ 0x2E :: pre) (fs ++ s)
      (by rw [h, hmantissa, List.append_assoc])
    rw [← this, hcur]
    congr 1
    simp only [List.length_append, List.length_cons]
    omega
  have hsize : p.frac.length = pre.length + fs.length := by rw [hsplit, List.length_append]
  have hsiglen : p.significant.length = q.length + fs.length := by rw [hsig, List.length_append]
  have hval := hq ▸ digitsVal_lt hqdigits
  rw [digiFrac_eq hunits (by omega) hrest hfs hs hval hleft.le]
  have hend : src.rest (cur + fs.length) = s := Source.rest_append hrest
  split
  · rename_i hshort
    have hfracPos : 0 < p.frac.length := List.length_pos_iff.mpr hne
    have hd : partsDecimal start p =
        ⟨fs.foldl addDigit sig, -((cur + fs.length - (start + p.int.length) - 1 : Nat) : Int),
          none, 0, 0⟩ := by
      rw [partsDecimal, if_pos (show p.significant.length ≤ 19 by omega), hsig, digitsVal_eq,
        List.foldl_append, hq]
      congr 2
      omega
    rw [digiFracEnd_eq (by omega) (by omega), hend, hd]
  · rename_i hlong
    have hlt : left < fs.length := Nat.lt_of_not_le hlong
    have hcut : fs = fs.take left ++ (fs[left] :: fs.drop (left + 1)) := by
      rw [← List.drop_eq_getElem_cons hlt, List.take_append_drop]
    have hrest' : src.rest (cur + left) = fs[left] :: fs.drop (left + 1) ++ s := by
      rw [Source.rest_add, hrest, List.drop_append_of_le_length hlt.le,
        List.drop_eq_getElem_cons hlt]
    have htake : ∀ d ∈ fs.take left, isDigit d = true := fun d hd => hfs d (List.mem_of_mem_take hd)
    have hfold := foldl_addDigit_lt htake hval
    rw [List.length_take, Nat.min_eq_left hlt.le, hleft] at hfold
    have hsuffix := (significant_drop p).1
    have hstart : cur + left = start + (p.int.length + p.frac.length - p.significant.length + 19 +
        if p.int.length ≤ p.int.length + p.frac.length - p.significant.length + 19 then 1
        else 0) := by
      rw [if_pos (by omega)]
      omega
    have hd : (fs.take left).foldl addDigit sig + roundUp fs[left] = (partsDecimal start p).sig := by
      rw [partsDecimal, if_neg (by omega)]
      have hq' : q.length ≤ 19 := by omega
      have hfirst : p.significant.take 19 = q ++ fs.take left := by
        rw [hsig, List.take_append, List.take_of_length_le hq',
          show 19 - q.length = left by omega]
      have hnext : p.significant.getD 19 0 = fs[left] := by
        rw [hsig, List.getD_append_right _ _ _ _ hq', show 19 - q.length = left by omega,
          List.getD_eq_getElem _ _ hlt]
      simp only [hfirst, hnext]
      rw [hq, digitsVal_eq, digitsVal_eq, List.foldl_append]
      rfl
    rw [digiFracMore_some hfold hrest' (fun d hd => hfs d (List.mem_of_mem_drop hd)) hs]
    have hstop : cur + left + 1 + (fs.drop (left + 1)).length = start + p.mantissa.length := by
      rw [List.length_drop]
      omega
    rw [hstop]
    exact digiFracMoreEnd_eq hint hfrac hle h (by omega) hd hstart

end Cut

/-! ## Literals by their integer part -/

/-- The rest of a literal whose integer part has been read. -/
def numberTail (src : Source) (sign : Bool) (start : Nat) (int s : List Nat) : NumberEnd :=
  match lexFrac s with
  | none => none
  | some (frac, s) =>
    match lexExp s with
    | none => none
    | some (exp, r) => some (partsNum src start ⟨sign, int, frac, exp⟩, src.len - r.length)

theorem partsNum_float {start : Nat} {p : NumberParts}
    (h : p.frac = [] → p.exp = none → 2 ^ 64 ≤ digitsVal p.int) (hsig : p.significant ≠ []) :
    partsNum src start p = f64Bin p.neg (expRaw src (partsDecimal start p) p.exp) := by
  rw [partsNum, if_neg, if_neg hsig]
  rintro ⟨hfrac, hexp, hlt⟩
  exact absurd hlt (Nat.not_lt.mpr (h hfrac hexp))

theorem significant_of_nonzero {sign : Bool} {c : Nat} {cs frac : List Nat}
    {exp : Option (Bool × List Nat)} (hc : isNonzeroDigit c = true) :
    (⟨sign, c :: cs, frac, exp⟩ : NumberParts).significant = c :: cs ++ frac := by
  have hne : c ≠ 0x30 := by
    rw [isNonzeroDigit_iff] at hc
    omega
  simp [NumberParts.significant, hne]

/-- Only the letter of an exponent begins one. -/
theorem lexExp_letter {c : Nat} {s r : List Nat} {exp : Option (Bool × List Nat)}
    (hc : c = 0x65 ∨ c = 0x45) (h : lexExp (c :: s) = some (exp, r)) : exp ≠ none := by
  rw [lexExp, if_pos hc] at h
  rintro rfl
  dsimp only at h
  split at h <;> cases h

/-- What can follow the integer part. -/
theorem tail_cases (s : List Nat) :
    (∃ s', s = 0x2E :: s') ∨
    (∃ c s', s = c :: s' ∧ (c = 0x65 ∨ c = 0x45) ∧ lexFrac s = some ([], s)) ∨
    ((∀ c ∈ s.head?, c ≠ 0x2E ∧ c ≠ 0x65 ∧ c ≠ 0x45) ∧ lexFrac s = some ([], s) ∧
      lexExp s = some (none, s)) := by
  cases s with
  | nil => exact .inr (.inr ⟨by simp, rfl, rfl⟩)
  | cons c s =>
      by_cases hdot : c = 0x2E
      · exact .inl ⟨s, by rw [hdot]⟩
      · by_cases hexp : c = 0x65 ∨ c = 0x45
        · exact .inr (.inl ⟨c, s, rfl, hexp, by rw [lexFrac, if_neg hdot]⟩)
        · refine .inr (.inr ⟨?_, by rw [lexFrac, if_neg hdot], by rw [lexExp, if_neg hexp]⟩)
          rintro _ ⟨⟩
          exact ⟨hdot, not_or.mp hexp⟩

/-- A fraction that is there. -/
theorem lexFrac_dot {s : List Nat} : lexFrac (0x2E :: s) = none ∧ s.head?.any isDigit = false ∨
    ∃ fs r, s = fs ++ r ∧ fs ≠ [] ∧ (∀ d ∈ fs, isDigit d = true) ∧ NoDigit r ∧
      lexFrac (0x2E :: s) = some (fs, r) ∧ s.head?.any isDigit = true := by
  rw [lexFrac, if_pos rfl]
  cases hdigit : s.head?.any isDigit with
  | false => exact .inl ⟨rfl, rfl⟩
  | true =>
      obtain ⟨fs, r, rfl, hfs, hr⟩ := digits_split s
      obtain ⟨htake, hdrop⟩ := takeWhile_digits hfs hr
      refine .inr ⟨fs, r, rfl, ?_, hfs, hr, by rw [htake, hdrop]; rfl, rfl⟩
      have := head_any_isDigit.mp hdigit
      rwa [htake] at this

section Nonzero

variable {start c : Nat} {cs s : List Nat}

/-- The integer of a short literal. -/
theorem i64Num_eq {v : Nat} (hv : if sign then v ≤ 2 ^ 63 else v < 2 ^ 64) (hpos : 0 < v) :
    i64Num sign v = intNum sign v := by
  unfold i64Num intNum
  cases sign with
  | true =>
      simp only [if_true] at hv
      simp only [if_true, Bool.true_eq_false, and_false, if_false, if_pos hv]
      unfold sub64
      congr 1
      split <;> omega
  | false =>
      simp only [Bool.false_eq_true, if_false] at hv
      simp only [Bool.false_eq_true, if_false, and_true]
      split
      · rfl
      · rfl

/-- An exponent right behind at most nineteen digits. -/
theorem digiExpMore_short {digits : Nat} (hc : isNonzeroDigit c = true)
    (hshort : (c :: cs).length ≤ 19) (hle : cur ≤ src.len) {e : Nat} {s' : List Nat}
    (hrest : src.rest cur = e :: s') (he : e = 0x65 ∨ e = 0x45) (hfrac : lexFrac (e :: s') = some ([], e :: s'))
    (hdigits : digits = digitsVal (c :: cs)) (sigEnd dotPos : Nat) :
    digiExpMore src sign ⟨digits, 0, none, sigEnd, dotPos⟩ cur =
      numberTail src sign start (c :: cs) (e :: s') := by
  have hread := (Source.rest_cons hrest).2.1
  rw [digiExpMore_eq hle (digiIsExp_iff.mpr (hread ▸ he)), hrest, numberTail, hfrac]
  dsimp only
  cases hexp : lexExp (e :: s') with
  | none => rfl
  | some result =>
      obtain ⟨exp, r⟩ := result
      have hsig := @significant_of_nonzero sign c cs [] exp hc
      have hd : partsDecimal start ⟨sign, c :: cs, [], exp⟩ = ⟨digits, 0, none, 0, 0⟩ := by
        rw [partsDecimal, hsig, List.append_nil, if_pos hshort, hdigits]
        rfl
      dsimp only
      rw [partsNum_float (fun _ hnone => absurd hnone (lexExp_letter he hexp))
        (by rw [hsig]; exact List.cons_ne_nil _ _), hd, @expRaw_uncut src src]

/-- The first digits of an integer part, at most nineteen, are read at once. -/
theorem readInt_eq (hunits : src.Units32) (h : src.rest start = c :: cs ++ s)
    (hc : isNonzeroDigit c = true) (hcs : ∀ d ∈ cs, isDigit d = true) (hs : NoDigit s) :
    readDigits src 18 (start + 1) (digitNum (src.read start)) =
      (start + 1 + min 18 cs.length, digitsVal ((c :: cs).take 19)) := by
  obtain ⟨hlt, rfl, hrest⟩ := Source.rest_cons h
  rw [isNonzeroDigit_iff] at hc
  have hnum : digitNum (src.read start) = src.read start - 0x30 :=
    digitNum_digit (isDigit_iff.mpr ⟨by omega, hc.2⟩)
  rw [hnum, readDigits_eq hunits hlt hrest hcs hs (show src.read start - 0x30 < 10 ^ 1 by omega)
    (by decide), digitsVal_eq, List.take_succ_cons, List.foldl_cons, addDigit, Nat.zero_mul,
    Nat.zero_add]

theorem allDigits (hc : isNonzeroDigit c = true) (hcs : ∀ d ∈ cs, isDigit d = true) :
    ∀ d ∈ c :: cs, isDigit d = true := by
  rw [isNonzeroDigit_iff] at hc
  exact List.forall_mem_cons.mpr ⟨isDigit_iff.mpr ⟨by omega, hc.2⟩, hcs⟩

theorem digitsVal_ge (hc : isNonzeroDigit c = true) : 10 ^ cs.length ≤ digitsVal (c :: cs) := by
  rw [isNonzeroDigit_iff] at hc
  rw [digitsVal_eq, List.foldl_cons, foldl_addDigit, addDigit, Nat.zero_mul, Nat.zero_add]
  have hmul := Nat.mul_le_mul_right (10 ^ cs.length) (show 1 ≤ c - 0x30 by omega)
  omega

/-- A fraction behind at most nineteen digits. -/
theorem digiFrac_nonzero (hunits : src.Units32) (hle : start ≤ src.len) {s' : List Nat} {left : Nat}
    (h : src.rest start = c :: cs ++ 0x2E :: s') (hc : isNonzeroDigit c = true)
    (hcs : ∀ d ∈ cs, isDigit d = true) (hleft : (c :: cs).length + left = 19) :
    (s'.head?.any isDigit = true →
      digiFrac src sign (digitsVal (c :: cs)) (start + (c :: cs).length) left
        (start + (c :: cs).length + 1) = numberTail src sign start (c :: cs) (0x2E :: s')) ∧
    (s'.head?.any isDigit = false → numberTail src sign start (c :: cs) (0x2E :: s') = none) := by
  rw [numberTail]
  rcases @lexFrac_dot s' with ⟨hnone, hdigit⟩ | ⟨fs, r, rfl, hne, hfs, hr, hsome, hdigit⟩
  · rw [hnone]
    exact ⟨fun h => absurd h (by rw [hdigit]; decide), fun _ => rfl⟩
  · refine ⟨fun _ => ?_, fun h => absurd h (by rw [hdigit]; decide)⟩
    rw [hsome]
    have hmantissa : (⟨sign, c :: cs, fs, none⟩ : NumberParts).mantissa = c :: cs ++ 0x2E :: fs := by
      rw [NumberParts.mantissa, if_neg hne]
    have hsig := @significant_of_nonzero sign c cs fs none hc
    rw [@digiFrac_tail src sign (start + (c :: cs).length + 1) start ⟨sign, c :: cs, fs, none⟩ r
      (c :: cs) fs [] (digitsVal (c :: cs)) left hunits (allDigits hc hcs) hfs hle
      (by rw [hmantissa, h]; simp) hr hne rfl hsig rfl (allDigits hc hcs) hleft rfl]
    dsimp only
    cases lexExp r with
    | none => rfl
    | some result =>
        obtain ⟨exp, r'⟩ := result
        dsimp only
        rw [partsNum_float (fun hnil => absurd hnil hne) (by
          rw [significant_of_nonzero hc]
          exact List.cons_ne_nil _ _)]
        rfl

/-- A number that is an integer. -/
theorem numberTail_int {int s : List Nat} (hfrac : lexFrac s = some ([], s))
    (hexp : lexExp s = some (none, s)) (hfits : digitsVal int < 2 ^ 64) :
    numberTail src sign start int s =
      some (intNum sign (digitsVal int), src.len - s.length) := by
  rw [numberTail, hfrac]
  dsimp only
  rw [hexp]
  dsimp only
  rw [partsNum, if_pos ⟨rfl, rfl, hfits⟩]

end Nonzero

end SsrJson.Decode
