import SsrJson.Decode.TokenLemmas
import SsrJson.Decode.Root
import SsrJson.Spec.Residual
import Mathlib.Data.List.Forall2
import Mathlib.Data.Nat.Bitwise

/-!
# What the root readers rely on

`TokenSpec` is what a reader of one token must do: take off exactly the token the grammar derives,
or report that it derives none. `ReadersSpec` asks it of every
reader plugged into the machine, and the literal readers are shown to meet it here.
-/

namespace SsrJson.Decode

open Spec

/-- A reader of the tokens `R` started at `cur`. When it reads a token, every token followed by
one of the texts `follow` is that one; when it reads none, no token is followed by such a text. -/
structure TokenSpec {α : Type} (R : List Nat → α → List Nat → Prop) (follow : List Nat → Prop)
    (src : Source) (cur : Nat) (result : Option α × Nat) : Prop where
  found : ∀ a, result.1 = some a → cur < result.2 ∧ result.2 ≤ src.len ∧
    R (src.rest cur) a (src.rest result.2) ∧
    ∀ a' r, R (src.rest cur) a' r → follow r → a' = a ∧ r = src.rest result.2
  notFound : result.1 = none → ∀ a r, R (src.rest cur) a r → ¬ follow r

/-- The string read, whatever the cache is asked for. -/
def strToken (result : Option Made × Nat) : Option PyStr × Nat := (result.1.map (·.str), result.2)

/-- What the readers plugged into the root machine must do on a source. -/
structure ReadersSpec (readers : Readers) (enc : Nat → Option (List Nat))
    (numVal : List Nat → Num) (src : Source) : Prop where
  match2 : ∀ cur a b, cur ≤ src.len → a ≠ 0 → b ≠ 0 → readers.match2 src cur a b = true →
    src.rest cur = a :: b :: src.rest (cur + 2)
  skip : ∀ cur, cur ≤ src.len → Skips src cur (readers.fastSkipSpaces src cur)
  number : ∀ cur, cur ≤ src.len → charIsNumber (src.read cur) = true →
    TokenSpec (NumToken numVal) Delimited src cur (readers.loadsNumber src cur)
  numberBound : ∀ cur, cur ≤ src.len → (readers.loadsNumber src cur).2 ≤ src.len
  string : ∀ key cur, cur ≤ src.len → src.read cur = 0x22 →
    TokenSpec (StringToken enc) (fun _ => True) src cur
      (strToken (readers.loadsString key src cur))

variable {src : Source} {cur : Nat} {numVal : List Nat → Num}

/-! ## Literals -/

/-- A bounded window that matches a literal. -/
theorem literal_iff {t : List Nat} (hle : cur ≤ src.len) (hne : ∀ c ∈ t, c ≠ 0) :
    (cur + t.length ≤ src.len ∧ matchUnits src cur t = true) ↔ ∃ r, src.rest cur = t ++ r := by
  constructor
  · rintro ⟨-, hmatch⟩
    exact ⟨_, (matchUnits_rest hle hne).mp hmatch⟩
  · rintro ⟨r, hr⟩
    have htail : src.rest (cur + t.length) = r := by
      rw [Source.rest_add, hr, List.drop_left]
    have hrest : src.rest cur = t ++ src.rest (cur + t.length) := by rw [hr, htail]
    exact ⟨bound_of_rest hle hrest, (matchUnits_rest hle hne).mpr hrest⟩

theorem readTrue_spec (hle : cur ≤ src.len) :
    (readTrue src cur = (true, cur + 4) ∧ cur + 4 ≤ src.len ∧
      src.rest cur = 0x74 :: 0x72 :: 0x75 :: 0x65 :: src.rest (cur + 4)) ∨
    (readTrue src cur = (false, cur) ∧ ∀ r, src.rest cur ≠ 0x74 :: 0x72 :: 0x75 :: 0x65 :: r) := by
  have hiff := literal_iff (t := [0x74, 0x72, 0x75, 0x65]) hle (by decide)
  unfold readTrue
  split
  · rename_i h
    exact .inl ⟨rfl, h.1, (matchUnits_rest hle (by decide)).mp h.2⟩
  · rename_i h
    exact .inr ⟨rfl, fun r hr => h (hiff.mpr ⟨r, hr⟩)⟩

theorem readNull_spec (hle : cur ≤ src.len) :
    (readNull src cur = (true, cur + 4) ∧ cur + 4 ≤ src.len ∧
      src.rest cur = 0x6E :: 0x75 :: 0x6C :: 0x6C :: src.rest (cur + 4)) ∨
    (readNull src cur = (false, cur) ∧ ∀ r, src.rest cur ≠ 0x6E :: 0x75 :: 0x6C :: 0x6C :: r) := by
  have hiff := literal_iff (t := [0x6E, 0x75, 0x6C, 0x6C]) hle (by decide)
  unfold readNull
  split
  · rename_i h
    exact .inl ⟨rfl, h.1, (matchUnits_rest hle (by decide)).mp h.2⟩
  · rename_i h
    exact .inr ⟨rfl, fun r hr => h (hiff.mpr ⟨r, hr⟩)⟩

/-- The first character is known, so four more are compared, with a bound for four in all. -/
theorem readFalse_spec (hle : cur ≤ src.len) (hf : src.read cur = 0x66) :
    (readFalse src cur = (true, cur + 5) ∧ cur + 5 ≤ src.len ∧
      src.rest cur = 0x66 :: 0x61 :: 0x6C :: 0x73 :: 0x65 :: src.rest (cur + 5)) ∨
    (readFalse src cur = (false, cur) ∧
      ∀ r, src.rest cur ≠ 0x66 :: 0x61 :: 0x6C :: 0x73 :: 0x65 :: r) := by
  have hlt : cur < src.len := Source.lt_of_read hle (by simp [hf])
  have hiff := literal_iff (t := [0x61, 0x6C, 0x73, 0x65]) hlt (by decide)
  have hrest := Source.rest_of_lt hlt
  rw [hf] at hrest
  unfold readFalse
  split
  · rename_i h
    have htail := (matchUnits_rest hlt (by decide)).mp h.2
    refine .inl ⟨rfl, bound_of_rest hlt htail, ?_⟩
    rw [hrest, htail]
    rfl
  · rename_i h
    refine .inr ⟨rfl, fun r hr => h ?_⟩
    rw [hrest, List.cons.injEq] at hr
    have hbound := hiff.mpr ⟨r, hr.2⟩
    simp only [List.length_cons, List.length_nil] at hbound
    exact ⟨by omega, hbound.2⟩

/-! ## `Infinity` and `NaN` -/

/-- Clearing bit `0x20` of a unit gives a capital letter if the unit is that letter in either
case. -/
theorem maskCase_eq_iff {u t : Nat} (ht : t &&& 0x20 = 0) (ht' : (t + 0x20) &&& 0x20 = 0x20) :
    maskCase u = t ↔ u = t ∨ u = t + 0x20 := by
  constructor
  · intro h
    have hbit : u &&& 0x20 = 0 ∨ u &&& 0x20 = 0x20 := by
      have hand : u &&& 2 ^ 5 = (u.testBit 5).toNat * 2 ^ 5 := Nat.and_two_pow u 5
      cases hb : u.testBit 5 with
      | true => exact .inr (by simpa [hb] using hand)
      | false => exact .inl (by simpa [hb] using hand)
    have hle : u &&& 0x20 ≤ u := Nat.and_le_left
    unfold maskCase at h
    omega
  · rintro (rfl | rfl)
    · simp [maskCase, ht]
    · simp [maskCase, ht']

/-- A window that matches a word in capitals holds that word in some case. -/
theorem matchUpper_iff {template : List Nat} (hle : cur + template.length ≤ src.len)
    (hcap : ∀ t ∈ template, t &&& 0x20 = 0 ∧ (t + 0x20) &&& 0x20 = 0x20) :
    matchUpper src cur template = true ↔
      ∃ t, EqIgnoringCase t template ∧ src.rest cur = t ++ src.rest (cur + template.length) := by
  have hwindow : (List.range template.length).map (fun i => src.read (cur + i)) =
      (src.rest cur).take template.length := by
    refine List.ext_getElem ?_ fun i h₁ h₂ => ?_
    · simp only [List.length_map, List.length_range, List.length_take, Source.length_rest]
      omega
    · simp only [List.length_map, List.length_range] at h₁
      have hlt : cur + i < src.len := by omega
      simp only [List.getElem_map, List.getElem_range, List.getElem_take, Source.rest,
        List.getElem_drop, Source.read_of_lt hlt]
      rfl
  have hmask : matchUpper src cur template = true ↔
      ((src.rest cur).take template.length).map maskCase = template := by
    rw [← hwindow]
    simp [matchUpper, Function.comp_def]
  have heq : ∀ t : List Nat, t.map maskCase = template ↔ EqIgnoringCase t template := by
    intro t
    unfold EqIgnoringCase
    clear hwindow hmask hle
    induction template generalizing t with
    | nil => simp
    | cons c template ih =>
        have hc := hcap c List.mem_cons_self
        have hrest := ih fun d hd => hcap d (List.mem_cons_of_mem c hd)
        cases t with
        | nil => simp
        | cons u t =>
            rw [List.map_cons, List.cons.injEq, maskCase_eq_iff hc.1 hc.2, hrest,
              List.forall₂_cons]
  rw [hmask, heq]
  constructor
  · intro h
    exact ⟨_, h, by rw [Source.rest_add, List.take_append_drop]⟩
  · rintro ⟨t, ht, hrest⟩
    have hlen : t.length = template.length := ht.length_eq
    rwa [hrest, ← hlen, List.take_left]

/-- `Infinity` or `NaN` without a sign, and the double it denotes under a sign. -/
def SpecialWord (sign : Bool) (t : List Nat) (num : Num) : Prop :=
  (EqIgnoringCase t [0x49, 0x4E, 0x46, 0x49, 0x4E, 0x49, 0x54, 0x59] ∧
    num = .float (infBits sign)) ∨
  (EqIgnoringCase t [0x4E, 0x41, 0x4E] ∧ num = .float (nanBits sign))

theorem specialText_iff {t : List Nat} {bits : BitVec 64} :
    SpecialText t bits ↔ ∃ sign w, t = minusPart sign ++ w ∧ SpecialWord sign w (.float bits) := by
  constructor
  · intro h
    cases h with
    | inf neg heq => exact ⟨neg, _, rfl, .inl ⟨heq, rfl⟩⟩
    | nan neg heq => exact ⟨neg, _, rfl, .inr ⟨heq, rfl⟩⟩
  · rintro ⟨sign, w, rfl, ⟨heq, hbits⟩ | ⟨heq, hbits⟩⟩
    · obtain rfl := Num.float.inj hbits
      exact .inf sign heq
    · obtain rfl := Num.float.inj hbits
      exact .nan sign heq

/-- A text begins with at most one of the two words. -/
theorem SpecialWord.unique {sign : Bool} {t t' r r' : List Nat} {num num' : Num}
    (h : SpecialWord sign t num) (h' : SpecialWord sign t' num') (ht : t ++ r = t' ++ r') :
    num = num' ∧ r = r' := by
  have hlen : ∀ {t u : List Nat}, EqIgnoringCase t u → t.length = u.length := fun h => h.length_eq
  have hhead : ∀ {t : List Nat} {c : Nat} {u : List Nat}, EqIgnoringCase t (c :: u) →
      ∃ d t', t = d :: t' ∧ (d = c ∨ d = c + 0x20) := by
    intro t c u h
    cases h with
    | cons hc _ => exact ⟨_, _, rfl, hc⟩
  rcases h with ⟨h, rfl⟩ | ⟨h, rfl⟩ <;> rcases h' with ⟨h', rfl⟩ | ⟨h', rfl⟩
  · exact ⟨rfl, (List.append_inj ht ((hlen h).trans (hlen h').symm)).2⟩
  · obtain ⟨d, u, rfl, hd⟩ := hhead h
    obtain ⟨d', u', rfl, hd'⟩ := hhead h'
    obtain ⟨rfl, -⟩ := List.cons.inj ht
    omega
  · obtain ⟨d, u, rfl, hd⟩ := hhead h
    obtain ⟨d', u', rfl, hd'⟩ := hhead h'
    obtain ⟨rfl, -⟩ := List.cons.inj ht
    omega
  · exact ⟨rfl, (List.append_inj ht ((hlen h).trans (hlen h').symm)).2⟩

/-- A bounded window of the right length that begins a text. -/
theorem specialWord_window {template t r : List Nat} (hle : cur ≤ src.len)
    (heq : EqIgnoringCase t template) (hr : src.rest cur = t ++ r) :
    cur + template.length ≤ src.len ∧ src.rest (cur + template.length) = r := by
  have hlen : t.length = template.length := heq.length_eq
  have htail : src.rest (cur + template.length) = r := by
    rw [Source.rest_add, hr, ← hlen, List.drop_left]
  have hbound := congrArg List.length hr
  simp only [Source.length_rest, List.length_append] at hbound
  exact ⟨by omega, htail⟩

theorem readNan_spec (hle : cur ≤ src.len) :
    (readNan src cur = (true, cur + 3) ∧ cur + 3 ≤ src.len ∧
      ∃ t, EqIgnoringCase t [0x4E, 0x41, 0x4E] ∧ src.rest cur = t ++ src.rest (cur + 3)) ∨
    (readNan src cur = (false, cur) ∧
      ∀ t r, EqIgnoringCase t [0x4E, 0x41, 0x4E] → src.rest cur ≠ t ++ r) := by
  unfold readNan
  split
  · rename_i hshort
    refine .inr ⟨rfl, fun t r heq hr => ?_⟩
    have hbound := (specialWord_window hle heq hr).1
    simp only [List.length_cons, List.length_nil] at hbound
    omega
  · rename_i hlong
    have hiff := @matchUpper_iff src cur [0x4E, 0x41, 0x4E]
      (by simp only [List.length_cons, List.length_nil]; omega) (by decide)
    split
    · rename_i hmatch
      exact .inl ⟨rfl, by omega, hiff.mp hmatch⟩
    · rename_i hmatch
      refine .inr ⟨rfl, fun t r heq hr => hmatch (hiff.mpr ⟨t, heq, ?_⟩)⟩
      rw [(specialWord_window hle heq hr).2, hr]

theorem readInf_spec (hle : cur ≤ src.len) :
    (readInf src cur = (true, cur + 8) ∧ cur + 8 ≤ src.len ∧
      ∃ t, EqIgnoringCase t [0x49, 0x4E, 0x46, 0x49, 0x4E, 0x49, 0x54, 0x59] ∧
        src.rest cur = t ++ src.rest (cur + 8)) ∨
    (readInf src cur = (false, cur) ∧
      ∀ t r, EqIgnoringCase t [0x49, 0x4E, 0x46, 0x49, 0x4E, 0x49, 0x54, 0x59] →
        src.rest cur ≠ t ++ r) := by
  unfold readInf
  split
  · rename_i hshort
    refine .inr ⟨rfl, fun t r heq hr => ?_⟩
    have hbound := (specialWord_window hle heq hr).1
    simp only [List.length_cons, List.length_nil] at hbound
    omega
  · rename_i hlong
    have hiff := @matchUpper_iff src cur [0x49, 0x4E, 0x46, 0x49, 0x4E, 0x49, 0x54, 0x59]
      (by simp only [List.length_cons, List.length_nil]; omega) (by decide)
    split
    · rename_i hmatch
      exact .inl ⟨rfl, by omega, hiff.mp hmatch⟩
    · rename_i hmatch
      refine .inr ⟨rfl, fun t r heq hr => hmatch (hiff.mpr ⟨t, heq, ?_⟩)⟩
      rw [(specialWord_window hle heq hr).2, hr]

/-- `loads_inf_or_nan` reads one of the two words, or leaves the cursor where it is. -/
theorem loadsInfOrNan_spec (sign : Bool) (hle : cur ≤ src.len) :
    (∃ num cur', loadsInfOrNan src sign cur = (some num, cur') ∧ cur < cur' ∧ cur' ≤ src.len ∧
      ∃ t, SpecialWord sign t num ∧ src.rest cur = t ++ src.rest cur') ∨
    (loadsInfOrNan src sign cur = (none, cur) ∧
      ∀ t r num, SpecialWord sign t num → src.rest cur ≠ t ++ r) := by
  unfold loadsInfOrNan
  rcases readInf_spec hle with ⟨h, hbound, t, heq, hrest⟩ | ⟨h, hnone⟩
  · rw [h]
    exact .inl ⟨_, _, rfl, by omega, hbound, t, .inl ⟨heq, rfl⟩, hrest⟩
  · rw [h]
    rcases readNan_spec hle with ⟨h', hbound, t, heq, hrest⟩ | ⟨h', hnone'⟩
    · simp only [h']
      exact .inl ⟨_, _, rfl, by omega, hbound, t, .inr ⟨heq, rfl⟩, hrest⟩
    · simp only [h']
      refine .inr ⟨trivial, fun t r num hword => ?_⟩
      rcases hword with ⟨heq, -⟩ | ⟨heq, -⟩
      · exact hnone t r heq
      · exact hnone' t r heq

/-- Without a minus or a digit in front a number literal is one of the two words. -/
theorem numToken_special {s r : List Nat} {num : Num}
    (hs : ∀ c ∈ s.head?, c ≠ 0x2D ∧ isDigit c = false) :
    NumToken numVal s num r ↔ ∃ t, SpecialWord false t num ∧ s = t ++ r := by
  constructor
  · rintro ⟨t, rfl, ⟨htext, -⟩ | ⟨bits, hspecial, rfl⟩⟩
    · obtain ⟨c, t', rfl, hc⟩ := htext.head
      have := hs c rfl
      rcases hc with rfl | hc
      · exact absurd rfl this.1
      · simp [hc] at this
    · obtain ⟨sign, w, rfl, hword⟩ := specialText_iff.mp hspecial
      cases sign with
      | true => exact absurd rfl (hs 0x2D rfl).1
      | false => exact ⟨w, hword, rfl⟩
  · rintro ⟨t, hword, rfl⟩
    refine ⟨t, rfl, .inr ?_⟩
    have hfloat : ∃ bits, num = .float bits := by
      rcases hword with ⟨-, rfl⟩ | ⟨-, rfl⟩
      · exact ⟨_, rfl⟩
      · exact ⟨_, rfl⟩
    obtain ⟨bits, rfl⟩ := hfloat
    exact ⟨bits, specialText_iff.mpr ⟨false, t, rfl, hword⟩, rfl⟩

theorem loadsInfOrNan_bound (sign : Bool) (hle : cur ≤ src.len) :
    (loadsInfOrNan src sign cur).2 ≤ src.len := by
  rcases loadsInfOrNan_spec sign hle with ⟨num, cur', h, -, hbound, -⟩ | ⟨h, -⟩
  · rw [h]
    exact hbound
  · rw [h]
    exact hle

/-- `loads_inf_or_nan` reads number literals that begin with neither a minus nor a digit. -/
theorem loadsInfOrNan_token (hle : cur ≤ src.len)
    (hs : ∀ c ∈ (src.rest cur).head?, c ≠ 0x2D ∧ isDigit c = false) :
    TokenSpec (NumToken numVal) Delimited src cur (loadsInfOrNan src false cur) := by
  rcases loadsInfOrNan_spec false hle with ⟨num, cur', h, hlt, hbound, t, hword, hrest⟩ | ⟨h, hnone⟩
  · rw [h]
    refine ⟨?_, nofun⟩
    intro a ha
    obtain rfl := Option.some.inj ha
    refine ⟨hlt, hbound, (numToken_special hs).mpr ⟨t, hword, hrest⟩, fun a' r htok _ => ?_⟩
    obtain ⟨t', hword', hrest'⟩ := (numToken_special hs).mp htok
    obtain ⟨hnum, hr⟩ := hword.unique hword' (hrest ▸ hrest')
    exact ⟨hnum.symm, hr.symm⟩
  · rw [h]
    refine ⟨nofun, fun _ a r htok _ => ?_⟩
    obtain ⟨t, hword, hrest⟩ := (numToken_special hs).mp htok
    exact hnone t r a hword hrest

end SsrJson.Decode
