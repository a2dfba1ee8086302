import SsrJson.Decode.RootConfig

/-!
# The root machine follows the grammar

One lemma a label: a step of the root machine on values does what the grammar demands at its
configuration (`step_simulates`). Every step gets nearer to the end of the text, so the machine
halts, with the one value the grammar derives or with an error where it derives none.
-/

namespace SsrJson.Decode

open Spec

variable {readers : Readers} {enc : Nat → Option (List Nat)} {numVal : List Nat → Num}
  {objVal : List (PyStr × PyVal) → PyVal}
  {src : Source} {s : RootState Unit PyVal} {c : Config}

/-! ## Moving the cursor -/

theorem labelRank_le (label : Label) : labelRank label ≤ 1 := by
  cases label <;> decide

/-- Reading a character outweighs passing a label. -/
theorem distance_lt {σ Obj : Type} {s s' : RootState σ Obj} (hlt : s.cur < s'.cur) (hle : s'.cur ≤ src.len) :
    distance src s' < distance src s := by
  have := labelRank_le s'.label
  unfold distance
  omega

/-- Passing a label without reading gets nearer, too. -/
theorem distance_lt_of_rank {σ Obj : Type} {s s' : RootState σ Obj} (hle : s.cur ≤ s'.cur)
    (hrank : labelRank s.label = 1) (hrank' : labelRank s'.label = 0) :
    distance src s' < distance src s := by
  unfold distance
  omega

/-- Passing white space first changes nothing. -/
theorem Simulates.skip {cur' : Nat} {t : Transition Unit PyVal} (hskip : Skips src s.cur cur')
    (h : Simulates enc numVal objVal src c { s with cur := cur' } t) :
    Simulates enc numVal objVal src c s t := by
  have hle := hskip.le
  have hdist : distance src { s with cur := cur' } ≤ distance src s := by
    unfold distance
    simp only
    omega
  have hdem : ∀ res, c.demand enc numVal objVal (src.rest s.cur) res ↔
      c.demand enc numVal objVal (src.rest cur') res := fun _ => c.demand_ws hskip.ws
  cases t with
  | goto s' =>
      obtain ⟨hlt, c', habs, hiff⟩ := h
      exact ⟨hlt.trans_le hdist, c', habs, fun res => (hdem res).trans (hiff res)⟩
  | fail e s' => exact ⟨h.1, fun res hd => h.2 res ((hdem res).mp hd)⟩
  | ret v s' => exact ⟨h.1, fun res => (hdem res).trans (h.2 res)⟩
  | callHook a rt k => exact h

theorem Abs.skip {cur' : Nat} (habs : Abs src c s) (hskip : Skips src s.cur cur') :
    Abs src c { s with cur := cur' } :=
  ⟨habs.label, habs.ctn, habs.objs, hskip.bound⟩

/-- Going on at the same label behind some white space. -/
theorem Simulates.loop {cur' : Nat} {label : Label} (habs : Abs src c s)
    (hlabel : label = c.label) (hskip : Skips src s.cur cur') (hlt : s.cur < cur') :
    Simulates enc numVal objVal src c s (.goto { s with label, cur := cur' }) :=
  ⟨distance_lt hlt hskip.bound, c, ⟨hlabel, habs.ctn, habs.objs, hskip.bound⟩,
    fun _ => c.demand_ws hskip.ws⟩

/-- Going on at another configuration behind one character. -/
theorem Simulates.advance (c' : Config) {s' : RootState Unit PyVal} (habs : Abs src c' s')
    (hlt : s.cur < s'.cur)
    (hdem : ∀ res, c.demand enc numVal objVal (src.rest s.cur) res ↔
      c'.demand enc numVal objVal (src.rest s'.cur) res) :
    Simulates enc numVal objVal src c s (.goto s') :=
  ⟨distance_lt hlt habs.bound, c', habs, hdem⟩

section Skipping

variable {cur : Nat} (spec : ReadersSpec readers enc numVal src) (hle : cur ≤ src.len)

include hle

theorem skipReturn_skips : Skips src cur (Root.skipReturn readers src cur) := by
  unfold Root.skipReturn
  split
  · rename_i h
    exact .one hle (by rw [h.2]; rfl)
  · exact .refl hle

include spec

theorem prettySkip_skips : Skips src cur (Root.prettySkip readers src cur) := by
  unfold Root.prettySkip
  split
  · exact spec.skip cur hle
  · exact .refl hle

theorem spacesThenWs_skips : Skips src cur (Root.spacesThenWs readers src cur) ∧
    isWs (src.read (Root.spacesThenWs readers src cur)) = false := by
  have hfast : Skips src cur
      (if src.read cur = 0x20 then readers.fastSkipSpaces src cur else cur) := by
    split
    · exact spec.skip cur hle
    · exact .refl hle
  unfold Root.spacesThenWs
  generalize (if src.read cur = 0x20 then readers.fastSkipSpaces src cur else cur) = cur₁
    at hfast ⊢
  dsimp only
  split
  · rename_i hspace
    exact ⟨hfast.trans (skipConsecutiveSpaces_skips hfast.bound hspace).1,
      skipConsecutiveSpaces_stops hfast.bound hspace⟩
  · rename_i hspace
    rw [wrappedCharIsSpace_eq, Bool.not_eq_true] at hspace
    exact ⟨hfast, hspace⟩

theorem slowSkip_skips (hspace : wrappedCharIsSpace (src.read cur) = true) :
    Skips src cur (Root.slowSkip readers src cur) ∧ cur < Root.slowSkip readers src cur := by
  have hone := Skips.one hle (wrappedCharIsSpace_eq _ ▸ hspace)
  have hskip := (spacesThenWs_skips spec hone.bound).1
  exact ⟨hone.trans hskip, hskip.le⟩

end Skipping

/-- Going back to a comma does not leave the text. -/
theorem Root.rewindToComma_le (src : Source) (cur : Nat) : Root.rewindToComma src cur ≤ cur := by
  induction cur with
  | zero => exact Nat.le_refl _
  | succ cur ih =>
      unfold Root.rewindToComma
      split
      · exact Nat.le_refl _
      · omega

/-! ## Values -/

/-- The configuration in which a value is due inside `o`. -/
def Config.valBegin (o : Open) (outer : List Open) : Config :=
  match o with
  | .array vs => .arrValBegin vs outer
  | .member ms k => .objValBegin ms k outer

theorem Config.ctn_valBegin (o : Open) (outer : List Open) :
    (Config.valBegin o outer).ctn = openCtn o :: outer.map openCtn := by
  cases o <;> rfl

theorem Config.objs_valBegin (o : Open) (outer : List Open) :
    (Config.valBegin o outer).objs = openObjs o ++ outerObjs outer := by
  cases o <;> rfl

/-- The characters a number literal begins with are those the machine tests for. -/
theorem isNumHead_iff {ch : Nat} : isNumHead ch = true ↔
    (ch ≤ 0xFF ∧ charIsNumber ch = true) ∨ ch = 0x49 ∨ ch = 0x69 ∨ ch = 0x4E ∨ ch = 0x6E := by
  simp only [isNumHead, charIsNumber_iff, isDigit, Bool.or_eq_true, beq_iff_eq, Bool.and_eq_true,
    decide_eq_true_eq]
  omega

section Arms

variable {o : Open} {outer : List Open}

/-- A scalar that has been read is pushed and counted. -/
theorem pushElement_sim {v : PyVal} {cur' : Nat} {error : DecodeError}
    (habs : Abs src (.valBegin o outer) s) (hlt : s.cur < cur') (hle : cur' ≤ src.len)
    (hdem : ∀ res, (Config.valBegin o outer).demand enc numVal objVal (src.rest s.cur) res ↔
      Closes enc numVal objVal decodeMaxRecursion (o :: outer) v (src.rest cur') res) :
    Simulates enc numVal objVal src (.valBegin o outer) s
      (Root.pushElement (valuesWith objVal) (Config.nextLabel o) error { s with cur := cur' }
        (some v)) := by
  refine Simulates.advance (Config.afterValue o v outer) ⟨?_, ?_, ?_, hle⟩ hlt fun res => ?_
  · exact (Config.label_afterValue o v outer).symm
  · simp only [habs.ctn, Config.ctn_valBegin, Config.ctn_afterValue]
  · simp only [habs.objs, Config.objs_valBegin, Config.objs_afterValue]
  · rw [hdem res, Config.demand_afterValue]

/-- A reader of a scalar that meets its specification, followed by a push. -/
theorem TokenSpec.sim {α : Type} {R : List Nat → α → List Nat → Prop} (toVal : α → PyVal)
    {follow : List Nat → Prop} {result : Option α × Nat} (error : DecodeError)
    {t : Transition Unit PyVal} (htoken : TokenSpec R follow src s.cur result)
    (habs : Abs src (.valBegin o outer) s)
    (hbound : error = .invalidString ∨ result.2 ≤ src.len)
    (hnone : ∀ cur', result = (none, cur') → t = .fail error { s with cur := cur' })
    (hsome : ∀ a cur', result = (some a, cur') →
      t = Root.pushElement (valuesWith objVal) (Config.nextLabel o) error { s with cur := cur' }
        (some (toVal a)))
    (hfollow : ∀ v r res, Closes enc numVal objVal decodeMaxRecursion (o :: outer) v r res → follow r)
    (hdem : ∀ res, (Config.valBegin o outer).demand enc numVal objVal (src.rest s.cur) res ↔
      ∃ a r, R (src.rest s.cur) a r ∧
        Closes enc numVal objVal decodeMaxRecursion (o :: outer) (toVal a) r res) :
    Simulates enc numVal objVal src (.valBegin o outer) s t := by
  obtain ⟨_ | a, cur'⟩ := result
  · rw [hnone cur' rfl]
    refine ⟨hbound, fun res hd => ?_⟩
    obtain ⟨a, r, hR, hclose⟩ := (hdem res).mp hd
    exact htoken.notFound rfl a r hR (hfollow _ r res hclose)
  · obtain ⟨hlt, hle, hR, hunique⟩ := htoken.found a rfl
    rw [hsome a cur' rfl]
    refine pushElement_sim habs hlt hle fun res => ?_
    rw [hdem res]
    constructor
    · rintro ⟨a', r, hR', hclose⟩
      obtain ⟨rfl, rfl⟩ := hunique a' r hR' (hfollow _ r res hclose)
      exact hclose
    · exact fun hclose => ⟨a, _, hR, hclose⟩

variable (spec : ReadersSpec readers enc numVal src) (habs : Abs src (.valBegin o outer) s)
  (hval : ∀ res, (Config.valBegin o outer).demand enc numVal objVal (src.rest s.cur) res ↔
    ValNext enc numVal objVal decodeMaxRecursion (o :: outer) (src.rest s.cur) res)

include habs hval

omit habs in
/-- A number token where the text does not begin with `null`. -/
theorem numToken_demand {ch : Nat} (hhead : src.rest s.cur = ch :: src.rest (s.cur + 1))
    (hnum : isNumHead ch = true) (hnull : ∀ r, src.rest s.cur ≠ 0x6E :: 0x75 :: 0x6C :: 0x6C :: r)
    (res : PyVal) : (Config.valBegin o outer).demand enc numVal objVal (src.rest s.cur) res ↔
      ∃ num r, NumToken numVal (src.rest s.cur) num r ∧
        Closes enc numVal objVal decodeMaxRecursion (o :: outer) (.num num) r res := by
  rw [hval res, hhead]
  rw [hhead] at hnull
  exact valNext_number hnum hnull

include spec

theorem numberArm_sim (hnumber : charIsNumber (src.read s.cur) = true) :
    Simulates enc numVal objVal src (.valBegin o outer) s
      (Root.numberArm readers (valuesWith objVal) src (Config.nextLabel o) s) := by
  have htoken := spec.number s.cur habs.bound hnumber
  have hbound := spec.numberBound s.cur habs.bound
  have hne : src.read s.cur ≠ 0 := by
    intro h0
    rw [h0] at hnumber
    exact absurd hnumber (by decide)
  have hhead := Source.rest_of_read habs.bound rfl hne
  have hnone : ∀ cur', readers.loadsNumber src s.cur = (none, cur') →
      Root.numberArm readers (valuesWith objVal) src (Config.nextLabel o) s =
        .fail .invalidNumber { s with cur := cur' } := by
    intro cur' h
    rw [Root.numberArm, h]
  have hsome : ∀ num cur', readers.loadsNumber src s.cur = (some num, cur') →
      Root.numberArm readers (valuesWith objVal) src (Config.nextLabel o) s =
        Root.pushElement (valuesWith objVal) (Config.nextLabel o) .invalidNumber { s with cur := cur' }
          (some (.num num)) := by
    intro num cur' h
    rw [Root.numberArm, h]
    rfl
  by_cases hnum : isNumHead (src.read s.cur) = true
  · have hnull : ∀ r, src.rest s.cur ≠ 0x6E :: 0x75 :: 0x6C :: 0x6C :: r := by
      intro r hr
      rw [hhead, List.cons.injEq] at hr
      rw [hr.1] at hnumber
      exact absurd hnumber (by decide)
    exact htoken.sim .num .invalidNumber habs (.inr hbound) hnone hsome
      (fun _ _ _ hclose => hclose.delimited)
      (numToken_demand hval hhead hnum hnull)
  · -- a unit above `U8MAX` whose low byte looks like a number
    have hbig : 0xFF < src.read s.cur := by
      by_contra hle
      exact hnum (isNumHead_iff.mpr (.inl ⟨Nat.le_of_not_lt hle, hnumber⟩))
    have hws : isWs (src.read s.cur) = false := by
      simp only [isWs, Bool.or_eq_false_iff, beq_eq_false_iff_ne]
      omega
    have hnotok : ∀ num r, ¬ NumToken numVal (src.rest s.cur) num r := by
      intro num r htok
      rw [hhead] at htok
      exact hnum htok.head
    exact htoken.sim .num .invalidNumber habs (.inr hbound) hnone hsome
      (fun _ _ _ hclose => hclose.delimited)
      fun res => by
      rw [hval res]
      constructor
      · intro hnext
        rw [hhead] at hnext
        exact absurd hnext (not_valNext hws (Bool.not_eq_true _ ▸ hnum) (by omega))
      · rintro ⟨num, r, htok, -⟩
        exact absurd htok (hnotok num r)

theorem stringArm_sim (hquote : src.read s.cur = 0x22) :
    Simulates enc numVal objVal src (.valBegin o outer) s
      (Root.stringArm readers (valuesWith objVal) src (Config.nextLabel o) s) := by
  have hhead := Source.rest_of_read habs.bound hquote (by decide)
  have htoken := spec.string false s.cur habs.bound hquote
  unfold Root.stringArm
  obtain ⟨result, hresult⟩ : ∃ result, readers.loadsString false src s.cur = result := ⟨_, rfl⟩
  rw [hresult] at htoken ⊢
  refine htoken.sim .str .invalidString habs (.inl rfl) ?_ ?_
    (fun _ _ _ _ => trivial) fun res => by rw [hval res, hhead, valNext_string]
  · obtain ⟨_ | made, last⟩ := result
    · rintro _ ⟨⟩
      rfl
    · nofun
  · obtain ⟨_ | made, last⟩ := result
    · nofun
    · rintro _ _ ⟨⟩
      rfl

omit spec

theorem trueArm_sim (ht : src.read s.cur = 0x74) :
    Simulates enc numVal objVal src (.valBegin o outer) s
      (Root.trueArm (valuesWith objVal) src (Config.nextLabel o) s) := by
  have hhead := Source.rest_of_read habs.bound ht (by decide)
  unfold Root.trueArm
  rcases readTrue_spec habs.bound with ⟨hread, hbound, hrest⟩ | ⟨hread, hnone⟩
  · rw [hread]
    refine pushElement_sim (v := .bool true) habs (by omega) hbound fun res => ?_
    rw [hval res, hrest, valNext_true]
    simp
  · rw [hread]
    refine ⟨.inr habs.bound, fun res hd => ?_⟩
    rw [hval res, hhead, valNext_true] at hd
    obtain ⟨r, hr, -⟩ := hd
    exact hnone r (by rw [hhead, hr])

theorem falseArm_sim (hf : src.read s.cur = 0x66) :
    Simulates enc numVal objVal src (.valBegin o outer) s
      (Root.falseArm (valuesWith objVal) src (Config.nextLabel o) s) := by
  have hhead := Source.rest_of_read habs.bound hf (by decide)
  unfold Root.falseArm
  rcases readFalse_spec habs.bound hf with ⟨hread, hbound, hrest⟩ | ⟨hread, hnone⟩
  · rw [hread]
    refine pushElement_sim (v := .bool false) habs (by omega) hbound fun res => ?_
    rw [hval res, hrest, valNext_false]
    simp
  · rw [hread]
    refine ⟨.inr habs.bound, fun res hd => ?_⟩
    rw [hval res, hhead, valNext_false] at hd
    obtain ⟨r, hr, -⟩ := hd
    exact hnone r (by rw [hhead, hr])

/-- An `n` that does not begin `null` can only begin `nan`. -/
theorem nanArm_sim (hn : src.read s.cur = 0x6E)
    (hnull : ∀ r, src.rest s.cur ≠ 0x6E :: 0x75 :: 0x6C :: 0x6C :: r) :
    Simulates enc numVal objVal src (.valBegin o outer) s
      (Root.nanArm (valuesWith objVal) src (Config.nextLabel o) s) := by
  have hhead := Source.rest_of_read habs.bound hn (by decide)
  have hspecial : ∀ num r, NumToken numVal (src.rest s.cur) num r ↔
      ∃ t, SpecialWord false t num ∧ src.rest s.cur = t ++ r := by
    intro num r
    refine numToken_special fun ch hch => ?_
    rw [hhead] at hch
    obtain rfl := Option.some.inj hch
    decide
  have hdem := numToken_demand hval hhead (by rfl) hnull
  unfold Root.nanArm
  rcases readNan_spec habs.bound with ⟨hread, hbound, t, heq, hrest⟩ | ⟨hread, hnone⟩
  · rw [hread]
    refine pushElement_sim habs (by omega) hbound fun res => ?_
    rw [hdem res]
    have hword : SpecialWord false t (.float (nanBits false)) := .inr ⟨heq, rfl⟩
    constructor
    · rintro ⟨num, r, htok, hclose⟩
      obtain ⟨t', hword', hrest'⟩ := (hspecial num r).mp htok
      obtain ⟨rfl, rfl⟩ := hword.unique hword' (hrest ▸ hrest')
      exact hclose
    · exact fun hclose => ⟨_, _, (hspecial _ _).mpr ⟨t, hword, hrest⟩, hclose⟩
  · rw [hread]
    refine ⟨.inr habs.bound, fun res hd => ?_⟩
    obtain ⟨num, r, htok, -⟩ := (hdem res).mp hd
    obtain ⟨t, ⟨heq, -⟩ | ⟨heq, -⟩, hrest⟩ := (hspecial num r).mp htok
    · cases heq with
      | cons hc _ =>
          rw [hhead, List.cons_append, List.cons.injEq] at hrest
          omega
    · exact hnone t r heq hrest

theorem nullArm_sim (hn : src.read s.cur = 0x6E) :
    Simulates enc numVal objVal src (.valBegin o outer) s
      (Root.nullArm (valuesWith objVal) src (Config.nextLabel o) s) := by
  unfold Root.nullArm
  rcases readNull_spec habs.bound with ⟨hread, hbound, hrest⟩ | ⟨hread, hnone⟩
  · rw [hread]
    exact @pushElement_sim _ _ _ _ _ _ _ .none _ .literalNull habs (by omega) hbound fun res => by
      rw [hval res, hrest, valNext_null]
  · rw [hread]
    exact nanArm_sim habs hval hn hnone

theorem infArm_sim
    (hi : src.read s.cur = 0x69 ∨ src.read s.cur = 0x49 ∨ src.read s.cur = 0x4E) :
    Simulates enc numVal objVal src (.valBegin o outer) s
      (Root.infArm (valuesWith objVal) src (Config.nextLabel o) s) := by
  have hhead := Source.rest_of_read habs.bound rfl (show src.read s.cur ≠ 0 by omega)
  have hnull : ∀ r, src.rest s.cur ≠ 0x6E :: 0x75 :: 0x6C :: 0x6C :: r := by
    intro r hr
    rw [hhead, List.cons.injEq] at hr
    omega
  have htoken : TokenSpec (NumToken numVal) Delimited src s.cur (loadsInfOrNan src false s.cur) := by
    refine loadsInfOrNan_token habs.bound fun ch hch => ?_
    rw [hhead] at hch
    obtain rfl := Option.some.inj hch
    rcases hi with hi | hi | hi <;> rw [hi] <;> decide
  refine htoken.sim .num .characterVal habs
    (.inr (loadsInfOrNan_bound false habs.bound)) ?_ ?_
    (fun _ _ _ hclose => hclose.delimited)
    (numToken_demand hval hhead (isNumHead_iff.mpr (by omega)) hnull)
  · intro cur' h
    rw [Root.infArm, h]
  · intro num cur' h
    rw [Root.infArm, h]
    rfl

/-- An opening bracket leads to the array it opens. -/
theorem openBracket_sim (hopen : src.read s.cur = 0x5B) :
    Simulates enc numVal objVal src (.valBegin o outer) s
      (.goto { s with label := .arrBegin, cur := s.cur + 1 }) := by
  have hlt := Source.lt_of_read habs.bound (by simp [hopen])
  have hhead := Source.rest_of_read habs.bound hopen (by decide)
  refine Simulates.advance (.arrBegin (o :: outer)) ⟨rfl, ?_, ?_, hlt⟩ (Nat.lt_succ_self _)
    fun res => ?_
  · rw [habs.ctn, Config.ctn_valBegin]
    rfl
  · rw [habs.objs, Config.objs_valBegin]
    rfl
  · rw [hval res, hhead, valNext_bracket]
    rfl

/-- An opening brace leads to the object it opens. -/
theorem openBrace_sim (hopen : src.read s.cur = 0x7B) :
    Simulates enc numVal objVal src (.valBegin o outer) s
      (.goto { s with label := .objBegin, cur := s.cur + 1 }) := by
  have hlt := Source.lt_of_read habs.bound (by simp [hopen])
  have hhead := Source.rest_of_read habs.bound hopen (by decide)
  refine Simulates.advance (.objBegin (o :: outer)) ⟨rfl, ?_, ?_, hlt⟩ (Nat.lt_succ_self _)
    fun res => ?_
  · rw [habs.ctn, Config.ctn_valBegin]
    rfl
  · rw [habs.objs, Config.objs_valBegin]
    rfl
  · rw [hval res, hhead, valNext_brace]
    rfl

/-- No other character begins a value. -/
theorem noValue_sim {error : DecodeError} (hws : wrappedCharIsSpace (src.read s.cur) ≠ true)
    (hnum : ¬ (src.read s.cur ≤ 0xFF ∧ charIsNumber (src.read s.cur) = true))
    (h : src.read s.cur ≠ 0x22 ∧ src.read s.cur ≠ 0x5B ∧ src.read s.cur ≠ 0x7B ∧
      src.read s.cur ≠ 0x74 ∧ src.read s.cur ≠ 0x66)
    (h' : src.read s.cur ≠ 0x49 ∧ src.read s.cur ≠ 0x69 ∧ src.read s.cur ≠ 0x4E ∧
      src.read s.cur ≠ 0x6E) :
    Simulates enc numVal objVal src (.valBegin o outer) s (.fail error s) := by
  refine ⟨.inr habs.bound, fun res hd => ?_⟩
  rw [hval res] at hd
  rcases Nat.lt_or_eq_of_le habs.bound with hlt | heq
  · rw [Source.rest_of_lt hlt] at hd
    rw [wrappedCharIsSpace_eq, ne_eq, Bool.not_eq_true] at hws
    refine not_valNext hws ?_ h hd
    rw [Bool.eq_false_iff, ne_eq, isNumHead_iff]
    rintro (hn | hn)
    · exact hnum hn
    · omega
  · rw [heq, Source.rest_len] at hd
    exact not_valNext_nil hd

end Arms

/-! ## Labels -/

section Labels

variable (spec : ReadersSpec readers enc numVal src)

theorem arrBegin_sim {outer : List Open} (habs : Abs src (.arrBegin outer) s) :
    Simulates enc numVal objVal src (.arrBegin outer) s (Root.arrBegin readers src s) := by
  have hlen : s.ctn.length = outer.length := by simp [habs.ctn, Config.ctn]
  unfold Root.arrBegin
  split
  · rename_i hlt
    have hskip := @skipReturn_skips readers _ _ habs.bound
    refine ⟨distance_lt_of_rank hskip.le ?_ rfl, .arrValBegin [] outer,
      ⟨rfl, ?_, habs.objs, hskip.bound⟩, fun res => ?_⟩
    · rw [habs.label]
      rfl
    · rw [habs.ctn]
      rfl
    · rw [hlen] at hlt
      rw [Config.demand_ws _ hskip.ws]
      simp only [Config.demand, hlt, true_and]
  · rename_i hge
    exact ⟨.inr habs.bound, fun res hd => hge (hlen ▸ hd.1)⟩

theorem objBegin_sim {outer : List Open} (habs : Abs src (.objBegin outer) s) :
    Simulates enc numVal objVal src (.objBegin outer) s (Root.objBegin readers src s) := by
  have hlen : s.ctn.length = outer.length := by simp [habs.ctn, Config.ctn]
  unfold Root.objBegin
  split
  · rename_i hlt
    have hskip := @skipReturn_skips readers _ _ habs.bound
    refine ⟨distance_lt_of_rank hskip.le ?_ rfl, .objKeyBegin [] outer,
      ⟨rfl, ?_, habs.objs, hskip.bound⟩, fun res => ?_⟩
    · rw [habs.label]
      rfl
    · rw [habs.ctn]
      rfl
    · rw [hlen] at hlt
      rw [Config.demand_ws _ hskip.ws]
      simp only [Config.demand, hlt, true_and]
  · rename_i hge
    exact ⟨.inr habs.bound, fun res hd => hge (hlen ▸ hd.1)⟩

/-- A container that ends is pushed and counted in the container around it. -/
theorem pushContainer_sim {outer : List Open} {v : PyVal} (hrank : labelRank s.label = 1)
    (hle : s.cur ≤ src.len) (hobjs : s.objs = outerObjs outer)
    (hdem : ∀ res, c.demand enc numVal objVal (src.rest s.cur) res ↔
      Closes enc numVal objVal decodeMaxRecursion outer v (src.rest s.cur) res) :
    Simulates enc numVal objVal src c s
      (Root.pushContainer readers (valuesWith objVal) src (outer.map openCtn) v s) := by
  have hskip := @skipReturn_skips readers _ _ hle
  cases outer with
  | nil =>
      refine ⟨distance_lt_of_rank (Nat.le_refl _) hrank rfl, .docEnd v, ⟨rfl, rfl, ?_, hle⟩, hdem⟩
      simp only [hobjs]
      rfl
  | cons o outer =>
      refine ⟨distance_lt_of_rank hskip.le hrank ?_, Config.afterValue o v outer,
        ⟨?_, ?_, ?_, hskip.bound⟩, fun res => ?_⟩
      · cases o <;> rfl
      · cases o <;> rfl
      · exact (Config.ctn_afterValue o v outer).symm
      · simp only [hobjs, Config.objs_afterValue]
        rfl
      · rw [hdem res, ← Config.demand_afterValue, Config.demand_ws _ hskip.ws]

theorem arrEnd_sim {vs : List PyVal} {outer : List Open} (habs : Abs src (.arrEnd vs outer) s) :
    Simulates enc numVal objVal src (.arrEnd vs outer) s
      (Root.arrEnd readers (valuesWith objVal) noHooks src s) := by
  have hctn : Root.ctnLen s = vs.length := by
    rw [Root.ctnLen, habs.ctn]
    rfl
  have htail : s.ctn.tail = outer.map openCtn := by
    rw [habs.ctn]
    rfl
  have hbuild : (valuesWith objVal).buildArr vs.length s.objs s.rt =
      (some (.list vs), outerObjs outer, ()) := by
    rw [habs.objs]
    exact buildArr_valuesWith objVal vs _
  simp only [Root.arrEnd, hctn, hbuild, Root.callHookThenPush, noHooks, htail]
  have hrank : labelRank s.label = 1 := by
    rw [habs.label]
    rfl
  exact pushContainer_sim (s := { s with objs := outerObjs outer, rt := () }) hrank habs.bound rfl
    fun res => Iff.rfl

theorem objEnd_sim {ms : List (PyStr × PyVal)} {outer : List Open}
    (habs : Abs src (.objEnd ms outer) s) :
    Simulates enc numVal objVal src (.objEnd ms outer) s
      (Root.objEnd readers (valuesWith objVal) noHooks src s) := by
  have hctn : Root.ctnLen s = ms.length := by
    rw [Root.ctnLen, habs.ctn]
    rfl
  have htail : s.ctn.tail = outer.map openCtn := by
    rw [habs.ctn]
    rfl
  have hbuild : (valuesWith objVal).buildObj ms.length s.objs s.rt =
      (some (objVal ms), outerObjs outer, ()) := by
    rw [habs.objs]
    exact buildObj_valuesWith objVal ms _
  simp only [Root.objEnd, hctn, hbuild, Root.callHookThenPush, noHooks, htail]
  have hrank : labelRank s.label = 1 := by
    rw [habs.label]
    rfl
  exact pushContainer_sim (s := { s with objs := outerObjs outer, rt := () }) hrank habs.bound rfl
    fun res => Iff.rfl

include spec

theorem arrValDispatch_sim {vs : List PyVal} {outer : List Open}
    (habs : Abs src (.arrValBegin vs outer) s) :
    Simulates enc numVal objVal src (.arrValBegin vs outer) s
      (Root.arrValDispatch readers (valuesWith objVal) src s) := by
  have hval : wrappedCharIsSpace (src.read s.cur) ≠ true → src.read s.cur ≠ 0x5D → ∀ res,
      (Config.valBegin (.array vs) outer).demand enc numVal objVal (src.rest s.cur) res ↔
        ValNext enc numVal objVal decodeMaxRecursion (.array vs :: outer) (src.rest s.cur) res := by
    intro hws hend res
    rw [wrappedCharIsSpace_eq, ne_eq, Bool.not_eq_true] at hws
    refine arrNext_iff_valNext (fun ch hch => ?_) (fun ch hch => ?_)
    · rwa [← Source.read_of_head habs.bound hch]
    · rwa [← Source.read_of_head habs.bound hch]
  have hval' : ∀ {ch}, src.read s.cur = ch → wrappedCharIsSpace ch ≠ true → ch ≠ 0x5D → ∀ res,
      (Config.valBegin (.array vs) outer).demand enc numVal objVal (src.rest s.cur) res ↔
        ValNext enc numVal objVal decodeMaxRecursion (.array vs :: outer) (src.rest s.cur) res := by
    rintro ch rfl
    exact hval
  have habs' : Abs src (.valBegin (.array vs) outer) s := habs
  unfold Root.arrValDispatch
  dsimp only
  split
  · rename_i h
    exact openBrace_sim habs' (hval' h (by decide) (by decide)) h
  split
  · rename_i h
    exact openBracket_sim habs' (hval' h (by decide) (by decide)) h
  split
  · rename_i h
    refine numberArm_sim spec habs' (hval ?_ ?_) h.2
    · intro hws
      rw [wrappedCharIsSpace_eq, isWs_iff] at hws
      have hnumber := charIsNumber_iff.mp h.2
      rw [isDigit_iff] at hnumber
      omega
    · intro hend
      have hnumber := charIsNumber_iff.mp h.2
      rw [isDigit_iff] at hnumber
      omega
  split
  · rename_i h
    exact stringArm_sim spec habs' (hval' h (by decide) (by decide)) h
  split
  · rename_i h
    exact trueArm_sim habs' (hval' h (by decide) (by decide)) h
  split
  · rename_i h
    exact falseArm_sim habs' (hval' h (by decide) (by decide)) h
  split
  · rename_i h
    exact nullArm_sim habs' (hval' h (by decide) (by decide)) h
  split
  · rename_i h
    have hlt := Source.lt_of_read habs.bound (by simp [h])
    have hhead := Source.rest_of_read habs.bound h (by decide)
    have hctn : Root.ctnLen s = vs.length := by
      rw [Root.ctnLen, habs.ctn]
      rfl
    have hdem : ∀ res, (Config.arrValBegin vs outer).demand enc numVal objVal (src.rest s.cur) res ↔
        vs = [] ∧ Closes enc numVal objVal decodeMaxRecursion outer (.list vs) (src.rest (s.cur + 1)) res := by
      intro res
      rw [hhead]
      exact arrNext_bracket
    split
    · rename_i hempty
      obtain rfl : vs = [] := List.eq_nil_of_length_eq_zero (hctn ▸ hempty)
      refine Simulates.advance (.arrEnd [] outer) ⟨rfl, habs.ctn, habs.objs, hlt⟩
        (Nat.lt_succ_self _) fun res => ?_
      rw [hdem res]
      simp [Config.demand]
    · rename_i hne
      refine ⟨?_, fun res hd => hne ?_⟩
      · exact .inr ((Root.rewindToComma_le src _).trans hlt)
      · rw [hctn, ((hdem res).mp hd).1]
        rfl
  split
  · rename_i h
    obtain ⟨hskip, hlt⟩ := skipConsecutiveSpaces_skips habs.bound h
    exact Simulates.loop habs rfl hskip hlt
  split
  · rename_i h
    refine infArm_sim habs' (fun res => ?_) h
    rcases h with h | h | h
    · exact hval' h (by decide) (by decide) res
    · exact hval' h (by decide) (by decide) res
    · exact hval' h (by decide) (by decide) res
  · rename_i h₁ h₂ h₃ h₄ h₅ h₆ h₇ h₈ h₉ h₁₀
    exact noValue_sim habs' (hval h₉ h₈) h₉ h₃ ⟨h₄, h₂, h₁, h₅, h₆⟩ (by omega)

theorem arrValBegin_sim {vs : List PyVal} {outer : List Open}
    (habs : Abs src (.arrValBegin vs outer) s) :
    Simulates enc numVal objVal src (.arrValBegin vs outer) s
      (Root.arrValBegin readers (valuesWith objVal) src s) := by
  have hskip := prettySkip_skips spec habs.bound
  exact Simulates.skip hskip (arrValDispatch_sim spec (habs.skip hskip))

/-- A separator of two characters, or the comma alone in front of white space. -/
theorem separatorTail_ws {cur : Nat} (hle : cur ≤ src.len)
    (h : readers.match2 src cur 0x2C (Root.separatorTail readers) = true) :
    src.rest cur = 0x2C :: src.rest (cur + 1) ∧ Skips src (cur + 1) (cur + 2) := by
  have hne : Root.separatorTail readers ≠ 0 := by
    unfold Root.separatorTail
    split <;> decide
  have hws : isWs (Root.separatorTail readers) = true := by
    unfold Root.separatorTail
    split <;> rfl
  have hrest := spec.match2 cur 0x2C _ hle (by decide) hne h
  have hbound : cur + 2 ≤ src.len := bound_of_rest (t := [0x2C, Root.separatorTail readers]) hle hrest
  have hone : src.rest (cur + 1) = Root.separatorTail readers :: src.rest (cur + 2) := by
    rw [Source.rest_add, hrest]
    rfl
  exact ⟨by rw [hone, hrest], by omega, hbound, hone ▸ .cons hws (.nil _)⟩

theorem arrValEnd_sim {vs : List PyVal} {hne : vs ≠ []} {outer : List Open}
    (habs : Abs src (.arrValEnd vs hne outer) s) :
    Simulates enc numVal objVal src (.arrValEnd vs hne outer) s (Root.arrValEnd readers src s) := by
  have hcomma : ∀ res, (Config.arrValEnd vs hne outer).demand enc numVal objVal
      (0x2C :: src.rest (s.cur + 1)) res ↔
      (Config.arrValBegin vs outer).demand enc numVal objVal (src.rest (s.cur + 1)) res := by
    intro res
    simp [Config.demand, arrAfter_comma, ArrNext, hne]
  unfold Root.arrValEnd
  dsimp only
  split
  · rename_i h
    obtain ⟨hrest, hskip⟩ := separatorTail_ws spec habs.bound h
    refine Simulates.advance (.arrValBegin vs outer)
      ⟨rfl, habs.ctn, habs.objs, hskip.bound⟩ (by simp) fun res => ?_
    rw [hrest, hcomma res, Config.demand_ws _ hskip.ws]
  split
  · rename_i h
    have hlt := Source.lt_of_read habs.bound (by simp [h])
    refine Simulates.advance (.arrValBegin vs outer) ⟨rfl, habs.ctn, habs.objs, hlt⟩
      (Nat.lt_succ_self _) fun res => ?_
    rw [Source.rest_of_read habs.bound h (by decide), hcomma res]
  split
  · rename_i h
    have hlt := Source.lt_of_read habs.bound (by simp [h])
    refine Simulates.advance (.arrEnd vs outer) ⟨rfl, habs.ctn, habs.objs, hlt⟩
      (Nat.lt_succ_self _) fun res => ?_
    rw [Source.rest_of_read habs.bound h (by decide)]
    exact arrAfter_bracket
  split
  · rename_i h
    obtain ⟨hskip, hlt⟩ := slowSkip_skips spec habs.bound h
    exact Simulates.loop habs rfl hskip hlt
  · rename_i h₁ h₂ h₃ h₄
    refine ⟨.inr habs.bound, fun res => not_arrAfter (fun ch hch => ?_) fun ch hch => ?_⟩
    · rw [← Source.read_of_head habs.bound hch]
      rwa [wrappedCharIsSpace_eq, Bool.not_eq_true] at h₄
    · rw [← Source.read_of_head habs.bound hch]
      exact ⟨h₂, h₃⟩

theorem keyArm_sim {ms : List (PyStr × PyVal)} {outer : List Open}
    (habs : Abs src (.objKeyBegin ms outer) s) (hquote : src.read s.cur = 0x22) :
    Simulates enc numVal objVal src (.objKeyBegin ms outer) s
      (Root.keyArm readers (valuesWith objVal) src s) := by
  have hhead := Source.rest_of_read habs.bound hquote (by decide)
  have htoken := spec.string true s.cur habs.bound hquote
  have hdem : ∀ res, (Config.objKeyBegin ms outer).demand enc numVal objVal (src.rest s.cur) res ↔
      ∃ k r, StringToken enc (src.rest s.cur) k r ∧
        ColonNext enc numVal objVal decodeMaxRecursion ms k outer r res := by
    intro res
    rw [hhead]
    exact keyNext_string
  unfold Root.keyArm
  obtain ⟨result, hresult⟩ : ∃ result, readers.loadsString true src s.cur = result := ⟨_, rfl⟩
  rw [hresult] at htoken ⊢
  obtain ⟨_ | ⟨k, lookup⟩, cur'⟩ := result
  · refine ⟨.inl rfl, fun res hd => ?_⟩
    obtain ⟨k, r, hk, -⟩ := (hdem res).mp hd
    exact htoken.notFound rfl k r hk trivial
  · obtain ⟨hlt, hle, hk, hunique⟩ := htoken.found k rfl
    refine Simulates.advance (.objKeyEnd ms k outer) ⟨rfl, habs.ctn, ?_, hle⟩ hlt
      fun res => ?_
    · simp only [habs.objs]
      rfl
    · rw [hdem res]
      constructor
      · rintro ⟨k', r, hk', hcolon⟩
        obtain ⟨rfl, rfl⟩ := hunique k' r hk' trivial
        exact hcolon
      · exact fun hcolon => ⟨k, _, hk, hcolon⟩

theorem objKeyDispatch_sim {ms : List (PyStr × PyVal)} {outer : List Open}
    (habs : Abs src (.objKeyBegin ms outer) s) :
    Simulates enc numVal objVal src (.objKeyBegin ms outer) s
      (Root.objKeyDispatch readers (valuesWith objVal) src s) := by
  unfold Root.objKeyDispatch
  dsimp only
  split
  · rename_i h
    exact keyArm_sim spec habs h
  split
  · rename_i h
    have hlt := Source.lt_of_read habs.bound (by simp [h])
    have hctn : Root.ctnLen s = ms.length := by
      rw [Root.ctnLen, habs.ctn]
      rfl
    have hdem : ∀ res, (Config.objKeyBegin ms outer).demand enc numVal objVal (src.rest s.cur) res ↔
        ms = [] ∧ Closes enc numVal objVal decodeMaxRecursion outer (objVal ms)
          (src.rest (s.cur + 1)) res := by
      intro res
      rw [Source.rest_of_read habs.bound h (by decide)]
      exact keyNext_brace
    split
    · rename_i hempty
      obtain rfl : ms = [] := List.eq_nil_of_length_eq_zero (hctn ▸ hempty)
      refine Simulates.advance (.objEnd [] outer) ⟨rfl, habs.ctn, habs.objs, hlt⟩
        (Nat.lt_succ_self _) fun res => ?_
      rw [hdem res]
      simp [Config.demand]
    · rename_i hne
      refine ⟨.inr hlt, fun res hd => hne ?_⟩
      rw [hctn, ((hdem res).mp hd).1]
      rfl
  split
  · rename_i h
    obtain ⟨hskip, hlt⟩ := skipConsecutiveSpaces_skips habs.bound h
    exact Simulates.loop habs rfl hskip hlt
  · rename_i h₁ h₂ h₃
    refine ⟨.inr habs.bound, fun res => not_keyNext (fun ch hch => ?_) fun ch hch => ?_⟩
    · rw [← Source.read_of_head habs.bound hch]
      rwa [wrappedCharIsSpace_eq, Bool.not_eq_true] at h₃
    · rw [← Source.read_of_head habs.bound hch]
      exact ⟨h₁, h₂⟩

theorem objKeyBegin_sim {ms : List (PyStr × PyVal)} {outer : List Open}
    (habs : Abs src (.objKeyBegin ms outer) s) :
    Simulates enc numVal objVal src (.objKeyBegin ms outer) s
      (Root.objKeyBegin readers (valuesWith objVal) src s) := by
  have hskip := prettySkip_skips spec habs.bound
  exact Simulates.skip hskip (objKeyDispatch_sim spec (habs.skip hskip))

theorem objKeyEnd_sim {ms : List (PyStr × PyVal)} {k : PyStr} {outer : List Open}
    (habs : Abs src (.objKeyEnd ms k outer) s) :
    Simulates enc numVal objVal src (.objKeyEnd ms k outer) s (Root.objKeyEnd readers src s) := by
  have hcolon : ∀ res, (Config.objKeyEnd ms k outer).demand enc numVal objVal
      (0x3A :: src.rest (s.cur + 1)) res ↔
      (Config.objValBegin ms k outer).demand enc numVal objVal (src.rest (s.cur + 1)) res :=
    fun res => colonNext_colon
  unfold Root.objKeyEnd
  dsimp only
  split
  · rename_i h
    have hrest := spec.match2 s.cur 0x3A 0x20 habs.bound (by decide) (by decide) h
    have hbound : s.cur + 2 ≤ src.len := bound_of_rest (t := [0x3A, 0x20]) habs.bound hrest
    have hone : src.rest (s.cur + 1) = 0x20 :: src.rest (s.cur + 2) := by
      rw [Source.rest_add, hrest]
      rfl
    refine Simulates.advance (.objValBegin ms k outer)
      ⟨rfl, habs.ctn, habs.objs, hbound⟩ (by simp) fun res => ?_
    have hws : Ws (src.rest (s.cur + 1)) (src.rest (s.cur + 2)) := hone ▸ .cons rfl (.nil _)
    rw [hrest, ← hone, hcolon res, Config.demand_ws _ hws]
  split
  · rename_i h
    have hlt := Source.lt_of_read habs.bound (by simp [h])
    refine Simulates.advance (.objValBegin ms k outer) ⟨rfl, habs.ctn, habs.objs, hlt⟩
      (Nat.lt_succ_self _) fun res => ?_
    rw [Source.rest_of_read habs.bound h (by decide), hcolon res]
  split
  · rename_i h
    obtain ⟨hskip, hlt⟩ := slowSkip_skips spec habs.bound h
    exact Simulates.loop habs rfl hskip hlt
  · rename_i h₁ h₂ h₃
    refine ⟨.inr habs.bound, fun res => not_colonNext (fun ch hch => ?_) fun ch hch => ?_⟩
    · rw [← Source.read_of_head habs.bound hch]
      rwa [wrappedCharIsSpace_eq, Bool.not_eq_true] at h₃
    · rw [← Source.read_of_head habs.bound hch]
      exact h₂

theorem objValBegin_sim {ms : List (PyStr × PyVal)} {k : PyStr} {outer : List Open}
    (habs : Abs src (.objValBegin ms k outer) s) :
    Simulates enc numVal objVal src (.objValBegin ms k outer) s
      (Root.objValBegin readers (valuesWith objVal) src s) := by
  have habs' : Abs src (.valBegin (.member ms k) outer) s := habs
  have hval : ∀ res, (Config.valBegin (.member ms k) outer).demand enc numVal objVal
      (src.rest s.cur) res ↔
      ValNext enc numVal objVal decodeMaxRecursion (.member ms k :: outer) (src.rest s.cur) res :=
    fun res => Iff.rfl
  unfold Root.objValBegin
  dsimp only
  split
  · rename_i h
    exact stringArm_sim spec habs' hval h
  split
  · rename_i h
    exact numberArm_sim spec habs' hval h
  split
  · rename_i h
    exact openBrace_sim habs' hval h
  split
  · rename_i h
    exact openBracket_sim habs' hval h
  split
  · rename_i h
    exact trueArm_sim habs' hval h
  split
  · rename_i h
    exact falseArm_sim habs' hval h
  split
  · rename_i h
    exact nullArm_sim habs' hval h
  split
  · rename_i h
    have hone := Skips.one habs.bound (wrappedCharIsSpace_eq _ ▸ h)
    have hpretty := prettySkip_skips spec hone.bound
    have hskip : Skips src (s.cur + 1)
        (if wrappedCharIsSpace (src.read (Root.prettySkip readers src (s.cur + 1))) then
          skipConsecutiveSpaces src (Root.prettySkip readers src (s.cur + 1))
        else Root.prettySkip readers src (s.cur + 1)) := by
      split
      · rename_i hspace
        exact hpretty.trans (skipConsecutiveSpaces_skips hpretty.bound hspace).1
      · exact hpretty
    exact Simulates.loop habs rfl (hone.trans hskip) hskip.le
  split
  · rename_i h
    exact infArm_sim habs' hval h
  · rename_i h₁ h₂ h₃ h₄ h₅ h₆ h₇ h₈ h₉
    exact noValue_sim habs' hval h₈ (fun h => h₂ h.2) ⟨h₁, h₄, h₃, h₅, h₆⟩ (by omega)

theorem objValEnd_sim {ms : List (PyStr × PyVal)} {hne : ms ≠ []} {outer : List Open}
    (habs : Abs src (.objValEnd ms hne outer) s) :
    Simulates enc numVal objVal src (.objValEnd ms hne outer) s (Root.objValEnd readers src s) := by
  have hcomma : ∀ res, (Config.objValEnd ms hne outer).demand enc numVal objVal
      (0x2C :: src.rest (s.cur + 1)) res ↔
      (Config.objKeyBegin ms outer).demand enc numVal objVal (src.rest (s.cur + 1)) res := by
    intro res
    simp [Config.demand, objAfter_comma, KeyNext, hne]
  unfold Root.objValEnd
  dsimp only
  split
  · rename_i h
    obtain ⟨hrest, hskip⟩ := separatorTail_ws spec habs.bound h
    refine Simulates.advance (.objKeyBegin ms outer)
      ⟨rfl, habs.ctn, habs.objs, hskip.bound⟩ (by simp) fun res => ?_
    rw [hrest, hcomma res, Config.demand_ws _ hskip.ws]
  split
  · rename_i h
    have hlt := Source.lt_of_read habs.bound (by simp [h])
    refine Simulates.advance (.objKeyBegin ms outer) ⟨rfl, habs.ctn, habs.objs, hlt⟩
      (Nat.lt_succ_self _) fun res => ?_
    rw [Source.rest_of_read habs.bound h (by decide), hcomma res]
  split
  · rename_i h
    have hlt := Source.lt_of_read habs.bound (by simp [h])
    refine Simulates.advance (.objEnd ms outer) ⟨rfl, habs.ctn, habs.objs, hlt⟩
      (Nat.lt_succ_self _) fun res => ?_
    rw [Source.rest_of_read habs.bound h (by decide)]
    exact objAfter_brace
  split
  · rename_i h
    obtain ⟨hskip, hlt⟩ := slowSkip_skips spec habs.bound h
    exact Simulates.loop habs rfl hskip hlt
  · rename_i h₁ h₂ h₃ h₄
    refine ⟨.inr habs.bound, fun res => not_objAfter (fun ch hch => ?_) fun ch hch => ?_⟩
    · rw [← Source.read_of_head habs.bound hch]
      rwa [wrappedCharIsSpace_eq, Bool.not_eq_true] at h₄
    · rw [← Source.read_of_head habs.bound hch]
      exact ⟨h₂, h₃⟩

theorem docEnd_sim {v : PyVal} (habs : Abs src (.docEnd v) s) :
    Simulates enc numVal objVal src (.docEnd v) s (Root.docEnd (σ := Unit) readers src s) := by
  have hsuccess : ∀ cur, Root.success { s with cur } = .ret v { s with cur } := by
    intro cur
    simp only [Root.success, habs.objs]
    rfl
  have hends : ∀ cur, cur ≤ src.len → ¬ cur < src.len → ∀ res,
      (Config.docEnd v).demand enc numVal objVal (src.rest cur) res ↔ res = v := by
    intro cur hle hend res
    have hlen := Nat.le_antisymm hle (Nat.le_of_not_lt hend)
    simp [Config.demand, hlen, Ws.nil]
  unfold Root.docEnd
  dsimp only
  split
  · obtain ⟨hskip, hstop⟩ := spacesThenWs_skips spec habs.bound
    refine Simulates.skip hskip ?_
    split
    · rename_i hgarbage
      refine ⟨.inr hskip.bound, fun res hd => ?_⟩
      have hnil := hd.2
      rw [Source.rest_of_lt hgarbage] at hnil
      exact absurd (hnil.eq_of_noWs (noWs_cons.mpr hstop)) (by simp)
    · rename_i hend
      rw [hsuccess]
      exact ⟨hskip.bound, hends _ hskip.bound hend⟩
  · rename_i hend
    rw [hsuccess s.cur]
    exact ⟨habs.bound, hends _ habs.bound hend⟩

/-- A step of the machine does what the grammar demands. -/
theorem step_simulates (habs : Abs src c s) :
    Simulates enc numVal objVal src c s (Root.step readers (valuesWith objVal) noHooks src s) := by
  rw [Root.step, habs.label]
  cases c with
  | arrBegin outer => exact arrBegin_sim habs
  | arrValBegin vs outer => exact arrValBegin_sim spec habs
  | arrValEnd vs hne outer => exact arrValEnd_sim spec habs
  | arrEnd vs outer => exact arrEnd_sim habs
  | objBegin outer => exact objBegin_sim habs
  | objKeyBegin ms outer => exact objKeyBegin_sim spec habs
  | objKeyEnd ms k outer => exact objKeyEnd_sim spec habs
  | objValBegin ms k outer => exact objValBegin_sim spec habs
  | objValEnd ms hne outer => exact objValEnd_sim spec habs
  | objEnd ms outer => exact objEnd_sim habs
  | docEnd v => exact docEnd_sim spec habs

end Labels

/-! ## Runs -/

/-- What a call may answer for a text: the one value it denotes, or an error if it denotes none. -/
def Answers (derives : PyVal → Prop) : Except DecodeError PyVal → Prop
  | .ok v => ∀ res, derives res ↔ res = v
  | .error _ => ∀ res, ¬ derives res

theorem Answers.congr {derives derives' : PyVal → Prop} {result : Except DecodeError PyVal}
    (h : ∀ res, derives res ↔ derives' res) (ha : Answers derives' result) :
    Answers derives result := by
  cases result with
  | ok v => exact fun res => (h res).trans (ha res)
  | error e => exact fun res hd => ha res ((h res).mp hd)

variable (hook : PyVal → Unit → Option PyVal × Unit)

/-- From a state that holds a configuration the machine halts inside the text and answers what the
grammar demands there. -/
theorem run_simulates (spec : ReadersSpec readers enc numVal src) (fuel : Nat)
    (habs : Abs src c s) (hfuel : distance src s < fuel) :
    ∃ result s', Root.run readers (valuesWith objVal) noHooks src hook fuel s = some (result, s') ∧
      (result = .error .invalidString ∨ s'.cur ≤ src.len) ∧
      Answers (c.demand enc numVal objVal (src.rest s.cur)) result := by
  induction fuel generalizing s c with
  | zero => omega
  | succ fuel ih =>
      have hsim := @step_simulates _ _ _ objVal _ _ _ spec habs
      unfold Root.run
      cases hstep : Root.step readers (valuesWith objVal) noHooks src s with
      | goto s' =>
          rw [hstep] at hsim
          obtain ⟨hlt, c', habs', hdem⟩ := hsim
          obtain ⟨result, s'', hrun, hbound, hans⟩ := ih habs' (by omega)
          exact ⟨result, s'', hrun, hbound, hans.congr hdem⟩
      | fail e s' =>
          rw [hstep] at hsim
          exact ⟨.error e, s', rfl, hsim.1.imp_left (congrArg Except.error), hsim.2⟩
      | ret v s' =>
          rw [hstep] at hsim
          exact ⟨.ok v, s', rfl, .inr hsim.1, hsim.2⟩
      | callHook a rt k =>
          rw [hstep] at hsim
          exact hsim.elim

/-- Fuel for a whole text. -/
def rootFuel (src : Source) : Nat := 2 * src.len + 2

/-- At the start the machine holds the configuration that demands the whole document. -/
theorem start_abs (hopen : src.read 0 = 0x5B ∨ src.read 0 = 0x7B) :
    ∃ c, Abs src c (Root.start readers src ()) ∧ labelRank c.label = 0 ∧
      ∀ res, Document enc numVal objVal decodeMaxRecursion src.units res ↔
        c.demand enc numVal objVal (src.rest (@Root.start _ PyVal readers src ()).cur) res := by
  have hlt : 0 < src.len := Source.lt_of_read (Nat.zero_le _) (by omega)
  have hskip := @skipReturn_skips readers _ 1 hlt
  rcases hopen with h | h
  · refine ⟨.arrValBegin [] [], ?_, rfl, fun res => ?_⟩
    · simp only [Root.start, h]
      exact ⟨rfl, rfl, rfl, hskip.bound⟩
    · rw [← valNext_nil_iff, ← Source.rest_zero, Source.rest_of_read (Nat.zero_le _) h (by decide),
        valNext_bracket]
      simp only [Root.start, h, ↓reduceIte, show ¬ (0x5B = 0x7B) by decide]
      rw [← Config.demand_ws _ hskip.ws]
      simp [Config.demand, decodeMaxRecursion]
  · refine ⟨.objKeyBegin [] [], ?_, rfl, fun res => ?_⟩
    · simp only [Root.start, h]
      exact ⟨rfl, rfl, rfl, hskip.bound⟩
    · rw [← valNext_nil_iff, ← Source.rest_zero, Source.rest_of_read (Nat.zero_le _) h (by decide),
        valNext_brace]
      simp only [Root.start, h, ↓reduceIte]
      rw [← Config.demand_ws _ hskip.ws]
      simp [Config.demand, decodeMaxRecursion]

/-- A text that begins with a container is read as the grammar has it. -/
theorem run_start (spec : ReadersSpec readers enc numVal src)
    (hopen : src.read 0 = 0x5B ∨ src.read 0 = 0x7B) :
    ∃ result s', Root.run readers (valuesWith objVal) noHooks src hook (rootFuel src)
        (Root.start readers src ()) = some (result, s') ∧
      (result = .error .invalidString ∨ s'.cur ≤ src.len) ∧
      Answers (Document enc numVal objVal decodeMaxRecursion src.units) result := by
  obtain ⟨c, habs, hrank, hdem⟩ := @start_abs readers enc numVal objVal _ hopen
  obtain ⟨result, s', hrun, hbound, hans⟩ := run_simulates hook spec (rootFuel src) habs (by
    rw [distance, habs.label, hrank, rootFuel]
    omega)
  exact ⟨result, s', hrun, hbound, hans.congr hdem⟩

end SsrJson.Decode
