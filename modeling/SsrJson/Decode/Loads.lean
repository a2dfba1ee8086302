import SsrJson.Decode.StaleBytes
import SsrJson.Decode.StringStop
import SsrJson.Decode.Variants
import SsrJson.Spec.Recode

/-!
# `loads` accepts the documents of the grammar

A call without hooks skips white space, reads a container with a root function or a single value
with `loads_root_single`, and looks at what is behind it. Where memory can be had, it returns the
value the grammar derives, or fails where the grammar derives none (`LoadsRight`), and says how far
its cursor has come. A `str` and its UTF-8 form give the same.
-/

namespace SsrJson.Decode

open Spec

variable {env : DecodeEnv} {kind : SourceKind} {src text : Source}
  {objVal : List (PyStr × PyVal) → PyVal}

/-! ## White space in front -/

theorem charIsSpaceOrComment_of_space {c : Nat} (h : charIsSpace c = true) :
    charIsSpaceOrComment c = true := by
  unfold charIsSpace charIsType at h
  unfold charIsSpaceOrComment charIsType
  generalize charTypeTable.getD (c % 256) 0 = flags at h ⊢
  rw [bne_iff_ne] at h ⊢
  intro hzero
  refine h ?_
  calc flags &&& 0x01 = flags &&& (0x21 &&& 0x01) := rfl
    _ = (flags &&& 0x21) &&& 0x01 := (Nat.and_assoc _ _ _).symm
    _ = 0 := by rw [hzero, Nat.zero_and]

theorem wrappedCharIsSpace_iff {c : Nat} :
    wrappedCharIsSpace c = true ↔ c ≤ 0xFF ∧ charIsSpace c = true := by
  simp [wrappedCharIsSpace]

/-- The loop over leading white space. -/
theorem leading_skips (src : Source) :
    Skips src 0 (if src.read 0 ≤ 0xFF ∧ charIsSpace (src.read 0) then skipConsecutiveSpaces src 0
      else 0) ∧
    isWs (src.read (if src.read 0 ≤ 0xFF ∧ charIsSpace (src.read 0) then
      skipConsecutiveSpaces src 0 else 0)) = false := by
  have hle := Nat.zero_le src.len
  split
  next h =>
    have hspace := wrappedCharIsSpace_iff.mpr h
    exact ⟨(skipConsecutiveSpaces_skips hle hspace).1, skipConsecutiveSpaces_stops hle hspace⟩
  next h =>
    rw [← wrappedCharIsSpace_eq, ← Bool.not_eq_true, wrappedCharIsSpace_iff]
    exact ⟨.refl hle, h⟩

/-- The document begins at a character that is no white space. -/
theorem skipLeading_some {start : Nat} (h : skipLeading src = some start) :
    Skips src 0 start ∧ isWs (src.read start) = false := by
  have hleading := leading_skips src
  unfold skipLeading at h
  dsimp only at h
  split at h
  · generalize (if src.read 0 ≤ 0xFF ∧ charIsSpace (src.read 0) then skipConsecutiveSpaces src 0
      else 0) = cur at h hleading
    split at h
    · cases h
    · obtain rfl := Option.some.inj h
      exact hleading
  · rename_i hother
    obtain rfl := Option.some.inj h
    rwa [if_neg fun hspace => hother ⟨hspace.1, charIsSpaceOrComment_of_space hspace.2⟩] at hleading

/-- There is only white space. -/
theorem skipLeading_none (h : skipLeading src = none) : Ws src.units [] := by
  have hleading := (leading_skips src).1
  unfold skipLeading at h
  dsimp only at h
  split at h
  · generalize (if src.read 0 ≤ 0xFF ∧ charIsSpace (src.read 0) then skipConsecutiveSpaces src 0
      else 0) = cur at h hleading
    split at h
    · rename_i hend
      have hws := hleading.ws
      rw [Nat.le_antisymm hleading.bound hend, Source.rest_len, Source.rest_zero] at hws
      exact hws
    · cases h
  · cases h

/-! ## Single values -/

/-- The value read. -/
def Single.val : Single → PyVal
  | .number num => .num num
  | .string made => .str made.str
  | .bool b => .bool b
  | .null => .none

/-- The values the grammar derives for a text of a kind. -/
def SourceKind.Derives (kind : SourceKind) (objVal : List (PyStr × PyVal) → PyVal) (src : Source)
    (res : PyVal) : Prop :=
  Document kind.code.enc numVal objVal decodeMaxRecursion src.units res

/-- Its objects are dicts. -/
def SourceKind.Denotes (kind : SourceKind) (src : Source) (res : PyVal) : Prop :=
  kind.Derives dictOf src res

/-- What reading a single value must give: the only value the text can be, where what is behind it
decides, or an error where the text is no document. -/
def SingleSpec (objVal : List (PyStr × PyVal) → PyVal) (isa : Isa) (kind : SourceKind)
    (text : Source) : SingleRead → Prop
  | .found single _ cur => cur ≤ text.len ∧
      ∀ res, kind.Derives objVal text res ↔ res = single.val ∧ Ws (text.rest cur) []
  | .fail error cur => (∀ res, ¬ kind.Derives objVal text res) ∧
      (cur ≤ text.len ∨ error = .invalidString ∧ kind.Stopped isa text cur)
  | .wild => False

/-- Where the buffer can be had, the string of a text is read as everywhere. -/
theorem singleString_reserved (hreserve : env.reserve text.len ≠ none) :
    ∃ scratch, singleString env kind text =
      .ok (some ((rootReaders env.isa scratch kind false).loadsString false text 0)) := by
  obtain ⟨scratch, hscratch⟩ := Option.ne_none_iff_exists'.mp hreserve
  refine ⟨scratch, ?_⟩
  unfold singleString
  rw [hscratch]

section Single

theorem derives_iff {res : PyVal} : kind.Derives objVal text res ↔
    ValNext kind.code.enc numVal objVal decodeMaxRecursion [] (text.rest 0) res :=
  valNext_nil_iff.symm

/-- A token that is a whole document is the one its reader finds. -/
theorem TokenSpec.denotes {α : Type} {R : List Nat → α → List Nat → Prop} (toVal : α → PyVal)
    {follow : List Nat → Prop} {result : Option α × Nat} (h : TokenSpec R follow text 0 result)
    (hfollow : ∀ r, Ws r [] → follow r)
    (hdem : ∀ res, kind.Derives objVal text res ↔
      ∃ a r, R (text.rest 0) a r ∧ res = toVal a ∧ Ws r []) :
    (∀ a, result.1 = some a → result.2 ≤ text.len ∧
      ∀ res, kind.Derives objVal text res ↔ res = toVal a ∧ Ws (text.rest result.2) []) ∧
    (result.1 = none → ∀ res, ¬ kind.Derives objVal text res) := by
  constructor
  · intro a ha
    obtain ⟨-, hle, htoken, hunique⟩ := h.found a ha
    refine ⟨hle, fun res => ?_⟩
    rw [hdem res]
    constructor
    · rintro ⟨a', r, htoken', hres, hws⟩
      obtain ⟨rfl, rfl⟩ := hunique a' r htoken' (hfollow r hws)
      exact ⟨hres, hws⟩
    · exact fun ⟨hres, hws⟩ => ⟨a, _, htoken, hres, hws⟩
  · intro hnone res hdoc
    obtain ⟨a, r, htoken, -, hws⟩ := (hdem res).mp hdoc
    exact h.notFound hnone a r htoken (hfollow r hws)

theorem delimited_of_ws {r : List Nat} (h : Ws r []) : Delimited r :=
  h.delimited (by simp [Delimited])

/-- `nan` is the only number that begins with a small `n`. -/
theorem readNan_token {cur : Nat} (hle : cur ≤ src.len) (hn : src.read cur = 0x6E) :
    ∃ found last, readNan src cur = (found, last) ∧ last ≤ src.len ∧
      TokenSpec (NumToken numVal) (fun _ => True) src cur
        (if found then some (.float (nanBits false)) else none, last) := by
  have hhead := Source.rest_of_read hle hn (by decide)
  have hspecial : ∀ num r, NumToken numVal (src.rest cur) num r ↔
      ∃ t, SpecialWord false t num ∧ src.rest cur = t ++ r := by
    intro num r
    refine numToken_special fun ch hch => ?_
    rw [hhead] at hch
    obtain rfl := Option.some.inj hch
    decide
  rcases readNan_spec hle with ⟨hread, hbound, t, heq, hrest⟩ | ⟨hread, hnone⟩
  · refine ⟨true, cur + 3, hread, hbound, fun num hnum => ?_, nofun⟩
    obtain rfl := Option.some.inj hnum
    have hword : SpecialWord false t (.float (nanBits false)) := .inr ⟨heq, rfl⟩
    refine ⟨show cur < cur + 3 by omega, hbound, (hspecial _ _).mpr ⟨t, hword, hrest⟩, ?_⟩
    intro num r htoken _
    obtain ⟨t', hword', hrest'⟩ := (hspecial num r).mp htoken
    obtain ⟨rfl, rfl⟩ := hword.unique hword' (hrest ▸ hrest')
    exact ⟨rfl, rfl⟩
  · refine ⟨false, cur, hread, hle, nofun, fun _ num r htoken _ => ?_⟩
    obtain ⟨t, ⟨heq, -⟩ | ⟨heq, -⟩, hrest⟩ := (hspecial num r).mp htoken
    · cases heq with
      | cons hc _ =>
          rw [hhead, List.cons_append, List.cons.injEq] at hrest
          omega
    · exact hnone t r heq hrest

variable (hlt : 0 < text.len)

include hlt

/-- A document that begins like a number is a number token. -/
theorem denotes_number (hnum : isNumHead (text.read 0) = true)
    (hnull : ∀ r, text.rest 0 ≠ 0x6E :: 0x75 :: 0x6C :: 0x6C :: r) (res : PyVal) :
    kind.Derives objVal text res ↔
      ∃ num r, NumToken numVal (text.rest 0) num r ∧ res = .num num ∧ Ws r [] := by
  have hhead := Source.rest_of_lt hlt
  rw [hhead] at hnull
  rw [derives_iff, hhead]
  exact valNext_number hnum hnull

/-- A document that does not begin like anything else begins like a number, or there is none. -/
theorem denotes_other (hws : isWs (text.read 0) = false)
    (hother : text.read 0 ≠ 0x22 ∧ text.read 0 ≠ 0x5B ∧ text.read 0 ≠ 0x7B ∧ text.read 0 ≠ 0x74 ∧
      text.read 0 ≠ 0x66) (hn : text.read 0 ≠ 0x6E) (res : PyVal) :
    kind.Derives objVal text res ↔
      ∃ num r, NumToken numVal (text.rest 0) num r ∧ res = .num num ∧ Ws r [] := by
  have hhead := Source.rest_of_lt hlt
  by_cases hnum : isNumHead (text.read 0) = true
  · refine denotes_number hlt hnum (fun r hr => ?_) res
    rw [hhead, List.cons.injEq] at hr
    exact hn hr.1
  · constructor
    · intro hdoc
      rw [derives_iff, hhead] at hdoc
      exact absurd hdoc (not_valNext hws (Bool.not_eq_true _ ▸ hnum) hother)
    · rintro ⟨num, r, htoken, -⟩
      rw [hhead] at htoken
      exact absurd htoken.head hnum

/-- `loads_root_single` reads the one value the text can be. -/
theorem readSingle_spec (hholds : kind.Holds text) (hreserve : env.reserve text.len ≠ none)
    (hws : isWs (text.read 0) = false)
    (hopen : ¬ (text.read 0 = 0x5B ∨ text.read 0 = 0x7B)) :
    SingleSpec objVal env.isa kind text (readSingle env kind text) := by
  have hle := Nat.zero_le text.len
  have hhead := Source.rest_of_lt hlt
  unfold readSingle
  dsimp only
  split
  next hnumber =>
    have hnull : ∀ r, text.rest 0 ≠ 0x6E :: 0x75 :: 0x6C :: 0x6C :: r := by
      intro r hr
      rw [hhead, List.cons.injEq] at hr
      rw [hr.1] at hnumber
      exact absurd hnumber.2 (by decide)
    have hbound := loadsNumber_bound hholds.units32 hle
    obtain ⟨hfound, hnone⟩ := (loadsNumber_token hholds.units32 hle).denotes .num
      (fun _ => delimited_of_ws)
      (@denotes_number kind _ objVal hlt (isNumHead_iff.mpr (.inl hnumber)) hnull)
    generalize loadsNumber text 0 = result at *
    obtain ⟨_ | num, cur⟩ := result
    · exact ⟨hnone rfl, .inl hbound⟩
    · exact hfound num rfl
  next hnumber =>
  split
  next hquote =>
    obtain ⟨scratch, hstring⟩ := singleString_reserved hreserve
    rw [hstring]
    have hspec := @rootReaders_string _ _ env.isa scratch false hholds false _ hlt
    have hstop := fun last =>
      @rootReaders_stop env.isa text 0 kind scratch false hholds false last hlt
    generalize (rootReaders env.isa scratch kind false).loadsString false text 0 = result at *
    obtain ⟨hfound, hnone⟩ := @TokenSpec.denotes kind _ objVal _ _ .str _ _
      (hspec.token hlt hquote) (fun _ _ => trivial)
      fun res => by
        rw [derives_iff, Source.rest_of_read hle hquote (by decide), valNext_string]
        rfl
    obtain ⟨_ | made, last⟩ := result
    · exact ⟨hnone rfl, .inr ⟨rfl, hstop last rfl⟩⟩
    · exact hfound made.str rfl
  next hquote =>
  split
  next ht =>
    rcases readTrue_spec hle with ⟨hread, hbound, hrest⟩ | ⟨hread, hnone⟩
    · rw [hread]
      refine ⟨hbound, fun res => ?_⟩
      rw [derives_iff, hrest, valNext_true]
      simp [Closes, Single.val]
    · rw [hread]
      refine ⟨fun res hdoc => ?_, .inl hle⟩
      rw [derives_iff, hhead, ht, valNext_true] at hdoc
      obtain ⟨r, hr, -⟩ := hdoc
      exact hnone r (by rw [hhead, ht, hr])
  next ht =>
  split
  next hf =>
    rcases readFalse_spec hle hf with ⟨hread, hbound, hrest⟩ | ⟨hread, hnone⟩
    · rw [hread]
      refine ⟨hbound, fun res => ?_⟩
      rw [derives_iff, hrest, valNext_false]
      simp [Closes, Single.val]
    · rw [hread]
      refine ⟨fun res hdoc => ?_, .inl hle⟩
      rw [derives_iff, hhead, hf, valNext_false] at hdoc
      obtain ⟨r, hr, -⟩ := hdoc
      exact hnone r (by rw [hhead, hf, hr])
  next hf =>
  split
  next hn =>
    rcases readNull_spec hle with ⟨hread, hbound, hrest⟩ | ⟨hread, hnull⟩
    · rw [hread]
      refine ⟨hbound, fun res => ?_⟩
      rw [derives_iff, hrest, valNext_null]
      rfl
    · rw [hread]
      dsimp only
      obtain ⟨found, last, hnan, hbound, htoken⟩ := readNan_token hle hn
      obtain ⟨hfound, hnone⟩ := htoken.denotes .num (fun _ _ => trivial)
        (@denotes_number kind _ objVal hlt (by rw [hn]; rfl) hnull)
      rw [hnan]
      cases found with
      | false => exact ⟨hnone rfl, .inl hbound⟩
      | true => exact hfound _ rfl
  next hn =>
    have hnospecial : ∀ ch ∈ (text.rest 0).head?, ch ≠ 0x2D ∧ isDigit ch = false := by
      intro ch hch
      rw [hhead] at hch
      obtain rfl := Option.some.inj hch
      rw [charIsNumber_iff] at hnumber
      simp only [isDigit, Bool.and_eq_true, decide_eq_true_eq, Bool.and_eq_false_iff,
        decide_eq_false_iff_not] at hnumber ⊢
      omega
    have hbound := loadsInfOrNan_bound false hle
    obtain ⟨hfound, hnone⟩ := (@loadsInfOrNan_token _ _ numVal hle hnospecial).denotes .num
      (fun _ => delimited_of_ws)
      (@denotes_other kind _ objVal hlt hws
        ⟨hquote, fun h => hopen (.inl h), fun h => hopen (.inr h), ht, hf⟩ hn)
    generalize loadsInfOrNan text false 0 = result at *
    obtain ⟨_ | num, cur⟩ := result
    · exact ⟨hnone rfl, .inl hbound⟩
    · exact hfound num rfl

end Single

/-! ## Root functions -/

/-- The position a message reports for a cursor: the functions for containers count units, the one
for single values counts bytes. -/
def reportedPos (kind : SourceKind) (text : Source) (cur : Nat) : Nat :=
  if text.read 0 ≤ 0xFF ∧ charIsContainer (text.read 0) then cur else singlePos kind cur

theorem reportedPos_zero (kind : SourceKind) (text : Source) : reportedPos kind text 0 = 0 := by
  unfold reportedPos singlePos
  split <;> simp

theorem reportedPos_open (kind : SourceKind) (hopen : text.read 0 = 0x5B ∨ text.read 0 = 0x7B)
    (cur : Nat) : reportedPos kind text cur = cur := by
  rw [reportedPos, if_pos (isContainer_iff.mpr hopen)]

theorem singlePos_eq (kind : SourceKind) (hopen : ¬ (text.read 0 = 0x5B ∨ text.read 0 = 0x7B))
    (cur : Nat) : singlePos kind cur = reportedPos kind text cur := by
  rw [reportedPos, if_neg fun h => hopen (isContainer_iff.mp h)]

/-- What loading a text must give. -/
def TextRight (objVal : List (PyStr × PyVal) → PyVal) (isa : Isa) (kind : SourceKind)
    (text : Source) : Loaded PyVal → Prop
  | .ok v => ∀ res, kind.Derives objVal text res ↔ res = v
  | .error error pos => (∀ res, ¬ kind.Derives objVal text res) ∧
      ∃ cur, pos = reportedPos kind text cur ∧
        (cur ≤ text.len ∨ error = .invalidString ∧ kind.Stopped isa text cur)
  | .wild => False

/-- The white space behind a single value. -/
theorem singleTrailing_skips (hholds : kind.Holds text) {cur : Nat} (hle : cur ≤ text.len) :
    Skips text cur (singleTrailing env kind text cur) ∧
      isWs (text.read (singleTrailing env kind text cur)) = false := by
  unfold singleTrailing
  cases kind with
  | str kind => exact spacesThenWs_skips (@rootReaders_spec _ _ env.isa _ false hholds) hle
  | bytes => exact ⟨skipSpaces_skips _ hle, skipSpaces_stops hle (Nat.le_refl _)⟩

/-- Behind a document there is nothing but white space. -/
theorem ws_end_iff {cur cur' : Nat} (hskip : Skips text cur cur')
    (hws : isWs (text.read cur') = false) : Ws (text.rest cur) [] ↔ text.len ≤ cur' := by
  rw [Ws.iff hskip.ws noWs_nil]
  constructor
  · intro hend
    by_contra hlt
    rw [Source.rest_of_lt (Nat.lt_of_not_le hlt)] at hend
    exact absurd (hend.eq_of_noWs (noWs_cons.mpr hws)) (by simp)
  · intro hend
    rw [Nat.le_antisymm hskip.bound hend, Source.rest_len]
    exact .nil _

theorem makeSingle_value (single : Single) :
    makeSingle (valuesWith objVal) () single = (some single.val, ()) := by
  cases single <;> rfl

/-- `loads_root_single`. -/
theorem loadsRootSingle_spec (hholds : kind.Holds text) (hreserve : env.reserve text.len ≠ none)
    (hlt : 0 < text.len) (hws : isWs (text.read 0) = false)
    (hopen : ¬ (text.read 0 = 0x5B ∨ text.read 0 = 0x7B)) :
    TextRight objVal env.isa kind text
      (loadsRootSingle env kind (valuesWith objVal) text ()).1 := by
  have hpos := singlePos_eq kind hopen
  have hsingle := @readSingle_spec _ _ _ objVal hlt hholds hreserve hws hopen
  unfold loadsRootSingle
  generalize readSingle env kind text = read at hsingle
  cases read with
  | wild => exact hsingle
  | fail error cur => exact ⟨hsingle.1, cur, hpos cur, hsingle.2⟩
  | found single error cur =>
      obtain ⟨hle, hdenotes⟩ := hsingle
      dsimp only
      rw [makeSingle_value]
      dsimp only
      split
      · obtain ⟨hskip, hstops⟩ := @singleTrailing_skips env _ _ hholds _ hle
        have hend := ws_end_iff hskip hstops
        split
        · rename_i hmore
          refine ⟨fun res hdoc => ?_, _, hpos _, .inl hskip.bound⟩
          exact Nat.not_le.mpr hmore (hend.mp ((hdenotes res).mp hdoc).2)
        · rename_i hdone
          intro res
          rw [hdenotes res, hend]
          exact and_iff_left (Nat.le_of_not_lt hdone)
      · rename_i hdone
        intro res
        rw [hdenotes res, Nat.le_antisymm hle (Nat.le_of_not_lt hdone), Source.rest_len]
        exact and_iff_left (.nil _)

/-- `loads_root_pretty` and `loads_root_minify`. -/
theorem loadsRoot_spec (hholds : kind.Holds text) (hreserve : env.reserve text.len ≠ none)
    (hopen : text.read 0 = 0x5B ∨ text.read 0 = 0x7B) (hook : PyVal → Unit → Option PyVal × Unit)
    (pretty : Bool) :
    ∃ result,
      loadsRoot env kind (valuesWith objVal) noHooks hook text () pretty = some (result, ()) ∧
      TextRight objVal env.isa kind text result := by
  obtain ⟨scratch, hscratch⟩ := Option.ne_none_iff_exists'.mp hreserve
  have hspec := @rootReaders_spec text kind env.isa scratch pretty hholds
  obtain ⟨result, s, hrun, hbound, hanswers⟩ := run_start hook hspec hopen
  have hpos := reportedPos_open kind hopen s.cur
  unfold loadsRoot
  rw [hscratch]
  dsimp only
  rw [hrun]
  cases result with
  | ok v => exact ⟨.ok v, rfl, hanswers⟩
  | error error =>
      refine ⟨.error error s.cur, rfl, hanswers, s.cur, hpos.symm, ?_⟩
      rcases hbound with hinvalid | hle
      · obtain rfl := Except.error.inj hinvalid
        obtain ⟨c, habs, -⟩ := @start_abs (rootReaders env.isa scratch kind pretty) kind.code.enc
          numVal objVal _ hopen
        refine .inr ⟨rfl, @run_stops text _ (fun stop => kind.Stopped env.isa text stop) _ _ _ hook
          _ _ hspec _ _ habs (fun _ _ isKey q last _ hlt hread => ?_) hrun⟩
        exact rootReaders_stop hholds isKey hlt hread
      · exact .inl hle

/-! ## The call -/

/-- What a call must give: the value the grammar derives for the text, or an error where it derives
none, with the cursor inside the text or where a string ran out. -/
def ReadsRight (objVal : List (PyStr × PyVal) → PyVal) (isa : Isa) (kind : SourceKind)
    (src : Source) : Loaded PyVal → Prop
  | .ok v => ∀ res, kind.Derives objVal src res ↔ res = v
  | .error error pos => (∀ res, ¬ kind.Derives objVal src res) ∧ ∃ start cur, start ≤ src.len ∧
      pos = reportedPos kind (src.suffix start) cur ∧
      (start + cur ≤ src.len ∨ error = .invalidString ∧ kind.Stopped isa (src.suffix start) cur)
  | .wild => False

/-- What `loads` must give. -/
def LoadsRight (isa : Isa) (kind : SourceKind) (src : Source) : Loaded PyVal → Prop :=
  ReadsRight dictOf isa kind src

theorem not_derives_of_ws (h : Ws src.units []) (res : PyVal) : ¬ kind.Derives objVal src res := by
  rw [derives_iff, Source.rest_zero, valNext_ws h]
  exact not_valNext_nil

theorem read_zero_of_units {start : Nat} (hlt : start < src.len)
    (hunits : text.units = src.rest start) : text.read 0 = src.read start := by
  have hlen : 0 < text.len := by
    rw [Source.len, hunits, Source.length_rest]
    omega
  have hrest := Source.rest_of_lt hlen
  rw [Source.rest_zero, hunits, Source.rest_of_lt hlt, List.cons.injEq] at hrest
  exact hrest.1.symm

/-- The text the root function reads is what the source holds behind its white space. -/
structure DocumentText (kind : SourceKind) (src : Source) (start : Nat) (text : Source) : Prop where
  holds : kind.Holds text
  units : text.units = src.rest start
  len : start + text.len = src.len
  lt : 0 < text.len
  noSpace : isWs (text.read 0) = false
  reported : ∀ cur, reportedPos kind text cur = reportedPos kind (src.suffix start) cur
  stopped : ∀ isa stop, kind.Stopped isa text stop → kind.Stopped isa (src.suffix start) stop

/-- Where the copy can be made, there is a text to read. -/
theorem rootText_some (hholds : kind.Holds src) (hcopies : kind = .bytes → ∀ n, env.copies n = true)
    (hpos : 0 < src.len) {start : Nat} (hskip : skipLeading src = some start) :
    ∃ text, rootText env kind src start = some text ∧ DocumentText kind src start text := by
  have hstart := skipLeading_lt hpos hskip
  obtain ⟨text, htext, hunits, hstopped⟩ : ∃ text, rootText env kind src start = some text ∧
      text.units = src.rest start ∧
      ∀ isa stop, kind.Stopped isa text stop → kind.Stopped isa (src.suffix start) stop := by
    unfold rootText
    cases kind with
    | str kind => exact ⟨_, rfl, rfl, fun _ _ h => h⟩
    | bytes => exact ⟨_, if_pos (hcopies rfl _), rfl, fun _ _ h => h⟩
  have hlen : text.len = src.len - start := by
    rw [Source.len, hunits]
    exact Source.length_rest
  have hread := read_zero_of_units hstart hunits
  have hsuffix : (src.suffix start).read 0 = src.read start := read_zero_of_units hstart rfl
  refine ⟨text, htext, Holds.rootText hholds htext, hunits, by omega, by omega, ?_, ?_, hstopped⟩
  · rw [hread]
    exact (skipLeading_some hskip).2
  · intro cur
    rw [reportedPos, reportedPos, hread, hsuffix]

/-- A call without hooks that can have memory gives what it must. Only `bytes` are copied. -/
theorem decode_right (hholds : kind.Holds src) (hreserve : ∀ n, env.reserve n ≠ none)
    (hcopies : kind = .bytes → ∀ n, env.copies n = true)
    (hook : PyVal → Unit → Option PyVal × Unit) :
    ∃ result, decode env kind (valuesWith objVal) noHooks hook src () = some (result, ()) ∧
      ReadsRight objVal env.isa kind src result := by
  have hempty := reportedPos_zero kind (src.suffix 0)
  unfold decode decodeWith
  split
  · rename_i hlen
    have hunits : src.units = [] := List.eq_nil_of_length_eq_zero hlen
    refine ⟨_, rfl, not_derives_of_ws (hunits ▸ .nil _), 0, 0, Nat.zero_le _, hempty.symm, ?_⟩
    exact .inl (Nat.zero_le _)
  rename_i hlen
  have hpos : 0 < src.len := Nat.pos_of_ne_zero hlen
  cases hskip : skipLeading src with
  | none =>
      refine ⟨_, rfl, not_derives_of_ws (skipLeading_none hskip), 0, 0, Nat.zero_le _,
        hempty.symm, ?_⟩
      exact .inl (Nat.zero_le _)
  | some start =>
      obtain ⟨hskips, -⟩ := skipLeading_some hskip
      obtain ⟨text, htext, hdoc⟩ := rootText_some hholds hcopies hpos hskip
      have hlen := hdoc.len
      have hdenotes : ∀ res, kind.Derives objVal src res ↔ kind.Derives objVal text res := by
        intro res
        rw [derives_iff, valNext_ws hskips.ws, ← hdoc.units, derives_iff, Source.rest_zero]
      have hright : ∃ result,
          loadsText env kind (valuesWith objVal) noHooks hook shouldLoadsPretty text () =
            some (result, ()) ∧ TextRight objVal env.isa kind text result := by
        unfold loadsText
        split
        · rename_i hopen
          exact loadsRoot_spec hdoc.holds (hreserve _) (isContainer_iff.mp hopen) hook _
        · rename_i hopen
          exact ⟨_, rfl, loadsRootSingle_spec hdoc.holds (hreserve _) hdoc.lt hdoc.noSpace
            fun h => hopen (isContainer_iff.mpr h)⟩
      obtain ⟨result, hresult, hspec⟩ := hright
      refine ⟨result, ?_, ?_⟩
      · dsimp only
        rw [htext]
        exact hresult
      · cases result with
        | ok v => exact fun res => (hdenotes res).trans (hspec res)
        | wild => exact hspec
        | error error pos =>
            obtain ⟨hnone, cur, hreport, hcur⟩ := hspec
            refine ⟨fun res hres => hnone res ((hdenotes res).mp hres), start, cur, by omega,
              hreport.trans (hdoc.reported cur), ?_⟩
            exact hcur.imp (fun h => by omega) (And.imp_right (hdoc.stopped _ _))

/-- Where the grammar derives a value, it is returned. -/
theorem decode_derived (hholds : kind.Holds src) (hreserve : ∀ n, env.reserve n ≠ none)
    (hcopies : kind = .bytes → ∀ n, env.copies n = true)
    (hook : PyVal → Unit → Option PyVal × Unit) {v : PyVal} (h : kind.Derives objVal src v) :
    decode env kind (valuesWith objVal) noHooks hook src () = some (.ok v, ()) := by
  obtain ⟨result, hresult, hright⟩ := @decode_right env kind src objVal hholds hreserve hcopies hook
  rw [hresult]
  cases result with
  | ok v' => rw [(hright v).mp h]
  | error error pos => exact absurd h (hright.1 v)
  | wild => exact hright.elim

/-! ## `str` and UTF-8 -/

/-- A text without surrogates and its UTF-8 form hold the same characters. -/
theorem recodes_utf8 {s : List Nat} (h : ∀ c ∈ s, Utf8.isScalar c = true) :
    Recodes .plain .utf8 s (s.flatMap Utf8.bytes) := by
  induction s with
  | nil => exact .nil
  | cons c s ih =>
      obtain ⟨hc, hs⟩ := List.forall_mem_cons.mp h
      exact .cons (u := [c]) rfl (if_pos hc) (ih hs)

/-- Two calls give the same value, or both fail. -/
def Loaded.Agrees : Loaded PyVal → Loaded PyVal → Prop
  | .ok v, .ok v' => v = v'
  | .error _ _, .error _ _ => True
  | _, _ => False

/-- Calls on texts that the grammar derives the same values for agree. -/
theorem LoadsRight.agrees {isa isa' : Isa} {kind' : SourceKind} {src' : Source}
    {result result' : Loaded PyVal} (h : LoadsRight isa kind src result)
    (h' : LoadsRight isa' kind' src' result')
    (hsame : ∀ res, kind.Denotes src res ↔ kind'.Denotes src' res) : result.Agrees result' := by
  cases result with
  | ok v =>
      have hv := (hsame v).mp ((h v).mpr rfl)
      cases result' with
      | ok v' => exact (h' v).mp hv
      | error error pos => exact absurd hv (h'.1 v)
      | wild => exact h'
  | error error pos =>
      cases result' with
      | ok v' => exact absurd ((hsame v').mpr ((h' v').mpr rfl)) (h.1 v')
      | error error pos => exact trivial
      | wild => exact h'
  | wild => exact h.elim

/-- For every `str` without surrogates, stored in any kind, and its UTF-8 form, two calls without
hooks that can have memory return the same value or both fail, whatever the instruction sets and
the memory around the texts. -/
theorem str_and_utf8_agree (env env' : DecodeEnv) (kind : StrKind) (src src' : Source)
    (hfits : src.Fits kind) (hscalar : ∀ c ∈ src.units, Utf8.isScalar c = true)
    (hbytes : src'.IsBytes) (hunits : src'.units = src.units.flatMap Utf8.bytes)
    (hreserve : ∀ n, env.reserve n ≠ none) (hreserve' : ∀ n, env'.reserve n ≠ none)
    (hcopies : ∀ n, env'.copies n = true) (hook : PyVal → Unit → Option PyVal × Unit) :
    ∃ result result', decode env (.str kind) valueOps noHooks hook src () = some (result, ()) ∧
      decode env' .bytes valueOps noHooks hook src' () = some (result', ()) ∧
      result.Agrees result' := by
  obtain ⟨result, hresult, hright⟩ := @decode_right env (.str kind) src dictOf hfits hreserve
    nofun hook
  obtain ⟨result', hresult', hright'⟩ := @decode_right env' .bytes src' dictOf hbytes hreserve'
    (fun _ => hcopies) hook
  have hfirst : LoadsRight env.isa (.str kind) src result := hright
  refine ⟨result, result', hresult, hresult', hfirst.agrees hright' fun res => ?_⟩
  rw [SourceKind.Denotes, SourceKind.Denotes, SourceKind.Derives, SourceKind.Derives, hunits]
  exact Document.recode (recodes_utf8 hscalar)

theorem str_and_utf8_agree_accent :
    let env : DecodeEnv := ⟨.avx2, fun _ => some fun _ => 0, fun _ => true, fun _ => 0, fun _ => 0⟩
    let src := Source.ofUnits [0x5B, 0x22, 0xE9, 0x22, 0x5D]
    let src' := Source.ofUnits [0x5B, 0x22, 0xC3, 0xA9, 0x22, 0x5D]
    ∃ result result', decode env (.str .ucs1) valueOps noHooks (fun v rt => (some v, rt)) src () =
        some (result, ()) ∧
      decode env .bytes valueOps noHooks (fun v rt => (some v, rt)) src' () = some (result', ()) ∧
      result.Agrees result' := by
  intro env src src'
  exact str_and_utf8_agree env env .ucs1 src src' (show ∀ u ∈ src.units, u ≤ 0xFF by decide)
    (by decide) (Source.isBytes_ofUnits (by decide)) rfl (fun _ => nofun) (fun _ => nofun)
    (fun _ => rfl) _

end SsrJson.Decode
