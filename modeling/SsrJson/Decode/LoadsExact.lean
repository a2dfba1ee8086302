import SsrJson.Decode.LiteralRounding
import SsrJson.Decode.Loads
import SsrJson.Decode.Unclosed
import SsrJson.Spec.Literals

/-!
# When `loads` gives exactly the value

A text means the value the grammar derives for it with every literal read as the number it denotes.
A call without hooks gives that value, or fails inside the text where there is none, exactly when
every literal that is kept in the value is rounded right and the call comes to no string that runs
out behind the end of the text.
-/

namespace SsrJson.Decode

open Spec Binary64

variable {env : DecodeEnv} {kind : SourceKind} {src text : Source}

/-! ## The numbers literals denote -/

theorem RightNumber.unique {p : NumberParts} {num num' : Num} (h : RightNumber p num)
    (h' : RightNumber p num') : num = num' := by
  unfold RightNumber at h h'
  by_cases hint : p.frac = [] ∧ p.exp = none ∧
      (if p.neg then digitsVal p.int ≤ 2 ^ 63 else digitsVal p.int < 2 ^ 64)
  · rw [if_pos hint] at h h'
    exact h.trans h'.symm
  · rw [if_neg hint] at h h'
    obtain ⟨raw, hnear, rfl⟩ := h
    obtain ⟨raw', hnear', rfl⟩ := h'
    rw [hnear.unique hnear']

theorem exists_rightNumber (p : NumberParts) : ∃ num, RightNumber p num := by
  unfold RightNumber
  by_cases hint : p.frac = [] ∧ p.exp = none ∧
      (if p.neg then digitsVal p.int ≤ 2 ^ 63 else digitsVal p.int < 2 ^ 64)
  · refine ⟨.int (if p.neg then -(digitsVal p.int : Int) else digitsVal p.int), ?_⟩
    rw [if_pos hint]
  · obtain ⟨raw, hnear⟩ := exists_nearest p.value
    refine ⟨.float (.ofNat 64 (raw + if p.neg then 2 ^ 63 else 0)), ?_⟩
    rw [if_neg hint]
    exact ⟨raw, hnear, rfl⟩

/-- The number a literal denotes. -/
noncomputable def exactNum (t : List Nat) : Num :=
  match lexNumber t with
  | some (p, _) => Classical.choose (exists_rightNumber p)
  | none => .int 0

theorem exactNum_eq_iff {p : NumberParts} {t : List Nat} (ht : p.IsText t) {num : Num} :
    exactNum t = num ↔ RightNumber p num := by
  have hlex := lexNumber_complete ht (r := []) (by simp [NumberEnds])
  rw [List.append_nil] at hlex
  have hright := Classical.choose_spec (exists_rightNumber p)
  rw [exactNum, hlex]
  constructor
  · rintro rfl
    exact hright
  · exact hright.unique

/-- The reader gives a literal the number it denotes, inside of its chunks, exactly when it
`RoundsRight`. -/
theorem numVal_exact_iff {p : NumberParts} {t : List Nat} (ht : p.IsText t) :
    numVal t = exactNum t ∧ ChunksSuffice p ↔ RoundsRight p := by
  rw [eq_comm, exactNum_eq_iff ht, numVal_text ht]
  exact partsVal_right_iff ht

/-! ## What a text means -/

/-- The value of a text, its literals read as the numbers they denote. -/
def SourceKind.Means (kind : SourceKind) (src : Source) (res : PyVal) : Prop :=
  Document kind.code.enc exactNum dictOf decodeMaxRecursion src.units res

/-- The literals kept in the value. -/
def SourceKind.Keeps (kind : SourceKind) (src : Source) (t : List Nat) : Prop :=
  KeptLiteral kind.code.enc decodeMaxRecursion src.units t

/-- For a text with a meaning the grammar derives a value. -/
theorem exists_denotes {res : PyVal} (h : kind.Means src res) : ∃ v, kind.Denotes src v := by
  obtain ⟨v, hv, -⟩ := Document.labels h
  exact ⟨_, hv.unlabel⟩

/-- The value derived is the one meant exactly where the kept literals get their numbers. -/
theorem means_iff {v : PyVal} (h : ∀ res, kind.Denotes src res ↔ res = v) :
    (∀ res, kind.Means src res ↔ res = v) ↔
      ∀ t, kind.Keeps src t → ∀ p : NumberParts, p.IsText t → numVal t = exactNum t := by
  have hlabels : ∀ {u : PyVal}, Document kind.code.enc label dictOf decodeMaxRecursion src.units u →
      u.mapNum (unlabel numVal) = v := fun hu => (h _).mp hu.unlabel
  constructor
  · rintro hmeans t ⟨u, hu, ht⟩ p htext
    have hsame := (hlabels hu).trans ((hmeans _).mp hu.unlabel).symm
    exact (mapNum_unlabel_eq_iff hu).mp hsame t (numberText_iff.mpr ⟨p, htext⟩) ht
  · intro hkept
    -- With the numbers of the reader or the exact ones, the labels make the same value.
    have hsame : ∀ {u : PyVal}, Document kind.code.enc label dictOf decodeMaxRecursion src.units u →
        u.mapNum (unlabel numVal) = u.mapNum (unlabel exactNum) := by
      intro u hu
      refine (mapNum_unlabel_eq_iff hu).mpr fun t htext ht => ?_
      obtain ⟨p, hp⟩ := numberText_iff.mp htext
      exact hkept t ⟨u, hu, ht⟩ p hp
    intro res
    constructor
    · intro hres
      obtain ⟨u, hu, rfl⟩ := Document.labels hres
      rw [← hsame hu, hlabels hu]
    · rintro rfl
      obtain ⟨u, hu, -⟩ := Document.labels ((h res).mpr rfl)
      have hmeans : kind.Means src (u.mapNum (unlabel exactNum)) := hu.unlabel
      rwa [← hsame hu, hlabels hu] at hmeans

/-! ## Strings that run out -/

/-- The call comes to the string whose quote is at `q`: the text begins with it, or it is due in a
state the root machine comes through. -/
def ComesToString (env : DecodeEnv) (kind : SourceKind) (text : Source) (q : Nat) : Prop :=
  if text.read 0 ≤ 0xFF ∧ charIsContainer (text.read 0) then
    ∃ scratch s, env.reserve text.len = some scratch ∧
      Relation.ReflTransGen
        (Root.Jumps (rootReaders env.isa scratch kind (shouldLoadsPretty text)) dictOf text)
        (Root.start (rootReaders env.isa scratch kind (shouldLoadsPretty text)) text ()) s ∧
      Root.StringDue (rootReaders env.isa scratch kind (shouldLoadsPretty text)) text s.label
        s.cur q
  else q = 0 ∧ text.read 0 = 0x22

/-- The call comes to a string of the text that runs out. -/
def Overshoots (env : DecodeEnv) (kind : SourceKind) (text : Source) : Prop :=
  ∃ q < text.len, ComesToString env kind text q ∧ kind.Unclosed env.isa text q

/-- Where a call ends: a cursor behind the text comes from a string that runs out, and the other
way round. -/
def CursorRight (env : DecodeEnv) (kind : SourceKind) (text : Source) : Loaded PyVal → Prop
  | .ok _ => ¬ Overshoots env kind text
  | .error _ pos => ∃ cur, pos = reportedPos kind text cur ∧
      (text.len < cur ↔ Overshoots env kind text)
  | .wild => True

/-- Only a string is an invalid string. -/
theorem readSingle_invalidString {cur : Nat}
    (h : readSingle env kind text = .fail .invalidString cur) : text.read 0 = 0x22 := by
  unfold readSingle at h
  dsimp only at h
  by_contra hquote
  rw [if_neg hquote] at h
  repeat' split at h
  all_goals cases h

section Single

variable (hholds : kind.Holds text) (hreserve : env.reserve text.len ≠ none) (hlt : 0 < text.len)
  (hws : isWs (text.read 0) = false) (hopen : ¬ (text.read 0 = 0x5B ∨ text.read 0 = 0x7B))

include hholds hreserve hlt hws hopen

/-- `loads_root_single` up to the object. -/
theorem readSingle_cursor :
    match readSingle env kind text with
    | .found _ _ cur => cur ≤ text.len ∧ ¬ Overshoots env kind text
    | .fail _ cur => text.len < cur ↔ Overshoots env kind text
    | .wild => True := by
  have hover : Overshoots env kind text ↔ text.read 0 = 0x22 ∧ kind.Unclosed env.isa text 0 := by
    have hcomes : ∀ q, ComesToString env kind text q ↔ q = 0 ∧ text.read 0 = 0x22 := by
      intro q
      unfold ComesToString
      rw [if_neg fun h => hopen (isContainer_iff.mp h)]
    constructor
    · rintro ⟨q, -, hstring, hunclosed⟩
      obtain ⟨rfl, hquote⟩ := (hcomes q).mp hstring
      exact ⟨hquote, hunclosed⟩
    · rintro ⟨hquote, hunclosed⟩
      exact ⟨0, hlt, (hcomes 0).mpr ⟨rfl, hquote⟩, hunclosed⟩
  have hspec := @readSingle_spec env kind text dictOf hlt hholds hreserve hws hopen
  by_cases hquote : text.read 0 = 0x22
  · obtain ⟨scratch, hstring⟩ := @singleString_reserved env kind text hreserve
    have hread := @rootReaders_unclosed text env.isa kind scratch false hholds false 0 hlt
    have hsingle : ∀ made last,
        (rootReaders env.isa scratch kind false).loadsString false text 0 = (made, last) →
        readSingle env kind text = made.elim (.fail .invalidString last)
          fun made => .found (.string made) .invalidString last := by
      intro made last hload
      unfold readSingle
      rw [hquote, hstring, hload]
      cases made <;> rfl
    rcases hload : (rootReaders env.isa scratch kind false).loadsString false text 0 with
      ⟨_ | made, last⟩
    all_goals
      rw [hsingle _ _ hload] at hspec ⊢
      rw [hload] at hread
    · show text.len < last ↔ _
      rw [hover, ← hread]
      constructor
      · exact fun hpast => ⟨hquote, last, rfl, hpast⟩
      · rintro ⟨-, last', heq, hpast⟩
        cases heq
        exact hpast
    · refine ⟨hspec.1, fun h => ?_⟩
      obtain ⟨last', heq, -⟩ := hread.mpr (hover.mp h).2
      cases heq
  · have hnot : ¬ Overshoots env kind text := fun h => hquote (hover.mp h).1
    cases hsingle : readSingle env kind text with
    | wild => trivial
    | found single error cur =>
        rw [hsingle] at hspec
        exact ⟨hspec.1, hnot⟩
    | fail error cur =>
        rw [hsingle] at hspec
        refine iff_of_false (fun hpast => ?_) hnot
        rcases hspec.2 with hle | ⟨rfl, -⟩
        · omega
        · exact hquote (readSingle_invalidString hsingle)

/-- `loads_root_single`. -/
theorem loadsRootSingle_cursor :
    CursorRight env kind text (loadsRootSingle env kind (valuesWith dictOf) text ()).1 := by
  have hpos := singlePos_eq kind hopen
  have hsingle := readSingle_cursor hholds hreserve hlt hws hopen
  unfold loadsRootSingle
  generalize readSingle env kind text = read at hsingle
  cases read with
  | wild => trivial
  | fail error cur => exact ⟨cur, hpos cur, hsingle⟩
  | found single error cur =>
      obtain ⟨hle, hnot⟩ := hsingle
      dsimp only
      rw [makeSingle_value]
      dsimp only
      split
      · obtain ⟨hskip, -⟩ := @singleTrailing_skips env _ _ hholds _ hle
        split
        · exact ⟨_, hpos _, iff_of_false (Nat.not_lt.mpr hskip.bound) hnot⟩
        · exact hnot
      · exact hnot

end Single

/-- `loads_root_pretty` and `loads_root_minify`. -/
theorem loadsRoot_cursor (hholds : kind.Holds text) (hreserve : env.reserve text.len ≠ none)
    (hopen : text.read 0 = 0x5B ∨ text.read 0 = 0x7B) (hook : PyVal → Unit → Option PyVal × Unit)
    {result : Loaded PyVal}
    (h : loadsRoot env kind (valuesWith dictOf) noHooks hook text () (shouldLoadsPretty text) =
      some (result, ())) : CursorRight env kind text result := by
  obtain ⟨scratch, hscratch⟩ := Option.ne_none_iff_exists'.mp hreserve
  have hspec := @rootReaders_spec text kind env.isa scratch (shouldLoadsPretty text) hholds
  obtain ⟨result', s', hrun, hbound, -⟩ := @run_start _ _ _ dictOf _ hook hspec hopen
  have hpos := reportedPos_open kind hopen s'.cur
  -- A string that runs out ends the run behind the text.
  have hpast : Overshoots env kind text →
      result' = .error .invalidString ∧ text.len < s'.cur := by
    rintro ⟨q, hlt, hcomes, hunclosed⟩
    unfold ComesToString at hcomes
    rw [if_pos (isContainer_iff.mpr hopen)] at hcomes
    obtain ⟨scratch', s, hscratch', hreach, hdue⟩ := hcomes
    obtain rfl : scratch' = scratch := Option.some.inj (hscratch'.symm.trans hscratch)
    obtain ⟨last, haction, hlast⟩ : ∃ last, Root.readAction
        (rootReaders env.isa scratch' kind (shouldLoadsPretty text)) text s.label (Root.ctnLen s)
        s.cur = .fail .invalidString last ∧ text.len < last :=
      hdue.readAction fun isKey => (rootReaders_unclosed hholds isKey hlt).mpr hunclosed
    have hfail : Root.step (rootReaders env.isa scratch' kind (shouldLoadsPretty text))
        (valuesWith dictOf) noHooks text s = .fail .invalidString { s with cur := last } := by
      rw [Root.step_eq, haction]
      rfl
    have hend := run_of_jumps hook hreach hfail hrun
    cases hend
    exact ⟨rfl, hlast⟩
  unfold loadsRoot at h
  rw [hscratch] at h
  dsimp only at h
  rw [hrun] at h
  cases result' with
  | ok v =>
      cases h
      intro hover
      have heq := (hpast hover).1
      cases heq
  | error error =>
      cases h
      refine ⟨s'.cur, hpos.symm, fun hlast => ?_, fun hover => (hpast hover).2⟩
      rcases hbound with hinvalid | hle
      · obtain rfl := Except.error.inj hinvalid
        -- The string that is invalid is one the run came to, and it ran out.
        obtain ⟨c, habs, -⟩ := @start_abs
          (rootReaders env.isa scratch kind (shouldLoadsPretty text)) kind.code.enc numVal dictOf _
          hopen
        refine @run_stops text _ (fun stop => text.len < stop → Overshoots env kind text) _ _ _ hook
          _ _ hspec _ _ habs (fun s₀ hreach isKey q last hdue hlt hread hlast => ?_) hrun hlast
        refine ⟨q, hlt, ?_, (rootReaders_unclosed hholds isKey hlt).mp ⟨last, hread, hlast⟩⟩
        unfold ComesToString
        rw [if_pos (isContainer_iff.mpr hopen)]
        exact ⟨scratch, s₀, hscratch, hreach, hdue⟩
      · omega

/-! ## The call -/

/-- Where the document begins. -/
def docStart (src : Source) : Nat := (skipLeading src).getD 0

/-- The call comes to a string that runs out. -/
def LeavesText (env : DecodeEnv) (kind : SourceKind) (src : Source) : Prop :=
  ∃ start, skipLeading src = some start ∧ Overshoots env kind (src.suffix start)

/-- The copy of `bytes` makes no difference. -/
theorem overshoots_rootText {start : Nat} (h : rootText env kind src start = some text) :
    Overshoots env kind text ↔ Overshoots env kind (src.suffix start) := by
  cases kind with
  | str kind =>
      obtain rfl := Option.some.inj h
      exact Iff.rfl
  | bytes => exact iff_of_false (fun ⟨_, _, _, h⟩ => h) fun ⟨_, _, _, h⟩ => h

/-- Where a call without hooks leaves its cursor. -/
theorem decode_cursor (hholds : kind.Holds src) (hreserve : ∀ n, env.reserve n ≠ none)
    (hcopies : kind = .bytes → ∀ n, env.copies n = true)
    (hook : PyVal → Unit → Option PyVal × Unit) {result : Loaded PyVal}
    (h : decode env kind (valuesWith dictOf) noHooks hook src () = some (result, ())) :
    match result with
    | .ok _ => ¬ LeavesText env kind src
    | .error _ pos => ∃ cur, pos = reportedPos kind (src.suffix (docStart src)) cur ∧
        (src.len < docStart src + cur ↔ LeavesText env kind src)
    | .wild => True := by
  have hempty := fun start => (reportedPos_zero kind (src.suffix start)).symm
  unfold decode decodeWith at h
  split at h
  · -- The text is empty.
    rename_i hlen
    cases h
    refine ⟨0, hempty _, iff_of_false (fun hpast => ?_) ?_⟩
    · have hstart : docStart src = 0 := by
        unfold docStart
        cases hskip : skipLeading src with
        | none => rfl
        | some start =>
            have hle := (skipLeading_some hskip).1.bound
            exact Nat.eq_zero_of_le_zero (hlen ▸ hle)
      omega
    · rintro ⟨start, -, q, hlt, -⟩
      rw [Source.len, show (src.suffix start).units = src.rest start from rfl,
        Source.length_rest] at hlt
      omega
  rename_i hlen
  cases hskip : skipLeading src with
  | none =>
      -- There is only white space.
      rw [hskip] at h
      cases h
      refine ⟨0, hempty _, iff_of_false (fun hpast => ?_) ?_⟩
      · rw [docStart, hskip, Option.getD_none] at hpast
        omega
      · rintro ⟨start, hstart, -⟩
        rw [hskip] at hstart
        cases hstart
  | some start =>
      obtain ⟨text, htext, hdoc⟩ :=
        rootText_some hholds hcopies (Nat.pos_of_ne_zero hlen) hskip
      have hstart : docStart src = start := by
        rw [docStart, hskip, Option.getD_some]
      have hleaves : LeavesText env kind src ↔ Overshoots env kind text := by
        rw [overshoots_rootText htext]
        constructor
        · rintro ⟨start', hstart', hover⟩
          obtain rfl := Option.some.inj (hskip.symm.trans hstart')
          exact hover
        · exact fun hover => ⟨start, hskip, hover⟩
      have hright : CursorRight env kind text result := by
        rw [hskip] at h
        dsimp only at h
        rw [htext] at h
        dsimp only at h
        unfold loadsText at h
        split at h
        · rename_i hopen
          exact loadsRoot_cursor hdoc.holds (hreserve _) (isContainer_iff.mp hopen) hook h
        · rename_i hopen
          have hsingle := @loadsRootSingle_cursor env kind text hdoc.holds (hreserve _) hdoc.lt
            hdoc.noSpace fun h => hopen (isContainer_iff.mpr h)
          rw [Option.some.inj h] at hsingle
          exact hsingle
      rw [hleaves, hstart]
      cases result with
      | ok v => exact hright
      | wild => trivial
      | error error pos =>
          obtain ⟨cur, hreport, hcur⟩ := hright
          refine ⟨cur, hreport.trans (hdoc.reported cur), ?_⟩
          have hlen' := hdoc.len
          rw [← hcur]
          omega

/-- What `loads` must give: exactly the value the text means, all large integers inside of their
chunks, or, where it means none, an error with the cursor inside the text or at its end. -/
def LoadsExactly (kind : SourceKind) (src : Source) : Loaded PyVal → Prop
  | .ok v => (∀ res, kind.Means src res ↔ res = v) ∧
      ∀ t, kind.Keeps src t → ∀ p : NumberParts, p.IsText t → ChunksSuffice p
  | .error _ pos => (∀ res, ¬ kind.Means src res) ∧ ∃ cur,
      pos = reportedPos kind (src.suffix (docStart src)) cur ∧ docStart src + cur ≤ src.len
  | .wild => False

theorem reportedPos_injective : Function.Injective (reportedPos kind text) := by
  intro cur cur' h
  unfold reportedPos singlePos at h
  split at h
  · exact h
  · refine Nat.eq_of_mul_eq_mul_right ?_ h
    cases kind with
    | str kind => cases kind <;> decide
    | bytes => decide

/-- For every source kind, instruction set and text, a call without hooks that can have memory
halts, and gives what it must exactly when the literals kept in the value round right and the call
comes to no string that runs out. -/
theorem loads_exact_iff (env : DecodeEnv) (kind : SourceKind) (src : Source)
    (hholds : kind.Holds src) (hreserve : ∀ n, env.reserve n ≠ none)
    (hcopies : ∀ n, env.copies n = true) (hook : PyVal → Unit → Option PyVal × Unit) :
    (∃ result, decode env kind valueOps noHooks hook src () = some (result, ()) ∧
        LoadsExactly kind src result) ↔
      (∀ t, kind.Keeps src t → ∀ p : NumberParts, p.IsText t → RoundsRight p) ∧
        ¬ LeavesText env kind src := by
  obtain ⟨result, hresult, hright⟩ := @decode_right env kind src dictOf hholds hreserve
    (fun _ => hcopies) hook
  have hcursor := decode_cursor hholds hreserve (fun _ => hcopies) hook hresult
  have hunique : (∃ result, decode env kind valueOps noHooks hook src () = some (result, ()) ∧
      LoadsExactly kind src result) ↔ LoadsExactly kind src result := by
    constructor
    · rintro ⟨result', hresult', hexact⟩
      have hsame := Option.some.inj (hresult'.symm.trans hresult)
      rwa [(Prod.mk.inj hsame).1] at hexact
    · exact fun hexact => ⟨result, hresult, hexact⟩
  rw [hunique]
  cases result with
  | wild => exact hright.elim
  | ok v =>
      have hlits : LoadsExactly kind src (.ok v) ↔
          ∀ t, kind.Keeps src t → ∀ p : NumberParts, p.IsText t → RoundsRight p := by
        show _ ∧ _ ↔ _
        rw [means_iff hright]
        constructor
        · exact fun ⟨hnum, hchunks⟩ t ht p hp =>
            (numVal_exact_iff hp).mp ⟨hnum t ht p hp, hchunks t ht p hp⟩
        · intro hrounds
          have hboth := fun t ht p hp => (numVal_exact_iff hp).mpr (hrounds t ht p hp)
          exact ⟨fun t ht p hp => (hboth t ht p hp).1, fun t ht p hp => (hboth t ht p hp).2⟩
      rw [hlits]
      exact (and_iff_left hcursor).symm
  | error error pos =>
      obtain ⟨hnone, -⟩ := hright
      obtain ⟨cur, hpos, hcur⟩ := hcursor
      have hmeans : ∀ res, ¬ kind.Means src res := by
        intro res hres
        obtain ⟨v, hv⟩ := exists_denotes hres
        exact hnone v hv
      -- Without a value there are no literals kept in it.
      have hkeeps : ∀ t, ¬ kind.Keeps src t := by
        rintro t ⟨u, hu, -⟩
        exact hnone _ hu.unlabel
      constructor
      · rintro ⟨-, cur', hpos', hinside⟩
        obtain rfl := reportedPos_injective (hpos.symm.trans hpos')
        exact ⟨fun t ht => absurd ht (hkeeps t), fun hleaves => by
          have hpast := hcur.mpr hleaves
          omega⟩
      · rintro ⟨-, hinside⟩
        exact ⟨hmeans, cur, hpos, Nat.le_of_not_lt fun hpast => hinside (hcur.mp hpast)⟩

theorem loads_exact_iff_nested :
    let env : DecodeEnv := ⟨.avx2, fun _ => some fun _ => 0, fun _ => true, fun _ => 0, fun _ => 0⟩
    let src := Source.ofUnits [0x20, 0x7B, 0x22, 0x20AC, 0x22, 0x3A, 0x5B, 0x31, 0x5D, 0x7D, 0x0A]
    decode env (.str .ucs2) valueOps noHooks (fun v rt => (some v, rt)) src () =
        some (.ok (.dict [(⟨.ucs2, [0x20AC]⟩, .list [.num (.int 1)])]), ()) ∧
      ((∃ result, decode env (.str .ucs2) valueOps noHooks (fun v rt => (some v, rt)) src () =
          some (result, ()) ∧ LoadsExactly (.str .ucs2) src result) ↔
        (∀ t, SourceKind.Keeps (.str .ucs2) src t → ∀ p : NumberParts, p.IsText t →
          RoundsRight p) ∧ ¬ LeavesText env (.str .ucs2) src) := by
  refine ⟨rfl, ?_⟩
  have hholds : SourceKind.Holds (.ofUnits [0x20, 0x7B, 0x22, 0x20AC, 0x22, 0x3A, 0x5B, 0x31,
      0x5D, 0x7D, 0x0A]) (.str .ucs2) :=
    show ∀ u ∈ [0x20, 0x7B, 0x22, 0x20AC, 0x22, 0x3A, 0x5B, 0x31, 0x5D, 0x7D, 0x0A],
      u ≤ 0xFFFF by decide
  exact loads_exact_iff _ _ _ hholds (fun _ => Option.some_ne_none _) (fun _ => rfl) _

/-- A string without a closing quote leaves the cursor a register further on, behind the four units
of the text and the zero after them. -/
theorem unterminated_string_overshoots :
    let env : DecodeEnv := ⟨.sse, fun _ => some fun _ => 0, fun _ => true, fun _ => 0, fun _ => 0⟩
    let src := Source.ofUnits [0x22, 0x61, 0x62, 0x63]
    decode env (.str .ascii) valueOps noHooks (fun v rt => (some v, rt)) src () =
        some (.error .invalidString 17, ()) ∧
      ¬ LoadsExactly (.str .ascii) src (.error .invalidString 17) := by
  refine ⟨rfl, ?_⟩
  rintro ⟨-, cur, hpos, hinside⟩
  change 17 = cur * 1 at hpos
  change 0 + cur ≤ 4 at hinside
  omega

end SsrJson.Decode
