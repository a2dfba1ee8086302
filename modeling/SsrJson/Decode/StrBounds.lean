import SsrJson.Decode.StrCopySpec
import SsrJson.Decode.StrStores

/-!
# Bounds of the string decoders' stores

The scratch buffer has room for four bytes per unit of the source and `_TailPadding` bytes more.
All stores stay inside of it but one kind: the last units of a source of one or two bytes each,
where they are widened to four bytes, are stored as a whole register of up to 64 lanes. The loops
get there a whole number of registers behind an escape (`Escapes`), so whether the register ends
inside of the buffer depends on the text alone (`LateRegister`).
-/

namespace SsrJson.Decode

open Spec Store

/-! ## Places in a string -/

section Places

variable (src : Source)

/-- No unit between two positions ends a run of plain characters. -/
def PlainRun (cur last : Nat) : Prop :=
  cur ≤ last ∧ ∀ p, cur ≤ p → p < last → isEscapeUnit (src.read p) = false

/-- Behind plain characters the escape for `val` stands at `p`, and the text goes on at `next`. -/
structure NextEscape (cur p val next : Nat) : Prop where
  plain : PlainRun src cur p
  lt : p < src.len
  backslash : src.read p = 0x5C
  escape : readEscape (src.rest (p + 1)) = some (val, src.rest next)
  after : p + 2 ≤ next
  bound : next ≤ src.len

/-- From `cur` to `next`, right behind an escape if not at `cur`, the text spells `cs`. -/
inductive Escapes : (cur : Nat) → (cs : List Nat) → (next : Nat) → Prop
  | nil (cur) : Escapes cur [] cur
  | cons {cur p val mid cs next} : NextEscape src cur p val mid → Escapes mid cs next →
      Escapes cur (src.slice cur (p - cur) ++ val :: cs) next

variable (isa : Isa) (kind : StrKind)

/-- `cs` was read up to `cur` and what follows is plain up to a position less than a register from
the end of the source, whole registers behind `cur`; there a register of four-byte characters
behind those read so far ends behind `capacity` bytes. -/
def LateRegister (capacity cur : Nat) (cs : List Nat) : Prop :=
  kind ≠ .ucs4 ∧ 0xFFFF < maxChar cs ∧ ∃ t, PlainRun src cur t ∧
    readBatchCount isa kind ∣ t - cur ∧ t < src.len ∧ src.len < t + readBatchCount isa kind ∧
    capacity < 4 * (cs.length + (t - cur) + readBatchCount isa kind)

/-- Somewhere in the string that begins at `start` the last register stored is too long. -/
def LateStore (capacity start : Nat) : Prop :=
  ∃ cur cs, Escapes src start cs cur ∧ LateRegister src isa kind capacity cur cs

end Places

variable {src : Source} {isa : Isa} {kind : StrKind}

namespace PlainRun

variable {cur mid last : Nat}

theorem refl (cur : Nat) : PlainRun src cur cur :=
  ⟨Nat.le_refl cur, fun _ h h' => by omega⟩

theorem trans (h : PlainRun src cur mid) (h' : PlainRun src mid last) : PlainRun src cur last := by
  refine ⟨h.1.trans h'.1, fun p hp hlast => ?_⟩
  by_cases hmid : p < mid
  · exact h.2 p hp hmid
  · exact h'.2 p (by omega) hlast

/-- A plain run does not go past a unit that ends one. -/
theorem le_stop (h : PlainRun src cur last) {p : Nat} (hle : cur ≤ p)
    (hstop : isEscapeUnit (src.read p) = true) : last ≤ p := by
  by_contra hlt
  rw [h.2 p hle (by omega)] at hstop
  cases hstop

theorem of_scan {n : Nat} (h : ∀ i < n, isEscapeUnit (src.read (cur + i)) = false) :
    PlainRun src cur (cur + n) := by
  refine ⟨Nat.le_add_right cur n, fun p hp hlast => ?_⟩
  have hplain := h (p - cur) (by omega)
  rwa [show cur + (p - cur) = p by omega] at hplain

end PlainRun

theorem NextEscape.stop {cur p val next : Nat} (h : NextEscape src cur p val next) :
    isEscapeUnit (src.read p) = true := by
  rw [h.backslash]
  rfl

/-- The next escape is determined. -/
theorem NextEscape.unique {cur p val next p' val' next' : Nat} (h : NextEscape src cur p val next)
    (h' : NextEscape src cur p' val' next') : p' = p ∧ val' = val ∧ next' = next := by
  have hp : p' = p := Nat.le_antisymm (h'.plain.le_stop h.plain.1 h.stop)
    (h.plain.le_stop h'.plain.1 h'.stop)
  subst hp
  have hesc := h.escape.symm.trans h'.escape
  simp only [Option.some.injEq, Prod.mk.injEq] at hesc
  refine ⟨rfl, hesc.1.symm, ?_⟩
  have hlen := congrArg List.length hesc.2
  rw [Source.length_rest, Source.length_rest] at hlen
  have hbound := h.bound
  have hbound' := h'.bound
  omega

/-- The plain units in front of the next escape may be told apart. -/
theorem NextEscape.behind {cur mid p val next : Nat} (h : NextEscape src cur p val next)
    (hmid : PlainRun src cur mid) : NextEscape src mid p val next :=
  ⟨⟨hmid.le_stop h.plain.1 h.stop, fun q hq hlast => h.plain.2 q (hmid.1.trans hq) hlast⟩,
    h.lt, h.backslash, h.escape, h.after, h.bound⟩

theorem NextEscape.before {cur mid p val next : Nat} (h : NextEscape src mid p val next)
    (hmid : PlainRun src cur mid) : NextEscape src cur p val next :=
  ⟨hmid.trans h.plain, h.lt, h.backslash, h.escape, h.after, h.bound⟩

/-- What may be late behind some characters: the last register of their run, or one behind the
next escape. -/
def LateBehind (src : Source) (isa : Isa) (kind : StrKind) (capacity cur : Nat) (cs : List Nat) :
    Prop :=
  ∃ next ds, Escapes src cur ds next ∧ LateRegister src isa kind capacity next (cs ++ ds)

theorem lateBehind_escape {capacity cur p val next : Nat} {cs : List Nat}
    (h : NextEscape src cur p val next) : LateBehind src isa kind capacity cur cs ↔
      LateRegister src isa kind capacity cur cs ∨
        LateBehind src isa kind capacity next (cs ++ src.slice cur (p - cur) ++ [val]) := by
  constructor
  · rintro ⟨last, ds, hescapes, hlate⟩
    cases hescapes with
    | nil =>
        rw [List.append_nil] at hlate
        exact .inl hlate
    | cons hnext hrest =>
        obtain ⟨rfl, rfl, rfl⟩ := h.unique hnext
        refine .inr ⟨last, _, hrest, ?_⟩
        rwa [List.append_assoc, List.append_assoc, List.singleton_append]
  · rintro (hlate | ⟨last, ds, hrest, hlate⟩)
    · refine ⟨cur, [], .nil cur, ?_⟩
      rwa [List.append_nil]
    · refine ⟨last, _, .cons h hrest, ?_⟩
      rwa [List.append_assoc, List.append_assoc, List.singleton_append] at hlate

theorem lateBehind_last {capacity cur : Nat} {cs : List Nat}
    (h : ∀ p val next, ¬ NextEscape src cur p val next) :
    LateBehind src isa kind capacity cur cs ↔ LateRegister src isa kind capacity cur cs := by
  constructor
  · rintro ⟨last, ds, hescapes, hlate⟩
    cases hescapes with
    | nil => rwa [List.append_nil] at hlate
    | cons hnext _ => exact absurd hnext (h _ _ _)
  · intro hlate
    refine ⟨cur, [], .nil cur, ?_⟩
    rwa [List.append_nil]

/-! ## One round -/

/-- The reader's verdict tells the next escape. -/
theorem loopState_nextEscape {cur pos : Nat} (hfits : src.Fits kind) (hrun : PlainRun src cur pos)
    (hlt : pos < src.len) (hstop : isEscapeUnit (src.read pos) = true) :
    match loopState kind src pos with
    | .continue => False
    | .escape val size => NextEscape src cur pos val (pos + size) ∧ val ≤ 0x10FFFF
    | .end | .invalid => ∀ p val next, ¬ NextEscape src cur p val next := by
  have hat : ∀ {p val next}, NextEscape src cur p val next → p = pos := fun h =>
    Nat.le_antisymm (h.plain.le_stop hrun.1 hstop) (hrun.le_stop h.plain.1 h.stop)
  unfold loopState
  dsimp only
  by_cases hquote : src.read pos = 0x22
  · rw [if_pos hquote]
    intro p val next h
    have hback := h.backslash
    rw [hat h, hquote] at hback
    cases hback
  rw [if_neg hquote]
  by_cases hback : src.read pos = 0x5C
  · rw [if_pos hback]
    have hescape := doDecodeEscape_spec hfits hlt
    cases hread : doDecodeEscape kind src pos with
    | none =>
        rw [hread] at hescape
        cases hescape with
        | notFound hnone =>
            intro p val next h
            have hsome := h.escape
            rw [hat h, hnone] at hsome
            cases hsome
    | some found =>
        obtain ⟨val, size⟩ := found
        rw [hread] at hescape
        cases hescape with
        | found htwo hbound hval hsome =>
            exact ⟨⟨hrun, hlt, hback, hsome, Nat.add_le_add_left htwo pos, hbound⟩, hval⟩
  · rw [if_neg hback]
    intro p val next h
    exact hback (hat h ▸ h.backslash)

theorem loopState_ne_continue (pos : Nat) : loopState kind src pos ≠ .continue := by
  unfold loopState
  dsimp only
  split
  · exact LoopState.noConfusion
  split
  · cases doDecodeEscape kind src pos <;> exact LoopState.noConfusion
  · exact LoopState.noConfusion

/-- Registers that hold no unit to stop at are passed as a whole. -/
theorem decodeStrLoop_ends {cur : Nat} (remaining done : Nat) (maxvec : Vec) :
    (decodeStrLoop isa kind src cur remaining done maxvec).state = .continue ∧
        (decodeStrLoop isa kind src cur remaining done maxvec).doneCount =
          done + remaining * readBatchCount isa kind ∨
      (decodeStrLoop isa kind src cur remaining done maxvec).state ≠ .continue ∧
        (decodeStrLoop isa kind src cur remaining done maxvec).doneCount <
          done + remaining * readBatchCount isa kind := by
  induction remaining generalizing done maxvec with
  | zero => exact .inl ⟨rfl, (Nat.add_zero done).symm ▸ (Nat.zero_mul _).symm ▸ rfl⟩
  | succ remaining ih =>
      have hsplit : done + (remaining + 1) * readBatchCount isa kind =
          done + readBatchCount isa kind + remaining * readBatchCount isa kind := by
        rw [Nat.succ_mul]
        omega
      rw [hsplit]
      unfold decodeStrLoop
      dsimp only
      cases hfirst : firstLane (readBatchCount isa kind)
          (fun i => isEscapeUnit (loadVec src (cur + done) i)) with
      | none => exact ih _ _
      | some i =>
          have hi := (firstLane_eq_some.mp hfirst).1
          exact .inr ⟨loopState_ne_continue _, show done + i < _ by omega⟩

/-- Some registers in front of the end hold a unit to stop at, or there is no whole one. -/
def StopsNear (src : Source) (batch cur : Nat) : Prop :=
  src.len < cur + batch ∨ ∃ n p, batch ∣ n ∧ cur + n ≤ src.len ∧ cur ≤ p ∧ p < cur + n ∧
    isEscapeUnit (src.read p) = true

/-- How a round may end. -/
inductive RoundEnd (src : Source) (batch cur : Nat) (scan : Scan) : Prop where
  | passed : scan.state = .continue → PlainRun src cur scan.cur → cur < scan.cur →
      batch ∣ scan.cur - cur → cur + batch ≤ src.len → RoundEnd src batch cur scan
  | escaped {val size} : scan.state = .escape val size →
      NextEscape src cur scan.cur val (scan.cur + size) → val ≤ 0x10FFFF →
      StopsNear src batch cur → RoundEnd src batch cur scan
  | ended : scan.state = .end ∨ scan.state = .invalid →
      (∀ p val next, ¬ NextEscape src cur p val next) → StopsNear src batch cur →
      RoundEnd src batch cur scan

/-- A reader that stopped at a unit. -/
theorem ScanSpec.roundEnd {cur batch : Nat} {maxvec : Vec} {scan : Scan} (hfits : src.Fits kind)
    (h : ScanSpec isa kind src cur maxvec scan) (hstate : scan.state ≠ .continue)
    (hnear : StopsNear src batch cur) : RoundEnd src batch cur scan := by
  rcases h.stop with ⟨hcontinue, -⟩ | ⟨hlt, hstop, heq⟩
  · exact absurd hcontinue hstate
  have hverdict := loopState_nextEscape hfits (PlainRun.of_scan h.plain) hlt hstop
  rw [← heq, ← h.cur_eq] at hverdict
  cases hcase : scan.state with
  | «continue» => exact absurd hcase hstate
  | «end» =>
      rw [hcase] at hverdict
      exact .ended (.inl hcase) hverdict hnear
  | escape val size =>
      rw [hcase] at hverdict
      exact .escaped hcase hverdict.1 hverdict.2 hnear
  | invalid =>
      rw [hcase] at hverdict
      exact .ended (.inr hcase) hverdict hnear

theorem decodeStrLoop_roundEnd {cur count : Nat} {maxvec : Vec} (hfits : src.Fits kind)
    (hcount : 0 < count) (hle : cur + count * readBatchCount isa kind ≤ src.len)
    (h : ScanSpec isa kind src cur maxvec (decodeStrLoop isa kind src cur count 0 maxvec)) :
    RoundEnd src (readBatchCount isa kind) cur (decodeStrLoop isa kind src cur count 0 maxvec) := by
  have hpos := readBatchCount_pos isa kind
  have hone : readBatchCount isa kind ≤ count * readBatchCount isa kind :=
    Nat.le_mul_of_pos_left _ hcount
  rcases @decodeStrLoop_ends src isa kind cur count 0 maxvec with ⟨hstate, hdone⟩ | ⟨hstate, hdone⟩
  · have hcur := h.cur_eq
    rw [hdone, Nat.zero_add] at hcur
    have hrun := PlainRun.of_scan h.plain
    rw [← h.cur_eq] at hrun
    refine .passed hstate hrun (by omega) ?_ (by omega)
    rw [hcur, Nat.add_sub_cancel_left]
    exact Dvd.intro_left count rfl
  · rw [Nat.zero_add] at hdone
    rcases h.stop with ⟨hcontinue, -⟩ | ⟨-, hstop, -⟩
    · exact absurd hcontinue hstate
    · exact h.roundEnd hfits hstate (.inr ⟨_, _, Dvd.intro_left count rfl, hle,
        Nat.le_add_right cur _, Nat.add_lt_add_left hdone cur, hstop⟩)

/-- Every round ends in one of these ways. -/
theorem scanNext_roundEnd {cur : Nat} (hfits : src.Fits kind) (hlt : cur < src.len) (four : Bool)
    (maxvec : Vec) :
    RoundEnd src (readBatchCount isa kind) cur (scanNext isa kind src four cur maxvec) := by
  have hzero : ∀ b, maxvec.checkmax (readBatchCount isa kind) b = true ↔
      maxvec.checkmax (readBatchCount isa kind) b = true ∧
        (trackMax kind = true → ∀ i < 0, src.read (cur + i) ≤ b) := by
    simp
  unfold scanNext
  dsimp only
  split
  · rename_i hfour
    exact decodeStrLoop_roundEnd hfits (by decide) hfour.2
      (decodeStrLoop_spec 4 0 maxvec (by omega) (by simp) hzero (by omega))
  split
  · exact decodeStrLoop_roundEnd hfits (by decide) (by omega)
      (decodeStrLoop_spec 1 0 maxvec (by omega) (by simp) hzero (by omega))
  · rename_i hshort
    have hshort := Nat.lt_of_not_le hshort
    rcases decodeStrTrailing_spec hlt hshort maxvec with h | ⟨hstate, hplain⟩
    · refine h.roundEnd hfits ?_ (.inl hshort)
      unfold decodeStrTrailing
      dsimp only
      split
      · exact LoopState.noConfusion
      · exact loopState_ne_continue _
    · refine .ended (.inr hstate) (fun p val next hnext => ?_) (.inl hshort)
      have hp := hplain (p - cur) (by have := hnext.lt; omega)
      have hle := hnext.plain.1
      rw [show cur + (p - cur) = p by omega, hnext.stop] at hp
      cases hp

/-! ## The stores of a round -/

section Stores

variable {cur capacity : Nat} {w : Writer} (hsound : w.Sound) (hsize : kind.size ≤ w.level)
  (hpos : w.pos ≤ cur) (hlt : cur < src.len) (hcap : 4 * src.len + tailPadding ≤ capacity)
  (hfixed : stringBufferSize - tailPadding ≤ capacity)

include hpos hcap

/-- Whole registers widened to any width are stored in front of what is left of the source. -/
theorem copyLoopStores_within (hlevel : w.level ≤ 4) {count : Nat}
    (hle : cur + count * readBatchCount isa kind ≤ src.len) :
    AllWithin capacity (copyLoopStores isa kind src cur count w) := by
  intro s hs
  obtain ⟨i, hi, rfl⟩ := List.mem_map.mp hs
  have hreg : (i + 1) * readBatchCount isa kind ≤ count * readBatchCount isa kind :=
    Nat.mul_le_mul_right _ (List.mem_range.mp hi)
  rw [Nat.succ_mul] at hreg
  calc w.level * (w.pos + i * readBatchCount isa kind + readBatchCount isa kind)
      ≤ 4 * src.len := Nat.mul_le_mul hlevel (by omega)
    _ ≤ capacity := (Nat.le_add_right _ _).trans hcap

include hsound hsize hlt hfixed

/-- The last units are stored within the capacity but where a register of them is widened to four
bytes and too long. -/
theorem copyTrailingStores_within_iff (hshort : src.len < cur + readBatchCount isa kind) :
    AllWithin capacity (copyTrailingStores isa kind src cur w) ↔
      ¬ (kind ≠ .ucs4 ∧ w.level = 4 ∧ capacity < 4 * (w.pos + readBatchCount isa kind)) := by
  have hpad : tailPadding = 64 := rfl
  have hbuf : stringBufferSize = 524288 := rfl
  have hbatch : readBatchCount isa kind ≤ 64 ∧ readBatchCount isa .ucs4 ≤ 16 := by
    constructor <;> cases isa <;> cases kind <;> decide
  have hstop : ∀ {offset count : Nat} (lanes : Nat → Nat), offset + count ≤ readBatchCount isa kind →
      (kind = .ucs4 ∨ w.level ≤ 2) → (w.storeAt offset count lanes).stop ≤ capacity := by
    intro offset count lanes hn hnarrow
    have hlevel := hsound.level
    show w.level * (w.pos + offset + count) ≤ capacity
    rcases hnarrow with rfl | hnarrow
    · calc w.level * (w.pos + offset + count) ≤ 4 * (w.pos + offset + count) :=
            Nat.mul_le_mul_right _ (by omega)
        _ ≤ capacity := by omega
    · calc w.level * (w.pos + offset + count) ≤ 2 * (w.pos + offset + count) :=
            Nat.mul_le_mul_right _ hnarrow
        _ ≤ capacity := by omega
  have hhalf : isa = .avx2 →
      readBatchCount isa kind = readBatchCount isa kind / 2 + readBatchCount isa kind / 2 := by
    rintro rfl
    cases kind <;> rfl
  unfold copyTrailingStores
  by_cases hnarrow : kind = .ucs4 ∨ w.level ≤ 2
  · -- a register of narrow elements, or of as wide ones as the source has
    refine iff_of_true ?_ fun ⟨hkind, hfour, _⟩ => ?_
    · split
      · have hhalf := hhalf ‹_›
        split
        · exact allWithin_cons.mpr ⟨hstop _ (by split <;> omega) hnarrow,
            allWithin_cons.mpr ⟨hstop _ (by omega) hnarrow, allWithin_nil⟩⟩
        · exact allWithin_cons.mpr ⟨hstop _ (by omega) hnarrow,
            allWithin_cons.mpr ⟨hstop _ (by omega) hnarrow, allWithin_nil⟩⟩
      · exact allWithin_cons.mpr ⟨hstop _ (by omega) hnarrow, allWithin_nil⟩
    · rcases hnarrow with hnarrow | hnarrow
      · exact hkind hnarrow
      · omega
  · rw [not_or, Nat.not_le] at hnarrow
    have hfour : w.level = 4 := by
      have hlevel := hsound.level
      omega
    have hwide : w.level ≠ kind.size := by
      rw [hfour]
      cases kind <;> first | decide | exact absurd rfl hnarrow.1
    simp only [hnarrow.1, hfour, ne_eq, not_false_eq_true, true_and, Nat.not_lt]
    split
    · have hhalf := hhalf ‹_›
      rw [if_neg (hfour ▸ hwide)]
      simp only [avx2TrailingWidenStores, allWithin_cons, Store.stop, Writer.storeAt, hfour]
      constructor
      · intro h
        have := h.2.1
        omega
      · exact fun h => ⟨by omega, by omega, allWithin_nil⟩
    · simp only [allWithin_cons, Store.stop, Writer.storeAt, hfour, Nat.add_zero]
      exact and_iff_left allWithin_nil

end Stores

/-! ## All rounds -/

/-- A multiple less than a step above another one is not above it. -/
theorem le_of_dvd_of_lt_add {d x y : Nat} (hx : d ∣ x) (hy : d ∣ y) (h : x < y + d) : x ≤ y := by
  obtain ⟨a, rfl⟩ := hx
  obtain ⟨b, rfl⟩ := hy
  refine Nat.mul_le_mul_left d (Nat.le_of_lt_succ ?_)
  exact Nat.lt_of_mul_lt_mul_left (h.trans_eq (Nat.mul_succ d b).symm)

variable {s cur capacity : Nat} {cs : List Nat}

/-- The last register of a run is the one at the cursor, or there is none. -/
theorem lateRegister_iff (hrun : PlainRun src s cur) (hdvd : readBatchCount isa kind ∣ cur - s)
    (hlt : cur < src.len) (hnear : StopsNear src (readBatchCount isa kind) cur) :
    LateRegister src isa kind capacity s cs ↔ src.len < cur + readBatchCount isa kind ∧
      kind ≠ .ucs4 ∧ 0xFFFF < maxChar cs ∧
      capacity < 4 * (cs.length + (cur - s) + readBatchCount isa kind) := by
  have hs := hrun.1
  constructor
  · rintro ⟨hkind, hwide, t, hplain, htdvd, htlt, htlast, htlate⟩
    have ht := hplain.1
    have hle : cur - s ≤ t - s := le_of_dvd_of_lt_add hdvd htdvd (by omega)
    rcases hnear with hshort | ⟨n, p, hn, hbound, hp, hpn, hstop⟩
    · have hle' : t - s ≤ cur - s := le_of_dvd_of_lt_add htdvd hdvd (by omega)
      obtain rfl : t = cur := by omega
      exact ⟨hshort, hkind, hwide, htlate⟩
    · -- the registers behind the cursor hold a stop, and `t` would lie behind all of them
      have hpast : cur - s + n ≤ t - s :=
        le_of_dvd_of_lt_add (Nat.dvd_add hdvd hn) htdvd (by omega)
      have htp := hplain.le_stop (hs.trans hp) hstop
      omega
  · exact fun ⟨hshort, hkind, hwide, hlate⟩ =>
      ⟨hkind, hwide, cur, hrun, hdvd, hlt, hshort, hlate⟩

/-- Nothing is stored behind the end of the source. -/
theorem not_lateBehind_of_end (hrun : PlainRun src s src.len)
    (hdvd : readBatchCount isa kind ∣ src.len - s) : ¬ LateBehind src isa kind capacity s cs := by
  have hno : ∀ p val next, ¬ NextEscape src s p val next := fun p val next h =>
    absurd (hrun.le_stop h.plain.1 h.stop) (Nat.not_le.mpr h.lt)
  rw [lateBehind_last hno]
  rintro ⟨-, -, t, hplain, htdvd, htlt, htlast, -⟩
  have hs := hrun.1
  have ht := hplain.1
  have hle : src.len - s ≤ t - s := le_of_dvd_of_lt_add hdvd htdvd (by omega)
  omega

/-- What the scratch buffer stands for in the middle of a run. -/
theorem Records.run_pos {w : Writer} {maxvec : Vec}
    (h : Records isa kind w maxvec (cs ++ src.slice s (cur - s))) :
    w.pos = cs.length + (cur - s) := by
  have hlength := congrArg List.length h.content
  simp only [Writer.content, List.length_append, ByteBuffer.length_loadList, Source.slice,
    List.length_map, List.length_range] at hlength
  exact hlength

/-- A run begins with nothing read in it. -/
theorem Records.newRun {w : Writer} {maxvec : Vec} (h : Records isa kind w maxvec cs) (s : Nat) :
    Records isa kind w maxvec (cs ++ src.slice s (s - s)) := by
  rwa [Nat.sub_self, Source.slice_zero, List.append_nil]

/-- Narrow sources are widened to four bytes for the characters of escapes only. -/
theorem Records.wide_iff {w : Writer} {maxvec : Vec} (hfits : src.Fits kind) (hle : cur ≤ src.len)
    (h : Records isa kind w maxvec (cs ++ src.slice s (cur - s))) (hs : s ≤ cur)
    (hkind : kind ≠ .ucs4) : w.level = 4 ↔ 0xFFFF < maxChar cs := by
  have hslice : maxChar (src.slice s (cur - s)) ≤ 0xFFFF := by
    refine (maxChar_slice_le hfits (by omega)).trans ?_
    cases kind <;> first | decide | exact absurd rfl hkind
  have hmax := maxChar_append cs (src.slice s (cur - s))
  have hlevel := h.sound.level
  have hbound := h.fits
  constructor
  · intro hfour
    have hwide := (h.four hfour).resolve_left hkind
    omega
  · intro hwide
    rcases hlevel with hone | htwo | hfour
    · rw [hone] at hbound
      omega
    · rw [htwo] at hbound
      omega
    · exact hfour

section Rounds

variable (hcap : 4 * src.len + tailPadding ≤ capacity)

include hcap

/-- The stores of a round that passes whole registers. -/
theorem copyNextStores_within {w : Writer} {maxvec : Vec}
    (h : Records isa kind w maxvec (cs ++ src.slice s (cur - s))) (hs : s ≤ cur)
    (hcs : cs.length ≤ s) (hlong : cur + readBatchCount isa kind ≤ src.len) :
    AllWithin capacity (copyNextStores isa kind src cur w) := by
  have hpos := h.run_pos
  have hlevel : w.level ≤ 4 := by
    have := h.sound.level
    omega
  unfold copyNextStores
  dsimp only
  split
  · exact copyLoopStores_within (by omega) hcap hlevel ‹_›
  · exact copyLoopStores_within (by omega) hcap hlevel (by omega)

/-- The stores of a round that may pass the last units. -/
theorem copyNextStores_within_iff (hfits : src.Fits kind)
    (hfixed : stringBufferSize - tailPadding ≤ capacity)
    {w : Writer} {maxvec : Vec} (h : Records isa kind w maxvec (cs ++ src.slice s (cur - s)))
    (hrun : PlainRun src s cur) (hdvd : readBatchCount isa kind ∣ cur - s) (hlt : cur < src.len)
    (hcs : cs.length ≤ s) (hnear : StopsNear src (readBatchCount isa kind) cur) :
    AllWithin capacity (copyNextStores isa kind src cur w) ↔
      ¬ LateRegister src isa kind capacity s cs := by
  have hs := hrun.1
  have hpos := h.run_pos
  rw [lateRegister_iff hrun hdvd hlt hnear]
  by_cases hlong : cur + readBatchCount isa kind ≤ src.len
  · exact iff_of_true (copyNextStores_within hcap h hs hcs hlong) fun hlate => by omega
  have hshort := Nat.lt_of_not_le hlong
  have hstores : copyNextStores isa kind src cur w = copyTrailingStores isa kind src cur w := by
    unfold copyNextStores
    dsimp only
    rw [if_neg (by omega), if_neg hlong]
  rw [hstores, copyTrailingStores_within_iff h.sound h.size_le (by omega) hlt hcap hfixed hshort,
    hpos]
  refine not_congr ⟨fun ⟨hkind, hfour, hlate⟩ => ?_, fun ⟨_, hkind, hwide, hlate⟩ => ?_⟩
  · exact ⟨hshort, hkind, (h.wide_iff hfits hlt.le hs hkind).mp hfour, hlate⟩
  · exact ⟨hkind, (h.wide_iff hfits hlt.le hs hkind).mpr hwide, hlate⟩

/-- The store of an escape has a place in front of the text behind it. -/
theorem escapeStore_within {w : Writer} {maxvec : Vec} {ds : List Nat}
    (h : Records isa kind w maxvec ds) (val : Nat) (hpos : w.pos < src.len) :
    (escapeStore w val).stop ≤ capacity := by
  have hlevel : (w.promote val).level ≤ 4 := by
    have := (h.sound.promote val).level
    omega
  have hsame : (w.promote val).pos = w.pos := by
    rw [promote_same]
    rfl
  calc (w.promote val).level * ((w.promote val).pos + 0 + 1)
      ≤ 4 * src.len := Nat.mul_le_mul hlevel (by omega)
    _ ≤ capacity := (Nat.le_add_right _ _).trans hcap

/-- The loops store within the capacity unless something is late behind an escape. -/
theorem decodeStrCopyStores_within_iff (hfits : src.Fits kind)
    (hfixed : stringBufferSize - tailPadding ≤ capacity)
    (fuel : Nat) {w : Writer} {maxvec : Vec}
    (h : Records isa kind w maxvec (cs ++ src.slice s (cur - s))) (hrun : PlainRun src s cur)
    (hdvd : readBatchCount isa kind ∣ cur - s) (hle : cur ≤ src.len) (hcs : cs.length ≤ s)
    (hfuel : src.len - cur < fuel) :
    AllWithin capacity (decodeStrCopyStores isa kind src fuel cur w maxvec) ↔
      ¬ LateBehind src isa kind capacity s cs := by
  induction fuel generalizing s cur w maxvec cs with
  | zero => omega
  | succ fuel ih =>
      have hs := hrun.1
      have hbatch := readBatchCount_pos isa kind
      unfold decodeStrCopyStores
      split
      · obtain rfl : cur = src.len := by omega
        exact iff_of_true allWithin_nil (not_lateBehind_of_end hrun hdvd)
      rename_i hlt
      have hlt := Nat.lt_of_not_le hlt
      have hend := @scanNext_roundEnd src isa kind cur hfits hlt true maxvec
      -- the record behind the round, where it did not run to the end of the source
      have hrecord : (scanNext isa kind src true cur maxvec).state ≠ .invalid →
          (scanNext isa kind src true cur maxvec).cur ≤ src.len ∧
          Records isa kind ((copyNext isa kind src cur w).advance
            (scanNext isa kind src true cur maxvec).doneCount)
            (scanNext isa kind src true cur maxvec).maxvec
            (cs ++ src.slice s ((scanNext isa kind src true cur maxvec).cur - s)) := by
        intro hstate
        rcases @scanNext_spec isa kind _ _ hlt true maxvec with hscan | ⟨hinvalid, -⟩
        · have hbound := hscan.bound
          obtain ⟨n, hn, hstored⟩ := copyNext_stored hfits h.size_le hlt maxvec hbound
          have hrec := h.run hfits hbound hn hstored hscan.max
          have hsplit : (scanNext isa kind src true cur maxvec).cur - s =
              (cur - s) + (scanNext isa kind src true cur maxvec).doneCount := by
            rw [hscan.cur_eq]
            omega
          rw [hsplit, Source.slice_add, show s + (cur - s) = cur by omega, ← List.append_assoc]
          exact ⟨hscan.cur_eq ▸ hbound, hrec⟩
        · exact absurd hinvalid hstate
      dsimp only
      cases hend with
      | passed hstate hplain hmore hreg hlong =>
          obtain ⟨hbound, hrec⟩ := hrecord (by rw [hstate]; exact LoopState.noConfusion)
          rw [hstate]
          dsimp only
          rw [allWithin_append, and_iff_right (copyNextStores_within hcap h hs hcs hlong)]
          refine ih hrec (hrun.trans hplain) ?_ hbound hcs (by omega)
          have hsum := Nat.dvd_add hdvd hreg
          rwa [show cur - s + ((scanNext isa kind src true cur maxvec).cur - cur) =
            (scanNext isa kind src true cur maxvec).cur - s by omega] at hsum
      | escaped hstate hnext hval hnear =>
          obtain ⟨hbound, hrec⟩ := hrecord (by rw [hstate]; exact LoopState.noConfusion)
          have hcur := hnext.plain.1
          have hnext := hnext.before hrun
          have hplain := hnext.plain.1
          have hafter := hnext.after
          have hpos := hrec.run_pos
          have hlast := hnext.bound
          -- a new run begins behind the escape
          have hrest := ih ((hrec.escape hval).newRun _) (.refl _) (by rw [Nat.sub_self]; exact Nat.dvd_zero _) hlast
            (by simp only [List.length_append, Source.slice, List.length_map, List.length_range,
              List.length_singleton]; omega) (by omega)
          rw [hstate]
          dsimp only
          rw [allWithin_append, allWithin_cons, hrest, lateBehind_escape hnext, not_or,
            copyNextStores_within_iff hcap hfits hfixed h hrun hdvd hlt hcs hnear,
            and_iff_right (escapeStore_within hcap hrec _ (by omega))]
      | ended hstate hno hnear =>
          have hno' : ∀ p val next, ¬ NextEscape src s p val next := fun p val next hnext =>
            hno p val next (hnext.behind hrun)
          rw [lateBehind_last hno',
            ← copyNextStores_within_iff hcap hfits hfixed h hrun hdvd hlt hcs hnear]
          rcases hstate with hstate | hstate <;> rw [hstate]

end Rounds

/-! ## Whole strings -/

/-- The loops without copying go on to the first escape, if there is one. -/
theorem decodeStrFast_nextEscape {start : Nat} (hfits : src.Fits kind) (isKey : Bool)
    (fuel cur : Nat) (maxvec : Vec) (hrun : PlainRun src start cur) (hle : cur ≤ src.len)
    (hfuel : src.len - cur < fuel) :
    match decodeStrFast isa kind src isKey fuel cur maxvec with
    | (.escape val size, last, _) => NextEscape src start last val (last + size)
    | (.done, _, _) | (.failed, _, _) => ∀ p val next, ¬ NextEscape src start p val next := by
  induction fuel generalizing cur maxvec with
  | zero => omega
  | succ fuel ih =>
      unfold decodeStrFast
      by_cases hend : src.len ≤ cur
      · rw [if_pos hend]
        intro p val next h
        have hlast := hrun.le_stop h.plain.1 h.stop
        have hlt := h.lt
        omega
      rw [if_neg hend]
      have hlt := Nat.lt_of_not_le hend
      have hend := @scanNext_roundEnd src isa kind cur hfits hlt (!isKey) maxvec
      dsimp only
      cases hend with
      | passed hstate hplain hmore hreg hlong =>
          have hbound : (scanNext isa kind src (!isKey) cur maxvec).cur ≤ src.len := by
            rcases @scanNext_spec isa kind _ _ hlt (!isKey) maxvec with hscan | ⟨hinvalid, -⟩
            · exact hscan.cur_eq ▸ hscan.bound
            · rw [hstate] at hinvalid
              cases hinvalid
          rw [hstate]
          exact ih _ _ (hrun.trans hplain) hbound (by omega)
      | escaped hstate hnext hval hnear =>
          rw [hstate]
          exact hnext.before hrun
      | ended hstate hno hnear =>
          rcases hstate with hstate | hstate <;>
            · rw [hstate]
              exact fun p val next h => hno p val next (h.behind hrun)

/-- What is copied at the first escape, and its character, have places in front of the text. -/
theorem startStores_within {start last val : Nat} (hlt : last < src.len)
    (hcap : 4 * src.len + tailPadding ≤ capacity) :
    AllWithin capacity (startStores kind src start last val) := by
  have hlevel : startLevel kind val ≤ 4 := by
    have := Records.startLevel_cases kind val
    omega
  refine allWithin_cons.mpr ⟨?_, allWithin_cons.mpr ⟨?_, allWithin_nil⟩⟩
  · calc startLevel kind val * (0 + (last - start)) ≤ 4 * src.len :=
          Nat.mul_le_mul hlevel (by omega)
      _ ≤ capacity := (Nat.le_add_right _ _).trans hcap
  · calc startLevel kind val * (last - start + 1) ≤ 4 * src.len :=
          Nat.mul_le_mul hlevel (by omega)
      _ ≤ capacity := (Nat.le_add_right _ _).trans hcap

/-- Nothing is late where no escape was read. -/
theorem not_lateRegister_nil : ¬ LateRegister src isa kind capacity s [] :=
  fun h => absurd h.2.1 (by decide)

/-- The bytes a narrowed key is looked up with are those that its stores leave at the head. -/
theorem makeUnicodeFromSrc_head (hfits : src.Fits kind) {narrowing : Narrowing}
    {start last head : Nat} {maxvec : Vec} (h : Passed isa kind src start last maxvec)
    (hneeds : needSizeCvt isa kind maxvec = true) (hhead : 16 ≤ head) (block : ByteBuffer) :
    ∀ lookup ∈ (makeUnicodeFromSrc isa kind src true start (last - start) maxvec).lookup,
      lookup.bytes = ((replay ((makeUnicodeFromSrcStores isa kind src narrowing true start
          (last - start) maxvec).map (HeadStore.inBlock head)) block).loadList
        (kindFromSrc isa kind maxvec).size head (last - start)).flatMap
          (leBytes (kindFromSrc isa kind maxvec).size) := by
  intro lookup hlookup
  have hof := makeUnicodeFromSrc_faithful hfits true h lookup hlookup
  have hbytes := hof.bytes
  have hfitting := hof.fitting
  rw [makeUnicodeFromSrc_str hfits true h, PyStr.ofChars, ← kindFromSrc_eq hfits h] at hbytes hfitting
  have hkind : kind ≠ .ascii := by
    rintro rfl
    cases hneeds
  have hshort : (last - start) * (kindFromSrc isa kind maxvec).size ≤ 64 := by
    have hlength := hof.short
    rw [hbytes] at hlength
    have hdata : (PyStr.data ⟨kindFromSrc isa kind maxvec, src.slice start (last - start)⟩).length =
        (src.slice start (last - start)).length * (kindFromSrc isa kind maxvec).size :=
      flatMap_leBytes_length _ _
    rwa [hdata, Source.slice, List.length_map, List.length_range] at hlength
  have hstores : makeUnicodeFromSrcStores isa kind src narrowing true start (last - start) maxvec =
      cacheKeyStores isa kind src narrowing (kindFromSrc isa kind maxvec).size start
        (last - start) := by
    unfold makeUnicodeFromSrcStores
    dsimp only
    rw [if_pos (by simp [hshort, hneeds])]
  rw [hstores, cacheKeyStores_units hhead fun i hi => hfitting _ (Source.mem_slice.mpr ⟨i, hi, rfl⟩)]
  exact hbytes

/-- The stores of a string with an escape. -/
theorem decodeStrWithEscapeStores_within_iff (hfits : src.Fits kind)
    (hcap : 4 * src.len + tailPadding ≤ capacity) (hfixed : stringBufferSize - tailPadding ≤ capacity)
    (scratch : ByteBuffer) {start last val size : Nat} {maxvec : Vec}
    (hpass : Passed isa kind src start last maxvec) (hsize : 2 ≤ size)
    (hbound : last + size ≤ src.len) (hval : val ≤ 0x10FFFF)
    (hnext : NextEscape src start last val (last + size)) :
    AllWithin capacity (decodeStrWithEscapeStores isa kind src scratch start last val size maxvec) ↔
      ¬ LateStore src isa kind capacity start := by
  have hlate : LateStore src isa kind capacity start ↔ LateBehind src isa kind capacity start [] :=
    Iff.rfl
  have hfirst := hpass.le
  have hrec := @Records.start isa kind src maxvec scratch _ _ _ hfits hval hpass
  have hrest := @decodeStrCopyStores_within_iff src isa kind _ _ capacity _ hcap hfits hfixed
    (src.len + 1) _ maxvec (hrec.newRun (last + size)) (.refl _)
    (by rw [Nat.sub_self]; exact Nat.dvd_zero _) hbound
    (by simp only [List.length_append, Source.slice, List.length_map, List.length_range,
      List.length_singleton]; omega) (by omega)
  unfold decodeStrWithEscapeStores
  rw [hlate, allWithin_append, and_iff_right (startStores_within hnext.lt hcap), hrest,
    lateBehind_escape hnext, or_iff_right not_lateRegister_nil, List.nil_append]

theorem decodeStrStores_within_iff (hfits : src.Fits kind)
    (hcap : 4 * src.len + tailPadding ≤ capacity) (hfixed : stringBufferSize - tailPadding ≤ capacity)
    (narrowing : Narrowing) (scratch : ByteBuffer) (isKey : Bool) {start : Nat}
    (hle : start ≤ src.len) :
    (∀ s ∈ decodeStrStores isa kind src narrowing scratch isKey start,
        s.Within tailPadding capacity) ↔ ¬ LateStore src isa kind capacity start := by
  have hlate : LateStore src isa kind capacity start ↔ LateBehind src isa kind capacity start [] :=
    Iff.rfl
  have hfast := decodeStrFast_spec hfits isKey (src.len + 1) start Vec.setzero
    (@Passed.init isa _ _ _ hle) (by omega)
  have hnext := @decodeStrFast_nextEscape src isa kind start hfits isKey (src.len + 1) start
    Vec.setzero (.refl start) hle (by omega)
  unfold decodeStrStores
  generalize decodeStrFast isa kind src isKey (src.len + 1) start Vec.setzero = result
    at hfast hnext ⊢
  obtain ⟨_ | ⟨val, size⟩ | _, last, maxvec⟩ := result
  · rw [hlate, lateBehind_last hnext]
    exact iff_of_true (makeUnicodeFromSrcStores_within isKey start (last - start) maxvec (by omega))
      not_lateRegister_nil
  · obtain ⟨hpass, hsize, hbound, hval, -⟩ := hfast
    rw [← decodeStrWithEscapeStores_within_iff hfits hcap hfixed scratch hpass hsize hbound hval
      hnext]
    dsimp only
    rw [List.forall_mem_map]
    exact forall₂_congr fun s _ => HeadStore.ofStore_within
  · rw [hlate, lateBehind_last hnext]
    exact iff_of_true (fun s hs => absurd hs List.not_mem_nil) not_lateRegister_nil

/-- The capacity reserved covers the formula and is never below that of the fixed buffer. -/
theorem checkAndReserveStrBuffer_le {len : Nat} (h : checkAndReserveStrBuffer len = some capacity) :
    4 * len + tailPadding ≤ capacity ∧ stringBufferSize - tailPadding ≤ capacity := by
  have hpad : tailPadding = 64 := rfl
  have hbuf : stringBufferSize = 524288 := rfl
  unfold checkAndReserveStrBuffer at h
  split at h
  · cases h
  · obtain rfl := Option.some.inj h
    split <;> omega

/-- For every source, instruction set and start of a string, key or value: the string decoder stores
inside of the buffer, which begins `tailPadding` bytes in front of the head and ends with the
capacity reserved for the source, exactly where no register widened to four bytes is late. -/
theorem decodeStr_stores_within_iff (isa : Isa) (kind : StrKind) (src : Source)
    (hfits : src.Fits kind) (narrowing : Narrowing) (scratch : ByteBuffer) (isKey : Bool)
    (start : Nat) (hle : start ≤ src.len) (capacity : Nat)
    (hreserved : checkAndReserveStrBuffer src.len = some capacity) :
    (∀ s ∈ decodeStrStores isa kind src narrowing scratch isKey start,
        s.Within tailPadding capacity) ↔ ¬ LateStore src isa kind capacity start := by
  obtain ⟨hcap, hfixed⟩ := checkAndReserveStrBuffer_le hreserved
  exact decodeStrStores_within_iff hfits hcap hfixed narrowing scratch isKey hle

/-- A key with one escape, and a key without: the only store of the latter begins fourteen bytes in
front of the head. -/
theorem decodeStr_stores_within_iff_newline :
    let newline := Source.ofUnits [0x61, 0x5C, 0x6E, 0x22]
    let short := Source.ofUnits [0x61, 0x62, 0x22]
    (decodeStrStores .avx2 .ucs2 short .cut (fun _ => 0) true 0).map
        (fun s => (s.width, s.index, s.count)) = [(1, -14, 16)] ∧
      ((∀ s ∈ decodeStrStores .avx512 .ascii newline .cut (fun _ => 0) true 0, s.Within 64 524224) ↔
        ¬ LateStore newline .avx512 .ascii 524224 0) ∧
      ((∀ s ∈ decodeStrStores .avx2 .ucs2 short .cut (fun _ => 0) true 0, s.Within 64 524224) ↔
        ¬ LateStore short .avx2 .ucs2 524224 0) := by
  have hplaces : (decodeStrStores .avx2 .ucs2 (Source.ofUnits [0x61, 0x62, 0x22]) .cut (fun _ => 0)
      true 0).map (fun s => (s.width, s.index, s.count)) = [(1, -14, 16)] := by decide
  have hnewline : (Source.ofUnits [0x61, 0x5C, 0x6E, 0x22]).Fits .ascii :=
    show ∀ u ∈ [0x61, 0x5C, 0x6E, 0x22], u ≤ StrKind.ascii.maxChar by decide
  have hshort : (Source.ofUnits [0x61, 0x62, 0x22]).Fits .ucs2 :=
    show ∀ u ∈ [0x61, 0x62, 0x22], u ≤ StrKind.ucs2.maxChar by decide
  refine ⟨hplaces, ?_, ?_⟩
  · exact decodeStr_stores_within_iff .avx512 .ascii _ hnewline .cut (fun _ => 0) true 0 (by decide)
      524224 (by decide)
  · exact decodeStr_stores_within_iff .avx2 .ucs2 _ hshort .cut (fun _ => 0) true 0 (by decide)
      524224 (by decide)

/-! ### A string whose last register is late -/

/-- A document that is one string: a character beyond the first plane as an escape, then `n` times
the letter a. -/
def escapeThenLetters (n : Nat) : Source :=
  .ofUnits ([0x22, 0x5C, 0x75, 0x44, 0x38, 0x33, 0x44, 0x5C, 0x75, 0x44, 0x45, 0x30, 0x30] ++
    (List.replicate n 0x61 ++ [0x22]))

variable {n : Nat}

theorem escapeThenLetters_len : (escapeThenLetters n).len = n + 14 := by
  simp [escapeThenLetters, Source.ofUnits, Source.len]

theorem escapeThenLetters_fits : (escapeThenLetters n).Fits .ascii := by
  intro u hu
  rcases List.mem_append.mp hu with hhead | hrest
  · exact (by decide : ∀ u ∈ [0x22, 0x5C, 0x75, 0x44, 0x38, 0x33, 0x44, 0x5C, 0x75, 0x44, 0x45,
      0x30, 0x30], u ≤ StrKind.ascii.maxChar) u hhead
  rcases List.mem_append.mp hrest with hletter | hquote
  · rw [List.eq_of_mem_replicate hletter]
    decide
  · rw [List.mem_singleton.mp hquote]
    decide

theorem escapeThenLetters_plain : PlainRun (escapeThenLetters n) 13 (13 + n) := by
  refine PlainRun.of_scan fun i hi => ?_
  have hread : (escapeThenLetters n).read (13 + i) = 0x61 := by
    rw [Source.read_of_lt (by rw [escapeThenLetters_len]; omega)]
    simp only [escapeThenLetters, Source.ofUnits]
    rw [List.getElem_append_right (by simp), List.getElem_append_left (by simpa using hi),
      List.getElem_replicate]
  rw [hread]
  decide

/-- The escape is read as one character, and the letters begin behind it. -/
theorem escapeThenLetters_nextEscape : NextEscape (escapeThenLetters n) 1 1 0x1F600 13 :=
  ⟨.refl 1, by rw [escapeThenLetters_len]; omega, rfl, rfl, by decide,
    by rw [escapeThenLetters_len]; omega⟩

/-- With 131040 letters the closing quotation mark is the only unit of the last register, and the
register of the letters and of this quote ends twelve bytes behind the capacity. -/
theorem last_register_behind_capacity :
    let src := escapeThenLetters 131040
    checkAndReserveStrBuffer src.len = some 524280 ∧
      ¬ ∀ s ∈ decodeStrStores .avx2 .ascii src .cut (fun _ => 0) false 1,
        s.Within tailPadding 524280 := by
  have hlen : (escapeThenLetters 131040).len = 131054 := escapeThenLetters_len
  have hcap : 4 * (escapeThenLetters 131040).len + tailPadding ≤ 524280 := by
    rw [hlen]
    decide
  have hwithin := @decodeStrStores_within_iff _ .avx2 _ 524280 escapeThenLetters_fits hcap (by decide)
    .cut (fun _ => 0) false 1 (by rw [hlen]; decide)
  refine ⟨by rw [hlen]; decide, ?_⟩
  rw [hwithin, not_not]
  refine ⟨13, [0x1F600], .cons escapeThenLetters_nextEscape (.nil 13), by decide, by decide,
    13 + 131040, escapeThenLetters_plain, by decide, ?_, ?_, by decide⟩
  · rw [hlen]
    decide
  · rw [hlen]
    decide

end SsrJson.Decode
