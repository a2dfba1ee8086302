import SsrJson.Decode.BytesLemmas

/-!
# Reading UTF-8 byte by byte

Runs of ASCII and runs of sequences of one length each pass some characters and copy them; the
scalar reader puts such runs together until something else stands under the cursor.
-/

namespace SsrJson.Decode

open Spec Utf8

variable {src : Source} {cur : Nat} {w : Writer}

theorem charIsAsciiStop_eq {b : Nat} (h : b < 256) :
    charIsAsciiStop b = (isEscapeUnit b || 0x80 ≤ b) := by
  have hall : ∀ b < 256, charIsAsciiStop b = (isEscapeUnit b || 0x80 ≤ b) := by decide +kernel
  exact hall b h

theorem levelBound_pos (level : Nat) : 0x100 ≤ levelBound level := by
  unfold levelBound
  split_ifs <;> decide

/-! ## Runs -/

/-- A run of plain ASCII ends at the limit or at another byte. -/
theorem asciiRun_spec (hbytes : src.IsBytes) (limit : Nat) (fuel : Nat) (hsound : w.Sound)
    (hle : cur ≤ src.len) (hfuel : src.len - cur ≤ fuel) :
    ∃ w' cur' ds, asciiRun src limit fuel w cur = (w', cur') ∧ Copied src w cur w' cur' ds ∧
      w'.isAscii = w.isAscii ∧ (∀ d ∈ ds, d < 0x80) ∧
      (limit ≤ cur' ∨ isEscapeUnit (src.read cur') = true ∨ 0x80 ≤ src.read cur') := by
  induction fuel generalizing w cur with
  | zero =>
      obtain rfl : cur = src.len := by omega
      refine ⟨w, _, [], rfl, .refl hsound hle, rfl, nofun, .inr (.inl ?_)⟩
      rw [Source.read_len]
      rfl
  | succ fuel ih =>
      unfold asciiRun
      have hstop := charIsAsciiStop_eq (hbytes cur)
      split
      · rename_i h
        rw [h.2] at hstop
        obtain ⟨hplain, hlow⟩ := Bool.or_eq_false_iff.mp hstop.symm
        have hlow : src.read cur < 0x80 := by simpa using hlow
        have htook := Took.ascii hle hlow hplain
        have hcopied := Copied.push hsound htook (hlow.trans (by have := levelBound_pos w.level; omega))
        obtain ⟨w', cur', ds, heq, hrest, hmark, hds, hend⟩ :=
          ih hcopied.sound htook.bound (by omega)
        refine ⟨w', cur', _, heq, hcopied.trans hrest, ?_, ?_, hend⟩
        · rw [hmark, Writer.push_isAscii]
        · simpa [hlow] using hds
      · rename_i h
        refine ⟨w, cur, [], rfl, .refl hsound hle, rfl, nofun, ?_⟩
        by_cases hlimit : cur < limit
        · have hset : charIsAsciiStop (src.read cur) = true := by
            simpa [hlimit] using h
          rw [hset] at hstop
          simpa using Or.inr (a := limit ≤ cur) (Bool.or_eq_true_iff.mp hstop.symm)
        · exact .inl (Nat.le_of_not_lt hlimit)

/-- A run of sequences of one length ends where no such sequence follows. -/
theorem seqRun_spec {accept : Nat → Bool} {toUnicode : Nat → Nat} {width : Nat} {P : Nat → Prop}
    (hwidth : 0 < width)
    (haccept : ∀ c ≤ src.len, accept (byteLoad4 src c) = true →
      Took src c (c + width) [toUnicode (byteLoad4 src c)] ∧ P (toUnicode (byteLoad4 src c)) ∧
        toUnicode (byteLoad4 src c) < levelBound w.level)
    (fuel : Nat) (hsound : w.Sound) (hle : cur ≤ src.len) (hfuel : src.len - cur ≤ fuel) :
    ∃ w' cur' ds, seqRun src accept toUnicode width fuel w cur = (w', cur') ∧
      Copied src w cur w' cur' ds ∧ w'.isAscii = w.isAscii ∧ (∀ d ∈ ds, P d) ∧
      (ds = [] → cur' = cur) ∧ accept (byteLoad4 src cur') = false := by
  induction fuel generalizing w cur with
  | zero =>
      refine ⟨w, cur, [], rfl, .refl hsound hle, rfl, nofun, fun _ => rfl, ?_⟩
      rw [← Bool.not_eq_true]
      intro h
      have := (haccept cur hle h).1.bound
      omega
  | succ fuel ih =>
      unfold seqRun
      dsimp only
      split
      · rename_i h
        obtain ⟨htook, hP, hfits⟩ := haccept cur hle h
        have hcopied := Copied.push hsound htook hfits
        obtain ⟨w', cur', ds, heq, hrest, hmark, hds, -, hend⟩ :=
          ih (by rwa [hcopied.level]) hcopied.sound htook.bound (by omega)
        refine ⟨w', cur', _, heq, hcopied.trans hrest, ?_, ?_, by simp, hend⟩
        · rw [hmark, Writer.push_isAscii]
        · simpa [hP] using hds
      · rename_i h
        exact ⟨w, cur, [], rfl, .refl hsound hle, rfl, nofun, fun _ => rfl, by simpa using h⟩

/-- The bytes under the cursor begin a sequence of two, three or four. -/
def SeqAt2 (src : Source) (cur : Nat) : Prop := IsSeq2 (src.read cur) (src.read (cur + 1))

def SeqAt3 (src : Source) (cur : Nat) : Prop :=
  IsSeq3 (src.read cur) (src.read (cur + 1)) (src.read (cur + 2))

def SeqAt4 (src : Source) (cur : Nat) : Prop :=
  IsSeq4 (src.read cur) (src.read (cur + 1)) (src.read (cur + 2)) (src.read (cur + 3))

/-- What a run of sequences leaves. -/
structure RunSpec (src : Source) (w : Writer) (cur : Nat) (w' : Writer) (cur' : Nat)
    (ds : List Nat) : Prop where
  copied : Copied src w cur w' cur' ds
  mark : w'.isAscii = w.isAscii
  high : ∀ d ∈ ds, 0x80 ≤ d
  same : ds = [] → cur' = cur

theorem seqRun2U8_spec (hbytes : src.IsBytes) (hsound : w.Sound) (hle : cur ≤ src.len) :
    ∃ w' cur' ds, seqRun2U8 src w cur = (w', cur') ∧ RunSpec src w cur w' cur' ds ∧
      ¬ (SeqAt2 src cur' ∧ seq2 (src.read cur') (src.read (cur' + 1)) < 0x100) := by
  obtain ⟨w', cur', ds, heq, hcopied, hmark, hds, hsame, hend⟩ :=
    @seqRun_spec _ _ w (fun uni => utf8IsSeq2 uni && toB2Unicode uni < 0x100) toB2Unicode 2 (0x80 ≤ ·) (by decide) (fun c hc h => by
      simp only [Bool.and_eq_true, decide_eq_true_eq] at h
      have hseq := (utf8IsSeq2_iff hbytes).mp h.1
      have hval := toB2Unicode_eq hbytes hseq
      rw [hval] at h ⊢
      exact ⟨.seq2 hc hseq, hseq.range.1, h.2.trans_le (levelBound_pos _)⟩) src.len hsound hle (Nat.sub_le _ _)
  refine ⟨w', cur', ds, heq, ⟨hcopied, hmark, hds, hsame⟩, ?_⟩
  rintro ⟨hseq, hval⟩
  have hval' := toB2Unicode_eq hbytes hseq
  simp [(utf8IsSeq2_iff hbytes).mpr hseq, hval', hval] at hend

theorem seqRun2_spec (hbytes : src.IsBytes) (hlevel : w.level ≠ 1) (hsound : w.Sound)
    (hle : cur ≤ src.len) :
    ∃ w' cur' ds, seqRun2 src w cur = (w', cur') ∧ RunSpec src w cur w' cur' ds ∧
      ¬ SeqAt2 src cur' := by
  obtain ⟨w', cur', ds, heq, hcopied, hmark, hds, hsame, hend⟩ :=
    @seqRun_spec _ _ w utf8IsSeq2 toB2Unicode 2 (0x80 ≤ ·) (by decide) (fun c hc h => by
      have hseq := (utf8IsSeq2_iff hbytes).mp h
      have hrange := hseq.range
      rw [toB2Unicode_eq hbytes hseq]
      refine ⟨.seq2 hc hseq, hrange.1, hrange.2.trans ?_⟩
      unfold levelBound
      rw [if_neg hlevel]
      split_ifs <;> decide) src.len hsound hle (Nat.sub_le _ _)
  refine ⟨w', cur', ds, heq, ⟨hcopied, hmark, hds, hsame⟩, fun hseq => ?_⟩
  rw [(utf8IsSeq2_iff hbytes).mpr hseq] at hend
  cases hend

theorem seqRun3_spec (hbytes : src.IsBytes) (hlevel : w.level ≠ 1) (hsound : w.Sound)
    (hle : cur ≤ src.len) :
    ∃ w' cur' ds, seqRun3 src w cur = (w', cur') ∧ RunSpec src w cur w' cur' ds ∧
      ¬ SeqAt3 src cur' := by
  obtain ⟨w', cur', ds, heq, hcopied, hmark, hds, hsame, hend⟩ :=
    @seqRun_spec _ _ w utf8IsSeq3 toB3Unicode 3 (0x80 ≤ ·) (by decide) (fun c hc h => by
      have hseq := (utf8IsSeq3_iff hbytes).mp h
      have hrange := hseq.range
      rw [toB3Unicode_eq hbytes hseq]
      refine ⟨.seq3 hc hseq, by omega, hrange.2.trans_le ?_⟩
      unfold levelBound
      rw [if_neg hlevel]
      split_ifs <;> decide) src.len hsound hle (Nat.sub_le _ _)
  refine ⟨w', cur', ds, heq, ⟨hcopied, hmark, hds, hsame⟩, fun hseq => ?_⟩
  rw [(utf8IsSeq3_iff hbytes).mpr hseq] at hend
  cases hend

theorem seqRun4_spec (hbytes : src.IsBytes) (hlevel : w.level = 4) (hsound : w.Sound)
    (hle : cur ≤ src.len) :
    ∃ w' cur' ds, seqRun4 src w cur = (w', cur') ∧ RunSpec src w cur w' cur' ds ∧
      ¬ SeqAt4 src cur' := by
  obtain ⟨w', cur', ds, heq, hcopied, hmark, hds, hsame, hend⟩ :=
    @seqRun_spec _ _ w utf8IsSeq4 toB4Unicode 4 (0x80 ≤ ·) (by decide) (fun c hc h => by
      have hseq := (utf8IsSeq4_iff hbytes).mp h
      have hrange := hseq.2.2.2.2.2
      rw [toB4Unicode_eq hbytes hseq]
      refine ⟨.seq4 hc hseq, by omega, ?_⟩
      rw [hlevel]
      exact Nat.lt_succ_of_le hrange.2) src.len hsound hle (Nat.sub_le _ _)
  refine ⟨w', cur', ds, heq, ⟨hcopied, hmark, hds, hsame⟩, fun hseq => ?_⟩
  rw [(utf8IsSeq4_iff hbytes).mpr hseq] at hend
  cases hend

theorem RunSpec.trans {w' w'' : Writer} {cur' cur'' : Nat} {ds es : List Nat}
    (h : RunSpec src w cur w' cur' ds) (h' : RunSpec src w' cur' w'' cur'' es) :
    RunSpec src w cur w'' cur'' (ds ++ es) := by
  refine ⟨h.copied.trans h'.copied, h'.mark.trans h.mark, fun d hd => ?_, fun hnil => ?_⟩
  · exact (List.mem_append.mp hd).elim (h.high d) (h'.high d)
  · obtain ⟨hds, hes⟩ := List.append_eq_nil_iff.mp hnil
    rw [h'.same hes, h.same hds]

/-- The high bit of four bytes is that of the first one. -/
theorem byteLoad4_high (hbytes : src.IsBytes) :
    byteLoad4 src cur &&& 0x80 = 0 ↔ src.read cur < 0x80 := by
  have hand : byteLoad4 src cur &&& 0x80 = src.read cur &&& 0x80 := by
    have := @byteLoad4_and _ cur hbytes 0x80 0 0 0 (by decide) (by decide) (by decide)
    simpa using this
  rw [hand, show src.read cur &&& 0x80 = src.read cur / 128 % 2 * 128 from and_mask _ 7 1]
  have := hbytes cur
  omega

/-! ## The sequences of a level -/

/-- The sequences a level can read. -/
def LevelSeq (src : Source) (level cur : Nat) : Prop :=
  if level = 1 then SeqAt2 src cur ∧ seq2 (src.read cur) (src.read (cur + 1)) < 0x100
  else if level = 2 then SeqAt2 src cur ∨ SeqAt3 src cur
  else SeqAt2 src cur ∨ SeqAt3 src cur ∨ SeqAt4 src cur

/-- Some sequences are read, or none can be read at this level. -/
theorem seqs_spec (hbytes : src.IsBytes) (hsound : w.Sound) (hle : cur ≤ src.len)
    (hhigh : 0x80 ≤ src.read cur) :
    (∃ w' cur' ds, seqs src w cur = some (w', cur') ∧ Copied src w cur w' cur' ds ∧
      (∀ d ∈ ds, 0x80 ≤ d) ∧ ds ≠ [] ∧ (w.level = 1 → w'.isAscii = false)) ∨
    (seqs src w cur = none ∧ ¬ LevelSeq src w.level cur) := by
  have hmoved : ∀ {w' : Writer} {cur' : Nat} {ds : List Nat}, RunSpec src w cur w' cur' ds →
      cur' ≠ cur → ds ≠ [] := fun h hne hnil => hne (h.same hnil)
  have hstay : ∀ {w' : Writer} {cur' : Nat} {ds : List Nat}, RunSpec src w cur w' cur' ds →
      byteLoad4 src cur' &&& 0x80 = 0 → cur' ≠ cur := by
    rintro w' _ ds - hlow rfl
    have := (byteLoad4_high hbytes).mp hlow
    omega
  unfold seqs LevelSeq
  rcases hsound.level with hl | hl | hl
  · obtain ⟨w', cur', ds, heq, hrun, hend⟩ := seqRun2U8_spec hbytes hsound hle
    simp only [hl, if_true, seqsU8, heq]
    split
    · rename_i hne
      have hcopied := hrun.copied.mark w.isAscii false
      exact .inl ⟨_, cur', ds, rfl, hcopied, hrun.high, hmoved hrun hne, fun _ => rfl⟩
    · rename_i hne
      obtain rfl := not_not.mp hne
      exact .inr ⟨rfl, hend⟩
  · obtain ⟨w₁, cur₁, ds₁, heq₁, hrun₁, hend₁⟩ := seqRun3_spec hbytes (by omega) hsound hle
    simp only [hl, OfNat.ofNat_ne_one, if_false, if_true, false_implies, and_true, seqsU16, heq₁]
    split
    · rename_i hlow
      exact .inl ⟨w₁, cur₁, ds₁, rfl, hrun₁.copied, hrun₁.high, hmoved hrun₁ (hstay hrun₁ hlow)⟩
    obtain ⟨w₂, cur₂, ds₂, heq₂, hrun₂, hend₂⟩ := seqRun2_spec hbytes
      (by rw [hrun₁.copied.level]; omega) hrun₁.copied.sound hrun₁.copied.took.bound
    have hrun := hrun₁.trans hrun₂
    simp only [heq₂]
    split
    · rename_i hne
      exact .inl ⟨w₂, cur₂, _, rfl, hrun.copied, hrun.high, hmoved hrun hne⟩
    · rename_i hne
      obtain rfl := not_not.mp hne
      have hsame : cur₁ = cur₂ := Nat.le_antisymm hrun₂.copied.took.le hrun₁.copied.took.le
      subst hsame
      exact .inr ⟨rfl, not_or.mpr ⟨hend₂, hend₁⟩⟩
  · obtain ⟨w₁, cur₁, ds₁, heq₁, hrun₁, hend₁⟩ := seqRun4_spec hbytes hl hsound hle
    simp only [hl, OfNat.ofNat_ne_one, if_false, show ¬ 4 = 2 by decide, false_implies, and_true,
      seqsU32, heq₁]
    split
    · rename_i hlow
      exact .inl ⟨w₁, cur₁, ds₁, rfl, hrun₁.copied, hrun₁.high, hmoved hrun₁ (hstay hrun₁ hlow)⟩
    obtain ⟨w₂, cur₂, ds₂, heq₂, hrun₂, hend₂⟩ := seqRun3_spec hbytes
      (by rw [hrun₁.copied.level]; omega) hrun₁.copied.sound hrun₁.copied.took.bound
    have hrun₁₂ := hrun₁.trans hrun₂
    simp only [heq₂]
    split
    · rename_i hlow
      exact .inl ⟨w₂, cur₂, _, rfl, hrun₁₂.copied, hrun₁₂.high, hmoved hrun₁₂ (hstay hrun₁₂ hlow)⟩
    obtain ⟨w₃, cur₃, ds₃, heq₃, hrun₃, hend₃⟩ := seqRun2_spec hbytes
      (by rw [hrun₁₂.copied.level]; omega) hrun₁₂.copied.sound hrun₁₂.copied.took.bound
    have hrun := hrun₁₂.trans hrun₃
    simp only [heq₃]
    split
    · rename_i hne
      exact .inl ⟨w₃, cur₃, _, rfl, hrun.copied, hrun.high, hmoved hrun hne⟩
    · rename_i hne
      obtain rfl := not_not.mp hne
      have hsame₂ : cur₂ = cur₃ := Nat.le_antisymm hrun₃.copied.took.le hrun₁₂.copied.took.le
      subst hsame₂
      have hsame₁ : cur₁ = cur₂ := Nat.le_antisymm hrun₂.copied.took.le hrun₁.copied.took.le
      subst hsame₁
      exact .inr ⟨rfl, not_or.mpr ⟨hend₃, not_or.mpr ⟨hend₂, hend₁⟩⟩⟩

/-! ## The scalar reader -/

/-- A character too large for a level stands under the cursor. -/
def WideAt (src : Source) (cur bound : Nat) : Prop :=
  ∃ d cur', Took src cur cur' [d] ∧ bound ≤ d

/-- Behind some characters of a level, in the next sixteen bytes, none stands that a string can
hold. -/
def BadBehind (src : Source) (level cur : Nat) : Prop :=
  ∃ cur' ds, Took src cur cur' ds ∧ (∀ d ∈ ds, d < levelBound level) ∧ cur' < cur + 16 ∧
    BadAt src cur'

theorem BadAt.behind {level : Nat} (hle : cur ≤ src.len) (h : BadAt src cur) :
    BadBehind src level cur :=
  ⟨cur, [], .refl hle, by simp, by omega, h⟩

/-- What stands under the cursor when a block reader returns. -/
def StopSpec (src : Source) (level limit cur : Nat) : BlockState → Prop
  | .continue => limit ≤ cur
  | .end => src.read cur = 0x22
  | .escape => src.read cur = 0x5C
  | .promote => level ≠ 4 ∧ WideAt src cur (levelBound level)
  | .invalid => BadBehind src level cur

/-- What a block reader does: copy some characters and stop. The mark for ASCII is right where it is
asked for, at the end of the string or when it goes on with characters of one byte. -/
structure BlockSpec (src : Source) (limit : Nat) (w : Writer) (cur : Nat) (state : BlockState)
    (w' : Writer) (cur' : Nat) (ds : List Nat) : Prop where
  copied : Copied src w cur w' cur' ds
  ascii : state ≠ .promote → state ≠ .invalid → w.level = 1 →
    (w'.isAscii = true ↔ w.isAscii = true ∧ ∀ d ∈ ds, d < 0x80)
  stop : StopSpec src w.level limit cur' state

/-- What was copied before a block reader began. -/
theorem BlockSpec.after {limit cur₁ cur' : Nat} {state : BlockState} {w₁ w' : Writer}
    {ds₁ ds : List Nat} (h : BlockSpec src limit w₁ cur₁ state w' cur' ds)
    (hcopied : Copied src w cur w₁ cur₁ ds₁)
    (hmark : w.level = 1 → (w₁.isAscii = true ↔ w.isAscii = true ∧ ∀ d ∈ ds₁, d < 0x80)) :
    BlockSpec src limit w cur state w' cur' (ds₁ ++ ds) := by
  refine ⟨hcopied.trans h.copied, fun hpromote hinvalid hl => ?_, hcopied.level ▸ h.stop⟩
  rw [h.ascii hpromote hinvalid (hcopied.level.trans hl), hmark hl, and_assoc,
    List.forall_mem_append]

/-- A sequence no level below reads asks for wider characters; anything else is no character. -/
theorem seqs_none (hbytes : src.IsBytes) (hsound : w.Sound) (hle : cur ≤ src.len)
    (hhigh : 0x80 ≤ src.read cur) (hno : ¬ LevelSeq src w.level cur) :
    if needsPromote w.level (byteLoad4 src cur) then
      w.level ≠ 4 ∧ WideAt src cur (levelBound w.level)
    else BadAt src cur := by
  have h₂ : SeqAt2 src cur → Took src cur (cur + 2) [seq2 (src.read cur) (src.read (cur + 1))] :=
    fun h => .seq2 hle h
  have h₃ : SeqAt3 src cur →
      Took src cur (cur + 3) [seq3 (src.read cur) (src.read (cur + 1)) (src.read (cur + 2))] :=
    fun h => .seq3 hle h
  have h₄ : SeqAt4 src cur → Took src cur (cur + 4)
      [seq4 (src.read cur) (src.read (cur + 1)) (src.read (cur + 2)) (src.read (cur + 3))] :=
    fun h => .seq4 hle h
  -- a character would be one of the sequences tried
  have hbad : ¬ SeqAt2 src cur → ¬ SeqAt3 src cur → ¬ SeqAt4 src cur → BadAt src cur := by
    intro hno₂ hno₃ hno₄
    refine ⟨by omega, by omega, fun d cur' htook => ?_⟩
    rcases htook.cases with ⟨hlow, -⟩ | ⟨hseq, -⟩ | ⟨hseq, -⟩ | ⟨hseq, -⟩
    · omega
    · exact hno₂ hseq
    · exact hno₃ hseq
    · exact hno₄ hseq
  unfold needsPromote
  unfold LevelSeq at hno
  rcases hsound.level with hl | hl | hl
  · simp only [hl, if_true, Bool.or_eq_true, utf8IsSeq2_iff hbytes, utf8IsSeq3_iff hbytes,
      utf8IsSeq4_iff hbytes] at hno ⊢
    split
    · rename_i h
      refine ⟨by decide, ?_⟩
      rcases h with (h | h) | h
      · exact ⟨_, _, h₂ h, Nat.le_of_not_lt fun hlt => hno ⟨h, hlt⟩⟩
      · exact ⟨_, _, h₃ h, le_trans (by decide) h.range.1⟩
      · exact ⟨_, _, h₄ h, le_trans (by decide) h.2.2.2.2.2.1⟩
    · rename_i h
      exact hbad (fun hseq => h (.inl (.inl hseq))) (fun hseq => h (.inl (.inr hseq)))
        fun hseq => h (.inr hseq)
  · simp only [hl, OfNat.ofNat_ne_one, if_false, if_true, utf8IsSeq4_iff hbytes] at hno ⊢
    split
    · rename_i h
      exact ⟨by decide, _, _, h₄ h, h.2.2.2.2.2.1⟩
    · rename_i h
      exact hbad (fun hseq => hno (.inl hseq)) (fun hseq => hno (.inr hseq)) h
  · simp only [hl, OfNat.ofNat_ne_one, if_false, show ¬ 4 = 2 by decide, Bool.false_eq_true]
      at hno ⊢
    exact hbad (fun hseq => hno (.inl hseq)) (fun hseq => hno (.inr (.inl hseq)))
      fun hseq => hno (.inr (.inr hseq))

/-- The induction is on the fuel, which outlasts the bytes left. -/
theorem decodeBytesBlockScalar_spec (hbytes : src.IsBytes) (limit fuel : Nat) (hsound : w.Sound)
    (hle : cur ≤ src.len) (hfuel : src.len - cur < fuel) :
    ∃ state w' cur' ds, decodeBytesBlockScalar src limit fuel w cur = (state, w', cur') ∧
      BlockSpec src limit w cur state w' cur' ds := by
  induction fuel generalizing w cur with
  | zero => omega
  | succ fuel ih =>
      obtain ⟨w₁, cur₁, ds₁, heq₁, hcopied₁, hmark₁, hlow₁, hend₁⟩ :=
        asciiRun_spec hbytes limit (src.len - cur) hsound hle (Nat.le_refl _)
      have hascii : w₁.isAscii = true ↔ w.isAscii = true ∧ ∀ d ∈ ds₁, d < 0x80 := by
        rw [hmark₁]
        exact ⟨fun h => ⟨h, hlow₁⟩, And.left⟩
      unfold decodeBytesBlockScalar
      simp only [heq₁]
      split
      · exact ⟨_, _, _, ds₁, rfl, hcopied₁, fun _ _ _ => hascii, ‹_›⟩
      rename_i hlimit
      split
      · rename_i hlow
        have hesc : isEscapeUnit (src.read cur₁) = true :=
          (hend₁.resolve_left hlimit).resolve_right (by omega)
        split
        · exact ⟨_, _, _, ds₁, rfl, hcopied₁, fun _ _ _ => hascii, ‹_›⟩
        split
        · exact ⟨_, _, _, ds₁, rfl, hcopied₁, fun _ _ _ => hascii, ‹_›⟩
        · rename_i hq hb
          refine ⟨_, _, _, ds₁, rfl, hcopied₁, fun _ _ _ => hascii,
            BadAt.behind hcopied₁.took.bound ⟨hq, hb, fun d cur' htook => ?_⟩⟩
          rw [htook.head_plain] at hesc
          cases hesc
      · rename_i hhigh
        have hhigh := Nat.le_of_not_lt hhigh
        rcases seqs_spec hbytes hcopied₁.sound hcopied₁.took.bound hhigh with
          ⟨w₂, cur₂, ds₂, heq₂, hcopied₂, hhigh₂, hne, hmark₂⟩ | ⟨hnone, hno⟩
        · have hmove : cur₁ < cur₂ := hcopied₂.took.lt hne
          have hle₁ := hcopied₁.took.le
          have hbound := hcopied₂.took.bound
          obtain ⟨state, w₃, cur₃, ds₃, heq₃, hspec⟩ :=
            ih hcopied₂.sound hcopied₂.took.bound (by omega)
          simp only [heq₂]
          refine ⟨state, w₃, cur₃, _, heq₃, hspec.after (hcopied₁.trans hcopied₂) fun hone => ?_⟩
          rw [hmark₂ (hcopied₁.level.trans hone)]
          simp only [Bool.false_eq_true, false_iff, not_and]
          intro _ hall
          obtain ⟨d, hd⟩ := List.exists_mem_of_ne_nil _ hne
          have := hhigh₂ d hd
          have := hall d (List.mem_append_right _ hd)
          omega
        · simp only [hnone]
          have hpromote := seqs_none hbytes hcopied₁.sound hcopied₁.took.bound hhigh hno
          split
          · rename_i h
            rw [if_pos h] at hpromote
            exact ⟨_, _, _, ds₁, rfl, hcopied₁, fun _ _ _ => hascii, hcopied₁.level ▸ hpromote⟩
          · rename_i h
            rw [if_neg h] at hpromote
            exact ⟨_, _, _, ds₁, rfl, hcopied₁, fun _ _ _ => hascii,
              hpromote.behind hcopied₁.took.bound⟩

end SsrJson.Decode
