import SsrJson.Decode.BytesBlockSpec
import SsrJson.Decode.StrCopySpec

/-!
# The string reader for `bytes` sources

Between two blocks the scratch buffer holds the characters read so far, at the width of the largest
one or, right after a block asked for wider characters, of the one under the cursor. What
`loads_bytes` returns is what the plain reader gives for UTF-8.
-/

namespace SsrJson.Decode

open Spec Utf8

variable {isa : Isa} {src : Source} {cur : Nat} {w : Writer} {cs : List Nat}

/-! ## Wide characters under the cursor -/

/-- The first character passed is the one under the cursor. -/
theorem Took.head_eq {cur₁ cur₂ d e : Nat} {ds : List Nat} (h : Took src cur cur₁ [d])
    (h' : Took src cur cur₂ (e :: ds)) : d = e := by
  have hnext : Utf8.next (src.rest cur) = some (e, ds.flatMap bytes ++ src.rest cur₂) := by
    refine next_iff.mpr ⟨bytes e, if_pos (h'.plain e List.mem_cons_self).1, ?_⟩
    rw [h'.rest, List.flatMap_cons, List.append_assoc]
  rw [h.next_eq] at hnext
  exact congrArg Prod.fst (Option.some.inj hnext)

/-- The first byte of a character above `0x7F`. -/
theorem Took.lead {cur' d : Nat} (h : Took src cur cur' [d]) (hd : 0x80 ≤ d) :
    0x80 ≤ src.read cur ∧ (src.read cur < 0xF0 ↔ d < 0x10000) ∧
      (0x100 ≤ d → 0xC4 ≤ src.read cur) := by
  have hscalar := (h.plain d List.mem_cons_self).1
  have hmax := (isScalar_iff.mp hscalar).1
  have hlt := h.lt (List.cons_ne_nil _ _)
  have hbound := h.bound
  have hhead : (bytes d).head? = some (src.read cur) := by
    have hrest := congrArg List.head? h.rest
    rw [Source.rest_of_lt (by omega), List.flatMap_singleton] at hrest
    rcases bytes_cases hscalar with ⟨-, hb⟩ | ⟨_, _, -, -, hb⟩ | ⟨_, _, _, -, -, hb⟩ |
      ⟨_, _, _, _, -, -, hb⟩ <;> rw [hb] at hrest ⊢ <;> exact hrest.symm
  unfold bytes at hhead
  split_ifs at hhead <;> simp only [List.head?_cons, Option.some.injEq] at hhead <;> omega

theorem WideAt.not_escape {bound : Nat} (h : WideAt src cur bound) (hbound : 0x80 ≤ bound) :
    isEscapeUnit (src.read cur) = false := by
  obtain ⟨d, cur', htook, hd⟩ := h
  exact Took.isEscapeUnit_high (htook.lead (hbound.trans hd)).1

/-! ## The characters read so far -/

/-- The scratch buffer holds the characters `cs`. It is as wide as they or the one under the cursor
need. -/
structure Holds (src : Source) (w : Writer) (cur : Nat) (cs : List Nat) : Prop where
  sound : w.Sound
  content : w.content = cs
  fits : maxChar cs < 256 ^ w.level
  ascii : w.level = 1 → (w.isAscii = true ↔ maxChar cs ≤ 0x7F)
  two : w.level = 2 → 0xFF < maxChar cs ∨ WideAt src cur 0x100
  four : w.level = 4 → 0xFFFF < maxChar cs ∨ WideAt src cur 0x10000

namespace Holds

/-- Where no character stands under the cursor, only those read count. -/
theorem records (h : Holds src w cur cs) (hesc : isEscapeUnit (src.read cur) = true) :
    Records isa .ascii w Vec.setzero cs := by
  have hnone : ∀ {bound : Nat}, 0x80 ≤ bound → ¬ WideAt src cur bound := by
    intro bound hbound hwide
    rw [hwide.not_escape hbound] at hesc
    cases hesc
  have hlevel := h.sound.level
  refine ⟨h.sound, h.content, ?_, h.fits, fun h => absurd rfl h, fun _ => h.ascii, fun hl => ?_,
    fun hl => ?_⟩
  · rw [StrKind.size]
    omega
  · exact .inr ((h.two hl).resolve_right (hnone (by decide)))
  · exact .inr ((h.four hl).resolve_right (hnone (by decide)))

theorem ofRecords (h : Records isa .ascii w Vec.setzero cs) : Holds src w cur cs :=
  ⟨h.sound, h.content, h.fits, h.ascii rfl, fun hl => .inl ((h.two hl).resolve_left nofun),
    fun hl => .inl ((h.four hl).resolve_left nofun)⟩

/-- A wide character under the cursor is the first one a reader passes. -/
theorem wide_copied {w' : Writer} {cur' bound : Nat} {ds : List Nat}
    (hcopied : Copied src w cur w' cur' ds)
    (h : bound ≤ maxChar cs ∨ WideAt src cur bound) :
    bound ≤ maxChar (cs ++ ds) ∨ WideAt src cur' bound := by
  rw [maxChar_append, le_max_iff]
  rcases h with h | h
  · exact .inl (.inl h)
  cases ds with
  | nil =>
      rw [hcopied.took.same]
      exact .inr h
  | cons e ds =>
      obtain ⟨d, cur₁, htook, hd⟩ := h
      obtain rfl := htook.head_eq hcopied.took
      exact .inl (.inr (hd.trans (maxChar_le.mp (Nat.le_refl _) d List.mem_cons_self)))

/-- What a block reader copied is read too. -/
theorem copied {w' : Writer} {cur' : Nat} {ds : List Nat} (h : Holds src w cur cs)
    (hcopied : Copied src w cur w' cur' ds)
    (hascii : w.level = 1 → (w'.isAscii = true ↔ w.isAscii = true ∧ ∀ d ∈ ds, d < 0x80)) :
    Holds src w' cur' (cs ++ ds) := by
  refine ⟨hcopied.sound, ?_, ?_, fun hl => ?_, fun hl => ?_, fun hl => ?_⟩
  · rw [hcopied.content, h.content]
  · rw [hcopied.level, maxChar_append]
    refine Nat.max_lt.mpr ⟨h.fits, Nat.lt_of_le_pred (Nat.pow_pos (by decide)) ?_⟩
    refine maxChar_le.mpr fun d hd => Nat.le_pred_of_lt ?_
    exact (hcopied.fits d hd).trans_le (levelBound_le h.sound.level)
  · rw [hcopied.level] at hl
    rw [hascii hl, h.ascii hl, maxChar_append, Nat.max_le, @maxChar_le ds _]
    exact and_congr_right fun _ => forall₂_congr fun d _ => Nat.lt_succ_iff
  · rw [hcopied.level] at hl
    exact wide_copied hcopied (h.two hl)
  · rw [hcopied.level] at hl
    exact wide_copied hcopied (h.four hl)

/-- Going on with wider characters where one stands under the cursor. -/
theorem promote {w' : Writer} {cur' : Nat} {ds : List Nat} (h : Holds src w cur cs)
    (hcopied : Copied src w cur w' cur' ds)
    (hstop : w.level ≠ 4 ∧ WideAt src cur' (levelBound w.level)) :
    Holds src (promoteBuffer w' (src.read cur')) cur' (cs ++ ds) ∧
      w.level < (promoteBuffer w' (src.read cur')).level := by
  obtain ⟨hl, d, cur'', htook, hd⟩ := hstop
  have hsound := hcopied.sound
  have hlevel := hcopied.level
  have hmax : maxChar (cs ++ ds) < 256 ^ w.level := by
    rw [maxChar_append]
    refine Nat.max_lt.mpr ⟨h.fits, Nat.lt_of_le_pred (Nat.pow_pos (by decide)) ?_⟩
    refine maxChar_le.mpr fun d hd => Nat.le_pred_of_lt ?_
    exact (hcopied.fits d hd).trans_le (levelBound_le h.sound.level)
  have hcontent : w'.content = cs ++ ds := by rw [hcopied.content, h.content]
  have hbound := levelBound_pos w.level
  obtain ⟨-, hfour, hlead⟩ := htook.lead (by omega)
  have hlead := hlead (by omega)
  have hmin : utf8LeadMinUcsLevel (src.read cur') = 2 ↔ d < 0x10000 := by
    rw [utf8LeadMinUcsLevel, if_neg (by omega), ← hfour]
    split <;> omega
  have hlevel' := h.sound.level
  unfold promoteBuffer
  simp only [hmin, hlevel]
  split
  · rename_i hnarrow
    rw [hnarrow.1] at hlevel hmax ⊢
    obtain ⟨-, h32⟩ := hsound.one hlevel
    exact ⟨⟨⟨.inr (.inl rfl), nofun, fun _ => h32⟩, hcontent, hmax.trans (by decide : 256 ^ 1 < 256 ^ 2),
      nofun, fun _ => .inr ⟨d, cur'', htook, by omega⟩, nofun⟩, Nat.lt_succ_self 1⟩
  · rename_i hwide
    have hd : 0x10000 ≤ d := by
      by_contra hlt
      have hone : w.level ≠ 1 := fun hone => hwide ⟨hone, by omega⟩
      rw [levelBound, if_neg hone, if_pos (by omega)] at hd
      exact hlt hd
    have hlt : w.level < 4 := by omega
    exact ⟨⟨⟨.inr (.inr rfl), nofun, nofun⟩, hcontent,
      hmax.trans_le (Nat.pow_le_pow_right (by decide) hlt.le), nofun, nofun,
      fun _ => .inr ⟨d, cur'', htook, hd⟩⟩, hlt⟩

end Holds

/-! ## The loops -/

/-- How the loops may end when `cs` was read before. -/
def LoopSpec (src : Source) (cs : List Nat) (cur : Nat) : Option Writer × Nat → Prop
  | (some w, last) => ∃ ds, unescape .utf8 (src.rest cur) = some (ds, src.rest (last + 1)) ∧
      Records .sse .ascii w Vec.setzero (cs ++ ds) ∧ last < src.len
  | (none, _) => unescape .utf8 (src.rest cur) = none

/-- What a round adds stands before what the rest of the text gives. -/
theorem LoopSpec.prepend {ds : List Nat} {next : Nat} {result : Option Writer × Nat}
    (heq : unescape .utf8 (src.rest cur) = prepend ds (unescape .utf8 (src.rest next)))
    (h : LoopSpec src (cs ++ ds) next result) : LoopSpec src cs cur result := by
  obtain ⟨_ | w, last⟩ := result
  · simp only [LoopSpec] at h ⊢
    rw [heq, h, prepend_none]
  · obtain ⟨es, hes, hrec, hlt⟩ := h
    refine ⟨ds ++ es, ?_, ?_, hlt⟩
    · rw [heq, hes]
      rfl
    · rwa [← List.append_assoc]

/-- How often the loops may still go on: they pass bytes or widen the characters. -/
def roundsLeft (src : Source) (w : Writer) (cur : Nat) : Nat := src.len - cur + (5 - w.level) / 2

/-- The induction is on the fuel; `Holds` is its invariant. -/
theorem decodeBytesUtf8Loop_spec (hbytes : src.IsBytes) (fuel : Nat) (h : Holds src w cur cs)
    (hle : cur ≤ src.len) (hfuel : roundsLeft src w cur < fuel) :
    LoopSpec src cs cur (decodeBytesUtf8Loop isa src fuel w cur) := by
  induction fuel generalizing w cur cs with
  | zero => omega
  | succ fuel ih =>
      obtain ⟨state, w', cur', ds, heq, hspec⟩ := decodeBytesBlock_spec isa hbytes (src.len + 1) 32
        (by decide) h.sound hle (by omega)
      have hcopied := hspec.copied
      have htook := hcopied.took
      have hbound := htook.bound
      have hmove := htook.le
      have hstop := hspec.stop
      have hplain := htook.unescape_eq
      unfold decodeBytesUtf8Loop
      rw [heq]
      cases state with
      | «continue» =>
          have hlimit : src.len + 1 ≤ cur' := hstop
          omega
      | «end» =>
          have hquote : src.read cur' = 0x22 := hstop
          have hholds := h.copied hcopied (hspec.ascii nofun nofun)
          refine .prepend hplain ⟨[], ?_, ?_, ?_⟩
          · rw [Source.rest_of_read hbound hquote (by decide), unescape_quote]
          · rw [List.append_nil]
            exact hholds.records (by rw [hquote]; rfl)
          · exact Source.lt_of_read hbound (by omega)
      | escape =>
          have hback : src.read cur' = 0x5C := hstop
          have hholds := h.copied hcopied (hspec.ascii nofun nofun)
          have hrec := @Holds.records .sse _ _ _ _ hholds (by rw [hback]; rfl)
          have hlt := Source.lt_of_read hbound (show src.read cur' ≠ 0 by omega)
          have hesc := doDecodeEscape_spec hbytes.fits hlt
          have hrest := Source.rest_of_read hbound hback (by decide)
          refine .prepend hplain ?_
          dsimp only
          cases hread : doDecodeEscape .ucs1 src cur' with
          | none =>
              rw [hread] at hesc
              cases hesc with
              | notFound hnone => simp only [LoopSpec, hrest, unescape_backslash, hnone]
          | some p =>
              obtain ⟨val, size⟩ := p
              rw [hread] at hesc
              cases hesc with
              | found htwo hsize hval hsome =>
                  refine @LoopSpec.prepend _ _ _ [val] (cur' + size) _ ?_ (ih ?_ hsize ?_)
                  · rw [hrest, unescape_backslash, hsome]
                  · have hpush := hrec.escape hval
                    exact .ofRecords hpush
                  · have hlevel : w.level ≤ (w'.processEscapeAscii val).level := by
                      rw [← hcopied.level, Writer.processEscapeAscii, Writer.push_level,
                        Writer.promote_level]
                      dsimp only
                      split_ifs <;> omega
                    unfold roundsLeft at hfuel ⊢
                    omega
      | promote =>
          obtain ⟨hholds, hwider⟩ := h.promote hcopied hstop
          refine .prepend hplain (ih hholds hbound ?_)
          have := h.sound.level
          have := hholds.sound.level
          unfold roundsLeft at hfuel ⊢
          omega
      | invalid =>
          refine .prepend hplain ?_
          obtain ⟨last, es, hes, -, -, hbad⟩ := hstop
          show unescape .utf8 (src.rest cur') = none
          rw [hes.unescape_eq, hbad.unescape_eq hes.bound, prepend_none]

/-! ## Scanning -/

/-- Everything from `start` up to the cursor is plain ASCII. -/
structure Scanned (src : Source) (start cur : Nat) : Prop where
  le : start ≤ cur
  bound : cur ≤ src.len
  plain : ∀ pos, start ≤ pos → pos < cur → isBytesStop (src.read pos) = false

variable {start : Nat}

theorem isBytesStop_eq_false {b : Nat} :
    isBytesStop b = false ↔ isEscapeUnit b = false ∧ b < 0x80 := by
  simp [isBytesStop]

/-- More bytes that stop no scan. The zero behind the source would. -/
theorem Scanned.run {n : Nat} (h : Scanned src start cur)
    (hplain : ∀ i < n, isBytesStop (src.read (cur + i)) = false) :
    Scanned src start (cur + n) := by
  induction n with
  | zero => exact h
  | succ n ih =>
      obtain ⟨hle, hbound, hall⟩ := ih fun i hi => hplain i (Nat.lt_succ_of_lt hi)
      have hlast := hplain n (Nat.lt_succ_self n)
      have hunit := isEscapeUnit_eq_false.mp (isBytesStop_eq_false.mp hlast).1
      have hlt := Source.lt_of_read hbound (show src.read (cur + n) ≠ 0 by omega)
      refine ⟨by omega, hlt, fun pos hpos hpos' => ?_⟩
      by_cases heq : pos = cur + n
      · rwa [heq]
      · exact hall pos hpos (by omega)

/-- One round: nothing stops, or the cursor is at the first byte that does. -/
theorem decodeBytesScanLoop_spec {registers : Nat} (hregisters : 0 < registers)
    (h : Scanned src start cur) :
    let result := decodeBytesScanLoop isa src registers cur
    Scanned src start result.2 ∧ (result.1 = true → cur < result.2) ∧
      (result.1 = false → isBytesStop (src.read result.2) = true) := by
  have hbatch : 0 < readBatchCount isa .ucs1 := by cases isa <;> decide
  unfold decodeBytesScanLoop
  dsimp only
  split
  · rename_i hnone
    have hpos := Nat.mul_pos hregisters hbatch
    exact ⟨h.run (firstLane_eq_none.mp hnone), fun _ => by dsimp only; omega, nofun⟩
  · rename_i i hsome
    obtain ⟨-, hstop, hplain⟩ := firstLane_eq_some.mp hsome
    exact ⟨h.run hplain, nofun, fun _ => hstop⟩

theorem scanOnes_spec (fuel : Nat) (h : Scanned src start cur) (hfuel : src.len - cur < fuel) :
    Scanned src start (scanOnes isa src fuel cur) ∧
      isBytesStop (src.read (scanOnes isa src fuel cur)) = true := by
  induction fuel generalizing cur with
  | zero => omega
  | succ fuel ih =>
      have hround := @decodeBytesScanLoop_spec isa _ _ _ 1 (by decide) h
      unfold scanOnes
      generalize decodeBytesScanLoop isa src 1 cur = result at hround ⊢
      obtain ⟨_ | _, next⟩ := result
      · exact ⟨hround.1, hround.2.2 rfl⟩
      · have hmove : cur < next := hround.2.1 rfl
        have hbound : next ≤ src.len := hround.1.bound
        exact ih hround.1 (by omega)

theorem scanFours_spec (fuel : Nat) (h : Scanned src start cur) (hfuel : src.len - cur < fuel) :
    Scanned src start (scanFours isa src fuel cur) ∧
      isBytesStop (src.read (scanFours isa src fuel cur)) = true := by
  induction fuel generalizing cur with
  | zero => omega
  | succ fuel ih =>
      have hround := @decodeBytesScanLoop_spec isa _ _ _ 4 (by decide) h
      unfold scanFours
      split
      · generalize decodeBytesScanLoop isa src 4 cur = result at hround ⊢
        obtain ⟨_ | _, next⟩ := result
        · exact ⟨hround.1, hround.2.2 rfl⟩
        · have hmove : cur < next := hround.2.1 rfl
          have hbound : next ≤ src.len := hround.1.bound
          exact ih hround.1 (by omega)
      · exact scanOnes_spec _ h (by omega)

theorem bytesScan_spec (isKey : Bool) (hle : start ≤ src.len) :
    Scanned src start (bytesScan isa src isKey start) ∧
      isBytesStop (src.read (bytesScan isa src isKey start)) = true := by
  have hinit : Scanned src start start := ⟨Nat.le_refl _, hle, fun pos _ _ => by omega⟩
  unfold bytesScan
  split
  · exact scanOnes_spec _ hinit (by omega)
  have hfirst := @decodeBytesScanLoop_spec isa _ _ _ 1 (by decide) hinit
  generalize decodeBytesScanLoop isa src 1 start = result at hfirst ⊢
  obtain ⟨_ | _, cur⟩ := result
  · exact ⟨hfirst.1, hfirst.2.2 rfl⟩
  have hsecond := @decodeBytesScanLoop_spec isa _ _ _ 1 (by decide) hfirst.1
  dsimp only at hsecond ⊢
  generalize decodeBytesScanLoop isa src 1 cur = result at hsecond ⊢
  obtain ⟨_ | _, next⟩ := result
  · exact ⟨hsecond.1, hsecond.2.2 rfl⟩
  · exact scanFours_spec _ hsecond.1 (by omega)

/-- The bytes passed are characters. -/
theorem Scanned.took (h : Scanned src start cur) :
    Took src start cur ((List.range (cur - start)).map (loadVec src start)) := by
  have hle := h.le
  have hbound := h.bound
  have htook := @Took.lanes src start (loadVec src start) id (cur - start) (by omega) rfl
      fun k hk hle' => by
      obtain ⟨hesc, hlow⟩ := isBytesStop_eq_false.mp (h.plain (start + k) (by omega) (by omega))
      exact .ascii hle' hlow hesc
  rwa [id, Nat.add_sub_cancel' hle] at htook

theorem Scanned.low (h : Scanned src start cur) {d : Nat}
    (hd : d ∈ (List.range (cur - start)).map (loadVec src start)) : d < 0x80 := by
  obtain ⟨k, hk, rfl⟩ := List.mem_map.mp hd
  have hk := List.mem_range.mp hk
  exact (isBytesStop_eq_false.mp (h.plain (start + k) (by omega) (by omega))).2

/-- What was scanned goes to the scratch buffer first. -/
theorem Scanned.holds (h : Scanned src start cur) (scratch : ByteBuffer) :
    Holds src (((⟨1, scratch, 0, 0, 0, true, 0⟩ : Writer).put 0 (cur - start)
      (loadVec src start)).advance (cur - start)) cur
      ((List.range (cur - start)).map (loadVec src start)) := by
  have hsound : (⟨1, scratch, 0, 0, 0, true, 0⟩ : Writer).Sound :=
    ⟨.inl rfl, fun _ => ⟨rfl, rfl⟩, nofun⟩
  have hinit : Holds src ⟨1, scratch, 0, 0, 0, true, 0⟩ start [] :=
    ⟨hsound, rfl, (by decide : 0 < 256 ^ 1), fun _ => iff_of_true rfl (Nat.zero_le _), nofun, nofun⟩
  have hcopied := @Copied.store _ _ _ _ _ (loadVec src start) (cur - start) hsound h.took
    (by simp) (fun k _ => by simp) fun d hd => (h.low hd).trans (by decide : 0x80 < levelBound 1)
  rw [List.length_map, List.length_range] at hcopied
  have hholds := hinit.copied hcopied fun _ => by
    rw [Writer.advance_isAscii]
    exact (and_iff_left fun d hd => h.low hd).symm
  rwa [List.nil_append] at hholds

/-! ## The whole reader -/

/-- The string at the end of the loops. -/
theorem finishBytes_spec (h : Records .sse .ascii w Vec.setzero cs) (isKey : Bool) :
    (finishBytes isKey w).str = .ofChars cs ∧ (finishBytes isKey w).Faithful := by
  have hkind := h.finishKind_eq
  rw [PyStr.ofChars, ← hkind]
  unfold finishBytes finishKind
  rw [h.content]
  simp only [if_true]
  split
  · rename_i hl
    split
    · rename_i hascii
      have hmax := (h.ascii rfl hl).mp hascii
      refine ⟨rfl, makeUnicodeFromSrcAscii_faithful isKey fun c hc => ?_⟩
      exact (maxChar_le.mp hmax c hc).trans_lt (by decide)
    · exact ⟨rfl, by simp [Made.Faithful]⟩
  split
  · exact ⟨by simp, by simp [Made.Faithful]⟩
  · exact ⟨by simp, by simp [Made.Faithful]⟩

/-- `loads_bytes` reads as the plain reader does. -/
theorem loadsBytes_spec (hbytes : src.IsBytes) (scratch : ByteBuffer) (isKey : Bool)
    (hle : start ≤ src.len) :
    StrSpec .utf8 src start (loadsBytes isa src scratch isKey start) := by
  obtain ⟨hscan, hstop⟩ := @bytesScan_spec isa _ _ isKey hle
  unfold loadsBytes
  dsimp only
  generalize bytesScan isa src isKey start = cur at hscan hstop ⊢
  have hbound := hscan.bound
  have htook := hscan.took
  have hplain := htook.unescape_eq
  split
  · rename_i hquote
    have hlt := Source.lt_of_read hbound (show src.read cur ≠ 0 by omega)
    rw [Source.rest_of_read hbound hquote (by decide), unescape_quote] at hplain
    refine ⟨_, hplain, ?_, makeUnicodeFromSrcAscii_faithful isKey fun c hc => ?_, hlt⟩
    · have hmax : maxChar ((List.range (cur - start)).map (loadVec src start)) ≤ 0x7F :=
        maxChar_le.mpr fun d hd => Nat.le_of_lt_succ (hscan.low hd)
      rw [List.append_nil, PyStr.ofChars, StrKind.ofChar, if_pos hmax]
      rfl
    · exact (hscan.low hc).trans (by decide)
  rename_i hquote
  split
  · rename_i hctl
    refine hplain.trans ?_
    rcases Nat.lt_or_eq_of_le hbound with hlt | heq
    · rw [Source.rest_of_lt hlt, unescape_control .utf8 _ hctl, prepend_none]
    · rw [heq, Source.rest_len, unescape_nil, prepend_none]
  · have hholds := hscan.holds scratch
    have hloop := @decodeBytesUtf8Loop_spec isa _ _ _ _ hbytes (2 * src.len + 3) hholds hbound (by
      have := hholds.sound.level
      unfold roundsLeft
      omega)
    unfold decodeBytesUtf8
    dsimp only
    generalize decodeBytesUtf8Loop isa src (2 * src.len + 3) _ cur = result at hloop ⊢
    obtain ⟨_ | w, last⟩ := result
    · simp only [LoopSpec] at hloop
      simp only [StrSpec]
      rw [hplain, hloop, prepend_none]
    · obtain ⟨ds, hds, hrec, hlt⟩ := hloop
      obtain ⟨hstr, hfaithful⟩ := finishBytes_spec hrec isKey
      exact ⟨_, by rw [hplain, hds, prepend_some], hstr, hfaithful, hlt⟩

end SsrJson.Decode
