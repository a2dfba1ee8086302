import SsrJson.Decode.Str
import SsrJson.Decode.StrScanLemmas

/-!
# What the scratch buffer holds

Vector stores write more than they keep, beyond the writer. `Stored` says what such stores leave
alone and which characters they put behind the writer, so that moving the writer on adds these
characters to the content, whatever width the earlier ones have.
-/

namespace SsrJson.Decode

variable {isa : Isa} {kind : StrKind} {src : Source}

/-! ## The content -/

namespace Writer

/-- The part that grows is the last one with characters in it. -/
structure Sound (w : Writer) : Prop where
  level : w.level = 1 ∨ w.level = 2 ∨ w.level = 4
  one : w.level = 1 → w.u16size = 0 ∧ w.u32size = 0
  two : w.level = 2 → w.u32size = 0

/-- Stores took `w` to `w'` without touching what `w` holds, and the characters behind the writer
with the indices `P` are those of `lanes`. -/
structure Stored (w w' : Writer) (lanes : Nat → Nat) (P : Nat → Prop) : Prop where
  same : w' = { w with buffer := w'.buffer }
  below : ∀ a < w.level * w.pos, w'.buffer a = w.buffer a
  lanes : ∀ k, P k → w'.buffer.load w.level (w.pos + k) = lanes k

variable {w w' : Writer} {lanes : Nat → Nat} {P : Nat → Prop}

theorem Stored.refl (w : Writer) (lanes : Nat → Nat) : Stored w w lanes fun _ => False :=
  ⟨rfl, fun _ _ => rfl, fun _ h => h.elim⟩

/-- One more store. -/
theorem Stored.put {offset count : Nat} {vec : Nat → Nat} {Q : Nat → Prop}
    (h : Stored w w' lanes P)
    (hvec : ∀ k < count, Q (offset + k) → vec k = lanes (offset + k) ∧ vec k < 256 ^ w.level)
    (hQ : ∀ k, Q k → (offset ≤ k ∧ k < offset + count) ∨ P k) :
    Stored w (w'.put offset count vec) lanes Q := by
  have hlevel : w'.level = w.level := by rw [h.same]
  have hpos : w'.pos = w.pos := by rw [h.same]; rfl
  refine ⟨?_, fun a ha => ?_, fun k hk => ?_⟩
  · exact congrArg (fun v : Writer => { v with buffer := (w'.put offset count vec).buffer }) h.same
  · simp only [Writer.put, hlevel, hpos]
    rw [ByteBuffer.store_below (ha.trans_le (Nat.mul_le_mul_left _ (Nat.le_add_right _ _)))]
    exact h.below a ha
  · simp only [Writer.put, hlevel, hpos]
    by_cases hin : offset ≤ k ∧ k < offset + count
    · obtain ⟨j, rfl⟩ := Nat.exists_eq_add_of_le hin.1
      obtain ⟨heq, hlt⟩ := hvec j (by omega) hk
      rw [← Nat.add_assoc, ByteBuffer.load_store (by omega) hlt, heq]
    · rw [ByteBuffer.load_store_other (by omega)]
      exact h.lanes k ((hQ k hk).resolve_left hin)

theorem Stored.mono {Q : Nat → Prop} (h : Stored w w' lanes P) (hQ : ∀ k, Q k → P k) :
    Stored w w' lanes Q :=
  ⟨h.same, h.below, fun k hk => h.lanes k (hQ k hk)⟩

/-- Moving the writer on takes in what was stored behind it. -/
theorem Stored.content {n d : Nat} (h : Stored w w' lanes (· < n)) (hsound : w.Sound)
    (hd : d ≤ n) : (w'.advance d).content = w.content ++ (List.range d).map lanes := by
  have hnew : ByteBuffer.loadList w'.buffer w.level w.pos d = (List.range d).map lanes := by
    refine List.map_congr_left fun k hk => h.lanes k ?_
    exact (List.mem_range.mp hk).trans_le hd
  have hold : ∀ {width i m : Nat}, width * (i + m) ≤ w.level * w.pos →
      ByteBuffer.loadList w'.buffer width i m = ByteBuffer.loadList w.buffer width i m :=
    fun hle => ByteBuffer.loadList_congr h.below hle
  rw [h.same]
  rcases hsound.level with hl | hl | hl
  · obtain ⟨h16, h32⟩ := hsound.one hl
    simp only [hl, pos, h16, h32, Nat.add_zero] at hnew hold
    simp only [Writer.advance, Writer.content, hl, h16, h32, if_true, ByteBuffer.loadList_zero, List.append_nil,
      ByteBuffer.loadList_add, Nat.zero_add, hnew]
    rw [hold (by omega)]
  · have h32 := hsound.two hl
    simp only [hl, pos, h32, Nat.add_zero] at hnew hold
    simp only [Writer.advance, Writer.content, hl, h32, if_true, ByteBuffer.loadList_zero, List.append_nil,
      ByteBuffer.loadList_add, OfNat.ofNat_ne_one, if_false, hnew]
    rw [hold (by omega), hold (by omega), List.append_assoc]
  · simp only [hl, pos] at hnew hold
    simp only [Writer.advance, Writer.content, hl, ByteBuffer.loadList_add, OfNat.ofNat_ne_one, if_false,
      show ¬ (4 = 2) by decide, hnew]
    rw [hold (by omega), hold (by omega), hold (by omega)]
    simp only [List.append_assoc]

theorem Sound.advance (h : w.Sound) (d : Nat) : (w.advance d).Sound := by
  obtain ⟨hlevel, hone, htwo⟩ := h
  unfold Writer.advance
  split
  · exact ⟨hlevel, hone, htwo⟩
  split
  · exact ⟨hlevel, fun h => absurd h ‹_›, htwo⟩
  · exact ⟨hlevel, fun h => absurd h ‹_›, fun h => absurd h ‹_›⟩

theorem Stored.sound (h : Stored w w' lanes P) (hsound : w.Sound) : w'.Sound := by
  rw [h.same]
  exact ⟨hsound.level, hsound.one, hsound.two⟩

@[simp] theorem advance_level (w : Writer) (d : Nat) : (w.advance d).level = w.level := by
  unfold Writer.advance
  split
  · rfl
  split <;> rfl

@[simp] theorem advance_isAscii (w : Writer) (d : Nat) : (w.advance d).isAscii = w.isAscii := by
  unfold Writer.advance
  split
  · rfl
  split <;> rfl

@[simp] theorem advance_maxEscape (w : Writer) (d : Nat) :
    (w.advance d).maxEscape = w.maxEscape := by
  unfold Writer.advance
  split
  · rfl
  split <;> rfl

/-- Pushing a character that fits adds it to the content. -/
theorem push_content {val : Nat} (hsound : w.Sound) (hval : val < 256 ^ w.level) :
    (w.push val).content = w.content ++ [val] := by
  have hstored : Stored w (w.put 0 1 fun _ => val) (fun _ => val) (· < 1) :=
    (Stored.refl w _).put (fun k _ _ => ⟨rfl, hval⟩) (fun k hk => .inl ⟨Nat.zero_le _, by omega⟩)
  exact hstored.content hsound (Nat.le_refl 1)

theorem push_sound {val : Nat} (hsound : w.Sound) : (w.push val).Sound :=
  Sound.advance (w := w.put 0 1 fun _ => val) ⟨hsound.level, hsound.one, hsound.two⟩ 1

@[simp] theorem push_level (w : Writer) (val : Nat) : (w.push val).level = w.level :=
  advance_level _ _

@[simp] theorem push_isAscii (w : Writer) (val : Nat) : (w.push val).isAscii = w.isAscii :=
  advance_isAscii _ _

@[simp] theorem push_maxEscape (w : Writer) (val : Nat) : (w.push val).maxEscape = w.maxEscape :=
  advance_maxEscape _ _

/-! ## Wider characters -/

/-- The level a writer goes on with. -/
theorem promote_level (w : Writer) (val : Nat) : (w.promote val).level =
    if w.level = 1 then if val < 0x100 then 1 else if val < 0x10000 then 2 else 4
    else if w.level = 2 then if val < 0x10000 then 2 else 4 else w.level := by
  unfold promote
  split
  · rename_i h
    split
    · exact h
    split <;> rfl
  split
  · rename_i h
    split
    · exact h
    · rfl
  · rfl

@[simp] theorem promote_content (w : Writer) (val : Nat) :
    (w.promote val).content = w.content := by
  unfold promote
  split
  · split
    · rfl
    split <;> rfl
  split
  · split <;> rfl
  · rfl

@[simp] theorem promote_isAscii (w : Writer) (val : Nat) :
    (w.promote val).isAscii = w.isAscii := by
  unfold promote
  split
  · split
    · rfl
    split <;> rfl
  split
  · split <;> rfl
  · rfl

@[simp] theorem promote_maxEscape (w : Writer) (val : Nat) :
    (w.promote val).maxEscape = w.maxEscape := by
  unfold promote
  split
  · split
    · rfl
    split <;> rfl
  split
  · split <;> rfl
  · rfl

theorem Sound.promote (h : w.Sound) (val : Nat) : (w.promote val).Sound := by
  unfold Writer.promote
  split
  · rename_i hl
    obtain ⟨h16, h32⟩ := h.one hl
    split
    · exact h
    split
    · exact ⟨.inr (.inl rfl), by simp, fun _ => h32⟩
    · exact ⟨.inr (.inr rfl), by simp, by simp⟩
  split
  · split
    · exact h
    · exact ⟨.inr (.inr rfl), by simp, by simp⟩
  · exact h

end Writer

end SsrJson.Decode
