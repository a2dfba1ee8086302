import SsrJson.Decode.BytesScalarSpec

/-!
# Reading UTF-8 sixteen bytes at a time

What the vector patterns find in a block and put into their lanes are the characters that stand
there. An error a pattern reports is one: no character stands at the cursor, or none behind the
first ones of the block.
-/

namespace SsrJson.Decode

open Spec Utf8

variable {src : Source} {cur : Nat} {w : Writer}

/-! ## Shapes -/

theorem isContByte_eq (hbytes : src.IsBytes) (pos : Nat) :
    isContByte (src.read pos) = isCont (src.read pos) := by
  have hb := hbytes pos
  rw [Bool.eq_iff_iff, isCont_iff]
  simp only [isContByte, and_c0, decide_eq_true_eq]
  omega

variable {stop : Nat}

/-- No character begins inside of another one. -/
theorem Reads.not_cont (hlt : cur < stop) (h : Reads src stop cur) :
    isCont (src.read cur) = false := by
  rw [← Bool.not_eq_true]
  intro hcont
  rw [isCont_iff] at hcont
  rcases h.cases hlt (Took.isEscapeUnit_high hcont.1) with ⟨hlow, -⟩ | ⟨hseq, -⟩ | ⟨hseq, -⟩ |
    ⟨hseq, -⟩
  · omega
  · have := hseq.1
    omega
  · have := hseq.1
    omega
  · have := hseq.1
    omega

/-- Where the next character begins tells how long this one is. -/
theorem Reads.two (hlt : cur + 1 < stop) (h : Reads src stop cur)
    (hplain : isEscapeUnit (src.read cur) = false) (hcont : isCont (src.read (cur + 1)) = true)
    (hnext : isCont (src.read (cur + 2)) = false) :
    SeqAt2 src cur ∧ cur + 2 ≤ src.len ∧ Reads src stop (cur + 2) := by
  rcases h.cases (by omega) hplain with ⟨-, htook⟩ | ⟨hseq, htook⟩ | ⟨hseq, -⟩ | ⟨hseq, -⟩
  · exact absurd hcont (by simp [(htook.reads h).not_cont hlt])
  · exact ⟨hseq, htook.bound, htook.reads h⟩
  · exact absurd hseq.2.2.2.1 (by simp [hnext])
  · exact absurd hseq.2.2.2.1 (by simp [hnext])

theorem Reads.three (hlt : cur + 2 < stop) (h : Reads src stop cur)
    (hplain : isEscapeUnit (src.read cur) = false) (hcont : isCont (src.read (cur + 1)) = true)
    (hcont' : isCont (src.read (cur + 2)) = true) (hnext : isCont (src.read (cur + 3)) = false) :
    SeqAt3 src cur ∧ cur + 3 ≤ src.len ∧ Reads src stop (cur + 3) := by
  rcases h.cases (by omega) hplain with ⟨-, htook⟩ | ⟨-, htook⟩ | ⟨hseq, htook⟩ | ⟨hseq, -⟩
  · exact absurd hcont (by simp [(htook.reads h).not_cont (by omega)])
  · exact absurd hcont' (by simp [(htook.reads h).not_cont hlt])
  · exact ⟨hseq, htook.bound, htook.reads h⟩
  · exact absurd hseq.2.2.2.2.1 (by simp [hnext])

theorem Reads.four (hlt : cur + 3 < stop) (h : Reads src stop cur)
    (hplain : isEscapeUnit (src.read cur) = false) (hcont : isCont (src.read (cur + 1)) = true)
    (hcont' : isCont (src.read (cur + 2)) = true) (hcont'' : isCont (src.read (cur + 3)) = true) :
    SeqAt4 src cur ∧ cur + 4 ≤ src.len ∧ Reads src stop (cur + 4) := by
  rcases h.cases (by omega) hplain with ⟨-, htook⟩ | ⟨-, htook⟩ | ⟨-, htook⟩ | ⟨hseq, htook⟩
  · exact absurd hcont (by simp [(htook.reads h).not_cont (by omega)])
  · exact absurd hcont' (by simp [(htook.reads h).not_cont (by omega)])
  · exact absurd hcont'' (by simp [(htook.reads h).not_cont hlt])
  · exact ⟨hseq, htook.bound, htook.reads h⟩

/-- Characters of one length, one behind the other. -/
theorem Reads.each {P : Nat → Prop} {width count : Nat} (hle : cur ≤ src.len)
    (h : Reads src stop cur)
    (hstep : ∀ k < count, cur + width * k ≤ src.len → Reads src stop (cur + width * k) →
      P (cur + width * k) ∧ cur + width * k + width ≤ src.len ∧
        Reads src stop (cur + width * k + width)) :
    ∀ k < count, P (cur + width * k) := by
  have hall : ∀ k ≤ count, cur + width * k ≤ src.len ∧ Reads src stop (cur + width * k) := by
    intro k hk
    induction k with
    | zero => exact ⟨hle, h⟩
    | succ k ih =>
        obtain ⟨hbound, hreads⟩ := ih (by omega)
        rw [Nat.mul_succ, ← Nat.add_assoc]
        exact (hstep k hk hbound hreads).2
  intro k hk
  obtain ⟨hbound, hreads⟩ := hall k hk.le
  exact (hstep k hk hbound hreads).1

/-! ## Lanes -/

/-- Characters that were composed in lanes. -/
theorem Took.lanes {lanes : Vec} {start : Nat → Nat} {n : Nat} (hle : cur ≤ src.len)
    (hstart : start 0 = 0)
    (htook : ∀ k < n, cur + start k ≤ src.len →
      Took src (cur + start k) (cur + start (k + 1)) [lanes k]) :
    Took src cur (cur + start n) ((List.range n).map lanes) := by
  induction n with
  | zero =>
      rw [hstart]
      exact .refl hle
  | succ n ih =>
      have hinit := ih fun k hk => htook k (Nat.lt_succ_of_lt hk)
      rw [List.range_succ, List.map_append]
      exact hinit.trans (htook n (Nat.lt_succ_self n) hinit.bound)

/-- Such lanes, stored and kept. -/
theorem Copied.lanes {lanes : Vec} {start : Nat → Nat} {n stored : Nat} (hsound : w.Sound)
    (hle : cur ≤ src.len) (hstart : start 0 = 0) (hstored : n ≤ stored)
    (htook : ∀ k < n, cur + start k ≤ src.len →
      Took src (cur + start k) (cur + start (k + 1)) [lanes k])
    (hfits : ∀ k < n, lanes k < levelBound w.level) :
    Copied src w cur ((w.put 0 stored lanes).advance n) (cur + start n)
      ((List.range n).map lanes) := by
  have hcopied := @Copied.store _ _ _ _ _ lanes stored hsound (Took.lanes hle hstart htook)
    (by simpa using hstored) (fun k _ => by simp) (fun d hd => by
      obtain ⟨k, hk, rfl⟩ := List.mem_map.mp hd
      exact hfits k (List.mem_range.mp hk))
  simpa using hcopied

theorem shuffle_eq {v : Vec} {indices : List Nat} {n i : Nat} (h : indices.getD n 0x80 = i)
    (hi : i < 16) : shuffle v indices n = v i := by
  simp only [shuffle, h]
  rw [if_pos (by omega), Nat.mod_eq_of_lt hi]

theorem shuffle_zero {v : Vec} {indices : List Nat} {n : Nat}
    (h : indices.getD n 0x80 = 0xFF) : shuffle v indices n = 0 := by
  simp only [shuffle, h]
  rfl

theorem and_7f (b : Nat) : b &&& 0x7F = b % 128 := by simpa using and_mask b 0 7

theorem composeUpto2_one {b : Nat} (h : b < 0x80) : composeUpto2 b = b := by
  have hhigh : b &&& 0x1F00 = b / 256 % 32 * 256 := and_mask b 8 5
  rw [composeUpto2, and_7f, hhigh, Nat.mod_eq_of_lt h, show b / 256 % 32 * 256 = 0 by omega]
  simp

theorem composeUpto2_two {b₀ b₁ : Nat} (h₀ : 0xC0 ≤ b₀) (h₀' : b₀ < 0xE0)
    (h₁ : isCont b₁ = true) : composeUpto2 (b₁ + 256 * b₀) = seq2 b₀ b₁ := by
  rw [isCont_iff] at h₁
  have hhigh : (b₁ + 256 * b₀) &&& 0x1F00 = (b₁ + 256 * b₀) / 256 % 32 * 256 := and_mask _ 8 5
  rw [composeUpto2, and_7f, hhigh, Nat.shiftRight_eq_div_pow, Nat.or_comm,
    show (b₁ + 256 * b₀) / 256 % 32 * 256 / 2 ^ 2 = (b₁ + 256 * b₀) / 256 % 32 * 2 ^ 6 by omega,
    mul_or _ (by omega)]
  unfold seq2
  omega

/-- The payload three bytes have, whatever the first one is. -/
theorem composeUpto3_eq {b₀ b₁ b₂ : Nat} (h₁ : isCont b₁ = true) (h₂ : isCont b₂ = true) :
    composeUpto3 (b₂ + 256 * (b₁ + 256 * b₀)) =
      b₀ % 16 * 4096 + (b₁ - 0x80) * 64 + (b₂ - 0x80) := by
  rw [isCont_iff] at h₁ h₂
  have hmid : (b₂ + 256 * (b₁ + 256 * b₀)) &&& 0x3F00 =
      (b₂ + 256 * (b₁ + 256 * b₀)) / 256 % 64 * 256 := and_mask _ 8 6
  have hhigh : (b₂ + 256 * (b₁ + 256 * b₀)) &&& 0xF0000 =
      (b₂ + 256 * (b₁ + 256 * b₀)) / 65536 % 16 * 65536 := and_mask _ 16 4
  rw [composeUpto3, and_7f, hmid, hhigh]
  simp only [Nat.shiftRight_eq_div_pow]
  rw [show (b₂ + 256 * (b₁ + 256 * b₀)) / 256 % 64 * 256 / 2 ^ 2 = (b₁ - 0x80) * 2 ^ 6 by omega,
    show (b₂ + 256 * (b₁ + 256 * b₀)) / 65536 % 16 * 65536 / 2 ^ 4 = b₀ % 16 * 2 ^ 12 by omega,
    Nat.or_comm, Nat.or_comm _ ((b₁ - 0x80) * 2 ^ 6), mul_or (a := b₁ - 0x80) 6 (by omega),
    mul_or _ (by omega)]
  omega

/-- The payload four bytes have, whatever the first one is. -/
theorem compose4_eq {b₀ b₁ b₂ b₃ : Nat} (h₁ : isCont b₁ = true) (h₂ : isCont b₂ = true)
    (h₃ : isCont b₃ = true) : compose4 (b₃ + 256 * (b₂ + 256 * (b₁ + 256 * b₀))) =
      b₀ % 8 * 262144 + (b₁ - 0x80) * 4096 + (b₂ - 0x80) * 64 + (b₃ - 0x80) := by
  rw [isCont_iff] at h₁ h₂ h₃
  generalize hp : b₃ + 256 * (b₂ + 256 * (b₁ + 256 * b₀)) = p
  have hone : p &&& 0x3F00 = p / 256 % 64 * 256 := and_mask _ 8 6
  have htwo : p &&& 0x3F0000 = p / 65536 % 64 * 65536 := and_mask _ 16 6
  have hthree : p &&& 0x07000000 = p / 16777216 % 8 * 16777216 := and_mask _ 24 3
  rw [compose4, and_3f, hone, htwo, hthree]
  simp only [Nat.shiftRight_eq_div_pow]
  rw [show p / 256 % 64 * 256 / 2 ^ 2 = (b₂ - 0x80) * 2 ^ 6 by omega,
    show p / 65536 % 64 * 65536 / 2 ^ 4 = (b₁ - 0x80) * 2 ^ 12 by omega,
    show p / 16777216 % 8 * 16777216 / 2 ^ 6 = b₀ % 8 * 2 ^ 18 by omega,
    Nat.or_comm, Nat.or_comm (_ ||| _) ((b₁ - 0x80) * 2 ^ 12),
    Nat.or_comm _ ((b₂ - 0x80) * 2 ^ 6), mul_or (a := b₂ - 0x80) 6 (by omega),
    mul_or (a := b₁ - 0x80) 12 (by omega), mul_or _ (by omega)]
  omega

/-! ## Patterns of one length -/

/-- Sixteen bytes with none among them that ends a run. -/
def PlainBlock (src : Source) (cur : Nat) : Prop :=
  ∀ i < 16, isEscapeUnit (src.read (cur + i)) = false

theorem plainBlock_iff : utf8HasStop (loadVec src cur) = false ↔ PlainBlock src cur := by
  simp [utf8HasStop, PlainBlock, loadVec]

theorem PlainBlock.bound (h : PlainBlock src cur) (hle : cur ≤ src.len) : cur + 16 ≤ src.len := by
  have hall : ∀ i ≤ 16, cur + i ≤ src.len := by
    intro i hi
    induction i with
    | zero => exact hle
    | succ i ih =>
        have hplain := isEscapeUnit_eq_false.mp (h i (by omega))
        have hlt := Source.lt_of_read (ih (by omega)) (show src.read (cur + i) ≠ 0 by omega)
        omega
  exact hall 16 (Nat.le_refl _)

/-- The mask of a block, read off the source. -/
theorem utf8EndOfCp_eq (hbytes : src.IsBytes) (i : Nat) :
    utf8EndOfCp (loadVec src cur) i = !isCont (src.read (cur + i + 1)) := by
  rw [utf8EndOfCp, loadVec, isContByte_eq hbytes, Nat.add_assoc]

theorem seq2x8HasError_iff : seq2x8HasError (loadVec src cur) = false ↔
    ∀ k < 8, SeqAt2 src (cur + 2 * k) := by
  have hlanes : ∀ v : Vec, seq2x8HasError v = false ↔ ∀ i < 16,
      (if i % 2 = 0 then 0xC2 else 0x80) ≤ v i ∧ v i ≤ (if i % 2 = 0 then 0xDF else 0xBF) := by
    simp [seq2x8HasError]
  simp only [hlanes, loadVec, SeqAt2, IsSeq2, isCont_iff]
  constructor
  · intro h k hk
    have h₀ := h (2 * k) (by omega)
    have h₁ := h (2 * k + 1) (by omega)
    rw [if_pos (by omega), if_pos (by omega)] at h₀
    rw [if_neg (by omega), if_neg (by omega), ← Nat.add_assoc] at h₁
    omega
  · intro h i hi
    have hk := h (i / 2) (by omega)
    rcases Nat.mod_two_eq_zero_or_one i with hmod | hmod
    · rw [if_pos hmod, if_pos hmod]
      rw [show 2 * (i / 2) = i by omega] at hk
      omega
    · rw [if_neg (by omega), if_neg (by omega)]
      rw [show cur + 2 * (i / 2) + 1 = cur + i by omega] at hk
      omega

theorem seq2x8_lane {k : Nat} (hk : k < 8) (h : SeqAt2 src (cur + 2 * k)) :
    composeUpto2 (asU16 (shuffle (loadVec src cur) shufSwap2) k) =
      seq2 (src.read (cur + 2 * k)) (src.read (cur + 2 * k + 1)) := by
  have hindex : ∀ k < 8, shufSwap2.getD (2 * k) 0x80 = 2 * k + 1 ∧
      shufSwap2.getD (2 * k + 1) 0x80 = 2 * k := by decide
  rw [asU16, shuffle_eq (hindex k hk).1 (by omega), shuffle_eq (hindex k hk).2 (by omega)]
  exact composeUpto2_two (le_trans (by decide) h.1) h.2.1 h.2.2

/-- The test of a lane for a sequence of three. -/
theorem seq3x4_lane {k : Nat} (hk : k < 4) (h₀ : src.read (cur + 3 * k) < 256)
    (h₁ : isCont (src.read (cur + 3 * k + 1)) = true)
    (h₂ : isCont (src.read (cur + 3 * k + 2)) = true) :
    let cp := composeUpto3 (asU32 (shuffle (loadVec src cur) shufRev3) k)
    (SeqAt3 src (cur + 3 * k) →
      cp = seq3 (src.read (cur + 3 * k)) (src.read (cur + 3 * k + 1)) (src.read (cur + 3 * k + 2))) ∧
    (SeqAt3 src (cur + 3 * k) ↔ ¬ ((src.read (cur + 3 * k) &&& 0xF0 ≠ 0xE0 ∨ max cp 0x7FF = 0x7FF) ∨
      cp &&& 0xF800 = 0xD800)) := by
  have hindex : ∀ k < 4, shufRev3.getD (4 * k) 0x80 = 3 * k + 2 ∧
      shufRev3.getD (4 * k + 1) 0x80 = 3 * k + 1 ∧ shufRev3.getD (4 * k + 2) 0x80 = 3 * k ∧
      shufRev3.getD (4 * k + 3) 0x80 = 0xFF := by decide
  obtain ⟨hi₀, hi₁, hi₂, hi₃⟩ := hindex k hk
  have hcp : composeUpto3 (asU32 (shuffle (loadVec src cur) shufRev3) k) =
      src.read (cur + 3 * k) % 16 * 4096 + (src.read (cur + 3 * k + 1) - 0x80) * 64 +
        (src.read (cur + 3 * k + 2) - 0x80) := by
    rw [asU32, shuffle_eq hi₀ (by omega), shuffle_eq hi₁ (by omega), shuffle_eq hi₂ (by omega),
      shuffle_zero hi₃, Nat.mul_zero, Nat.add_zero]
    exact composeUpto3_eq h₁ h₂
  dsimp only
  rw [hcp, show src.read (cur + 3 * k) &&& 0xF0 = src.read (cur + 3 * k) / 16 % 16 * 16 from
      and_mask _ 4 4, SeqAt3, IsSeq3, isScalar_iff]
  have hcont₁ := isCont_iff.mp h₁
  have hcont₂ := isCont_iff.mp h₂
  simp only [h₁, h₂, true_and]
  unfold seq3
  refine ⟨fun h => by omega, ?_⟩
  rw [show ∀ x, x &&& 0xF800 = x / 2048 % 32 * 2048 from fun x => and_mask x 11 5]
  omega

/-- The subtraction wraps around below the first character of four bytes. -/
theorem wrap_range {cp : Nat} (h : cp < 0x200000) :
    max ((cp + 2 ^ 32 - 0x10000) % 2 ^ 32) 0xFFFFF ≠ 0xFFFFF ↔ ¬ (0x10000 ≤ cp ∧ cp ≤ 0x10FFFF) := by
  by_cases hlow : cp < 0x10000
  · rw [Nat.mod_eq_of_lt (by omega)]
    omega
  · rw [show cp + 2 ^ 32 - 0x10000 = cp - 0x10000 + 2 ^ 32 by omega, Nat.add_mod_right,
      Nat.mod_eq_of_lt (by omega)]
    omega

/-- The test of a lane for a sequence of four. -/
theorem seq4x4_lane {k : Nat} (hk : k < 4) (h₀ : src.read (cur + 4 * k) < 256)
    (h₁ : isCont (src.read (cur + 4 * k + 1)) = true)
    (h₂ : isCont (src.read (cur + 4 * k + 2)) = true)
    (h₃ : isCont (src.read (cur + 4 * k + 3)) = true) :
    let cp := compose4 (asU32 (shuffle (loadVec src cur) shufRev4) k)
    (SeqAt4 src (cur + 4 * k) → cp = seq4 (src.read (cur + 4 * k)) (src.read (cur + 4 * k + 1))
      (src.read (cur + 4 * k + 2)) (src.read (cur + 4 * k + 3))) ∧
    (SeqAt4 src (cur + 4 * k) ↔ ¬ (src.read (cur + 4 * k) &&& 0xF8 ≠ 0xF0 ∨
      max ((cp + 2 ^ 32 - 0x10000) % 2 ^ 32) 0xFFFFF ≠ 0xFFFFF)) := by
  have hindex : ∀ k < 4, shufRev4.getD (4 * k) 0x80 = 4 * k + 3 ∧
      shufRev4.getD (4 * k + 1) 0x80 = 4 * k + 2 ∧ shufRev4.getD (4 * k + 2) 0x80 = 4 * k + 1 ∧
      shufRev4.getD (4 * k + 3) 0x80 = 4 * k := by decide
  obtain ⟨hi₀, hi₁, hi₂, hi₃⟩ := hindex k hk
  have hcp : compose4 (asU32 (shuffle (loadVec src cur) shufRev4) k) =
      src.read (cur + 4 * k) % 8 * 262144 + (src.read (cur + 4 * k + 1) - 0x80) * 4096 +
        (src.read (cur + 4 * k + 2) - 0x80) * 64 + (src.read (cur + 4 * k + 3) - 0x80) := by
    rw [asU32, shuffle_eq hi₀ (by omega), shuffle_eq hi₁ (by omega), shuffle_eq hi₂ (by omega),
      shuffle_eq hi₃ (by omega)]
    exact compose4_eq h₁ h₂ h₃
  dsimp only
  rw [hcp, show src.read (cur + 4 * k) &&& 0xF8 = src.read (cur + 4 * k) / 8 % 32 * 8 from
      and_mask _ 3 5, SeqAt4, IsSeq4]
  have hcont₁ := isCont_iff.mp h₁
  have hcont₂ := isCont_iff.mp h₂
  have hcont₃ := isCont_iff.mp h₃
  simp only [h₁, h₂, h₃, true_and]
  rw [wrap_range (by omega)]
  unfold seq4
  exact ⟨fun h => by omega, by omega⟩

/-! ## Patterns that mix one and two bytes -/

/-- What may stand behind a byte up to `0xDF`. -/
def PairFits (prev cur : Nat) : Prop :=
  if prev < 0xC0 then isCont cur = false else 0xC2 ≤ prev ∧ isCont cur = true

instance (prev cur : Nat) : Decidable (PairFits prev cur) :=
  inferInstanceAs (Decidable (if prev < 0xC0 then isCont cur = false else 0xC2 ≤ prev ∧ _))

/-- The tables tell from the halves of the first byte and the upper half of the second. -/
theorem pairErrors_halves : ∀ high < 14, ∀ low < 16, ∀ next < 14,
    (pairErrors (16 * high + low) (16 * next) = 0 ↔ PairFits (16 * high + low) (16 * next)) := by
  decide +kernel

theorem pairErrors_eq_zero {prev cur : Nat} (hprev : prev ≤ 0xDF) (hcur : cur ≤ 0xDF) :
    pairErrors prev cur = 0 ↔ PairFits prev cur := by
  have hhalves := pairErrors_halves (prev / 16) (by omega) (prev % 16) (by omega) (cur / 16)
    (by omega)
  have hupper : (16 * (cur / 16)) >>> 4 = cur >>> 4 := by
    rw [Nat.shiftRight_eq_div_pow, Nat.shiftRight_eq_div_pow]
    omega
  have hcont : isCont (16 * (cur / 16)) = isCont cur := by
    rw [Bool.eq_iff_iff, isCont_iff, isCont_iff]
    omega
  rwa [Nat.div_add_mod, pairErrors, hupper, PairFits, hcont] at hhalves

/-- Bytes that are no lead of three or four need only fit the one before them. -/
theorem utf8BlockHasError_iff (hsmall : ∀ i < 16, src.read (cur + i) ≤ 0xDF) :
    utf8BlockHasError (loadVec src cur) = false ↔
      isCont (src.read cur) = false ∧
        ∀ i < 15, PairFits (src.read (cur + i)) (src.read (cur + i + 1)) := by
  have hback : ∀ count, ∀ i < 16, byteLshift (loadVec src cur) count i ≤ 0xDF := by
    intro count i hi
    unfold byteLshift
    split
    · decide
    · exact hsmall _ (by omega)
  have hmust : ∀ i < 16, ((byteLshift (loadVec src cur) 2 i - 0x60) |||
      (byteLshift (loadVec src cur) 3 i - 0x70)) &&& 0x80 = 0 := by
    intro i hi
    have h₂ := hback 2 i hi
    have h₃ := hback 3 i hi
    have hor : (byteLshift (loadVec src cur) 2 i - 0x60) |||
        (byteLshift (loadVec src cur) 3 i - 0x70) < 2 ^ 7 :=
      Nat.or_lt_two_pow (by omega) (by omega)
    rw [show ∀ x, x &&& 0x80 = x / 2 ^ 7 % 2 * 2 ^ 7 from fun x => and_mask x 7 1,
      Nat.div_eq_of_lt hor, Nat.zero_mod, Nat.zero_mul]
  have hlane : ∀ i < 16, pairErrors (byteLshift (loadVec src cur) 1 i) (loadVec src cur i) = 0 ↔
      PairFits (byteLshift (loadVec src cur) 1 i) (src.read (cur + i)) := fun i hi =>
    pairErrors_eq_zero (hback 1 i hi) (hsmall i hi)
  have hall : utf8BlockHasError (loadVec src cur) = false ↔
      ∀ i < 16, PairFits (byteLshift (loadVec src cur) 1 i) (src.read (cur + i)) := by
    simp only [utf8BlockHasError, List.any_eq_false, List.mem_range, decide_eq_true_eq, not_not]
    refine forall₂_congr fun i hi => ?_
    rw [hmust i hi, Nat.zero_xor, hlane i hi]
  rw [hall]
  constructor
  · intro h
    refine ⟨by simpa [byteLshift, PairFits] using h 0 (by decide), fun i hi => ?_⟩
    simpa [byteLshift, loadVec, Nat.add_assoc] using h (i + 1) (by omega)
  · rintro ⟨hfirst, hpairs⟩ i hi
    cases i with
    | zero => simpa [byteLshift, PairFits] using hfirst
    | succ i => simpa [byteLshift, loadVec, Nat.add_assoc] using hpairs i (by omega)

/-- Bytes of characters fit the ones before them. -/
theorem Reads.pairs (hplain : PlainBlock src cur)
    (hsmall : ∀ i < 16, src.read (cur + i) ≤ 0xDF) (h : Reads src (cur + 16) cur) :
    isCont (src.read cur) = false ∧
      ∀ i < 15, PairFits (src.read (cur + i)) (src.read (cur + i + 1)) := by
  refine ⟨h.not_cont (by omega), ?_⟩
  -- every byte begins a character or is the second one of one
  have hwalk : ∀ i < 16, Reads src (cur + 16) (cur + i) ∨
      (isCont (src.read (cur + i)) = true ∧ Reads src (cur + 16) (cur + i + 1)) := by
    intro i hi
    induction i with
    | zero => exact .inl h
    | succ i ih =>
        rcases ih (by omega) with hreads | ⟨-, hreads⟩
        · rcases hreads.cases (by omega) (hplain i (by omega)) with ⟨-, htook⟩ | ⟨hseq, htook⟩ |
            ⟨hseq, -⟩ | ⟨hseq, -⟩
          · exact .inl (htook.reads hreads)
          · exact .inr ⟨hseq.2.2, htook.reads hreads⟩
          · have := hseq.1
            have := hsmall i (by omega)
            omega
          · have := hseq.1
            have := hsmall i (by omega)
            omega
        · exact .inl hreads
  intro i hi
  unfold PairFits
  rcases hwalk i (by omega) with hreads | ⟨hcont, hreads⟩
  · rcases hreads.cases (by omega) (hplain i (by omega)) with ⟨hlow, htook⟩ | ⟨hseq, -⟩ |
      ⟨hseq, -⟩ | ⟨hseq, -⟩
    · rw [if_pos (by omega)]
      exact (htook.reads hreads).not_cont (by omega)
    · have := hseq.1
      rw [if_neg (by omega)]
      exact ⟨hseq.1, hseq.2.2⟩
    · have := hseq.1
      have := hsmall i (by omega)
      omega
    · have := hseq.1
      have := hsmall i (by omega)
      omega
  · rw [isCont_iff] at hcont
    rw [if_pos (by omega)]
    exact hreads.not_cont (by omega)

/-- Where the code points of at most two bytes begin whose ends are given. -/
def codePointStart (ends : Nat → Bool) : Nat → Nat
  | 0 => 0
  | k + 1 =>
    let start := codePointStart ends k
    if ends start then start + 1 else start + 2

/-- The bytes of such a code point, the last one first. -/
def codePointIndices (ends : Nat → Bool) (start : Nat) : Nat × Nat :=
  if ends start then (start, 0xFF) else (start + 1, start)

/-- An entry of the index table leads to the bytes of the first six code points. -/
def EntryFits (entry : Nat × Nat) (ends : Nat → Bool) : Prop :=
  entry.2 = codePointStart ends 6 ∧ ∀ k < 6,
    ((utf8ToUcsShuffle.getD entry.1 []).getD (2 * k) 0x80,
      (utf8ToUcsShuffle.getD entry.1 []).getD (2 * k + 1) 0x80) =
      codePointIndices ends (codePointStart ends k)

instance (entry : Nat × Nat) (ends : Nat → Bool) : Decidable (EntryFits entry ends) :=
  inferInstanceAs (Decidable (_ ∧ _))

/-- The tables are right for every mask without a code point of three bytes. -/
theorem utf8ToUcsIndex_fits : ∀ row < 64, ∀ column < 64,
    (64 * row + column ||| (64 * row + column) / 2) % 2048 = 2047 →
    EntryFits ((utf8ToUcsIndex.getD row []).getD column (0, 0)) (64 * row + column).testBit := by
  decide +kernel

theorem utf8ToUcsIndexEntry_fits {mask : Nat} (hmask : mask < 4096)
    (hends : ∀ i < 11, mask.testBit i = true ∨ mask.testBit (i + 1) = true) :
    EntryFits (utf8ToUcsIndexEntry mask) mask.testBit := by
  have hsplit : 64 * (mask / 64) + mask % 64 = mask := Nat.div_add_mod mask 64
  have hbits : (mask ||| mask / 2) % 2048 = 2047 := by
    refine Nat.eq_of_testBit_eq fun i => ?_
    rw [show 2048 = 2 ^ 11 from rfl, Nat.testBit_mod_two_pow, Nat.testBit_or, Nat.testBit_div_two,
      show 2047 = 2 ^ 11 - 1 from rfl, Nat.testBit_two_pow_sub_one]
    by_cases hi : i < 11
    · simpa [hi] using hends i hi
    · simp [hi]
  have hfits := utf8ToUcsIndex_fits (mask / 64) (by omega) (mask % 64) (Nat.mod_lt _ (by decide))
  rw [hsplit] at hfits
  exact hfits hbits

/-- Six code points of at most two bytes, put side by side by the tables. -/
theorem mixed_lanes (hsmall : ∀ i < 16, src.read (cur + i) ≤ 0xDF) (hfirst : isCont (src.read cur) = false)
    (hpairs : ∀ i < 15, PairFits (src.read (cur + i)) (src.read (cur + i + 1)))
    {ends : Nat → Bool} (hends : ∀ i < 12, ends i = !isCont (src.read (cur + i + 1)))
    {entry : Nat × Nat} (hentry : EntryFits entry ends) :
    let lanes : Vec := fun k =>
      composeUpto2 (asU16 (shuffle (loadVec src cur) (utf8ToUcsShuffle.getD entry.1 [])) k)
    ∀ k < 6, codePointStart ends k ≤ 2 * k ∧
      ((src.read (cur + codePointStart ends k) < 0x80 ∧
          codePointStart ends (k + 1) = codePointStart ends k + 1 ∧
          lanes k = src.read (cur + codePointStart ends k)) ∨
        (SeqAt2 src (cur + codePointStart ends k) ∧
          codePointStart ends (k + 1) = codePointStart ends k + 2 ∧
          lanes k = seq2 (src.read (cur + codePointStart ends k))
            (src.read (cur + codePointStart ends k + 1)))) := by
  intro lanes
  -- the starts are no bytes inside a character
  have hone : ∀ start < 12, isCont (src.read (cur + start)) = false →
      if ends start then src.read (cur + start) < 0x80 ∧ isCont (src.read (cur + start + 1)) = false
      else SeqAt2 src (cur + start) ∧ isCont (src.read (cur + start + 2)) = false := by
    intro start hstart hcont
    have hpair := hpairs start (by omega)
    have hpair' := hpairs (start + 1) (by omega)
    have hup := hsmall start (by omega)
    rw [hends start hstart]
    rw [← Bool.not_eq_true, isCont_iff] at hcont
    unfold PairFits at hpair hpair'
    cases hnext : isCont (src.read (cur + start + 1)) with
    | false =>
        rw [hnext] at hpair
        refine ⟨?_, rfl⟩
        by_contra h
        rw [if_neg (by omega)] at hpair
        exact absurd hpair.2 (by decide)
    | true =>
        rw [hnext] at hpair
        have hlead : ¬ src.read (cur + start) < 0xC0 := fun h => by
          rw [if_pos h] at hpair
          cases hpair
        rw [if_neg hlead] at hpair
        refine ⟨⟨hpair.1, by omega, hnext⟩, ?_⟩
        rw [isCont_iff] at hnext
        rwa [← Nat.add_assoc, if_pos (by omega)] at hpair'
  have hstarts : ∀ k < 6, codePointStart ends k ≤ 2 * k ∧
      isCont (src.read (cur + codePointStart ends k)) = false := by
    intro k hk
    induction k with
    | zero => exact ⟨Nat.le_refl _, hfirst⟩
    | succ k ih =>
        obtain ⟨hstart, hcont⟩ := ih (by omega)
        have hstep := hone _ (by omega) hcont
        rw [codePointStart]
        split
        · rename_i h
          rw [if_pos h] at hstep
          exact ⟨by omega, hstep.2⟩
        · rename_i h
          rw [if_neg h] at hstep
          exact ⟨by omega, hstep.2⟩
  intro k hk
  obtain ⟨hstart, hcont⟩ := hstarts k hk
  have hstep := hone _ (by omega) hcont
  have hindices := hentry.2 k hk
  refine ⟨hstart, ?_⟩
  rw [codePointStart]
  unfold codePointIndices at hindices
  by_cases h : ends (codePointStart ends k) = true
  · rw [if_pos h] at hstep hindices ⊢
    simp only [Prod.mk.injEq] at hindices
    refine .inl ⟨hstep.1, rfl, ?_⟩
    simp only [lanes, asU16]
    rw [shuffle_eq hindices.1 (by omega), shuffle_zero hindices.2, Nat.mul_zero, Nat.add_zero]
    exact composeUpto2_one hstep.1
  · rw [if_neg h] at hstep hindices ⊢
    simp only [Prod.mk.injEq] at hindices
    refine .inr ⟨hstep.1, rfl, ?_⟩
    simp only [lanes, asU16]
    rw [shuffle_eq hindices.1 (by omega), shuffle_eq hindices.2 (by omega)]
    exact composeUpto2_two (le_trans (by decide) hstep.1.1) hstep.1.2.1 hstep.1.2.2

/-! ## One block -/

/-- No byte of the block asks for wider characters. -/
def Narrow (src : Source) (level cur : Nat) : Prop :=
  level ≠ 4 → ∀ i < 16, src.read (cur + i) ≤ promoteAbove level

theorem SeqAt2.fits {level : Nat} (h : SeqAt2 src cur)
    (hnarrow : level = 1 → src.read cur ≤ 0xC3) :
    seq2 (src.read cur) (src.read (cur + 1)) < levelBound level := by
  have hrange := IsSeq2.range h
  unfold levelBound
  split
  · rename_i hl
    have := hnarrow hl
    have := h.1
    have := isCont_iff.mp h.2.2
    unfold seq2
    omega
  · split <;> omega

/-- The characters that end in a narrow block fit its level. -/
theorem Narrow.fits {level cur₁ cur' : Nat} {ds : List Nat} (hnarrow : Narrow src level cur)
    (hlevel : level = 1 ∨ level = 2 ∨ level = 4) (hle : cur ≤ cur₁) (hlt : cur' < cur + 16)
    (h : Took src cur₁ cur' ds) : ∀ d ∈ ds, d < levelBound level := by
  induction ds generalizing cur₁ with
  | nil => exact nofun
  | cons d ds ih =>
      obtain ⟨hfirst, hrest⟩ := h.uncons
      have hmove := hfirst.le
      have hlast := hrest.le
      have hpos := hfirst.lt (List.cons_ne_nil _ _)
      refine List.forall_mem_cons.mpr ⟨?_, ih (hle.trans hmove) hrest⟩
      have hlead : level ≠ 4 → src.read cur₁ ≤ promoteAbove level := fun hl => by
        have := hnarrow hl (cur₁ - cur) (by omega)
        rwa [Nat.add_sub_cancel' hle] at this
      have hone := levelBound_pos level
      rcases h.cases with ⟨hlow, hval, -⟩ | ⟨hseq, hval, -⟩ | ⟨hseq, hval, -⟩ | ⟨hseq, hval, -⟩ <;>
        rw [hval]
      · omega
      · refine SeqAt2.fits hseq fun hl => ?_
        have := hlead (by omega)
        rwa [hl, promoteAbove, if_pos rfl] at this
      · have hrange := IsSeq3.range hseq
        have hfirst := hseq.1
        rcases hlevel with rfl | rfl | rfl
        · have := hlead (by decide)
          rw [promoteAbove, if_pos rfl] at this
          omega
        · exact hrange.2
        · exact hrange.2.trans (by decide)
      · have hmax := hseq.2.2.2.2.2.2
        have hfirst := hseq.1
        rcases hlevel with rfl | rfl | rfl
        · have := hlead (by decide)
          rw [promoteAbove, if_pos rfl] at this
          omega
        · have := hlead (by decide)
          rw [promoteAbove, if_neg (by decide)] at this
          omega
        · exact Nat.lt_succ_of_le hmax

/-- An error in a narrow block stands behind characters of its level. -/
theorem Narrow.badBehind {level : Nat} (hnarrow : Narrow src level cur)
    (hlevel : level = 1 ∨ level = 2 ∨ level = 4) (hle : cur ≤ src.len)
    (h : ¬ Reads src (cur + 16) cur) : BadBehind src level cur := by
  obtain ⟨cur', ds, htook, hend⟩ := exists_longest hle
  have hlt : cur' < cur + 16 := by
    by_contra hge
    exact h ⟨cur', ds, htook, .inl (Nat.le_of_not_lt hge)⟩
  refine ⟨cur', ds, htook, hnarrow.fits hlevel (Nat.le_refl cur) hlt htook, hlt, ?_⟩
  rcases hend with hquote | hback | hbad
  · exact absurd ⟨cur', ds, htook, .inr (.inl hquote)⟩ h
  · exact absurd ⟨cur', ds, htook, .inr (.inr hback)⟩ h
  · exact hbad

/-- What a pattern finds: an error, or characters it puts into lanes, one of them above `0x7F`. -/
def PatternSpec (src : Source) (w : Writer) (cur : Nat) : Pattern → Prop
  | .error => ¬ Reads src (cur + 16) cur
  | .chars lanes stored kept taken =>
    Copied src w cur ((w.put 0 stored lanes).advance kept) (cur + taken)
      ((List.range kept).map lanes) ∧ ∃ d ∈ (List.range kept).map lanes, 0x80 ≤ d
  | .none => True

theorem exists_lane {lanes : Vec} {kept : Nat} (k : Nat) (hk : k < kept) (h : 0x80 ≤ lanes k) :
    ∃ d ∈ (List.range kept).map lanes, 0x80 ≤ d :=
  ⟨lanes k, List.mem_map.mpr ⟨k, List.mem_range.mpr hk, rfl⟩, h⟩

/-- Of sixteen bytes, twelve of them not ASCII, not all of the first six are. -/
theorem exists_nonAscii {v : Vec} (h : 12 ≤ countNonAscii v) : ∃ k < 6, 0x80 ≤ v k := by
  by_contra hnone
  have hall : ∀ k < 6, v k < 0x80 := fun k hk =>
    Nat.lt_of_not_le fun hge => hnone ⟨k, hk, hge⟩
  have hfirst : (List.range 6).filter (fun i => decide (0x80 ≤ v i)) = [] := by
    rw [List.filter_eq_nil_iff]
    intro i hi
    simpa using hall i (List.mem_range.mp hi)
  have hcount : countNonAscii v ≤ 10 := by
    rw [countNonAscii, show 16 = 6 + 10 from rfl, List.range_add, List.filter_append, hfirst,
      List.nil_append]
    exact (List.length_filter_le _ _).trans (by simp)
  omega

/-- Characters of one length leave a regular mask. -/
theorem cont_of_shape {width n : Nat}
    (hshape : ∀ i < n, (!isCont (src.read (cur + i + 1))) = (i % width == width - 1))
    {k offset : Nat} (hin : width * k + offset < n) (hoffset : offset < width) :
    isCont (src.read (cur + width * k + (offset + 1))) = !(offset == width - 1) := by
  have h := hshape _ hin
  rw [Nat.mul_add_mod, Nat.mod_eq_of_lt hoffset] at h
  rw [← h, Bool.not_not]
  congr 2
  omega

section Patterns

variable (hbytes : src.IsBytes) (hsound : w.Sound) (hle : cur ≤ src.len)
  (hplain : PlainBlock src cur)

include hsound hle hplain in
/-- Eight sequences of two. -/
theorem seq2x8_spec (hnarrow : Narrow src w.level cur)
    (hshape : ∀ i < 16, (!isCont (src.read (cur + i + 1))) = (i % 2 == 1)) :
    PatternSpec src w cur (if seq2x8HasError (loadVec src cur) then .error
      else .chars (fun k => composeUpto2 (asU16 (shuffle (loadVec src cur) shufSwap2) k)) 8 8 16) := by
  split
  · rename_i herror
    intro hreads
    have hseqs : ∀ k < 8, SeqAt2 src (cur + 2 * k) := hreads.each hle fun k hk hle' hreads' =>
      hreads'.two (by omega) (hplain _ (by omega))
        (@cont_of_shape _ _ _ _ hshape _ 0 (by omega) (by decide))
        (@cont_of_shape _ _ _ _ hshape _ 1 (by omega) (by decide))
    rw [seq2x8HasError_iff.mpr hseqs] at herror
    cases herror
  · rename_i herror
    have hseqs := seq2x8HasError_iff.mp (by simpa using herror)
    have hlane := fun k (hk : k < 8) => seq2x8_lane hk (hseqs k hk)
    refine ⟨@Copied.lanes _ _ _ _ (2 * ·) _ _ hsound hle rfl (Nat.le_refl 8)
      (fun k hk hle' => ?_) (fun k hk => ?_), exists_lane 0 (by decide) ?_⟩
    · rw [hlane k hk]
      exact .seq2 hle' (hseqs k hk)
    · rw [hlane k hk]
      refine (hseqs k hk).fits fun hl => ?_
      have := hnarrow (by omega) (2 * k) (by omega)
      rwa [hl] at this
    · rw [hlane 0 (by decide)]
      exact (IsSeq2.range (hseqs 0 (by decide))).1

include hbytes hsound hle hplain in
/-- Four sequences of four. -/
theorem seq4x4_spec (hl : w.level = 4)
    (hshape : ∀ i < 16, (!isCont (src.read (cur + i + 1))) = (i % 4 == 3)) :
    let composed : Vec := fun k => compose4 (asU32 (shuffle (loadVec src cur) shufRev4) k)
    PatternSpec src w cur (if seq4x4HasError (loadVec src cur) composed then .error
      else .chars composed 4 4 16) := by
  intro composed
  have hcont : ∀ k < 4, isCont (src.read (cur + 4 * k + 1)) = true ∧
      isCont (src.read (cur + 4 * k + 2)) = true ∧
      isCont (src.read (cur + 4 * k + 3)) = true := fun k hk =>
    ⟨@cont_of_shape _ _ _ _ hshape _ 0 (by omega) (by decide),
      @cont_of_shape _ _ _ _ hshape _ 1 (by omega) (by decide),
      @cont_of_shape _ _ _ _ hshape _ 2 (by omega) (by decide)⟩
  have hlane := fun k (hk : k < 4) => seq4x4_lane hk (hbytes (cur + 4 * k)) (hcont k hk).1
    (hcont k hk).2.1 (hcont k hk).2.2
  have hiff : seq4x4HasError (loadVec src cur) composed = false ↔
      ∀ k < 4, SeqAt4 src (cur + 4 * k) := by
    simp only [seq4x4HasError, List.any_eq_false, List.mem_range, Bool.or_eq_true,
      decide_eq_true_eq]
    exact forall₂_congr fun k hk => (hlane k hk).2.symm
  split
  · rename_i herror
    intro hreads
    have hseqs : ∀ k < 4, SeqAt4 src (cur + 4 * k) := hreads.each hle fun k hk hle' hreads' =>
      hreads'.four (by omega) (hplain _ (by omega)) (hcont k hk).1 (hcont k hk).2.1 (hcont k hk).2.2
    rw [hiff.mpr hseqs] at herror
    cases herror
  · rename_i herror
    have hseqs := hiff.mp (by simpa using herror)
    have hval := fun k (hk : k < 4) => (hlane k hk).1 (hseqs k hk)
    have hrange := fun k (hk : k < 4) => (hseqs k hk).2.2.2.2.2
    refine ⟨@Copied.lanes _ _ _ _ (4 * ·) _ _ hsound hle rfl (Nat.le_refl 4)
      (fun k hk hle' => ?_) (fun k hk => ?_), exists_lane 0 (by decide) ?_⟩
    · rw [show composed k = _ from hval k hk]
      exact .seq4 hle' (hseqs k hk)
    · rw [show composed k = _ from hval k hk, hl]
      exact Nat.lt_succ_of_le (hrange k hk).2
    · rw [show composed 0 = _ from hval 0 (by decide)]
      exact le_trans (by decide) (hrange 0 (by decide)).1

include hbytes hsound hle hplain in
/-- Four sequences of three. -/
theorem seq3x4_spec (hl : w.level ≠ 1)
    (hshape : ∀ i < 12, (!isCont (src.read (cur + i + 1))) = (i % 3 == 2)) :
    let composed : Vec := fun k => composeUpto3 (asU32 (shuffle (loadVec src cur) shufRev3) k)
    PatternSpec src w cur (if seq3x4HasError (loadVec src cur) composed then .error
      else .chars composed 4 4 12) := by
  intro composed
  have hcont : ∀ k < 4, isCont (src.read (cur + 3 * k + 1)) = true ∧
      isCont (src.read (cur + 3 * k + 2)) = true ∧
      isCont (src.read (cur + 3 * k + 3)) = false := fun k hk =>
    ⟨@cont_of_shape _ _ _ _ hshape _ 0 (by omega) (by decide),
      @cont_of_shape _ _ _ _ hshape _ 1 (by omega) (by decide),
      @cont_of_shape _ _ _ _ hshape _ 2 (by omega) (by decide)⟩
  have hlane := fun k (hk : k < 4) => seq3x4_lane hk (hbytes (cur + 3 * k)) (hcont k hk).1
    (hcont k hk).2.1
  have hiff : seq3x4HasError (loadVec src cur) composed = false ↔
      ∀ k < 4, SeqAt3 src (cur + 3 * k) := by
    simp only [seq3x4HasError, List.any_eq_false, List.mem_range, Bool.or_eq_true,
      decide_eq_true_eq]
    exact forall₂_congr fun k hk => (hlane k hk).2.symm
  split
  · rename_i herror
    intro hreads
    have hseqs : ∀ k < 4, SeqAt3 src (cur + 3 * k) := hreads.each hle fun k hk hle' hreads' =>
      hreads'.three (by omega) (hplain _ (by omega)) (hcont k hk).1 (hcont k hk).2.1 (hcont k hk).2.2
    rw [hiff.mpr hseqs] at herror
    cases herror
  · rename_i herror
    have hseqs := hiff.mp (by simpa using herror)
    have hval := fun k (hk : k < 4) => (hlane k hk).1 (hseqs k hk)
    have hrange := fun k (hk : k < 4) => IsSeq3.range (hseqs k hk)
    refine ⟨@Copied.lanes _ _ _ _ (3 * ·) _ _ hsound hle rfl (Nat.le_refl 4)
      (fun k hk hle' => ?_) (fun k hk => ?_), exists_lane 0 (by decide) ?_⟩
    · rw [show composed k = _ from hval k hk]
      exact .seq3 hle' (hseqs k hk)
    · rw [show composed k = _ from hval k hk]
      refine (hrange k hk).2.trans_le ?_
      unfold levelBound
      rw [if_neg hl]
      split <;> decide
    · rw [show composed 0 = _ from hval 0 (by decide)]
      exact le_trans (by decide) (hrange 0 (by decide)).1

include hbytes hsound hle hplain in
/-- Six code points of one and two bytes. -/
theorem mixed_spec (hnarrow : Narrow src w.level cur) (hl : w.level ≠ 4)
    (hcount : 12 ≤ countNonAscii (loadVec src cur))
    (hsmall : ∀ i < 16, src.read (cur + i) ≤ 0xDF) :
    let entry := utf8ToUcsIndexEntry (maskBits (utf8EndOfCp (loadVec src cur)) 12)
    PatternSpec src w cur (if utf8BlockHasError (loadVec src cur) then .error
      else .chars (fun k => composeUpto2
        (asU16 (shuffle (loadVec src cur) (utf8ToUcsShuffle.getD entry.1 [])) k)) 8 6 entry.2) := by
  generalize hmask : maskBits (utf8EndOfCp (loadVec src cur)) 12 = mask
  intro entry
  have hbound := hplain.bound hle
  split
  · rename_i herror
    intro hreads
    rw [(utf8BlockHasError_iff hsmall).mpr (hreads.pairs hplain hsmall)] at herror
    cases herror
  rename_i herror
  obtain ⟨hfirst, hpairs⟩ := (utf8BlockHasError_iff hsmall).mp (by simpa using herror)
  have hends : ∀ i < 12, mask.testBit i = !isCont (src.read (cur + i + 1)) := by
    intro i hi
    rw [← hmask, maskBits, Nat.testBit_ofBits_lt _ _ hi]
    exact utf8EndOfCp_eq hbytes i
  have hentry : EntryFits entry mask.testBit :=
    utf8ToUcsIndexEntry_fits (hmask.symm.trans_lt (Nat.ofBits_lt_two_pow _)) fun i hi => by
      rw [hends i (by omega), hends (i + 1) (by omega)]
      have hpair := hpairs (i + 1) (by omega)
      unfold PairFits at hpair
      cases hcont : isCont (src.read (cur + i + 1)) with
      | false => exact .inl rfl
      | true =>
          rw [isCont_iff] at hcont
          rw [← Nat.add_assoc, if_pos (by omega)] at hpair
          exact .inr (by rw [← Nat.add_assoc, hpair]; rfl)
  have hlane := mixed_lanes hsmall hfirst hpairs hends hentry
  dsimp only at hlane
  rw [hentry.1]
  refine ⟨Copied.lanes hsound hle rfl (by decide) (fun k hk hle' => ?_) (fun k hk => ?_), ?_⟩
  · obtain ⟨hstart, ⟨hlow, hnext, hval⟩ | ⟨hseq, hnext, hval⟩⟩ := hlane k hk
    · rw [hval, hnext]
      exact .ascii hle' hlow (hplain _ (by omega))
    · rw [hval, hnext]
      exact .seq2 hle' hseq
  · obtain ⟨hstart, ⟨hlow, -, hval⟩ | ⟨hseq, -, hval⟩⟩ := hlane k hk
    · rw [hval]
      exact hlow.trans (by have := levelBound_pos w.level; omega)
    · rw [hval]
      refine hseq.fits fun hone => ?_
      have := hnarrow hl (codePointStart mask.testBit k) (by omega)
      rwa [hone] at this
  · -- otherwise the six code points would be the first six bytes
    by_contra hnone
    have hascii : ∀ k < 6, codePointStart mask.testBit k = k ∧
        codePointStart mask.testBit (k + 1) = k + 1 ∧ src.read (cur + k) < 0x80 := by
      intro k hk
      induction k with
      | zero =>
          obtain ⟨-, ⟨hlow, hnext, -⟩ | ⟨hseq, -, hval⟩⟩ := hlane 0 hk
          · exact ⟨rfl, hnext, hlow⟩
          · exact absurd (exists_lane 0 hk (hval ▸ (IsSeq2.range hseq).1)) hnone
      | succ k ih =>
          obtain ⟨-, hstart, -⟩ := ih (by omega)
          obtain ⟨-, ⟨hlow, hnext, -⟩ | ⟨hseq, -, hval⟩⟩ := hlane (k + 1) hk
          · rw [hstart] at hlow hnext
            exact ⟨hstart, hnext, hlow⟩
          · exact absurd (exists_lane (k + 1) hk (hval ▸ (IsSeq2.range hseq).1)) hnone
    obtain ⟨k, hk, hhigh⟩ := exists_nonAscii hcount
    exact absurd (hascii k hk).2.2 (Nat.not_lt.mpr hhigh)

include hbytes hsound hle hplain in
theorem blockPattern_spec (isa : Isa) (hnarrow : Narrow src w.level cur) :
    PatternSpec src w cur (blockPattern isa w.level (loadVec src cur)) := by
  unfold blockPattern
  simp only [List.all_eq_true, List.mem_range, decide_eq_true_eq, utf8EndOfCp_eq hbytes]
  split
  · exact seq2x8_spec hsound hle hplain hnarrow ‹_›
  split
  · rename_i h
    exact seq4x4_spec hbytes hsound hle hplain h.1 h.2
  split
  · rename_i h
    exact seq3x4_spec hbytes hsound hle hplain h.1 h.2
  split
  · rename_i h
    obtain ⟨hl, -, hcount, habove⟩ := h
    refine mixed_spec hbytes hsound hle hplain hnarrow hl hcount fun i hi => ?_
    simp only [utf8AnyByteAbove, List.any_eq_false, List.mem_range, decide_eq_true_eq] at habove
    exact Nat.le_of_not_lt (habove i hi)
  · trivial

end Patterns

/-! ## The block reader -/

/-- A byte above `0x7F` that was passed is part of a character above `0x7F`. -/
theorem Took.exists_high {cur' i : Nat} {ds : List Nat} (h : Took src cur cur' ds)
    (hi : cur + i < cur') (hhigh : 0x80 ≤ src.read (cur + i)) : ∃ d ∈ ds, 0x80 ≤ d := by
  by_contra hnone
  have hlow : ∀ d ∈ ds, d < 0x80 := fun d hd => Nat.lt_of_not_le fun hge => hnone ⟨d, hd, hge⟩
  have hbytes : ds.flatMap bytes = ds := by
    rw [List.flatMap_congr fun d hd => show bytes d = [d] from if_pos (hlow d hd)]
    simp
  have hrest := h.rest
  rw [hbytes] at hrest
  have hbound := h.bound
  have hlen := congrArg List.length hrest
  simp only [Source.length_rest, List.length_append] at hlen
  have hhead : (src.rest (cur + i)).head? = ds[i]? := by
    rw [Source.rest_add, List.head?_drop, hrest, List.getElem?_append_left (by omega)]
  rw [Source.rest_of_lt (by omega)] at hhead
  exact absurd (hlow _ (List.mem_of_getElem? hhead.symm)) (Nat.not_lt.mpr hhigh)

/-- The induction is on the fuel; every block moves the cursor on. -/
theorem decodeBytesBlock_spec (isa : Isa) (hbytes : src.IsBytes) (fuel budget : Nat)
    (hbudget : 16 ≤ budget) (hsound : w.Sound) (hle : cur ≤ src.len)
    (hfuel : src.len - cur < fuel) :
    ∃ state w' cur' ds, decodeBytesBlock isa src fuel budget w cur = (state, w', cur') ∧
      BlockSpec src (src.len + 1) w cur state w' cur' ds := by
  have hscalar : ∃ state w' cur' ds,
      decodeBytesBlockScalar src (src.len + 1) (src.len + 1) w cur = (state, w', cur') ∧
        BlockSpec src (src.len + 1) w cur state w' cur' ds :=
    decodeBytesBlockScalar_spec hbytes _ _ hsound hle (by omega)
  induction fuel generalizing budget w cur with
  | zero => omega
  | succ fuel ih =>
      unfold decodeBytesBlock
      dsimp only
      split
      · exact hscalar
      rename_i hstop
      have hplain : PlainBlock src cur := plainBlock_iff.mp (by simpa using hstop)
      have hbound := hplain.bound hle
      -- going on behind the block
      have hnext : ∀ {w₁ : Writer} {cur₁ : Nat} {ds₁ : List Nat} (budget : Nat), 16 ≤ budget →
          cur < cur₁ → Copied src w cur w₁ cur₁ ds₁ →
          (w.level = 1 → (w₁.isAscii = true ↔ w.isAscii = true ∧ ∀ d ∈ ds₁, d < 0x80)) →
          ∃ state w' cur' ds, decodeBytesBlock isa src fuel budget w₁ cur₁ = (state, w', cur') ∧
            BlockSpec src (src.len + 1) w cur state w' cur' ds := by
        intro w₁ cur₁ ds₁ budget hbudget hmove hcopied hmark
        have hcur₁ := hcopied.took.bound
        obtain ⟨state, w', cur', ds, heq, hspec⟩ := ih budget hbudget hcopied.sound hcur₁
          (by omega) (decodeBytesBlockScalar_spec hbytes _ _ hcopied.sound hcur₁ (by omega))
        exact ⟨state, w', cur', _, heq, hspec.after hcopied hmark⟩
      split
      · rename_i hascii
        have hlow : ∀ i < 16, src.read (cur + i) < 0x80 := by
          simp only [utf8AllAscii, List.all_eq_true, List.mem_range, decide_eq_true_eq] at hascii
          exact hascii
        refine hnext budget hbudget (by omega) (@Copied.lanes _ _ _ (loadVec src cur) id _ _
          hsound hle rfl (Nat.le_refl 16) (fun k hk hle' => ?_) (fun k hk => ?_))
          fun _ => ?_
        · exact .ascii hle' (hlow k hk) (hplain k hk)
        · exact (hlow k hk).trans (by have := levelBound_pos w.level; omega)
        · rw [Writer.advance_isAscii]
          refine (and_iff_left fun d hd => ?_).symm
          obtain ⟨k, hk, rfl⟩ := List.mem_map.mp hd
          exact hlow k (List.mem_range.mp hk)
      rename_i hascii
      split
      · exact hscalar
      rename_i habove
      have hnarrow : Narrow src w.level cur := by
        intro hl i hi
        by_contra h
        refine habove ⟨hl, ?_⟩
        simp only [utf8AnyByteAbove, List.any_eq_true, List.mem_range, decide_eq_true_eq]
        exact ⟨i, hi, Nat.lt_of_not_le h⟩
      obtain ⟨i, hi, hhigh⟩ : ∃ i < 16, 0x80 ≤ src.read (cur + i) := by
        simp only [utf8AllAscii, List.all_eq_true, List.mem_range, decide_eq_true_eq, not_forall,
          Nat.not_lt] at hascii
        obtain ⟨i, hi, h⟩ := hascii
        exact ⟨i, hi, h⟩
      have hoff : ∀ {w₁ : Writer} {cur₁ : Nat} {ds₁ : List Nat}, Copied src
          (if w.level = 1 then { w with isAscii := false } else w) cur w₁ cur₁ ds₁ →
          Copied src w cur w₁ cur₁ ds₁ := by
        intro w₁ cur₁ ds₁ h
        split at h
        · exact h.mark w.isAscii w₁.isAscii
        · exact h
      generalize hw₀ : (if w.level = 1 then { w with isAscii := false } else w) = w₀ at hoff ⊢
      have hlevel : w₀.level = w.level := by
        rw [← hw₀]
        split <;> rfl
      have hmark₀ : w.level = 1 → w₀.isAscii = false := fun hl => by
        rw [← hw₀, if_pos hl]
      have hsound₀ : w₀.Sound := by
        rw [← hw₀]
        split
        · exact ⟨hsound.level, hsound.one, hsound.two⟩
        · exact hsound
      have hmark : ∀ {w₁ : Writer} {ds₁ : List Nat}, (w.level = 1 → w₁.isAscii = false) →
          (∃ d ∈ ds₁, 0x80 ≤ d) →
          w.level = 1 → (w₁.isAscii = true ↔ w.isAscii = true ∧ ∀ d ∈ ds₁, d < 0x80) := by
        rintro w₁ ds₁ hfalse ⟨d, hd, hge⟩ hl
        rw [hfalse hl]
        simp only [Bool.false_eq_true, false_iff, not_and]
        exact fun _ hall => absurd (hall d hd) (Nat.not_lt.mpr hge)
      have hpattern := blockPattern_spec hbytes hsound₀ hle hplain isa (hlevel ▸ hnarrow)
      split
      · rename_i heq
        rw [heq] at hpattern
        exact ⟨_, w₀, cur, [], rfl, hoff (.refl hsound₀ hle), fun _ h => absurd rfl h,
          hnarrow.badBehind hsound.level hle hpattern⟩
      · rename_i lanes stored kept taken heq
        rw [heq] at hpattern
        obtain ⟨hcopied, hhigh⟩ := hpattern
        have hmove : cur < cur + taken := by
          obtain ⟨d, hd, -⟩ := hhigh
          exact hcopied.took.lt (List.ne_nil_of_mem hd)
        refine hnext 32 (by decide) hmove (hoff hcopied) (hmark (fun hl => ?_) hhigh)
        rw [Writer.advance_isAscii]
        exact hmark₀ hl
      · obtain ⟨state, w₁, cur₁, ds₁, heq₁, hspec⟩ :=
          decodeBytesBlockScalar_spec hbytes (cur + budget) (src.len + 1) hsound₀ hle (by omega)
        rw [heq₁]
        -- a block that was passed had a character above `0x7F`
        have hpassed : state ≠ .promote → state ≠ .invalid → cur + i < cur₁ →
            w.level = 1 → (w₁.isAscii = true ↔ w.isAscii = true ∧ ∀ d ∈ ds₁, d < 0x80) :=
          fun hpromote hinvalid hlt => hmark (fun hl => by
            have := hspec.ascii hpromote hinvalid (hlevel.trans hl)
            rw [hmark₀ hl] at this
            simpa using this) (hspec.copied.took.exists_high hlt hhigh)
        -- neither the quote nor a backslash stands in the block
        have hstopped : isEscapeUnit (src.read cur₁) = true → cur + i < cur₁ := by
          intro hesc
          have hle₁ := hspec.copied.took.le
          by_contra h
          have := hplain (cur₁ - cur) (by omega)
          rw [Nat.add_sub_cancel' hle₁, hesc] at this
          cases this
        split
        · rename_i heq
          obtain ⟨rfl, rfl, rfl⟩ := heq
          have hlimit : cur + budget ≤ cur₁ := hspec.stop
          exact hnext _ (by split <;> omega) (by omega) (hoff hspec.copied)
            (hpassed (by decide) (by decide) (by omega))
        · rename_i hne
          refine ⟨state, w₁, cur₁, ds₁, rfl, hoff hspec.copied, fun hpromote hinvalid => ?_, ?_⟩
          · have hstop := hspec.stop
            refine hpassed hpromote hinvalid (hstopped ?_)
            cases state with
            | «continue» => exact absurd rfl (hne w₁ cur₁)
            | «end» =>
                rw [show src.read cur₁ = 0x22 from hstop]
                rfl
            | escape =>
                rw [show src.read cur₁ = 0x5C from hstop]
                rfl
            | promote => exact absurd rfl hpromote
            | invalid => exact absurd rfl hinvalid
          · have hstop := hspec.stop
            rw [hlevel] at hstop
            cases state with
            | «continue» => exact absurd rfl (hne w₁ cur₁)
            | _ => exact hstop

end SsrJson.Decode
