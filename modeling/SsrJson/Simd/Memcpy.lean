import Mathlib.Algebra.Group.Nat.Defs
import SsrJson.Decode.StrScan
import SsrJson.Library.AccessLog

/-!
# Copying bytes with registers

`ssrjson_memcpy_simd` copies some bytes until the destination is aligned, then registers, then the
rest by powers of two. What is copied is a list of blocks that follow each other; each block says
how its two ends must be aligned, and a block that is not aligned has no meaning.
-/

namespace SsrJson.Simd

open Decode

/-- A block: its size, and what the addresses of its destination and its source must divide. -/
structure Block where
  size : Nat
  alignDst : Nat
  alignSrc : Nat
  deriving DecidableEq, Repr

/-- `memcpy` of a block: it is loaded as a whole before it is stored. -/
def copyBlock (memory : ByteBuffer) (d s size : Nat) : ByteBuffer := fun a =>
  if d ≤ a ∧ a < d + size then memory (s + (a - d)) else memory a

/-- Copy some blocks, or stop at one that is not aligned. -/
def copyBlocks : List Block → (d s : Nat) → ByteBuffer → Option ByteBuffer
  | [], _, _, memory => some memory
  | block :: blocks, d, s, memory =>
    if d % block.alignDst = 0 ∧ s % block.alignSrc = 0 then
      copyBlocks blocks (d + block.size) (s + block.size) (copyBlock memory d s block.size)
    else none

/-- What the blocks read behind the source and write behind the destination. -/
def blockAccesses : List Block → (offset : Nat) → List Load
  | [], _ => []
  | block :: blocks, offset =>
    ⟨offset, block.size⟩ :: blockAccesses blocks (offset + block.size)

/-- `__ssrjson_short_memcpy_small_first`, or `__ssrjson_short_memcpy_small_first_aligned_store`. -/
def shortMemcpySmallFirst (aligned : Bool) (n sizeLessThan : Nat) : List Block :=
  (List.range 7).flatMap fun k =>
    if 2 ^ (k + 1) ≤ sizeLessThan ∧ n.testBit k then
      [⟨2 ^ k, if aligned then 2 ^ k else 1, 1⟩]
    else []

/-- `__ssrjson_short_memcpy_large_first`, from the bit in front of the first one of `k`. -/
def shortMemcpyLargeFirst (n sizeLessThan : Nat) : (k : Nat) → List Block
  | 0 => []
  | k + 1 =>
    (if 2 ^ (k + 1) ≤ sizeLessThan ∧ n.testBit k then [⟨2 ^ k, 2 ^ k, 1⟩] else []) ++
      shortMemcpyLargeFirst n sizeLessThan k

/-- `ssrjson_memcpy_simd` behind the alignment of the destination. A block of four registers goes
through a type that is declared aligned to all four in the source; the destination is aligned to
one, and the block is taken for four moves that need no more. -/
def memcpyAligned (perCpyBytesize : Nat) (prealigned : Bool) (s n : Nat) : List Block :=
  let alignSrc := if prealigned = false ∧ s % perCpyBytesize ≠ 0 then 1 else perCpyBytesize
  List.replicate (n / (4 * perCpyBytesize)) ⟨4 * perCpyBytesize, perCpyBytesize, alignSrc⟩ ++
    List.replicate (n % (4 * perCpyBytesize) / perCpyBytesize)
      ⟨perCpyBytesize, perCpyBytesize, alignSrc⟩ ++
    shortMemcpyLargeFirst (n % perCpyBytesize) perCpyBytesize 7

/-- The blocks of `ssrjson_memcpy_simd`. -/
def memcpyBlocks (perCpyBytesize : Nat) (prealigned : Bool) (d s n : Nat) : List Block :=
  if d % perCpyBytesize ≠ 0 then
    let tmp := perCpyBytesize - d % perCpyBytesize
    if n ≤ tmp then shortMemcpySmallFirst false n perCpyBytesize
    else
      shortMemcpySmallFirst true tmp perCpyBytesize ++
        memcpyAligned perCpyBytesize prealigned (s + tmp) (n - tmp)
  else memcpyAligned perCpyBytesize prealigned s n

/-- `ssrjson_memcpy` and `ssrjson_memcpy_prealigned`. -/
def ssrjsonMemcpySimd (isa : Isa) (prealigned : Bool) (d s n : Nat) (memory : ByteBuffer) :
    Option ByteBuffer :=
  copyBlocks (memcpyBlocks (isa.vectorBits / 8) prealigned d s n) d s memory

/-! ## Blocks that follow each other -/

/-- How many bytes some blocks have. -/
def total (blocks : List Block) : Nat := (blocks.map Block.size).sum

/-- Every block is aligned where it comes. -/
def Aligned : List Block → (d s : Nat) → Prop
  | [], _, _ => True
  | block :: blocks, d, s => (d % block.alignDst = 0 ∧ s % block.alignSrc = 0) ∧
    Aligned blocks (d + block.size) (s + block.size)

@[simp] theorem total_nil : total [] = 0 := rfl

@[simp] theorem total_cons (block : Block) (blocks : List Block) :
    total (block :: blocks) = block.size + total blocks := rfl

@[simp] theorem total_append (blocks blocks' : List Block) :
    total (blocks ++ blocks') = total blocks + total blocks' := by
  rw [total, List.map_append, List.sum_append]
  rfl

@[simp] theorem total_replicate (k : Nat) (block : Block) :
    total (List.replicate k block) = k * block.size := by
  rw [total, List.map_replicate, List.sum_replicate_nat]

theorem aligned_append {blocks blocks' : List Block} {d s : Nat} :
    Aligned (blocks ++ blocks') d s ↔
      Aligned blocks d s ∧ Aligned blocks' (d + total blocks) (s + total blocks) := by
  induction blocks generalizing d s with
  | nil => exact (iff_of_eq (true_and _)).symm
  | cons block blocks ih =>
      rw [List.cons_append, Aligned, Aligned, ih, total_cons, Nat.add_assoc, Nat.add_assoc,
        and_assoc (c := Aligned blocks' _ _)]

/-- Blocks that are whole registers stay aligned. -/
theorem aligned_replicate {block : Block} {d s : Nat} (k : Nat) (hd : d % block.alignDst = 0)
    (hs : s % block.alignSrc = 0) (hdvd : block.alignDst ∣ block.size)
    (hdvd' : block.alignSrc ∣ block.size) : Aligned (List.replicate k block) d s := by
  induction k generalizing d s with
  | zero => exact trivial
  | succ k ih =>
      refine ⟨⟨hd, hs⟩, ih ?_ ?_⟩
      · rw [Nat.add_mod, hd, Nat.mod_eq_zero_of_dvd hdvd, Nat.zero_add, Nat.zero_mod]
      · rw [Nat.add_mod, hs, Nat.mod_eq_zero_of_dvd hdvd', Nat.zero_add, Nat.zero_mod]

/-- Aligned blocks copy what they have, between ranges that do not meet. -/
theorem copyBlocks_spec {blocks : List Block} {d s : Nat} {memory : ByteBuffer}
    (haligned : Aligned blocks d s) (happart : s + total blocks ≤ d ∨ d + total blocks ≤ s) :
    ∃ memory', copyBlocks blocks d s memory = some memory' ∧
      (∀ i < total blocks, memory' (d + i) = memory (s + i)) ∧
      ∀ a, a < d ∨ d + total blocks ≤ a → memory' a = memory a := by
  induction blocks generalizing d s memory with
  | nil => exact ⟨memory, rfl, fun i hi => absurd hi (Nat.not_lt_zero i), fun _ _ => rfl⟩
  | cons block blocks ih =>
      obtain ⟨hhere, hrest⟩ := haligned
      rw [total_cons] at happart ⊢
      obtain ⟨memory', hrun, hcopied, hkept⟩ := @ih _ _ (copyBlock memory d s block.size)
        hrest (by omega)
      refine ⟨memory', by rw [copyBlocks, if_pos hhere]; exact hrun, fun i hi => ?_, fun a ha => ?_⟩
      · by_cases hi' : i < block.size
        · rw [hkept _ (by omega), copyBlock, if_pos (by omega), Nat.add_sub_cancel_left]
        · have hlater := hcopied (i - block.size) (by omega)
          rw [show d + block.size + (i - block.size) = d + i by omega,
            show s + block.size + (i - block.size) = s + i by omega] at hlater
          rw [hlater, copyBlock, if_neg (by omega)]
      · rw [hkept _ (by omega), copyBlock, if_neg (by omega)]

/-- No access goes past what the blocks have. -/
theorem blockAccesses_within {blocks : List Block} {offset : Nat} :
    ∀ l ∈ blockAccesses blocks offset, l.pos + l.count ≤ offset + total blocks := by
  induction blocks generalizing offset with
  | nil => exact fun l hl => absurd hl List.not_mem_nil
  | cons block blocks ih =>
      intro l hl
      rw [total_cons]
      rcases List.mem_cons.mp hl with rfl | hl
      · dsimp only
        omega
      · have := ih l hl
        omega

/-! ## Powers of two -/

/-- The lower bits of a number with one bit more. -/
theorem mod_two_pow_succ (n k : Nat) :
    n % 2 ^ (k + 1) = n % 2 ^ k + if n.testBit k then 2 ^ k else 0 := by
  have hbit : n.testBit k = decide (n / 2 ^ k % 2 = 1) := Nat.testBit_eq_decide_div_mod_eq
  rw [Nat.pow_succ, Nat.mod_mul, hbit]
  rcases Nat.mod_two_eq_zero_or_one (n / 2 ^ k) with h | h
  · simp [h]
  · simp [h]

/-- A bit that is set is below the bound of the number. -/
theorem lt_of_testBit {n k e : Nat} (hlt : n < 2 ^ e) (hbit : n.testBit k = true) : k < e := by
  by_contra hle
  have hsmall : n < 2 ^ k := hlt.trans_le (Nat.pow_le_pow_right (by decide) (Nat.not_lt.mp hle))
  rw [Nat.testBit_lt_two_pow hsmall] at hbit
  cases hbit

section Short

variable {n e : Nat} (hlt : n < 2 ^ e)

include hlt

/-- The small blocks first: those of the lower bits come to the lower bits of the number. -/
theorem smallFirst_spec {aligned : Bool} {d s : Nat} (hd : aligned = true → (d + n) % 2 ^ e = 0)
    (k : Nat) :
    let blocks := (List.range k).flatMap fun k =>
      if 2 ^ (k + 1) ≤ 2 ^ e ∧ n.testBit k then
        [(⟨2 ^ k, if aligned then 2 ^ k else 1, 1⟩ : Block)] else []
    total blocks = n % 2 ^ k ∧ Aligned blocks d s := by
  intro blocks
  induction k with
  | zero => exact ⟨(Nat.mod_one n).symm, trivial⟩
  | succ k ih =>
      obtain ⟨htotal, haligned⟩ := ih
      simp only [blocks, List.range_succ, List.flatMap_append, List.flatMap_singleton, total_append,
        aligned_append, htotal, mod_two_pow_succ n k]
      by_cases hbit : n.testBit k = true
      · have hke := lt_of_testBit hlt hbit
        have hle : 2 ^ (k + 1) ≤ 2 ^ e := Nat.pow_le_pow_right (by decide) hke
        rw [if_pos ⟨hle, hbit⟩, if_pos hbit]
        refine ⟨rfl, haligned, ⟨?_, Nat.mod_one _⟩, trivial⟩
        cases aligned with
        | false => exact Nat.mod_one _
        | true =>
            -- The number is a multiple of `2 ^ k` in front of the end, where the address is one.
            have hend : 2 ^ k ∣ d + n :=
              (Nat.pow_dvd_pow 2 hke.le).trans (Nat.dvd_of_mod_eq_zero (hd rfl))
            have hsplit : d + n = d + n % 2 ^ k + 2 ^ k * (n / 2 ^ k) := by
              have := Nat.mod_add_div n (2 ^ k)
              omega
            rw [hsplit] at hend
            exact Nat.mod_eq_zero_of_dvd ((Nat.dvd_add_left (Nat.dvd_mul_right _ _)).mp hend)
      · rw [if_neg fun h => hbit h.2, if_neg hbit]
        exact ⟨rfl, haligned, trivial⟩

theorem shortMemcpySmallFirst_spec {aligned : Bool} {d s : Nat} (he : e ≤ 7)
    (hd : aligned = true → (d + n) % 2 ^ e = 0) :
    total (shortMemcpySmallFirst aligned n (2 ^ e)) = n ∧
      Aligned (shortMemcpySmallFirst aligned n (2 ^ e)) d s := by
  obtain ⟨htotal, haligned⟩ := smallFirst_spec hlt (s := s) hd 7
  refine ⟨htotal.trans (Nat.mod_eq_of_lt (hlt.trans_le ?_)), haligned⟩
  exact Nat.pow_le_pow_right (by decide) he

/-- The large blocks first: what is left are the lower bits of the number. -/
theorem shortMemcpyLargeFirst_spec {d s : Nat} (k : Nat) (hd : 2 ^ min k e ∣ d) :
    total (shortMemcpyLargeFirst n (2 ^ e) k) = n % 2 ^ k ∧
      Aligned (shortMemcpyLargeFirst n (2 ^ e) k) d s := by
  induction k generalizing d s with
  | zero => exact ⟨(Nat.mod_one n).symm, trivial⟩
  | succ k ih =>
      rw [shortMemcpyLargeFirst, mod_two_pow_succ n k, total_append, aligned_append]
      by_cases hbit : n.testBit k = true
      · have hke := lt_of_testBit hlt hbit
        have hle : 2 ^ (k + 1) ≤ 2 ^ e := Nat.pow_le_pow_right (by decide) hke
        rw [Nat.min_eq_left hke] at hd
        have hhere : 2 ^ k ∣ d := (Nat.pow_dvd_pow 2 (Nat.le_succ k)).trans hd
        obtain ⟨htotal, haligned⟩ := ih (d := d + 2 ^ k) (s := s + 2 ^ k) (by
          rw [Nat.min_eq_left hke.le]
          exact Nat.dvd_add hhere (Nat.dvd_refl _))
        rw [if_pos ⟨hle, hbit⟩, if_pos hbit, htotal]
        refine ⟨Nat.add_comm _ _, ⟨⟨?_, Nat.mod_one _⟩, trivial⟩, haligned⟩
        exact Nat.mod_eq_zero_of_dvd hhere
      · obtain ⟨htotal, haligned⟩ := ih (d := d) (s := s)
          ((Nat.pow_dvd_pow 2 (min_le_min_right e (Nat.le_succ k))).trans hd)
        rw [if_neg fun h => hbit h.2, if_neg hbit, htotal]
        exact ⟨Nat.zero_add _, trivial, haligned⟩

end Short

/-! ## The copy -/

section Copy

variable {e : Nat} (he : e ≤ 7)

include he

/-- Behind the head the destination is aligned, and so is the source where that is asked for. -/
theorem memcpyAligned_spec {prealigned : Bool} {d s n : Nat} (hd : d % 2 ^ e = 0)
    (hs : prealigned = true → s % 2 ^ e = 0) :
    total (memcpyAligned (2 ^ e) prealigned s n) = n ∧
      Aligned (memcpyAligned (2 ^ e) prealigned s n) d s := by
  have hpos : 0 < 2 ^ e := Nat.two_pow_pos e
  generalize hsrc : (if prealigned = false ∧ s % 2 ^ e ≠ 0 then 1 else 2 ^ e) = alignSrc
  have halign : s % alignSrc = 0 ∧ alignSrc ∣ 2 ^ e := by
    rw [← hsrc]
    split
    · exact ⟨Nat.mod_one s, Nat.one_dvd _⟩
    · rename_i h
      refine ⟨?_, Nat.dvd_refl _⟩
      cases prealigned with
      | false => exact not_not.mp fun hne => h ⟨rfl, hne⟩
      | true => exact hs rfl
  have hfour : 2 ^ e ∣ 4 * 2 ^ e := Nat.dvd_mul_left _ _
  have hquarter := Nat.div_add_mod n (4 * 2 ^ e)
  have hregisters := Nat.div_add_mod (n % (4 * 2 ^ e)) (2 ^ e)
  rw [Nat.mod_mul_left_mod] at hregisters
  have htwo : n % 2 ^ e < 2 ^ e := Nat.mod_lt n hpos
  -- Where the blocks of four registers and the single registers end.
  have hdvd : 2 ^ e ∣ n / (4 * 2 ^ e) * (4 * 2 ^ e) := hfour.mul_left _
  have hdvd' : 2 ^ e ∣ n % (4 * 2 ^ e) / 2 ^ e * 2 ^ e := Nat.dvd_mul_left _ _
  have hlast : ∀ p, 2 ^ e ∣ p → 2 ^ e ∣ p + n / (4 * 2 ^ e) * (4 * 2 ^ e) := fun p hp =>
    Nat.dvd_add hp hdvd
  obtain ⟨htotal, haligned⟩ := shortMemcpyLargeFirst_spec htwo (s := s +
      total (List.replicate (n / (4 * 2 ^ e)) (⟨4 * 2 ^ e, 2 ^ e, alignSrc⟩ : Block) ++
        List.replicate (n % (4 * 2 ^ e) / 2 ^ e) ⟨2 ^ e, 2 ^ e, alignSrc⟩)) 7
    (d := d + total (List.replicate (n / (4 * 2 ^ e)) (⟨4 * 2 ^ e, 2 ^ e, alignSrc⟩ : Block) ++
      List.replicate (n % (4 * 2 ^ e) / 2 ^ e) ⟨2 ^ e, 2 ^ e, alignSrc⟩)) (by
    rw [Nat.min_eq_right he, total_append, total_replicate, total_replicate]
    exact Nat.dvd_add (Nat.dvd_of_mod_eq_zero hd) (Nat.dvd_add hdvd hdvd'))
  have hmod : n % 2 ^ e % 2 ^ 7 = n % 2 ^ e :=
    Nat.mod_eq_of_lt (htwo.trans_le (Nat.pow_le_pow_right (by decide) he))
  rw [hmod] at htotal
  unfold memcpyAligned
  dsimp only
  rw [hsrc, aligned_append, aligned_append]
  refine ⟨?_, ⟨aligned_replicate _ hd halign.1 hfour (halign.2.trans hfour), ?_⟩, haligned⟩
  · rw [total_append, total_append, total_replicate, total_replicate, htotal]
    rw [Nat.mul_comm (4 * 2 ^ e)] at hquarter
    rw [Nat.mul_comm (2 ^ e)] at hregisters
    rw [Nat.add_assoc, hregisters, hquarter]
  · rw [total_replicate]
    refine aligned_replicate _ ?_ ?_ (Nat.dvd_refl _) halign.2
    · exact Nat.mod_eq_zero_of_dvd (hlast d (Nat.dvd_of_mod_eq_zero hd))
    · exact Nat.mod_eq_zero_of_dvd (Nat.dvd_add (Nat.dvd_of_mod_eq_zero halign.1)
        ((halign.2.trans hfour).mul_left _))

theorem memcpyBlocks_spec {prealigned : Bool} {d s n : Nat}
    (hpre : prealigned = true → s % 2 ^ e = d % 2 ^ e) :
    total (memcpyBlocks (2 ^ e) prealigned d s n) = n ∧
      Aligned (memcpyBlocks (2 ^ e) prealigned d s n) d s := by
  have hpos : 0 < 2 ^ e := Nat.two_pow_pos e
  have hmod := Nat.mod_lt d hpos
  unfold memcpyBlocks
  dsimp only
  split
  · rename_i hhead
    -- The head ends where the destination is aligned.
    have hend : ∀ p, p % 2 ^ e = d % 2 ^ e → (p + (2 ^ e - d % 2 ^ e)) % 2 ^ e = 0 := by
      intro p hp
      rw [Nat.add_mod, hp, Nat.mod_eq_of_lt (show 2 ^ e - d % 2 ^ e < 2 ^ e by omega),
        Nat.add_sub_cancel' hmod.le, Nat.mod_self]
    split
    · rename_i hshort
      exact shortMemcpySmallFirst_spec (by omega) he fun h => by cases h
    · rename_i hlong
      have hsmall := @shortMemcpySmallFirst_spec (2 ^ e - d % 2 ^ e) e (by omega) true d s he
        fun _ => hend d rfl
      have hrest := @memcpyAligned_spec _ he prealigned _ _ (n - (2 ^ e - d % 2 ^ e))
        (hend d rfl) fun h => hend s (hpre h)
      rw [total_append, aligned_append, hsmall.1, hrest.1]
      exact ⟨by omega, hsmall.2, hrest.2⟩
  · rename_i hhead
    have hzero := not_not.mp hhead
    exact memcpyAligned_spec he hzero fun h => (hpre h).trans hzero

end Copy

/-- The bytes of a register are a power of two. -/
theorem registerBytes_pow (isa : Isa) : ∃ e ≤ 7, isa.vectorBits / 8 = 2 ^ e := by
  cases isa with
  | sse | neon => exact ⟨4, by decide, rfl⟩
  | avx2 => exact ⟨5, by decide, rfl⟩
  | avx512 => exact ⟨6, by decide, rfl⟩

/-- The copy succeeds, leaves the bytes of the source at the destination and every other byte as it
was, and accesses nothing outside of the two ranges. -/
theorem ssrjsonMemcpySimd_copies (isa : Isa) (prealigned : Bool) (d s n : Nat)
    (memory : ByteBuffer) (happart : s + n ≤ d ∨ d + n ≤ s)
    (hpre : prealigned = true → s % (isa.vectorBits / 8) = d % (isa.vectorBits / 8)) :
    (∃ memory', ssrjsonMemcpySimd isa prealigned d s n memory = some memory' ∧
      (∀ i < n, memory' (d + i) = memory (s + i)) ∧
      ∀ a, a < d ∨ d + n ≤ a → memory' a = memory a) ∧
      ∀ l ∈ blockAccesses (memcpyBlocks (isa.vectorBits / 8) prealigned d s n) 0,
        l.pos + l.count ≤ n := by
  obtain ⟨e, he, hbytes⟩ := registerBytes_pow isa
  rw [hbytes] at hpre
  obtain ⟨htotal, haligned⟩ := memcpyBlocks_spec he (n := n) hpre
  have hcopy := @copyBlocks_spec _ _ _ memory haligned (by rwa [htotal])
  have hwithin := @blockAccesses_within (memcpyBlocks (2 ^ e) prealigned d s n)
    0
  rw [htotal] at hcopy
  rw [htotal, Nat.zero_add] at hwithin
  unfold ssrjsonMemcpySimd
  rw [hbytes]
  exact ⟨hcopy, hwithin⟩

/-- 100 bytes from address 3 to address 1029, which is not aligned. -/
theorem ssrjsonMemcpySimd_copies_unaligned :
    ∃ memory', ssrjsonMemcpySimd .avx2 false 1029 3 100 (fun a => a) = some memory' ∧
      (∀ i < 100, memory' (1029 + i) = 3 + i) ∧
      ∀ a, a < 1029 ∨ 1029 + 100 ≤ a → memory' a = a :=
  (ssrjsonMemcpySimd_copies .avx2 false 1029 3 100 (fun a => a) (.inl (by decide))
    fun h => by cases h).1

end SsrJson.Simd
