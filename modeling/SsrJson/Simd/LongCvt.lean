import SsrJson.Decode.StrScan
import SsrJson.Library.BackCopy

/-!
# Widening from back to front

`long_back_cvt` widens elements inside of one buffer: some until the destination is aligned, whole
registers, and the rest by powers of two. Only the sizes of the blocks depend on the instruction
set, the widths and the alignment; the elements do not.
-/

namespace SsrJson.Simd

open Decode ByteBuffer

/-- The functions `__partial_back_cvt_*` for `2 ^ k` elements: one store where what is stored has at
least 16 bytes and no more than a register, else two halves, down to single elements. -/
def partialBackCvt (vectorBytes wr : Nat) : (k : Nat) → List Nat
  | 0 => [1]
  | k + 1 =>
    if 16 ≤ 2 ^ (k + 1) * wr ∧ 2 ^ (k + 1) * wr ≤ vectorBytes then [2 ^ (k + 1)]
    else partialBackCvt vectorBytes wr k ++ partialBackCvt vectorBytes wr k

/-- `__small_back_cvt`: the powers of two that make up a count below `maxPower2`. -/
def smallBackCvt (vectorBytes wr count maxPower2 : Nat) : List Nat :=
  (List.range 6).flatMap fun k =>
    if count.testBit k ∧ 2 ^ k < maxPower2 then partialBackCvt vectorBytes wr k else []

/-- The blocks of `long_back_cvt`: `address` is where the destination ends. -/
def longBackBlocks (isa : Isa) (rd wr address count : Nat) : List Nat :=
  let batchBytes := isa.vectorBits / 8
  let batchCount := isa.vectorBits / 8 / rd
  let batch4Count := isa.vectorBits / 8 / rd * 4
  let alignOffset := address % batchBytes
  let notAlignedCount := if count < alignOffset / wr then count else alignOffset / wr
  let rest := count - notAlignedCount
  smallBackCvt batchBytes wr notAlignedCount (batchBytes / wr) ++
    List.replicate (rest / batch4Count * 4) batchCount ++
    List.replicate (rest % batch4Count / batchCount) batchCount ++
    smallBackCvt batchBytes wr (rest % batch4Count % batchCount) batchCount

/-- The functions `long_back_cvt_noinline_*`. The buffer begins at an address. -/
def longBackCvt (isa : Isa) (address rd wr dst src count : Nat) (buffer : ByteBuffer) :
    ByteBuffer :=
  convertBack rd wr (longBackBlocks isa rd wr (address + wr * (dst + count)) count) (src + count)
    (dst + count) buffer

/-- The pairs of widths there is a function for: `u8` to `u16`, `u8` to `u32`, `u16` to `u32`. -/
def cvtWidths : List (Nat × Nat) := [(1, 2), (1, 4), (2, 4)]

/-! ## The blocks make up the count -/

theorem sum_partialBackCvt (vectorBytes wr k : Nat) :
    (partialBackCvt vectorBytes wr k).sum = 2 ^ k := by
  induction k with
  | zero => rfl
  | succ k ih =>
      rw [partialBackCvt]
      split
      · exact List.sum_singleton
      · rw [List.sum_append, ih, Nat.pow_succ, Nat.mul_two]

/-- The low bits of a count that has no others. -/
theorem sum_bits : ∀ e < 7, ∀ count < 2 ^ e, ((List.range 6).map fun k =>
    if count.testBit k ∧ 2 ^ k < 2 ^ e then 2 ^ k else 0).sum = count := by
  decide +kernel

theorem sum_smallBackCvt (vectorBytes wr : Nat) {count maxPower2 e : Nat}
    (hmax : maxPower2 = 2 ^ e) (he : e < 7) (hlt : count < maxPower2) :
    (smallBackCvt vectorBytes wr count maxPower2).sum = count := by
  have hsum : ∀ ks : List Nat, (ks.flatMap fun k =>
      if count.testBit k ∧ 2 ^ k < maxPower2 then partialBackCvt vectorBytes wr k else []).sum =
        (ks.map fun k => if count.testBit k ∧ 2 ^ k < maxPower2 then 2 ^ k else 0).sum := by
    intro ks
    induction ks with
    | nil => rfl
    | cons k ks ih =>
        rw [List.flatMap_cons, List.sum_append, ih, List.map_cons, List.sum_cons]
        congr 1
        split
        · exact sum_partialBackCvt vectorBytes wr k
        · rfl
  rw [smallBackCvt, hsum, hmax]
  exact sum_bits e he count (hmax ▸ hlt)

/-- How many elements a register holds is a power of two. -/
theorem batch_pow : ∀ isa : Isa, ∀ width ∈ [1, 2, 4],
    ∃ e < 7, isa.vectorBits / 8 / width = 2 ^ e := by
  intro isa width hwidth
  simp only [List.mem_cons, List.not_mem_nil, or_false] at hwidth
  rcases hwidth with rfl | rfl | rfl <;> cases isa
  · exact ⟨4, by decide, rfl⟩
  · exact ⟨4, by decide, rfl⟩
  · exact ⟨5, by decide, rfl⟩
  · exact ⟨6, by decide, rfl⟩
  · exact ⟨3, by decide, rfl⟩
  · exact ⟨3, by decide, rfl⟩
  · exact ⟨4, by decide, rfl⟩
  · exact ⟨5, by decide, rfl⟩
  · exact ⟨2, by decide, rfl⟩
  · exact ⟨2, by decide, rfl⟩
  · exact ⟨3, by decide, rfl⟩
  · exact ⟨4, by decide, rfl⟩

theorem sum_longBackBlocks (isa : Isa) {rd wr : Nat} (h : (rd, wr) ∈ cvtWidths)
    (address count : Nat) : (longBackBlocks isa rd wr address count).sum = count := by
  have hmem : rd ∈ [1, 2, 4] ∧ wr ∈ [1, 2, 4] := by
    revert h
    simp only [cvtWidths, List.mem_cons, Prod.mk.injEq, List.not_mem_nil, or_false]
    omega
  obtain ⟨e, he, hbatch⟩ := batch_pow isa rd hmem.1
  obtain ⟨e', he', hbatch'⟩ := batch_pow isa wr hmem.2
  have hpos : 0 < isa.vectorBits / 8 / rd := hbatch ▸ Nat.two_pow_pos e
  have halign : address % (isa.vectorBits / 8) / wr < isa.vectorBits / 8 / wr := by
    have hwr : 0 < wr := by
      have := hmem.2
      simp only [List.mem_cons, List.not_mem_nil, or_false] at this
      omega
    have hdvd : isa.vectorBits / 8 / wr * wr = isa.vectorBits / 8 := by
      have := hmem.2
      simp only [List.mem_cons, List.not_mem_nil, or_false] at this
      rcases this with rfl | rfl | rfl <;> cases isa <;> rfl
    rw [Nat.div_lt_iff_lt_mul hwr, hdvd]
    refine Nat.mod_lt _ ?_
    cases isa <;> decide
  unfold longBackBlocks
  dsimp only
  generalize hfirst : (if count < address % (isa.vectorBits / 8) / wr then count
    else address % (isa.vectorBits / 8) / wr) = first
  have hle : first ≤ count ∧ first < isa.vectorBits / 8 / wr := by
    rw [← hfirst]
    split <;> omega
  rw [List.sum_append, List.sum_append, List.sum_append, List.sum_replicate_nat,
    List.sum_replicate_nat, sum_smallBackCvt _ _ hbatch' he' hle.2,
    sum_smallBackCvt _ _ hbatch he (Nat.mod_lt _ hpos)]
  have hquarter := Nat.div_add_mod (count - first) (isa.vectorBits / 8 / rd * 4)
  have hbatches := Nat.div_add_mod ((count - first) % (isa.vectorBits / 8 / rd * 4))
    (isa.vectorBits / 8 / rd)
  have hswap : (count - first) / (isa.vectorBits / 8 / rd * 4) * 4 * (isa.vectorBits / 8 / rd) =
      isa.vectorBits / 8 / rd * 4 * ((count - first) / (isa.vectorBits / 8 / rd * 4)) := by
    ring
  have hswap' : (count - first) % (isa.vectorBits / 8 / rd * 4) / (isa.vectorBits / 8 / rd) *
      (isa.vectorBits / 8 / rd) = isa.vectorBits / 8 / rd *
        ((count - first) % (isa.vectorBits / 8 / rd * 4) / (isa.vectorBits / 8 / rd)) :=
    Nat.mul_comm _ _
  omega

/-- The copy, for the development. -/
theorem longBackCvt_spec (isa : Isa) {address rd wr dst src count : Nat} {buffer : ByteBuffer}
    (hwidths : (rd, wr) ∈ cvtWidths) (hbytes : buffer.IsBytes) (hplace : rd * src ≤ wr * dst) :
    (longBackCvt isa address rd wr dst src count buffer).loadList wr dst count =
        buffer.loadList rd src count ∧
      ∀ a, a < wr * dst ∨ wr * (dst + count) ≤ a →
        longBackCvt isa address rd wr dst src count buffer a = buffer a := by
  have hwidth : rd ≤ wr := by
    revert hwidths
    simp only [cvtWidths, List.mem_cons, Prod.mk.injEq, List.not_mem_nil, or_false]
    omega
  have hsum := sum_longBackBlocks isa hwidths (address + wr * (dst + count)) count
  have hspec := convertBack_spec hbytes hwidth hplace
    (longBackBlocks isa rd wr (address + wr * (dst + count)) count)
  rw [hsum] at hspec
  exact ⟨List.map_congr_left fun i hi => hspec.1 i (List.mem_range.mp hi), hspec.2⟩

/-- The copy leaves the elements of the source, widened one by one, and no byte outside of the
destination changed, wherever the destination begins from the source on. -/
theorem longBackCvt_widens (isa : Isa) (address rd wr dst src count : Nat) (buffer : ByteBuffer)
    (hwidths : (rd, wr) ∈ cvtWidths) (hbytes : buffer.IsBytes) (hplace : rd * src ≤ wr * dst) :
    (∀ i < count, (longBackCvt isa address rd wr dst src count buffer).load wr (dst + i) =
        buffer.load rd (src + i)) ∧
      ∀ a, a < wr * dst ∨ wr * (dst + count) ≤ a →
        longBackCvt isa address rd wr dst src count buffer a = buffer a := by
  obtain ⟨hlist, houtside⟩ := @longBackCvt_spec isa address _ _ _ _ count _ hwidths
    hbytes hplace
  refine ⟨fun i hi => ?_, houtside⟩
  have hget := congrArg (fun list => list[i]?) hlist
  simpa [loadList, hi] using hget

/-- Three bytes are widened over themselves; the last of them is where it belongs. -/
theorem longBackCvt_widens_three :
    (longBackCvt .avx2 0 1 2 0 0 3 fun a => 65 + a % 8).load 2 (0 + 2) =
      ByteBuffer.load (fun a => 65 + a % 8) 1 (0 + 2) :=
  (longBackCvt_widens .avx2 0 1 2 0 0 3 (fun a => 65 + a % 8) (by decide)
    (fun a => by show 65 + a % 8 < 256; omega) (by decide)).1 2 (by decide)

end SsrJson.Simd
