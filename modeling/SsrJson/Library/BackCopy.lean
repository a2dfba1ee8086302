import SsrJson.Library.ByteBuffer

/-!
# Widening in place

Elements are converted to a wider type in the same memory, in blocks from the last one to the
first one. Each block is loaded as a whole before it is stored. If the wider elements do not begin
in front of the others, no block stores over an element that is still to be read.
-/

namespace SsrJson.ByteBuffer

/-- Every byte is one. -/
def IsBytes (buffer : ByteBuffer) : Prop := ∀ a, buffer a < 256

/-- Load `n` elements of `rd` bytes and store them as elements of `wr` bytes. -/
def convert (buffer : ByteBuffer) (rd src wr dst n : Nat) : ByteBuffer :=
  buffer.store wr dst n fun i => buffer.load rd (src + i)

/-- Convert blocks from back to front. `src` and `dst` are where the next block ends. -/
def convertBack (rd wr : Nat) : (blocks : List Nat) → (src dst : Nat) → ByteBuffer → ByteBuffer
  | [], _, _, buffer => buffer
  | n :: blocks, src, dst, buffer =>
    convertBack rd wr blocks (src - n) (dst - n) (buffer.convert rd (src - n) wr (dst - n) n)

variable {buffer : ByteBuffer} {rd wr src dst n : Nat}

theorem ofBytes_lt {byte : Nat → Nat} {n : Nat} (h : ∀ k < n, byte k < 256) :
    ofBytes byte n < 256 ^ n := by
  induction n generalizing byte with
  | zero => exact Nat.one_pos
  | succ n ih =>
      have hhead := h 0 (Nat.succ_pos n)
      have htail := @ih (fun k => byte (k + 1)) fun k hk => h (k + 1) (by omega)
      rw [ofBytes, Nat.pow_succ']
      omega

theorem IsBytes.load_lt (h : buffer.IsBytes) (width i : Nat) : buffer.load width i < 256 ^ width :=
  ofBytes_lt fun _ _ => h _

theorem IsBytes.store (h : buffer.IsBytes) (width i n : Nat) (lanes : Nat → Nat) :
    (buffer.store width i n lanes).IsBytes := by
  intro a
  unfold ByteBuffer.store
  split
  · exact Nat.mod_lt _ (by decide)
  · exact h a

theorem IsBytes.convertBack (h : buffer.IsBytes) (rd wr : Nat) (blocks : List Nat) (src dst : Nat) :
    (convertBack rd wr blocks src dst buffer).IsBytes := by
  induction blocks generalizing buffer src dst with
  | nil => exact h
  | cons n blocks ih => exact ih (h.store _ _ _ _) _ _

/-- A store leaves the bytes outside of it alone. -/
theorem store_outside {width i n a : Nat} {lanes : Nat → Nat}
    (h : a < width * i ∨ width * (i + n) ≤ a) : buffer.store width i n lanes a = buffer a :=
  if_neg fun hin => by rcases h with h | h <;> omega

/-- The blocks of a run of elements leave each of them widened, and every byte outside of the wide
run as it was. -/
theorem convertBack_spec (hbytes : buffer.IsBytes) (hwidth : rd ≤ wr) (hplace : rd * src ≤ wr * dst)
    (blocks : List Nat) :
    (∀ i < blocks.sum,
      (convertBack rd wr blocks (src + blocks.sum) (dst + blocks.sum) buffer).load wr (dst + i) =
        buffer.load rd (src + i)) ∧
      ∀ a, a < wr * dst ∨ wr * (dst + blocks.sum) ≤ a →
        convertBack rd wr blocks (src + blocks.sum) (dst + blocks.sum) buffer a = buffer a := by
  induction blocks generalizing buffer with
  | nil => exact ⟨fun i hi => absurd hi (Nat.not_lt_zero i), fun _ _ => rfl⟩
  | cons n blocks ih =>
      have hpointers : ∀ p : Nat, p + (n :: blocks).sum - n = p + blocks.sum := by
        intro p
        rw [List.sum_cons]
        omega
      have hend : dst + (n :: blocks).sum = dst + blocks.sum + n := by
        rw [List.sum_cons]
        omega
      rw [convertBack, hpointers, hpointers]
      -- The block that is converted first is the last one.
      obtain ⟨hload, houtside⟩ := @ih (buffer.convert rd (src + blocks.sum) wr
        (dst + blocks.sum) n) (hbytes.store _ _ _ _)
      have hbelow : ∀ a < wr * (dst + blocks.sum),
          buffer.convert rd (src + blocks.sum) wr (dst + blocks.sum) n a = buffer a :=
        fun a ha => store_outside (.inl ha)
      have hlow : ∀ m, rd * (src + m) ≤ wr * (dst + m) := by
        intro m
        rw [Nat.mul_add, Nat.mul_add]
        exact Nat.add_le_add hplace (Nat.mul_le_mul_right m hwidth)
      refine ⟨fun i hi => ?_, fun a ha => ?_⟩
      · by_cases hi' : i < blocks.sum
        · rw [hload i hi']
          refine load_congr hbelow ((Nat.mul_le_mul_left rd ?_).trans (hlow _))
          omega
        · have hlast : i - blocks.sum < n := by
            rw [List.sum_cons] at hi
            omega
          have hstored := @load_store buffer wr (dst + blocks.sum) n
            (fun i => buffer.load rd (src + blocks.sum + i)) _ hlast
            ((hbytes.load_lt rd _).trans_le (Nat.pow_le_pow_right (by decide) hwidth))
          rw [Nat.add_assoc, Nat.add_assoc, Nat.add_sub_cancel' (Nat.not_lt.mp hi')] at hstored
          rw [← hstored]
          refine ofBytes_congr fun k _ => houtside _ (.inr ?_)
          exact (Nat.mul_le_mul_left wr (by omega)).trans (Nat.le_add_right _ _)
      · rw [hend] at ha
        have hmono : wr * (dst + blocks.sum) ≤ wr * (dst + blocks.sum + n) :=
          Nat.mul_le_mul_left wr (Nat.le_add_right _ _)
        rw [houtside a (ha.imp_right fun h => hmono.trans h)]
        refine store_outside (ha.imp_left fun h => h.trans_le ?_)
        exact Nat.mul_le_mul_left wr (Nat.le_add_right _ _)

end SsrJson.ByteBuffer
