import Mathlib.Data.Nat.ModEq
import Mathlib.Tactic.Ring
import Mathlib.Data.List.Basic

/-!
# Buffers of bytes read at several widths

Scratch memory is bytes; code writes vectors of elements to it at one width and reads elements at
the same or another width later. `load` and `store` are little-endian; `load_store` and
`load_store_other` say what is read back at the width of the store, and `store_below` that
everything below the store stays, at whatever width it is read.
-/

namespace SsrJson

/-- A buffer as a map from addresses to bytes. -/
abbrev ByteBuffer := Nat → Nat

namespace ByteBuffer

/-- The number whose `n` lowest bytes are given, the lowest first. -/
def ofBytes (byte : Nat → Nat) : Nat → Nat
  | 0 => 0
  | n + 1 => byte 0 + 256 * ofBytes (fun k => byte (k + 1)) n

/-- The element of `width` bytes with index `i`. -/
def load (buffer : ByteBuffer) (width i : Nat) : Nat :=
  ofBytes (fun k => buffer (width * i + k)) width

/-- Store `n` elements of `width` bytes, the first one at index `i`. -/
def store (buffer : ByteBuffer) (width i n : Nat) (lanes : Nat → Nat) : ByteBuffer := fun a =>
  if width * i ≤ a ∧ a < width * (i + n) then lanes (a / width - i) / 256 ^ (a % width) % 256
  else buffer a

/-- `n` elements from index `i` on. -/
def loadList (buffer : ByteBuffer) (width i n : Nat) : List Nat :=
  (List.range n).map fun k => load buffer width (i + k)

variable {buffer : ByteBuffer} {width i n : Nat} {lanes : Nat → Nat}

theorem ofBytes_congr {byte byte' : Nat → Nat} {n : Nat} (h : ∀ k < n, byte k = byte' k) :
    ofBytes byte n = ofBytes byte' n := by
  induction n generalizing byte byte' with
  | zero => rfl
  | succ n ih =>
      have htail : ofBytes (fun k => byte (k + 1)) n = ofBytes (fun k => byte' (k + 1)) n :=
        ih fun k hk => h (k + 1) (by omega)
      simp only [ofBytes, h 0 (by omega), htail]

/-- The bytes of a number make up the number. -/
theorem ofBytes_digits (v n : Nat) :
    ofBytes (fun k => v / 256 ^ k % 256) n = v % 256 ^ n := by
  induction n generalizing v with
  | zero => simp [ofBytes, Nat.mod_one]
  | succ n ih =>
      have htail : (fun k => v / 256 ^ (k + 1) % 256) = fun k => v / 256 / 256 ^ k % 256 := by
        funext k
        rw [Nat.pow_succ', Nat.div_div_eq_div_mul]
      rw [ofBytes, htail, ih, Nat.pow_succ', Nat.mod_mul, Nat.pow_zero, Nat.div_one]

/-- Buffers that agree up to an element hold the same element. -/
theorem load_congr {buffer' : ByteBuffer} {bound : Nat} (h : ∀ a < bound, buffer a = buffer' a)
    (hi : width * (i + 1) ≤ bound) : load buffer width i = load buffer' width i := by
  refine ofBytes_congr fun b hb => h _ ?_
  calc width * i + b < width * i + width := by omega
    _ = width * (i + 1) := by ring
    _ ≤ bound := hi

theorem loadList_congr {buffer' : ByteBuffer} {bound : Nat}
    (h : ∀ a < bound, buffer a = buffer' a) (hi : width * (i + n) ≤ bound) :
    loadList buffer width i n = loadList buffer' width i n := by
  refine List.map_congr_left fun k hk => load_congr h ?_
  have hk' := List.mem_range.mp hk
  exact (Nat.mul_le_mul_left width (by omega)).trans hi

/-- Only the lanes that are stored matter. -/
theorem store_lanes {lanes' : Nat → Nat} (h : ∀ k < n, lanes k = lanes' k) :
    store buffer width i n lanes = store buffer width i n lanes' := by
  funext a
  unfold store
  split
  · rename_i hin
    have hlt : a / width < i + n := Nat.div_lt_of_lt_mul hin.2
    have hle : i ≤ a / width := by
      rcases Nat.eq_zero_or_pos width with rfl | hpos
      · omega
      · exact (Nat.le_div_iff_mul_le hpos).mpr (by rw [Nat.mul_comm]; exact hin.1)
    rw [h _ (by omega)]
  · rfl

/-- A store leaves the bytes below it alone. -/
theorem store_below {a : Nat} (h : a < width * i) : store buffer width i n lanes a = buffer a :=
  if_neg fun hin => absurd hin.1 (Nat.not_le.mpr h)

/-- The bytes of the element with index `j`. -/
theorem store_byte {j k : Nat} (hk : k < width) : store buffer width i n lanes (width * j + k) =
    if i ≤ j ∧ j < i + n then lanes (j - i) / 256 ^ k % 256 else buffer (width * j + k) := by
  have hwidth : 0 < width := by omega
  have hdiv : (width * j + k) / width = j := by
    rw [Nat.mul_add_div hwidth, Nat.div_eq_of_lt hk, Nat.add_zero]
  have hmod : (width * j + k) % width = k := by
    rw [Nat.mul_add_mod, Nat.mod_eq_of_lt hk]
  have hlow : width * i ≤ width * j + k ↔ i ≤ j := by
    rw [Nat.mul_comm width i, ← Nat.le_div_iff_mul_le hwidth, hdiv]
  have hhigh : width * j + k < width * (i + n) ↔ j < i + n := by
    rw [Nat.mul_comm width (i + n), ← Nat.div_lt_iff_lt_mul hwidth, hdiv]
  simp only [store, hlow, hhigh, hdiv, hmod]

/-- An element stored is read back. -/
theorem load_store {j : Nat} (hj : j < n) (hlane : lanes j < 256 ^ width) :
    load (store buffer width i n lanes) width (i + j) = lanes j := by
  have hbytes : ∀ k < width, store buffer width i n lanes (width * (i + j) + k) =
      lanes j / 256 ^ k % 256 := by
    intro k hk
    rw [store_byte hk, if_pos (by omega), Nat.add_sub_cancel_left]
  rw [load, ofBytes_congr hbytes, ofBytes_digits, Nat.mod_eq_of_lt hlane]

/-- The other elements of that width stay. -/
theorem load_store_other {j : Nat} (hj : j < i ∨ i + n ≤ j) :
    load (store buffer width i n lanes) width j = load buffer width j := by
  refine ofBytes_congr fun k hk => ?_
  rw [store_byte hk, if_neg (by omega)]

@[simp] theorem length_loadList : (loadList buffer width i n).length = n := by
  simp [loadList]

@[simp] theorem loadList_zero : loadList buffer width i 0 = [] := rfl

theorem loadList_add (m : Nat) : loadList buffer width i (n + m) =
    loadList buffer width i n ++ loadList buffer width (i + n) m := by
  simp [loadList, List.range_add, Function.comp_def, Nat.add_assoc]

end ByteBuffer

end SsrJson
