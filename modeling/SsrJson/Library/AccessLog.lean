import SsrJson.Library.ByteBuffer

/-!
# Logs of loads and stores

Vector code reads and writes past what it needs and keeps. A log lists every access with its place,
so that bounds can be told about all of them. `Store.replay` gives the buffer the stores of a log
leave, and a `Trace` has both the loads from one buffer and the stores to another.
-/

namespace SsrJson

/-- A store of some elements of one width, the first one at an index. -/
structure Store where
  width : Nat
  index : Nat
  count : Nat
  lanes : Nat → Nat

namespace Store

/-- The buffer behind the store. -/
def apply (buffer : ByteBuffer) (s : Store) : ByteBuffer :=
  buffer.store s.width s.index s.count s.lanes

/-- The first address behind the bytes stored. -/
def stop (s : Store) : Nat := s.width * (s.index + s.count)

/-- Carry out some stores, the first one first. -/
def replay (log : List Store) (buffer : ByteBuffer) : ByteBuffer := log.foldl apply buffer

/-- No store reaches the bound. -/
def AllWithin (bound : Nat) (log : List Store) : Prop := ∀ s ∈ log, s.stop ≤ bound

variable {log log' : List Store} {buffer : ByteBuffer} {bound : Nat}

@[simp] theorem replay_nil : replay [] buffer = buffer := rfl

theorem replay_append : replay (log ++ log') buffer = replay log' (replay log buffer) :=
  List.foldl_append

theorem allWithin_append :
    AllWithin bound (log ++ log') ↔ AllWithin bound log ∧ AllWithin bound log' :=
  List.forall_mem_append

theorem allWithin_nil : AllWithin bound [] := fun _ h => absurd h List.not_mem_nil

theorem allWithin_cons {s : Store} :
    AllWithin bound (s :: log) ↔ s.stop ≤ bound ∧ AllWithin bound log :=
  List.forall_mem_cons

/-- A store leaves the bytes behind its end alone. -/
theorem apply_beyond {s : Store} {a : Nat} (h : s.stop ≤ a) : apply buffer s a = buffer a :=
  if_neg fun hin => absurd hin.2 (Nat.not_lt.mpr h)

/-- Stores that do not reach the bound leave the bytes from there on alone. -/
theorem replay_beyond (h : AllWithin bound log) {a : Nat} (ha : bound ≤ a) :
    replay log buffer a = buffer a := by
  induction log generalizing buffer with
  | nil => rfl
  | cons s log ih =>
      obtain ⟨hstop, hrest⟩ := allWithin_cons.mp h
      show replay log (apply buffer s) a = buffer a
      rw [ih hrest, apply_beyond (hstop.trans ha)]

end Store

/-- Stores side by side leave what each of them stores. -/
theorem load_tiles {width p m n k : Nat} {f : Nat → Nat} (hk : k < n * m)
    (hf : f k < 256 ^ width) (b : ByteBuffer) :
    (Store.replay ((List.range n).map fun i => ⟨width, p + i * m, m, fun j => f (i * m + j)⟩)
      b).load width (p + k) = f k := by
  induction n with
  | zero => omega
  | succ n ih =>
      rw [List.range_succ, List.map_append, Store.replay_append]
      show ByteBuffer.load (ByteBuffer.store _ width (p + n * m) m fun j => f (n * m + j)) width
        (p + k) = f k
      rw [Nat.succ_mul] at hk
      rcases Nat.lt_or_ge k (n * m) with hlt | hge
      · rw [ByteBuffer.load_store_other (by omega)]
        exact ih hlt
      · have hload := @ByteBuffer.load_store (Store.replay ((List.range n).map fun i =>
          ⟨width, p + i * m, m, fun j => f (i * m + j)⟩) b) width (p + n * m) m
          (fun j => f (n * m + j)) (k - n * m) (by omega)
          (by rwa [show n * m + (k - n * m) = k by omega])
        rwa [show p + n * m + (k - n * m) = p + k by omega,
          show n * m + (k - n * m) = k by omega] at hload

/-! ## Stores around a head -/

/-- A store whose place is counted from a head inside of a block; it may begin in front of it. -/
structure HeadStore where
  width : Nat
  index : Int
  count : Nat
  lanes : Nat → Nat

namespace HeadStore

/-- A store from the head on. -/
def ofStore (s : Store) : HeadStore := ⟨s.width, s.index, s.count, s.lanes⟩

/-- The store begins at most `front` bytes in front of the head, and ends at most `back` bytes
behind it. -/
def Within (front back : Nat) (s : HeadStore) : Prop :=
  -(front : Int) ≤ s.width * s.index ∧ s.width * (s.index + s.count) ≤ (back : Int)

/-- The store in the block that has the head as the element with index `head`. -/
def inBlock (head : Nat) (s : HeadStore) : Store :=
  ⟨s.width, (head + s.index).toNat, s.count, s.lanes⟩

theorem ofStore_within {s : Store} {front back : Nat} :
    (ofStore s).Within front back ↔ s.stop ≤ back := by
  have hstart : (0 : Int) ≤ s.width * s.index :=
    Int.mul_nonneg (Int.natCast_nonneg _) (Int.natCast_nonneg _)
  have hstop : (s.width : Int) * (s.index + s.count) = (s.width * (s.index + s.count) : Nat) := by
    push_cast
    rfl
  unfold Within ofStore Store.stop
  dsimp only
  rw [hstop, Int.ofNat_le]
  exact and_iff_right (by omega)

end HeadStore

/-! ## Loads and stores -/

/-- A load of some elements from a position on. -/
structure Load where
  pos : Nat
  count : Nat
  deriving DecidableEq, Repr

/-- The loads from a source and the stores to a buffer, each in their order. -/
structure Trace where
  loads : List Load
  stores : List Store

namespace Trace

/-- No access. -/
def empty : Trace := ⟨[], []⟩

/-- A single load. -/
def load (pos count : Nat) : Trace := ⟨[⟨pos, count⟩], []⟩

/-- A single store. -/
def store (s : Store) : Trace := ⟨[], [s]⟩

/-- One trace behind another. -/
instance : Append Trace := ⟨fun t u => ⟨t.loads ++ u.loads, t.stores ++ u.stores⟩⟩

/-- No load goes past `limit` and no store past `bound`. -/
def Within (limit bound : Nat) (t : Trace) : Prop :=
  (∀ l ∈ t.loads, l.pos + l.count ≤ limit) ∧ Store.AllWithin bound t.stores

variable {limit bound : Nat} {t u : Trace}

@[simp] theorem stores_append : (t ++ u).stores = t.stores ++ u.stores := rfl

@[simp] theorem stores_empty : empty.stores = [] := rfl

@[simp] theorem stores_load {pos count : Nat} : (load pos count).stores = [] := rfl

@[simp] theorem stores_store {s : Store} : (store s).stores = [s] := rfl

theorem Within.empty : empty.Within limit bound :=
  ⟨fun _ h => absurd h List.not_mem_nil, Store.allWithin_nil⟩

theorem Within.load {pos count : Nat} (h : pos + count ≤ limit) :
    (load pos count).Within limit bound :=
  ⟨fun _ hl => List.mem_singleton.mp hl ▸ h, Store.allWithin_nil⟩

theorem Within.store {s : Store} (h : s.stop ≤ bound) : (store s).Within limit bound :=
  ⟨fun _ h => absurd h List.not_mem_nil, fun _ hs => List.mem_singleton.mp hs ▸ h⟩

theorem Within.append (h : t.Within limit bound) (h' : u.Within limit bound) :
    (t ++ u).Within limit bound :=
  ⟨List.forall_mem_append.mpr ⟨h.1, h'.1⟩, Store.allWithin_append.mpr ⟨h.2, h'.2⟩⟩

theorem Within.ite {p : Prop} [Decidable p] (h : p → t.Within limit bound)
    (h' : ¬ p → u.Within limit bound) : (if p then t else u).Within limit bound := by
  split
  · exact h ‹_›
  · exact h' ‹_›

theorem Within.mono {limit' bound' : Nat} (h : t.Within limit bound) (hlimit : limit ≤ limit')
    (hbound : bound ≤ bound') : t.Within limit' bound' :=
  ⟨fun l hl => (h.1 l hl).trans hlimit, fun s hs => (h.2 s hs).trans hbound⟩

end Trace

end SsrJson
