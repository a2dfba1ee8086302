import Mathlib.Data.List.GetD
import Mathlib.Data.List.Induction
import SsrJson.Library.AccessLog

/-!
# Writers that store more than they keep

A writer stores vectors of elements at its index and then moves on, often by less than it stored.
`Writes w w' us room` says what a part of a program did to its writer: it left the elements `us`
behind, stored nothing in front of where it began and nothing `room` elements behind that. Parts
compose (`Writes.append`), and the log of all stores bounds every single one of them.
-/

namespace SsrJson

/-- A writer of elements of `width` bytes: the index of the next one, and the stores so far. -/
structure StoreWriter where
  width : Nat
  index : Nat
  log : List Store

namespace StoreWriter

/-- Store some lanes, the first one `offset` elements behind the writer. -/
def put (w : StoreWriter) (offset count : Nat) (lanes : Nat → Nat) : StoreWriter :=
  { w with log := w.log ++ [⟨w.width, w.index + offset, count, lanes⟩] }

/-- Move the writer on. -/
def move (w : StoreWriter) (count : Nat) : StoreWriter := { w with index := w.index + count }

/-- `*writer++ = v`. -/
def push (w : StoreWriter) (v : Nat) : StoreWriter := (w.put 0 1 fun _ => v).move 1

/-- Store a row of a table and move on by the part of it that counts. -/
def putRow (w : StoreWriter) (row : List Nat) (count : Nat) : StoreWriter :=
  (w.put 0 row.length fun i => row.getD i 0).move count

/-- Store rows, each at its offset, in their order. -/
def putRows (w : StoreWriter) (rows : List (Nat × List Nat)) : StoreWriter :=
  { w with
    log := w.log ++ rows.map fun row =>
      ⟨w.width, w.index + row.1, row.2.length, fun i => row.2.getD i 0⟩ }

/-- What rows leave of an element: the last one that stores it counts. -/
def lastLane (rows : List (Nat × List Nat)) (i : Nat) : Option Nat :=
  rows.foldl (fun lane row =>
    if row.1 ≤ i ∧ i < row.1 + row.2.length then some (row.2.getD (i - row.1) 0) else lane) none

/-- `writer--`. -/
def back (w : StoreWriter) : StoreWriter := { w with index := w.index - 1 }

/-- Several elements, one after the other. -/
def pushAll (w : StoreWriter) (us : List Nat) : StoreWriter := us.foldl push w

/-- The buffer behind all stores. -/
def buffer (w : StoreWriter) (b : ByteBuffer) : ByteBuffer := Store.replay w.log b

/-- What lies between the writers is `us`, and the stores in between stay inside of `room`
elements from the first writer on. -/
structure Writes (w w' : StoreWriter) (us : List Nat) (room : Nat) : Prop where
  width : w'.width = w.width
  index : w'.index = w.index + us.length
  stores : ∃ log, w'.log = w.log ++ log ∧
    (∀ s ∈ log, s.width = w.width ∧ w.index ≤ s.index ∧ s.index + s.count ≤ w.index + room) ∧
    ∀ b, (Store.replay log b).loadList w.width w.index us.length = us

variable {w w' w'' : StoreWriter} {us vs : List Nat} {room room' : Nat}

namespace Writes

theorem refl (w : StoreWriter) : Writes w w [] 0 where
  width := rfl
  index := rfl
  stores := ⟨[], (List.append_nil _).symm, fun _ h => absurd h List.not_mem_nil, fun _ => rfl⟩

theorem mono (h : Writes w w' us room) (hroom : room ≤ room') : Writes w w' us room' := by
  obtain ⟨log, hlog, hbound, hload⟩ := h.stores
  refine ⟨h.width, h.index, log, hlog, fun s hs => ?_, hload⟩
  obtain ⟨hwidth, hlow, hhigh⟩ := hbound s hs
  exact ⟨hwidth, hlow, by omega⟩

/-- Stores of one width from an index on leave everything in front of it alone. -/
theorem replay_below {log : List Store} {width index a : Nat}
    (h : ∀ s ∈ log, s.width = width ∧ index ≤ s.index) (ha : a < width * index) (b : ByteBuffer) :
    Store.replay log b a = b a := by
  induction log generalizing b with
  | nil => rfl
  | cons s log ih =>
      obtain ⟨hwidth, hindex⟩ := h s List.mem_cons_self
      have hrest := ih (fun t ht => h t (List.mem_cons_of_mem s ht)) (Store.apply b s)
      show Store.replay log (Store.apply b s) a = b a
      rw [hrest]
      refine ByteBuffer.store_below ?_
      rw [hwidth]
      exact ha.trans_le (Nat.mul_le_mul_left width hindex)

/-- One part behind another. -/
theorem append (h : Writes w w' us room) (h' : Writes w' w'' vs room') :
    Writes w w'' (us ++ vs) (max room (us.length + room')) := by
  obtain ⟨log, hlog, hbound, hload⟩ := h.stores
  obtain ⟨log', hlog', hbound', hload'⟩ := h'.stores
  rw [h.width, h.index] at hbound' hload'
  have hkept : ∀ b a, a < w.width * (w.index + us.length) → Store.replay log' b a = b a :=
    fun b a ha => replay_below (fun s hs => ⟨(hbound' s hs).1, (hbound' s hs).2.1⟩) ha b
  refine ⟨h'.width.trans h.width, ?_, log ++ log', ?_, fun s hs => ?_, fun b => ?_⟩
  · rw [h'.index, h.index, List.length_append, Nat.add_assoc]
  · rw [hlog', hlog, List.append_assoc]
  · rcases List.mem_append.mp hs with hs | hs
    · obtain ⟨hwidth, hlow, hhigh⟩ := hbound s hs
      exact ⟨hwidth, hlow, by omega⟩
    · obtain ⟨hwidth, hlow, hhigh⟩ := hbound' s hs
      exact ⟨hwidth, by omega, by omega⟩
  · rw [Store.replay_append, List.length_append, ByteBuffer.loadList_add, hload',
      ByteBuffer.loadList_congr (hkept _) (Nat.le_refl _), hload]

/-- The last element is given up. -/
theorem back {u : Nat} (h : Writes w w' (us ++ [u]) room) : Writes w w'.back us room := by
  obtain ⟨log, hlog, hbound, hload⟩ := h.stores
  have hlength : (us ++ [u]).length = us.length + 1 := List.length_append
  refine ⟨h.width, ?_, log, hlog, hbound, fun b => ?_⟩
  · show w'.index - 1 = w.index + us.length
    rw [h.index, hlength]
    omega
  · have hall := hload b
    rw [hlength, ByteBuffer.loadList_add] at hall
    exact (List.append_inj hall ByteBuffer.length_loadList).1

theorem dropLast (h : Writes w w' us room) (hus : us ≠ []) : Writes w w'.back us.dropLast room := by
  rw [← List.dropLast_append_getLast hus] at h
  exact h.back

/-- What was kept is in the buffer. -/
theorem load (h : Writes w w' us room) (b : ByteBuffer) :
    (w'.buffer b).loadList w.width w.index us.length = us := by
  obtain ⟨log, hlog, -, hload⟩ := h.stores
  unfold buffer
  rw [hlog, Store.replay_append, hload]

/-- What lies in front of the writer stays. -/
theorem below (h : Writes w w' us room) (b : ByteBuffer) {a : Nat} (ha : a < w.width * w.index) :
    w'.buffer b a = w.buffer b a := by
  obtain ⟨log, hlog, hbound, -⟩ := h.stores
  unfold buffer
  rw [hlog, Store.replay_append]
  exact replay_below (fun s hs => ⟨(hbound s hs).1, (hbound s hs).2.1⟩) ha _

/-- The stores end in front of a bound that leaves the room. -/
theorem within (h : Writes w w' us room) {bound : Nat} (hbound : w.width * (w.index + room) ≤ bound) :
    ∃ log, w'.log = w.log ++ log ∧ Store.AllWithin bound log := by
  obtain ⟨log, hlog, hstores, -⟩ := h.stores
  refine ⟨log, hlog, fun s hs => ?_⟩
  obtain ⟨hwidth, -, hhigh⟩ := hstores s hs
  show s.width * (s.index + s.count) ≤ bound
  rw [hwidth]
  exact (Nat.mul_le_mul_left _ hhigh).trans hbound

/-! ### Single stores -/

/-- Some lanes are stored and some of them kept. -/
theorem put_move (w : StoreWriter) {n count : Nat} {lanes : Nat → Nat} (hle : n ≤ count)
    (hlanes : ∀ i < n, lanes i < 256 ^ w.width) :
    Writes w ((w.put 0 count lanes).move n) ((List.range n).map lanes) count := by
  refine ⟨rfl, ?_, [⟨w.width, w.index, count, lanes⟩], rfl, fun s hs => ?_, fun b => ?_⟩
  · show w.index + n = w.index + _
    rw [List.length_map, List.length_range]
  · obtain rfl := List.mem_singleton.mp hs
    exact ⟨rfl, Nat.le_refl _, Nat.le_refl _⟩
  · rw [List.length_map, List.length_range]
    refine List.map_congr_left fun i hi => ?_
    have hlt := List.mem_range.mp hi
    exact ByteBuffer.load_store (show i < count by omega) (hlanes i hlt)

/-- Two stores that may overlap: the second one counts where both store. -/
theorem put_put_move (w : StoreWriter) {n offset offset' count count' : Nat}
    {vec vec' lanes : Nat → Nat}
    (hcover : ∀ i < n, offset' ≤ i ∧ i < offset' + count' ∧ vec' (i - offset') = lanes i ∨
      (i < offset' ∨ offset' + count' ≤ i) ∧ offset ≤ i ∧ i < offset + count ∧
        vec (i - offset) = lanes i)
    (hlanes : ∀ i < n, lanes i < 256 ^ w.width) :
    Writes w (((w.put offset count vec).put offset' count' vec').move n)
      ((List.range n).map lanes) (max (offset + count) (offset' + count')) := by
  refine ⟨rfl, ?_, [⟨w.width, w.index + offset, count, vec⟩,
    ⟨w.width, w.index + offset', count', vec'⟩], List.append_assoc _ [_] [_], fun s hs => ?_,
    fun b => ?_⟩
  · show w.index + n = w.index + _
    rw [List.length_map, List.length_range]
  · rcases List.mem_cons.mp hs with rfl | hs
    · exact ⟨rfl, Nat.le_add_right _ _, by dsimp only; omega⟩
    · obtain rfl := List.mem_singleton.mp hs
      exact ⟨rfl, Nat.le_add_right _ _, by dsimp only; omega⟩
  · rw [List.length_map, List.length_range]
    refine List.map_congr_left fun i hi => ?_
    have hlt := List.mem_range.mp hi
    have hlane := hlanes i hlt
    show ByteBuffer.load (ByteBuffer.store (ByteBuffer.store b w.width (w.index + offset) count vec)
      w.width (w.index + offset') count' vec') w.width (w.index + i) = lanes i
    rcases hcover i hlt with ⟨hlow, hhigh, heq⟩ | ⟨hout, hlow, hhigh, heq⟩
    · have hload := @ByteBuffer.load_store (ByteBuffer.store b w.width (w.index + offset) count vec)
        w.width (w.index + offset') count' vec' (i - offset') (by omega) (heq ▸ hlane)
      rw [show w.index + offset' + (i - offset') = w.index + i by omega] at hload
      rw [hload, heq]
    · have hload := @ByteBuffer.load_store b w.width (w.index + offset) count vec (i - offset)
        (by omega) (heq ▸ hlane)
      rw [show w.index + offset + (i - offset) = w.index + i by omega] at hload
      rw [ByteBuffer.load_store_other (by omega), hload, heq]

theorem push (w : StoreWriter) {v : Nat} (hv : v < 256 ^ w.width) :
    Writes w (w.push v) [v] 1 :=
  put_move w (Nat.le_refl 1) fun _ _ => hv

theorem putRow (w : StoreWriter) {row : List Nat} {n : Nat} (hle : n ≤ row.length)
    (hrow : ∀ v ∈ row, v < 256 ^ w.width) :
    Writes w (w.putRow row n) (row.take n) row.length := by
  have hlanes : ∀ i < n, row.getD i 0 < 256 ^ w.width := by
    intro i hi
    rw [List.getD_eq_getElem _ _ (by omega)]
    exact hrow _ (List.getElem_mem _)
  have htake : (List.range n).map (fun i => row.getD i 0) = row.take n := by
    refine List.ext_getElem (by simp [hle]) fun i hi _ => ?_
    have hlt : i < n := by simpa using hi
    rw [List.getElem_map, List.getElem_range, List.getElem_take,
      List.getD_eq_getElem _ _ (by omega)]
  exact htake ▸ put_move w hle hlanes

theorem pushAll (w : StoreWriter) (us : List Nat) (hus : ∀ u ∈ us, u < 256 ^ w.width) :
    Writes w (w.pushAll us) us us.length := by
  induction us generalizing w with
  | nil => exact refl w
  | cons u us ih =>
      have hhead := push w (hus u List.mem_cons_self)
      have htail := ih (w.push u) fun v hv => hus v (List.mem_cons_of_mem u hv)
      exact (hhead.append htail).mono (by simp only [List.length_cons, List.length_nil]; omega)

/-- An element behind stores of rows is what they leave of it. -/
theorem load_rows {width index i v : Nat} {rows : List (Nat × List Nat)}
    (h : lastLane rows i = some v) (hv : v < 256 ^ width) (b : ByteBuffer) :
    (Store.replay (rows.map fun row =>
        ⟨width, index + row.1, row.2.length, fun i => row.2.getD i 0⟩) b).load width (index + i) =
      v := by
  induction rows using List.reverseRecOn with
  | nil => cases h
  | append_singleton rows row ih =>
      rw [lastLane, List.foldl_append] at h
      rw [List.map_append, Store.replay_append]
      simp only [List.foldl_cons, List.foldl_nil] at h
      show ByteBuffer.load (ByteBuffer.store _ width (index + row.1) row.2.length _) width
        (index + i) = v
      split at h
      · rename_i hinside
        obtain rfl := Option.some.inj h
        have hload := @ByteBuffer.load_store (Store.replay (rows.map fun row =>
          ⟨width, index + row.1, row.2.length, fun i => row.2.getD i 0⟩) b) width (index + row.1)
          row.2.length (fun i => row.2.getD i 0) (i - row.1) (by omega) hv
        rwa [show index + row.1 + (i - row.1) = index + i by omega] at hload
      · rename_i houtside
        rw [ByteBuffer.load_store_other (by omega)]
        exact ih h

/-- Rows of which some elements are kept. -/
theorem putRows (w : StoreWriter) {rows : List (Nat × List Nat)} {us : List Nat} {room : Nat}
    (hlanes : (List.range us.length).map (lastLane rows) = us.map some)
    (hus : ∀ u ∈ us, u < 256 ^ w.width)
    (hroom : ∀ row ∈ rows, row.1 + row.2.length ≤ room) :
    Writes w ((w.putRows rows).move us.length) us room := by
  refine ⟨rfl, rfl, _, rfl, fun s hs => ?_, fun b => ?_⟩
  · obtain ⟨row, hrow, rfl⟩ := List.mem_map.mp hs
    have hle := hroom row hrow
    exact ⟨rfl, Nat.le_add_right _ _, by dsimp only; omega⟩
  · refine List.ext_getElem (by simp) fun i hi hi' => ?_
    have hlane : lastLane rows i = some us[i] := by
      have hget := congrArg (fun lanes => lanes[i]?) hlanes
      simpa [hi'] using hget
    simp only [ByteBuffer.loadList, List.getElem_map, List.getElem_range]
    exact load_rows hlane (hus _ (List.getElem_mem hi')) b

end Writes

end StoreWriter

end SsrJson
