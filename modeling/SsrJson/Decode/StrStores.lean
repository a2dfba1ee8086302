import SsrJson.Decode.StrWriterLemmas
import SsrJson.Library.AccessLog
import Mathlib.Algebra.Group.Nat.Defs

/-!
# The stores of the string decoders

`decode_str_with_escape` stores whole registers where it keeps a few characters. This module lists
the stores of every round with their places: `copyNextStores` and its parts give those that go with
`copyNext`, and `decodeStrWithEscapeStores` those of a whole string, also where it turns out
malformed. Carrying out the stores listed gives the scratch buffer of the decoder
(`decodeStrCopy_replay`). A string without escapes is stored only where it is a short key that is
narrowed for the cache; these stores begin in front of the head of the buffer (`cacheKeyStores`).
-/

namespace SsrJson.Decode

/-! ## The buffer -/

/-- `_TailPadding`. -/
def tailPadding : Nat := 512 / 8

/-- `SSRJSON_STRING_BUFFER_SIZE`. -/
def stringBufferSize : Nat := 512 * 1024

/-- `size_align_up`. -/
def sizeAlignUp (size align : Nat) : Nat := (size + align - 1) / align * align

/-- `check_and_reserve_str_buffer`: the number of bytes from the head it hands out to the end of
the buffer, which is one of its own for a long source and `decoder_ctx_temp_buffer` otherwise. -/
def checkAndReserveStrBuffer (len : Nat) : Option Nat :=
  if (2 ^ 63 - 1 - tailPadding * 2) / 4 < len then none
  else
    let newBufferSize := 4 * len + 2 * tailPadding
    some ((if stringBufferSize < newBufferSize then newBufferSize else stringBufferSize) -
      tailPadding)

/-! ## One round -/

/-- The store that `put` carries out. -/
def Writer.storeAt (w : Writer) (offset count : Nat) (lanes : Nat → Nat) : Store :=
  ⟨w.level, w.pos + offset, count, lanes⟩

section Source

variable (isa : Isa) (kind : StrKind) (src : Source)

/-- The stores of `copyLoop`. -/
def copyLoopStores (cur count : Nat) (w : Writer) : List Store :=
  let batch := readBatchCount isa kind
  (List.range count).map fun i => w.storeAt (i * batch) batch (loadVec src (cur + i * batch))

/-- The stores of `avx2TrailingSameSize`. -/
def avx2TrailingSameSizeStores (cur : Nat) (w : Writer) : List Store :=
  let half := readBatchCount isa kind / 2
  let len := src.len - cur
  let shift := if len < half then half - len else 0
  let offset := if len < half then 0 else len - half
  let head := Vec.rshift half (fun i => src.readBack (cur + i) shift) shift
  let tail := fun i => src.readBack (src.len + i) half
  [w.storeAt offset half tail, w.storeAt 0 half head]

/-- The stores of `avx2TrailingWiden`. -/
def avx2TrailingWidenStores (cur : Nat) (w : Writer) : List Store :=
  let half := readBatchCount isa kind / 2
  let t1 := fun i => src.readBack (src.len + i) half
  let s1 := if src.len < cur + half then Vec.rshift half t1 (cur + half - src.len)
    else loadVec src cur
  let s2 := if src.len < cur + half then t1 else Vec.rshift half t1 (cur + 2 * half - src.len)
  [w.storeAt 0 half s1, w.storeAt half half s2]

/-- The stores of `copyTrailing`. -/
def copyTrailingStores (cur : Nat) (w : Writer) : List Store :=
  if isa = .avx2 then
    if w.level = kind.size then avx2TrailingSameSizeStores isa kind src cur w
    else avx2TrailingWidenStores isa kind src cur w
  else [w.storeAt 0 (readBatchCount isa kind) (trailingVec isa kind src cur)]

/-- The stores of `copyNext`. -/
def copyNextStores (cur : Nat) (w : Writer) : List Store :=
  let batch := readBatchCount isa kind
  if cur + 4 * batch ≤ src.len then copyLoopStores isa kind src cur 4 w
  else if cur + batch ≤ src.len then copyLoopStores isa kind src cur 1 w
  else copyTrailingStores isa kind src cur w

/-- The store of `processEscape`. -/
def escapeStore (w : Writer) (val : Nat) : Store := (w.promote val).storeAt 0 1 fun _ => val

/-- The stores of `startWriter`. -/
def startStores (start cur val : Nat) : List Store :=
  [⟨startLevel kind val, 0, cur - start, loadVec src start⟩,
    ⟨startLevel kind val, cur - start, 1, fun _ => val⟩]

/-! ## All rounds -/

/-- The stores of `decodeStrCopy`, in the rounds that fail too. -/
def decodeStrCopyStores : (fuel cur : Nat) → Writer → Vec → List Store
  | 0, _, _, _ => []
  | fuel + 1, cur, w, maxvec =>
    if src.len ≤ cur then []
    else
      let scan := scanNext isa kind src true cur maxvec
      let stores := copyNextStores isa kind src cur w
      let w := (copyNext isa kind src cur w).advance scan.doneCount
      match scan.state with
      | .continue => stores ++ decodeStrCopyStores fuel scan.cur w scan.maxvec
      | .escape val size =>
        stores ++ escapeStore w val ::
          decodeStrCopyStores fuel (scan.cur + size) (processEscape kind w val) scan.maxvec
      | .end | .invalid => stores

/-- The stores of `decodeStrWithEscape`. -/
def decodeStrWithEscapeStores (scratch : ByteBuffer) (start cur val size : Nat) (maxvec : Vec) :
    List Store :=
  startStores kind src start cur val ++
    decodeStrCopyStores isa kind src (src.len + 1) (cur + size)
      (startWriter kind src scratch start cur val) maxvec

/-! ## Keys for the cache -/

/-- How the functions `cvt_to_dst_*` narrow a unit to some bytes: a unit that fits stays, another
one is cut or saturated, which differs between instruction sets. -/
structure Narrowing where
  narrow : (width u : Nat) → Nat
  keeps : ∀ width u, u < 256 ^ width → narrow width u = u

/-- Units are cut. -/
def Narrowing.cut : Narrowing where
  narrow := fun width u => u % 256 ^ width
  keeps := fun _ _ h => Nat.mod_eq_of_lt h

variable (narrowing : Narrowing)

/-- The stores of `get_cache_key_hash_and_size` where units are narrowed: steps of 16 or 8 units up
to the end of the key, so that the first one begins in front of the key and in front of the head.
Without registers of 256 bits a step is made in two halves. -/
def cacheKeyStores (tpsize start count : Nat) : List HeadStore :=
  let step := if kind = .ucs2 then 16 else 8
  let lanes := if isa = .sse then step / 2 else step
  let tempCount := sizeAlignUp count step
  let more := tempCount - count
  (List.range (tempCount / lanes)).map fun i =>
    ⟨tpsize, (i * lanes : Nat) - (more : Int), lanes,
      fun j => narrowing.narrow tpsize (src.readBack (start + (i * lanes + j)) more)⟩

/-- `need_size_cvt` of `make_unicode_from_src`. -/
def needSizeCvt (maxvec : Vec) : Bool :=
  match kind with
  | .ascii | .ucs1 => false
  | .ucs2 => Vec.checkmax (readBatchCount isa .ucs2) maxvec 0xFF
  | .ucs4 => Vec.checkmax (readBatchCount isa .ucs4) maxvec 0xFFFF

/-- The stores of `makeUnicodeFromSrc`: there are some where a short key is narrowed. -/
def makeUnicodeFromSrcStores (isKey : Bool) (start count : Nat) (maxvec : Vec) : List HeadStore :=
  let tpsize := (kindFromSrc isa kind maxvec).size
  if isKey && count * tpsize ≤ 64 && needSizeCvt isa kind maxvec then
    cacheKeyStores isa kind src narrowing tpsize start count
  else []

/-- The stores of `decodeStr` around the head of the scratch buffer. -/
def decodeStrStores (scratch : ByteBuffer) (isKey : Bool) (cur : Nat) : List HeadStore :=
  match decodeStrFast isa kind src isKey (src.len + 1) cur Vec.setzero with
  | (.done, last, maxvec) =>
    makeUnicodeFromSrcStores isa kind src narrowing isKey cur (last - cur) maxvec
  | (.escape val size, last, maxvec) =>
    (decodeStrWithEscapeStores isa kind src scratch cur last val size maxvec).map HeadStore.ofStore
  | (.failed, _, _) => []

end Source

/-! ## The stores make the buffer -/

section Replay

open Store

variable {isa : Isa} {kind : StrKind} {src : Source} {cur : Nat}

/-- Two stores one behind the other. -/
theorem put_put (w : Writer) (o c o' c' : Nat) (lanes lanes' : Nat → Nat) :
    (w.put o c lanes).put o' c' lanes' =
      { w with buffer := replay [w.storeAt o c lanes, w.storeAt o' c' lanes'] w.buffer } :=
  rfl

theorem copyLoop_replay (count : Nat) (w : Writer) : copyLoop isa kind src cur count w =
    { w with buffer := replay (copyLoopStores isa kind src cur count w) w.buffer } := by
  induction count with
  | zero => rfl
  | succ count ih =>
      have hloop : copyLoop isa kind src cur (count + 1) w =
          (copyLoop isa kind src cur count w).put (count * readBatchCount isa kind)
            (readBatchCount isa kind) (loadVec src (cur + count * readBatchCount isa kind)) := by
        simp only [copyLoop, List.range_succ, List.foldl_append, List.foldl_cons, List.foldl_nil]
      have hstores : copyLoopStores isa kind src cur (count + 1) w =
          copyLoopStores isa kind src cur count w ++ [w.storeAt (count * readBatchCount isa kind)
            (readBatchCount isa kind) (loadVec src (cur + count * readBatchCount isa kind))] := by
        simp only [copyLoopStores, List.range_succ, List.map_append, List.map_cons, List.map_nil]
      rw [hloop, hstores, replay_append, ih]
      rfl

theorem copyTrailing_replay (w : Writer) : copyTrailing isa kind src cur w =
    { w with buffer := replay (copyTrailingStores isa kind src cur w) w.buffer } := by
  unfold copyTrailing copyTrailingStores
  split
  · split
    · exact put_put w _ _ _ _ _ _
    · exact put_put w _ _ _ _ _ _
  · rfl

theorem copyNext_replay (w : Writer) : copyNext isa kind src cur w =
    { w with buffer := replay (copyNextStores isa kind src cur w) w.buffer } := by
  unfold copyNext copyNextStores
  dsimp only
  split
  · exact copyLoop_replay 4 w
  split
  · exact copyLoop_replay 1 w
  · exact copyTrailing_replay w

theorem advance_buffer (w : Writer) (count : Nat) : (w.advance count).buffer = w.buffer := by
  unfold Writer.advance
  split
  · rfl
  split <;> rfl

theorem advance_pos (w : Writer) (count : Nat) : (w.advance count).pos = w.pos + count := by
  unfold Writer.advance Writer.pos
  split
  · dsimp only
    omega
  split <;> · dsimp only; omega

theorem promote_same (w : Writer) (val : Nat) :
    w.promote val = { w with level := (w.promote val).level } := by
  unfold Writer.promote
  split_ifs <;> rfl

theorem push_buffer (w : Writer) (val : Nat) :
    (w.push val).buffer = apply w.buffer (w.storeAt 0 1 fun _ => val) :=
  advance_buffer _ _

/-- The store behind `promote` is the same whatever is recorded beside the buffer. -/
theorem promote_push_buffer {w w' : Writer} (val : Nat) (hlevel : w'.level = w.level)
    (hpos : w'.pos = w.pos) (hbuffer : w'.buffer = w.buffer) :
    ((w'.promote val).push val).buffer = apply w.buffer (escapeStore w val) := by
  have hsame : (w'.promote val).level = (w.promote val).level := by
    rw [Writer.promote_level, Writer.promote_level, hlevel]
  rw [push_buffer, escapeStore, Writer.storeAt, Writer.storeAt, hsame, promote_same, promote_same w]
  show apply w'.buffer ⟨_, w'.pos + 0, 1, _⟩ = _
  rw [hbuffer, hpos]
  rfl

theorem processEscape_replay (w : Writer) (val : Nat) :
    (processEscape kind w val).buffer = apply w.buffer (escapeStore w val) := by
  unfold processEscape
  split
  · exact promote_push_buffer val rfl rfl rfl
  · exact promote_push_buffer val rfl rfl rfl

theorem startWriter_replay (scratch : ByteBuffer) (start last val : Nat) :
    (startWriter kind src scratch start last val).buffer =
      replay (startStores kind src start last val) scratch := by
  have hpos : ∀ w : Writer, w.pos = 0 → (w.advance (last - start)).pos = last - start := by
    intro w hw
    rw [advance_pos, hw, Nat.zero_add]
  unfold startWriter
  rw [push_buffer, Writer.storeAt, hpos _ rfl, advance_buffer, Writer.advance_level]
  rfl

/-- The scratch buffer a string is made from is the one the stores listed leave. -/
theorem decodeStrCopy_replay {fuel : Nat} {w w' : Writer} {maxvec maxvec' : Vec} {last : Nat}
    (h : decodeStrCopy isa kind src fuel cur w maxvec = (some (w', maxvec'), last)) :
    w'.buffer = replay (decodeStrCopyStores isa kind src fuel cur w maxvec) w.buffer := by
  induction fuel generalizing cur w maxvec with
  | zero => simp [decodeStrCopy] at h
  | succ fuel ih =>
      unfold decodeStrCopy at h
      unfold decodeStrCopyStores
      split at h
      · simp at h
      rename_i hlt
      rw [if_neg hlt]
      dsimp only at h ⊢
      have hcopied : ((copyNext isa kind src cur w).advance
          (scanNext isa kind src true cur maxvec).doneCount).buffer =
          replay (copyNextStores isa kind src cur w) w.buffer := by
        rw [advance_buffer, copyNext_replay]
      cases hstate : (scanNext isa kind src true cur maxvec).state with
      | «continue» =>
          rw [hstate] at h
          rw [replay_append, ← hcopied]
          exact ih h
      | «end» =>
          rw [hstate] at h
          simp only [Prod.mk.injEq, Option.some.injEq] at h
          rw [← h.1.1]
          exact hcopied
      | escape val size =>
          rw [hstate] at h
          rw [replay_append, ← hcopied]
          show _ = replay _ (apply _ _)
          rw [← processEscape_replay]
          exact ih h
      | invalid =>
          rw [hstate] at h
          simp at h

end Replay

/-! ## The narrowed key is at the head -/

section CacheKey

variable {isa : Isa} {kind : StrKind} {src : Source} {narrowing : Narrowing}

/-- The steps end where the key does. -/
theorem cacheKey_steps (isa : Isa) {step : Nat} (hstep : step = 16 ∨ step = 8) (count : Nat) :
    count ≤ sizeAlignUp count step ∧ sizeAlignUp count step < count + step ∧
      sizeAlignUp count step / (if isa = .sse then step / 2 else step) *
        (if isa = .sse then step / 2 else step) = sizeAlignUp count step := by
  unfold sizeAlignUp
  rcases hstep with rfl | rfl <;> split <;> omega

/-- Behind the stores the head of the buffer has the units of the key, in as many bytes each as the
string takes, whatever the block held. -/
theorem cacheKeyStores_units {tpsize start count head : Nat} (hhead : 16 ≤ head)
    (hunits : ∀ i < count, src.read (start + i) < 256 ^ tpsize) (block : ByteBuffer) :
    (Store.replay ((cacheKeyStores isa kind src narrowing tpsize start count).map
      (HeadStore.inBlock head)) block).loadList tpsize head count = src.slice start count := by
  unfold cacheKeyStores
  dsimp only
  have hstep : (if kind = .ucs2 then 16 else 8) = 16 ∨ (if kind = .ucs2 then 16 else 8) = 8 := by
    split
    · exact .inl rfl
    · exact .inr rfl
  generalize (if kind = .ucs2 then 16 else 8) = step at hstep
  obtain ⟨hle, hlt, hsteps⟩ := cacheKey_steps isa hstep count
  generalize (if isa = .sse then step / 2 else step) = lanes at hsteps ⊢
  generalize sizeAlignUp count step = tempCount at hle hlt hsteps ⊢
  obtain ⟨more, rfl⟩ := Nat.exists_eq_add_of_le hle
  rw [Nat.add_sub_cancel_left, List.map_map]
  have htiles : (HeadStore.inBlock head ∘ fun i => (⟨tpsize, ((i * lanes : Nat) : Int) - (more : Int),
      lanes, fun j => narrowing.narrow tpsize (src.readBack (start + (i * lanes + j)) more)⟩ :
        HeadStore)) = fun i => ⟨tpsize, (head - more) + i * lanes, lanes, fun j =>
          narrowing.narrow tpsize (src.readBack (start + (i * lanes + j)) more)⟩ := by
    funext i
    have hplace : ((head : Int) + (((i * lanes : Nat) : Int) - (more : Int))).toNat =
        (head - more) + i * lanes := by omega
    simp only [Function.comp_apply, HeadStore.inBlock, hplace]
  rw [htiles]
  refine List.map_congr_left fun k hk => ?_
  show _ = src.read (start + k)
  have hk : k < count := List.mem_range.mp hk
  have hread : src.readBack (start + (k + more)) more = src.read (start + k) := by
    unfold Source.readBack
    rw [if_pos (by omega), show start + (k + more) - more = start + k by omega]
  have hnarrow := narrowing.keeps tpsize _ (hunits k hk)
  have hload := @load_tiles tpsize (head - more) lanes ((count + more) / lanes) (k + more)
    (fun q => narrowing.narrow tpsize (src.readBack (start + q) more)) (by omega)
    (by simpa only [hread, hnarrow] using hunits k hk) block
  rw [show head - more + (k + more) = head + k by omega] at hload
  simpa only [hread, hnarrow] using hload

/-- A narrowed key goes in steps of sixteen bytes at most. -/
theorem needSizeCvt_step {maxvec : Vec} (h : needSizeCvt isa kind maxvec = true) :
    (if kind = .ucs2 then 16 else 8) = 16 ∧ (kindFromSrc isa kind maxvec).size = 1 ∨
      (if kind = .ucs2 then 16 else 8) = 8 ∧ ((kindFromSrc isa kind maxvec).size = 1 ∨
        (kindFromSrc isa kind maxvec).size = 2) := by
  unfold kindFromSrc
  cases kind with
  | ascii => cases h
  | ucs1 => cases h
  | ucs2 =>
      have hfits : Vec.checkmax (readBatchCount isa .ucs2) maxvec 0xFF = true := h
      refine .inl ⟨rfl, ?_⟩
      dsimp only
      rw [if_pos hfits]
      split <;> rfl
  | ucs4 =>
      have hfits : Vec.checkmax (readBatchCount isa .ucs4) maxvec 0xFFFF = true := h
      refine .inr ⟨rfl, ?_⟩
      dsimp only
      rw [if_pos hfits]
      split
      · exact .inl rfl
      · split
        · exact .inl rfl
        · exact .inr rfl

/-- The stores begin less than sixteen bytes in front of the head and end with the key. -/
theorem makeUnicodeFromSrcStores_within (isKey : Bool) (start count : Nat) (maxvec : Vec)
    {capacity : Nat} (hcap : tailPadding ≤ capacity) :
    ∀ s ∈ makeUnicodeFromSrcStores isa kind src narrowing isKey start count maxvec,
      s.Within tailPadding capacity := by
  have hpad : tailPadding = 64 := rfl
  intro s hs
  unfold makeUnicodeFromSrcStores at hs
  dsimp only at hs
  split at hs
  · rename_i hstored
    simp only [Bool.and_eq_true, decide_eq_true_eq] at hstored
    obtain ⟨⟨-, hshort⟩, hneeds⟩ := hstored
    have hstep := needSizeCvt_step hneeds
    generalize (kindFromSrc isa kind maxvec).size = tpsize at hshort hstep hs
    unfold cacheKeyStores at hs
    dsimp only at hs
    generalize (if kind = .ucs2 then 16 else 8) = step at hstep hs
    obtain ⟨hle, hlt, hsteps⟩ := cacheKey_steps isa (hstep.imp And.left And.left) count
    generalize (if isa = .sse then step / 2 else step) = lanes at hsteps hs
    generalize sizeAlignUp count step = tempCount at hle hlt hsteps hs
    obtain ⟨i, hi, rfl⟩ := List.mem_map.mp hs
    have hi : (i + 1) * lanes ≤ tempCount := by
      rw [← hsteps]
      exact Nat.mul_le_mul_right lanes (List.mem_range.mp hi)
    rw [Nat.succ_mul] at hi
    unfold HeadStore.Within
    dsimp only
    generalize i * lanes = place at hi
    rcases hstep with ⟨rfl, rfl⟩ | ⟨rfl, rfl | rfl⟩ <;> omega
  · cases hs

end CacheKey

end SsrJson.Decode
