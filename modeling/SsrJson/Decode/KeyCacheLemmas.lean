import SsrJson.Decode.KeyCache
import Mathlib.Data.Fintype.Basic
import Mathlib.Data.Nat.Bitwise

/-!
# What the key cache gives back

A key taken from the cache is the string that would have been made: equal hints mean equal lengths
and kinds, and equal bytes of one kind are equal strings. Every slot owns one reference to its
string.
-/

namespace SsrJson.Decode

/-! ## Bytes of strings -/

theorem leBytes_length (width value : Nat) : (leBytes width value).length = width := by
  simp [leBytes]

theorem flatMap_leBytes_length (width : Nat) (units : List Nat) :
    (units.flatMap (leBytes width)).length = units.length * width := by
  induction units with
  | nil => simp
  | cons u units ih =>
      rw [List.flatMap_cons, List.length_append, ih, leBytes_length, List.length_cons,
        Nat.succ_mul, Nat.add_comm]

/-- Bytes stand for themselves. -/
theorem flatMap_leBytes_one {units : List Nat} (h : ∀ u ∈ units, u < 0x100) :
    units.flatMap (leBytes 1) = units := by
  induction units with
  | nil => rfl
  | cons u units ih =>
      obtain ⟨hu, htail⟩ := List.forall_mem_cons.mp h
      rw [List.flatMap_cons, ih htail]
      simp [leBytes, Nat.mod_eq_of_lt hu]

/-- The bytes of a number determine it. -/
theorem leBytes_injective {width a b : Nat} (ha : a < 256 ^ width) (hb : b < 256 ^ width)
    (h : leBytes width a = leBytes width b) : a = b := by
  induction width generalizing a b with
  | zero => omega
  | succ width ih =>
      have hsplit : ∀ v, leBytes (width + 1) v = v % 256 :: leBytes width (v / 256) := by
        intro v
        simp [leBytes, List.range_succ_eq_map, Function.comp_def, Nat.pow_succ',
          Nat.div_div_eq_div_mul]
      rw [hsplit, hsplit, List.cons.injEq] at h
      rw [Nat.pow_succ'] at ha hb
      have hdiv := ih (Nat.div_lt_of_lt_mul ha) (Nat.div_lt_of_lt_mul hb) h.2
      omega

/-- The characters of a string fit its kind. -/
def Fitting (str : PyStr) : Prop := ∀ c ∈ str.chars, c < 256 ^ str.kind.size

/-- Strings of one kind with the same bytes are the same. -/
theorem data_injective {str str' : PyStr} (hfit : Fitting str) (hfit' : Fitting str')
    (hkind : str.kind = str'.kind) (hdata : str.data = str'.data) : str = str' := by
  obtain ⟨kind, chars⟩ := str
  obtain ⟨kind', chars'⟩ := str'
  dsimp only at hkind
  subst hkind
  congr 1
  simp only [Fitting, PyStr.data] at hfit hfit' hdata
  have hlen := congrArg List.length hdata
  have hsize : 0 < kind.size := by cases kind <;> decide
  rw [flatMap_leBytes_length, flatMap_leBytes_length] at hlen
  replace hlen := Nat.eq_of_mul_eq_mul_right hsize hlen
  induction chars generalizing chars' with
  | nil => exact (List.length_eq_zero_iff.mp hlen.symm).symm
  | cons c chars ih =>
      cases chars' with
      | nil => cases hlen
      | cons c' chars' =>
          obtain ⟨hc, htail⟩ := List.forall_mem_cons.mp hfit
          obtain ⟨hc', htail'⟩ := List.forall_mem_cons.mp hfit'
          rw [List.flatMap_cons, List.flatMap_cons] at hdata
          obtain ⟨hhead, hrest⟩ := List.append_inj hdata (by simp [leBytes_length])
          rw [leBytes_injective hc hc' hhead, ih htail chars' htail' hrest (Nat.succ.inj hlen)]

/-! ## Comparing bytes -/

theorem memcmpNeq_eq_false {x y : Nat → Nat} {pos count : Nat} :
    memcmpNeq x y pos count = false ↔ ∀ i < count, x (pos + i) = y (pos + i) := by
  simp [memcmpNeq]

/-- Equality on two stretches, one behind the other. -/
theorem forall_lt_split {x y : Nat → Nat} {pos n m : Nat} :
    (∀ i < n + m, x (pos + i) = y (pos + i)) ↔
      (∀ i < n, x (pos + i) = y (pos + i)) ∧ ∀ i < m, x (pos + n + i) = y (pos + n + i) := by
  constructor
  · refine fun h => ⟨fun i hi => h i (by omega), fun i hi => ?_⟩
    rw [Nat.add_assoc]
    exact h (n + i) (by omega)
  · rintro ⟨h₁, h₂⟩ i hi
    by_cases hin : i < n
    · exact h₁ i hin
    · have := h₂ (i - n) (by omega)
      rwa [show pos + n + (i - n) = pos + i by omega] at this

/-- Chunks that halve cover every size below twice the first one. -/
theorem memcmpNeqShort_eq_false {x y : Nat → Nat} (k : Nat) {pos size : Nat} (h : size < 2 ^ k) :
    memcmpNeqShort x y ((List.range k).reverse.map (2 ^ ·)) pos size = false ↔
      ∀ i < size, x (pos + i) = y (pos + i) := by
  induction k generalizing pos size with
  | zero =>
      obtain rfl : size = 0 := by simpa using h
      simp [memcmpNeqShort]
  | succ k ih =>
      rw [List.range_succ, List.reverse_append, List.reverse_singleton, List.singleton_append,
        List.map_cons, memcmpNeqShort]
      rw [Nat.pow_succ] at h
      split
      · rename_i hle
        rw [Bool.or_eq_false_iff, memcmpNeq_eq_false, ih (by omega), ← forall_lt_split,
          Nat.add_sub_cancel' hle]
      · exact ih (by omega)

/-- The comparison finds every difference. -/
theorem memcmpNeqLe64_eq_false {isa : Isa} {x y : Nat → Nat} {size : Nat} (h : size ≤ 64) :
    memcmpNeqLe64 isa x y size = false ↔ ∀ i < size, x i = y i := by
  have hshort : ∀ {pos size}, size < 32 →
      (memcmpNeqShort x y [16, 8, 4, 2, 1] pos size = false ↔
        ∀ i < size, x (pos + i) = y (pos + i)) := fun hlt => memcmpNeqShort_eq_false 5 hlt
  have hzero : ∀ {n}, (∀ i < n, x i = y i) ↔ ∀ i < n, x (0 + i) = y (0 + i) := by
    simp
  unfold memcmpNeqLe64
  rw [hzero]
  split
  · rename_i hwide
    rw [memcmpNeq_eq_false, hwide.2]
  split
  · rename_i hwide hlong
    rw [Bool.or_eq_false_iff, memcmpNeq_eq_false]
    split
    · rename_i hfull
      rw [memcmpNeq_eq_false, hfull.2, show 64 = 32 + 32 from rfl, forall_lt_split, Nat.zero_add]
    · rename_i hpart
      have hlt : size ≠ 64 := by
        rintro rfl
        by_cases hisa : isa = .avx512
        · exact hwide ⟨hisa, rfl⟩
        · exact hpart ⟨hisa, rfl⟩
      rw [hshort (by omega)]
      have hsplit := @forall_lt_split x y 0 32 (size - 32)
      rw [Nat.add_sub_cancel' hlong, Nat.zero_add] at hsplit
      exact hsplit.symm
  · exact hshort (by omega)

/-- Two hints agree only for the same length and kind. -/
theorem makeKeyHint_injective {len len' kind kind' : Nat} (hlen : len < 2 ^ 32)
    (hlen' : len' < 2 ^ 32) (h : makeKeyHint len kind = makeKeyHint len' kind') :
    len = len' ∧ kind = kind' := by
  unfold makeKeyHint at h
  rw [Nat.or_comm, ← Nat.shiftLeft_add_eq_or_of_lt hlen, Nat.or_comm,
    ← Nat.shiftLeft_add_eq_or_of_lt hlen', Nat.shiftLeft_eq, Nat.shiftLeft_eq] at h
  omega

theorem code_injective {kind kind' : StrKind} (h : kind.code = kind'.code) : kind = kind' := by
  cases kind <;> cases kind' <;> first | rfl | cases h

/-! ## The operations -/

/-- The cache is asked for the bytes of the very string that would be made. -/
structure KeyLookup.Of (lookup : KeyLookup) (str : PyStr) : Prop where
  bytes : lookup.bytes = str.data
  kind : lookup.kind = str.kind
  short : lookup.bytes.length ≤ 64
  fitting : Fitting str

/-- Whatever the cache is asked for is the string that would be made. -/
def Made.Faithful (made : Made) : Prop := ∀ lookup ∈ made.lookup, lookup.Of made.str

/-- Every entry records the length and kind of the string it holds. -/
def KeyState.Sound (s : KeyState) : Prop :=
  ∀ i, ∀ entry ∈ s.slots i, entry.keyHint =
      makeKeyHint entry.key.str.data.length entry.key.str.kind.code ∧
    entry.key.str.data.length ≤ 64 ∧ Fitting entry.key.str

variable {isa : Isa} {hash : List Nat → Nat} {alloc : Bool} {made : Made} {s : KeyState}

/-- An entry that is returned holds the string asked for. -/
theorem getKeyCache_str {h : Nat} {lookup : KeyLookup} {str : PyStr} {entry : CacheEntry}
    (hsound : s.Sound) (hof : lookup.Of str) (hget : getKeyCache isa h lookup s = some entry) :
    entry.key.str = str := by
  unfold getKeyCache at hget
  cases hslot : s.slots (rehasher h) with
  | none => simp [hslot] at hget
  | some old =>
      simp only [hslot, Option.ite_none_right_eq_some, Option.some.injEq] at hget
      obtain ⟨⟨hhint, hbytes⟩, rfl⟩ := hget
      obtain ⟨hold, hshort, hfit⟩ := hsound _ _ hslot
      rw [hold] at hhint
      obtain ⟨hlen, hcode⟩ := makeKeyHint_injective (by have := hof.short; omega) (by omega) hhint
      have hkind := hof.kind ▸ code_injective hcode
      refine (data_injective hof.fitting hfit hkind ?_).symm
      rw [memcmpNeqLe64_eq_false hof.short] at hbytes
      rw [← hof.bytes]
      refine List.ext_getElem hlen fun i h₁ h₂ => ?_
      have := hbytes i h₁
      rwa [List.getD_eq_getElem _ _ h₁, List.getD_eq_getElem _ _ h₂] at this

/-- A new entry keeps the cache sound. -/
theorem addKeyCache_sound {h : Nat} {lookup : KeyLookup} {str : PyStr} (hsound : s.Sound)
    (hof : lookup.Of str) : (addKeyCache h lookup str s).Sound := by
  intro i entry hentry
  unfold addKeyCache KeyState.incref at hentry
  dsimp only at hentry
  by_cases hi : i = rehasher h
  · subst hi
    rw [Function.update_self] at hentry
    obtain rfl := Option.some.inj hentry
    dsimp only
    rw [← hof.bytes, ← hof.kind]
    exact ⟨rfl, hof.short, hof.fitting⟩
  · rw [Function.update_of_ne hi] at hentry
    refine hsound i entry ?_
    split at hentry <;> exact hentry

/-- The key returned is the one that would be made, and the cache stays sound. -/
theorem makeStr_spec (hsound : s.Sound) (hfaithful : made.Faithful) :
    (makeStr isa hash alloc made s).2.Sound ∧
      ∀ key ∈ (makeStr isa hash alloc made s).1, key.str = made.str := by
  unfold makeStr
  cases hlookup : made.lookup with
  | none =>
      cases alloc with
      | false => exact ⟨hsound, nofun⟩
      | true =>
          refine ⟨hsound, fun key hkey => ?_⟩
          obtain rfl := Option.some.inj hkey
          rfl
  | some lookup =>
      have hof := hfaithful lookup hlookup
      dsimp only
      cases hget : getKeyCache isa (hash lookup.bytes) lookup s with
      | some entry =>
          refine ⟨hsound, fun key hkey => ?_⟩
          obtain rfl := Option.some.inj hkey
          exact getKeyCache_str hsound hof hget
      | none =>
          cases alloc with
          | false => exact ⟨hsound, nofun⟩
          | true =>
              refine ⟨addKeyCache_sound hsound hof, fun key hkey => ?_⟩
              obtain rfl := Option.some.inj hkey
              rfl

/-! ## References -/

/-- The references the slots own. -/
def KeyState.slotRefs (s : KeyState) : List Nat :=
  (List.finRange keyCacheSize).filterMap fun i => (s.slots i).map (·.key.ref)

/-- The references the slots other than `i` own. -/
def KeyState.otherRefs (s : KeyState) (i : Fin keyCacheSize) : List Nat :=
  ((List.finRange keyCacheSize).erase i).filterMap fun j => (s.slots j).map (·.key.ref)

/-- The reference a slot owns stands beside those of the others. -/
theorem slotRefs_perm (s : KeyState) (i : Fin keyCacheSize) :
    s.slotRefs.Perm (((s.slots i).map (·.key.ref)).toList ++ s.otherRefs i) := by
  have hperm := (List.perm_cons_erase (List.mem_finRange i)).filterMap
    fun j => (s.slots j).map (·.key.ref)
  refine hperm.trans ?_
  rw [List.filterMap_cons, KeyState.otherRefs]
  generalize (List.finRange keyCacheSize).erase i = others
  cases s.slots i with
  | none => exact .refl _
  | some entry => exact .refl _

theorem otherRefs_congr {s' : KeyState} {i : Fin keyCacheSize}
    (h : ∀ j, j ≠ i → s'.slots j = s.slots j) : s'.otherRefs i = s.otherRefs i := by
  refine List.filterMap_congr fun j hj => ?_
  rw [h j (List.nodup_finRange _ |>.mem_erase_iff.mp hj).1]

/-- A new entry takes over from the old one: each slot still owns one reference. -/
theorem addKeyCache_accounts {h : Nat} {lookup : KeyLookup} {str : PyStr} {owned : List Nat}
    (hrefs : s.refs.Accounts (s.slotRefs ++ owned)) :
    (addKeyCache h lookup str s).refs.Accounts ((addKeyCache h lookup str s).slotRefs ++ owned) := by
  have hother : (addKeyCache h lookup str s).otherRefs (rehasher h) = s.otherRefs (rehasher h) := by
    refine otherRefs_congr fun j hj => ?_
    unfold addKeyCache KeyState.incref
    dsimp only
    rw [Function.update_of_ne hj]
    split <;> rfl
  have hslots := hrefs.congr ((slotRefs_perm s (rehasher h)).append_right owned)
  have hnew := slotRefs_perm (addKeyCache h lookup str s) (rehasher h)
  rw [hother] at hnew
  refine Ledger.Accounts.congr ?_ (hnew.append_right owned).symm
  unfold addKeyCache KeyState.incref
  simp only [Function.update_self]
  cases hslot : s.slots (rehasher h) with
  | none =>
      rw [hslot] at hslots
      exact hslots.acquire
  | some old =>
      rw [hslot] at hslots
      exact (Ledger.Accounts.release hslots).acquire

/-- The caller gets one reference to the key, and each slot still owns one to its string. -/
theorem makeStr_accounts {owned : List Nat} (hrefs : s.refs.Accounts (s.slotRefs ++ owned)) :
    (makeStr isa hash alloc made s).2.refs.Accounts ((makeStr isa hash alloc made s).2.slotRefs ++
      ((makeStr isa hash alloc made s).1.map (·.ref)).toList ++ owned) := by
  have hincref : ∀ str, (s.incref str).2.refs.Accounts
      ((s.incref str).2.slotRefs ++ [(s.incref str).1.ref] ++ owned) := by
    intro str
    refine hrefs.acquire.congr ?_
    rw [List.append_assoc]
    exact List.perm_middle.symm
  have hnone : s.refs.Accounts (s.slotRefs ++ [] ++ owned) := by
    rwa [List.append_nil]
  unfold makeStr
  cases made.lookup with
  | none =>
      cases alloc with
      | false => exact hnone
      | true => exact hincref made.str
  | some lookup =>
      dsimp only
      cases getKeyCache isa (hash lookup.bytes) lookup s with
      | some entry => exact hincref entry.key.str
      | none =>
          cases alloc with
          | false => exact hnone
          | true =>
              have hmade := hincref made.str
              rw [List.append_assoc] at hmade
              have hadd := @addKeyCache_accounts _ (hash lookup.bytes) lookup made.str _ hmade
              rwa [← List.append_assoc] at hadd

end SsrJson.Decode
