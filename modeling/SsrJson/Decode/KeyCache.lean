import SsrJson.Decode.StrScan
import SsrJson.Library.Ledger

/-!
# The key cache

Object keys are looked up in a table of slots before a `str` is made for them. A slot is chosen by
a hash of the bytes of the key, and its entry is taken when the recorded length and kind match and
the bytes do.
-/

namespace SsrJson.Decode

/-- `SSRJSON_KEY_CACHE_SIZE`. -/
def keyCacheSize : Nat := 512

/-- What the cache is asked for: the bytes of a key in the kind its string has. -/
structure KeyLookup where
  bytes : List Nat
  kind : StrKind
  deriving DecidableEq, Repr

/-- A string that was read, and what the cache is asked for before an object is made for it. -/
structure Made where
  str : PyStr
  lookup : Option KeyLookup
  deriving DecidableEq, Repr

/-- A reference to a `str` object. -/
structure StrRef where
  ref : Nat
  str : PyStr
  deriving DecidableEq, Repr

/-- `decode_cache_t`. -/
structure CacheEntry where
  key : StrRef
  keyHint : Nat
  deriving DecidableEq, Repr

/-- The slots of the cache, and the references to `str` objects there are. -/
structure KeyState where
  slots : Fin keyCacheSize → Option CacheEntry
  refs : Ledger

/-! ## Comparing bytes -/

/-- Whether `memcmp` finds a difference. -/
def memcmpNeq (x y : Nat → Nat) (pos count : Nat) : Bool :=
  (List.range count).any fun i => x (pos + i) != y (pos + i)

/-- `__memcmp_neq_short` with one chunk size after the other. -/
def memcmpNeqShort (x y : Nat → Nat) : List Nat → (pos size : Nat) → Bool
  | [], _, _ => false
  | chunk :: chunks, pos, size =>
    if chunk ≤ size then
      memcmpNeq x y pos chunk || memcmpNeqShort x y chunks (pos + chunk) (size - chunk)
    else memcmpNeqShort x y chunks pos size

/-- `ssrjson_memcmp_neq_le64`. -/
def memcmpNeqLe64 (isa : Isa) (x y : Nat → Nat) (size : Nat) : Bool :=
  if isa = .avx512 ∧ size = 64 then memcmpNeq x y 0 64
  else if 32 ≤ size then
    memcmpNeq x y 0 32 ||
      if isa ≠ .avx512 ∧ size = 64 then memcmpNeq x y 32 32
      else memcmpNeqShort x y [16, 8, 4, 2, 1] 32 (size - 32)
  else memcmpNeqShort x y [16, 8, 4, 2, 1] 0 size

/-! ## The operations -/

/-- `make_key_hint`. -/
def makeKeyHint (realLen kind : Nat) : Nat := realLen ||| kind <<< 32

/-- `REHASHER`. -/
def rehasher (hash : Nat) : Fin keyCacheSize :=
  ⟨hash % keyCacheSize, Nat.mod_lt hash (by decide)⟩

/-- `Py_INCREF`, or the reference a new object comes with. -/
def KeyState.incref (s : KeyState) (str : PyStr) : StrRef × KeyState :=
  let (ref, refs) := s.refs.acquire
  (⟨ref, str⟩, { s with refs })

/-- `get_key_cache` before the `Py_INCREF`: the entry that matches, if there is one. -/
def getKeyCache (isa : Isa) (hash : Nat) (lookup : KeyLookup) (s : KeyState) : Option CacheEntry :=
  match s.slots (rehasher hash) with
  | none => none
  | some entry =>
    let size := lookup.bytes.length
    if makeKeyHint size lookup.kind.code = entry.keyHint ∧
        memcmpNeqLe64 isa (lookup.bytes.getD · 0) (entry.key.str.data.getD · 0) size = false then
      some entry
    else none

/-- `add_key_cache`. -/
def addKeyCache (hash : Nat) (lookup : KeyLookup) (str : PyStr) (s : KeyState) : KeyState :=
  let index := rehasher hash
  let s := match s.slots index with
    | none => s
    | some old => { s with refs := s.refs.release old.key.ref }
  let (key, s) := s.incref str
  { s with
    slots := Function.update s.slots index
      (some ⟨key, makeKeyHint lookup.bytes.length lookup.kind.code⟩) }

/-- Take the `str` object for a string from the cache, or make it and put it there. `hash` is
`XXH3_64bits`, and `alloc` says whether `create_empty_unicode` succeeds. -/
def makeStr (isa : Isa) (hash : List Nat → Nat) (alloc : Bool) (made : Made) (s : KeyState) :
    Option StrRef × KeyState :=
  match made.lookup with
  | none =>
    if alloc then
      let (key, s) := s.incref made.str
      (some key, s)
    else (none, s)
  | some lookup =>
    match getKeyCache isa (hash lookup.bytes) lookup s with
    | some entry =>
      let (key, s) := s.incref entry.key.str
      (some key, s)
    | none =>
      if alloc then
        let (key, s) := s.incref made.str
        (some key, addKeyCache (hash lookup.bytes) lookup made.str s)
      else (none, s)

end SsrJson.Decode
