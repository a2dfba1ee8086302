import SsrJson.Decode.BytesSpec
import SsrJson.Library.Run

/-!
# The key cache over runs of the decoders

The decoders touch the cache only when they make a `str` object, and what they made is released
some time later. A run is any order of such events: object keys and other strings read anywhere in
any source, and references given up, as nested and interleaved calls of `loads` give rise to them.
-/

namespace SsrJson.Decode

open Spec

/-! ## The events -/

/-- A string under the cursor of a decoder for `str` sources, behind its opening quote. -/
structure StrRead where
  kind : StrKind
  src : Source
  fits : src.Fits kind
  cur : Nat
  inside : cur ≤ src.len

/-- A string under the cursor of the decoder for `bytes` sources, behind its opening quote. -/
structure BytesRead where
  src : Source
  isBytes : src.IsBytes
  cur : Nat
  inside : cur ≤ src.len

/-- A string a decoder reads. -/
inductive StringRead where
  | ofStr (read : StrRead)
  | ofBytes (read : BytesRead)

/-- The characters of the string, if there is one. -/
def StringRead.text : StringRead → Option (List Nat)
  | .ofStr read => (unescape .plain (read.src.rest read.cur)).map Prod.fst
  | .ofBytes read => (unescape .utf8 (read.src.rest read.cur)).map Prod.fst

/-- `decode_str` or `loads_bytes`, whatever the scratch buffer held before. -/
def StringRead.made (isa : Isa) (scratch : ByteBuffer) (isKey : Bool) : StringRead → Option Made
  | .ofStr read => (decodeStr isa read.kind read.src scratch isKey read.cur).1
  | .ofBytes read => (loadsBytes isa read.src scratch isKey read.cur).1

/-- What happens to the cache. `alloc` says whether an object can be created. -/
inductive CacheEvent where
  | read (string : StringRead) (scratch : ByteBuffer) (isKey alloc : Bool)
  | release (index : Nat)

/-- The cache, and the references to strings it handed out. -/
structure CacheState where
  keys : KeyState
  owned : List StrRef

section

variable (isa : Isa) (hash : List Nat → Nat)

/-- The object a decoder gets for a string. -/
def readString (string : StringRead) (scratch : ByteBuffer) (isKey alloc : Bool) (s : KeyState) :
    Option StrRef × KeyState :=
  match string.made isa scratch isKey with
  | none => (none, s)
  | some made => makeStr isa hash alloc made s

/-- One event; only a reference handed out can be given up. -/
def cacheStep : CacheEvent → CacheState → Option CacheState
  | .read string scratch isKey alloc, s =>
    let (key, keys) := readString isa hash string scratch isKey alloc s.keys
    some ⟨keys, key.toList ++ s.owned⟩
  | .release index, s =>
    match s.owned[index]? with
    | none => none
    | some key =>
      some ⟨{ s.keys with refs := s.keys.refs.release key.ref }, s.owned.eraseIdx index⟩

end

/-- No key was read yet. -/
def CacheState.start : CacheState := ⟨⟨fun _ => none, .empty⟩, []⟩

/-! ## What holds in every state -/

/-- The entries record the strings they hold, and every reference has one owner: a slot or whoever
the string was handed out to. -/
structure CacheState.Inv (s : CacheState) : Prop where
  sound : s.keys.Sound
  accounts : s.keys.refs.Accounts (s.keys.slotRefs ++ s.owned.map (·.ref))

theorem CacheState.start_inv : CacheState.start.Inv := by
  refine ⟨nofun, ?_⟩
  have hslots : CacheState.start.keys.slotRefs = [] := by
    simp [KeyState.slotRefs, CacheState.start]
  rw [hslots]
  exact .empty

variable {isa : Isa} {hash : List Nat → Nat} {string : StringRead} {scratch : ByteBuffer}
  {isKey alloc : Bool} {s : KeyState}

/-- The string made for a text is the one its characters give. -/
theorem StringRead.made_spec (string : StringRead) (scratch : ByteBuffer) (isKey : Bool) :
    ∀ made ∈ string.made isa scratch isKey,
      made.Faithful ∧ ∃ cs ∈ string.text, made.str = .ofChars cs := by
  intro made hmade
  cases string with
  | ofStr read =>
      have hspec := @decodeStr_spec isa _ _ read.fits scratch isKey _ read.inside
      simp only [StringRead.made] at hmade
      generalize decodeStr isa read.kind read.src scratch isKey read.cur = result at hmade hspec
      obtain ⟨_ | _, last⟩ := result
      · cases hmade
      · obtain rfl := Option.some.inj hmade
        obtain ⟨cs, hcs, hstr, hfaithful, -⟩ := hspec
        exact ⟨hfaithful, cs, by simp [StringRead.text, hcs], hstr⟩
  | ofBytes read =>
      have hspec := @loadsBytes_spec isa _ _ read.isBytes scratch isKey read.inside
      simp only [StringRead.made] at hmade
      generalize loadsBytes isa read.src scratch isKey read.cur = result at hmade hspec
      obtain ⟨_ | _, last⟩ := result
      · cases hmade
      · obtain rfl := Option.some.inj hmade
        obtain ⟨cs, hcs, hstr, hfaithful, -⟩ := hspec
        exact ⟨hfaithful, cs, by simp [StringRead.text, hcs], hstr⟩

/-- A sound cache hands out the string of the text and stays sound. -/
theorem readString_spec (hsound : s.Sound) :
    (readString isa hash string scratch isKey alloc s).2.Sound ∧
      ∀ key ∈ (readString isa hash string scratch isKey alloc s).1,
        ∃ cs ∈ string.text, key.str = .ofChars cs := by
  have hmade := @StringRead.made_spec isa string scratch isKey
  unfold readString
  cases hread : string.made isa scratch isKey with
  | none => exact ⟨hsound, nofun⟩
  | some made =>
      obtain ⟨hfaithful, cs, hcs, hstr⟩ := hmade made hread
      obtain ⟨hsound', hkey⟩ := @makeStr_spec isa hash alloc _ _ hsound hfaithful
      exact ⟨hsound', fun key hmem => ⟨cs, hcs, (hkey key hmem).trans hstr⟩⟩

theorem readString_accounts {owned : List Nat} (hrefs : s.refs.Accounts (s.slotRefs ++ owned)) :
    (readString isa hash string scratch isKey alloc s).2.refs.Accounts
      ((readString isa hash string scratch isKey alloc s).2.slotRefs ++
        ((readString isa hash string scratch isKey alloc s).1.toList.map (·.ref) ++ owned)) := by
  unfold readString
  cases string.made isa scratch isKey with
  | none => exact hrefs
  | some made =>
      have haccounts := @makeStr_accounts isa hash alloc made _ _ hrefs
      rw [← List.append_assoc]
      convert haccounts using 3
      cases (makeStr isa hash alloc made s).1 <;> rfl

/-- Every event keeps the cache sound and every reference owned once. -/
theorem cacheStep_inv (event : CacheEvent) (s next : CacheState)
    (hstep : cacheStep isa hash event s = some next) (hinv : s.Inv) : next.Inv := by
  cases event with
  | read string scratch isKey alloc =>
      obtain rfl := Option.some.inj hstep
      refine ⟨(readString_spec hinv.sound).1, ?_⟩
      rw [List.map_append]
      exact readString_accounts hinv.accounts
  | release index =>
      simp only [cacheStep] at hstep
      split at hstep
      · cases hstep
      · rename_i key hkey
        obtain rfl := Option.some.inj hstep
        obtain ⟨hlt, hget⟩ := List.getElem?_eq_some_iff.mp hkey
        refine ⟨hinv.sound, Ledger.Accounts.release (hinv.accounts.congr ?_)⟩
        have hperm : (s.owned.map (·.ref)).Perm
            (key.ref :: (s.owned.eraseIdx index).map (·.ref)) := by
          rw [← List.map_cons, ← hget]
          exact (List.getElem_cons_eraseIdx_perm hlt).symm.map _
        exact (hperm.append_left _).trans List.perm_middle

/-- After any run of the decoders every slot records the string it holds and owns one reference to
it, no reference is given up twice or lost, and the next string read, from the cache or not, is the
one built from its text. -/
theorem keys_built_from_text (isa : Isa) (hash : List Nat → Nat) (events : List CacheEvent)
    (s : CacheState) (hrun : exec (cacheStep isa hash) events .start = some s) :
    (∀ i, ∀ entry ∈ s.keys.slots i, entry.keyHint =
      makeKeyHint entry.key.str.data.length entry.key.str.kind.code) ∧
    s.keys.refs.Accounts (s.keys.slotRefs ++ s.owned.map (·.ref)) ∧
    ∀ string scratch isKey alloc, ∀ key ∈ (readString isa hash string scratch isKey alloc s.keys).1,
      ∃ cs ∈ string.text, key.str = .ofChars cs := by
  have hinv : s.Inv := exec_invariant cacheStep_inv hrun CacheState.start_inv
  refine ⟨fun i entry hentry => (hinv.sound i entry hentry).1, hinv.accounts, ?_⟩
  intro string scratch isKey alloc
  exact (readString_spec hinv.sound).2

/-- The key `a` read from a `str` and from a `bytes` source, and the first reference given up. -/
theorem keys_built_from_text_twice :
    let src := Source.ofUnits [0x61, 0x22]
    let ofStr : StringRead :=
      .ofStr ⟨.ascii, src, (by decide : ∀ u ∈ [0x61, 0x22], u ≤ 0x7F), 0, Nat.zero_le _⟩
    let ofBytes : StringRead :=
      .ofBytes ⟨src, Source.isBytes_ofUnits (by decide), 0, Nat.zero_le _⟩
    ∃ s, exec (cacheStep .sse fun _ => 0) [.read ofStr (fun _ => 0) true true,
        .read ofBytes (fun _ => 0) true true, .release 0] .start = some s ∧
      (∀ i, ∀ entry ∈ s.keys.slots i, entry.keyHint =
        makeKeyHint entry.key.str.data.length entry.key.str.kind.code) ∧
      s.keys.refs.Accounts (s.keys.slotRefs ++ s.owned.map (·.ref)) ∧
      ∀ string scratch isKey alloc,
        ∀ key ∈ (readString .sse (fun _ => 0) string scratch isKey alloc s.keys).1,
          ∃ cs ∈ string.text, key.str = .ofChars cs := by
  intro src ofStr ofBytes
  obtain ⟨s, hrun⟩ := Option.isSome_iff_exists.mp (show (exec (cacheStep .sse fun _ => 0)
    [.read ofStr (fun _ => 0) true true, .read ofBytes (fun _ => 0) true true, .release 0]
    .start).isSome = true by decide +kernel)
  exact ⟨s, hrun, keys_built_from_text .sse (fun _ => 0) _ s hrun⟩

end SsrJson.Decode
