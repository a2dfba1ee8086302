import SsrJson.Decode.KeyCacheRuns

/-!
# The kind of the strings read

A `str` equals another one only in its canonical kind. Every string a decoder hands out, read from
any source on any path, made anew or found in the key cache, has the kind its own characters need.
What stands behind the closing quote, or makes the source itself a wider `str`, has no part in it.
-/

namespace SsrJson.Decode

open Spec

/-! ## The text of a string -/

/-- How characters stand in the source of a string. -/
def StringRead.code : StringRead → CharCode
  | .ofStr _ => .plain
  | .ofBytes _ => .utf8

/-- What is left of the source behind the opening quote. -/
def StringRead.rest : StringRead → List Nat
  | .ofStr read => read.src.rest read.cur
  | .ofBytes read => read.src.rest read.cur

theorem StringRead.text_eq (string : StringRead) :
    string.text = (unescape string.code string.rest).map Prod.fst := by
  cases string <;> rfl

/-! ## Strings handed out -/

/-- The units up to the closing quote decide which string is handed out. -/
theorem readString_text {isa : Isa} {hash : List Nat → Nat} {keys : KeyState} {string : StringRead}
    {scratch : ByteBuffer} {isKey alloc : Bool} (hsound : keys.Sound) {key : StrRef}
    (hkey : key ∈ (readString isa hash string scratch isKey alloc keys).1) :
    ∃ cs t, key.str = .ofChars cs ∧ (∃ r, string.rest = t ++ 0x22 :: r) ∧
      ∀ r, unescape string.code (t ++ 0x22 :: r) = some (cs, r) := by
  obtain ⟨cs, hcs, hstr⟩ := (readString_spec hsound).2 key hkey
  rw [StringRead.text_eq, Option.mem_def, Option.map_eq_some_iff] at hcs
  obtain ⟨⟨_, r⟩, hread, rfl⟩ := hcs
  obtain ⟨t, ht, hall⟩ := (chars_iff_unescape.mpr hread).text
  exact ⟨_, t, hstr, ⟨r, ht⟩, fun r' => chars_iff_unescape.mp (hall r')⟩

/-- Whatever the decoders did before, a string they hand out has the kind its own characters need,
and any other string spelled the same is the same `str`, whatever stands behind it and whatever
kind its source has. -/
theorem strings_canonical (isa : Isa) (hash : List Nat → Nat) (events : List CacheEvent)
    (s : CacheState) (hrun : exec (cacheStep isa hash) events .start = some s)
    (string : StringRead) (scratch : ByteBuffer) (isKey alloc : Bool) (key : StrRef)
    (hkey : key ∈ (readString isa hash string scratch isKey alloc s.keys).1) :
    key.str.kind = .ofChar (maxChar key.str.chars) ∧
    ∃ t r, string.rest = t ++ 0x22 :: r ∧
      unescape string.code (t ++ [0x22]) = some (key.str.chars, []) ∧
      ∀ string' scratch' isKey' alloc', string'.code = string.code →
        (∃ r', string'.rest = t ++ 0x22 :: r') →
        ∀ key' ∈ (readString isa hash string' scratch' isKey' alloc' s.keys).1,
          key'.str = key.str := by
  have hinv : s.Inv := exec_invariant cacheStep_inv hrun CacheState.start_inv
  obtain ⟨cs, t, hstr, ⟨r, hrest⟩, hread⟩ := readString_text hinv.sound hkey
  rw [hstr]
  refine ⟨rfl, t, r, hrest, hread [], ?_⟩
  intro string' scratch' isKey' alloc' hcode ⟨r', hrest'⟩ key' hkey'
  obtain ⟨cs', hcs', hstr'⟩ := (readString_spec hinv.sound).2 key' hkey'
  have htext : string'.text = some cs := by
    rw [StringRead.text_eq, hcode, hrest', hread r']
    rfl
  rw [htext, Option.mem_def, Option.some.injEq] at hcs'
  rw [hstr', ← hcs']

/-- `é` read from a `str` that a later character makes a wide one. -/
theorem strings_canonical_wide :
    let string : StringRead := .ofStr ⟨.ucs4, .ofUnits [0xE9, 0x22, 0x1F600],
      (by decide : ∀ u ∈ [0xE9, 0x22, 0x1F600], u ≤ 0x10FFFF), 0, Nat.zero_le _⟩
    let result := readString .sse (fun _ => 0) string (fun _ => 0) true true CacheState.start.keys
    ∃ key ∈ result.1, key.str.kind = .ofChar (maxChar key.str.chars) ∧
      ∃ t r, string.rest = t ++ 0x22 :: r ∧
        unescape string.code (t ++ [0x22]) = some (key.str.chars, []) ∧
        ∀ string' scratch' isKey' alloc', string'.code = string.code →
          (∃ r', string'.rest = t ++ 0x22 :: r') →
          ∀ key' ∈ (readString .sse (fun _ => 0) string' scratch' isKey' alloc'
            CacheState.start.keys).1, key'.str = key.str := by
  intro string result
  obtain ⟨key, hkey⟩ := Option.isSome_iff_exists.mp (show result.1.isSome = true by decide +kernel)
  exact ⟨key, hkey, strings_canonical .sse (fun _ => 0) [] .start rfl string (fun _ => 0) true true
    key hkey⟩

end SsrJson.Decode
