import SsrJson.Decode.BytesSpec
import SsrJson.Decode.NumberToken
import SsrJson.Decode.RootReaders
import SsrJson.Decode.RootSim
import SsrJson.Decode.StrCopySpec

/-!
# The readers of every source

Every set of readers a root function is compiled with reads the tokens of the grammar, so the root
function reads documents: `SourceKind.code` is how characters stand in the source.
-/

namespace SsrJson.Decode

open Spec

/-- How characters stand in a source. -/
def SourceKind.code : SourceKind → CharCode
  | .str _ => .plain
  | .bytes => .utf8

/-- The memory a source of a kind may be. -/
def SourceKind.Holds (src : Source) : SourceKind → Prop
  | .str kind => src.Fits kind
  | .bytes => src.IsBytes

variable {src : Source} {kind : SourceKind} {isa : Isa} {scratch : ByteBuffer} {pretty : Bool}

theorem Source.IsBytes.units32 (h : src.IsBytes) : src.Units32 := by
  intro u hu
  obtain ⟨i, hi, rfl⟩ := List.mem_iff_getElem.mp hu
  have hread := h i
  rw [Source.read_of_lt hi] at hread
  exact hread.trans (by decide)

theorem SourceKind.Holds.units32 (h : kind.Holds src) : src.Units32 := by
  cases kind with
  | str kind =>
      intro u hu
      have hle : kind.maxChar ≤ 0x10FFFF := by
        cases kind <;> decide
      exact ((h u hu).trans hle).trans_lt (by decide)
  | bytes => exact Source.IsBytes.units32 h

/-- The strings of every source are read as the plain reader does. -/
theorem rootReaders_string (h : kind.Holds src) (isKey : Bool) {cur : Nat} (hlt : cur < src.len) :
    StrSpec kind.code src (cur + 1) ((rootReaders isa scratch kind pretty).loadsString isKey src cur) := by
  cases kind with
  | str kind => exact decodeStr_spec h scratch isKey hlt
  | bytes => exact loadsBytes_spec h scratch isKey hlt

/-- A reader of strings reads string tokens. -/
theorem StrSpec.token {code : CharCode} {cur : Nat} {result : Option Made × Nat}
    (h : StrSpec code src (cur + 1) result) (hlt : cur < src.len) (hquote : src.read cur = 0x22) :
    TokenSpec (StringToken code.enc) (fun _ => True) src cur (strToken result) := by
  have hrest : src.rest cur = 0x22 :: src.rest (cur + 1) := by
    rw [Source.rest_of_lt hlt, hquote]
  obtain ⟨_ | made, last⟩ := result
  · refine ⟨fun a ha => absurd ha.symm (Option.some_ne_none _), fun _ str r htoken _ => ?_⟩
    rw [hrest] at htoken
    cases htoken with
    | mk hchars =>
        rw [chars_iff_unescape, show unescape code (src.rest (cur + 1)) = none from h] at hchars
        cases hchars
  · obtain ⟨cs, hcs, hstr, -, hlast⟩ := h
    refine ⟨fun a ha => ?_, fun hnone => absurd hnone (Option.some_ne_none _)⟩
    obtain rfl := Option.some.inj ha
    have hchars := chars_iff_unescape.mpr hcs
    obtain ⟨t, ht, -⟩ := hchars.text
    have hlen := congrArg List.length ht
    rw [List.length_append, List.length_cons, Source.length_rest, Source.length_rest] at hlen
    refine ⟨show cur < last by omega, hlast, ?_, fun str r htoken _ => ?_⟩
    · show StringToken _ _ made.str (src.rest last)
      rw [hrest, hstr]
      exact .mk hchars
    · rw [hrest] at htoken
      cases htoken with
      | mk hchars' =>
          rw [chars_iff_unescape, hcs, Option.some.injEq, Prod.mk.injEq] at hchars'
          obtain ⟨rfl, rfl⟩ := hchars'
          exact ⟨hstr.symm, rfl⟩

/-- The readers of every source meet what the root functions rely on. -/
theorem rootReaders_spec (h : kind.Holds src) :
    ReadersSpec (rootReaders isa scratch kind pretty) kind.code.enc numVal src where
  match2 cur a b hle ha hb hmatch := by
    cases kind with
    | str kind => exact cmpeq2Chars_rest hle ha hb hmatch
    | bytes => exact byteMatch2_rest hle ha hb hmatch
  skip cur hle := fastSkipSpaces_skips _ hle
  number cur hle _ := loadsNumber_token h.units32 hle
  numberBound cur hle := loadsNumber_bound h.units32 hle
  string key cur hle hquote :=
    (rootReaders_string h key (Source.lt_of_read hle (by omega))).token
      (Source.lt_of_read hle (by omega)) hquote

end SsrJson.Decode
