import SsrJson.Decode.BytesStr
import SsrJson.Decode.Number
import SsrJson.Decode.Root

/-!
# The readers the root functions are compiled with

The root functions exist for every kind of `str` and for `bytes`, each in a pretty and a minified
variant. They share the machine of `Root.step`; what differs is collected in `rootReaders`.
-/

namespace SsrJson.Decode

/-- What the text to load is stored as. -/
inductive SourceKind where
  | str (kind : StrKind)
  | bytes
  deriving DecidableEq, Repr

/-- The kind of `str` with units as wide. -/
def SourceKind.units : SourceKind → StrKind
  | .str kind => kind
  | .bytes => .ucs1

/-- The functions a root function calls. `scratch` is what the string buffer holds at first. -/
def rootReaders (isa : Isa) (scratch : ByteBuffer) (kind : SourceKind) (pretty : Bool) :
    Readers where
  pretty := pretty
  match2 :=
    match kind with
    | .str _ => cmpeq2Chars
    | .bytes => byteMatch2
  fastSkipSpaces src cur := fastSkipSpaces src (readBatchCount isa kind.units) cur
  loadsNumber := loadsNumber
  loadsString isKey src cur :=
    match kind with
    | .str kind => decodeStr isa kind src scratch isKey (cur + 1)
    | .bytes => loadsBytes isa src scratch isKey (cur + 1)

end SsrJson.Decode
