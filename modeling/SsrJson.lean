import SsrJson.Decode.BufferIsolation
import SsrJson.Decode.StackCounts
import SsrJson.Decode.KeyCacheRuns
import SsrJson.Decode.BytesReference
import SsrJson.Decode.CanonicalKind
import SsrJson.Decode.StaleBytes
import SsrJson.Decode.StrBounds
import SsrJson.Decode.BytesReads
import SsrJson.Encode.LockProtocol
import SsrJson.Encode.Deadlock
import SsrJson.Encode.Mutation
import SsrJson.Encode.Reentry
import SsrJson.Output.Elevate
import SsrJson.Simd.Memcpy
import SsrJson.Ndarray.ReserveWrap
import SsrJson.Decode.BigExact
import SsrJson.Decode.FastPath
import SsrJson.Decode.LiteralRounding
import SsrJson.Decode.HookRuns
import SsrJson.Decode.LoadsExact
import SsrJson.RoundTrip
