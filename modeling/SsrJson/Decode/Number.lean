import Mathlib.Algebra.Group.Int.Defs
import Mathlib.Algebra.Group.Nat.Defs
import SsrJson.Decode.Pow10Table
import SsrJson.Decode.Tokens
import SsrJson.Library.Binary64

/-!
# The number reader

`loads_number` reads the digits of a literal into a significand of at most nineteen digits and a
decimal exponent; what is cut off is read again only when the result is too close to call. The
same source is compiled for units of one, two and four bytes.
-/

namespace SsrJson.Decode

/-! ## 64 bit arithmetic -/

/-- `U64_MAX`. -/
def u64Max : Nat := 2 ^ 64 - 1

/-- `u64_lz_bits`, for nonzero arguments. -/
def u64LzBits (v : Nat) : Nat := 63 - Nat.log2 v

/-- `u128_mul`: the upper and the lower half of a product. -/
def u128Mul (a b : Nat) : Nat × Nat := (a * b / 2 ^ 64, a * b % 2 ^ 64)

/-- `v << n` on 64 bits. -/
def shl64 (v n : Nat) : Nat := v <<< n % 2 ^ 64

/-- `a - b` on 64 bits. -/
def sub64 (a b : Nat) : Nat := (a + 2 ^ 64 - b) % 2 ^ 64

/-! ## Powers of ten -/

/-- `pow10_table_get_sig`. -/
def pow10TableGetSig (exp10 : Int) : Nat × Nat := pow10SigTable.getD (exp10 + 343).toNat (0, 0)

/-- `pow10_table_get_exp`. -/
def pow10TableGetExp (exp10 : Int) : Int := (exp10 * 217706 - 4128768) >>> (16 : Nat)

/-! ## Large integers -/

/-- `bigint`: the chunks in use, the lowest first. -/
abbrev Bigint := List Nat

namespace Bigint

/-- The loop of `bigint_add_u64` that carries one on. -/
def carryOne : List Nat → Bigint
  | [] => [1]
  | chunk :: chunks => if chunk ≠ u64Max then (chunk + 1) :: chunks else 0 :: carryOne chunks

/-- `bigint_add_u64`. -/
def addU64 (big : Bigint) (val : Nat) : Bigint :=
  match big with
  | [] => []
  | num :: chunks =>
    let add := (num + val) % 2 ^ 64
    if num ≤ add ∨ val ≤ add then add :: chunks else add :: carryOne chunks

/-- The loop of `bigint_mul_u64` behind the chunks that are zero. -/
def mulCarry (val : Nat) : (carry : Nat) → List Nat → Bigint
  | carry, [] => if carry ≠ 0 then [carry] else []
  | carry, chunk :: chunks =>
    (chunk * val + carry) % 2 ^ 64 :: mulCarry val ((chunk * val + carry) / 2 ^ 64) chunks

/-- `bigint_mul_u64`. -/
def mulU64 (val : Nat) : Bigint → Bigint
  | [] => []
  | chunk :: chunks => if chunk = 0 then 0 :: mulU64 val chunks else mulCarry val 0 (chunk :: chunks)

/-- The chunks shifted by less than a chunk; `prev` is the chunk below. -/
def shiftChunks (shft : Nat) : (prev : Nat) → List Nat → Bigint
  | prev, [] => let top := prev >>> (64 - shft); if 0 < top then [top] else []
  | prev, chunk :: chunks =>
    (shl64 chunk shft ||| prev >>> (64 - shft)) :: shiftChunks shft chunk chunks

/-- `bigint_mul_pow2`. -/
def mulPow2 (big : Bigint) (exp : Nat) : Bigint :=
  let shft := exp % 64
  let move := exp / 64
  List.replicate move 0 ++ if shft = 0 then big else shiftChunks shft 0 big

/-- `bigint_mul_pow10`, with one round of its loop for each unit of fuel. -/
def mulPow10 : (fuel : Nat) → Bigint → (exp : Nat) → Bigint
  | 0, big, _ => big
  | fuel + 1, big, exp =>
    if 19 ≤ exp then mulPow10 fuel (mulU64 (10 ^ 19) big) (exp - 19)
    else if exp ≠ 0 then mulU64 (10 ^ exp) big else big

/-- The loop of `bigint_cmp`, from the highest chunk down. -/
def cmpDown : List Nat → List Nat → Ordering
  | a :: as, b :: bs => if a < b then .lt else if b < a then .gt else cmpDown as bs
  | _, _ => .eq

/-- `bigint_cmp`. -/
def cmp (a b : Bigint) : Ordering :=
  if a.length < b.length then .lt
  else if b.length < a.length then .gt
  else cmpDown a.reverse b.reverse

end Bigint

/-! ## Conversion -/

/-- The digits read: the value is about `sig * 10 ^ exp`, and digits were cut off from `sigCut` on
if there were any but zeros. -/
structure Decimal where
  sig : Nat
  exp : Int
  sigCut : Option Nat
  sigEnd : Nat
  dotPos : Nat
  deriving DecidableEq, Repr

/-- The fast path with the table of powers of ten, for normal numbers. -/
def fastPath (sig : Nat) (exp : Int) : Option Nat :=
  let (sig2, sig2Ext) := pow10TableGetSig exp
  let exp2 := pow10TableGetExp exp
  let lz := u64LzBits sig
  let sig1 := shl64 sig lz
  let exp2 := exp2 - lz
  let (hi, lo) := u128Mul sig1 sig2
  let bits := hi &&& (2 ^ 9 - 1)
  let exact : Option Nat :=
    if sub64 bits 1 < 2 ^ 9 - 2 then some hi
    else
      let (hi2, _) := u128Mul sig1 sig2Ext
      let add := (lo + hi2) % 2 ^ 64
      if 1 < (add + 1) % 2 ^ 64 then
        some ((hi + if add < lo ∨ add < hi2 then 1 else 0) % 2 ^ 64)
      else none
  match exact with
  | none => none
  | some hi =>
    let lz := if hi < 2 ^ 63 then 1 else 0
    let hi := shl64 hi lz
    let exp2 := exp2 - lz + 64
    let hi := if hi &&& 2 ^ 10 ≠ 0 then (hi + 2 ^ 10) % 2 ^ 64 else hi
    let (hi, exp2) := if hi < 2 ^ 10 then (2 ^ 63, exp2 + 1) else (hi, exp2)
    let hi := hi >>> 11
    let exp2 := exp2 + 11 + 52 + 1023
    some (shl64 exp2.toNat 52 ||| hi &&& (2 ^ 52 - 1))

/-- `diy_fp`. -/
structure DiyFp where
  sig : Nat
  exp : Int
  deriving DecidableEq, Repr

/-- `diy_fp_get_cached_pow10`. -/
def diyFpGetCachedPow10 (exp10 : Int) : DiyFp :=
  let (sig, sigExt) := pow10TableGetSig exp10
  ⟨(sig + sigExt >>> 63) % 2 ^ 64, pow10TableGetExp exp10⟩

/-- `diy_fp_mul`. -/
def diyFpMul (fp fp2 : DiyFp) : DiyFp :=
  let (hi, lo) := u128Mul fp.sig fp2.sig
  ⟨(hi + lo >>> 63) % 2 ^ 64, fp.exp + fp2.exp + 64⟩

/-- Shift out the leading zeros. -/
def DiyFp.normalize (fp : DiyFp) : DiyFp :=
  ⟨shl64 fp.sig (u64LzBits fp.sig), fp.exp - u64LzBits fp.sig⟩

/-- `diy_fp_to_ieee_raw`. -/
def diyFpToIeeeRaw (fp : DiyFp) : Nat :=
  if fp.sig = 0 then 0
  else
    let lzBits := u64LzBits fp.sig
    let sig := shl64 fp.sig lzBits >>> 11
    let exp := fp.exp - lzBits + 11 + 52
    if 1024 ≤ exp then Binary64.infRaw
    else if -1021 - 1 ≤ exp then shl64 (exp + 1023).toNat 52 ||| sig &&& (2 ^ 52 - 1)
    else if -1021 - 53 ≤ exp then sig >>> (-1021 - exp - 1).toNat
    else 0

/-- What the approximation of the slow path gives: the bits of the right double or of the one below
it, and whether that is certain. -/
def diyApproximate (sig : Nat) (exp : Int) (cut : Bool) : Nat × Bool :=
  let fpErr := if cut then 4 else 0
  let fp : DiyFp := ⟨sig, 0⟩
  let fpErr := shl64 fpErr (u64LzBits fp.sig)
  let fp := diyFpMul fp.normalize (diyFpGetCachedPow10 exp)
  let fpErr := (fpErr + 4 + (if fpErr ≠ 0 then 1 else 0) + 4) % 2 ^ 64
  let fpErr := shl64 fpErr (u64LzBits fp.sig)
  let fp := fp.normalize
  let order := 64 + fp.exp
  let effective :=
    if -1074 + 53 ≤ order then 53 else if order ≤ -1074 then 0 else (order + 1074).toNat
  let digits := 64 - effective
  let (fp, fpErr, digits) :=
    if 64 ≤ digits + 3 then
      let shr := digits + 3 - 64 + 1
      ((⟨fp.sig >>> shr, fp.exp + shr⟩ : DiyFp), (fpErr >>> shr + 1 + 8) % 2 ^ 64, digits - shr)
    else (fp, fpErr, digits)
  let precision := (fp.sig &&& (2 ^ digits - 1)) * 8 % 2 ^ 64
  let half := shl64 1 (digits - 1) * 8 % 2 ^ 64
  let up := (half + fpErr) % 2 ^ 64 ≤ precision
  let fp : DiyFp :=
    ⟨(fp.sig >>> digits + if up then 1 else 0) % 2 ^ 64, fp.exp + digits⟩
  (diyFpToIeeeRaw fp, precision ≤ sub64 half fpErr ∨ up)

/-- The value halfway between the double with these bits and the next one. -/
def upperBoundary (raw : Nat) : DiyFp :=
  let (sig, exp) : Nat × Int :=
    if raw &&& 0x7FF0000000000000 ≠ 0 then
      ((raw &&& (2 ^ 52 - 1)) + 2 ^ 52, ((raw &&& 0x7FF0000000000000) >>> 52 : Nat))
    else (raw &&& (2 ^ 52 - 1), 1)
  ⟨shl64 sig 1 + 1, exp - (1023 + 52) - 1⟩

section Source

variable (src : Source)

/-- `(u64)(u - '0')`. -/
def digitNum (u : Nat) : Nat := sub64 u 0x30

/-- The loop of `bigint_set_buf`: `val` holds the last `len` digits. -/
def setBufLoop (sigEnd dotPos : Nat) (bigCut : Bool) :
    (fuel cur len val : Nat) → Bigint → Bigint
  | 0, _, _, _, big => big
  | fuel + 1, cur, len, val, big =>
    if sigEnd ≤ cur then big
    else if cur = dotPos then setBufLoop sigEnd dotPos bigCut fuel (cur + 1) len val big
    else
      let val := (val * 10 + digitNum (src.read cur)) % 2 ^ 64
      let cur := cur + 1
      let len := len + 1
      let val := if cur = sigEnd ∧ bigCut then val - val % 10 + 1 else val
      if len = 19 ∨ cur = sigEnd then
        setBufLoop sigEnd dotPos bigCut fuel cur 0 0 ((Bigint.mulPow10 1 big len).addU64 val)
      else setBufLoop sigEnd dotPos bigCut fuel cur len val big

/-- `bigint_set_buf`: the digits as a large integer, and its exponent. -/
def bigintSetBuf (d : Decimal) : Bigint × Int :=
  match d.sigCut with
  | none => ([d.sig], d.exp)
  | some sigCut =>
    let hasDot := sigCut < d.dotPos ∧ d.dotPos < d.sigEnd
    let total := (19 + (d.sigEnd - sigCut) % 2 ^ 32 - if hasDot then 1 else 0) % 2 ^ 32
    let sig := d.sig - if 0x35 ≤ src.read sigCut then 1 else 0
    let bigCut := 768 < total
    let sigEnd := if bigCut then d.sigEnd - (total - 769) else d.sigEnd
    let sigEnd := if bigCut ∧ d.dotPos + 1 = sigEnd then sigEnd - 1 else sigEnd
    let total := if bigCut then 769 else total
    (setBufLoop src sigEnd d.dotPos bigCut (sigEnd - sigCut) sigCut 0 0 [sig],
      d.exp - ((total : Int) - 19))

/-- Decide between the double with these bits and the next one. -/
def bigCompare (d : Decimal) (raw : Nat) : Nat :=
  let upper := upperBoundary raw
  let (bigFull, exp) := bigintSetBuf src d
  let bigComp : Bigint := [upper.sig]
  let (bigFull, bigComp) :=
    if 0 ≤ exp then (Bigint.mulPow10 (exp.toNat / 19 + 1) bigFull exp.toNat, bigComp)
    else (bigFull, Bigint.mulPow10 ((-exp).toNat / 19 + 1) bigComp (-exp).toNat)
  let (bigFull, bigComp) :=
    if 0 < upper.exp then (bigFull, bigComp.mulPow2 upper.exp.toNat)
    else (bigFull.mulPow2 (-upper.exp).toNat, bigComp)
  match bigFull.cmp bigComp with
  | .lt => raw
  | .gt => raw + 1
  | .eq => raw + raw % 2

/-- `digi_finish`: the bits of the double, without the sign. -/
def digiFinish (d : Decimal) : Nat :=
  let fast :=
    if d.sigCut = none ∧ -308 + 1 < d.exp ∧ d.exp < 308 - 20 then fastPath d.sig d.exp else none
  match fast with
  | some raw => raw
  | none =>
    let (raw, certain) := diyApproximate d.sig d.exp d.sigCut.isSome
    if raw = Binary64.infRaw ∨ certain then raw else bigCompare src d raw

/-! ## Digits -/

/-- `return_f64_bin`. -/
def f64Bin (sign : Bool) (raw : Nat) : Num := .float (.ofNat 64 (sign.toNat <<< 63 ||| raw))

/-- `return_i64`. -/
def i64Num (sign : Bool) (v : Nat) : Num :=
  let temp := if sign then sub64 0 v else v
  if 2 ^ 63 ≤ temp ∧ sign = false then .int temp
  else .int (if 2 ^ 63 ≤ temp then (temp : Int) - 2 ^ 64 else temp)

/-- `return_f64(normalized_u64_to_f64(v))`. -/
def u64AsF64 (sign : Bool) (v : Nat) : Num := f64Bin sign (Binary64.roundQuot v 1)

/-- `while (digi_is_digit(*cur)) cur++`. -/
def skipDigits : (fuel cur : Nat) → Nat
  | 0, cur => cur
  | fuel + 1, cur => if digiIsDigit (src.read cur) then skipDigits fuel (cur + 1) else cur

/-- `while (*cur == '0') cur++`. -/
def skipZeros : (fuel cur : Nat) → Nat
  | 0, cur => cur
  | fuel + 1, cur => if src.read cur = 0x30 then skipZeros fuel (cur + 1) else cur

/-- `while (*tmp == '0' || *tmp == '.') tmp--`. -/
def backOverZeros : (tmp : Nat) → Nat
  | 0 => 0
  | tmp + 1 =>
    if src.read (tmp + 1) = 0x30 ∨ src.read (tmp + 1) = 0x2E then backOverZeros tmp else tmp + 1

/-- `expr_intg` and `expr_frac`: at most `left` more digits from `cur` on. -/
def readDigits : (left cur sig : Nat) → Nat × Nat
  | 0, cur, sig => (cur, sig)
  | left + 1, cur, sig =>
    let num := digitNum (src.read cur)
    if num ≤ 9 then readDigits left (cur + 1) ((num + sig * 10) % 2 ^ 64) else (cur, sig)

/-- `while (digi_is_digit(*cur)) exp_lit = ...`: the digits of the exponent. -/
def readExpLit : (fuel cur lit : Nat) → Nat × Nat
  | 0, cur, lit => (cur, lit)
  | fuel + 1, cur, lit =>
    if digiIsDigit (src.read cur) then
      readExpLit fuel (cur + 1) ((digitNum (src.read cur) + lit * 10) % 2 ^ 64)
    else (cur, lit)

/-- How reading the digits ends: with a number, or with an error. -/
abbrev NumberEnd := Option (Num × Nat)

/-- `digi_exp_finish`. -/
def digiExpFinish (sign : Bool) (d : Decimal) (cur : Nat) : NumberEnd :=
  if d.exp < -324 - 19 then some (f64Bin sign 0, cur)
  else if 308 < d.exp then some (f64Bin sign Binary64.infRaw, cur)
  else some (f64Bin sign (digiFinish src d), cur)

/-- `digi_exp_more`, at the letter. -/
def digiExpMore (sign : Bool) (d : Decimal) (cur : Nat) : NumberEnd :=
  let cur := cur + 1
  let expSign := src.read cur = 0x2D
  let cur := if digiIsSign (src.read cur) then cur + 1 else cur
  if digiIsDigit (src.read cur) = false then none
  else
    let tmp := skipZeros src (src.len + 1) cur
    let (cur, expLit) := readExpLit src (src.len + 1) tmp 0
    if 19 ≤ cur - tmp then
      if expSign then some (f64Bin sign 0, cur) else some (f64Bin sign Binary64.infRaw, cur)
    else digiExpFinish src sign { d with exp := if expSign then d.exp - expLit else d.exp + expLit } cur

/-- `digi_frac_end`. -/
def digiFracEnd (sign : Bool) (sig dotPos cur : Nat) : NumberEnd :=
  if dotPos + 1 = cur then none
  else
    let d : Decimal := ⟨sig, -((cur - dotPos - 1 : Nat) : Int), none, cur, dotPos⟩
    if digiIsExp (src.read cur) then digiExpMore src sign d cur
    else if d.exp < -324 - 19 then some (f64Bin sign 0, cur)
    else some (f64Bin sign (digiFinish src d), cur)

/-- `digi_frac_more` behind its loops over digits; `sigCut` is where they began. -/
def digiFracMoreEnd (sign : Bool) (sig sigCut dotPos cur : Nat) : NumberEnd :=
  let exp : Int := (dotPos : Int) - sigCut + if dotPos < sigCut then 1 else 0
  let cut := if backOverZeros src (cur - 1) < sigCut then none else some sigCut
  let d : Decimal := ⟨sig, exp, cut, cur, dotPos⟩
  if digiIsExp (src.read cur) then digiExpMore src sign d cur else digiExpFinish src sign d cur

/-- `digi_frac_more`. -/
def digiFracMore (sign : Bool) (sig : Nat) (dotPos : Option Nat) (sigCut : Nat) : NumberEnd :=
  let sig := (sig + if 0x35 ≤ src.read sigCut then 1 else 0) % 2 ^ 64
  let cur := skipDigits src (src.len + 1) (sigCut + 1)
  match dotPos with
  | some dotPos => digiFracMoreEnd src sign sig sigCut dotPos cur
  | none =>
    if src.read cur = 0x2E then
      if digiIsDigit (src.read (cur + 1)) = false then none
      else digiFracMoreEnd src sign sig sigCut cur (skipDigits src (src.len + 1) (cur + 1))
    else digiFracMoreEnd src sign sig sigCut cur cur

/-- `digi_frac_i`: read on behind the dot until there are nineteen digits. -/
def digiFrac (sign : Bool) (sig dotPos left cur : Nat) : NumberEnd :=
  let (next, sig) := readDigits src left cur sig
  if next < cur + left then digiFracEnd src sign sig dotPos next
  else if digiIsDigit (src.read next) then digiFracMore src sign sig (some dotPos) next
  else digiFracEnd src sign sig dotPos next

/-- `digi_intg_more`: nineteen digits were read and more of the number follows. -/
def digiIntgMore (sign : Bool) (sig cur : Nat) : NumberEnd :=
  let c := src.read cur
  let num := digitNum c
  if digiIsDigit c ∧ digiIsDigitOrFp (src.read (cur + 1)) = false ∧
      (sig < u64Max / 10 ∨ sig = u64Max / 10 ∧ num ≤ u64Max % 10) then
    let sig := num + sig * 10
    some (if sign then u64AsF64 true sig else .int sig, cur + 1)
  else if digiIsExp c then digiExpMore src sign ⟨sig, 0, none, 0, cur⟩ cur
  else if c = 0x2E then
    if digiIsDigit (src.read (cur + 1)) = false then none
    else digiFracMore src sign sig (some cur) (cur + 1)
  else digiFracMore src sign sig none cur

/-- The part for literals whose first digit is not zero. -/
def digiNonzero (sign : Bool) (cur : Nat) : NumberEnd :=
  let (next, sig) := readDigits src 18 (cur + 1) (digitNum (src.read cur))
  let c := src.read next
  if next < cur + 19 then
    if digiIsFp c = false then some (i64Num sign sig, next)
    else if c = 0x2E then digiFrac src sign sig next (cur + 19 - next) (next + 1)
    else digiExpMore src sign ⟨sig, 0, none, next, next⟩ next
  else if digiIsDigitOrFp c = false then
    some (if sign ∧ 2 ^ 63 < sig then u64AsF64 true sig else i64Num sign sig, next)
  else digiIntgMore src sign sig next

/-- What may stand behind a leading zero and its fraction. -/
def digiZeroEnd (sign : Bool) (cur : Nat) : NumberEnd :=
  if digiIsDigit (src.read cur) then none
  else if digiIsExp (src.read cur) then
    let cur := if digiIsSign (src.read (cur + 1)) then cur + 2 else cur + 1
    if digiIsDigit (src.read cur) = false then none
    else some (f64Bin sign 0, skipDigits src (src.len + 1) (cur + 1))
  else some (f64Bin sign 0, cur)

/-- The part for literals whose first digit is zero. -/
def digiZero (sign : Bool) (cur : Nat) : NumberEnd :=
  let cur := cur + 1
  if digiIsDigitOrFp (src.read cur) = false then some (.int 0, cur)
  else if src.read cur = 0x2E then
    let dotPos := cur
    let cur := cur + 1
    if digiIsDigit (src.read cur) = false then none
    else
      let cur := skipZeros src (src.len + 1) cur
      if digiIsDigit (src.read cur) then
        digiFrac src sign (digitNum (src.read cur)) dotPos 18 (cur + 1)
      else digiZeroEnd src sign cur
  else digiZeroEnd src sign cur

/-- `loads_number`. An error leaves the cursor where it was. -/
def loadsNumber (hdr : Nat) : Option Num × Nat :=
  let sign := src.read hdr = 0x2D
  let cur := if sign then hdr + 1 else hdr
  let result : NumberEnd :=
    if digiIsNonzero (src.read cur) then digiNonzero src sign cur
    else if src.read cur = 0x30 then digiZero src sign cur
    else
      match loadsInfOrNan src sign cur with
      | (some num, cur) => some (num, cur)
      | (none, _) => none
  match result with
  | some (num, cur) => (some num, cur)
  | none => (none, hdr)

end Source

end SsrJson.Decode
