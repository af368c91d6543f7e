import RiskRail.Javascript.Hex
import RiskRail.Javascript.Map
import RiskRail.Javascript.NumberText

/-!
# Signatures of deliveries

`signPayload` and `verifySignature` of the sender, on `node:crypto`, and
`verifyWebhookSignature` of the SDK, on WebCrypto.  Both compute the same HMAC-SHA256, which
stays a parameter; they read the header each in its own way.
-/

namespace RiskRail.Webhooks

open RiskRail.Javascript Text RiskRail.Numeric

/-- An HMAC-SHA256. -/
structure Mac where
  bytes : List UInt8
  length_eq : bytes.length = 32
deriving DecidableEq

/-- The milliseconds of a date, as `Date.now()` gives them. -/
structure TimeValue where
  ms : ℤ
  inRange : |ms| ≤ 8640000000000000

/-- `Math.floor(Date.now() / 1000)`. -/
def TimeValue.seconds (clock : TimeValue) : ℤ :=
  clock.ms / 1000

/-- The default replay window of both sides. -/
def defaultToleranceSeconds : ℚ :=
  300

/-- The timestamp is more than the tolerance away from the clock. -/
def outOfTolerance (clock : TimeValue) (timestamp toleranceSeconds : ℚ) : Bool :=
  toleranceSeconds < |toDouble (clock.seconds - timestamp)|

/-- What is signed. -/
def material (timestamp : ℚ) (body : Text) : Text :=
  numberText timestamp ++ 0x2E :: body

section

variable (hmac : Text → Text → Mac)

/-! ## The sender -/

/-- Stripe-style signature header: `t=<unix>,v1=<hex hmac>`. -/
def signPayload (body secret : Text) (timestamp : ℚ) : Text :=
  ofString "t=" ++ numberText timestamp ++ ofString ",v1=" ++
    hexText (hmac secret (material timestamp body)).bytes

/-- Name and value of a pair: its first two parts. -/
def nodePair (pair : Text) : Text × Text :=
  let parts := pair.splitOn 0x3D
  (trim (parts[0]?.getD []), trim (parts[1]?.getD []))

/-- The parts of a header as the Node verifier splits it. -/
def nodeParts (header : Text) : OrderedMap Text Text :=
  .ofWrites ((header.splitOn 0x2C).map nodePair)

/-- Rejects signatures older than `toleranceSeconds`. -/
def verifySignature (clock : TimeValue) (body header secret : Text) (toleranceSeconds : ℚ) :
    Bool :=
  let parts := nodeParts header
  match (parts.get (ofString "t")).bind finiteNumber, parts.get (ofString "v1") with
  | some timestamp, some v1 =>
      if v1 = [] then false
      else if outOfTolerance clock timestamp toleranceSeconds then false
      else
        let expected := (hmac secret (material timestamp body)).bytes
        let given := bufferFromHex v1
        expected.length == given.length && expected == given
  | _, _ => false

/-! ## The SDK -/

/-- Name and value of a pair: what is in front of the first equals sign and behind it. -/
def sdkPair (pair : Text) : Option (Text × Text) :=
  (pair.idxOf? 0x3D).map fun index => (trim (pair.take index), trim (pair.drop (index + 1)))

/-- The parts of a header as the SDK splits it. -/
def sdkParts (header : Text) : OrderedMap Text Text :=
  .ofWrites ((header.splitOn 0x2C).filterMap sdkPair)

/-- A timestamp and a signature. -/
structure ParsedSignature where
  timestamp : ℚ
  signature : Text

/-- The timestamp and the signature of a header that has both. -/
def parseSignatureHeader (header : Text) : Option ParsedSignature :=
  let parts := sdkParts header
  match (parts.get (ofString "t")).bind finiteNumber, parts.get (ofString "v1") with
  | some timestamp, some signature =>
      if signature = [] then none else some { timestamp, signature }
  | _, _ => none

/-- Length-independent, and constant time for equal lengths. -/
def timingSafeEqual (a b : List UInt8) : Bool :=
  if a.length ≠ b.length then false
  else (List.zipWith (fun x y => x ^^^ y) a b).foldl (fun diff byte => diff ||| byte) 0 == 0

/-- WebCrypto takes no key without bytes. -/
def importAndSign (secret material : Text) : Except String Mac :=
  if secret = [] then .error "Zero-length key is not supported" else .ok (hmac secret material)

/-- True when `header` is a valid signature over `rawBody` for `secret`. -/
def verifyWebhookSignature (clock : TimeValue) (rawBody header secret : Text)
    (toleranceSeconds : ℚ) : Except String Bool :=
  if header = [] then .ok false
  else
    match parseSignatureHeader header with
    | none => .ok false
    | some parsed =>
        if 0 < toleranceSeconds ∧ outOfTolerance clock parsed.timestamp toleranceSeconds then
          .ok false
        else
          match hexToBytes parsed.signature with
          | none => .ok false
          | some given => do
              let expected ← importAndSign hmac secret (material parsed.timestamp rawBody)
              return timingSafeEqual expected.bytes given

end

theorem foldl_or_eq_zero_iff {bytes : List UInt8} {diff : UInt8} :
    bytes.foldl (fun diff byte => diff ||| byte) diff = 0 ↔
      diff = 0 ∧ ∀ byte ∈ bytes, byte = 0 := by
  induction bytes generalizing diff with
  | nil => simp
  | cons byte rest ih => simp [ih, and_assoc]

theorem zipWith_xor_eq_zero_iff {a b : List UInt8} (length : a.length = b.length) :
    (∀ byte ∈ List.zipWith (fun x y => x ^^^ y) a b, byte = 0) ↔ a = b := by
  induction a generalizing b with
  | nil => simp [List.eq_nil_of_length_eq_zero length.symm]
  | cons byte rest ih =>
      cases b with
      | nil => cases length
      | cons other others =>
          rw [List.zipWith_cons_cons, List.forall_mem_cons, ih (Nat.succ_inj.mp length),
            UInt8.xor_eq_zero_iff, List.cons_eq_cons]

/-- Equal bytes leave no difference, and no others do. -/
theorem timingSafeEqual_iff {a b : List UInt8} : timingSafeEqual a b = true ↔ a = b := by
  unfold timingSafeEqual
  split
  next differ => exact iff_of_false Bool.false_ne_true fun same => differ (congrArg _ same)
  next same =>
    rw [beq_iff_eq, foldl_or_eq_zero_iff, eq_self_iff_true, true_and]
    exact zipWith_xor_eq_zero_iff (not_not.mp same)

end RiskRail.Webhooks
