import RiskRail.Javascript.Utf8
import RiskRail.Webhooks.Header

/-!
# What a signature binds

The signed material is a printed number, a point and the text of an object.  The object
starts with a brace, which no number is printed with, and a whole number is printed without a
point, so the material tells the timestamp from the body.  As far as the HMAC tells its
messages apart, a signature therefore belongs to one timestamp and to the bytes of one body.
-/

namespace RiskRail.Webhooks

open RiskRail.Javascript Text RiskRail.Numeric

/-! ## Events -/

/-- The properties of an event, in the order `buildEvent` creates them. -/
structure WebhookEvent where
  fields : List (Text × Json)
  spelled : (Json.object fields).Spelled

/-- `JSON.stringify(event)`. -/
def WebhookEvent.body (event : WebhookEvent) : Text :=
  stringify (.object event.fields)

theorem WebhookEvent.wellFormed_body (event : WebhookEvent) : WellFormed event.body :=
  wellFormed_stringify _ event.spelled

theorem WebhookEvent.body_eq (event : WebhookEvent) : ∃ rest, event.body = 0x7B :: rest := by
  rw [body, stringify, inBraces]
  exact ⟨_, rfl⟩

/-! ## The material -/

/-- Equal texts are cut at the same mark: in front of the mark the one has none, and what
follows the mark there does not occur in the front of the other. -/
theorem eq_of_cut_before {α : Type*} {mark opening : α} {front first back rest : List α}
    (same : front ++ mark :: back = first ++ mark :: opening :: rest) (plain : mark ∉ first)
    (absent : opening ∉ front) (differ : mark ≠ opening) :
    front = first ∧ back = opening :: rest := by
  rcases List.append_eq_append_iff.mp same with ⟨between, first_eq, back_eq⟩ |
    ⟨between, front_eq, rest_eq⟩
  · cases between with
    | nil =>
        rw [List.append_nil] at first_eq
        exact ⟨first_eq.symm, (List.cons.inj back_eq).2⟩
    | cons unit between =>
        have unit_eq := (List.cons.inj back_eq).1
        rw [first_eq, ← unit_eq] at plain
        exact absurd (List.mem_append_right front List.mem_cons_self) plain
  · cases between with
    | nil =>
        rw [List.append_nil] at front_eq
        exact ⟨front_eq, (List.cons.inj rest_eq).2.symm⟩
    | cons unit between =>
        have rest_eq := (List.cons.inj rest_eq).2
        cases between with
        | nil => exact absurd (List.cons.inj rest_eq).1.symm differ
        | cons unit between =>
            rw [front_eq, ← (List.cons.inj rest_eq).1] at absent
            exact absurd (by simp) absent

theorem lt_of_mem_numberText {timestamp : ℚ} {unit : ℕ} (member : unit ∈ numberText timestamp) :
    unit < 0x7B := by
  have numeral := isNumeral_of_mem_numberText member
  simp only [isNumeral, Bool.or_eq_true, Bool.and_eq_true, decide_eq_true_eq, beq_iff_eq] at numeral
  omega

/-- The characters of a printed number. -/
def numberChars (timestamp : ℚ) : List Char :=
  (numberText timestamp).map Char.ofNat

theorem toNat_numberChars (timestamp : ℚ) :
    (numberChars timestamp).map Char.toNat = numberText timestamp := by
  rw [numberChars, List.map_map]
  refine List.map_congr_left (fun unit member => ?_) |>.trans (List.map_id _)
  exact toNat_ofNat (Or.inl ((lt_of_mem_numberText member).trans (by decide)))

theorem toNat_mem_numberText {timestamp : ℚ} {char : Char} (member : char ∈ numberChars timestamp) :
    char.toNat ∈ numberText timestamp := by
  rw [← toNat_numberChars]
  exact List.mem_map_of_mem member

theorem scalars_material (timestamp : ℚ) (body : Text) :
    scalars (material timestamp body) = numberChars timestamp ++ '.' :: scalars body := by
  have below : ∀ unit ∈ numberText timestamp, unit < 0xD800 := fun unit member =>
    (lt_of_mem_numberText member).trans (by decide)
  rw [material, scalars_append below, scalars_cons (isHighSurrogate_of_lt (by decide))]
  rfl

/-- The material of a whole timestamp and an event tells both. -/
theorem of_encode_material {t : ℤ} (safe : |t| < 2 ^ 53) {timestamp : ℚ}
    (double : IsBinary64 timestamp) {event : WebhookEvent} {body : Text}
    (same : encode (material timestamp body) = encode (material t event.body)) :
    timestamp = t ∧ encode body = encode event.body := by
  obtain ⟨rest, body_eq⟩ := event.body_eq
  have brace : scalars event.body = '{' :: scalars rest := by
    rw [body_eq, scalars_cons (isHighSurrogate_of_lt (by decide))]
    rfl
  rw [encode_eq_iff, scalars_material, scalars_material, brace] at same
  have plain : '.' ∉ numberChars t := fun member =>
    not_mem_numberText_whole safe (toNat_mem_numberText member)
  have absent : '{' ∉ numberChars timestamp := fun member =>
    absurd (lt_of_mem_numberText (toNat_mem_numberText member)) (by decide)
  obtain ⟨stamps, bodies⟩ := eq_of_cut_before same plain absent (by decide)
  constructor
  · apply numberText_injective double (isBinary64_intCast safe)
    rw [← toNat_numberChars, stamps, toNat_numberChars]
  · rw [encode_eq_iff, bodies, brace]

/-! ## The clock -/

/-- A distance within a tolerance that is a double stays within it when it is rounded. -/
theorem outOfTolerance_of_le {clock : TimeValue} {t : ℤ} {toleranceSeconds : ℚ}
    (double : IsBinary64 toleranceSeconds) (within : |(clock.seconds : ℚ) - t| ≤ toleranceSeconds) :
    outOfTolerance clock t toleranceSeconds = false := by
  obtain ⟨m, k, bound, -, toleranceSeconds_eq⟩ := double.digits
  have short : IsShort 2 53 toleranceSeconds := ⟨m, k, by exact_mod_cast bound, toleranceSeconds_eq⟩
  have opposite : IsShort 2 53 (-toleranceSeconds) := by
    refine ⟨-m, k, by rw [abs_neg]; exact_mod_cast bound, ?_⟩
    rw [toleranceSeconds_eq]
    push_cast
    ring
  obtain ⟨lower, upper⟩ := abs_le.mp within
  have above := roundSig_mono .halfEven (β := 2) (p := 53) (by decide) (by decide) upper
  have below := roundSig_mono .halfEven (β := 2) (p := 53) (by decide) (by decide) lower
  rw [roundSig_of_isShort _ (by decide) short] at above
  rw [roundSig_of_isShort _ (by decide) opposite] at below
  rw [outOfTolerance, decide_eq_false_iff_not, not_lt]
  exact abs_le.mpr ⟨below, above⟩

/-! ## One signature -/

theorem Mac.eq_of_bytes_eq {first second : Mac} (same : first.bytes = second.bytes) :
    first = second := by
  cases first
  cases second
  cases same
  rfl

variable (keyed : ByteArray → ByteArray → Mac)

/-- The HMAC of the bytes of a text under the bytes of a secret. -/
def hmacUtf8 (secret signed : Text) : Mac :=
  keyed (encode secret) (encode signed)

/-- No other bytes have the signature of these.  An injective HMAC would have it so for all
bytes; one of 32 bytes can have it so for some. -/
def Binds (key signed : ByteArray) : Prop :=
  ∀ other, keyed key other = keyed key signed → other = signed

variable {keyed}

/-- Only the bytes and the time that were signed are accepted with their signature. -/
theorem of_accepted {event : WebhookEvent} {secret body header : Text} {t : ℤ} {clock : TimeValue}
    {toleranceSeconds : ℚ} (safe : |t| < 2 ^ 53)
    (binds : Binds keyed (encode secret) (encode (material t event.body)))
    (same : (sdkParts header).get (ofString "v1") =
      (sdkParts (signPayload (hmacUtf8 keyed) event.body secret t)).get (ofString "v1"))
    (accepted : verifyWebhookSignature (hmacUtf8 keyed) clock body header secret
      toleranceSeconds = .ok true) :
    (∃ parsed, parseSignatureHeader header = some parsed ∧ parsed.timestamp = t) ∧
      encode body = encode event.body := by
  obtain ⟨timestamp, mac, read, -, signed⟩ := verifyWebhookSignature_eq_true_iff.mp accepted
  obtain ⟨nonempty, stamp, v1, found, bytes⟩ := sdkReading_eq_some_iff.mp read
  have sent := sdkReading_signPayload (hmacUtf8 keyed) event.body (isBinary64_intCast safe) nonempty
  obtain ⟨-, -, v1', found', bytes'⟩ := sdkReading_eq_some_iff.mp sent
  have v1_eq : v1' = v1 := Option.some_inj.mp (found'.symm.trans (same.symm.trans found))
  rw [v1_eq, bytes, Option.some_inj] at bytes'
  have macs : hmacUtf8 keyed secret (material timestamp body) =
      hmacUtf8 keyed secret (material t event.body) :=
    signed.trans (Mac.eq_of_bytes_eq bytes')
  obtain ⟨text, -, number⟩ := Option.bind_eq_some_iff.mp stamp
  obtain ⟨stamps, bodies⟩ := of_encode_material safe (isBinary64_of_finiteNumber number)
    (binds _ macs)
  have digits : v1 ≠ [] := by
    rintro rfl
    exact Mac.ne_nil mac (Option.some_inj.mp bytes).symm
  exact ⟨⟨⟨timestamp, v1⟩, parseSignatureHeader_eq_some_iff.mpr ⟨stamp, found, digits⟩, stamps⟩,
    bodies⟩

/-- What the sender signed is accepted within the tolerance. -/
theorem accepted_within {event : WebhookEvent} {secret : Text} {t : ℤ} {clock : TimeValue}
    {toleranceSeconds : ℚ} (safe : |t| < 2 ^ 53) (nonempty : secret ≠ [])
    (double : IsBinary64 toleranceSeconds)
    (within : 0 < toleranceSeconds → |(clock.seconds : ℚ) - t| ≤ toleranceSeconds) :
    verifyWebhookSignature (hmacUtf8 keyed) clock event.body
      (signPayload (hmacUtf8 keyed) event.body secret t) secret toleranceSeconds = .ok true := by
  have sent := sdkReading_signPayload (hmacUtf8 keyed) event.body (isBinary64_intCast safe) nonempty
  exact verifyWebhookSignature_eq_true_iff.mpr
    ⟨t, _, sent, fun positive => outOfTolerance_of_le double (within positive), rfl⟩

/-- A signature binds one timestamp and the bytes of one body, which are those of no other
well-formed text; under a secret that is not empty it is accepted within the tolerance. -/
theorem signature_binds {event : WebhookEvent} {secret : Text} {t : ℤ} (safe : |t| < 2 ^ 53)
    (binds : Binds keyed (encode secret) (encode (material t event.body))) :
    (∀ body header clock toleranceSeconds,
      (sdkParts header).get (ofString "v1") =
        (sdkParts (signPayload (hmacUtf8 keyed) event.body secret t)).get (ofString "v1") →
      verifyWebhookSignature (hmacUtf8 keyed) clock body header secret toleranceSeconds =
        .ok true →
      (∃ parsed, parseSignatureHeader header = some parsed ∧ parsed.timestamp = t) ∧
        encode body = encode event.body ∧ (WellFormed body → body = event.body)) ∧
    (secret ≠ [] → ∀ clock toleranceSeconds, IsBinary64 toleranceSeconds →
      (0 < toleranceSeconds → |(clock.seconds : ℚ) - t| ≤ toleranceSeconds) →
      verifyWebhookSignature (hmacUtf8 keyed) clock event.body
        (signPayload (hmacUtf8 keyed) event.body secret t) secret toleranceSeconds =
          .ok true) := by
  constructor
  · intro body header clock toleranceSeconds same accepted
    obtain ⟨stamp, bodies⟩ := of_accepted safe binds same accepted
    exact ⟨stamp, bodies, fun formed => formed.eq_of_encode_eq event.wellFormed_body bodies⟩
  · intro nonempty clock toleranceSeconds double within
    exact accepted_within safe nonempty double within

/-! ## An event with a replacement character -/

theorem length_otherMac : (List.replicate 32 (1 : UInt8)).length = 32 :=
  List.length_replicate

/-- An HMAC that gives one message a signature of its own. -/
def pinned (message _ signed : ByteArray) : Mac :=
  if signed.data = message.data then ⟨List.replicate 32 1, length_otherMac⟩ else noMac [] []

theorem binds_pinned (key message : ByteArray) : Binds (pinned message) key message := by
  intro other same
  by_contra differ
  rw [pinned, pinned, if_pos rfl, if_neg fun data => differ (ByteArray.ext data)] at same
  exact absurd (congrArg Mac.bytes same) (by decide)

/-- The fields of an event with a replacement character in its data. -/
def labelFields : List (Text × Json) :=
  [(ofString "id", .string (ofString "a1")), (ofString "type", .string (ofString "risk.updated")),
    (ofString "address", .string (ofString "SP1")),
    (ofString "createdAt", .string (ofString "2026-01-01T00:00:00.000Z")),
    (ofString "data", .object [(ofString "label", .string [0xFFFD])])]

theorem spelled_labelFields : (Json.object labelFields).Spelled := by
  simp only [labelFields, Json.Spelled, Json.SpelledFields]
  decide

/-- That event. -/
def labelEvent : WebhookEvent where
  fields := labelFields
  spelled := spelled_labelFields

/-- The message that is signed for the event. -/
def labelMessage : ByteArray :=
  encode (material (1700000000 : ℤ) labelEvent.body)

theorem signature_binds_label :
    verifyWebhookSignature (hmacUtf8 (pinned labelMessage)) someClock labelEvent.body
        (signPayload (hmacUtf8 (pinned labelMessage)) labelEvent.body [0x6B] (1700000000 : ℤ))
        [0x6B] 300 = .ok true ∧
      verifyWebhookSignature (hmacUtf8 (pinned labelMessage)) someClock (ofString "{}")
        (signPayload (hmacUtf8 (pinned labelMessage)) labelEvent.body [0x6B] (1700000000 : ℤ))
        [0x6B] 300 ≠ .ok true := by
  have binding := @signature_binds (pinned labelMessage) labelEvent [0x6B] 1700000000 (by decide)
    (binds_pinned _ _)
  constructor
  · exact binding.2 (by decide) someClock 300
      (by exact_mod_cast isBinary64_intCast (n := 300) (by decide)) fun _ => by decide +kernel
  · intro accepted
    have bytes := (binding.1 _ _ _ _ rfl accepted).2.1
    rw [encode_eq_iff] at bytes
    exact absurd bytes (by decide +kernel)

/-- The body with an unpaired surrogate where the event has the replacement character. -/
def surrogateBody : Text :=
  labelEvent.body.map fun unit => if unit = 0xFFFD then 0xD800 else unit

/-- Under an empty secret the signed body is not accepted, and with an unpaired surrogate
another string than the signed one is. -/
theorem unkeyed_and_surrogate :
    (Binds (pinned labelMessage) (encode []) labelMessage ∧
      verifyWebhookSignature (hmacUtf8 (pinned labelMessage)) someClock labelEvent.body
        (signPayload (hmacUtf8 (pinned labelMessage)) labelEvent.body [] (1700000000 : ℤ)) [] 300 ≠
          .ok true) ∧
    Binds (pinned labelMessage) (encode [0x6B]) labelMessage ∧
      verifyWebhookSignature (hmacUtf8 (pinned labelMessage)) someClock surrogateBody
        (signPayload (hmacUtf8 (pinned labelMessage)) labelEvent.body [0x6B] (1700000000 : ℤ))
        [0x6B] 300 = .ok true ∧ surrogateBody ≠ labelEvent.body := by
  refine ⟨⟨binds_pinned _ _, fun accepted => ?_⟩, binds_pinned _ _, ?_, by decide +kernel⟩
  · obtain ⟨timestamp, mac, read, -⟩ := verifyWebhookSignature_eq_true_iff.mp accepted
    exact (sdkReading_eq_some_iff.mp read).1 rfl
  · have sent := @sdkReading_signPayload (hmacUtf8 (pinned labelMessage)) labelEvent.body [0x6B] _
      (isBinary64_intCast (n := 1700000000) (by decide)) (by decide)
    have bytes : encode (material (1700000000 : ℤ) surrogateBody) = labelMessage := by
      rw [labelMessage, encode_eq_iff, scalars_material, scalars_material]
      exact congrArg (numberChars _ ++ '.' :: ·) (by decide +kernel)
    refine verifyWebhookSignature_eq_true_iff.mpr ⟨_, _, sent, fun _ => by decide +kernel, ?_⟩
    rw [hmacUtf8, bytes]
    rfl

end RiskRail.Webhooks
