import RiskRail.Webhooks.Signature

/-!
# Two verifiers of one signature

What either verifier takes from a header is a timestamp and a signature; the verifiers
agree exactly when they take the same, as far as a clock tolerates it.  The sender's
verifier also looks at pairs without an equals sign, stops a value at a second equals sign
and a signature at the first pair that is not hexadecimal, and takes each digit by its low
byte.
-/

namespace RiskRail.Webhooks

open RiskRail.Javascript Text RiskRail.Numeric

/-! ## Readings -/

/-- A timestamp and a signature. -/
abbrev Reading := Option (ℚ × Mac)

variable (hmac : Text → Text → Mac) (clock : TimeValue) (body secret header : Text)

/-- The signature is that of the body at the timestamp, and the clock tolerates it. -/
def Accepts (reading : Reading) : Prop :=
  ∃ timestamp mac, reading = some (timestamp, mac) ∧
    outOfTolerance clock timestamp defaultToleranceSeconds = false ∧
      hmac secret (material timestamp body) = mac

/-- Some clock tolerates the timestamp. -/
def Tolerable (timestamp : ℚ) : Prop :=
  ∃ clock, outOfTolerance clock timestamp defaultToleranceSeconds = false

/-- A timestamp within the tolerance, and a digest. -/
def Reading.Live (reading : Reading) : Prop :=
  ∃ timestamp mac, reading = some (timestamp, mac) ∧ Tolerable timestamp

variable {hmac clock body secret header}

theorem exists_other (mac : Mac) : ∃ other : Mac, other ≠ mac := by
  by_cases zero : mac.bytes = List.replicate 32 0
  · refine ⟨⟨List.replicate 32 1, rfl⟩, ?_⟩
    rintro rfl
    cases zero
  · refine ⟨⟨List.replicate 32 0, rfl⟩, ?_⟩
    rintro rfl
    exact zero rfl

/-- A live reading is accepted under some HMAC under which no other reading is. -/
theorem exists_accepts {first second : Reading} (live : first.Live) (differ : first ≠ second)
    (doubles : ∀ timestamp mac, first = some (timestamp, mac) ∨ second = some (timestamp, mac) →
      IsBinary64 timestamp) (secret : Text) :
    ∃ hmac clock body, Accepts hmac clock body secret first ∧
      ¬Accepts hmac clock body secret second := by
  obtain ⟨timestamp, mac, rfl, clock, tolerated⟩ := live
  cases second with
  | none =>
      refine ⟨fun _ _ => mac, clock, [], ⟨timestamp, mac, rfl, tolerated, rfl⟩, ?_⟩
      rintro ⟨_, _, reads, -⟩
      cases reads
  | some reading =>
      rcases reading with ⟨later, signature⟩
      obtain ⟨other, unlike⟩ := exists_other signature
      refine ⟨fun _ signed => if signed = material timestamp [] then mac else other, clock, [],
        ⟨timestamp, mac, rfl, tolerated, if_pos rfl⟩, ?_⟩
      rintro ⟨_, _, reads, -, signed⟩
      cases reads
      dsimp only at signed
      split at signed
      next same =>
        have texts : numberText later = numberText timestamp := List.append_cancel_right same
        have stamps := numberText_injective (doubles later signature (.inr rfl))
          (doubles timestamp mac (.inl rfl)) texts
        exact differ (by rw [stamps, signed])
      next => exact unlike signed

/-- Two readings are accepted together, whatever is signed, exactly when they are the same
or no clock tolerates them. -/
theorem accepts_iff {first second : Reading} (secret : Text)
    (doubles : ∀ timestamp mac, first = some (timestamp, mac) ∨ second = some (timestamp, mac) →
      IsBinary64 timestamp) :
    (∀ hmac clock body, Accepts hmac clock body secret first ↔
        Accepts hmac clock body secret second) ↔
      first = second ∨ ¬first.Live ∧ ¬second.Live := by
  constructor
  · intro agree
    by_contra differ
    rw [not_or, not_and_or, not_not, not_not] at differ
    rcases differ with ⟨differ, live | live⟩
    · obtain ⟨hmac, clock, body, accepts, rejects⟩ := exists_accepts live differ doubles secret
      exact rejects ((agree hmac clock body).mp accepts)
    · obtain ⟨hmac, clock, body, accepts, rejects⟩ := exists_accepts live (Ne.symm differ)
        (fun timestamp mac reads => doubles timestamp mac reads.symm) secret
      exact rejects ((agree hmac clock body).mpr accepts)
  · rintro (rfl | ⟨dead, dead'⟩) hmac clock body
    · exact Iff.rfl
    · refine iff_of_false ?_ ?_
      · rintro ⟨timestamp, mac, reads, tolerated, -⟩
        exact dead ⟨timestamp, mac, reads, clock, tolerated⟩
      · rintro ⟨timestamp, mac, reads, tolerated, -⟩
        exact dead' ⟨timestamp, mac, reads, clock, tolerated⟩

/-! ## What the verifiers read -/

/-- A signature of the right length. -/
def macOf (bytes : List UInt8) : Option Mac :=
  if length_eq : bytes.length = 32 then some ⟨bytes, length_eq⟩ else none

theorem macOf_eq_some_iff {bytes : List UInt8} {mac : Mac} :
    macOf bytes = some mac ↔ mac.bytes = bytes := by
  unfold macOf
  split
  next length_eq =>
    rw [Option.some_inj]
    exact ⟨fun same => same ▸ rfl, fun same => by cases mac; cases same; rfl⟩
  next short =>
    refine iff_of_false (fun found => nomatch found) fun same => short ?_
    rw [← same]
    exact mac.length_eq

variable (secret header) in
/-- What the Node verifier reads of a header. -/
def nodeReading : Reading :=
  ((nodeParts header).get (ofString "t")).bind finiteNumber |>.bind fun timestamp =>
    ((nodeParts header).get (ofString "v1")).bind fun v1 =>
      (macOf (bufferFromHex v1)).map fun mac => (timestamp, mac)

variable (secret header) in
/-- What the SDK verifier reads of a header. -/
def sdkReading : Reading :=
  if secret = [] then none
  else
    ((sdkParts header).get (ofString "t")).bind finiteNumber |>.bind fun timestamp =>
      ((sdkParts header).get (ofString "v1")).bind fun v1 =>
        ((hexToBytes v1).bind macOf).map fun mac => (timestamp, mac)

theorem nodeReading_eq_some_iff {timestamp : ℚ} {mac : Mac} :
    nodeReading header = some (timestamp, mac) ↔
      ((nodeParts header).get (ofString "t")).bind finiteNumber = some timestamp ∧
        ∃ v1, (nodeParts header).get (ofString "v1") = some v1 ∧ mac.bytes = bufferFromHex v1 := by
  simp only [nodeReading, Option.bind_eq_some_iff, Option.map_eq_some_iff, macOf_eq_some_iff,
    Prod.mk.injEq]
  constructor
  · rintro ⟨_, stamp, v1, found, _, bytes, rfl, rfl⟩
    exact ⟨stamp, v1, found, bytes⟩
  · rintro ⟨stamp, v1, found, bytes⟩
    exact ⟨timestamp, stamp, v1, found, mac, bytes, rfl, rfl⟩

theorem sdkReading_eq_some_iff {timestamp : ℚ} {mac : Mac} :
    sdkReading secret header = some (timestamp, mac) ↔
      secret ≠ [] ∧ ((sdkParts header).get (ofString "t")).bind finiteNumber = some timestamp ∧
        ∃ v1, (sdkParts header).get (ofString "v1") = some v1 ∧
          hexToBytes v1 = some mac.bytes := by
  unfold sdkReading
  rw [Option.ite_none_left_eq_some]
  refine and_congr_right fun _ => ?_
  simp only [Option.bind_eq_some_iff, Option.map_eq_some_iff, macOf_eq_some_iff, Prod.mk.injEq]
  constructor
  · rintro ⟨_, stamp, v1, found, _, ⟨_, bytes, rfl⟩, rfl, rfl⟩
    exact ⟨stamp, v1, found, bytes⟩
  · rintro ⟨stamp, v1, found, bytes⟩
    exact ⟨timestamp, stamp, v1, found, mac, ⟨_, bytes, rfl⟩, rfl, rfl⟩

/-- A signature has bytes. -/
theorem Mac.ne_nil (mac : Mac) : mac.bytes ≠ [] := by
  intro empty
  have length_eq := mac.length_eq
  rw [empty] at length_eq
  cases length_eq

theorem verifySignature_iff :
    verifySignature hmac clock body header secret defaultToleranceSeconds = true ↔
      Accepts hmac clock body secret (nodeReading header) := by
  simp only [Accepts, nodeReading_eq_some_iff]
  unfold verifySignature
  dsimp only
  cases ((nodeParts header).get (ofString "t")).bind finiteNumber with
  | none => simp
  | some timestamp =>
      cases (nodeParts header).get (ofString "v1") with
      | none => simp
      | some v1 =>
          simp only [Bool.if_false_left, Bool.and_eq_true, Bool.not_eq_true',
            decide_eq_false_iff_not, beq_iff_eq, Option.some_inj,
            Bool.not_eq_true]
          constructor
          · rintro ⟨-, tolerated, -, same⟩
            exact ⟨timestamp, _, ⟨rfl, v1, rfl, same⟩, tolerated, rfl⟩
          · rintro ⟨_, _, ⟨rfl, _, rfl, same⟩, tolerated, rfl⟩
            refine ⟨fun empty => ?_, tolerated, congrArg List.length same, same⟩
            rw [empty] at same
            exact Mac.ne_nil _ same

theorem parseSignatureHeader_eq_some_iff {timestamp : ℚ} {signature : Text} :
    parseSignatureHeader header = some ⟨timestamp, signature⟩ ↔
      ((sdkParts header).get (ofString "t")).bind finiteNumber = some timestamp ∧
        (sdkParts header).get (ofString "v1") = some signature ∧ signature ≠ [] := by
  unfold parseSignatureHeader
  dsimp only
  cases ((sdkParts header).get (ofString "t")).bind finiteNumber with
  | none => simp
  | some stamp =>
      cases (sdkParts header).get (ofString "v1") with
      | none => simp
      | some v1 =>
          simp only [Option.ite_none_left_eq_some, Option.some_inj, ParsedSignature.mk.injEq]
          constructor
          · rintro ⟨nonempty, rfl, rfl⟩
            exact ⟨rfl, rfl, nonempty⟩
          · rintro ⟨rfl, rfl, nonempty⟩
            exact ⟨nonempty, rfl, rfl⟩

/-- The last step: the signature is read and compared. -/
theorem signed_iff {given : List UInt8} {signed : Text} :
    (do
      let expected ← importAndSign hmac secret signed
      return timingSafeEqual expected.bytes given : Except String Bool) = .ok true ↔
      secret ≠ [] ∧ (hmac secret signed).bytes = given := by
  unfold importAndSign
  split
  next empty => exact iff_of_false (fun accepted => nomatch accepted) fun both => both.1 empty
  next nonempty =>
    refine Iff.trans ?_ (and_iff_right nonempty).symm
    rw [← timingSafeEqual_iff]
    exact ⟨fun accepted => Except.ok.inj accepted, fun same => congrArg Except.ok same⟩

/-- Under any tolerance; one that is not positive does not look at the clock. -/
theorem verifyWebhookSignature_eq_true_iff {toleranceSeconds : ℚ} :
    verifyWebhookSignature hmac clock body header secret toleranceSeconds = .ok true ↔
      ∃ timestamp mac, sdkReading secret header = some (timestamp, mac) ∧
        (0 < toleranceSeconds → outOfTolerance clock timestamp toleranceSeconds = false) ∧
          hmac secret (material timestamp body) = mac := by
  simp only [sdkReading_eq_some_iff]
  unfold verifyWebhookSignature
  by_cases empty : header = []
  · subst empty
    rw [if_pos rfl]
    refine iff_of_false (fun accepted => nomatch accepted) ?_
    rintro ⟨timestamp, mac, ⟨-, stamp, -⟩, -⟩
    cases stamp
  rw [if_neg empty]
  cases parsed : parseSignatureHeader header with
  | none =>
      refine iff_of_false (fun accepted => nomatch accepted) ?_
      rintro ⟨timestamp, mac, ⟨-, stamp, v1, found, bytes⟩, -⟩
      have nonempty : v1 ≠ [] := by
        rintro rfl
        exact Mac.ne_nil mac (Option.some_inj.mp bytes).symm
      cases parsed.symm.trans (parseSignatureHeader_eq_some_iff.mpr ⟨stamp, found, nonempty⟩)
  | some both =>
      obtain ⟨stamp, found, nonempty⟩ := parseSignatureHeader_eq_some_iff.mp parsed
      simp only [stamp, found, Option.some_inj]
      by_cases late : 0 < toleranceSeconds ∧
          outOfTolerance clock both.timestamp toleranceSeconds = true
      · rw [if_pos late]
        refine iff_of_false (fun accepted => nomatch accepted) ?_
        rintro ⟨_, _, ⟨-, rfl, -⟩, tolerated, -⟩
        cases late.2.symm.trans (tolerated late.1)
      · rw [if_neg late]
        rw [not_and, Bool.not_eq_true] at late
        cases read : hexToBytes both.signature with
        | none =>
            refine iff_of_false (fun accepted => nomatch accepted) ?_
            rintro ⟨_, _, ⟨-, -, _, rfl, bytes⟩, -⟩
            cases read.symm.trans bytes
        | some given =>
            refine signed_iff.trans ?_
            constructor
            · rintro ⟨keyed, same⟩
              exact ⟨both.timestamp, _,
                ⟨keyed, rfl, _, rfl, read.trans (congrArg some same.symm)⟩, late, rfl⟩
            · rintro ⟨_, _, ⟨keyed, rfl, _, rfl, bytes⟩, -, rfl⟩
              exact ⟨keyed, Option.some_inj.mp (bytes.symm.trans read)⟩

theorem verifyWebhookSignature_iff :
    verifyWebhookSignature hmac clock body header secret defaultToleranceSeconds = .ok true ↔
      Accepts hmac clock body secret (sdkReading secret header) := by
  have positive : (0 : ℚ) < defaultToleranceSeconds := by norm_num [defaultToleranceSeconds]
  simp only [verifyWebhookSignature_eq_true_iff, positive, forall_const, Accepts]

/-- The verifiers agree exactly when they read the same. -/
theorem verifiers_agree_iff (secret header : Text) :
    (∀ hmac clock body,
      verifySignature hmac clock body header secret defaultToleranceSeconds = true ↔
        verifyWebhookSignature hmac clock body header secret defaultToleranceSeconds = .ok true) ↔
      nodeReading header = sdkReading secret header ∨
        ¬(nodeReading header).Live ∧ ¬(sdkReading secret header).Live := by
  simp only [verifySignature_iff, verifyWebhookSignature_iff]
  refine accepts_iff secret fun timestamp mac reads => ?_
  rcases reads with reads | reads
  · obtain ⟨text, -, read⟩ := Option.bind_eq_some_iff.mp (nodeReading_eq_some_iff.mp reads).1
    exact isBinary64_of_finiteNumber read
  · obtain ⟨text, -, read⟩ := Option.bind_eq_some_iff.mp (sdkReading_eq_some_iff.mp reads).2.1
    exact isBinary64_of_finiteNumber read

end RiskRail.Webhooks
