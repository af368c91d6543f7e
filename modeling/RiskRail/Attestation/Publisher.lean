import RiskRail.Registry.Core
import RiskRail.Numeric.Decimal

/-!
# The risk registry publisher

`RiskRegistryPublisher.publish` up to the contract call it builds: it checks the
report hash and the basis-point figures, puts the no-debt sentinels in the place
of absent figures and encodes everything as Clarity values.  Signing and
broadcasting the transaction are not modelled.
-/

namespace RiskRail.Attestation

open RiskRail.Clarity RiskRail.Registry RiskRail.Numeric

/-- `Cl.uint` of `@stacks/transactions`: a number is encoded exactly up to
`Number.MAX_SAFE_INTEGER` and refused beyond, a `bigint` is encoded exactly. -/
structure ClarityEncoder where
  uintOfNumber : ℚ → Except String Uint
  uintOfBigint : ℕ → Except String Uint
  uintOfNumber_safe : ∀ n : ℕ, n < 2 ^ 53 →
    ∃ value, uintOfNumber n = .ok value ∧ value.val = n
  uintOfNumber_unsafe : ∀ x : ℚ, 2 ^ 53 ≤ x → ∀ value, uintOfNumber x ≠ .ok value
  uintOfBigint_fits : ∀ n : ℕ, n < 2 ^ 128 →
    ∃ value, uintOfBigint n = .ok value ∧ value.val = n

/-! ## Report hashes -/

/-- The value of a hexadecimal digit in either case. -/
def hexDigit (char : Char) : Option ℕ :=
  if '0' ≤ char ∧ char ≤ '9' then some (char.toNat - '0'.toNat)
  else if 'a' ≤ char ∧ char ≤ 'f' then some (char.toNat - 'a'.toNat + 10)
  else if 'A' ≤ char ∧ char ≤ 'F' then some (char.toNat - 'A'.toNat + 10)
  else none

/-- `/^[0-9a-f]{64}$/i.test(reportHash)`. -/
def isReportHash (reportHash : String) : Bool :=
  reportHash.toList.length = 64 ∧ reportHash.toList.all fun char => (hexDigit char).isSome

/-- `Buffer.from(digits, 'hex')`. -/
def hexBytes : List Char → List UInt8
  | high :: low :: rest =>
      match hexDigit high, hexDigit low with
      | some first, some second => UInt8.ofNat (16 * first + second) :: hexBytes rest
      | _, _ => []
  | _ => []

theorem hexBytes_length_le : ∀ digits : List Char,
    2 * (hexBytes digits).length ≤ digits.length
  | [] => by simp [hexBytes]
  | [_] => by simp [hexBytes]
  | high :: low :: rest => by
      have ih := hexBytes_length_le rest
      unfold hexBytes
      split
      · simp only [List.length_cons]
        omega
      · simp

/-- `digest('hex')` of a SHA-256 digest. -/
def hexOfBytes (bytes : List UInt8) : String :=
  String.ofList (bytes.flatMap fun byte =>
    [Nat.digitChar (byte.toNat / 16), Nat.digitChar (byte.toNat % 16)])

private theorem hexDigit_digitChar : ∀ n < 16, (hexDigit n.digitChar).isSome = true := by
  decide

/-- A SHA-256 digest. -/
structure Sha256Digest where
  bytes : List UInt8
  length_eq : bytes.length = 32

/-- The digest as the reports write it. -/
def Sha256Digest.hex (digest : Sha256Digest) : String :=
  hexOfBytes digest.bytes

private theorem length_hexDigits (bytes : List UInt8) :
    (bytes.flatMap fun byte =>
      [Nat.digitChar (byte.toNat / 16), Nat.digitChar (byte.toNat % 16)]).length =
        2 * bytes.length := by
  induction bytes with
  | nil => rfl
  | cons byte rest ih =>
      rw [List.flatMap_cons, List.length_append, ih]
      simp only [List.length_cons, List.length_nil]
      omega

/-- The publisher accepts the hash of every report. -/
theorem Sha256Digest.isReportHash_hex (digest : Sha256Digest) :
    isReportHash digest.hex = true := by
  unfold isReportHash hex hexOfBytes
  rw [decide_eq_true_iff, String.toList_ofList, length_hexDigits, digest.length_eq]
  constructor
  · rfl
  · simp only [List.all_eq_true, List.mem_flatMap, List.mem_cons, List.not_mem_nil, or_false]
    rintro char ⟨byte, -, rfl | rfl⟩
    · have lt := byte.toNat_lt
      exact hexDigit_digitChar _ (by omega)
    · exact hexDigit_digitChar _ (Nat.mod_lt _ (by decide))

/-! ## Publishing -/

/-- What is to be published for a wallet. -/
structure RiskAttestationInput where
  wallet : Principal
  riskScoreBps : ℚ
  healthFactorE4 : Option ℚ
  liquidationDistanceBps : Option ℚ
  protocolConcentrationBps : ℚ
  liquidityScoreBps : ℚ
  sourceBlock : ℚ
  reportHash : String

/-- The health factor published for a wallet without one. -/
def unboundedHealthFactor : ℕ :=
  340282366920938463463374607431768211455

/-- The distance published for a wallet without one. -/
def maxLiquidationDistance : ℚ :=
  10000

/-- A figure is a whole number of basis points. -/
def assertBps (name : String) (value : ℚ) : Except String Unit :=
  if value.den ≠ 1 ∨ value < 0 ∨ 10000 < value then
    .error (name ++ " must be an integer between 0 and 10000")
  else
    .ok ()

/-- `Cl.uint(healthFactorE4 ?? HEALTH_FACTOR_UNBOUNDED)`. -/
def encodeHealthFactor (cl : ClarityEncoder) : Option ℚ → Except String Uint
  | some healthFactorE4 => cl.uintOfNumber healthFactorE4
  | none => cl.uintOfBigint unboundedHealthFactor

/-- The arguments of the contract call, or the error `publish` throws. -/
def publish (cl : ClarityEncoder) (input : RiskAttestationInput) : Except String PublishArgs :=
  if valid : isReportHash input.reportHash = true then do
    assertBps "riskScoreBps" input.riskScoreBps
    assertBps "liquidationDistanceBps" (input.liquidationDistanceBps.getD maxLiquidationDistance)
    assertBps "protocolConcentrationBps" input.protocolConcentrationBps
    assertBps "liquidityScoreBps" input.liquidityScoreBps
    let riskScoreBps ← cl.uintOfNumber input.riskScoreBps
    let healthFactorE4 ← encodeHealthFactor cl input.healthFactorE4
    let liquidationDistanceBps ←
      cl.uintOfNumber (input.liquidationDistanceBps.getD maxLiquidationDistance)
    let protocolConcentrationBps ← cl.uintOfNumber input.protocolConcentrationBps
    let liquidityScoreBps ← cl.uintOfNumber input.liquidityScoreBps
    let sourceBlock ← cl.uintOfNumber input.sourceBlock
    .ok
      { wallet := input.wallet
        riskScoreBps, healthFactorE4, liquidationDistanceBps
        protocolConcentrationBps, liquidityScoreBps, sourceBlock
        reportHash :=
          ⟨hexBytes input.reportHash.toList, by
            have short := hexBytes_length_le input.reportHash.toList
            simp only [isReportHash, decide_eq_true_eq] at valid
            omega⟩ }
  else
    .error "Risk report hash must be a 32-byte SHA-256 hex digest"

/-! ## What a publication needs -/

theorem bind_eq_ok_iff {ε α β : Type} {first : Except ε α} {next : α → Except ε β}
    {result : β} :
    first >>= next = .ok result ↔ ∃ value, first = .ok value ∧ next value = .ok result := by
  cases first <;> simp [bind, Except.bind]

theorem assertBps_eq_ok_iff {name : String} {value : ℚ} {result : Unit} :
    assertBps name value = .ok result ↔ IsBps value := by
  unfold assertBps IsBps
  constructor
  · intro passed
    split at passed
    next => cases passed
    next inRange =>
      simp only [not_or, not_not, not_lt] at inRange
      rcases inRange with ⟨whole, lower, upper⟩
      have value_eq : (value.num : ℚ) = value := (Rat.den_eq_one_iff value).mp whole
      rw [← value_eq] at lower upper
      have num_nonneg : 0 ≤ value.num := by exact_mod_cast lower
      lift value.num to ℕ using num_nonneg with n
      exact ⟨n, by exact_mod_cast upper, value_eq.symm⟩
  · rintro ⟨n, le, rfl⟩
    rw [if_neg]
    rintro (fraction | negative | large)
    · exact fraction (Rat.den_natCast n)
    · exact absurd negative (not_lt.mpr (Nat.cast_nonneg n))
    · exact absurd large (not_lt.mpr (by exact_mod_cast le))

/-- A basis-point figure is encoded exactly. -/
theorem uintOfNumber_of_isBps (cl : ClarityEncoder) {value : ℚ}
    (figure : IsBps value) : ∃ encoded, cl.uintOfNumber value = .ok encoded ∧
      encoded.val ≤ 10000 := by
  rcases figure with ⟨n, le, rfl⟩
  rcases cl.uintOfNumber_safe n (by omega) with ⟨encoded, encodes, val_eq⟩
  exact ⟨encoded, encodes, val_eq ▸ le⟩

/-- What a contract call that was built says about its input. -/
theorem publish_eq_ok {cl : ClarityEncoder} {input : RiskAttestationInput}
    {args : PublishArgs} (published : publish cl input = .ok args) :
    IsBps (input.liquidationDistanceBps.getD maxLiquidationDistance) ∧
      encodeHealthFactor cl input.healthFactorE4 = .ok args.healthFactorE4 ∧
      cl.uintOfNumber input.sourceBlock = .ok args.sourceBlock := by
  unfold publish at published
  split at published
  next valid =>
    simp only [bind_eq_ok_iff, assertBps_eq_ok_iff, exists_const] at published
    rcases published with
      ⟨-, distance, -, -, _, -, _, health, _, -, _, -, _, -, _, source, made⟩
    cases made
    exact ⟨distance, health, source⟩
  next => cases published

/-- What `publish` needs to build a call within the contract's bounds. -/
structure Publishable (cl : ClarityEncoder) (input : RiskAttestationInput) : Prop where
  reportHash : isReportHash input.reportHash = true
  riskScoreBps : IsBps input.riskScoreBps
  liquidationDistanceBps :
    IsBps (input.liquidationDistanceBps.getD maxLiquidationDistance)
  protocolConcentrationBps : IsBps input.protocolConcentrationBps
  liquidityScoreBps : IsBps input.liquidityScoreBps
  healthFactorE4 : ∀ value ∈ input.healthFactorE4, ∃ n : ℕ, n < 2 ^ 53 ∧ value = n
  sourceBlock : ∃ n : ℕ, n < 2 ^ 53 ∧ input.sourceBlock = n

theorem Publishable.publish {cl : ClarityEncoder} {input : RiskAttestationInput}
    (publishable : Publishable cl input) {height : Uint}
    (mined : input.sourceBlock ≤ height.val) :
    ∃ args, publish cl input = .ok args ∧ args.InRange height := by
  have health : ∃ encoded, encodeHealthFactor cl input.healthFactorE4 = .ok encoded := by
    cases value_eq : input.healthFactorE4 with
    | none =>
        rcases cl.uintOfBigint_fits unboundedHealthFactor (by decide) with ⟨encoded, encodes, -⟩
        exact ⟨encoded, encodes⟩
    | some value =>
        rcases publishable.healthFactorE4 value value_eq with ⟨n, safe, rfl⟩
        rcases cl.uintOfNumber_safe n safe with ⟨encoded, encodes, -⟩
        exact ⟨encoded, encodes⟩
  rcases health with ⟨health, health_eq⟩
  rcases uintOfNumber_of_isBps cl publishable.riskScoreBps with ⟨score, score_eq, score_le⟩
  rcases uintOfNumber_of_isBps cl publishable.liquidationDistanceBps with
    ⟨distance, distance_eq, distance_le⟩
  rcases uintOfNumber_of_isBps cl publishable.protocolConcentrationBps with
    ⟨concentration, concentration_eq, concentration_le⟩
  rcases uintOfNumber_of_isBps cl publishable.liquidityScoreBps with
    ⟨liquidity, liquidity_eq, liquidity_le⟩
  rcases publishable.sourceBlock with ⟨block, safe, block_eq⟩
  rcases cl.uintOfNumber_safe block safe with ⟨source, source_eq, source_val⟩
  rw [← block_eq] at source_eq
  have source_le : source.val ≤ height.val := by
    rw [block_eq] at mined
    rw [source_val]
    exact_mod_cast mined
  unfold Attestation.publish
  rw [dif_pos publishable.reportHash]
  simp only [bind_eq_ok_iff, assertBps_eq_ok_iff, exists_const, score_eq, health_eq, distance_eq,
    concentration_eq, liquidity_eq, source_eq, publishable.riskScoreBps,
    publishable.liquidationDistanceBps, publishable.protocolConcentrationBps,
    publishable.liquidityScoreBps, Except.ok.injEq, true_and, exists_eq_left']
  exact ⟨score_le, distance_le, concentration_le, liquidity_le, source_le⟩

end RiskRail.Attestation
