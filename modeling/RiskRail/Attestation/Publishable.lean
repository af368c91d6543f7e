import RiskRail.Attestation.Publisher
import RiskRail.Database.RiskSnapshot
import RiskRail.Engine.Loan

/-!
# Which snapshots can be published

From adapter positions to the registry: the engines compute the figures, the
database stores them as 32-bit integers, the publisher checks them and the
contract checks them again.  Every figure but one is in range for every
portfolio.  The liquidation distance is not: the engine clamps it to
-10000..10000, while the publisher and the contract accept 0..10000, so a wallet
with a loan past its liquidation threshold cannot be attested.
-/

namespace RiskRail.Attestation

open RiskRail.Clarity RiskRail.Registry RiskRail.Numeric RiskRail.Engine RiskRail.Database

variable (arithmetic : Arithmetic) (toUpperCase : String → String)

/-- The summary the risk job computes of a freshly indexed wallet. -/
def riskSummary (prices : PriceMap) (adapters : List AdapterPosition) : PortfolioRiskSummary :=
  calculatePortfolioRisk arithmetic toUpperCase <|
    valuePositions arithmetic toUpperCase prices (adapters.map AdapterPosition.position)

/-- The attestation worker's call of `publish` for a stored row. -/
def attestationInput (wallet : Principal) (snapshot : RiskSnapshot) : RiskAttestationInput where
  wallet := wallet
  riskScoreBps := snapshot.figures.riskScoreBps
  healthFactorE4 := snapshot.figures.healthFactorE4.map fun n : ℤ => (n : ℚ)
  liquidationDistanceBps := snapshot.figures.liquidationDistanceBps.map fun n : ℤ => (n : ℚ)
  protocolConcentrationBps := snapshot.figures.protocolConcentrationBps
  liquidityScoreBps := snapshot.figures.liquidityScoreBps
  sourceBlock := toDouble snapshot.sourceBlock
  reportHash := snapshot.reportHash

/-- `publish` builds a call that no authorized publisher sees rejected. -/
def Accepted (cl : ClarityEncoder) (wallet : Principal) (snapshot : RiskSnapshot)
    (height : Uint) : Prop :=
  ∃ args, publish cl (attestationInput wallet snapshot) = .ok args ∧
    ∀ sender registry, isPublisher ⟨sender, height⟩ registry →
      ∀ code, publishRiskSnapshot args ⟨sender, height⟩ registry ≠ .err code

variable {arithmetic} {toUpperCase}

/-! ## The figures of a summary -/

theorem isBps_riskScoreBps (positions : List NormalizedPosition) :
    IsBps (calculatePortfolioRisk arithmetic toUpperCase positions).riskScoreBps := by
  apply isBps_intCast
  · exact le_max_left _ _
  · exact max_le (by norm_num) (min_le_left _ _)

private theorem exposures_of_valued (prices : PriceMap) (adapters : List AdapterPosition) :
    ∀ position ∈ valuePositions arithmetic toUpperCase prices
        (adapters.map AdapterPosition.position), HasRoundedExposure arithmetic position := by
  intro position member
  rcases List.mem_map.mp member with ⟨original, -, rfl⟩
  exact hasRoundedExposure_valuePosition arithmetic toUpperCase prices original

theorem isBps_protocolConcentrationBps (prices : PriceMap) (adapters : List AdapterPosition) :
    IsBps (riskSummary arithmetic toUpperCase prices adapters).protocolConcentrationBps :=
  isBps_protocolConcentration (exposures_of_valued prices adapters)

theorem isBps_liquidityScoreBps (prices : PriceMap) (adapters : List AdapterPosition) :
    IsBps (riskSummary arithmetic toUpperCase prices adapters).liquidityScoreBps := by
  apply isBps_capitalAccessibilityBps (exposures_of_valued prices adapters)
  intro position member share shareOf
  rcases List.mem_map.mp member with ⟨original, originalMem, rfl⟩
  rcases List.mem_map.mp originalMem with ⟨adapter, -, rfl⟩
  rw [valuePosition_liquidBps] at shareOf
  exact adapter.liquidBps_le share shareOf

/-- The values a summary takes its worst health factor and distance from. -/
theorem mem_valued_iff {prices : PriceMap} {adapters : List AdapterPosition}
    {field : LiquidationMetrics → Option ℚ} {value : Option ℚ} :
    value ∈ (valuePositions arithmetic toUpperCase prices
        (adapters.map AdapterPosition.position)).map
          (fun position => position.liquidation.bind field) ↔
      ∃ adapter ∈ adapters,
        (valuePosition arithmetic toUpperCase prices adapter.position).liquidation.bind field =
          value := by
  simp [valuePositions]

/-- The health factor of a summary, if any, is the one of a loan. -/
theorem worstHealthFactorE4_nonneg {prices : PriceMap} {adapters : List AdapterPosition}
    {healthFactor : ℚ}
    (worst : (riskSummary arithmetic toUpperCase prices adapters).worstHealthFactorE4 =
      some healthFactor) : 0 ≤ healthFactor := by
  rcases mem_valued_iff.mp (smallest_eq_some worst).1 with ⟨adapter, -, healthOf⟩
  rw [(valuePosition_liquidation arithmetic toUpperCase prices adapter).1,
    Option.map_eq_some_iff] at healthOf
  rcases healthOf with ⟨threshold, loan, rfl⟩
  apply healthFactorE4_nonneg
  unfold loanThreshold at loan
  split at loan
  next worth => exact currentLtvBps_nonneg worth.1.le worth.2.le
  next => cases loan

/-- The distance of a loan is negative exactly when it is past its threshold. -/
theorem pastThreshold_iff_distance {prices : PriceMap} {adapter : AdapterPosition} :
    PastThreshold arithmetic toUpperCase prices adapter.position ↔
      ∃ distance, (valuePosition arithmetic toUpperCase prices
        adapter.position).liquidation.bind LiquidationMetrics.distanceBps = some distance ∧
          distance < 0 := by
  rw [(valuePosition_liquidation arithmetic toUpperCase prices adapter).2]
  constructor
  · rintro ⟨threshold, loan, past⟩
    rw [Option.mem_def.mp loan]
    have negative := (oneMinus_bps_neg_iff (arithmetic.round_round _)).mpr past
    exact ⟨_, rfl, clampDistance_neg_iff.mpr negative⟩
  · rintro ⟨distance, distanceOf, negative⟩
    rcases Option.map_eq_some_iff.mp distanceOf with ⟨threshold, loan, rfl⟩
    rw [clampDistance_neg_iff] at negative
    exact ⟨threshold, loan, (oneMinus_bps_neg_iff (arithmetic.round_round _)).mp negative⟩

/-- The distance of a summary is a figure the publisher accepts exactly when no
loan is past its threshold. -/
theorem isBps_distance_iff {prices : PriceMap} {adapters : List AdapterPosition} :
    IsBps ((riskSummary arithmetic toUpperCase prices adapters).liquidationDistanceBps.getD
        maxLiquidationDistance) ↔
      ∀ adapter ∈ adapters, ¬PastThreshold arithmetic toUpperCase prices adapter.position := by
  constructor
  · rintro ⟨n, -, distance_eq⟩ adapter member past
    rcases pastThreshold_iff_distance.mp past with ⟨distance, distanceOf, negative⟩
    have listed := mem_valued_iff.mpr ⟨adapter, member, distanceOf⟩
    cases least_eq :
        (riskSummary arithmetic toUpperCase prices adapters).liquidationDistanceBps with
    | none => exact absurd (smallest_eq_none_iff.mp least_eq _ listed) (by simp)
    | some least =>
        have le := (smallest_eq_some least_eq).2 distance listed
        rw [least_eq, Option.getD_some] at distance_eq
        have nonneg : (0 : ℚ) ≤ n := Nat.cast_nonneg n
        linarith
  · intro above
    cases least_eq :
        (riskSummary arithmetic toUpperCase prices adapters).liquidationDistanceBps with
    | none => exact isBps_tenThousand
    | some least =>
        rcases mem_valued_iff.mp (smallest_eq_some least_eq).1 with ⟨adapter, member, distanceOf⟩
        have nonneg : 0 ≤ least := by
          by_contra negative
          exact above adapter member
            (pastThreshold_iff_distance.mpr ⟨least, distanceOf, not_le.mp negative⟩)
        rw [(valuePosition_liquidation arithmetic toUpperCase prices adapter).2,
          Option.map_eq_some_iff] at distanceOf
        rcases distanceOf with ⟨threshold, -, distance_eq⟩
        rcases clampDistance_rawDistanceBps
          (loanLtvBps arithmetic toUpperCase prices adapter.position) threshold with
          ⟨n, -, le, whole⟩
        rw [distance_eq] at whole
        rw [whole] at nonneg
        rw [Option.getD_some, whole]
        exact isBps_intCast (by exact_mod_cast nonneg) le

/-! ## Acceptance -/

/-- A call within the contract's bounds is not rejected for its figures: with an
authorized sender it is accepted, unless snapshot ids have run out. -/
theorem publishRiskSnapshot_ne_err {args : PublishArgs} {env : Env} {registry : Registry.State}
    (inRange : args.InRange env.stacksBlockHeight) (authorized : isPublisher env registry)
    (code : Uint) : publishRiskSnapshot args env registry ≠ .err code := by
  unfold publishRiskSnapshot
  rcases inRange with ⟨score, distance, concentration, liquidity, block⟩
  split
  · simp
  · rw [asserts_of authorized, asserts_of score, asserts_of distance, asserts_of concentration,
      asserts_of liquidity, asserts_of block]
    simp

/-- The numbers a stored row passes to `publish` are those of its summary. -/
theorem attestationInput_of_summary {summary : PortfolioRiskSummary} {reportHash : String}
    {sourceBlock id observedAt : ℕ} {snapshot : RiskSnapshot} (wallet : Principal)
    (queued : persistRiskSnapshot summary reportHash sourceBlock id observedAt = some snapshot) :
    attestationInput wallet snapshot =
        { wallet := wallet
          riskScoreBps := summary.riskScoreBps
          healthFactorE4 := summary.worstHealthFactorE4
          liquidationDistanceBps := summary.liquidationDistanceBps
          protocolConcentrationBps := summary.protocolConcentrationBps
          liquidityScoreBps := summary.liquidityScoreBps
          sourceBlock := toDouble sourceBlock
          reportHash := reportHash } ∧
      ∀ healthFactor ∈ summary.worstHealthFactorE4,
        ∃ n : ℤ, n < 2 ^ 31 ∧ healthFactor = n := by
  rcases Option.map_eq_some_iff.mp queued with ⟨figures, stored, rfl⟩
  rcases RiskFigures.ofSummary_eq_some stored with
    ⟨score, ⟨health, health_range⟩, distance, concentration, liquidity⟩
  constructor
  · rw [attestationInput, health, distance, concentration, liquidity, score]
  · intro healthFactor member
    rw [health, Option.mem_map] at member
    rcases member with ⟨n, stored_eq, rfl⟩
    exact ⟨n, health_range n stored_eq, rfl⟩

/-- A queued snapshot is accepted exactly when no loan is past its threshold and
the source block is a safe integer. -/
theorem attestation_accepted_iff (cl : ClarityEncoder) (wallet : Principal) {prices : PriceMap}
    {adapters : List AdapterPosition} {digest : Sha256Digest} {sourceBlock id observedAt : ℕ}
    {snapshot : RiskSnapshot} {height : Uint}
    (queued : persistRiskSnapshot (riskSummary arithmetic toUpperCase prices adapters)
      digest.hex sourceBlock id observedAt = some snapshot)
    (mined : sourceBlock ≤ height.val) :
    Accepted cl wallet snapshot height ↔
      (∀ adapter ∈ adapters, ¬PastThreshold arithmetic toUpperCase prices adapter.position) ∧
        sourceBlock < 2 ^ 53 := by
  rcases attestationInput_of_summary wallet queued with ⟨input_eq, health_range⟩
  unfold Accepted
  rw [input_eq, ← isBps_distance_iff]
  constructor
  · rintro ⟨args, published, -⟩
    rcases publish_eq_ok published with ⟨distance, -, source⟩
    constructor
    · exact distance
    · by_contra large
      exact cl.uintOfNumber_unsafe _ (le_toDouble (not_lt.mp large)) _ source
  · rintro ⟨distance, safe⟩
    have source_eq := toDouble_of_safe safe
    have publishable : Publishable cl
        { wallet := wallet
          riskScoreBps := (riskSummary arithmetic toUpperCase prices adapters).riskScoreBps
          healthFactorE4 := (riskSummary arithmetic toUpperCase prices adapters).worstHealthFactorE4
          liquidationDistanceBps :=
            (riskSummary arithmetic toUpperCase prices adapters).liquidationDistanceBps
          protocolConcentrationBps :=
            (riskSummary arithmetic toUpperCase prices adapters).protocolConcentrationBps
          liquidityScoreBps :=
            (riskSummary arithmetic toUpperCase prices adapters).liquidityScoreBps
          sourceBlock := toDouble sourceBlock
          reportHash := digest.hex } :=
      { reportHash := digest.isReportHash_hex
        riskScoreBps := isBps_riskScoreBps _
        liquidationDistanceBps := distance
        protocolConcentrationBps := isBps_protocolConcentrationBps prices adapters
        liquidityScoreBps := isBps_liquidityScoreBps prices adapters
        healthFactorE4 := by
          intro healthFactor member
          rcases health_range healthFactor member with ⟨n, lt, rfl⟩
          have nonneg : 0 ≤ n := by exact_mod_cast worstHealthFactorE4_nonneg member
          lift n to ℕ using nonneg
          exact ⟨n, by omega, by simp⟩
        sourceBlock := ⟨sourceBlock, safe, source_eq⟩ }
    have source_le : toDouble sourceBlock ≤ height.val := by
      rw [source_eq]
      exact_mod_cast mined
    rcases publishable.publish source_le with ⟨args, published, inRange⟩
    exact ⟨args, published, fun sender registry authorized =>
      publishRiskSnapshot_ne_err inRange authorized⟩

/-! ## A loan on either side of its threshold -/

/-- One bitcoin of collateral, a debt of 50000 dollars, a partial threshold of
seventy percent. -/
def bitcoinLoan : AdapterPosition where
  position :=
    { id := "zest-v2:SP1:7"
      protocolId := "zest-v2"
      type := .borrowing
      assets :=
        [ { assetId := "sBTC", symbol := "sBTC", amountAtomic := 100000000, decimals := 8,
            role := .collateral },
          { assetId := "USDC", symbol := "USDC", amountAtomic := 50000000000, decimals := 6,
            role := .debt } ]
      lending := some
        { borrowLtvBps := some 6000
          partialLiquidationLtvBps := some 7000
          fullLiquidationLtvBps := some 7500 }
      liquidBps := some 0
      source := ⟨100, 0, true⟩ }
  valueUsd_none := rfl
  collateral_none := rfl
  debtUsd_none := rfl
  liquidation_none := rfl
  valuation_none := rfl
  assets_none := by decide
  liquidBps_le := by decide

/-- Quotes for bitcoin at `bitcoinUsd` and the dollar token at one dollar. -/
def bitcoinQuotes (bitcoinUsd : ℚ) : PriceMap where
  entries := [("sBTC", ⟨"sBTC", bitcoinUsd⟩), ("USDC", ⟨"USDC", 1⟩)]
  distinct := by simp

theorem lt_uint_of_safe {n : ℕ} (safe : n < 2 ^ 53) : n < 2 ^ 128 :=
  safe.trans (by norm_num)

/-- `Cl.uint` of a number, with its documented range. -/
def standardUint (x : ℚ) : Except String Uint :=
  if fits : x.num.toNat < 2 ^ 53 ∧ 0 ≤ x ∧ x.den = 1 then
    .ok ⟨x.num.toNat, lt_uint_of_safe fits.1⟩
  else
    .error "RangeError"

theorem standardUint_safe (n : ℕ) (safe : n < 2 ^ 53) :
    ∃ value, standardUint n = .ok value ∧ value.val = n := by
  rw [standardUint, dif_pos ⟨by simpa using safe, Nat.cast_nonneg n, Rat.den_natCast n⟩]
  exact ⟨_, rfl, by simp⟩

theorem standardUint_large (x : ℚ) (large : 2 ^ 53 ≤ x) (value : Uint) :
    standardUint x ≠ .ok value := by
  intro encoded
  unfold standardUint at encoded
  split at encoded
  next fits =>
    have whole := (Rat.den_eq_one_iff x).mp fits.2.2
    rw [← whole] at large
    have num_large : (2 : ℤ) ^ 53 ≤ x.num := by exact_mod_cast large
    omega
  next => cases encoded

/-- `Cl.uint` with its documented ranges. -/
def standardEncoder : ClarityEncoder where
  uintOfNumber := standardUint
  uintOfBigint n := if fits : n < 2 ^ 128 then .ok ⟨n, fits⟩ else .error "RangeError"
  uintOfNumber_safe := standardUint_safe
  uintOfNumber_unsafe := standardUint_large
  uintOfBigint_fits n fits := ⟨⟨n, fits⟩, dif_pos fits, rfl⟩

/-- A digest. -/
def zeroDigest : Sha256Digest where
  bytes := List.replicate 32 0
  length_eq := rfl

/-- The figures of the loan at a bitcoin price of 60000 dollars. -/
def underwaterFigures : RiskFigures where
  riskLevel := .critical
  riskScoreBps := 10000
  healthFactorE4 := some 8400
  liquidationDistanceBps := some (-1904)
  protocolConcentrationBps := 10000
  assetConcentrationBps := 5455
  liquidityScoreBps := 0
  capitalAccessibilityBps := 0

/-- At 60000 dollars the snapshot is queued, and `publish` throws. -/
theorem underwater_snapshot_not_accepted :
    ∃ snapshot,
      persistRiskSnapshot
          (riskSummary .decimalJs String.toUpper (bitcoinQuotes 60000) [bitcoinLoan])
          zeroDigest.hex 100 1 0 = some snapshot ∧
        snapshot.sourceBlock ≤ 100 ∧
        ¬Accepted standardEncoder (.standard "SP1") snapshot ⟨100, by decide⟩ := by
  have stored : RiskFigures.ofSummary
      (riskSummary .decimalJs String.toUpper (bitcoinQuotes 60000) [bitcoinLoan]) =
        some underwaterFigures := by
    decide +kernel
  have queued : persistRiskSnapshot
      (riskSummary .decimalJs String.toUpper (bitcoinQuotes 60000) [bitcoinLoan])
      zeroDigest.hex 100 1 0 = some
        { id := 1, figures := underwaterFigures, reportHash := zeroDigest.hex, sourceBlock := 100,
          observedAt := 0 } := by
    rw [persistRiskSnapshot, stored]
    rfl
  refine ⟨_, queued, le_rfl, ?_⟩
  rintro ⟨args, published, -⟩
  rcases (publish_eq_ok published).1 with ⟨n, -, distance_eq⟩
  have negative : ((-1904 : ℤ) : ℚ) = n := distance_eq
  have nonneg : (0 : ℚ) ≤ n := Nat.cast_nonneg n
  rw [← negative] at nonneg
  norm_num at nonneg

/-- At 100000 dollars the same loan is far from its threshold. -/
theorem attestation_accepted_iff_healthyLoan :
    ∃ snapshot,
      persistRiskSnapshot
          (riskSummary .decimalJs String.toUpper (bitcoinQuotes 100000) [bitcoinLoan])
          zeroDigest.hex 100 1 0 = some snapshot ∧
        Accepted standardEncoder (.standard "SP1") snapshot ⟨100, by decide⟩ := by
  have stored : (persistRiskSnapshot
      (riskSummary .decimalJs String.toUpper (bitcoinQuotes 100000) [bitcoinLoan])
      zeroDigest.hex 100 1 0).isSome = true := by
    rw [persistRiskSnapshot, Option.isSome_map]
    decide +kernel
  rcases Option.isSome_iff_exists.mp stored with ⟨snapshot, queued⟩
  have threshold : loanThreshold .decimalJs String.toUpper (bitcoinQuotes 100000)
      bitcoinLoan.position = some 7000 := by
    decide +kernel
  have quotient : Arithmetic.decimalJs.div
      (Arithmetic.decimalJs.ofNumber
        (loanLtvBps .decimalJs String.toUpper (bitcoinQuotes 100000) bitcoinLoan.position))
      (Arithmetic.decimalJs.ofNumber ((7000 : ℕ) : ℚ)) < 1 + 1 / 20000 := by
    decide +kernel
  apply Exists.intro snapshot
  apply And.intro queued
  apply (attestation_accepted_iff standardEncoder (.standard "SP1") queued le_rfl).mpr
  constructor
  · intro adapter member
    cases List.mem_singleton.mp member
    rintro ⟨limit, loan, past⟩
    rw [threshold] at loan
    cases Option.mem_some.mp loan
    exact absurd past (not_le.mpr quotient)
  · norm_num

end RiskRail.Attestation
