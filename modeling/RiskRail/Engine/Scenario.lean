import RiskRail.Engine.Stress

/-!
# Stress scenarios

`runStressScenario` compares the positions of a portfolio before and after the shocks of
a scenario.  A position counts as liquidatable once its health factor is at most one.
That factor comes from a loan-to-value ratio in whole basis points, so the flag says
where the rounded ratio stands.
-/

namespace RiskRail.Engine

open RiskRail.Numeric

/-- Price changes under a name. -/
structure StressScenario where
  id : Option String := none
  name : Option String := none
  shocks : List PriceShock
deriving DecidableEq

/-- A position before and after the shocks. -/
structure StressPositionResult where
  positionId : String
  protocolId : String
  type : PositionType
  beforeValueUsd : Option ℚ
  afterValueUsd : Option ℚ
  beforeHealthFactorE4 : Option ℚ
  afterHealthFactorE4 : Option ℚ
  beforeLiquidationDistanceBps : Option ℚ
  afterLiquidationDistanceBps : Option ℚ
  liquidatableBefore : Bool
  liquidatableAfter : Bool
deriving DecidableEq

/-- An account before and after the shocks. -/
structure StressScenarioResult where
  scenario : StressScenario
  before : PortfolioRiskSummary
  after : PortfolioRiskSummary
  positions : List StressPositionResult
  warnings : List String
deriving DecidableEq

/-- `healthFactorE4 !== undefined && healthFactorE4 <= 10_000`. -/
def liquidatable (healthFactorE4 : Option ℚ) : Bool :=
  healthFactorE4.any fun healthFactorE4 => healthFactorE4 ≤ 10000

/-- One position before and after the shocks. -/
def stressResult (position stressed : NormalizedPosition) : StressPositionResult :=
  let beforeHf := position.liquidation.bind LiquidationMetrics.healthFactorE4
  let afterHf := stressed.liquidation.bind LiquidationMetrics.healthFactorE4
  { positionId := position.id
    protocolId := position.protocolId
    type := position.type
    beforeValueUsd := position.valueUsd
    afterValueUsd := stressed.valueUsd
    beforeHealthFactorE4 := beforeHf
    afterHealthFactorE4 := afterHf
    beforeLiquidationDistanceBps := position.liquidation.bind LiquidationMetrics.distanceBps
    afterLiquidationDistanceBps := stressed.liquidation.bind LiquidationMetrics.distanceBps
    liquidatableBefore := liquidatable beforeHf
    liquidatableAfter := liquidatable afterHf }

/-- What is worse after the shocks, in words. -/
def stressWarnings (before after : PortfolioRiskSummary) (results : List StressPositionResult) :
    List String :=
  let newlyLiquidatable := results.filter fun result =>
    !result.liquidatableBefore && result.liquidatableAfter
  (if 0 < newlyLiquidatable.length then
    [toString newlyLiquidatable.length ++
      " position(s) cross the partial-liquidation threshold in this scenario."]
  else
    []) ++
  if after.riskLevel = .critical ∧ before.riskLevel ≠ .critical then
    ["Portfolio risk moves into the critical band under this scenario."]
  else
    []

variable (toLowerCase : String → String) (arithmetic : Arithmetic) (toUpperCase : String → String)

/-- The positions are shocked one by one and summed up again. -/
def runStressScenario (positions : List NormalizedPosition) (scenario : StressScenario) :
    StressScenarioResult :=
  let before := calculatePortfolioRisk arithmetic toUpperCase positions
  let shockedPositions :=
    positions.map (stressPosition toLowerCase arithmetic toUpperCase scenario.shocks)
  let after := calculatePortfolioRisk arithmetic toUpperCase shockedPositions
  let results := positions.zipWith stressResult shockedPositions
  { scenario := scenario
    before := before
    after := after
    positions := results
    warnings := stressWarnings before after results }

/-- Every position is stressed by itself. -/
theorem runStressScenario_positions (positions : List NormalizedPosition)
    (scenario : StressScenario) :
    (runStressScenario toLowerCase arithmetic toUpperCase positions scenario).positions =
      positions.map fun position =>
        stressResult position
          (stressPosition toLowerCase arithmetic toUpperCase scenario.shocks position) := by
  unfold runStressScenario
  dsimp only
  rw [List.zipWith_map_right, List.zipWith_self]

/-! ## Metrics derived and metrics kept -/

section Metrics

variable {arithmetic} (prices : Option PriceMap) {position : NormalizedPosition}

/-- Where collateral and debt are both worth something, the health metrics are those of
their ratio. -/
theorem deriveLendingMetrics_derived {lending : LendingRiskParameters}
    (isLoan : position.lending = some lending)
    (collateral : 0 < sumUsd arithmetic (valuedAssets .collateral position.assets))
    (debt : 0 < sumUsd arithmetic (valuedAssets .debt position.assets)) :
    let ltvBps := currentLtvBps arithmetic
      (sumUsd arithmetic (valuedAssets .collateral position.assets))
      (sumUsd arithmetic (valuedAssets .debt position.assets))
    let derived := deriveLendingMetrics arithmetic toUpperCase prices position
    derived.liquidation.bind LiquidationMetrics.healthFactorE4 =
        (activeThreshold lending).map (healthFactorE4 arithmetic ltvBps) ∧
      derived.liquidation.bind LiquidationMetrics.distanceBps =
        (activeThreshold lending).map fun threshold =>
          clampDistance (rawDistanceBps arithmetic ltvBps threshold) := by
  have valued : ∀ role, 0 < sumUsd arithmetic (valuedAssets role position.assets) →
      valuedAssets role position.assets ≠ [] := by
    intro role positive empty
    rw [empty] at positive
    exact positive.ne rfl
  unfold deriveLendingMetrics
  rw [isLoan]
  dsimp only
  rw [if_neg (not_or.mpr ⟨valued _ collateral, valued _ debt⟩),
    if_neg (not_or.mpr ⟨not_le.mpr collateral, not_le.mpr debt⟩)]
  exact ⟨rfl, rfl⟩

/-- Where one of them is worth nothing, the position stays as it is. -/
theorem deriveLendingMetrics_kept
    (worthless : sumUsd arithmetic (valuedAssets .collateral position.assets) ≤ 0 ∨
      sumUsd arithmetic (valuedAssets .debt position.assets) ≤ 0) :
    deriveLendingMetrics arithmetic toUpperCase prices position = position := by
  unfold deriveLendingMetrics
  cases position.lending with
  | none => rfl
  | some lending =>
      dsimp only
      rw [if_pos worthless, ite_self]

end Metrics

/-! ## The flag -/

/-- The loan-to-value ratio in whole basis points, ties up, and at least one. -/
def wholeLtvBps (collateralUsd debtUsd : ℚ) : ℤ :=
  max 1 ⌊debtUsd / collateralUsd * 10000 + 1 / 2⌋

theorem halfAway_of_nonneg {x : ℚ} (nonneg : 0 ≤ x) :
    IntRounding.halfAway.toInt x = ⌊x + 1 / 2⌋ :=
  if_pos nonneg

/-- In exact arithmetic the health factor is one division of whole basis points. -/
theorem healthFactorE4_exact {collateralUsd debtUsd : ℚ} (collateral : 0 < collateralUsd)
    (debt : 0 < debtUsd) (threshold : ℕ) :
    healthFactorE4 .exact (currentLtvBps .exact collateralUsd debtUsd) threshold =
      (⌊(threshold : ℚ) / wholeLtvBps collateralUsd debtUsd * 10000 + 1 / 2⌋ : ℤ) := by
  have ratio_nonneg : 0 ≤ debtUsd / collateralUsd * 10000 := by positivity
  have ltv_eq : currentLtvBps .exact collateralUsd debtUsd =
      (⌊debtUsd / collateralUsd * 10000 + 1 / 2⌋ : ℤ) := by
    rw [← halfAway_of_nonneg ratio_nonneg, ← toDecimalPlaces_zero]
    rfl
  have ltv_nonneg : 0 ≤ ⌊debtUsd / collateralUsd * 10000 + 1 / 2⌋ :=
    Int.floor_nonneg.mpr (by positivity)
  have divisor_eq : (if currentLtvBps .exact collateralUsd debtUsd = 0 then 1
      else currentLtvBps .exact collateralUsd debtUsd) =
        (wholeLtvBps collateralUsd debtUsd : ℚ) := by
    rw [ltv_eq, wholeLtvBps]
    generalize ⌊debtUsd / collateralUsd * 10000 + 1 / 2⌋ = ltv at ltv_nonneg
    by_cases zero : ltv = 0
    · subst zero
      simp
    · rw [if_neg (by exact_mod_cast zero), max_eq_right (by omega)]
  have whole_pos : (0 : ℚ) < wholeLtvBps collateralUsd debtUsd := by
    exact_mod_cast Int.one_pos.trans_le (le_max_left 1 _)
  have quotient_nonneg : 0 ≤ (threshold : ℚ) / wholeLtvBps collateralUsd debtUsd * 10000 := by
    positivity
  rw [← halfAway_of_nonneg quotient_nonneg, ← toDecimalPlaces_zero, ← divisor_eq]
  rfl

/-- A rounded quotient is at most a whole number if it lies below the next half. -/
theorem floor_quotient_le_iff (threshold : ℕ) {whole : ℤ} (positive : 0 < whole) (n : ℤ) :
    ⌊(threshold : ℚ) / whole * 10000 + 1 / 2⌋ ≤ n ↔
      20000 * (threshold : ℤ) < (2 * n + 1) * whole := by
  have whole_pos : (0 : ℚ) < whole := by exact_mod_cast positive
  have scaled : (2 * (n : ℚ) + 1) * whole - 20000 * threshold =
      ((n + 1 : ℤ) - (threshold / whole * 10000 + 1 / 2)) * (2 * whole) := by
    push_cast
    field_simp
    ring
  calc
    ⌊(threshold : ℚ) / whole * 10000 + 1 / 2⌋ ≤ n ↔
        (threshold : ℚ) / whole * 10000 + 1 / 2 < (n + 1 : ℤ) := by
      rw [← Int.lt_add_one_iff, Int.floor_lt]
    _ ↔ 20000 * (threshold : ℚ) < (2 * n + 1) * whole := by
      rw [← sub_pos, ← sub_pos (a := (2 * (n : ℚ) + 1) * whole), scaled]
      exact (mul_pos_iff_of_pos_right (by positivity)).symm
    _ ↔ 20000 * (threshold : ℤ) < (2 * n + 1) * whole := by norm_cast

/-- The whole ratio reaches the threshold with the exact one. -/
theorem le_wholeLtvBps {collateralUsd debtUsd : ℚ} (collateral : 0 < collateralUsd)
    {threshold : ℕ} (reached : threshold * collateralUsd ≤ debtUsd * 10000) :
    (threshold : ℤ) ≤ wholeLtvBps collateralUsd debtUsd := by
  apply le_max_of_le_right
  rw [Int.le_floor]
  have le : (threshold : ℚ) ≤ debtUsd / collateralUsd * 10000 := by
    rw [div_mul_eq_mul_div, le_div_iff₀ collateral]
    exact reached
  push_cast
  linarith

/-- A whole ratio above the threshold is half a basis point beyond it. -/
theorem lt_of_lt_wholeLtvBps {collateralUsd debtUsd : ℚ} (collateral : 0 < collateralUsd)
    {threshold : ℕ} (positive : 0 < threshold)
    (above : (threshold : ℤ) < wholeLtvBps collateralUsd debtUsd) :
    threshold * collateralUsd < debtUsd * 10000 := by
  rcases lt_max_iff.mp above with one | floor
  · omega
  · rw [Int.lt_iff_add_one_le, Int.le_floor] at floor
    push_cast at floor
    have lt : (threshold : ℚ) < debtUsd / collateralUsd * 10000 := by linarith
    rwa [div_mul_eq_mul_div, lt_div_iff₀ collateral] at lt

/-- In exact arithmetic a loan with priced collateral, priced debt and an active partial
threshold is flagged if its ratio, rounded to whole basis points and taken as one at
least, reaches the threshold up to the rounding of the health factor.  So it is flagged
wherever the exact ratio has reached the threshold, and a health factor below one means
that the exact ratio is beyond it. -/
theorem liquidatable_iff_wholeLtvBps (toUpperCase : String → String) (prices : Option PriceMap)
    {position : NormalizedPosition} {lending : LendingRiskParameters} {threshold : ℕ}
    {collateralUsd debtUsd : ℚ} (isLoan : position.lending = some lending)
    (partialThreshold : lending.partialLiquidationLtvBps = some threshold)
    (active : 0 < threshold)
    (collateral_eq : sumUsd .exact (valuedAssets .collateral position.assets) = collateralUsd)
    (debt_eq : sumUsd .exact (valuedAssets .debt position.assets) = debtUsd)
    (collateral : 0 < collateralUsd) (debt : 0 < debtUsd) :
    ∃ health : ℚ,
      (deriveLendingMetrics .exact toUpperCase prices position).liquidation.bind
        LiquidationMetrics.healthFactorE4 = some health ∧
      (liquidatable (some health) = true ↔
        20000 * (threshold : ℤ) < 20001 * wholeLtvBps collateralUsd debtUsd) ∧
      (threshold * collateralUsd ≤ debtUsd * 10000 → liquidatable (some health) = true) ∧
      (health < 10000 → threshold * collateralUsd < debtUsd * 10000) := by
  have derived := (deriveLendingMetrics_derived toUpperCase prices isLoan
    (collateral_eq ▸ collateral) (debt_eq ▸ debt)).1
  have isActive : activeThreshold lending = some threshold := by
    rw [activeThreshold, partialThreshold, Option.filter_some, if_pos (decide_eq_true active)]
  have whole_pos : 0 < wholeLtvBps collateralUsd debtUsd :=
    Int.one_pos.trans_le (le_max_left 1 _)
  rw [isActive, collateral_eq, debt_eq, Option.map_some,
    healthFactorE4_exact collateral debt threshold] at derived
  have health_le_iff := floor_quotient_le_iff threshold whole_pos
  have flagged_iff : liquidatable (some ((⌊(threshold : ℚ) /
      wholeLtvBps collateralUsd debtUsd * 10000 + 1 / 2⌋ : ℤ) : ℚ)) = true ↔
        20000 * (threshold : ℤ) < 20001 * wholeLtvBps collateralUsd debtUsd := by
    rw [liquidatable, Option.any_some, decide_eq_true_iff]
    exact_mod_cast health_le_iff 10000
  refine ⟨_, derived, flagged_iff, ?_, ?_⟩
  · intro reached
    have le := le_wholeLtvBps collateral reached
    rw [flagged_iff]
    omega
  · intro below
    have floor_lt := Int.cast_lt.mp (below.trans_eq (Int.cast_ofNat 10000).symm)
    have le := (health_le_iff 9999).mp (Int.le_sub_one_iff.mpr floor_lt)
    apply lt_of_lt_wholeLtvBps collateral active
    omega

/-- A loan owing seventy-nine point nine nine six percent of its collateral. -/
def borderLoan : NormalizedPosition where
  id := "loan"
  protocolId := "zest"
  type := .lending
  assets :=
    [{ assetId := "sbtc", symbol := "sBTC", amountAtomic := 10000000, decimals := 8
       role := .collateral, valueUsd := some 10000 },
      { assetId := "usdcx", symbol := "USDCx", amountAtomic := 7999600000, decimals := 6
        role := .debt, valueUsd := some (79996 / 10) }]
  lending := some { partialLiquidationLtvBps := some 8000 }
  source := { blockHeight := 100, observedAt := 0, exact := true }

/-- It is flagged at a threshold of eighty percent, which its exact ratio has not reached. -/
theorem borderLoan_flagged :
    ¬∀ (position : NormalizedPosition) (lending : LendingRiskParameters) (threshold : ℕ),
      position.lending = some lending →
      lending.partialLiquidationLtvBps = some threshold →
      0 < threshold →
      0 < sumUsd .exact (valuedAssets .collateral position.assets) →
      0 < sumUsd .exact (valuedAssets .debt position.assets) →
      (liquidatable ((deriveLendingMetrics .exact String.toUpper none position).liquidation.bind
          LiquidationMetrics.healthFactorE4) = true ↔
        threshold * sumUsd .exact (valuedAssets .collateral position.assets) ≤
          sumUsd .exact (valuedAssets .debt position.assets) * 10000) := by
  intro exactly
  have flagged := exactly borderLoan { partialLiquidationLtvBps := some 8000 } 8000 rfl rfl
    (by decide) (by decide +kernel) (by decide +kernel)
  exact absurd (flagged.mp (by decide +kernel)) (by decide +kernel)

/-- The general statement at a loan that has reached its threshold to the cent. -/
theorem liquidatable_iff_wholeLtvBps_reached :
    ∃ health : ℚ,
      (deriveLendingMetrics .exact String.toUpper none
        { borderLoan with
          lending := some { partialLiquidationLtvBps := some 7999 } }).liquidation.bind
        LiquidationMetrics.healthFactorE4 = some health ∧
      (liquidatable (some health) = true ↔
        20000 * ((7999 : ℕ) : ℤ) < 20001 * wholeLtvBps 10000 (79996 / 10)) ∧
      (((7999 : ℕ) : ℚ) * 10000 ≤ 79996 / 10 * 10000 → liquidatable (some health) = true) ∧
      (health < 10000 → ((7999 : ℕ) : ℚ) * 10000 < 79996 / 10 * 10000) :=
  liquidatable_iff_wholeLtvBps String.toUpper none rfl rfl (by decide)
    (by decide +kernel) (by decide +kernel) (by norm_num) (by norm_num)

end RiskRail.Engine
