import RiskRail.Engine.Steady

/-!
# Three indicators of a liquidation

Health factor and distance are two roundings of the same whole loan-to-value ratio.  At a
threshold of at most a hundred percent one basis point more or less moves both of them past
their boundary, so they agree with the comparison of ratio and threshold.  A loan whose
distance is used up makes every portfolio with it critical.
-/

namespace RiskRail.Engine

open RiskRail.Numeric

/-! ## The ratio -/

/-- The loan-to-value ratio in whole basis points, ties up. -/
def ratioBps (collateralUsd debtUsd : ℚ) : ℤ :=
  ⌊debtUsd / collateralUsd * 10000 + 1 / 2⌋

section Ratio

variable {collateralUsd debtUsd : ℚ} (collateral : 0 < collateralUsd) (debt : 0 < debtUsd)

include collateral debt

theorem currentLtvBps_exact :
    currentLtvBps .exact collateralUsd debtUsd = ratioBps collateralUsd debtUsd := by
  have ratio_nonneg : 0 ≤ debtUsd / collateralUsd * 10000 := by positivity
  rw [ratioBps, ← halfAway_of_nonneg ratio_nonneg, ← toDecimalPlaces_zero]
  rfl

end Ratio

/-! ## The distance -/

theorem halfAway_nonpos_iff {x : ℚ} : IntRounding.halfAway.toInt x ≤ 0 ↔ x < 1 / 2 := by
  unfold IntRounding.halfAway
  dsimp only
  split
  next nonneg =>
    rw [← Int.lt_add_one_iff, Int.floor_lt]
    push_cast
    constructor <;> intro lt <;> linarith
  next negative =>
    rw [Int.ceil_le]
    push_cast
    constructor <;> intro lt <;> linarith

theorem clampDistance_nonpos_iff {distanceBps : ℚ} :
    clampDistance distanceBps ≤ 0 ↔ distanceBps ≤ 0 := by
  unfold clampDistance
  rw [max_le_iff, min_le_iff]
  norm_num

section Distance

variable {threshold : ℕ} (ratio : ℤ)

theorem rawDistanceBps_exact :
    rawDistanceBps .exact ratio threshold =
      (IntRounding.halfAway.toInt ((1 - (ratio : ℚ) / threshold) * 10000) : ℤ) :=
  toDecimalPlaces_zero _

variable (active : 0 < threshold)

include active

theorem oneMinus_eq :
    (1 - (ratio : ℚ) / threshold) * 10000 = (threshold - ratio) * 10000 / threshold := by
  have positive : (0 : ℚ) < threshold := by exact_mod_cast active
  field_simp

/-- The distance is used up half a basis point of the threshold before the ratio. -/
theorem distance_nonpos_iff :
    clampDistance (rawDistanceBps .exact ratio threshold) ≤ 0 ↔
      19999 * (threshold : ℤ) < 20000 * ratio := by
  have positive : (0 : ℚ) < threshold := by exact_mod_cast active
  rw [clampDistance_nonpos_iff, rawDistanceBps_exact, ← Int.cast_zero, Int.cast_le,
    halfAway_nonpos_iff, oneMinus_eq ratio active, div_lt_iff₀ positive]
  constructor
  · intro lt
    have scaled : (19999 : ℚ) * threshold < 20000 * ratio := by linarith
    exact_mod_cast scaled
  · intro lt
    have scaled : (19999 : ℚ) * threshold < 20000 * ratio := by exact_mod_cast lt
    linarith

theorem distance_neg_iff :
    clampDistance (rawDistanceBps .exact ratio threshold) < 0 ↔
      20001 * (threshold : ℤ) ≤ 20000 * ratio := by
  have positive : (0 : ℚ) < threshold := by exact_mod_cast active
  rw [clampDistance_neg_iff, rawDistanceBps_exact, ← Int.cast_zero, Int.cast_lt, halfAway_neg_iff,
    oneMinus_eq ratio active, div_le_iff₀ positive]
  constructor
  · intro le
    have scaled : (20001 : ℚ) * threshold ≤ 20000 * ratio := by linarith
    exact_mod_cast scaled
  · intro le
    have scaled : (20001 : ℚ) * threshold ≤ 20000 * ratio := by exact_mod_cast le
    linarith

end Distance

/-! ## Critical portfolios -/

/-- A distance that is used up comes with a health factor in the critical band. -/
def Flagged (position : NormalizedPosition) : Prop :=
  ∀ distance ∈ position.liquidation.bind LiquidationMetrics.distanceBps, distance ≤ 0 →
    ∃ health ∈ position.liquidation.bind LiquidationMetrics.healthFactorE4, health < 12000

/-- The positions whose lending metrics were derived by the engine, once or several times
over: valuation starts without any, and a stressed position starts with those of the
position it was. -/
inductive Derived (toUpperCase : String → String) : NormalizedPosition → Prop where
  | fresh {position : NormalizedPosition} (underived : position.liquidation = none) :
      Derived toUpperCase position
  | derive {earlier position : NormalizedPosition} (prices : Option PriceMap)
      (derived : Derived toUpperCase earlier)
      (kept : position.liquidation = earlier.liquidation) :
      Derived toUpperCase (deriveLendingMetrics .exact toUpperCase prices position)

section Critical

variable {toUpperCase : String → String}

/-- The metrics of a valued loan are flagged, whatever its threshold. -/
theorem flagged_of_ratio {collateralUsd debtUsd : ℚ} (collateral : 0 < collateralUsd)
    (debt : 0 < debtUsd) {threshold : ℕ} (active : 0 < threshold)
    (reached : clampDistance (rawDistanceBps .exact
      (currentLtvBps .exact collateralUsd debtUsd) threshold) ≤ 0) :
    healthFactorE4 .exact (currentLtvBps .exact collateralUsd debtUsd) threshold < 12000 := by
  rw [currentLtvBps_exact collateral debt, distance_nonpos_iff _ active] at reached
  rw [healthFactorE4_exact collateral debt]
  have whole_pos : 0 < wholeLtvBps collateralUsd debtUsd :=
    Int.one_pos.trans_le (le_max_left 1 _)
  have ratio_le : ratioBps collateralUsd debtUsd ≤ wholeLtvBps collateralUsd debtUsd :=
    le_max_right 1 _
  have health_le : ⌊(threshold : ℚ) / wholeLtvBps collateralUsd debtUsd * 10000 + 1 / 2⌋ ≤
      11999 := by
    rw [floor_quotient_le_iff threshold whole_pos]
    omega
  have health_lt : ⌊(threshold : ℚ) / wholeLtvBps collateralUsd debtUsd * 10000 + 1 / 2⌋ <
      12000 := by
    omega
  exact_mod_cast health_lt

theorem Derived.flagged {position : NormalizedPosition} (derived : Derived toUpperCase position) :
    Flagged position := by
  induction derived with
  | fresh underived =>
      intro distance found
      rw [underived] at found
      cases found
  | @derive earlier position prices derived kept ih =>
      rw [Flagged, ← kept] at ih
      cases isLoan : position.lending with
      | none =>
          have same : deriveLendingMetrics .exact toUpperCase prices position = position := by
            rw [deriveLendingMetrics, isLoan]
          rw [same]
          exact ih
      | some lending =>
          by_cases worth : 0 < sumUsd .exact (valuedAssets .collateral position.assets) ∧
              0 < sumUsd .exact (valuedAssets .debt position.assets)
          · have metrics := deriveLendingMetrics_derived toUpperCase prices isLoan
              worth.1 worth.2
            intro distance found reached
            rw [metrics.2] at found
            obtain ⟨threshold, isActive, rfl⟩ := Option.map_eq_some_iff.mp found
            have active : 0 < threshold := by
              simpa using (Option.filter_eq_some_iff.mp isActive).2
            refine ⟨_, ?_, flagged_of_ratio worth.1 worth.2 active reached⟩
            rw [metrics.1, isActive, Option.map_some]
            exact rfl
          · rw [not_and_or, not_lt, not_lt] at worth
            rw [deriveLendingMetrics_kept toUpperCase prices worth]
            exact ih

/-- A health factor in the critical band makes a portfolio critical. -/
theorem riskLevel_of_flagged {positions : List NormalizedPosition}
    {position : NormalizedPosition} (member : position ∈ positions) (flagged : Flagged position)
    {distance : ℚ}
    (found : position.liquidation.bind LiquidationMetrics.distanceBps = some distance)
    (reached : distance ≤ 0) :
    (calculatePortfolioRisk .exact toUpperCase positions).riskLevel = .critical := by
  obtain ⟨health, has_health, low⟩ := flagged distance found reached
  have listed : some health ∈ positions.map fun position =>
      position.liquidation.bind LiquidationMetrics.healthFactorE4 :=
    List.mem_map.mpr ⟨position, member, has_health⟩
  cases worst : smallest (positions.map fun position =>
      position.liquidation.bind LiquidationMetrics.healthFactorE4) with
  | none => exact absurd (smallest_eq_none_iff.mp worst _ listed) (Option.some_ne_none _)
  | some least =>
      have le := (smallest_eq_some worst).2 health listed
      rw [riskLevel_of_health worst, classifyHealthFactor, if_pos (le.trans_lt low)]

end Critical

/-! ## Agreement -/

/-- The ratio that comes with the metrics of a valued loan. -/
theorem deriveLendingMetrics_ratio (toUpperCase : String → String) (prices : Option PriceMap)
    {position : NormalizedPosition} {lending : LendingRiskParameters}
    (isLoan : position.lending = some lending)
    (collateral : 0 < sumUsd .exact (valuedAssets .collateral position.assets))
    (debt : 0 < sumUsd .exact (valuedAssets .debt position.assets)) :
    (deriveLendingMetrics .exact toUpperCase prices position).collateral.map
        CollateralMetrics.currentLtvBps =
      some (currentLtvBps .exact (sumUsd .exact (valuedAssets .collateral position.assets))
        (sumUsd .exact (valuedAssets .debt position.assets))) := by
  have valued : ∀ role, 0 < sumUsd .exact (valuedAssets role position.assets) →
      valuedAssets role position.assets ≠ [] := by
    intro role positive empty
    rw [empty] at positive
    exact positive.ne rfl
  unfold deriveLendingMetrics
  rw [isLoan]
  dsimp only
  rw [if_neg (not_or.mpr ⟨valued _ collateral, valued _ debt⟩),
    if_neg (not_or.mpr ⟨not_le.mpr collateral, not_le.mpr debt⟩)]
  rfl

/-- The health factor, the distance and the ratio are on the same side of the threshold. -/
theorem threshold_sides {threshold : ℕ} (lower : 1 < threshold) (upper : threshold ≤ 10000)
    (ratio : ℤ) :
    ((⌊(threshold : ℚ) / (max 1 ratio : ℤ) * 10000 + 1 / 2⌋ : ℚ) ≤ 10000 ↔
      clampDistance (rawDistanceBps .exact ratio threshold) ≤ 0) ∧
    (clampDistance (rawDistanceBps .exact ratio threshold) ≤ 0 ↔ (threshold : ℚ) ≤ ratio) ∧
    ((⌊(threshold : ℚ) / (max 1 ratio : ℤ) * 10000 + 1 / 2⌋ : ℚ) < 10000 ↔
      clampDistance (rawDistanceBps .exact ratio threshold) < 0) ∧
    (clampDistance (rawDistanceBps .exact ratio threshold) < 0 ↔ (threshold : ℚ) < ratio) := by
  have active : 0 < threshold := by omega
  have whole_pos : 0 < max 1 ratio := Int.one_pos.trans_le (le_max_left 1 _)
  have health_le := floor_quotient_le_iff threshold whole_pos 10000
  have health_lt := floor_quotient_le_iff threshold whole_pos 9999
  generalize ⌊(threshold : ℚ) / (max 1 ratio : ℤ) * 10000 + 1 / 2⌋ = health
    at health_le health_lt ⊢
  have health_le_iff : (health : ℚ) ≤ 10000 ↔ health ≤ 10000 := by norm_cast
  have health_lt_iff : (health : ℚ) < 10000 ↔ health ≤ 9999 := by
    rw [← Int.lt_add_one_iff]
    norm_cast
  have ratio_le_iff : (threshold : ℚ) ≤ ratio ↔ (threshold : ℤ) ≤ ratio := by norm_cast
  have ratio_lt_iff : (threshold : ℚ) < ratio ↔ (threshold : ℤ) < ratio := by norm_cast
  rw [distance_nonpos_iff ratio active, distance_neg_iff ratio active, health_le_iff, health_lt_iff,
    health_le, health_lt, ratio_le_iff, ratio_lt_iff]
  refine ⟨?_, ?_, ?_, ?_⟩ <;> omega

/-- In exact arithmetic, at a partial threshold of more than one basis point and at most a
hundred percent, the health factor is at most one if and only if the distance is at most
zero, and if and only if the ratio has reached the threshold; strictly so likewise.  A
distance of at most zero makes every portfolio with the position critical. -/
theorem indicators_agree (toUpperCase : String → String) :
    (∀ (prices : Option PriceMap) (position : NormalizedPosition)
      (lending : LendingRiskParameters) (threshold : ℕ),
      position.lending = some lending →
      lending.partialLiquidationLtvBps = some threshold → 1 < threshold → threshold ≤ 10000 →
      0 < sumUsd .exact (valuedAssets .collateral position.assets) →
      0 < sumUsd .exact (valuedAssets .debt position.assets) →
      let derived := deriveLendingMetrics .exact toUpperCase prices position
      ∃ ratio health distance : ℚ,
        derived.collateral.map CollateralMetrics.currentLtvBps = some ratio ∧
        derived.liquidation.bind LiquidationMetrics.healthFactorE4 = some health ∧
        derived.liquidation.bind LiquidationMetrics.distanceBps = some distance ∧
        (health ≤ 10000 ↔ distance ≤ 0) ∧ (distance ≤ 0 ↔ threshold ≤ ratio) ∧
        (health < 10000 ↔ distance < 0) ∧ (distance < 0 ↔ threshold < ratio)) ∧
    ∀ position : NormalizedPosition, Derived toUpperCase position →
      ∀ distance : ℚ,
        position.liquidation.bind LiquidationMetrics.distanceBps = some distance →
        distance ≤ 0 →
        ∀ positions : List NormalizedPosition, position ∈ positions →
          (calculatePortfolioRisk .exact toUpperCase positions).riskLevel = .critical := by
  constructor
  · intro prices position lending threshold isLoan partialThreshold lower upper collateral debt
      derived
    have active : 0 < threshold := by omega
    have isActive : activeThreshold lending = some threshold := by
      rw [activeThreshold, partialThreshold, Option.filter_some, if_pos (decide_eq_true active)]
    obtain ⟨health_eq, distance_eq⟩ :=
      deriveLendingMetrics_derived toUpperCase prices isLoan collateral debt
    have ratio_eq := deriveLendingMetrics_ratio toUpperCase prices isLoan collateral debt
    rw [isActive, Option.map_some, healthFactorE4_exact collateral debt] at health_eq
    rw [isActive, Option.map_some, currentLtvBps_exact collateral debt] at distance_eq
    rw [currentLtvBps_exact collateral debt] at ratio_eq
    exact ⟨_, _, _, ratio_eq, health_eq, distance_eq, threshold_sides lower upper _⟩
  · intro position derived distance found reached positions member
    exact riskLevel_of_flagged member derived.flagged found reached

/-- A loan at its threshold to the cent. -/
theorem indicators_agree_borderLoan :
    (calculatePortfolioRisk .exact String.toUpper
      [deriveLendingMetrics .exact String.toUpper none borderLoan, halfLoan]).riskLevel =
        .critical ∧
    ∃ ratio health distance : ℚ,
      (deriveLendingMetrics .exact String.toUpper none borderLoan).collateral.map
        CollateralMetrics.currentLtvBps = some ratio ∧
      (deriveLendingMetrics .exact String.toUpper none borderLoan).liquidation.bind
        LiquidationMetrics.healthFactorE4 = some health ∧
      (deriveLendingMetrics .exact String.toUpper none borderLoan).liquidation.bind
        LiquidationMetrics.distanceBps = some distance ∧
      (health ≤ 10000 ↔ distance ≤ 0) ∧ (distance ≤ 0 ↔ ((8000 : ℕ) : ℚ) ≤ ratio) ∧
      (health < 10000 ↔ distance < 0) ∧ (distance < 0 ↔ ((8000 : ℕ) : ℚ) < ratio) :=
  ⟨(indicators_agree String.toUpper).2 _ (.derive none (.fresh rfl) rfl) 0 (by decide +kernel)
      le_rfl _ List.mem_cons_self,
    (indicators_agree String.toUpper).1 none borderLoan _ 8000 rfl rfl (by decide) (by decide)
      (by decide +kernel) (by decide +kernel)⟩

end RiskRail.Engine
