import RiskRail.Engine.Shares

/-!
# What valuation says about loans

An adapter position gets a health factor and a liquidation distance exactly
when its loan has an active partial threshold and both its collateral and its
debt are worth something at the prices given.  This file states that once, and
what the sign of the distance means.
-/

namespace RiskRail.Engine

open RiskRail.Numeric

variable (arithmetic : Arithmetic) (toUpperCase : String → String)

/-- What the priced assets of one role are worth together. -/
def pricedUsd (prices : PriceMap) (role : AssetRole) (position : NormalizedPosition) : ℚ :=
  sumUsd arithmetic
    (valuedAssets role (position.assets.map (valueAsset arithmetic toUpperCase prices)))

/-- The active partial threshold of a loan whose priced collateral and priced
debt are both worth more than zero. -/
def loanThreshold (prices : PriceMap) (position : NormalizedPosition) : Option ℕ :=
  if 0 < pricedUsd arithmetic toUpperCase prices .collateral position ∧
      0 < pricedUsd arithmetic toUpperCase prices .debt position then
    position.lending.bind activeThreshold
  else
    none

/-- The ratio of a loan at the prices. -/
def loanLtvBps (prices : PriceMap) (position : NormalizedPosition) : ℚ :=
  currentLtvBps arithmetic (pricedUsd arithmetic toUpperCase prices .collateral position)
    (pricedUsd arithmetic toUpperCase prices .debt position)

/-- The loan-to-value ratio lies beyond the partial threshold by at least half a
basis point of the threshold. -/
def PastThreshold (prices : PriceMap) (position : NormalizedPosition) : Prop :=
  ∃ threshold ∈ loanThreshold arithmetic toUpperCase prices position,
    1 + 1 / 20000 ≤
      arithmetic.div (arithmetic.ofNumber (loanLtvBps arithmetic toUpperCase prices position))
        (arithmetic.ofNumber threshold)

/-! ## Lending metrics of adapter positions -/

@[simp]
theorem sumUsd_nil : sumUsd arithmetic [] = 0 :=
  rfl

/-- The fields that lending metrics leave alone. -/
theorem deriveLendingMetrics_frame (prices : Option PriceMap) (position : NormalizedPosition) :
    let derived := deriveLendingMetrics arithmetic toUpperCase prices position
    derived.valuation = position.valuation ∧ derived.type = position.type ∧
      derived.protocolId = position.protocolId ∧ derived.liquidBps = position.liquidBps ∧
      derived.id = position.id ∧ derived.source = position.source := by
  unfold deriveLendingMetrics lendingMetrics
  dsimp only
  split
  · simp
  · split
    · simp
    · split <;> simp

theorem deriveLendingMetrics_lending (prices : Option PriceMap) (position : NormalizedPosition) :
    (deriveLendingMetrics arithmetic toUpperCase prices position).lending = position.lending := by
  unfold deriveLendingMetrics lendingMetrics
  dsimp only
  split
  · rfl
  · split
    · rfl
    · split <;> rfl

/-- Lending metrics leave the values alone. -/
theorem deriveLendingMetrics_values (prices : Option PriceMap) (position : NormalizedPosition) :
    (deriveLendingMetrics arithmetic toUpperCase prices position).assets = position.assets ∧
      (deriveLendingMetrics arithmetic toUpperCase prices position).valueUsd =
        position.valueUsd := by
  unfold deriveLendingMetrics lendingMetrics
  dsimp only
  split
  · simp
  · split
    · simp
    · split <;> simp

/-- Without a valued loan nothing is derived. -/
theorem deriveLendingMetrics_liquidation (prices : Option PriceMap)
    (position : NormalizedPosition) (underived : position.liquidation = none) :
    let collateralUsd := sumUsd arithmetic (valuedAssets .collateral position.assets)
    let debtUsd := sumUsd arithmetic (valuedAssets .debt position.assets)
    let ltvBps := currentLtvBps arithmetic collateralUsd debtUsd
    let threshold :=
      if 0 < collateralUsd ∧ 0 < debtUsd then position.lending.bind activeThreshold else none
    let derived := deriveLendingMetrics arithmetic toUpperCase prices position
    derived.liquidation.bind LiquidationMetrics.healthFactorE4 =
        threshold.map (healthFactorE4 arithmetic ltvBps) ∧
      derived.liquidation.bind LiquidationMetrics.distanceBps =
        threshold.map fun threshold =>
          clampDistance (rawDistanceBps arithmetic ltvBps threshold) := by
  unfold deriveLendingMetrics lendingMetrics
  dsimp only
  cases position.lending with
  | none => simp [underived]
  | some lending =>
      dsimp only
      split
      next unvalued =>
        rw [if_neg, underived]
        · simp
        · rcases unvalued with empty | empty <;> simp [empty]
      · split
        next worthless =>
          rw [if_neg, underived]
          · simp
          · rcases worthless with le | le
            · exact fun positive => absurd positive.1 le.not_gt
            · exact fun positive => absurd positive.2 le.not_gt
        next worth =>
          rw [not_or, not_le, not_le] at worth
          rw [if_pos worth]
          exact ⟨rfl, rfl⟩

/-- Health factor and distance of a valued adapter position are those of its
loan, and absent where there is none. -/
theorem valuePosition_liquidation (prices : PriceMap) (adapter : AdapterPosition) :
    let valued := valuePosition arithmetic toUpperCase prices adapter.position
    let threshold := loanThreshold arithmetic toUpperCase prices adapter.position
    let ltvBps := loanLtvBps arithmetic toUpperCase prices adapter.position
    valued.liquidation.bind LiquidationMetrics.healthFactorE4 =
        threshold.map (healthFactorE4 arithmetic ltvBps) ∧
      valued.liquidation.bind LiquidationMetrics.distanceBps =
        threshold.map fun threshold =>
          clampDistance (rawDistanceBps arithmetic ltvBps threshold) :=
  deriveLendingMetrics_liquidation arithmetic toUpperCase (some prices) _ adapter.liquidation_none

/-! ## The sign of the distance -/

variable {arithmetic} in
theorem currentLtvBps_nonneg {collateralUsd debtUsd : ℚ} (collateral : 0 ≤ collateralUsd)
    (debt : 0 ≤ debtUsd) : 0 ≤ currentLtvBps arithmetic collateralUsd debtUsd := by
  apply Arithmetic.toNumber_nonneg
  apply toDecimalPlaces_nonneg
  apply Arithmetic.round_nonneg
  apply mul_nonneg _ (by norm_num)
  exact Arithmetic.round_nonneg (div_nonneg debt collateral)

variable {arithmetic} in
theorem healthFactorE4_nonneg {ltvBps : ℚ} (nonneg : 0 ≤ ltvBps) (threshold : ℕ) :
    0 ≤ healthFactorE4 arithmetic ltvBps threshold := by
  apply Arithmetic.toNumber_nonneg
  apply toDecimalPlaces_nonneg
  apply Arithmetic.round_nonneg
  apply mul_nonneg _ (by norm_num)
  apply Arithmetic.round_nonneg
  apply div_nonneg
  · exact arithmetic.ofNumber_nonneg _ (Nat.cast_nonneg threshold)
  · apply arithmetic.ofNumber_nonneg
    split
    · exact zero_le_one
    · exact nonneg

variable {arithmetic} in
/-- Taking a quotient from one and rounding to basis points gives a negative
number exactly when the quotient exceeds one by half a basis point. -/
theorem oneMinus_bps_neg_iff {quotient : ℚ} (fixed : arithmetic.round quotient = quotient) :
    arithmetic.toNumber (toDecimalPlaces 0 (arithmetic.mul (arithmetic.minus 1 quotient) 10000)) <
        0 ↔ 1 + 1 / 20000 ≤ quotient := by
  have number_neg_iff : ∀ n : ℤ, arithmetic.toNumber n < 0 ↔ n < 0 := by
    intro n
    constructor
    · intro negative
      by_contra nonneg
      have le : (0 : ℚ) ≤ n := by exact_mod_cast not_lt.mp nonneg
      exact absurd (Arithmetic.toNumber_nonneg le) negative.not_ge
    · intro negative
      have le : (n : ℚ) ≤ (-1 : ℤ) := by exact_mod_cast Int.le_sub_one_iff.mpr negative
      calc
        arithmetic.toNumber n ≤ arithmetic.toNumber (-1 : ℤ) := arithmetic.toNumber_monotone le
        _ = (-1 : ℤ) := arithmetic.toNumber_of_safe (-1) (by norm_num)
        _ < 0 := by norm_num
  rw [toDecimalPlaces_zero, number_neg_iff, halfAway_neg_iff, Arithmetic.mul_tenThousand,
    Arithmetic.minus, arithmetic.round_round]
  rcases lt_or_ge quotient 1 with below | above
  · -- The quotient is below one: the difference is positive.
    have nonneg : 0 ≤ arithmetic.round (1 - quotient) := Arithmetic.round_nonneg (by linarith)
    constructor <;> intro le <;> linarith
  · rcases lt_or_ge quotient 10 with close | far
    · -- Up to ten the difference is exact.
      rw [arithmetic.round_one_sub quotient fixed above close]
      constructor <;> intro le <;> linarith
    · have le : arithmetic.round (1 - quotient) ≤ (-9 : ℤ) :=
        Arithmetic.round_le (by norm_num) (by push_cast; linarith)
      push_cast at le
      constructor <;> intro <;> linarith

theorem clampDistance_neg_iff {distanceBps : ℚ} :
    clampDistance distanceBps < 0 ↔ distanceBps < 0 := by
  unfold clampDistance
  rw [max_lt_iff, min_lt_iff]
  norm_num

variable {arithmetic} in
/-- The clamp leaves a whole number. -/
theorem clampDistance_rawDistanceBps (ltvBps : ℚ) (threshold : ℕ) :
    ∃ n : ℤ, -10000 ≤ n ∧ n ≤ 10000 ∧
      clampDistance (rawDistanceBps arithmetic ltvBps threshold) = n := by
  unfold rawDistanceBps
  rw [toDecimalPlaces_zero]
  generalize IntRounding.halfAway.toInt _ = n
  have clamped : clampDistance (arithmetic.toNumber n) = (max (-10000) (min 10000 n) : ℤ) := by
    rcases lt_or_ge |n| (2 ^ 53) with safe | huge
    · rw [arithmetic.toNumber_of_safe n safe, clampDistance]
      push_cast
      rfl
    · rcases le_abs.mp huge with positive | negative
      · have n_le : 10000 ≤ n := le_trans (by norm_num) positive
        have le : ((10000 : ℤ) : ℚ) ≤ n := by exact_mod_cast n_le
        have number_le := arithmetic.toNumber_monotone le
        rw [arithmetic.toNumber_of_safe 10000 (by norm_num)] at number_le
        push_cast at number_le
        rw [clampDistance, min_eq_left number_le, min_eq_left n_le]
        norm_num
      · have n_le : n ≤ -10000 := by linarith
        have le : (n : ℚ) ≤ ((-10000 : ℤ) : ℚ) := by exact_mod_cast n_le
        have number_le := arithmetic.toNumber_monotone le
        rw [arithmetic.toNumber_of_safe (-10000) (by norm_num)] at number_le
        push_cast at number_le
        rw [clampDistance, min_eq_right (by linarith), min_eq_right (by linarith),
          max_eq_left number_le, max_eq_left n_le]
        norm_num
  rw [clamped]
  exact ⟨max (-10000) (min 10000 n), le_max_left _ _, by omega, rfl⟩

/-! ## Gross exposure of valued positions -/

theorem valueTotals_grossExposure (prices : PriceMap) (assets : List PositionAsset) :
    0 ≤ (valueTotals arithmetic toUpperCase prices assets).grossExposure ∧
      arithmetic.round (valueTotals arithmetic toUpperCase prices assets).grossExposure =
        (valueTotals arithmetic toUpperCase prices assets).grossExposure := by
  apply List.foldlRecOn (motive := fun totals : ValueTotals =>
    0 ≤ totals.grossExposure ∧ arithmetic.round totals.grossExposure = totals.grossExposure)
  · exact ⟨le_rfl, Arithmetic.round_zero⟩
  · intro totals sound asset member
    unfold addAsset
    split
    · exact sound
    · exact ⟨Arithmetic.plus_nonneg sound.1 (abs_nonneg _), arithmetic.round_round _⟩

theorem getGrossExposure_valuePosition (prices : PriceMap) (position : NormalizedPosition) :
    getGrossExposure arithmetic (valuePosition arithmetic toUpperCase prices position) =
      toDecimalPlaces 8
        (valueTotals arithmetic toUpperCase prices position.assets).grossExposure := by
  have exposure := valueTotals_grossExposure arithmetic toUpperCase prices position.assets
  unfold getGrossExposure valuePosition
  dsimp only
  rw [(deriveLendingMetrics_frame arithmetic toUpperCase (some prices) _).1]
  exact abs_of_nonneg (toDecimalPlaces_nonneg exposure.1)

theorem hasRoundedExposure_valuePosition (prices : PriceMap) (position : NormalizedPosition) :
    HasRoundedExposure arithmetic (valuePosition arithmetic toUpperCase prices position) := by
  rcases valueTotals_grossExposure arithmetic toUpperCase prices position.assets with
    ⟨nonneg, rounded⟩
  unfold HasRoundedExposure
  rw [getGrossExposure_valuePosition]
  exact ⟨toDecimalPlaces_nonneg nonneg, arithmetic.round_places 8 _ rounded⟩

theorem valueAsset_role (prices : PriceMap) (asset : PositionAsset) :
    (valueAsset arithmetic toUpperCase prices asset).role = asset.role := by
  unfold valueAsset
  split <;> rfl

/-- Valuation prices every asset by itself. -/
theorem valuePosition_assets (prices : PriceMap) (position : NormalizedPosition) :
    (valuePosition arithmetic toUpperCase prices position).assets =
      position.assets.map (valueAsset arithmetic toUpperCase prices) :=
  (deriveLendingMetrics_values arithmetic toUpperCase _ _).1

theorem valuePosition_id (prices : PriceMap) (position : NormalizedPosition) :
    (valuePosition arithmetic toUpperCase prices position).id = position.id :=
  (deriveLendingMetrics_frame arithmetic toUpperCase (some prices) _).2.2.2.2.1

theorem valuePosition_source (prices : PriceMap) (position : NormalizedPosition) :
    (valuePosition arithmetic toUpperCase prices position).source = position.source :=
  (deriveLendingMetrics_frame arithmetic toUpperCase (some prices) _).2.2.2.2.2

theorem valuePosition_liquidBps (prices : PriceMap) (position : NormalizedPosition) :
    (valuePosition arithmetic toUpperCase prices position).liquidBps = position.liquidBps :=
  (deriveLendingMetrics_frame arithmetic toUpperCase (some prices) _).2.2.2.1

end RiskRail.Engine
