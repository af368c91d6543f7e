import RiskRail.Engine.Loan

/-!
# What the risk of a portfolio depends on

The total value, the concentration by protocol, the accessibility and the score of
a portfolio read of every position its value, its protocol, its priced size and its
loan, and nothing of the single assets.
-/

namespace RiskRail.Engine

open RiskRail.Numeric

variable (arithmetic : Arithmetic) (toUpperCase : String → String)

/-- What the summary takes from a position. -/
structure RiskInputs where
  valueUsd : Option ℚ
  protocolId : String
  type : PositionType
  grossExposure : ℚ
  liquidBps : Option ℕ
  healthFactorE4 : Option ℚ
deriving DecidableEq

/-- The inputs of one position. -/
def riskInputs (position : NormalizedPosition) : RiskInputs where
  valueUsd := position.valueUsd
  protocolId := position.protocolId
  type := position.type
  grossExposure := getGrossExposure arithmetic position
  liquidBps := position.liquidBps
  healthFactorE4 := position.liquidation.bind LiquidationMetrics.healthFactorE4

/-- Two portfolios whose total and risk are the same. -/
structure SameRisk (first second : Portfolio) : Prop where
  totalValueUsd : first.totalValueUsd = second.totalValueUsd
  protocolConcentrationBps :
    (calculatePortfolioRisk arithmetic toUpperCase first.positions).protocolConcentrationBps =
      (calculatePortfolioRisk arithmetic toUpperCase second.positions).protocolConcentrationBps
  capitalAccessibilityBps :
    (calculatePortfolioRisk arithmetic toUpperCase first.positions).capitalAccessibilityBps =
      (calculatePortfolioRisk arithmetic toUpperCase second.positions).capitalAccessibilityBps
  riskScoreBps :
    (calculatePortfolioRisk arithmetic toUpperCase first.positions).riskScoreBps =
      (calculatePortfolioRisk arithmetic toUpperCase second.positions).riskScoreBps

variable {arithmetic toUpperCase} {positions others : List NormalizedPosition} {owner : String}

theorem foldl_addAsset_total (assets : List PositionAsset) (totals : PortfolioTotals) :
    (assets.foldl (PortfolioTotals.addAsset arithmetic) totals).total = totals.total := by
  induction assets generalizing totals with
  | nil => rfl
  | cons asset rest ih =>
      rw [List.foldl_cons, ih]
      unfold PortfolioTotals.addAsset
      split <;> rfl

theorem addPosition_total (totals : PortfolioTotals) (position : NormalizedPosition) :
    (totals.addPosition arithmetic position).total =
      match position.valueUsd with
      | none => totals.total
      | some valueUsd => arithmetic.plus totals.total valueUsd := by
  unfold PortfolioTotals.addPosition
  rw [foldl_addAsset_total]
  cases position.valueUsd <;> rfl

/-- The total is a sum over the inputs. -/
theorem foldl_addPosition_total (totals : PortfolioTotals) :
    (positions.foldl (PortfolioTotals.addPosition arithmetic) totals).total =
      (positions.map (riskInputs arithmetic)).foldl
        (fun total inputs =>
          match inputs.valueUsd with
          | none => total
          | some valueUsd => arithmetic.plus total valueUsd)
        totals.total := by
  induction positions generalizing totals with
  | nil => rfl
  | cons position rest ih =>
      rw [List.foldl_cons, ih, addPosition_total]
      rfl

theorem totalValueUsd_eq (same : positions.map (riskInputs arithmetic) =
    others.map (riskInputs arithmetic)) :
    (buildPortfolio arithmetic owner positions).totalValueUsd =
      (buildPortfolio arithmetic owner others).totalValueUsd := by
  unfold buildPortfolio
  dsimp only
  rw [foldl_addPosition_total, foldl_addPosition_total, same]

theorem protocolTotals_eq (same : positions.map (riskInputs arithmetic) =
    others.map (riskInputs arithmetic)) :
    protocolTotals arithmetic positions = protocolTotals arithmetic others := by
  have ofInputs : ∀ list : List NormalizedPosition,
      protocolTotals arithmetic list =
        (list.map (riskInputs arithmetic)).foldl
          (fun totals inputs =>
            { total := arithmetic.plus totals.total inputs.grossExposure
              grouped :=
                if inputs.type = .wallet ∨ inputs.grossExposure ≤ 0 then totals.grouped
                else addTo arithmetic inputs.protocolId inputs.grossExposure totals.grouped })
          ⟨[], 0⟩ := by
    intro list
    rw [List.foldl_map]
    rfl
  rw [ofInputs, ofInputs, same]

theorem accessTotals_eq (same : positions.map (riskInputs arithmetic) =
    others.map (riskInputs arithmetic)) :
    accessTotals arithmetic positions = accessTotals arithmetic others := by
  have ofInputs : ∀ list : List NormalizedPosition,
      accessTotals arithmetic list =
        (list.map (riskInputs arithmetic)).foldl
          (fun totals inputs =>
            if inputs.grossExposure ≤ 0 then totals
            else
              { total := arithmetic.plus totals.total inputs.grossExposure
                weighted := arithmetic.plus totals.weighted
                  (arithmetic.mul inputs.grossExposure
                    (arithmetic.ofNumber (inputs.liquidBps.getD 10000 : ℕ))) })
          ⟨0, 0⟩ := by
    intro list
    rw [List.foldl_map]
    rfl
  rw [ofInputs, ofInputs, same]

theorem sameRisk_of_riskInputs (same : positions.map (riskInputs arithmetic) =
    others.map (riskInputs arithmetic)) :
    SameRisk arithmetic toUpperCase (buildPortfolio arithmetic owner positions)
      (buildPortfolio arithmetic owner others) := by
  have protocol : protocolConcentration arithmetic positions =
      protocolConcentration arithmetic others := by
    rw [protocolConcentration, protocolConcentration, protocolTotals_eq same]
  have accessibility : capitalAccessibilityBps arithmetic positions =
      capitalAccessibilityBps arithmetic others := by
    rw [capitalAccessibilityBps, capitalAccessibilityBps, accessTotals_eq same]
  have health : positions.map (fun position =>
        position.liquidation.bind LiquidationMetrics.healthFactorE4) =
      others.map fun position => position.liquidation.bind LiquidationMetrics.healthFactorE4 := by
    have healths := congrArg (List.map RiskInputs.healthFactorE4) same
    rw [List.map_map, List.map_map] at healths
    exact healths
  constructor
  · exact totalValueUsd_eq same
  · exact congrArg ConcentrationResult.topShareBps protocol
  · exact accessibility
  · simp only [calculatePortfolioRisk, buildPortfolio, protocol, accessibility, health]

/-! ## Unpriced assets -/

variable {prices : PriceMap}

/-- An asset without a price adds nothing. -/
theorem valueTotals_insert {asset : PositionAsset} (first last : List PositionAsset)
    (unpriced : priceOf toUpperCase prices asset = none) :
    valueTotals arithmetic toUpperCase prices (first ++ asset :: last) =
      valueTotals arithmetic toUpperCase prices (first ++ last) := by
  have skipped : ∀ totals, addAsset arithmetic toUpperCase prices totals asset = totals := by
    intro totals
    rw [addAsset, unpriced]
  unfold valueTotals
  rw [List.foldl_append, List.foldl_cons, skipped, List.foldl_append]

/-- Without a loan, a position is read as its priced assets add up. -/
theorem riskInputs_valuePosition {first second : NormalizedPosition}
    (assets : valueTotals arithmetic toUpperCase prices first.assets =
      valueTotals arithmetic toUpperCase prices second.assets)
    (firstLoan : first.lending = none) (secondLoan : second.lending = none)
    (others : (first.valueUsd, first.protocolId, first.type, first.liquidBps, first.liquidation) =
      (second.valueUsd, second.protocolId, second.type, second.liquidBps, second.liquidation)) :
    riskInputs arithmetic (valuePosition arithmetic toUpperCase prices first) =
      riskInputs arithmetic (valuePosition arithmetic toUpperCase prices second) := by
  simp only [Prod.mk.injEq] at others
  rcases others with ⟨valueUsd, protocolId, type, liquidBps, liquidation⟩
  simp only [valuePosition, deriveLendingMetrics, firstLoan, secondLoan, riskInputs,
    getGrossExposure, assets, valueUsd, protocolId, type, liquidBps, liquidation]

theorem valueAsset_assetId (asset : PositionAsset) :
    (valueAsset arithmetic toUpperCase prices asset).assetId = asset.assetId := by
  unfold valueAsset
  split <;> rfl

/-- An asset gets a value exactly if it has a price. -/
theorem valueAsset_eq_none_iff {asset : PositionAsset} (unvalued : asset.valueUsd = none) :
    (valueAsset arithmetic toUpperCase prices asset).valueUsd = none ↔
      priceOf toUpperCase prices asset = none := by
  unfold valueAsset
  cases priceOf toUpperCase prices asset with
  | none => simpa using unvalued
  | some price => simp

end RiskRail.Engine
