import RiskRail.Engine.Position
import RiskRail.Numeric.Decimal

/-!
# Valuing positions

The portfolio engine: atomic amounts become decimal units, units become US
dollars where a quote exists, and a lending position with priced collateral and
priced debt gets its loan-to-value ratio, health factor and distance to
liquidation.  Every decimal operation goes through an `Arithmetic`.
-/

namespace RiskRail.Engine

open RiskRail.Numeric

variable (arithmetic : Arithmetic) (toUpperCase : String → String)

/-! ## Values -/

/-- An amount in whole units. -/
def atomicToDecimal (amountAtomic decimals : ℕ) : ℚ :=
  arithmetic.div amountAtomic (10 ^ decimals)

/-- The unrounded dollar value of an asset at a quote. -/
def assetValue (asset : PositionAsset) (price : PriceLike) : ℚ :=
  arithmetic.mul (atomicToDecimal arithmetic asset.amountAtomic asset.decimals) price.priceUsd

/-- The accumulators of `valuePosition`. -/
structure ValueTotals where
  positiveValue : ℚ
  debtValue : ℚ
  grossExposure : ℚ
  valuedAssetCount : ℕ

/-- Before the first asset. -/
def ValueTotals.zero : ValueTotals :=
  ⟨0, 0, 0, 0⟩

/-- One more value; debt counts on its own. -/
def ValueTotals.add (totals : ValueTotals) (role : AssetRole) (valueUsd : ℚ) : ValueTotals where
  positiveValue :=
    if role = .debt then totals.positiveValue else arithmetic.plus totals.positiveValue valueUsd
  debtValue :=
    if role = .debt then arithmetic.plus totals.debtValue valueUsd else totals.debtValue
  grossExposure := arithmetic.plus totals.grossExposure |valueUsd|
  valuedAssetCount := totals.valuedAssetCount + 1

/-- An asset with its value, where it has a price. -/
def valueAsset (prices : PriceMap) (asset : PositionAsset) : PositionAsset :=
  match priceOf toUpperCase prices asset with
  | none => asset
  | some price =>
      { asset with valueUsd := some (toDecimalPlaces 8 (assetValue arithmetic asset price)) }

/-- An asset without a price is left out. -/
def addAsset (prices : PriceMap) (totals : ValueTotals) (asset : PositionAsset) : ValueTotals :=
  match priceOf toUpperCase prices asset with
  | none => totals
  | some price => totals.add arithmetic asset.role (assetValue arithmetic asset price)

/-- The totals of all assets. -/
def valueTotals (prices : PriceMap) (assets : List PositionAsset) : ValueTotals :=
  assets.foldl (addAsset arithmetic toUpperCase prices) .zero

/-! ## Lending metrics -/

/-- The assets of one role that have a value. -/
def valuedAssets (role : AssetRole) (assets : List PositionAsset) : List PositionAsset :=
  assets.filter fun asset => asset.role = role ∧ asset.valueUsd.isSome

/-- The values added up; a missing one counts as nothing. -/
def sumUsd (assets : List PositionAsset) : ℚ :=
  assets.foldl (fun sum asset => arithmetic.plus sum (asset.valueUsd.getD 0)) 0

/-- Debt over collateral in whole basis points. -/
def currentLtvBps (collateralUsd debtUsd : ℚ) : ℚ :=
  arithmetic.toNumber <| toDecimalPlaces 0 <|
    arithmetic.mul (arithmetic.div debtUsd collateralUsd) 10000

/-- `partialThreshold && partialThreshold > 0`. -/
def activeThreshold (lending : LendingRiskParameters) : Option ℕ :=
  lending.partialLiquidationLtvBps.filter fun threshold => 0 < threshold

/-- Threshold over ratio, in ten thousandths. -/
def healthFactorE4 (ltvBps : ℚ) (partialThreshold : ℕ) : ℚ :=
  let divisor := if ltvBps = 0 then 1 else ltvBps
  arithmetic.toNumber <| toDecimalPlaces 0 <|
    arithmetic.mul
      (arithmetic.div (arithmetic.ofNumber partialThreshold) (arithmetic.ofNumber divisor)) 10000

/-- The collateral-price decline left before the partial threshold, unclamped. -/
def rawDistanceBps (ltvBps : ℚ) (partialThreshold : ℕ) : ℚ :=
  arithmetic.toNumber <| toDecimalPlaces 0 <|
    arithmetic.mul
      (arithmetic.minus 1
        (arithmetic.div (arithmetic.ofNumber ltvBps) (arithmetic.ofNumber partialThreshold))) 10000

/-- The distance, held between -10000 and 10000. -/
def clampDistance (distanceBps : ℚ) : ℚ :=
  max (-10000) (min 10000 distanceBps)

/-- The price of the one collateral at which the threshold is reached. -/
def estimateSingleCollateralLiquidationPrice (asset : PositionAsset) (debtUsd : ℚ)
    (partialThresholdBps : ℕ) (prices : Option PriceMap) : Option ℚ :=
  let units := atomicToDecimal arithmetic asset.amountAtomic asset.decimals
  let threshold := arithmetic.div (arithmetic.ofNumber partialThresholdBps) 10000
  if units ≤ 0 then none
  else if threshold ≤ 0 then none
  -- With a price map, only an asset that has a quote gets an estimate.
  else if prices.any fun prices => (priceOf toUpperCase prices asset).isNone then none
  else some (toDecimalPlaces 8 (arithmetic.div debtUsd (arithmetic.mul units threshold)))

/-- The metrics of a loan whose collateral and debt are both worth something. -/
def lendingMetrics (lending : LendingRiskParameters) (collateralAssets : List PositionAsset)
    (collateralUsd debtUsd : ℚ) (prices : Option PriceMap) (position : NormalizedPosition) :
    NormalizedPosition :=
  let ltvBps := currentLtvBps arithmetic collateralUsd debtUsd
  let threshold := activeThreshold lending
  { position with
    collateral := some
      { valueUsd := toDecimalPlaces 8 collateralUsd
        ratioE4 := ltvBps
        currentLtvBps := ltvBps
        borrowHeadroomBps :=
          lending.borrowLtvBps.map fun borrow => max 0 (toDouble (borrow - ltvBps)) }
    debtUsd := some (toDecimalPlaces 8 debtUsd)
    -- Every field of an earlier `liquidation` is overwritten.
    liquidation := some
      { thresholdE4 := lending.partialLiquidationLtvBps
        partialThresholdBps := lending.partialLiquidationLtvBps
        fullThresholdBps := lending.fullLiquidationLtvBps
        healthFactorE4 := threshold.map (healthFactorE4 arithmetic ltvBps)
        distanceBps := threshold.map fun threshold =>
          clampDistance (rawDistanceBps arithmetic ltvBps threshold)
        priceUsd :=
          match collateralAssets with
          | [asset] => threshold.bind fun threshold =>
              estimateSingleCollateralLiquidationPrice arithmetic toUpperCase asset debtUsd
                threshold prices
          | _ => none } }

/-- A position with lending parameters gets its collateral and liquidation metrics. -/
def deriveLendingMetrics (prices : Option PriceMap) (position : NormalizedPosition) :
    NormalizedPosition :=
  match position.lending with
  | none => position
  | some lending =>
      let collateralAssets := valuedAssets .collateral position.assets
      let debtAssets := valuedAssets .debt position.assets
      if collateralAssets = [] ∨ debtAssets = [] then position
      else
        let collateralUsd := sumUsd arithmetic collateralAssets
        let debtUsd := sumUsd arithmetic debtAssets
        if collateralUsd ≤ 0 ∨ debtUsd ≤ 0 then position
        else
          lendingMetrics arithmetic toUpperCase lending collateralAssets collateralUsd debtUsd
            prices position

/-! ## Positions -/

/-- The position with the values of its assets and its metrics. -/
def valuePosition (prices : PriceMap) (position : NormalizedPosition) : NormalizedPosition :=
  let assets := position.assets.map (valueAsset arithmetic toUpperCase prices)
  let totals := valueTotals arithmetic toUpperCase prices position.assets
  deriveLendingMetrics arithmetic toUpperCase (some prices)
    { position with
      assets := assets
      valueUsd :=
        if 0 < totals.valuedAssetCount then
          some (toDecimalPlaces 8 (arithmetic.minus totals.positiveValue totals.debtValue))
        else
          position.valueUsd
      valuation := some
        { valuedAssets := totals.valuedAssetCount
          totalAssets := assets.length
          grossExposureUsd := toDecimalPlaces 8 totals.grossExposure
          positiveAssetsUsd := toDecimalPlaces 8 totals.positiveValue
          debtUsd := toDecimalPlaces 8 totals.debtValue } }

/-- Each of the positions. -/
def valuePositions (prices : PriceMap) (positions : List NormalizedPosition) :
    List NormalizedPosition :=
  positions.map (valuePosition arithmetic toUpperCase prices)

/-! ## The portfolio -/

/-- `map.set(key, (map.get(key) ?? new Decimal(0)).plus(value))` on a map in
insertion order. -/
def addTo (key : String) (value : ℚ) : List (String × ℚ) → List (String × ℚ)
  | [] => [(key, arithmetic.plus 0 value)]
  | (other, sum) :: rest =>
      if other = key then (other, arithmetic.plus sum value) :: rest
      else (other, sum) :: addTo key value rest

/-- The running sums of `buildPortfolio`. -/
structure PortfolioTotals where
  total : ℚ
  byProtocol : List (String × ℚ)
  byAsset : List (String × ℚ)
  totalAssets : ℕ
  valuedAssets : ℕ

/-- An asset counts, and one with a value is added to its group. -/
def PortfolioTotals.addAsset (totals : PortfolioTotals) (asset : PositionAsset) :
    PortfolioTotals :=
  match asset.valueUsd with
  | none => { totals with totalAssets := totals.totalAssets + 1 }
  | some valueUsd =>
      { totals with
        totalAssets := totals.totalAssets + 1
        valuedAssets := totals.valuedAssets + 1
        byAsset := addTo arithmetic asset.assetId
          (if asset.role = .debt then -valueUsd else valueUsd) totals.byAsset }

/-- A position counts for its protocol, and each of its assets. -/
def PortfolioTotals.addPosition (totals : PortfolioTotals) (position : NormalizedPosition) :
    PortfolioTotals :=
  let valued :=
    match position.valueUsd with
    | none => totals
    | some valueUsd =>
        { totals with
          total := arithmetic.plus totals.total valueUsd
          byProtocol := addTo arithmetic position.protocolId valueUsd totals.byProtocol }
  position.assets.foldl (PortfolioTotals.addAsset arithmetic) valued

/-- What is shown of an account. -/
structure Portfolio where
  owner : String
  positions : List NormalizedPosition
  totalValueUsd : ℚ
  byProtocol : List (String × ℚ)
  byAsset : List (String × ℚ)
  valuationCoverageBps : ℤ
deriving DecidableEq

/-- The positions added up, to the cent. -/
def buildPortfolio (owner : String) (positions : List NormalizedPosition) : Portfolio :=
  let totals := positions.foldl (PortfolioTotals.addPosition arithmetic) ⟨0, [], [], 0, 0⟩
  { owner := owner
    positions := positions
    totalValueUsd := toDecimalPlaces 2 totals.total
    byProtocol := totals.byProtocol.map fun entry => (entry.1, toDecimalPlaces 2 entry.2)
    byAsset := totals.byAsset.map fun entry => (entry.1, toDecimalPlaces 2 entry.2)
    valuationCoverageBps :=
      if totals.totalAssets = 0 then 10000
      else mathRound (toDouble (toDouble (totals.valuedAssets / totals.totalAssets) * 10000)) }

end RiskRail.Engine
