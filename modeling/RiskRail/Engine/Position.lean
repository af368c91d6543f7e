import Mathlib.Data.List.Basic
import Mathlib.Data.Rat.Defs

/-!
# Positions and prices

The normalized position every adapter returns, and the price map the oracle
returns.  A decimal string is represented by the rational it denotes and an
atomic amount by the natural number; fields that no modelled function reads are
left out.
-/

namespace RiskRail.Engine

/-- What kind of position it is. -/
inductive PositionType where
  | wallet
  | stream
  | lending
  | borrowing
  | liquidity
  | staking
  | vault
deriving DecidableEq

/-- What an asset is to its position. -/
inductive AssetRole where
  | asset
  | collateral
  | debt
  | reward
  | locked
deriving DecidableEq

/-- An asset of a position. -/
structure PositionAsset where
  assetId : String
  symbol : String
  amountAtomic : ℕ
  decimals : ℕ
  role : AssetRole
  valueUsd : Option ℚ := none
deriving DecidableEq

/-- What a protocol says about a loan. -/
structure LendingRiskParameters where
  borrowLtvBps : Option ℕ := none
  partialLiquidationLtvBps : Option ℕ := none
  fullLiquidationLtvBps : Option ℕ := none
deriving DecidableEq

/-- How a loan is covered. -/
structure CollateralMetrics where
  valueUsd : ℚ
  ratioE4 : ℚ
  currentLtvBps : ℚ
  borrowHeadroomBps : Option ℚ
deriving DecidableEq

/-- How far a loan is from its liquidation. -/
structure LiquidationMetrics where
  thresholdE4 : Option ℕ
  priceUsd : Option ℚ
  healthFactorE4 : Option ℚ
  distanceBps : Option ℚ
  partialThresholdBps : Option ℕ
  fullThresholdBps : Option ℕ
deriving DecidableEq

/-- `metadata.valuation`. -/
structure Valuation where
  valuedAssets : ℕ
  totalAssets : ℕ
  grossExposureUsd : ℚ
  positiveAssetsUsd : ℚ
  debtUsd : ℚ
deriving DecidableEq

/-- Where and when a position was read. -/
structure PositionSource where
  blockHeight : ℕ
  observedAt : ℕ
  exact : Bool
deriving DecidableEq

/-- A position as every adapter returns it. -/
structure NormalizedPosition where
  id : String
  protocolId : String
  type : PositionType
  assets : List PositionAsset
  valueUsd : Option ℚ := none
  collateral : Option CollateralMetrics := none
  debtUsd : Option ℚ := none
  liquidation : Option LiquidationMetrics := none
  lending : Option LendingRiskParameters := none
  /-- `accessibility.liquidBps`. -/
  liquidBps : Option ℕ := none
  source : PositionSource
  valuation : Option Valuation := none
deriving DecidableEq

/-- A position as the adapters return it: nothing is valued yet, and the liquid
share is a share. -/
structure AdapterPosition where
  position : NormalizedPosition
  valueUsd_none : position.valueUsd = none
  collateral_none : position.collateral = none
  debtUsd_none : position.debtUsd = none
  liquidation_none : position.liquidation = none
  valuation_none : position.valuation = none
  assets_none : ∀ asset ∈ position.assets, asset.valueUsd = none
  liquidBps_le : ∀ share ∈ position.liquidBps, share ≤ 10000

/-- A quote, as far as valuation reads it. -/
structure PriceLike where
  assetId : String
  priceUsd : ℚ
deriving DecidableEq

/-- A JavaScript `Map` from asset ids to quotes, in insertion order. -/
structure PriceMap where
  entries : List (String × PriceLike)
  distinct : (entries.map Prod.fst).Nodup

namespace PriceMap

/-- No prices. -/
def empty : PriceMap where
  entries := []
  distinct := List.nodup_nil

theorem ext_entries {first second : PriceMap} (same : first.entries = second.entries) :
    first = second := by
  cases first
  cases second
  cases same
  rfl

/-- The price under an id. -/
def get (prices : PriceMap) (assetId : String) : Option PriceLike :=
  prices.entries.lookup assetId

/-- All prices, in order. -/
def values (prices : PriceMap) : List PriceLike :=
  prices.entries.map Prod.snd

end PriceMap

/-- The first quote whose asset id is the symbol, whatever the case. -/
def findPriceBySymbol (toUpperCase : String → String) (prices : PriceMap)
    (symbol : String) : Option PriceLike :=
  prices.values.find? fun quote => toUpperCase quote.assetId = toUpperCase symbol

/-- `prices.get(asset.assetId) ?? findPriceBySymbol(prices, asset.symbol)`. -/
def priceOf (toUpperCase : String → String) (prices : PriceMap) (asset : PositionAsset) :
    Option PriceLike :=
  (prices.get asset.assetId).or (findPriceBySymbol toUpperCase prices asset.symbol)

/-- An asset has no price if neither its identifier nor its symbol is that of a quote. -/
theorem priceOf_eq_none_iff {toUpperCase : String → String} {prices : PriceMap}
    (keys : ∀ entry ∈ prices.entries, entry.2.assetId = entry.1) {asset : PositionAsset} :
    priceOf toUpperCase prices asset = none ↔
      (¬∃ entry ∈ prices.entries, entry.1 = asset.assetId) ∧
        ¬∃ entry ∈ prices.entries, toUpperCase entry.1 = toUpperCase asset.symbol := by
  rw [priceOf, Option.or_eq_none_iff]
  apply and_congr
  · rw [PriceMap.get, List.lookup_eq_none_iff]
    simp only [bne_iff_ne, not_exists, not_and, ne_comm]
  · rw [findPriceBySymbol, List.find?_eq_none, PriceMap.values, List.forall_mem_map]
    simp only [decide_eq_true_eq, not_exists, not_and]
    apply forall₂_congr
    intro entry member
    rw [keys entry member]

end RiskRail.Engine
