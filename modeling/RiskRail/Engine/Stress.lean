import RiskRail.Engine.Loan

/-!
# Stress testing

`stressPosition` multiplies the values of a valued position by the shocks of a
scenario.  A shock is matched by asset id, then by symbol, and bitcoin and its bridged
form share theirs.  Net values are read off the accumulators.
-/

namespace RiskRail.Engine

open RiskRail.Numeric

/-! ## The scenario -/

/-- A change of one asset's price, by id or by symbol. -/
structure PriceShock where
  assetId : Option String
  symbol : Option String
  changeBps : ℤ
deriving DecidableEq

variable (toLowerCase : String → String)

/-- `['btc', 'sbtc'].includes(..)`. -/
def isBitcoin (symbol : String) : Bool :=
  ["btc", "sbtc"].contains symbol

/-- The change for an asset; its id goes before its symbol. -/
def resolveShock (assetId symbol : String) (shocks : List PriceShock) : ℤ :=
  match shocks.find? fun shock =>
    shock.assetId.map toLowerCase = some (toLowerCase assetId) with
  | some byId => byId.changeBps
  | none =>
      match shocks.find? fun shock =>
        shock.symbol.map toLowerCase = some (toLowerCase symbol) with
      | some bySymbol => bySymbol.changeBps
      | none =>
          -- BTC and sBTC are linked.
          if isBitcoin (toLowerCase symbol) then
            ((shocks.find? fun shock =>
              isBitcoin ((shock.symbol.map toLowerCase).getD "")).map PriceShock.changeBps).getD 0
          else
            0

/-- A change is that of one of the shocks, or none. -/
theorem resolveShock_eq_zero_or (assetId symbol : String) (shocks : List PriceShock) :
    resolveShock toLowerCase assetId symbol shocks = 0 ∨
      ∃ shock ∈ shocks, resolveShock toLowerCase assetId symbol shocks = shock.changeBps := by
  unfold resolveShock
  split
  next shock found => exact .inr ⟨shock, List.mem_of_find?_eq_some found, rfl⟩
  next =>
    split
    next shock found => exact .inr ⟨shock, List.mem_of_find?_eq_some found, rfl⟩
    next =>
      split
      · generalize found : shocks.find? _ = linked
        cases linked with
        | none => exact .inl rfl
        | some shock => exact .inr ⟨shock, List.mem_of_find?_eq_some found, rfl⟩
      · exact .inl rfl

variable (arithmetic : Arithmetic) (toUpperCase : String → String)

/-- `new Decimal(10_000 + shock).div(10_000)`. -/
def shockMultiplier (shocks : List PriceShock) (asset : PositionAsset) : ℚ :=
  arithmetic.div
    (arithmetic.ofNumber
      ((10000 + resolveShock toLowerCase asset.assetId asset.symbol shocks : ℤ) : ℚ)) 10000

/-- The unrounded value of a valued asset under the shocks. -/
def stressValue (shocks : List PriceShock) (asset : PositionAsset) : Option ℚ :=
  asset.valueUsd.map fun valueUsd =>
    arithmetic.mul valueUsd (shockMultiplier toLowerCase arithmetic shocks asset)

/-- The asset at its shocked value; one without a value stays. -/
def stressAsset (shocks : List PriceShock) (asset : PositionAsset) : PositionAsset :=
  match stressValue toLowerCase arithmetic shocks asset with
  | none => asset
  | some valueUsd => { asset with valueUsd := some (toDecimalPlaces 8 valueUsd) }

/-- Add an asset that has a value to the accumulators. -/
def addValued (value : PositionAsset → Option ℚ) (totals : ValueTotals) (asset : PositionAsset) :
    ValueTotals :=
  match value asset with
  | none => totals
  | some valueUsd => totals.add arithmetic asset.role valueUsd

/-- The accumulators of `stressPosition`; it keeps no count. -/
def stressTotals (shocks : List PriceShock) (assets : List PositionAsset) : ValueTotals :=
  assets.foldl (addValued arithmetic (stressValue toLowerCase arithmetic shocks)) .zero

/-- The position at its shocked values. -/
def stressPosition (shocks : List PriceShock) (position : NormalizedPosition) :
    NormalizedPosition :=
  let totals := stressTotals toLowerCase arithmetic shocks position.assets
  deriveLendingMetrics arithmetic toUpperCase none
    { position with
      assets := position.assets.map (stressAsset toLowerCase arithmetic shocks)
      valueUsd :=
        some (toDecimalPlaces 8 (arithmetic.minus totals.positiveValue totals.debtValue))
      valuation := some
        -- The counts of an earlier valuation stay; without one they are missing.
        { valuedAssets := (position.valuation.map Valuation.valuedAssets).getD 0
          totalAssets := (position.valuation.map Valuation.totalAssets).getD 0
          grossExposureUsd := toDecimalPlaces 8 totals.grossExposure
          positiveAssetsUsd := toDecimalPlaces 8 totals.positiveValue
          debtUsd := toDecimalPlaces 8 totals.debtValue } }

/-! ## Shocked prices -/

/-- Every quote times a factor of its key. -/
def PriceMap.scale (factor : String → ℚ) (prices : PriceMap) : PriceMap where
  entries := prices.entries.map fun entry =>
    (entry.1, { entry.2 with priceUsd := entry.2.priceUsd * factor entry.1 })
  distinct := by
    rw [List.map_map]
    exact prices.distinct

theorem PriceMap.get_scale (factor : String → ℚ) (prices : PriceMap) (assetId : String) :
    (prices.scale factor).get assetId =
      (prices.get assetId).map fun quote =>
        { quote with priceUsd := quote.priceUsd * factor assetId } := by
  unfold PriceMap.get PriceMap.scale
  dsimp only
  induction prices.entries with
  | nil => rfl
  | cons entry entries ih =>
      rw [List.map_cons, List.lookup_cons, List.lookup_cons, ih]
      by_cases found : assetId = entry.1
      · subst found
        simp only [beq_self_eq_true, Option.map_some]
      · have other : (assetId == entry.1) = false := beq_false_of_ne found
        simp only [other]

/-- Scaling gives no asset a price and takes none away. -/
theorem priceOf_scale_eq_none_iff (factor : String → ℚ) (prices : PriceMap)
    (asset : PositionAsset) :
    priceOf toUpperCase (prices.scale factor) asset = none ↔
      priceOf toUpperCase prices asset = none := by
  have values : (prices.scale factor).values.map PriceLike.assetId =
      prices.values.map PriceLike.assetId := by
    simp only [PriceMap.values, PriceMap.scale, List.map_map]
    rfl
  have by_symbol : findPriceBySymbol toUpperCase (prices.scale factor) asset.symbol = none ↔
      findPriceBySymbol toUpperCase prices asset.symbol = none := by
    have all_ids : ∀ quotes : List PriceLike,
        (quotes.find? fun quote => toUpperCase quote.assetId = toUpperCase asset.symbol) = none ↔
          ∀ id ∈ quotes.map PriceLike.assetId, toUpperCase id ≠ toUpperCase asset.symbol := by
      intro quotes
      simp
    unfold findPriceBySymbol
    rw [all_ids, all_ids, values]
  rw [priceOf, priceOf, Option.or_eq_none_iff, Option.or_eq_none_iff, PriceMap.get_scale,
    Option.map_eq_none_iff, by_symbol]

/-! ## What both leave -/

theorem stressPosition_assets (shocks : List PriceShock) (position : NormalizedPosition) :
    (stressPosition toLowerCase arithmetic toUpperCase shocks position).assets =
      position.assets.map (stressAsset toLowerCase arithmetic shocks) :=
  (deriveLendingMetrics_values arithmetic toUpperCase _ _).1

theorem stressPosition_valueUsd (shocks : List PriceShock) (position : NormalizedPosition) :
    (stressPosition toLowerCase arithmetic toUpperCase shocks position).valueUsd =
      some (toDecimalPlaces 8 (arithmetic.minus
        (stressTotals toLowerCase arithmetic shocks position.assets).positiveValue
        (stressTotals toLowerCase arithmetic shocks position.assets).debtValue)) :=
  (deriveLendingMetrics_values arithmetic toUpperCase _ _).2

/-! ## Net values -/

section Net

variable (value : PositionAsset → Option ℚ)

/-- What an asset adds to the net value. -/
def signedValue (asset : PositionAsset) : ℚ :=
  match value asset with
  | none => 0
  | some valueUsd => if asset.role = .debt then -valueUsd else valueUsd

/-- In exact arithmetic the accumulators add up to the signed values. -/
theorem foldl_addValued (assets : List PositionAsset) (totals : ValueTotals) :
    (assets.foldl (addValued .exact value) totals).positiveValue -
        (assets.foldl (addValued .exact value) totals).debtValue =
      totals.positiveValue - totals.debtValue + (assets.map (signedValue value)).sum := by
  induction assets generalizing totals with
  | nil => simp
  | cons asset rest ih =>
      rw [List.foldl_cons, ih, List.map_cons, List.sum_cons, addValued, signedValue]
      cases value asset with
      | none => simp
      | some valueUsd =>
          simp only [ValueTotals.add, Arithmetic.plus, Arithmetic.exact]
          split <;> ring

theorem foldl_addValued_count (assets : List PositionAsset) (totals : ValueTotals)
    (arithmetic : Arithmetic) :
    (assets.foldl (addValued arithmetic value) totals).valuedAssetCount =
      totals.valuedAssetCount + (assets.filter fun asset => (value asset).isSome).length := by
  induction assets generalizing totals with
  | nil => rfl
  | cons asset rest ih =>
      rw [List.foldl_cons, ih, List.filter_cons, addValued]
      cases value asset with
      | none => simp
      | some valueUsd =>
          simp only [ValueTotals.add, Option.isSome_some, if_true, List.length_cons]
          omega

end Net

/-- The value `valuePosition` gives to an asset, unrounded. -/
def pricedValue (prices : PriceMap) (asset : PositionAsset) : Option ℚ :=
  (priceOf toUpperCase prices asset).map (assetValue arithmetic asset)

theorem addAsset_eq (prices : PriceMap) :
    addAsset arithmetic toUpperCase prices =
      addValued arithmetic (pricedValue arithmetic toUpperCase prices) := by
  funext totals asset
  unfold addAsset addValued pricedValue
  cases priceOf toUpperCase prices asset <;> rfl

/-- Two sums of lists whose terms are close. -/
theorem abs_sum_sub_le {α : Type} {l : List α} {first second bound : α → ℚ}
    (close : ∀ item ∈ l, |first item - second item| ≤ bound item) :
    |(l.map first).sum - (l.map second).sum| ≤ (l.map bound).sum := by
  induction l with
  | nil => simp
  | cons item rest ih =>
      have head := close item List.mem_cons_self
      have tail := ih fun item member => close item (List.mem_cons_of_mem _ member)
      simp only [List.map_cons, List.sum_cons]
      calc
        |first item + (rest.map first).sum - (second item + (rest.map second).sum)| =
            |(first item - second item) + ((rest.map first).sum - (rest.map second).sum)| := by
          congr 1
          ring
        _ ≤ |first item - second item| + |(rest.map first).sum - (rest.map second).sum| :=
          abs_add_le _ _
        _ ≤ bound item + (rest.map bound).sum := add_le_add head tail

end RiskRail.Engine
