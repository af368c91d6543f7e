import RiskRail.Engine.Stress

/-!
# Stressing is revaluing at shocked prices

A stressed position is worth what the position would be worth at shocked prices, up to
the places the two round to: a value is rounded before the shock is applied in one and
after it in the other.  The arithmetic in between is exact here.
-/

namespace RiskRail.Engine

open RiskRail.Numeric

variable (toLowerCase toUpperCase : String → String)

/-! ## Revaluing at shocked prices -/

/-- The multiplier of an asset under the shocks. -/
def multiplier (shocks : List PriceShock) (asset : PositionAsset) : ℚ :=
  (10000 + resolveShock toLowerCase asset.assetId asset.symbol shocks) / 10000

theorem shockMultiplier_exact (shocks : List PriceShock) (asset : PositionAsset) :
    shockMultiplier toLowerCase .exact shocks asset = multiplier toLowerCase shocks asset := by
  unfold shockMultiplier multiplier
  push_cast
  rfl

theorem resolveShock_ge {shocks : List PriceShock}
    (range : ∀ shock ∈ shocks, -10000 ≤ shock.changeBps) (assetId symbol : String) :
    -10000 ≤ resolveShock toLowerCase assetId symbol shocks := by
  rcases resolveShock_eq_zero_or toLowerCase assetId symbol shocks with zero | ⟨shock, member, eq⟩
  · rw [zero]
    decide
  · rw [eq]
    exact range shock member

theorem multiplier_nonneg {shocks : List PriceShock}
    (range : ∀ shock ∈ shocks, -10000 ≤ shock.changeBps) (asset : PositionAsset) :
    0 ≤ multiplier toLowerCase shocks asset := by
  have resolved : (-10000 : ℚ) ≤ resolveShock toLowerCase asset.assetId asset.symbol shocks := by
    exact_mod_cast resolveShock_ge toLowerCase range asset.assetId asset.symbol
  unfold multiplier
  apply div_nonneg _ (by norm_num)
  linarith

/-- The factor of a quote: the multiplier of the position's assets with its id. -/
def quoteFactor (shocks : List PriceShock) (position : NormalizedPosition) (assetId : String) :
    ℚ :=
  match position.assets.find? fun asset => asset.assetId = assetId with
  | some asset => multiplier toLowerCase shocks asset
  | none => 1

/-- The price map with every asset's price multiplied by its multiplier. -/
def shockedPrices (shocks : List PriceShock) (position : NormalizedPosition)
    (prices : PriceMap) : PriceMap :=
  prices.scale (quoteFactor toLowerCase shocks position)

/-- Each priced asset has a quote under its own id, and assets that share an id share
their symbol.  Adapters return assets without values, so an asset without a price has
none. -/
structure DirectlyQuoted (prices : PriceMap) (position : NormalizedPosition) : Prop where
  direct : ∀ asset ∈ position.assets, priceOf toUpperCase prices asset ≠ none →
    prices.get asset.assetId ≠ none
  symbol_eq : ∀ first ∈ position.assets, ∀ second ∈ position.assets,
    first.assetId = second.assetId → first.symbol = second.symbol
  unvalued : ∀ asset ∈ position.assets, priceOf toUpperCase prices asset = none →
    asset.valueUsd = none

variable {toLowerCase toUpperCase}
variable {shocks : List PriceShock} {position : NormalizedPosition} {prices : PriceMap}

theorem DirectlyQuoted.quoteFactor_eq (quoted : DirectlyQuoted toUpperCase prices position)
    {asset : PositionAsset} (member : asset ∈ position.assets) :
    quoteFactor toLowerCase shocks position asset.assetId =
      multiplier toLowerCase shocks asset := by
  unfold quoteFactor
  split
  next found same =>
    have id_eq : found.assetId = asset.assetId := by simpa using List.find?_some same
    have symbol_eq := quoted.symbol_eq found (List.mem_of_find?_eq_some same) asset member id_eq
    rw [multiplier, multiplier, id_eq, symbol_eq]
  next missing =>
    have differs := List.find?_eq_none.mp missing asset member
    simp at differs

/-- A priced asset of the position: its quote before and after the shocks. -/
theorem DirectlyQuoted.priceOf_shocked (quoted : DirectlyQuoted toUpperCase prices position)
    (toLowerCase : String → String) (shocks : List PriceShock) {asset : PositionAsset}
    (member : asset ∈ position.assets) (priced : priceOf toUpperCase prices asset ≠ none) :
    ∃ price, priceOf toUpperCase prices asset = some price ∧
      priceOf toUpperCase (shockedPrices toLowerCase shocks position prices) asset =
        some { price with priceUsd := price.priceUsd * multiplier toLowerCase shocks asset } := by
  rcases Option.ne_none_iff_exists'.mp (quoted.direct asset member priced) with ⟨price, own⟩
  refine ⟨price, ?_, ?_⟩
  · rw [priceOf, own, Option.some_or]
  · rw [priceOf, shockedPrices, PriceMap.get_scale, own, Option.map_some, Option.some_or,
      quoted.quoteFactor_eq member]

/-! ## The error of one asset -/

theorem places_unit : (10 : ℚ) ^ (-((8 : ℕ) : ℤ)) = 1 / 10 ^ 8 := by
  norm_num

/-- Rounding before a multiplication and after it, against rounding after it only. -/
theorem abs_round_mul_sub_le {x k : ℚ} (nonneg : 0 ≤ k) :
    |toDecimalPlaces 8 x * k - x * k| ≤ k / 2 * (1 / 10 ^ 8) := by
  have error := abs_toDecimalPlaces_sub_le 8 x
  rw [places_unit] at error
  rw [← sub_mul, abs_mul, abs_of_nonneg nonneg]
  calc
    |toDecimalPlaces 8 x - x| * k ≤ 1 / 2 * (1 / 10 ^ 8) * k :=
      mul_le_mul_of_nonneg_right error nonneg
    _ = k / 2 * (1 / 10 ^ 8) := by ring

theorem abs_round_sub_round_le (x y : ℚ) :
    |toDecimalPlaces 8 x - toDecimalPlaces 8 y| ≤ |x - y| + 1 / 10 ^ 8 := by
  have first := abs_le.mp (abs_toDecimalPlaces_sub_le 8 x)
  have second := abs_le.mp (abs_toDecimalPlaces_sub_le 8 y)
  rw [places_unit] at first second
  have between := abs_le.mp (le_refl |x - y|)
  exact abs_le.mpr ⟨by linarith [first.1, second.2, between.1],
    by linarith [first.2, second.1, between.2]⟩

/-- A shocked quote gives the shocked value. -/
theorem assetValue_shocked (asset : PositionAsset) (price : PriceLike) (k : ℚ) :
    assetValue .exact asset { price with priceUsd := price.priceUsd * k } =
      assetValue .exact asset price * k :=
  (mul_assoc _ _ _).symm

theorem valueAsset_of_some {arithmetic : Arithmetic} {asset : PositionAsset} {price : PriceLike}
    (priced : priceOf toUpperCase prices asset = some price) :
    valueAsset arithmetic toUpperCase prices asset =
      { asset with
        valueUsd := some (toDecimalPlaces 8 (assetValue arithmetic asset price)) } := by
  rw [valueAsset, priced]

theorem valueAsset_of_none {arithmetic : Arithmetic} {asset : PositionAsset}
    (unpriced : priceOf toUpperCase prices asset = none) :
    valueAsset arithmetic toUpperCase prices asset = asset := by
  rw [valueAsset, unpriced]

/-- The stressed value of a priced asset. -/
theorem stressValue_valueAsset {asset : PositionAsset} {price : PriceLike}
    (priced : priceOf toUpperCase prices asset = some price) :
    stressValue toLowerCase .exact shocks (valueAsset .exact toUpperCase prices asset) =
      some (toDecimalPlaces 8 (assetValue .exact asset price) *
        multiplier toLowerCase shocks asset) := by
  rw [valueAsset_of_some priced, stressValue, Option.map_some, shockMultiplier_exact]
  rfl

theorem stressAsset_valueUsd (asset : PositionAsset) :
    (stressAsset toLowerCase .exact shocks asset).valueUsd =
      (stressValue toLowerCase .exact shocks asset).map (toDecimalPlaces 8) := by
  unfold stressAsset stressValue
  cases valued : asset.valueUsd with
  | none => simp [valued]
  | some valueUsd => simp

/-- What the asset at this place is worth. -/
def valueAt (position : NormalizedPosition) (place : ℕ) : Option ℚ :=
  position.assets[place]?.bind PositionAsset.valueUsd

/-- The bound on the error of one asset. -/
def errorBound (toLowerCase : String → String) (shocks : List PriceShock)
    (asset : PositionAsset) : ℚ :=
  (1 + multiplier toLowerCase shocks asset / 2) * (1 / 10 ^ 8)

/-- Without a price there is no value, stressed or revalued. -/
theorem DirectlyQuoted.values_of_unpriced (quoted : DirectlyQuoted toUpperCase prices position)
    (toLowerCase : String → String) (shocks : List PriceShock) {asset : PositionAsset}
    (member : asset ∈ position.assets)
    (unpriced : priceOf toUpperCase prices asset = none) :
    stressValue toLowerCase .exact shocks (valueAsset .exact toUpperCase prices asset) = none ∧
      priceOf toUpperCase (shockedPrices toLowerCase shocks position prices) asset = none := by
  constructor
  · rw [valueAsset_of_none unpriced, stressValue, quoted.unvalued asset member unpriced,
      Option.map_none]
  · exact (priceOf_scale_eq_none_iff toUpperCase _ prices asset).mpr unpriced

/-- The value of a priced asset: stressed, and revalued at its shocked price. -/
theorem DirectlyQuoted.values_of_priced (quoted : DirectlyQuoted toUpperCase prices position)
    (range : ∀ shock ∈ shocks, -10000 ≤ shock.changeBps) {asset : PositionAsset}
    (member : asset ∈ position.assets) (priced : priceOf toUpperCase prices asset ≠ none) :
    ∃ stressed revalued,
      stressValue toLowerCase .exact shocks (valueAsset .exact toUpperCase prices asset) =
        some stressed ∧
      pricedValue .exact toUpperCase (shockedPrices toLowerCase shocks position prices) asset =
        some revalued ∧
      |stressed - revalued| ≤ multiplier toLowerCase shocks asset / 2 * (1 / 10 ^ 8) := by
  rcases quoted.priceOf_shocked toLowerCase shocks member priced with ⟨price, own, shocked⟩
  refine ⟨_, _, stressValue_valueAsset own, ?_,
    abs_round_mul_sub_le (multiplier_nonneg toLowerCase range asset)⟩
  rw [pricedValue, shocked, Option.map_some, assetValue_shocked]

/-! ## The net value -/

/-- The error one asset brings to the net value. -/
theorem DirectlyQuoted.abs_signedValue_sub_le
    (quoted : DirectlyQuoted toUpperCase prices position)
    (range : ∀ shock ∈ shocks, -10000 ≤ shock.changeBps) {asset : PositionAsset}
    (member : asset ∈ position.assets) :
    |signedValue (stressValue toLowerCase .exact shocks)
        (valueAsset .exact toUpperCase prices asset) -
      signedValue (pricedValue .exact toUpperCase
        (shockedPrices toLowerCase shocks position prices)) asset| ≤
      if priceOf toUpperCase prices asset = none then 0
      else errorBound toLowerCase shocks asset := by
  by_cases unpriced : priceOf toUpperCase prices asset = none
  · rcases quoted.values_of_unpriced toLowerCase shocks member unpriced with ⟨stressed, shocked⟩
    rw [signedValue, stressed, signedValue, pricedValue, shocked, if_pos unpriced]
    simp
  · rcases quoted.values_of_priced range member unpriced with
      ⟨stressed, revalued, stressed_eq, revalued_eq, close⟩
    have smaller : multiplier toLowerCase shocks asset / 2 * (1 / 10 ^ 8) ≤
        errorBound toLowerCase shocks asset := by
      rw [errorBound, add_mul, one_mul]
      exact le_add_of_nonneg_left (by positivity)
    rw [signedValue, stressed_eq, signedValue, revalued_eq, if_neg unpriced, valueAsset_role]
    dsimp only
    split
    · rw [neg_sub_neg, abs_sub_comm]
      exact close.trans smaller
    · exact close.trans smaller

/-- The assets of a position that have a price. -/
def pricedAssets (toUpperCase : String → String) (prices : PriceMap)
    (position : NormalizedPosition) : List PositionAsset :=
  position.assets.filter fun asset => priceOf toUpperCase prices asset ≠ none

theorem sum_pricedAssets (bound : PositionAsset → ℚ) :
    (position.assets.map fun asset =>
        if priceOf toUpperCase prices asset = none then 0 else bound asset).sum =
      ((pricedAssets toUpperCase prices position).map bound).sum := by
  unfold pricedAssets
  induction position.assets with
  | nil => rfl
  | cons asset rest ih =>
      rw [List.map_cons, List.sum_cons, ih, List.filter_cons]
      by_cases unpriced : priceOf toUpperCase prices asset = none
      · simp [unpriced]
      · simp [unpriced]

theorem valuePosition_valueUsd_of_priced {arithmetic : Arithmetic} {asset : PositionAsset}
    (member : asset ∈ position.assets) (priced : priceOf toUpperCase prices asset ≠ none) :
    (valuePosition arithmetic toUpperCase prices position).valueUsd =
      some (toDecimalPlaces 8 (arithmetic.minus
        (valueTotals arithmetic toUpperCase prices position.assets).positiveValue
        (valueTotals arithmetic toUpperCase prices position.assets).debtValue)) := by
  have counted :
      0 < (valueTotals arithmetic toUpperCase prices position.assets).valuedAssetCount := by
    rw [valueTotals, addAsset_eq, foldl_addValued_count]
    apply Nat.add_pos_right
    apply List.length_pos_of_mem
    rw [List.mem_filter]
    refine ⟨member, ?_⟩
    rw [pricedValue, Option.isSome_map]
    exact Option.isSome_iff_ne_none.mpr priced
  exact (deriveLendingMetrics_values arithmetic toUpperCase _ _).2.trans (if_pos counted)

theorem valueAsset_of_pricedValue {asset : PositionAsset} {revalued : ℚ}
    (priced : pricedValue .exact toUpperCase prices asset = some revalued) :
    (valueAsset .exact toUpperCase prices asset).valueUsd =
      some (toDecimalPlaces 8 revalued) := by
  rcases Option.map_eq_some_iff.mp priced with ⟨price, own, rfl⟩
  rw [valueAsset_of_some own]

/-- Writing the value of an asset moves what it adds by half a unit of the eighth decimal
at most. -/
theorem abs_signedValue_written_le {asset : PositionAsset} (unvalued : asset.valueUsd = none) :
    |signedValue PositionAsset.valueUsd (valueAsset .exact toUpperCase prices asset) -
      signedValue (pricedValue .exact toUpperCase prices) asset| ≤
      if priceOf toUpperCase prices asset = none then 0 else 1 / 2 * (1 / 10 ^ 8) := by
  cases priced : priceOf toUpperCase prices asset with
  | none =>
      rw [valueAsset_of_none priced, signedValue, unvalued, signedValue, pricedValue, priced]
      simp
  | some price =>
      have error := abs_toDecimalPlaces_sub_le 8 (assetValue .exact asset price)
      rw [places_unit] at error
      rw [valueAsset_of_some priced, signedValue, signedValue, pricedValue, priced,
        Option.map_some, if_neg (Option.some_ne_none _)]
      dsimp only
      split
      · rw [neg_sub_neg, abs_sub_comm]
        exact error
      · exact error

/-- The net value under stress, in exact arithmetic. -/
theorem stressTotals_net (assets : List PositionAsset) :
    Arithmetic.exact.minus (stressTotals toLowerCase .exact shocks assets).positiveValue
        (stressTotals toLowerCase .exact shocks assets).debtValue =
      (assets.map (signedValue (stressValue toLowerCase .exact shocks))).sum := by
  have net := foldl_addValued (stressValue toLowerCase .exact shocks) assets .zero
  rwa [show ValueTotals.zero.positiveValue - ValueTotals.zero.debtValue = 0 from sub_self 0,
    zero_add] at net

/-- The net value at the prices, in exact arithmetic. -/
theorem valueTotals_net (assets : List PositionAsset) :
    Arithmetic.exact.minus (valueTotals .exact toUpperCase prices assets).positiveValue
        (valueTotals .exact toUpperCase prices assets).debtValue =
      (assets.map (signedValue (pricedValue .exact toUpperCase prices))).sum := by
  have net := foldl_addValued (pricedValue .exact toUpperCase prices) assets .zero
  rw [valueTotals, addAsset_eq]
  rwa [show ValueTotals.zero.positiveValue - ValueTotals.zero.debtValue = 0 from sub_self 0,
    zero_add] at net

/-- Under exact arithmetic, with shocks of at least minus a hundred percent: an asset
without a price stays without a value, the value of a priced asset under stress is its
value at the shocked price up to the error of one rounding before and one after the
shock, and where anything is priced the net values differ by at most the sum of these
errors and one more rounding. -/
theorem stress_is_revaluation (toLowerCase toUpperCase : String → String)
    {shocks : List PriceShock} {position : NormalizedPosition} {prices : PriceMap}
    (range : ∀ shock ∈ shocks, -10000 ≤ shock.changeBps ∧ shock.changeBps ≤ 100000)
    (quoted : DirectlyQuoted toUpperCase prices position) :
    (∀ place asset, position.assets[place]? = some asset →
      (priceOf toUpperCase prices asset = none →
        valueAt (stressPosition toLowerCase .exact toUpperCase shocks
            (valuePosition .exact toUpperCase prices position)) place = none ∧
          valueAt (valuePosition .exact toUpperCase
            (shockedPrices toLowerCase shocks position prices) position) place = none) ∧
      (priceOf toUpperCase prices asset ≠ none →
        ∃ stressed revalued,
          valueAt (stressPosition toLowerCase .exact toUpperCase shocks
            (valuePosition .exact toUpperCase prices position)) place = some stressed ∧
          valueAt (valuePosition .exact toUpperCase
            (shockedPrices toLowerCase shocks position prices) position) place = some revalued ∧
          |stressed - revalued| ≤
            (1 + multiplier toLowerCase shocks asset / 2) * (1 / 10 ^ 8))) ∧
    ((∃ asset ∈ position.assets, priceOf toUpperCase prices asset ≠ none) →
      ∃ stressed revalued,
        (stressPosition toLowerCase .exact toUpperCase shocks
          (valuePosition .exact toUpperCase prices position)).valueUsd = some stressed ∧
        (valuePosition .exact toUpperCase
          (shockedPrices toLowerCase shocks position prices) position).valueUsd =
            some revalued ∧
        |stressed - revalued| ≤
          ((pricedAssets toUpperCase prices position).map fun asset =>
            (1 + multiplier toLowerCase shocks asset / 2) * (1 / 10 ^ 8)).sum + 1 / 10 ^ 8) := by
  have lower : ∀ shock ∈ shocks, -10000 ≤ shock.changeBps :=
    fun shock member => (range shock member).1
  constructor
  · intro place asset found
    have member := List.mem_of_getElem? found
    have stressed_at : valueAt (stressPosition toLowerCase .exact toUpperCase shocks
        (valuePosition .exact toUpperCase prices position)) place =
          (stressValue toLowerCase .exact shocks
            (valueAsset .exact toUpperCase prices asset)).map (toDecimalPlaces 8) := by
      rw [valueAt, stressPosition_assets, valuePosition_assets, List.getElem?_map,
        List.getElem?_map, found, Option.map_some, Option.map_some, Option.bind_some,
        stressAsset_valueUsd]
    have revalued_at : valueAt (valuePosition .exact toUpperCase
        (shockedPrices toLowerCase shocks position prices) position) place =
          (valueAsset .exact toUpperCase
            (shockedPrices toLowerCase shocks position prices) asset).valueUsd := by
      rw [valueAt, valuePosition_assets, List.getElem?_map, found, Option.map_some,
        Option.bind_some]
    rw [stressed_at, revalued_at]
    constructor
    · intro unpriced
      rcases quoted.values_of_unpriced toLowerCase shocks member unpriced with
        ⟨stressed, shocked⟩
      rw [stressed, valueAsset_of_none shocked]
      exact ⟨rfl, quoted.unvalued asset member unpriced⟩
    · intro priced
      rcases quoted.values_of_priced lower member priced with
        ⟨stressed, revalued, stressed_eq, revalued_eq, close⟩
      refine ⟨toDecimalPlaces 8 stressed, toDecimalPlaces 8 revalued, ?_, ?_, ?_⟩
      · rw [stressed_eq, Option.map_some]
      · exact valueAsset_of_pricedValue revalued_eq
      · calc
          _ ≤ |stressed - revalued| + 1 / 10 ^ 8 := abs_round_sub_round_le stressed revalued
          _ ≤ multiplier toLowerCase shocks asset / 2 * (1 / 10 ^ 8) + 1 / 10 ^ 8 := by
            gcongr
          _ = _ := by ring
  · rintro ⟨asset, member, priced⟩
    have priced_after : priceOf toUpperCase
        (shockedPrices toLowerCase shocks position prices) asset ≠ none := by
      rw [shockedPrices, Ne, priceOf_scale_eq_none_iff]
      exact priced
    refine ⟨_, _, stressPosition_valueUsd toLowerCase .exact toUpperCase shocks _,
      valuePosition_valueUsd_of_priced member priced_after, ?_⟩
    rw [valuePosition_assets, stressTotals_net, valueTotals_net, List.map_map]
    calc
      _ ≤ _ := abs_round_sub_round_le _ _
      _ ≤ _ := by
        gcongr
        rw [← sum_pricedAssets]
        exact abs_sum_sub_le fun asset member => quoted.abs_signedValue_sub_le lower member

/-- A loan against bridged bitcoin, with a reward nobody quotes. -/
def bridgedLoan : NormalizedPosition where
  id := "loan"
  protocolId := "zest"
  type := .lending
  assets :=
    [{ assetId := "sbtc", symbol := "sBTC", amountAtomic := 123456789, decimals := 8
       role := .collateral },
      { assetId := "usdcx", symbol := "USDCx", amountAtomic := 50000000000, decimals := 6
        role := .debt },
      { assetId := "points", symbol := "PTS", amountAtomic := 7, decimals := 0
        role := .reward }]
  source := { blockHeight := 100, observedAt := 0, exact := true }

/-- Prices for bridged bitcoin and a stable token. -/
def bridgedQuotes : PriceMap where
  entries :=
    [("sbtc", { assetId := "sbtc", priceUsd := 100000 }),
      ("usdcx", { assetId := "usdcx", priceUsd := 1 })]
  distinct := by decide

/-- Bitcoin falls by thirty percent; the bridged form follows by the link. -/
def bitcoinFall : List PriceShock :=
  [{ assetId := none, symbol := some "BTC", changeBps := -3000 }]

theorem stress_is_revaluation_bitcoinFall :
    ∃ stressed revalued,
      (stressPosition String.toLower .exact String.toUpper bitcoinFall
        (valuePosition .exact String.toUpper bridgedQuotes bridgedLoan)).valueUsd =
          some stressed ∧
      (valuePosition .exact String.toUpper
        (shockedPrices String.toLower bitcoinFall bridgedLoan bridgedQuotes)
          bridgedLoan).valueUsd = some revalued ∧
      |stressed - revalued| ≤
        ((pricedAssets String.toUpper bridgedQuotes bridgedLoan).map fun asset =>
          (1 + multiplier String.toLower bitcoinFall asset / 2) * (1 / 10 ^ 8)).sum +
            1 / 10 ^ 8 :=
  (stress_is_revaluation String.toLower String.toUpper
    (show ∀ shock ∈ bitcoinFall, _ from by decide)
    { direct := by decide +kernel
      symbol_eq := by decide +kernel
      unvalued := by decide +kernel }).2 (by decide +kernel)

end RiskRail.Engine
