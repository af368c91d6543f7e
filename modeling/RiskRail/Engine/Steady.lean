import RiskRail.Engine.Fall
import RiskRail.Engine.Revaluation
import RiskRail.Engine.Unpriced

/-!
# Scenarios that change no price

A multiplier of one leaves a value alone that is already written with eight decimals.
So the assets of a valued position, and with them its lending metrics, come out of such
a scenario as they went in.  Sums may differ: those of the valuation add up unrounded
values, those of the scenario the written ones.
-/

namespace RiskRail.Engine

open RiskRail.Numeric

variable {arithmetic : Arithmetic} {toLowerCase toUpperCase : String → String}

/-- Every shock is zero or names none of the assets. -/
def NoChange (toLowerCase : String → String) (shocks : List PriceShock)
    (positions : List NormalizedPosition) : Prop :=
  ∀ shock ∈ shocks, shock.changeBps = 0 ∨
    ∀ position ∈ positions, ∀ asset ∈ position.assets, Unmatched toLowerCase [shock] asset

/-! ## Shocks without effect -/

variable (toLowerCase) in
/-- A change is that of a shock that names the asset, or none. -/
theorem resolveShock_eq_zero_or_matched (shocks : List PriceShock) (asset : PositionAsset) :
    resolveShock toLowerCase asset.assetId asset.symbol shocks = 0 ∨
      ∃ shock ∈ shocks, ¬Unmatched toLowerCase [shock] asset ∧
        resolveShock toLowerCase asset.assetId asset.symbol shocks = shock.changeBps := by
  unfold resolveShock
  split
  next shock found =>
    have named : shock.assetId.map toLowerCase = some (toLowerCase asset.assetId) := by
      simpa using List.find?_some found
    exact .inr ⟨shock, List.mem_of_find?_eq_some found,
      fun unmatched => (unmatched shock List.mem_cons_self).1 named, rfl⟩
  next =>
    split
    next shock found =>
      have named : shock.symbol.map toLowerCase = some (toLowerCase asset.symbol) := by
        simpa using List.find?_some found
      exact .inr ⟨shock, List.mem_of_find?_eq_some found,
        fun unmatched => (unmatched shock List.mem_cons_self).2.1 named, rfl⟩
    next =>
      split
      next bitcoin =>
        generalize found : shocks.find? _ = linked
        cases linked with
        | none => exact .inl rfl
        | some shock =>
            have named := List.find?_some found
            exact .inr ⟨shock, List.mem_of_find?_eq_some found,
              fun unmatched => (unmatched shock List.mem_cons_self).2.2 ⟨bitcoin, named⟩, rfl⟩
      next => exact .inl rfl

theorem NoChange.resolveShock {shocks : List PriceShock} {positions : List NormalizedPosition}
    (noChange : NoChange toLowerCase shocks positions) {position : NormalizedPosition}
    (member : position ∈ positions) {asset : PositionAsset} (held : asset ∈ position.assets) :
    resolveShock toLowerCase asset.assetId asset.symbol shocks = 0 := by
  rcases resolveShock_eq_zero_or_matched toLowerCase shocks asset with
    zero | ⟨shock, listed, matched, resolved⟩
  · exact zero
  · rcases noChange shock listed with zero | unmatched
    · rw [resolved, zero]
    · exact absurd (unmatched position member asset held) matched

/-- The multiplier of an asset without a change is one. -/
theorem shockMultiplier_of_zero {shocks : List PriceShock} {asset : PositionAsset}
    (zero : resolveShock toLowerCase asset.assetId asset.symbol shocks = 0) :
    shockMultiplier toLowerCase arithmetic shocks asset = 1 := by
  have one := arithmetic.round_of_safe 1 (by norm_num)
  have tenThousand := arithmetic.ofNumber_of_safe 10000 (by norm_num)
  push_cast at one tenThousand
  rw [shockMultiplier, zero, add_zero]
  push_cast
  rw [tenThousand, Arithmetic.div, div_self (by norm_num), one]

/-! ## Values as they are written -/

/-- A decimal that rounding leaves alone, to the precision and to eight places. -/
def Written (arithmetic : Arithmetic) (value : ℚ) : Prop :=
  arithmetic.round value = value ∧ toDecimalPlaces 8 value = value

theorem toDecimalPlaces_toDecimalPlaces (places : ℕ) (x : ℚ) :
    toDecimalPlaces places (toDecimalPlaces places x) = toDecimalPlaces places x :=
  roundTo_multiple .halfAway (by decide) _ le_rfl

theorem assetValue_rounded (asset : PositionAsset) (price : PriceLike) :
    arithmetic.round (assetValue arithmetic asset price) = assetValue arithmetic asset price :=
  arithmetic.round_round _

theorem written_assetValue (asset : PositionAsset) (price : PriceLike) :
    Written arithmetic (toDecimalPlaces 8 (assetValue arithmetic asset price)) :=
  ⟨arithmetic.round_places 8 _ (assetValue_rounded asset price),
    toDecimalPlaces_toDecimalPlaces 8 _⟩

variable {prices : PriceMap} {shocks : List PriceShock}

/-- Valuation writes the values of a position that comes without any. -/
theorem written_valueAsset {adapter : AdapterPosition} {asset : PositionAsset}
    (held : asset ∈ adapter.position.assets) :
    ∀ value ∈ (valueAsset arithmetic toUpperCase prices asset).valueUsd,
      Written arithmetic value := by
  intro value valued
  cases priced : priceOf toUpperCase prices asset with
  | none =>
      rw [valueAsset_of_none priced, adapter.assets_none asset held] at valued
      cases valued
  | some price =>
      rw [valueAsset_of_some priced] at valued
      cases valued
      exact written_assetValue asset price

theorem stressValue_of_written {asset : PositionAsset}
    (zero : resolveShock toLowerCase asset.assetId asset.symbol shocks = 0)
    (written : ∀ value ∈ asset.valueUsd, Written arithmetic value) :
    stressValue toLowerCase arithmetic shocks asset = asset.valueUsd := by
  unfold stressValue
  rw [shockMultiplier_of_zero zero]
  cases valued : asset.valueUsd with
  | none => rfl
  | some value => rw [Option.map_some, Arithmetic.mul, mul_one, (written value valued).1]

theorem stressAsset_of_written {asset : PositionAsset}
    (zero : resolveShock toLowerCase asset.assetId asset.symbol shocks = 0)
    (written : ∀ value ∈ asset.valueUsd, Written arithmetic value) :
    stressAsset toLowerCase arithmetic shocks asset = asset := by
  unfold stressAsset
  rw [stressValue_of_written zero written]
  cases asset with
  | mk assetId symbol amountAtomic decimals role valueUsd =>
      cases valueUsd with
      | none => rfl
      | some value =>
          dsimp only
          rw [(written value rfl).2]

/-! ## A position without a change -/

/-- The scenario changes the price of none of the position's assets. -/
def Unmoved (toLowerCase : String → String) (shocks : List PriceShock)
    (position : NormalizedPosition) : Prop :=
  ∀ asset ∈ position.assets, resolveShock toLowerCase asset.assetId asset.symbol shocks = 0

theorem resolveShock_valueAsset (asset : PositionAsset) :
    resolveShock toLowerCase (valueAsset arithmetic toUpperCase prices asset).assetId
        (valueAsset arithmetic toUpperCase prices asset).symbol shocks =
      resolveShock toLowerCase asset.assetId asset.symbol shocks := by
  unfold valueAsset
  split <;> rfl

variable (arithmetic toUpperCase prices) in
/-- The assets of a valued position stay as they are. -/
theorem stressPosition_assets_of_unmoved {adapter : AdapterPosition}
    (unmoved : Unmoved toLowerCase shocks adapter.position) :
    (stressPosition toLowerCase arithmetic toUpperCase shocks
        (valuePosition arithmetic toUpperCase prices adapter.position)).assets =
      (valuePosition arithmetic toUpperCase prices adapter.position).assets := by
  rw [stressPosition_assets, valuePosition_assets, List.map_map]
  apply List.map_congr_left
  intro asset held
  apply stressAsset_of_written
  · rw [resolveShock_valueAsset]
    exact unmoved asset held
  · exact written_valueAsset held

/-- Metrics derived a second time, from the same assets, are those derived before. -/
theorem recordedMetrics_rederived (pricesBefore pricesAfter : Option PriceMap)
    {position changed : NormalizedPosition} (assets : changed.assets = position.assets)
    (lending : changed.lending = position.lending)
    (liquidation : changed.liquidation =
      (deriveLendingMetrics arithmetic toUpperCase pricesBefore position).liquidation) :
    recordedMetrics (deriveLendingMetrics arithmetic toUpperCase pricesAfter changed) =
      recordedMetrics (deriveLendingMetrics arithmetic toUpperCase pricesBefore position) := by
  cases isLoan : position.lending with
  | none =>
      have kept : deriveLendingMetrics arithmetic toUpperCase pricesAfter changed = changed := by
        rw [deriveLendingMetrics, lending, isLoan]
      rw [kept, recordedMetrics, recordedMetrics, liquidation]
  | some terms =>
      by_cases worth : 0 < sumUsd arithmetic (valuedAssets .collateral position.assets) ∧
          0 < sumUsd arithmetic (valuedAssets .debt position.assets)
      · have before := deriveLendingMetrics_derived toUpperCase pricesBefore isLoan
          worth.1 worth.2
        rw [← assets] at worth
        have after := deriveLendingMetrics_derived toUpperCase pricesAfter
          (lending.trans isLoan) worth.1 worth.2
        rw [assets] at after
        rw [recordedMetrics, recordedMetrics, before.1, before.2, after.1, after.2]
      · rw [not_and_or, not_lt, not_lt] at worth
        rw [← assets] at worth
        rw [deriveLendingMetrics_kept toUpperCase pricesAfter worth, recordedMetrics,
          recordedMetrics, liquidation]

variable (arithmetic toUpperCase prices) in
theorem recordedMetrics_stressPosition {adapter : AdapterPosition}
    (unmoved : Unmoved toLowerCase shocks adapter.position) :
    recordedMetrics (stressPosition toLowerCase arithmetic toUpperCase shocks
        (valuePosition arithmetic toUpperCase prices adapter.position)) =
      recordedMetrics (valuePosition arithmetic toUpperCase prices adapter.position) := by
  have assets := stressPosition_assets_of_unmoved arithmetic toUpperCase prices unmoved
  rw [stressPosition_assets] at assets
  apply recordedMetrics_rederived
  · exact assets.trans (valuePosition_assets arithmetic toUpperCase prices adapter.position)
  · exact deriveLendingMetrics_lending arithmetic toUpperCase _ _
  · rfl

/-! ## What the summary reads -/

/-- Two positions that the risk summary cannot tell apart. -/
structure ReadsAlike (arithmetic : Arithmetic) (first second : NormalizedPosition) : Prop where
  protocolId : first.protocolId = second.protocolId
  type : first.type = second.type
  assets : first.assets = second.assets
  liquidBps : first.liquidBps = second.liquidBps
  grossExposure : getGrossExposure arithmetic first = getGrossExposure arithmetic second
  metrics : recordedMetrics first = recordedMetrics second

variable {change : NormalizedPosition → NormalizedPosition} {positions : List NormalizedPosition}

theorem protocolTotals_map
    (alike : ∀ position ∈ positions, ReadsAlike arithmetic (change position) position) :
    protocolTotals arithmetic (positions.map change) = protocolTotals arithmetic positions := by
  unfold protocolTotals
  rw [List.foldl_map]
  apply List.foldl_ext
  intro totals position member
  have same := alike position member
  rw [ProtocolTotals.add, ProtocolTotals.add, same.grossExposure, same.type, same.protocolId]

theorem accessTotals_map
    (alike : ∀ position ∈ positions, ReadsAlike arithmetic (change position) position) :
    accessTotals arithmetic (positions.map change) = accessTotals arithmetic positions := by
  unfold accessTotals
  rw [List.foldl_map]
  apply List.foldl_ext
  intro totals position member
  have same := alike position member
  rw [AccessTotals.add, AccessTotals.add, same.grossExposure, same.liquidBps]

theorem map_healthFactorE4 (same : ∀ position ∈ positions,
      recordedMetrics (change position) = recordedMetrics position) :
    ((positions.map change).map fun position =>
        position.liquidation.bind LiquidationMetrics.healthFactorE4) =
      positions.map fun position =>
        position.liquidation.bind LiquidationMetrics.healthFactorE4 := by
  rw [List.map_map]
  exact List.map_congr_left fun position member =>
    congrArg HealthMetrics.healthFactorE4 (same position member)

/-- Alike positions have the same summary. -/
theorem calculatePortfolioRisk_map
    (alike : ∀ position ∈ positions, ReadsAlike arithmetic (change position) position) :
    calculatePortfolioRisk arithmetic toUpperCase (positions.map change) =
      calculatePortfolioRisk arithmetic toUpperCase positions := by
  have assets : (positions.map change).flatMap NormalizedPosition.assets =
      positions.flatMap NormalizedPosition.assets := by
    rw [List.flatMap_map]
    exact List.flatMap_congr fun position member => (alike position member).assets
  have health := map_healthFactorE4 fun position member => (alike position member).metrics
  have distance : ((positions.map change).map fun position =>
        position.liquidation.bind LiquidationMetrics.distanceBps) =
      positions.map fun position =>
        position.liquidation.bind LiquidationMetrics.distanceBps := by
    rw [List.map_map]
    exact List.map_congr_left fun position member =>
      congrArg HealthMetrics.distanceBps (alike position member).metrics
  simp only [calculatePortfolioRisk, protocolConcentration, protocolTotals_map alike,
    assetConcentration, assetGroups, assets, capitalAccessibilityBps, accessTotals_map alike,
    health, distance]

/-! ## No warning -/

/-- A double of three tenths, which the score multiplies by, stays below five sixteenths. -/
theorem toDouble_threeTenths : 0 ≤ toDouble (3 / 10) ∧ toDouble (3 / 10) ≤ 5 / 16 := by
  constructor
  · exact Arithmetic.decimalJs.toNumber_nonneg (by norm_num)
  · calc
      toDouble (3 / 10) ≤ toDouble (5 / 16) :=
        Arithmetic.decimalJs.toNumber_monotone (by norm_num)
      _ = 5 / 16 := roundSig_of_isShort _ (by decide) ⟨5, -4, by norm_num, by norm_num⟩

theorem toDouble_le_of_le {n : ℕ} (safe : n < 2 ^ 53) {x : ℚ} (le : x ≤ n) : toDouble x ≤ n :=
  (Arithmetic.decimalJs.toNumber_monotone le).trans_eq (toDouble_of_safe safe)

/-- Without a health factor the score stays in the middle. -/
theorem compositeScore_zero_le {concentrationRisk accessibilityRisk : ℚ}
    (concentration : concentrationRisk ≤ 10000) (accessibility : accessibilityRisk ≤ 10000) :
    compositeScore 0 concentrationRisk accessibilityRisk ≤ 6250 := by
  have weighed : ∀ risk : ℚ, risk ≤ 10000 →
      toDouble (risk * toDouble (3 / 10)) ≤ (3125 : ℕ) := by
    intro risk le
    apply toDouble_le_of_le (by norm_num)
    calc
      risk * toDouble (3 / 10) ≤ 10000 * toDouble (3 / 10) :=
        mul_le_mul_of_nonneg_right le toDouble_threeTenths.1
      _ ≤ (3125 : ℕ) := by linarith [toDouble_threeTenths.2]
  have first := weighed concentrationRisk concentration
  have second := weighed accessibilityRisk accessibility
  have start : toDouble (0 * toDouble (4 / 10)) = 0 := by
    rw [zero_mul]
    exact Arithmetic.decimalJs.toNumber_zero
  unfold compositeScore
  dsimp only
  rw [start, zero_add]
  have partly := toDouble_le_of_le (by norm_num) first
  have whole : toDouble (toDouble (toDouble (concentrationRisk * toDouble (3 / 10))) +
      toDouble (accessibilityRisk * toDouble (3 / 10))) ≤ (6250 : ℕ) := by
    apply toDouble_le_of_le (by norm_num)
    push_cast at partly second ⊢
    linarith
  unfold mathRound
  rw [← Int.lt_add_one_iff, Int.floor_lt]
  push_cast at whole ⊢
  linarith

theorem concentrationRiskBps_le (topShareBps : ℚ) : concentrationRiskBps topShareBps ≤ 10000 := by
  unfold concentrationRiskBps
  split
  · norm_num
  · exact min_le_left _ _

/-- Without a health factor no portfolio is critical. -/
theorem riskLevel_ne_critical {positions : List NormalizedPosition}
    (exposures : ∀ position ∈ positions, HasRoundedExposure arithmetic position)
    (shares : ∀ position ∈ positions, ∀ share ∈ position.liquidBps, share ≤ 10000)
    (noHealth : smallest (positions.map fun position =>
      position.liquidation.bind LiquidationMetrics.healthFactorE4) = none) :
    (calculatePortfolioRisk arithmetic toUpperCase positions).riskLevel ≠ .critical := by
  obtain ⟨access, -, access_eq⟩ := isBps_capitalAccessibilityBps exposures shares
  have accessibilityRisk : max 0 (toDouble
      (10000 - capitalAccessibilityBps arithmetic positions)) ≤ (10000 : ℕ) := by
    apply max_le (Nat.cast_nonneg _)
    apply toDouble_le_of_le (by norm_num)
    rw [access_eq]
    push_cast
    linarith [Nat.cast_nonneg (α := ℚ) access]
  have score := compositeScore_zero_le
    (concentrationRiskBps_le (protocolConcentration arithmetic positions).topShareBps)
    accessibilityRisk
  unfold calculatePortfolioRisk
  dsimp only
  rw [noHealth]
  unfold overallRiskLevel classifyHealthFactor healthRiskBps
  dsimp only
  rw [if_neg (not_not.mpr rfl), if_neg (by omega)]
  split
  · decide
  · split <;> decide

theorem riskLevel_of_health {positions : List NormalizedPosition} {health : ℚ}
    (worst : smallest (positions.map fun position =>
      position.liquidation.bind LiquidationMetrics.healthFactorE4) = some health) :
    (calculatePortfolioRisk arithmetic toUpperCase positions).riskLevel =
      classifyHealthFactor (some health) := by
  have known : classifyHealthFactor (some health) ≠ .unknown := by
    unfold classifyHealthFactor
    dsimp only
    split
    · decide
    · split
      · decide
      · split <;> decide
  unfold calculatePortfolioRisk
  dsimp only
  rw [worst, overallRiskLevel, if_pos known]

/-! ## The scenario -/

/-- Every asset of the position is worth a whole number of units of the eighth decimal. -/
def NoDust (arithmetic : Arithmetic) (toUpperCase : String → String) (prices : PriceMap)
    (position : NormalizedPosition) : Prop :=
  ∀ asset ∈ position.assets, ∀ value ∈ pricedValue arithmetic toUpperCase prices asset,
    toDecimalPlaces 8 value = value

instance (arithmetic : Arithmetic) (toUpperCase : String → String) (prices : PriceMap)
    (position : NormalizedPosition) :
    Decidable (NoDust arithmetic toUpperCase prices position) :=
  inferInstanceAs (Decidable (∀ asset ∈ position.assets, ∀ value ∈ _, _ = _))

section Scenario

variable {adapter : AdapterPosition}

/-- The scenario sees the values that valuation wrote. -/
theorem stressValue_of_unmoved (unmoved : Unmoved toLowerCase shocks adapter.position)
    {asset : PositionAsset} (held : asset ∈ adapter.position.assets) :
    stressValue toLowerCase arithmetic shocks (valueAsset arithmetic toUpperCase prices asset) =
      (pricedValue arithmetic toUpperCase prices asset).map (toDecimalPlaces 8) := by
  rw [stressValue_of_written ((resolveShock_valueAsset asset).trans (unmoved asset held))
    (written_valueAsset held), pricedValue]
  cases priced : priceOf toUpperCase prices asset with
  | none => rw [valueAsset_of_none priced, adapter.assets_none asset held, Option.map_none,
      Option.map_none]
  | some price => rw [valueAsset_of_some priced, Option.map_some, Option.map_some]

variable (arithmetic) in
/-- Without dust both add up the same values. -/
theorem stressTotals_of_noDust (unmoved : Unmoved toLowerCase shocks adapter.position)
    (noDust : NoDust arithmetic toUpperCase prices adapter.position) :
    stressTotals toLowerCase arithmetic shocks
        (valuePosition arithmetic toUpperCase prices adapter.position).assets =
      valueTotals arithmetic toUpperCase prices adapter.position.assets := by
  rw [stressTotals, valuePosition_assets, valueTotals, addAsset_eq, List.foldl_map]
  apply List.foldl_ext
  intro totals asset held
  rw [addValued, addValued, stressValue_of_unmoved unmoved held, valueAsset_role]
  cases valued : pricedValue arithmetic toUpperCase prices asset with
  | none => rfl
  | some value => rw [Option.map_some, noDust asset held value valued]

variable (arithmetic toLowerCase shocks) in
theorem stressTotals_grossExposure (assets : List PositionAsset) :
    0 ≤ (stressTotals toLowerCase arithmetic shocks assets).grossExposure ∧
      arithmetic.round (stressTotals toLowerCase arithmetic shocks assets).grossExposure =
        (stressTotals toLowerCase arithmetic shocks assets).grossExposure := by
  apply List.foldlRecOn (motive := fun totals : ValueTotals =>
    0 ≤ totals.grossExposure ∧ arithmetic.round totals.grossExposure = totals.grossExposure)
  · exact ⟨le_rfl, Arithmetic.round_zero⟩
  · intro totals sound asset member
    unfold addValued
    split
    · exact sound
    · exact ⟨Arithmetic.plus_nonneg sound.1 (abs_nonneg _), arithmetic.round_round _⟩

theorem getGrossExposure_stressPosition (position : NormalizedPosition) :
    getGrossExposure arithmetic
        (stressPosition toLowerCase arithmetic toUpperCase shocks position) =
      toDecimalPlaces 8
        (stressTotals toLowerCase arithmetic shocks position.assets).grossExposure := by
  have exposure := stressTotals_grossExposure arithmetic toLowerCase shocks position.assets
  unfold getGrossExposure stressPosition
  dsimp only
  rw [(deriveLendingMetrics_frame arithmetic toUpperCase none _).1]
  exact abs_of_nonneg (toDecimalPlaces_nonneg exposure.1)

theorem hasRoundedExposure_stressPosition (position : NormalizedPosition) :
    HasRoundedExposure arithmetic
      (stressPosition toLowerCase arithmetic toUpperCase shocks position) := by
  have exposure := stressTotals_grossExposure arithmetic toLowerCase shocks position.assets
  rw [HasRoundedExposure, getGrossExposure_stressPosition]
  exact ⟨toDecimalPlaces_nonneg exposure.1, arithmetic.round_places 8 _ exposure.2⟩

theorem stressPosition_liquidBps (position : NormalizedPosition) :
    (stressPosition toLowerCase arithmetic toUpperCase shocks position).liquidBps =
      position.liquidBps :=
  (deriveLendingMetrics_frame arithmetic toUpperCase none _).2.2.2.1

/-- Without dust the summary cannot tell the stressed position from the valued one. -/
theorem readsAlike_of_noDust (unmoved : Unmoved toLowerCase shocks adapter.position)
    (noDust : NoDust arithmetic toUpperCase prices adapter.position) :
    ReadsAlike arithmetic
      (stressPosition toLowerCase arithmetic toUpperCase shocks
        (valuePosition arithmetic toUpperCase prices adapter.position))
      (valuePosition arithmetic toUpperCase prices adapter.position) where
  protocolId := (deriveLendingMetrics_frame arithmetic toUpperCase none _).2.2.1
  type := (deriveLendingMetrics_frame arithmetic toUpperCase none _).2.1
  assets := stressPosition_assets_of_unmoved arithmetic toUpperCase prices unmoved
  liquidBps := stressPosition_liquidBps _
  grossExposure := by
    rw [getGrossExposure_stressPosition, getGrossExposure_valuePosition,
      stressTotals_of_noDust arithmetic unmoved noDust]
  metrics := recordedMetrics_stressPosition arithmetic toUpperCase prices unmoved

/-- The values of a position without dust, before and after. -/
theorem stressPosition_valueUsd_of_noDust (unmoved : Unmoved toLowerCase shocks adapter.position)
    (noDust : NoDust arithmetic toUpperCase prices adapter.position)
    (priced : ∃ asset ∈ adapter.position.assets, priceOf toUpperCase prices asset ≠ none) :
    (stressPosition toLowerCase arithmetic toUpperCase shocks
        (valuePosition arithmetic toUpperCase prices adapter.position)).valueUsd =
      (valuePosition arithmetic toUpperCase prices adapter.position).valueUsd := by
  obtain ⟨asset, held, price⟩ := priced
  rw [stressPosition_valueUsd, valuePosition_valueUsd_of_priced held price,
    stressTotals_of_noDust arithmetic unmoved noDust]

/-- The error of writing every asset's value before adding, in exact arithmetic. -/
theorem abs_valueUsd_sub_le (unmoved : Unmoved toLowerCase shocks adapter.position)
    (priced : ∃ asset ∈ adapter.position.assets, priceOf toUpperCase prices asset ≠ none) :
    ∃ before after,
      (valuePosition .exact toUpperCase prices adapter.position).valueUsd = some before ∧
      (stressPosition toLowerCase .exact toUpperCase shocks
        (valuePosition .exact toUpperCase prices adapter.position)).valueUsd = some after ∧
      |after - before| ≤
        ((pricedAssets toUpperCase prices adapter.position).length / 2 + 1) * (1 / 10 ^ 8) := by
  obtain ⟨asset, held, price⟩ := priced
  refine ⟨_, _, valuePosition_valueUsd_of_priced held price,
    stressPosition_valueUsd toLowerCase .exact toUpperCase shocks _, ?_⟩
  rw [valuePosition_assets, stressTotals_net, valueTotals_net, List.map_map]
  have dust : ∀ asset ∈ adapter.position.assets,
      |signedValue (stressValue toLowerCase .exact shocks)
          (valueAsset .exact toUpperCase prices asset) -
        signedValue (pricedValue .exact toUpperCase prices) asset| ≤
        if priceOf toUpperCase prices asset = none then 0 else 1 / 2 * (1 / 10 ^ 8) := by
    intro asset held
    have seen : signedValue (stressValue toLowerCase .exact shocks)
        (valueAsset .exact toUpperCase prices asset) =
          signedValue PositionAsset.valueUsd (valueAsset .exact toUpperCase prices asset) := by
      rw [signedValue, signedValue, stressValue_of_written
        ((resolveShock_valueAsset asset).trans (unmoved asset held)) (written_valueAsset held)]
    rw [seen]
    exact abs_signedValue_written_le (adapter.assets_none asset held)
  calc
    _ ≤ _ := abs_round_sub_round_le _ _
    _ ≤ ((pricedAssets toUpperCase prices adapter.position).map fun _ =>
          1 / 2 * (1 / 10 ^ 8 : ℚ)).sum + 1 / 10 ^ 8 := by
      gcongr
      rw [← sum_pricedAssets]
      exact abs_sum_sub_le dust
    _ = _ := by
      rw [List.map_const', List.sum_replicate, nsmul_eq_mul]
      ring

end Scenario

theorem NoChange.unmoved {scenario : List PriceShock} {adapters : List AdapterPosition}
    (noChange : NoChange toLowerCase scenario (adapters.map AdapterPosition.position))
    {adapter : AdapterPosition} (member : adapter ∈ adapters) :
    Unmoved toLowerCase scenario adapter.position :=
  fun _ held => noChange.resolveShock (List.mem_map_of_mem member) held

/-- The risk level without a change: the same health factor, or none and no critical
level. -/
theorem riskLevel_of_noChange (toLowerCase toUpperCase : String → String)
    (arithmetic : Arithmetic) (prices : PriceMap) {adapters : List AdapterPosition}
    {shocks : List PriceShock}
    (unmoved : ∀ adapter ∈ adapters, Unmoved toLowerCase shocks adapter.position) :
    let positions := valuePositions arithmetic toUpperCase prices
      (adapters.map AdapterPosition.position)
    (calculatePortfolioRisk arithmetic toUpperCase
      (positions.map (stressPosition toLowerCase arithmetic toUpperCase shocks))).riskLevel =
        .critical →
    (calculatePortfolioRisk arithmetic toUpperCase positions).riskLevel = .critical := by
  intro positions critical
  have ofAdapters : ∀ {motive : NormalizedPosition → Prop},
      (∀ adapter ∈ adapters,
        motive (valuePosition arithmetic toUpperCase prices adapter.position)) →
      ∀ position ∈ positions, motive position := by
    intro motive each
    simpa [positions, valuePositions] using each
  have health := map_healthFactorE4 (ofAdapters fun adapter member =>
    recordedMetrics_stressPosition arithmetic toUpperCase prices (unmoved adapter member))
  cases worst : smallest (positions.map fun position =>
      position.liquidation.bind LiquidationMetrics.healthFactorE4) with
  | none =>
      rw [← health] at worst
      refine absurd critical (riskLevel_ne_critical ?_ ?_ worst)
      · rw [List.forall_mem_map]
        exact fun position member => hasRoundedExposure_stressPosition position
      · rw [List.forall_mem_map]
        apply ofAdapters
        intro adapter member share
        rw [stressPosition_liquidBps, valuePosition_liquidBps]
        exact adapter.liquidBps_le share
  | some least =>
      rw [riskLevel_of_health worst]
      rw [← health] at worst
      rwa [riskLevel_of_health worst] at critical

/-- Nothing is warned of where no position crosses its threshold and the portfolio does not
become critical. -/
theorem stressWarnings_eq_nil {before after : PortfolioRiskSummary}
    {results : List StressPositionResult}
    (kept : ∀ entry ∈ results, entry.liquidatableAfter = entry.liquidatableBefore)
    (level : after.riskLevel = .critical → before.riskLevel = .critical) :
    stressWarnings before after results = [] := by
  have crossing : (results.filter fun entry =>
      !entry.liquidatableBefore && entry.liquidatableAfter) = [] := by
    rw [List.filter_eq_nil_iff]
    intro entry member
    rw [kept entry member]
    simp
  have moved : ¬(after.riskLevel = .critical ∧ before.riskLevel ≠ .critical) :=
    fun moved => moved.2 (level moved.1)
  rw [stressWarnings, crossing, if_neg moved]
  rfl

/-- A scenario without a change gives no warning and keeps every health factor, distance
and flag.  Values are added up from the written values of the assets: where no asset is
worth a part of the eighth decimal, a position with a priced asset keeps its value and the
whole summary stays, and in exact arithmetic the values of any position with a priced asset
are apart by at most half a unit of the eighth decimal for each priced asset and one unit
more. -/
theorem steady_scenario (toLowerCase toUpperCase : String → String) (arithmetic : Arithmetic)
    {prices : PriceMap} {adapters : List AdapterPosition} {scenario : StressScenario}
    (noChange : NoChange toLowerCase scenario.shocks (adapters.map AdapterPosition.position)) :
    let result := runStressScenario toLowerCase arithmetic toUpperCase
      (valuePositions arithmetic toUpperCase prices (adapters.map AdapterPosition.position))
      scenario
    result.warnings = [] ∧
    (∀ entry ∈ result.positions,
      entry.afterHealthFactorE4 = entry.beforeHealthFactorE4 ∧
      entry.afterLiquidationDistanceBps = entry.beforeLiquidationDistanceBps ∧
      entry.liquidatableAfter = entry.liquidatableBefore) ∧
    (∀ (place : ℕ) (adapter : AdapterPosition) (entry : StressPositionResult),
      adapters[place]? = some adapter →
      result.positions[place]? = some entry →
      (∃ asset ∈ adapter.position.assets, priceOf toUpperCase prices asset ≠ none) →
      (NoDust arithmetic toUpperCase prices adapter.position →
        entry.afterValueUsd = entry.beforeValueUsd) ∧
      (arithmetic = .exact → ∃ before after : ℚ,
        entry.beforeValueUsd = some before ∧ entry.afterValueUsd = some after ∧
        |after - before| ≤
          ((pricedAssets toUpperCase prices adapter.position).length / 2 + 1) *
            (1 / 10 ^ 8))) ∧
    ((∀ adapter ∈ adapters, NoDust arithmetic toUpperCase prices adapter.position) →
      result.after = result.before) := by
  intro result
  have unmoved : ∀ adapter ∈ adapters, Unmoved toLowerCase scenario.shocks adapter.position :=
    fun adapter member => noChange.unmoved member
  have entries : result.positions = adapters.map fun adapter =>
      stressResult (valuePosition arithmetic toUpperCase prices adapter.position)
        (stressPosition toLowerCase arithmetic toUpperCase scenario.shocks
          (valuePosition arithmetic toUpperCase prices adapter.position)) := by
    rw [runStressScenario_positions, valuePositions, List.map_map, List.map_map]
    rfl
  have metrics : ∀ entry ∈ result.positions,
      entry.afterHealthFactorE4 = entry.beforeHealthFactorE4 ∧
      entry.afterLiquidationDistanceBps = entry.beforeLiquidationDistanceBps ∧
      entry.liquidatableAfter = entry.liquidatableBefore := by
    rw [entries, List.forall_mem_map]
    intro adapter member
    have same := recordedMetrics_stressPosition arithmetic toUpperCase prices
      (unmoved adapter member)
    exact ⟨congrArg HealthMetrics.healthFactorE4 same, congrArg HealthMetrics.distanceBps same,
      congrArg HealthMetrics.liquidatable same⟩
  refine ⟨?_, metrics, ?_, ?_⟩
  · have level := riskLevel_of_noChange toLowerCase toUpperCase arithmetic prices unmoved
    exact stressWarnings_eq_nil (fun entry member => (metrics entry member).2.2) level
  · intro place adapter entry found listed priced
    have member := List.mem_of_getElem? found
    rw [entries, List.getElem?_map, found, Option.map_some, Option.some.injEq] at listed
    subst listed
    constructor
    · exact fun noDust => stressPosition_valueUsd_of_noDust (unmoved adapter member) noDust priced
    · rintro rfl
      exact abs_valueUsd_sub_le (unmoved adapter member) priced
  · intro noDust
    apply calculatePortfolioRisk_map
    rw [valuePositions, List.forall_mem_map, List.forall_mem_map]
    exact fun adapter member => readsAlike_of_noDust (unmoved adapter member)
      (noDust adapter member)

/-! ## Two positions that a scenario without a change reports differently -/

/-- Two rewards of less than half a unit of the eighth decimal each. -/
def dustyStake : AdapterPosition where
  position :=
    { id := "stake"
      protocolId := "stackingdao"
      type := .staking
      assets :=
        [{ assetId := "stx", symbol := "STX", amountAtomic := 1, decimals := 6
           role := .asset },
          { assetId := "alex", symbol := "ALEX", amountAtomic := 1, decimals := 8
            role := .reward }]
      liquidBps := some 0
      source := { blockHeight := 100, observedAt := 0, exact := true } }
  valueUsd_none := rfl
  collateral_none := rfl
  debtUsd_none := rfl
  liquidation_none := rfl
  valuation_none := rfl
  assets_none := by decide
  liquidBps_le := by decide

/-- Prices of which the values are rounded. -/
def dustyQuotes : PriceMap where
  entries :=
    [("stx", { assetId := "stx", priceUsd := 4 / 1000 }),
      ("alex", { assetId := "alex", priceUsd := 4 / 10 })]
  distinct := by decide

/-- Bitcoin changes by nothing. -/
def steadyBitcoin : StressScenario where
  shocks := [{ assetId := none, symbol := some "BTC", changeBps := 0 }]

theorem steadyBitcoin_noChange (positions : List NormalizedPosition) :
    NoChange String.toLower steadyBitcoin.shocks positions :=
  fun shock member => .inl (by rw [List.mem_singleton.mp member])

/-- The two rewards are worth a unit of the eighth decimal together, and nothing when they
are written before they are added; then nothing is left to be locked.  A position without
a priced asset has no value before, and a value of zero after. -/
theorem steadyBitcoin_changes :
    ¬(∀ (prices : PriceMap) (adapters : List AdapterPosition) (scenario : StressScenario),
      NoChange String.toLower scenario.shocks (adapters.map AdapterPosition.position) →
      let result := runStressScenario String.toLower .decimalJs String.toUpper
        (valuePositions .decimalJs String.toUpper prices (adapters.map AdapterPosition.position))
        scenario
      result.after = result.before) ∧
    ¬(∀ (prices : PriceMap) (adapters : List AdapterPosition) (scenario : StressScenario),
      NoChange String.toLower scenario.shocks (adapters.map AdapterPosition.position) →
      let result := runStressScenario String.toLower .decimalJs String.toUpper
        (valuePositions .decimalJs String.toUpper prices (adapters.map AdapterPosition.position))
        scenario
      ∀ entry ∈ result.positions, entry.afterValueUsd = entry.beforeValueUsd) := by
  constructor
  · intro unchanged
    exact absurd (unchanged dustyQuotes [dustyStake] steadyBitcoin (steadyBitcoin_noChange _))
      (by decide +kernel)
  · intro unchanged
    exact absurd (unchanged .empty [unquotedWallet] steadyBitcoin (steadyBitcoin_noChange _))
      (by decide +kernel)

/-- The same scenario over a loan whose assets are worth whole cents. -/
theorem steady_scenario_unquotedDebt :
    let result := runStressScenario String.toLower .decimalJs String.toUpper
      (valuePositions .decimalJs String.toUpper twoQuotes
        ([unquotedDebt].map AdapterPosition.position)) steadyBitcoin
    result.warnings = [] ∧ result.after = result.before := by
  have steady := @steady_scenario String.toLower String.toUpper .decimalJs twoQuotes
    [unquotedDebt] steadyBitcoin (steadyBitcoin_noChange _)
  exact ⟨steady.1, steady.2.2.2 (by decide +kernel)⟩

end RiskRail.Engine
