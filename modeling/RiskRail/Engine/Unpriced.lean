import RiskRail.Engine.Fall
import RiskRail.Numeric.Growth

/-!
# Assets without a price

An asset without a price is left out of every sum.  Where nothing has a price every
metric takes its fallback, and the fallbacks are those of a healthy portfolio.  A loan
with a debt nobody quotes gets the health factor of the debts that are quoted.
-/

namespace RiskRail.Engine

open RiskRail.Numeric Filter

variable {arithmetic : Arithmetic} {toUpperCase : String → String} {prices : PriceMap}

/-! ## Nothing priced -/

/-- None of the assets has a price. -/
def Unpriced (toUpperCase : String → String) (prices : PriceMap) (position : NormalizedPosition) :
    Prop :=
  ∀ asset ∈ position.assets, priceOf toUpperCase prices asset = none

instance (toUpperCase : String → String) (prices : PriceMap) (position : NormalizedPosition) :
    Decidable (Unpriced toUpperCase prices position) :=
  inferInstanceAs (Decidable (∀ asset ∈ position.assets, _ = none))

theorem valueTotals_of_unpriced {position : NormalizedPosition}
    (unpriced : Unpriced toUpperCase prices position) :
    valueTotals arithmetic toUpperCase prices position.assets = .zero := by
  unfold valueTotals
  apply List.foldlRecOn (motive := fun totals => totals = ValueTotals.zero)
  · rfl
  · intro totals zero asset member
    rw [addAsset, unpriced asset member]
    exact zero

theorem getGrossExposure_of_unpriced {position : NormalizedPosition}
    (unpriced : Unpriced toUpperCase prices position) :
    getGrossExposure arithmetic (valuePosition arithmetic toUpperCase prices position) = 0 := by
  rw [getGrossExposure_valuePosition, valueTotals_of_unpriced unpriced]
  exact roundTo_zero _

theorem pricedUsd_of_unpriced {adapter : AdapterPosition}
    (unpriced : Unpriced toUpperCase prices adapter.position) (role : AssetRole) :
    pricedUsd arithmetic toUpperCase prices role adapter.position = 0 := by
  have empty : valuedAssets role
      (adapter.position.assets.map (valueAsset arithmetic toUpperCase prices)) = [] := by
    rw [valuedAssets, List.filter_eq_nil_iff, List.forall_mem_map]
    intro asset member
    rw [valueAsset, unpriced asset member]
    simp [adapter.assets_none asset member]
  rw [pricedUsd, empty, sumUsd_nil]

theorem healthFactor_of_unpriced {adapter : AdapterPosition}
    (unpriced : Unpriced toUpperCase prices adapter.position) :
    (valuePosition arithmetic toUpperCase prices adapter.position).liquidation.bind
      LiquidationMetrics.healthFactorE4 = none := by
  rw [(valuePosition_liquidation arithmetic toUpperCase prices adapter).1, loanThreshold,
    if_neg, Option.map_none]
  rw [pricedUsd_of_unpriced unpriced]
  exact fun worth => worth.1.ne rfl

section Fallbacks

variable {positions : List NormalizedPosition}

theorem protocolTotals_total_of_unexposed
    (unexposed : ∀ position ∈ positions, getGrossExposure arithmetic position = 0) :
    (protocolTotals arithmetic positions).total = 0 := by
  unfold protocolTotals
  apply List.foldlRecOn (motive := fun totals : ProtocolTotals => totals.total = 0)
  · rfl
  · intro totals zero position member
    rw [ProtocolTotals.add, zero, unexposed position member, Arithmetic.plus, add_zero,
      Arithmetic.round_zero]

theorem protocolConcentration_of_unexposed
    (unexposed : ∀ position ∈ positions, getGrossExposure arithmetic position = 0) :
    (protocolConcentration arithmetic positions).topShareBps = 0 := by
  rw [protocolConcentration, protocolTotals_total_of_unexposed unexposed, if_pos le_rfl]

theorem capitalAccessibilityBps_of_unexposed
    (unexposed : ∀ position ∈ positions, getGrossExposure arithmetic position = 0) :
    capitalAccessibilityBps arithmetic positions = 10000 := by
  have total : (accessTotals arithmetic positions).total = 0 := by
    unfold accessTotals
    apply List.foldlRecOn (motive := fun totals : AccessTotals => totals.total = 0)
    · rfl
    · intro totals zero position member
      rw [AccessTotals.add, unexposed position member, if_pos le_rfl]
      exact zero
  rw [capitalAccessibilityBps, total, if_pos rfl]

end Fallbacks

/-- A portfolio in which nothing has a price is reported as healthy and fully liquid,
whatever it holds. -/
theorem unpriced_reads_healthy (arithmetic : Arithmetic) (toUpperCase : String → String)
    {prices : PriceMap} {adapters : List AdapterPosition}
    (unpriced : ∀ adapter ∈ adapters, Unpriced toUpperCase prices adapter.position) :
    let summary := calculatePortfolioRisk arithmetic toUpperCase
      (valuePositions arithmetic toUpperCase prices (adapters.map AdapterPosition.position))
    summary.riskLevel = .healthy ∧ summary.liquidityScoreBps = 10000 := by
  have unexposed : ∀ position ∈
      valuePositions arithmetic toUpperCase prices (adapters.map AdapterPosition.position),
      getGrossExposure arithmetic position = 0 := by
    rw [valuePositions, List.forall_mem_map, List.forall_mem_map]
    exact fun adapter member => getGrossExposure_of_unpriced (unpriced adapter member)
  have health : smallest
      ((valuePositions arithmetic toUpperCase prices (adapters.map AdapterPosition.position)).map
        fun position => position.liquidation.bind LiquidationMetrics.healthFactorE4) = none := by
    rw [smallest_eq_none_iff, List.forall_mem_map, valuePositions, List.forall_mem_map,
      List.forall_mem_map]
    exact fun adapter member => healthFactor_of_unpriced (unpriced adapter member)
  have access := capitalAccessibilityBps_of_unexposed unexposed
  constructor
  · unfold calculatePortfolioRisk
    dsimp only
    rw [health, access, protocolConcentration_of_unexposed unexposed]
    decide +kernel
  · exact access

/-- A wallet with a token nobody quotes. -/
def unquotedWallet : AdapterPosition where
  position :=
    { id := "wallet"
      protocolId := "native-stacks"
      type := .wallet
      assets := [{ assetId := "points", symbol := "PTS", amountAtomic := 7, decimals := 0
                   role := .asset }]
      source := { blockHeight := 100, observedAt := 0, exact := true } }
  valueUsd_none := rfl
  collateral_none := rfl
  debtUsd_none := rfl
  liquidation_none := rfl
  valuation_none := rfl
  assets_none := by decide
  liquidBps_le := by decide

theorem unquotedWallet_reads_healthy :
    ¬∀ (prices : PriceMap) (adapters : List AdapterPosition),
      (∃ adapter ∈ adapters, ∃ asset ∈ adapter.position.assets, 0 < asset.amountAtomic) →
      (∀ adapter ∈ adapters, Unpriced String.toUpper prices adapter.position) →
      let summary := calculatePortfolioRisk .decimalJs String.toUpper
        (valuePositions .decimalJs String.toUpper prices (adapters.map AdapterPosition.position))
      summary.riskLevel ≠ .healthy ∧ summary.liquidityScoreBps ≠ 10000 := by
  intro reported
  have unknown := reported .empty [unquotedWallet] (by decide) (by decide)
  exact absurd (by decide +kernel) unknown.1

theorem unpriced_reads_healthy_unquotedWallet :
    let summary := calculatePortfolioRisk .decimalJs String.toUpper
      (valuePositions .decimalJs String.toUpper .empty
        ([unquotedWallet].map AdapterPosition.position))
    summary.riskLevel = .healthy ∧ summary.liquidityScoreBps = 10000 :=
  unpriced_reads_healthy .decimalJs String.toUpper (by decide)

/-! ## Prices completed by a choice -/

/-- The asset with its value, at its own price or at the chosen one. -/
def completeAsset (arithmetic : Arithmetic) (toUpperCase : String → String) (prices : PriceMap)
    (choice : PositionAsset → ℚ) (asset : PositionAsset) : PositionAsset :=
  let price := (priceOf toUpperCase prices asset).getD
    { assetId := asset.assetId, priceUsd := choice asset }
  { asset with valueUsd := some (toDecimalPlaces 8 (assetValue arithmetic asset price)) }

/-- The health factor at the prices and the choice. -/
def completedHealth (arithmetic : Arithmetic) (toUpperCase : String → String)
    (prices : PriceMap) (choice : PositionAsset → ℚ) (position : NormalizedPosition) : Option ℚ :=
  (deriveLendingMetrics arithmetic toUpperCase (some prices)
    { position with
      assets := position.assets.map (completeAsset arithmetic toUpperCase prices choice)
      }).liquidation.bind LiquidationMetrics.healthFactorE4

/-- No choice of prices for the unpriced assets gives a lower health factor than they get
without prices. -/
def Conservative (arithmetic : Arithmetic) (toUpperCase : String → String) (prices : PriceMap)
    (position : NormalizedPosition) : Prop :=
  ∀ health ∈ (valuePosition arithmetic toUpperCase prices position).liquidation.bind
      LiquidationMetrics.healthFactorE4,
    ∀ choice : PositionAsset → ℚ, (∀ asset, 0 ≤ choice asset) →
      ∀ completed ∈ completedHealth arithmetic toUpperCase prices choice position,
        health ≤ completed

/-- The price map keeps the prices there are and has the chosen ones for the other assets. -/
def Completes (toUpperCase : String → String) (prices completed : PriceMap)
    (choice : PositionAsset → ℚ) (position : NormalizedPosition) : Prop :=
  ∀ asset ∈ position.assets, (priceOf toUpperCase completed asset).map PriceLike.priceUsd =
    some (((priceOf toUpperCase prices asset).map PriceLike.priceUsd).getD (choice asset))

instance (toUpperCase : String → String) (prices completed : PriceMap)
    (choice : PositionAsset → ℚ) (position : NormalizedPosition) :
    Decidable (Completes toUpperCase prices completed choice position) :=
  inferInstanceAs (Decidable (∀ asset ∈ position.assets, _ = some _))

/-- What the assets of a role are worth at the prices and the choice. -/
def completedUsd (arithmetic : Arithmetic) (toUpperCase : String → String) (prices : PriceMap)
    (choice : PositionAsset → ℚ) (role : AssetRole) (position : NormalizedPosition) : ℚ :=
  sumUsd arithmetic
    (valuedAssets role (position.assets.map (completeAsset arithmetic toUpperCase prices choice)))

theorem completedHealth_eq (choice : PositionAsset → ℚ) (adapter : AdapterPosition) :
    completedHealth arithmetic toUpperCase prices choice adapter.position =
      (if 0 < completedUsd arithmetic toUpperCase prices choice .collateral adapter.position ∧
          0 < completedUsd arithmetic toUpperCase prices choice .debt adapter.position then
        adapter.position.lending.bind activeThreshold
      else
        none).map
          (healthFactorE4 arithmetic
            (currentLtvBps arithmetic
              (completedUsd arithmetic toUpperCase prices choice .collateral adapter.position)
              (completedUsd arithmetic toUpperCase prices choice .debt adapter.position))) :=
  (deriveLendingMetrics_liquidation arithmetic toUpperCase (some prices)
    { adapter.position with
      assets := adapter.position.assets.map (completeAsset arithmetic toUpperCase prices choice) }
    adapter.liquidation_none).1

/-- A price map that completes the prices gives the health factor of the choice. -/
theorem valuePosition_of_completion {completed : PriceMap} {choice : PositionAsset → ℚ}
    {adapter : AdapterPosition}
    (completes : Completes toUpperCase prices completed choice adapter.position) :
    (valuePosition arithmetic toUpperCase completed adapter.position).liquidation.bind
        LiquidationMetrics.healthFactorE4 =
      completedHealth arithmetic toUpperCase prices choice adapter.position := by
  have valued : adapter.position.assets.map (valueAsset arithmetic toUpperCase completed) =
      adapter.position.assets.map (completeAsset arithmetic toUpperCase prices choice) := by
    apply List.map_congr_left
    intro asset member
    obtain ⟨quote, found, price_eq⟩ := Option.map_eq_some_iff.mp (completes asset member)
    have value_eq : assetValue arithmetic asset quote = assetValue arithmetic asset
        ((priceOf toUpperCase prices asset).getD
          { assetId := asset.assetId, priceUsd := choice asset }) := by
      unfold assetValue
      rw [price_eq]
      cases priceOf toUpperCase prices asset <;> rfl
    rw [valueAsset, found, completeAsset]
    dsimp only
    rw [value_eq]
  have usd_eq (role : AssetRole) :
      pricedUsd arithmetic toUpperCase completed role adapter.position =
        completedUsd arithmetic toUpperCase prices choice role adapter.position := by
    rw [pricedUsd, valued, completedUsd]
  rw [(valuePosition_liquidation arithmetic toUpperCase completed adapter).1, completedHealth_eq,
    loanThreshold, loanLtvBps, usd_eq, usd_eq]

/-- A conservative health factor is at most that of every price map that completes the
prices. -/
theorem Conservative.le_of_completes {adapter : AdapterPosition}
    (conservative : Conservative arithmetic toUpperCase prices adapter.position)
    {completed : PriceMap} {choice : PositionAsset → ℚ} (nonneg : ∀ asset, 0 ≤ choice asset)
    (completes : Completes toUpperCase prices completed choice adapter.position)
    {health after : ℚ}
    (derived : health ∈ (valuePosition arithmetic toUpperCase prices
      adapter.position).liquidation.bind LiquidationMetrics.healthFactorE4)
    (found : after ∈ (valuePosition arithmetic toUpperCase completed
      adapter.position).liquidation.bind LiquidationMetrics.healthFactorE4) : health ≤ after := by
  rw [valuePosition_of_completion completes] at found
  exact conservative health derived choice nonneg after found

/-- The valued assets of a role add up to the sum over all of that role, where a missing
value counts as nothing. -/
theorem foldl_valuedAssets {value : PositionAsset → PositionAsset}
    (roles : ∀ asset, (value asset).role = asset.role) (role : AssetRole)
    (assets : List PositionAsset) {start : ℚ} (fixed : arithmetic.round start = start) :
    (valuedAssets role (assets.map value)).foldl
        (fun sum asset => arithmetic.plus sum (asset.valueUsd.getD 0)) start =
      (assets.filter fun asset => asset.role = role).foldl
        (fun sum asset => arithmetic.plus sum ((value asset).valueUsd.getD 0)) start := by
  unfold valuedAssets
  induction assets generalizing start with
  | nil => rfl
  | cons asset rest ih =>
      rw [List.map_cons, List.filter_cons, List.filter_cons, roles]
      by_cases same : asset.role = role
      · cases valued : (value asset).valueUsd with
        | none =>
            simp only [same, Option.isSome_none, Bool.false_eq_true, and_false, decide_false,
              if_false, decide_true, if_true, List.foldl_cons, valued, Option.getD_none]
            rw [Arithmetic.plus, add_zero, fixed]
            exact ih fixed
        | some usd =>
            simp only [same, Option.isSome_some, and_self, decide_true, if_true, List.foldl_cons,
              valued, Option.getD_some]
            exact ih (arithmetic.round_round (start + usd))
      · simp only [same, false_and, decide_false, Bool.false_eq_true, if_false]
        exact ih fixed

theorem sumUsd_valuedAssets {value : PositionAsset → PositionAsset}
    (roles : ∀ asset, (value asset).role = asset.role) (role : AssetRole)
    (assets : List PositionAsset) :
    sumUsd arithmetic (valuedAssets role (assets.map value)) =
      (assets.filter fun asset => asset.role = role).foldl
        (fun sum asset => arithmetic.plus sum ((value asset).valueUsd.getD 0)) 0 :=
  foldl_valuedAssets roles role assets Arithmetic.round_zero

/-! ## A debt without a price -/

/-- Threshold over ratio, before it becomes a health factor. -/
def healthQuotient (arithmetic : Arithmetic) (ltvBps : ℚ) (threshold : ℕ) : ℚ :=
  arithmetic.div (arithmetic.ofNumber threshold)
    (arithmetic.ofNumber (if ltvBps = 0 then 1 else ltvBps))

theorem healthFactorE4_eq (ltvBps : ℚ) (threshold : ℕ) :
    healthFactorE4 arithmetic ltvBps threshold =
      arithmetic.toNumber
        (IntRounding.halfAway.toInt (healthQuotient arithmetic ltvBps threshold * 10000) : ℤ) := by
  rw [healthFactorE4, toDecimalPlaces_zero, Arithmetic.mul_tenThousand, Arithmetic.div,
    arithmetic.round_round]
  rfl

theorem healthQuotient_nonneg {ltvBps : ℚ} (nonneg : 0 ≤ ltvBps) (threshold : ℕ) :
    0 ≤ healthQuotient arithmetic ltvBps threshold := by
  apply Arithmetic.round_nonneg
  apply div_nonneg (arithmetic.ofNumber_nonneg _ (Nat.cast_nonneg threshold))
  apply arithmetic.ofNumber_nonneg
  split
  · exact zero_le_one
  · exact nonneg

/-- A health factor is zero if it is below half a unit of its last place. -/
theorem healthFactorE4_eq_zero_iff {ltvBps : ℚ} (nonneg : 0 ≤ ltvBps) (threshold : ℕ) :
    healthFactorE4 arithmetic ltvBps threshold = 0 ↔
      healthQuotient arithmetic ltvBps threshold < 1 / 20000 := by
  have quotient_nonneg : 0 ≤ healthQuotient arithmetic ltvBps threshold :=
    healthQuotient_nonneg nonneg threshold
  rw [healthFactorE4_eq]
  generalize healthQuotient arithmetic ltvBps threshold = quotient at quotient_nonneg ⊢
  rw [halfAway_of_nonneg (by positivity)]
  have floor_nonneg : 0 ≤ ⌊quotient * 10000 + 1 / 2⌋ := Int.floor_nonneg.mpr (by positivity)
  constructor
  · intro zero
    by_contra large
    have one_le : (1 : ℤ) ≤ ⌊quotient * 10000 + 1 / 2⌋ := by
      rw [Int.le_floor]
      push_cast
      linarith
    have positive : (1 : ℚ) ≤ arithmetic.toNumber (⌊quotient * 10000 + 1 / 2⌋ : ℤ) := by
      calc
        (1 : ℚ) = arithmetic.toNumber ((1 : ℤ) : ℚ) := by
          rw [arithmetic.toNumber_of_safe 1 (by norm_num), Int.cast_one]
        _ ≤ _ := arithmetic.toNumber_monotone (by exact_mod_cast one_le)
    linarith
  · intro small
    have lt_one : ⌊quotient * 10000 + 1 / 2⌋ < 1 := by
      rw [Int.floor_lt]
      push_cast
      linarith
    rw [show ⌊quotient * 10000 + 1 / 2⌋ = 0 by omega, Int.cast_zero, Arithmetic.toNumber_zero]

/-- The unpriced collateral costs nothing and the unpriced debt this much. -/
def ruinous (price : ℚ) (asset : PositionAsset) : ℚ :=
  if asset.role = .debt then price else 0

theorem completeAsset_role (choice : PositionAsset → ℚ) (asset : PositionAsset) :
    (completeAsset arithmetic toUpperCase prices choice asset).role = asset.role :=
  rfl

theorem completedUsd_eq (choice : PositionAsset → ℚ) (role : AssetRole)
    (position : NormalizedPosition) :
    completedUsd arithmetic toUpperCase prices choice role position =
      (position.assets.filter fun asset => asset.role = role).foldl
        (fun sum asset => arithmetic.plus sum
          ((completeAsset arithmetic toUpperCase prices choice asset).valueUsd.getD 0)) 0 :=
  sumUsd_valuedAssets (completeAsset_role choice) role position.assets

/-- At such prices the collateral is worth what it is without them. -/
theorem completedUsd_ruinous_collateral (adapter : AdapterPosition) (price : ℚ) :
    completedUsd arithmetic toUpperCase prices (ruinous price) .collateral adapter.position =
      pricedUsd arithmetic toUpperCase prices .collateral adapter.position := by
  rw [completedUsd_eq, pricedUsd,
    sumUsd_valuedAssets (valueAsset_role arithmetic toUpperCase prices)]
  apply List.foldl_ext
  intro sum asset member
  rw [List.mem_filter, decide_eq_true_iff] at member
  congr 1
  unfold completeAsset valueAsset
  cases priceOf toUpperCase prices asset with
  | some quote => rfl
  | none =>
      simp [ruinous, member.2, assetValue, Arithmetic.mul, adapter.assets_none asset member.1,
        toDecimalPlaces]

theorem atomicToDecimal_pos {amountAtomic : ℕ} (positive : 0 < amountAtomic) (decimals : ℕ) :
    0 < atomicToDecimal arithmetic amountAtomic decimals := by
  have unit : arithmetic.round (10 ^ (-(decimals : ℤ))) = 10 ^ (-(decimals : ℤ)) := by
    have shift := arithmetic.round_shift ((1 : ℤ) : ℚ) (-(decimals : ℤ))
    rwa [arithmetic.round_of_safe 1 (by norm_num), Int.cast_one, one_mul] at shift
  calc
    (0 : ℚ) < 10 ^ (-(decimals : ℤ)) := zpow_pos (by norm_num) _
    _ = arithmetic.round (10 ^ (-(decimals : ℤ))) := unit.symm
    _ ≤ atomicToDecimal arithmetic amountAtomic decimals := by
      apply arithmetic.monotone
      rw [zpow_neg, zpow_natCast, ← one_div]
      exact div_le_div_of_nonneg_right (by exact_mod_cast positive) (by positivity)

/-- The value of a debt without a price grows with the price chosen for it. -/
theorem tendsto_ruinous {asset : PositionAsset} (isDebt : asset.role = .debt)
    (positive : 0 < asset.amountAtomic) (unpriced : priceOf toUpperCase prices asset = none) :
    Tendsto (fun price =>
      (completeAsset arithmetic toUpperCase prices (ruinous price) asset).valueUsd.getD 0)
        atTop atTop := by
  unfold completeAsset
  rw [unpriced]
  simp only [Option.getD_none, Option.getD_some, ruinous, isDebt, if_true]
  apply (tendsto_toDecimalPlaces 8).comp
  apply tendsto_round.comp
  exact tendsto_id.const_mul_atTop (atomicToDecimal_pos positive asset.decimals)

theorem staysAbove_ruinous {asset : PositionAsset} (isDebt : asset.role = .debt) :
    StaysAbove fun price =>
      (completeAsset arithmetic toUpperCase prices (ruinous price) asset).valueUsd.getD 0 := by
  cases priced : priceOf toUpperCase prices asset with
  | some quote =>
      simp only [completeAsset, priced, Option.getD_some]
      apply StaysAbove.const
  | none =>
      rcases asset.amountAtomic.eq_zero_or_pos with zero | positive
      · simp only [completeAsset, assetValue, atomicToDecimal, zero, Arithmetic.div,
          Arithmetic.mul, Nat.cast_zero, zero_div, Arithmetic.round_zero, zero_mul,
          Option.getD_some]
        apply StaysAbove.const
      · exact .of_tendsto (tendsto_ruinous isDebt positive priced)

/-- The debt grows with such prices if one of the debts has no price. -/
theorem tendsto_completedUsd_ruinous {position : NormalizedPosition}
    (owed : ∃ asset ∈ position.assets, asset.role = .debt ∧ 0 < asset.amountAtomic ∧
      priceOf toUpperCase prices asset = none) :
    Tendsto (fun price =>
      completedUsd arithmetic toUpperCase prices (ruinous price) .debt position) atTop atTop := by
  obtain ⟨asset, member, isDebt, positive, unpriced⟩ := owed
  simp only [completedUsd_eq]
  apply tendsto_foldl_plus _ (.const 0)
  · exact .inr ⟨asset, List.mem_filter.mpr ⟨member, decide_eq_true isDebt⟩,
      tendsto_ruinous isDebt positive unpriced⟩
  · intro other later
    exact staysAbove_ruinous (of_decide_eq_true (List.mem_filter.mp later).2)

/-- Beyond some debt the health factor is zero. -/
theorem eventually_healthFactorE4_eq_zero (readsBack : arithmetic.ReadsBack)
    (grow : arithmetic.NumbersGrow) {collateralUsd : ℚ} (collateral : 0 < collateralUsd)
    (threshold : ℕ) :
    ∀ᶠ debtUsd in atTop, healthFactorE4 arithmetic
      (currentLtvBps arithmetic collateralUsd debtUsd) threshold = 0 := by
  have whole : Tendsto (fun debtUsd => toDecimalPlaces 0
      (arithmetic.mul (arithmetic.div debtUsd collateralUsd) 10000)) atTop atTop := by
    apply (tendsto_toDecimalPlaces 0).comp
    apply tendsto_round.comp
    apply Tendsto.atTop_mul_const (by norm_num)
    exact tendsto_round.comp (tendsto_id.atTop_div_const collateral)
  have tiny : arithmetic.round (25 * 10 ^ (-6 : ℤ)) = 25 * 10 ^ (-6 : ℤ) := by
    have shift := arithmetic.round_shift ((25 : ℤ) : ℚ) (-6)
    rwa [arithmetic.round_of_safe 25 (by norm_num), Int.cast_ofNat] at shift
  have threshold_nonneg := arithmetic.ofNumber_nonneg (threshold : ℚ) (Nat.cast_nonneg threshold)
  filter_upwards [(grow.comp whole).eventually_ge_atTop 1,
    ((tendsto_ofNumber_toNumber readsBack grow).comp whole).eventually_ge_atTop
      (40000 * arithmetic.ofNumber threshold + 1)] with debtUsd ltv_ge divisor_ge
  change 1 ≤ currentLtvBps arithmetic collateralUsd debtUsd at ltv_ge
  change _ ≤ arithmetic.ofNumber (currentLtvBps arithmetic collateralUsd debtUsd) at divisor_ge
  rw [healthFactorE4_eq_zero_iff (by linarith), healthQuotient, if_neg (by linarith)]
  have divisor_pos :
      0 < arithmetic.ofNumber (currentLtvBps arithmetic collateralUsd debtUsd) := by
    linarith
  calc
    arithmetic.div (arithmetic.ofNumber threshold)
        (arithmetic.ofNumber (currentLtvBps arithmetic collateralUsd debtUsd)) ≤
        arithmetic.round (25 * 10 ^ (-6 : ℤ)) := by
      apply arithmetic.monotone
      rw [div_le_iff₀ divisor_pos]
      norm_num
      linarith
    _ = 25 * 10 ^ (-6 : ℤ) := tiny
    _ < 1 / 20000 := by norm_num

theorem loanLtvBps_nonneg {position : NormalizedPosition} {threshold : ℕ}
    (loan : threshold ∈ loanThreshold arithmetic toUpperCase prices position) :
    0 ≤ loanLtvBps arithmetic toUpperCase prices position := by
  rw [loanThreshold, Option.mem_ite_none_right] at loan
  exact currentLtvBps_nonneg loan.1.1.le loan.1.2.le

theorem completedHealth_nonneg {adapter : AdapterPosition} {choice : PositionAsset → ℚ}
    {health : ℚ}
    (completed : health ∈
      completedHealth arithmetic toUpperCase prices choice adapter.position) : 0 ≤ health := by
  rw [completedHealth_eq, Option.mem_def, Option.map_eq_some_iff] at completed
  obtain ⟨threshold, loan, rfl⟩ := completed
  rw [Option.ite_none_right_eq_some] at loan
  exact healthFactorE4_nonneg (currentLtvBps_nonneg loan.1.1.le loan.1.2.le) threshold

/-- A choice of prices that ruins the loan. -/
theorem exists_completedHealth_eq_zero (readsBack : arithmetic.ReadsBack)
    (grow : arithmetic.NumbersGrow) {adapter : AdapterPosition} {threshold : ℕ}
    (owed : ∃ asset ∈ adapter.position.assets, asset.role = .debt ∧ 0 < asset.amountAtomic ∧
      priceOf toUpperCase prices asset = none)
    (loan : threshold ∈ loanThreshold arithmetic toUpperCase prices adapter.position) :
    ∃ choice : PositionAsset → ℚ, (∀ asset, 0 ≤ choice asset) ∧
      completedHealth arithmetic toUpperCase prices choice adapter.position = some 0 := by
  rw [loanThreshold, Option.mem_ite_none_right] at loan
  obtain ⟨⟨collateral, -⟩, active⟩ := loan
  have debt : Tendsto (fun price => completedUsd arithmetic toUpperCase prices (ruinous price)
      .debt adapter.position) atTop atTop := tendsto_completedUsd_ruinous owed
  obtain ⟨price, nonneg, debt_pos, zero⟩ := ((eventually_ge_atTop 0).and
    ((debt.eventually_gt_atTop 0).and (debt.eventually
      (eventually_healthFactorE4_eq_zero readsBack grow collateral threshold)))).exists
  refine ⟨ruinous price, ?_, ?_⟩
  · intro asset
    unfold ruinous
    split
    · exact nonneg
    · exact le_rfl
  · rw [completedHealth_eq, completedUsd_ruinous_collateral, if_pos ⟨collateral, debt_pos⟩,
      Option.mem_def.mp active, Option.map_some, zero]

/-- With a debt nobody quotes, the health factor is at most that of every choice of prices
exactly if there is none, or it is zero for the quoted debts already; then it is at most that
of every price map with more prices, too. -/
theorem conservative_iff (toUpperCase : String → String) {prices : PriceMap}
    {adapter : AdapterPosition}
    (owed : ∃ asset ∈ adapter.position.assets, asset.role = .debt ∧ 0 < asset.amountAtomic ∧
      priceOf toUpperCase prices asset = none) :
    (Conservative .decimalJs toUpperCase prices adapter.position ↔
      ∀ threshold ∈ loanThreshold .decimalJs toUpperCase prices adapter.position,
        healthQuotient .decimalJs (loanLtvBps .decimalJs toUpperCase prices adapter.position)
          threshold < 1 / 20000) ∧
      (Conservative .decimalJs toUpperCase prices adapter.position →
        ∀ completed choice, (∀ asset, 0 ≤ choice asset) →
          Completes toUpperCase prices completed choice adapter.position →
          ∀ health ∈ (valuePosition .decimalJs toUpperCase prices
              adapter.position).liquidation.bind LiquidationMetrics.healthFactorE4,
            ∀ after ∈ (valuePosition .decimalJs toUpperCase completed
                adapter.position).liquidation.bind LiquidationMetrics.healthFactorE4,
              health ≤ after) := by
  have health_eq := (valuePosition_liquidation .decimalJs toUpperCase prices adapter).1
  refine ⟨⟨?_, ?_⟩, fun conservative completed choice nonneg completes health derived after found =>
    conservative.le_of_completes nonneg completes derived found⟩
  · intro conservative threshold loan
    have ltv_nonneg := loanLtvBps_nonneg loan
    obtain ⟨choice, nonneg, ruined⟩ := exists_completedHealth_eq_zero readsBack_decimalJs
      numbersGrow_decimalJs owed loan
    rw [← healthFactorE4_eq_zero_iff ltv_nonneg]
    apply le_antisymm _ (healthFactorE4_nonneg ltv_nonneg threshold)
    apply conservative _ _ choice nonneg 0 ruined
    rw [health_eq, Option.mem_def.mp loan]
    rfl
  · intro sunk health derived choice nonneg completed found
    rw [health_eq, Option.mem_def, Option.map_eq_some_iff] at derived
    obtain ⟨threshold, loan, rfl⟩ := derived
    rw [(healthFactorE4_eq_zero_iff (loanLtvBps_nonneg loan) threshold).mpr (sunk threshold loan)]
    exact completedHealth_nonneg found

/-- A loan with a debt in a quoted token and one in a token nobody quotes. -/
def unquotedDebt : AdapterPosition where
  position :=
    { id := "loan"
      protocolId := "zest"
      type := .lending
      assets :=
        [{ assetId := "sbtc", symbol := "sBTC", amountAtomic := 100000, decimals := 8
           role := .collateral },
          { assetId := "usdcx", symbol := "USDCx", amountAtomic := 50000000, decimals := 6
            role := .debt },
          { assetId := "points", symbol := "PTS", amountAtomic := 1, decimals := 0
            role := .debt }]
      lending := some { partialLiquidationLtvBps := some 7000 }
      source := { blockHeight := 100, observedAt := 0, exact := true } }
  valueUsd_none := rfl
  collateral_none := rfl
  debtUsd_none := rfl
  liquidation_none := rfl
  valuation_none := rfl
  assets_none := by decide
  liquidBps_le := by decide

theorem nodup_twoQuotes : ["sbtc", "usdcx"].Nodup := by decide

/-- Prices for the collateral and one of the debts. -/
def twoQuotes : PriceMap where
  entries :=
    [("sbtc", { assetId := "sbtc", priceUsd := 100000 }),
      ("usdcx", { assetId := "usdcx", priceUsd := 1 })]
  distinct := nodup_twoQuotes

/-- The same quotes and one for the other debt. -/
def threeQuotes : PriceMap where
  entries := twoQuotes.entries ++ [("points", { assetId := "points", priceUsd := 100 })]
  distinct := by decide

/-- Its health factor is that of half the collateral, and falls below one as soon as the
other debt has a price. -/
theorem unquotedDebt_not_conservative :
    (valuePosition .decimalJs String.toUpper twoQuotes
      unquotedDebt.position).liquidation.bind LiquidationMetrics.healthFactorE4 = some 14000 ∧
    (valuePosition .decimalJs String.toUpper threeQuotes
      unquotedDebt.position).liquidation.bind LiquidationMetrics.healthFactorE4 = some 4667 ∧
    ¬Conservative .decimalJs String.toUpper twoQuotes unquotedDebt.position := by
  have before : 14000 ∈ (valuePosition .decimalJs String.toUpper twoQuotes
      unquotedDebt.position).liquidation.bind LiquidationMetrics.healthFactorE4 := by
    decide +kernel
  have after : 4667 ∈ (valuePosition .decimalJs String.toUpper threeQuotes
      unquotedDebt.position).liquidation.bind LiquidationMetrics.healthFactorE4 := by
    decide +kernel
  have completes : Completes String.toUpper twoQuotes threeQuotes (fun _ => 100)
      unquotedDebt.position := by
    decide +kernel
  refine ⟨before, after, fun conservative => ?_⟩
  have le := conservative.le_of_completes (fun _ => by norm_num) completes before after
  exact absurd le (by norm_num)

/-- A ratio of half is far from where the health factor is zero. -/
theorem conservative_iff_unquotedDebt :
    ¬Conservative .decimalJs String.toUpper twoQuotes unquotedDebt.position := by
  intro conservative
  have owed : ∃ asset ∈ unquotedDebt.position.assets, asset.role = .debt ∧
      0 < asset.amountAtomic ∧ priceOf String.toUpper twoQuotes asset = none := by
    decide +kernel
  have sunk := (conservative_iff String.toUpper owed).1.mp conservative 7000 (by decide +kernel)
  exact absurd sunk (by decide +kernel)

end RiskRail.Engine
