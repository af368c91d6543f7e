import RiskRail.Engine.Scenario

/-!
# Deeper falls

Two scenarios with the same shocks, none of them less deep in the first.  Where the
collateral is still worth something the metrics follow its value, through every
rounding.  A collateral that has become worthless leaves the recorded metrics in place.
-/

namespace RiskRail.Engine

open RiskRail.Numeric

variable {arithmetic : Arithmetic} {toLowerCase toUpperCase : String → String}

/-! ## Shocks -/

/-- The same shocks, none of them less deep. -/
def Deeper (first second : List PriceShock) : Prop :=
  List.Forall₂ (fun deep shallow =>
    deep.assetId = shallow.assetId ∧ deep.symbol = shallow.symbol ∧
      deep.changeBps ≤ shallow.changeBps) first second

/-- No shock names the asset, by its id, by its symbol or by the link of bitcoin with its
bridged form. -/
def Unmatched (toLowerCase : String → String) (shocks : List PriceShock)
    (asset : PositionAsset) : Prop :=
  ∀ shock ∈ shocks,
    shock.assetId.map toLowerCase ≠ some (toLowerCase asset.assetId) ∧
      shock.symbol.map toLowerCase ≠ some (toLowerCase asset.symbol) ∧
      ¬(isBitcoin (toLowerCase asset.symbol) = true ∧
        isBitcoin ((shock.symbol.map toLowerCase).getD "") = true)

instance (toLowerCase : String → String) (shocks : List PriceShock) (asset : PositionAsset) :
    Decidable (Unmatched toLowerCase shocks asset) :=
  inferInstanceAs (Decidable (∀ shock ∈ shocks, _ ∧ _ ∧ ¬_))

/-- Related lists are searched alike for what the relation keeps. -/
theorem find?_related {α : Type} {related : α → α → Prop} {wanted : α → Bool}
    (alike : ∀ a b, related a b → wanted a = wanted b) {first second : List α}
    (pointwise : List.Forall₂ related first second) :
    first.find? wanted = none ∧ second.find? wanted = none ∨
      ∃ a b, first.find? wanted = some a ∧ second.find? wanted = some b ∧ related a b := by
  induction pointwise with
  | nil => exact .inl ⟨rfl, rfl⟩
  | @cons a b rest others head tail ih =>
      by_cases found : wanted a = true
      · exact .inr ⟨a, b, List.find?_cons_of_pos found,
          List.find?_cons_of_pos (alike a b head ▸ found), head⟩
      · rw [List.find?_cons_of_neg found, List.find?_cons_of_neg (alike a b head ▸ found)]
        exact ih

section Shocks

variable {first second : List PriceShock}

variable (toLowerCase) in
/-- A deeper scenario changes every asset by at most as much. -/
theorem Deeper.resolveShock_le (deeper : Deeper first second) (assetId symbol : String) :
    resolveShock toLowerCase assetId symbol first ≤
      resolveShock toLowerCase assetId symbol second := by
  have searched (wanted : PriceShock → Bool)
      (alike : ∀ a b : PriceShock, a.assetId = b.assetId → a.symbol = b.symbol →
        wanted a = wanted b) :=
    find?_related (fun a b related => alike a b related.1 related.2.1) deeper
  unfold resolveShock
  rcases searched (fun shock => shock.assetId.map toLowerCase = some (toLowerCase assetId))
    (fun a b id _ => by simp only [id]) with ⟨none_first, none_second⟩ | ⟨a, b, deep, shallow, le⟩
  · rw [none_first, none_second]
    dsimp only
    rcases searched (fun shock => shock.symbol.map toLowerCase = some (toLowerCase symbol))
      (fun a b _ symbol => by simp only [symbol]) with
      ⟨none_first, none_second⟩ | ⟨a, b, deep, shallow, le⟩
    · rw [none_first, none_second]
      dsimp only
      split
      · rcases searched (fun shock => isBitcoin ((shock.symbol.map toLowerCase).getD ""))
          (fun a b _ symbol => by simp only [symbol]) with
          ⟨none_first, none_second⟩ | ⟨a, b, deep, shallow, le⟩
        · rw [none_first, none_second]
        · rw [deep, shallow]
          exact le.2.2
      · exact le_rfl
    · rw [deep, shallow]
      exact le.2.2
  · rw [deep, shallow]
    exact le.2.2

/-- A shock that matches nothing of the asset leaves it alone. -/
theorem resolveShock_of_unmatched {shocks : List PriceShock} {asset : PositionAsset}
    (unmatched : Unmatched toLowerCase shocks asset) :
    resolveShock toLowerCase asset.assetId asset.symbol shocks = 0 := by
  have by_id : (shocks.find? fun shock =>
      decide (shock.assetId.map toLowerCase = some (toLowerCase asset.assetId))) = none :=
    List.find?_eq_none.mpr fun shock member => by simpa using (unmatched shock member).1
  have by_symbol : (shocks.find? fun shock =>
      decide (shock.symbol.map toLowerCase = some (toLowerCase asset.symbol))) = none :=
    List.find?_eq_none.mpr fun shock member => by simpa using (unmatched shock member).2.1
  unfold resolveShock
  rw [by_id, by_symbol]
  dsimp only
  split
  next bitcoin =>
    have linked : (shocks.find? fun shock =>
        isBitcoin ((shock.symbol.map toLowerCase).getD "")) = none :=
      List.find?_eq_none.mpr fun shock member named =>
        (unmatched shock member).2.2 ⟨bitcoin, named⟩
    rw [linked]
    rfl
  next => rfl

/-- What a scenario matches depends on the names in it only. -/
theorem Deeper.unmatched (deeper : Deeper first second) {asset : PositionAsset}
    (unmatched : Unmatched toLowerCase first asset) : Unmatched toLowerCase second asset := by
  induction deeper with
  | nil => exact unmatched
  | @cons deep shallow rest others same tail ih =>
      rw [Unmatched, List.forall_mem_cons] at unmatched ⊢
      rw [← same.1, ← same.2.1]
      exact ⟨unmatched.1, ih unmatched.2⟩

/-- The changes the simulation accepts. -/
def Admitted (shocks : List PriceShock) : Prop :=
  ∀ shock ∈ shocks, -10000 ≤ shock.changeBps ∧ shock.changeBps ≤ 100000

instance (shocks : List PriceShock) : Decidable (Admitted shocks) :=
  inferInstanceAs (Decidable (∀ shock ∈ shocks, _ ∧ _))

variable (toLowerCase) in
theorem Admitted.resolveShock {shocks : List PriceShock} (admitted : Admitted shocks)
    (assetId symbol : String) :
    -10000 ≤ resolveShock toLowerCase assetId symbol shocks ∧
      resolveShock toLowerCase assetId symbol shocks ≤ 100000 := by
  rcases resolveShock_eq_zero_or toLowerCase assetId symbol shocks with zero | ⟨shock, member, eq⟩
  · rw [zero]
    decide
  · rw [eq]
    exact admitted shock member

end Shocks

/-! ## Values -/

section Values

variable {first second : List PriceShock} {position : NormalizedPosition}

/-- What the assets of one role are worth under the shocks. -/
def stressedUsd (toLowerCase : String → String) (arithmetic : Arithmetic)
    (shocks : List PriceShock) (role : AssetRole) (position : NormalizedPosition) : ℚ :=
  sumUsd arithmetic
    (valuedAssets role (position.assets.map (stressAsset toLowerCase arithmetic shocks)))

theorem shockMultiplier_le (deeper : Deeper first second) (admittedFirst : Admitted first)
    (admittedSecond : Admitted second) (asset : PositionAsset) :
    shockMultiplier toLowerCase arithmetic first asset ≤
      shockMultiplier toLowerCase arithmetic second asset := by
  have small {shocks : List PriceShock} (admitted : Admitted shocks) :
      |10000 + resolveShock toLowerCase asset.assetId asset.symbol shocks| < 2 ^ 53 := by
    have range := admitted.resolveShock toLowerCase asset.assetId asset.symbol
    rw [abs_lt]
    constructor <;> omega
  have le := deeper.resolveShock_le toLowerCase asset.assetId asset.symbol
  unfold shockMultiplier
  rw [arithmetic.ofNumber_of_safe _ (small admittedFirst),
    arithmetic.ofNumber_of_safe _ (small admittedSecond)]
  apply arithmetic.monotone
  apply div_le_div_of_nonneg_right _ (by norm_num)
  exact_mod_cast Int.add_le_add_left le 10000

/-- The deeper the scenario, the less a nonnegative value is worth. -/
theorem stressAsset_value_le (deeper : Deeper first second) (admittedFirst : Admitted first)
    (admittedSecond : Admitted second) {asset : PositionAsset}
    (nonneg : ∀ value ∈ asset.valueUsd, 0 ≤ value) :
    (stressAsset toLowerCase arithmetic first asset).valueUsd.getD 0 ≤
      (stressAsset toLowerCase arithmetic second asset).valueUsd.getD 0 := by
  unfold stressAsset stressValue
  cases valued : asset.valueUsd with
  | none => exact le_rfl
  | some value =>
      apply toDecimalPlaces_mono
      apply arithmetic.monotone
      apply mul_le_mul_of_nonneg_left _ (nonneg value valued)
      exact shockMultiplier_le deeper admittedFirst admittedSecond asset

theorem stressAsset_eq_of_unmatched (deeper : Deeper first second) {asset : PositionAsset}
    (unmatched : Unmatched toLowerCase first asset) :
    stressAsset toLowerCase arithmetic first asset =
      stressAsset toLowerCase arithmetic second asset := by
  unfold stressAsset stressValue shockMultiplier
  rw [resolveShock_of_unmatched unmatched,
    resolveShock_of_unmatched (deeper.unmatched unmatched)]

/-- Shocks give no asset a value and take none away. -/
theorem valuedAssets_stressAsset (shocks : List PriceShock) (role : AssetRole)
    (assets : List PositionAsset) :
    valuedAssets role (assets.map (stressAsset toLowerCase arithmetic shocks)) =
      (valuedAssets role assets).map (stressAsset toLowerCase arithmetic shocks) := by
  unfold valuedAssets
  rw [List.filter_map]
  congr 2
  funext asset
  unfold stressAsset stressValue
  cases valued : asset.valueUsd with
  | none => simp [valued]
  | some value => simp [valued]

/-- Rounded sums keep the order of their terms. -/
theorem foldl_plus_le {α : Type} {items : List α} {low high : α → ℚ}
    (le : ∀ item ∈ items, low item ≤ high item) {start top : ℚ} (start_le : start ≤ top) :
    items.foldl (fun sum item => arithmetic.plus sum (low item)) start ≤
      items.foldl (fun sum item => arithmetic.plus sum (high item)) top := by
  induction items generalizing start top with
  | nil => exact start_le
  | cons item rest ih =>
      rw [List.forall_mem_cons] at le
      exact ih le.2 (Arithmetic.plus_mono start_le le.1)

variable (toLowerCase arithmetic)

/-- The deeper the scenario, the less the collateral is worth. -/
theorem stressedUsd_collateral_le (deeper : Deeper first second)
    (admittedFirst : Admitted first) (admittedSecond : Admitted second)
    (nonneg : ∀ asset ∈ position.assets, asset.role = .collateral →
      ∀ value ∈ asset.valueUsd, 0 ≤ value) :
    stressedUsd toLowerCase arithmetic first .collateral position ≤
      stressedUsd toLowerCase arithmetic second .collateral position := by
  unfold stressedUsd sumUsd
  rw [valuedAssets_stressAsset, valuedAssets_stressAsset, List.foldl_map, List.foldl_map]
  apply foldl_plus_le _ le_rfl
  intro asset member
  rw [valuedAssets, List.mem_filter, decide_eq_true_iff] at member
  exact stressAsset_value_le deeper admittedFirst admittedSecond
    (nonneg asset member.1 member.2.1)

/-- Shocks that match collateral only leave the debt alone. -/
theorem stressedUsd_debt_eq (deeper : Deeper first second)
    (matched : ∀ asset ∈ position.assets, asset.role ≠ .collateral →
      Unmatched toLowerCase first asset) :
    stressedUsd toLowerCase arithmetic first .debt position =
      stressedUsd toLowerCase arithmetic second .debt position := by
  unfold stressedUsd
  rw [valuedAssets_stressAsset, valuedAssets_stressAsset]
  congr 1
  apply List.map_congr_left
  intro asset member
  rw [valuedAssets, List.mem_filter, decide_eq_true_iff] at member
  apply stressAsset_eq_of_unmatched deeper
  apply matched asset member.1
  rw [member.2.1]
  decide

end Values

/-! ## Metrics -/

/-- The ratio in basis points before it becomes a number. -/
theorem currentLtvBps_eq (collateralUsd debtUsd : ℚ) :
    currentLtvBps arithmetic collateralUsd debtUsd =
      arithmetic.toNumber (IntRounding.halfAway.toInt
        (arithmetic.mul (arithmetic.div debtUsd collateralUsd) 10000) : ℤ) := by
  rw [currentLtvBps, toDecimalPlaces_zero]

/-- The whole ratio is zero or at least one, as a number too. -/
theorem divisor_eq {whole : ℤ} (nonneg : 0 ≤ whole) :
    (if arithmetic.toNumber whole = 0 then 1 else arithmetic.toNumber whole) =
      arithmetic.toNumber ((max 1 whole : ℤ) : ℚ) := by
  have one : arithmetic.toNumber ((1 : ℤ) : ℚ) = 1 := by
    rw [arithmetic.toNumber_of_safe 1 (by norm_num), Int.cast_one]
  rcases nonneg.eq_or_lt with rfl | positive
  · rw [Int.cast_zero, Arithmetic.toNumber_zero, if_pos rfl, max_eq_left (by decide), one]
  · have ge : 1 ≤ arithmetic.toNumber whole := by
      rw [← one]
      exact arithmetic.toNumber_monotone (by exact_mod_cast positive)
    rw [if_neg (by linarith), max_eq_right (by omega)]

section Metrics

variable {low high : ℤ} (readsBack : arithmetic.ReadsBack)

include readsBack

/-- The higher the ratio, the lower the health factor. -/
theorem healthFactorE4_antitone (nonneg : 0 ≤ low) (le : low ≤ high) (threshold : ℕ) :
    healthFactorE4 arithmetic (arithmetic.toNumber high) threshold ≤
      healthFactorE4 arithmetic (arithmetic.toNumber low) threshold := by
  have numbers {n m : ℤ} (le : n ≤ m) : arithmetic.ofNumber (arithmetic.toNumber n) ≤
      arithmetic.ofNumber (arithmetic.toNumber m) :=
    readsBack.ofNumber_mono (arithmetic.toNumber_monotone (by exact_mod_cast le))
  have one_le : 1 ≤ arithmetic.ofNumber (arithmetic.toNumber ((max 1 low : ℤ) : ℚ)) := by
    have le := numbers (le_max_left 1 low)
    rwa [arithmetic.toNumber_of_safe 1 (by norm_num),
      arithmetic.ofNumber_of_safe 1 (by norm_num), Int.cast_one] at le
  unfold healthFactorE4
  rw [divisor_eq nonneg, divisor_eq (nonneg.trans le)]
  apply arithmetic.toNumber_monotone
  apply toDecimalPlaces_mono
  apply arithmetic.monotone
  apply mul_le_mul_of_nonneg_right _ (by norm_num)
  apply arithmetic.monotone
  apply div_le_div_of_nonneg_left _ (by linarith) (numbers (max_le_max_left 1 le))
  exact arithmetic.ofNumber_nonneg _ (Nat.cast_nonneg threshold)

/-- The higher the ratio, the shorter the distance. -/
theorem rawDistanceBps_antitone (le : low ≤ high) (threshold : ℕ) :
    rawDistanceBps arithmetic (arithmetic.toNumber high) threshold ≤
      rawDistanceBps arithmetic (arithmetic.toNumber low) threshold := by
  have numbers : arithmetic.ofNumber (arithmetic.toNumber low) ≤
      arithmetic.ofNumber (arithmetic.toNumber high) :=
    readsBack.ofNumber_mono (arithmetic.toNumber_monotone (by exact_mod_cast le))
  unfold rawDistanceBps
  apply arithmetic.toNumber_monotone
  apply toDecimalPlaces_mono
  apply arithmetic.monotone
  apply mul_le_mul_of_nonneg_right _ (by norm_num)
  apply arithmetic.monotone
  apply sub_le_sub_left
  apply arithmetic.monotone
  apply div_le_div_of_nonneg_right numbers
  exact arithmetic.ofNumber_nonneg _ (Nat.cast_nonneg threshold)

end Metrics

/-! ## The rule -/

/-- What is said of a loan. -/
structure HealthMetrics where
  healthFactorE4 : Option ℚ
  distanceBps : Option ℚ
  liquidatable : Bool
deriving DecidableEq

/-- No metric of the first looks safer than that of the second. -/
structure HealthMetrics.NoSafer (first second : HealthMetrics) : Prop where
  health : ∀ deep ∈ first.healthFactorE4, ∀ shallow ∈ second.healthFactorE4, deep ≤ shallow
  distance : ∀ deep ∈ first.distanceBps, ∀ shallow ∈ second.distanceBps, deep ≤ shallow
  flag : second.liquidatable = true → first.liquidatable = true

/-- The metrics a position comes with. -/
def recordedMetrics (position : NormalizedPosition) : HealthMetrics :=
  let health := position.liquidation.bind LiquidationMetrics.healthFactorE4
  { healthFactorE4 := health
    distanceBps := position.liquidation.bind LiquidationMetrics.distanceBps
    liquidatable := liquidatable health }

/-- The metrics after the shocks. -/
def StressPositionResult.after (result : StressPositionResult) : HealthMetrics where
  healthFactorE4 := result.afterHealthFactorE4
  distanceBps := result.afterLiquidationDistanceBps
  liquidatable := result.liquidatableAfter

/-- The metrics of a loan with this threshold, collateral and debt. -/
def loanMetrics (arithmetic : Arithmetic) (threshold : ℕ) (collateralUsd debtUsd : ℚ) :
    HealthMetrics :=
  let ltvBps := currentLtvBps arithmetic collateralUsd debtUsd
  let health := healthFactorE4 arithmetic ltvBps threshold
  { healthFactorE4 := some health
    distanceBps := some (clampDistance (rawDistanceBps arithmetic ltvBps threshold))
    liquidatable := liquidatable (some health) }

theorem HealthMetrics.NoSafer.refl (metrics : HealthMetrics) : metrics.NoSafer metrics where
  health _ deep _ shallow := (Option.mem_unique deep shallow).le
  distance _ deep _ shallow := (Option.mem_unique deep shallow).le
  flag := id

/-- A loan looks no safer with less collateral. -/
theorem loanMetrics_noSafer (readsBack : arithmetic.ReadsBack) (threshold : ℕ)
    {less more debtUsd : ℚ} (positive : 0 < less) (le : less ≤ more) (debt : 0 ≤ debtUsd) :
    (loanMetrics arithmetic threshold less debtUsd).NoSafer
      (loanMetrics arithmetic threshold more debtUsd) := by
  have ratio_le : arithmetic.mul (arithmetic.div debtUsd more) 10000 ≤
      arithmetic.mul (arithmetic.div debtUsd less) 10000 := by
    apply arithmetic.monotone
    apply mul_le_mul_of_nonneg_right _ (by norm_num)
    apply arithmetic.monotone
    exact div_le_div_of_nonneg_left debt positive le
  have ratio_nonneg : 0 ≤ arithmetic.mul (arithmetic.div debtUsd more) 10000 := by
    apply Arithmetic.round_nonneg
    apply mul_nonneg _ (by norm_num)
    exact Arithmetic.round_nonneg (div_nonneg debt (positive.le.trans le))
  have whole_le := IntRounding.halfAway.monotone ratio_le
  have whole_nonneg := IntRounding.halfAway.le_toInt
    (show ((0 : ℤ) : ℚ) ≤ _ from by exact_mod_cast ratio_nonneg)
  have health_le : healthFactorE4 arithmetic (currentLtvBps arithmetic less debtUsd) threshold ≤
      healthFactorE4 arithmetic (currentLtvBps arithmetic more debtUsd) threshold := by
    rw [currentLtvBps_eq, currentLtvBps_eq]
    exact healthFactorE4_antitone readsBack whole_nonneg whole_le threshold
  constructor
  · rintro _ ⟨⟩ _ ⟨⟩
    exact health_le
  · rintro _ ⟨⟩ _ ⟨⟩
    rw [currentLtvBps_eq, currentLtvBps_eq]
    exact max_le_max_left _
      (min_le_min_left _ (rawDistanceBps_antitone readsBack whole_le threshold))
  · intro flagged
    rw [loanMetrics, liquidatable, Option.any_some, decide_eq_true_iff] at flagged ⊢
    exact health_le.trans flagged

variable (toLowerCase arithmetic toUpperCase) in
/-- Under the shocks a loan has the metrics of what its assets are worth then, or those
it had before. -/
theorem stressResult_after {position : NormalizedPosition} {lending : LendingRiskParameters}
    {threshold : ℕ} (isLoan : position.lending = some lending)
    (isActive : activeThreshold lending = some threshold) (shocks : List PriceShock) :
    (stressResult position
        (stressPosition toLowerCase arithmetic toUpperCase shocks position)).after =
      if 0 < stressedUsd toLowerCase arithmetic shocks .collateral position ∧
          0 < stressedUsd toLowerCase arithmetic shocks .debt position then
        loanMetrics arithmetic threshold
          (stressedUsd toLowerCase arithmetic shocks .collateral position)
          (stressedUsd toLowerCase arithmetic shocks .debt position)
      else
        recordedMetrics position := by
  obtain ⟨revalued, stressed_eq, lending_eq, liquidation_eq, assets_eq⟩ :
      ∃ revalued : NormalizedPosition,
        stressPosition toLowerCase arithmetic toUpperCase shocks position =
          deriveLendingMetrics arithmetic toUpperCase none revalued ∧
        revalued.lending = position.lending ∧ revalued.liquidation = position.liquidation ∧
        revalued.assets = position.assets.map (stressAsset toLowerCase arithmetic shocks) :=
    ⟨_, rfl, rfl, rfl, rfl⟩
  unfold StressPositionResult.after recordedMetrics stressResult stressedUsd
  dsimp only
  rw [stressed_eq, ← assets_eq]
  split
  next worth =>
    have derived := deriveLendingMetrics_derived toUpperCase none (lending_eq.trans isLoan)
      worth.1 worth.2
    rw [derived.1, derived.2, isActive]
    rfl
  next worthless =>
    rw [not_and_or, not_lt, not_lt] at worthless
    rw [deriveLendingMetrics_kept toUpperCase none worthless, liquidation_eq]

/-- Metrics derived where they can be, recorded ones elsewhere: with less collateral they look
no safer, unless only the smaller collateral is worthless. -/
theorem derived_noSafer (readsBack : arithmetic.ReadsBack) (threshold : ℕ)
    {less more debtUsd : ℚ} (le : less ≤ more) (alike : 0 < less ∨ more ≤ 0 ∨ debtUsd ≤ 0)
    (recorded : HealthMetrics) :
    HealthMetrics.NoSafer
        (if 0 < less ∧ 0 < debtUsd then loanMetrics arithmetic threshold less debtUsd
        else recorded)
        (if 0 < more ∧ 0 < debtUsd then loanMetrics arithmetic threshold more debtUsd
        else recorded) := by
  by_cases worth : 0 < more ∧ 0 < debtUsd
  · have positive : 0 < less := by
      rcases alike with positive | worthless | worthless
      · exact positive
      · exact absurd worth.1 worthless.not_gt
      · exact absurd worth.2 worthless.not_gt
    rw [if_pos worth, if_pos ⟨positive, worth.2⟩]
    exact loanMetrics_noSafer readsBack threshold positive le worth.2.le
  · rw [if_neg worth, if_neg fun both => worth ⟨both.1.trans_le le, both.2⟩]
    exact .refl recorded

/-- Recorded metrics with this health factor. -/
def recordedHealth (healthFactorE4 : ℚ) : LiquidationMetrics where
  thresholdE4 := none
  priceUsd := none
  healthFactorE4 := some healthFactorE4
  distanceBps := none
  partialThresholdBps := none
  fullThresholdBps := none

variable (toLowerCase toUpperCase) in
/-- A scenario that is deeper leaves a loan no safer, whatever metrics are recorded on it, if
and only if it does not make the collateral worthless where the other leaves a loan. -/
theorem deeper_noSafer_iff {first second : StressScenario} {position : NormalizedPosition}
    {lending : LendingRiskParameters} {threshold : ℕ} (isLoan : position.lending = some lending)
    (partialThreshold : lending.partialLiquidationLtvBps = some threshold)
    (active : 0 < threshold)
    (nonneg : ∀ asset ∈ position.assets, asset.role = .collateral →
      ∀ value ∈ asset.valueUsd, 0 ≤ value)
    (deeper : Deeper first.shocks second.shocks) (admittedFirst : Admitted first.shocks)
    (admittedSecond : Admitted second.shocks)
    (matched : ∀ asset ∈ position.assets, asset.role ≠ .collateral →
      Unmatched toLowerCase first.shocks asset) :
    (∀ (liquidation : Option LiquidationMetrics) (positions : List NormalizedPosition)
        (place : ℕ) (deep shallow : StressPositionResult),
      positions[place]? = some { position with liquidation } →
      (runStressScenario toLowerCase .decimalJs toUpperCase positions first).positions[place]? =
        some deep →
      (runStressScenario toLowerCase .decimalJs toUpperCase positions second).positions[place]? =
        some shallow →
      deep.after.NoSafer shallow.after) ↔
      0 < stressedUsd toLowerCase .decimalJs first.shocks .collateral position ∨
      stressedUsd toLowerCase .decimalJs second.shocks .collateral position ≤ 0 ∨
      stressedUsd toLowerCase .decimalJs second.shocks .debt position ≤ 0 := by
  have isActive : activeThreshold lending = some threshold := by
    rw [activeThreshold, partialThreshold, Option.filter_some, if_pos (decide_eq_true active)]
  have collateral_le := stressedUsd_collateral_le .decimalJs toLowerCase deeper admittedFirst
    admittedSecond nonneg
  have debt_eq := stressedUsd_debt_eq .decimalJs toLowerCase deeper matched
  -- The recorded metrics do not enter the values.
  have after (liquidation : Option LiquidationMetrics) (shocks : List PriceShock) :
      (stressResult { position with liquidation }
        (stressPosition toLowerCase .decimalJs toUpperCase shocks
          { position with liquidation })).after =
        if 0 < stressedUsd toLowerCase .decimalJs shocks .collateral position ∧
            0 < stressedUsd toLowerCase .decimalJs shocks .debt position then
          loanMetrics .decimalJs threshold
            (stressedUsd toLowerCase .decimalJs shocks .collateral position)
            (stressedUsd toLowerCase .decimalJs shocks .debt position)
        else recordedMetrics { position with liquidation } :=
    @stressResult_after .decimalJs toLowerCase toUpperCase { position with liquidation } lending
      threshold isLoan isActive shocks
  constructor
  · intro noSafer
    by_contra lost
    rw [not_or, not_or, not_lt, not_le, not_le] at lost
    obtain ⟨worthless, worth, owed⟩ := lost
    -- Recorded metrics with a higher health factor than the shallower scenario leaves.
    let loan := loanMetrics .decimalJs threshold
      (stressedUsd toLowerCase .decimalJs second.shocks .collateral position)
      (stressedUsd toLowerCase .decimalJs second.shocks .debt position)
    let recorded := some (recordedHealth (loan.healthFactorE4.getD 0 + 1))
    have safer := noSafer recorded [{ position with liquidation := recorded }] 0 _ _ rfl rfl rfl
    rw [after recorded first.shocks, after recorded second.shocks,
      if_neg fun both => both.1.not_ge worthless, if_pos ⟨worth, owed⟩] at safer
    have le := safer.health _ rfl _ rfl
    exact absurd le (lt_add_one _).not_ge
  · rintro alike liquidation positions place deep shallow found found_deep found_shallow
    rw [runStressScenario_positions, List.getElem?_map, found, Option.map_some, Option.some_inj]
      at found_deep found_shallow
    rw [← found_deep, ← found_shallow, after liquidation first.shocks,
      after liquidation second.shocks, debt_eq]
    exact derived_noSafer readsBack_decimalJs threshold collateral_le alike _

/-- A loan of half its collateral, with the metrics of its valuation. -/
def halfLoan : NormalizedPosition where
  id := "loan"
  protocolId := "zest"
  type := .lending
  assets :=
    [{ assetId := "sbtc", symbol := "sBTC", amountAtomic := 100000, decimals := 8
       role := .collateral, valueUsd := some 100 },
      { assetId := "usdcx", symbol := "USDCx", amountAtomic := 50000000, decimals := 6
        role := .debt, valueUsd := some 50 }]
  valueUsd := some 50
  liquidation := some
    { thresholdE4 := some 7000, priceUsd := none, healthFactorE4 := some 14000
      distanceBps := some 2857, partialThresholdBps := some 7000, fullThresholdBps := none }
  lending := some { partialLiquidationLtvBps := some 7000 }
  source := { blockHeight := 100, observedAt := 0, exact := true }

/-- Bridged bitcoin changes, and nothing else. -/
def bridgedChange (changeBps : ℤ) : StressScenario where
  shocks := [{ assetId := none, symbol := some "sBTC", changeBps := changeBps }]

/-- A total loss keeps the health factor from before; losing half of the collateral makes
the same loan liquidatable. -/
theorem totalLoss_looks_safer :
    ∃ deep shallow,
      (runStressScenario String.toLower .decimalJs String.toUpper [halfLoan]
        (bridgedChange (-10000))).positions = [deep] ∧
      (runStressScenario String.toLower .decimalJs String.toUpper [halfLoan]
        (bridgedChange (-5000))).positions = [shallow] ∧
      deep.after = ⟨some 14000, some 2857, false⟩ ∧
      shallow.after = ⟨some 7000, some (-4286), true⟩ ∧
      ¬deep.after.NoSafer shallow.after := by
  refine ⟨_, _, rfl, rfl, by decide +kernel, by decide +kernel, fun noSafer => ?_⟩
  exact absurd (noSafer.flag (by decide +kernel)) (by decide +kernel)

/-- Losing nine tenths of the collateral looks no safer than losing half of it. -/
theorem deeper_noSafer_iff_halfLoan :
    ∃ deep shallow,
      (runStressScenario String.toLower .decimalJs String.toUpper [halfLoan]
        (bridgedChange (-9000))).positions = [deep] ∧
      (runStressScenario String.toLower .decimalJs String.toUpper [halfLoan]
        (bridgedChange (-5000))).positions = [shallow] ∧
      deep.after.NoSafer shallow.after :=
  ⟨_, _, rfl, rfl,
    (deeper_noSafer_iff String.toLower String.toUpper
      (show halfLoan.lending = some _ from rfl) rfl (by decide) (by decide +kernel)
      (show Deeper (bridgedChange (-9000)).shocks (bridgedChange (-5000)).shocks from
        .cons ⟨rfl, rfl, by decide⟩ .nil)
      (by decide) (by decide) (by decide +kernel)).mpr (.inl (by decide +kernel))
      halfLoan.liquidation [halfLoan] 0 _ _ rfl rfl rfl⟩

end RiskRail.Engine
