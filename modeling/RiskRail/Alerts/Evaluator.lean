import RiskRail.Database.RiskSnapshot

/-!
# Alert rules

When a rule fires: its metric breaches the threshold and did not in the snapshot
before.  A metric that was missing before counts as not breaching.
-/

namespace RiskRail.Alerts

open RiskRail.Database

/-- What a rule can look at. -/
inductive Metric where
  | riskScoreBps
  | healthFactorE4
  | liquidationDistanceBps
  | protocolConcentrationBps
  | assetConcentrationBps
  | liquidityScoreBps
  | capitalAccessibilityBps
deriving DecidableEq

/-- How a metric is compared. -/
inductive ThresholdOperator where
  | lt
  | lte
  | gt
  | gte
deriving DecidableEq

/-- An `ACTIVE` row of `AlertRule`.  The threshold was checked to be a finite
number when the rule was created. -/
structure AlertRule where
  id : String
  metric : Metric
  operator : ThresholdOperator
  threshold : ℚ
deriving DecidableEq

/-- The figure of a snapshot that a metric names; `none` where it is absent. -/
def metricValue (snapshot : RiskFigures) : Metric → Option ℤ
  | .riskScoreBps => some snapshot.riskScoreBps
  | .healthFactorE4 => snapshot.healthFactorE4
  | .liquidationDistanceBps => snapshot.liquidationDistanceBps
  | .protocolConcentrationBps => some snapshot.protocolConcentrationBps
  | .assetConcentrationBps => some snapshot.assetConcentrationBps
  | .liquidityScoreBps => some snapshot.liquidityScoreBps
  | .capitalAccessibilityBps => some snapshot.capitalAccessibilityBps

/-- Whether a value is on the wrong side of a threshold. -/
def compareThreshold (value : ℤ) (operator : ThresholdOperator) (threshold : ℚ) : Bool :=
  match operator with
  | .lt => value < threshold
  | .lte => value ≤ threshold
  | .gt => threshold < value
  | .gte => threshold ≤ value

/-- The metric breaches now and did not before; a missing one breaches nothing. -/
def crossedIntoBreach (currentValue previousValue : Option ℤ) (operator : ThresholdOperator)
    (threshold : ℚ) : Bool :=
  match currentValue with
  | none => false
  | some value =>
      let current := compareThreshold value operator threshold
      let previous :=
        match previousValue with
        | none => false
        | some value => compareThreshold value operator threshold
      current && !previous

/-- Breached now, and not before; a missing value does not breach. -/
theorem crossedIntoBreach_iff {currentValue previousValue : Option ℤ}
    {operator : ThresholdOperator} {threshold : ℚ} :
    crossedIntoBreach currentValue previousValue operator threshold = true ↔
      (∃ value ∈ currentValue, compareThreshold value operator threshold = true) ∧
        ∀ value ∈ previousValue, ¬compareThreshold value operator threshold = true := by
  cases currentValue with
  | none => simp [crossedIntoBreach]
  | some value => cases previousValue <;> simp [crossedIntoBreach]

/-- The rule's metric is present and breaches the threshold. -/
def AlertRule.Breaches (rule : AlertRule) (snapshot : RiskFigures) : Prop :=
  ∃ value ∈ metricValue snapshot rule.metric,
    compareThreshold value rule.operator rule.threshold = true

instance (rule : AlertRule) (snapshot : RiskFigures) : Decidable (rule.Breaches snapshot) :=
  inferInstanceAs (Decidable (∃ value ∈ metricValue snapshot rule.metric, _ = true))

/-- The value a rule fires with on a snapshot, after the previous one. -/
def AlertRule.fires (rule : AlertRule) (snapshot : RiskFigures) (previous : Option RiskFigures) :
    Option ℤ :=
  (metricValue snapshot rule.metric).filter fun currentValue =>
    crossedIntoBreach (some currentValue)
      (previous.bind fun figures => metricValue figures rule.metric) rule.operator rule.threshold

/-- A value that breaches, after a snapshot whose metric did not. -/
theorem crossedIntoBreach_metricValue_iff {currentValue : ℤ} {previous : Option RiskFigures}
    {metric : Metric} {operator : ThresholdOperator} {threshold : ℚ} :
    crossedIntoBreach (some currentValue)
        (previous.bind fun figures => metricValue figures metric) operator threshold = true ↔
      compareThreshold currentValue operator threshold = true ∧
        ∀ figures ∈ previous, ¬∃ value ∈ metricValue figures metric,
          compareThreshold value operator threshold = true := by
  rw [crossedIntoBreach_iff]
  cases previous with
  | none => simp
  | some figures => simp

theorem AlertRule.fires_isSome_iff (rule : AlertRule) (snapshot : RiskFigures)
    (previous : Option RiskFigures) :
    (rule.fires snapshot previous).isSome = true ↔
      rule.Breaches snapshot ∧ ∀ figures ∈ previous, ¬rule.Breaches figures := by
  unfold fires Breaches
  cases metricValue snapshot rule.metric with
  | none => simp
  | some value =>
      rw [Option.isSome_filter, Option.any_some, crossedIntoBreach_metricValue_iff]
      simp

end RiskRail.Alerts
