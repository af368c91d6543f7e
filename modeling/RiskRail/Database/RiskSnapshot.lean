import RiskRail.Engine.Risk

/-!
# Risk snapshot rows

The `RiskSnapshot` table keeps its figures in PostgreSQL `integer` columns:
inserting a row fails when a figure is not a whole number of 32 bits.
-/

namespace RiskRail.Database

open RiskRail.Engine

/-- What an `integer` column accepts of a number. -/
def intColumn (x : ℚ) : Option ℤ :=
  if x.den = 1 ∧ -2 ^ 31 ≤ x ∧ x < 2 ^ 31 then some x.num else none

theorem intColumn_eq_some_iff {x : ℚ} {n : ℤ} :
    intColumn x = some n ↔ x = n ∧ -2 ^ 31 ≤ n ∧ n < 2 ^ 31 := by
  unfold intColumn
  constructor
  · intro stored
    split at stored
    next fits =>
      rcases fits with ⟨whole, lower, upper⟩
      have x_eq : x = x.num := (Rat.den_eq_one_iff x).mp whole |>.symm
      rw [x_eq] at lower upper
      cases stored
      exact ⟨x_eq, by exact_mod_cast lower, by exact_mod_cast upper⟩
    next => cases stored
  · rintro ⟨rfl, lower, upper⟩
    rw [if_pos ⟨Rat.den_intCast n, by exact_mod_cast lower, by exact_mod_cast upper⟩,
      Rat.num_intCast]

/-- A nullable `integer` column. -/
def nullableIntColumn : Option ℚ → Option (Option ℤ)
  | none => some none
  | some x => (intColumn x).map some

theorem nullableIntColumn_eq_some_iff {x : Option ℚ} {n : Option ℤ} :
    nullableIntColumn x = some n ↔
      x = n.map (fun n : ℤ => (n : ℚ)) ∧ ∀ value ∈ n, -2 ^ 31 ≤ value ∧ value < 2 ^ 31 := by
  cases x with
  | none => cases n <;> simp [nullableIntColumn]
  | some x => cases n <;> simp [nullableIntColumn, intColumn_eq_some_iff]

/-- The figures of a row. -/
structure RiskFigures where
  riskLevel : RiskLevel
  riskScoreBps : ℤ
  healthFactorE4 : Option ℤ
  liquidationDistanceBps : Option ℤ
  protocolConcentrationBps : ℤ
  assetConcentrationBps : ℤ
  liquidityScoreBps : ℤ
  capitalAccessibilityBps : ℤ
deriving DecidableEq

/-- The figures `persistRiskSnapshot` inserts, unless a column refuses one. -/
def RiskFigures.ofSummary (summary : PortfolioRiskSummary) : Option RiskFigures := do
  let riskScoreBps ← intColumn summary.riskScoreBps
  let healthFactorE4 ← nullableIntColumn summary.worstHealthFactorE4
  let liquidationDistanceBps ← nullableIntColumn summary.liquidationDistanceBps
  let protocolConcentrationBps ← intColumn summary.protocolConcentrationBps
  let assetConcentrationBps ← intColumn summary.assetConcentrationBps
  let liquidityScoreBps ← intColumn summary.liquidityScoreBps
  let capitalAccessibilityBps ← intColumn summary.capitalAccessibilityBps
  some
    { riskLevel := summary.riskLevel
      riskScoreBps, healthFactorE4, liquidationDistanceBps, protocolConcentrationBps
      assetConcentrationBps, liquidityScoreBps, capitalAccessibilityBps }

/-- A stored row keeps the five attested figures of its summary. -/
theorem RiskFigures.ofSummary_eq_some {summary : PortfolioRiskSummary} {figures : RiskFigures}
    (stored : RiskFigures.ofSummary summary = some figures) :
    summary.riskScoreBps = figures.riskScoreBps ∧
      (summary.worstHealthFactorE4 = figures.healthFactorE4.map (fun n : ℤ => (n : ℚ)) ∧
        ∀ value ∈ figures.healthFactorE4, value < 2 ^ 31) ∧
      summary.liquidationDistanceBps =
        figures.liquidationDistanceBps.map (fun n : ℤ => (n : ℚ)) ∧
      summary.protocolConcentrationBps = figures.protocolConcentrationBps ∧
      summary.liquidityScoreBps = figures.liquidityScoreBps := by
  simp only [ofSummary, Option.bind_eq_bind, Option.bind_eq_some_iff,
    intColumn_eq_some_iff, nullableIntColumn_eq_some_iff, Option.some.injEq] at stored
  rcases stored with ⟨score, ⟨score_eq, -⟩, health, ⟨health_eq, health_range⟩, distance,
    ⟨distance_eq, -⟩, concentration, ⟨concentration_eq, -⟩, asset, -, liquidity,
    ⟨liquidity_eq, -⟩, access, -, rfl⟩
  refine ⟨?_, ⟨health_eq, fun value member => (health_range value member).2⟩, distance_eq,
    concentration_eq, liquidity_eq⟩
  exact_mod_cast score_eq

/-- A row of one wallet's `RiskSnapshot` table, in the columns that never change
after the insert.  The report itself and the methodology version are left out. -/
structure RiskSnapshot where
  id : ℕ
  figures : RiskFigures
  reportHash : String
  sourceBlock : ℕ
  observedAt : ℕ
deriving DecidableEq

/-- `persistRiskSnapshot`: insert a row, unless a column refuses a figure. -/
def persistRiskSnapshot (summary : PortfolioRiskSummary) (reportHash : String)
    (sourceBlock id observedAt : ℕ) : Option RiskSnapshot :=
  (RiskFigures.ofSummary summary).map fun figures =>
    { id, figures, reportHash, sourceBlock, observedAt }

theorem persistRiskSnapshot_sourceBlock {summary : PortfolioRiskSummary} {reportHash : String}
    {sourceBlock id observedAt : ℕ} {row : RiskSnapshot}
    (inserted : persistRiskSnapshot summary reportHash sourceBlock id observedAt = some row) :
    row.sourceBlock = sourceBlock := by
  rcases Option.map_eq_some_iff.mp inserted with ⟨figures, -, rfl⟩
  rfl

end RiskRail.Database
