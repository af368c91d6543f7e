import RiskRail.Engine.Portfolio

/-!
# The risk summary

The risk engine: concentration by protocol and by asset, capital
accessibility, the worst health factor and liquidation distance over all
positions, and the composite score.  Sums run over the positions in order, as
`Decimal` sums; the score is computed with doubles.
-/

namespace RiskRail.Engine

open RiskRail.Numeric

variable (arithmetic : Arithmetic) (toUpperCase : String → String)

/-! ## Concentration -/

/-- `reduce((a, b) => a.gte(b) ? a : b)`: the first of the largest entries. -/
def topEntry : List (String × ℚ) → Option (String × ℚ)
  | [] => none
  | first :: rest =>
      some (rest.foldl (fun top entry => if entry.2 ≤ top.2 then top else entry) first)

/-- A part of a total in whole basis points. -/
def shareBps (part total : ℚ) : ℚ :=
  arithmetic.toNumber <| toDecimalPlaces 0 <|
    arithmetic.mul (arithmetic.div part total) 10000

/-- The largest share and its key. -/
structure ConcentrationResult where
  topKey : Option String
  topShareBps : ℚ
  totalUsd : ℚ

/-- The result for groups of a total. -/
def concentrationOf (groups : List (String × ℚ)) (total : ℚ) : ConcentrationResult :=
  match topEntry groups with
  | none => ⟨none, 0, toDecimalPlaces 2 total⟩
  | some (topKey, topValue) =>
      ⟨some topKey, shareBps arithmetic topValue total, toDecimalPlaces 2 total⟩

/-- The shares of the groups that have a value. -/
def calculateConcentration (entries : List (String × ℚ)) : ConcentrationResult :=
  let normalized := (entries.map fun entry => (entry.1, |entry.2|)).filter fun entry => 0 < entry.2
  let total := normalized.foldl (fun sum entry => arithmetic.plus sum entry.2) 0
  if total ≤ 0 then ⟨none, 0, toDecimalPlaces 2 total⟩
  else concentrationOf arithmetic normalized total

/-- The priced size of a position, debt counted positively. -/
def getGrossExposure (position : NormalizedPosition) : ℚ :=
  match position.valuation with
  | some valuation => |valuation.grossExposureUsd|
  | none =>
      if position.assets.any fun asset => asset.valueUsd.isSome then
        position.assets.foldl
          (fun sum asset => arithmetic.plus sum ((asset.valueUsd.map abs).getD 0)) 0
      else
        |position.valueUsd.getD 0|

/-- The running sums of `protocolConcentration`. -/
structure ProtocolTotals where
  grouped : List (String × ℚ)
  total : ℚ

/-- Wallet balances count toward the total but are not a protocol's. -/
def ProtocolTotals.add (totals : ProtocolTotals) (position : NormalizedPosition) :
    ProtocolTotals :=
  let gross := getGrossExposure arithmetic position
  { total := arithmetic.plus totals.total gross
    grouped :=
      if position.type = .wallet ∨ gross ≤ 0 then totals.grouped
      else addTo arithmetic position.protocolId gross totals.grouped }

/-- The gross exposure by protocol. -/
def protocolTotals (positions : List NormalizedPosition) : ProtocolTotals :=
  positions.foldl (ProtocolTotals.add arithmetic) ⟨[], 0⟩

/-- The share of the largest protocol. -/
def protocolConcentration (positions : List NormalizedPosition) : ConcentrationResult :=
  let totals := protocolTotals arithmetic positions
  if totals.total ≤ 0 then ⟨none, 0, 0⟩
  else concentrationOf arithmetic totals.grouped totals.total

/-- The values of all assets by upper-case symbol. -/
def assetGroups (positions : List NormalizedPosition) : List (String × ℚ) :=
  (positions.flatMap fun position => position.assets).foldl
    (fun groups asset =>
      match asset.valueUsd with
      | none => groups
      | some valueUsd => addTo arithmetic (toUpperCase asset.symbol) |valueUsd| groups)
    []

/-- The share of the largest asset. -/
def assetConcentration (positions : List NormalizedPosition) : ConcentrationResult :=
  calculateConcentration arithmetic (assetGroups arithmetic toUpperCase positions)

/-! ## Accessibility -/

/-- The running sums of `capitalAccessibilityBps`. -/
structure AccessTotals where
  weighted : ℚ
  total : ℚ

/-- A position weighs in with its exposure and the share that is liquid. -/
def AccessTotals.add (totals : AccessTotals) (position : NormalizedPosition) : AccessTotals :=
  let gross := getGrossExposure arithmetic position
  if gross ≤ 0 then totals
  else
    { total := arithmetic.plus totals.total gross
      weighted := arithmetic.plus totals.weighted
        (arithmetic.mul gross (arithmetic.ofNumber (position.liquidBps.getD 10000 : ℕ))) }

/-- All positions weighed. -/
def accessTotals (positions : List NormalizedPosition) : AccessTotals :=
  positions.foldl (AccessTotals.add arithmetic) ⟨0, 0⟩

/-- The liquid share of the exposure; all of it where there is none. -/
def capitalAccessibilityBps (positions : List NormalizedPosition) : ℚ :=
  let totals := accessTotals arithmetic positions
  if totals.total = 0 then 10000
  else arithmetic.toNumber (toDecimalPlaces 0 (arithmetic.div totals.weighted totals.total))

/-! ## Levels and the score -/

/-- How the summary judges an account. -/
inductive RiskLevel where
  | healthy
  | moderate
  | elevated
  | critical
  | unknown
deriving DecidableEq

/-- The level of a health factor. -/
def classifyHealthFactor : Option ℚ → RiskLevel
  | none => .unknown
  | some healthFactorE4 =>
      if healthFactorE4 < 12000 then .critical
      else if healthFactorE4 < 15000 then .elevated
      else if healthFactorE4 < 20000 then .moderate
      else .healthy

/-- The part of the score that the health factor makes. -/
def healthRiskBps : Option ℚ → ℚ
  | none => 0
  | some healthFactorE4 =>
      if healthFactorE4 < 12000 then 10000
      else if healthFactorE4 < 15000 then 7500
      else if healthFactorE4 < 20000 then 4000
      else 1000

/-- A share above a quarter adds to the score. -/
def concentrationRiskBps (topShareBps : ℚ) : ℚ :=
  if topShareBps ≤ 2500 then 0
  else
    min 10000 (mathRound (toDouble (toDouble (toDouble (topShareBps - 2500) / 7500) * 10000)))

/-- The level of the health factor, or else that of the score. -/
def overallRiskLevel (healthFactorE4 : Option ℚ) (scoreBps : ℤ) : RiskLevel :=
  let health := classifyHealthFactor healthFactorE4
  if health ≠ .unknown then health
  else if 7500 ≤ scoreBps then .critical
  else if 5000 ≤ scoreBps then .elevated
  else if 2500 ≤ scoreBps then .moderate
  else .healthy

/-- `healthRisk * 0.4 + concentrationRisk * 0.3 + accessibilityRisk * 0.3` in
doubles, then `Math.round`. -/
def compositeScore (healthRisk concentrationRisk accessibilityRisk : ℚ) : ℤ :=
  let weigh (risk weight : ℚ) : ℚ := toDouble (risk * toDouble weight)
  mathRound <| toDouble <|
    toDouble (weigh healthRisk (4 / 10) + weigh concentrationRisk (3 / 10)) +
      weigh accessibilityRisk (3 / 10)

/-- `sort((a, b) => a - b)[0]` of the defined values. -/
def smallest (values : List (Option ℚ)) : Option ℚ :=
  ((values.filterMap fun value => value).mergeSort fun first second => first ≤ second).head?

/-- The figures of an account. -/
structure PortfolioRiskSummary where
  protocolConcentrationBps : ℚ
  assetConcentrationBps : ℚ
  capitalAccessibilityBps : ℚ
  liquidityScoreBps : ℚ
  riskScoreBps : ℤ
  riskLevel : RiskLevel
  worstHealthFactorE4 : Option ℚ
  liquidationDistanceBps : Option ℚ
deriving DecidableEq

/-- The figures of valued positions. -/
def calculatePortfolioRisk (positions : List NormalizedPosition) : PortfolioRiskSummary :=
  let protocol := protocolConcentration arithmetic positions
  let asset := assetConcentration arithmetic toUpperCase positions
  let accessibility := capitalAccessibilityBps arithmetic positions
  let worstHealth := smallest (positions.map fun position =>
    position.liquidation.bind LiquidationMetrics.healthFactorE4)
  let liquidationDistance := smallest (positions.map fun position =>
    position.liquidation.bind LiquidationMetrics.distanceBps)
  let score := compositeScore (healthRiskBps worstHealth)
    (concentrationRiskBps protocol.topShareBps) (max 0 (toDouble (10000 - accessibility)))
  { protocolConcentrationBps := protocol.topShareBps
    assetConcentrationBps := asset.topShareBps
    capitalAccessibilityBps := accessibility
    liquidityScoreBps := accessibility
    riskScoreBps := max 0 (min 10000 score)
    riskLevel := overallRiskLevel worstHealth score
    worstHealthFactorE4 := worstHealth
    liquidationDistanceBps := liquidationDistance }

/-! ## The smallest of several values -/

theorem smallest_eq_none_iff {values : List (Option ℚ)} :
    smallest values = none ↔ ∀ value ∈ values, value = none := by
  unfold smallest
  rw [List.head?_eq_none_iff, ← List.length_eq_zero_iff, List.length_mergeSort,
    List.length_eq_zero_iff, List.filterMap_eq_nil_iff]

theorem smallest_eq_some {values : List (Option ℚ)} {least : ℚ}
    (found : smallest values = some least) :
    some least ∈ values ∧ ∀ value, some value ∈ values → least ≤ value := by
  unfold smallest at found
  rw [List.head?_eq_some_iff] at found
  rcases found with ⟨rest, sorted_eq⟩
  have member_iff : ∀ value, value ∈ least :: rest ↔ some value ∈ values := by
    intro value
    rw [← sorted_eq, List.mem_mergeSort]
    simp
  have ordered : (least :: rest).Pairwise fun first second => decide (first ≤ second) = true := by
    rw [← sorted_eq]
    apply List.pairwise_mergeSort
    · intro first second third
      simpa using le_trans
    · intro first second
      simpa using le_total first second
  constructor
  · exact (member_iff least).mp List.mem_cons_self
  · intro value member
    rcases List.mem_cons.mp ((member_iff value).mpr member) with rfl | later
    · exact le_rfl
    · simpa using List.rel_of_pairwise_cons ordered later

end RiskRail.Engine
