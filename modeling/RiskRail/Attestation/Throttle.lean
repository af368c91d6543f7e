import RiskRail.Database.RiskSnapshot

/-!
# The attestation throttle

`decideAttestation` publishes a snapshot when the wallet has no attestation yet,
when one of the five published figures changed, or when the last attestation is
at least the minimum interval of source blocks old.
-/

namespace RiskRail.Attestation

open RiskRail.Database RiskRail.Numeric

/-- The fields `publish-risk-snapshot` writes on chain. -/
structure AttestedFigures where
  riskScoreBps : ℤ
  healthFactorE4 : Option ℤ
  liquidationDistanceBps : Option ℤ
  protocolConcentrationBps : ℤ
  liquidityScoreBps : ℤ
  sourceBlock : ℕ

/-- What the throttle looks at in a row. -/
def attestedFigures (snapshot : RiskSnapshot) : AttestedFigures where
  riskScoreBps := snapshot.figures.riskScoreBps
  healthFactorE4 := snapshot.figures.healthFactorE4
  liquidationDistanceBps := snapshot.figures.liquidationDistanceBps
  protocolConcentrationBps := snapshot.figures.protocolConcentrationBps
  liquidityScoreBps := snapshot.figures.liquidityScoreBps
  sourceBlock := snapshot.sourceBlock

/-- The five figures agree. -/
def sameFigures (a b : AttestedFigures) : Prop :=
  a.riskScoreBps = b.riskScoreBps ∧
    a.healthFactorE4 = b.healthFactorE4 ∧
    a.liquidationDistanceBps = b.liquidationDistanceBps ∧
    a.protocolConcentrationBps = b.protocolConcentrationBps ∧
    a.liquidityScoreBps = b.liquidityScoreBps

instance (a b : AttestedFigures) : Decidable (sameFigures a b) :=
  inferInstanceAs (Decidable (_ ∧ _ ∧ _ ∧ _ ∧ _))

theorem sameFigures_refl (a : AttestedFigures) : sameFigures a a :=
  ⟨rfl, rfl, rfl, rfl, rfl⟩

theorem sameFigures.symm {a b : AttestedFigures} (same : sameFigures a b) : sameFigures b a := by
  rcases same with ⟨score, health, distance, concentration, liquidity⟩
  exact ⟨score.symm, health.symm, distance.symm, concentration.symm, liquidity.symm⟩

theorem sameFigures.trans {a b c : AttestedFigures} (first : sameFigures a b)
    (second : sameFigures b c) : sameFigures a c := by
  rcases first with ⟨score, health, distance, concentration, liquidity⟩
  rcases second with ⟨score', health', distance', concentration', liquidity'⟩
  exact ⟨score.trans score', health.trans health', distance.trans distance',
    concentration.trans concentration', liquidity.trans liquidity'⟩

/-- Why a candidate is published. -/
inductive PublishReason where
  | first
  | changed
  | interval
deriving DecidableEq

/-- What the throttle says. -/
inductive AttestationDecision where
  | publish (reason : PublishReason)
  | unchanged (blocksSinceLast : ℚ) (minIntervalBlocks : ℕ)
deriving DecidableEq

/-- The first and every changed candidate is published, a repetition only after the interval. -/
def decideAttestation (candidate : AttestedFigures) (lastPublished : Option AttestedFigures)
    (minIntervalBlocks : ℕ) : AttestationDecision :=
  match lastPublished with
  | none => .publish .first
  | some last =>
      if ¬sameFigures candidate last then .publish .changed
      else
        let blocksSinceLast := toDouble ((candidate.sourceBlock : ℚ) - last.sourceBlock)
        if minIntervalBlocks ≤ blocksSinceLast then .publish .interval
        else .unchanged blocksSinceLast minIntervalBlocks

/-- A skipped candidate has the figures of the last attestation. -/
theorem sameFigures_of_unchanged {candidate : AttestedFigures}
    {lastPublished : Option AttestedFigures} {minIntervalBlocks interval : ℕ}
    {blocksSinceLast : ℚ}
    (skipped : decideAttestation candidate lastPublished minIntervalBlocks =
      .unchanged blocksSinceLast interval) :
    ∃ last, lastPublished = some last ∧ sameFigures candidate last := by
  unfold decideAttestation at skipped
  split at skipped
  · cases skipped
  next last =>
    split at skipped
    · cases skipped
    next same => exact ⟨last, rfl, not_not.mp same⟩

/-- A candidate that repeats the last figures is published only when its source
block is not older. -/
theorem sourceBlock_le_of_publish {candidate last : AttestedFigures} {minIntervalBlocks : ℕ}
    {reason : PublishReason} (same : sameFigures candidate last)
    (published : decideAttestation candidate (some last) minIntervalBlocks = .publish reason) :
    last.sourceBlock ≤ candidate.sourceBlock := by
  simp only [decideAttestation, same, not_true_eq_false, if_false] at published
  split at published
  next due =>
    by_contra older
    have negative : (candidate.sourceBlock : ℚ) - last.sourceBlock ≤ (-1 : ℤ) := by
      have lt : (candidate.sourceBlock : ℚ) + 1 ≤ last.sourceBlock := by
        exact_mod_cast not_le.mp older
      push_cast
      linarith
    have rounded := Arithmetic.decimalJs.toNumber_monotone negative
    rw [Arithmetic.decimalJs.toNumber_of_safe (-1) (by norm_num)] at rounded
    have interval_nonneg : (0 : ℚ) ≤ minIntervalBlocks := Nat.cast_nonneg _
    have due' : (minIntervalBlocks : ℚ) ≤
      Arithmetic.decimalJs.toNumber ((candidate.sourceBlock : ℚ) - last.sourceBlock) := due
    push_cast at rounded
    linarith
  next => cases published

end RiskRail.Attestation
