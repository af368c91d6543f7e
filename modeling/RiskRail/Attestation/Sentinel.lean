import RiskRail.Attestation.Publishable

/-!
# The no-debt sentinel

A snapshot without a health factor is published with the largest `uint`, which
consumers read as a wallet without debt.  The engine leaves the health factor
out for other reasons too: no partial threshold, or collateral or debt that has
no price.  This file says when the sentinel can be trusted.
-/

namespace RiskRail.Attestation

open RiskRail.Clarity RiskRail.Registry RiskRail.Numeric RiskRail.Engine RiskRail.Database

/-- Some position owes a positive amount. -/
def HasDebt (adapters : List AdapterPosition) : Prop :=
  ∃ adapter ∈ adapters, ∃ asset ∈ adapter.position.assets,
    asset.role = .debt ∧ 0 < asset.amountAtomic

variable {arithmetic : Arithmetic} {toUpperCase : String → String}

/-- The health factor of a summary is undefined exactly when no position has a
valued loan with an active threshold. -/
theorem worstHealthFactorE4_eq_none_iff {prices : PriceMap} {adapters : List AdapterPosition} :
    (riskSummary arithmetic toUpperCase prices adapters).worstHealthFactorE4 = none ↔
      ∀ adapter ∈ adapters,
        loanThreshold arithmetic toUpperCase prices adapter.position = none := by
  have listed : ∀ adapter ∈ adapters,
      ((valuePosition arithmetic toUpperCase prices adapter.position).liquidation.bind
          LiquidationMetrics.healthFactorE4 = none ↔
        loanThreshold arithmetic toUpperCase prices adapter.position = none) := by
    intro adapter member
    rw [(valuePosition_liquidation arithmetic toUpperCase prices adapter).1,
      Option.map_eq_none_iff]
  constructor
  · intro undefined adapter member
    apply (listed adapter member).mp
    exact smallest_eq_none_iff.mp undefined _ (mem_valued_iff.mpr ⟨adapter, member, rfl⟩)
  · intro unloaned
    apply smallest_eq_none_iff.mpr
    intro value member
    rcases mem_valued_iff.mp member with ⟨adapter, adapterMem, rfl⟩
    exact (listed adapter adapterMem).mpr (unloaned adapter adapterMem)

/-- A published call carries the sentinel exactly when the summary has no health
factor: a stored health factor is far below the largest `uint`. -/
theorem healthFactorUnbounded_iff {cl : ClarityEncoder} {wallet : Principal}
    {prices : PriceMap} {adapters : List AdapterPosition} {reportHash : String}
    {sourceBlock id observedAt : ℕ} {snapshot : RiskSnapshot} {args : PublishArgs}
    (queued : persistRiskSnapshot (riskSummary arithmetic toUpperCase prices adapters)
      reportHash sourceBlock id observedAt = some snapshot)
    (published : publish cl (attestationInput wallet snapshot) = .ok args) :
    args.healthFactorE4 = healthFactorUnbounded ↔
      (riskSummary arithmetic toUpperCase prices adapters).worstHealthFactorE4 = none := by
  rcases attestationInput_of_summary wallet queued with ⟨input_eq, health_range⟩
  rw [input_eq] at published
  have encoded := (publish_eq_ok published).2.1
  dsimp only at encoded
  cases worst : (riskSummary arithmetic toUpperCase prices adapters).worstHealthFactorE4 with
  | none =>
      rw [worst] at encoded
      rcases cl.uintOfBigint_fits unboundedHealthFactor (by decide) with ⟨value, encodes, val_eq⟩
      have same : args.healthFactorE4 = value := by
        rw [encodeHealthFactor, encodes] at encoded
        exact (Except.ok.inj encoded).symm
      rw [same]
      exact iff_of_true (Uint.ext val_eq) rfl
  | some healthFactor =>
      rw [worst] at encoded
      rcases health_range healthFactor worst with ⟨n, lt, rfl⟩
      have nonneg : 0 ≤ n := by exact_mod_cast worstHealthFactorE4_nonneg worst
      lift n to ℕ using nonneg
      rcases cl.uintOfNumber_safe n (by omega) with ⟨value, encodes, val_eq⟩
      have same : args.healthFactorE4 = value := by
        rw [encodeHealthFactor, Int.cast_natCast, encodes] at encoded
        exact (Except.ok.inj encoded).symm
      rw [same]
      apply iff_of_false
      · rintro rfl
        have huge : (340282366920938463463374607431768211455 : ℕ) = n := val_eq
        omega
      · simp

/-- A published sentinel means no debt exactly when there is no debt, or some
loan with an active threshold has collateral and debt that are priced and worth
something. -/
theorem sentinel_means_no_debt_iff {cl : ClarityEncoder} {wallet : Principal}
    {prices : PriceMap} {adapters : List AdapterPosition} {reportHash : String}
    {sourceBlock id observedAt : ℕ} {snapshot : RiskSnapshot} {args : PublishArgs}
    (queued : persistRiskSnapshot (riskSummary arithmetic toUpperCase prices adapters)
      reportHash sourceBlock id observedAt = some snapshot)
    (published : publish cl (attestationInput wallet snapshot) = .ok args) :
    (args.healthFactorE4 = healthFactorUnbounded → ¬HasDebt adapters) ↔
      ¬HasDebt adapters ∨
        ∃ adapter ∈ adapters, ∃ lending threshold,
          adapter.position.lending = some lending ∧ activeThreshold lending = some threshold ∧
            0 < pricedUsd arithmetic toUpperCase prices .collateral adapter.position ∧
            0 < pricedUsd arithmetic toUpperCase prices .debt adapter.position := by
  have loan_iff : ∀ adapter : AdapterPosition,
      loanThreshold arithmetic toUpperCase prices adapter.position ≠ none ↔
        ∃ lending threshold,
          adapter.position.lending = some lending ∧ activeThreshold lending = some threshold ∧
            0 < pricedUsd arithmetic toUpperCase prices .collateral adapter.position ∧
            0 < pricedUsd arithmetic toUpperCase prices .debt adapter.position := by
    intro adapter
    rw [Option.ne_none_iff_exists']
    unfold loanThreshold
    constructor
    · rintro ⟨threshold, loan⟩
      split at loan
      next worth =>
        rcases Option.bind_eq_some_iff.mp loan with ⟨lending, lends, active⟩
        exact ⟨lending, threshold, lends, active, worth⟩
      next => cases loan
    · rintro ⟨lending, threshold, lends, active, worth⟩
      rw [if_pos worth, lends]
      exact ⟨threshold, active⟩
  rw [healthFactorUnbounded_iff queued published, worstHealthFactorE4_eq_none_iff]
  constructor
  · intro trusted
    by_cases unloaned : ∀ adapter ∈ adapters,
        loanThreshold arithmetic toUpperCase prices adapter.position = none
    · exact .inl (trusted unloaned)
    · push Not at unloaned
      rcases unloaned with ⟨adapter, member, loan⟩
      exact .inr ⟨adapter, member, (loan_iff adapter).mp loan⟩
  · rintro (debtFree | ⟨adapter, member, loan⟩) unloaned
    · exact debtFree
    · exact absurd (unloaned adapter member) ((loan_iff adapter).mpr loan)

/-! ## The same loan without and with prices -/

theorem hasDebt_bitcoinLoan : HasDebt [bitcoinLoan] :=
  ⟨bitcoinLoan, List.mem_singleton_self _, _, .tail _ (.head _), rfl, by decide⟩

/-- The row stored for the loan at the given quotes. -/
def bitcoinLoanSnapshot (prices : PriceMap) : Option RiskSnapshot :=
  persistRiskSnapshot (riskSummary .decimalJs String.toUpper prices [bitcoinLoan])
    zeroDigest.hex 100 1 0

/-- The call published for that row. -/
def bitcoinLoanCall (prices : PriceMap) : Option PublishArgs := do
  let snapshot ← bitcoinLoanSnapshot prices
  (publish standardEncoder (attestationInput (.standard "SP1") snapshot)).toOption

private theorem bitcoinLoanCall_eq_some {prices : PriceMap} {args : PublishArgs}
    (call : bitcoinLoanCall prices = some args) :
    ∃ snapshot, bitcoinLoanSnapshot prices = some snapshot ∧
      publish standardEncoder (attestationInput (.standard "SP1") snapshot) = .ok args := by
  rcases Option.bind_eq_some_iff.mp call with ⟨snapshot, stored, published⟩
  refine ⟨snapshot, stored, ?_⟩
  cases result : publish standardEncoder (attestationInput (.standard "SP1") snapshot) with
  | error message =>
      rw [result] at published
      cases published
  | ok value =>
      rw [result] at published
      cases published
      rfl

/-- During an oracle outage a wallet that owes 50000 dollars is published with
the no-debt sentinel. -/
theorem outage_publishes_sentinel :
    ∃ snapshot args, bitcoinLoanSnapshot .empty = some snapshot ∧
      publish standardEncoder (attestationInput (.standard "SP1") snapshot) = .ok args ∧
      args.healthFactorE4 = healthFactorUnbounded ∧ HasDebt [bitcoinLoan] := by
  have call : (bitcoinLoanCall .empty).map PublishArgs.healthFactorE4 =
      some healthFactorUnbounded := by
    decide +kernel
  rcases Option.map_eq_some_iff.mp call with ⟨args, called, sentinel⟩
  rcases bitcoinLoanCall_eq_some called with ⟨snapshot, stored, published⟩
  exact ⟨snapshot, args, stored, published, sentinel, hasDebt_bitcoinLoan⟩

/-- With both prices the same wallet is published with its health factor. -/
theorem sentinel_means_no_debt_iff_priced :
    ∃ snapshot args, bitcoinLoanSnapshot (bitcoinQuotes 100000) = some snapshot ∧
      publish standardEncoder (attestationInput (.standard "SP1") snapshot) = .ok args ∧
      (args.healthFactorE4 = healthFactorUnbounded → ¬HasDebt [bitcoinLoan]) := by
  have call : (bitcoinLoanCall (bitcoinQuotes 100000)).isSome = true := by
    decide +kernel
  rcases Option.isSome_iff_exists.mp call with ⟨args, called⟩
  rcases bitcoinLoanCall_eq_some called with ⟨snapshot, stored, published⟩
  have worth : 0 < pricedUsd .decimalJs String.toUpper (bitcoinQuotes 100000) .collateral
        bitcoinLoan.position ∧
      0 < pricedUsd .decimalJs String.toUpper (bitcoinQuotes 100000) .debt
        bitcoinLoan.position := by
    decide +kernel
  refine ⟨snapshot, args, stored, published, ?_⟩
  apply (sentinel_means_no_debt_iff stored published).mpr
  exact .inr ⟨bitcoinLoan, List.mem_singleton_self _, _, 7000, rfl, rfl, worth⟩

end RiskRail.Attestation
