import RiskRail.Clarity.Chain

/-!
# Two-step ownership

Ownership of a contract moves in two steps: the owner nominates, the nominee
accepts.  `TwoStepOwnership` says which of a contract's calls take part in the
protocol and what they do to the owner and the pending nomination.  From that
alone every acceptance is traced back to the nomination it answers.
-/

namespace RiskRail.Clarity

open RiskRail.Transition

universe u v w

/-- The part a public call plays in the ownership protocol. -/
inductive OwnershipCall where
  | nominate (successor : Principal)
  | accept
  | cancel
  | other
  deriving DecidableEq

/-- A contract whose owner changes in two steps. -/
structure TwoStepOwnership {σ : Type u} {Call : Type v} {Value : Type w}
    (contract : Contract σ Call Value) where
  owner : σ → Principal
  pending : σ → Option Principal
  kind : Call → OwnershipCall
  nominate_ok : ∀ {env call before value after successor},
    contract.run env call before = .ok value after → kind call = .nominate successor →
      env.txSender = owner before ∧ owner after = owner before ∧
        pending after = some successor
  accept_ok : ∀ {env call before value after},
    contract.run env call before = .ok value after → kind call = .accept →
      pending before = some env.txSender ∧ owner after = env.txSender ∧
        pending after = none
  cancel_ok : ∀ {env call before value after},
    contract.run env call before = .ok value after → kind call = .cancel →
      env.txSender = owner before ∧ owner after = owner before ∧ pending after = none
  other_ok : ∀ {env call before value after},
    contract.run env call before = .ok value after → kind call = .other →
      owner after = owner before ∧ pending after = pending before

namespace TwoStepOwnership

variable {σ : Type u} {Call : Type v} {Value : Type w} {contract : Contract σ Call Value}

/-- No ownership call of these receipts succeeded: no nomination, acceptance
or cancellation. -/
def Quiet (ownership : TwoStepOwnership contract) (receipts : List (Receipt Call)) : Prop :=
  ∀ receipt ∈ receipts, receipt.succeeded = true → ownership.kind receipt.tx.call = .other

/-- Among these receipts `owner`, owning the contract at that time, nominated
`nominee`, and no ownership call succeeded after that. -/
def Nominated (ownership : TwoStepOwnership contract) (genesis : Chain σ Call)
    (receipts : List (Receipt Call)) (owner nominee : Principal) : Prop :=
  ∃ newer nomination older chainThen,
    receipts = newer ++ nomination :: older ∧
      nomination.succeeded = true ∧
      ownership.kind nomination.tx.call = .nominate nominee ∧
      Reachable contract.next genesis chainThen ∧
      chainThen.receipts = older ∧
      nomination.tx.sender = owner ∧
      ownership.owner chainThen.state = owner ∧
      ownership.Quiet newer

/-- A later receipt that is no successful ownership call keeps a nomination. -/
theorem Nominated.cons {ownership : TwoStepOwnership contract} {genesis : Chain σ Call}
    {receipts : List (Receipt Call)} {owner nominee : Principal}
    (nominated : ownership.Nominated genesis receipts owner nominee)
    {receipt : Receipt Call}
    (quiet : receipt.succeeded = true → ownership.kind receipt.tx.call = .other) :
    ownership.Nominated genesis (receipt :: receipts) owner nominee := by
  obtain ⟨newer, nomination, older, chainThen, split, success, kind, reached, then_eq,
    sender, owned, quietNewer⟩ := nominated
  refine ⟨receipt :: newer, nomination, older, chainThen, by rw [split]; rfl, success, kind,
    reached, then_eq, sender, owned, ?_⟩
  intro later member
  rcases List.mem_cons.mp member with rfl | member
  · exact quiet
  · exact quietNewer later member

/-- Every pending nomination was made by the present owner, and nothing
happened to the ownership since. -/
def Provenance (ownership : TwoStepOwnership contract) (genesis chain : Chain σ Call) : Prop :=
  Reachable contract.next genesis chain ∧
    ∀ nominee, ownership.pending chain.state = some nominee →
      ownership.Nominated genesis chain.receipts (ownership.owner chain.state) nominee

theorem Provenance.next {ownership : TwoStepOwnership contract} {genesis chain after : Chain σ Call}
    {tx : Tx Call} (provenance : ownership.Provenance genesis chain)
    (step : contract.next chain tx = some after) :
    ownership.Provenance genesis after := by
  obtain ⟨reached, nominations⟩ := provenance
  refine ⟨reached.tail step, ?_⟩
  intro nominee pending
  rcases (Contract.next_cases step).2.2 with ⟨value, ran, receipts_eq⟩ | ⟨kept, receipts_eq⟩
  · rw [receipts_eq]
    cases kind : ownership.kind tx.call with
    | nominate successor =>
        obtain ⟨sender, owner_eq, pending_eq⟩ := ownership.nominate_ok ran kind
        rw [pending_eq] at pending
        cases pending
        refine ⟨[], ⟨tx, true⟩, chain.receipts, chain, rfl, rfl, kind, reached, rfl, ?_, ?_, ?_⟩
        · exact sender.trans owner_eq.symm
        · exact owner_eq.symm
        · intro receipt member
          exact absurd member List.not_mem_nil
    | accept =>
        rw [(ownership.accept_ok ran kind).2.2] at pending
        contradiction
    | cancel =>
        rw [(ownership.cancel_ok ran kind).2.2] at pending
        contradiction
    | other =>
        obtain ⟨owner_eq, pending_eq⟩ := ownership.other_ok ran kind
        rw [pending_eq] at pending
        rw [owner_eq]
        exact (nominations nominee pending).cons fun _ => kind
  · rw [kept] at pending ⊢
    rw [receipts_eq]
    refine (nominations nominee pending).cons fun success => ?_
    contradiction

/-- From a deployment with nothing pending, nominations are traceable in every
reachable state. -/
theorem provenance_of_reachable (ownership : TwoStepOwnership contract)
    {genesis chain : Chain σ Call} (nothing : ownership.pending genesis.state = none)
    (reachable : Reachable contract.next genesis chain) :
    ownership.Provenance genesis chain := by
  obtain ⟨txs, run⟩ := reachable
  refine exec_invariant (fun provenance step => Provenance.next provenance step) run
    ⟨Reachable.refl _ _, ?_⟩
  intro nominee pending
  rw [nothing] at pending
  contradiction

/-- The owner changes only by an acceptance of the sender, and every acceptance
hands the contract to its sender and clears the nomination. -/
theorem owner_changes_only_by_accept (ownership : TwoStepOwnership contract)
    {chain after : Chain σ Call} {tx : Tx Call}
    (step : contract.next chain tx = some after)
    (changed : ownership.owner after.state ≠ ownership.owner chain.state) :
    ownership.kind tx.call = .accept ∧
      ownership.pending chain.state = some tx.sender ∧
      ownership.owner after.state = tx.sender ∧
      ownership.pending after.state = none := by
  rcases (Contract.next_cases step).2.2 with ⟨value, ran, _⟩ | ⟨kept, _⟩
  · cases kind : ownership.kind tx.call with
    | nominate successor => exact absurd (ownership.nominate_ok ran kind).2.1 changed
    | accept => exact ⟨rfl, ownership.accept_ok ran kind⟩
    | cancel => exact absurd (ownership.cancel_ok ran kind).2.1 changed
    | other => exact absurd (ownership.other_ok ran kind).1 changed
  · exact absurd (congrArg ownership.owner kept) changed

end TwoStepOwnership

end RiskRail.Clarity
