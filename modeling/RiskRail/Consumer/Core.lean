import RiskRail.Registry.Reads

/-!
# The reference consumer

`risk-consumer-example.clar` asks a risk provider for a fresh reading before it
lets a user open a position.  The provider is whatever contract the caller
passes; `onRegistry` is the consumer called with the risk registry, both of them
in one storage.
-/

namespace RiskRail.Consumer

open RiskRail.Clarity
open RiskRail.Registry (LatestRisk)

/-! ## Constants -/

/-- There is no fresh risk. -/
def errNoFreshRisk : Uint := .literal 400
/-- The health factor is too low. -/
def errUnhealthy : Uint := .literal 401
/-- The concentration is too high. -/
def errTooConcentrated : Uint := .literal 402

/-- About a day of blocks. -/
def maxRiskAgeBlocks : Uint := .literal 144
/-- A health factor of 1.25. -/
def minHealthFactorE4 : Uint := .literal 12500
/-- Six tenths. -/
def maxConcentrationBps : Uint := .literal 6000

/-! ## The contract -/

/-- The data variables of the contract. -/
structure State where
  approvals : Uint
  lastApprovedAt : DataMap Principal Uint

/-- The state after deployment. -/
def State.deployed : State where
  approvals := .literal 0
  lastApprovedAt := fun _ => none

/-- `get-risk-if-fresh` of a provider: a runtime error, `(err ..)`, or `(ok ..)`. -/
abbrev RiskProvider :=
  Principal → Uint → Env → Option (Except Uint (Option LatestRisk))

/-- The two bounds of the contract. -/
def meetsPolicy (healthFactorE4 protocolConcentrationBps : Uint) : Prop :=
  minHealthFactorE4 ≤ healthFactorE4 ∧ protocolConcentrationBps ≤ maxConcentrationBps

instance (healthFactorE4 protocolConcentrationBps : Uint) :
    Decidable (meetsPolicy healthFactorE4 protocolConcentrationBps) :=
  inferInstanceAs (Decidable (_ ∧ _))

/-- `open-position`: the caller's own risk must be fresh and within the bounds. -/
def openPosition (provider : RiskProvider) (user : Principal) (env : Env) (state : State) :
    Outcome State Uint :=
  match provider user maxRiskAgeBlocks env with
  | none => .abort
  -- `try!` hands the provider's error on.
  | some (.error code) => .err code
  | some (.ok none) => .err errNoFreshRisk
  | some (.ok (some risk)) =>
      asserts (minHealthFactorE4 ≤ risk.snapshot.healthFactorE4) errUnhealthy <|
      asserts (risk.snapshot.protocolConcentrationBps ≤ maxConcentrationBps)
        errTooConcentrated <|
      match state.approvals.add (.literal 1) with
      | none => .abort
      | some approvals =>
          .ok risk.snapshotId
            { approvals := approvals
              lastApprovedAt := state.lastApprovedAt.set user env.stacksBlockHeight }

/-- `get-approvals`. -/
def getApprovals (state : State) : Uint :=
  state.approvals

/-- `get-last-approved-at`. -/
def getLastApprovedAt (user : Principal) (state : State) : Option Uint :=
  state.lastApprovedAt user

/-- A position opens on a reading that meets the policy, while the counter of
approvals still has room. -/
theorem openPosition_eq_ok_iff {provider : RiskProvider} {user : Principal} {env : Env}
    {before after : State} {id : Uint} :
    openPosition provider user env before = .ok id after ↔
      ∃ risk, provider user maxRiskAgeBlocks env = some (.ok (some risk)) ∧
        meetsPolicy risk.snapshot.healthFactorE4 risk.snapshot.protocolConcentrationBps ∧
        id = risk.snapshotId ∧ after.approvals.val = before.approvals.val + 1 ∧
        after.lastApprovedAt = before.lastApprovedAt.set user env.stacksBlockHeight := by
  unfold openPosition
  rcases provider user maxRiskAgeBlocks env with _ | (code | _ | risk)
  · simp
  · simp
  · simp
  · simp only [asserts_eq_ok_iff, Option.some.injEq, Except.ok.injEq, exists_eq_left',
      meetsPolicy, and_assoc]
    refine and_congr Iff.rfl (and_congr Iff.rfl ?_)
    cases sum : before.approvals.add (.literal 1) with
    | none =>
        simp only [reduceCtorEq, false_iff, not_and]
        intro _ counted _
        have fits : before.approvals.add (.literal 1) = some after.approvals :=
          Uint.add_eq_some_iff.mpr counted
        rw [sum] at fits
        contradiction
    | some approvals =>
        have counted : approvals.val = before.approvals.val + 1 := Uint.add_eq_some_iff.mp sum
        rcases after with ⟨afterApprovals, afterLast⟩
        simp only [Outcome.ok_eq_ok_iff, State.mk.injEq, Uint.ext_iff, counted]

/-! ## Together with the registry -/

/-- The storage of both contracts. -/
structure System where
  registry : Registry.State
  consumer : State

/-- A call of a public function of either contract; positions are opened with the
registry as provider. -/
inductive Call where
  | registry (call : Registry.PublicCall)
  | openPosition (user : Principal)

/-- The risk registry as a provider: `get-risk-if-fresh` only answers `(ok ..)`. -/
def registryProvider (registry : Registry.State) : RiskProvider :=
  fun user maxAgeBlocks env =>
    (Registry.Read.getRiskIfFresh user maxAgeBlocks env registry).map .ok

/-- Both contracts as one. -/
def onRegistry : Contract System Call Registry.Answer where
  run env call system :=
    match call with
    | .registry call =>
        (Registry.riskRegistry.run env call system.registry).lift
          fun registry => { system with registry := registry }
    | .openPosition user =>
        ((openPosition (registryProvider system.registry) user env system.consumer).map
          Registry.Answer.uint).lift fun consumer => { system with consumer := consumer }

/-- Both contracts right after their deployment. -/
def deployment (deployer : Principal) (height : Uint) : Chain System Call :=
  Chain.genesis height ⟨Registry.State.deployed deployer, State.deployed⟩

theorem registryProvider_eq_some_iff {registry : Registry.State} {user : Principal}
    {maxAgeBlocks : Uint} {env : Env} {risk : LatestRisk} :
    registryProvider registry user maxAgeBlocks env = some (.ok (some risk)) ↔
      Registry.getRiskIfFresh user maxAgeBlocks env registry = some risk := by
  rw [registryProvider, Registry.Read.getRiskIfFresh_eq]
  simp

/-- What a successful call does: one of the contracts moves, the other stays. -/
theorem run_cases {env : Env} {call : Call} {before after : System} {value : Registry.Answer}
    (ran : onRegistry.run env call before = .ok value after) :
    (∃ inner, call = .registry inner ∧
      Registry.riskRegistry.run env inner before.registry = .ok value after.registry ∧
      after.consumer = before.consumer) ∨
    (∃ user id, call = .openPosition user ∧
      openPosition (registryProvider before.registry) user env before.consumer =
        .ok id after.consumer ∧
      after.registry = before.registry) := by
  cases call with
  | registry inner =>
      rcases Outcome.lift_eq_ok_iff.mp ran with ⟨registry, inside, rfl⟩
      exact Or.inl ⟨inner, rfl, inside, rfl⟩
  | openPosition user =>
      rcases Outcome.lift_eq_ok_iff.mp ran with ⟨consumer, inside, rfl⟩
      rcases Outcome.map_eq_ok_iff.mp inside with ⟨id, opened, -⟩
      exact Or.inr ⟨user, id, rfl, opened, rfl⟩

end RiskRail.Consumer
