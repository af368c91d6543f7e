import RiskRail.Clarity.Chain

/-!
# The risk policy contract

Storage and public functions of `risk-policy.clar`: every wallet keeps at most one
policy, which only its own calls write.
-/

namespace RiskRail.Policy

open RiskRail.Clarity RiskRail.Transition

/-! ## Constants -/

/-- The score bound is above the maximum. -/
def errInvalidScore : Uint := .literal 200
/-- A share is above the whole. -/
def errInvalidBps : Uint := .literal 201
/-- The health factor bound is too high. -/
def errInvalidHealthFactor : Uint := .literal 202

/-- The highest health factor that a policy may ask for. -/
def maxMinHealthFactorE4 : Uint := .literal 1000000

/-- `u10000`. -/
def fullBps : Uint := .literal 10000

/-! ## Storage -/

/-- One row of `risk-policies`. -/
structure RiskPolicy where
  maxRiskScoreBps : Uint
  minHealthFactorE4 : Uint
  maxProtocolConcentrationBps : Uint
  minLiquidityScoreBps : Uint
  enabled : Bool
  updatedAt : Uint
  deriving DecidableEq

/-- The map of the contract. -/
structure State where
  riskPolicies : DataMap Principal RiskPolicy

/-- The state after deployment. -/
def State.deployed : State where
  riskPolicies := fun _ => none

/-! ## Public functions -/

/-- The arguments of `set-risk-policy`. -/
structure SetArgs where
  maxRiskScoreBps : Uint
  minHealthFactorE4 : Uint
  maxProtocolConcentrationBps : Uint
  minLiquidityScoreBps : Uint
  deriving DecidableEq

/-- The row `set-risk-policy` writes. -/
def SetArgs.policy (args : SetArgs) (updatedAt : Uint) : RiskPolicy where
  maxRiskScoreBps := args.maxRiskScoreBps
  minHealthFactorE4 := args.minHealthFactorE4
  maxProtocolConcentrationBps := args.maxProtocolConcentrationBps
  minLiquidityScoreBps := args.minLiquidityScoreBps
  enabled := true
  updatedAt := updatedAt

/-- `set-risk-policy`: the caller's own policy, new or replaced. -/
def setRiskPolicy (args : SetArgs) (env : Env) (state : State) : Outcome State Bool :=
  asserts (args.maxRiskScoreBps ≤ fullBps) errInvalidScore <|
  asserts (args.maxProtocolConcentrationBps ≤ fullBps) errInvalidBps <|
  asserts (args.minLiquidityScoreBps ≤ fullBps) errInvalidBps <|
  asserts (args.minHealthFactorE4 ≤ maxMinHealthFactorE4) errInvalidHealthFactor <|
    .ok true ⟨state.riskPolicies.set env.txSender (args.policy env.stacksBlockHeight)⟩

/-- `set-policy-enabled`: false where the caller has no policy. -/
def setPolicyEnabled (enabled : Bool) (env : Env) (state : State) : Outcome State Bool :=
  match state.riskPolicies env.txSender with
  | some policy =>
      .ok true ⟨state.riskPolicies.set env.txSender
        { policy with enabled := enabled, updatedAt := env.stacksBlockHeight }⟩
  | none => .ok false state

/-- `delete-risk-policy`. -/
def deleteRiskPolicy (env : Env) (state : State) : Outcome State Bool :=
  .ok true ⟨state.riskPolicies.delete env.txSender⟩

/-- `get-risk-policy`. -/
def getRiskPolicy (wallet : Principal) (state : State) : Option RiskPolicy :=
  state.riskPolicies wallet

/-! ## The contract -/

/-- A call of one of the public functions. -/
inductive PublicCall where
  | setRiskPolicy (args : SetArgs)
  | setPolicyEnabled (enabled : Bool)
  | deleteRiskPolicy
  deriving DecidableEq

/-- `risk-policy.clar` as a contract. -/
def riskPolicy : Contract State PublicCall Bool where
  run env call state :=
    match call with
    | .setRiskPolicy args => setRiskPolicy args env state
    | .setPolicyEnabled enabled => setPolicyEnabled enabled env state
    | .deleteRiskPolicy => deleteRiskPolicy env state

/-- The chain right after the contract's deployment. -/
def deployment (height : Uint) : Chain State PublicCall :=
  Chain.genesis height State.deployed

/-- The bounds of a policy's figures. -/
structure RiskPolicy.InBounds (policy : RiskPolicy) : Prop where
  maxRiskScoreBps : policy.maxRiskScoreBps.val ≤ 10000
  maxProtocolConcentrationBps : policy.maxProtocolConcentrationBps.val ≤ 10000
  minLiquidityScoreBps : policy.minLiquidityScoreBps.val ≤ 10000
  minHealthFactorE4 : policy.minHealthFactorE4.val ≤ 1000000

theorem setRiskPolicy_eq_ok_iff {args : SetArgs} {env : Env} {before after : State}
    {value : Bool} :
    setRiskPolicy args env before = .ok value after ↔
      (args.policy env.stacksBlockHeight).InBounds ∧ value = true ∧
        after = ⟨before.riskPolicies.set env.txSender (args.policy env.stacksBlockHeight)⟩ := by
  simp only [setRiskPolicy, asserts_eq_ok_iff, Outcome.ok_eq_ok_iff]
  constructor
  · rintro ⟨score, concentration, liquidity, health, written⟩
    exact ⟨⟨score, concentration, liquidity, health⟩, written⟩
  · rintro ⟨bounds, written⟩
    exact ⟨bounds.maxRiskScoreBps, bounds.maxProtocolConcentrationBps,
      bounds.minLiquidityScoreBps, bounds.minHealthFactorE4, written⟩

/-- What a successful call leaves in its sender's row, given what was there. -/
inductive RowChange (height : Uint) (row : Option RiskPolicy) :
    PublicCall → Option RiskPolicy → Prop where
  | set (args : SetArgs) (bounds : (args.policy height).InBounds) :
      RowChange height row (.setRiskPolicy args) (some (args.policy height))
  | enable (enabled : Bool) :
      RowChange height row (.setPolicyEnabled enabled)
        (row.map fun policy => { policy with enabled := enabled, updatedAt := height })
  | delete : RowChange height row .deleteRiskPolicy none

/-- A successful call moves its sender's row and no other. -/
theorem run_cases {env : Env} {call : PublicCall} {before after : State} {value : Bool}
    (ran : riskPolicy.run env call before = .ok value after) :
    RowChange env.stacksBlockHeight (before.riskPolicies env.txSender) call
      (after.riskPolicies env.txSender) ∧
    ∀ wallet, wallet ≠ env.txSender →
      after.riskPolicies wallet = before.riskPolicies wallet := by
  cases call with
  | setRiskPolicy args =>
      rcases setRiskPolicy_eq_ok_iff.mp ran with ⟨bounds, -, rfl⟩
      refine ⟨?_, fun wallet other => DataMap.set_of_ne other _ _⟩
      simp only [DataMap.set_self]
      exact .set args bounds
  | setPolicyEnabled enabled =>
      have change : RowChange env.stacksBlockHeight (before.riskPolicies env.txSender)
        (.setPolicyEnabled enabled) _ := .enable enabled
      simp only [riskPolicy, setPolicyEnabled] at ran
      cases stored : before.riskPolicies env.txSender with
      | none =>
          rw [stored] at ran change
          rcases Outcome.ok_eq_ok_iff.mp ran with ⟨-, rfl⟩
          rw [stored]
          exact ⟨change, fun wallet _ => rfl⟩
      | some policy =>
          rw [stored] at ran change
          rcases Outcome.ok_eq_ok_iff.mp ran with ⟨-, rfl⟩
          refine ⟨?_, fun wallet other => DataMap.set_of_ne other _ _⟩
          simp only [DataMap.set_self]
          exact change
  | deleteRiskPolicy =>
      rcases Outcome.ok_eq_ok_iff.mp ran with ⟨-, rfl⟩
      refine ⟨?_, fun wallet other => DataMap.delete_of_ne other _⟩
      simp only [DataMap.delete_self]
      exact .delete

end RiskRail.Policy
