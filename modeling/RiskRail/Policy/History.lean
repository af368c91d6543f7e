import RiskRail.Policy.Reader

/-!
# A policy is its wallet's alone

Over every history of calls by any senders: rows move only by their own wallet's
calls, figures stay within bounds, a deleted policy stays away until the wallet sets
one, and the reader hands every row on as it is stored.
-/

namespace RiskRail.Policy

open RiskRail.Clarity RiskRail.Transition RiskRail.Javascript RiskRail.Stacks Text

/-- Every row is within bounds. -/
def RowsInBounds (chain : Chain State PublicCall) : Prop :=
  ∀ wallet policy, chain.state.riskPolicies wallet = some policy → policy.InBounds

/-- What a transaction does: its sender's row moves as the call says, or it is
rejected; the other rows stay. -/
theorem next_row_cases {chain after : Chain State PublicCall} {tx : Tx PublicCall}
    (step : riskPolicy.next chain tx = some after) :
    (∀ wallet, wallet ≠ tx.sender →
      after.state.riskPolicies wallet = chain.state.riskPolicies wallet) ∧
    (RowChange tx.height (chain.state.riskPolicies tx.sender) tx.call
        (after.state.riskPolicies tx.sender) ∨
      after.state = chain.state) := by
  rcases Contract.next_cases step with ⟨-, -, ⟨value, ran, -⟩ | ⟨kept, -⟩⟩
  · rcases run_cases ran with ⟨change, others⟩
    exact ⟨others, Or.inl change⟩
  · exact ⟨fun wallet _ => by rw [kept], Or.inr kept⟩

/-- Only `set-risk-policy` can be rejected. -/
theorem run_of_not_set {call : PublicCall} (other : ∀ args, call ≠ .setRiskPolicy args) (env : Env)
    (state : State) : ∃ value after, riskPolicy.run env call state = .ok value after := by
  cases call with
  | setRiskPolicy args => exact absurd rfl (other args)
  | setPolicyEnabled enabled =>
      simp only [riskPolicy, setPolicyEnabled]
      cases state.riskPolicies env.txSender with
      | none => exact ⟨_, _, rfl⟩
      | some policy => exact ⟨_, _, rfl⟩
  | deleteRiskPolicy => exact ⟨_, _, rfl⟩

theorem rowChange_of_not_set {chain after : Chain State PublicCall} {tx : Tx PublicCall}
    (step : riskPolicy.next chain tx = some after)
    (other : ∀ args, tx.call ≠ .setRiskPolicy args) :
    RowChange tx.height (chain.state.riskPolicies tx.sender) tx.call
      (after.state.riskPolicies tx.sender) := by
  rcases run_of_not_set other tx.env chain.state with ⟨value, state, ran⟩
  have mined := Contract.next_of_ok (Contract.next_cases step).1 ran
  rw [step] at mined
  cases mined
  exact (run_cases ran).1

theorem RowChange.inBounds {height : Uint} {row after : Option RiskPolicy}
    {call : PublicCall} (change : RowChange height row call after)
    (before : ∀ policy, row = some policy → policy.InBounds)
    {policy : RiskPolicy} (stored : after = some policy) : policy.InBounds := by
  cases change with
  | set args bounds =>
      cases stored
      exact bounds
  | enable enabled =>
      rcases Option.map_eq_some_iff.mp stored with ⟨previous, found, rfl⟩
      have bounds := before previous found
      exact ⟨bounds.1, bounds.2, bounds.3, bounds.4⟩
  | delete => cases stored

theorem RowsInBounds.next {chain after : Chain State PublicCall} {tx : Tx PublicCall}
    (inBounds : RowsInBounds chain) (step : riskPolicy.next chain tx = some after) :
    RowsInBounds after := by
  rcases next_row_cases step with ⟨others, changed⟩
  intro wallet policy stored
  by_cases own : wallet = tx.sender
  · subst own
    rcases changed with change | same
    · exact change.inBounds (inBounds tx.sender) stored
    · rw [same] at stored
      exact inBounds tx.sender policy stored
  · rw [others wallet own] at stored
    exact inBounds wallet policy stored

theorem rowsInBounds_of_reachable {height : Uint} {chain : Chain State PublicCall}
    (reachable : Reachable riskPolicy.next (deployment height) chain) : RowsInBounds chain := by
  rcases reachable with ⟨txs, run⟩
  refine exec_invariant (fun inBounds step => inBounds.next step) run ?_
  intro wallet policy stored
  cases stored

/-- The transaction is no successful `set-risk-policy` of this wallet. -/
def SetsNothing (wallet : Principal) (chain : Chain State PublicCall) (tx : Tx PublicCall) :
    Prop :=
  tx.sender = wallet → ∀ args, tx.call = .setRiskPolicy args →
    ∀ value state, riskPolicy.run tx.env tx.call chain.state ≠ .ok value state

/-- A wallet without a policy has none until it sets one. -/
theorem riskPolicies_none_of_along {wallet : Principal} {chain later : Chain State PublicCall}
    {txs : List (Tx PublicCall)} (absent : chain.state.riskPolicies wallet = none)
    (quiet : Along riskPolicy.next (SetsNothing wallet) chain txs)
    (run : exec riskPolicy.next chain txs = some later) :
    later.state.riskPolicies wallet = none := by
  have preserved : ∀ {source target : Chain State PublicCall} {tx : Tx PublicCall},
      source.state.riskPolicies wallet = none → SetsNothing wallet source tx →
      riskPolicy.next source tx = some target → target.state.riskPolicies wallet = none := by
    intro source target tx absent nothing step
    rcases Contract.next_cases step with ⟨-, -, ⟨value, ran, -⟩ | ⟨kept, -⟩⟩
    · rcases run_cases ran with ⟨change, others⟩
      by_cases own : tx.sender = wallet
      · subst own
        rw [show tx.env.txSender = tx.sender from rfl, absent] at change
        cases call_eq : tx.call with
        | setRiskPolicy args => exact absurd ran (nothing rfl args call_eq value target.state)
        | setPolicyEnabled enabled =>
            rw [call_eq] at change
            generalize row_eq : target.state.riskPolicies tx.sender = row at change
            cases change
            rfl
        | deleteRiskPolicy =>
            rw [call_eq] at change
            generalize row_eq : target.state.riskPolicies tx.sender = row at change
            cases change
            rfl
      · exact (others wallet (Ne.symm own)).trans absent
    · rw [kept]
      exact absent
  exact quiet.invariant preserved run absent

/-- For every history of calls by any senders: a call moves at most its sender's row,
every row is within bounds, `set-policy-enabled` changes the flag and the height of an
existing row, a deleted policy stays away until the wallet sets one, a rejected call
changes nothing, and the reader answers with exactly what is stored while the height of
the last write is a safe integer, and throws beyond. -/
theorem policies_are_their_wallets (cv : CvToJson) {height : Uint}
    {chain : Chain State PublicCall}
    (reachable : Reachable riskPolicy.next (deployment height) chain) :
    (∀ tx after, riskPolicy.next chain tx = some after →
      (∀ wallet, wallet ≠ tx.sender →
        getRiskPolicy wallet after.state = getRiskPolicy wallet chain.state) ∧
      (∀ enabled, tx.call = .setPolicyEnabled enabled →
        getRiskPolicy tx.sender after.state =
          (getRiskPolicy tx.sender chain.state).map fun policy =>
            { policy with enabled := enabled, updatedAt := tx.height }) ∧
      (tx.call = .deleteRiskPolicy →
        ∀ txs later, exec riskPolicy.next after txs = some later →
          Along riskPolicy.next (SetsNothing tx.sender) after txs →
            getRiskPolicy tx.sender later.state = none) ∧
      ((∀ value state, riskPolicy.run tx.env tx.call chain.state ≠ .ok value state) →
        after.state = chain.state)) ∧
    (∀ wallet policy, getRiskPolicy wallet chain.state = some policy → policy.InBounds) ∧
    (∀ wallet, getRiskPolicy wallet chain.state = none →
      getPolicy (cv.encode (getRiskPolicy wallet chain.state)) = .ok none) ∧
    (∀ wallet policy, getRiskPolicy wallet chain.state = some policy →
      (policy.updatedAt.val ≤ 2 ^ 53 - 1 →
        getPolicy (cv.encode (getRiskPolicy wallet chain.state)) = .ok (some policy.read)) ∧
      (2 ^ 53 - 1 < policy.updatedAt.val →
        ∃ text, getPolicy (cv.encode (getRiskPolicy wallet chain.state)) = .error text)) := by
  have inBounds := rowsInBounds_of_reachable reachable
  refine ⟨?_, inBounds, ?_, ?_⟩
  · intro tx after step
    refine ⟨(next_row_cases step).1, ?_, ?_, Contract.next_state_of_not_ok step⟩
    · intro enabled call_eq
      have change := rowChange_of_not_set step (by simp [call_eq])
      rw [call_eq] at change
      generalize row_eq : after.state.riskPolicies tx.sender = row at change
      cases change
      exact row_eq
    · intro call_eq txs later run quiet
      have change := rowChange_of_not_set step (by simp [call_eq])
      rw [call_eq] at change
      generalize row_eq : after.state.riskPolicies tx.sender = row at change
      cases change
      exact riskPolicies_none_of_along row_eq quiet run
  · intro wallet absent
    rw [absent]
    exact getPolicy_encode_none cv
  · intro wallet policy stored
    rw [stored]
    have bounds := inBounds wallet policy stored
    constructor
    · intro safe
      exact (getPolicy_of_inBounds cv bounds).1 (by omega)
    · intro large
      exact (getPolicy_of_inBounds cv bounds).2 (by omega)

/-- The tree of nodes of a policy, as the library writes it. -/
def policyNodes (policy : RiskPolicy) : List (Text × Json) :=
  [(ofString "enabled", node "bool" (.bool policy.enabled)),
    (ofString "max-protocol-concentration-bps",
      node "uint" (.string (digits policy.maxProtocolConcentrationBps.val))),
    (ofString "max-risk-score-bps", node "uint" (.string (digits policy.maxRiskScoreBps.val))),
    (ofString "min-health-factor-e4",
      node "uint" (.string (digits policy.minHealthFactorE4.val))),
    (ofString "min-liquidity-score-bps",
      node "uint" (.string (digits policy.minLiquidityScoreBps.val))),
    (ofString "updated-at", node "uint" (.string (digits policy.updatedAt.val)))]

/-- The signature of a policy's tuple. -/
def policySignature : String :=
  "(tuple (enabled bool) (max-protocol-concentration-bps uint) (max-risk-score-bps uint) " ++
    "(min-health-factor-e4 uint) (min-liquidity-score-bps uint) (updated-at uint))"

/-- The tree of nodes of the answer. -/
def cvToJson : CvToJson where
  encode
    | none => node "(optional none)" .null
    | some policy =>
        node ("(optional " ++ policySignature ++ ")")
          (node policySignature (.object (policyNodes policy)))
  encode_none := ⟨_, _, rfl, rfl, by decide, rfl⟩
  encode_some policy := by
    refine ⟨_, policyNodes policy, ⟨_, _, rfl, rfl, by decide +kernel, rfl⟩,
      ⟨_, _, rfl, rfl, by decide +kernel, rfl⟩, ?_⟩
    constructor
    · change [ofString "enabled", ofString "max-protocol-concentration-bps",
        ofString "max-risk-score-bps", ofString "min-health-factor-e4",
        ofString "min-liquidity-score-bps", ofString "updated-at"].Nodup
      decide +kernel
    · rfl
    · exact ⟨_, rfl, _, _, rfl, rfl, by decide, rfl⟩
    · exact ⟨_, rfl, _, _, rfl, rfl, by decide, rfl⟩
    · exact ⟨_, rfl, _, _, rfl, rfl, by decide, rfl⟩
    · exact ⟨_, rfl, _, _, rfl, rfl, by decide, rfl⟩
    · exact ⟨_, rfl, _, _, rfl, rfl, by decide, rfl⟩
    · exact ⟨_, rfl, _, _, rfl, rfl, by decide, rfl⟩

/-- A wallet sets a policy at this height. -/
def settingAt (height : Uint) : Tx PublicCall where
  sender := .standard "wallet"
  height := height
  call := .setRiskPolicy
    { maxRiskScoreBps := .literal 6000
      minHealthFactorE4 := .literal 12500
      maxProtocolConcentrationBps := .literal 5000
      minLiquidityScoreBps := .literal 2000 }

theorem policies_are_their_wallets_settingAt :
    getPolicy (cvToJson.encode (getRiskPolicy (.standard "other")
      ((exec riskPolicy.next (deployment ⟨100, by decide⟩)
        [settingAt ⟨120, by decide⟩]).get rfl).state)) = .ok none :=
  (policies_are_their_wallets cvToJson ⟨[settingAt ⟨120, by decide⟩],
    (Option.some_get rfl).symm⟩).2.2.1 (.standard "other") rfl

/-- The chain after a policy was set at height 2^53. -/
def lateChain : Chain State PublicCall :=
  (exec riskPolicy.next (deployment (.literal 100)) [settingAt (.literal (2 ^ 53))]).get rfl

theorem reachable_lateChain :
    Reachable riskPolicy.next (deployment (.literal 100)) lateChain :=
  ⟨[settingAt (.literal (2 ^ 53))], (Option.some_get rfl).symm⟩

/-- A policy that was set at height 2^53 is not read but makes the reader throw. -/
theorem getPolicy_throws_beyond_safe_heights :
    ¬∀ (cv : CvToJson) (height : Uint) (chain : Chain State PublicCall),
      Reachable riskPolicy.next (deployment height) chain →
      ∀ wallet policy, getRiskPolicy wallet chain.state = some policy →
        getPolicy (cv.encode (getRiskPolicy wallet chain.state)) = .ok (some policy.read) := by
  intro claimed
  have stored : ∃ policy, getRiskPolicy (.standard "wallet") lateChain.state = some policy ∧
      policy.updatedAt.val = 2 ^ 53 := ⟨_, rfl, rfl⟩
  rcases stored with ⟨policy, stored, written⟩
  have read := claimed cvToJson _ _ reachable_lateChain _ _ stored
  have bounds := rowsInBounds_of_reachable reachable_lateChain _ _ stored
  rcases (getPolicy_of_inBounds cvToJson bounds).2 written.ge with ⟨text, thrown⟩
  rw [stored, thrown] at read
  cases read

end RiskRail.Policy
