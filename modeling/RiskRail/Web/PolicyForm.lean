import RiskRail.Javascript.Fixed
import RiskRail.Policy.History

/-!
# The policy form

What the form checks, the arguments that it hands to the wallet, and what they become: the
contract takes every form that passes the check, and the reader answers with the figures that
were typed until their wallet sets others or deletes them.
-/

namespace RiskRail.Web

open RiskRail.Clarity RiskRail.Transition RiskRail.Javascript RiskRail.Numeric RiskRail.Policy
open RiskRail.Javascript.Text

/-! ## The form -/

/-- The numbers of the form.  `NaN`, which `validate` lets through, is left out. -/
structure PolicyInput where
  maxRiskScore : ℚ
  minHealthFactor : ℚ
  maxProtocolConcentration : ℚ
  minLiquidityScore : ℚ
  deriving DecidableEq

/-- A `uint` literal: the letter `u` and digits. -/
def uintArgument (x : ℚ) (scale : ℕ) : Text :=
  0x75 :: roundedText x scale

/-- The arguments of the contract call. -/
def toContractArgs (input : PolicyInput) : List Text :=
  [uintArgument input.maxRiskScore 100,
    uintArgument input.minHealthFactor 10000,
    uintArgument input.maxProtocolConcentration 100,
    uintArgument input.minLiquidityScore 100]

/-- The first complaint about an input. -/
def validate (input : PolicyInput) : Option String :=
  if input.maxRiskScore < 0 ∨ 100 < input.maxRiskScore then
    some "Max risk score must be between 0 and 100."
  else if input.minHealthFactor ≤ 0 ∨ 100 < input.minHealthFactor then
    some "Minimum health factor must be greater than 0."
  else if input.maxProtocolConcentration < 0 ∨ 100 < input.maxProtocolConcentration then
    some "Max protocol concentration must be between 0 and 100%."
  else if input.minLiquidityScore < 0 ∨ 100 < input.minLiquidityScore then
    some "Minimum liquidity score must be between 0 and 100%."
  else none

/-- The parameters of `stx_callContract`. -/
structure ContractCall where
  contract : Text
  functionName : String
  functionArgs : List Text
  network : String
  deriving DecidableEq

/-- `NEXT_PUBLIC_RISK_POLICY_CONTRACT` and `NEXT_PUBLIC_STACKS_NETWORK`. -/
structure Deployment where
  contract : Text
  network : String

/-- The part of `writeRiskPolicy` in front of the wallet's answer. -/
def contractCall (deployment : Deployment) (input : PolicyInput) : Except String ContractCall :=
  if deployment.contract = [] then
    .error "No policy contract is configured for this deployment yet."
  else
    match validate input with
    | some problem => .error problem
    | none => .ok
        { contract := deployment.contract
          functionName := "set-risk-policy"
          functionArgs := toContractArgs input
          network := if deployment.network = "mainnet" then "mainnet" else "testnet" }

/-- `request` is the wallet: it throws, or answers with a transaction id or without one. -/
def writeRiskPolicy (request : ContractCall → Except String (Option Text))
    (deployment : Deployment) (input : PolicyInput) : Except String Text := do
  let call ← contractCall deployment input
  match ← request call with
  | none | some [] => .error "The wallet did not return a transaction id."
  | some txid => .ok txid

/-! ## What the arguments stand for -/

/-- The whole number is the scaled number up to one half and the error of the double, and it is
exact if the number was typed with as many decimals as the scale has. -/
structure Scaled (x : ℚ) (scale k : ℕ) : Prop where
  close : |k - x * scale| ≤ 1 / 2 + 1 / 2 ^ 30
  exact_of_decimal : ∀ n ≤ 100 * scale, binary64 (n / scale) = some x → k = n

/-- The wallet's parser of Clarity values, on the arguments of the call. -/
def parseArgs (parse : Text → Option Uint) : List Text → Option SetArgs
  | [score, health, concentration, liquidity] => do
      let maxRiskScoreBps ← parse score
      let minHealthFactorE4 ← parse health
      let maxProtocolConcentrationBps ← parse concentration
      let minLiquidityScoreBps ← parse liquidity
      return { maxRiskScoreBps, minHealthFactorE4, maxProtocolConcentrationBps,
               minLiquidityScoreBps }
  | _ => none

/-- The arguments say what was typed. -/
structure Represents (input : PolicyInput) (args : SetArgs) : Prop where
  maxRiskScoreBps : Scaled input.maxRiskScore 100 args.maxRiskScoreBps.val
  minHealthFactorE4 : Scaled input.minHealthFactor 10000 args.minHealthFactorE4.val
  maxProtocolConcentrationBps :
    Scaled input.maxProtocolConcentration 100 args.maxProtocolConcentrationBps.val
  minLiquidityScoreBps : Scaled input.minLiquidityScore 100 args.minLiquidityScoreBps.val

section

variable {parse : Text → Option Uint} (uints : ∀ n : Uint, parse (0x75 :: digits n.val) = some n)

include uints in
/-- A number in the range of its field is handed over as a `uint` in its bounds. -/
theorem exists_uint {x : ℚ} {s : ℕ} (nonneg : 0 ≤ x) (below : x ≤ 100) (positive : 0 < s)
    (small : s ≤ 10000) :
    ∃ k : Uint, parse (uintArgument x s) = some k ∧ k.val ≤ 100 * s ∧ Scaled x s k.val := by
  obtain ⟨k, within, text, close⟩ := roundedText_of_le (b := 100) (s := s) nonneg
    (by exact_mod_cast below) (by omega)
  have fits : k < 2 ^ 128 := within.trans_lt (lt_of_le_of_lt (Nat.mul_le_mul_left 100 small)
    (by decide))
  refine ⟨⟨k, fits⟩, ?_, within, close, ?_⟩
  · rw [uintArgument, text]
    exact uints ⟨k, fits⟩
  · intro n range read
    have exact_text := roundedText_of_binary64 (k := n) positive (by omega) positive read rfl
      (by omega)
    exact digits_injective (text.symm.trans exact_text)

include uints in
/-- A form that passes the check gives arguments that the contract takes. -/
theorem represents_of_validate {input : PolicyInput} (valid : validate input = none) :
    ∃ args, parseArgs parse (toContractArgs input) = some args ∧ Represents input args ∧
      ∀ height, (args.policy height).InBounds := by
  unfold validate at valid
  split_ifs at valid with score health concentration liquidity
  simp only [not_or, not_lt, not_le] at score health concentration liquidity
  obtain ⟨maxRiskScoreBps, scoreRead, scoreBound, scoreScaled⟩ :=
    exists_uint uints score.1 score.2 (s := 100) (by decide) (by decide)
  obtain ⟨minHealthFactorE4, healthRead, healthBound, healthScaled⟩ :=
    exists_uint uints health.1.le health.2 (s := 10000) (by decide) (by decide)
  obtain ⟨maxProtocolConcentrationBps, concentrationRead, concentrationBound,
      concentrationScaled⟩ :=
    exists_uint uints concentration.1 concentration.2 (s := 100) (by decide) (by decide)
  obtain ⟨minLiquidityScoreBps, liquidityRead, liquidityBound, liquidityScaled⟩ :=
    exists_uint uints liquidity.1 liquidity.2 (s := 100) (by decide) (by decide)
  refine ⟨⟨maxRiskScoreBps, minHealthFactorE4, maxProtocolConcentrationBps,
    minLiquidityScoreBps⟩, ?_, ⟨scoreScaled, healthScaled, concentrationScaled, liquidityScaled⟩,
    fun height => ⟨scoreBound, concentrationBound, liquidityBound, healthBound⟩⟩
  rw [toContractArgs, parseArgs, scoreRead, healthRead, concentrationRead, liquidityRead]
  rfl

end

/-! ## What the contract keeps -/

/-- The figures of a row. -/
def figures (policy : RiskPolicy) : SetArgs where
  maxRiskScoreBps := policy.maxRiskScoreBps
  minHealthFactorE4 := policy.minHealthFactorE4
  maxProtocolConcentrationBps := policy.maxProtocolConcentrationBps
  minLiquidityScoreBps := policy.minLiquidityScoreBps

/-- The wallet has these figures, written no later than now. -/
def Keeps (wallet : Principal) (args : SetArgs) (chain : Chain State PublicCall) : Prop :=
  ∃ policy, getRiskPolicy wallet chain.state = some policy ∧ figures policy = args ∧
    policy.InBounds ∧ policy.updatedAt.val ≤ chain.height.val

/-- The transaction is another wallet's, or it switches the policy on or off. -/
def LeavesFigures (wallet : Principal) (_ : Chain State PublicCall) (tx : Tx PublicCall) : Prop :=
  tx.sender = wallet → ∃ enabled, tx.call = .setPolicyEnabled enabled

theorem Keeps.next {wallet : Principal} {args : SetArgs} {chain after : Chain State PublicCall}
    {tx : Tx PublicCall} (keeps : Keeps wallet args chain)
    (leaves : LeavesFigures wallet chain tx) (step : riskPolicy.next chain tx = some after) :
    Keeps wallet args after := by
  obtain ⟨policy, stored, same, bounds, written⟩ := keeps
  obtain ⟨ordered, height, -⟩ := Contract.next_cases step
  have later : chain.height.val ≤ after.height.val := by
    rw [height]
    exact ordered
  by_cases own : tx.sender = wallet
  · subst own
    obtain ⟨enabled, call_eq⟩ := leaves rfl
    have change := rowChange_of_not_set step (by simp [call_eq])
    rw [call_eq] at change
    generalize row_eq : after.state.riskPolicies tx.sender = row at change
    cases change
    rw [show chain.state.riskPolicies tx.sender = some policy from stored] at row_eq
    exact ⟨_, row_eq, same, ⟨bounds.1, bounds.2, bounds.3, bounds.4⟩,
      (congrArg Uint.val height).ge⟩
  · refine ⟨policy, ?_, same, bounds, written.trans later⟩
    exact ((next_row_cases step).1 wallet (Ne.symm own)).trans stored

theorem Keeps.of_set {args : SetArgs} {chain after : Chain State PublicCall} {tx : Tx PublicCall}
    (bounds : (args.policy tx.height).InBounds) (call_eq : tx.call = .setRiskPolicy args)
    (step : riskPolicy.next chain tx = some after) : Keeps tx.sender args after := by
  have ran : riskPolicy.run tx.env tx.call chain.state =
      .ok true ⟨chain.state.riskPolicies.set tx.sender (args.policy tx.height)⟩ := by
    rw [call_eq]
    exact setRiskPolicy_eq_ok_iff.mpr ⟨bounds, rfl, rfl⟩
  have mined := Contract.next_of_ok (Contract.next_cases step).1 ran
  rw [step] at mined
  cases mined
  exact ⟨_, DataMap.set_self _ _ _, rfl, bounds, le_rfl⟩

theorem Keeps.read {wallet : Principal} {args : SetArgs} {chain : Chain State PublicCall}
    (keeps : Keeps wallet args chain) (cv : CvToJson) (safe : chain.height.val < 2 ^ 53) :
    ∃ policy, getRiskPolicy wallet chain.state = some policy ∧ figures policy = args ∧
      getPolicy (cv.encode (getRiskPolicy wallet chain.state)) = .ok (some policy.read) := by
  obtain ⟨policy, stored, same, bounds, written⟩ := keeps
  refine ⟨policy, stored, same, ?_⟩
  rw [stored]
  exact (getPolicy_of_inBounds cv bounds).1 (written.trans_lt safe)

/-! ## From the form to the reader -/

/-- Only a form that passes the check is handed to the wallet. -/
theorem contractCall_eq_ok {deployment : Deployment} {input : PolicyInput} {call : ContractCall}
    (asked : contractCall deployment input = .ok call) :
    validate input = none ∧ call.functionArgs = toContractArgs input := by
  by_cases configured : deployment.contract = []
  · rw [contractCall, if_pos configured] at asked
    cases asked
  rw [contractCall, if_neg configured] at asked
  cases checked : validate input with
  | some problem =>
      rw [checked] at asked
      cases asked
  | none =>
      rw [checked] at asked
      cases asked
      exact ⟨rfl, rfl⟩

/-- The transaction id is the wallet's answer to the one call that it was asked for. -/
theorem writeRiskPolicy_eq_ok {request : ContractCall → Except String (Option Text)}
    {deployment : Deployment} {input : PolicyInput} {txid : Text}
    (sent : writeRiskPolicy request deployment input = .ok txid) :
    ∃ call, contractCall deployment input = .ok call ∧ request call = .ok (some txid) := by
  cases asked : contractCall deployment input with
  | error problem =>
      rw [writeRiskPolicy, asked] at sent
      cases sent
  | ok call =>
      refine ⟨call, rfl, ?_⟩
      rw [writeRiskPolicy, asked] at sent
      cases requested : request call with
      | error refusal =>
          simp only [bind, Except.bind, requested] at sent
          cases sent
      | ok answer =>
          simp only [bind, Except.bind, requested] at sent
          split at sent
          next => cases sent
          next => cases sent
          next => rw [Except.ok.inj sent]

/-- Whatever the form sends, the contract takes from any sender in any state, and until that
wallet sets another policy or deletes it the reader answers with those figures. -/
theorem typed_policy_is_read {parse : Text → Option Uint}
    (uints : ∀ n : Uint, parse (0x75 :: digits n.val) = some n) (cv : CvToJson)
    {request : ContractCall → Except String (Option Text)} {deployment : Deployment}
    {input : PolicyInput} {txid : Text}
    (sent : writeRiskPolicy request deployment input = .ok txid) :
    ∃ call args, contractCall deployment input = .ok call ∧ request call = .ok (some txid) ∧
      parseArgs parse call.functionArgs = some args ∧ Represents input args ∧
      ∀ (before set later : Chain State PublicCall) (tx : Tx PublicCall)
        (txs : List (Tx PublicCall)), tx.call = .setRiskPolicy args →
        riskPolicy.next before tx = some set → exec riskPolicy.next set txs = some later →
        Along riskPolicy.next (LeavesFigures tx.sender) set txs → later.height.val < 2 ^ 53 →
        ∃ policy, getRiskPolicy tx.sender later.state = some policy ∧ figures policy = args ∧
          getPolicy (cv.encode (getRiskPolicy tx.sender later.state)) =
            .ok (some policy.read) := by
  obtain ⟨call, asked, requested⟩ := writeRiskPolicy_eq_ok sent
  obtain ⟨valid, arguments⟩ := contractCall_eq_ok asked
  obtain ⟨args, parsed, represents, bounds⟩ := represents_of_validate uints valid
  refine ⟨call, args, asked, requested, arguments ▸ parsed, represents, ?_⟩
  intro before set later tx txs call_eq step run leaves safe
  have kept := leaves.invariant (fun keeps leaves step => Keeps.next keeps leaves step) run
    (Keeps.of_set (bounds tx.height) call_eq step)
  exact kept.read cv safe

/-- A parser of `uint` literals. -/
def parseUint : Text → Option Uint
  | 0x75 :: rest =>
      (natural 10 rest).bind fun n => if fits : n < 2 ^ 128 then some ⟨n, fits⟩ else none
  | _ => none

theorem parseUint_digits (n : Uint) : parseUint (0x75 :: digits n.val) = some n := by
  rw [parseUint, natural_digits, Option.bind_some, dif_pos n.val_lt]

/-- A deployment on the test network. -/
def testnet : Deployment where
  contract := ofString "ST000000000000000000002AMW42H.risk-policy"
  network := "testnet"

/-- What the form starts with. -/
def firstDraft : PolicyInput where
  maxRiskScore := 70
  minHealthFactor := toDouble (13 / 10)
  maxProtocolConcentration := 50
  minLiquidityScore := 40

/-- A wallet that sends whatever it is asked for. -/
def obliging (_ : ContractCall) : Except String (Option Text) :=
  .ok (some (ofString "0x01"))

theorem writeRiskPolicy_firstDraft :
    writeRiskPolicy obliging testnet firstDraft = .ok (ofString "0x01") := by
  have valid : validate firstDraft = none := by decide +kernel
  rw [writeRiskPolicy, contractCall, if_neg (by decide), valid]
  rfl

/-- The arguments of a draft. -/
def draftArgs : SetArgs where
  maxRiskScoreBps := .literal 7000
  minHealthFactorE4 := .literal 13000
  maxProtocolConcentrationBps := .literal 5000
  minLiquidityScoreBps := .literal 4000

/-- The transaction of that draft. -/
def sentDraft : Tx PublicCall where
  sender := .standard "draft"
  height := .literal 110
  call := .setRiskPolicy draftArgs

/-- The chain with it. -/
def afterDraft : Chain State PublicCall :=
  (exec riskPolicy.next (Policy.deployment (.literal 100)) [sentDraft]).get rfl

/-- The chain after another one, ten blocks on. -/
def muchLater : Chain State PublicCall :=
  (exec riskPolicy.next afterDraft [settingAt (.literal 120)]).get rfl

theorem typed_policy_is_read_firstDraft :
    ∃ policy, getRiskPolicy (.standard "draft") muchLater.state = some policy ∧
      figures policy = draftArgs ∧
      getPolicy (cvToJson.encode (getRiskPolicy (.standard "draft") muchLater.state)) =
        .ok (some policy.read) := by
  obtain ⟨call, args, asked, -, parsed, -, reads⟩ :=
    typed_policy_is_read parseUint_digits cvToJson writeRiskPolicy_firstDraft
  rw [(contractCall_eq_ok asked).2] at parsed
  have args_eq : args = draftArgs := Option.some.inj (parsed.symm.trans (by decide +kernel))
  subst args_eq
  apply reads (Policy.deployment (.literal 100)) afterDraft muchLater sentDraft
    [settingAt (.literal 120)] rfl rfl rfl
  · exact ⟨fun own => absurd own (by decide), fun _ _ => trivial⟩
  · decide

end RiskRail.Web
