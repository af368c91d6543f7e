import RiskRail.Consumer.Core

/-!
# What the consumer approves

Over every history of both contracts the consumer opens a position exactly on a
recent reading that meets its policy, as long as its counter of approvals has
room, and its two data stores are read off the receipts of the chain.
-/

namespace RiskRail.Consumer

open RiskRail.Clarity RiskRail.Transition
open RiskRail.Registry (WellFormedLog getLatestRisk)

/-! ## The registry inside the system -/

/-- The registry's part of the receipts. -/
def registryReceipt (receipt : Receipt Call) : Option (Receipt Registry.PublicCall) :=
  match receipt.tx.call with
  | .registry call => some ⟨⟨receipt.tx.sender, receipt.tx.height, call⟩, receipt.succeeded⟩
  | .openPosition _ => none

/-- The registry's chain inside the system's. -/
def registryChain (chain : Chain System Call) : Chain Registry.State Registry.PublicCall :=
  ⟨chain.height, chain.state.registry, chain.receipts.filterMap registryReceipt⟩

/-- The system's registry moves as the registry does on its own; a position only
lets time pass for it. -/
theorem registryChain_next {chain after : Chain System Call} {tx : Tx Call}
    (step : onRegistry.next chain tx = some after) :
    (∃ call, tx.call = .registry call ∧
      Registry.riskRegistry.next (registryChain chain) ⟨tx.sender, tx.height, call⟩ =
        some (registryChain after)) ∨
    (∃ user, tx.call = .openPosition user ∧ chain.height ≤ after.height ∧
      after.state.registry = chain.state.registry) := by
  rcases tx with ⟨sender, height, call⟩
  unfold Contract.next at step
  split at step
  · rename_i ordered
    cases step
    cases call with
    | registry call =>
        refine Or.inl ⟨call, rfl, ?_⟩
        have inner : (registryChain chain).height ≤ height := ordered
        unfold Contract.next
        rw [if_pos inner]
        simp only [registryChain, List.filterMap_cons, registryReceipt, onRegistry, Tx.env]
        cases Registry.riskRegistry.run ⟨sender, height⟩ call chain.state.registry <;> rfl
    | openPosition user =>
        refine Or.inr ⟨user, rfl, ordered, ?_⟩
        simp only [onRegistry, Tx.env]
        cases openPosition (registryProvider chain.state.registry) user ⟨sender, height⟩
          chain.state.consumer <;> rfl
  · contradiction

theorem wellFormedLog_next {chain after : Chain System Call} {tx : Tx Call}
    (log : WellFormedLog (registryChain chain))
    (step : onRegistry.next chain tx = some after) : WellFormedLog (registryChain after) := by
  rcases registryChain_next step with ⟨call, -, inner⟩ | ⟨user, -, later, kept⟩
  · exact log.next inner
  · exact log.of_log_eq later (congrArg Registry.State.riskSnapshots kept)
      (congrArg Registry.State.latestSnapshotId kept)

/-! ## The consumer's stores -/

/-- The user a successful `open-position` was called for. -/
def opened (receipt : Receipt Call) : Option Principal :=
  match receipt.succeeded, receipt.tx.call with
  | true, .openPosition user => some user
  | _, _ => none

/-- The height of a success for the user. -/
def openedAt (user : Principal) (receipt : Receipt Call) : Option Uint :=
  if opened receipt = some user then some receipt.tx.height else none

/-- The stores are what the receipts say. -/
structure Accounted (chain : Chain System Call) : Prop where
  approvals : chain.state.consumer.approvals.val = (chain.receipts.filterMap opened).length
  lastApprovedAt : ∀ user,
    chain.state.consumer.lastApprovedAt user = chain.receipts.findSome? (openedAt user)

theorem accounted_deployment (deployer : Principal) (height : Uint) :
    Accounted (deployment deployer height) where
  approvals := rfl
  lastApprovedAt := fun _ => rfl

/-- A receipt that opens nothing, next to an untouched consumer. -/
theorem Accounted.of_silent {chain after : Chain System Call} (accounted : Accounted chain)
    (kept : after.state.consumer = chain.state.consumer) {receipt : Receipt Call}
    (receipts : after.receipts = receipt :: chain.receipts) (silent : opened receipt = none) :
    Accounted after where
  approvals := by
    rw [kept, receipts, List.filterMap_cons_none silent]
    exact accounted.approvals
  lastApprovedAt := by
    intro user
    have nothing : openedAt user receipt = none := by
      rw [openedAt, silent, if_neg (by simp)]
    rw [kept, receipts, List.findSome?_cons, nothing]
    exact accounted.lastApprovedAt user

theorem Accounted.next {chain after : Chain System Call} {tx : Tx Call}
    (accounted : Accounted chain) (step : onRegistry.next chain tx = some after) :
    Accounted after := by
  rcases Contract.next_cases step with ⟨-, -, ⟨value, ran, receipts⟩ | ⟨kept, receipts⟩⟩
  · rcases run_cases ran with ⟨inner, call_eq, -, kept⟩ | ⟨user, id, call_eq, ran, -⟩
    · have silent : opened ⟨tx, true⟩ = none := by simp only [opened, call_eq]
      exact accounted.of_silent kept receipts silent
    · have spoken : opened ⟨tx, true⟩ = some user := by simp only [opened, call_eq]
      rcases openPosition_eq_ok_iff.mp ran with ⟨risk, -, -, -, counted, written⟩
      constructor
      · rw [counted, accounted.approvals, receipts, List.filterMap_cons_some spoken,
          List.length_cons]
      · intro other
        rw [written, receipts, List.findSome?_cons, DataMap.set_apply]
        by_cases same : other = user
        · rw [if_pos same, openedAt, if_pos (by rw [spoken, same])]
          rfl
        · rw [if_neg same, openedAt, if_neg fun named => same ?_]
          · exact accounted.lastApprovedAt other
          · rw [spoken] at named
            exact (Option.some.inj named).symm
  · have silent : opened ⟨tx, false⟩ = none := by simp only [opened]
    exact accounted.of_silent (by rw [kept]) receipts silent

/-! ## What is approved -/

/-- The user's latest snapshot is at most 144 blocks old and meets the policy. -/
def Acceptable (user : Principal) (env : Env) (registry : Registry.State) : Prop :=
  ∃ risk, getLatestRisk user registry = some risk ∧
    env.stacksBlockHeight.val ≤ risk.snapshot.publishedAt.val + 144 ∧
    meetsPolicy risk.snapshot.healthFactorE4 risk.snapshot.protocolConcentrationBps

/-- What a fresh reading is, given that nothing was published in the future. -/
theorem acceptable_iff {chain : Chain System Call} (log : WellFormedLog (registryChain chain))
    {user : Principal} {env : Env} (reached : chain.height ≤ env.stacksBlockHeight) :
    Acceptable user env chain.state.registry ↔
      ∃ risk, Registry.getRiskIfFresh user maxRiskAgeBlocks env chain.state.registry =
          some risk ∧
        meetsPolicy risk.snapshot.healthFactorE4 risk.snapshot.protocolConcentrationBps := by
  unfold Acceptable
  refine exists_congr fun risk => ?_
  rw [Registry.getRiskIfFresh_eq_some_iff, and_assoc]
  refine and_congr_right fun latest => and_congr_left fun _ => ?_
  have stored := (Registry.getLatestRisk_eq_some_iff.mp latest).2
  have published : risk.snapshot.publishedAt.val ≤ chain.height.val :=
    (log.inRange _ _ _ stored).2
  rw [Uint.le_def] at reached
  constructor
  · intro young
    refine ⟨Uint.le_def.mpr (by omega), ?_⟩
    have bound : maxRiskAgeBlocks.val = 144 := rfl
    omega
  · rintro ⟨-, young⟩
    have bound : maxRiskAgeBlocks.val = 144 := rfl
    omega

/-- A position opens exactly on an acceptable reading while the counter has room. -/
theorem openPosition_ok_iff {chain : Chain System Call}
    (log : WellFormedLog (registryChain chain)) {user : Principal} {env : Env}
    (reached : chain.height ≤ env.stacksBlockHeight) :
    (∃ id after, openPosition (registryProvider chain.state.registry) user env
        chain.state.consumer = .ok id after) ↔
      Acceptable user env chain.state.registry ∧
        chain.state.consumer.approvals.val + 1 < 2 ^ 128 := by
  rw [acceptable_iff log reached]
  constructor
  · rintro ⟨id, after, ran⟩
    rcases openPosition_eq_ok_iff.mp ran with ⟨risk, provided, policy, -, counted, -⟩
    refine ⟨⟨risk, registryProvider_eq_some_iff.mp provided, policy⟩, ?_⟩
    rw [← counted]
    exact after.approvals.val_lt
  · rintro ⟨⟨risk, fresh, policy⟩, room⟩
    exact ⟨risk.snapshotId, ⟨⟨_, room⟩, _⟩, openPosition_eq_ok_iff.mpr
      ⟨risk, registryProvider_eq_some_iff.mpr fresh, policy, rfl, rfl, rfl⟩⟩

/-- What every reachable state of the two contracts satisfies. -/
structure Recorded (chain : Chain System Call) : Prop where
  log : WellFormedLog (registryChain chain)
  accounted : Accounted chain

theorem recorded_of_reachable {deployer : Principal} {height : Uint}
    {chain : Chain System Call}
    (reachable : Reachable onRegistry.next (deployment deployer height) chain) :
    Recorded chain := by
  rcases reachable with ⟨txs, run⟩
  refine exec_invariant (fun recorded step => ?_) run ?_
  · exact ⟨wellFormedLog_next recorded.log step, recorded.accounted.next step⟩
  · exact ⟨Registry.wellFormedLog_deployment deployer height, accounted_deployment deployer height⟩

theorem run_openPosition_eq_ok_iff {user : Principal} {env : Env} {system after : System}
    {value : Registry.Answer} :
    onRegistry.run env (.openPosition user) system = .ok value after ↔
      ∃ id, value = .uint id ∧ after.registry = system.registry ∧
        openPosition (registryProvider system.registry) user env system.consumer =
          .ok id after.consumer := by
  rw [onRegistry, Outcome.lift_eq_ok_iff]
  simp only [Outcome.map_eq_ok_iff]
  constructor
  · rintro ⟨consumer, ⟨id, ran, rfl⟩, rfl⟩
    exact ⟨id, rfl, rfl, ran⟩
  · rintro ⟨id, rfl, kept, ran⟩
    exact ⟨after.consumer, ⟨id, ran, rfl⟩, by rw [← kept]⟩

/-- In every reachable state of the two contracts and at every height from there on:
a position opens exactly when the user's latest snapshot is at most 144 blocks old
and meets the policy and the counter has room, it answers that snapshot's id, the
counter is the number of successes, the last approval of a user is the height of the
latest one, and a refused call changes nothing in either contract. -/
theorem open_position_guarded {deployer : Principal} {height : Uint} {chain : Chain System Call}
    (reachable : Reachable onRegistry.next (deployment deployer height) chain) :
    (∀ user env, chain.height ≤ env.stacksBlockHeight →
      ((∃ value after, onRegistry.run env (.openPosition user) chain.state = .ok value after) ↔
        Acceptable user env chain.state.registry ∧
          (getApprovals chain.state.consumer).val + 1 < 2 ^ 128) ∧
      ∀ value after, onRegistry.run env (.openPosition user) chain.state = .ok value after →
        ∃ id, value = .uint id ∧
          Registry.getLatestSnapshotId user chain.state.registry = some id) ∧
    (getApprovals chain.state.consumer).val = (chain.receipts.filterMap opened).length ∧
    (∀ user, getLastApprovedAt user chain.state.consumer =
      chain.receipts.findSome? (openedAt user)) ∧
    (∀ tx after, onRegistry.next chain tx = some after →
      (∀ value state, onRegistry.run tx.env tx.call chain.state ≠ .ok value state) →
        after.state = chain.state) := by
  have recorded := recorded_of_reachable reachable
  refine ⟨fun user env reached => ⟨?_, ?_⟩,
    recorded.accounted.approvals, recorded.accounted.lastApprovedAt, ?_⟩
  · rw [getApprovals, ← openPosition_ok_iff recorded.log reached]
    constructor
    · rintro ⟨value, after, ran⟩
      rcases run_openPosition_eq_ok_iff.mp ran with ⟨id, -, -, inside⟩
      exact ⟨id, after.consumer, inside⟩
    · rintro ⟨id, consumer, inside⟩
      exact ⟨.uint id, ⟨chain.state.registry, consumer⟩,
        run_openPosition_eq_ok_iff.mpr ⟨id, rfl, rfl, inside⟩⟩
  · intro value after ran
    rcases run_openPosition_eq_ok_iff.mp ran with ⟨id, value_eq, -, inside⟩
    rcases openPosition_eq_ok_iff.mp inside with ⟨risk, provided, -, rfl, -, -⟩
    have fresh := registryProvider_eq_some_iff.mp provided
    refine ⟨risk.snapshotId, value_eq, ?_⟩
    exact (Registry.getLatestRisk_eq_some_iff.mp
      (Registry.getRiskIfFresh_eq_some_iff.mp fresh).1).1
  · intro tx after step refused
    exact Contract.next_state_of_not_ok step refused

/-! ## The counter runs full -/

/-- A healthy reading of one wallet. -/
def healthy : Tx Call where
  sender := .standard "deployer"
  height := .literal 120
  call := .registry (.publishRiskSnapshot
    { wallet := .standard "wallet"
      riskScoreBps := .literal 1200
      healthFactorE4 := .literal 14700
      liquidationDistanceBps := .literal 3200
      protocolConcentrationBps := .literal 4400
      liquidityScoreBps := .literal 4100
      sourceBlock := .literal 118
      reportHash := ⟨[12], by decide⟩ })

/-- A position for that wallet, in the same block. -/
def opening : Tx Call where
  sender := .standard "caller"
  height := .literal 120
  call := .openPosition (.standard "wallet")

theorem open_position_guarded_opening :
    (getApprovals
      ((exec onRegistry.next (deployment (.standard "deployer") ⟨100, by decide⟩)
        [healthy, opening]).get rfl).state.consumer).val =
      (((exec onRegistry.next (deployment (.standard "deployer") ⟨100, by decide⟩)
        [healthy, opening]).get rfl).receipts.filterMap opened).length :=
  (open_position_guarded ⟨[healthy, opening], (Option.some_get rfl).symm⟩).2.1

/-- The two contracts after the reading was published. -/
def published : Chain System Call :=
  (exec onRegistry.next (deployment (.standard "deployer") (.literal 100)) [healthy]).get rfl

theorem reachable_published :
    Reachable onRegistry.next (deployment (.standard "deployer") (.literal 100)) published :=
  ⟨[healthy], (Option.some_get rfl).symm⟩

theorem acceptable_published :
    Acceptable (.standard "wallet") opening.env published.state.registry :=
  ⟨_, rfl, by decide, by decide⟩

/-- The position can be opened in one block as often as the counter can count. -/
theorem exec_opening (count : Nat) (fits : count < 2 ^ 128) :
    ∃ chain, exec onRegistry.next published (List.replicate count opening) = some chain ∧
      chain.height = published.height ∧ chain.state.registry = published.state.registry ∧
      chain.state.consumer.approvals.val = count := by
  induction count with
  | zero => exact ⟨published, rfl, rfl, rfl, rfl⟩
  | succ count ih =>
      rcases ih (by omega) with ⟨chain, run, height, registry, counted⟩
      rcases acceptable_published with ⟨risk, latest, young, policy⟩
      have provided : registryProvider chain.state.registry (.standard "wallet")
          maxRiskAgeBlocks opening.env = some (.ok (some risk)) := by
        rw [registryProvider_eq_some_iff, Registry.getRiskIfFresh_eq_some_iff, registry]
        refine ⟨latest, ?_⟩
        cases latest
        decide
      have ran : onRegistry.run opening.env opening.call chain.state =
          .ok (.uint risk.snapshotId) ⟨chain.state.registry, ⟨⟨count + 1, fits⟩,
            chain.state.consumer.lastApprovedAt.set (.standard "wallet")
              opening.env.stacksBlockHeight⟩⟩ := by
        refine run_openPosition_eq_ok_iff.mpr ⟨risk.snapshotId, rfl, rfl, ?_⟩
        refine openPosition_eq_ok_iff.mpr ⟨risk, provided, policy, rfl, ?_, rfl⟩
        rw [counted]
      have ordered : chain.height ≤ opening.height := by
        rw [height]
        decide
      rw [List.replicate_succ']
      exact ⟨_, exec_concat_eq_some_iff.mpr ⟨chain, run, Contract.next_of_ok ordered ran⟩, rfl,
        registry, rfl⟩

/-- After as many positions as a `uint` counts, a fresh and safe reading no longer
opens one. -/
theorem open_position_counter_full :
    ¬∀ (deployer : Principal) (height : Uint) (chain : Chain System Call),
      Reachable onRegistry.next (deployment deployer height) chain →
      ∀ user env, chain.height ≤ env.stacksBlockHeight →
        ((∃ value after, onRegistry.run env (.openPosition user) chain.state =
            .ok value after) ↔
          Acceptable user env chain.state.registry) := by
  intro claimed
  rcases exec_opening (2 ^ 128 - 1) (by omega) with ⟨chain, run, height, registry, counted⟩
  have reachable : Reachable onRegistry.next
      (deployment (.standard "deployer") ⟨100, by decide⟩) chain := by
    rcases reachable_published with ⟨txs, first⟩
    exact ⟨_, exec_append_eq_some_iff.mpr ⟨published, first, run⟩⟩
  have reached : chain.height ≤ opening.env.stacksBlockHeight := by
    rw [height]
    decide
  have acceptable : Acceptable (.standard "wallet") opening.env chain.state.registry := by
    rw [registry]
    exact acceptable_published
  rcases (claimed _ _ chain reachable _ _ reached).mpr acceptable with ⟨value, after, ran⟩
  rcases run_openPosition_eq_ok_iff.mp ran with ⟨id, -, -, inside⟩
  rcases openPosition_eq_ok_iff.mp inside with ⟨-, -, -, -, full, -⟩
  have fits := after.consumer.approvals.val_lt
  rw [full, counted] at fits
  omega

end RiskRail.Consumer
