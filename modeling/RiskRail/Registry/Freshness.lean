import RiskRail.Registry.Log

/-!
# Fresh reads of the risk registry

`get-risk-if-fresh` answers with the latest snapshot of a wallet unless it was
published more than the given number of blocks ago.  Entries are published in the
order of their ids, so any publication young enough keeps the read fresh.
-/

namespace RiskRail.Registry

open RiskRail.Clarity RiskRail.Transition

/-! ## Reads -/

/-- `is-fresh`. -/
def isFresh (publishedAt maxAgeBlocks : Uint) (env : Env) : Prop :=
  publishedAt ≤ env.stacksBlockHeight ∧
    env.stacksBlockHeight.val - publishedAt.val ≤ maxAgeBlocks.val

instance (publishedAt maxAgeBlocks : Uint) (env : Env) :
    Decidable (isFresh publishedAt maxAgeBlocks env) :=
  inferInstanceAs (Decidable (_ ∧ _))

/-- `get-latest-snapshot`. -/
def getLatestSnapshot (wallet : Principal) (state : State) : Option Snapshot :=
  (state.latestSnapshotId wallet).bind fun id => state.riskSnapshots (wallet, id)

/-- A snapshot merged with its id. -/
structure LatestRisk where
  snapshotId : Uint
  snapshot : Snapshot
deriving DecidableEq

/-- `get-latest-risk`. -/
def getLatestRisk (wallet : Principal) (state : State) : Option LatestRisk :=
  match state.latestSnapshotId wallet with
  | none => none
  | some id =>
      match state.riskSnapshots (wallet, id) with
      | none => none
      | some snapshot => some ⟨id, snapshot⟩

/-- `get-risk-if-fresh`: nothing where the latest snapshot is too old. -/
def getRiskIfFresh (wallet : Principal) (maxAgeBlocks : Uint) (env : Env) (state : State) :
    Option LatestRisk :=
  match state.latestSnapshotId wallet with
  | none => none
  | some id =>
      match state.riskSnapshots (wallet, id) with
      | none => none
      | some snapshot =>
          if isFresh snapshot.publishedAt maxAgeBlocks env then some ⟨id, snapshot⟩ else none

theorem getRiskIfFresh_eq_some_iff {wallet : Principal} {maxAgeBlocks : Uint} {env : Env}
    {state : State} {risk : LatestRisk} :
    getRiskIfFresh wallet maxAgeBlocks env state = some risk ↔
      getLatestRisk wallet state = some risk ∧
        isFresh risk.snapshot.publishedAt maxAgeBlocks env := by
  unfold getRiskIfFresh getLatestRisk
  split
  next => simp
  next id =>
    split
    next => simp
    next snapshot =>
      rw [Option.ite_none_right_eq_some]
      constructor
      · rintro ⟨fresh, ⟨⟩⟩
        exact ⟨rfl, fresh⟩
      · rintro ⟨⟨⟩, fresh⟩
        exact ⟨fresh, rfl⟩

/-! ## Publications -/

/-- The successful publications of a wallet, newest first. -/
def publications (wallet : Principal) (chain : Chain State PublicCall) :
    List (Receipt PublicCall) :=
  chain.receipts.filter fun receipt =>
    receipt.succeeded && decide (receipt.tx.call.publishedWallet = some wallet)

/-- Every successful publication has its entry. -/
def PublicationsStored (chain : Chain State PublicCall) : Prop :=
  ∀ receipt ∈ chain.receipts, receipt.succeeded = true → ∀ args,
    receipt.tx.call = .publishRiskSnapshot args →
      ∃ id, chain.state.riskSnapshots (args.wallet, id) =
        some (args.snapshot receipt.tx.height)

theorem PublicationsStored.next {chain after : Chain State PublicCall} {tx : Tx PublicCall}
    (stored : PublicationsStored chain) (log : WellFormedLog chain)
    (step : riskRegistry.next chain tx = some after) : PublicationsStored after := by
  have kept := entriesKept_next log step
  have old : ∀ receipt ∈ chain.receipts, receipt.succeeded = true → ∀ args,
      receipt.tx.call = .publishRiskSnapshot args →
        ∃ id, after.state.riskSnapshots (args.wallet, id) =
          some (args.snapshot receipt.tx.height) := by
    intro receipt member succeeded args call_eq
    rcases stored receipt member succeeded args call_eq with ⟨id, entry⟩
    exact ⟨id, kept args.wallet id _ entry⟩
  rcases Contract.next_cases step with ⟨-, height_eq, ⟨value, ran, receipts⟩ | ⟨-, receipts⟩⟩
  · intro receipt member succeeded args call_eq
    rw [receipts] at member
    rcases List.mem_cons.mp member with rfl | member
    · have call_eq : tx.call = .publishRiskSnapshot args := call_eq
      rw [call_eq] at ran
      rcases Outcome.map_eq_ok_iff.mp ran with ⟨id, published, -⟩
      rcases publishRiskSnapshot_eq_ok_iff.mp published with ⟨-, -, -, after_eq⟩
      refine ⟨id, ?_⟩
      rw [after_eq]
      exact DataMap.set_self _ _ _
    · exact old receipt member succeeded args call_eq
  · intro receipt member succeeded args call_eq
    rw [receipts] at member
    rcases List.mem_cons.mp member with rfl | member
    · cases succeeded
    · exact old receipt member succeeded args call_eq

/-- What every reachable chain satisfies. -/
structure Recorded (chain : Chain State PublicCall) : Prop where
  log : WellFormedLog chain
  stored : PublicationsStored chain

theorem recorded_of_run {deployer : Principal} {height : Uint} {txs : List (Tx PublicCall)}
    {chain : Chain State PublicCall}
    (run : exec riskRegistry.next (deployment deployer height) txs = some chain) :
    Recorded chain := by
  apply exec_invariant (fun recorded step =>
    ⟨recorded.log.next step, recorded.stored.next recorded.log step⟩) run
  refine ⟨wellFormedLog_deployment deployer height, ?_⟩
  intro receipt member
  cases member

/-- A publication no older than the maximum age keeps the read fresh. -/
theorem Recorded.isSome_getRiskIfFresh {chain : Chain State PublicCall}
    (recorded : Recorded chain) {wallet : Principal} {receipt : Receipt PublicCall}
    (published : receipt ∈ publications wallet chain) {maxAgeBlocks : Uint} {env : Env}
    (reached : chain.height ≤ env.stacksBlockHeight)
    (young : env.stacksBlockHeight.val ≤ receipt.tx.height.val + maxAgeBlocks.val) :
    (getRiskIfFresh wallet maxAgeBlocks env chain.state).isSome = true := by
  rcases List.mem_filter.mp published with ⟨member, selected⟩
  rw [Bool.and_eq_true, decide_eq_true_iff] at selected
  rcases selected with ⟨succeeded, wallet_eq⟩
  cases call_eq : receipt.tx.call with
  | publishRiskSnapshot args =>
      rw [call_eq] at wallet_eq
      cases wallet_eq
      rcases recorded.stored receipt member succeeded args call_eq with ⟨id, entry⟩
      rcases (recorded.log.dense args.wallet id).mp ⟨_, entry⟩ with ⟨-, latest, latest_eq, below⟩
      have positive := recorded.log.latest_pos args.wallet latest latest_eq
      rcases (recorded.log.dense args.wallet latest).mpr ⟨positive, latest, latest_eq, le_rfl⟩ with
        ⟨newest, newest_eq⟩
      -- The latest entry was published no earlier than this one.
      have later : receipt.tx.height.val ≤ newest.publishedAt.val :=
        recorded.log.ordered args.wallet id latest _ newest below entry newest_eq
      have mined := (recorded.log.inRange args.wallet latest newest newest_eq).2
      have fresh : isFresh newest.publishedAt maxAgeBlocks env := by
        rw [Uint.le_def] at reached
        constructor
        · exact Uint.le_def.mpr (mined.trans reached)
        · omega
      have found : getRiskIfFresh args.wallet maxAgeBlocks env chain.state =
          some ⟨latest, newest⟩ := by
        rw [getRiskIfFresh_eq_some_iff, getLatestRisk, latest_eq]
        simp only [newest_eq]
        exact ⟨trivial, fresh⟩
      rw [found, Option.isSome_some]
  | _ =>
      rw [call_eq] at wallet_eq
      cases wallet_eq

/-- A run of the chain only adds receipts. -/
theorem receipts_of_run {chain final : Chain State PublicCall} {txs : List (Tx PublicCall)}
    (run : exec riskRegistry.next chain txs = some final) :
    ∃ later, final.receipts = later ++ chain.receipts ∧ ∀ receipt ∈ later, receipt.tx ∈ txs := by
  induction txs generalizing chain with
  | nil =>
      cases run
      exact ⟨[], rfl, by simp⟩
  | cons tx rest ih =>
      rcases exec_cons_eq_some_iff.mp run with ⟨middle, step, run⟩
      rcases ih run with ⟨later, receipts, txs⟩
      have one : ∃ succeeded, middle.receipts = ⟨tx, succeeded⟩ :: chain.receipts := by
        rcases Contract.next_cases step with ⟨-, -, ⟨-, -, added⟩ | ⟨-, added⟩⟩
        · exact ⟨true, added⟩
        · exact ⟨false, added⟩
      rcases one with ⟨succeeded, added⟩
      refine ⟨later ++ [⟨tx, succeeded⟩], ?_, ?_⟩
      · rw [receipts, added, List.append_assoc, List.singleton_append]
      · intro receipt member
        rcases List.mem_append.mp member with old | new
        · exact List.mem_cons_of_mem _ (txs receipt old)
        · rw [List.mem_singleton.mp new]
          exact List.mem_cons_self

/-- A run of the chain only adds publications. -/
theorem publications_of_run (wallet : Principal) {chain final : Chain State PublicCall}
    {txs : List (Tx PublicCall)} (run : exec riskRegistry.next chain txs = some final) :
    ∃ later, publications wallet final = later ++ publications wallet chain ∧
      ∀ receipt ∈ later, receipt.tx ∈ txs := by
  rcases receipts_of_run run with ⟨later, receipts, txs_mem⟩
  refine ⟨later.filter fun receipt =>
    receipt.succeeded && decide (receipt.tx.call.publishedWallet = some wallet), ?_, ?_⟩
  · rw [publications, receipts, List.filter_append]
    rfl
  · exact fun receipt member => txs_mem receipt (List.mem_filter.mp member).1

end RiskRail.Registry
