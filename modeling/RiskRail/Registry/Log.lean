import RiskRail.Registry.Core

/-!
# The append-only log of risk snapshots

`risk-snapshots` and `latest-snapshot-id` together form one log for each
wallet: ids are dense from one up to the latest, figures and heights are in
range, and nothing that was written is ever written again.
-/

namespace RiskRail.Registry

open RiskRail.Clarity
open RiskRail.Transition

/-- The figures of a stored entry are in range and it describes a block that
existed when it was published. -/
def Snapshot.InRange (entry : Snapshot) : Prop :=
  entry.riskScoreBps.val ≤ 10000 ∧ entry.liquidationDistanceBps.val ≤ 10000 ∧
    entry.protocolConcentrationBps.val ≤ 10000 ∧ entry.liquidityScoreBps.val ≤ 10000 ∧
    entry.sourceBlock.val ≤ entry.publishedAt.val

/-- The log of every wallet is dense, in range and ordered by publication. -/
structure WellFormedLog (chain : Chain State PublicCall) : Prop where
  dense : ∀ wallet id,
    (∃ entry, chain.state.riskSnapshots (wallet, id) = some entry) ↔
      1 ≤ id.val ∧ ∃ latest, chain.state.latestSnapshotId wallet = some latest ∧
        id.val ≤ latest.val
  latest_pos : ∀ wallet latest,
    chain.state.latestSnapshotId wallet = some latest → 1 ≤ latest.val
  inRange : ∀ wallet id entry,
    chain.state.riskSnapshots (wallet, id) = some entry →
      entry.InRange ∧ entry.publishedAt.val ≤ chain.height.val
  ordered : ∀ wallet first second older newer, first.val ≤ second.val →
    chain.state.riskSnapshots (wallet, first) = some older →
    chain.state.riskSnapshots (wallet, second) = some newer →
      older.publishedAt.val ≤ newer.publishedAt.val

theorem wellFormedLog_deployment (deployer : Principal) (height : Uint) :
    WellFormedLog (deployment deployer height) where
  dense := by
    intro wallet id
    constructor
    · rintro ⟨entry, stored⟩
      contradiction
    · rintro ⟨_, latest, stored, _⟩
      contradiction
  latest_pos := by
    intro wallet latest stored
    contradiction
  inRange := by
    intro wallet id entry stored
    contradiction
  ordered := by
    intro wallet first second older newer _ stored
    contradiction

/-- Time may pass and everything but the log may change. -/
theorem WellFormedLog.of_log_eq {chain after : Chain State PublicCall}
    (log : WellFormedLog chain) (later : chain.height ≤ after.height)
    (snapshots : after.state.riskSnapshots = chain.state.riskSnapshots)
    (latest : after.state.latestSnapshotId = chain.state.latestSnapshotId) :
    WellFormedLog after where
  dense := by
    rw [snapshots, latest]
    exact log.dense
  latest_pos := by
    rw [latest]
    exact log.latest_pos
  inRange := by
    rw [snapshots]
    intro wallet id entry stored
    obtain ⟨range, published⟩ := log.inRange wallet id entry stored
    exact ⟨range, published.trans (Uint.le_def.mp later)⟩
  ordered := by
    rw [snapshots]
    exact log.ordered

/-- No id is up to the current one where nothing is published, since that is zero. -/
theorem le_latest_iff {state : State} {wallet : Principal} {id : Uint} :
    (1 ≤ id.val ∧ ∃ latest, state.latestSnapshotId wallet = some latest ∧
        id.val ≤ latest.val) ↔
      1 ≤ id.val ∧ id.val ≤ (currentId wallet state).val := by
  unfold currentId
  cases state.latestSnapshotId wallet with
  | none =>
      simp only [reduceCtorEq, false_and, exists_false, and_false, Option.getD_none, false_iff]
      omega
  | some latest => simp

/-- The ids of a wallet's entries are those from one up to its current id. -/
theorem WellFormedLog.stored_iff {chain : Chain State PublicCall} (log : WellFormedLog chain)
    {wallet : Principal} {id : Uint} :
    (∃ entry, chain.state.riskSnapshots (wallet, id) = some entry) ↔
      1 ≤ id.val ∧ id.val ≤ (currentId wallet chain.state).val :=
  (log.dense wallet id).trans le_latest_iff

/-- Ids above the latest one are free. -/
theorem WellFormedLog.fresh {chain : Chain State PublicCall} (log : WellFormedLog chain)
    {wallet : Principal} {id : Uint}
    (above : id.val = (currentId wallet chain.state).val + 1) :
    chain.state.riskSnapshots (wallet, id) = none := by
  rw [← Option.not_isSome_iff_eq_none, Option.isSome_iff_exists, log.stored_iff]
  omega

/-- A publication extends the wallet's log by one entry. -/
theorem WellFormedLog.publish {chain after : Chain State PublicCall}
    (log : WellFormedLog chain) (later : chain.height ≤ after.height)
    {args : PublishArgs} {id : Uint}
    (id_eq : id.val = (currentId args.wallet chain.state).val + 1)
    (inRange : args.InRange after.height)
    (snapshots : after.state.riskSnapshots =
      chain.state.riskSnapshots.set (args.wallet, id) (args.snapshot after.height))
    (latest : after.state.latestSnapshotId =
      chain.state.latestSnapshotId.set args.wallet id) :
    WellFormedLog after where
  dense := by
    intro wallet other
    have current : currentId wallet after.state =
        if wallet = args.wallet then id else currentId wallet chain.state := by
      rw [currentId, latest, DataMap.set_apply]
      split <;> rfl
    rw [le_latest_iff, current, snapshots]
    by_cases same : wallet = args.wallet
    · subst same
      rw [if_pos rfl]
      by_cases isNew : other = id
      · subst isNew
        simp only [DataMap.set_self, Option.some.injEq, exists_eq', le_refl, and_true, true_iff]
        omega
      · have kept : (args.wallet, other) ≠ (args.wallet, id) := by simp [isNew]
        have val_ne : other.val ≠ id.val := fun equal => isNew (Uint.ext equal)
        rw [DataMap.set_of_ne kept, log.stored_iff]
        omega
    · have kept : (wallet, other) ≠ (args.wallet, id) := by simp [same]
      rw [DataMap.set_of_ne kept, if_neg same]
      exact log.stored_iff
  latest_pos := by
    intro wallet last stored
    rw [latest, DataMap.set_apply] at stored
    split at stored
    · cases stored
      omega
    · exact log.latest_pos wallet last stored
  inRange := by
    intro wallet other entry stored
    rw [snapshots, DataMap.set_apply] at stored
    split at stored
    · cases stored
      obtain ⟨score, distance, concentration, liquidity, block⟩ := inRange
      exact ⟨⟨score, distance, concentration, liquidity, block⟩, le_rfl⟩
    · obtain ⟨range, published⟩ := log.inRange wallet other entry stored
      exact ⟨range, published.trans (Uint.le_def.mp later)⟩
  ordered := by
    intro wallet first second older newer order olderStored newerStored
    rw [snapshots, DataMap.set_apply] at olderStored newerStored
    split at newerStored
    · -- The newer entry is the one just written, at the present height.
      rename_i newest
      cases newerStored
      split at olderStored
      · cases olderStored
        exact le_rfl
      · exact (log.inRange wallet first older olderStored).2.trans (Uint.le_def.mp later)
    · split at olderStored
      · -- The id just written is above every stored id of its wallet.
        rename_i newest
        cases newest
        have below := (log.stored_iff.mp ⟨newer, newerStored⟩).2
        omega
      · exact log.ordered wallet first second older newer order olderStored newerStored

/-- The log a call may extend. -/
def PublicCall.publishedWallet : PublicCall → Option Principal
  | .publishRiskSnapshot args => some args.wallet
  | .setPublisher _ _ => none
  | .transferOwnership _ => none
  | .acceptOwnership => none
  | .cancelOwnershipTransfer => none

/-- Entries of `chain` are entries of `after`. -/
def EntriesKept (chain after : Chain State PublicCall) : Prop :=
  ∀ wallet id entry, chain.state.riskSnapshots (wallet, id) = some entry →
    after.state.riskSnapshots (wallet, id) = some entry

/-- The log of `wallet` is the same in both states. -/
def SameLog (wallet : Principal) (chain after : Chain State PublicCall) : Prop :=
  after.state.latestSnapshotId wallet = chain.state.latestSnapshotId wallet ∧
    ∀ id, after.state.riskSnapshots (wallet, id) = chain.state.riskSnapshots (wallet, id)

/-- What a transaction does to the log: nothing, or one new entry of one wallet. -/
theorem next_log_cases {chain after : Chain State PublicCall} {tx : Tx PublicCall}
    (step : riskRegistry.next chain tx = some after) :
    chain.height ≤ after.height ∧
      ((after.state.riskSnapshots = chain.state.riskSnapshots ∧
          after.state.latestSnapshotId = chain.state.latestSnapshotId) ∨
        ∃ args id, tx.call = .publishRiskSnapshot args ∧
          id.val = (currentId args.wallet chain.state).val + 1 ∧
          args.InRange after.height ∧
          after.state.riskSnapshots =
            chain.state.riskSnapshots.set (args.wallet, id) (args.snapshot after.height) ∧
          after.state.latestSnapshotId =
            chain.state.latestSnapshotId.set args.wallet id) := by
  obtain ⟨ordered, height_eq, outcome⟩ := Contract.next_cases step
  refine ⟨height_eq ▸ ordered, ?_⟩
  rcases outcome with ⟨value, ran, _⟩ | ⟨kept, _⟩
  · rcases run_cases ran with ⟨_, _, _, _, after_eq⟩ | ⟨_, _, _, after_eq⟩ | ⟨_, _, after_eq⟩ |
      ⟨_, _, after_eq⟩ | ⟨args, id, call_eq, id_eq, _, inRange, after_eq⟩
    · exact Or.inl ⟨by rw [after_eq], by rw [after_eq]⟩
    · exact Or.inl ⟨by rw [after_eq], by rw [after_eq]⟩
    · exact Or.inl ⟨by rw [after_eq], by rw [after_eq]⟩
    · exact Or.inl ⟨by rw [after_eq], by rw [after_eq]⟩
    · have now : tx.env.stacksBlockHeight = after.height := height_eq.symm
      rw [now] at inRange after_eq
      exact Or.inr ⟨args, id, call_eq, id_eq, inRange, by rw [after_eq], by rw [after_eq]⟩
  · exact Or.inl ⟨by rw [kept], by rw [kept]⟩

theorem WellFormedLog.next {chain after : Chain State PublicCall} {tx : Tx PublicCall}
    (log : WellFormedLog chain) (step : riskRegistry.next chain tx = some after) :
    WellFormedLog after := by
  obtain ⟨later, ⟨snapshots, latest⟩ | ⟨args, id, _, id_eq, inRange, snapshots, latest⟩⟩ :=
    next_log_cases step
  · exact log.of_log_eq later snapshots latest
  · exact log.publish later id_eq inRange snapshots latest

theorem entriesKept_next {chain after : Chain State PublicCall} {tx : Tx PublicCall}
    (log : WellFormedLog chain) (step : riskRegistry.next chain tx = some after) :
    EntriesKept chain after := by
  intro wallet id entry stored
  obtain ⟨_, ⟨snapshots, _⟩ | ⟨args, newId, _, id_eq, _, snapshots, _⟩⟩ := next_log_cases step
  · rw [snapshots]
    exact stored
  · rw [snapshots, DataMap.set_apply]
    split
    · rename_i overwritten
      cases overwritten
      rw [log.fresh id_eq] at stored
      contradiction
    · exact stored

theorem sameLog_next {chain after : Chain State PublicCall} {tx : Tx PublicCall}
    (step : riskRegistry.next chain tx = some after) {wallet : Principal}
    (other : tx.call.publishedWallet ≠ some wallet) : SameLog wallet chain after := by
  obtain ⟨_, ⟨snapshots, latest⟩ | ⟨args, id, call_eq, _, _, snapshots, latest⟩⟩ :=
    next_log_cases step
  · exact ⟨by rw [latest], fun id => by rw [snapshots]⟩
  · have distinct : wallet ≠ args.wallet := by
      rintro rfl
      exact other (by rw [call_eq]; rfl)
    refine ⟨by rw [latest, DataMap.set_of_ne distinct], fun other => ?_⟩
    rw [snapshots, DataMap.set_of_ne (by simp [distinct])]

/-- In every reachable state the registry is a well-formed log, one transaction
touches the log of at most the wallet it publishes, and no run that follows
changes or removes an entry. -/
theorem risk_snapshots_append_only {deployer : Principal} {height : Uint}
    {chain : Chain State PublicCall}
    (reachable : Reachable riskRegistry.next (deployment deployer height) chain) :
    WellFormedLog chain ∧
      (∀ tx after, riskRegistry.next chain tx = some after →
        EntriesKept chain after ∧
          ∀ wallet, tx.call.publishedWallet ≠ some wallet → SameLog wallet chain after) ∧
      ∀ later, Reachable riskRegistry.next chain later → EntriesKept chain later := by
  obtain ⟨txs, run⟩ := reachable
  have log : WellFormedLog chain :=
    exec_invariant (fun log step => log.next step) run
      (wellFormedLog_deployment deployer height)
  refine ⟨log, fun tx after step =>
    ⟨entriesKept_next log step, fun wallet other => sameLog_next step other⟩, ?_⟩
  rintro later ⟨rest, continued⟩
  exact exec_relation (fun _ _ _ _ stored => stored)
    (fun first second wallet id entry stored =>
      second wallet id entry (first wallet id entry stored))
    (fun log step => ⟨WellFormedLog.next log step, entriesKept_next log step⟩) continued log

/-- The deployer attests one wallet. -/
def firstPublication : Tx PublicCall where
  sender := .standard "deployer"
  height := ⟨120, by decide⟩
  call := .publishRiskSnapshot
    { wallet := .standard "wallet"
      riskScoreBps := ⟨1200, by decide⟩
      healthFactorE4 := ⟨14700, by decide⟩
      liquidationDistanceBps := ⟨3200, by decide⟩
      protocolConcentrationBps := ⟨9970, by decide⟩
      liquidityScoreBps := ⟨4100, by decide⟩
      sourceBlock := ⟨118, by decide⟩
      reportHash := ⟨[], by decide⟩ }

theorem risk_snapshots_append_only_firstPublication :
    WellFormedLog ((exec riskRegistry.next
      (deployment (.standard "deployer") ⟨100, by decide⟩) [firstPublication]).get rfl) :=
  (risk_snapshots_append_only ⟨[firstPublication], (Option.some_get rfl).symm⟩).1

end RiskRail.Registry
