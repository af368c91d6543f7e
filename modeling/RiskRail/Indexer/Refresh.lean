import RiskRail.Database.Portfolio
import RiskRail.Engine.Loan
import RiskRail.Transition.Core

/-!
# Refreshing a wallet

Several `indexWallet` jobs of one wallet at a time.  A job reads the tip height,
then the positions and prices, and later commits the valued portfolio in one
transaction.  Tip heights are read in order, but nothing orders the commits: a
job that read an older block may commit last.
-/

namespace RiskRail.Indexer

open RiskRail.Engine RiskRail.Database RiskRail.Numeric RiskRail.Transition

variable (arithmetic : Arithmetic) (toUpperCase : String → String) (owner : String)

/-- How far a refresh job has come. -/
inductive Phase where
  /-- Not running: not queued, waiting for an attempt, or done. -/
  | idle
  | readTip (blockHeight : ℕ)
  | valued (blockHeight : ℕ) (portfolio : Portfolio)
  | committed (blockHeight : ℕ)
deriving DecidableEq

/-- The greatest tip height read so far, the jobs by correlation id, and the
database. -/
structure State where
  tip : ℕ
  jobs : String → Phase
  store : Store

/-- No refresh and nothing stored. -/
def State.initial : State where
  tip := 0
  jobs := fun _ => .idle
  store := .empty

/-- A job gets somewhere; the tip and the store stay. -/
def State.setJob (state : State) (correlationId : String) (phase : Phase) : State :=
  { state with jobs := Function.update state.jobs correlationId phase }

/-- The `persistPortfolio` transaction of a job. -/
def State.commit (state : State) (correlationId : String) (blockHeight : ℕ)
    (portfolio : Portfolio) (observedAt : ℕ) : State :=
  { state.setJob correlationId (.committed blockHeight) with
    store := persistPortfolio portfolio blockHeight correlationId observedAt state.store }

/-- The steps of the refresh jobs. -/
inductive Action where
  | readTip (correlationId : String) (blockHeight : ℕ)
  /-- The adapters answer, and the oracle does or does not. -/
  | value (correlationId : String) (adapters : List AdapterPosition) (prices : PriceMap)
  | commit (correlationId : String) (observedAt : ℕ)
  /-- The attempt throws, is recorded as failed and waits for its retry. -/
  | fail (correlationId error : String) (now : ℕ)
  /-- The process dies; the job waits for its retry. -/
  | crash (correlationId : String)

/-- What the adapters promise: positions of the height they were asked for, with
distinct ids. -/
def AdaptersAt (blockHeight : ℕ) (adapters : List AdapterPosition) : Prop :=
  (∀ adapter ∈ adapters, adapter.position.source.blockHeight = blockHeight) ∧
    (adapters.map fun adapter => adapter.position.id).Nodup

instance (blockHeight : ℕ) (adapters : List AdapterPosition) :
    Decidable (AdaptersAt blockHeight adapters) :=
  inferInstanceAs (Decidable (_ ∧ _))

/-- `buildPortfolio(address, valuePositions(positions, prices))`. -/
def valuedPortfolio (adapters : List AdapterPosition) (prices : PriceMap) : Portfolio :=
  buildPortfolio arithmetic owner <|
    valuePositions arithmetic toUpperCase prices (adapters.map AdapterPosition.position)

/-- One step of a job; tips that are read do not go back. -/
def next : Step State Action
  | state, .readTip correlationId blockHeight =>
      if state.jobs correlationId = .idle ∧ state.tip ≤ blockHeight then
        some { state.setJob correlationId (.readTip blockHeight) with tip := blockHeight }
      else
        none
  | state, .value correlationId adapters prices =>
      match state.jobs correlationId with
      | .readTip blockHeight =>
          if AdaptersAt blockHeight adapters then
            some (state.setJob correlationId
              (.valued blockHeight (valuedPortfolio arithmetic toUpperCase owner adapters prices)))
          else
            none
      | _ => none
  | state, .commit correlationId observedAt =>
      match state.jobs correlationId with
      | .valued blockHeight portfolio =>
          some (state.commit correlationId blockHeight portfolio observedAt)
      | _ => none
  | state, .fail correlationId error now =>
      some { state.setJob correlationId .idle with
        store := failIndexingRun correlationId error now state.store }
  | state, .crash correlationId => some (state.setJob correlationId .idle)

/-- The snapshot committed last. -/
def State.latest (state : State) : Option PortfolioSnapshot :=
  state.store.portfolioSnapshots.head?

/-- A step does not move persisted state back in time: the height of the latest
snapshot and of the current positions does not decrease, and a row is changed
only by a commit that is not older than the row. -/
structure MovesForward (source target : State) : Prop where
  latest : ∀ before ∈ source.latest, ∀ after ∈ target.latest,
    before.blockHeight ≤ after.blockHeight
  current : ∀ before ∈ source.store.positions.rows, before.active = true →
    ∀ after ∈ target.store.positions.rows, after.active = true →
      before.blockHeight ≤ after.blockHeight
  kept : ∀ row ∈ source.store.positions.rows,
    row ∈ target.store.positions.rows ∨ ∃ after ∈ target.latest, row.blockHeight ≤ after.blockHeight

/-- A refresh commits only while nothing read from a newer tip is committed. -/
def InCommitOrder (state : State) : Action → Prop
  | .commit correlationId _ =>
      match state.jobs correlationId with
      | .valued blockHeight _ =>
          ∀ snapshot ∈ state.store.portfolioSnapshots, snapshot.blockHeight ≤ blockHeight
      | _ => True
  | _ => True

instance (state : State) (action : Action) : Decidable (InCommitOrder state action) := by
  cases action with
  | commit correlationId observedAt =>
      unfold InCommitOrder
      dsimp only
      split <;> infer_instance
  | _ => exact isTrue trivial

/-! ## What a run in commit order keeps true -/

/-- A portfolio that is ready to be committed at a height. -/
structure Ready (blockHeight : ℕ) (portfolio : Portfolio) : Prop where
  owner_eq : portfolio.owner = owner
  distinct : (portfolio.positions.map NormalizedPosition.id).Nodup
  height : ∀ position ∈ portfolio.positions, positionHeight position blockHeight = blockHeight

/-- Every portfolio that is waiting to be committed is ready. -/
def AllReady (state : State) : Prop :=
  ∀ correlationId blockHeight portfolio,
    state.jobs correlationId = .valued blockHeight portfolio → Ready owner blockHeight portfolio

/-- A job moved to another phase; neither positions nor snapshots changed. -/
structure MovesJob (source target : State) : Prop where
  job : ∃ correlationId phase,
    target.jobs = Function.update source.jobs correlationId phase ∧
      ∀ blockHeight portfolio, phase = .valued blockHeight portfolio →
        Ready owner blockHeight portfolio
  positions : target.store.positions = source.store.positions
  snapshots : target.store.portfolioSnapshots = source.store.portfolioSnapshots

/-- No snapshot is newer than the latest.  Rows are the wallet's and none is newer
than the latest snapshot; the active ones carry its height. -/
structure Sound (state : State) : Prop where
  ready : AllReady owner state
  owned : ∀ row ∈ state.store.positions.rows, row.owner = owner
  ordered : ∀ snapshot ∈ state.store.portfolioSnapshots,
    ∃ latest ∈ state.latest, snapshot.blockHeight ≤ latest.blockHeight
  recorded : ∀ row ∈ state.store.positions.rows,
    ∃ latest ∈ state.latest, row.blockHeight ≤ latest.blockHeight
  current : ∀ row ∈ state.store.positions.rows, row.active = true →
    ∃ latest ∈ state.latest, row.blockHeight = latest.blockHeight

section Invariant

variable {arithmetic toUpperCase owner}

theorem sound_initial : Sound owner State.initial := by
  constructor <;> simp [AllReady, State.initial, Store.empty, Relational.Table.empty]

theorem ready_valuedPortfolio {blockHeight : ℕ} {adapters : List AdapterPosition}
    (adaptersAt : AdaptersAt blockHeight adapters) (prices : PriceMap) :
    Ready owner blockHeight (valuedPortfolio arithmetic toUpperCase owner adapters prices) where
  owner_eq := rfl
  distinct := by
    have ids : (valuedPortfolio arithmetic toUpperCase owner adapters prices).positions.map
        NormalizedPosition.id = adapters.map fun adapter => adapter.position.id := by
      simp [valuedPortfolio, buildPortfolio, valuePositions, valuePosition_id]
    rw [ids]
    exact adaptersAt.2
  height := by
    intro position member
    rcases List.mem_map.mp member with ⟨original, originalMem, rfl⟩
    rcases List.mem_map.mp originalMem with ⟨adapter, adapterMem, rfl⟩
    unfold positionHeight
    rw [valuePosition_source, adaptersAt.1 adapter adapterMem]
    split <;> simp_all

variable {state : State} {correlationId : String} {blockHeight observedAt : ℕ}
  {portfolio : Portfolio}

theorem State.commit_latest :
    (state.commit correlationId blockHeight portfolio observedAt).latest =
      some ⟨portfolio, blockHeight, observedAt⟩ := by
  unfold State.latest State.commit
  rw [persistPortfolio_portfolioSnapshots]
  rfl

/-- After a commit a row is either written at its height or an old one, perhaps
closed. -/
theorem State.mem_commit (ready : Ready owner blockHeight portfolio) {row : PositionRow}
    (member : row ∈
      (state.commit correlationId blockHeight portfolio observedAt).store.positions.rows) :
    row.owner = owner ∧ row.blockHeight = blockHeight ∨
      ∃ old ∈ state.store.positions.rows,
        row.owner = old.owner ∧ row.blockHeight = old.blockHeight := by
  rcases (mem_persistPortfolio_iff ready.distinct).mp member with
    ⟨position, positionMem, rfl⟩ | ⟨old, oldMem, -, rfl⟩
  · exact .inl ⟨ready.owner_eq, ready.height position positionMem⟩
  · apply Or.inr
    refine ⟨old, oldMem, ?_⟩
    unfold closeMissing
    split <;> exact ⟨rfl, rfl⟩

/-- The active rows of the wallet after a commit carry its height. -/
theorem State.active_commit (sound : Sound owner state)
    (ready : Ready owner blockHeight portfolio) {row : PositionRow}
    (member : row ∈
      (state.commit correlationId blockHeight portfolio observedAt).store.positions.rows)
    (active : row.active = true) : row.blockHeight = blockHeight := by
  have owned : row.owner = portfolio.owner := by
    rw [ready.owner_eq]
    rcases State.mem_commit ready member with ⟨owned, -⟩ | ⟨old, oldMem, owned, -⟩
    · exact owned
    · exact owned.trans (sound.owned old oldMem)
  rcases (mem_active_persistPortfolio_iff ready.distinct).mp ⟨member, owned, active⟩ with
    ⟨position, positionMem, rfl⟩
  exact ready.height position positionMem

/-- After a commit the current positions are those of the portfolio. -/
theorem State.currentPositions_commit (ready : Ready owner blockHeight portfolio) :
    (currentPositions owner
      (state.commit correlationId blockHeight portfolio observedAt).store).Perm
        portfolio.positions := by
  rw [← ready.owner_eq]
  exact currentPositions_persistPortfolio ready.distinct

theorem AllReady.update (allReady : AllReady owner state) {target : State} {phase : Phase}
    (jobs : target.jobs = Function.update state.jobs correlationId phase)
    (ready : ∀ blockHeight portfolio, phase = .valued blockHeight portfolio →
      Ready owner blockHeight portfolio) :
    AllReady owner target := by
  intro other height valued isValued
  rw [jobs] at isValued
  by_cases same : other = correlationId
  · rw [same, Function.update_self] at isValued
    exact ready height valued isValued
  · rw [Function.update_of_ne same] at isValued
    exact allReady other height valued isValued

/-- A commit in order keeps the invariant. -/
theorem Sound.commit (sound : Sound owner state) (ready : Ready owner blockHeight portfolio)
    (inOrder : ∀ snapshot ∈ state.store.portfolioSnapshots,
      snapshot.blockHeight ≤ blockHeight) :
    Sound owner (state.commit correlationId blockHeight portfolio observedAt) where
  ready := sound.ready.update rfl (by simp)
  owned := by
    intro row member
    rcases State.mem_commit ready member with ⟨owned, -⟩ | ⟨old, oldMem, owned, -⟩
    · exact owned
    · exact owned.trans (sound.owned old oldMem)
  ordered := by
    intro snapshot member
    refine ⟨_, State.commit_latest, ?_⟩
    simp only [State.commit, persistPortfolio_portfolioSnapshots, List.mem_cons] at member
    rcases member with rfl | member
    · exact le_rfl
    · exact inOrder snapshot member
  recorded := by
    intro row member
    refine ⟨_, State.commit_latest, ?_⟩
    rcases State.mem_commit ready member with ⟨-, height⟩ | ⟨old, oldMem, -, height⟩
    · exact height.le
    · rcases sound.recorded old oldMem with ⟨latest, isLatest, le⟩
      have member := List.mem_of_head? isLatest
      exact height ▸ le.trans (inOrder latest member)
  current := by
    intro row member active
    exact ⟨_, State.commit_latest, State.active_commit sound ready member active⟩

/-- A commit moves forward exactly if it is in order. -/
theorem movesForward_commit_iff (sound : Sound owner state)
    (ready : Ready owner blockHeight portfolio) :
    MovesForward state (state.commit correlationId blockHeight portfolio observedAt) ↔
      ∀ snapshot ∈ state.store.portfolioSnapshots, snapshot.blockHeight ≤ blockHeight := by
  constructor
  · intro forward snapshot member
    rcases sound.ordered snapshot member with ⟨latest, isLatest, le⟩
    exact le.trans (forward.latest latest isLatest _ State.commit_latest)
  · intro inOrder
    have bounded : ∀ row ∈ state.store.positions.rows, row.blockHeight ≤ blockHeight := by
      intro row member
      rcases sound.recorded row member with ⟨latest, isLatest, le⟩
      exact le.trans (inOrder latest (List.mem_of_head? isLatest))
    constructor
    · intro before isBefore after isAfter
      cases State.commit_latest.symm.trans isAfter
      exact inOrder before (List.mem_of_head? isBefore)
    · intro before beforeMem _ after afterMem active
      rw [State.active_commit sound ready afterMem active]
      exact bounded before beforeMem
    · intro row member
      exact .inr ⟨_, State.commit_latest, bounded row member⟩

theorem MovesJob.latest {source target : State} (moves : MovesJob owner source target) :
    target.latest = source.latest := by
  unfold State.latest
  rw [moves.snapshots]

theorem MovesJob.allReady {source target : State} (moves : MovesJob owner source target)
    (allReady : AllReady owner source) : AllReady owner target := by
  rcases moves.job with ⟨correlationId, phase, jobs, ready⟩
  exact allReady.update jobs ready

theorem MovesJob.sound {source target : State} (moves : MovesJob owner source target)
    (sound : Sound owner source) : Sound owner target where
  ready := moves.allReady sound.ready
  owned := by
    rw [moves.positions]
    exact sound.owned
  ordered := by
    rw [moves.snapshots, moves.latest]
    exact sound.ordered
  recorded := by
    rw [moves.positions, moves.latest]
    exact sound.recorded
  current := by
    rw [moves.positions, moves.latest]
    exact sound.current

theorem MovesJob.movesForward {source target : State} (moves : MovesJob owner source target)
    (sound : Sound owner source) : MovesForward source target where
  latest := by
    intro before isBefore after isAfter
    rw [moves.latest] at isAfter
    cases isBefore.symm.trans isAfter
    exact le_rfl
  current := by
    intro before beforeMem beforeActive after afterMem afterActive
    rw [moves.positions] at afterMem
    rcases sound.current before beforeMem beforeActive with ⟨first, isFirst, beforeHeight⟩
    rcases sound.current after afterMem afterActive with ⟨second, isSecond, afterHeight⟩
    cases isFirst.symm.trans isSecond
    rw [beforeHeight, afterHeight]
  kept := by
    intro row member
    rw [moves.positions]
    exact .inl member

/-- What a step can do: commit a valued portfolio, or move a job. -/
theorem next_cases {source target : State} {action : Action}
    (step : next arithmetic toUpperCase owner source action = some target) :
    (∃ correlationId blockHeight portfolio observedAt,
      action = .commit correlationId observedAt ∧
      source.jobs correlationId = .valued blockHeight portfolio ∧
      target = source.commit correlationId blockHeight portfolio observedAt) ∨
    (InCommitOrder source action ∧ MovesJob owner source target) := by
  cases action with
  | commit correlationId observedAt =>
      apply Or.inl
      simp only [next] at step
      split at step
      next blockHeight portfolio valued =>
        cases step
        exact ⟨correlationId, blockHeight, portfolio, observedAt, rfl, valued, rfl⟩
      next => cases step
  | readTip correlationId blockHeight =>
      simp only [next] at step
      split at step
      next =>
        cases step
        exact .inr ⟨trivial, ⟨correlationId, _, rfl, by simp⟩, rfl, rfl⟩
      next => cases step
  | value correlationId adapters prices =>
      simp only [next] at step
      split at step
      next blockHeight _ =>
        split at step
        next adaptersAt =>
          cases step
          apply Or.inr
          refine ⟨trivial, ⟨correlationId, _, rfl, ?_⟩, rfl, rfl⟩
          intro height portfolio same
          cases same
          exact ready_valuedPortfolio adaptersAt prices
        next => cases step
      next => cases step
  | fail correlationId error now =>
      cases step
      exact .inr ⟨trivial, ⟨correlationId, _, rfl, by simp⟩, rfl, rfl⟩
  | crash correlationId =>
      cases step
      exact .inr ⟨trivial, ⟨correlationId, _, rfl, by simp⟩, rfl, rfl⟩

theorem AllReady.step {source target : State} {action : Action}
    (allReady : AllReady owner source)
    (step : next arithmetic toUpperCase owner source action = some target) :
    AllReady owner target := by
  rcases next_cases step with
    ⟨correlationId, blockHeight, portfolio, observedAt, -, -, rfl⟩ | ⟨-, moves⟩
  · exact allReady.update rfl (by simp)
  · exact moves.allReady allReady

/-- Snapshots are never removed. -/
theorem portfolioSnapshots_subset {source target : State} {action : Action}
    (step : next arithmetic toUpperCase owner source action = some target) :
    source.store.portfolioSnapshots ⊆ target.store.portfolioSnapshots := by
  rcases next_cases step with
    ⟨correlationId, blockHeight, portfolio, observedAt, -, -, rfl⟩ | ⟨-, moves⟩
  · intro snapshot member
    simp only [State.commit, persistPortfolio_portfolioSnapshots]
    exact List.mem_cons_of_mem _ member
  · rw [moves.snapshots]
    exact List.Subset.refl _

/-- A step moves forward exactly if it is in commit order. -/
theorem movesForward_step_iff {source target : State} {action : Action}
    (sound : Sound owner source)
    (step : next arithmetic toUpperCase owner source action = some target) :
    MovesForward source target ↔ InCommitOrder source action := by
  rcases next_cases step with
    ⟨correlationId, blockHeight, portfolio, observedAt, rfl, valued, rfl⟩ | ⟨inOrder, moves⟩
  · rw [movesForward_commit_iff sound (sound.ready _ _ _ valued)]
    simp only [InCommitOrder, valued]
  · exact iff_of_true (moves.movesForward sound) inOrder

theorem Sound.step {source target : State} {action : Action} (sound : Sound owner source)
    (inOrder : InCommitOrder source action)
    (step : next arithmetic toUpperCase owner source action = some target) :
    Sound owner target := by
  rcases next_cases step with
    ⟨correlationId, blockHeight, portfolio, observedAt, rfl, valued, rfl⟩ | ⟨-, moves⟩
  · simp only [InCommitOrder, valued] at inOrder
    exact sound.commit (sound.ready _ _ _ valued) inOrder
  · exact moves.sound sound

end Invariant

/-- The step an action takes, if any, does not move persisted state back in
time. -/
def StepsForward (state : State) (action : Action) : Prop :=
  ∀ target, next arithmetic toUpperCase owner state action = some target →
    MovesForward state target

/-- Persisted state never moves back in time in exactly those runs in which
every refresh commits before anything read from a newer tip does. -/
theorem steps_forward_iff_in_commit_order (actions : List Action) :
    Along (next arithmetic toUpperCase owner) (StepsForward arithmetic toUpperCase owner)
        .initial actions ↔
      Along (next arithmetic toUpperCase owner) InCommitOrder .initial actions := by
  apply along_iff_of_invariant (Sound owner)
  · intro state action sound enabled
    constructor
    · intro forward
      rcases Option.ne_none_iff_exists'.mp enabled with ⟨target, step⟩
      exact (movesForward_step_iff sound step).mp (forward target step)
    · intro inOrder target step
      exact (movesForward_step_iff sound step).mpr inOrder
  · intro state action disabled
    apply iff_of_true
    · intro target step
      rw [disabled] at step
      cases step
    · cases action with
      | commit correlationId observedAt =>
          simp only [next] at disabled
          simp only [InCommitOrder]
          split at disabled
          next => cases disabled
          next => trivial
      | _ => exact trivial
  · intro source target action sound inOrder step
    exact sound.step inOrder step
  · exact sound_initial

/-- What a wallet holds at a height. -/
def holding (amountAtomic blockHeight : ℕ) : AdapterPosition where
  position :=
    { id := "native:SP1"
      protocolId := "native-stacks"
      type := .wallet
      assets := [{
        assetId := "STX", symbol := "STX", amountAtomic := amountAtomic, decimals := 6,
        role := .asset }]
      source := { blockHeight := blockHeight, observedAt := 0, exact := true } }
  valueUsd_none := rfl
  collateral_none := rfl
  debtUsd_none := rfl
  liquidation_none := rfl
  valuation_none := rfl
  assets_none := by simp
  liquidBps_le := by simp

/-- Two refreshes one after the other commit in order. -/
example :
    Along (next .decimalJs String.toUpper "SP1") InCommitOrder .initial
      [.readTip "user" 100, .value "user" [holding 7 100] .empty, .commit "user" 1,
        .readTip "chainhook" 101, .value "chainhook" [holding 5 101] .empty,
        .commit "chainhook" 2] := by
  decide +kernel

/-- Two refreshes overlap: the one that read block 101 commits first, the one
that read block 100 commits last and takes the wallet back to it. -/
theorem late_commit_moves_back :
    let step := next .decimalJs String.toUpper "SP1"
    ∃ source target,
      exec step .initial
        [.readTip "user" 100, .value "user" [holding 7 100] .empty,
          .readTip "chainhook" 101, .value "chainhook" [holding 5 101] .empty,
          .commit "chainhook" 1] = some source ∧
      step source (.commit "user" 2) = some target ∧
      source.store.positions.rows.map PositionRow.blockHeight = [101] ∧
      target.store.positions.rows.map PositionRow.blockHeight = [100] ∧
      ¬ MovesForward source target := by
  refine ⟨_, _, rfl, rfl, rfl, rfl, ?_⟩
  intro forward
  have older := forward.latest _ State.commit_latest _ State.commit_latest
  simp at older

end RiskRail.Indexer
