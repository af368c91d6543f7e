import RiskRail.Database.RiskSnapshot
import RiskRail.Indexer.Refresh
import RiskRail.Queue.Core

/-!
# Risk jobs

A refresh that has committed queues a risk job with the height it read.  The job
reads the current portfolio of the wallet, not the one that was committed, and
writes a report that names the height it was queued with.  Refreshes and risk
jobs run concurrently; the stress results and the notes of the report, and what
the job emits, are left out.
-/

namespace RiskRail.Report

open RiskRail.Engine RiskRail.Database RiskRail.Numeric RiskRail.Queue RiskRail.Transition

/-- What a report keeps of a position. -/
structure PositionReport where
  id : String
  protocolId : String
  type : PositionType
  valueUsd : Option ℚ
  liquidBps : Option ℕ
  liquidation : Option LiquidationMetrics

/-- The report of a risk job. -/
structure RiskReport where
  version : String
  wallet : String
  sourceBlock : ℕ
  generatedAt : ℕ
  valuationCoverageBps : ℤ
  metrics : PortfolioRiskSummary
  positions : List PositionReport

/-- The data of a risk job. -/
structure RiskRecalculateJob where
  correlationId : String
  sourceBlock : ℕ
deriving DecidableEq

/-- How far an attempt of a risk job has come. -/
inductive Progress where
  | started
  /-- `getCurrentPortfolio` answered with positions and the latest snapshot. -/
  | read (positions : List NormalizedPosition) (snapshot : Option PortfolioSnapshot)
  /-- The row is inserted; events and alert jobs are still to be sent. -/
  | persisted
deriving DecidableEq

/-- A row of `RiskSnapshot`, with the positions it was computed from. -/
structure PersistedReport where
  row : RiskSnapshot
  positions : List NormalizedPosition

variable (arithmetic : Arithmetic) (toUpperCase : String → String)
  (sha256Canonical : RiskReport → String) (owner : String)

/-- The report on the positions and the latest snapshot that were read. -/
def buildReport (sourceBlock generatedAt : ℕ) (positions : List NormalizedPosition)
    (snapshot : Option PortfolioSnapshot) : RiskReport where
  version := "rivisk-v1.2"
  wallet := owner
  sourceBlock := sourceBlock
  generatedAt := generatedAt
  valuationCoverageBps :=
    (snapshot.map fun latest => latest.portfolio.valuationCoverageBps).getD 0
  metrics := calculatePortfolioRisk arithmetic toUpperCase positions
  positions := positions.map fun position =>
    { id := position.id
      protocolId := position.protocolId
      type := position.type
      valueUsd := position.valueUsd
      liquidBps := position.liquidBps
      liquidation := position.liquidation }

/-- Refreshes of the wallet, the risk queue, and the reports, newest first. -/
structure State where
  refreshes : Indexer.State
  riskJobs : Jobs RiskRecalculateJob Progress
  reports : List PersistedReport

/-- No refresh, no job and no report. -/
def State.initial : State where
  refreshes := .initial
  riskJobs := .empty
  reports := []

/-- A result of `snapshots: { orderBy: { observedAt: 'desc' }, take: 1 }`. -/
def IsLatestObserved (store : Store) : Option PortfolioSnapshot → Prop
  | none => store.portfolioSnapshots = []
  | some snapshot =>
      snapshot ∈ store.portfolioSnapshots ∧
        ∀ other ∈ store.portfolioSnapshots, other.observedAt ≤ snapshot.observedAt

instance (store : Store) :
    (snapshot : Option PortfolioSnapshot) → Decidable (IsLatestObserved store snapshot)
  | none => inferInstanceAs (Decidable (store.portfolioSnapshots = []))
  | some snapshot =>
      inferInstanceAs
        (Decidable (snapshot ∈ store.portfolioSnapshots ∧
          ∀ other ∈ store.portfolioSnapshots, other.observedAt ≤ snapshot.observedAt))

/-- What the refreshes and the risk jobs do. -/
inductive Action where
  | refresh (action : Indexer.Action)
  /-- A committed refresh queues its risk job and is done. -/
  | enqueue (correlationId : String)
  | start (id : String)
  | read (id : String) (positions : List NormalizedPosition)
      (snapshot : Option PortfolioSnapshot)
  | persist (id : String) (rowId generatedAt observedAt : ℕ)
  | complete (id : String)
  | fail (id : String)
  | expire (id : String)

/-- The read of an attempt that has just started. -/
def Progress.afterRead (positions : List NormalizedPosition)
    (snapshot : Option PortfolioSnapshot) : RiskRecalculateJob → Progress → Option Progress
  | _, .started => some (.read positions snapshot)
  | _, _ => none

/-- The risk jobs move; the refreshes stay. -/
def State.setRiskJobs (state : State) (riskJobs : Jobs RiskRecalculateJob Progress) : State :=
  { state with riskJobs }

/-- The insert of an attempt that has read: the risk of the positions, under the
height of the job. -/
def State.persist (state : State) (id : String) (job : Job RiskRecalculateJob Progress)
    (rowId generatedAt observedAt : ℕ) : Option State :=
  match job.phase with
  | .active (.read positions snapshot) => do
      let report :=
        buildReport arithmetic toUpperCase owner job.data.sourceBlock generatedAt positions snapshot
      let row ← persistRiskSnapshot report.metrics (sha256Canonical report)
        report.sourceBlock rowId observedAt
      some
        { state with
          riskJobs := Function.update state.riskJobs id
            (some { job with phase := .active .persisted })
          reports := ⟨row, positions⟩ :: state.reports }
  | _ => none

/-- One step of a refresh or of a risk job. -/
def next : Step State Action
  | state, .refresh action =>
      (Indexer.next arithmetic toUpperCase owner state.refreshes action).map fun refreshes =>
        { state with refreshes }
  | state, .enqueue correlationId =>
      match state.refreshes.jobs correlationId with
      | .committed blockHeight =>
          some
            { state with
              refreshes := state.refreshes.setJob correlationId .idle
              riskJobs := state.riskJobs.add (jobId [some "risk", some correlationId])
                ⟨correlationId, blockHeight⟩ }
      | _ => none
  | state, .start id => (state.riskJobs.modify id (Job.start .started)).map state.setRiskJobs
  | state, .read id positions snapshot =>
      if positions.Perm (currentPositions owner state.refreshes.store) ∧
          IsLatestObserved state.refreshes.store snapshot then
        (state.riskJobs.modify id (Job.advance (Progress.afterRead positions snapshot))).map
          state.setRiskJobs
      else
        none
  | state, .persist id rowId generatedAt observedAt =>
      (state.riskJobs id).bind fun job =>
        state.persist arithmetic toUpperCase sha256Canonical owner id job rowId generatedAt
          observedAt
  | state, .complete id =>
      (state.riskJobs.modify id (Job.complete fun progress => progress = .persisted)).map
        state.setRiskJobs
  | state, .fail id => (state.riskJobs.modify id Job.fail).map state.setRiskJobs
  | state, .expire id => (state.riskJobs.expire id).map state.setRiskJobs

/-- The positions were persisted by a refresh of the given height. -/
def PersistedAt (state : State) (sourceBlock : ℕ) (positions : List NormalizedPosition) : Prop :=
  ∃ refresh ∈ state.refreshes.store.portfolioSnapshots,
    refresh.blockHeight = sourceBlock ∧ positions.Perm refresh.portfolio.positions

/-- Every report was computed from the positions of the block it names. -/
def DescribesItsBlock (state : State) : Prop :=
  ∀ report ∈ state.reports, PersistedAt state report.row.sourceBlock report.positions

/-- A risk job reads only while the refresh committed last has the job's height. -/
def ReadsItsBlock (state : State) : Action → Prop
  | .read id _ _ =>
      ∀ job ∈ state.riskJobs id, ∃ latest ∈ state.refreshes.latest,
        latest.blockHeight = job.data.sourceBlock
  | _ => True

instance (state : State) (action : Action) : Decidable (ReadsItsBlock state action) := by
  cases action <;> unfold ReadsItsBlock <;> infer_instance

/-! ## What such runs keep true -/

/-- What an attempt of the job has read was persisted at the job's height. -/
def HasReadItsBlock (state : State) (job : Job RiskRecalculateJob Progress) : Prop :=
  ∀ positions snapshot, job.phase = .active (.read positions snapshot) →
    PersistedAt state job.data.sourceBlock positions

/-- The current positions are those of the refresh committed last, and jobs have
read what their height persisted. -/
structure Sound (state : State) : Prop where
  ready : Indexer.AllReady owner state.refreshes
  current : ∀ latest ∈ state.refreshes.latest,
    (currentPositions owner state.refreshes.store).Perm latest.portfolio.positions
  reads : state.riskJobs.All fun _ => HasReadItsBlock state
  described : DescribesItsBlock state

variable {arithmetic toUpperCase sha256Canonical owner}

theorem sound_initial : Sound owner State.initial where
  ready := Indexer.sound_initial.ready
  current := by simp [State.initial, Indexer.State.initial, Indexer.State.latest, Store.empty]
  reads := Jobs.all_empty
  described := by simp [DescribesItsBlock, State.initial]

variable {source target : State}

/-- Snapshots are never removed, so what was persisted stays persisted. -/
theorem PersistedAt.mono {sourceBlock : ℕ} {positions : List NormalizedPosition}
    (persisted : PersistedAt source sourceBlock positions)
    (kept : source.refreshes.store.portfolioSnapshots ⊆
      target.refreshes.store.portfolioSnapshots) :
    PersistedAt target sourceBlock positions := by
  rcases persisted with ⟨refresh, member, described⟩
  exact ⟨refresh, kept member, described⟩

/-- A step of the refreshes. -/
theorem Sound.refresh (sound : Sound owner source) {action : Indexer.Action}
    {refreshes : Indexer.State}
    (step : Indexer.next arithmetic toUpperCase owner source.refreshes action = some refreshes) :
    Sound owner { source with refreshes } := by
  have kept : source.refreshes.store.portfolioSnapshots ⊆ refreshes.store.portfolioSnapshots :=
    Indexer.portfolioSnapshots_subset step
  constructor
  · exact sound.ready.step step
  · rcases Indexer.next_cases step with
      ⟨correlationId, blockHeight, portfolio, observedAt, -, valued, rfl⟩ | ⟨-, moves⟩
    · intro latest isLatest
      cases Indexer.State.commit_latest.symm.trans isLatest
      exact Indexer.State.currentPositions_commit (sound.ready _ _ _ valued)
    · intro latest isLatest
      rw [moves.latest] at isLatest
      have current := sound.current latest isLatest
      unfold currentPositions at current ⊢
      rwa [moves.positions]
  · exact sound.reads.mono fun _ job hasRead positions snapshot reading =>
      (hasRead positions snapshot reading).mono kept
  · intro report member
    exact (sound.described report member).mono kept

theorem Sound.setRiskJobs (sound : Sound owner source)
    {riskJobs : Jobs RiskRecalculateJob Progress}
    (reads : riskJobs.All fun _ => HasReadItsBlock source) :
    Sound owner (source.setRiskJobs riskJobs) where
  ready := sound.ready
  current := sound.current
  reads := reads
  described := sound.described

/-- A step of the risk queue after which the job has read nothing new. -/
theorem Sound.modify (sound : Sound owner source) {id : String}
    {change : Job RiskRecalculateJob Progress → Option (Job RiskRecalculateJob Progress)}
    (step : (source.riskJobs.modify id change).map source.setRiskJobs = some target)
    (unread : ∀ job changed positions snapshot, change job = some changed →
      changed.phase ≠ .active (.read positions snapshot)) :
    Sound owner target := by
  rcases Option.map_eq_some_iff.mp step with ⟨riskJobs, modified, rfl⟩
  apply sound.setRiskJobs
  apply sound.reads.modify modified
  intro job changed _ change_eq positions snapshot reading
  exact absurd reading (unread job changed positions snapshot change_eq)

/-- A read while the job's own refresh is the latest. -/
theorem Sound.read (sound : Sound owner source) {id : String}
    {positions : List NormalizedPosition} {snapshot : Option PortfolioSnapshot}
    (itsBlock : ReadsItsBlock source (.read id positions snapshot))
    (isCurrent : positions.Perm (currentPositions owner source.refreshes.store))
    (step : (source.riskJobs.modify id
      (Job.advance (Progress.afterRead positions snapshot))).map source.setRiskJobs = some target) :
    Sound owner target := by
  rcases Option.map_eq_some_iff.mp step with ⟨riskJobs, modified, rfl⟩
  rcases Jobs.modify_eq_some_iff.mp modified with ⟨job, changed, found, change_eq, rfl⟩
  apply sound.setRiskJobs
  apply sound.reads.update
  rintro other ⟨⟩ others otherSnapshot reading
  rcases itsBlock job found with ⟨latest, isLatest, height⟩
  rcases Job.advance_eq_some change_eq with ⟨progress, advanced, -, advance_eq, rfl⟩
  cases progress <;> cases advance_eq
  cases reading
  exact ⟨latest, List.mem_of_head? isLatest, height,
    isCurrent.trans (sound.current latest isLatest)⟩

/-- The insert names the height whose positions were read. -/
theorem Sound.persist (sound : Sound owner source) {id : String}
    {job : Job RiskRecalculateJob Progress} {rowId generatedAt observedAt : ℕ}
    (found : source.riskJobs id = some job)
    (step : source.persist arithmetic toUpperCase sha256Canonical owner id job rowId
      generatedAt observedAt = some target) :
    Sound owner target := by
  simp only [State.persist] at step
  split at step
  next positions snapshot reading =>
    simp only [Option.bind_eq_bind, Option.bind_eq_some_iff, Option.some.injEq] at step
    rcases step with ⟨row, inserted, rfl⟩
    constructor
    · exact sound.ready
    · exact sound.current
    · apply sound.reads.update
      rintro other ⟨⟩ others otherSnapshot reading
      cases reading
    · intro report member
      rcases List.mem_cons.mp member with rfl | member
      · have height := persistRiskSnapshot_sourceBlock inserted
        rw [height]
        exact sound.reads id job found positions snapshot reading
      · exact sound.described report member
  next => cases step

/-- Every step that reads the job's own block keeps the invariant. -/
theorem Sound.step {action : Action} (sound : Sound owner source)
    (itsBlock : ReadsItsBlock source action)
    (step : next arithmetic toUpperCase sha256Canonical owner source action = some target) :
    Sound owner target := by
  cases action with
  | refresh action =>
      rcases Option.map_eq_some_iff.mp step with ⟨refreshes, moved, rfl⟩
      exact sound.refresh moved
  | enqueue correlationId =>
      simp only [next] at step
      split at step
      next blockHeight _ =>
        cases step
        constructor
        · exact sound.ready.update rfl (by simp)
        · exact sound.current
        · apply sound.reads.add
          rintro positions snapshot ⟨⟩
        · exact sound.described
      next => cases step
  | read id positions snapshot =>
      simp only [next] at step
      split at step
      next isCurrent => exact sound.read itsBlock isCurrent.1 step
      next => cases step
  | persist id rowId generatedAt observedAt =>
      rcases Option.bind_eq_some_iff.mp step with ⟨job, found, inserted⟩
      exact sound.persist found inserted
  | start id =>
      apply sound.modify step
      intro job changed positions snapshot change_eq reading
      rcases Job.start_eq_some change_eq with ⟨-, rfl⟩
      cases reading
  | complete id =>
      apply sound.modify step
      intro job changed positions snapshot change_eq reading
      rcases Job.complete_eq_some change_eq with ⟨-, -, -, rfl⟩
      cases reading
  | fail id =>
      apply sound.modify step
      intro job changed positions snapshot change_eq reading
      rcases Job.fail_eq_some change_eq with ⟨-, -, ended⟩
      exact absurd reading (JobPhase.ne_active_of_ended ended _)
  | expire id =>
      rcases Option.map_eq_some_iff.mp step with ⟨riskJobs, expired, rfl⟩
      exact sound.setRiskJobs (sound.reads.expire expired)

/-- A risk report describes the block it names in every run in which risk jobs
read while the refresh that was committed last has their height. -/
theorem describes_its_block_when_read_at_it {actions : List Action} {state : State}
    (along : Along (next arithmetic toUpperCase sha256Canonical owner) ReadsItsBlock
      .initial actions)
    (run : exec (next arithmetic toUpperCase sha256Canonical owner) .initial actions = some state) :
    DescribesItsBlock state :=
  (along.invariant Sound.step run sound_initial).described

/-! ## Two refreshes and their reports -/

/-- A refresh that reads a holding at a height, and queues its risk job. -/
def refreshAt (correlationId : String) (amountAtomic blockHeight : ℕ) : List Action :=
  [.refresh (.readTip correlationId blockHeight),
    .refresh (.value correlationId [Indexer.holding amountAtomic blockHeight] .empty),
    .refresh (.commit correlationId blockHeight), .enqueue correlationId]

/-- What that refresh persists. -/
def portfolioAt (amountAtomic blockHeight : ℕ) : Portfolio :=
  Indexer.valuedPortfolio .decimalJs String.toUpper "SP1"
    [Indexer.holding amountAtomic blockHeight] .empty

/-- A risk job that reads the positions of a height. -/
def reportAt (id : String) (rowId amountAtomic blockHeight : ℕ) : List Action :=
  [.start id,
    .read id (portfolioAt amountAtomic blockHeight).positions
      (some ⟨portfolioAt amountAtomic blockHeight, blockHeight, blockHeight⟩),
    .persist id rowId blockHeight blockHeight, .complete id]

/-- A digest of 64 hexadecimal digits. -/
def someDigest (_ : RiskReport) : String :=
  String.ofList (List.replicate 64 '0')

/-- The jobs of one wallet. -/
abbrev step : Step State Action :=
  next .decimalJs String.toUpper someDigest "SP1"

/-- A second refresh commits before the first one's risk job reads: the report
names block 100 and holds the positions of block 101. -/
theorem report_of_newer_positions :
    ∃ state, exec step .initial
        (refreshAt "user" 7 100 ++ refreshAt "chainhook" 5 101 ++ reportAt "risk-user" 1 5 101) =
          some state ∧
      ¬DescribesItsBlock state := by
  have run : (exec step .initial
      (refreshAt "user" 7 100 ++ refreshAt "chainhook" 5 101 ++ reportAt "risk-user" 1 5 101)).map
        (fun state => (state.reports.map fun report => (report.row.sourceBlock, report.positions),
          state.refreshes.store.portfolioSnapshots)) =
      some ([(100, (portfolioAt 5 101).positions)],
        [⟨portfolioAt 5 101, 101, 101⟩, ⟨portfolioAt 7 100, 100, 100⟩]) := by
    decide +kernel
  rcases Option.map_eq_some_iff.mp run with ⟨state, run, result⟩
  rcases Prod.mk.inj result with ⟨reports, snapshots⟩
  refine ⟨state, run, fun describes => ?_⟩
  have named : (100, (portfolioAt 5 101).positions) ∈ state.reports.map fun report =>
      (report.row.sourceBlock, report.positions) := by
    simp [reports]
  rcases List.mem_map.mp named with ⟨report, member, report_eq⟩
  rcases Prod.mk.inj report_eq with ⟨sourceBlock, positions⟩
  rcases describes report member with ⟨refresh, refreshMem, height, same⟩
  rw [snapshots] at refreshMem
  rw [sourceBlock] at height
  rw [positions] at same
  have older : refresh = ⟨portfolioAt 7 100, 100, 100⟩ := by
    rcases List.mem_cons.mp refreshMem with rfl | refreshMem
    · cases height
    · simpa using refreshMem
  rw [older] at same
  exact absurd same (by decide +kernel)

theorem describes_its_block_when_read_at_it_two :
    ∃ state, exec step .initial
        (refreshAt "user" 7 100 ++ reportAt "risk-user" 1 7 100 ++
          (refreshAt "chainhook" 5 101 ++ reportAt "risk-chainhook" 2 5 101)) = some state ∧
      state.reports.map (fun report => report.row.sourceBlock) = [101, 100] ∧
      DescribesItsBlock state := by
  have along : Along step ReadsItsBlock .initial
      (refreshAt "user" 7 100 ++ reportAt "risk-user" 1 7 100 ++
        (refreshAt "chainhook" 5 101 ++ reportAt "risk-chainhook" 2 5 101)) := by
    decide +kernel
  have run : (exec step .initial
      (refreshAt "user" 7 100 ++ reportAt "risk-user" 1 7 100 ++
        (refreshAt "chainhook" 5 101 ++ reportAt "risk-chainhook" 2 5 101))).map
          (fun state => state.reports.map fun report => report.row.sourceBlock) =
      some [101, 100] := by
    decide +kernel
  rcases Option.map_eq_some_iff.mp run with ⟨state, run, reports⟩
  exact ⟨state, run, reports, describes_its_block_when_read_at_it along run⟩

end RiskRail.Report
