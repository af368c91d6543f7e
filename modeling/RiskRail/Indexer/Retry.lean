import RiskRail.Chainhook.Ingest
import RiskRail.Indexer.Refresh

/-!
# Retried refreshes

One `portfolio.refresh` job, step by step, with every attempt the queue gives it.
Whatever throws inside `indexWallet` is recorded by `failIndexingRun`, also after
the transaction has committed, and the next attempt starts from the beginning.
A commit appends to the history and never clears the error of its run.  The
webhook fan-out swallows its failures and is left out.
-/

namespace RiskRail.Indexer.Retry

open RiskRail.Chainhook (isStacksPrincipal)
open RiskRail.Engine RiskRail.Database RiskRail.Numeric RiskRail.Queue RiskRail.Transition

/-- How far an attempt has come. -/
inductive Progress where
  | started
  | readTip (blockHeight : ℕ)
  /-- The adapters have answered, and the positions are valued. -/
  | valued (blockHeight : ℕ) (portfolio : Portfolio)
  | committed (blockHeight : ℕ)
  /-- The realtime event is published. -/
  | emitted (blockHeight : ℕ)
  /-- The risk job is added. -/
  | queued
  /-- A step threw; the failure is still to be recorded. -/
  | failing (error : String)
deriving DecidableEq

/-- The data of the job, as far as it is read. -/
structure PortfolioRefreshJob where
  correlationId : String
deriving DecidableEq

/-- The job, the database, and the portfolios its attempts have persisted, newest
first. -/
structure State where
  job : Job PortfolioRefreshJob Progress
  store : Store
  commits : List Portfolio

/-- The job is queued over a store. -/
def State.initial (correlationId : String) (store : Store) : State where
  job := .added ⟨correlationId⟩
  store := store
  commits := []

/-- What the attempts of the job do. -/
inductive Action where
  | start
  /-- An address that is no Stacks principal. -/
  | reject
  | readTip (blockHeight : ℕ)
  /-- The adapters answer, and the oracle does or does not. -/
  | value (adapters : List AdapterPosition) (prices : PriceMap)
  | commit (observedAt : ℕ)
  | emit
  | enqueue
  | complete
  /-- The running step throws, whether or not it took effect. -/
  | throw (error : String)
  /-- `failIndexingRun`, and the attempt fails. -/
  | recordFailure (now : ℕ)
  /-- `failIndexingRun` throws as well. -/
  | loseFailure
  /-- The process dies, and the queue takes the stalled job up again or gives up. -/
  | die (again : Bool)

/-- The tip is read. -/
def Progress.afterTip (blockHeight : ℕ) : PortfolioRefreshJob → Progress → Option Progress
  | _, .started => some (.readTip blockHeight)
  | _, _ => none

/-- The event is emitted. -/
def Progress.afterEmit : PortfolioRefreshJob → Progress → Option Progress
  | _, .committed blockHeight => some (.emitted blockHeight)
  | _, _ => none

/-- The risk job is queued. -/
def Progress.afterEnqueue : PortfolioRefreshJob → Progress → Option Progress
  | _, .emitted _ => some .queued
  | _, _ => none

/-- Something threw, before the attempt was done. -/
def Progress.afterThrow (error : String) : PortfolioRefreshJob → Progress → Option Progress
  | _, .queued | _, .failing _ => none
  | _, _ => some (.failing error)

/-- The job moves; the store stays. -/
def State.setJob (state : State) (job : Job PortfolioRefreshJob Progress) : State :=
  { state with job }

/-- The portfolio is stored in one transaction. -/
def State.commit (state : State) (observedAt : ℕ) : Option State :=
  match state.job.phase with
  | .active (.valued blockHeight portfolio) =>
      some
        { job := { state.job with phase := .active (.committed blockHeight) }
          store := persistPortfolio portfolio blockHeight state.job.data.correlationId observedAt
            state.store
          commits := portfolio :: state.commits }
  | _ => none

/-- The failure is stored and the attempt ends. -/
def State.recordFailure (state : State) (now : ℕ) : Option State :=
  match state.job.phase with
  | .active (.failing error) =>
      state.job.fail.map fun job =>
        { state with
          job
          store := failIndexingRun state.job.data.correlationId error now state.store }
  | _ => none

/-- Storing the failure throws, and the attempt ends. -/
def State.loseFailure (state : State) : Option State :=
  match state.job.phase with
  | .active (.failing _) => state.job.fail.map state.setJob
  | _ => none

/-- The running attempt ends with its process. -/
def State.die (state : State) (again : Bool) : Option State :=
  match state.job.phase with
  | .active _ =>
      some (state.setJob { state.job with phase := if again then .waiting else .failed })
  | _ => none

variable (arithmetic : Arithmetic) (toUpperCase : String → String)
  (validateStacksAddress : String → Bool) (owner : String)

/-- The adapters have answered for the tip. -/
def Progress.afterValue (adapters : List AdapterPosition) (prices : PriceMap) :
    PortfolioRefreshJob → Progress → Option Progress
  | _, .readTip blockHeight =>
      if AdaptersAt blockHeight adapters then
        some (.valued blockHeight (valuedPortfolio arithmetic toUpperCase owner adapters prices))
      else
        none
  | _, _ => none

/-- One step of an attempt. -/
def next : Step State Action
  | state, .start => (state.job.start .started).map state.setJob
  | state, .reject =>
      if state.job.phase = .active .started ∧ ¬isStacksPrincipal validateStacksAddress owner then
        state.job.fail.map state.setJob
      else
        none
  | state, .readTip blockHeight =>
      if isStacksPrincipal validateStacksAddress owner then
        (state.job.advance (Progress.afterTip blockHeight)).map state.setJob
      else
        none
  | state, .value adapters prices =>
      (state.job.advance
        (Progress.afterValue arithmetic toUpperCase owner adapters prices)).map state.setJob
  | state, .commit observedAt => state.commit observedAt
  | state, .emit => (state.job.advance Progress.afterEmit).map state.setJob
  | state, .enqueue => (state.job.advance Progress.afterEnqueue).map state.setJob
  | state, .complete =>
      (state.job.complete fun progress => progress = .queued).map state.setJob
  | state, .throw error => (state.job.advance (Progress.afterThrow error)).map state.setJob
  | state, .recordFailure now => state.recordFailure now
  | state, .loseFailure => state.loseFailure
  | state, .die again => state.die again

/-- The ids of the positions that one commit would leave snapshots of. -/
def State.persistedIds (state : State) : List String :=
  state.commits.head?.elim [] fun portfolio => portfolio.positions.map NormalizedPosition.id

/-- The run of the job is completed and shows no error. -/
def State.CompletedCleanly (state : State) : Prop :=
  ∃ run ∈ state.store.indexingRuns state.job.data.correlationId,
    run.status = .completed ∧ run.error = none

instance (state : State) : Decidable state.CompletedCleanly :=
  inferInstanceAs (Decidable (∃ run ∈ _, _ ∧ _))

/-- The job left one snapshot of the portfolio and one of every position if an attempt
persisted, and none otherwise, and its run is completed exactly then. -/
structure Idempotent (before : Store) (state : State) : Prop where
  portfolioSnapshots : ∃ added,
    state.store.portfolioSnapshots = added ++ before.portfolioSnapshots ∧
      added.length = if state.commits = [] then 0 else 1
  positionSnapshots : ∃ added,
    state.store.positionSnapshots = added ++ before.positionSnapshots ∧
      (added.map fun snapshot => snapshot.state.id).Perm state.persistedIds ∧
      state.persistedIds.Nodup
  run : state.CompletedCleanly ↔ state.commits ≠ []

/-! ## Writing once -/

/-- Only one attempt commits, and no failure is recorded before or after it. -/
def WritesOnce (state : State) : Action → Prop
  | .commit _ =>
      state.commits = [] ∧
        ∀ run ∈ state.store.indexingRuns state.job.data.correlationId, run.error = none
  | .recordFailure _ => state.commits = []
  | _ => True

instance (state : State) (action : Action) : Decidable (WritesOnce state action) := by
  cases action <;> unfold WritesOnce <;> infer_instance

/-- A portfolio that is ready to be committed lists every position once. -/
def HoldsEachOnce (phase : JobPhase Progress) : Prop :=
  ∀ blockHeight portfolio, phase = .active (.valued blockHeight portfolio) →
    (portfolio.positions.map NormalizedPosition.id).Nodup

/-- A step that leaves the database alone. -/
structure MovesJob (state target : State) : Prop where
  data : target.job.data = state.job.data
  store : target.store = state.store
  commits : target.commits = state.commits
  ready : HoldsEachOnce target.job.phase

/-! ## What a step does -/

variable {arithmetic toUpperCase validateStacksAddress owner}
variable {before : Store} {state target : State} {job : Job PortfolioRefreshJob Progress}

theorem State.commit_eq_some {observedAt : ℕ} (step : state.commit observedAt = some target) :
    ∃ blockHeight portfolio, state.job.phase = .active (.valued blockHeight portfolio) ∧
      target =
        { job := { state.job with phase := .active (.committed blockHeight) }
          store := persistPortfolio portfolio blockHeight state.job.data.correlationId observedAt
            state.store
          commits := portfolio :: state.commits } := by
  unfold State.commit at step
  split at step
  next blockHeight portfolio running =>
    cases step
    exact ⟨blockHeight, portfolio, running, rfl⟩
  next => cases step

theorem State.recordFailure_eq_some {now : ℕ} (step : state.recordFailure now = some target) :
    ∃ error job, state.job.fail = some job ∧
      target =
        { state with
          job
          store := failIndexingRun state.job.data.correlationId error now state.store } := by
  unfold State.recordFailure at step
  split at step
  next error running =>
    rcases Option.map_eq_some_iff.mp step with ⟨job, failed, rfl⟩
    exact ⟨error, job, failed, rfl⟩
  next => cases step

theorem holdsEachOnce_of_ne {phase : JobPhase Progress}
    (other : ∀ blockHeight portfolio, phase ≠ .active (.valued blockHeight portfolio)) :
    HoldsEachOnce phase :=
  fun blockHeight portfolio valued => absurd valued (other blockHeight portfolio)

theorem holdsEachOnce_of_ended {phase : JobPhase Progress}
    (ended : phase = .waiting ∨ phase = .failed) : HoldsEachOnce phase :=
  holdsEachOnce_of_ne fun _ _ => JobPhase.ne_active_of_ended ended _

/-- The running attempt goes on. -/
theorem movesJob_advance {change : PortfolioRefreshJob → Progress → Option Progress}
    (step : (state.job.advance change).map state.setJob = some target)
    (ready : ∀ data progress advanced, change data progress = some advanced →
      HoldsEachOnce (.active advanced)) : MovesJob state target := by
  rcases Option.map_eq_some_iff.mp step with ⟨job, advanced, rfl⟩
  rcases Job.advance_eq_some advanced with ⟨progress, next, running, change_eq, rfl⟩
  exact ⟨rfl, rfl, rfl, ready _ progress next change_eq⟩

/-- Only the answers of the adapters make a portfolio ready to be committed. -/
theorem movesJob_advance_of_ne {change : PortfolioRefreshJob → Progress → Option Progress}
    (step : (state.job.advance change).map state.setJob = some target)
    (other : ∀ data progress blockHeight portfolio,
      change data progress ≠ some (.valued blockHeight portfolio)) : MovesJob state target := by
  apply movesJob_advance step
  intro data progress advanced change_eq
  apply holdsEachOnce_of_ne
  rintro blockHeight portfolio ⟨⟩
  exact other data progress blockHeight portfolio change_eq

/-- The running attempt ends, and nothing is written. -/
theorem movesJob_fail (step : state.job.fail.map state.setJob = some target) :
    MovesJob state target := by
  rcases Option.map_eq_some_iff.mp step with ⟨job, failed, rfl⟩
  rcases Job.fail_eq_some failed with ⟨data, -, ended⟩
  exact ⟨data, rfl, rfl, holdsEachOnce_of_ended ended⟩

theorem State.die_eq_stall {again : Bool} :
    state.die again = (state.job.stall again).map state.setJob := by
  unfold State.die Job.stall
  cases state.job.phase <;> rfl

theorem movesJob_die {again : Bool} (step : state.die again = some target) :
    MovesJob state target := by
  rw [State.die_eq_stall] at step
  rcases Option.map_eq_some_iff.mp step with ⟨job, stalled, rfl⟩
  rcases Job.stall_eq_some stalled with ⟨data, -, ended⟩
  exact ⟨data, rfl, rfl, holdsEachOnce_of_ended ended⟩

/-- Every step but a commit and a recorded failure only moves the job. -/
theorem next_cases {action : Action}
    (step : next arithmetic toUpperCase validateStacksAddress owner state action = some target) :
    MovesJob state target ∨
      (∃ observedAt, action = .commit observedAt ∧ state.commit observedAt = some target) ∨
      ∃ now, action = .recordFailure now ∧ state.recordFailure now = some target := by
  cases action with
  | start =>
      rcases Option.map_eq_some_iff.mp step with ⟨job, started, rfl⟩
      rcases Job.start_eq_some started with ⟨-, rfl⟩
      exact .inl ⟨rfl, rfl, rfl, holdsEachOnce_of_ne (fun _ _ => nofun)⟩
  | reject =>
      simp only [next] at step
      split at step
      next => exact .inl (movesJob_fail step)
      next => cases step
  | readTip blockHeight =>
      simp only [next] at step
      split at step
      next =>
        refine .inl (movesJob_advance_of_ne step ?_)
        intro data progress
        cases progress <;> simp [Progress.afterTip]
      next => cases step
  | value adapters prices =>
      refine .inl (movesJob_advance step ?_)
      intro _ progress advanced change
      unfold Progress.afterValue at change
      split at change
      next =>
        split at change
        next adaptersAt =>
          cases change
          rintro _ _ ⟨⟩
          exact (ready_valuedPortfolio adaptersAt prices).distinct
        next => cases change
      next => cases change
  | commit observedAt => exact .inr (.inl ⟨observedAt, rfl, step⟩)
  | emit =>
      refine .inl (movesJob_advance_of_ne step ?_)
      intro data progress
      cases progress <;> simp [Progress.afterEmit]
  | enqueue =>
      refine .inl (movesJob_advance_of_ne step ?_)
      intro data progress
      cases progress <;> simp [Progress.afterEnqueue]
  | complete =>
      rcases Option.map_eq_some_iff.mp step with ⟨job, completed, rfl⟩
      rcases Job.complete_eq_some completed with ⟨progress, -, -, rfl⟩
      exact .inl ⟨rfl, rfl, rfl, holdsEachOnce_of_ne (fun _ _ => nofun)⟩
  | throw error =>
      refine .inl (movesJob_advance_of_ne step ?_)
      intro data progress
      cases progress <;> simp [Progress.afterThrow]
  | recordFailure now => exact .inr (.inr ⟨now, rfl, step⟩)
  | loseFailure =>
      simp only [next, State.loseFailure] at step
      split at step
      next => exact .inl (movesJob_fail step)
      next => cases step
  | die again => exact .inl (movesJob_die step)

/-! ## Runs that write once -/

/-- No attempt has persisted. -/
structure Unwritten (before : Store) (state : State) : Prop where
  commits : state.commits = []
  portfolioSnapshots : state.store.portfolioSnapshots = before.portfolioSnapshots
  positionSnapshots : state.store.positionSnapshots = before.positionSnapshots
  runs : ∀ run ∈ state.store.indexingRuns state.job.data.correlationId, run.status = .failed
  ready : HoldsEachOnce state.job.phase

/-- One attempt has persisted, and no failure is recorded. -/
structure Written (before : Store) (state : State) : Prop where
  commits : ∃ portfolio, state.commits = [portfolio] ∧
    (portfolio.positions.map NormalizedPosition.id).Nodup ∧
    ∃ added, state.store.positionSnapshots = added ++ before.positionSnapshots ∧
      (added.map fun snapshot => snapshot.state.id).Perm
        (portfolio.positions.map NormalizedPosition.id)
  portfolioSnapshots : ∃ snapshot,
    state.store.portfolioSnapshots = snapshot :: before.portfolioSnapshots
  run : state.CompletedCleanly

/-- Nothing is written yet, or what was committed. -/
def Sound (before : Store) (state : State) : Prop :=
  Unwritten before state ∨ Written before state

theorem Sound.idempotent (sound : Sound before state) : Idempotent before state := by
  rcases sound with unwritten | written
  · have none : state.persistedIds = [] := by
      rw [State.persistedIds, unwritten.commits]
      rfl
    refine ⟨⟨[], unwritten.portfolioSnapshots, ?_⟩, ⟨[], unwritten.positionSnapshots, ?_⟩, ?_⟩
    · rw [if_pos unwritten.commits]
      rfl
    · rw [none]
      exact ⟨.nil, List.nodup_nil⟩
    · constructor
      · rintro ⟨run, stored, completed, -⟩
        rw [unwritten.runs run stored] at completed
        cases completed
      · exact fun persisted => absurd unwritten.commits persisted
  · rcases written.commits with ⟨portfolio, commits, once, added, appended, ids⟩
    rcases written.portfolioSnapshots with ⟨snapshot, snapshots⟩
    have persistedIds :
        state.persistedIds = portfolio.positions.map NormalizedPosition.id := by
      rw [State.persistedIds, commits]
      rfl
    have persisted : state.commits ≠ [] := by simp [commits]
    refine ⟨⟨[snapshot], snapshots, ?_⟩, ⟨added, appended, ?_⟩, ?_⟩
    · rw [if_neg persisted]
      rfl
    · rw [persistedIds]
      exact ⟨ids, once⟩
    · exact iff_of_true written.run persisted

theorem Sound.moved (sound : Sound before state) (moved : MovesJob state target) :
    Sound before target := by
  rcases sound with unwritten | written
  · refine .inl ⟨?_, ?_, ?_, ?_, moved.ready⟩
    · rw [moved.commits, unwritten.commits]
    · rw [moved.store, unwritten.portfolioSnapshots]
    · rw [moved.store, unwritten.positionSnapshots]
    · rw [moved.store, moved.data]
      exact unwritten.runs
  · refine .inr ⟨?_, ?_, ?_⟩
    · rw [moved.commits, moved.store]
      exact written.commits
    · rw [moved.store]
      exact written.portfolioSnapshots
    · unfold State.CompletedCleanly
      rw [moved.store, moved.data]
      exact written.run

/-- The first commit, with no failure recorded before it. -/
theorem Unwritten.commit (unwritten : Unwritten before state) {observedAt : ℕ}
    (clean : ∀ run ∈ state.store.indexingRuns state.job.data.correlationId, run.error = none)
    (step : state.commit observedAt = some target) : Written before target := by
  rcases State.commit_eq_some step with ⟨blockHeight, portfolio, running, rfl⟩
  have cleared : (state.store.indexingRuns state.job.data.correlationId).bind
      IndexingRun.error = none := by
    cases stored : state.store.indexingRuns state.job.data.correlationId with
    | none => rfl
    | some run => exact clean run stored
  refine ⟨⟨portfolio, ?_, unwritten.ready blockHeight portfolio running, ?_⟩, ?_, ?_⟩
  · rw [unwritten.commits]
  · have appended := persistPortfolio_positionSnapshots portfolio blockHeight
      state.job.data.correlationId observedAt state.store
    rw [unwritten.positionSnapshots] at appended
    refine ⟨_, appended, ?_⟩
    rw [List.map_reverse, List.map_map]
    exact List.reverse_perm _
  · dsimp only
    rw [persistPortfolio_portfolioSnapshots, unwritten.portfolioSnapshots]
    exact ⟨_, rfl⟩
  · unfold State.CompletedCleanly
    dsimp only
    rw [persistPortfolio_indexingRuns, Function.update_self]
    exact ⟨_, rfl, rfl, cleared⟩

/-- A failure recorded before any commit. -/
theorem Unwritten.recordFailure (unwritten : Unwritten before state) {now : ℕ}
    (step : state.recordFailure now = some target) : Unwritten before target := by
  rcases State.recordFailure_eq_some step with ⟨error, job, failed, rfl⟩
  rcases Job.fail_eq_some failed with ⟨data, -, ended⟩
  refine ⟨unwritten.commits, unwritten.portfolioSnapshots, unwritten.positionSnapshots, ?_,
    holdsEachOnce_of_ended ended⟩
  intro run stored
  dsimp only [failIndexingRun] at stored
  rw [data, Function.update_self] at stored
  cases stored
  rfl

/-- One step of a run that writes once. -/
theorem sound_next {action : Action} (sound : Sound before state)
    (once : WritesOnce state action)
    (step : next arithmetic toUpperCase validateStacksAddress owner state action = some target) :
    Sound before target := by
  rcases next_cases step with moved | ⟨observedAt, rfl, committed⟩ | ⟨now, rfl, recorded⟩
  · exact sound.moved moved
  · rcases sound with unwritten | written
    · exact .inr (unwritten.commit once.2 committed)
    · rcases written.commits with ⟨portfolio, commits, -⟩
      cases commits.symm.trans once.1
  · rcases sound with unwritten | written
    · exact .inl (unwritten.recordFailure recorded)
    · rcases written.commits with ⟨portfolio, commits, -⟩
      cases commits.symm.trans once

/-! ## Runs that do not -/

/-- What no later step mends: a second commit, or a commit and a recorded failure. -/
def Spoiled (state : State) : Prop :=
  2 ≤ state.commits.length ∨
    state.commits ≠ [] ∧
      ∃ run ∈ state.store.indexingRuns state.job.data.correlationId, run.error ≠ none

instance (state : State) : Decidable (Spoiled state) :=
  inferInstanceAs (Decidable (_ ∨ _ ∧ ∃ run ∈ _, _))

/-- Every commit has left its snapshot. -/
def Counted (before : Store) (state : State) : Prop :=
  ∃ added, state.store.portfolioSnapshots = added ++ before.portfolioSnapshots ∧
    added.length = state.commits.length

theorem Spoiled.not_idempotent (spoiled : Spoiled state) (counted : Counted before state) :
    ¬Idempotent before state := by
  intro idempotent
  rcases spoiled with twice | ⟨persisted, run, stored, error⟩
  · rcases counted with ⟨added, appended, length⟩
    rcases idempotent.portfolioSnapshots with ⟨once, appendedOnce, lengthOnce⟩
    have same : added = once := List.append_cancel_right (appended.symm.trans appendedOnce)
    have persisted : state.commits ≠ [] := by
      rintro none
      rw [none] at twice
      cases twice
    rw [if_neg persisted, ← same, length] at lengthOnce
    omega
  · rcases idempotent.run.mpr persisted with ⟨completed, storedToo, -, clean⟩
    cases Option.mem_unique stored storedToo
    exact error clean

theorem counted_next {action : Action} (counted : Counted before state)
    (step : next arithmetic toUpperCase validateStacksAddress owner state action = some target) :
    Counted before target := by
  rcases counted with ⟨added, appended, length⟩
  rcases next_cases step with moved | ⟨observedAt, rfl, committed⟩ | ⟨now, rfl, recorded⟩
  · refine ⟨added, ?_, ?_⟩
    · rw [moved.store, appended]
    · rw [moved.commits, length]
  · rcases State.commit_eq_some committed with ⟨blockHeight, portfolio, -, rfl⟩
    refine ⟨⟨portfolio, blockHeight, observedAt⟩ :: added, ?_, ?_⟩
    · dsimp only
      rw [persistPortfolio_portfolioSnapshots, appended, List.cons_append]
    · exact congrArg Nat.succ length
  · rcases State.recordFailure_eq_some recorded with ⟨error, job, -, rfl⟩
    exact ⟨added, appended, length⟩

/-- Recording a failure leaves its error in the run. -/
theorem recordFailure_error {now : ℕ} (step : state.recordFailure now = some target) :
    target.commits = state.commits ∧
      ∃ run ∈ target.store.indexingRuns target.job.data.correlationId, run.error ≠ none := by
  rcases State.recordFailure_eq_some step with ⟨error, job, failed, rfl⟩
  rcases Job.fail_eq_some failed with ⟨data, -, -⟩
  refine ⟨rfl, ?_⟩
  dsimp only [failIndexingRun]
  rw [data, Function.update_self]
  exact ⟨_, rfl, nofun⟩

/-- A commit keeps the error of its run. -/
theorem commit_error {observedAt : ℕ} (step : state.commit observedAt = some target)
    {run : IndexingRun}
    (stored : run ∈ state.store.indexingRuns state.job.data.correlationId)
    (error : run.error ≠ none) : Spoiled target := by
  rcases State.commit_eq_some step with ⟨blockHeight, portfolio, -, rfl⟩
  refine .inr ⟨nofun, ?_⟩
  dsimp only
  rw [persistPortfolio_indexingRuns, Function.update_self, Option.mem_def.mp stored]
  exact ⟨_, rfl, error⟩

theorem spoiled_next {action : Action} (spoiled : Spoiled state)
    (step : next arithmetic toUpperCase validateStacksAddress owner state action = some target) :
    Spoiled target := by
  rcases next_cases step with moved | ⟨observedAt, rfl, committed⟩ | ⟨now, rfl, recorded⟩
  · unfold Spoiled
    rw [moved.store, moved.commits, moved.data]
    exact spoiled
  · rcases spoiled with twice | ⟨-, run, stored, error⟩
    · rcases State.commit_eq_some committed with ⟨blockHeight, portfolio, -, rfl⟩
      exact .inl (Nat.le_succ_of_le twice)
    · exact commit_error committed stored error
  · rcases recordFailure_error recorded with ⟨commits, failed⟩
    rcases spoiled with twice | ⟨persisted, -⟩
    · exact .inl (commits ▸ twice)
    · exact .inr ⟨commits ▸ persisted, failed⟩

/-- The first step that does not write once. -/
theorem spoiled_of_not_writesOnce {action : Action} (not : ¬WritesOnce state action)
    (step : next arithmetic toUpperCase validateStacksAddress owner state action = some target) :
    Spoiled target := by
  cases action with
  | commit observedAt =>
      by_cases first : state.commits = []
      · have failed : ¬∀ run ∈ state.store.indexingRuns state.job.data.correlationId,
            run.error = none := fun clean => not ⟨first, clean⟩
        push Not at failed
        rcases failed with ⟨run, stored, error⟩
        exact commit_error step stored error
      · rcases State.commit_eq_some step with ⟨blockHeight, portfolio, -, rfl⟩
        exact .inl (Nat.succ_le_succ (List.length_pos_iff.mpr first))
  | recordFailure now =>
      rcases recordFailure_error step with ⟨commits, failed⟩
      exact .inr ⟨commits ▸ not, failed⟩
  | _ => exact absurd trivial not

theorem not_idempotent_of_spoiled {correlationId : String} {actions : List Action}
    (run : exec (next arithmetic toUpperCase validateStacksAddress owner)
      (.initial correlationId before) actions = some state)
    (spoiled : Spoiled state) : ¬Idempotent before state :=
  spoiled.not_idempotent (exec_invariant counted_next run ⟨[], rfl, rfl⟩)

theorem unwritten_initial {correlationId : String}
    (fresh : before.indexingRuns correlationId = none) :
    Unwritten before (.initial correlationId before) where
  commits := rfl
  portfolioSnapshots := rfl
  positionSnapshots := rfl
  runs := by
    intro run stored
    cases fresh.symm.trans stored
  ready := holdsEachOnce_of_ne fun _ _ => nofun

/-- A refresh job is idempotent in exactly the runs that write once. -/
theorem idempotent_iff_writesOnce {correlationId : String} {actions : List Action}
    (fresh : before.indexingRuns correlationId = none)
    (run : exec (next arithmetic toUpperCase validateStacksAddress owner)
      (.initial correlationId before) actions = some state) :
    Idempotent before state ↔
      Along (next arithmetic toUpperCase validateStacksAddress owner) WritesOnce
        (.initial correlationId before) actions := by
  constructor
  · intro idempotent
    by_contra not
    have spoiled : Spoiled state :=
      exec_of_not_along spoiled_of_not_writesOnce spoiled_next run not
    exact not_idempotent_of_spoiled run spoiled idempotent
  · intro once
    exact (once.invariant sound_next run (.inl (unwritten_initial fresh))).idempotent

/-- The steps of an attempt that persists the wallet's holding. -/
def persisting (blockHeight observedAt : ℕ) : List Action :=
  [.start, .readTip blockHeight, .value [holding 7 blockHeight] .empty, .commit observedAt]

/-- The first attempt dies before the transaction, the second goes through. -/
theorem idempotent_iff_writesOnce_died :
    ∃ state ∈ exec
        (next .decimalJs String.toUpper (fun _ => true) "SP2J6ZY48GV1EZ5V2V5RB9MP66SW86PYKKNRV9EJ7")
        (.initial "7f1c" .empty)
        ([.start, .readTip 100, .die true] ++ persisting 101 5 ++ [.emit, .enqueue, .complete]),
      state.store.portfolioSnapshots.length = 1 ∧ Idempotent .empty state := by
  rcases (by decide +kernel :
    ∃ state ∈ exec
        (next .decimalJs String.toUpper (fun _ => true) "SP2J6ZY48GV1EZ5V2V5RB9MP66SW86PYKKNRV9EJ7")
        (.initial "7f1c" .empty)
        ([.start, .readTip 100, .die true] ++ persisting 101 5 ++ [.emit, .enqueue, .complete]),
      state.store.portfolioSnapshots.length = 1) with ⟨state, run, length⟩
  refine ⟨state, run, length, (idempotent_iff_writesOnce rfl run).mpr ?_⟩
  decide +kernel

/-- The publish to the realtime channel throws after the commit and the retry commits
again; the adapters throw, and the error outlives the attempt that persists; every
attempt throws after its commit, and the run ends as failed. -/
theorem recorded_failure_is_not_idempotent :
    let step :=
      next .decimalJs String.toUpper (fun _ => true) "SP2J6ZY48GV1EZ5V2V5RB9MP66SW86PYKKNRV9EJ7"
    (∃ state, exec step (.initial "7f1c" .empty)
        (persisting 100 5 ++ [.throw "realtime", .recordFailure 6] ++ persisting 101 7 ++
          [.emit, .enqueue, .complete]) = some state ∧
      state.job.phase = .completed ∧ state.store.portfolioSnapshots.length = 2 ∧
      ¬Idempotent .empty state) ∧
    (∃ state, exec step (.initial "7f1c" .empty)
        ([.start, .readTip 100, .throw "adapter", .recordFailure 6] ++ persisting 101 7 ++
          [.emit, .enqueue, .complete]) = some state ∧
      state.job.phase = .completed ∧ state.store.portfolioSnapshots.length = 1 ∧
      ¬Idempotent .empty state) ∧
    ∃ state, exec step (.initial "7f1c" .empty)
        (List.replicate 5 (persisting 100 5 ++ [.throw "realtime", .recordFailure 6])).flatten =
          some state ∧
      state.job.phase = .failed ∧ state.store.portfolioSnapshots.length = 5 ∧
      ¬Idempotent .empty state := by
  intro step
  have spoils : ∀ {actions phase count},
      (∃ state ∈ exec step (.initial "7f1c" .empty) actions,
        state.job.phase = phase ∧ state.store.portfolioSnapshots.length = count ∧
          Spoiled state) →
      ∃ state, exec step (.initial "7f1c" .empty) actions = some state ∧
        state.job.phase = phase ∧ state.store.portfolioSnapshots.length = count ∧
          ¬Idempotent .empty state := by
    rintro actions phase count ⟨state, run, ended, length, spoiled⟩
    exact ⟨state, run, ended, length, not_idempotent_of_spoiled run spoiled⟩
  refine ⟨spoils ?_, spoils ?_, spoils ?_⟩
  · decide +kernel
  · decide +kernel
  · decide +kernel

end RiskRail.Indexer.Retry
