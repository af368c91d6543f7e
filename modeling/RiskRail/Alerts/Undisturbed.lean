import RiskRail.Alerts.Evaluation

/-!
# Undisturbed runs

Runs in which no risk attempt fails between a first row that breaches a rule and its
alert job, no alert attempt fails once it has created an event, and rows are inserted
in the order of their refreshes.  Every first row of a completed refresh that breaches
a rule is then evaluated, against the row inserted just before it.
-/

namespace RiskRail.Alerts

open RiskRail.Database RiskRail.Queue RiskRail.Relational RiskRail.Transition

/-! ## The condition -/

/-- An insert of the job would be the latest row, and of the latest refresh. -/
def InsertsLatest (rows : List SnapshotRow) (job : Job RiskRecalculateJob RiskProgress) : Prop :=
  match job.phase with
  | .active (.observed _ _ observedAt) =>
      ∀ row ∈ rows, row.snapshot.observedAt < observedAt ∧ row.refresh ≤ job.data.refresh
  | _ => True

/-- The attempt has inserted its row and not queued the alert job. -/
def IsPersisted (job : Job RiskRecalculateJob RiskProgress) : Prop :=
  match job.phase with
  | .active (.persisted _) => True
  | _ => False

/-- The row breaches no rule, or it is not the first one of its refresh. -/
def Spared (rules : Table AlertRule.id) (rows : List SnapshotRow) (row : SnapshotRow) : Prop :=
  (∀ rule ∈ rules.rows, ¬rule.Breaches row.snapshot.figures) ∨
    ∃ older ∈ rows, older.refresh = row.refresh ∧
      older.snapshot.observedAt < row.snapshot.observedAt

/-- An attempt that fails now leaves no row behind whose alert job is needed. -/
def LeavesSpared (rules : Table AlertRule.id) (rows : List SnapshotRow)
    (job : Job RiskRecalculateJob RiskProgress) : Prop :=
  match job.phase with
  | .active (.persisted snapshot) => Spared rules rows ⟨snapshot, job.data.refresh⟩
  | _ => True

instance (rules : Table AlertRule.id) (rows : List SnapshotRow) (row : SnapshotRow) :
    Decidable (Spared rules rows row) :=
  inferInstanceAs (Decidable ((∀ rule ∈ rules.rows, ¬_) ∨ ∃ older ∈ rows, _ ∧ _))

instance (rules : Table AlertRule.id) (rows : List SnapshotRow) :
    DecidablePred (LeavesSpared rules rows)
  | ⟨data, _, .active (.persisted snapshot)⟩ =>
      inferInstanceAs (Decidable (Spared rules rows ⟨snapshot, data.refresh⟩))
  | ⟨_, _, .active .started⟩ | ⟨_, _, .active (.observed ..)⟩ | ⟨_, _, .active (.queued _)⟩
  | ⟨_, _, .waiting⟩ | ⟨_, _, .completed⟩ | ⟨_, _, .failed⟩ => isTrue trivial

instance (rows : List SnapshotRow) (job : Job RiskRecalculateJob RiskProgress) :
    Decidable (InsertsLatest rows job) :=
  match job with
  | ⟨_, _, .active (.observed _ _ observedAt)⟩ =>
      inferInstanceAs (Decidable (∀ row ∈ rows, row.snapshot.observedAt < observedAt ∧ _))
  | ⟨_, _, .active .started⟩ | ⟨_, _, .active (.persisted _)⟩ | ⟨_, _, .active (.queued _)⟩
  | ⟨_, _, .waiting⟩ | ⟨_, _, .completed⟩ | ⟨_, _, .failed⟩ => isTrue trivial

/-- Rows are inserted in order, a risk attempt does not fail between a first row that
breaches a rule and its alert job, and an alert attempt does not fail once it has created
an event. -/
def Undisturbed (rules : Table AlertRule.id) (state : State) : Action → Prop
  | .commit id _ => ∀ job ∈ state.riskJobs id, InsertsLatest state.rows job
  | .failRisk id => ∀ job ∈ state.riskJobs id, LeavesSpared rules state.rows job
  | .failAlert id => ∀ job ∈ state.alertJobs id, ¬HasTriggered job
  | _ => True

instance (rules : Table AlertRule.id) (state : State) (action : Action) :
    Decidable (Undisturbed rules state action) := by
  cases action <;> unfold Undisturbed <;> infer_instance

/-- A latest row is not before one that has been read. -/
theorem Undisturbed.unraced {rules : Table AlertRule.id} {state : State} {action : Action}
    (undisturbed : Undisturbed rules state action) : Unraced state action := by
  cases action with
  | commit id rowId =>
      intro job found
      have latest := undisturbed job found
      unfold InsertsLatest at latest
      unfold InsertsUnread
      split
      next running =>
        simp only [running] at latest
        exact fun row member => .inl (latest row member).1
      next => trivial
  | failAlert id => exact undisturbed
  | _ => trivial

/-! ## What such runs keep true -/

/-- Rows have distinct ids and times, and later rows belong to later refreshes. -/
structure Ordered (rows : List SnapshotRow) : Prop where
  ids : ∀ first ∈ rows, ∀ second ∈ rows,
    first.snapshot.id = second.snapshot.id → first = second
  times : ∀ first ∈ rows, ∀ second ∈ rows,
    first.snapshot.observedAt = second.snapshot.observedAt → first = second
  refreshes : ∀ first ∈ rows, ∀ second ∈ rows,
    first.snapshot.observedAt < second.snapshot.observedAt → first.refresh ≤ second.refresh

/-- A risk attempt is about to queue the row's alert job. -/
def State.Pending (state : State) (row : SnapshotRow) : Prop :=
  ∃ id, ∃ job ∈ state.riskJobs id,
    job.phase = .active (.persisted row.snapshot) ∧ job.data.refresh = row.refresh

/-- What undisturbed runs keep true. -/
structure Sound (rules : Table AlertRule.id) (state : State) : Prop where
  riskJobs : state.riskJobs.All (RiskJobHolds state)
  rows : Ordered state.rows
  queued : ∀ row ∈ state.rows,
    (state.alertJobs (alertsId row.snapshot.id)).isSome = true ∨ state.Pending row ∨
      Spared rules state.rows row
  alertJobs : state.alertJobs.All (AlertJobHolds rules state)
  events : ∀ event ∈ state.events,
    (state.alertJobs (alertsId event.riskSnapshotId)).isSome = true

variable {rules : Table AlertRule.id} {source target state : State}

theorem sound_initial : Sound rules State.initial where
  riskJobs := Jobs.all_empty
  rows := by constructor <;> simp [State.initial]
  queued := by simp [State.initial]
  alertJobs := Jobs.all_empty
  events := by simp [State.initial]

theorem Sound.consistent (sound : Sound rules state) : Consistent rules state :=
  ⟨sound.rows.ids, sound.alertJobs, sound.events⟩

/-! ## The rows -/

theorem Ordered.cons {rows : List SnapshotRow} (ordered : Ordered rows) {row : SnapshotRow}
    (fresh : ∀ other ∈ rows, other.snapshot.id ≠ row.snapshot.id)
    (latest : ∀ other ∈ rows, other.snapshot.observedAt < row.snapshot.observedAt ∧
      other.refresh ≤ row.refresh) :
    Ordered (row :: rows) where
  ids := eq_of_key_eq_cons ordered.ids fresh
  times := eq_of_key_eq_cons ordered.times fun other member => (latest other member).1.ne
  refreshes := by
    intro first firstMem second secondMem earlier
    rcases List.mem_cons.mp firstMem with rfl | firstOld <;>
      rcases List.mem_cons.mp secondMem with rfl | secondOld
    · exact le_rfl
    · exact absurd earlier (latest second secondOld).1.not_gt
    · exact (latest first firstOld).2
    · exact ordered.refreshes first firstOld second secondOld earlier

theorem Ordered.commit (ordered : Ordered source.rows) {id : String}
    {job : Job RiskRecalculateJob RiskProgress} {rowId : ℕ} (latest : InsertsLatest source.rows job)
    (step : source.commit id job rowId = some target) : Ordered target.rows := by
  rcases State.commit_eq_some step with ⟨figures, reportHash, observedAt, running, fresh, rfl⟩
  simp only [InsertsLatest, running] at latest
  exact ordered.cons fresh latest

/-! ## Rows are queued for evaluation -/

theorem Spared.cons {rows : List SnapshotRow} {row : SnapshotRow} (spared : Spared rules rows row)
    (new : SnapshotRow) : Spared rules (new :: rows) row := by
  refine spared.imp_right ?_
  rintro ⟨older, member, same, earlier⟩
  exact ⟨older, List.mem_cons_of_mem _ member, same, earlier⟩

/-- A row that waits for its alert job goes on waiting while other jobs move. -/
theorem State.Pending.update {row : SnapshotRow} (pending : source.Pending row) {id : String}
    {job : Job RiskRecalculateJob RiskProgress} (found : source.riskJobs id = some job)
    (other : ¬IsPersisted job) {entry : Option (Job RiskRecalculateJob RiskProgress)}
    (riskJobs : target.riskJobs = Function.update source.riskJobs id entry) :
    target.Pending row := by
  rcases pending with ⟨waitingId, waiting, waitingFound, persisted, refresh⟩
  refine ⟨waitingId, waiting, ?_, persisted, refresh⟩
  have differs : waitingId ≠ id := by
    rintro rfl
    cases found.symm.trans waitingFound
    rw [IsPersisted, persisted] at other
    exact other trivial
  rw [riskJobs, Function.update_of_ne differs]
  exact waitingFound

/-- A risk job that was not between its row and its alert job moves without
touching the tables. -/
theorem Sound.modifyRisk (sound : Sound rules source) {id : String}
    {change : Job RiskRecalculateJob RiskProgress → Option (Job RiskRecalculateJob RiskProgress)}
    (step : (source.riskJobs.modify id change).map source.setRiskJobs = some target)
    (holds : target.riskJobs.All (RiskJobHolds target))
    (other : ∀ job changed, source.riskJobs id = some job → change job = some changed →
      ¬IsPersisted job) :
    Sound rules target := by
  rcases Option.map_eq_some_iff.mp step with ⟨riskJobs, modified, rfl⟩
  rcases Jobs.modify_eq_some_iff.mp modified with ⟨job, changed, found, change_eq, rfl⟩
  constructor
  · exact holds
  · exact sound.rows
  · intro row member
    rcases sound.queued row member with queued | pending | spared
    · exact .inl queued
    · exact .inr (.inl (pending.update found (other job changed found change_eq) rfl))
    · exact .inr (.inr spared)
  · exact sound.alertJobs
  · exact sound.events

/-- A failed attempt leaves its row to be spared. -/
theorem Sound.failRisk (sound : Sound rules source) {id : String}
    (undisturbed : Undisturbed rules source (.failRisk id))
    (step : next rules source (.failRisk id) = some target) : Sound rules target := by
  have holds := riskJobs_step sound.riskJobs step
  rcases Option.map_eq_some_iff.mp step with ⟨riskJobs, modified, rfl⟩
  rcases Jobs.modify_eq_some_iff.mp modified with ⟨job, changed, found, -, rfl⟩
  constructor
  · exact holds
  · exact sound.rows
  · intro row member
    rcases sound.queued row member with
      queued | ⟨waitingId, waiting, waitingFound, persisted, refresh⟩ | spared
    · exact .inl queued
    · by_cases same : waitingId = id
      · rw [same] at waitingFound
        have left := undisturbed waiting waitingFound
        rw [LeavesSpared, persisted, refresh] at left
        exact .inr (.inr left)
      · exact .inr (.inl ⟨waitingId, waiting, (Function.update_of_ne same ..).trans waitingFound,
          persisted, refresh⟩)
    · exact .inr (.inr spared)
  · exact sound.alertJobs
  · exact sound.events

/-- A refresh queues its risk job. -/
theorem Sound.queueRisk (sound : Sound rules source) {correlationId : String} {sourceBlock : ℕ}
    (step : next rules source (.queueRisk correlationId sourceBlock) = some target) :
    Sound rules target := by
  have holds := riskJobs_step sound.riskJobs step
  simp only [next] at step
  split at step
  next fresh =>
    cases step
    constructor
    · exact holds
    · exact sound.rows
    · intro row member
      rcases sound.queued row member with
        queued | ⟨id, job, found, persisted, refresh⟩ | spared
      · exact .inl queued
      · exact .inr (.inl ⟨id, job, Jobs.add_of_some found, persisted, refresh⟩)
      · exact .inr (.inr spared)
    · exact sound.alertJobs
    · exact sound.events
  next =>
    cases step
    exact sound

/-- The insert of a row that is the latest. -/
theorem Sound.commit (sound : Sound rules source) {id : String} {rowId : ℕ}
    (undisturbed : Undisturbed rules source (.commit id rowId))
    (step : next rules source (.commit id rowId) = some target) : Sound rules target := by
  have holds := riskJobs_step sound.riskJobs step
  have consistent := sound.consistent.step sound.riskJobs undisturbed.unraced step
  rcases Option.bind_eq_some_iff.mp step with ⟨job, found, committed⟩
  have ordered := sound.rows.commit (undisturbed job found) committed
  rcases State.commit_eq_some committed with ⟨figures, reportHash, observedAt, running, fresh, rfl⟩
  constructor
  · exact holds
  · exact ordered
  · intro row member
    rcases List.mem_cons.mp member with rfl | member
    · exact .inr (.inl ⟨id, _, Function.update_self .., rfl, rfl⟩)
    · rcases sound.queued row member with queued | pending | spared
      · exact .inl queued
      · exact .inr (.inl (pending.update found (by simp [IsPersisted, running]) rfl))
      · exact .inr (.inr (spared.cons _))
  · exact consistent.alertJobs
  · exact consistent.events

/-- The alert job of a row is queued. -/
theorem Sound.queueAlerts (sound : Sound rules source) {id : String}
    (step : next rules source (.queueAlerts id) = some target) : Sound rules target := by
  have holds := riskJobs_step sound.riskJobs step
  have unraced : Unraced source (.queueAlerts id) := trivial
  have consistent := sound.consistent.step sound.riskJobs unraced step
  rcases Option.bind_eq_some_iff.mp step with ⟨job, found, queued⟩
  rcases State.queueAlerts_eq_some queued with ⟨snapshot, running, rfl⟩
  constructor
  · exact holds
  · exact sound.rows
  · intro row member
    rcases sound.queued row member with
      queued | ⟨waitingId, waiting, waitingFound, persisted, refresh⟩ | spared
    · exact .inl (Jobs.isSome_add (.inr queued))
    · by_cases same : waitingId = id
      · rw [same, found] at waitingFound
        cases waitingFound
        rw [running] at persisted
        cases persisted
        exact .inl (Jobs.isSome_add (.inl rfl))
      · exact .inr (.inl ⟨waitingId, waiting, (Function.update_of_ne same ..).trans waitingFound,
          persisted, refresh⟩)
    · exact .inr (.inr spared)
  · exact consistent.alertJobs
  · exact consistent.events

/-- Alert steps leave the rows and the risk jobs alone. -/
theorem Sound.alerts {action : Action} (sound : Sound rules source) (ofAlerts : action.OfAlerts)
    (undisturbed : Undisturbed rules source action)
    (step : next rules source action = some target) : Sound rules target := by
  have consistent := sound.consistent.step sound.riskJobs undisturbed.unraced step
  rcases alert_step_eq_some ofAlerts step with ⟨id, job, events, rfl⟩
  exact
    { riskJobs := sound.riskJobs
      rows := sound.rows
      queued := fun row member => (sound.queued row member).imp_left Jobs.isSome_update
      alertJobs := consistent.alertJobs
      events := consistent.events }

/-- Undisturbed steps keep the invariant. -/
theorem Sound.step {action : Action} (sound : Sound rules source)
    (undisturbed : Undisturbed rules source action)
    (step : next rules source action = some target) : Sound rules target := by
  cases action with
  | queueRisk correlationId sourceBlock => exact sound.queueRisk step
  | startRisk id =>
      apply sound.modifyRisk step (riskJobs_step sound.riskJobs step)
      intro job changed found change_eq
      simp [IsPersisted, (Job.start_eq_some change_eq).1]
  | observe id figures reportHash observedAt =>
      apply sound.modifyRisk step (riskJobs_step sound.riskJobs step)
      intro job changed found change_eq
      rcases Job.advance_eq_some change_eq with ⟨progress, advanced, running, observed, -⟩
      cases progress <;> cases observed
      simp [IsPersisted, running]
  | commit id rowId => exact sound.commit undisturbed step
  | queueAlerts id => exact sound.queueAlerts step
  | completeRisk id =>
      apply sound.modifyRisk step (riskJobs_step sound.riskJobs step)
      intro job changed found change_eq
      rcases Job.complete_eq_some change_eq with ⟨progress, running, queued, -⟩
      cases progress <;> cases queued
      simp [IsPersisted, running]
  | failRisk id => exact sound.failRisk undisturbed step
  | startAlert | read | evaluate | publish | completeAlert | failAlert =>
      exact sound.alerts (by trivial) undisturbed step

end RiskRail.Alerts
