import RiskRail.Alerts.Evaluator
import RiskRail.Queue.Core
import RiskRail.Relational.Table
import RiskRail.Transition.Core

/-!
# Risk and alert jobs

The risk queue and the alert queue of one wallet.  A risk job inserts a snapshot
and queues its alert job; an alert job creates an event for each rule that fires
and publishes it.  Any step may throw, and the attempt then starts again from the
beginning.  Every refresh queues one risk job; refreshes are numbered in that
order.  Finished jobs are kept: no id is queued again after its job is done.

Left out are the events `emit` sends, the attestation job, the e-mails and the
on-chain policy, none of which touches snapshots or alert events.
-/

namespace RiskRail.Alerts

open RiskRail.Database RiskRail.Queue RiskRail.Relational RiskRail.Transition

/-- A row of `RiskSnapshot` and the refresh it belongs to. -/
structure SnapshotRow where
  snapshot : RiskSnapshot
  refresh : ℕ
deriving DecidableEq

/-- A row of the table of events, as far as it is read. -/
structure AlertEvent where
  alertId : String
  value : ℤ
  riskSnapshotId : ℕ
deriving DecidableEq

/-- The data of a risk job: which refresh it is of, and its block. -/
structure RiskRecalculateJob where
  refresh : ℕ
  sourceBlock : ℕ
deriving DecidableEq

/-- How far a risk attempt has come. -/
inductive RiskProgress where
  | started
  /-- The report is built and `observedAt` is taken. -/
  | observed (figures : RiskFigures) (reportHash : String) (observedAt : ℕ)
  /-- The row is inserted; the alert job is still to be queued. -/
  | persisted (snapshot : RiskSnapshot)
  | queued (snapshot : RiskSnapshot)
deriving DecidableEq

/-- The data of an alert job. -/
structure AlertEvaluateJob where
  riskSnapshotId : ℕ
deriving DecidableEq

/-- An attempt holds the snapshot, the one before it, the rules still to be
evaluated, and the number of events it created. -/
inductive AlertProgress where
  | started
  | evaluating (snapshot : RiskSnapshot) (previous : Option RiskSnapshot)
      (remaining : List AlertRule) (localTriggered : ℕ)
  /-- An event is created and still to be published. -/
  | created (snapshot : RiskSnapshot) (previous : Option RiskSnapshot)
      (remaining : List AlertRule) (localTriggered : ℕ)
deriving DecidableEq

/-- The correlation ids of the refreshes in order, the two queues, the rows, newest
first, and the events, oldest first. -/
structure State where
  refreshes : List String
  riskJobs : Jobs RiskRecalculateJob RiskProgress
  rows : List SnapshotRow
  alertJobs : Jobs AlertEvaluateJob AlertProgress
  events : List AlertEvent

/-- Nothing is queued and nothing is stored. -/
def State.initial : State where
  refreshes := []
  riskJobs := .empty
  rows := []
  alertJobs := .empty
  events := []

/-- The id of the risk job of a refresh. -/
def riskId (correlationId : String) : String :=
  jobId [some "risk", some correlationId]

/-- The id of the alert job of a snapshot. -/
def alertsId (snapshotId : ℕ) : String :=
  jobId [some "alerts", some (toString snapshotId)]

/-- A result of the query for the snapshot before; rows that tie come in any
order. -/
def IsPrevious (rows : List SnapshotRow) (snapshot : RiskSnapshot) :
    Option RiskSnapshot → Prop
  | none =>
      ∀ row ∈ rows, row.snapshot.id ≠ snapshot.id →
        ¬row.snapshot.observedAt < snapshot.observedAt
  | some previous =>
      previous ∈ rows.map SnapshotRow.snapshot ∧ previous.id ≠ snapshot.id ∧
        previous.observedAt < snapshot.observedAt ∧
        ∀ row ∈ rows, row.snapshot.id ≠ snapshot.id →
          row.snapshot.observedAt < snapshot.observedAt →
            row.snapshot.observedAt ≤ previous.observedAt

instance (rows : List SnapshotRow) (snapshot : RiskSnapshot) :
    (previous : Option RiskSnapshot) → Decidable (IsPrevious rows snapshot previous)
  | none =>
      inferInstanceAs
        (Decidable (∀ row ∈ rows, row.snapshot.id ≠ snapshot.id →
          ¬row.snapshot.observedAt < snapshot.observedAt))
  | some previous =>
      inferInstanceAs
        (Decidable (previous ∈ rows.map SnapshotRow.snapshot ∧ previous.id ≠ snapshot.id ∧
          previous.observedAt < snapshot.observedAt ∧
          ∀ row ∈ rows, row.snapshot.id ≠ snapshot.id →
            row.snapshot.observedAt < snapshot.observedAt →
              row.snapshot.observedAt ≤ previous.observedAt))

/-- What the refreshes, the risk jobs and the alert jobs do. -/
inductive Action where
  /-- A refresh queues its risk job. -/
  | queueRisk (correlationId : String) (sourceBlock : ℕ)
  | startRisk (id : String)
  | observe (id : String) (figures : RiskFigures) (reportHash : String) (observedAt : ℕ)
  | commit (id : String) (rowId : ℕ)
  | queueAlerts (id : String)
  | completeRisk (id : String)
  | failRisk (id : String)
  | startAlert (id : String)
  /-- The attempt reads its snapshot, the one before and the active rules. -/
  | read (id : String) (previous : Option RiskSnapshot) (localRules : List AlertRule)
  /-- The next rule fires or does not. -/
  | evaluate (id : String)
  | publish (id : String)
  | completeAlert (id : String)
  | failAlert (id : String)

/-- The report is built. -/
def RiskProgress.observe (figures : RiskFigures) (reportHash : String) (observedAt : ℕ) :
    RiskRecalculateJob → RiskProgress → Option RiskProgress
  | _, .started => some (.observed figures reportHash observedAt)
  | _, _ => none

/-- The alert job is queued. -/
def RiskProgress.isQueued : RiskProgress → Bool
  | .queued _ => true
  | _ => false

/-- The created event is published, and the next rule's turn comes. -/
def AlertProgress.publish : AlertEvaluateJob → AlertProgress → Option AlertProgress
  | _, .created snapshot previous remaining localTriggered =>
      some (.evaluating snapshot previous remaining localTriggered)
  | _, _ => none

/-- No rule is left. -/
def AlertProgress.isEvaluated : AlertProgress → Bool
  | .evaluating _ _ [] _ => true
  | _ => false

/-- Risk jobs move; the tables stay. -/
def State.setRiskJobs (state : State) (riskJobs : Jobs RiskRecalculateJob RiskProgress) : State :=
  { state with riskJobs }

/-- Alert jobs move; the tables stay. -/
def State.setAlertJobs (state : State) (alertJobs : Jobs AlertEvaluateJob AlertProgress) :
    State :=
  { state with alertJobs }

/-- The insert of a row. -/
def State.commit (state : State) (id : String) (job : Job RiskRecalculateJob RiskProgress)
    (rowId : ℕ) : Option State :=
  match job.phase with
  | .active (.observed figures reportHash observedAt) =>
      if ∃ row ∈ state.rows, row.snapshot.id = rowId then none
      else
        let snapshot : RiskSnapshot :=
          { id := rowId, figures, reportHash, sourceBlock := job.data.sourceBlock, observedAt }
        some
          { state with
            riskJobs := Function.update state.riskJobs id
              (some { job with phase := .active (.persisted snapshot) })
            rows := ⟨snapshot, job.data.refresh⟩ :: state.rows }
  | _ => none

/-- The alert job of the inserted row is queued. -/
def State.queueAlerts (state : State) (id : String) (job : Job RiskRecalculateJob RiskProgress) :
    Option State :=
  match job.phase with
  | .active (.persisted snapshot) =>
      some
        { state with
          riskJobs := Function.update state.riskJobs id
            (some { job with phase := .active (.queued snapshot) })
          alertJobs := state.alertJobs.add (alertsId snapshot.id) ⟨snapshot.id⟩ }
  | _ => none

/-- The rules come in any order. -/
def State.read (rules : Table AlertRule.id) (state : State) (id : String)
    (job : Job AlertEvaluateJob AlertProgress) (previous : Option RiskSnapshot)
    (localRules : List AlertRule) : Option State :=
  match job.phase with
  | .active .started =>
      (state.rows.find? fun row => row.snapshot.id = job.data.riskSnapshotId).bind fun row =>
        if IsPrevious state.rows row.snapshot previous ∧ localRules.Perm rules.rows then
          some (state.setAlertJobs (Function.update state.alertJobs id
            (some { job with phase := .active (.evaluating row.snapshot previous localRules 0) })))
        else
          none
  | _ => none

/-- One turn of the loop over the rules, up to the publication. -/
def State.evaluate (state : State) (id : String) (job : Job AlertEvaluateJob AlertProgress) :
    Option State :=
  match job.phase with
  | .active (.evaluating snapshot previous (rule :: remaining) localTriggered) =>
      match rule.fires snapshot.figures (previous.map RiskSnapshot.figures) with
      | none =>
          some (state.setAlertJobs (Function.update state.alertJobs id
            (some
              { job with
                phase := .active (.evaluating snapshot previous remaining localTriggered) })))
      | some value =>
          some
            { state with
              alertJobs := Function.update state.alertJobs id
                (some
                  { job with
                    phase := .active (.created snapshot previous remaining (localTriggered + 1)) })
              events := state.events ++ [⟨rule.id, value, snapshot.id⟩] }
  | _ => none

/-- One step of a refresh, a risk job or an alert job. -/
def next (rules : Table AlertRule.id) : Step State Action
  | state, .queueRisk correlationId sourceBlock =>
      if state.riskJobs (riskId correlationId) = none then
        some
          { state with
            refreshes := state.refreshes ++ [correlationId]
            riskJobs := state.riskJobs.add (riskId correlationId)
              ⟨state.refreshes.length, sourceBlock⟩ }
      else
        some state
  | state, .startRisk id => (state.riskJobs.modify id (Job.start .started)).map state.setRiskJobs
  | state, .observe id figures reportHash observedAt =>
      (state.riskJobs.modify id
        (Job.advance (RiskProgress.observe figures reportHash observedAt))).map state.setRiskJobs
  | state, .commit id rowId => (state.riskJobs id).bind fun job => state.commit id job rowId
  | state, .queueAlerts id => (state.riskJobs id).bind fun job => state.queueAlerts id job
  | state, .completeRisk id =>
      (state.riskJobs.modify id (Job.complete fun progress => progress.isQueued = true)).map
        state.setRiskJobs
  | state, .failRisk id => (state.riskJobs.modify id Job.fail).map state.setRiskJobs
  | state, .startAlert id =>
      (state.alertJobs.modify id (Job.start .started)).map state.setAlertJobs
  | state, .read id previous localRules =>
      (state.alertJobs id).bind fun job => state.read rules id job previous localRules
  | state, .evaluate id => (state.alertJobs id).bind fun job => state.evaluate id job
  | state, .publish id =>
      (state.alertJobs.modify id (Job.advance AlertProgress.publish)).map state.setAlertJobs
  | state, .completeAlert id =>
      (state.alertJobs.modify id (Job.complete fun progress => progress.isEvaluated = true)).map
        state.setAlertJobs
  | state, .failAlert id => (state.alertJobs.modify id Job.fail).map state.setAlertJobs

/-! ## Crossings between two refreshes -/

/-- The risk job of a refresh is completed, and so is the alert job of each of its
snapshots that has one. -/
def State.Completed (state : State) (refresh : ℕ) : Prop :=
  (∃ correlationId ∈ state.refreshes[refresh]?, ∃ job ∈ state.riskJobs (riskId correlationId),
    job.data.refresh = refresh ∧ job.phase = .completed) ∧
  ∀ row ∈ state.rows, row.refresh = refresh →
    ∀ job ∈ state.alertJobs (alertsId row.snapshot.id), job.phase = .completed

/-- The row is the last snapshot of its refresh. -/
def State.IsLast (state : State) (row : SnapshotRow) : Prop :=
  ∀ other ∈ state.rows, other.refresh = row.refresh →
    other.snapshot.observedAt ≤ row.snapshot.observedAt

/-- Two consecutive refreshes are completed, and the rule's metric goes from not
breaching in the last snapshot of the first to breaching in the second. -/
structure State.Crosses (state : State) (rule : AlertRule) (refresh : ℕ) : Prop where
  before : state.Completed refresh
  after : state.Completed (refresh + 1)
  calm : ∀ row ∈ state.rows, row.refresh = refresh → state.IsLast row →
    ¬rule.Breaches row.snapshot.figures
  breached : ∀ row ∈ state.rows, row.refresh = refresh + 1 → rule.Breaches row.snapshot.figures

/-- The events of a rule that result from a refresh. -/
def State.eventsFrom (state : State) (rule : AlertRule) (refresh : ℕ) : List AlertEvent :=
  state.events.filter fun event =>
    event.alertId = rule.id ∧
      ∃ row ∈ state.rows, row.refresh = refresh ∧ row.snapshot.id = event.riskSnapshotId

/-- Every crossing is recorded exactly once. -/
def RecordsCrossingsOnce (rules : Table AlertRule.id) (state : State) : Prop :=
  ∀ rule ∈ rules.rows, ∀ refresh, state.Crosses rule refresh →
    (state.eventsFrom rule (refresh + 1)).length = 1

end RiskRail.Alerts
