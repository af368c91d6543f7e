import RiskRail.Alerts.Worker

/-!
# What alert jobs have evaluated

As long as no row is inserted before one whose alert job has already read the
table, and no alert attempt fails once it has created an event, every alert job
holds exactly the events of the rules it has evaluated, compared with the row
before its own.
-/

namespace RiskRail.Alerts

open RiskRail.Database RiskRail.Queue RiskRail.Relational RiskRail.Transition

/-! ## The condition -/

/-- The attempt has created an event. -/
def HasTriggered (job : Job AlertEvaluateJob AlertProgress) : Prop :=
  match job.phase with
  | .active (.evaluating _ _ _ localTriggered) | .active (.created _ _ _ localTriggered) =>
      localTriggered ≠ 0
  | _ => False

/-- The row before the job's snapshot is read. -/
def HasRead : JobPhase AlertProgress → Prop
  | .active .started => False
  | .active _ | .completed => True
  | _ => False

/-- An insert of the job would be at a time of its own, and before no row whose
alert job has read. -/
def InsertsUnread (state : State) (job : Job RiskRecalculateJob RiskProgress) : Prop :=
  match job.phase with
  | .active (.observed _ _ observedAt) =>
      ∀ row ∈ state.rows, row.snapshot.observedAt < observedAt ∨
        observedAt < row.snapshot.observedAt ∧
          ∀ alert ∈ state.alertJobs (alertsId row.snapshot.id), ¬HasRead alert.phase
  | _ => True

instance (job : Job AlertEvaluateJob AlertProgress) : Decidable (HasTriggered job) := by
  unfold HasTriggered
  split <;> infer_instance

instance : DecidablePred HasRead
  | .active .started => inferInstanceAs (Decidable False)
  | .active (.evaluating ..) => inferInstanceAs (Decidable True)
  | .active (.created ..) => inferInstanceAs (Decidable True)
  | .completed => inferInstanceAs (Decidable True)
  | .waiting => inferInstanceAs (Decidable False)
  | .failed => inferInstanceAs (Decidable False)

instance (state : State) (job : Job RiskRecalculateJob RiskProgress) :
    Decidable (InsertsUnread state job) := by
  unfold InsertsUnread
  split <;> infer_instance

/-- Rows are inserted before those after them are compared, and an alert attempt
does not fail once it has created an event. -/
def Unraced (state : State) : Action → Prop
  | .commit id _ => ∀ job ∈ state.riskJobs id, InsertsUnread state job
  | .failAlert id => ∀ job ∈ state.alertJobs id, ¬HasTriggered job
  | _ => True

/-! ## What such runs keep true -/

/-- The job is that of its refresh, and its row is in the table. -/
def RiskJobHolds (state : State) (id : String) (job : Job RiskRecalculateJob RiskProgress) : Prop :=
  (∃ correlationId ∈ state.refreshes[job.data.refresh]?, id = riskId correlationId) ∧
    match job.phase with
    | .active (.persisted snapshot) | .active (.queued snapshot) =>
        ⟨snapshot, job.data.refresh⟩ ∈ state.rows
    | .completed => ∃ row ∈ state.rows, row.refresh = job.data.refresh
    | _ => True

/-- Whether a rule fires on a snapshot. -/
def Fires (snapshot : RiskSnapshot) (previous : Option RiskSnapshot) (rule : AlertRule) : Bool :=
  (rule.fires snapshot.figures (previous.map RiskSnapshot.figures)).isSome

/-- The ids of the rules that created an event on a snapshot. -/
def State.alertIds (state : State) (snapshotId : ℕ) : List String :=
  (state.events.filter fun event => event.riskSnapshotId = snapshotId).map AlertEvent.alertId

/-- Exactly the rules that fire among those already evaluated created an event. -/
structure Evaluated (rules : Table AlertRule.id) (rows : List SnapshotRow)
    (snapshot : RiskSnapshot) (previous : Option RiskSnapshot) (remaining : List AlertRule)
    (alertIds : List String) : Prop where
  before : IsPrevious rows snapshot previous
  fired : ∃ evaluated, (evaluated ++ remaining).Perm rules.rows ∧
    alertIds = (evaluated.filter (Fires snapshot previous)).map AlertRule.id

/-- What the phase of an alert job says of the events on its snapshot. -/
def AlertPhaseHolds (rules : Table AlertRule.id) (rows : List SnapshotRow)
    (snapshot : RiskSnapshot) (alertIds : List String) : JobPhase AlertProgress → Prop
  | .waiting | .active .started => alertIds = []
  | .active (.evaluating current previous remaining localTriggered)
  | .active (.created current previous remaining localTriggered) =>
      current = snapshot ∧ localTriggered = alertIds.length ∧
        Evaluated rules rows snapshot previous remaining alertIds
  | .completed => ∃ previous, Evaluated rules rows snapshot previous [] alertIds
  | .failed => True

/-- The job is that of its snapshot, and has created the events it should have. -/
def AlertJobHolds (rules : Table AlertRule.id) (state : State) (id : String)
    (job : Job AlertEvaluateJob AlertProgress) : Prop :=
  id = alertsId job.data.riskSnapshotId ∧
    ∃ row ∈ state.rows, row.snapshot.id = job.data.riskSnapshotId ∧
      AlertPhaseHolds rules state.rows row.snapshot (state.alertIds row.snapshot.id) job.phase

/-- Rows have distinct ids, and the events are those of the alert jobs. -/
structure Consistent (rules : Table AlertRule.id) (state : State) : Prop where
  ids : ∀ first ∈ state.rows, ∀ second ∈ state.rows,
    first.snapshot.id = second.snapshot.id → first = second
  alertJobs : state.alertJobs.All (AlertJobHolds rules state)
  events : ∀ event ∈ state.events,
    (state.alertJobs (alertsId event.riskSnapshotId)).isSome = true

variable {rules : Table AlertRule.id} {source target state : State}

theorem consistent_initial : Consistent rules State.initial where
  ids := by simp [State.initial]
  alertJobs := Jobs.all_empty
  events := by simp [State.initial]

theorem alertsId_inj {first second : ℕ} : alertsId first = alertsId second ↔ first = second := by
  have plain : Plain "alerts" := ⟨by decide, by decide⟩
  unfold alertsId
  rw [jobId_pair plain (plain_toString first), jobId_pair plain (plain_toString second)]
  constructor
  · intro same
    exact toString_injective ((String.append_right_inj _).mp same)
  · rintro rfl
    rfl

theorem fires_iff {rule : AlertRule} {snapshot : RiskSnapshot} {previous : Option RiskSnapshot} :
    Fires snapshot previous rule = true ↔
      rule.Breaches snapshot.figures ∧ ∀ before ∈ previous, ¬rule.Breaches before.figures := by
  rw [Fires, AlertRule.fires_isSome_iff]
  simp

/-! ## What an alert step changes -/

/-- The action is one of an alert job. -/
def Action.OfAlerts : Action → Prop
  | .startAlert _ | .read .. | .evaluate _ | .publish _ | .completeAlert _ | .failAlert _ => True
  | _ => False

theorem State.modifyAlert_eq_some {id : String}
    {change : Job AlertEvaluateJob AlertProgress → Option (Job AlertEvaluateJob AlertProgress)}
    (step : (source.alertJobs.modify id change).map source.setAlertJobs = some target) :
    ∃ job changed, source.alertJobs id = some job ∧ change job = some changed ∧
      target = source.setAlertJobs (Function.update source.alertJobs id (some changed)) := by
  rcases Option.map_eq_some_iff.mp step with ⟨alertJobs, modified, rfl⟩
  rcases Jobs.modify_eq_some_iff.mp modified with ⟨job, changed, found, change_eq, rfl⟩
  exact ⟨job, changed, found, change_eq, rfl⟩

theorem State.read_eq_some {id : String} {job : Job AlertEvaluateJob AlertProgress}
    {previous : Option RiskSnapshot} {localRules : List AlertRule}
    (step : source.read rules id job previous localRules = some target) :
    ∃ row ∈ source.rows, row.snapshot.id = job.data.riskSnapshotId ∧
      job.phase = .active .started ∧ IsPrevious source.rows row.snapshot previous ∧
      localRules.Perm rules.rows ∧
      target = source.setAlertJobs (Function.update source.alertJobs id
        (some { job with phase := .active (.evaluating row.snapshot previous localRules 0) })) := by
  simp only [State.read] at step
  split at step
  next running =>
    rcases Option.bind_eq_some_iff.mp step with ⟨row, found, step⟩
    split at step
    next answers =>
      cases step
      have named := List.find?_some found
      exact ⟨row, List.mem_of_find?_eq_some found, of_decide_eq_true named, running, answers.1,
        answers.2, rfl⟩
    next => cases step
  next => cases step

theorem State.evaluate_eq_some {id : String} {job : Job AlertEvaluateJob AlertProgress}
    (step : source.evaluate id job = some target) :
    ∃ snapshot previous rule remaining localTriggered,
      job.phase = .active (.evaluating snapshot previous (rule :: remaining) localTriggered) ∧
      (Fires snapshot previous rule = false ∧
        target = source.setAlertJobs (Function.update source.alertJobs id (some
          { job with phase := .active (.evaluating snapshot previous remaining localTriggered) })) ∨
      Fires snapshot previous rule = true ∧ ∃ value,
        target =
          { source with
            alertJobs := Function.update source.alertJobs id (some
              { job with
                phase := .active (.created snapshot previous remaining (localTriggered + 1)) })
            events := source.events ++ [⟨rule.id, value, snapshot.id⟩] }) := by
  simp only [State.evaluate] at step
  split at step
  next snapshot previous rule remaining localTriggered running =>
    refine ⟨snapshot, previous, rule, remaining, localTriggered, running, ?_⟩
    cases fires_eq : rule.fires snapshot.figures (previous.map RiskSnapshot.figures) with
    | none =>
        simp only [fires_eq] at step
        cases step
        exact .inl ⟨by rw [Fires, fires_eq]; rfl, rfl⟩
    | some value =>
        simp only [fires_eq] at step
        cases step
        exact .inr ⟨by rw [Fires, fires_eq]; rfl, value, rfl⟩
  next => cases step

/-- An alert step moves one job, and otherwise only adds events. -/
theorem alert_step_eq_some {action : Action} (ofAlerts : action.OfAlerts)
    (step : next rules source action = some target) :
    ∃ id job events, target =
      { source with alertJobs := Function.update source.alertJobs id (some job), events } := by
  cases action with
  | startAlert id | publish id | completeAlert id | failAlert id =>
      rcases State.modifyAlert_eq_some step with ⟨-, changed, -, -, rfl⟩
      exact ⟨id, changed, _, rfl⟩
  | read id previous localRules =>
      rcases Option.bind_eq_some_iff.mp step with ⟨job, -, read⟩
      rcases State.read_eq_some read with ⟨_, -, -, -, -, -, rfl⟩
      exact ⟨id, _, _, rfl⟩
  | evaluate id =>
      rcases Option.bind_eq_some_iff.mp step with ⟨job, -, evaluated⟩
      rcases State.evaluate_eq_some evaluated with
        ⟨_, _, _, _, _, -, ⟨-, rfl⟩ | ⟨-, _, rfl⟩⟩
      · exact ⟨id, _, _, rfl⟩
      · exact ⟨id, _, _, rfl⟩
  | _ => exact ofAlerts.elim

/-! ## The risk queue -/

theorem RiskJobHolds.mono {id : String} {job : Job RiskRecalculateJob RiskProgress}
    (holds : RiskJobHolds source id job) (refreshes : target.refreshes = source.refreshes)
    (rows : source.rows ⊆ target.rows) : RiskJobHolds target id job := by
  rcases holds with ⟨listed, holds⟩
  refine ⟨refreshes ▸ listed, ?_⟩
  split at holds
  next running => exact rows holds
  next running => exact rows holds
  next done =>
    rcases holds with ⟨row, member, refresh⟩
    exact ⟨row, rows member, refresh⟩
  next => trivial

theorem State.commit_eq_some {id : String} {job : Job RiskRecalculateJob RiskProgress} {rowId : ℕ}
    (step : source.commit id job rowId = some target) :
    ∃ figures reportHash observedAt,
      job.phase = .active (.observed figures reportHash observedAt) ∧
      (∀ row ∈ source.rows, row.snapshot.id ≠ rowId) ∧
      target =
        { source with
          riskJobs := Function.update source.riskJobs id
            (some
              { job with
                phase := .active (.persisted
                  ⟨rowId, figures, reportHash, job.data.sourceBlock, observedAt⟩) })
          rows := ⟨⟨rowId, figures, reportHash, job.data.sourceBlock, observedAt⟩,
            job.data.refresh⟩ :: source.rows } := by
  simp only [State.commit] at step
  split at step
  next figures reportHash observedAt running =>
    split at step
    next => cases step
    next fresh =>
      cases step
      exact ⟨figures, reportHash, observedAt, running,
        fun row member same => fresh ⟨row, member, same⟩, rfl⟩
  next => cases step

theorem State.queueAlerts_eq_some {id : String} {job : Job RiskRecalculateJob RiskProgress}
    (step : source.queueAlerts id job = some target) :
    ∃ snapshot, job.phase = .active (.persisted snapshot) ∧
      target =
        { source with
          riskJobs := Function.update source.riskJobs id
            (some { job with phase := .active (.queued snapshot) })
          alertJobs := source.alertJobs.add (alertsId snapshot.id) ⟨snapshot.id⟩ } := by
  simp only [State.queueAlerts] at step
  split at step
  next snapshot running =>
    cases step
    exact ⟨snapshot, running, rfl⟩
  next => cases step

theorem modifyRisk_riskJobs (holds : source.riskJobs.All (RiskJobHolds source)) {id : String}
    {change : Job RiskRecalculateJob RiskProgress → Option (Job RiskRecalculateJob RiskProgress)}
    (step : (source.riskJobs.modify id change).map source.setRiskJobs = some target)
    (kept : ∀ job changed, RiskJobHolds source id job → change job = some changed →
      RiskJobHolds source id changed) :
    target.riskJobs.All (RiskJobHolds target) := by
  rcases Option.map_eq_some_iff.mp step with ⟨riskJobs, modified, rfl⟩
  exact holds.modify modified kept

/-- Every risk job stays that of its refresh. -/
theorem riskJobs_step {action : Action} (holds : source.riskJobs.All (RiskJobHolds source))
    (step : next rules source action = some target) :
    target.riskJobs.All (RiskJobHolds target) := by
  cases action with
  | queueRisk correlationId sourceBlock =>
      simp only [next] at step
      split at step
      next =>
        cases step
        apply Jobs.All.add
        · intro id job found
          rcases holds id job found with ⟨⟨other, listed, rfl⟩, holds⟩
          have old : job.data.refresh < source.refreshes.length :=
            (List.getElem?_eq_some_iff.mp listed).1
          exact ⟨⟨other, (List.getElem?_append_left old).trans listed, rfl⟩, holds⟩
        · exact ⟨⟨correlationId, by simp [Job.added], rfl⟩, trivial⟩
      next =>
        cases step
        exact holds
  | startRisk id =>
      apply modifyRisk_riskJobs holds step
      rintro job changed ⟨listed, -⟩ change_eq
      rcases Job.start_eq_some change_eq with ⟨-, rfl⟩
      exact ⟨listed, trivial⟩
  | observe id figures reportHash observedAt =>
      apply modifyRisk_riskJobs holds step
      rintro job changed ⟨listed, -⟩ change_eq
      rcases Job.advance_eq_some change_eq with ⟨progress, advanced, -, observed, rfl⟩
      cases progress <;> cases observed
      exact ⟨listed, trivial⟩
  | commit id rowId =>
      rcases Option.bind_eq_some_iff.mp step with ⟨job, found, committed⟩
      rcases State.commit_eq_some committed with ⟨_, _, _, -, -, rfl⟩
      apply Jobs.All.update
      · exact holds.mono fun id job holds => holds.mono rfl (List.subset_cons_self _ _)
      · rintro changed ⟨⟩
        exact ⟨(holds id job found).1, List.mem_cons_self⟩
  | queueAlerts id =>
      rcases Option.bind_eq_some_iff.mp step with ⟨job, found, queued⟩
      rcases State.queueAlerts_eq_some queued with ⟨snapshot, running, rfl⟩
      rcases holds id job found with ⟨listed, holdsRow⟩
      simp only [running] at holdsRow
      apply holds.update
      rintro changed ⟨⟩
      exact ⟨listed, holdsRow⟩
  | completeRisk id =>
      apply modifyRisk_riskJobs holds step
      rintro job changed ⟨listed, holds⟩ change_eq
      rcases Job.complete_eq_some change_eq with ⟨progress, running, queued, rfl⟩
      cases progress <;> cases queued
      rw [running] at holds
      exact ⟨listed, _, holds, rfl⟩
  | failRisk id =>
      apply modifyRisk_riskJobs holds step
      rintro job changed ⟨listed, -⟩ change_eq
      rcases Job.fail_eq_some change_eq with ⟨data, -, phase⟩
      refine ⟨data ▸ listed, ?_⟩
      rcases phase with waiting | failed
      · rw [waiting]
        trivial
      · rw [failed]
        trivial
  | startAlert | read | evaluate | publish | completeAlert | failAlert =>
      rcases alert_step_eq_some (by trivial) step with ⟨_, _, _, rfl⟩
      exact holds

/-! ## A new row -/

/-- A later row does not change what comes before a snapshot. -/
theorem IsPrevious.cons {rows : List SnapshotRow} {snapshot : RiskSnapshot}
    {previous : Option RiskSnapshot} (before : IsPrevious rows snapshot previous)
    {row : SnapshotRow} (later : snapshot.observedAt < row.snapshot.observedAt) :
    IsPrevious (row :: rows) snapshot previous := by
  cases previous with
  | none =>
      intro other member differs
      rcases List.mem_cons.mp member with rfl | member
      · exact later.not_gt
      · exact before other member differs
  | some previous =>
      rcases before with ⟨member, differs, earlier, greatest⟩
      refine ⟨List.mem_cons_of_mem _ member, differs, earlier, ?_⟩
      intro other otherMem otherDiffers otherEarlier
      rcases List.mem_cons.mp otherMem with rfl | otherMem
      · exact absurd otherEarlier later.not_gt
      · exact greatest other otherMem otherDiffers otherEarlier

theorem Evaluated.mono {rows newRows : List SnapshotRow} {snapshot : RiskSnapshot}
    {previous : Option RiskSnapshot} {remaining : List AlertRule} {alertIds : List String}
    (evaluated : Evaluated rules rows snapshot previous remaining alertIds)
    (kept : ∀ previous, IsPrevious rows snapshot previous → IsPrevious newRows snapshot previous) :
    Evaluated rules newRows snapshot previous remaining alertIds where
  before := kept previous evaluated.before
  fired := evaluated.fired

/-- A phase that has not read yet says nothing about the rows. -/
theorem AlertPhaseHolds.mono {rows newRows : List SnapshotRow} {snapshot : RiskSnapshot}
    {alertIds : List String} {phase : JobPhase AlertProgress}
    (holds : AlertPhaseHolds rules rows snapshot alertIds phase)
    (kept : HasRead phase →
      ∀ previous, IsPrevious rows snapshot previous → IsPrevious newRows snapshot previous) :
    AlertPhaseHolds rules newRows snapshot alertIds phase := by
  cases phase with
  | waiting => exact holds
  | failed => trivial
  | completed =>
      rcases holds with ⟨previous, evaluated⟩
      exact ⟨previous, evaluated.mono (kept trivial)⟩
  | active progress =>
      cases progress with
      | started => exact holds
      | evaluating | created =>
          rcases holds with ⟨current, triggered, evaluated⟩
          exact ⟨current, triggered, evaluated.mono (kept trivial)⟩

/-- An insert at a time of its own that no later row has missed. -/
theorem Consistent.commit (consistent : Consistent rules source) {id : String}
    {job : Job RiskRecalculateJob RiskProgress} {rowId : ℕ} (unread : InsertsUnread source job)
    (step : source.commit id job rowId = some target) : Consistent rules target := by
  rcases State.commit_eq_some step with ⟨figures, reportHash, observedAt, running, fresh, rfl⟩
  simp only [InsertsUnread, running] at unread
  constructor
  · exact eq_of_key_eq_cons consistent.ids fresh
  · intro alertId alert alertFound
    rcases consistent.alertJobs alertId alert alertFound with ⟨isId, row, member, same, holds⟩
    refine ⟨isId, row, List.mem_cons_of_mem _ member, same, ?_⟩
    apply holds.mono
    intro read previous before
    rcases unread row member with earlier | ⟨-, unread⟩
    · exact before.cons earlier
    · rw [same, ← isId] at unread
      exact absurd read (unread alert alertFound)
  · exact consistent.events

/-! ## The alert queue -/

/-- The alert job of a row is queued: it has created nothing yet. -/
theorem Consistent.queueAlerts (consistent : Consistent rules source) {id : String}
    {job : Job RiskRecalculateJob RiskProgress} (jobHolds : RiskJobHolds source id job)
    (step : source.queueAlerts id job = some target) : Consistent rules target := by
  rcases State.queueAlerts_eq_some step with ⟨snapshot, running, rfl⟩
  have inserted := jobHolds.2
  simp only [running] at inserted
  constructor
  · exact consistent.ids
  · by_cases free : source.alertJobs (alertsId snapshot.id) = none
    · apply consistent.alertJobs.add
      refine ⟨rfl, _, inserted, rfl, ?_⟩
      have unknown : ∀ event ∈ source.events, event.riskSnapshotId ≠ snapshot.id := by
        intro event member same
        have taken := consistent.events event member
        rw [same, free] at taken
        cases taken
      simpa [AlertPhaseHolds, Job.added, State.alertIds, List.filter_eq_nil_iff] using unknown
    · simp only [Jobs.add, if_neg free]
      exact consistent.alertJobs
  · intro event member
    exact Jobs.isSome_add (.inr (consistent.events event member))

/-- An alert job moves without creating an event. -/
theorem Consistent.setAlertJob (consistent : Consistent rules source) {id : String}
    {job : Job AlertEvaluateJob AlertProgress} (holds : AlertJobHolds rules source id job) :
    Consistent rules (source.setAlertJobs (Function.update source.alertJobs id (some job))) where
  ids := consistent.ids
  alertJobs := by
    apply consistent.alertJobs.update
    rintro changed ⟨⟩
    exact holds
  events := fun event member => Jobs.isSome_update (consistent.events event member)

theorem Consistent.modifyAlert (consistent : Consistent rules source) {id : String}
    {change : Job AlertEvaluateJob AlertProgress → Option (Job AlertEvaluateJob AlertProgress)}
    (step : (source.alertJobs.modify id change).map source.setAlertJobs = some target)
    (kept : ∀ job changed, source.alertJobs id = some job → change job = some changed →
      AlertJobHolds rules source id job → AlertJobHolds rules source id changed) :
    Consistent rules target := by
  rcases State.modifyAlert_eq_some step with ⟨job, changed, found, change_eq, rfl⟩
  exact consistent.setAlertJob
    (kept job changed found change_eq (consistent.alertJobs id job found))

theorem Consistent.startAlert (consistent : Consistent rules source) {id : String}
    (step : (source.alertJobs.modify id (Job.start .started)).map source.setAlertJobs =
      some target) :
    Consistent rules target := by
  apply consistent.modifyAlert step
  rintro job changed found change_eq ⟨isId, row, member, same, holds⟩
  rcases Job.start_eq_some change_eq with ⟨waiting, rfl⟩
  rw [waiting] at holds
  exact ⟨isId, row, member, same, holds⟩

theorem Consistent.publish (consistent : Consistent rules source) {id : String}
    (step : (source.alertJobs.modify id (Job.advance AlertProgress.publish)).map
      source.setAlertJobs = some target) :
    Consistent rules target := by
  apply consistent.modifyAlert step
  rintro job changed found change_eq ⟨isId, row, member, same, holds⟩
  rcases Job.advance_eq_some change_eq with ⟨progress, advanced, running, published, rfl⟩
  cases progress <;> cases published
  rw [running] at holds
  exact ⟨isId, row, member, same, holds⟩

theorem Consistent.completeAlert (consistent : Consistent rules source) {id : String}
    (step : (source.alertJobs.modify id
      (Job.complete fun progress => progress.isEvaluated = true)).map
        source.setAlertJobs = some target) :
    Consistent rules target := by
  apply consistent.modifyAlert step
  rintro job changed found change_eq ⟨isId, row, member, same, holds⟩
  rcases Job.complete_eq_some change_eq with ⟨progress, running, done, rfl⟩
  rw [running] at holds
  cases progress with
  | started => cases done
  | created => cases done
  | evaluating snapshot previous remaining localTriggered =>
      cases remaining with
      | cons => cases done
      | nil => exact ⟨isId, row, member, same, previous, holds.2.2⟩

/-- A failed attempt has created nothing, so its retry starts from nothing. -/
theorem Consistent.failAlert (consistent : Consistent rules source) {id : String}
    (untriggered : ∀ job ∈ source.alertJobs id, ¬HasTriggered job)
    (step : (source.alertJobs.modify id Job.fail).map source.setAlertJobs = some target) :
    Consistent rules target := by
  apply consistent.modifyAlert step
  rintro job changed found change_eq ⟨isId, row, member, same, holds⟩
  rcases Job.fail_eq_some change_eq with ⟨data, ⟨progress, running⟩, phase⟩
  have untriggered := untriggered job found
  rw [running] at holds
  have nothing : source.alertIds row.snapshot.id = [] := by
    cases progress with
    | started => exact holds
    | evaluating | created =>
        rcases holds with ⟨-, triggered, -⟩
        apply List.eq_nil_of_length_eq_zero
        rw [← triggered]
        by_contra some
        rw [HasTriggered, running] at untriggered
        exact untriggered some
  refine ⟨data ▸ isId, row, member, data ▸ same, ?_⟩
  rcases phase with waiting | failed
  · rw [waiting]
    exact nothing
  · rw [failed]
    trivial

/-- The attempt reads the row of its snapshot. -/
theorem Consistent.read (consistent : Consistent rules source) {id : String}
    {job : Job AlertEvaluateJob AlertProgress} {previous : Option RiskSnapshot}
    {localRules : List AlertRule} (found : source.alertJobs id = some job)
    (step : source.read rules id job previous localRules = some target) :
    Consistent rules target := by
  rcases consistent.alertJobs id job found with ⟨isId, row, member, same, holds⟩
  rcases State.read_eq_some step with ⟨other, otherMem, otherId, running, before, perm, rfl⟩
  obtain rfl : other = row := consistent.ids other otherMem row member (otherId.trans same.symm)
  have nothing : source.alertIds other.snapshot.id = [] := by
    rw [running] at holds
    exact holds
  apply consistent.setAlertJob
  refine ⟨isId, other, member, same, rfl, ?_, before, [], perm, ?_⟩
  · simp [nothing]
  · simp [nothing]

/-- One more rule is evaluated. -/
theorem Evaluated.advance {rows : List SnapshotRow} {snapshot : RiskSnapshot}
    {previous : Option RiskSnapshot} {rule : AlertRule} {remaining : List AlertRule}
    {alertIds : List String}
    (evaluated : Evaluated rules rows snapshot previous (rule :: remaining) alertIds) :
    Evaluated rules rows snapshot previous remaining
      (alertIds ++ if Fires snapshot previous rule then [rule.id] else []) where
  before := evaluated.before
  fired := by
    rcases evaluated.fired with ⟨done, perm, ids⟩
    refine ⟨done ++ [rule], by simpa using perm, ?_⟩
    rw [List.filter_append, List.map_append, ← ids]
    by_cases fires : Fires snapshot previous rule = true <;> simp [fires]

/-- No rule creates two events on a snapshot. -/
theorem Evaluated.nodup {rows : List SnapshotRow} {snapshot : RiskSnapshot}
    {previous : Option RiskSnapshot} {remaining : List AlertRule} {alertIds : List String}
    (evaluated : Evaluated rules rows snapshot previous remaining alertIds) : alertIds.Nodup := by
  rcases evaluated.fired with ⟨done, perm, rfl⟩
  have distinct : ((done ++ remaining).map AlertRule.id).Nodup :=
    (perm.map AlertRule.id).nodup_iff.mpr rules.distinct
  rw [List.map_append] at distinct
  exact (List.filter_sublist.map _).nodup distinct.of_append_left

/-- A rule that created an event fires. -/
theorem Evaluated.fires {rows : List SnapshotRow} {snapshot : RiskSnapshot}
    {previous : Option RiskSnapshot} {remaining : List AlertRule} {alertIds : List String}
    (evaluated : Evaluated rules rows snapshot previous remaining alertIds) {rule : AlertRule}
    (member : rule ∈ rules.rows) (created : rule.id ∈ alertIds) :
    Fires snapshot previous rule = true := by
  rcases evaluated.fired with ⟨done, perm, rfl⟩
  rcases List.mem_map.mp created with ⟨other, otherMem, same⟩
  rcases List.mem_filter.mp otherMem with ⟨otherMem, fires⟩
  have listed := perm.mem_iff.mp (List.mem_append_left remaining otherMem)
  rwa [rules.eq_of_key_eq listed member same] at fires

theorem Consistent.evaluate (consistent : Consistent rules source) {id : String}
    {job : Job AlertEvaluateJob AlertProgress} (found : source.alertJobs id = some job)
    (step : source.evaluate id job = some target) : Consistent rules target := by
  rcases consistent.alertJobs id job found with ⟨isId, row, member, same, holds⟩
  rcases State.evaluate_eq_some step with
    ⟨snapshot, previous, rule, remaining, localTriggered, running, outcome⟩
  simp only [running] at holds
  rcases holds with ⟨rfl, triggered, evaluated⟩
  have advanced := evaluated.advance
  rcases outcome with ⟨silent, rfl⟩ | ⟨fires, value, rfl⟩
  · apply consistent.setAlertJob
    refine ⟨isId, row, member, same, rfl, triggered, ?_⟩
    simpa [silent] using advanced
  · rw [if_pos fires] at advanced
    constructor
    · exact consistent.ids
    · apply Jobs.all_update
      · rintro other differs alert otherFound
        rcases consistent.alertJobs other alert otherFound with
          ⟨otherId, otherRow, otherMem, otherSame, otherHolds⟩
        refine ⟨otherId, otherRow, otherMem, otherSame, ?_⟩
        have distinct : row.snapshot.id ≠ otherRow.snapshot.id := by
          intro equal
          rw [otherId, isId, ← same, ← otherSame, equal] at differs
          exact differs rfl
        simpa [State.alertIds, distinct] using otherHolds
      · rintro alert ⟨⟩
        refine ⟨isId, row, member, same, rfl, ?_, ?_⟩
        · simp [State.alertIds, triggered]
        · simpa [State.alertIds] using advanced
    · intro event eventMem
      apply Jobs.isSome_update
      rcases List.mem_append.mp eventMem with old | new
      · exact consistent.events event old
      · rw [List.mem_singleton.mp new, same, ← isId, found]
        rfl

/-- Unraced steps keep the events those of the alert jobs. -/
theorem Consistent.step {action : Action} (consistent : Consistent rules source)
    (riskJobs : source.riskJobs.All (RiskJobHolds source)) (unraced : Unraced source action)
    (step : next rules source action = some target) : Consistent rules target := by
  cases action with
  | queueRisk correlationId sourceBlock =>
      simp only [next] at step
      split at step
      all_goals
        cases step
        exact ⟨consistent.ids, consistent.alertJobs, consistent.events⟩
  | startRisk | observe | completeRisk | failRisk =>
      rcases Option.map_eq_some_iff.mp step with ⟨jobs, -, rfl⟩
      exact ⟨consistent.ids, consistent.alertJobs, consistent.events⟩
  | commit id rowId =>
      rcases Option.bind_eq_some_iff.mp step with ⟨job, found, committed⟩
      exact consistent.commit (unraced job found) committed
  | queueAlerts id =>
      rcases Option.bind_eq_some_iff.mp step with ⟨job, found, queued⟩
      exact consistent.queueAlerts (riskJobs id job found) queued
  | startAlert id => exact consistent.startAlert step
  | read id previous localRules =>
      rcases Option.bind_eq_some_iff.mp step with ⟨job, found, read⟩
      exact consistent.read found read
  | evaluate id =>
      rcases Option.bind_eq_some_iff.mp step with ⟨job, found, evaluated⟩
      exact consistent.evaluate found evaluated
  | publish id => exact consistent.publish step
  | completeAlert id => exact consistent.completeAlert step
  | failAlert id => exact consistent.failAlert unraced step

end RiskRail.Alerts
