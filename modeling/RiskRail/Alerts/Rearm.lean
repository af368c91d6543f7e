import RiskRail.Alerts.Crossing

/-!
# Re-arming

Between two events of a rule its metric should have recovered.  It need not have
when a row is inserted before one that was already compared, or when snapshots
without the metric lie between two breaches: the first of these counts as not
breaching.
-/

namespace RiskRail.Alerts

open RiskRail.Database RiskRail.Queue RiskRail.Relational RiskRail.Transition

/-- The rule's metric is present and does not breach the threshold. -/
def AlertRule.Recovers (rule : AlertRule) (snapshot : RiskFigures) : Prop :=
  ∃ value ∈ metricValue snapshot rule.metric,
    compareThreshold value rule.operator rule.threshold = false

instance (rule : AlertRule) (snapshot : RiskFigures) : Decidable (rule.Recovers snapshot) :=
  inferInstanceAs (Decidable (∃ value ∈ metricValue snapshot rule.metric, _ = false))

theorem AlertRule.recovers_iff {rule : AlertRule} {snapshot : RiskFigures} :
    rule.Recovers snapshot ↔
      metricValue snapshot rule.metric ≠ none ∧ ¬rule.Breaches snapshot := by
  unfold Recovers Breaches
  cases metricValue snapshot rule.metric <;> simp

/-- Some snapshot between two times recovers. -/
def State.RecoversBetween (state : State) (rule : AlertRule) (first last : ℕ) : Prop :=
  ∃ row ∈ state.rows, first < row.snapshot.observedAt ∧ row.snapshot.observedAt < last ∧
    rule.Recovers row.snapshot.figures

/-- Two events of a rule have a recovery between their snapshots. -/
def State.Separated (state : State) (rule : AlertRule) (first second : AlertEvent) : Prop :=
  first.alertId = rule.id → second.alertId = rule.id →
    ∀ firstRow ∈ state.rows, firstRow.snapshot.id = first.riskSnapshotId →
      ∀ secondRow ∈ state.rows, secondRow.snapshot.id = second.riskSnapshotId →
        state.RecoversBetween rule
          (min firstRow.snapshot.observedAt secondRow.snapshot.observedAt)
          (max firstRow.snapshot.observedAt secondRow.snapshot.observedAt)

/-- A rule fires again only after a recovery. -/
def RearmsOnRecovery (rules : Table AlertRule.id) (state : State) : Prop :=
  ∀ rule ∈ rules.rows, state.events.Pairwise (state.Separated rule)

instance (state : State) (rule : AlertRule) (first last : ℕ) :
    Decidable (state.RecoversBetween rule first last) :=
  inferInstanceAs (Decidable (∃ row ∈ state.rows, _))

instance (state : State) (rule : AlertRule) (first second : AlertEvent) :
    Decidable (state.Separated rule first second) :=
  inferInstanceAs (Decidable (_ → _ → ∀ firstRow ∈ state.rows, _ → ∀ secondRow ∈ state.rows, _))

instance (rules : Table AlertRule.id) (state : State) : Decidable (RearmsOnRecovery rules state) :=
  inferInstanceAs (Decidable (∀ rule ∈ rules.rows, state.events.Pairwise (state.Separated rule)))

/-! ## The condition -/

/-- No attempt throws. -/
def Action.Succeeds : Action → Prop
  | .failRisk _ | .failAlert _ => False
  | _ => True

instance : DecidablePred Action.Succeeds
  | .failRisk _ | .failAlert _ => isFalse id
  | .queueRisk .. | .startRisk _ | .observe .. | .commit .. | .queueAlerts _ | .completeRisk _
  | .startAlert _ | .read .. | .evaluate _ | .publish _ | .completeAlert _ => isTrue trivial

/-- The snapshot breaches the rule, and only snapshots without the metric lie
between it and an earlier breach. -/
def ResumesBreach (rule : AlertRule) (rows : List SnapshotRow) (snapshot : RiskSnapshot) : Prop :=
  rule.Breaches snapshot.figures ∧
    ∃ breached ∈ rows, rule.Breaches breached.snapshot.figures ∧
      (∃ gap ∈ rows, breached.snapshot.observedAt < gap.snapshot.observedAt ∧
        gap.snapshot.observedAt < snapshot.observedAt) ∧
      ∀ gap ∈ rows, breached.snapshot.observedAt < gap.snapshot.observedAt →
        gap.snapshot.observedAt < snapshot.observedAt →
          metricValue gap.snapshot.figures rule.metric = none

instance (rule : AlertRule) (rows : List SnapshotRow) (snapshot : RiskSnapshot) :
    Decidable (ResumesBreach rule rows snapshot) :=
  inferInstanceAs (Decidable (_ ∧ ∃ breached ∈ rows, _ ∧ (∃ gap ∈ rows, _) ∧ ∀ gap ∈ rows, _))

/-- No attempt throws, a row is inserted at a time of its own and before no row
already compared, and no snapshot is read that breaches a rule across a gap. -/
def Gapless (rules : Table AlertRule.id) (state : State) (action : Action) : Prop :=
  action.Succeeds ∧
    match action with
    | .commit id _ => ∀ job ∈ state.riskJobs id, InsertsUnread state job
    | .read id _ _ =>
        ∀ job ∈ state.alertJobs id, ∀ row ∈ state.rows,
          row.snapshot.id = job.data.riskSnapshotId →
            ∀ rule ∈ rules.rows, ¬ResumesBreach rule state.rows row.snapshot
    | _ => True

instance (rules : Table AlertRule.id) (state : State) :
    (action : Action) → Decidable (Gapless rules state action)
  | .commit id _ => inferInstanceAs (Decidable (_ ∧ ∀ job ∈ state.riskJobs id, _))
  | .read id _ _ =>
      inferInstanceAs (Decidable (_ ∧ ∀ job ∈ state.alertJobs id, ∀ row ∈ state.rows,
        _ → ∀ rule ∈ rules.rows, _))
  | .failRisk _ | .failAlert _ => isFalse And.left
  | .queueRisk .. | .startRisk _ | .observe .. | .queueAlerts _ | .completeRisk _
  | .startAlert _ | .evaluate _ | .publish _ | .completeAlert _ => isTrue ⟨trivial, trivial⟩

variable {rules : Table AlertRule.id} {source target state : State} {action : Action}

theorem Gapless.unraced (gapless : Gapless rules source action) : Unraced source action := by
  cases action with
  | commit id rowId => exact gapless.2
  | failAlert id => exact gapless.1.elim
  | _ => trivial

/-! ## What such runs keep true -/

/-- A snapshot that was read does not breach across a gap. -/
def ReadsGapless (rules : Table AlertRule.id) (rows : List SnapshotRow)
    (job : Job AlertEvaluateJob AlertProgress) : Prop :=
  job.phase ≠ .failed ∧
    (HasRead job.phase → ∀ row ∈ rows, row.snapshot.id = job.data.riskSnapshotId →
      ∀ rule ∈ rules.rows, ¬ResumesBreach rule rows row.snapshot)

/-- What gapless runs keep true. -/
structure Rearming (rules : Table AlertRule.id) (state : State) : Prop where
  riskJobs : state.riskJobs.All (RiskJobHolds state)
  times : ∀ first ∈ state.rows, ∀ second ∈ state.rows,
    first.snapshot.observedAt = second.snapshot.observedAt → first = second
  consistent : Consistent rules state
  gapless : state.alertJobs.All fun _ => ReadsGapless rules state.rows

theorem rearming_initial : Rearming rules State.initial where
  riskJobs := Jobs.all_empty
  times := by simp [State.initial]
  consistent := consistent_initial
  gapless := Jobs.all_empty

/-- A later row lies in no gap before a snapshot. -/
theorem ResumesBreach.of_cons {rule : AlertRule} {rows : List SnapshotRow}
    {snapshot : RiskSnapshot} {row : SnapshotRow}
    (resumes : ResumesBreach rule (row :: rows) snapshot)
    (later : snapshot.observedAt < row.snapshot.observedAt) :
    ResumesBreach rule rows snapshot := by
  rcases resumes with ⟨breaches, breached, breachedMem, earlier, ⟨gap, gapMem, after, before⟩, gaps⟩
  have old : ∀ other ∈ row :: rows, other.snapshot.observedAt < snapshot.observedAt →
      other ∈ rows := by
    intro other member older
    rcases List.mem_cons.mp member with rfl | member
    · exact absurd older later.not_gt
    · exact member
  exact ⟨breaches, breached, old breached breachedMem (after.trans before), earlier,
    ⟨gap, old gap gapMem before, after, before⟩,
    fun gap gapMem => gaps gap (List.mem_cons_of_mem _ gapMem)⟩

theorem commit_times (times : ∀ first ∈ source.rows, ∀ second ∈ source.rows,
      first.snapshot.observedAt = second.snapshot.observedAt → first = second) {id : String}
    {job : Job RiskRecalculateJob RiskProgress} {rowId : ℕ} (unread : InsertsUnread source job)
    (step : source.commit id job rowId = some target) :
    ∀ first ∈ target.rows, ∀ second ∈ target.rows,
      first.snapshot.observedAt = second.snapshot.observedAt → first = second := by
  rcases State.commit_eq_some step with ⟨figures, reportHash, observedAt, running, -, rfl⟩
  simp only [InsertsUnread, running] at unread
  have differs : ∀ row ∈ source.rows, row.snapshot.observedAt ≠ observedAt := by
    intro row member
    rcases unread row member with earlier | ⟨later, -⟩
    · exact earlier.ne
    · exact later.ne'
  exact eq_of_key_eq_cons times differs

theorem Rearming.commit (rearming : Rearming rules source) {id : String} {rowId : ℕ}
    (gapless : Gapless rules source (.commit id rowId))
    (step : next rules source (.commit id rowId) = some target) : Rearming rules target := by
  have riskJobs := riskJobs_step rearming.riskJobs step
  have consistent := rearming.consistent.step rearming.riskJobs gapless.unraced step
  rcases Option.bind_eq_some_iff.mp step with ⟨job, found, committed⟩
  have unread := gapless.2 job found
  have times := commit_times rearming.times unread committed
  rcases State.commit_eq_some committed with ⟨figures, reportHash, observedAt, running, fresh, rfl⟩
  refine ⟨riskJobs, times, consistent, ?_⟩
  intro alertId alert alertFound
  refine ⟨(rearming.gapless alertId alert alertFound).1, ?_⟩
  intro read row member ofRow rule ruleMem resumes
  simp only [InsertsUnread, running] at unread
  rcases rearming.consistent.alertJobs alertId alert alertFound with
    ⟨isId, known, knownMem, knownId, -⟩
  obtain rfl : row = known := by
    rcases List.mem_cons.mp member with rfl | old
    · exact absurd (knownId.trans ofRow.symm) (fresh known knownMem)
    · exact rearming.consistent.ids row old known knownMem (ofRow.trans knownId.symm)
  rcases unread row knownMem with earlier | ⟨-, unread⟩
  · exact (rearming.gapless alertId alert alertFound).2 read row knownMem ofRow rule ruleMem
      (resumes.of_cons earlier)
  · rw [ofRow, ← isId] at unread
    exact absurd read (unread alert alertFound)

/-- An alert job that moves without reading stays where it was in this respect. -/
theorem readsGapless_modify {rows : List SnapshotRow}
    {alertJobs changedJobs : Jobs AlertEvaluateJob AlertProgress}
    (gapless : alertJobs.All fun _ => ReadsGapless rules rows) {id : String}
    {change : Job AlertEvaluateJob AlertProgress → Option (Job AlertEvaluateJob AlertProgress)}
    (step : alertJobs.modify id change = some changedJobs)
    (kept : ∀ job changed, change job = some changed → changed.data = job.data ∧
      changed.phase ≠ .failed ∧ (HasRead changed.phase → HasRead job.phase)) :
    changedJobs.All fun _ => ReadsGapless rules rows := by
  apply gapless.modify step
  intro job changed holds change_eq
  rcases kept job changed change_eq with ⟨data, unfailed, read⟩
  exact ⟨unfailed, fun hasRead => data ▸ holds.2 (read hasRead)⟩

theorem Rearming.gapless_alerts (rearming : Rearming rules source)
    (gapless : Gapless rules source action) (ofAlerts : action.OfAlerts)
    (step : next rules source action = some target) :
    target.alertJobs.All fun _ => ReadsGapless rules source.rows := by
  cases action with
  | startAlert id =>
      rcases Option.map_eq_some_iff.mp step with ⟨alertJobs, modified, rfl⟩
      apply readsGapless_modify rearming.gapless modified
      intro job changed change_eq
      rcases Job.start_eq_some change_eq with ⟨-, rfl⟩
      exact ⟨rfl, nofun, fun read => read.elim⟩
  | read id previous localRules =>
      rcases Option.bind_eq_some_iff.mp step with ⟨job, found, read⟩
      rcases State.read_eq_some read with ⟨row, member, ofRow, -, -, -, rfl⟩
      apply rearming.gapless.update
      rintro changed ⟨⟩
      exact ⟨nofun, fun _ => gapless.2 job found⟩
  | evaluate id =>
      rcases Option.bind_eq_some_iff.mp step with ⟨job, found, evaluated⟩
      rcases State.evaluate_eq_some evaluated with
        ⟨snapshot, previous, rule, remaining, localTriggered, running, outcome⟩
      have read : HasRead job.phase := by
        rw [running]
        trivial
      have holds := (rearming.gapless id job found).2 read
      rcases outcome with ⟨-, rfl⟩ | ⟨-, value, rfl⟩
      all_goals
        apply rearming.gapless.update
        rintro changed ⟨⟩
        exact ⟨nofun, fun _ => holds⟩
  | publish id =>
      rcases Option.map_eq_some_iff.mp step with ⟨alertJobs, modified, rfl⟩
      apply readsGapless_modify rearming.gapless modified
      intro job changed change_eq
      rcases Job.advance_eq_some change_eq with ⟨progress, advanced, running, published, rfl⟩
      cases progress <;> cases published
      exact ⟨rfl, nofun, fun _ => running ▸ trivial⟩
  | completeAlert id =>
      rcases Option.map_eq_some_iff.mp step with ⟨alertJobs, modified, rfl⟩
      apply readsGapless_modify rearming.gapless modified
      intro job changed change_eq
      rcases Job.complete_eq_some change_eq with ⟨progress, running, done, rfl⟩
      cases progress with
      | started | created => cases done
      | evaluating => exact ⟨rfl, nofun, fun _ => running ▸ trivial⟩
  | failAlert id => exact gapless.1.elim
  | _ => exact ofAlerts.elim

theorem Rearming.step (rearming : Rearming rules source) (gapless : Gapless rules source action)
    (step : next rules source action = some target) : Rearming rules target := by
  have riskJobs := riskJobs_step rearming.riskJobs step
  have consistent := rearming.consistent.step rearming.riskJobs gapless.unraced step
  cases action with
  | queueRisk correlationId sourceBlock =>
      simp only [next] at step
      split at step
      all_goals
        cases step
        exact ⟨riskJobs, rearming.times, consistent, rearming.gapless⟩
  | startRisk | observe | completeRisk =>
      rcases Option.map_eq_some_iff.mp step with ⟨jobs, -, rfl⟩
      exact ⟨riskJobs, rearming.times, consistent, rearming.gapless⟩
  | failRisk id => exact gapless.1.elim
  | commit id rowId => exact rearming.commit gapless step
  | queueAlerts id =>
      rcases Option.bind_eq_some_iff.mp step with ⟨job, found, queued⟩
      rcases State.queueAlerts_eq_some queued with ⟨snapshot, running, rfl⟩
      refine ⟨riskJobs, rearming.times, consistent, ?_⟩
      refine rearming.gapless.add ⟨?_, fun read => read.elim⟩
      simp [Job.added]
  | startAlert | read | evaluate | publish | completeAlert | failAlert =>
      have gaplessAlerts := rearming.gapless_alerts gapless (by trivial) step
      rcases alert_step_eq_some (by trivial) step with ⟨id, job, events, rfl⟩
      exact ⟨riskJobs, rearming.times, consistent, gaplessAlerts⟩

/-! ## Recoveries -/

/-- The last row before a time that breaches a rule. -/
theorem exists_last_breach {rows : List SnapshotRow} {rule : AlertRule} {time : ℕ}
    {first : SnapshotRow} (member : first ∈ rows) (breaches : rule.Breaches first.snapshot.figures)
    (earlier : first.snapshot.observedAt < time) :
    ∃ last ∈ rows, rule.Breaches last.snapshot.figures ∧ last.snapshot.observedAt < time ∧
      ∀ row ∈ rows, rule.Breaches row.snapshot.figures → row.snapshot.observedAt < time →
        row.snapshot.observedAt ≤ last.snapshot.observedAt := by
  rcases Finset.exists_max_image
    (rows.filter fun row =>
      rule.Breaches row.snapshot.figures ∧ row.snapshot.observedAt < time).toFinset
    (fun row => row.snapshot.observedAt) ⟨first, by simp [member, breaches, earlier]⟩ with
      ⟨last, lastMem, greatest⟩
  simp only [List.mem_toFinset, List.mem_filter, decide_eq_true_eq] at lastMem greatest
  exact ⟨last, lastMem.1, lastMem.2.1, lastMem.2.2, fun row member breaches earlier =>
    greatest row ⟨member, breaches, earlier⟩⟩

/-- A rule that fires on a snapshot recovered since any earlier breach. -/
theorem Rearming.recovers (rearming : Rearming rules state) {rule : AlertRule}
    {first second : SnapshotRow} {previous : Option RiskSnapshot} (firstMem : first ∈ state.rows)
    (secondMem : second ∈ state.rows)
    (earlier : first.snapshot.observedAt < second.snapshot.observedAt)
    (breaches : rule.Breaches first.snapshot.figures)
    (before : IsPrevious state.rows second.snapshot previous)
    (fires : Fires second.snapshot previous rule = true)
    (gapless : ¬ResumesBreach rule state.rows second.snapshot) :
    state.RecoversBetween rule first.snapshot.observedAt second.snapshot.observedAt := by
  rcases fires_iff.mp fires with ⟨secondBreaches, calm⟩
  rcases exists_last_breach firstMem breaches earlier with
    ⟨last, lastMem, lastBreaches, lastEarlier, greatest⟩
  -- the row compared with lies after the last breach, so there is a gap or a recovery
  have between : ∃ row ∈ state.rows, last.snapshot.observedAt < row.snapshot.observedAt ∧
      row.snapshot.observedAt < second.snapshot.observedAt := by
    have differs : last.snapshot.id ≠ second.snapshot.id := by
      intro same
      rw [rearming.consistent.ids last lastMem second secondMem same] at lastEarlier
      exact lt_irrefl _ lastEarlier
    cases previous with
    | none => exact absurd lastEarlier (before last lastMem differs)
    | some previous =>
        rcases before with ⟨member, -, previousEarlier, latest⟩
        rcases List.mem_map.mp member with ⟨row, rowMem, rfl⟩
        refine ⟨row, rowMem, (latest last lastMem differs lastEarlier).lt_of_ne ?_, previousEarlier⟩
        intro same
        rw [rearming.times last lastMem row rowMem same] at lastBreaches
        exact calm row.snapshot rfl lastBreaches
  by_contra silent
  apply gapless
  refine ⟨secondBreaches, last, lastMem, lastBreaches, between, fun gap gapMem after older => ?_⟩
  by_contra present
  apply silent
  refine ⟨gap, gapMem, (greatest first firstMem breaches earlier).trans_lt after, older, ?_⟩
  exact AlertRule.recovers_iff.mpr ⟨present, fun again =>
    (greatest gap gapMem again older).not_gt after⟩

theorem State.alertId_mem (state : State) {event : AlertEvent} (created : event ∈ state.events)
    {snapshotId : ℕ} (onSnapshot : snapshotId = event.riskSnapshotId) :
    event.alertId ∈ state.alertIds snapshotId :=
  List.mem_map_of_mem (List.mem_filter.mpr ⟨created, decide_eq_true onSnapshot.symm⟩)

/-- The alert job of an event's snapshot. -/
theorem Rearming.evaluated (rearming : Rearming rules state) {event : AlertEvent}
    (created : event ∈ state.events) {row : SnapshotRow} (member : row ∈ state.rows)
    (ofRow : row.snapshot.id = event.riskSnapshotId) :
    ∃ previous remaining, Evaluated rules state.rows row.snapshot previous remaining
        (state.alertIds row.snapshot.id) ∧
      ∀ rule ∈ rules.rows, ¬ResumesBreach rule state.rows row.snapshot := by
  rcases Option.isSome_iff_exists.mp (rearming.consistent.events event created) with ⟨job, found⟩
  rcases rearming.consistent.alertJobs _ job found with ⟨isId, other, otherMem, same, holds⟩
  have named : event.riskSnapshotId = job.data.riskSnapshotId := alertsId_inj.mp isId
  have ofJob : row.snapshot.id = job.data.riskSnapshotId := ofRow.trans named
  obtain rfl : row = other :=
    rearming.consistent.ids row member other otherMem (ofJob.trans same.symm)
  rcases rearming.gapless _ job found with ⟨unfailed, gapless⟩
  have listed := state.alertId_mem created ofRow
  have read : HasRead job.phase ∧ ∃ previous remaining,
      Evaluated rules state.rows row.snapshot previous remaining
        (state.alertIds row.snapshot.id) := by
    cases phase : job.phase with
    | waiting =>
        rw [phase] at holds
        exact absurd listed (List.eq_nil_iff_forall_not_mem.mp holds _)
    | failed => exact absurd phase unfailed
    | completed =>
        rw [phase] at holds
        rcases holds with ⟨previous, evaluated⟩
        exact ⟨trivial, previous, [], evaluated⟩
    | active progress =>
        rw [phase] at holds
        cases progress with
        | started => exact absurd listed (List.eq_nil_iff_forall_not_mem.mp holds _)
        | evaluating | created =>
            rcases holds with ⟨-, -, evaluated⟩
            exact ⟨trivial, _, _, evaluated⟩
  rcases read with ⟨hasRead, previous, remaining, evaluated⟩
  exact ⟨previous, remaining, evaluated, gapless hasRead row member ofJob⟩

/-- Two events on one snapshot are of different rules. -/
theorem State.alertId_ne {snapshotId : ℕ} (nodup : (state.alertIds snapshotId).Nodup) :
    state.events.Pairwise fun first second =>
      first.riskSnapshotId = snapshotId → second.riskSnapshotId = snapshotId →
        first.alertId ≠ second.alertId := by
  have onSnapshot := List.pairwise_filter.mp (List.pairwise_map.mp nodup)
  exact onSnapshot.imp fun differ first second =>
    differ (decide_eq_true first) (decide_eq_true second)

theorem Rearming.rearmsOnRecovery (rearming : Rearming rules state) :
    RearmsOnRecovery rules state := by
  intro rule ruleMem
  rw [List.pairwise_iff_getElem]
  intro i j iLt jLt before firstOf secondOf firstRow firstMem firstId secondRow secondMem secondId
  rcases rearming.evaluated (List.getElem_mem iLt) firstMem firstId with
    ⟨_, _, firstEvaluated, firstGapless⟩
  rcases rearming.evaluated (List.getElem_mem jLt) secondMem secondId with
    ⟨_, _, secondEvaluated, secondGapless⟩
  have firstFires := firstEvaluated.fires ruleMem
    (firstOf ▸ state.alertId_mem (List.getElem_mem iLt) firstId)
  have secondFires := secondEvaluated.fires ruleMem
    (secondOf ▸ state.alertId_mem (List.getElem_mem jLt) secondId)
  have differs : firstRow.snapshot.observedAt ≠ secondRow.snapshot.observedAt := by
    intro same
    obtain rfl : firstRow = secondRow := rearming.times firstRow firstMem secondRow secondMem same
    have distinct := List.pairwise_iff_getElem.mp (state.alertId_ne firstEvaluated.nodup)
      i j iLt jLt before firstId.symm secondId.symm
    exact distinct (firstOf.trans secondOf.symm)
  rcases differs.lt_or_gt with earlier | later
  · rw [min_eq_left earlier.le, max_eq_right earlier.le]
    exact rearming.recovers firstMem secondMem earlier (fires_iff.mp firstFires).1
      secondEvaluated.before secondFires (secondGapless rule ruleMem)
  · rw [min_eq_right later.le, max_eq_left later.le]
    exact rearming.recovers secondMem firstMem later (fires_iff.mp secondFires).1
      firstEvaluated.before firstFires (firstGapless rule ruleMem)

/-- A rule fires again only after a recovery, in every run in which no attempt
throws, each row is inserted at a time of its own and before no row already
compared, and no snapshot that is read breaches a rule across a gap. -/
theorem rearms_on_recovery_when_gapless {actions : List Action}
    (along : Along (next rules) (Gapless rules) .initial actions)
    (run : exec (next rules) .initial actions = some state) : RearmsOnRecovery rules state :=
  (along.invariant Rearming.step run rearming_initial).rearmsOnRecovery

/-! ## A gap and a late insert -/

/-- Figures with a given health factor; everything else is equal. -/
def withHealth (healthFactorE4 : Option ℤ) : RiskFigures :=
  { scored 1000 with healthFactorE4 }

/-- A rule on the health factor. -/
def lowHealth : AlertRule where
  id := "low-health"
  metric := .healthFactorE4
  operator := .lt
  threshold := 13000

/-- The table with that rule alone. -/
def healthRules : Table AlertRule.id where
  rows := [lowHealth]
  distinct := List.nodup_singleton _

/-- A row with those figures, at the time of its id. -/
def healthRow (rowId : ℕ) (healthFactorE4 : Option ℤ) : RiskSnapshot where
  id := rowId
  figures := withHealth healthFactorE4
  reportHash := ""
  sourceBlock := 100
  observedAt := rowId

/-- The start of a refresh's risk job, at the time of the row's id. -/
def observeRow (correlationId : String) (rowId : ℕ) (healthFactorE4 : Option ℤ) : List Action :=
  [.queueRisk correlationId 100, .startRisk (riskId correlationId),
    .observe (riskId correlationId) (withHealth healthFactorE4) "" rowId]

/-- The rest of the risk job. -/
def commitRow (correlationId : String) (rowId : ℕ) : List Action :=
  [.commit (riskId correlationId) rowId, .queueAlerts (riskId correlationId),
    .completeRisk (riskId correlationId)]

/-- The alert job of a row on which the rule is silent. -/
def silentAlert (rowId : ℕ) (previous : Option RiskSnapshot) : List Action :=
  [.startAlert (alertsId rowId), .read (alertsId rowId) previous [lowHealth],
    .evaluate (alertsId rowId), .completeAlert (alertsId rowId)]

/-- The alert job of a row on which the rule fires. -/
def firingAlert (rowId : ℕ) (previous : Option RiskSnapshot) : List Action :=
  [.startAlert (alertsId rowId), .read (alertsId rowId) previous [lowHealth],
    .evaluate (alertsId rowId), .publish (alertsId rowId), .completeAlert (alertsId rowId)]

/-- The health factor is missing once between two breaches. -/
def breachAcrossGap : List Action :=
  observeRow "a" 1 (some 12000) ++ commitRow "a" 1 ++ firingAlert 1 none ++
    observeRow "b" 2 none ++ commitRow "b" 2 ++
    silentAlert 2 (some (healthRow 1 (some 12000))) ++
    observeRow "c" 3 (some 12500) ++ commitRow "c" 3 ++ firingAlert 3 (some (healthRow 2 none))

/-- Of two breaching rows the earlier one is inserted last. -/
def breachInsertedLate : List Action :=
  observeRow "a" 1 (some 12000) ++ observeRow "b" 2 (some 12000) ++
    commitRow "b" 2 ++ firingAlert 2 none ++ commitRow "a" 1 ++ firingAlert 1 none

/-- Two breaches with a recovery and a missing health factor between them. -/
def breachAfterRecovery : List Action :=
  observeRow "a" 1 (some 12000) ++ observeRow "b" 2 (some 14000) ++ commitRow "b" 2 ++
    commitRow "a" 1 ++ firingAlert 1 none ++
    silentAlert 2 (some (healthRow 1 (some 12000))) ++
    observeRow "c" 3 none ++ commitRow "c" 3 ++ silentAlert 3 (some (healthRow 2 (some 14000))) ++
    observeRow "d" 4 (some 12500) ++ commitRow "d" 4 ++ firingAlert 4 (some (healthRow 3 none))

/-- Both the gap and the late insert create a second event without a recovery. -/
theorem rearms_without_recovery :
    ((∀ action ∈ breachAcrossGap, action.Succeeds) ∧
      ∃ state ∈ exec (next healthRules) .initial breachAcrossGap,
        state.events.map AlertEvent.riskSnapshotId = [1, 3] ∧
          ¬RearmsOnRecovery healthRules state) ∧
    (∀ action ∈ breachInsertedLate, action.Succeeds) ∧
      ∃ state ∈ exec (next healthRules) .initial breachInsertedLate,
        state.events.map AlertEvent.riskSnapshotId = [2, 1] ∧
          ¬RearmsOnRecovery healthRules state := by
  decide +kernel

theorem rearms_on_recovery_when_gapless_recovery :
    ∃ state, exec (next healthRules) .initial breachAfterRecovery = some state ∧
      state.events.map AlertEvent.riskSnapshotId = [1, 4] ∧ RearmsOnRecovery healthRules state := by
  have along : Along (next healthRules) (Gapless healthRules) .initial breachAfterRecovery := by
    decide +kernel
  have fired : ∃ state ∈ exec (next healthRules) .initial breachAfterRecovery,
      state.events.map AlertEvent.riskSnapshotId = [1, 4] := by
    decide +kernel
  rcases fired with ⟨state, run, events⟩
  exact ⟨state, run, events, rearms_on_recovery_when_gapless along run⟩

end RiskRail.Alerts
