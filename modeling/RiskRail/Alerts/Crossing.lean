import RiskRail.Alerts.Undisturbed
import Mathlib.Data.Finset.Max

/-!
# Crossings are recorded once

A crossing is lost when a risk attempt fails after its row is inserted: the next
attempt's row is compared with the one left behind.  It is recorded twice when
an alert attempt fails after it created an event.  Undisturbed runs, in which neither
happens to a crossing, record every one once.
-/

namespace RiskRail.Alerts

open RiskRail.Database RiskRail.Queue RiskRail.Relational RiskRail.Transition

variable {rules : Table AlertRule.id} {state : State} {refresh : ℕ}

/-- A completed refresh has a row. -/
theorem Sound.exists_row (sound : Sound rules state) (completed : state.Completed refresh) :
    ∃ row ∈ state.rows, row.refresh = refresh := by
  rcases completed.1 with ⟨correlationId, _, job, found, rfl, done⟩
  have holds := (sound.riskJobs _ job found).2
  rw [done] at holds
  exact holds

/-- No row of a completed refresh waits for its alert job. -/
theorem Sound.not_pending (sound : Sound rules state) (completed : state.Completed refresh)
    {row : SnapshotRow} (belongs : row.refresh = refresh) : ¬state.Pending row := by
  rintro ⟨id, waiting, waitingFound, persisted, refresh_eq⟩
  -- the refresh's own job would have to be both completed and between two steps
  rcases completed.1 with ⟨correlationId, listed, job, found, -, done⟩
  rcases (sound.riskJobs id waiting waitingFound).1 with ⟨other, otherListed, rfl⟩
  rw [refresh_eq, belongs] at otherListed
  cases listed.symm.trans otherListed
  cases found.symm.trans waitingFound
  rw [done] at persisted
  cases persisted

/-- Each queued row of a completed refresh was evaluated against the row before it. -/
theorem Sound.evaluated (sound : Sound rules state) (completed : state.Completed refresh)
    {row : SnapshotRow} (member : row ∈ state.rows) (belongs : row.refresh = refresh)
    (queued : (state.alertJobs (alertsId row.snapshot.id)).isSome = true) :
    ∃ previous, Evaluated rules state.rows row.snapshot previous []
      (state.alertIds row.snapshot.id) := by
  rcases Option.isSome_iff_exists.mp queued with ⟨job, found⟩
  rcases sound.alertJobs _ job found with ⟨isId, other, otherMem, same, holds⟩
  rw [completed.2 row member belongs job found] at holds
  have other_eq : other = row := by
    apply sound.rows.ids other otherMem row member
    rw [same]
    exact (alertsId_inj.mp isId).symm
  rwa [other_eq] at holds

/-- A row without an alert job has no events. -/
theorem Sound.silent_of_unqueued (sound : Sound rules state) {row : SnapshotRow}
    (unqueued : (state.alertJobs (alertsId row.snapshot.id)).isSome ≠ true) (alertId : String) :
    alertId ∉ state.alertIds row.snapshot.id := by
  intro created
  rcases List.mem_map.mp created with ⟨event, kept, -⟩
  rcases List.mem_filter.mp kept with ⟨member, same⟩
  have queued := sound.events event member
  rw [of_decide_eq_true same] at queued
  exact unqueued queued

/-- The first row of a refresh. -/
theorem exists_first (rows : List SnapshotRow) (nonempty : ∃ row ∈ rows, row.refresh = refresh) :
    ∃ first ∈ rows, first.refresh = refresh ∧ ∀ row ∈ rows, row.refresh = refresh →
      first.snapshot.observedAt ≤ row.snapshot.observedAt := by
  rcases nonempty with ⟨row, member, belongs⟩
  rcases Finset.exists_min_image (rows.filter fun row => row.refresh = refresh).toFinset
    (fun row => row.snapshot.observedAt) ⟨row, by simp [member, belongs]⟩ with
      ⟨first, firstMem, least⟩
  simp only [List.mem_toFinset, List.mem_filter, decide_eq_true_eq] at firstMem least
  exact ⟨first, firstMem.1, firstMem.2, fun row member belongs => least row ⟨member, belongs⟩⟩

/-- The last row of a refresh. -/
theorem exists_last (state : State) (nonempty : ∃ row ∈ state.rows, row.refresh = refresh) :
    ∃ last ∈ state.rows, last.refresh = refresh ∧ state.IsLast last := by
  rcases nonempty with ⟨row, member, belongs⟩
  rcases Finset.exists_max_image (state.rows.filter fun row => row.refresh = refresh).toFinset
    (fun row => row.snapshot.observedAt) ⟨row, by simp [member, belongs]⟩ with
      ⟨last, lastMem, greatest⟩
  simp only [List.mem_toFinset, List.mem_filter, decide_eq_true_eq] at lastMem greatest
  refine ⟨last, lastMem.1, lastMem.2, fun other otherMem same => ?_⟩
  exact greatest other ⟨otherMem, same.trans lastMem.2⟩

/-- Rows of an earlier refresh are older. -/
theorem Ordered.older {rows : List SnapshotRow} (ordered : Ordered rows)
    {first second : SnapshotRow} (firstMem : first ∈ rows) (secondMem : second ∈ rows)
    (earlier : first.refresh < second.refresh) :
    first.snapshot.observedAt < second.snapshot.observedAt := by
  rcases lt_trichotomy first.snapshot.observedAt second.snapshot.observedAt with
    older | same | newer
  · exact older
  · rw [ordered.times first firstMem second secondMem same] at earlier
    exact absurd earlier (lt_irrefl _)
  · exact absurd earlier (ordered.refreshes second secondMem first firstMem newer).not_gt

/-- The first row of a refresh is compared with the last one of the refresh
before. -/
theorem Ordered.previous_of_first {rows : List SnapshotRow} (ordered : Ordered rows)
    {first last : SnapshotRow} {previous : Option RiskSnapshot}
    (before : IsPrevious rows first.snapshot previous)
    (firstMem : first ∈ rows) (lastMem : last ∈ rows)
    (consecutive : first.refresh = last.refresh + 1)
    (isFirst : ∀ row ∈ rows, row.refresh = first.refresh →
      first.snapshot.observedAt ≤ row.snapshot.observedAt)
    (isLast : ∀ row ∈ rows, row.refresh = last.refresh →
      row.snapshot.observedAt ≤ last.snapshot.observedAt) :
    previous = some last.snapshot := by
  have older : last.snapshot.observedAt < first.snapshot.observedAt :=
    ordered.older lastMem firstMem (by omega)
  have differs : last.snapshot.id ≠ first.snapshot.id := by
    intro same
    rw [ordered.ids last lastMem first firstMem same] at older
    exact lt_irrefl _ older
  cases previous with
  | none => exact absurd older (before last lastMem differs)
  | some previous =>
      rcases before with ⟨member, -, earlier, greatest⟩
      rcases List.mem_map.mp member with ⟨row, rowMem, rfl⟩
      have notOlder := greatest last lastMem differs older
      have upper : row.refresh ≤ first.refresh :=
        ordered.refreshes row rowMem first firstMem earlier
      have notFirst : row.refresh ≠ first.refresh :=
        fun same => absurd earlier (isFirst row rowMem same).not_gt
      have row_eq : row = last := by
        rcases notOlder.lt_or_eq with newer | same
        · have lower := ordered.refreshes last lastMem row rowMem newer
          exact absurd newer (isLast row rowMem (by omega)).not_gt
        · exact ordered.times row rowMem last lastMem same.symm
      rw [row_eq]

/-- A later row of a refresh is compared with a row of the same refresh. -/
theorem Ordered.previous_of_later {rows : List SnapshotRow} (ordered : Ordered rows)
    {first row : SnapshotRow} {previous : Option RiskSnapshot}
    (before : IsPrevious rows row.snapshot previous)
    (firstMem : first ∈ rows) (rowMem : row ∈ rows) (same : first.refresh = row.refresh)
    (older : first.snapshot.observedAt < row.snapshot.observedAt) :
    ∃ other ∈ rows, other.refresh = row.refresh ∧ previous = some other.snapshot := by
  have differs : first.snapshot.id ≠ row.snapshot.id := by
    intro equal
    rw [ordered.ids first firstMem row rowMem equal] at older
    exact lt_irrefl _ older
  cases previous with
  | none => exact absurd older (before first firstMem differs)
  | some previous =>
      rcases before with ⟨member, -, earlier, greatest⟩
      rcases List.mem_map.mp member with ⟨other, otherMem, rfl⟩
      refine ⟨other, otherMem, le_antisymm ?_ ?_, rfl⟩
      · exact ordered.refreshes other otherMem row rowMem earlier
      · rw [← same]
        rcases (greatest first firstMem differs older).lt_or_eq with newer | equal
        · exact ordered.refreshes first firstMem other otherMem newer
        · rw [ordered.times first firstMem other otherMem equal]

/-- A rule has created as many events on a snapshot as it fires. -/
theorem Evaluated.count {rows : List SnapshotRow} {snapshot : RiskSnapshot}
    {previous : Option RiskSnapshot} {alertIds : List String}
    (evaluated : Evaluated rules rows snapshot previous [] alertIds) {rule : AlertRule}
    (member : rule ∈ rules.rows) :
    alertIds.count rule.id = if Fires snapshot previous rule then 1 else 0 := by
  split
  next fires =>
    apply List.count_eq_one_of_mem evaluated.nodup
    rcases evaluated.fired with ⟨done, perm, rfl⟩
    rw [List.append_nil] at perm
    exact List.mem_map_of_mem (List.mem_filter.mpr ⟨perm.mem_iff.mpr member, fires⟩)
  next silent => exact List.count_eq_zero.mpr fun created => silent (evaluated.fires member created)

/-- The events of a rule on one snapshot. -/
theorem length_filter_alertIds (state : State) (alertId : String) (snapshotId : ℕ) :
    (state.events.filter fun event =>
        event.alertId = alertId ∧ event.riskSnapshotId = snapshotId).length =
      (state.alertIds snapshotId).count alertId := by
  rw [State.alertIds, List.count_eq_countP, List.countP_map, List.countP_filter,
    List.countP_eq_length_filter]
  congr 2
  funext event
  simp [beq_eq_decide]

/-- On the later rows of a refresh that breaches a rule, the rule stays silent. -/
theorem Sound.silent_later (sound : Sound rules state) {rule : AlertRule}
    (member : rule ∈ rules.rows) (completed : state.Completed refresh)
    (breached : ∀ row ∈ state.rows, row.refresh = refresh → rule.Breaches row.snapshot.figures)
    {first row : SnapshotRow} (firstMem : first ∈ state.rows) (rowMem : row ∈ state.rows)
    (firstRefresh : first.refresh = refresh) (rowRefresh : row.refresh = refresh)
    (older : first.snapshot.observedAt < row.snapshot.observedAt) :
    rule.id ∉ state.alertIds row.snapshot.id := by
  by_cases queued : (state.alertJobs (alertsId row.snapshot.id)).isSome = true
  case neg => exact sound.silent_of_unqueued queued rule.id
  rcases sound.evaluated completed rowMem rowRefresh queued with ⟨previous, evaluated⟩
  rcases sound.rows.previous_of_later evaluated.before firstMem rowMem
    (firstRefresh.trans rowRefresh.symm) older with ⟨other, otherMem, same, rfl⟩
  rw [← List.count_eq_zero, evaluated.count member, if_neg]
  intro fires
  exact (fires_iff.mp fires).2 other.snapshot rfl (breached other otherMem (same.trans rowRefresh))

/-- The first row of a refresh that breaches a rule has an alert job. -/
theorem Sound.first_queued (sound : Sound rules state) {rule : AlertRule}
    (member : rule ∈ rules.rows) (completed : state.Completed refresh) {first : SnapshotRow}
    (firstMem : first ∈ state.rows) (belongs : first.refresh = refresh)
    (isFirst : ∀ row ∈ state.rows, row.refresh = refresh →
      first.snapshot.observedAt ≤ row.snapshot.observedAt)
    (breached : rule.Breaches first.snapshot.figures) :
    (state.alertJobs (alertsId first.snapshot.id)).isSome = true := by
  rcases sound.queued first firstMem with queued | pending | calm | ⟨older, olderMem, same, earlier⟩
  · exact queued
  · exact absurd pending (sound.not_pending completed belongs)
  · exact absurd breached (calm rule member)
  · exact absurd earlier (isFirst older olderMem (same.trans belongs)).not_gt

theorem Sound.recordsCrossingsOnce (sound : Sound rules state) :
    RecordsCrossingsOnce rules state := by
  intro rule member refresh crosses
  rcases exists_first state.rows (sound.exists_row crosses.after) with
    ⟨first, firstMem, firstRefresh, isFirst⟩
  rcases exists_last state (sound.exists_row crosses.before) with
    ⟨last, lastMem, lastRefresh, isLast⟩
  have breached := crosses.breached first firstMem firstRefresh
  have queued := sound.first_queued member crosses.after firstMem firstRefresh isFirst breached
  rcases sound.evaluated crosses.after firstMem firstRefresh queued with ⟨previous, evaluated⟩
  have previous_eq : previous = some last.snapshot :=
    sound.rows.previous_of_first evaluated.before firstMem lastMem
      (by rw [firstRefresh, lastRefresh])
      (fun row rowMem same => isFirst row rowMem (same.trans firstRefresh)) isLast
  subst previous_eq
  have fires : Fires first.snapshot (some last.snapshot) rule = true :=
    fires_iff.mpr ⟨breached, fun before isLastRow =>
      Option.mem_some.mp isLastRow ▸ crosses.calm last lastMem lastRefresh isLast⟩
  have onFirst : ∀ event ∈ state.events, event.alertId = rule.id →
      ((∃ row ∈ state.rows, row.refresh = refresh + 1 ∧ row.snapshot.id = event.riskSnapshotId) ↔
        event.riskSnapshotId = first.snapshot.id) := by
    intro event eventMem ofRule
    constructor
    · rintro ⟨row, rowMem, rowRefresh, ofRow⟩
      rcases (isFirst row rowMem rowRefresh).lt_or_eq with older | same
      · apply absurd _ (sound.silent_later member crosses.after crosses.breached firstMem rowMem
          firstRefresh rowRefresh older)
        rw [← ofRule, ofRow]
        exact List.mem_map_of_mem (List.mem_filter.mpr ⟨eventMem, decide_eq_true rfl⟩)
      · rw [← ofRow, sound.rows.times first firstMem row rowMem same]
    · intro ofFirst
      exact ⟨first, firstMem, firstRefresh, ofFirst.symm⟩
  calc (state.eventsFrom rule (refresh + 1)).length
      = (state.events.filter fun event =>
          event.alertId = rule.id ∧ event.riskSnapshotId = first.snapshot.id).length := by
        congr 1
        apply List.filter_congr
        intro event eventMem
        rw [decide_eq_decide]
        exact and_congr_right (onFirst event eventMem)
    _ = (state.alertIds first.snapshot.id).count rule.id := length_filter_alertIds state _ _
    _ = 1 := by rw [evaluated.count member, if_pos fires]

/-- Crossings are recorded exactly once in every run in which no risk attempt fails
between a row and its alert job, where the row is the first of its refresh and breaches a
rule, no alert attempt fails once it has created an event, and rows are inserted in the
order of their refreshes. -/
theorem records_crossings_once_when_undisturbed {actions : List Action}
    (along : Along (next rules) (Undisturbed rules) .initial actions)
    (run : exec (next rules) .initial actions = some state) : RecordsCrossingsOnce rules state :=
  (along.invariant Sound.step run sound_initial).recordsCrossingsOnce

/-! ## A failure on either queue -/

/-- Figures with a given score; everything else is equal. -/
def scored (riskScoreBps : ℤ) : RiskFigures where
  riskLevel := .healthy
  riskScoreBps := riskScoreBps
  healthFactorE4 := none
  liquidationDistanceBps := none
  protocolConcentrationBps := 0
  assetConcentrationBps := 0
  liquidityScoreBps := 10000
  capitalAccessibilityBps := 10000

/-- A rule on the risk score. -/
def highScore : AlertRule where
  id := "high-score"
  metric := .riskScoreBps
  operator := .gt
  threshold := 7000

/-- The table with that rule alone. -/
def oneRule : Table AlertRule.id where
  rows := [highScore]
  distinct := List.nodup_singleton _

/-- A risk attempt up to its insert, at the time of the row's id. -/
def insertRow (id : String) (rowId : ℕ) (riskScoreBps : ℤ) : List Action :=
  [.startRisk id, .observe id (scored riskScoreBps) "" rowId, .commit id rowId]

/-- The rest of the risk attempt, and the start of the alert attempt. -/
def queueAlert (id alertId : String) (previous : Option RiskSnapshot) : List Action :=
  [.queueAlerts id, .completeRisk id, .startAlert alertId, .read alertId previous [highScore],
    .evaluate alertId]

/-- A row those attempts insert. -/
def rowOf (rowId : ℕ) (riskScoreBps : ℤ) : RiskSnapshot where
  id := rowId
  figures := scored riskScoreBps
  reportHash := ""
  sourceBlock := 100
  observedAt := rowId

/-- A calm refresh. -/
def calmRefresh : List Action :=
  .queueRisk "a" 100 :: insertRow "risk-a" 1 1000 ++ queueAlert "risk-a" "alerts-1" none ++
    [.completeAlert "alerts-1"]

/-- The second refresh crosses, but its first attempt fails after the insert. -/
def lostCrossing : List Action :=
  calmRefresh ++ [.queueRisk "b" 100] ++ insertRow "risk-b" 2 9000 ++ [.failRisk "risk-b"] ++
    insertRow "risk-b" 3 9000 ++ queueAlert "risk-b" "alerts-3" (some (rowOf 2 9000)) ++
    [.completeAlert "alerts-3"]

/-- The second refresh crosses; the publication of its event fails once. -/
def doubledCrossing : List Action :=
  calmRefresh ++ [.queueRisk "b" 100] ++ insertRow "risk-b" 2 9000 ++
    queueAlert "risk-b" "alerts-2" (some (rowOf 1 1000)) ++
    [.failAlert "alerts-2", .startAlert "alerts-2",
      .read "alerts-2" (some (rowOf 1 1000)) [highScore], .evaluate "alerts-2",
      .publish "alerts-2", .completeAlert "alerts-2"]

/-- The second refresh crosses, and both of its jobs run through. -/
def recordedCrossing : List Action :=
  calmRefresh ++ [.queueRisk "b" 100] ++ insertRow "risk-b" 2 9000 ++
    queueAlert "risk-b" "alerts-2" (some (rowOf 1 1000)) ++
    [.publish "alerts-2", .completeAlert "alerts-2"]

instance (state : State) (refresh : ℕ) : Decidable (state.Completed refresh) :=
  inferInstanceAs (Decidable (_ ∧ _))

instance (state : State) (row : SnapshotRow) : Decidable (state.IsLast row) :=
  inferInstanceAs (Decidable (∀ other ∈ state.rows, _))

instance (state : State) (rule : AlertRule) (refresh : ℕ) :
    Decidable (state.Crosses rule refresh) :=
  decidable_of_iff
    (state.Completed refresh ∧ state.Completed (refresh + 1) ∧
      (∀ row ∈ state.rows, row.refresh = refresh → state.IsLast row →
        ¬rule.Breaches row.snapshot.figures) ∧
      ∀ row ∈ state.rows, row.refresh = refresh + 1 → rule.Breaches row.snapshot.figures)
    ⟨fun ⟨before, after, calm, breached⟩ => ⟨before, after, calm, breached⟩,
      fun crosses => ⟨crosses.before, crosses.after, crosses.calm, crosses.breached⟩⟩

/-- One failure loses the event, the other records it twice. -/
theorem failures_lose_and_double_crossings :
    (∃ state ∈ exec (next oneRule) .initial lostCrossing,
      (state.eventsFrom highScore 1).length = 0 ∧ ¬RecordsCrossingsOnce oneRule state) ∧
    ∃ state ∈ exec (next oneRule) .initial doubledCrossing,
      (state.eventsFrom highScore 1).length = 2 ∧ ¬RecordsCrossingsOnce oneRule state := by
  have lost : ∃ state ∈ exec (next oneRule) .initial lostCrossing,
      state.Crosses highScore 0 ∧ (state.eventsFrom highScore 1).length = 0 := by
    decide +kernel
  have doubled : ∃ state ∈ exec (next oneRule) .initial doubledCrossing,
      state.Crosses highScore 0 ∧ (state.eventsFrom highScore 1).length = 2 := by
    decide +kernel
  constructor
  · rcases lost with ⟨state, run, crosses, zero⟩
    refine ⟨state, run, zero, fun once => ?_⟩
    have one := once highScore (List.mem_singleton_self _) 0 crosses
    exact absurd (zero.symm.trans one) (by decide)
  · rcases doubled with ⟨state, run, crosses, two⟩
    refine ⟨state, run, two, fun once => ?_⟩
    have one := once highScore (List.mem_singleton_self _) 0 crosses
    exact absurd (two.symm.trans one) (by decide)

theorem records_crossings_once_when_undisturbed_two :
    ∃ state, exec (next oneRule) .initial recordedCrossing = some state ∧
      state.Crosses highScore 0 ∧ RecordsCrossingsOnce oneRule state := by
  have along : Along (next oneRule) (Undisturbed oneRule) .initial recordedCrossing := by
    decide +kernel
  have crossing : ∃ state ∈ exec (next oneRule) .initial recordedCrossing,
      state.Crosses highScore 0 := by
    decide +kernel
  rcases crossing with ⟨state, run, crosses⟩
  exact ⟨state, run, crosses, records_crossings_once_when_undisturbed along run⟩

end RiskRail.Alerts
