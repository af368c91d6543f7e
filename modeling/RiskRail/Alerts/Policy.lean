import RiskRail.Alerts.Crossing
import Mathlib.Data.List.Chain

/-!
# On-chain policy breaches

The alert job compares a new snapshot and the one before it with the wallet's
on-chain policy.  Whatever throws on the way, the read of the policy included, is
logged and forgotten: the job succeeds, and the next snapshot is again compared
only with the one before it.
-/

namespace RiskRail.Alerts.Policy

open RiskRail.Database RiskRail.Transition

/-- A policy as the contract stores it. -/
structure RiskPolicy where
  maxRiskScoreBps : ℕ
  minHealthFactorE4 : ℕ
  maxProtocolConcentrationBps : ℕ
  minLiquidityScoreBps : ℕ
  enabled : Bool
  updatedAt : ℕ
deriving DecidableEq

/-- One bound of a policy as a comparison that must fail. -/
structure PolicyCheck where
  metric : Metric
  operator : ThresholdOperator
  threshold : ℕ
deriving DecidableEq

/-- The four bounds of a policy. -/
def policyChecks (policy : RiskPolicy) : List PolicyCheck :=
  [⟨.riskScoreBps, .gt, policy.maxRiskScoreBps⟩,
    ⟨.healthFactorE4, .lt, policy.minHealthFactorE4⟩,
    ⟨.protocolConcentrationBps, .gt, policy.maxProtocolConcentrationBps⟩,
    ⟨.liquidityScoreBps, .lt, policy.minLiquidityScoreBps⟩]

/-- A row of `PolicyBreachEvent`, without its id and time. -/
structure PolicyBreachEvent where
  metric : Metric
  operator : ThresholdOperator
  threshold : String
  value : String
  sourceBlock : ℕ
  metadata : RiskPolicy
deriving DecidableEq

/-- What becomes of an event that is due. -/
inductive EventOutcome where
  /-- Created, published and mailed; a mail that fails is skipped. -/
  | recorded
  /-- The insert throws. -/
  | insertThrows
  /-- The row is inserted, and the publish to the realtime channel throws. -/
  | publishThrows
deriving DecidableEq

/-- What the outside answers in one evaluation: `getPolicy`, and each event. -/
structure Answers where
  policy : Except String (Option RiskPolicy)
  outcome : Metric → EventOutcome

/-- The check's metric is present and breaches the threshold. -/
def PolicyCheck.Breaches (check : PolicyCheck) (snapshot : RiskFigures) : Prop :=
  ∃ value ∈ metricValue snapshot check.metric,
    compareThreshold value check.operator check.threshold = true

instance (check : PolicyCheck) (snapshot : RiskFigures) : Decidable (check.Breaches snapshot) :=
  inferInstanceAs (Decidable (∃ value ∈ metricValue snapshot check.metric, _ = true))

/-- The value with which the metric crosses into a breach. -/
def PolicyCheck.crossing (check : PolicyCheck) (snapshot : RiskFigures)
    (previous : Option RiskFigures) : Option ℤ :=
  let currentValue := metricValue snapshot check.metric
  let previousValue := previous.bind fun figures => metricValue figures check.metric
  currentValue.filter fun _ =>
    crossedIntoBreach currentValue previousValue check.operator check.threshold

/-- The event that tells of a broken bound. -/
def breachEvent (policy : RiskPolicy) (snapshot : RiskSnapshot) (check : PolicyCheck)
    (currentValue : ℤ) : PolicyBreachEvent where
  metric := check.metric
  operator := check.operator
  threshold := toString check.threshold
  value := toString currentValue
  sourceBlock := snapshot.sourceBlock
  metadata := policy

/-- The loop over the checks: the rows it inserts, and whether it comes to its end. -/
def evaluateChecks (outcome : Metric → EventOutcome) (policy : RiskPolicy)
    (snapshot : RiskSnapshot) (previous : Option RiskSnapshot) :
    List PolicyCheck → List PolicyBreachEvent × Bool
  | [] => ([], true)
  | check :: rest =>
      match check.crossing snapshot.figures (previous.map RiskSnapshot.figures) with
      | none => evaluateChecks outcome policy snapshot previous rest
      | some currentValue =>
          match outcome check.metric with
          | .insertThrows => ([], false)
          | .publishThrows => ([breachEvent policy snapshot check currentValue], false)
          | .recorded =>
              let later := evaluateChecks outcome policy snapshot previous rest
              (breachEvent policy snapshot check currentValue :: later.1, later.2)

/-- The rows an evaluation inserts, and the number it returns. -/
structure PolicyEvaluation where
  events : List PolicyBreachEvent
  policyTriggered : ℕ
deriving DecidableEq

/-- `contract` is `RISK_POLICY_CONTRACT`. -/
def evaluateOnchainPolicy (contract : Option String) (answers : Answers)
    (snapshot : RiskSnapshot) (previous : Option RiskSnapshot) : PolicyEvaluation :=
  match contract with
  | none => ⟨[], 0⟩
  | some _ =>
      match answers.policy with
      | .error _ | .ok none => ⟨[], 0⟩
      | .ok (some policy) =>
          if policy.enabled = true then
            let evaluated :=
              evaluateChecks answers.outcome policy snapshot previous (policyChecks policy)
            ⟨evaluated.1, if evaluated.2 then evaluated.1.length else 0⟩
          else
            ⟨[], 0⟩

/-! ## Snapshots evaluated in order -/

/-- What an evaluation read, was told, and returned. -/
structure Evaluation where
  snapshot : RiskSnapshot
  previous : Option RiskSnapshot
  answers : Answers
  evaluated : PolicyEvaluation

/-- The rows, newest first, and the evaluations so far, oldest first. -/
structure State where
  rows : List SnapshotRow
  evaluations : List Evaluation

/-- No snapshot and no evaluation. -/
def State.initial : State where
  rows := []
  evaluations := []

/-- A snapshot is inserted, or the policy is evaluated for one. -/
inductive Action where
  | persist (row : SnapshotRow)
  | evaluate (row : SnapshotRow) (previous : Option RiskSnapshot) (answers : Answers)

/-- The snapshot is next: those before it are evaluated, and none after it is. -/
def State.IsNext (state : State) (snapshot : RiskSnapshot) : Prop :=
  (∀ evaluation ∈ state.evaluations, evaluation.snapshot.observedAt < snapshot.observedAt) ∧
    ∀ row ∈ state.rows, row.snapshot.observedAt < snapshot.observedAt →
      row.snapshot ∈ state.evaluations.map Evaluation.snapshot

instance (state : State) (snapshot : RiskSnapshot) : Decidable (state.IsNext snapshot) :=
  inferInstanceAs (Decidable (_ ∧ _))

variable (contract : Option String)

/-- Snapshots have ids and times of their own; an evaluation reads the one before. -/
def next : Step State Action
  | state, .persist row =>
      if ∀ other ∈ state.rows, other.snapshot.id ≠ row.snapshot.id ∧
          other.snapshot.observedAt ≠ row.snapshot.observedAt then
        some { state with rows := row :: state.rows }
      else
        none
  | state, .evaluate row previous answers =>
      if row ∈ state.rows ∧ state.IsNext row.snapshot ∧
          IsPrevious state.rows row.snapshot previous then
        some
          { state with
            evaluations := state.evaluations ++
              [⟨row.snapshot, previous, answers,
                evaluateOnchainPolicy contract answers row.snapshot previous⟩] }
      else
        none

/-- The wallet's policy is read, or the read throws; nothing else does. -/
structure Answers.OfPolicy (policy : RiskPolicy) (answers : Answers) : Prop where
  policy : (∃ error, answers.policy = .error error) ∨ answers.policy = .ok (some policy)
  recorded : ∀ metric, answers.outcome metric = .recorded

/-- The policy of the wallet is constant, and nothing but its reads fails. -/
def OnlyReadsFail (policy : RiskPolicy) : State → Action → Prop
  | _, .persist _ => True
  | _, .evaluate _ _ answers => answers.OfPolicy policy

/-- `getPolicy` answered. -/
def Evaluation.ReadsPolicy (evaluation : Evaluation) : Prop :=
  ∃ policy, evaluation.answers.policy = .ok policy

/-- An event of the check is recorded. -/
def Evaluation.Records (evaluation : Evaluation) (check : PolicyCheck) : Prop :=
  ∃ event ∈ evaluation.evaluated.events,
    event.metric = check.metric ∧ event.operator = check.operator ∧
      event.threshold = toString check.threshold

/-! ## What one evaluation records -/

variable {policy : RiskPolicy} {check : PolicyCheck} {snapshot : RiskSnapshot}
  {previous : Option RiskSnapshot}

/-- A value crosses into a breach of a check that was not breached before. -/
theorem PolicyCheck.isSome_crossing_iff {figures : RiskFigures} {before : Option RiskFigures} :
    (check.crossing figures before).isSome = true ↔
      check.Breaches figures ∧ ∀ earlier ∈ before, ¬check.Breaches earlier := by
  unfold crossing Breaches
  cases metricValue figures check.metric with
  | none => simp
  | some value =>
      rw [Option.isSome_filter, Option.any_some, crossedIntoBreach_metricValue_iff]
      simp

/-- The checks are of different metrics. -/
theorem policyChecks_injective {first second : PolicyCheck} (firstMem : first ∈ policyChecks policy)
    (secondMem : second ∈ policyChecks policy) (same : first.metric = second.metric) :
    first = second := by
  have distinct : ((policyChecks policy).map PolicyCheck.metric).Nodup := by
    simp [policyChecks]
  exact List.inj_on_of_nodup_map distinct firstMem secondMem same

theorem evaluateChecks_recorded {outcome : Metric → EventOutcome}
    (recorded : ∀ metric, outcome metric = .recorded) (checks : List PolicyCheck) :
    evaluateChecks outcome policy snapshot previous checks =
      (checks.filterMap fun check =>
        (check.crossing snapshot.figures (previous.map RiskSnapshot.figures)).map
          (breachEvent policy snapshot check), true) := by
  induction checks with
  | nil => rfl
  | cons check rest ih =>
      unfold evaluateChecks
      cases crosses : check.crossing snapshot.figures (previous.map RiskSnapshot.figures) with
      | none => simp [ih, crosses]
      | some currentValue => simp [ih, crosses, recorded]

/-- The evaluation reads the enabled policy, and every event that is due is recorded. -/
theorem evaluateOnchainPolicy_read {name : String} {answers : Answers}
    (enabled : policy.enabled = true) (read : answers.policy = .ok (some policy))
    (recorded : ∀ metric, answers.outcome metric = .recorded) :
    (evaluateOnchainPolicy (some name) answers snapshot previous).events =
      (policyChecks policy).filterMap fun check =>
        (check.crossing snapshot.figures (previous.map RiskSnapshot.figures)).map
          (breachEvent policy snapshot check) := by
  unfold evaluateOnchainPolicy
  dsimp only
  rw [read]
  dsimp only
  rw [if_pos enabled, evaluateChecks_recorded recorded]

theorem evaluateOnchainPolicy_error {answers : Answers} {error : String}
    (failed : answers.policy = .error error) :
    evaluateOnchainPolicy contract answers snapshot previous = ⟨[], 0⟩ := by
  unfold evaluateOnchainPolicy
  cases contract with
  | none => rfl
  | some name =>
      dsimp only
      rw [failed]

/-- Where the policy is read, an event is recorded exactly of a check that crosses. -/
theorem Answers.OfPolicy.records_iff {name : String} {evaluation : Evaluation}
    (ofPolicy : evaluation.answers.OfPolicy policy) (enabled : policy.enabled = true)
    (listed : check ∈ policyChecks policy)
    (evaluated : evaluation.evaluated = evaluateOnchainPolicy (some name) evaluation.answers
      evaluation.snapshot evaluation.previous) :
    evaluation.Records check ↔
      evaluation.ReadsPolicy ∧ check.Breaches evaluation.snapshot.figures ∧
        ∀ before ∈ evaluation.previous, ¬check.Breaches before.figures := by
  unfold Evaluation.Records Evaluation.ReadsPolicy
  rw [evaluated]
  rcases ofPolicy.policy with ⟨error, failed⟩ | read
  · rw [evaluateOnchainPolicy_error _ failed, failed]
    simp
  · rw [evaluateOnchainPolicy_read enabled read ofPolicy.recorded, read]
    constructor
    · rintro ⟨event, member, metric, -⟩
      rcases List.mem_filterMap.mp member with ⟨other, otherMem, created⟩
      rcases Option.map_eq_some_iff.mp created with ⟨value, crosses, rfl⟩
      cases policyChecks_injective otherMem listed metric
      have crossing := PolicyCheck.isSome_crossing_iff.mp (crosses ▸ Option.isSome_some)
      refine ⟨⟨_, rfl⟩, crossing.1, fun before beforeMem => ?_⟩
      exact crossing.2 _ (Option.mem_map_of_mem _ beforeMem)
    · rintro ⟨-, breaches, calm⟩
      have crossing : (check.crossing evaluation.snapshot.figures
          (evaluation.previous.map RiskSnapshot.figures)).isSome = true := by
        apply PolicyCheck.isSome_crossing_iff.mpr
        refine ⟨breaches, fun figures member => ?_⟩
        rcases Option.map_eq_some_iff.mp member with ⟨before, beforeMem, rfl⟩
        exact calm before beforeMem
      rcases Option.isSome_iff_exists.mp crossing with ⟨value, crosses⟩
      refine ⟨breachEvent policy evaluation.snapshot check value, ?_, rfl, rfl, rfl⟩
      apply List.mem_filterMap.mpr
      exact ⟨check, listed, by rw [crosses, Option.map_some]⟩

/-! ## Runs in order -/

/-- Every evaluation compares a row with the one evaluated just before it. -/
structure InOrder (policy : RiskPolicy) (state : State) : Prop where
  ids : (state.rows.map fun row => row.snapshot.id).Nodup
  times : (state.rows.map fun row => row.snapshot.observedAt).Nodup
  stored : ∀ evaluation ∈ state.evaluations,
    evaluation.snapshot ∈ state.rows.map SnapshotRow.snapshot
  increasing : state.evaluations.Pairwise fun first second =>
    first.snapshot.observedAt < second.snapshot.observedAt
  linked : state.evaluations.IsChain fun first second => second.previous = some first.snapshot
  ofPolicy : ∀ evaluation ∈ state.evaluations, evaluation.answers.OfPolicy policy
  evaluated : ∀ evaluation ∈ state.evaluations, evaluation.evaluated =
    evaluateOnchainPolicy contract evaluation.answers evaluation.snapshot evaluation.previous

variable {contract} {state target : State}

theorem inOrder_initial : InOrder contract policy .initial := by
  constructor <;> simp [State.initial]

/-- The row before the next one is the one evaluated last. -/
theorem InOrder.previous_eq (inOrder : InOrder contract policy state) {row : SnapshotRow}
    (member : row ∈ state.rows) (isNext : state.IsNext row.snapshot)
    (isPrevious : IsPrevious state.rows row.snapshot previous) {last : Evaluation}
    (isLast : last ∈ state.evaluations.getLast?) : previous = some last.snapshot := by
  rcases List.getLast?_eq_some_iff.mp isLast with ⟨earlier, evaluations⟩
  have lastMem : last ∈ state.evaluations := List.mem_of_getLast? isLast
  rcases List.mem_map.mp (inOrder.stored last lastMem) with ⟨lastRow, lastRowMem, lastRow_eq⟩
  have older : last.snapshot.observedAt < row.snapshot.observedAt := isNext.1 last lastMem
  have differs : lastRow.snapshot.id ≠ row.snapshot.id := by
    intro same
    cases List.inj_on_of_nodup_map inOrder.ids lastRowMem member same
    exact lt_irrefl _ (lastRow_eq ▸ older)
  rw [← lastRow_eq] at older
  cases previous with
  | none => exact absurd older (isPrevious lastRow lastRowMem differs)
  | some before =>
      rcases isPrevious with ⟨beforeMem, -, beforeOlder, newest⟩
      have lastLe := newest lastRow lastRowMem differs older
      rcases List.mem_map.mp beforeMem with ⟨beforeRow, beforeRowMem, rfl⟩
      rcases List.mem_map.mp (isNext.2 beforeRow beforeRowMem beforeOlder) with
        ⟨evaluation, evaluationMem, evaluation_eq⟩
      have increasing := inOrder.increasing
      rw [evaluations] at increasing evaluationMem
      rcases List.mem_append.mp evaluationMem with older | isLast
      · have before := (List.pairwise_append.mp increasing).2.2 evaluation older last
          (List.mem_singleton_self last)
        rw [evaluation_eq, ← lastRow_eq] at before
        exact absurd lastLe (not_le.mpr before)
      · rw [← evaluation_eq, List.mem_singleton.mp isLast]

theorem inOrder_next {action : Action} (inOrder : InOrder contract policy state)
    (only : OnlyReadsFail policy state action) (step : next contract state action = some target) :
    InOrder contract policy target := by
  cases action with
  | persist row =>
      simp only [next] at step
      split at step
      next fresh =>
        cases step
        refine ⟨?_, ?_, ?_, inOrder.increasing, inOrder.linked, inOrder.ofPolicy,
          inOrder.evaluated⟩
        · rw [List.map_cons, List.nodup_cons, List.mem_map]
          exact ⟨fun ⟨other, otherMem, same⟩ => (fresh other otherMem).1 same, inOrder.ids⟩
        · rw [List.map_cons, List.nodup_cons, List.mem_map]
          exact ⟨fun ⟨other, otherMem, same⟩ => (fresh other otherMem).2 same, inOrder.times⟩
        · exact fun evaluation member => List.mem_cons_of_mem _ (inOrder.stored evaluation member)
      next => cases step
  | evaluate row previous answers =>
      simp only [next] at step
      split at step
      next enabled =>
        rcases enabled with ⟨member, isNext, isPrevious⟩
        cases step
        refine ⟨inOrder.ids, inOrder.times, ?_, ?_, ?_, ?_, ?_⟩
        · intro evaluation evaluationMem
          rcases List.mem_append.mp evaluationMem with old | new
          · exact inOrder.stored evaluation old
          · rw [List.mem_singleton.mp new]
            exact List.mem_map_of_mem member
        · apply List.pairwise_append.mpr
          refine ⟨inOrder.increasing, List.pairwise_singleton _ _, ?_⟩
          intro evaluation old new newMem
          rw [List.mem_singleton.mp newMem]
          exact isNext.1 evaluation old
        · apply inOrder.linked.append (List.isChain_singleton _)
          rintro last isLast new ⟨⟩
          exact inOrder.previous_eq member isNext isPrevious isLast
        · intro evaluation evaluationMem
          rcases List.mem_append.mp evaluationMem with old | new
          · exact inOrder.ofPolicy evaluation old
          · rw [List.mem_singleton.mp new]
            exact only
        · intro evaluation evaluationMem
          rcases List.mem_append.mp evaluationMem with old | new
          · exact inOrder.evaluated evaluation old
          · rw [List.mem_singleton.mp new]
      next => cases step

/-- A breach whose policy is read at least once is recorded. -/
def RecordsBreach (check : PolicyCheck) (stretch : List Evaluation) : Prop :=
  (∃ evaluation ∈ stretch, evaluation.ReadsPolicy) →
    ∃ evaluation ∈ stretch, evaluation.Records check

/-- In a chain every element but the first follows one. -/
theorem exists_related_of_mem {α : Type} {related : α → α → Prop} {first item : α}
    {rest : List α} (chain : (first :: rest).IsChain related) (member : item ∈ rest) :
    ∃ before ∈ first :: rest, related before item := by
  induction rest generalizing first with
  | nil => cases member
  | cons second tail ih =>
      rcases List.isChain_cons_cons.mp chain with ⟨head, tailChain⟩
      rcases List.mem_cons.mp member with rfl | inTail
      · exact ⟨first, List.mem_cons_self, head⟩
      · rcases ih tailChain inTail with ⟨before, beforeMem, follows⟩
        exact ⟨before, List.mem_cons_of_mem _ beforeMem, follows⟩

/-- Of the snapshots of a breach only the first can be recorded, and is where the policy
is read. -/
theorem InOrder.records_iff {name : String} {earlier rest later : List Evaluation}
    {before crossing : Evaluation} (inOrder : InOrder (some name) policy state)
    (enabled : policy.enabled = true) (listed : check ∈ policyChecks policy)
    (order : state.evaluations = earlier ++ before :: (crossing :: rest ++ later))
    (calm : ¬check.Breaches before.snapshot.figures)
    (breached : ∀ evaluation ∈ crossing :: rest, check.Breaches evaluation.snapshot.figures) :
    (∃ evaluation ∈ crossing :: rest, evaluation.Records check) ↔ crossing.ReadsPolicy := by
  have member : ∀ evaluation ∈ crossing :: rest, evaluation ∈ state.evaluations := by
    intro evaluation evaluationMem
    rw [order]
    exact List.mem_append_right _ (List.mem_cons_of_mem _ (List.mem_append_left _ evaluationMem))
  have records : ∀ evaluation ∈ crossing :: rest, (evaluation.Records check ↔
      evaluation.ReadsPolicy ∧ ∀ last ∈ evaluation.previous, ¬check.Breaches last.figures) := by
    intro evaluation evaluationMem
    have stored := member evaluation evaluationMem
    rw [(inOrder.ofPolicy evaluation stored).records_iff enabled listed
      (inOrder.evaluated evaluation stored)]
    simp [breached evaluation evaluationMem]
  have linked : (before :: (crossing :: rest ++ later)).IsChain fun first second =>
      second.previous = some first.snapshot :=
    (List.isChain_split.mp (order ▸ inOrder.linked)).2
  rcases List.isChain_cons_cons.mp linked with ⟨afterCalm, linked⟩
  constructor
  · rintro ⟨evaluation, evaluationMem, recorded⟩
    rcases (records evaluation evaluationMem).mp recorded with ⟨read, crossed⟩
    rcases List.mem_cons.mp evaluationMem with rfl | inRest
    · exact read
    · rcases exists_related_of_mem linked.left_of_append inRest with ⟨last, lastMem, previous_eq⟩
      exact absurd (breached last lastMem) (crossed last.snapshot previous_eq)
  · intro read
    refine ⟨crossing, List.mem_cons_self, (records crossing List.mem_cons_self).mpr ⟨read, ?_⟩⟩
    intro last previous_eq
    cases afterCalm.symm.trans previous_eq
    exact calm

/-- A breach is recorded exactly if the policy is read where the check crosses into
it, or nowhere. -/
theorem records_breach_iff_crossing_read {name : String} {actions : List Action}
    {earlier rest later : List Evaluation} {before crossing : Evaluation}
    (enabled : policy.enabled = true) (listed : check ∈ policyChecks policy)
    (run : exec (next (some name)) .initial actions = some state)
    (only : Along (next (some name)) (OnlyReadsFail policy) .initial actions)
    (order : state.evaluations = earlier ++ before :: (crossing :: rest ++ later))
    (calm : ¬check.Breaches before.snapshot.figures)
    (breached : ∀ evaluation ∈ crossing :: rest, check.Breaches evaluation.snapshot.figures) :
    RecordsBreach check (crossing :: rest) ↔
      crossing.ReadsPolicy ∨ ∀ evaluation ∈ rest, ¬evaluation.ReadsPolicy := by
  have inOrder : InOrder (some name) policy state := only.invariant inOrder_next run inOrder_initial
  unfold RecordsBreach
  rw [inOrder.records_iff enabled listed order calm breached, List.exists_mem_cons_iff]
  constructor
  · intro recorded
    by_cases read : crossing.ReadsPolicy
    · exact .inl read
    · exact .inr fun evaluation member later =>
        read (recorded (.inr ⟨evaluation, member, later⟩))
  · rintro (read | unread) (first | ⟨evaluation, member, later⟩)
    · exact read
    · exact read
    · exact first
    · exact absurd later (unread evaluation member)

/-! ## A failed read -/

instance (evaluation : Evaluation) : Decidable evaluation.ReadsPolicy :=
  match read : evaluation.answers.policy with
  | .ok policy => isTrue ⟨policy, read⟩
  | .error _ => isFalse (by rintro ⟨policy, answered⟩; cases read.symm.trans answered)

instance (evaluation : Evaluation) (check : PolicyCheck) :
    Decidable (evaluation.Records check) :=
  inferInstanceAs (Decidable (∃ event ∈ evaluation.evaluated.events, _))

/-- A policy that is enabled. -/
def guardrails : RiskPolicy where
  maxRiskScoreBps := 7000
  minHealthFactorE4 := 13000
  maxProtocolConcentrationBps := 5000
  minLiquidityScoreBps := 4000
  enabled := true
  updatedAt := 123

/-- Its bound on the risk score. -/
def maxScore : PolicyCheck where
  metric := .riskScoreBps
  operator := .gt
  threshold := 7000

/-- The policy is read and every event recorded. -/
def answersOk : Answers where
  policy := .ok (some guardrails)
  outcome := fun _ => .recorded

/-- The policy cannot be read. -/
def answersError : Answers where
  policy := .error "fetch failed"
  outcome := fun _ => .recorded

/-- A contract that is configured. -/
def policyContract : Option String :=
  some "SP2J6ZY48GV1EZ5V2V5RB9MP66SW86PYKKNRV9EJ7.risk-policy"

/-- Three snapshots, the second of which crosses into a breach. -/
def breachRun (crossing : Answers) : List Action :=
  [.persist ⟨rowOf 1 6000, 0⟩, .evaluate ⟨rowOf 1 6000, 0⟩ none answersOk,
    .persist ⟨rowOf 2 7500, 1⟩, .evaluate ⟨rowOf 2 7500, 1⟩ (some (rowOf 1 6000)) crossing,
    .persist ⟨rowOf 3 7600, 2⟩, .evaluate ⟨rowOf 3 7600, 2⟩ (some (rowOf 2 7500)) answersOk]

theorem breachRun_onlyReadsFail {crossing : Answers} (ofPolicy : crossing.OfPolicy guardrails) :
    Along (next policyContract) (OnlyReadsFail guardrails) .initial (breachRun crossing) := by
  have ok : answersOk.OfPolicy guardrails := ⟨.inr rfl, fun _ => rfl⟩
  apply along_of_forall
  intro action member state
  simp only [breachRun, List.mem_cons, List.not_mem_nil, or_false] at member
  rcases member with rfl | rfl | rfl | rfl | rfl | rfl
  · trivial
  · exact ok
  · trivial
  · exact ofPolicy
  · trivial
  · exact ok

/-- The read fails on the crossing and answers on the next snapshot, and the breach is
never recorded. -/
theorem failed_read_loses_breach :
    ∃ state, exec (next policyContract) .initial (breachRun answersError) = some state ∧
      Along (next policyContract) (OnlyReadsFail guardrails) .initial
        (breachRun answersError) ∧
      ∃ before crossing last, state.evaluations = [before, crossing, last] ∧
        ¬maxScore.Breaches before.snapshot.figures ∧
        (∀ evaluation ∈ [crossing, last], maxScore.Breaches evaluation.snapshot.figures) ∧
        ¬RecordsBreach maxScore [crossing, last] := by
  refine ⟨_, rfl, breachRun_onlyReadsFail ⟨.inl ⟨_, rfl⟩, fun _ => rfl⟩, _, _, _, rfl, ?_, ?_, ?_⟩
  · decide +kernel
  · decide +kernel
  · unfold RecordsBreach
    decide +kernel

theorem records_breach_iff_crossing_read_answered :
    ∃ state, exec (next policyContract) .initial (breachRun answersOk) = some state ∧
      ∃ before crossing last, state.evaluations = [before, crossing, last] ∧
        RecordsBreach maxScore [crossing, last] := by
  refine ⟨_, rfl, _, _, _, rfl, ?_⟩
  have only : Along (next policyContract) (OnlyReadsFail guardrails) .initial
      (breachRun answersOk) := breachRun_onlyReadsFail ⟨.inr rfl, fun _ => rfl⟩
  apply (records_breach_iff_crossing_read rfl ?_ rfl only (rfl : _ = [] ++ _ :: (_ :: [_] ++ []))
    ?_ ?_).mpr
  · decide +kernel
  · decide +kernel
  · decide +kernel
  · decide +kernel

end RiskRail.Alerts.Policy
