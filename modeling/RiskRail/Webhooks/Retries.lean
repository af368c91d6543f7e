import RiskRail.Webhooks.Delivery

/-!
# Retried deliveries

The attempts at a delivery follow one another, each after an answer that calls for
another one, as long as what the endpoint answered stands: it is not lost in the
`catch`, and an attempt that is taken up again is not answered otherwise.
-/

namespace RiskRail.Webhooks

open RiskRail.Queue RiskRail.Transition

/-! ## What the log says -/

/-- The answer to a job's request, if that is what happened. -/
def Effect.answerTo (job : DeliveryJob) : Effect → Option Answer
  | .answered other answer => if other = job then some answer else none
  | .queued _ => none

/-- How the last run of the attempt was answered. -/
def lastAnswer (job : DeliveryJob) (log : List Effect) : Option Answer :=
  log.findSome? (Effect.answerTo job)

/-- Some run of the attempt was answered 2xx. -/
def Delivered (job : DeliveryJob) (log : List Effect) : Prop :=
  ∃ effect ∈ log, ∃ answer ∈ effect.answerTo job, answer.Accepts

instance (job : DeliveryJob) (log : List Effect) : Decidable (Delivered job log) :=
  inferInstanceAs (Decidable (∃ effect ∈ log, _))

/-- The attempt that was queued, if it was one for this event and endpoint. -/
def Effect.attemptAt (event : Uuid) (endpointId : Cuid) : Effect → Option ℕ
  | .queued job =>
      if job.event = event ∧ job.endpointId = endpointId then some job.attempt else none
  | .answered _ _ => none

/-- The attempts queued for the event and the endpoint, newest first. -/
def attemptsQueued (event : Uuid) (endpointId : Cuid) (log : List Effect) : List ℕ :=
  log.filterMap (Effect.attemptAt event endpointId)

/-- What the deliveries of every event and endpoint look like. -/
structure DeliversOnce (log : List Effect) : Prop where
  /-- The attempts are `1` to `k`, each queued once. -/
  numbered : ∀ event endpointId, ∃ k ≤ 5,
    attemptsQueued event endpointId log = (List.range' 1 k).reverse
  /-- An attempt is queued after the one before was answered so. -/
  retried : ∀ job earlier, 1 ≤ job.attempt → .queued job.next :: earlier <:+ log →
    ∃ answer ∈ lastAnswer job earlier, answer.CallsForRetry
  /-- No attempt is queued after an earlier one was answered 2xx. -/
  settled : ∀ job earlier, .queued job :: earlier <:+ log →
    ∀ n < job.attempt, ¬Delivered (job.numbered n) earlier

/-- Another attempt may follow: the table has a pause for it, and it is not queued yet. -/
def MayFollow (job : DeliveryJob) (log : List Effect) : Prop :=
  backoff job.attempt ≠ none ∧ .queued job.next ∉ log

/-- The last run of the attempt was answered so that another attempt follows. -/
def ToBeRetried (job : DeliveryJob) (log : List Effect) : Prop :=
  MayFollow job log ∧ ∃ answer ∈ lastAnswer job log, answer.CallsForRetry

instance (job : DeliveryJob) (log : List Effect) : Decidable (MayFollow job log) :=
  inferInstanceAs (Decidable (_ ∧ _))

instance (job : DeliveryJob) (log : List Effect) : Decidable (ToBeRetried job log) :=
  inferInstanceAs (Decidable (_ ∧ ∃ answer ∈ _, _))

/-- The answer agrees with those before: an attempt that another may follow is not to be
retried once it or one before was answered 2xx, and no attempt is answered 2xx while a later
one is to be retried. -/
def Agrees (answer : Answer) (job : DeliveryJob) (log : List Effect) : Prop :=
  (answer.CallsForRetry → MayFollow job log →
    ∀ n ≤ job.attempt, ¬Delivered (job.numbered n) log) ∧
  (answer.Accepts → ∀ n < 5, job.attempt < n → ¬ToBeRetried (job.numbered n) log)

instance (answer : Answer) (job : DeliveryJob) (log : List Effect) :
    Decidable (Agrees answer job log) :=
  inferInstanceAs (Decidable (_ ∧ _))

/-- What the endpoint answered stands.  An answer agrees with those before.  The write in the
`catch` succeeds only after an answer that calls for a retry, if another attempt may follow.
No attempt is removed while the one before has not ended. -/
def AnswersStand (state : State) : Action → Prop
  | .answer id answer => ∀ run ∈ state.jobs id, Agrees answer run.data state.log
  | .recordError id =>
      ∀ run ∈ state.jobs id, MayFollow run.data state.log →
        ∃ answer ∈ lastAnswer run.data state.log, answer.CallsForRetry
  | .expire id =>
      ∀ run ∈ state.jobs id,
        ∀ previous ∈ state.jobs (deliveryId (run.data.numbered (run.data.attempt - 1))),
          previous.Finished
  | _ => True

instance (state : State) (action : Action) : Decidable (AnswersStand state action) := by
  cases action <;> unfold AnswersStand <;> infer_instance

/-! ## The log grows -/

variable {job other : DeliveryJob} {log : List Effect} {answer : Answer}

theorem lastAnswer_answered :
    lastAnswer job (.answered other answer :: log) =
      if other = job then some answer else lastAnswer job log := by
  unfold lastAnswer
  rw [List.findSome?_cons]
  by_cases same : other = job
  · simp [Effect.answerTo, same]
  · simp [Effect.answerTo, same]

@[simp]
theorem delivered_queued : Delivered job (.queued other :: log) ↔ Delivered job log := by
  simp [Delivered, Effect.answerTo]

theorem delivered_answered :
    Delivered job (.answered other answer :: log) ↔
      other = job ∧ answer.Accepts ∨ Delivered job log := by
  simp only [Delivered, List.exists_mem_cons_iff, Effect.answerTo]
  by_cases same : other = job
  · simp [same]
  · simp [same]

theorem mem_attemptsQueued {n : ℕ} :
    n ∈ attemptsQueued job.event job.endpointId log ↔ .queued (job.numbered n) ∈ log := by
  unfold attemptsQueued
  rw [List.mem_filterMap]
  constructor
  · rintro ⟨effect, member, attempt⟩
    cases effect with
    | queued other =>
        obtain ⟨⟨event, endpointId⟩, number⟩ := Option.ite_none_right_eq_some.mp attempt
        rw [DeliveryJob.numbered, ← event, ← endpointId, ← Option.some.inj number]
        exact member
    | answered other answer => cases attempt
  · intro member
    exact ⟨_, member, if_pos ⟨rfl, rfl⟩⟩

/-! ## What every attempt in the log satisfies -/

theorem DeliversOnce.queued_iff (once : DeliversOnce log) (job : DeliveryJob) :
    ∃ k ≤ 5, attemptsQueued job.event job.endpointId log = (List.range' 1 k).reverse ∧
      ∀ n, .queued (job.numbered n) ∈ log ↔ 1 ≤ n ∧ n ≤ k := by
  obtain ⟨k, bound, attempts⟩ := once.numbered job.event job.endpointId
  refine ⟨k, bound, attempts, fun n => ?_⟩
  rw [← mem_attemptsQueued, attempts, List.mem_reverse, List.mem_range'_1, Nat.add_comm 1 k,
    Nat.lt_succ_iff]

/-- The numbers of a delivery start at one. -/
theorem DeliversOnce.attempt_pos (once : DeliversOnce log) (queued : .queued job ∈ log) :
    1 ≤ job.attempt := by
  obtain ⟨k, -, -, queued_iff⟩ := once.queued_iff job
  exact ((queued_iff job.attempt).mp queued).1

/-- The attempts before a queued one are queued. -/
theorem DeliversOnce.queued_of_le (once : DeliversOnce log) (queued : .queued job ∈ log) {n : ℕ}
    (counted : 1 ≤ n) (le : n ≤ job.attempt) : .queued (job.numbered n) ∈ log := by
  obtain ⟨k, -, -, queued_iff⟩ := once.queued_iff job
  have bound := ((queued_iff job.attempt).mp queued).2
  exact (queued_iff n).mpr ⟨counted, Nat.le_trans le bound⟩

theorem DeliversOnce.answered (once : DeliversOnce log) :
    DeliversOnce (.answered other answer :: log) where
  numbered := once.numbered
  retried job earlier counted suffix := by
    rcases List.suffix_cons_iff.mp suffix with same | suffix
    · cases same
    · exact once.retried job earlier counted suffix
  settled job earlier suffix := by
    rcases List.suffix_cons_iff.mp suffix with same | suffix
    · cases same
    · exact once.settled job earlier suffix

/-- The job may be queued now. -/
structure MayBeQueued (job : DeliveryJob) (log : List Effect) : Prop where
  counted : 1 ≤ job.attempt
  bounded : job.attempt ≤ 5
  isNext : attemptsQueued job.event job.endpointId log =
    (List.range' 1 (job.attempt - 1)).reverse
  retried : ∀ previous : DeliveryJob, 1 ≤ previous.attempt → previous.next = job →
    ∃ answer ∈ lastAnswer previous log, answer.CallsForRetry
  settled : ∀ n < job.attempt, ¬Delivered (job.numbered n) log

theorem DeliversOnce.queued (once : DeliversOnce log) (may : MayBeQueued job log) :
    DeliversOnce (.queued job :: log) where
  numbered event endpointId := by
    by_cases same : job.event = event ∧ job.endpointId = endpointId
    · have attempts : attemptsQueued event endpointId (.queued job :: log) =
          job.attempt :: attemptsQueued event endpointId log :=
        List.filterMap_cons_some (if_pos same)
      obtain ⟨rfl, rfl⟩ := same
      refine ⟨job.attempt, may.bounded, ?_⟩
      obtain ⟨previous, attempt_eq⟩ := Nat.exists_eq_add_of_le' may.counted
      rw [attempts, may.isNext, attempt_eq, Nat.add_sub_cancel, List.range'_1_concat,
        List.reverse_append, Nat.add_comm 1 previous]
      rfl
    · have attempts : attemptsQueued event endpointId (.queued job :: log) =
          attemptsQueued event endpointId log :=
        List.filterMap_cons_none (if_neg same)
      rw [attempts]
      exact once.numbered event endpointId
  retried previous earlier counted suffix := by
    rcases List.suffix_cons_iff.mp suffix with same | suffix
    · obtain ⟨head, rfl⟩ := List.cons.inj same
      exact may.retried previous counted (Effect.queued.inj head)
    · exact once.retried previous earlier counted suffix
  settled other earlier suffix := by
    rcases List.suffix_cons_iff.mp suffix with same | suffix
    · obtain ⟨head, rfl⟩ := List.cons.inj same
      rw [Effect.queued.inj head]
      exact may.settled
    · exact once.settled other earlier suffix

/-! ## The invariant -/

/-- What the running job knows of the answer to its attempt. -/
def Knows (log : List Effect) (run : Job DeliveryJob Progress) : Prop :=
  match run.phase with
  | .active (.updating status) => lastAnswer run.data log = some (.status status)
  | .active (.returned outcome) =>
      outcome.Retries → backoff run.data.attempt ≠ none ∧
        (.queued run.data.next ∉ log →
          ∃ answer ∈ lastAnswer run.data log, answer.CallsForRetry)
  | _ => True

/-- What the log tells of a job. -/
structure Holds (log : List Effect) (id : String) (run : Job DeliveryJob Progress) : Prop where
  id_eq : id = deliveryId run.data
  queued : .queued run.data ∈ log
  knows : Knows log run

/-- The job has ended or is removed. -/
def Over (jobs : Jobs DeliveryJob Progress) (job : DeliveryJob) : Prop :=
  ∀ run ∈ jobs (deliveryId job), run.Finished

/-- What runs keep true in which the answers stand. -/
structure Invariant (state : State) : Prop where
  once : DeliversOnce state.log
  jobs : Jobs.All (Holds state.log) state.jobs
  asked : ∀ job, Delivered job state.log → .queued job ∈ state.log
  unsettled : ∀ job, ToBeRetried job state.log →
    ∀ n ≤ job.attempt, ¬Delivered (job.numbered n) state.log
  kept : ∀ job, .queued job ∈ state.log → .queued job.next ∈ state.log →
    (state.jobs (deliveryId job.next)).isSome = true ∨ Over state.jobs job

theorem invariant_initial : Invariant .initial where
  once := {
    numbered := fun _ _ => ⟨0, Nat.zero_le 5, rfl⟩
    retried := fun job earlier _ suffix => by cases List.suffix_nil.mp suffix
    settled := fun job earlier suffix => by cases List.suffix_nil.mp suffix }
  jobs := Jobs.all_empty
  asked job delivered := by simp [State.initial, Delivered] at delivered
  unsettled job toBeRetried := by
    obtain ⟨-, answer, found, -⟩ := toBeRetried
    cases found
  kept job queued := by cases queued

variable {state target : State} {id : String} {run : Job DeliveryJob Progress}

/-! ### The job moves -/

/-- A job that has not ended goes on or ends, and nothing is queued or answered. -/
def Moves (state target : State) (id : String) : Prop :=
  ∃ run moved : Job DeliveryJob Progress, state.jobs id = some run ∧ ¬run.Finished ∧
    moved.data = run.data ∧ (Knows state.log run → Knows state.log moved) ∧
      target = { state with jobs := Function.update state.jobs id (some moved) }

/-- Changing a job that has not ended neither frees an id nor revives an ended job. -/
theorem kept_update {jobs : Jobs DeliveryJob Progress} {moved : Job DeliveryJob Progress}
    {first second : DeliveryJob} (found : jobs id = some run) (unfinished : ¬run.Finished)
    (kept : (jobs (deliveryId second)).isSome = true ∨ Over jobs first) :
    (Function.update jobs id (some moved) (deliveryId second)).isSome = true ∨
      Over (Function.update jobs id (some moved)) first := by
  rcases kept with present | ended
  · exact .inl (Jobs.isSome_update present)
  · right
    have differs : deliveryId first ≠ id := by
      rintro rfl
      exact unfinished (ended run found)
    intro other member
    rw [Function.update_of_ne differs] at member
    exact ended other member

theorem Invariant.moves (invariant : Invariant state) (step : Moves state target id) :
    Invariant target := by
  obtain ⟨run, moved, found, unfinished, data, knows, rfl⟩ := step
  have holds := invariant.jobs id run found
  refine { invariant with jobs := invariant.jobs.update ?_, kept := ?_ }
  · rintro _ ⟨⟩
    exact ⟨data ▸ holds.id_eq, data ▸ holds.queued, knows holds.knows⟩
  · intro job queued next
    exact kept_update found unfinished (invariant.kept job queued next)

theorem State.modify_eq_some {change : Job DeliveryJob Progress → Option (Job DeliveryJob Progress)}
    (step : state.modify id change = some target) :
    ∃ run moved, state.jobs id = some run ∧ change run = some moved ∧
      target = { state with jobs := Function.update state.jobs id (some moved) } := by
  obtain ⟨jobs, modified, rfl⟩ := Option.map_eq_some_iff.mp step
  obtain ⟨run, moved, found, change_eq, rfl⟩ := Jobs.modify_eq_some_iff.mp modified
  exact ⟨run, moved, found, change_eq, rfl⟩

theorem moves_modify {change : Job DeliveryJob Progress → Option (Job DeliveryJob Progress)}
    (step : state.modify id change = some target)
    (kept : ∀ run moved, state.jobs id = some run → change run = some moved →
      ¬run.Finished ∧ moved.data = run.data ∧ (Knows state.log run → Knows state.log moved)) :
    Moves state target id := by
  obtain ⟨run, moved, found, change_eq, rfl⟩ := State.modify_eq_some step
  obtain ⟨unfinished, data, knows⟩ := kept run moved found change_eq
  exact ⟨run, moved, found, unfinished, data, knows, rfl⟩

/-- The running job goes on. -/
theorem moves_advance {change : DeliveryJob → Progress → Option Progress}
    (step : state.modify id (Job.advance change) = some target)
    (knows : ∀ run progress advanced, state.jobs id = some run → run.phase = .active progress →
      change run.data progress = some advanced → Knows state.log run →
        Knows state.log { run with phase := .active advanced }) : Moves state target id := by
  apply moves_modify step
  intro run moved found change_eq
  obtain ⟨progress, advanced, running, advance_eq, rfl⟩ := Job.advance_eq_some change_eq
  have unfinished := Job.not_finished_of_active running
  exact ⟨unfinished, rfl, knows run progress advanced found running advance_eq⟩

/-- A job that waits or has ended knows nothing. -/
theorem knows_of_idle (idle : ∀ progress, run.phase ≠ .active progress) : Knows log run := by
  unfold Knows
  split
  next running => exact absurd running (idle _)
  next running => exact absurd running (idle _)
  next => trivial

/-- The run of the job ends. -/
theorem moves_end {change : Job DeliveryJob Progress → Option (Job DeliveryJob Progress)}
    (step : state.modify id change = some target)
    (ends : ∀ run moved, change run = some moved → (∃ progress, run.phase = .active progress) ∧
      moved.data = run.data ∧ ∀ progress, moved.phase ≠ .active progress) :
    Moves state target id := by
  apply moves_modify step
  intro run moved found change_eq
  obtain ⟨⟨progress, running⟩, data, idle⟩ := ends run moved change_eq
  exact ⟨Job.not_finished_of_active running, data, fun _ => knows_of_idle idle⟩

theorem throwing_eq_some {moved : Job DeliveryJob Progress} (step : throwing run = some moved) :
    run.fail = some moved := by
  unfold throwing at step
  split at step
  next =>
    split at step
    next => exact step
    next => cases step
  next => cases step

theorem backoff_eq_none_iff {attempt : ℕ} : backoff attempt = none ↔ attempt = 0 ∨ 5 ≤ attempt := by
  cases attempt with
  | zero => simp [backoff]
  | succ index =>
      rw [backoff, List.getElem?_eq_none_iff]
      simp [retryBackoffSeconds]

theorem attempt_lt_five {attempt : ℕ} (more : backoff attempt ≠ none) : attempt < 5 := by
  by_contra past
  exact more (backoff_eq_none_iff.mpr (.inr (Nat.le_of_not_lt past)))

theorem knows_afterLook {enabled : Bool} {progress advanced : Progress}
    (step : Progress.afterLook enabled run.data progress = some advanced) :
    Knows log { run with phase := .active advanced } := by
  cases progress with
  | looking =>
      cases step
      cases enabled with
      | true => trivial
      | false => exact fun retries => absurd rfl retries.2
  | _ => cases step

theorem knows_afterCreate {progress advanced : Progress}
    (step : Progress.afterCreate run.data progress = some advanced) :
    Knows log { run with phase := .active advanced } := by
  cases progress with
  | creating =>
      cases step
      trivial
  | _ => cases step

/-- The answer that is stored is the one that decides. -/
theorem knows_afterUpdate {progress advanced : Progress} (running : run.phase = .active progress)
    (step : Progress.afterUpdate run.data progress = some advanced) (knows : Knows log run) :
    Knows log { run with phase := .active advanced } := by
  unfold Knows at knows
  rw [running] at knows
  cases progress with
  | updating status =>
      cases step
      intro retries
      obtain ⟨retry, more⟩ := DeliveryOutcome.retries_ofStatus_iff.mp retries
      exact ⟨more, fun _ => ⟨_, knows, classify_eq_retry_iff.mp retry⟩⟩
  | _ => cases step

theorem knows_afterUpdateThrows {error : String} {progress advanced : Progress}
    (step : Progress.afterUpdateThrows error run.data progress = some advanced) :
    Knows log { run with phase := .active advanced } := by
  cases progress with
  | updating status =>
      cases step
      trivial
  | _ => cases step

/-- The `catch` retries whatever was thrown, so the answer has to call for it. -/
theorem knows_afterCatch {progress advanced : Progress}
    (step : Progress.afterCatch run.data progress = some advanced)
    (stands : MayFollow run.data log → ∃ answer ∈ lastAnswer run.data log, answer.CallsForRetry) :
    Knows log { run with phase := .active advanced } := by
  cases progress with
  | catching error =>
      cases step
      rintro ⟨-, more⟩
      exact ⟨more, fun fresh => stands ⟨more, fresh⟩⟩
  | _ => cases step

/-- Every step but an answer and a job that is added or removed only moves one job. -/
theorem next_cases {action : Action} (stands : AnswersStand state action)
    (step : next state action = some target) :
    (∃ id, Moves state target id) ∨
      (∃ event endpointId, action = .emit event endpointId) ∨
      (∃ id answer, action = .answer id answer) ∨
      (∃ id, action = .add id) ∨ ∃ id, action = .expire id := by
  cases action with
  | emit event endpointId => exact .inr (.inl ⟨event, endpointId, rfl⟩)
  | start id =>
      refine .inl ⟨id, moves_modify step ?_⟩
      intro run moved found started
      obtain ⟨waiting, rfl⟩ := Job.start_eq_some started
      refine ⟨?_, rfl, fun _ => trivial⟩
      unfold Job.Finished
      rw [waiting]
      exact not_false
  | look id enabled =>
      refine .inl ⟨id, moves_advance step ?_⟩
      exact fun run progress advanced _ _ change _ => knows_afterLook change
  | create id =>
      refine .inl ⟨id, moves_advance step ?_⟩
      exact fun run progress advanced _ _ change _ => knows_afterCreate change
  | answer id answer => exact .inr (.inr (.inl ⟨id, answer, rfl⟩))
  | update id =>
      refine .inl ⟨id, moves_advance step ?_⟩
      exact fun run progress advanced _ running change => knows_afterUpdate running change
  | updateThrows id error =>
      refine .inl ⟨id, moves_advance step ?_⟩
      exact fun run progress advanced _ _ change _ => knows_afterUpdateThrows change
  | recordError id =>
      refine .inl ⟨id, moves_advance step ?_⟩
      exact fun run progress advanced found _ change _ => knows_afterCatch change (stands run found)
  | add id => exact .inr (.inr (.inr (.inl ⟨id, rfl⟩)))
  | complete id =>
      refine .inl ⟨id, moves_end step ?_⟩
      intro run moved completed
      obtain ⟨progress, running, -, rfl⟩ := Job.complete_eq_some completed
      exact ⟨⟨progress, running⟩, rfl, nofun⟩
  | throw id =>
      refine .inl ⟨id, moves_end step ?_⟩
      intro run moved thrown
      obtain ⟨data, running, ended⟩ := Job.fail_eq_some (throwing_eq_some thrown)
      exact ⟨running, data, JobPhase.ne_active_of_ended ended⟩
  | die id again =>
      refine .inl ⟨id, moves_end step ?_⟩
      intro run moved died
      obtain ⟨data, running, ended⟩ := Job.stall_eq_some died
      exact ⟨running, data, JobPhase.ne_active_of_ended ended⟩
  | expire id => exact .inr (.inr (.inr (.inr ⟨id, rfl⟩)))

/-! ### The endpoint answers -/

theorem mem_answered_iff : .queued job ∈ Effect.answered other answer :: log ↔
    .queued job ∈ log := by
  simp

theorem Knows.answered (knows : Knows log run) (differs : other ≠ run.data) :
    Knows (.answered other answer :: log) run := by
  unfold Knows at knows ⊢
  rw [lastAnswer_answered, if_neg differs, mem_answered_iff]
  exact knows

theorem Holds.answered (holds : Holds log id run) (differs : other ≠ run.data) :
    Holds (.answered other answer :: log) id run :=
  ⟨holds.id_eq, List.mem_cons_of_mem _ holds.queued, holds.knows.answered differs⟩

theorem State.answer_eq_some (step : state.answer id answer = some target) :
    ∃ run advanced, state.jobs id = some run ∧ run.phase = .active .posting ∧
      Progress.afterAnswer answer run.data .posting = some advanced ∧
      target =
        { jobs := Function.update state.jobs id (some { run with phase := .active advanced })
          log := .answered run.data answer :: state.log } := by
  obtain ⟨run, found, mapped⟩ := Option.bind_eq_some_iff.mp step
  obtain ⟨middle, modified, rfl⟩ := Option.map_eq_some_iff.mp mapped
  obtain ⟨other, moved, same, change_eq, rfl⟩ := State.modify_eq_some modified
  cases found.symm.trans same
  obtain ⟨progress, advanced, running, advance_eq, rfl⟩ := Job.advance_eq_some change_eq
  cases progress with
  | posting => exact ⟨run, advanced, found, running, advance_eq, rfl⟩
  | _ => cases advance_eq

theorem knows_afterAnswer {advanced : Progress}
    (step : Progress.afterAnswer answer run.data .posting = some advanced) :
    Knows (.answered run.data answer :: log) { run with phase := .active advanced } := by
  cases answer with
  | status code =>
      cases step
      exact lastAnswer_answered.trans (if_pos rfl)
  | noResponse error =>
      cases step
      trivial

/-- An attempt that is to be retried after the answer was not answered 2xx, nor was one
before it. -/
theorem unsettled_answered (agrees : Agrees answer other log)
    (unsettled : ∀ job, ToBeRetried job log → ∀ n ≤ job.attempt, ¬Delivered (job.numbered n) log) :
    ∀ job, ToBeRetried job (.answered other answer :: log) →
      ∀ n ≤ job.attempt, ¬Delivered (job.numbered n) (.answered other answer :: log) := by
  rintro job ⟨⟨more, fresh⟩, given, isLast, callsForRetry⟩ n le delivered
  rw [mem_answered_iff] at fresh
  rw [lastAnswer_answered] at isLast
  obtain ⟨retried, accepted⟩ := agrees
  split at isLast
  next same =>
    -- the answer is the one to be retried after
    cases isLast
    subst same
    rcases delivered_answered.mp delivered with ⟨-, accepts⟩ | delivered
    · exact callsForRetry.not_accepts accepts
    · exact retried callsForRetry ⟨more, fresh⟩ n le delivered
  next differs =>
    have before : ToBeRetried job log := ⟨⟨more, fresh⟩, given, isLast, callsForRetry⟩
    rcases delivered_answered.mp delivered with ⟨rfl, accepts⟩ | delivered
    · have earlier : n ≠ job.attempt := by
        rintro rfl
        exact differs rfl
      have later : n < job.attempt := Nat.lt_of_le_of_ne le earlier
      exact accepted accepts job.attempt (attempt_lt_five more) later before
    · exact unsettled job before n le delivered

theorem Invariant.afterAnswer (invariant : Invariant state)
    (stands : AnswersStand state (.answer id answer))
    (step : state.answer id answer = some target) : Invariant target := by
  obtain ⟨run, advanced, found, running, advance_eq, rfl⟩ := State.answer_eq_some step
  have holds := invariant.jobs id run found
  refine ⟨invariant.once.answered, Jobs.all_update ?_ ?_, ?_, ?_, ?_⟩
  · intro other differs job member
    have otherHolds := invariant.jobs other job member
    apply otherHolds.answered
    intro same
    apply differs
    rw [otherHolds.id_eq, holds.id_eq, same]
  · rintro _ ⟨⟩
    exact ⟨holds.id_eq, List.mem_cons_of_mem _ holds.queued, knows_afterAnswer advance_eq⟩
  · intro job delivered
    apply List.mem_cons_of_mem
    rcases delivered_answered.mp delivered with ⟨rfl, -⟩ | delivered
    · exact holds.queued
    · exact invariant.asked job delivered
  · exact unsettled_answered (stands run found) invariant.unsettled
  · intro job queued next
    rw [mem_answered_iff] at queued next
    exact kept_update found (Job.not_finished_of_active running) (invariant.kept job queued next)

/-! ### A job is added -/

theorem Knows.queued (knows : Knows log run) : Knows (.queued other :: log) run := by
  unfold Knows at knows ⊢
  split
  next running =>
    rw [running] at knows
    exact knows
  next running =>
    rw [running] at knows
    intro retries
    obtain ⟨more, retry⟩ := knows retries
    exact ⟨more, fun fresh => retry (mt (List.mem_cons_of_mem _) fresh)⟩
  next => trivial

theorem Holds.added (holds : Holds log id run) : Holds (.queued other :: log) id run :=
  ⟨holds.id_eq, List.mem_cons_of_mem _ holds.queued, holds.knows.queued⟩

theorem mem_queued_iff : .queued job ∈ Effect.queued other :: log ↔
    job = other ∨ .queued job ∈ log := by
  simp

theorem State.add_of_some (found : state.jobs id = some run) : state.add id job = state := by
  have taken : state.jobs id ≠ none := by
    rw [found]
    nofun
  rw [State.add, Jobs.add, if_neg taken, if_neg taken]

theorem MayBeQueued.fresh (may : MayBeQueued job log) : .queued job ∉ log := by
  have absent : job.attempt ∉ attemptsQueued job.event job.endpointId log := by
    rw [may.isNext, List.mem_reverse, List.mem_range'_1]
    have := may.counted
    omega
  exact fun queued => absent (mem_attemptsQueued.mpr queued)

/-- Adding a job makes no ended job run, and the attempt before it is queued already. -/
theorem kept_queued (invariant : Invariant state) (may : MayBeQueued job state.log)
    (queued : .queued other ∈ Effect.queued job :: state.log)
    (next : .queued other.next ∈ Effect.queued job :: state.log) :
    let jobs := Function.update state.jobs (deliveryId job) (some (.added job))
    (jobs (deliveryId other.next)).isSome = true ∨ Over jobs other := by
  rw [mem_queued_iff] at queued next
  rcases next with rfl | next
  · left
    rw [Function.update_self]
    rfl
  · rcases queued with rfl | queued
    · have earlier := invariant.once.queued_of_le next may.counted (Nat.le_succ _)
      exact absurd earlier may.fresh
    · rcases invariant.kept other queued next with present | ended
      · exact .inl (Jobs.isSome_update present)
      · right
        have differs : deliveryId other ≠ deliveryId job := by
          intro same
          exact may.fresh (deliveryId_injective same ▸ queued)
        intro run member
        rw [Function.update_of_ne differs] at member
        exact ended run member

/-- A job is added once, when it may be queued. -/
theorem Invariant.afterQueued (invariant : Invariant state)
    (may : state.jobs (deliveryId job) = none → MayBeQueued job state.log) :
    Invariant (state.add (deliveryId job) job) := by
  cases found : state.jobs (deliveryId job) with
  | some run => exact (State.add_of_some found).symm ▸ invariant
  | none =>
      have may := may found
      have added : state.add (deliveryId job) job =
          { jobs := Function.update state.jobs (deliveryId job) (some (.added job))
            log := .queued job :: state.log } := by
        rw [State.add, Jobs.add, if_pos found, if_pos found]
      rw [added]
      refine ⟨invariant.once.queued may, ?_, ?_, ?_, fun _ => kept_queued invariant may⟩
      · apply (invariant.jobs.mono fun _ _ holds => holds.added).update
        rintro _ ⟨⟩
        exact ⟨rfl, List.mem_cons_self, trivial⟩
      · intro other delivered
        exact List.mem_cons_of_mem _ (invariant.asked other (delivered_queued.mp delivered))
      · rintro other ⟨⟨more, fresh⟩, last⟩ n le delivered
        refine invariant.unsettled other ⟨⟨more, ?_⟩, last⟩ n le (delivered_queued.mp delivered)
        exact mt (List.mem_cons_of_mem _) fresh

theorem mayBeQueued_first {event : Uuid} {endpointId : Cuid} (invariant : Invariant state)
    (fresh : .queued { event, endpointId, attempt := 1 } ∉ state.log) :
    MayBeQueued { event, endpointId, attempt := 1 } state.log := by
  obtain ⟨k, -, attempts, queued_iff⟩ :=
    invariant.once.queued_iff { event, endpointId, attempt := 1 }
  have none_queued : k = 0 := by
    have absent := mt (queued_iff 1).mpr fresh
    omega
  refine ⟨Nat.le_refl 1, Nat.succ_le_succ (Nat.zero_le 4), ?_, ?_, ?_⟩
  · rw [attempts, none_queued]
    rfl
  · intro previous counted isFirst
    have := Nat.succ.inj (congrArg DeliveryJob.attempt isFirst)
    omega
  · intro n before delivered
    have counted := invariant.once.attempt_pos (invariant.asked _ delivered)
    exact absurd counted (Nat.not_le_of_lt before)

theorem next_injective : Function.Injective DeliveryJob.next := by
  rintro ⟨event, endpointId, attempt⟩ other same
  cases other
  cases same
  rfl

theorem mayBeQueued_next (invariant : Invariant state) (queued : .queued job ∈ state.log)
    (fresh : .queued job.next ∉ state.log) (more : backoff job.attempt ≠ none)
    (retry : ∃ answer ∈ lastAnswer job state.log, answer.CallsForRetry) :
    MayBeQueued job.next state.log := by
  obtain ⟨k, -, attempts, queued_iff⟩ := invariant.once.queued_iff job
  have last : k = job.attempt := by
    have present := (queued_iff job.attempt).mp queued
    have absent := mt (queued_iff (job.attempt + 1)).mpr fresh
    omega
  refine ⟨Nat.succ_pos _, attempt_lt_five more, ?_, ?_, ?_⟩
  · rw [last] at attempts
    exact attempts
  · intro previous _ same
    cases next_injective same
    exact retry
  · intro n before
    exact invariant.unsettled job ⟨⟨more, fresh⟩, retry⟩ n (Nat.le_of_lt_succ before)

theorem State.addNext_eq_some (step : state.addNext id = some target) :
    ∃ run outcome, state.jobs id = some run ∧ run.phase = .active (.returned outcome) ∧
      outcome.Retries ∧
      target = State.add
        { state with
          jobs := Function.update state.jobs id (some { run with phase := .active .queued }) }
        (retryId run.data) run.data.next := by
  obtain ⟨run, found, mapped⟩ := Option.bind_eq_some_iff.mp step
  obtain ⟨middle, modified, rfl⟩ := Option.map_eq_some_iff.mp mapped
  obtain ⟨other, moved, same, change_eq, rfl⟩ := State.modify_eq_some modified
  cases found.symm.trans same
  obtain ⟨progress, advanced, running, advance_eq, rfl⟩ := Job.advance_eq_some change_eq
  unfold Progress.afterAdd at advance_eq
  split at advance_eq
  next outcome =>
    obtain ⟨retries, queued⟩ := Option.ite_none_right_eq_some.mp advance_eq
    cases queued
    exact ⟨run, outcome, found, running, retries, rfl⟩
  next => cases advance_eq

theorem Invariant.afterAdd (invariant : Invariant state)
    (step : state.addNext id = some target) : Invariant target := by
  obtain ⟨run, outcome, found, running, retries, rfl⟩ := State.addNext_eq_some step
  have holds := invariant.jobs id run found
  have knows := holds.knows
  unfold Knows at knows
  rw [running] at knows
  obtain ⟨more, retry⟩ := knows retries
  have unfinished := Job.not_finished_of_active running
  -- the job of the attempt goes on, and then the next one is added
  have middle := invariant.moves
    ⟨run, { run with phase := .active .queued }, found, unfinished, rfl, fun _ => trivial, rfl⟩
  rw [← deliveryId_next (invariant.once.attempt_pos holds.queued)]
  apply middle.afterQueued
  intro free
  have fresh : .queued run.data.next ∉ state.log := ?_
  exact mayBeQueued_next middle holds.queued fresh more (retry fresh)
  intro next
  rcases middle.kept run.data holds.queued next with present | ended
  · rw [free] at present
    cases present
  · apply ended { run with phase := .active .queued }
    rw [← holds.id_eq]
    exact Function.update_self ..

/-! ### A job is removed -/

theorem Over.removed {jobs : Jobs DeliveryJob Progress} (ended : Over jobs job) :
    Over (Function.update jobs id none) job := by
  intro run member
  by_cases same : deliveryId job = id
  · rw [same, Function.update_self] at member
    cases member
  · rw [Function.update_of_ne same] at member
    exact ended run member

theorem Invariant.afterExpire {jobs : Jobs DeliveryJob Progress} (invariant : Invariant state)
    (stands : AnswersStand state (.expire id)) (step : state.jobs.expire id = some jobs) :
    Invariant { state with jobs } := by
  refine { invariant with jobs := invariant.jobs.expire step, kept := ?_ }
  unfold Jobs.expire at step
  split at step
  next run found =>
    obtain ⟨-, removed⟩ := Option.ite_none_right_eq_some.mp step
    cases removed
    have stands := stands run found
    have holds := invariant.jobs id run found
    intro job queued next
    rcases invariant.kept job queued next with present | ended
    · by_cases same : deliveryId job.next = id
      · have data : run.data = job.next := by
          apply deliveryId_injective
          rw [← holds.id_eq, same]
        rw [data] at stands
        exact .inr (Over.removed stands)
      · left
        exact (congrArg Option.isSome (Function.update_of_ne same none state.jobs)).trans present
    · exact .inr ended.removed
  next => cases step

/-! ## Every run -/

theorem Invariant.next {action : Action} (invariant : Invariant state)
    (stands : AnswersStand state action) (step : next state action = some target) :
    Invariant target := by
  rcases next_cases stands step with ⟨id, moves⟩ | ⟨event, endpointId, rfl⟩ |
    ⟨id, answer, rfl⟩ | ⟨id, rfl⟩ | ⟨id, rfl⟩
  · exact invariant.moves moves
  · obtain ⟨fresh, added⟩ := Option.ite_none_left_eq_some.mp step
    cases added
    exact invariant.afterQueued fun _ => mayBeQueued_first invariant fresh
  · exact invariant.afterAnswer stands step
  · exact invariant.afterAdd step
  · obtain ⟨jobs, expired, rfl⟩ := Option.map_eq_some_iff.mp step
    exact invariant.afterExpire stands expired

/-- As long as the answers stand, a delivery is attempted at most five times, each time
after an answer that calls for it, and never after a 2xx. -/
theorem delivers_once_while_answers_stand {actions : List Action}
    (along : Along Webhooks.next AnswersStand .initial actions)
    (run : exec Webhooks.next .initial actions = some target) : DeliversOnce target.log :=
  (along.invariant Invariant.next run invariant_initial).once

/-! ### Two deliveries -/

/-- The id of an event. -/
def storedEvent : Uuid where
  text := "6f1c2a9e-3b5d-4c7f-8a2b-9d0e1f2a3b4c"
  length := by decide
  plain := by decide

/-- The id of an endpoint. -/
def storedEndpoint : Cuid where
  text := "cmh3k2v9x0001"
  nonempty := by decide
  plain := by decide
  undashed := by decide

/-- The first attempt to deliver it there. -/
def firstAttempt : DeliveryJob where
  event := storedEvent
  endpointId := storedEndpoint
  attempt := 1

/-- A run of the job up to the answer. -/
def posted (job : DeliveryJob) (answer : Answer) : List Action :=
  let id := deliveryId job
  [.start id, .look id true, .create id, .answer id answer]

/-- The endpoint fails, the next request times out and its job is taken up again. -/
def retriedDelivery : List Action :=
  let first := deliveryId firstAttempt
  let second := deliveryId firstAttempt.next
  .emit storedEvent storedEndpoint :: posted firstAttempt (.status 500) ++
    [.update first, .add first, .complete first] ++
    posted firstAttempt.next (.noResponse "aborted") ++
    [.recordError second, .die second true] ++
    posted firstAttempt.next (.status 200) ++ [.update second, .complete second]

theorem delivers_once_while_answers_stand_retried :
    ∃ target, exec next .initial retriedDelivery = some target ∧ DeliversOnce target.log := by
  have isSome : (exec next .initial retriedDelivery).isSome = true := by decide +kernel
  obtain ⟨target, run⟩ := Option.isSome_iff_exists.mp isSome
  exact ⟨target, run, delivers_once_while_answers_stand (by decide +kernel) run⟩

/-- The endpoint accepts the event, and the write of its answer fails. -/
def unwrittenDelivery : List Action :=
  let first := deliveryId firstAttempt
  .emit storedEvent storedEndpoint :: posted firstAttempt (.status 200) ++
    [.updateThrows first "connection lost", .recordError first, .add first]

/-- The delivery is taken for one without a response, and a second attempt is queued. -/
theorem unwritten_delivery_repeats :
    ∃ target, exec next .initial unwrittenDelivery = some target ∧
      target.log =
        [.queued firstAttempt.next, .answered firstAttempt (.status 200),
          .queued firstAttempt] ∧
      ¬DeliversOnce target.log := by
  have log : (exec next .initial unwrittenDelivery).map State.log =
      some [.queued firstAttempt.next, .answered firstAttempt (.status 200),
        .queued firstAttempt] := by decide +kernel
  obtain ⟨target, run, log_eq⟩ := Option.map_eq_some_iff.mp log
  refine ⟨target, run, log_eq, fun once => ?_⟩
  rw [log_eq] at once
  have settled := once.settled firstAttempt.next _ (List.suffix_refl _) 1 (by decide)
  exact settled (by decide +kernel)

end RiskRail.Webhooks
