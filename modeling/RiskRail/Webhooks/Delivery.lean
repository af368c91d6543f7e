import RiskRail.Queue.Core
import RiskRail.Transition.Core

/-!
# Webhook deliveries

`emit` queues the first attempt of an event for each endpoint, and the worker's
`deliver` posts it, stores the answer and queues the next attempt.  A write to the
database may fail, and a run may end anywhere; the queue then takes the attempt up
again.  A finished job is removed when its retention ends.

The rows of the deliveries, which nothing here reads, the envelope of the event and its
signature are left out.
-/

namespace RiskRail.Webhooks

open RiskRail.Queue RiskRail.Transition

/-! ## Identifiers -/

/-- What `randomUUID` returns. -/
structure Uuid where
  text : String
  length : text.toList.length = 36
  plain : ':' ∉ text.toList
deriving DecidableEq

/-- What the database draws for a row. -/
structure Cuid where
  text : String
  nonempty : text ≠ ""
  plain : ':' ∉ text.toList
  undashed : '-' ∉ text.toList
deriving DecidableEq

/-- The event is known by its id. -/
structure DeliveryJob where
  event : Uuid
  endpointId : Cuid
  attempt : ℕ
deriving DecidableEq

/-- Another attempt at the same delivery. -/
def DeliveryJob.numbered (job : DeliveryJob) (attempt : ℕ) : DeliveryJob :=
  { job with attempt }

/-- The job of the next attempt. -/
def DeliveryJob.next (job : DeliveryJob) : DeliveryJob :=
  job.numbered (job.attempt + 1)

/-- The id under which `emit` adds the first attempt. -/
def emitId (event : Uuid) (endpointId : Cuid) : String :=
  jobId [some "wh", some event.text, some endpointId.text]

/-- The id under which the worker adds the attempt after `job`. -/
def retryId (job : DeliveryJob) : String :=
  jobId
    [some "wh", some job.event.text, some job.endpointId.text, some (toString (job.attempt + 1))]

/-- The id of every job in the queue. -/
def deliveryId (job : DeliveryJob) : String :=
  if job.attempt = 1 then emitId job.event job.endpointId
  else
    jobId [some "wh", some job.event.text, some job.endpointId.text, some (toString job.attempt)]

theorem deliveryId_next {job : DeliveryJob} (counted : 1 ≤ job.attempt) :
    deliveryId job.next = retryId job := by
  have later : job.next.attempt ≠ 1 := Nat.succ_ne_succ_iff.mpr (Nat.ne_of_gt counted)
  exact if_neg later

/-! ### Different jobs have different ids -/

theorem Uuid.isPlain (uuid : Uuid) : Plain uuid.text := by
  refine ⟨?_, uuid.plain⟩
  intro empty
  have length := uuid.length
  rw [empty] at length
  cases length

theorem Cuid.isPlain (cuid : Cuid) : Plain cuid.text :=
  ⟨cuid.nonempty, cuid.plain⟩

/-- The end of the id, behind the endpoint. -/
def numberSuffix (attempt : ℕ) : List Char :=
  if attempt = 1 then [] else '-' :: (toString attempt).toList

theorem toList_deliveryId (job : DeliveryJob) :
    (deliveryId job).toList =
      "wh-".toList ++ (job.event.text.toList ++
        '-' :: (job.endpointId.text.toList ++ numberSuffix job.attempt)) := by
  have wh : Plain "wh" := ⟨by decide, by decide⟩
  have parts : ∀ part ∈ ["wh", job.event.text, job.endpointId.text], Plain part := by
    simp [wh, job.event.isPlain, job.endpointId.isPlain]
  unfold deliveryId numberSuffix
  split
  next =>
    refine (congrArg String.toList (jobId_of_plain parts)).trans ?_
    simp
  next =>
    have numbered : ∀ part ∈ ["wh", job.event.text, job.endpointId.text, toString job.attempt],
        Plain part := by
      have number := plain_toString job.attempt
      simp only [List.forall_mem_cons] at parts ⊢
      exact ⟨parts.1, parts.2.1, parts.2.2.1, number, by simp⟩
    refine (congrArg String.toList (jobId_of_plain numbered)).trans ?_
    simp

theorem takeWhile_endpoint (endpointId : Cuid) (attempt : ℕ) :
    (endpointId.text.toList ++ numberSuffix attempt).takeWhile (· ≠ '-') =
      endpointId.text.toList := by
  have undashed : ∀ char ∈ endpointId.text.toList, decide (char ≠ '-') = true := by
    intro char member
    apply decide_eq_true
    rintro rfl
    exact endpointId.undashed member
  have dashed : (numberSuffix attempt).takeWhile (· ≠ '-') = [] := by
    unfold numberSuffix
    split
    · rfl
    · rfl
  rw [List.takeWhile_append_of_pos undashed, dashed, List.append_nil]

theorem numberSuffix_injective : Function.Injective numberSuffix := by
  intro first second same
  unfold numberSuffix at same
  split at same
  next isFirst =>
    split at same
    next isSecond => exact isFirst.trans isSecond.symm
    next => cases same
  next =>
    split at same
    next => cases same
    next => exact toString_injective (String.toList_inj.mp (List.cons.inj same).2)

theorem deliveryId_injective : Function.Injective deliveryId := by
  intro first second same
  have chars := congrArg String.toList same
  rw [toList_deliveryId, toList_deliveryId, List.append_cancel_left_eq] at chars
  have lengths : first.event.text.toList.length = second.event.text.toList.length :=
    first.event.length.trans second.event.length.symm
  obtain ⟨events, rest⟩ := List.append_inj chars lengths
  have tails := (List.cons.inj rest).2
  have endpoints : first.endpointId.text.toList = second.endpointId.text.toList := by
    rw [← takeWhile_endpoint first.endpointId first.attempt, tails, takeWhile_endpoint]
  rw [endpoints, List.append_cancel_left_eq] at tails
  rcases first with ⟨⟨event, _, _⟩, ⟨endpointId, _, _, _⟩, attempt⟩
  rcases second with ⟨⟨_, _, _⟩, ⟨_, _, _, _⟩, _⟩
  cases String.toList_inj.mp events
  cases String.toList_inj.mp endpoints
  cases numberSuffix_injective tails
  rfl

/-! ## One attempt -/

/-- What the endpoint does with the request: it answers with a status, or the request
times out or fails with an error. -/
inductive Answer where
  | status (code : ℕ)
  | noResponse (error : String)
deriving DecidableEq

/-- A 2xx status. -/
def Answer.Accepts : Answer → Prop
  | .status code => 200 ≤ code ∧ code < 300
  | .noResponse _ => False

/-- 408, 429, any status that is neither 2xx nor 4xx, or no response. -/
def Answer.CallsForRetry : Answer → Prop
  | .status code =>
      code = 408 ∨ code = 429 ∨ ¬(200 ≤ code ∧ code < 300) ∧ ¬(400 ≤ code ∧ code < 500)
  | .noResponse _ => True

instance : (answer : Answer) → Decidable answer.Accepts
  | .status code => inferInstanceAs (Decidable (200 ≤ code ∧ code < 300))
  | .noResponse _ => inferInstanceAs (Decidable False)

instance : (answer : Answer) → Decidable answer.CallsForRetry
  | .status code =>
      inferInstanceAs (Decidable
        (code = 408 ∨ code = 429 ∨ ¬(200 ≤ code ∧ code < 300) ∧ ¬(400 ≤ code ∧ code < 500)))
  | .noResponse _ => inferInstanceAs (Decidable True)

/-- What an answer means for the delivery. -/
inductive Verdict where
  | ok
  | retry
  | drop
deriving DecidableEq

/-- The verdict on a status. -/
def classify (status : ℕ) : Verdict :=
  if status ≥ 200 ∧ status < 300 then .ok
  else if status = 408 ∨ status = 429 then .retry
  else if status ≥ 400 ∧ status < 500 then .drop
  else .retry

theorem classify_eq_ok_iff {status : ℕ} :
    classify status = .ok ↔ (Answer.status status).Accepts := by
  unfold classify Answer.Accepts
  split_ifs <;> simp_all

theorem classify_eq_retry_iff {status : ℕ} :
    classify status = .retry ↔ (Answer.status status).CallsForRetry := by
  unfold classify Answer.CallsForRetry
  split_ifs <;> simp <;> omega

theorem Answer.CallsForRetry.not_accepts {answer : Answer} (retry : answer.CallsForRetry) :
    ¬answer.Accepts := by
  cases answer with
  | status code =>
      rw [← classify_eq_ok_iff, classify_eq_retry_iff.mpr retry]
      nofun
  | noResponse error => exact id

/-- Seconds; delivery stops after the last entry. -/
def retryBackoffSeconds : List ℕ :=
  [30, 120, 600, 3600]

/-- `RETRY_BACKOFF_SECONDS[attempt - 1]` -/
def backoff : ℕ → Option ℕ
  | 0 => none
  | index + 1 => retryBackoffSeconds[index]?

/-- What an attempt reports. -/
structure DeliveryOutcome where
  delivered : Bool
  statusCode : Option ℕ
  retryInSeconds : Option ℕ
  error : Option String
deriving DecidableEq

/-- `deliver` after the answer is stored. -/
def DeliveryOutcome.ofStatus (attempt status : ℕ) : DeliveryOutcome :=
  match classify status with
  | .ok => { delivered := true, statusCode := some status, retryInSeconds := none, error := none }
  | .drop =>
      { delivered := false, statusCode := some status, retryInSeconds := none, error := none }
  | .retry =>
      { delivered := false, statusCode := some status, retryInSeconds := backoff attempt
        error := none }

/-- `deliver` after its `catch`. -/
def DeliveryOutcome.ofError (attempt : ℕ) (error : String) : DeliveryOutcome where
  delivered := false
  statusCode := none
  retryInSeconds := backoff attempt
  error := some error

/-- There was no endpoint to send to. -/
def DeliveryOutcome.missing : DeliveryOutcome where
  delivered := false
  statusCode := none
  retryInSeconds := none
  error := some "endpoint missing or disabled"

/-- The worker queues another attempt. -/
def DeliveryOutcome.Retries (outcome : DeliveryOutcome) : Prop :=
  outcome.delivered = false ∧ outcome.retryInSeconds ≠ none

instance (outcome : DeliveryOutcome) : Decidable outcome.Retries :=
  inferInstanceAs (Decidable (_ ∧ _))

theorem DeliveryOutcome.retries_ofStatus_iff {attempt status : ℕ} :
    (ofStatus attempt status).Retries ↔ classify status = .retry ∧ backoff attempt ≠ none := by
  unfold ofStatus Retries
  cases classify status <;> simp

/-- What a run of the job waits for. -/
inductive Progress where
  /-- The endpoint is looked up. -/
  | looking
  /-- The delivery is created. -/
  | creating
  /-- The endpoint is to answer. -/
  | posting
  /-- The answer is stored. -/
  | updating (status : ℕ)
  /-- The `catch` stores that there is none. -/
  | catching (error : String)
  /-- `deliver` has returned. -/
  | returned (outcome : DeliveryOutcome)
  /-- The next attempt is added. -/
  | queued
deriving DecidableEq

/-- The endpoint is there and enabled, or not. -/
def Progress.afterLook (enabled : Bool) : DeliveryJob → Progress → Option Progress
  | _, .looking => some (if enabled then .creating else .returned .missing)
  | _, _ => none

/-- The delivery row is created. -/
def Progress.afterCreate : DeliveryJob → Progress → Option Progress
  | _, .creating => some .posting
  | _, _ => none

/-- `fetch` settles. -/
def Progress.afterAnswer (answer : Answer) : DeliveryJob → Progress → Option Progress
  | _, .posting =>
      match answer with
      | .status code => some (.updating code)
      | .noResponse error => some (.catching error)
  | _, _ => none

/-- The row is updated with the status. -/
def Progress.afterUpdate : DeliveryJob → Progress → Option Progress
  | job, .updating status => some (.returned (.ofStatus job.attempt status))
  | _, _ => none

/-- The write of the answer is inside the `try` as well. -/
def Progress.afterUpdateThrows (error : String) : DeliveryJob → Progress → Option Progress
  | _, .updating _ => some (.catching error)
  | _, _ => none

/-- The row is updated with the error. -/
def Progress.afterCatch : DeliveryJob → Progress → Option Progress
  | job, .catching error => some (.returned (.ofError job.attempt error))
  | _, _ => none

/-- The next attempt is queued. -/
def Progress.afterAdd : DeliveryJob → Progress → Option Progress
  | _, .returned outcome => if outcome.Retries then some .queued else none
  | _, _ => none

/-- What throws here ends the run of the job; of the last two, the queue may throw
although it has added the job. -/
def Progress.Throws : Progress → Prop
  | .looking | .creating | .catching _ | .queued => True
  | .returned outcome => outcome.Retries
  | .posting | .updating _ => False

/-- The worker has nothing left to do. -/
def Progress.Done : Progress → Prop
  | .queued => True
  | .returned outcome => ¬outcome.Retries
  | _ => False

instance : (progress : Progress) → Decidable progress.Throws
  | .looking | .creating | .catching _ | .queued => isTrue trivial
  | .returned outcome => inferInstanceAs (Decidable outcome.Retries)
  | .posting | .updating _ => isFalse id

instance : (progress : Progress) → Decidable progress.Done
  | .queued => isTrue trivial
  | .returned outcome => inferInstanceAs (Decidable ¬outcome.Retries)
  | .looking | .creating | .posting | .updating _ | .catching _ => isFalse id

/-! ## The queue and the endpoints -/

/-- What the deliveries did. -/
inductive Effect where
  /-- The job is added to the queue. -/
  | queued (job : DeliveryJob)
  | answered (job : DeliveryJob) (answer : Answer)
deriving DecidableEq

/-- The jobs, and what has happened, newest first. -/
structure State where
  jobs : Jobs DeliveryJob Progress
  log : List Effect

/-- No job, and nothing sent. -/
def State.initial : State where
  jobs := .empty
  log := []

/-- What the events, the queue and the worker do. -/
inductive Action where
  /-- `emit` for one endpoint.  It draws a new id for every event. -/
  | emit (event : Uuid) (endpointId : Cuid)
  /-- The worker takes the job. -/
  | start (id : String)
  | look (id : String) (enabled : Bool)
  | create (id : String)
  | answer (id : String) (answer : Answer)
  | update (id : String)
  | updateThrows (id : String) (error : String)
  /-- The write in the `catch` succeeds. -/
  | recordError (id : String)
  /-- The worker adds the next attempt. -/
  | add (id : String)
  | complete (id : String)
  | throw (id : String)
  /-- The worker dies, and the queue takes the stalled job up again or gives up. -/
  | die (id : String) (again : Bool)
  | expire (id : String)

/-- The attempt throws, where it can. -/
def throwing (job : Job DeliveryJob Progress) : Option (Job DeliveryJob Progress) :=
  match job.phase with
  | .active progress => if progress.Throws then job.fail else none
  | _ => none

/-- A job moves; the log stays. -/
def State.modify (state : State) (id : String)
    (change : Job DeliveryJob Progress → Option (Job DeliveryJob Progress)) : Option State :=
  (state.jobs.modify id change).map fun jobs => { state with jobs }

/-- `webhookQueue.add` -/
def State.add (state : State) (id : String) (job : DeliveryJob) : State where
  jobs := state.jobs.add id job
  log := if state.jobs id = none then .queued job :: state.log else state.log

/-- A request is answered, which is logged. -/
def State.answer (state : State) (id : String) (answer : Answer) : Option State :=
  (state.jobs id).bind fun job =>
    (state.modify id (Job.advance (Progress.afterAnswer answer))).map fun state =>
      { state with log := .answered job.data answer :: state.log }

/-- The job of the next attempt is added. -/
def State.addNext (state : State) (id : String) : Option State :=
  (state.jobs id).bind fun job =>
    (state.modify id (Job.advance Progress.afterAdd)).map fun state =>
      state.add (retryId job.data) job.data.next

/-- One step of an event, of the queue or of an attempt. -/
def next : Step State Action
  | state, .emit event endpointId =>
      let job : DeliveryJob := { event, endpointId, attempt := 1 }
      if .queued job ∈ state.log then none else some (state.add (emitId event endpointId) job)
  | state, .start id => state.modify id (Job.start .looking)
  | state, .look id enabled => state.modify id (Job.advance (Progress.afterLook enabled))
  | state, .create id => state.modify id (Job.advance Progress.afterCreate)
  | state, .answer id answer => state.answer id answer
  | state, .update id => state.modify id (Job.advance Progress.afterUpdate)
  | state, .updateThrows id error =>
      state.modify id (Job.advance (Progress.afterUpdateThrows error))
  | state, .recordError id => state.modify id (Job.advance Progress.afterCatch)
  | state, .add id => state.addNext id
  | state, .complete id => state.modify id (Job.complete Progress.Done)
  | state, .throw id => state.modify id throwing
  | state, .die id again => state.modify id (Job.stall again)
  | state, .expire id => (state.jobs.expire id).map fun jobs => { state with jobs }

end RiskRail.Webhooks
