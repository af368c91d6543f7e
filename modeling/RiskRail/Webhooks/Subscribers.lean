import RiskRail.Webhooks.Requests

/-!
# Who is sent what

A fan-out reaches every endpoint that was enabled for the event when it was planned, each of
them once, unless it fails on the way; and an endpoint that is disabled or removed is sent
nothing any more once no lookup of before is under way.
-/

namespace RiskRail.Webhooks

open RiskRail.Javascript Text RiskRail.Queue RiskRail.Relational RiskRail.Transition
open RiskRail.Auth.Bearer (Id RandomKey)

/-! ## Fan-outs -/

/-- The endpoints whose first attempt at the event was queued, the first one first. -/
def firstTargets (event : Uuid) (log : List Effect) : List Cuid :=
  ((addedJobs log).reverse.filter fun job => job.event = event ∧ job.attempt = 1).map
    DeliveryJob.endpointId

/-- The jobs are those that were queued, each under its own id. -/
def Listed (state : State) : Prop :=
  Jobs.All (fun id run =>
    id = deliveryId run.data ∧ .queued run.data ∈ state.log ∧ 1 ≤ run.data.attempt) state.jobs

section Queue

variable {state target : State} {action : Action} {id : String} {job : DeliveryJob}

theorem firstTargets_queued {event : Uuid} {log : List Effect} :
    firstTargets event (.queued job :: log) =
      firstTargets event log ++
        if job.event = event ∧ job.attempt = 1 then [job.endpointId] else [] := by
  unfold firstTargets addedJobs
  rw [List.filterMap_cons_some (by rfl), List.reverse_cons, List.filter_append, List.map_append]
  by_cases first : job.event = event ∧ job.attempt = 1
  · simp [first]
  · simp [first]

theorem mem_firstTargets_iff {event : Uuid} {endpointId : Cuid} {log : List Effect} :
    endpointId ∈ firstTargets event log ↔ .queued ⟨event, endpointId, 1⟩ ∈ log := by
  unfold firstTargets
  simp only [List.mem_map, List.mem_filter, List.mem_reverse, mem_addedJobs_iff,
    decide_eq_true_eq]
  constructor
  · rintro ⟨⟨_, _, _⟩, ⟨queued, rfl, rfl⟩, rfl⟩
    exact queued
  · exact fun queued => ⟨_, ⟨queued, rfl, rfl⟩, rfl⟩

/-- A job under its own id is added, or is there already. -/
theorem listed_add (listed : Listed state) (own : id = deliveryId job) (counted : 1 ≤ job.attempt) :
    Listed (state.add id job) ∧
      ((state.add id job).log = .queued job :: state.log ∨
        (state.add id job).log = state.log ∧ .queued job ∈ state.log) := by
  cases found : state.jobs id with
  | some run =>
      obtain ⟨id_eq, queued, -⟩ := listed id run found
      have same : run.data = job := deliveryId_injective (id_eq.symm.trans own)
      rw [State.add_of_some found]
      exact ⟨listed, .inr ⟨rfl, same ▸ queued⟩⟩
  | none =>
      have log_eq : (state.add id job).log = .queued job :: state.log := if_pos found
      refine ⟨?_, .inl log_eq⟩
      rw [Listed, log_eq]
      refine Jobs.All.add ?_ ⟨own, List.mem_cons_self, counted⟩
      exact listed.mono fun _ _ holds => ⟨holds.1, List.mem_cons_of_mem _ holds.2.1, holds.2.2⟩

/-- Jobs that carry the deliveries of before are listed. -/
theorem Listed.of_update (listed : Listed state) {entry : Option (Job DeliveryJob Progress)}
    (jobs : target.jobs = Function.update state.jobs id entry)
    (log : addedJobs target.log = addedJobs state.log)
    (data : ∀ moved ∈ entry, ∃ run, state.jobs id = some run ∧ moved.data = run.data) :
    Listed target := by
  have queued_iff (job : DeliveryJob) : .queued job ∈ target.log ↔ .queued job ∈ state.log := by
    rw [← mem_addedJobs_iff, log, mem_addedJobs_iff]
  unfold Listed
  rw [jobs]
  simp only [queued_iff]
  refine Jobs.All.update listed ?_
  intro moved member
  obtain ⟨run, found, data_eq⟩ := data moved member
  rw [data_eq]
  exact listed id run found

/-- The endpoint whose first attempt at the event is queued. -/
def Action.firstTarget (event : Uuid) : Action → List Cuid
  | .emit other endpointId => if other = event then [endpointId] else []
  | _ => []

theorem listed_emit (listed : Listed state) {event : Uuid} {endpointId : Cuid}
    (step : next state (.emit event endpointId) = some target) :
    Listed target ∧ ∀ other, firstTargets other target.log =
      firstTargets other state.log ++ Action.firstTarget other (.emit event endpointId) := by
  simp only [next] at step
  split_ifs at step with queued
  cases step
  obtain ⟨added, log_eq | ⟨-, present⟩⟩ := @listed_add state (emitId event endpointId)
    ⟨event, endpointId, 1⟩ listed rfl le_rfl
  · refine ⟨added, fun other => ?_⟩
    rw [log_eq, firstTargets_queued]
    simp [Action.firstTarget]
  · exact absurd present queued

/-- Only `emit` queues a first attempt. -/
theorem listed_next (listed : Listed state) (step : next state action = some target) :
    Listed target ∧ ∀ event, firstTargets event target.log =
      firstTargets event state.log ++ action.firstTarget event := by
  by_cases emits : ∃ event endpointId, action = .emit event endpointId
  · obtain ⟨event, endpointId, rfl⟩ := emits
    exact listed_emit listed step
  · have silent (event : Uuid) : action.firstTarget event = [] := by
      cases action with
      | emit event endpointId => exact absurd ⟨event, endpointId, rfl⟩ emits
      | _ => rfl
    simp only [silent, List.append_nil]
    rcases next_carries step with ⟨id, run, moved, found, leads, jobs, log⟩ |
      ⟨event, endpointId, rfl, -⟩ | ⟨id, run, moved, rfl, found, leads, rfl⟩ | ⟨id, rfl, jobs, log⟩
    · refine ⟨listed.of_update jobs log ?_, fun event => ?_⟩
      · rintro _ ⟨⟩
        exact ⟨run, found, leads.data⟩
      · rw [firstTargets, log, firstTargets]
    · exact absurd ⟨event, endpointId, rfl⟩ emits
    · obtain ⟨-, -, counted⟩ := listed id run found
      have carried : Listed { state with jobs := Function.update state.jobs id (some moved) } := by
        refine listed.of_update rfl rfl ?_
        rintro _ ⟨⟩
        exact ⟨run, found, leads.data⟩
      have later : ¬run.data.attempt + 1 = 1 := by omega
      obtain ⟨added, log_eq | ⟨log_eq, -⟩⟩ := listed_add carried (deliveryId_next counted).symm
        (Nat.le_add_left 1 _)
      · refine ⟨added, fun event => ?_⟩
        rw [log_eq, firstTargets_queued, if_neg fun both => later both.2, List.append_nil]
      · exact ⟨added, fun event => by rw [log_eq]⟩
    · refine ⟨listed.of_update jobs (congrArg addedJobs log) (by simp), fun event => ?_⟩
      rw [log]

end Queue

section Platform

variable {crypto : Crypto} {material : Option Text} {keyed : ByteArray → ByteArray → Mac}
  {parseUrl : Text → Option ParsedUrl} {platform target : Platform}

/-- Each target of a plan has its first attempt, or waits for it, or was lost. -/
structure FannedOut (platform : Platform) : Prop where
  listed : Listed platform.queue
  exact : ∀ plan ∈ platform.plans,
    firstTargets plan.event.id platform.queue.log ++
      (platform.pending plan.event.id ++ platform.lost plan.event.id) = plan.targets
  unplanned : ∀ event, (∀ plan ∈ platform.plans, plan.event.id ≠ event) →
    firstTargets event platform.queue.log = [] ∧ platform.pending event = [] ∧
      platform.lost event = []

theorem fannedOut_initial : FannedOut .initial where
  listed := Jobs.all_empty
  exact _ planned := by cases planned
  unplanned _ _ := ⟨rfl, rfl, rfl⟩

/-- The queue takes a step other than `emit`. -/
theorem FannedOut.next (fannedOut : FannedOut platform) {action : Action} {queue : State}
    (step : next platform.queue action = some queue)
    (silent : ∀ event, action.firstTarget event = []) :
    FannedOut { platform with queue } := by
  obtain ⟨listed, first⟩ := listed_next fannedOut.listed step
  simp only [silent, List.append_nil] at first
  refine ⟨listed, fun plan planned => ?_, fun event unplanned => ?_⟩
  · rw [first]
    exact fannedOut.exact plan planned
  · rw [first]
    exact fannedOut.unplanned event unplanned

theorem FannedOut.plan (fannedOut : FannedOut platform) {event : Event} {targets : List Cuid}
    (unused : event.id ∉ platform.plans.map fun plan => plan.event.id) :
    FannedOut (platform.plan event targets) := by
  have others : ∀ plan ∈ platform.plans, plan.event.id ≠ event.id := fun plan planned same =>
    unused (List.mem_map.mpr ⟨plan, planned, same⟩)
  refine ⟨fannedOut.listed, fun plan planned => ?_, fun uuid unplanned => ?_⟩
  · dsimp only [Platform.plan] at planned ⊢
    rcases List.mem_cons.mp planned with rfl | old
    · obtain ⟨first, -, lost⟩ := fannedOut.unplanned event.id others
      rw [first, lost, Function.update_self, List.append_nil, List.nil_append]
    · rw [Function.update_of_ne (others plan old)]
      exact fannedOut.exact plan old
  · dsimp only [Platform.plan] at unplanned ⊢
    rw [List.forall_mem_cons] at unplanned
    rw [Function.update_of_ne unplanned.1.symm]
    exact fannedOut.unplanned uuid unplanned.2

theorem FannedOut.add (fannedOut : FannedOut platform) {event : Uuid} {endpointId : Cuid}
    (step : platform.add event endpointId = some target) : FannedOut target := by
  obtain ⟨rest, queue, pending, moved, rfl⟩ := Platform.add_eq_some step
  obtain ⟨listed, first⟩ := listed_emit fannedOut.listed moved
  refine ⟨listed, fun plan planned => ?_, fun uuid unplanned => ?_⟩
  · have targets := fannedOut.exact plan planned
    dsimp only
    rw [first]
    by_cases same : plan.event.id = event
    · rw [same] at targets ⊢
      rw [pending] at targets
      rw [Function.update_self, Action.firstTarget, if_pos rfl, List.append_assoc]
      exact targets
    · rw [Function.update_of_ne same, Action.firstTarget, if_neg (Ne.symm same), List.append_nil]
      exact targets
  · obtain ⟨none_first, none_pending, none_lost⟩ := fannedOut.unplanned uuid unplanned
    have other : uuid ≠ event := by
      rintro rfl
      rw [pending] at none_pending
      cases none_pending
    dsimp only
    rw [first, Function.update_of_ne other, Action.firstTarget, if_neg (Ne.symm other),
      List.append_nil]
    exact ⟨none_first, none_pending, none_lost⟩

theorem FannedOut.abandon (fannedOut : FannedOut platform) (event : Uuid) :
    FannedOut
      { platform with
          pending := Function.update platform.pending event []
          lost := Function.update platform.lost event
            (platform.pending event ++ platform.lost event) } := by
  refine ⟨fannedOut.listed, fun plan planned => ?_, fun uuid unplanned => ?_⟩
  · have targets := fannedOut.exact plan planned
    dsimp only
    by_cases same : plan.event.id = event
    · rw [same] at targets ⊢
      rw [Function.update_self, Function.update_self, List.nil_append]
      exact targets
    · rw [Function.update_of_ne same, Function.update_of_ne same]
      exact targets
  · obtain ⟨none_first, none_pending, none_lost⟩ := fannedOut.unplanned uuid unplanned
    dsimp only
    by_cases same : uuid = event
    · subst same
      rw [Function.update_self, Function.update_self, none_pending, none_lost]
      exact ⟨none_first, rfl, rfl⟩
    · rw [Function.update_of_ne same, Function.update_of_ne same]
      exact ⟨none_first, none_pending, none_lost⟩

theorem fannedOut_next {action : PlatformAction} (fannedOut : FannedOut platform)
    (step : platformNext crypto material keyed parseUrl platform action = some target) :
    FannedOut target := by
  cases action with
  | create userId url events random iv id now =>
      simp only [platformNext] at step
      split_ifs at step
      split at step <;> cases step <;> exact ⟨fannedOut.1, fannedOut.2, fannedOut.3⟩
  | setEnabled userId id enabled =>
      simp only [platformNext] at step
      split at step <;> cases step <;> exact ⟨fannedOut.1, fannedOut.2, fannedOut.3⟩
  | remove userId id =>
      simp only [platformNext] at step
      split at step <;> cases step <;> exact ⟨fannedOut.1, fannedOut.2, fannedOut.3⟩
  | plan event targets =>
      simp only [platformNext] at step
      split_ifs at step with used found
      cases step
      exact fannedOut.plan used
  | add event endpointId => exact fannedOut.add step
  | abandon event =>
      cases step
      exact fannedOut.abandon event
  | look id clock =>
      obtain ⟨run, queue, -, ⟨-, moved, rfl⟩ | ⟨row, event, secret, -, -, -, -, -, moved, rfl⟩⟩ :=
        Platform.look_eq_some step
      · exact fannedOut.next moved fun _ => rfl
      · have after := fannedOut.next moved fun _ => rfl
        exact ⟨after.1, after.2, after.3⟩
  | record id =>
      obtain ⟨run, row, queue, -, -, moved, rfl⟩ := Platform.record_eq_some step
      exact fannedOut.next moved fun _ => rfl
  | post id =>
      obtain ⟨run, sending, -, -, -, rfl⟩ := Platform.post_eq_some step
      exact ⟨fannedOut.1, fannedOut.2, fannedOut.3⟩
  | worker action =>
      simp only [platformNext] at step
      split_ifs at step with allowed
      obtain ⟨queue, moved, rfl⟩ := Platform.deliver_eq_some step
      refine fannedOut.next moved fun event => ?_
      cases action with
      | emit other endpointId => exact absurd allowed.1 id
      | _ => rfl

theorem fannedOut_of_run {actions : List PlatformAction}
    (run : exec (platformNext crypto material keyed parseUrl) .initial actions = some platform) :
    FannedOut platform :=
  exec_invariant (fun fannedOut step => fannedOut_next fannedOut step) run fannedOut_initial

/-- A plan is never given up. -/
theorem plans_next {action : PlatformAction}
    (step : platformNext crypto material keyed parseUrl platform action = some target) :
    platform.plans ⊆ target.plans := by
  cases action with
  | create userId url events random iv id now =>
      simp only [platformNext] at step
      split_ifs at step
      split at step <;> cases step <;> exact List.Subset.refl _
  | setEnabled userId id enabled =>
      simp only [platformNext] at step
      split at step <;> cases step <;> exact List.Subset.refl _
  | remove userId id =>
      simp only [platformNext] at step
      split at step <;> cases step <;> exact List.Subset.refl _
  | plan event targets =>
      simp only [platformNext] at step
      split_ifs at step
      cases step
      exact List.subset_cons_self _ _
  | add event endpointId =>
      obtain ⟨rest, queue, -, -, rfl⟩ := Platform.add_eq_some step
      exact List.Subset.refl _
  | abandon event =>
      cases step
      exact List.Subset.refl _
  | look id clock =>
      obtain ⟨run, queue, -, ⟨-, -, rfl⟩ | ⟨row, event, secret, -, -, -, -, -, -, rfl⟩⟩ :=
        Platform.look_eq_some step
      · exact List.Subset.refl _
      · exact List.Subset.refl _
  | record id =>
      obtain ⟨run, row, queue, -, -, -, rfl⟩ := Platform.record_eq_some step
      exact List.Subset.refl _
  | post id =>
      obtain ⟨run, sending, -, -, -, rfl⟩ := Platform.post_eq_some step
      exact List.Subset.refl _
  | worker action =>
      simp only [platformNext] at step
      split_ifs at step
      obtain ⟨queue, -, rfl⟩ := Platform.deliver_eq_some step
      exact List.Subset.refl _

theorem plans_of_run {actions : List PlatformAction}
    (run : exec (platformNext crypto material keyed parseUrl) platform actions = some target) :
    platform.plans ⊆ target.plans :=
  fun _ planned => exec_invariant (fun held step => plans_next step held) run planned

/-- A target that waits can be added. -/
theorem FannedOut.add_ne_none (fannedOut : FannedOut platform) {plan : Plan}
    (planned : plan ∈ platform.plans) (distinct : plan.targets.Nodup) {endpointId : Cuid}
    {rest : List Cuid} (pending : platform.pending plan.event.id = endpointId :: rest) :
    platform.add plan.event.id endpointId ≠ none := by
  have targets := fannedOut.exact plan planned
  rw [pending] at targets
  have unqueued : .queued ⟨plan.event.id, endpointId, 1⟩ ∉ platform.queue.log := by
    intro queued
    rw [← targets, List.nodup_append] at distinct
    exact distinct.2.2 endpointId (mem_firstTargets_iff.mpr queued) endpointId
      List.mem_cons_self rfl
  unfold Platform.add Platform.deliver
  rw [pending]
  dsimp only
  rw [if_pos rfl, Webhooks.next, if_neg unqueued]
  exact Option.some_ne_none _

/-- The endpoints that were enabled for the event when its fan-out was planned are those whose
first attempt is queued, once each and in the order of the plan, followed by those that wait for
it and those that a failure of the fan-out has lost.  The next that waits can always be added. -/
theorem fan_out_exact {before after : List PlatformAction} {event : Event} {targets : List Cuid}
    (run : exec (platformNext crypto material keyed parseUrl) .initial
      (before ++ .plan event targets :: after) = some platform) :
    ∃ middle, exec (platformNext crypto material keyed parseUrl) .initial before = some middle ∧
      (∀ endpointId, endpointId ∈ targets ↔ ∃ row ∈ middle.endpoints.rows,
        row.id = endpointId ∧ row.enabled = true ∧ event.type ∈ row.events) ∧
      targets.Nodup ∧
      firstTargets event.id platform.queue.log ++
        (platform.pending event.id ++ platform.lost event.id) = targets ∧
      ∀ endpointId rest, platform.pending event.id = endpointId :: rest →
        platformNext crypto material keyed parseUrl platform (.add event.id endpointId) ≠ none := by
  have fannedOut := fannedOut_of_run run
  obtain ⟨middle, reached, later⟩ := exec_append_eq_some_iff.mp run
  obtain ⟨planned, step, rest⟩ := exec_cons_eq_some_iff.mp later
  simp only [platformNext] at step
  split_ifs at step with used found
  cases step
  have member : ⟨event, targets⟩ ∈ platform.plans :=
    plans_of_run rest List.mem_cons_self
  have distinct : targets.Nodup := found.nodup_iff.mpr (nodup_planDeliveries _ _)
  refine ⟨middle, reached, fun endpointId => ?_, distinct, fannedOut.exact _ member, ?_⟩
  · rw [found.mem_iff, mem_planDeliveries_iff]
  · intro endpointId rest pending
    exact fannedOut.add_ne_none member distinct pending

theorem fan_out_exact_one :
    ∃ platform, exec platformNow .initial oneRequest = some platform ∧
      firstTargets someEvent.id platform.queue.log ++
        (platform.pending someEvent.id ++ platform.lost someEvent.id) = [storedEndpoint] := by
  have isSome : (exec platformNow .initial oneRequest).isSome = true := by
    decide +kernel
  obtain ⟨platform, run⟩ := Option.isSome_iff_exists.mp isSome
  obtain ⟨middle, -, -, -, exact, -⟩ := @fan_out_exact _ _ _ _ _ (oneRequest.take 1)
    (oneRequest.drop 2) someEvent [storedEndpoint] run
  exact ⟨platform, run, exact⟩

/-! ## Attempts -/

/-- The queue of the platform runs as the deliveries do by themselves.  While the answers stand,
the first attempt and its retries are numbered from one to at most five, each queued once, and an
endpoint is attempted exactly if the fan-out has come to it. -/
theorem attempts_follow_plan {actions : List PlatformAction}
    (run : exec (platformNext crypto material keyed parseUrl) .initial actions = some platform) :
    let deliveries := labels (platformNext crypto material keyed parseUrl) deliveryAction .initial
      actions
    exec next .initial deliveries = some platform.queue ∧
      (Along next AnswersStand .initial deliveries →
        DeliversOnce platform.queue.log ∧
        ∀ plan ∈ platform.plans, ∀ endpointId,
          attemptsQueued plan.event.id endpointId platform.queue.log ≠ [] ↔
            ∃ rest, endpointId ∈ firstTargets plan.event.id platform.queue.log ∧
              firstTargets plan.event.id platform.queue.log ++ rest = plan.targets) := by
  intro deliveries
  have projected : exec next .initial deliveries = some platform.queue :=
    projects_queue.exec_labels run
  refine ⟨projected, fun stands => ?_⟩
  have once := (stands.invariant Invariant.next projected invariant_initial).once
  refine ⟨once, fun plan planned endpointId => ?_⟩
  have exact := (fannedOut_of_run run).exact plan planned
  obtain ⟨k, -, numbers, queued⟩ := once.queued_iff ⟨plan.event.id, endpointId, 1⟩
  have first : .queued ⟨plan.event.id, endpointId, 1⟩ ∈ platform.queue.log ↔ 1 ≤ k := by
    rw [show (⟨plan.event.id, endpointId, 1⟩ : DeliveryJob) =
      DeliveryJob.numbered ⟨plan.event.id, endpointId, 1⟩ 1 from rfl, queued]
    omega
  rw [numbers, mem_firstTargets_iff, first, ne_eq, List.reverse_eq_nil_iff, List.range'_eq_nil_iff]
  constructor
  · intro positive
    exact ⟨_, Nat.one_le_iff_ne_zero.mpr positive, exact⟩
  · rintro ⟨rest, positive, -⟩
    exact Nat.one_le_iff_ne_zero.mp positive

end Platform

theorem attempts_follow_plan_one :
    ∃ platform, exec platformNow .initial oneRequest = some platform ∧
      DeliversOnce platform.queue.log := by
  have isSome : (exec platformNow .initial oneRequest).isSome = true := by
    decide +kernel
  obtain ⟨platform, run⟩ := Option.isSome_iff_exists.mp isSome
  obtain ⟨-, follow⟩ := attempts_follow_plan run
  exact ⟨platform, run, (follow (by decide +kernel)).1⟩

/-! ## Endpoints that are sent nothing -/

section Quiet

variable {crypto : Crypto} {material : Option Text} {keyed : ByteArray → ByteArray → Mac}
  {parseUrl : Text → Option ParsedUrl} {platform target : Platform}

/-- The endpoint is removed, or it is disabled and no lookup has led a run to it; and no run
that has created its delivery has still to send the request. -/
structure Quiet (endpointId : Cuid) (platform : Platform) : Prop where
  created : endpointId ∈ platform.created.map CreatedEndpoint.id
  posted : Jobs.All (fun id run => run.data.endpointId = endpointId →
    run.phase = .active .posting → platform.prepared id = none) platform.queue.jobs
  disabled : ∀ row ∈ platform.endpoints.rows, row.id = endpointId →
    row.enabled = false ∧
      Jobs.All (fun _ run => run.data.endpointId = endpointId → run.phase ≠ .active .creating)
        platform.queue.jobs

/-- The rows keep their ids, and none is enabled. -/
theorem Quiet.endpoints {endpointId : Cuid} {endpoints : Table Endpoint.id}
    (quiet : Quiet endpointId platform)
    (kept : ∀ row ∈ endpoints.rows, row.id = endpointId → ∃ old ∈ platform.endpoints.rows,
      old.id = endpointId ∧ (old.enabled = false → row.enabled = false)) :
    Quiet endpointId { platform with endpoints } := by
  refine ⟨quiet.created, quiet.posted, fun row stored same => ?_⟩
  obtain ⟨old, member, old_id, disabled⟩ := kept row stored same
  obtain ⟨off, idle⟩ := quiet.disabled old member old_id
  exact ⟨disabled off, idle⟩

/-- A step of the queue leads no run to the creation, and none of the endpoint to the
request. -/
theorem Quiet.queue {endpointId : Cuid} (quiet : Quiet endpointId platform) {action : Action}
    {queue : State} (step : next platform.queue action = some queue)
    (looked : ∀ id, action ≠ .look id true)
    (recorded : ∀ id run, action = .create id → platform.queue.jobs id = some run →
      run.data.endpointId ≠ endpointId) :
    Quiet endpointId { platform with queue } := by
  refine ⟨quiet.created, all_of_next step quiet.posted ?_ ?_ ?_, fun row stored same => ?_⟩
  · intro id run moved found _ leads same posting
    rw [leads.data] at same
    exact absurd same (recorded id run (leads.posting posting).1 found)
  · intro event target _ _ posting
    cases posting
  · intro id run _ _ posting
    cases posting
  · obtain ⟨off, idle⟩ := quiet.disabled row stored same
    refine ⟨off, all_of_next step idle ?_ ?_ ?_⟩
    · intro id run moved _ _ leads _ creating
      exact looked id (leads.creating creating)
    · intro event target _ _ creating
      cases creating
    · intro id run _ _ creating
      cases creating

/-- A lookup that finds an enabled endpoint finds another one. -/
theorem Quiet.look {endpointId : Cuid} (quiet : Quiet endpointId platform) {id : String}
    {clock : TimeValue} (step : platform.look crypto material keyed id clock = some target) :
    Quiet endpointId target ∧ target.sent = platform.sent := by
  obtain ⟨run, queue, found, ⟨-, moved, rfl⟩ | ⟨row, event, secret, -, row_eq, enabled, -, -,
    moved, rfl⟩⟩ := Platform.look_eq_some step
  · exact ⟨quiet.queue moved nofun nofun, rfl⟩
  · obtain ⟨first, changed, found', change_eq, rfl⟩ := State.modify_eq_some moved
    cases found.symm.trans found'
    obtain ⟨progress, advanced, running, advance_eq, rfl⟩ := Job.advance_eq_some change_eq
    refine ⟨⟨quiet.created, Jobs.all_update ?_ ?_, fun other stored same => ?_⟩, rfl⟩
    · intro other differs job member same posting
      dsimp only
      rw [Function.update_of_ne differs]
      exact quiet.posted other job member same posting
    · rintro _ ⟨⟩ _ ⟨⟩
      cases progress with
      | looking => cases advance_eq
      | _ => cases advance_eq
    · obtain ⟨off, idle⟩ := quiet.disabled other stored same
      refine ⟨off, Jobs.All.update idle ?_⟩
      obtain ⟨stored', row_id⟩ := Platform.endpoint_eq_some row_eq
      rintro _ ⟨⟩ same'
      have rows : row = other := platform.endpoints.eq_of_key_eq stored' stored
        (row_id.trans (same'.trans same.symm))
      rw [rows, off] at enabled
      cases enabled

/-- A delivery is created for another endpoint. -/
theorem Quiet.record {endpointId : Cuid} (quiet : Quiet endpointId platform) {id : String}
    (step : platform.record id = some target) :
    Quiet endpointId target ∧ target.sent = platform.sent := by
  obtain ⟨run, row, queue, found, row_eq, moved, rfl⟩ := Platform.record_eq_some step
  refine ⟨quiet.queue moved nofun ?_, rfl⟩
  rintro _ other ⟨⟩ found' same
  cases found.symm.trans found'
  obtain ⟨first, changed, found'', change_eq, -⟩ := State.modify_eq_some moved
  cases found.symm.trans found''
  obtain ⟨progress, advanced, running, advance_eq, -⟩ := Job.advance_eq_some change_eq
  obtain ⟨stored, row_id⟩ := Platform.endpoint_eq_some row_eq
  cases progress with
  | creating => exact (quiet.disabled row stored (row_id.trans same)).2 id run found same running
  | _ => cases advance_eq

/-- A request is sent to another endpoint. -/
theorem Quiet.post {endpointId : Cuid} (quiet : Quiet endpointId platform)
    (sound : Sound crypto material keyed platform) {id : String}
    (step : platform.post id = some target) :
    Quiet endpointId target ∧
      target.sent.filter (fun sent => sent.job.endpointId = endpointId) =
        platform.sent.filter fun sent => sent.job.endpointId = endpointId := by
  obtain ⟨run, sending, found, posting, prepared, rfl⟩ := Platform.post_eq_some step
  refine ⟨⟨quiet.created, ?_, quiet.disabled⟩, ?_⟩
  · intro other job member same isPosting
    dsimp only
    by_cases own : other = id
    · rw [own, Function.update_self]
    · rw [Function.update_of_ne own]
      exact quiet.posted other job member same isPosting
  · have job_eq := ((sound.jobs id run found).2 (.inr posting) sending prepared).1
    have differs : sending.job.endpointId ≠ endpointId := by
      intro same
      rw [job_eq] at same
      rw [quiet.posted id run found same posting] at prepared
      cases prepared
    dsimp only
    rw [List.filter_cons_of_neg (by simpa using differs)]

/-- A created endpoint is another one. -/
theorem Quiet.create {endpointId : Cuid} (quiet : Quiet endpointId platform) {userId : Id}
    {url : Text} {events : List Text} {random : RandomKey} {iv : Iv} {id : Cuid} {now : ℕ}
    {created : CreatedEndpoint} {endpoints : Table Endpoint.id}
    (unused : id ∉ platform.created.map CreatedEndpoint.id)
    (made : Webhooks.create crypto material parseUrl platform.endpoints userId url events random iv
      id now = .ok (created, endpoints)) :
    Quiet endpointId { platform with endpoints, created := created :: platform.created } := by
  obtain ⟨-, row, -, row_id, -, -, rfl, -⟩ := create_eq_ok made
  refine ⟨List.mem_cons_of_mem _ quiet.created, quiet.posted, fun other stored same => ?_⟩
  rcases Table.mem_upsert_iff.mp stored with rfl | ⟨old, -⟩
  · rw [← row_id, same] at unused
    exact absurd quiet.created unused
  · exact quiet.disabled other old same

/-- The endpoint stays disabled as long as it is not enabled itself. -/
theorem Quiet.setEnabled {endpointId : Cuid} (quiet : Quiet endpointId platform) {userId : Id}
    {id : String} {enabled : Bool} {endpoints : Table Endpoint.id}
    (off : ¬(id = endpointId.text ∧ enabled = true))
    (set : Webhooks.setEnabled platform.endpoints userId id enabled = .ok endpoints) :
    Quiet endpointId { platform with endpoints } := by
  obtain ⟨-, rfl⟩ := setEnabled_eq_ok set
  refine quiet.endpoints fun row stored same => ?_
  obtain ⟨old, member, rfl⟩ := Table.mem_update_iff.mp stored
  rw [Endpoint.enable_id] at same
  refine ⟨old, member, same, fun disabled => ?_⟩
  unfold Endpoint.enable
  split
  next named =>
    rw [same] at named
    exact Bool.eq_false_iff.mpr fun on => off ⟨named.symm, on⟩
  next => exact disabled

/-- A removal takes rows out. -/
theorem Quiet.remove {endpointId : Cuid} (quiet : Quiet endpointId platform) {userId : Id}
    {id : String} {endpoints : Table Endpoint.id}
    (removed : Webhooks.remove platform.endpoints userId id = .ok endpoints) :
    Quiet endpointId { platform with endpoints } := by
  obtain ⟨-, rfl⟩ := remove_eq_ok removed
  refine quiet.endpoints fun row stored same => ?_
  exact ⟨row, (Table.mem_delete_iff.mp stored).1, same, fun disabled => disabled⟩

/-- No step but enabling the endpoint sends it anything or makes that possible. -/
theorem quiet_next {endpointId : Cuid} {action : PlatformAction}
    (sound : Sound crypto material keyed platform) (quiet : Quiet endpointId platform)
    (off : ∀ userId, action ≠ .setEnabled userId endpointId.text true)
    (step : platformNext crypto material keyed parseUrl platform action = some target) :
    Quiet endpointId target ∧
      target.sent.filter (fun sent => sent.job.endpointId = endpointId) =
        platform.sent.filter fun sent => sent.job.endpointId = endpointId := by
  cases action with
  | create userId url events random iv id now =>
      simp only [platformNext] at step
      split_ifs at step with unused
      split at step
      next made =>
        cases step
        exact ⟨quiet.create unused made, rfl⟩
      next =>
        cases step
        exact ⟨quiet, rfl⟩
  | setEnabled userId id enabled =>
      simp only [platformNext] at step
      split at step
      next set =>
        cases step
        refine ⟨quiet.setEnabled ?_ set, rfl⟩
        rintro ⟨rfl, rfl⟩
        exact off userId rfl
      next =>
        cases step
        exact ⟨quiet, rfl⟩
  | remove userId id =>
      simp only [platformNext] at step
      split at step
      next removed =>
        cases step
        exact ⟨quiet.remove removed, rfl⟩
      next =>
        cases step
        exact ⟨quiet, rfl⟩
  | plan event targets =>
      simp only [platformNext] at step
      split_ifs at step
      cases step
      exact ⟨⟨quiet.1, quiet.2, quiet.3⟩, rfl⟩
  | add event target =>
      obtain ⟨rest, queue, -, moved, rfl⟩ := Platform.add_eq_some step
      have after := quiet.queue moved (fun _ same => by cases same)
        (fun _ _ same _ => by cases same)
      exact ⟨⟨after.1, after.2, after.3⟩, rfl⟩
  | abandon event =>
      cases step
      exact ⟨⟨quiet.1, quiet.2, quiet.3⟩, rfl⟩
  | look id clock =>
      obtain ⟨after, sent⟩ := quiet.look step
      exact ⟨after, by rw [sent]⟩
  | record id =>
      obtain ⟨after, sent⟩ := quiet.record step
      exact ⟨after, by rw [sent]⟩
  | post id => exact quiet.post sound step
  | worker action =>
      simp only [platformNext] at step
      split_ifs at step with allowed
      obtain ⟨queue, moved, rfl⟩ := Platform.deliver_eq_some step
      refine ⟨quiet.queue moved ?_ ?_, rfl⟩
      · rintro id rfl
        exact allowed.1
      · rintro id run rfl
        exact absurd allowed.1 fun held => held

end Quiet

/-- The first attempt is queued, and then the owner removes the endpoint. -/
def removal : List PlatformAction :=
  oneRequest.take 3 ++ [.remove someUser storedEndpoint.text]

/-- The worker takes the attempt up. -/
def attemptAfterRemoval : List PlatformAction :=
  [.worker (.start (emitId storedEvent storedEndpoint)),
    .look (emitId storedEvent storedEndpoint) someClock,
    .worker (.complete (emitId storedEvent storedEndpoint))]

end RiskRail.Webhooks
