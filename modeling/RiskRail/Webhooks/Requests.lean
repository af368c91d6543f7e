import RiskRail.Webhooks.Platform
import RiskRail.Webhooks.Retries

/-!
# What the platform sends

Whatever interleaves, the queue of the platform is a queue of deliveries, and each request goes
to an endpoint that is for its type of event and carries a signature under the secret that was
returned when that endpoint was created.
-/

namespace RiskRail.Webhooks

open RiskRail.Javascript Text RiskRail.Queue RiskRail.Relational RiskRail.Transition
open RiskRail.Auth.Bearer (Id RandomKey)
open RiskRail.Numeric (IsBinary64)

/-! ## A step of the queue -/

section Queue

variable {state target : State} {action : Action} {id : String}
  {change : Job DeliveryJob Progress → Option (Job DeliveryJob Progress)}

/-- The job that was added. -/
def Effect.added : Effect → Option DeliveryJob
  | .queued job => some job
  | .answered _ _ => none

/-- The jobs that were added, the newest first. -/
def addedJobs (log : List Effect) : List DeliveryJob :=
  log.filterMap Effect.added

theorem mem_addedJobs_iff {job : DeliveryJob} {log : List Effect} :
    job ∈ addedJobs log ↔ .queued job ∈ log := by
  unfold addedJobs
  rw [List.mem_filterMap]
  constructor
  · rintro ⟨effect, member, added⟩
    cases effect with
    | queued other =>
        cases added
        exact member
    | answered other answer => cases added
  · exact fun queued => ⟨_, queued, rfl⟩

/-- The job goes on with its own delivery.  Only a lookup leads it to the creation, and only
the creation to the request. -/
structure Leads (action : Action) (id : String) (run moved : Job DeliveryJob Progress) : Prop where
  data : moved.data = run.data
  creating : moved.phase = .active .creating → action = .look id true
  posting : moved.phase = .active .posting → action = .create id ∧ run.phase = .active .creating

/-- One job goes on. -/
def Carries (state target : State) (action : Action) : Prop :=
  ∃ id run moved, state.jobs id = some run ∧ Leads action id run moved ∧
    target.jobs = Function.update state.jobs id (some moved) ∧
    addedJobs target.log = addedJobs state.log

theorem carries_modify (step : state.modify id change = some target)
    (leads : ∀ run moved, change run = some moved → Leads action id run moved) :
    Carries state target action := by
  obtain ⟨run, moved, found, change_eq, rfl⟩ := State.modify_eq_some step
  exact ⟨id, run, moved, found, leads run moved change_eq, rfl, rfl⟩

theorem carries_advance {advance : DeliveryJob → Progress → Option Progress}
    (step : state.modify id (Job.advance advance) = some target)
    (leads : ∀ job progress advanced, advance job progress = some advanced →
      (advanced = .creating → action = .look id true) ∧
        (advanced = .posting → action = .create id ∧ progress = .creating)) :
    Carries state target action := by
  apply carries_modify step
  intro run moved change_eq
  obtain ⟨progress, advanced, running, advance_eq, rfl⟩ := Job.advance_eq_some change_eq
  obtain ⟨creating, posting⟩ := leads run.data progress advanced advance_eq
  constructor
  · rfl
  · rintro ⟨⟩
    exact creating rfl
  · rintro ⟨⟩
    obtain ⟨creates, rfl⟩ := posting rfl
    exact ⟨creates, running⟩

/-- The job goes on elsewhere. -/
theorem leads_aside {run : Job DeliveryJob Progress} {phase : JobPhase Progress}
    (creating : phase ≠ .active .creating) (posting : phase ≠ .active .posting) :
    Leads action id run { run with phase } where
  data := rfl
  creating isCreating := absurd isCreating creating
  posting isPosting := absurd isPosting posting

/-- The run of the job is over. -/
theorem leads_end {run moved : Job DeliveryJob Progress} (data : moved.data = run.data)
    (ended : moved.phase = .waiting ∨ moved.phase = .failed) : Leads action id run moved where
  data := data
  creating isCreating := absurd isCreating (JobPhase.ne_active_of_ended ended _)
  posting isPosting := absurd isPosting (JobPhase.ne_active_of_ended ended _)

/-- A step carries a job, adds the first attempt or the next one, or removes a job. -/
theorem next_carries (step : next state action = some target) :
    Carries state target action ∨
      (∃ event endpointId, action = .emit event endpointId ∧
        .queued ⟨event, endpointId, 1⟩ ∉ state.log ∧
        target = state.add (emitId event endpointId) ⟨event, endpointId, 1⟩) ∨
      (∃ id run moved, action = .add id ∧ state.jobs id = some run ∧ Leads action id run moved ∧
        target = ({ state with jobs := Function.update state.jobs id (some moved) } : State).add
          (retryId run.data) run.data.next) ∨
      ∃ id, action = .expire id ∧ target.jobs = Function.update state.jobs id none ∧
        target.log = state.log := by
  cases action with
  | emit event endpointId =>
      simp only [next] at step
      split_ifs at step with queued
      cases step
      exact .inr (.inl ⟨event, endpointId, rfl, queued, rfl⟩)
  | start id =>
      refine .inl (carries_modify step fun run moved started => ?_)
      obtain ⟨-, rfl⟩ := Job.start_eq_some started
      exact leads_aside nofun nofun
  | look id enabled =>
      refine .inl (carries_advance step fun job progress advanced advance_eq => ?_)
      cases progress with
      | looking =>
          cases enabled with
          | true =>
              cases advance_eq
              exact ⟨fun _ => rfl, nofun⟩
          | false =>
              cases advance_eq
              exact ⟨nofun, nofun⟩
      | _ => cases advance_eq
  | create id =>
      refine .inl (carries_advance step fun job progress advanced advance_eq => ?_)
      cases progress with
      | creating =>
          cases advance_eq
          exact ⟨nofun, fun _ => ⟨rfl, rfl⟩⟩
      | _ => cases advance_eq
  | answer id answer =>
      obtain ⟨run, advanced, found, -, advance_eq, rfl⟩ := State.answer_eq_some step
      refine .inl ⟨id, run, { run with phase := .active advanced }, found, ?_, rfl, rfl⟩
      cases answer with
      | status code =>
          cases advance_eq
          exact leads_aside nofun nofun
      | noResponse error =>
          cases advance_eq
          exact leads_aside nofun nofun
  | update id =>
      refine .inl (carries_advance step fun job progress advanced advance_eq => ?_)
      cases progress with
      | updating status =>
          cases advance_eq
          exact ⟨nofun, nofun⟩
      | _ => cases advance_eq
  | updateThrows id error =>
      refine .inl (carries_advance step fun job progress advanced advance_eq => ?_)
      cases progress with
      | updating status =>
          cases advance_eq
          exact ⟨nofun, nofun⟩
      | _ => cases advance_eq
  | recordError id =>
      refine .inl (carries_advance step fun job progress advanced advance_eq => ?_)
      cases progress with
      | catching error =>
          cases advance_eq
          exact ⟨nofun, nofun⟩
      | _ => cases advance_eq
  | add id =>
      obtain ⟨run, found, mapped⟩ := Option.bind_eq_some_iff.mp step
      obtain ⟨middle, modified, rfl⟩ := Option.map_eq_some_iff.mp mapped
      obtain ⟨other, moved, same, change_eq, rfl⟩ := State.modify_eq_some modified
      cases found.symm.trans same
      obtain ⟨progress, advanced, -, advance_eq, rfl⟩ := Job.advance_eq_some change_eq
      cases progress with
      | returned outcome =>
          simp only [Progress.afterAdd] at advance_eq
          split_ifs at advance_eq
          cases advance_eq
          exact .inr (.inr (.inl ⟨id, run, { run with phase := .active .queued }, rfl, found,
            leads_aside nofun nofun, rfl⟩))
      | _ => cases advance_eq
  | complete id =>
      refine .inl (carries_modify step fun run moved completed => ?_)
      obtain ⟨progress, -, -, rfl⟩ := Job.complete_eq_some completed
      exact leads_aside nofun nofun
  | throw id =>
      refine .inl (carries_modify step fun run moved thrown => ?_)
      obtain ⟨data, -, ended⟩ := Job.fail_eq_some (throwing_eq_some thrown)
      exact leads_end data ended
  | die id again =>
      refine .inl (carries_modify step fun run moved died => ?_)
      obtain ⟨data, -, ended⟩ := Job.stall_eq_some died
      exact leads_end data ended
  | expire id =>
      obtain ⟨jobs, expired, rfl⟩ := Option.map_eq_some_iff.mp step
      unfold Jobs.expire at expired
      split at expired
      next =>
        split_ifs at expired
        cases expired
        exact .inr (.inr (.inr ⟨id, rfl, rfl, rfl⟩))
      next => cases expired

/-- What holds of every job, if a job that goes on keeps it and an added job has it. -/
theorem all_of_next {holds : String → Job DeliveryJob Progress → Prop}
    (step : next state action = some target) (all : Jobs.All holds state.jobs)
    (carried : ∀ id run moved, state.jobs id = some run → holds id run →
      Leads action id run moved → holds id moved)
    (emitted : ∀ event endpointId, action = .emit event endpointId →
      holds (emitId event endpointId) (.added ⟨event, endpointId, 1⟩))
    (retried : ∀ id run, holds id run → holds (retryId run.data) (.added run.data.next)) :
    Jobs.All holds target.jobs := by
  rcases next_carries step with ⟨id, run, moved, found, leads, jobs, -⟩ |
    ⟨event, endpointId, rfl, -, rfl⟩ | ⟨id, run, moved, rfl, found, leads, rfl⟩ | ⟨id, rfl, jobs, -⟩
  · rw [jobs]
    refine all.update ?_
    rintro _ ⟨⟩
    exact carried id run moved found (all id run found) leads
  · exact all.add (emitted event endpointId rfl)
  · refine Jobs.All.add (all.update ?_) (retried id run (all id run found))
    rintro _ ⟨⟩
    exact carried id run moved found (all id run found) leads
  · rw [jobs]
    exact all.update (by simp)

end Queue

/-! ## A step of the platform -/

section

variable {crypto : Crypto} {material : Option Text} {keyed : ByteArray → ByteArray → Mac}
  {parseUrl : Text → Option ParsedUrl} {platform target : Platform} {id : String}

theorem Platform.deliver_eq_some {action : Action}
    (step : platform.deliver action = some target) :
    ∃ queue, next platform.queue action = some queue ∧ target = { platform with queue } := by
  obtain ⟨queue, moved, rfl⟩ := Option.map_eq_some_iff.mp step
  exact ⟨queue, moved, rfl⟩

theorem Platform.endpoint_eq_some {endpointId : Cuid} {row : Endpoint}
    (found : platform.endpoint endpointId = some row) :
    row ∈ platform.endpoints.rows ∧ row.id = endpointId := by
  have same := List.find?_some found
  exact ⟨List.mem_of_find?_eq_some found, of_decide_eq_true same⟩

theorem Platform.event_eq_some {event : Event} {uuid : Uuid}
    (found : platform.event uuid = some event) :
    ∃ plan ∈ platform.plans, plan.event = event ∧ event.id = uuid := by
  obtain ⟨plan, planned, rfl⟩ := Option.map_eq_some_iff.mp found
  have same := List.find?_some planned
  exact ⟨plan, List.mem_of_find?_eq_some planned, rfl, of_decide_eq_true same⟩

/-- The endpoint of the job is there and enabled. -/
def Platform.reaches (platform : Platform) (id : String) : Bool :=
  (platform.queue.jobs id).any fun run =>
    (platform.endpoint run.data.endpointId).any Endpoint.enabled

/-- A lookup finds no enabled endpoint, or it prepares the request for one. -/
theorem Platform.look_eq_some {clock : TimeValue}
    (step : platform.look crypto material keyed id clock = some target) :
    ∃ run queue, platform.queue.jobs id = some run ∧
      (platform.reaches id = false ∧ next platform.queue (.look id false) = some queue ∧
          target = { platform with queue } ∨
        ∃ row event secret, platform.reaches id = true ∧
          platform.endpoint run.data.endpointId = some row ∧ row.enabled = true ∧
          platform.event run.data.event = some event ∧
          decryptSecret crypto material row.secretCipher = .ok secret ∧
          next platform.queue (.look id true) = some queue ∧
          target =
            { platform with
                queue
                prepared := Function.update platform.prepared id
                  (some (request keyed run.data event row.url secret clock)) }) := by
  obtain ⟨run, found, step⟩ := Option.bind_eq_some_iff.mp step
  have reaches_eq : platform.reaches id =
      (platform.endpoint run.data.endpointId).any Endpoint.enabled := by
    rw [reaches, found]
    rfl
  rw [reaches_eq]
  cases row_eq : platform.endpoint run.data.endpointId with
  | none =>
      rw [row_eq] at step
      obtain ⟨queue, moved, rfl⟩ := deliver_eq_some step
      exact ⟨run, queue, found, .inl ⟨rfl, moved, rfl⟩⟩
  | some row =>
      rw [row_eq] at step
      dsimp only at step
      split at step
      next disabled =>
        obtain ⟨queue, moved, rfl⟩ := deliver_eq_some step
        exact ⟨run, queue, found, .inl ⟨disabled, moved, rfl⟩⟩
      next enabled =>
        rw [Bool.not_eq_false] at enabled
        obtain ⟨event, event_eq, step⟩ := Option.bind_eq_some_iff.mp step
        cases secret_eq : decryptSecret crypto material row.secretCipher with
        | error error =>
            rw [secret_eq] at step
            cases step
        | ok secret =>
            rw [secret_eq] at step
            obtain ⟨middle, delivered, rfl⟩ := Option.map_eq_some_iff.mp step
            obtain ⟨queue, moved, rfl⟩ := deliver_eq_some delivered
            exact ⟨run, queue, found, .inr ⟨row, event, secret, enabled, row_eq, enabled, event_eq,
              secret_eq, moved, rfl⟩⟩

theorem Platform.record_eq_some (step : platform.record id = some target) :
    ∃ run row queue, platform.queue.jobs id = some run ∧
      platform.endpoint run.data.endpointId = some row ∧
      next platform.queue (.create id) = some queue ∧ target = { platform with queue } := by
  obtain ⟨run, found, step⟩ := Option.bind_eq_some_iff.mp step
  obtain ⟨row, row_eq, step⟩ := Option.bind_eq_some_iff.mp step
  obtain ⟨queue, moved, rfl⟩ := deliver_eq_some step
  exact ⟨run, row, queue, found, row_eq, moved, rfl⟩

theorem Platform.post_eq_some (step : platform.post id = some target) :
    ∃ run request, platform.queue.jobs id = some run ∧ run.phase = .active .posting ∧
      platform.prepared id = some request ∧
      target =
        { platform with
            prepared := Function.update platform.prepared id none
            sent := request :: platform.sent } := by
  obtain ⟨run, found, step⟩ := Option.bind_eq_some_iff.mp step
  split_ifs at step with posting
  obtain ⟨request, prepared, rfl⟩ := Option.map_eq_some_iff.mp step
  exact ⟨run, request, found, posting, prepared, rfl⟩

theorem Platform.add_eq_some {event : Uuid} {endpointId : Cuid}
    (step : platform.add event endpointId = some target) :
    ∃ rest queue, platform.pending event = endpointId :: rest ∧
      next platform.queue (.emit event endpointId) = some queue ∧
      target =
        { platform with queue, pending := Function.update platform.pending event rest } := by
  unfold add at step
  split at step
  next => cases step
  next head rest pending =>
    split_ifs at step with same
    obtain ⟨middle, delivered, rfl⟩ := Option.map_eq_some_iff.mp step
    obtain ⟨queue, moved, rfl⟩ := deliver_eq_some delivered
    exact ⟨rest, queue, by rw [pending, same], moved, rfl⟩

/-- The step of the queue that a step of the platform takes. -/
def deliveryAction (platform : Platform) : PlatformAction → Option Action
  | .add event endpointId => some (.emit event endpointId)
  | .look id _ => some (.look id (platform.reaches id))
  | .record id => some (.create id)
  | .worker action => some action
  | .create .. | .setEnabled .. | .remove .. | .plan .. | .abandon _ | .post _ => none

/-- The queue of the platform does what the deliveries do. -/
theorem projects_queue :
    Projects (platformNext crypto material keyed parseUrl) next Platform.queue deliveryAction := by
  intro source action target step
  cases action with
  | create userId url events random iv id now =>
      simp only [platformNext] at step
      split_ifs at step
      split at step <;> cases step <;> rfl
  | setEnabled userId id enabled =>
      simp only [platformNext] at step
      split at step <;> cases step <;> rfl
  | remove userId id =>
      simp only [platformNext] at step
      split at step <;> cases step <;> rfl
  | plan event targets =>
      simp only [platformNext] at step
      split_ifs at step
      cases step
      rfl
  | add event endpointId =>
      obtain ⟨rest, queue, -, moved, rfl⟩ := Platform.add_eq_some step
      exact moved
  | abandon event =>
      cases step
      rfl
  | look id clock =>
      obtain ⟨run, queue, -, ⟨missed, moved, rfl⟩ | ⟨row, event, secret, found, -, -, -, -, moved,
        rfl⟩⟩ := Platform.look_eq_some step
      · dsimp only [deliveryAction]
        rw [missed]
        exact moved
      · dsimp only [deliveryAction]
        rw [found]
        exact moved
  | record id =>
      obtain ⟨run, row, queue, -, -, moved, rfl⟩ := Platform.record_eq_some step
      exact moved
  | post id =>
      obtain ⟨run, request, -, -, -, rfl⟩ := Platform.post_eq_some step
      rfl
  | worker action =>
      simp only [platformNext] at step
      split_ifs at step
      obtain ⟨queue, moved, rfl⟩ := Platform.deliver_eq_some step
      exact moved

/-! ## Every request is authentic -/

/-- The event was planned for an endpoint that was created for its type. -/
structure Addressed (plans : List Plan) (created : List CreatedEndpoint) (job : DeliveryJob)
    (plan : Plan) (endpoint : CreatedEndpoint) : Prop where
  planned : plan ∈ plans
  made : endpoint ∈ created
  event_eq : plan.event.id = job.event
  target : job.endpointId ∈ plan.targets
  id_eq : endpoint.id = job.endpointId
  subscribed : plan.event.type ∈ endpoint.events

/-- The request is the one for the planned event under the secret that was returned. -/
def Authentic (keyed : ByteArray → ByteArray → Mac) (plans : List Plan)
    (created : List CreatedEndpoint) (sent : Request) : Prop :=
  ∃ plan endpoint clock, Addressed plans created sent.job plan endpoint ∧
    sent = request keyed sent.job plan.event endpoint.url endpoint.secret clock

/-- The job is addressed, and what its run is going to send is authentic. -/
def Carried (keyed : ByteArray → ByteArray → Mac) (plans : List Plan)
    (created : List CreatedEndpoint) (prepared : String → Option Request) (id : String)
    (run : Job DeliveryJob Progress) : Prop :=
  (∃ plan endpoint, Addressed plans created run.data plan endpoint) ∧
    (run.phase = .active .creating ∨ run.phase = .active .posting →
      ∀ sent ∈ prepared id, sent.job = run.data ∧ Authentic keyed plans created sent)

/-- The rows, the jobs and the requests go back to what was returned and planned. -/
structure Sound (crypto : Crypto) (material : Option Text)
    (keyed : ByteArray → ByteArray → Mac) (platform : Platform) : Prop where
  recorded : ∀ row ∈ platform.endpoints.rows,
    ∃ endpoint ∈ platform.created, row.Records crypto material endpoint
  secrets : ∀ endpoint ∈ platform.created, ∃ random, endpoint.secret = secretOf random
  distinct : (platform.created.map CreatedEndpoint.id).Nodup
  fresh : (platform.plans.map fun plan => plan.event.id).Nodup
  subscribed : ∀ plan ∈ platform.plans, ∀ target ∈ plan.targets,
    ∃ endpoint ∈ platform.created, endpoint.id = target ∧ plan.event.type ∈ endpoint.events
  pending : ∀ event, ∀ target ∈ platform.pending event,
    ∃ plan ∈ platform.plans, plan.event.id = event ∧ target ∈ plan.targets
  jobs : Jobs.All (Carried keyed platform.plans platform.created platform.prepared)
    platform.queue.jobs
  sent : ∀ sent ∈ platform.sent, Authentic keyed platform.plans platform.created sent

theorem Addressed.mono {plans more : List Plan} {created others : List CreatedEndpoint}
    {job : DeliveryJob} {plan : Plan} {endpoint : CreatedEndpoint}
    (addressed : Addressed plans created job plan endpoint) (planned : plans ⊆ more)
    (made : created ⊆ others) : Addressed more others job plan endpoint :=
  { addressed with planned := planned addressed.planned, made := made addressed.made }

theorem Authentic.mono {plans more : List Plan} {created others : List CreatedEndpoint}
    {sent : Request} (authentic : Authentic keyed plans created sent) (planned : plans ⊆ more)
    (made : created ⊆ others) : Authentic keyed more others sent := by
  obtain ⟨plan, endpoint, clock, addressed, sent_eq⟩ := authentic
  exact ⟨plan, endpoint, clock, addressed.mono planned made, sent_eq⟩

theorem Carried.mono {plans more : List Plan} {created others : List CreatedEndpoint}
    {prepared : String → Option Request} {run : Job DeliveryJob Progress}
    (carried : Carried keyed plans created prepared id run) (planned : plans ⊆ more)
    (made : created ⊆ others) : Carried keyed more others prepared id run := by
  obtain ⟨⟨plan, endpoint, addressed⟩, sending⟩ := carried
  refine ⟨⟨plan, endpoint, addressed.mono planned made⟩, fun isSending sent isPrepared => ?_⟩
  obtain ⟨job, authentic⟩ := sending isSending sent isPrepared
  exact ⟨job, authentic.mono planned made⟩

theorem sound_initial : Sound crypto material keyed .initial where
  recorded _ stored := by cases stored
  secrets _ made := by cases made
  distinct := List.nodup_nil
  fresh := List.nodup_nil
  subscribed _ planned := by cases planned
  pending _ _ target := by cases target
  jobs := Jobs.all_empty
  sent _ sent := by cases sent

/-- A pending target is that of an addressed job. -/
theorem Sound.addressed (sound : Sound crypto material keyed platform) {event : Uuid}
    {endpointId : Cuid} (pending : endpointId ∈ platform.pending event) (attempt : ℕ) :
    ∃ plan endpoint,
      Addressed platform.plans platform.created ⟨event, endpointId, attempt⟩ plan endpoint := by
  obtain ⟨plan, planned, event_eq, target⟩ := sound.pending event endpointId pending
  obtain ⟨endpoint, made, id_eq, subscribed⟩ := sound.subscribed plan planned endpointId target
  exact ⟨plan, endpoint, planned, made, event_eq, target, id_eq, subscribed⟩

/-- Another attempt is addressed as this one is. -/
theorem Addressed.numbered {plans : List Plan} {created : List CreatedEndpoint}
    {job : DeliveryJob} {plan : Plan} {endpoint : CreatedEndpoint}
    (addressed : Addressed plans created job plan endpoint) (attempt : ℕ) :
    Addressed plans created (job.numbered attempt) plan endpoint :=
  { addressed with event_eq := addressed.event_eq, target := addressed.target
                   id_eq := addressed.id_eq }

/-- A step of the queue that prepares nothing. -/
theorem Sound.jobs_of_next (sound : Sound crypto material keyed platform) {action : Action}
    {queue : State} (step : next platform.queue action = some queue)
    (emits : ∀ event endpointId, action = .emit event endpointId →
      endpointId ∈ platform.pending event) (unprepared : ∀ id, action ≠ .look id true) :
    Jobs.All (Carried keyed platform.plans platform.created platform.prepared) queue.jobs := by
  apply all_of_next step sound.jobs
  · intro id run moved found carried leads
    rw [Carried, leads.data]
    refine ⟨carried.1, fun sending => ?_⟩
    rcases sending with creating | posting
    · exact absurd (leads.creating creating) (unprepared id)
    · exact carried.2 (.inl (leads.posting posting).2)
  · intro event endpointId emitted
    exact ⟨sound.addressed (emits event endpointId emitted) 1,
      fun sending => by rcases sending with creating | posting <;> contradiction⟩
  · intro id run carried
    obtain ⟨plan, endpoint, addressed⟩ := carried.1
    exact ⟨⟨plan, endpoint, addressed.numbered _⟩,
      fun sending => by rcases sending with creating | posting <;> contradiction⟩

/-- The row and what was returned for it agree on the types of events. -/
theorem Sound.created_unique (sound : Sound crypto material keyed platform)
    {first second : CreatedEndpoint} (firstMade : first ∈ platform.created)
    (secondMade : second ∈ platform.created) (same : first.id = second.id) : first = second :=
  List.inj_on_of_nodup_map sound.distinct firstMade secondMade same

theorem Sound.create (sound : Sound crypto material keyed platform) {userId : Id} {url : Text}
    {events : List Text} {random : RandomKey} {iv : Iv} {id : Cuid} {now : ℕ}
    {made : CreatedEndpoint} {endpoints : Table Endpoint.id}
    (unused : id ∉ platform.created.map CreatedEndpoint.id)
    (created : create crypto material parseUrl platform.endpoints userId url events random iv id
      now = .ok (made, endpoints)) :
    Sound crypto material keyed
      { platform with endpoints, created := made :: platform.created } := by
  obtain ⟨-, row, records, row_eq, -, secret_eq, rfl, -⟩ := create_eq_ok created
  have more : platform.created ⊆ made :: platform.created := List.subset_cons_self _ _
  have made_eq : made.id = id := records.id_eq.symm.trans row_eq
  exact
    { recorded := by
        intro other stored
        rcases Table.mem_upsert_iff.mp stored with rfl | ⟨old, -⟩
        · exact ⟨made, List.mem_cons_self, records⟩
        · obtain ⟨endpoint, member, recorded⟩ := sound.recorded other old
          exact ⟨endpoint, more member, recorded⟩
      secrets := by
        intro endpoint member
        rcases List.mem_cons.mp member with rfl | old
        · exact ⟨random, secret_eq⟩
        · exact sound.secrets endpoint old
      distinct := by
        rw [List.map_cons, List.nodup_cons, made_eq]
        exact ⟨unused, sound.distinct⟩
      fresh := sound.fresh
      subscribed := by
        intro plan planned target member
        obtain ⟨endpoint, old, subscribed⟩ := sound.subscribed plan planned target member
        exact ⟨endpoint, more old, subscribed⟩
      pending := sound.pending
      jobs := sound.jobs.mono fun _ _ carried => carried.mono (List.Subset.refl _) more
      sent := fun sent member => (sound.sent sent member).mono (List.Subset.refl _) more }

/-- Only the rows change, and each one records what the old one of its id did. -/
theorem Sound.endpoints (sound : Sound crypto material keyed platform)
    {endpoints : Table Endpoint.id}
    (kept : ∀ row ∈ endpoints.rows, ∃ old ∈ platform.endpoints.rows, row.id = old.id ∧
      row.url = old.url ∧ row.events = old.events ∧ row.secretCipher = old.secretCipher) :
    Sound crypto material keyed { platform with endpoints } where
  recorded row stored := by
    obtain ⟨old, member, id_eq, url_eq, events_eq, cipher_eq⟩ := kept row stored
    obtain ⟨endpoint, made, records⟩ := sound.recorded old member
    refine ⟨endpoint, made, id_eq.trans records.id_eq, url_eq.trans records.url_eq,
      events_eq.trans records.events_eq, ?_⟩
    rw [cipher_eq]
    exact records.decrypted
  secrets := sound.secrets
  distinct := sound.distinct
  fresh := sound.fresh
  subscribed := sound.subscribed
  pending := sound.pending
  jobs := sound.jobs
  sent := sound.sent

theorem Endpoint.enable_keeps (id : String) (enabled : Bool) (row : Endpoint) :
    (row.enable id enabled).url = row.url ∧ (row.enable id enabled).events = row.events ∧
      (row.enable id enabled).secretCipher = row.secretCipher := by
  unfold enable
  split
  · exact ⟨rfl, rfl, rfl⟩
  · exact ⟨rfl, rfl, rfl⟩

theorem Sound.plan (sound : Sound crypto material keyed platform) {event : Event}
    {targets : List Cuid} (unused : event.id ∉ platform.plans.map fun plan => plan.event.id)
    (found : targets.Perm (planDeliveries platform.endpoints event.type)) :
    Sound crypto material keyed (platform.plan event targets) := by
  have more : platform.plans ⊆ ⟨event, targets⟩ :: platform.plans := List.subset_cons_self _ _
  exact
    { sound with
      fresh := by
        rw [Platform.plan, List.map_cons, List.nodup_cons]
        exact ⟨unused, sound.fresh⟩
      subscribed := by
        intro plan planned target member
        rcases List.mem_cons.mp planned with rfl | old
        · obtain ⟨row, stored, rfl, -, subscribed⟩ :=
            mem_planDeliveries_iff.mp (found.subset member)
          obtain ⟨endpoint, made, records⟩ := sound.recorded row stored
          exact ⟨endpoint, made, records.id_eq.symm, records.events_eq ▸ subscribed⟩
        · exact sound.subscribed plan old target member
      pending := by
        intro uuid target member
        dsimp only [Platform.plan] at member
        by_cases same : uuid = event.id
        · subst same
          rw [Function.update_self] at member
          exact ⟨_, List.mem_cons_self, rfl, member⟩
        · rw [Function.update_of_ne same] at member
          obtain ⟨plan, planned, rest⟩ := sound.pending uuid target member
          exact ⟨plan, more planned, rest⟩
      jobs := sound.jobs.mono fun _ _ carried => carried.mono more (List.Subset.refl _)
      sent := fun sent member => (sound.sent sent member).mono more (List.Subset.refl _) }

/-- The targets that remain are among those that did. -/
theorem Sound.pending_update (sound : Sound crypto material keyed platform) {event : Uuid}
    {rest : List Cuid} (fewer : rest ⊆ platform.pending event) (uuid : Uuid) :
    ∀ target ∈ Function.update platform.pending event rest uuid,
      ∃ plan ∈ platform.plans, plan.event.id = uuid ∧ target ∈ plan.targets := by
  intro target member
  by_cases same : uuid = event
  · subst same
    rw [Function.update_self] at member
    exact sound.pending uuid target (fewer member)
  · rw [Function.update_of_ne same] at member
    exact sound.pending uuid target member

/-- The request that a lookup prepares is authentic. -/
theorem Sound.authentic (sound : Sound crypto material keyed platform)
    {run : Job DeliveryJob Progress} {row : Endpoint} {event : Event} {secret : Text}
    {clock : TimeValue} (found : platform.queue.jobs id = some run)
    (row_eq : platform.endpoint run.data.endpointId = some row)
    (event_eq : platform.event run.data.event = some event)
    (decrypted : decryptSecret crypto material row.secretCipher = .ok secret) :
    Authentic keyed platform.plans platform.created
      (request keyed run.data event row.url secret clock) := by
  obtain ⟨⟨plan, endpoint, addressed⟩, -⟩ := sound.jobs id run found
  obtain ⟨stored, row_id⟩ := Platform.endpoint_eq_some row_eq
  obtain ⟨recorded, made, records⟩ := sound.recorded row stored
  have same : recorded = endpoint := sound.created_unique made addressed.made
    (records.id_eq.symm.trans (row_id.trans addressed.id_eq.symm))
  subst same
  obtain ⟨planOf, planned, rfl, uuid⟩ := Platform.event_eq_some event_eq
  have plans_eq : planOf = plan := List.inj_on_of_nodup_map sound.fresh planned addressed.planned
    (uuid.trans addressed.event_eq.symm)
  subst plans_eq
  have secret_eq : secret = recorded.secret :=
    Except.ok.inj (decrypted.symm.trans records.decrypted)
  refine ⟨planOf, recorded, clock, addressed, ?_⟩
  rw [records.url_eq, secret_eq]
  rfl

theorem Sound.look (sound : Sound crypto material keyed platform) {clock : TimeValue}
    (step : platform.look crypto material keyed id clock = some target) :
    Sound crypto material keyed target := by
  obtain ⟨run, queue, found, ⟨-, moved, rfl⟩ | ⟨row, event, secret, -, row_eq, -, event_eq,
    decrypted, moved, rfl⟩⟩ := Platform.look_eq_some step
  · exact { sound with jobs := sound.jobs_of_next moved nofun nofun }
  · have authentic := @Sound.authentic _ _ _ _ _ sound run row event secret clock found row_eq
      event_eq decrypted
    obtain ⟨other, changed, same, change_eq, rfl⟩ := State.modify_eq_some moved
    cases found.symm.trans same
    obtain ⟨progress, advanced, -, -, rfl⟩ := Job.advance_eq_some change_eq
    refine { sound with jobs := Jobs.all_update ?_ ?_ }
    · intro other differs job member
      obtain ⟨addressed, sending⟩ := sound.jobs other job member
      refine ⟨addressed, fun isSending sent prepared => sending isSending sent ?_⟩
      dsimp only at prepared
      rw [Function.update_of_ne differs] at prepared
      exact prepared
    · rintro _ ⟨⟩
      refine ⟨(sound.jobs id run found).1, fun _ sent prepared => ?_⟩
      dsimp only at prepared
      rw [Function.update_self] at prepared
      cases prepared
      exact ⟨rfl, authentic⟩

theorem Sound.post (sound : Sound crypto material keyed platform)
    (step : platform.post id = some target) : Sound crypto material keyed target := by
  obtain ⟨run, sending, found, posting, prepared, rfl⟩ := Platform.post_eq_some step
  refine { sound with jobs := ?_, sent := ?_ }
  · intro other job member
    obtain ⟨addressed, authentic⟩ := sound.jobs other job member
    refine ⟨addressed, fun isSending sent rest => authentic isSending sent ?_⟩
    dsimp only at rest
    by_cases same : other = id
    · subst same
      rw [Function.update_self] at rest
      cases rest
    · rwa [Function.update_of_ne same] at rest
  · intro sent member
    rcases List.mem_cons.mp member with rfl | old
    · exact ((sound.jobs id run found).2 (.inr posting) sent prepared).2
    · exact sound.sent sent old

/-- Every step of the platform keeps it sound. -/
theorem sound_next {action : PlatformAction} (sound : Sound crypto material keyed platform)
    (step : platformNext crypto material keyed parseUrl platform action = some target) :
    Sound crypto material keyed target := by
  cases action with
  | create userId url events random iv id now =>
      simp only [platformNext] at step
      split_ifs at step with unused
      split at step
      next created =>
        cases step
        exact sound.create unused created
      next =>
        cases step
        exact sound
  | setEnabled userId id enabled =>
      simp only [platformNext] at step
      split at step
      next set =>
        cases step
        obtain ⟨-, rfl⟩ := setEnabled_eq_ok set
        apply sound.endpoints
        intro row stored
        obtain ⟨old, member, rfl⟩ := Table.mem_update_iff.mp stored
        exact ⟨old, member, old.enable_id id enabled, old.enable_keeps id enabled⟩
      next =>
        cases step
        exact sound
  | remove userId id =>
      simp only [platformNext] at step
      split at step
      next removed =>
        cases step
        obtain ⟨-, rfl⟩ := remove_eq_ok removed
        apply sound.endpoints
        intro row stored
        exact ⟨row, (Table.mem_delete_iff.mp stored).1, rfl, rfl, rfl, rfl⟩
      next =>
        cases step
        exact sound
  | plan event targets =>
      simp only [platformNext] at step
      split_ifs at step with used found
      cases step
      exact sound.plan used found
  | add event endpointId =>
      obtain ⟨rest, queue, pending, moved, rfl⟩ := Platform.add_eq_some step
      have fewer : rest ⊆ platform.pending event := by
        rw [pending]
        exact List.subset_cons_self _ _
      refine { sound with jobs := sound.jobs_of_next moved ?_ nofun
                          pending := sound.pending_update fewer }
      rintro _ _ ⟨⟩
      rw [pending]
      exact List.mem_cons_self
  | abandon event =>
      cases step
      exact { sound with pending := sound.pending_update (List.nil_subset _) }
  | look id clock => exact sound.look step
  | record id =>
      obtain ⟨run, row, queue, -, -, moved, rfl⟩ := Platform.record_eq_some step
      exact { sound with jobs := sound.jobs_of_next moved nofun nofun }
  | post id => exact sound.post step
  | worker action =>
      simp only [platformNext] at step
      split_ifs at step with allowed
      obtain ⟨queue, moved, rfl⟩ := Platform.deliver_eq_some step
      refine { sound with jobs := sound.jobs_of_next moved ?_ ?_ }
      · rintro _ _ rfl
        exact absurd allowed.1 id
      · rintro _ rfl
        exact absurd allowed.1 id

theorem TimeValue.seconds_safe (clock : TimeValue) : |clock.seconds| < 2 ^ 53 := by
  have range := abs_le.mp clock.inRange
  rw [abs_lt, TimeValue.seconds]
  omega

theorem sound_of_run {actions : List PlatformAction}
    (run : exec (platformNext crypto material keyed parseUrl) .initial actions = some platform) :
    Sound crypto material keyed platform :=
  exec_invariant (fun sound step => sound_next sound step) run sound_initial

/-- Whatever the API, the fan-outs, the worker and the queue have done: each request was made for
a planned event and an endpoint created for its type, goes to the address that was registered,
and is accepted with the secret that was returned. -/
theorem requests_verify {actions : List PlatformAction} {sent : Request}
    (run : exec (platformNext crypto material keyed parseUrl) .initial actions = some platform)
    (member : sent ∈ platform.sent) :
    ∃ plan ∈ platform.plans, ∃ endpoint ∈ platform.created,
      plan.event.id = sent.job.event ∧ endpoint.id = sent.job.endpointId ∧
      (∀ other ∈ platform.created, other.id = sent.job.endpointId → other = endpoint) ∧
      sent.job.endpointId ∈ plan.targets ∧ plan.event.type ∈ endpoint.events ∧
      sent.url = endpoint.url ∧ sent.body = plan.event.envelope.body ∧
      ∃ signed : TimeValue, ∀ (clock : TimeValue) (toleranceSeconds : ℚ),
        IsBinary64 toleranceSeconds →
        (0 < toleranceSeconds →
          |(clock.seconds : ℚ) - (signed.seconds : ℤ)| ≤ toleranceSeconds) →
        verifyWebhookSignature (hmacUtf8 keyed) clock sent.body sent.signature endpoint.secret
          toleranceSeconds = .ok true := by
  have sound := sound_of_run run
  obtain ⟨plan, endpoint, signed, addressed, sent_eq⟩ := sound.sent sent member
  refine ⟨plan, addressed.planned, endpoint, addressed.made, addressed.event_eq, addressed.id_eq,
    ?_, addressed.target, addressed.subscribed, ?_, ?_, signed, ?_⟩
  · intro other made same
    exact sound.created_unique made addressed.made (same.trans addressed.id_eq.symm)
  · rw [sent_eq]
    rfl
  · rw [sent_eq]
    rfl
  · intro clock toleranceSeconds double within
    obtain ⟨random, secret_eq⟩ := sound.secrets endpoint addressed.made
    have nonempty : endpoint.secret ≠ [] := secret_eq ▸ secretOf_ne_nil random
    rw [sent_eq]
    exact accepted_within signed.seconds_safe nonempty double within

end

/-! ## A run with a request -/

/-- A user. -/
def someUser : Id where
  text := ofString "user"
  nonempty := by decide

/-- The bytes of a secret. -/
def someRandom : RandomKey where
  bytes := List.replicate 24 0
  length_eq := List.length_replicate

/-- An event. -/
def someEvent : Event where
  id := storedEvent
  type := ofString "risk.updated"
  address := ofString "SP1"
  createdAt := ofString "2026-01-01T00:00:00.000Z"
  data := []
  spelled := by
    simp only [Json.Spelled, Json.SpelledFields]
    decide

/-- Every URL is taken for an HTTPS one. -/
def secureUrl : Text → Option ParsedUrl :=
  fun _ => some ⟨ofString "https:", ofString "example.com"⟩

/-- An endpoint is created, an event is planned for it, queued, looked up and sent. -/
def oneRequest : List PlatformAction :=
  [.create someUser (ofString "https://example.com") [ofString "risk.updated"] someRandom someIv
      storedEndpoint 0,
    .plan someEvent [storedEndpoint], .add storedEvent storedEndpoint,
    .worker (.start (emitId storedEvent storedEndpoint)),
    .look (emitId storedEvent storedEndpoint) someClock,
    .record (emitId storedEvent storedEndpoint), .post (emitId storedEvent storedEndpoint)]

/-- A digest that does not depend on its key. -/
def someKeyed : ByteArray → ByteArray → Mac :=
  fun _ _ => noMac [] []

/-- The platform of the run. -/
def platformNow : Step Platform PlatformAction :=
  platformNext plainCrypto (some someMaterial) someKeyed secureUrl

theorem requests_verify_one :
    ∃ platform, exec platformNow .initial oneRequest = some platform ∧
      ∃ sent ∈ platform.sent, ∃ plan ∈ platform.plans,
        plan.event.id = sent.job.event ∧ sent.body = plan.event.envelope.body := by
  have count : (exec platformNow .initial oneRequest).map (fun platform => platform.sent.length) =
      some 1 := by
    decide +kernel
  obtain ⟨platform, run, one⟩ := Option.map_eq_some_iff.mp count
  obtain ⟨sent, member⟩ := List.exists_mem_of_length_pos (one ▸ Nat.one_pos)
  obtain ⟨plan, planned, endpoint, -, event_eq, -, -, -, -, -, body_eq, -⟩ :=
    requests_verify run member
  exact ⟨platform, run, sent, member, plan, planned, event_eq, body_eq⟩

end RiskRail.Webhooks
