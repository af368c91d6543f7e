import RiskRail.Transition.Projection
import RiskRail.Webhooks.Endpoints

/-!
# The webhook platform

The API changes the endpoints, `emit` plans the deliveries of an event and queues them one by
one, and the worker looks an endpoint up, signs the event with its secret, and posts it.  All
of these interleave, and the queue of the deliveries is a part of the whole.

A cuid and a UUID are never drawn twice.
-/

namespace RiskRail.Webhooks

open RiskRail.Javascript Text RiskRail.Queue RiskRail.Relational RiskRail.Transition
open RiskRail.Auth.Bearer (Id RandomKey)

/-- The request of a delivery: its address, its headers and its body. -/
structure Request where
  job : DeliveryJob
  url : Text
  signature : Text
  eventId : Text
  eventType : Text
  attempt : Text
  body : Text

/-- What `planDeliveries` returned for an event. -/
structure Plan where
  event : Event
  targets : List Cuid

/-- The rows, the fan-outs, the queue of the deliveries and the requests. -/
structure Platform where
  endpoints : Table Endpoint.id
  /-- What was returned for the endpoints so far. -/
  created : List CreatedEndpoint
  plans : List Plan
  /-- The targets of an event that `emit` has still to queue. -/
  pending : Uuid → List Cuid
  /-- The targets that `emit` did not come to. -/
  lost : Uuid → List Cuid
  queue : State
  /-- What the run of a job is going to send. -/
  prepared : String → Option Request
  sent : List Request

/-- No endpoint, no event and no job. -/
def Platform.initial : Platform where
  endpoints := Table.empty
  created := []
  plans := []
  pending := fun _ => []
  lost := fun _ => []
  queue := State.initial
  prepared := fun _ => none
  sent := []

/-- A step of the API, of a fan-out, of the worker or of the queue. -/
inductive PlatformAction where
  | create (userId : Id) (url : Text) (events : List Text) (random : RandomKey) (iv : Iv)
    (id : Cuid) (now : ℕ)
  | setEnabled (userId : Id) (id : String) (enabled : Bool)
  | remove (userId : Id) (id : String)
  /-- `emit` has built an event and found the endpoints it goes to. -/
  | plan (event : Event) (targets : List Cuid)
  /-- `emit` adds the next delivery. -/
  | add (event : Uuid) (endpointId : Cuid)
  /-- The fan-out fails. -/
  | abandon (event : Uuid)
  /-- The worker looks the endpoint up and signs the event. -/
  | look (id : String) (clock : TimeValue)
  /-- The delivery is created. -/
  | record (id : String)
  /-- The request is sent. -/
  | post (id : String)
  /-- Any other step of the worker or of the queue. -/
  | worker (action : Action)

/-- `emit`, `look` and `create` have steps of their own here. -/
def Action.IsWorker : Action → Prop
  | .emit _ _ | .look _ _ | .create _ => False
  | _ => True

instance : (action : Action) → Decidable action.IsWorker
  | .emit _ _ | .look _ _ | .create _ => isFalse id
  | .start _ | .answer _ _ | .update _ | .updateThrows _ _ | .recordError _ | .add _
  | .complete _ | .throw _ | .die _ _ | .expire _ => isTrue trivial

section

variable (crypto : Crypto) (material : Option Text) (keyed : ByteArray → ByteArray → Mac)

/-- The row that `findUnique` returns. -/
def Platform.endpoint (platform : Platform) (id : Cuid) : Option Endpoint :=
  platform.endpoints.rows.find? fun row => row.id = id

/-- The event of a job. -/
def Platform.event (platform : Platform) (id : Uuid) : Option Event :=
  (platform.plans.find? fun plan => plan.event.id = id).map Plan.event

/-- The request that `deliver` makes. -/
def request (job : DeliveryJob) (event : Event) (url secret : Text) (clock : TimeValue) :
    Request where
  job := job
  url := url
  signature := signPayload (hmacUtf8 keyed) event.envelope.body secret clock.seconds
  eventId := ofString event.id.text
  eventType := event.type
  attempt := ofString (toString job.attempt)
  body := event.envelope.body

/-- A step of the queue. -/
def Platform.deliver (platform : Platform) (action : Action) : Option Platform :=
  (next platform.queue action).map fun queue => { platform with queue }

/-- The lookup in `deliver`.  A secret that cannot be decrypted makes the run throw. -/
def Platform.look (platform : Platform) (id : String) (clock : TimeValue) : Option Platform :=
  (platform.queue.jobs id).bind fun run =>
    match platform.endpoint run.data.endpointId with
    | none => platform.deliver (.look id false)
    | some row =>
        if row.enabled = false then platform.deliver (.look id false)
        else
          (platform.event run.data.event).bind fun event =>
            match decryptSecret crypto material row.secretCipher with
            | .error _ => none
            | .ok secret =>
                (platform.deliver (.look id true)).map fun platform =>
                  { platform with
                      prepared := Function.update platform.prepared id
                        (some (request keyed run.data event row.url secret clock)) }

/-- The delivery is created for a row that exists. -/
def Platform.record (platform : Platform) (id : String) : Option Platform :=
  (platform.queue.jobs id).bind fun run =>
    (platform.endpoint run.data.endpointId).bind fun _ => platform.deliver (.create id)

/-- The request is sent, once, to the address that the lookup found. -/
def Platform.post (platform : Platform) (id : String) : Option Platform :=
  (platform.queue.jobs id).bind fun run =>
    if run.phase = .active .posting then
      (platform.prepared id).map fun request =>
        { platform with
            prepared := Function.update platform.prepared id none
            sent := request :: platform.sent }
    else none

/-- What answers is a request that was sent. -/
def Platform.Awaits (platform : Platform) : Action → Prop
  | .answer id _ => (platform.prepared id).isNone
  | _ => True

instance (platform : Platform) : (action : Action) → Decidable (platform.Awaits action)
  | .answer id _ => inferInstanceAs (Decidable ((platform.prepared id).isNone = true))
  | .emit _ _ | .start _ | .look _ _ | .create _ | .update _ | .updateThrows _ _
  | .recordError _ | .add _ | .complete _ | .throw _ | .die _ _ | .expire _ => isTrue trivial


/-- `emit` has built an event and found its targets. -/
def Platform.plan (platform : Platform) (event : Event) (targets : List Cuid) : Platform :=
  { platform with
      plans := ⟨event, targets⟩ :: platform.plans
      pending := Function.update platform.pending event.id targets }

/-- `emit` queues the first attempt at the endpoint that is next. -/
def Platform.add (platform : Platform) (event : Uuid) (endpointId : Cuid) : Option Platform :=
  match platform.pending event with
  | [] => none
  | target :: rest =>
      if target = endpointId then
        (platform.deliver (.emit event endpointId)).map fun platform =>
          { platform with pending := Function.update platform.pending event rest }
      else none

variable (parseUrl : Text → Option ParsedUrl)

/-- One step.  A call of the service that throws leaves the endpoints as they are. -/
def platformNext : Step Platform PlatformAction
  | platform, .create userId url events random iv id now =>
      if id ∈ platform.created.map CreatedEndpoint.id then none
      else
        match create crypto material parseUrl platform.endpoints userId url events random iv id
          now with
        | .ok (created, endpoints) =>
            some { platform with endpoints, created := created :: platform.created }
        | .error _ => some platform
  | platform, .setEnabled userId id enabled =>
      match setEnabled platform.endpoints userId id enabled with
      | .ok endpoints => some { platform with endpoints }
      | .error _ => some platform
  | platform, .remove userId id =>
      match remove platform.endpoints userId id with
      | .ok endpoints => some { platform with endpoints }
      | .error _ => some platform
  | platform, .plan event targets =>
      if event.id ∈ platform.plans.map (fun plan => plan.event.id) then none
      else if targets.Perm (planDeliveries platform.endpoints event.type) then
        some (platform.plan event targets)
      else none
  | platform, .add event endpointId => platform.add event endpointId
  | platform, .abandon event =>
      some
        { platform with
            pending := Function.update platform.pending event []
            lost := Function.update platform.lost event
              (platform.pending event ++ platform.lost event) }
  | platform, .look id clock => platform.look crypto material keyed id clock
  | platform, .record id => platform.record id
  | platform, .post id => platform.post id
  | platform, .worker action =>
      if action.IsWorker ∧ platform.Awaits action then platform.deliver action else none

end

end RiskRail.Webhooks
