import RiskRail.Relational.Table
import RiskRail.Webhooks.Binding
import RiskRail.Webhooks.Delivery
import RiskRail.Webhooks.Secrets

/-!
# Webhook endpoints

`WebhooksService` stores the endpoints of the users, each with the event types it is for, and
`planDeliveries` finds those that an event goes to.  The secret of an endpoint is returned
once and stored encrypted.

The texts that only a reader of the answer sees are left out, and so is the list of the last
deliveries.
-/

namespace RiskRail.Webhooks

open RiskRail.Javascript Text RiskRail.Relational
open RiskRail.Auth.Bearer (Id RandomKey)
open RiskRail.Attestation (bind_eq_ok_iff)

/-- The events that an endpoint may ask for. -/
def webhookEvents : List Text :=
  ["portfolio.updated", "risk.updated", "alert.triggered", "policy.breached"].map ofString

/-! ## Events -/

/-- An envelope, as `buildEvent` makes it. -/
structure Event where
  id : Uuid
  type : Text
  address : Text
  createdAt : Text
  data : List (Text × Json)
  spelled : (Json.object
    [(ofString "id", .string (ofString id.text)), (ofString "type", .string type),
      (ofString "address", .string address), (ofString "createdAt", .string createdAt),
      (ofString "data", .object data)]).Spelled

/-- The event as it is sent. -/
def Event.envelope (event : Event) : WebhookEvent where
  fields :=
    [(ofString "id", .string (ofString event.id.text)), (ofString "type", .string event.type),
      (ofString "address", .string event.address),
      (ofString "createdAt", .string event.createdAt), (ofString "data", .object event.data)]
  spelled := event.spelled

/-! ## The service -/

/-- A row of the table of endpoints. -/
structure Endpoint where
  id : Cuid
  userId : Id
  url : Text
  secretCipher : Text
  events : List Text
  enabled : Bool
  createdAt : ℕ

/-- What `new URL` finds in an address. -/
structure ParsedUrl where
  protocol : Text
  hostname : Text

/-- What the service throws. -/
inductive Failure where
  | badRequest (message : Text)
  | notFound (message : Text)
  | internal (message : String)
deriving DecidableEq

/-- What is returned for a new endpoint. -/
structure CreatedEndpoint where
  id : Cuid
  url : Text
  events : List Text
  enabled : Bool
  createdAt : ℕ
  secret : Text

/-- The secret of an endpoint. -/
def secretOf (random : RandomKey) : Text :=
  ofString "whsec_" ++ hexText random.bytes

section

variable (crypto : Crypto) (material : Option Text) (parseUrl : Text → Option ParsedUrl)

/-- What an address has to be. -/
def checkUrl (url : Text) : Except Failure Unit :=
  match parseUrl url with
  | none => .error (.badRequest (ofString "url must be absolute"))
  | some parsed =>
      if parsed.protocol ≠ ofString "https:" ∧ parsed.hostname ≠ ofString "localhost" then
        .error (.badRequest (ofString "Webhook endpoints must use https"))
      else .ok ()

/-- Every event that is asked for is known. -/
def checkEvents (events : List Text) : Except Failure Unit :=
  let unknown := events.filter fun event => !webhookEvents.contains event
  if unknown ≠ [] then
    .error (.badRequest (ofString "Unknown events: " ++ (ofString ", ").intercalate unknown))
  else .ok ()

/-- The random bytes, the id and the time are drawn on the way. -/
def create (endpoints : Table Endpoint.id) (userId : Id) (url : Text) (events : List Text)
    (random : RandomKey) (iv : Iv) (id : Cuid) (now : ℕ) :
    Except Failure (CreatedEndpoint × Table Endpoint.id) := do
  checkUrl parseUrl url
  checkEvents events
  let secret := secretOf random
  let secretCipher ← (encryptSecret crypto material iv secret).mapError .internal
  if id ∈ endpoints.rows.map Endpoint.id then throw (.internal "Unique constraint failed")
  let row : Endpoint :=
    { id, userId, url, secretCipher, events, enabled := true, createdAt := now }
  return ({ id, url, events, enabled := true, createdAt := now, secret }, endpoints.upsert row)

end

/-- `findFirst` by id and user. -/
def existing (endpoints : Table Endpoint.id) (userId : Id) (id : String) : Option Endpoint :=
  endpoints.rows.find? fun row => row.id.text = id ∧ row.userId = userId

/-- The row of the endpoint, enabled or disabled. -/
def Endpoint.enable (id : String) (enabled : Bool) (row : Endpoint) : Endpoint :=
  if row.id.text = id then { row with enabled } else row

theorem Endpoint.enable_id (id : String) (enabled : Bool) (row : Endpoint) :
    (row.enable id enabled).id = row.id := by
  unfold enable
  split <;> rfl

/-- An endpoint of the user's own is enabled or disabled. -/
def setEnabled (endpoints : Table Endpoint.id) (userId : Id) (id : String) (enabled : Bool) :
    Except Failure (Table Endpoint.id) :=
  match existing endpoints userId id with
  | none => .error (.notFound (ofString "Webhook endpoint not found"))
  | some _ => .ok (endpoints.update (Endpoint.enable id enabled) (Endpoint.enable_id id enabled))

/-- An endpoint of the user's own is deleted. -/
def remove (endpoints : Table Endpoint.id) (userId : Id) (id : String) :
    Except Failure (Table Endpoint.id) :=
  match existing endpoints userId id with
  | none => .error (.notFound (ofString "Webhook endpoint not found"))
  | some _ => .ok (endpoints.delete fun row => row.id.text = id)

/-- The enabled endpoints that are for a type of event. -/
def planDeliveries (endpoints : Table Endpoint.id) (type : Text) : List Cuid :=
  (endpoints.rows.filter fun row => row.enabled && row.events.contains type).map Endpoint.id

/-! ## What the service does -/

section Service

variable {crypto : Crypto} {material : Option Text} {parseUrl : Text → Option ParsedUrl}
  {endpoints later : Table Endpoint.id} {userId : Id} {url : Text} {events : List Text}
  {random : RandomKey} {iv : Iv} {id : Cuid} {now : ℕ} {created : CreatedEndpoint}

/-- The row holds what was returned, and its secret can be recovered. -/
structure Endpoint.Records (crypto : Crypto) (material : Option Text) (row : Endpoint)
    (created : CreatedEndpoint) : Prop where
  id_eq : row.id = created.id
  url_eq : row.url = created.url
  events_eq : row.events = created.events
  decrypted : decryptSecret crypto material row.secretCipher = .ok created.secret

theorem secretOf_ne_nil (random : RandomKey) : secretOf random ≠ [] := by
  intro empty
  have front := (List.append_eq_nil_iff.mp empty).1
  cases front

theorem wellFormed_secretOf (random : RandomKey) : WellFormed (secretOf random) := by
  refine (wellFormed_ofString _).append (wellFormed_of_lt fun unit member => ?_)
  have digit := hexDigitValue_of_mem_hexText member
  unfold hexDigitValue digitValue at digit
  split_ifs at digit
  · omega
  · omega
  · omega
  · exact absurd rfl digit

theorem mapError_eq_ok_iff {ε ε' α : Type} {change : ε → ε'} {first : Except ε α} {value : α} :
    first.mapError change = .ok value ↔ first = .ok value := by
  cases first <;> simp [Except.mapError]

theorem checkEvents_eq_ok_iff {result : Unit} :
    checkEvents events = .ok result ↔ ∀ event ∈ events, event ∈ webhookEvents := by
  unfold checkEvents
  simp only [ne_eq, List.filter_eq_nil_iff, Bool.not_eq_true', Bool.not_eq_false,
    List.contains_iff_mem, not_not, ite_eq_right_iff, reduceCtorEq, imp_false]

/-- A new row records what is returned with it. -/
theorem create_eq_ok (made : create crypto material parseUrl endpoints userId url events random iv
      id now = .ok (created, later)) :
    id ∉ endpoints.rows.map Endpoint.id ∧
      ∃ row : Endpoint, row.Records crypto material created ∧ row.id = id ∧ row.userId = userId ∧
        created.secret = secretOf random ∧ later = endpoints.upsert row ∧
        created.url = url ∧ created.events = events ∧ ∀ event ∈ events, event ∈ webhookEvents := by
  unfold create at made
  rw [bind_eq_ok_iff] at made
  obtain ⟨-, -, made⟩ := made
  rw [bind_eq_ok_iff] at made
  obtain ⟨_, checked, made⟩ := made
  have known := checkEvents_eq_ok_iff.mp checked
  dsimp only at made
  rw [bind_eq_ok_iff] at made
  obtain ⟨cipher, encrypted, made⟩ := made
  have stored := mapError_eq_ok_iff.mp encrypted
  have opened := (decryptSecret_eq_ok_iff stored).mpr
    ⟨secretOf_ne_nil random, wellFormed_secretOf random⟩
  split_ifs at made with taken
  · cases made
  · cases made
    exact ⟨taken, _, ⟨rfl, rfl, rfl, opened⟩, rfl, rfl, rfl, rfl, rfl, rfl, known⟩

theorem setEnabled_eq_ok {id : String} {enabled : Bool}
    (set : setEnabled endpoints userId id enabled = .ok later) :
    (∃ row ∈ endpoints.rows, row.id.text = id ∧ row.userId = userId) ∧
      later = endpoints.update (Endpoint.enable id enabled) (Endpoint.enable_id id enabled) := by
  unfold setEnabled at set
  split at set
  next => cases set
  next row found =>
    cases set
    have owned := List.find?_some found
    exact ⟨⟨row, List.mem_of_find?_eq_some found, of_decide_eq_true owned⟩, rfl⟩

theorem remove_eq_ok {id : String} (removed : remove endpoints userId id = .ok later) :
    (∃ row ∈ endpoints.rows, row.id.text = id ∧ row.userId = userId) ∧
      later = endpoints.delete fun row => row.id.text = id := by
  unfold remove at removed
  split at removed
  next => cases removed
  next row found =>
    cases removed
    have owned := List.find?_some found
    exact ⟨⟨row, List.mem_of_find?_eq_some found, of_decide_eq_true owned⟩, rfl⟩

theorem mem_planDeliveries_iff {type : Text} :
    id ∈ planDeliveries endpoints type ↔
      ∃ row ∈ endpoints.rows, row.id = id ∧ row.enabled = true ∧ type ∈ row.events := by
  unfold planDeliveries
  simp only [List.mem_map, List.mem_filter, Bool.and_eq_true, List.contains_iff_mem]
  constructor
  · rintro ⟨row, ⟨stored, enabled, subscribed⟩, rfl⟩
    exact ⟨row, stored, rfl, enabled, subscribed⟩
  · rintro ⟨row, stored, rfl, enabled, subscribed⟩
    exact ⟨row, ⟨stored, enabled, subscribed⟩, rfl⟩

theorem nodup_planDeliveries (endpoints : Table Endpoint.id) (type : Text) :
    (planDeliveries endpoints type).Nodup :=
  (List.filter_sublist.map Endpoint.id).nodup endpoints.distinct

end Service

end RiskRail.Webhooks
