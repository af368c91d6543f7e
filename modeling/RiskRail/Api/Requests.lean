import RiskRail.Alerts.Evaluator
import RiskRail.Auth.Guards
import RiskRail.Chainhook.Ingest
import RiskRail.Javascript.NumberText
import RiskRail.Webhooks.Endpoints

/-!
# Requests for an account

The routes of the API that change what belongs to an account: its profile, its API keys, its
webhook endpoints and the alert rules of its wallets.  The guard of a route writes the user into
the request, and the handler runs later: it reads what it checks, and then it writes.  Any number
of requests and logins are under way at once, between a check and its write as well.  What a
handler answers is left out.

A cuid is never drawn twice.
-/

namespace RiskRail.Api

open RiskRail.Javascript Text RiskRail.Transition RiskRail.Relational RiskRail.Auth
open RiskRail.Auth.Bearer (Id RandomKey RowOrder Stamp)
open RiskRail.Webhooks (Endpoint Iv Cuid mapError_eq_ok_iff)
open RiskRail.Attestation (bind_eq_ok_iff)

/-! ## Rows -/

/-- The fields of a user that the profile calls touch. -/
structure Profile where
  userId : Id
  email : Option Text
  emailVerifiedAt : Option ℕ
  notifyByEmail : Bool
deriving DecidableEq

/-- The columns of a new user. -/
def Profile.new (userId : Id) : Profile where
  userId
  email := none
  emailVerifiedAt := none
  notifyByEmail := true

/-- A wallet is known by its address, which is unique. -/
structure Wallet where
  address : String
  userId : Option Id

/-- Whether a rule is evaluated. -/
inductive AlertStatus where
  | active
  | paused
  | archived
deriving DecidableEq

/-- The channel is always `in_app`. -/
structure AlertRule where
  id : Id
  address : String
  metric : Alerts.Metric
  operator : Alerts.ThresholdOperator
  threshold : Text
  status : AlertStatus

/-! ## Bodies -/

/-- `^\d+(\.\d+)?$` -/
def isDecimal (text : Text) : Bool :=
  !(text.takeWhile isDecimalDigit).isEmpty &&
    match text.dropWhile isDecimalDigit with
    | [] => true
    | point :: fraction => point == 0x2E && !fraction.isEmpty && fraction.all isDecimalDigit

/-- What the validation of a body lets through. -/
structure CreateAlertDto where
  metric : Alerts.Metric
  operator : Alerts.ThresholdOperator
  threshold : Text
  decimal : isDecimal threshold = true

/-- An email of `null` passes the validation like one that is missing. -/
structure UpdateProfileDto where
  email : Option (Option Text)
  notifyByEmail : Option Bool

/-- A request that has passed the guards. -/
inductive Call where
  | updateProfile (input : UpdateProfileDto)
  | createKey (name : Text) (isLive : Bool)
  | revokeKey (id : Text)
  | createEndpoint (url : Text) (events : List Text)
  | setEnabled (id : String) (enabled : Bool)
  | removeEndpoint (id : String)
  | createAlert (address : String) (input : CreateAlertDto)
  | updateStatus (id : Text) (status : AlertStatus)

/-- The route is behind `JwtAuthGuard`; the others are behind `AccountAuthGuard`. -/
def Call.sessionOnly : Call → Bool
  | .updateProfile _ | .createKey _ _ | .revokeKey _ => true
  | .createEndpoint _ _ | .setEnabled _ _ | .removeEndpoint _ | .createAlert _ _
  | .updateStatus _ _ => false

/-- What a service throws. -/
inductive Failure where
  | badRequest (message : String)
  | forbidden (message : String)
  | notFound (message : String)
  | conflict (message : String)
  | endpoint (failure : Webhooks.Failure)
  | internal (message : String)

/-! ## Handlers -/

/-- A new address is unverified; what the input leaves out stays. -/
def Profile.apply (userId : Id) (input : UpdateProfileDto) (row : Profile) : Profile :=
  if row.userId = userId then
    { row with
      email := input.email.getD row.email
      emailVerifiedAt := if input.email = none then row.emailVerifiedAt else none
      notifyByEmail := input.notifyByEmail.getD row.notifyByEmail }
  else row

theorem Profile.apply_userId (userId : Id) (input : UpdateProfileDto) (row : Profile) :
    (row.apply userId input).userId = row.userId := by
  unfold Profile.apply
  split <;> rfl

/-- The address of another account, where the column is unique. -/
def emailTaken (profiles : Table Profile.userId) (userId : Id) (input : UpdateProfileDto) : Bool :=
  match input.email with
  | some (some email) =>
      profiles.rows.any fun row => row.userId ≠ userId && row.email = some email
  | some none | none => false

/-- The profile with the input, unless another account has the address. -/
def updateProfile (profiles : Table Profile.userId) (userId : Id) (input : UpdateProfileDto) :
    Except Failure (Table Profile.userId) :=
  if userId ∉ profiles.rows.map Profile.userId then .error (.internal "Record to update not found")
  else if emailTaken profiles userId input then
    .error (.conflict "That email address is already linked to another account")
  else .ok (profiles.update (Profile.apply userId input) (Profile.apply_userId userId input))

/-- The user to whom a wallet is linked. -/
def owner (wallets : Table Wallet.address) (address : String) : Option Id :=
  (wallets.rows.find? fun row => row.address = address).bind Wallet.userId

/-- The wallet is linked to the user. -/
def assertOwnedWallet (wallets : Table Wallet.address) (userId : Id) (address : String) :
    Except Failure Unit :=
  if owner wallets address = some userId then .ok ()
  else .error (.forbidden "Sign in with this address before creating alerts for it")

/-- The address is a principal. -/
def assertAddress (validateStacksAddress : String → Bool) (address : String) :
    Except Failure Unit :=
  if Chainhook.isStacksPrincipal validateStacksAddress address then .ok ()
  else .error (.badRequest "A valid Stacks principal is required")

/-- The threshold has to be a number that is finite and not negative. -/
def checkThreshold (threshold : Text) : Except Failure Unit :=
  match finiteNumber threshold with
  | none => .error (.badRequest "Alert threshold must be a non-negative number")
  | some numericThreshold =>
      if numericThreshold < 0 then
        .error (.badRequest "Alert threshold must be a non-negative number")
      else .ok ()

/-- What `create` checks. -/
def checkAlert (validateStacksAddress : String → Bool) (wallets : Table Wallet.address)
    (userId : Id) (address : String) (input : CreateAlertDto) : Except Failure Unit := do
  assertAddress validateStacksAddress address
  checkThreshold input.threshold
  assertOwnedWallet wallets userId address

/-- What `create` writes. -/
def insertRule (rules : Table AlertRule.id) (address : String) (input : CreateAlertDto) (id : Id) :
    Except Failure (Table AlertRule.id) :=
  if id ∈ rules.rows.map AlertRule.id then .error (.internal "Unique constraint failed")
  else
    .ok (rules.upsert
      { id, address, metric := input.metric, operator := input.operator,
        threshold := input.threshold, status := .active })

/-- `create`, with nothing between its check and its write. -/
def createAlert (validateStacksAddress : String → Bool) (wallets : Table Wallet.address)
    (rules : Table AlertRule.id) (userId : Id) (address : String) (input : CreateAlertDto)
    (id : Id) : Except Failure (Table AlertRule.id) := do
  checkAlert validateStacksAddress wallets userId address input
  insertRule rules address input id

/-- The columns that `updateStatus` sets. -/
def AlertRule.setStatus (id : Text) (status : AlertStatus) (row : AlertRule) : AlertRule :=
  if row.id.text = id then { row with status } else row

theorem AlertRule.setStatus_id (id : Text) (status : AlertStatus) (row : AlertRule) :
    (row.setStatus id status).id = row.id := by
  unfold AlertRule.setStatus
  split <;> rfl

/-- What `updateStatus` checks. -/
def checkStatus (wallets : Table Wallet.address) (rules : Table AlertRule.id) (userId : Id)
    (id : Text) : Except Failure Unit :=
  match rules.rows.find? fun row => row.id.text = id with
  | none => .error (.notFound "Alert rule not found")
  | some existing =>
      if owner wallets existing.address ≠ some userId then
        .error (.forbidden "This alert rule belongs to another account")
      else .ok ()

/-- A write to one row throws if there is no such row. -/
def requireRow (found : Bool) : Except Failure Unit :=
  if found then .ok () else .error (.internal "Record not found")

/-- What `updateStatus` writes. -/
def updateStatus (rules : Table AlertRule.id) (id : Text) (status : AlertStatus) :
    Except Failure (Table AlertRule.id) := do
  requireRow (rules.rows.any fun row => row.id.text = id)
  return rules.update (AlertRule.setStatus id status) (AlertRule.setStatus_id id status)

/-- What `revoke` checks. -/
def checkKey (store : Bearer.Store) (userId : Id) (id : Text) : Except Failure Unit :=
  if store.apiKeys.rows.any fun row =>
      row.id.text = id ∧ row.userId = userId ∧ row.revokedAt = none then .ok ()
  else .error (.notFound "API key not found")

/-- What `revoke` writes. -/
def revokeKey (store : Bearer.Store) (id : Text) (now : ℕ) : Except Failure Bearer.Store := do
  requireRow (store.apiKeys.rows.any fun row => row.id.text = id)
  return { store with
    apiKeys := store.apiKeys.update (Bearer.ApiKey.revokeAt now id)
      (Bearer.ApiKey.revokeAt_id now id) }

/-- What `setEnabled` and `remove` check. -/
def checkEndpoint (endpoints : Table Endpoint.id) (userId : Id) (id : String) :
    Except Failure Unit :=
  if (Webhooks.existing endpoints userId id).isSome then .ok ()
  else .error (.notFound "Webhook endpoint not found")

/-- What `setEnabled` writes. -/
def setEnabled (endpoints : Table Endpoint.id) (id : String) (enabled : Bool) :
    Except Failure (Table Endpoint.id) := do
  requireRow (endpoints.rows.any fun row => row.id.text = id)
  return endpoints.update (Endpoint.enable id enabled) (Endpoint.enable_id id enabled)

/-- What `remove` writes. -/
def removeEndpoint (endpoints : Table Endpoint.id) (id : String) :
    Except Failure (Table Endpoint.id) := do
  requireRow (endpoints.rows.any fun row => row.id.text = id)
  return endpoints.delete fun row => row.id.text = id

/-! ## The service -/

/-- A login behind the check of its signature, `linkWalletToUser` step by step. -/
inductive Login where
  | idle
  /-- The wallet has no user. -/
  | creating (address : String)
  | upserting (address : String) (user : Id)
  | linked (address : String) (user : Id)
deriving DecidableEq

/-- A request whose guard has let it through. -/
structure Admitted where
  call : Call
  userId : Text
  /-- The handler has read what it checks. -/
  checked : Bool

/-- The tables, the ids drawn for endpoints, and the logins and requests under way. -/
structure State where
  bearer : Bearer.State
  profiles : Table Profile.userId
  wallets : Table Wallet.address
  rules : Table AlertRule.id
  endpoints : Table Endpoint.id
  drawn : List Cuid
  logins : ℕ → Login
  requests : ℕ → Option Admitted

/-- No rows, and nothing under way. -/
def State.start : State where
  bearer := .start
  profiles := .empty
  wallets := .empty
  rules := .empty
  endpoints := .empty
  drawn := []
  logins := fun _ => .idle
  requests := fun _ => none

/-- What the service calls outside itself. -/
structure Services where
  sha256 : Text → Attestation.Sha256Digest
  env : Bearer.Env
  jose : Bearer.Jose
  crypto : Webhooks.Crypto
  material : Option Text
  parseUrl : Text → Option Webhooks.ParsedUrl
  validateStacksAddress : String → Bool

/-- What a handler draws. -/
structure Draws where
  id : Id
  cuid : Cuid
  random : RandomKey
  iv : Iv
  now : ℕ

section

variable (services : Services)

/-- What the handler of a call reads and checks first. -/
def check (state : State) (user : Id) : Call → Except Failure Unit
  | .updateProfile _ | .createKey _ _ | .createEndpoint _ _ => .ok ()
  | .revokeKey id => checkKey state.bearer.store user id
  | .setEnabled id _ | .removeEndpoint id => checkEndpoint state.endpoints user id
  | .createAlert address input =>
      checkAlert services.validateStacksAddress state.wallets user address input
  | .updateStatus id _ => checkStatus state.wallets state.rules user id

/-- What the handler of a call writes then. -/
def write (state : State) (user : Id) (draws : Draws) : Call → Except Failure State
  | .updateProfile input => do
      let profiles ← updateProfile state.profiles user input
      return { state with profiles }
  | .createKey name isLive => do
      let (_, store) ← (Bearer.create services.sha256 services.env state.bearer.store user draws.id
        name isLive draws.random draws.now).mapError .internal
      return { state with bearer := { state.bearer with store } }
  | .revokeKey id => do
      let store ← revokeKey state.bearer.store id draws.now
      return { state with bearer := { state.bearer with store } }
  | .createEndpoint url events => do
      let (_, endpoints) ← (Webhooks.create services.crypto services.material services.parseUrl
        state.endpoints user url events draws.random draws.iv draws.cuid draws.now).mapError
          .endpoint
      return { state with endpoints, drawn := draws.cuid :: state.drawn }
  | .setEnabled id enabled => do
      let endpoints ← setEnabled state.endpoints id enabled
      return { state with endpoints }
  | .removeEndpoint id => do
      let endpoints ← removeEndpoint state.endpoints id
      return { state with endpoints }
  | .createAlert address input => do
      let rules ← insertRule state.rules address input draws.id
      return { state with rules }
  | .updateStatus id status => do
      let rules ← updateStatus state.rules id status
      return { state with rules }

/-- A scan, a step of a login or of a request. -/
inductive Action where
  /-- A scan of an address upserts its wallet. -/
  | scan (address : String)
  | findWallet (login : ℕ) (address : String)
  | createUser (login : ℕ) (user : Id)
  | upsertWallet (login : ℕ)
  | issueTokens (login : ℕ) (access refresh : Stamp)
  | refresh (token : Text) (now : ℕ) (access refresh : Stamp)
  | receive (request : ℕ) (call : Call) (header : Option Text) (now : ℕ) (order : RowOrder)
  /-- The handler reads what it checks. -/
  | check (request : ℕ)
  /-- The handler writes. -/
  | run (request : ℕ) (draws : Draws)

/-- The login goes on. -/
def State.setLogin (state : State) (login : ℕ) (progress : Login) : State :=
  { state with logins := Function.update state.logins login progress }

/-- The request goes on, or is over. -/
def State.setRequest (state : State) (request : ℕ) (admitted : Option Admitted) : State :=
  { state with requests := Function.update state.requests request admitted }

/-- The user of a request, among those that exist. -/
def State.findUser (state : State) (userId : Text) : Option Id :=
  state.bearer.store.users.find? fun user => user.text = userId

/-- A call that throws leaves the tables as they are, and so does every call for a user who does
not exist. -/
def next : Step State Action
  | state, .scan address =>
      if address ∈ state.wallets.rows.map Wallet.address then some state
      else some { state with wallets := state.wallets.upsert ⟨address, none⟩ }
  | state, .findWallet login address =>
      match owner state.wallets address with
      | some user => some (state.setLogin login (.linked address user))
      | none => some (state.setLogin login (.creating address))
  | state, .createUser login user =>
      match state.logins login with
      | .creating address =>
          if user ∈ state.bearer.store.users then none
          else
            let state := state.setLogin login (.upserting address user)
            some { state with
              bearer := state.bearer.link user
              profiles := state.profiles.upsert (Profile.new user) }
      | _ => none
  | state, .upsertWallet login =>
      match state.logins login with
      | .upserting address user =>
          let state := state.setLogin login (.linked address user)
          some { state with wallets := state.wallets.upsert ⟨address, some user⟩ }
      | _ => none
  | state, .issueTokens login access refresh =>
      match state.logins login with
      | .linked _ user =>
          (Bearer.next services.sha256 services.env services.jose state.bearer
            (.login user access refresh)).map fun bearer =>
              { state.setLogin login .idle with bearer }
      | _ => none
  | state, .refresh token now access refresh =>
      (Bearer.next services.sha256 services.env services.jose state.bearer
        (.refresh token now access refresh)).map fun bearer => { state with bearer }
  | state, .receive request call header now order =>
      match state.requests request with
      | some _ => none
      | none =>
          if call.sessionOnly then
            match Bearer.jwtAuthGuard services.env services.jose header now with
            | .ok userId => some (state.setRequest request (some ⟨call, userId, false⟩))
            | .error _ => some state
          else
            match Bearer.accountAuthGuard services.sha256 services.env services.jose order
              state.bearer.store header now with
            | .ok (admission, store) =>
                let state := state.setRequest request (some ⟨call, admission.userId, false⟩)
                some { state with bearer := { state.bearer with store } }
            | .error _ => some state
  | state, .check request =>
      match state.requests request with
      | none => none
      | some admitted =>
          if admitted.checked then none
          else
            match state.findUser admitted.userId with
            | none => some (state.setRequest request none)
            | some user =>
                match check services state user admitted.call with
                | .ok _ => some (state.setRequest request (some { admitted with checked := true }))
                | .error _ => some (state.setRequest request none)
  | state, .run request draws =>
      match state.requests request with
      | none => none
      | some admitted =>
          if admitted.checked = false ∨ draws.cuid ∈ state.drawn then none
          else
            let state := state.setRequest request none
            match state.findUser admitted.userId with
            | none => some state
            | some user =>
                match write services state user draws admitted.call with
                | .ok target => some target
                | .error _ => some state

end

/-! ## What a handler does -/

/-- The one table that a call writes. -/
inductive Effect (services : Services) (source : State) (user : Id) (draws : Draws) :
    Call → State → Prop where
  | updateProfile {input : UpdateProfileDto} {profiles : Table Profile.userId}
      (updated : updateProfile source.profiles user input = .ok profiles) :
      Effect services source user draws (.updateProfile input) { source with profiles }
  | createKey {name : Text} {isLive : Bool} {created : Bearer.CreatedKey} {store : Bearer.Store}
      (made : Bearer.create services.sha256 services.env source.bearer.store user draws.id name
        isLive draws.random draws.now = .ok (created, store)) :
      Effect services source user draws (.createKey name isLive)
        { source with bearer := { source.bearer with store } }
  | revokeKey {id : Text} {store : Bearer.Store}
      (revoked : revokeKey source.bearer.store id draws.now = .ok store) :
      Effect services source user draws (.revokeKey id)
        { source with bearer := { source.bearer with store } }
  | createEndpoint {url : Text} {events : List Text} {created : Webhooks.CreatedEndpoint}
      {endpoints : Table Endpoint.id}
      (made : Webhooks.create services.crypto services.material services.parseUrl
        source.endpoints user url events draws.random draws.iv draws.cuid draws.now =
          .ok (created, endpoints)) :
      Effect services source user draws (.createEndpoint url events)
        { source with endpoints, drawn := draws.cuid :: source.drawn }
  | setEnabled {id : String} {enabled : Bool} {endpoints : Table Endpoint.id}
      (set : setEnabled source.endpoints id enabled = .ok endpoints) :
      Effect services source user draws (.setEnabled id enabled) { source with endpoints }
  | removeEndpoint {id : String} {endpoints : Table Endpoint.id}
      (removed : removeEndpoint source.endpoints id = .ok endpoints) :
      Effect services source user draws (.removeEndpoint id) { source with endpoints }
  | createAlert {address : String} {input : CreateAlertDto} {rules : Table AlertRule.id}
      (made : insertRule source.rules address input draws.id = .ok rules) :
      Effect services source user draws (.createAlert address input) { source with rules }
  | updateStatus {id : Text} {status : AlertStatus} {rules : Table AlertRule.id}
      (updated : updateStatus source.rules id status = .ok rules) :
      Effect services source user draws (.updateStatus id status) { source with rules }

variable {services : Services} {source target : State} {user : Id} {draws : Draws} {call : Call}

theorem effect_of_write (written : write services source user draws call = .ok target) :
    Effect services source user draws call target := by
  cases call with
  | updateProfile input =>
      obtain ⟨profiles, updated, made⟩ := bind_eq_ok_iff.mp written
      cases made
      exact .updateProfile updated
  | createKey name isLive =>
      obtain ⟨_, created, made⟩ := bind_eq_ok_iff.mp written
      cases made
      exact .createKey (mapError_eq_ok_iff.mp created)
  | revokeKey id =>
      obtain ⟨_, revoked, made⟩ := bind_eq_ok_iff.mp written
      cases made
      exact .revokeKey revoked
  | createEndpoint url events =>
      obtain ⟨_, created, made⟩ := bind_eq_ok_iff.mp written
      cases made
      exact .createEndpoint (mapError_eq_ok_iff.mp created)
  | setEnabled id enabled =>
      obtain ⟨_, set, made⟩ := bind_eq_ok_iff.mp written
      cases made
      exact .setEnabled set
  | removeEndpoint id =>
      obtain ⟨_, removed, made⟩ := bind_eq_ok_iff.mp written
      cases made
      exact .removeEndpoint removed
  | createAlert address input =>
      obtain ⟨_, created, made⟩ := bind_eq_ok_iff.mp written
      cases made
      exact .createAlert created
  | updateStatus id status =>
      obtain ⟨_, updated, made⟩ := bind_eq_ok_iff.mp written
      cases made
      exact .updateStatus updated

theorem checkThreshold_eq_ok_iff {threshold : Text} {result : Unit} :
    checkThreshold threshold = .ok result ↔ ∃ x, finiteNumber threshold = some x ∧ 0 ≤ x := by
  unfold checkThreshold
  cases finiteNumber threshold with
  | none => simp
  | some x => simp

theorem assertOwnedWallet_eq_ok_iff {wallets : Table Wallet.address} {address : String}
    {result : Unit} :
    assertOwnedWallet wallets user address = .ok result ↔ owner wallets address = some user := by
  unfold assertOwnedWallet
  split_ifs with owned
  · simp [owned]
  · simp [owned]

theorem checkAlert_eq_ok_iff {validateStacksAddress : String → Bool}
    {wallets : Table Wallet.address} {address : String} {input : CreateAlertDto} {result : Unit} :
    checkAlert validateStacksAddress wallets user address input = .ok result ↔
      Chainhook.isStacksPrincipal validateStacksAddress address = true ∧
        (∃ x, finiteNumber input.threshold = some x ∧ 0 ≤ x) ∧
          owner wallets address = some user := by
  have principal : assertAddress validateStacksAddress address = .ok () ↔
      Chainhook.isStacksPrincipal validateStacksAddress address = true := by
    unfold assertAddress
    split_ifs with accepted
    · simp [accepted]
    · simp [accepted]
  have threshold : checkThreshold input.threshold = .ok () ↔
      ∃ x, finiteNumber input.threshold = some x ∧ 0 ≤ x :=
    checkThreshold_eq_ok_iff
  have owned : assertOwnedWallet wallets user address = .ok result ↔
      owner wallets address = some user :=
    assertOwnedWallet_eq_ok_iff
  unfold checkAlert
  rw [bind_eq_ok_iff, ← principal, ← threshold, ← owned]
  constructor
  · rintro ⟨_, accepted, rest⟩
    obtain ⟨_, checked, owned⟩ := bind_eq_ok_iff.mp rest
    exact ⟨accepted, checked, owned⟩
  · rintro ⟨accepted, checked, owned⟩
    exact ⟨(), accepted, bind_eq_ok_iff.mpr ⟨(), checked, owned⟩⟩

theorem checkStatus_eq_ok {wallets : Table Wallet.address} {rules : Table AlertRule.id}
    {id : Text} {result : Unit} (checked : checkStatus wallets rules user id = .ok result) :
    ∃ existing ∈ rules.rows, existing.id.text = id ∧
      owner wallets existing.address = some user := by
  unfold checkStatus at checked
  split at checked
  next => cases checked
  next existing found =>
    split_ifs at checked with owned
    have named := List.find?_some found
    rw [decide_eq_true_iff] at named
    exact ⟨existing, List.mem_of_find?_eq_some found, named, not_not.mp owned⟩

theorem checkKey_eq_ok {store : Bearer.Store} {id : Text} {result : Unit}
    (checked : checkKey store user id = .ok result) :
    ∃ row ∈ store.apiKeys.rows, row.id.text = id ∧ row.userId = user := by
  unfold checkKey at checked
  split_ifs at checked with existing
  obtain ⟨row, member, same⟩ := List.any_eq_true.mp existing
  rw [decide_eq_true_iff] at same
  exact ⟨row, member, same.1, same.2.1⟩

theorem checkEndpoint_eq_ok {endpoints : Table Endpoint.id} {id : String} {result : Unit}
    (checked : checkEndpoint endpoints user id = .ok result) :
    ∃ row ∈ endpoints.rows, row.id.text = id ∧ row.userId = user := by
  unfold checkEndpoint at checked
  split_ifs at checked with existing
  obtain ⟨row, found⟩ := Option.isSome_iff_exists.mp existing
  have owned := List.find?_some found
  exact ⟨row, List.mem_of_find?_eq_some found, of_decide_eq_true owned⟩

/-! ### Writes -/

theorem insertRule_eq_ok {rules later : Table AlertRule.id} {address : String}
    {input : CreateAlertDto} {id : Id} (made : insertRule rules address input id = .ok later) :
    id ∉ rules.rows.map AlertRule.id ∧
      later = rules.upsert
        { id, address, metric := input.metric, operator := input.operator,
          threshold := input.threshold, status := .active } := by
  unfold insertRule at made
  split_ifs at made with taken
  cases made
  exact ⟨taken, rfl⟩

/-- A write that requires a row. -/
theorem requireRow_bind_eq_ok {α : Type} {found : Bool} {later result : α}
    (written : (requireRow found >>= fun _ => pure later) = .ok result) : result = later := by
  obtain ⟨_, -, made⟩ := bind_eq_ok_iff.mp written
  cases made
  rfl

theorem updateStatus_eq_ok {rules later : Table AlertRule.id} {id : Text} {status : AlertStatus}
    (updated : updateStatus rules id status = .ok later) :
    later = rules.update (AlertRule.setStatus id status) (AlertRule.setStatus_id id status) :=
  requireRow_bind_eq_ok updated

theorem revokeKey_eq_ok {store later : Bearer.Store} {id : Text} {now : ℕ}
    (revoked : revokeKey store id now = .ok later) :
    later = { store with
      apiKeys := store.apiKeys.update (Bearer.ApiKey.revokeAt now id)
        (Bearer.ApiKey.revokeAt_id now id) } :=
  requireRow_bind_eq_ok revoked

theorem setEnabled_eq_ok {endpoints later : Table Endpoint.id} {id : String} {enabled : Bool}
    (set : setEnabled endpoints id enabled = .ok later) :
    later = endpoints.update (Endpoint.enable id enabled) (Endpoint.enable_id id enabled) :=
  requireRow_bind_eq_ok set

theorem removeEndpoint_eq_ok {endpoints later : Table Endpoint.id} {id : String}
    (removed : removeEndpoint endpoints id = .ok later) :
    later = endpoints.delete fun row => row.id.text = id :=
  requireRow_bind_eq_ok removed

/-! ## Steps -/

/-- What a step does: it writes what a handler writes, or a row of a wallet or a new user, or
nothing but sessions and last uses. -/
inductive Turn (services : Services) (source : State) : Action → State → Prop where
  | scanned {address : String} (unknown : address ∉ source.wallets.rows.map Wallet.address) :
      Turn services source (.scan address)
        { source with wallets := source.wallets.upsert ⟨address, none⟩ }
  | kept {action : Action} (idle : ∀ request draws, action ≠ .run request draws)
      (unchecked : ∀ request, action ≠ .check request) : Turn services source action source
  | found {login : ℕ} {address : String} {progress : Login}
      (read : progress = .creating address ∨
        ∃ user, owner source.wallets address = some user ∧ progress = .linked address user) :
      Turn services source (.findWallet login address) (source.setLogin login progress)
  | created {login : ℕ} {address : String} {user : Id}
      (creating : source.logins login = .creating address)
      (fresh : user ∉ source.bearer.store.users) :
      Turn services source (.createUser login user)
        { source.setLogin login (.upserting address user) with
          bearer := source.bearer.link user
          profiles := source.profiles.upsert (Profile.new user) }
  | linked {login : ℕ} {address : String} {user : Id}
      (upserting : source.logins login = .upserting address user) :
      Turn services source (.upsertWallet login)
        { source.setLogin login (.linked address user) with
          wallets := source.wallets.upsert ⟨address, some user⟩ }
  | issued {login : ℕ} {address : String} {user : Id} {access refresh : Stamp}
      (linked : source.logins login = .linked address user) :
      Turn services source (.issueTokens login access refresh)
        { source.setLogin login .idle with
          bearer := (source.bearer.link user).issue services.env services.jose user access refresh }
  | refreshed {token : Text} {now : ℕ} {access refresh : Stamp} {user : Id}
      (valid : Bearer.refreshUser services.env services.jose source.bearer.store token now =
        .ok user) :
      Turn services source (.refresh token now access refresh)
        { source with bearer := source.bearer.issue services.env services.jose user access refresh }
  | session {request : ℕ} {call : Call} {header : Option Text} {now : ℕ} {order : RowOrder}
      {userId : Text} (sessionOnly : call.sessionOnly = true)
      (passed : Bearer.jwtAuthGuard services.env services.jose header now = .ok userId) :
      Turn services source (.receive request call header now order)
        (source.setRequest request (some ⟨call, userId, false⟩))
  | account {request : ℕ} {call : Call} {header : Option Text} {now : ℕ} {order : RowOrder}
      {admission : Bearer.Admission} {store : Bearer.Store} (sessionOnly : call.sessionOnly = false)
      (passed : Bearer.accountAuthGuard services.sha256 services.env services.jose order
        source.bearer.store header now = .ok (admission, store)) :
      Turn services source (.receive request call header now order)
        { source.setRequest request (some ⟨call, admission.userId, false⟩) with
          bearer := { source.bearer with store } }
  | checked {request : ℕ} {user : Id} {call : Call}
      (asked : source.requests request = some ⟨call, user.text, false⟩)
      (passed : check services source user call = .ok ()) :
      Turn services source (.check request)
        (source.setRequest request (some ⟨call, user.text, true⟩))
  | rejected {request : ℕ} :
      Turn services source (.check request) (source.setRequest request none)
  | refused {request : ℕ} {draws : Draws}
      (failed : ∀ admitted user later, source.requests request = some admitted →
        source.findUser admitted.userId = some user →
          write services (source.setRequest request none) user draws admitted.call ≠ .ok later) :
      Turn services source (.run request draws) (source.setRequest request none)
  | handled {request : ℕ} {draws : Draws} {user : Id} {call : Call} {target : State}
      (asked : source.requests request = some ⟨call, user.text, true⟩)
      (found : source.findUser user.text = some user) (undrawn : draws.cuid ∉ source.drawn)
      (done : write services (source.setRequest request none) user draws call = .ok target) :
      Turn services source (.run request draws) target

theorem turn_of_next {action : Action} (step : next services source action = some target) :
    Turn services source action target := by
  cases action with
  | scan address =>
      simp only [next] at step
      split at step
      · cases step
        exact .kept nofun nofun
      next unknown =>
        cases step
        exact .scanned unknown
  | findWallet login address =>
      simp only [next] at step
      split at step
      next user found =>
        cases step
        exact .found (.inr ⟨user, found, rfl⟩)
      next =>
        cases step
        exact .found (.inl rfl)
  | createUser login user =>
      simp only [next] at step
      split at step
      next address creating =>
        split at step
        next => cases step
        next fresh =>
          cases step
          exact .created creating fresh
      next => cases step
  | upsertWallet login =>
      simp only [next] at step
      split at step
      next address user upserting =>
        cases step
        exact .linked upserting
      next => cases step
  | issueTokens login access refresh =>
      simp only [next] at step
      split at step
      next address user linked =>
        cases step
        exact .issued linked
      next => cases step
  | refresh token now access refresh =>
      simp only [next, Bearer.next] at step
      split at step
      next user valid =>
        cases step
        exact .refreshed valid
      next =>
        cases step
        exact .kept nofun nofun
  | receive request call header now order =>
      simp only [next] at step
      split at step
      next => cases step
      next =>
        split at step
        next sessionOnly =>
          split at step
          next userId passed =>
            cases step
            exact .session sessionOnly passed
          next =>
            cases step
            exact .kept nofun nofun
        next account =>
          split at step
          next admission store passed =>
            cases step
            exact .account (Bool.eq_false_iff.mpr account) passed
          next =>
            cases step
            exact .kept nofun nofun
  | check request =>
      simp only [next] at step
      split at step
      next => cases step
      next admitted asked =>
        split_ifs at step with checked
        rw [Bool.not_eq_true] at checked
        split at step
        next =>
          cases step
          exact .rejected
        next user found =>
          have named := List.find?_some found
          rw [decide_eq_true_iff] at named
          split at step
          next passed =>
            cases step
            have same : admitted = ⟨admitted.call, user.text, false⟩ := by
              rw [named, ← checked]
            rw [show ({ admitted with checked := true } : Admitted) =
              ⟨admitted.call, user.text, true⟩ from by rw [named]]
            exact .checked (asked.trans (congrArg some same)) passed
          next =>
            cases step
            exact .rejected
  | run request draws =>
      simp only [next] at step
      split at step
      next => cases step
      next admitted asked =>
        split_ifs at step with idle
        rw [not_or, Bool.not_eq_false] at idle
        split at step
        next missing =>
          cases step
          refine .refused fun other user later same found => ?_
          cases asked.symm.trans same
          cases missing.symm.trans found
        next user found =>
          have named := List.find?_some found
          rw [decide_eq_true_iff] at named
          split at step
          next later written =>
            cases step
            have same : admitted = ⟨admitted.call, user.text, true⟩ := by
              rw [named, ← idle.1]
            rw [← named] at found
            exact .handled (asked.trans (congrArg some same)) found idle.2 written
          next failure failed =>
            cases step
            refine .refused fun other owner later same stored written => ?_
            cases asked.symm.trans same
            cases found.symm.trans stored
            cases failed.symm.trans written

end RiskRail.Api
