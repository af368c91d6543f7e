import RiskRail.Auth.ApiKeys
import RiskRail.Transition.Core

/-!
# Guards of the API

`issue`, `decode` and `refresh` of `AuthService` and the two guards: `JwtAuthGuard` takes
access tokens, `AccountAuthGuard` also API keys.  Signing a token and checking a signature
belong to `jose` and stay parameters; the checks of the claims are spelled out.

A system is the sequence of logins, refreshes, calls of the key service and guarded
requests.  Each reads the clock anew.
-/

namespace RiskRail.Auth.Bearer

open RiskRail.Javascript Text RiskRail.Transition

open RiskRail.Attestation (Sha256Digest)

/-! ## Tokens -/

/-- The claims that the API sets or reads. -/
structure Payload where
  typ : Option Text
  sub : Option Text
  iss : Option Text
  aud : Option Text
  iat : Option ℕ
  exp : Option ℕ
deriving DecidableEq

/-- Signing with HS256 and checking a signature.  A compact token starts with the encoding
of `{"`. -/
structure Jose where
  sign : (secret : Text) → Payload → Text
  verified : (secret token : Text) → Option Payload
  verified_sign : ∀ secret payload, verified secret (sign secret payload) = some payload
  head_sign : ∀ secret payload, (sign secret payload).take 3 = ofString "eyJ"

/-- Seconds of a time in milliseconds. -/
def epoch (now : ℕ) : ℕ :=
  now / 1000

/-- `jwtVerify` with issuer and audience. -/
def jwtVerify (jose : Jose) (secret token : Text) (now : ℕ) : Option Payload :=
  (jose.verified secret token).filter fun payload =>
    payload.iss = some (ofString "rivisk") ∧ payload.aud = some (ofString "rivisk-api") ∧
      ∀ exp ∈ payload.exp, epoch now < exp

/-- The secret of the tokens. -/
def Env.secret (env : Env) : Except String Text :=
  longEnough env.jwtSecret "JWT_SECRET must be set to at least 32 characters"

/-- The two readings of the clock that a token takes. -/
structure Stamp where
  issuedAt : ℕ
  expiresFrom : ℕ
deriving DecidableEq

/-- The claims of an access token. -/
def accessPayload (userId : Text) (stamp : Stamp) : Payload where
  typ := none
  sub := some userId
  iss := some (ofString "rivisk")
  aud := some (ofString "rivisk-api")
  iat := some (epoch stamp.issuedAt)
  exp := some (epoch stamp.expiresFrom + 15 * 60)

/-- The claims of a refresh token. -/
def refreshPayload (userId : Text) (stamp : Stamp) : Payload where
  typ := some (ofString "refresh")
  sub := some userId
  iss := some (ofString "rivisk")
  aud := some (ofString "rivisk-api")
  iat := some (epoch stamp.issuedAt)
  exp := some (epoch stamp.expiresFrom + 30 * 24 * 60 * 60)

/-- What a login and a refresh answer with. -/
structure AuthTokens where
  accessToken : Text
  refreshToken : Text
  expiresIn : ℕ

section

variable (sha256 : Text → Sha256Digest) (env : Env) (jose : Jose)

/-- A pair of tokens for a user. -/
def issue (userId : Text) (access refresh : Stamp) : Except String AuthTokens := do
  let secret ← env.secret
  return {
    accessToken := jose.sign secret (accessPayload userId access)
    refreshToken := jose.sign secret (refreshPayload userId refresh)
    expiresIn := 15 * 60 }

/-- Used by the guards. -/
def decode (token : Text) (now : ℕ) : Except String Payload :=
  let verified := do jwtVerify jose (← env.secret.toOption) token now
  match verified with
  | some payload => .ok payload
  | none => .error "Invalid or expired token"

/-- The user for whom a refresh token is exchanged. -/
def refreshUser (store : Store) (refreshToken : Text) (now : ℕ) : Except String Id := do
  let payload ← decode env jose refreshToken now
  if payload.typ ≠ some (ofString "refresh") then throw "Not a refresh token"
  match payload.sub with
  | none => throw "Not a refresh token"
  | some sub =>
      match store.users.find? fun user => user.text = sub with
      | none => throw "User no longer exists"
      | some user => return user

/-! ## Guards -/

/-- What the header starts with. -/
def bearer : Text :=
  ofString "Bearer "

/-- The token of the header. -/
def bearerToken (header : Option Text) : Except String Text :=
  match header with
  | none => .error "Missing bearer token"
  | some text =>
      if bearer.isPrefixOf text then .ok (text.drop 7) else .error "Missing bearer token"

/-- The user of an access token. -/
def sessionUser (payload : Payload) : Except String Text :=
  if payload.typ = some (ofString "refresh") then .error "An access token is required"
  else
    match payload.sub with
    | none => .error "An access token is required"
    | some sub => .ok sub

/-- Bearer access token to user.  Rejects refresh tokens. -/
def jwtAuthGuard (header : Option Text) (now : ℕ) : Except String Text := do
  let token ← bearerToken header
  let payload ← decode env jose token now
  sessionUser payload

/-- How a request was authenticated. -/
inductive AuthMethod where
  | session
  | apiKey
deriving DecidableEq

/-- What a guard writes into the request. -/
structure Admission where
  userId : Text
  authMethod : AuthMethod
deriving DecidableEq

/-- Accepts an access token or an API key. -/
def accountAuthGuard (order : RowOrder) (store : Store) (header : Option Text) (now : ℕ) :
    Except String (Admission × Store) := do
  let token ← bearerToken header
  if live.isPrefixOf token || test.isPrefixOf token then
    let (userId, store) ← resolve sha256 env order store now token
    match userId with
    | none => throw "Invalid or revoked API key"
    | some userId =>
        if userId = [] then throw "Invalid or revoked API key"
        return (⟨userId, .apiKey⟩, store)
  else
    let payload ← decode env jose token now
    let userId ← sessionUser payload
    return (⟨userId, .session⟩, store)

/-! ## Runs -/

/-- A call of `issue` that returned tokens. -/
structure Issue where
  user : Id
  access : Stamp
  refresh : Stamp
deriving DecidableEq

/-- The tables, and the tokens issued so far. -/
structure State where
  store : Store
  issued : List Issue

/-- No user, no key and no token. -/
def State.start : State where
  store := Store.empty
  issued := []

/-- `issue` for a user. -/
def State.issue (state : State) (user : Id) (access refresh : Stamp) : State :=
  match Bearer.issue env jose user.text access refresh with
  | .ok _ => { state with issued := ⟨user, access, refresh⟩ :: state.issued }
  | .error _ => state

/-- `linkWalletToUser`: the user of the wallet, or a new one. -/
def State.link (state : State) (user : Id) : State :=
  if user ∈ state.store.users then state
  else { state with store := { state.store with users := user :: state.store.users } }

/-- What the sign-ins, the keys and the guarded requests do. -/
inductive Action where
  | login (user : Id) (access refresh : Stamp)
  | refresh (token : Text) (now : ℕ) (access refresh : Stamp)
  | create (userId id : Id) (name : Text) (isLive : Bool) (random : RandomKey) (now : ℕ)
  | revoke (userId : Id) (id : Text) (now : ℕ)
  /-- A request to a route behind `AccountAuthGuard`. -/
  | present (header : Option Text) (now : ℕ) (order : RowOrder)

/-- One call.  A `create` that throws returns no token and is no step; any other call that
throws leaves the tables as they are. -/
def next : Step State Action
  | state, .login user access refresh => some ((state.link user).issue env jose user access refresh)
  | state, .refresh token now access refresh =>
      match refreshUser env jose state.store token now with
      | .ok user => some (state.issue env jose user access refresh)
      | .error _ => some state
  | state, .create userId id name isLive random now =>
      match create sha256 env state.store userId id name isLive random now with
      | .ok (_, store) => some { state with store }
      | .error _ => none
  | state, .revoke userId id now =>
      match revoke state.store userId id now with
      | .ok store => some { state with store }
      | .error _ => some state
  | state, .present header now order =>
      match accountAuthGuard sha256 env jose order state.store header now with
      | .ok (_, store) => some { state with store }
      | .error _ => some state

end

end RiskRail.Auth.Bearer
