import RiskRail.Attestation.Publisher
import RiskRail.Javascript.Hex
import RiskRail.Relational.Table

/-!
# API keys

`ApiKeysService` of the API: `create` stores the peppered hash of a random token, `revoke`
marks a row of its owner and `resolve` looks a presented token up by its first characters
and compares hashes.  SHA-256 stays a parameter.  `list`, which decides nothing, is left
out.
-/

namespace RiskRail.Auth.Bearer

open RiskRail.Javascript Text RiskRail.Relational

open RiskRail.Attestation (Sha256Digest)

/-! ## Environment and rows -/

/-- The secrets among the environment variables. -/
structure Env where
  apiKeyPepper : Option Text
  jwtSecret : Option Text

/-- A variable of at least 32 characters. -/
def longEnough (value : Option Text) (error : String) : Except String Text :=
  match value with
  | none => .error error
  | some text => if text = [] ∨ text.length < 32 then .error error else .ok text

/-- The pepper of the hashes. -/
def Env.pepper (env : Env) : Except String Text :=
  longEnough env.apiKeyPepper "API_KEY_PEPPER must be set to at least 32 characters"

/-- What the database draws for a row; it is never empty. -/
@[ext]
structure Id where
  text : Text
  nonempty : text ≠ []
deriving DecidableEq

/-- A row of `ApiKey`. -/
structure ApiKey where
  id : Id
  userId : Id
  keyPrefix : Text
  hash : Text
  name : Text
  lastUsedAt : Option ℕ
  revokedAt : Option ℕ
  createdAt : ℕ

/-- The update of `revoke`. -/
def ApiKey.revokeAt (now : ℕ) (id : Text) (row : ApiKey) : ApiKey :=
  if row.id.text = id then { row with revokedAt := some now } else row

/-- The update of `resolve`. -/
def ApiKey.useAt (now : ℕ) (id : Id) (row : ApiKey) : ApiKey :=
  if row.id = id then { row with lastUsedAt := some now } else row

theorem ApiKey.revokeAt_id (now : ℕ) (id : Text) (row : ApiKey) :
    (row.revokeAt now id).id = row.id := by
  unfold revokeAt
  split <;> rfl

theorem ApiKey.useAt_id (now : ℕ) (id : Id) (row : ApiKey) : (row.useAt now id).id = row.id := by
  unfold useAt
  split <;> rfl

/-- The tables that the service reads. -/
structure Store where
  users : List Id
  apiKeys : Table ApiKey.id

/-- No user and no key. -/
def Store.empty : Store where
  users := []
  apiKeys := Table.empty

/-- A query without `orderBy` returns its rows in some order. -/
structure RowOrder where
  arrange : List ApiKey → List ApiKey
  perm : ∀ rows, (arrange rows).Perm rows

/-! ## The service -/

/-- What the keys for the live network start with. -/
def live : Text :=
  ofString "rv_live_"

/-- What the keys for the test network start with. -/
def test : Text :=
  ofString "rv_test_"

/-- `randomBytes(24)`. -/
structure RandomKey where
  bytes : List UInt8
  length_eq : bytes.length = 24
deriving DecidableEq

/-- The plaintext of a new key. -/
def keyToken (isLive : Bool) (random : RandomKey) : Text :=
  (if isLive then live else test) ++ hexText random.bytes

/-- What `create` returns; the warning never changes. -/
structure CreatedKey where
  id : Id
  name : Text
  keyPrefix : Text
  createdAt : ℕ
  token : Text

section

variable (sha256 : Text → Sha256Digest) (env : Env)

/-- The hash under which a key is stored. -/
def hash (token : Text) : Except String Text := do
  let pepper ← env.pepper
  return hexText (sha256 (token ++ pepper)).bytes

/-- The only moment the plaintext token exists. -/
def create (store : Store) (userId id : Id) (name : Text) (isLive : Bool) (random : RandomKey)
    (now : ℕ) : Except String (CreatedKey × Store) := do
  let token := keyToken isLive random
  let hash ← hash sha256 env token
  let row : ApiKey :=
    { id, userId, keyPrefix := token.take 16, hash, name, lastUsedAt := none, revokedAt := none,
      createdAt := now }
  if userId ∉ store.users then throw "Foreign key constraint failed"
  if id ∈ store.apiKeys.rows.map ApiKey.id then throw "Unique constraint failed"
  return (
    { id, name, keyPrefix := row.keyPrefix, createdAt := now, token },
    { store with apiKeys := store.apiKeys.upsert row })

/-- A key of the user's own that was not revoked yet is revoked. -/
def revoke (store : Store) (userId : Id) (id : Text) (now : ℕ) : Except String Store :=
  let existing := store.apiKeys.rows.find? fun row =>
    row.id.text = id ∧ row.userId = userId ∧ row.revokedAt = none
  match existing with
  | none => .error "API key not found"
  | some _ =>
      .ok { store with
              apiKeys := store.apiKeys.update (ApiKey.revokeAt now id) (ApiKey.revokeAt_id now id) }

/-- `timingSafeEqual` on the bytes of two hexadecimal hashes. -/
def sameHash (stored candidate : Text) : Bool :=
  let a := bufferFromHex stored
  let b := bufferFromHex candidate
  a.length == b.length && a == b

/-- Resolves a presented token to its owner. -/
def resolve (order : RowOrder) (store : Store) (now : ℕ) (token : Text) :
    Except String (Option Text × Store) :=
  if !live.isPrefixOf token && !test.isPrefixOf token then .ok (none, store)
  else do
    let candidate ← hash sha256 env token
    let rows := order.arrange <| store.apiKeys.rows.filter fun row =>
      row.keyPrefix = token.take 16 ∧ row.revokedAt = none
    match rows.find? fun row => sameHash row.hash candidate with
    | some row =>
        let apiKeys := store.apiKeys.update (ApiKey.useAt now row.id) (ApiKey.useAt_id now row.id)
        return (some row.userId.text, { store with apiKeys })
    | none => return (none, store)

end

end RiskRail.Auth.Bearer
