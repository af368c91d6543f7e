import RiskRail.Auth.Accounts
import RiskRail.Javascript.Numeral
import Mathlib.Logic.Equiv.List

/-!
# Who is admitted

Under the usual assumptions about SHA-256, random keys and signatures `AccountAuthGuard`
admits a request as a user exactly with a key of that user that stands, or with an access
token issued for that user that has not expired.
-/

namespace RiskRail.Auth.Bearer

open RiskRail.Javascript Text RiskRail.Transition RiskRail.Relational

open RiskRail.Attestation (Sha256Digest bind_eq_ok_iff)

section

variable (sha256 : Text → Sha256Digest) (env : Env) (jose : Jose) (actions : List Action)
  (issued : List Issue) (token : Text)

/-- No key is drawn twice, no key collides with the token, and a token whose signature
verifies is one that was issued, letter by letter: that a verifier also takes a signature in
another base64url spelling, with other unused bits in its last letter, is left out. -/
structure Ideal : Prop where
  distinct : (actions.filterMap Action.key).Nodup
  collisionFree : ∀ pepper, env.pepper = .ok pepper →
    ∀ key ∈ actions.filterMap Action.key, sha256 (token ++ pepper) = sha256 (key ++ pepper) →
      token ++ pepper = key ++ pepper
  unforgeable : ∀ secret payload, env.secret = .ok secret →
    jose.verified secret token = some payload → ∃ issue ∈ issued,
      token = jose.sign secret (accessPayload issue.user.text issue.access) ∨
        token = jose.sign secret (refreshPayload issue.user.text issue.refresh)

/-- The token is an access token of the user that has not expired. -/
def SessionStands (user : Id) (now : ℕ) : Prop :=
  ∃ secret access refresh, env.secret = .ok secret ∧ ⟨user, access, refresh⟩ ∈ issued ∧
    token = jose.sign secret (accessPayload user.text access) ∧
      epoch now < epoch access.expiresFrom + 15 * 60

end

variable {sha256 : Text → Sha256Digest} {env : Env} {jose : Jose} {actions : List Action}
  {issued : List Issue} {token : Text} {user id : Id} {now : ℕ}

/-! ## Keys -/

theorem sameHash_hexText {first second : Sha256Digest}
    (same : sameHash (hexText first.bytes) (hexText second.bytes) = true) : first = second := by
  unfold sameHash at same
  rw [(of_hexToBytes (hexToBytes_hexText _)).2.2, (of_hexToBytes (hexToBytes_hexText _)).2.2,
    Bool.and_eq_true, beq_iff_eq, beq_iff_eq] at same
  cases first
  cases second
  cases same.2
  rfl

theorem sameHash_self (text : Text) : sameHash text text = true := by
  simp [sameHash]

theorem hash_eq_ok {hashed : Text} (found : hash sha256 env token = .ok hashed) :
    ∃ pepper, env.pepper = .ok pepper ∧ hashed = hexText (sha256 (token ++ pepper)).bytes := by
  unfold hash at found
  cases pepper : env.pepper with
  | error error =>
      rw [pepper] at found
      cases found
  | ok text =>
      rw [pepper] at found
      cases found
      exact ⟨text, rfl, rfl⟩

/-- Equal hashes are hashes of one key. -/
theorem Ideal.eq_of_hash (ideal : Ideal sha256 env jose actions issued token) {key : Text}
    {hashed stored : Text} (member : key ∈ actions.filterMap Action.key)
    (first : hash sha256 env token = .ok hashed) (second : hash sha256 env key = .ok stored)
    (same : sameHash stored hashed = true) : token = key := by
  obtain ⟨pepper, peppered, rfl⟩ := hash_eq_ok first
  obtain ⟨pepper', peppered', rfl⟩ := hash_eq_ok second
  cases peppered.symm.trans peppered'
  exact List.append_cancel_right
    (ideal.collisionFree pepper peppered key member (sameHash_hexText same).symm)

/-- A key that stands starts like one. -/
theorem KeyStands.startsAsKey (stands : KeyStands actions user id token) :
    (live.isPrefixOf token || test.isPrefixOf token) = true := by
  obtain ⟨name, isLive, random, now, -, rfl⟩ := stands.exists_mem
  rw [Bool.or_eq_true, List.isPrefixOf_iff_prefix, List.isPrefixOf_iff_prefix]
  cases isLive with
  | true => exact .inl (List.prefix_append _ _)
  | false => exact .inr (List.prefix_append _ _)

/-- The rows that `resolve` compares. -/
def candidates (order : RowOrder) (store : Store) (token : Text) : List ApiKey :=
  order.arrange <| store.apiKeys.rows.filter fun row =>
    row.keyPrefix = token.take 16 ∧ row.revokedAt = none

theorem mem_candidates_iff {order : RowOrder} {store : Store} {row : ApiKey} :
    row ∈ candidates order store token ↔
      row ∈ store.apiKeys.rows ∧ row.keyPrefix = token.take 16 ∧ row.revokedAt = none := by
  rw [candidates, (order.perm _).mem_iff, List.mem_filter, decide_eq_true_iff]

/-- A row with the hash of the token is that of a key that stands, and the key is the
token. -/
theorem Ideal.keyStands_of_find (ideal : Ideal sha256 env jose actions issued token) {store : Store}
    (recorded : Recorded sha256 env actions store.apiKeys.rows) {order : RowOrder} {row : ApiKey}
    {candidate : Text} (hashed : hash sha256 env token = .ok candidate)
    (found : (candidates order store token).find? (fun row => sameHash row.hash candidate) =
      some row) :
    KeyStands actions row.userId row.id token := by
  obtain ⟨stored, -, unrevoked⟩ := mem_candidates_iff.mp (List.mem_of_find?_eq_some found)
  obtain ⟨key, stands, -, keyed⟩ := recorded.sound row stored unrevoked
  have same := List.find?_some found
  rw [ideal.eq_of_hash stands.mem_keys hashed keyed same]
  exact stands

/-- The key service finds the owner of a key that stands. -/
theorem Ideal.resolve_of_keyStands (ideal : Ideal sha256 env jose actions issued token)
    {store : Store} (recorded : Recorded sha256 env actions store.apiKeys.rows) (order : RowOrder)
    (now : ℕ) (stands : KeyStands actions user id token) :
    ∃ later, resolve sha256 env order store now token = .ok (some user.text, later) := by
  obtain ⟨row, stored, unrevoked, -, -, fragment, hashed⟩ := recorded.complete user id token stands
  have member : row ∈ candidates order store token :=
    mem_candidates_iff.mpr ⟨stored, fragment, unrevoked⟩
  unfold resolve
  rw [← Bool.not_or, stands.startsAsKey, if_neg (by decide), hashed]
  dsimp only [bind, Except.bind]
  split
  next other found =>
    have owner := ideal.keyStands_of_find recorded hashed found
    exact ⟨_, by rw [stands.unique ideal.distinct owner]; rfl⟩
  next found => exact absurd (sameHash_self row.hash) (List.find?_eq_none.mp found row member)

theorem Ideal.keyStands_of_resolve (ideal : Ideal sha256 env jose actions issued token)
    {store later : Store} (recorded : Recorded sha256 env actions store.apiKeys.rows)
    {order : RowOrder} {owner : Text}
    (resolved : resolve sha256 env order store now token = .ok (some owner, later)) :
    ∃ user id, user.text = owner ∧ KeyStands actions user id token := by
  unfold resolve at resolved
  split at resolved
  next => cases resolved
  next =>
    cases hashed : hash sha256 env token with
    | error error =>
        rw [hashed] at resolved
        cases resolved
    | ok candidate =>
        rw [hashed] at resolved
        dsimp only [bind, Except.bind] at resolved
        split at resolved
        next row found =>
          cases resolved
          exact ⟨row.userId, row.id, rfl, ideal.keyStands_of_find recorded hashed found⟩
        next => cases resolved

/-! ## Access tokens -/

theorem decode_eq_ok_iff {payload : Payload} :
    decode env jose token now = .ok payload ↔
      ∃ secret, env.secret = .ok secret ∧ jose.verified secret token = some payload ∧
        payload.iss = some (ofString "rivisk") ∧ payload.aud = some (ofString "rivisk-api") ∧
          ∀ exp ∈ payload.exp, epoch now < exp := by
  unfold decode jwtVerify
  cases env.secret with
  | error error =>
      refine iff_of_false (fun decoded => nomatch decoded) ?_
      rintro ⟨_, same, -⟩
      cases same
  | ok secret =>
      rw [show (Except.ok secret : Except String Text).toOption = some secret from rfl]
      rw [Option.bind_eq_bind, Option.bind_some]
      dsimp only
      constructor
      · intro decoded
        split at decoded
        next read checked =>
          cases decoded
          obtain ⟨verified, claims⟩ := Option.filter_eq_some_iff.mp checked
          exact ⟨secret, rfl, verified, of_decide_eq_true claims⟩
        next => cases decoded
      · rintro ⟨_, same, verified, claims⟩
        cases same
        rw [Option.filter_eq_some_iff.mpr ⟨verified, decide_eq_true claims⟩]

/-- What begins like a signed token does not begin like a key. -/
theorem not_prefix_of_head (head : token.take 3 = ofString "eyJ") :
    (live.isPrefixOf token || test.isPrefixOf token) = false := by
  rw [Bool.eq_false_iff, ne_eq, Bool.or_eq_true, List.isPrefixOf_iff_prefix,
    List.isPrefixOf_iff_prefix]
  rintro (⟨rest, rfl⟩ | ⟨rest, rfl⟩)
  · cases head
  · cases head

/-- What begins like a key was never signed. -/
theorem Ideal.not_decode (ideal : Ideal sha256 env jose actions issued token)
    (key : (live.isPrefixOf token || test.isPrefixOf token) = true) {payload : Payload} :
    decode env jose token now ≠ .ok payload := by
  intro decoded
  obtain ⟨secret, keyed, verified, -⟩ := decode_eq_ok_iff.mp decoded
  obtain ⟨issue, -, signed⟩ := ideal.unforgeable secret payload keyed verified
  have head : token.take 3 = ofString "eyJ" := by
    rcases signed with rfl | rfl
    · exact jose.head_sign _ _
    · exact jose.head_sign _ _
  rw [not_prefix_of_head head] at key
  cases key

/-- Exactly the access tokens of a user that have not expired are read as that user's. -/
theorem Ideal.session_iff (ideal : Ideal sha256 env jose actions issued token) {owner : Text} :
    (∃ payload, decode env jose token now = .ok payload ∧ sessionUser payload = .ok owner) ↔
      ∃ user, user.text = owner ∧ SessionStands env jose issued token user now := by
  constructor
  · rintro ⟨payload, decoded, read⟩
    obtain ⟨secret, keyed, verified, -, -, unexpired⟩ := decode_eq_ok_iff.mp decoded
    obtain ⟨issue, member, rfl | rfl⟩ := ideal.unforgeable secret payload keyed verified
    · cases (jose.verified_sign _ _).symm.trans verified
      cases read
      exact ⟨issue.user, rfl, secret, issue.access, issue.refresh, keyed, member, rfl,
        unexpired _ rfl⟩
    · cases (jose.verified_sign _ _).symm.trans verified
      cases read
  · rintro ⟨user, rfl, secret, access, refresh, keyed, -, rfl, unexpired⟩
    refine ⟨accessPayload user.text access, ?_, rfl⟩
    rw [decode_eq_ok_iff]
    refine ⟨secret, keyed, jose.verified_sign _ _, rfl, rfl, ?_⟩
    intro exp same
    cases Option.mem_some.mp same
    exact unexpired

/-! ## The guards -/

theorem bearerToken_append (token : Text) : bearerToken (some (bearer ++ token)) = .ok token := by
  have starts : bearer.isPrefixOf (bearer ++ token) = true :=
    List.isPrefixOf_iff_prefix.mpr (List.prefix_append _ _)
  rw [bearerToken, if_pos starts, List.drop_left' (by decide)]

theorem jwtAuthGuard_eq_ok_iff {owner : Text} :
    jwtAuthGuard env jose (some (bearer ++ token)) now = .ok owner ↔
      ∃ payload, decode env jose token now = .ok payload ∧ sessionUser payload = .ok owner := by
  simp only [jwtAuthGuard, bearerToken_append, bind_eq_ok_iff, Except.ok.injEq, exists_eq_left']

/-- The guard follows the look of the token. -/
theorem accountAuthGuard_eq_ok_iff {order : RowOrder} {store : Store} {owner : Text} :
    (∃ method later, accountAuthGuard sha256 env jose order store (some (bearer ++ token)) now =
        .ok (⟨owner, method⟩, later)) ↔
      if live.isPrefixOf token || test.isPrefixOf token then
        owner ≠ [] ∧ ∃ later, resolve sha256 env order store now token = .ok (some owner, later)
      else
        ∃ payload, decode env jose token now = .ok payload ∧ sessionUser payload = .ok owner := by
  simp only [accountAuthGuard, bearerToken_append, bind_eq_ok_iff, Except.ok.injEq,
    exists_eq_left']
  split
  next key =>
    simp only [bind_eq_ok_iff]
    constructor
    · rintro ⟨method, later, ⟨found, used⟩, resolved, admitted⟩
      cases found with
      | none => cases admitted
      | some found =>
          dsimp only at admitted
          split at admitted
          next => cases admitted
          next nonempty =>
            cases admitted
            exact ⟨nonempty, later, resolved⟩
    · rintro ⟨nonempty, later, resolved⟩
      refine ⟨.apiKey, later, (some owner, later), resolved, ?_⟩
      dsimp only
      rw [if_neg nonempty]
      rfl
  next plain =>
    simp only [bind_eq_ok_iff]
    constructor
    · rintro ⟨method, later, payload, decoded, found, read, admitted⟩
      cases admitted
      exact ⟨payload, decoded, read⟩
    · rintro ⟨payload, decoded, read⟩
      exact ⟨.session, store, payload, decoded, owner, read, rfl⟩

/-- What opens a route for sessions opens the others as well. -/
theorem accountAuthGuard_of_jwtAuthGuard {owner : Text}
    (plain : (live.isPrefixOf token || test.isPrefixOf token) = false)
    (passed : jwtAuthGuard env jose (some (bearer ++ token)) now = .ok owner) (order : RowOrder)
    (store : Store) :
    accountAuthGuard sha256 env jose order store (some (bearer ++ token)) now =
      .ok (⟨owner, .session⟩, store) := by
  obtain ⟨payload, decoded, read⟩ := jwtAuthGuard_eq_ok_iff.mp passed
  simp only [accountAuthGuard, bearerToken_append, plain, Bool.false_eq_true, if_false, decoded,
    read, bind, Except.bind, pure, Except.pure]

/-- A bearer token opens exactly its own account, and no key opens a route for sessions. -/
theorem token_opens_own_account {state : State}
    (run : exec (next sha256 env jose) .start actions = some state)
    (ideal : Ideal sha256 env jose actions state.issued token) (order : RowOrder) (now : ℕ) :
    (∀ owner, (∃ method later, accountAuthGuard sha256 env jose order state.store
        (some (bearer ++ token)) now = .ok (⟨owner, method⟩, later)) ↔
      ∃ user, user.text = owner ∧ ((∃ id, KeyStands actions user id token) ∨
        SessionStands env jose state.issued token user now)) ∧
    ((live.isPrefixOf token || test.isPrefixOf token) = true →
      ∀ owner, jwtAuthGuard env jose (some (bearer ++ token)) now ≠ .ok owner) := by
  have recorded := recorded_of_run run
  constructor
  · intro owner
    rw [accountAuthGuard_eq_ok_iff]
    split
    next key =>
      constructor
      · rintro ⟨-, later, resolved⟩
        obtain ⟨user, id, same, stands⟩ := ideal.keyStands_of_resolve recorded resolved
        exact ⟨user, same, .inl ⟨id, stands⟩⟩
      · rintro ⟨user, rfl, ⟨id, stands⟩ | session⟩
        · exact ⟨user.nonempty, ideal.resolve_of_keyStands recorded order now stands⟩
        · obtain ⟨payload, decoded, -⟩ := ideal.session_iff.mpr ⟨user, rfl, session⟩
          exact absurd decoded (ideal.not_decode key)
    next plain =>
      rw [ideal.session_iff]
      constructor
      · rintro ⟨user, same, session⟩
        exact ⟨user, same, .inr session⟩
      · rintro ⟨user, same, ⟨id, stands⟩ | session⟩
        · exact absurd stands.startsAsKey plain
        · exact ⟨user, same, session⟩
  · intro key owner admitted
    obtain ⟨payload, decoded, -⟩ := jwtAuthGuard_eq_ok_iff.mp admitted
    exact ideal.not_decode key decoded

/-! ## Two users -/

/-- A token that carries its secret and its claims. -/
def carrier : Jose where
  sign secret payload := ofString "eyJ" ++ digits (Encodable.encode
    (secret, payload.typ, payload.sub, payload.iss, payload.aud, payload.iat, payload.exp))
  verified secret token := do
    let n ← natural 10 (token.drop 3)
    let (keyed, typ, sub, iss, aud, iat, exp) ← Encodable.decode (α := Text × Option Text ×
      Option Text × Option Text × Option Text × Option ℕ × Option ℕ) n
    if keyed = secret then some { typ, sub, iss, aud, iat, exp } else none
  verified_sign secret payload := by
    rw [List.drop_left' (by decide), natural_digits, Option.bind_eq_bind, Option.bind_some,
      Encodable.encodek, Option.bind_eq_bind, Option.bind_some]
    exact if_pos rfl
  head_sign secret payload := List.take_left' (by decide)

/-- The characters behind the marks of a key. -/
def window (text : Text) : Sha256Digest where
  bytes := (List.range 32).map fun i => UInt8.ofNat (text[i + 8]?.getD 0)
  length_eq := by simp

/-- Secrets that are long enough. -/
def someEnv : Env where
  apiKeyPepper := some (List.replicate 32 0x70)
  jwtSecret := some (List.replicate 32 0x73)

/-- A user. -/
def alice : Id where
  text := ofString "alice"
  nonempty := by decide

/-- Another one. -/
def bob : Id where
  text := ofString "bob"
  nonempty := by decide

/-- The bytes of a key. -/
def firstKey : RandomKey where
  bytes := List.replicate 24 1
  length_eq := rfl

/-- The bytes of another one. -/
def secondKey : RandomKey where
  bytes := List.replicate 24 2
  length_eq := rfl

/-- The order of the inserts. -/
def stored : RowOrder where
  arrange rows := rows
  perm rows := .refl rows

/-- Each user has a key; one of them revokes both. -/
def twoKeys : List Action :=
  [.login alice ⟨0, 0⟩ ⟨0, 0⟩, .login bob ⟨0, 0⟩ ⟨0, 0⟩, .create alice alice [] true firstKey 0,
    .create bob bob [] true secondKey 0, .revoke bob alice.text 1, .revoke bob bob.text 2]

theorem token_opens_own_account_twoKeys :
    ∃ state, exec (next window someEnv carrier) .start twoKeys = some state ∧
      ∃ method later, accountAuthGuard window someEnv carrier stored state.store
        (some (bearer ++ keyToken true firstKey)) 3 = .ok (⟨alice.text, method⟩, later) := by
  obtain ⟨state, run⟩ := Option.isSome_iff_exists.mp
    (show (exec (next window someEnv carrier) .start twoKeys).isSome = true by decide +kernel)
  have ideal : Ideal window someEnv carrier twoKeys state.issued (keyToken true firstKey) := by
    constructor
    · decide +kernel
    · intro pepper peppered key member same
      have chosen : someEnv.pepper = .ok (List.replicate 32 0x70) := rfl
      cases chosen.symm.trans peppered
      change key ∈ [keyToken true firstKey, keyToken true secondKey] at member
      rw [List.mem_cons, List.mem_singleton] at member
      rcases member with rfl | rfl
      · rfl
      · exact absurd (congrArg Sha256Digest.bytes same) (by decide +kernel)
    · intro secret payload _ verified
      have unsigned : carrier.verified secret (keyToken true firstKey) = none := rfl
      cases unsigned.symm.trans verified
  refine ⟨state, run, ((token_opens_own_account run ideal stored 3).1 _).mpr ⟨alice, rfl, .inl ?_⟩⟩
  refine ⟨alice, twoKeys.take 2, [], true, firstKey, 0, twoKeys.drop 3, rfl, rfl, ?_⟩
  have differ : alice ≠ bob := by decide
  simp [twoKeys, differ]

end RiskRail.Auth.Bearer
