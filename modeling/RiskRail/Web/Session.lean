import RiskRail.Auth.Admission
import RiskRail.Attestation.Publisher

/-!
# The session of the browser

`apps/web/lib/auth.ts` keeps the tokens of a sign-in in the local storage.  `accessToken` gives
back the stored access token while it is fresh by the clock of the browser, and else exchanges
the refresh token at the API.  Any number of calls, of sign-ins and of sign-outs overlap, and
the API serves other clients in between.  Each access of the storage may fail by itself, and what
reads or writes it goes on.

`claims` is the browser's `JSON.parse(atob(text)).exp`: nothing if it throws.  A compact token
of `jose` has three parts, and the browser finds the expiry in the second.
-/

namespace RiskRail.Web.Session

open RiskRail.Javascript Text RiskRail.Transition

open RiskRail.Attestation (Sha256Digest bind_eq_ok_iff)

open RiskRail.Auth.Bearer (Env Jose Id Stamp Issue AuthTokens accessPayload refreshPayload epoch
  jwtAuthGuard jwtAuthGuard_eq_ok_iff bearer refreshUser issue decode_eq_ok_iff alice window
  someEnv carrier)

/-! ## The code -/

/-- What is stored under the three keys. -/
structure Storage where
  access : Option Text
  refresh : Option Text
  address : Option Text

/-- Nothing is stored. -/
def Storage.empty : Storage :=
  ⟨none, none, none⟩

/-- Which keys can be accessed. -/
structure Access where
  access : Bool
  refresh : Bool
  address : Bool
deriving DecidableEq

/-- All of them. -/
def Access.all : Access :=
  ⟨true, true, true⟩

/-- `read`, key by key: what cannot be read is missing. -/
def Storage.read (storage : Storage) (readable : Access) : Storage where
  access := if readable.access then storage.access else none
  refresh := if readable.refresh then storage.refresh else none
  address := if readable.address then storage.address else none

/-- `write`, key by key: what cannot be written stays. -/
def Storage.write (storage later : Storage) (writable : Access) : Storage where
  access := if writable.access then later.access else storage.access
  refresh := if writable.refresh then later.refresh else storage.refresh
  address := if writable.address then later.address else storage.address

/-- The part of a token as `atob` takes it. -/
def standard (part : Text) : Text :=
  part.map fun unit => if unit = 0x2D then 0x2B else if unit = 0x5F then 0x2F else unit

/-- Cheap local expiry check so we refresh before the server rejects us.  The time is in
milliseconds, the expiry in seconds. -/
def isExpired (claims : Text → Option (Option ℕ)) (token : Text) (now : ℕ) : Bool :=
  match (token.splitOn 0x2E)[1]? with
  | none | some [] => true
  | some payload =>
      match claims (standard payload) with
      | none | some none | some (some 0) => true
      | some (some exp) => decide (1000 * exp < now + 30 * 1000)

/-- How far a call of `accessToken` is. -/
inductive Phase where
  | asking (refreshToken : Text)
  | answered (tokens : Option AuthTokens)
  | returned (token : Option Text)

/-- `accessToken` up to its first `await`. -/
def accessToken (claims : Text → Option (Option ℕ)) (storage : Storage) (now : ℕ) : Phase :=
  match storage.access.filter fun token => token ≠ [] ∧ isExpired claims token now = false with
  | some token => .returned (some token)
  | none =>
      match storage.refresh with
      | none | some [] => .returned none
      | some refreshToken => .asking refreshToken

/-- A call, with the storage and the clock it has read. -/
structure Call where
  began : Storage
  now : ℕ
  phase : Phase

/-- An answer of `/auth/verify` on its way to the browser. -/
structure SignIn where
  address : Text
  tokens : AuthTokens

/-- The API, the storage, the answers under way and the calls. -/
structure State where
  server : Auth.Bearer.State
  storage : Storage
  signIns : List SignIn
  calls : ℕ → Option Call

/-- Nobody is signed in. -/
def State.start : State where
  server := .start
  storage := .empty
  signIns := []
  calls := fun _ => none

/-- The call goes on. -/
def State.setCall (state : State) (id : ℕ) (call : Call) : State :=
  { state with calls := Function.update state.calls id (some call) }

/-- The answer of `/auth/refresh`. -/
def exchange (env : Env) (jose : Jose) (store : Auth.Bearer.Store) (refreshToken : Text) (now : ℕ)
    (access refresh : Stamp) : Option AuthTokens :=
  match refreshUser env jose store refreshToken now with
  | .ok user => (issue env jose user.text access refresh).toOption
  | .error _ => none

/-- A step of the API, or of the browser with the keys that can be accessed then. -/
inductive Action where
  /-- A call of the API by anyone else. -/
  | server (action : Auth.Bearer.Action)
  /-- The API accepts a signed challenge. -/
  | verify (user : Id) (address : Text) (access refresh : Stamp)
  | signedIn (answer : ℕ) (writable : Access)
  | signOut (writable : Access)
  | accessToken (call now : ℕ) (readable : Access)
  | exchange (call now : ℕ) (access refresh : Stamp)
  /-- The request or its answer is lost. -/
  | fail (call : ℕ)
  | arrive (call : ℕ) (writable : Access)

/-- The storage can be accessed whenever it is. -/
def Action.Works : Action → Prop
  | .signedIn _ writable | .signOut writable | .arrive _ writable => writable = .all
  | .accessToken _ _ readable => readable = .all
  | .server _ | .verify _ _ _ _ | .exchange _ _ _ _ | .fail _ => True

instance : (action : Action) → Decidable action.Works
  | .signedIn _ writable | .signOut writable | .arrive _ writable =>
      inferInstanceAs (Decidable (writable = .all))
  | .accessToken _ _ readable => inferInstanceAs (Decidable (readable = .all))
  | .server _ | .verify _ _ _ _ | .exchange _ _ _ _ | .fail _ => isTrue trivial

section

variable (sha256 : Text → Sha256Digest) (env : Env) (jose : Jose)
  (claims : Text → Option (Option ℕ))

/-- One step. -/
def next : Step State Action
  | state, .server action =>
      (Auth.Bearer.next sha256 env jose state.server action).map fun server =>
        { state with server }
  | state, .verify user address access refresh =>
      some
        { state with
          server := (state.server.link user).issue env jose user access refresh
          signIns :=
            match issue env jose user.text access refresh with
            | .ok tokens => ⟨address, tokens⟩ :: state.signIns
            | .error _ => state.signIns }
  | state, .signedIn answer writable =>
      state.signIns[answer]?.map fun verified =>
        { state with
          storage := state.storage.write
            ⟨some verified.tokens.accessToken, some verified.tokens.refreshToken,
              some verified.address⟩ writable
          signIns := state.signIns.eraseIdx answer }
  | state, .signOut writable =>
      some { state with storage := state.storage.write .empty writable }
  | state, .accessToken id now readable =>
      match state.calls id with
      | some _ => none
      | none =>
          some (state.setCall id ⟨state.storage, now,
            accessToken claims (state.storage.read readable) now⟩)
  | state, .exchange id now access refresh =>
      (state.calls id).bind fun call =>
        match call.phase with
        | .asking refreshToken =>
            (Auth.Bearer.next sha256 env jose state.server
              (.refresh refreshToken now access refresh)).map fun server =>
                { state with server }.setCall id
                  { call with
                    phase := .answered
                      (exchange env jose state.server.store refreshToken now access refresh) }
        | _ => none
  | state, .fail id =>
      (state.calls id).bind fun call =>
        match call.phase with
        | .returned _ => none
        | _ => some (state.setCall id { call with phase := .answered none })
  | state, .arrive id writable =>
      (state.calls id).bind fun call =>
        match call.phase with
        -- The address of the storage stays what it is.
        | .answered (some renewed) =>
            some ({ state with
              storage := state.storage.write
                { state.storage with
                  access := some renewed.accessToken
                  refresh := some renewed.refreshToken } writable }.setCall id
              { call with phase := .returned (some renewed.accessToken) })
        | .answered none =>
            some ({ state with storage := state.storage.write .empty writable }.setCall id
              { call with phase := .returned none })
        | _ => none

end

/-! ## Whose tokens they are -/

/-- What the browser relies on: a compact token has three parts, and the second spells the
claims. -/
structure Compact (jose : Jose) (claims : Text → Option (Option ℕ)) : Prop where
  parts : ∀ secret payload, ∃ header body signature,
    jose.sign secret payload = header ++ 0x2E :: (body ++ 0x2E :: signature) ∧
      0x2E ∉ header ∧ 0x2E ∉ body ∧ body ≠ [] ∧ claims (standard body) = some payload.exp

section

variable (env : Env) (jose : Jose) (issued : List Issue)

/-- The API issued the two tokens together, for the user. -/
def IssuedTo (user : Id) (accessToken refreshToken : Text) : Prop :=
  ∃ secret access refresh, env.secret = .ok secret ∧ ⟨user, access, refresh⟩ ∈ issued ∧
    accessToken = jose.sign secret (accessPayload user.text access) ∧
      refreshToken = jose.sign secret (refreshPayload user.text refresh)

/-- The storage has tokens of the user. -/
def Holds (user : Id) (storage : Storage) : Prop :=
  ∃ accessToken refreshToken, storage.access = some accessToken ∧
    storage.refresh = some refreshToken ∧ IssuedTo env jose issued user accessToken refreshToken

/-- No token is stored. -/
def SignedOut (storage : Storage) : Prop :=
  storage.access = none ∧ storage.refresh = none

end

/-! ## The expiry in the token -/

section

variable {sha256 : Text → Sha256Digest} {env : Env} {jose : Jose}
  {claims : Text → Option (Option ℕ)}

theorem Compact.isExpired_sign (compact : Compact jose claims) (secret : Text)
    (payload : Auth.Bearer.Payload) (now : ℕ) :
    isExpired claims (jose.sign secret payload) now =
      match payload.exp with
      | none | some 0 => true
      | some exp => decide (1000 * exp < now + 30 * 1000) := by
  obtain ⟨header, body, signature, signed, plain, whole, nonempty, read⟩ :=
    compact.parts secret payload
  have second : ((jose.sign secret payload).splitOn 0x2E)[1]? = some body := by
    rw [signed, List.splitOn_append_cons_self_of_not_mem plain,
      List.splitOn_append_cons_self_of_not_mem whole]
    rfl
  rw [isExpired, second]
  cases body with
  | nil => exact absurd rfl nonempty
  | cons unit rest =>
      simp only [read]
      rcases payload.exp with _ | _ | exp <;> rfl

/-- A token that the browser takes for fresh outlives the next half minute. -/
theorem Compact.fresh (compact : Compact jose claims) {secret : Text}
    {payload : Auth.Bearer.Payload} {now : ℕ}
    (fresh : isExpired claims (jose.sign secret payload) now = false) :
    ∃ exp, payload.exp = some exp ∧ now + 30 * 1000 ≤ 1000 * exp := by
  rw [compact.isExpired_sign] at fresh
  split at fresh
  next => cases fresh
  next => cases fresh
  next exp _ same => exact ⟨exp, same, not_lt.mp (of_decide_eq_false fresh)⟩

/-! ## What the API issues -/

theorem issued_subset_issue (server : Auth.Bearer.State) (user : Id) (access refresh : Stamp) :
    server.issued ⊆ (server.issue env jose user access refresh).issued := by
  rw [Auth.Bearer.State.issue]
  split
  · exact List.subset_cons_self _ _
  · exact List.Subset.refl _

theorem issued_link (server : Auth.Bearer.State) (user : Id) :
    (server.link user).issued = server.issued := by
  rw [Auth.Bearer.State.link]
  split <;> rfl

theorem issued_subset_next {source target : Auth.Bearer.State} {action : Auth.Bearer.Action}
    (step : Auth.Bearer.next sha256 env jose source action = some target) :
    source.issued ⊆ target.issued := by
  cases action with
  | login user access refresh =>
      cases step
      rw [← issued_link source user]
      exact issued_subset_issue _ _ _ _
  | refresh token now access refresh =>
      simp only [Auth.Bearer.next] at step
      split at step
      · cases step
        exact issued_subset_issue _ _ _ _
      · cases step
        exact List.Subset.refl _
  | create userId id name isLive random now =>
      simp only [Auth.Bearer.next] at step
      split at step
      · cases step
        exact List.Subset.refl _
      · cases step
  | revoke userId id now =>
      simp only [Auth.Bearer.next] at step
      split at step
      · cases step
        exact List.Subset.refl _
      · cases step
        exact List.Subset.refl _
  | present header now order =>
      simp only [Auth.Bearer.next] at step
      split at step
      · cases step
        exact List.Subset.refl _
      · cases step
        exact List.Subset.refl _

theorem IssuedTo.mono {source target : List Issue} (more : source ⊆ target) {user : Id}
    {accessToken refreshToken : Text}
    (given : IssuedTo env jose source user accessToken refreshToken) :
    IssuedTo env jose target user accessToken refreshToken := by
  obtain ⟨secret, access, refresh, keyed, member, first, second⟩ := given
  exact ⟨secret, access, refresh, keyed, more member, first, second⟩

theorem issuedTo_issue {server : Auth.Bearer.State} {user : Id} {access refresh : Stamp}
    {tokens : AuthTokens} (answer : issue env jose user.text access refresh = .ok tokens) :
    IssuedTo env jose (server.issue env jose user access refresh).issued user tokens.accessToken
      tokens.refreshToken := by
  obtain ⟨secret, keyed, made⟩ := bind_eq_ok_iff.mp answer
  cases made
  refine ⟨secret, access, refresh, keyed, ?_, rfl, rfl⟩
  rw [Auth.Bearer.State.issue, answer]
  exact List.mem_cons_self

/-- A refresh token is exchanged for tokens of its user. -/
theorem eq_of_refreshUser {store : Auth.Bearer.Store} {secret : Text} {user other : Id}
    {stamp : Stamp} {now : ℕ} (keyed : env.secret = .ok secret)
    (answer : refreshUser env jose store (jose.sign secret (refreshPayload user.text stamp)) now =
      .ok other) : other = user := by
  obtain ⟨payload, decoded, rest⟩ := bind_eq_ok_iff.mp answer
  obtain ⟨_, keyed', verified, -⟩ := decode_eq_ok_iff.mp decoded
  cases keyed.symm.trans keyed'
  cases (jose.verified_sign _ _).symm.trans verified
  have typed : ¬(refreshPayload user.text stamp).typ ≠ some (ofString "refresh") :=
    not_not.mpr rfl
  rw [if_neg typed] at rest
  simp only [refreshPayload] at rest
  split at rest
  · cases rest
  next found =>
    cases rest
    have same := List.find?_some found
    exact Auth.Bearer.Id.ext (of_decide_eq_true same)

/-! ## The invariant -/

section

variable (env jose claims) (issued : List Issue)

/-- There was no session, or its access token was no longer fresh. -/
def Call.Stale (call : Call) : Prop :=
  SignedOut call.began ∨
    ∃ old, call.began.access = some old ∧ isExpired claims old call.now = true

/-- What a call has in hand belongs to the user whose session it began with. -/
def Call.Sound (call : Call) : Prop :=
  match call.phase with
  | .asking refreshToken =>
      call.Stale claims ∧ call.began.refresh = some refreshToken ∧
        ∃ user, Holds env jose issued user call.began
  | .answered none | .returned none => call.Stale claims
  | .answered (some tokens) =>
      call.Stale claims ∧ ∃ user, Holds env jose issued user call.began ∧
        IssuedTo env jose issued user tokens.accessToken tokens.refreshToken
  | .returned (some token) =>
      ∃ user refreshToken, Holds env jose issued user call.began ∧
        IssuedTo env jose issued user token refreshToken ∧
          (call.began.access = some token ∧ isExpired claims token call.now = false ∨
            call.Stale claims)

/-- What every run keeps true. -/
structure Sound (state : State) : Prop where
  storage : SignedOut state.storage ∨ ∃ user, Holds env jose state.server.issued user state.storage
  signIns : ∀ answer ∈ state.signIns, ∃ user, IssuedTo env jose state.server.issued user
    answer.tokens.accessToken answer.tokens.refreshToken
  calls : ∀ id call, state.calls id = some call → call.Sound env jose claims state.server.issued

end

variable {source target : List Issue}

theorem Holds.mono (more : source ⊆ target) {user : Id} {storage : Storage}
    (holds : Holds env jose source user storage) : Holds env jose target user storage := by
  obtain ⟨access, refresh, first, second, given⟩ := holds
  exact ⟨access, refresh, first, second, given.mono more⟩

theorem Call.Sound.mono (more : source ⊆ target) {call : Call}
    (sound : call.Sound env jose claims source) : call.Sound env jose claims target := by
  unfold Call.Sound at sound ⊢
  split at sound
  next =>
    obtain ⟨stale, read, user, holds⟩ := sound
    exact ⟨stale, read, user, holds.mono more⟩
  next => exact sound
  next => exact sound
  next =>
    obtain ⟨stale, user, holds, given⟩ := sound
    exact ⟨stale, user, holds.mono more, given.mono more⟩
  next =>
    obtain ⟨user, refreshToken, holds, given, origin⟩ := sound
    exact ⟨user, refreshToken, holds.mono more, given.mono more, origin⟩

theorem sound_start : Sound env jose claims .start where
  storage := .inl ⟨rfl, rfl⟩
  signIns answer member := absurd member List.not_mem_nil
  calls id call made := by cases made

variable {state : State}

/-- Whatever the API does for others, it forgets no token. -/
theorem Sound.serve (sound : Sound env jose claims state) {server : Auth.Bearer.State}
    (more : state.server.issued ⊆ server.issued) :
    Sound env jose claims { state with server } where
  storage := sound.storage.imp_right fun ⟨user, holds⟩ => ⟨user, holds.mono more⟩
  signIns answer member := by
    obtain ⟨user, given⟩ := sound.signIns answer member
    exact ⟨user, given.mono more⟩
  calls id call made := (sound.calls id call made).mono more

theorem Sound.store (sound : Sound env jose claims state) {storage : Storage}
    (kept : SignedOut storage ∨ ∃ user, Holds env jose state.server.issued user storage) :
    Sound env jose claims { state with storage } where
  storage := kept
  signIns := sound.signIns
  calls := sound.calls

theorem Sound.setCall (sound : Sound env jose claims state) {id : ℕ} {call : Call}
    (made : call.Sound env jose claims state.server.issued) :
    Sound env jose claims (state.setCall id call) where
  storage := sound.storage
  signIns := sound.signIns
  calls other found held := by
    change Function.update state.calls id (some call) other = some found at held
    by_cases same : other = id
    · subst same
      rw [Function.update_self] at held
      cases held
      exact made
    · rw [Function.update_of_ne same] at held
      exact sound.calls other found held

/-- A call that waits has found no fresh token. -/
theorem Call.Sound.stale {issued : List Issue} {call : Call}
    (sound : call.Sound env jose claims issued) (waits : ∀ token, call.phase ≠ .returned token) :
    call.Stale claims := by
  rw [Call.Sound] at sound
  cases phase : call.phase with
  | asking refreshToken =>
      rw [phase] at sound
      exact sound.1
  | answered tokens =>
      rw [phase] at sound
      cases tokens with
      | none => exact sound
      | some tokens => exact sound.1
  | returned token => exact absurd phase (waits token)

/-- The tokens of an accepted challenge go to its user. -/
theorem Sound.verify (sound : Sound env jose claims state) (user : Id) (address : Text)
    (access refresh : Stamp) {after : State}
    (step : next sha256 env jose claims state (.verify user address access refresh) =
      some after) : Sound env jose claims after := by
  cases step
  have more : state.server.issued ⊆
      ((state.server.link user).issue env jose user access refresh).issued := by
    rw [← issued_link state.server user]
    exact issued_subset_issue _ _ _ _
  have served := sound.serve more
  refine ⟨served.storage, ?_, served.calls⟩
  intro answer member
  dsimp only at member ⊢
  cases made : issue env jose user.text access refresh with
  | error error =>
      rw [made] at member
      exact served.signIns answer member
  | ok tokens =>
      rw [made] at member
      rcases List.mem_cons.mp member with rfl | earlier
      · exact ⟨user, issuedTo_issue made⟩
      · exact served.signIns answer earlier

/-- A stored token that is not given back is no longer fresh. -/
theorem Sound.stale (sound : Sound env jose claims state) {now : ℕ}
    (unusable : (state.storage.access.filter fun token =>
      token ≠ [] ∧ isExpired claims token now = false) = none) :
    SignedOut state.storage ∨
      ∃ old, state.storage.access = some old ∧ isExpired claims old now = true := by
  refine sound.storage.imp_right fun ⟨user, token, _, stored, _⟩ => ⟨token, stored, ?_⟩
  rw [stored, Option.filter_eq_none_iff] at unusable
  have refused := unusable token rfl
  by_contra fresh
  rw [Bool.not_eq_true] at fresh
  refine refused (decide_eq_true ⟨?_, fresh⟩)
  rintro rfl
  cases fresh

/-- A call begins with what the storage has. -/
theorem Sound.ask (sound : Sound env jose claims state) (now : ℕ) :
    Call.Sound env jose claims state.server.issued
      ⟨state.storage, now, accessToken claims state.storage now⟩ := by
  cases usable : state.storage.access.filter fun token =>
      token ≠ [] ∧ isExpired claims token now = false with
  | some token =>
      obtain ⟨stored, fresh⟩ := Option.filter_eq_some_iff.mp usable
      have begun : accessToken claims state.storage now = .returned (some token) := by
        rw [accessToken, usable]
      rw [begun]
      rcases sound.storage with ⟨missing, -⟩ | ⟨user, holds⟩
      · cases missing.symm.trans stored
      · obtain ⟨access, refresh, first, second, given⟩ := id holds
        cases first.symm.trans stored
        exact ⟨user, refresh, holds, given, .inl ⟨stored, (of_decide_eq_true fresh).2⟩⟩
  | none =>
      have old := sound.stale usable
      cases refresh : state.storage.refresh with
      | none =>
          have begun : accessToken claims state.storage now = .returned none := by
            rw [accessToken, usable]
            simp only [refresh]
          rw [begun]
          exact old
      | some refreshToken =>
          rcases sound.storage with ⟨-, missing⟩ | ⟨user, holds⟩
          · cases missing.symm.trans refresh
          · cases refreshToken with
            | nil =>
                have begun : accessToken claims state.storage now = .returned none := by
                  rw [accessToken, usable]
                  simp only [refresh]
                rw [begun]
                exact old
            | cons unit rest =>
                have begun : accessToken claims state.storage now = .asking (unit :: rest) := by
                  rw [accessToken, usable]
                  simp only [refresh]
                rw [begun]
                exact ⟨old, refresh, user, holds⟩

/-- An exchange answers with tokens of the user of the refresh token. -/
theorem Call.Sound.exchanged {server after : Auth.Bearer.State} {call : Call} {refreshToken : Text}
    {now : ℕ} {access refresh : Stamp} (asking : call.phase = .asking refreshToken)
    (sound : call.Sound env jose claims server.issued)
    (step : Auth.Bearer.next sha256 env jose server (.refresh refreshToken now access refresh) =
      some after) :
    Call.Sound env jose claims after.issued
      { call with
        phase := .answered (exchange env jose server.store refreshToken now access refresh) } := by
  have more := issued_subset_next step
  rw [Call.Sound, asking] at sound
  obtain ⟨stale, read, user, holds⟩ := sound
  cases answer : refreshUser env jose server.store refreshToken now with
  | error error =>
      have refused :
          exchange env jose server.store refreshToken now access refresh = none := by
        rw [Web.Session.exchange, answer]
      rw [refused]
      exact stale
  | ok other =>
      have answered : exchange env jose server.store refreshToken now access refresh =
          (issue env jose other.text access refresh).toOption := by
        rw [Web.Session.exchange, answer]
      rw [answered]
      cases given : issue env jose other.text access refresh with
      | error error => exact stale
      | ok tokens =>
          obtain ⟨first, second, stored, kept, secret, _, stamp, keyed, -, -, rfl⟩ := id holds
          cases kept.symm.trans read
          have same := eq_of_refreshUser keyed answer
          subst same
          simp only [Auth.Bearer.next, answer] at step
          cases step
          exact ⟨stale, other, holds.mono more, issuedTo_issue given⟩

/-! ## Every run -/

theorem exchange_eq_some {state after : State} {id now : ℕ} {access refresh : Stamp}
    (step : next sha256 env jose claims state (.exchange id now access refresh) = some after) :
    ∃ call refreshToken server, state.calls id = some call ∧ call.phase = .asking refreshToken ∧
      Auth.Bearer.next sha256 env jose state.server (.refresh refreshToken now access refresh) =
        some server ∧
      after = { state with server }.setCall id
        { call with
          phase := .answered
            (exchange env jose state.server.store refreshToken now access refresh) } := by
  obtain ⟨call, made, answered⟩ := Option.bind_eq_some_iff.mp step
  cases phase : call.phase with
  | asking refreshToken =>
      simp only [phase] at answered
      obtain ⟨server, served, rfl⟩ := Option.map_eq_some_iff.mp answered
      exact ⟨call, refreshToken, server, made, phase, served, rfl⟩
  | answered tokens =>
      simp only [phase] at answered
      cases answered
  | returned token =>
      simp only [phase] at answered
      cases answered

theorem fail_eq_some {state after : State} {id : ℕ}
    (step : next sha256 env jose claims state (.fail id) = some after) :
    ∃ call, state.calls id = some call ∧ (∀ token, call.phase ≠ .returned token) ∧
      after = state.setCall id { call with phase := .answered none } := by
  obtain ⟨call, made, failed⟩ := Option.bind_eq_some_iff.mp step
  cases phase : call.phase with
  | asking refreshToken =>
      simp only [phase] at failed
      cases failed
      exact ⟨call, made, by simp [phase], rfl⟩
  | answered tokens =>
      simp only [phase] at failed
      cases failed
      exact ⟨call, made, by simp [phase], rfl⟩
  | returned token =>
      simp only [phase] at failed
      cases failed

/-- An answer that arrives renews the session, and one that is lost ends it. -/
theorem arrive_eq_some {state after : State} {id : ℕ} {writable : Access}
    (step : next sha256 env jose claims state (.arrive id writable) = some after) :
    ∃ call, state.calls id = some call ∧
      ((call.phase = .answered none ∧
          after = { state with storage := state.storage.write .empty writable }.setCall id
            { call with phase := .returned none }) ∨
        ∃ renewed, call.phase = .answered (some renewed) ∧
          after = { state with
            storage := state.storage.write
              { state.storage with
                access := some renewed.accessToken
                refresh := some renewed.refreshToken } writable }.setCall id
            { call with phase := .returned (some renewed.accessToken) }) := by
  obtain ⟨call, made, arrived⟩ := Option.bind_eq_some_iff.mp step
  cases phase : call.phase with
  | asking refreshToken =>
      simp only [phase] at arrived
      cases arrived
  | answered tokens =>
      simp only [phase] at arrived
      cases tokens with
      | none =>
          cases arrived
          exact ⟨call, made, .inl ⟨phase, rfl⟩⟩
      | some renewed =>
          cases arrived
          exact ⟨call, made, .inr ⟨renewed, phase, rfl⟩⟩
  | returned token =>
      simp only [phase] at arrived
      cases arrived

/-- Where the storage can be accessed, every step keeps what belongs together. -/
theorem sound_next {state after : State} {action : Action} (sound : Sound env jose claims state)
    (works : action.Works)
    (step : next sha256 env jose claims state action = some after) :
    Sound env jose claims after := by
  cases action with
  | server action =>
      obtain ⟨server, served, rfl⟩ := Option.map_eq_some_iff.mp step
      exact sound.serve (issued_subset_next served)
  | verify user address access refresh => exact sound.verify user address access refresh step
  | signedIn answer writable =>
      cases works
      obtain ⟨verified, found, rfl⟩ := Option.map_eq_some_iff.mp step
      obtain ⟨user, given⟩ := sound.signIns verified (List.mem_of_getElem? found)
      refine ⟨.inr ⟨user, _, _, rfl, rfl, given⟩, ?_, sound.calls⟩
      exact fun other member => sound.signIns other (List.mem_of_mem_eraseIdx member)
  | signOut writable =>
      cases works
      cases step
      exact sound.store (.inl ⟨rfl, rfl⟩)
  | accessToken id now readable =>
      cases works
      simp only [next] at step
      split at step
      · cases step
      · cases step
        exact sound.setCall (sound.ask now)
  | exchange id now access refresh =>
      obtain ⟨call, refreshToken, server, made, asking, served, rfl⟩ := exchange_eq_some step
      exact (sound.serve (issued_subset_next served)).setCall
        ((sound.calls id call made).exchanged asking served)
  | fail id =>
      obtain ⟨call, made, waits, rfl⟩ := fail_eq_some step
      exact sound.setCall ((sound.calls id call made).stale waits)
  | arrive id writable =>
      cases works
      obtain ⟨call, made, ⟨lost, rfl⟩ | ⟨renewed, answered, rfl⟩⟩ := arrive_eq_some step
      · have known := sound.calls id call made
        rw [Call.Sound, lost] at known
        exact (sound.store (.inl ⟨rfl, rfl⟩)).setCall known
      · have known := sound.calls id call made
        rw [Call.Sound, answered] at known
        obtain ⟨stale, user, holds, given⟩ := known
        exact (sound.store (.inr ⟨user, _, _, rfl, rfl, given⟩)).setCall
          ⟨user, _, holds, given, .inr stale⟩

/-- The guard admits an access token as its user until it expires. -/
theorem IssuedTo.admitted {user : Id} {token refreshToken : Text}
    (given : IssuedTo env jose source user token refreshToken) :
    ∃ secret access, token = jose.sign secret (accessPayload user.text access) ∧
      ∀ now owner, jwtAuthGuard env jose (some (bearer ++ token)) now = .ok owner ↔
        owner = user.text ∧ epoch now < epoch access.expiresFrom + 15 * 60 := by
  obtain ⟨secret, access, refresh, keyed, -, rfl, -⟩ := given
  refine ⟨secret, access, rfl, fun now owner => ?_⟩
  rw [jwtAuthGuard_eq_ok_iff]
  constructor
  · rintro ⟨payload, decoded, read⟩
    obtain ⟨_, keyed', verified, -, -, unexpired⟩ := decode_eq_ok_iff.mp decoded
    cases keyed.symm.trans keyed'
    cases (jose.verified_sign _ _).symm.trans verified
    cases read
    exact ⟨rfl, unexpired _ rfl⟩
  · rintro ⟨rfl, unexpired⟩
    refine ⟨accessPayload user.text access, ?_, rfl⟩
    rw [decode_eq_ok_iff]
    refine ⟨secret, keyed, jose.verified_sign _ _, rfl, rfl, ?_⟩
    intro exp same
    cases Option.mem_some.mp same
    exact unexpired

/-- However sign-ins, sign-outs, calls and lost answers overlap, while the storage can be accessed
a token that `accessToken` returns is one of the user whose session the call began with, and the
API admits it as that user until it expires; a stored one is good for half a minute of the
browser's clock.  A call returns nothing only if there was no session or its access token was no
longer fresh. -/
theorem access_tokens_are_admitted (compact : Compact jose claims) {actions : List Action}
    {state : State} (run : exec (next sha256 env jose claims) .start actions = some state)
    (works : ∀ action ∈ actions, action.Works) {id : ℕ} {call : Call}
    (made : state.calls id = some call) :
    (∀ token, call.phase = .returned (some token) →
      ∃ user expires, Holds env jose state.server.issued user call.began ∧
        (∀ now owner, jwtAuthGuard env jose (some (bearer ++ token)) now = .ok owner ↔
          owner = user.text ∧ epoch now < expires) ∧
        (call.Stale claims ∨ call.began.access = some token ∧
          ∀ now < call.now + 30 * 1000, epoch now < expires)) ∧
    (call.phase = .returned none → call.Stale claims) ∧
    (SignedOut state.storage ∨ ∃ user, Holds env jose state.server.issued user state.storage) := by
  have sound : Sound env jose claims state :=
    Along.invariant sound_next (along_of_forall fun action member _ => works action member) run
      sound_start
  have known := sound.calls id call made
  refine ⟨fun token returned => ?_, fun returned => ?_, sound.storage⟩
  · rw [Call.Sound, returned] at known
    obtain ⟨user, refreshToken, holds, given, origin⟩ := known
    obtain ⟨secret, access, signed, admitted⟩ := given.admitted
    refine ⟨user, _, holds, admitted, ?_⟩
    rcases origin with ⟨stored, fresh⟩ | stale
    · right
      rw [signed] at fresh
      obtain ⟨exp, same, later⟩ := compact.fresh fresh
      cases same
      refine ⟨stored, fun now soon => ?_⟩
      exact Nat.div_lt_of_lt_mul (by omega)
    · exact .inl stale
  · rw [Call.Sound, returned] at known
    exact known

end

/-! ## A sign-in and a call -/

theorem mem_carrier {secret : Text} {payload : Auth.Bearer.Payload} {unit : ℕ}
    (member : unit ∈ carrier.sign secret payload) :
    unit ∈ ofString "eyJ" ∨ 0x30 ≤ unit ∧ unit ≤ 0x39 :=
  (List.mem_append.mp member).imp_right mem_digits

theorem dot_notMem_carrier (secret : Text) (payload : Auth.Bearer.Payload) :
    0x2E ∉ carrier.sign secret payload := by
  intro member
  rcases mem_carrier member with letter | ⟨lower, -⟩
  · exact absurd letter (by decide)
  · exact absurd lower (by decide)

theorem standard_carrier (secret : Text) (payload : Auth.Bearer.Payload) :
    standard (carrier.sign secret payload) = carrier.sign secret payload := by
  refine (List.map_congr_left fun unit member => ?_).trans (List.map_id _)
  have plain : unit ≠ 0x2D ∧ unit ≠ 0x5F := by
    rcases mem_carrier member with letter | digit
    · have letters : ∀ unit ∈ ofString "eyJ", unit ≠ 0x2D ∧ unit ≠ 0x5F := by decide
      exact letters unit letter
    · omega
  exact (if_neg plain.1).trans (if_neg plain.2)

/-- A token of three parts.  The second carries the secret and the claims. -/
def dotted : Jose where
  sign secret payload := ofString "eyJ" ++ 0x2E :: (carrier.sign secret payload ++ 0x2E :: [])
  verified secret token := (token.splitOn 0x2E)[1]?.bind (carrier.verified secret)
  verified_sign secret payload := by
    have front : 0x2E ∉ ofString "eyJ" := by decide
    rw [List.splitOn_append_cons_self_of_not_mem front,
      List.splitOn_append_cons_self_of_not_mem (dot_notMem_carrier secret payload)]
    exact carrier.verified_sign secret payload
  head_sign secret payload := List.take_left' (by decide)

/-- The expiry among the claims. -/
def spelled (part : Text) : Option (Option ℕ) := do
  let n ← natural 10 (part.drop 3)
  let (_, _, _, _, _, _, exp) ← Encodable.decode (α := Text × Option Text × Option Text ×
    Option Text × Option Text × Option ℕ × Option ℕ) n
  return exp

theorem compact_dotted : Compact dotted spelled where
  parts secret payload := by
    have front : 0x2E ∉ ofString "eyJ" := by decide
    refine ⟨_, _, [], rfl, front, dot_notMem_carrier secret payload, ?_, ?_⟩
    · exact List.append_ne_nil_of_left_ne_nil (by decide) _
    · rw [standard_carrier, spelled, carrier, List.drop_left' (by decide), natural_digits,
        Option.bind_eq_bind, Option.bind_some, Encodable.encodek]
      rfl

/-- The tokens of a sign-in. -/
def aliceTokens : AuthTokens where
  accessToken := dotted.sign (List.replicate 32 0x73) (accessPayload alice.text ⟨0, 0⟩)
  refreshToken := dotted.sign (List.replicate 32 0x73) (refreshPayload alice.text ⟨0, 0⟩)
  expiresIn := 15 * 60

/-- The server has answered the sign-in. -/
def verified : State :=
  { State.start with
    server := (State.start.server.link alice).issue someEnv dotted alice ⟨0, 0⟩ ⟨0, 0⟩
    signIns := [⟨ofString "SP2", aliceTokens⟩] }

/-- The answer is stored. -/
def signedIn : State :=
  { verified with
    storage := ⟨some aliceTokens.accessToken, some aliceTokens.refreshToken,
      some (ofString "SP2")⟩
    signIns := [] }

/-- A call has read the stored token. -/
def asked : State :=
  signedIn.setCall 0 ⟨signedIn.storage, 0, .returned (some aliceTokens.accessToken)⟩

/-- A sign-in and a call. -/
def signInAndAsk : List Action :=
  [.verify alice (ofString "SP2") ⟨0, 0⟩ ⟨0, 0⟩, .signedIn 0 .all, .accessToken 0 0 .all]

theorem isExpired_aliceTokens : isExpired spelled aliceTokens.accessToken 0 = false :=
  compact_dotted.isExpired_sign _ _ _

theorem exec_signInAndAsk :
    exec (next window someEnv dotted spelled) .start signInAndAsk = some asked := by
  have given : issue someEnv dotted alice.text ⟨0, 0⟩ ⟨0, 0⟩ = .ok aliceTokens := rfl
  have first : next window someEnv dotted spelled .start
      (.verify alice (ofString "SP2") ⟨0, 0⟩ ⟨0, 0⟩) = some verified := by
    simp only [next, given]
    rfl
  have begun : accessToken spelled signedIn.storage 0 =
      .returned (some aliceTokens.accessToken) := by
    have usable : (signedIn.storage.access.filter fun token =>
        token ≠ [] ∧ isExpired spelled token 0 = false) = some aliceTokens.accessToken :=
      Option.filter_eq_some_iff.mpr ⟨rfl, decide_eq_true
        ⟨List.append_ne_nil_of_left_ne_nil (by decide) _, isExpired_aliceTokens⟩⟩
    rw [accessToken, usable]
  have last : next window someEnv dotted spelled signedIn (.accessToken 0 0 .all) =
      some asked := by
    change some (signedIn.setCall 0 ⟨signedIn.storage, 0, accessToken spelled signedIn.storage 0⟩) =
      some asked
    rw [begun, asked]
  exact exec_cons_eq_some_iff.mpr ⟨verified, first, exec_cons_eq_some_iff.mpr
    ⟨signedIn, rfl, exec_cons_eq_some_iff.mpr ⟨asked, last, rfl⟩⟩⟩

theorem access_tokens_are_admitted_alice :
    exec (next window someEnv dotted spelled) .start signInAndAsk = some asked ∧
      ∃ user, Holds someEnv dotted asked.server.issued user signedIn.storage ∧
        jwtAuthGuard someEnv dotted (some (bearer ++ aliceTokens.accessToken)) 1000 =
          .ok user.text := by
  refine ⟨exec_signInAndAsk, ?_⟩
  have made : asked.calls 0 =
      some ⟨signedIn.storage, 0, .returned (some aliceTokens.accessToken)⟩ := rfl
  obtain ⟨user, expires, holds, admitted, stale | ⟨-, soon⟩⟩ :=
    (access_tokens_are_admitted compact_dotted exec_signInAndAsk (by decide) made).1 _ rfl
  · rcases stale with ⟨missing, -⟩ | ⟨old, stored, expired⟩
    · cases missing
    · cases stored
      cases isExpired_aliceTokens.symm.trans expired
  · exact ⟨user, holds, (admitted 1000 user.text).mpr ⟨rfl, soon 1000 (by decide)⟩⟩

end RiskRail.Web.Session
