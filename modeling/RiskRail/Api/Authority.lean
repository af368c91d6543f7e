import RiskRail.Api.Checks
import RiskRail.Auth.Admission
import RiskRail.Transition.Projection

/-!
# Who can change an account

Every change of what belongs to an account is made by the handler of a request that was let
through with a credential of that account: its profile and its keys change only through
sessions, its endpoints and the rules of its wallets through sessions and keys.  So a key that
leaks neither makes further keys nor moves the notifications to another address.  Whose a wallet
is, the handler finds out before it writes.
-/

namespace RiskRail.Api

open RiskRail.Javascript Text RiskRail.Transition RiskRail.Relational RiskRail.Auth
open RiskRail.Auth.Bearer (Id ApiKey KeyStands SessionStands Recorded Issue RowOrder Store bearer
  bearerToken)
open RiskRail.Attestation (bind_eq_ok_iff)
open RiskRail.Webhooks (Endpoint mapError_eq_ok_iff)

variable {services : Services} {source target : State} {action : Action} {actions : List Action}
  {user : Id} {call : Call} {draws : Draws}

/-! ## Sessions and keys in a run -/

/-- What a call that succeeds does to the keys.  A key that is revoked is not revoked again. -/
def Call.bearerStep (store : Store) (user : Id) (draws : Draws) : Call → Option Bearer.Action
  | .createKey name isLive => some (.create user draws.id name isLive draws.random draws.now)
  | .revokeKey id =>
      match Bearer.revoke store user id draws.now with
      | .ok _ => some (.revoke user id draws.now)
      | .error _ => none
  | .updateProfile _ | .createEndpoint _ _ | .setEnabled _ _ | .removeEndpoint _
  | .createAlert _ _ | .updateStatus _ _ => none

/-- What a step does to the sessions and the keys. -/
def bearerStep (services : Services) (state : State) : Action → Option Bearer.Action
  | .issueTokens login access refresh =>
      match state.logins login with
      | .linked _ user => some (.login user access refresh)
      | _ => none
  | .refresh token now access refresh => some (.refresh token now access refresh)
  | .receive _ call header now order =>
      if call.sessionOnly then none else some (.present header now order)
  | .run request draws =>
      match state.requests request with
      | none => none
      | some admitted =>
          match state.findUser admitted.userId with
          | none => none
          | some user =>
              match write services (state.setRequest request none) user draws admitted.call with
              | .ok _ => admitted.call.bearerStep state.bearer.store user draws
              | .error _ => none
  | .scan _ | .findWallet _ _ | .createUser _ _ | .upsertWallet _ | .check _ => none

/-- The sessions and the keys by themselves. -/
def Services.bearerNext (services : Services) : Step Bearer.State Bearer.Action :=
  Bearer.next services.sha256 services.env services.jose

/-- The keys that are not revoked, and the tokens that were issued, are the same. -/
structure SameKeys (source target : Bearer.State) : Prop where
  standing : ∀ row : ApiKey, row.revokedAt = none →
    (row ∈ target.store.apiKeys.rows ↔ row ∈ source.store.apiKeys.rows)
  issued : target.issued = source.issued

theorem SameKeys.of_eq {source target : Bearer.State}
    (apiKeys : target.store.apiKeys = source.store.apiKeys)
    (issued : target.issued = source.issued) : SameKeys source target :=
  ⟨fun row _ => by rw [apiKeys], issued⟩

/-- The keys that stand are recorded by the rows that are not revoked. -/
theorem SameKeys.recorded {source target : Bearer.State} (same : SameKeys source target)
    {keys : List Bearer.Action}
    (recorded : Recorded services.sha256 services.env keys source.store.apiKeys.rows) :
    Recorded services.sha256 services.env keys target.store.apiKeys.rows where
  sound row member live := recorded.sound row ((same.standing row live).mp member) live
  complete user id token stands := by
    obtain ⟨row, member, live, rest⟩ := recorded.complete user id token stands
    exact ⟨row, (same.standing row live).mpr member, live, rest⟩

/-- A key that is revoked again was revoked before. -/
theorem sameKeys_of_revoke {state : Bearer.State} {later : Store} {id : Text} {now : ℕ}
    {error : String} (refused : Bearer.revoke state.store user id now = .error error)
    (owned : ∀ row ∈ state.store.apiKeys.rows, row.id.text = id → row.userId = user)
    (revoked : revokeKey state.store id now = .ok later) :
    SameKeys state { state with store := later } := by
  refine ⟨fun row live => ?_, rfl⟩
  cases revokeKey_eq_ok revoked
  have unlike : ∀ row ∈ state.store.apiKeys.rows, row.revokedAt = none → row.id.text ≠ id := by
    unfold Bearer.revoke at refused
    dsimp only at refused
    split at refused
    next missing =>
      intro row member live same
      have wanted := List.find?_eq_none.mp missing row member
      rw [decide_eq_true_iff] at wanted
      exact wanted ⟨same, owned row member same, live⟩
    next => cases refused
  constructor
  · intro member
    obtain ⟨old, stored, rfl⟩ := List.mem_map.mp member
    by_cases same : old.id.text = id
    · rw [ApiKey.revokeAt, if_pos same] at live
      cases live
    · rwa [Bearer.ApiKey.revokeAt_of_ne same]
  · intro member
    exact List.mem_map.mpr ⟨row, member, Bearer.ApiKey.revokeAt_of_ne (unlike row member live)⟩

/-- A revocation that finds a live key of the user is that of the keys by themselves. -/
theorem revoke_eq_revokeKey {store revoked later : Store} {id : Text} {now : ℕ}
    (first : Bearer.revoke store user id now = .ok revoked)
    (second : revokeKey store id now = .ok later) : later = revoked := by
  cases revokeKey_eq_ok second
  unfold Bearer.revoke at first
  dsimp only at first
  split at first
  next => cases first
  next => exact Except.ok.inj first

/-- The keys go on by what was done to them, or stay as they are. -/
def KeysFollow (services : Services) (source : Bearer.State) :
    Option Bearer.Action → Bearer.State → Prop
  | some step, target => services.bearerNext source step = some target
  | none, target => SameKeys source target

theorem Effect.bearer (effect : Effect services source user draws call target)
    (owns : Owns source user call) :
    KeysFollow services source.bearer (call.bearerStep source.bearer.store user draws)
      target.bearer := by
  cases effect with
  | createKey made => simp [Call.bearerStep, KeysFollow, Services.bearerNext, Bearer.next, made]
  | @revokeKey id store revoked =>
      simp only [Call.bearerStep]
      cases result : Bearer.revoke source.bearer.store user id draws.now with
      | ok later =>
          have same := revoke_eq_revokeKey result revoked
          simp [KeysFollow, Services.bearerNext, Bearer.next, result, same]
      | error error => exact sameKeys_of_revoke result owns revoked
  | updateProfile _ | createEndpoint _ | setEnabled _ | removeEndpoint _ | createAlert _
  | updateStatus _ => exact .of_eq rfl rfl

theorem bearer_receive {request : ℕ} {header : Option Text} {now : ℕ} {order : RowOrder}
    (step : next services source (.receive request call header now order) = some target) :
    KeysFollow services source.bearer
      (bearerStep services source (.receive request call header now order)) target.bearer := by
  simp only [next] at step
  split at step
  next => cases step
  next =>
    cases sessionOnly : call.sessionOnly with
    | true =>
        simp only [bearerStep, sessionOnly, if_true] at step ⊢
        split at step
        · cases step
          exact .of_eq rfl rfl
        · cases step
          exact .of_eq rfl rfl
    | false =>
        simp only [bearerStep, sessionOnly, Bool.false_eq_true, if_false, KeysFollow,
          Services.bearerNext, Bearer.next] at step ⊢
        cases guarded : Bearer.accountAuthGuard services.sha256 services.env services.jose order
          source.bearer.store header now with
        | ok admitted =>
            simp only [guarded] at step
            cases step
            rfl
        | error refusal =>
            simp only [guarded] at step
            cases step
            rfl

/-- A handler that wrote a key had checked that it is the user's. -/
theorem bearer_run (run : exec (next services) .start actions = some source) {request : ℕ}
    (step : next services source (.run request draws) = some target) :
    KeysFollow services source.bearer (bearerStep services source (.run request draws))
      target.bearer := by
  cases turn_of_next step with
  | kept idle _ => exact absurd rfl (idle request draws)
  | refused failed =>
      have silent : bearerStep services source (.run request draws) = none := by
        simp only [bearerStep]
        split
        next => rfl
        next admitted asked =>
          split
          next => rfl
          next user found =>
            split
            next later written => exact absurd written (failed _ _ _ asked found)
            next => rfl
      rw [silent]
      exact .of_eq rfl rfl
  | handled asked found undrawn done =>
      obtain ⟨earlier, ⟨-, -, -, -, -, passed⟩, later, drawn⟩ := checkedFor_of_pending run asked
      have owns := owns_of_check later drawn passed
      have moved := (effect_of_write done).bearer owns
      simp only [bearerStep, asked, found, done]
      exact moved

/-- A step does to the keys what its part does, or nothing. -/
theorem bearer_next (run : exec (next services) .start actions = some source)
    (step : next services source action = some target) :
    KeysFollow services source.bearer (bearerStep services source action) target.bearer := by
  cases action with
  | issueTokens login access refresh =>
      simp only [next] at step
      split at step
      next address user linked =>
        obtain ⟨bearer, moved, rfl⟩ := Option.map_eq_some_iff.mp step
        simp only [bearerStep, linked]
        exact moved
      next => cases step
  | refresh token now access refresh =>
      obtain ⟨bearer, moved, rfl⟩ := Option.map_eq_some_iff.mp step
      exact moved
  | receive request call header now order => exact bearer_receive step
  | run request draws => exact bearer_run run step
  | createUser login user =>
      cases turn_of_next step with
      | kept _ _ => exact .of_eq rfl rfl
      | created _ _ =>
          refine .of_eq (Bearer.apiKeys_link _ _) ?_
          simp only [Bearer.State.link]
          split <;> rfl
  | scan address =>
      cases turn_of_next step with
      | kept _ _ => exact .of_eq rfl rfl
      | scanned _ => exact .of_eq rfl rfl
  | findWallet login address =>
      cases turn_of_next step with
      | kept _ _ => exact .of_eq rfl rfl
      | found _ => exact .of_eq rfl rfl
  | upsertWallet login =>
      cases turn_of_next step with
      | kept _ _ => exact .of_eq rfl rfl
      | linked _ => exact .of_eq rfl rfl
  | check request =>
      cases turn_of_next step with
      | kept _ _ => exact .of_eq rfl rfl
      | checked _ _ => exact .of_eq rfl rfl
      | rejected => exact .of_eq rfl rfl

/-- The sessions and keys of a run, as the guards see them. -/
def bearerSteps (services : Services) (actions : List Action) : List Bearer.Action :=
  labels (next services) (bearerStep services) .start actions

/-- After every run the rows that are not revoked are the keys that stand. -/
theorem recorded_of_exec (run : exec (next services) .start actions = some target) :
    Recorded services.sha256 services.env (bearerSteps services actions)
      target.bearer.store.apiKeys.rows := by
  induction actions using List.reverseRecOn generalizing target with
  | nil =>
      cases run
      exact Bearer.recorded_start
  | append_singleton actions action ih =>
      obtain ⟨middle, earlier, step⟩ := exec_concat_eq_some_iff.mp run
      have moved := bearer_next earlier step
      have recorded := ih earlier
      rw [bearerSteps, labels_concat earlier]
      cases label : bearerStep services middle action with
      | none =>
          rw [label] at moved
          rw [Option.toList_none, List.append_nil]
          exact moved.recorded recorded
      | some part =>
          rw [label] at moved
          exact Bearer.recorded_next recorded moved

/-! ## Requests that are let through -/

section

variable (services : Services) (actions : List Action)

/-- The token opens the route for the user: an access token of the user that has not expired or,
where the route takes keys, a key of the user that stands. -/
def Opens (state : State) (call : Call) (token : Text) (user : Id) (now : ℕ) : Prop :=
  SessionStands services.env services.jose state.bearer.issued token user now ∨
    call.sessionOnly = false ∧ ∃ id, KeyStands (bearerSteps services actions) user id token

/-- The request was let through with a token that opened the route for the user, and it has not
been handled yet. -/
def AdmittedFor (request : ℕ) (call : Call) (user : Id) : Prop :=
  ∃ before token now order after state,
    actions = before ++ .receive request call (some (bearer ++ token)) now order :: after ∧
      (∀ draws, .run request draws ∉ after) ∧
        exec (next services) .start before = some state ∧
          Opens services before state call token user now

/-- The usual assumptions hold for each token that is presented, when it is. -/
def Genuine : Prop :=
  ∀ before request call token now order after state,
    actions = before ++ .receive request call (some (bearer ++ token)) now order :: after →
      exec (next services) .start before = some state →
        Bearer.Ideal services.sha256 services.env services.jose (bearerSteps services before)
          state.bearer.issued token

end

theorem AdmittedFor.concat {request : ℕ}
    (admitted : AdmittedFor services actions request call user)
    (other : ∀ draws, action ≠ .run request draws) :
    AdmittedFor services (actions ++ [action]) request call user := by
  obtain ⟨before, token, now, order, after, state, rfl, waiting, run, opened⟩ := admitted
  refine ⟨before, token, now, order, after ++ [action], state, by simp, ?_, run, opened⟩
  intro draws member
  rcases List.mem_append.mp member with earlier | last
  · exact waiting draws earlier
  · exact other draws (List.mem_singleton.mp last).symm

theorem Genuine.of_append {more : List Action} (genuine : Genuine services (actions ++ more)) :
    Genuine services actions := by
  rintro before request call token now order after state rfl run
  exact genuine before request call token now order (after ++ more) state (by simp) run

theorem bearerToken_eq_ok {header : Option Text} {token : Text}
    (read : bearerToken header = .ok token) : header = some (bearer ++ token) := by
  unfold bearerToken at read
  split at read
  next => cases read
  next text =>
    split at read
    next starts =>
      cases read
      obtain ⟨rest, rfl⟩ := List.isPrefixOf_iff_prefix.mp starts
      rw [List.drop_left' (by decide)]
    next => cases read

/-- The guard of the call's route lets the header through as the user. -/
def Passes (services : Services) (state : State) (call : Call) (header : Option Text) (now : ℕ)
    (order : RowOrder) (userId : Text) : Prop :=
  if call.sessionOnly then
    Bearer.jwtAuthGuard services.env services.jose header now = .ok userId
  else
    ∃ method store, Bearer.accountAuthGuard services.sha256 services.env services.jose order
      state.bearer.store header now = .ok (⟨userId, method⟩, store)

theorem Passes.exists_token {header : Option Text} {now : ℕ} {order : RowOrder} {userId : Text}
    (passes : Passes services source call header now order userId) :
    ∃ token, header = some (bearer ++ token) := by
  unfold Passes at passes
  split at passes
  next =>
    obtain ⟨token, read, -⟩ := bind_eq_ok_iff.mp passes
    exact ⟨token, bearerToken_eq_ok read⟩
  next =>
    obtain ⟨method, store, passed⟩ := passes
    obtain ⟨token, read, -⟩ := bind_eq_ok_iff.mp passed
    exact ⟨token, bearerToken_eq_ok read⟩

/-- What passes opens the route. -/
theorem Passes.opens {token : Text} {now : ℕ} {order : RowOrder} {userId : Text}
    (passes : Passes services source call (some (bearer ++ token)) now order userId)
    (run : exec (next services) .start actions = some source)
    (ideal : Bearer.Ideal services.sha256 services.env services.jose
      (bearerSteps services actions) source.bearer.issued token) :
    ∃ user, user.text = userId ∧ Opens services actions source call token user now := by
  unfold Passes at passes
  split at passes
  next =>
    obtain ⟨user, named, stands⟩ :=
      ideal.session_iff.mp (Bearer.jwtAuthGuard_eq_ok_iff.mp passes)
    exact ⟨user, named, .inl stands⟩
  next account =>
    have opened := Bearer.accountAuthGuard_eq_ok_iff.mp passes
    split at opened
    next =>
      obtain ⟨-, later, resolved⟩ := opened
      obtain ⟨user, id, named, stands⟩ :=
        ideal.keyStands_of_resolve (recorded_of_exec run) resolved
      exact ⟨user, named, .inr ⟨Bool.eq_false_iff.mpr account, id, stands⟩⟩
    next =>
      obtain ⟨user, named, stands⟩ := ideal.session_iff.mp opened
      exact ⟨user, named, .inl stands⟩

theorem next_admit_of_session {request : ℕ} {header : Option Text} {now : ℕ} {order : RowOrder}
    {userId : Text} (free : source.requests request = none)
    (sessionOnly : call.sessionOnly = true)
    (passed : Bearer.jwtAuthGuard services.env services.jose header now = .ok userId) :
    next services source (.receive request call header now order) =
      some (source.setRequest request (some ⟨call, userId, false⟩)) := by
  simp only [next, free, sessionOnly, if_true, passed]

/-! ## Requests under way -/

/-- A request that is under way after a step was before, checked or not, or has been let through
now. -/
theorem requests_next (step : next services source action = some target) {request : ℕ}
    {admitted : Admitted} (pending : target.requests request = some admitted) :
    (∃ checked, source.requests request = some { admitted with checked }) ∧
        (∀ draws, action ≠ .run request draws) ∨
      ∃ header now order, action = .receive request admitted.call header now order ∧
        Passes services source admitted.call header now order admitted.userId := by
  cases turn_of_next step with
  | scanned _ | found _ | created _ _ | linked _ | issued _ | refreshed _ =>
      exact .inl ⟨⟨_, pending⟩, nofun⟩
  | kept idle _ => exact .inl ⟨⟨_, pending⟩, idle request⟩
  | session sessionOnly passed =>
      rcases setRequest_eq_some pending with ⟨rfl, same⟩ | ⟨-, stored⟩
      · cases same
        exact .inr ⟨_, _, _, rfl, by rw [Passes, if_pos sessionOnly]; exact passed⟩
      · exact .inl ⟨⟨_, stored⟩, nofun⟩
  | account sessionOnly passed =>
      rcases setRequest_eq_some pending with ⟨rfl, same⟩ | ⟨-, stored⟩
      · cases same
        refine .inr ⟨_, _, _, rfl, ?_⟩
        rw [Passes, if_neg (by rw [sessionOnly]; decide)]
        exact ⟨_, _, passed⟩
      · exact .inl ⟨⟨_, stored⟩, nofun⟩
  | checked asked _ =>
      rcases setRequest_eq_some pending with ⟨rfl, same⟩ | ⟨-, stored⟩
      · cases same
        exact .inl ⟨⟨false, asked⟩, nofun⟩
      · exact .inl ⟨⟨_, stored⟩, nofun⟩
  | rejected =>
      rcases setRequest_eq_some pending with ⟨-, same⟩ | ⟨-, stored⟩
      · cases same
      · exact .inl ⟨⟨_, stored⟩, nofun⟩
  | refused _ =>
      rcases setRequest_eq_some pending with ⟨-, same⟩ | ⟨other, stored⟩
      · cases same
      · exact .inl ⟨⟨_, stored⟩, fun _ same => by cases same; exact other rfl⟩
  | handled _ _ _ done =>
      rw [(effect_of_write done).requests] at pending
      rcases setRequest_eq_some pending with ⟨-, same⟩ | ⟨other, stored⟩
      · cases same
      · exact .inl ⟨⟨_, stored⟩, fun _ same => by cases same; exact other rfl⟩

/-- Each request that is under way was let through with a token that opened its route. -/
theorem admittedFor_of_pending (run : exec (next services) .start actions = some source)
    (genuine : Genuine services actions) {request : ℕ} {admitted : Admitted}
    (pending : source.requests request = some admitted) :
    ∃ user, user.text = admitted.userId ∧
      AdmittedFor services actions request admitted.call user := by
  induction actions using List.reverseRecOn generalizing source admitted with
  | nil =>
      cases run
      cases pending
  | append_singleton actions action ih =>
      obtain ⟨middle, earlier, step⟩ := exec_concat_eq_some_iff.mp run
      rcases requests_next step pending with
        ⟨⟨checked, before⟩, other⟩ | ⟨header, now, order, rfl, passes⟩
      · obtain ⟨user, named, admittedFor⟩ := ih earlier genuine.of_append before
        exact ⟨user, named, admittedFor.concat other⟩
      · obtain ⟨token, rfl⟩ := passes.exists_token
        have ideal := genuine actions request admitted.call token now order [] middle rfl earlier
        obtain ⟨user, named, opened⟩ := passes.opens earlier ideal
        exact ⟨user, named, actions, token, now, order, [], middle, rfl,
          fun _ => List.not_mem_nil, earlier, opened⟩

/-! ## What belongs to an account -/

/-- The profile of a user. -/
def State.profileOf (state : State) (user : Id) : List Profile :=
  state.profiles.rows.filter fun row => row.userId = user

/-- The keys of a user, but for when they were used. -/
def State.keysOf (state : State) (user : Id) : List ApiKey :=
  (state.bearer.store.apiKeys.rows.filter fun row => row.userId = user).map fun row =>
    { row with lastUsedAt := none }

/-- The webhook endpoints of a user. -/
def State.endpointsOf (state : State) (user : Id) : List Endpoint :=
  state.endpoints.rows.filter fun row => row.userId = user

/-- The alert rules of a wallet. -/
def State.rulesOf (state : State) (address : String) : List AlertRule :=
  state.rules.rows.filter fun row => row.address = address

theorem keysOf_of_used {other : Id}
    (used : Bearer.Used source.bearer.store target.bearer.store) :
    target.keysOf other = source.keysOf other := by
  unfold State.keysOf
  rcases used with same | ⟨now, id, rows⟩
  · rw [same]
  · have owners : (fun row : ApiKey => decide (row.userId = other)) ∘ ApiKey.useAt now id =
        fun row => decide (row.userId = other) := by
      funext row
      simp only [Function.comp_apply, ApiKey.useAt]
      split <;> rfl
    rw [rows, List.filter_map, owners, List.map_map]
    refine List.map_congr_left fun row _ => ?_
    simp only [Function.comp_apply, ApiKey.useAt]
    split <;> rfl

theorem keysOf_of_revoke {store later : Store} {other : Id} {id : Text} {now : ℕ}
    (revoked : revokeKey store id now = .ok later)
    (owned : ∀ row ∈ store.apiKeys.rows, row.id.text = id → row.userId = user)
    (apart : other ≠ user) :
    (later.apiKeys.rows.filter fun row => row.userId = other) =
      store.apiKeys.rows.filter fun row => row.userId = other := by
  cases revokeKey_eq_ok revoked
  apply Table.filter_map_rows
  · intro row _
    unfold ApiKey.revokeAt
    split <;> rfl
  · intro row stored selected
    rw [decide_eq_true_iff] at selected
    exact Bearer.ApiKey.revokeAt_of_ne fun same =>
      apart (selected.symm.trans (owned row stored same))

theorem keysOf_of_create {store later : Store} {other id : Id} {name : Text} {isLive : Bool}
    {random : Bearer.RandomKey} {now : ℕ} {created : Bearer.CreatedKey}
    (made : Bearer.create services.sha256 services.env store user id name isLive random now =
      .ok (created, later)) (apart : other ≠ user) :
    (later.apiKeys.rows.filter fun row => row.userId = other) =
      store.apiKeys.rows.filter fun row => row.userId = other := by
  obtain ⟨row, named, owned, -, -, fresh, rows⟩ := Bearer.create_eq_ok made
  rw [rows]
  apply Table.filter_upsert
  · rw [owned, decide_eq_false_iff_not]
    exact apart.symm
  · intro old member _
    rw [named]
    exact fresh old member

/-- A handler leaves the keys of other users alone, and those of its own user where the route
takes keys. -/
theorem Effect.keysOf (effect : Effect services source user draws call target)
    (owns : Owns source user call) {other : Id}
    (outside : other ≠ user ∨ call.sessionOnly = false) :
    target.keysOf other = source.keysOf other := by
  cases effect with
  | createKey made =>
      have apart := outside.resolve_right (by simp [Call.sessionOnly])
      simp only [State.keysOf, keysOf_of_create made apart]
  | revokeKey revoked =>
      have apart := outside.resolve_right (by simp [Call.sessionOnly])
      simp only [State.keysOf, keysOf_of_revoke revoked owns apart]
  | updateProfile _ | createEndpoint _ | setEnabled _ | removeEndpoint _ | createAlert _
  | updateStatus _ => rfl

theorem Effect.profileOf (effect : Effect services source user draws call target) {other : Id}
    (outside : other ≠ user ∨ call.sessionOnly = false) :
    target.profileOf other = source.profileOf other := by
  cases effect with
  | updateProfile updated =>
      have apart := outside.resolve_right (by simp [Call.sessionOnly])
      unfold Api.updateProfile at updated
      split_ifs at updated
      cases updated
      apply Table.filter_map_rows
      · intro row _
        rw [Profile.apply_userId]
      · intro row _ selected
        rw [decide_eq_true_iff] at selected
        exact if_neg fun same => apart (selected.symm.trans same)
  | createKey _ | revokeKey _ | createEndpoint _ | setEnabled _ | removeEndpoint _
  | createAlert _ | updateStatus _ => rfl

theorem Effect.endpointsOf (effect : Effect services source user draws call target)
    (owns : Owns source user call) {other : Id}
    (outside : other ≠ user ∨ call.sessionOnly = true) :
    target.endpointsOf other = source.endpointsOf other := by
  cases effect with
  | createEndpoint made =>
      have apart := outside.resolve_right (by simp [Call.sessionOnly])
      obtain ⟨fresh, row, -, named, owned, -, rfl, -⟩ := Webhooks.create_eq_ok made
      apply Table.filter_upsert
      · rw [owned, decide_eq_false_iff_not]
        exact apart.symm
      · intro old member _ same
        exact fresh (List.mem_map.mpr ⟨old, member, same.trans named⟩)
  | setEnabled set =>
      have apart := outside.resolve_right (by simp [Call.sessionOnly])
      cases setEnabled_eq_ok set
      apply Table.filter_map_rows
      · intro row _
        unfold Endpoint.enable
        split <;> rfl
      · intro row stored selected
        rw [decide_eq_true_iff] at selected
        exact if_neg fun same => apart (selected.symm.trans (owns row stored same))
  | removeEndpoint removed =>
      have apart := outside.resolve_right (by simp [Call.sessionOnly])
      cases removeEndpoint_eq_ok removed
      apply Table.filter_delete
      intro row stored selected
      rw [decide_eq_true_iff] at selected
      rw [decide_eq_false_iff_not]
      exact fun same => apart (selected.symm.trans (owns row stored same))
  | updateProfile _ | createKey _ | revokeKey _ | createAlert _ | updateStatus _ => rfl

/-- The rules of a wallet change only for the user it belonged to at the check. -/
theorem Effect.rulesOf (effect : Effect services source user draws call target) {earlier : State}
    (later : Later earlier source) (passed : check services earlier user call = .ok ())
    {address : String} (outside : owner earlier.wallets address ≠ some user) :
    target.rulesOf address = source.rulesOf address := by
  cases effect with
  | createAlert made =>
      obtain ⟨fresh, rfl⟩ := insertRule_eq_ok made
      obtain ⟨-, -, owned⟩ := checkAlert_eq_ok_iff.mp passed
      apply Table.filter_upsert
      · rw [decide_eq_false_iff_not]
        rintro rfl
        exact outside owned
      · intro old member _ same
        exact fresh (List.mem_map.mpr ⟨old, member, same⟩)
  | updateStatus updated =>
      cases updateStatus_eq_ok updated
      obtain ⟨existing, member, named, owned⟩ := checkStatus_eq_ok passed
      obtain ⟨kept, stored, keptId, keptAddress⟩ := later.rules existing member
      apply Table.filter_map_rows
      · intro row _
        unfold AlertRule.setStatus
        split <;> rfl
      · intro row found selected
        rw [decide_eq_true_iff] at selected
        refine if_neg fun same => outside ?_
        have ids : row.id = kept.id := by rw [keptId, Bearer.Id.ext_iff, same, named]
        have rows := source.rules.eq_of_key_eq found stored ids
        rw [← selected, rows, keptAddress, owned]
  | updateProfile _ | createKey _ | revokeKey _ | createEndpoint _ | setEnabled _
  | removeEndpoint _ => rfl

/-! ## Every change -/

/-- Without a write a step leaves what belongs to the accounts alone. -/
theorem handled_or_kept (step : next services source action = some target) :
    (∃ request draws user call, action = .run request draws ∧
      source.requests request = some ⟨call, user.text, true⟩ ∧
        Effect services (source.setRequest request none) user draws call target) ∨
    (∀ user ∈ source.bearer.store.users, target.profileOf user = source.profileOf user) ∧
      (∀ user, target.keysOf user = source.keysOf user) ∧
        target.endpoints = source.endpoints ∧ target.rules = source.rules := by
  cases turn_of_next step with
  | handled asked _ _ done => exact .inl ⟨_, _, _, _, rfl, asked, effect_of_write done⟩
  | kept _ _ | scanned _ | found _ | linked _ | session _ _ | checked _ _ | rejected
  | refused _ => exact .inr ⟨fun _ _ => rfl, fun _ => rfl, rfl, rfl⟩
  | @created _ _ drawn _ fresh =>
      refine .inr ⟨fun user known => ?_, fun user => ?_, rfl, rfl⟩
      · have apart : drawn ≠ user := by
          rintro rfl
          exact fresh known
        apply Table.filter_upsert
        · exact decide_eq_false apart
        · intro old _ selected same
          rw [decide_eq_true_iff] at selected
          exact apart (same.symm.trans selected)
      · simp only [State.keysOf, Bearer.apiKeys_link]
  | issued _ =>
      refine .inr ⟨fun _ _ => rfl, fun user => ?_, rfl, rfl⟩
      simp only [State.keysOf, Bearer.store_issue, Bearer.apiKeys_link]
  | refreshed _ =>
      refine .inr ⟨fun _ _ => rfl, fun user => ?_, rfl, rfl⟩
      simp only [State.keysOf, Bearer.store_issue]
  | account _ passed =>
      exact .inr ⟨fun _ _ => rfl,
        fun _ => keysOf_of_used (Bearer.used_of_accountAuthGuard passed), rfl, rfl⟩

/-- Whatever changes of an account in a step of a run, a request of that account's user is
handled then: one that a session let through for the profile and the keys, and one that a session
or a key let through for the endpoints, and for the rules of a wallet that was the user's when the
handler checked it. -/
theorem account_changes_need_credential
    (run : exec (next services) .start actions = some source)
    (genuine : Genuine services actions) (step : next services source action = some target) :
    (∀ user ∈ source.bearer.store.users,
      target.profileOf user ≠ source.profileOf user ∨ target.keysOf user ≠ source.keysOf user →
        ∃ request draws call, action = .run request draws ∧ call.sessionOnly = true ∧
          AdmittedFor services actions request call user) ∧
    (∀ user, target.endpointsOf user ≠ source.endpointsOf user →
      ∃ request draws call, action = .run request draws ∧
        AdmittedFor services actions request call user) ∧
    ∀ address, target.rulesOf address ≠ source.rulesOf address →
      ∃ user request draws call earlier, action = .run request draws ∧
        AdmittedFor services actions request call user ∧
        CheckedFor services actions request call user earlier ∧
        owner earlier.wallets address = some user := by
  rcases handled_or_kept step with
    ⟨request, draws, handler, call, rfl, asked, effect⟩ | ⟨profiles, keys, endpoints, rules⟩
  · obtain ⟨user, named, admitted⟩ := admittedFor_of_pending run genuine asked
    cases Bearer.Id.ext named
    obtain ⟨earlier, checked, later, drawn⟩ := checkedFor_of_pending run asked
    have ⟨_, _, _, _, _, passed⟩ := checked
    have owns : Owns (source.setRequest request none) handler call :=
      owns_of_check (later.trans { Later.refl source with }) drawn passed
    refine ⟨fun other _ changed => ?_, fun other changed => ?_, fun address changed => ?_⟩
    · have inside : ¬(other ≠ handler ∨ call.sessionOnly = false) := fun outside =>
        changed.elim (fun differs => differs (effect.profileOf outside))
          (fun differs => differs (effect.keysOf owns outside))
      rw [not_or, not_not, Bool.not_eq_false] at inside
      obtain ⟨rfl, sessionOnly⟩ := inside
      exact ⟨request, draws, call, rfl, sessionOnly, admitted⟩
    · have inside : ¬(other ≠ handler ∨ call.sessionOnly = true) := fun outside =>
        changed (effect.endpointsOf owns outside)
      rw [not_or, not_not] at inside
      obtain ⟨rfl, -⟩ := inside
      exact ⟨request, draws, call, rfl, admitted⟩
    · refine ⟨handler, request, draws, call, earlier, rfl, admitted, checked, ?_⟩
      by_contra outside
      exact changed (effect.rulesOf (later.trans { Later.refl source with }) passed outside)
  · refine ⟨fun user known changed => ?_, fun user changed => ?_, fun address changed => ?_⟩
    · exact absurd changed (by rw [profiles user known, keys]; simp)
    · exact absurd (by rw [State.endpointsOf, endpoints]; rfl) changed
    · exact absurd (by rw [State.rulesOf, rules]; rfl) changed

/-! ## One account -/

/-- Services under which the carrier tokens verify. -/
def someServices : Services where
  sha256 := Bearer.window
  env := Bearer.someEnv
  jose := Bearer.carrier
  crypto := Webhooks.plainCrypto
  material := some Webhooks.someMaterial
  parseUrl := fun _ => some ⟨ofString "https:", ofString "example.com"⟩
  validateStacksAddress := fun _ => true

/-- The token of a session of Alice. -/
def aliceToken : Text :=
  Bearer.carrier.sign (List.replicate 32 0x73) (Bearer.accessPayload Bearer.alice.text ⟨0, 0⟩)

/-- The address of Alice. -/
def aliceAddress : String :=
  "SP3FBR2AGK5H9QBDH3EEN6DF8EK8JY7RX8QJ5SVTE"

/-- A first login. -/
def signIn : List Action :=
  [.findWallet 0 aliceAddress, .createUser 0 Bearer.alice, .upsertWallet 0,
    .issueTokens 0 ⟨0, 0⟩ ⟨0, 0⟩]

/-- A call that sets the e-mail address. -/
def setEmail : Call :=
  .updateProfile ⟨some (some (ofString "alice@example.com")), none⟩

/-- Alice's session makes a call. -/
def ask (request : ℕ) (call : Call) : Action :=
  .receive request call (some (bearer ++ aliceToken)) 1000 Bearer.stored

/-- Alice signs in, and asks for mail with her session. -/
def signInAndAsk : List Action :=
  signIn ++ [ask 0 setEmail, .check 0]

/-- The state after that login. -/
def signedIn : State :=
  (exec (next someServices) .start signIn).getD .start

theorem exec_signIn : exec (next someServices) .start signIn = some signedIn :=
  rfl

/-- What a call draws. -/
def someDraws : Draws where
  id := Bearer.bob
  cuid := ⟨"c1", by decide, by decide, by decide⟩
  random := Bearer.firstKey
  iv := Webhooks.someIv
  now := 2000

theorem ideal_signIn : Bearer.Ideal someServices.sha256 someServices.env someServices.jose
    (bearerSteps someServices signIn) signedIn.bearer.issued aliceToken := by
  have noKeys : (bearerSteps someServices signIn).filterMap Bearer.Action.key = [] := rfl
  constructor
  · rw [noKeys]
    exact List.nodup_nil
  · intro pepper _ key member
    rw [noKeys] at member
    cases member
  · intro secret payload keyed _
    have chosen : secret = List.replicate 32 0x73 := by
      cases keyed
      rfl
    exact ⟨⟨Bearer.alice, ⟨0, 0⟩, ⟨0, 0⟩⟩, List.mem_singleton_self _, .inl (by rw [chosen]; rfl)⟩

theorem genuine_signInAndAsk : Genuine someServices signInAndAsk := by
  rintro before request call token now order after state split run
  rcases before with _ | ⟨_, _ | ⟨_, _ | ⟨_, _ | ⟨_, _ | ⟨_, _ | ⟨_, before⟩⟩⟩⟩⟩⟩
  all_goals
    simp only [signInAndAsk, signIn, ask, List.cons_append, List.nil_append, List.cons.injEq,
      reduceCtorEq, false_and, and_false] at split
  · obtain ⟨rfl, rfl, rfl, rfl, asked, -⟩ := split
    injection asked with _ _ header
    cases List.append_cancel_left (Option.some.inj header)
    cases exec_signIn.symm.trans run
    exact ideal_signIn
  · obtain ⟨-, -, -, -, -, -, rest⟩ := split
    cases List.append_eq_nil_iff.mp rest.symm |>.2

/-- Alice's session passes the guards. -/
theorem jwtAuthGuard_alice : Bearer.jwtAuthGuard someServices.env someServices.jose
    (some (bearer ++ aliceToken)) 1000 = .ok Bearer.alice.text := by
  have stands : SessionStands someServices.env someServices.jose signedIn.bearer.issued aliceToken
      Bearer.alice 1000 :=
    ⟨List.replicate 32 0x73, ⟨0, 0⟩, ⟨0, 0⟩, rfl, List.mem_singleton_self _,
      by rw [aliceToken]; rfl, by decide⟩
  exact Bearer.jwtAuthGuard_eq_ok_iff.mpr (ideal_signIn.session_iff.mpr ⟨_, rfl, stands⟩)

/-- Alice's session sets her address. -/
theorem account_changes_need_credential_alice :
    ∃ source target, exec (next someServices) .start signInAndAsk = some source ∧
      next someServices source (.run 0 someDraws) = some target ∧
        ∃ request draws call, Action.run 0 someDraws = .run request draws ∧
          call.sessionOnly = true ∧
            AdmittedFor someServices signInAndAsk request call Bearer.alice := by
  have admitted : next someServices signedIn (ask 0 setEmail) =
      some (signedIn.setRequest 0 (some ⟨setEmail, Bearer.alice.text, false⟩)) :=
    next_admit_of_session rfl rfl jwtAuthGuard_alice
  obtain ⟨source, checked⟩ := Option.isSome_iff_exists.mp
    (show (next someServices (signedIn.setRequest 0
      (some ⟨setEmail, Bearer.alice.text, false⟩)) (.check 0)).isSome = true by decide +kernel)
  have run : exec (next someServices) .start signInAndAsk = some source :=
    exec_append_eq_some_iff.mpr ⟨_, exec_signIn, exec_cons_eq_some_iff.mpr ⟨_, admitted,
      exec_cons_eq_some_iff.mpr ⟨_, checked, rfl⟩⟩⟩
  have both : (exec (next someServices) (signedIn.setRequest 0
      (some ⟨setEmail, Bearer.alice.text, false⟩)) [.check 0, .run 0 someDraws]).map
        (fun state => state.profileOf Bearer.alice) =
          some [⟨Bearer.alice, some (ofString "alice@example.com"), none, true⟩] := by
    decide +kernel
  have known : (next someServices (signedIn.setRequest 0
      (some ⟨setEmail, Bearer.alice.text, false⟩)) (.check 0)).map
        (fun state => (decide (Bearer.alice ∈ state.bearer.store.users),
          state.profileOf Bearer.alice)) = some (true, [Profile.new Bearer.alice]) := by
    decide +kernel
  obtain ⟨target, ran, email⟩ := Option.map_eq_some_iff.mp both
  obtain ⟨middle, first, rest⟩ := exec_cons_eq_some_iff.mp ran
  cases checked.symm.trans first
  obtain ⟨last, step, same⟩ := exec_cons_eq_some_iff.mp rest
  cases same
  rw [checked, Option.map_some, Option.some_inj, Prod.mk.injEq, decide_eq_true_iff] at known
  refine ⟨source, target, run, step, ?_⟩
  refine (account_changes_need_credential run genuine_signInAndAsk step).1 Bearer.alice known.1
    (.inl ?_)
  rw [email, known.2]
  decide +kernel

end RiskRail.Api
