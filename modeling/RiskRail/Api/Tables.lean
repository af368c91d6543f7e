import RiskRail.Api.Authority

/-!
# What the tables of the accounts hold

In every state that requests, logins and scans reach, each row belongs to a user that exists,
no address is that of two accounts, and an alert rule stands on a wallet that has a user, with a
threshold that can be compared.
-/

namespace RiskRail.Api

open RiskRail.Javascript Text RiskRail.Transition RiskRail.Relational RiskRail.Auth
open RiskRail.Auth.Bearer (Id ApiKey Store)
open RiskRail.Webhooks (Endpoint)
open RiskRail.Attestation (bind_eq_ok_iff)

/-- The user that a login has drawn or found. -/
def Login.user : Login → Option Id
  | .upserting _ user | .linked _ user => some user
  | .idle | .creating _ => none

/-- The rule can be evaluated, and somebody owns its wallet. -/
structure AlertRule.Sound (services : Services) (wallets : Table Wallet.address)
    (rule : AlertRule) : Prop where
  principal : Chainhook.isStacksPrincipal services.validateStacksAddress rule.address = true
  threshold : ∃ x, finiteNumber rule.threshold = some x ∧ 0 ≤ x
  owned : (owner wallets rule.address).isSome = true

/-- What every run keeps true of the tables. -/
structure Sound (services : Services) (state : State) : Prop where
  profiles : ∀ user, user ∈ state.profiles.rows.map Profile.userId ↔
    user ∈ state.bearer.store.users
  emails : ∀ first ∈ state.profiles.rows, ∀ second ∈ state.profiles.rows, ∀ email,
    first.email = some email → second.email = some email → first = second
  unverified : ∀ row ∈ state.profiles.rows, row.emailVerifiedAt = none
  owners : ∀ address user, owner state.wallets address = some user →
    user ∈ state.bearer.store.users
  logins : ∀ login, ∀ user ∈ (state.logins login).user, user ∈ state.bearer.store.users
  keys : ∀ row ∈ state.bearer.store.apiKeys.rows, row.userId ∈ state.bearer.store.users
  endpoints : ∀ row ∈ state.endpoints.rows, row.userId ∈ state.bearer.store.users ∧
    ∀ event ∈ row.events, event ∈ Webhooks.webhookEvents
  rules : ∀ rule ∈ state.rules.rows, rule.Sound services state.wallets

variable {services : Services} {source target : State} {action : Action} {actions : List Action}
  {user : Id} {call : Call} {draws : Draws}

theorem sound_start : Sound services .start where
  profiles _ := Iff.rfl
  emails _ member := by cases member
  unverified _ member := by cases member
  owners _ _ found := by cases found
  logins _ _ found := by cases found
  keys _ member := by cases member
  endpoints _ member := by cases member
  rules _ member := by cases member

/-! ## Handlers -/

/-- The rows of the keys after a handler, and the users, who are the same. -/
theorem Effect.users (effect : Effect services source user draws call target) :
    target.bearer.store.users = source.bearer.store.users ∧
      ∀ row ∈ target.bearer.store.apiKeys.rows, row.userId = user ∨
        ∃ old ∈ source.bearer.store.apiKeys.rows, row.userId = old.userId := by
  cases effect with
  | createKey made =>
      unfold Bearer.create at made
      simp only [bind, Except.bind] at made
      split at made
      next => cases made
      next =>
        split_ifs at made
        cases made
        refine ⟨rfl, fun row member => ?_⟩
        rcases Table.mem_upsert_iff.mp member with rfl | ⟨old, -⟩
        · exact .inl rfl
        · exact .inr ⟨row, old, rfl⟩
  | revokeKey revoked =>
      cases revokeKey_eq_ok revoked
      refine ⟨rfl, fun row member => ?_⟩
      obtain ⟨old, stored, rfl⟩ := List.mem_map.mp member
      refine .inr ⟨old, stored, ?_⟩
      unfold ApiKey.revokeAt
      split <;> rfl
  | updateProfile _ | createEndpoint _ | setEnabled _ | removeEndpoint _ | createAlert _
  | updateStatus _ => exact ⟨rfl, fun row member => .inr ⟨row, member, rfl⟩⟩

theorem Effect.wallets (effect : Effect services source user draws call target) :
    target.wallets = source.wallets ∧ target.logins = source.logins := by
  cases effect <;> exact ⟨rfl, rfl⟩

theorem Profile.email_apply {input : UpdateProfileDto} {row : Profile} {email : Text}
    (set : (row.apply user input).email = some email) :
    row.email = some email ∨ row.userId = user ∧ input.email = some (some email) := by
  unfold Profile.apply at set
  split at set
  next own =>
    cases given : input.email with
    | none =>
        rw [given] at set
        exact .inl set
    | some value =>
        rw [given] at set
        exact .inr ⟨own, congrArg some set⟩
  next => exact .inl set

theorem own_of_not_emailTaken {profiles : Table Profile.userId} {input : UpdateProfileDto}
    {email : Text} {row : Profile} (free : ¬emailTaken profiles user input = true)
    (given : input.email = some (some email)) (member : row ∈ profiles.rows)
    (has : row.email = some email) : row.userId = user := by
  by_contra other
  refine free ?_
  rw [emailTaken, given]
  simp only [List.any_eq_true, Bool.and_eq_true, decide_eq_true_iff]
  exact ⟨row, member, other, has⟩

/-- Two rows that are given one address are one row. -/
theorem email_unique_of_apply {profiles : Table Profile.userId} {input : UpdateProfileDto}
    (free : ¬emailTaken profiles user input = true)
    (emails : ∀ first ∈ profiles.rows, ∀ second ∈ profiles.rows, ∀ email,
      first.email = some email → second.email = some email → first = second)
    {first second : Profile} (firstMem : first ∈ profiles.rows)
    (secondMem : second ∈ profiles.rows) {email : Text}
    (firstSet : (first.apply user input).email = some email)
    (secondSet : (second.apply user input).email = some email) : first = second := by
  have own {one : Profile} (member : one ∈ profiles.rows) (given : input.email = some (some email))
      (set : (one.apply user input).email = some email) : one.userId = user :=
    (Profile.email_apply set).elim (own_of_not_emailTaken free given member) And.left
  rcases Profile.email_apply firstSet with firstHas | ⟨-, given⟩
  · rcases Profile.email_apply secondSet with secondHas | ⟨-, given⟩
    · exact emails first firstMem second secondMem email firstHas secondHas
    · exact profiles.eq_of_key_eq firstMem secondMem
        ((own firstMem given firstSet).trans (own secondMem given secondSet).symm)
  · exact profiles.eq_of_key_eq firstMem secondMem
      ((own firstMem given firstSet).trans (own secondMem given secondSet).symm)

/-- A new address is not that of another account, and no address is confirmed. -/
theorem Effect.profiles (effect : Effect services source user draws call target)
    (sound : Sound services source) :
    target.profiles.rows.map Profile.userId = source.profiles.rows.map Profile.userId ∧
      (∀ first ∈ target.profiles.rows, ∀ second ∈ target.profiles.rows, ∀ email,
        first.email = some email → second.email = some email → first = second) ∧
        ∀ row ∈ target.profiles.rows, row.emailVerifiedAt = none := by
  cases effect with
  | @updateProfile input _ updated =>
      unfold Api.updateProfile at updated
      split_ifs at updated with unknown taken
      cases updated
      refine ⟨?_, ?_, ?_⟩
      · simp [Table.update, Profile.apply_userId]
      · intro first firstMem second secondMem email firstSet secondSet
        obtain ⟨old, stored, rfl⟩ := List.mem_map.mp firstMem
        obtain ⟨other, known, rfl⟩ := List.mem_map.mp secondMem
        rw [email_unique_of_apply taken sound.emails stored known firstSet secondSet]
      · intro row member
        obtain ⟨old, stored, rfl⟩ := List.mem_map.mp member
        have unverified := sound.unverified old stored
        unfold Profile.apply
        split
        · dsimp only
          rw [unverified, ite_self]
        · exact unverified
  | createKey _ | revokeKey _ | createEndpoint _ | setEnabled _ | removeEndpoint _
  | createAlert _ | updateStatus _ => exact ⟨rfl, sound.emails, sound.unverified⟩

theorem Effect.endpoints (effect : Effect services source user draws call target) :
    ∀ row ∈ target.endpoints.rows,
      (row.userId = user ∧ ∀ event ∈ row.events, event ∈ Webhooks.webhookEvents) ∨
        ∃ old ∈ source.endpoints.rows, row.userId = old.userId ∧ row.events = old.events := by
  cases effect with
  | createEndpoint made =>
      obtain ⟨-, row, records, -, owned, -, rfl, -, events, known⟩ := Webhooks.create_eq_ok made
      intro other member
      rcases Table.mem_upsert_iff.mp member with rfl | ⟨old, -⟩
      · refine .inl ⟨owned, ?_⟩
        rw [records.events_eq, events]
        exact known
      · exact .inr ⟨other, old, rfl, rfl⟩
  | setEnabled set =>
      cases setEnabled_eq_ok set
      intro row member
      obtain ⟨old, stored, rfl⟩ := List.mem_map.mp member
      refine .inr ⟨old, stored, ?_⟩
      unfold Endpoint.enable
      split <;> exact ⟨rfl, rfl⟩
  | removeEndpoint removed =>
      cases removeEndpoint_eq_ok removed
      intro row member
      exact .inr ⟨row, (Table.mem_delete_iff.mp member).1, rfl, rfl⟩
  | updateProfile _ | createKey _ | revokeKey _ | createAlert _ | updateStatus _ =>
      exact fun row member => .inr ⟨row, member, rfl, rfl⟩

/-- A new rule stands on a wallet that had a user at the check, and so has one now. -/
theorem Effect.rules (effect : Effect services source user draws call target) {earlier : State}
    (later : Later earlier source) (passed : check services earlier user call = .ok ()) :
    ∀ rule ∈ target.rules.rows, rule.Sound services source.wallets ∨
      ∃ old ∈ source.rules.rows, rule.address = old.address ∧ rule.threshold = old.threshold := by
  cases effect with
  | createAlert made =>
      obtain ⟨-, rfl⟩ := insertRule_eq_ok made
      obtain ⟨principal, threshold, owned⟩ := checkAlert_eq_ok_iff.mp passed
      intro rule member
      rcases Table.mem_upsert_iff.mp member with rfl | ⟨old, -⟩
      · exact .inl ⟨principal, threshold, later.owned _ (by rw [owned]; rfl)⟩
      · exact .inr ⟨rule, old, rfl, rfl⟩
  | updateStatus updated =>
      cases updateStatus_eq_ok updated
      intro rule member
      obtain ⟨old, stored, rfl⟩ := List.mem_map.mp member
      refine .inr ⟨old, stored, ?_⟩
      unfold AlertRule.setStatus
      split <;> exact ⟨rfl, rfl⟩
  | updateProfile _ | createKey _ | revokeKey _ | createEndpoint _ | setEnabled _
  | removeEndpoint _ => exact fun rule member => .inr ⟨rule, member, rfl, rfl⟩

theorem Effect.sound (effect : Effect services source user draws call target)
    (sound : Sound services source) (known : user ∈ source.bearer.store.users) {earlier : State}
    (later : Later earlier source) (passed : check services earlier user call = .ok ()) :
    Sound services target := by
  obtain ⟨users, keys⟩ := effect.users
  obtain ⟨wallets, logins⟩ := effect.wallets
  obtain ⟨profiles, emails, unverified⟩ := effect.profiles sound
  constructor
  · intro other
    rw [profiles, users]
    exact sound.profiles other
  · exact emails
  · exact unverified
  · rw [wallets, users]
    exact sound.owners
  · rw [logins, users]
    exact sound.logins
  · intro row member
    rw [users]
    rcases keys row member with own | ⟨old, stored, same⟩
    · rw [own]
      exact known
    · rw [same]
      exact sound.keys old stored
  · intro row member
    rw [users]
    rcases effect.endpoints row member with ⟨own, events⟩ | ⟨old, stored, same, events⟩
    · rw [own]
      exact ⟨known, events⟩
    · rw [same, events]
      exact sound.endpoints old stored
  · intro rule member
    rw [wallets]
    rcases effect.rules later passed rule member with new | ⟨old, stored, address, threshold⟩
    · exact new
    · have kept := sound.rules old stored
      exact ⟨by rw [address]; exact kept.principal, by rw [threshold]; exact kept.threshold,
        by rw [address]; exact kept.owned⟩

/-! ## Steps -/

theorem users_link (state : Bearer.State) (drawn : Id) :
    user ∈ (state.link drawn).store.users ↔ user = drawn ∨ user ∈ state.store.users := by
  unfold Bearer.State.link
  split
  next known =>
    refine ⟨.inr, ?_⟩
    rintro (rfl | old)
    · exact known
    · exact old
  next => exact List.mem_cons

theorem link_of_known {state : Bearer.State} (known : user ∈ state.store.users) :
    state.link user = state :=
  if_pos known

section Guard

variable {sha256 : Text → Attestation.Sha256Digest} {env : Bearer.Env} {jose : Bearer.Jose}
  {order : Bearer.RowOrder} {store later : Store} {now : ℕ}

theorem users_of_resolve {token : Text} {found : Option Text}
    (resolved : Bearer.resolve sha256 env order store now token = .ok (found, later)) :
    later.users = store.users := by
  unfold Bearer.resolve at resolved
  split at resolved
  next =>
    cases resolved
    rfl
  next =>
    obtain ⟨candidate, -, resolved⟩ := bind_eq_ok_iff.mp resolved
    dsimp only at resolved
    split at resolved
    · cases resolved
      rfl
    · cases resolved
      rfl

theorem users_of_accountAuthGuard {header : Option Text} {admission : Bearer.Admission}
    (admitted : Bearer.accountAuthGuard sha256 env jose order store header now =
      .ok (admission, later)) : later.users = store.users := by
  obtain ⟨token, -, admitted⟩ := bind_eq_ok_iff.mp admitted
  split at admitted
  next =>
    obtain ⟨⟨found, used⟩, resolved, admitted⟩ := bind_eq_ok_iff.mp admitted
    have same := users_of_resolve resolved
    dsimp only at admitted
    split at admitted
    next => cases admitted
    next =>
      split_ifs at admitted
      · cases admitted
      · cases admitted
        exact same
  next =>
    obtain ⟨payload, -, admitted⟩ := bind_eq_ok_iff.mp admitted
    obtain ⟨userId, -, admitted⟩ := bind_eq_ok_iff.mp admitted
    cases admitted
    rfl

/-- The users of the keys stay when one is used. -/
theorem keyUsers_of_used (used : Bearer.Used store later) :
    ∀ row ∈ later.apiKeys.rows, ∃ old ∈ store.apiKeys.rows, row.userId = old.userId := by
  intro row member
  rcases used with same | ⟨now, id, rows⟩
  · rw [same] at member
    exact ⟨row, member, rfl⟩
  · rw [rows] at member
    obtain ⟨old, stored, rfl⟩ := List.mem_map.mp member
    refine ⟨old, stored, ?_⟩
    unfold ApiKey.useAt
    split <;> rfl

end Guard

/-- A wallet keeps a user once it has one. -/
theorem AlertRule.Sound.of_owned {wallets later : Table Wallet.address} {rule : AlertRule}
    (sound : rule.Sound services wallets)
    (kept : ∀ address, (owner wallets address).isSome = true →
      (owner later address).isSome = true) : rule.Sound services later :=
  ⟨sound.principal, sound.threshold, kept _ sound.owned⟩

theorem Sound.login (sound : Sound services source) {login : ℕ} {progress : Login}
    (known : ∀ user ∈ progress.user, user ∈ source.bearer.store.users) :
    ∀ other, ∀ user ∈ ((source.setLogin login progress).logins other).user,
      user ∈ source.bearer.store.users := by
  intro other user drawn
  unfold State.setLogin at drawn
  rcases (update_iff (fun held : Login => user ∈ held.user)).mp drawn with ⟨-, new⟩ | ⟨-, old⟩
  · exact known user new
  · exact sound.logins other user old

/-- The users stay, and so do the rows of profiles, endpoints and rules. -/
theorem Sound.frame (sound : Sound services source)
    (users : target.bearer.store.users = source.bearer.store.users)
    (profiles : target.profiles = source.profiles)
    (keys : ∀ row ∈ target.bearer.store.apiKeys.rows,
      ∃ old ∈ source.bearer.store.apiKeys.rows, row.userId = old.userId)
    (owners : ∀ address user, owner target.wallets address = some user →
      user ∈ source.bearer.store.users)
    (owned : ∀ address, (owner source.wallets address).isSome = true →
      (owner target.wallets address).isSome = true)
    (logins : ∀ login, ∀ user ∈ (target.logins login).user, user ∈ source.bearer.store.users)
    (endpoints : target.endpoints = source.endpoints) (rules : target.rules = source.rules) :
    Sound services target where
  profiles user := by
    rw [profiles, users]
    exact sound.profiles user
  emails := by
    rw [profiles]
    exact sound.emails
  unverified := by
    rw [profiles]
    exact sound.unverified
  owners := by
    rw [users]
    exact owners
  logins := by
    rw [users]
    exact logins
  keys row member := by
    obtain ⟨old, stored, same⟩ := keys row member
    rw [same, users]
    exact sound.keys old stored
  endpoints := by
    rw [endpoints, users]
    exact sound.endpoints
  rules := by
    rw [rules]
    exact fun rule member => (sound.rules rule member).of_owned owned

theorem Sound.setRequest (sound : Sound services source) (request : ℕ)
    (admitted : Option Admitted) : Sound services (source.setRequest request admitted) :=
  ⟨sound.profiles, sound.emails, sound.unverified, sound.owners, sound.logins, sound.keys,
    sound.endpoints, sound.rules⟩

/-- A user is new, and has no address yet. -/
theorem Sound.create (sound : Sound services source) (login : ℕ) (address : String)
    (fresh : user ∉ source.bearer.store.users) :
    Sound services
      { source.setLogin login (.upserting address user) with
        bearer := source.bearer.link user
        profiles := source.profiles.upsert (Profile.new user) } := by
  have grown (other : Id) (known : other ∈ source.bearer.store.users) :
      other ∈ (source.bearer.link user).store.users := (users_link _ _).mpr (.inr known)
  have unknown : ∀ row ∈ source.profiles.rows, row.userId ≠ user := by
    rintro row member rfl
    exact fresh ((sound.profiles _).mp (List.mem_map_of_mem member))
  constructor
  · intro other
    rw [users_link, ← sound.profiles]
    simp only [List.mem_map, Table.mem_upsert_iff]
    constructor
    · rintro ⟨row, rfl | ⟨old, -⟩, rfl⟩
      · exact .inl rfl
      · exact .inr ⟨row, old, rfl⟩
    · rintro (rfl | ⟨row, old, rfl⟩)
      · exact ⟨_, .inl rfl, rfl⟩
      · exact ⟨row, .inr ⟨old, unknown row old⟩, rfl⟩
  · intro first firstMem second secondMem email firstHas secondHas
    rcases Table.mem_upsert_iff.mp firstMem with rfl | ⟨firstOld, -⟩
    · cases firstHas
    · rcases Table.mem_upsert_iff.mp secondMem with rfl | ⟨secondOld, -⟩
      · cases secondHas
      · exact sound.emails first firstOld second secondOld email firstHas secondHas
  · intro row member
    rcases Table.mem_upsert_iff.mp member with rfl | ⟨old, -⟩
    · rfl
    · exact sound.unverified row old
  · exact fun address other found => grown other (sound.owners address other found)
  · intro other drawn held
    unfold State.setLogin at held
    rcases (update_iff (fun held : Login => drawn ∈ held.user)).mp held with ⟨-, new⟩ | ⟨-, old⟩
    · cases Option.mem_some.mp new
      exact (users_link _ _).mpr (.inl rfl)
    · exact grown drawn (sound.logins other drawn old)
  · intro row member
    rw [Bearer.apiKeys_link] at member
    exact grown _ (sound.keys row member)
  · exact fun row member => ⟨grown _ (sound.endpoints row member).1, (sound.endpoints row member).2⟩
  · exact sound.rules

theorem sound_next (run : exec (next services) .start actions = some source)
    (sound : Sound services source)
    (step : next services source action = some target) : Sound services target := by
  have same : ∀ row ∈ source.bearer.store.apiKeys.rows,
      ∃ old ∈ source.bearer.store.apiKeys.rows, row.userId = old.userId :=
    fun row member => ⟨row, member, rfl⟩
  cases turn_of_next step with
  | kept _ _ => exact sound
  | scanned unknown =>
      refine sound.frame rfl rfl same ?_ ?_ sound.logins rfl rfl
      · intro other user found
        rw [owner_scan unknown] at found
        exact sound.owners other user found
      · intro other owned
        rwa [owner_scan unknown]
  | found read =>
      refine sound.frame rfl rfl same sound.owners (fun _ owned => owned) (sound.login ?_) rfl rfl
      rcases read with rfl | ⟨user, found, rfl⟩
      · exact fun _ drawn => by cases drawn
      · intro other drawn
        cases Option.mem_some.mp drawn
        exact sound.owners _ _ found
  | created _ fresh => exact sound.create _ _ fresh
  | @linked login address user upserting =>
      have known : user ∈ source.bearer.store.users :=
        sound.logins login user (by rw [upserting]; rfl)
      refine sound.frame rfl rfl same ?_ ?_ (sound.login ?_) rfl rfl
      · intro other drawn found
        rw [owner_upsert] at found
        split_ifs at found
        · cases found
          exact known
        · exact sound.owners other drawn found
      · intro other owned
        rw [owner_upsert]
        split_ifs
        · rfl
        · exact owned
      · intro other drawn
        cases Option.mem_some.mp drawn
        exact known
  | @issued login address user _ _ linked =>
      have known : user ∈ source.bearer.store.users :=
        sound.logins login user (by rw [linked]; rfl)
      rw [link_of_known known]
      refine sound.frame ?_ rfl ?_ sound.owners (fun _ owned => owned)
        (sound.login fun _ drawn => by cases drawn) rfl rfl
      · rw [Bearer.store_issue]
      · rw [Bearer.store_issue]
        exact same
  | refreshed _ =>
      refine sound.frame ?_ rfl ?_ sound.owners (fun _ owned => owned) sound.logins rfl rfl
      · rw [Bearer.store_issue]
      · rw [Bearer.store_issue]
        exact same
  | session _ _ | checked _ _ | rejected => exact sound.setRequest _ _
  | account _ passed =>
      exact sound.frame (users_of_accountAuthGuard passed) rfl
        (keyUsers_of_used (Bearer.used_of_accountAuthGuard passed)) sound.owners
        (fun _ owned => owned) sound.logins rfl rfl
  | refused _ => exact sound.setRequest _ _
  | handled asked found _ done =>
      obtain ⟨earlier, ⟨-, -, -, -, -, passed⟩, later, -⟩ := checkedFor_of_pending run asked
      exact (effect_of_write done).sound (sound.setRequest _ _) (List.mem_of_find?_eq_some found)
        (later.trans { Later.refl source with }) passed

/-- Every run leaves the tables sound. -/
theorem tables_stay_sound (run : exec (next services) .start actions = some target) :
    Sound services target := by
  induction actions using List.reverseRecOn generalizing target with
  | nil =>
      cases run
      exact sound_start
  | append_singleton actions action ih =>
      obtain ⟨middle, earlier, step⟩ := exec_concat_eq_some_iff.mp run
      exact sound_next earlier (ih earlier) step

/-! ## One account -/

/-- Alice's session opens every route. -/
theorem next_ask {request : ℕ} (free : source.requests request = none) :
    next someServices source (ask request call) =
      some (source.setRequest request (some ⟨call, Bearer.alice.text, false⟩)) := by
  cases sessionOnly : call.sessionOnly with
  | true => exact next_admit_of_session free sessionOnly jwtAuthGuard_alice
  | false =>
      have plain := @Bearer.not_prefix_of_head aliceToken (Bearer.carrier.head_sign _ _)
      simp only [next, ask, free, sessionOnly, Bool.false_eq_true, if_false,
        Bearer.accountAuthGuard_of_jwtAuthGuard plain jwtAuthGuard_alice]
      rfl

/-- An address for mail, a key, a rule and an endpoint. -/
def aliceCalls : List Call :=
  [setEmail, .createKey (ofString "bot") false,
    .createAlert aliceAddress ⟨.healthFactorE4, .lt, ofString "13000", by decide⟩,
    .createEndpoint (ofString "https://example.com") [ofString "risk.updated"]]

/-- What Alice asks for is handled. -/
def handled : List Action :=
  (List.range 4).flatMap fun request => [.check request, .run request someDraws]

/-- All calls of Alice have been let through. -/
def asked : State :=
  (aliceCalls.zipIdx).foldl (fun state call =>
    state.setRequest call.2 (some ⟨call.1, Bearer.alice.text, false⟩)) signedIn

theorem exec_asked :
    exec (next someServices) .start (signIn ++ aliceCalls.mapIdx ask) = some asked := by
  refine exec_append_eq_some_iff.mpr ⟨signedIn, exec_signIn, ?_⟩
  simp only [aliceCalls, List.mapIdx_cons, List.mapIdx_nil]
  iterate 4 refine exec_cons_eq_some_iff.mpr ⟨_, next_ask rfl, ?_⟩
  rfl

/-- Alice signs in, makes her calls, and all are handled. -/
theorem tables_stay_sound_account :
    ∃ state, exec (next someServices) .start
        ((signIn ++ aliceCalls.mapIdx ask) ++ handled) = some state ∧
      state.profiles.rows.map Profile.email = [some (ofString "alice@example.com")] ∧
      state.bearer.store.apiKeys.rows.length = 1 ∧ state.rules.rows.length = 1 ∧
      state.endpoints.rows.length = 1 ∧ Sound someServices state := by
  have made : (exec (next someServices) asked handled).map (fun state =>
      (state.profiles.rows.map Profile.email, state.bearer.store.apiKeys.rows.length,
        state.rules.rows.length, state.endpoints.rows.length)) =
          some ([some (ofString "alice@example.com")], 1, 1, 1) := by
    decide +kernel
  obtain ⟨state, rest, same⟩ := Option.map_eq_some_iff.mp made
  simp only [Prod.mk.injEq] at same
  obtain ⟨emails, keys, rules, endpoints⟩ := same
  have run := exec_append_eq_some_iff.mpr ⟨asked, exec_asked, rest⟩
  exact ⟨state, run, emails, keys, rules, endpoints, tables_stay_sound run⟩

end RiskRail.Api
