import RiskRail.Auth.Guards
import Mathlib.Data.List.Induction

/-!
# The keys that stand

The rows of `ApiKey` that are not revoked are the keys that were created and that their
owner has not revoked since.  A call by another user leaves them alone, and so do logins
and requests.
-/

namespace RiskRail.Auth.Bearer

open RiskRail.Javascript Text RiskRail.Transition RiskRail.Relational

open RiskRail.Attestation (Sha256Digest)

/-! ## Keys that stand -/

/-- The user created the key and has not revoked it since. -/
def KeyStands (actions : List Action) (user id : Id) (token : Text) : Prop :=
  ∃ before name isLive random now after,
    actions = before ++ .create user id name isLive random now :: after ∧
      keyToken isLive random = token ∧ ∀ later, .revoke user id.text later ∉ after

/-- The key that a call creates. -/
def Action.key : Action → Option Text
  | .create _ _ _ isLive random _ => some (keyToken isLive random)
  | _ => none

variable {actions : List Action} {action : Action} {user id : Id} {token : Text}

theorem keyStands_concat :
    KeyStands (actions ++ [action]) user id token ↔
      (∃ name isLive random now, action = .create user id name isLive random now ∧
        keyToken isLive random = token) ∨
      KeyStands actions user id token ∧ ∀ later, action ≠ .revoke user id.text later := by
  constructor
  · rintro ⟨before, name, isLive, random, now, after, split, made, kept⟩
    rcases List.eq_nil_or_concat after with rfl | ⟨rest, last, rfl⟩
    · obtain ⟨-, final⟩ := List.append_inj' split rfl
      cases final
      exact .inl ⟨name, isLive, random, now, rfl, made⟩
    · rw [List.concat_eq_append, ← List.cons_append, ← List.append_assoc] at split
      obtain ⟨earlier, final⟩ := List.append_inj' split rfl
      cases final
      right
      constructor
      · refine ⟨before, name, isLive, random, now, rest, earlier, made, fun later member => ?_⟩
        exact kept later (by simp [member])
      · rintro later rfl
        exact kept later (by simp)
  · rintro (⟨name, isLive, random, now, rfl, made⟩ |
      ⟨⟨before, name, isLive, random, now, after, rfl, made, kept⟩, other⟩)
    · exact ⟨actions, name, isLive, random, now, [], rfl, made, fun _ => List.not_mem_nil⟩
    · refine ⟨before, name, isLive, random, now, after ++ [action], by simp, made, ?_⟩
      intro later member
      rcases List.mem_append.mp member with old | new
      · exact kept later old
      · exact other later (List.mem_singleton.mp new).symm

/-- A call that creates and revokes nothing. -/
theorem keyStands_concat_of_silent (unmade : action.key = none)
    (kept : ∀ user id now, action ≠ .revoke user id now) :
    KeyStands (actions ++ [action]) user id token ↔ KeyStands actions user id token := by
  rw [keyStands_concat, and_iff_left fun later => kept user id.text later, or_iff_right]
  rintro ⟨name, isLive, random, now, rfl, -⟩
  cases unmade

theorem KeyStands.exists_mem (stands : KeyStands actions user id token) :
    ∃ name isLive random now, .create user id name isLive random now ∈ actions ∧
      keyToken isLive random = token := by
  obtain ⟨before, name, isLive, random, now, after, rfl, made, -⟩ := stands
  exact ⟨name, isLive, random, now, by simp, made⟩

theorem KeyStands.mem_keys (stands : KeyStands actions user id token) :
    token ∈ actions.filterMap Action.key := by
  obtain ⟨name, isLive, random, now, member, rfl⟩ := stands.exists_mem
  exact List.mem_filterMap.mpr ⟨_, member, rfl⟩

/-- Where no key is created twice, a key tells which call created it. -/
theorem eq_of_key (distinct : (actions.filterMap Action.key).Nodup) {first second : Action}
    (firstMem : first ∈ actions) (secondMem : second ∈ actions)
    (found : first.key = some token) (found' : second.key = some token) : first = second := by
  have apart := List.pairwise_filterMap.mp distinct
  exact List.Pairwise.forall_of_forall_of_flip
    (R := fun a b => a.key = some token → b.key = some token → a = b) (fun _ _ _ _ => rfl)
    (apart.imp fun away here there => absurd rfl (away _ here _ there))
    (apart.imp fun away there here => absurd rfl (away _ here _ there))
    firstMem secondMem found found'

theorem KeyStands.unique (distinct : (actions.filterMap Action.key).Nodup) {other otherId : Id}
    (first : KeyStands actions user id token) (second : KeyStands actions other otherId token) :
    user = other := by
  obtain ⟨name, isLive, random, now, member, rfl⟩ := first.exists_mem
  obtain ⟨name', isLive', random', now', member', made⟩ := second.exists_mem
  cases eq_of_key distinct member member' rfl (congrArg some made)
  rfl

/-! ## The rows of a run -/

section

variable (sha256 : Text → Sha256Digest) (env : Env) (jose : Jose)

/-- The row is that of the token. -/
def ApiKey.Holds (row : ApiKey) (token : Text) : Prop :=
  row.keyPrefix = token.take 16 ∧ Bearer.hash sha256 env token = .ok row.hash

/-- The rows that are not revoked are the keys that stand. -/
structure Recorded (actions : List Action) (rows : List ApiKey) : Prop where
  sound : ∀ row ∈ rows, row.revokedAt = none →
    ∃ token, KeyStands actions row.userId row.id token ∧ row.Holds sha256 env token
  complete : ∀ user id token, KeyStands actions user id token →
    ∃ row ∈ rows, row.revokedAt = none ∧ row.userId = user ∧ row.id = id ∧
      row.Holds sha256 env token

end

variable {sha256 : Text → Sha256Digest} {env : Env} {jose : Jose} {state target : State}

/-- A call that neither creates nor revokes a key changes no row but for its last use. -/
theorem Recorded.silent {rows : List ApiKey} (recorded : Recorded sha256 env actions rows)
    (change : ApiKey → ApiKey)
    (keeps : ∀ row : ApiKey, (change row).id = row.id ∧ (change row).userId = row.userId ∧
      (change row).revokedAt = row.revokedAt ∧ (change row).keyPrefix = row.keyPrefix ∧
      (change row).hash = row.hash)
    (silent : ∀ user id token, KeyStands (actions ++ [action]) user id token ↔
      KeyStands actions user id token) :
    Recorded sha256 env (actions ++ [action]) (rows.map change) := by
  constructor
  · rw [List.forall_mem_map]
    intro row member unrevoked
    obtain ⟨sameId, sameUser, sameRevoked, samePrefix, sameHash⟩ := keeps row
    obtain ⟨token, stands, holds⟩ := recorded.sound row member (sameRevoked.symm.trans unrevoked)
    refine ⟨token, ?_, samePrefix.trans holds.1, ?_⟩
    · rw [silent, sameId, sameUser]
      exact stands
    · rw [sameHash]
      exact holds.2
  · intro user id token stands
    obtain ⟨row, member, unrevoked, owner, named, holds⟩ :=
      recorded.complete user id token ((silent user id token).mp stands)
    obtain ⟨sameId, sameUser, sameRevoked, samePrefix, sameHash⟩ := keeps row
    refine ⟨change row, List.mem_map_of_mem member, sameRevoked.trans unrevoked,
      sameUser.trans owner, sameId.trans named, samePrefix.trans holds.1, ?_⟩
    rw [sameHash]
    exact holds.2

theorem Recorded.same {rows : List ApiKey} (recorded : Recorded sha256 env actions rows)
    (silent : ∀ user id token, KeyStands (actions ++ [action]) user id token ↔
      KeyStands actions user id token) : Recorded sha256 env (actions ++ [action]) rows := by
  have kept := recorded.silent (fun row => row) (fun _ => ⟨rfl, rfl, rfl, rfl, rfl⟩) silent
  rwa [List.map_id'] at kept

/-- The row that `create` writes. -/
theorem create_eq_ok {store later : Store} {userId id : Id} {name : Text} {isLive : Bool}
    {random : RandomKey} {now : ℕ} {created : CreatedKey}
    (made : create sha256 env store userId id name isLive random now = .ok (created, later)) :
    ∃ row : ApiKey, row.id = id ∧ row.userId = userId ∧ row.revokedAt = none ∧
      row.Holds sha256 env (keyToken isLive random) ∧
      (∀ other ∈ store.apiKeys.rows, other.id ≠ id) ∧
      later.apiKeys = store.apiKeys.upsert row := by
  unfold create at made
  dsimp only [bind, Except.bind] at made
  split at made
  next => cases made
  next hashed hash_eq =>
    split_ifs at made with known taken
    cases made
    refine ⟨_, rfl, rfl, rfl, ⟨rfl, hash_eq⟩, ?_, rfl⟩
    intro other member same
    exact taken (List.mem_map.mpr ⟨other, member, same⟩)

theorem Recorded.create {store later : Store} {userId id : Id} {name : Text} {isLive : Bool}
    {random : RandomKey} {now : ℕ} {created : CreatedKey}
    (recorded : Recorded sha256 env actions store.apiKeys.rows)
    (made : create sha256 env store userId id name isLive random now = .ok (created, later)) :
    Recorded sha256 env (actions ++ [.create userId id name isLive random now])
      later.apiKeys.rows := by
  obtain ⟨row, named, owned, unrevoked, holds, fresh, rows⟩ := create_eq_ok made
  constructor
  · intro other member live
    rw [rows, Table.mem_upsert_iff] at member
    rcases member with rfl | ⟨old, -⟩
    · refine ⟨_, keyStands_concat.mpr (.inl ⟨name, isLive, random, now, ?_, rfl⟩), holds⟩
      rw [named, owned]
    · obtain ⟨token, stands, found⟩ := recorded.sound other old live
      exact ⟨token, keyStands_concat.mpr (.inr ⟨stands, fun _ same => nomatch same⟩), found⟩
  · intro user otherId token stands
    simp only [rows, Table.mem_upsert_iff]
    rcases keyStands_concat.mp stands with ⟨_, _, _, _, same, rfl⟩ | ⟨stood, -⟩
    · cases same
      exact ⟨row, .inl rfl, unrevoked, owned, named, holds⟩
    · obtain ⟨other, old, live, owner, called, found⟩ := recorded.complete user otherId token stood
      refine ⟨other, .inr ⟨old, ?_⟩, live, owner, called, found⟩
      rw [named]
      exact fresh other old

theorem ApiKey.revokeAt_of_ne {row : ApiKey} {id : Text} {now : ℕ} (other : row.id.text ≠ id) :
    row.revokeAt now id = row :=
  if_neg other

/-- The row of a key that its owner revokes is marked; a key of another user is not found. -/
theorem Recorded.revoke {store later : Store} {userId : Id} {id : Text} {now : ℕ}
    (recorded : Recorded sha256 env actions store.apiKeys.rows)
    (revoked : revoke store userId id now = .ok later) :
    Recorded sha256 env (actions ++ [.revoke userId id now]) later.apiKeys.rows := by
  unfold Bearer.revoke at revoked
  dsimp only at revoked
  split at revoked
  next => cases revoked
  next row found =>
    cases revoked
    have owned := List.find?_some found
    rw [decide_eq_true_iff] at owned
    have member := List.mem_of_find?_eq_some found
    constructor
    · intro other changed live
      obtain ⟨old, oldMem, rfl⟩ : ∃ old ∈ store.apiKeys.rows, old.revokeAt now id = other :=
        List.mem_map.mp changed
      by_cases same : old.id.text = id
      · rw [ApiKey.revokeAt, if_pos same] at live
        cases live
      · rw [ApiKey.revokeAt_of_ne same] at live ⊢
        obtain ⟨token, stands, holds⟩ := recorded.sound old oldMem live
        refine ⟨token, keyStands_concat.mpr (.inr ⟨stands, ?_⟩), holds⟩
        rintro later revoking
        cases revoking
        exact same rfl
    · intro user otherId token stands
      rcases keyStands_concat.mp stands with ⟨_, _, _, _, same, -⟩ | ⟨stood, kept⟩
      · cases same
      · obtain ⟨other, old, live, owner, called, holds⟩ :=
          recorded.complete user otherId token stood
        have differs : other.id.text ≠ id := by
          intro same
          have ids : other.id = row.id := by
            rw [Id.ext_iff, same, owned.1]
          cases store.apiKeys.eq_of_key_eq old member ids
          exact kept now (by rw [← called, ← owner, same, owned.2.1])
        refine ⟨other, List.mem_map.mpr ⟨other, old, ApiKey.revokeAt_of_ne differs⟩, live, owner,
          called, holds⟩

/-- A call that finds no key of the user revokes none that stands. -/
theorem Recorded.revoke_of_error {store : Store} {userId : Id} {id : Text} {now : ℕ}
    {error : String} (recorded : Recorded sha256 env actions store.apiKeys.rows)
    (refused : Bearer.revoke store userId id now = .error error) :
    Recorded sha256 env (actions ++ [.revoke userId id now]) store.apiKeys.rows := by
  unfold Bearer.revoke at refused
  dsimp only at refused
  split at refused
  next missing =>
    refine recorded.same fun user otherId token => ?_
    rw [keyStands_concat]
    constructor
    · rintro (⟨_, _, _, _, same, -⟩ | ⟨stood, -⟩)
      · cases same
      · exact stood
    · intro stood
      refine .inr ⟨stood, ?_⟩
      rintro later revoking
      cases revoking
      obtain ⟨row, member, live, owner, called, -⟩ := recorded.complete _ _ _ stood
      have unlike := List.find?_eq_none.mp missing row member
      rw [decide_eq_true_iff] at unlike
      exact unlike ⟨congrArg Id.text called, owner, live⟩
  next => cases refused

/-- What a request changes of a store: at most the last use of one key. -/
def Used (store later : Store) : Prop :=
  later = store ∨ ∃ now id, later.apiKeys.rows = store.apiKeys.rows.map (ApiKey.useAt now id)

theorem used_of_resolve {order : RowOrder} {store later : Store} {now : ℕ} {found : Option Text}
    (resolved : resolve sha256 env order store now token = .ok (found, later)) :
    Used store later := by
  unfold resolve at resolved
  split at resolved
  next =>
    cases resolved
    exact .inl rfl
  next =>
    dsimp only [bind, Except.bind] at resolved
    split at resolved
    next => cases resolved
    next =>
      split at resolved
      next row _ =>
        cases resolved
        exact .inr ⟨now, row.id, rfl⟩
      next =>
        cases resolved
        exact .inl rfl

theorem used_of_accountAuthGuard {order : RowOrder} {store later : Store} {now : ℕ}
    {header : Option Text} {admission : Admission}
    (admitted : accountAuthGuard sha256 env jose order store header now = .ok (admission, later)) :
    Used store later := by
  unfold accountAuthGuard at admitted
  dsimp only [bind, Except.bind] at admitted
  split at admitted
  next => cases admitted
  next token _ =>
    split at admitted
    next =>
      split at admitted
      next => cases admitted
      next result resolved =>
        rcases result with ⟨found, used⟩
        dsimp only at admitted
        split at admitted
        next => cases admitted
        next =>
          split_ifs at admitted
          cases admitted
          exact used_of_resolve resolved
    next =>
      split at admitted
      next => cases admitted
      next =>
        split at admitted
        next => cases admitted
        next =>
          cases admitted
          exact .inl rfl

theorem apiKeys_link (state : State) (user : Id) :
    (state.link user).store.apiKeys = state.store.apiKeys := by
  unfold State.link
  split <;> rfl

theorem store_issue (state : State) (user : Id) (access refresh : Stamp) :
    (state.issue env jose user access refresh).store = state.store := by
  unfold State.issue
  split <;> rfl

theorem recorded_next (recorded : Recorded sha256 env actions state.store.apiKeys.rows)
    (step : next sha256 env jose state action = some target) :
    Recorded sha256 env (actions ++ [action]) target.store.apiKeys.rows := by
  cases action with
  | login user access refresh =>
      cases step
      rw [store_issue, apiKeys_link]
      exact recorded.same fun _ _ _ => keyStands_concat_of_silent rfl fun _ _ _ same => nomatch same
  | refresh presented now access refresh =>
      have same : target.store = state.store := by
        unfold next at step
        dsimp only at step
        split at step
        next =>
          cases step
          exact store_issue state _ access refresh
        next =>
          cases step
          rfl
      rw [same]
      exact recorded.same fun _ _ _ => keyStands_concat_of_silent rfl fun _ _ _ same => nomatch same
  | create userId id name isLive random now =>
      unfold next at step
      dsimp only at step
      split at step
      next created later made =>
        cases step
        exact recorded.create made
      next => cases step
  | revoke userId id now =>
      unfold next at step
      dsimp only at step
      split at step
      next later revoked =>
        cases step
        exact recorded.revoke revoked
      next error refused =>
        cases step
        exact recorded.revoke_of_error refused
  | present header now order =>
      have used : Used state.store target.store := by
        unfold next at step
        dsimp only at step
        split at step
        next admitted =>
          cases step
          exact used_of_accountAuthGuard admitted
        next =>
          cases step
          exact .inl rfl
      have silent (user id : Id) (token : Text) :
          KeyStands (actions ++ [.present header now order]) user id token ↔
            KeyStands actions user id token :=
        keyStands_concat_of_silent rfl fun _ _ _ same => nomatch same
      rcases used with same | ⟨later, id, rows⟩
      · rw [same]
        exact recorded.same silent
      · rw [rows]
        refine recorded.silent _ (fun row => ?_) silent
        unfold ApiKey.useAt
        split
        · exact ⟨rfl, rfl, rfl, rfl, rfl⟩
        · exact ⟨rfl, rfl, rfl, rfl, rfl⟩

theorem recorded_start : Recorded sha256 env [] State.start.store.apiKeys.rows where
  sound := fun _ member => nomatch member
  complete := fun _ _ _ stands => nomatch stands.mem_keys

/-- After every run the rows that are not revoked are the keys that stand. -/
theorem recorded_of_run (run : exec (next sha256 env jose) .start actions = some state) :
    Recorded sha256 env actions state.store.apiKeys.rows := by
  induction actions using List.reverseRecOn generalizing state with
  | nil =>
      cases run
      exact recorded_start
  | append_singleton actions action ih =>
      obtain ⟨middle, earlier, step⟩ := exec_concat_eq_some_iff.mp run
      exact recorded_next (ih earlier) step

end RiskRail.Auth.Bearer
