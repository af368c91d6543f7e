import RiskRail.Api.Requests
import RiskRail.Auth.Accounts

/-!
# What a handler has checked

Other steps come between the check of a handler and its write.  Keys, endpoints and rules keep
their owners, no key and no rule is deleted, and the id of a deleted endpoint is not drawn again:
so what a handler found out about a row is still true when it writes to it.  The user of a wallet
may change in between, when two first logins have both found it without one; the wallet only
keeps having a user.
-/

namespace RiskRail.Api

open RiskRail.Javascript RiskRail.Transition RiskRail.Relational RiskRail.Auth
open RiskRail.Auth.Bearer (Id ApiKey)
open RiskRail.Webhooks (Endpoint)

variable {services : Services} {source middle target : State} {action : Action}
  {actions : List Action} {user : Id} {call : Call} {draws : Draws}

/-! ## Wallets -/

theorem owner_upsert (wallets : Table Wallet.address) (address other : String)
    (userId : Option Id) :
    owner (wallets.upsert ⟨address, userId⟩) other =
      if other = address then userId else owner wallets other := by
  unfold owner Table.upsert
  rw [List.find?_cons]
  by_cases same : other = address
  · subst same
    simp
  · rw [if_neg same, decide_eq_false (Ne.symm same), List.find?_filter]
    dsimp only
    congr 2
    funext row
    by_cases named : row.address = other
    · subst named
      simp [same]
    · simp [named]

theorem owner_eq_none_of_unknown {wallets : Table Wallet.address} {address : String}
    (unknown : address ∉ wallets.rows.map Wallet.address) : owner wallets address = none := by
  unfold owner
  rw [Option.bind_eq_none_iff]
  intro row found
  have named := List.find?_some found
  rw [decide_eq_true_iff] at named
  exact absurd (List.mem_map.mpr ⟨row, List.mem_of_find?_eq_some found, named⟩) unknown

/-- A scan gives nobody a wallet and takes none. -/
theorem owner_scan {wallets : Table Wallet.address} {address : String}
    (unknown : address ∉ wallets.rows.map Wallet.address) (other : String) :
    owner (wallets.upsert ⟨address, none⟩) other = owner wallets other := by
  rw [owner_upsert]
  split_ifs with same
  · rw [same, owner_eq_none_of_unknown unknown]
  · rfl

/-! ## Later states -/

/-- What stays from one state to a later one. -/
structure Later (source target : State) : Prop where
  keys : ∀ row ∈ source.bearer.store.apiKeys.rows,
    ∃ later ∈ target.bearer.store.apiKeys.rows, later.id = row.id ∧ later.userId = row.userId
  rules : ∀ rule ∈ source.rules.rows,
    ∃ later ∈ target.rules.rows, later.id = rule.id ∧ later.address = rule.address
  drawn : source.drawn ⊆ target.drawn
  endpoints : ∀ row ∈ target.endpoints.rows, row.id ∈ source.drawn →
    ∃ old ∈ source.endpoints.rows, old.id = row.id ∧ old.userId = row.userId
  owned : ∀ address, (owner source.wallets address).isSome = true →
    (owner target.wallets address).isSome = true

theorem Later.refl (state : State) : Later state state where
  keys row member := ⟨row, member, rfl, rfl⟩
  rules rule member := ⟨rule, member, rfl, rfl⟩
  drawn := List.Subset.refl _
  endpoints row member _ := ⟨row, member, rfl, rfl⟩
  owned _ := id

theorem Later.trans (first : Later source middle) (second : Later middle target) :
    Later source target where
  keys row member := by
    obtain ⟨between, stored, id, owner⟩ := first.keys row member
    obtain ⟨later, found, laterId, laterOwner⟩ := second.keys between stored
    exact ⟨later, found, laterId.trans id, laterOwner.trans owner⟩
  rules rule member := by
    obtain ⟨between, stored, id, address⟩ := first.rules rule member
    obtain ⟨later, found, laterId, laterAddress⟩ := second.rules between stored
    exact ⟨later, found, laterId.trans id, laterAddress.trans address⟩
  drawn := List.Subset.trans first.drawn second.drawn
  endpoints row member known := by
    obtain ⟨between, stored, id, owner⟩ := second.endpoints row member (first.drawn known)
    obtain ⟨old, found, oldId, oldOwner⟩ := first.endpoints between stored (id.symm ▸ known)
    exact ⟨old, found, oldId.trans id, oldOwner.trans owner⟩
  owned address held := second.owned address (first.owned address held)

/-- The keys after a change that leaves their ids and users alone. -/
theorem keys_of_map {rows later : List ApiKey} {change : ApiKey → ApiKey}
    (changed : later = rows.map change)
    (keeps : ∀ row, (change row).id = row.id ∧ (change row).userId = row.userId) :
    ∀ row ∈ rows, ∃ other ∈ later, other.id = row.id ∧ other.userId = row.userId := by
  intro row member
  exact ⟨change row, changed ▸ List.mem_map_of_mem member, keeps row⟩

theorem keys_of_used {store later : Bearer.Store} (used : Bearer.Used store later) :
    ∀ row ∈ store.apiKeys.rows,
      ∃ other ∈ later.apiKeys.rows, other.id = row.id ∧ other.userId = row.userId := by
  rcases used with rfl | ⟨now, id, rows⟩
  · exact fun row member => ⟨row, member, rfl, rfl⟩
  · refine keys_of_map rows fun row => ?_
    unfold ApiKey.useAt
    split <;> exact ⟨rfl, rfl⟩

/-- A write keeps the owners of the rows, and adds rows under ids that are new. -/
theorem Effect.later (effect : Effect services source user draws call target)
    (undrawn : draws.cuid ∉ source.drawn) : Later source target := by
  cases effect with
  | updateProfile updated => exact { Later.refl source with }
  | createKey made =>
      obtain ⟨row, named, -, -, -, fresh, rows⟩ := Bearer.create_eq_ok made
      refine { Later.refl source with keys := fun old member => ⟨old, ?_, rfl, rfl⟩ }
      dsimp only
      rw [rows]
      exact Table.mem_upsert_iff.mpr (.inr ⟨member, named.symm ▸ fresh old member⟩)
  | revokeKey revoked =>
      cases revokeKey_eq_ok revoked
      refine { Later.refl source with keys := keys_of_map rfl fun row => ?_ }
      unfold ApiKey.revokeAt
      split <;> exact ⟨rfl, rfl⟩
  | createEndpoint made =>
      obtain ⟨-, row, -, row_id, -, -, rfl, -⟩ := Webhooks.create_eq_ok made
      refine { Later.refl source with
                drawn := List.subset_cons_self _ _
                endpoints := fun other member known => ?_ }
      rcases Table.mem_upsert_iff.mp member with rfl | ⟨old, -⟩
      · exact absurd (row_id ▸ known) undrawn
      · exact ⟨other, old, rfl, rfl⟩
  | setEnabled set =>
      cases setEnabled_eq_ok set
      refine { Later.refl source with endpoints := fun row member _ => ?_ }
      obtain ⟨old, stored, rfl⟩ := List.mem_map.mp member
      refine ⟨old, stored, (old.enable_id _ _).symm, ?_⟩
      unfold Endpoint.enable
      split <;> rfl
  | removeEndpoint removed =>
      cases removeEndpoint_eq_ok removed
      exact
        { Later.refl source with
          endpoints := fun row member _ => ⟨row, (Table.mem_delete_iff.mp member).1, rfl, rfl⟩ }
  | createAlert made =>
      obtain ⟨fresh, rfl⟩ := insertRule_eq_ok made
      refine { Later.refl source with rules := fun rule member => ⟨rule, ?_, rfl, rfl⟩ }
      refine Table.mem_upsert_iff.mpr (.inr ⟨member, fun same => fresh ?_⟩)
      exact List.mem_map.mpr ⟨rule, member, same⟩
  | updateStatus updated =>
      cases updateStatus_eq_ok updated
      refine { Later.refl source with rules := fun rule member =>
                ⟨_, List.mem_map_of_mem member, rule.setStatus_id _ _, ?_⟩ }
      unfold AlertRule.setStatus
      split <;> rfl

/-- Every step leads to a later state. -/
theorem later_next (step : next services source action = some target) : Later source target := by
  cases turn_of_next step with
  | kept _ _ => exact .refl source
  | scanned unknown =>
      exact { Later.refl source with
                owned := fun other held => by rwa [owner_scan unknown] }
  | found _ => exact { Later.refl source with }
  | created _ _ =>
      refine { Later.refl source with keys := fun row member => ⟨row, ?_, rfl, rfl⟩ }
      dsimp only
      rwa [Bearer.apiKeys_link]
  | linked _ =>
      refine { Later.refl source with owned := fun other held => ?_ }
      dsimp only
      rw [owner_upsert]
      split_ifs
      · rfl
      · exact held
  | issued _ =>
      refine { Later.refl source with keys := fun row member => ⟨row, ?_, rfl, rfl⟩ }
      dsimp only
      rwa [Bearer.store_issue, Bearer.apiKeys_link]
  | refreshed _ =>
      refine { Later.refl source with keys := fun row member => ⟨row, ?_, rfl, rfl⟩ }
      dsimp only
      rwa [Bearer.store_issue]
  | session _ _ | checked _ _ | rejected | refused _ => exact { Later.refl source with }
  | account _ passed =>
      exact { Later.refl source with keys := keys_of_used (Bearer.used_of_accountAuthGuard passed) }
  | handled _ _ undrawn done =>
      have later := (effect_of_write done).later undrawn
      exact ⟨later.keys, later.rules, later.drawn, later.endpoints, later.owned⟩

/-- Each endpoint has an id that was drawn. -/
def Drawn (state : State) : Prop :=
  ∀ row ∈ state.endpoints.rows, row.id ∈ state.drawn

theorem drawn_of_exec (run : exec (next services) .start actions = some target) : Drawn target := by
  refine exec_invariant (fun {source target action} drawn step => ?_) run ?_
  · cases turn_of_next step with
    | handled _ _ _ done =>
        cases effect_of_write done with
        | createEndpoint made =>
            obtain ⟨-, row, -, row_id, -, -, rfl, -⟩ := Webhooks.create_eq_ok made
            intro other member
            rcases Table.mem_upsert_iff.mp member with rfl | ⟨old, -⟩
            · exact row_id ▸ List.mem_cons_self
            · exact List.mem_cons_of_mem _ (drawn other old)
        | setEnabled set =>
            cases setEnabled_eq_ok set
            intro row member
            obtain ⟨old, stored, rfl⟩ := List.mem_map.mp member
            rw [Endpoint.enable_id]
            exact drawn old stored
        | removeEndpoint removed =>
            cases removeEndpoint_eq_ok removed
            exact fun row member => drawn row (Table.mem_delete_iff.mp member).1
        | updateProfile _ | createKey _ | revokeKey _ | createAlert _ | updateStatus _ =>
            exact drawn
    | kept _ _ | scanned _ | found _ | created _ _ | linked _ | issued _ | refreshed _
    | session _ _ | account _ _ | checked _ _ | rejected | refused _ => exact drawn
  · intro row member
    cases member

/-! ## Checks in a run -/

/-- The handler of the request has passed its check in an earlier state of the run, and it has
not written yet. -/
def CheckedFor (services : Services) (actions : List Action) (request : ℕ) (call : Call)
    (user : Id) (earlier : State) : Prop :=
  ∃ before after, actions = before ++ .check request :: after ∧
    (∀ draws, .run request draws ∉ after) ∧
      exec (next services) .start before = some earlier ∧
        check services earlier user call = .ok ()

theorem CheckedFor.concat {request : ℕ} {earlier : State}
    (checked : CheckedFor services actions request call user earlier)
    (other : ∀ draws, action ≠ .run request draws) :
    CheckedFor services (actions ++ [action]) request call user earlier := by
  obtain ⟨before, after, rfl, waiting, run, passed⟩ := checked
  refine ⟨before, after ++ [action], by simp, fun draws member => ?_, run, passed⟩
  rcases List.mem_append.mp member with old | last
  · exact waiting draws old
  · exact other draws (List.mem_singleton.mp last).symm

theorem Effect.requests (effect : Effect services source user draws call target) :
    target.requests = source.requests := by
  cases effect <;> rfl

theorem setRequest_eq_some {request other : ℕ} {admitted : Option Admitted} {pending : Admitted}
    (set : (source.setRequest request admitted).requests other = some pending) :
    other = request ∧ admitted = some pending ∨
      other ≠ request ∧ source.requests other = some pending :=
  (update_iff (· = some pending)).mp set

/-- A request whose check has passed had it passed before, or passes it now. -/
theorem checked_next (step : next services source action = some target) {request : ℕ}
    (pending : target.requests request = some ⟨call, user.text, true⟩) :
    source.requests request = some ⟨call, user.text, true⟩ ∧
        (∀ draws, action ≠ .run request draws) ∨
      action = .check request ∧ check services source user call = .ok () := by
  cases turn_of_next step with
  | scanned _ | found _ | created _ _ | linked _ | issued _ | refreshed _ =>
      exact .inl ⟨pending, nofun⟩
  | kept idle _ => exact .inl ⟨pending, idle request⟩
  | session _ _ | account _ _ =>
      rcases setRequest_eq_some pending with ⟨-, same⟩ | ⟨-, stored⟩
      · simp at same
      · exact .inl ⟨stored, nofun⟩
  | @checked _ checkedUser _ _ passed =>
      rcases setRequest_eq_some pending with ⟨rfl, same⟩ | ⟨-, stored⟩
      · injection same with same
        injection same with sameCall named
        cases sameCall
        have sameUser : checkedUser = user := Bearer.Id.ext named
        exact .inr ⟨rfl, sameUser ▸ passed⟩
      · exact .inl ⟨stored, nofun⟩
  | rejected =>
      rcases setRequest_eq_some pending with ⟨-, same⟩ | ⟨-, stored⟩
      · cases same
      · exact .inl ⟨stored, nofun⟩
  | refused _ =>
      rcases setRequest_eq_some pending with ⟨-, same⟩ | ⟨other, stored⟩
      · cases same
      · exact .inl ⟨stored, fun _ same => by cases same; exact other rfl⟩
  | handled _ _ _ done =>
      rw [(effect_of_write done).requests] at pending
      rcases setRequest_eq_some pending with ⟨-, same⟩ | ⟨other, stored⟩
      · cases same
      · exact .inl ⟨stored, fun _ same => by cases same; exact other rfl⟩

/-- Whatever is about to be written was checked before. -/
theorem checkedFor_of_pending (run : exec (next services) .start actions = some source)
    {request : ℕ} (pending : source.requests request = some ⟨call, user.text, true⟩) :
    ∃ earlier, CheckedFor services actions request call user earlier ∧ Later earlier source ∧
      Drawn earlier := by
  induction actions using List.reverseRecOn generalizing source with
  | nil =>
      cases run
      cases pending
  | append_singleton actions action ih =>
      obtain ⟨middle, before, step⟩ := exec_concat_eq_some_iff.mp run
      rcases checked_next step pending with ⟨held, other⟩ | ⟨rfl, passed⟩
      · obtain ⟨earlier, checked, later, drawn⟩ := ih before held
        exact ⟨earlier, checked.concat other, later.trans (later_next step), drawn⟩
      · exact ⟨middle, ⟨actions, [], rfl, fun _ => List.not_mem_nil, before, passed⟩,
          later_next step, drawn_of_exec before⟩

/-! ## What is still true -/

theorem eq_of_cuidText {first second : Webhooks.Cuid} (same : first.text = second.text) :
    first = second := by
  cases first
  cases second
  cases same
  rfl

/-- The row of the call, where it has one of the user's own. -/
def Owns (state : State) (user : Id) : Call → Prop
  | .revokeKey id => ∀ row ∈ state.bearer.store.apiKeys.rows, row.id.text = id → row.userId = user
  | .setEnabled id _ | .removeEndpoint id =>
      ∀ row ∈ state.endpoints.rows, row.id.text = id → row.userId = user
  | .updateProfile _ | .createKey _ _ | .createEndpoint _ _ | .createAlert _ _
  | .updateStatus _ _ => True

/-- An endpoint that was the user's is the user's, as long as there is one with its id. -/
theorem Later.endpoint_owned {earlier : State} (later : Later earlier source)
    (drawn : Drawn earlier) {id : String}
    (passed : checkEndpoint earlier.endpoints user id = .ok ()) :
    ∀ row ∈ source.endpoints.rows, row.id.text = id → row.userId = user := by
  obtain ⟨existing, member, named, owned⟩ := checkEndpoint_eq_ok passed
  intro row stored same
  have ids : row.id = existing.id := eq_of_cuidText (same.trans named.symm)
  obtain ⟨old, found, oldId, oldOwner⟩ :=
    later.endpoints row stored (ids ▸ drawn existing member)
  have rows := earlier.endpoints.eq_of_key_eq found member (oldId.trans ids)
  rw [← oldOwner, rows, owned]

/-- The row is still the user's when the handler writes. -/
theorem owns_of_check {earlier : State} (later : Later earlier source) (drawn : Drawn earlier)
    (passed : check services earlier user call = .ok ()) : Owns source user call := by
  cases call with
  | revokeKey id =>
      obtain ⟨existing, member, named, owned⟩ := checkKey_eq_ok passed
      obtain ⟨kept, stored, keptId, keptOwner⟩ := later.keys existing member
      intro row found same
      have ids : row.id = kept.id := by rw [keptId, Bearer.Id.ext_iff, same, named]
      rw [source.bearer.store.apiKeys.eq_of_key_eq found stored ids, keptOwner, owned]
  | setEnabled id enabled => exact later.endpoint_owned drawn passed
  | removeEndpoint id => exact later.endpoint_owned drawn passed
  | updateProfile _ | createKey _ _ | createEndpoint _ _ | createAlert _ _ | updateStatus _ _ =>
      trivial

end RiskRail.Api
