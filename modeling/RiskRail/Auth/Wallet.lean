import RiskRail.Transition.Core
import Mathlib.Logic.Function.Basic

/-!
# The account of a wallet

A login whose signature verified ends in `linkWalletToUser`: it reads the wallet row,
creates a user if the row has none, and writes the user into the row.  Every statement
is one step, and any number of logins and of public scans run at the same time.  A
wallet keeps its account exactly as long as no login writes to a row that has a user.
-/

namespace RiskRail.Auth.Account

open RiskRail.Transition

/-! ## The rows -/

/-- A cuid, by its place among the ids that can be drawn. -/
abbrev UserId := ℕ

/-- A row of `Wallet`, besides its address. -/
structure Wallet where
  userId : Option UserId
  lastIndexedAt : Option ℕ
deriving DecidableEq

/-- The claims of a signed token. -/
structure Token where
  sub : UserId
  typ : Option String
deriving DecidableEq

/-- A pair of tokens. -/
structure AuthTokens where
  accessToken : Token
  refreshToken : Token
  expiresIn : ℕ
deriving DecidableEq

/-- The tokens of a user; only the refresh token has a type. -/
def issue (userId : UserId) : AuthTokens where
  accessToken := ⟨userId, none⟩
  refreshToken := ⟨userId, some "refresh"⟩
  expiresIn := 15 * 60

/-- What `verify` returns. -/
structure Login where
  userId : UserId
  address : String
  tokens : AuthTokens
deriving DecidableEq

/-- How far a `verify` request is after it deleted its challenge. -/
inductive Phase where
  | idle
  /-- The wallet has no user. -/
  | creating (address : String)
  | upserting (address : String) (userId : UserId)
  | linked (address : String) (userId : UserId)
  | loggedIn (login : Login)
  | failed
deriving DecidableEq

/-- The wallet table, the users and the logins under way. -/
structure State where
  /-- The rows of `Wallet`, by their unique address. -/
  wallets : String → Option Wallet
  users : List UserId
  requests : ℕ → Phase

namespace State

/-- No wallet and no user. -/
def initial : State where
  wallets := fun _ => none
  users := []
  requests := fun _ => .idle

/-- `existing?.userId`. -/
def owner (state : State) (address : String) : Option UserId :=
  (state.wallets address).bind Wallet.userId

/-- `prisma.wallet.upsert`. -/
def upsertWallet (state : State) (address : String) (update : Wallet → Wallet)
    (create : Wallet) : State :=
  { state with
    wallets := Function.update state.wallets address
      (some ((state.wallets address).elim create update)) }

/-- A login gets somewhere; the tables stay. -/
def advance (state : State) (request : ℕ) (phase : Phase) : State :=
  { state with requests := Function.update state.requests request phase }

end State

/-! ## The steps -/

/-- The steps of the logins. -/
inductive Action where
  /-- `prisma.wallet.findUnique`. -/
  | findUnique (request : ℕ) (address : String)
  /-- `prisma.user.create`; the database draws the id. -/
  | createUser (request : ℕ) (userId : UserId)
  /-- `prisma.wallet.upsert`. -/
  | upsert (request : ℕ)
  /-- The tokens are signed and returned. -/
  | issue (request : ℕ)
  /-- The request throws or its instance dies. -/
  | fail (request : ℕ)
  /-- `persistPortfolio` of a public scan. -/
  | scan (address : String) (observedAt : ℕ)
  /-- `recordIndexingFailure` of a public scan. -/
  | recordFailure (address : String)

/-- One step of a login. -/
def next : Step State Action
  | state, .findUnique request address =>
      match state.requests request with
      | .idle =>
          match state.owner address with
          | some userId => some (state.advance request (.linked address userId))
          | none => some (state.advance request (.creating address))
      | _ => none
  | state, .createUser request userId =>
      match state.requests request with
      | .creating address =>
          if userId ∈ state.users then none
          else
            some { state.advance request (.upserting address userId) with
              users := userId :: state.users }
      | _ => none
  | state, .upsert request =>
      match state.requests request with
      | .upserting address userId =>
          some ((state.upsertWallet address (fun wallet => { wallet with userId := some userId })
            ⟨some userId, none⟩).advance request (.linked address userId))
      | _ => none
  | state, .issue request =>
      match state.requests request with
      | .linked address userId =>
          some (state.advance request (.loggedIn ⟨userId, address, Account.issue userId⟩))
      | _ => none
  | state, .fail request =>
      match state.requests request with
      | .creating _ | .upserting _ _ | .linked _ _ => some (state.advance request .failed)
      | _ => none
  | state, .scan address observedAt =>
      some (state.upsertWallet address
        (fun wallet => { wallet with lastIndexedAt := some observedAt }) ⟨none, some observedAt⟩)
  | state, .recordFailure address =>
      some (state.upsertWallet address (fun wallet => wallet) ⟨none, none⟩)

/-! ## The law, and when it holds -/

/-- A wallet's account never changes along the run, and every login to the wallet is a
login to that account. -/
structure AccountFixed (actions : List Action) : Prop where
  owner_fixed : ∀ before during after, actions = before ++ during ++ after →
    ∀ earlier later, exec next .initial before = some earlier →
      exec next earlier during = some later →
        ∀ address userId, earlier.owner address = some userId →
          later.owner address = some userId
  one_account : ∀ state, exec next .initial actions = some state →
    ∀ request login, state.requests request = .loggedIn login →
      state.owner login.address = some login.userId ∧
        login.tokens.accessToken.sub = login.userId ∧
          login.tokens.refreshToken.sub = login.userId

/-- No login writes its user into a row that has one. -/
def LinksUnowned (state : State) : Action → Prop
  | .upsert request =>
      ∀ address userId, state.requests request = .upserting address userId →
        state.owner address = none
  | _ => True

instance (state : State) : (action : Action) → Decidable (LinksUnowned state action)
  | .upsert request =>
      match held : state.requests request with
      | .upserting address _ =>
          decidable_of_iff (state.owner address = none)
            ⟨fun unowned _ _ same => by cases held.symm.trans same; exact unowned,
              fun links => links address _ held⟩
      | .idle | .creating _ | .linked _ _ | .loggedIn _ | .failed =>
          isTrue fun _ _ same => by cases held.symm.trans same
  | .findUnique _ _ | .createUser _ _ | .issue _ | .fail _ | .scan _ _ | .recordFailure _ =>
      isTrue trivial

/-- A step leaves every account as it is. -/
def KeepsOwners (state : State) (action : Action) : Prop :=
  ∀ target, next state action = some target →
    ∀ address userId, state.owner address = some userId → target.owner address = some userId

/-! ## What a step does -/

namespace State

variable {state : State} {address other : String} {request : ℕ}

@[simp]
theorem advance_owner (phase : Phase) :
    (state.advance request phase).owner address = state.owner address :=
  rfl

/-- What holds of a request after a step of one holds of the step's phase or held before. -/
theorem advance_iff (holds : Phase → Prop) {phase : Phase} {asked : ℕ} :
    holds ((state.advance request phase).requests asked) ↔
      asked = request ∧ holds phase ∨ asked ≠ request ∧ holds (state.requests asked) :=
  update_iff holds

theorem owner_upsertWallet (update : Wallet → Wallet) (create : Wallet) :
    (state.upsertWallet address update create).owner other =
      if other = address then ((state.wallets address).elim create update).userId
      else state.owner other := by
  simp only [owner, upsertWallet, Function.update_apply]
  split <;> rfl

/-- A write that leaves the user of a row alone and creates rows without one. -/
theorem owner_upsertWallet_of_kept {update : Wallet → Wallet} {create : Wallet}
    (kept : ∀ wallet, (update wallet).userId = wallet.userId) (unowned : create.userId = none) :
    (state.upsertWallet address update create).owner other = state.owner other := by
  rw [owner_upsertWallet]
  split
  next same =>
    subst same
    unfold owner
    cases state.wallets other with
    | none => exact unowned
    | some wallet => exact kept wallet
  next => rfl

/-- A login's write. -/
theorem owner_link (userId : UserId) :
    (state.upsertWallet address (fun wallet => { wallet with userId := some userId })
      ⟨some userId, none⟩).owner other =
        if other = address then some userId else state.owner other := by
  rw [owner_upsertWallet]
  cases state.wallets address <;> rfl

end State

variable {source target : State} {action : Action} {actions : List Action}

/-- What an action does where it is enabled. -/
inductive Turn (source : State) : Action → State → Prop where
  | found {request : ℕ} {address : String} {userId : UserId}
      (owned : source.owner address = some userId) :
      Turn source (.findUnique request address) (source.advance request (.linked address userId))
  | missing {request : ℕ} {address : String} (unowned : source.owner address = none) :
      Turn source (.findUnique request address) (source.advance request (.creating address))
  | created {request : ℕ} {address : String} {userId : UserId}
      (creating : source.requests request = .creating address) (fresh : userId ∉ source.users) :
      Turn source (.createUser request userId)
        { source.advance request (.upserting address userId) with
          users := userId :: source.users }
  | upserted {request : ℕ} {address : String} {userId : UserId}
      (upserting : source.requests request = .upserting address userId) :
      Turn source (.upsert request)
        ((source.upsertWallet address (fun wallet => { wallet with userId := some userId })
          ⟨some userId, none⟩).advance request (.linked address userId))
  | issued {request : ℕ} {address : String} {userId : UserId}
      (linked : source.requests request = .linked address userId) :
      Turn source (.issue request)
        (source.advance request (.loggedIn ⟨userId, address, Account.issue userId⟩))
  | failed {request : ℕ} : Turn source (.fail request) (source.advance request .failed)
  | written {action : Action} {address : String} {update : Wallet → Wallet} {create : Wallet}
      (notUpsert : ∀ request, action ≠ .upsert request)
      (kept : ∀ wallet, (update wallet).userId = wallet.userId) (unowned : create.userId = none) :
      Turn source action (source.upsertWallet address update create)

theorem turn_of_next (step : next source action = some target) : Turn source action target := by
  cases action with
  | findUnique request address =>
      simp only [next] at step
      split at step
      · split at step
        next userId owned =>
          cases step
          exact .found owned
        next unowned =>
          cases step
          exact .missing unowned
      · cases step
  | createUser request userId =>
      simp only [next] at step
      split at step
      next address creating =>
        split at step
        next => cases step
        next fresh =>
          cases step
          exact .created creating fresh
      next => cases step
  | upsert request =>
      simp only [next] at step
      split at step
      next address userId upserting =>
        cases step
        exact .upserted upserting
      next => cases step
  | issue request =>
      simp only [next] at step
      split at step
      next address userId linked =>
        cases step
        exact .issued linked
      next => cases step
  | fail request =>
      simp only [next] at step
      split at step <;> cases step <;> exact .failed
  | scan address observedAt =>
      cases step
      exact .written (by simp) (fun _ => rfl) rfl
  | recordFailure address =>
      cases step
      exact .written (by simp) (fun _ => rfl) rfl

/-- Only a login's write changes the account of a wallet. -/
theorem owner_next (step : next source action = some target) :
    (∃ request address userId, action = .upsert request ∧
      source.requests request = .upserting address userId ∧
        ∀ other, target.owner other = if other = address then some userId
          else source.owner other) ∨
      (∀ request, action ≠ .upsert request) ∧ ∀ other, target.owner other = source.owner other := by
  cases turn_of_next step with
  | upserted upserting =>
      exact .inl ⟨_, _, _, rfl, upserting, fun other => State.owner_link _⟩
  | written notUpsert kept unowned =>
      exact .inr ⟨notUpsert, fun other => State.owner_upsertWallet_of_kept kept unowned⟩
  | found | missing | created | issued | failed => exact .inr ⟨by simp, fun other => rfl⟩

/-! ## The invariant -/

/-- The request is a login to the wallet as this user. -/
def Phase.Claims (address : String) (userId : UserId) : Phase → Prop
  | .linked linkedAddress linkedId => linkedAddress = address ∧ linkedId = userId
  | .loggedIn login => login = ⟨userId, address, Account.issue userId⟩
  | _ => False

/-- A user id is drawn once, belongs to no wallet while its login has yet to write it, and
a login is to its wallet's account. -/
structure Sound (state : State) : Prop where
  owner_drawn : ∀ address userId, state.owner address = some userId → userId ∈ state.users
  held_drawn : ∀ request address userId, state.requests request = .upserting address userId →
    userId ∈ state.users
  held_unowned : ∀ request address userId, state.requests request = .upserting address userId →
    ∀ other, state.owner other ≠ some userId
  held_once : ∀ first second address other userId,
    state.requests first = .upserting address userId →
      state.requests second = .upserting other userId → first = second
  claimed : ∀ request address userId, (state.requests request).Claims address userId →
    state.owner address = some userId
  signed : ∀ request login, state.requests request = .loggedIn login →
    login.tokens = Account.issue login.userId

theorem sound_initial : Sound .initial := by
  constructor <;> simp [State.initial, State.owner, Phase.Claims]

/-- A request that holds no id moves on. -/
theorem Sound.advance (sound : Sound source) (request : ℕ) {phase : Phase}
    (unheld : ∀ address userId, phase ≠ .upserting address userId)
    (claimed : ∀ address userId, phase.Claims address userId →
      source.owner address = some userId)
    (signed : ∀ login, phase = .loggedIn login → login.tokens = Account.issue login.userId) :
    Sound (source.advance request phase) := by
  have before : ∀ asked address userId,
      (source.advance request phase).requests asked = .upserting address userId →
        source.requests asked = .upserting address userId := by
    intro asked address userId held
    rcases (State.advance_iff (· = .upserting address userId)).mp held with ⟨-, moved⟩ | ⟨-, old⟩
    · exact absurd moved (unheld address userId)
    · exact old
  constructor
  · exact sound.owner_drawn
  · exact fun asked address userId held => sound.held_drawn asked _ _ (before _ _ _ held)
  · exact fun asked address userId held => sound.held_unowned asked _ _ (before _ _ _ held)
  · exact fun first second address other userId heldFirst heldSecond =>
      sound.held_once first second _ _ _ (before _ _ _ heldFirst) (before _ _ _ heldSecond)
  · intro asked address userId claims
    rcases (State.advance_iff (·.Claims address userId)).mp claims with ⟨-, moved⟩ | ⟨-, old⟩
    · exact claimed address userId moved
    · exact sound.claimed asked address userId old
  · intro asked login phase_eq
    rcases (State.advance_iff (· = .loggedIn login)).mp phase_eq with ⟨-, moved⟩ | ⟨-, old⟩
    · exact signed login moved
    · exact sound.signed asked login old

/-- A login draws an id. -/
theorem Sound.create (sound : Sound source) (request : ℕ) (address : String) {userId : UserId}
    (fresh : userId ∉ source.users) :
    Sound { source.advance request (.upserting address userId) with
      users := userId :: source.users } := by
  have before : ∀ asked other id,
      (source.advance request (.upserting address userId)).requests asked =
          .upserting other id →
        asked = request ∧ id = userId ∨
          asked ≠ request ∧ source.requests asked = .upserting other id := by
    intro asked other id held
    rcases (State.advance_iff (· = .upserting other id)).mp held with ⟨same, moved⟩ | old
    · cases moved
      exact .inl ⟨same, rfl⟩
    · exact .inr old
  have undrawn : ∀ asked other, source.requests asked ≠ .upserting other userId :=
    fun asked other held => fresh (sound.held_drawn asked other userId held)
  constructor
  · exact fun other id owned => List.mem_cons_of_mem _ (sound.owner_drawn other id owned)
  · intro asked other id held
    rcases before asked other id held with ⟨-, rfl⟩ | ⟨-, held⟩
    · exact List.mem_cons_self
    · exact List.mem_cons_of_mem _ (sound.held_drawn asked other id held)
  · intro asked other id held wallet owned
    rcases before asked other id held with ⟨-, rfl⟩ | ⟨-, held⟩
    · exact fresh (sound.owner_drawn wallet id owned)
    · exact sound.held_unowned asked other id held wallet owned
  · intro first second firstAddress secondAddress id heldFirst heldSecond
    rcases before _ _ _ heldFirst with ⟨rfl, rfl⟩ | ⟨-, oldFirst⟩ <;>
      rcases before _ _ _ heldSecond with ⟨rfl, same⟩ | ⟨-, oldSecond⟩
    · rfl
    · exact absurd oldSecond (undrawn second secondAddress)
    · subst same
      exact absurd oldFirst (undrawn first firstAddress)
    · exact sound.held_once first second _ _ _ oldFirst oldSecond
  · intro asked other id claims
    rcases (State.advance_iff (·.Claims other id)).mp claims with ⟨-, moved⟩ | ⟨-, old⟩
    · exact moved.elim
    · exact sound.claimed asked other id old
  · intro asked login phase
    rcases (State.advance_iff (· = .loggedIn login)).mp phase with ⟨-, moved⟩ | ⟨-, old⟩
    · cases moved
    · exact sound.signed asked login old

/-- A login writes its user into a row that has none. -/
theorem Sound.write (sound : Sound source) {request : ℕ} {address : String} {userId : UserId}
    (held : source.requests request = .upserting address userId)
    (unowned : source.owner address = none) :
    Sound ((source.upsertWallet address (fun wallet => { wallet with userId := some userId })
      ⟨some userId, none⟩).advance request (.linked address userId)) := by
  have kept : ∀ other id, source.owner other = some id →
      (source.upsertWallet address (fun wallet => { wallet with userId := some userId })
        ⟨some userId, none⟩).owner other = some id := by
    intro other id owned
    rw [State.owner_link, if_neg, owned]
    rintro rfl
    rw [unowned] at owned
    cases owned
  have before : ∀ other id,
      (source.upsertWallet address (fun wallet => { wallet with userId := some userId })
        ⟨some userId, none⟩).owner other = some id →
          id = userId ∨ source.owner other = some id := by
    intro other id owned
    rw [State.owner_link] at owned
    split at owned
    · cases owned
      exact .inl rfl
    · exact .inr owned
  have others : ∀ asked other id,
      ((source.upsertWallet address (fun wallet => { wallet with userId := some userId })
        ⟨some userId, none⟩).advance request (.linked address userId)).requests asked =
          .upserting other id → asked ≠ request ∧ source.requests asked = .upserting other id := by
    intro asked other id phase
    rcases (State.advance_iff (· = .upserting other id)).mp phase with ⟨-, moved⟩ | old
    · cases moved
    · exact old
  constructor
  · intro other id owned
    rcases before other id owned with rfl | owned
    · exact sound.held_drawn request address id held
    · exact sound.owner_drawn other id owned
  · exact fun asked other id phase => sound.held_drawn asked other id (others _ _ _ phase).2
  · intro asked other id phase wallet owned
    rcases others _ _ _ phase with ⟨apart, old⟩
    rcases before wallet id owned with rfl | owned
    · exact apart (sound.held_once asked request _ _ _ old held)
    · exact sound.held_unowned asked other id old wallet owned
  · exact fun first second _ _ _ heldFirst heldSecond =>
      sound.held_once first second _ _ _ (others _ _ _ heldFirst).2 (others _ _ _ heldSecond).2
  · intro asked other id claims
    rcases (State.advance_iff (·.Claims other id)).mp claims with ⟨-, rfl, rfl⟩ | ⟨-, old⟩
    · rw [State.advance_owner, State.owner_link, if_pos rfl]
    · exact kept other id (sound.claimed asked other id old)
  · intro asked login phase
    rcases (State.advance_iff (· = .loggedIn login)).mp phase with ⟨-, moved⟩ | ⟨-, old⟩
    · cases moved
    · exact sound.signed asked login old

/-- Only the accounts matter of the wallets. -/
theorem Sound.scan (sound : Sound source) (address : String) {update : Wallet → Wallet}
    {create : Wallet} (kept : ∀ wallet, (update wallet).userId = wallet.userId)
    (unowned : create.userId = none) : Sound (source.upsertWallet address update create) := by
  have same : ∀ other, (source.upsertWallet address update create).owner other =
      source.owner other := fun other => State.owner_upsertWallet_of_kept kept unowned
  constructor
  · exact fun other id owned => sound.owner_drawn other id ((same other).symm.trans owned)
  · exact sound.held_drawn
  · exact fun request other id held wallet owned =>
      sound.held_unowned request other id held wallet ((same wallet).symm.trans owned)
  · exact sound.held_once
  · exact fun request other id claims => (same other).trans (sound.claimed request other id claims)
  · exact sound.signed

theorem sound_next (sound : Sound source) (links : LinksUnowned source action)
    (step : next source action = some target) : Sound target := by
  cases turn_of_next step with
  | found owned =>
      refine sound.advance _ (by simp) ?_ (by simp)
      rintro _ _ ⟨rfl, rfl⟩
      exact owned
  | missing | failed =>
      exact sound.advance _ (by simp) (fun _ _ claims => claims.elim) (by simp)
  | created creating fresh => exact sound.create _ _ fresh
  | upserted upserting => exact sound.write upserting (links _ _ upserting)
  | issued linked =>
      refine sound.advance _ (by simp) ?_ (by simp)
      rintro _ _ claims
      cases claims
      exact sound.claimed _ _ _ (by rw [linked]; exact ⟨rfl, rfl⟩)
  | written notUpsert kept unowned => exact sound.scan _ kept unowned

/-! ## Runs -/

/-- Under the invariant a write to a row that has a user is a change of account. -/
theorem Sound.keepsOwners_iff (sound : Sound source) (enabled : next source action ≠ none) :
    KeepsOwners source action ↔ LinksUnowned source action := by
  rcases Option.ne_none_iff_exists'.mp enabled with ⟨target, step⟩
  have only : ∀ other, next source action = some other → other = target := by
    intro other stepped
    exact Option.some.inj (stepped.symm.trans step)
  rcases owner_next step with ⟨request, address, userId, rfl, held, owners⟩ | ⟨other, owners⟩
  · constructor
    · intro keeps address' userId' held'
      cases held.symm.trans held'
      by_contra owned
      rcases Option.ne_none_iff_exists'.mp owned with ⟨old, owned⟩
      have kept := keeps target step address old owned
      rw [owners, if_pos rfl] at kept
      cases kept
      exact sound.held_unowned request address userId held address owned
    · intro links target' step' wallet old owned
      cases only target' step'
      rw [owners, if_neg, owned]
      rintro rfl
      rw [links wallet userId held] at owned
      cases owned
  · constructor
    · intro _
      cases action with
      | upsert request => exact absurd rfl (other request)
      | _ => trivial
    · intro _ target' step' wallet old owned
      cases only target' step'
      rw [owners, owned]

theorem keepsOwners_iff_linksUnowned (actions : List Action) :
    Along next KeepsOwners .initial actions ↔ Along next LinksUnowned .initial actions := by
  apply along_iff_of_invariant Sound Sound.keepsOwners_iff _ sound_next actions sound_initial
  intro state action disabled
  constructor
  · intro _
    cases action with
    | upsert request =>
        intro address userId held
        simp [next, held] at disabled
    | _ => trivial
  · intro _ target step
    rw [disabled] at step
    cases step

/-- A wallet keeps its account, and its logins are to that account, exactly if no login
writes its user into a row that already has one. -/
theorem account_fixed_iff_links_unowned (actions : List Action) :
    AccountFixed actions ↔ Along next LinksUnowned .initial actions := by
  constructor
  · intro fixed
    rw [← keepsOwners_iff_linksUnowned]
    apply along_iff_forall_prefix.mpr
    intro before action after split middle reached target step
    apply fixed.owner_fixed before [action] after (by simpa using split) middle target reached
    exact exec_cons_eq_some_iff.mpr ⟨target, step, rfl⟩
  · intro links
    constructor
    · intro before during after split earlier later reached ran address userId owned
      have keeps := (keepsOwners_iff_linksUnowned actions).mpr links
      rw [split] at keeps
      have preserved : ∀ {source target action}, source.owner address = some userId →
          KeepsOwners source action → next source action = some target →
            target.owner address = some userId :=
        fun owned keeps step => keeps _ step address userId owned
      exact @Along.invariant _ _ next KeepsOwners (fun state => state.owner address = some userId)
        preserved _ _ _ (keeps.within reached) ran owned
    · intro last reached request login loggedIn
      have sound := links.invariant sound_next reached sound_initial
      have tokens := sound.signed request login loggedIn
      refine ⟨sound.claimed request _ _ ?_, ?_⟩
      · rw [loggedIn, Phase.Claims, ← tokens]
      · rw [tokens]
        exact ⟨rfl, rfl⟩

/-! ## Two first logins, and two that take turns -/

/-- Both logins read the row before either writes it. -/
def racingLogins : List Action :=
  [.scan "SP1" 0, .findUnique 0 "SP1", .findUnique 1 "SP1", .createUser 0 10, .createUser 1 11,
    .upsert 0, .issue 0, .upsert 1, .issue 1]

/-- The second login finds the account of the first. -/
def adoptingLogins : List Action :=
  [.scan "SP1" 0, .findUnique 0 "SP1", .createUser 0 10, .upsert 0, .issue 0,
    .findUnique 1 "SP1", .scan "SP1" 1, .issue 1]

/-- The second of two first logins takes the wallet over. -/
theorem racing_logins_change_account :
    ∃ state, exec next .initial racingLogins = some state ∧
      state.requests 0 = .loggedIn ⟨10, "SP1", Account.issue 10⟩ ∧
      state.requests 1 = .loggedIn ⟨11, "SP1", Account.issue 11⟩ ∧
      ¬AccountFixed racingLogins := by
  have run : (exec next .initial racingLogins).map (fun state =>
      (state.requests 0, state.requests 1, state.owner "SP1")) =
        some (.loggedIn ⟨10, "SP1", Account.issue 10⟩, .loggedIn ⟨11, "SP1", Account.issue 11⟩,
          some 11) := by
    decide +kernel
  rcases Option.map_eq_some_iff.mp run with ⟨state, run, read⟩
  rcases Prod.mk.inj read with ⟨first, rest⟩
  rcases Prod.mk.inj rest with ⟨second, owner⟩
  refine ⟨state, run, first, second, fun fixed => ?_⟩
  have kept := (fixed.one_account state run 0 _ first).1
  rw [owner] at kept
  cases kept

example : Along next LinksUnowned .initial adoptingLogins ∧
    (exec next .initial adoptingLogins).map (fun state => state.requests 1) =
      some (.loggedIn ⟨10, "SP1", Account.issue 10⟩) := by
  decide +kernel

end RiskRail.Auth.Account
