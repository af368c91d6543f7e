import RiskRail.Transition.Core
import Mathlib.Logic.Function.Basic

/-!
# Wallet sessions of the client

`RiviskClient` holds one session.  Requests that are answered 401 share one
refresh, `auth.refresh` sends one of its own, and every answer arrives while the
session may have been replaced or dropped.  The session stays the account's own
exactly when no answer arrives for an account that is no longer signed in.

An answer and what the client does with it are one step.  The retries of a
request, its headers and `onSession` are left out.
-/

namespace RiskRail.Sdk

open RiskRail.Transition

/-- A token names the user it was issued to. -/
structure Token where
  sub : String
  serial : ℕ
deriving DecidableEq

/-- What the server answers a refresh with. -/
structure AuthTokens where
  accessToken : Token
  refreshToken : Token
  expiresIn : ℕ
deriving DecidableEq

/-- The user and the address are missing where tokens were spread over `null`. -/
structure AuthSession extends AuthTokens where
  userId : Option String
  address : Option String
deriving DecidableEq

/-- The tokens the API issues to a user. -/
def issue (userId : String) (accessSerial refreshSerial : ℕ) : AuthTokens where
  accessToken := ⟨userId, accessSerial⟩
  refreshToken := ⟨userId, refreshSerial⟩
  expiresIn := 15 * 60

/-- Both tokens were issued to the session's user. -/
def AuthSession.Own (session : AuthSession) : Prop :=
  session.userId = some session.accessToken.sub ∧ session.userId = some session.refreshToken.sub

instance (session : AuthSession) : Decidable session.Own :=
  inferInstanceAs (Decidable (_ ∧ _))

/-- A session as the API answers it or an application restores it. -/
structure OwnSession where
  session : AuthSession
  own : session.Own
deriving DecidableEq

/-- `{ ...session, ...tokens }`. -/
def spread (session : Option AuthSession) (tokens : AuthTokens) : AuthSession :=
  { tokens with
    userId := session.bind AuthSession.userId
    address := session.bind AuthSession.address }

/-- The refresh that requests answered 401 share: the token it sent, and how many
sessions had been set before. -/
structure Refresh where
  refreshToken : Token
  sessionsSet : ℕ
deriving DecidableEq

/-- The client with its calls in flight.  The last three fields record the calls
of `setSession` so far: the sessions set by the application or by `verify`, the
calls of `signOut` or `setSession(null)`, and whether such a call is the last word,
a `verify` sent before it not counting. -/
structure State where
  session : Option AuthSession
  refreshing : Option Refresh
  refreshes : ℕ → Option Token
  /-- How many calls of `signOut` came before the `verify`. -/
  verifies : ℕ → Option ℕ
  sessionsSet : ℕ
  signOuts : ℕ
  signedOut : Bool

/-- A client constructed with a session of the application's, or without one. -/
def State.initial (restored : Option OwnSession) : State where
  session := restored.map OwnSession.session
  refreshing := none
  refreshes := fun _ => none
  verifies := fun _ => none
  sessionsSet := 0
  signOuts := 0
  signedOut := false

/-- The session is another, and nothing else. -/
def State.setSession (state : State) (session : Option AuthSession) : State :=
  { state with session }

/-- What the requests, the page and the server do. -/
inductive Action where
  /-- A request is answered 401 and calls `refreshSession`. -/
  | refreshSession
  | refreshed (accessSerial refreshSerial : ℕ)
  | refreshFailed
  | authRefresh (call : ℕ)
  | authRefreshed (call accessSerial refreshSerial : ℕ)
  | authRefreshFailed (call : ℕ)
  | verify (call : ℕ)
  | verified (call : ℕ) (session : OwnSession)
  | verifyFailed (call : ℕ)
  | setSession (session : OwnSession)
  /-- `signOut` or `setSession(null)`. -/
  | signOut
deriving DecidableEq

/-- One step of a request, of the page or of the server. -/
def next : Step State Action
  | state, .refreshSession =>
      match state.session, state.refreshing with
      | some session, none =>
          some { state with refreshing := some ⟨session.refreshToken, state.sessionsSet⟩ }
      | _, _ => some state
  | state, .refreshed accessSerial refreshSerial =>
      state.refreshing.map fun refresh =>
        let tokens := issue refresh.refreshToken.sub accessSerial refreshSerial
        { state with
          session := state.session.map fun session => spread (some session) tokens
          refreshing := none }
  | state, .refreshFailed =>
      state.refreshing.map fun _ => { state with session := none, refreshing := none }
  | state, .authRefresh call =>
      match state.session, state.refreshes call with
      | some session, none =>
          some
            { state with
              refreshes := Function.update state.refreshes call (some session.refreshToken) }
      | _, _ => none
  | state, .authRefreshed call accessSerial refreshSerial =>
      (state.refreshes call).map fun refreshToken =>
        let tokens := issue refreshToken.sub accessSerial refreshSerial
        { state.setSession (some (spread state.session tokens)) with
          refreshes := Function.update state.refreshes call none }
  | state, .authRefreshFailed call =>
      (state.refreshes call).map fun _ =>
        { state with refreshes := Function.update state.refreshes call none }
  | state, .verify call =>
      match state.verifies call with
      | none =>
          some { state with verifies := Function.update state.verifies call (some state.signOuts) }
      | some _ => none
  | state, .verified call session =>
      (state.verifies call).map fun signOuts =>
        { state.setSession (some session.session) with
          verifies := Function.update state.verifies call none
          sessionsSet := state.sessionsSet + 1
          signedOut := state.signedOut && signOuts != state.signOuts }
  | state, .verifyFailed call =>
      (state.verifies call).map fun _ =>
        { state with verifies := Function.update state.verifies call none }
  | state, .setSession session =>
      some
        { state.setSession (some session.session) with
          sessionsSet := state.sessionsSet + 1
          signedOut := false }
  | state, .signOut =>
      some
        { state.setSession none with
          signOuts := state.signOuts + 1
          signedOut := true }

/-! ## The property and the condition -/

/-- The tokens are the user's own, and a client that was signed out stays so. -/
structure State.Own (state : State) : Prop where
  tokens : ∀ session ∈ state.session, session.Own
  signedOut : state.signedOut = true → state.session = none

/-- The step leaves the session the account's own, and a failing refresh leaves the session
as it is where another one was set since it was sent. -/
def KeepsOwn (state : State) (action : Action) : Prop :=
  ∀ target ∈ next state action,
    target.Own ∧
      (action = .refreshFailed → ∀ refresh ∈ state.refreshing,
        refresh.sessionsSet ≠ state.sessionsSet → target.session = state.session)

instance (state : State) : Decidable state.Own :=
  decidable_of_iff
    ((∀ session ∈ state.session, session.Own) ∧ (state.signedOut = true → state.session = none))
    ⟨fun own => ⟨own.1, own.2⟩, fun own => ⟨own.tokens, own.signedOut⟩⟩

instance (state : State) (action : Action) : Decidable (KeepsOwn state action) :=
  inferInstanceAs (Decidable (∀ target ∈ next state action, _ ∧ (_ → ∀ refresh ∈ _, _ → _)))

/-- Refreshed tokens arrive while their user is signed in, the shared ones also
while nobody is; the shared refresh fails before another session is set, or while
nobody is signed in; and no `verify` from before a sign-out succeeds after it while
the client is signed out. -/
def Timely (state : State) : Action → Prop
  | .refreshed _ _ =>
      ∀ refresh ∈ state.refreshing, ∀ session ∈ state.session,
        session.userId = some refresh.refreshToken.sub
  | .refreshFailed =>
      ∀ refresh ∈ state.refreshing,
        state.session = none ∨ refresh.sessionsSet = state.sessionsSet
  | .authRefreshed call _ _ =>
      ∀ refreshToken ∈ state.refreshes call,
        ∃ session ∈ state.session, session.userId = some refreshToken.sub
  | .verified call _ =>
      ∀ signOuts ∈ state.verifies call, state.signedOut = true → signOuts = state.signOuts
  | _ => True

/-! ## Exactly the timely answers -/

theorem own_spread_iff {session : Option AuthSession} {userId : String}
    {accessSerial refreshSerial : ℕ} :
    (spread session (issue userId accessSerial refreshSerial)).Own ↔
      ∃ current ∈ session, current.userId = some userId := by
  cases session with
  | none => simp [spread, issue, AuthSession.Own]
  | some current => simp [spread, issue, AuthSession.Own]

variable {source target : State} {action : Action}

theorem keepsOwn_iff (step : next source action = some target) :
    KeepsOwn source action ↔
      target.Own ∧
        (action = .refreshFailed → ∀ refresh ∈ source.refreshing,
          refresh.sessionsSet ≠ source.sessionsSet → target.session = source.session) := by
  unfold KeepsOwn
  rw [step]
  simp

/-- A step that is not a failing refresh, and is always timely, has to leave the
session the account's own. -/
theorem keepsOwn_iff_of_own (step : next source action = some target) (own : target.Own)
    (other : action ≠ .refreshFailed) (timely : Timely source action) :
    KeepsOwn source action ↔ Timely source action := by
  rw [keepsOwn_iff step]
  exact iff_of_true ⟨own, fun failed => absurd failed other⟩ timely

theorem State.Own.refreshed (own : source.Own) {refresh : Refresh}
    (sent : source.refreshing = some refresh) {accessSerial refreshSerial : ℕ}
    (step : next source (.refreshed accessSerial refreshSerial) = some target) :
    target.Own ↔ Timely source (.refreshed accessSerial refreshSerial) := by
  simp only [next, sent, Option.map_some, Option.some.injEq] at step
  subst step
  simp only [Timely, sent, Option.mem_some_iff, forall_eq']
  constructor
  · intro targetOwn session found
    have spreadOwn := targetOwn.tokens _ (Option.mem_map_of_mem _ found)
    simpa using own_spread_iff.mp spreadOwn
  · intro timely
    constructor
    · intro session found
      rcases Option.map_eq_some_iff.mp found with ⟨current, currentFound, rfl⟩
      exact own_spread_iff.mpr ⟨current, rfl, timely current currentFound⟩
    · intro signedOut
      exact Option.map_eq_none_iff.mpr (own.signedOut signedOut)

theorem State.Own.authRefreshed (own : source.Own) {call : ℕ} {refreshToken : Token}
    (sent : source.refreshes call = some refreshToken) {accessSerial refreshSerial : ℕ}
    (step : next source (.authRefreshed call accessSerial refreshSerial) = some target) :
    target.Own ↔ Timely source (.authRefreshed call accessSerial refreshSerial) := by
  simp only [next, sent, Option.map_some, Option.some.injEq] at step
  subst step
  simp only [Timely, sent, Option.mem_some_iff, forall_eq']
  constructor
  · intro targetOwn
    exact own_spread_iff.mp (targetOwn.tokens _ rfl)
  · rintro ⟨session, found, user⟩
    constructor
    · rintro _ ⟨⟩
      exact own_spread_iff.mpr ⟨session, found, user⟩
    · intro signedOut
      rw [own.signedOut signedOut] at found
      cases found

theorem own_verified_iff {call signOuts : ℕ} {session : OwnSession}
    (sent : source.verifies call = some signOuts)
    (step : next source (.verified call session) = some target) :
    target.Own ↔ Timely source (.verified call session) := by
  simp only [next, sent, Option.map_some, Option.some.injEq] at step
  subst step
  simp only [Timely, sent, Option.mem_some_iff, forall_eq']
  constructor
  · intro targetOwn signedOut
    by_contra before
    have stays := targetOwn.signedOut (by simpa [signedOut] using before)
    cases stays
  · intro timely
    constructor
    · rintro _ ⟨⟩
      exact session.own
    · intro still
      simp only [Bool.and_eq_true, bne_iff_ne] at still
      exact absurd (timely still.1) still.2

theorem keepsOwn_iff_timely (own : source.Own) (enabled : next source action ≠ none) :
    KeepsOwn source action ↔ Timely source action := by
  rcases Option.ne_none_iff_exists'.mp enabled with ⟨target, step⟩
  cases action with
  | refreshSession =>
      have kept : target.Own := by
        simp only [next] at step
        split at step
        all_goals
          cases step
          exact ⟨own.tokens, own.signedOut⟩
      exact keepsOwn_iff_of_own step kept nofun trivial
  | refreshed accessSerial refreshSerial =>
      rcases Option.map_eq_some_iff.mp step with ⟨refresh, sent, -⟩
      rw [keepsOwn_iff step, own.refreshed sent step]
      exact and_iff_left nofun
  | refreshFailed =>
      rcases Option.map_eq_some_iff.mp step with ⟨refresh, sent, rfl⟩
      rw [keepsOwn_iff step]
      have kept : State.Own { source with session := none, refreshing := none } :=
        ⟨nofun, fun _ => rfl⟩
      simp only [Timely, sent, Option.mem_some_iff, forall_eq', kept, true_and, forall_const]
      -- The failing refresh always leaves no session.
      constructor
      · intro keeps
        by_cases same : refresh.sessionsSet = source.sessionsSet
        · exact .inr same
        · exact .inl (keeps same).symm
      · rintro (signedOut | same) other
        · exact signedOut.symm
        · exact absurd same other
  | authRefresh call | verify call =>
      have kept : target.Own := by
        simp only [next] at step
        split at step
        next =>
          cases step
          exact ⟨own.tokens, own.signedOut⟩
        next => cases step
      exact keepsOwn_iff_of_own step kept nofun trivial
  | authRefreshed call accessSerial refreshSerial =>
      rcases Option.map_eq_some_iff.mp step with ⟨refreshToken, sent, -⟩
      rw [keepsOwn_iff step, own.authRefreshed sent step]
      exact and_iff_left nofun
  | verified call session =>
      rcases Option.map_eq_some_iff.mp step with ⟨signOuts, sent, -⟩
      rw [keepsOwn_iff step, own_verified_iff sent step]
      exact and_iff_left nofun
  | authRefreshFailed call | verifyFailed call =>
      rcases Option.map_eq_some_iff.mp step with ⟨_, -, rfl⟩
      exact keepsOwn_iff_of_own step ⟨own.tokens, own.signedOut⟩ nofun trivial
  | setSession session =>
      cases step
      have kept : ∀ current ∈ some session.session, current.Own := by
        rintro _ ⟨⟩
        exact session.own
      exact keepsOwn_iff_of_own rfl ⟨kept, nofun⟩ nofun trivial
  | signOut =>
      cases step
      exact keepsOwn_iff_of_own rfl ⟨nofun, fun _ => rfl⟩ nofun trivial

/-- Nothing arrives for a call that is not in flight. -/
theorem timely_of_disabled (disabled : next source action = none) : Timely source action := by
  cases action with
  | refreshed | refreshFailed =>
      intro refresh sent
      rw [Option.map_eq_none_iff.mp disabled] at sent
      cases sent
  | authRefreshed | verified =>
      intro sent found
      rw [Option.map_eq_none_iff.mp disabled] at found
      cases found
  | _ => trivial

/-- In every order of answers, each step leaves the session the account's own
exactly when each answer is timely. -/
theorem session_stays_own_iff_timely (restored : Option OwnSession) (actions : List Action) :
    Along next KeepsOwn (.initial restored) actions ↔
      Along next Timely (.initial restored) actions := by
  apply along_iff_of_invariant State.Own
  · exact keepsOwn_iff_timely
  · intro state action disabled
    refine iff_of_true ?_ (timely_of_disabled disabled)
    intro target step
    rw [disabled] at step
    cases step
  · intro source target action own timely step
    have keeps := (keepsOwn_iff_timely own (by rw [step]; nofun)).mpr timely
    exact (keeps target step).1
  · constructor
    · intro session found
      rcases Option.map_eq_some_iff.mp found with ⟨own, -, rfl⟩
      exact own.own
    · nofun

/-! ## Answers for an account that is no longer signed in -/

/-- A session of a user, as the API answers it. -/
def sessionOf (userId address : String) : OwnSession where
  session :=
    { issue userId 1 2 with
      userId := some userId
      address := some address }
  own := ⟨rfl, rfl⟩

/-- The session of a user. -/
def alice : OwnSession :=
  sessionOf "alice" "SP1"

/-- The session of another. -/
def bob : OwnSession :=
  sessionOf "bob" "SP2"

/-- A request of Alice's is answered 401; Bob signs in before the refresh is answered. -/
def switched : List Action :=
  [.refreshSession, .setSession bob, .refreshed 3 4]

/-- The same, but the refresh fails. -/
def cleared : List Action :=
  [.refreshSession, .setSession bob, .refreshFailed]

/-- Alice signs out while her explicit refresh is in flight. -/
def revived : List Action :=
  [.authRefresh 0, .signOut, .authRefreshed 0 3 4]

/-- Alice signs out while a `verify` of hers is in flight. -/
def signedBackIn : List Action :=
  [.verify 0, .signOut, .verified 0 alice]

/-- Bob's session holds Alice's tokens, Bob is signed out because Alice's refresh
failed, and a client that was signed out has a session again: one without a user,
or one from an earlier `verify`. -/
theorem late_answers_take_over :
    ((exec next (.initial (some alice)) switched).bind State.session =
        some { issue "alice" 3 4 with userId := some "bob", address := some "SP2" } ∧
      (exec next (.initial (some alice)) cleared).map State.session = some none ∧
      (exec next (.initial (some alice)) revived).bind State.session =
        some { issue "alice" 3 4 with userId := none, address := none } ∧
      (exec next (.initial (some alice)) signedBackIn).bind State.session = some alice.session) ∧
    ∀ actions ∈ [switched, cleared, revived, signedBackIn],
      ¬Along next KeepsOwn (.initial (some alice)) actions := by
  decide +kernel

end RiskRail.Sdk
