import RiskRail.Transition.Core
import Mathlib.Logic.Function.Basic

/-!
# Wallet login by challenge

`AuthService` of the API: `createChallenge` stores the text to sign under the
address, `verify` reads it, checks the signature and deletes it.  Every Redis
command is one step, and any number of requests run at the same time on any
number of instances.  The model follows the requests for one address.

The two functions of the Stacks libraries that check a public key and a
signature are parameters.
-/

namespace RiskRail.Auth

open RiskRail.Transition

/-- What `verify` calls of `@stacks/transactions` and `@stacks/encryption`. -/
structure Crypto where
  /-- `none` where the library throws on a malformed key. -/
  publicKeyToAddress : String → Option String
  verifyMessageSignatureRsv : (message signature publicKey : String) → Bool

/-- The lines of the text a wallet signs. -/
def challengeMessage (domain address nonce issuedAt : String) : String :=
  "\n".intercalate
    [ "Rivisk sign-in",
      "",
      "Domain: " ++ domain,
      "Address: " ++ address,
      "Nonce: " ++ nonce,
      "Issued At: " ++ issuedAt,
      "",
      "Signing this proves you control the address. It authorises read-only",
      "analytics and alert settings. It does not move funds or approve a",
      "transaction." ]

/-- The body of a `verify` request, besides the address. -/
structure VerifyInput where
  publicKey : String
  signature : String
deriving DecidableEq

/-- The checks between the read and the delete: the key belongs to the address
and signed the stored text. -/
def accepts (crypto : Crypto) (address : String) (input : VerifyInput)
    (message : String) : Bool :=
  crypto.publicKeyToAddress input.publicKey = some address &&
    crypto.verifyMessageSignatureRsv message input.signature input.publicKey

/-- How far a `verify` request has come. -/
inductive Phase where
  | idle
  /-- `redis.get` returned the message. -/
  | read (input : VerifyInput) (message : String)
  /-- The signature verified; the challenge is still stored. -/
  | checked (message : String)
  /-- `redis.del` is done; the wallet is being linked and the tokens signed. -/
  | consumed (message : String)
  | loggedIn (message : String)
  | refused
deriving DecidableEq

/-- The Redis key of the address, the texts issued so far, and all requests. -/
structure State where
  stored : Option String
  issued : List String
  requests : Nat → Phase

/-- No challenge is stored. -/
def State.initial : State where
  stored := none
  issued := []
  requests := fun _ => .idle

/-- One request moves to its next phase. -/
def State.advance (state : State) (request : Nat) (phase : Phase) : State :=
  { state with requests := Function.update state.requests request phase }

/-- What the store and the requests do. -/
inductive Action where
  | createChallenge (domain nonce issuedAt : String)
  /-- The key's time to live ran out. -/
  | expire
  | get (request : Nat) (input : VerifyInput)
  | check (request : Nat)
  | del (request : Nat)
  | issue (request : Nat)
  /-- The request throws or its instance dies. -/
  | fail (request : Nat)

/-- One step of the API.  A nonce is 24 random bytes: a text is never issued
twice. -/
def next (crypto : Crypto) (address : String) : Step State Action
  | state, .createChallenge domain nonce issuedAt =>
      let message := challengeMessage domain address nonce issuedAt
      if message ∈ state.issued then none
      else some { state with stored := some message, issued := message :: state.issued }
  | state, .expire => some { state with stored := none }
  | state, .get request input =>
      match state.requests request with
      | .idle =>
          match state.stored with
          | some message => some (state.advance request (.read input message))
          | none => some (state.advance request .refused)
      | _ => none
  | state, .check request =>
      match state.requests request with
      | .read input message =>
          if accepts crypto address input message then
            some (state.advance request (.checked message))
          else
            some (state.advance request .refused)
      | _ => none
  | state, .del request =>
      match state.requests request with
      | .checked message =>
          some { state.advance request (.consumed message) with stored := none }
      | _ => none
  | state, .issue request =>
      match state.requests request with
      | .consumed message => some (state.advance request (.loggedIn message))
      | _ => none
  | state, .fail request =>
      match state.requests request with
      | .idle => none
      | .loggedIn _ => none
      | _ => some (state.advance request .refused)

/-- At most one `verify` call succeeds for each issued challenge. -/
def OneLoginPerChallenge (state : State) : Prop :=
  ∀ message first second, state.requests first = .loggedIn message →
    state.requests second = .loggedIn message → first = second

/-! ## Requests that race for one challenge -/

variable {crypto : Crypto} {address : String}

/-- The phase can still lead to a login with `message`, before the delete. -/
def Phase.Holds (crypto : Crypto) (address message : String) : Phase → Prop
  | .read input text => text = message ∧ accepts crypto address input text = true
  | .checked text => text = message
  | _ => False

/-- The phase deleted the challenge `message`. -/
def Phase.Used (message : String) : Phase → Prop
  | .consumed text => text = message
  | .loggedIn text => text = message
  | _ => False

/-- A valid request reads the challenge only while no other valid request for
the same challenge is between its own read and its delete. -/
def ReadsAlone (crypto : Crypto) (address : String) (state : State) : Action → Prop
  | .get request input =>
      ∀ message, state.stored = some message → accepts crypto address input message = true →
        ∀ other, other ≠ request → ¬(state.requests other).Holds crypto address message
  | _ => True

/-- What single readers keep true: a challenge has one valid reader or one
user, never both, and a used one is gone. -/
structure Exclusive (crypto : Crypto) (address : String) (state : State) : Prop where
  stored_issued : ∀ message, state.stored = some message → message ∈ state.issued
  used_issued : ∀ message request, (state.requests request).Used message →
    message ∈ state.issued
  holds_issued : ∀ message request, (state.requests request).Holds crypto address message →
    message ∈ state.issued
  used_gone : ∀ message request, (state.requests request).Used message →
    state.stored ≠ some message
  used_released : ∀ message first second, (state.requests first).Used message →
    ¬(state.requests second).Holds crypto address message
  used_once : ∀ message first second, (state.requests first).Used message →
    (state.requests second).Used message → first = second
  holds_once : ∀ message first second,
    (state.requests first).Holds crypto address message →
    (state.requests second).Holds crypto address message → first = second

theorem exclusive_initial : Exclusive crypto address State.initial := by
  constructor <;> simp [State.initial, Phase.Used, Phase.Holds]

theorem advance_requests (state : State) (request other : Nat) (phase : Phase) :
    (state.advance request phase).requests other =
      if other = request then phase else state.requests other :=
  Function.update_apply state.requests request phase other

/-- What holds of a request after a step of one holds of the step's phase or held before. -/
theorem advance_iff (holds : Phase → Prop) {state : State} {request other : Nat} {phase : Phase} :
    holds ((state.advance request phase).requests other) ↔
      other = request ∧ holds phase ∨ other ≠ request ∧ holds (state.requests other) :=
  update_iff holds

/-- A request that stops holding or using anything keeps the rest exclusive. -/
theorem Exclusive.release {state : State} (exclusive : Exclusive crypto address state)
    (request : Nat) {phase : Phase}
    (used : ∀ message, phase.Used message → (state.requests request).Used message)
    (holds : ∀ message, phase.Holds crypto address message →
      (state.requests request).Holds crypto address message) :
    Exclusive crypto address (state.advance request phase) := by
  have usedBefore : ∀ message other, ((state.advance request phase).requests other).Used message →
      (state.requests other).Used message := by
    intro message other after
    rcases (advance_iff (Phase.Used message)).mp after with ⟨rfl, moved⟩ | ⟨-, before⟩
    · exact used message moved
    · exact before
  have holdsBefore : ∀ message other,
      ((state.advance request phase).requests other).Holds crypto address message →
        (state.requests other).Holds crypto address message := by
    intro message other after
    rcases (advance_iff (Phase.Holds crypto address message)).mp after with
      ⟨rfl, moved⟩ | ⟨-, before⟩
    · exact holds message moved
    · exact before
  constructor
  · exact exclusive.stored_issued
  · exact fun message other after => exclusive.used_issued message other (usedBefore _ _ after)
  · exact fun message other after => exclusive.holds_issued message other (holdsBefore _ _ after)
  · exact fun message other after => exclusive.used_gone message other (usedBefore _ _ after)
  · exact fun message first second afterFirst afterSecond =>
      exclusive.used_released message first second (usedBefore _ _ afterFirst)
        (holdsBefore _ _ afterSecond)
  · exact fun message first second afterFirst afterSecond =>
      exclusive.used_once message first second (usedBefore _ _ afterFirst)
        (usedBefore _ _ afterSecond)
  · exact fun message first second afterFirst afterSecond =>
      exclusive.holds_once message first second (holdsBefore _ _ afterFirst)
        (holdsBefore _ _ afterSecond)

/-- A new text is not held or used by anyone. -/
theorem Exclusive.store {state : State} (exclusive : Exclusive crypto address state)
    {message : String} (fresh : message ∉ state.issued) :
    Exclusive crypto address
      { state with stored := some message, issued := message :: state.issued } where
  stored_issued := by
    intro text stored
    cases stored
    exact List.mem_cons_self
  used_issued text request used := List.mem_cons_of_mem _ (exclusive.used_issued text request used)
  holds_issued text request holds :=
    List.mem_cons_of_mem _ (exclusive.holds_issued text request holds)
  used_gone := by
    intro text request used stored
    cases stored
    exact fresh (exclusive.used_issued message request used)
  used_released := exclusive.used_released
  used_once := exclusive.used_once
  holds_once := exclusive.holds_once

theorem Exclusive.forget {state : State} (exclusive : Exclusive crypto address state) :
    Exclusive crypto address { state with stored := none } :=
  { exclusive with
    stored_issued := fun _ stored => nomatch stored
    used_gone := fun _ _ _ stored => nomatch stored }

/-- A valid request that reads alone becomes the one holder of the challenge. -/
theorem Exclusive.read {state : State} (exclusive : Exclusive crypto address state)
    {request : Nat} {input : VerifyInput} {message : String}
    (stored : state.stored = some message)
    (alone : ReadsAlone crypto address state (.get request input)) :
    Exclusive crypto address (state.advance request (.read input message)) := by
  have unused : ∀ other, ¬(state.requests other).Used message := fun other used =>
    exclusive.used_gone message other used stored
  have usedBefore : ∀ text other,
      ((state.advance request (.read input message)).requests other).Used text →
        other ≠ request ∧ (state.requests other).Used text := by
    intro text other after
    exact ((advance_iff (Phase.Used text)).mp after).resolve_left And.right
  have holdsBefore : ∀ text other,
      ((state.advance request (.read input message)).requests other).Holds crypto address text →
        other = request ∧ text = message ∧ accepts crypto address input message = true ∨
          other ≠ request ∧ (state.requests other).Holds crypto address text := by
    intro text other after
    rcases (advance_iff (Phase.Holds crypto address text)).mp after with
      ⟨same, rfl, valid⟩ | before
    · exact .inl ⟨same, rfl, valid⟩
    · exact .inr before
  constructor
  · exact exclusive.stored_issued
  · exact fun text other after => exclusive.used_issued text other (usedBefore _ _ after).2
  · intro text other after
    rcases holdsBefore _ _ after with ⟨-, rfl, -⟩ | ⟨-, before⟩
    · exact exclusive.stored_issued text stored
    · exact exclusive.holds_issued text other before
  · exact fun text other after => exclusive.used_gone text other (usedBefore _ _ after).2
  · intro text first second afterFirst afterSecond
    rcases holdsBefore _ _ afterSecond with ⟨-, rfl, -⟩ | ⟨-, before⟩
    · exact unused first (usedBefore _ _ afterFirst).2
    · exact exclusive.used_released text first second (usedBefore _ _ afterFirst).2 before
  · exact fun text first second afterFirst afterSecond =>
      exclusive.used_once text first second (usedBefore _ _ afterFirst).2
        (usedBefore _ _ afterSecond).2
  · intro text first second afterFirst afterSecond
    rcases holdsBefore _ _ afterFirst with ⟨rfl, rfl, valid⟩ | ⟨otherFirst, beforeFirst⟩ <;>
      rcases holdsBefore _ _ afterSecond with ⟨rfl, same, valid'⟩ | ⟨otherSecond, beforeSecond⟩
    · rfl
    · exact (alone text stored valid second otherSecond beforeSecond).elim
    · subst same
      exact (alone text stored valid' first otherFirst beforeFirst).elim
    · exact exclusive.holds_once text first second beforeFirst beforeSecond

/-- The holder that deletes the challenge becomes its one user. -/
theorem Exclusive.consume {state : State} (exclusive : Exclusive crypto address state)
    {request : Nat} {message : String}
    (holds : (state.requests request).Holds crypto address message) :
    Exclusive crypto address
      { state.advance request (.consumed message) with stored := none } := by
  have unused : ∀ other, ¬(state.requests other).Used message := fun other used =>
    exclusive.used_released message other request used holds
  have usedBefore : ∀ text other,
      ((state.advance request (.consumed message)).requests other).Used text →
        other = request ∧ text = message ∨
          (state.requests other).Used text := by
    intro text other after
    rcases (advance_iff (Phase.Used text)).mp after with ⟨same, rfl⟩ | ⟨-, before⟩
    · exact .inl ⟨same, rfl⟩
    · exact .inr before
  have holdsBefore : ∀ text other,
      ((state.advance request (.consumed message)).requests other).Holds crypto address text →
        other ≠ request ∧ (state.requests other).Holds crypto address text := by
    intro text other after
    exact ((advance_iff (Phase.Holds crypto address text)).mp after).resolve_left And.right
  constructor
  · exact fun _ stored => nomatch stored
  · intro text other after
    rcases usedBefore _ _ after with ⟨-, rfl⟩ | before
    · exact exclusive.holds_issued text request holds
    · exact exclusive.used_issued text other before
  · exact fun text other after => exclusive.holds_issued text other (holdsBefore _ _ after).2
  · exact fun _ _ _ stored => nomatch stored
  · intro text first second afterFirst afterSecond
    obtain ⟨other, before⟩ := holdsBefore _ _ afterSecond
    rcases usedBefore _ _ afterFirst with ⟨-, rfl⟩ | used
    · exact other (exclusive.holds_once text second request before holds)
    · exact exclusive.used_released text first second used before
  · intro text first second afterFirst afterSecond
    rcases usedBefore _ _ afterFirst with ⟨rfl, rfl⟩ | usedFirst <;>
      rcases usedBefore _ _ afterSecond with ⟨rfl, same⟩ | usedSecond
    · rfl
    · exact (unused second usedSecond).elim
    · subst same
      exact (unused first usedFirst).elim
    · exact exclusive.used_once text first second usedFirst usedSecond
  · exact fun text first second afterFirst afterSecond =>
      exclusive.holds_once text first second (holdsBefore _ _ afterFirst).2
        (holdsBefore _ _ afterSecond).2

theorem exclusive_next {source target : State} {action : Action}
    (exclusive : Exclusive crypto address source)
    (alone : ReadsAlone crypto address source action)
    (step : next crypto address source action = some target) :
    Exclusive crypto address target := by
  cases action with
  | createChallenge domain nonce issuedAt =>
      obtain ⟨fresh, rfl⟩ : challengeMessage domain address nonce issuedAt ∉ source.issued ∧ _ := by
        simpa [next] using step
      exact exclusive.store fresh
  | expire =>
      cases step
      exact exclusive.forget
  | get request input =>
      simp only [next] at step
      split at step
      · split at step
        next message stored =>
          cases step
          exact exclusive.read stored alone
        next =>
          cases step
          exact exclusive.release request (fun _ used => used.elim) (fun _ holds => holds.elim)
      · cases step
  | check request =>
      simp only [next] at step
      split at step
      next input message phase =>
        split at step
        next valid =>
          cases step
          refine exclusive.release request (fun _ used => used.elim) fun text holds => ?_
          rw [phase]
          exact ⟨holds, holds ▸ valid⟩
        next =>
          cases step
          exact exclusive.release request (fun _ used => used.elim) (fun _ holds => holds.elim)
      · cases step
  | del request =>
      simp only [next] at step
      split at step
      next message phase =>
        cases step
        refine exclusive.consume ?_
        rw [phase]
        exact rfl
      · cases step
  | issue request =>
      simp only [next] at step
      split at step
      next message phase =>
        cases step
        refine exclusive.release request (fun text used => ?_) (fun _ holds => holds.elim)
        rw [phase]
        exact used
      · cases step
  | fail request =>
      simp only [next] at step
      split at step
      · cases step
      · cases step
      · cases step
        exact exclusive.release request (fun _ used => used.elim) (fun _ holds => holds.elim)

theorem Exclusive.oneLogin {state : State} (exclusive : Exclusive crypto address state) :
    OneLoginPerChallenge state := by
  intro message first second loggedFirst loggedSecond
  refine exclusive.used_once message first second ?_ ?_
  · rw [loggedFirst]
    exact rfl
  · rw [loggedSecond]
    exact rfl

/-- Every challenge is used for at most one login, in every run in which valid
requests read alone. -/
theorem one_login_when_reads_alone {actions : List Action} {state : State}
    (along : Along (next crypto address) (ReadsAlone crypto address) State.initial actions)
    (run : exec (next crypto address) State.initial actions = some state) :
    OneLoginPerChallenge state :=
  (along.invariant exclusive_next run exclusive_initial).oneLogin

/-! ## The race, and two requests that take turns -/

/-- A key is its own address, and signs a text by repeating it. -/
def echoCrypto : Crypto where
  publicKeyToAddress key := some key
  verifyMessageSignatureRsv message signature _ := message == signature

/-- An answer whose signature is the message itself. -/
def echoInput : VerifyInput where
  publicKey := "SP1"
  signature := challengeMessage "http://localhost:3000" "SP1" "aa" "2026-01-01T00:00:00.000Z"

/-- A challenge for that answer. -/
def issueChallenge : Action :=
  .createChallenge "http://localhost:3000" "aa" "2026-01-01T00:00:00.000Z"

/-- Both requests read the challenge before either deletes it. -/
def racingRequests : List Action :=
  [issueChallenge, .get 0 echoInput, .get 1 echoInput, .check 0, .check 1,
    .del 0, .del 1, .issue 0, .issue 1]

/-- The second request comes after the first one deleted the challenge. -/
def sequentialRequests : List Action :=
  [issueChallenge, .get 0 echoInput, .check 0, .del 0, .get 1 echoInput, .issue 0]

theorem accepts_echoInput :
    accepts echoCrypto "SP1" echoInput
      (challengeMessage "http://localhost:3000" "SP1" "aa" "2026-01-01T00:00:00.000Z") = true := by
  simp [accepts, echoCrypto, echoInput]

/-- One signature logs in twice: the read, the check and the delete are three
steps. -/
theorem racing_requests_log_in_twice :
    ∃ state, exec (next echoCrypto "SP1") State.initial racingRequests = some state ∧
      ¬OneLoginPerChallenge state := by
  have run : (exec (next echoCrypto "SP1") State.initial racingRequests).map
      (fun state => (state.requests 0, state.requests 1)) =
        some (.loggedIn echoInput.signature, .loggedIn echoInput.signature) := by
    decide +kernel
  obtain ⟨state, run, phases⟩ := Option.map_eq_some_iff.mp run
  obtain ⟨first, second⟩ := Prod.mk.inj phases
  exact ⟨state, run, fun once => absurd (once _ 0 1 first second) (by decide)⟩

theorem one_login_when_reads_alone_sequential :
    ∃ state, exec (next echoCrypto "SP1") State.initial sequentialRequests = some state ∧
      state.requests 0 = .loggedIn echoInput.signature ∧ OneLoginPerChallenge state := by
  have along : Along (next echoCrypto "SP1") (ReadsAlone echoCrypto "SP1") State.initial
      sequentialRequests := by
    simp [sequentialRequests, issueChallenge, Along, next, ReadsAlone, State.initial,
      advance_requests, accepts_echoInput, Phase.Holds]
  have run : (exec (next echoCrypto "SP1") State.initial sequentialRequests).map
      (fun state => state.requests 0) = some (.loggedIn echoInput.signature) := by
    decide +kernel
  obtain ⟨state, run, phase⟩ := Option.map_eq_some_iff.mp run
  exact ⟨state, run, phase, one_login_when_reads_alone along run⟩

end RiskRail.Auth
