import RiskRail.Javascript.Map
import RiskRail.Stacks.Clarity
import RiskRail.Transition.Core
import Mathlib.Data.List.DropRight

/-!
# The transport of the SDK

A call of `HttpClient.request` is a loop of attempts.  What the call awaits is a
phase of its state, and everything that settles an await, fires the timer or aborts
the caller's signal is an event; between two awaits nothing else runs.

`URLSearchParams`, `Date.parse`, `JSON.parse`, the clock and the jitter come from the
host.  The backoff is an exact number.
-/

namespace RiskRail.Sdk.Http

open RiskRail.Javascript Text RiskRail.Numeric
open RiskRail.Stacks (property)
open RiskRail.Transition

/-! ## Errors -/

/-- The classes of errors. -/
inductive ErrorClass where
  | riviskError
  | auth
  | rateLimit (retryAfterSeconds : Option ℚ)
  | network
  | timeout

/-- The status is 0 when the request never got a response. -/
structure RiviskError where
  kind : ErrorClass
  message : Text
  status : ℕ := 0
  body : Option Json := none
  code : Option Text := none
  requestId : Option Text := none

/-- True when the same request could plausibly succeed if repeated. -/
def RiviskError.retryable (error : RiviskError) : Bool :=
  match error.kind with
  | .timeout => true
  | _ => error.status == 0 || error.status == 408 || error.status == 429 || 500 ≤ error.status

/-- What a promise is rejected with: the message, if it is an `Error`. -/
abbrev Cause := Option Text

/-- What a call or a hook of the client throws. -/
inductive Failure where
  | rivisk (error : RiviskError)
  | other (cause : Cause)

/-! ## Options -/

/-- How often and how late a call is repeated. -/
structure RetryPolicy where
  /-- Attempts after the first. -/
  maxRetries : ℕ
  baseDelayMs : ℚ
  maxDelayMs : ℚ

/-- The policy of a client without options. -/
def defaultRetry : RetryPolicy where
  maxRetries := 3
  baseDelayMs := 300
  maxDelayMs := 8000

/-- `Partial<RetryPolicy>`. -/
structure RetryOptions where
  maxRetries : Option ℕ := none
  baseDelayMs : Option ℚ := none
  maxDelayMs : Option ℚ := none

/-- What `onRetry` is told. -/
structure RetryInfo where
  attempt : ℕ
  delayMs : ℚ
  error : RiviskError
  method : Text
  path : Text

/-- The options of a client. -/
structure HttpOptions where
  baseUrl : Text
  apiKey : Option Text := none
  /-- Whether the client has an `onUnauthorized` hook. -/
  onUnauthorized : Bool := false
  timeoutMs : Option ℕ := none
  /-- `none` is `false`. -/
  retry : Option RetryOptions := some {}
  headers : List (Text × Text) := []
  /-- What the hook throws, if it does. -/
  onRetry : RetryInfo → Option Failure := fun _ => none

/-- The options of a call. -/
structure RequestOptions where
  query : Option (List (Text × Option Text)) := none
  /-- What `JSON.stringify` makes of the body, or throws at it. -/
  body : Option (Except Cause Text) := none
  /-- Whether the caller passes a signal. -/
  signal : Bool := false
  idempotent : Option Bool := none
  headers : List (Text × Text) := []
  skipAuthRefresh : Bool := false

/-- What is asked for. -/
structure Call where
  method : Text
  path : Text
  options : RequestOptions := {}

/-- GET and HEAD are idempotent; nothing else is assumed to be. -/
def Call.idempotent (call : Call) : Bool :=
  call.options.idempotent.getD
    (call.method == ofString "GET" || call.method == ofString "HEAD")

namespace HttpOptions

/-- `this.retry`. -/
def policy (options : HttpOptions) : Option RetryPolicy :=
  options.retry.map fun retry =>
    { maxRetries := retry.maxRetries.getD defaultRetry.maxRetries
      baseDelayMs := retry.baseDelayMs.getD defaultRetry.baseDelayMs
      maxDelayMs := retry.maxDelayMs.getD defaultRetry.maxDelayMs }

/-- `this.retry?.maxRetries ?? 0`. -/
def maxRetries (options : HttpOptions) : ℕ :=
  (options.policy.map RetryPolicy.maxRetries).getD 0

/-- `this.timeoutMs`. -/
def timeout (options : HttpOptions) : ℕ :=
  options.timeoutMs.getD 30000

/-- `options.baseUrl.replace(/\/+$/, '')`. -/
def base (options : HttpOptions) : Text :=
  options.baseUrl.rdropWhile fun unit => unit == 0x2F

end HttpOptions

/-! ## Requests and responses -/

/-- What the SDK takes from the runtime; the clock and the jitter are read once in each
attempt. -/
structure Host where
  searchParams : List (Text × Text) → Text
  parseJson : Text → Option Json
  parseDate : Text → Option ℚ
  now : ℕ → ℚ
  random : ℕ → ℚ

/-- What `fetch` is given. -/
structure Request where
  method : Text
  url : Text
  headers : OrderedMap Text Text
  body : Option Text

/-- A response before its body is read. -/
structure Response where
  status : ℕ
  statusText : Text
  requestId : Option Text := none
  correlationId : Option Text := none
  retryAfter : Option Text := none

/-- `response.ok`. -/
def Response.ok (response : Response) : Bool :=
  200 ≤ response.status && response.status < 300

variable (host : Host) (client : HttpOptions) (call : Call)

/-- The path under the base, with the query. -/
def url : Text :=
  let path := if call.path.head? = some 0x2F then call.path else 0x2F :: call.path
  match call.options.query with
  | none => client.base ++ path
  | some query =>
      let qs := host.searchParams
        (query.filterMap fun entry => entry.2.map fun value => (entry.1, value))
      if qs = [] then client.base ++ path else client.base ++ path ++ 0x3F :: qs

/-- The header of a token; an empty token gives none. -/
def authHeader (token : Option Text) : List (Text × Text) :=
  match token.or client.apiKey with
  | none => []
  | some [] => []
  | some token => [(ofString "authorization", ofString "Bearer " ++ token)]

/-- The arguments of `fetch`; later headers replace earlier ones. -/
def fetchRequest (token : Option Text) (body : Option Text) : Request where
  method := call.method
  url := url host client call
  headers := OrderedMap.ofWrites
    ((ofString "accept", ofString "application/json") ::
      (if body.isSome then [(ofString "content-type", ofString "application/json")] else []) ++
      authHeader client token ++ client.headers ++ call.options.headers)
  body := body

/-- Seconds from a `Retry-After` header, which may be seconds or an HTTP date. -/
def parseRetryAfter (now : ℚ) : Option Text → Option ℚ
  | none => none
  | some [] => none
  | some value =>
      match (number value).filter fun seconds => 0 ≤ seconds with
      | some seconds => some seconds
      | none => (host.parseDate value).map fun date => max 0 ((date - now) / 1000)

/-- Full jitter. -/
def backoffDelay (attempt : ℕ) (policy : RetryPolicy) (random : ℚ) : ℚ :=
  mathRound (random * min policy.maxDelayMs (policy.baseDelayMs * 2 ^ attempt))

/-- The strings of a list with a comma and a blank between them. -/
def joinStrings (items : List Json) : Text :=
  (ofString ", ").intercalate
    (items.filterMap fun item =>
      match item with
      | .string value => some value
      | _ => none)

/-- The message of an error body, if there is one. -/
def messageFrom (body : Option Json) (fallback : Text) : Text :=
  match body with
  | some (.object fields) =>
      match property (ofString "message") fields with
      | some (.string message) => message
      | some (.array messages) => joinStrings messages
      | _ =>
          match property (ofString "error") fields with
          | some (.string error) => error
          | _ => fallback
  | _ => fallback

/-- `body.code`, when it is a string. -/
def codeOf (body : Option Json) : Option Text :=
  match body with
  | some (.object fields) =>
      match property (ofString "code") fields with
      | some (.string code) => some code
      | _ => none
  | _ => none

/-- A body that is not JSON is kept verbatim. -/
def bodyOf (text : Text) : Option Json :=
  if text = [] then none else some ((host.parseJson text).getD (.string text))

/-- The error of a response that is not ok. -/
def errorOf (attempt : ℕ) (response : Response) (body : Option Json) : RiviskError where
  kind :=
    if response.status = 429 then
      .rateLimit (parseRetryAfter host (host.now attempt) response.retryAfter)
    else if response.status = 401 ∨ response.status = 403 then .auth
    else .riviskError
  message := messageFrom body (digits response.status ++ 0x20 :: response.statusText)
  status := response.status
  body := body
  code := codeOf body
  requestId := response.requestId.or response.correlationId

/-- The caller aborted the call. -/
def abortedByCaller : RiviskError where
  kind := .timeout
  message := ofString "Request aborted by the caller"

/-- What an aborted `sleep` rejects with. -/
def abortedAsleep : RiviskError where
  kind := .timeout
  message := ofString "Request aborted"

/-- The timer of the attempt fired. -/
def timedOut : RiviskError where
  kind := .timeout
  message := ofString "Request timed out after " ++ digits client.timeout ++ ofString "ms"

/-- No response arrived. -/
def networkError (cause : Cause) : RiviskError where
  kind := .network
  message := cause.getD (ofString "Network request failed")

/-! ## A call -/

/-- What the call awaits, or how it ended. -/
inductive Phase where
  /-- The auth header of an attempt. -/
  | authorizing
  | fetching
  /-- The text of a response. -/
  | reading (response : Response)
  /-- The `onUnauthorized` hook, asked after this error. -/
  | refreshing (error : RiviskError)
  | sleeping (delayMs : ℚ)
  /-- The timer of a sleep has fired. -/
  | woken
  | returned (body : Option Json)
  | threw (failure : Failure)

/-- What a call did. -/
inductive Effect where
  /-- The caller aborts its signal. -/
  | aborted
  | fetched (request : Request)
  /-- An attempt ends with this status; 0 without a response, `none` where the body could
  not be read. -/
  | ended (status : Option ℕ)
  /-- The `onUnauthorized` hook is asked. -/
  | unauthorized
  /-- The hook says that there is a fresh credential. -/
  | renewed
  | retrying (info : RetryInfo)

/-- How far a call is; what it did is kept newest first. -/
structure Progress where
  attempt : ℕ
  refreshed : Bool
  /-- `options.signal?.aborted`. -/
  aborted : Bool
  log : List Effect

/-- The call did something. -/
def Progress.record (progress : Progress) (effect : Effect) : Progress :=
  { progress with log := effect :: progress.log }

/-- A call between two awaits. -/
structure State extends Progress where
  /-- `controller.signal.aborted`, for the controller of the attempt. -/
  cancelled : Bool
  phase : Phase

/-- What settles, fires or is aborted. -/
inductive Event where
  /-- The caller aborts its signal. -/
  | abort
  /-- The timer of the attempt fires. -/
  | timeout
  /-- `getAuthToken` settles. -/
  | token (result : Except Cause (Option Text))
  /-- `fetch` settles. -/
  | answer (result : Except Cause Response)
  /-- `response.text()` settles; the platform rejects it with no error of the SDK. -/
  | text (result : Except Cause Text)
  /-- `onUnauthorized` settles. -/
  | refresh (result : Except Failure Bool)
  /-- The timer of a sleep fires. -/
  | wake
  /-- The call goes on after a sleep. -/
  | resume

/-- `error.retryAfterSeconds * 1000`. -/
def advisedMs (error : RiviskError) : Option ℚ :=
  match error.kind with
  | .rateLimit retryAfterSeconds => retryAfterSeconds.map fun seconds => toDouble (seconds * 1000)
  | _ => none

/-- What the server advises, else the backoff; neither is longer than the policy allows. -/
def delayMs (policy : RetryPolicy) (attempt : ℕ) (error : RiviskError) : ℚ :=
  min policy.maxDelayMs
    ((advisedMs error).getD (backoffDelay attempt policy (host.random attempt)))

/-- Repeat the call later, or give up. -/
def backOff (progress : Progress) (error : RiviskError) : State :=
  let mayRetry := error.status == 429 || call.idempotent
  match client.policy with
  | none => { progress with cancelled := false, phase := .threw (.rivisk error) }
  | some policy =>
      if !mayRetry || !error.retryable || client.maxRetries ≤ progress.attempt then
        { progress with cancelled := false, phase := .threw (.rivisk error) }
      else
        let info : RetryInfo :=
          { attempt := progress.attempt + 1
            delayMs := delayMs host policy progress.attempt error
            error := error
            method := call.method
            path := call.path }
        let progress := progress.record (.retrying info)
        match client.onRetry info with
        | some failure => { progress with cancelled := false, phase := .threw failure }
        | none =>
            if progress.aborted then
              { progress with cancelled := false, phase := .threw (.rivisk abortedAsleep) }
            else { progress with cancelled := false, phase := .sleeping info.delayMs }

/-- An attempt threw a `RiviskError`. -/
def caught (progress : Progress) (error : RiviskError) : State :=
  let progress := progress.record (.ended (some error.status))
  if error.status = 401 ∧ progress.refreshed = false ∧ call.options.skipAuthRefresh = false ∧
      client.onUnauthorized = true then
    -- One shot at refreshing a stale token before giving up on a 401.
    { ({ progress with refreshed := true }).record .unauthorized with
      cancelled := false
      phase := .refreshing error }
  else backOff host client call progress error

/-- An attempt starts, up to its first await. -/
def beginAttempt (progress : Progress) : State :=
  if progress.aborted then caught host client call progress abortedByCaller
  else { progress with cancelled := false, phase := .authorizing }

/-- `continue`. -/
def again (progress : Progress) : State :=
  beginAttempt host client call { progress with attempt := progress.attempt + 1 }

/-- The `catch` around `fetch`. -/
def fetchFailed (state : State) (cause : Cause) : State :=
  caught host client call state.toProgress
    (if state.aborted then abortedByCaller
    else if state.cancelled then timedOut client
    else networkError cause)

/-- `HttpClient.request`, up to its first await; the signal may be aborted already. -/
def request (aborted : Bool) : State :=
  beginAttempt host client call
    { attempt := 0
      refreshed := false
      aborted := aborted
      log := if aborted then [.aborted] else [] }

/-- The caller aborts: the listener of an attempt cancels it until `fetch` settles, and
a sleep is rejected. -/
def abort (state : State) : State :=
  let progress := ({ state.toProgress with aborted := true }).record .aborted
  match state.phase with
  | .authorizing | .fetching => { progress with cancelled := true, phase := state.phase }
  | .sleeping _ =>
      { progress with cancelled := state.cancelled, phase := .threw (.rivisk abortedAsleep) }
  | phase => { progress with cancelled := state.cancelled, phase := phase }

/-- The token is there: send the request, unless the attempt is cancelled. -/
def send (state : State) (token : Option Text) : State :=
  if state.cancelled then fetchFailed host client call state (some (ofString "aborted"))
  else
    match call.options.body with
    | some (.error cause) => fetchFailed host client call state cause
    | some (.ok body) =>
        { state.toProgress.record (.fetched (fetchRequest host client call token (some body))) with
          cancelled := state.cancelled
          phase := .fetching }
    | none =>
        { state.toProgress.record (.fetched (fetchRequest host client call token none)) with
          cancelled := state.cancelled
          phase := .fetching }

/-- The text of a response is there. -/
def finish (state : State) (response : Response) (text : Text) : State :=
  let body := bodyOf host text
  if response.ok then
    { state.toProgress.record (.ended (some response.status)) with
      cancelled := state.cancelled
      phase := .returned body }
  else caught host client call state.toProgress (errorOf host state.attempt response body)

/-- A hook or a body that rejects ends the call with what it was rejected with. -/
def rethrow (progress : Progress) (failure : Failure) : State :=
  { progress with cancelled := false, phase := .threw failure }

/-- One event of a call. -/
def next : Step State Event
  | state, .abort =>
      if call.options.signal = true ∧ state.aborted = false then some (abort state) else none
  | state, .timeout =>
      match state.phase with
      | .authorizing | .fetching => some { state with cancelled := true }
      | _ => none
  | state, .token result =>
      match state.phase, result with
      | .authorizing, .ok token => some (send host client call state token)
      | .authorizing, .error cause => some (fetchFailed host client call state cause)
      | _, _ => none
  | state, .answer result =>
      match state.phase, result with
      | .fetching, .ok response => some { state with phase := .reading response }
      | .fetching, .error cause => some (fetchFailed host client call state cause)
      | _, _ => none
  | state, .text result =>
      match state.phase, result with
      | .reading response, .ok text => some (finish host client call state response text)
      | .reading _, .error cause =>
          some (rethrow (state.toProgress.record (.ended none)) (.other cause))
      | _, _ => none
  | state, .refresh result =>
      match state.phase, result with
      | .refreshing _, .ok true =>
          some (again host client call (state.toProgress.record .renewed))
      | .refreshing error, .ok false => some (backOff host client call state.toProgress error)
      | .refreshing _, .error failure => some (rethrow state.toProgress failure)
      | _, _ => none
  | state, .wake =>
      match state.phase with
      | .sleeping _ => some { state with phase := .woken }
      | _ => none
  | state, .resume =>
      match state.phase with
      | .woken => some (again host client call state.toProgress)
      | _ => none

/-- What an event does to a call, by the phase that waits for it. -/
inductive Turn : State → Event → State → Prop where
  | abort {state : State} : Turn state .abort (abort state)
  | timeout {progress : Progress} {cancelled : Bool} {phase : Phase}
      (waiting : phase = .authorizing ∨ phase = .fetching) :
      Turn ⟨progress, cancelled, phase⟩ .timeout ⟨progress, true, phase⟩
  | token {progress : Progress} {cancelled : Bool} (token : Option Text) :
      Turn ⟨progress, cancelled, .authorizing⟩ (.token (.ok token))
        (send host client call ⟨progress, cancelled, .authorizing⟩ token)
  | tokenFailed {progress : Progress} {cancelled : Bool} (cause : Cause) :
      Turn ⟨progress, cancelled, .authorizing⟩ (.token (.error cause))
        (fetchFailed host client call ⟨progress, cancelled, .authorizing⟩ cause)
  | answer {progress : Progress} {cancelled : Bool} (response : Response) :
      Turn ⟨progress, cancelled, .fetching⟩ (.answer (.ok response))
        ⟨progress, cancelled, .reading response⟩
  | answerFailed {progress : Progress} {cancelled : Bool} (cause : Cause) :
      Turn ⟨progress, cancelled, .fetching⟩ (.answer (.error cause))
        (fetchFailed host client call ⟨progress, cancelled, .fetching⟩ cause)
  | text {progress : Progress} {cancelled : Bool} {response : Response} (text : Text) :
      Turn ⟨progress, cancelled, .reading response⟩ (.text (.ok text))
        (finish host client call ⟨progress, cancelled, .reading response⟩ response text)
  | textFailed {progress : Progress} {cancelled : Bool} {response : Response} (cause : Cause) :
      Turn ⟨progress, cancelled, .reading response⟩ (.text (.error cause))
        (rethrow (progress.record (.ended none)) (.other cause))
  | renewed {progress : Progress} {cancelled : Bool} {error : RiviskError} :
      Turn ⟨progress, cancelled, .refreshing error⟩ (.refresh (.ok true))
        (again host client call (progress.record .renewed))
  | refused {progress : Progress} {cancelled : Bool} {error : RiviskError} :
      Turn ⟨progress, cancelled, .refreshing error⟩ (.refresh (.ok false))
        (backOff host client call progress error)
  | refreshFailed {progress : Progress} {cancelled : Bool} {error : RiviskError}
      (failure : Failure) :
      Turn ⟨progress, cancelled, .refreshing error⟩ (.refresh (.error failure))
        (rethrow progress failure)
  | wake {progress : Progress} {cancelled : Bool} {delayMs : ℚ} :
      Turn ⟨progress, cancelled, .sleeping delayMs⟩ .wake ⟨progress, cancelled, .woken⟩
  | resume {progress : Progress} {cancelled : Bool} :
      Turn ⟨progress, cancelled, .woken⟩ .resume (again host client call progress)

variable {host client call}

theorem turn_of_next {source target : State} {event : Event}
    (step : next host client call source event = some target) :
    Turn host client call source event target := by
  rcases source with ⟨progress, cancelled, phase⟩
  cases event with
  | abort =>
      rw [next, Option.ite_none_right_eq_some] at step
      rcases step with ⟨-, stepped⟩
      cases stepped
      exact .abort
  | timeout =>
      cases phase with
      | authorizing =>
          cases step
          exact .timeout (.inl rfl)
      | fetching =>
          cases step
          exact .timeout (.inr rfl)
      | _ => cases step
  | token result =>
      cases phase with
      | authorizing =>
          cases result <;> cases step
          · exact .tokenFailed _
          · exact .token _
      | _ => cases step
  | answer result =>
      cases phase with
      | fetching =>
          cases result <;> cases step
          · exact .answerFailed _
          · exact .answer _
      | _ => cases step
  | text result =>
      cases phase with
      | reading response =>
          cases result <;> cases step
          · exact .textFailed _
          · exact .text _
      | _ => cases step
  | refresh result =>
      cases phase with
      | refreshing error =>
          rcases result with _ | _ | _ <;> cases step
          · exact .refreshFailed _
          · exact .refused
          · exact .renewed
      | _ => cases step
  | wake =>
      cases phase with
      | sleeping =>
          cases step
          exact .wake
      | _ => cases step
  | resume =>
      cases phase with
      | woken =>
          cases step
          exact .resume
      | _ => cases step

end RiskRail.Sdk.Http
