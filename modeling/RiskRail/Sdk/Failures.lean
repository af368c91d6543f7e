import RiskRail.Sdk.Patience

/-!
# What a call fails with

A timed call together with the deadline of its attempt.  The transport turns what goes wrong
up to the headers of a response into errors of its own; a body that fails or hangs, and a hook
that throws, are outside the block that does so and outside the timer.
-/

namespace RiskRail.Sdk.Http

open RiskRail.Javascript Text RiskRail.Transition

/-! ## Deadlines -/

/-- The timer of the attempt fires. -/
def Event.isTimeout : Event → Bool
  | .timeout => true
  | _ => false

/-- A body rejects, or the refresh hook with something else than a `RiviskError`. -/
def Event.isRejection : Event → Bool
  | .text (.error _) | .refresh (.error (.other _)) => true
  | _ => false

/-- What `onRetry` throws, if anything, is a `RiviskError`. -/
def HttpOptions.Quiet (client : HttpOptions) : Prop :=
  ∀ info, ∀ failure ∈ client.onRetry info, ∃ error, failure = .rivisk error

/-- The attempt awaits its auth header or `fetch`, and its timer runs. -/
def Phase.isWaiting : Phase → Bool
  | .authorizing | .fetching => true
  | _ => false

/-- The text of a response is awaited. -/
def Phase.isReading : Phase → Bool
  | .reading _ => true
  | _ => false

/-- A timed call and the moment the timer of its attempt is set for. -/
structure Clocked extends Timed where
  deadline : ℚ

variable (host : Host) (client : HttpOptions) (call : Call)

/-- The state after a timed step; each attempt sets a timer of its own. -/
def Clocked.after (state : Clocked) (timed : Timed) : Clocked where
  toTimed := timed
  deadline :=
    if timed.call.attempt = state.call.attempt then state.deadline
    else timed.now + timerMs client.timeout

/-- A timer fires neither before it is due nor behind an event that comes later. -/
def clocked : Step Clocked TimedEvent
  | state, event =>
      if event.event.isTimeout = true ∧ state.now + event.elapsed < state.deadline ∨
          event.event.isTimeout = false ∧ state.call.phase.isWaiting = true ∧
            state.call.cancelled = false ∧ state.deadline < state.now + event.elapsed then none
      else (timed host client call state.toTimed event).map (state.after client)

/-- The call up to its first await, with the timer set. -/
def start (aborted : Bool) : Clocked where
  toTimed := begin host client call aborted
  deadline := timerMs client.timeout

variable {host client call}

theorem clocked_eq_some {source target : Clocked} {event : TimedEvent}
    (step : clocked host client call source event = some target) :
    (event.event.isTimeout = false → source.call.phase.isWaiting = true →
      source.call.cancelled = false → source.now + event.elapsed ≤ source.deadline) ∧
      ∃ after, next host client call source.call event.event = some after ∧
        target.call = after ∧ target.now = source.now + event.elapsed ∧
        target.deadline = if after.attempt = source.call.attempt then source.deadline
          else target.now + timerMs client.timeout := by
  unfold clocked at step
  dsimp only at step
  split at step
  · cases step
  next punctual =>
    obtain ⟨middle, stepped, rfl⟩ := Option.map_eq_some_iff.mp step
    obtain ⟨-, after, moved, rfl⟩ := timed_eq_some stepped
    refine ⟨fun other waiting running => not_lt.mp fun late => ?_, after, moved, rfl, rfl, rfl⟩
    exact punctual (.inr ⟨other, waiting, running, late⟩)

/-! ## What a step can do -/

/-- Where a failed attempt leads within the call. -/
def Phase.FollowsFailure : Phase → Prop
  | .refreshing _ | .sleeping _ | .threw (.rivisk _) => True
  | _ => False

variable (host) in
/-- The steps of a call, as far as its phases go. -/
inductive Move (source : State) (event : Event) (target : State) : Prop where
  /-- An abort or the timer. -/
  | stay (phase : target.phase = source.phase) (attempt : target.attempt = source.attempt)
      (running : target.cancelled = false → source.cancelled = false ∧ event.isTimeout = false)
  | send (waiting : source.phase = .authorizing) (running : source.cancelled = false)
      (token : event.isTimeout = false) (attempt : target.attempt = source.attempt)
      (phase : target.phase = .fetching)
  | receive (response : Response) (answer : event = .answer (.ok response))
      (attempt : target.attempt = source.attempt) (phase : target.phase = .reading response)
  | finish (response : Response) (text : Text) (reading : source.phase = .reading response)
      (read : event = .text (.ok text)) (ok : response.ok = true)
      (phase : target.phase = .returned (bodyOf host text))
  /-- A rejection that is no `RiviskError` is passed on as it is. -/
  | rethrow (cause : Cause) (rejected : event.isRejection = true)
      (phase : target.phase = .threw (.other cause))
  | wake (phase : target.phase = .woken)
  | fail (phase : target.phase.FollowsFailure)
  | again (phase : target.phase = .authorizing) (attempt : target.attempt = source.attempt + 1)

section Pieces

variable {progress : Progress} {error : RiviskError}
variable (quiet : client.Quiet)
include quiet

theorem follows_backOff : (backOff host client call progress error).phase.FollowsFailure := by
  unfold backOff
  dsimp only
  split
  next => trivial
  next policy _ =>
    split
    next => trivial
    next =>
      split
      next failure thrown =>
        obtain ⟨error, rfl⟩ := quiet _ failure thrown
        trivial
      next => split <;> trivial

theorem follows_caught : (caught host client call progress error).phase.FollowsFailure := by
  unfold caught
  dsimp only
  split
  next => trivial
  next => exact follows_backOff quiet

theorem move_again {source : State} {event : Event}
    (progress_eq : progress.attempt = source.attempt) :
    Move host source event (again host client call progress) := by
  unfold again beginAttempt
  split
  next => exact .fail (follows_caught quiet)
  next => exact .again rfl (congrArg (· + 1) progress_eq)

theorem move_fetchFailed {source : State} {event : Event} (cause : Cause) :
    Move host source event (fetchFailed host client call source cause) :=
  .fail (follows_caught quiet)

theorem move_send {source : State} {event : Event} (authorizing : source.phase = .authorizing)
    (token : event.isTimeout = false) (value : Option Text) :
    Move host source event (send host client call source value) := by
  unfold send
  split
  next => exact move_fetchFailed quiet _
  next running =>
    split
    next => exact move_fetchFailed quiet _
    next => exact .send authorizing (Bool.eq_false_iff.mpr running) token rfl rfl
    next => exact .send authorizing (Bool.eq_false_iff.mpr running) token rfl rfl

theorem move_finish {source : State} {response : Response} {text : Text}
    (reading : source.phase = .reading response) :
    Move host source (.text (.ok text)) (finish host client call source response text) := by
  unfold finish
  dsimp only
  split
  next ok => exact .finish response text reading rfl ok rfl
  next => exact .fail (follows_caught quiet)

omit quiet in
theorem move_abort {source : State} : Move host source .abort (abort source) := by
  rcases source with ⟨progress, cancelled, phase⟩
  cases phase with
  | authorizing | fetching => exact .stay rfl rfl fun running => nomatch running
  | sleeping => exact .fail trivial
  | _ => exact .stay rfl rfl fun running => ⟨running, rfl⟩

theorem move_of_next {source target : State} {event : Event}
    (step : next host client call source event = some target) : Move host source event target := by
  cases turn_of_next step with
  | abort => exact move_abort
  | timeout waiting =>
      refine .stay rfl rfl ?_
      intro running
      cases running
  | token token => exact move_send quiet rfl rfl _
  | tokenFailed cause => exact move_fetchFailed quiet _
  | answer response => exact .receive _ rfl rfl rfl
  | answerFailed cause => exact move_fetchFailed quiet _
  | text text => exact move_finish quiet rfl
  | textFailed cause => exact .rethrow _ rfl rfl
  | renewed => exact move_again quiet rfl
  | refused => exact .fail (follows_backOff quiet)
  | refreshFailed failure =>
      cases failure with
      | rivisk error => exact .fail trivial
      | other cause => exact .rethrow cause rfl rfl
  | wake => exact .wake rfl
  | resume => exact move_again quiet rfl

end Pieces

/-! ## Attempts that are out of time -/

/-- An attempt whose controller is cancelled ends, if no response comes, in a timeout. -/
theorem next_of_cancelled {source target : State} {event : Event}
    (waiting : source.phase.isWaiting = true) (cancelled : source.cancelled = true)
    (step : next host client call source event = some target) :
    target.phase = source.phase ∨ (∃ response, event = .answer (.ok response)) ∨
      ∃ error : RiviskError, error.kind = .timeout ∧
        target = caught host client call source.toProgress error := by
  have failed (cause : Cause) : ∃ error : RiviskError, error.kind = .timeout ∧
      fetchFailed host client call source cause =
        caught host client call source.toProgress error := by
    unfold fetchFailed
    rw [cancelled]
    split
    next => exact ⟨abortedByCaller, rfl, rfl⟩
    next => exact ⟨timedOut client, rfl, rfl⟩
  cases turn_of_next step with
  | abort =>
      rcases source with ⟨progress, _, phase⟩
      cases phase with
      | authorizing | fetching => exact .inl rfl
      | _ => cases waiting
  | timeout => exact .inl rfl
  | token token =>
      cases cancelled
      exact .inr (.inr (failed _))
  | tokenFailed cause | answerFailed cause => exact .inr (.inr (failed _))
  | answer response => exact .inr (.inl ⟨_, rfl⟩)
  | _ => cases waiting

/-- The timer only cancels. -/
theorem phase_of_timeout {source target : State} {event : Event} (timer : event.isTimeout = true)
    (step : next host client call source event = some target) : target.phase = source.phase := by
  cases turn_of_next step with
  | timeout => rfl
  | _ => cases timer

/-! ## Runs -/

/-- The headers of a response arrive. -/
def Event.isAnswer : Event → Bool
  | .answer (.ok _) => true
  | _ => false

/-- No body rejects, nor the refresh hook with something else than a `RiviskError`, and a
response that arrives is read by the deadline of its attempt. -/
structure Covered (state : Clocked) (event : TimedEvent) : Prop where
  settles : event.event.isRejection = false
  in_time : state.call.phase.isReading = true ∨ event.event.isAnswer = true →
    state.now + event.elapsed ≤ state.deadline

instance Covered.decidable (state : Clocked) (event : TimedEvent) :
    Decidable (Covered state event) :=
  decidable_of_iff (event.event.isRejection = false ∧
      (state.call.phase.isReading = true ∨ event.event.isAnswer = true →
        state.now + event.elapsed ≤ state.deadline))
    ⟨fun both => ⟨both.1, both.2⟩, fun covered => ⟨covered.settles, covered.in_time⟩⟩

/-- What the call has failed with so far is an error of its own, and time does not run out
unnoticed. -/
structure Kept (state : Clocked) : Prop where
  threw : ∀ failure, state.call.phase = .threw failure → ∃ error, failure = .rivisk error
  reading : state.call.phase.isReading = true → state.now ≤ state.deadline
  waiting : state.call.phase.isWaiting = true → state.call.cancelled = false →
    state.now ≤ state.deadline

theorem Kept.of_phase {state : Clocked} {phase : Phase} (phase_eq : state.call.phase = phase)
    (threw : ∀ failure, phase = .threw failure → ∃ error, failure = .rivisk error)
    (reading : phase.isReading = false) (waiting : phase.isWaiting = false) : Kept state where
  threw := by rwa [phase_eq]
  reading := by
    rw [phase_eq, reading]
    exact fun contradiction => nomatch contradiction
  waiting := by
    rw [phase_eq, waiting]
    exact fun contradiction => nomatch contradiction

theorem Kept.of_follows {state : Clocked} (follows : state.call.phase.FollowsFailure) :
    Kept state := by
  cases phase : state.call.phase with
  | refreshing | sleeping =>
      exact .of_phase phase (fun failure is_threw => nomatch is_threw) rfl rfl
  | threw failure =>
      rw [phase] at follows
      cases failure with
      | rivisk error =>
          refine .of_phase phase (fun failure is_threw => ?_) rfl rfl
          exact ⟨error, (Phase.threw.inj is_threw).symm⟩
      | other => exact follows.elim
  | _ =>
      rw [phase] at follows
      exact follows.elim

/-- A call in an attempt that is not over. -/
theorem Kept.of_in_time {state : Clocked} (not_threw : ∀ failure, state.call.phase ≠ .threw failure)
    (in_time : state.call.phase.isReading = true ∨
      state.call.phase.isWaiting = true ∧ state.call.cancelled = false →
        state.now ≤ state.deadline) : Kept state where
  threw := fun failure is_threw => absurd is_threw (not_threw failure)
  reading := fun reading => in_time (.inl reading)
  waiting := fun waiting running => in_time (.inr ⟨waiting, running⟩)

theorem Kept.step (quiet : client.Quiet) {source target : Clocked}
    {event : TimedEvent} (kept : Kept source) (covered : Covered source event)
    (step : clocked host client call source event = some target) : Kept target := by
  obtain ⟨punctual, after, stepped, rfl, now_eq, deadline_eq⟩ := clocked_eq_some step
  have same (attempt : target.call.attempt = source.call.attempt) :
      target.deadline = source.deadline := by
    rw [deadline_eq, if_pos attempt]
  cases move_of_next quiet stepped with
  | stay phase attempt running =>
      refine ⟨phase ▸ kept.threw, fun reading => ?_, fun waiting uncancelled => ?_⟩
      · rw [now_eq, same attempt]
        exact covered.in_time (.inl (phase ▸ reading))
      · rcases running uncancelled with ⟨running, other⟩
        rw [now_eq, same attempt]
        exact punctual other (phase ▸ waiting) running
  | send authorizing running token attempt phase =>
      refine .of_in_time (fun failure is_threw => nomatch phase.symm.trans is_threw) fun _ => ?_
      rw [now_eq, same attempt]
      exact punctual token (by rw [authorizing]; rfl) running
  | receive response answer attempt phase =>
      refine .of_in_time (fun failure is_threw => nomatch phase.symm.trans is_threw) fun _ => ?_
      rw [now_eq, same attempt]
      exact covered.in_time (.inr (by rw [answer]; rfl))
  | finish response text reading read ok phase =>
      exact .of_phase phase (fun failure is_threw => nomatch is_threw) rfl rfl
  | rethrow cause rejected phase =>
      cases rejected.symm.trans covered.settles
  | wake phase => exact .of_phase phase (fun failure is_threw => nomatch is_threw) rfl rfl
  | fail phase => exact .of_follows phase
  | again phase attempt =>
      refine .of_in_time (fun failure is_threw => nomatch phase.symm.trans is_threw) fun _ => ?_
      rw [deadline_eq, if_neg (by omega)]
      exact le_add_of_nonneg_right (timerMs_nonneg _)

theorem start_phase (quiet : client.Quiet) (aborted : Bool) :
    (start host client call aborted).call.phase = .authorizing ∨
      (start host client call aborted).call.phase.FollowsFailure := by
  cases aborted with
  | true =>
      have failed : (start host client call true).call =
          caught host client call ⟨0, false, true, [.aborted]⟩ abortedByCaller := rfl
      exact .inr (failed ▸ follows_caught quiet)
  | false => exact .inl rfl

theorem kept_start (quiet : client.Quiet) (aborted : Bool) :
    Kept (start host client call aborted) := by
  rcases start_phase quiet aborted with authorizing | follows
  · exact .of_in_time (fun failure is_threw => nomatch authorizing.symm.trans is_threw)
      fun _ => timerMs_nonneg _
  · exact .of_follows follows

variable (host client call) in
/-- The body is what the text of a 2xx response reads as. -/
def Parsed (aborted : Bool) (run : List TimedEvent) (body : Option Json) : Prop :=
  ∃ before event after middle response text, run = before ++ event :: after ∧
    exec (clocked host client call) (start host client call aborted) before = some middle ∧
    middle.call.phase = .reading response ∧ event.event = .text (.ok text) ∧
    response.ok = true ∧ body = bodyOf host text

/-- A call returns in the step that reads the text. -/
theorem parsed_of_returned (quiet : client.Quiet) {aborted : Bool}
    {run : List TimedEvent} {state : Clocked} {body : Option Json}
    (reached : exec (clocked host client call) (start host client call aborted) run = some state)
    (returned : state.call.phase = .returned body) : Parsed host client call aborted run body := by
  have initial : ¬(start host client call aborted).call.phase = .returned body := by
    intro returned
    rcases start_phase quiet aborted with authorizing | follows
    · cases authorizing.symm.trans returned
    · rw [returned] at follows
      exact follows
  obtain ⟨before, event, after, middle, last, split, first, fails, step, arises⟩ :=
    @exec_arises _ _ _ (fun state => state.call.phase = .returned body) _ _ _ reached initial
      returned
  obtain ⟨-, moved, stepped, rfl, -⟩ := clocked_eq_some step
  cases move_of_next quiet stepped with
  | finish response text reading read ok phase =>
      exact ⟨before, event, after, middle, response, text, split, first, reading, read, ok,
        Phase.returned.inj (arises.symm.trans phase)⟩
  | stay phase => exact absurd (phase.symm.trans arises) fails
  | fail phase =>
      rw [arises] at phase
      exact phase.elim
  | send _ _ _ _ phase | receive _ _ _ phase | rethrow _ _ phase | wake phase | again phase =>
      cases phase.symm.trans arises

/-! ## What comes of a call -/

/-- The attempt is not over. -/
def Phase.isOpen (phase : Phase) : Bool :=
  phase.isWaiting || phase.isReading

variable (host client call) in
/-- What a call settles with, and what becomes of an attempt that is out of time. -/
structure Reported (aborted : Bool) (run : List TimedEvent) (state : Clocked) : Prop where
  returned : ∀ body, state.call.phase = .returned body → Parsed host client call aborted run body
  threw : ∀ failure, state.call.phase = .threw failure → ∃ error, failure = .rivisk error
  reading : ∀ response, state.call.phase = .reading response → state.now ≤ state.deadline
  late : ∀ event target, Covered state event →
    clocked host client call state event = some target → state.call.phase.isOpen = true →
    state.deadline < target.now → target.call.phase = state.call.phase ∨
      ∃ error : RiviskError, error.kind = .timeout ∧
        target.call = caught host client call state.call.toProgress error

/-- In a run that stays covered a call returns the parsed body of a 2xx response or throws a
`RiviskError`, no response is read past the deadline of its attempt, and an attempt that ends
past it ends in a `RiviskTimeoutError`. -/
theorem reported_of_covered (quiet : client.Quiet) {aborted : Bool}
    {run : List TimedEvent} {state : Clocked}
    (along : Along (clocked host client call) Covered (start host client call aborted) run)
    (reached : exec (clocked host client call) (start host client call aborted) run = some state) :
    Reported host client call aborted run state := by
  have kept : Kept state :=
    along.invariant (fun kept covered step => Kept.step quiet kept covered step) reached
      (kept_start quiet aborted)
  refine ⟨fun body returned => parsed_of_returned quiet reached returned, kept.threw,
    fun response reading => kept.reading (by rw [reading]; rfl), ?_⟩
  intro event target covered step is_open late
  obtain ⟨punctual, after, stepped, rfl, now_eq, -⟩ := clocked_eq_some step
  rw [now_eq] at late
  have waiting : state.call.phase.isWaiting = true := by
    rcases Bool.or_eq_true_iff.mp is_open with waiting | reading
    · exact waiting
    · exact absurd (covered.in_time (.inl reading)) (not_le.mpr late)
  cases cancelled : state.call.cancelled with
  | true =>
      rcases next_of_cancelled waiting cancelled stepped with same | ⟨response, answer⟩ | ended
      · exact .inl same
      · exact absurd (covered.in_time (.inr (by rw [answer]; rfl))) (not_le.mpr late)
      · exact .inr ended
  | false =>
      cases timer : event.event.isTimeout with
      | false => exact absurd (punctual timer waiting cancelled) (not_le.mpr late)
      | true => exact .inl (phase_of_timeout timer stepped)

/-! ## A body that fails and one that hangs -/

/-- A client without options. -/
def bareClient : HttpOptions where
  baseUrl := ofString "https://api.example.com/api/v1"

/-- An event some milliseconds later. -/
def TimedEvent.later (event : Event) (elapsed : ℕ) : TimedEvent where
  event := event
  elapsed := elapsed
  elapsed_nonneg := Nat.cast_nonneg _

/-- The headers of a 200 are there after half a second. -/
def headersRun : List TimedEvent :=
  [.later (.token (.ok none)) 0, .later (.answer (.ok { status := 200, statusText := [] })) 500]

/-- The connection is lost within the body. -/
def brokenRun : List TimedEvent :=
  headersRun ++ [.later (.text (.error (some (ofString "terminated")))) 10]

/-- The body takes a minute. -/
def hangingRun : List TimedEvent :=
  headersRun ++ [.later (.text (.ok [])) 60000]

/-- No answer comes, and the timer fires. -/
def silentRun : List TimedEvent :=
  [.later (.token (.ok none)) 0, .later .timeout 30000,
    .later (.answer (.error (some (ofString "aborted")))) 0]

/-- A call that is not idempotent. -/
def markets : Call where
  method := ofString "POST"
  path := ofString "/markets"

/-- What a call throws that is no error of its own. -/
def Phase.rawCause : Phase → Option Cause
  | .threw (.other cause) => some cause
  | _ => none

/-- The call returned. -/
def Phase.isReturned : Phase → Bool
  | .returned _ => true
  | _ => false

/-- The failure of a body is thrown as it is, and a body that takes longer than the timeout is
returned. -/
theorem broken_and_hanging :
    (∃ state, exec (clocked quietHost bareClient markets)
        (start quietHost bareClient markets false) brokenRun = some state ∧
      state.call.phase.rawCause = some (some (ofString "terminated"))) ∧
    ∃ state, exec (clocked quietHost bareClient markets)
        (start quietHost bareClient markets false) hangingRun = some state ∧
      state.call.phase.isReturned = true ∧ state.deadline < state.now := by
  have broken : (exec (clocked quietHost bareClient markets)
      (start quietHost bareClient markets false) brokenRun).map
        (fun state => state.call.phase.rawCause) = some (some (some (ofString "terminated"))) := by
    decide +kernel
  have hanging : (exec (clocked quietHost bareClient markets)
      (start quietHost bareClient markets false) hangingRun).map
        (fun state => (state.call.phase.isReturned, decide (state.deadline < state.now))) =
          some (true, true) := by
    decide +kernel
  obtain ⟨state, reached, both⟩ := Option.map_eq_some_iff.mp hanging
  rw [Prod.mk.injEq, decide_eq_true_iff] at both
  exact ⟨Option.map_eq_some_iff.mp broken, state, reached, both⟩

theorem reported_silent :
    ∃ state, exec (clocked quietHost bareClient markets)
        (start quietHost bareClient markets false) silentRun = some state ∧
      state.call.phase.isOver = true ∧
      Reported quietHost bareClient markets false silentRun state := by
  have silent : (exec (clocked quietHost bareClient markets)
      (start quietHost bareClient markets false) silentRun).map
        (fun state => state.call.phase.isOver) = some true := by
    decide +kernel
  obtain ⟨state, reached, ended⟩ := Option.map_eq_some_iff.mp silent
  have quiet : bareClient.Quiet := by
    intro info failure thrown
    cases thrown
  exact ⟨state, reached, ended, reported_of_covered quiet (by decide +kernel) reached⟩

end RiskRail.Sdk.Http
