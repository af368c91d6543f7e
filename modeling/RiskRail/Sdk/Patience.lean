import RiskRail.Sdk.Repeats

/-!
# How long a call waits

A call together with the time.  Time passes between the events of a call, and the timer
of a sleep does not fire before the delay it was set for, in whole milliseconds.  What
the server advises is waited for as far as the policy and the timer reach.
-/

namespace RiskRail.Sdk.Http

open RiskRail.Javascript Text RiskRail.Numeric RiskRail.Transition

/-! ## Timed calls -/

/-- What `setTimeout` makes of a delay: whole milliseconds, and one where it is out of
range. -/
def timerMs (delay : ℚ) : ℚ :=
  if 1 ≤ delay ∧ delay ≤ 2147483647 then ⌊delay⌋ else 1

/-- A call and the clock. -/
structure Timed where
  call : State
  /-- Milliseconds. -/
  now : ℚ
  /-- The timer of the last sleep does not fire before. -/
  due : ℚ

/-- An event after some milliseconds. -/
structure TimedEvent where
  event : Event
  elapsed : ℚ
  elapsed_nonneg : 0 ≤ elapsed

/-- The timer of a sleep fires. -/
def Event.isWake : Event → Bool
  | .wake => true
  | _ => false

variable (host : Host) (client : HttpOptions) (call : Call)

/-- The state after an event at a moment. -/
def Timed.after (state : Timed) (now : ℚ) (call : State) : Timed where
  call := call
  now := now
  due :=
    match call.phase with
    | .sleeping delay => now + timerMs delay
    | _ => state.due

/-- A sleep is not over before it is due. -/
def timed : Step Timed TimedEvent
  | state, ⟨event, elapsed, _⟩ =>
      if event.isWake = true ∧ state.now + elapsed < state.due then none
      else (next host client call state.call event).map (state.after (state.now + elapsed))

/-- A call begins. -/
def begin (aborted : Bool) : Timed where
  call := request host client call aborted
  now := 0
  due := 0

variable {host client call}

theorem timed_eq_some {source target : Timed} {event : TimedEvent}
    (step : timed host client call source event = some target) :
    (event.event = .wake → source.due ≤ source.now + event.elapsed) ∧
      ∃ after, next host client call source.call event.event = some after ∧
        target = source.after (source.now + event.elapsed) after := by
  unfold timed at step
  dsimp only at step
  split at step
  · cases step
  next early =>
    obtain ⟨after, stepped, rfl⟩ := Option.map_eq_some_iff.mp step
    refine ⟨fun wake => not_lt.mp fun lt => early ⟨?_, lt⟩, after, stepped, rfl⟩
    rw [wake]
    rfl

/-! ## Waiting -/

/-- The call has ended. -/
def Phase.isOver : Phase → Bool
  | .returned _ | .threw _ => true
  | _ => false

/-- The call sleeps. -/
def Phase.isAsleep : Phase → Bool
  | .sleeping _ => true
  | _ => false

/-- The moment has come, or the call sleeps until then, or it is over. -/
def Patient (moment : ℚ) (state : Timed) : Prop :=
  moment ≤ state.now ∨ (state.call.phase.isAsleep = true ∧ moment ≤ state.due) ∨
    state.call.phase.isOver = true

/-- An abort is all that happens to a call that is over. -/
theorem next_of_isOver {source target : State} {event : Event} (ended : source.phase.isOver = true)
    (step : next host client call source event = some target) :
    target.phase.isOver = true ∧ target.log = .aborted :: source.log := by
  cases turn_of_next step with
  | abort =>
      rcases source with ⟨progress, cancelled, phase⟩
      cases phase with
      | returned | threw => exact ⟨rfl, rfl⟩
      | _ => cases ended
  | timeout waiting => rcases waiting with rfl | rfl <;> cases ended
  | _ => cases ended

/-- A sleep ends with the timer or with an abort. -/
theorem next_of_isAsleep {source target : State} {event : Event}
    (asleep : source.phase.isAsleep = true)
    (step : next host client call source event = some target) :
    event = .wake ∧ target.log = source.log ∨
      target.phase.isOver = true ∧ target.log = .aborted :: source.log := by
  cases turn_of_next step with
  | abort =>
      rcases source with ⟨progress, cancelled, phase⟩
      cases phase with
      | sleeping => exact .inr ⟨rfl, rfl⟩
      | _ => cases asleep
  | timeout waiting => rcases waiting with rfl | rfl <;> cases asleep
  | wake => exact .inl ⟨rfl, rfl⟩
  | _ => cases asleep

/-- A call that is patient stays so, and sends nothing before the moment. -/
theorem Patient.step {moment : ℚ} {source target : Timed} {event : TimedEvent}
    (patient : Patient moment source)
    (step : timed host client call source event = some target) :
    Patient moment target ∧
      ∀ request, target.call.log = .fetched request :: source.call.log → moment ≤ target.now := by
  obtain ⟨wakes, after, stepped, rfl⟩ := timed_eq_some step
  rcases patient with come | ⟨asleep, due⟩ | ended
  · have come' : moment ≤ source.now + event.elapsed :=
      le_add_of_le_of_nonneg come event.elapsed_nonneg
    exact ⟨.inl come', fun _ _ => come'⟩
  · rcases next_of_isAsleep asleep stepped with ⟨wake, log⟩ | ⟨ended, log⟩
    · have come : moment ≤ source.now + event.elapsed := due.trans (wakes wake)
      exact ⟨.inl come, fun _ _ => come⟩
    · exact ⟨.inr (.inr ended), fun _ logged => nomatch log.symm.trans logged⟩
  · obtain ⟨ended, log⟩ := next_of_isOver ended stepped
    exact ⟨.inr (.inr ended), fun _ logged => nomatch log.symm.trans logged⟩

/-! ## After a 429 -/

theorem number_nil : number [] = some 0 := by
  decide

/-- The header gives a number of seconds. -/
theorem parseRetryAfter_of_number {now seconds : ℚ} {value : Text}
    (numeric : number value = some seconds) (positive : 0 < seconds) :
    parseRetryAfter host now (some value) = some seconds := by
  have nonempty : value ≠ [] := by
    rintro rfl
    cases numeric.symm.trans number_nil
    exact lt_irrefl 0 positive
  cases value with
  | nil => exact absurd rfl nonempty
  | cons unit rest =>
      rw [parseRetryAfter, numeric, Option.filter_some, if_pos (decide_eq_true positive.le)]
      simp

/-- Backing off ends the call or puts it to sleep for the delay. -/
theorem backOff_phase {policy : RetryPolicy} (policy_eq : client.policy = some policy)
    (progress : Progress) (error : RiviskError) :
    (backOff host client call progress error).phase.isOver = true ∨
      progress.attempt < policy.maxRetries ∧
        (backOff host client call progress error).phase =
          .sleeping (delayMs host policy progress.attempt error) := by
  have retries : client.maxRetries = policy.maxRetries := by
    rw [HttpOptions.maxRetries, policy_eq]
    rfl
  unfold backOff
  rw [policy_eq]
  dsimp only
  split
  next => exact .inl rfl
  next goes_on =>
    simp only [Bool.or_eq_true, decide_eq_true_eq, not_or, not_le] at goes_on
    split
    next => exact .inl rfl
    next =>
      split
      next => exact .inl rfl
      next => exact .inr ⟨retries ▸ goes_on.2, rfl⟩

/-- How long the policy sleeps when it is advised to wait for some seconds. -/
def RetryPolicy.waitMs (policy : RetryPolicy) (seconds : ℚ) : ℚ :=
  min policy.maxDelayMs (toDouble (seconds * 1000))

theorem delayMs_errorOf (policy : RetryPolicy) {attempt : ℕ} {response : Response}
    {body : Option Json} {value : Text} {seconds : ℚ} (tooMany : response.status = 429)
    (header : response.retryAfter = some value) (numeric : number value = some seconds)
    (positive : 0 < seconds) :
    delayMs host policy attempt (errorOf host attempt response body) = policy.waitMs seconds := by
  have kind : (errorOf host attempt response body).kind = .rateLimit (some seconds) := by
    rw [errorOf, if_pos tooMany, header, parseRetryAfter_of_number numeric positive]
  have advised : advisedMs (errorOf host attempt response body) =
      some (toDouble (seconds * 1000)) := by
    rw [advisedMs, kind]
    rfl
  rw [delayMs, advised]
  rfl

theorem next_text {state : State} {response : Response} {text : Text}
    (reading : state.phase = .reading response) :
    next host client call state (.text (.ok text)) =
      some (finish host client call state response text) := by
  rcases state with ⟨progress, cancelled, phase⟩
  cases reading
  rfl

variable (host call) in
/-- A refused attempt ends the call or puts it to sleep. -/
theorem finish_phase {policy : RetryPolicy} (policy_eq : client.policy = some policy)
    (state : State) {response : Response} (text : Text) {value : Text} {seconds : ℚ}
    (tooMany : response.status = 429) (header : response.retryAfter = some value)
    (numeric : number value = some seconds) (positive : 0 < seconds) :
    (finish host client call state response text).phase.isOver = true ∨
      state.attempt < policy.maxRetries ∧
        (finish host client call state response text).phase =
          .sleeping (policy.waitMs seconds) := by
  have failed : ¬response.ok = true := by
    rw [Response.ok, tooMany]
    decide
  have limited : ¬(errorOf host state.attempt response (bodyOf host text)).status = 401 := by
    intro unauthorized
    cases tooMany.symm.trans unauthorized
  unfold finish
  dsimp only
  rw [if_neg failed]
  unfold caught
  dsimp only
  rw [if_neg fun asks => limited asks.1]
  rcases backOff_phase policy_eq
      (state.toProgress.record
        (.ended (some (errorOf host state.attempt response (bodyOf host text)).status)))
      (errorOf host state.attempt response (bodyOf host text)) with ended | ⟨lt, asleep⟩
  · exact .inl ended
  · refine .inr ⟨lt, asleep.trans (congrArg Phase.sleeping ?_)⟩
    exact delayMs_errorOf policy tooMany header numeric positive

/-- The advice is within what the policy and the timer can wait, and multiplying it by a
thousand does not cut it. -/
def RetryPolicy.Waits (policy : RetryPolicy) (seconds : ℚ) : Prop :=
  policy.maxRetries = 0 ∨ seconds * 1000 ≤ 1 ∨
    seconds * 1000 ≤ ⌊policy.maxDelayMs⌋ ∧ seconds * 1000 ≤ 2147483647 ∧
      seconds * 1000 ≤ ⌊toDouble (seconds * 1000)⌋

/-- No double beyond the longest timer comes from a number within it. -/
theorem toDouble_le_longest {x : ℚ} (le : x ≤ 2147483647) : toDouble x ≤ 2147483647 :=
  calc
    toDouble x ≤ toDouble (2147483647 : ℕ) :=
      Arithmetic.decimalJs.toNumber_monotone (le.trans_eq (by norm_num))
    _ = 2147483647 := by
      rw [toDouble_of_safe (by decide)]
      norm_num

/-- The timer of a sleep is long enough exactly in these cases. -/
theorem le_timerMs_waitMs_iff (policy : RetryPolicy) {seconds : ℚ} :
    seconds * 1000 ≤ timerMs (policy.waitMs seconds) ↔
      seconds * 1000 ≤ 1 ∨
        seconds * 1000 ≤ ⌊policy.maxDelayMs⌋ ∧ seconds * 1000 ≤ 2147483647 ∧
          seconds * 1000 ≤ ⌊toDouble (seconds * 1000)⌋ := by
  have floor_eq : ⌊policy.waitMs seconds⌋ =
      min ⌊policy.maxDelayMs⌋ ⌊toDouble (seconds * 1000)⌋ := Int.floor_mono.map_min
  have whole : (⌊policy.waitMs seconds⌋ : ℚ) ≤ policy.waitMs seconds := Int.floor_le _
  constructor
  · intro le
    rw [timerMs] at le
    split at le
    next range =>
      have cap : ⌊policy.waitMs seconds⌋ ≤ ⌊policy.maxDelayMs⌋ := floor_eq ▸ min_le_left ..
      have kept : ⌊policy.waitMs seconds⌋ ≤ ⌊toDouble (seconds * 1000)⌋ :=
        floor_eq ▸ min_le_right ..
      exact .inr ⟨le.trans (Int.cast_le.mpr cap), (le.trans whole).trans range.2,
        le.trans (Int.cast_le.mpr kept)⟩
    next => exact .inl le
  · rintro (small | ⟨cap, longest, kept⟩)
    · rw [timerMs]
      split
      next range =>
        have positive : 1 ≤ ⌊policy.waitMs seconds⌋ := Int.le_floor.mpr (by exact_mod_cast range.1)
        exact small.trans (by exact_mod_cast positive)
      next => exact small
    · have upper : policy.waitMs seconds ≤ 2147483647 :=
        (min_le_right ..).trans (toDouble_le_longest longest)
      have within : seconds * 1000 ≤ ⌊policy.waitMs seconds⌋ := by
        rw [floor_eq, Int.cast_min]
        exact le_min cap kept
      rw [timerMs]
      split
      next => exact within
      next out =>
        have short : policy.waitMs seconds < 1 := not_le.mp fun long => out ⟨long, upper⟩
        exact (within.trans whole).trans short.le

variable (host client call) in
/-- An attempt is refused with 429 and this header. -/
def Refuses (value : Text) (source target : Timed) : Prop :=
  ∃ event response text, event.event = .text (.ok text) ∧
    source.call.phase = .reading response ∧ response.status = 429 ∧
    response.retryAfter = some value ∧ timed host client call source event = some target

variable (host client call) in
/-- A request is sent. -/
def Sends (source target : Timed) : Prop :=
  ∃ event request, timed host client call source event = some target ∧
    target.call.log = .fetched request :: source.call.log

/-- A call under the policy is refused with this header and sends a request later. -/
def Resends (policy : RetryPolicy) (value : Text) (refused sent : Timed) : Prop :=
  ∃ (host : Host) (client : HttpOptions) (call : Call) (aborted : Bool)
      (before later : List TimedEvent) (reading sending : Timed),
    client.policy = some policy ∧
    exec (timed host client call) (begin host client call aborted) before = some reading ∧
    Refuses host client call value reading refused ∧
    exec (timed host client call) refused later = some sending ∧
    Sends host client call sending sent

/-- After a 429 with this header nothing is sent until so many seconds have passed. -/
def Honours (policy : RetryPolicy) (value : Text) (seconds : ℚ) : Prop :=
  ∀ refused sent, Resends policy value refused sent → refused.now + seconds * 1000 ≤ sent.now

/-- A call that is patient sends nothing before the moment. -/
theorem Patient.le_of_sends {moment : ℚ} {source sending sent : Timed} {later : List TimedEvent}
    (patient : Patient moment source)
    (run : exec (timed host client call) source later = some sending)
    (sends : Sends host client call sending sent) : moment ≤ sent.now := by
  have patient : Patient moment sending :=
    exec_invariant (fun patient step => (Patient.step patient step).1) run patient
  obtain ⟨event, request, step, logged⟩ := sends
  exact (patient.step step).2 request logged

/-- A refused call is ended, or it sleeps at least as long as its timer. -/
theorem Refuses.patient {policy : RetryPolicy} (policy_eq : client.policy = some policy)
    {value : Text} {seconds : ℚ} (numeric : number value = some seconds) (positive : 0 < seconds)
    {reading refused : Timed} (refuses : Refuses host client call value reading refused)
    {moment : ℚ}
    (timer : policy.maxRetries ≠ 0 → moment ≤ refused.now + timerMs (policy.waitMs seconds)) :
    Patient moment refused := by
  obtain ⟨event, response, text, event_eq, phase, tooMany, header, step⟩ := refuses
  obtain ⟨-, after, stepped, rfl⟩ := timed_eq_some step
  rw [event_eq, next_text phase, Option.some_inj] at stepped
  subst stepped
  rcases finish_phase host call policy_eq reading.call text tooMany header numeric positive with
    ended | ⟨retries, asleep⟩
  · exact .inr (.inr ended)
  · refine .inr (.inl ⟨?_, ?_⟩)
    · rw [Timed.after, asleep]
      rfl
    · rw [Timed.after, asleep]
      exact timer (Nat.ne_zero_of_lt retries)

/-! ## A call that does not wait -/

theorem timerMs_nonneg (delay : ℚ) : 0 ≤ timerMs delay := by
  rw [timerMs]
  split
  next range => exact_mod_cast Int.floor_nonneg.mpr (zero_le_one.trans range.1)
  next => exact zero_le_one

/-- An event without delay. -/
def TimedEvent.atOnce (event : Event) : TimedEvent where
  event := event
  elapsed := 0
  elapsed_nonneg := le_rfl

/-- A client with a policy of its own. -/
def impatientClient (policy : RetryPolicy) : HttpOptions where
  baseUrl := ofString "https://api.example.com/api/v1"
  retry := some
    { maxRetries := some policy.maxRetries
      baseDelayMs := some policy.baseDelayMs
      maxDelayMs := some policy.maxDelayMs }

/-- A call that is idempotent. -/
def getScenarios : Call where
  method := ofString "GET"
  path := ofString "/scenarios"

variable (client) in
/-- A call that sleeps without being aborted sends its request again when the timer fires. -/
theorem exists_sends {source : Timed} {delay : ℚ} (asleep : source.call.phase = .sleeping delay)
    (live : source.call.aborted = false) (early : source.now ≤ source.due) :
    ∃ later sending sent, exec (timed quietHost client getScenarios) source later = some sending ∧
      Sends quietHost client getScenarios sending sent ∧ sent.now = source.due := by
  rcases source with ⟨⟨⟨attempt, refreshed, aborted, log⟩, cancelled, phase⟩, now, due⟩
  cases asleep
  cases live
  have wake : timed quietHost client getScenarios
      ⟨⟨⟨attempt, refreshed, false, log⟩, cancelled, .sleeping delay⟩, now, due⟩
      ⟨.wake, due - now, sub_nonneg.mpr early⟩ =
        some ⟨⟨⟨attempt, refreshed, false, log⟩, cancelled, .woken⟩, now + (due - now), due⟩ := by
    unfold timed
    dsimp only
    rw [if_neg fun late => late.2.ne (add_sub_cancel ..)]
    rfl
  refine ⟨[⟨.wake, due - now, sub_nonneg.mpr early⟩, .atOnce .resume], _, _,
    exec_cons_eq_some_iff.mpr ⟨_, wake, rfl⟩, ⟨.atOnce (.token (.ok none)), _, rfl, rfl⟩, ?_⟩
  show now + (due - now) + 0 + 0 = due
  ring

/-- The first attempt of a call may be refused. -/
theorem exists_refuses {policy : RetryPolicy} (retries : policy.maxRetries ≠ 0) {value : Text}
    {seconds : ℚ} (numeric : number value = some seconds) (positive : 0 < seconds) :
    ∃ before reading refused,
      exec (timed quietHost (impatientClient policy) getScenarios)
        (begin quietHost (impatientClient policy) getScenarios false) before = some reading ∧
      Refuses quietHost (impatientClient policy) getScenarios value reading refused ∧
      refused.call.phase = .sleeping (policy.waitMs seconds) ∧ refused.call.aborted = false ∧
      refused.due = refused.now + timerMs (policy.waitMs seconds) := by
  rcases policy with ⟨maxRetries, baseDelayMs, maxDelayMs⟩
  obtain ⟨n, retries⟩ := Nat.exists_eq_succ_of_ne_zero retries
  cases retries
  refine ⟨[.atOnce (.token (.ok none)),
    .atOnce (.answer (.ok { status := 429, statusText := [], retryAfter := some value }))],
    _, _, rfl, ⟨.atOnce (.text (.ok [])), _, [], rfl, rfl, rfl, rfl, rfl⟩, ?_, rfl, ?_⟩
  · exact congrArg Phase.sleeping (delayMs_errorOf _ rfl rfl numeric positive)
  · exact congrArg (fun delay => _ + timerMs delay) (delayMs_errorOf _ rfl rfl numeric positive)

/-- What is sent after a refusal is sent as late as the policy waits. -/
theorem Resends.le {policy : RetryPolicy} {value : Text} {seconds : ℚ} {refused sent : Timed}
    (resends : Resends policy value refused sent) (numeric : number value = some seconds)
    {wait : ℚ} (timer : 0 < seconds → policy.maxRetries ≠ 0 →
      wait ≤ timerMs (policy.waitMs seconds)) (nonpos : seconds ≤ 0 → wait ≤ 0) :
    refused.now + wait ≤ sent.now := by
  obtain ⟨host, client, call, aborted, before, later, reading, sending, policy_eq, run, refuses,
    again, sends⟩ := resends
  refine Patient.le_of_sends ?_ again sends
  rcases le_or_gt seconds 0 with past | positive
  · exact .inl (add_le_of_nonpos_right (nonpos past))
  · exact refuses.patient policy_eq numeric positive fun retries =>
      add_le_add_right (timer positive retries) _

theorem honours_iff_waits (policy : RetryPolicy) {value : Text} {seconds : ℚ}
    (numeric : number value = some seconds) :
    Honours policy value seconds ↔ policy.Waits seconds := by
  constructor
  · intro honours
    by_contra impatient
    simp only [RetryPolicy.Waits, not_or] at impatient
    rcases impatient with ⟨retries, short, out⟩
    have positive : 0 < seconds := by linarith
    obtain ⟨before, reading, refused, run, refuses, asleep, live, due⟩ :=
      exists_refuses retries numeric positive
    have early : refused.now ≤ refused.due := by
      rw [due]
      exact le_add_of_nonneg_right (timerMs_nonneg _)
    obtain ⟨later, sending, sent, again, sends, sent_at⟩ :=
      exists_sends (impatientClient policy) asleep live early
    have waited := honours refused sent ⟨quietHost, impatientClient policy, getScenarios, false,
      before, later, reading, sending, rfl, run, refuses, again, sends⟩
    rw [sent_at, due] at waited
    rcases (le_timerMs_waitMs_iff policy).mp (le_of_add_le_add_left waited) with small | within
    · exact short small
    · exact out within
  · intro waits refused sent resends
    refine resends.le numeric (fun _ retries => ?_) fun past => by linarith
    exact (le_timerMs_waitMs_iff policy).mpr (waits.resolve_left retries)

end RiskRail.Sdk.Http
