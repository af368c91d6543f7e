import RiskRail.Sdk.Http
import Mathlib.Data.List.Count

/-!
# What a call repeats

A call that may have been processed is not sent again: after an attempt that ended in
anything but 401 or 429, a call that is not idempotent sends nothing.  The attempt
counter bounds the fetches, and one refresh may push it one further.  An abort is seen
wherever the call would go on to a fetch.
-/

namespace RiskRail.Sdk.Http

open RiskRail.Javascript Text RiskRail.Transition

/-! ## The effects of a call -/

/-- A request was sent. -/
def Effect.isFetch : Effect → Bool
  | .fetched _ => true
  | _ => false

/-- The refresh hook was asked. -/
def Effect.isUnauthorized : Effect → Bool
  | .unauthorized => true
  | _ => false

/-- The refresh hook said yes. -/
def Effect.isRenewal : Effect → Bool
  | .renewed => true
  | _ => false

namespace Progress

variable (progress : Progress)

/-- How many requests were sent. -/
def fetches : ℕ :=
  progress.log.countP Effect.isFetch

/-- How often the `onUnauthorized` hook was asked. -/
def refreshes : ℕ :=
  progress.log.countP Effect.isUnauthorized

/-- How often it answered that there is a fresh credential. -/
def renewals : ℕ :=
  progress.log.countP Effect.isRenewal

variable (effect : Effect)

@[simp]
theorem record_attempt : (progress.record effect).attempt = progress.attempt :=
  rfl

@[simp]
theorem record_refreshed : (progress.record effect).refreshed = progress.refreshed :=
  rfl

@[simp]
theorem record_aborted : (progress.record effect).aborted = progress.aborted :=
  rfl

@[simp]
theorem record_log : (progress.record effect).log = effect :: progress.log :=
  rfl

@[simp]
theorem fetches_record :
    (progress.record effect).fetches = progress.fetches + if effect.isFetch then 1 else 0 :=
  List.countP_cons

@[simp]
theorem refreshes_record :
    (progress.record effect).refreshes =
      progress.refreshes + if effect.isUnauthorized then 1 else 0 :=
  List.countP_cons

@[simp]
theorem renewals_record :
    (progress.record effect).renewals =
      progress.renewals + if effect.isRenewal then 1 else 0 :=
  List.countP_cons

end Progress

/-- After this effect nothing is sent. -/
def Effect.Bars (idempotent : Bool) : Effect → Prop
  | .aborted => True
  | .ended status => idempotent = false ∧ status ≠ some 401 ∧ status ≠ some 429
  | _ => False

/-- The call may have been processed at most in attempts that do not forbid another, never
runs on after an abort, and asks for few fetches and refreshes. -/
structure RepeatsSafely (client : HttpOptions) (call : Call) (progress : Progress) : Prop where
  nothing_repeated : call.idempotent = false → ∀ later status earlier,
    progress.log = later ++ .ended status :: earlier → status ≠ some 401 → status ≠ some 429 →
      ∀ effect ∈ later, effect.isFetch = false
  fetches_le : progress.fetches ≤ client.maxRetries + 2
  fetches_le_of_not_renewed : progress.renewals = 0 → progress.fetches ≤ client.maxRetries + 1
  refreshes_le : progress.refreshes ≤ 1
  refreshes_eq_zero : call.options.skipAuthRefresh = true → progress.refreshes = 0
  nothing_after_abort : ∀ later earlier, progress.log = later ++ .aborted :: earlier →
    ∀ effect ∈ later, effect.isFetch = false

/-! ## The invariant -/

variable (host : Host) (client : HttpOptions) (call : Call)

/-- Holds in every phase. -/
structure Counted (progress : Progress) : Prop where
  refreshes_eq : progress.refreshes = progress.refreshed.toNat
  skipped : call.options.skipAuthRefresh = true → progress.refreshed = false
  renewals_le : progress.renewals ≤ progress.refreshed.toNat
  attempt_le : progress.attempt ≤ client.maxRetries + progress.renewals
  fetches_le : progress.fetches ≤ progress.attempt + 1
  barred : progress.log.Pairwise fun later earlier =>
    earlier.Bars call.idempotent → later.isFetch = false
  aborted_of_mem : Effect.aborted ∈ progress.log → progress.aborted = true

/-- No attempt so far forbids another one. -/
def Repeatable (progress : Progress) : Prop :=
  ∀ status, Effect.ended status ∈ progress.log → ¬(Effect.ended status).Bars call.idempotent

/-- What each phase adds. -/
def PhaseHolds (state : State) : Prop :=
  match state.phase with
  | .authorizing =>
      Repeatable call state.toProgress ∧ state.fetches ≤ state.attempt ∧
        (state.aborted = true → state.cancelled = true)
  | .fetching | .reading _ => Repeatable call state.toProgress
  | .refreshing _ =>
      Repeatable call state.toProgress ∧ state.renewals = 0 ∧ state.refreshed = true
  | .sleeping _ | .woken =>
      Repeatable call state.toProgress ∧ state.attempt < client.maxRetries
  | .returned _ | .threw _ => True

/-- What every run of a call keeps true. -/
def Sound (state : State) : Prop :=
  Counted client call state.toProgress ∧ PhaseHolds client call state

variable {host client call} {progress : Progress}

/-- An effect that neither counts nor is an abort. -/
theorem Counted.record (counted : Counted client call progress) {effect : Effect}
    (fetch : effect.isFetch = false) (unauthorized : effect.isUnauthorized = false)
    (renewal : effect.isRenewal = false) (abort : effect ≠ .aborted) :
    Counted client call (progress.record effect) where
  refreshes_eq := by simpa [unauthorized] using counted.refreshes_eq
  skipped := counted.skipped
  renewals_le := by simpa [renewal] using counted.renewals_le
  attempt_le := by simpa [renewal] using counted.attempt_le
  fetches_le := by simpa [fetch] using counted.fetches_le
  barred := List.pairwise_cons.mpr ⟨fun _ _ _ => fetch, counted.barred⟩
  aborted_of_mem := by
    intro member
    rcases List.mem_cons.mp member with same | member
    · exact absurd same.symm abort
    · exact counted.aborted_of_mem member

theorem Counted.recordEnded (counted : Counted client call progress) (status : Option ℕ) :
    Counted client call (progress.record (.ended status)) :=
  counted.record rfl rfl rfl (by simp)

theorem Counted.recordRetrying (counted : Counted client call progress) (info : RetryInfo) :
    Counted client call (progress.record (.retrying info)) :=
  counted.record rfl rfl rfl (by simp)

theorem Counted.renewals_eq_zero (counted : Counted client call progress)
    (fresh : progress.refreshed = false) : progress.renewals = 0 := by
  have bound := counted.renewals_le
  rw [fresh] at bound
  exact Nat.le_zero.mp bound

/-- The hook is asked for the first time. -/
theorem Counted.refresh (counted : Counted client call progress)
    (fresh : progress.refreshed = false) (asked : call.options.skipAuthRefresh = false) :
    Counted client call
      (({ progress with refreshed := true } : Progress).record .unauthorized) where
  refreshes_eq := by
    have before := counted.refreshes_eq
    rw [fresh] at before
    rw [Progress.refreshes_record]
    exact congrArg Nat.succ before
  skipped := by
    intro skip
    rw [asked] at skip
    cases skip
  renewals_le := (counted.renewals_eq_zero fresh).trans_le (Nat.zero_le 1)
  attempt_le := counted.attempt_le
  fetches_le := counted.fetches_le
  barred := List.pairwise_cons.mpr ⟨fun _ _ _ => rfl, counted.barred⟩
  aborted_of_mem := fun member => counted.aborted_of_mem (by simpa using member)

/-- The hook has a fresh credential. -/
theorem Counted.renew (counted : Counted client call progress) (first : progress.renewals = 0)
    (refreshed : progress.refreshed = true) :
    Counted client call (progress.record .renewed) where
  refreshes_eq := counted.refreshes_eq
  skipped := counted.skipped
  renewals_le := by
    rw [Progress.record_refreshed, refreshed, Progress.renewals_record, first]
    rfl
  attempt_le := by
    rw [Progress.renewals_record]
    exact Nat.le_succ_of_le counted.attempt_le
  fetches_le := counted.fetches_le
  barred := List.pairwise_cons.mpr ⟨fun _ _ _ => rfl, counted.barred⟩
  aborted_of_mem := fun member => counted.aborted_of_mem (by simpa using member)

/-- The caller aborts. -/
theorem Counted.abort (counted : Counted client call progress) :
    Counted client call (({ progress with aborted := true } : Progress).record .aborted) where
  refreshes_eq := counted.refreshes_eq
  skipped := counted.skipped
  renewals_le := counted.renewals_le
  attempt_le := counted.attempt_le
  fetches_le := counted.fetches_le
  barred := List.pairwise_cons.mpr ⟨fun _ _ _ => rfl, counted.barred⟩
  aborted_of_mem := fun _ => rfl

/-- A request is sent. -/
theorem Counted.fetch (counted : Counted client call progress)
    (repeatable : Repeatable call progress) (unsent : progress.fetches ≤ progress.attempt)
    (live : progress.aborted = false) (request : Request) :
    Counted client call (progress.record (.fetched request)) where
  refreshes_eq := counted.refreshes_eq
  skipped := counted.skipped
  renewals_le := counted.renewals_le
  attempt_le := counted.attempt_le
  fetches_le := by
    rw [Progress.fetches_record]
    exact Nat.succ_le_succ unsent
  barred := by
    refine List.pairwise_cons.mpr ⟨fun earlier member bars => ?_, counted.barred⟩
    cases earlier with
    | aborted => rw [counted.aborted_of_mem member] at live; cases live
    | ended status => exact absurd bars (repeatable status member)
    | fetched | unauthorized | renewed | retrying => exact bars.elim
  aborted_of_mem := fun member => counted.aborted_of_mem (by simpa using member)

theorem Repeatable.record (repeatable : Repeatable call progress) {effect : Effect}
    (allowed : ∀ status, effect = .ended status → ¬effect.Bars call.idempotent) :
    Repeatable call (progress.record effect) := by
  intro status member
  rcases List.mem_cons.mp member with same | member
  · rw [same]
    exact allowed status same.symm
  · exact repeatable status member

theorem Repeatable.recordEnded (repeatable : Repeatable call progress) {status : ℕ}
    (allowed : call.idempotent = true ∨ status = 401 ∨ status = 429) :
    Repeatable call (progress.record (.ended (some status))) := by
  apply repeatable.record
  rintro _ - ⟨single, not_401, not_429⟩
  rcases allowed with idempotent | rfl | rfl
  · rw [idempotent] at single
    cases single
  · exact not_401 rfl
  · exact not_429 rfl

/-! ## The pieces of a step -/

theorem Counted.threw (counted : Counted client call progress) (failure : Failure) :
    Sound client call { progress with cancelled := false, phase := .threw failure } :=
  ⟨counted, trivial⟩

theorem Counted.backOff (counted : Counted client call progress) {error : RiviskError}
    (repeatable : (error.status == 429 || call.idempotent) = true → Repeatable call progress) :
    Sound client call (backOff host client call progress error) := by
  unfold Http.backOff
  dsimp only
  split
  next => exact counted.threw _
  next policy _ =>
    split
    next => exact counted.threw _
    next goes_on =>
      simp only [Bool.or_eq_true, Bool.not_eq_true', decide_eq_true_eq, not_or, Bool.not_eq_false,
        not_le] at goes_on
      split
      next => exact (counted.recordRetrying _).threw _
      next =>
        split
        next => exact (counted.recordRetrying _).threw _
        next =>
          refine ⟨counted.recordRetrying _, (repeatable ?_).record (by simp), goes_on.2⟩
          simpa using goes_on.1.1

theorem Counted.caught (counted : Counted client call progress)
    (repeatable : Repeatable call progress) (error : RiviskError) :
    Sound client call (caught host client call progress error) := by
  have counted' := counted.recordEnded (some error.status)
  unfold Http.caught
  dsimp only
  split
  next refresh =>
    rcases refresh with ⟨unauthorized, fresh, asked, -⟩
    have repeatable' := repeatable.recordEnded (.inr (.inl unauthorized))
    exact ⟨counted'.refresh fresh asked, repeatable'.record (by simp),
      counted'.renewals_eq_zero fresh, rfl⟩
  next =>
    apply counted'.backOff
    intro may_retry
    apply repeatable.recordEnded
    rw [Bool.or_eq_true, beq_iff_eq] at may_retry
    exact may_retry.elim (fun limited => .inr (.inr limited)) .inl

theorem Counted.beginAttempt (counted : Counted client call progress)
    (repeatable : Repeatable call progress) (unsent : progress.fetches ≤ progress.attempt) :
    Sound client call (beginAttempt host client call progress) := by
  unfold Http.beginAttempt
  split
  next => exact counted.caught repeatable _
  next live => exact ⟨counted, repeatable, unsent, fun aborted => absurd aborted live⟩

theorem Counted.again (counted : Counted client call progress)
    (repeatable : Repeatable call progress)
    (attempt_lt : progress.attempt < client.maxRetries + progress.renewals) :
    Sound client call (again host client call progress) := by
  have counted' : Counted client call { progress with attempt := progress.attempt + 1 } :=
    { counted with
      attempt_le := attempt_lt
      fetches_le := Nat.le_succ_of_le counted.fetches_le }
  exact counted'.beginAttempt repeatable counted.fetches_le

theorem Counted.fetchFailed {state : State} (counted : Counted client call state.toProgress)
    (repeatable : Repeatable call state.toProgress) (cause : Cause) :
    Sound client call (fetchFailed host client call state cause) :=
  counted.caught repeatable _

theorem Counted.send {state : State} (counted : Counted client call state.toProgress)
    (repeatable : Repeatable call state.toProgress) (unsent : state.fetches ≤ state.attempt)
    (cancels : state.aborted = true → state.cancelled = true) (token : Option Text) :
    Sound client call (send host client call state token) := by
  unfold Http.send
  split
  next => exact counted.fetchFailed repeatable _
  next going =>
    have live : state.aborted = false := by
      cases aborted : state.aborted with
      | false => rfl
      | true => exact absurd (cancels aborted) going
    split
    next => exact counted.fetchFailed repeatable _
    next =>
      exact ⟨counted.fetch repeatable unsent live _, repeatable.record (by simp)⟩
    next =>
      exact ⟨counted.fetch repeatable unsent live _, repeatable.record (by simp)⟩

theorem Counted.finish {state : State} (counted : Counted client call state.toProgress)
    (repeatable : Repeatable call state.toProgress) (response : Response) (text : Text) :
    Sound client call (finish host client call state response text) := by
  unfold Http.finish
  dsimp only
  split
  next => exact ⟨counted.recordEnded _, trivial⟩
  next => exact counted.caught repeatable _

theorem Sound.abort {state : State} (sound : Sound client call state) :
    Sound client call (abort state) := by
  rcases sound with ⟨counted, holds⟩
  unfold Http.abort
  rcases state with ⟨progress, cancelled, phase⟩
  cases phase with
  | authorizing =>
      exact ⟨counted.abort, holds.1.record (by simp), holds.2.1, fun _ => rfl⟩
  | fetching | reading => exact ⟨counted.abort, Repeatable.record holds (by simp)⟩
  | refreshing | woken => exact ⟨counted.abort, holds.1.record (by simp), holds.2⟩
  | sleeping | returned | threw => exact ⟨counted.abort, trivial⟩

/-! ## Runs -/

theorem sound_request (aborted : Bool) : Sound client call (request host client call aborted) := by
  unfold request
  apply Counted.beginAttempt
  · cases aborted <;>
      exact
        { refreshes_eq := rfl
          skipped := fun _ => rfl
          renewals_le := Nat.le_refl 0
          attempt_le := Nat.zero_le _
          fetches_le := Nat.zero_le _
          barred := by simp
          aborted_of_mem := by simp }
  · cases aborted <;> simp [Repeatable]
  · cases aborted <;> exact Nat.le_refl 0

theorem sound_next {source target : State} {event : Event} (sound : Sound client call source)
    (step : next host client call source event = some target) : Sound client call target := by
  cases turn_of_next step with
  | abort => exact sound.abort
  | timeout waiting =>
      rcases sound with ⟨counted, holds⟩
      rcases waiting with rfl | rfl
      · exact ⟨counted, holds.1, holds.2.1, fun _ => rfl⟩
      · exact ⟨counted, holds⟩
  | token token => exact sound.1.send sound.2.1 sound.2.2.1 sound.2.2.2 _
  | tokenFailed cause => exact sound.1.fetchFailed sound.2.1 _
  | answer response => exact ⟨sound.1, sound.2⟩
  | answerFailed cause => exact sound.1.fetchFailed sound.2 _
  | text text => exact sound.1.finish sound.2 _ _
  | textFailed cause => exact ⟨sound.1.recordEnded none, trivial⟩
  | renewed =>
      rcases sound with ⟨counted, repeatable, first, refreshed⟩
      apply (counted.renew first refreshed).again (repeatable.record (by simp))
      rw [Progress.renewals_record]
      exact Nat.lt_succ_of_le counted.attempt_le
  | refused => exact sound.1.backOff fun _ => sound.2.1
  | refreshFailed cause => exact sound.1.threw _
  | wake => exact ⟨sound.1, sound.2⟩
  | resume => exact sound.1.again sound.2.1 (Nat.lt_add_right _ sound.2.2)

/-- What comes after an effect that forbids it is no fetch. -/
theorem Counted.not_fetch (counted : Counted client call progress) {effect : Effect}
    (bars : effect.Bars call.idempotent) {later earlier : List Effect}
    (log : progress.log = later ++ effect :: earlier) :
    ∀ after ∈ later, after.isFetch = false := by
  intro after member
  have barred := counted.barred
  rw [log, List.pairwise_append] at barred
  exact barred.2.2 after member effect List.mem_cons_self bars

theorem Counted.repeatsSafely (counted : Counted client call progress) :
    RepeatsSafely client call progress := by
  have refreshed_le : progress.refreshed.toNat ≤ 1 := Bool.toNat_le _
  have renewals_le := counted.renewals_le
  have attempt_le := counted.attempt_le
  have fetches_le := counted.fetches_le
  exact
    { nothing_repeated := by
        intro single later status earlier log not_401 not_429
        have bars : (Effect.ended status).Bars call.idempotent := ⟨single, not_401, not_429⟩
        exact counted.not_fetch bars log
      fetches_le := by omega
      fetches_le_of_not_renewed := by omega
      refreshes_le := counted.refreshes_eq.trans_le refreshed_le
      refreshes_eq_zero := by
        intro skip
        rw [counted.refreshes_eq, counted.skipped skip]
        rfl
      nothing_after_abort := by
        intro later earlier log
        have bars : Effect.aborted.Bars call.idempotent := trivial
        exact counted.not_fetch bars log }

/-- However the outside world settles what a call awaits, and whenever the caller aborts,
the call repeats safely. -/
theorem request_repeats_safely {aborted : Bool} {events : List Event} {state : State}
    (run : exec (next host client call) (request host client call aborted) events = some state) :
    RepeatsSafely client call state.toProgress :=
  (exec_invariant sound_next run (sound_request aborted)).1.repeatsSafely

/-! ## A rate limit, a stale token, and a failure -/

/-- A host whose clock stands still. -/
def quietHost : Host where
  searchParams := fun _ => []
  parseJson := fun _ => none
  parseDate := fun _ => none
  now := fun _ => 0
  random := fun _ => 1 / 2

/-- A client with a refresh hook. -/
def refreshingClient : HttpOptions where
  baseUrl := ofString "https://api.example.com/api/v1"
  onUnauthorized := true

/-- A call that is not idempotent. -/
def createWebhook : Call where
  method := ofString "POST"
  path := ofString "/webhooks"
  options := { body := some (.ok (ofString "null")) }

/-- An attempt is answered with this status and an empty body. -/
def answered (status : ℕ) : List Event :=
  [.token (.ok none), .answer (.ok { status := status, statusText := [] }), .text (.ok [])]

/-- A 429, a 401 with a refresh, and a 500. -/
def staleRun : List Event :=
  answered 429 ++ [.wake, .resume] ++ answered 401 ++ [.refresh (.ok true)] ++ answered 500

theorem request_repeats_safely_stale :
    ∃ state,
      exec (next quietHost refreshingClient createWebhook)
        (request quietHost refreshingClient createWebhook false) staleRun = some state ∧
      state.fetches = 3 ∧ RepeatsSafely refreshingClient createWebhook state.toProgress := by
  have fetched :
      (exec (next quietHost refreshingClient createWebhook)
        (request quietHost refreshingClient createWebhook false) staleRun).map
          (fun state => state.fetches) = some 3 := by
    decide +kernel
  rcases Option.map_eq_some_iff.mp fetched with ⟨state, run, fetches⟩
  exact ⟨state, run, fetches, request_repeats_safely run⟩

end RiskRail.Sdk.Http
