import RiskRail.Javascript.Text
import RiskRail.Queue.Core
import RiskRail.RateLimit.Counters
import RiskRail.Transition.Core

/-!
# The rate limit of a route

`RateLimitGuard.canActivate` for one route and one address.  A request takes its bucket
from the clock, increments the counter of the bucket, sets its expiry if it was the first
and is then admitted or refused.  Each of these is a step, and any number of requests, on
any replicas, take their steps in any order while the clock goes on.
-/

namespace RiskRail.RateLimit

open RiskRail.Javascript Text RiskRail.Queue RiskRail.Transition

/-- How many requests, in how many seconds. -/
structure RateLimitOptions where
  /-- Requests allowed inside the window. -/
  limit : ℕ
  windowSeconds : ℕ
  windowSeconds_pos : 0 < windowSeconds

variable (options : RateLimitOptions)

/-- `Math.floor(Date.now() / 1000 / options.windowSeconds)`. -/
def bucketOf (now : ℕ) : ℕ :=
  now / 1000 / options.windowSeconds

variable (route ip : String)

/-- The parts joined with colons. -/
def rateLimitKey (bucket : ℕ) : String :=
  "rivisk:ratelimit:" ++ route ++ ":" ++ ip ++ ":" ++ toString bucket

variable {route ip} in
/-- Every bucket has a key of its own. -/
theorem rateLimitKey_injective : Function.Injective (rateLimitKey route ip) := by
  intro first second same
  exact toString_injective ((String.append_right_inj _).mp same)

/-- The response 429. -/
structure TooManyRequests where
  /-- The `Retry-After` header. -/
  header : Text
  statusCode : ℕ := 429
  message : String := "Too many requests. Please retry shortly."
  retryAfter : ℤ

/-- The refusal, with the seconds until the window ends. -/
def tooManyRequests (bucket now : ℕ) : TooManyRequests :=
  let retryAfter : ℤ := ((bucket + 1) * options.windowSeconds : ℕ) - (now / 1000 : ℕ)
  { header := digits (max 0 retryAfter).toNat, retryAfter := retryAfter }

/-- How far a request is. -/
inductive Phase where
  /-- The key is made. -/
  | counting
  /-- INCR answered one. -/
  | expiring
  | deciding
  | admitted
  /-- Refused at a moment. -/
  | refused (response : TooManyRequests) (moment : ℕ)

/-- A request in its bucket. -/
structure Request where
  bucket : ℕ
  /-- What INCR answered. -/
  used : Option ℕ := none
  phase : Phase := .counting

/-- The clock, the counters and the requests. -/
structure State where
  now : ℕ
  redis : Counters String
  requests : List Request

/-- What the clock, the store and the requests do. -/
inductive Action where
  /-- The clock goes on by some milliseconds. -/
  | tick (milliseconds : ℕ)
  /-- A request arrives and takes its bucket. -/
  | arrive
  | incr (index : ℕ)
  | expire (index : ℕ)
  | decide (index : ℕ)
  /-- Redis does not answer. -/
  | unreachable (index : ℕ)

/-- A request gets somewhere. -/
def State.update (state : State) (index : ℕ) (request : Request) : State :=
  { state with requests := state.requests.set index request }

/-- INCR answers with the count. -/
def counted (request : Request) (used : ℕ) : Request :=
  { request with used := some used, phase := if used = 1 then .expiring else .deciding }

theorem counted_phase (request : Request) (used : ℕ) :
    (counted request used).phase = .expiring ∨ (counted request used).phase = .deciding := by
  unfold counted
  dsimp only
  split
  · exact .inl rfl
  · exact .inr rfl

/-- The comparison with the limit. -/
def decided (now : ℕ) (request : Request) (used : ℕ) : Request :=
  { request with
    phase :=
      if options.limit < used then .refused (tooManyRequests options request.bucket now) now
      else .admitted }

theorem decided_phase (now : ℕ) (request : Request) (used : ℕ) :
    (decided options now request used).phase = .admitted ∧ used ≤ options.limit ∨
      (decided options now request used).phase =
        .refused (tooManyRequests options request.bucket now) now ∧ options.limit < used := by
  unfold decided
  dsimp only
  split
  next exceeds => exact .inr ⟨rfl, exceeds⟩
  next within => exact .inl ⟨rfl, not_lt.mp within⟩

/-- One step of the clock, the store or a request. -/
def next : Step State Action
  | state, .tick milliseconds => some { state with now := state.now + milliseconds }
  | state, .arrive =>
      some { state with requests := state.requests ++ [{ bucket := bucketOf options state.now }] }
  | state, .incr index =>
      state.requests[index]?.bind fun request =>
        match request.phase with
        | .counting =>
            let key := rateLimitKey route ip request.bucket
            some { state.update index
                (counted request (state.redis.incremented state.now key).count) with
              redis := state.redis.incr state.now key }
        | _ => none
  | state, .expire index =>
      state.requests[index]?.bind fun request =>
        match request.phase with
        | .expiring =>
            some { state.update index { request with phase := .deciding } with
              redis := state.redis.expire state.now (rateLimitKey route ip request.bucket)
                options.windowSeconds }
        | _ => none
  | state, .decide index =>
      state.requests[index]?.bind fun request =>
        match request.phase, request.used with
        | .deciding, some used =>
            some (state.update index (decided options state.now request used))
        | _, _ => none
  | state, .unreachable index =>
      state.requests[index]?.bind fun request =>
        match request.phase with
        -- The public read path stays open.
        | .counting | .expiring => some (state.update index { request with phase := .admitted })
        | _ => none

/-- Nothing has been asked yet. -/
def start (now : ℕ) : State where
  now := now
  redis := .empty
  requests := []

/-! ## What a step does -/

section Cases

variable {options route ip} {source target : State}

theorem next_tick {milliseconds : ℕ}
    (step : next options route ip source (.tick milliseconds) = some target) :
    target = { source with now := source.now + milliseconds } :=
  (Option.some_inj.mp step).symm

theorem next_arrive (step : next options route ip source .arrive = some target) :
    target = { source with
      requests := source.requests ++ [{ bucket := bucketOf options source.now }] } :=
  (Option.some_inj.mp step).symm

theorem next_incr {index : ℕ} (step : next options route ip source (.incr index) = some target) :
    ∃ request, source.requests[index]? = some request ∧ request.phase = .counting ∧
      target = { source.update index (counted request
          (source.redis.incremented source.now (rateLimitKey route ip request.bucket)).count) with
        redis := source.redis.incr source.now (rateLimitKey route ip request.bucket) } := by
  obtain ⟨request, found, step⟩ := Option.bind_eq_some_iff.mp step
  cases phase : request.phase with
  | counting =>
      rw [phase] at step
      exact ⟨request, found, phase, (Option.some_inj.mp step).symm⟩
  | expiring | deciding | admitted | refused =>
      rw [phase] at step
      cases step

theorem next_expire {index : ℕ}
    (step : next options route ip source (.expire index) = some target) :
    ∃ request, source.requests[index]? = some request ∧ request.phase = .expiring ∧
      target = { source.update index { request with phase := .deciding } with
        redis := source.redis.expire source.now (rateLimitKey route ip request.bucket)
          options.windowSeconds } := by
  obtain ⟨request, found, step⟩ := Option.bind_eq_some_iff.mp step
  cases phase : request.phase with
  | expiring =>
      rw [phase] at step
      exact ⟨request, found, phase, (Option.some_inj.mp step).symm⟩
  | counting | deciding | admitted | refused =>
      rw [phase] at step
      cases step

theorem next_decide {index : ℕ}
    (step : next options route ip source (.decide index) = some target) :
    ∃ request used, source.requests[index]? = some request ∧ request.phase = .deciding ∧
      request.used = some used ∧
      target = source.update index (decided options source.now request used) := by
  obtain ⟨request, found, step⟩ := Option.bind_eq_some_iff.mp step
  cases phase : request.phase with
  | deciding =>
      rw [phase] at step
      cases answered : request.used with
      | none =>
          rw [answered] at step
          cases step
      | some used =>
          rw [answered] at step
          exact ⟨request, used, found, phase, answered, (Option.some_inj.mp step).symm⟩
  | counting | expiring | admitted | refused =>
      rw [phase] at step
      cases step

theorem next_unreachable {index : ℕ}
    (step : next options route ip source (.unreachable index) = some target) :
    ∃ request, source.requests[index]? = some request ∧
      target = source.update index { request with phase := .admitted } := by
  obtain ⟨request, found, step⟩ := Option.bind_eq_some_iff.mp step
  cases phase : request.phase with
  | counting | expiring =>
      rw [phase] at step
      exact ⟨request, found, (Option.some_inj.mp step).symm⟩
  | deciding | admitted | refused =>
      rw [phase] at step
      cases step

end Cases

/-! ## What the limit is for -/

/-- The request went through. -/
def Phase.isAdmitted : Phase → Bool
  | .admitted => true
  | _ => false

/-- How many requests of a bucket are admitted. -/
def State.admitted (state : State) (bucket : ℕ) : ℕ :=
  state.requests.countP fun request => request.bucket == bucket && request.phase.isAdmitted

/-- Of every bucket at most as many requests as the limit says are admitted, and whoever
waits as long as a refusal says is in a later one. -/
structure Shared (state : State) : Prop where
  admitted_le : ∀ bucket, state.admitted bucket ≤ options.limit
  later_bucket : ∀ request ∈ state.requests, ∀ response moment,
    request.phase = .refused response moment →
      ∃ seconds, response.header = digits seconds ∧
        ∀ later, moment + 1000 * seconds ≤ later → request.bucket < bucketOf options later

end RiskRail.RateLimit
