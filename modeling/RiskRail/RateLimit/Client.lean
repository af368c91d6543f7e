import RiskRail.RateLimit.Crowd
import RiskRail.Sdk.Patience

/-!
# A client at the rate limit

A refused request that is sent again after its Retry-After falls into a later bucket.
The policies under which the SDK waits for so long are known, and with no other traffic
in that bucket such a request is not refused again.
-/

namespace RiskRail.RateLimit

open RiskRail.Javascript Text RiskRail.Numeric RiskRail.Transition
open RiskRail.Sdk.Http (RetryPolicy Resends Honours defaultRetry)

/-! ## Requests keep their buckets -/

/-- The requests of a state are there later, each in its bucket. -/
def Keeps (source target : State) : Prop :=
  ∀ (index : ℕ) (request : Request), source.requests[index]? = some request →
    ∃ later : Request, target.requests[index]? = some later ∧ later.bucket = request.bucket

theorem Keeps.refl (state : State) : Keeps state state :=
  fun _ request found => ⟨request, found, rfl⟩

theorem Keeps.trans {first second third : State} (before : Keeps first second)
    (after : Keeps second third) : Keeps first third := by
  intro index request found
  obtain ⟨middle, found, bucket⟩ := before index request found
  obtain ⟨last, found, same⟩ := after index middle found
  exact ⟨last, found, same.trans bucket⟩

variable {options : RateLimitOptions} {route ip : String} {source target : State}

theorem Keeps.update {index : ℕ} {request after : Request} {redis : Counters String}
    (found : source.requests[index]? = some request) (bucket : after.bucket = request.bucket) :
    Keeps source { source.update index after with redis := redis } := by
  intro other stored present
  by_cases same : index = other
  · subst same
    cases found.symm.trans present
    have inside : index < source.requests.length := (List.getElem?_eq_some_iff.mp found).1
    exact ⟨after, List.getElem?_set_self inside, bucket⟩
  · exact ⟨stored, (List.getElem?_set_ne same).trans present, rfl⟩

theorem keeps_of_next {action : Action}
    (step : next options route ip source action = some target) : Keeps source target := by
  cases action with
  | tick milliseconds =>
      cases next_tick step
      exact Keeps.refl source
  | arrive =>
      cases next_arrive step
      intro index request found
      have inside : index < source.requests.length := (List.getElem?_eq_some_iff.mp found).1
      exact ⟨request, (List.getElem?_append_left inside).trans found, rfl⟩
  | incr index =>
      obtain ⟨request, found, -, rfl⟩ := next_incr step
      exact Keeps.update found rfl
  | expire index =>
      obtain ⟨request, found, -, rfl⟩ := next_expire step
      exact Keeps.update found rfl
  | decide index =>
      obtain ⟨request, used, found, -, -, rfl⟩ := next_decide step
      exact Keeps.update found rfl
  | unreachable index =>
      obtain ⟨request, found, rfl⟩ := next_unreachable step
      exact Keeps.update found rfl

theorem keeps_of_exec {actions : List Action}
    (run : exec (next options route ip) source actions = some target) : Keeps source target :=
  exec_relation Keeps.refl Keeps.trans
    (fun (_ : True) step => ⟨trivial, keeps_of_next step⟩) run trivial

/-- What is wanted at one place only is wanted at most once. -/
theorem countP_le_one {α : Type} {wanted : α → Bool} {items : List α} (index : ℕ)
    (only : ∀ other item, items[other]? = some item → wanted item = true → other = index) :
    items.countP wanted ≤ 1 := by
  induction items generalizing index with
  | nil => exact Nat.zero_le 1
  | cons head rest ih =>
      cases index with
      | zero =>
          have none_wanted : rest.countP wanted = 0 := by
            rw [List.countP_eq_zero]
            intro item member isWanted
            obtain ⟨other, found⟩ := List.getElem?_of_mem member
            cases only (other + 1) item found isWanted
          rw [List.countP_cons, none_wanted]
          split <;> decide
      | succ index =>
          have unwanted : ¬wanted head = true := by
            intro isWanted
            cases only 0 head rfl isWanted
          rw [List.countP_cons, if_neg unwanted]
          refine ih index fun other item found isWanted => ?_
          exact Nat.succ_inj.mp (only (other + 1) item found isWanted)

/-! ## A refusal and a retry -/

variable (options route ip) in
/-- A request is refused with this header; so much later the next one arrives, and no other
request has its bucket. -/
def RetriedAlone (value : Text) (elapsedMs : ℤ) (retry : Request) : Prop :=
  ∃ (now : ℕ) (first second third : List Action) (refusing arriving target : State) (index : ℕ)
      (request : Request) (response : TooManyRequests) (moment : ℕ),
    exec (next options route ip) (start now) first = some refusing ∧
    refusing.requests[index]? = some request ∧ request.phase = .refused response moment ∧
    response.header = value ∧
    exec (next options route ip) refusing second = some arriving ∧
    moment + elapsedMs ≤ arriving.now ∧
    exec (next options route ip) arriving (.arrive :: third) = some target ∧
    target.requests[arriving.requests.length]? = some retry ∧
    ∀ (other : ℕ) (request : Request),
      target.requests[other]? = some request → request.bucket = retry.bucket →
      other = index ∨ other = arriving.requests.length

/-- A retry that comes as late as advised is not refused. -/
theorem RetriedAlone.not_refused {seconds : ℕ} {elapsedMs : ℤ} {retry : Request}
    (retried : RetriedAlone options route ip (digits seconds) elapsedMs retry)
    (limit_pos : 0 < options.limit) (waited : 1000 * seconds ≤ elapsedMs)
    (response : TooManyRequests) (moment : ℕ) : retry.phase ≠ .refused response moment := by
  intro again
  obtain ⟨now, first, second, third, refusing, arriving, target, index, request, response, moment,
    run, found, refused, header, later, arrived_at, last, present, alone⟩ := retried
  obtain ⟨-, advised, advised_header, later_bucket⟩ :=
    of_refused run (List.mem_of_getElem? found) refused
  cases digits_injective (advised_header.symm.trans header)
  have late : moment + 1000 * seconds ≤ arriving.now := by omega
  obtain ⟨arrived, arrives, goes_on⟩ := exec_cons_eq_some_iff.mp last
  have fresh : arrived.requests[arriving.requests.length]? =
      some { bucket := bucketOf options arriving.now } := by
    rw [next_arrive arrives]
    exact List.getElem?_concat_length
  obtain ⟨_, present', bucket⟩ := keeps_of_exec goes_on _ _ fresh
  cases present.symm.trans present'
  obtain ⟨kept, found, kept_bucket⟩ :=
    (keeps_of_exec later).trans (keeps_of_exec last) index request found
  have single : target.arrivals retry.bucket ≤ 1 := by
    refine countP_le_one arriving.requests.length fun other item found' same => ?_
    rcases alone other item found' (beq_iff_eq.mp same) with rfl | retried
    · cases found.symm.trans found'
      have ahead := later_bucket arriving.now late
      rw [← kept_bucket, beq_iff_eq.mp same, bucket] at ahead
      exact absurd ahead (lt_irrefl _)
    · exact retried
  have whole : exec (next options route ip) (start now) (first ++ (second ++ .arrive :: third)) =
      some target :=
    exec_append_eq_some_iff.mpr ⟨_, run, exec_append_eq_some_iff.mpr ⟨_, later, last⟩⟩
  have crowd : options.limit < target.arrivals retry.bucket :=
    (of_refused whole (List.mem_of_getElem? present) again).1
  omega

/-! ## The SDK at the guard -/

/-- Whatever is sent again after a refusal with this header is not refused. -/
def GetsThrough (policy : RetryPolicy) (value : Text) : Prop :=
  ∀ refused sent, Resends policy value refused sent →
    ∀ options route ip, 0 < options.limit →
      ∀ retry, RetriedAlone options route ip value ⌊sent.now - refused.now⌋ retry →
        ∀ response moment, retry.phase ≠ .refused response moment

/-- A policy that waits for what the header says waits for every second of it. -/
theorem le_of_resends {policy : RetryPolicy} {seconds : ℕ} (waits : policy.Waits (toDouble seconds))
    {refused sent : Sdk.Http.Timed} (resends : Resends policy (digits seconds) refused sent) :
    refused.now + 1000 * seconds ≤ sent.now := by
  refine resends.le (number_digits seconds) (fun positive retries => ?_) fun past => ?_
  · have within := waits.resolve_left retries
    have safe : seconds < 2 ^ 53 := by
      by_contra large
      have beyond := le_toDouble (not_lt.mp large)
      rcases within with small | ⟨-, longest, -⟩ <;> linarith
    rw [toDouble_of_safe safe] at within ⊢
    rw [mul_comm]
    exact (Sdk.Http.le_timerMs_waitMs_iff policy).mpr within
  · have safe : seconds < 2 ^ 53 := by
      by_contra large
      have beyond := le_toDouble (not_lt.mp large)
      linarith
    rw [toDouble_of_safe safe] at past
    linarith

/-- The header of a refusal is a number of seconds. -/
theorem RetriedAlone.header {value : Text} {elapsedMs : ℤ} {retry : Request}
    (retried : RetriedAlone options route ip value elapsedMs retry) :
    ∃ seconds, value = digits seconds := by
  obtain ⟨now, first, -, -, refusing, -, -, index, request, response, moment, run, found, refused,
    header, -⟩ := retried
  obtain ⟨-, seconds, advised, -⟩ := of_refused run (List.mem_of_getElem? found) refused
  exact ⟨seconds, header.symm.trans advised⟩

theorem getsThrough_of_waits {policy : RetryPolicy} {value : Text} {seconds : ℚ}
    (numeric : number value = some seconds) (waits : policy.Waits seconds) :
    GetsThrough policy value := by
  intro refused sent resends options route ip limit_pos retry retried
  obtain ⟨printed, header⟩ := retried.header
  subst header
  rw [number_digits, Option.some_inj] at numeric
  subst numeric
  have waited := le_of_resends waits resends
  refine retried.not_refused limit_pos ?_
  rw [Int.le_floor]
  push_cast
  linarith

/-- The advice of a 429 is respected exactly under the policies that wait for so long, and
under these a call gets through. -/
theorem advice_respected_iff (policy : RetryPolicy) {value : Text} {seconds : ℚ}
    (numeric : number value = some seconds) :
    (Honours policy value seconds ↔ policy.Waits seconds) ∧
      (policy.Waits seconds → GetsThrough policy value) :=
  ⟨Sdk.Http.honours_iff_waits policy numeric, getsThrough_of_waits numeric⟩

/-! ## Two seconds and a minute -/

theorem number_digits_of_safe {n : ℕ} (safe : n < 2 ^ 53) : number (digits n) = some (n : ℚ) := by
  rw [number_digits, toDouble_of_safe safe]

theorem waits_twoSeconds : defaultRetry.Waits (2 : ℕ) := by
  have product : toDouble ((2 : ℕ) * 1000) = 2000 := by
    have exact_value : toDouble (2000 : ℕ) = (2000 : ℕ) := toDouble_of_safe (by decide)
    norm_num at exact_value ⊢
    exact exact_value
  refine .inr (.inr ⟨?_, by norm_num, ?_⟩)
  · norm_num [defaultRetry]
  · rw [product]
    norm_num

theorem advice_respected_iff_twoSeconds :
    Honours defaultRetry (digits 2) (2 : ℕ) ∧ GetsThrough defaultRetry (digits 2) := by
  have both := advice_respected_iff defaultRetry (number_digits_of_safe (n := 2) (by decide))
  exact ⟨both.1.mpr waits_twoSeconds, both.2 waits_twoSeconds⟩

/-- A minute is longer than the default policy waits. -/
theorem minute_not_honoured :
    number (digits 60) = some (60 : ℕ) ∧ ¬Honours defaultRetry (digits 60) (60 : ℕ) := by
  have numeric : number (digits 60) = some (60 : ℕ) := number_digits_of_safe (by decide)
  refine ⟨numeric, ?_⟩
  rw [Sdk.Http.honours_iff_waits defaultRetry numeric]
  rintro (none_left | small | ⟨within, -⟩)
  · cases none_left
  · norm_num at small
  · norm_num [defaultRetry] at within

end RiskRail.RateLimit
