import RiskRail.RateLimit.Shared

/-!
# Refusals come from a crowd

In every run, whatever happens to the counters, an answer counts requests of the bucket.
So a refused request is one of more than the limit allows, and the only request of a
bucket is admitted.
-/

namespace RiskRail.RateLimit

open RiskRail.Javascript Text RiskRail.Transition

/-- Setting an entry moves a count by that entry. -/
theorem countP_set_add {α : Type} (wanted : α → Bool) {items : List α} {index : ℕ}
    {before : α} (after : α) (found : items[index]? = some before) :
    (items.set index after).countP wanted + (if wanted before then 1 else 0) =
      items.countP wanted + if wanted after then 1 else 0 := by
  induction items generalizing index with
  | nil => cases found
  | cons head rest ih =>
      cases index with
      | zero =>
          cases found
          rw [List.set_cons_zero, List.countP_cons, List.countP_cons]
          omega
      | succ index =>
          have tail := ih found
          rw [List.set_cons_succ, List.countP_cons, List.countP_cons]
          omega

/-- How many requests of a bucket INCR has answered. -/
def State.answers (state : State) (bucket : ℕ) : ℕ :=
  state.requests.countP fun request => request.bucket == bucket && request.used.isSome

variable (options : RateLimitOptions) (route ip : String)

/-- What every run keeps true of counters and answers. -/
structure Crowded (state : State) : Prop where
  fresh : ∀ request ∈ state.requests, request.phase = .counting → request.used = none
  counter_le : ∀ bucket, ∀ counter ∈ state.redis (rateLimitKey route ip bucket),
    counter.count ≤ state.answers bucket
  used_le : ∀ request ∈ state.requests, ∀ used ∈ request.used, used ≤ state.answers request.bucket
  refused : ∀ request ∈ state.requests, ∀ response moment,
    request.phase = .refused response moment →
      (∃ used ∈ request.used, options.limit < used) ∧
        Advises options request.bucket response moment

variable {options route ip} {source target : State} {request after : Request} {index : ℕ}

/-- One request goes on without an answer. -/
theorem Crowded.update (crowded : Crowded options route ip source) {redis : Counters String}
    (found : source.requests[index]? = some request) (bucket_eq : after.bucket = request.bucket)
    (used_eq : after.used = request.used) (phase_ne : after.phase ≠ .counting)
    (counts : ∀ key, ∀ counter ∈ redis key,
      ∃ before, source.redis key = some before ∧ counter.count = before.count)
    (refused : ∀ response moment, after.phase = .refused response moment →
      (∃ used ∈ after.used, options.limit < used) ∧
        Advises options after.bucket response moment) :
    Crowded options route ip { source.update index after with redis := redis } := by
  have answers_eq (bucket : ℕ) :
      State.answers { source.update index after with redis := redis } bucket =
        source.answers bucket := by
    have moved := countP_set_add (fun request : Request =>
      request.bucket == bucket && request.used.isSome) after found
    rw [bucket_eq, used_eq] at moved
    exact Nat.add_right_cancel moved
  constructor
  · intro other member isCounting
    rcases List.mem_or_eq_of_mem_set member with old | rfl
    · exact crowded.fresh other old isCounting
    · exact absurd isCounting phase_ne
  · intro bucket counter stored
    obtain ⟨before, stored, count_eq⟩ := counts _ counter stored
    rw [answers_eq, count_eq]
    exact crowded.counter_le bucket before stored
  · intro other member used answered
    rw [answers_eq]
    rcases List.mem_or_eq_of_mem_set member with old | rfl
    · exact crowded.used_le other old used answered
    · rw [bucket_eq]
      exact crowded.used_le request (List.mem_of_getElem? found) used (used_eq ▸ answered)
  · intro other member
    rcases List.mem_or_eq_of_mem_set member with old | rfl
    · exact crowded.refused other old
    · exact refused

theorem Crowded.arrive (crowded : Crowded options route ip source)
    (step : next options route ip source .arrive = some target) :
    Crowded options route ip target := by
  cases next_arrive step
  have answers_eq (bucket : ℕ) : State.answers
      { source with
        requests := source.requests ++ [{ bucket := bucketOf options source.now }] } bucket =
        source.answers bucket := by
    unfold State.answers
    simp
  constructor
  · intro other member isCounting
    rcases List.mem_append.mp member with old | new
    · exact crowded.fresh other old isCounting
    · rw [List.mem_singleton.mp new]
  · intro bucket counter stored
    rw [answers_eq]
    exact crowded.counter_le bucket counter stored
  · intro other member used answered
    rw [answers_eq]
    rcases List.mem_append.mp member with old | new
    · exact crowded.used_le other old used answered
    · rw [List.mem_singleton.mp new] at answered
      cases answered
  · intro other member response moment isRefused
    rcases List.mem_append.mp member with old | new
    · exact crowded.refused other old response moment isRefused
    · rw [List.mem_singleton.mp new] at isRefused
      cases isRefused

/-- INCR counts one request more. -/
theorem Crowded.incr (crowded : Crowded options route ip source)
    (step : next options route ip source (.incr index) = some target) :
    Crowded options route ip target := by
  obtain ⟨request, found, phase, rfl⟩ := next_incr step
  generalize counter_eq :
    source.redis.incremented source.now (rateLimitKey route ip request.bucket) = incremented
  have unanswered := crowded.fresh request (List.mem_of_getElem? found) phase
  have answers_eq (bucket : ℕ) : State.answers
      { source.update index (counted request incremented.count) with
        redis := source.redis.incr source.now (rateLimitKey route ip request.bucket) } bucket =
        source.answers bucket + if bucket = request.bucket then 1 else 0 := by
    have moved := countP_set_add (fun request : Request =>
      request.bucket == bucket && request.used.isSome) (counted request incremented.count) found
    rw [if_neg (by simp [unanswered])] at moved
    unfold State.answers
    rw [add_zero] at moved
    rw [show (({ source.update index (counted request incremented.count) with
      redis := source.redis.incr source.now (rateLimitKey route ip request.bucket) } :
        State).requests) = source.requests.set index (counted request incremented.count) from rfl,
      moved]
    by_cases same : bucket = request.bucket
    · simp [counted, same]
    · simp [counted, same, Ne.symm same]
  have count_le : incremented.count ≤ source.answers request.bucket + 1 := by
    rw [← counter_eq]
    cases there : source.redis.live source.now (rateLimitKey route ip request.bucket) with
    | none =>
        rw [Counters.incremented_of_not_live there]
        exact Nat.le_add_left 1 _
    | some present =>
        rw [Counters.incremented_of_live there]
        exact Nat.add_le_add_right
          (crowded.counter_le request.bucket present (Counters.of_live there)) 1
  constructor
  · intro other member isCounting
    rcases List.mem_or_eq_of_mem_set member with old | rfl
    · exact crowded.fresh other old isCounting
    · rcases counted_phase request incremented.count with phase | phase <;>
        cases phase.symm.trans isCounting
  · intro bucket counter stored
    rw [answers_eq]
    by_cases same : bucket = request.bucket
    · subst same
      rw [if_pos rfl]
      cases Counters.incr_self.symm.trans stored
      rwa [counter_eq]
    · rw [if_neg same]
      exact crowded.counter_le bucket counter
        ((Counters.incr_of_ne (rateLimitKey_injective.ne same)).symm.trans stored)
  · intro other member used answered
    rw [answers_eq]
    rcases List.mem_or_eq_of_mem_set member with old | rfl
    · exact (crowded.used_le other old used answered).trans (Nat.le_add_right ..)
    · cases answered
      exact count_le.trans (by rw [counted, if_pos rfl])
  · intro other member response moment isRefused
    rcases List.mem_or_eq_of_mem_set member with old | rfl
    · exact crowded.refused other old response moment isRefused
    · rcases counted_phase request incremented.count with phase | phase <;>
        cases phase.symm.trans isRefused

theorem Crowded.next {action : Action} (crowded : Crowded options route ip source)
    (step : RateLimit.next options route ip source action = some target) :
    Crowded options route ip target := by
  cases action with
  | tick milliseconds =>
      cases next_tick step
      exact ⟨crowded.fresh, crowded.counter_le, crowded.used_le, crowded.refused⟩
  | arrive => exact crowded.arrive step
  | incr index => exact crowded.incr step
  | expire index =>
      obtain ⟨request, found, phase, rfl⟩ := next_expire step
      exact crowded.update found rfl rfl (fun isCounting => nomatch isCounting)
        (fun _ _ stored => Counters.of_expire stored) fun _ _ isRefused => nomatch isRefused
  | decide index =>
      obtain ⟨request, used, found, phase, answered, rfl⟩ := next_decide step
      rcases decided_phase options source.now request used with ⟨phase, le⟩ | ⟨phase, exceeds⟩
      · refine crowded.update found rfl rfl ?_ (fun key counter stored => ⟨counter, stored, rfl⟩) ?_
        · exact fun isCounting => nomatch phase.symm.trans isCounting
        · exact fun _ _ isRefused => nomatch phase.symm.trans isRefused
      · refine crowded.update found rfl rfl ?_ (fun key counter stored => ⟨counter, stored, rfl⟩) ?_
        · exact fun isCounting => nomatch phase.symm.trans isCounting
        · intro response moment isRefused
          cases phase.symm.trans isRefused
          exact ⟨⟨used, answered, exceeds⟩,
            advises_tooManyRequests options request.bucket source.now⟩
  | unreachable index =>
      obtain ⟨request, found, rfl⟩ := next_unreachable step
      exact crowded.update found rfl rfl (fun isCounting => nomatch isCounting)
        (fun _ counter stored => ⟨counter, stored, rfl⟩) fun _ _ isRefused => nomatch isRefused

theorem Crowded.start (now : ℕ) : Crowded options route ip (start now) where
  fresh _ member := nomatch member
  counter_le _ _ stored := nomatch stored
  used_le _ member := nomatch member
  refused _ member := nomatch member

/-- How many requests took a bucket. -/
def State.arrivals (state : State) (bucket : ℕ) : ℕ :=
  state.requests.countP fun request => request.bucket == bucket

theorem State.answers_le (state : State) (bucket : ℕ) :
    state.answers bucket ≤ state.arrivals bucket :=
  List.countP_mono_left fun _ _ both => (Bool.and_eq_true _ _ ▸ both).1

/-- A refused request is one of more than the limit, and its refusal leads into a later
bucket. -/
theorem of_refused {now : ℕ} {actions : List Action}
    (run : exec (next options route ip) (start now) actions = some target)
    (member : request ∈ target.requests) {response : TooManyRequests} {moment : ℕ}
    (refused : request.phase = .refused response moment) :
    options.limit < target.arrivals request.bucket ∧
      Advises options request.bucket response moment := by
  have crowded : Crowded options route ip target :=
    exec_invariant (fun crowded step => crowded.next step) run (.start now)
  obtain ⟨⟨used, answered, exceeds⟩, advises⟩ := crowded.refused request member _ _ refused
  refine ⟨?_, advises⟩
  calc
    options.limit < used := exceeds
    _ ≤ target.answers request.bucket := crowded.used_le request member used answered
    _ ≤ target.arrivals request.bucket := target.answers_le request.bucket

end RiskRail.RateLimit
