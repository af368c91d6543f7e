import RiskRail.RateLimit.Guard

/-!
# The shared limit

As long as no counter is started again after requests of its bucket were counted on it,
the answers to the requests of a bucket are different numbers, and those up to the limit
are admitted.  A request that is counted within its own window finds the counter of the
earlier ones.
-/

namespace RiskRail.RateLimit

open RiskRail.Javascript Text RiskRail.Transition

variable (options : RateLimitOptions) (route ip : String)

/-- Redis answers. -/
def Action.Answered (action : Action) : Prop :=
  ∀ index, action ≠ .unreachable index

/-- A counter that is gone is incremented only if nothing was counted on it. -/
def Kept (state : State) : Action → Prop
  | .incr index => ∀ request ∈ state.requests[index]?,
      state.redis.live state.now (rateLimitKey route ip request.bucket) = none →
        ∀ other ∈ state.requests, other.bucket = request.bucket → other.used = none
  | _ => True

/-! ## What holds of a request -/

/-- Whoever waits for so long is in a later bucket. -/
def Advises (bucket : ℕ) (response : TooManyRequests) (moment : ℕ) : Prop :=
  ∃ seconds, response.header = digits seconds ∧
    ∀ later, moment + 1000 * seconds ≤ later → bucket < bucketOf options later

/-- The advice leads past the end of the window. -/
theorem advises_tooManyRequests (bucket moment : ℕ) :
    Advises options bucket (tooManyRequests options bucket moment) moment := by
  refine ⟨_, rfl, fun later waited => ?_⟩
  have positive := options.windowSeconds_pos
  unfold bucketOf
  rw [Nat.lt_iff_add_one_le, Nat.le_div_iff_mul_le positive]
  omega

/-- What every run keeps true of a request. -/
structure Request.Sound (request : Request) : Prop where
  positive : ∀ used ∈ request.used, 1 ≤ used
  admitted : request.phase = .admitted → ∃ used ∈ request.used, used ≤ options.limit
  refused : ∀ response moment, request.phase = .refused response moment →
    Advises options request.bucket response moment

variable {options route ip} {state source target : State} {request : Request} {index : ℕ}

theorem Request.Sound.arrived (bucket : ℕ) : Request.Sound options { bucket := bucket } where
  positive _ member := nomatch member
  admitted isAdmitted := nomatch isAdmitted
  refused _ _ isRefused := nomatch isRefused

theorem Request.Sound.counted {used : ℕ} (positive : 1 ≤ used) :
    (counted request used).Sound options where
  positive := by
    rintro _ ⟨⟩
    exact positive
  admitted isAdmitted := by
    rcases counted_phase request used with phase | phase <;> cases phase.symm.trans isAdmitted
  refused _ _ isRefused := by
    rcases counted_phase request used with phase | phase <;> cases phase.symm.trans isRefused

theorem Request.Sound.deciding (sound : request.Sound options) :
    Request.Sound options { request with phase := .deciding } where
  positive := sound.positive
  admitted isAdmitted := nomatch isAdmitted
  refused _ _ isRefused := nomatch isRefused

theorem Request.Sound.decided (sound : request.Sound options) {used : ℕ}
    (answered : request.used = some used) (now : ℕ) :
    (decided options now request used).Sound options := by
  rcases decided_phase options now request used with ⟨phase, le⟩ | ⟨phase, exceeds⟩
  · constructor
    · exact sound.positive
    · exact fun _ => ⟨used, answered, le⟩
    · intro response moment isRefused
      cases phase.symm.trans isRefused
  · constructor
    · exact sound.positive
    · intro isAdmitted
      cases phase.symm.trans isAdmitted
    · intro response moment isRefused
      cases phase.symm.trans isRefused
      exact advises_tooManyRequests options request.bucket now

/-! ## The counts of a state -/

variable (options route ip) in
/-- What every run keeps true of the counters. -/
structure Counts (state : State) : Prop where
  sound : ∀ request ∈ state.requests, request.Sound options
  /-- No answer is larger than the counter it came from. -/
  counter : ∀ request ∈ state.requests, ∀ used ∈ request.used,
    ∃ counter, state.redis (rateLimitKey route ip request.bucket) = some counter ∧
      used ≤ counter.count
  /-- Two requests of a bucket have different answers. -/
  distinct : ∀ i j : ℕ, i ≠ j → ∀ first ∈ state.requests[i]?, ∀ second ∈ state.requests[j]?,
    first.bucket = second.bucket → first.used = second.used → first.used = none

/-- One request goes on, and the counters are as large as the answers still. -/
theorem Counts.update (counts : Counts options route ip state) {after : Request}
    {redis : Counters String}
    (found : state.requests[index]? = some request) (bucket_eq : after.bucket = request.bucket)
    (stays : ∀ other ∈ state.requests, ∀ used ∈ other.used, ∃ counter,
      redis (rateLimitKey route ip other.bucket) = some counter ∧ used ≤ counter.count)
    (sound : after.Sound options)
    (counter : ∀ used ∈ after.used, ∃ counter,
      redis (rateLimitKey route ip request.bucket) = some counter ∧ used ≤ counter.count)
    (distinct : ∀ place, place ≠ index → ∀ other ∈ state.requests[place]?,
      other.bucket = request.bucket → other.used = after.used → other.used = none) :
    Counts options route ip { state.update index after with redis := redis } := by
  have member_cases : ∀ other ∈ state.requests.set index after,
      other = after ∨ other ∈ state.requests := fun other member =>
    (List.mem_or_eq_of_mem_set member).symm
  have found_cases : ∀ place, ∀ other ∈ (state.requests.set index after)[place]?,
      place = index ∧ other = after ∨ place ≠ index ∧ state.requests[place]? = some other := by
    intro place other member
    rw [List.getElem?_set] at member
    split at member
    next same =>
      split at member
      · cases member
        exact .inl ⟨same.symm, rfl⟩
      · cases member
    next differs => exact .inr ⟨Ne.symm differs, member⟩
  constructor
  · intro other member
    rcases member_cases other member with rfl | old
    · exact sound
    · exact counts.sound other old
  · intro other member used answered
    rcases member_cases other member with rfl | old
    · rw [bucket_eq]
      exact counter used answered
    · exact stays other old used answered
  · intro i j differ first member_first second member_second same_bucket same_used
    rcases found_cases i first member_first with ⟨rfl, rfl⟩ | ⟨i_ne, old_first⟩
    · rcases found_cases j second member_second with ⟨rfl, rfl⟩ | ⟨j_ne, old_second⟩
      · exact absurd rfl differ
      · rw [same_used]
        exact distinct j j_ne second old_second (same_bucket.symm.trans bucket_eq)
          same_used.symm
    · rcases found_cases j second member_second with ⟨rfl, rfl⟩ | ⟨j_ne, old_second⟩
      · exact distinct i i_ne first old_first (same_bucket.trans bucket_eq) same_used
      · exact counts.distinct i j differ first old_first second old_second same_bucket same_used

/-- INCR of a counter that is kept answers with a number of its own. -/
theorem Counts.incr (counts : Counts options route ip source)
    (kept : Kept route ip source (.incr index))
    (step : next options route ip source (.incr index) = some target) :
    Counts options route ip target := by
  obtain ⟨request, found, phase, rfl⟩ := next_incr step
  have positive : 1 ≤ (source.redis.incremented source.now
      (rateLimitKey route ip request.bucket)).count := by
    unfold Counters.incremented
    split
    · exact le_rfl
    · exact Nat.le_add_left 1 _
  have below : ∀ other ∈ source.requests, other.bucket = request.bucket →
      ∀ used ∈ other.used, used < (source.redis.incremented source.now
        (rateLimitKey route ip request.bucket)).count := by
    intro other member same used answered
    cases there : source.redis.live source.now (rateLimitKey route ip request.bucket) with
    | none =>
        rw [Option.mem_def, kept request found there other member same] at answered
        cases answered
    | some present =>
        obtain ⟨counter, stored, le⟩ := counts.counter other member used answered
        rw [same, Counters.of_live there] at stored
        cases stored
        rw [Counters.incremented_of_live there]
        exact Nat.lt_succ_of_le le
  refine counts.update found rfl ?_ (.counted positive) ?_ ?_
  · intro other member used answered
    by_cases same : other.bucket = request.bucket
    · rw [same]
      exact ⟨_, Counters.incr_self, (below other member same used answered).le⟩
    · rw [Counters.incr_of_ne (rateLimitKey_injective.ne same)]
      exact counts.counter other member used answered
  · rintro _ ⟨⟩
    exact ⟨_, Counters.incr_self, le_rfl⟩
  · intro place differs other member same answered
    have lt := below other (List.mem_of_getElem? member) same _ answered
    exact absurd rfl lt.ne

theorem Counts.expire (counts : Counts options route ip source)
    (step : next options route ip source (.expire index) = some target) :
    Counts options route ip target := by
  obtain ⟨request, found, phase, rfl⟩ := next_expire step
  have member := List.mem_of_getElem? found
  have stays : ∀ other ∈ source.requests, ∀ used ∈ other.used, ∃ counter,
      source.redis.expire source.now (rateLimitKey route ip request.bucket)
        options.windowSeconds (rateLimitKey route ip other.bucket) = some counter ∧
      used ≤ counter.count := by
    intro other member used answered
    obtain ⟨counter, stored, le⟩ := counts.counter other member used answered
    by_cases same : other.bucket = request.bucket
    · rw [same] at stored ⊢
      obtain ⟨after, stored_after, count_eq, -⟩ := Counters.expire_self stored
      exact ⟨after, stored_after, count_eq ▸ le⟩
    · rw [Counters.expire_of_ne (rateLimitKey_injective.ne same)]
      exact ⟨counter, stored, le⟩
  exact counts.update found rfl stays (counts.sound request member).deciding
    (stays request member) fun place differs other later same answered =>
      counts.distinct place index differs other later request found same answered

theorem Counts.decide (counts : Counts options route ip source)
    (step : next options route ip source (.decide index) = some target) :
    Counts options route ip target := by
  obtain ⟨request, used, found, phase, answered, rfl⟩ := next_decide step
  have member := List.mem_of_getElem? found
  exact counts.update found rfl counts.counter
    ((counts.sound request member).decided answered source.now)
    (counts.counter request member) fun place differs other later same answered =>
      counts.distinct place index differs other later request found same answered

theorem Counts.arrive (counts : Counts options route ip source)
    (step : next options route ip source .arrive = some target) :
    Counts options route ip target := by
  cases next_arrive step
  have found_cases : ∀ place : ℕ, ∀ other ∈
      (source.requests ++ [{ bucket := bucketOf options source.now }])[place]?,
      source.requests[place]? = some other ∨ other.used = none := by
    intro place other member
    rw [List.getElem?_append] at member
    split at member
    · exact .inl member
    · exact .inr (by rw [List.mem_singleton.mp (List.mem_of_getElem? member)])
  constructor
  · intro other member
    rcases List.mem_append.mp member with old | new
    · exact counts.sound other old
    · rw [List.mem_singleton.mp new]
      exact .arrived _
  · intro other member used answered
    rcases List.mem_append.mp member with old | new
    · exact counts.counter other old used answered
    · rw [List.mem_singleton.mp new] at answered
      cases answered
  · intro i j differ first member_first second member_second same_bucket same_used
    rcases found_cases i first member_first with old_first | unanswered
    · rcases found_cases j second member_second with old_second | unanswered
      · exact counts.distinct i j differ first old_first second old_second same_bucket same_used
      · exact same_used.trans unanswered
    · exact unanswered

/-- The invariant of a run in which Redis answers and no counter starts again. -/
theorem Counts.next {action : Action} (counts : Counts options route ip source)
    (guard : Kept route ip source action ∧ action.Answered)
    (step : RateLimit.next options route ip source action = some target) :
    Counts options route ip target := by
  cases action with
  | tick milliseconds =>
      cases next_tick step
      exact ⟨counts.sound, counts.counter, counts.distinct⟩
  | arrive => exact counts.arrive step
  | incr index => exact counts.incr guard.1 step
  | expire index => exact counts.expire step
  | decide index => exact counts.decide step
  | unreachable index => exact absurd rfl (guard.2 index)

theorem Counts.start (now : ℕ) : Counts options route ip (start now) where
  sound _ member := nomatch member
  counter _ member := nomatch member
  distinct i j _ first member := by
    cases member

/-! ## The limit -/

/-- Different answers up to the limit. -/
theorem Counts.admitted_le (counts : Counts options route ip state) (bucket : ℕ) :
    state.admitted bucket ≤ options.limit := by
  have distinct : state.requests.Pairwise fun first second =>
      first.bucket = second.bucket → first.used = second.used → first.used = none := by
    rw [List.pairwise_iff_getElem]
    intro i j i_lt j_lt lt
    exact counts.distinct i j lt.ne _ (List.getElem?_eq_getElem i_lt) _
      (List.getElem?_eq_getElem j_lt)
  have answers : ∀ request ∈ state.requests.filter fun request =>
      request.bucket == bucket && request.phase.isAdmitted,
      request.bucket = bucket ∧
        ∃ used, request.used = some used ∧ 1 ≤ used ∧ used ≤ options.limit := by
    intro request member
    rw [List.mem_filter, Bool.and_eq_true, beq_iff_eq] at member
    obtain ⟨member, same, isAdmitted⟩ := member
    have phase_eq : request.phase = .admitted := by
      cases phase : request.phase <;> rw [phase] at isAdmitted <;> first | rfl | cases isAdmitted
    obtain ⟨used, answered, le⟩ := (counts.sound request member).admitted phase_eq
    exact ⟨same, used, answered, (counts.sound request member).positive used answered, le⟩
  unfold State.admitted
  rw [List.countP_eq_length_filter]
  generalize admitted_eq : state.requests.filter _ = admitted at answers
  have nodup : (admitted.map fun request => request.used.getD 0).Nodup := by
    rw [List.Nodup, List.pairwise_map]
    rw [← admitted_eq] at answers ⊢
    apply (distinct.filter _).imp_of_mem
    intro first second first_member second_member apart same
    obtain ⟨first_bucket, used, first_used, -⟩ := answers first first_member
    obtain ⟨second_bucket, other, second_used, -⟩ := answers second second_member
    rw [first_used, second_used, Option.getD_some, Option.getD_some] at same
    subst same
    rw [apart (first_bucket.trans second_bucket.symm) (first_used.trans second_used.symm)]
      at first_used
    cases first_used
  have subset : (admitted.map fun request => request.used.getD 0) ⊆
      List.range' 1 options.limit := by
    intro number member
    obtain ⟨request, isAdmitted, rfl⟩ := List.mem_map.mp member
    obtain ⟨-, used, answered, positive, le⟩ := answers request isAdmitted
    rw [answered, Option.getD_some, List.mem_range'_1]
    omega
  have length_le := nodup.length_le_of_subset subset
  rwa [List.length_map, List.length_range'] at length_le

variable (options route ip) in
/-- In every run in which Redis answers and no counter is started again after requests of
its bucket were counted on it, the limit is shared: of every bucket at most as many
requests as it allows are admitted, and every refusal advises a wait that leads into a
later bucket. -/
theorem shared_of_kept {now : ℕ} {actions : List Action} {target : State}
    (along : Along (next options route ip) (Kept route ip) (start now) actions)
    (answered : ∀ action ∈ actions, action.Answered)
    (run : exec (next options route ip) (start now) actions = some target) :
    Shared options target := by
  have counts : Counts options route ip target :=
    (along.and_forall answered).invariant (fun counts guard step => counts.next guard step) run
      (.start now)
  exact ⟨counts.admitted_le, fun request member => (counts.sound request member).refused⟩

/-! ## Requests counted in time -/

variable (options) in
/-- INCR runs in the window the request has its bucket from. -/
def InWindow (state : State) : Action → Prop
  | .incr index => ∀ request ∈ state.requests[index]?, bucketOf options state.now = request.bucket
  | _ => True

instance (state : State) : (action : Action) → Decidable (InWindow options state action)
  | .incr index =>
      inferInstanceAs (Decidable (∀ request ∈ state.requests[index]?,
        bucketOf options state.now = request.bucket))
  | .tick _ | .arrive | .expire _ | .decide _ | .unreachable _ => isTrue trivial

variable (options route ip) in
/-- No request is ahead of the clock, and no counter ends before its window. -/
structure Timely (state : State) : Prop where
  begun : ∀ request ∈ state.requests, request.bucket ≤ bucketOf options state.now
  expiry : ∀ bucket, ∀ counter ∈ state.redis (rateLimitKey route ip bucket),
    ∀ moment ∈ counter.expiresAt, 1000 * ((bucket + 1) * options.windowSeconds) ≤ moment

theorem bucketOf_mono {now later : ℕ} (le : now ≤ later) :
    bucketOf options now ≤ bucketOf options later :=
  Nat.div_le_div_right (Nat.div_le_div_right le)

theorem le_bucketOf_iff {bucket now : ℕ} :
    bucket ≤ bucketOf options now ↔ 1000 * (bucket * options.windowSeconds) ≤ now := by
  rw [bucketOf, Nat.le_div_iff_mul_le options.windowSeconds_pos,
    Nat.le_div_iff_mul_le (by decide), mul_comm]

theorem Timely.next {action : Action} (timely : Timely options route ip source)
    (answered : action.Answered)
    (step : RateLimit.next options route ip source action = some target) :
    Timely options route ip target := by
  cases action with
  | tick milliseconds =>
      cases next_tick step
      exact ⟨fun request member => (timely.begun request member).trans
        (bucketOf_mono (Nat.le_add_right ..)), timely.expiry⟩
  | arrive =>
      cases next_arrive step
      refine ⟨fun request member => ?_, timely.expiry⟩
      rcases List.mem_append.mp member with old | new
      · exact timely.begun request old
      · rw [List.mem_singleton.mp new]
  | incr index =>
      obtain ⟨request, found, phase, rfl⟩ := next_incr step
      refine ⟨fun other member => ?_, fun bucket counter stored moment set => ?_⟩
      · rcases List.mem_or_eq_of_mem_set member with old | rfl
        · exact timely.begun other old
        · exact timely.begun request (List.mem_of_getElem? found)
      · obtain ⟨before, stored, set⟩ := Counters.expiresAt_of_incr stored set
        exact timely.expiry bucket before stored moment set
  | expire index =>
      obtain ⟨request, found, phase, rfl⟩ := next_expire step
      have begun := timely.begun request (List.mem_of_getElem? found)
      refine ⟨fun other member => ?_, fun bucket counter stored moment set => ?_⟩
      · rcases List.mem_or_eq_of_mem_set member with old | rfl
        · exact timely.begun other old
        · exact begun
      · rcases Counters.expiresAt_of_expire stored set with
          ⟨before, stored, set⟩ | ⟨same, rfl⟩
        · exact timely.expiry bucket before stored moment set
        · rw [rateLimitKey_injective same, Nat.add_mul, one_mul, Nat.mul_add]
          exact Nat.add_le_add_right (le_bucketOf_iff.mp begun) _
  | decide index =>
      obtain ⟨request, used, found, phase, answered, rfl⟩ := next_decide step
      refine ⟨fun other member => ?_, timely.expiry⟩
      rcases List.mem_or_eq_of_mem_set member with old | rfl
      · exact timely.begun other old
      · exact timely.begun request (List.mem_of_getElem? found)
  | unreachable index => exact absurd rfl (answered index)

theorem Timely.start (now : ℕ) : Timely options route ip (start now) where
  begun _ member := nomatch member
  expiry _ _ stored := nomatch stored

/-- In its own window a request finds the counter of the requests before it. -/
theorem kept_of_inWindow {action : Action} (counts : Counts options route ip state)
    (timely : Timely options route ip state) (inWindow : InWindow options state action) :
    Kept route ip state action := by
  cases action with
  | incr index =>
      intro request found gone other member same
      by_contra answered
      obtain ⟨used, answered⟩ := Option.ne_none_iff_exists'.mp answered
      obtain ⟨counter, stored, -⟩ := counts.counter other member used answered
      rw [same] at stored
      have there : state.redis.live state.now (rateLimitKey route ip request.bucket) =
          some counter := by
        apply Counters.live_of_expiresAt stored
        intro moment set
        have ends := timely.expiry request.bucket counter stored moment set
        have current : ¬request.bucket + 1 ≤ bucketOf options state.now := by
          rw [inWindow request found]
          exact Nat.not_succ_le_self _
        rw [le_bucketOf_iff, not_le] at current
        exact current.trans_le ends
      rw [there] at gone
      cases gone
  | tick | arrive | expire | decide | unreachable => trivial

/-- A run in which every request is counted in its own window keeps the counters. -/
theorem along_kept_of_inWindow {now : ℕ} {actions : List Action}
    (along : Along (next options route ip) (InWindow options) (start now) actions)
    (answered : ∀ action ∈ actions, action.Answered) :
    Along (next options route ip) (Kept route ip) (start now) actions :=
  (along.and_forall answered).imp
    (fun {source _ _} (both : Counts options route ip source ∧ Timely options route ip source)
      guard step => ⟨both.1.next ⟨kept_of_inWindow both.1 both.2 guard.1, guard.2⟩ step,
        both.2.next guard.2 step⟩)
    (fun both guard => kept_of_inWindow both.1 both.2 guard.1) ⟨.start now, .start now⟩

/-! ## A request that is late -/

/-- One request a minute. -/
def oneEachMinute : RateLimitOptions where
  limit := 1
  windowSeconds := 60
  windowSeconds_pos := by decide

/-- Two requests arrive together; the second is counted a minute later. -/
def lateIncrement : List Action :=
  [.arrive, .arrive, .incr 0, .expire 0, .decide 0, .tick 60000, .incr 1, .expire 1, .decide 1]

/-- By then the counter is gone, and both are admitted. -/
theorem lateIncrement_not_shared :
    ¬∀ (options : RateLimitOptions) (route ip : String) (now : ℕ) (actions : List Action)
      (target : State), (∀ action ∈ actions, action.Answered) →
      exec (next options route ip) (start now) actions = some target →
      Shared options target := by
  intro shared
  have evaluated : (exec (next oneEachMinute "/refresh" "::1") (start 0) lateIncrement).map
      (fun target => target.admitted 0) = some 2 := by
    decide +kernel
  obtain ⟨target, run, two⟩ := Option.map_eq_some_iff.mp evaluated
  have answered : ∀ action ∈ lateIncrement, action.Answered := by
    simp [lateIncrement, Action.Answered]
  have le := (shared oneEachMinute "/refresh" "::1" 0 _ target answered run).admitted_le 0
  rw [two] at le
  exact absurd le (by decide)

/-- Two requests in time: the second is refused. -/
def inTime : List Action :=
  [.arrive, .arrive, .incr 0, .incr 1, .expire 0, .decide 0, .tick 500, .decide 1]

theorem shared_of_kept_inTime :
    ∃ target, exec (next oneEachMinute "/refresh" "::1") (start 0) inTime = some target ∧
      Shared oneEachMinute target := by
  have evaluated : (exec (next oneEachMinute "/refresh" "::1") (start 0) inTime).isSome = true := by
    decide +kernel
  obtain ⟨target, run⟩ := Option.isSome_iff_exists.mp evaluated
  have answered : ∀ action ∈ inTime, action.Answered := by
    simp [inTime, Action.Answered]
  exact ⟨target, run, shared_of_kept oneEachMinute "/refresh" "::1"
    (along_kept_of_inWindow (by decide +kernel) answered) answered run⟩

end RiskRail.RateLimit
