import RiskRail.Realtime.Client

/-!
# Exact subscriptions

In every run the rooms follow the keys of the handlers.  The handlers follow the live
subscriptions as long as an unsubscribe function is called only while no other
subscription of the same address and handler is live, since they share an entry.
-/

namespace RiskRail.Realtime

open RiskRail.Javascript Text RiskRail.Transition

universe u

variable {η : Type u}

/-! ## Rooms -/

/-- The room of an address with a handler. -/
def IsRoom (handlers : Listeners Text η) (joined : Text) : Prop :=
  ∃ address ∈ handlers.keys, address.length < 80 ∧ joined = room address

/-- Where the rooms are heading. -/
structure Mirrors (state : State η) : Prop where
  socket : state.subscriptions ≠ [] → state.socket = true
  online : state.connected = true → state.buffer = [] ∧
    ∀ joined, joined ∈ state.wire.foldl serve state.rooms ↔ IsRoom state.handlers joined
  offline : state.connected = false → state.wire = [] ∧ state.rooms = [] ∧
    ∀ joined ∈ state.buffer.foldl serve [], IsRoom state.handlers joined

variable {state source target : State η}

/-- What is emitted takes the rooms along. -/
theorem Mirrors.emit {handlers : Listeners Text η} {subscriptions : List (Subscription η)}
    {socket : Bool} (mirrors : Mirrors source) (made : socket = true) (emit : Emit)
    (follows : ∀ rooms : List Text, (∀ joined ∈ rooms, IsRoom source.handlers joined) →
      ∀ joined ∈ serve rooms emit, IsRoom handlers joined)
    (reached : ∀ rooms : List Text, (∀ joined, IsRoom source.handlers joined → joined ∈ rooms) →
      ∀ joined, IsRoom handlers joined → joined ∈ serve rooms emit) :
    Mirrors (State.emit { source with
      handlers := handlers
      subscriptions := subscriptions
      socket := socket } emit) := by
  unfold State.emit
  dsimp only
  split
  next connected =>
    obtain ⟨buffer, rooms⟩ := mirrors.online connected
    refine ⟨fun _ => made, fun _ => ⟨buffer, fun joined => ?_⟩, fun down => ?_⟩
    · rw [List.foldl_append]
      exact ⟨follows _ (fun joined => (rooms joined).mp) joined,
        reached _ (fun joined => (rooms joined).mpr) joined⟩
    · cases connected.symm.trans down
  next down =>
    obtain ⟨wire, rooms, buffered⟩ := mirrors.offline (Bool.eq_false_of_not_eq_true down)
    refine ⟨fun _ => made, fun connected => absurd connected down, fun _ => ⟨wire, rooms, ?_⟩⟩
    rw [List.foldl_append]
    exact follows _ buffered

/-- Without an emit the addresses stay. -/
theorem Mirrors.silent {handlers : Listeners Text η} {subscriptions : List (Subscription η)}
    {socket : Bool} (mirrors : Mirrors source) (made : socket = true)
    (same : ∀ address, address ∈ handlers.keys ↔ address ∈ source.handlers.keys) :
    Mirrors { source with
      handlers := handlers
      subscriptions := subscriptions
      socket := socket } := by
  have rooms (joined : Text) : IsRoom handlers joined ↔ IsRoom source.handlers joined := by
    simp only [IsRoom, same]
  refine ⟨fun _ => made, fun connected => ?_, fun down => ?_⟩
  · obtain ⟨buffer, online⟩ := mirrors.online connected
    exact ⟨buffer, fun joined => (online joined).trans (rooms joined).symm⟩
  · obtain ⟨wire, empty, buffered⟩ := mirrors.offline down
    exact ⟨wire, empty, fun joined member => (rooms joined).mpr (buffered joined member)⟩

variable [DecidableEq η]

theorem Mirrors.subscribe (mirrors : Mirrors source) (address : Text) (handler : η) :
    Mirrors (subscribe source address handler) := by
  unfold Realtime.subscribe
  dsimp only
  split
  next known =>
    refine mirrors.silent rfl fun other => ?_
    rw [Listeners.mem_keys_add_iff]
    exact ⟨fun either => either.elim id fun same => same ▸ known, .inl⟩
  next new =>
    apply mirrors.emit rfl
    · intro rooms inside joined member
      rcases mem_serve_subscribe_iff.mp member with old | ⟨short, rfl⟩
      · obtain ⟨other, key, rest⟩ := inside joined old
        exact ⟨other, Listeners.mem_keys_add_iff.mpr (.inl key), rest⟩
      · exact ⟨address, Listeners.mem_keys_add_iff.mpr (.inr rfl), short, rfl⟩
    · rintro rooms inside joined ⟨other, key, short, rfl⟩
      rw [mem_serve_subscribe_iff]
      rcases Listeners.mem_keys_add_iff.mp key with old | rfl
      · exact .inl (inside _ ⟨other, old, short, rfl⟩)
      · exact .inr ⟨short, rfl⟩

theorem Mirrors.unsubscribe {index : ℕ} {subscription : Subscription η}
    (mirrors : Mirrors source) (found : source.subscriptions[index]? = some subscription) :
    Mirrors (unsubscribe source index subscription) := by
  have socket : source.socket = true :=
    mirrors.socket (List.ne_nil_of_mem (List.mem_of_getElem? found))
  unfold Realtime.unsubscribe
  dsimp only
  split
  next known =>
    split
    next last =>
      apply mirrors.emit socket
      · intro rooms inside joined member
        obtain ⟨old, stays⟩ := mem_serve_unsubscribe_iff.mp member
        obtain ⟨other, key, short, rfl⟩ := inside joined old
        refine ⟨other, Listeners.mem_keys_remove_iff.mpr ⟨key, fun gone => ?_⟩, short, rfl⟩
        rw [gone.1] at short stays
        exact stays ⟨short, rfl⟩
      · rintro rooms inside joined ⟨other, key, short, rfl⟩
        obtain ⟨old, stays⟩ := Listeners.mem_keys_remove_iff.mp key
        refine mem_serve_unsubscribe_iff.mpr ⟨inside _ ⟨other, old, short, rfl⟩, ?_⟩
        exact fun same => stays ⟨room_injective same.2, last⟩
    next others =>
      refine mirrors.silent socket fun other => ?_
      rw [Listeners.mem_keys_remove_iff]
      exact and_iff_left fun gone => others gone.2
  next => exact mirrors.silent socket fun _ => Iff.rfl

theorem Mirrors.next {action : Action η} (mirrors : Mirrors source)
    (step : next source action = some target) : Mirrors target := by
  cases action with
  | subscribe address handler =>
      cases step
      exact mirrors.subscribe address handler
  | unsubscribe index =>
      obtain ⟨subscription, found, rfl⟩ := Option.map_eq_some_iff.mp step
      exact mirrors.unsubscribe found
  | connect =>
      rw [Realtime.next, Option.ite_none_right_eq_some] at step
      rcases step with ⟨⟨-, down⟩, stepped⟩
      cases stepped
      obtain ⟨-, -, buffered⟩ := mirrors.offline down
      refine ⟨mirrors.socket, fun _ => ⟨rfl, fun joined => ?_⟩, (nomatch ·)⟩
      rw [List.foldl_append, mem_foldl_subscribe_iff]
      exact or_iff_right_of_imp (buffered joined)
  | disconnect =>
      rw [Realtime.next, Option.ite_none_right_eq_some] at step
      rcases step with ⟨connected, stepped⟩
      cases stepped
      refine ⟨mirrors.socket, (nomatch ·), fun _ => ⟨rfl, rfl, ?_⟩⟩
      rw [(mirrors.online connected).1]
      exact fun _ member => nomatch member
  | serve =>
      rcases source with ⟨handlers, subscriptions, socket, connected, buffer, wire, rooms⟩
      cases wire with
      | nil => cases step
      | cons emit rest =>
          cases step
          refine ⟨mirrors.socket, mirrors.online, fun down => ?_⟩
          cases (mirrors.offline down).1

omit [DecidableEq η] in
theorem Mirrors.start : Mirrors (start : State η) where
  socket none_yet := absurd rfl none_yet
  online up := nomatch up
  offline _ := ⟨rfl, rfl, fun _ member => nomatch member⟩

/-! ## Handlers -/

/-- The unsubscribe function is called only while no other subscription of the same address
and handler is live. -/
def Alone (state : State η) : Action η → Prop
  | .unsubscribe index =>
      ∀ subscription ∈ state.subscriptions[index]?,
        ∀ other ∈ state.subscriptions.set index { subscription with called := true },
          other.address = subscription.address → other.handler = subscription.handler →
            other.called = true
  | _ => True

instance : DecidableRel (Alone (η := η))
  | state, .unsubscribe index =>
      inferInstanceAs (Decidable (∀ subscription ∈ state.subscriptions[index]?,
        ∀ other ∈ state.subscriptions.set index { subscription with called := true },
          other.address = subscription.address → other.handler = subscription.handler →
            other.called = true))
  | _, .subscribe _ _ | _, .connect | _, .disconnect | _, .serve => isTrue trivial

/-- The handlers are those with a live subscription. -/
def Follows (state : State η) : Prop :=
  ∀ address handler, handler ∈ state.handlers.of address ↔ state.Live address handler

section Fields

omit [DecidableEq η] in
@[simp]
theorem emit_handlers (emit : Emit) : (source.emit emit).handlers = source.handlers := by
  unfold State.emit
  split <;> rfl

omit [DecidableEq η] in
@[simp]
theorem emit_subscriptions (emit : Emit) :
    (source.emit emit).subscriptions = source.subscriptions := by
  unfold State.emit
  split <;> rfl

variable (address : Text) (handler : η) (index : ℕ) (subscription : Subscription η)

theorem subscribe_handlers :
    (subscribe source address handler).handlers = source.handlers.add address handler := by
  unfold subscribe
  dsimp only
  split <;> simp

theorem subscribe_subscriptions : (subscribe source address handler).subscriptions =
    source.subscriptions ++ [{ address := address, handler := handler }] := by
  unfold subscribe
  dsimp only
  split <;> simp

theorem unsubscribe_subscriptions : (unsubscribe source index subscription).subscriptions =
    source.subscriptions.set index { subscription with called := true } := by
  unfold unsubscribe
  dsimp only
  split
  · split <;> simp
  · rfl

variable {address handler index subscription}

/-- An unsubscribe function takes its handler out. -/
theorem mem_unsubscribe_iff :
    handler ∈ (unsubscribe source index subscription).handlers.of address ↔
      handler ∈ source.handlers.of address ∧
        ¬(address = subscription.address ∧ handler = subscription.handler) := by
  unfold unsubscribe
  dsimp only
  split
  next known => split <;> simp [Listeners.mem_of_remove_iff]
  next unknown =>
    refine (and_iff_left_of_imp fun member => ?_).symm
    rintro ⟨rfl, rfl⟩
    exact unknown (Listeners.mem_keys_iff.mpr ⟨_, member⟩)

end Fields

theorem Follows.subscribe (follows : Follows source) (address : Text) (handler : η) :
    Follows (subscribe source address handler) := by
  intro other listener
  rw [subscribe_handlers, Listeners.mem_of_add_iff, follows other listener, State.Live, State.Live,
    subscribe_subscriptions]
  constructor
  · rintro (⟨subscription, member, live⟩ | ⟨rfl, rfl⟩)
    · exact ⟨subscription, List.mem_append_left _ member, live⟩
    · exact ⟨_, List.mem_append_right _ (List.mem_singleton_self _), rfl, rfl, rfl⟩
  · rintro ⟨subscription, member, live⟩
    rcases List.mem_append.mp member with old | new
    · exact .inl ⟨subscription, old, live⟩
    · cases List.mem_singleton.mp new
      exact .inr ⟨live.1.symm, live.2.1.symm⟩

theorem Follows.unsubscribe {index : ℕ} {subscription : Subscription η} (follows : Follows source)
    (found : source.subscriptions[index]? = some subscription)
    (alone : Alone source (.unsubscribe index)) :
    Follows (unsubscribe source index subscription) := by
  intro address handler
  rw [mem_unsubscribe_iff, follows address handler, State.Live, State.Live,
    unsubscribe_subscriptions]
  constructor
  · rintro ⟨⟨other, member, rfl, rfl, live⟩, differs⟩
    obtain ⟨place, present⟩ := List.getElem?_of_mem member
    have elsewhere : index ≠ place := by
      rintro rfl
      cases found.symm.trans present
      exact differs ⟨rfl, rfl⟩
    exact ⟨other, List.mem_of_getElem? ((List.getElem?_set_ne elsewhere).trans present), rfl, rfl,
      live⟩
  · rintro ⟨other, member, rfl, rfl, live⟩
    have differs : ¬(other.address = subscription.address ∧
        other.handler = subscription.handler) := by
      intro same
      have called := alone subscription found other member same.1 same.2
      cases live.symm.trans called
    rcases List.mem_or_eq_of_mem_set member with old | rfl
    · exact ⟨⟨other, old, rfl, rfl, live⟩, differs⟩
    · exact absurd ⟨rfl, rfl⟩ differs

theorem Follows.next {action : Action η} (follows : Follows source) (alone : Alone source action)
    (step : next source action = some target) : Follows target := by
  cases action with
  | subscribe address handler =>
      cases step
      exact follows.subscribe address handler
  | unsubscribe index =>
      obtain ⟨subscription, found, rfl⟩ := Option.map_eq_some_iff.mp step
      exact follows.unsubscribe found alone
  | connect | disconnect =>
      rw [Realtime.next, Option.ite_none_right_eq_some] at step
      rcases step with ⟨-, stepped⟩
      cases stepped
      exact follows
  | serve =>
      rcases source with ⟨handlers, subscriptions, socket, connected, buffer, wire, rooms⟩
      cases wire with
      | nil => cases step
      | cons emit rest =>
          cases step
          exact follows

omit [DecidableEq η] in
theorem Follows.start : Follows (start : State η) := by
  intro address handler
  constructor
  · exact fun member => nomatch member
  · rintro ⟨subscription, member, -⟩
    cases member

/-! ## Messages -/

section Messages

omit [DecidableEq η]

variable {returns : η → Bool} {handlers : List η}

theorem handed_subset : handed returns handlers ⊆ handlers := by
  induction handlers with
  | nil => exact List.Subset.refl _
  | cons handler rest ih =>
      rw [handed]
      split
      next => exact List.cons_subset_cons _ ih
      next => exact List.cons_subset_cons _ (List.nil_subset _)

/-- Where no handler throws, all of them get the message. -/
theorem handed_eq_self (normal : ∀ handler ∈ handlers, returns handler = true) :
    handed returns handlers = handlers := by
  induction handlers with
  | nil => rfl
  | cons handler rest ih =>
      rw [List.forall_mem_cons] at normal
      rw [handed, if_pos normal.1, ih normal.2]

end Messages

omit [DecidableEq η] in
theorem Mirrors.exact (mirrors : Mirrors source) (follows : Follows source) : Exact source where
  delivered address nonempty returns normal handler := by
    have normally : ∀ handler ∈ source.handlers.of address, returns handler = true :=
      fun handler member => normal handler ((follows address handler).mp member)
    rw [State.delivered, if_neg nonempty, handed_eq_self normally]
    exact follows address handler
  live address returns handler member := by
    rw [State.delivered] at member
    split at member
    next => cases member
    next => exact (follows address handler).mp (handed_subset member)
  joined connected processed joined := by
    have rooms := (mirrors.online connected).2 joined
    rw [processed, List.foldl_nil] at rooms
    rw [rooms, IsRoom]
    simp only [Listeners.mem_keys_iff, follows _ _]
    constructor
    · rintro ⟨address, live, short, same⟩
      exact ⟨address, short, same, live⟩
    · rintro ⟨address, short, same, live⟩
      exact ⟨address, live, short, same⟩

/-- As long as no unsubscribe function is called beside another live subscription of its
address and handler, subscriptions are exact. -/
theorem exact_of_alone {actions : List (Action η)} {state : State η}
    (along : Along next Alone start actions) (run : exec next start actions = some state) :
    Exact state := by
  have both : Mirrors state ∧ Follows state :=
    along.invariant
      (fun {source _ _} (both : Mirrors source ∧ Follows source) alone step =>
        ⟨both.1.next step, both.2.next alone step⟩)
      run ⟨.start, .start⟩
  exact both.1.exact both.2

/-! ## Two handlers of one address -/

/-- A wallet. -/
def wallet : Text :=
  ofString "SP10GK6MG2GM7BCVYV7XBHK1JVJDHFDMNBENNBRC3"

/-- One handler leaves and comes back while the socket is down. -/
def comeBack : List (Action ℕ) :=
  [.subscribe wallet 0, .subscribe wallet 1, .connect, .serve, .serve, .unsubscribe 0, .disconnect,
    .subscribe wallet 0, .unsubscribe 1, .connect, .serve]

theorem exact_of_alone_comeBack :
    ∃ state, exec next start comeBack = some state ∧ Exact state := by
  have evaluated : (exec next start comeBack).isSome = true := by decide +kernel
  obtain ⟨state, run⟩ := Option.isSome_iff_exists.mp evaluated
  exact ⟨state, run, exact_of_alone (by decide +kernel) run⟩

/-- The same handler is subscribed twice and one of the two is given up. -/
def twice : List (Action ℕ) :=
  [.subscribe wallet 0, .subscribe wallet 0, .connect, .serve, .serve, .unsubscribe 0, .serve]

/-- A text that the service takes for no address. -/
def longAddress : Text :=
  List.replicate 80 0x53

/-- The other subscription gets nothing any more, an address that is too long gets no room,
one that is empty gets no messages, and neither does a handler behind one that throws. -/
theorem twice_not_exact :
    (∃ state, exec next start twice = some state ∧ state.Live wallet 0 ∧
      (∀ returns, state.delivered returns wallet = []) ∧ state.rooms = []) ∧
    (∃ state, exec next start [.subscribe longAddress 0, .connect, .serve, .serve] = some state ∧
      state.Live longAddress 0 ∧ state.wire = [] ∧ state.rooms = []) ∧
    (∃ state, exec next start [.subscribe [] 0] = some state ∧ state.Live [] 0 ∧
      ∀ returns, state.delivered returns [] = []) ∧
    ∃ state, exec next start [.subscribe wallet 0, .subscribe wallet 1, .connect, .serve, .serve] =
        some state ∧ state.Live wallet 1 ∧
      state.delivered (fun handler => handler != 0) wallet = [0] := by
  refine ⟨⟨_, rfl, ⟨⟨wallet, 0, false⟩, ?_, rfl, rfl, rfl⟩, fun _ => rfl, ?_⟩,
    ⟨_, rfl, ⟨⟨longAddress, 0, false⟩, ?_, rfl, rfl, rfl⟩, ?_, ?_⟩,
    ⟨_, rfl, ⟨⟨[], 0, false⟩, ?_, rfl, rfl, rfl⟩, fun _ => rfl⟩,
    ⟨_, rfl, ⟨⟨wallet, 1, false⟩, ?_, rfl, rfl, rfl⟩, ?_⟩⟩
  all_goals decide +kernel

end RiskRail.Realtime
