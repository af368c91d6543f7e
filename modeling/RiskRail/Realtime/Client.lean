import RiskRail.Javascript.Listeners
import RiskRail.Javascript.Text
import RiskRail.Transition.Core

/-!
# The realtime client

One `RealtimeClient`, its socket and the rooms that the realtime service keeps for that
socket.  The socket delivers what is emitted in order; what is emitted while it is down
waits for the next connection and what is on its way when it goes down is lost.  Rooms do
not survive a connection.
-/

namespace RiskRail.Realtime

open RiskRail.Javascript Text RiskRail.Transition

universe u

/-- What the client emits. -/
inductive Emit where
  /-- `portfolio:subscribe`. -/
  | subscribe (address : Text)
  /-- `portfolio:unsubscribe`. -/
  | unsubscribe (address : Text)
deriving DecidableEq

/-! ## The service -/

/-- The room of a wallet. -/
def room (address : Text) : Text :=
  ofString "portfolio:" ++ address

theorem room_injective : Function.Injective room :=
  fun _ _ same => List.append_cancel_left same

/-- The service joins a room or leaves it, unless the address is too long. -/
def serve (rooms : List Text) : Emit → List Text
  | .subscribe address => if address.length < 80 then rooms.insert (room address) else rooms
  | .unsubscribe address =>
      if address.length < 80 then rooms.filter fun other => other ≠ room address else rooms

theorem mem_serve_subscribe_iff {rooms : List Text} {address joined : Text} :
    joined ∈ serve rooms (.subscribe address) ↔
      joined ∈ rooms ∨ address.length < 80 ∧ joined = room address := by
  rw [serve]
  split
  next short => simp [short, or_comm]
  next long => simp [long]

theorem mem_serve_unsubscribe_iff {rooms : List Text} {address joined : Text} :
    joined ∈ serve rooms (.unsubscribe address) ↔
      joined ∈ rooms ∧ ¬(address.length < 80 ∧ joined = room address) := by
  rw [serve]
  split
  next short => simp [short]
  next long => simp [long]

/-- Joining rooms one after the other. -/
theorem mem_foldl_subscribe_iff {addresses rooms : List Text} {joined : Text} :
    joined ∈ (addresses.map Emit.subscribe).foldl serve rooms ↔
      joined ∈ rooms ∨ ∃ address ∈ addresses, address.length < 80 ∧ joined = room address := by
  induction addresses generalizing rooms with
  | nil => simp
  | cons address rest ih =>
      rw [List.map_cons, List.foldl_cons, ih, mem_serve_subscribe_iff, List.exists_mem_cons_iff,
        or_assoc]

/-! ## The client -/

variable {η : Type u} [DecidableEq η]

/-- A call of `subscribe`, with its unsubscribe function. -/
structure Subscription (η : Type u) where
  address : Text
  handler : η
  /-- The unsubscribe function has been called. -/
  called : Bool := false
deriving DecidableEq

/-- The client, its socket and what the server knows. -/
structure State (η : Type u) where
  handlers : Listeners Text η
  subscriptions : List (Subscription η)
  /-- The first subscription makes the socket. -/
  socket : Bool
  connected : Bool
  /-- Emitted while the socket is down, oldest first. -/
  buffer : List Emit
  /-- On the way to the service, oldest first. -/
  wire : List Emit
  rooms : List Text

/-- What the page and the network do. -/
inductive Action (η : Type u) where
  /-- `subscribe` goes on once the socket is there. -/
  | subscribe (address : Text) (handler : η)
  /-- The unsubscribe function of a subscription is called. -/
  | unsubscribe (index : ℕ)
  | connect
  | disconnect
  /-- The service takes the next emit. -/
  | serve

/-- A message goes to the wire, or waits for the connection. -/
def State.emit (state : State η) (emit : Emit) : State η :=
  if state.connected then { state with wire := state.wire ++ [emit] }
  else { state with buffer := state.buffer ++ [emit] }

/-- The handlers that a message reaches, one after the other.  `returns` says which of them
return normally: nothing catches what a handler throws, and the ones behind it get nothing. -/
def handed (returns : η → Bool) : List η → List η
  | [] => []
  | handler :: rest => if returns handler then handler :: handed returns rest else [handler]

/-- Whom a message is handed to. -/
def State.delivered (state : State η) (returns : η → Bool) (address : Text) : List η :=
  if address = [] then [] else handed returns (state.handlers.of address)

/-- A handler for a wallet; the first one asks for its room. -/
def subscribe (state : State η) (address : Text) (handler : η) : State η :=
  let added : State η :=
    { state with
      handlers := state.handlers.add address handler
      subscriptions := state.subscriptions ++ [{ address := address, handler := handler }]
      socket := true }
  if address ∈ state.handlers.keys then added else added.emit (.subscribe address)

/-- The handler goes, and with the last one the room. -/
def unsubscribe (state : State η) (index : ℕ) (subscription : Subscription η) : State η :=
  let called : State η :=
    { state with
      subscriptions := state.subscriptions.set index { subscription with called := true } }
  if subscription.address ∈ state.handlers.keys then
    let removed : State η :=
      { called with handlers := state.handlers.remove subscription.address subscription.handler }
    -- Only leave the room once nothing is listening for this address.
    if (state.handlers.of subscription.address).erase subscription.handler = [] then
      removed.emit (.unsubscribe subscription.address)
    else removed
  else called

/-- One step of the page or of the network. -/
def next : Step (State η) (Action η)
  | state, .subscribe address handler => some (subscribe state address handler)
  | state, .unsubscribe index => state.subscriptions[index]?.map (unsubscribe state index)
  | state, .connect =>
      if state.socket = true ∧ state.connected = false then
        some { state with
          connected := true
          buffer := []
          -- Rooms live on the server and do not survive a reconnect.
          wire := state.buffer ++ state.handlers.keys.map Emit.subscribe
          rooms := [] }
      else none
  | state, .disconnect =>
      if state.connected then some { state with connected := false, wire := [], rooms := [] }
      else none
  | state, .serve =>
      match state.wire with
      | [] => none
      | emit :: rest => some { state with wire := rest, rooms := Realtime.serve state.rooms emit }

/-- A new client. -/
def start : State η where
  handlers := .empty
  subscriptions := []
  socket := false
  connected := false
  buffer := []
  wire := []
  rooms := []

/-! ## What subscriptions are for -/

/-- A subscription whose unsubscribe function has not been called. -/
def State.Live (state : State η) (address : Text) (handler : η) : Prop :=
  ∃ subscription ∈ state.subscriptions,
    subscription.address = address ∧ subscription.handler = handler ∧ subscription.called = false

/-- The handlers with a live subscription get the messages, unless one of them throws, and no
others get any.  When everything is processed the rooms are those of the addresses with a live
subscription. -/
structure Exact (state : State η) : Prop where
  delivered : ∀ address ≠ [], ∀ returns : η → Bool,
    (∀ handler, state.Live address handler → returns handler = true) →
      ∀ handler, handler ∈ state.delivered returns address ↔ state.Live address handler
  live : ∀ address returns, ∀ handler ∈ state.delivered returns address,
    state.Live address handler
  joined : state.connected = true → state.wire = [] → ∀ joined,
    joined ∈ state.rooms ↔ ∃ address, address.length < 80 ∧ joined = room address ∧
      ∃ handler, state.Live address handler

end RiskRail.Realtime
