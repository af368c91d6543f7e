import RiskRail.Attestation.Worker
import RiskRail.Chainhook.Confirmations

/-!
# Attestations and their confirmations

One wallet's risk snapshots, the worker that attests them one at a time, the
chain its transactions are mined on, and the Chainhook deliveries that tell which
snapshot each became.  The worker stores a transaction id after its broadcast, so
a confirmation can come before there is a row it matches.  Other wallets'
attestations are transactions of the chain like any other.
-/

namespace RiskRail.Attestation.Confirmation

open RiskRail.Clarity RiskRail.Chainhook RiskRail.Database RiskRail.Relational RiskRail.Transition
open RiskRail.Attestation.Worker (Newer decision SameFigures scoreRow)

/-- A snapshot and the transaction that attests it. -/
abbrev Broadcast := RiskSnapshot × TxId

/-- The worker, the chain and the deliveries about it. -/
structure State where
  rows : List RiskSnapshot
  onchainTxId : ℕ → Option String
  onchainSnapshotId : ℕ → Option ℕ
  /-- The broadcast whose id is still to be stored. -/
  sending : Option Broadcast
  /-- All broadcasts, from first to last. -/
  broadcasts : List Broadcast
  /-- The canonical chain, from its first block on. -/
  chain : List Block
  /-- Every transaction that was ever in a block. -/
  mined : List TxId
  /-- The changes of the chain that are still to be delivered, in order. -/
  deliveries : List Delivery
  /-- The payload delivered last. -/
  payload : Option ChainhookPayload
  /-- The updates of that delivery that are still to run. -/
  updates : List (String × Option ℕ)
  /-- What the updates that ran say of each transaction. -/
  reported : String → Option ℕ

/-- Nothing is stored, broadcast or mined. -/
def State.initial : State where
  rows := []
  onchainTxId := fun _ => none
  onchainSnapshotId := fun _ => none
  sending := none
  broadcasts := []
  chain := []
  mined := []
  deliveries := []
  payload := none
  updates := []
  reported := fun _ => none

/-- The row has a transaction id. -/
def State.Published (state : State) (row : RiskSnapshot) : Prop :=
  (state.onchainTxId row.id).isSome = true

instance (state : State) (row : RiskSnapshot) : Decidable (state.Published row) :=
  inferInstanceAs (Decidable (_ = true))

/-- A result of the query for the last published row other than `snapshot`. -/
def State.IsLastPublished (state : State) (snapshot : RiskSnapshot) :
    Option RiskSnapshot → Prop
  | none => ∀ row ∈ state.rows, row.id ≠ snapshot.id → ¬state.Published row
  | some last =>
      last ∈ state.rows ∧ last.id ≠ snapshot.id ∧ state.Published last ∧
        ∀ row ∈ state.rows, row.id ≠ snapshot.id → state.Published row → ¬Newer row last

instance (state : State) (snapshot : RiskSnapshot) :
    (last : Option RiskSnapshot) → Decidable (state.IsLastPublished snapshot last)
  | none =>
      inferInstanceAs
        (Decidable (∀ row ∈ state.rows, row.id ≠ snapshot.id → ¬state.Published row))
  | some last =>
      inferInstanceAs
        (Decidable (last ∈ state.rows ∧ last.id ≠ snapshot.id ∧ state.Published last ∧
          ∀ row ∈ state.rows, row.id ≠ snapshot.id → state.Published row → ¬Newer row last))

/-- A transaction that was neither mined nor broadcast before. -/
def State.Fresh (state : State) (txId : TxId) : Prop :=
  txId ∉ state.mined ∧ ∀ broadcast ∈ state.broadcasts, broadcast.2 ≠ txId

instance (state : State) (txId : TxId) : Decidable (state.Fresh txId) :=
  inferInstanceAs (Decidable (_ ∧ _))

/-- What happens to the table, the worker, the chain and the deliveries. -/
inductive Action where
  /-- A risk job inserts a row. -/
  | persist (snapshot : RiskSnapshot)
  /-- The attestation job of a row, up to its broadcast or to its end without one. -/
  | process (snapshot : RiskSnapshot) (last : Option RiskSnapshot) (txId : TxId)
  /-- `markRiskSnapshotPublished`, with the id as the broadcast returned it. -/
  | mark (marked : Bool)
  /-- The chain drops its last blocks and goes on with others. -/
  | mine (dropped : ℕ) (blocks : List Block)
  | deliver (format : Format)
  /-- The last payload comes again, whether or not all its updates ran. -/
  | redeliver
  | update

/-- A row is inserted. -/
def State.persist (state : State) (snapshot : RiskSnapshot) : State :=
  { state with
    rows := snapshot :: state.rows
    onchainTxId := Function.update state.onchainTxId snapshot.id none
    onchainSnapshotId := Function.update state.onchainSnapshotId snapshot.id none }

/-- A transaction is broadcast for a row. -/
def State.broadcast (state : State) (snapshot : RiskSnapshot) (txId : TxId) : State :=
  { state with
    sending := some (snapshot, txId)
    broadcasts := state.broadcasts ++ [(snapshot, txId)] }

/-- The id of the broadcast transaction is stored. -/
def State.mark (state : State) (snapshot : RiskSnapshot) (stored : String) : State :=
  { state with
    onchainTxId := Function.update state.onchainTxId snapshot.id (some stored)
    sending := none }

/-- The chain goes on from an earlier block, and the change is to be delivered. -/
def State.mine (state : State) (kept removed added : List Block) : State :=
  { state with
    chain := kept ++ added
    mined := (transactions added).map Transaction.id ++ state.mined
    deliveries := state.deliveries ++ [⟨removed.reverse, added⟩] }

/-- One `updateMany` of `confirmAttestations`. -/
def State.update (state : State) (txId : String) (snapshotId : Option ℕ)
    (updates : List (String × Option ℕ)) : State :=
  { state with
    onchainSnapshotId := fun row =>
      if ∃ stored ∈ state.onchainTxId row, stored ∈ spellings txId then snapshotId
      else state.onchainSnapshotId row
    updates := updates
    reported := Function.update state.reported txId snapshotId }

/-- A job that the throttle skips, or whose figures `publish` refuses, ends without a
broadcast. -/
def next (cl : ClarityEncoder) (wallet : Principal) (minIntervalBlocks : ℕ) : Step State Action
  | state, .persist snapshot =>
      if ∃ row ∈ state.rows, row.id = snapshot.id then none else some (state.persist snapshot)
  | state, .process snapshot last txId =>
      if state.sending.isSome ∨ snapshot ∉ state.rows then none
      else if state.Published snapshot then some state
      else if ¬state.IsLastPublished snapshot last then none
      else
        match decision minIntervalBlocks snapshot last,
          publish cl (attestationInput wallet snapshot) with
        | .publish _, .ok _ =>
            if state.Fresh txId then some (state.broadcast snapshot txId) else none
        | _, _ => some state
  | state, .mark marked =>
      state.sending.map fun sent => state.mark sent.1 (sent.2.spelled marked)
  | state, .mine dropped blocks =>
      let height := state.chain.length - dropped
      if MinedOnce (state.chain.take height ++ blocks) then
        some (state.mine (state.chain.take height) (state.chain.drop height) blocks)
      else
        none
  | state, .deliver format =>
      match state.updates, state.deliveries with
      | [], delivery :: deliveries =>
          let payload := delivery.render format
          some { state with deliveries, payload := some payload, updates := payload.updates }
      | _, _ => none
  | state, .redeliver =>
      state.payload.map fun payload => { state with updates := payload.updates }
  | state, .update =>
      match state.updates with
      | (txId, snapshotId) :: updates => some (state.update txId snapshotId updates)
      | [] => none

/-- Nothing is left to store, to deliver or to update. -/
def Settled (state : State) : Prop :=
  state.sending = none ∧ state.deliveries = [] ∧ state.updates = []

/-- A row has the id of the snapshot its transaction published on the canonical
chain, and no id where it published none. -/
def RecordsChain (state : State) : Prop :=
  ∀ row ∈ state.rows, ∀ snapshotId,
    state.onchainSnapshotId row.id = some snapshotId ↔
      ∃ tx ∈ transactions state.chain,
        (row, tx.id) ∈ state.broadcasts ∧ tx.snapshotId = some snapshotId

/-! ## Ids stored before they are confirmed -/

/-- When a transaction id is stored, no update that ran has confirmed it, unless a
later one withdrew it. -/
def StoredFirst (state : State) : Action → Prop
  | .mark _ => ∀ sent ∈ state.sending, state.reported sent.2.text = none
  | _ => True

instance (state : State) (action : Action) : Decidable (StoredFirst state action) := by
  cases action <;> unfold StoredFirst <;> infer_instance

variable {cl : ClarityEncoder} {wallet : Principal} {minIntervalBlocks : ℕ}
  {state target : State}

/-! ## What the deliveries say -/

/-- The updates of the payload delivered last. -/
def State.lastUpdates (state : State) : List (String × Option ℕ) :=
  state.payload.elim [] ChainhookPayload.updates

/-- What was reported and is still to be reported is what the chain has recorded, and
the updates that ran are the first ones of the last payload. -/
structure ReportsChain (state : State) : Prop where
  minedOnce : MinedOnce state.chain
  upToDate : overwrite (state.updates ++ state.deliveries.flatMap Delivery.updates)
    state.reported = recorded state.chain
  replayed : ∃ ran before, state.lastUpdates = ran ++ state.updates ∧
    state.reported = overwrite ran before
  named : ∀ write ∈ state.lastUpdates, ∃ id : TxId, id.text = write.1

theorem reportsChain_initial : ReportsChain State.initial := by
  constructor
  · exact List.nodup_nil
  · rfl
  · exact ⟨[], fun _ => none, rfl, rfl⟩
  · simp [State.lastUpdates, State.initial]

theorem ReportsChain.mine (reports : ReportsChain state) {height : ℕ} {blocks : List Block}
    (once : MinedOnce (state.chain.take height ++ blocks)) :
    ReportsChain (state.mine (state.chain.take height) (state.chain.drop height) blocks) := by
  constructor
  · exact once
  · let change : Delivery := ⟨(state.chain.drop height).reverse, blocks⟩
    have before : MinedOnce (state.chain.take height ++ state.chain.drop height) := by
      rw [List.take_append_drop]
      exact reports.minedOnce
    have current := reports.upToDate
    rw [← List.take_append_drop height state.chain] at current
    calc
      overwrite (state.updates ++ (state.deliveries ++ [change]).flatMap Delivery.updates)
          state.reported =
          overwrite change.updates
            (overwrite (state.updates ++ state.deliveries.flatMap Delivery.updates)
              state.reported) := by
        rw [List.flatMap_append, ← List.append_assoc, overwrite_append, List.flatMap_singleton]
      _ = recorded (state.chain.take height ++ blocks) := by
        rw [current, overwrite_updates before once]
  · exact reports.replayed
  · exact reports.named

theorem ReportsChain.deliver (reports : ReportsChain state) {delivery : Delivery}
    {deliveries : List Delivery} {format : Format} (idle : state.updates = [])
    (waiting : state.deliveries = delivery :: deliveries) :
    ReportsChain
      { state with
        deliveries
        payload := some (delivery.render format)
        updates := (delivery.render format).updates } := by
  have current := reports.upToDate
  rw [idle, waiting, List.nil_append, List.flatMap_cons, ← updates_render format] at current
  constructor
  · exact reports.minedOnce
  · exact current
  · exact ⟨[], state.reported, rfl, rfl⟩
  · intro write member
    change write ∈ (delivery.render format).updates at member
    rw [updates_render] at member
    exact Delivery.txId_of_mem_updates member

/-- Running the last payload again from its start ends where it would have ended. -/
theorem ReportsChain.redeliver (reports : ReportsChain state) {payload : ChainhookPayload}
    (last : state.payload = some payload) :
    ReportsChain { state with updates := payload.updates } := by
  have lastUpdates : state.lastUpdates = payload.updates := by
    rw [State.lastUpdates, last]
    rfl
  rcases reports.replayed with ⟨ran, before, split, reported⟩
  constructor
  · exact reports.minedOnce
  · change overwrite (payload.updates ++ _) state.reported = _
    rw [← reports.upToDate, ← lastUpdates, split, overwrite_append, overwrite_append,
      overwrite_append, reported, overwrite_overwrite]
  · exact ⟨[], state.reported, lastUpdates, rfl⟩
  · exact reports.named

theorem ReportsChain.update (reports : ReportsChain state) {txId : String}
    {snapshotId : Option ℕ} {updates : List (String × Option ℕ)}
    (running : state.updates = (txId, snapshotId) :: updates) :
    ReportsChain (state.update txId snapshotId updates) := by
  rcases reports.replayed with ⟨ran, before, split, reported⟩
  constructor
  · exact reports.minedOnce
  · have current := reports.upToDate
    rw [running, List.cons_append, overwrite_cons] at current
    exact current
  · refine ⟨ran ++ [(txId, snapshotId)], before, ?_, ?_⟩
    · change state.lastUpdates = _
      rw [split, running, List.append_assoc]
      rfl
    · change Function.update state.reported txId snapshotId = _
      rw [reported, overwrite_append]
      rfl
  · exact reports.named

/-! ## Which rows were broadcast -/

/-- A row is published exactly when it was broadcast and its id was stored. -/
structure RowsSound (state : State) : Prop where
  ids : ∀ first ∈ state.rows, ∀ second ∈ state.rows, first.id = second.id → first = second
  broadcast_rows : ∀ broadcast ∈ state.broadcasts, broadcast.1 ∈ state.rows
  broadcastOnce : ∀ first ∈ state.broadcasts, ∀ second ∈ state.broadcasts,
    first.1 = second.1 → first = second
  sending : ∀ sent ∈ state.sending, sent ∈ state.broadcasts ∧ ¬state.Published sent.1
  stored : ∀ row ∈ state.rows, ∀ text ∈ state.onchainTxId row.id,
    ∃ txId marked, (row, txId) ∈ state.broadcasts ∧ text = txId.spelled marked
  unstored : ∀ broadcast ∈ state.broadcasts, ¬state.Published broadcast.1 →
    state.sending = some broadcast

theorem rowsSound_initial : RowsSound State.initial := by
  constructor <;> simp [State.initial]

/-- What the job of a row does. -/
theorem process_eq_some {snapshot : RiskSnapshot} {last : Option RiskSnapshot} {txId : TxId}
    (step : next cl wallet minIntervalBlocks state (.process snapshot last txId) = some target) :
    target = state ∨
      state.sending = none ∧ snapshot ∈ state.rows ∧ ¬state.Published snapshot ∧
        state.IsLastPublished snapshot last ∧
        (∃ reason args, decision minIntervalBlocks snapshot last = .publish reason ∧
          publish cl (attestationInput wallet snapshot) = .ok args) ∧
        state.Fresh txId ∧ target = state.broadcast snapshot txId := by
  simp only [next] at step
  split at step
  next => cases step
  next idle =>
    simp only [not_or, Bool.not_eq_true, Option.isSome_eq_false_iff, Option.isNone_iff_eq_none,
      not_not] at idle
    split at step
    next => exact .inl (Option.some.inj step).symm
    next unpublished =>
      split at step
      next => cases step
      next queried =>
        split at step
        next reason args decided taken =>
          split at step
          next fresh =>
            exact .inr ⟨idle.1, idle.2, unpublished, not_not.mp queried,
              ⟨reason, args, decided, taken⟩, fresh, (Option.some.inj step).symm⟩
          next => cases step
        next => exact .inl (Option.some.inj step).symm

theorem persist_eq_some {snapshot : RiskSnapshot}
    (step : next cl wallet minIntervalBlocks state (.persist snapshot) = some target) :
    (¬∃ row ∈ state.rows, row.id = snapshot.id) ∧ target = state.persist snapshot := by
  simp only [next] at step
  split at step
  next => cases step
  next fresh => exact ⟨fresh, (Option.some.inj step).symm⟩

theorem mine_eq_some {dropped : ℕ} {blocks : List Block}
    (step : next cl wallet minIntervalBlocks state (.mine dropped blocks) = some target) :
    let height := state.chain.length - dropped
    MinedOnce (state.chain.take height ++ blocks) ∧
      target = state.mine (state.chain.take height) (state.chain.drop height) blocks := by
  simp only [next] at step
  split at step
  next once => exact ⟨once, (Option.some.inj step).symm⟩
  next => cases step

theorem deliver_eq_some {format : Format}
    (step : next cl wallet minIntervalBlocks state (.deliver format) = some target) :
    ∃ delivery deliveries, state.updates = [] ∧ state.deliveries = delivery :: deliveries ∧
      target =
        { state with
          deliveries
          payload := some (delivery.render format)
          updates := (delivery.render format).updates } := by
  simp only [next] at step
  split at step
  next delivery deliveries idle waiting =>
    exact ⟨delivery, deliveries, idle, waiting, (Option.some.inj step).symm⟩
  next => cases step

theorem update_eq_some (step : next cl wallet minIntervalBlocks state .update = some target) :
    ∃ txId snapshotId updates, state.updates = (txId, snapshotId) :: updates ∧
      target = state.update txId snapshotId updates := by
  simp only [next] at step
  split at step
  next txId snapshotId updates running =>
    exact ⟨txId, snapshotId, updates, running, (Option.some.inj step).symm⟩
  next => cases step

/-- With no id left to store, every row that was broadcast is published. -/
theorem RowsSound.published_of_idle (sound : RowsSound state) (idle : state.sending = none)
    {broadcast : Broadcast} (member : broadcast ∈ state.broadcasts) :
    state.Published broadcast.1 := by
  by_contra unpublished
  have sending := sound.unstored broadcast member unpublished
  rw [idle] at sending
  cases sending

theorem RowsSound.persist (sound : RowsSound state) {snapshot : RiskSnapshot}
    (fresh : ¬∃ row ∈ state.rows, row.id = snapshot.id) : RowsSound (state.persist snapshot) := by
  have distinct : ∀ row ∈ state.rows, row.id ≠ snapshot.id := fun row member same =>
    fresh ⟨row, member, same⟩
  have kept : ∀ row ∈ state.rows,
      (state.persist snapshot).onchainTxId row.id = state.onchainTxId row.id := fun row member =>
    Function.update_of_ne (distinct row member) _ _
  have published_iff : ∀ row ∈ state.rows,
      ((state.persist snapshot).Published row ↔ state.Published row) := by
    intro row member
    unfold State.Published
    rw [kept row member]
  constructor
  · exact eq_of_key_eq_cons sound.ids distinct
  · exact fun broadcast member => List.mem_cons_of_mem _ (sound.broadcast_rows broadcast member)
  · exact sound.broadcastOnce
  · intro sent sending
    rcases sound.sending sent sending with ⟨member, unpublished⟩
    refine ⟨member, ?_⟩
    rwa [published_iff _ (sound.broadcast_rows sent member)]
  · intro row member text stored
    rcases List.mem_cons.mp member with rfl | old
    · simp [State.persist] at stored
    · rw [kept row old] at stored
      exact sound.stored row old text stored
  · intro broadcast member unpublished
    rw [published_iff _ (sound.broadcast_rows broadcast member)] at unpublished
    exact sound.unstored broadcast member unpublished

theorem RowsSound.broadcast (sound : RowsSound state) {snapshot : RiskSnapshot} {txId : TxId}
    (idle : state.sending = none) (member : snapshot ∈ state.rows)
    (unpublished : ¬state.Published snapshot) : RowsSound (state.broadcast snapshot txId) := by
  -- An earlier broadcast of the row would have been stored.
  have first : ∀ broadcast ∈ state.broadcasts, broadcast.1 ≠ snapshot := by
    rintro broadcast broadcastMem rfl
    exact unpublished (sound.published_of_idle idle broadcastMem)
  have mem_iff : ∀ broadcast, broadcast ∈ (state.broadcast snapshot txId).broadcasts ↔
      broadcast ∈ state.broadcasts ∨ broadcast = (snapshot, txId) := by
    simp [State.broadcast]
  constructor
  · exact sound.ids
  · intro broadcast broadcastMem
    rcases (mem_iff broadcast).mp broadcastMem with old | rfl
    · exact sound.broadcast_rows broadcast old
    · exact member
  · intro one oneMem other otherMem same
    rcases (mem_iff one).mp oneMem with oneOld | rfl <;>
      rcases (mem_iff other).mp otherMem with otherOld | rfl
    · exact sound.broadcastOnce one oneOld other otherOld same
    · exact absurd same (first one oneOld)
    · exact absurd same.symm (first other otherOld)
    · rfl
  · rintro sent ⟨⟩
    exact ⟨(mem_iff _).mpr (.inr rfl), unpublished⟩
  · intro row rowMem text stored
    rcases sound.stored row rowMem text stored with ⟨storedId, marked, broadcastMem, text_eq⟩
    exact ⟨storedId, marked, (mem_iff _).mpr (.inl broadcastMem), text_eq⟩
  · intro broadcast broadcastMem broadcastUnpublished
    rcases (mem_iff broadcast).mp broadcastMem with old | rfl
    · exact absurd (sound.published_of_idle idle old) broadcastUnpublished
    · rfl

theorem RowsSound.mark (sound : RowsSound state) {snapshot : RiskSnapshot} {txId : TxId}
    {marked : Bool} (sending : state.sending = some (snapshot, txId)) :
    RowsSound (state.mark snapshot (txId.spelled marked)) := by
  have sent := (sound.sending _ sending).1
  constructor
  · exact sound.ids
  · exact sound.broadcast_rows
  · exact sound.broadcastOnce
  · rintro _ ⟨⟩
  · intro row member text stored
    by_cases same : row.id = snapshot.id
    · cases sound.ids row member snapshot (sound.broadcast_rows _ sent) same
      have text_eq : some (txId.spelled marked) = some text := by
        simpa [State.mark] using stored
      exact ⟨txId, marked, sent, (Option.some.inj text_eq).symm⟩
    · apply sound.stored row member text
      simpa [State.mark, Function.update_of_ne same] using stored
  · intro broadcast member unpublished
    by_cases same : broadcast.1.id = snapshot.id
    · exact absurd (by simp [State.mark, State.Published, same]) unpublished
    · have before : ¬state.Published broadcast.1 := by
        simpa [State.mark, State.Published, Function.update_of_ne same] using unpublished
      have other := sound.unstored broadcast member before
      rw [sending] at other
      cases other
      exact absurd rfl same

/-- One step of any run. -/
theorem rowsSound_next {action : Action} (sound : RowsSound state)
    (step : next cl wallet minIntervalBlocks state action = some target) : RowsSound target := by
  cases action with
  | persist snapshot =>
      rcases persist_eq_some step with ⟨fresh, rfl⟩
      exact sound.persist fresh
  | process snapshot last txId =>
      rcases process_eq_some step with rfl | ⟨idle, member, unpublished, -, -, -, rfl⟩
      · exact sound
      · exact sound.broadcast idle member unpublished
  | mark marked =>
      rcases Option.map_eq_some_iff.mp step with ⟨⟨snapshot, txId⟩, sending, rfl⟩
      exact sound.mark sending
  | mine dropped blocks =>
      rcases mine_eq_some step with ⟨-, rfl⟩
      exact ⟨sound.ids, sound.broadcast_rows, sound.broadcastOnce, sound.sending, sound.stored,
        sound.unstored⟩
  | deliver format =>
      rcases deliver_eq_some step with ⟨delivery, deliveries, -, -, rfl⟩
      exact ⟨sound.ids, sound.broadcast_rows, sound.broadcastOnce, sound.sending, sound.stored,
        sound.unstored⟩
  | redeliver =>
      rcases Option.map_eq_some_iff.mp step with ⟨payload, -, rfl⟩
      exact ⟨sound.ids, sound.broadcast_rows, sound.broadcastOnce, sound.sending, sound.stored,
        sound.unstored⟩
  | update =>
      rcases update_eq_some step with ⟨txId, snapshotId, updates, -, rfl⟩
      exact ⟨sound.ids, sound.broadcast_rows, sound.broadcastOnce, sound.sending, sound.stored,
        sound.unstored⟩

theorem reportsChain_next {action : Action} (reports : ReportsChain state)
    (step : next cl wallet minIntervalBlocks state action = some target) : ReportsChain target := by
  cases action with
  | persist snapshot =>
      rcases persist_eq_some step with ⟨-, rfl⟩
      exact ⟨reports.minedOnce, reports.upToDate, reports.replayed, reports.named⟩
  | process snapshot last txId =>
      rcases process_eq_some step with rfl | ⟨-, -, -, -, -, -, rfl⟩
      · exact reports
      · exact ⟨reports.minedOnce, reports.upToDate, reports.replayed, reports.named⟩
  | mark marked =>
      rcases Option.map_eq_some_iff.mp step with ⟨sent, -, rfl⟩
      exact ⟨reports.minedOnce, reports.upToDate, reports.replayed, reports.named⟩
  | mine dropped blocks =>
      rcases mine_eq_some step with ⟨once, rfl⟩
      exact reports.mine once
  | deliver format =>
      rcases deliver_eq_some step with ⟨delivery, deliveries, idle, waiting, rfl⟩
      exact reports.deliver idle waiting
  | redeliver =>
      rcases Option.map_eq_some_iff.mp step with ⟨payload, last, rfl⟩
      exact reports.redeliver last
  | update =>
      rcases update_eq_some step with ⟨txId, snapshotId, updates, running, rfl⟩
      exact reports.update running

/-! ## What the rows record -/

/-- A published row has the snapshot id that was reported of its transaction, and
any other row has none. -/
structure RowsReported (state : State) : Prop where
  published : ∀ broadcast ∈ state.broadcasts, state.Published broadcast.1 →
    state.onchainSnapshotId broadcast.1.id = state.reported broadcast.2.text
  unpublished : ∀ row ∈ state.rows, ¬state.Published row → state.onchainSnapshotId row.id = none

theorem RowsReported.persist (reported : RowsReported state) (sound : RowsSound state)
    {snapshot : RiskSnapshot} (fresh : ¬∃ row ∈ state.rows, row.id = snapshot.id) :
    RowsReported (state.persist snapshot) := by
  have distinct : ∀ row ∈ state.rows, row.id ≠ snapshot.id := fun row member same =>
    fresh ⟨row, member, same⟩
  constructor
  · intro broadcast member published
    have differs := distinct _ (sound.broadcast_rows broadcast member)
    change (Function.update state.onchainTxId snapshot.id none broadcast.1.id).isSome = true
      at published
    change Function.update state.onchainSnapshotId snapshot.id none broadcast.1.id = _
    rw [Function.update_of_ne differs] at published ⊢
    exact reported.published broadcast member published
  · intro row member unpublished
    change ¬(Function.update state.onchainTxId snapshot.id none row.id).isSome = true
      at unpublished
    change Function.update state.onchainSnapshotId snapshot.id none row.id = none
    rcases List.mem_cons.mp member with rfl | old
    · exact Function.update_self _ _ _
    · rw [Function.update_of_ne (distinct row old)] at unpublished ⊢
      exact reported.unpublished row old unpublished

theorem RowsReported.broadcast (reported : RowsReported state) {snapshot : RiskSnapshot}
    {txId : TxId} (unpublished : ¬state.Published snapshot) :
    RowsReported (state.broadcast snapshot txId) := by
  constructor
  · intro broadcast member published
    rcases List.mem_append.mp member with old | new
    · exact reported.published broadcast old published
    · cases List.mem_singleton.mp new
      exact absurd published unpublished
  · exact reported.unpublished

/-- An id that is stored before anything confirms it leaves its row right. -/
theorem RowsReported.mark (reported : RowsReported state) (sound : RowsSound state)
    {snapshot : RiskSnapshot} {txId : TxId} {text : String}
    (sending : state.sending = some (snapshot, txId))
    (unconfirmed : state.reported txId.text = none) : RowsReported (state.mark snapshot text) := by
  rcases sound.sending _ sending with ⟨sent, unpublished⟩
  have row := sound.broadcast_rows _ sent
  constructor
  · intro broadcast member published
    by_cases same : broadcast.1.id = snapshot.id
    · have identical := sound.ids _ (sound.broadcast_rows broadcast member) _ row same
      cases sound.broadcastOnce broadcast member _ sent identical
      exact (reported.unpublished snapshot row unpublished).trans unconfirmed.symm
    · apply reported.published broadcast member
      simpa [State.mark, State.Published, Function.update_of_ne same] using published
  · intro other member otherUnpublished
    by_cases same : other.id = snapshot.id
    · exact absurd (by simp [State.mark, State.Published, same]) otherUnpublished
    · apply reported.unpublished other member
      simpa [State.mark, State.Published, Function.update_of_ne same] using otherUnpublished

/-- An update changes exactly the rows of its transaction. -/
theorem RowsReported.update (reported : RowsReported state) (sound : RowsSound state) {txId : TxId}
    {snapshotId : Option ℕ} {updates : List (String × Option ℕ)} :
    RowsReported (state.update txId.text snapshotId updates) := by
  constructor
  · rintro ⟨row, sentId⟩ member published
    rcases Option.isSome_iff_exists.mp published with ⟨text, stored⟩
    rcases sound.stored row (sound.broadcast_rows _ member) text stored with
      ⟨storedId, marked, storedMem, rfl⟩
    cases sound.broadcastOnce _ member _ storedMem rfl
    have before := reported.published _ member published
    have stored : state.onchainTxId row.id = some (sentId.spelled marked) := stored
    have matched_iff : (∃ text ∈ state.onchainTxId row.id, text ∈ spellings txId.text) ↔
        sentId = txId := by
      rw [stored]
      simp [mem_spellings_iff]
    simp only [State.update]
    by_cases same : sentId = txId
    · rw [if_pos (matched_iff.mpr same), same, Function.update_self]
    · rw [if_neg (mt matched_iff.mp same), before,
        Function.update_of_ne (fun text => same (TxId.text_injective text))]
  · intro row member unpublished
    have nothing : state.onchainTxId row.id = none := by
      simpa [State.Published, State.update] using unpublished
    simp only [State.update]
    rw [if_neg (by simp [nothing])]
    exact reported.unpublished row member unpublished

/-- One step of a run in which ids are stored before they are confirmed. -/
theorem rowsReported_next {action : Action} (reported : RowsReported state)
    (sound : RowsSound state) (reports : ReportsChain state) (first : StoredFirst state action)
    (step : next cl wallet minIntervalBlocks state action = some target) : RowsReported target := by
  cases action with
  | persist snapshot =>
      rcases persist_eq_some step with ⟨fresh, rfl⟩
      exact reported.persist sound fresh
  | process snapshot last txId =>
      rcases process_eq_some step with rfl | ⟨-, -, unpublished, -, -, -, rfl⟩
      · exact reported
      · exact reported.broadcast unpublished
  | mark marked =>
      rcases Option.map_eq_some_iff.mp step with ⟨⟨snapshot, txId⟩, sending, rfl⟩
      exact reported.mark sound sending (first _ sending)
  | mine dropped blocks =>
      rcases mine_eq_some step with ⟨-, rfl⟩
      exact ⟨reported.published, reported.unpublished⟩
  | deliver format =>
      rcases deliver_eq_some step with ⟨delivery, deliveries, -, -, rfl⟩
      exact ⟨reported.published, reported.unpublished⟩
  | redeliver =>
      rcases Option.map_eq_some_iff.mp step with ⟨payload, -, rfl⟩
      exact ⟨reported.published, reported.unpublished⟩
  | update =>
      rcases update_eq_some step with ⟨text, snapshotId, updates, running, rfl⟩
      rcases reports.replayed with ⟨ran, -, split, -⟩
      have member : (text, snapshotId) ∈ state.lastUpdates := by simp [split, running]
      rcases reports.named _ member with ⟨txId, rfl⟩
      exact reported.update sound

/-- What every run keeps true. -/
structure Sound (state : State) : Prop where
  rows : RowsSound state
  reports : ReportsChain state

theorem sound_initial : Sound State.initial :=
  ⟨rowsSound_initial, reportsChain_initial⟩

theorem sound_next {action : Action} (sound : Sound state)
    (step : next cl wallet minIntervalBlocks state action = some target) : Sound target :=
  ⟨rowsSound_next sound.rows step, reportsChain_next sound.reports step⟩

/-- What a run keeps true in which ids are stored before they are confirmed. -/
structure SoundReported (state : State) : Prop extends Sound state where
  rowsReported : RowsReported state

theorem soundReported_initial : SoundReported State.initial :=
  ⟨sound_initial, by simp [State.initial], by simp [State.initial]⟩

theorem soundReported_next {action : Action} (sound : SoundReported state)
    (first : StoredFirst state action)
    (step : next cl wallet minIntervalBlocks state action = some target) : SoundReported target :=
  ⟨sound_next sound.toSound step,
    rowsReported_next sound.rowsReported sound.rows sound.reports first step⟩

/-- When nothing is pending, what was reported is what the chain has recorded. -/
theorem ReportsChain.reported_eq (reports : ReportsChain state) (settled : Settled state) :
    state.reported = recorded state.chain := by
  rcases settled with ⟨-, deliveries, updates⟩
  have current := reports.upToDate
  rwa [deliveries, updates, List.flatMap_nil, List.append_nil, overwrite_nil] at current

theorem SoundReported.recordsChain (sound : SoundReported state) (settled : Settled state) :
    RecordsChain state := by
  have reported := sound.reports.reported_eq settled
  intro row member snapshotId
  constructor
  · intro found
    by_cases rowPublished : state.Published row
    · rcases Option.isSome_iff_exists.mp rowPublished with ⟨text, stored⟩
      rcases sound.rows.stored row member text stored with ⟨txId, -, broadcast, -⟩
      have recorded_eq := sound.rowsReported.published _ broadcast rowPublished
      rw [found, reported] at recorded_eq
      rcases (recorded_eq_some_iff sound.reports.minedOnce).mp recorded_eq.symm with
        ⟨tx, txMem, text_eq, result⟩
      have same : tx.id = txId := TxId.text_injective text_eq
      rw [← same] at broadcast
      exact ⟨tx, txMem, broadcast, result⟩
    · rw [sound.rowsReported.unpublished row member rowPublished] at found
      cases found
  · rintro ⟨tx, txMem, broadcast, result⟩
    have published := sound.rows.published_of_idle settled.1 broadcast
    rw [sound.rowsReported.published _ broadcast published, reported]
    exact (recorded_eq_some_iff sound.reports.minedOnce).mpr ⟨tx, txMem, rfl, result⟩

/-- In every run in which transaction ids are stored before they are confirmed, the
rows record what is on the canonical chain once nothing is pending. -/
theorem recordsChain_when_stored_first {actions : List Action}
    (first : Along (next cl wallet minIntervalBlocks) StoredFirst State.initial actions)
    (run : exec (next cl wallet minIntervalBlocks) State.initial actions = some state)
    (settled : Settled state) : RecordsChain state :=
  (first.invariant soundReported_next run soundReported_initial).recordsChain settled

/-! ## A confirmation that comes too early -/

theorem one_lower : '1' ∈ "0123456789abcdef".toList := by
  decide

theorem two_lower : '2' ∈ "0123456789abcdef".toList := by
  decide

/-- The hash of one repeated digit. -/
def repeatedTx (digit : Char) (lower : digit ∈ "0123456789abcdef".toList) : TxId where
  digits := List.replicate 64 digit
  length_eq := List.length_replicate
  lower := fun _ member => List.eq_of_mem_replicate member ▸ lower

/-- The id of the first transaction. -/
def firstTx : TxId :=
  repeatedTx '1' one_lower

/-- A row to be attested. -/
def firstRow : RiskSnapshot :=
  scoreRow 1 100 1000

/-- The wallet, whose worker has an interval of 120 blocks. -/
abbrev walletNext : Step State Action :=
  next standardEncoder (.standard "SP1") 120

/-- A block with the first transaction, which publishes the given snapshot. -/
def publishingBlock (index snapshotId : ℕ) : Block where
  index := index
  transactions := [{ id := firstTx, status := .success, result := .okUint snapshotId }]

/-- What a node sends. -/
def nodeFormat : Format where
  nested := false
  marked := true

/-- What the hosted platform sends. -/
def platformFormat : Format where
  nested := true
  marked := true

/-- The transaction is mined and confirmed before its id is stored. -/
def earlyConfirmation : List Action :=
  [.persist firstRow, .process firstRow none firstTx, .mine 0 [publishingBlock 101 1],
    .deliver platformFormat, .update, .mark false]

/-- The id is stored first; then the transaction is mined again on another fork, and
the delivery of that comes twice. -/
def lateConfirmation : List Action :=
  [.persist firstRow, .process firstRow none firstTx, .mark true,
    .mine 0 [publishingBlock 101 1], .deliver nodeFormat, .update,
    .mine 1 [publishingBlock 102 2], .deliver platformFormat, .update, .redeliver, .update, .update]

/-- After the early confirmation the row has no snapshot id, and its transaction is
on the chain with `(ok u1)`. -/
theorem early_confirmation_is_lost :
    ∃ state, exec walletNext State.initial earlyConfirmation = some state ∧ Settled state ∧
      state.onchainTxId 1 = some firstTx.text ∧ state.onchainSnapshotId 1 = none ∧
      ¬RecordsChain state := by
  have run : ∃ state ∈ exec walletNext State.initial earlyConfirmation,
      (state.sending = none ∧ state.deliveries = [] ∧ state.updates = []) ∧
        state.onchainTxId 1 = some firstTx.text ∧ state.onchainSnapshotId 1 = none ∧
        firstRow ∈ state.rows ∧ (firstRow, firstTx) ∈ state.broadcasts ∧
        { id := firstTx, status := .success, result := .okUint 1 } ∈ transactions state.chain := by
    decide +kernel
  rcases run with ⟨state, run, settled, stored, missing, row, broadcast, mined⟩
  refine ⟨state, run, settled, stored, missing, fun records => ?_⟩
  have found := (records firstRow row 1).mpr ⟨_, mined, broadcast, rfl⟩
  change state.onchainSnapshotId 1 = some 1 at found
  rw [missing] at found
  cases found

theorem recordsChain_when_stored_first_late :
    ∃ state, exec walletNext State.initial lateConfirmation = some state ∧
      state.onchainSnapshotId 1 = some 2 ∧ RecordsChain state := by
  have first : Along walletNext StoredFirst State.initial lateConfirmation := by
    decide +kernel
  have run : ∃ state ∈ exec walletNext State.initial lateConfirmation,
      (state.sending = none ∧ state.deliveries = [] ∧ state.updates = []) ∧
        state.onchainSnapshotId 1 = some 2 := by
    decide +kernel
  rcases run with ⟨state, run, settled, recorded⟩
  exact ⟨state, run, recorded, recordsChain_when_stored_first first run settled⟩

end RiskRail.Attestation.Confirmation
