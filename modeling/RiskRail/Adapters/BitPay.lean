import RiskRail.Engine.Position
import RiskRail.Queue.Core
import RiskRail.Stacks.Values
import Mathlib.Algebra.BigOperators.Group.Finset.Piecewise
import Mathlib.Algebra.BigOperators.Ring.Finset
import Mathlib.Data.List.Nodup

/-!
# The stream adapter

A stream pays sBTC from its sender to its recipient while its blocks go by.  The reader
lists a stream for both of them, and the adapter makes a position of it on either side;
only the recipient's holds what is still outstanding as an asset.
-/

namespace RiskRail.Adapters

open RiskRail.Engine Numeric

/-! ## Streams -/

/-- Amounts are the integers `BigInt` reads. -/
structure BitPayStream where
  sender : String
  recipient : String
  totalAmountAtomic : ℤ
  withdrawnAmountAtomic : ℤ
  vestedAmountAtomic : ℤ
  startBlock : ℕ
  endBlock : ℕ
  cancelled : Bool
deriving DecidableEq

namespace BitPayStream

variable (stream : BitPayStream)

/-- What has not been withdrawn yet. -/
def outstanding : ℤ :=
  if stream.totalAmountAtomic > stream.withdrawnAmountAtomic then
    stream.totalAmountAtomic - stream.withdrawnAmountAtomic
  else 0

/-- What has been released and not withdrawn yet. -/
def currentlyWithdrawable : ℤ :=
  if stream.vestedAmountAtomic > stream.withdrawnAmountAtomic then
    stream.vestedAmountAtomic - stream.withdrawnAmountAtomic
  else 0

theorem outstanding_eq :
    stream.outstanding = max 0 (stream.totalAmountAtomic - stream.withdrawnAmountAtomic) := by
  unfold outstanding
  split <;> omega

theorem outstanding_nonneg : 0 ≤ stream.outstanding := by
  rw [outstanding_eq]
  exact le_max_left _ _

theorem currentlyWithdrawable_nonneg : 0 ≤ stream.currentlyWithdrawable := by
  unfold currentlyWithdrawable
  split <;> omega

theorem currentlyWithdrawable_le (vested : stream.vestedAmountAtomic ≤ stream.totalAmountAtomic) :
    stream.currentlyWithdrawable ≤ stream.outstanding := by
  unfold currentlyWithdrawable outstanding
  split <;> split <;> omega

/-- A stream that is skipped has been cancelled or has nothing left. -/
def live : Bool :=
  !(stream.cancelled || stream.outstanding == 0)

theorem outstanding_pos (live : stream.live = true) : 0 < stream.outstanding := by
  have nonneg := stream.outstanding_nonneg
  have nonzero : stream.outstanding ≠ 0 := by
    intro zero
    simp [BitPayStream.live, zero] at live
  omega

/-- `Number((currentlyWithdrawable * 10_000n) / outstanding)`, a division towards zero. -/
def shareBps : ℚ :=
  toDouble ((stream.currentlyWithdrawable * 10000).tdiv stream.outstanding : ℤ)

/-- The share between nothing and everything.  The floor changes nothing: see
`clamp_shareBps`. -/
def liquidBps : ℕ :=
  ⌊max 0 (min 10000 stream.shareBps)⌋₊

theorem liquidBps_le : stream.liquidBps ≤ 10000 := by
  have le : max 0 (min 10000 stream.shareBps) ≤ (10000 : ℕ) := by simp
  exact (Nat.floor_mono le).trans_eq (Nat.floor_natCast 10000)

/-- A share that a number does not hold exactly is far above everything. -/
theorem clamp_toDouble (n : ℕ) : max 0 (min 10000 (toDouble n)) = (min 10000 n : ℕ) := by
  rcases lt_or_ge n (2 ^ 53) with safe | large
  · rw [toDouble_of_safe safe, Nat.cast_min, Nat.cast_ofNat]
    exact max_eq_right (le_min (by norm_num) n.cast_nonneg)
  · have above : (10000 : ℚ) ≤ toDouble n := le_trans (by norm_num) (le_toDouble large)
    rw [min_eq_left above, min_eq_left (le_trans (by norm_num) large), Nat.cast_ofNat]
    exact max_eq_right (by norm_num)

/-- The share in whole basis points, before it is held below everything. -/
def wholeShare : ℕ :=
  (stream.currentlyWithdrawable * 10000 / stream.outstanding).toNat

theorem clamp_shareBps :
    max 0 (min 10000 stream.shareBps) = (min 10000 stream.wholeShare : ℕ) := by
  have product := mul_nonneg stream.currentlyWithdrawable_nonneg (by norm_num : (0 : ℤ) ≤ 10000)
  have quotient : (stream.currentlyWithdrawable * 10000).tdiv stream.outstanding =
      (stream.wholeShare : ℤ) := by
    rw [Int.tdiv_eq_ediv_of_nonneg product, wholeShare,
      Int.toNat_of_nonneg (Int.ediv_nonneg product stream.outstanding_nonneg)]
  rw [shareBps, quotient, Int.cast_natCast]
  exact clamp_toDouble _

theorem liquidBps_eq : stream.liquidBps = min 10000 stream.wholeShare := by
  rw [liquidBps, clamp_shareBps, Nat.floor_natCast]

/-- The share is what a recipient can withdraw of what is outstanding, rounded down. -/
theorem liquidBps_floor (live : stream.live = true)
    (vested : stream.vestedAmountAtomic ≤ stream.totalAmountAtomic) :
    stream.liquidBps * stream.outstanding ≤ 10000 * stream.currentlyWithdrawable ∧
      10000 * stream.currentlyWithdrawable < (stream.liquidBps + 1) * stream.outstanding := by
  have positive := stream.outstanding_pos live
  have nonneg := stream.currentlyWithdrawable_nonneg
  have le := stream.currentlyWithdrawable_le vested
  set quotient := stream.currentlyWithdrawable * 10000 / stream.outstanding with quotient_eq
  have quotient_nonneg : 0 ≤ quotient :=
    Int.ediv_nonneg (by omega) positive.le
  have quotient_le : quotient ≤ 10000 := by
    apply Int.ediv_le_of_le_mul positive
    rw [mul_comm]
    exact mul_le_mul_of_nonneg_left le (by norm_num)
  have share : (stream.liquidBps : ℤ) = quotient := by
    rw [liquidBps_eq, wholeShare, ← quotient_eq]
    omega
  rw [share, mul_comm 10000]
  exact ⟨Int.ediv_mul_le _ positive.ne', Int.lt_ediv_add_one_mul_self _ positive⟩

/-- A stream that has released half of its sBTC and paid out a fifth. -/
def releasingStream : BitPayStream where
  sender := "SP-SENDER"
  recipient := "SP-RECIPIENT"
  totalAmountAtomic := 100000000
  withdrawnAmountAtomic := 20000000
  vestedAmountAtomic := 50000000
  startBlock := 100
  endBlock := 200
  cancelled := false

example : releasingStream.outstanding = 80000000 ∧ releasingStream.liquidBps = 3750 := by
  rw [liquidBps_eq]
  decide

end BitPayStream

/-! ## Positions -/

/-- On which end of a stream a wallet is. -/
inductive Relationship where
  | recipient
  | sender
deriving DecidableEq

/-- The metadata of a stream's position. -/
structure StreamMetadata where
  streamId : ℕ
  relationship : Relationship
  sender : String
  recipient : String
  cancelled : Bool
  totalAmountAtomic : ℤ
  withdrawnAmountAtomic : ℤ
  vestedAmountAtomic : ℤ
  withdrawableAmountAtomic : ℤ
  startBlock : ℕ
  endBlock : ℕ
deriving DecidableEq

/-- A position in a stream, with the fields that only this adapter sets. -/
structure StreamPosition extends AdapterPosition where
  owner : String
  lockedUntilBlock : Option ℕ
  metadata : StreamMetadata

namespace BitPayStream

variable (stream : BitPayStream)

/-- A wallet on both ends is taken for the recipient. -/
def relationship (address : String) : Relationship :=
  if address = stream.recipient then .recipient else .sender

/-- What is left in the stream, as one asset. -/
def lockedAsset : PositionAsset where
  assetId := "sBTC"
  symbol := "sBTC"
  amountAtomic := stream.outstanding.toNat
  decimals := 8
  role := .locked

/-- Recipient claims are counted.  The sender's side is kept as a commitment only. -/
def assets : Relationship → List PositionAsset
  | .recipient => [stream.lockedAsset]
  | .sender => []

/-- `accessibility.liquidBps` and `accessibility.lockedUntilBlock`. -/
def accessibility : Relationship → Option (ℕ × ℕ)
  | .recipient => some (stream.liquidBps, stream.endBlock)
  | .sender => none

/-- The stream as the position tells it. -/
def metadata (streamId : ℕ) (relationship : Relationship) : StreamMetadata where
  streamId := streamId
  relationship := relationship
  sender := stream.sender
  recipient := stream.recipient
  cancelled := stream.cancelled
  totalAmountAtomic := stream.totalAmountAtomic
  withdrawnAmountAtomic := stream.withdrawnAmountAtomic
  vestedAmountAtomic := stream.vestedAmountAtomic
  withdrawableAmountAtomic := stream.currentlyWithdrawable
  startBlock := stream.startBlock
  endBlock := stream.endBlock

theorem assets_valueUsd (relationship : Relationship) :
    ∀ asset ∈ stream.assets relationship, asset.valueUsd = none := by
  intro asset member
  cases relationship with
  | recipient =>
      rcases List.mem_singleton.mp member with rfl
      rfl
  | sender => cases member

theorem accessibility_le (relationship : Relationship) :
    ∀ share ∈ (stream.accessibility relationship).map Prod.fst, share ≤ 10000 := by
  intro share member
  cases relationship with
  | recipient => exact (Option.mem_some_iff.mp member).ge.trans stream.liquidBps_le
  | sender => cases member

end BitPayStream

/-- The id of the position, by stream and wallet. -/
def streamPositionId (streamId : ℕ) (address : String) : String :=
  "bitpay:" ++ toString streamId ++ ":" ++ address

theorem streamPositionId_inj {first second : ℕ} {address : String}
    (same : streamPositionId first address = streamPositionId second address) :
    first = second := by
  unfold streamPositionId at same
  rw [String.append_left_inj, String.append_left_inj, String.append_right_inj] at same
  exact Queue.toString_injective same

/-- The position that an address has in a stream.  `observedAt` is when it is made. -/
def streamPosition (address : String) (blockHeight : Option ℕ) (observedAt streamId : ℕ)
    (stream : BitPayStream) : StreamPosition where
  position :=
    { id := streamPositionId streamId address
      protocolId := "bitpay"
      type := .stream
      assets := stream.assets (stream.relationship address)
      liquidBps := (stream.accessibility (stream.relationship address)).map Prod.fst
      source := { blockHeight := blockHeight.getD 0, observedAt, exact := true } }
  valueUsd_none := rfl
  collateral_none := rfl
  debtUsd_none := rfl
  liquidation_none := rfl
  valuation_none := rfl
  assets_none := stream.assets_valueUsd _
  liquidBps_le := stream.accessibility_le _
  owner := address
  lockedUntilBlock := (stream.accessibility (stream.relationship address)).map Prod.snd
  metadata := stream.metadata streamId (stream.relationship address)

/-- What the adapter reads the contract through.  Stream ids are whole numbers that
JavaScript holds exactly, and they come out of a set. -/
structure BitPayReader where
  getStreamIds : String → List ℕ
  getStream : ℕ → Option BitPayStream
  nodup : ∀ address, (getStreamIds address).Nodup

namespace BitPayReader

variable (reader : BitPayReader)

/-- `getPositions` of the `BitPayAdapter`. -/
def getPositions (address : String) (blockHeight : Option ℕ) (observedAt : ℕ → ℕ) :
    List StreamPosition :=
  (reader.getStreamIds address).filterMap fun streamId =>
    ((reader.getStream streamId).filter BitPayStream.live).map fun stream =>
      streamPosition address blockHeight (observedAt streamId) streamId stream

variable {reader} {address : String} {blockHeight : Option ℕ} {observedAt : ℕ → ℕ}

theorem mem_getPositions {position : StreamPosition} :
    position ∈ reader.getPositions address blockHeight observedAt ↔
      ∃ streamId ∈ reader.getStreamIds address, ∃ stream,
        reader.getStream streamId = some stream ∧ stream.live = true ∧
          streamPosition address blockHeight (observedAt streamId) streamId stream = position := by
  simp only [getPositions, List.mem_filterMap, Option.map_eq_some_iff, Option.filter_eq_some_iff,
    and_assoc]

/-- What tells the streams apart tells the positions of an address apart. -/
theorem nodup_map_getPositions {β : Type*} (label : StreamPosition → β)
    (labelled : ∀ first second firstStream secondStream,
      label (streamPosition address blockHeight (observedAt first) first firstStream) =
        label (streamPosition address blockHeight (observedAt second) second secondStream) →
      first = second) :
    ((reader.getPositions address blockHeight observedAt).map label).Nodup := by
  rw [getPositions, List.map_filterMap]
  apply (reader.nodup address).filterMap
  intro first second shared one other
  simp only [Option.mem_def, Option.map_map, Option.map_eq_some_iff, Function.comp_apply]
    at one other
  rcases one with ⟨firstStream, -, rfl⟩
  rcases other with ⟨secondStream, -, same⟩
  exact labelled _ _ _ _ same.symm

theorem nodup_ids :
    ((reader.getPositions address blockHeight observedAt).map fun position =>
      position.position.id).Nodup :=
  nodup_map_getPositions _ fun _ _ _ _ => streamPositionId_inj

/-- An address has at most one position in a stream. -/
theorem nodup_streamIds :
    ((reader.getPositions address blockHeight observedAt).map fun position =>
      position.metadata.streamId).Nodup :=
  nodup_map_getPositions _ fun _ _ _ _ => id

end BitPayReader

/-! ## What is outstanding -/

/-- The sBTC among the assets of a position. -/
def sbtcAmount (position : NormalizedPosition) : ℕ :=
  ((position.assets.filter fun asset => asset.assetId = "sBTC").map
    PositionAsset.amountAtomic).sum

/-- What the recipient of a stream still claims. -/
def BitPayStream.claim (stream : BitPayStream) : ℕ :=
  if stream.live then stream.outstanding.toNat else 0

theorem BitPayStream.cast_claim (stream : BitPayStream) :
    (stream.claim : ℤ) = if stream.cancelled then 0 else
      max 0 (stream.totalAmountAtomic - stream.withdrawnAmountAtomic) := by
  rw [← outstanding_eq, claim]
  have nonneg := stream.outstanding_nonneg
  cases cancelled : stream.cancelled with
  | true => simp [live, cancelled]
  | false =>
      by_cases zero : stream.outstanding = 0
      · simp [live, cancelled, zero]
      · simp [live, cancelled, zero, nonneg]

theorem sbtcAmount_streamPosition (address : String) (blockHeight : Option ℕ)
    (observedAt streamId : ℕ) (stream : BitPayStream) :
    sbtcAmount (streamPosition address blockHeight observedAt streamId stream).position =
      if stream.recipient = address then stream.outstanding.toNat else 0 := by
  unfold sbtcAmount streamPosition BitPayStream.relationship
  by_cases recipient : address = stream.recipient
  · simp [recipient, BitPayStream.assets, BitPayStream.lockedAsset]
  · simp [recipient, Ne.symm recipient, BitPayStream.assets]

/-- A set of streams, by their ids. -/
structure Streams where
  ids : Finset ℕ
  stream : ℕ → BitPayStream

namespace Streams

variable (streams : Streams)

/-- The stream with an id, if there is one. -/
def get (streamId : ℕ) : Option BitPayStream :=
  if streamId ∈ streams.ids then some (streams.stream streamId) else none

/-- The streams that pay an address. -/
def paying (address : String) : Finset ℕ :=
  streams.ids.filter fun streamId => (streams.stream streamId).recipient = address

variable {streams}

@[simp]
theorem mem_paying {address : String} {streamId : ℕ} :
    streamId ∈ streams.paying address ↔
      streamId ∈ streams.ids ∧ (streams.stream streamId).recipient = address :=
  Finset.mem_filter

end Streams

/-- The reader returns these streams and lists each for its sender and its recipient. -/
structure BitPayReader.Lists (reader : BitPayReader) (streams : Streams) : Prop where
  getStream_eq : ∀ streamId, reader.getStream streamId = streams.get streamId
  sender_listed : ∀ streamId ∈ streams.ids,
    streamId ∈ reader.getStreamIds (streams.stream streamId).sender
  recipient_listed : ∀ streamId ∈ streams.ids,
    streamId ∈ reader.getStreamIds (streams.stream streamId).recipient

namespace BitPayReader

variable {reader : BitPayReader} {streams : Streams}

/-- The sBTC that the positions of an address hold. -/
def sbtcHeld (reader : BitPayReader) (address : String) (blockHeight : Option ℕ)
    (observedAt : ℕ → ℕ) : ℕ :=
  ((reader.getPositions address blockHeight observedAt).map fun position =>
    sbtcAmount position.position).sum

theorem sum_map_filterMap {α β : Type*} (choose : α → Option β) (amount : β → ℕ) (l : List α) :
    ((l.filterMap choose).map amount).sum =
      (l.map fun item => ((choose item).map amount).getD 0).sum := by
  induction l with
  | nil => rfl
  | cons item l ih =>
      cases chosen : choose item with
      | none => simp [chosen, ih]
      | some value => simp [chosen, ih]

/-- An address holds the claims of the streams that pay it, and of no others. -/
theorem sbtcHeld_eq (lists : reader.Lists streams) (address : String) (blockHeight : Option ℕ)
    (observedAt : ℕ → ℕ) :
    reader.sbtcHeld address blockHeight observedAt =
      ∑ streamId ∈ streams.paying address, (streams.stream streamId).claim := by
  have amount : ∀ streamId : ℕ,
      ((((reader.getStream streamId).filter BitPayStream.live).map fun stream =>
        streamPosition address blockHeight (observedAt streamId) streamId stream).map
          fun position => sbtcAmount position.position).getD 0 =
        if streamId ∈ streams.paying address then (streams.stream streamId).claim else 0 := by
    intro streamId
    rw [lists.getStream_eq, Streams.get]
    by_cases known : streamId ∈ streams.ids
    · cases live : (streams.stream streamId).live with
      | true =>
          simp [known, live, Option.filter_some, BitPayStream.claim, sbtcAmount_streamPosition]
      | false => simp [known, live, Option.filter_some, BitPayStream.claim]
    · simp [known]
  have listed : (reader.getStreamIds address).toFinset ∩ streams.paying address =
      streams.paying address := by
    rw [Finset.inter_eq_right]
    intro streamId member
    rcases Streams.mem_paying.mp member with ⟨known, rfl⟩
    exact List.mem_toFinset.mpr (lists.recipient_listed streamId known)
  calc
    reader.sbtcHeld address blockHeight observedAt =
        ((reader.getStreamIds address).map fun streamId =>
          if streamId ∈ streams.paying address then
            (streams.stream streamId).claim else 0).sum := by
      rw [sbtcHeld, getPositions, sum_map_filterMap]
      simp only [amount]
    _ = ∑ streamId ∈ (reader.getStreamIds address).toFinset,
          if streamId ∈ streams.paying address then (streams.stream streamId).claim else 0 :=
      (List.sum_toFinset _ (reader.nodup address)).symm
    _ = ∑ streamId ∈ streams.paying address, (streams.stream streamId).claim := by
      rw [Finset.sum_ite_mem, listed]

end BitPayReader

/-! ## Reading the lists of the contract -/

section Lists

open Javascript Text Stacks

/-- A `u` in front of a number is dropped. -/
def dropPrefix : Text → Text
  | 0x75 :: text => text
  | text => text

/-- It throws where there is no number.  The number may be `NaN` or infinite. -/
def asNumber (value : Json) : Option (Option ℚ) :=
  match unwrapClarity value with
  | .number text => some (number text)
  | .string text => some (number (dropPrefix text))
  | _ => none

/-- `Number.isSafeInteger(value) && value >= 0`. -/
def safeUint (value : Option ℚ) : Option ℕ :=
  value.bind fun value => if isSafeInteger value ∧ 0 ≤ value then some value.num.toNat else none

/-- The whole numbers of a list; what is no list counts as an empty one. -/
def decodeUintList (input : Json) : Option (List ℕ) :=
  match unwrapClarity input with
  | .array items => (items.mapM asNumber).map fun values => values.filterMap safeUint
  | _ => some []

/-- `[...new Set(ids)].sort((a, b) => a - b)`. -/
def ascending (ids : List ℕ) : List ℕ :=
  sortBy (fun first second => first ≤ second) ids.dedup

/-- `getStreamIds` of the `StacksBitPayReader`, on what the contract answers. -/
def stacksStreamIds (sent received : Json) : Option (List ℕ) :=
  (decodeUintList sent).bind fun sent =>
    (decodeUintList received).map fun received => ascending (sent ++ received)

theorem nodup_ascending (ids : List ℕ) : (ascending ids).Nodup :=
  (sortBy_perm _ _).nodup_iff.mpr ids.nodup_dedup

theorem mem_ascending {ids : List ℕ} {streamId : ℕ} :
    streamId ∈ ascending ids ↔ streamId ∈ ids :=
  (sortBy_perm _ _).mem_iff.trans List.mem_dedup

theorem safeUint_toDouble (n : ℕ) :
    safeUint (some (toDouble n)) = if n < 2 ^ 53 then some n else none := by
  rw [safeUint, Option.bind_some]
  rcases lt_or_ge n (2 ^ 53) with safe | large
  · rw [toDouble_of_safe safe, if_pos ⟨isSafeInteger_of_safe safe, n.cast_nonneg⟩, if_pos safe]
    simp
  · rw [isSafeInteger_toDouble_of_large large, if_neg (not_lt.mpr large)]
    simp

theorem dropPrefix_digits (n : ℕ) : dropPrefix (digits n) = digits n := by
  unfold dropPrefix
  split
  · rename_i text printed
    have member : 0x75 ∈ digits n := by
      rw [printed]
      exact List.mem_cons_self
    have bounds := mem_digits member
    omega
  · rfl

theorem asNumber_digits (n : ℕ) : asNumber (.string (digits n)) = some (some (toDouble n)) := by
  rw [asNumber, unwrapClarity_string]
  simp only [dropPrefix_digits, number_digits]

theorem plainItems_uint (ids : List ℕ) :
    plainItems (ids.map .uint) = ids.map fun streamId => .string (digits streamId) := by
  induction ids with
  | nil => rfl
  | cons streamId ids ih => rw [List.map_cons, plainItems, ih, plain, uintText, List.map_cons]

/-- A list of unsigned integers is read as those that JavaScript holds exactly. -/
theorem decodeUintList_cvToJSON (parameters : ClarityValue → Text) (ids : List ℕ) :
    decodeUintList (cvToJSON parameters (.list (ids.map .uint))) =
      some (ids.filter fun streamId => streamId < 2 ^ 53) := by
  have numbers : (ids.map fun streamId => Json.string (digits streamId)).mapM asNumber =
      some (ids.map fun streamId : ℕ => some (toDouble streamId)) := by
    rw [List.mapM_map]
    simp only [Function.comp_def, asNumber_digits]
    exact List.mapM_pure (m := Option)
  have kept : (ids.map fun streamId : ℕ => some (toDouble streamId)).filterMap safeUint =
      ids.filter fun streamId => streamId < 2 ^ 53 := by
    rw [List.filterMap_map, ← List.filterMap_eq_filter]
    apply List.filterMap_congr
    intro streamId _
    simp [safeUint_toDouble, Option.guard]
  rw [decodeUintList, unwrapClarity_cvToJSON, plain, plainItems_uint]
  simp only [numbers, Option.map_some, kept]

/-- The `StacksBitPayReader` of a contract that keeps a list of the streams each address has
`sent` and one of those it has `received`. -/
def stacksBitPayReader (sent received : String → List ℕ)
    (getStream : ℕ → Option BitPayStream) : BitPayReader where
  getStreamIds address :=
    ascending ((sent address ++ received address).filter fun streamId => streamId < 2 ^ 53)
  getStream := getStream
  nodup _ := nodup_ascending _

/-- It reads the lists as the contract answers them. -/
theorem stacksStreamIds_cvToJSON (parameters : ClarityValue → Text)
    (sent received : String → List ℕ) (getStream : ℕ → Option BitPayStream) (address : String) :
    stacksStreamIds (cvToJSON parameters (.list ((sent address).map .uint)))
        (cvToJSON parameters (.list ((received address).map .uint))) =
      some ((stacksBitPayReader sent received getStream).getStreamIds address) := by
  rw [stacksStreamIds, decodeUintList_cvToJSON, decodeUintList_cvToJSON, Option.bind_some,
    Option.map_some, ← List.filter_append]
  rfl

/-- A contract that lists each stream on both sides has a reader that does. -/
theorem stacksBitPayReader_lists {sent received : String → List ℕ} {streams : Streams}
    (safe : ∀ streamId ∈ streams.ids, streamId < 2 ^ 53)
    (sent_listed : ∀ streamId ∈ streams.ids, streamId ∈ sent (streams.stream streamId).sender)
    (received_listed : ∀ streamId ∈ streams.ids,
      streamId ∈ received (streams.stream streamId).recipient) :
    (stacksBitPayReader sent received streams.get).Lists streams where
  getStream_eq _ := rfl
  sender_listed streamId known := by
    apply mem_ascending.mpr
    rw [List.mem_filter, List.mem_append]
    exact ⟨.inl (sent_listed streamId known), decide_eq_true (safe streamId known)⟩
  recipient_listed streamId known := by
    apply mem_ascending.mpr
    rw [List.mem_filter, List.mem_append]
    exact ⟨.inr (received_listed streamId known), decide_eq_true (safe streamId known)⟩

end Lists

/-! ## Counted once -/

namespace BitPayReader

variable {reader : BitPayReader} {streams : Streams}

/-- All addresses together hold the claims of all the streams. -/
theorem sum_sbtcHeld (lists : reader.Lists streams) {addresses : Finset String}
    (every : ∀ streamId ∈ streams.ids, (streams.stream streamId).recipient ∈ addresses)
    (blockHeight : String → Option ℕ) (observedAt : String → ℕ → ℕ) :
    ∑ address ∈ addresses, reader.sbtcHeld address (blockHeight address) (observedAt address) =
      ∑ streamId ∈ streams.ids, (streams.stream streamId).claim := by
  calc
    ∑ address ∈ addresses, reader.sbtcHeld address (blockHeight address) (observedAt address) =
        ∑ address ∈ addresses, ∑ streamId ∈ streams.paying address,
          (streams.stream streamId).claim :=
      Finset.sum_congr rfl fun address _ => sbtcHeld_eq lists address _ _
    _ = ∑ streamId ∈ streams.ids, (streams.stream streamId).claim :=
      Finset.sum_fiberwise_of_maps_to every _

/-- The position of a recipient tells which share of its claim can be withdrawn. -/
theorem liquidBps_of_recipient (lists : reader.Lists streams) {address : String}
    {blockHeight : Option ℕ} {observedAt : ℕ → ℕ} {position : StreamPosition}
    (member : position ∈ reader.getPositions address blockHeight observedAt)
    (recipient : position.metadata.relationship = .recipient) :
    ∃ stream, streams.get position.metadata.streamId = some stream ∧ stream.live = true ∧
      position.position.liquidBps = some stream.liquidBps := by
  rcases mem_getPositions.mp member with ⟨streamId, -, stream, found, live, rfl⟩
  refine ⟨stream, (lists.getStream_eq streamId).symm.trans found, live, ?_⟩
  change (stream.accessibility (stream.relationship address)).map Prod.fst = _
  have side : stream.relationship address = .recipient := recipient
  rw [side]
  rfl

end BitPayReader

/-- A stream's sBTC is counted for its recipient and for nobody else: the addresses together
hold what is outstanding of the streams that are not cancelled.  An address has at most one
position in a stream, and a recipient's position tells which share can be withdrawn. -/
theorem streamed_sbtc_counted_once {reader : BitPayReader} {streams : Streams}
    (lists : reader.Lists streams) (blockHeight : String → Option ℕ)
    (observedAt : String → ℕ → ℕ) :
    (∀ addresses : Finset String,
      (∀ streamId ∈ streams.ids, (streams.stream streamId).recipient ∈ addresses) →
      ((∑ address ∈ addresses,
          reader.sbtcHeld address (blockHeight address) (observedAt address) : ℕ) : ℤ) =
        ∑ streamId ∈ streams.ids with (streams.stream streamId).cancelled = false,
          max 0 ((streams.stream streamId).totalAmountAtomic -
            (streams.stream streamId).withdrawnAmountAtomic)) ∧
    ∀ address,
      ((reader.getPositions address (blockHeight address) (observedAt address)).map fun position =>
        position.metadata.streamId).Nodup ∧
      ((reader.getPositions address (blockHeight address) (observedAt address)).map fun position =>
        position.position.id).Nodup ∧
      ∀ position ∈ reader.getPositions address (blockHeight address) (observedAt address),
        position.metadata.relationship = .recipient →
        ∃ stream, streams.get position.metadata.streamId = some stream ∧
          ∃ liquidBps ≤ 10000, position.position.liquidBps = some liquidBps ∧
            (stream.withdrawnAmountAtomic ≤ stream.vestedAmountAtomic →
              stream.vestedAmountAtomic ≤ stream.totalAmountAtomic →
              liquidBps * stream.outstanding ≤ 10000 * stream.currentlyWithdrawable ∧
                10000 * stream.currentlyWithdrawable < (liquidBps + 1) * stream.outstanding) := by
  constructor
  · intro addresses every
    rw [BitPayReader.sum_sbtcHeld lists every, Nat.cast_sum, Finset.sum_filter]
    apply Finset.sum_congr rfl
    intro streamId _
    rw [BitPayStream.cast_claim]
    cases (streams.stream streamId).cancelled <;> rfl
  · intro address
    refine ⟨BitPayReader.nodup_streamIds, BitPayReader.nodup_ids, ?_⟩
    intro position member recipient
    rcases BitPayReader.liquidBps_of_recipient lists member recipient with
      ⟨stream, found, live, share⟩
    exact ⟨stream, found, stream.liquidBps, stream.liquidBps_le, share,
      fun _ vested => stream.liquidBps_floor live vested⟩

/-- A stream between two addresses, one that an address pays itself, and one that has been
cancelled. -/
def threeStreams : Streams where
  ids := {7, 8, 9}
  stream
    | 7 => .releasingStream
    | 8 =>
        { BitPayStream.releasingStream with
          sender := "SP-RECIPIENT"
          withdrawnAmountAtomic := 99999970 }
    | _ => { BitPayStream.releasingStream with cancelled := true }

/-- A sender with two of the streams, and a recipient with the third. -/
def threeStreamsReader : BitPayReader :=
  stacksBitPayReader (fun address => if address = "SP-SENDER" then [7, 9] else [8])
    (fun _ => [7, 8, 9]) threeStreams.get

theorem threeStreams_counted_once :
    threeStreamsReader.Lists threeStreams ∧
    ((∑ address ∈ {"SP-SENDER", "SP-RECIPIENT"},
        threeStreamsReader.sbtcHeld address (some 150) id : ℕ) : ℤ) = 80000000 + 30 ∧
    ((threeStreamsReader.getPositions "SP-RECIPIENT" (some 150) id).map fun position =>
      position.position.id).Nodup := by
  have lists : threeStreamsReader.Lists threeStreams := by
    apply stacksBitPayReader_lists
    · decide
    · decide
    · decide
  rcases streamed_sbtc_counted_once lists (fun _ => some 150) (fun _ => id) with ⟨total, each⟩
  refine ⟨lists, ?_, (each "SP-RECIPIENT").2.1⟩
  rw [total {"SP-SENDER", "SP-RECIPIENT"} (by decide)]
  decide

end RiskRail.Adapters
