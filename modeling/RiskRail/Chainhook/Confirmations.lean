import RiskRail.Chainhook.Parser
import RiskRail.Relational.Writes

/-!
# Confirmed attestations

`extractRegistryConfirmations` reads from a delivery which transactions published
a snapshot, by the return value `(ok uN)`, and which a reorganisation removed.
`confirmAttestations` turns that into database updates, the removed ones first.
Run on the delivery of a change of the chain, in either format, the updates
carry what was recorded of the old chain over to the new one.
-/

namespace RiskRail.Chainhook

open RiskRail.Relational

/-! ## The parser -/

/-- A property of a value. -/
def Json.field (value : Json) (name : String) : Option Json :=
  match value with
  | .object fields => fields.lookup name
  | _ => none

/-- `[0-9a-fA-F]`. -/
def isHex (char : Char) : Bool :=
  char.isDigit || ('a' ≤ char && char ≤ 'f') || ('A' ≤ char && char ≤ 'F')

/-- The digits after an `0x`. -/
def dropHexMark : List Char → List Char
  | '0' :: 'x' :: digits => digits
  | digits => digits

/-- `value.toLowerCase().replace(/^0x/, '')`, of a hash. -/
def normalizeTxId (value : String) : String :=
  String.ofList (dropHexMark (value.toList.map Char.toLower))

/-- `/^(0x)?[0-9a-fA-F]{64}$/.test(hash)`. -/
def isTxHash (hash : String) : Bool :=
  let digits := dropHexMark hash.toList
  digits.length = 64 && digits.all isHex

/-- The hash of a transaction, normalized; `none` where there is none. -/
def txHash (tx : Json) : Option String :=
  match (tx.field "transaction_identifier").bind fun identifier => identifier.field "hash" with
  | some (.string hash) => if isTxHash hash then some (normalizeTxId hash) else none
  | _ => none

/-- What `trim` removes. -/
def isWhiteSpace (char : Char) : Bool :=
  char.toNat ∈ [0x9, 0xA, 0xB, 0xC, 0xD, 0x20, 0xA0, 0x1680, 0x2028, 0x2029, 0x202F, 0x205F,
    0x3000, 0xFEFF] || (0x2000 ≤ char.toNat && char.toNat ≤ 0x200A)

/-- The text without blanks at its ends. -/
def trim (text : List Char) : List Char :=
  ((text.dropWhile isWhiteSpace).reverse.dropWhile isWhiteSpace).reverse

/-- `/^\(ok u(\d+)\)$/.exec(repr.trim())`, and the number it found. -/
def snapshotIdOfRepr (repr : String) : Option ℕ :=
  match trim repr.toList with
  | '(' :: 'o' :: 'k' :: ' ' :: 'u' :: rest =>
      let digits := rest.takeWhile Char.isDigit
      if digits ≠ [] ∧ rest.dropWhile Char.isDigit = [')'] then
        some (Nat.ofDigitChars 10 digits 0)
      else
        none
  | _ => none

/-- `meta.success === true || meta.status === 'success'`. -/
def reportsSuccess (metadata : Json) : Bool :=
  (match metadata.field "success" with
    | some (.bool success) => success
    | _ => false) ||
  match metadata.field "status" with
  | some (.string status) => status = "success"
  | _ => false

/-- The text of a return value: in 1.x itself, in 2.0 `{ hex, repr }`. -/
def reprOfResult : Json → Option String
  | .string result => some result
  | result =>
      match result.field "repr" with
      | some (.string repr) => some repr
      | _ => none

/-- The snapshot id of a successful publication. -/
def snapshotIdFromResult (tx : Json) : Option ℕ := do
  let metadata ← tx.field "metadata"
  if reportsSuccess metadata then
    let result ← metadata.field "result"
    let repr ← reprOfResult result
    snapshotIdOfRepr repr
  else
    none

/-- A transaction and the snapshot that it published. -/
structure PublishedSnapshot where
  txId : String
  snapshotId : ℕ
  blockHeight : Option ℕ
deriving DecidableEq

/-- What a delivery says of publications. -/
structure RegistryConfirmations where
  confirmed : List PublishedSnapshot
  rolledBack : List String
deriving DecidableEq

/-- The publications in a block. -/
def ChainhookBlock.confirmed (block : ChainhookBlock) : List PublishedSnapshot :=
  (block.transactions.getD []).filterMap fun tx => do
    let txId ← txHash tx
    let snapshotId ← snapshotIdFromResult tx
    some { txId, snapshotId, blockHeight := block.index }

/-- The transactions in a block. -/
def ChainhookBlock.txHashes (block : ChainhookBlock) : List String :=
  (block.transactions.getD []).filterMap txHash

/-- What was published and what was rolled back. -/
def extractRegistryConfirmations (payload : ChainhookPayload) : RegistryConfirmations where
  confirmed := payload.applied.flatMap ChainhookBlock.confirmed
  rolledBack := (payload.rolledBack.flatMap ChainhookBlock.txHashes).foldl addTo []

/-- What the `updateMany` calls of `confirmAttestations` write, in order: the new
`onchainSnapshotId` of the rows with a transaction id. -/
def ChainhookPayload.updates (payload : ChainhookPayload) : List (String × Option ℕ) :=
  let found := extractRegistryConfirmations payload
  (found.rolledBack.map fun txId => (txId, none)) ++
    found.confirmed.map fun item => (item.txId, some item.snapshotId)

/-! ## Transactions of the chain -/

/-- The hash of a transaction. -/
structure TxId where
  digits : List Char
  length_eq : digits.length = 64
  lower : ∀ digit ∈ digits, digit ∈ "0123456789abcdef".toList
deriving DecidableEq

/-- The id without a mark. -/
def TxId.text (id : TxId) : String :=
  String.ofList id.digits

/-- Both ways to write a hash. -/
def TxId.spelled (id : TxId) (marked : Bool) : String :=
  if marked then "0x" ++ id.text else id.text

/-- `spellings`. -/
def spellings (txId : String) : List String :=
  [txId, "0x" ++ txId]

/-- How a transaction ended. -/
inductive TxStatus where
  | success
  | abortByResponse
  | abortByPostCondition
deriving DecidableEq

/-- The return value of a public function of the registry. -/
inductive TxResult where
  | okUint (value : ℕ)
  | okBool (value : Bool)
  | err (code : ℕ)
deriving DecidableEq

/-- A transaction of the chain. -/
structure Transaction where
  id : TxId
  status : TxStatus
  result : TxResult
deriving DecidableEq

/-- A block of the chain. -/
structure Block where
  index : ℕ
  transactions : List Transaction

/-- The snapshot a transaction published. -/
def Transaction.snapshotId (tx : Transaction) : Option ℕ :=
  match tx.status, tx.result with
  | .success, .okUint id => some id
  | _, _ => none

/-- The transactions of the blocks, in order. -/
def transactions (blocks : List Block) : List Transaction :=
  blocks.flatMap Block.transactions

/-- What the chain has recorded under each transaction id. -/
def recorded (blocks : List Block) : String → Option ℕ :=
  overwrite ((transactions blocks).map fun tx => (tx.id.text, tx.snapshotId)) fun _ => none

/-- No transaction is on the chain twice. -/
def MinedOnce (blocks : List Block) : Prop :=
  ((transactions blocks).map Transaction.id).Nodup

instance (blocks : List Block) : Decidable (MinedOnce blocks) :=
  inferInstanceAs (Decidable (List.Nodup _))

/-! ## Deliveries -/

/-- A change of the chain. -/
structure Delivery where
  rollback : List Block
  apply : List Block

/-- How a delivery is written: by a 1.x node or by Chainhooks 2.0, with the
hashes marked by `0x` or not. -/
structure Format where
  nested : Bool
  marked : Bool

/-- The result as Clarity prints it. -/
def TxResult.repr : TxResult → String
  | .okUint value => "(ok u" ++ toString value ++ ")"
  | .okBool true => "(ok true)"
  | .okBool false => "(ok false)"
  | .err code => "(err u" ++ toString code ++ ")"

/-- The status as the node names it. -/
def TxStatus.text : TxStatus → String
  | .success => "success"
  | .abortByResponse => "abort_by_response"
  | .abortByPostCondition => "abort_by_post_condition"

/-- The metadata, in either of the two shapes. -/
def Transaction.metadata (format : Format) (tx : Transaction) : Json :=
  if format.nested then
    .object
      [("type", .string "contract_call"), ("result", .object [("repr", .string tx.result.repr)]),
        ("status", .string tx.status.text)]
  else
    .object [("success", .bool (tx.status = .success)), ("result", .string tx.result.repr)]

/-- The transaction as it is delivered. -/
def Transaction.render (format : Format) (tx : Transaction) : Json :=
  .object
    [("transaction_identifier", .object [("hash", .string (tx.id.spelled format.marked))]),
      ("metadata", tx.metadata format)]

/-- The block as it is delivered. -/
def Block.render (format : Format) (block : Block) : ChainhookBlock where
  block_identifier := some { index := some block.index, hash := none }
  transactions := some (block.transactions.map (Transaction.render format))

/-- The payload, in either of the two shapes. -/
def Delivery.render (format : Format) (delivery : Delivery) : ChainhookPayload :=
  let apply := some (delivery.apply.map (Block.render format))
  let rollback := some (delivery.rollback.map (Block.render format))
  if format.nested then
    { apply := none, rollback := none, event := some { apply, rollback } }
  else
    { apply, rollback, event := none }

/-! ## What the parser reads from a delivery -/

private theorem hexDigits_plain : ∀ char ∈ "0123456789abcdef".toList,
    char.toLower = char ∧ isHex char = true ∧ char ≠ 'x' := by
  -- Deciding the statement itself may run through all characters.
  have all : "0123456789abcdef".toList.all (fun char =>
      char.toLower = char ∧ isHex char = true ∧ char ≠ 'x') = true := by
    decide
  exact fun char member => of_decide_eq_true (List.all_eq_true.mp all char member)

theorem TxId.dropHexMark_digits (id : TxId) : dropHexMark id.digits = id.digits := by
  unfold dropHexMark
  split
  next digits written =>
    have member : 'x' ∈ id.digits := by simp [written]
    exact absurd rfl (hexDigits_plain 'x' (id.lower 'x' member)).2.2
  next => rfl

theorem TxId.map_toLower (id : TxId) : id.digits.map Char.toLower = id.digits := by
  apply (List.map_congr_left fun char member => ?_).trans (List.map_id id.digits)
  exact (hexDigits_plain char (id.lower char member)).1

theorem TxId.toList_spelled (id : TxId) (marked : Bool) :
    (id.spelled marked).toList = if marked then '0' :: 'x' :: id.digits else id.digits := by
  cases marked with
  | false => exact String.toList_ofList
  | true => simp [spelled, text]

/-- Both spellings are a hash. -/
theorem isTxHash_spelled (id : TxId) (marked : Bool) : isTxHash (id.spelled marked) = true := by
  have digits : dropHexMark (id.spelled marked).toList = id.digits := by
    rw [TxId.toList_spelled]
    cases marked with
    | false => exact id.dropHexMark_digits
    | true => rfl
  have hex : id.digits.all isHex = true := by
    rw [List.all_eq_true]
    exact fun char member => (hexDigits_plain char (id.lower char member)).2.1
  simp [isTxHash, digits, id.length_eq, hex]

/-- Both spellings are read as the same id. -/
theorem normalizeTxId_spelled (id : TxId) (marked : Bool) :
    normalizeTxId (id.spelled marked) = id.text := by
  unfold normalizeTxId TxId.text
  rw [TxId.toList_spelled]
  cases marked with
  | false => rw [if_neg (by simp), id.map_toLower, id.dropHexMark_digits]
  | true =>
      rw [if_pos rfl, List.map_cons, List.map_cons, id.map_toLower]
      rfl

theorem TxId.text_injective : Function.Injective TxId.text := by
  rintro ⟨first, _, _⟩ ⟨second, _, _⟩ same
  have digits : first = second := String.ofList_injective same
  subst digits
  rfl

/-- A stored spelling matches the spellings of one id only. -/
theorem mem_spellings_iff {first second : TxId} {marked : Bool} :
    first.spelled marked ∈ spellings second.text ↔ first = second := by
  constructor
  · intro member
    have read : normalizeTxId (first.spelled marked) = second.text := by
      rcases List.mem_pair.mp member with bare | hexMarked
      · rw [bare]
        exact normalizeTxId_spelled second false
      · rw [hexMarked]
        exact normalizeTxId_spelled second true
    rw [normalizeTxId_spelled] at read
    exact TxId.text_injective read
  · rintro rfl
    cases marked <;> simp [spellings, TxId.spelled]

theorem trim_parenthesized (text : List Char) : trim ('(' :: (text ++ [')'])) =
    '(' :: (text ++ [')']) := by
  have opening : isWhiteSpace '(' = false := by decide
  have closing : isWhiteSpace ')' = false := by decide
  simp [trim, List.dropWhile, opening, closing]

/-- The return value `(ok uN)` is read as `N`, and no other one as a number. -/
theorem snapshotIdOfRepr_repr (result : TxResult) :
    snapshotIdOfRepr result.repr =
      match result with
      | .okUint value => some value
      | _ => none := by
  cases result with
  | okUint value =>
      have digits : ∀ char ∈ Nat.toDigits 10 value, char.isDigit = true := fun char member =>
        Nat.isDigit_of_mem_toDigits (by decide) (by decide) member
      have written : (TxResult.okUint value).repr.toList =
          '(' :: ('o' :: 'k' :: ' ' :: 'u' :: Nat.toDigits 10 value ++ [')']) := by
        simp [TxResult.repr]
      have taken : (Nat.toDigits 10 value ++ [')']).takeWhile Char.isDigit =
          Nat.toDigits 10 value := by
        rw [List.takeWhile_append_of_pos digits]
        simp [List.takeWhile]
      have dropped : (Nat.toDigits 10 value ++ [')']).dropWhile Char.isDigit = [')'] := by
        rw [List.dropWhile_append_of_pos digits]
        rfl
      unfold snapshotIdOfRepr
      rw [written, trim_parenthesized]
      simp only [List.cons_append, taken, dropped, ne_eq, and_true]
      rw [if_pos Nat.toDigits_ne_nil, Nat.ofDigitChars_ten_toDigits]
  | okBool value => cases value <;> decide +kernel
  | err code =>
      have written : (TxResult.err code).repr.toList =
          '(' :: ('e' :: 'r' :: 'r' :: ' ' :: 'u' :: Nat.toDigits 10 code ++ [')']) := by
        simp [TxResult.repr]
      unfold snapshotIdOfRepr
      rw [written, trim_parenthesized]
      rfl

theorem txHash_render (format : Format) (tx : Transaction) :
    txHash (tx.render format) = some tx.id.text := by
  have found : ((tx.render format).field "transaction_identifier").bind
      (fun identifier => identifier.field "hash") =
        some (.string (tx.id.spelled format.marked)) := rfl
  unfold txHash
  rw [found]
  simp [isTxHash_spelled, normalizeTxId_spelled]

/-- In both formats only a successful transaction is read as a publication. -/
theorem snapshotIdFromResult_render (format : Format) (tx : Transaction) :
    snapshotIdFromResult (tx.render format) = tx.snapshotId := by
  have found : snapshotIdFromResult (tx.render format) =
      if tx.status = .success then snapshotIdOfRepr tx.result.repr else none := by
    rcases format with ⟨nested, marked⟩
    cases nested <;> cases status_eq : tx.status <;>
      simp [snapshotIdFromResult, Transaction.render, Transaction.metadata, Json.field,
        List.lookup_cons, reportsSuccess, reprOfResult, TxStatus.text, status_eq]
  rw [found, snapshotIdOfRepr_repr]
  unfold Transaction.snapshotId
  cases tx.status <;> cases tx.result <;> rfl

theorem Delivery.applied_render (format : Format) (delivery : Delivery) :
    (delivery.render format).applied = delivery.apply.map (Block.render format) := by
  rcases format with ⟨nested, marked⟩
  cases nested <;> rfl

theorem Delivery.rolledBack_render (format : Format) (delivery : Delivery) :
    (delivery.render format).rolledBack = delivery.rollback.map (Block.render format) := by
  rcases format with ⟨nested, marked⟩
  cases nested <;> rfl

/-- The snapshots a delivery confirms, and the transactions it removes. -/
def Delivery.confirmations (delivery : Delivery) : RegistryConfirmations where
  confirmed := delivery.apply.flatMap fun block =>
    block.transactions.filterMap fun tx => tx.snapshotId.map fun snapshotId =>
      { txId := tx.id.text, snapshotId, blockHeight := some block.index }
  rolledBack := ((transactions delivery.rollback).map fun tx => tx.id.text).foldl addTo []

/-- The parser reads every delivery, in either format. -/
theorem extractRegistryConfirmations_render (format : Format) (delivery : Delivery) :
    extractRegistryConfirmations (delivery.render format) = delivery.confirmations := by
  have confirmed : ∀ block : Block, (block.render format).confirmed =
      block.transactions.filterMap fun tx => tx.snapshotId.map fun snapshotId =>
        { txId := tx.id.text, snapshotId, blockHeight := some block.index } := by
    intro block
    simp only [ChainhookBlock.confirmed, Block.render, Option.getD_some, List.filterMap_map]
    apply List.filterMap_congr
    intro tx member
    simp only [Function.comp_apply, txHash_render, snapshotIdFromResult_render]
    cases tx.snapshotId <;> rfl
  have removed : ∀ block : Block, (block.render format).txHashes =
      block.transactions.map fun tx => tx.id.text := by
    intro block
    simp [ChainhookBlock.txHashes, Block.render, List.filterMap_map, txHash_render]
  simp only [extractRegistryConfirmations, Delivery.confirmations, Delivery.applied_render,
    Delivery.rolledBack_render, List.flatMap_map, confirmed, removed, transactions,
    List.map_flatMap]

/-! ## The updates of a change of the chain -/

/-- The updates of a delivery. -/
def Delivery.updates (delivery : Delivery) : List (String × Option ℕ) :=
  (delivery.confirmations.rolledBack.map fun txId => (txId, none)) ++
    delivery.confirmations.confirmed.map fun item => (item.txId, some item.snapshotId)

theorem updates_render (format : Format) (delivery : Delivery) :
    (delivery.render format).updates = delivery.updates := by
  rw [ChainhookPayload.updates, extractRegistryConfirmations_render]
  rfl

/-- The writes that confirm. -/
def confirming (blocks : List Block) : List (String × Option ℕ) :=
  (transactions blocks).filterMap fun tx => tx.snapshotId.map fun id => (tx.id.text, some id)

theorem Delivery.updates_eq (delivery : Delivery) :
    delivery.updates =
      (delivery.confirmations.rolledBack.map fun txId => (txId, none)) ++
        confirming delivery.apply := by
  simp only [updates, confirmations, confirming, transactions, List.map_flatMap,
    List.filterMap_flatMap, List.map_filterMap, Option.map_map, Function.comp_def]

/-- Every update is of a transaction. -/
theorem Delivery.txId_of_mem_updates {delivery : Delivery} {write : String × Option ℕ}
    (member : write ∈ delivery.updates) : ∃ id : TxId, id.text = write.1 := by
  rw [Delivery.updates_eq, List.mem_append] at member
  rcases member with removed | confirmed
  · rcases List.mem_map.mp removed with ⟨text, textMem, rfl⟩
    simp only [confirmations, mem_foldl_addTo_iff, List.not_mem_nil, false_or] at textMem
    rcases List.mem_map.mp textMem with ⟨tx, -, text_eq⟩
    exact ⟨tx.id, text_eq⟩
  · rcases List.mem_filterMap.mp confirmed with ⟨tx, -, write_eq⟩
    rcases Option.map_eq_some_iff.mp write_eq with ⟨snapshotId, -, rfl⟩
    exact ⟨tx.id, rfl⟩

/-- A transaction with the given id is in the blocks. -/
def Mined (blocks : List Block) (text : String) : Prop :=
  ∃ tx ∈ transactions blocks, tx.id.text = text

theorem MinedOnce.texts {blocks : List Block} (once : MinedOnce blocks) :
    ((transactions blocks).map fun tx => tx.id.text).Nodup := by
  have mapped := List.Nodup.map TxId.text_injective once
  rwa [List.map_map] at mapped

theorem MinedOnce.disjoint {first second : List Block} (once : MinedOnce (first ++ second))
    {text : String} (inFirst : Mined first text) : ¬Mined second text := by
  rintro ⟨other, otherMem, other_eq⟩
  rcases inFirst with ⟨tx, member, rfl⟩
  have texts := once.texts
  rw [transactions, List.flatMap_append, List.map_append] at texts
  exact List.disjoint_of_nodup_append texts (List.mem_map_of_mem member)
    (other_eq ▸ List.mem_map_of_mem (f := fun tx => tx.id.text) otherMem)

theorem MinedOnce.right {first second : List Block} (once : MinedOnce (first ++ second)) :
    MinedOnce second := by
  unfold MinedOnce at once
  rw [transactions, List.flatMap_append, List.map_append] at once
  exact once.of_append_right

theorem recorded_of_mem {blocks : List Block} (once : MinedOnce blocks) {tx : Transaction}
    (member : tx ∈ transactions blocks) : recorded blocks tx.id.text = tx.snapshotId := by
  apply overwrite_of_nodup
  · rw [List.map_map]
    exact once.texts
  · exact List.mem_map_of_mem (f := fun tx => (tx.id.text, tx.snapshotId)) member

theorem recorded_of_not_mined {blocks : List Block} {text : String}
    (notMined : ¬Mined blocks text) : recorded blocks text = none := by
  apply overwrite_of_not_mem
  rw [List.map_map]
  intro member
  rcases List.mem_map.mp member with ⟨tx, txMem, rfl⟩
  exact notMined ⟨tx, txMem, rfl⟩

/-- A transaction id has the snapshot that its transaction on the chain published. -/
theorem recorded_eq_some_iff {blocks : List Block} (once : MinedOnce blocks) {text : String}
    {snapshotId : ℕ} :
    recorded blocks text = some snapshotId ↔
      ∃ tx ∈ transactions blocks, tx.id.text = text ∧ tx.snapshotId = some snapshotId := by
  constructor
  · intro found
    by_cases mined : Mined blocks text
    · rcases mined with ⟨tx, member, rfl⟩
      rw [recorded_of_mem once member] at found
      exact ⟨tx, member, rfl, found⟩
    · rw [recorded_of_not_mined mined] at found
      cases found
  · rintro ⟨tx, member, rfl, published⟩
    rw [recorded_of_mem once member, published]

theorem recorded_append_left {first second : List Block} {text : String}
    (notMined : ¬Mined second text) : recorded (first ++ second) text = recorded first text := by
  unfold recorded
  rw [transactions, List.flatMap_append, List.map_append, overwrite_append]
  apply overwrite_of_not_mem
  rw [List.map_map]
  intro member
  rcases List.mem_map.mp member with ⟨tx, txMem, rfl⟩
  exact notMined ⟨tx, txMem, rfl⟩

theorem mem_rolledBack_iff {delivery : Delivery} {text : String} :
    text ∈ delivery.confirmations.rolledBack ↔ Mined delivery.rollback text := by
  simp [Delivery.confirmations, mem_foldl_addTo_iff, Mined]

theorem keys_confirming {blocks : List Block} (once : MinedOnce blocks) :
    ((confirming blocks).map Prod.fst).Nodup := by
  apply List.Nodup.sublist _ once.texts
  unfold confirming
  induction transactions blocks with
  | nil => exact List.Sublist.slnil
  | cons tx rest ih =>
      cases published : tx.snapshotId with
      | none => simpa [published] using ih.cons _
      | some id => simpa [published] using ih

theorem mem_confirming_iff {blocks : List Block} {text : String} :
    text ∈ (confirming blocks).map Prod.fst ↔
      ∃ tx ∈ transactions blocks, ∃ id, tx.id.text = text ∧ tx.snapshotId = some id ∧
        (text, some id) ∈ confirming blocks := by
  constructor
  · intro member
    rcases List.mem_map.mp member with ⟨write, writeMem, rfl⟩
    rcases List.mem_filterMap.mp writeMem with ⟨tx, txMem, write_eq⟩
    rcases Option.map_eq_some_iff.mp write_eq with ⟨id, published, rfl⟩
    exact ⟨tx, txMem, id, rfl, published, writeMem⟩
  · rintro ⟨tx, -, id, -, -, member⟩
    exact List.mem_map_of_mem member

/-- A transaction of the new blocks that nothing confirms published nothing. -/
theorem recorded_of_not_confirming {kept added : List Block} (after : MinedOnce (kept ++ added))
    {text : String} (mined : Mined added text)
    (unconfirmed : text ∉ (confirming added).map Prod.fst) :
    recorded (kept ++ added) text = none := by
  rcases mined with ⟨tx, member, rfl⟩
  have inAll : tx ∈ transactions (kept ++ added) := by
    simp only [transactions, List.flatMap_append, List.mem_append]
    exact .inr member
  rw [recorded_of_mem after inAll]
  cases published : tx.snapshotId with
  | none => rfl
  | some id =>
      have write : (tx.id.text, some id) ∈ confirming added :=
        List.mem_filterMap.mpr ⟨tx, member, by rw [published]; rfl⟩
      exact absurd (mem_confirming_iff.mpr ⟨tx, member, id, rfl, published, write⟩) unconfirmed

/-- The updates of a change of the chain carry the record over to the new chain. -/
theorem overwrite_updates {kept removed added : List Block} (before : MinedOnce (kept ++ removed))
    (after : MinedOnce (kept ++ added)) :
    overwrite (Delivery.updates ⟨removed.reverse, added⟩) (recorded (kept ++ removed)) =
      recorded (kept ++ added) := by
  funext text
  have removed_iff : Mined removed.reverse text ↔ Mined removed text := by
    simp [Mined, transactions]
  rw [Delivery.updates_eq, overwrite_append]
  by_cases confirmed : text ∈ (confirming added).map Prod.fst
  · rcases mem_confirming_iff.mp confirmed with ⟨tx, member, id, rfl, published, write⟩
    have inAll : tx ∈ transactions (kept ++ added) := by
      simp only [transactions, List.flatMap_append, List.mem_append]
      exact .inr member
    rw [overwrite_of_nodup (keys_confirming after.right) write, recorded_of_mem after inAll,
      published]
  rw [overwrite_of_not_mem confirmed]
  by_cases rolledBack : Mined removed text
  · rw [overwrite_const (mem_rolledBack_iff.mpr (removed_iff.mpr rolledBack))]
    by_cases mined : Mined added text
    · rw [recorded_of_not_confirming after mined confirmed]
    · rw [recorded_append_left mined,
        recorded_of_not_mined fun inKept => before.disjoint inKept rolledBack]
  · have untouched : text ∉ ((Delivery.confirmations ⟨removed.reverse, added⟩).rolledBack.map
        fun txId => (txId, (none : Option ℕ))).map Prod.fst := by
      rw [List.map_map, Function.comp_def, List.map_id', mem_rolledBack_iff, removed_iff]
      exact rolledBack
    rw [overwrite_of_not_mem untouched, recorded_append_left rolledBack]
    by_cases mined : Mined added text
    · rw [recorded_of_not_confirming after mined confirmed,
        recorded_of_not_mined fun inKept => after.disjoint inKept mined]
    · rw [recorded_append_left mined]

end RiskRail.Chainhook
