import RiskRail.Clarity.Ownership

/-!
# The protocol registry contract

Storage and public functions of `protocol-registry.clar`.  An entry says which
adapter interprets a protocol; it is registered once and afterwards changed one
part at a time.  The `print` events are left out, as for the risk registry.
-/

namespace RiskRail.ProtocolRegistry

open RiskRail.Clarity

/-! ## Constants -/

/-- The caller may not do this. -/
def errUnauthorized : Uint := .literal 300
/-- The id is taken. -/
def errAlreadyExists : Uint := .literal 301
/-- There is no such protocol. -/
def errNotFound : Uint := .literal 302

/-! ## Storage -/

/-- One entry of `protocols`. -/
structure Protocol where
  name : StringAscii 64
  protocolType : StringAscii 32
  contractPrincipal : Principal
  adapterVersion : Uint
  metadataHash : Buff 32
  enabled : Bool
  updatedAt : Uint
  deriving DecidableEq

/-- The data of the contract. -/
structure State where
  contractOwner : Principal
  pendingOwner : Option Principal
  protocols : DataMap Uint Protocol

/-- Storage at deployment. -/
def State.deployed (deployer : Principal) : State where
  contractOwner := deployer
  pendingOwner := none
  protocols := fun _ => none

/-- The caller is the owner. -/
def isOwner (env : Env) (state : State) : Prop :=
  env.txSender = state.contractOwner

instance (env : Env) (state : State) : Decidable (isOwner env state) :=
  inferInstanceAs (Decidable (env.txSender = state.contractOwner))

/-! ## Entries -/

/-- The arguments of `register-protocol`. -/
structure RegisterArgs where
  protocolId : Uint
  name : StringAscii 64
  protocolType : StringAscii 32
  contractPrincipal : Principal
  adapterVersion : Uint
  metadataHash : Buff 32
  deriving DecidableEq

/-- The entry a registration writes. -/
def RegisterArgs.protocol (args : RegisterArgs) (updatedAt : Uint) : Protocol where
  name := args.name
  protocolType := args.protocolType
  contractPrincipal := args.contractPrincipal
  adapterVersion := args.adapterVersion
  metadataHash := args.metadataHash
  enabled := true
  updatedAt := updatedAt

/-- `register-protocol`. -/
def registerProtocol (args : RegisterArgs) (env : Env) (state : State) : Outcome State Bool :=
  asserts (isOwner env state) errUnauthorized <|
  asserts (state.protocols args.protocolId = none) errAlreadyExists <|
    .ok true { state with
      protocols := state.protocols.set args.protocolId (args.protocol env.stacksBlockHeight) }

/-- `match (map-get? protocols protocol-id)` with a `merge` of the entry found. -/
def mergeProtocol (protocolId : Uint) (merge : Protocol → Protocol) (state : State) :
    Outcome State Bool :=
  match state.protocols protocolId with
  | some protocol =>
      .ok true { state with protocols := state.protocols.set protocolId (merge protocol) }
  | none => .err errNotFound

/-- `set-protocol-enabled`. -/
def setProtocolEnabled (protocolId : Uint) (enabled : Bool) (env : Env) (state : State) :
    Outcome State Bool :=
  asserts (isOwner env state) errUnauthorized <|
    mergeProtocol protocolId
      (fun protocol => { protocol with
        enabled := enabled
        updatedAt := env.stacksBlockHeight })
      state

/-- `set-adapter-version`. -/
def setAdapterVersion (protocolId adapterVersion : Uint) (metadataHash : Buff 32) (env : Env)
    (state : State) : Outcome State Bool :=
  asserts (isOwner env state) errUnauthorized <|
    mergeProtocol protocolId
      (fun protocol => { protocol with
        adapterVersion := adapterVersion
        metadataHash := metadataHash
        updatedAt := env.stacksBlockHeight })
      state

/-! ## Ownership -/

/-- `transfer-ownership`: the new owner has to accept. -/
def transferOwnership (newOwner : Principal) (env : Env) (state : State) : Outcome State Bool :=
  asserts (isOwner env state) errUnauthorized <|
    .ok true { state with pendingOwner := some newOwner }

/-- `accept-ownership`. -/
def acceptOwnership (env : Env) (state : State) : Outcome State Bool :=
  asserts (some env.txSender = state.pendingOwner) errUnauthorized <|
    .ok true { state with contractOwner := env.txSender, pendingOwner := none }

/-- `cancel-ownership-transfer`. -/
def cancelOwnershipTransfer (env : Env) (state : State) : Outcome State Bool :=
  asserts (isOwner env state) errUnauthorized <|
    .ok true { state with pendingOwner := none }

/-! ## Reads -/

/-- `get-protocol`. -/
def getProtocol (protocolId : Uint) (state : State) : Option Protocol :=
  state.protocols protocolId

/-- `is-supported-protocol`. -/
def isSupportedProtocol (protocolId : Uint) (state : State) : Bool :=
  match state.protocols protocolId with
  | some protocol => protocol.enabled
  | none => false

/-! ## The contract -/

/-- A call of one of the public functions. -/
inductive PublicCall where
  | registerProtocol (args : RegisterArgs)
  | setProtocolEnabled (protocolId : Uint) (enabled : Bool)
  | setAdapterVersion (protocolId adapterVersion : Uint) (metadataHash : Buff 32)
  | transferOwnership (newOwner : Principal)
  | acceptOwnership
  | cancelOwnershipTransfer
  deriving DecidableEq

/-- `protocol-registry.clar` as a contract. -/
def protocolRegistry : Contract State PublicCall Bool where
  run env call state :=
    match call with
    | .registerProtocol args => registerProtocol args env state
    | .setProtocolEnabled protocolId enabled => setProtocolEnabled protocolId enabled env state
    | .setAdapterVersion protocolId adapterVersion metadataHash =>
        setAdapterVersion protocolId adapterVersion metadataHash env state
    | .transferOwnership newOwner => transferOwnership newOwner env state
    | .acceptOwnership => acceptOwnership env state
    | .cancelOwnershipTransfer => cancelOwnershipTransfer env state

/-- The chain right after `deployer` deployed the registry. -/
def deployment (deployer : Principal) (height : Uint) : Chain State PublicCall :=
  Chain.genesis height (State.deployed deployer)

/-! ## What a successful call does -/

theorem mergeProtocol_eq_ok_iff {protocolId : Uint} {merge : Protocol → Protocol}
    {before after : State} {value : Bool} :
    mergeProtocol protocolId merge before = .ok value after ↔
      ∃ protocol, before.protocols protocolId = some protocol ∧ value = true ∧
        after = { before with protocols := before.protocols.set protocolId (merge protocol) } := by
  unfold mergeProtocol
  cases before.protocols protocolId with
  | none => simp
  | some protocol => simp only [Outcome.ok_eq_ok_iff, Option.some.injEq, exists_eq_left']

/-- What a successful call does to an entry: nothing, a first registration, or
one of the two partial updates, each by the owner. -/
inductive EntryChange (env : Env) (before after : State) : PublicCall → Prop where
  | register (args : RegisterArgs) (owner : isOwner env before)
      (free : before.protocols args.protocolId = none)
      (written : after = { before with
        protocols := before.protocols.set args.protocolId
          (args.protocol env.stacksBlockHeight) }) :
      EntryChange env before after (.registerProtocol args)
  | enable (protocolId : Uint) (enabled : Bool) (protocol : Protocol)
      (owner : isOwner env before)
      (found : before.protocols protocolId = some protocol)
      (written : after = { before with
        protocols := before.protocols.set protocolId { protocol with
          enabled := enabled, updatedAt := env.stacksBlockHeight } }) :
      EntryChange env before after (.setProtocolEnabled protocolId enabled)
  | adapter (protocolId adapterVersion : Uint) (metadataHash : Buff 32) (protocol : Protocol)
      (owner : isOwner env before)
      (found : before.protocols protocolId = some protocol)
      (written : after = { before with
        protocols := before.protocols.set protocolId { protocol with
          adapterVersion := adapterVersion, metadataHash := metadataHash,
          updatedAt := env.stacksBlockHeight } }) :
      EntryChange env before after (.setAdapterVersion protocolId adapterVersion metadataHash)

/-- Everything a successful public call can do. -/
theorem run_cases {env : Env} {call : PublicCall} {before after : State} {value : Bool}
    (ran : protocolRegistry.run env call before = .ok value after) :
    EntryChange env before after call ∨
    (∃ newOwner, call = .transferOwnership newOwner ∧ isOwner env before ∧
      after = { before with pendingOwner := some newOwner }) ∨
    (call = .acceptOwnership ∧ before.pendingOwner = some env.txSender ∧
      after = { before with contractOwner := env.txSender, pendingOwner := none }) ∨
    (call = .cancelOwnershipTransfer ∧ isOwner env before ∧
      after = { before with pendingOwner := none }) := by
  cases call with
  | registerProtocol args =>
      rcases asserts_eq_ok_iff.mp ran with ⟨owner, ran⟩
      rcases asserts_eq_ok_iff.mp ran with ⟨free, ran⟩
      exact Or.inl (.register args owner free (Outcome.ok_eq_ok_iff.mp ran).2)
  | setProtocolEnabled protocolId enabled =>
      rcases asserts_eq_ok_iff.mp ran with ⟨owner, ran⟩
      rcases mergeProtocol_eq_ok_iff.mp ran with ⟨protocol, found, -, written⟩
      exact Or.inl (.enable protocolId enabled protocol owner found written)
  | setAdapterVersion protocolId adapterVersion metadataHash =>
      rcases asserts_eq_ok_iff.mp ran with ⟨owner, ran⟩
      rcases mergeProtocol_eq_ok_iff.mp ran with ⟨protocol, found, -, written⟩
      exact Or.inl (.adapter protocolId adapterVersion metadataHash protocol owner found written)
  | transferOwnership newOwner =>
      rcases asserts_eq_ok_iff.mp ran with ⟨owner, ran⟩
      exact Or.inr (Or.inl ⟨newOwner, rfl, owner, (Outcome.ok_eq_ok_iff.mp ran).2⟩)
  | acceptOwnership =>
      rcases asserts_eq_ok_iff.mp ran with ⟨nominated, ran⟩
      exact Or.inr (Or.inr (Or.inl ⟨rfl, nominated.symm, (Outcome.ok_eq_ok_iff.mp ran).2⟩))
  | cancelOwnershipTransfer =>
      rcases asserts_eq_ok_iff.mp ran with ⟨owner, ran⟩
      exact Or.inr (Or.inr (Or.inr ⟨rfl, owner, (Outcome.ok_eq_ok_iff.mp ran).2⟩))

/-- The registry's ownership calls. -/
def PublicCall.ownershipCall : PublicCall → OwnershipCall
  | .transferOwnership newOwner => .nominate newOwner
  | .acceptOwnership => .accept
  | .cancelOwnershipTransfer => .cancel
  | .registerProtocol _ => .other
  | .setProtocolEnabled _ _ => .other
  | .setAdapterVersion _ _ _ => .other

theorem EntryChange.ownership_eq {env : Env} {before after : State} {call : PublicCall}
    (change : EntryChange env before after call) :
    call.ownershipCall = .other ∧ isOwner env before ∧
      after.contractOwner = before.contractOwner ∧ after.pendingOwner = before.pendingOwner := by
  cases change with
  | register args owner free written => exact ⟨rfl, owner, by rw [written], by rw [written]⟩
  | enable protocolId enabled protocol owner found written =>
      exact ⟨rfl, owner, by rw [written], by rw [written]⟩
  | adapter protocolId adapterVersion metadataHash protocol owner found written =>
      exact ⟨rfl, owner, by rw [written], by rw [written]⟩

/-- The protocol registry follows the two-step ownership protocol. -/
def ownership : TwoStepOwnership protocolRegistry where
  owner := State.contractOwner
  pending := State.pendingOwner
  kind := PublicCall.ownershipCall
  nominate_ok := by
    intro env call before value after successor ran kind
    rcases run_cases ran with change | ⟨newOwner, rfl, owner, rfl⟩ | ⟨rfl, -, -⟩ | ⟨rfl, -, -⟩
    case inr.inl =>
      cases kind
      exact ⟨owner, rfl, rfl⟩
    case inl => exact absurd (change.ownership_eq.1.symm.trans kind) (by simp)
    all_goals contradiction
  accept_ok := by
    intro env call before value after ran kind
    rcases run_cases ran with change | ⟨_, rfl, -, -⟩ | ⟨rfl, nominated, rfl⟩ | ⟨rfl, -, -⟩
    case inr.inr.inl => exact ⟨nominated, rfl, rfl⟩
    case inl => exact absurd (change.ownership_eq.1.symm.trans kind) (by simp)
    all_goals contradiction
  cancel_ok := by
    intro env call before value after ran kind
    rcases run_cases ran with change | ⟨_, rfl, -, -⟩ | ⟨rfl, -, -⟩ | ⟨rfl, owner, rfl⟩
    case inr.inr.inr => exact ⟨owner, rfl, rfl⟩
    case inl => exact absurd (change.ownership_eq.1.symm.trans kind) (by simp)
    all_goals contradiction
  other_ok := by
    intro env call before value after ran kind
    rcases run_cases ran with change | ⟨_, rfl, -, -⟩ | ⟨rfl, -, -⟩ | ⟨rfl, -, -⟩
    case inl => exact ⟨change.ownership_eq.2.2.1, change.ownership_eq.2.2.2⟩
    all_goals contradiction

end RiskRail.ProtocolRegistry
