import RiskRail.Clarity.Ownership

/-!
# The risk registry contract

Storage and public functions of `risk-registry.clar`, one definition for each
`define-public` and for the private and read-only functions they share.  The
`print` events are left out: nothing in the contract or in its consumers reads
them.
-/

namespace RiskRail.Registry

open RiskRail.Clarity

/-! ## Constants -/

/-- The caller may not do this. -/
def errUnauthorized : Uint := ⟨100, by decide⟩
/-- The score is above the maximum. -/
def errInvalidScore : Uint := ⟨101, by decide⟩
/-- A share or a distance is above its maximum. -/
def errInvalidBps : Uint := ⟨102, by decide⟩
/-- The source block is in the future. -/
def errInvalidSourceBlock : Uint := ⟨103, by decide⟩

/-- The largest `uint`, published as the health factor of a wallet without debt. -/
def healthFactorUnbounded : Uint :=
  ⟨340282366920938463463374607431768211455, by decide⟩

/-- The liquidation distance of a wallet without debt. -/
def liquidationDistanceMax : Uint := ⟨10000, by decide⟩

/-- The bound of the other basis-point arguments, `u10000`. -/
def fullBps : Uint := ⟨10000, by decide⟩

/-! ## Storage -/

/-- One entry of `risk-snapshots`. -/
structure Snapshot where
  riskScoreBps : Uint
  healthFactorE4 : Uint
  liquidationDistanceBps : Uint
  protocolConcentrationBps : Uint
  liquidityScoreBps : Uint
  sourceBlock : Uint
  reportHash : Buff 32
  publishedAt : Uint
  deriving DecidableEq

/-- The contract's data variables and maps. -/
structure State where
  contractOwner : Principal
  pendingOwner : Option Principal
  authorizedPublishers : DataMap Principal Bool
  latestSnapshotId : DataMap Principal Uint
  riskSnapshots : DataMap (Principal × Uint) Snapshot

/-- Storage at deployment: the deployer owns an empty registry. -/
def State.deployed (deployer : Principal) : State where
  contractOwner := deployer
  pendingOwner := none
  authorizedPublishers := fun _ => none
  latestSnapshotId := fun _ => none
  riskSnapshots := fun _ => none

/-! ## Private functions -/

/-- The caller is the owner. -/
def isOwner (env : Env) (state : State) : Prop :=
  env.txSender = state.contractOwner

instance (env : Env) (state : State) : Decidable (isOwner env state) :=
  inferInstanceAs (Decidable (env.txSender = state.contractOwner))

/-- The caller is the owner or an authorized publisher. -/
def isPublisher (env : Env) (state : State) : Prop :=
  isOwner env state ∨ (state.authorizedPublishers env.txSender).getD false = true

instance (env : Env) (state : State) : Decidable (isPublisher env state) :=
  inferInstanceAs (Decidable (isOwner env state ∨ _ = true))

/-! ## Administration -/

/-- `set-publisher`. -/
def setPublisher (publisher : Principal) (enabled : Bool) (env : Env) (state : State) :
    Outcome State Bool :=
  asserts (isOwner env state) errUnauthorized <|
    .ok true { state with
      authorizedPublishers := state.authorizedPublishers.set publisher enabled }

/-- `transfer-ownership`: the new owner has to accept. -/
def transferOwnership (newOwner : Principal) (env : Env) (state : State) :
    Outcome State Bool :=
  asserts (isOwner env state) errUnauthorized <|
    .ok true { state with pendingOwner := some newOwner }

/-- `accept-ownership`. -/
def acceptOwnership (env : Env) (state : State) : Outcome State Bool :=
  asserts (some env.txSender = state.pendingOwner) errUnauthorized <|
    .ok true { state with contractOwner := env.txSender, pendingOwner := none }

/-- `cancel-ownership-transfer`. -/
def cancelOwnershipTransfer (env : Env) (state : State) : Outcome State Bool :=
  asserts (isOwner env state) errUnauthorized <|
    .ok true { state with pendingOwner := none }

/-! ## Publishing -/

/-- The arguments of `publish-risk-snapshot`. -/
structure PublishArgs where
  wallet : Principal
  riskScoreBps : Uint
  healthFactorE4 : Uint
  liquidationDistanceBps : Uint
  protocolConcentrationBps : Uint
  liquidityScoreBps : Uint
  sourceBlock : Uint
  reportHash : Buff 32
  deriving DecidableEq

/-- The entry a publication writes. -/
def PublishArgs.snapshot (args : PublishArgs) (publishedAt : Uint) : Snapshot where
  riskScoreBps := args.riskScoreBps
  healthFactorE4 := args.healthFactorE4
  liquidationDistanceBps := args.liquidationDistanceBps
  protocolConcentrationBps := args.protocolConcentrationBps
  liquidityScoreBps := args.liquidityScoreBps
  sourceBlock := args.sourceBlock
  reportHash := args.reportHash
  publishedAt := publishedAt

/-- The id of the wallet's latest snapshot, `u0` before the first. -/
def currentId (wallet : Principal) (state : State) : Uint :=
  (state.latestSnapshotId wallet).getD ⟨0, by decide⟩

/-- `publish-risk-snapshot`. -/
def publishRiskSnapshot (args : PublishArgs) (env : Env) (state : State) :
    Outcome State Uint :=
  -- The `let` computes the next id before any assert, so an id that no longer
  -- fits aborts even an unauthorized call.
  match (currentId args.wallet state).add ⟨1, by decide⟩ with
  | none => .abort
  | some nextId =>
      asserts (isPublisher env state) errUnauthorized <|
      asserts (args.riskScoreBps ≤ fullBps) errInvalidScore <|
      asserts (args.liquidationDistanceBps ≤ liquidationDistanceMax) errInvalidBps <|
      asserts (args.protocolConcentrationBps ≤ fullBps) errInvalidBps <|
      asserts (args.liquidityScoreBps ≤ fullBps) errInvalidBps <|
      asserts (args.sourceBlock ≤ env.stacksBlockHeight) errInvalidSourceBlock <|
        .ok nextId { state with
          riskSnapshots := state.riskSnapshots.set (args.wallet, nextId)
            (args.snapshot env.stacksBlockHeight)
          latestSnapshotId := state.latestSnapshotId.set args.wallet nextId }

/-! ## Reads -/

/-- `get-latest-snapshot-id`. -/
def getLatestSnapshotId (wallet : Principal) (state : State) : Option Uint :=
  state.latestSnapshotId wallet

/-- `is-authorized-publisher`. -/
def isAuthorizedPublisher (publisher : Principal) (state : State) : Prop :=
  publisher = state.contractOwner ∨
    (state.authorizedPublishers publisher).getD false = true

instance (publisher : Principal) (state : State) :
    Decidable (isAuthorizedPublisher publisher state) :=
  inferInstanceAs (Decidable (publisher = state.contractOwner ∨ _ = true))

/-! ## The contract -/

/-- A call of one of the public functions. -/
inductive PublicCall where
  | setPublisher (publisher : Principal) (enabled : Bool)
  | transferOwnership (newOwner : Principal)
  | acceptOwnership
  | cancelOwnershipTransfer
  | publishRiskSnapshot (args : PublishArgs)
  deriving DecidableEq

/-- The answers of the public functions. -/
inductive Answer where
  | bool (value : Bool)
  | uint (value : Uint)
  deriving DecidableEq

/-- `risk-registry.clar` as a contract. -/
def riskRegistry : Contract State PublicCall Answer where
  run env call state :=
    match call with
    | .setPublisher publisher enabled =>
        (setPublisher publisher enabled env state).map .bool
    | .transferOwnership newOwner => (transferOwnership newOwner env state).map .bool
    | .acceptOwnership => (acceptOwnership env state).map .bool
    | .cancelOwnershipTransfer => (cancelOwnershipTransfer env state).map .bool
    | .publishRiskSnapshot args => (publishRiskSnapshot args env state).map .uint

/-! ## What each function does when it succeeds -/

theorem setPublisher_eq_ok_iff {publisher : Principal} {enabled : Bool} {env : Env}
    {before after : State} {value : Bool} :
    setPublisher publisher enabled env before = .ok value after ↔
      env.txSender = before.contractOwner ∧ value = true ∧
        after = { before with
          authorizedPublishers := before.authorizedPublishers.set publisher enabled } := by
  simp only [setPublisher, asserts_eq_ok_iff, Outcome.ok_eq_ok_iff]
  rfl

theorem transferOwnership_eq_ok_iff {newOwner : Principal} {env : Env}
    {before after : State} {value : Bool} :
    transferOwnership newOwner env before = .ok value after ↔
      env.txSender = before.contractOwner ∧ value = true ∧
        after = { before with pendingOwner := some newOwner } := by
  simp only [transferOwnership, asserts_eq_ok_iff, Outcome.ok_eq_ok_iff]
  rfl

theorem acceptOwnership_eq_ok_iff {env : Env} {before after : State} {value : Bool} :
    acceptOwnership env before = .ok value after ↔
      before.pendingOwner = some env.txSender ∧ value = true ∧
        after = { before with contractOwner := env.txSender, pendingOwner := none } := by
  simp only [acceptOwnership, asserts_eq_ok_iff, Outcome.ok_eq_ok_iff]
  rw [eq_comm (a := before.pendingOwner)]

theorem cancelOwnershipTransfer_eq_ok_iff {env : Env} {before after : State} {value : Bool} :
    cancelOwnershipTransfer env before = .ok value after ↔
      env.txSender = before.contractOwner ∧ value = true ∧
        after = { before with pendingOwner := none } := by
  simp only [cancelOwnershipTransfer, asserts_eq_ok_iff, Outcome.ok_eq_ok_iff]
  rfl

/-- The figures lie in the ranges the contract asserts. -/
def PublishArgs.InRange (args : PublishArgs) (height : Uint) : Prop :=
  args.riskScoreBps ≤ fullBps ∧ args.liquidationDistanceBps ≤ liquidationDistanceMax ∧
    args.protocolConcentrationBps ≤ fullBps ∧ args.liquidityScoreBps ≤ fullBps ∧
    args.sourceBlock ≤ height

theorem publishRiskSnapshot_eq_ok_iff {args : PublishArgs} {env : Env}
    {before after : State} {id : Uint} :
    publishRiskSnapshot args env before = .ok id after ↔
      id.val = (currentId args.wallet before).val + 1 ∧ isPublisher env before ∧
        args.InRange env.stacksBlockHeight ∧
        after = { before with
          riskSnapshots := before.riskSnapshots.set (args.wallet, id)
            (args.snapshot env.stacksBlockHeight)
          latestSnapshotId := before.latestSnapshotId.set args.wallet id } := by
  have next_iff : (currentId args.wallet before).add ⟨1, by decide⟩ = some id ↔
      id.val = (currentId args.wallet before).val + 1 := Uint.add_eq_some_iff
  rw [← next_iff, publishRiskSnapshot]
  cases sum : (currentId args.wallet before).add ⟨1, by decide⟩ with
  | none => simp
  | some nextId =>
      simp only [asserts_eq_ok_iff, Outcome.ok.injEq, Option.some.injEq,
        PublishArgs.InRange]
      constructor
      · rintro ⟨publisher, score, distance, concentration, liquidity, block, rfl, rfl⟩
        exact ⟨rfl, publisher, ⟨score, distance, concentration, liquidity, block⟩, rfl⟩
      · rintro ⟨rfl, publisher, ⟨score, distance, concentration, liquidity, block⟩, rfl⟩
        exact ⟨publisher, score, distance, concentration, liquidity, block, rfl, rfl⟩

/-- The registry's ownership calls. -/
def PublicCall.ownershipCall : PublicCall → OwnershipCall
  | .transferOwnership newOwner => .nominate newOwner
  | .acceptOwnership => .accept
  | .cancelOwnershipTransfer => .cancel
  | .setPublisher _ _ => .other
  | .publishRiskSnapshot _ => .other

/-- Everything a successful public call can do. -/
theorem run_cases {env : Env} {call : PublicCall} {before after : State} {value : Answer}
    (ran : riskRegistry.run env call before = .ok value after) :
    (∃ publisher enabled, call = .setPublisher publisher enabled ∧
      env.txSender = before.contractOwner ∧
      after = { before with
        authorizedPublishers := before.authorizedPublishers.set publisher enabled }) ∨
    (∃ newOwner, call = .transferOwnership newOwner ∧
      env.txSender = before.contractOwner ∧
      after = { before with pendingOwner := some newOwner }) ∨
    (call = .acceptOwnership ∧ before.pendingOwner = some env.txSender ∧
      after = { before with contractOwner := env.txSender, pendingOwner := none }) ∨
    (call = .cancelOwnershipTransfer ∧ env.txSender = before.contractOwner ∧
      after = { before with pendingOwner := none }) ∨
    (∃ args id, call = .publishRiskSnapshot args ∧
      id.val = (currentId args.wallet before).val + 1 ∧ isPublisher env before ∧
      args.InRange env.stacksBlockHeight ∧
      after = { before with
        riskSnapshots := before.riskSnapshots.set (args.wallet, id)
          (args.snapshot env.stacksBlockHeight)
        latestSnapshotId := before.latestSnapshotId.set args.wallet id }) := by
  cases call with
  | setPublisher publisher enabled =>
      obtain ⟨_, answered, _⟩ := Outcome.map_eq_ok_iff.mp ran
      obtain ⟨sender, _, after_eq⟩ := setPublisher_eq_ok_iff.mp answered
      exact Or.inl ⟨publisher, enabled, rfl, sender, after_eq⟩
  | transferOwnership newOwner =>
      obtain ⟨_, answered, _⟩ := Outcome.map_eq_ok_iff.mp ran
      obtain ⟨sender, _, after_eq⟩ := transferOwnership_eq_ok_iff.mp answered
      exact Or.inr (Or.inl ⟨newOwner, rfl, sender, after_eq⟩)
  | acceptOwnership =>
      obtain ⟨_, answered, _⟩ := Outcome.map_eq_ok_iff.mp ran
      obtain ⟨sender, _, after_eq⟩ := acceptOwnership_eq_ok_iff.mp answered
      exact Or.inr (Or.inr (Or.inl ⟨rfl, sender, after_eq⟩))
  | cancelOwnershipTransfer =>
      obtain ⟨_, answered, _⟩ := Outcome.map_eq_ok_iff.mp ran
      obtain ⟨sender, _, after_eq⟩ := cancelOwnershipTransfer_eq_ok_iff.mp answered
      exact Or.inr (Or.inr (Or.inr (Or.inl ⟨rfl, sender, after_eq⟩)))
  | publishRiskSnapshot args =>
      obtain ⟨id, answered, _⟩ := Outcome.map_eq_ok_iff.mp ran
      obtain ⟨id_eq, publisher, inRange, after_eq⟩ := publishRiskSnapshot_eq_ok_iff.mp answered
      exact Or.inr (Or.inr (Or.inr (Or.inr
        ⟨args, id, rfl, id_eq, publisher, inRange, after_eq⟩)))

/-- The chain right after `deployer` deployed the registry. -/
def deployment (deployer : Principal) (height : Uint) : Chain State PublicCall :=
  Chain.genesis height (State.deployed deployer)

end RiskRail.Registry
