import RiskRail.ProtocolRegistry.Core

/-!
# Every entry is explained by its history

An entry is registered once, and each of its parts is the last word of the calls
that may write that part.  Both are read off the receipts of the chain, in any
order of the two kinds of update and across any number of owners.
-/

namespace RiskRail.ProtocolRegistry

open RiskRail.Clarity RiskRail.Transition

/-! ## What receipts say about a protocol -/

/-- The arguments of a successful `register-protocol` of this id. -/
def registers (protocolId : Uint) (receipt : Receipt PublicCall) : Option RegisterArgs :=
  match receipt.succeeded, receipt.tx.call with
  | true, .registerProtocol args => if args.protocolId = protocolId then some args else none
  | _, _ => none

/-- What a successful `set-protocol-enabled` of this id said. -/
def setsEnabled (protocolId : Uint) (receipt : Receipt PublicCall) : Option Bool :=
  match receipt.succeeded, receipt.tx.call with
  | true, .setProtocolEnabled named enabled => if named = protocolId then some enabled else none
  | _, _ => none

/-- What a successful `set-adapter-version` of this id said. -/
def setsAdapter (protocolId : Uint) (receipt : Receipt PublicCall) :
    Option (Uint × Buff 32) :=
  match receipt.succeeded, receipt.tx.call with
  | true, .setAdapterVersion named adapterVersion metadataHash =>
      if named = protocolId then some (adapterVersion, metadataHash) else none
  | _, _ => none

/-- The oldest registration of this id; receipts are kept newest first. -/
def firstRegistration (protocolId : Uint) (receipts : List (Receipt PublicCall)) :
    Option RegisterArgs :=
  (receipts.filterMap (registers protocolId)).getLast?

/-- The receipt says nothing about this id. -/
def Silent (protocolId : Uint) (receipt : Receipt PublicCall) : Prop :=
  registers protocolId receipt = none ∧ setsEnabled protocolId receipt = none ∧
    setsAdapter protocolId receipt = none

/-- The protocol a call writes. -/
def PublicCall.written : PublicCall → Option Uint
  | .registerProtocol args => some args.protocolId
  | .setProtocolEnabled protocolId _ => some protocolId
  | .setAdapterVersion protocolId _ _ => some protocolId
  | .transferOwnership _ => none
  | .acceptOwnership => none
  | .cancelOwnershipTransfer => none

theorem silent_of_failed {protocolId : Uint} {receipt : Receipt PublicCall}
    (failed : receipt.succeeded = false) : Silent protocolId receipt := by
  simp only [Silent, registers, setsEnabled, setsAdapter, failed, and_self]

theorem silent_of_written_ne {protocolId : Uint} {receipt : Receipt PublicCall}
    (other : receipt.tx.call.written ≠ some protocolId) : Silent protocolId receipt := by
  rcases receipt with ⟨⟨sender, height, call⟩, succeeded⟩
  cases succeeded with
  | false => exact silent_of_failed rfl
  | true =>
      cases call <;>
        simp_all [Silent, registers, setsEnabled, setsAdapter, PublicCall.written]

/-- The receipts mention this id in no successful call. -/
def Unmentioned (protocolId : Uint) (receipts : List (Receipt PublicCall)) : Prop :=
  ∀ receipt ∈ receipts, Silent protocolId receipt

/-- The entry is its first registration, overwritten by the last word on each of
its changeable parts. -/
structure ExplainedBy (receipts : List (Receipt PublicCall)) (protocolId : Uint)
    (args : RegisterArgs) (protocol : Protocol) : Prop where
  registration : firstRegistration protocolId receipts = some args
  name : protocol.name = args.name
  protocolType : protocol.protocolType = args.protocolType
  contractPrincipal : protocol.contractPrincipal = args.contractPrincipal
  adapter : (protocol.adapterVersion, protocol.metadataHash) =
    (receipts.findSome? (setsAdapter protocolId)).getD (args.adapterVersion, args.metadataHash)
  enabled : protocol.enabled = (receipts.findSome? (setsEnabled protocolId)).getD true

/-- A receipt that does not mention the id explains nothing anew. -/
theorem ExplainedBy.cons {receipts : List (Receipt PublicCall)} {protocolId : Uint}
    {args : RegisterArgs} {protocol : Protocol}
    (explained : ExplainedBy receipts protocolId args protocol) {receipt : Receipt PublicCall}
    (silent : Silent protocolId receipt) :
    ExplainedBy (receipt :: receipts) protocolId args protocol where
  registration := by
    rw [firstRegistration, List.filterMap_cons_none silent.1]
    exact explained.registration
  name := explained.name
  protocolType := explained.protocolType
  contractPrincipal := explained.contractPrincipal
  adapter := by
    rw [List.findSome?_cons, silent.2.2]
    exact explained.adapter
  enabled := by
    rw [List.findSome?_cons, silent.2.1]
    exact explained.enabled

theorem Unmentioned.cons {receipts : List (Receipt PublicCall)} {protocolId : Uint}
    (unmentioned : Unmentioned protocolId receipts) {receipt : Receipt PublicCall}
    (silent : Silent protocolId receipt) :
    Unmentioned protocolId (receipt :: receipts) := by
  intro other member
  rcases List.mem_cons.mp member with rfl | member
  · exact silent
  · exact unmentioned other member

/-- Before its registration nothing was said about an id. -/
theorem Unmentioned.register {receipts : List (Receipt PublicCall)} {protocolId : Uint}
    (unmentioned : Unmentioned protocolId receipts) {receipt : Receipt PublicCall}
    {args : RegisterArgs} (registered : registers protocolId receipt = some args)
    (notEnabled : setsEnabled protocolId receipt = none)
    (notAdapter : setsAdapter protocolId receipt = none) (height : Uint) :
    ExplainedBy (receipt :: receipts) protocolId args (args.protocol height) where
  registration := by
    have nothing : receipts.filterMap (registers protocolId) = [] :=
      List.filterMap_eq_nil_iff.mpr fun other member => (unmentioned other member).1
    rw [firstRegistration, List.filterMap_cons_some registered, nothing, List.getLast?_singleton]
  name := rfl
  protocolType := rfl
  contractPrincipal := rfl
  adapter := by
    have nothing : receipts.findSome? (setsAdapter protocolId) = none :=
      List.findSome?_eq_none_iff.mpr fun other member => (unmentioned other member).2.2
    rw [List.findSome?_cons, notAdapter, nothing]
    rfl
  enabled := by
    have nothing : receipts.findSome? (setsEnabled protocolId) = none :=
      List.findSome?_eq_none_iff.mpr fun other member => (unmentioned other member).2.1
    rw [List.findSome?_cons, notEnabled, nothing]
    rfl

/-- What is stored under an id is explained by the receipts, and an id without an
entry was never mentioned. -/
def ExplainedAt (receipts : List (Receipt PublicCall)) (protocolId : Uint) :
    Option Protocol → Prop
  | some protocol => ∃ args, ExplainedBy receipts protocolId args protocol
  | none => Unmentioned protocolId receipts

theorem ExplainedAt.cons {receipts : List (Receipt PublicCall)} {protocolId : Uint}
    {stored : Option Protocol} (explained : ExplainedAt receipts protocolId stored)
    {receipt : Receipt PublicCall} (silent : Silent protocolId receipt) :
    ExplainedAt (receipt :: receipts) protocolId stored := by
  cases stored with
  | none => exact Unmentioned.cons explained silent
  | some protocol =>
      rcases explained with ⟨args, explained⟩
      exact ⟨args, explained.cons silent⟩

/-- Every entry is explained by the receipts. -/
def Explained (chain : Chain State PublicCall) : Prop :=
  ∀ protocolId, ExplainedAt chain.receipts protocolId (chain.state.protocols protocolId)

theorem explained_deployment (deployer : Principal) (height : Uint) :
    Explained (deployment deployer height) := by
  intro protocolId receipt member
  cases member

theorem ExplainedBy.enable {receipts : List (Receipt PublicCall)} {protocolId : Uint}
    {args : RegisterArgs} {protocol : Protocol}
    (explained : ExplainedBy receipts protocolId args protocol) (sender : Principal)
    (height : Uint) (value : Bool) :
    ExplainedBy (⟨⟨sender, height, .setProtocolEnabled protocolId value⟩, true⟩ :: receipts)
      protocolId args { protocol with enabled := value, updatedAt := height } where
  registration := explained.registration
  name := explained.name
  protocolType := explained.protocolType
  contractPrincipal := explained.contractPrincipal
  adapter := explained.adapter
  enabled := by simp [setsEnabled]

theorem ExplainedBy.setAdapter {receipts : List (Receipt PublicCall)} {protocolId : Uint}
    {args : RegisterArgs} {protocol : Protocol}
    (explained : ExplainedBy receipts protocolId args protocol) (sender : Principal)
    (height version : Uint) (hash : Buff 32) :
    ExplainedBy (⟨⟨sender, height, .setAdapterVersion protocolId version hash⟩, true⟩ :: receipts)
      protocolId args { protocol with
        adapterVersion := version, metadataHash := hash, updatedAt := height } where
  registration := explained.registration
  name := explained.name
  protocolType := explained.protocolType
  contractPrincipal := explained.contractPrincipal
  adapter := by simp [setsAdapter]
  enabled := explained.enabled

/-- A change of entries sets the one that its call names. -/
theorem EntryChange.writes {env : Env} {before after : State} {call : PublicCall}
    (change : EntryChange env before after call) :
    ∃ protocolId protocol, call.written = some protocolId ∧
      after.protocols = before.protocols.set protocolId protocol := by
  cases change with
  | register args owner free written =>
      exact ⟨args.protocolId, _, rfl, congrArg State.protocols written⟩
  | enable protocolId enabled protocol owner found written =>
      exact ⟨protocolId, _, rfl, congrArg State.protocols written⟩
  | adapter protocolId version hash protocol owner found written =>
      exact ⟨protocolId, _, rfl, congrArg State.protocols written⟩

/-- A successful call leaves every entry it does not name alone. -/
theorem run_protocols_of_written_ne {env : Env} {call : PublicCall} {before after : State}
    {value : Bool} (ran : protocolRegistry.run env call before = .ok value after)
    {protocolId : Uint} (other : call.written ≠ some protocolId) :
    after.protocols protocolId = before.protocols protocolId := by
  rcases run_cases ran with change | ⟨_, -, -, written⟩ | ⟨-, -, written⟩ | ⟨-, -, written⟩
  case inl =>
    rcases change.writes with ⟨named, protocol, names, written⟩
    have distinct : protocolId ≠ named := by
      rintro rfl
      exact other names
    rw [written, DataMap.set_of_ne distinct]
  all_goals rw [written]

theorem Explained.next {chain after : Chain State PublicCall} {tx : Tx PublicCall}
    (explained : Explained chain) (step : protocolRegistry.next chain tx = some after) :
    Explained after := by
  intro protocolId
  have before := explained protocolId
  rcases Contract.next_cases step with ⟨-, -, ⟨value, ran, receipts⟩ | ⟨kept, receipts⟩⟩
  · rw [receipts]
    by_cases named : tx.call.written = some protocolId
    · rcases tx with ⟨sender, height, call⟩
      rcases run_cases ran with change | ⟨_, rfl, -, -⟩ | ⟨rfl, -, -⟩ | ⟨rfl, -, -⟩
      case inl =>
        cases change with
        | register args owner free written =>
            cases named
            rw [free] at before
            rw [written]
            simp only [DataMap.set_self]
            exact ⟨args, before.register (by simp [registers]) rfl rfl height⟩
        | enable _ enabled protocol owner found written =>
            cases named
            rw [found] at before
            rcases before with ⟨args, before⟩
            rw [written]
            simp only [DataMap.set_self]
            exact ⟨args, before.enable sender height enabled⟩
        | adapter _ version hash protocol owner found written =>
            cases named
            rw [found] at before
            rcases before with ⟨args, before⟩
            rw [written]
            simp only [DataMap.set_self]
            exact ⟨args, before.setAdapter sender height version hash⟩
      all_goals cases named
    · rw [run_protocols_of_written_ne ran named]
      exact before.cons (silent_of_written_ne named)
  · rw [kept, receipts]
    exact before.cons (silent_of_failed rfl)

/-! ## Registered for good -/

/-- Every entry of the first chain is still there, under the same name, type and
contract. -/
def IdentityKept (chain after : Chain State PublicCall) : Prop :=
  ∀ protocolId protocol, chain.state.protocols protocolId = some protocol →
    ∃ later, after.state.protocols protocolId = some later ∧ later.name = protocol.name ∧
      later.protocolType = protocol.protocolType ∧
      later.contractPrincipal = protocol.contractPrincipal

theorem IdentityKept.refl (chain : Chain State PublicCall) : IdentityKept chain chain :=
  fun _ protocol stored => ⟨protocol, stored, rfl, rfl, rfl⟩

theorem IdentityKept.trans {first second third : Chain State PublicCall}
    (early : IdentityKept first second) (late : IdentityKept second third) :
    IdentityKept first third := by
  intro protocolId protocol stored
  rcases early protocolId protocol stored with ⟨middle, stored, name, type, principal⟩
  rcases late protocolId middle stored with ⟨last, stored, name', type', principal'⟩
  exact ⟨last, stored, name'.trans name, type'.trans type, principal'.trans principal⟩

theorem identityKept_next {chain after : Chain State PublicCall} {tx : Tx PublicCall}
    (step : protocolRegistry.next chain tx = some after) : IdentityKept chain after := by
  intro protocolId protocol stored
  rcases Contract.next_cases step with ⟨-, -, ⟨value, ran, -⟩ | ⟨kept, -⟩⟩
  · by_cases named : tx.call.written = some protocolId
    · rcases tx with ⟨sender, height, call⟩
      rcases run_cases ran with change | ⟨_, rfl, -, -⟩ | ⟨rfl, -, -⟩ | ⟨rfl, -, -⟩
      case inl =>
        cases change with
        | register args owner free written =>
            -- A registered id is not registered again.
            cases named
            rw [free] at stored
            contradiction
        | enable _ enabled _ owner stored' written =>
            cases named
            rw [stored] at stored'
            cases stored'
            refine ⟨{ protocol with enabled := enabled, updatedAt := height }, ?_, rfl, rfl, rfl⟩
            rw [written]
            simp only [DataMap.set_self]
            rfl
        | adapter _ version hash _ owner stored' written =>
            cases named
            rw [stored] at stored'
            cases stored'
            refine ⟨{ protocol with
              adapterVersion := version
              metadataHash := hash
              updatedAt := height }, ?_, rfl, rfl, rfl⟩
            rw [written]
            simp only [DataMap.set_self]
            rfl
      all_goals cases named
    · rw [← run_protocols_of_written_ne ran named] at stored
      exact ⟨protocol, stored, rfl, rfl, rfl⟩
  · exact ⟨protocol, by rw [kept]; exact stored, rfl, rfl, rfl⟩

/-- Only the owner's transactions change entries. -/
theorem sender_of_protocols_changed {chain after : Chain State PublicCall} {tx : Tx PublicCall}
    (step : protocolRegistry.next chain tx = some after)
    (changed : after.state.protocols ≠ chain.state.protocols) :
    tx.sender = chain.state.contractOwner := by
  rcases Contract.next_cases step with ⟨-, -, ⟨value, ran, -⟩ | ⟨kept, -⟩⟩
  · rcases run_cases ran with change | ⟨_, -, owner, -⟩ | ⟨-, -, written⟩ | ⟨-, owner, -⟩
    · exact change.ownership_eq.2.1
    · exact owner
    · exact absurd (by rw [written]) changed
    · exact owner
  · exact absurd (by rw [kept]) changed

theorem isSupportedProtocol_eq_true_iff {protocolId : Uint} {state : State} :
    isSupportedProtocol protocolId state = true ↔
      ∃ protocol, getProtocol protocolId state = some protocol ∧ protocol.enabled = true := by
  unfold isSupportedProtocol getProtocol
  cases state.protocols protocolId with
  | none => simp
  | some protocol => simp

theorem Explained.registered_iff {chain : Chain State PublicCall} (explained : Explained chain)
    (protocolId : Uint) :
    (∃ protocol, chain.state.protocols protocolId = some protocol) ↔
      ∃ args, firstRegistration protocolId chain.receipts = some args := by
  have at_id := explained protocolId
  cases stored : chain.state.protocols protocolId with
  | none =>
      rw [stored] at at_id
      have nothing : chain.receipts.filterMap (registers protocolId) = [] :=
        List.filterMap_eq_nil_iff.mpr fun receipt member => (at_id receipt member).1
      rw [firstRegistration, nothing]
      simp
  | some protocol =>
      rw [stored] at at_id
      rcases at_id with ⟨args, explained⟩
      exact ⟨fun _ => ⟨args, explained.registration⟩, fun _ => ⟨protocol, rfl⟩⟩

/-- In every state reachable from deployment: an id has an entry exactly when it was
registered, the entry is the first registration with the last word on its adapter
and its flag, later runs keep the entry and its identity, `is-supported-protocol` is
the flag of a known id, only the owner changes entries, the owner changes only by the
acceptance of its nominee, and a rejected call changes nothing. -/
theorem entries_explicable {deployer : Principal} {height : Uint}
    {chain : Chain State PublicCall}
    (reachable : Reachable protocolRegistry.next (deployment deployer height) chain) :
    (∀ protocolId,
      ((∃ protocol, getProtocol protocolId chain.state = some protocol) ↔
        ∃ args, firstRegistration protocolId chain.receipts = some args) ∧
      ∀ protocol, getProtocol protocolId chain.state = some protocol →
        ∃ args, ExplainedBy chain.receipts protocolId args protocol) ∧
    (∀ later, Reachable protocolRegistry.next chain later → IdentityKept chain later) ∧
    (∀ protocolId, isSupportedProtocol protocolId chain.state = true ↔
      ∃ protocol, getProtocol protocolId chain.state = some protocol ∧
        protocol.enabled = true) ∧
    (∀ tx after, protocolRegistry.next chain tx = some after →
      (after.state.protocols ≠ chain.state.protocols →
        tx.sender = chain.state.contractOwner) ∧
      (after.state.contractOwner ≠ chain.state.contractOwner →
        tx.call = .acceptOwnership ∧ after.state.contractOwner = tx.sender ∧
          ownership.Nominated (deployment deployer height) chain.receipts
            chain.state.contractOwner tx.sender) ∧
      ((∀ value state, protocolRegistry.run tx.env tx.call chain.state ≠ .ok value state) →
        after.state = chain.state)) := by
  have provenance := ownership.provenance_of_reachable rfl reachable
  rcases reachable with ⟨txs, run⟩
  have explained : Explained chain :=
    exec_invariant (fun explained step => explained.next step) run
      (explained_deployment deployer height)
  refine ⟨fun protocolId => ⟨explained.registered_iff protocolId, ?_⟩, ?_,
    fun protocolId => isSupportedProtocol_eq_true_iff, ?_⟩
  · intro protocol stored
    have at_id := explained protocolId
    rw [show chain.state.protocols protocolId = some protocol from stored] at at_id
    exact at_id
  · rintro later ⟨rest, continued⟩
    exact exec_relation IdentityKept.refl (fun early late => early.trans late)
      (fun _ step => ⟨trivial, identityKept_next step⟩) continued trivial
  · intro tx after step
    refine ⟨sender_of_protocols_changed step, ?_, Contract.next_state_of_not_ok step⟩
    intro changed
    rcases ownership.owner_changes_only_by_accept step changed with ⟨kind, nominated, owner, -⟩
    refine ⟨?_, owner, provenance.2 tx.sender nominated⟩
    rcases tx with ⟨sender, height, call⟩
    cases call <;> first | rfl | contradiction

/-- The deployer registers an adapter, disables it and ships its next version. -/
def adapterUpdates : List (Tx PublicCall) :=
  [⟨.standard "deployer", .literal 5, .registerProtocol
      { protocolId := .literal 1
        name := ⟨['z', 'e', 's', 't'], by decide, by decide⟩
        protocolType := ⟨['l', 'e', 'n', 'd'], by decide, by decide⟩
        contractPrincipal := .contract "zest" "market"
        adapterVersion := .literal 1
        metadataHash := ⟨[6], by decide⟩ }⟩,
    ⟨.standard "deployer", .literal 6, .setProtocolEnabled (.literal 1) false⟩,
    ⟨.standard "deployer", .literal 7, .setAdapterVersion (.literal 1) (.literal 2)
      ⟨[7], by decide⟩⟩]

theorem entries_explicable_adapterUpdates :
    ∃ args, firstRegistration ⟨1, by decide⟩ ((exec protocolRegistry.next
      (deployment (.standard "deployer") ⟨0, by decide⟩) adapterUpdates).get rfl).receipts =
        some args :=
  ((entries_explicable ⟨adapterUpdates, (Option.some_get rfl).symm⟩).1 ⟨1, by decide⟩).1.mp
    ⟨_, rfl⟩

end RiskRail.ProtocolRegistry
