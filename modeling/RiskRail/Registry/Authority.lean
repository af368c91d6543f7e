import RiskRail.Registry.Core

/-!
# Who may administer and publish

The registry's owner changes only along the two-step protocol, and the
publisher map is exactly the last word of the owners on each publisher.  Both
are read off the receipts of the chain.
-/

namespace RiskRail.Registry

open RiskRail.Clarity
open RiskRail.Transition

/-- The registry follows the two-step ownership protocol. -/
def ownership : TwoStepOwnership riskRegistry where
  owner := State.contractOwner
  pending := State.pendingOwner
  kind := PublicCall.ownershipCall
  nominate_ok := by
    intro env call before value after successor ran kind
    rcases run_cases ran with ⟨_, _, rfl, _, _⟩ | ⟨newOwner, rfl, sender, rfl⟩ | ⟨rfl, _, _⟩ |
      ⟨rfl, _, _⟩ | ⟨_, _, rfl, _, _, _, _⟩
    case inr.inl =>
      cases kind
      exact ⟨sender, rfl, rfl⟩
    all_goals contradiction
  accept_ok := by
    intro env call before value after ran kind
    rcases run_cases ran with ⟨_, _, rfl, _, _⟩ | ⟨_, rfl, _, _⟩ | ⟨rfl, nominated, rfl⟩ |
      ⟨rfl, _, _⟩ | ⟨_, _, rfl, _, _, _, _⟩
    case inr.inr.inl => exact ⟨nominated, rfl, rfl⟩
    all_goals contradiction
  cancel_ok := by
    intro env call before value after ran kind
    rcases run_cases ran with ⟨_, _, rfl, _, _⟩ | ⟨_, rfl, _, _⟩ | ⟨rfl, _, _⟩ |
      ⟨rfl, sender, rfl⟩ | ⟨_, _, rfl, _, _, _, _⟩
    case inr.inr.inr.inl => exact ⟨sender, rfl, rfl⟩
    all_goals contradiction
  other_ok := by
    intro env call before value after ran kind
    rcases run_cases ran with ⟨_, _, _, _, rfl⟩ | ⟨_, rfl, _, _⟩ | ⟨rfl, _, _⟩ |
      ⟨rfl, _, _⟩ | ⟨_, _, _, _, _, _, rfl⟩
    case inl => exact ⟨rfl, rfl⟩
    case inr.inr.inr.inr => exact ⟨rfl, rfl⟩
    all_goals contradiction

/-! ## The last word on a publisher -/

/-- What a successful `set-publisher` naming `publisher` said. -/
def setPublisherSays (publisher : Principal) (receipt : Receipt PublicCall) : Option Bool :=
  match receipt.succeeded, receipt.tx.call with
  | true, .setPublisher named enabled => if named = publisher then some enabled else none
  | _, _ => none

theorem setPublisherSays_eq_some_iff {publisher : Principal} {receipt : Receipt PublicCall}
    {enabled : Bool} :
    setPublisherSays publisher receipt = some enabled ↔
      receipt.succeeded = true ∧ receipt.tx.call = .setPublisher publisher enabled := by
  rcases receipt with ⟨⟨sender, height, call⟩, succeeded⟩
  cases succeeded <;> cases call <;> simp [setPublisherSays]

/-- The latest successful `set-publisher` naming `publisher` among these
receipts enabled it, and was sent by the owner of its time. -/
def GrantedTo (genesis : Chain State PublicCall) (receipts : List (Receipt PublicCall))
    (publisher : Principal) : Prop :=
  ∃ newer grant older chainThen,
    receipts = newer ++ grant :: older ∧
      grant.succeeded = true ∧
      grant.tx.call = .setPublisher publisher true ∧
      Reachable riskRegistry.next genesis chainThen ∧
      chainThen.receipts = older ∧
      grant.tx.sender = chainThen.state.contractOwner ∧
      ∀ receipt ∈ newer, receipt.succeeded = true →
        ∀ enabled, receipt.tx.call ≠ .setPublisher publisher enabled

/-- The publisher map is the last word of the receipts on every publisher, and
each of those words was the owner's. -/
structure PublisherProvenance (genesis chain : Chain State PublicCall) : Prop where
  reachable : Reachable riskRegistry.next genesis chain
  lastWord : ∀ publisher,
    chain.state.authorizedPublishers publisher =
      chain.receipts.findSome? (setPublisherSays publisher)
  byOwner : ∀ newer receipt older publisher enabled,
    chain.receipts = newer ++ receipt :: older →
      setPublisherSays publisher receipt = some enabled →
      ∃ chainThen, Reachable riskRegistry.next genesis chainThen ∧
        chainThen.receipts = older ∧ receipt.tx.sender = chainThen.state.contractOwner

theorem publisherProvenance_deployment (deployer : Principal) (height : Uint) :
    PublisherProvenance (deployment deployer height) (deployment deployer height) where
  reachable := Reachable.refl _ _
  lastWord := fun _ => rfl
  byOwner := by
    intro newer receipt older publisher enabled split
    exact absurd split (by simp [deployment, Chain.genesis])

/-- The receipts of an extended chain split either at the new receipt or
inside the old ones. -/
theorem cons_eq_append_cons {receipt found : Receipt PublicCall}
    {receipts newer older : List (Receipt PublicCall)}
    (split : receipt :: receipts = newer ++ found :: older) :
    (found = receipt ∧ older = receipts) ∨
      ∃ rest, receipts = rest ++ found :: older := by
  cases newer with
  | nil =>
      cases split
      exact Or.inl ⟨rfl, rfl⟩
  | cons first rest =>
      cases split
      exact Or.inr ⟨rest, rfl⟩

theorem PublisherProvenance.next {genesis chain after : Chain State PublicCall}
    {tx : Tx PublicCall} (provenance : PublisherProvenance genesis chain)
    (step : riskRegistry.next chain tx = some after) :
    PublisherProvenance genesis after where
  reachable := provenance.reachable.tail step
  lastWord := by
    intro publisher
    rcases (Contract.next_cases step).2.2 with ⟨value, ran, receipts_eq⟩ | ⟨kept, receipts_eq⟩
    · rw [receipts_eq, List.findSome?_cons]
      rcases run_cases ran with ⟨named, enabled, call_eq, _, after_eq⟩ |
        ⟨_, call_eq, _, after_eq⟩ | ⟨call_eq, _, after_eq⟩ | ⟨call_eq, _, after_eq⟩ |
        ⟨_, _, call_eq, _, _, _, after_eq⟩
      · simp only [after_eq, setPublisherSays, call_eq, DataMap.set_apply]
        by_cases same : named = publisher
        · simp [same]
        · simp only [same, Ne.symm same, if_false]
          exact provenance.lastWord publisher
      all_goals
        simp only [after_eq, setPublisherSays, call_eq]
        exact provenance.lastWord publisher
    · rw [receipts_eq, List.findSome?_cons, kept]
      exact provenance.lastWord publisher
  byOwner := by
    intro newer receipt older publisher enabled split spoken
    rcases (Contract.next_cases step).2.2 with ⟨value, ran, receipts_eq⟩ | ⟨_, receipts_eq⟩
    · rw [receipts_eq] at split
      rcases cons_eq_append_cons split with ⟨rfl, rfl⟩ | ⟨rest, inside⟩
      · obtain ⟨_, call_eq⟩ := setPublisherSays_eq_some_iff.mp spoken
        simp only at call_eq
        rw [call_eq] at ran
        obtain ⟨_, answered, _⟩ := Outcome.map_eq_ok_iff.mp ran
        exact ⟨chain, provenance.reachable, rfl, (setPublisher_eq_ok_iff.mp answered).1⟩
      · exact provenance.byOwner rest receipt older publisher enabled inside spoken
    · rw [receipts_eq] at split
      rcases cons_eq_append_cons split with ⟨rfl, rfl⟩ | ⟨rest, inside⟩
      · obtain ⟨success, _⟩ := setPublisherSays_eq_some_iff.mp spoken
        contradiction
      · exact provenance.byOwner rest receipt older publisher enabled inside spoken

theorem PublisherProvenance.granted_iff {genesis chain : Chain State PublicCall}
    (provenance : PublisherProvenance genesis chain) (publisher : Principal) :
    (chain.state.authorizedPublishers publisher).getD false = true ↔
      GrantedTo genesis chain.receipts publisher := by
  rw [provenance.lastWord publisher]
  constructor
  · intro enabled
    cases word : chain.receipts.findSome? (setPublisherSays publisher) with
    | none =>
        rw [word] at enabled
        contradiction
    | some value =>
        rw [word, Option.getD_some] at enabled
        subst enabled
        obtain ⟨newer, grant, older, split, spoken, silent⟩ := List.findSome?_eq_some_iff.mp word
        obtain ⟨success, call_eq⟩ := setPublisherSays_eq_some_iff.mp spoken
        obtain ⟨chainThen, reached, then_eq, sender⟩ :=
          provenance.byOwner newer grant older publisher true split spoken
        refine ⟨newer, grant, older, chainThen, split, success, call_eq, reached, then_eq,
          sender, ?_⟩
        intro receipt member later said call_eq
        have spoken := setPublisherSays_eq_some_iff.mpr ⟨later, call_eq⟩
        rw [silent receipt member] at spoken
        contradiction
  · rintro ⟨newer, grant, older, _, split, success, call_eq, _, _, _, silent⟩
    have word : chain.receipts.findSome? (setPublisherSays publisher) = some true := by
      refine List.findSome?_eq_some_iff.mpr
        ⟨newer, grant, older, split, setPublisherSays_eq_some_iff.mpr ⟨success, call_eq⟩, ?_⟩
      intro receipt member
      cases spoken : setPublisherSays publisher receipt with
      | none => rfl
      | some said =>
          obtain ⟨later, call_eq⟩ := setPublisherSays_eq_some_iff.mp spoken
          exact absurd call_eq (silent receipt member later said)
    rw [word]
    rfl

/-! ## The authorization check of a publication -/

theorem publishRiskSnapshot_ne_unauthorized {args : PublishArgs} {env : Env} {state : State}
    (publisher : isPublisher env state) :
    publishRiskSnapshot args env state ≠ .err errUnauthorized := by
  unfold publishRiskSnapshot
  cases (currentId args.wallet state).add ⟨1, by decide⟩ with
  | none => simp
  | some nextId =>
      simp only [asserts, publisher, if_true]
      split_ifs <;>
        simp [errUnauthorized, errInvalidScore, errInvalidBps, errInvalidSourceBlock]

/-- A sender without authorization is refused; where even the next id does not
fit, the call aborts before it is looked at. -/
theorem publishRiskSnapshot_of_not_publisher {args : PublishArgs} {env : Env} {state : State}
    (stranger : ¬isPublisher env state) :
    publishRiskSnapshot args env state = .err errUnauthorized ∨
      ((currentId args.wallet state).add ⟨1, by decide⟩ = none ∧
        publishRiskSnapshot args env state = .abort) := by
  unfold publishRiskSnapshot
  cases (currentId args.wallet state).add ⟨1, by decide⟩ with
  | none => exact Or.inr ⟨rfl, rfl⟩
  | some nextId => exact Or.inl (asserts_of_not stranger _ _)

/-- A sender is authorized when it owns the registry or was granted the right
by the latest `set-publisher` that names it. -/
def Authorized (genesis chain : Chain State PublicCall) (sender : Principal) : Prop :=
  sender = chain.state.contractOwner ∨ GrantedTo genesis chain.receipts sender

/-- In every reachable state: the owner changes only by an acceptance of its
own nominee, every acceptance answers a live nomination and clears it, the
authorization check and `is-authorized-publisher` agree with the history of
`set-publisher`, and a rejected call changes nothing. -/
theorem authority_has_provenance {deployer : Principal} {height : Uint}
    {chain : Chain State PublicCall}
    (reachable : Reachable riskRegistry.next (deployment deployer height) chain) :
    (∀ tx after, riskRegistry.next chain tx = some after →
      after.state.contractOwner ≠ chain.state.contractOwner →
        tx.call = .acceptOwnership ∧ after.state.contractOwner = tx.sender ∧
          ownership.Nominated (deployment deployer height) chain.receipts
            chain.state.contractOwner tx.sender) ∧
    (∀ tx after value, riskRegistry.next chain tx = some after →
      riskRegistry.run tx.env tx.call chain.state = .ok value after.state →
      tx.call = .acceptOwnership →
        after.state.contractOwner = tx.sender ∧ after.state.pendingOwner = none ∧
          ownership.Nominated (deployment deployer height) chain.receipts
            chain.state.contractOwner tx.sender) ∧
    (∀ args env,
      (Authorized (deployment deployer height) chain env.txSender →
        publishRiskSnapshot args env chain.state ≠ .err errUnauthorized) ∧
      (¬Authorized (deployment deployer height) chain env.txSender →
        publishRiskSnapshot args env chain.state = .err errUnauthorized ∨
          ((currentId args.wallet chain.state).add ⟨1, by decide⟩ = none ∧
            publishRiskSnapshot args env chain.state = .abort))) ∧
    (∀ sender, isAuthorizedPublisher sender chain.state ↔
      Authorized (deployment deployer height) chain sender) ∧
    (∀ tx after, riskRegistry.next chain tx = some after →
      (∀ value state, riskRegistry.run tx.env tx.call chain.state ≠ .ok value state) →
        after.state = chain.state) := by
  have provenance := ownership.provenance_of_reachable rfl reachable
  have publishers : PublisherProvenance (deployment deployer height) chain := by
    obtain ⟨txs, run⟩ := reachable
    exact exec_invariant (fun provenance step => PublisherProvenance.next provenance step) run
      (publisherProvenance_deployment deployer height)
  have authorized_iff : ∀ env : Env, isPublisher env chain.state ↔
      Authorized (deployment deployer height) chain env.txSender := by
    intro env
    exact or_congr Iff.rfl (publishers.granted_iff env.txSender)
  refine ⟨?_, ?_, ?_, ?_, ?_⟩
  · intro tx after step changed
    obtain ⟨kind, nominated, owner_eq, _⟩ :=
      ownership.owner_changes_only_by_accept step changed
    refine ⟨?_, owner_eq, provenance.2 tx.sender nominated⟩
    rcases tx with ⟨sender, height, call⟩
    cases call <;> first | rfl | contradiction
  · intro tx after value step ran call_eq
    have kind : ownership.kind tx.call = .accept := by rw [call_eq]; rfl
    obtain ⟨nominated, owner_eq, pending_eq⟩ := ownership.accept_ok ran kind
    exact ⟨owner_eq, pending_eq, provenance.2 tx.sender nominated⟩
  · intro args env
    exact ⟨fun authorized =>
        publishRiskSnapshot_ne_unauthorized ((authorized_iff env).mpr authorized),
      fun stranger =>
        publishRiskSnapshot_of_not_publisher (mt (authorized_iff env).mp stranger)⟩
  · intro sender
    exact or_congr Iff.rfl (publishers.granted_iff sender)
  · intro tx after step rejected
    exact Contract.next_state_of_not_ok step rejected

/-- A handover: the deployer nominates, its successor accepts. -/
def handover (height : Uint) : List (Tx PublicCall) :=
  [⟨.standard "deployer", height, .transferOwnership (.standard "successor")⟩,
    ⟨.standard "successor", height, .acceptOwnership⟩]

theorem authority_has_provenance_handover :
    Authorized (deployment (.standard "deployer") ⟨0, by decide⟩)
      ((exec riskRegistry.next (deployment (.standard "deployer") ⟨0, by decide⟩)
        (handover ⟨1, by decide⟩)).get rfl) (.standard "successor") :=
  ((authority_has_provenance ⟨handover ⟨1, by decide⟩, (Option.some_get rfl).symm⟩).2.2.2.1
    (.standard "successor")).mp (Or.inl rfl)

end RiskRail.Registry
