import RiskRail.Attestation.Confirmation

/-!
# What the throttle skips

A candidate is skipped when it repeats the figures of the row published last, and
a row counts as published once its transaction id is stored.  Whether that
transaction ever reached the canonical chain plays no part, so a candidate can be
skipped against an attestation that was aborted or rolled back for good.
-/

namespace RiskRail.Attestation.Confirmation

open RiskRail.Clarity RiskRail.Chainhook RiskRail.Database RiskRail.Transition
open RiskRail.Attestation.Worker (Newer decision SameFigures scoreRow)

/-- The row a transaction attests. -/
def rowOf (broadcasts : List Broadcast) (txId : TxId) : Option RiskSnapshot :=
  (broadcasts.find? fun broadcast => broadcast.2 = txId).map Prod.fst

/-- The wallet's snapshots on a chain, from first to last. -/
def attested (broadcasts : List Broadcast) (blocks : List Block) : List RiskSnapshot :=
  (transactions blocks).filterMap fun tx =>
    if tx.snapshotId.isSome then rowOf broadcasts tx.id else none

/-- The wallet's latest snapshot on the canonical chain. -/
def State.latest (state : State) : Option RiskSnapshot :=
  (attested state.broadcasts state.chain).getLast?

instance (state : State) : Decidable (Settled state) :=
  inferInstanceAs (Decidable (_ ∧ _ ∧ _))

/-- Every transaction of the wallet was confirmed, or reported aborted or rolled
back. -/
def AllReported (state : State) : Prop :=
  Settled state ∧ ∀ broadcast ∈ state.broadcasts, broadcast.2 ∈ state.mined

instance (state : State) : Decidable (AllReported state) :=
  inferInstanceAs (Decidable (_ ∧ _))

/-- The throttle holds the candidate back. -/
def Unchanged : AttestationDecision → Prop
  | .publish _ => False
  | .unchanged _ _ => True

instance : DecidablePred Unchanged
  | .publish _ => isFalse id
  | .unchanged _ _ => isTrue trivial

/-- The job of a row compares it with another and skips it. -/
def State.Skips (minIntervalBlocks : ℕ) (state : State) (snapshot : RiskSnapshot)
    (last : Option RiskSnapshot) : Prop :=
  snapshot ∈ state.rows ∧ ¬state.Published snapshot ∧ state.IsLastPublished snapshot last ∧
    Unchanged (decision minIntervalBlocks snapshot last)

instance (minIntervalBlocks : ℕ) (state : State) (snapshot : RiskSnapshot)
    (last : Option RiskSnapshot) : Decidable (state.Skips minIntervalBlocks snapshot last) :=
  inferInstanceAs (Decidable (_ ∧ _ ∧ _ ∧ _))

/-- A candidate that is skipped when everything was reported has the figures of the
wallet's latest snapshot on the canonical chain. -/
def SkipsAgree (minIntervalBlocks : ℕ) (state : State) : Action → Prop
  | .process snapshot last _ =>
      state.Skips minIntervalBlocks snapshot last → AllReported state →
        ∃ row ∈ state.latest, SameFigures row snapshot
  | _ => True

instance (first second : RiskSnapshot) : Decidable (SameFigures first second) :=
  inferInstanceAs (Decidable (sameFigures _ _))

instance (minIntervalBlocks : ℕ) (state : State) :
    DecidablePred (SkipsAgree minIntervalBlocks state)
  | .process snapshot last _ =>
      inferInstanceAs (Decidable (state.Skips minIntervalBlocks snapshot last →
        AllReported state → ∃ row ∈ state.latest, SameFigures row snapshot))
  | .persist _ | .mark _ | .mine .. | .deliver _ | .redeliver | .update => isTrue trivial

/-! ## Attestations in order -/

/-- Jobs come in the order of their snapshots, and the attestations stand on the chain
in the order of their broadcasts. -/
def InOrder (state : State) : Action → Prop
  | .process snapshot _ _ =>
      ¬state.Published snapshot → ∀ row ∈ state.rows, state.Published row → Newer snapshot row
  | .mine dropped blocks =>
      (attested state.broadcasts
        (state.chain.take (state.chain.length - dropped) ++ blocks)).Sublist
          (state.broadcasts.map Prod.fst)
  | _ => True

instance (state : State) : DecidablePred (InOrder state)
  | .process snapshot _ _ =>
      inferInstanceAs (Decidable (¬state.Published snapshot →
        ∀ row ∈ state.rows, state.Published row → Newer snapshot row))
  | .mine _ _ => inferInstanceAs (Decidable (List.Sublist _ (state.broadcasts.map Prod.fst)))
  | .persist _ | .mark _ | .deliver _ | .redeliver | .update => isTrue trivial

/-- A candidate that is skipped when everything was reported was compared with a row
whose attestation is on the canonical chain. -/
def ComparedOnChain (minIntervalBlocks : ℕ) (state : State) : Action → Prop
  | .process snapshot last _ =>
      state.Skips minIntervalBlocks snapshot last → AllReported state →
        ∀ row ∈ last, row ∈ attested state.broadcasts state.chain
  | _ => True

instance (minIntervalBlocks : ℕ) (state : State) :
    DecidablePred (ComparedOnChain minIntervalBlocks state)
  | .process snapshot last _ =>
      inferInstanceAs (Decidable (state.Skips minIntervalBlocks snapshot last →
        AllReported state → ∀ row ∈ last, row ∈ attested state.broadcasts state.chain))
  | .persist _ | .mark _ | .mine .. | .deliver _ | .redeliver | .update => isTrue trivial

/-- Attestations come in order, and candidates are compared with what is on the chain. -/
def InOrderOnChain (minIntervalBlocks : ℕ) (state : State) (action : Action) : Prop :=
  InOrder state action ∧ ComparedOnChain minIntervalBlocks state action

instance (minIntervalBlocks : ℕ) (state : State) (action : Action) :
    Decidable (InOrderOnChain minIntervalBlocks state action) :=
  inferInstanceAs (Decidable (_ ∧ _))

variable {cl : ClarityEncoder} {wallet : Principal} {minIntervalBlocks : ℕ}
  {state target : State}

/-! ## The last of an ordered list -/

/-- A part of a list that keeps its last element ends with it. -/
theorem getLast?_of_sublist {α : Type*} {part whole : List α} {last : α}
    (sublist : part.Sublist whole) (nodup : whole.Nodup) (isLast : whole.getLast? = some last)
    (kept : last ∈ part) : part.getLast? = some last := by
  rcases List.getLast?_eq_some_iff.mp isLast with ⟨front, rfl⟩
  rcases List.sublist_append_iff.mp sublist with ⟨first, second, rfl, inFront, inLast⟩
  have fresh : last ∉ first := by
    intro member
    rw [List.nodup_append] at nodup
    exact nodup.2.2 last (inFront.subset member) last (List.mem_singleton_self last) rfl
  have member : last ∈ second := (List.mem_append.mp kept).resolve_left fresh
  have alone : second = [last] := by
    rcases List.sublist_singleton.mp inLast with rfl | rfl
    · cases member
    · rfl
  rw [alone, List.getLast?_concat]

/-! ## What runs in order keep true -/

/-- Broadcasts follow the order of the snapshots, and so do attestations on the
chain. -/
structure Ordered (state : State) : Prop extends Sound state where
  newer : state.broadcasts.Pairwise fun earlier later => Newer later.1 earlier.1
  chained : (attested state.broadcasts state.chain).Sublist (state.broadcasts.map Prod.fst)
  mined : ∀ tx ∈ transactions state.chain, tx.id ∈ state.mined

theorem ordered_initial : Ordered State.initial := by
  refine ⟨sound_initial, List.Pairwise.nil, ?_, ?_⟩
  · exact List.Sublist.slnil
  · simp [State.initial, transactions]

/-- A broadcast of a transaction that is not on the chain changes nothing there. -/
theorem attested_broadcast {snapshot : RiskSnapshot} {txId : TxId} {broadcasts : List Broadcast}
    {blocks : List Block} (unmined : ∀ tx ∈ transactions blocks, tx.id ≠ txId) :
    attested (broadcasts ++ [(snapshot, txId)]) blocks = attested broadcasts blocks := by
  unfold attested
  apply List.filterMap_congr
  intro tx member
  have other : ¬txId = tx.id := fun same => unmined tx member same.symm
  simp [rowOf, other]

theorem Ordered.broadcast (ordered : Ordered state) {snapshot : RiskSnapshot} {txId : TxId}
    {last : Option RiskSnapshot} (idle : state.sending = none)
    (unpublished : ¬state.Published snapshot) (fresh : state.Fresh txId)
    (inOrder : InOrder state (.process snapshot last txId))
    (sound : Sound (state.broadcast snapshot txId)) :
    Ordered (state.broadcast snapshot txId) := by
  refine ⟨sound, ?_, ?_, ordered.mined⟩
  · apply List.pairwise_append.mpr
    refine ⟨ordered.newer, List.pairwise_singleton _ _, ?_⟩
    rintro earlier member _ new
    cases List.mem_singleton.mp new
    exact inOrder unpublished _ (ordered.rows.broadcast_rows earlier member)
      (ordered.rows.published_of_idle idle member)
  · have unmined : ∀ tx ∈ transactions state.chain, tx.id ≠ txId := by
      rintro tx member rfl
      exact fresh.1 (ordered.mined tx member)
    change (attested (state.broadcasts ++ [(snapshot, txId)]) state.chain).Sublist
      ((state.broadcasts ++ [(snapshot, txId)]).map Prod.fst)
    rw [attested_broadcast unmined, List.map_append]
    exact ordered.chained.trans (List.sublist_append_left _ _)

theorem ordered_next {action : Action} (ordered : Ordered state)
    (inOrder : InOrderOnChain minIntervalBlocks state action)
    (step : next cl wallet minIntervalBlocks state action = some target) : Ordered target := by
  have sound : Sound target := sound_next ordered.toSound step
  cases action with
  | persist snapshot =>
      rcases persist_eq_some step with ⟨-, rfl⟩
      exact ⟨sound, ordered.newer, ordered.chained, ordered.mined⟩
  | process snapshot last txId =>
      rcases process_eq_some step with rfl | ⟨idle, -, unpublished, -, -, fresh, rfl⟩
      · exact ordered
      · exact ordered.broadcast idle unpublished fresh inOrder.1 sound
  | mark marked =>
      rcases Option.map_eq_some_iff.mp step with ⟨sent, -, rfl⟩
      exact ⟨sound, ordered.newer, ordered.chained, ordered.mined⟩
  | mine dropped blocks =>
      rcases mine_eq_some step with ⟨-, rfl⟩
      refine ⟨sound, ordered.newer, inOrder.1, ?_⟩
      intro tx member
      simp only [State.mine, transactions, List.flatMap_append, List.mem_append] at member ⊢
      rcases member with kept | added
      · have old : tx ∈ transactions state.chain := by
          rw [← List.take_append_drop (state.chain.length - dropped) state.chain]
          simp only [transactions, List.flatMap_append, List.mem_append]
          exact .inl kept
        exact .inr (ordered.mined tx old)
      · exact .inl (List.mem_map_of_mem added)
  | deliver format =>
      rcases deliver_eq_some step with ⟨delivery, deliveries, -, -, rfl⟩
      exact ⟨sound, ordered.newer, ordered.chained, ordered.mined⟩
  | redeliver =>
      rcases Option.map_eq_some_iff.mp step with ⟨payload, -, rfl⟩
      exact ⟨sound, ordered.newer, ordered.chained, ordered.mined⟩
  | update =>
      rcases update_eq_some step with ⟨txId, snapshotId, updates, -, rfl⟩
      exact ⟨sound, ordered.newer, ordered.chained, ordered.mined⟩

/-! ## The row compared with -/

theorem newer_irrefl (row : RiskSnapshot) : ¬Newer row row := by
  unfold Newer
  omega

/-- With every id stored, the query finds the row broadcast last. -/
theorem Ordered.lastPublished (ordered : Ordered state) (idle : state.sending = none)
    {snapshot row : RiskSnapshot} (unpublished : ¬state.Published snapshot)
    (queried : state.IsLastPublished snapshot (some row)) :
    (state.broadcasts.map Prod.fst).getLast? = some row := by
  rcases queried with ⟨member, -, published, greatest⟩
  rcases Option.isSome_iff_exists.mp published with ⟨text, stored⟩
  rcases ordered.rows.stored row member text stored with ⟨txId, -, sent, -⟩
  rcases List.eq_nil_or_concat state.broadcasts with none | ⟨front, final, broadcasts⟩
  · rw [none] at sent
    cases sent
  rw [List.concat_eq_append] at broadcasts
  have finalMem : final ∈ state.broadcasts := by simp [broadcasts]
  have finalPublished := ordered.rows.published_of_idle idle finalMem
  have notNewer : ¬Newer final.1 row := by
    apply greatest _ (ordered.rows.broadcast_rows final finalMem) _ finalPublished
    intro same
    unfold State.Published at *
    rw [same] at finalPublished
    exact unpublished finalPublished
  have newer := ordered.newer
  rw [broadcasts] at sent newer
  rcases List.mem_append.mp sent with earlier | last
  · exact absurd ((List.pairwise_append.mp newer).2.2 _ earlier final (List.mem_singleton_self _))
      notNewer
  · rw [broadcasts, List.map_append, ← List.mem_singleton.mp last]
    exact List.getLast?_concat

/-- A row compared with that is on the chain is the latest there. -/
theorem Ordered.skipsAgree (ordered : Ordered state) {action : Action}
    (onChain : ComparedOnChain minIntervalBlocks state action) :
    SkipsAgree minIntervalBlocks state action := by
  cases action with
  | process snapshot last txId =>
      intro skips reported
      have unchanged := skips.2.2.2
      cases decided : decision minIntervalBlocks snapshot last with
      | publish reason =>
          rw [decided] at unchanged
          cases unchanged
      | unchanged blocks interval =>
          rcases sameFigures_of_unchanged decided with ⟨figures, last_eq, same⟩
          rcases Option.map_eq_some_iff.mp last_eq with ⟨row, rfl, rfl⟩
          have final := ordered.lastPublished reported.1.1 skips.2.1 skips.2.2.1
          have nodup : (state.broadcasts.map Prod.fst).Nodup := by
            apply List.pairwise_map.mpr
            apply ordered.newer.imp
            intro earlier later newer same
            rw [same] at newer
            exact newer_irrefl _ newer
          have latest : state.latest = some row :=
            getLast?_of_sublist ordered.chained nodup final (onChain skips reported row rfl)
          exact ⟨row, latest, same.symm⟩
  | _ => trivial

/-- In every run in order in which candidates are compared with attestations on the
canonical chain, what is skipped agrees with the chain. -/
theorem skipsAgree_when_compared_on_chain {actions : List Action}
    (along : Along (next cl wallet minIntervalBlocks) (InOrderOnChain minIntervalBlocks)
      State.initial actions) :
    Along (next cl wallet minIntervalBlocks) (SkipsAgree minIntervalBlocks) State.initial actions :=
  along.imp ordered_next (fun ordered inOrder => ordered.skipsAgree inOrder.2) ordered_initial

/-! ## Attestations the chain no longer has -/

/-- A row with the figures of the first one. -/
def repeatedRow : RiskSnapshot :=
  scoreRow 2 110 1000

/-- A row with other figures. -/
def changedRow : RiskSnapshot :=
  scoreRow 3 112 9000

/-- The id of the second transaction. -/
def secondTx : TxId :=
  repeatedTx '2' two_lower

/-- A block in which the first transaction aborts. -/
def abortedBlock : Block where
  index := 101
  transactions := [{ id := firstTx, status := .abortByResponse, result := .err 401 }]

/-- The first attestation is broadcast and its id stored. -/
def firstAttested : List Action :=
  [.persist firstRow, .process firstRow none firstTx, .mark false]

/-- Its transaction aborts, the abort is reported, and a repetition is skipped. -/
def abortedThenSkipped : List Action :=
  firstAttested ++ [.mine 0 [abortedBlock], .deliver platformFormat, .persist repeatedRow,
    .process repeatedRow (some firstRow) secondTx]

/-- Its transaction is mined, rolled back and not mined again. -/
def rolledBackThenSkipped : List Action :=
  firstAttested ++ [.mine 0 [publishingBlock 101 1], .deliver platformFormat, .update,
    .mine 1 [], .deliver platformFormat, .update, .persist repeatedRow,
    .process repeatedRow (some firstRow) secondTx]

/-- Its transaction is mined, a repetition is skipped, and a change published. -/
def minedThenSkipped : List Action :=
  firstAttested ++ [.mine 0 [publishingBlock 101 1], .deliver nodeFormat, .update,
    .persist repeatedRow, .process repeatedRow (some firstRow) secondTx, .persist changedRow,
    .process changedRow (some firstRow) secondTx, .mark true]

/-- The registry has no snapshot of the wallet, and the candidate is skipped. -/
theorem skipped_against_lost_attestations :
    (Along walletNext InOrder State.initial abortedThenSkipped ∧
        (exec walletNext State.initial abortedThenSkipped).map State.latest = some none ∧
        ¬Along walletNext (SkipsAgree 120) State.initial abortedThenSkipped) ∧
      Along walletNext InOrder State.initial rolledBackThenSkipped ∧
        (exec walletNext State.initial rolledBackThenSkipped).map State.latest = some none ∧
        ¬Along walletNext (SkipsAgree 120) State.initial rolledBackThenSkipped := by
  decide +kernel

theorem skipsAgree_when_compared_on_chain_mined :
    (exec walletNext State.initial minedThenSkipped).map State.latest = some (some firstRow) ∧
      Along walletNext (SkipsAgree 120) State.initial minedThenSkipped := by
  constructor
  · decide +kernel
  · apply skipsAgree_when_compared_on_chain
    decide +kernel

end RiskRail.Attestation.Confirmation
