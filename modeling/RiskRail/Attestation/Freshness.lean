import RiskRail.Attestation.Publishable
import RiskRail.Attestation.Worker
import RiskRail.Registry.Freshness
import Mathlib.Data.List.Chain

/-!
# Attestations that stay fresh

The throttle counts source blocks, the registry the blocks since a publication was
mined.  When the snapshots of a wallet are processed in order, at most `gap` blocks
apart, and each attestation is mined at most `delay` blocks after its source block,
then no read of the registry is older than the interval, the gap and the delay
together, as long as the wallet goes on being refreshed.
-/

namespace RiskRail.Attestation.Worker

open RiskRail.Clarity RiskRail.Registry RiskRail.Database RiskRail.Numeric RiskRail.Relational
  RiskRail.Transition

/-- The second snapshot follows the first within the gap. -/
def Follows (gap : ℕ) (newer older : RiskSnapshot) : Prop :=
  older.observedAt < newer.observedAt ∧ older.sourceBlock ≤ newer.sourceBlock ∧
    newer.sourceBlock ≤ older.sourceBlock + gap

instance (gap : ℕ) (newer older : RiskSnapshot) : Decidable (Follows gap newer older) :=
  inferInstanceAs (Decidable (_ ∧ _ ∧ _))

/-- A job that is still to be attested follows the one processed before, and none
dies after its broadcast. -/
def Refreshed (gap : ℕ) (state : State) : Action → Prop
  | .process snapshot _ _ =>
      ¬state.Published snapshot → ∀ newest ∈ state.processed.head?, Follows gap snapshot newest
  | .crash _ _ => False
  | _ => True

instance (gap : ℕ) (state : State) : DecidablePred (Refreshed gap state)
  | .process snapshot _ _ =>
      inferInstanceAs (Decidable (¬state.Published snapshot →
        ∀ newest ∈ state.processed.head?, Follows gap snapshot newest))
  | .crash _ _ => isFalse id
  | .persist _ | .fail _ => isTrue trivial

/-! ## The throttle over a sequence of snapshots -/

/-- What the throttle makes of the processed snapshots, newest first: each is
compared with the one broadcast last. -/
inductive Throttled (minIntervalBlocks : ℕ) : List RiskSnapshot → List RiskSnapshot → Prop where
  | nil : Throttled minIntervalBlocks [] []
  | publish {processed broadcasts : List RiskSnapshot} {snapshot : RiskSnapshot}
      {reason : PublishReason} (before : Throttled minIntervalBlocks processed broadcasts)
      (decided : decision minIntervalBlocks snapshot broadcasts.head? = .publish reason) :
      Throttled minIntervalBlocks (snapshot :: processed) (snapshot :: broadcasts)
  | skip {processed broadcasts : List RiskSnapshot} {snapshot : RiskSnapshot}
      {blocksSinceLast : ℚ} {interval : ℕ}
      (before : Throttled minIntervalBlocks processed broadcasts)
      (decided : decision minIntervalBlocks snapshot broadcasts.head? =
        .unchanged blocksSinceLast interval) :
      Throttled minIntervalBlocks (snapshot :: processed) broadcasts

variable {minIntervalBlocks gap delay : ℕ}

/-- A candidate is skipped only within the interval. -/
theorem sourceBlock_le_of_unchanged {snapshot last : RiskSnapshot} {blocksSinceLast : ℚ}
    {interval : ℕ} (isNumber : toDouble minIntervalBlocks = minIntervalBlocks)
    (skipped : decision minIntervalBlocks snapshot (some last) =
      .unchanged blocksSinceLast interval) :
    snapshot.sourceBlock ≤ last.sourceBlock + minIntervalBlocks := by
  unfold decision at skipped
  rw [Option.map_some, decideAttestation] at skipped
  split at skipped
  next => cases skipped
  next =>
    dsimp only at skipped
    split at skipped
    next => cases skipped
    next early =>
      by_contra late
      have blocks : (minIntervalBlocks : ℚ) ≤ (snapshot.sourceBlock : ℚ) - last.sourceBlock := by
        have apart : (last.sourceBlock : ℚ) + minIntervalBlocks ≤ snapshot.sourceBlock := by
          exact_mod_cast (not_le.mp late).le
        linarith
      have rounded : toDouble minIntervalBlocks ≤
          toDouble ((snapshot.sourceBlock : ℚ) - last.sourceBlock) :=
        Arithmetic.decimalJs.toNumber_monotone blocks
      rw [isNumber] at rounded
      exact early rounded

/-- A repetition is published only once the interval is over. -/
theorem interval_le_of_publish {snapshot last : RiskSnapshot} {reason : PublishReason}
    (same : SameFigures snapshot last) (safe : snapshot.sourceBlock < 2 ^ 53)
    (forward : last.sourceBlock ≤ snapshot.sourceBlock)
    (published : decision minIntervalBlocks snapshot (some last) = .publish reason) :
    last.sourceBlock + minIntervalBlocks ≤ snapshot.sourceBlock := by
  have due : (minIntervalBlocks : ℚ) ≤
      toDouble ((snapshot.sourceBlock : ℚ) - last.sourceBlock) := by
    unfold decision at published
    rw [Option.map_some, decideAttestation] at published
    split at published
    next changed => exact absurd same changed
    next =>
      dsimp only at published
      split at published
      next due => exact due
      next => cases published
  have blocks : (snapshot.sourceBlock : ℚ) - last.sourceBlock =
      ((snapshot.sourceBlock - last.sourceBlock : ℕ) : ℚ) := by
    rw [Nat.cast_sub forward]
  rw [blocks, toDouble_of_safe (by omega)] at due
  have whole : minIntervalBlocks ≤ snapshot.sourceBlock - last.sourceBlock := by
    exact_mod_cast due
  omega

theorem Throttled.eq_nil {broadcasts : List RiskSnapshot}
    (throttled : Throttled minIntervalBlocks [] broadcasts) : broadcasts = [] := by
  cases throttled
  rfl

/-- The newest snapshot lies within the interval after the last broadcast. -/
theorem Throttled.covers {processed broadcasts : List RiskSnapshot}
    (throttled : Throttled minIntervalBlocks processed broadcasts)
    (isNumber : toDouble minIntervalBlocks = minIntervalBlocks)
    (follows : processed.IsChain (Follows gap)) {newest : RiskSnapshot}
    (isNewest : newest ∈ processed.head?) :
    ∃ last ∈ broadcasts.head?, last.sourceBlock ≤ newest.sourceBlock ∧
      newest.sourceBlock ≤ last.sourceBlock + minIntervalBlocks := by
  induction throttled generalizing newest with
  | nil => cases isNewest
  | @publish _ _ snapshot _ before decided ih =>
      cases isNewest
      exact ⟨snapshot, rfl, le_rfl, Nat.le_add_right _ _⟩
  | @skip processed broadcasts snapshot _ _ before decided ih =>
      cases isNewest
      rcases sameFigures_of_unchanged decided with ⟨figures, last_eq, -⟩
      rcases Option.map_eq_some_iff.mp last_eq with ⟨last, head, -⟩
      rw [head] at decided
      refine ⟨last, head, ?_, sourceBlock_le_of_unchanged isNumber decided⟩
      cases processed with
      | nil =>
          cases before
          cases head
      | cons older rest =>
          rcases List.isChain_cons_cons.mp follows with ⟨after, follows⟩
          rcases ih follows rfl with ⟨other, otherHead, forward, -⟩
          cases Option.mem_unique head otherHead
          exact forward.trans after.2.1

/-- Consecutive broadcasts do not go back, and are an interval and a gap apart at most. -/
theorem Throttled.isChain_broadcasts {processed broadcasts : List RiskSnapshot}
    (throttled : Throttled minIntervalBlocks processed broadcasts)
    (isNumber : toDouble minIntervalBlocks = minIntervalBlocks)
    (follows : processed.IsChain (Follows gap)) :
    broadcasts.IsChain fun newer older =>
      (older.sourceBlock ≤ newer.sourceBlock ∧
        newer.sourceBlock ≤ older.sourceBlock + minIntervalBlocks + gap) ∧
      ∃ reason, decision minIntervalBlocks newer (some older) = .publish reason := by
  induction throttled with
  | nil => exact .nil
  | @publish processed broadcasts snapshot reason before decided ih =>
      have tail := follows.tail
      cases broadcasts with
      | nil => exact .singleton _
      | cons last rest =>
          refine List.isChain_cons_cons.mpr ⟨⟨?_, reason, decided⟩, ih tail⟩
          cases processed with
          | nil => cases before
          | cons older _ =>
              rcases before.covers isNumber tail rfl with ⟨other, head, forward, near⟩
              cases head
              have after := (List.isChain_cons_cons.mp follows).1
              exact ⟨forward.trans after.2.1, after.2.2.trans (by omega)⟩
  | skip before decided ih => exact ih follows.tail

/-! ## The worker follows the throttle -/

/-- The table agrees with the broadcasts, and these with the throttle. -/
structure Sequential (minIntervalBlocks gap : ℕ) (state : State) : Prop where
  ids : ∀ first ∈ state.rows, ∀ second ∈ state.rows, first.id = second.id → first = second
  broadcast_rows : ∀ row ∈ state.broadcasts, row ∈ state.rows
  published_iff : ∀ row ∈ state.rows, state.Published row ↔ row ∈ state.broadcasts
  follows : state.processed.IsChain (Follows gap)
  newer : state.broadcasts.Pairwise Newer
  latest : ∀ newest ∈ state.processed.head?, ∀ row ∈ state.broadcasts, ¬Newer row newest
  throttled : Throttled minIntervalBlocks state.processed state.broadcasts

theorem sequential_initial : Sequential minIntervalBlocks gap State.initial := by
  constructor <;> simp [State.initial, Throttled.nil]

variable {cl : ClarityEncoder} {wallet : Principal} {state target : State}

theorem Sequential.persist (sequential : Sequential minIntervalBlocks gap state)
    {snapshot : RiskSnapshot} (fresh : ¬∃ row ∈ state.rows, row.id = snapshot.id) :
    Sequential minIntervalBlocks gap
      { state with
        rows := snapshot :: state.rows
        onchainTxId := Function.update state.onchainTxId snapshot.id none } := by
  have distinct : ∀ row ∈ state.rows, row.id ≠ snapshot.id := fun row member same =>
    fresh ⟨row, member, same⟩
  constructor
  · exact eq_of_key_eq_cons sequential.ids distinct
  · exact fun row member => List.mem_cons_of_mem _ (sequential.broadcast_rows row member)
  · intro row member
    change (Function.update state.onchainTxId snapshot.id none row.id).isSome = true ↔ _
    rcases List.mem_cons.mp member with rfl | old
    · rw [Function.update_self]
      constructor
      · intro published
        cases published
      · exact fun sent => absurd rfl (distinct row (sequential.broadcast_rows row sent))
    · rw [Function.update_of_ne (distinct row old)]
      exact sequential.published_iff row old
  · exact sequential.follows
  · exact sequential.newer
  · exact sequential.latest
  · exact sequential.throttled

/-- The query finds the last broadcast. -/
theorem Sequential.lastPublished (sequential : Sequential minIntervalBlocks gap state)
    {snapshot : RiskSnapshot} {last : Option RiskSnapshot}
    (unpublished : ¬state.Published snapshot) (queried : state.IsLastPublished snapshot last) :
    last = state.broadcasts.head? := by
  cases broadcasts : state.broadcasts with
  | nil =>
      cases last with
      | none => rfl
      | some last =>
          have sent := (sequential.published_iff last queried.1).mp queried.2.2.1
          rw [broadcasts] at sent
          cases sent
  | cons head tail =>
      have headMem : head ∈ state.broadcasts := by simp [broadcasts]
      have headRow := sequential.broadcast_rows head headMem
      have headPublished := (sequential.published_iff head headRow).mpr headMem
      cases last with
      | none =>
          exact absurd headPublished (queried head headRow (headPublished.id_ne unpublished))
      | some last =>
          have sent := (sequential.published_iff last queried.1).mp queried.2.2.1
          have notNewer := queried.not_newer unpublished headRow headPublished
          have newer := sequential.newer
          rw [broadcasts] at sent newer
          rcases List.mem_cons.mp sent with rfl | earlier
          · rfl
          · exact absurd ((List.pairwise_cons.mp newer).1 last earlier) notNewer

theorem Follows.newer {newer older : RiskSnapshot} (follows : Follows gap newer older) :
    Newer newer older := by
  unfold Follows at follows
  unfold Newer
  omega

/-- A snapshot that follows the newest processed one is newer than every broadcast. -/
theorem Sequential.newer_broadcasts (sequential : Sequential minIntervalBlocks gap state)
    {snapshot : RiskSnapshot}
    (follows : ∀ newest ∈ state.processed.head?, Follows gap snapshot newest) :
    ∀ row ∈ state.broadcasts, Newer snapshot row := by
  intro row member
  cases processed : state.processed with
  | nil =>
      have throttled := sequential.throttled
      rw [processed] at throttled
      rw [throttled.eq_nil] at member
      cases member
  | cons newest _ =>
      have head : newest ∈ state.processed.head? := by simp [processed]
      exact (follows newest head).newer.trans (sequential.latest newest head row member)

theorem Sequential.skip (sequential : Sequential minIntervalBlocks gap state)
    {snapshot : RiskSnapshot} {blocksSinceLast : ℚ} {interval : ℕ}
    (follows : ∀ newest ∈ state.processed.head?, Follows gap snapshot newest)
    (decided : decision minIntervalBlocks snapshot state.broadcasts.head? =
      .unchanged blocksSinceLast interval) :
    Sequential minIntervalBlocks gap
      { state with processed := snapshot :: state.processed } := by
  refine ⟨sequential.ids, sequential.broadcast_rows, sequential.published_iff,
    sequential.follows.cons follows, sequential.newer, ?_,
    .skip sequential.throttled decided⟩
  rintro newest ⟨⟩ row member
  have newer := sequential.newer_broadcasts follows row member
  unfold Newer at *
  omega

theorem Sequential.attest (sequential : Sequential minIntervalBlocks gap state)
    {snapshot : RiskSnapshot} {txId : ℕ} {reason : PublishReason} (member : snapshot ∈ state.rows)
    (follows : ∀ newest ∈ state.processed.head?, Follows gap snapshot newest)
    (decided : decision minIntervalBlocks snapshot state.broadcasts.head? = .publish reason) :
    Sequential minIntervalBlocks gap (state.attest snapshot txId) := by
  have newer := sequential.newer_broadcasts follows
  constructor
  · exact sequential.ids
  · intro row rowMem
    rcases List.mem_cons.mp rowMem with rfl | old
    · exact member
    · exact sequential.broadcast_rows row old
  · intro row rowMem
    rw [published_attest_iff sequential.ids member rowMem, sequential.published_iff row rowMem]
    exact List.mem_cons.symm
  · exact sequential.follows.cons follows
  · exact List.pairwise_cons.mpr ⟨newer, sequential.newer⟩
  · rintro newest ⟨⟩ row rowMem
    rcases List.mem_cons.mp rowMem with rfl | old
    · unfold Newer
      omega
    · have earlier := newer row old
      unfold Newer at *
      omega
  · exact .publish sequential.throttled decided

/-- One step of a run in which the wallet is refreshed in order. -/
theorem sequential_next {action : Action} (sequential : Sequential minIntervalBlocks gap state)
    (refreshed : Refreshed gap state action)
    (step : next cl wallet minIntervalBlocks state action = some target) :
    Sequential minIntervalBlocks gap target := by
  cases action with
  | persist snapshot =>
      rcases persist_eq_some step with ⟨fresh, rfl⟩
      exact sequential.persist fresh
  | process snapshot last txId =>
      rcases process_eq_some step with rfl | ⟨member, unpublished, queried, published | skipped⟩
      · exact sequential
      · cases sequential.lastPublished unpublished queried
        rcases published with ⟨reason, args, decided, -, rfl⟩
        exact sequential.attest member (refreshed unpublished) decided
      · cases sequential.lastPublished unpublished queried
        rcases skipped with ⟨blocksSinceLast, interval, decided, rfl⟩
        exact sequential.skip (refreshed unpublished) decided
  | fail snapshot =>
      cases step
      exact sequential
  | crash snapshot last => exact refreshed.elim

/-! ## Mined attestations -/

/-- A transaction attests the row and was mined at most `delay` blocks after the
row's source block. -/
structure MinedWithin (cl : ClarityEncoder) (wallet : Principal) (delay : ℕ) (row : RiskSnapshot)
    (receipt : Receipt PublicCall) : Prop where
  built : (publish cl (attestationInput wallet row)).map PublicCall.publishRiskSnapshot =
    .ok receipt.tx.call
  mined : row.sourceBlock ≤ receipt.tx.height.val
  inTime : receipt.tx.height.val ≤ row.sourceBlock + delay

instance (cl : ClarityEncoder) (wallet : Principal) (delay : ℕ) (row : RiskSnapshot)
    (receipt : Receipt PublicCall) : Decidable (MinedWithin cl wallet delay row receipt) :=
  decidable_of_iff (_ ∧ _ ∧ _)
    ⟨fun ⟨built, mined, inTime⟩ => ⟨built, mined, inTime⟩,
      fun within => ⟨within.built, within.mined, within.inTime⟩⟩

/-- An attested row names a block that a number can hold. -/
theorem MinedWithin.safe {row : RiskSnapshot} {receipt : Receipt PublicCall}
    (mined : MinedWithin cl wallet delay row receipt) : row.sourceBlock < 2 ^ 53 := by
  have built := mined.built
  cases published : publish cl (attestationInput wallet row) with
  | error message =>
      rw [published] at built
      cases built
  | ok args =>
      by_contra large
      exact cl.uintOfNumber_unsafe _ (le_toDouble (not_lt.mp large)) _
        (publish_eq_ok published).2.2

/-- Of the attestations mined so far, one is young enough, whatever is mined
later. -/
theorem exists_young {height bound : ℕ} {broadcasts : List RiskSnapshot}
    {later earlier : List (Receipt PublicCall)}
    (mined : List.Forall₂ (MinedWithin cl wallet delay) broadcasts (later ++ earlier))
    (near : broadcasts.IsChain fun newer older => newer.sourceBlock + delay ≤
      older.sourceBlock + bound)
    (covered : ∀ last ∈ broadcasts.head?, height ≤ last.sourceBlock + bound)
    (laterHeights : ∀ receipt ∈ later, height ≤ receipt.tx.height.val) (mined_any : earlier ≠ []) :
    ∃ receipt ∈ earlier, height ≤ receipt.tx.height.val + bound := by
  induction later generalizing broadcasts with
  | nil =>
      cases mined with
      | nil => exact absurd rfl mined_any
      | @cons row receipt _ _ first rest =>
          have reached := covered row rfl
          have after := first.mined
          exact ⟨receipt, List.mem_cons_self, by omega⟩
  | cons next later ih =>
      cases mined with
      | @cons row _ _ _ first rest =>
          apply ih rest near.tail _ (fun receipt member => laterHeights receipt (.tail _ member))
          intro last head
          have reached := laterHeights next List.mem_cons_self
          have inTime := first.inTime
          rcases List.head?_eq_some_iff.mp head with ⟨_, rfl⟩
          have apart := (List.isChain_cons_cons.mp near).1
          omega

/-- The chain as a read in block `env.stacksBlockHeight` finds it: every transaction
of an earlier block is mined, and none of a later one. -/
structure ReadsAt (deployer : Principal) (height : Uint) (txs : List (Tx PublicCall)) (env : Env)
    (chain : Chain Registry.State PublicCall) : Prop where
  mined : ∃ before after, txs = before ++ after ∧
    exec riskRegistry.next (deployment deployer height) before = some chain ∧
      ∀ tx ∈ after, env.stacksBlockHeight ≤ tx.height
  reached : chain.height ≤ env.stacksBlockHeight

/-- What such a read knows of the publications of the whole run. -/
theorem ReadsAt.publications (wallet : Principal) {deployer : Principal} {height : Uint}
    {txs : List (Tx PublicCall)} {env : Env} {chain final : Chain Registry.State PublicCall}
    (reads : ReadsAt deployer height txs env chain)
    (run : exec riskRegistry.next (deployment deployer height) txs = some final) :
    ∃ later, publications wallet final = later ++ publications wallet chain ∧
      ∀ receipt ∈ later, env.stacksBlockHeight.val ≤ receipt.tx.height.val := by
  rcases reads.mined with ⟨before, after, rfl, first, heights⟩
  rcases exec_append_eq_some_iff.mp run with ⟨middle, first', second⟩
  cases first.symm.trans first'
  rcases publications_of_run wallet second with ⟨later, publications_eq, txs⟩
  exact ⟨later, publications_eq, fun receipt member => heights receipt.tx (txs receipt member)⟩

/-- The wallet's attestations keep its reads fresh from the first one on, as far as
it was refreshed, and repetitions are an interval apart. -/
theorem refreshed_wallet_stays_fresh {actions : List Action}
    (isNumber : toDouble minIntervalBlocks = minIntervalBlocks)
    (refreshed : Along (next cl wallet minIntervalBlocks) (Refreshed gap) State.initial actions)
    (run : exec (next cl wallet minIntervalBlocks) State.initial actions = some state)
    {deployer : Principal} {height : Uint} {txs : List (Tx PublicCall)}
    {final : Chain Registry.State PublicCall}
    (chainRun : exec riskRegistry.next (deployment deployer height) txs = some final)
    {attestations : List (Receipt PublicCall)}
    (published : attestations.Sublist (publications wallet final))
    (mined : List.Forall₂ (MinedWithin cl wallet delay) state.broadcasts attestations) :
    (∀ maxAgeBlocks env chain, minIntervalBlocks + gap + delay ≤ maxAgeBlocks.val →
      ReadsAt deployer height txs env chain →
      (∃ attestation ∈ attestations, attestation ∈ chain.receipts) →
      (∃ newest ∈ state.processed.head?, env.stacksBlockHeight.val ≤ newest.sourceBlock) →
        (getRiskIfFresh wallet maxAgeBlocks env chain.state).isSome = true) ∧
      state.broadcasts.IsChain fun newer older =>
        SameFigures newer older → older.sourceBlock + minIntervalBlocks ≤ newer.sourceBlock := by
  have sequential : Sequential minIntervalBlocks gap state :=
    refreshed.invariant sequential_next run sequential_initial
  have spaced := sequential.throttled.isChain_broadcasts isNumber sequential.follows
  constructor
  · rintro maxAgeBlocks env chain old reads ⟨attestation, attested, onChain⟩
      ⟨newest, isNewest, refreshedUntil⟩
    have recorded : Recorded chain := by
      rcases reads.mined with ⟨before, -, -, first, -⟩
      exact recorded_of_run first
    rcases reads.publications wallet chainRun with ⟨rest, publications_eq, heights⟩
    rw [publications_eq] at published
    rcases List.sublist_append_iff.mp published with ⟨later, earlier, rfl, inRest, inChain⟩
    have laterHeights : ∀ receipt ∈ later, env.stacksBlockHeight.val ≤ receipt.tx.height.val :=
      fun receipt member => heights receipt (inRest.subset member)
    by_cases none : earlier = []
    · -- The attestation on the chain is of this very block.
      rw [none, List.append_nil] at attested
      have selected : attestation ∈ publications wallet chain := by
        have inFinal : attestation ∈ publications wallet final := by
          rw [publications_eq]
          exact List.mem_append_left _ (inRest.subset attested)
        exact List.mem_filter.mpr ⟨onChain, (List.mem_filter.mp inFinal).2⟩
      apply recorded.isSome_getRiskIfFresh selected reads.reached
      exact (laterHeights attestation attested).trans (Nat.le_add_right _ _)
    · have near : state.broadcasts.IsChain fun newer older =>
          newer.sourceBlock + delay ≤ older.sourceBlock + maxAgeBlocks.val :=
        spaced.imp fun newer older apart => by omega
      have covered : ∀ last ∈ state.broadcasts.head?,
          env.stacksBlockHeight.val ≤ last.sourceBlock + maxAgeBlocks.val := by
        intro last head
        rcases sequential.throttled.covers isNumber sequential.follows isNewest with
          ⟨other, otherHead, -, within⟩
        cases Option.mem_unique head otherHead
        omega
      rcases exists_young mined near covered laterHeights none with ⟨receipt, member, young⟩
      exact recorded.isSome_getRiskIfFresh (inChain.subset member) reads.reached young
  · have safe : ∀ row ∈ state.broadcasts, row.sourceBlock < 2 ^ 53 :=
      ((List.forall₂_and_left _ _).mp (mined.imp fun row receipt within => ⟨within.safe, within⟩)).1
    apply spaced.imp_of_mem_imp
    rintro newer older newerMem - ⟨⟨forward, -⟩, reason, decided⟩ same
    exact interval_le_of_publish same (safe newer newerMem) forward decided

/-! ## A wallet refreshed three times -/

/-- A row of a wallet that does not change. -/
def steadyRow (id sourceBlock : ℕ) : RiskSnapshot :=
  scoreRow id sourceBlock 1000

/-- The worker of the wallet, with an interval of two blocks. -/
abbrev steadyNext : Step State Action :=
  next standardEncoder (.standard "SP1") 2

/-- The second snapshot is within the interval of two blocks, the third is not. -/
def steadyRefreshes : List Action :=
  [.persist (steadyRow 1 100), .process (steadyRow 1 100) none 1,
    .persist (steadyRow 2 101), .process (steadyRow 2 101) (some (steadyRow 1 100)) 2,
    .persist (steadyRow 3 103), .process (steadyRow 3 103) (some (steadyRow 1 100)) 3]

/-- A height as the chain has it. -/
def blockHeight (height : ℕ) : Uint where
  val := height % 2 ^ 128
  val_lt := Nat.mod_lt height (Nat.two_pow_pos 128)

/-- The deployer attests the first row in block 101 and the third in block 103. -/
def steadyAttestations : List (Tx PublicCall) :=
  [(steadyRow 1 100, 101), (steadyRow 3 103, 103)].filterMap fun (row, height) =>
    (publish standardEncoder (attestationInput (.standard "SP1") row)).toOption.map fun args =>
      { sender := .standard "deployer"
        height := blockHeight height
        call := .publishRiskSnapshot args }

theorem refreshed_wallet_stays_fresh_thrice :
    ∃ state final, exec steadyNext State.initial steadyRefreshes = some state ∧
      exec riskRegistry.next (deployment (.standard "deployer") (blockHeight 90))
        steadyAttestations = some final ∧
      state.broadcasts = [steadyRow 3 103, steadyRow 1 100] ∧
      (getRiskIfFresh (.standard "SP1") (blockHeight 5) ⟨.standard "consumer", blockHeight 103⟩
        final.state).isSome = true := by
  have refreshed : Along steadyNext (Refreshed 2) State.initial steadyRefreshes := by
    decide +kernel
  have run : ∃ state ∈ exec steadyNext State.initial steadyRefreshes,
      state.broadcasts = [steadyRow 3 103, steadyRow 1 100] ∧
        state.processed.head? = some (steadyRow 3 103) := by
    decide +kernel
  have chainRun : ∃ final ∈ exec riskRegistry.next
      (deployment (.standard "deployer") (blockHeight 90)) steadyAttestations,
      List.Forall₂ (MinedWithin standardEncoder (.standard "SP1") 1)
          [steadyRow 3 103, steadyRow 1 100] (publications (.standard "SP1") final) ∧
        publications (.standard "SP1") final ≠ [] ∧ final.height = blockHeight 103 := by
    decide +kernel
  rcases run with ⟨state, run, broadcasts, newest⟩
  rcases chainRun with ⟨final, chainRun, mined, published, reached⟩
  rw [← broadcasts] at mined
  have fresh := refreshed_wallet_stays_fresh (by decide +kernel) refreshed run chainRun
    (List.Sublist.refl _) mined
  have reads : ReadsAt (.standard "deployer") (blockHeight 90) steadyAttestations
      ⟨.standard "consumer", blockHeight 103⟩ final := by
    refine ⟨⟨steadyAttestations, [], by simp, chainRun, by simp⟩, ?_⟩
    rw [reached]
    exact Uint.le_def.mpr le_rfl
  refine ⟨state, final, run, chainRun, broadcasts, fresh.1 _ _ _ (by decide) reads ?_ ?_⟩
  · rcases List.exists_mem_of_ne_nil _ published with ⟨receipt, member⟩
    exact ⟨receipt, member, (List.mem_filter.mp member).1⟩
  · exact ⟨_, newest, by decide⟩

end RiskRail.Attestation.Worker
