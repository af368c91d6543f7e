import RiskRail.Attestation.Publishable
import RiskRail.Attestation.Throttle
import RiskRail.Relational.Table
import RiskRail.Transition.Core
import Mathlib.Logic.Function.Basic

/-!
# The attestation worker

One wallet's risk snapshots and the worker that attests them one at a time, in
whatever order retries leave.  A job compares its snapshot with the published
row of greatest source block and observation time, not with the attestation
broadcast last.  Transactions are mined in broadcast order, so the last
broadcast is what the chain shows.
-/

namespace RiskRail.Attestation.Worker

open RiskRail.Clarity RiskRail.Database RiskRail.Relational RiskRail.Transition

/-- `first` comes before `second` in
`orderBy: [{ sourceBlock: 'desc' }, { observedAt: 'desc' }]`. -/
def Newer (first second : RiskSnapshot) : Prop :=
  second.sourceBlock < first.sourceBlock ∨
    second.sourceBlock = first.sourceBlock ∧ second.observedAt < first.observedAt

instance (first second : RiskSnapshot) : Decidable (Newer first second) :=
  inferInstanceAs (Decidable (_ ∨ _ ∧ _))

/-- The table, its `onchainTxId` column, and what was broadcast and processed,
newest first. -/
structure State where
  rows : List RiskSnapshot
  onchainTxId : ℕ → Option ℕ
  broadcasts : List RiskSnapshot
  processed : List RiskSnapshot

/-- Nothing is stored and nothing was broadcast. -/
def State.initial : State where
  rows := []
  onchainTxId := fun _ => none
  broadcasts := []
  processed := []

/-- The row has a transaction id. -/
def State.Published (state : State) (row : RiskSnapshot) : Prop :=
  (state.onchainTxId row.id).isSome = true

instance (state : State) (row : RiskSnapshot) : Decidable (state.Published row) :=
  inferInstanceAs (Decidable (_ = true))

/-- A result of the query for the last published row other than `snapshot`; rows
that tie come in any order. -/
def State.IsLastPublished (state : State) (snapshot : RiskSnapshot) :
    Option RiskSnapshot → Prop
  | none => ∀ row ∈ state.rows, row.id ≠ snapshot.id → ¬state.Published row
  | some last =>
      last ∈ state.rows ∧ last.id ≠ snapshot.id ∧ state.Published last ∧
        ∀ row ∈ state.rows, row.id ≠ snapshot.id → state.Published row → ¬Newer row last

instance (state : State) (snapshot : RiskSnapshot) :
    (last : Option RiskSnapshot) → Decidable (state.IsLastPublished snapshot last)
  | none =>
      inferInstanceAs
        (Decidable (∀ row ∈ state.rows, row.id ≠ snapshot.id → ¬state.Published row))
  | some last =>
      inferInstanceAs
        (Decidable (last ∈ state.rows ∧ last.id ≠ snapshot.id ∧ state.Published last ∧
          ∀ row ∈ state.rows, row.id ≠ snapshot.id → state.Published row → ¬Newer row last))

/-- What happens to the table and the jobs. -/
inductive Action where
  /-- A risk job inserts a row and queues its attestation job. -/
  | persist (snapshot : RiskSnapshot)
  /-- The attestation job of a row runs to its end. -/
  | process (snapshot : RiskSnapshot) (last : Option RiskSnapshot) (txId : ℕ)
  /-- An attempt fails before it broadcasts anything. -/
  | fail (snapshot : RiskSnapshot)
  /-- An attempt dies between its broadcast and `markRiskSnapshotPublished`. -/
  | crash (snapshot : RiskSnapshot) (last : Option RiskSnapshot)

/-- What the throttle decides about a row, given the query's result. -/
def decision (minIntervalBlocks : ℕ) (snapshot : RiskSnapshot) (last : Option RiskSnapshot) :
    AttestationDecision :=
  decideAttestation (attestedFigures snapshot) (last.map attestedFigures) minIntervalBlocks

/-- The state after a broadcast that was recorded. -/
def State.attest (state : State) (snapshot : RiskSnapshot) (txId : ℕ) : State :=
  { state with
    onchainTxId := Function.update state.onchainTxId snapshot.id (some txId)
    broadcasts := snapshot :: state.broadcasts
    processed := snapshot :: state.processed }

/-- A row whose figures `publish` refuses is neither attested nor processed: its attempts
fail. -/
def next (cl : ClarityEncoder) (wallet : Principal) (minIntervalBlocks : ℕ) : Step State Action
  | state, .persist snapshot =>
      if ∃ row ∈ state.rows, row.id = snapshot.id then none
      else some
        { state with
          rows := snapshot :: state.rows
          onchainTxId := Function.update state.onchainTxId snapshot.id none }
  | state, .process snapshot last txId =>
      if snapshot ∉ state.rows then none
      else if state.Published snapshot then some state
      else if ¬state.IsLastPublished snapshot last then none
      else
        match decision minIntervalBlocks snapshot last,
          publish cl (attestationInput wallet snapshot) with
        | .publish _, .ok _ => some (state.attest snapshot txId)
        | .publish _, .error _ => none
        | .unchanged _ _, _ => some { state with processed := snapshot :: state.processed }
  | state, .fail _ => some state
  | state, .crash snapshot last =>
      if snapshot ∈ state.rows ∧ ¬state.Published snapshot ∧
          state.IsLastPublished snapshot last then
        match decision minIntervalBlocks snapshot last,
          publish cl (attestationInput wallet snapshot) with
        | .publish _, .ok _ => some { state with broadcasts := snapshot :: state.broadcasts }
        | _, _ => none
      else
        none

/-- A processed snapshot that no other one is newer than. -/
def IsNewest (processed : List RiskSnapshot) (snapshot : RiskSnapshot) : Prop :=
  snapshot ∈ processed ∧ ∀ other ∈ processed, ¬Newer other snapshot

/-- The two rows attest the same five figures. -/
def SameFigures (first second : RiskSnapshot) : Prop :=
  sameFigures (attestedFigures first) (attestedFigures second)

/-- The last broadcast carries the figures of the newest processed snapshot, and
broadcast source blocks never go backwards. -/
structure FollowsNewest (state : State) : Prop where
  figures : ∀ newest, IsNewest state.processed newest →
    ∃ last ∈ state.broadcasts.head?, SameFigures last newest
  sourceBlocks : state.broadcasts.Pairwise fun later earlier =>
    earlier.sourceBlock ≤ later.sourceBlock

/-! ## Jobs in order -/

/-- The snapshot has the figures of the newest processed one. -/
def Repeats (state : State) (snapshot : RiskSnapshot) : Prop :=
  ∃ newest ∈ state.processed, IsNewest state.processed newest ∧ SameFigures snapshot newest

/-- No broadcast whose transaction id was not stored is of a later source block. -/
def BehindNone (state : State) (snapshot : RiskSnapshot) : Prop :=
  ∀ lost ∈ state.broadcasts, ¬state.Published lost → lost.sourceBlock ≤ snapshot.sourceBlock

/-- A job that is still to be attested is newer than every job processed so far
or repeats the figures of the newest one, and one that dies after its broadcast is
the first or repeats them; neither is behind a broadcast that was not recorded. -/
def InOrder (state : State) : Action → Prop
  | .process snapshot _ _ =>
      ¬state.Published snapshot →
        ((∀ other ∈ state.processed, Newer snapshot other) ∨ Repeats state snapshot) ∧
          BehindNone state snapshot
  | .crash snapshot _ =>
      (state.processed = [] ∨ Repeats state snapshot) ∧ BehindNone state snapshot
  | _ => True

instance (processed : List RiskSnapshot) (snapshot : RiskSnapshot) :
    Decidable (IsNewest processed snapshot) :=
  inferInstanceAs (Decidable (_ ∧ ∀ other ∈ processed, ¬_))

instance (first second : RiskSnapshot) : Decidable (SameFigures first second) :=
  inferInstanceAs (Decidable (sameFigures _ _))

instance (state : State) (snapshot : RiskSnapshot) : Decidable (Repeats state snapshot) :=
  inferInstanceAs (Decidable (∃ newest ∈ state.processed, _ ∧ _))

instance (state : State) (snapshot : RiskSnapshot) : Decidable (BehindNone state snapshot) :=
  inferInstanceAs (Decidable (∀ lost ∈ state.broadcasts, ¬_ → _))

instance (state : State) (action : Action) : Decidable (InOrder state action) := by
  cases action <;> unfold InOrder <;> infer_instance

/-- What jobs in order keep true.  The published row that the throttle would
compare with agrees with the last broadcast. -/
structure Sound (state : State) : Prop extends FollowsNewest state where
  ids : ∀ first ∈ state.rows, ∀ second ∈ state.rows, first.id = second.id → first = second
  published_processed : ∀ row ∈ state.rows, state.Published row → row ∈ state.processed
  broadcast_rows : ∀ row ∈ state.broadcasts, row ∈ state.rows
  latest : ∀ row ∈ state.rows, state.Published row →
    (∀ other ∈ state.rows, state.Published other → ¬Newer other row) →
      ∃ last ∈ state.broadcasts.head?, SameFigures last row

theorem sound_initial : Sound State.initial := by
  constructor
  · constructor <;> simp [State.initial, IsNewest]
  all_goals simp [State.initial]

variable {cl : ClarityEncoder} {wallet : Principal} {minIntervalBlocks : ℕ} {state : State}

theorem Newer.trans {first second third : RiskSnapshot} (newer : Newer first second)
    (notOlder : ¬Newer third second) : Newer first third := by
  unfold Newer at *
  omega

theorem State.Published.id_ne {row snapshot : RiskSnapshot} (published : state.Published row)
    (unpublished : ¬state.Published snapshot) : row.id ≠ snapshot.id := by
  intro same
  unfold State.Published at published unpublished
  rw [same] at published
  exact unpublished published

/-- The query looks at every published row: the one to be attested is not
published yet. -/
theorem State.IsLastPublished.not_newer {snapshot last row : RiskSnapshot}
    (queried : state.IsLastPublished snapshot (some last)) (unpublished : ¬state.Published snapshot)
    (member : row ∈ state.rows) (published : state.Published row) : ¬Newer row last :=
  queried.2.2.2 row member (published.id_ne unpublished) published

/-- An attestation publishes its row and no other. -/
theorem published_attest_iff (ids : ∀ first ∈ state.rows, ∀ second ∈ state.rows,
      first.id = second.id → first = second) {row snapshot : RiskSnapshot} {txId : ℕ}
    (member : snapshot ∈ state.rows) (rowMem : row ∈ state.rows) :
    (state.attest snapshot txId).Published row ↔ row = snapshot ∨ state.Published row := by
  by_cases same : row.id = snapshot.id
  · have row_eq := ids row rowMem snapshot member same
    subst row_eq
    simp [State.Published, State.attest]
  · have distinct : row ≠ snapshot := fun row_eq => same (congrArg RiskSnapshot.id row_eq)
    simp [State.Published, State.attest, Function.update_of_ne same, distinct]

/-- The query's row agrees with the last broadcast. -/
theorem Sound.lastPublished (sound : Sound state) {snapshot last : RiskSnapshot}
    (unpublished : ¬state.Published snapshot)
    (queried : state.IsLastPublished snapshot (some last)) :
    ∃ broadcast ∈ state.broadcasts.head?, SameFigures broadcast last := by
  apply sound.latest last queried.1 queried.2.2.1
  intro other otherMem otherPublished
  exact queried.not_newer unpublished otherMem otherPublished

/-- The query finds nothing only while nothing is published. -/
theorem State.IsLastPublished.not_published {snapshot row : RiskSnapshot}
    (queried : state.IsLastPublished snapshot none) (unpublished : ¬state.Published snapshot)
    (member : row ∈ state.rows) : ¬state.Published row :=
  fun published => queried row member (published.id_ne unpublished) published

/-! ## One step -/

theorem persist_eq_some {target : State} {snapshot : RiskSnapshot}
    (step : next cl wallet minIntervalBlocks state (.persist snapshot) = some target) :
    (¬∃ row ∈ state.rows, row.id = snapshot.id) ∧
      target =
        { state with
          rows := snapshot :: state.rows
          onchainTxId := Function.update state.onchainTxId snapshot.id none } := by
  simp only [next] at step
  split at step
  next => cases step
  next fresh => exact ⟨fresh, (Option.some.inj step).symm⟩

/-- A job finds its row published, publishes it, or skips it. -/
theorem process_eq_some {target : State} {snapshot : RiskSnapshot} {last : Option RiskSnapshot}
    {txId : ℕ}
    (step : next cl wallet minIntervalBlocks state (.process snapshot last txId) = some target) :
    target = state ∨
      snapshot ∈ state.rows ∧ ¬state.Published snapshot ∧ state.IsLastPublished snapshot last ∧
        ((∃ reason args, decision minIntervalBlocks snapshot last = .publish reason ∧
            publish cl (attestationInput wallet snapshot) = .ok args ∧
              target = state.attest snapshot txId) ∨
          ∃ blocksSinceLast interval,
            decision minIntervalBlocks snapshot last = .unchanged blocksSinceLast interval ∧
              target = { state with processed := snapshot :: state.processed }) := by
  simp only [next] at step
  split at step
  next => cases step
  next member =>
    split at step
    next => exact .inl (Option.some.inj step).symm
    next unpublished =>
      split at step
      next => cases step
      next queried =>
        rw [not_not] at member queried
        refine .inr ⟨member, unpublished, queried, ?_⟩
        split at step
        next reason args decided taken =>
          exact .inl ⟨reason, args, decided, taken, (Option.some.inj step).symm⟩
        next => cases step
        next blocksSinceLast interval decided =>
          exact .inr ⟨blocksSinceLast, interval, decided, (Option.some.inj step).symm⟩

/-- An attempt that dies after its broadcast was going to publish its row. -/
theorem crash_eq_some {target : State} {snapshot : RiskSnapshot} {last : Option RiskSnapshot}
    (step : next cl wallet minIntervalBlocks state (.crash snapshot last) = some target) :
    snapshot ∈ state.rows ∧ ¬state.Published snapshot ∧ state.IsLastPublished snapshot last ∧
      (∃ reason args, decision minIntervalBlocks snapshot last = .publish reason ∧
        publish cl (attestationInput wallet snapshot) = .ok args) ∧
      target = { state with broadcasts := snapshot :: state.broadcasts } := by
  simp only [next] at step
  split at step
  next guards =>
    split at step
    next reason args decided taken =>
      exact ⟨guards.1, guards.2.1, guards.2.2, ⟨reason, args, decided, taken⟩,
        (Option.some.inj step).symm⟩
    next => cases step
  next => cases step

theorem Sound.persist (sound : Sound state) {snapshot : RiskSnapshot}
    (fresh : ¬∃ row ∈ state.rows, row.id = snapshot.id) :
    Sound
      { state with
        rows := snapshot :: state.rows
        onchainTxId := Function.update state.onchainTxId snapshot.id none } := by
  have distinct : ∀ row ∈ state.rows, row.id ≠ snapshot.id := fun row member same =>
    fresh ⟨row, member, same⟩
  -- The new row is unpublished, and the others are as before.
  have published_iff : ∀ row, row ∈ snapshot :: state.rows →
      ((Function.update state.onchainTxId snapshot.id none row.id).isSome = true ↔
        row ∈ state.rows ∧ state.Published row) := by
    intro row member
    rcases List.mem_cons.mp member with rfl | old
    · simp only [Function.update_self, Option.isSome_none, Bool.false_eq_true, false_iff, not_and]
      exact fun old => absurd rfl (distinct row old)
    · rw [Function.update_of_ne (distinct row old)]
      exact ⟨fun published => ⟨old, published⟩, fun both => both.2⟩
  constructor
  · exact ⟨sound.figures, sound.sourceBlocks⟩
  · exact eq_of_key_eq_cons sound.ids distinct
  · intro row member published
    rcases (published_iff row member).mp published with ⟨old, published⟩
    exact sound.published_processed row old published
  · exact fun row member => List.mem_cons_of_mem _ (sound.broadcast_rows row member)
  · intro row member published greatest
    rcases (published_iff row member).mp published with ⟨old, published⟩
    apply sound.latest row old published
    intro other otherMem otherPublished
    have kept := List.mem_cons_of_mem snapshot otherMem
    exact greatest other kept ((published_iff other kept).mpr ⟨otherMem, otherPublished⟩)

/-- A skipped snapshot repeats the figures of the last broadcast, so it does not
matter whether it becomes the newest. -/
theorem Sound.skip (sound : Sound state) {snapshot last : RiskSnapshot}
    (unpublished : ¬state.Published snapshot)
    (queried : state.IsLastPublished snapshot (some last)) (same : SameFigures snapshot last) :
    Sound { state with processed := snapshot :: state.processed } := by
  rcases sound.lastPublished unpublished queried with ⟨broadcast, head, agrees⟩
  constructor
  · constructor
    · rintro newest ⟨newestMem, greatest⟩
      rcases List.mem_cons.mp newestMem with rfl | old
      · exact ⟨broadcast, head, agrees.trans same.symm⟩
      · exact sound.figures newest
          ⟨old, fun other otherMem => greatest other (List.mem_cons_of_mem _ otherMem)⟩
    · exact sound.sourceBlocks
  · exact sound.ids
  · exact fun row rowMem published =>
      List.mem_cons_of_mem _ (sound.published_processed row rowMem published)
  · exact sound.broadcast_rows
  · exact sound.latest

/-- When a job in order publishes, the newest row published before is older or
carries the same figures, and its source block is not later. -/
theorem Sound.published_le (sound : Sound state) {snapshot : RiskSnapshot}
    {last : Option RiskSnapshot} {reason : PublishReason}
    (unpublished : ¬state.Published snapshot) (queried : state.IsLastPublished snapshot last)
    (decided : decision minIntervalBlocks snapshot last = .publish reason)
    (fits : (∀ other ∈ state.processed, Newer snapshot other) ∨ Repeats state snapshot)
    {row : RiskSnapshot} (rowMem : row ∈ state.rows) (published : state.Published row)
    (greatest : ∀ other ∈ state.rows, state.Published other → ¬Newer other row) :
    row.sourceBlock ≤ snapshot.sourceBlock ∧
      (Newer snapshot row ∨ SameFigures snapshot row) := by
  rcases fits with newer | ⟨newest, -, isNewest, same⟩
  · have older := newer row (sound.published_processed row rowMem published)
    refine ⟨?_, .inl older⟩
    unfold Newer at older
    omega
  · rcases sound.figures newest isNewest with ⟨broadcast, head, followed⟩
    rcases sound.latest row rowMem published greatest with ⟨broadcast', head', agrees⟩
    cases Option.mem_unique head head'
    have repeats : SameFigures snapshot row := same.trans (followed.symm.trans agrees)
    cases last with
    | none => exact absurd published (queried.not_published unpublished rowMem)
    | some last =>
        rcases sound.lastPublished unpublished queried with ⟨broadcast'', head'', agrees'⟩
        cases Option.mem_unique head head''
        have due := sourceBlock_le_of_publish (same.trans (followed.symm.trans agrees')) decided
        have notNewer := queried.not_newer unpublished rowMem published
        refine ⟨?_, .inr repeats⟩
        unfold Newer at notNewer
        dsimp only [attestedFigures] at due
        omega

/-- No earlier broadcast has a later source block. -/
theorem Sound.broadcasts_le (sound : Sound state) {snapshot : RiskSnapshot}
    {last : Option RiskSnapshot} {reason : PublishReason}
    (unpublished : ¬state.Published snapshot) (queried : state.IsLastPublished snapshot last)
    (decided : decision minIntervalBlocks snapshot last = .publish reason)
    (fits : (∀ other ∈ state.processed, Newer snapshot other) ∨ Repeats state snapshot)
    (behind : BehindNone state snapshot) :
    ∀ earlier ∈ state.broadcasts, earlier.sourceBlock ≤ snapshot.sourceBlock := by
  intro earlier earlierMem
  by_cases published : state.Published earlier
  · have earlierRow := sound.broadcast_rows earlier earlierMem
    cases last with
    | none => exact absurd published (queried.not_published unpublished earlierRow)
    | some last =>
        have notNewer := queried.not_newer unpublished earlierRow published
        have top := (sound.published_le unpublished queried decided fits queried.1
          queried.2.2.1 fun _ => queried.not_newer unpublished).1
        unfold Newer at notNewer
        omega
  · exact behind earlier earlierMem published

/-- A repetition agrees with what the last broadcast carries. -/
theorem Sound.figures_of_repeats (sound : Sound state) {snapshot newest : RiskSnapshot}
    (repeats : Repeats state snapshot) (isNewest : IsNewest state.processed newest) :
    SameFigures snapshot newest := by
  rcases repeats with ⟨newest', -, isNewest', same⟩
  rcases sound.figures newest isNewest with ⟨broadcast, head, followed⟩
  rcases sound.figures newest' isNewest' with ⟨broadcast', head', followed'⟩
  cases Option.mem_unique head head'
  exact same.trans (followed'.symm.trans followed)

/-- A broadcast in order moves the chain to the newest figures. -/
theorem Sound.attest (sound : Sound state) {snapshot : RiskSnapshot}
    {last : Option RiskSnapshot} {txId : ℕ} {reason : PublishReason}
    (member : snapshot ∈ state.rows) (unpublished : ¬state.Published snapshot)
    (queried : state.IsLastPublished snapshot last)
    (decided : decision minIntervalBlocks snapshot last = .publish reason)
    (fits : (∀ other ∈ state.processed, Newer snapshot other) ∨ Repeats state snapshot)
    (behind : BehindNone state snapshot) :
    Sound (state.attest snapshot txId) := by
  have published_iff : ∀ row ∈ state.rows,
      ((state.attest snapshot txId).Published row ↔ row = snapshot ∨ state.Published row) :=
    fun _ => published_attest_iff sound.ids member
  constructor
  · constructor
    · rintro newest ⟨newestMem, greatest⟩
      rcases List.mem_cons.mp newestMem with rfl | old
      · exact ⟨newest, rfl, sameFigures_refl _⟩
      · have isNewest : IsNewest state.processed newest :=
          ⟨old, fun other otherMem => greatest other (List.mem_cons_of_mem _ otherMem)⟩
        rcases fits with newer | repeats
        · exact absurd (newer newest old) (greatest snapshot List.mem_cons_self)
        · exact ⟨snapshot, rfl, sound.figures_of_repeats repeats isNewest⟩
    · have ordered := sound.broadcasts_le unpublished queried decided fits behind
      exact List.pairwise_cons.mpr ⟨ordered, sound.sourceBlocks⟩
  · exact sound.ids
  · intro row rowMem published
    rcases (published_iff row rowMem).mp published with rfl | old
    · exact List.mem_cons_self
    · exact List.mem_cons_of_mem _ (sound.published_processed row rowMem old)
  · exact List.forall_mem_cons.mpr ⟨member, sound.broadcast_rows⟩
  · intro row rowMem published greatest
    refine ⟨snapshot, rfl, ?_⟩
    have notNewer := greatest snapshot member ((published_iff snapshot member).mpr (.inl rfl))
    rcases (published_iff row rowMem).mp published with rfl | old
    · exact sameFigures_refl _
    · have greatestBefore : ∀ other ∈ state.rows, state.Published other → ¬Newer other row :=
        fun other otherMem otherPublished =>
          greatest other otherMem ((published_iff other otherMem).mpr (.inr otherPublished))
      rcases sound.published_le unpublished queried decided fits rowMem old greatestBefore with
        ⟨-, newer | same⟩
      · exact absurd newer notNewer
      · exact same

/-- A broadcast that is not recorded repeats the newest figures, or nothing has been
processed yet. -/
theorem Sound.crash (sound : Sound state) {snapshot : RiskSnapshot} {last : Option RiskSnapshot}
    {reason : PublishReason} (member : snapshot ∈ state.rows)
    (unpublished : ¬state.Published snapshot) (queried : state.IsLastPublished snapshot last)
    (decided : decision minIntervalBlocks snapshot last = .publish reason)
    (first : state.processed = [] ∨ Repeats state snapshot) (behind : BehindNone state snapshot) :
    Sound { state with broadcasts := snapshot :: state.broadcasts } := by
  have fits : (∀ other ∈ state.processed, Newer snapshot other) ∨ Repeats state snapshot := by
    refine first.imp_left fun empty other otherMem => ?_
    rw [empty] at otherMem
    cases otherMem
  have ordered := sound.broadcasts_le unpublished queried decided fits behind
  constructor
  · constructor
    · intro newest isNewest
      rcases first with empty | repeats
      · have newestMem := isNewest.1
        rw [empty] at newestMem
        cases newestMem
      · exact ⟨snapshot, rfl, sound.figures_of_repeats repeats isNewest⟩
    · exact List.pairwise_cons.mpr ⟨ordered, sound.sourceBlocks⟩
  · exact sound.ids
  · exact sound.published_processed
  · exact List.forall_mem_cons.mpr ⟨member, sound.broadcast_rows⟩
  · intro row rowMem published greatest
    refine ⟨snapshot, rfl, ?_⟩
    rcases first with empty | ⟨newest, -, isNewest, same⟩
    · have processed := sound.published_processed row rowMem published
      rw [empty] at processed
      cases processed
    · rcases sound.figures newest isNewest with ⟨broadcast, head, followed⟩
      rcases sound.latest row rowMem published greatest with ⟨broadcast', head', agrees⟩
      cases Option.mem_unique head head'
      exact same.trans (followed.symm.trans agrees)

theorem sound_next {source target : State} {action : Action} (sound : Sound source)
    (inOrder : InOrder source action)
    (step : next cl wallet minIntervalBlocks source action = some target) : Sound target := by
  cases action with
  | persist snapshot =>
      rcases persist_eq_some step with ⟨fresh, rfl⟩
      exact sound.persist fresh
  | process snapshot last txId =>
      rcases process_eq_some step with rfl | ⟨member, unpublished, queried, published | skipped⟩
      · exact sound
      · rcases published with ⟨reason, args, decided, -, rfl⟩
        rcases inOrder unpublished with ⟨fits, behind⟩
        exact sound.attest member unpublished queried decided fits behind
      · rcases skipped with ⟨blocksSinceLast, interval, decided, rfl⟩
        rcases sameFigures_of_unchanged decided with ⟨figures, last_eq, same⟩
        rcases Option.map_eq_some_iff.mp last_eq with ⟨row, rfl, rfl⟩
        exact sound.skip unpublished queried same
  | fail snapshot =>
      cases step
      exact sound
  | crash snapshot last =>
      rcases crash_eq_some step with
        ⟨member, unpublished, queried, ⟨reason, args, decided, -⟩, rfl⟩
      exact sound.crash member unpublished queried decided inOrder.1 inOrder.2

/-- In every run whose jobs come in order, the last broadcast follows the newest
processed snapshot. -/
theorem follows_newest_when_in_order {actions : List Action} {state : State}
    (along : Along (next cl wallet minIntervalBlocks) InOrder State.initial actions)
    (run : exec (next cl wallet minIntervalBlocks) State.initial actions = some state) :
    FollowsNewest state :=
  (along.invariant sound_next run sound_initial).toFollowsNewest

/-! ## Two snapshots in either order -/

/-- A row with a given score; everything else is equal. -/
def scoreRow (id sourceBlock : ℕ) (riskScoreBps : ℤ) : RiskSnapshot where
  id := id
  figures :=
    { riskLevel := .healthy
      riskScoreBps := riskScoreBps
      healthFactorE4 := none
      liquidationDistanceBps := none
      protocolConcentrationBps := 0
      assetConcentrationBps := 0
      liquidityScoreBps := 10000
      capitalAccessibilityBps := 10000 }
  reportHash := zeroDigest.hex
  sourceBlock := sourceBlock
  observedAt := id

/-- The first of two rows. -/
def calmRow : RiskSnapshot :=
  scoreRow 1 100 1000

/-- The second one, a block later. -/
def riskyRow : RiskSnapshot :=
  scoreRow 2 101 9000

/-- The worker of a wallet, with an interval of 120 blocks. -/
abbrev walletNext : Step State Action :=
  next standardEncoder (.standard "SP1") 120

/-- The older job is retried after the newer one. -/
def reorderedJobs : List Action :=
  [.persist calmRow, .persist riskyRow, .fail calmRow, .process riskyRow none 1,
    .process calmRow (some riskyRow) 2]

/-- The same jobs in the order of their snapshots. -/
def orderedJobs : List Action :=
  [.persist calmRow, .persist riskyRow, .process calmRow none 1,
    .process riskyRow (some calmRow) 2]

/-- After the retry the chain shows the calm figures of block 100, while the
newest processed snapshot is the risky one of block 101. -/
theorem reordered_jobs_leave_stale_figures :
    ∃ state, exec walletNext State.initial reorderedJobs = some state ∧ ¬FollowsNewest state := by
  have run : (exec walletNext State.initial reorderedJobs).map
      (fun state => (state.broadcasts, state.processed)) =
        some ([calmRow, riskyRow], [calmRow, riskyRow]) := by
    decide +kernel
  rcases Option.map_eq_some_iff.mp run with ⟨state, run, result⟩
  rcases Prod.mk.inj result with ⟨broadcasts, processed⟩
  refine ⟨state, run, fun follows => ?_⟩
  have backwards := follows.sourceBlocks
  rw [broadcasts] at backwards
  exact absurd backwards (by decide)

theorem follows_newest_when_in_order_two :
    ∃ state, exec walletNext State.initial orderedJobs = some state ∧
      state.broadcasts = [riskyRow, calmRow] ∧ FollowsNewest state := by
  have along : Along walletNext InOrder State.initial orderedJobs := by
    decide +kernel
  have run : (exec walletNext State.initial orderedJobs).map State.broadcasts =
      some [riskyRow, calmRow] := by
    decide +kernel
  rcases Option.map_eq_some_iff.mp run with ⟨state, run, broadcasts⟩
  exact ⟨state, run, broadcasts, follows_newest_when_in_order along run⟩

end RiskRail.Attestation.Worker
