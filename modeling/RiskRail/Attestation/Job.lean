import RiskRail.Attestation.Publishable
import RiskRail.Attestation.Throttle
import RiskRail.Queue.Core
import RiskRail.Transition.Core

/-!
# Attestation jobs

The attestation job of one risk snapshot, step by step.  An attempt reads the row,
compares it with the wallet's last published one, broadcasts a transaction and
only then stores its id, so what the next attempt does depends on where this one
ended.  Attempts throw, and the process dies, between any two steps.
-/

namespace RiskRail.Attestation

open RiskRail.Clarity RiskRail.Registry RiskRail.Database RiskRail.Queue RiskRail.Transition

namespace Job

/-- What a finished attempt returns. -/
inductive Outcome where
  | publisherDisabled
  | alreadyPublished (txId : ℕ)
  | unchanged
  | broadcast (txId : ℕ)
deriving DecidableEq

/-- How far an attempt has come. -/
inductive Progress where
  | started
  | configured
  /-- The row was read, without a transaction id. -/
  | read
  | decided (reason : PublishReason)
  /-- The node has the transaction, the worker not yet its answer. -/
  | accepted (txId : ℕ)
  /-- `publish` returned the transaction id. -/
  | answered (txId : ℕ)
  | returned (outcome : Outcome)
deriving DecidableEq

/-- The data of an attestation job. -/
structure RiskAttestationJob where
  riskSnapshotId : ℕ
deriving DecidableEq

/-- The job, the `onchainTxId` of its row, and the transactions broadcast for it,
newest first. -/
structure State where
  job : Queue.Job RiskAttestationJob Progress
  onchainTxId : Option ℕ
  broadcasts : List (ℕ × PublishArgs)

/-- A risk job inserts its snapshot and queues the attestation. -/
def State.initial (snapshot : RiskSnapshot) : State where
  job := .added ⟨snapshot.id⟩
  onchainTxId := none
  broadcasts := []

/-- What an attempt and its process do. -/
inductive Action where
  | start
  | configure (enabled : Bool)
  | read
  /-- The query for the last published row answers. -/
  | compare (last : Option RiskSnapshot)
  | broadcast (txId : ℕ)
  | answer
  | mark
  | complete
  /-- The attempt throws, wherever it is. -/
  | fail
  /-- The process dies, and the queue takes the stalled job up again or gives up. -/
  | die (again : Bool)

/-- The publisher is configured, or the attempt has nothing to do. -/
def Progress.configure (enabled : Bool) : RiskAttestationJob → Progress → Option Progress
  | _, .started => some (if enabled then .configured else .returned .publisherDisabled)
  | _, _ => none

/-- The row has a transaction id already, or not. -/
def Progress.afterRead (onchainTxId : Option ℕ) : RiskAttestationJob → Progress → Option Progress
  | _, .configured =>
      match onchainTxId with
      | some txId => some (.returned (.alreadyPublished txId))
      | none => some .read
  | _, _ => none

/-- The throttle lets the row through, or not. -/
def Progress.afterDecision (decision : AttestationDecision) :
    RiskAttestationJob → Progress → Option Progress
  | _, .read =>
      match decision with
      | .publish reason => some (.decided reason)
      | .unchanged _ _ => some (.returned .unchanged)
  | _, _ => none

/-- The transaction id arrives. -/
def Progress.afterAnswer : RiskAttestationJob → Progress → Option Progress
  | _, .accepted txId => some (.answered txId)
  | _, _ => none

/-- The attempt has returned. -/
def Progress.Returned : Progress → Prop
  | .returned _ => True
  | _ => False

instance : DecidablePred Progress.Returned
  | .started | .configured | .read | .decided _ | .accepted _ | .answered _ => isFalse id
  | .returned _ => isTrue trivial

/-- The job moves; the row and the broadcasts stay. -/
def State.setJob (state : State) (job : Queue.Job RiskAttestationJob Progress) : State :=
  { state with job }

/-- The node accepts the transaction of an attempt that decided to publish. -/
def State.broadcast (cl : ClarityEncoder) (wallet : Principal) (snapshot : RiskSnapshot)
    (state : State) (txId : ℕ) : Option State :=
  match state.job.phase, publish cl (attestationInput wallet snapshot) with
  | .active (.decided _), .ok args =>
      some
        { state with
          job := { state.job with phase := .active (.accepted txId) }
          broadcasts := (txId, args) :: state.broadcasts }
  | _, _ => none

/-- `markRiskSnapshotPublished`. -/
def State.mark (state : State) : Option State :=
  match state.job.phase with
  | .active (.answered txId) =>
      some
        { state with
          job := { state.job with phase := .active (.returned (.broadcast txId)) }
          onchainTxId := some txId }
  | _ => none

/-- The running attempt ends with its process. -/
def State.die (state : State) (again : Bool) : Option State :=
  match state.job.phase with
  | .active _ =>
      some (state.setJob { state.job with phase := if again then .waiting else .failed })
  | _ => none

/-- One step of the job. -/
def next (cl : ClarityEncoder) (wallet : Principal) (snapshot : RiskSnapshot)
    (minIntervalBlocks : ℕ) : Step State Action
  | state, .start => (state.job.start .started).map state.setJob
  | state, .configure enabled =>
      (state.job.advance (Progress.configure enabled)).map state.setJob
  | state, .read => (state.job.advance (Progress.afterRead state.onchainTxId)).map state.setJob
  | state, .compare last =>
      (state.job.advance <| Progress.afterDecision <|
        decideAttestation (attestedFigures snapshot) (last.map attestedFigures)
          minIntervalBlocks).map state.setJob
  | state, .broadcast txId => state.broadcast cl wallet snapshot txId
  | state, .answer => (state.job.advance Progress.afterAnswer).map state.setJob
  | state, .mark => state.mark
  | state, .complete => (state.job.complete Progress.Returned).map state.setJob
  | state, .fail => state.job.fail.map state.setJob
  | state, .die again => state.die again

/-- At most one transaction was broadcast for the snapshot. -/
def AttestedOnce (state : State) : Prop :=
  state.broadcasts.length ≤ 1

instance (state : State) : Decidable (AttestedOnce state) :=
  inferInstanceAs (Decidable (_ ≤ _))

/-! ## Attempts that end before their transaction id is stored -/

/-- The node has a transaction whose id is not stored. -/
def Unstored : JobPhase Progress → Prop
  | .active (.accepted _) | .active (.answered _) => True
  | _ => False

instance (phase : JobPhase Progress) : Decidable (Unstored phase) := by
  unfold Unstored
  split <;> infer_instance

/-- An attempt whose transaction id is not stored ends only if it is the last. -/
def EndsStored (state : State) : Action → Prop
  | .fail => Unstored state.job.phase → attempts ≤ state.job.attemptsMade + 1
  | .die again => Unstored state.job.phase → again = false
  | _ => True

instance (state : State) (action : Action) : Decidable (EndsStored state action) := by
  cases action <;> unfold EndsStored <;> infer_instance

/-- What the next read of the row will find tells whether it was attested. -/
def Known (state : State) : Prop :=
  state.broadcasts = [] ∨ state.onchainTxId.isSome = true

/-- What such runs keep true in each phase. -/
def PhaseHolds (state : State) : JobPhase Progress → Prop
  | .waiting | .active .started | .active .configured | .active (.returned _)
  | .completed => AttestedOnce state ∧ Known state
  | .active .read | .active (.decided _) => state.broadcasts = []
  | .active (.accepted _) | .active (.answered _) | .failed => AttestedOnce state

variable {cl : ClarityEncoder} {wallet : Principal} {snapshot : RiskSnapshot}
  {minIntervalBlocks : ℕ} {state target : State}

theorem attestedOnce_of_phaseHolds {phase : JobPhase Progress} (holds : PhaseHolds state phase) :
    AttestedOnce state := by
  unfold PhaseHolds at holds
  split at holds
  case h_6 | h_7 =>
    unfold AttestedOnce
    rw [holds]
    exact Nat.zero_le 1
  all_goals first | exact holds.1 | exact holds

/-- An attempt that has stored what it broadcast leaves the row telling. -/
theorem known_of_phaseHolds {phase : JobPhase Progress} {progress : Progress}
    (running : phase = .active progress) (stored : ¬Unstored phase)
    (holds : PhaseHolds state phase) : Known state := by
  subst running
  cases progress with
  | started | configured | returned _ => exact holds.2
  | read | decided _ => exact .inl holds
  | accepted _ | answered _ => exact absurd trivial stored

@[simp]
theorem phaseHolds_setJob {job : Queue.Job RiskAttestationJob Progress}
    {phase : JobPhase Progress} :
    PhaseHolds (state.setJob job) phase ↔ PhaseHolds state phase :=
  Iff.rfl

/-- A step inside an attempt, that sends and stores nothing. -/
theorem phaseHolds_advance {change : RiskAttestationJob → Progress → Option Progress}
    (holds : PhaseHolds state state.job.phase)
    (kept : ∀ data progress advanced, change data progress = some advanced →
      PhaseHolds state (.active progress) → PhaseHolds state (.active advanced))
    (step : (state.job.advance change).map state.setJob = some target) :
    PhaseHolds target target.job.phase := by
  rcases Option.map_eq_some_iff.mp step with ⟨job, advanced, rfl⟩
  rcases Queue.Job.advance_eq_some advanced with ⟨progress, next, running, change_eq, rfl⟩
  rw [running] at holds
  exact phaseHolds_setJob.mpr (kept _ progress next change_eq holds)

theorem phaseHolds_configure {enabled : Bool} {data : RiskAttestationJob}
    {progress advanced : Progress} (change : progress.configure enabled data = some advanced)
    (holds : PhaseHolds state (.active progress)) : PhaseHolds state (.active advanced) := by
  cases progress with
  | started => cases enabled <;> cases change <;> exact holds
  | _ => cases change

/-- The read finds the id of what was broadcast, or nothing was. -/
theorem phaseHolds_afterRead {data : RiskAttestationJob} {progress advanced : Progress}
    (change : progress.afterRead state.onchainTxId data = some advanced)
    (holds : PhaseHolds state (.active progress)) : PhaseHolds state (.active advanced) := by
  cases progress with
  | configured =>
      cases stored : state.onchainTxId with
      | none =>
          rw [stored] at change
          cases change
          apply holds.2.resolve_right
          simp [stored]
      | some txId =>
          rw [stored] at change
          cases change
          exact holds
  | _ => cases change

theorem phaseHolds_afterDecision {decision : AttestationDecision} {data : RiskAttestationJob}
    {progress advanced : Progress}
    (change : progress.afterDecision decision data = some advanced)
    (holds : PhaseHolds state (.active progress)) : PhaseHolds state (.active advanced) := by
  cases progress with
  | read =>
      cases decision with
      | publish reason =>
          cases change
          exact holds
      | unchanged _ _ =>
          cases change
          exact ⟨attestedOnce_of_phaseHolds holds, .inl holds⟩
  | _ => cases change

theorem phaseHolds_afterAnswer {data : RiskAttestationJob} {progress advanced : Progress}
    (change : progress.afterAnswer data = some advanced)
    (holds : PhaseHolds state (.active progress)) : PhaseHolds state (.active advanced) := by
  cases progress with
  | accepted txId =>
      cases change
      exact holds
  | _ => cases change

theorem phaseHolds_broadcast {txId : ℕ} (holds : PhaseHolds state state.job.phase)
    (step : state.broadcast cl wallet snapshot txId = some target) :
    PhaseHolds target target.job.phase := by
  unfold State.broadcast at step
  split at step
  next reason args running built =>
    cases step
    rw [running] at holds
    have nothing : state.broadcasts = [] := holds
    show AttestedOnce _
    simp [AttestedOnce, nothing]
  next => cases step

theorem phaseHolds_mark (holds : PhaseHolds state state.job.phase)
    (step : state.mark = some target) : PhaseHolds target target.job.phase := by
  unfold State.mark at step
  split at step
  next txId running =>
    cases step
    rw [running] at holds
    exact ⟨holds, .inr rfl⟩
  next => cases step

/-- An attempt that ends is taken up again only from a row that tells. -/
theorem phaseHolds_again {phase : JobPhase Progress} {again : Prop} [Decidable again]
    {progress : Progress} (running : state.job.phase = .active progress)
    (holds : PhaseHolds state state.job.phase)
    (stored : again → ¬Unstored state.job.phase)
    (ended : phase = if again then .waiting else .failed) : PhaseHolds state phase := by
  have once := attestedOnce_of_phaseHolds holds
  by_cases retried : again
  · rw [ended, if_pos retried]
    exact ⟨once, known_of_phaseHolds running (stored retried) holds⟩
  · rw [ended, if_neg retried]
    exact once

/-- What such runs keep true. -/
def Sound (state : State) : Prop :=
  PhaseHolds state state.job.phase

/-- One step of a run in which attempts end stored. -/
theorem sound_next {action : Action} (holds : Sound state) (stored : EndsStored state action)
    (step : next cl wallet snapshot minIntervalBlocks state action = some target) :
    Sound target := by
  cases action with
  | start =>
      rcases Option.map_eq_some_iff.mp step with ⟨job, started, rfl⟩
      rcases Queue.Job.start_eq_some started with ⟨waiting, rfl⟩
      unfold Sound at holds
      rw [waiting] at holds
      exact holds
  | configure enabled =>
      exact phaseHolds_advance holds (fun _ _ _ => phaseHolds_configure) step
  | read => exact phaseHolds_advance holds (fun _ _ _ => phaseHolds_afterRead) step
  | compare last => exact phaseHolds_advance holds (fun _ _ _ => phaseHolds_afterDecision) step
  | broadcast txId => exact phaseHolds_broadcast holds step
  | answer => exact phaseHolds_advance holds (fun _ _ _ => phaseHolds_afterAnswer) step
  | mark => exact phaseHolds_mark holds step
  | complete =>
      rcases Option.map_eq_some_iff.mp step with ⟨job, completed, rfl⟩
      rcases Queue.Job.complete_eq_some completed with ⟨progress, running, returned, rfl⟩
      unfold Sound at holds
      rw [running] at holds
      cases progress with
      | returned outcome => exact holds
      | _ => cases returned
  | fail =>
      rcases Option.map_eq_some_iff.mp step with ⟨job, failed, rfl⟩
      unfold Queue.Job.fail at failed
      split at failed
      next progress running =>
        cases failed
        apply phaseHolds_setJob.mpr
        exact phaseHolds_again running holds
          (fun more unstored => absurd more (not_lt.mpr (stored unstored))) rfl
      next => cases failed
  | die again =>
      change state.die again = some target at step
      unfold State.die at step
      split at step
      next progress running =>
        cases step
        apply phaseHolds_setJob.mpr
        exact phaseHolds_again running holds
          (fun retried unstored => absurd (stored unstored) (by simp [retried])) rfl
      next => cases step

/-- In a run in which only a last attempt ends between the broadcast and the
stored transaction id, the snapshot is attested at most once. -/
theorem attestedOnce_when_stored {actions : List Action}
    (run : exec (next cl wallet snapshot minIntervalBlocks) (.initial snapshot) actions =
      some target)
    (stored : Along (next cl wallet snapshot minIntervalBlocks) EndsStored (.initial snapshot)
      actions) : AttestedOnce target := by
  have initial : Sound (.initial snapshot) := ⟨Nat.zero_le 1, .inl rfl⟩
  exact attestedOnce_of_phaseHolds (stored.invariant sound_next run initial)

/-! ## A database update that fails -/

/-- A row that can be published. -/
def healthyRow : RiskSnapshot where
  id := 1
  figures :=
    { riskLevel := .healthy
      riskScoreBps := 1000
      healthFactorE4 := none
      liquidationDistanceBps := none
      protocolConcentrationBps := 0
      assetConcentrationBps := 10000
      liquidityScoreBps := 10000
      capitalAccessibilityBps := 10000 }
  reportHash := zeroDigest.hex
  sourceBlock := 100
  observedAt := 1

/-- An attempt that decides to publish, up to the node's answer. -/
def sending (txId : ℕ) : List Action :=
  [.start, .configure true, .read, .compare none, .broadcast txId, .answer]

/-- The update of the first attempt fails, and the second broadcasts again. -/
def unstoredUpdate : List Action :=
  sending 1 ++ [.fail] ++ sending 2 ++ [.mark, .complete]

/-- The first attempt cannot reach the database, the second succeeds. -/
def storedUpdate : List Action :=
  [.start, .configure true, .fail] ++ sending 1 ++ [.mark, .complete]

/-- After one failed update the node has two transactions of the snapshot. -/
theorem failed_update_attests_twice :
    ∃ state ∈ exec (next standardEncoder (.standard "SP1") healthyRow 120) (.initial healthyRow)
        unstoredUpdate,
      state.broadcasts.map Prod.fst = [2, 1] ∧ ¬AttestedOnce state := by
  decide +kernel

theorem attestedOnce_when_stored_retry :
    ∃ state, exec (next standardEncoder (.standard "SP1") healthyRow 120) (.initial healthyRow)
        storedUpdate = some state ∧
      state.broadcasts.map Prod.fst = [1] ∧ AttestedOnce state := by
  have stored : Along (next standardEncoder (.standard "SP1") healthyRow 120) EndsStored
      (.initial healthyRow) storedUpdate := by
    decide +kernel
  have run : ∃ state ∈ exec (next standardEncoder (.standard "SP1") healthyRow 120)
      (.initial healthyRow) storedUpdate, state.broadcasts.map Prod.fst = [1] := by
    decide +kernel
  rcases run with ⟨state, run, broadcast⟩
  exact ⟨state, run, broadcast, attestedOnce_when_stored run stored⟩

end Job

end RiskRail.Attestation
