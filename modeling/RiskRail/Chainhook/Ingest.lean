import RiskRail.Chainhook.Parser
import RiskRail.Queue.Core
import RiskRail.Transition.Core

/-!
# Deliveries and refresh jobs

`ChainhookService.ingest` queues a refresh of every tracked wallet that a delivery
mentions, under an id made of the source, the address and the greatest applied
height.  While a job of an earlier delivery with that id is kept, running or
finished, the queue drops the new one, and with it the events of a block that
replaced another at the same height.
-/

namespace RiskRail.Chainhook

open RiskRail.Queue RiskRail.Transition

/-- `\.[a-zA-Z][a-zA-Z0-9-_]{0,39}` or nothing, up to the end. -/
def isContractSuffix : List Char → Bool
  | [] => true
  | '.' :: letter :: name =>
      letter.isAlpha && name.length ≤ 39 && name.all fun char => isWord char || char = '-'
  | _ => false

/-- The shape of a principal, and the check of its address by the Stacks library. -/
def isStacksPrincipal (validateStacksAddress : String → Bool) (value : String) : Bool :=
  match value.toList with
  | 'S' :: kind :: text =>
      let body := text.takeWhile isBase32
      kind ∈ ['P', 'T', 'M', 'N'] && 38 ≤ body.length && body.length ≤ 41 &&
        isContractSuffix (text.dropWhile isBase32) &&
        validateStacksAddress (String.ofList ('S' :: kind :: body))
  | _ => false

/-- The data of a refresh job. -/
structure PortfolioRefreshJob where
  address : String
  correlationId : String
deriving DecidableEq

/-- The id of a refresh; `'na'` where no block was applied. -/
def refreshId (source address : String) (blockHeight : Option ℕ) : String :=
  jobId [some "chainhook", some source, some address,
    some ((blockHeight.map toString).getD "na")]

/-- Whether a block is applied or rolled back. -/
inductive Direction where
  | apply
  | rollback
deriving DecidableEq

/-- The blocks of a delivery, each with its direction. -/
def ChainhookPayload.items (payload : ChainhookPayload) :
    List (Direction × Option BlockIdentifier) :=
  (payload.applied.map fun block => (.apply, block.block_identifier)) ++
    payload.rolledBack.map fun block => (.rollback, block.block_identifier)

/-- The `Wallet` table, the portfolio queue, and what was delivered so far. -/
structure State where
  tracked : List String
  jobs : Jobs PortfolioRefreshJob Unit
  delivered : List (Direction × Option BlockIdentifier)

/-- No wallet, no job and no delivery. -/
def State.initial : State where
  tracked := []
  jobs := .empty
  delivered := []

/-- What users, deliveries and the queue do. -/
inductive Action where
  /-- A wallet row is created. -/
  | track (address : String)
  /-- A refresh that a user requests. -/
  | requestRefresh (address correlationId : String)
  /-- An accepted delivery; every job gets a correlation id of its own. -/
  | ingest (source : String) (payload : ChainhookPayload) (correlationIds : String → String)
  | start (id : String)
  | complete (id : String)
  | fail (id : String)
  | expire (id : String)

variable (validateStacksAddress : String → Bool)

/-- The tracked wallets among the affected ones. -/
def State.known (state : State) (payload : ChainhookPayload) : List String :=
  let candidates :=
    (extractAffected payload).addresses.filter (isStacksPrincipal validateStacksAddress)
  state.tracked.filter fun address => address ∈ candidates

/-- One turn of the loop over the known wallets. -/
def queueRefresh (source : String) (blockHeight : Option ℕ) (correlationIds : String → String)
    (jobs : Jobs PortfolioRefreshJob Unit) (address : String) : Jobs PortfolioRefreshJob Unit :=
  jobs.add (refreshId source address blockHeight) ⟨address, correlationIds address⟩

/-- The jobs move; the tables stay. -/
def State.setJobs (state : State) (jobs : Jobs PortfolioRefreshJob Unit) : State :=
  { state with jobs }

/-- One step of a user, a delivery or a job. -/
def next : Step State Action
  | state, .track address =>
      if isStacksPrincipal validateStacksAddress address then
        some { state with tracked := address :: state.tracked }
      else
        none
  | state, .requestRefresh address correlationId =>
      some (state.setJobs
        (state.jobs.add (jobId [some "portfolio", some correlationId]) ⟨address, correlationId⟩))
  | state, .ingest source payload correlationIds =>
      some
        { state with
          jobs := (state.known validateStacksAddress payload).foldl
            (queueRefresh source (extractAffected payload).blockHeight correlationIds) state.jobs
          delivered := payload.items ++ state.delivered }
  | state, .start id => (state.jobs.modify id (Job.start ())).map state.setJobs
  | state, .complete id => (state.jobs.modify id (Job.complete fun _ => True)).map state.setJobs
  | state, .fail id => (state.jobs.modify id Job.fail).map state.setJobs
  | state, .expire id => (state.jobs.expire id).map state.setJobs

/-- A delivery carries a block that was not delivered before. -/
def State.IsNew (state : State) (payload : ChainhookPayload) : Prop :=
  ∃ item ∈ payload.items, item ∉ state.delivered

/-- The delivery names the wallet in one of its blocks. -/
def ChainhookPayload.Names (payload : ChainhookPayload) (address : String) : Prop :=
  ∃ block ∈ payload.applied ++ payload.rolledBack, block.Mentions address

/-- The wallet has a refresh job that has not yet started executing. -/
def State.HasUnstarted (state : State) (address : String) : Prop :=
  ∃ id, ∃ job ∈ state.jobs id,
    job.data.address = address ∧ job.phase = .waiting ∧ job.attemptsMade = 0

/-- After a delivery with a new block, every tracked wallet it names has a refresh
job that has not yet started. -/
def NothingSwallowed (state : State) : Action → Prop
  | .ingest source payload correlationIds =>
      state.IsNew payload → ∀ target,
        next validateStacksAddress state (.ingest source payload correlationIds) = some target →
          ∀ address ∈ state.tracked, payload.Names address → target.HasUnstarted address
  | _ => True

/-- At a delivery with a new block, the job id of every tracked wallet it names is
free, or a refresh job of the wallet has not yet started. -/
def FreeOrUnstarted (state : State) : Action → Prop
  | .ingest source payload _ =>
      state.IsNew payload → ∀ address ∈ state.tracked, payload.Names address →
        state.jobs (refreshId source address (extractAffected payload).blockHeight) = none ∨
          state.HasUnstarted address
  | _ => True

/-! ## Ids of refreshes -/

theorem plain_of_isBase32 {principal : String}
    (account : principal ≠ "" ∧ ∀ char ∈ principal.toList, isBase32 char = true) :
    Plain principal :=
  ⟨account.1, fun member => absurd (account.2 ':' member) (by decide)⟩

theorem plain_height (blockHeight : Option ℕ) :
    Plain ((blockHeight.map toString).getD "na") := by
  cases blockHeight with
  | none => exact ⟨by decide, by decide⟩
  | some height => exact plain_toString height

/-- Within one delivery, wallets have different ids. -/
theorem refreshId_inj {source first second : String} {blockHeight : Option ℕ}
    (firstPlain : Plain first) (secondPlain : Plain second)
    (same : refreshId source first blockHeight = refreshId source second blockHeight) :
    first = second := by
  have name : Plain "chainhook" := ⟨by decide, by decide⟩
  have height := plain_height blockHeight
  unfold refreshId at same
  by_cases empty : source = "" <;>
    simpa [jobId, empty, name.kept, firstPlain.1, firstPlain.kept, secondPlain.1, secondPlain.kept,
      height.1, height.kept] using same

/-! ## What a delivery queues -/

variable {validateStacksAddress : String → Bool} {source : String} {blockHeight : Option ℕ}
  {correlationIds : String → String} {jobs : Jobs PortfolioRefreshJob Unit}

/-- The jobs of earlier deliveries stay as they are. -/
theorem foldl_queueRefresh_of_some {id : String} {job : Job PortfolioRefreshJob Unit}
    (addresses : List String) (found : jobs id = some job) :
    addresses.foldl (queueRefresh source blockHeight correlationIds) jobs id = some job := by
  induction addresses generalizing jobs with
  | nil => exact found
  | cons address addresses ih => exact ih (Jobs.add_of_some found)

/-- A job after the loop was there before, or is one of its own under a free id. -/
theorem foldl_queueRefresh_cases {id : String} {job : Job PortfolioRefreshJob Unit}
    (addresses : List String)
    (found : addresses.foldl (queueRefresh source blockHeight correlationIds) jobs id = some job) :
    jobs id = some job ∨
      jobs id = none ∧ id = refreshId source job.data.address blockHeight := by
  cases before : jobs id with
  | some old =>
      rw [foldl_queueRefresh_of_some addresses before] at found
      exact .inl found
  | none =>
      apply Or.inr
      refine ⟨rfl, ?_⟩
      induction addresses generalizing jobs with
      | nil =>
          rw [List.foldl_nil, before] at found
          cases found
      | cons address addresses ih =>
          by_cases same : id = refreshId source address blockHeight
          · have added : queueRefresh source blockHeight correlationIds jobs address id =
                some (.added ⟨address, correlationIds address⟩) := by
              rw [same] at before ⊢
              exact Jobs.add_of_none before
            rw [List.foldl_cons, foldl_queueRefresh_of_some addresses added] at found
            cases found
            exact same
          · exact ih found ((Jobs.add_of_ne same).trans before)

/-- A wallet whose id is free gets a job. -/
theorem foldl_queueRefresh_of_free {address : String} {addresses : List String}
    (plain : ∀ address ∈ addresses, Plain address) (member : address ∈ addresses)
    (free : jobs (refreshId source address blockHeight) = none) :
    addresses.foldl (queueRefresh source blockHeight correlationIds) jobs
        (refreshId source address blockHeight) =
      some (.added ⟨address, correlationIds address⟩) := by
  induction addresses generalizing jobs with
  | nil => cases member
  | cons first addresses ih =>
      by_cases same : address = first
      · subst same
        exact foldl_queueRefresh_of_some addresses (Jobs.add_of_none free)
      · have differs : refreshId source address blockHeight ≠ refreshId source first blockHeight :=
          fun equal => same (refreshId_inj (plain address member) (plain first List.mem_cons_self)
            equal)
        apply ih (fun address member => plain address (List.mem_cons_of_mem _ member))
          ((List.mem_cons.mp member).resolve_left same)
        exact (Jobs.add_of_ne differs).trans free

variable {state target : State} {payload : ChainhookPayload}

theorem ChainhookPayload.Names.plain {address : String} (names : payload.Names address) :
    Plain address := by
  rcases names with ⟨block, -, transactions, -, mentions⟩
  exact plain_of_isBase32 mentions.isBase32

/-- The known wallets are the tracked ones that the delivery names. -/
theorem mem_known_iff (valid : ∀ address ∈ state.tracked,
      isStacksPrincipal validateStacksAddress address = true) {address : String} :
    address ∈ state.known validateStacksAddress payload ↔
      address ∈ state.tracked ∧ payload.Names address := by
  simp only [State.known, List.mem_filter, decide_eq_true_eq, mem_extractAffected_iff,
    ChainhookPayload.Names]
  constructor
  · rintro ⟨tracked, named, -⟩
    exact ⟨tracked, named⟩
  · rintro ⟨tracked, named⟩
    exact ⟨tracked, named, valid address tracked⟩

/-- A wallet that a delivery names has an unstarted job afterwards exactly if its id
was free or it had one before. -/
theorem hasUnstarted_ingest_iff (valid : ∀ address ∈ state.tracked,
      isStacksPrincipal validateStacksAddress address = true) {address : String}
    (tracked : address ∈ state.tracked) (names : payload.Names address)
    (step : next validateStacksAddress state (.ingest source payload correlationIds) =
      some target) :
    target.HasUnstarted address ↔
      state.jobs (refreshId source address (extractAffected payload).blockHeight) = none ∨
        state.HasUnstarted address := by
  cases step
  constructor
  · rintro ⟨id, job, found, rfl, unstarted⟩
    rcases foldl_queueRefresh_cases _ found with before | ⟨free, rfl⟩
    · exact .inr ⟨id, job, before, rfl, unstarted⟩
    · exact .inl free
  · rintro (free | ⟨id, job, found, unstarted⟩)
    · refine ⟨_, _, foldl_queueRefresh_of_free ?_ ?_ free, rfl, rfl, rfl⟩
      · intro other member
        exact ((mem_known_iff valid).mp member).2.plain
      · exact (mem_known_iff valid).mpr ⟨tracked, names⟩
    · exact ⟨id, job, foldl_queueRefresh_of_some _ found, unstarted⟩

theorem nothingSwallowed_iff (valid : ∀ address ∈ state.tracked,
      isStacksPrincipal validateStacksAddress address = true) {action : Action} :
    NothingSwallowed validateStacksAddress state action ↔ FreeOrUnstarted state action := by
  cases action with
  | ingest source payload correlationIds =>
      constructor
      · intro queued isNew address tracked names
        exact (hasUnstarted_ingest_iff valid tracked names rfl).mp
          (queued isNew _ rfl address tracked names)
      · intro free isNew target step address tracked names
        exact (hasUnstarted_ingest_iff valid tracked names step).mpr
          (free isNew address tracked names)
  | _ => exact Iff.rfl

/-- Tracked wallets are principals. -/
theorem valid_step {action : Action} (valid : ∀ address ∈ state.tracked,
      isStacksPrincipal validateStacksAddress address = true)
    (step : next validateStacksAddress state action = some target) :
    ∀ address ∈ target.tracked, isStacksPrincipal validateStacksAddress address = true := by
  cases action with
  | track address =>
      simp only [next] at step
      split at step
      next isPrincipal =>
        cases step
        intro other member
        rcases List.mem_cons.mp member with rfl | member
        · exact isPrincipal
        · exact valid other member
      next => cases step
  | requestRefresh | ingest =>
      cases step
      exact valid
  | start | complete | fail | expire =>
      rcases Option.map_eq_some_iff.mp step with ⟨jobs, -, rfl⟩
      exact valid

/-- No chain event is swallowed in exactly those runs in which, at each delivery
with a new block, the job id of every tracked wallet it names is free or a
refresh job of the wallet has not yet started. -/
theorem nothing_swallowed_iff_free_or_unstarted (validateStacksAddress : String → Bool)
    (actions : List Action) :
    Along (next validateStacksAddress) (NothingSwallowed validateStacksAddress) .initial actions ↔
      Along (next validateStacksAddress) FreeOrUnstarted .initial actions := by
  apply along_iff_of_invariant fun state : State =>
    ∀ address ∈ state.tracked, isStacksPrincipal validateStacksAddress address = true
  · intro state action valid _
    exact nothingSwallowed_iff valid
  · intro state action disabled
    cases action with
    | ingest => cases disabled
    | _ => exact Iff.rfl
  · intro source target action valid _ step
    exact valid_step valid step
  · intro address member
    cases member

/-! ## A block replaced at its height -/

/-- A wallet that is tracked. -/
def wallet : String :=
  "SP2J6ZY48GV1EZ5V2V5RB9MP66SW86PYKKNRV9EJ7"

/-- A block of height 100 with one transaction of the wallet. -/
def blockAt100 (hash : String) : ChainhookBlock where
  block_identifier := some { index := some 100, hash := some hash }
  transactions := some [.object [("metadata", .object [("sender", .string wallet)])]]

/-- A delivery that applies a block. -/
def firstDelivery : ChainhookPayload where
  apply := some [blockAt100 "0xa"]
  rollback := none
  event := none

/-- The block is rolled back and another one applied in its place. -/
def reorgDelivery : ChainhookPayload where
  apply := none
  rollback := none
  event := some { apply := some [blockAt100 "0xb"], rollback := some [blockAt100 "0xa"] }

/-- The job that it queues for the wallet. -/
def walletRefresh : String :=
  refreshId "protocol" wallet (some 100)

/-- The refresh of the first delivery is done and still kept. -/
def retainedState : State where
  tracked := [wallet]
  jobs := Function.update Jobs.empty walletRefresh
    (some { data := ⟨wallet, "uuid-1"⟩, attemptsMade := 0, phase := .completed })
  delivered := firstDelivery.items

theorem exec_retained :
    exec (next fun _ => true) .initial
      [.track wallet, .ingest "protocol" firstDelivery fun _ => "uuid-1", .start walletRefresh,
        .complete walletRefresh] = some retainedState := by
  have isPrincipal : isStacksPrincipal (fun _ => true) wallet = true := by
    decide +kernel
  have known : State.known (fun _ => true) ⟨[wallet], .empty, []⟩ firstDelivery = [wallet] := by
    decide +kernel
  simp [exec, next, isPrincipal, State.initial, known, queueRefresh, Jobs.add, Jobs.empty,
    State.setJobs, Jobs.modify, Job.start, Job.added, Job.complete, retainedState, walletRefresh,
    show (extractAffected firstDelivery).blockHeight = some 100 from rfl]

/-- After the reorg no refresh of the wallet is left to run: its job would have the
id of the one that is done. -/
theorem reorg_swallowed :
    let step := next fun _ => true
    ∃ state target,
      exec step .initial
        [.track wallet, .ingest "protocol" firstDelivery fun _ => "uuid-1", .start walletRefresh,
          .complete walletRefresh] = some state ∧
      step state (.ingest "protocol" reorgDelivery fun _ => "uuid-2") = some target ∧
      state.IsNew reorgDelivery ∧ wallet ∈ state.tracked ∧ reorgDelivery.Names wallet ∧
      ¬target.HasUnstarted wallet := by
  have isPrincipal : isStacksPrincipal (fun _ => true) wallet = true := by
    decide +kernel
  have named : wallet ∈ (extractAffected reorgDelivery).addresses := by
    decide +kernel
  have names : reorgDelivery.Names wallet := mem_extractAffected_iff.mp named
  have valid : ∀ address ∈ retainedState.tracked,
      isStacksPrincipal (fun _ => true) address = true := by
    simpa [retainedState] using isPrincipal
  refine ⟨retainedState, _, exec_retained, rfl, ?_, List.mem_singleton_self _, names, ?_⟩
  · exact ⟨(.apply, some ⟨some 100, some "0xb"⟩), by decide +kernel, by decide +kernel⟩
  · rw [hasUnstarted_ingest_iff valid (List.mem_singleton_self _) names rfl]
    rintro (free | ⟨id, job, found, -, waiting, -⟩)
    · have taken : retainedState.jobs walletRefresh ≠ none := by
        simp [retainedState]
      exact taken free
    · by_cases same : id = walletRefresh
      · simp only [retainedState, same, Function.update_self] at found
        cases found
        cases waiting
      · simp only [retainedState, Function.update_of_ne same] at found
        cases found

end RiskRail.Chainhook
