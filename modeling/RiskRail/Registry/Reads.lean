import RiskRail.Registry.Freshness

/-!
# The reads of the risk registry agree

Ten read-only functions reach a wallet's latest snapshot through their own chain
of matches.  Here the two that subtract heights are evaluated as Clarity does, so
that a difference below zero would abort them, and all of them are compared with
`get-latest-risk` in every reachable state.
-/

namespace RiskRail.Registry

open RiskRail.Clarity RiskRail.Transition

/-! ## Reads with checked arithmetic -/

namespace Read

/-- `none` is a runtime error.  `and` evaluates the difference only after the
comparison has answered true. -/
def isFresh (publishedAt maxAgeBlocks : Uint) (env : Env) : Option Bool :=
  if publishedAt ≤ env.stacksBlockHeight then
    (env.stacksBlockHeight.sub publishedAt).map fun age => decide (age ≤ maxAgeBlocks)
  else
    some false

/-- `get-risk-if-fresh`, where `none` is a runtime error. -/
def getRiskIfFresh (wallet : Principal) (maxAgeBlocks : Uint) (env : Env) (state : State) :
    Option (Option LatestRisk) :=
  match state.latestSnapshotId wallet with
  | none => some none
  | some id =>
      match state.riskSnapshots (wallet, id) with
      | none => some none
      | some snapshot =>
          (isFresh snapshot.publishedAt maxAgeBlocks env).map fun fresh =>
            if fresh then some ⟨id, snapshot⟩ else none

/-- `is-snapshot-fresh`, where `none` is a runtime error. -/
def isSnapshotFresh (wallet : Principal) (maxAgeBlocks : Uint) (env : Env) (state : State) :
    Option Bool :=
  match getLatestSnapshot wallet state with
  | none => some false
  | some snapshot => isFresh snapshot.publishedAt maxAgeBlocks env

/-- The guarded difference never aborts. -/
theorem isFresh_eq (publishedAt maxAgeBlocks : Uint) (env : Env) :
    isFresh publishedAt maxAgeBlocks env =
      some (decide (Registry.isFresh publishedAt maxAgeBlocks env)) := by
  unfold isFresh
  split
  · rename_i ordered
    rw [Uint.sub_of_le ordered, Option.map_some]
    exact congrArg some (decide_eq_decide.mpr (and_iff_right ordered).symm)
  · rename_i future
    exact congrArg some (decide_eq_false fun fresh => future fresh.1).symm

theorem getRiskIfFresh_eq (wallet : Principal) (maxAgeBlocks : Uint) (env : Env)
    (state : State) :
    getRiskIfFresh wallet maxAgeBlocks env state =
      some (Registry.getRiskIfFresh wallet maxAgeBlocks env state) := by
  unfold getRiskIfFresh Registry.getRiskIfFresh
  cases state.latestSnapshotId wallet with
  | none => rfl
  | some id =>
      cases stored : state.riskSnapshots (wallet, id) with
      | none => simp only [stored]
      | some snapshot => simp only [stored, isFresh_eq, Option.map_some, decide_eq_true_iff]

/-- Both freshness reads take the same decision. -/
theorem isSnapshotFresh_eq (wallet : Principal) (maxAgeBlocks : Uint) (env : Env)
    (state : State) :
    isSnapshotFresh wallet maxAgeBlocks env state =
      some (Registry.getRiskIfFresh wallet maxAgeBlocks env state).isSome := by
  unfold isSnapshotFresh getLatestSnapshot Registry.getRiskIfFresh
  cases state.latestSnapshotId wallet with
  | none => rfl
  | some id =>
      simp only [Option.bind_some]
      cases state.riskSnapshots (wallet, id) with
      | none => rfl
      | some snapshot =>
          simp only [isFresh_eq]
          by_cases fresh : Registry.isFresh snapshot.publishedAt maxAgeBlocks env
          · simp only [fresh, decide_true, if_true, Option.isSome_some]
          · simp only [fresh, decide_false, if_false, Option.isSome_none]

theorem isSnapshotFresh_eq_some_true_iff {wallet : Principal} {maxAgeBlocks : Uint} {env : Env}
    {state : State} :
    isSnapshotFresh wallet maxAgeBlocks env state = some true ↔
      ∃ risk, getLatestRisk wallet state = some risk ∧
        Registry.isFresh risk.snapshot.publishedAt maxAgeBlocks env := by
  rw [isSnapshotFresh_eq, Option.some.injEq, Option.isSome_iff_exists]
  simp only [getRiskIfFresh_eq_some_iff]

theorem isSnapshotFresh_eq_some_false_iff {wallet : Principal} {maxAgeBlocks : Uint} {env : Env}
    {state : State} :
    isSnapshotFresh wallet maxAgeBlocks env state = some false ↔
      ∀ risk, getLatestRisk wallet state = some risk →
        ¬Registry.isFresh risk.snapshot.publishedAt maxAgeBlocks env := by
  rw [isSnapshotFresh_eq, Option.some.injEq, Option.isSome_eq_false_iff, Option.isNone_iff_eq_none,
    Option.eq_none_iff_forall_ne_some]
  simp only [ne_eq, getRiskIfFresh_eq_some_iff, not_and]

end Read

/-! ## Single-field reads -/

/-- One field of the latest snapshot; the reads below have no arithmetic to abort. -/
def latestField {α : Type} (field : Snapshot → α) (wallet : Principal) (state : State) :
    Option α :=
  match getLatestSnapshot wallet state with
  | none => none
  | some snapshot => some (field snapshot)

/-- `get-latest-risk-score`. -/
def getLatestRiskScore : Principal → State → Option Uint :=
  latestField Snapshot.riskScoreBps

/-- `get-latest-health-factor`. -/
def getLatestHealthFactor : Principal → State → Option Uint :=
  latestField Snapshot.healthFactorE4

/-- `get-latest-liquidation-distance`. -/
def getLatestLiquidationDistance : Principal → State → Option Uint :=
  latestField Snapshot.liquidationDistanceBps

/-- `get-latest-protocol-concentration`. -/
def getLatestProtocolConcentration : Principal → State → Option Uint :=
  latestField Snapshot.protocolConcentrationBps

/-- `get-latest-liquidity-score`. -/
def getLatestLiquidityScore : Principal → State → Option Uint :=
  latestField Snapshot.liquidityScoreBps

/-- `get-latest-source-block`. -/
def getLatestSourceBlock : Principal → State → Option Uint :=
  latestField Snapshot.sourceBlock

/-- `get-latest-report-hash`. -/
def getLatestReportHash : Principal → State → Option (Buff 32) :=
  latestField Snapshot.reportHash

theorem getLatestSnapshot_eq (wallet : Principal) (state : State) :
    getLatestSnapshot wallet state = (getLatestRisk wallet state).map LatestRisk.snapshot := by
  unfold getLatestSnapshot getLatestRisk
  cases state.latestSnapshotId wallet with
  | none => rfl
  | some id =>
      cases stored : state.riskSnapshots (wallet, id) with
      | none => simp only [Option.bind_some, stored, Option.map_none]
      | some snapshot => simp only [Option.bind_some, stored, Option.map_some]

/-- A single-field read is that field of `get-latest-risk`. -/
theorem latestField_eq {α : Type} (field : Snapshot → α) (wallet : Principal) (state : State) :
    latestField field wallet state =
      (getLatestRisk wallet state).map fun risk => field risk.snapshot := by
  unfold latestField
  rw [getLatestSnapshot_eq]
  cases getLatestRisk wallet state with
  | none => rfl
  | some risk => rfl

/-! ## The store behind the reads -/

/-- The latest id of a wallet always has its entry. -/
theorem WellFormedLog.getLatestRisk_of_latest {chain : Chain State PublicCall}
    (log : WellFormedLog chain) {wallet : Principal} {id : Uint}
    (latest : chain.state.latestSnapshotId wallet = some id) :
    ∃ snapshot, getLatestRisk wallet chain.state = some ⟨id, snapshot⟩ := by
  have positive := log.latest_pos wallet id latest
  rcases (log.dense wallet id).mpr ⟨positive, id, latest, le_rfl⟩ with ⟨snapshot, stored⟩
  refine ⟨snapshot, ?_⟩
  unfold getLatestRisk
  simp only [latest, stored]

theorem WellFormedLog.getLatestSnapshotId_eq {chain : Chain State PublicCall}
    (log : WellFormedLog chain) (wallet : Principal) :
    getLatestSnapshotId wallet chain.state =
      (getLatestRisk wallet chain.state).map LatestRisk.snapshotId := by
  unfold getLatestSnapshotId
  cases latest : chain.state.latestSnapshotId wallet with
  | none =>
      unfold getLatestRisk
      simp only [latest, Option.map_none]
  | some id =>
      rcases log.getLatestRisk_of_latest latest with ⟨snapshot, found⟩
      rw [found, Option.map_some]

theorem getLatestRisk_eq_some_iff {wallet : Principal} {state : State} {risk : LatestRisk} :
    getLatestRisk wallet state = some risk ↔
      state.latestSnapshotId wallet = some risk.snapshotId ∧
        state.riskSnapshots (wallet, risk.snapshotId) = some risk.snapshot := by
  unfold getLatestRisk
  cases state.latestSnapshotId wallet with
  | none => simp
  | some id =>
      cases stored : state.riskSnapshots (wallet, id) with
      | none =>
          simp only [stored, reduceCtorEq, Option.some.injEq, false_iff, not_and]
          rintro rfl
          simp [stored]
      | some snapshot =>
          simp only [stored, Option.some.injEq]
          constructor
          · rintro rfl
            exact ⟨rfl, stored⟩
          · rintro ⟨rfl, found⟩
            rw [stored] at found
            cases found
            rfl

/-! ## No publication, no renewal -/

theorem getLatestRisk_of_sameLog {wallet : Principal} {chain after : Chain State PublicCall}
    (same : SameLog wallet chain after) :
    getLatestRisk wallet after.state = getLatestRisk wallet chain.state := by
  rcases same with ⟨latest, entries⟩
  unfold getLatestRisk
  simp only [latest, entries]

/-- A transaction that publishes nothing for the wallet leaves its log alone. -/
theorem sameLog_of_no_publication {wallet : Principal} {chain after : Chain State PublicCall}
    {tx : Tx PublicCall} (step : riskRegistry.next chain tx = some after)
    (none_published : publications wallet after = publications wallet chain) :
    SameLog wallet chain after := by
  rcases Contract.next_cases step with ⟨-, -, ⟨value, ran, receipts⟩ | ⟨kept, -⟩⟩
  · apply sameLog_next step
    intro published
    have newer : publications wallet after = ⟨tx, true⟩ :: publications wallet chain := by
      unfold publications
      rw [receipts, List.filter_cons_of_pos]
      simp [published]
    rw [none_published] at newer
    exact List.cons_ne_self _ _ newer.symm
  · exact ⟨by rw [kept], fun id => by rw [kept]⟩

/-- A run without a publication for the wallet leaves its latest risk alone. -/
theorem getLatestRisk_of_no_publication {wallet : Principal}
    {chain later : Chain State PublicCall} {txs : List (Tx PublicCall)}
    (run : exec riskRegistry.next chain txs = some later)
    (none_published : publications wallet later = publications wallet chain) :
    getLatestRisk wallet later.state = getLatestRisk wallet chain.state := by
  induction txs generalizing chain with
  | nil =>
      cases run
      rfl
  | cons tx rest ih =>
      rcases exec_cons_eq_some_iff.mp run with ⟨middle, step, continued⟩
      have single : exec riskRegistry.next chain [tx] = some middle :=
        exec_cons_eq_some_iff.mpr ⟨middle, step, rfl⟩
      rcases publications_of_run wallet continued with ⟨newer, after_middle, -⟩
      rcases publications_of_run wallet single with ⟨first, at_middle, -⟩
      -- The two parts of the run add up to no publication.
      have lengths := congrArg List.length after_middle
      rw [at_middle, none_published] at lengths
      simp only [List.length_append] at lengths
      have no_newer : newer = [] := List.length_eq_zero_iff.mp (by omega)
      have no_first : first = [] := List.length_eq_zero_iff.mp (by omega)
      rw [no_newer, List.nil_append] at after_middle
      rw [no_first, List.nil_append] at at_middle
      rw [ih continued after_middle]
      exact getLatestRisk_of_sameLog (sameLog_of_no_publication step at_middle)

/-- A reading that has gone stale is not fresh at any later height. -/
theorem isFresh_of_later {publishedAt maxAgeBlocks : Uint} {env later : Env}
    (published : publishedAt ≤ env.stacksBlockHeight)
    (ordered : env.stacksBlockHeight ≤ later.stacksBlockHeight)
    (fresh : isFresh publishedAt maxAgeBlocks later) : isFresh publishedAt maxAgeBlocks env := by
  refine ⟨published, ?_⟩
  have young := fresh.2
  rw [Uint.le_def] at published ordered
  omega

theorem isFresh_of_le {publishedAt shorter longer : Uint} {env : Env} (ordered : shorter ≤ longer)
    (fresh : isFresh publishedAt shorter env) : isFresh publishedAt longer env :=
  ⟨fresh.1, fresh.2.trans ordered⟩

/-- In every reachable state, at every height and for every maximum age: the
freshness reads never abort and agree, what they serve is the latest risk, its id
is the latest id and its age is within bounds, every other read is a part of the
latest risk, a larger maximum age never refuses more, and a stale reading stays
stale until the wallet is published again. -/
theorem reads_describe_latest_risk {deployer : Principal} {height : Uint}
    {chain : Chain State PublicCall}
    (reachable : Reachable riskRegistry.next (deployment deployer height) chain)
    (wallet : Principal) :
    (∀ maxAgeBlocks env, ∃ answer,
      Read.getRiskIfFresh wallet maxAgeBlocks env chain.state = some answer ∧
      Read.isSnapshotFresh wallet maxAgeBlocks env chain.state = some answer.isSome ∧
      ∀ risk, answer = some risk →
        getLatestRisk wallet chain.state = some risk ∧
        getLatestSnapshotId wallet chain.state = some risk.snapshotId ∧
        risk.snapshot.publishedAt ≤ env.stacksBlockHeight ∧
        env.stacksBlockHeight.val - risk.snapshot.publishedAt.val ≤ maxAgeBlocks.val) ∧
    (getLatestSnapshotId wallet chain.state =
        (getLatestRisk wallet chain.state).map fun risk => risk.snapshotId) ∧
    (getLatestSnapshot wallet chain.state =
        (getLatestRisk wallet chain.state).map fun risk => risk.snapshot) ∧
    (getLatestRiskScore wallet chain.state =
        (getLatestRisk wallet chain.state).map fun risk => risk.snapshot.riskScoreBps) ∧
    (getLatestHealthFactor wallet chain.state =
        (getLatestRisk wallet chain.state).map fun risk => risk.snapshot.healthFactorE4) ∧
    (getLatestLiquidationDistance wallet chain.state =
        (getLatestRisk wallet chain.state).map fun risk =>
          risk.snapshot.liquidationDistanceBps) ∧
    (getLatestProtocolConcentration wallet chain.state =
        (getLatestRisk wallet chain.state).map fun risk =>
          risk.snapshot.protocolConcentrationBps) ∧
    (getLatestLiquidityScore wallet chain.state =
        (getLatestRisk wallet chain.state).map fun risk => risk.snapshot.liquidityScoreBps) ∧
    (getLatestSourceBlock wallet chain.state =
        (getLatestRisk wallet chain.state).map fun risk => risk.snapshot.sourceBlock) ∧
    (getLatestReportHash wallet chain.state =
        (getLatestRisk wallet chain.state).map fun risk => risk.snapshot.reportHash) ∧
    (∀ shorter longer env, shorter ≤ longer →
      Read.isSnapshotFresh wallet shorter env chain.state = some true →
        Read.isSnapshotFresh wallet longer env chain.state = some true) ∧
    (∀ maxAgeBlocks env, chain.height ≤ env.stacksBlockHeight →
      Read.isSnapshotFresh wallet maxAgeBlocks env chain.state = some false →
        ∀ txs later laterEnv, exec riskRegistry.next chain txs = some later →
          publications wallet later = publications wallet chain →
          env.stacksBlockHeight ≤ laterEnv.stacksBlockHeight →
            Read.isSnapshotFresh wallet maxAgeBlocks laterEnv later.state = some false) := by
  rcases reachable with ⟨txs, run⟩
  have log := (recorded_of_run run).log
  refine ⟨?_, log.getLatestSnapshotId_eq wallet, getLatestSnapshot_eq wallet chain.state,
    latestField_eq _ wallet chain.state, latestField_eq _ wallet chain.state,
    latestField_eq _ wallet chain.state, latestField_eq _ wallet chain.state,
    latestField_eq _ wallet chain.state, latestField_eq _ wallet chain.state,
    latestField_eq _ wallet chain.state, ?_, ?_⟩
  · intro maxAgeBlocks env
    refine ⟨_, Read.getRiskIfFresh_eq wallet maxAgeBlocks env chain.state,
      Read.isSnapshotFresh_eq wallet maxAgeBlocks env chain.state, ?_⟩
    intro risk served
    rcases getRiskIfFresh_eq_some_iff.mp served with ⟨latest, fresh⟩
    exact ⟨latest, (getLatestRisk_eq_some_iff.mp latest).1, fresh.1, fresh.2⟩
  · intro shorter longer env ordered fresh
    rcases Read.isSnapshotFresh_eq_some_true_iff.mp fresh with ⟨risk, latest, young⟩
    exact Read.isSnapshotFresh_eq_some_true_iff.mpr ⟨risk, latest, isFresh_of_le ordered young⟩
  · intro maxAgeBlocks env reached stale txs later laterEnv continued none_published ordered
    rw [Read.isSnapshotFresh_eq_some_false_iff] at stale ⊢
    intro risk latest fresh
    rw [getLatestRisk_of_no_publication continued none_published] at latest
    have published : risk.snapshot.publishedAt ≤ env.stacksBlockHeight :=
      ((log.inRange _ _ _ (getLatestRisk_eq_some_iff.mp latest).2).2).trans reached
    exact stale risk latest (isFresh_of_later published ordered fresh)

theorem reads_describe_latest_risk_firstPublication :
    getLatestRiskScore (.standard "wallet") ((exec riskRegistry.next
        (deployment (.standard "deployer") ⟨100, by decide⟩) [firstPublication]).get rfl).state =
      (getLatestRisk (.standard "wallet") ((exec riskRegistry.next
        (deployment (.standard "deployer") ⟨100, by decide⟩) [firstPublication]).get rfl).state).map
        fun risk => risk.snapshot.riskScoreBps :=
  (reads_describe_latest_risk ⟨[firstPublication], (Option.some_get rfl).symm⟩
    (.standard "wallet")).2.2.2.1

end RiskRail.Registry
