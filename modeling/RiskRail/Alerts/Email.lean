import RiskRail.Alerts.Policy
import RiskRail.Attestation.Publisher

/-!
# E-mails of breaches

The alert jobs of all wallets and the notifications they create.  An attempt goes through
the local rules and then through the on-chain policy; each event that is due is inserted,
published and mailed, and the unique `dedupeKey` of the notification is what keeps a second
mail back.  Attempts run at the same time, a snapshot may be evaluated again, and an attempt
may end anywhere.

Sending the mail, which only notes its success in the row, and the texts that are rendered
from the event are left out.
-/

namespace RiskRail.Alerts.Email

open RiskRail.Database RiskRail.Queue RiskRail.Relational RiskRail.Transition

open RiskRail.Alerts.Policy (PolicyCheck RiskPolicy policyChecks)

open RiskRail.Attestation (Sha256Digest)

/-! ## Events -/

/-- What the database draws for a row. -/
structure Cuid where
  text : String
  plain : Plain text
deriving DecidableEq

/-- The fields of a user that a mail depends on. -/
structure User where
  id : Cuid
  email : Option String
  notifyByEmail : Bool
deriving DecidableEq

/-- A rule with the id that the database drew. -/
structure LocalRule where
  rule : AlertRule
  plain : Plain rule.id
deriving DecidableEq

/-- The metric under its name in the source. -/
def metricName : Metric → String
  | .riskScoreBps => "riskScoreBps"
  | .healthFactorE4 => "healthFactorE4"
  | .liquidationDistanceBps => "liquidationDistanceBps"
  | .protocolConcentrationBps => "protocolConcentrationBps"
  | .assetConcentrationBps => "assetConcentrationBps"
  | .liquidityScoreBps => "liquidityScoreBps"
  | .capitalAccessibilityBps => "capitalAccessibilityBps"

/-- What is breached: a rule, or the on-chain bound of a metric. -/
inductive Source where
  | rule (id : Cuid)
  | policy (metric : Metric)
deriving DecidableEq

/-- The `ruleId` of the mail. -/
def Source.ruleId : Source → String
  | .rule id => id.text
  | .policy metric => "policy:" ++ metricName metric

/-- A row of `AlertEvent` or `PolicyBreachEvent`, with what the mail says of it. -/
structure Event where
  address : String
  source : Source
  snapshot : RiskSnapshot
  metric : Metric
  operator : ThresholdOperator
  threshold : ℚ
  value : ℤ
deriving DecidableEq

/-- The snapshot of a wallet that an attempt evaluates, and the one before it. -/
structure Subject where
  address : String
  snapshot : RiskSnapshot
  previous : Option RiskSnapshot
deriving DecidableEq

/-- The events of the rules that fire, in the order of the rules. -/
def localEvents (subject : Subject) (localRules : List LocalRule) : List Event :=
  localRules.filterMap fun ⟨rule, plain⟩ =>
    (rule.fires subject.snapshot.figures (subject.previous.map RiskSnapshot.figures)).map
      fun value =>
        { address := subject.address, source := .rule ⟨rule.id, plain⟩,
          snapshot := subject.snapshot, metric := rule.metric, operator := rule.operator,
          threshold := rule.threshold, value }

/-- The events of the bounds that are crossed. -/
def policyEvents (subject : Subject) (policy : Option RiskPolicy) : List Event :=
  match policy with
  | none => []
  | some policy =>
      if policy.enabled then
        (policyChecks policy).filterMap fun check =>
          (check.crossing subject.snapshot.figures
            (subject.previous.map RiskSnapshot.figures)).map fun value =>
              { address := subject.address, source := .policy check.metric,
                snapshot := subject.snapshot, metric := check.metric, operator := check.operator,
                threshold := check.threshold, value }
      else []

/-! ## Notifications -/

/-- A row of `Notification`; its subject and body are rendered from the event. -/
structure Notification where
  userId : Cuid
  event : Event
  dedupeKey : String
deriving DecidableEq

/-- What is hashed. -/
def dedupeText (userId : Cuid) (source : Source) (sourceBlock : ℕ) : String :=
  userId.text ++ ":" ++ source.ruleId ++ ":" ++ toString sourceBlock

section

variable (sha256 : String → Sha256Digest)

/-- The first half of the hash of the text. -/
def dedupeKey (userId : Cuid) (source : Source) (sourceBlock : ℕ) : String :=
  String.ofList ((sha256 (dedupeText userId source sourceBlock)).hex.toList.take 32)

/-- The key of the user's notification of an event. -/
def Event.key (event : Event) (user : User) : String :=
  dedupeKey sha256 user.id event.source event.snapshot.sourceBlock

variable (mailer : Bool) (owner : String → Option User)

/-- Mails the owner of the wallet, if there is one and they have opted in. -/
def sendAlertEmail (notifications : Table Notification.dedupeKey) (event : Event) :
    Table Notification.dedupeKey :=
  if mailer = false then notifications
  else
    match owner event.address with
    | none => notifications
    | some user =>
        if user.email.getD "" = "" ∨ user.notifyByEmail = false then notifications
        else
          let key := event.key sha256 user
          if key ∈ notifications.rows.map Notification.dedupeKey then notifications
          else notifications.upsert ⟨user.id, event, key⟩

/-! ## Runs -/

/-- How far an attempt is.  `due` are the events still to be inserted. -/
inductive Attempt where
  | idle
  | evaluating (subject : Subject) (due : List Event) (policyRead : Bool)
  /-- The event is inserted, and still to be published and mailed. -/
  | created (subject : Subject) (event : Event) (due : List Event) (policyRead : Bool)
deriving DecidableEq

/-- The event that is inserted next. -/
def Attempt.due : Attempt → Option Event
  | .evaluating _ (event :: _) _ => some event
  | _ => none

/-- The event that is inserted and not mailed yet. -/
def Attempt.pending : Attempt → Option Event
  | .created _ event _ _ => some event
  | _ => none

/-- The row of a wallet. -/
structure WalletRow where
  address : String
  row : SnapshotRow
deriving DecidableEq

/-- The snapshots of all wallets, the attempts under way, the events and the notifications. -/
structure State where
  rows : List WalletRow
  attempts : ℕ → Attempt
  events : List Event
  notifications : Table Notification.dedupeKey

/-- Nothing has happened yet. -/
def State.start : State where
  rows := []
  attempts := fun _ => .idle
  events := []
  notifications := .empty

/-- The snapshots of one wallet. -/
def State.rowsOf (state : State) (address : String) : List SnapshotRow :=
  (state.rows.filter fun row => row.address = address).map WalletRow.row

/-- An attempt gets somewhere; the tables stay. -/
def State.setAttempt (state : State) (attempt : ℕ) (progress : Attempt) : State :=
  { state with attempts := Function.update state.attempts attempt progress }

/-- What the tables and the attempts do. -/
inductive Action where
  | persist (address : String) (row : SnapshotRow)
  /-- An attempt reads its snapshot, the one before and the active rules.  Rules come and go at
  any time. -/
  | start (attempt : ℕ) (address : String) (row : SnapshotRow) (previous : Option RiskSnapshot)
      (localRules : List LocalRule)
  /-- `none` where there is no policy or no contract. -/
  | readPolicy (attempt : ℕ) (policy : Option RiskPolicy)
  | create (attempt : ℕ)
  /-- The event is published, and mailed. -/
  | mail (attempt : ℕ)
  | finish (attempt : ℕ)
  /-- The publication throws, the read of the policy throws, or the process ends. -/
  | abandon (attempt : ℕ)

/-- One step of an attempt, or of the tables below it. -/
def next : Step State Action
  | state, .persist address row =>
      if ∃ other ∈ state.rows, other.row.snapshot.id = row.snapshot.id then none
      else some { state with rows := ⟨address, row⟩ :: state.rows }
  | state, .start attempt address row previous localRules =>
      if state.attempts attempt = .idle ∧ ⟨address, row⟩ ∈ state.rows ∧
          IsPrevious (state.rowsOf address) row.snapshot previous then
        let subject : Subject := ⟨address, row.snapshot, previous⟩
        some (state.setAttempt attempt (.evaluating subject (localEvents subject localRules) false))
      else none
  | state, .readPolicy attempt policy =>
      match state.attempts attempt with
      | .evaluating subject [] false =>
          some (state.setAttempt attempt (.evaluating subject (policyEvents subject policy) true))
      | _ => none
  | state, .create attempt =>
      match state.attempts attempt with
      | .evaluating subject (event :: due) policyRead =>
          let state := state.setAttempt attempt (.created subject event due policyRead)
          some { state with events := state.events ++ [event] }
      | _ => none
  | state, .mail attempt =>
      match state.attempts attempt with
      | .created subject event due policyRead =>
          let state := state.setAttempt attempt (.evaluating subject due policyRead)
          some { state with
            notifications := sendAlertEmail sha256 mailer owner state.notifications event }
      | _ => none
  | state, .finish attempt =>
      match state.attempts attempt with
      | .evaluating _ [] true => some (state.setAttempt attempt .idle)
      | _ => none
  | state, .abandon attempt =>
      if state.attempts attempt = .idle then none else some (state.setAttempt attempt .idle)

end

/-! ## What a step does -/

section Cases

variable {sha256 : String → Sha256Digest} {mailer : Bool} {owner : String → Option User}
  {state target : State} {attempt : ℕ}

theorem next_persist {address : String} {row : SnapshotRow}
    (step : next sha256 mailer owner state (.persist address row) = some target) :
    (¬∃ other ∈ state.rows, other.row.snapshot.id = row.snapshot.id) ∧
      target = { state with rows := ⟨address, row⟩ :: state.rows } := by
  obtain ⟨fresh, same⟩ := Option.ite_none_left_eq_some.mp step
  exact ⟨fresh, (Option.some_inj.mp same).symm⟩

theorem next_start {address : String} {row : SnapshotRow} {previous : Option RiskSnapshot}
    {localRules : List LocalRule}
    (step : next sha256 mailer owner state (.start attempt address row previous localRules) =
      some target) :
    state.attempts attempt = .idle ∧ ⟨address, row⟩ ∈ state.rows ∧
      target = state.setAttempt attempt (.evaluating ⟨address, row.snapshot, previous⟩
        (localEvents ⟨address, row.snapshot, previous⟩ localRules) false) := by
  obtain ⟨⟨idle, member, -⟩, same⟩ := Option.ite_none_right_eq_some.mp step
  exact ⟨idle, member, (Option.some_inj.mp same).symm⟩

theorem next_readPolicy {policy : Option RiskPolicy}
    (step : next sha256 mailer owner state (.readPolicy attempt policy) = some target) :
    ∃ subject, state.attempts attempt = .evaluating subject [] false ∧
      target = state.setAttempt attempt
        (.evaluating subject (policyEvents subject policy) true) := by
  unfold next at step
  dsimp only at step
  split at step
  next subject running => exact ⟨subject, running, (Option.some_inj.mp step).symm⟩
  next => cases step

theorem next_create (step : next sha256 mailer owner state (.create attempt) = some target) :
    ∃ subject event due policyRead,
      state.attempts attempt = .evaluating subject (event :: due) policyRead ∧
        target = { state.setAttempt attempt (.created subject event due policyRead) with
          events := state.events ++ [event] } := by
  unfold next at step
  dsimp only at step
  split at step
  next running => exact ⟨_, _, _, _, running, (Option.some_inj.mp step).symm⟩
  next => cases step

theorem next_mail (step : next sha256 mailer owner state (.mail attempt) = some target) :
    ∃ subject event due policyRead,
      state.attempts attempt = .created subject event due policyRead ∧
        target = { state.setAttempt attempt (.evaluating subject due policyRead) with
          notifications := sendAlertEmail sha256 mailer owner state.notifications event } := by
  unfold next at step
  dsimp only at step
  split at step
  next running => exact ⟨_, _, _, _, running, (Option.some_inj.mp step).symm⟩
  next => cases step

theorem next_finish (step : next sha256 mailer owner state (.finish attempt) = some target) :
    ∃ subject, state.attempts attempt = .evaluating subject [] true ∧
      target = state.setAttempt attempt .idle := by
  unfold next at step
  dsimp only at step
  split at step
  next subject running => exact ⟨subject, running, (Option.some_inj.mp step).symm⟩
  next => cases step

theorem next_abandon (step : next sha256 mailer owner state (.abandon attempt) = some target) :
    target = state.setAttempt attempt .idle :=
  (Option.some_inj.mp (Option.ite_none_left_eq_some.mp step).2).symm

end Cases

/-! ## One mail for each breach -/

/-- What makes two events the same breach. -/
structure Breach where
  address : String
  source : Source
  snapshotId : ℕ
deriving DecidableEq

/-- What an event tells of its breach. -/
def Event.breach (event : Event) : Breach where
  address := event.address
  source := event.source
  snapshotId := event.snapshot.id

/-- Every event has exactly one notification once it is mailed, no breach has two, and the
keys of different breaches differ. -/
structure OneEach (sha256 : String → Sha256Digest) (owner : String → Option User)
    (state : State) : Prop where
  mailed : ∀ event ∈ state.events, (∃ attempt, (state.attempts attempt).pending = some event) ∨
    ∃ notification ∈ state.notifications.rows, notification.event.breach = event.breach
  once : ∀ first ∈ state.notifications.rows, ∀ second ∈ state.notifications.rows,
    first.event.breach = second.event.breach → first = second
  apart : ∀ first ∈ state.events, ∀ second ∈ state.events, ∀ user ∈ owner first.address,
    ∀ other ∈ owner second.address, first.key sha256 user = second.key sha256 other →
      first.breach = second.breach

end RiskRail.Alerts.Email
