import RiskRail.Chainhook.Ingest
import RiskRail.Webhooks.Delivery

/-!
# The ids of the jobs

Every call that adds a job names it after what the job is about.  The parts of a name are
joined with the dash that some of them contain, and still an id tells which call it is from
and what the call was given, so two jobs share an id only if they are the same job.
-/

namespace RiskRail.Queue

open RiskRail.Chainhook RiskRail.Webhooks

/-! ## What jobs are about -/

/-- An account: digits and capital letters. -/
structure StandardAddress where
  text : String
  account : text ≠ "" ∧ ∀ char ∈ text.toList, isBase32 char = true
deriving DecidableEq

/-- Letters, digits, dashes and underscores. -/
structure ContractName where
  text : String
  shape : ∀ char ∈ text.toList, isWord char = true ∨ char = '-'
deriving DecidableEq

/-- An account, or a contract of one. -/
inductive Principal where
  | standard (account : StandardAddress)
  | contract (account : StandardAddress) (name : ContractName)
deriving DecidableEq

/-- The principal as it is written. -/
def Principal.text : Principal → String
  | .standard account => account.text
  | .contract account name => account.text ++ "." ++ name.text

/-- The routes of the chainhook controller that queue refreshes. -/
inductive ChainhookSource where
  | riskPolicy
  | protocol
deriving DecidableEq

/-- The source as it is written. -/
def ChainhookSource.text : ChainhookSource → String
  | .riskPolicy => "risk-policy"
  | .protocol => "protocol"

/-- `affected.blockHeight ?? 'na'`. -/
def heightText (blockHeight : Option ℕ) : String :=
  (blockHeight.map toString).getD "na"

/-- The calls that add a job, with what they name it after. -/
inductive NamedJob where
  /-- A refresh that was asked for. -/
  | portfolio (correlationId : Uuid)
  /-- A refresh of a wallet that the environment lists. -/
  | bootstrap (address : Principal) (correlationId : Uuid)
  | chainhook (source : ChainhookSource) (address : StandardAddress) (blockHeight : Option ℕ)
  | risk (correlationId : Uuid)
  | alerts (snapshotId : Cuid)
  | attestation (snapshotId : Cuid)
  /-- The first attempt of a delivery. -/
  | webhook (eventId : Uuid) (endpointId : Cuid)
  /-- An attempt after the first. -/
  | webhookRetry (eventId : Uuid) (endpointId : Cuid) (attempt : ℕ) (later : 2 ≤ attempt)
deriving DecidableEq

namespace NamedJob

/-- What the id is joined from. -/
def parts : NamedJob → List String
  | .portfolio correlationId => ["portfolio", correlationId.text]
  | .bootstrap address correlationId => ["bootstrap", address.text, correlationId.text]
  | .chainhook source address blockHeight =>
      ["chainhook", source.text, address.text, heightText blockHeight]
  | .risk correlationId => ["risk", correlationId.text]
  | .alerts snapshotId => ["alerts", snapshotId.text]
  | .attestation snapshotId => ["attestation", snapshotId.text]
  | .webhook eventId endpointId => ["wh", eventId.text, endpointId.text]
  | .webhookRetry eventId endpointId attempt _ =>
      ["wh", eventId.text, endpointId.text, toString attempt]

/-- The id under which the job is added. -/
def id (job : NamedJob) : String :=
  jobId (job.parts.map some)

end NamedJob

/-! ## The parts are plain -/

theorem StandardAddress.isPlain (address : StandardAddress) : Plain address.text :=
  plain_of_isBase32 address.account

theorem StandardAddress.notMem {char : Char} (other : isBase32 char = false)
    (address : StandardAddress) : char ∉ address.text.toList := by
  intro member
  have digit := address.account.2 char member
  rw [other] at digit
  cases digit

theorem ContractName.notMem_colon (name : ContractName) : ':' ∉ name.text.toList := by
  intro member
  rcases name.shape ':' member with word | dash
  · exact absurd word (by decide)
  · exact absurd dash (by decide)

theorem Principal.toList_contract (account : StandardAddress) (name : ContractName) :
    (Principal.contract account name).text.toList =
      account.text.toList ++ '.' :: name.text.toList := by
  simp [Principal.text]

theorem Principal.isPlain (address : Principal) : Plain address.text := by
  cases address with
  | standard account => exact account.isPlain
  | contract account name =>
      have toList := Principal.toList_contract account name
      constructor
      · intro empty
        rw [empty] at toList
        simp at toList
      · rw [toList, List.mem_append, List.mem_cons]
        rintro (inAccount | same | inName)
        · exact account.notMem (by decide) inAccount
        · exact absurd same (by decide)
        · exact name.notMem_colon inName

theorem ChainhookSource.isPlain (source : ChainhookSource) : Plain source.text := by
  cases source <;> exact ⟨by decide, by decide⟩

theorem plain_heightText (blockHeight : Option ℕ) : Plain (heightText blockHeight) :=
  plain_height blockHeight

theorem NamedJob.isPlain (job : NamedJob) : ∀ part ∈ job.parts, Plain part := by
  have named {name : String} {rest : List String} (shape : name ≠ "" ∧ ':' ∉ name.toList)
      (plain : ∀ part ∈ rest, Plain part) : ∀ part ∈ name :: rest, Plain part :=
    List.forall_mem_cons.mpr ⟨shape, plain⟩
  cases job with
  | portfolio correlationId | risk correlationId =>
      refine named (by decide) ?_
      simp [correlationId.isPlain]
  | bootstrap address correlationId =>
      refine named (by decide) ?_
      simp [address.isPlain, correlationId.isPlain]
  | chainhook source address blockHeight =>
      refine named (by decide) ?_
      simp [source.isPlain, address.isPlain, plain_heightText blockHeight]
  | alerts snapshotId | attestation snapshotId =>
      refine named (by decide) ?_
      simp [snapshotId.isPlain]
  | webhook eventId endpointId =>
      refine named (by decide) ?_
      simp [eventId.isPlain, endpointId.isPlain]
  | webhookRetry eventId endpointId attempt =>
      refine named (by decide) ?_
      simpa [eventId.isPlain, endpointId.isPlain] using plain_toString attempt

/-! ## The parts can be read off -/

theorem StandardAddress.text_injective : Function.Injective StandardAddress.text := by
  rintro ⟨first, _⟩ ⟨second, _⟩ rfl
  rfl

theorem ContractName.text_injective : Function.Injective ContractName.text := by
  rintro ⟨first, _⟩ ⟨second, _⟩ rfl
  rfl

theorem uuid_text_injective : Function.Injective Uuid.text := by
  rintro ⟨first, _, _⟩ ⟨second, _, _⟩ rfl
  rfl

theorem cuid_text_injective : Function.Injective Cuid.text := by
  rintro ⟨first, _, _, _⟩ ⟨second, _, _, _⟩ rfl
  rfl

/-- There is no dot in an account. -/
theorem Principal.standard_ne_contract (account owner : StandardAddress) (name : ContractName) :
    account.text ≠ (Principal.contract owner name).text := by
  intro same
  have dot : '.' ∈ account.text.toList := by
    rw [same, Principal.toList_contract]
    exact List.mem_append_right _ List.mem_cons_self
  exact account.notMem (by decide) dot

theorem Principal.text_injective : Function.Injective Principal.text := by
  intro first second same
  cases first with
  | standard account =>
      cases second with
      | standard other => exact congrArg Principal.standard (StandardAddress.text_injective same)
      | contract owner name => exact absurd same (Principal.standard_ne_contract account owner name)
  | contract account name =>
      cases second with
      | standard other =>
          exact absurd same.symm (Principal.standard_ne_contract other account name)
      | contract owner other =>
          have chars := congrArg String.toList same
          rw [Principal.toList_contract, Principal.toList_contract] at chars
          obtain ⟨accounts, names⟩ :=
            cut_inj (account.notMem (by decide)) (owner.notMem (by decide)) chars
          rw [StandardAddress.text_injective (String.toList_inj.mp accounts),
            ContractName.text_injective (String.toList_inj.mp names)]

theorem heightText_injective : Function.Injective heightText := by
  intro first second same
  have no_na (height : ℕ) : toString height ≠ "na" := by
    intro printed
    have digit : ∀ char ∈ (toString height).toList, char.isDigit = true := by
      intro char member
      rw [Nat.toString_eq_repr, Nat.toList_repr] at member
      exact Nat.isDigit_of_mem_toDigits (by decide) (by decide) member
    rw [printed] at digit
    exact absurd (digit 'n' (by decide)) (by decide)
  cases first with
  | none =>
      cases second with
      | none => rfl
      | some height => exact absurd same.symm (no_na height)
  | some height =>
      cases second with
      | none => exact absurd same (no_na height)
      | some other => exact congrArg some (toString_injective same)

namespace NamedJob

/-- The first part. -/
def name : NamedJob → String
  | .portfolio _ => "portfolio"
  | .bootstrap _ _ => "bootstrap"
  | .chainhook _ _ _ => "chainhook"
  | .risk _ => "risk"
  | .alerts _ => "alerts"
  | .attestation _ => "attestation"
  | .webhook _ _ | .webhookRetry _ _ _ _ => "wh"

/-- A first attempt is known by its event and its endpoint. -/
theorem id_webhook (eventId : Uuid) (endpointId : Cuid) :
    (webhook eventId endpointId).id = deliveryId ⟨eventId, endpointId, 1⟩ :=
  rfl

theorem id_webhookRetry (eventId : Uuid) (endpointId : Cuid) {attempt : ℕ} (later : 2 ≤ attempt) :
    (webhookRetry eventId endpointId attempt later).id =
      deliveryId ⟨eventId, endpointId, attempt⟩ :=
  (if_neg (by dsimp only; omega)).symm

/-- The id a chainhook event adds its refresh under. -/
theorem id_chainhook (source : ChainhookSource) (address : StandardAddress)
    (blockHeight : Option ℕ) :
    (chainhook source address blockHeight).id = refreshId source.text address.text blockHeight :=
  rfl

/-- The name of the call can be read off an id, and so can the id of the rest. -/
theorem name_eq_of_id_eq {first second : NamedJob} (same : first.id = second.id) :
    first.name = second.name ∧
      jobId (first.parts.tail.map some) = jobId (second.parts.tail.map some) := by
  have parts_eq (job : NamedJob) : job.parts = job.name :: job.parts.tail := by
    cases job <;> rfl
  have more (job : NamedJob) : job.parts.tail ≠ [] := by
    cases job <;> exact List.cons_ne_nil _ _
  have undashed (job : NamedJob) : '-' ∉ job.name.toList := by
    cases job <;> simp [name]
  have plain (job : NamedJob) : ∀ part ∈ job.name :: job.parts.tail, Plain part := by
    rw [← parts_eq]
    exact job.isPlain
  rw [id, id, parts_eq first, parts_eq second] at same
  exact jobId_cons_inj (plain first) (plain second) (more first) (more second) (undashed first)
    (undashed second) same

/-- An address may contain dashes, but what follows it has the length of a UUID. -/
theorem bootstrap_inj {first second : Principal} {firstId secondId : Uuid}
    (same : jobId [some first.text, some firstId.text] =
      jobId [some second.text, some secondId.text]) : first = second ∧ firstId = secondId := by
  rw [jobId_pair first.isPlain firstId.isPlain, jobId_pair second.isPlain secondId.isPlain] at same
  have chars : (first.text ++ "-").toList ++ firstId.text.toList =
      (second.text ++ "-").toList ++ secondId.text.toList := by
    rw [← String.toList_append, ← String.toList_append, same]
  obtain ⟨fronts, ids⟩ := List.append_inj' chars (firstId.length.trans secondId.length.symm)
  have texts := (String.append_left_inj "-").mp (String.toList_inj.mp fronts)
  exact ⟨Principal.text_injective texts, uuid_text_injective (String.toList_inj.mp ids)⟩

/-- The sources differ in their first letters, and an account contains no dash. -/
theorem chainhook_inj {first second : ChainhookSource} {address other : StandardAddress}
    {height later : Option ℕ}
    (same : jobId ([first.text, address.text, heightText height].map some) =
      jobId ([second.text, other.text, heightText later].map some)) :
    first = second ∧ address = other ∧ height = later := by
  have plain (address : StandardAddress) (height : Option ℕ) :
      ∀ part ∈ [address.text, heightText height], Plain part := by
    simp only [List.forall_mem_cons]
    exact ⟨address.isPlain, plain_heightText height, by simp⟩
  rw [jobId_cons first.isPlain (plain address height) (by simp),
    jobId_cons second.isPlain (plain other later) (by simp)] at same
  have sources : first = second := by
    have letters := congrArg (fun id => id.toList.head?) same
    cases first <;> cases second <;> first | rfl | simp [ChainhookSource.text] at letters
  subst sources
  rw [String.append_right_inj] at same
  obtain ⟨addresses, heights⟩ :=
    jobId_cons_inj (plain address height) (plain other later) (by simp) (by simp)
      (address.notMem (by decide)) (other.notMem (by decide)) same
  refine ⟨rfl, StandardAddress.text_injective addresses, heightText_injective ?_⟩
  rwa [List.map_singleton, List.map_singleton, jobId_singleton (plain_heightText height),
    jobId_singleton (plain_heightText later)] at heights

theorem uuid_inj {first second : Uuid} (same : jobId [some first.text] = jobId [some second.text]) :
    first = second := by
  rw [jobId_singleton first.isPlain, jobId_singleton second.isPlain] at same
  exact uuid_text_injective same

theorem cuid_inj {first second : Cuid} (same : jobId [some first.text] = jobId [some second.text]) :
    first = second := by
  rw [jobId_singleton first.isPlain, jobId_singleton second.isPlain] at same
  exact cuid_text_injective same

/-- Different jobs have different ids, also in different queues. -/
theorem id_injective : Function.Injective id := by
  intro first second same
  obtain ⟨names, rests⟩ := name_eq_of_id_eq same
  cases first with
  | portfolio correlationId =>
      cases second with
      | portfolio other => exact congrArg portfolio (uuid_inj rests)
      | _ => simp [name] at names
  | bootstrap address correlationId =>
      cases second with
      | bootstrap other otherId =>
          obtain ⟨rfl, rfl⟩ := bootstrap_inj rests
          rfl
      | _ => simp [name] at names
  | chainhook source address blockHeight =>
      cases second with
      | chainhook other otherAddress otherHeight =>
          obtain ⟨rfl, rfl, rfl⟩ := chainhook_inj rests
          rfl
      | _ => simp [name] at names
  | risk correlationId =>
      cases second with
      | risk other => exact congrArg risk (uuid_inj rests)
      | _ => simp [name] at names
  | alerts snapshotId =>
      cases second with
      | alerts other => exact congrArg alerts (cuid_inj rests)
      | _ => simp [name] at names
  | attestation snapshotId =>
      cases second with
      | attestation other => exact congrArg attestation (cuid_inj rests)
      | _ => simp [name] at names
  | webhook eventId endpointId =>
      cases second with
      | webhook other otherId =>
          rw [id_webhook, id_webhook] at same
          cases deliveryId_injective same
          rfl
      | webhookRetry other otherId attempt later =>
          rw [id_webhook, id_webhookRetry] at same
          cases deliveryId_injective same
          exact absurd later (by decide)
      | _ => simp [name] at names
  | webhookRetry eventId endpointId attempt later =>
      cases second with
      | webhook other otherId =>
          rw [id_webhook, id_webhookRetry] at same
          cases deliveryId_injective same
          exact absurd later (by decide)
      | webhookRetry other otherId otherAttempt otherLater =>
          rw [id_webhookRetry, id_webhookRetry] at same
          cases deliveryId_injective same
          rfl
      | _ => simp [name] at names

end NamedJob

/-- An id tells which job it is of, and contains no colon. -/
theorem job_ids_unambiguous :
    Function.Injective NamedJob.id ∧ ∀ job : NamedJob, ':' ∉ job.id.toList :=
  ⟨NamedJob.id_injective, fun _ => colon_notMem_jobId _⟩

end RiskRail.Queue
