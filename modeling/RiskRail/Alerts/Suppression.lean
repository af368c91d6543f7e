import RiskRail.Alerts.Email

/-!
# Mails that are kept back

The key of a notification says which user, which rule and which block, and nothing of the
snapshot or the wallet.  So one breach keeps the mail of another back exactly when both
agree in these; in runs without such a pair every event that is mailed has a notification
of its own.
-/

namespace RiskRail.Alerts.Email

open RiskRail.Database RiskRail.Queue RiskRail.Relational RiskRail.Transition

open RiskRail.Attestation (Sha256Digest)

/-! ## The text of a key -/

theorem toList_dedupeText (userId : Cuid) (source : Source) (sourceBlock : ℕ) :
    (dedupeText userId source sourceBlock).toList = userId.text.toList ++
      ':' :: (source.ruleId.toList ++ ':' :: (toString sourceBlock).toList) := by
  simp [dedupeText]

theorem metricName_injective : Function.Injective metricName := by
  intro first second same
  cases first <;> cases second <;> simp_all [metricName]

/-- A rule is not taken for a metric of the policy. -/
theorem ruleId_injective : Function.Injective Source.ruleId := by
  have apart (id : Cuid) (metric : Metric) : id.text ≠ "policy:" ++ metricName metric := by
    intro same
    apply id.plain.2
    rw [same, String.toList_append]
    exact List.mem_append_left _ (by decide)
  intro first second same
  cases first with
  | rule id =>
      cases second with
      | rule other => exact congrArg Source.rule (by cases id; cases other; cases same; rfl)
      | policy metric => exact absurd same (apart id metric)
  | policy metric =>
      cases second with
      | rule other => exact absurd same.symm (apart other metric)
      | policy other =>
          have names : metricName metric = metricName other := (String.append_right_inj _).mp same
          exact congrArg Source.policy (metricName_injective names)

/-- User, rule and block can be read off the text that is hashed. -/
theorem dedupeText_inj {userId otherId : Cuid} {source other : Source} {block later : ℕ}
    (same : dedupeText userId source block = dedupeText otherId other later) :
    userId = otherId ∧ source = other ∧ block = later := by
  have lists := congrArg String.toList same
  rw [toList_dedupeText, toList_dedupeText] at lists
  obtain ⟨users, rests⟩ := cut_inj userId.plain.2 otherId.plain.2 lists
  have ends := congrArg List.reverse rests
  simp only [List.reverse_append, List.reverse_cons, List.append_assoc, List.singleton_append]
    at ends
  have digits (n : ℕ) : ':' ∉ (toString n).toList.reverse := fun member =>
    (plain_toString n).2 (List.mem_reverse.mp member)
  obtain ⟨blocks, rules⟩ := cut_inj (digits block) (digits later) ends
  refine ⟨?_, ruleId_injective (String.toList_inj.mp (List.reverse_injective rules)), ?_⟩
  · cases userId
    cases otherId
    cases String.toList_inj.mp users
    rfl
  · exact toString_injective (String.toList_inj.mp (List.reverse_injective blocks))

/-! ## Runs without clashes -/

section

variable (mailer : Bool) (owner : String → Option User)

/-- The wallet has a user, and e-mail is enabled. -/
def MailsTo (address : String) : Prop :=
  mailer = true ∧ ∃ user ∈ owner address, user.email.getD "" ≠ "" ∧ user.notifyByEmail = true

/-- Different breaches of one user, of the same rule or metric, at the same block. -/
def Event.Clashes (event other : Event) : Prop :=
  (∃ user ∈ owner event.address, ∃ owning ∈ owner other.address, user.id = owning.id) ∧
    event.source = other.source ∧ event.snapshot.sourceBlock = other.snapshot.sourceBlock ∧
      event.breach ≠ other.breach

/-- The event that the attempt inserts clashes with none before. -/
def State.Unclashed (state : State) (attempt : ℕ) : Prop :=
  ∀ event ∈ (state.attempts attempt).due, ∀ other ∈ state.events, ¬event.Clashes owner other

/-- An event is created only where no notification of another one has its key. -/
def Unclashing (state : State) : Action → Prop
  | .create attempt => state.Unclashed owner attempt
  | _ => True

/-- Attempts are of wallets that are mailed; no event is inserted that clashes with one
before; and no attempt ends between the insert of an event and its mail. -/
def Unsuppressed (state : State) : Action → Prop
  | .start _ address _ _ _ => MailsTo mailer owner address
  | .create attempt => state.Unclashed owner attempt
  | .abandon attempt => (state.attempts attempt).pending = none
  | _ => True

end

theorem Event.Clashes.symm {owner : String → Option User} {event other : Event}
    (clash : event.Clashes owner other) : other.Clashes owner event := by
  obtain ⟨⟨user, owned, owning, owned', same⟩, sources, blocks, differ⟩ := clash
  exact ⟨⟨owning, owned', user, owned, same.symm⟩, sources.symm, blocks.symm, differ.symm⟩

/-- No two keys of the events collide. -/
def CollisionFree (sha256 : String → Sha256Digest) (owner : String → Option User)
    (events : List Event) : Prop :=
  ∀ first ∈ events, ∀ second ∈ events, ∀ user ∈ owner first.address,
    ∀ other ∈ owner second.address, first.key sha256 user = second.key sha256 other →
      dedupeText user.id first.source first.snapshot.sourceBlock =
        dedupeText other.id second.source second.snapshot.sourceBlock

variable {sha256 : String → Sha256Digest} {mailer : Bool} {owner : String → Option User}
  {state target : State} {action : Action}

/-! ## What an attempt knows -/

/-- The subject is a row of a wallet that is mailed. -/
def Subject.Stored (mailer : Bool) (owner : String → Option User) (rows : List WalletRow)
    (subject : Subject) : Prop :=
  MailsTo mailer owner subject.address ∧
    ∃ row ∈ rows, row.address = subject.address ∧ row.row.snapshot = subject.snapshot

/-- The event is one of the subject. -/
def Event.Of (event : Event) (subject : Subject) : Prop :=
  event.address = subject.address ∧ event.snapshot = subject.snapshot

theorem of_localEvents {subject : Subject} {localRules : List LocalRule} {event : Event}
    (member : event ∈ localEvents subject localRules) : event.Of subject := by
  obtain ⟨⟨rule, plain⟩, -, fired⟩ := List.mem_filterMap.mp member
  obtain ⟨value, -, rfl⟩ := Option.map_eq_some_iff.mp fired
  exact ⟨rfl, rfl⟩

theorem of_policyEvents {subject : Subject} {policy : Option Policy.RiskPolicy} {event : Event}
    (member : event ∈ policyEvents subject policy) : event.Of subject := by
  unfold policyEvents at member
  split at member
  next => cases member
  next =>
    split at member
    next =>
      obtain ⟨check, -, crossed⟩ := List.mem_filterMap.mp member
      obtain ⟨value, -, rfl⟩ := Option.map_eq_some_iff.mp crossed
      exact ⟨rfl, rfl⟩
    next => cases member

/-- The attempt is about a stored subject, and an event that it inserted is there. -/
def Attempt.Sound (mailer : Bool) (owner : String → Option User) (rows : List WalletRow)
    (events : List Event) : Attempt → Prop
  | .idle => True
  | .evaluating subject due _ =>
      subject.Stored mailer owner rows ∧ ∀ event ∈ due, event.Of subject
  | .created subject event due _ =>
      subject.Stored mailer owner rows ∧ (∀ event ∈ due, event.Of subject) ∧ event.Of subject ∧
        event ∈ events

theorem Attempt.Sound.mono {attempt : Attempt} {rows later : List WalletRow}
    {events more : List Event} (sound : attempt.Sound mailer owner rows events)
    (stored : rows ⊆ later) (inserted : events ⊆ more) :
    attempt.Sound mailer owner later more := by
  cases attempt with
  | idle => trivial
  | evaluating subject due policyRead =>
      obtain ⟨⟨mails, row, member, same⟩, due⟩ := sound
      exact ⟨⟨mails, row, stored member, same⟩, due⟩
  | created subject event due policyRead =>
      obtain ⟨⟨mails, row, member, same⟩, due, this, listed⟩ := sound
      exact ⟨⟨mails, row, stored member, same⟩, due, this, inserted listed⟩

/-! ## The invariant of unsuppressed runs -/

/-- The notification is that of its event. -/
def Notification.Genuine (sha256 : String → Sha256Digest) (owner : String → Option User)
    (events : List Event) (notification : Notification) : Prop :=
  notification.event ∈ events ∧ ∃ user ∈ owner notification.event.address,
    notification.dedupeKey = notification.event.key sha256 user

/-- The event is mailed, or an attempt is about to mail it. -/
def State.Told (state : State) (event : Event) : Prop :=
  (∃ attempt, (state.attempts attempt).pending = some event) ∨
    ∃ notification ∈ state.notifications.rows, notification.event.breach = event.breach

/-- What unclashing runs keep true. -/
structure Orderly (sha256 : String → Sha256Digest) (mailer : Bool) (owner : String → Option User)
    (state : State) : Prop where
  ids : ∀ first ∈ state.rows, ∀ second ∈ state.rows,
    first.row.snapshot.id = second.row.snapshot.id → first = second
  attempts : ∀ attempt, (state.attempts attempt).Sound mailer owner state.rows state.events
  events : ∀ event ∈ state.events, MailsTo mailer owner event.address ∧
    ∃ row ∈ state.rows, row.address = event.address ∧ row.row.snapshot = event.snapshot
  apart : ∀ first ∈ state.events, ∀ second ∈ state.events, ¬first.Clashes owner second
  genuine : ∀ notification ∈ state.notifications.rows,
    notification.Genuine sha256 owner state.events
  told : CollisionFree sha256 owner state.events → ∀ event ∈ state.events, state.Told event

theorem orderly_start : Orderly sha256 mailer owner .start where
  ids := fun _ member => nomatch member
  attempts := fun _ => trivial
  events := fun _ member => nomatch member
  apart := fun _ member => nomatch member
  genuine := fun _ member => nomatch member
  told := fun _ _ member => nomatch member

/-- Events of one breach have one key. -/
theorem Orderly.key_eq (orderly : Orderly sha256 mailer owner state) {first second : Event}
    (firstMem : first ∈ state.events) (secondMem : second ∈ state.events)
    (same : first.breach = second.breach) {user other : User} (owned : user ∈ owner first.address)
    (owned' : other ∈ owner second.address) : first.key sha256 user = second.key sha256 other := by
  obtain ⟨-, row, stored, at_, shot⟩ := orderly.events first firstMem
  obtain ⟨-, row', stored', at', shot'⟩ := orderly.events second secondMem
  have address : first.address = second.address := congrArg Breach.address same
  have source : first.source = second.source := congrArg Breach.source same
  have id : first.snapshot.id = second.snapshot.id := congrArg Breach.snapshotId same
  rw [← shot, ← shot'] at id
  cases orderly.ids row stored row' stored' id
  rw [address] at owned
  cases Option.mem_unique owned owned'
  rw [Event.key, Event.key, source, ← shot, ← shot']

/-- Without clashes and collisions a key belongs to one breach. -/
theorem Orderly.breach_eq (orderly : Orderly sha256 mailer owner state)
    (collisionFree : CollisionFree sha256 owner state.events) {first second : Event}
    (firstMem : first ∈ state.events) (secondMem : second ∈ state.events) {user other : User}
    (owned : user ∈ owner first.address) (owned' : other ∈ owner second.address)
    (same : first.key sha256 user = second.key sha256 other) : first.breach = second.breach := by
  obtain ⟨users, sources, blocks⟩ :=
    dedupeText_inj (collisionFree first firstMem second secondMem user owned other owned' same)
  by_contra differ
  exact orderly.apart first firstMem second secondMem
    ⟨⟨user, owned, other, owned', users⟩, sources, blocks, differ⟩

/-- Unsuppressed states without collisions have one notification for each breach. -/
theorem Orderly.oneEach (orderly : Orderly sha256 mailer owner state)
    (collisionFree : CollisionFree sha256 owner state.events) : OneEach sha256 owner state where
  mailed := orderly.told collisionFree
  once := by
    intro first firstMem second secondMem same
    obtain ⟨listed, user, owned, key⟩ := orderly.genuine first firstMem
    obtain ⟨listed', other, owned', key'⟩ := orderly.genuine second secondMem
    apply state.notifications.eq_of_key_eq firstMem secondMem
    rw [key, key']
    exact orderly.key_eq listed listed' same owned owned'
  apart := by
    intro first firstMem second secondMem user owned other owned' same
    exact orderly.breach_eq collisionFree firstMem secondMem owned owned' same

/-! ## Steps -/

theorem CollisionFree.mono {events more : List Event}
    (collisionFree : CollisionFree sha256 owner more) (inserted : events ⊆ more) :
    CollisionFree sha256 owner events :=
  fun first firstMem second secondMem =>
    collisionFree first (inserted firstMem) second (inserted secondMem)

theorem attempts_setAttempt (state : State) (attempt other : ℕ) (progress : Attempt) :
    (state.setAttempt attempt progress).attempts other =
      if other = attempt then progress else state.attempts other :=
  Function.update_apply state.attempts attempt progress other

/-- Another attempt still has its event to mail. -/
theorem State.Told.setAttempt {event : Event} (told : state.Told event) {attempt : ℕ}
    (progress : Attempt) (unpending : (state.attempts attempt).pending ≠ some event) :
    (state.setAttempt attempt progress).Told event := by
  rcases told with ⟨other, pending⟩ | sent
  · have differ : other ≠ attempt := by
      rintro rfl
      exact unpending pending
    exact .inl ⟨other, by rw [attempts_setAttempt, if_neg differ, pending]⟩
  · exact .inr sent

theorem sound_update {rows : List WalletRow} {events : List Event} {attempts : ℕ → Attempt}
    (sound : ∀ attempt, (attempts attempt).Sound mailer owner rows events) {attempt : ℕ}
    {progress : Attempt} (this : progress.Sound mailer owner rows events) (other : ℕ) :
    (Function.update attempts attempt progress other).Sound mailer owner rows events := by
  by_cases same : other = attempt
  · rw [same, Function.update_self]
    exact this
  · rw [Function.update_of_ne same]
    exact sound other

/-- A step of an attempt that has nothing to mail. -/
theorem Orderly.setAttempt (orderly : Orderly sha256 mailer owner state) {attempt : ℕ}
    {progress : Attempt} (sound : progress.Sound mailer owner state.rows state.events)
    (unpending : (state.attempts attempt).pending = none) :
    Orderly sha256 mailer owner (state.setAttempt attempt progress) where
  ids := orderly.ids
  attempts := sound_update orderly.attempts sound
  events := orderly.events
  apart := orderly.apart
  genuine := orderly.genuine
  told := fun collisionFree event member =>
    (orderly.told collisionFree event member).setAttempt progress
      fun pending => nomatch unpending.symm.trans pending

theorem Orderly.persist (orderly : Orderly sha256 mailer owner state) {address : String}
    {row : SnapshotRow}
    (fresh : ¬∃ other ∈ state.rows, other.row.snapshot.id = row.snapshot.id) :
    Orderly sha256 mailer owner { state with rows := ⟨address, row⟩ :: state.rows } where
  ids := eq_of_key_eq_cons orderly.ids fun other member same => fresh ⟨other, member, same⟩
  attempts := fun attempt =>
    (orderly.attempts attempt).mono (List.subset_cons_self _ _) (List.Subset.refl _)
  events := fun event member => by
    obtain ⟨mails, stored, old, same⟩ := orderly.events event member
    exact ⟨mails, stored, List.mem_cons_of_mem _ old, same⟩
  apart := orderly.apart
  genuine := orderly.genuine
  told := orderly.told

/-- An event that clashes with none before is inserted. -/
theorem Orderly.create (orderly : Orderly sha256 mailer owner state) {attempt : ℕ}
    {subject : Subject} {event : Event} {due : List Event} {policyRead : Bool}
    (running : state.attempts attempt = .evaluating subject (event :: due) policyRead)
    (unclashed : ∀ other ∈ state.events, ¬event.Clashes owner other) :
    Orderly sha256 mailer owner
      { state.setAttempt attempt (.created subject event due policyRead) with
        events := state.events ++ [event] } := by
  have known := orderly.attempts attempt
  rw [running] at known
  obtain ⟨stored, ofSubject⟩ := known
  rw [List.forall_mem_cons] at ofSubject
  have inserted : state.events ⊆ state.events ++ [event] := List.subset_append_left _ _
  constructor
  · exact orderly.ids
  · exact sound_update (fun other => (orderly.attempts other).mono (List.Subset.refl _) inserted)
      ⟨stored, ofSubject.2, ofSubject.1, by simp⟩
  · intro other member
    rcases List.mem_append.mp member with old | new
    · exact orderly.events other old
    · cases List.mem_singleton.mp new
      obtain ⟨mails, row, member, same, shot⟩ := stored
      rw [ofSubject.1.1, ofSubject.1.2]
      exact ⟨mails, row, member, same, shot⟩
  · intro first firstMem second secondMem clash
    rcases List.mem_append.mp firstMem with old | new
    · rcases List.mem_append.mp secondMem with old' | new'
      · exact orderly.apart first old second old' clash
      · cases List.mem_singleton.mp new'
        exact unclashed first old clash.symm
    · cases List.mem_singleton.mp new
      rcases List.mem_append.mp secondMem with old' | new'
      · exact unclashed second old' clash
      · cases List.mem_singleton.mp new'
        exact clash.2.2.2 rfl
  · intro notification member
    obtain ⟨listed, genuine⟩ := orderly.genuine notification member
    exact ⟨inserted listed, genuine⟩
  · intro collisionFree other member
    rcases List.mem_append.mp member with old | new
    · refine (orderly.told (collisionFree.mono inserted) other old).setAttempt _ ?_
      rw [running]
      exact fun pending => nomatch pending
    · cases List.mem_singleton.mp new
      refine .inl ⟨attempt, ?_⟩
      dsimp only
      rw [attempts_setAttempt, if_pos rfl]
      rfl

/-- A mail creates a notification, unless its key is taken. -/
theorem sendAlertEmail_cases (sha256 : String → Sha256Digest)
    (notifications : Table Notification.dedupeKey) {event : Event}
    (mails : MailsTo mailer owner event.address) : ∃ user ∈ owner event.address,
      (∃ taken ∈ notifications.rows, taken.dedupeKey = event.key sha256 user ∧
        sendAlertEmail sha256 mailer owner notifications event = notifications) ∨
      (∀ other ∈ notifications.rows, other.dedupeKey ≠ event.key sha256 user) ∧
        sendAlertEmail sha256 mailer owner notifications event =
          notifications.upsert ⟨user.id, event, event.key sha256 user⟩ := by
  obtain ⟨enabled, user, owned, email, notify⟩ := mails
  refine ⟨user, owned, ?_⟩
  unfold sendAlertEmail
  rw [if_neg (by simp [enabled]), Option.mem_def.mp owned]
  dsimp only
  rw [if_neg (by simp [email, notify])]
  by_cases taken : event.key sha256 user ∈ notifications.rows.map Notification.dedupeKey
  · rw [if_pos taken]
    obtain ⟨other, member, same⟩ := List.mem_map.mp taken
    exact .inl ⟨other, member, same, rfl⟩
  · rw [if_neg taken]
    refine .inr ⟨fun other member same => ?_, rfl⟩
    exact taken (List.mem_map.mpr ⟨other, member, same⟩)

/-- After the mail of an event there is a notification of its breach: where the key is taken,
the notification that has it is of no other breach. -/
theorem Orderly.sendAlertEmail (orderly : Orderly sha256 mailer owner state) {event : Event}
    (mails : MailsTo mailer owner event.address) (listed : event ∈ state.events) :
    let sent := sendAlertEmail sha256 mailer owner state.notifications event
    (∀ notification ∈ sent.rows, notification.Genuine sha256 owner state.events) ∧
      state.notifications.rows ⊆ sent.rows ∧
        (CollisionFree sha256 owner state.events →
          ∃ notification ∈ sent.rows, notification.event.breach = event.breach) := by
  intro sent
  obtain ⟨user, owned, ⟨taken, member, key, same⟩ | ⟨free, same⟩⟩ :=
    sendAlertEmail_cases sha256 state.notifications mails
  · have kept : sent = state.notifications := same
    rw [kept]
    refine ⟨orderly.genuine, List.Subset.refl _, fun collisionFree => ⟨taken, member, ?_⟩⟩
    obtain ⟨earlier, other, owned', key'⟩ := orderly.genuine taken member
    exact orderly.breach_eq collisionFree earlier listed owned' owned (key'.symm.trans key)
  · have created : sent = state.notifications.upsert ⟨user.id, event, event.key sha256 user⟩ := same
    rw [created]
    refine ⟨?_, ?_, fun _ => ⟨_, Table.mem_upsert_iff.mpr (.inl rfl), rfl⟩⟩
    · intro notification member
      rcases Table.mem_upsert_iff.mp member with rfl | ⟨old, -⟩
      · exact ⟨listed, user, owned, rfl⟩
      · exact orderly.genuine notification old
    · exact fun old member => Table.mem_upsert_iff.mpr (.inr ⟨member, free old member⟩)

theorem Orderly.mail (orderly : Orderly sha256 mailer owner state) {attempt : ℕ}
    {subject : Subject} {event : Event} {due : List Event} {policyRead : Bool}
    (running : state.attempts attempt = .created subject event due policyRead) :
    Orderly sha256 mailer owner
      { state.setAttempt attempt (.evaluating subject due policyRead) with
        notifications := Email.sendAlertEmail sha256 mailer owner state.notifications event } := by
  have known := orderly.attempts attempt
  rw [running] at known
  obtain ⟨stored, ofSubject, this, listed⟩ := known
  obtain ⟨genuine, kept, sent⟩ := orderly.sendAlertEmail (this.1 ▸ stored.1) listed
  constructor
  · exact orderly.ids
  · exact sound_update orderly.attempts ⟨stored, ofSubject⟩
  · exact orderly.events
  · exact orderly.apart
  · exact genuine
  · intro collisionFree other member
    by_cases mine : other.breach = event.breach
    · obtain ⟨notification, found, same⟩ := sent collisionFree
      exact .inr ⟨notification, found, same.trans mine.symm⟩
    · have unpending : (state.attempts attempt).pending ≠ some other := by
        rw [running]
        rintro ⟨⟩
        exact mine rfl
      rcases (orderly.told collisionFree other member).setAttempt
        (.evaluating subject due policyRead) unpending with pending | ⟨old, found, same⟩
      · exact .inl pending
      · exact .inr ⟨old, kept found, same⟩

/-- Unsuppressed steps keep the order. -/
theorem orderly_next (orderly : Orderly sha256 mailer owner state)
    (guard : Unsuppressed mailer owner state action)
    (step : next sha256 mailer owner state action = some target) :
    Orderly sha256 mailer owner target := by
  cases action with
  | persist address row =>
      obtain ⟨fresh, rfl⟩ := next_persist step
      exact orderly.persist fresh
  | start attempt address row previous localRules =>
      obtain ⟨idle, member, rfl⟩ := next_start step
      refine orderly.setAttempt ⟨⟨guard, _, member, rfl, rfl⟩, ?_⟩ (by rw [idle]; rfl)
      exact fun event => of_localEvents
  | readPolicy attempt policy =>
      obtain ⟨subject, running, rfl⟩ := next_readPolicy step
      have known := orderly.attempts attempt
      rw [running] at known
      refine orderly.setAttempt ⟨known.1, fun event => of_policyEvents⟩ ?_
      rw [running]
      rfl
  | create attempt =>
      obtain ⟨subject, event, due, policyRead, running, rfl⟩ := next_create step
      refine orderly.create running fun other member => ?_
      exact guard event (by rw [running]; rfl) other member
  | mail attempt =>
      obtain ⟨subject, event, due, policyRead, running, rfl⟩ := next_mail step
      exact orderly.mail running
  | finish attempt =>
      obtain ⟨subject, running, rfl⟩ := next_finish step
      exact orderly.setAttempt trivial (by rw [running]; rfl)
  | abandon attempt =>
      rw [next_abandon step]
      exact orderly.setAttempt trivial guard

/-! ## Clashes -/

/-- Events are never deleted. -/
theorem events_subset (step : next sha256 mailer owner state action = some target) :
    state.events ⊆ target.events := by
  cases action with
  | persist address row =>
      obtain ⟨-, rfl⟩ := next_persist step
      exact List.Subset.refl _
  | start attempt address row previous localRules =>
      obtain ⟨-, -, rfl⟩ := next_start step
      exact List.Subset.refl _
  | readPolicy attempt policy =>
      obtain ⟨subject, -, rfl⟩ := next_readPolicy step
      exact List.Subset.refl _
  | create attempt =>
      obtain ⟨subject, event, due, policyRead, -, rfl⟩ := next_create step
      exact List.subset_append_left _ _
  | mail attempt =>
      obtain ⟨subject, event, due, policyRead, -, rfl⟩ := next_mail step
      exact List.Subset.refl _
  | finish attempt =>
      obtain ⟨subject, -, rfl⟩ := next_finish step
      exact List.Subset.refl _
  | abandon attempt =>
      rw [next_abandon step]
      exact List.Subset.refl _

/-- Two events clash. -/
def State.Clashed (owner : String → Option User) (state : State) : Prop :=
  ∃ first ∈ state.events, ∃ second ∈ state.events, first.Clashes owner second

theorem State.Clashed.next (clashed : state.Clashed owner)
    (step : next sha256 mailer owner state action = some target) : target.Clashed owner := by
  obtain ⟨first, firstMem, second, secondMem, clash⟩ := clashed
  exact ⟨first, events_subset step firstMem, second, events_subset step secondMem, clash⟩

theorem clashed_of_not_unclashing (clashing : ¬Unclashing owner state action)
    (step : next sha256 mailer owner state action = some target) : target.Clashed owner := by
  cases action with
  | create attempt =>
      unfold Unclashing State.Unclashed at clashing
      push Not at clashing
      obtain ⟨event, due, other, member, clash⟩ := clashing
      obtain ⟨subject, first, rest, policyRead, running, rfl⟩ := next_create step
      rw [running] at due
      cases Option.mem_some.mp due
      exact ⟨event, by simp, other, List.mem_append_left _ member, clash⟩
  | persist | start | readPolicy | mail | finish | abandon => exact absurd trivial clashing

/-- Events that clash share a key. -/
theorem OneEach.not_clashed (oneEach : OneEach sha256 owner state) : ¬state.Clashed owner := by
  rintro ⟨first, firstMem, second, secondMem, ⟨user, owned, other, owned', same⟩, sources, blocks,
    differ⟩
  refine differ (oneEach.apart first firstMem second secondMem user owned other owned' ?_)
  rw [Event.key, Event.key, same, sources, blocks]

/-- In every unsuppressed run each breach has one mail, and in no run with a clash. -/
theorem one_mail_each_unless_clashing {actions : List Action}
    (run : exec (next sha256 mailer owner) .start actions = some state)
    (collisionFree : CollisionFree sha256 owner state.events) :
    (Along (next sha256 mailer owner) (Unsuppressed mailer owner) .start actions →
      OneEach sha256 owner state) ∧
    (OneEach sha256 owner state →
      Along (next sha256 mailer owner) (Unclashing owner) .start actions) := by
  constructor
  · intro along
    exact (along.invariant orderly_next run orderly_start).oneEach collisionFree
  · intro oneEach
    by_contra clashing
    exact oneEach.not_clashed
      (exec_of_not_along clashed_of_not_unclashing State.Clashed.next run clashing)

/-! ## Two wallets of one user -/

/-- The first characters of a text. -/
def firstUnits (text : String) : Sha256Digest where
  bytes := (List.range 32).map fun i => UInt8.ofNat (text.toList[i]?.getD ' ').toNat
  length_eq := by simp

/-- A user with an address. -/
def someUser : User where
  id := ⟨"u", by decide, by decide⟩
  email := some "u@example.org"
  notifyByEmail := true

/-- The user of every wallet. -/
def someOwner : String → Option User :=
  fun _ => some someUser

/-- A policy that a score of 9000 breaks. -/
def strictPolicy : Policy.RiskPolicy where
  maxRiskScoreBps := 5000
  minHealthFactorE4 := 0
  maxProtocolConcentrationBps := 10000
  minLiquidityScoreBps := 0
  enabled := true
  updatedAt := 0

/-- The breach of that policy in a wallet's row. -/
def breachOf (address : String) (rowId : ℕ) : Event where
  address := address
  source := .policy .riskScoreBps
  snapshot := rowOf rowId 9000
  metric := .riskScoreBps
  operator := .gt
  threshold := 5000
  value := 9000

/-- The first snapshot of a wallet crosses the bound of its policy. -/
def breach (attempt : ℕ) (address : String) (rowId : ℕ) : List Action :=
  [.persist address ⟨rowOf rowId 9000, 0⟩, .start attempt address ⟨rowOf rowId 9000, 0⟩ none [],
    .readPolicy attempt (some strictPolicy), .create attempt, .mail attempt, .finish attempt]

instance (address : String) : Decidable (MailsTo mailer owner address) :=
  inferInstanceAs (Decidable (_ ∧ ∃ user ∈ owner address, _))

instance (event other : Event) : Decidable (event.Clashes owner other) :=
  inferInstanceAs (Decidable ((∃ user ∈ owner event.address, ∃ owning ∈ owner other.address,
    user.id = owning.id) ∧ _ ∧ _ ∧ _))

instance (attempt : ℕ) : Decidable (state.Unclashed owner attempt) :=
  decidable_of_iff (∀ event ∈ (state.attempts attempt).due.toList, ∀ other ∈ state.events,
    ¬event.Clashes owner other) (by simp only [Option.mem_toList]; rfl)

instance (action : Action) : Decidable (Unsuppressed mailer owner state action) :=
  match action with
  | .start _ address _ _ _ => inferInstanceAs (Decidable (MailsTo mailer owner address))
  | .create attempt => inferInstanceAs (Decidable (state.Unclashed owner attempt))
  | .abandon attempt => inferInstanceAs (Decidable ((state.attempts attempt).pending = none))
  | .persist _ _ | .readPolicy _ _ | .mail _ | .finish _ => isTrue trivial

/-- A wallet's breach, and the snapshot evaluated once more. -/
def evaluatedTwice : List Action :=
  breach 0 "first" 1 ++ [.start 1 "first" ⟨rowOf 1 9000, 0⟩ none [],
    .readPolicy 1 (some strictPolicy), .create 1, .mail 1, .finish 1]

theorem one_mail_each_unless_clashing_evaluatedTwice :
    ∃ state, exec (next firstUnits true someOwner) .start evaluatedTwice = some state ∧
      OneEach firstUnits someOwner state := by
  obtain ⟨state, run⟩ := Option.isSome_iff_exists.mp
    (show (exec (next firstUnits true someOwner) .start evaluatedTwice).isSome = true by
      decide +kernel)
  have events : (exec (next firstUnits true someOwner) .start evaluatedTwice).map State.events =
      some (List.replicate 2 (breachOf "first" 1)) := by
    decide +kernel
  rw [run, Option.map_some, Option.some_inj] at events
  refine ⟨state, run, (one_mail_each_unless_clashing run ?_).1 (by decide +kernel)⟩
  intro first firstMem second secondMem user owned other owned' _
  rw [events] at firstMem secondMem
  cases List.eq_of_mem_replicate firstMem
  cases List.eq_of_mem_replicate secondMem
  cases owned
  cases owned'
  rfl

/-- Two wallets of one user, in breach at one block. -/
def twoWallets : List Action :=
  breach 0 "first" 1 ++ breach 1 "second" 2

/-- The breach of the second wallet is recorded and never mailed. -/
theorem second_wallet_not_mailed :
    ∃ state, exec (next firstUnits true someOwner) .start twoWallets = some state ∧
      state.events = [breachOf "first" 1, breachOf "second" 2] ∧
      state.notifications.rows.map Notification.event = [breachOf "first" 1] ∧
      (state.attempts 0 = .idle ∧ state.attempts 1 = .idle) ∧
      ¬OneEach firstUnits someOwner state := by
  obtain ⟨state, run⟩ := Option.isSome_iff_exists.mp
    (show (exec (next firstUnits true someOwner) .start twoWallets).isSome = true by decide +kernel)
  have reached : (exec (next firstUnits true someOwner) .start twoWallets).map (fun state =>
      (state.events, state.notifications.rows.map Notification.event,
        state.attempts 0, state.attempts 1)) =
      some ([breachOf "first" 1, breachOf "second" 2], [breachOf "first" 1], .idle, .idle) := by
    decide +kernel
  rw [run, Option.map_some, Option.some_inj, Prod.mk.injEq, Prod.mk.injEq, Prod.mk.injEq] at reached
  obtain ⟨events, mails, first, second⟩ := reached
  refine ⟨state, run, events, mails, ⟨first, second⟩, fun oneEach => oneEach.not_clashed ?_⟩
  rw [State.Clashed, events]
  exact ⟨breachOf "first" 1, by simp, breachOf "second" 2, by simp, by decide +kernel⟩

end RiskRail.Alerts.Email
