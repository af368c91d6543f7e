import Mathlib.Data.List.Basic
import Mathlib.Logic.Function.Basic

/-!
# Job queues

A queue of jobs under caller-chosen ids, as BullMQ keeps it.  Adding a job under
an id that is taken does nothing, and an id stays taken while the finished job is
retained.  A failed attempt starts again from the beginning until the attempts
are used up.  `δ` is what the caller queued and `π` how far an attempt has come.
-/

namespace RiskRail.Queue

universe u v

/-- A list is cut in front of a mark in one way. -/
theorem cut_inj {α : Type u} {mark : α} {first second rest other : List α}
    (firstPlain : mark ∉ first) (secondPlain : mark ∉ second)
    (same : first ++ mark :: rest = second ++ mark :: other) : first = second ∧ rest = other := by
  induction first generalizing second with
  | nil =>
      cases second with
      | nil => exact ⟨rfl, (List.cons.inj same).2⟩
      | cons head tail =>
          have head_eq := (List.cons.inj same).1
          exact absurd (head_eq ▸ List.mem_cons_self) secondPlain
  | cons head tail ih =>
      cases second with
      | nil =>
          have head_eq := (List.cons.inj same).1
          exact absurd (head_eq ▸ List.mem_cons_self) firstPlain
      | cons next more =>
          obtain ⟨rfl, tails⟩ := List.cons.inj same
          obtain ⟨rfl, rests⟩ := ih (fun member => firstPlain (List.mem_cons_of_mem _ member))
            (fun member => secondPlain (List.mem_cons_of_mem _ member)) tails
          exact ⟨rfl, rests⟩

/-- Build a job id from its nonempty parts. -/
def jobId (parts : List (Option String)) : String :=
  "-".intercalate <|
    ((parts.filterMap id).filter fun part => part ≠ "").map fun part =>
      part.map fun char => if char = ':' then '-' else char

/-- A part that goes into an id as it is. -/
def Plain (part : String) : Prop :=
  part ≠ "" ∧ ':' ∉ part.toList

theorem Plain.kept {part : String} (plain : Plain part) :
    (part.map fun char => if char = ':' then '-' else char) = part := by
  rw [← String.toList_inj, String.toList_map]
  apply (List.map_congr_left ?_).trans (List.map_id part.toList)
  intro char member
  apply if_neg
  rintro rfl
  exact plain.2 member

/-- Plain parts are joined as they are. -/
theorem jobId_of_plain {parts : List String} (plain : ∀ part ∈ parts, Plain part) :
    jobId (parts.map some) = "-".intercalate parts := by
  have nonempty : ((parts.map some).filterMap id).filter (fun part => part ≠ "") = parts := by
    rw [List.filterMap_map, Function.id_comp, List.filterMap_some]
    exact List.filter_eq_self.mpr fun part member => by simpa using (plain part member).1
  have kept : parts.map (fun part => part.map fun char => if char = ':' then '-' else char) =
      parts :=
    (List.map_congr_left fun part member => (plain part member).kept).trans (List.map_id parts)
  rw [jobId, nonempty, kept]

theorem jobId_singleton {part : String} (plain : Plain part) : jobId [some part] = part :=
  (@jobId_of_plain [part] (List.forall_mem_singleton.mpr plain)).trans
    String.intercalate_singleton

/-- The first of several plain parts stands in front of a dash. -/
theorem jobId_cons {part : String} {rest : List String} (plain : Plain part)
    (plainRest : ∀ other ∈ rest, Plain other) (more : rest ≠ []) :
    jobId ((part :: rest).map some) = part ++ "-" ++ jobId (rest.map some) := by
  rw [jobId_of_plain (List.forall_mem_cons.mpr ⟨plain, plainRest⟩), jobId_of_plain plainRest,
    String.intercalate_cons_of_ne_nil more]

/-- A first part without a dash can be read off the id, and so can the id of the rest. -/
theorem jobId_cons_inj {first second : String} {firstRest secondRest : List String}
    (firstPlain : ∀ part ∈ first :: firstRest, Plain part)
    (secondPlain : ∀ part ∈ second :: secondRest, Plain part)
    (firstMore : firstRest ≠ []) (secondMore : secondRest ≠ [])
    (firstUndashed : '-' ∉ first.toList) (secondUndashed : '-' ∉ second.toList)
    (same : jobId ((first :: firstRest).map some) = jobId ((second :: secondRest).map some)) :
    first = second ∧ jobId (firstRest.map some) = jobId (secondRest.map some) := by
  rw [List.forall_mem_cons] at firstPlain secondPlain
  rw [jobId_cons firstPlain.1 firstPlain.2 firstMore,
    jobId_cons secondPlain.1 secondPlain.2 secondMore] at same
  have chars := congrArg String.toList same
  simp only [String.toList_append, List.append_assoc] at chars
  obtain ⟨heads, tails⟩ := cut_inj firstUndashed secondUndashed chars
  exact ⟨String.toList_inj.mp heads, String.toList_inj.mp tails⟩

/-- Joining adds no character but the dash. -/
theorem notMem_intercalate {mark : Char} {parts : List String} (undashed : mark ≠ '-')
    (absent : ∀ part ∈ parts, mark ∉ part.toList) :
    mark ∉ ("-".intercalate parts).toList := by
  induction parts with
  | nil => simp
  | cons part rest ih =>
      rw [List.forall_mem_cons] at absent
      rcases eq_or_ne rest [] with rfl | more
      · rw [String.intercalate_singleton]
        exact absent.1
      · rw [String.intercalate_cons_of_ne_nil more, String.toList_append, String.toList_append,
          List.mem_append, List.mem_append]
        rintro ((inPart | inDash) | inRest)
        · exact absent.1 inPart
        · exact undashed (List.mem_singleton.mp inDash)
        · exact ih absent.2 inRest

/-- Whatever the parts are, there is no colon in the id. -/
theorem colon_notMem_jobId (parts : List (Option String)) : ':' ∉ (jobId parts).toList := by
  apply notMem_intercalate (by decide)
  rw [List.forall_mem_map]
  intro part _ member
  rw [String.toList_map] at member
  obtain ⟨char, -, replaced⟩ := List.mem_map.mp member
  split at replaced
  next => exact absurd replaced (by decide)
  next other => exact other replaced

theorem jobId_pair {first second : String} (firstPlain : Plain first)
    (secondPlain : Plain second) :
    jobId [some first, some second] = first ++ "-" ++ second := by
  have plain : ∀ part ∈ [first, second], Plain part := by simp [firstPlain, secondPlain]
  exact jobId_of_plain plain

theorem plain_toString (n : ℕ) : Plain (toString n) := by
  constructor
  · intro isEmpty
    have digits := Nat.toList_repr (n := n)
    rw [show n.repr = "" from isEmpty] at digits
    exact Nat.toDigits_ne_nil digits.symm
  · intro member
    rw [show toString n = n.repr from rfl, Nat.toList_repr] at member
    exact absurd (Nat.isDigit_of_mem_toDigits (by decide) (by decide) member) (by decide)

/-- Decimal digits tell the numbers apart. -/
theorem toString_injective : Function.Injective (toString : ℕ → String) := by
  intro first second same
  have digits : Nat.toDigits 10 first = Nat.toDigits 10 second := by
    rw [← Nat.toList_repr, ← Nat.toList_repr]
    exact congrArg String.toList same
  rw [← Nat.ofDigitChars_ten_toDigits (n := first), digits, Nat.ofDigitChars_ten_toDigits]

/-- `createQueue` gives every job five attempts. -/
def attempts : ℕ := 5

/-- Where a job is in its queue. -/
inductive JobPhase (π : Type v) where
  /-- Waiting or delayed. -/
  | waiting
  | active (progress : π)
  | completed
  | failed
deriving DecidableEq

/-- A run that failed or is cut short does not go on. -/
theorem JobPhase.ne_active_of_ended {π : Type v} {phase : JobPhase π}
    (ended : phase = .waiting ∨ phase = .failed) (progress : π) : phase ≠ .active progress := by
  rintro rfl
  rcases ended with waiting | failed
  · cases waiting
  · cases failed

/-- A job, with the attempts that have failed. -/
structure Job (δ : Type u) (π : Type v) where
  data : δ
  attemptsMade : ℕ
  phase : JobPhase π
deriving DecidableEq

namespace Job

variable {δ : Type u} {π : Type v}

/-- A job that was just added. -/
def added (data : δ) : Job δ π where
  data := data
  attemptsMade := 0
  phase := .waiting

/-- A worker takes the job. -/
def start (progress : π) (job : Job δ π) : Option (Job δ π) :=
  match job.phase with
  | .waiting => some { job with phase := .active progress }
  | _ => none

/-- The running attempt goes on, where `advance` allows it. -/
def advance (advance : δ → π → Option π) (job : Job δ π) : Option (Job δ π) :=
  match job.phase with
  | .active progress =>
      (advance job.data progress).map fun progress => { job with phase := .active progress }
  | _ => none

/-- The running attempt ends well. -/
def complete (done : π → Prop) [DecidablePred done] (job : Job δ π) : Option (Job δ π) :=
  match job.phase with
  | .active progress => if done progress then some { job with phase := .completed } else none
  | _ => none

/-- The running attempt throws. -/
def fail (job : Job δ π) : Option (Job δ π) :=
  match job.phase with
  | .active _ =>
      some
        { job with
          attemptsMade := job.attemptsMade + 1
          phase := if job.attemptsMade + 1 < attempts then .waiting else .failed }
  | _ => none

/-- The process of the running attempt dies, and the queue takes the stalled job up again
or gives up. -/
def stall (again : Bool) (job : Job δ π) : Option (Job δ π) :=
  match job.phase with
  | .active _ => some { job with phase := if again then .waiting else .failed }
  | _ => none

/-- The job will not run again. -/
def Finished (job : Job δ π) : Prop :=
  match job.phase with
  | .completed | .failed => True
  | _ => False

instance (job : Job δ π) : Decidable job.Finished := by
  unfold Finished
  split <;> infer_instance

end Job

namespace Job

variable {δ : Type u} {π : Type v} {job target : Job δ π}

theorem start_eq_some {progress : π} (step : job.start progress = some target) :
    job.phase = .waiting ∧ target = { job with phase := .active progress } := by
  unfold start at step
  split at step
  next waiting =>
    cases step
    exact ⟨waiting, rfl⟩
  next => cases step

theorem advance_eq_some {change : δ → π → Option π} (step : job.advance change = some target) :
    ∃ progress advanced, job.phase = .active progress ∧
      change job.data progress = some advanced ∧
      target = { job with phase := .active advanced } := by
  unfold advance at step
  split at step
  next progress running =>
    rcases Option.map_eq_some_iff.mp step with ⟨advanced, advance_eq, rfl⟩
    exact ⟨progress, advanced, running, advance_eq, rfl⟩
  next => cases step

theorem complete_eq_some {done : π → Prop} [DecidablePred done]
    (step : job.complete done = some target) :
    ∃ progress, job.phase = .active progress ∧ done progress ∧
      target = { job with phase := .completed } := by
  unfold complete at step
  split at step
  next progress running =>
    split at step
    next finished =>
      cases step
      exact ⟨progress, running, finished, rfl⟩
    next => cases step
  next => cases step

theorem fail_eq_some (step : job.fail = some target) :
    target.data = job.data ∧ (∃ progress, job.phase = .active progress) ∧
      (target.phase = .waiting ∨ target.phase = .failed) := by
  unfold fail at step
  split at step
  next progress running =>
    cases step
    refine ⟨rfl, ⟨progress, running⟩, ?_⟩
    by_cases more : job.attemptsMade + 1 < attempts
    · exact .inl (if_pos more)
    · exact .inr (if_neg more)
  next => cases step

theorem stall_eq_some {again : Bool} (step : job.stall again = some target) :
    target.data = job.data ∧ (∃ progress, job.phase = .active progress) ∧
      (target.phase = .waiting ∨ target.phase = .failed) := by
  unfold stall at step
  split at step
  next progress running =>
    cases step
    refine ⟨rfl, ⟨progress, running⟩, ?_⟩
    cases again with
    | true => exact .inl rfl
    | false => exact .inr rfl
  next => cases step

theorem not_finished_of_active {progress : π} (running : job.phase = .active progress) :
    ¬job.Finished := by
  unfold Finished
  rw [running]
  exact id

end Job

/-- The jobs by id. -/
abbrev Jobs (δ : Type u) (π : Type v) := String → Option (Job δ π)

namespace Jobs

variable {δ : Type u} {π : Type v}

/-- No jobs. -/
def empty : Jobs δ π :=
  fun _ => none

/-- `queue.add` with a custom job id. -/
def add (jobs : Jobs δ π) (id : String) (data : δ) : Jobs δ π :=
  if jobs id = none then Function.update jobs id (some (.added data)) else jobs

/-- Change one job. -/
def modify (jobs : Jobs δ π) (id : String) (change : Job δ π → Option (Job δ π)) :
    Option (Jobs δ π) :=
  ((jobs id).bind change).map fun job => Function.update jobs id (some job)

/-- A finished job is removed when its retention ends. -/
def expire (jobs : Jobs δ π) (id : String) : Option (Jobs δ π) :=
  match jobs id with
  | some job => if job.Finished then some (Function.update jobs id none) else none
  | none => none

/-! ## What holds of every job -/

/-- Something holds of every job. -/
def All (holds : String → Job δ π → Prop) (jobs : Jobs δ π) : Prop :=
  ∀ id, ∀ job ∈ jobs id, holds id job

variable {holds : String → Job δ π → Prop} {jobs target : Jobs δ π} {id : String}

theorem all_empty : All holds (empty : Jobs δ π) := by
  intro id job member
  cases member

theorem All.mono (all : All holds jobs) {weaker : String → Job δ π → Prop}
    (implies : ∀ id job, holds id job → weaker id job) : All weaker jobs :=
  fun id job member => implies id job (all id job member)

theorem all_update {entry : Option (Job δ π)}
    (others : ∀ other, other ≠ id → ∀ job ∈ jobs other, holds other job)
    (new : ∀ job ∈ entry, holds id job) : All holds (Function.update jobs id entry) := by
  intro other job member
  by_cases same : other = id
  · rw [same, Function.update_self] at member
    rw [same]
    exact new job member
  · rw [Function.update_of_ne same] at member
    exact others other same job member

theorem All.update (all : All holds jobs) {entry : Option (Job δ π)}
    (new : ∀ job ∈ entry, holds id job) : All holds (Function.update jobs id entry) :=
  all_update (fun other _ => all other) new

theorem All.add (all : All holds jobs) {data : δ} (added : holds id (.added data)) :
    All holds (jobs.add id data) := by
  unfold Jobs.add
  split
  next =>
    apply all.update
    rintro job ⟨⟩
    exact added
  next => exact all

theorem add_of_some {other : String} {data : δ} {job : Job δ π} (found : jobs other = some job) :
    jobs.add id data other = some job := by
  unfold Jobs.add
  split
  next free =>
    have differs : other ≠ id := by
      rintro rfl
      rw [free] at found
      cases found
    rwa [Function.update_of_ne differs]
  next => exact found

theorem add_of_ne {other : String} {data : δ} (differs : other ≠ id) :
    jobs.add id data other = jobs other := by
  unfold Jobs.add
  split
  next => rw [Function.update_of_ne differs]
  next => rfl

theorem add_of_none {data : δ} (free : jobs id = none) :
    jobs.add id data id = some (.added data) := by
  rw [Jobs.add, if_pos free, Function.update_self]

/-- Adding never frees an id. -/
theorem isSome_add {data : δ} {other : String}
    (taken : other = id ∨ (jobs other).isSome = true) :
    (jobs.add id data other).isSome = true := by
  cases found : jobs other with
  | some job => rw [add_of_some found, Option.isSome_some]
  | none =>
      rw [found] at taken
      have same : other = id := taken.resolve_right (by simp)
      rw [same] at found ⊢
      rw [add_of_none found, Option.isSome_some]

theorem isSome_update {job : Job δ π} {other : String} (taken : (jobs other).isSome = true) :
    (Function.update jobs id (some job) other).isSome = true := by
  by_cases same : other = id
  · simp [same]
  · rwa [Function.update_of_ne same]

theorem modify_eq_some_iff {change : Job δ π → Option (Job δ π)} :
    jobs.modify id change = some target ↔
      ∃ job changed, jobs id = some job ∧ change job = some changed ∧
        target = Function.update jobs id (some changed) := by
  simp only [modify, Option.map_eq_some_iff, Option.bind_eq_some_iff, eq_comm (b := target)]
  constructor
  · rintro ⟨changed, ⟨job, found, change_eq⟩, target_eq⟩
    exact ⟨job, changed, found, change_eq, target_eq⟩
  · rintro ⟨job, changed, found, change_eq, target_eq⟩
    exact ⟨changed, ⟨job, found, change_eq⟩, target_eq⟩

theorem All.modify (all : All holds jobs) {change : Job δ π → Option (Job δ π)}
    (step : jobs.modify id change = some target)
    (kept : ∀ job changed, holds id job → change job = some changed → holds id changed) :
    All holds target := by
  rcases modify_eq_some_iff.mp step with ⟨job, changed, found, change_eq, rfl⟩
  apply all.update
  rintro other ⟨⟩
  exact kept job changed (all id job found) change_eq

theorem All.expire (all : All holds jobs) (step : jobs.expire id = some target) :
    All holds target := by
  unfold Jobs.expire at step
  split at step
  next =>
    split at step
    next =>
      cases step
      apply all.update
      simp
    next => cases step
  next => cases step

end Jobs

end RiskRail.Queue
