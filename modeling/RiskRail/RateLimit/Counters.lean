import Mathlib.Data.List.Basic
import Mathlib.Logic.Function.Basic

/-!
# Counters that vanish

A store of counters under keys, with the commands INCR and EXPIRE.  A counter vanishes
at the moment its expiry sets; incrementing one that is not there starts it at one and
gives it no expiry.  Times are milliseconds.
-/

namespace RiskRail.RateLimit

universe u

variable {κ : Type u}

/-- A key of the store. -/
structure Counter where
  count : ℕ
  /-- `none` as long as no expiry is set. -/
  expiresAt : Option ℕ := none
deriving DecidableEq

/-- Counters under keys, the vanished ones among them. -/
abbrev Counters (κ : Type u) := κ → Option Counter

namespace Counters

variable (counters : Counters κ) (now : ℕ) (key : κ)

/-- No keys. -/
def empty : Counters κ :=
  fun _ => none

/-- The counter that is there now. -/
def live : Option Counter :=
  (counters key).filter fun counter => counter.expiresAt.all fun moment => now < moment

/-- The counter that INCR leaves; its count is the answer. -/
def incremented : Counter :=
  match counters.live now key with
  | none => { count := 1 }
  | some counter => { counter with count := counter.count + 1 }

section Live

variable {counters now key} {counter : Counter}

theorem of_live (live : counters.live now key = some counter) : counters key = some counter :=
  (Option.filter_eq_some_iff.mp live).1

/-- A counter is there until its expiry. -/
theorem live_of_expiresAt (found : counters key = some counter)
    (later : ∀ moment ∈ counter.expiresAt, now < moment) :
    counters.live now key = some counter := by
  rw [live, found, Option.filter_some, if_pos]
  cases set : counter.expiresAt with
  | none => rfl
  | some moment => exact decide_eq_true (later moment set)

/-- A counter that is there is counted up and keeps its expiry. -/
theorem incremented_of_live (there : counters.live now key = some counter) :
    counters.incremented now key = { counter with count := counter.count + 1 } := by
  rw [incremented, there]

theorem incremented_of_not_live (gone : counters.live now key = none) :
    counters.incremented now key = { count := 1 } := by
  rw [incremented, gone]

end Live

variable [DecidableEq κ]

/-- `INCR`. -/
def incr : Counters κ :=
  Function.update counters key (some (counters.incremented now key))

/-- EXPIRE: nothing happens to a counter that is not there. -/
def expire (seconds : ℕ) : Counters κ :=
  Function.update counters key <|
    (counters.live now key).elim (counters key) fun counter =>
      some { counter with expiresAt := some (now + 1000 * seconds) }

variable {counters now key} {counter : Counter}

@[simp]
theorem incr_self : counters.incr now key key = some (counters.incremented now key) :=
  Function.update_self ..

@[simp]
theorem incr_of_ne {other : κ} (ne : other ≠ key) : counters.incr now key other = counters other :=
  Function.update_of_ne ne ..

@[simp]
theorem expire_of_ne {other : κ} {seconds : ℕ} (ne : other ≠ key) :
    counters.expire now key seconds other = counters other :=
  Function.update_of_ne ne ..

/-- An expiry moves the end of a counter and leaves its count. -/
theorem expire_self {seconds : ℕ} (found : counters key = some counter) :
    ∃ after, counters.expire now key seconds key = some after ∧ after.count = counter.count ∧
      (after.expiresAt = counter.expiresAt ∨
        after.expiresAt = some (now + 1000 * seconds)) := by
  unfold expire
  rw [Function.update_self]
  cases there : counters.live now key with
  | none => exact ⟨counter, found, rfl, .inl rfl⟩
  | some present =>
      have same : present = counter := Option.some_inj.mp ((of_live there).symm.trans found)
      subst same
      exact ⟨_, rfl, rfl, .inr rfl⟩

/-- EXPIRE leaves the counts. -/
theorem of_expire {other : κ} {seconds : ℕ}
    (stored : counters.expire now key seconds other = some counter) :
    ∃ before, counters other = some before ∧ counter.count = before.count := by
  by_cases same : other = key
  · subst same
    cases found : counters other with
    | none =>
        have absent : counters.live now other = none := by rw [live, found, Option.filter_none]
        rw [expire, Function.update_self, absent, Option.elim_none, found] at stored
        cases stored
    | some before =>
        obtain ⟨after, stored_after, count_eq, -⟩ := expire_self found
        cases stored_after.symm.trans stored
        exact ⟨before, rfl, count_eq⟩
  · rw [expire_of_ne same] at stored
    exact ⟨counter, stored, rfl⟩

/-- INCR sets no expiry. -/
theorem expiresAt_of_incr {other : κ} {moment : ℕ}
    (stored : counters.incr now key other = some counter) (set : counter.expiresAt = some moment) :
    ∃ before, counters other = some before ∧ before.expiresAt = some moment := by
  by_cases same : other = key
  · subst same
    rw [incr_self, Option.some_inj] at stored
    subst stored
    cases there : counters.live now other with
    | none =>
        rw [incremented_of_not_live there] at set
        cases set
    | some present =>
        rw [incremented_of_live there] at set
        exact ⟨present, of_live there, set⟩
  · rw [incr_of_ne same] at stored
    exact ⟨counter, stored, set⟩

/-- EXPIRE sets one expiry. -/
theorem expiresAt_of_expire {other : κ} {seconds moment : ℕ}
    (stored : counters.expire now key seconds other = some counter)
    (set : counter.expiresAt = some moment) :
    (∃ before, counters other = some before ∧ before.expiresAt = some moment) ∨
      other = key ∧ moment = now + 1000 * seconds := by
  by_cases same : other = key
  · subst same
    cases found : counters other with
    | none =>
        have absent : counters.live now other = none := by rw [live, found, Option.filter_none]
        rw [expire, Function.update_self, absent, Option.elim_none, found] at stored
        cases stored
    | some before =>
        obtain ⟨after, stored_after, -, kept | ended⟩ := expire_self found
        · cases stored_after.symm.trans stored
          exact .inl ⟨before, rfl, kept.symm.trans set⟩
        · cases stored_after.symm.trans stored
          exact .inr ⟨rfl, Option.some_inj.mp (set.symm.trans ended)⟩
  · rw [expire_of_ne same] at stored
    exact .inl ⟨counter, stored, set⟩

end Counters

end RiskRail.RateLimit
