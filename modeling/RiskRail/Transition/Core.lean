import Mathlib.Data.List.Basic
import Mathlib.Logic.Function.Basic

/-!
# Labelled partial transitions

A system is an option-valued step function: `next state action` is the state
after `action`, or `none` where the action is not enabled.  Every choice the
environment makes is part of the action, so a run is a list of actions.  This
file supplies runs, the guard of a run, and the induction rules that carry an
invariant from one step to a whole run.
-/

namespace RiskRail.Transition

universe u v

variable {σ : Type u} {α : Type v}

/-- An option-valued labelled step. -/
abbrev Step (σ : Type u) (α : Type v) := σ → α → Option σ

/-- Execute a list of actions, failing at the first one that is not enabled. -/
def exec (next : Step σ α) : σ → List α → Option σ
  | state, [] => some state
  | state, action :: rest =>
      (next state action).bind fun middle => exec next middle rest

@[simp]
theorem exec_nil (next : Step σ α) (state : σ) : exec next state [] = some state :=
  rfl

theorem exec_cons_eq_some_iff {next : Step σ α} {source target : σ}
    {action : α} {rest : List α} :
    exec next source (action :: rest) = some target ↔
      ∃ middle, next source action = some middle ∧
        exec next middle rest = some target :=
  Option.bind_eq_some_iff

/-- A run splits at every point. -/
theorem exec_append_eq_some_iff {next : Step σ α} {source target : σ}
    {first second : List α} :
    exec next source (first ++ second) = some target ↔
      ∃ middle, exec next source first = some middle ∧
        exec next middle second = some target := by
  induction first generalizing source with
  | nil => simp
  | cons action rest ih =>
      simp only [List.cons_append, exec_cons_eq_some_iff, ih]
      constructor
      · rintro ⟨next, step, middle, run, last⟩
        exact ⟨middle, ⟨next, step, run⟩, last⟩
      · rintro ⟨middle, ⟨next, step, run⟩, last⟩
        exact ⟨next, step, middle, run, last⟩

/-- Expose the last step of a run. -/
theorem exec_concat_eq_some_iff {next : Step σ α} {source target : σ}
    {actions : List α} {action : α} :
    exec next source (actions ++ [action]) = some target ↔
      ∃ middle, exec next source actions = some middle ∧
        next middle action = some target := by
  simp [exec_append_eq_some_iff, exec_cons_eq_some_iff]

/-- `target` is reached from `source` by some run. -/
def Reachable (next : Step σ α) (source target : σ) : Prop :=
  ∃ actions, exec next source actions = some target

theorem Reachable.refl (next : Step σ α) (state : σ) : Reachable next state state :=
  ⟨[], rfl⟩

theorem Reachable.tail {next : Step σ α} {source middle target : σ} {action : α}
    (reachable : Reachable next source middle)
    (step : next middle action = some target) : Reachable next source target := by
  obtain ⟨actions, run⟩ := reachable
  exact ⟨actions ++ [action], exec_concat_eq_some_iff.mpr ⟨middle, run, step⟩⟩

/-- Every action of the run is taken in a state that meets `guard`. -/
def Along (next : Step σ α) (guard : σ → α → Prop) : σ → List α → Prop
  | _, [] => True
  | state, action :: rest =>
      guard state action ∧
        ∀ middle, next state action = some middle → Along next guard middle rest

/-- The guard of a concrete run can be checked by running it. -/
instance Along.decidable (next : Step σ α) (guard : σ → α → Prop)
    [∀ state action, Decidable (guard state action)] :
    (state : σ) → (actions : List α) → Decidable (Along next guard state actions)
  | _, [] => isTrue trivial
  | state, action :: rest =>
      match step : next state action with
      | none =>
          decidable_of_iff (guard state action)
            ⟨fun holds => ⟨holds, fun middle stepped => by simp [step] at stepped⟩, And.left⟩
      | some middle =>
          have := Along.decidable next guard middle rest
          decidable_of_iff (guard state action ∧ Along next guard middle rest)
            ⟨fun both => ⟨both.1, fun other stepped => by
              cases step.symm.trans stepped
              exact both.2⟩, fun along => ⟨along.1, along.2 middle step⟩⟩

/-- An invariant of guarded steps holds at the end of every guarded run. -/
theorem Along.invariant {next : Step σ α} {guard : σ → α → Prop}
    {invariant : σ → Prop}
    (preserved : ∀ {source target action}, invariant source → guard source action →
      next source action = some target → invariant target)
    {source target : σ} {actions : List α}
    (along : Along next guard source actions)
    (run : exec next source actions = some target)
    (initial : invariant source) : invariant target := by
  induction actions generalizing source with
  | nil =>
      cases run
      exact initial
  | cons action rest ih =>
      obtain ⟨middle, step, run⟩ := exec_cons_eq_some_iff.mp run
      exact ih (along.2 middle step) run (preserved initial along.1 step)

/-- A guard that every action of the run meets in every state. -/
theorem along_of_forall {next : Step σ α} {guard : σ → α → Prop} {state : σ} {actions : List α}
    (meets : ∀ action ∈ actions, ∀ state, guard state action) :
    Along next guard state actions := by
  induction actions generalizing state with
  | nil => trivial
  | cons action rest ih =>
      refine ⟨meets action List.mem_cons_self state, fun middle _ => ih ?_⟩
      exact fun later member => meets later (List.mem_cons_of_mem _ member)

/-- A guard together with what holds of every action by itself. -/
theorem Along.and_forall {next : Step σ α} {guard : σ → α → Prop} {holds : α → Prop}
    {state : σ} {actions : List α} (along : Along next guard state actions)
    (all : ∀ action ∈ actions, holds action) :
    Along next (fun state action => guard state action ∧ holds action) state actions := by
  induction actions generalizing state with
  | nil => trivial
  | cons action rest ih =>
      rw [List.forall_mem_cons] at all
      exact ⟨⟨along.1, all.1⟩, fun middle step => ih (along.2 middle step) all.2⟩

/-- What a guarded step satisfies inside an invariant, every step of a guarded run
satisfies. -/
theorem Along.imp {next : Step σ α} {guard goal : σ → α → Prop} {invariant : σ → Prop}
    (preserved : ∀ {source target action}, invariant source → guard source action →
      next source action = some target → invariant target)
    (implies : ∀ {state action}, invariant state → guard state action → goal state action)
    {state : σ} {actions : List α} (along : Along next guard state actions)
    (initial : invariant state) : Along next goal state actions := by
  induction actions generalizing state with
  | nil => trivial
  | cons action rest ih =>
      refine ⟨implies initial along.1, fun middle step => ?_⟩
      exact ih (along.2 middle step) (preserved initial along.1 step)

/-- Two guards that agree inside an invariant guard the same runs. -/
theorem along_iff_of_invariant {next : Step σ α} {first second : σ → α → Prop}
    (invariant : σ → Prop)
    (agree : ∀ {state action}, invariant state → next state action ≠ none →
      (first state action ↔ second state action))
    (disabled : ∀ {state action}, next state action = none →
      (first state action ↔ second state action))
    (preserved : ∀ {source target action}, invariant source → second source action →
      next source action = some target → invariant target)
    {state : σ} (actions : List α) (initial : invariant state) :
    Along next first state actions ↔ Along next second state actions := by
  induction actions generalizing state with
  | nil => exact Iff.rfl
  | cons action rest ih =>
      have head : first state action ↔ second state action := by
        by_cases enabled : next state action = none
        · exact disabled enabled
        · exact agree initial enabled
      constructor
      · rintro ⟨guard, tail⟩
        have ordered := head.mp guard
        exact ⟨ordered, fun middle step =>
          (ih (preserved initial ordered step)).mp (tail middle step)⟩
      · rintro ⟨guard, tail⟩
        exact ⟨head.mpr guard, fun middle step =>
          (ih (preserved initial guard step)).mpr (tail middle step)⟩

/-- A guarded run meets the guard after each of its prefixes. -/
theorem along_iff_forall_prefix {next : Step σ α} {guard : σ → α → Prop} {state : σ}
    {actions : List α} :
    Along next guard state actions ↔
      ∀ before action after, actions = before ++ action :: after →
        ∀ middle, exec next state before = some middle → guard middle action := by
  induction actions generalizing state with
  | nil => simp [Along]
  | cons first rest ih =>
      constructor
      · rintro ⟨here, tail⟩ before action after split middle run
        cases before with
        | nil =>
            cases split
            cases run
            exact here
        | cons head before =>
            cases split
            obtain ⟨second, step, run⟩ := exec_cons_eq_some_iff.mp run
            exact ih.mp (tail second step) before action after rfl middle run
      · intro meets
        refine ⟨meets [] first rest rfl state rfl, fun second step => ih.mpr ?_⟩
        intro before action after split middle run
        exact meets (first :: before) action after (congrArg (List.cons first) split) middle
          (exec_cons_eq_some_iff.mpr ⟨second, step, run⟩)

/-- A part of a guarded run is guarded. -/
theorem Along.within {next : Step σ α} {guard : σ → α → Prop} {source middle : σ}
    {before during after : List α}
    (along : Along next guard source (before ++ during ++ after))
    (run : exec next source before = some middle) : Along next guard middle during := by
  refine along_iff_forall_prefix.mpr fun first action second split last part => ?_
  refine along_iff_forall_prefix.mp along (before ++ first) action (second ++ after) ?_ last ?_
  · rw [split, List.append_assoc, List.append_assoc, List.append_assoc, List.cons_append]
  · exact exec_append_eq_some_iff.mpr ⟨middle, run, part⟩

/-- An invariant of all steps holds at the end of every run. -/
theorem exec_invariant {next : Step σ α} {invariant : σ → Prop}
    (preserved : ∀ {source target action}, invariant source →
      next source action = some target → invariant target)
    {source target : σ} {actions : List α}
    (run : exec next source actions = some target)
    (initial : invariant source) : invariant target := by
  induction actions generalizing source with
  | nil =>
      cases run
      exact initial
  | cons action rest ih =>
      obtain ⟨middle, step, run⟩ := exec_cons_eq_some_iff.mp run
      exact ih run (preserved initial step)

/-- What a step outside the guard brings about, and no later step undoes, holds at the
end of every run that leaves the guard. -/
theorem exec_of_not_along {next : Step σ α} {guard : σ → α → Prop} {spoiled : σ → Prop}
    (outside : ∀ {source target action}, ¬guard source action →
      next source action = some target → spoiled target)
    (kept : ∀ {source target action}, spoiled source →
      next source action = some target → spoiled target)
    {source target : σ} {actions : List α}
    (run : exec next source actions = some target)
    (not : ¬Along next guard source actions) : spoiled target := by
  induction actions generalizing source with
  | nil => exact absurd trivial not
  | cons action rest ih =>
      obtain ⟨middle, step, run⟩ := exec_cons_eq_some_iff.mp run
      by_cases inside : guard source action
      · apply ih run
        intro tail
        apply not
        refine ⟨inside, fun other stepped => ?_⟩
        cases step.symm.trans stepped
        exact tail
      · exact exec_invariant kept run (outside inside step)

/-- What holds at the end of a run and not at its start comes about in one of its steps. -/
theorem exec_arises {next : Step σ α} {holds : σ → Prop} {source target : σ} {actions : List α}
    (run : exec next source actions = some target) (initial : ¬holds source)
    (final : holds target) :
    ∃ before action after middle last, actions = before ++ action :: after ∧
      exec next source before = some middle ∧ ¬holds middle ∧
        next middle action = some last ∧ holds last := by
  induction actions generalizing source with
  | nil =>
      cases run
      exact absurd final initial
  | cons action rest ih =>
      obtain ⟨second, step, run⟩ := exec_cons_eq_some_iff.mp run
      by_cases arisen : holds second
      · exact ⟨[], action, rest, source, second, rfl, rfl, initial, step, arisen⟩
      · obtain ⟨before, later, after, middle, last, split, first, fails, stepped, arises⟩ :=
          ih run arisen
        exact ⟨action :: before, later, after, middle, last, congrArg (List.cons action) split,
          exec_cons_eq_some_iff.mpr ⟨second, step, first⟩, fails, stepped, arises⟩

/-- A reflexive and transitive relation between the two ends of a step relates
the two ends of a run that stays inside an invariant. -/
theorem exec_relation {next : Step σ α} {invariant : σ → Prop}
    {related : σ → σ → Prop}
    (refl : ∀ state, related state state)
    (trans : ∀ {first second third}, related first second → related second third →
      related first third)
    (preserved : ∀ {source target action}, invariant source →
      next source action = some target → invariant target ∧ related source target)
    {source target : σ} {actions : List α}
    (run : exec next source actions = some target)
    (initial : invariant source) : related source target := by
  induction actions generalizing source with
  | nil =>
      cases run
      exact refl _
  | cons action rest ih =>
      obtain ⟨middle, step, run⟩ := exec_cons_eq_some_iff.mp run
      obtain ⟨kept, head⟩ := preserved initial step
      exact trans head (ih run kept)

/-- One of several parties moves: what holds of a party in the new state holds of the move
or held of the party before. -/
theorem update_iff {ι : Type u} {β : Type v} [DecidableEq ι] {parties : ι → β} {party other : ι}
    {moved : β} (holds : β → Prop) :
    holds (Function.update parties party moved other) ↔
      other = party ∧ holds moved ∨ other ≠ party ∧ holds (parties other) := by
  by_cases same : other = party
  · rw [same, Function.update_self]
    simp
  · rw [Function.update_of_ne same]
    simp [same]

end RiskRail.Transition
