import RiskRail.Transition.Core

/-!
# A system inside another

Where each step of a system either leaves a part of its state alone or does there what a
smaller system does, the part of every run is a run of the smaller system.
-/

namespace RiskRail.Transition

universe u v w x

variable {σ : Type u} {α : Type v} {τ : Type w} {β : Type x}

/-- What a run does to the part, by what each step does to it. -/
def labels (next : Step σ α) (label : σ → α → Option β) : σ → List α → List β
  | _, [] => []
  | state, action :: rest =>
      (label state action).toList ++
        match next state action with
        | some middle => labels next label middle rest
        | none => []

/-- Each step is a step of the part, or none. -/
def Projects (whole : Step σ α) (part : Step τ β) (project : σ → τ) (label : σ → α → Option β) :
    Prop :=
  ∀ source action target, whole source action = some target →
    match label source action with
    | some step => part (project source) step = some (project target)
    | none => project target = project source

variable {whole : Step σ α} {part : Step τ β} {project : σ → τ} {label : σ → α → Option β}
  {source target : σ} {actions : List α}

theorem Projects.exec_labels (projects : Projects whole part project label)
    (run : exec whole source actions = some target) :
    exec part (project source) (labels whole label source actions) = some (project target) := by
  induction actions generalizing source with
  | nil =>
      cases run
      rfl
  | cons action rest ih =>
      obtain ⟨middle, step, run⟩ := exec_cons_eq_some_iff.mp run
      have moved := projects source action middle step
      have later := ih run
      rw [labels, step]
      cases labelled : label source action with
      | none =>
          rw [labelled] at moved
          dsimp only at moved
          rw [moved] at later
          exact later
      | some step =>
          rw [labelled] at moved
          exact exec_cons_eq_some_iff.mpr ⟨project middle, moved, later⟩

/-- What a run and one more step do to the part. -/
theorem labels_concat {action : α} (run : exec whole source actions = some target) :
    labels whole label source (actions ++ [action]) =
      labels whole label source actions ++ (label target action).toList := by
  induction actions generalizing source with
  | nil =>
      cases run
      rw [List.nil_append, labels, labels, List.nil_append]
      split <;> simp [labels]
  | cons first rest ih =>
      obtain ⟨middle, step, run⟩ := exec_cons_eq_some_iff.mp run
      rw [List.cons_append, labels, labels, step]
      dsimp only
      rw [ih run, List.append_assoc]

end RiskRail.Transition
