import Mathlib.Data.List.Forall2

/-!
# Lists read entry by entry

Reading every entry of a list succeeds where each entry is read, and then the results stand
side by side with the entries.
-/

namespace RiskRail.Relational

universe u v w

variable {α : Type u} {γ : Type w} {xs : List α}

theorem mapM_eq_some_iff {β : Type u} {ys : List β} {f : α → Option β} :
    xs.mapM f = some ys ↔ List.Forall₂ (fun x y => f x = some y) xs ys := by
  induction xs generalizing ys with
  | nil => simp [eq_comm]
  | cons x xs ih =>
      rw [List.mapM_cons, List.forall₂_cons_left_iff]
      simp only [Option.bind_eq_bind, Option.bind_eq_some_iff, Option.pure_def, Option.some_inj,
        ih]
      constructor
      · rintro ⟨y, read, rest, others, rfl⟩
        exact ⟨y, rest, read, others, rfl⟩
      · rintro ⟨y, rest, read, others, rfl⟩
        exact ⟨y, read, rest, others, rfl⟩

/-- Entries that are read alike have the same results. -/
theorem mapM_eq_mapM {β : Type u} {f : α → Option γ} {g : β → Option γ} {ys : List β}
    (alike : List.Forall₂ (fun x y => f x = g y) xs ys) : xs.mapM f = ys.mapM g := by
  induction alike with
  | nil => rfl
  | cons same _ ih => rw [List.mapM_cons, List.mapM_cons, same, ih]

/-- A check of every entry lets the whole list through or nothing. -/
theorem mapM_check_eq_some_iff {β : Type u} {ys : List β} {p : α → Prop} [DecidablePred p]
    {f : α → β} :
    (xs.mapM fun x => if p x then some (f x) else none) = some ys ↔
      (∀ x ∈ xs, p x) ∧ ys = xs.map f := by
  simp only [mapM_eq_some_iff, Option.ite_none_right_eq_some, Option.some_inj,
    List.forall₂_and_left, ← List.forall₂_map_left_iff (f := f), List.forall₂_eq_eq_eq]
  rw [eq_comm]

/-- The same where an entry may fail with an error. -/
theorem mapM_eq_ok_iff {β : Type u} {ε : Type u} {ys : List β} {f : α → Except ε β} :
    xs.mapM f = .ok ys ↔ List.Forall₂ (fun x y => f x = .ok y) xs ys := by
  induction xs generalizing ys with
  | nil => simp [eq_comm, pure, Except.pure]
  | cons x xs ih =>
      rw [List.mapM_cons, List.forall₂_cons_left_iff]
      cases read : f x with
      | error failure => simp [bind, Except.bind]
      | ok y =>
          cases others : xs.mapM f with
          | error failure =>
              simp only [others, reduceCtorEq, false_iff] at ih
              simp [bind, Except.bind, ih]
          | ok rest =>
              simp only [others, Except.ok.injEq] at ih
              simp only [bind, Except.bind, pure, Except.pure, Except.ok.injEq, ← ih]
              constructor
              · rintro rfl
                exact ⟨y, rest, rfl, rfl, rfl⟩
              · rintro ⟨_, _, rfl, rfl, rfl⟩
                rfl

end RiskRail.Relational
