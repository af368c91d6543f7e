import Mathlib.Data.List.Flatten
import Mathlib.Data.Nat.Notation
import Mathlib.Tactic.Cases

/-!
# Pages

A list that is fetched page by page: every page may say where the next one is.  The loop that
collects the items succeeds if and only if the pages come to an end without a failure, and then
it has the items of all of them in order.
-/

namespace RiskRail.Transition

universe u v w

/-- A page and the cursor of the next one. -/
structure Page (Item : Type u) (Cursor : Type v) where
  items : List Item
  next : Option Cursor
  deriving DecidableEq

variable {Item : Type u} {Cursor : Type v} {Failure : Type w}
  (fetch : Option Cursor → Except Failure (Page Item Cursor))

/-- The loop with what it has collected; `none` is a loop that still goes on. -/
def collect : ℕ → Option Cursor → List Item → Option (Except Failure (List Item))
  | 0, _, _ => none
  | fuel + 1, cursor, collected =>
      match fetch cursor with
      | .error failure => some (.error failure)
      | .ok page =>
          match page.next with
          | none => some (.ok (collected ++ page.items))
          | some next => collect fuel (some next) (collected ++ page.items)

/-- The items of the pages from a cursor up to a page without a next one. -/
inductive Pages : Option Cursor → List (List Item) → Prop where
  | last {cursor : Option Cursor} {items : List Item} (fetched : fetch cursor = .ok ⟨items, none⟩) :
      Pages cursor [items]
  | more {cursor : Option Cursor} {items : List Item} {next : Cursor} {rest : List (List Item)}
      (fetched : fetch cursor = .ok ⟨items, some next⟩) (later : Pages (some next) rest) :
      Pages cursor (items :: rest)

variable {fetch}

theorem Pages.collect_eq {cursor : Option Cursor} {pages : List (List Item)}
    (complete : Pages fetch cursor pages) {fuel : ℕ} (enough : pages.length ≤ fuel)
    (collected : List Item) :
    collect fetch fuel cursor collected = some (.ok (collected ++ pages.flatten)) := by
  induction complete generalizing fuel collected with
  | last fetched =>
      cases fuel with
      | zero => cases enough
      | succ fuel => simp [collect, fetched]
  | more fetched later ih =>
      cases fuel with
      | zero => cases enough
      | succ fuel =>
          rw [collect, fetched]
          dsimp only
          rw [ih (Nat.le_of_succ_le_succ enough), List.flatten_cons, List.append_assoc]

theorem pages_of_collect {fuel : ℕ} {cursor : Option Cursor} {collected result : List Item}
    (done : collect fetch fuel cursor collected = some (.ok result)) :
    ∃ pages, Pages fetch cursor pages ∧ pages.length ≤ fuel ∧
      result = collected ++ pages.flatten := by
  induction fuel generalizing cursor collected with
  | zero => cases done
  | succ fuel ih =>
      rw [collect] at done
      cases fetched : fetch cursor with
      | error failure =>
          rw [fetched] at done
          cases done
      | ok page =>
          obtain ⟨items, next⟩ := page
          rw [fetched] at done
          cases next with
          | none =>
              cases done
              exact ⟨[items], .last fetched, Nat.succ_le_succ (Nat.zero_le _), by simp⟩
          | some next =>
              obtain ⟨pages, later, length, result_eq⟩ := ih done
              refine ⟨items :: pages, .more fetched later, Nat.succ_le_succ length, ?_⟩
              rw [result_eq, List.flatten_cons, List.append_assoc]

/-- The loop succeeds with the items of all pages, or not at all. -/
theorem collect_eq_ok_iff {fuel : ℕ} {cursor : Option Cursor} {result : List Item} :
    collect fetch fuel cursor [] = some (.ok result) ↔
      ∃ pages, Pages fetch cursor pages ∧ pages.length ≤ fuel ∧ result = pages.flatten := by
  constructor
  · exact pages_of_collect
  · rintro ⟨pages, complete, enough, rfl⟩
    exact complete.collect_eq enough []

end RiskRail.Transition
