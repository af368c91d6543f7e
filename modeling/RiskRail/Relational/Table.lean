import Mathlib.Data.List.Nodup
import Mathlib.Data.List.Perm.Basic

/-!
# Tables with a primary key

A table is a list of rows with pairwise distinct keys.  The order of the rows
carries no meaning, so everything is stated by membership.  This file supplies
the upsert of one row and of many, the update of all rows by a function that
leaves keys alone, and the rules for what they do.
-/

namespace RiskRail.Relational

universe u v

variable {K : Type u} {R : Type v} [DecidableEq K]

/-- Rows with distinct keys. -/
structure Table (key : R → K) where
  rows : List R
  distinct : (rows.map key).Nodup

namespace Table

variable {key : R → K}

/-- No rows. -/
def empty : Table key where
  rows := []
  distinct := List.nodup_nil

omit [DecidableEq K] in
/-- A key identifies its row. -/
theorem eq_of_key_eq (table : Table key) {first second : R} (firstMem : first ∈ table.rows)
    (secondMem : second ∈ table.rows) (same : key first = key second) : first = second :=
  List.inj_on_of_nodup_map table.distinct firstMem secondMem same

/-- Put a row in the place of the one with its key, if any. -/
def upsert (table : Table key) (row : R) : Table key where
  rows := row :: table.rows.filter fun other => key other ≠ key row
  distinct := by
    rw [List.map_cons, List.nodup_cons]
    constructor
    · intro member
      rcases List.mem_map.mp member with ⟨other, otherMem, same⟩
      exact absurd same (by simpa using (List.mem_filter.mp otherMem).2)
    · exact (List.filter_sublist.map key).nodup table.distinct

theorem mem_upsert_iff {table : Table key} {row other : R} :
    other ∈ (table.upsert row).rows ↔
      other = row ∨ other ∈ table.rows ∧ key other ≠ key row := by
  simp [upsert]

/-- Upsert the rows one after another. -/
def upsertAll (table : Table key) (rows : List R) : Table key :=
  rows.foldl upsert table

/-- Rows with distinct keys all end up in the table, next to the old rows with
other keys. -/
theorem mem_upsertAll_iff {rows : List R} (distinct : (rows.map key).Nodup) {table : Table key}
    {row : R} :
    row ∈ (table.upsertAll rows).rows ↔
      row ∈ rows ∨ row ∈ table.rows ∧ key row ∉ rows.map key := by
  induction rows generalizing table with
  | nil => simp [upsertAll]
  | cons first rest ih =>
      rw [List.map_cons, List.nodup_cons] at distinct
      have split : (row ∈ (table.upsertAll (first :: rest)).rows ↔
          row ∈ rest ∨ row ∈ (table.upsert first).rows ∧ key row ∉ rest.map key) := ih distinct.2
      rw [split, mem_upsert_iff, List.map_cons]
      simp only [List.mem_cons, not_or]
      constructor
      · rintro (later | ⟨rfl | ⟨old, other⟩, fresh⟩)
        · exact .inl (.inr later)
        · exact .inl (.inl rfl)
        · exact .inr ⟨old, other, fresh⟩
      · rintro ((rfl | later) | ⟨old, other, fresh⟩)
        · exact .inr ⟨.inl rfl, distinct.1⟩
        · exact .inl later
        · exact .inr ⟨.inr ⟨old, other⟩, fresh⟩

omit [DecidableEq K] in
/-- Change rows without touching their keys. -/
def update (table : Table key) (change : R → R) (keeps : ∀ row, key (change row) = key row) :
    Table key where
  rows := table.rows.map change
  distinct := by
    rw [List.map_map, show key ∘ change = key from funext keeps]
    exact table.distinct

omit [DecidableEq K] in
theorem mem_update_iff {table : Table key} {change : R → R}
    {keeps : ∀ row, key (change row) = key row} {row : R} :
    row ∈ (table.update change keeps).rows ↔ ∃ old ∈ table.rows, change old = row :=
  List.mem_map

omit [DecidableEq K] in
/-- Take the selected rows out. -/
def delete (table : Table key) (selected : R → Bool) : Table key where
  rows := table.rows.filter fun row => !selected row
  distinct := (List.filter_sublist.map key).nodup table.distinct

omit [DecidableEq K] in
theorem mem_delete_iff {table : Table key} {selected : R → Bool} {row : R} :
    row ∈ (table.delete selected).rows ↔ row ∈ table.rows ∧ selected row = false := by
  simp [delete]

/-! ## Rows that a write leaves alone -/

section

variable {table : Table key} {selects : R → Bool}

theorem filter_upsert {row : R} (unselected : selects row = false)
    (apart : ∀ old ∈ table.rows, selects old = true → key old ≠ key row) :
    (table.upsert row).rows.filter selects = table.rows.filter selects := by
  rw [upsert, List.filter_cons_of_neg (by simpa using unselected), List.filter_filter]
  refine List.filter_congr fun old member => ?_
  cases selected : selects old with
  | false => rfl
  | true => simpa using apart old member selected

omit [DecidableEq K] in
theorem filter_map_rows {change : R → R}
    (alike : ∀ row ∈ table.rows, selects (change row) = selects row)
    (kept : ∀ row ∈ table.rows, selects row = true → change row = row) :
    (table.rows.map change).filter selects = table.rows.filter selects := by
  have unmoved : table.rows.filter (selects ∘ change) = table.rows.filter selects :=
    List.filter_congr alike
  rw [List.filter_map, unmoved]
  conv_rhs => rw [← List.map_id (table.rows.filter selects)]
  refine List.map_congr_left fun row member => ?_
  rw [List.mem_filter] at member
  exact kept row member.1 member.2

omit [DecidableEq K] in
theorem filter_delete {deleted : R → Bool}
    (kept : ∀ row ∈ table.rows, selects row = true → deleted row = false) :
    (table.delete deleted).rows.filter selects = table.rows.filter selects := by
  rw [delete, List.filter_filter]
  refine List.filter_congr fun row member => ?_
  cases selected : selects row with
  | false => rfl
  | true => simp [kept row member selected]

end

/-! ## Queries -/

omit [DecidableEq K] in
/-- A query that keeps the keys apart returns the rows of a list with the same
members, in some order. -/
theorem filterMap_perm {S : Type v} (table : Table key) (select : R → Option S) (label : S → K)
    (labels : ∀ row ∈ table.rows, ∀ result ∈ select row, label result = key row)
    {results : List S} (distinct : results.Nodup)
    (mem_iff : ∀ result, result ∈ results ↔ ∃ row ∈ table.rows, select row = some result) :
    (table.rows.filterMap select).Perm results := by
  have nodup : (table.rows.filterMap select).Nodup := by
    apply List.pairwise_filterMap.mpr
    apply (List.pairwise_map.mp table.distinct).imp_of_mem
    intro first second firstMem secondMem apart firstResult firstSelected secondResult
      secondSelected same
    subst same
    exact apart ((labels first firstMem _ firstSelected).symm.trans
      (labels second secondMem _ secondSelected))
  rw [List.perm_ext_iff_of_nodup nodup distinct]
  intro result
  rw [List.mem_filterMap, mem_iff]

end Table

/-! ## Inserts -/

omit [DecidableEq K] in
/-- A row with a key of its own joins rows that their keys tell apart. -/
theorem eq_of_key_eq_cons {key : R → K} {rows : List R} {row : R}
    (distinct : ∀ first ∈ rows, ∀ second ∈ rows, key first = key second → first = second)
    (fresh : ∀ other ∈ rows, key other ≠ key row) :
    ∀ first ∈ row :: rows, ∀ second ∈ row :: rows, key first = key second → first = second := by
  intro first firstMem second secondMem same
  rcases List.mem_cons.mp firstMem with rfl | firstOld <;>
    rcases List.mem_cons.mp secondMem with rfl | secondOld
  · rfl
  · exact absurd same.symm (fresh second secondOld)
  · exact absurd same (fresh first firstOld)
  · exact distinct first firstOld second secondOld same

end RiskRail.Relational
