import Mathlib.Data.List.Nodup
import Mathlib.Logic.Function.Basic

/-!
# Logs of writes

A log of writes is replayed on a store from first to last.  What a key holds
afterwards is decided by the last write to it, and by the store before where
there is none, so a log that is replayed again from its start changes nothing.
-/

namespace RiskRail.Relational

universe u v

variable {K : Type u} {V : Type v} [DecidableEq K]

/-- Replay the writes; a later one overwrites an earlier one. -/
def overwrite (writes : List (K × V)) (store : K → V) : K → V :=
  writes.foldl (fun store write => Function.update store write.1 write.2) store

variable {writes : List (K × V)} {store other : K → V} {key : K} {value : V}

@[simp]
theorem overwrite_nil : overwrite [] store = store :=
  rfl

@[simp]
theorem overwrite_cons {write : K × V} :
    overwrite (write :: writes) store =
      overwrite writes (Function.update store write.1 write.2) :=
  rfl

theorem overwrite_append {first second : List (K × V)} :
    overwrite (first ++ second) store = overwrite second (overwrite first store) :=
  List.foldl_append

/-- A key that is not written keeps its value. -/
theorem overwrite_of_not_mem (untouched : key ∉ writes.map Prod.fst) :
    overwrite writes store key = store key := by
  induction writes generalizing store with
  | nil => rfl
  | cons write writes ih =>
      simp only [List.map_cons, List.mem_cons, not_or] at untouched
      rw [overwrite_cons, ih untouched.2, Function.update_of_ne untouched.1]

/-- A key that is written does not depend on the store before. -/
theorem overwrite_of_mem (touched : key ∈ writes.map Prod.fst) :
    overwrite writes store key = overwrite writes other key := by
  induction writes generalizing store other with
  | nil => cases touched
  | cons write writes ih =>
      simp only [overwrite_cons]
      by_cases later : key ∈ writes.map Prod.fst
      · exact ih later
      · have first : key = write.1 := by
          simpa [later] using touched
        rw [overwrite_of_not_mem later, overwrite_of_not_mem later, first,
          Function.update_self, Function.update_self]

/-- A key that is written once holds what was written. -/
theorem overwrite_of_nodup (distinct : (writes.map Prod.fst).Nodup)
    (member : (key, value) ∈ writes) : overwrite writes store key = value := by
  induction writes generalizing store with
  | nil => cases member
  | cons write writes ih =>
      rw [List.map_cons, List.nodup_cons] at distinct
      rcases List.mem_cons.mp member with rfl | later
      · rw [overwrite_cons, overwrite_of_not_mem distinct.1, Function.update_self]
      · exact ih distinct.2 later

/-- Keys that are all given one value hold it. -/
theorem overwrite_const {keys : List K} (member : key ∈ keys) :
    overwrite (keys.map fun key => (key, value)) store key = value := by
  induction keys generalizing store with
  | nil => cases member
  | cons first rest ih =>
      rw [List.map_cons, overwrite_cons]
      by_cases later : key ∈ rest
      · exact ih later
      · have untouched : key ∉ (rest.map fun key => (key, value)).map Prod.fst := by
          rwa [List.map_map, Function.comp_def, List.map_id']
        rw [overwrite_of_not_mem untouched, (List.mem_cons.mp member).resolve_right later,
          Function.update_self]

/-- Replaying a log again from its start changes nothing. -/
theorem overwrite_overwrite :
    overwrite writes (overwrite writes store) = overwrite writes store := by
  funext key
  by_cases touched : key ∈ writes.map Prod.fst
  · exact overwrite_of_mem touched
  · exact overwrite_of_not_mem touched

end RiskRail.Relational
