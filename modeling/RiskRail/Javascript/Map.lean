import Mathlib.Data.List.Nodup

/-!
# Maps in insertion order

A `Map` keeps its keys in the order in which they were first set; setting a key
again changes its value in place.  A map that is filled by a sequence of `set`
calls forgets a key exactly as if it had never been set.
-/

namespace RiskRail.Javascript

universe u v

variable {α : Type u} {β : Type v} [DecidableEq α]

/-- `set`, on the entries. -/
def setEntry (key : α) (value : β) : List (α × β) → List (α × β)
  | [] => [(key, value)]
  | (other, old) :: rest =>
      if other = key then (other, value) :: rest else (other, old) :: setEntry key value rest

theorem keys_setEntry (key : α) (value : β) (entries : List (α × β)) :
    (setEntry key value entries).map Prod.fst =
      if key ∈ entries.map Prod.fst then entries.map Prod.fst
      else entries.map Prod.fst ++ [key] := by
  induction entries with
  | nil => simp [setEntry]
  | cons entry rest ih =>
      rcases entry with ⟨other, old⟩
      rw [setEntry]
      by_cases same : other = key
      · simp [same]
      · rw [if_neg same, List.map_cons, ih]
        by_cases member : key ∈ rest.map Prod.fst
        · simp [member]
        · simp [member, Ne.symm same]

/-- A key is set as often as not. -/
theorem nodup_setEntry {key : α} {value : β} {entries : List (α × β)}
    (distinct : (entries.map Prod.fst).Nodup) :
    ((setEntry key value entries).map Prod.fst).Nodup := by
  rw [keys_setEntry]
  split
  next => exact distinct
  next new => exact List.nodup_append_comm.mp (List.nodup_cons.mpr ⟨new, distinct⟩)

/-- Setting a new key appends it. -/
theorem setEntry_of_not_mem {key : α} {value : β} {entries : List (α × β)}
    (new : key ∉ entries.map Prod.fst) :
    setEntry key value entries = entries ++ [(key, value)] := by
  induction entries with
  | nil => rfl
  | cons entry rest ih =>
      rcases entry with ⟨other, old⟩
      rw [List.map_cons, List.mem_cons, not_or] at new
      rw [setEntry, if_neg (Ne.symm new.1), ih new.2, List.cons_append]

/-- Other keys do not notice a key that is left out. -/
theorem filter_setEntry (left key : α) (value : β) (entries : List (α × β)) :
    (setEntry key value entries).filter (fun entry => entry.1 ≠ left) =
      if key = left then entries.filter (fun entry => entry.1 ≠ left)
      else setEntry key value (entries.filter fun entry => entry.1 ≠ left) := by
  induction entries with
  | nil => by_cases same : key = left <;> simp [setEntry, same]
  | cons entry rest ih =>
      rcases entry with ⟨other, old⟩
      rw [setEntry]
      by_cases same : other = key
      · subst same
        by_cases leaving : other = left
        · simp [leaving]
        · simp [leaving, setEntry]
      · rw [if_neg same, List.filter_cons, List.filter_cons, ih]
        by_cases leaving : other = left
        · simp [leaving]
        · by_cases keyLeaving : key = left
          · simp [leaving, keyLeaving]
          · simp [leaving, keyLeaving, setEntry, same]

theorem mem_of_mem_setEntry {key : α} {value : β} {entries : List (α × β)} {entry : α × β}
    (member : entry ∈ setEntry key value entries) : entry = (key, value) ∨ entry ∈ entries := by
  induction entries with
  | nil => exact .inl (List.mem_singleton.mp member)
  | cons first rest ih =>
      rcases first with ⟨other, old⟩
      rw [setEntry] at member
      split at member
      next same =>
        rcases List.mem_cons.mp member with rfl | later
        · exact .inl (by rw [same])
        · exact .inr (List.mem_cons_of_mem _ later)
      next =>
        rcases List.mem_cons.mp member with rfl | later
        · exact .inr List.mem_cons_self
        · exact (ih later).imp_right (List.mem_cons_of_mem _)

theorem lookup_cons_eq_ite (key other : α) (value : β) (entries : List (α × β)) :
    ((key, value) :: entries).lookup other =
      if other = key then some value else entries.lookup other := by
  by_cases same : other = key
  · rw [if_pos same, same, List.lookup_cons_self]
  · rw [if_neg same, List.lookup_cons, beq_false_of_ne same]

theorem lookup_setEntry (key other : α) (value : β) (entries : List (α × β)) :
    (setEntry key value entries).lookup other =
      if other = key then some value else entries.lookup other := by
  induction entries with
  | nil => exact lookup_cons_eq_ite key other value []
  | cons entry rest ih =>
      rcases entry with ⟨first, old⟩
      rw [setEntry]
      by_cases found : first = key
      · rw [if_pos found, lookup_cons_eq_ite, lookup_cons_eq_ite, found]
        split <;> rfl
      · rw [if_neg found, lookup_cons_eq_ite, lookup_cons_eq_ite, ih]
        by_cases here : other = first
        · have differs : other ≠ key := fun same => found (here.symm.trans same)
          rw [if_pos here, if_neg differs, if_pos here]
        · rw [if_neg here, if_neg here]

/-- A `Map`, in insertion order. -/
structure OrderedMap (α : Type u) (β : Type v) where
  entries : List (α × β)
  distinct : (entries.map Prod.fst).Nodup

namespace OrderedMap

/-- `new Map()`. -/
def empty : OrderedMap α β where
  entries := []
  distinct := List.nodup_nil

/-- `map.set(key, value)`. -/
def set (map : OrderedMap α β) (key : α) (value : β) : OrderedMap α β where
  entries := setEntry key value map.entries
  distinct := nodup_setEntry map.distinct

/-- `map.get(key)`. -/
def get (map : OrderedMap α β) (key : α) : Option β :=
  map.entries.lookup key

/-- `delete`. -/
def delete (map : OrderedMap α β) (key : α) : OrderedMap α β where
  entries := map.entries.filter fun entry => entry.1 ≠ key
  distinct := map.distinct.sublist (List.filter_sublist.map Prod.fst)

/-- `[...map.keys()]`. -/
def keys (map : OrderedMap α β) : List α :=
  map.entries.map Prod.fst

/-- `[...map.values()]`. -/
def values (map : OrderedMap α β) : List β :=
  map.entries.map Prod.snd

/-- The map that a sequence of `set` calls leaves. -/
def ofWrites (writes : List (α × β)) : OrderedMap α β :=
  writes.foldl (fun map write => map.set write.1 write.2) empty

theorem get_eq_some_iff {map : OrderedMap α β} {key : α} {value : β} :
    map.get key = some value ↔ (key, value) ∈ map.entries := by
  constructor
  · intro found
    rcases List.lookup_eq_some_iff.mp found with ⟨before, after, entries, -⟩
    rw [entries]
    exact List.mem_append_right _ List.mem_cons_self
  · intro member
    rcases List.append_of_mem member with ⟨before, after, entries⟩
    refine List.lookup_eq_some_iff.mpr ⟨before, after, entries, fun entry earlier => ?_⟩
    have distinct := map.distinct
    rw [entries, List.map_append, List.map_cons] at distinct
    have differs := (List.nodup_append.mp distinct).2.2 entry.1 (List.mem_map_of_mem earlier) key
      List.mem_cons_self
    exact bne_iff_ne.mpr differs.symm

theorem get_set (map : OrderedMap α β) (key other : α) (value : β) :
    (map.set key value).get other = if other = key then some value else map.get other :=
  lookup_setEntry key other value map.entries

theorem get_delete (map : OrderedMap α β) (key other : α) :
    (map.delete key).get other = if other = key then none else map.get other := by
  ext value
  rw [get_eq_some_iff, delete, List.mem_filter, decide_eq_true_iff]
  split
  next same => simp [same]
  next differ => simp [get_eq_some_iff, differ]

theorem mem_keys_iff {map : OrderedMap α β} {key : α} :
    key ∈ map.keys ↔ ∃ value, map.get key = some value := by
  simp [keys, get_eq_some_iff]

theorem get_foldl_set (writes : List (α × β)) (map : OrderedMap α β) (key : α) :
    (writes.foldl (fun map write => map.set write.1 write.2) map).get key =
      ((writes.reverse.find? fun write => write.1 = key).map Prod.snd).or (map.get key) := by
  induction writes generalizing map with
  | nil => rfl
  | cons write rest ih =>
      rw [List.foldl_cons, ih, get_set, List.reverse_cons, List.find?_append]
      cases rest.reverse.find? fun write => write.1 = key with
      | some found => rfl
      | none =>
          by_cases same : key = write.1
          · simp [same]
          · simp [same, Ne.symm same]

/-- The last write to a key counts. -/
theorem get_ofWrites (writes : List (α × β)) (key : α) :
    (ofWrites writes).get key =
      (writes.reverse.find? fun write => write.1 = key).map Prod.snd := by
  rw [ofWrites, get_foldl_set]
  exact Option.or_none

/-- An entry was there before or was written. -/
theorem mem_of_mem_foldl_set {writes : List (α × β)} {map : OrderedMap α β} {entry : α × β}
    (member : entry ∈ (writes.foldl (fun map write => map.set write.1 write.2) map).entries) :
    entry ∈ map.entries ∨ entry ∈ writes := by
  induction writes generalizing map with
  | nil => exact .inl member
  | cons write rest ih =>
      rcases ih member with before | later
      · rcases mem_of_mem_setEntry before with rfl | old
        · exact .inr List.mem_cons_self
        · exact .inl old
      · exact .inr (List.mem_cons_of_mem _ later)

theorem mem_of_mem_ofWrites {writes : List (α × β)} {entry : α × β}
    (member : entry ∈ (ofWrites writes).entries) : entry ∈ writes :=
  (mem_of_mem_foldl_set member).resolve_left List.not_mem_nil

/-- Every key that is written is in the map. -/
theorem mem_keys_foldl_set {writes : List (α × β)} {map : OrderedMap α β} {key : α}
    (member : key ∈ map.entries.map Prod.fst ∨ key ∈ writes.map Prod.fst) :
    key ∈ (writes.foldl (fun map write => map.set write.1 write.2) map).entries.map Prod.fst := by
  induction writes generalizing map with
  | nil => exact member.resolve_right List.not_mem_nil
  | cons write rest ih =>
      apply ih
      rw [List.map_cons, List.mem_cons] at member
      change key ∈ (setEntry write.1 write.2 map.entries).map Prod.fst ∨ _
      rw [keys_setEntry]
      split
      next known =>
        rcases member with old | rfl | later
        · exact .inl old
        · exact .inl known
        · exact .inr later
      next =>
        rcases member with old | rfl | later
        · exact .inl (List.mem_append_left _ old)
        · exact .inl (List.mem_append_right _ (List.mem_singleton_self _))
        · exact .inr later

/-- The only write to a key is its entry. -/
theorem mem_ofWrites_of_unique {writes : List (α × β)} {key : α} {value : β}
    (written : (key, value) ∈ writes)
    (unique : ∀ write ∈ writes, write.1 = key → write.2 = value) :
    (key, value) ∈ (ofWrites writes).entries := by
  have known : key ∈ (ofWrites writes).entries.map Prod.fst :=
    mem_keys_foldl_set (.inr (List.mem_map_of_mem written))
  rcases List.mem_map.mp known with ⟨entry, entryMem, rfl⟩
  rw [← unique entry (mem_of_mem_ofWrites entryMem) rfl]
  exact entryMem

/-- Leaving a key out of a map leaves its writes out. -/
theorem filter_foldl_set (left : α) (writes : List (α × β)) (map other : OrderedMap α β)
    (same : map.entries.filter (fun entry => entry.1 ≠ left) = other.entries) :
    (writes.foldl (fun map write => map.set write.1 write.2) map).entries.filter
        (fun entry => entry.1 ≠ left) =
      ((writes.filter fun write => write.1 ≠ left).foldl
        (fun map write => map.set write.1 write.2) other).entries := by
  induction writes generalizing map other with
  | nil => exact same
  | cons write rest ih =>
      rw [List.foldl_cons]
      by_cases leaving : write.1 = left
      · rw [List.filter_cons_of_neg (by simpa using leaving)]
        apply ih
        rw [← same, set, filter_setEntry, if_pos leaving]
      · rw [List.filter_cons_of_pos (by simpa using leaving), List.foldl_cons]
        apply ih
        rw [set, set, filter_setEntry, if_neg leaving, same]

theorem filter_ofWrites (left : α) (writes : List (α × β)) :
    (ofWrites writes).entries.filter (fun entry => entry.1 ≠ left) =
      (ofWrites (writes.filter fun write => write.1 ≠ left)).entries :=
  filter_foldl_set left writes empty empty rfl

/-- Writes to new keys are appended. -/
theorem entries_foldl_set {writes : List (α × β)} {map : OrderedMap α β}
    (distinct : ((map.entries ++ writes).map Prod.fst).Nodup) :
    (writes.foldl (fun map write => map.set write.1 write.2) map).entries =
      map.entries ++ writes := by
  induction writes generalizing map with
  | nil => exact (List.append_nil _).symm
  | cons write rest ih =>
      have new : write.1 ∉ map.entries.map Prod.fst := by
        intro member
        rw [List.map_append, List.map_cons] at distinct
        exact (List.nodup_append.mp distinct).2.2 _ member _ List.mem_cons_self rfl
      have appended : (map.set write.1 write.2).entries = map.entries ++ [write] :=
        setEntry_of_not_mem new
      rw [List.foldl_cons, ih]
      · rw [appended, List.append_assoc, List.singleton_append]
      · rwa [appended, List.append_assoc, List.singleton_append]

theorem entries_ofWrites_of_nodup {writes : List (α × β)}
    (distinct : (writes.map Prod.fst).Nodup) : (ofWrites writes).entries = writes :=
  entries_foldl_set distinct

end OrderedMap

end RiskRail.Javascript
