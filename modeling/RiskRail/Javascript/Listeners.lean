import RiskRail.Javascript.Map

/-!
# Listeners under keys

A `Map` of `Set`s: under each key the listeners of that key, in the order in which they
were added.  A set that runs empty is taken out, so the keys are those with a listener.
-/

namespace RiskRail.Javascript

universe u v

/-- Sets of listeners by key, none of them empty. -/
structure Listeners (α : Type u) (β : Type v) [DecidableEq α] where
  sets : OrderedMap α (List β)
  occupied : ∀ key set, sets.get key = some set → set ≠ []
  distinct : ∀ key set, sets.get key = some set → set.Nodup

namespace Listeners

variable {α : Type u} {β : Type v} [DecidableEq α]

/-- No listeners. -/
def empty : Listeners α β where
  sets := .empty
  occupied _ _ found := nomatch found
  distinct _ _ found := nomatch found

variable (listeners : Listeners α β) (key other : α) (item : β)

/-- The listeners of a key. -/
def of : List β :=
  (listeners.sets.get key).getD []

/-- The keys that have listeners. -/
def keys : List α :=
  listeners.sets.keys

theorem nodup_of : (listeners.of key).Nodup := by
  unfold of
  cases found : listeners.sets.get key with
  | none => exact List.nodup_nil
  | some set => exact listeners.distinct key set found

theorem mem_keys_iff {listeners : Listeners α β} {key : α} :
    key ∈ listeners.keys ↔ ∃ item, item ∈ listeners.of key := by
  rw [keys, OrderedMap.mem_keys_iff]
  unfold of
  cases found : listeners.sets.get key with
  | none => simp
  | some set => simpa using List.exists_mem_of_ne_nil set (listeners.occupied key set found)

variable [DecidableEq β]

/-- `Set.add`, in a new set where the key has none. -/
def add : Listeners α β where
  sets := listeners.sets.set key <|
    if item ∈ listeners.of key then listeners.of key else listeners.of key ++ [item]
  occupied other set found := by
    rw [OrderedMap.get_set] at found
    split at found
    next =>
      cases found
      split
      next member => exact List.ne_nil_of_mem member
      next => simp
    next => exact listeners.occupied other set found
  distinct other set found := by
    rw [OrderedMap.get_set] at found
    split at found
    next =>
      cases found
      split
      next => exact listeners.nodup_of key
      next new =>
        exact List.nodup_append_comm.mp (List.nodup_cons.mpr ⟨new, listeners.nodup_of key⟩)
    next => exact listeners.distinct other set found

/-- `Set.delete`; a key goes with its last listener. -/
def remove : Listeners α β where
  sets :=
    if (listeners.of key).erase item = [] then listeners.sets.delete key
    else listeners.sets.set key ((listeners.of key).erase item)
  occupied other set found := by
    split at found
    next =>
      rw [OrderedMap.get_delete] at found
      split at found
      next => cases found
      next => exact listeners.occupied other set found
    next rest =>
      rw [OrderedMap.get_set] at found
      split at found
      next =>
        cases found
        exact rest
      next => exact listeners.occupied other set found
  distinct other set found := by
    split at found
    next =>
      rw [OrderedMap.get_delete] at found
      split at found
      next => cases found
      next => exact listeners.distinct other set found
    next =>
      rw [OrderedMap.get_set] at found
      split at found
      next =>
        cases found
        exact (listeners.nodup_of key).erase item
      next => exact listeners.distinct other set found

theorem of_add : (listeners.add key item).of other =
    if other = key then
      if item ∈ listeners.of key then listeners.of key else listeners.of key ++ [item]
    else listeners.of other := by
  rw [of, add, OrderedMap.get_set]
  split <;> rfl

theorem of_remove : (listeners.remove key item).of other =
    if other = key then (listeners.of key).erase item else listeners.of other := by
  rw [of, remove]
  dsimp only
  split
  next last =>
    rw [OrderedMap.get_delete]
    split
    next => exact last.symm
    next => rfl
  next =>
    rw [OrderedMap.get_set]
    split <;> rfl

variable {listeners key other item} {listener : β}

theorem mem_of_add_iff : listener ∈ (listeners.add key item).of other ↔
    listener ∈ listeners.of other ∨ other = key ∧ listener = item := by
  rw [of_add]
  by_cases same : other = key
  · subst same
    rw [if_pos rfl]
    split
    next member =>
      refine ⟨.inl, fun either => either.elim id fun both => ?_⟩
      rw [both.2]
      exact member
    next => simp
  · simp [same]

theorem mem_of_remove_iff : listener ∈ (listeners.remove key item).of other ↔
    listener ∈ listeners.of other ∧ ¬(other = key ∧ listener = item) := by
  rw [of_remove]
  by_cases same : other = key
  · subst same
    rw [if_pos rfl, (listeners.nodup_of other).mem_erase_iff]
    simp [and_comm]
  · simp [same]

theorem mem_keys_add_iff : other ∈ (listeners.add key item).keys ↔
    other ∈ listeners.keys ∨ other = key := by
  simp only [mem_keys_iff, mem_of_add_iff, exists_or, exists_and_left, exists_eq, and_true]

/-- A key stays as long as it has another listener. -/
theorem mem_keys_remove_iff : other ∈ (listeners.remove key item).keys ↔
    other ∈ listeners.keys ∧ ¬(other = key ∧ (listeners.of key).erase item = []) := by
  rw [mem_keys_iff, mem_keys_iff, of_remove]
  by_cases same : other = key
  · subst same
    rw [if_pos rfl]
    constructor
    · rintro ⟨listener, member⟩
      exact ⟨⟨listener, List.mem_of_mem_erase member⟩,
        fun gone => List.ne_nil_of_mem member gone.2⟩
    · rintro ⟨-, others⟩
      exact List.exists_mem_of_ne_nil _ fun gone => others ⟨rfl, gone⟩
  · simp [same]

end Listeners

end RiskRail.Javascript
