import RiskRail.Javascript.Text
import Mathlib.Algebra.BigOperators.Group.List.Basic
import Mathlib.Algebra.GroupWithZero.Nat
import Mathlib.Data.List.Nodup
import Mathlib.Data.List.Sort

/-!
# JSON values and their text

The properties of an object are enumerated with array-index keys first, in
numeric order, and the others in the order they were created.  Sorting is stable:
of two entries that tie, the one that came first stays first.
-/

namespace RiskRail.Javascript

open Text

/-- A JSON value.  A number is kept as the text it is written with; the fields of
an object come in the order they were created. -/
inductive Json where
  | null
  | bool (value : Bool)
  | number (text : Text)
  | string (value : Text)
  | array (items : List Json)
  | object (fields : List (Text × Json))

/-! ## Stable sorting -/

section Sorting

variable {α : Type*} {le : α → α → Bool} {l : List α} {first second : α}

/-- `Array.prototype.sort` with a consistent comparison. -/
def sortBy (le : α → α → Bool) (l : List α) : List α :=
  l.insertionSort fun first second => le first second = true

theorem sortBy_perm (le : α → α → Bool) (l : List α) : (sortBy le l).Perm l :=
  List.perm_insertionSort _ l

theorem pairwise_sortBy (trans : ∀ a b c, le a b = true → le b c = true → le a c = true)
    (total : ∀ a b, (le a b || le b a) = true) (l : List α) :
    (sortBy le l).Pairwise fun first second => le first second = true := by
  have : IsTrans α fun first second => le first second = true := ⟨trans⟩
  have : Std.Total fun first second : α => le first second = true :=
    ⟨fun first second => Bool.or_eq_true_iff.mp (total first second)⟩
  exact List.pairwise_insertionSort _ l

theorem sortBy_stable (smaller : le first second = true) (before : [first, second].Sublist l) :
    [first, second].Sublist (sortBy le l) := by
  have pairwise : [first, second].Pairwise fun first second => le first second = true := by
    simpa using smaller
  exact List.sublist_insertionSort pairwise before

/-- Two entries of a list come in one order or the other. -/
theorem pair_sublist_or (firstMem : first ∈ l) (secondMem : second ∈ l) (differ : first ≠ second) :
    [first, second].Sublist l ∨ [second, first].Sublist l := by
  induction l with
  | nil => cases firstMem
  | cons head tail ih =>
      rcases List.mem_cons.mp firstMem with rfl | firstTail <;>
        rcases List.mem_cons.mp secondMem with rfl | secondTail
      · exact absurd rfl differ
      · exact .inl (List.cons_sublist_cons.mpr (List.singleton_sublist.mpr secondTail))
      · exact .inr (List.cons_sublist_cons.mpr (List.singleton_sublist.mpr firstTail))
      · exact (ih firstTail secondTail).imp (.cons head) (.cons head)

theorem pair_sublist_asymm (nodup : l.Nodup) (one : [first, second].Sublist l) :
    ¬[second, first].Sublist l := by
  intro other
  induction l with
  | nil => cases one
  | cons head tail ih =>
      rcases List.nodup_cons.mp nodup with ⟨fresh, nodup⟩
      cases one with
      | cons _ one =>
          cases other with
          | cons _ other => exact ih nodup one other
          | cons_cons _ other => exact fresh (one.subset (by simp))
      | cons_cons _ one =>
          cases other with
          | cons _ other => exact fresh (other.subset (by simp))
          | cons_cons _ other => exact fresh (one.subset (by simp))

/-- In a stable sort the smaller entry comes first, and of two that tie the one
that came first. -/
theorem pair_sublist_sortBy_iff (trans : ∀ a b c, le a b = true → le b c = true → le a c = true)
    (total : ∀ a b, (le a b || le b a) = true) (nodup : l.Nodup) (firstMem : first ∈ l)
    (secondMem : second ∈ l) (differ : first ≠ second) :
    [first, second].Sublist (sortBy le l) ↔
      le first second = true ∧ (le second first = true → [first, second].Sublist l) := by
  have sorted : ∀ {a b}, [a, b].Sublist (sortBy le l) → le a b = true :=
    List.pairwise_iff_forall_sublist.mp (pairwise_sortBy trans total l)
  have perm := sortBy_perm le l
  constructor
  · intro before
    refine ⟨sorted before, fun tie => ?_⟩
    rcases pair_sublist_or firstMem secondMem differ with kept | swapped
    · exact kept
    · exact absurd (sortBy_stable tie swapped)
        (pair_sublist_asymm (perm.nodup_iff.mpr nodup) before)
  · rintro ⟨smaller, tie⟩
    by_cases back : le second first = true
    · exact sortBy_stable smaller (tie back)
    · rcases pair_sublist_or (perm.mem_iff.mpr firstMem) (perm.mem_iff.mpr secondMem) differ with
        before | after
      · exact before
      · exact absurd (sorted after) back

end Sorting

section Fields

variable {β γ : Type*}

/-- A sort of fields by their keys. -/
def sortByKey (le : Text → Text → Bool) (fields : List (Text × β)) : List (Text × β) :=
  sortBy (fun first second => le first.1 second.1) fields

theorem sortByKey_perm (le : Text → Text → Bool) (fields : List (Text × β)) :
    (sortByKey le fields).Perm fields :=
  sortBy_perm _ fields

theorem keys_sortByKey (le : Text → Text → Bool) (fields : List (Text × β)) :
    (sortByKey le fields).map Prod.fst = sortBy le (fields.map Prod.fst) := by
  apply List.map_insertionSort
  intro first _ second _
  rfl

/-- Sorting looks at the keys only. -/
theorem sortByKey_map (le : Text → Text → Bool) (change : β → γ) (fields : List (Text × β)) :
    sortByKey le (fields.map (Prod.map id change)) =
      (sortByKey le fields).map (Prod.map id change) := by
  symm
  apply List.map_insertionSort
  intro first _ second _
  rfl

/-- Two orders of the same fields are the same if the keys are in the same order. -/
theorem eq_of_keys_eq {first second : List (Text × β)} (perm : first.Perm second)
    (nodup : (second.map Prod.fst).Nodup)
    (keys : first.map Prod.fst = second.map Prod.fst) : first = second := by
  apply List.ext_getElem perm.length_eq
  intro i firstLt secondLt
  apply List.inj_on_of_nodup_map nodup (perm.subset (List.getElem_mem firstLt))
    (List.getElem_mem secondLt)
  have key := List.getElem_of_eq keys (by simpa using firstLt : i < (first.map Prod.fst).length)
  rwa [List.getElem_map, List.getElem_map] at key

/-! ## Own properties -/

/-- Whether a property may be enumerated before another. -/
def propertyLE (first second : Text) : Bool :=
  match arrayIndex first, arrayIndex second with
  | some i, some j => i ≤ j
  | some _, none => true
  | none, some _ => false
  | none, none => true

theorem propertyLE_trans (first second third : Text) (one : propertyLE first second = true)
    (two : propertyLE second third = true) : propertyLE first third = true := by
  revert one two
  unfold propertyLE
  cases arrayIndex first <;> cases arrayIndex second <;> cases arrayIndex third <;> simp
  exact le_trans

theorem propertyLE_total (first second : Text) :
    (propertyLE first second || propertyLE second first) = true := by
  unfold propertyLE
  cases arrayIndex first <;> cases arrayIndex second <;> simp
  exact le_total _ _

/-- The properties of an object in the order they are enumerated. -/
def ownFields (fields : List (Text × β)) : List (Text × β) :=
  sortByKey propertyLE fields

end Fields

/-! ## The text of a value -/

/-- `join(',')`. -/
def commaJoin : List Text → Text
  | [] => []
  | [text] => text
  | text :: next :: rest => text ++ 0x2C :: commaJoin (next :: rest)

/-- The text of an array. -/
def inBrackets (text : Text) : Text :=
  0x5B :: text ++ [0x5D]

/-- The text of an object. -/
def inBraces (text : Text) : Text :=
  0x7B :: text ++ [0x7D]

/-- A property in an object's text. -/
def member (field : Text × Text) : Text :=
  quote field.1 ++ 0x3A :: field.2

mutual

/-- `JSON.stringify`. -/
def stringify : Json → Text
  | .null => ofString "null"
  | .bool value => ofString (toString value)
  | .number text => text
  | .string value => quote value
  | .array items => inBrackets (commaJoin (stringifyItems items))
  | .object fields => inBraces (commaJoin ((ownFields (stringifyFields fields)).map member))

/-- The texts of the items. -/
def stringifyItems : List Json → List Text
  | [] => []
  | item :: items => stringify item :: stringifyItems items

/-- The texts of the values, with their keys. -/
def stringifyFields : List (Text × Json) → List (Text × Text)
  | [] => []
  | (key, item) :: fields => (key, stringify item) :: stringifyFields fields

end

theorem stringifyItems_eq (items : List Json) : stringifyItems items = items.map stringify := by
  induction items with
  | nil => rfl
  | cons item items ih => rw [stringifyItems, ih, List.map_cons]

theorem stringifyFields_eq (fields : List (Text × Json)) :
    stringifyFields fields = fields.map (Prod.map id stringify) := by
  induction fields with
  | nil => rfl
  | cons field fields ih => rw [stringifyFields, ih, List.map_cons, Prod.map, id]

/-! ## Objects within a value -/

mutual

/-- The keys of every object within the value, in the order they were created,
have a property. -/
def Json.EveryObject (holds : List Text → Prop) : Json → Prop
  | .array items => EveryItem holds items
  | .object fields => holds (fields.map Prod.fst) ∧ EveryField holds fields
  | .null | .bool _ | .number _ | .string _ => True

/-- Every object in the items. -/
def Json.EveryItem (holds : List Text → Prop) : List Json → Prop
  | [] => True
  | item :: items => item.EveryObject holds ∧ EveryItem holds items

/-- Every object in the values. -/
def Json.EveryField (holds : List Text → Prop) : List (Text × Json) → Prop
  | [] => True
  | (_, item) :: fields => item.EveryObject holds ∧ EveryField holds fields

end

theorem Json.everyItem_iff {holds : List Text → Prop} {items : List Json} :
    EveryItem holds items ↔ ∀ item ∈ items, item.EveryObject holds := by
  induction items with
  | nil => simp [EveryItem]
  | cons item items ih => simp [EveryItem, ih]

theorem Json.everyField_iff {holds : List Text → Prop} {fields : List (Text × Json)} :
    EveryField holds fields ↔ ∀ field ∈ fields, field.2.EveryObject holds := by
  induction fields with
  | nil => simp [EveryField]
  | cons field fields ih => simp [EveryField, ih]

/-- An induction over the values within a value. -/
theorem Json.induction {holds : Json → Prop} (null : holds .null)
    (bool : ∀ value, holds (.bool value)) (number : ∀ text, holds (.number text))
    (string : ∀ value, holds (.string value))
    (array : ∀ items, (∀ item ∈ items, holds item) → holds (.array items))
    (object : ∀ fields, (∀ field ∈ fields, holds field.2) → holds (.object fields)) :
    ∀ value, holds value
  | .null => null
  | .bool value => bool value
  | .number text => number text
  | .string value => string value
  | .array items => array items fun item _ =>
      Json.induction null bool number string array object item
  | .object fields => object fields fun field _ =>
      Json.induction null bool number string array object field.2
decreasing_by
  · have smaller := List.sizeOf_lt_of_mem ‹item ∈ items›
    simp only [Json.array.sizeOf_spec]
    omega
  · have smaller := List.sizeOf_lt_of_mem ‹field ∈ fields›
    rcases field with ⟨key, item⟩
    simp only [Json.object.sizeOf_spec, Prod.mk.sizeOf_spec] at smaller ⊢
    omega

/-! ## Lengths and prefixes -/

theorem length_commaJoin (texts : List Text) :
    (commaJoin texts).length = (texts.map List.length).sum + (texts.length - 1) := by
  fun_induction commaJoin texts with
  | case1 => rfl
  | case2 text => simp
  | case3 text next rest ih =>
      simp only [List.length_append, List.length_cons, ih, List.map_cons, List.sum_cons]
      omega

theorem length_commaJoin_of_perm {first second : List Text}
    (perm : (first.map List.length).Perm (second.map List.length)) :
    (commaJoin first).length = (commaJoin second).length := by
  have lengths : first.length = second.length := by
    simpa using perm.length_eq
  rw [length_commaJoin, length_commaJoin, perm.sum_eq, lengths]

/-- A join of texts that tell where they end determines them. -/
theorem commaJoin_inj {first second : List Text}
    (delimited : List.Forall₂ (fun one other : Text =>
      ∀ oneRest otherRest, one ++ oneRest = other ++ otherRest → one = other) first second)
    (same : commaJoin first = commaJoin second) : first = second := by
  induction delimited with
  | nil => rfl
  | @cons one other ones others head tail ih =>
      cases tail with
      | nil =>
          have head_eq : one = other := same
          rw [head_eq]
      | cons next rest =>
          simp only [commaJoin] at same
          have head_eq := head _ _ same
          subst head_eq
          rw [ih (List.cons.inj (List.append_cancel_left same)).2]

end RiskRail.Javascript
