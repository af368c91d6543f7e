import RiskRail.Javascript.Object
import Mathlib.Order.Compare

/-!
# Canonical report text

The worker hashes the text it writes itself, with keys sorted by code units.  The
contract package rebuilds every object with keys sorted by `localeCompare` and lets
`JSON.stringify` enumerate them.  Both texts have the same length, and they are the
same exactly when the two orders agree on every object.
-/

namespace RiskRail.Report

open RiskRail.Javascript RiskRail.Javascript.Text

/-! ## The worker -/

/-- Strings in the order of `Array.prototype.sort`. -/
def unitsLE (first second : Text) : Bool :=
  first ≤ second

mutual

/-- The worker's text of a value: keys in the order of their units. -/
def canonicalJson : Json → Text
  | .null => ofString "null"
  | .bool value => ofString (toString value)
  | .number text => text
  | .string value => quote value
  | .array items => inBrackets (commaJoin (canonicalItems items))
  | .object fields =>
      inBraces (commaJoin ((sortByKey unitsLE (ownFields (canonicalFields fields))).map member))

/-- The texts of the items. -/
def canonicalItems : List Json → List Text
  | [] => []
  | item :: items => canonicalJson item :: canonicalItems items

/-- The texts of the values, with their keys. -/
def canonicalFields : List (Text × Json) → List (Text × Text)
  | [] => []
  | (key, item) :: fields => (key, canonicalJson item) :: canonicalFields fields

end

/-! ## The contract package -/

section Locale

variable (localeCompare : Text → Text → Ordering)

/-- Whether a key may come before another in a sort by `localeCompare`. -/
def localeLE (first second : Text) : Bool :=
  (localeCompare first second).isLE

mutual

/-- Rebuild every object from its sorted entries. -/
def stable : Json → Json
  | .array items => .array (stableItems items)
  | .object fields => .object (sortByKey (localeLE localeCompare) (ownFields (stableFields fields)))
  | .null => .null
  | .bool value => .bool value
  | .number text => .number text
  | .string value => .string value

/-- The items, each with its keys sorted. -/
def stableItems : List Json → List Json
  | [] => []
  | item :: items => stable item :: stableItems items

/-- The values, each with its keys sorted. -/
def stableFields : List (Text × Json) → List (Text × Json)
  | [] => []
  | (key, item) :: fields => (key, stable item) :: stableFields fields

end

/-- The package's text of a report: keys in the order of the locale, and then of the
language. -/
def canonicalizeRiskReport (report : Json) : Text :=
  stringify (stable localeCompare report)

end Locale

/-! ## Objects by their fields -/

theorem canonicalItems_eq (items : List Json) :
    canonicalItems items = items.map canonicalJson := by
  induction items with
  | nil => rfl
  | cons item items ih => rw [canonicalItems, ih, List.map_cons]

theorem canonicalFields_eq (fields : List (Text × Json)) :
    canonicalFields fields = fields.map (Prod.map id canonicalJson) := by
  induction fields with
  | nil => rfl
  | cons field fields ih => rw [canonicalFields, ih, List.map_cons, Prod.map, id]

variable {localeCompare : Text → Text → Ordering}

theorem stableItems_eq (items : List Json) :
    stableItems localeCompare items = items.map (stable localeCompare) := by
  induction items with
  | nil => rfl
  | cons item items ih => rw [stableItems, ih, List.map_cons]

theorem stableFields_eq (fields : List (Text × Json)) :
    stableFields localeCompare fields = fields.map (Prod.map id (stable localeCompare)) := by
  induction fields with
  | nil => rfl
  | cons field fields ih => rw [stableFields, ih, List.map_cons, Prod.map, id]

/-- The fields in the order the worker writes them. -/
def workerOrder {β : Type} (fields : List (Text × β)) : List (Text × β) :=
  sortByKey unitsLE (ownFields fields)

/-- The fields in the order of the rebuilt object. -/
def packageOrder {β : Type} (localeCompare : Text → Text → Ordering) (fields : List (Text × β)) :
    List (Text × β) :=
  ownFields (sortByKey (localeLE localeCompare) (ownFields fields))

/-- A field's text, given the text of its value. -/
def memberOf (write : Json → Text) (field : Text × Json) : Text :=
  member (field.1, write field.2)

theorem canonicalJson_object (fields : List (Text × Json)) :
    canonicalJson (.object fields) =
      inBraces (commaJoin ((workerOrder fields).map (memberOf canonicalJson))) := by
  rw [canonicalJson, canonicalFields_eq, ownFields, sortByKey_map, sortByKey_map, List.map_map]
  rfl

theorem canonicalizeRiskReport_object (fields : List (Text × Json)) :
    canonicalizeRiskReport localeCompare (.object fields) =
      inBraces (commaJoin ((packageOrder localeCompare fields).map
        (memberOf (canonicalizeRiskReport localeCompare)))) := by
  rw [canonicalizeRiskReport, stable, stableFields_eq, stringify, stringifyFields_eq, ownFields,
    ownFields, sortByKey_map, sortByKey_map, sortByKey_map, sortByKey_map, List.map_map,
    List.map_map]
  rfl

theorem canonicalJson_array (items : List Json) :
    canonicalJson (.array items) = inBrackets (commaJoin (items.map canonicalJson)) := by
  rw [canonicalJson, canonicalItems_eq]

theorem canonicalizeRiskReport_array (items : List Json) :
    canonicalizeRiskReport localeCompare (.array items) =
      inBrackets (commaJoin (items.map (canonicalizeRiskReport localeCompare))) := by
  rw [canonicalizeRiskReport, stable, stableItems_eq, stringify, stringifyItems_eq, List.map_map]
  rfl

theorem workerOrder_perm (fields : List (Text × Json)) : (workerOrder fields).Perm fields :=
  (sortByKey_perm _ _).trans (sortByKey_perm _ _)

theorem packageOrder_perm (fields : List (Text × Json)) :
    (packageOrder localeCompare fields).Perm fields :=
  (sortByKey_perm _ _).trans ((sortByKey_perm _ _).trans (sortByKey_perm _ _))

/-! ## Both texts have the same length -/

theorem length_canonicalJson (value : Json) :
    (canonicalJson value).length = (canonicalizeRiskReport localeCompare value).length := by
  induction value using Json.induction with
  | null | bool | number | string => rfl
  | array items ih =>
      have lengths : (items.map canonicalJson).map List.length =
          (items.map (canonicalizeRiskReport localeCompare)).map List.length := by
        rw [List.map_map, List.map_map]
        exact List.map_congr_left ih
      rw [canonicalJson_array, canonicalizeRiskReport_array]
      simp only [inBrackets, List.length_append, List.length_cons,
        length_commaJoin_of_perm (.of_eq lengths)]
  | object fields ih =>
      have lengths : fields.map (List.length ∘ memberOf canonicalJson) =
          fields.map (List.length ∘ memberOf (canonicalizeRiskReport localeCompare)) := by
        apply List.map_congr_left
        intro field field_mem
        simp [memberOf, member, ih field field_mem]
      have perm : (((workerOrder fields).map (memberOf canonicalJson)).map List.length).Perm
          (((packageOrder localeCompare fields).map
            (memberOf (canonicalizeRiskReport localeCompare))).map List.length) := by
        rw [List.map_map, List.map_map]
        refine ((workerOrder_perm fields).map _).trans ?_
        rw [lengths]
        exact ((packageOrder_perm fields).map _).symm
      rw [canonicalJson_object, canonicalizeRiskReport_object]
      simp only [inBraces, List.length_append, List.length_cons, length_commaJoin_of_perm perm]

/-! ## The orders of an object -/

/-- A key comes before another in the rebuilt object: both are array indices, in
numeric order, or only the first is one, or neither is, and `localeCompare` puts
them in this order, ties being in the order of creation. -/
def Precedes (localeCompare : Text → Text → Ordering) (keys : List Text) (first second : Text) :
    Prop :=
  match arrayIndex first, arrayIndex second with
  | some i, some j => i < j
  | some _, none => True
  | none, some _ => False
  | none, none =>
      localeCompare first second = .lt ∨
        localeCompare first second = .eq ∧ [first, second].Sublist keys

/-- Of every two keys of an object, the one with the smaller code units comes first. -/
def SameOrder (localeCompare : Text → Text → Ordering) (keys : List Text) : Prop :=
  ∀ first ∈ keys, ∀ second ∈ keys, first < second → Precedes localeCompare keys first second

instance (localeCompare : Text → Text → Ordering) (keys : List Text) (first second : Text) :
    Decidable (Precedes localeCompare keys first second) := by
  unfold Precedes
  split <;> infer_instance

instance (localeCompare : Text → Text → Ordering) (keys : List Text) :
    Decidable (SameOrder localeCompare keys) :=
  inferInstanceAs (Decidable (∀ first ∈ keys, ∀ second ∈ keys, first < second → _))

theorem unitsLE_trans (first second third : Text) (one : unitsLE first second = true)
    (two : unitsLE second third = true) : unitsLE first third = true := by
  simp only [unitsLE, decide_eq_true_eq] at *
  exact one.trans two

theorem unitsLE_total (first second : Text) :
    (unitsLE first second || unitsLE second first) = true := by
  simp only [unitsLE, Bool.or_eq_true, decide_eq_true_eq]
  exact le_total first second

/-- The keys of the rebuilt object. -/
def packageKeys (localeCompare : Text → Text → Ordering) (keys : List Text) : List Text :=
  sortBy propertyLE (sortBy (localeLE localeCompare) (sortBy propertyLE keys))

theorem packageKeys_perm (keys : List Text) : (packageKeys localeCompare keys).Perm keys :=
  (sortBy_perm _ _).trans ((sortBy_perm _ _).trans (sortBy_perm _ _))

theorem keys_packageOrder (fields : List (Text × Json)) :
    (packageOrder localeCompare fields).map Prod.fst =
      packageKeys localeCompare (fields.map Prod.fst) := by
  simp only [packageOrder, ownFields, keys_sortByKey, packageKeys]

section

variable [Std.TransCmp localeCompare]

theorem localeLE_trans (first second third : Text)
    (one : localeLE localeCompare first second = true)
    (two : localeLE localeCompare second third = true) :
    localeLE localeCompare first third = true :=
  Std.TransCmp.isLE_trans one two

theorem localeLE_total (first second : Text) :
    (localeLE localeCompare first second || localeLE localeCompare second first) = true := by
  have swapped : localeCompare second first = (localeCompare first second).swap :=
    Std.OrientedCmp.eq_swap
  unfold localeLE
  rw [swapped]
  cases localeCompare first second <;> rfl

/-- The order of two keys in the rebuilt object. -/
theorem precedes_iff {keys : List Text} {first second : Text} (differ : first ≠ second) :
    Precedes localeCompare keys first second ↔
      propertyLE first second = true ∧ (propertyLE second first = true →
        localeLE localeCompare first second = true ∧
          (localeLE localeCompare second first = true → [first, second].Sublist keys)) := by
  have swapped : localeCompare second first = (localeCompare first second).swap :=
    Std.OrientedCmp.eq_swap
  unfold Precedes propertyLE localeLE
  rw [swapped]
  cases firstIndex : arrayIndex first with
  | some i =>
      cases secondIndex : arrayIndex second with
      | some j =>
          have unequal : i ≠ j := by
            rintro rfl
            exact differ (arrayIndex_inj firstIndex secondIndex)
          simp only [decide_eq_true_eq]
          constructor
          · intro smaller
            exact ⟨smaller.le, fun larger => absurd larger (not_le.mpr smaller)⟩
          · rintro ⟨smaller, -⟩
            exact lt_of_le_of_ne smaller unequal
      | none => simp
  | none =>
      cases secondIndex : arrayIndex second with
      | some j => simp
      | none => cases localeCompare first second <;> simp

theorem pair_sublist_packageKeys_iff {keys : List Text} (nodup : keys.Nodup) {first second : Text}
    (firstMem : first ∈ keys) (secondMem : second ∈ keys) (differ : first ≠ second) :
    [first, second].Sublist (packageKeys localeCompare keys) ↔
      Precedes localeCompare keys first second := by
  have ownPerm := sortBy_perm propertyLE keys
  have sortedPerm := sortBy_perm (localeLE localeCompare) (sortBy propertyLE keys)
  have ownNodup := ownPerm.nodup_iff.mpr nodup
  have ownFirst := ownPerm.mem_iff.mpr firstMem
  have ownSecond := ownPerm.mem_iff.mpr secondMem
  rw [packageKeys, pair_sublist_sortBy_iff propertyLE_trans propertyLE_total
      (sortedPerm.nodup_iff.mpr ownNodup) (sortedPerm.mem_iff.mpr ownFirst)
      (sortedPerm.mem_iff.mpr ownSecond) differ,
    pair_sublist_sortBy_iff localeLE_trans localeLE_total ownNodup ownFirst ownSecond differ,
    pair_sublist_sortBy_iff propertyLE_trans propertyLE_total nodup firstMem secondMem differ,
    precedes_iff differ]
  tauto

/-- The rebuilt object has its keys in the worker's order. -/
theorem pairwise_packageKeys_iff {keys : List Text} (nodup : keys.Nodup) :
    (packageKeys localeCompare keys).Pairwise (fun first second => unitsLE first second = true) ↔
      SameOrder localeCompare keys := by
  have packageNodup : (packageKeys localeCompare keys).Nodup :=
    (packageKeys_perm keys).nodup_iff.mpr nodup
  have mem_iff : ∀ {key}, key ∈ packageKeys localeCompare keys ↔ key ∈ keys :=
    (packageKeys_perm keys).mem_iff
  rw [List.pairwise_iff_forall_sublist]
  constructor
  · intro sorted first firstMem second secondMem smaller
    have before : [first, second].Sublist (packageKeys localeCompare keys) := by
      rcases pair_sublist_or (mem_iff.mpr firstMem) (mem_iff.mpr secondMem) smaller.ne with
        before | after
      · exact before
      · exact absurd smaller (not_lt.mpr (of_decide_eq_true (sorted after)))
    exact (pair_sublist_packageKeys_iff nodup firstMem secondMem smaller.ne).mp before
  · intro same first second before
    have firstMem : first ∈ keys := mem_iff.mp (before.subset (by simp))
    have secondMem : second ∈ keys := mem_iff.mp (before.subset (by simp))
    by_contra larger
    have smaller : second < first := not_le.mp fun le => larger (decide_eq_true le)
    have after := (pair_sublist_packageKeys_iff nodup secondMem firstMem smaller.ne).mpr
      (same second secondMem first firstMem smaller)
    exact pair_sublist_asymm packageNodup before after

/-- Both orders of an object's fields are the same. -/
theorem workerOrder_eq_packageOrder_iff {fields : List (Text × Json)}
    (nodup : (fields.map Prod.fst).Nodup) :
    workerOrder fields = packageOrder localeCompare fields ↔
      SameOrder localeCompare (fields.map Prod.fst) := by
  have sorted : ((workerOrder fields).map Prod.fst).Pairwise
      fun first second => unitsLE first second = true := by
    rw [workerOrder, keys_sortByKey]
    exact pairwise_sortBy unitsLE_trans unitsLE_total _
  rw [← pairwise_packageKeys_iff nodup, ← keys_packageOrder]
  constructor
  · intro same
    rwa [← same]
  · intro packageSorted
    have perm : (workerOrder fields).Perm (packageOrder localeCompare fields) :=
      (workerOrder_perm fields).trans (packageOrder_perm fields).symm
    apply eq_of_keys_eq perm ((packageOrder_perm fields).map Prod.fst |>.nodup_iff.mpr nodup)
    apply (perm.map Prod.fst).eq_of_pairwise _ sorted packageSorted
    intro first second _ _ one other
    exact le_antisymm (of_decide_eq_true one) (of_decide_eq_true other)

end

/-! ## The texts of an object -/

/-- The texts of two orders of the same fields are the same exactly when the orders
and the texts of the values are. -/
theorem members_eq_iff {write other : Json → Text} {fields first second : List (Text × Json)}
    (firstPerm : first.Perm fields) (secondPerm : second.Perm fields)
    (nodup : (fields.map Prod.fst).Nodup)
    (lengths : ∀ field ∈ fields, (write field.2).length = (other field.2).length) :
    commaJoin (first.map (memberOf write)) = commaJoin (second.map (memberOf other)) ↔
      first = second ∧ ∀ field ∈ fields, write field.2 = other field.2 := by
  -- a member's text tells its key, and hence the length of the value's text
  have delimited : ∀ one ∈ first, ∀ two ∈ second, ∀ oneRest twoRest,
      memberOf write one ++ oneRest = memberOf other two ++ twoRest →
        one = two ∧ write one.2 = other two.2 := by
    intro one oneMem two twoMem oneRest twoRest same
    simp only [memberOf, member, List.append_assoc] at same
    rcases quote_append_inj same with ⟨key, rest⟩
    obtain rfl : one = two := List.inj_on_of_nodup_map nodup (firstPerm.subset oneMem)
      (secondPerm.subset twoMem) key
    refine ⟨rfl, List.append_inj_left (List.cons.inj rest).2 ?_⟩
    exact lengths one (firstPerm.subset oneMem)
  have length_eq : first.length = second.length :=
    firstPerm.length_eq.trans secondPerm.length_eq.symm
  constructor
  · intro same
    have texts : first.map (memberOf write) = second.map (memberOf other) := by
      apply commaJoin_inj _ same
      rw [List.forall₂_iff_get]
      refine ⟨by simpa using length_eq, fun i firstLt secondLt oneRest twoRest same => ?_⟩
      simp only [List.get_eq_getElem, List.getElem_map] at same ⊢
      rcases delimited _ (List.getElem_mem _) _ (List.getElem_mem _) oneRest twoRest same with
        ⟨field, value⟩
      rw [memberOf, memberOf, value, field]
    have fieldwise : ∀ i (firstLt : i < first.length) (secondLt : i < second.length),
        first[i] = second[i] ∧ write first[i].2 = other second[i].2 := by
      intro i firstLt secondLt
      apply delimited _ (List.getElem_mem _) _ (List.getElem_mem _) [] []
      have text := List.getElem_of_eq texts (by simpa using firstLt : i < (first.map _).length)
      simpa using text
    have orders : first = second := List.ext_getElem length_eq fun i firstLt secondLt =>
      (fieldwise i firstLt secondLt).1
    refine ⟨orders, fun field member => ?_⟩
    rcases List.getElem_of_mem (firstPerm.mem_iff.mpr member) with ⟨i, firstLt, rfl⟩
    have pair := fieldwise i firstLt (length_eq ▸ firstLt)
    rw [pair.2, pair.1]
  · rintro ⟨rfl, values⟩
    congr 1
    apply List.map_congr_left
    intro field member
    rw [memberOf, memberOf, values field (firstPerm.subset member)]

theorem items_eq_iff {items : List Json} :
    canonicalJson (.array items) = canonicalizeRiskReport localeCompare (.array items) ↔
      ∀ item ∈ items, canonicalJson item = canonicalizeRiskReport localeCompare item := by
  rw [canonicalJson_array, canonicalizeRiskReport_array]
  constructor
  · intro same
    have texts : items.map canonicalJson = items.map (canonicalizeRiskReport localeCompare) := by
      apply commaJoin_inj _ (by simpa [inBrackets] using same)
      rw [List.forall₂_map_left_iff, List.forall₂_map_right_iff, List.forall₂_same]
      intro item _ oneRest twoRest same
      exact List.append_inj_left same (length_canonicalJson item)
    exact List.map_inj_left.mp texts
  · intro same
    rw [List.map_congr_left same]

/-- Publisher and verifier hash the same text exactly when, on every object within
the report, the order of the code units is the order of the rebuilt object. -/
theorem canonicalJson_eq_canonicalizeRiskReport_iff (localeCompare : Text → Text → Ordering)
    [Std.TransCmp localeCompare] (value : Json) (distinct : value.EveryObject List.Nodup) :
    canonicalJson value = canonicalizeRiskReport localeCompare value ↔
      value.EveryObject (SameOrder localeCompare) := by
  induction value using Json.induction with
  | null | bool | number | string => exact iff_of_true rfl trivial
  | array items ih =>
      rw [Json.EveryObject, Json.everyItem_iff] at distinct ⊢
      rw [items_eq_iff]
      exact forall₂_congr fun item member => ih item member (distinct item member)
  | object fields ih =>
      rw [Json.EveryObject, Json.everyField_iff] at distinct ⊢
      rw [canonicalJson_object, canonicalizeRiskReport_object, inBraces, inBraces,
        List.append_left_inj, List.cons_inj_right,
        members_eq_iff (workerOrder_perm fields) (packageOrder_perm fields) distinct.1
          fun field _ => length_canonicalJson field.2,
        workerOrder_eq_packageOrder_iff distinct.1]
      exact and_congr_right fun _ =>
        forall₂_congr fun field member => ih field member (distinct.2 field member)

/-! ## Keys on which the orders differ -/

/-- The root collation on ASCII letters and digits: letters by the alphabet, and
lowercase first where only the case differs. -/
def asciiCompare : Text → Text → Ordering :=
  compareLex (compareOn fun text => text.map lowered) (compareOn fun text => text.map isUpper)
where
  lowered (unit : ℕ) : ℕ := if 0x41 ≤ unit ∧ unit ≤ 0x5A then unit + 0x20 else unit
  isUpper (unit : ℕ) : ℕ := if 0x41 ≤ unit ∧ unit ≤ 0x5A then 1 else 0

instance : Std.TransCmp asciiCompare :=
  inferInstanceAs (Std.TransCmp (compareLex (compareOn _) (compareOn _)))

/-- An object with two numeric keys. -/
def numericKeys : Json :=
  .object [(ofString "9", .null), (ofString "10", .null)]

/-- An object with keys of both cases. -/
def mixedCaseKeys : Json :=
  .object [(ofString "Zest", .null), (ofString "bitflow", .null)]

/-- Two array-index keys are in numeric order for the contract package, under any
locale, and two keys that start with different case in alphabetical order. -/
theorem canonical_texts_differ :
    (numericKeys.EveryObject List.Nodup ∧
      canonicalJson numericKeys = ofString "\x7b\"10\":null,\"9\":null\x7d" ∧
      canonicalizeRiskReport asciiCompare numericKeys =
        ofString "\x7b\"9\":null,\"10\":null\x7d" ∧
      canonicalJson numericKeys ≠ canonicalizeRiskReport asciiCompare numericKeys) ∧
    mixedCaseKeys.EveryObject List.Nodup ∧
      canonicalJson mixedCaseKeys ≠ canonicalizeRiskReport asciiCompare mixedCaseKeys := by
  have numericTexts :
      canonicalJson numericKeys = ofString "\x7b\"10\":null,\"9\":null\x7d" ∧
        canonicalizeRiskReport asciiCompare numericKeys =
          ofString "\x7b\"9\":null,\"10\":null\x7d" ∧
        canonicalJson numericKeys ≠ canonicalizeRiskReport asciiCompare numericKeys := by
    decide +kernel
  refine ⟨⟨⟨by decide +kernel, trivial, trivial, trivial⟩, numericTexts⟩,
    ⟨by decide +kernel, trivial, trivial, trivial⟩, by decide +kernel⟩

/-- A report with nested objects whose keys are lowercase. -/
def lowercaseReport : Json :=
  .object [(ofString "wallet", .string (ofString "SP1")),
    (ofString "metrics", .array [.object [(ofString "b2", .bool true), (ofString "b1", .null)]])]

theorem canonicalJson_eq_canonicalizeRiskReport_iff_lowercase :
    canonicalJson lowercaseReport = canonicalizeRiskReport asciiCompare lowercaseReport := by
  have distinct : lowercaseReport.EveryObject List.Nodup :=
    ⟨by decide +kernel, trivial, ⟨⟨by decide +kernel, trivial, trivial, trivial⟩, trivial⟩, trivial⟩
  apply (canonicalJson_eq_canonicalizeRiskReport_iff asciiCompare lowercaseReport distinct).mpr
  exact
    ⟨by decide +kernel, trivial, ⟨⟨by decide +kernel, trivial, trivial, trivial⟩, trivial⟩, trivial⟩

end RiskRail.Report
