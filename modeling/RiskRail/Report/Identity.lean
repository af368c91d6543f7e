import RiskRail.Javascript.Parse
import RiskRail.Report.Canonical

/-!
# What a report hash identifies

Two reports have the same canonical text exactly when they are equal up to the order of
the keys of their objects.  The canonical text is the text without blanks of the report
with sorted keys, and that is read back; so a report that was stored with its keys in
another order hashes to what was attested.
-/

namespace RiskRail.Report

open RiskRail.Javascript RiskRail.Javascript.Text

/-! ## Values up to the order of keys -/

mutual

/-- Equal up to the order of the keys of every object. -/
def SameValue : Json → Json → Prop
  | .null, other => other = .null
  | .bool value, other => other = .bool value
  | .number text, other => other = .number text
  | .string value, other => other = .string value
  | .array items, other => ∃ others, other = .array others ∧ SameItems items others
  | .object fields, other =>
      ∃ others, other = .object others ∧
        (fields.map Prod.fst).Perm (others.map Prod.fst) ∧ SameFields fields others

/-- Item by item the same. -/
def SameItems : List Json → List Json → Prop
  | [], others => others = []
  | item :: items, others =>
      ∃ other rest, others = other :: rest ∧ SameValue item other ∧ SameItems items rest

/-- Every field has a field of the same key and value among the others. -/
def SameFields : List (Text × Json) → List (Text × Json) → Prop
  | [], _ => True
  | (key, item) :: fields, others =>
      (∃ other, (key, other) ∈ others ∧ SameValue item other) ∧ SameFields fields others

end

theorem sameItems_iff {items others : List Json} :
    SameItems items others ↔ List.Forall₂ SameValue items others := by
  induction items generalizing others with
  | nil => rw [SameItems, List.forall₂_nil_left_iff]
  | cons item items ih =>
      rw [SameItems, List.forall₂_cons_left_iff]
      constructor
      · rintro ⟨other, rest, rfl, same, later⟩
        exact ⟨other, rest, same, ih.mp later, rfl⟩
      · rintro ⟨other, rest, same, later, rfl⟩
        exact ⟨other, rest, rfl, same, ih.mpr later⟩

theorem sameFields_iff {fields others : List (Text × Json)} :
    SameFields fields others ↔
      ∀ field ∈ fields, ∃ other, (field.1, other) ∈ others ∧ SameValue field.2 other := by
  induction fields with
  | nil => simp [SameFields]
  | cons field fields ih => simp [SameFields, ih]

/-! ## Values with their keys in another order -/

section

variable (order : List (Text × Json) → List (Text × Json))

mutual

/-- The value with the fields of every object in this order. -/
def arrange : Json → Json
  | .array items => .array (arrangeItems items)
  | .object fields => .object (order (arrangeFields fields))
  | .null => .null
  | .bool value => .bool value
  | .number text => .number text
  | .string value => .string value

/-- The items, each arranged. -/
def arrangeItems : List Json → List Json
  | [] => []
  | item :: items => arrange item :: arrangeItems items

/-- The values, each arranged. -/
def arrangeFields : List (Text × Json) → List (Text × Json)
  | [] => []
  | (key, item) :: fields => (key, arrange item) :: arrangeFields fields

end

end

variable {order : List (Text × Json) → List (Text × Json)}

theorem arrangeItems_eq (items : List Json) :
    arrangeItems order items = items.map (arrange order) := by
  induction items with
  | nil => rfl
  | cons item items ih => rw [arrangeItems, ih, List.map_cons]

theorem arrangeFields_eq (fields : List (Text × Json)) :
    arrangeFields order fields = fields.map (Prod.map id (arrange order)) := by
  induction fields with
  | nil => rfl
  | cons field fields ih => rw [arrangeFields, ih, List.map_cons, Prod.map, id]

theorem arrange_array (items : List Json) :
    arrange order (.array items) = .array (items.map (arrange order)) := by
  rw [arrange, arrangeItems_eq]

theorem arrange_object (fields : List (Text × Json)) :
    arrange order (.object fields) =
      .object (order (fields.map (Prod.map id (arrange order)))) := by
  rw [arrange, arrangeFields_eq]

/-- The keys stay. -/
theorem keys_map_arrange (fields : List (Text × Json)) :
    (fields.map (Prod.map id (arrange order))).map Prod.fst = fields.map Prod.fst := by
  rw [List.map_map]
  rfl

variable {printed : Text → Text}

theorem readable_arrange (perm : ∀ fields, (order fields).Perm fields) {value : Json}
    (readable : value.Readable printed) : (arrange order value).Readable printed := by
  induction value using Json.induction with
  | null | bool | string => trivial
  | number => exact readable
  | array items ih =>
      have every := Json.readableItems_iff.mp readable
      rw [arrange_array]
      apply Json.readableItems_iff.mpr
      intro item member
      rcases List.mem_map.mp member with ⟨old, oldMember, rfl⟩
      exact ih old oldMember (every old oldMember)
  | object fields ih =>
      have every := Json.readableFields_iff.mp readable.2
      rw [arrange_object]
      constructor
      · rw [((perm _).map Prod.fst).nodup_iff, keys_map_arrange]
        exact readable.1
      · apply Json.readableFields_iff.mpr
        intro field member
        rcases List.mem_map.mp ((perm _).mem_iff.mp member) with ⟨old, oldMember, rfl⟩
        exact ih old oldMember (every old oldMember)

theorem sameValue_arrange (perm : ∀ fields, (order fields).Perm fields) (value : Json) :
    SameValue value (arrange order value) := by
  induction value using Json.induction with
  | null | bool | string | number => exact rfl
  | array items ih =>
      refine ⟨_, arrange_array items, sameItems_iff.mpr ?_⟩
      rw [List.forall₂_map_right_iff, List.forall₂_same]
      exact ih
  | object fields ih =>
      refine ⟨_, arrange_object fields, ?_, sameFields_iff.mpr fun field member => ?_⟩
      · have keys := (perm (fields.map (Prod.map id (arrange order)))).map Prod.fst
        rw [keys_map_arrange] at keys
        exact keys.symm
      · refine ⟨arrange order field.2, (perm _).mem_iff.mpr ?_, ih field member⟩
        exact List.mem_map.mpr ⟨field, member, rfl⟩

/-! ## The texts of a value -/

/-- An order that only looks at the keys. -/
theorem workerOrder_map (change : Json → Json) (fields : List (Text × Json)) :
    workerOrder (fields.map (Prod.map id change)) =
      (workerOrder fields).map (Prod.map id change) := by
  rw [workerOrder, ownFields, sortByKey_map, sortByKey_map]
  rfl

/-- The canonical text is the text of the value with sorted keys. -/
theorem canonicalJson_eq_compact (value : Json) :
    canonicalJson value = compact (arrange workerOrder value) := by
  induction value using Json.induction with
  | null | bool | number | string => rfl
  | array items ih =>
      rw [arrange_array, compact_array, canonicalJson_array, List.map_map]
      exact congrArg (inBrackets ∘ commaJoin) (List.map_congr_left ih)
  | object fields ih =>
      rw [arrange_object, compact_object, canonicalJson_object, workerOrder_map, List.map_map]
      apply congrArg (inBraces ∘ commaJoin)
      apply List.map_congr_left
      intro field member
      rw [memberOf, ih field ((workerOrder_perm fields).mem_iff.mp member)]
      rfl

/-- `JSON.stringify` writes the value with its properties as they are enumerated. -/
theorem stringify_eq_compact (value : Json) :
    stringify value = compact (arrange ownFields value) := by
  induction value using Json.induction with
  | null | bool | number | string => rfl
  | array items ih =>
      rw [arrange_array, compact_array, stringify, stringifyItems_eq, List.map_map]
      exact congrArg (inBrackets ∘ commaJoin) (List.map_congr_left ih)
  | object fields ih =>
      have perm : (ownFields fields).Perm fields := sortByKey_perm _ _
      rw [arrange_object, compact_object, stringify, stringifyFields_eq, ownFields, ownFields,
        sortByKey_map, sortByKey_map, List.map_map, List.map_map]
      apply congrArg (inBraces ∘ commaJoin)
      apply List.map_congr_left
      intro field member
      rw [Function.comp_apply, Prod.map, ih field (perm.mem_iff.mp member)]
      rfl

/-! ## The canonical form -/

/-- Sorting forgets the order the fields were in. -/
theorem workerOrder_eq_of_perm {first second : List (Text × Json)} (perm : first.Perm second)
    (nodup : (second.map Prod.fst).Nodup) : workerOrder first = workerOrder second := by
  have sorted : ∀ fields : List (Text × Json), ((workerOrder fields).map Prod.fst).Pairwise
      fun first second => unitsLE first second = true := by
    intro fields
    rw [workerOrder, keys_sortByKey]
    exact pairwise_sortBy unitsLE_trans unitsLE_total _
  have orders : (workerOrder first).Perm (workerOrder second) :=
    ((workerOrder_perm first).trans perm).trans (workerOrder_perm second).symm
  apply eq_of_keys_eq orders (((workerOrder_perm second).map Prod.fst).nodup_iff.mpr nodup)
  apply (orders.map Prod.fst).eq_of_pairwise _ (sorted first) (sorted second)
  intro one other _ _ before after
  exact le_antisymm (of_decide_eq_true before) (of_decide_eq_true after)

/-- Fields with the same keys and values are a permutation of each other. -/
theorem perm_of_forall_mem {first second : List (Text × Json)}
    (keys : (first.map Prod.fst).Perm (second.map Prod.fst)) (nodup : (first.map Prod.fst).Nodup)
    (found : ∀ field ∈ first, field ∈ second) : first.Perm second := by
  apply List.Subperm.perm_of_length_le (List.subperm_of_subset nodup.of_map found)
  simpa using keys.length_eq.ge

theorem map_eq_of_sameItems {write : Json → Json} {items others : List Json}
    (each : ∀ item ∈ items, ∀ other, SameValue item other → write item = write other)
    (same : List.Forall₂ SameValue items others) : items.map write = others.map write := by
  induction same with
  | nil => rfl
  | cons head tail ih =>
      rw [List.map_cons, List.map_cons, each _ List.mem_cons_self _ head,
        ih fun item member => each item (List.mem_cons_of_mem _ member)]

/-- Values that are equal up to the order of keys have one form with sorted keys. -/
theorem arrange_eq_of_sameValue {value other : Json} (readable : value.Readable printed)
    (same : SameValue value other) : arrange workerOrder value = arrange workerOrder other := by
  induction value using Json.induction generalizing other with
  | null | bool | number | string => exact congrArg (arrange workerOrder) same.symm
  | array items ih =>
      rcases same with ⟨others, rfl, same⟩
      have every := Json.readableItems_iff.mp readable
      rw [arrange_array, arrange_array]
      congr 1
      apply map_eq_of_sameItems _ (sameItems_iff.mp same)
      exact fun item member other same => ih item member (every item member) same
  | object fields ih =>
      rcases same with ⟨others, rfl, keys, same⟩
      have every := Json.readableFields_iff.mp readable.2
      rw [arrange_object, arrange_object]
      congr 1
      have perm : (fields.map (Prod.map id (arrange workerOrder))).Perm
          (others.map (Prod.map id (arrange workerOrder))) := by
        apply perm_of_forall_mem
        · rw [keys_map_arrange, keys_map_arrange]
          exact keys
        · rw [keys_map_arrange]
          exact readable.1
        · intro field member
          rcases List.mem_map.mp member with ⟨old, oldMember, rfl⟩
          rcases sameFields_iff.mp same old oldMember with ⟨item, itemMember, alike⟩
          refine List.mem_map.mpr ⟨_, itemMember, ?_⟩
          rw [Prod.map, Prod.map, ih old oldMember (every old oldMember) alike]
      apply workerOrder_eq_of_perm perm
      rw [keys_map_arrange]
      exact keys.nodup_iff.mp readable.1

theorem sameItems_of_map_eq {write : Json → Json} {items others : List Json}
    (each : ∀ item ∈ items, ∀ other, write item = write other → SameValue item other)
    (same : items.map write = others.map write) : List.Forall₂ SameValue items others := by
  induction items generalizing others with
  | nil =>
      cases others with
      | nil => exact .nil
      | cons => cases same
  | cons item items ih =>
      cases others with
      | nil => cases same
      | cons other others =>
          rcases List.cons.inj same with ⟨head, tail⟩
          exact .cons (each item List.mem_cons_self other head)
            (ih (fun item member => each item (List.mem_cons_of_mem _ member)) tail)

/-- Values with one form with sorted keys are equal up to the order of keys. -/
theorem sameValue_of_arrange_eq {value other : Json}
    (same : arrange workerOrder value = arrange workerOrder other) : SameValue value other := by
  induction value using Json.induction generalizing other with
  | null | bool | number | string =>
      cases other <;> cases same
      rfl
  | array items ih =>
      cases other with
      | array others =>
          rw [arrange_array, arrange_array, Json.array.injEq] at same
          refine ⟨others, rfl, sameItems_iff.mpr (sameItems_of_map_eq ?_ same)⟩
          exact fun item member other alike => ih item member alike
      | _ => cases same
  | object fields ih =>
      cases other with
      | object others =>
          rw [arrange_object, arrange_object, Json.object.injEq] at same
          have perm : (fields.map (Prod.map id (arrange workerOrder))).Perm
              (others.map (Prod.map id (arrange workerOrder))) :=
            (workerOrder_perm _).symm.trans (same ▸ workerOrder_perm _)
          refine ⟨others, rfl, ?_, sameFields_iff.mpr fun field member => ?_⟩
          · have keys := perm.map Prod.fst
            rwa [keys_map_arrange, keys_map_arrange] at keys
          · have moved := perm.mem_iff.mp (List.mem_map_of_mem member)
            rcases List.mem_map.mp moved with ⟨found, foundMember, alike⟩
            rcases Prod.mk.inj alike with ⟨key, item⟩
            refine ⟨found.2, ?_, ih field member item.symm⟩
            rwa [show (field.1, found.2) = found from Prod.ext key.symm rfl]
      | _ => cases same

/-- What a value is equal to up to the order of keys is readable where it is. -/
theorem readable_of_sameValue {value other : Json} (readable : value.Readable printed)
    (same : SameValue value other) : other.Readable printed := by
  induction value using Json.induction generalizing other with
  | null | bool | number | string =>
      cases same
      exact readable
  | array items ih =>
      rcases same with ⟨others, rfl, same⟩
      have every := Json.readableItems_iff.mp readable
      apply Json.readableItems_iff.mpr
      intro other member
      rcases List.getElem_of_mem member with ⟨i, bound, rfl⟩
      have pairs := List.forall₂_iff_get.mp (sameItems_iff.mp same)
      have bound' : i < items.length := pairs.1 ▸ bound
      exact ih _ (List.getElem_mem bound') (every _ (List.getElem_mem bound'))
        (pairs.2 i bound' bound)
  | object fields ih =>
      rcases same with ⟨others, rfl, keys, same⟩
      have every := Json.readableFields_iff.mp readable.2
      have distinct := keys.nodup_iff.mp readable.1
      refine ⟨distinct, Json.readableFields_iff.mpr fun other member => ?_⟩
      rcases List.mem_map.mp (keys.mem_iff.mpr (List.mem_map_of_mem member)) with
        ⟨field, fieldMember, key⟩
      rcases sameFields_iff.mp same field fieldMember with ⟨item, itemMember, alike⟩
      have found : (field.1, item) = other :=
        List.inj_on_of_nodup_map distinct itemMember member key
      rw [← found]
      exact ih field fieldMember (every field fieldMember) alike

/-! ## The hash -/

section

variable (sha256 : Text → Text)

/-- The digest of the canonical text. -/
def sha256Canonical (value : Json) : Text :=
  sha256 (canonicalJson value)

end

theorem canonicalJson_eq_iff_sameValue {value other : Json} (readable : value.Readable printed)
    (otherReadable : other.Readable printed) :
    canonicalJson value = canonicalJson other ↔ SameValue value other := by
  rw [canonicalJson_eq_compact, canonicalJson_eq_compact]
  constructor
  · intro same
    exact sameValue_of_arrange_eq (compact_injective
      (readable_arrange workerOrder_perm readable)
      (readable_arrange workerOrder_perm otherReadable) same)
  · intro same
    rw [arrange_eq_of_sameValue readable same]

/-- Canonical texts are the same exactly for values that are equal up to the order of
keys; a canonical text is JSON for such a value; and whatever order the keys are stored
in, reading the stored text back and hashing it gives the hash that was attested. -/
theorem canonicalJson_identifies (sha256 : Text → Text) {value : Json}
    (readable : value.Readable printed) :
    (∀ other : Json, other.Readable printed →
      (canonicalJson value = canonicalJson other ↔ SameValue value other)) ∧
    (∃ read, parse printed (canonicalJson value) = some read ∧ SameValue value read) ∧
    ∀ stored, SameValue value stored →
      parse printed (compact stored) = some stored ∧
        sha256Canonical sha256 stored = sha256Canonical sha256 value ∧
        ∃ read, parse printed (stringify stored) = some read ∧
          sha256Canonical sha256 read = sha256Canonical sha256 value := by
  refine ⟨fun other otherReadable => canonicalJson_eq_iff_sameValue readable otherReadable, ?_, ?_⟩
  · refine ⟨arrange workerOrder value, ?_, sameValue_arrange workerOrder_perm value⟩
    rw [canonicalJson_eq_compact]
    exact parse_compact (readable_arrange workerOrder_perm readable)
  · intro stored same
    have own_perm : ∀ fields : List (Text × Json), (ownFields fields).Perm fields :=
      fun fields => sortByKey_perm _ _
    have storedReadable := readable_of_sameValue readable same
    have hash : sha256Canonical sha256 stored = sha256Canonical sha256 value :=
      congrArg sha256 ((canonicalJson_eq_iff_sameValue readable storedReadable).mpr same).symm
    have readReadable := readable_arrange own_perm storedReadable
    refine ⟨parse_compact storedReadable, hash, arrange ownFields stored, ?_, ?_⟩
    · rw [stringify_eq_compact]
      exact parse_compact readReadable
    · rw [← hash]
      exact congrArg sha256 ((canonicalJson_eq_iff_sameValue storedReadable readReadable).mpr
        (sameValue_arrange own_perm stored)).symm

/-- A report as it is hashed. -/
def smallReport : Json :=
  .object
    [(ofString "riskLevel", .string (ofString "watch")),
      (ofString "metrics",
        .object
          [(ofString "riskScoreBps", .number (ofString "2500")),
            (ofString "healthFactorE4", .null)])]

/-- The same report as a database may store it. -/
def storedReport : Json :=
  .object
    [(ofString "metrics",
        .object
          [(ofString "healthFactorE4", .null),
            (ofString "riskScoreBps", .number (ofString "2500"))]),
      (ofString "riskLevel", .string (ofString "watch"))]

theorem canonicalJson_identifies_storedReport :
    parse id (compact storedReport) = some storedReport ∧
      sha256Canonical id storedReport = sha256Canonical id smallReport := by
  have readable : smallReport.Readable id :=
    ⟨by decide +kernel, trivial, ⟨by decide +kernel, ⟨by decide +kernel, rfl⟩, trivial, trivial⟩,
      trivial⟩
  have metrics : SameFields
      [(ofString "riskScoreBps", .number (ofString "2500")), (ofString "healthFactorE4", .null)]
      [(ofString "healthFactorE4", .null), (ofString "riskScoreBps", .number (ofString "2500"))] :=
    ⟨⟨_, by simp, rfl⟩, ⟨_, by simp, rfl⟩, trivial⟩
  have same : SameValue smallReport storedReport :=
    ⟨_, rfl, List.Perm.swap _ _ [],
      ⟨_, List.mem_cons_of_mem _ List.mem_cons_self, rfl⟩,
      ⟨_, List.mem_cons_self, _, rfl, List.Perm.swap _ _ [], metrics⟩, trivial⟩
  rcases (canonicalJson_identifies id readable).2.2 storedReport same with ⟨read, hash, -⟩
  exact ⟨read, hash⟩

end RiskRail.Report
