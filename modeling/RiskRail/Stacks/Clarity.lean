import RiskRail.Javascript.Numeral
import RiskRail.Javascript.Object

/-!
# Decoding Clarity values

A decoded Clarity value arrives as a tree of nodes, each with the signature of its
whole type and its payload.  `unwrapClarity` collapses the tree; what a node is, is
read off the leading constructor of its signature.
-/

namespace RiskRail.Stacks

open RiskRail.Javascript Text

/-! ## Properties of an object -/

/-- `record[key]`; `none` is `undefined`. -/
def property (key : Text) (fields : List (Text × Json)) : Option Json :=
  (fields.find? fun field => field.1 = key).map Prod.snd

theorem property_eq_some_iff {fields : List (Text × Json)} (keys : (fields.map Prod.fst).Nodup)
    {key : Text} {value : Json} : property key fields = some value ↔ (key, value) ∈ fields := by
  unfold property
  induction fields with
  | nil => simp
  | cons field fields ih =>
      rcases List.nodup_cons.mp keys with ⟨fresh, keys⟩
      by_cases here : field.1 = key
      · rw [List.find?_cons_of_pos (by simpa using here), Option.map_some, Option.some.injEq,
          List.mem_cons]
        constructor
        · rintro rfl
          exact Or.inl (Prod.ext here.symm rfl)
        · rintro (rfl | later)
          · rfl
          · exact absurd (List.mem_map.mpr ⟨_, later, here.symm⟩) fresh
      · rw [List.find?_cons_of_neg (by simpa using here), ih keys, List.mem_cons]
        constructor
        · exact Or.inr
        · rintro (rfl | later)
          · exact absurd rfl here
          · exact later

/-- The order of an object's properties does not matter to a lookup. -/
theorem property_of_perm {first second : List (Text × Json)} (perm : first.Perm second)
    (keys : (first.map Prod.fst).Nodup) (key : Text) :
    property key first = property key second := by
  have keys' : (second.map Prod.fst).Nodup := (perm.map Prod.fst).nodup_iff.mp keys
  ext value
  rw [property_eq_some_iff keys, property_eq_some_iff keys', perm.mem_iff]

/-! ## The decoder -/

/-- The letters A to Z in lower case.  No other character becomes one of the letters
the kinds are compared with. -/
def toLowerCase (text : Text) : Text :=
  text.map fun unit => if 0x41 ≤ unit ∧ unit ≤ 0x5A then unit + 0x20 else unit

/-- The outermost constructor of a type signature. -/
def clarityKind (type : Text) : Text :=
  match trim type with
  | 0x28 :: rest =>
      toLowerCase (rest.takeWhile fun unit => !(isSpace unit || unit == 0x28 || unit == 0x29))
  | trimmed => toLowerCase trimmed

mutual

/-- Collapse a tree of nodes into plain values. -/
def unwrapClarity : Json → Json
  | .array items => .array (unwrapItems items)
  | .object fields =>
      match property (ofString "type") fields with
      | some (.string type) =>
          if clarityKind type = ofString "none" then .null
          else if clarityKind type = ofString "optional" then
            match property (ofString "value") fields with
            | none => .null
            | some .null => .null
            | some _ => (property (ofString "value") (unwrapFields fields)).getD .null
          else
            match property (ofString "value") (unwrapFields fields) with
            | some value => value
            | none => .object (ownFields (unwrapFields fields))
      -- The fields of a tuple have no type of their own.
      | _ => .object (ownFields (unwrapFields fields))
  | value => value

/-- Each of the items, unwrapped. -/
def unwrapItems : List Json → List Json
  | [] => []
  | item :: items => unwrapClarity item :: unwrapItems items

/-- Each of the values, unwrapped. -/
def unwrapFields : List (Text × Json) → List (Text × Json)
  | [] => []
  | (key, item) :: fields => (key, unwrapClarity item) :: unwrapFields fields

end

@[simp]
theorem unwrapClarity_null : unwrapClarity .null = .null := by
  simp only [unwrapClarity]

@[simp]
theorem unwrapClarity_bool (value : Bool) : unwrapClarity (.bool value) = .bool value := by
  simp only [unwrapClarity]

@[simp]
theorem unwrapClarity_string (value : Text) : unwrapClarity (.string value) = .string value := by
  simp only [unwrapClarity]

theorem unwrapFields_eq (fields : List (Text × Json)) :
    unwrapFields fields = fields.map (Prod.map id unwrapClarity) := by
  induction fields with
  | nil => rfl
  | cons field fields ih => rw [unwrapFields, ih, List.map_cons, Prod.map, id]

theorem property_unwrapFields (key : Text) (fields : List (Text × Json)) :
    property key (unwrapFields fields) = (property key fields).map unwrapClarity := by
  rw [unwrapFields_eq]
  unfold property
  rw [List.find?_map, Option.map_map, Option.map_map]
  rfl

/-- The node with this signature and payload. -/
def node (type : String) (payload : Json) : Json :=
  .object [(ofString "type", .string (ofString type)), (ofString "value", payload)]

/-- A node: its signature starts with this constructor, and this is its payload. -/
def Node (kind : String) (payload : Json) (node : Json) : Prop :=
  ∃ fields type, node = .object fields ∧
    property (ofString "type") fields = some (.string type) ∧
    clarityKind type = ofString kind ∧
    property (ofString "value") fields = some payload

/-- A node that is not an optional unwraps to its unwrapped payload. -/
theorem Node.unwrap {kind : String} {payload node : Json} (is_node : Node kind payload node)
    (not_none : ofString kind ≠ ofString "none")
    (not_optional : ofString kind ≠ ofString "optional") :
    unwrapClarity node = unwrapClarity payload := by
  rcases is_node with ⟨fields, type, rfl, type_eq, kind_eq, value⟩
  rw [unwrapClarity]
  simp only [type_eq, kind_eq, if_neg not_none, if_neg not_optional, property_unwrapFields, value,
    Option.map_some]

/-- An optional unwraps to its unwrapped payload, `null` when it is empty. -/
theorem Node.unwrap_optional {payload node : Json} (is_node : Node "optional" payload node) :
    unwrapClarity node = unwrapClarity payload := by
  rcases is_node with ⟨fields, type, rfl, type_eq, kind_eq, value⟩
  rw [unwrapClarity]
  simp only [type_eq, kind_eq, property_unwrapFields, value, Option.map_some, Option.getD_some]
  rw [if_neg (by decide), if_pos trivial]
  cases payload with
  | null => simp only [unwrapClarity]
  | _ => rfl

/-- A map of fields without a type of its own unwraps field by field. -/
theorem unwrapClarity_untyped {fields : List (Text × Json)}
    (untyped : ∀ type, property (ofString "type") fields ≠ some (.string type)) :
    unwrapClarity (.object fields) = .object (ownFields (unwrapFields fields)) := by
  rw [unwrapClarity]
  split
  · rename_i type typed
    exact absurd typed (untyped type)
  · rfl

/-- A tuple's map of fields keeps its keys and unwraps what they hold. -/
theorem unwrapClarity_tuple {fields : List (Text × Json)} (keys : (fields.map Prod.fst).Nodup)
    (untyped : ∀ type, property (ofString "type") fields ≠ some (.string type)) :
    ∃ unwrapped, unwrapClarity (.object fields) = .object unwrapped ∧
      ∀ key, property key unwrapped = (property key fields).map unwrapClarity := by
  refine ⟨ownFields (unwrapFields fields), unwrapClarity_untyped untyped, fun key => ?_⟩
  have nodup : ((unwrapFields fields).map Prod.fst).Nodup := by
    rw [unwrapFields_eq, List.map_map]
    exact keys
  rw [ownFields, property_of_perm (sortByKey_perm _ _)
    (((sortByKey_perm _ _).map Prod.fst).nodup_iff.mpr nodup), property_unwrapFields]

/-! ## Responses -/

/-- A response, with the value of either side. -/
structure ClarityResponse where
  ok : Bool
  value : Option Json

/-- Split a response into its branch and payload.  Anything else is a bare value. -/
def unwrapClarityResponse : Json → ClarityResponse
  | .object fields =>
      match property (ofString "type") fields with
      | some (.string type) =>
          if clarityKind type = ofString "response" then
            { ok :=
                match property (ofString "success") fields with
                | some (.bool false) => false
                | _ => true
              value := (property (ofString "value") fields).map unwrapClarity }
          else { ok := true, value := some (unwrapClarity (.object fields)) }
      | _ => { ok := true, value := some (unwrapClarity (.object fields)) }
  | input => { ok := true, value := some (unwrapClarity input) }

end RiskRail.Stacks
