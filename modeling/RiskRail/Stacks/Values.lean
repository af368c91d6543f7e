import RiskRail.Javascript.Hex
import RiskRail.Stacks.Clarity

/-!
# Clarity values through the decoder

A Clarity value is written as a node with the signature of its whole type.  The decoder
looks at the leading constructor only: what the signature spells behind it, the types of
everything inside included, does not matter.
-/

namespace RiskRail.Stacks

open RiskRail.Javascript Text

/-! ## Names of fields -/

/-- A letter in either case. -/
def isLetter (unit : ℕ) : Bool :=
  (0x41 ≤ unit && unit ≤ 0x5A) || (0x61 ≤ unit && unit ≤ 0x7A)

/-- What a name goes on with after its first letter. -/
def isNameUnit (unit : ℕ) : Bool :=
  isLetter unit || (0x30 ≤ unit && unit ≤ 0x39) || (ofString "-_!?+<>=/*").contains unit

/-- Names that are no words. -/
def operators : List Text :=
  ["-", "+", "=", "/", "*", "<", ">", "<=", ">="].map ofString

/-- A name of Clarity: one that starts with a letter, or an operator. -/
def isClarityName (text : Text) : Bool :=
  operators.contains text ||
    match text with
    | [] => false
    | first :: rest => isLetter first && rest.all isNameUnit

/-- A name that a tuple may have. -/
structure FieldName where
  text : Text
  isName : isClarityName text = true

theorem not_digit_of_isLetter {unit : ℕ} (letter : isLetter unit = true) :
    ¬(0x30 ≤ unit ∧ unit ≤ 0x39) := by
  simp only [isLetter, Bool.or_eq_true, Bool.and_eq_true, decide_eq_true_iff] at letter
  omega

theorem not_digit_of_mem_operators :
    ∀ operator ∈ operators, ∀ unit ∈ operator, ¬(0x30 ≤ unit ∧ unit ≤ 0x39) := by
  decide

/-- A name does not read as an array index. -/
theorem FieldName.arrayIndex_eq_none (name : FieldName) : arrayIndex name.text = none := by
  rw [Option.eq_none_iff_forall_ne_some]
  intro n index
  have printed : ∀ unit ∈ name.text, 0x30 ≤ unit ∧ unit ≤ 0x39 := by
    rw [← digits_of_arrayIndex index]
    exact fun unit => mem_digits
  have nonempty : name.text ≠ [] := by
    rw [← digits_of_arrayIndex index]
    exact digits_ne_nil n
  have isName := name.isName
  cases text_eq : name.text with
  | nil => exact nonempty text_eq
  | cons first rest =>
      have digit := printed first (by rw [text_eq]; exact List.mem_cons_self)
      simp only [text_eq, isClarityName, Bool.or_eq_true, Bool.and_eq_true,
        List.contains_iff_mem] at isName
      rcases isName with operator | ⟨letter, _⟩
      · exact not_digit_of_mem_operators _ operator first List.mem_cons_self digit
      · exact not_digit_of_isLetter letter digit

/-- Properties that are no array indices are enumerated in the order they were created. -/
theorem ownFields_of_names {β : Type*} {fields : List (Text × β)}
    (named : ∀ field ∈ fields, arrayIndex field.1 = none) : ownFields fields = fields := by
  apply List.Pairwise.insertionSort_eq
  rw [List.pairwise_iff_forall_sublist]
  intro first second sublist
  have firstNamed := named first (sublist.subset (by simp))
  have secondNamed := named second (sublist.subset (by simp))
  simp only [propertyLE, firstNamed, secondNamed]

/-! ## Values and their nodes -/

/-- A value of Clarity. -/
inductive ClarityValue where
  | uint (value : ℕ)
  | int (value : ℤ)
  | bool (value : Bool)
  | buff (bytes : List UInt8)
  | stringAscii (text : Text)
  | stringUtf8 (text : Text)
  | principal (address : Text)
  | tuple (fields : List (FieldName × ClarityValue))
  | list (items : List ClarityValue)
  | none
  | some (value : ClarityValue)
  | ok (value : ClarityValue)
  | err (value : ClarityValue)

/-- The leading constructor of a value's type. -/
def ClarityValue.constructor : ClarityValue → String
  | .uint _ => "uint"
  | .int _ => "int"
  | .bool _ => "bool"
  | .buff _ => "buff"
  | .stringAscii _ => "string-ascii"
  | .stringUtf8 _ => "string-utf8"
  | .principal _ => "principal"
  | .tuple _ => "tuple"
  | .list _ => "list"
  | .none | .some _ => "optional"
  | .ok _ | .err _ => "response"

/-- A type without parameters is spelled as a bare word. -/
def ClarityValue.isBare : ClarityValue → Bool
  | .uint _ | .int _ | .bool _ | .principal _ => true
  | _ => false

/-- The signature of a value's whole type.  `parameters` is what it spells behind the
leading constructor, as `uint uint` in `(response uint uint)`. -/
def signature (parameters : ClarityValue → Text) (value : ClarityValue) : Text :=
  if value.isBare then ofString value.constructor
  else 0x28 :: (ofString value.constructor ++ 0x20 :: (parameters value ++ [0x29]))

/-- The digits of a `uint`. -/
def uintText (value : ℕ) : Text :=
  digits value

/-- The digits of an `int`, with a sign. -/
def intText (value : ℤ) : Text :=
  if value < 0 then 0x2D :: digits value.natAbs else digits value.natAbs

/-- The bytes in hexadecimal. -/
def buffText (bytes : List UInt8) : Text :=
  ofString "0x" ++ hexText bytes

section Nodes

variable (parameters : ClarityValue → Text)

/-- What a response says of its branch. -/
def branch : ClarityValue → List (Text × Json)
  | .ok _ => [(ofString "success", .bool true)]
  | .err _ => [(ofString "success", .bool false)]
  | _ => []

/-- A node with its type and its value. -/
def cvNode (value : ClarityValue) (payload : Json) : Json :=
  .object ((ofString "type", .string (signature parameters value)) ::
    (ofString "value", payload) :: branch value)

mutual

/-- The tree of nodes of a value. -/
def cvToJSON : ClarityValue → Json
  | .uint value => cvNode parameters (.uint value) (.string (uintText value))
  | .int value => cvNode parameters (.int value) (.string (intText value))
  | .bool value => cvNode parameters (.bool value) (.bool value)
  | .buff bytes => cvNode parameters (.buff bytes) (.string (buffText bytes))
  | .stringAscii text => cvNode parameters (.stringAscii text) (.string text)
  | .stringUtf8 text => cvNode parameters (.stringUtf8 text) (.string text)
  | .principal address => cvNode parameters (.principal address) (.string address)
  | .tuple fields => cvNode parameters (.tuple fields) (.object (fieldsToJSON fields))
  | .list items => cvNode parameters (.list items) (.array (itemsToJSON items))
  | .none => cvNode parameters .none .null
  | .some value => cvNode parameters (.some value) (cvToJSON value)
  | .ok value => cvNode parameters (.ok value) (cvToJSON value)
  | .err value => cvNode parameters (.err value) (cvToJSON value)

/-- Each of the items as a node. -/
def itemsToJSON : List ClarityValue → List Json
  | [] => []
  | item :: items => cvToJSON item :: itemsToJSON items

/-- The fields of a tuple are nodes under their names, without a type of their own. -/
def fieldsToJSON : List (FieldName × ClarityValue) → List (Text × Json)
  | [] => []
  | (name, value) :: fields => (name.text, cvToJSON value) :: fieldsToJSON fields

end

end Nodes

mutual

/-- The structural decoding: an empty optional is `null`, and neither an optional nor a
response leaves a trace of itself. -/
def plain : ClarityValue → Json
  | .uint value => .string (uintText value)
  | .int value => .string (intText value)
  | .bool value => .bool value
  | .buff bytes => .string (buffText bytes)
  | .stringAscii text | .stringUtf8 text | .principal text => .string text
  | .tuple fields => .object (plainFields fields)
  | .list items => .array (plainItems items)
  | .none => .null
  | .some value | .ok value | .err value => plain value

/-- The payloads of the items. -/
def plainItems : List ClarityValue → List Json
  | [] => []
  | item :: items => plain item :: plainItems items

/-- The payloads of the values, with their names. -/
def plainFields : List (FieldName × ClarityValue) → List (Text × Json)
  | [] => []
  | (name, value) :: fields => (name.text, plain value) :: plainFields fields

end

/-- The failure branch of a response. -/
def ClarityValue.isErr : ClarityValue → Bool
  | .err _ => true
  | _ => false

/-! ## The constructor of a signature -/

theorem trim_enclosed {opening closing : ℕ} (first : isSpace opening = false)
    (last : isSpace closing = false) (inner : Text) :
    trim (opening :: (inner ++ [closing])) = opening :: (inner ++ [closing]) := by
  have reversed : (opening :: (inner ++ [closing])).reverse =
      closing :: (opening :: inner).reverse := by
    simp
  rw [trim, List.dropWhile_cons_of_neg (by simp [first]), reversed,
    List.dropWhile_cons_of_neg (by simp [last]), ← reversed, List.reverse_reverse]

/-- What the decoder reads a constructor up to. -/
def isWordUnit (unit : ℕ) : Bool :=
  !(isSpace unit || unit == 0x28 || unit == 0x29)

section Words

variable {word : Text} (within : ∀ unit ∈ word, isWordUnit unit = true)
include within

theorem clarityKind_word : clarityKind word = toLowerCase word := by
  have trimmed : trim word = word := trim_eq_self fun unit member => by
    have unit_within := within unit member
    simp only [isWordUnit, Bool.not_eq_true', Bool.or_eq_false_iff] at unit_within
    exact unit_within.1.1
  rw [clarityKind, trimmed]
  split
  · exact absurd (within 0x28 List.mem_cons_self) (by decide)
  · rfl

/-- Whatever stands behind the constructor, the kind is the constructor alone. -/
theorem clarityKind_enclosed (rest : Text) :
    clarityKind (0x28 :: (word ++ 0x20 :: (rest ++ [0x29]))) = toLowerCase word := by
  have whole : 0x28 :: (word ++ 0x20 :: (rest ++ [0x29])) =
      0x28 :: ((word ++ 0x20 :: rest) ++ [0x29]) := by
    simp
  have kept : (word ++ 0x20 :: (rest ++ [0x29])).takeWhile isWordUnit = word := by
    rw [List.takeWhile_append_of_pos within, List.takeWhile_cons_of_neg (by decide),
      List.append_nil]
  rw [clarityKind, whole, trim_enclosed (by decide) (by decide), ← whole]
  exact congrArg toLowerCase kept

end Words

/-- The types that a node can name. -/
def constructors : List String :=
  ["uint", "int", "bool", "buff", "string-ascii", "string-utf8", "principal", "tuple", "list",
    "optional", "response"]

theorem constructor_mem (value : ClarityValue) : value.constructor ∈ constructors := by
  cases value <;> simp [ClarityValue.constructor, constructors]

theorem isWordUnit_of_constructor : ∀ constructor ∈ constructors,
    ∀ unit ∈ ofString constructor, isWordUnit unit = true := by
  decide

theorem toLowerCase_constructor : ∀ constructor ∈ constructors,
    toLowerCase (ofString constructor) = ofString constructor := by
  decide

theorem clarityKind_signature (parameters : ClarityValue → Text) (value : ClarityValue) :
    clarityKind (signature parameters value) = ofString value.constructor := by
  have member := constructor_mem value
  have within := isWordUnit_of_constructor _ member
  unfold signature
  split
  · rw [clarityKind_word within, toLowerCase_constructor _ member]
  · rw [clarityKind_enclosed within, toLowerCase_constructor _ member]

/-! ## Decoding -/

variable {parameters : ClarityValue → Text}

theorem node_cvNode (value : ClarityValue) (payload : Json) :
    Node value.constructor payload (cvNode parameters value payload) :=
  ⟨_, _, rfl, rfl, clarityKind_signature parameters value, rfl⟩

theorem constructor_ne : ∀ constructor ∈ constructors, ofString constructor ≠ ofString "none" ∧
    (constructor = "optional" ∨ ofString constructor ≠ ofString "optional") := by
  decide

/-- A node unwraps to its unwrapped payload. -/
theorem unwrapClarity_cvNode (value : ClarityValue) (payload : Json) :
    unwrapClarity (cvNode parameters value payload) = unwrapClarity payload := by
  have is_node := @node_cvNode parameters value payload
  rcases constructor_ne _ (constructor_mem value) with ⟨not_none, optional | not_optional⟩
  · rw [optional] at is_node
    exact is_node.unwrap_optional
  · exact is_node.unwrap not_none not_optional

theorem cvToJSON_eq_cvNode (value : ClarityValue) :
    ∃ payload, cvToJSON parameters value = cvNode parameters value payload := by
  cases value <;> exact ⟨_, by rw [cvToJSON]⟩

theorem fieldsToJSON_eq (fields : List (FieldName × ClarityValue)) :
    fieldsToJSON parameters fields =
      fields.map fun field => (field.1.text, cvToJSON parameters field.2) := by
  induction fields with
  | nil => rfl
  | cons field fields ih => rw [fieldsToJSON, ih, List.map_cons]

theorem plainFields_eq (fields : List (FieldName × ClarityValue)) :
    plainFields fields = fields.map fun field => (field.1.text, plain field.2) := by
  induction fields with
  | nil => rfl
  | cons field fields ih => rw [plainFields, ih, List.map_cons]

/-- A field holds a node, so one named `type` is not taken for a signature. -/
theorem untyped_fieldsToJSON (fields : List (FieldName × ClarityValue)) (type : Text) :
    property (ofString "type") (fieldsToJSON parameters fields) ≠ some (.string type) := by
  intro typed
  rcases Option.map_eq_some_iff.mp typed with ⟨field, found, is_string⟩
  have member := List.mem_of_find?_eq_some found
  rw [fieldsToJSON_eq] at member
  rcases List.mem_map.mp member with ⟨source, -, rfl⟩
  rcases @cvToJSON_eq_cvNode parameters source.2 with ⟨payload, is_node⟩
  rw [is_node] at is_string
  cases is_string

theorem ownFields_plainFields (fields : List (FieldName × ClarityValue)) :
    ownFields (plainFields fields) = plainFields fields := by
  apply ownFields_of_names
  rw [plainFields_eq]
  intro field member
  rcases List.mem_map.mp member with ⟨source, -, rfl⟩
  exact source.1.arrayIndex_eq_none

mutual

/-- The decoder inverts the encoding up to what the structural decoding leaves out. -/
theorem unwrapClarity_cvToJSON :
    ∀ value, unwrapClarity (cvToJSON parameters value) = plain value
  | .uint _ | .int _ | .buff _ | .stringAscii _ | .stringUtf8 _ | .principal _ => by
      rw [cvToJSON, unwrapClarity_cvNode, unwrapClarity_string, plain]
  | .bool _ => by rw [cvToJSON, unwrapClarity_cvNode, unwrapClarity_bool, plain]
  | .tuple fields => by
      rw [cvToJSON, unwrapClarity_cvNode, unwrapClarity_untyped (untyped_fieldsToJSON fields),
        unwrapFields_fieldsToJSON fields, ownFields_plainFields, plain]
  | .list items => by
      rw [cvToJSON, unwrapClarity_cvNode, unwrapClarity, plain, unwrapItems_itemsToJSON items]
  | .none => by rw [cvToJSON, unwrapClarity_cvNode, unwrapClarity_null, plain]
  | .some value | .ok value | .err value => by
      rw [cvToJSON, unwrapClarity_cvNode, unwrapClarity_cvToJSON value, plain]

theorem unwrapItems_itemsToJSON :
    ∀ items, unwrapItems (itemsToJSON parameters items) = plainItems items
  | [] => rfl
  | item :: items => by
      rw [itemsToJSON, unwrapItems, plainItems, unwrapClarity_cvToJSON item,
        unwrapItems_itemsToJSON items]

theorem unwrapFields_fieldsToJSON :
    ∀ fields, unwrapFields (fieldsToJSON parameters fields) = plainFields fields
  | [] => rfl
  | (name, value) :: fields => by
      rw [fieldsToJSON, unwrapFields, plainFields, unwrapClarity_cvToJSON value,
        unwrapFields_fieldsToJSON fields]

end

theorem unwrapClarityResponse_cvNode (value : ClarityValue) (payload : Json) :
    unwrapClarityResponse (cvNode parameters value payload) =
      { ok := !value.isErr, value := some (unwrapClarity payload) } := by
  have bare := @unwrapClarity_cvNode parameters value payload
  have kind := clarityKind_signature parameters value
  have typed : property (ofString "type")
      ((ofString "type", .string (signature parameters value)) ::
        (ofString "value", payload) :: branch value) =
        some (.string (signature parameters value)) :=
    rfl
  unfold cvNode at bare ⊢
  simp only [unwrapClarityResponse, typed, kind, bare]
  cases value with
  | ok value =>
      have response : ofString (ClarityValue.constructor (.ok value)) = ofString "response" := rfl
      rw [if_pos response]
      exact rfl
  | err value =>
      have response : ofString (ClarityValue.constructor (.err value)) = ofString "response" := rfl
      rw [if_pos response]
      exact rfl
  | _ =>
      rw [if_neg (by simp only [ClarityValue.constructor]; decide)]
      rfl

/-- The decoder of responses says which branch it is, and decodes what is in it. -/
theorem unwrapClarityResponse_cvToJSON (value : ClarityValue) :
    unwrapClarityResponse (cvToJSON parameters value) =
      { ok := !value.isErr, value := some (plain value) } := by
  rcases @cvToJSON_eq_cvNode parameters value with ⟨payload, is_node⟩
  rw [is_node, unwrapClarityResponse_cvNode, ← @unwrapClarity_cvToJSON parameters value, is_node,
    unwrapClarity_cvNode]

/-- Every value decodes to its payload whatever its signature spells, and a response
says which branch it is. -/
theorem decodes_to_payload (parameters : ClarityValue → Text) (value : ClarityValue) :
    unwrapClarity (cvToJSON parameters value) = plain value ∧
      unwrapClarityResponse (cvToJSON parameters value) =
        { ok := !value.isErr, value := some (plain value) } :=
  ⟨unwrapClarity_cvToJSON value, unwrapClarityResponse_cvToJSON value⟩

example : plain (.tuple [(⟨ofString "type", by decide⟩, .buff [2]),
    (⟨ofString "callcode", by decide⟩, .none)]) =
      .object [(ofString "type", .string (ofString "0x02")), (ofString "callcode", .null)] :=
  rfl

end RiskRail.Stacks
