import RiskRail.Javascript.Map
import RiskRail.Javascript.Numeral
import RiskRail.Javascript.Object

/-!
# Reading JSON

`JSON.parse`, over the code units of a text.  What is read of a number is kept as the
text the number is printed with; printing is a parameter.  A text without blanks, with
the fields of every object in some order, is read back as the value it was written from.
-/

namespace RiskRail.Javascript

open Text

/-! ## Strings -/

/-- The unit that a backslash and this letter stand for. -/
def escaped (letter : ℕ) : Option ℕ :=
  if letter = 0x22 ∨ letter = 0x5C ∨ letter = 0x2F then some letter
  else if letter = 0x62 then some 0x08
  else if letter = 0x74 then some 0x09
  else if letter = 0x6E then some 0x0A
  else if letter = 0x66 then some 0x0C
  else if letter = 0x72 then some 0x0D
  else none

/-- A string up to its closing quote, and what follows it. -/
def readString : Text → Option (Text × Text)
  | [] => none
  | unit :: rest =>
      if unit = 0x22 then some ([], rest)
      else if unit < 0x20 then none
      else if unit = 0x5C then
        match rest with
        | [] => none
        | letter :: rest =>
            if letter = 0x75 then
              match rest with
              | a :: b :: c :: d :: rest =>
                  (natural 16 [a, b, c, d]).bind fun unit =>
                    (readString rest).map fun (text, rest) => (unit :: text, rest)
              | _ => none
            else
              (escaped letter).bind fun unit =>
                (readString rest).map fun (text, rest) => (unit :: text, rest)
      else (readString rest).map fun (text, rest) => (unit :: text, rest)

theorem readString_quotation (rest : Text) : readString (0x22 :: rest) = some ([], rest) := by
  rw [readString.eq_def]
  rfl

theorem readString_cons {unit : ℕ} (visible : 0x20 ≤ unit) (quotation : unit ≠ 0x22)
    (backslash : unit ≠ 0x5C) (rest : Text) :
    readString (unit :: rest) = (readString rest).map fun (text, rest) => (unit :: text, rest) := by
  rw [readString.eq_def]
  simp [quotation, backslash, not_lt.mpr visible]

theorem readString_letter {letter unit : ℕ} (stands : escaped letter = some unit) (rest : Text) :
    readString (0x5C :: letter :: rest) =
      (readString rest).map fun (text, rest) => (unit :: text, rest) := by
  have not_hex : letter ≠ 0x75 := by
    rintro rfl
    cases stands
  rw [readString.eq_def]
  simp [not_hex, stands]

theorem digitValue_hexDigit : ∀ n < 16, digitValue (hexDigit n) = some n := by
  decide

theorem natural_hexDigit {unit : ℕ} (small : unit < 0x10000) :
    natural 16 [hexDigit (unit / 0x1000 % 16), hexDigit (unit / 0x100 % 16),
      hexDigit (unit / 0x10 % 16), hexDigit (unit % 16)] = some unit := by
  have pushed : ∀ value n, n < 16 → pushDigit 16 value (hexDigit n) = some (16 * value + n) := by
    intro value n digit
    rw [pushDigit, digitValue_hexDigit n digit, Option.bind_some, if_pos digit]
  have below : ∀ n, n % 16 < 16 := fun n => Nat.mod_lt n (by decide)
  simp only [natural, List.foldlM_cons, List.foldlM_nil, pushed _ _ (below _),
    Option.bind_eq_bind, Option.bind_some, Option.pure_def, Option.some.injEq]
  omega

theorem readString_hex {unit : ℕ} (small : unit < 0x10000) (rest : Text) :
    readString (0x5C :: 0x75 :: hexDigit (unit / 0x1000 % 16) :: hexDigit (unit / 0x100 % 16) ::
        hexDigit (unit / 0x10 % 16) :: hexDigit (unit % 16) :: rest) =
      (readString rest).map fun (text, rest) => (unit :: text, rest) := by
  rw [readString.eq_def]
  simp [natural_hexDigit small]

theorem readString_escape (unit : ℕ) (rest : Text) :
    readString (escape unit ++ rest) =
      (readString rest).map fun (text, rest) => (unit :: text, rest) := by
  unfold escape
  split
  next backspace =>
    subst backspace
    exact readString_letter rfl rest
  split
  next tab =>
    subst tab
    exact readString_letter rfl rest
  split
  next lineFeed =>
    subst lineFeed
    exact readString_letter rfl rest
  split
  next formFeed =>
    subst formFeed
    exact readString_letter rfl rest
  split
  next carriageReturn =>
    subst carriageReturn
    exact readString_letter rfl rest
  split
  next quotation =>
    subst quotation
    exact readString_letter rfl rest
  split
  next backslash =>
    subst backslash
    exact readString_letter rfl rest
  split
  next hex =>
    have small : unit < 0x10000 := by
      simp only [isHighSurrogate, isLowSurrogate, Bool.or_eq_true, Bool.and_eq_true,
        decide_eq_true_eq] at hex
      omega
    exact readString_hex small rest
  next visible =>
    apply readString_cons _ (by assumption) (by assumption)
    simp only [Bool.or_eq_true, decide_eq_true_eq, not_or, not_lt] at visible
    exact visible.1.1

/-- Reading back what was quoted. -/
theorem readString_quoteUnits (text rest : Text) :
    readString (quoteUnits text ++ 0x22 :: rest) = some (text, rest) := by
  fun_induction quoteUnits text with
  | case1 => exact readString_quotation rest
  | case2 unit =>
      rw [readString_escape, readString_quotation]
      rfl
  | case3 high low tail pair ih =>
      simp only [isHighSurrogate, isLowSurrogate, Bool.and_eq_true, decide_eq_true_eq] at pair
      rw [List.cons_append, List.cons_append, readString_cons (by omega) (by omega) (by omega),
        readString_cons (by omega) (by omega) (by omega), ih]
      rfl
  | case4 high low tail pair ih =>
      rw [List.append_assoc, readString_escape, ih]
      rfl

/-! ## Numbers -/

/-- How far a number literal is read. -/
inductive Literal where
  | start
  | sign
  | zero
  | whole
  | point
  | fraction
  | exponent
  | exponentSign
  | exponentDigits
deriving DecidableEq

/-- A digit between 0 and 9. -/
def isDigit (unit : ℕ) : Bool :=
  0x30 ≤ unit && unit ≤ 0x39

/-- The letter e, in either case. -/
def isExponentLetter (unit : ℕ) : Bool :=
  unit == 0x65 || unit == 0x45

/-- One more unit of a number literal. -/
def Literal.next (literal : Literal) (unit : ℕ) : Option Literal :=
  match literal with
  | .start =>
      if unit = 0x2D then some .sign
      else if unit = 0x30 then some .zero
      else if isDigit unit then some .whole
      else none
  | .sign =>
      if unit = 0x30 then some .zero
      else if isDigit unit then some .whole
      else none
  | .zero =>
      if unit = 0x2E then some .point
      else if isExponentLetter unit then some .exponent
      else none
  | .whole =>
      if isDigit unit then some .whole
      else if unit = 0x2E then some .point
      else if isExponentLetter unit then some .exponent
      else none
  | .point => if isDigit unit then some .fraction else none
  | .fraction =>
      if isDigit unit then some .fraction
      else if isExponentLetter unit then some .exponent
      else none
  | .exponent =>
      if isDigit unit then some .exponentDigits
      else if unit = 0x2B ∨ unit = 0x2D then some .exponentSign
      else none
  | .exponentSign | .exponentDigits => if isDigit unit then some .exponentDigits else none

/-- A number may end here. -/
def Literal.complete : Literal → Bool
  | .zero | .whole | .fraction | .exponentDigits => true
  | _ => false

/-- The token is a number. -/
def isNumber (token : Text) : Bool :=
  (token.foldlM Literal.next .start).any Literal.complete

/-- The units that number literals are made of. -/
def isNumberUnit (unit : ℕ) : Bool :=
  isDigit unit || isExponentLetter unit || unit == 0x2B || unit == 0x2D || unit == 0x2E

theorem Literal.isNumberUnit_of_next {literal target : Literal} {unit : ℕ}
    (read : literal.next unit = some target) : isNumberUnit unit = true := by
  unfold isNumberUnit
  by_contra other
  simp only [Bool.or_eq_true, beq_iff_eq, not_or, Bool.not_eq_true] at other
  rcases other with ⟨⟨⟨⟨digit, letter⟩, plus⟩, minus⟩, point⟩
  have zero : unit ≠ 0x30 := by
    rintro rfl
    cases digit
  cases literal <;> simp [Literal.next, digit, letter, plus, minus, point, zero] at read

theorem isNumberUnit_of_mem {token : Text} {literal target : Literal}
    (read : token.foldlM Literal.next literal = some target) :
    ∀ unit ∈ token, isNumberUnit unit = true := by
  induction token generalizing literal with
  | nil => simp
  | cons first rest ih =>
      rw [List.foldlM_cons] at read
      rcases Option.bind_eq_some_iff.mp read with ⟨middle, step, read⟩
      intro unit member
      rcases List.mem_cons.mp member with rfl | later
      · exact Literal.isNumberUnit_of_next step
      · exact ih read unit later

theorem isNumberUnit_of_isNumber {token : Text} (number : isNumber token = true) :
    ∀ unit ∈ token, isNumberUnit unit = true := by
  rcases (Option.any_eq_true _ _).mp number with ⟨target, read, -⟩
  exact isNumberUnit_of_mem read

theorem ne_nil_of_isNumber {token : Text} (number : isNumber token = true) : token ≠ [] := by
  rintro rfl
  cases number

/-! ## Values -/

/-- Blank space between the parts of a value. -/
def isBlank (unit : ℕ) : Bool :=
  unit == 0x20 || unit == 0x09 || unit == 0x0A || unit == 0x0D

/-- The text after its blanks. -/
def skipBlanks (text : Text) : Text :=
  text.dropWhile isBlank

/-- What follows this mark, if it is next. -/
def expect (mark : ℕ) (text : Text) : Option Text :=
  match skipBlanks text with
  | [] => none
  | unit :: rest => if unit = mark then some rest else none

/-- What follows this word, if it is next. -/
def readWord (word : Text) (value : Json) (text : Text) : Option (Json × Text) :=
  if word.isPrefixOf text then some (value, text.drop word.length) else none

section

-- The text that the number a literal stands for is printed with.
variable (printed : Text → Text)

/-- The number in front of a text. -/
def readNumber (text : Text) : Option (Json × Text) :=
  let token := text.takeWhile isNumberUnit
  if isNumber token then some (.number (printed token), text.drop token.length) else none

/-- The word or the number in front of a text. -/
def readScalar (text : Text) : Option (Json × Text) :=
  (((readWord (ofString "null") .null text).or
    (readWord (ofString "true") (.bool true) text)).or
      (readWord (ofString "false") (.bool false) text)).or
        (readNumber printed text)

mutual

/-- A value, and what follows it.  Every recursive call has consumed a unit, so the
length of the text bounds the depth. -/
def readValue : ℕ → Text → Option (Json × Text)
  | 0, _ => none
  | fuel + 1, text =>
      match skipBlanks text with
      | [] => none
      | unit :: rest =>
          if unit = 0x22 then (readString rest).map (Prod.map .string id)
          else if unit = 0x5B then
            match expect 0x5D rest with
            | some rest => some (.array [], rest)
            | none => (readItems fuel rest).map (Prod.map .array id)
          else if unit = 0x7B then
            match expect 0x7D rest with
            | some rest => some (.object [], rest)
            | none =>
                -- A key that comes again replaces the value it had.
                (readFields fuel rest).map
                  (Prod.map (fun fields => .object (OrderedMap.ofWrites fields).entries) id)
          else readScalar printed (unit :: rest)

/-- The items of an array up to its closing bracket. -/
def readItems : ℕ → Text → Option (List Json × Text)
  | 0, _ => none
  | fuel + 1, text =>
      (readValue fuel text).bind fun (item, rest) =>
        match expect 0x2C rest with
        | some rest => (readItems fuel rest).map (Prod.map (List.cons item) id)
        | none => (expect 0x5D rest).map fun rest => ([item], rest)

/-- The fields of an object up to its closing brace. -/
def readFields : ℕ → Text → Option (List (Text × Json) × Text)
  | 0, _ => none
  | fuel + 1, text =>
      (expect 0x22 text).bind fun rest =>
        (readString rest).bind fun (key, rest) =>
          (expect 0x3A rest).bind fun rest =>
            (readValue fuel rest).bind fun (item, rest) =>
              match expect 0x2C rest with
              | some rest => (readFields fuel rest).map (Prod.map (List.cons (key, item)) id)
              | none => (expect 0x7D rest).map fun rest => ([(key, item)], rest)

end

/-- `JSON.parse`; `none` where it throws. -/
def parse (text : Text) : Option Json :=
  match readValue printed (text.length + 1) text with
  | some (value, rest) => if skipBlanks rest = [] then some value else none
  | none => none

end

/-! ## Texts without blanks -/

mutual

/-- The text of a value without blanks, with the fields in the order they were created. -/
def compact : Json → Text
  | .null => ofString "null"
  | .bool value => ofString (toString value)
  | .number text => text
  | .string value => quote value
  | .array items => inBrackets (commaJoin (compactItems items))
  | .object fields => inBraces (commaJoin ((compactFields fields).map member))

/-- The compact texts of the items. -/
def compactItems : List Json → List Text
  | [] => []
  | item :: items => compact item :: compactItems items

/-- The compact texts of the values, with their keys. -/
def compactFields : List (Text × Json) → List (Text × Text)
  | [] => []
  | (key, item) :: fields => (key, compact item) :: compactFields fields

end

theorem compactItems_eq (items : List Json) : compactItems items = items.map compact := by
  induction items with
  | nil => rfl
  | cons item items ih => rw [compactItems, ih, List.map_cons]

theorem compactFields_eq (fields : List (Text × Json)) :
    compactFields fields = fields.map (Prod.map id compact) := by
  induction fields with
  | nil => rfl
  | cons field fields ih => rw [compactFields, ih, List.map_cons, Prod.map, id]

/-- The text of a field. -/
def compactMember (field : Text × Json) : Text :=
  member (field.1, compact field.2)

theorem compact_array (items : List Json) :
    compact (.array items) = inBrackets (commaJoin (items.map compact)) := by
  rw [compact, compactItems_eq]

theorem compact_object (fields : List (Text × Json)) :
    compact (.object fields) = inBraces (commaJoin (fields.map compactMember)) := by
  rw [compact, compactFields_eq, List.map_map]
  rfl

mutual

/-- Every object has each key once, and every number is printed as it is read. -/
def Json.Readable (printed : Text → Text) : Json → Prop
  | .number text => isNumber text = true ∧ printed text = text
  | .array items => ReadableItems printed items
  | .object fields => (fields.map Prod.fst).Nodup ∧ ReadableFields printed fields
  | .null | .bool _ | .string _ => True

/-- Each of the items is readable. -/
def Json.ReadableItems (printed : Text → Text) : List Json → Prop
  | [] => True
  | item :: items => item.Readable printed ∧ ReadableItems printed items

/-- Each of the values is readable. -/
def Json.ReadableFields (printed : Text → Text) : List (Text × Json) → Prop
  | [] => True
  | (_, item) :: fields => item.Readable printed ∧ ReadableFields printed fields

end

variable {printed : Text → Text}

theorem Json.readableItems_iff {items : List Json} :
    ReadableItems printed items ↔ ∀ item ∈ items, item.Readable printed := by
  induction items with
  | nil => simp [ReadableItems]
  | cons item items ih => simp [ReadableItems, ih]

theorem Json.readableFields_iff {fields : List (Text × Json)} :
    ReadableFields printed fields ↔ ∀ field ∈ fields, field.2.Readable printed := by
  induction fields with
  | nil => simp [ReadableFields]
  | cons field fields ih => simp [ReadableFields, ih]

/-! ## Reading back -/

/-- No number goes on here. -/
def Ends (rest : Text) : Prop :=
  ∀ unit ∈ rest.head?, isNumberUnit unit = false

theorem ends_cons {unit : ℕ} (other : isNumberUnit unit = false) (rest : Text) :
    Ends (unit :: rest) := by
  intro first member
  cases member
  exact other

theorem skipBlanks_cons {unit : ℕ} (visible : isBlank unit = false) (rest : Text) :
    skipBlanks (unit :: rest) = unit :: rest := by
  rw [skipBlanks, List.dropWhile_cons_of_neg (by simp [visible])]

theorem expect_self {mark : ℕ} (visible : isBlank mark = false) (rest : Text) :
    expect mark (mark :: rest) = some rest := by
  rw [expect, skipBlanks_cons visible]
  exact if_pos rfl

theorem expect_other {mark unit : ℕ} (visible : isBlank unit = false) (other : unit ≠ mark)
    (rest : Text) : expect mark (unit :: rest) = none := by
  rw [expect, skipBlanks_cons visible]
  exact if_neg other

theorem takeWhile_append_of_ends {token rest : Text} (number : isNumber token = true)
    (ends : Ends rest) : (token ++ rest).takeWhile isNumberUnit = token := by
  rw [List.takeWhile_append_of_pos (isNumberUnit_of_isNumber number)]
  cases rest with
  | nil => simp
  | cons unit rest => rw [List.takeWhile_cons_of_neg (by simp [ends unit rfl]), List.append_nil]

theorem readWord_append (word rest : Text) (value : Json) :
    readWord word value (word ++ rest) = some (value, rest) := by
  rw [readWord, if_pos (by simp), List.drop_left]

/-- A number starts none of the words. -/
theorem readWord_of_isNumberUnit {unit first : ℕ} (number : isNumberUnit unit = true)
    (letter : isNumberUnit first = false) (word rest : Text) (value : Json) :
    readWord (first :: word) value (unit :: rest) = none := by
  rw [readWord, if_neg]
  simp only [List.isPrefixOf, Bool.and_eq_true, beq_iff_eq, not_and]
  rintro rfl
  rw [letter] at number
  cases number

/-- How every value's text starts. -/
theorem compact_eq_cons {value : Json} (readable : value.Readable printed) :
    ∃ unit rest, compact value = unit :: rest ∧ isBlank unit = false ∧ unit ≠ 0x5D := by
  cases value with
  | null => exact ⟨_, _, rfl, rfl, by decide⟩
  | bool value => cases value <;> exact ⟨_, _, rfl, rfl, by decide⟩
  | string | array | object => exact ⟨_, _, rfl, rfl, by decide⟩
  | number text =>
      rcases List.exists_cons_of_ne_nil (ne_nil_of_isNumber readable.1) with ⟨unit, rest, rfl⟩
      have number := isNumberUnit_of_isNumber readable.1 unit List.mem_cons_self
      refine ⟨unit, rest, rfl, ?_, ?_⟩
      · by_contra blank
        simp only [isBlank, Bool.not_eq_false, Bool.or_eq_true, beq_iff_eq] at blank
        rcases blank with ((rfl | rfl) | rfl) | rfl <;> cases number
      · rintro rfl
        cases number

/-- The text of the value is read back, whatever follows it. -/
def ReadsBack (printed : Text → Text) (value : Json) : Prop :=
  ∀ fuel rest, (compact value).length < fuel → Ends rest →
    readValue printed fuel (compact value ++ rest) = some (value, rest)

theorem readsBack_scalar {value : Json} {unit : ℕ} {text : Text}
    (spelled : compact value = unit :: text) (visible : isBlank unit = false)
    (quotation : unit ≠ 0x22) (bracket : unit ≠ 0x5B) (brace : unit ≠ 0x7B)
    (scalar : ∀ rest, Ends rest →
      readScalar printed (compact value ++ rest) = some (value, rest)) :
    ReadsBack printed value := by
  intro fuel rest enough ends
  cases fuel with
  | zero => cases enough
  | succ fuel =>
      have read := scalar rest ends
      rw [spelled, List.cons_append] at read ⊢
      rw [readValue, skipBlanks_cons visible]
      simp only [if_neg quotation, if_neg bracket, if_neg brace, read]

theorem readsBack_number {text : Text} (number : isNumber text = true)
    (exact_text : printed text = text) : ReadsBack printed (.number text) := by
  rcases List.exists_cons_of_ne_nil (ne_nil_of_isNumber number) with ⟨unit, units, rfl⟩
  have part := isNumberUnit_of_isNumber number unit List.mem_cons_self
  have apart : ∀ other, isNumberUnit other = false → unit ≠ other := by
    rintro _ letter rfl
    rw [letter] at part
    cases part
  apply readsBack_scalar rfl _ (apart _ rfl) (apart _ rfl) (apart _ rfl)
  · intro rest ends
    have token := takeWhile_append_of_ends number ends
    rw [compact, List.cons_append] at *
    have words : ∀ first word value, isNumberUnit first = false →
        readWord (first :: word) value (unit :: (units ++ rest)) = none :=
      fun first word value letter => readWord_of_isNumberUnit part letter word _ value
    have no_null : readWord (ofString "null") .null (unit :: (units ++ rest)) = none :=
      words 0x6E _ _ rfl
    have no_true : readWord (ofString "true") (.bool true) (unit :: (units ++ rest)) = none :=
      words 0x74 _ _ rfl
    have no_false : readWord (ofString "false") (.bool false) (unit :: (units ++ rest)) = none :=
      words 0x66 _ _ rfl
    rw [readScalar, no_null, no_true, no_false, Option.none_or, Option.none_or, Option.none_or,
      readNumber, token, if_pos number, exact_text, ← List.cons_append, List.drop_left]
  · rcases compact_eq_cons
        (show (Json.number (unit :: units)).Readable printed from ⟨number, exact_text⟩) with
      ⟨_, _, spelled, visible, -⟩
    cases spelled
    exact visible

theorem readsBack_null : ReadsBack printed .null := by
  refine readsBack_scalar rfl rfl (by decide) (by decide) (by decide) fun rest _ => ?_
  have read : readWord (ofString "null") .null (compact .null ++ rest) = some (.null, rest) :=
    readWord_append _ _ _
  rw [readScalar, read, Option.some_or, Option.some_or, Option.some_or]

theorem readsBack_bool (value : Bool) : ReadsBack printed (.bool value) := by
  cases value with
  | true =>
      refine readsBack_scalar rfl rfl (by decide) (by decide) (by decide) fun rest _ => ?_
      have other : readWord (ofString "null") .null (compact (.bool true) ++ rest) = none := rfl
      have read : readWord (ofString "true") (.bool true) (compact (.bool true) ++ rest) =
          some (.bool true, rest) := readWord_append _ _ _
      rw [readScalar, other, read, Option.none_or, Option.some_or, Option.some_or]
  | false =>
      refine readsBack_scalar rfl rfl (by decide) (by decide) (by decide) fun rest _ => ?_
      have no_null : readWord (ofString "null") .null (compact (.bool false) ++ rest) = none := rfl
      have no_true : readWord (ofString "true") (.bool true) (compact (.bool false) ++ rest) =
          none := rfl
      have read : readWord (ofString "false") (.bool false) (compact (.bool false) ++ rest) =
          some (.bool false, rest) := readWord_append _ _ _
      rw [readScalar, no_null, no_true, read, Option.none_or, Option.none_or, Option.some_or]

theorem readsBack_string (value : Text) : ReadsBack printed (.string value) := by
  intro fuel rest enough _
  cases fuel with
  | zero => cases enough
  | succ fuel =>
      rw [compact, quote, List.cons_append, List.cons_append, List.append_assoc,
        List.singleton_append, readValue, skipBlanks_cons rfl]
      simp only [if_true, readString_quoteUnits, Option.map_some, Prod.map, id]

theorem readItems_last {fuel : ℕ} {text rest : Text} {item : Json}
    (read : readValue printed fuel text = some (item, 0x5D :: rest)) :
    readItems printed (fuel + 1) text = some ([item], rest) := by
  have ended : expect 0x2C (0x5D :: rest) = none := expect_other rfl (by decide) rest
  have closed : expect 0x5D (0x5D :: rest) = some rest := expect_self rfl rest
  rw [readItems, read, Option.bind_some]
  simp only [ended, closed, Option.map_some]

theorem readItems_next {fuel : ℕ} {text rest tail : Text} {item : Json} {items : List Json}
    (read : readValue printed fuel text = some (item, 0x2C :: rest))
    (later : readItems printed fuel rest = some (items, tail)) :
    readItems printed (fuel + 1) text = some (item :: items, tail) := by
  have more : expect 0x2C (0x2C :: rest) = some rest := expect_self rfl rest
  rw [readItems, read, Option.bind_some]
  simp only [more, later, Option.map_some, Prod.map, id]

theorem readItems_compact {items : List Json} (nonempty : items ≠ [])
    (each : ∀ item ∈ items, ReadsBack printed item) {fuel : ℕ} (rest : Text)
    (enough : (commaJoin (items.map compact)).length + 1 < fuel) :
    readItems printed fuel (commaJoin (items.map compact) ++ 0x5D :: rest) =
      some (items, rest) := by
  induction items generalizing fuel with
  | nil => exact absurd rfl nonempty
  | cons item items ih =>
      have here := each item List.mem_cons_self
      cases fuel with
      | zero => cases enough
      | succ fuel =>
          cases items with
          | nil =>
              have fits := Nat.lt_of_succ_lt_succ enough
              exact readItems_last (here fuel _ fits (ends_cons rfl rest))
          | cons next others =>
              simp only [List.map_cons, commaJoin, List.length_append, List.length_cons] at enough
              have readBack := fun item member => each item (List.mem_cons_of_mem _ member)
              have later := ih (by simp) readBack
                (show _ < fuel by simp only [List.map_cons]; omega)
              rw [List.map_cons, List.map_cons, commaJoin, List.append_assoc, List.cons_append]
              exact readItems_next (here fuel _ (by omega) (ends_cons rfl _)) later

/-- A field's text up to the text of its value. -/
theorem readFields_value {fuel : ℕ} (field : Text × Json) (rest : Text) :
    readFields printed (fuel + 1) (compactMember field ++ rest) =
      (readValue printed fuel (compact field.2 ++ rest)).bind fun (item, rest) =>
        match expect 0x2C rest with
        | some rest => (readFields printed fuel rest).map (Prod.map (List.cons (field.1, item)) id)
        | none => (expect 0x7D rest).map fun rest => ([(field.1, item)], rest) := by
  have opened : expect 0x22 (compactMember field ++ rest) =
      some (quoteUnits field.1 ++ 0x22 :: 0x3A :: (compact field.2 ++ rest)) := by
    rw [compactMember, member, quote]
    simp only [List.cons_append, List.append_assoc, List.nil_append]
    exact expect_self rfl _
  have colon : expect 0x3A (0x3A :: (compact field.2 ++ rest)) = some (compact field.2 ++ rest) :=
    expect_self rfl _
  rw [readFields, opened, Option.bind_some, readString_quoteUnits, Option.bind_some]
  simp only [colon, Option.bind_some]

theorem readFields_compact {fields : List (Text × Json)} (nonempty : fields ≠ [])
    (each : ∀ field ∈ fields, ReadsBack printed field.2) {fuel : ℕ} (rest : Text)
    (enough : (commaJoin (fields.map compactMember)).length + 1 < fuel) :
    readFields printed fuel (commaJoin (fields.map compactMember) ++ 0x7D :: rest) =
      some (fields, rest) := by
  have shorter : ∀ field, (compact field.2).length < (compactMember field).length := by
    intro field
    simp only [compactMember, member, List.length_append, List.length_cons]
    omega
  induction fields generalizing fuel with
  | nil => exact absurd rfl nonempty
  | cons field fields ih =>
      have here := each field List.mem_cons_self
      have smaller := shorter field
      cases fuel with
      | zero => cases enough
      | succ fuel =>
          cases fields with
          | nil =>
              have ended : expect 0x2C (0x7D :: rest) = none := expect_other rfl (by decide) rest
              have closed : expect 0x7D (0x7D :: rest) = some rest := expect_self rfl rest
              simp only [List.map_cons, List.map_nil, commaJoin] at enough
              rw [List.map_cons, List.map_nil, commaJoin, readFields_value,
                here fuel _ (by omega) (ends_cons rfl rest), Option.bind_some]
              simp only [ended, closed, Option.map_some]
          | cons next others =>
              simp only [List.map_cons, commaJoin, List.length_append, List.length_cons] at enough
              have later := ih (by simp)
                (fun field member => each field (List.mem_cons_of_mem _ member))
                (show _ < fuel by simp only [List.map_cons]; omega)
              have more : ∀ rest, expect 0x2C (0x2C :: rest) = some rest := expect_self rfl
              rw [List.map_cons, List.map_cons, commaJoin, List.append_assoc, List.cons_append,
                readFields_value, here fuel _ (by omega) (ends_cons rfl _), Option.bind_some]
              simp only [more]
              rw [← List.map_cons, later, Option.map_some, Prod.map, id]

theorem readValue_bracket (fuel : ℕ) (text : Text) :
    readValue printed (fuel + 1) (0x5B :: text) =
      match expect 0x5D text with
      | some rest => some (.array [], rest)
      | none => (readItems printed fuel text).map (Prod.map .array id) := by
  rw [readValue, skipBlanks_cons rfl]
  rfl

theorem readValue_brace (fuel : ℕ) (text : Text) :
    readValue printed (fuel + 1) (0x7B :: text) =
      match expect 0x7D text with
      | some rest => some (.object [], rest)
      | none => (readFields printed fuel text).map
          (Prod.map (fun fields => .object (OrderedMap.ofWrites fields).entries) id) := by
  rw [readValue, skipBlanks_cons rfl]
  rfl

/-- A join starts as its first text does. -/
theorem commaJoin_cons_eq_append (text : Text) (texts : List Text) :
    ∃ rest, commaJoin (text :: texts) = text ++ rest := by
  cases texts with
  | nil => exact ⟨[], (List.append_nil text).symm⟩
  | cons next texts => exact ⟨_, rfl⟩

theorem readsBack_array {items : List Json} (readable : ∀ item ∈ items, item.Readable printed)
    (each : ∀ item ∈ items, ReadsBack printed item) : ReadsBack printed (.array items) := by
  intro fuel rest enough _
  cases fuel with
  | zero => cases enough
  | succ fuel =>
      rw [compact_array, inBrackets] at enough ⊢
      simp only [List.cons_append, List.length_cons, List.length_append, List.length_nil,
        List.append_assoc, List.nil_append] at enough ⊢
      rw [readValue_bracket]
      cases items with
      | nil =>
          have closed : expect 0x5D (0x5D :: rest) = some rest := expect_self rfl rest
          simp only [List.map_nil, commaJoin, List.nil_append, closed]
      | cons item items =>
          rcases compact_eq_cons (readable item List.mem_cons_self) with
            ⟨unit, units, spelled, visible, open_bracket⟩
          rcases commaJoin_cons_eq_append (compact item) (items.map compact) with ⟨more, joined⟩
          have not_closed : expect 0x5D (commaJoin ((item :: items).map compact) ++ 0x5D :: rest) =
              none := by
            rw [List.map_cons, joined, spelled, List.cons_append, List.cons_append]
            exact expect_other visible open_bracket _
          have read := readItems_compact (by simp) each rest
            (show _ < fuel from Nat.lt_of_succ_lt_succ enough)
          simp only [not_closed, read, Option.map_some, Prod.map, id]

theorem readsBack_object {fields : List (Text × Json)}
    (distinct : (fields.map Prod.fst).Nodup)
    (each : ∀ field ∈ fields, ReadsBack printed field.2) : ReadsBack printed (.object fields) := by
  intro fuel rest enough _
  cases fuel with
  | zero => cases enough
  | succ fuel =>
      rw [compact_object, inBraces] at enough ⊢
      simp only [List.cons_append, List.length_cons, List.length_append, List.length_nil,
        List.append_assoc, List.nil_append] at enough ⊢
      rw [readValue_brace]
      cases fields with
      | nil =>
          have closed : expect 0x7D (0x7D :: rest) = some rest := expect_self rfl rest
          simp only [List.map_nil, commaJoin, List.nil_append, closed]
      | cons field fields =>
          rcases commaJoin_cons_eq_append (compactMember field) (fields.map compactMember) with
            ⟨more, joined⟩
          have not_closed :
              expect 0x7D (commaJoin ((field :: fields).map compactMember) ++ 0x7D :: rest) =
                none := by
            rw [List.map_cons, joined, compactMember, member, quote]
            exact expect_other rfl (by decide) _
          have read := readFields_compact (by simp) each rest
            (show _ < fuel from Nat.lt_of_succ_lt_succ enough)
          have kept := OrderedMap.entries_ofWrites_of_nodup distinct
          simp only [not_closed, read, Option.map_some, Prod.map, id, kept]

/-- The text of a value tells where it ends. -/
theorem readsBack_of_readable {value : Json} (readable : value.Readable printed) :
    ReadsBack printed value := by
  induction value using Json.induction with
  | null => exact readsBack_null
  | bool value => exact readsBack_bool value
  | number text => exact readsBack_number readable.1 readable.2
  | string value => exact readsBack_string value
  | array items ih =>
      have every := Json.readableItems_iff.mp readable
      exact readsBack_array every fun item member => ih item member (every item member)
  | object fields ih =>
      have every := Json.readableFields_iff.mp readable.2
      exact readsBack_object readable.1 fun field member => ih field member (every field member)

/-- Reading back what was written. -/
theorem parse_compact {value : Json} (readable : value.Readable printed) :
    parse printed (compact value) = some value := by
  have ends : Ends [] := by
    intro unit member
    cases member
  have read := readsBack_of_readable readable _ [] (Nat.lt_succ_self _) ends
  rw [List.append_nil] at read
  rw [parse, read]
  exact if_pos rfl

/-- A value's text determines it. -/
theorem compact_injective {first second : Json} (firstReadable : first.Readable printed)
    (secondReadable : second.Readable printed) (same : compact first = compact second) :
    first = second := by
  have read := parse_compact firstReadable
  rw [same, parse_compact secondReadable] at read
  exact (Option.some.inj read).symm

end RiskRail.Javascript
