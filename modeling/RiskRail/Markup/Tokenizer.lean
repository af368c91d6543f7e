import RiskRail.Javascript.Text

/-!
# Tokens of HTML

The part of the tokenizer of HTML that documents without comments, scripts and unquoted attributes
need, as a machine that reads one code unit at a time; nothing else is accepted.  Before it, the
line ends of the document are made line feeds.  Tokens are written with their text escaped, and
what is written is read as those tokens, but for a null in the value of an attribute.
-/

namespace RiskRail.Markup

open RiskRail.Javascript

/-- A start tag or an end tag. -/
structure Tag where
  closing : Bool
  name : Text
  attributes : List (Text × Text)
  deriving DecidableEq

/-- What the tokenizer gives to the tree. -/
inductive Token where
  | character (unit : ℕ)
  | tag (tag : Tag)
  | declaration (text : Text)
  deriving DecidableEq

/-- Where the tokenizer is, with what it has read of the token. -/
inductive Mode where
  | data
  | reference (name : Text)
  | tagOpen
  | declaration (text : Text)
  | tagName (closing : Bool) (name : Text)
  | beforeAttribute (tag : Tag)
  | attributeName (tag : Tag) (name : Text)
  | beforeValue (tag : Tag) (name : Text)
  | value (tag : Tag) (name value : Text)
  | valueReference (tag : Tag) (name value called : Text)
  | afterValue (tag : Tag)
  deriving DecidableEq

/-- One more attribute. -/
def Tag.add (tag : Tag) (name value : Text) : Tag :=
  { tag with attributes := tag.attributes ++ [(name, value)] }

/-- The references that stand for the characters of the markup. -/
def reference (name : Text) : Option ℕ :=
  if name = Text.ofString "amp" then some 0x26
  else if name = Text.ofString "lt" then some 0x3C
  else if name = Text.ofString "gt" then some 0x3E
  else if name = Text.ofString "quot" then some 0x22
  else none

/-- A small letter or a digit. -/
def isNameUnit (unit : ℕ) : Bool :=
  (0x61 ≤ unit && unit ≤ 0x7A) || (0x30 ≤ unit && unit ≤ 0x39)

/-- A null in the value of an attribute is read as the replacement character. -/
def valueUnit (unit : ℕ) : ℕ :=
  if unit = 0 then 0xFFFD else unit

/-- One code unit; `none` is markup that is not read here. -/
def Mode.step : Mode → ℕ → Option (Mode × List Token)
  | .data, unit =>
      if unit = 0x3C then some (.tagOpen, [])
      else if unit = 0x26 then some (.reference [], [])
      else some (.data, [.character unit])
  | .reference name, unit =>
      if unit = 0x3B then (Markup.reference name).map fun meant => (.data, [.character meant])
      else if isNameUnit unit then some (.reference (name ++ [unit]), [])
      else none
  | .tagOpen, unit =>
      if unit = 0x21 then some (.declaration [], [])
      else if unit = 0x2F then some (.tagName true [], [])
      else if isNameUnit unit then some (.tagName false [unit], [])
      else none
  | .declaration text, unit =>
      if unit = 0x3E then some (.data, [.declaration text])
      else if unit = 0 then none
      else some (.declaration (text ++ [unit]), [])
  | .tagName closing name, unit =>
      if unit = 0x3E then some (.data, [.tag ⟨closing, name, []⟩])
      else if unit = 0x20 then some (.beforeAttribute ⟨closing, name, []⟩, [])
      else if isNameUnit unit then some (.tagName closing (name ++ [unit]), [])
      else none
  | .beforeAttribute tag, unit =>
      if isNameUnit unit then some (.attributeName tag [unit], []) else none
  | .attributeName tag name, unit =>
      if unit = 0x3D then some (.beforeValue tag name, [])
      else if isNameUnit unit then some (.attributeName tag (name ++ [unit]), [])
      else none
  | .beforeValue tag name, unit =>
      if unit = 0x22 then some (.value tag name [], []) else none
  | .value tag name text, unit =>
      if unit = 0x22 then some (.afterValue (tag.add name text), [])
      else if unit = 0x26 then some (.valueReference tag name text [], [])
      else some (.value tag name (text ++ [valueUnit unit]), [])
  | .valueReference tag name text called, unit =>
      if unit = 0x3B then
        (Markup.reference called).map fun meant => (.value tag name (text ++ [meant]), [])
      else if isNameUnit unit then some (.valueReference tag name text (called ++ [unit]), [])
      else none
  | .afterValue tag, unit =>
      if unit = 0x3E then some (.data, [.tag tag])
      else if unit = 0x20 then some (.beforeAttribute tag, [])
      else none

/-- The tokens that are complete after some text, and where the tokenizer then is. -/
def Mode.read : Mode → Text → Option (Mode × List Token)
  | mode, [] => some (mode, [])
  | mode, unit :: rest =>
      (mode.step unit).bind fun (next, tokens) =>
        (next.read rest).map fun (last, later) => (last, tokens ++ later)

/-- The line ends as line feeds; `returned` if a carriage return has just been read. -/
def newlinesAfter : (returned : Bool) → Text → Text
  | _, [] => []
  | returned, unit :: rest =>
      if unit = 0x0D then 0x0A :: newlinesAfter true rest
      else if unit = 0x0A ∧ returned = true then newlinesAfter false rest
      else unit :: newlinesAfter false rest

/-- A carriage return, alone or in front of a line feed, is read as one line feed. -/
def newlines (text : Text) : Text :=
  newlinesAfter false text

/-- The value of an attribute, as it is read. -/
def readValue (text : Text) : Text :=
  (newlines text).map valueUnit

/-- A document ends between tags. -/
def tokenize (text : Text) : Option (List Token) :=
  (Mode.data.read (newlines text)).bind fun (mode, tokens) =>
    if mode = .data then some tokens else none

theorem Mode.read_append {mode middle last : Mode} {front back : Text}
    {first second : List Token} (start : mode.read front = some (middle, first))
    (rest : middle.read back = some (last, second)) :
    mode.read (front ++ back) = some (last, first ++ second) := by
  induction front generalizing mode first with
  | nil =>
      cases start
      exact rest
  | cons unit front ih =>
      obtain ⟨⟨next, tokens⟩, step, start⟩ := Option.bind_eq_some_iff.mp start
      obtain ⟨⟨reached, later⟩, read, same⟩ := Option.map_eq_some_iff.mp start
      cases same
      rw [List.cons_append, Mode.read, step, Option.bind_some]
      dsimp only
      rw [ih read, Option.map_some, List.append_assoc]

/-! ## Escaped text -/

/-- A character of the markup as a reference, and every other one as it is. -/
def escapeUnit (unit : ℕ) : Text :=
  if unit = 0x26 then Text.ofString "&amp;"
  else if unit = 0x3C then Text.ofString "&lt;"
  else if unit = 0x3E then Text.ofString "&gt;"
  else if unit = 0x22 then Text.ofString "&quot;"
  else [unit]

/-- Text with its markup as references. -/
def escape (text : Text) : Text :=
  text.flatMap escapeUnit

/-- A character is a character of the markup or none. -/
theorem markup_cases (unit : ℕ) :
    unit = 0x26 ∨ unit = 0x3C ∨ unit = 0x3E ∨ unit = 0x22 ∨
      unit ≠ 0x26 ∧ unit ≠ 0x3C ∧ unit ≠ 0x3E ∧ unit ≠ 0x22 := by
  omega

theorem escapeUnit_of_plain {unit : ℕ}
    (plain : unit ≠ 0x26 ∧ unit ≠ 0x3C ∧ unit ≠ 0x3E ∧ unit ≠ 0x22) :
    escapeUnit unit = [unit] := by
  rw [escapeUnit, if_neg plain.1, if_neg plain.2.1, if_neg plain.2.2.1, if_neg plain.2.2.2]

theorem read_data_escapeUnit (unit : ℕ) :
    Mode.data.read (escapeUnit unit) = some (.data, [.character unit]) := by
  rcases markup_cases unit with rfl | rfl | rfl | rfl | plain
  · decide
  · decide
  · decide
  · decide
  · rw [escapeUnit_of_plain plain]
    simp [Mode.read, Mode.step, plain]

theorem read_value_escapeUnit (tag : Tag) (name value : Text) (unit : ℕ) :
    (Mode.value tag name value).read (escapeUnit unit) =
      some (.value tag name (value ++ [valueUnit unit]), []) := by
  rcases markup_cases unit with rfl | rfl | rfl | rfl | plain
  · rfl
  · rfl
  · rfl
  · rfl
  · rw [escapeUnit_of_plain plain]
    simp [Mode.read, Mode.step, plain]

/-- In the quotes of an attribute, escaped text is the text, but for its nulls. -/
theorem read_value_escape (tag : Tag) (name value text : Text) :
    (Mode.value tag name value).read (escape text) =
      some (.value tag name (value ++ text.map valueUnit), []) := by
  induction text generalizing value with
  | nil =>
      rw [List.map_nil, List.append_nil]
      rfl
  | cons unit text ih =>
      have later := Mode.read_append (read_value_escapeUnit tag name value unit)
        (ih (value ++ [valueUnit unit]))
      rw [List.append_assoc] at later
      exact later

/-! ## Written tokens -/

/-- An attribute with its value in quotes. -/
def writeAttribute (pair : Text × Text) : Text :=
  0x20 :: pair.1 ++ 0x3D :: 0x22 :: escape pair.2 ++ [0x22]

/-- The token as HTML. -/
def Token.write : Token → Text
  | .character unit => escapeUnit unit
  | .tag ⟨closing, name, attributes⟩ =>
      0x3C :: (if closing then [0x2F] else []) ++ name ++ attributes.flatMap writeAttribute ++
        [0x3E]
  | .declaration text => 0x3C :: 0x21 :: text ++ [0x3E]

/-- The tokens one after another as HTML. -/
def write (tokens : List Token) : Text :=
  tokens.flatMap Token.write

/-- The attribute as it is read. -/
def readAttribute (pair : Text × Text) : Text × Text :=
  (pair.1, pair.2.map valueUnit)

/-- The token as it is read. -/
def Token.seen : Token → Token
  | .character unit => .character unit
  | .tag read => .tag { read with attributes := read.attributes.map readAttribute }
  | .declaration text => .declaration text

/-- Text between tags. -/
def characters (text : Text) : List Token :=
  text.map .character

theorem write_append (front back : List Token) :
    write (front ++ back) = write front ++ write back :=
  List.flatMap_append

theorem write_characters (text : Text) : write (characters text) = escape text := by
  rw [write, characters, List.flatMap_map]
  rfl

/-- What the tokenizer reads as a name. -/
structure IsName (name : Text) : Prop where
  nonempty : name ≠ []
  units : ∀ unit ∈ name, isNameUnit unit = true

/-- The token has names that are read as names. -/
def Token.WellFormed : Token → Prop
  | .character _ => True
  | .tag read => IsName read.name ∧ ∀ pair ∈ read.attributes, IsName pair.1
  | .declaration text => 0x3E ∉ text ∧ 0 ∉ text

/-- Tokens that are read as they are written. -/
def WellFormed (tokens : List Token) : Prop :=
  ∀ token ∈ tokens, token.WellFormed

@[simp]
theorem wellFormed_append {front back : List Token} :
    WellFormed (front ++ back) ↔ WellFormed front ∧ WellFormed back :=
  List.forall_mem_append

@[simp]
theorem wellFormed_characters (text : Text) : WellFormed (characters text) := by
  intro token member
  obtain ⟨unit, -, rfl⟩ := List.mem_map.mp member
  trivial

/-- A unit of a name is none of the markup. -/
theorem ne_of_isNameUnit {unit : ℕ} (named : isNameUnit unit = true) :
    unit ≠ 0x3E ∧ unit ≠ 0x20 ∧ unit ≠ 0x3D ∧ unit ≠ 0x21 ∧ unit ≠ 0x2F := by
  simp only [isNameUnit, Bool.or_eq_true, Bool.and_eq_true, decide_eq_true_eq] at named
  omega

theorem read_tagName (closing : Bool) (front : Text) {name : Text}
    (units : ∀ unit ∈ name, isNameUnit unit = true) :
    (Mode.tagName closing front).read name = some (.tagName closing (front ++ name), []) := by
  induction name generalizing front with
  | nil => simp [Mode.read]
  | cons unit name ih =>
      rw [List.forall_mem_cons] at units
      obtain ⟨bracket, blank, -⟩ := ne_of_isNameUnit units.1
      rw [Mode.read, Mode.step, if_neg bracket, if_neg blank, if_pos units.1, Option.bind_some]
      dsimp only
      rw [ih (front ++ [unit]) units.2]
      simp

theorem read_attributeName (tag : Tag) (front : Text) {name : Text}
    (units : ∀ unit ∈ name, isNameUnit unit = true) :
    (Mode.attributeName tag front).read name = some (.attributeName tag (front ++ name), []) := by
  induction name generalizing front with
  | nil => simp [Mode.read]
  | cons unit name ih =>
      rw [List.forall_mem_cons] at units
      obtain ⟨-, -, equals, -⟩ := ne_of_isNameUnit units.1
      rw [Mode.read, Mode.step, if_neg equals, if_pos units.1, Option.bind_some]
      dsimp only
      rw [ih (front ++ [unit]) units.2]
      simp

theorem read_beforeAttribute (tag : Tag) {name : Text} (named : IsName name) :
    (Mode.beforeAttribute tag).read name = some (.attributeName tag name, []) := by
  obtain ⟨unit, rest, rfl⟩ := List.exists_cons_of_ne_nil named.nonempty
  have units := List.forall_mem_cons.mp named.units
  rw [Mode.read, Mode.step, if_pos units.1, Option.bind_some]
  dsimp only
  rw [read_attributeName tag [unit] units.2]
  rfl

/-- The two places in front of the blank of an attribute. -/
inductive InTag (tag : Tag) : Mode → Prop where
  | name {closing : Bool} {name : Text} (same : tag = ⟨closing, name, []⟩) :
      InTag tag (.tagName closing name)
  | value : InTag tag (.afterValue tag)

theorem InTag.read_attribute {tag : Tag} {mode : Mode} (inTag : InTag tag mode)
    {pair : Text × Text} (named : IsName pair.1) :
    mode.read (writeAttribute pair) =
      some (.afterValue (tag.add pair.1 (pair.2.map valueUnit)), []) := by
  have blank : mode.read [0x20] = some (.beforeAttribute tag, []) := by
    cases inTag with
    | name same =>
        rw [same]
        rfl
    | value => rfl
  have opened : (Mode.attributeName tag pair.1).read [0x3D, 0x22] =
      some (.value tag pair.1 [], []) := rfl
  have quoted := Mode.read_append (read_value_escape tag pair.1 [] pair.2)
    (show Mode.read _ [0x22] =
      some (.afterValue (tag.add pair.1 (pair.2.map valueUnit)), []) from rfl)
  have joined : writeAttribute pair =
      [0x20] ++ (pair.1 ++ ([0x3D, 0x22] ++ (escape pair.2 ++ [0x22]))) := by
    simp [writeAttribute]
  rw [joined]
  exact Mode.read_append blank
    (Mode.read_append (read_beforeAttribute tag named) (Mode.read_append opened quoted))

theorem InTag.read_attributes {tag : Tag} {mode : Mode} (inTag : InTag tag mode)
    {attributes : List (Text × Text)} (named : ∀ pair ∈ attributes, IsName pair.1) :
    mode.read (attributes.flatMap writeAttribute ++ [0x3E]) =
      some (.data,
        [.tag { tag with attributes := tag.attributes ++ attributes.map readAttribute }]) := by
  induction attributes generalizing tag mode with
  | nil =>
      cases inTag with
      | name same =>
          rw [same]
          rfl
      | value =>
          rw [List.map_nil, List.append_nil]
          rfl
  | cons pair rest ih =>
      rw [List.forall_mem_cons] at named
      have later : (Mode.afterValue (tag.add pair.1 (pair.2.map valueUnit))).read _ = _ :=
        ih .value named.2
      rw [Tag.add, List.append_assoc, List.singleton_append] at later
      rw [List.flatMap_cons, List.append_assoc]
      exact Mode.read_append (inTag.read_attribute named.1) later

theorem read_tagOpen {name : Text} (named : IsName name) :
    Mode.tagOpen.read name = some (.tagName false name, []) := by
  obtain ⟨unit, rest, rfl⟩ := List.exists_cons_of_ne_nil named.nonempty
  have units := List.forall_mem_cons.mp named.units
  obtain ⟨-, -, -, mark, slash⟩ := ne_of_isNameUnit units.1
  rw [Mode.read, Mode.step, if_neg mark, if_neg slash, if_pos units.1, Option.bind_some]
  dsimp only
  rw [read_tagName false [unit] units.2]
  rfl

theorem read_tag (tag : Tag) (name : IsName tag.name)
    (named : ∀ pair ∈ tag.attributes, IsName pair.1) :
    Mode.data.read (Token.tag tag).write = some (.data, [(Token.tag tag).seen]) := by
  obtain ⟨closing, text, attributes⟩ := tag
  have inTag : InTag ⟨closing, text, []⟩ (.tagName closing text) := .name rfl
  have ended := inTag.read_attributes named
  have started : Mode.data.read (0x3C :: (if closing then [0x2F] else []) ++ text) =
      some (.tagName closing text, []) := by
    cases closing with
    | true =>
        have slash : Mode.data.read [0x3C, 0x2F] = some (.tagName true [], []) := rfl
        exact Mode.read_append slash (read_tagName true [] name.units)
    | false =>
        have bracket : Mode.data.read [0x3C] = some (.tagOpen, []) := rfl
        exact Mode.read_append bracket (read_tagOpen name)
  rw [Token.write, List.append_assoc]
  exact Mode.read_append started ended

theorem read_declaration {text : Text} (inside : 0x3E ∉ text ∧ 0 ∉ text) :
    Mode.data.read (Token.declaration text).write = some (.data, [.declaration text]) := by
  have reads (front : Text) : (Mode.declaration front).read text =
      some (.declaration (front ++ text), []) := by
    induction text generalizing front with
    | nil => simp [Mode.read]
    | cons unit text ih =>
        rw [List.mem_cons, not_or, List.mem_cons, not_or] at inside
        rw [Mode.read, Mode.step, if_neg (Ne.symm inside.1.1), if_neg (Ne.symm inside.2.1),
          Option.bind_some]
        dsimp only
        rw [ih ⟨inside.1.2, inside.2.2⟩ (front ++ [unit])]
        simp
  have opened : Mode.data.read [0x3C, 0x21] = some (.declaration [], []) := rfl
  have closed : (Mode.declaration text).read [0x3E] = some (.data, [.declaration text]) := rfl
  exact Mode.read_append opened (Mode.read_append (reads []) closed)

/-- What is written is read as the tokens. -/
theorem read_write {tokens : List Token} (wellFormed : WellFormed tokens) :
    Mode.data.read (write tokens) = some (.data, tokens.map Token.seen) := by
  induction tokens with
  | nil => rfl
  | cons token rest ih =>
      rw [WellFormed, List.forall_mem_cons] at wellFormed
      have first : Mode.data.read token.write = some (.data, [token.seen]) := by
        cases token with
        | character unit => exact read_data_escapeUnit unit
        | tag tag => exact read_tag tag wellFormed.1.1 wellFormed.1.2
        | declaration text => exact read_declaration wellFormed.1
      exact Mode.read_append first (ih wellFormed.2)

theorem tokenize_of_newlines {text : Text} {tokens : List Token} (wellFormed : WellFormed tokens)
    (written : newlines text = write tokens) :
    tokenize text = some (tokens.map Token.seen) := by
  rw [tokenize, written, read_write wellFormed, Option.bind_some]
  rfl

/-! ## Line ends -/

/-- Text without carriage returns is left as it is, and so is what comes after it. -/
theorem newlines_append {front : Text} (plain : 0x0D ∉ front) (back : Text) :
    newlines (front ++ back) = front ++ newlines back := by
  unfold newlines
  induction front with
  | nil => rfl
  | cons unit front ih =>
      rw [List.mem_cons, not_or] at plain
      rw [List.cons_append, newlinesAfter, if_neg (Ne.symm plain.1), if_neg (by simp),
        ih plain.2, List.cons_append]

theorem newlines_of_plain {text : Text} (plain : 0x0D ∉ text) : newlines text = text := by
  have whole := newlines_append plain []
  rw [List.append_nil] at whole
  exact whole.trans (List.append_nil text)

theorem readValue_of_plain {text : Text} (plain : 0x0D ∉ text) (whole : 0 ∉ text) :
    readValue text = text := by
  rw [readValue, newlines_of_plain plain]
  refine (List.map_congr_left fun unit member => ?_).trans (List.map_id text)
  refine if_neg ?_
  rintro rfl
  exact whole member

/-- Text that begins with no line end, behind any text. -/
theorem newlinesAfter_cons {unit : ℕ} {front : Text} (other : unit ≠ 0x0A)
    (plain : 0x0D ∉ unit :: front) (returned : Bool) (back : Text) :
    newlinesAfter returned ((unit :: front) ++ back) = (unit :: front) ++ newlines back := by
  rw [List.mem_cons, not_or] at plain
  rw [List.cons_append, newlinesAfter, if_neg (Ne.symm plain.1), if_neg fun both => other both.1]
  exact congrArg (unit :: ·) (newlines_append plain.2 back)

/-- The text has no carriage return, and begins with no line feed. -/
def separates : Text → Bool
  | [] => false
  | unit :: rest => unit != 0x0A && !(unit :: rest).contains 0x0D

/-- Texts with such a text between them. -/
theorem newlines_append_of_separates {middle : Text} (apart : separates middle = true)
    (front back : Text) :
    newlines (front ++ (middle ++ back)) = newlines front ++ (middle ++ newlines back) := by
  obtain ⟨unit, middle, rfl⟩ := List.exists_cons_of_ne_nil (show middle ≠ [] by
    rintro rfl
    cases apart)
  simp only [separates, Bool.and_eq_true, bne_iff_ne, Bool.not_eq_true', List.contains_eq_mem,
    decide_eq_false_iff_not] at apart
  obtain ⟨other, plain⟩ := apart
  have walks (returned : Bool) : newlinesAfter returned (front ++ ((unit :: middle) ++ back)) =
      newlinesAfter returned front ++ ((unit :: middle) ++ newlines back) := by
    induction front generalizing returned with
    | nil => exact newlinesAfter_cons other plain returned back
    | cons first front ih =>
        rw [List.cons_append, newlinesAfter, newlinesAfter, ih, ih]
        split_ifs <;> rfl
  exact walks false

theorem escape_cons (unit : ℕ) (text : Text) :
    escape (unit :: text) = escapeUnit unit ++ escape text :=
  List.flatMap_cons

/-- Escaping touches no line end. -/
theorem newlines_escape (text : Text) : newlines (escape text) = escape (newlines text) := by
  have walks (returned : Bool) : newlinesAfter returned (escape text) =
      escape (newlinesAfter returned text) := by
    induction text generalizing returned with
    | nil => rfl
    | cons unit text ih =>
        rw [escape_cons, newlinesAfter]
        split_ifs with ret feed
        · rw [ret, escape_cons, ← ih]
          rfl
        · rw [feed.1, feed.2, ← ih]
          rfl
        · rw [escape_cons, ← ih]
          have reference (name : String) (known : name ∈ ["amp;", "lt;", "gt;", "quot;"]) :
              newlinesAfter returned ((0x26 :: Text.ofString name) ++ escape text) =
                (0x26 :: Text.ofString name) ++ newlines (escape text) := by
            have plain : ∀ name ∈ ["amp;", "lt;", "gt;", "quot;"],
                0x0D ∉ 0x26 :: Text.ofString name := by decide
            exact newlinesAfter_cons (by decide) (plain name known) returned _
          rcases markup_cases unit with rfl | rfl | rfl | rfl | plain
          · exact reference "amp;" (by decide)
          · exact reference "lt;" (by decide)
          · exact reference "gt;" (by decide)
          · exact reference "quot;" (by decide)
          · rw [escapeUnit_of_plain plain, List.singleton_append, newlinesAfter, if_neg ret,
              if_neg feed]
            rfl
  exact walks false

end RiskRail.Markup
