import RiskRail.Javascript.Object

/-!
# The bytes of a string

`TextEncoder` writes the scalar values of a string in UTF-8.  An unpaired surrogate has no
scalar value and is written as U+FFFD, so the bytes determine a string among the strings
without one.  The text of a JSON value is such a string.
-/

namespace RiskRail.Javascript

open Text

/-! ## Scalar values -/

/-- The scalar value of a code unit outside a surrogate pair. -/
def scalar (unit : ℕ) : Char :=
  if isHighSurrogate unit || isLowSurrogate unit then Char.ofNat 0xFFFD else Char.ofNat unit

/-- The scalar values of a string. -/
def scalars : Text → List Char
  | [] => []
  | [unit] => [scalar unit]
  | high :: low :: rest =>
      if isHighSurrogate high && isLowSurrogate low then
        Char.ofNat (0x10000 + 0x400 * (high - 0xD800) + (low - 0xDC00)) :: scalars rest
      else scalar high :: scalars (low :: rest)

/-- `new TextEncoder().encode(text)`. -/
def encode (text : Text) : ByteArray :=
  (String.ofList (scalars text)).toByteArray

theorem encode_eq_iff {first second : Text} :
    encode first = encode second ↔ scalars first = scalars second := by
  rw [encode, encode, String.toByteArray_inj, String.ofList_inj]

/-- A unit that opens no pair stands for itself. -/
theorem scalars_cons {unit : ℕ} (single : isHighSurrogate unit = false) (rest : Text) :
    scalars (unit :: rest) = scalar unit :: scalars rest := by
  cases rest with
  | nil => rfl
  | cons low rest => rw [scalars, single, Bool.false_and, if_neg Bool.false_ne_true]

theorem isHighSurrogate_of_lt {unit : ℕ} (below : unit < 0xD800) :
    isHighSurrogate unit = false := by
  rw [isHighSurrogate, decide_eq_false (by omega), Bool.false_and]

theorem isLowSurrogate_of_lt {unit : ℕ} (below : unit < 0xD800) : isLowSurrogate unit = false := by
  rw [isLowSurrogate, decide_eq_false (by omega), Bool.false_and]

theorem scalar_of_lt {unit : ℕ} (below : unit < 0xD800) : scalar unit = Char.ofNat unit := by
  rw [scalar, isHighSurrogate_of_lt below, isLowSurrogate_of_lt below, Bool.or_self,
    if_neg Bool.false_ne_true]

/-- Units below the surrogates do not touch what follows them. -/
theorem scalars_append {front : Text} (below : ∀ unit ∈ front, unit < 0xD800) (rest : Text) :
    scalars (front ++ rest) = front.map Char.ofNat ++ scalars rest := by
  induction front with
  | nil => rfl
  | cons unit front ih =>
      rw [List.forall_mem_cons] at below
      rw [List.cons_append, scalars_cons (isHighSurrogate_of_lt below.1), ih below.2,
        scalar_of_lt below.1, List.map_cons, List.cons_append]

theorem toNat_ofNat {unit : ℕ} (valid : unit.isValidChar) : (Char.ofNat unit).toNat = unit := by
  rw [Char.ofNat, dif_pos valid]
  rfl

/-! ## Strings without an unpaired surrogate -/

/-- A string that scalar values are written as. -/
def WellFormed (text : Text) : Prop :=
  ∃ chars : List Char, text = chars.flatMap ofChar

theorem scalars_ofChar_append (char : Char) (rest : Text) :
    scalars (ofChar char ++ rest) = char :: scalars rest := by
  have valid : char.toNat < 0xD800 ∨ 0xDFFF < char.toNat ∧ char.toNat < 0x110000 := char.valid
  unfold ofChar
  split
  next small =>
    have high : isHighSurrogate char.toNat = false := by
      simp only [isHighSurrogate, Bool.and_eq_false_iff, decide_eq_false_iff_not]
      omega
    have low : isLowSurrogate char.toNat = false := by
      simp only [isLowSurrogate, Bool.and_eq_false_iff, decide_eq_false_iff_not]
      omega
    rw [List.singleton_append, scalars_cons high, scalar, high, low, Bool.or_self,
      if_neg Bool.false_ne_true, Char.ofNat_toNat]
  next large =>
    generalize upper_eq : 0xD800 + (char.toNat - 0x10000) / 0x400 = upper
    generalize lower_eq : 0xDC00 + (char.toNat - 0x10000) % 0x400 = lower
    have pair : (isHighSurrogate upper && isLowSurrogate lower) = true := by
      simp only [isHighSurrogate, isLowSurrogate, Bool.and_eq_true, decide_eq_true_iff]
      omega
    have value : 0x10000 + 0x400 * (upper - 0xD800) + (lower - 0xDC00) = char.toNat := by
      omega
    rw [List.cons_append, List.singleton_append, scalars, if_pos pair, value, Char.ofNat_toNat]

theorem scalars_flatMap (chars : List Char) : scalars (chars.flatMap ofChar) = chars := by
  induction chars with
  | nil => rfl
  | cons char chars ih => rw [List.flatMap_cons, scalars_ofChar_append, ih]

/-- Among the well-formed strings the bytes determine the string. -/
theorem WellFormed.eq_of_encode_eq {first second : Text} (left : WellFormed first)
    (right : WellFormed second) (same : encode first = encode second) : first = second := by
  rcases left with ⟨chars, rfl⟩
  rcases right with ⟨others, rfl⟩
  rw [encode_eq_iff, scalars_flatMap, scalars_flatMap] at same
  rw [same]

theorem wellFormed_nil : WellFormed [] :=
  ⟨[], rfl⟩

theorem WellFormed.append {first second : Text} (left : WellFormed first)
    (right : WellFormed second) : WellFormed (first ++ second) := by
  rcases left with ⟨chars, rfl⟩
  rcases right with ⟨others, rfl⟩
  exact ⟨chars ++ others, List.flatMap_append.symm⟩

theorem wellFormed_ofString (string : String) : WellFormed (ofString string) :=
  ⟨string.toList, rfl⟩

/-- A scalar value of one unit. -/
theorem wellFormed_singleton {unit : ℕ} (small : unit < 0x10000)
    (scalar : ¬(0xD800 ≤ unit ∧ unit < 0xE000)) : WellFormed [unit] := by
  refine ⟨[Char.ofNat unit], ?_⟩
  have valid : unit.isValidChar := by
    unfold Nat.isValidChar
    omega
  rw [List.flatMap_singleton, ofChar, toNat_ofNat valid, if_pos small]

theorem wellFormed_of_lt {text : Text} (below : ∀ unit ∈ text, unit < 0xD800) :
    WellFormed text := by
  induction text with
  | nil => exact wellFormed_nil
  | cons unit text ih =>
      rw [List.forall_mem_cons] at below
      have here : WellFormed [unit] := wellFormed_singleton (by omega) (by omega)
      exact here.append (ih below.2)

theorem wellFormed_pair {high low : ℕ}
    (pair : (isHighSurrogate high && isLowSurrogate low) = true) : WellFormed [high, low] := by
  simp only [isHighSurrogate, isLowSurrogate, Bool.and_eq_true, decide_eq_true_iff] at pair
  have valid : (0x10000 + 0x400 * (high - 0xD800) + (low - 0xDC00)).isValidChar := by
    unfold Nat.isValidChar
    omega
  refine ⟨[Char.ofNat (0x10000 + 0x400 * (high - 0xD800) + (low - 0xDC00))], ?_⟩
  rw [List.flatMap_singleton, ofChar, toNat_ofNat valid, if_neg (by omega), List.cons_eq_cons,
    List.cons_eq_cons]
  refine ⟨by omega, by omega, rfl⟩

/-! ## The text of a value -/

theorem hexDigit_lt {n : ℕ} (small : n < 16) : hexDigit n < 0xD800 := by
  unfold hexDigit
  split <;> omega

/-- `JSON.stringify` escapes what has no scalar value. -/
theorem wellFormed_escape {unit : ℕ} (small : unit < 0x10000) : WellFormed (escape unit) := by
  have hex (place : ℕ) : hexDigit (unit / place % 16) < 0xD800 :=
    hexDigit_lt (Nat.mod_lt _ (by decide))
  have last : hexDigit (unit % 16) < 0xD800 := hexDigit_lt (Nat.mod_lt _ (by decide))
  unfold escape
  split_ifs with _ _ _ _ _ _ _ special
  case neg =>
    simp only [isHighSurrogate, isLowSurrogate, Bool.or_eq_true, Bool.and_eq_true,
      decide_eq_true_iff] at special
    exact wellFormed_singleton small (by omega)
  all_goals
    apply wellFormed_of_lt
    simp [hex, last]

theorem wellFormed_quoteUnits {text : Text} (units : ∀ unit ∈ text, unit < 0x10000) :
    WellFormed (quoteUnits text) := by
  fun_induction quoteUnits text with
  | case1 => exact wellFormed_nil
  | case2 unit => exact wellFormed_escape (units unit List.mem_cons_self)
  | case3 high low rest pair ih =>
      exact (wellFormed_pair pair).append (ih fun unit member => units unit (by simp [member]))
  | case4 high low rest pair ih =>
      exact (wellFormed_escape (units high List.mem_cons_self)).append
        (ih fun unit member => units unit (List.mem_cons_of_mem _ member))

theorem wellFormed_quote {text : Text} (units : ∀ unit ∈ text, unit < 0x10000) :
    WellFormed (quote text) := by
  have quotation : WellFormed [0x22] := wellFormed_singleton (by decide) (by decide)
  exact (quotation.append (wellFormed_quoteUnits units)).append quotation

theorem wellFormed_commaJoin {texts : List Text} (each : ∀ text ∈ texts, WellFormed text) :
    WellFormed (commaJoin texts) := by
  fun_induction commaJoin texts with
  | case1 => exact wellFormed_nil
  | case2 text => exact each text List.mem_cons_self
  | case3 text next rest ih =>
      have comma : WellFormed [0x2C] := wellFormed_singleton (by decide) (by decide)
      have behind := comma.append
        (ih fun other member => each other (List.mem_cons_of_mem _ member))
      exact (each text List.mem_cons_self).append behind

mutual

/-- Strings are made of code units, and numbers are written in ASCII. -/
def Json.Spelled : Json → Prop
  | .number text => ∀ unit ∈ text, unit < 0x80
  | .string value => ∀ unit ∈ value, unit < 0x10000
  | .array items => SpelledItems items
  | .object fields => SpelledFields fields
  | .null | .bool _ => True

/-- Each of the items is spelled in units. -/
def Json.SpelledItems : List Json → Prop
  | [] => True
  | item :: items => item.Spelled ∧ SpelledItems items

/-- Each of the keys and values is spelled in units. -/
def Json.SpelledFields : List (Text × Json) → Prop
  | [] => True
  | (key, item) :: fields =>
      (∀ unit ∈ key, unit < 0x10000) ∧ item.Spelled ∧ SpelledFields fields

end

mutual

theorem wellFormed_stringify : ∀ value : Json, value.Spelled → WellFormed (stringify value)
  | .null, _ => by
      rw [stringify]
      exact wellFormed_ofString "null"
  | .bool value, _ => by
      rw [stringify]
      exact wellFormed_ofString (toString value)
  | .number text, spelled => by
      rw [Json.Spelled] at spelled
      rw [stringify]
      exact wellFormed_of_lt fun unit member => (spelled unit member).trans (by decide)
  | .string value, spelled => by
      rw [Json.Spelled] at spelled
      rw [stringify]
      exact wellFormed_quote spelled
  | .array items, spelled => by
      rw [Json.Spelled] at spelled
      have brackets : WellFormed [0x5B] ∧ WellFormed [0x5D] :=
        ⟨wellFormed_singleton (by decide) (by decide), wellFormed_singleton (by decide) (by decide)⟩
      have joined := wellFormed_commaJoin (wellFormed_stringifyItems items spelled)
      rw [stringify]
      exact (brackets.1.append joined).append brackets.2
  | .object fields, spelled => by
      rw [Json.Spelled] at spelled
      have braces : WellFormed [0x7B] ∧ WellFormed [0x7D] :=
        ⟨wellFormed_singleton (by decide) (by decide), wellFormed_singleton (by decide) (by decide)⟩
      have members : ∀ text ∈ (ownFields (stringifyFields fields)).map member, WellFormed text := by
        intro text written
        rcases List.mem_map.mp written with ⟨field, own, rfl⟩
        exact wellFormed_stringifyFields fields spelled field ((sortByKey_perm _ _).subset own)
      rw [stringify]
      exact (braces.1.append (wellFormed_commaJoin members)).append braces.2

theorem wellFormed_stringifyItems : ∀ items : List Json, Json.SpelledItems items →
    ∀ text ∈ stringifyItems items, WellFormed text
  | [], _, _, written => nomatch written
  | item :: items, spelled, text, written => by
      rw [Json.SpelledItems] at spelled
      rw [stringifyItems, List.mem_cons] at written
      rcases written with rfl | written
      · exact wellFormed_stringify item spelled.1
      · exact wellFormed_stringifyItems items spelled.2 text written

theorem wellFormed_stringifyFields : ∀ fields : List (Text × Json), Json.SpelledFields fields →
    ∀ field ∈ stringifyFields fields, WellFormed (member field)
  | [], _, _, written => nomatch written
  | (key, item) :: fields, spelled, field, written => by
      rw [Json.SpelledFields] at spelled
      rw [stringifyFields, List.mem_cons] at written
      rcases written with rfl | written
      · have colon : WellFormed [0x3A] := wellFormed_singleton (by decide) (by decide)
        exact (wellFormed_quote spelled.1).append
          (colon.append (wellFormed_stringify item spelled.2.1))
      · exact wellFormed_stringifyFields fields spelled.2.2 field written

end

end RiskRail.Javascript
