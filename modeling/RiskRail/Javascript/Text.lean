import Mathlib.Algebra.Group.Nat.Defs
import Mathlib.Data.List.Basic
import Mathlib.Order.Lattice
import Mathlib.Data.List.Lex

/-!
# JavaScript strings

A string is a list of UTF-16 code units; it may hold unpaired surrogates.  This
file supplies the quoting of `JSON.stringify` and array-index keys.  A quoted
string tells where it ends, so what follows it does not change what it says.
-/

namespace RiskRail.Javascript

/-- A string, as its UTF-16 code units. -/
abbrev Text := List ℕ

namespace Text

/-- The units of a character. -/
def ofChar (char : Char) : Text :=
  if char.toNat < 0x10000 then [char.toNat]
  else
    [0xD800 + (char.toNat - 0x10000) / 0x400, 0xDC00 + (char.toNat - 0x10000) % 0x400]

/-- The units of a string. -/
def ofString (string : String) : Text :=
  string.toList.flatMap ofChar

theorem ofString_ofList (chars : List Char) :
    ofString (String.ofList chars) = chars.flatMap ofChar := by
  rw [ofString, String.toList_ofList]

/-! ## Quoting -/

/-- The first half of a pair. -/
def isHighSurrogate (unit : ℕ) : Bool :=
  0xD800 ≤ unit && unit < 0xDC00

/-- The second half of a pair. -/
def isLowSurrogate (unit : ℕ) : Bool :=
  0xDC00 ≤ unit && unit < 0xE000

/-- A lowercase hexadecimal digit. -/
def hexDigit (n : ℕ) : ℕ :=
  if n < 10 then 0x30 + n else 0x57 + n

/-- The value of a lowercase hexadecimal digit. -/
def hexValue (unit : ℕ) : ℕ :=
  if unit < 0x3A then unit - 0x30 else unit - 0x57

/-- A code unit outside a surrogate pair, as it is written in a quoted string. -/
def escape (unit : ℕ) : Text :=
  if unit = 0x08 then [0x5C, 0x62]
  else if unit = 0x09 then [0x5C, 0x74]
  else if unit = 0x0A then [0x5C, 0x6E]
  else if unit = 0x0C then [0x5C, 0x66]
  else if unit = 0x0D then [0x5C, 0x72]
  else if unit = 0x22 then [0x5C, 0x22]
  else if unit = 0x5C then [0x5C, 0x5C]
  else if unit < 0x20 || isHighSurrogate unit || isLowSurrogate unit then
    [0x5C, 0x75, hexDigit (unit / 0x1000 % 16), hexDigit (unit / 0x100 % 16),
      hexDigit (unit / 0x10 % 16), hexDigit (unit % 16)]
  else [unit]

/-- The text with what has to be escaped escaped; pairs stay. -/
def quoteUnits : Text → Text
  | [] => []
  | [unit] => escape unit
  | high :: low :: rest =>
      if isHighSurrogate high && isLowSurrogate low then high :: low :: quoteUnits rest
      else escape high ++ quoteUnits (low :: rest)

/-- `JSON.stringify` of a string. -/
def quote (text : Text) : Text :=
  0x22 :: quoteUnits text ++ [0x22]

/-- The unit written as a backslash and a letter. -/
def unescape (letter : ℕ) : ℕ :=
  if letter = 0x62 then 0x08
  else if letter = 0x74 then 0x09
  else if letter = 0x6E then 0x0A
  else if letter = 0x66 then 0x0C
  else if letter = 0x72 then 0x0D
  else letter

/-- The unit of four digits. -/
def ofHex (a b c d : ℕ) : ℕ :=
  hexValue a * 0x1000 + hexValue b * 0x100 + hexValue c * 0x10 + hexValue d

/-- Read a string up to its closing quote, and what follows it. -/
def unquote : Text → Option (Text × Text)
  | [] => none
  | unit :: rest =>
      if unit = 0x22 then some ([], rest)
      else if unit = 0x5C then
        match rest with
        | [] => none
        | letter :: rest =>
            if letter = 0x75 then
              match rest with
              | a :: b :: c :: d :: rest =>
                  (unquote rest).map fun (text, rest) => (ofHex a b c d :: text, rest)
              | _ => none
            else (unquote rest).map fun (text, rest) => (unescape letter :: text, rest)
      else (unquote rest).map fun (text, rest) => (unit :: text, rest)

theorem hexValue_hexDigit {n : ℕ} (digit : n < 16) : hexValue (hexDigit n) = n := by
  unfold hexDigit hexValue
  split <;> split <;> omega

/-- A unit that is neither a quote nor a backslash reads as itself. -/
theorem unquote_cons {unit : ℕ} (quote : unit ≠ 0x22) (backslash : unit ≠ 0x5C) (rest : Text) :
    unquote (unit :: rest) = (unquote rest).map fun (text, rest) => (unit :: text, rest) := by
  rw [unquote.eq_def]
  simp [quote, backslash]

theorem unquote_quotation (rest : Text) : unquote (0x22 :: rest) = some ([], rest) := by
  rw [unquote.eq_def]
  rfl

theorem unquote_letter {letter : ℕ} (letter_ne : letter ≠ 0x75) (rest : Text) :
    unquote (0x5C :: letter :: rest) =
      (unquote rest).map fun (text, rest) => (unescape letter :: text, rest) := by
  rw [unquote.eq_def]
  simp [letter_ne]

theorem unquote_hex (a b c d : ℕ) (rest : Text) :
    unquote (0x5C :: 0x75 :: a :: b :: c :: d :: rest) =
      (unquote rest).map fun (text, rest) => (ofHex a b c d :: text, rest) := by
  rw [unquote.eq_def]
  rfl

theorem ofHex_hexDigit {unit : ℕ} (small : unit < 0x10000) :
    ofHex (hexDigit (unit / 0x1000 % 16)) (hexDigit (unit / 0x100 % 16))
      (hexDigit (unit / 0x10 % 16)) (hexDigit (unit % 16)) = unit := by
  unfold ofHex
  simp only [hexValue_hexDigit (Nat.mod_lt _ (by decide : 0 < 16))]
  omega

theorem unquote_escape (unit : ℕ) (rest : Text) :
    unquote (escape unit ++ rest) =
      (unquote rest).map fun (text, rest) => (unit :: text, rest) := by
  unfold escape
  split
  next backspace =>
    subst backspace
    exact unquote_letter (by decide) rest
  split
  next tab =>
    subst tab
    exact unquote_letter (by decide) rest
  split
  next lineFeed =>
    subst lineFeed
    exact unquote_letter (by decide) rest
  split
  next formFeed =>
    subst formFeed
    exact unquote_letter (by decide) rest
  split
  next carriageReturn =>
    subst carriageReturn
    exact unquote_letter (by decide) rest
  split
  next quotation =>
    subst quotation
    exact unquote_letter (by decide) rest
  split
  next backslash =>
    subst backslash
    exact unquote_letter (by decide) rest
  split
  next hex =>
    have small : unit < 0x10000 := by
      simp only [isHighSurrogate, isLowSurrogate, Bool.or_eq_true, Bool.and_eq_true,
        decide_eq_true_eq] at hex
      omega
    refine (unquote_hex _ _ _ _ rest).trans ?_
    rw [ofHex_hexDigit small]
  next => exact unquote_cons (by assumption) (by assumption) rest

/-- Reading back what was quoted. -/
theorem unquote_quoteUnits (text rest : Text) :
    unquote (quoteUnits text ++ 0x22 :: rest) = some (text, rest) := by
  fun_induction quoteUnits text with
  | case1 => exact unquote_quotation rest
  | case2 unit =>
      rw [unquote_escape, unquote_quotation]
      rfl
  | case3 high low tail pair ih =>
      simp only [isHighSurrogate, isLowSurrogate, Bool.and_eq_true, decide_eq_true_eq] at pair
      rw [List.cons_append, List.cons_append, unquote_cons (by omega) (by omega),
        unquote_cons (by omega) (by omega), ih]
      rfl
  | case4 high low tail pair ih =>
      rw [List.append_assoc, unquote_escape, ih]
      rfl

/-- A quoted string ends where it says. -/
theorem quote_append_inj {first second firstRest secondRest : Text}
    (same : quote first ++ firstRest = quote second ++ secondRest) :
    first = second ∧ firstRest = secondRest := by
  have bodies :
      quoteUnits first ++ 0x22 :: firstRest = quoteUnits second ++ 0x22 :: secondRest := by
    simpa [quote] using same
  have read := congrArg unquote bodies
  rw [unquote_quoteUnits, unquote_quoteUnits] at read
  exact Prod.mk.inj (Option.some.inj read)

/-! ## Array indices -/

/-- The decimal digits. -/
def digits (n : ℕ) : Text :=
  (Nat.toDigits 10 n).map Char.toNat

/-- The number an array-index key stands for: `ToString(ToUint32(key))` is the key
itself, and it is below the greatest array length. -/
def arrayIndex (key : Text) : Option ℕ :=
  let value := key.foldl (fun value unit => 10 * value + (unit - 0x30)) 0
  if digits value = key ∧ value < 2 ^ 32 - 1 then some value else none

theorem digits_of_arrayIndex {key : Text} {n : ℕ} (index : arrayIndex key = some n) :
    digits n = key := by
  simp only [arrayIndex] at index
  split at index
  next isIndex =>
    cases index
    exact isIndex.1
  next => cases index

theorem arrayIndex_inj {first second : Text} {n : ℕ} (firstIndex : arrayIndex first = some n)
    (secondIndex : arrayIndex second = some n) : first = second :=
  (digits_of_arrayIndex firstIndex).symm.trans (digits_of_arrayIndex secondIndex)

example : arrayIndex (ofString "10") = some 10 ∧ arrayIndex (ofString "010") = none := by
  decide +kernel

end Text

end RiskRail.Javascript
