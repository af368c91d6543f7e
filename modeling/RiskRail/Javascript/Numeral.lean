import RiskRail.Javascript.Text
import RiskRail.Numeric.Decimal
import Mathlib.Data.List.TakeWhile

/-!
# Numbers written as text

`Number(text)` and the test for integers that a JavaScript number holds exactly.
Decimal digits of a natural number read back as the double closest to it.
-/

namespace RiskRail.Javascript

open Text Numeric

/-- White space and line terminators. -/
def isSpace (unit : ℕ) : Bool :=
  (0x09 ≤ unit && unit ≤ 0x0D) || unit == 0x20 || unit == 0xA0 || unit == 0x1680 ||
    (0x2000 ≤ unit && unit ≤ 0x200A) || unit == 0x2028 || unit == 0x2029 || unit == 0x202F ||
    unit == 0x205F || unit == 0x3000 || unit == 0xFEFF

/-- `text.trim()`. -/
def trim (text : Text) : Text :=
  ((text.dropWhile isSpace).reverse.dropWhile isSpace).reverse

/-- The value of a digit or a letter. -/
def digitValue (unit : ℕ) : Option ℕ :=
  if 0x30 ≤ unit ∧ unit ≤ 0x39 then some (unit - 0x30)
  else if 0x41 ≤ unit ∧ unit ≤ 0x5A then some (unit - 0x37)
  else if 0x61 ≤ unit ∧ unit ≤ 0x7A then some (unit - 0x57)
  else none

/-- One more digit in front of the point. -/
def pushDigit (base value unit : ℕ) : Option ℕ :=
  (digitValue unit).bind fun digit =>
    if digit < base then some (base * value + digit) else none

/-- One or more digits of a base. -/
def natural (base : ℕ) : Text → Option ℕ
  | [] => none
  | text => text.foldlM (pushDigit base) 0

/-- A numeral with or without a sign. -/
def signed {α : Type} [Neg α] (unsigned : Text → Option α) : Text → Option α
  | 0x2B :: text => unsigned text
  | 0x2D :: text => (unsigned text).map Neg.neg
  | text => unsigned text

/-- The exponent part of a literal, with its letter in front. -/
def exponent : Text → Option ℤ
  | [] => some 0
  | _ :: text => signed (fun text => (natural 10 text).map Int.ofNat) text

/-- Digits around a point, and an exponent. -/
def unsignedDecimal (text : Text) : Option ℚ :=
  let mantissa := text.takeWhile fun unit => unit != 0x65 && unit != 0x45
  let whole := mantissa.takeWhile fun unit => unit != 0x2E
  let fraction := mantissa.drop (whole.length + 1)
  (natural 10 (whole ++ fraction)).bind fun value =>
    (exponent (text.drop mantissa.length)).map fun shift =>
      value * (10 : ℚ) ^ (shift - (fraction.length : ℤ))

/-- The base of a literal that starts with a zero and this letter. -/
def radix (letter : ℕ) : Option ℕ :=
  if letter = 0x78 ∨ letter = 0x58 then some 16
  else if letter = 0x6F ∨ letter = 0x4F then some 8
  else if letter = 0x62 ∨ letter = 0x42 then some 2
  else none

/-- The value of a trimmed literal that is not empty. -/
def literal : Text → Option ℚ
  | 0x30 :: letter :: rest =>
      match radix letter with
      | some base => (natural base rest).map Nat.cast
      | none => signed unsignedDecimal (0x30 :: letter :: rest)
  | text => signed unsignedDecimal text

/-- `Number(text)`; `none` is `NaN` or an infinity. -/
def number (text : Text) : Option ℚ :=
  if trim text = [] then some 0 else (literal (trim text)).map toDouble

/-- `Number.isSafeInteger`. -/
def isSafeInteger (value : ℚ) : Bool :=
  decide (value = ⌊value⌋ ∧ |value| ≤ 2 ^ 53 - 1)

/-! ## Digits of a natural number -/

theorem digits_ne_nil (n : ℕ) : digits n ≠ [] := by
  simp [digits]

theorem mem_digits {n unit : ℕ} (mem : unit ∈ digits n) : 0x30 ≤ unit ∧ unit ≤ 0x39 := by
  rcases List.mem_map.mp mem with ⟨char, printed, rfl⟩
  have digit : char.isDigit = true := Nat.isDigit_of_mem_toDigits (by decide) le_rfl printed
  rw [Char.isDigit, Bool.and_eq_true, decide_eq_true_iff, decide_eq_true_iff] at digit
  exact digit

theorem isSpace_of_mem_digits {n unit : ℕ} (mem : unit ∈ digits n) : isSpace unit = false := by
  rcases mem_digits mem with ⟨lower, upper⟩
  simp only [isSpace, Bool.or_eq_false_iff, Bool.and_eq_false_iff, beq_eq_false_iff_ne,
    decide_eq_false_iff_not]
  omega

theorem dropWhile_eq_self {text : Text} {skip : ℕ → Bool}
    (kept : ∀ unit ∈ text, skip unit = false) : text.dropWhile skip = text := by
  cases text with
  | nil => rfl
  | cons unit rest => rw [List.dropWhile_cons, kept unit List.mem_cons_self, if_neg (by simp)]

theorem trim_eq_self {text : Text} (kept : ∀ unit ∈ text, isSpace unit = false) :
    trim text = text := by
  rw [trim, dropWhile_eq_self kept, dropWhile_eq_self, List.reverse_reverse]
  exact fun unit mem => kept unit (List.mem_reverse.mp mem)

theorem trim_digits (n : ℕ) : trim (digits n) = digits n :=
  trim_eq_self fun _ => isSpace_of_mem_digits

section Base

variable {base : ℕ} (decimal : 10 ≤ base)

include decimal

/-- Digit by digit the text accumulates a number, the one it was printed from if the base
is ten. -/
theorem foldlM_pushDigit {chars : List Char} (digit : ∀ char ∈ chars, char.isDigit = true)
    (value : ℕ) :
    (chars.map Char.toNat).foldlM (pushDigit base) value =
      some (Nat.ofDigitChars base chars value) := by
  induction chars generalizing value with
  | nil => rfl
  | cons char chars ih =>
      have here := digit char List.mem_cons_self
      rw [Char.isDigit, Bool.and_eq_true, decide_eq_true_iff, decide_eq_true_iff] at here
      have lower : 0x30 ≤ char.toNat := here.1
      have upper : char.toNat ≤ 0x39 := here.2
      have pushed : pushDigit base value char.toNat =
          some (base * value + (char.toNat - 0x30)) := by
        rw [pushDigit, digitValue, if_pos ⟨lower, upper⟩, Option.bind_some, if_pos (by omega)]
      rw [List.map_cons, List.foldlM_cons, pushed, Nat.ofDigitChars_cons]
      exact ih (fun char mem => digit char (List.mem_cons_of_mem _ mem)) _

theorem natural_digits_base (n : ℕ) :
    natural base (digits n) = some (Nat.ofDigitChars base (Nat.toDigits 10 n) 0) := by
  have unfolded : natural base (digits n) = (digits n).foldlM (pushDigit base) 0 := by
    cases printed : digits n with
    | nil => exact absurd printed (digits_ne_nil n)
    | cons unit rest => rfl
  rw [unfolded, digits, foldlM_pushDigit decimal]
  exact fun char mem => Nat.isDigit_of_mem_toDigits (by decide) le_rfl mem

end Base

theorem natural_digits (n : ℕ) : natural 10 (digits n) = some n := by
  rw [natural_digits_base le_rfl, Nat.ofDigitChars_ten_toDigits]

/-! ### Decimal digits in another base -/

theorem ofDigitChars_small (base : ℕ) {n : ℕ} (small : n < 10) :
    Nat.ofDigitChars base (Nat.toDigits 10 n) 0 = n := by
  rw [Nat.toDigits_of_lt_base small, Nat.ofDigitChars_cons_digitChar_of_lt_ten small,
    Nat.ofDigitChars_nil, Nat.mul_zero, Nat.zero_add]

theorem ofDigitChars_large (base : ℕ) {n : ℕ} (large : 10 ≤ n) :
    Nat.ofDigitChars base (Nat.toDigits 10 n) 0 =
      base * Nat.ofDigitChars base (Nat.toDigits 10 (n / 10)) 0 + n % 10 := by
  rw [Nat.toDigits_of_base_le (by decide) large, Nat.ofDigitChars_append,
    Nat.ofDigitChars_cons_digitChar_of_lt_ten (Nat.mod_lt n (by decide)), Nat.ofDigitChars_nil]

theorem le_ofDigitChars {base : ℕ} (decimal : 10 ≤ base) (n : ℕ) :
    n ≤ Nat.ofDigitChars base (Nat.toDigits 10 n) 0 := by
  induction n using Nat.strongRecOn with
  | ind n ih =>
      rcases lt_or_ge n 10 with small | large
      · exact (ofDigitChars_small base small).ge
      · have front := ih (n / 10) (by omega)
        have scaled := Nat.mul_le_mul decimal front
        rw [ofDigitChars_large base large]
        omega

/-- In a base larger than ten, only a single digit stands for the same number. -/
theorem ofDigitChars_eq_iff {base : ℕ} (larger : 10 < base) (n : ℕ) :
    Nat.ofDigitChars base (Nat.toDigits 10 n) 0 = n ↔ n < 10 := by
  rcases lt_or_ge n 10 with small | large
  · exact iff_of_true (ofDigitChars_small base small) small
  · apply iff_of_false _ (not_lt.mpr large)
    have front := le_ofDigitChars larger.le (n / 10)
    have scaled := Nat.mul_le_mul larger front
    rw [ofDigitChars_large base large]
    omega

/-- A natural number can be read off its digits. -/
theorem digits_injective : Function.Injective digits :=
  fun first second same => Option.some_inj.mp <|
    (natural_digits first).symm.trans ((congrArg (natural 10) same).trans (natural_digits second))

theorem takeWhile_digits {n : ℕ} {keep : ℕ → Bool}
    (kept : ∀ unit, 0x30 ≤ unit → unit ≤ 0x39 → keep unit = true) :
    (digits n).takeWhile keep = digits n := by
  rw [List.takeWhile_eq_self_iff]
  exact fun unit mem => kept unit (mem_digits mem).1 (mem_digits mem).2

theorem unsignedDecimal_digits (n : ℕ) : unsignedDecimal (digits n) = some (n : ℚ) := by
  have mantissa : (digits n).takeWhile (fun unit => unit != 0x65 && unit != 0x45) = digits n :=
    takeWhile_digits fun unit _ upper => by simp; omega
  have whole : (digits n).takeWhile (fun unit => unit != 0x2E) = digits n :=
    takeWhile_digits fun unit lower _ => by simp; omega
  have fraction : (digits n).drop ((digits n).length + 1) = [] :=
    List.drop_of_length_le (Nat.le_succ _)
  simp only [unsignedDecimal, mantissa, whole, fraction, List.append_nil, natural_digits,
    List.drop_length, exponent]
  simp

theorem signed_digits {α : Type} [Neg α] (unsigned : Text → Option α) (n : ℕ) :
    signed unsigned (digits n) = unsigned (digits n) := by
  cases printed : digits n with
  | nil => rfl
  | cons unit rest =>
      have digit := mem_digits (n := n) (by rw [printed]; exact List.mem_cons_self)
      unfold signed
      split
      next plus =>
        cases plus
        omega
      next minus =>
        cases minus
        omega
      next => rfl

theorem literal_digits (n : ℕ) : literal (digits n) = some (n : ℚ) := by
  have plain : literal (digits n) = signed unsignedDecimal (digits n) := by
    unfold literal
    split
    next letter rest printed =>
      have digit : 0x30 ≤ letter ∧ letter ≤ 0x39 :=
        mem_digits (n := n) (by rw [printed]; simp)
      have no_radix : radix letter = none := by
        unfold radix
        rw [if_neg (by omega), if_neg (by omega), if_neg (by omega)]
      rw [no_radix, printed]
    next => rfl
  rw [plain, signed_digits, unsignedDecimal_digits]

/-- Decimal digits read back as the closest double. -/
theorem number_digits (n : ℕ) : number (digits n) = some (toDouble n) := by
  rw [number, trim_digits, if_neg (digits_ne_nil n), literal_digits, Option.map_some]

theorem isSafeInteger_of_safe {n : ℕ} (safe : n < 2 ^ 53) : isSafeInteger (n : ℚ) = true := by
  rw [isSafeInteger, decide_eq_true_iff, Int.floor_natCast, Nat.abs_cast]
  refine ⟨by simp, ?_⟩
  have upper : (n : ℚ) + 1 ≤ 2 ^ 53 := by exact_mod_cast safe
  linarith

/-- A larger number is not read as a safe integer. -/
theorem isSafeInteger_toDouble_of_large {n : ℕ} (large : 2 ^ 53 ≤ n) :
    isSafeInteger (toDouble n) = false := by
  rw [isSafeInteger, decide_eq_false_iff_not]
  rintro ⟨-, upper⟩
  have least := le_toDouble large
  have := le_abs_self (toDouble n)
  linarith

end RiskRail.Javascript
