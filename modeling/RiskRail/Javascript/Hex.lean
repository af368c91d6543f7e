import RiskRail.Javascript.Numeral

/-!
# Bytes in hexadecimal

Bytes are printed with two digits each.  One reader takes a text as far as it goes, the
other takes all of it or nothing; where the second reads something the first reads the
same.
-/

namespace RiskRail.Javascript

open Text

/-- A hexadecimal digit of either case. -/
def hexDigitValue (unit : ℕ) : Option ℕ :=
  (digitValue unit).filter fun value => value < 16

/-- The byte of two digits. -/
def hexByte (high low : ℕ) : Option UInt8 :=
  (hexDigitValue high).bind fun h =>
    (hexDigitValue low).map fun l => UInt8.ofNat (16 * h + l)

/-- `digest('hex')`. -/
def hexText (bytes : List UInt8) : Text :=
  bytes.flatMap fun byte => [hexDigit (byte.toNat / 16), hexDigit (byte.toNat % 16)]

/-- `Buffer.from(text, 'hex')`: the bytes in front of the first pair that is not
hexadecimal.  Node reads the low byte of each unit. -/
def bufferFromHex : Text → List UInt8
  | high :: low :: rest =>
      match hexByte (high % 256) (low % 256) with
      | some byte => byte :: bufferFromHex rest
      | none => []
  | _ => []

/-- The pairs of a text, each read with `Number.parseInt`. -/
def hexPairs : Text → List UInt8
  | high :: low :: rest => (hexByte high low).getD 0 :: hexPairs rest
  | _ => []

/-- Every byte of the text or nothing. -/
def hexToBytes (hex : Text) : Option (List UInt8) :=
  if hex.length % 2 ≠ 0 ∨ ∃ unit ∈ hex, hexDigitValue unit = none then none
  else some (hexPairs hex)

theorem hexDigitValue_hexDigit : ∀ n < 16, hexDigitValue (hexDigit n) = some n := by
  decide

theorem hexByte_hexDigit (byte : UInt8) :
    hexByte (hexDigit (byte.toNat / 16)) (hexDigit (byte.toNat % 16)) = some byte := by
  have size := byte.toNat_lt
  rw [hexByte, hexDigitValue_hexDigit _ (by omega), hexDigitValue_hexDigit _ (by omega),
    Option.bind_some, Option.map_some, Nat.div_add_mod, UInt8.ofNat_toNat]

theorem length_hexText (bytes : List UInt8) : (hexText bytes).length = 2 * bytes.length := by
  induction bytes with
  | nil => rfl
  | cons byte rest ih =>
      rw [hexText, List.flatMap_cons, List.length_append]
      change 2 + (hexText rest).length = _
      rw [ih, List.length_cons]
      ring

theorem hexDigitValue_of_mem_hexText {bytes : List UInt8} {unit : ℕ}
    (member : unit ∈ hexText bytes) : hexDigitValue unit ≠ none := by
  obtain ⟨byte, -, digit⟩ := List.mem_flatMap.mp member
  have size := byte.toNat_lt
  rw [List.mem_cons, List.mem_singleton] at digit
  rcases digit with rfl | rfl
  · rw [hexDigitValue_hexDigit _ (by omega)]
    exact Option.some_ne_none _
  · rw [hexDigitValue_hexDigit _ (by omega)]
    exact Option.some_ne_none _

theorem range_of_hexDigitValue {unit : ℕ} (digit : hexDigitValue unit ≠ none) :
    0x30 ≤ unit ∧ unit ≤ 0x39 ∨ 0x41 ≤ unit ∧ unit ≤ 0x5A ∨ 0x61 ≤ unit ∧ unit ≤ 0x7A := by
  have named : digitValue unit ≠ none := fun unnamed => digit (by rw [hexDigitValue, unnamed]; rfl)
  unfold digitValue at named
  split_ifs at named
  · omega
  · omega
  · omega
  · exact absurd rfl named

theorem isSpace_of_hexDigitValue {unit : ℕ} (digit : hexDigitValue unit ≠ none) :
    isSpace unit = false := by
  have range := range_of_hexDigitValue digit
  simp only [isSpace, Bool.or_eq_false_iff, Bool.and_eq_false_iff, beq_eq_false_iff_ne,
    decide_eq_false_iff_not]
  omega

/-- A digit is its own low byte. -/
theorem lowByte_of_hexDigitValue {unit : ℕ} (digit : hexDigitValue unit ≠ none) :
    unit % 256 = unit := by
  have range := range_of_hexDigitValue digit
  omega

theorem hexPairs_hexText (bytes : List UInt8) : hexPairs (hexText bytes) = bytes := by
  induction bytes with
  | nil => rfl
  | cons byte rest ih =>
      change (hexByte _ _).getD 0 :: hexPairs (hexText rest) = _
      rw [hexByte_hexDigit, ih, Option.getD_some]

/-- Printed bytes are read back. -/
theorem hexToBytes_hexText (bytes : List UInt8) : hexToBytes (hexText bytes) = some bytes := by
  rw [hexToBytes, hexPairs_hexText, if_neg]
  rintro (odd | ⟨unit, member, other⟩)
  · rw [length_hexText] at odd
    omega
  · exact hexDigitValue_of_mem_hexText member other

/-- Pairs of digits only are two digits for each byte, and the first reader takes them all. -/
theorem hexPairs_of_digits {hex : Text} (even : hex.length % 2 = 0)
    (digits : ∀ unit ∈ hex, hexDigitValue unit ≠ none) :
    hex.length = 2 * (hexPairs hex).length ∧ bufferFromHex hex = hexPairs hex := by
  induction hex using hexPairs.induct with
  | case1 high low rest ih =>
      rw [List.length_cons, List.length_cons] at even
      obtain ⟨length, same⟩ := ih (by omega) fun unit member =>
        digits unit (List.mem_cons_of_mem _ (List.mem_cons_of_mem _ member))
      have high_digit := digits high (by simp)
      have low_digit := digits low (by simp)
      obtain ⟨h, first⟩ := Option.ne_none_iff_exists'.mp high_digit
      obtain ⟨l, second⟩ := Option.ne_none_iff_exists'.mp low_digit
      have byte : hexByte high low = some (UInt8.ofNat (16 * h + l)) := by
        rw [hexByte, first, second]
        rfl
      constructor
      · rw [hexPairs, List.length_cons, List.length_cons, List.length_cons, length]
        ring
      · simp only [bufferFromHex, hexPairs, lowByte_of_hexDigitValue high_digit,
          lowByte_of_hexDigitValue low_digit, byte, same, Option.getD_some]
  | case2 hex short =>
      cases hex with
      | nil => exact ⟨rfl, rfl⟩
      | cons unit rest =>
          cases rest with
          | nil => cases even
          | cons next rest => exact absurd rfl (short unit next rest)

example : bufferFromHex [0x130, 0x130] = [0] ∧ hexToBytes [0x130, 0x130] = none := by decide

/-- What is read as a whole is hexadecimal, with two digits for each byte. -/
theorem of_hexToBytes {hex : Text} {bytes : List UInt8} (read : hexToBytes hex = some bytes) :
    (∀ unit ∈ hex, hexDigitValue unit ≠ none) ∧ hex.length = 2 * bytes.length ∧
      bufferFromHex hex = bytes := by
  unfold hexToBytes at read
  rw [Option.ite_none_left_eq_some, not_or] at read
  obtain ⟨⟨even, digits⟩, pairs⟩ := read
  push Not at even digits
  cases pairs
  exact ⟨digits, hexPairs_of_digits even digits⟩

/-- An even number of digits is read as a whole. -/
theorem hexToBytes_of_digits {hex : Text} (even : hex.length % 2 = 0)
    (digits : ∀ unit ∈ hex, hexDigitValue unit ≠ none) : hexToBytes hex = some (hexPairs hex) := by
  rw [hexToBytes, if_neg]
  rintro (odd | ⟨unit, member, other⟩)
  · exact odd even
  · exact digits unit member other

/-! ## The number of bytes -/

/-- The number that bytes hold, the most significant first. -/
def bigEndian (bytes : List UInt8) : ℕ :=
  bytes.foldl (fun value byte => 256 * value + byte.toNat) 0

theorem pushDigit_hexDigit (value : ℕ) {n : ℕ} (digit : n < 16) :
    pushDigit 16 value (hexDigit n) = some (16 * value + n) := by
  have read := hexDigitValue_hexDigit n digit
  rw [hexDigitValue, Option.filter_eq_some_iff] at read
  rw [pushDigit, read.1, Option.bind_some, if_pos digit]

/-- Two digits more are a byte more. -/
theorem foldlM_hexText (bytes : List UInt8) (value : ℕ) :
    (hexText bytes).foldlM (pushDigit 16) value =
      some (bytes.foldl (fun value byte => 256 * value + byte.toNat) value) := by
  induction bytes generalizing value with
  | nil => rfl
  | cons byte rest ih =>
      have size := byte.toNat_lt
      have whole : 16 * (16 * value + byte.toNat / 16) + byte.toNat % 16 =
          256 * value + byte.toNat := by omega
      change (hexDigit (byte.toNat / 16) :: hexDigit (byte.toNat % 16) :: hexText rest).foldlM
        (pushDigit 16) value = _
      rw [List.foldlM_cons, pushDigit_hexDigit value (by omega), Option.bind_eq_bind,
        Option.bind_some, List.foldlM_cons, pushDigit_hexDigit _ (by omega), Option.bind_eq_bind,
        Option.bind_some, whole, ih, List.foldl_cons]

/-- The text of at least one byte reads as the number the bytes hold. -/
theorem natural_hexText {bytes : List UInt8} (nonempty : bytes ≠ []) :
    natural 16 (hexText bytes) = some (bigEndian bytes) := by
  cases bytes with
  | nil => exact absurd rfl nonempty
  | cons byte rest => exact foldlM_hexText (byte :: rest) 0

end RiskRail.Javascript
