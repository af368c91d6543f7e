import RiskRail.Javascript.Utf8

/-!
# Reading UTF-8

`Buffer.toString` reads bytes as scalar values and has U+FFFD for what is none, one for each
longest part that could have become a scalar value.  It reads what `TextEncoder` writes.
-/

namespace RiskRail.Javascript

open Text

/-- What is left of a scalar value: the number of its bytes, the bits that were read, and the
bounds of its next byte. -/
structure Pending where
  needed : ℕ
  code : ℕ
  lower : ℕ
  upper : ℕ

/-- No sequence is open. -/
def Pending.start : Pending where
  needed := 0
  code := 0
  lower := 0x80
  upper := 0xBF

/-- A byte that a scalar value begins with. -/
def leadByte (byte : ℕ) : Text × Pending :=
  if byte < 0x80 then ([byte], .start)
  else if 0xC2 ≤ byte ∧ byte ≤ 0xDF then ([], ⟨1, byte - 0xC0, 0x80, 0xBF⟩)
  else if 0xE0 ≤ byte ∧ byte ≤ 0xEF then
    ([], ⟨2, byte - 0xE0, if byte = 0xE0 then 0xA0 else 0x80, if byte = 0xED then 0x9F else 0xBF⟩)
  else if 0xF0 ≤ byte ∧ byte ≤ 0xF4 then
    ([], ⟨3, byte - 0xF0, if byte = 0xF0 then 0x90 else 0x80, if byte = 0xF4 then 0x8F else 0xBF⟩)
  else ([0xFFFD], .start)

/-- What a byte gives, and what is open after it. -/
def pushByte (pending : Pending) (byte : ℕ) : Text × Pending :=
  if pending.needed = 0 then leadByte byte
  else if pending.lower ≤ byte ∧ byte ≤ pending.upper then
    let code := pending.code * 64 + (byte - 0x80)
    if pending.needed = 1 then (ofChar (Char.ofNat code), .start)
    else ([], ⟨pending.needed - 1, code, 0x80, 0xBF⟩)
  else (0xFFFD :: (leadByte byte).1, (leadByte byte).2)

/-- The text of the bytes after an open sequence. -/
def decodeFrom (pending : Pending) : List UInt8 → Text
  | [] => if pending.needed = 0 then [] else [0xFFFD]
  | byte :: rest =>
      (pushByte pending byte.toNat).1 ++ decodeFrom (pushByte pending byte.toNat).2 rest

/-- `toString('utf8')`. -/
def decode (bytes : List UInt8) : Text :=
  decodeFrom .start bytes

section Bytes

variable {n : ℕ} (byte : n < 256) (rest : List UInt8)
include byte

theorem decodeFrom_lead :
    decodeFrom .start (UInt8.ofNat n :: rest) =
      (leadByte n).1 ++ decodeFrom (leadByte n).2 rest := by
  rw [decodeFrom, UInt8.toNat_ofNat_of_lt' byte]
  rfl

variable {needed code lower upper : ℕ} (within : lower ≤ n ∧ n ≤ upper)
include within

theorem decodeFrom_more :
    decodeFrom ⟨needed + 2, code, lower, upper⟩ (UInt8.ofNat n :: rest) =
      decodeFrom ⟨needed + 1, code * 64 + (n - 0x80), 0x80, 0xBF⟩ rest := by
  rw [decodeFrom, UInt8.toNat_ofNat_of_lt' byte, pushByte, if_neg (by simp), if_pos within,
    if_neg (by simp)]
  rfl

theorem decodeFrom_last :
    decodeFrom ⟨1, code, lower, upper⟩ (UInt8.ofNat n :: rest) =
      ofChar (Char.ofNat (code * 64 + (n - 0x80))) ++ decodeFrom .start rest := by
  rw [decodeFrom, UInt8.toNat_ofNat_of_lt' byte, pushByte, if_neg (by simp), if_pos within,
    if_pos rfl]

end Bytes

/-- The bytes of a scalar value are read as it. -/
theorem decodeFrom_utf8EncodeChar (char : Char) (rest : List UInt8) :
    decodeFrom .start (String.utf8EncodeChar char ++ rest) =
      ofChar char ++ decodeFrom .start rest := by
  have valid : char.toNat < 0xD800 ∨ 0xDFFF < char.toNat ∧ char.toNat < 0x110000 := char.valid
  have read {n : ℕ} (same : n = char.toNat) : Char.ofNat n = char := by
    rw [same, Char.ofNat_toNat]
  unfold String.utf8EncodeChar
  rw [show char.val.toNat = char.toNat from rfl]
  generalize value : char.toNat = v at *
  dsimp only
  split_ifs with one two three
  · rw [List.singleton_append, decodeFrom_lead (by omega), leadByte, if_pos (by omega), ofChar,
      value, if_pos (by omega)]
  · rw [List.cons_append, List.singleton_append, decodeFrom_lead (by omega), leadByte,
      if_neg (by omega), if_pos (by omega), List.nil_append,
      decodeFrom_last (by omega) _ (by omega), read (by omega)]
  · rw [List.cons_append, List.cons_append, List.singleton_append, decodeFrom_lead (by omega),
      leadByte, if_neg (by omega), if_neg (by omega), if_pos (by omega), List.nil_append,
      decodeFrom_more (by omega) _ (by split <;> split <;> omega),
      decodeFrom_last (by omega) _ (by omega), read (by omega)]
  · rw [List.cons_append, List.cons_append, List.cons_append, List.singleton_append,
      decodeFrom_lead (by omega), leadByte, if_neg (by omega), if_neg (by omega),
      if_neg (by omega), if_pos (by omega), List.nil_append,
      decodeFrom_more (by omega) _ (by split <;> split <;> omega),
      decodeFrom_more (by omega) _ (by omega), decodeFrom_last (by omega) _ (by omega),
      read (by omega)]

theorem decode_flatMap (chars : List Char) :
    decode (chars.flatMap String.utf8EncodeChar) = chars.flatMap ofChar := by
  unfold decode
  induction chars with
  | nil => rfl
  | cons char chars ih =>
      rw [List.flatMap_cons, List.flatMap_cons, decodeFrom_utf8EncodeChar, ih]

/-- The bytes of a string in UTF-8. -/
def utf8Bytes (text : Text) : List UInt8 :=
  (scalars text).flatMap String.utf8EncodeChar

/-- What is written is read back as its scalar values. -/
theorem decode_utf8Bytes (text : Text) :
    decode (utf8Bytes text) = (scalars text).flatMap ofChar :=
  decode_flatMap (scalars text)

theorem utf8Bytes_eq_nil_iff {text : Text} : utf8Bytes text = [] ↔ text = [] := by
  constructor
  · intro empty
    cases text with
    | nil => rfl
    | cons unit rest =>
        have none_left : scalars (unit :: rest) = [] := by
          rw [utf8Bytes, List.flatMap_eq_nil_iff] at empty
          exact List.eq_nil_iff_forall_not_mem.mpr fun char member =>
            String.utf8EncodeChar_ne_nil (empty char member)
        cases rest with
        | nil => cases none_left
        | cons low rest =>
            rw [scalars] at none_left
            split at none_left <;> cases none_left
  · rintro rfl
    rfl

end RiskRail.Javascript
