import RiskRail.Javascript.Text

/-!
# Bytes in base64url

Three bytes are four digits of six bits each, and a rest of one or two bytes is two or three
digits: there is no padding.  The reader takes either alphabet and skips what is in neither.
-/

namespace RiskRail.Javascript

open Text

/-- A digit of the alphabet for URLs. -/
def base64Digit (n : ℕ) : ℕ :=
  if n < 26 then 0x41 + n
  else if n < 52 then 0x61 + (n - 26)
  else if n < 62 then 0x30 + (n - 52)
  else if n = 62 then 0x2D
  else 0x5F

/-- A digit of either alphabet. -/
def base64Value (unit : ℕ) : Option ℕ :=
  if 0x41 ≤ unit ∧ unit ≤ 0x5A then some (unit - 0x41)
  else if 0x61 ≤ unit ∧ unit ≤ 0x7A then some (unit - 0x61 + 26)
  else if 0x30 ≤ unit ∧ unit ≤ 0x39 then some (unit - 0x30 + 52)
  else if unit = 0x2D ∨ unit = 0x2B then some 62
  else if unit = 0x5F ∨ unit = 0x2F then some 63
  else none

/-- The bits of bytes, six at a time. -/
def sextets : List UInt8 → List ℕ
  | a :: b :: c :: rest =>
      a.toNat / 4 :: (a.toNat % 4 * 16 + b.toNat / 16) :: (b.toNat % 16 * 4 + c.toNat / 64) ::
        c.toNat % 64 :: sextets rest
  | [a, b] => [a.toNat / 4, a.toNat % 4 * 16 + b.toNat / 16, b.toNat % 16 * 4]
  | [a] => [a.toNat / 4, a.toNat % 4 * 16]
  | [] => []

/-- The whole bytes of six bits at a time. -/
def octets : List ℕ → List UInt8
  | a :: b :: c :: d :: rest =>
      UInt8.ofNat (a * 4 + b / 16) :: UInt8.ofNat (b % 16 * 16 + c / 4) ::
        UInt8.ofNat (c % 4 * 64 + d) :: octets rest
  | [a, b, c] => [UInt8.ofNat (a * 4 + b / 16), UInt8.ofNat (b % 16 * 16 + c / 4)]
  | [a, b] => [UInt8.ofNat (a * 4 + b / 16)]
  | _ => []

/-- `toString('base64url')`. -/
def base64Text (bytes : List UInt8) : Text :=
  (sextets bytes).map base64Digit

/-- `Buffer.from(text, 'base64url')`. -/
def bufferFromBase64 (text : Text) : List UInt8 :=
  octets (text.filterMap base64Value)

theorem base64Value_base64Digit : ∀ n < 64, base64Value (base64Digit n) = some n := by
  decide

theorem sextets_lt (bytes : List UInt8) : ∀ n ∈ sextets bytes, n < 64 := by
  induction bytes using sextets.induct with
  | case1 a b c rest ih =>
      have first := a.toNat_lt
      have second := b.toNat_lt
      have third := c.toNat_lt
      simp only [sextets, List.forall_mem_cons]
      refine ⟨?_, ?_, ?_, ?_, ih⟩ <;> omega
  | case2 a b =>
      have first := a.toNat_lt
      have second := b.toNat_lt
      simp only [sextets, List.forall_mem_cons]
      refine ⟨?_, ?_, ?_, by simp⟩ <;> omega
  | case3 a =>
      have first := a.toNat_lt
      simp only [sextets, List.forall_mem_cons]
      refine ⟨?_, ?_, by simp⟩ <;> omega
  | case4 => simp [sextets]

theorem octets_sextets (bytes : List UInt8) : octets (sextets bytes) = bytes := by
  have whole (byte : UInt8) {n : ℕ} (same : n = byte.toNat) : UInt8.ofNat n = byte := by
    rw [same, UInt8.ofNat_toNat]
  induction bytes using sextets.induct with
  | case1 a b c rest ih =>
      have second := b.toNat_lt
      have third := c.toNat_lt
      rw [sextets, octets, ih, whole a (by omega), whole b (by omega), whole c (by omega)]
  | case2 a b =>
      have second := b.toNat_lt
      rw [sextets, octets, whole a (by omega), whole b (by omega)]
  | case3 a => rw [sextets, octets, whole a (by omega)]
  | case4 => rfl

/-- What is printed is read back. -/
theorem bufferFromBase64_base64Text (bytes : List UInt8) :
    bufferFromBase64 (base64Text bytes) = bytes := by
  have read : ∀ digits : List ℕ, (∀ n ∈ digits, n < 64) →
      (digits.map base64Digit).filterMap base64Value = digits := by
    intro digits small
    have same : ∀ n ∈ digits, (base64Value ∘ base64Digit) n = some n := fun n member =>
      base64Value_base64Digit n (small n member)
    rw [List.filterMap_map, List.filterMap_congr same, List.filterMap_some]
  rw [bufferFromBase64, base64Text, read _ (sextets_lt bytes), octets_sextets]

/-- There is no dot among the digits. -/
theorem base64Value_of_mem_base64Text {bytes : List UInt8} {unit : ℕ}
    (member : unit ∈ base64Text bytes) : base64Value unit ≠ none := by
  obtain ⟨n, digit, rfl⟩ := List.mem_map.mp member
  rw [base64Value_base64Digit n (sextets_lt bytes n digit)]
  exact Option.some_ne_none n

theorem base64Text_eq_nil_iff {bytes : List UInt8} : base64Text bytes = [] ↔ bytes = [] := by
  constructor
  · intro empty
    rw [← bufferFromBase64_base64Text bytes, empty]
    rfl
  · rintro rfl
    rfl

end RiskRail.Javascript
