import RiskRail.Javascript.NumberText
import RiskRail.Stacks.Values

/-!
# The risk group of a lending position

The reader of the lending market resolves the risk group of a position and takes its loan to
value limits from it.  `bufferToNumber` reads the text of a decoded limit, and any text of
hexadecimal digits is a hexadecimal number to it, with a `0x` in front or without.
-/

namespace RiskRail.Adapters

open RiskRail.Javascript Text RiskRail.Stacks RiskRail.Numeric

/-! ## Numbers -/

/-- The text behind a `0x`. -/
def hexPart : Text → Text
  | 0x30 :: 0x78 :: hex => hex
  | text => text

/-- `/^[0-9a-fA-F]+$/`. -/
def isHex (text : Text) : Bool :=
  text ≠ [] && text.all fun unit => (hexDigitValue unit).isSome

/-- `none` is `undefined`, and `some none` is a number that is not finite. -/
def bufferToNumber (value : Json) : Option (Option ℚ) :=
  match unwrapClarity value with
  | .number text => some (finiteNumber text)
  | .string text =>
      if isHex (hexPart text) then
        some ((natural 16 (hexPart text)).bind fun n => binary64 n)
      else
        some (finiteNumber text)
  | _ => none

theorem isHex_hexText {bytes : List UInt8} (nonempty : bytes ≠ []) :
    isHex (hexText bytes) = true := by
  rw [isHex, Bool.and_eq_true, decide_eq_true_iff, List.all_eq_true]
  constructor
  · intro empty
    have length := length_hexText bytes
    rw [empty] at length
    exact nonempty (List.length_eq_zero_iff.mp (by simpa using length))
  · intro unit member
    exact Option.isSome_iff_ne_none.mpr (hexDigitValue_of_mem_hexText member)

theorem isHex_digits (n : ℕ) : isHex (digits n) = true := by
  rw [isHex, Bool.and_eq_true, decide_eq_true_iff, List.all_eq_true]
  refine ⟨digits_ne_nil n, fun unit member => ?_⟩
  obtain ⟨lower, upper⟩ := mem_digits member
  have digit : digitValue unit = some (unit - 0x30) := if_pos ⟨lower, upper⟩
  rw [hexDigitValue, digit, Option.filter_some, if_pos (by simp; omega)]
  rfl

/-- Decimal digits have no `x` among them. -/
theorem hexPart_digits (n : ℕ) : hexPart (digits n) = digits n := by
  unfold hexPart
  split
  · rename_i hex printed
    have member : 0x78 ∈ digits n := by
      rw [printed]
      exact List.mem_cons_of_mem _ List.mem_cons_self
    have bounds := mem_digits member
    omega
  · rfl

/-- The bytes of a buffer are read as the number they hold. -/
theorem bufferToNumber_buff {bytes : List UInt8} (nonempty : bytes ≠ []) :
    bufferToNumber (plain (.buff bytes)) = some (binary64 (bigEndian bytes)) := by
  have hex : hexPart (buffText bytes) = hexText bytes := rfl
  rw [plain, bufferToNumber, unwrapClarity_string]
  simp only [hex, isHex_hexText nonempty, natural_hexText nonempty, if_true, Option.bind_some]

/-- A buffer without bytes is read as `NaN`. -/
theorem bufferToNumber_buff_nil : bufferToNumber (plain (.buff [])) = some none := by
  rw [plain, bufferToNumber, unwrapClarity_string]
  rfl

/-- The decimal digits of an integer are read as hexadecimal ones. -/
theorem bufferToNumber_uint (n : ℕ) :
    bufferToNumber (plain (.uint n)) =
      some (binary64 (Nat.ofDigitChars 16 (Nat.toDigits 10 n) 0 : ℕ)) := by
  rw [plain, uintText, bufferToNumber, unwrapClarity_string]
  simp only [hexPart_digits, isHex_digits, natural_digits_base (by decide : 10 ≤ 16), if_true,
    Option.bind_some]

/-! ## The risk group -/

/-- The risk parameters of a mask; a figure is absent, or read as no number. -/
structure ZestRiskGroup where
  mask : Text
  borrowLtvBps : Option (Option ℚ) := none
  partialLiquidationLtvBps : Option (Option ℚ) := none
  fullLiquidationLtvBps : Option (Option ℚ) := none
  liquidationPenaltyMinBps : Option (Option ℚ) := none
  liquidationPenaltyMaxBps : Option (Option ℚ) := none
deriving DecidableEq

/-- It throws where there is no tuple. -/
def asRecord (value : Json) : Option (List (Text × Json)) :=
  match unwrapClarity value with
  | .object fields => some fields
  | _ => none

/-- `getRiskGroup`, on what `resolve` answers for the mask. -/
def getRiskGroup (mask : Text) (raw : Json) : Option ZestRiskGroup :=
  let response := unwrapClarityResponse raw
  if !response.ok then some { mask := mask }
  else
    (response.value.bind asRecord).map fun tuple =>
      let limit (key : String) := (property (ofString key) tuple).bind bufferToNumber
      { mask := mask
        borrowLtvBps := limit "LTV-BORROW"
        partialLiquidationLtvBps := limit "LTV-LIQ-PARTIAL"
        fullLiquidationLtvBps := limit "LTV-LIQ-FULL"
        liquidationPenaltyMinBps := limit "LIQ-PENALTY-MIN"
        liquidationPenaltyMaxBps := limit "LIQ-PENALTY-MAX" }

/-- The thresholds of a risk group. -/
inductive Threshold where
  | borrow
  | partialLiquidation
  | fullLiquidation
deriving DecidableEq

namespace Threshold

/-- The field of the answer that holds the threshold. -/
def key : Threshold → String
  | .borrow => "LTV-BORROW"
  | .partialLiquidation => "LTV-LIQ-PARTIAL"
  | .fullLiquidation => "LTV-LIQ-FULL"

/-- What is stored of it. -/
def stored : Threshold → ZestRiskGroup → Option (Option ℚ)
  | .borrow => ZestRiskGroup.borrowLtvBps
  | .partialLiquidation => ZestRiskGroup.partialLiquidationLtvBps
  | .fullLiquidation => ZestRiskGroup.fullLiquidationLtvBps

end Threshold

/-- A field of a tuple. -/
def field (key : String) (fields : List (FieldName × ClarityValue)) : Option ClarityValue :=
  (fields.find? fun field => field.1.text = ofString key).map Prod.snd

theorem property_plainFields (key : String) (fields : List (FieldName × ClarityValue)) :
    property (ofString key) (plainFields fields) = (field key fields).map plain := by
  rw [plainFields_eq]
  unfold property field
  rw [List.find?_map, Option.map_map, Option.map_map]
  rfl

/-- The answer of `resolve`: none of its fields is called `type`. -/
def Untyped (fields : List (FieldName × ClarityValue)) : Prop :=
  ∀ field ∈ fields, field.1.text ≠ ofString "type"

/-- The tuple is unwrapped once more, and keeps its fields. -/
theorem asRecord_plain {fields : List (FieldName × ClarityValue)} (untyped : Untyped fields) :
    asRecord (plain (.tuple fields)) = some (unwrapFields (plainFields fields)) := by
  have no_type (type : Text) :
      property (ofString "type") (plainFields fields) ≠ some (.string type) := by
    intro typed
    rw [property_plainFields, Option.map_eq_some_iff] at typed
    obtain ⟨value, found, -⟩ := typed
    obtain ⟨named, is_named, -⟩ := Option.map_eq_some_iff.mp found
    exact untyped named (List.mem_of_find?_eq_some is_named)
      (by simpa using List.find?_some is_named)
  have named : ∀ field ∈ unwrapFields (plainFields fields), arrayIndex field.1 = none := by
    rw [unwrapFields_eq, plainFields_eq, List.map_map, List.forall_mem_map]
    exact fun field _ => field.1.arrayIndex_eq_none
  rw [asRecord, plain, unwrapClarity_untyped no_type, ownFields_of_names named]

/-- What a group stores of a threshold, its field of the answer decides. -/
theorem getRiskGroup_cvToJSON (parameters : ClarityValue → Text) (mask : Text)
    {fields : List (FieldName × ClarityValue)} (untyped : Untyped fields) :
    ∃ group, getRiskGroup mask (cvToJSON parameters (.ok (.tuple fields))) = some group ∧
      ∀ threshold : Threshold, threshold.stored group =
        (field threshold.key fields).bind fun value =>
          bufferToNumber (unwrapClarity (plain value)) := by
  have limit (key : String) :
      (property (ofString key) (unwrapFields (plainFields fields))).bind bufferToNumber =
        (field key fields).bind fun value => bufferToNumber (unwrapClarity (plain value)) := by
    rw [property_unwrapFields, property_plainFields]
    cases field key fields <;> rfl
  rw [getRiskGroup, unwrapClarityResponse_cvToJSON]
  simp only [ClarityValue.isErr, Bool.not_false, Bool.not_true, Bool.false_eq_true, if_false,
    Option.bind_some]
  rw [plain, asRecord_plain untyped]
  refine ⟨_, rfl, fun threshold => ?_⟩
  cases threshold <;> exact limit _

/-! ## Face value -/

/-- The value stands for the number: its bytes hold it, or it is the number. -/
inductive Holds : ClarityValue → ℕ → Prop where
  | buff (bytes : List UInt8) : Holds (.buff bytes) (bigEndian bytes)
  | uint (n : ℕ) : Holds (.uint n) n

/-- A buffer with a byte at least, or an integer of a single digit. -/
def Legible : ClarityValue → Prop
  | .buff bytes => bytes ≠ []
  | .uint n => n < 10
  | _ => False

instance : (value : ClarityValue) → Decidable (Legible value)
  | .buff bytes => inferInstanceAs (Decidable (bytes ≠ []))
  | .uint n => inferInstanceAs (Decidable (n < 10))
  | .int _ | .bool _ | .stringAscii _ | .stringUtf8 _ | .principal _ | .tuple _ | .list _ | .none |
    .some _ | .ok _ | .err _ => inferInstanceAs (Decidable False)

theorem unwrapClarity_buff (bytes : List UInt8) :
    unwrapClarity (plain (.buff bytes)) = plain (.buff bytes) := by
  rw [plain, unwrapClarity_string]

theorem unwrapClarity_uint (n : ℕ) : unwrapClarity (plain (.uint n)) = plain (.uint n) := by
  rw [plain, unwrapClarity_string]

theorem bufferToNumber_eq_iff {value : ClarityValue} {n : ℕ} (holds : Holds value n)
    (safe : n < 2 ^ 53) :
    bufferToNumber (unwrapClarity (plain value)) = some (some (n : ℚ)) ↔ Legible value := by
  cases holds with
  | buff bytes =>
      rw [unwrapClarity_buff]
      rcases eq_or_ne bytes [] with rfl | nonempty
      · rw [bufferToNumber_buff_nil]
        simp [Legible]
      · rw [bufferToNumber_buff nonempty, Option.some_inj, binary64_natCast_eq_iff safe]
        exact iff_of_true rfl nonempty
  | uint =>
      rw [unwrapClarity_uint, bufferToNumber_uint, Option.some_inj, binary64_natCast_eq_iff safe,
        ofDigitChars_eq_iff (by decide)]
      rfl

/-- A threshold that holds a safe integer is stored as that number if and only if it is a
buffer with a byte at least or an integer of a single digit. -/
theorem thresholds_at_face_value_iff (parameters : ClarityValue → Text) (mask : Text)
    {fields : List (FieldName × ClarityValue)} (untyped : Untyped fields) :
    ∃ group, getRiskGroup mask (cvToJSON parameters (.ok (.tuple fields))) = some group ∧
      ∀ (threshold : Threshold) (value : ClarityValue) (n : ℕ),
        field threshold.key fields = some value → Holds value n → n < 2 ^ 53 →
        (threshold.stored group = some (some (n : ℚ)) ↔ Legible value) := by
  obtain ⟨group, resolved, stored⟩ := getRiskGroup_cvToJSON parameters mask untyped
  refine ⟨group, resolved, ?_⟩
  intro threshold value n found holds safe
  rw [stored threshold, found, Option.bind_some]
  exact bufferToNumber_eq_iff holds safe

/-- A borrow limit in two bytes, one for liquidation as an integer and one without a byte. -/
def mixedLimits : List (FieldName × ClarityValue) :=
  [(⟨ofString "LTV-BORROW", by decide⟩, .buff [0x17, 0x70]),
    (⟨ofString "LTV-LIQ-PARTIAL", by decide⟩, .uint 7000),
    (⟨ofString "LTV-LIQ-FULL", by decide⟩, .buff [])]

/-- `resolve` answers with the mixed limits. -/
def mixedAnswer : Json :=
  cvToJSON (fun _ => []) (.ok (.tuple mixedLimits))

theorem untyped_mixedLimits : Untyped mixedLimits := by
  intro field member
  revert field
  decide

theorem thresholds_at_face_value_mixed :
    ∃ group, getRiskGroup (ofString "123") mixedAnswer = some group ∧
      group.borrowLtvBps = some (some ((6000 : ℕ) : ℚ)) ∧
      group.partialLiquidationLtvBps ≠ some (some ((7000 : ℕ) : ℚ)) := by
  obtain ⟨group, resolved, stored⟩ :=
    thresholds_at_face_value_iff (fun _ => []) (ofString "123") untyped_mixedLimits
  have borrow := stored .borrow _ 6000 rfl (.buff [0x17, 0x70]) (by decide)
  have liquidation := stored .partialLiquidation _ 7000 rfl (.uint 7000) (by decide)
  refine ⟨group, resolved, borrow.mpr (by decide), fun same => ?_⟩
  exact absurd (liquidation.mp same) (by decide)

/-- Seventy percent are stored as more than two hundred and eighty, and the zero of a buffer
without bytes as `NaN`. -/
theorem mixed_limits_misread :
    Holds (.uint 7000) 7000 ∧ Holds (.buff []) 0 ∧
      ∃ group, getRiskGroup (ofString "123") mixedAnswer = some group ∧
        group.partialLiquidationLtvBps = some (some ((28672 : ℕ) : ℚ)) ∧
        group.fullLiquidationLtvBps = some none := by
  obtain ⟨group, resolved, stored⟩ :=
    getRiskGroup_cvToJSON (fun _ => []) (ofString "123") untyped_mixedLimits
  have liquidation : group.partialLiquidationLtvBps =
      bufferToNumber (unwrapClarity (plain (.uint 7000))) := stored .partialLiquidation
  have full : group.fullLiquidationLtvBps =
      bufferToNumber (unwrapClarity (plain (.buff []))) := stored .fullLiquidation
  refine ⟨.uint 7000, .buff [], group, resolved, ?_, ?_⟩
  · rw [liquidation, unwrapClarity_uint, bufferToNumber_uint, Option.some_inj,
      binary64_natCast_eq_iff (by decide)]
    decide
  · rw [full, unwrapClarity_buff, bufferToNumber_buff_nil]

end RiskRail.Adapters
