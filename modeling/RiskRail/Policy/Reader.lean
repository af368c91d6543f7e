import RiskRail.Policy.Core
import RiskRail.Stacks.Clarity

/-!
# Reading a policy off chain

`RiskPolicyReader.getPolicy` decodes the answer of `get-risk-policy`.  The library
that turns a Clarity value into a tree of nodes is outside the repository; `CvToJson`
is what the reader relies on of it.
-/

namespace RiskRail.Policy

open RiskRail.Clarity RiskRail.Javascript RiskRail.Stacks Text

/-! ## The reader -/

mutual

/-- `String(value)`, as an error shows it. -/
def display : Json → Text
  | .null => ofString "null"
  | .bool value => ofString (toString value)
  | .number text => text
  | .string value => value
  | .array items => commaJoin (displayItems items)
  | .object _ => ofString "[object Object]"

/-- `join` writes an empty text for a missing value. -/
def displayItems : List Json → List Text
  | [] => []
  | .null :: items => [] :: displayItems items
  | item :: items => display item :: displayItems items

end

/-- The error `toSafeNumber` throws. -/
def unsafeInteger (value : Option Json) : Text :=
  ofString "Expected safe Clarity integer, received " ++
    match value with
    | none => ofString "undefined"
    | some value => display value

/-- A number that is a safe integer, or the error. -/
def safeOr (value : Option Json) : Option ℚ → Except Text ℚ
  | some number => if isSafeInteger number then .ok number else .error (unsafeInteger value)
  | none => .error (unsafeInteger value)

/-- A number, or the digits of a Clarity number, if it is safe. -/
def toSafeNumber (input : Option Json) : Except Text ℚ :=
  let value := input.map unwrapClarity
  match value with
  | some (.number text) => safeOr value (number text)
  -- `replace(/^u/, '')` drops one leading letter.
  | some (.string (0x75 :: text)) => safeOr value (number text)
  | some (.string text) => safeOr value (number text)
  | _ => .error (unsafeInteger value)

/-- `Boolean(value)`. -/
def truthy : Option Json → Bool
  | none => false
  | some .null => false
  | some (.bool value) => value
  | some (.number text) => (number text).any fun value => value != 0
  | some (.string text) => !text.isEmpty
  | some (.array _) => true
  | some (.object _) => true

/-- A policy as the API hands it on. -/
structure ReadPolicy where
  maxRiskScoreBps : ℚ
  minHealthFactorE4 : ℚ
  maxProtocolConcentrationBps : ℚ
  minLiquidityScoreBps : ℚ
  enabled : Bool
  updatedAt : ℚ
  deriving DecidableEq

/-- `getPolicy` after the read-only call has answered. -/
def getPolicy (raw : Json) : Except Text (Option ReadPolicy) :=
  match unwrapClarity raw with
  | .object value => do
      let maxRiskScoreBps ← toSafeNumber (property (ofString "max-risk-score-bps") value)
      let minHealthFactorE4 ← toSafeNumber (property (ofString "min-health-factor-e4") value)
      let maxProtocolConcentrationBps ←
        toSafeNumber (property (ofString "max-protocol-concentration-bps") value)
      let minLiquidityScoreBps ←
        toSafeNumber (property (ofString "min-liquidity-score-bps") value)
      let enabled := truthy ((property (ofString "enabled") value).map unwrapClarity)
      let updatedAt ← toSafeNumber (property (ofString "updated-at") value)
      return some
        { maxRiskScoreBps := maxRiskScoreBps
          minHealthFactorE4 := minHealthFactorE4
          maxProtocolConcentrationBps := maxProtocolConcentrationBps
          minLiquidityScoreBps := minLiquidityScoreBps
          enabled := enabled
          updatedAt := updatedAt }
  | _ => .ok none

/-- The numbers and the flag of a row. -/
def RiskPolicy.read (policy : RiskPolicy) : ReadPolicy where
  maxRiskScoreBps := policy.maxRiskScoreBps.val
  minHealthFactorE4 := policy.minHealthFactorE4.val
  maxProtocolConcentrationBps := policy.maxProtocolConcentrationBps.val
  minLiquidityScoreBps := policy.minLiquidityScoreBps.val
  enabled := policy.enabled
  updatedAt := policy.updatedAt.val

/-! ## The tree of nodes -/

/-- The nodes of a policy's fields. -/
structure PolicyFields (policy : RiskPolicy) (fields : List (Text × Json)) : Prop where
  keys : (fields.map Prod.fst).Nodup
  /-- No field is called `type`. -/
  untyped : property (ofString "type") fields = none
  maxRiskScoreBps : ∃ node, property (ofString "max-risk-score-bps") fields = some node ∧
    Node "uint" (.string (digits policy.maxRiskScoreBps.val)) node
  minHealthFactorE4 : ∃ node, property (ofString "min-health-factor-e4") fields = some node ∧
    Node "uint" (.string (digits policy.minHealthFactorE4.val)) node
  maxProtocolConcentrationBps : ∃ node,
    property (ofString "max-protocol-concentration-bps") fields = some node ∧
      Node "uint" (.string (digits policy.maxProtocolConcentrationBps.val)) node
  minLiquidityScoreBps : ∃ node,
    property (ofString "min-liquidity-score-bps") fields = some node ∧
      Node "uint" (.string (digits policy.minLiquidityScoreBps.val)) node
  enabled : ∃ node, property (ofString "enabled") fields = some node ∧
    Node "bool" (.bool policy.enabled) node
  updatedAt : ∃ node, property (ofString "updated-at") fields = some node ∧
    Node "uint" (.string (digits policy.updatedAt.val)) node

/-- `cvToJSON` on the optional tuple `get-risk-policy` answers with. -/
structure CvToJson where
  encode : Option RiskPolicy → Json
  encode_none : Node "optional" .null (encode none)
  encode_some : ∀ policy, ∃ tuple fields, Node "optional" tuple (encode (some policy)) ∧
    Node "tuple" (.object fields) tuple ∧ PolicyFields policy fields

/-! ## What the reader makes of it -/

/-- A field that holds a `uint` is read exactly while it is a safe integer, and
refused beyond. -/
theorem toSafeNumber_digits (n : ℕ) :
    (n < 2 ^ 53 → toSafeNumber (some (.string (digits n))) = .ok n) ∧
      (2 ^ 53 ≤ n → ∃ text, toSafeNumber (some (.string (digits n))) = .error text) := by
  have plain : toSafeNumber (some (.string (digits n))) =
      safeOr (some (.string (digits n))) (some (Numeric.toDouble n)) := by
    rw [← number_digits]
    cases printed : digits n with
    | nil => exact absurd printed (digits_ne_nil n)
    | cons unit rest =>
        have digit := mem_digits (n := n) (by rw [printed]; exact List.mem_cons_self)
        unfold toSafeNumber
        simp only [Option.map_some, unwrapClarity]
        split
        next text is_number => cases is_number
        next text is_prefixed =>
          cases is_prefixed
          omega
        next text is_string =>
          cases is_string
          rfl
        next not_string => exact absurd rfl (not_string _)
  rw [plain, safeOr]
  constructor
  · intro safe
    rw [Numeric.toDouble_of_safe safe, if_pos (isSafeInteger_of_safe safe)]
  · intro large
    rw [isSafeInteger_toDouble_of_large large, if_neg (by simp)]
    exact ⟨_, rfl⟩

/-- A node of a `uint` field, once unwrapped. -/
theorem unwrapClarity_uint {n : ℕ} {node : Json}
    (is_node : Node "uint" (.string (digits n)) node) :
    unwrapClarity node = .string (digits n) := by
  rw [is_node.unwrap (by decide) (by decide)]
  simp only [unwrapClarity]

/-- Without a policy the reader answers `null`. -/
theorem getPolicy_encode_none (cv : CvToJson) : getPolicy (cv.encode none) = .ok none := by
  have empty : unwrapClarity (cv.encode none) = .null := by
    rw [cv.encode_none.unwrap_optional]
    simp only [unwrapClarity]
  unfold getPolicy
  rw [empty]

/-- What the reader makes of a policy's tree, field by field. -/
theorem getPolicy_encode_some (cv : CvToJson) (policy : RiskPolicy) :
    getPolicy (cv.encode (some policy)) = do
      let maxRiskScoreBps ← toSafeNumber (some (.string (digits policy.maxRiskScoreBps.val)))
      let minHealthFactorE4 ← toSafeNumber (some (.string (digits policy.minHealthFactorE4.val)))
      let maxProtocolConcentrationBps ←
        toSafeNumber (some (.string (digits policy.maxProtocolConcentrationBps.val)))
      let minLiquidityScoreBps ←
        toSafeNumber (some (.string (digits policy.minLiquidityScoreBps.val)))
      let updatedAt ← toSafeNumber (some (.string (digits policy.updatedAt.val)))
      return some ⟨maxRiskScoreBps, minHealthFactorE4, maxProtocolConcentrationBps,
        minLiquidityScoreBps, policy.enabled, updatedAt⟩ := by
  rcases cv.encode_some policy with ⟨tuple, fields, outer, inner, nodes⟩
  rcases unwrapClarity_tuple nodes.keys (by rw [nodes.untyped]; simp) with
    ⟨unwrapped, tuple_eq, lookup⟩
  have root : unwrapClarity (cv.encode (some policy)) = .object unwrapped := by
    rw [outer.unwrap_optional, inner.unwrap (by decide) (by decide), tuple_eq]
  rcases nodes.maxRiskScoreBps with ⟨score, score_eq, score_node⟩
  rcases nodes.minHealthFactorE4 with ⟨health, health_eq, health_node⟩
  rcases nodes.maxProtocolConcentrationBps with ⟨concentration, concentration_eq, conc_node⟩
  rcases nodes.minLiquidityScoreBps with ⟨liquidity, liquidity_eq, liquidity_node⟩
  rcases nodes.enabled with ⟨flag, flag_eq, flag_node⟩
  rcases nodes.updatedAt with ⟨updated, updated_eq, updated_node⟩
  have flag_value : unwrapClarity flag = .bool policy.enabled := by
    rw [flag_node.unwrap (by decide) (by decide)]
    simp only [unwrapClarity]
  have flag_truthy : truthy (some (unwrapClarity (unwrapClarity flag))) = policy.enabled := by
    rw [flag_value]
    simp only [unwrapClarity, truthy]
  unfold getPolicy
  rw [root]
  simp only [lookup, score_eq, health_eq, concentration_eq, liquidity_eq, updated_eq, flag_eq,
    flag_truthy, Option.map_some, unwrapClarity_uint score_node, unwrapClarity_uint health_node,
    unwrapClarity_uint conc_node, unwrapClarity_uint liquidity_node,
    unwrapClarity_uint updated_node]

/-- A policy within its bounds is read exactly while the height of its last write is a
safe integer; beyond that the reader throws. -/
theorem getPolicy_of_inBounds (cv : CvToJson) {policy : RiskPolicy} (bounds : policy.InBounds) :
    (policy.updatedAt.val < 2 ^ 53 → getPolicy (cv.encode (some policy)) = .ok (some policy.read)) ∧
      (2 ^ 53 ≤ policy.updatedAt.val →
        ∃ text, getPolicy (cv.encode (some policy)) = .error text) := by
  have score := (toSafeNumber_digits policy.maxRiskScoreBps.val).1
    (lt_of_le_of_lt bounds.maxRiskScoreBps (by norm_num))
  have health := (toSafeNumber_digits policy.minHealthFactorE4.val).1
    (lt_of_le_of_lt bounds.minHealthFactorE4 (by norm_num))
  have concentration := (toSafeNumber_digits policy.maxProtocolConcentrationBps.val).1
    (lt_of_le_of_lt bounds.maxProtocolConcentrationBps (by norm_num))
  have liquidity := (toSafeNumber_digits policy.minLiquidityScoreBps.val).1
    (lt_of_le_of_lt bounds.minLiquidityScoreBps (by norm_num))
  rw [getPolicy_encode_some, score, health, concentration, liquidity]
  constructor
  · intro safe
    rw [(toSafeNumber_digits policy.updatedAt.val).1 safe]
    rfl
  · intro large
    rcases (toSafeNumber_digits policy.updatedAt.val).2 large with ⟨text, thrown⟩
    rw [thrown]
    exact ⟨text, rfl⟩

end RiskRail.Policy
