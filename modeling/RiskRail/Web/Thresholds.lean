import RiskRail.Alerts.Email
import RiskRail.Api.Requests
import RiskRail.Javascript.Fixed

/-!
# Thresholds of alert rules

A threshold is typed as a decimal number, stored as a whole number and shown as a decimal
number again.  What is typed is stored exactly, and showing it loses nothing if and only if it
has no more decimals than are shown.
-/

namespace RiskRail.Web

open RiskRail.Alerts RiskRail.Alerts.Email RiskRail.Api RiskRail.Javascript RiskRail.Numeric
open RiskRail.Auth.Bearer (Id)
open RiskRail.Javascript.Text RiskRail.Relational

/-! ## Typed and shown -/

/-- `(value / divisor).toFixed(places)`. -/
def quotientText (value : ℚ) (divisor places : ℕ) : Text :=
  match binary64 (value / divisor) with
  | some quotient => toFixed places quotient
  | none => ofString (if value < 0 then "-Infinity" else "Infinity")

/-- A figure comes as text or as a number. -/
def formatMetric (metric : String) (raw : Text ⊕ ℚ) : Text :=
  let printed := raw.elim id numberText
  match raw.elim finiteNumber some with
  | none => printed
  | some value =>
      if metric = "healthFactorE4" then quotientText value 10000 2
      else if metric = "riskScoreBps" then quotientText value 100 1 ++ ofString "/100"
      else if "Bps".toList.isSuffixOf metric.toList then quotientText value 100 2 ++ ofString "%"
      else printed

/-- Text that is no finite number is left to the API to refuse. -/
def toStoredThreshold (metric : Metric) (input : Text) : Text :=
  match finiteNumber input with
  | none => input
  | some value =>
      if metric = .healthFactorE4 then roundedText value 10000 else roundedText value 100

/-! ## Units -/

/-- What one unit of the typed number is stored as. -/
def scale : Metric → ℕ
  | .healthFactorE4 => 10000
  | _ => 100

/-- The decimals that are shown. -/
def places : Metric → ℕ
  | .riskScoreBps => 1
  | _ => 2

/-- What one unit of the last decimal that is shown is stored as. -/
def step : Metric → ℕ
  | .healthFactorE4 => 100
  | .riskScoreBps => 10
  | _ => 1

/-- What is printed behind a figure. -/
def unit : Metric → String
  | .healthFactorE4 => ""
  | .riskScoreBps => "/100"
  | _ => "%"

theorem step_mul (metric : Metric) : step metric * 10 ^ places metric = scale metric := by
  cases metric <;> rfl

theorem step_pos (metric : Metric) : 0 < step metric := by
  cases metric <;> decide

theorem step_le (metric : Metric) : step metric ≤ 100 := by
  cases metric <;> decide

theorem scale_pos (metric : Metric) : 0 < scale metric := by
  cases metric <;> decide

theorem scale_le (metric : Metric) : scale metric ≤ 2 ^ 20 := by
  cases metric <;> decide

theorem places_le (metric : Metric) : places metric ≤ 6 := by
  cases metric <;> decide

theorem toStoredThreshold_of_read {metric : Metric} {input : Text} {value : ℚ}
    (read : finiteNumber input = some value) :
    toStoredThreshold metric input = roundedText value (scale metric) := by
  rw [toStoredThreshold, read]
  cases metric <;> rfl

theorem formatMetric_of_read {metric : Metric} {raw : Text} {value : ℚ}
    (read : finiteNumber raw = some value) :
    formatMetric (metricName metric) (.inl raw) =
      quotientText value (scale metric) (places metric) ++ ofString (unit metric) := by
  rw [formatMetric, Sum.elim_inl, Sum.elim_inl, read]
  cases metric with
  | healthFactorE4 => exact (List.append_nil _).symm
  | riskScoreBps | liquidationDistanceBps | protocolConcentrationBps | assetConcentrationBps
  | liquidityScoreBps | capitalAccessibilityBps => rfl

/-! ## Stored thresholds -/

theorem isDecimal_digits (k : ℕ) : isDecimal (digits k) = true := by
  have digit : ∀ unit ∈ digits k, isDecimalDigit unit = true := fun _ => isDecimalDigit_of_mem
  obtain ⟨first, rest, printed⟩ := List.exists_cons_of_ne_nil (digits_ne_nil k)
  rw [isDecimal, List.takeWhile_eq_self_iff.mpr digit, List.dropWhile_eq_nil_iff.mpr digit,
    printed]
  rfl

theorem finiteNumber_digits {k : ℕ} (safe : k < 2 ^ 53) :
    finiteNumber (digits k) = some (k : ℚ) := by
  have bounded : |(k : ℤ)| < 2 ^ 53 := by
    rw [Nat.abs_cast]
    exact_mod_cast safe
  have double : IsBinary64 (k : ℚ) := by exact_mod_cast isBinary64_intCast bounded
  rw [← numberText_natCast safe]
  exact finiteNumber_numberText double

/-- The double of `k / scale` is stored as `k`. -/
theorem toStoredThreshold_of_typed {metric : Metric} {input : Text} {k : ℕ} (small : k ≤ 2 ^ 48)
    (typed : finiteNumber input = binary64 (k / scale metric)) :
    toStoredThreshold metric input = digits k := by
  have size : k ≤ 2 ^ 48 * scale metric :=
    small.trans (Nat.le_mul_of_pos_right _ (scale_pos metric))
  obtain ⟨value, read, -⟩ :=
    exists_binary64 (ordinary_div (scale_pos metric) (scale_le metric) size)
  rw [toStoredThreshold_of_read (typed.trans read)]
  exact roundedText_of_binary64 (scale_pos metric) (scale_le metric) (scale_pos metric) read rfl
    small

/-- A number with the decimals that are shown is a whole number of steps. -/
theorem div_places (metric : Metric) (n : ℕ) :
    (n : ℚ) / 10 ^ places metric = (n * step metric : ℕ) / scale metric := by
  have steps : (step metric : ℚ) ≠ 0 := by exact_mod_cast (step_pos metric).ne'
  rw [← step_mul metric]
  push_cast
  rw [mul_comm (step metric : ℚ), mul_div_mul_right _ _ steps]

/-- What is shown, typed again. -/
theorem toStoredThreshold_fixedText {metric : Metric} {n : ℕ} (small : n * step metric ≤ 2 ^ 48) :
    toStoredThreshold metric (fixedText (places metric) n) = digits (n * step metric) := by
  apply toStoredThreshold_of_typed small
  rw [finiteNumber_fixedText, div_places]

theorem quotient_bounds {k d : ℕ} {value : ℚ} (positive : 0 < d)
    (close : |value - k / d| ≤ halfUlp * |(k / d : ℚ)|) : 0 ≤ value ∧ value * d ≤ 2 * k := by
  have divisor : (0 : ℚ) < d := by exact_mod_cast positive
  have nonneg : (0 : ℚ) ≤ k / d := by positivity
  have share : halfUlp ≤ 1 := zpow_le_one_of_nonpos₀ (by norm_num) (by norm_num)
  rw [abs_of_nonneg nonneg, abs_le] at close
  have within : halfUlp * (k / d) ≤ 1 * (k / d) := mul_le_mul_of_nonneg_right share nonneg
  refine ⟨by linarith [close.1], ?_⟩
  rw [← le_div_iff₀ divisor, mul_div_assoc]
  linarith [close.2]

/-- What is shown of a stored number is stored as that number again if and only if it is a whole
number of steps. -/
theorem shown_threshold (metric : Metric) {k : ℕ} (small : k ≤ 2 ^ 40) :
    ∃ shown, quotientText k (scale metric) (places metric) = shown ∧
      (toStoredThreshold metric shown = digits k ↔ step metric ∣ k) := by
  have size : k ≤ 2 ^ 48 * scale metric := by
    have positive := scale_pos metric
    nlinarith
  obtain ⟨value, read, close⟩ :=
    exists_binary64 (ordinary_div (scale_pos metric) (scale_le metric) size)
  refine ⟨_, rfl, ?_⟩
  unfold quotientText
  rw [read]
  dsimp only
  constructor
  · intro stored
    obtain ⟨nonneg, below⟩ := quotient_bounds (scale_pos metric) close
    have bound : (k : ℚ) ≤ 2 ^ 40 := by exact_mod_cast small
    have whole : (1 : ℚ) ≤ scale metric := by exact_mod_cast scale_pos metric
    have limit : value ≤ 2 ^ 41 := by nlinarith
    obtain ⟨n, printed, near⟩ := toFixed_of_nonneg (places metric) nonneg
      (limit.trans_lt (by norm_num))
    have within : n * step metric ≤ 2 ^ 48 := by
      have few : (step metric : ℚ) ≤ 100 := by exact_mod_cast step_le metric
      have scaled : (n : ℚ) * step metric ≤ 2 ^ 48 :=
        calc
          (n : ℚ) * step metric ≤ (value * 10 ^ places metric + 1 / 2) * step metric :=
            mul_le_mul_of_nonneg_right near (step metric).cast_nonneg
          _ = value * (step metric * 10 ^ places metric : ℕ) + step metric / 2 := by
            push_cast
            ring
          _ = value * scale metric + step metric / 2 := by rw [step_mul]
          _ ≤ 2 ^ 48 := by linarith
      exact_mod_cast scaled
    rw [printed, toStoredThreshold_fixedText within] at stored
    exact ⟨n, (digits_injective stored).symm.trans (Nat.mul_comm _ _)⟩
  · rintro ⟨n, rfl⟩
    have steps : (n : ℚ) / 10 ^ places metric = (step metric * n : ℕ) / scale metric := by
      rw [div_places, Nat.mul_comm]
    rw [← steps] at read
    have fewer : n ≤ step metric * n := Nat.le_mul_of_pos_left n (step_pos metric)
    rw [toFixed_of_binary64 (places_le metric) (by omega) read,
      toStoredThreshold_fixedText (by rw [Nat.mul_comm]; omega), Nat.mul_comm]

/-! ## From the form to the worker and back -/

end RiskRail.Web
