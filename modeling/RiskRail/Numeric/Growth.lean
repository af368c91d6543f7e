import RiskRail.Numeric.Decimal
import Mathlib.Order.Filter.AtTopBot.Archimedean
import Mathlib.Order.Filter.AtTopBot.Field

/-!
# What grows without bound stays so

Rounding to digits, to places and to whole numbers is monotone and fixes arbitrarily
large numbers, so a value that grows without bound still does when it is rounded, summed
with rounding and handed over as a number.
-/

namespace RiskRail.Numeric

open Filter

variable {arithmetic : Arithmetic}

theorem tendsto_round : Tendsto arithmetic.round atTop atTop := by
  apply arithmetic.monotone.tendsto_atTop_atTop
  intro bound
  obtain ⟨digits, bound_lt⟩ := pow_unbounded_of_one_lt bound (show (1 : ℚ) < 10 by norm_num)
  have shift := arithmetic.round_shift ((1 : ℤ) : ℚ) digits
  rw [arithmetic.round_of_safe 1 (by norm_num), Int.cast_one, one_mul, zpow_natCast] at shift
  exact ⟨10 ^ digits, bound_lt.le.trans shift.ge⟩

theorem tendsto_toDecimalPlaces (places : ℕ) :
    Tendsto (toDecimalPlaces places) atTop atTop := by
  apply (toDecimalPlaces_mono places).tendsto_atTop_atTop
  intro bound
  refine ⟨bound + 1 / 2 * 10 ^ (-(places : ℤ)), ?_⟩
  have error := abs_le.mp (abs_toDecimalPlaces_sub_le places
    (bound + 1 / 2 * 10 ^ (-(places : ℤ))))
  linarith [error.1]

/-- Numbers are read off larger and larger decimals without end. -/
def Arithmetic.NumbersGrow (arithmetic : Arithmetic) : Prop :=
  Tendsto arithmetic.toNumber atTop atTop

theorem numbersGrow_decimalJs : Arithmetic.decimalJs.NumbersGrow := by
  apply Arithmetic.decimalJs.toNumber_monotone.tendsto_atTop_atTop
  intro bound
  obtain ⟨exponent, bound_lt⟩ := pow_unbounded_of_one_lt bound (show (1 : ℚ) < 2 by norm_num)
  have fixed : toDouble (2 ^ exponent) = 2 ^ exponent :=
    roundSig_of_isShort _ (by decide) ⟨1, exponent, by norm_num, by simp⟩
  exact ⟨2 ^ exponent, bound_lt.le.trans fixed.ge⟩

/-- A number as a decimal grows with the number. -/
theorem tendsto_ofNumber_toNumber (readsBack : arithmetic.ReadsBack)
    (grow : arithmetic.NumbersGrow) :
    Tendsto (fun x => arithmetic.ofNumber (arithmetic.toNumber x)) atTop atTop := by
  apply tendsto_atTop_atTop_of_monotone
  · intro x y le
    exact readsBack.ofNumber_mono (arithmetic.toNumber_monotone le)
  · intro bound
    obtain ⟨x, above⟩ := (grow.eventually_gt_atTop (arithmetic.toNumber bound)).exists
    refine ⟨x, ?_⟩
    by_contra below
    have reversed := arithmetic.toNumber_monotone (not_le.mp below).le
    rw [readsBack] at reversed
    exact absurd above reversed.not_gt

/-- What never falls below some number from a point on. -/
def StaysAbove (value : ℚ → ℚ) : Prop :=
  ∃ low, ∀ᶠ x in atTop, low ≤ value x

theorem StaysAbove.const (value : ℚ) : StaysAbove fun _ => value :=
  ⟨value, .of_forall fun _ => le_rfl⟩

theorem StaysAbove.of_tendsto {value : ℚ → ℚ} (grows : Tendsto value atTop atTop) :
    StaysAbove value :=
  ⟨0, grows.eventually_ge_atTop 0⟩

theorem StaysAbove.plus {first second : ℚ → ℚ} (left : StaysAbove first)
    (right : StaysAbove second) :
    StaysAbove fun x => arithmetic.plus (first x) (second x) := by
  obtain ⟨low, left⟩ := left
  obtain ⟨floor, right⟩ := right
  refine ⟨arithmetic.plus low floor, ?_⟩
  filter_upwards [left, right] with x left right
  exact Arithmetic.plus_mono left right

/-- A rounded sum grows if one side does and the other does not sink. -/
theorem tendsto_plus {first second : ℚ → ℚ} (left : StaysAbove first)
    (right : StaysAbove second) (either : Tendsto first atTop atTop ∨ Tendsto second atTop atTop) :
    Tendsto (fun x => arithmetic.plus (first x) (second x)) atTop atTop := by
  apply tendsto_round.comp
  rcases either with grows | grows
  · obtain ⟨low, right⟩ := right
    exact tendsto_atTop_add_right_of_le' atTop low grows right
  · obtain ⟨low, left⟩ := left
    exact tendsto_atTop_add_left_of_le' atTop low left grows

/-- So does a running sum in which one of the terms grows. -/
theorem tendsto_foldl_plus {α : Type} {items : List α} {value : α → ℚ → ℚ} {start : ℚ → ℚ}
    (above : ∀ item ∈ items, StaysAbove (value item)) (start_above : StaysAbove start)
    (either : Tendsto start atTop atTop ∨ ∃ item ∈ items, Tendsto (value item) atTop atTop) :
    Tendsto (fun x => items.foldl (fun sum item => arithmetic.plus sum (value item x)) (start x))
      atTop atTop := by
  induction items generalizing start with
  | nil =>
      rcases either with grows | ⟨item, member, -⟩
      · exact grows
      · cases member
  | cons head rest ih =>
      rw [List.forall_mem_cons] at above
      apply ih above.2 (start_above.plus above.1)
      rcases either with grows | ⟨item, member, grows⟩
      · exact .inl (tendsto_plus start_above above.1 (.inl grows))
      · rcases List.mem_cons.mp member with rfl | later
        · exact .inl (tendsto_plus start_above above.1 (.inr grows))
        · exact .inr ⟨item, later, grows⟩

end RiskRail.Numeric
