import Mathlib.Data.Int.ConditionallyCompleteOrder
import Mathlib.Data.Int.Log
import Mathlib.Data.Rat.Floor
import Mathlib.Tactic.Linarith
import Mathlib.Tactic.FieldSimp

/-!
# Rounding to digits and to places

Arithmetic that keeps a fixed number of significant digits in some base, over
the rationals.  A rounding of rationals to integers gives a rounding to a fixed
place and a rounding to a number of digits.  The rules below are the ones a
proof about rounded arithmetic uses: rounding is monotone, fixes the numbers
that are short enough, and commutes with a shift of the point.
-/

namespace RiskRail.Numeric

/-- A monotone rounding to integers that fixes the integers. -/
structure IntRounding where
  toInt : ℚ → ℤ
  monotone : Monotone toInt
  toInt_intCast : ∀ n : ℤ, toInt n = n

namespace IntRounding

variable (rounding : IntRounding)

theorem toInt_zero : rounding.toInt 0 = 0 := by
  simpa using rounding.toInt_intCast 0

theorem toInt_le {x : ℚ} {n : ℤ} (le : x ≤ n) : rounding.toInt x ≤ n :=
  (rounding.monotone le).trans_eq (rounding.toInt_intCast n)

theorem le_toInt {x : ℚ} {n : ℤ} (le : (n : ℚ) ≤ x) : n ≤ rounding.toInt x :=
  (rounding.toInt_intCast n).symm.trans_le (rounding.monotone le)

theorem abs_toInt_le {x : ℚ} {n : ℤ} (le : |x| ≤ n) : |rounding.toInt x| ≤ n := by
  obtain ⟨lower, upper⟩ := abs_le.mp le
  exact abs_le.mpr ⟨rounding.le_toInt (by push_cast; exact lower), rounding.toInt_le upper⟩

/-- Toward negative infinity. -/
def down : IntRounding where
  toInt x := ⌊x⌋
  monotone := Int.floor_mono
  toInt_intCast := Int.floor_intCast

/-- Toward positive infinity. -/
def up : IntRounding where
  toInt x := ⌈x⌉
  monotone := Int.ceil_mono
  toInt_intCast := Int.ceil_intCast

/-- To the nearest integer, ties away from zero. -/
def halfAway : IntRounding where
  toInt x := if 0 ≤ x then ⌊x + 1 / 2⌋ else ⌈x - 1 / 2⌉
  monotone := by
    intro x y le
    dsimp only
    split
    next nonneg =>
      rw [if_pos (nonneg.trans le)]
      exact Int.floor_mono (by linarith)
    next negative =>
      split
      next nonneg =>
        have lower : ⌈x - 1 / 2⌉ ≤ 0 := Int.ceil_le.mpr (by push_cast; linarith)
        exact lower.trans (Int.floor_nonneg.mpr (by linarith))
      next => exact Int.ceil_mono (by linarith)
  toInt_intCast n := by
    split
    · rw [Int.floor_intCast_add, Int.floor_eq_zero_iff.mpr ⟨by norm_num, by norm_num⟩, add_zero]
    · rw [sub_eq_add_neg, Int.ceil_intCast_add, Int.ceil_eq_zero_iff.mpr ⟨by norm_num, by norm_num⟩,
        add_zero]

/-- To the nearest integer, ties to the even one. -/
def halfEven : IntRounding where
  toInt x :=
    if x - ⌊x⌋ < 1 / 2 ∨ x - ⌊x⌋ = 1 / 2 ∧ ⌊x⌋ % 2 = 0 then ⌊x⌋ else ⌊x⌋ + 1
  monotone := by
    intro x y le
    dsimp only
    rcases (Int.floor_mono le).lt_or_eq with lt | eq
    · split <;> split <;> omega
    · rw [eq]
      split
      next => split <;> omega
      next low =>
        rw [if_neg]
        rintro (below | ⟨tie, even⟩)
        · exact low (.inl (by linarith))
        · rcases (show x - ⌊y⌋ ≤ 1 / 2 by linarith).lt_or_eq with below | same
          · exact low (.inl below)
          · exact low (.inr ⟨same, even⟩)
  toInt_intCast n := by simp

end IntRounding

variable (rounding : IntRounding) {β p : ℕ} {x y : ℚ} {k : ℤ}

/-! ## To a fixed place -/

/-- Round to a multiple of `β ^ k`. -/
def roundTo (β : ℕ) (k : ℤ) (x : ℚ) : ℚ :=
  rounding.toInt (x / (β : ℚ) ^ k) * (β : ℚ) ^ k

private theorem zpow_base_pos (base : 1 < β) (k : ℤ) : 0 < (β : ℚ) ^ k :=
  zpow_pos (by exact_mod_cast (Nat.zero_lt_one.trans base)) k

private theorem zpow_base_ne_zero (base : 1 < β) (k : ℤ) : (β : ℚ) ^ k ≠ 0 :=
  (zpow_base_pos base k).ne'

theorem roundTo_mono (base : 1 < β) (le : x ≤ y) :
    roundTo rounding β k x ≤ roundTo rounding β k y := by
  have unit := zpow_base_pos base k
  refine mul_le_mul_of_nonneg_right ?_ unit.le
  exact_mod_cast rounding.monotone ((div_le_div_iff_of_pos_right unit).mpr le)

@[simp]
theorem roundTo_zero : roundTo rounding β k 0 = 0 := by
  simp [roundTo, rounding.toInt_zero]

theorem roundTo_nonneg (base : 1 < β) (nonneg : 0 ≤ x) : 0 ≤ roundTo rounding β k x := by
  simpa using roundTo_mono rounding (k := k) base nonneg

theorem roundTo_nonpos (base : 1 < β) (nonpos : x ≤ 0) : roundTo rounding β k x ≤ 0 := by
  simpa using roundTo_mono rounding (k := k) base nonpos

/-- A multiple of a larger place is left alone. -/
theorem roundTo_multiple (base : 1 < β) (m : ℤ) {j : ℤ} (le : k ≤ j) :
    roundTo rounding β k (m * (β : ℚ) ^ j) = m * (β : ℚ) ^ j := by
  obtain ⟨n, rfl⟩ := Int.le.dest le
  have nonzero : (β : ℚ) ≠ 0 := by exact_mod_cast (Nat.zero_lt_one.trans base).ne'
  have split : (m : ℚ) * (β : ℚ) ^ (k + n) = ((m * β ^ n : ℤ) : ℚ) * (β : ℚ) ^ k := by
    rw [zpow_add₀ nonzero, zpow_natCast]
    push_cast
    ring
  rw [roundTo, split, mul_div_cancel_right₀ _ (zpow_base_ne_zero base k), rounding.toInt_intCast]

/-! ## Short numbers -/

/-- At most `p` digits in base `β`. -/
def IsShort (β p : ℕ) (x : ℚ) : Prop :=
  ∃ m k : ℤ, |m| < β ^ p ∧ x = m * (β : ℚ) ^ k

/-- The power of the base just beyond the digits is short as well. -/
theorem IsShort.of_abs_le (base : 1 < β) (precision : 0 < p) {m : ℤ} (le : |m| ≤ (β : ℤ) ^ p)
    (k : ℤ) : IsShort β p (m * (β : ℚ) ^ k) := by
  have nonzero : (β : ℚ) ≠ 0 := by exact_mod_cast (Nat.zero_lt_one.trans base).ne'
  have one_lt : (1 : ℤ) < (β : ℤ) ^ p :=
    one_lt_pow₀ (by exact_mod_cast base) precision.ne'
  rcases le.lt_or_eq with lt | eq
  · exact ⟨m, k, lt, rfl⟩
  · have shifted : (β : ℚ) ^ ((p : ℤ) + k) = (β : ℚ) ^ p * (β : ℚ) ^ k := by
      rw [zpow_add₀ nonzero, zpow_natCast]
    rcases abs_eq (by positivity) |>.mp eq with rfl | rfl
    · exact ⟨1, p + k, by simpa using one_lt, by rw [shifted]; push_cast; ring⟩
    · exact ⟨-1, p + k, by simpa using one_lt, by rw [shifted]; push_cast; ring⟩

/-- Rounding a short number to a place leaves it short. -/
theorem IsShort.places (base : 1 < β) (precision : 0 < p) (short : IsShort β p x) (k : ℤ) :
    IsShort β p (roundTo rounding β k x) := by
  obtain ⟨m, j, bound, rfl⟩ := short
  rcases le_or_gt k j with fine | coarse
  · rw [roundTo_multiple rounding base m fine]
    exact ⟨m, j, bound, rfl⟩
  · have unit := zpow_base_pos base k
    have shrink : (β : ℚ) ^ j ≤ (β : ℚ) ^ k :=
      zpow_le_zpow_right₀ (by exact_mod_cast base.le) coarse.le
    refine IsShort.of_abs_le base precision (rounding.abs_toInt_le ?_) k
    rw [abs_div, abs_of_pos unit, div_le_iff₀ unit, abs_mul, abs_of_pos (zpow_base_pos base j)]
    have digits : |(m : ℚ)| ≤ (((β : ℤ) ^ p : ℤ) : ℚ) := by exact_mod_cast bound.le
    exact mul_le_mul digits shrink (zpow_base_pos base j).le (by positivity)

/-! ## To significant digits -/

/-- The place of the last of `p` digits of `x`. -/
def lastPlace (β p : ℕ) (x : ℚ) : ℤ :=
  Int.log β |x| + 1 - p

/-- Round to `p` significant digits in base `β`. -/
def roundSig (β p : ℕ) (x : ℚ) : ℚ :=
  roundTo rounding β (lastPlace β p x) x

@[simp]
theorem roundSig_zero : roundSig rounding β p 0 = 0 :=
  roundTo_zero rounding

theorem roundSig_nonneg (base : 1 < β) (nonneg : 0 ≤ x) : 0 ≤ roundSig rounding β p x :=
  roundTo_nonneg rounding base nonneg

theorem roundSig_nonpos (base : 1 < β) (nonpos : x ≤ 0) : roundSig rounding β p x ≤ 0 :=
  roundTo_nonpos rounding base nonpos

/-- A bound whose last digit stands at a larger place bounds the rounding. -/
theorem roundSig_le (base : 1 < β) {m j : ℤ} (fine : lastPlace β p x ≤ j)
    (le : x ≤ m * (β : ℚ) ^ j) : roundSig rounding β p x ≤ m * (β : ℚ) ^ j :=
  (roundTo_mono rounding base le).trans_eq (roundTo_multiple rounding base m fine)

theorem le_roundSig (base : 1 < β) {m j : ℤ} (fine : lastPlace β p x ≤ j)
    (le : m * (β : ℚ) ^ j ≤ x) : m * (β : ℚ) ^ j ≤ roundSig rounding β p x :=
  (roundTo_multiple rounding base m fine).symm.trans_le (roundTo_mono rounding base le)

/-- Numbers with different numbers of digits before the point are separated by
a power of the base, which both roundings respect. -/
private theorem roundSig_mono_of_pos (base : 1 < β) (precision : 0 < p) (positive : 0 < x)
    (le : x ≤ y) : roundSig rounding β p x ≤ roundSig rounding β p y := by
  have positive' : 0 < y := positive.trans_le le
  rcases (Int.log_mono_right (b := β) positive le).lt_or_eq with fewer | same
  · calc
      roundSig rounding β p x ≤ (1 : ℤ) * (β : ℚ) ^ Int.log β y := by
        refine roundSig_le rounding base ?_ ?_
        · rw [lastPlace, abs_of_pos positive]
          omega
        · rw [Int.cast_one, one_mul]
          exact ((Int.lt_zpow_iff_log_lt base positive).mpr fewer).le
      _ ≤ roundSig rounding β p y := by
        refine le_roundSig rounding base ?_ ?_
        · rw [lastPlace, abs_of_pos positive']
          omega
        · rw [Int.cast_one, one_mul]
          exact Int.zpow_log_le_self base positive'
  · rw [roundSig, roundSig, lastPlace, lastPlace, abs_of_pos positive, abs_of_pos positive', same]
    exact roundTo_mono rounding base le

private theorem roundSig_mono_of_neg (base : 1 < β) (precision : 0 < p) (negative : y < 0)
    (le : x ≤ y) : roundSig rounding β p x ≤ roundSig rounding β p y := by
  have negative' : x < 0 := le.trans_lt negative
  rcases (Int.log_mono_right (b := β) (neg_pos.mpr negative) (neg_le_neg le)).lt_or_eq with
    fewer | same
  · calc
      roundSig rounding β p x ≤ (-1 : ℤ) * (β : ℚ) ^ Int.log β (-x) := by
        refine roundSig_le rounding base ?_ ?_
        · rw [lastPlace, abs_of_neg negative']
          omega
        · have power := Int.zpow_log_le_self base (neg_pos.mpr negative')
          push_cast
          linarith
      _ ≤ roundSig rounding β p y := by
        refine le_roundSig rounding base ?_ ?_
        · rw [lastPlace, abs_of_neg negative]
          omega
        · have power := (Int.lt_zpow_iff_log_lt base (neg_pos.mpr negative)).mpr fewer
          push_cast
          linarith
  · rw [roundSig, roundSig, lastPlace, lastPlace, abs_of_neg negative, abs_of_neg negative', same]
    exact roundTo_mono rounding base le

/-- Rounding to significant digits is monotone. -/
theorem roundSig_mono (base : 1 < β) (precision : 0 < p) (le : x ≤ y) :
    roundSig rounding β p x ≤ roundSig rounding β p y := by
  rcases lt_or_ge 0 x with positive | nonpos
  · exact roundSig_mono_of_pos rounding base precision positive le
  · rcases lt_or_ge y 0 with negative | nonneg
    · exact roundSig_mono_of_neg rounding base precision negative le
    · exact (roundSig_nonpos rounding base nonpos).trans (roundSig_nonneg rounding base nonneg)

/-- A number with few digits has none behind them. -/
theorem lastPlace_le (base : 1 < β) {m k : ℤ} (nonzero : m ≠ 0) (bound : |m| < (β : ℤ) ^ p) :
    lastPlace β p (m * (β : ℚ) ^ k) ≤ k := by
  have unit := zpow_base_pos base k
  have nonzeroBase : (β : ℚ) ≠ 0 := by exact_mod_cast (Nat.zero_lt_one.trans base).ne'
  have positive : 0 < |(m : ℚ) * (β : ℚ) ^ k| :=
    abs_pos.mpr (mul_ne_zero (by exact_mod_cast nonzero) unit.ne')
  have size : |(m : ℚ) * (β : ℚ) ^ k| < (β : ℚ) ^ ((p : ℤ) + k) := by
    rw [abs_mul, abs_of_pos unit, zpow_add₀ nonzeroBase, zpow_natCast]
    exact mul_lt_mul_of_pos_right (by exact_mod_cast bound) unit
  have digits := (Int.lt_zpow_iff_log_lt base positive).mp size
  rw [lastPlace]
  omega

/-- A short number is its own rounding. -/
theorem roundSig_of_isShort (base : 1 < β) (short : IsShort β p x) :
    roundSig rounding β p x = x := by
  obtain ⟨m, k, bound, rfl⟩ := short
  rcases eq_or_ne m 0 with rfl | nonzero
  · simp
  · exact roundTo_multiple rounding base m (lastPlace_le base nonzero bound)

/-- A rounding to `p` digits has at most `p` digits. -/
theorem roundSig_isShort (base : 1 < β) (precision : 0 < p) (x : ℚ) :
    IsShort β p (roundSig rounding β p x) := by
  have nonzeroBase : (β : ℚ) ≠ 0 := by exact_mod_cast (Nat.zero_lt_one.trans base).ne'
  have unit := zpow_base_pos base (lastPlace β p x)
  refine IsShort.of_abs_le base precision (rounding.abs_toInt_le ?_) _
  rw [abs_div, abs_of_pos unit, div_le_iff₀ unit]
  have size := (Int.lt_zpow_succ_log_self base |x|).le
  calc
    |x| ≤ (β : ℚ) ^ (Int.log β |x| + 1) := size
    _ = (((β : ℤ) ^ p : ℤ) : ℚ) * (β : ℚ) ^ lastPlace β p x := by
      push_cast
      rw [← zpow_natCast, ← zpow_add₀ nonzeroBase]
      congr 1
      rw [lastPlace]
      omega

/-- A short number with one digit before the point keeps its digits when it is
taken from one. -/
theorem IsShort.one_sub (base : 1 < β) (precision : 0 < p) (short : IsShort β p x)
    (lower : 1 ≤ x) (upper : x < β) : IsShort β p (1 - x) := by
  have nonzeroBase : (β : ℚ) ≠ 0 := by exact_mod_cast (Nat.zero_lt_one.trans base).ne'
  have positive : 0 < x := by linarith
  have unit := zpow_base_pos base (1 - (p : ℤ))
  have noDigits : Int.log β x = 0 := by
    apply le_antisymm
    · exact Int.lt_add_one_iff.mp ((Int.lt_zpow_iff_log_lt base positive).mp (by simpa using upper))
    · exact (Int.zpow_le_iff_le_log base positive).mp (by simpa using lower)
  have fixed := roundSig_of_isShort .down base short
  have place : lastPlace β p x = 1 - p := by
    rw [lastPlace, abs_of_pos positive, noDigits, zero_add]
  rw [roundSig, place, roundTo] at fixed
  generalize IntRounding.down.toInt (x / (β : ℚ) ^ (1 - (p : ℤ))) = n at fixed
  have one_eq : (1 : ℚ) = ((β ^ (p - 1) : ℤ) : ℚ) * (β : ℚ) ^ (1 - (p : ℤ)) := by
    push_cast
    rw [← zpow_natCast, ← zpow_add₀ nonzeroBase, Nat.cast_sub precision]
    simp
  have top_eq : (β : ℚ) = ((β ^ p : ℤ) : ℚ) * (β : ℚ) ^ (1 - (p : ℤ)) := by
    push_cast
    rw [← zpow_natCast, ← zpow_add₀ nonzeroBase]
    simp
  have one_le : (β : ℤ) ^ (p - 1) ≤ n := by
    rw [one_eq, ← fixed] at lower
    exact_mod_cast le_of_mul_le_mul_right lower unit
  have n_lt : n < (β : ℤ) ^ p := by
    rw [top_eq, ← fixed] at upper
    exact_mod_cast lt_of_mul_lt_mul_right upper unit.le
  have power_pos : 0 < (β : ℤ) ^ (p - 1) :=
    pow_pos (by exact_mod_cast Nat.zero_lt_one.trans base) _
  refine ⟨β ^ (p - 1) - n, 1 - p, ?_, ?_⟩
  · rw [abs_lt]
    constructor <;> linarith
  · rw [Int.cast_sub, sub_mul, ← one_eq, fixed]

/-- Rounding commutes with a shift of the point. -/
theorem roundSig_mul_zpow (base : 1 < β) (x : ℚ) (j : ℤ) :
    roundSig rounding β p (x * (β : ℚ) ^ j) = roundSig rounding β p x * (β : ℚ) ^ j := by
  rcases eq_or_ne x 0 with rfl | nonzero
  · simp
  have nonzeroBase : (β : ℚ) ≠ 0 := by exact_mod_cast (Nat.zero_lt_one.trans base).ne'
  have unit := zpow_base_pos base j
  have positive : 0 < |x| := abs_pos.mpr nonzero
  have shifted : |x * (β : ℚ) ^ j| = |x| * (β : ℚ) ^ j := by rw [abs_mul, abs_of_pos unit]
  have log_shift : Int.log β |x * (β : ℚ) ^ j| = Int.log β |x| + j := by
    have positive' : 0 < |x * (β : ℚ) ^ j| := by
      rw [shifted]
      exact mul_pos positive unit
    apply le_antisymm
    · refine Int.lt_add_one_iff.mp ((Int.lt_zpow_iff_log_lt base positive').mp ?_)
      rw [shifted, add_right_comm, zpow_add₀ nonzeroBase]
      exact mul_lt_mul_of_pos_right (Int.lt_zpow_succ_log_self base |x|) unit
    · refine (Int.zpow_le_iff_le_log base positive').mp ?_
      rw [shifted, zpow_add₀ nonzeroBase]
      exact mul_le_mul_of_nonneg_right (Int.zpow_log_le_self base positive) unit.le
  have place : lastPlace β p (x * (β : ℚ) ^ j) = lastPlace β p x + j := by
    rw [lastPlace, lastPlace, log_shift]
    omega
  rw [roundSig, roundSig, place, roundTo, roundTo, zpow_add₀ nonzeroBase,
    mul_div_mul_right _ _ unit.ne', mul_assoc]

end RiskRail.Numeric
