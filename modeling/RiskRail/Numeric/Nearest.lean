import RiskRail.Numeric.Binary64
import RiskRail.Numeric.Decimal

/-!
# Nearest doubles

Rounding to the nearest double moves a number that is neither huge nor next to zero by a fixed
share of its size at most.  So a quotient of whole numbers that went through a double comes back
when it is multiplied and rounded to a whole number.
-/

namespace RiskRail.Numeric

variable {x y q : ℚ}

theorem abs_halfEven_sub_le (x : ℚ) : |(IntRounding.halfEven.toInt x : ℚ) - x| ≤ 1 / 2 := by
  have below := Int.floor_le x
  have above := Int.lt_floor_add_one x
  simp only [IntRounding.halfEven]
  rw [abs_le]
  split_ifs with down
  · rcases down with near | ⟨tie, -⟩
    · constructor <;> linarith
    · constructor <;> linarith
  · rw [not_or, not_lt] at down
    push_cast
    constructor <;> linarith [down.1]

theorem abs_roundTo_halfEven_sub_le (k : ℤ) (x : ℚ) :
    |roundTo .halfEven 2 k x - x| ≤ 1 / 2 * (2 : ℚ) ^ k := by
  have unit : (0 : ℚ) < (2 : ℚ) ^ k := zpow_pos (by norm_num) k
  have scaled : roundTo .halfEven 2 k x - x =
      ((IntRounding.halfEven.toInt (x / (2 : ℚ) ^ k) : ℚ) - x / (2 : ℚ) ^ k) * (2 : ℚ) ^ k := by
    rw [sub_mul, div_mul_cancel₀ x unit.ne', roundTo]
    norm_num
  rw [scaled, abs_mul, abs_of_pos unit]
  exact mul_le_mul_of_nonneg_right (abs_halfEven_sub_le _) unit.le

/-- The share of a number that its rounding is off by at most. -/
def halfUlp : ℚ :=
  (2 : ℚ) ^ (-53 : ℤ)

theorem halfUlp_pos : 0 < halfUlp :=
  zpow_pos (by norm_num) _

/-- Zero, and what is neither huge nor next to it. -/
def Ordinary (x : ℚ) : Prop :=
  x = 0 ∨ 1 / 2 ^ 60 ≤ |x| ∧ |x| ≤ 2 ^ 60

theorem abs_roundTo_binary64Place_sub_le (ordinary : Ordinary x) :
    |roundTo .halfEven 2 (binary64Place x) x - x| ≤ halfUlp * |x| := by
  rcases ordinary with rfl | ⟨above, -⟩
  · simp
  have positive : 0 < |x| := lt_of_lt_of_le (by norm_num) above
  have place : binary64Place x = lastPlace 2 53 x := by
    apply max_eq_left
    have power : ((2 : ℕ) : ℚ) ^ (-60 : ℤ) = 1 / 2 ^ 60 := by norm_num
    have log := (Int.zpow_le_iff_le_log (R := ℚ) (b := 2) (by decide) positive).mp
      (power.trans_le above)
    rw [lastPlace]
    push_cast
    omega
  have leading : (2 : ℚ) ^ Int.log 2 |x| ≤ |x| := by
    exact_mod_cast Int.zpow_log_le_self (R := ℚ) (b := 2) (by decide) positive
  calc
    |roundTo .halfEven 2 (binary64Place x) x - x| ≤ 1 / 2 * (2 : ℚ) ^ binary64Place x :=
      abs_roundTo_halfEven_sub_le _ x
    _ = halfUlp * (2 : ℚ) ^ Int.log 2 |x| := by
      have half : (1 : ℚ) / 2 = (2 : ℚ) ^ (-1 : ℤ) := by norm_num
      rw [place, lastPlace, halfUlp, half, ← zpow_add₀ (by norm_num), ← zpow_add₀ (by norm_num)]
      congr 1
      push_cast
      ring
    _ ≤ halfUlp * |x| := mul_le_mul_of_nonneg_left leading halfUlp_pos.le

/-- An ordinary number has a nearest double. -/
theorem exists_binary64 (ordinary : Ordinary x) :
    ∃ y, binary64 x = some y ∧ |y - x| ≤ halfUlp * |x| := by
  have close := abs_roundTo_binary64Place_sub_le ordinary
  refine ⟨_, if_pos ?_, close⟩
  have size : |x| ≤ 2 ^ 60 := by
    rcases ordinary with rfl | ⟨-, below⟩
    · norm_num
    · exact below
  have share : halfUlp ≤ 1 := zpow_le_one_of_nonpos₀ (by norm_num) (by norm_num)
  have apart := abs_sub_abs_le_abs_sub (roundTo .halfEven 2 (binary64Place x) x) x
  have reach : |roundTo .halfEven 2 (binary64Place x) x| ≤ 2 ^ 61 := by
    nlinarith [abs_nonneg x]
  exact reach.trans_lt (pow_lt_pow_right₀ (by norm_num) (by norm_num))

theorem abs_binary64_sub_le (ordinary : Ordinary x) (rounded : binary64 x = some y) :
    |y - x| ≤ halfUlp * |x| := by
  obtain ⟨z, found, close⟩ := exists_binary64 ordinary
  cases found.symm.trans rounded
  exact close

/-- Whatever is not huge has a nearest double, next to zero too. -/
theorem exists_binary64_of_abs_le (size : |x| ≤ 2 ^ 60) :
    ∃ y, binary64 x = some y ∧ |y - x| ≤ halfUlp * |x| + 1 / 2 ^ 61 := by
  by_cases ordinary : Ordinary x
  · obtain ⟨y, found, close⟩ := exists_binary64 ordinary
    exact ⟨y, found, close.trans (le_add_of_nonneg_right (by norm_num))⟩
  · have small : |x| < 1 / 2 ^ 60 := by
      by_contra large
      exact ordinary (.inr ⟨not_lt.mp large, size⟩)
    have nonzero : x ≠ 0 := fun zero => ordinary (.inl zero)
    have place : binary64Place x ≤ -60 := by
      have power : (1 : ℚ) / 2 ^ 60 = ((2 : ℕ) : ℚ) ^ (-60 : ℤ) := by norm_num
      have log := (Int.lt_zpow_iff_log_lt (R := ℚ) (b := 2) (by decide)
        (abs_pos.mpr nonzero)).mp (small.trans_eq power)
      rw [binary64Place, lastPlace]
      push_cast
      omega
    have near : |roundTo .halfEven 2 (binary64Place x) x - x| ≤ 1 / 2 ^ 61 := by
      calc
        |roundTo .halfEven 2 (binary64Place x) x - x| ≤ 1 / 2 * (2 : ℚ) ^ binary64Place x :=
          abs_roundTo_halfEven_sub_le _ x
        _ ≤ 1 / 2 * (2 : ℚ) ^ (-60 : ℤ) :=
          mul_le_mul_of_nonneg_left (zpow_le_zpow_right₀ (by norm_num) place) (by norm_num)
        _ = 1 / 2 ^ 61 := by norm_num
    have finite : |roundTo .halfEven 2 (binary64Place x) x| < 2 ^ 1024 := by
      have apart := abs_sub_abs_le_abs_sub (roundTo .halfEven 2 (binary64Place x) x) x
      calc
        |roundTo .halfEven 2 (binary64Place x) x| ≤ 1 / 2 ^ 61 + 1 / 2 ^ 60 := by linarith
        _ < 2 ^ 0 := by norm_num
        _ ≤ 2 ^ 1024 := pow_le_pow_right₀ (by norm_num) (by norm_num)
    exact ⟨_, if_pos finite, near.trans (le_add_of_nonneg_left
      (mul_nonneg halfUlp_pos.le (abs_nonneg x)))⟩

/-! ## Quotients of whole numbers -/

theorem mathRound_eq_of_close {n : ℤ} (close : |x - n| < 1 / 2) : mathRound x = n := by
  rw [abs_lt] at close
  rw [mathRound, Int.floor_eq_iff]
  constructor <;> linarith

section Quotients

variable {n d s : ℕ} (positive : 0 < d) (divisor : d ≤ 2 ^ 20)

include positive divisor in
theorem ordinary_div (small : n ≤ 2 ^ 48 * d) : Ordinary (n / d : ℚ) := by
  have unit : (0 : ℚ) < d := by exact_mod_cast positive
  rcases n.eq_zero_or_pos with rfl | nonzero
  · left
    norm_num
  · right
    rw [abs_of_nonneg (by positivity), div_le_div_iff₀ (by norm_num) unit, div_le_iff₀ unit]
    have large : d ≤ n * 2 ^ 60 := by nlinarith
    constructor
    · rw [one_mul]
      exact_mod_cast large
    · have below : n ≤ 2 ^ 60 * d := by nlinarith
      exact_mod_cast below

include positive divisor in
theorem half_le_of_binary64 (read : binary64 (n / d) = some x) (small : n ≤ 2 ^ 48 * d) :
    (n : ℚ) / d / 2 ≤ x := by
  have close := abs_binary64_sub_le (ordinary_div positive divisor small) read
  have nonneg : (0 : ℚ) ≤ n / d := by positivity
  have share : halfUlp ≤ 1 / 2 := by norm_num [halfUlp]
  rw [abs_of_nonneg nonneg, abs_le] at close
  nlinarith [close.1]

include positive divisor in
/-- A quotient that went through a double is multiplied to almost what it should be. -/
theorem abs_mul_sub_lt (read : binary64 (n / d) = some x) (small : n * s ≤ 2 ^ 48 * d)
    (factor : 0 < s) : |x * s - n * s / d| ≤ 1 / 2 ^ 5 := by
  have unit : (0 : ℚ) < d := by exact_mod_cast positive
  have alone : n ≤ 2 ^ 48 * d := (Nat.le_mul_of_pos_right n factor).trans small
  have close := abs_binary64_sub_le (ordinary_div positive divisor alone) read
  have nonneg : (0 : ℚ) ≤ n / d := by positivity
  have size : (n : ℚ) * s / d ≤ 2 ^ 48 := by
    rw [div_le_iff₀ unit]
    exact_mod_cast small
  have scaled : x * s - n * s / d = (x - n / d) * s := by ring
  rw [scaled, abs_mul, Nat.abs_cast]
  rw [abs_of_nonneg nonneg] at close
  calc
    |x - n / d| * s ≤ halfUlp * (n / d) * s := mul_le_mul_of_nonneg_right close s.cast_nonneg
    _ = halfUlp * (n * s / d) := by ring
    _ ≤ halfUlp * 2 ^ 48 := mul_le_mul_of_nonneg_left size halfUlp_pos.le
    _ = 1 / 2 ^ 5 := by norm_num [halfUlp]

include positive divisor in
/-- Multiplied and rounded to a double, it is still almost what it should be. -/
theorem exists_binary64_mul (read : binary64 (n / d) = some x) (small : n * s ≤ 2 ^ 48 * d)
    (factor : 0 < s) :
    ∃ y, binary64 (x * s) = some y ∧ |y - n * s / d| < 1 / 2 := by
  have unit : (0 : ℚ) < d := by exact_mod_cast positive
  have near := abs_mul_sub_lt positive divisor read small factor
  have alone : n ≤ 2 ^ 48 * d := (Nat.le_mul_of_pos_right n factor).trans small
  have size : (n : ℚ) * s / d ≤ 2 ^ 48 := by
    rw [div_le_iff₀ unit]
    exact_mod_cast small
  have reach : |x * s| ≤ 2 ^ 48 + 1 := by
    have apart := abs_sub_abs_le_abs_sub (x * s) (n * s / d)
    rw [abs_of_nonneg (show (0 : ℚ) ≤ n * s / d by positivity)] at apart
    linarith
  have ordinary : Ordinary (x * s) := by
    rcases n.eq_zero_or_pos with rfl | nonzero
    · left
      rw [Nat.cast_zero, zero_div] at read
      have same := abs_binary64_sub_le (.inl rfl) read
      rw [abs_zero, mul_zero, sub_zero] at same
      rw [abs_nonpos_iff.mp same, zero_mul]
    · right
      refine ⟨?_, reach.trans (by norm_num)⟩
      have share := half_le_of_binary64 positive divisor read alone
      have least : (1 : ℚ) / 2 ^ 20 ≤ n / d := by
        rw [div_le_div_iff₀ (by norm_num) unit, one_mul]
        exact_mod_cast divisor.trans (Nat.le_mul_of_pos_left _ nonzero)
      have whole : (1 : ℚ) ≤ s := by exact_mod_cast factor
      have grown : x ≤ |x * s| := (le_mul_of_one_le_right (by linarith) whole).trans (le_abs_self _)
      calc
        (1 : ℚ) / 2 ^ 60 ≤ 1 / 2 ^ 20 / 2 := by norm_num
        _ ≤ (n : ℚ) / d / 2 := by linarith
        _ ≤ |x * s| := share.trans grown
  obtain ⟨y, found, close⟩ := exists_binary64 ordinary
  refine ⟨y, found, ?_⟩
  have tiny : halfUlp * |x * s| ≤ 1 / 2 ^ 4 :=
    (mul_le_mul_of_nonneg_left reach halfUlp_pos.le).trans (by norm_num [halfUlp])
  calc
    |y - n * s / d| ≤ |y - x * s| + |x * s - n * s / d| := abs_sub_le _ _ _
    _ ≤ 1 / 2 ^ 4 + 1 / 2 ^ 5 := add_le_add (close.trans tiny) near
    _ < 1 / 2 := by norm_num

end Quotients

end RiskRail.Numeric
