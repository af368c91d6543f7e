import RiskRail.Numeric.Rounding
import Mathlib.Data.Nat.Prime.Basic

/-!
# IEEE doubles

The finite doubles as rationals: at most 53 binary digits, none of them behind the last
place of the subnormal numbers, and no overflow.  Rounding to a double leaves the doubles
as they are.
-/

namespace RiskRail.Numeric

/-- Where the last digit of the closest double stands. -/
def binary64Place (x : ℚ) : ℤ :=
  max (lastPlace 2 53 x) (-1074)

/-- The closest double; `none` is an infinity. -/
def binary64 (x : ℚ) : Option ℚ :=
  let rounded := roundTo .halfEven 2 (binary64Place x) x
  if |rounded| < 2 ^ 1024 then some rounded else none

/-- A finite double. -/
structure IsBinary64 (x : ℚ) : Prop where
  digits : ∃ m k : ℤ, |m| < 2 ^ 53 ∧ -1074 ≤ k ∧ x = m * (2 : ℚ) ^ k
  finite : |x| < 2 ^ 1024

variable {x y : ℚ}

theorem isBinary64_intCast {n : ℤ} (safe : |n| < 2 ^ 53) : IsBinary64 n where
  digits := ⟨n, 0, safe, by norm_num, by simp⟩
  finite := by
    have small : (|(n : ℚ)|) < 2 ^ 53 := by exact_mod_cast safe
    exact small.trans (pow_lt_pow_right₀ (by norm_num) (by norm_num))

/-- A double is its own rounding. -/
theorem IsBinary64.binary64 (double : IsBinary64 x) : binary64 x = some x := by
  have exact_value : roundTo .halfEven 2 (binary64Place x) x = x := by
    obtain ⟨m, k, bound, place, rfl⟩ := double.digits
    rcases eq_or_ne m 0 with rfl | nonzero
    · simp
    · refine roundTo_multiple _ (by decide) m (max_le ?_ place)
      exact lastPlace_le (by decide) nonzero (by exact_mod_cast bound)
  rw [Numeric.binary64, exact_value, if_pos double.finite]

/-- A whole number is far above the last place of the subnormal numbers. -/
theorem binary64Place_natCast (v : ℕ) : binary64Place (v : ℚ) = lastPlace 2 53 (v : ℚ) := by
  apply max_eq_left
  rw [lastPlace, Nat.abs_cast, Int.log_natCast]
  omega

/-- No other whole number rounds to a small one. -/
theorem binary64_natCast_eq_iff {v n : ℕ} (safe : n < 2 ^ 53) :
    binary64 (v : ℚ) = some (n : ℚ) ↔ v = n := by
  have fixed {k : ℕ} (small : k < 2 ^ 53) : Numeric.binary64 (k : ℚ) = some (k : ℚ) := by
    have abs : |(k : ℤ)| < 2 ^ 53 := by
      rw [Nat.abs_cast]
      exact_mod_cast small
    exact_mod_cast (isBinary64_intCast abs).binary64
  constructor
  · intro read
    rcases lt_or_ge v (2 ^ 53) with small | large
    · rw [fixed small] at read
      exact_mod_cast Option.some.inj read
    · have power : roundSig .halfEven 2 53 (2 ^ 53) = 2 ^ 53 :=
        roundSig_of_isShort _ (by decide) ⟨1, 53, by norm_num, by norm_num⟩
      have least : (2 : ℚ) ^ 53 ≤ roundSig .halfEven 2 53 (v : ℚ) := by
        rw [← power]
        exact roundSig_mono _ (by decide) (by decide) (by exact_mod_cast large)
      rw [Numeric.binary64, binary64Place_natCast, Option.ite_none_right_eq_some,
        Option.some.injEq] at read
      have rounded : roundSig .halfEven 2 53 (v : ℚ) = n := read.2
      rw [rounded] at least
      exact absurd (by exact_mod_cast least) (not_le.mpr safe)
  · rintro rfl
    exact fixed safe

/-- A digit more than there is room for is a power of two. -/
theorem exists_digits_of_abs_le {m k : ℤ} (le : |m| ≤ 2 ^ 53) (place : -1074 ≤ k) :
    ∃ n j : ℤ, |n| < 2 ^ 53 ∧ -1074 ≤ j ∧ (m : ℚ) * (2 : ℚ) ^ k = n * (2 : ℚ) ^ j := by
  have shifted : (2 : ℚ) ^ (53 + k) = 2 ^ 53 * (2 : ℚ) ^ k := by
    rw [zpow_add₀ (by norm_num)]
    norm_num
  rcases le.lt_or_eq with lt | eq
  · exact ⟨m, k, lt, place, rfl⟩
  · rcases (abs_eq (by norm_num)).mp eq with rfl | rfl
    · exact ⟨1, 53 + k, by norm_num, by omega, by rw [shifted]; norm_num⟩
    · exact ⟨-1, 53 + k, by norm_num, by omega, by rw [shifted]; norm_num⟩

/-- A rounding is a double. -/
theorem isBinary64_of_binary64 (rounded : binary64 y = some x) : IsBinary64 x := by
  unfold binary64 at rounded
  rw [Option.ite_none_right_eq_some] at rounded
  obtain ⟨finite, rounds⟩ := rounded
  cases rounds
  refine ⟨?_, finite⟩
  have unit : (0 : ℚ) < (2 : ℚ) ^ binary64Place y := zpow_pos (by norm_num) _
  have size : |y / 2 ^ binary64Place y| ≤ ((2 ^ 53 : ℤ) : ℚ) := by
    rw [abs_div, abs_of_pos unit, div_le_iff₀ unit]
    calc
      |y| ≤ (2 : ℚ) ^ (Int.log 2 |y| + 1) := (Int.lt_zpow_succ_log_self (by decide) |y|).le
      _ = 2 ^ (53 : ℤ) * 2 ^ lastPlace 2 53 y := by
        rw [← zpow_add₀ (by norm_num), lastPlace]
        congr 1
        push_cast
        ring
      _ ≤ 2 ^ (53 : ℤ) * 2 ^ binary64Place y := by
        gcongr
        · norm_num
        · exact le_max_left _ _
      _ = ((2 ^ 53 : ℤ) : ℚ) * 2 ^ binary64Place y := by norm_num
  exact exists_digits_of_abs_le (IntRounding.halfEven.abs_toInt_le size) (le_max_right _ _)

/-- A double is a whole number over a power of two. -/
theorem IsBinary64.den (double : IsBinary64 x) : ∃ a : ℕ, x.den = 2 ^ a := by
  obtain ⟨m, k, -, -, rfl⟩ := double.digits
  have halves (n : ℤ) (j : ℕ) : ∃ a : ℕ, ((n : ℚ) / (2 : ℚ) ^ j).den = 2 ^ a := by
    have quotient : Rat.divInt n (2 ^ j) = (n : ℚ) / (2 : ℚ) ^ j := by
      rw [Rat.divInt_eq_div]
      push_cast
      rfl
    have divides : ((Rat.divInt n (2 ^ j)).den : ℤ) ∣ 2 ^ j := Rat.den_dvd n (2 ^ j)
    rw [quotient] at divides
    have divides' : ((n : ℚ) / (2 : ℚ) ^ j).den ∣ 2 ^ j :=
      Int.natCast_dvd_natCast.mp (divides.trans (by rw [Nat.cast_pow, Nat.cast_ofNat]))
    obtain ⟨a, -, den⟩ := (Nat.dvd_prime_pow Nat.prime_two).mp divides'
    exact ⟨a, den⟩
  rcases le_or_gt 0 k with whole | fraction
  · obtain ⟨j, rfl⟩ := Int.eq_ofNat_of_zero_le whole
    have same : (m : ℚ) * (2 : ℚ) ^ (j : ℤ) = ((m * 2 ^ j : ℤ) : ℚ) / (2 : ℚ) ^ 0 := by
      push_cast
      rw [zpow_natCast, pow_zero, div_one]
    rw [same]
    exact halves _ 0
  · obtain ⟨j, negated⟩ := Int.eq_ofNat_of_zero_le (neg_nonneg.mpr fraction.le)
    have same : (m : ℚ) * (2 : ℚ) ^ k = (m : ℚ) / (2 : ℚ) ^ j := by
      rw [← neg_neg k, negated, zpow_neg, zpow_natCast, div_eq_mul_inv]
    rw [same]
    exact halves m j

end RiskRail.Numeric
