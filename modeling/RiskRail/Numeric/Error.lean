import RiskRail.Numeric.Decimal

/-!
# Errors of repeated rounding

Rounding to nearest moves a number by at most a fixed share of its size.  A number that was
rounded several times on its way is off by a share that grows with each rounding, taken of
the size of what went into it.  Rounded to places in the end it is right unless the exact
number lies next to a tie.
-/

namespace RiskRail.Numeric

/-! ## One rounding -/

section Rounding

variable {β p : ℕ}

theorem abs_roundTo_sub_le (base : 1 < β) (k : ℤ) (x : ℚ) :
    |roundTo .halfAway β k x - x| ≤ 1 / 2 * (β : ℚ) ^ k := by
  have unit : (0 : ℚ) < (β : ℚ) ^ k :=
    zpow_pos (by exact_mod_cast Nat.zero_lt_one.trans base) k
  have scaled : roundTo .halfAway β k x - x =
      ((IntRounding.halfAway.toInt (x / (β : ℚ) ^ k) : ℚ) - x / (β : ℚ) ^ k) * (β : ℚ) ^ k := by
    rw [sub_mul, div_mul_cancel₀ x unit.ne', roundTo]
  rw [scaled, abs_mul, abs_of_pos unit]
  exact mul_le_mul_of_nonneg_right (abs_halfAway_sub_le _) unit.le

/-- Half a unit of the last of `p` digits is a fixed share of the number. -/
theorem abs_roundSig_sub_le (base : 1 < β) (x : ℚ) :
    |roundSig .halfAway β p x - x| ≤ 1 / 2 * (β : ℚ) ^ (1 - (p : ℤ)) * |x| := by
  rcases eq_or_ne x 0 with rfl | nonzero
  · simp
  have nonzeroBase : (β : ℚ) ≠ 0 := by exact_mod_cast (Nat.zero_lt_one.trans base).ne'
  have leading := Int.zpow_log_le_self base (abs_pos.mpr nonzero)
  calc
    |roundSig .halfAway β p x - x| ≤ 1 / 2 * (β : ℚ) ^ lastPlace β p x :=
      abs_roundTo_sub_le base _ x
    _ = 1 / 2 * (β : ℚ) ^ (1 - (p : ℤ)) * (β : ℚ) ^ Int.log β |x| := by
      rw [mul_assoc, ← zpow_add₀ nonzeroBase, lastPlace]
      ring_nf
    _ ≤ 1 / 2 * (β : ℚ) ^ (1 - (p : ℤ)) * |x| :=
      mul_le_mul_of_nonneg_left leading
        (mul_nonneg (by norm_num) (zpow_nonneg (Nat.cast_nonneg β) _))

end Rounding

/-! ## Several roundings -/

/-- The share of a number that this many roundings in a row can move it by. -/
def drift (share : ℚ) (roundings : ℕ) : ℚ :=
  (1 + share) ^ roundings - 1

variable {share : ℚ} {k l : ℕ}

theorem drift_zero : drift share 0 = 0 := by
  simp [drift]

theorem drift_succ : drift share (k + 1) = drift share k + share * (1 + drift share k) := by
  unfold drift
  ring

theorem drift_mono (nonneg : 0 ≤ share) (le : k ≤ l) : drift share k ≤ drift share l :=
  sub_le_sub_right (pow_le_pow_right₀ (by linarith) le) 1

/-- A number computed with this many roundings in a row, and the number it stands for.
The size bounds what went into it. -/
structure Tracks (share : ℚ) (roundings : ℕ) (size exact computed : ℚ) : Prop where
  size_le : |exact| ≤ size
  error_le : |computed - exact| ≤ drift share roundings * size

namespace Tracks

variable {size exact computed size' exact' computed' : ℚ}

theorem refl (share x : ℚ) : Tracks share 0 |x| x x where
  size_le := le_rfl
  error_le := by simp [drift_zero]

theorem zero (share : ℚ) (k : ℕ) : Tracks share k 0 0 0 where
  size_le := abs_zero.le
  error_le := by simp

theorem size_nonneg (tracks : Tracks share k size exact computed) : 0 ≤ size :=
  (abs_nonneg _).trans tracks.size_le

theorem mono (nonneg : 0 ≤ share) (le : k ≤ l) (tracks : Tracks share k size exact computed) :
    Tracks share l size exact computed where
  size_le := tracks.size_le
  error_le := tracks.error_le.trans
    (mul_le_mul_of_nonneg_right (drift_mono nonneg le) tracks.size_nonneg)

/-- One more rounding. -/
theorem round {round : ℚ → ℚ} (nonneg : 0 ≤ share)
    (rounds : ∀ x, |round x - x| ≤ share * |x|)
    (tracks : Tracks share k size exact computed) :
    Tracks share (k + 1) size exact (round computed) where
  size_le := tracks.size_le
  error_le := by
    have computed_le : |computed| ≤ size + drift share k * size := by
      calc
        |computed| = |exact + (computed - exact)| := by rw [add_sub_cancel]
        _ ≤ |exact| + |computed - exact| := abs_add_le _ _
        _ ≤ size + drift share k * size := add_le_add tracks.size_le tracks.error_le
    calc
      |round computed - exact| = |(round computed - computed) + (computed - exact)| := by
        rw [sub_add_sub_cancel]
      _ ≤ |round computed - computed| + |computed - exact| := abs_add_le _ _
      _ ≤ share * (size + drift share k * size) + drift share k * size :=
        add_le_add ((rounds computed).trans (mul_le_mul_of_nonneg_left computed_le nonneg))
          tracks.error_le
      _ = drift share (k + 1) * size := by
        rw [drift_succ]
        ring

theorem add (first : Tracks share k size exact computed)
    (second : Tracks share k size' exact' computed') :
    Tracks share k (size + size') (exact + exact') (computed + computed') where
  size_le := (abs_add_le _ _).trans (add_le_add first.size_le second.size_le)
  error_le := by
    rw [add_sub_add_comm, mul_add]
    exact (abs_add_le _ _).trans (add_le_add first.error_le second.error_le)

theorem neg (tracks : Tracks share k size exact computed) :
    Tracks share k size (-exact) (-computed) where
  size_le := (abs_neg exact).trans_le tracks.size_le
  error_le := by
    rw [neg_sub_neg, abs_sub_comm]
    exact tracks.error_le

theorem sub (first : Tracks share k size exact computed)
    (second : Tracks share k size' exact' computed') :
    Tracks share k (size + size') (exact - exact') (computed - computed') := by
  rw [sub_eq_add_neg, sub_eq_add_neg]
  exact first.add second.neg

/-- A factor that is known exactly. -/
theorem mul_right (tracks : Tracks share k size exact computed) (factor : ℚ) :
    Tracks share k (size * |factor|) (exact * factor) (computed * factor) where
  size_le := by
    rw [abs_mul]
    exact mul_le_mul_of_nonneg_right tracks.size_le (abs_nonneg _)
  error_le := by
    rw [← sub_mul, abs_mul, ← mul_assoc]
    exact mul_le_mul_of_nonneg_right tracks.error_le (abs_nonneg _)

end Tracks

/-! ## Rounding to places in the end -/

/-- The number lies within the error of a tie between two decimals of these places. -/
def NearTie (places : ℕ) (error x : ℚ) : Prop :=
  ∃ n : ℤ, |x - (n + 1 / 2) * 10 ^ (-(places : ℤ))| ≤ error

/-- Numbers that round to different integers have a tie between them. -/
theorem exists_tie_of_halfAway_lt {x y : ℚ}
    (lt : IntRounding.halfAway.toInt x < IntRounding.halfAway.toInt y) :
    x ≤ IntRounding.halfAway.toInt x + 1 / 2 ∧ IntRounding.halfAway.toInt x + 1 / 2 ≤ y := by
  have first := abs_le.mp (abs_halfAway_sub_le x)
  have second := abs_le.mp (abs_halfAway_sub_le y)
  have apart : (IntRounding.halfAway.toInt x : ℚ) + 1 ≤ IntRounding.halfAway.toInt y := by
    exact_mod_cast lt
  exact ⟨by linarith [first.1], by linarith [second.2]⟩

/-- Away from ties a small error changes no digit. -/
theorem toDecimalPlaces_eq_of_close {places : ℕ} {error x y : ℚ} (close : |x - y| ≤ error)
    (clear : ¬NearTie places error y) : toDecimalPlaces places x = toDecimalPlaces places y := by
  have unit : (0 : ℚ) < 10 ^ (-(places : ℤ)) := zpow_pos (by norm_num) _
  have near : ∀ n : ℤ,
      x / 10 ^ (-(places : ℤ)) ≤ n + 1 / 2 ∧ (n : ℚ) + 1 / 2 ≤ y / 10 ^ (-(places : ℤ)) ∨
        y / 10 ^ (-(places : ℤ)) ≤ n + 1 / 2 ∧ (n : ℚ) + 1 / 2 ≤ x / 10 ^ (-(places : ℤ)) →
      False := by
    intro n between
    rw [div_le_iff₀ unit, le_div_iff₀ unit, div_le_iff₀ unit, le_div_iff₀ unit] at between
    apply clear
    refine ⟨n, le_trans ?_ close⟩
    generalize ((n : ℚ) + 1 / 2) * 10 ^ (-(places : ℤ)) = tie at between
    rcases between with ⟨below, above⟩ | ⟨below, above⟩
    · rw [abs_of_nonneg (sub_nonneg.mpr above), abs_of_nonpos (by linarith)]
      linarith
    · rw [abs_of_nonpos (sub_nonpos.mpr below), abs_of_nonneg (by linarith)]
      linarith
  have same : IntRounding.halfAway.toInt (x / 10 ^ (-(places : ℤ))) =
      IntRounding.halfAway.toInt (y / 10 ^ (-(places : ℤ))) := by
    rcases lt_trichotomy (IntRounding.halfAway.toInt (x / 10 ^ (-(places : ℤ))))
      (IntRounding.halfAway.toInt (y / 10 ^ (-(places : ℤ)))) with less | same | more
    · exact absurd (.inl (exists_tie_of_halfAway_lt less)) (near _)
    · exact same
    · exact absurd (.inr (exists_tie_of_halfAway_lt more)) (near _)
  unfold toDecimalPlaces roundTo
  exact congrArg (fun n : ℤ => (n : ℚ) * (10 : ℕ) ^ (-(places : ℤ))) same

/-! ## Sums without a rounding error -/

/-- A whole number of units of this decimal place. -/
def IsWhole (place : ℤ) (x : ℚ) : Prop :=
  ∃ m : ℤ, x = m * 10 ^ place

namespace IsWhole

variable {place : ℤ} {x y : ℚ}

theorem zero (place : ℤ) : IsWhole place 0 :=
  ⟨0, by simp⟩

theorem add (first : IsWhole place x) (second : IsWhole place y) : IsWhole place (x + y) := by
  obtain ⟨m, rfl⟩ := first
  obtain ⟨n, rfl⟩ := second
  exact ⟨m + n, by push_cast; ring⟩

theorem neg (whole : IsWhole place x) : IsWhole place (-x) := by
  obtain ⟨m, rfl⟩ := whole
  exact ⟨-m, by push_cast; ring⟩

theorem sub (first : IsWhole place x) (second : IsWhole place y) : IsWhole place (x - y) := by
  rw [sub_eq_add_neg]
  exact first.add second.neg

theorem abs (whole : IsWhole place x) : IsWhole place |x| := by
  rcases abs_choice x with same | opposite
  · rwa [same]
  · rw [opposite]
    exact whole.neg

/-- Below the precision it is its own rounding. -/
theorem isShort {p : ℕ} (whole : IsWhole place x) (lt : |x| < 10 ^ p * 10 ^ place) :
    IsShort 10 p x := by
  obtain ⟨m, rfl⟩ := whole
  have positive : (0 : ℚ) < 10 ^ place := zpow_pos (by norm_num) _
  refine ⟨m, place, ?_, by norm_num⟩
  rw [abs_mul, abs_of_pos positive] at lt
  have digits := lt_of_mul_lt_mul_right lt positive.le
  exact_mod_cast digits

theorem decimalJs_round (whole : IsWhole place x) (lt : |x| < 10 ^ 20 * 10 ^ place) :
    Arithmetic.decimalJs.round x = x :=
  roundSig_of_isShort _ (by decide) (whole.isShort lt)

end IsWhole

end RiskRail.Numeric
