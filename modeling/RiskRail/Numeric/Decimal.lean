import RiskRail.Numeric.Rounding

/-!
# Decimal arithmetic and JavaScript numbers

The engines compute with `decimal.js` at its default configuration, twenty
significant digits with ties away from zero, and hand whole results over as
JavaScript numbers.  A decimal and a number are the rational they denote.

Proofs about the engines need only a few laws of that arithmetic, which exact
arithmetic obeys too.  `Arithmetic` carries an arithmetic together with them.
-/

namespace RiskRail.Numeric

/-- `toDecimalPlaces(places)`, and the value of `toFixed(places)`. -/
def toDecimalPlaces (places : ℕ) (x : ℚ) : ℚ :=
  roundTo .halfAway 10 (-places) x

/-- The nearest IEEE double, as far as exponents do not run out. -/
def toDouble (x : ℚ) : ℚ :=
  roundSig .halfEven 2 53 x

/-- `Math.round`: ties go up. -/
def mathRound (x : ℚ) : ℤ :=
  ⌊x + 1 / 2⌋

/-- Decimals next to `x`, with more and more digits and the closest first. -/
def digitCandidates (x : ℚ) : List ℚ :=
  (List.range 17).flatMap fun digits =>
    [roundSig .halfAway 10 (digits + 1) x, roundSig .down 10 (digits + 1) x,
      roundSig .up 10 (digits + 1) x]

/-- The digits a double is printed with: the fewest that read back as the same
double, and among those the closest. -/
def shortestDigits (x : ℚ) : ℚ :=
  ((digitCandidates x).find? fun candidate => toDouble candidate = x).getD x

/-- `new Decimal(number)` reads the printed digits, which are exact for the safe
integers. -/
def ofDouble (x : ℚ) : ℚ :=
  if x = ⌊x⌋ ∧ |x| < 2 ^ 53 then x else shortestDigits x

private theorem ten_base : 1 < 10 := by decide

theorem ofDouble_nonneg {x : ℚ} (nonneg : 0 ≤ x) : 0 ≤ ofDouble x := by
  unfold ofDouble
  split
  · exact nonneg
  · unfold shortestDigits
    cases found : (digitCandidates x).find? fun candidate => toDouble candidate = x with
    | none => exact nonneg
    | some candidate =>
        obtain ⟨digits, -, shape⟩ := List.mem_flatMap.mp (List.mem_of_find?_eq_some found)
        simp only [List.mem_cons, List.not_mem_nil, or_false] at shape
        rcases shape with rfl | rfl | rfl <;> exact roundSig_nonneg _ ten_base nonneg

/-- A decimal arithmetic: what its operations round to, how a decimal becomes a
number and a number a decimal, and the laws its users rely on. -/
structure Arithmetic where
  round : ℚ → ℚ
  toNumber : ℚ → ℚ
  ofNumber : ℚ → ℚ
  monotone : Monotone round
  round_round : ∀ x, round (round x) = round x
  round_of_safe : ∀ n : ℤ, |n| < 2 ^ 53 → round n = n
  round_shift : ∀ x (j : ℤ), round (x * 10 ^ j) = round x * 10 ^ j
  round_places : ∀ places x, round x = x →
    round (toDecimalPlaces places x) = toDecimalPlaces places x
  /-- Close to one, a difference from one loses no digit. -/
  round_one_sub : ∀ x, round x = x → 1 ≤ x → x < 10 → round (1 - x) = 1 - x
  toNumber_monotone : Monotone toNumber
  toNumber_of_safe : ∀ n : ℤ, |n| < 2 ^ 53 → toNumber n = n
  ofNumber_nonneg : ∀ x, 0 ≤ x → 0 ≤ ofNumber x
  ofNumber_of_safe : ∀ n : ℤ, |n| < 2 ^ 53 → ofNumber n = n

namespace Arithmetic

/-- Arithmetic that never rounds. -/
def exact : Arithmetic where
  round x := x
  toNumber x := x
  ofNumber x := x
  monotone _ _ le := le
  round_round _ := rfl
  round_of_safe _ _ := rfl
  round_shift _ _ := rfl
  round_places _ _ _ := rfl
  round_one_sub _ _ _ _ := rfl
  toNumber_monotone _ _ le := le
  toNumber_of_safe _ _ := rfl
  ofNumber_nonneg _ nonneg := nonneg
  ofNumber_of_safe _ _ := rfl

/-- `decimal.js` at its default configuration, with IEEE doubles as numbers. -/
def decimalJs : Arithmetic where
  round := roundSig .halfAway 10 20
  toNumber := toDouble
  ofNumber := ofDouble
  monotone _ _ le := roundSig_mono _ ten_base (by decide) le
  round_round x := roundSig_of_isShort _ ten_base (roundSig_isShort _ ten_base (by decide) x)
  round_of_safe n safe :=
    roundSig_of_isShort _ ten_base ⟨n, 0, safe.trans (by norm_num), by simp⟩
  round_shift x j := by exact_mod_cast roundSig_mul_zpow .halfAway ten_base x j
  round_places places x fixed := by
    have short : IsShort 10 20 x := fixed ▸ roundSig_isShort .halfAway ten_base (by decide) x
    exact roundSig_of_isShort _ ten_base (short.places _ ten_base (by decide) _)
  round_one_sub x fixed lower upper := by
    have short : IsShort 10 20 x := fixed ▸ roundSig_isShort .halfAway ten_base (by decide) x
    exact roundSig_of_isShort _ ten_base (short.one_sub ten_base (by decide) lower upper)
  toNumber_monotone _ _ le := roundSig_mono _ (by decide) (by decide) le
  toNumber_of_safe n safe :=
    roundSig_of_isShort _ (by decide) ⟨n, 0, safe, by simp⟩
  ofNumber_nonneg _ nonneg := ofDouble_nonneg nonneg
  ofNumber_of_safe n safe := if_pos ⟨by simp, by exact_mod_cast safe⟩

variable (arithmetic : Arithmetic)

/-- `x.plus(y)`. -/
def plus (x y : ℚ) : ℚ :=
  arithmetic.round (x + y)

/-- `x.minus(y)`. -/
def minus (x y : ℚ) : ℚ :=
  arithmetic.round (x - y)

/-- `x.mul(y)`. -/
def mul (x y : ℚ) : ℚ :=
  arithmetic.round (x * y)

/-- `x.div(y)`. -/
def div (x y : ℚ) : ℚ :=
  arithmetic.round (x / y)

/-! ## Rules -/

variable {arithmetic} {x y : ℚ}

@[simp]
theorem round_zero : arithmetic.round 0 = 0 := by
  simpa using arithmetic.round_of_safe 0 (by norm_num)

@[simp]
theorem toNumber_zero : arithmetic.toNumber 0 = 0 := by
  simpa using arithmetic.toNumber_of_safe 0 (by norm_num)

theorem round_nonneg (nonneg : 0 ≤ x) : 0 ≤ arithmetic.round x := by
  simpa using arithmetic.monotone nonneg

theorem round_le {n : ℤ} (safe : |n| < 2 ^ 53) (le : x ≤ n) : arithmetic.round x ≤ n :=
  (arithmetic.monotone le).trans_eq (arithmetic.round_of_safe n safe)

theorem toNumber_nonneg (nonneg : 0 ≤ x) : 0 ≤ arithmetic.toNumber x := by
  simpa using arithmetic.toNumber_monotone nonneg

theorem plus_mono {a b c d : ℚ} (left : a ≤ c) (right : b ≤ d) :
    arithmetic.plus a b ≤ arithmetic.plus c d :=
  arithmetic.monotone (add_le_add left right)

theorem plus_nonneg (left : 0 ≤ x) (right : 0 ≤ y) : 0 ≤ arithmetic.plus x y :=
  round_nonneg (add_nonneg left right)

/-- A sum is at least a term that is already rounded. -/
theorem le_plus (fixed : arithmetic.round x = x) (nonneg : 0 ≤ y) : x ≤ arithmetic.plus x y :=
  fixed.symm.trans_le (arithmetic.monotone (le_add_of_nonneg_right nonneg))

theorem mul_tenThousand (x : ℚ) : arithmetic.mul x 10000 = arithmetic.round x * 10000 := by
  have shift := arithmetic.round_shift x 4
  norm_num at shift
  exact shift

end Arithmetic

/-! ## Numbers read back -/

/-- A number that becomes a decimal is read back as the same number. -/
def Arithmetic.ReadsBack (arithmetic : Arithmetic) : Prop :=
  ∀ x, arithmetic.toNumber (arithmetic.ofNumber (arithmetic.toNumber x)) = arithmetic.toNumber x

theorem toDouble_toDouble (x : ℚ) : toDouble (toDouble x) = toDouble x :=
  roundSig_of_isShort _ (by decide) (roundSig_isShort _ (by decide) (by decide) x)

/-- The shortest digits of a double are digits of that double. -/
theorem toDouble_ofDouble {x : ℚ} (double : toDouble x = x) : toDouble (ofDouble x) = x := by
  unfold ofDouble
  split
  · exact double
  · unfold shortestDigits
    cases found : (digitCandidates x).find? fun candidate => toDouble candidate = x with
    | none => exact double
    | some candidate => simpa using List.find?_some found

theorem readsBack_decimalJs : Arithmetic.decimalJs.ReadsBack :=
  fun x => toDouble_ofDouble (toDouble_toDouble x)

/-- Numbers keep their order when they become decimals. -/
theorem Arithmetic.ReadsBack.ofNumber_mono {arithmetic : Arithmetic}
    (readsBack : arithmetic.ReadsBack) {x y : ℚ}
    (le : arithmetic.toNumber x ≤ arithmetic.toNumber y) :
    arithmetic.ofNumber (arithmetic.toNumber x) ≤ arithmetic.ofNumber (arithmetic.toNumber y) := by
  rcases le.lt_or_eq with lt | eq
  · by_contra greater
    have reversed := arithmetic.toNumber_monotone (not_le.mp greater).le
    rw [readsBack, readsBack] at reversed
    exact absurd lt reversed.not_gt
  · rw [eq]

/-! ## Whole numbers -/

/-- A small natural number is a double. -/
theorem toDouble_of_safe {n : ℕ} (safe : n < 2 ^ 53) : toDouble n = n := by
  have small : |(n : ℤ)| < 2 ^ 53 := by
    rw [Nat.abs_cast]
    exact_mod_cast safe
  exact_mod_cast Arithmetic.decimalJs.toNumber_of_safe n small

/-- A larger one becomes no small double. -/
theorem le_toDouble {n : ℕ} (large : 2 ^ 53 ≤ n) : 2 ^ 53 ≤ toDouble n := by
  have power : toDouble (2 ^ 53) = 2 ^ 53 :=
    roundSig_of_isShort _ (by decide) ⟨1, 53, by norm_num, by norm_num⟩
  calc
    (2 ^ 53 : ℚ) = toDouble (2 ^ 53) := power.symm
    _ ≤ toDouble n := Arithmetic.decimalJs.toNumber_monotone (by exact_mod_cast large)

/-- A whole number of basis points between nothing and everything. -/
def IsBps (x : ℚ) : Prop :=
  ∃ n : ℕ, n ≤ 10000 ∧ x = n

theorem isBps_zero : IsBps 0 :=
  ⟨0, by norm_num⟩

theorem isBps_tenThousand : IsBps 10000 :=
  ⟨10000, by norm_num⟩

theorem isBps_intCast {n : ℤ} (nonneg : 0 ≤ n) (le : n ≤ 10000) : IsBps n := by
  lift n to ℕ using nonneg
  exact ⟨n, by exact_mod_cast le, by simp⟩

theorem toDecimalPlaces_zero (x : ℚ) :
    toDecimalPlaces 0 x = (IntRounding.halfAway.toInt x : ℤ) := by
  simp [toDecimalPlaces, roundTo]

theorem toDecimalPlaces_mono (places : ℕ) : Monotone (toDecimalPlaces places) :=
  fun _ _ le => roundTo_mono _ ten_base le

theorem toDecimalPlaces_nonneg {places : ℕ} {x : ℚ} (nonneg : 0 ≤ x) :
    0 ≤ toDecimalPlaces places x :=
  roundTo_nonneg _ ten_base nonneg

/-- Ties go away from zero, so half a unit below zero is no longer zero. -/
theorem halfAway_neg_iff {x : ℚ} : IntRounding.halfAway.toInt x < 0 ↔ x ≤ -1 / 2 := by
  unfold IntRounding.halfAway
  dsimp only
  split
  next nonneg =>
    have floor_nonneg : 0 ≤ ⌊x + 1 / 2⌋ := Int.floor_nonneg.mpr (by linarith)
    constructor
    · intro negative
      omega
    · intro le
      linarith
  next negative =>
    rw [← Int.le_sub_one_iff, Int.ceil_le]
    push_cast
    constructor <;> intro le <;> linarith

/-! ## The error of rounding to places -/

theorem abs_halfAway_sub_le (x : ℚ) : |(IntRounding.halfAway.toInt x : ℚ) - x| ≤ 1 / 2 := by
  unfold IntRounding.halfAway
  dsimp only
  split
  · have lower := Int.lt_floor_add_one (x + 1 / 2)
    have upper := Int.floor_le (x + 1 / 2)
    exact abs_le.mpr ⟨by linarith, by linarith⟩
  · have lower := Int.le_ceil (x - 1 / 2)
    have upper := Int.ceil_lt_add_one (x - 1 / 2)
    exact abs_le.mpr ⟨by linarith, by linarith⟩

theorem abs_toDecimalPlaces_sub_le (places : ℕ) (x : ℚ) :
    |toDecimalPlaces places x - x| ≤ 1 / 2 * 10 ^ (-(places : ℤ)) := by
  have unit : (0 : ℚ) < 10 ^ (-(places : ℤ)) := zpow_pos (by norm_num) _
  have scaled : toDecimalPlaces places x - x =
      ((IntRounding.halfAway.toInt (x / 10 ^ (-(places : ℤ))) : ℚ) - x / 10 ^ (-(places : ℤ))) *
        10 ^ (-(places : ℤ)) := by
    rw [sub_mul, div_mul_cancel₀ x unit.ne', toDecimalPlaces, roundTo]
    push_cast
    rfl
  rw [scaled, abs_mul, abs_of_pos unit]
  exact mul_le_mul_of_nonneg_right (abs_halfAway_sub_le _) unit.le

end RiskRail.Numeric
