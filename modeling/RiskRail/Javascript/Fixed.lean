import RiskRail.Javascript.NumberText
import RiskRail.Numeric.Nearest

/-!
# Whole numbers and fixed decimals

A whole number of at most 53 bits is printed as its digits.  `toFixed` prints the multiple
of a power of ten that is closest, and what it prints is read as the double of that multiple.
-/

namespace RiskRail.Javascript

open Text Numeric

/-! ## Whole numbers -/

theorem digits_ten_mul {n : ℕ} (positive : 0 < n) : digits (10 * n) = digits n ++ [0x30] := by
  have appended := Nat.toDigits_append_toDigits (d := 0) (show 1 < 10 by decide) positive
    (by decide)
  rw [Nat.add_zero] at appended
  rw [digits, ← appended, List.map_append]
  rfl

theorem digits_mul_pow {n : ℕ} (positive : 0 < n) (zeros : ℕ) :
    digits (n * 10 ^ zeros) = digits n ++ List.replicate zeros 0x30 := by
  induction zeros with
  | zero => simp
  | succ zeros ih =>
      rw [pow_succ, ← mul_assoc, mul_comm, digits_ten_mul (by positivity), ih,
        List.replicate_succ', List.append_assoc]

/-- Digits that end at or in front of the point. -/
theorem positiveText_whole {s zeros : ℕ} (positive : 0 < s)
    (short : (digits s).length + zeros ≤ 21) :
    positiveText (digits s) ((digits s).length + zeros) = digits (s * 10 ^ zeros) := by
  unfold positiveText
  rw [if_pos (by omega), digits_mul_pow positive]
  congr 2
  omega

theorem numberText_natCast {n : ℕ} (safe : n < 2 ^ 53) : numberText n = digits n := by
  rcases n.eq_zero_or_pos with rfl | positive
  · rfl
  have whole : (0 : ℚ) < n := by exact_mod_cast positive
  have bounded : |(n : ℤ)| < 2 ^ 53 := by
    rw [Nat.abs_cast]
    exact_mod_cast safe
  obtain ⟨place, short⟩ := shortest_whole bounded (by omega)
  obtain ⟨digit, spelled⟩ :=
    shortest_spec (isBinary64_intCast bounded) (by exact_mod_cast whole.ne')
  rw [Int.cast_natCast] at place short digit spelled
  obtain ⟨zeros, shift⟩ := Int.eq_ofNat_of_zero_le place
  rw [shift] at spelled short
  rw [if_neg whole.le.not_gt, one_mul, zpow_natCast] at spelled
  have value : (shortest (n : ℚ)).1 * 10 ^ zeros = n :=
    (binary64_natCast_eq_iff safe).mp (by exact_mod_cast spelled)
  unfold numberText
  rw [if_neg whole.ne']
  dsimp only
  rw [if_neg whole.le.not_gt, shift, positiveText_whole digit (by omega), value]

/-! ## Fixed decimals -/

/-- The digits of `n` with a point in front of the last `places` of them. -/
def fixedText (places n : ℕ) : Text :=
  if places = 0 then digits n
  else
    let printed := List.replicate (places + 1 - (digits n).length) 0x30 ++ digits n
    printed.take (printed.length - places) ++ 0x2E :: printed.drop (printed.length - places)

/-- `toFixed`, which rounds the number as it is and ties upwards. -/
def toFixed (places : ℕ) (x : ℚ) : Text :=
  let text :=
    if 10 ^ 21 ≤ |x| then numberText |x|
    else fixedText places ⌊|x| * 10 ^ places + 1 / 2⌋.toNat
  if x < 0 then 0x2D :: text else text

example : toFixed 2 (toDouble (1005 / 1000)) = ofString "1.00" := by decide +kernel

example : toFixed 1 (-1 / 4) = ofString "-0.3" := by decide +kernel

theorem fixedText_spellsOut (places n : ℕ) :
    ∃ whole point fraction, fixedText places n = whole ++ (point ++ fraction) ++ [] ∧
      SpellsOut whole point fraction [] (n / 10 ^ places) := by
  unfold fixedText
  split
  next none =>
    refine ⟨digits n, [], [], by simp, ?_⟩
    have spelled := spellsOut_zeros n 0
    simpa [none] using spelled
  next some =>
    generalize zeros_eq : places + 1 - (digits n).length = zeros
    dsimp only
    generalize printed_eq : List.replicate zeros 0x30 ++ digits n = printed
    have length : printed.length = zeros + (digits n).length := by
      rw [← printed_eq, List.length_append, List.length_replicate]
    have digit : ∀ unit ∈ printed, isDecimalDigit unit = true := by
      rw [← printed_eq]
      exact List.forall_mem_append.mpr
        ⟨fun _ => isDecimalDigit_of_mem_zeros, fun _ => isDecimalDigit_of_mem⟩
    refine ⟨printed.take (printed.length - places), [0x2E],
      printed.drop (printed.length - places), by simp, ?_, ?_, ?_, .inl rfl,
      n, 0, .inl ⟨rfl, rfl⟩, ?_, ?_⟩
    · rw [List.ne_nil_iff_length_pos, List.length_take]
      omega
    · exact fun unit member => digit unit (List.mem_of_mem_take member)
    · exact fun unit member => digit unit (List.mem_of_mem_drop member)
    · rw [List.take_append_drop, ← printed_eq]
      exact natural_zeros zeros n
    · have behind : printed.length - (printed.length - places) = places := by omega
      rw [List.length_drop, behind, zero_sub, zpow_neg, zpow_natCast, div_eq_mul_inv]

/-- What is printed is read as the double of the decimal number. -/
theorem finiteNumber_fixedText (places n : ℕ) :
    finiteNumber (fixedText places n) = binary64 (n / 10 ^ places) := by
  obtain ⟨whole, point, fraction, text, spells⟩ := fixedText_spellsOut places n
  rw [text, finiteNumber, trim_of_isNumeral spells.isNumeral, literal_of_isNumeral spells.isNumeral]
  have read := spells.unsignedDecimal_eq
  obtain ⟨first, rest, starts, digit⟩ := spells.starts
  rw [starts] at read ⊢
  rw [if_neg (List.cons_ne_nil _ _), signed_of_isDecimalDigit _ digit, read, Option.bind_some]

theorem toFixed_of_nonneg (places : ℕ) {x : ℚ} (nonneg : 0 ≤ x) (small : x < 10 ^ 21) :
    ∃ n : ℕ, toFixed places x = fixedText places n ∧ (n : ℚ) ≤ x * 10 ^ places + 1 / 2 := by
  have whole : 0 ≤ ⌊x * 10 ^ places + 1 / 2⌋ := Int.floor_nonneg.mpr (by positivity)
  obtain ⟨n, rounded⟩ := Int.eq_ofNat_of_zero_le whole
  refine ⟨n, ?_, ?_⟩
  · unfold toFixed
    rw [abs_of_nonneg nonneg, if_neg (not_le.mpr small), if_neg nonneg.not_gt, rounded,
      Int.toNat_natCast]
  · have below := Int.floor_le (x * 10 ^ places + 1 / 2)
    rwa [rounded, Int.cast_natCast] at below

/-- The double closest to a decimal number is printed as that number. -/
theorem toFixed_of_binary64 {places n : ℕ} {x : ℚ} (few : places ≤ 6) (small : n ≤ 2 ^ 48)
    (read : binary64 (n / 10 ^ places) = some x) : toFixed places x = fixedText places n := by
  have unit : 0 < 10 ^ places := by positivity
  have divisor : 10 ^ places ≤ 2 ^ 20 :=
    (Nat.pow_le_pow_right (by decide) few).trans (by decide)
  have read' : binary64 (n / (10 ^ places : ℕ)) = some x := by
    rw [← read]
    push_cast
    rfl
  have alone : n ≤ 2 ^ 48 * 10 ^ places := small.trans (Nat.le_mul_of_pos_right _ unit)
  have nonneg : 0 ≤ x :=
    le_trans (by positivity) (half_le_of_binary64 unit divisor read' alone)
  have close := abs_mul_sub_lt unit divisor read' (Nat.mul_le_mul_right _ small) unit
  have cancelled : (n : ℚ) * (10 ^ places : ℕ) / (10 ^ places : ℕ) = n := by
    rw [mul_div_assoc, div_self (by positivity), mul_one]
  rw [cancelled] at close
  have below : x < 10 ^ 21 := by
    have near := abs_binary64_sub_le (ordinary_div unit divisor alone) read'
    have bound : (n : ℚ) / (10 ^ places : ℕ) ≤ 2 ^ 48 := by
      rw [div_le_iff₀ (by positivity)]
      exact_mod_cast alone
    have share : halfUlp ≤ 1 := zpow_le_one_of_nonpos₀ (by norm_num) (by norm_num)
    rw [abs_of_nonneg (show (0 : ℚ) ≤ n / (10 ^ places : ℕ) by positivity), abs_le] at near
    have nonneg' : (0 : ℚ) ≤ n / (10 ^ places : ℕ) := by positivity
    nlinarith [near.2]
  have rounded : ⌊x * 10 ^ places + 1 / 2⌋ = (n : ℤ) := by
    have exact_round := mathRound_eq_of_close (x := x * (10 ^ places : ℕ)) (n := n)
      (lt_of_le_of_lt (by exact_mod_cast close) (by norm_num))
    push_cast [mathRound] at exact_round
    exact exact_round
  unfold toFixed
  rw [abs_of_nonneg nonneg, if_neg (not_le.mpr below), if_neg nonneg.not_gt, rounded,
    Int.toNat_natCast]

/-! ## Rounded products -/

/-- `String(Math.round(x * factor))`. -/
def roundedText (x : ℚ) (factor : ℕ) : Text :=
  match binary64 (x * factor) with
  | some product => numberText (mathRound product)
  | none => ofString (if x < 0 then "-Infinity" else "Infinity")

/-- The double of a quotient is scaled to the whole number that it stands for. -/
theorem roundedText_of_binary64 {n d s k : ℕ} {x : ℚ} (positive : 0 < d) (divisor : d ≤ 2 ^ 20)
    (factor : 0 < s) (read : binary64 (n / d) = some x) (scaled : n * s = k * d)
    (small : k ≤ 2 ^ 48) : roundedText x s = digits k := by
  have within : n * s ≤ 2 ^ 48 * d := scaled.trans_le (Nat.mul_le_mul_right d small)
  obtain ⟨y, product, close⟩ := exists_binary64_mul positive divisor read within factor
  have unit : (d : ℚ) ≠ 0 := by exact_mod_cast positive.ne'
  have value : (n : ℚ) * s / d = (k : ℤ) := by
    rw [div_eq_iff unit]
    exact_mod_cast scaled
  rw [value] at close
  unfold roundedText
  rw [product]
  dsimp only
  rw [mathRound_eq_of_close close, Int.cast_natCast, numberText_natCast (by omega)]

/-- A number that is not negative is scaled to a whole number next to what it should be. -/
theorem roundedText_of_le {b s : ℕ} {x : ℚ} (nonneg : 0 ≤ x) (below : x ≤ b)
    (small : b * s ≤ 2 ^ 20) :
    ∃ k ≤ b * s, roundedText x s = digits k ∧ |k - x * s| ≤ 1 / 2 + 1 / 2 ^ 30 := by
  have above : 0 ≤ x * s := by positivity
  have reach : x * s ≤ (b * s : ℕ) := by
    push_cast
    exact mul_le_mul_of_nonneg_right below s.cast_nonneg
  have limit : x * s ≤ 2 ^ 20 := reach.trans (by exact_mod_cast small)
  obtain ⟨y, product, close⟩ := exists_binary64_of_abs_le (x := x * s)
    (by rw [abs_of_nonneg above]; exact limit.trans (by norm_num))
  have near : |y - x * s| ≤ 1 / 2 ^ 30 := by
    have share : halfUlp * (x * s) ≤ halfUlp * 2 ^ 20 :=
      mul_le_mul_of_nonneg_left limit halfUlp_pos.le
    have tiny : halfUlp * 2 ^ 20 + 1 / 2 ^ 61 ≤ 1 / 2 ^ 30 := by norm_num [halfUlp]
    rw [abs_of_nonneg above] at close
    linarith
  have lower := Int.floor_le (y + 1 / 2)
  have upper := Int.lt_floor_add_one (y + 1 / 2)
  rw [abs_le] at near
  have natural : 0 ≤ mathRound y :=
    Int.floor_nonneg.mpr (by linarith [near.1, show (1 : ℚ) / 2 ^ 30 ≤ 1 / 2 by norm_num])
  obtain ⟨k, rounded⟩ := Int.eq_ofNat_of_zero_le natural
  have whole : (⌊y + 1 / 2⌋ : ℚ) = k := by
    rw [← mathRound, rounded, Int.cast_natCast]
  rw [whole] at lower upper
  have in_range : k ≤ b * s := by
    have strict : (k : ℚ) < (b * s + 1 : ℕ) := by
      push_cast at reach ⊢
      linarith [near.2, show (1 : ℚ) / 2 ^ 30 < 1 / 2 by norm_num]
    exact Nat.le_of_lt_succ (by exact_mod_cast strict)
  refine ⟨k, in_range, ?_, ?_⟩
  · unfold roundedText
    rw [product]
    dsimp only
    rw [rounded, Int.cast_natCast, numberText_natCast (by omega)]
  · rw [abs_le]
    constructor <;> linarith [near.1, near.2]

end RiskRail.Javascript
