import RiskRail.Javascript.Numeral
import RiskRail.Numeric.Binary64

/-!
# Numbers as text and back

`Number(text)` with all its range, and the text of a number: the fewest digits that read
back as the same double, with a point or an exponent where the language puts one.  Every
finite double is read back from its text.
-/

namespace RiskRail.Javascript

open Text Numeric

/-! ## Reading -/

/-- `Number(text)`; `none` where `Number.isFinite` says no. -/
def finiteNumber (text : Text) : Option ℚ :=
  if trim text = [] then some 0 else (literal (trim text)).bind binary64

/-- Digits, a point, an exponent and signs. -/
def isNumeral (unit : ℕ) : Bool :=
  (0x30 ≤ unit && unit ≤ 0x39) || unit == 0x2E || unit == 0x65 || unit == 0x2B || unit == 0x2D

/-- A digit between 0 and 9. -/
def isDecimalDigit (unit : ℕ) : Bool :=
  0x30 ≤ unit && unit ≤ 0x39

theorem isSpace_of_isNumeral {unit : ℕ} (numeral : isNumeral unit = true) :
    isSpace unit = false := by
  simp only [isNumeral, Bool.or_eq_true, Bool.and_eq_true, decide_eq_true_eq, beq_iff_eq] at numeral
  simp only [isSpace, Bool.or_eq_false_iff, Bool.and_eq_false_iff, beq_eq_false_iff_ne,
    decide_eq_false_iff_not]
  omega

theorem trim_of_isNumeral {text : Text} (numeral : ∀ unit ∈ text, isNumeral unit = true) :
    trim text = text :=
  trim_eq_self fun unit member => isSpace_of_isNumeral (numeral unit member)

/-- A numeral has no base in front. -/
theorem literal_of_isNumeral {text : Text} (numeral : ∀ unit ∈ text, isNumeral unit = true) :
    literal text = signed unsignedDecimal text := by
  unfold literal
  split
  next letter rest =>
    have inside := numeral letter (by simp)
    simp only [isNumeral, Bool.or_eq_true, Bool.and_eq_true, decide_eq_true_eq,
      beq_iff_eq] at inside
    have no_radix : radix letter = none := by
      unfold radix
      rw [if_neg (by omega), if_neg (by omega), if_neg (by omega)]
    rw [no_radix]
  next => rfl

/-- A digit is no sign. -/
theorem signed_of_isDecimalDigit {α : Type} [Neg α] (unsigned : Text → Option α) {unit : ℕ}
    {text : Text} (digit : isDecimalDigit unit = true) :
    signed unsigned (unit :: text) = unsigned (unit :: text) := by
  simp only [isDecimalDigit, Bool.and_eq_true, decide_eq_true_eq] at digit
  unfold signed
  split
  next plus =>
    cases plus
    omega
  next minus =>
    cases minus
    omega
  next => rfl

/-- What the test for a unit takes stops where the test fails. -/
theorem takeWhile_append_of_head {keep : ℕ → Bool} {text tail : Text}
    (kept : ∀ unit ∈ text, keep unit = true) (stops : ∀ unit ∈ tail.head?, keep unit = false) :
    (text ++ tail).takeWhile keep = text := by
  rw [List.takeWhile_append_of_pos kept]
  cases tail with
  | nil => exact List.append_nil text
  | cons unit rest =>
      rw [List.takeWhile_cons, stops unit rfl]
      exact List.append_nil text

/-- Digits in front of a point, behind it, and an exponent. -/
theorem unsignedDecimal_eq (whole point fraction tail : Text) {value : ℕ} {shift : ℤ}
    (whole_digits : ∀ unit ∈ whole, isDecimalDigit unit = true)
    (fraction_digits : ∀ unit ∈ fraction, isDecimalDigit unit = true)
    (pointed : point = [0x2E] ∨ point = [] ∧ fraction = [])
    (tail_head : ∀ unit ∈ tail.head?, unit = 0x65)
    (read : natural 10 (whole ++ fraction) = some value) (shifted : exponent tail = some shift) :
    unsignedDecimal (whole ++ (point ++ fraction) ++ tail) =
      some (value * (10 : ℚ) ^ (shift - (fraction.length : ℤ))) := by
  have mantissa : (whole ++ (point ++ fraction) ++ tail).takeWhile
      (fun unit => unit != 0x65 && unit != 0x45) = whole ++ (point ++ fraction) := by
    apply takeWhile_append_of_head
    · intro unit member
      have known : isDecimalDigit unit = true ∨ unit = 0x2E := by
        rcases List.mem_append.mp member with digit | member
        · exact .inl (whole_digits unit digit)
        · rcases List.mem_append.mp member with mark | digit
          · rcases pointed with rfl | ⟨rfl, -⟩
            · exact .inr (List.mem_singleton.mp mark)
            · cases mark
          · exact .inl (fraction_digits unit digit)
      simp only [isDecimalDigit, Bool.and_eq_true, decide_eq_true_eq] at known
      simp only [Bool.and_eq_true, bne_iff_ne]
      omega
    · intro unit member
      rw [tail_head unit member]
      rfl
  have front : (whole ++ (point ++ fraction)).takeWhile (fun unit => unit != 0x2E) = whole := by
    apply takeWhile_append_of_head
    · intro unit member
      have digit := whole_digits unit member
      simp only [isDecimalDigit, Bool.and_eq_true, decide_eq_true_eq] at digit
      simp only [bne_iff_ne]
      omega
    · intro unit member
      rcases pointed with rfl | ⟨rfl, rfl⟩
      · cases Option.mem_some.mp member
        rfl
      · cases member
  have behind : (whole ++ (point ++ fraction)).drop (whole.length + 1) = fraction := by
    rw [List.drop_append, List.drop_of_length_le (Nat.le_succ _), List.nil_append,
      Nat.add_sub_cancel_left]
    rcases pointed with rfl | ⟨rfl, rfl⟩ <;> rfl
  rw [unsignedDecimal]
  simp only [mantissa, front, behind, List.drop_left, read, shifted, Option.bind_some,
    Option.map_some]

/-- A zero behind a number is a factor of ten. -/
theorem foldlM_zeros (zeros n : ℕ) :
    (List.replicate zeros 0x30).foldlM (pushDigit 10) n = some (n * 10 ^ zeros) := by
  induction zeros generalizing n with
  | zero => simp
  | succ zeros ih =>
      have pushed : pushDigit 10 n 0x30 = some (10 * n) := by
        rw [pushDigit, show digitValue 0x30 = some 0 from rfl, Option.bind_some, if_pos (by decide),
          Nat.add_zero]
      rw [List.replicate_succ, List.foldlM_cons, pushed]
      refine (ih (10 * n)).trans ?_
      rw [pow_succ, mul_comm 10 n, mul_assoc, mul_comm 10]

theorem natural_of_ne_nil {base : ℕ} {text : Text} (nonempty : text ≠ []) :
    natural base text = text.foldlM (pushDigit base) 0 := by
  cases text with
  | nil => exact absurd rfl nonempty
  | cons unit rest => rfl

theorem foldlM_digits (n : ℕ) : (digits n).foldlM (pushDigit 10) 0 = some n := by
  rw [← natural_of_ne_nil (digits_ne_nil n), natural_digits]

/-- Zeros in front of a number change nothing. -/
theorem natural_zeros (zeros n : ℕ) :
    natural 10 (List.replicate zeros 0x30 ++ digits n) = some n := by
  rw [natural_of_ne_nil (List.append_ne_nil_of_right_ne_nil _ (digits_ne_nil n)),
    List.foldlM_append, foldlM_zeros, Nat.zero_mul]
  exact foldlM_digits n

theorem natural_digits_zeros (n zeros : ℕ) :
    natural 10 (digits n ++ List.replicate zeros 0x30) = some (n * 10 ^ zeros) := by
  rw [natural_of_ne_nil (List.append_ne_nil_of_left_ne_nil (digits_ne_nil n) _),
    List.foldlM_append, foldlM_digits]
  exact foldlM_zeros zeros n

/-! ### What a number is spelled with -/

/-- A digit of some base, a letter, a sign or a point. -/
def Spells (unit : ℕ) : Prop :=
  digitValue unit ≠ none ∨ unit = 0x2B ∨ unit = 0x2D ∨ unit = 0x2E

theorem spells_of_foldlM {base value result : ℕ} {text : Text}
    (read : text.foldlM (pushDigit base) value = some result) : ∀ unit ∈ text, Spells unit := by
  induction text generalizing value with
  | nil => exact fun _ member => nomatch member
  | cons first rest ih =>
      rw [List.foldlM_cons] at read
      obtain ⟨pushed, here, later⟩ := Option.bind_eq_some_iff.mp read
      obtain ⟨digit, found, -⟩ := Option.bind_eq_some_iff.mp here
      rw [List.forall_mem_cons]
      refine ⟨.inl ?_, ih later⟩
      rw [found]
      exact Option.some_ne_none digit

theorem spells_of_natural {base n : ℕ} {text : Text} (read : natural base text = some n) :
    ∀ unit ∈ text, Spells unit := by
  cases text with
  | nil => cases read
  | cons first rest => exact spells_of_foldlM read

theorem spells_of_signed {α : Type} [Neg α] {unsigned : Text → Option α} {text : Text} {x : α}
    (inner : ∀ text x, unsigned text = some x → ∀ unit ∈ text, Spells unit)
    (read : signed unsigned text = some x) : ∀ unit ∈ text, Spells unit := by
  unfold signed at read
  split at read
  next rest =>
    exact List.forall_mem_cons.mpr ⟨.inr (.inl rfl), inner rest x read⟩
  next rest =>
    obtain ⟨y, read, -⟩ := Option.map_eq_some_iff.mp read
    exact List.forall_mem_cons.mpr ⟨.inr (.inr (.inl rfl)), inner rest y read⟩
  next => exact inner text x read

/-- A text is what a test takes, and then nothing or a unit that fails the test. -/
theorem takeWhile_append_stop (keep : ℕ → Bool) (text : Text) :
    text = text.takeWhile keep ++ text.drop (text.takeWhile keep).length ∧
      ∀ unit ∈ (text.drop (text.takeWhile keep).length).head?, keep unit = false := by
  induction text with
  | nil => exact ⟨rfl, fun _ member => nomatch member⟩
  | cons first rest ih =>
      cases kept : keep first with
      | true =>
          rw [List.takeWhile_cons_of_pos kept]
          exact ⟨congrArg (first :: ·) ih.1, ih.2⟩
      | false =>
          rw [List.takeWhile_cons_of_neg (by simp [kept])]
          refine ⟨rfl, ?_⟩
          intro unit member
          cases Option.mem_some.mp member
          exact kept

theorem spells_of_exponent {text : Text} {shift : ℤ} (read : exponent text = some shift) :
    ∀ unit ∈ text.tail, Spells unit := by
  cases text with
  | nil => exact fun _ member => nomatch member
  | cons letter rest =>
      apply spells_of_signed _ read
      intro text x inner
      obtain ⟨n, inner, -⟩ := Option.map_eq_some_iff.mp inner
      exact spells_of_natural inner

theorem spells_of_unsignedDecimal {text : Text} {x : ℚ} (read : unsignedDecimal text = some x) :
    ∀ unit ∈ text, Spells unit := by
  unfold unsignedDecimal at read
  dsimp only at read
  obtain ⟨split, stop⟩ := takeWhile_append_stop (fun unit => unit != 0x65 && unit != 0x45) text
  generalize text.takeWhile (fun unit => unit != 0x65 && unit != 0x45) = mantissa at read split stop
  obtain ⟨front, point⟩ := takeWhile_append_stop (fun unit => unit != 0x2E) mantissa
  generalize mantissa.takeWhile (fun unit => unit != 0x2E) = whole at read front point
  obtain ⟨value, digits, read⟩ := Option.bind_eq_some_iff.mp read
  obtain ⟨shift, shifted, -⟩ := Option.map_eq_some_iff.mp read
  have spelled := spells_of_natural digits
  rw [List.forall_mem_append] at spelled
  rw [← List.tail_drop] at spelled
  rw [split, List.forall_mem_append]
  constructor
  · rw [front, List.forall_mem_append]
    refine ⟨spelled.1, ?_⟩
    cases behind : mantissa.drop whole.length with
    | nil => exact fun _ member => nomatch member
    | cons mark fraction =>
        rw [behind] at spelled point
        have dot : mark = 0x2E := by simpa using point mark rfl
        exact List.forall_mem_cons.mpr ⟨.inr (.inr (.inr dot)), spelled.2⟩
  · have later := spells_of_exponent shifted
    cases tail : text.drop mantissa.length with
    | nil => exact fun _ member => nomatch member
    | cons letter rest =>
        rw [tail] at later stop
        refine List.forall_mem_cons.mpr ⟨.inl ?_, later⟩
        have stopped := stop letter rfl
        rcases show letter = 0x65 ∨ letter = 0x45 by simpa [or_iff_not_imp_left] using stopped with
          rfl | rfl
        · decide
        · decide

theorem spells_of_literal {text : Text} {x : ℚ} (read : literal text = some x) :
    ∀ unit ∈ text, Spells unit := by
  unfold literal at read
  split at read
  next letter rest =>
    split at read
    next base found =>
      obtain ⟨n, read, -⟩ := Option.map_eq_some_iff.mp read
      have named : digitValue letter ≠ none := by
        unfold radix at found
        unfold digitValue
        split_ifs at found ⊢ <;> first | exact Option.some_ne_none _ | omega
      rw [List.forall_mem_cons, List.forall_mem_cons]
      exact ⟨.inl (by decide), .inl named, spells_of_natural read⟩
    next => exact spells_of_signed (fun _ _ => spells_of_unsignedDecimal) read
  next => exact spells_of_signed (fun _ _ => spells_of_unsignedDecimal) read

theorem mem_of_mem_trim {text : Text} {unit : ℕ} (member : unit ∈ text)
    (solid : isSpace unit = false) : unit ∈ trim text := by
  have kept {text : Text} (member : unit ∈ text) : unit ∈ text.dropWhile isSpace := by
    rw [← List.takeWhile_append_dropWhile (p := isSpace) (l := text), List.mem_append] at member
    rcases member with taken | kept
    · rw [List.mem_takeWhile_imp taken] at solid
      cases solid
    · exact kept
  exact List.mem_reverse.mpr (kept (List.mem_reverse.mpr (kept member)))

/-- What reads as a number is spelled like one, white space apart. -/
theorem spells_of_finiteNumber {text : Text} {x : ℚ} (read : finiteNumber text = some x)
    {unit : ℕ} (member : unit ∈ text) : isSpace unit = true ∨ Spells unit := by
  rw [or_iff_not_imp_left, Bool.not_eq_true]
  intro solid
  have inside := mem_of_mem_trim member solid
  unfold finiteNumber at read
  rw [if_neg (List.ne_nil_of_mem inside)] at read
  obtain ⟨value, read, -⟩ := Option.bind_eq_some_iff.mp read
  exact spells_of_literal read unit inside

/-! ## Writing -/

/-- The digits of a number that is not zero and the place of the last one: the fewest that
read back as the number, and among those the closest. -/
def shortest (x : ℚ) : ℕ × ℤ :=
  let candidates := (List.range 17).flatMap fun digits =>
    [IntRounding.halfAway, .down, .up].map fun rounding =>
      let place := lastPlace 10 (digits + 1) x
      ((rounding.toInt (|x| / (10 : ℚ) ^ place)).toNat, place)
  let readsBack (candidate : ℕ × ℤ) : Bool :=
    0 < candidate.1 &&
      binary64 ((if x < 0 then -1 else 1) * (candidate.1 * (10 : ℚ) ^ candidate.2)) = some x
  let found := (candidates.find? readsBack).getD
    (x.num.natAbs * 5 ^ Nat.log 2 x.den, -(Nat.log 2 x.den : ℤ))
  if found.1 % 10 = 0 then (found.1 / 10, found.2 + 1) else found

/-- The exponent part. -/
def exponentText (n : ℤ) : Text :=
  0x65 :: (if 0 ≤ n then 0x2B else 0x2D) :: digits n.natAbs

/-- The digits of a positive number, with `n` places before the point. -/
def positiveText (printed : Text) (n : ℤ) : Text :=
  if printed.length ≤ n ∧ n ≤ 21 then printed ++ List.replicate (n.toNat - printed.length) 0x30
  else if 0 < n ∧ n ≤ 21 then printed.take n.toNat ++ 0x2E :: printed.drop n.toNat
  else if -6 < n ∧ n ≤ 0 then 0x30 :: 0x2E :: (List.replicate (-n).toNat 0x30 ++ printed)
  else
    match printed with
    | [] => []
    | [digit] => digit :: exponentText (n - 1)
    | digit :: rest => digit :: 0x2E :: (rest ++ exponentText (n - 1))

/-- `String(number)`. -/
def numberText (x : ℚ) : Text :=
  if x = 0 then [0x30]
  else
    let printed := digits (shortest x).1
    let text := positiveText printed (printed.length + (shortest x).2)
    if x < 0 then 0x2D :: text else text

example : numberText (3 / 2) = ofString "1.5" := by decide +kernel

example : numberText (-1 / 2 ^ 30) = ofString "-9.313225746154785e-10" := by decide +kernel

/-! ## What is written is read -/

/-- The digits that are there when nothing shorter reads back. -/
theorem exact_digits {x : ℚ} {a : ℕ} (den : x.den = 2 ^ a) :
    (if x < 0 then -1 else 1) * (((x.num.natAbs * 5 ^ a : ℕ) : ℚ) * (10 : ℚ) ^ (-(a : ℤ))) = x := by
  have size : ((x.num.natAbs * 5 ^ a : ℕ) : ℚ) * (10 : ℚ) ^ (-(a : ℤ)) = |x| := by
    have tens : (10 : ℚ) ^ a = 5 ^ a * 2 ^ a := by rw [← mul_pow]; norm_num
    have half : (2 : ℚ) ^ a ≠ 0 := by positivity
    have fifth : (5 : ℚ) ^ a ≠ 0 := by positivity
    have value : |x| = (x.num.natAbs : ℚ) / 2 ^ a := by
      rw [Rat.abs_def, Rat.divInt_eq_div, den]
      norm_num
    rw [zpow_neg, zpow_natCast, tens, value]
    push_cast
    field_simp
  rw [size]
  split
  next negative => rw [abs_of_neg negative, neg_one_mul, neg_neg]
  next nonneg => rw [abs_of_nonneg (not_lt.mp nonneg), one_mul]

/-- A double that is not zero is spelled by its digits. -/
theorem shortest_spec {x : ℚ} (double : IsBinary64 x) (nonzero : x ≠ 0) :
    0 < (shortest x).1 ∧
      binary64 ((if x < 0 then -1 else 1) * ((shortest x).1 * (10 : ℚ) ^ (shortest x).2)) =
        some x := by
  unfold shortest
  dsimp only
  generalize List.flatMap _ (List.range 17) = candidates
  generalize found_eq : Option.getD _ _ = found
  have spelled : 0 < found.1 ∧
      binary64 ((if x < 0 then -1 else 1) * (found.1 * (10 : ℚ) ^ found.2)) = some x := by
    rw [← found_eq]
    cases searched : candidates.find? _ with
    | some candidate =>
        have good := List.find?_some searched
        rw [Bool.and_eq_true, decide_eq_true_eq, decide_eq_true_eq] at good
        exact good
    | none =>
        obtain ⟨a, den⟩ := double.den
        rw [Option.getD_none, den, Nat.log_pow (by decide)]
        refine ⟨Nat.mul_pos (Int.natAbs_pos.mpr (Rat.num_ne_zero.mpr nonzero)) (by positivity), ?_⟩
        rw [exact_digits den]
        exact double.binary64
  split
  next zero =>
    have ten : found.1 = found.1 / 10 * 10 := by omega
    refine ⟨by omega, ?_⟩
    have same : ((found.1 / 10 : ℕ) : ℚ) * (10 : ℚ) ^ (found.2 + 1) =
        found.1 * (10 : ℚ) ^ found.2 := by
      rw [zpow_add_one₀ (by norm_num)]
      nth_rewrite 2 [ten]
      push_cast
      ring
    rw [same]
    exact spelled.2
  next => exact spelled

theorem exponent_exponentText (n : ℤ) : exponent (exponentText n) = some n := by
  rw [exponentText]
  by_cases nonneg : 0 ≤ n
  · rw [if_pos nonneg]
    show (natural 10 (digits n.natAbs)).map Int.ofNat = some n
    rw [natural_digits, Option.map_some]
    exact congrArg some (Int.natAbs_of_nonneg nonneg)
  · rw [if_neg nonneg]
    show ((natural 10 (digits n.natAbs)).map Int.ofNat).map Neg.neg = some n
    rw [natural_digits, Option.map_some, Option.map_some, Int.ofNat_eq_natCast]
    congr 1
    omega

theorem isDecimalDigit_of_mem {n unit : ℕ} (member : unit ∈ digits n) :
    isDecimalDigit unit = true := by
  rcases mem_digits member with ⟨lower, upper⟩
  rw [isDecimalDigit, Bool.and_eq_true, decide_eq_true_eq, decide_eq_true_eq]
  exact ⟨lower, upper⟩

theorem isDecimalDigit_of_mem_zeros {zeros unit : ℕ} (member : unit ∈ List.replicate zeros 0x30) :
    isDecimalDigit unit = true := by
  rw [List.eq_of_mem_replicate member]
  rfl

theorem isNumeral_of_isDecimalDigit {unit : ℕ} (digit : isDecimalDigit unit = true) :
    isNumeral unit = true := by
  rw [isDecimalDigit] at digit
  rw [isNumeral, digit]
  rfl

theorem isNumeral_of_mem_exponentText {n : ℤ} {unit : ℕ} (member : unit ∈ exponentText n) :
    isNumeral unit = true := by
  rw [exponentText, List.mem_cons, List.mem_cons] at member
  rcases member with rfl | sign | printed
  · rfl
  · split at sign
    · rw [sign]; rfl
    · rw [sign]; rfl
  · exact isNumeral_of_isDecimalDigit (isDecimalDigit_of_mem printed)

/-! ### The ways to write a number -/

/-- Digits, perhaps a point with digits behind it and perhaps an exponent, which spell a
number. -/
structure SpellsOut (whole point fraction tail : Text) (x : ℚ) : Prop where
  nonempty : whole ≠ []
  whole_digits : ∀ unit ∈ whole, isDecimalDigit unit = true
  fraction_digits : ∀ unit ∈ fraction, isDecimalDigit unit = true
  pointed : point = [0x2E] ∨ point = [] ∧ fraction = []
  value : ∃ (n : ℕ) (shift : ℤ), (tail = [] ∧ shift = 0 ∨ tail = exponentText shift) ∧
    natural 10 (whole ++ fraction) = some n ∧
      n * (10 : ℚ) ^ (shift - (fraction.length : ℤ)) = x

section

variable {whole point fraction tail : Text} {x : ℚ}

theorem SpellsOut.unsignedDecimal_eq (spells : SpellsOut whole point fraction tail x) :
    unsignedDecimal (whole ++ (point ++ fraction) ++ tail) = some x := by
  obtain ⟨n, shift, tail_eq, read, rfl⟩ := spells.value
  refine Javascript.unsignedDecimal_eq whole point fraction tail spells.whole_digits
    spells.fraction_digits spells.pointed ?_ read ?_
  · intro unit member
    rcases tail_eq with ⟨rfl, -⟩ | rfl
    · cases member
    · exact (Option.mem_some.mp member).symm
  · rcases tail_eq with ⟨rfl, rfl⟩ | rfl
    · rfl
    · exact exponent_exponentText shift

theorem SpellsOut.isNumeral (spells : SpellsOut whole point fraction tail x) :
    ∀ unit ∈ whole ++ (point ++ fraction) ++ tail, isNumeral unit = true := by
  simp only [List.forall_mem_append]
  refine ⟨⟨?_, ?_, ?_⟩, ?_⟩
  · exact fun unit member => isNumeral_of_isDecimalDigit (spells.whole_digits unit member)
  · rcases spells.pointed with rfl | ⟨rfl, -⟩
    · exact List.forall_mem_singleton.mpr rfl
    · exact fun _ member => nomatch member
  · exact fun unit member => isNumeral_of_isDecimalDigit (spells.fraction_digits unit member)
  · obtain ⟨n, shift, ⟨rfl, -⟩ | rfl, -⟩ := spells.value
    · exact fun _ member => nomatch member
    · exact fun _ => isNumeral_of_mem_exponentText

theorem SpellsOut.starts (spells : SpellsOut whole point fraction tail x) :
    ∃ first rest, whole ++ (point ++ fraction) ++ tail = first :: rest ∧
      isDecimalDigit first = true := by
  obtain ⟨first, rest, rfl⟩ := List.exists_cons_of_ne_nil spells.nonempty
  exact ⟨first, _, rfl, spells.whole_digits first List.mem_cons_self⟩

end

/-- Digits and zeros. -/
theorem spellsOut_zeros (s zeros : ℕ) :
    SpellsOut (digits s ++ List.replicate zeros 0x30) [] [] [] (s * (10 : ℚ) ^ (zeros : ℤ)) where
  nonempty := List.append_ne_nil_of_left_ne_nil (digits_ne_nil s) _
  whole_digits := List.forall_mem_append.mpr
    ⟨fun _ => isDecimalDigit_of_mem, fun _ => isDecimalDigit_of_mem_zeros⟩
  fraction_digits _ member := nomatch member
  pointed := .inr ⟨rfl, rfl⟩
  value := by
    refine ⟨s * 10 ^ zeros, 0, .inl ⟨rfl, rfl⟩, ?_, ?_⟩
    · rw [List.append_nil]
      exact natural_digits_zeros s zeros
    · push_cast
      simp

/-- A point among the digits. -/
theorem spellsOut_point (s : ℕ) {n : ℕ} (positive : 0 < n) :
    SpellsOut ((digits s).take n) [0x2E] ((digits s).drop n) []
      (s * (10 : ℚ) ^ (-(((digits s).length - n : ℕ) : ℤ))) where
  nonempty := by
    rw [List.ne_nil_iff_length_pos, List.length_take]
    exact lt_min positive (List.length_pos_of_ne_nil (digits_ne_nil s))
  whole_digits _ member := isDecimalDigit_of_mem (List.mem_of_mem_take member)
  fraction_digits _ member := isDecimalDigit_of_mem (List.mem_of_mem_drop member)
  pointed := .inl rfl
  value := by
    refine ⟨s, 0, .inl ⟨rfl, rfl⟩, ?_, ?_⟩
    · rw [List.take_append_drop, natural_digits]
    · rw [List.length_drop, zero_sub]

/-- A point and zeros in front of the digits. -/
theorem spellsOut_small (s zeros : ℕ) :
    SpellsOut [0x30] [0x2E] (List.replicate zeros 0x30 ++ digits s) []
      (s * (10 : ℚ) ^ (-((zeros : ℤ) + (digits s).length))) where
  nonempty := List.cons_ne_nil _ _
  whole_digits := List.forall_mem_singleton.mpr rfl
  fraction_digits := List.forall_mem_append.mpr
    ⟨fun _ => isDecimalDigit_of_mem_zeros, fun _ => isDecimalDigit_of_mem⟩
  pointed := .inl rfl
  value := by
    refine ⟨s, 0, .inl ⟨rfl, rfl⟩, natural_zeros (zeros + 1) s, ?_⟩
    rw [List.length_append, List.length_replicate, Nat.cast_add, zero_sub]

/-- One digit and an exponent, or a point behind the first digit and an exponent. -/
theorem spellsOut_exponent {s first : ℕ} {rest point : Text} {n e : ℤ}
    (printed : digits s = first :: rest) (pointed : point = [0x2E] ∨ point = [] ∧ rest = [])
    (places : n - (rest.length : ℤ) = e) :
    SpellsOut [first] point rest (exponentText n) (s * (10 : ℚ) ^ e) where
  nonempty := List.cons_ne_nil _ _
  whole_digits unit member := by
    rw [List.mem_singleton.mp member]
    exact isDecimalDigit_of_mem (n := s) (printed ▸ List.mem_cons_self)
  fraction_digits unit member :=
    isDecimalDigit_of_mem (n := s) (printed ▸ List.mem_cons_of_mem _ member)
  pointed := pointed
  value := by
    refine ⟨s, n, .inr rfl, ?_, by rw [places]⟩
    rw [List.singleton_append, ← printed, natural_digits]

/-- Each way to write a positive number spells that number out. -/
theorem positiveText_spellsOut (s : ℕ) (e : ℤ) :
    ∃ whole point fraction tail,
      positiveText (digits s) ((digits s).length + e) = whole ++ (point ++ fraction) ++ tail ∧
        SpellsOut whole point fraction tail (s * (10 : ℚ) ^ e) := by
  unfold positiveText
  split
  next whole =>
    obtain ⟨zeros, rfl⟩ := Int.eq_ofNat_of_zero_le (show 0 ≤ e by omega)
    rw [show (((digits s).length : ℤ) + (zeros : ℤ)).toNat - (digits s).length = zeros by omega]
    exact ⟨_, _, _, _, by simp, spellsOut_zeros s zeros⟩
  next =>
    split
    next inside =>
      obtain ⟨n, places⟩ := Int.eq_ofNat_of_zero_le inside.1.le
      have behind : e = -(((digits s).length - n : ℕ) : ℤ) := by omega
      rw [places, Int.toNat_natCast, behind]
      exact ⟨_, _, _, _, by simp, spellsOut_point s (by omega)⟩
    next =>
      split
      next small =>
        generalize zeros_eq : (-(((digits s).length : ℤ) + e)).toNat = zeros
        have behind : e = -((zeros : ℤ) + (digits s).length) := by omega
        rw [behind]
        exact ⟨_, _, _, _, by simp, spellsOut_small s zeros⟩
      next large =>
        cases printed : digits s with
        | nil => exact absurd printed (digits_ne_nil s)
        | cons first rest =>
            have places : ((first :: rest).length : ℤ) + e - 1 - (rest.length : ℤ) = e := by
              rw [List.length_cons]
              push_cast
              ring
            cases rest with
            | nil =>
                exact ⟨[first], [], [], _, rfl, spellsOut_exponent printed (.inr ⟨rfl, rfl⟩) places⟩
            | cons second rest =>
                exact ⟨[first], [0x2E], second :: rest, _, rfl,
                  spellsOut_exponent printed (.inl rfl) places⟩

/-- What is written is read as the number. -/
theorem unsignedDecimal_positiveText (s : ℕ) (e : ℤ) :
    unsignedDecimal (positiveText (digits s) ((digits s).length + e)) =
      some (s * (10 : ℚ) ^ e) := by
  obtain ⟨whole, point, fraction, tail, text, spells⟩ := positiveText_spellsOut s e
  rw [text, spells.unsignedDecimal_eq]

/-- The text of a positive number is a numeral that starts with a digit. -/
theorem positiveText_shape (s : ℕ) (n : ℤ) :
    (∀ unit ∈ positiveText (digits s) n, isNumeral unit = true) ∧
      ∃ first rest, positiveText (digits s) n = first :: rest ∧ isDecimalDigit first = true := by
  obtain ⟨whole, point, fraction, tail, text, spells⟩ :=
    positiveText_spellsOut s (n - (digits s).length)
  rw [add_sub_cancel] at text
  rw [text]
  exact ⟨spells.isNumeral, spells.starts⟩

/-! ### The text of a number -/

theorem isNumeral_of_mem_numberText {x : ℚ} {unit : ℕ} (member : unit ∈ numberText x) :
    isNumeral unit = true := by
  unfold numberText at member
  split at member
  next =>
    rw [List.mem_singleton.mp member]
    rfl
  next =>
    dsimp only at member
    split at member
    next =>
      rcases List.mem_cons.mp member with rfl | inside
      · rfl
      · exact (positiveText_shape _ _).1 unit inside
    next => exact (positiveText_shape _ _).1 unit member

theorem literal_numberText {x : ℚ} (nonzero : x ≠ 0) :
    literal (numberText x) =
      some ((if x < 0 then -1 else 1) * ((shortest x).1 * (10 : ℚ) ^ (shortest x).2)) := by
  have read := unsignedDecimal_positiveText (shortest x).1 (shortest x).2
  rw [literal_of_isNumeral fun unit => isNumeral_of_mem_numberText]
  unfold numberText
  rw [if_neg nonzero]
  dsimp only
  split
  next =>
    refine (congrArg (Option.map Neg.neg) read).trans ?_
    rw [Option.map_some, neg_one_mul]
  next =>
    obtain ⟨-, first, rest, text, digit⟩ := positiveText_shape (shortest x).1
      ((digits (shortest x).1).length + (shortest x).2)
    rw [text] at read ⊢
    rw [signed_of_isDecimalDigit _ digit, read, one_mul]

theorem numberText_ne_nil (x : ℚ) : numberText x ≠ [] := by
  unfold numberText
  split
  next => exact List.cons_ne_nil _ _
  next =>
    dsimp only
    split
    next => exact List.cons_ne_nil _ _
    next =>
      obtain ⟨-, first, rest, text, -⟩ := positiveText_shape (shortest x).1
        ((digits (shortest x).1).length + (shortest x).2)
      rw [text]
      exact List.cons_ne_nil _ _

/-- Every finite double is read back from its text. -/
theorem finiteNumber_numberText {x : ℚ} (double : IsBinary64 x) :
    finiteNumber (numberText x) = some x := by
  rw [finiteNumber, trim_of_isNumeral fun unit => isNumeral_of_mem_numberText,
    if_neg (numberText_ne_nil x)]
  by_cases zero : x = 0
  · subst zero
    have printed : numberText 0 = digits 0 := rfl
    rw [printed, literal_digits, Option.bind_some, Nat.cast_zero]
    exact double.binary64
  · rw [literal_numberText zero, Option.bind_some]
    exact (shortest_spec double zero).2

/-- Different doubles have different texts. -/
theorem numberText_injective {x y : ℚ} (first : IsBinary64 x) (second : IsBinary64 y)
    (same : numberText x = numberText y) : x = y := by
  rw [← Option.some_inj, ← finiteNumber_numberText first, same, finiteNumber_numberText second]

theorem isBinary64_of_finiteNumber {text : Text} {x : ℚ} (read : finiteNumber text = some x) :
    IsBinary64 x := by
  unfold finiteNumber at read
  split at read
  next =>
    cases read
    exact_mod_cast isBinary64_intCast (n := 0) (by decide)
  next =>
    obtain ⟨value, -, rounded⟩ := Option.bind_eq_some_iff.mp read
    exact isBinary64_of_binary64 rounded

/-! ### Whole numbers -/

theorem length_digits_le {n k : ℕ} (positive : 0 < k) (small : n < 10 ^ k) :
    (digits n).length ≤ k := by
  rw [digits, List.length_map]
  exact (Nat.length_toDigits_le_iff (by decide) positive).mpr small

theorem abs_whole (n : ℤ) : |(n : ℚ)| = (n.natAbs : ℚ) := by
  rw [Nat.cast_natAbs, Int.cast_abs]

/-- The place of the last of `d + 1` digits of a whole number. -/
theorem lastPlace_whole (n : ℤ) (d : ℕ) :
    lastPlace 10 (d + 1) n = (Nat.log 10 n.natAbs : ℤ) - d := by
  rw [lastPlace, abs_whole, Int.log_natCast]
  push_cast
  ring

/-- As many digits of a whole number as are asked for, in front of the point. -/
theorem toNat_rounding_le (rounding : IntRounding) (n : ℤ) {d : ℕ}
    (within : d ≤ Nat.log 10 n.natAbs) :
    (rounding.toInt (|(n : ℚ)| / (10 : ℚ) ^ ((Nat.log 10 n.natAbs : ℤ) - d))).toNat ≤
      10 ^ (d + 1) := by
  have place : (Nat.log 10 n.natAbs : ℤ) - d = ((Nat.log 10 n.natAbs - d : ℕ) : ℤ) := by
    omega
  have below : n.natAbs < 10 ^ (Nat.log 10 n.natAbs + 1) := Nat.lt_pow_succ_log_self (by decide) _
  have power : 10 ^ (Nat.log 10 n.natAbs + 1) = 10 ^ (d + 1) * 10 ^ (Nat.log 10 n.natAbs - d) := by
    rw [← pow_add]
    congr 1
    omega
  have quotient : |(n : ℚ)| / (10 : ℚ) ^ ((Nat.log 10 n.natAbs : ℤ) - d) ≤
      ((10 ^ (d + 1) : ℤ) : ℚ) := by
    rw [place, zpow_natCast, div_le_iff₀ (by positivity), abs_whole]
    push_cast
    exact_mod_cast power ▸ below.le
  exact Int.toNat_le.mpr (by exact_mod_cast rounding.toInt_le quotient)

/-- A search that succeeds in the front of a list does not look further. -/
theorem mem_of_find?_front {α : Type*} {holds : α → Bool} {front back : List α} {good other : α}
    (member : good ∈ front) (is_good : holds good = true) :
    ((front ++ back).find? holds).getD other ∈ front.filter holds := by
  obtain ⟨found, searched⟩ := Option.isSome_iff_exists.mp
    (List.find?_isSome.mpr ⟨good, member, is_good⟩)
  rw [List.find?_append, searched, Option.some_or, Option.getD_some]
  exact List.mem_filter.mpr ⟨List.mem_of_find?_eq_some searched, List.find?_some searched⟩

/-- The candidates with these numbers of digits. -/
def candidates (x : ℚ) (counts : List ℕ) : List (ℕ × ℤ) :=
  counts.flatMap fun digits =>
    [IntRounding.halfAway, .down, .up].map fun rounding =>
      let place := lastPlace 10 (digits + 1) x
      ((rounding.toInt (|x| / (10 : ℚ) ^ place)).toNat, place)

theorem candidates_append (x : ℚ) (first second : List ℕ) :
    candidates x (first ++ second) = candidates x first ++ candidates x second :=
  List.flatMap_append

/-- The digits are those of this number. -/
def readsBack (x : ℚ) (candidate : ℕ × ℤ) : Bool :=
  0 < candidate.1 &&
    binary64 ((if x < 0 then -1 else 1) * (candidate.1 * (10 : ℚ) ^ candidate.2)) = some x

theorem shortest_eq (x : ℚ) : ∃ found other : ℕ × ℤ,
    ((candidates x (List.range 17)).find? (readsBack x)).getD other = found ∧
      shortest x = if found.1 % 10 = 0 then (found.1 / 10, found.2 + 1) else found :=
  ⟨_, _, rfl, rfl⟩

/-- All digits of a whole number read back. -/
theorem readsBack_whole {n : ℤ} (safe : |n| < 2 ^ 53) (nonzero : n ≠ 0) :
    readsBack n (n.natAbs, 0) = true := by
  have signed : (if (n : ℚ) < 0 then (-1 : ℚ) else 1) *
      ((n.natAbs : ℚ) * (10 : ℚ) ^ (0 : ℤ)) = n := by
    rw [zpow_zero, mul_one, ← abs_whole]
    split
    next negative => rw [abs_of_neg negative, neg_one_mul, neg_neg]
    next nonneg => rw [abs_of_nonneg (not_lt.mp nonneg), one_mul]
  rw [readsBack, signed, (isBinary64_intCast safe).binary64]
  simp [Int.natAbs_pos.mpr nonzero]

theorem mem_candidates_whole {n : ℤ} {counts : List ℕ} (listed : Nat.log 10 n.natAbs ∈ counts) :
    (n.natAbs, 0) ∈ candidates n counts := by
  have whole := IntRounding.halfAway.toInt_intCast n.natAbs
  rw [Int.cast_natCast] at whole
  refine List.mem_flatMap.mpr ⟨_, listed, List.mem_map.mpr ⟨.halfAway, List.mem_cons_self, ?_⟩⟩
  dsimp only
  rw [lastPlace_whole, sub_self, zpow_zero, div_one, abs_whole, whole, Int.toNat_natCast]

/-- The digits found for a whole number of at most 53 bits end at or in front of the point. -/
theorem shortest_whole {n : ℤ} (safe : |n| < 2 ^ 53) (nonzero : n ≠ 0) :
    0 ≤ (shortest n).2 ∧ (digits (shortest n).1).length + (shortest n).2 ≤ 21 := by
  have bound : n.natAbs < 10 ^ 16 := by
    rw [Int.abs_eq_natAbs] at safe
    omega
  have log_lt : Nat.log 10 n.natAbs < 16 := Nat.log_lt_of_lt_pow (by omega) bound
  have range_eq : List.range 17 = List.range (Nat.log 10 n.natAbs + 1) ++
      (List.range (16 - Nat.log 10 n.natAbs)).map (Nat.log 10 n.natAbs + 1 + ·) := by
    rw [← List.range_add]
    congr 1
    omega
  obtain ⟨found, other, searched, shortest_eq⟩ := shortest_eq n
  have last : Nat.log 10 n.natAbs ∈ List.range (Nat.log 10 n.natAbs + 1) :=
    List.mem_range.mpr (Nat.lt_succ_self _)
  have in_front : found ∈ (candidates n (List.range (Nat.log 10 n.natAbs + 1))).filter
      (readsBack n) := by
    rw [← searched, range_eq, candidates_append]
    exact mem_of_find?_front (mem_candidates_whole last) (readsBack_whole safe nonzero)
  obtain ⟨member, reads⟩ := List.mem_filter.mp in_front
  obtain ⟨d, listed, member⟩ := List.mem_flatMap.mp member
  obtain ⟨rounding, -, rounded⟩ := List.mem_map.mp member
  have within := Nat.le_of_lt_succ (List.mem_range.mp listed)
  have place : found.2 = (Nat.log 10 n.natAbs : ℤ) - d := by
    rw [← rounded, ← lastPlace_whole]
  have small : found.1 ≤ 10 ^ (d + 1) := by
    rw [← rounded, lastPlace_whole]
    exact toNat_rounding_le rounding n within
  rw [readsBack, Bool.and_eq_true, decide_eq_true_iff] at reads
  have positive := reads.1
  have power := Nat.pow_pos (n := d) (show 0 < 10 by decide)
  rw [pow_succ] at small
  rw [shortest_eq]
  split
  next zero =>
    have length := length_digits_le (n := found.1 / 10) (Nat.succ_pos d) (by rw [pow_succ]; omega)
    dsimp only
    omega
  next =>
    have length := length_digits_le (n := found.1) (k := d + 2) (by omega)
      (by rw [pow_succ, pow_succ]; omega)
    omega

/-- A whole number of at most 53 bits is printed without a point. -/
theorem not_mem_numberText_whole {n : ℤ} (safe : |n| < 2 ^ 53) : 0x2E ∉ numberText n := by
  rcases eq_or_ne n 0 with rfl | nonzero
  · decide
  obtain ⟨place, length⟩ := shortest_whole safe nonzero
  have digits_only : 0x2E ∉ positiveText (digits (shortest n).1)
      ((digits (shortest n).1).length + (shortest n).2) := by
    unfold positiveText
    rw [if_pos (by omega), List.mem_append]
    rintro (digit | zero)
    · cases isDecimalDigit_of_mem digit
    · cases isDecimalDigit_of_mem_zeros zero
  unfold numberText
  rw [if_neg (by exact_mod_cast nonzero)]
  dsimp only
  split
  next => exact List.not_mem_cons_of_ne_of_not_mem (by decide) digits_only
  next => exact digits_only

end RiskRail.Javascript
