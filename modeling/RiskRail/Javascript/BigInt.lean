import RiskRail.Javascript.Numeral

/-!
# Integers of any size

`BigInt(text)` takes decimal digits with a sign or digits of another base without one, and it
throws at anything else.  An empty text is zero.
-/

namespace RiskRail.Javascript

open Text

/-- `BigInt(text)`. -/
def bigInt (text : Text) : Option ℤ :=
  match trim text with
  | [] => some 0
  | 0x30 :: letter :: rest =>
      match radix letter with
      | some base => (natural base rest).map Nat.cast
      | none => signed (fun text => (natural 10 text).map Nat.cast) (0x30 :: letter :: rest)
  | trimmed => signed (fun text => (natural 10 text).map Nat.cast) trimmed

/-- `toString()` of an integer. -/
def bigIntText (value : ℤ) : Text :=
  if value < 0 then 0x2D :: digits value.natAbs else digits value.natAbs

theorem bigIntText_natCast (n : ℕ) : bigIntText n = digits n := by
  rw [bigIntText, if_neg (not_lt.mpr n.cast_nonneg), Int.natAbs_natCast]

/-- Decimal digits are read as their number. -/
theorem bigInt_digits (n : ℕ) : bigInt (digits n) = some (n : ℤ) := by
  have plain : bigInt (digits n) =
      signed (fun text => (natural 10 text).map Nat.cast) (digits n) := by
    unfold bigInt
    rw [trim_digits]
    split
    next printed => exact absurd printed (digits_ne_nil n)
    next letter rest printed =>
      have digit : 0x30 ≤ letter ∧ letter ≤ 0x39 :=
        mem_digits (n := n) (by rw [printed]; simp)
      have no_radix : radix letter = none := by
        unfold radix
        rw [if_neg (by omega), if_neg (by omega), if_neg (by omega)]
      rw [no_radix, printed]
    next => rfl
  rw [plain, signed_digits, natural_digits]
  rfl

end RiskRail.Javascript
