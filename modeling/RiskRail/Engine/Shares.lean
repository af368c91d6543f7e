import RiskRail.Engine.Risk

/-!
# Shares stay in range

Concentration and accessibility are quotients of two rounded sums.  Both sums
run over the positions in the same order and rounding is monotone, so the part
never exceeds the whole, however often either is rounded.
-/

namespace RiskRail.Engine

open RiskRail.Numeric

variable {arithmetic : Arithmetic} {toUpperCase : String → String}

/-- A rounded value between zero and ten thousand becomes whole basis points. -/
theorem isBps_toNumber {x : ℚ} (nonneg : 0 ≤ x) (le : x ≤ 10000) :
    IsBps (arithmetic.toNumber (toDecimalPlaces 0 x)) := by
  have lower : 0 ≤ IntRounding.halfAway.toInt x :=
    IntRounding.halfAway.le_toInt (by exact_mod_cast nonneg)
  have upper : IntRounding.halfAway.toInt x ≤ 10000 :=
    IntRounding.halfAway.toInt_le (by exact_mod_cast le)
  have safe : |IntRounding.halfAway.toInt x| < 2 ^ 53 := by
    rw [abs_of_nonneg lower]
    omega
  rw [toDecimalPlaces_zero, arithmetic.toNumber_of_safe _ safe]
  exact isBps_intCast lower upper

/-- A part of a whole is a share of it. -/
theorem isBps_shareBps {part total : ℚ} (nonneg : 0 ≤ part) (le : part ≤ total) :
    IsBps (shareBps arithmetic part total) := by
  have quotient_nonneg : 0 ≤ arithmetic.div part total :=
    Arithmetic.round_nonneg (div_nonneg nonneg (nonneg.trans le))
  have quotient_le : arithmetic.div part total ≤ (1 : ℤ) := by
    apply Arithmetic.round_le (by norm_num)
    rw [Int.cast_one]
    exact div_le_one_of_le₀ le (nonneg.trans le)
  have rounded := arithmetic.round_round (part / total)
  unfold shareBps
  rw [Arithmetic.mul_tenThousand, Arithmetic.div, rounded]
  rw [Arithmetic.div] at quotient_nonneg quotient_le
  push_cast at quotient_le
  exact isBps_toNumber (by linarith) (by linarith)

/-! ## Groups of a total -/

/-- Every group is a part of the total. -/
def PartsOf (total : ℚ) (groups : List (String × ℚ)) : Prop :=
  ∀ entry ∈ groups, 0 ≤ entry.2 ∧ entry.2 ≤ total

/-- Adding one value to the total and to its group keeps the groups parts. -/
theorem PartsOf.addTo {total value : ℚ} {groups : List (String × ℚ)}
    (parts : PartsOf total groups) (total_nonneg : 0 ≤ total)
    (fixed : arithmetic.round total = total) (nonneg : 0 ≤ value) (key : String) :
    PartsOf (arithmetic.plus total value) (addTo arithmetic key value groups) := by
  have grows : total ≤ arithmetic.plus total value := Arithmetic.le_plus fixed nonneg
  induction groups with
  | nil =>
      intro entry member
      rw [Engine.addTo, List.mem_singleton] at member
      subst entry
      exact ⟨Arithmetic.plus_nonneg le_rfl nonneg, Arithmetic.plus_mono total_nonneg le_rfl⟩
  | cons head rest ih =>
      rcases head with ⟨other, sum⟩
      have head_part := parts (other, sum) List.mem_cons_self
      have rest_parts : PartsOf total rest := fun entry member =>
        parts entry (List.mem_cons_of_mem _ member)
      intro entry member
      rw [Engine.addTo] at member
      split at member
      · rcases List.mem_cons.mp member with rfl | member
        · exact ⟨Arithmetic.plus_nonneg head_part.1 nonneg,
            Arithmetic.plus_mono head_part.2 le_rfl⟩
        · exact ⟨(rest_parts entry member).1, (rest_parts entry member).2.trans grows⟩
      · rcases List.mem_cons.mp member with rfl | member
        · exact ⟨head_part.1, head_part.2.trans grows⟩
        · exact ih rest_parts entry member

theorem PartsOf.mono {total larger : ℚ} {groups : List (String × ℚ)}
    (parts : PartsOf total groups) (le : total ≤ larger) : PartsOf larger groups :=
  fun entry member => ⟨(parts entry member).1, (parts entry member).2.trans le⟩

theorem topEntry_mem {groups : List (String × ℚ)} {top : String × ℚ}
    (found : topEntry groups = some top) : top ∈ groups := by
  cases groups with
  | nil => cases found
  | cons first rest =>
      have kept : ∀ start : String × ℚ,
          rest.foldl (fun top entry => if entry.2 ≤ top.2 then top else entry) start ∈
            start :: rest := by
        clear found
        induction rest with
        | nil => exact fun start => List.mem_cons_self
        | cons entry rest ih =>
            intro start
            rw [List.foldl_cons]
            split
            · rcases List.mem_cons.mp (ih start) with same | member
              · rw [same]
                exact List.mem_cons_self
              · exact List.mem_cons_of_mem _ (List.mem_cons_of_mem _ member)
            · exact List.mem_cons_of_mem _ (ih entry)
      cases found
      exact kept first

/-- The leading group of a total is a share of it. -/
theorem isBps_concentrationOf {groups : List (String × ℚ)} {total : ℚ}
    (parts : PartsOf total groups) :
    IsBps (concentrationOf arithmetic groups total).topShareBps := by
  unfold concentrationOf
  split
  · exact isBps_zero
  next topKey topValue found =>
    have part := parts _ (topEntry_mem found)
    exact isBps_shareBps part.1 part.2

/-! ## Positions with a rounded exposure -/

/-- The gross exposure is nonnegative and is its own rounding. -/
def HasRoundedExposure (arithmetic : Arithmetic) (position : NormalizedPosition) : Prop :=
  0 ≤ getGrossExposure arithmetic position ∧
    arithmetic.round (getGrossExposure arithmetic position) = getGrossExposure arithmetic position

/-- What holds of `protocolConcentration`'s sums after every position. -/
structure ProtocolTotals.Sound (arithmetic : Arithmetic) (totals : ProtocolTotals) : Prop where
  total_nonneg : 0 ≤ totals.total
  total_rounded : arithmetic.round totals.total = totals.total
  parts : PartsOf totals.total totals.grouped

theorem ProtocolTotals.Sound.add {totals : ProtocolTotals} (sound : totals.Sound arithmetic)
    {position : NormalizedPosition} (exposure : HasRoundedExposure arithmetic position) :
    (totals.add arithmetic position).Sound arithmetic where
  total_nonneg := Arithmetic.plus_nonneg sound.total_nonneg exposure.1
  total_rounded := arithmetic.round_round _
  parts := by
    unfold ProtocolTotals.add
    dsimp only
    split
    · exact sound.parts.mono (Arithmetic.le_plus sound.total_rounded exposure.1)
    · exact sound.parts.addTo sound.total_nonneg sound.total_rounded exposure.1 _

theorem protocolTotals_sound {positions : List NormalizedPosition}
    (exposures : ∀ position ∈ positions, HasRoundedExposure arithmetic position) :
    (protocolTotals arithmetic positions).Sound arithmetic := by
  apply List.foldlRecOn
  · constructor
    · exact le_rfl
    · exact Arithmetic.round_zero
    · exact fun entry member => nomatch member
  · exact fun totals sound position member => sound.add (exposures position member)

theorem isBps_protocolConcentration {positions : List NormalizedPosition}
    (exposures : ∀ position ∈ positions, HasRoundedExposure arithmetic position) :
    IsBps (protocolConcentration arithmetic positions).topShareBps := by
  unfold protocolConcentration
  dsimp only
  split
  · exact isBps_zero
  · exact isBps_concentrationOf (protocolTotals_sound exposures).parts

/-! ## Accessibility -/

/-- What holds of `capitalAccessibilityBps`'s sums after every position. -/
structure AccessTotals.Sound (arithmetic : Arithmetic) (totals : AccessTotals) : Prop where
  weighted_nonneg : 0 ≤ totals.weighted
  total_nonneg : 0 ≤ totals.total
  weighted_le : totals.weighted ≤ totals.total * 10000

theorem AccessTotals.Sound.add {totals : AccessTotals} (sound : totals.Sound arithmetic)
    {position : NormalizedPosition} (exposure : HasRoundedExposure arithmetic position)
    (share : ∀ liquidBps ∈ position.liquidBps, liquidBps ≤ 10000) :
    (totals.add arithmetic position).Sound arithmetic := by
  unfold AccessTotals.add
  dsimp only
  split
  · exact sound
  · generalize gross_eq : getGrossExposure arithmetic position = gross
    rw [HasRoundedExposure, gross_eq] at exposure
    have bps_le : position.liquidBps.getD 10000 ≤ 10000 := by
      cases bps_eq : position.liquidBps with
      | none => exact le_rfl
      | some liquidBps => exact share liquidBps bps_eq
    generalize position.liquidBps.getD 10000 = bps at bps_le
    have exactBps : arithmetic.ofNumber (bps : ℚ) = bps := by
      have safe : |(bps : ℤ)| < 2 ^ 53 := by
        rw [abs_of_nonneg (Int.natCast_nonneg bps)]
        omega
      simpa using arithmetic.ofNumber_of_safe bps safe
    have weight_le : arithmetic.mul gross (bps : ℚ) ≤ gross * 10000 := by
      calc
        arithmetic.mul gross (bps : ℚ) ≤ arithmetic.mul gross 10000 := by
          apply arithmetic.monotone
          exact mul_le_mul_of_nonneg_left (by exact_mod_cast bps_le) exposure.1
        _ = gross * 10000 := by rw [Arithmetic.mul_tenThousand, exposure.2]
    have weight_nonneg : 0 ≤ arithmetic.mul gross (bps : ℚ) :=
      Arithmetic.round_nonneg (mul_nonneg exposure.1 (Nat.cast_nonneg bps))
    rw [exactBps]
    constructor
    · exact Arithmetic.plus_nonneg sound.weighted_nonneg weight_nonneg
    · exact Arithmetic.plus_nonneg sound.total_nonneg exposure.1
    · calc
        arithmetic.plus totals.weighted (arithmetic.mul gross (bps : ℚ)) ≤
            arithmetic.plus (totals.total * 10000) (gross * 10000) :=
          Arithmetic.plus_mono sound.weighted_le weight_le
        _ = arithmetic.mul (totals.total + gross) 10000 := by
          rw [Arithmetic.plus, Arithmetic.mul, add_mul]
        _ = arithmetic.plus totals.total gross * 10000 := Arithmetic.mul_tenThousand _

theorem accessTotals_sound {positions : List NormalizedPosition}
    (exposures : ∀ position ∈ positions, HasRoundedExposure arithmetic position)
    (shares : ∀ position ∈ positions, ∀ share ∈ position.liquidBps, share ≤ 10000) :
    (accessTotals arithmetic positions).Sound arithmetic := by
  apply List.foldlRecOn
  · constructor <;> simp
  · exact fun totals sound position member =>
      sound.add (exposures position member) (shares position member)

theorem isBps_capitalAccessibilityBps {positions : List NormalizedPosition}
    (exposures : ∀ position ∈ positions, HasRoundedExposure arithmetic position)
    (shares : ∀ position ∈ positions, ∀ share ∈ position.liquidBps, share ≤ 10000) :
    IsBps (capitalAccessibilityBps arithmetic positions) := by
  have sound := accessTotals_sound exposures shares
  unfold capitalAccessibilityBps
  dsimp only
  split
  · exact isBps_tenThousand
  next nonzero =>
    have positive := lt_of_le_of_ne sound.total_nonneg (Ne.symm nonzero)
    apply isBps_toNumber
    · exact Arithmetic.round_nonneg (div_nonneg sound.weighted_nonneg sound.total_nonneg)
    · have bound : (accessTotals arithmetic positions).weighted /
          (accessTotals arithmetic positions).total ≤ (10000 : ℤ) := by
        rw [div_le_iff₀ positive]
        push_cast
        linarith [sound.weighted_le]
      exact_mod_cast Arithmetic.round_le (by norm_num) bound

end RiskRail.Engine
