import RiskRail.Engine.Revaluation
import RiskRail.Numeric.Error
import Mathlib.Algebra.Order.BigOperators.Group.List

/-!
# How exact a valuation is

A value is divided, multiplied and added up with twenty significant digits before it is
written with eight decimals.  Each operation may move it by half a unit of its twentieth
digit.  So the eighth decimal is that of the exact value where no operation loses a digit,
and elsewhere unless the exact value lies next to a tie.
-/

namespace RiskRail.Engine

open RiskRail.Numeric

/-- The share of a number that one operation with twenty digits can move it by. -/
def decimalShare : ℚ :=
  5 / 10 ^ 20

theorem decimalShare_nonneg : 0 ≤ decimalShare := by
  norm_num [decimalShare]

theorem abs_decimalJs_sub_le (x : ℚ) :
    |Arithmetic.decimalJs.round x - x| ≤ decimalShare * |x| := by
  have share : 1 / 2 * ((10 : ℕ) : ℚ) ^ (1 - ((20 : ℕ) : ℤ)) = decimalShare := by
    norm_num [decimalShare]
  have error := abs_roundSig_sub_le (β := 10) (p := 20) (by decide) x
  rw [share] at error
  exact error

/-! ## One asset -/

/-- Units times price, with all digits. -/
def exactValue (asset : PositionAsset) (price : PriceLike) : ℚ :=
  asset.amountAtomic / 10 ^ asset.decimals * price.priceUsd

theorem assetValue_exact (asset : PositionAsset) (price : PriceLike) :
    assetValue .exact asset price = exactValue asset price :=
  rfl

/-- A value went through two operations. -/
theorem tracks_assetValue (asset : PositionAsset) (price : PriceLike) :
    Tracks decimalShare 2 |exactValue asset price| (exactValue asset price)
      (assetValue .decimalJs asset price) := by
  have units := (Tracks.refl decimalShare
    ((asset.amountAtomic : ℚ) / 10 ^ asset.decimals)).round decimalShare_nonneg
      abs_decimalJs_sub_le
  have value := (units.mul_right price.priceUsd).round decimalShare_nonneg abs_decimalJs_sub_le
  rw [← abs_mul] at value
  exact value

/-- An amount of at most twenty digits keeps them as units. -/
theorem atomicToDecimal_of_isShort {amountAtomic : ℕ} (short : IsShort 10 20 amountAtomic)
    (decimals : ℕ) :
    atomicToDecimal .decimalJs amountAtomic decimals = (amountAtomic : ℚ) / 10 ^ decimals := by
  have shift := Arithmetic.decimalJs.round_shift amountAtomic (-(decimals : ℤ))
  rw [zpow_neg, zpow_natCast, ← div_eq_mul_inv, ← div_eq_mul_inv] at shift
  have fixed : Arithmetic.decimalJs.round (amountAtomic : ℚ) = amountAtomic :=
    roundSig_of_isShort _ (by decide) short
  rw [atomicToDecimal, Arithmetic.div, shift, fixed]

/-- A value whose amount and product have at most twenty digits loses none. -/
theorem assetValue_of_isShort {asset : PositionAsset} {price : PriceLike}
    (amount : IsShort 10 20 asset.amountAtomic) (value : IsShort 10 20 (exactValue asset price)) :
    assetValue .decimalJs asset price = exactValue asset price := by
  rw [assetValue, atomicToDecimal_of_isShort amount]
  exact roundSig_of_isShort _ (by decide) value

/-- The reported digits of a number that was rounded on the way. -/
theorem abs_reported_sub_le {k : ℕ} {size exact computed : ℚ}
    (tracks : Tracks decimalShare k size exact computed) :
    |toDecimalPlaces 8 computed - exact| ≤ 1 / 2 * (1 / 10 ^ 8) + drift decimalShare k * size := by
  have written := abs_toDecimalPlaces_sub_le 8 computed
  rw [places_unit] at written
  calc
    |toDecimalPlaces 8 computed - exact| =
        |(toDecimalPlaces 8 computed - computed) + (computed - exact)| := by
      rw [sub_add_sub_cancel]
    _ ≤ |toDecimalPlaces 8 computed - computed| + |computed - exact| := abs_add_le _ _
    _ ≤ _ := add_le_add written tracks.error_le

/-! ## The sums of a position -/

section Sums

variable {arithmetic : Arithmetic} {share : ℚ}

/-- Accumulators whose two sums track exact sums of this net value and total size. -/
def TotalsTrack (share : ℚ) (k : ℕ) (totals : ValueTotals) (net gross : ℚ) : Prop :=
  ∃ positiveSize positive debtSize debt,
    Tracks share k positiveSize positive totals.positiveValue ∧
    Tracks share k debtSize debt totals.debtValue ∧
    positive - debt = net ∧ positiveSize + debtSize = gross

theorem TotalsTrack.zero (share : ℚ) (k : ℕ) : TotalsTrack share k .zero 0 0 :=
  ⟨0, 0, 0, 0, .zero share k, .zero share k, sub_zero 0, add_zero 0⟩

/-- One asset more is one rounding more. -/
theorem TotalsTrack.add (nonneg : 0 ≤ share)
    (rounds : ∀ x, |arithmetic.round x - x| ≤ share * |x|) {k l : ℕ} (le : l ≤ k)
    {totals : ValueTotals} {net gross : ℚ} (track : TotalsTrack share k totals net gross)
    {exact value : ℚ} (valueTracks : Tracks share l |exact| exact value) (role : AssetRole) :
    TotalsTrack share (k + 1) (totals.add arithmetic role value)
      (net + if role = .debt then -exact else exact) (gross + |exact|) := by
  obtain ⟨positiveSize, positive, debtSize, debt, positiveTracks, debtTracks, rfl, rfl⟩ := track
  have value_tracks := valueTracks.mono nonneg le
  by_cases owed : role = .debt
  · refine ⟨positiveSize, positive, debtSize + |exact|, debt + exact, ?_, ?_, ?_, by ring⟩
    · rw [ValueTotals.add, if_pos owed]
      exact positiveTracks.mono nonneg k.le_succ
    · rw [ValueTotals.add]
      dsimp only
      rw [if_pos owed]
      have sum := (debtTracks.add value_tracks).round nonneg rounds
      exact sum
    · rw [if_pos owed]
      ring
  · refine ⟨positiveSize + |exact|, positive + exact, debtSize, debt, ?_, ?_, ?_, by ring⟩
    · rw [ValueTotals.add, if_neg owed]
      have sum := (positiveTracks.add value_tracks).round nonneg rounds
      exact sum
    · rw [ValueTotals.add]
      dsimp only
      rw [if_neg owed]
      exact debtTracks.mono nonneg k.le_succ
    · rw [if_neg owed]
      ring

/-- The difference of the two sums is one rounding more again. -/
theorem TotalsTrack.minus (nonneg : 0 ≤ share)
    (rounds : ∀ x, |arithmetic.round x - x| ≤ share * |x|) {k : ℕ} {totals : ValueTotals}
    {net gross : ℚ} (track : TotalsTrack share k totals net gross) :
    Tracks share (k + 1) gross net
      (arithmetic.minus totals.positiveValue totals.debtValue) := by
  obtain ⟨positiveSize, positive, debtSize, debt, positiveTracks, debtTracks, rfl, rfl⟩ := track
  have difference := (positiveTracks.sub debtTracks).round nonneg rounds
  exact difference

variable {value : PositionAsset → Option ℚ} {exact : PositionAsset → Option ℚ} {l : ℕ}

/-- The number of assets that have a value. -/
def valuedCount (value : PositionAsset → Option ℚ) (assets : List PositionAsset) : ℕ :=
  (assets.filter fun asset => (value asset).isSome).length

/-- The sizes of the values, debt counted positively. -/
def grossValue (value : PositionAsset → Option ℚ) (assets : List PositionAsset) : ℚ :=
  (assets.map fun asset => |signedValue value asset|).sum

theorem foldl_addValued_track (nonneg : 0 ≤ share)
    (rounds : ∀ x, |arithmetic.round x - x| ≤ share * |x|) {assets : List PositionAsset}
    (tracks : ∀ asset ∈ assets, Option.Rel
      (fun exact value => Tracks share l |exact| exact value) (exact asset) (value asset))
    {k : ℕ} (le : l ≤ k) {totals : ValueTotals} {net gross : ℚ}
    (track : TotalsTrack share k totals net gross) :
    TotalsTrack share (k + valuedCount exact assets)
      (assets.foldl (addValued arithmetic value) totals)
      (net + (assets.map (signedValue exact)).sum) (gross + grossValue exact assets) := by
  induction assets generalizing k totals net gross with
  | nil => simpa [valuedCount, grossValue] using track
  | cons asset rest ih =>
      have head := tracks asset List.mem_cons_self
      have tail := fun other (member : other ∈ rest) =>
        tracks other (List.mem_cons_of_mem _ member)
      rw [List.foldl_cons, addValued, List.map_cons, List.sum_cons, ← add_assoc, grossValue,
        List.map_cons, List.sum_cons, ← add_assoc, valuedCount, List.filter_cons, signedValue]
      generalize exact asset = exactUsd at head
      generalize value asset = valueUsd at head
      cases head with
      | none => simpa [valuedCount, grossValue] using ih tail le track
      | some valueTracks =>
          have added := ih tail (le.trans k.le_succ)
            (track.add nonneg rounds le valueTracks asset.role)
          rw [Nat.succ_add_eq_add_succ] at added
          dsimp only
          rw [Option.isSome_some, if_pos rfl, List.length_cons]
          have size : ∀ x : ℚ, |if asset.role = .debt then -x else x| = |x| := by
            intro x
            split
            · exact abs_neg x
            · rfl
          rw [size]
          exact added

end Sums

/-! ## Sums that lose no digit -/

/-- Accumulators whose sums are whole units and leave room for this much more. -/
structure Roomy (place : ℤ) (room : ℚ) (totals : ValueTotals) : Prop where
  positive : IsWhole place totals.positiveValue
  debt : IsWhole place totals.debtValue
  gross : IsWhole place totals.grossExposure
  sums_lt : |totals.positiveValue| + |totals.debtValue| + room < 10 ^ 20 * 10 ^ place
  gross_lt : |totals.grossExposure| + room < 10 ^ 20 * 10 ^ place

/-- An asset that fits is added without an error. -/
theorem Roomy.add {place : ℤ} {room value : ℚ} {totals : ValueTotals}
    (roomy : Roomy place (|value| + room) totals) (whole : IsWhole place value)
    (nonneg : 0 ≤ room) (role : AssetRole) :
    totals.add .decimalJs role value = totals.add .exact role value ∧
      Roomy place room (totals.add .exact role value) := by
  have sums_lt := roomy.sums_lt
  have gross_lt := roomy.gross_lt
  have positive_nonneg := abs_nonneg totals.positiveValue
  have debt_nonneg := abs_nonneg totals.debtValue
  have positive_le := abs_add_le totals.positiveValue value
  have debt_le := abs_add_le totals.debtValue value
  have gross_le := abs_add_le totals.grossExposure |value|
  rw [abs_abs] at gross_le
  have gross_eq : Arithmetic.decimalJs.plus totals.grossExposure |value| =
      totals.grossExposure + |value| :=
    (roomy.gross.add whole.abs).decimalJs_round (by linarith)
  by_cases owed : role = .debt
  · have debt_eq : Arithmetic.decimalJs.plus totals.debtValue value = totals.debtValue + value :=
      (roomy.debt.add whole).decimalJs_round (by linarith)
    unfold ValueTotals.add
    simp only [if_pos owed, gross_eq, debt_eq]
    exact ⟨rfl, roomy.positive, roomy.debt.add whole, roomy.gross.add whole.abs,
      by simp only [Arithmetic.plus, Arithmetic.exact]; linarith,
      by simp only [Arithmetic.plus, Arithmetic.exact]; linarith⟩
  · have positive_eq : Arithmetic.decimalJs.plus totals.positiveValue value =
        totals.positiveValue + value :=
      (roomy.positive.add whole).decimalJs_round (by linarith)
    unfold ValueTotals.add
    simp only [if_neg owed, gross_eq, positive_eq]
    exact ⟨rfl, roomy.positive.add whole, roomy.debt, roomy.gross.add whole.abs,
      by simp only [Arithmetic.plus, Arithmetic.exact]; linarith,
      by simp only [Arithmetic.plus, Arithmetic.exact]; linarith⟩

theorem grossValue_cons (value : PositionAsset → Option ℚ) (asset : PositionAsset)
    (rest : List PositionAsset) :
    grossValue value (asset :: rest) = |signedValue value asset| + grossValue value rest := by
  rw [grossValue, List.map_cons, List.sum_cons, grossValue]

theorem grossValue_nonneg (value : PositionAsset → Option ℚ) (assets : List PositionAsset) :
    0 ≤ grossValue value assets := by
  apply List.sum_nonneg
  rw [List.forall_mem_map]
  exact fun asset _ => abs_nonneg _

theorem abs_signedValue {value : PositionAsset → Option ℚ} {asset : PositionAsset} {valueUsd : ℚ}
    (valued : value asset = some valueUsd) : |signedValue value asset| = |valueUsd| := by
  rw [signedValue, valued]
  dsimp only
  split
  · exact abs_neg valueUsd
  · rfl

/-- Assets that fit together are added up without an error. -/
theorem foldl_addValued_of_roomy {place : ℤ} {value : PositionAsset → Option ℚ}
    {assets : List PositionAsset}
    (whole : ∀ asset ∈ assets, ∀ valueUsd ∈ value asset, IsWhole place valueUsd)
    {totals : ValueTotals} (roomy : Roomy place (grossValue value assets) totals) :
    assets.foldl (addValued .decimalJs value) totals =
        assets.foldl (addValued .exact value) totals ∧
      Roomy place 0 (assets.foldl (addValued .exact value) totals) := by
  induction assets generalizing totals with
  | nil => exact ⟨rfl, roomy⟩
  | cons asset rest ih =>
      rw [List.forall_mem_cons] at whole
      rw [grossValue_cons] at roomy
      rw [List.foldl_cons, List.foldl_cons, addValued, addValued]
      cases valued : value asset with
      | none =>
          rw [signedValue, valued, abs_zero, zero_add] at roomy
          exact ih whole.2 roomy
      | some valueUsd =>
          rw [abs_signedValue valued] at roomy
          obtain ⟨added, rest_roomy⟩ := roomy.add (whole.1 valueUsd valued)
            (grossValue_nonneg value rest) asset.role
          dsimp only
          rw [added]
          exact ih whole.2 rest_roomy

/-- Twenty digits are enough for the position: for the amount of every priced asset, and
for all its values together in units of a common last place. -/
structure FitsPrecision (toUpperCase : String → String) (prices : PriceMap)
    (position : NormalizedPosition) : Prop where
  amounts : ∀ asset ∈ position.assets, priceOf toUpperCase prices asset ≠ none →
    IsShort 10 20 asset.amountAtomic
  values : ∃ place : ℤ,
    (∀ asset ∈ position.assets, ∀ valueUsd ∈ pricedValue .exact toUpperCase prices asset,
      IsWhole place valueUsd) ∧
    grossValue (pricedValue .exact toUpperCase prices) position.assets < 10 ^ 20 * 10 ^ place

section Fits

variable {toUpperCase : String → String} {prices : PriceMap} {position : NormalizedPosition}

theorem abs_le_grossValue {value : PositionAsset → Option ℚ} {assets : List PositionAsset}
    {asset : PositionAsset} (held : asset ∈ assets) {valueUsd : ℚ}
    (valued : value asset = some valueUsd) : |valueUsd| ≤ grossValue value assets := by
  rw [← abs_signedValue valued]
  apply List.single_le_sum
  · rw [List.forall_mem_map]
    exact fun other _ => abs_nonneg _
  · exact List.mem_map_of_mem held

/-- Every single value is exact. -/
theorem FitsPrecision.pricedValue_eq (fits : FitsPrecision toUpperCase prices position)
    {asset : PositionAsset} (held : asset ∈ position.assets) :
    pricedValue .decimalJs toUpperCase prices asset =
      pricedValue .exact toUpperCase prices asset := by
  obtain ⟨place, whole, gross_lt⟩ := fits.values
  unfold pricedValue
  cases priced : priceOf toUpperCase prices asset with
  | none => rfl
  | some price =>
      have valued : pricedValue .exact toUpperCase prices asset =
          some (exactValue asset price) := by
        rw [pricedValue, priced, Option.map_some, assetValue_exact]
      have short := (whole asset held _ valued).isShort
        ((abs_le_grossValue held valued).trans_lt gross_lt)
      rw [Option.map_some, Option.map_some, assetValue_exact, assetValue_of_isShort _ short]
      exact fits.amounts asset held (by rw [priced]; exact Option.some_ne_none _)

/-- And so is the net value. -/
theorem FitsPrecision.net_eq (fits : FitsPrecision toUpperCase prices position) :
    Arithmetic.decimalJs.minus
        (valueTotals .decimalJs toUpperCase prices position.assets).positiveValue
        (valueTotals .decimalJs toUpperCase prices position.assets).debtValue =
      (position.assets.map (signedValue (pricedValue .exact toUpperCase prices))).sum := by
  obtain ⟨place, whole, gross_lt⟩ := fits.values
  have start : Roomy place (grossValue (pricedValue .exact toUpperCase prices) position.assets)
      .zero :=
    ⟨.zero place, .zero place, .zero place, by simpa [ValueTotals.zero] using gross_lt,
      by simpa [ValueTotals.zero] using gross_lt⟩
  obtain ⟨sums_eq, roomy⟩ := foldl_addValued_of_roomy whole start
  have totals_eq : valueTotals .decimalJs toUpperCase prices position.assets =
      valueTotals .exact toUpperCase prices position.assets := by
    rw [valueTotals, valueTotals, addAsset_eq, addAsset_eq, ← sums_eq]
    apply List.foldl_ext
    intro totals asset held
    rw [addValued, addValued, fits.pricedValue_eq held]
  rw [← addAsset_eq, ← valueTotals] at roomy
  have small := roomy.sums_lt
  rw [add_zero] at small
  rw [totals_eq, ← valueTotals_net]
  exact (roomy.positive.sub roomy.debt).decimalJs_round ((abs_sub _ _).trans_lt small)

end Fits

/-! ## What is reported -/

section Reported

variable (toUpperCase : String → String) (prices : PriceMap) (position : NormalizedPosition)

/-- The net value of a position went through one operation more than its sums. -/
theorem tracks_netValue :
    Tracks decimalShare (valuedCount (pricedValue .exact toUpperCase prices) position.assets + 3)
      (grossValue (pricedValue .exact toUpperCase prices) position.assets)
      (position.assets.map (signedValue (pricedValue .exact toUpperCase prices))).sum
      (Arithmetic.decimalJs.minus
        (valueTotals .decimalJs toUpperCase prices position.assets).positiveValue
        (valueTotals .decimalJs toUpperCase prices position.assets).debtValue) := by
  have tracks : ∀ asset ∈ position.assets, Option.Rel
      (fun exact value => Tracks decimalShare 2 |exact| exact value)
      (pricedValue .exact toUpperCase prices asset)
      (pricedValue .decimalJs toUpperCase prices asset) := by
    intro asset _
    unfold pricedValue
    cases priceOf toUpperCase prices asset with
    | none => exact .none
    | some price => exact .some (tracks_assetValue asset price)
  have summed := foldl_addValued_track decimalShare_nonneg abs_decimalJs_sub_le tracks le_rfl
    (TotalsTrack.zero decimalShare 2)
  have net := summed.minus decimalShare_nonneg abs_decimalJs_sub_le
  rw [zero_add, zero_add, Nat.add_comm 2, Nat.add_assoc] at net
  rw [valueTotals, addAsset_eq]
  exact net

/-- With decimal.js at its default precision, the value written for a priced asset is its
units times its price, off by at most half a unit of the eighth decimal and a share of
about one in ten to the nineteenth.  It is that product rounded to eight decimals, ties
away from zero, wherever amount and product have at most twenty digits, and wherever no tie
lies within that share.  The same holds of the value of a position with a priced asset and
the exact net value of its assets, the share growing with the number of priced assets. -/
theorem valuation_precision :
    (∀ (place : ℕ) (asset : PositionAsset) (price : PriceLike),
      position.assets[place]? = some asset → priceOf toUpperCase prices asset = some price →
      ∃ written : ℚ,
        valueAt (valuePosition .decimalJs toUpperCase prices position) place = some written ∧
        |written - exactValue asset price| ≤
          1 / 2 * (1 / 10 ^ 8) + drift decimalShare 2 * |exactValue asset price| ∧
        (IsShort 10 20 asset.amountAtomic ∧ IsShort 10 20 (exactValue asset price) ∨
            ¬NearTie 8 (drift decimalShare 2 * |exactValue asset price|)
              (exactValue asset price) →
          written = toDecimalPlaces 8 (exactValue asset price))) ∧
    ((∃ asset ∈ position.assets, priceOf toUpperCase prices asset ≠ none) →
      let exactUsd := pricedValue .exact toUpperCase prices
      let net := (position.assets.map (signedValue exactUsd)).sum
      let error := drift decimalShare (valuedCount exactUsd position.assets + 3) *
        grossValue exactUsd position.assets
      ∃ written : ℚ,
        (valuePosition .decimalJs toUpperCase prices position).valueUsd = some written ∧
        |written - net| ≤ 1 / 2 * (1 / 10 ^ 8) + error ∧
        (FitsPrecision toUpperCase prices position ∨ ¬NearTie 8 error net →
          written = toDecimalPlaces 8 net)) := by
  constructor
  · intro place asset price found priced
    have tracks := tracks_assetValue asset price
    refine ⟨_, ?_, abs_reported_sub_le tracks, ?_⟩
    · rw [valueAt, valuePosition_assets, List.getElem?_map, found, Option.map_some,
        Option.bind_some, valueAsset_of_some priced]
    · rintro (⟨amount, value⟩ | clear)
      · rw [assetValue_of_isShort amount value]
      · exact toDecimalPlaces_eq_of_close tracks.error_le clear
  · rintro ⟨asset, held, priced⟩
    have tracks := tracks_netValue toUpperCase prices position
    refine ⟨_, valuePosition_valueUsd_of_priced held priced, abs_reported_sub_le tracks, ?_⟩
    rintro (fits | clear)
    · rw [fits.net_eq]
    · exact toDecimalPlaces_eq_of_close tracks.error_le clear

end Reported

/-- A thousand units of a token with eighteen decimals, and a bit less than half a unit of
the eighth decimal. -/
def fineToken : PositionAsset where
  assetId := "token"
  symbol := "TKN"
  amountAtomic := 1000000000004999999999
  decimals := 18
  role := .asset

/-- A wallet with that token. -/
def fineWallet : NormalizedPosition where
  id := "wallet"
  protocolId := "native-stacks"
  type := .wallet
  assets := [fineToken]
  source := { blockHeight := 100, observedAt := 0, exact := true }

/-- At one dollar each. -/
def fineQuotes : PriceMap where
  entries := [("token", { assetId := "token", priceUsd := 1 })]
  distinct := by decide

/-- Twenty digits round it up to the tie, and the tie is rounded up again. -/
theorem fineToken_rounded_twice :
    ¬∀ (prices : PriceMap) (position : NormalizedPosition) (place : ℕ) (asset : PositionAsset)
        (price : PriceLike),
      position.assets[place]? = some asset →
      priceOf String.toUpper prices asset = some price →
      asset.amountAtomic < 2 ^ 128 → asset.decimals ≤ 255 →
      toDecimalPlaces 8 price.priceUsd = price.priceUsd →
      valueAt (valuePosition .decimalJs String.toUpper prices position) place =
        some (toDecimalPlaces 8 (exactValue asset price)) := by
  intro exactly
  have written := exactly fineQuotes fineWallet 0 fineToken { assetId := "token", priceUsd := 1 }
    rfl (by decide) (by decide) (by decide) (by decide +kernel)
  exact absurd written (by decide +kernel)

/-- The general statement at a loan whose amounts have a few digits. -/
theorem valuation_precision_bridgedLoan :
    ∃ written : ℚ,
      (valuePosition .decimalJs String.toUpper bridgedQuotes bridgedLoan).valueUsd =
        some written ∧
      written = toDecimalPlaces 8 (bridgedLoan.assets.map
        (signedValue (pricedValue .exact String.toUpper bridgedQuotes))).sum := by
  obtain ⟨written, reported, -, exactly⟩ :=
    (valuation_precision String.toUpper bridgedQuotes bridgedLoan).2 (by decide +kernel)
  refine ⟨written, reported, exactly (.inl ⟨?_, -3, ?_, by decide +kernel⟩)⟩
  · intro asset held priced
    simp only [bridgedLoan, List.mem_cons, List.not_mem_nil, or_false] at held
    rcases held with rfl | rfl | rfl
    · exact ⟨123456789, 0, by norm_num, by norm_num⟩
    · exact ⟨50000000000, 0, by norm_num, by norm_num⟩
    · exact ⟨7, 0, by norm_num, by norm_num⟩
  · have whole : ∀ asset ∈ bridgedLoan.assets,
        ∀ valueUsd ∈ pricedValue .exact String.toUpper bridgedQuotes asset,
          valueUsd = (valueUsd * 1000).num * 10 ^ (-3 : ℤ) := by decide +kernel
    exact fun asset held valueUsd valued => ⟨_, whole asset held valueUsd valued⟩

end RiskRail.Engine
