import RiskRail.Engine.Inputs
import RiskRail.Engine.Revaluation
import RiskRail.Engine.Unpriced

/-!
# Totals by key

The three totals of a portfolio add up the same money.  Each map adds to one of its
entries what the total is given, so the entries sum up to it, and what is left are the
roundings: of the assets' values and the positions' values to eight decimals, and of
every reported total to two.
-/

namespace RiskRail.Engine

open RiskRail.Numeric

/-! ## Entries -/

/-- What the entries of a map hold together. -/
def entriesSum (entries : List (String × ℚ)) : ℚ :=
  (entries.map Prod.snd).sum

theorem entriesSum_cons (entry : String × ℚ) (rest : List (String × ℚ)) :
    entriesSum (entry :: rest) = entry.2 + entriesSum rest := by
  rw [entriesSum, List.map_cons, List.sum_cons, entriesSum]

/-- Whatever its key, a value is added once. -/
theorem entriesSum_addTo (key : String) (value : ℚ) (entries : List (String × ℚ)) :
    entriesSum (addTo .exact key value entries) = entriesSum entries + value := by
  induction entries with
  | nil => simp [addTo, entriesSum, Arithmetic.plus, Arithmetic.exact]
  | cons entry rest ih =>
      rcases entry with ⟨other, sum⟩
      rw [addTo]
      split
      · rw [entriesSum_cons, entriesSum_cons]
        simp only [Arithmetic.plus, Arithmetic.exact]
        ring
      · rw [entriesSum_cons, entriesSum_cons, ih]
        ring

theorem places_cents : (10 : ℚ) ^ (-((2 : ℕ) : ℤ)) = 1 / 100 := by
  norm_num

theorem abs_cents_sub_le (x : ℚ) : |toDecimalPlaces 2 x - x| ≤ 5 / 1000 := by
  have error := abs_toDecimalPlaces_sub_le 2 x
  rw [places_cents] at error
  linarith

/-- The cents of the entries and of a number close to their sum. -/
theorem abs_cents_entriesSum_le (entries : List (String × ℚ)) {x error : ℚ}
    (close : |x - entriesSum entries| ≤ error) :
    |toDecimalPlaces 2 x -
        entriesSum (entries.map fun entry => (entry.1, toDecimalPlaces 2 entry.2))| ≤
      5 / 1000 * (entries.length + 1) + error := by
  have each : |entriesSum (entries.map fun entry => (entry.1, toDecimalPlaces 2 entry.2)) -
      entriesSum entries| ≤ (entries.map fun _ => (5 / 1000 : ℚ)).sum := by
    rw [entriesSum, List.map_map]
    exact abs_sum_sub_le fun entry _ => abs_cents_sub_le entry.2
  rw [List.map_const', List.sum_replicate, nsmul_eq_mul] at each
  have whole := abs_cents_sub_le x
  rw [abs_le] at each whole close ⊢
  constructor <;> linarith [each.1, each.2, whole.1, whole.2, close.1, close.2]

/-! ## The running sums -/

theorem foldl_addAsset_byProtocol (assets : List PositionAsset) (totals : PortfolioTotals) :
    (assets.foldl (PortfolioTotals.addAsset .exact) totals).byProtocol = totals.byProtocol := by
  induction assets generalizing totals with
  | nil => rfl
  | cons asset rest ih =>
      rw [List.foldl_cons, ih]
      unfold PortfolioTotals.addAsset
      split <;> rfl

/-- The assets of a position are added with the signs of their roles. -/
theorem foldl_addAsset_byAsset (assets : List PositionAsset) (totals : PortfolioTotals) :
    entriesSum (assets.foldl (PortfolioTotals.addAsset .exact) totals).byAsset =
      entriesSum totals.byAsset + (assets.map (signedValue PositionAsset.valueUsd)).sum := by
  induction assets generalizing totals with
  | nil => simp
  | cons asset rest ih =>
      rw [List.foldl_cons, ih, List.map_cons, List.sum_cons, signedValue,
        PortfolioTotals.addAsset]
      cases asset.valueUsd with
      | none => simp
      | some valueUsd =>
          dsimp only
          rw [entriesSum_addTo]
          ring

/-- One position moves the total and the entries of the protocols by its value, and the
entries of the assets by the values of its assets. -/
theorem addPosition_sums (totals : PortfolioTotals) (position : NormalizedPosition) :
    (totals.addPosition .exact position).total =
        totals.total + position.valueUsd.getD 0 ∧
      entriesSum (totals.addPosition .exact position).byProtocol =
        entriesSum totals.byProtocol + position.valueUsd.getD 0 ∧
      entriesSum (totals.addPosition .exact position).byAsset =
        entriesSum totals.byAsset +
          (position.assets.map (signedValue PositionAsset.valueUsd)).sum := by
  unfold PortfolioTotals.addPosition
  dsimp only
  rw [foldl_addAsset_total, foldl_addAsset_byProtocol, foldl_addAsset_byAsset]
  cases position.valueUsd with
  | none => simp
  | some valueUsd =>
      dsimp only
      rw [entriesSum_addTo]
      exact ⟨rfl, rfl, rfl⟩

theorem foldl_addPosition_sums (positions : List NormalizedPosition) (totals : PortfolioTotals) :
    (positions.foldl (PortfolioTotals.addPosition .exact) totals).total =
        totals.total + (positions.map fun position => position.valueUsd.getD 0).sum ∧
      entriesSum (positions.foldl (PortfolioTotals.addPosition .exact) totals).byProtocol =
        entriesSum totals.byProtocol +
          (positions.map fun position => position.valueUsd.getD 0).sum ∧
      entriesSum (positions.foldl (PortfolioTotals.addPosition .exact) totals).byAsset =
        entriesSum totals.byAsset +
          (positions.map fun position =>
            (position.assets.map (signedValue PositionAsset.valueUsd)).sum).sum := by
  induction positions generalizing totals with
  | nil => simp
  | cons position rest ih =>
      have step := addPosition_sums totals position
      have run := ih (totals.addPosition .exact position)
      rw [step.1, step.2.1, step.2.2] at run
      rw [List.foldl_cons, run.1, run.2.1, run.2.2]
      simp only [List.map_cons, List.sum_cons, ← add_assoc, and_self]

/-! ## Valued positions -/

section Valued

variable {toUpperCase : String → String} {prices : PriceMap}

/-- The value of a fully priced position and the values of its assets. -/
theorem abs_valueUsd_sub_assets_le {adapter : AdapterPosition}
    (priced : ∀ asset ∈ adapter.position.assets, priceOf toUpperCase prices asset ≠ none) :
    |(valuePosition .exact toUpperCase prices adapter.position).valueUsd.getD 0 -
        ((valuePosition .exact toUpperCase prices adapter.position).assets.map
          (signedValue PositionAsset.valueUsd)).sum| ≤
      1 / 10 ^ 8 * (adapter.position.assets.length + 1) := by
  rw [valuePosition_assets, List.map_map]
  have written : |(adapter.position.assets.map (signedValue PositionAsset.valueUsd ∘
        valueAsset .exact toUpperCase prices)).sum -
      (adapter.position.assets.map
        (signedValue (pricedValue .exact toUpperCase prices))).sum| ≤
      (adapter.position.assets.map fun _ => (1 / 2 * (1 / 10 ^ 8) : ℚ)).sum := by
    apply abs_sum_sub_le
    intro asset held
    refine (abs_signedValue_written_le (adapter.assets_none asset held)).trans_eq ?_
    exact if_neg (priced asset held)
  rw [List.map_const', List.sum_replicate, nsmul_eq_mul] at written
  have count_nonneg : (0 : ℚ) ≤ adapter.position.assets.length := Nat.cast_nonneg _
  rcases eq_or_ne adapter.position.assets [] with empty | nonempty
  · have unvalued : (valuePosition .exact toUpperCase prices adapter.position).valueUsd = none := by
      refine (deriveLendingMetrics_values .exact toUpperCase _ _).2.trans ?_
      dsimp only
      rw [empty, adapter.valueUsd_none]
      rfl
    rw [unvalued, empty]
    norm_num
  · obtain ⟨asset, held⟩ := List.exists_mem_of_ne_nil _ nonempty
    have net := abs_toDecimalPlaces_sub_le 8 (adapter.position.assets.map
      (signedValue (pricedValue .exact toUpperCase prices))).sum
    rw [places_unit] at net
    rw [valuePosition_valueUsd_of_priced held (priced asset held), Option.getD_some,
      valueTotals_net]
    rw [abs_le] at written net ⊢
    constructor <;> linarith [written.1, written.2, net.1, net.2]

end Valued

theorem sum_map_length_add_one (unit : ℚ) (adapters : List AdapterPosition) :
    (adapters.map fun adapter => unit * ((adapter.position.assets.length : ℚ) + 1)).sum =
      unit * ((adapters.map fun adapter => adapter.position.assets.length).sum +
        adapters.length) := by
  induction adapters with
  | nil => simp
  | cons adapter rest ih =>
      rw [List.map_cons, List.sum_cons, ih, List.map_cons, List.sum_cons, List.length_cons]
      push_cast
      ring

/-- In exact arithmetic the total of a portfolio differs from the sum of its protocols by
the rounding to cents only; where every asset has a price, it differs from the sum of its
assets by that and the rounding of every asset and every position to eight decimals. -/
theorem totals_conserve (toUpperCase : String → String) (owner : String) (prices : PriceMap)
    (adapters : List AdapterPosition) :
    let portfolio := buildPortfolio .exact owner
      (valuePositions .exact toUpperCase prices (adapters.map AdapterPosition.position))
    |portfolio.totalValueUsd - (portfolio.byProtocol.map Prod.snd).sum| ≤
        5 / 1000 * (portfolio.byProtocol.length + 1) ∧
      ((∀ adapter ∈ adapters, ∀ asset ∈ adapter.position.assets,
          priceOf toUpperCase prices asset ≠ none) →
        |portfolio.totalValueUsd - (portfolio.byAsset.map Prod.snd).sum| ≤
          5 / 1000 * (portfolio.byAsset.length + 1) +
            1 / 10 ^ 8 *
              ((adapters.map fun adapter => adapter.position.assets.length).sum +
                adapters.length)) := by
  intro portfolio
  let totals := (valuePositions .exact toUpperCase prices
    (adapters.map AdapterPosition.position)).foldl (PortfolioTotals.addPosition .exact)
      ⟨0, [], [], 0, 0⟩
  obtain ⟨total_eq, protocol_eq, asset_eq⟩ := foldl_addPosition_sums
    (valuePositions .exact toUpperCase prices (adapters.map AdapterPosition.position))
    ⟨0, [], [], 0, 0⟩
  constructor
  · have same : |totals.total - entriesSum totals.byProtocol| ≤ 0 := by
      rw [abs_nonpos_iff, sub_eq_zero]
      exact total_eq.trans protocol_eq.symm
    have cents := abs_cents_entriesSum_le totals.byProtocol same
    have entries : portfolio.byProtocol.length = totals.byProtocol.length := List.length_map _
    rw [add_zero, ← entries] at cents
    exact cents
  · intro priced
    have total_sum : totals.total = (adapters.map fun adapter =>
        (valuePosition .exact toUpperCase prices adapter.position).valueUsd.getD 0).sum := by
      refine total_eq.trans ?_
      rw [zero_add, valuePositions, List.map_map, List.map_map]
      rfl
    have asset_sum : entriesSum totals.byAsset = (adapters.map fun adapter =>
        ((valuePosition .exact toUpperCase prices adapter.position).assets.map
          (signedValue PositionAsset.valueUsd)).sum).sum := by
      refine asset_eq.trans ?_
      rw [valuePositions, List.map_map, List.map_map]
      exact zero_add _
    have apart : |totals.total - entriesSum totals.byAsset| ≤
        1 / 10 ^ 8 * ((adapters.map fun adapter => adapter.position.assets.length).sum +
          adapters.length) := by
      rw [total_sum, asset_sum, ← sum_map_length_add_one]
      exact abs_sum_sub_le fun adapter member => abs_valueUsd_sub_assets_le (priced adapter member)
    have cents := abs_cents_entriesSum_le totals.byAsset apart
    have entries : portfolio.byAsset.length = totals.byAsset.length := List.length_map _
    rw [← entries] at cents
    exact cents

/-- A loan whose two debts are both quoted. -/
theorem totals_conserve_unquotedDebt :
    let portfolio := buildPortfolio .exact "owner"
      (valuePositions .exact String.toUpper threeQuotes
        ([unquotedDebt].map AdapterPosition.position))
    |portfolio.totalValueUsd - (portfolio.byAsset.map Prod.snd).sum| ≤
      5 / 1000 * (portfolio.byAsset.length + 1) +
        1 / 10 ^ 8 *
          (([unquotedDebt].map fun adapter => adapter.position.assets.length).sum +
            [unquotedDebt].length) :=
  (totals_conserve String.toUpper "owner" threeQuotes [unquotedDebt]).2 (by decide +kernel)

end RiskRail.Engine
