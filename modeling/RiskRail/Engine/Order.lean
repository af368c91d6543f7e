import RiskRail.Engine.Scenario
import Mathlib.Algebra.Order.BigOperators.Group.List
import Mathlib.Data.List.Induction
import Mathlib.Data.List.Nodup

/-!
# The order of positions and assets

In exact arithmetic the risk summary adds up, groups and compares.  A sum does not depend
on the order of its terms; a group is determined by its key and holds the sum of the values
with that key, so reordered items give the same groups in another order; and a largest or a
smallest value is the same wherever it stands.
-/

namespace RiskRail.Engine

open RiskRail.Numeric

/-! ## Groups -/

/-- What the items with a key hold together. -/
def keyTotal (key : String) (items : List (String × ℚ)) : ℚ :=
  ((items.filter fun item => item.1 = key).map Prod.snd).sum

theorem keyTotal_cons (key : String) (item : String × ℚ) (rest : List (String × ℚ)) :
    keyTotal key (item :: rest) = (if item.1 = key then item.2 else 0) + keyTotal key rest := by
  unfold keyTotal
  rw [List.filter_cons]
  by_cases same : item.1 = key
  · simp [same]
  · simp [same]

/-- A value is added to its group. -/
theorem keyTotal_addTo (key other : String) (value : ℚ) (groups : List (String × ℚ)) :
    keyTotal key (addTo .exact other value groups) =
      keyTotal key groups + if other = key then value else 0 := by
  induction groups with
  | nil =>
      rw [addTo, keyTotal_cons]
      simp [keyTotal, Arithmetic.plus, Arithmetic.exact]
  | cons group rest ih =>
      rcases group with ⟨name, sum⟩
      rw [addTo]
      split
      next same =>
        subst same
        rw [keyTotal_cons, keyTotal_cons]
        simp only [Arithmetic.plus, Arithmetic.exact]
        split <;> ring
      next => rw [keyTotal_cons, ih, keyTotal_cons, add_assoc]

theorem mem_keys_addTo (arithmetic : Arithmetic) {key other : String} {value : ℚ}
    {groups : List (String × ℚ)} :
    key ∈ (addTo arithmetic other value groups).map Prod.fst ↔
      key = other ∨ key ∈ groups.map Prod.fst := by
  induction groups with
  | nil => simp [addTo]
  | cons group rest ih =>
      rcases group with ⟨name, sum⟩
      rw [addTo]
      split
      next same =>
        subst same
        simp
      next => rw [List.map_cons, List.mem_cons, ih, List.map_cons, List.mem_cons, or_left_comm]

theorem nodup_addTo (arithmetic : Arithmetic) (other : String) (value : ℚ)
    {groups : List (String × ℚ)} (distinct : (groups.map Prod.fst).Nodup) :
    ((addTo arithmetic other value groups).map Prod.fst).Nodup := by
  induction groups with
  | nil => simp [addTo]
  | cons group rest ih =>
      rcases group with ⟨name, sum⟩
      rw [List.map_cons, List.nodup_cons] at distinct
      rw [addTo]
      split
      next => exact List.nodup_cons.mpr distinct
      next differs =>
        rw [List.map_cons, List.nodup_cons, mem_keys_addTo, not_or]
        exact ⟨⟨differs, distinct.1⟩, ih distinct.2⟩

/-- The items grouped by key, in the order in which the keys first come. -/
def groupsOf (arithmetic : Arithmetic) (items : List (String × ℚ)) : List (String × ℚ) :=
  items.foldl (fun groups item => addTo arithmetic item.1 item.2 groups) []

/-- With distinct keys, a group is the total of its key. -/
theorem mem_iff_keyTotal {groups : List (String × ℚ)} (distinct : (groups.map Prod.fst).Nodup)
    {group : String × ℚ} :
    group ∈ groups ↔
      group.1 ∈ groups.map Prod.fst ∧ group.2 = keyTotal group.1 groups := by
  induction groups with
  | nil => simp
  | cons first rest ih =>
      rw [List.map_cons, List.nodup_cons] at distinct
      rw [List.mem_cons, ih distinct.2, List.map_cons, List.mem_cons, keyTotal_cons]
      have absent : keyTotal first.1 rest = 0 := by
        rw [keyTotal, List.filter_eq_nil_iff.mpr, List.map_nil, List.sum_nil]
        intro item member same
        rw [decide_eq_true_iff] at same
        exact distinct.1 (same ▸ List.mem_map_of_mem member)
      by_cases same : group.1 = first.1
      · rw [same, if_pos rfl, absent, add_zero]
        constructor
        · rintro (rfl | ⟨member, -⟩)
          · exact ⟨.inl rfl, rfl⟩
          · exact absurd member distinct.1
        · rintro ⟨-, value⟩
          exact .inl (Prod.ext same value)
      · rw [if_neg (Ne.symm same), zero_add]
        constructor
        · rintro (rfl | rest_member)
          · exact absurd rfl same
          · exact ⟨.inr rest_member.1, rest_member.2⟩
        · rintro ⟨key | key, value⟩
          · exact absurd key same
          · exact .inr ⟨key, value⟩

/-- What grouping keeps of the items. -/
theorem groupsOf_spec (items : List (String × ℚ)) :
    ((groupsOf .exact items).map Prod.fst).Nodup ∧
      (∀ key, key ∈ (groupsOf .exact items).map Prod.fst ↔ key ∈ items.map Prod.fst) ∧
      ∀ key, keyTotal key (groupsOf .exact items) = keyTotal key items := by
  induction items using List.reverseRecOn with
  | nil => simp [groupsOf]
  | append_singleton items item ih =>
      have grown : groupsOf .exact (items ++ [item]) =
          addTo .exact item.1 item.2 (groupsOf .exact items) := by
        rw [groupsOf, List.foldl_append]
        rfl
      rw [grown]
      refine ⟨nodup_addTo _ _ _ ih.1, ?_, ?_⟩
      · intro key
        rw [mem_keys_addTo, ih.2.1, List.map_append, List.mem_append, or_comm]
        simp
      · intro key
        rw [keyTotal_addTo, ih.2.2, keyTotal, keyTotal, List.filter_append, List.map_append,
          List.sum_append]
        by_cases same : item.1 = key
        · simp [same]
        · simp [same]

/-- Reordered items have the same groups, in some order. -/
theorem groupsOf_perm {items others : List (String × ℚ)} (perm : items.Perm others) :
    (groupsOf .exact items).Perm (groupsOf .exact others) := by
  have first := groupsOf_spec items
  have second := groupsOf_spec others
  rw [List.perm_ext_iff_of_nodup (.of_map _ first.1) (.of_map _ second.1)]
  intro group
  have total : keyTotal group.1 items = keyTotal group.1 others :=
    ((perm.filter _).map _).sum_eq
  rw [mem_iff_keyTotal first.1, mem_iff_keyTotal second.1, first.2.1, second.2.1, first.2.2,
    second.2.2, total, (perm.map Prod.fst).mem_iff]

/-! ## The largest and the smallest -/

theorem le_topEntry {groups : List (String × ℚ)} {top : String × ℚ}
    (found : topEntry groups = some top) {group : String × ℚ} (member : group ∈ groups) :
    group.2 ≤ top.2 := by
  cases groups with
  | nil => cases found
  | cons first rest =>
      have largest : ∀ start : String × ℚ, ∀ entry ∈ start :: rest, entry.2 ≤
          (rest.foldl (fun top entry => if entry.2 ≤ top.2 then top else entry) start).2 := by
        clear found member
        induction rest with
        | nil => simp
        | cons next rest ih =>
            intro start entry listed
            rw [List.foldl_cons]
            have kept := ih (if next.2 ≤ start.2 then start else next)
            have head := kept _ List.mem_cons_self
            rcases List.mem_cons.mp listed with rfl | listed
            · refine le_trans ?_ head
              split <;> linarith
            · rcases List.mem_cons.mp listed with rfl | listed
              · refine le_trans ?_ head
                split <;> linarith
              · exact kept entry (List.mem_cons_of_mem _ listed)
      cases found
      exact largest first group member

theorem topEntry_eq_none {groups : List (String × ℚ)} (missing : topEntry groups = none) :
    groups = [] := by
  cases groups with
  | nil => rfl
  | cons group rest => cases missing

theorem topShareBps_of_topEntry {arithmetic : Arithmetic} {groups : List (String × ℚ)}
    {top : String × ℚ} (found : topEntry groups = some top) (total : ℚ) :
    (concentrationOf arithmetic groups total).topShareBps = shareBps arithmetic top.2 total := by
  rw [concentrationOf, found]

/-- The leading share does not depend on the order of the groups. -/
theorem topShareBps_perm {groups others : List (String × ℚ)} (perm : groups.Perm others)
    (total : ℚ) :
    (concentrationOf .exact groups total).topShareBps =
      (concentrationOf .exact others total).topShareBps := by
  cases first : topEntry groups with
  | none =>
      have empty := topEntry_eq_none first
      subst empty
      rw [List.nil_perm.mp perm]
  | some top =>
      cases second : topEntry others with
      | none =>
          have empty := topEntry_eq_none second
          subst empty
          rw [List.perm_nil.mp perm]
      | some other =>
          have same : top.2 = other.2 :=
            le_antisymm (le_topEntry second (perm.subset (topEntry_mem first)))
              (le_topEntry first (perm.symm.subset (topEntry_mem second)))
          rw [topShareBps_of_topEntry first, topShareBps_of_topEntry second, same]

theorem smallest_perm {values others : List (Option ℚ)} (perm : values.Perm others) :
    smallest values = smallest others := by
  cases first : smallest values with
  | none =>
      rw [smallest_eq_none_iff] at first
      exact (smallest_eq_none_iff.mpr fun value member =>
        first value (perm.symm.subset member)).symm
  | some least =>
      have found := smallest_eq_some first
      cases second : smallest others with
      | none =>
          exact absurd (smallest_eq_none_iff.mp second _ (perm.subset found.1))
            (Option.some_ne_none least)
      | some other =>
          have bound := smallest_eq_some second
          rw [le_antisymm (found.2 other (perm.symm.subset bound.1))
            (bound.2 least (perm.subset found.1))]

/-! ## Reordered positions -/

/-- The position with its assets in another order. -/
def ReorderedAssets (position other : NormalizedPosition) : Prop :=
  ∃ assets, position.assets.Perm assets ∧ other = { position with assets := assets }

/-- The positions in another order, each with its assets in another order. -/
def Reordered (positions others : List NormalizedPosition) : Prop :=
  ∃ middle, List.Forall₂ ReorderedAssets positions middle ∧ middle.Perm others

section Reordered

variable {positions others : List NormalizedPosition} (reordered : Reordered positions others)

include reordered

/-- What does not depend on the order of the assets is only reordered. -/
theorem Reordered.map_perm {β : Type} {read : NormalizedPosition → β}
    (alike : ∀ position other, ReorderedAssets position other → read position = read other) :
    (positions.map read).Perm (others.map read) := by
  obtain ⟨middle, pointwise, perm⟩ := reordered
  have same : positions.map read = middle.map read := by
    clear perm
    induction pointwise with
    | nil => rfl
    | cons head _ ih => rw [List.map_cons, List.map_cons, alike _ _ head, ih]
  rw [same]
  exact perm.map read

theorem Reordered.assets_perm :
    (positions.flatMap NormalizedPosition.assets).Perm
      (others.flatMap NormalizedPosition.assets) := by
  obtain ⟨middle, pointwise, perm⟩ := reordered
  refine List.Perm.trans ?_ (perm.flatMap_right _)
  clear perm
  induction pointwise with
  | nil => exact .nil
  | @cons position other rest others head _ ih =>
      obtain ⟨assets, assets_perm, rfl⟩ := head
      rw [List.flatMap_cons, List.flatMap_cons]
      exact assets_perm.append ih

end Reordered

/-! ## The sums of the summary -/

section Sums

variable {position other : NormalizedPosition}

theorem foldl_plus_exact {α : Type} (value : α → ℚ) (items : List α) (start : ℚ) :
    items.foldl (fun sum item => Arithmetic.exact.plus sum (value item)) start =
      start + (items.map value).sum := by
  induction items generalizing start with
  | nil => simp
  | cons item rest ih =>
      rw [List.foldl_cons, ih, List.map_cons, List.sum_cons]
      simp only [Arithmetic.plus, Arithmetic.exact]
      ring

theorem getGrossExposure_nonneg (position : NormalizedPosition) :
    0 ≤ getGrossExposure .exact position := by
  unfold getGrossExposure
  split
  · exact abs_nonneg _
  · split
    · rw [foldl_plus_exact, zero_add]
      apply List.sum_nonneg
      rw [List.forall_mem_map]
      intro asset _
      cases asset.valueUsd with
      | none => exact le_rfl
      | some valueUsd => exact abs_nonneg valueUsd
    · exact abs_nonneg _

theorem getGrossExposure_reordered (same : ReorderedAssets position other) :
    getGrossExposure .exact position = getGrossExposure .exact other := by
  obtain ⟨assets, perm, rfl⟩ := same
  have any_eq : (position.assets.any fun asset => asset.valueUsd.isSome) =
      assets.any fun asset => asset.valueUsd.isSome := perm.any_eq
  have sum_eq := (perm.map fun asset => (asset.valueUsd.map abs).getD 0).sum_eq
  unfold getGrossExposure
  dsimp only
  rw [any_eq, foldl_plus_exact, foldl_plus_exact, sum_eq]

/-- What a position brings to the groups of the protocols. -/
def protocolItem (position : NormalizedPosition) : Option (String × ℚ) :=
  if position.type = .wallet ∨ getGrossExposure .exact position ≤ 0 then none
  else some (position.protocolId, getGrossExposure .exact position)

theorem foldl_protocolTotals (positions : List NormalizedPosition) (totals : ProtocolTotals) :
    positions.foldl (ProtocolTotals.add .exact) totals =
      { total := totals.total + (positions.map (getGrossExposure .exact)).sum
        grouped := (positions.filterMap protocolItem).foldl
          (fun groups item => addTo .exact item.1 item.2 groups) totals.grouped } := by
  induction positions generalizing totals with
  | nil => simp
  | cons position rest ih =>
      rw [List.foldl_cons, ih, List.map_cons, List.sum_cons, ← add_assoc, ProtocolTotals.add]
      dsimp only
      by_cases left_out : position.type = .wallet ∨ getGrossExposure .exact position ≤ 0
      · rw [List.filterMap_cons_none (by rw [protocolItem, if_pos left_out]), if_pos left_out]
        rfl
      · rw [List.filterMap_cons_some (by rw [protocolItem, if_neg left_out]), if_neg left_out]
        rfl

/-- What a position brings to the sums of the accessibility. -/
def accessItem (position : NormalizedPosition) : ℚ × ℚ :=
  let gross := getGrossExposure .exact position
  if gross ≤ 0 then (0, 0) else (gross, gross * (position.liquidBps.getD 10000 : ℕ))

theorem foldl_accessTotals (positions : List NormalizedPosition) (totals : AccessTotals) :
    positions.foldl (AccessTotals.add .exact) totals =
      { total := totals.total + ((positions.map accessItem).map Prod.fst).sum
        weighted := totals.weighted + ((positions.map accessItem).map Prod.snd).sum } := by
  induction positions generalizing totals with
  | nil => simp
  | cons position rest ih =>
      rw [List.foldl_cons, ih, List.map_cons, List.map_cons, List.map_cons, List.sum_cons,
        List.sum_cons, ← add_assoc, ← add_assoc, AccessTotals.add, accessItem]
      split
      · simp
      · rfl

/-- What an asset brings to the groups of the symbols. -/
def assetItem (toUpperCase : String → String) (asset : PositionAsset) : Option (String × ℚ) :=
  asset.valueUsd.map fun valueUsd => (toUpperCase asset.symbol, |valueUsd|)

theorem assetGroups_eq (toUpperCase : String → String) (positions : List NormalizedPosition) :
    assetGroups .exact toUpperCase positions =
      groupsOf .exact
        ((positions.flatMap NormalizedPosition.assets).filterMap (assetItem toUpperCase)) := by
  unfold assetGroups groupsOf
  rw [List.foldl_filterMap]
  congr 1
  funext groups asset
  unfold assetItem
  cases asset.valueUsd <;> rfl

end Sums

/-! ## The summary -/

section Summary

variable (toUpperCase : String → String) {positions others : List NormalizedPosition}

theorem calculateConcentration_perm {entries others : List (String × ℚ)}
    (perm : entries.Perm others) :
    (calculateConcentration .exact entries).topShareBps =
      (calculateConcentration .exact others).topShareBps := by
  have normalized := (perm.map fun entry => (entry.1, |entry.2|)).filter fun entry => 0 < entry.2
  have sum_eq := (normalized.map Prod.snd).sum_eq
  unfold calculateConcentration
  dsimp only
  rw [foldl_plus_exact, foldl_plus_exact, sum_eq]
  split
  · rfl
  · exact topShareBps_perm normalized _

/-- The leading entry is a part of the sum of all. -/
theorem isBps_calculateConcentration (entries : List (String × ℚ)) :
    IsBps (calculateConcentration .exact entries).topShareBps := by
  unfold calculateConcentration
  dsimp only
  split
  · exact isBps_zero
  · apply isBps_concentrationOf
    rw [foldl_plus_exact, zero_add]
    intro entry member
    have nonneg : ∀ value ∈ ((entries.map fun entry => (entry.1, |entry.2|)).filter
        fun entry => 0 < entry.2).map Prod.snd, 0 ≤ value := by
      rw [List.forall_mem_map]
      intro entry member
      exact (decide_eq_true_iff.mp (List.mem_filter.mp member).2).le
    have listed := List.mem_map_of_mem (f := Prod.snd) member
    exact ⟨nonneg _ listed, List.single_le_sum nonneg _ listed⟩

variable (reordered : Reordered positions others)

include reordered

theorem protocolConcentration_reordered :
    (protocolConcentration .exact positions).topShareBps =
      (protocolConcentration .exact others).topShareBps := by
  have gross_eq := (reordered.map_perm fun position other same =>
    getGrossExposure_reordered same).sum_eq
  have items : (positions.filterMap protocolItem).Perm (others.filterMap protocolItem) := by
    have mapped : (positions.map protocolItem).Perm (others.map protocolItem) := by
      apply reordered.map_perm
      rintro position other same
      have gross_eq := getGrossExposure_reordered same
      obtain ⟨assets, perm, rfl⟩ := same
      rw [protocolItem, protocolItem, ← gross_eq]
    have kept := mapped.filterMap id
    rwa [List.filterMap_map, List.filterMap_map] at kept
  unfold protocolConcentration protocolTotals
  dsimp only
  rw [foldl_protocolTotals, foldl_protocolTotals, gross_eq]
  dsimp only
  split
  · rfl
  · exact topShareBps_perm (groupsOf_perm items) _

theorem capitalAccessibilityBps_reordered :
    capitalAccessibilityBps .exact positions = capitalAccessibilityBps .exact others := by
  have items : (positions.map accessItem).Perm (others.map accessItem) := by
    apply reordered.map_perm
    rintro position other same
    have gross_eq := getGrossExposure_reordered same
    obtain ⟨assets, perm, rfl⟩ := same
    rw [accessItem, accessItem, ← gross_eq]
  unfold capitalAccessibilityBps accessTotals
  rw [foldl_accessTotals, foldl_accessTotals, (items.map Prod.fst).sum_eq,
    (items.map Prod.snd).sum_eq]

/-- A metric is read of every position, and only the smallest counts. -/
theorem smallest_reordered (metric : LiquidationMetrics → Option ℚ) :
    smallest (positions.map fun position => position.liquidation.bind metric) =
      smallest (others.map fun position => position.liquidation.bind metric) := by
  apply smallest_perm
  apply reordered.map_perm
  rintro position other ⟨assets, -, rfl⟩
  rfl

/-- The summary does not depend on the order of positions and assets. -/
theorem calculatePortfolioRisk_reordered :
    calculatePortfolioRisk .exact toUpperCase positions =
      calculatePortfolioRisk .exact toUpperCase others := by
  have asset : (assetConcentration .exact toUpperCase positions).topShareBps =
      (assetConcentration .exact toUpperCase others).topShareBps := by
    unfold assetConcentration
    rw [assetGroups_eq, assetGroups_eq]
    exact calculateConcentration_perm (groupsOf_perm (reordered.assets_perm.filterMap _))
  simp only [calculatePortfolioRisk, protocolConcentration_reordered reordered, asset,
    capitalAccessibilityBps_reordered reordered, smallest_reordered reordered]

end Summary

/-- In exact arithmetic, with liquid shares between nothing and everything, the shares and
the score of the summary are whole basis points between nothing and everything; and however
positions and their assets are reordered, the summary stays the same. -/
theorem summary_bounded_and_unordered (toUpperCase : String → String) :
    (∀ positions : List NormalizedPosition,
      (∀ position ∈ positions, ∀ share ∈ position.liquidBps, share ≤ 10000) →
      let summary := calculatePortfolioRisk .exact toUpperCase positions
      IsBps summary.protocolConcentrationBps ∧ IsBps summary.assetConcentrationBps ∧
      IsBps summary.capitalAccessibilityBps ∧ IsBps summary.liquidityScoreBps ∧
      0 ≤ summary.riskScoreBps ∧ summary.riskScoreBps ≤ 10000) ∧
    ∀ positions others : List NormalizedPosition, Reordered positions others →
      calculatePortfolioRisk .exact toUpperCase positions =
        calculatePortfolioRisk .exact toUpperCase others := by
  constructor
  · intro positions shares summary
    have exposures : ∀ position ∈ positions, HasRoundedExposure .exact position :=
      fun position _ => ⟨getGrossExposure_nonneg position, rfl⟩
    have access := isBps_capitalAccessibilityBps exposures shares
    exact ⟨isBps_protocolConcentration exposures, isBps_calculateConcentration _,
      access, access, le_max_left _ _, max_le (by decide) (min_le_left _ _)⟩
  · exact fun positions others reordered =>
      calculatePortfolioRisk_reordered toUpperCase reordered

/-- The same loan at another protocol. -/
def otherLoan : NormalizedPosition :=
  { borderLoan with id := "other loan", protocolId := "granite" }

/-- Two loans of one size, and the same two with the first one's assets turned around. -/
theorem summary_bounded_and_unordered_borderLoan :
    let summary := calculatePortfolioRisk .exact String.toUpper [borderLoan, otherLoan]
    (0 ≤ summary.riskScoreBps ∧ summary.riskScoreBps ≤ 10000) ∧
      summary = calculatePortfolioRisk .exact String.toUpper
        [otherLoan, { borderLoan with assets := borderLoan.assets.reverse }] :=
  have both := summary_bounded_and_unordered String.toUpper
  ⟨(both.1 [borderLoan, otherLoan] (by decide)).2.2.2.2,
    both.2 _ _ ⟨[{ borderLoan with assets := borderLoan.assets.reverse }, otherLoan],
      .cons ⟨_, (List.reverse_perm _).symm, rfl⟩ (.cons ⟨_, .refl _, rfl⟩ .nil),
      .swap _ _ []⟩⟩

end RiskRail.Engine
