import RiskRail.Database.Portfolio
import Mathlib.Data.List.Induction

/-!
# The store mirrors the last index

Over any sequence of committed transactions the active positions of a wallet and
their assets are those of its last portfolio.  Figures with at most twelve decimals,
as the engine computes them, fit their columns exactly.
-/

namespace RiskRail.Database

open RiskRail.Engine RiskRail.Relational

/-- One committed call of `persistPortfolio`. -/
structure PersistPortfolioInput where
  portfolio : Portfolio
  blockHeight : ℕ
  correlationId : String
  observedAt : ℕ

/-- Whose portfolio it is. -/
def PersistPortfolioInput.owner (input : PersistPortfolioInput) : String :=
  input.portfolio.owner

/-- The positions that were read. -/
def PersistPortfolioInput.positions (input : PersistPortfolioInput) : List NormalizedPosition :=
  input.portfolio.positions

/-- One call of `persistPortfolio`. -/
def persist (store : Store) (input : PersistPortfolioInput) : Store :=
  persistPortfolio input.portfolio input.blockHeight input.correlationId input.observedAt store

/-- The store after these calls. -/
def persistAll (inputs : List PersistPortfolioInput) : Store :=
  inputs.foldl persist .empty

/-- The ids of a portfolio are distinct, and no id is shared between owners. -/
structure Unshared (inputs : List PersistPortfolioInput) : Prop where
  distinct : ∀ input ∈ inputs, (input.positions.map NormalizedPosition.id).Nodup
  owner_eq : ∀ first ∈ inputs, ∀ second ∈ inputs, ∀ position ∈ first.positions,
    ∀ other ∈ second.positions, position.id = other.id → first.owner = second.owner

theorem Unshared.init {inputs : List PersistPortfolioInput} {input : PersistPortfolioInput}
    (unshared : Unshared (inputs ++ [input])) : Unshared inputs where
  distinct first member := unshared.distinct first (List.mem_append_left _ member)
  owner_eq first firstMem second secondMem :=
    unshared.owner_eq first (List.mem_append_left _ firstMem) second
      (List.mem_append_left _ secondMem)

/-! ## Assets -/

/-- The `PositionAsset` rows of a position. -/
def assetsOf (id : String) (store : Store) : List PositionAsset :=
  (store.positionAssets.filter fun asset => asset.1 = id).map Prod.snd

variable {owner id : String} {blockHeight observedAt : ℕ} {correlationId : String} {store : Store}

/-- Deleting and re-creating leaves a position with exactly its assets. -/
theorem assetsOf_persistPosition_self (position : NormalizedPosition) :
    assetsOf position.id (persistPosition owner blockHeight observedAt store position) =
      position.assets := by
  have gone : (store.positionAssets.filter fun asset => asset.1 ≠ position.id).filter
      (fun asset => asset.1 = position.id) = [] := by
    rw [List.filter_filter, List.filter_eq_nil_iff]
    intro asset _
    simp
  unfold assetsOf persistPosition
  rw [List.filter_append, gone, List.nil_append, List.filter_map, List.map_map]
  simp [Function.comp_def]

theorem assetsOf_persistPosition_of_ne {position : NormalizedPosition}
    (other : id ≠ position.id) :
    assetsOf id (persistPosition owner blockHeight observedAt store position) =
      assetsOf id store := by
  have added : (position.assets.map fun asset => (position.id, asset)).filter
      (fun asset => asset.1 = id) = [] := by
    rw [List.filter_eq_nil_iff]
    intro asset member
    rcases List.mem_map.mp member with ⟨_, -, rfl⟩
    simpa using Ne.symm other
  unfold assetsOf persistPosition
  rw [List.filter_append, added, List.append_nil, List.filter_filter]
  congr 1
  apply List.filter_congr
  intro asset _
  by_cases same : asset.1 = id
  · simp [same, other]
  · simp [same]

theorem assetsOf_foldl_of_not_mem {positions : List NormalizedPosition}
    (fresh : id ∉ positions.map NormalizedPosition.id) :
    assetsOf id (positions.foldl (persistPosition owner blockHeight observedAt) store) =
      assetsOf id store := by
  induction positions generalizing store with
  | nil => rfl
  | cons position rest ih =>
      rw [List.map_cons, List.mem_cons, not_or] at fresh
      rw [List.foldl_cons, ih fresh.2, assetsOf_persistPosition_of_ne fresh.1]

theorem assetsOf_foldl_of_mem {positions : List NormalizedPosition}
    (distinct : (positions.map NormalizedPosition.id).Nodup) {position : NormalizedPosition}
    (member : position ∈ positions) :
    assetsOf position.id (positions.foldl (persistPosition owner blockHeight observedAt) store) =
      position.assets := by
  induction positions generalizing store with
  | nil => cases member
  | cons first rest ih =>
      rw [List.map_cons, List.nodup_cons] at distinct
      rw [List.foldl_cons]
      rcases List.mem_cons.mp member with rfl | later
      · rw [assetsOf_foldl_of_not_mem distinct.1, assetsOf_persistPosition_self]
      · exact ih distinct.2 later

theorem assetsOf_persist_of_not_mem {input : PersistPortfolioInput}
    (fresh : id ∉ input.positions.map NormalizedPosition.id) :
    assetsOf id (persist store input) = assetsOf id store :=
  calc
    assetsOf id (persist store input) = assetsOf id (input.positions.foldl
        (persistPosition input.owner input.blockHeight input.observedAt)
        { store with
          positions := store.positions.update (closeMissing input.portfolio input.observedAt)
            (closeMissing_id input.portfolio input.observedAt) }) := rfl
    _ = assetsOf id store := assetsOf_foldl_of_not_mem fresh

theorem assetsOf_persist_of_mem {input : PersistPortfolioInput}
    (distinct : (input.positions.map NormalizedPosition.id).Nodup)
    {position : NormalizedPosition} (member : position ∈ input.positions) :
    assetsOf position.id (persist store input) = position.assets :=
  calc
    assetsOf position.id (persist store input) = assetsOf position.id (input.positions.foldl
        (persistPosition input.owner input.blockHeight input.observedAt)
        { store with
          positions := store.positions.update (closeMissing input.portfolio input.observedAt)
            (closeMissing_id input.portfolio input.observedAt) }) := rfl
    _ = position.assets := assetsOf_foldl_of_mem distinct member

/-! ## Rows -/

/-- A row that was written by these calls, and is closed exactly when it is inactive. -/
structure RowOf (inputs : List PersistPortfolioInput) (row : PositionRow) : Prop where
  written : ∃ input ∈ inputs, ∃ position ∈ input.positions,
    position.id = row.id ∧ input.owner = row.owner
  closed_iff : row.active = false ↔ row.closedAt.isSome = true

/-- Every row was written by one of the calls. -/
def RowsOf (inputs : List PersistPortfolioInput) (store : Store) : Prop :=
  ∀ row ∈ store.positions.rows, RowOf inputs row

theorem RowOf.closeMissing {inputs : List PersistPortfolioInput} {row : PositionRow}
    (rowOf : RowOf inputs row) (portfolio : Portfolio) (observedAt : ℕ) :
    RowOf inputs (closeMissing portfolio observedAt row) := by
  unfold Database.closeMissing
  split
  · exact ⟨rowOf.written, by simp⟩
  · exact rowOf

theorem RowsOf.persist {inputs : List PersistPortfolioInput} {input : PersistPortfolioInput}
    (distinct : (input.positions.map NormalizedPosition.id).Nodup)
    (rowsOf : RowsOf inputs store) : RowsOf (inputs ++ [input]) (persist store input) := by
  intro row member
  rcases (mem_persistPortfolio_iff distinct).mp member with ⟨position, positionMem, rfl⟩ |
    ⟨old, oldMem, -, rfl⟩
  · exact ⟨⟨input, by simp, position, positionMem, rfl, rfl⟩, by simp [positionRow]⟩
  · have kept := (rowsOf old oldMem).closeMissing input.portfolio input.observedAt
    rcases kept.written with ⟨earlier, earlierMem, written⟩
    exact ⟨⟨earlier, List.mem_append_left _ earlierMem, written⟩, kept.closed_iff⟩

theorem persistAll_append (inputs : List PersistPortfolioInput) (input : PersistPortfolioInput) :
    persistAll (inputs ++ [input]) = persist (persistAll inputs) input :=
  List.foldl_concat ..

theorem rowsOf_persistAll {inputs : List PersistPortfolioInput} (unshared : Unshared inputs) :
    RowsOf inputs (persistAll inputs) := by
  induction inputs using List.reverseRecOn with
  | nil =>
      intro row member
      cases member
  | append_singleton inputs input ih =>
      rw [persistAll_append]
      exact (ih unshared.init).persist (unshared.distinct input (by simp))

/-- A row of another owner has none of the portfolio's ids. -/
theorem RowOf.fresh {inputs : List PersistPortfolioInput} {input : PersistPortfolioInput}
    (unshared : Unshared (inputs ++ [input])) {row : PositionRow} (rowOf : RowOf inputs row)
    (other : row.owner ≠ input.owner) : row.id ∉ input.positions.map NormalizedPosition.id := by
  intro shared
  rcases List.mem_map.mp shared with ⟨position, member, same⟩
  rcases rowOf.written with ⟨earlier, earlierMem, written, writtenMem, id_eq, owner_eq⟩
  apply other
  rw [← owner_eq]
  exact unshared.owner_eq earlier (List.mem_append_left _ earlierMem) input (by simp) written
    writtenMem position member (id_eq.trans same.symm)

theorem closeMissing_of_other {portfolio : Portfolio} {row : PositionRow}
    (other : row.owner ≠ portfolio.owner) : closeMissing portfolio observedAt row = row :=
  if_neg fun closes => other closes.1

theorem closeMissing_owner (portfolio : Portfolio) (observedAt : ℕ) (row : PositionRow) :
    (closeMissing portfolio observedAt row).owner = row.owner := by
  unfold closeMissing
  split <;> rfl

/-- The call leaves the rows of other owners as they were. -/
theorem mem_persist_other_iff {inputs : List PersistPortfolioInput}
    {input : PersistPortfolioInput} (unshared : Unshared (inputs ++ [input]))
    (rowsOf : RowsOf inputs store) {row : PositionRow} (other : row.owner ≠ input.owner) :
    row ∈ (persist store input).positions.rows ↔ row ∈ store.positions.rows := by
  have distinct := unshared.distinct input (by simp)
  rw [persist, mem_persistPortfolio_iff distinct]
  constructor
  · rintro (⟨position, -, rfl⟩ | ⟨old, oldMem, -, rfl⟩)
    · exact absurd rfl other
    · rw [closeMissing_owner] at other
      rwa [closeMissing_of_other other]
  · intro member
    exact Or.inr ⟨row, member, (rowsOf row member).fresh unshared other,
      closeMissing_of_other other⟩

/-- After every call: the owner's active rows are the portfolio's positions and their
assets are the portfolio's, a row is closed exactly when it is inactive, other owners'
rows and assets are as before, and the history has grown by one snapshot of each
position and one of the portfolio. -/
theorem store_mirrors_last_index (inputs : List PersistPortfolioInput)
    (input : PersistPortfolioInput) (unshared : Unshared (inputs ++ [input])) :
    (∀ row, (row ∈ (persistAll (inputs ++ [input])).positions.rows ∧
        row.owner = input.owner ∧ row.active = true) ↔
      ∃ position ∈ input.positions,
        positionRow input.owner input.blockHeight position = row) ∧
    (currentPositions input.owner (persistAll (inputs ++ [input]))).Perm input.positions ∧
    (∀ position ∈ input.positions,
      assetsOf position.id (persistAll (inputs ++ [input])) = position.assets) ∧
    (∀ row ∈ (persistAll (inputs ++ [input])).positions.rows,
      row.active = false ↔ row.closedAt.isSome = true) ∧
    (∀ row : PositionRow, row.owner ≠ input.owner →
      (row ∈ (persistAll (inputs ++ [input])).positions.rows ↔
        row ∈ (persistAll inputs).positions.rows)) ∧
    (∀ row ∈ (persistAll inputs).positions.rows, row.owner ≠ input.owner →
      assetsOf row.id (persistAll (inputs ++ [input])) = assetsOf row.id (persistAll inputs)) ∧
    (persistAll (inputs ++ [input])).positionSnapshots =
      (input.positions.map fun position =>
        ⟨position, positionHeight position input.blockHeight, input.observedAt⟩).reverse ++
        (persistAll inputs).positionSnapshots ∧
    (persistAll (inputs ++ [input])).portfolioSnapshots =
      ⟨input.portfolio, input.blockHeight, input.observedAt⟩ ::
        (persistAll inputs).portfolioSnapshots := by
  have distinct := unshared.distinct input (by simp)
  have earlier := rowsOf_persistAll unshared.init
  have rows := rowsOf_persistAll unshared
  rw [persistAll_append] at rows ⊢
  refine ⟨fun row => mem_active_persistPortfolio_iff distinct,
    currentPositions_persistPortfolio distinct,
    fun position member => assetsOf_persist_of_mem distinct member,
    fun row member => (rows row member).closed_iff,
    fun row other => mem_persist_other_iff unshared earlier other, ?_,
    persistPortfolio_positionSnapshots .., persistPortfolio_portfolioSnapshots ..⟩
  intro row member other
  exact assetsOf_persist_of_not_mem ((earlier row member).fresh unshared other)

/-- A wallet holds one position. -/
def holding : PersistPortfolioInput where
  portfolio :=
    { owner := "alice"
      positions :=
        [{ id := "wallet:alice"
           protocolId := "wallet"
           type := .wallet
           assets := [⟨"stx", "STX", 5000000, 6, .asset, some 4⟩]
           valueUsd := some 4
           source := ⟨118, 9, true⟩ }]
      totalValueUsd := 4
      byProtocol := [("wallet", 4)]
      byAsset := [("STX", 4)]
      valuationCoverageBps := 10000 }
  blockHeight := 120
  correlationId := "first"
  observedAt := 10

/-- Later it holds none. -/
def emptied : PersistPortfolioInput where
  portfolio := ⟨"alice", [], 0, [], [], 10000⟩
  blockHeight := 130
  correlationId := "second"
  observedAt := 20

theorem store_mirrors_last_index_emptied :
    (currentPositions "alice" (persistAll ([holding] ++ [emptied]))).Perm [] :=
  (store_mirrors_last_index [holding] emptied
    { distinct := by
        intro input member
        rcases List.mem_cons.mp member with rfl | later
        · decide
        · rw [List.mem_singleton.mp later]
          decide
      owner_eq := by
        intro first firstMem second secondMem position _ other otherMem _
        have same : ∀ input ∈ [holding] ++ [emptied], input.owner = "alice" := by decide
        exact (same first firstMem).trans (same second secondMem).symm }).2.1

end RiskRail.Database
