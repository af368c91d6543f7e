import RiskRail.Engine.Portfolio
import RiskRail.Relational.Table

/-!
# The portfolio store

`persistPortfolio` writes a wallet's index in one transaction: it closes the
wallet's active positions that are not in the portfolio, upserts those that are,
replaces their assets and appends history.  The `wallet` row and the protocol
registry are left out.  The columns of `Position` that copy fields of `raw` are
read from it.
-/

namespace RiskRail.Database

open RiskRail.Engine RiskRail.Relational

/-- A row of `Position`; its key is the id of `raw`. -/
structure PositionRow where
  owner : String
  raw : NormalizedPosition
  blockHeight : ℕ
  active : Bool
  closedAt : Option ℕ
deriving DecidableEq

/-- The id of the position. -/
def PositionRow.id (row : PositionRow) : String :=
  row.raw.id

/-- A row of the history of a position. -/
structure PositionSnapshot where
  state : NormalizedPosition
  blockHeight : ℕ
  observedAt : ℕ
deriving DecidableEq

/-- A row of the history of a portfolio. -/
structure PortfolioSnapshot where
  portfolio : Portfolio
  blockHeight : ℕ
  observedAt : ℕ
deriving DecidableEq

/-- How an indexing run stands. -/
inductive RunStatus where
  | processing
  | completed
  | failed
deriving DecidableEq

/-- A run of the indexer, under its correlation id. -/
structure IndexingRun where
  status : RunStatus
  sourceBlock : Option ℕ
  error : Option String
  completedAt : Option ℕ
deriving DecidableEq

/-- The tables a refresh writes.  Append-only tables list the newest row first;
an asset row carries the id of its position. -/
structure Store where
  positions : Table PositionRow.id
  positionAssets : List (String × PositionAsset)
  positionSnapshots : List PositionSnapshot
  portfolioSnapshots : List PortfolioSnapshot
  indexingRuns : String → Option IndexingRun

/-- Empty tables. -/
def Store.empty : Store where
  positions := .empty
  positionAssets := []
  positionSnapshots := []
  portfolioSnapshots := []
  indexingRuns := fun _ => none

/-- `position.source.blockHeight || blockHeight`. -/
def positionHeight (position : NormalizedPosition) (blockHeight : ℕ) : ℕ :=
  if position.source.blockHeight = 0 then blockHeight else position.source.blockHeight

/-- The row an upsert leaves, whether it creates or updates. -/
def positionRow (owner : String) (blockHeight : ℕ) (position : NormalizedPosition) :
    PositionRow where
  owner := owner
  raw := position
  blockHeight := positionHeight position blockHeight
  active := true
  closedAt := none

/-- Close a row of the owner that is active and not in the portfolio. -/
def closeMissing (portfolio : Portfolio) (observedAt : ℕ) (row : PositionRow) : PositionRow :=
  if row.owner = portfolio.owner ∧ row.active = true ∧
      row.id ∉ portfolio.positions.map NormalizedPosition.id then
    { row with active := false, closedAt := some observedAt }
  else
    row

theorem closeMissing_id (portfolio : Portfolio) (observedAt : ℕ) (row : PositionRow) :
    (closeMissing portfolio observedAt row).id = row.id := by
  unfold closeMissing
  split <;> rfl

/-- One turn of the loop over the portfolio's positions. -/
def persistPosition (owner : String) (blockHeight observedAt : ℕ) (store : Store)
    (position : NormalizedPosition) : Store :=
  { store with
    positions := store.positions.upsert (positionRow owner blockHeight position)
    positionAssets :=
      (store.positionAssets.filter fun asset => asset.1 ≠ position.id) ++
        position.assets.map fun asset => (position.id, asset)
    positionSnapshots :=
      ⟨position, positionHeight position blockHeight, observedAt⟩ :: store.positionSnapshots }

/-- The transaction.  The run is marked as processing first and as completed
last, so a committed transaction shows it completed; neither update touches the
`error` of an earlier attempt. -/
def persistPortfolio (portfolio : Portfolio) (blockHeight : ℕ) (correlationId : String)
    (observedAt : ℕ) (store : Store) : Store :=
  let closed : Store :=
    { store with
      positions := store.positions.update (closeMissing portfolio observedAt)
        (closeMissing_id portfolio observedAt) }
  let persisted := portfolio.positions.foldl
    (persistPosition portfolio.owner blockHeight observedAt) closed
  { persisted with
    portfolioSnapshots := ⟨portfolio, blockHeight, observedAt⟩ :: persisted.portfolioSnapshots
    indexingRuns := Function.update persisted.indexingRuns correlationId
      (some
        { status := .completed
          sourceBlock := some blockHeight
          error := (persisted.indexingRuns correlationId).bind IndexingRun.error
          completedAt := some observedAt }) }

/-- The run is marked as failed, whether or not there was one. -/
def failIndexingRun (correlationId error : String) (now : ℕ) (store : Store) : Store :=
  { store with
    indexingRuns := Function.update store.indexingRuns correlationId
      (some
        { status := .failed
          sourceBlock := (store.indexingRuns correlationId).bind IndexingRun.sourceBlock
          error := some error
          completedAt := some now }) }

/-- The positions of `getCurrentPortfolio`, up to order. -/
def currentPositions (owner : String) (store : Store) : List NormalizedPosition :=
  store.positions.rows.filterMap fun row =>
    if row.owner = owner ∧ row.active = true then some row.raw else none

/-! ## What the transaction leaves -/

theorem foldl_persistPosition (owner : String) (blockHeight observedAt : ℕ)
    (positions : List NormalizedPosition) (store : Store) :
    let persisted := positions.foldl (persistPosition owner blockHeight observedAt) store
    persisted.positions =
        store.positions.upsertAll (positions.map (positionRow owner blockHeight)) ∧
      persisted.portfolioSnapshots = store.portfolioSnapshots := by
  induction positions generalizing store with
  | nil => exact ⟨rfl, rfl⟩
  | cons position rest ih => exact ih (persistPosition owner blockHeight observedAt store position)

theorem persistPortfolio_portfolioSnapshots (portfolio : Portfolio) (blockHeight : ℕ)
    (correlationId : String) (observedAt : ℕ) (store : Store) :
    (persistPortfolio portfolio blockHeight correlationId observedAt store).portfolioSnapshots =
      ⟨portfolio, blockHeight, observedAt⟩ :: store.portfolioSnapshots := by
  unfold persistPortfolio
  dsimp only
  rw [(foldl_persistPosition _ _ _ _ _).2]

theorem foldl_persistPosition_history (owner : String) (blockHeight observedAt : ℕ)
    (positions : List NormalizedPosition) (store : Store) :
    let persisted := positions.foldl (persistPosition owner blockHeight observedAt) store
    persisted.positionSnapshots =
        (positions.map fun position =>
          ⟨position, positionHeight position blockHeight, observedAt⟩).reverse ++
          store.positionSnapshots ∧
      persisted.indexingRuns = store.indexingRuns := by
  induction positions generalizing store with
  | nil => exact ⟨rfl, rfl⟩
  | cons position rest ih =>
      have later := ih (persistPosition owner blockHeight observedAt store position)
      refine ⟨?_, later.2⟩
      rw [List.foldl_cons, later.1, List.map_cons, List.reverse_cons, List.append_assoc]
      rfl

/-- The transaction appends one snapshot of every position. -/
theorem persistPortfolio_positionSnapshots (portfolio : Portfolio) (blockHeight : ℕ)
    (correlationId : String) (observedAt : ℕ) (store : Store) :
    (persistPortfolio portfolio blockHeight correlationId observedAt store).positionSnapshots =
      (portfolio.positions.map fun position =>
        ⟨position, positionHeight position blockHeight, observedAt⟩).reverse ++
        store.positionSnapshots := by
  unfold persistPortfolio
  dsimp only
  rw [(foldl_persistPosition_history _ _ _ _ _).1]

/-- The transaction completes its run, and keeps the error of an earlier attempt. -/
theorem persistPortfolio_indexingRuns (portfolio : Portfolio) (blockHeight : ℕ)
    (correlationId : String) (observedAt : ℕ) (store : Store) :
    (persistPortfolio portfolio blockHeight correlationId observedAt store).indexingRuns =
      Function.update store.indexingRuns correlationId
        (some
          { status := .completed
            sourceBlock := some blockHeight
            error := (store.indexingRuns correlationId).bind IndexingRun.error
            completedAt := some observedAt }) := by
  unfold persistPortfolio
  dsimp only
  rw [(foldl_persistPosition_history _ _ _ _ _).2]

variable {blockHeight observedAt : ℕ} {correlationId : String} {store : Store}

/-- After the transaction the table holds the portfolio's rows, and the other
rows as they were, closed if they were active and the owner's. -/
theorem mem_persistPortfolio_iff {portfolio : Portfolio}
    (distinct : (portfolio.positions.map NormalizedPosition.id).Nodup) {row : PositionRow} :
    row ∈ (persistPortfolio portfolio blockHeight correlationId observedAt store).positions.rows ↔
      (∃ position ∈ portfolio.positions,
        positionRow portfolio.owner blockHeight position = row) ∨
      ∃ old ∈ store.positions.rows, old.id ∉ portfolio.positions.map NormalizedPosition.id ∧
        closeMissing portfolio observedAt old = row := by
  have ids :
      (portfolio.positions.map (positionRow portfolio.owner blockHeight)).map PositionRow.id =
        portfolio.positions.map NormalizedPosition.id := by
    rw [List.map_map]
    rfl
  unfold persistPortfolio
  dsimp only
  rw [(foldl_persistPosition _ _ _ _ _).1, Table.mem_upsertAll_iff (by rwa [ids]), ids,
    List.mem_map, Table.mem_update_iff]
  constructor
  · rintro (written | ⟨⟨old, oldMem, rfl⟩, fresh⟩)
    · exact .inl written
    · rw [closeMissing_id] at fresh
      exact .inr ⟨old, oldMem, fresh, rfl⟩
  · rintro (written | ⟨old, oldMem, fresh, rfl⟩)
    · exact .inl written
    · exact .inr ⟨⟨old, oldMem, rfl⟩, by rwa [closeMissing_id]⟩

theorem positionRow_mem {portfolio : Portfolio}
    (distinct : (portfolio.positions.map NormalizedPosition.id).Nodup)
    {position : NormalizedPosition} (member : position ∈ portfolio.positions) :
    positionRow portfolio.owner blockHeight position ∈
      (persistPortfolio portfolio blockHeight correlationId observedAt store).positions.rows :=
  (mem_persistPortfolio_iff distinct).mpr (.inl ⟨position, member, rfl⟩)

/-- The owner's active rows are exactly the portfolio's. -/
theorem mem_active_persistPortfolio_iff {portfolio : Portfolio}
    (distinct : (portfolio.positions.map NormalizedPosition.id).Nodup) {row : PositionRow} :
    (row ∈ (persistPortfolio portfolio blockHeight correlationId observedAt store).positions.rows ∧
        row.owner = portfolio.owner ∧ row.active = true) ↔
      ∃ position ∈ portfolio.positions, positionRow portfolio.owner blockHeight position = row := by
  rw [mem_persistPortfolio_iff distinct]
  constructor
  · rintro ⟨written | ⟨old, oldMem, fresh, rfl⟩, owned, active⟩
    · exact written
    · unfold closeMissing at owned active
      split at active
      next => cases active
      next kept =>
        rw [if_neg kept] at owned
        exact absurd ⟨owned, active, fresh⟩ kept
  · rintro ⟨position, member, rfl⟩
    exact ⟨.inl ⟨position, member, rfl⟩, rfl, rfl⟩

/-- Reading the current portfolio after the transaction gives its positions. -/
theorem currentPositions_persistPortfolio {portfolio : Portfolio}
    (distinct : (portfolio.positions.map NormalizedPosition.id).Nodup) :
    (currentPositions portfolio.owner
      (persistPortfolio portfolio blockHeight correlationId observedAt store)).Perm
        portfolio.positions := by
  apply Table.filterMap_perm _ _ NormalizedPosition.id
  · intro row member position selected
    split at selected
    next => cases selected; rfl
    next => cases selected
  · exact List.Nodup.of_map _ distinct
  · intro position
    constructor
    · intro member
      exact ⟨_, positionRow_mem distinct member, if_pos ⟨rfl, rfl⟩⟩
    · rintro ⟨row, member, selected⟩
      split at selected
      next owned =>
        rcases (mem_active_persistPortfolio_iff distinct).mp ⟨member, owned⟩ with
          ⟨written, writtenMem, rfl⟩
        cases selected
        exact writtenMem
      next => cases selected

end RiskRail.Database
