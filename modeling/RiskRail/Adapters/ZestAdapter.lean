import RiskRail.Adapters.ZestReader
import Mathlib.Data.List.Forall2

/-!
# The lending adapter

`ZestV2Adapter` makes one position of a loan: an asset for each collateral, in units of what
its vault shares are worth, and one for each debt, in units that are owed by now.  Where the
contracts answer for a market, the position holds what the market does, and debts are rounded
up by less than one unit.
-/

namespace RiskRail.Adapters.Zest

open RiskRail.Javascript Text RiskRail.Stacks RiskRail.Engine

/-! ## The adapter -/

/-- An asset of a loan, under the id of the wallet adapter and the one of the protocol. -/
structure ZestAsset where
  assetId : Text
  protocolAssetId : Text
  symbol : Text
  amountAtomic : Text
  decimals : ℤ
  role : AssetRole

/-- An entry of the metadata. -/
structure ProtocolAsset where
  role : AssetRole
  assetId : ℤ
  protocolContract : Text
  underlyingAssetId : ℤ
  underlyingContract : Text
  zToken : Option Bool
  /-- `protocolAmountAtomic` of a collateral, `scaledAmountAtomic` of a debt. -/
  amountAtomic : Text
  normalizedAmountAtomic : Text

/-- A loan as the adapter returns it. -/
structure ZestPosition where
  id : Text
  owner : Text
  contracts : List Text
  type : PositionType
  assets : List ZestAsset
  lending : ZestRiskGroup
  liquidBps : ℕ
  source : PositionSource
  obligationId : ℤ
  mask : Text
  protocolAssets : List ProtocolAsset

/-- The symbols are in ASCII. -/
def toUpperCase (text : Text) : Text :=
  text.map fun unit => if 0x61 ≤ unit ∧ unit ≤ 0x7A then unit - 0x20 else unit

/-- Tokens that other adapters hold as well go by their symbol. -/
def canonicalAssetId (symbol contractId : Text) : Text :=
  let normalized := toUpperCase symbol
  if normalized = ofString "SBTC" then ofString "sBTC"
  else if normalized = ofString "STX" then ofString "STX"
  else if normalized = ofString "USDC" then ofString "USDC"
  else if normalized = ofString "USDH" then ofString "USDH"
  else contractId

/-- `metadata().contracts`. -/
def Contracts.list (contracts : Contracts) : List Text :=
  ([contracts.market, some contracts.marketVault, some contracts.assets,
    some contracts.egroup].filterMap id ++ contracts.vaults.map Prod.snd).filter (· ≠ [])

section

variable (callReadOnly : Call → Option Json) (contracts : Contracts)

/-- The asset that stands for one of the market in the portfolio. -/
def underlying (info : AssetInfo) : Option AssetInfo :=
  if info.zToken then getAsset callReadOnly contracts info.underlyingId else some info

/-- A collateral entry in its underlying token. -/
def collateralAsset (entry : CollateralEntry) : Option (ZestAsset × ProtocolAsset) := do
  let info ← getAsset callReadOnly contracts entry.aid
  let amountAtomic ←
    convertSharesToUnderlying callReadOnly contracts entry.aid entry.amountAtomic
  let underlyingInfo ← underlying callReadOnly contracts info
  return (
    { assetId := canonicalAssetId underlyingInfo.symbol underlyingInfo.contractId
      protocolAssetId := info.contractId
      symbol := underlyingInfo.symbol
      amountAtomic
      decimals := underlyingInfo.decimals
      role := .collateral },
    { role := .collateral
      assetId := entry.aid
      protocolContract := info.contractId
      underlyingAssetId := info.underlyingId
      underlyingContract := underlyingInfo.contractId
      zToken := some info.zToken
      amountAtomic := entry.amountAtomic
      normalizedAmountAtomic := amountAtomic })

/-- A debt entry in its underlying token, with interest. -/
def debtAsset (entry : DebtEntry) : Option (ZestAsset × ProtocolAsset) := do
  let info ← getAsset callReadOnly contracts entry.aid
  let actualDebtAtomic ← getActualDebt callReadOnly contracts entry.aid entry.scaledAtomic
  let underlyingInfo ← underlying callReadOnly contracts info
  return (
    { assetId := canonicalAssetId underlyingInfo.symbol underlyingInfo.contractId
      protocolAssetId := info.contractId
      symbol := underlyingInfo.symbol
      amountAtomic := actualDebtAtomic
      decimals := underlyingInfo.decimals
      role := .debt },
    { role := .debt
      assetId := entry.aid
      protocolContract := info.contractId
      underlyingAssetId := info.underlyingId
      underlyingContract := underlyingInfo.contractId
      zToken := none
      amountAtomic := entry.scaledAtomic
      normalizedAmountAtomic := actualDebtAtomic })

/-- Nothing is returned where there are no assets. -/
def positionsOf (address : Text) (state : PositionState)
    (entries : List (ZestAsset × ProtocolAsset))
    (blockHeight : Option ℕ) (observedAt : ℕ) : List ZestPosition :=
  if entries.isEmpty then []
  else
    [{ id := ofString "zest-v2:" ++ address ++ 0x3A :: bigIntText state.id
       owner := address
       contracts := contracts.list
       type := .borrowing
       assets := entries.map Prod.fst
       lending := state.riskGroup
       liquidBps := 0
       source := { blockHeight := blockHeight.getD 0, observedAt, exact := true }
       obligationId := state.id
       mask := state.mask
       protocolAssets := entries.map Prod.snd }]

/-- No position, or the one loan of the wallet; `none` where a read throws. -/
def getPositions (address : Text) (blockHeight : Option ℕ) (observedAt : ℕ) :
    Option (List ZestPosition) := do
  match ← getPosition callReadOnly contracts address with
  | none => return []
  | some state =>
      let collateral ← state.collateral.mapM (collateralAsset callReadOnly contracts)
      let debt ← state.debt.mapM (debtAsset callReadOnly contracts)
      return positionsOf contracts address state (collateral ++ debt) blockHeight observedAt

end

end RiskRail.Adapters.Zest
