import RiskRail.Adapters.BitPay
import RiskRail.Adapters.Zest
import RiskRail.Javascript.BigInt

/-!
# Reading the lending market

`StacksZestV2Reader` asks the contracts of the market for a position, for the assets in it,
for what the shares of a vault are worth, and for the index of a debt.  `none` is a read that
throws.  All reads of one position see the contracts at one height.
-/

namespace RiskRail.Adapters.Zest

open RiskRail.Javascript Text RiskRail.Stacks RiskRail.Engine

/-! ## Values -/

/-- `Math.trunc(value).toString()` of a number in an answer. -/
def truncText (text : Text) : Text :=
  match finiteNumber text with
  | some value => numberText ((if value < 0 then ⌈value⌉ else ⌊value⌋ : ℤ) : ℚ)
  | none => if text.head? = some 0x2D then ofString "-Infinity" else ofString "Infinity"

/-- The digits of a value that is a number or a text. -/
def asUintString (value : Json) : Option Text :=
  match unwrapClarity value with
  | .number text => some (truncText text)
  | .string text => some (dropPrefix text)
  | _ => none

/-- The value as a safe integer. -/
def asNumber (value : Json) : Option ℤ :=
  (asUintString value).bind fun raw =>
    (number raw).bind fun parsed => if isSafeInteger parsed then some ⌊parsed⌋ else none

/-- The value as a text. -/
def asString (value : Json) : Option Text :=
  match unwrapClarity value with
  | .string text => some text
  | _ => none

/-- The items of a value; what is no list has none. -/
def asList (value : Json) : List Json :=
  match unwrapClarity value with
  | .array items => items
  | _ => []

/-- A property that is missing has no value. -/
def get (key : String) (tuple : List (Text × Json)) : Option Json :=
  property (ofString key) tuple

/-! ## Contracts -/

/-- A call of a read-only function. -/
structure Call where
  contract : Text
  function : String
  args : List ClarityValue
  sender : Option Text

/-- The greatest `uint`, which asks for every bit of the mask. -/
def maxU128 : ℕ :=
  340282366920938463463374607431768211455

/-- `uintCV`: it throws outside of the unsigned integers of 128 bits. -/
def uintCV (value : ℤ) : Option ClarityValue :=
  if 0 ≤ value ∧ value ≤ maxU128 then some (.uint value.toNat) else none

/-- The scale of the interest index. -/
def indexPrecision : ℤ :=
  1000000000000

/-- The contracts that are read, with the vaults by underlying asset. -/
structure Contracts where
  market : Option Text
  marketVault : Text
  assets : Text
  egroup : Text
  vaults : List (ℤ × Text)

/-- An empty contract id counts as none. -/
def Contracts.vault (contracts : Contracts) (assetId : ℤ) : Option Text :=
  (contracts.vaults.lookup assetId).filter (· ≠ [])

/-- What the reader knows of an asset by its id. -/
structure KnownAsset where
  symbol : Text
  underlyingId : ℤ
  zToken : Bool

/-- The symbols of the underlying assets. -/
def symbols : List (ℤ × String) :=
  [(0, "STX"), (2, "sBTC"), (4, "stSTX"), (6, "USDC"), (8, "USDH"), (10, "stSTXbtc"),
    (12, "stBTC")]

/-- `KNOWN_ASSETS`: each asset is followed by the token of its vault. -/
def knownAssets : List (ℤ × KnownAsset) :=
  symbols.flatMap fun (id, symbol) =>
    [(id, ⟨ofString symbol, id, false⟩), (id + 1, ⟨ofString symbol, id, true⟩)]

/-- What is known of an id, if it is a known one. -/
def known (assetId : ℤ) : Option KnownAsset :=
  knownAssets.lookup assetId

/-- An asset of the protocol. -/
structure AssetInfo where
  id : ℤ
  contractId : Text
  decimals : ℤ
  symbol : Text
  underlyingId : ℤ
  zToken : Bool

/-- Collateral by asset id, in shares where the asset is a share. -/
structure CollateralEntry where
  aid : ℤ
  amountAtomic : Text

/-- Debt by asset id, scaled down by the index. -/
structure DebtEntry where
  aid : ℤ
  scaledAtomic : Text

/-- A loan as the vault tells it, with its risk parameters. -/
structure PositionState where
  id : ℤ
  mask : Text
  collateral : List CollateralEntry
  debt : List DebtEntry
  riskGroup : ZestRiskGroup

/-! ## The reader -/

section

variable (callReadOnly : Call → Option Json) (contracts : Contracts)

/-- The risk parameters of a mask. -/
def readRiskGroup (mask senderAddress : Text) : Option ZestRiskGroup := do
  let arg ← (bigInt mask).bind uintCV
  let raw ← callReadOnly ⟨contracts.egroup, "resolve", [arg], some senderAddress⟩
  getRiskGroup mask raw

/-- An item of the collateral list. -/
def readCollateral (entry : Json) : Option CollateralEntry := do
  let item ← asRecord entry
  let aid ← (get "aid" item).bind asNumber
  let amountAtomic ← (get "amount" item).bind asUintString
  return { aid, amountAtomic }

/-- An item of the debt list. -/
def readDebt (entry : Json) : Option DebtEntry := do
  let item ← asRecord entry
  let aid ← (get "aid" item).bind asNumber
  let scaledAtomic ← (get "scaled" item).bind asUintString
  return { aid, scaledAtomic }

/-- The position of an address, or that there is none. -/
def getPosition (address : Text) : Option (Option PositionState) := do
  let raw ← callReadOnly
    ⟨contracts.marketVault, "get-position", [.principal address, .uint maxU128], some address⟩
  let response := unwrapClarityResponse raw
  if !response.ok then return none
  let tuple ← response.value.bind asRecord
  let mask ← (get "mask" tuple).bind asUintString
  let riskGroup ← readRiskGroup callReadOnly contracts mask address
  let id ← (get "id" tuple).bind asNumber
  let collateral ← (((get "collateral" tuple).map asList).getD []).mapM readCollateral
  let debt ← (((get "debt" tuple).map asList).getD []).mapM readDebt
  return some { id, mask, collateral, debt, riskGroup }

/-- The asset with an id; `none` where the read throws or nothing is listed. -/
def getAsset (assetId : ℤ) : Option AssetInfo := do
  let arg ← uintCV assetId
  let raw ← callReadOnly ⟨contracts.assets, "lookup", [arg], none⟩
  let response := unwrapClarityResponse raw
  if !response.ok then none
  let tuple ← response.value.bind asRecord
  let contractId ← (get "addr" tuple).bind asString
  let decimals ← (get "decimals" tuple).bind asNumber
  return {
    id := assetId
    contractId
    decimals
    symbol := ((known assetId).map KnownAsset.symbol).getD (ofString "ZEST-" ++ bigIntText assetId)
    underlyingId := ((known assetId).map KnownAsset.underlyingId).getD assetId
    zToken := ((known assetId).map KnownAsset.zToken).getD false }

/-- Shares at the rate of their vault; other amounts stay. -/
def convertSharesToUnderlying (assetId : ℤ) (amountAtomic : Text) : Option Text :=
  match known assetId with
  | none => some amountAtomic
  | some asset =>
      if !asset.zToken then some amountAtomic
      else do
        let vault ← contracts.vault asset.underlyingId
        let arg ← (bigInt amountAtomic).bind uintCV
        let raw ← callReadOnly ⟨vault, "convert-to-assets", [arg], none⟩
        let response := unwrapClarityResponse raw
        if !response.ok then none
        response.value.bind asUintString

/-- The debt is rounded up. -/
def normalizedDebt (scaled nextIndex : ℤ) : ℤ :=
  (scaled * nextIndex + indexPrecision - 1).tdiv indexPrecision

/-- The scaled debt times the next index of its vault, rounded up. -/
def getActualDebt (assetId : ℤ) (scaledAtomic : Text) : Option Text := do
  let underlyingId := ((known assetId).map KnownAsset.underlyingId).getD assetId
  let vault ← contracts.vault underlyingId
  let raw ← callReadOnly ⟨vault, "get-next-index", [], none⟩
  let response := unwrapClarityResponse raw
  if !response.ok then none
  let nextIndex ← (response.value.bind asUintString).bind bigInt
  let scaled ← bigInt scaledAtomic
  return bigIntText (normalizedDebt scaled nextIndex)

end

end RiskRail.Adapters.Zest
