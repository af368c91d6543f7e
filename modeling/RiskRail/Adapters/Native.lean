import RiskRail.Engine.Position

/-!
# The wallet adapter

One position holds the STX and the tokens of a wallet, all of them liquid.  A
token is described by the metadata its contract reports.
-/

namespace RiskRail.Adapters

open RiskRail.Engine

/-- A balance with the metadata of its token. -/
structure FungibleToken where
  assetIdentifier : String
  balance : ℕ
  symbol : String
  decimals : ℕ
  exact : Bool
deriving DecidableEq

/-- The STX of a wallet, which have six decimals. -/
def stxAsset (balance : ℕ) : PositionAsset where
  assetId := "STX"
  symbol := "STX"
  amountAtomic := balance
  decimals := 6
  role := .asset

/-- The token as an asset of the position. -/
def FungibleToken.asset (token : FungibleToken) : PositionAsset where
  assetId := token.assetIdentifier
  symbol := token.symbol
  amountAtomic := token.balance
  decimals := token.decimals
  role := .asset

/-- The assets with a balance. -/
def nativeAssets (stxBalance : ℕ) (tokens : List FungibleToken) : List PositionAsset :=
  (stxAsset stxBalance :: tokens.map FungibleToken.asset).filter fun asset =>
    0 < asset.amountAtomic

theorem nativeAssets_valueUsd {stxBalance : ℕ} {tokens : List FungibleToken} :
    ∀ asset ∈ nativeAssets stxBalance tokens, asset.valueUsd = none := by
  intro asset member
  rcases List.mem_cons.mp (List.mem_of_mem_filter member) with rfl | ofToken
  · rfl
  · rcases List.mem_map.mp ofToken with ⟨token, -, rfl⟩
    rfl

theorem le_liquidBps : ∀ share ∈ some 10000, share ≤ 10000 :=
  fun _ member => (Option.mem_some_iff.mp member).ge

/-- `getPositions` of the `NativeStacksAdapter`. -/
def nativePosition (address : String) (blockHeight observedAt stxBalance : ℕ)
    (tokens : List FungibleToken) : AdapterPosition where
  position :=
    { id := "native:" ++ address
      protocolId := "native-stacks"
      type := .wallet
      assets := nativeAssets stxBalance tokens
      liquidBps := some 10000
      source := { blockHeight, observedAt, exact := tokens.all FungibleToken.exact } }
  valueUsd_none := rfl
  collateral_none := rfl
  debtUsd_none := rfl
  liquidation_none := rfl
  valuation_none := rfl
  assets_none := nativeAssets_valueUsd
  liquidBps_le := le_liquidBps

/-- A further token with a balance is one further asset. -/
theorem nativeAssets_insert (stxBalance : ℕ) (before after : List FungibleToken)
    {token : FungibleToken} (held : 0 < token.balance) :
    ∃ first last, nativeAssets stxBalance (before ++ after) = first ++ last ∧
      nativeAssets stxBalance (before ++ token :: after) = first ++ token.asset :: last := by
  have kept : ∀ rest : List PositionAsset,
      (token.asset :: rest).filter (fun asset => 0 < asset.amountAtomic) =
        token.asset :: rest.filter fun asset => 0 < asset.amountAtomic :=
    fun _ => List.filter_cons_of_pos (decide_eq_true held)
  refine ⟨nativeAssets stxBalance before,
    (after.map FungibleToken.asset).filter fun asset => 0 < asset.amountAtomic, ?_, ?_⟩
  · rw [nativeAssets, List.map_append, ← List.cons_append, List.filter_append]
    rfl
  · rw [nativeAssets, List.map_append, ← List.cons_append, List.filter_append, List.map_cons, kept]
    rfl

/-- A token without a balance is no asset. -/
theorem nativeAssets_insert_zero (stxBalance : ℕ) (before after : List FungibleToken)
    {token : FungibleToken} (empty : token.balance = 0) :
    nativeAssets stxBalance (before ++ token :: after) =
      nativeAssets stxBalance (before ++ after) := by
  have dropped : ∀ rest : List PositionAsset,
      (token.asset :: rest).filter (fun asset => 0 < asset.amountAtomic) =
        rest.filter fun asset => 0 < asset.amountAtomic := by
    intro rest
    apply List.filter_cons_of_neg
    simp [FungibleToken.asset, empty]
  rw [nativeAssets, nativeAssets, List.map_append, List.map_append, ← List.cons_append,
    ← List.cons_append, List.filter_append, List.filter_append, List.map_cons, dropped]

end RiskRail.Adapters
