import RiskRail.Adapters.Native
import RiskRail.Attestation.Publisher
import RiskRail.Javascript.BigInt
import RiskRail.Relational.Traverse
import RiskRail.Stacks.Client

/-!
# The wallet adapter over the Stacks API

What `getPositions` returns is never a part of a wallet: it holds what all pages list, or what
the older endpoint lists, or it is a failure.  For an API that serves a wallet it is the position
of that wallet.
-/

namespace RiskRail.Adapters.NativeStacks

open RiskRail.Javascript Text RiskRail.Stacks RiskRail.Transition RiskRail.Relational
open RiskRail.Attestation (bind_eq_ok_iff)
open RiskRail.Engine (PositionAsset)

/-! ## The adapter -/

/-- The role is that of an asset. -/
structure WalletAsset where
  assetId : Text
  symbol : Text
  amountAtomic : Text
  decimals : ℤ
  deriving DecidableEq

/-- The position of a wallet, with the balances it was made from. -/
structure WalletPosition where
  id : Text
  owner : Text
  assets : List WalletAsset
  liquidBps : ℕ
  blockHeight : Option ℚ
  observedAt : ℕ
  exact : Bool
  stx : StxBalance
  deriving DecidableEq

/-- The STX of the wallet, which have six decimals. -/
def stxAsset (stx : StxBalance) : WalletAsset where
  assetId := ofString "STX"
  symbol := ofString "STX"
  amountAtomic := stx.balance
  decimals := 6

/-- A token under the symbol and the decimals of its metadata. -/
def tokenAsset (token : FungibleTokenBalance × FungibleTokenMetadata) : WalletAsset where
  assetId := token.1.assetIdentifier
  symbol := token.2.symbol
  amountAtomic := token.1.balance
  decimals := token.2.decimals

/-- The assets with an amount above `0n`; an amount that is no whole number throws. -/
def heldAssets : List WalletAsset → Except Failure (List WalletAsset)
  | [] => .ok []
  | asset :: rest =>
      match bigInt asset.amountAtomic with
      | none => .error .other
      | some amount =>
          (heldAssets rest).map fun later => if 0 < amount then asset :: later else later

section

variable (schemas : Schemas) (api : Api)

/-- A token with its metadata. -/
def describe (token : FungibleTokenBalance) :
    Except Failure (FungibleTokenBalance × FungibleTokenMetadata) :=
  (getFungibleTokenMetadata schemas api token.assetIdentifier).map fun metadata => (token, metadata)

/-- The position for balances that have arrived; which of several tokens fails first is left
out. -/
def positionOf (address : Text) (balances : AddressBalances) (blockHeight : Option ℚ)
    (observedAt : ℕ) : Except Failure WalletPosition := do
  let tokenMetadata ← balances.fungibleTokens.mapM (describe schemas api)
  let assets ← heldAssets (stxAsset balances.stx :: tokenMetadata.map tokenAsset)
  return {
    id := ofString "native:" ++ address
    owner := address
    assets
    liquidBps := 10000
    blockHeight
    observedAt
    exact := tokenMetadata.all fun token => token.2.exact
    stx := balances.stx }

/-- `pages` bounds the pages that are fetched, `firstFails` and `heightFails` say which of two
failures comes first, and `none` is a call that goes on. -/
def getPositions (pages : ℕ) (firstFails heightFails : Bool) (address : Text)
    (blockHeight : Option ℕ) (observedAt : ℕ) :
    Option (Except Failure (List WalletPosition)) :=
  let currentHeight :=
    match blockHeight with
    | none => getCurrentBlockHeight api
    | some height => .ok (some (height : ℚ))
  (both heightFails currentHeight (getAddressBalances schemas api pages firstFails address)).map
    fun answers => do
      let (height, balances) ← answers
      let position ← positionOf schemas api address balances height observedAt
      return [position]

end

/-! ## All of a wallet -/

/-- The balances are those of every page up to the last one, or those of the older endpoint. -/
inductive Complete (schemas : Schemas) (api : Api) (address : Text) (balances : AddressBalances) :
    Prop where
  | current {body : Json} {pages : List (List FungibleTokenBalance)}
      (asked : api (.stxBalance address) = .ok body)
      (read : (schemas.stxBalance body).map StxBalanceBody.stx = some balances.stx)
      (listed : Pages (ftBalancePage schemas api address) none pages)
      (all : balances.fungibleTokens = pages.flatten)
  | legacy (listed : legacyBalances schemas api address = .ok balances)

variable {schemas : Schemas} {api : Api}

theorem both_eq_ok_iff {α β : Type} {firstFails : Bool} {first : Except Failure α}
    {second : Option (Except Failure β)} {answers : α × β} :
    both firstFails first second = some (.ok answers) ↔
      first = .ok answers.1 ∧ second = some (.ok answers.2) := by
  obtain ⟨one, other⟩ := answers
  cases first with
  | error failure =>
      cases second with
      | none => simp [both]
      | some second => cases second <;> simp [both]
  | ok first =>
      cases second with
      | none => simp [both]
      | some second => cases second <;> simp [both]

theorem parse_eq_ok_iff {α : Type} {schema : Json → Option α} {body : Json} {value : α} :
    Stacks.parse schema body = .ok value ↔ schema body = some value := by
  unfold Stacks.parse
  cases schema body <;> simp

theorem currentBalances_eq_ok_iff {pages : ℕ} {firstFails : Bool} {address : Text}
    {balances : AddressBalances} :
    currentBalances schemas api pages firstFails address = some (.ok balances) ↔
      ∃ body, api (.stxBalance address) = .ok body ∧
        (schemas.stxBalance body).map StxBalanceBody.stx = some balances.stx ∧
        getAllFungibleTokenBalances schemas api pages address =
          some (.ok balances.fungibleTokens) := by
  unfold currentBalances
  rw [Option.map_eq_some_iff]
  constructor
  · rintro ⟨answers, asked, answered⟩
    obtain ⟨⟨body, tokens⟩, rfl, parsed⟩ := bind_eq_ok_iff.mp answered
    obtain ⟨stx, read, made⟩ := bind_eq_ok_iff.mp parsed
    cases made
    obtain ⟨stxAsked, tokensAsked⟩ := both_eq_ok_iff.mp asked
    exact ⟨body, stxAsked, by rw [parse_eq_ok_iff.mp read, Option.map_some], tokensAsked⟩
  · rintro ⟨body, stxAsked, read, tokensAsked⟩
    obtain ⟨stx, read, stx_eq⟩ := Option.map_eq_some_iff.mp read
    refine ⟨.ok (body, balances.fungibleTokens), both_eq_ok_iff.mpr ⟨stxAsked, tokensAsked⟩,
      bind_eq_ok_iff.mpr ⟨_, rfl, bind_eq_ok_iff.mpr ⟨stx, parse_eq_ok_iff.mpr read, ?_⟩⟩⟩
    rw [stx_eq]
    rfl

theorem complete_of_getAddressBalances {pages : ℕ} {firstFails : Bool} {address : Text}
    {balances : AddressBalances}
    (done : getAddressBalances schemas api pages firstFails address = some (.ok balances)) :
    Complete schemas api address balances := by
  obtain ⟨current, asked, answered⟩ := Option.map_eq_some_iff.mp done
  cases current with
  | ok found =>
      cases answered
      obtain ⟨body, stx, read, tokens⟩ := currentBalances_eq_ok_iff.mp asked
      obtain ⟨chunks, listed, -, all⟩ := collect_eq_ok_iff.mp tokens
      exact .current stx read listed all
  | error failure =>
      cases failure with
      | other => exact .legacy answered
      | status code =>
          dsimp only at answered
          split at answered
          · cases answered
          · exact .legacy answered

theorem heldAssets_eq_ok_iff {assets held : List WalletAsset} :
    heldAssets assets = .ok held ↔
      (∀ asset ∈ assets, (bigInt asset.amountAtomic).isSome = true) ∧
        held = assets.filter fun asset => (bigInt asset.amountAtomic).any (0 < ·) := by
  induction assets generalizing held with
  | nil =>
      rw [heldAssets, Except.ok.injEq, List.filter_nil, eq_comm]
      simp
  | cons asset rest ih =>
      rw [heldAssets, List.forall_mem_cons]
      cases amount_eq : bigInt asset.amountAtomic with
      | none => simp
      | some amount =>
          cases later_eq : heldAssets rest with
          | error failure =>
              simp only [later_eq, reduceCtorEq, false_iff, not_and] at ih
              simp only [Except.map, reduceCtorEq, Option.isSome_some, true_and, false_iff, not_and]
              intro numbers
              exact absurd rfl (ih numbers)
          | ok later =>
              obtain ⟨numbers, kept⟩ := ih.mp later_eq
              have filtered : (asset :: rest).filter
                    (fun asset => (bigInt asset.amountAtomic).any (0 < ·)) =
                  if 0 < amount then asset :: later else later := by
                rw [List.filter_cons, amount_eq, Option.any_some, ← kept]
                simp only [decide_eq_true_eq]
              rw [filtered]
              constructor
              · intro made
                exact ⟨⟨rfl, numbers⟩, (Except.ok.inj made).symm⟩
              · rintro ⟨-, rfl⟩
                rfl

theorem getPositions_eq_ok_iff {pages : ℕ} {firstFails heightFails : Bool} {address : Text}
    {blockHeight : Option ℕ} {observedAt : ℕ} {positions : List WalletPosition} :
    getPositions schemas api pages firstFails heightFails address blockHeight observedAt =
        some (.ok positions) ↔
      ∃ height balances position,
        (match blockHeight with
          | none => getCurrentBlockHeight api
          | some height => .ok (some (height : ℚ))) = .ok height ∧
        getAddressBalances schemas api pages firstFails address = some (.ok balances) ∧
        positionOf schemas api address balances height observedAt = .ok position ∧
        positions = [position] := by
  unfold getPositions
  dsimp only
  rw [Option.map_eq_some_iff]
  constructor
  · rintro ⟨answers, asked, answered⟩
    obtain ⟨⟨height, balances⟩, rfl, built⟩ := bind_eq_ok_iff.mp answered
    obtain ⟨position, made, listed⟩ := bind_eq_ok_iff.mp built
    obtain ⟨heightAsked, balancesAsked⟩ := both_eq_ok_iff.mp asked
    cases listed
    exact ⟨height, balances, position, heightAsked, balancesAsked, made, rfl⟩
  · rintro ⟨height, balances, position, heightAsked, balancesAsked, made, rfl⟩
    exact ⟨.ok (height, balances), both_eq_ok_iff.mpr ⟨heightAsked, balancesAsked⟩,
      bind_eq_ok_iff.mpr ⟨_, rfl, bind_eq_ok_iff.mpr ⟨position, made, rfl⟩⟩⟩

/-- The identifier and the amount. -/
def WalletAsset.row (asset : WalletAsset) : Text × Text :=
  (asset.assetId, asset.amountAtomic)

/-- The identifier and the amount of every asset, in order. -/
def amounts (balances : AddressBalances) : List (Text × Text) :=
  (ofString "STX", balances.stx.balance) ::
    balances.fungibleTokens.map fun token => (token.assetIdentifier, token.balance)

/-- The amount is a whole number above zero. -/
def IsHeld (row : Text × Text) : Bool :=
  (bigInt row.2).any (0 < ·)

/-- Tokens that are described stay what they are and get the metadata of their identifiers. -/
theorem describe_eq_ok_iff {token : FungibleTokenBalance}
    {described : FungibleTokenBalance × FungibleTokenMetadata} :
    describe schemas api token = .ok described ↔
      token = described.1 ∧
        getFungibleTokenMetadata schemas api token.assetIdentifier = .ok described.2 := by
  unfold describe
  obtain ⟨found, metadata⟩ := described
  cases getFungibleTokenMetadata schemas api token.assetIdentifier with
  | error failure => simp [Except.map]
  | ok value => simp [Except.map]

theorem described_tokens {tokens : List FungibleTokenBalance}
    {described : List (FungibleTokenBalance × FungibleTokenMetadata)}
    (read : List.Forall₂ (fun token result => describe schemas api token = .ok result) tokens
      described) :
    described.map Prod.fst = tokens ∧
      ((described.all fun token => token.2.exact) = true ↔ ∀ token ∈ tokens, ∃ metadata,
        getFungibleTokenMetadata schemas api token.assetIdentifier = .ok metadata ∧
          metadata.exact = true) := by
  induction read with
  | nil => simp
  | cons found _ ih =>
      obtain ⟨rfl, metadata⟩ := describe_eq_ok_iff.mp found
      rw [List.map_cons, ih.1, List.all_cons, Bool.and_eq_true, ih.2, List.forall_mem_cons]
      simp [metadata]

theorem positionOf_eq_ok {address : Text} {balances : AddressBalances} {height : Option ℚ}
    {observedAt : ℕ} {position : WalletPosition}
    (made : positionOf schemas api address balances height observedAt = .ok position) :
    position.owner = address ∧ position.stx = balances.stx ∧
      position.assets.map WalletAsset.row =
        (amounts balances).filter IsHeld ∧
      (position.exact = true ↔ ∀ token ∈ balances.fungibleTokens, ∃ metadata,
        getFungibleTokenMetadata schemas api token.assetIdentifier = .ok metadata ∧
          metadata.exact = true) := by
  obtain ⟨described, read, built⟩ := bind_eq_ok_iff.mp made
  obtain ⟨held, kept, result⟩ := bind_eq_ok_iff.mp built
  cases result
  obtain ⟨same, exact_iff⟩ := described_tokens (mapM_eq_ok_iff.mp read)
  refine ⟨rfl, rfl, ?_, exact_iff⟩
  rw [(heldAssets_eq_ok_iff.mp kept).2, amounts, ← same, List.map_map]
  have rows : (stxAsset balances.stx :: described.map tokenAsset).map WalletAsset.row =
      (ofString "STX", balances.stx.balance) ::
        described.map ((fun token => (token.assetIdentifier, token.balance)) ∘ Prod.fst) := by
    rw [List.map_cons, List.map_map]
    rfl
  rw [← rows, List.filter_map]
  rfl

/-! ## Never a part of it -/

/-- Whatever the API answers, a position holds every asset that all pages list, or that the older
endpoint lists, with an amount above zero, in their order and with their amounts. -/
theorem positions_hold_all {pages : ℕ} {firstFails heightFails : Bool} {address : Text}
    {blockHeight : Option ℕ} {observedAt : ℕ} {positions : List WalletPosition}
    (done : getPositions schemas api pages firstFails heightFails address blockHeight observedAt =
      some (.ok positions)) :
    ∃ position balances, positions = [position] ∧ Complete schemas api address balances ∧
      position.owner = address ∧ position.stx = balances.stx ∧
      position.assets.map WalletAsset.row =
        (amounts balances).filter IsHeld ∧
      (position.exact = true ↔ ∀ token ∈ balances.fungibleTokens, ∃ metadata,
        getFungibleTokenMetadata schemas api token.assetIdentifier = .ok metadata ∧
          metadata.exact = true) := by
  obtain ⟨height, balances, position, -, asked, made, rfl⟩ := getPositions_eq_ok_iff.mp done
  exact ⟨position, balances, rfl, complete_of_getAddressBalances asked, positionOf_eq_ok made⟩

/-! ### Two pages -/

/-- A member that is a text. -/
def field (key value : String) : Text × Json :=
  (ofString key, .string (ofString value))

/-- A row of a page. -/
def rowBody (identifier balance : String) : Json :=
  .object [field "asset_identifier" identifier, field "balance" balance]

/-- A page with a cursor. -/
def pageBody (next : Json) (rows : List Json) : Json :=
  .object [(ofString "total", .number (ofString "2")), (ofString "limit", .number (ofString "1")),
    (ofString "cursor", .object [(ofString "next", next)]), (ofString "results", .array rows)]

/-- Two pages of one token each, and no metadata. -/
def smallApi : Api
  | .stxBalance _ => .ok (.object [field "balance" "5000000", field "available" "3000000",
      (ofString "locked", .object [field "amount" "2000000"])])
  | .ftBalances _ none =>
      .ok (pageBody (.string (ofString "2")) [rowBody "SP1.sbtc-token::sbtc" "150"])
  | .ftBalances _ (some _) => .ok (pageBody .null [rowBody "SP2.coin::coin" "0"])
  | .info => .ok (.object [(ofString "stacks_tip_height", .number (ofString "150000"))])
  | .legacyBalances _ | .metadata _ => .error (.status 404)

/-- The member of an object. -/
def memberAt (key : String) : Json → Option Json
  | .object members => property (ofString key) members
  | _ => none

/-- The text that is a member of an object. -/
def textAt (key : String) (body : Json) : Option Text :=
  match memberAt key body with
  | some (.string text) => some text
  | _ => none

/-- The schemas on such bodies; of the older endpoint and of the metadata there are none. -/
def smallSchemas : Schemas where
  stxBalance body := do
    let balance ← textAt "balance" body
    let available ← textAt "available" body
    return { balance, available, locked := (memberAt "locked" body).bind (textAt "amount") }
  ftBalancePage body :=
    match memberAt "results" body with
    | some (.array rows) => do
        let results ← rows.mapM fun row => do
          let assetIdentifier ← textAt "asset_identifier" row
          let balance ← textAt "balance" row
          return { assetIdentifier, balance }
        return { cursor := (memberAt "cursor" body).map (textAt "next"), results }
    | _ => none
  legacyBalance _ := none
  tokenMetadata _ := none

/-- The position that comes of both pages, without the empty token. -/
def smallPosition : WalletPosition where
  id := ofString "native:SP1"
  owner := ofString "SP1"
  assets := [⟨ofString "STX", ofString "STX", ofString "5000000", 6⟩,
    ⟨ofString "SP1.sbtc-token::sbtc", ofString "sBTC", ofString "150", 8⟩]
  liquidBps := 10000
  blockHeight := some 150000
  observedAt := 7
  exact := false
  stx := ⟨ofString "5000000", ofString "3000000", ofString "2000000"⟩

theorem getPositions_small :
    getPositions smallSchemas smallApi 2 true true (ofString "SP1") none 7 =
      some (.ok [smallPosition]) := by
  decide +kernel

theorem positions_hold_all_small :
    ∃ balances, Complete smallSchemas smallApi (ofString "SP1") balances ∧
      smallPosition.stx = balances.stx ∧
      smallPosition.assets.map WalletAsset.row = (amounts balances).filter IsHeld := by
  obtain ⟨position, balances, listed, complete, -, stx, assets, -⟩ :=
    positions_hold_all getPositions_small
  cases listed
  exact ⟨balances, complete, stx, assets⟩

/-! ## A wallet that is served -/

/-- What a wallet holds. -/
structure Wallet where
  stx : ℕ
  available : ℕ
  locked : ℕ
  tokens : List FungibleToken

/-- The balance of a token as the API lists it. -/
def tokenRow (token : FungibleToken) : FungibleTokenBalance where
  assetIdentifier := ofString token.assetIdentifier
  balance := digits token.balance

/-- The balances of the wallet as the API tells them. -/
def Wallet.balances (wallet : Wallet) : AddressBalances where
  stx := ⟨digits wallet.stx, digits wallet.available, digits wallet.locked⟩
  fungibleTokens := wallet.tokens.map tokenRow

/-- The API lists the wallet, cut into pages in any way, or only the older endpoint is there. -/
inductive Lists (schemas : Schemas) (api : Api) (address : Text) (wallet : Wallet) : Prop where
  | paged {body : Json} {pages : List (List FungibleTokenBalance)}
      (asked : api (.stxBalance address) = .ok body)
      (read : (schemas.stxBalance body).map StxBalanceBody.stx = some wallet.balances.stx)
      (listed : Pages (ftBalancePage schemas api address) none pages)
      (all : pages.flatten = wallet.balances.fungibleTokens)
  | legacy (stxGone : api (.stxBalance address) = .error (.status 404))
      (tokensGone : ftBalancePage schemas api address none = .error (.status 404))
      (listed : legacyBalances schemas api address = .ok wallet.balances)

/-- The identifier of the token is that of a contract and a name without colons. -/
structure Named (token : FungibleToken) (contractId tokenName : Text) : Prop where
  identifier : ofString token.assetIdentifier = contractId ++ 0x3A :: 0x3A :: tokenName
  contract : contractId ≠ []
  token : tokenName ≠ []
  plain : 0x3A ∉ tokenName

/-- What the API says of the token of a contract. -/
def metadataAnswer (schemas : Schemas) (api : Api) (contractId : Text) :
    Except Failure TokenMetadata :=
  api (.metadata contractId) >>= Stacks.parse schemas.tokenMetadata

/-- The API publishes the symbol and the decimals of the token, or it has no metadata for it. -/
inductive Described (schemas : Schemas) (api : Api) (token : FungibleToken) : Prop where
  | published {contractId tokenName : Text} {body : TokenMetadata}
      (named : Named token contractId tokenName)
      (answered : metadataAnswer schemas api contractId = .ok body)
      (symbol : body.symbol = some (ofString token.symbol))
      (decimals : body.decimals = some (token.decimals : ℤ)) (is_exact : token.exact = true)
  | unpublished {contractId tokenName : Text} {failure : Failure}
      (named : Named token contractId tokenName)
      (failed : metadataAnswer schemas api contractId = .error failure)
      (soft : failure = .other ∨ ∃ code ∈ [404, 422, 503], failure = .status code)
      (symbol : ofString token.symbol =
        if isSbtc contractId tokenName then ofString "sBTC" else tokenName)
      (decimals : token.decimals = if isSbtc contractId tokenName then 8 else 0)
      (is_exact : token.exact = isSbtc contractId tokenName)

/-- The API lists a wallet, describes its tokens and knows the tip. -/
structure Serves (schemas : Schemas) (api : Api) (address : Text) (wallet : Wallet) (height : ℕ) :
    Prop where
  lists : Lists schemas api address wallet
  describes : ∀ token ∈ wallet.tokens, Described schemas api token
  tip : getCurrentBlockHeight api = .ok (some (height : ℚ))

theorem Lists.getAddressBalances {address : Text} {wallet : Wallet}
    (lists : Lists schemas api address wallet) :
    ∃ enough, ∀ pages ≥ enough, ∀ firstFails,
      getAddressBalances schemas api pages firstFails address = some (.ok wallet.balances) := by
  cases lists with
  | @paged body chunks asked read listed all =>
      refine ⟨chunks.length, fun pages enough firstFails => ?_⟩
      have current : currentBalances schemas api pages firstFails address =
          some (.ok wallet.balances) :=
        currentBalances_eq_ok_iff.mpr ⟨body, asked, read,
          collect_eq_ok_iff.mpr ⟨chunks, listed, enough, all.symm⟩⟩
      rw [Stacks.getAddressBalances, current]
      rfl
  | legacy stxGone tokensGone listed =>
      refine ⟨1, fun pages enough firstFails => ?_⟩
      obtain ⟨fuel, rfl⟩ := Nat.exists_eq_succ_of_ne_zero (Nat.one_le_iff_ne_zero.mp enough)
      have tokens : getAllFungibleTokenBalances schemas api (fuel + 1) address =
          some (.error (.status 404)) := by
        rw [getAllFungibleTokenBalances, collect, tokensGone]
      have current : currentBalances schemas api (fuel + 1) firstFails address =
          some (.error (.status 404)) := by
        rw [currentBalances, stxGone, tokens]
        cases firstFails <;> rfl
      rw [Stacks.getAddressBalances, current, Option.map_some]
      dsimp only
      rw [if_neg (by decide), listed]

theorem Described.metadata {token : FungibleToken} (described : Described schemas api token) :
    ∃ metadata, getFungibleTokenMetadata schemas api (ofString token.assetIdentifier) =
        .ok metadata ∧
      metadata.symbol = ofString token.symbol ∧ metadata.decimals = token.decimals ∧
      metadata.exact = token.exact := by
  have parsed {contractId tokenName : Text} (named : Named token contractId tokenName) :
      parseAssetIdentifier (ofString token.assetIdentifier) = .ok (contractId, tokenName) := by
    rw [named.identifier, parseAssetIdentifier_append named.contract named.token named.plain]
  cases described with
  | @published contractId tokenName body named answered symbol decimals is_exact =>
      refine ⟨describedMetadata (ofString token.assetIdentifier) contractId tokenName body,
        bind_eq_ok_iff.mpr ⟨_, parsed named, ?_⟩, ?_⟩
      · dsimp only
        rw [← metadataAnswer, answered]
        rfl
      · simp [describedMetadata, symbol, decimals, is_exact]
  | @unpublished contractId tokenName failure named failed soft symbol decimals is_exact =>
      refine ⟨fallbackMetadata (ofString token.assetIdentifier) contractId tokenName,
        bind_eq_ok_iff.mpr ⟨_, parsed named, ?_⟩, ?_⟩
      · dsimp only
        rw [← metadataAnswer, failed]
        rcases soft with rfl | ⟨code, listed, rfl⟩
        · rfl
        · exact if_neg (not_not.mpr listed)
      · simp only [fallbackMetadata, symbol, decimals, is_exact, true_and, and_true]
        split <;> rfl

/-- An asset of the engine as the adapter writes it. -/
def print (asset : PositionAsset) : WalletAsset where
  assetId := ofString asset.assetId
  symbol := ofString asset.symbol
  amountAtomic := digits asset.amountAtomic
  decimals := asset.decimals

theorem heldAssets_print (assets : List PositionAsset) :
    heldAssets (assets.map print) =
      .ok ((assets.filter fun asset => 0 < asset.amountAtomic).map print) := by
  have amount (asset : PositionAsset) :
      bigInt (print asset).amountAtomic = some (asset.amountAtomic : ℤ) :=
    bigInt_digits asset.amountAtomic
  rw [heldAssets_eq_ok_iff, List.forall_mem_map, List.filter_map]
  refine ⟨fun asset _ => by rw [amount asset]; rfl, ?_⟩
  congr 1
  apply List.filter_congr
  intro asset _
  simp [amount asset]

/-- Described tokens are the assets of the wallet. -/
theorem exists_described {tokens : List FungibleToken}
    (describes : ∀ token ∈ tokens, Described schemas api token) :
    ∃ described, (tokens.map tokenRow).mapM (describe schemas api) = .ok described ∧
      described.map tokenAsset = (tokens.map FungibleToken.asset).map print ∧
      (described.all fun token => token.2.exact) = tokens.all FungibleToken.exact := by
  induction tokens with
  | nil => exact ⟨[], rfl, rfl, rfl⟩
  | cons token rest ih =>
      rw [List.forall_mem_cons] at describes
      obtain ⟨metadata, found, symbol, decimals, is_exact⟩ := describes.1.metadata
      obtain ⟨described, read, assets, all_exact⟩ := ih describes.2
      refine ⟨(tokenRow token, metadata) :: described, ?_, ?_, ?_⟩
      · exact mapM_eq_ok_iff.mpr
          (.cons (describe_eq_ok_iff.mpr ⟨rfl, found⟩) (mapM_eq_ok_iff.mp read))
      · rw [List.map_cons, assets, List.map_cons, List.map_cons]
        congr 1
        simp [tokenAsset, print, FungibleToken.asset, tokenRow, symbol, decimals]
      · rw [List.all_cons, List.all_cons, all_exact, is_exact]

/-- An API that serves a wallet gives its position, however the balances are cut into pages. -/
theorem served_wallet_is_position {address : String} {wallet : Wallet} {height : ℕ}
    (serves : Serves schemas api (ofString address) wallet height) (observedAt : ℕ) :
    ∃ enough, ∀ pages ≥ enough, ∀ firstFails heightFails, ∃ position : WalletPosition,
      getPositions schemas api pages firstFails heightFails (ofString address) none observedAt =
        some (.ok [position]) ∧
      let native := (nativePosition address height observedAt wallet.stx wallet.tokens).position
      position.assets = native.assets.map print ∧
        some position.liquidBps = native.liquidBps ∧
        position.blockHeight = some (native.source.blockHeight : ℚ) ∧
        position.observedAt = native.source.observedAt ∧ position.exact = native.source.exact := by
  obtain ⟨enough, listed⟩ := serves.lists.getAddressBalances
  obtain ⟨described, read, assets, is_exact⟩ := exists_described serves.describes
  refine ⟨enough, fun pages many firstFails heightFails => ?_⟩
  have held : heldAssets (stxAsset wallet.balances.stx :: described.map tokenAsset) =
      .ok ((nativeAssets wallet.stx wallet.tokens).map print) := by
    rw [assets]
    exact heldAssets_print (Adapters.stxAsset wallet.stx :: wallet.tokens.map FungibleToken.asset)
  refine ⟨_, getPositions_eq_ok_iff.mpr ⟨_, _, _, serves.tip, listed pages many firstFails,
    bind_eq_ok_iff.mpr ⟨described, read, bind_eq_ok_iff.mpr ⟨_, held, rfl⟩⟩, rfl⟩, ?_⟩
  exact ⟨rfl, rfl, rfl, rfl, is_exact⟩

/-- The token that is held. -/
def smallToken : FungibleToken where
  assetIdentifier := "SP1.sbtc-token::sbtc"
  balance := 150
  symbol := "sBTC"
  decimals := 8
  exact := true

/-- The token of which there is nothing. -/
def emptyToken : FungibleToken where
  assetIdentifier := "SP2.coin::coin"
  balance := 0
  symbol := "coin"
  decimals := 0
  exact := false

/-- The wallet that the small API lists. -/
def smallWallet : Wallet where
  stx := 5000000
  available := 3000000
  locked := 2000000
  tokens := [smallToken, emptyToken]

theorem pages_small : Pages (ftBalancePage smallSchemas smallApi (ofString "SP1")) none
    [[tokenRow smallToken], [tokenRow emptyToken]] := by
  have first : ftBalancePage smallSchemas smallApi (ofString "SP1") none =
      .ok ⟨[tokenRow smallToken], some (ofString "2")⟩ := by decide +kernel
  have second : ftBalancePage smallSchemas smallApi (ofString "SP1") (some (ofString "2")) =
      .ok ⟨[tokenRow emptyToken], none⟩ := by decide +kernel
  exact .more first (.last second)

theorem serves_small : Serves smallSchemas smallApi (ofString "SP1") smallWallet 150000 where
  lists := .paged rfl (by decide +kernel) pages_small rfl
  describes := by
    have soft : Failure.status 404 = .other ∨
        ∃ code ∈ [404, 422, 503], Failure.status 404 = .status code :=
      .inr ⟨404, List.mem_cons_self, rfl⟩
    have small : Named smallToken (ofString "SP1.sbtc-token") (ofString "sbtc") :=
      ⟨by decide, by decide, by decide, by decide⟩
    have empty : Named emptyToken (ofString "SP2.coin") (ofString "coin") :=
      ⟨by decide, by decide, by decide, by decide⟩
    exact List.forall_mem_cons.mpr
      ⟨.unpublished small rfl soft (by decide) (by decide) (by decide),
        List.forall_mem_singleton.mpr
          (.unpublished empty rfl soft (by decide) (by decide) (by decide))⟩
  tip := by decide +kernel

theorem served_wallet_is_position_small :
    ∃ enough, ∀ pages ≥ enough, ∃ position : WalletPosition,
      getPositions smallSchemas smallApi pages true true (ofString "SP1") none 7 =
          some (.ok [position]) ∧
        position.assets = (nativeAssets 5000000 smallWallet.tokens).map print := by
  obtain ⟨enough, served⟩ := served_wallet_is_position serves_small 7
  refine ⟨enough, fun pages many => ?_⟩
  obtain ⟨position, listed, assets, -⟩ := served pages many true true
  exact ⟨position, listed, assets⟩

end RiskRail.Adapters.NativeStacks
