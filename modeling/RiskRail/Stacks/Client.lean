import RiskRail.Javascript.NumberText
import RiskRail.Stacks.Clarity
import RiskRail.Transition.Pages

/-!
# The Stacks API client

The balances of an address, page by page from the current endpoints or in one answer from the
older one, and the metadata of a token.  The API is a function: within one call of the client it
answers equal requests alike.
-/

namespace RiskRail.Stacks

open RiskRail.Javascript Text RiskRail.Transition

/-! ## Answers -/

/-- The URLs that the client asks for. -/
inductive Request where
  | stxBalance (address : Text)
  | ftBalances (address : Text) (cursor : Option Text)
  | legacyBalances (address : Text)
  | metadata (contractId : Text)
  | info

/-- A `StacksApiError` with the status of the response, or any other error: of the connection,
of the body or of its schema. -/
inductive Failure where
  | status (code : ℕ)
  | other
  deriving DecidableEq

/-- A status that is not ok is a failure, and so is a body that is no JSON. -/
abbrev Api : Type :=
  Request → Except Failure Json

/-- The STX of an address. -/
structure StxBalance where
  balance : Text
  available : Text
  locked : Text
  deriving DecidableEq

/-- A token of an address, under its identifier. -/
structure FungibleTokenBalance where
  assetIdentifier : Text
  balance : Text
  deriving DecidableEq

/-- All that an address holds. -/
structure AddressBalances where
  stx : StxBalance
  fungibleTokens : List FungibleTokenBalance
  deriving DecidableEq

/-! ## Schemas -/

/-- What `StxBalanceSchema` makes of a body, with the amount that is locked. -/
structure StxBalanceBody where
  balance : Text
  available : Text
  locked : Option Text
  deriving DecidableEq

/-- What `FtBalancePageSchema` makes of a body, with the `next` of the cursor. -/
structure FtBalancePageBody where
  cursor : Option (Option Text)
  results : List FungibleTokenBalance
  deriving DecidableEq

/-- What `LegacyBalanceSchema` makes of a body, with the entries of `fungible_tokens` in the
order of the language. -/
structure LegacyBalanceBody where
  balance : Text
  fungibleTokens : List (Text × Text)
  deriving DecidableEq

/-- What `TokenMetadataSchema` makes of a body. -/
structure TokenMetadata where
  name : Option Text
  symbol : Option Text
  decimals : Option ℤ
  imageUri : Option Text
  description : Option Text
  deriving DecidableEq

/-- The schemas of the client, which a library checks: the value that `parse` returns, or
nothing where it throws. -/
structure Schemas where
  stxBalance : Json → Option StxBalanceBody
  ftBalancePage : Json → Option FtBalancePageBody
  legacyBalance : Json → Option LegacyBalanceBody
  tokenMetadata : Json → Option TokenMetadata

/-- `Schema.parse(body)`. -/
def parse {α : Type} (schema : Json → Option α) (body : Json) : Except Failure α :=
  match schema body with
  | some value => .ok value
  | none => .error .other

/-- The balances of a body, with `0` where nothing is locked. -/
def StxBalanceBody.stx (body : StxBalanceBody) : StxBalance where
  balance := body.balance
  available := body.available
  locked := body.locked.getD (ofString "0")

/-- An empty cursor is none. -/
def FtBalancePageBody.page (body : FtBalancePageBody) : Page FungibleTokenBalance Text where
  items := body.results
  next := body.cursor.join.filter (· ≠ [])

/-- Of the older endpoint, all is available and none locked. -/
def LegacyBalanceBody.balances (body : LegacyBalanceBody) : AddressBalances where
  stx := { balance := body.balance, available := body.balance, locked := ofString "0" }
  fungibleTokens := body.fungibleTokens.map fun token => ⟨token.1, token.2⟩

/-! ## Balances -/

section

variable (schemas : Schemas) (api : Api)

/-- The page behind a cursor, or the first one. -/
def ftBalancePage (address : Text) (cursor : Option Text) :
    Except Failure (Page FungibleTokenBalance Text) := do
  let body ← parse schemas.ftBalancePage (← api (.ftBalances address cursor))
  return body.page

/-- `none` is a call that does not come to an end with this many pages. -/
def getAllFungibleTokenBalances (pages : ℕ) (address : Text) :
    Option (Except Failure (List FungibleTokenBalance)) :=
  collect (ftBalancePage schemas api address) pages none []

/-- `Promise.all` of two calls, which rejects as soon as one of them does; `firstFails` says
which rejection comes first. -/
def both {α β : Type} (firstFails : Bool) :
    Except Failure α → Option (Except Failure β) → Option (Except Failure (α × β))
  | .ok first, some (.ok second) => some (.ok (first, second))
  | .ok _, some (.error failure) => some (.error failure)
  | .ok _, none => none
  | .error failure, some (.error later) => some (.error (if firstFails then failure else later))
  | .error failure, _ => some (.error failure)

/-- The balances of the current endpoints. -/
def currentBalances (pages : ℕ) (firstFails : Bool) (address : Text) :
    Option (Except Failure AddressBalances) :=
  (both firstFails (api (.stxBalance address))
    (getAllFungibleTokenBalances schemas api pages address)).map
      fun answers => do
        let (stxBody, fungibleTokens) ← answers
        let body ← parse schemas.stxBalance stxBody
        return { stx := body.stx, fungibleTokens }

/-- The answer of the older endpoint. -/
def legacyBalances (address : Text) : Except Failure AddressBalances := do
  let body ← parse schemas.legacyBalance (← api (.legacyBalances address))
  return body.balances

/-- The older endpoint is asked where the current ones are not there, and after every failure
that is not a status. -/
def getAddressBalances (pages : ℕ) (firstFails : Bool) (address : Text) :
    Option (Except Failure AddressBalances) :=
  (currentBalances schemas api pages firstFails address).map fun current =>
    match current with
    | .ok balances => .ok balances
    | .error (.status code) =>
        if code ≠ 404 then .error (.status code) else legacyBalances schemas api address
    | .error .other => legacyBalances schemas api address

end

/-! ## Metadata -/

/-- The place of the last `::`. -/
def lastIndexOfColons : Text → Option ℕ
  | 0x3A :: 0x3A :: rest =>
      match lastIndexOfColons (0x3A :: rest) with
      | some place => some (place + 1)
      | none => some 0
  | _ :: rest => (lastIndexOfColons rest).map (· + 1)
  | [] => none

/-- The contract and the token; an identifier without one of them throws. -/
def parseAssetIdentifier (assetIdentifier : Text) : Except Failure (Text × Text) :=
  match lastIndexOfColons assetIdentifier with
  | none => .error .other
  | some split =>
      if split = 0 ∨ split + 2 = assetIdentifier.length then .error .other
      else .ok (assetIdentifier.take split, assetIdentifier.drop (split + 2))

/-- The metadata of a token as the adapters use it. -/
structure FungibleTokenMetadata where
  assetIdentifier : Text
  contractId : Text
  tokenName : Text
  name : Text
  symbol : Text
  decimals : ℤ
  imageUri : Option Text
  description : Option Text
  exact : Bool
  deriving DecidableEq

/-- `text.includes(part)`. -/
def includes (part text : Text) : Bool :=
  text.tails.any part.isPrefixOf

/-- The name of the token or of its contract tells sBTC. -/
def isSbtc (contractId tokenName : Text) : Bool :=
  includes (ofString "sbtc") (toLowerCase tokenName) ||
    includes (ofString "sbtc") (toLowerCase contractId)

/-- What is taken for the metadata of a token that the API does not describe. -/
def fallbackMetadata (assetIdentifier contractId tokenName : Text) : FungibleTokenMetadata :=
  let name := if isSbtc contractId tokenName then ofString "sBTC" else tokenName
  { assetIdentifier, contractId, tokenName, name, symbol := name
    decimals := if isSbtc contractId tokenName then 8 else 0
    imageUri := none, description := none
    exact := isSbtc contractId tokenName }

/-- The metadata of the API, with fallbacks for what it leaves out. -/
def describedMetadata (assetIdentifier contractId tokenName : Text) (body : TokenMetadata) :
    FungibleTokenMetadata :=
  { assetIdentifier, contractId, tokenName
    name := body.name.getD tokenName
    symbol := body.symbol.getD tokenName
    decimals := body.decimals.getD (if isSbtc contractId tokenName then 8 else 0)
    imageUri := body.imageUri, description := body.description
    exact := body.decimals.isSome }

/-- The metadata of the API, or the fallback where it has none. -/
def getFungibleTokenMetadata (schemas : Schemas) (api : Api) (assetIdentifier : Text) :
    Except Failure FungibleTokenMetadata := do
  let (contractId, tokenName) ← parseAssetIdentifier assetIdentifier
  match api (.metadata contractId) >>= parse schemas.tokenMetadata with
  | .ok body => return describedMetadata assetIdentifier contractId tokenName body
  | .error (.status code) =>
      if code ∉ [404, 422, 503] then .error (.status code)
      else return fallbackMetadata assetIdentifier contractId tokenName
  | .error .other => return fallbackMetadata assetIdentifier contractId tokenName

/-- The height of the tip; `none` where it is no finite number. -/
def getCurrentBlockHeight (api : Api) : Except Failure (Option ℚ) := do
  match ← api .info with
  | .null => .error .other
  | .object members =>
      match property (ofString "stacks_tip_height") members with
      | some (.number text) => return finiteNumber text
      | some (.string text) => return finiteNumber text
      | _ => return some 0
  | _ => return some 0

/-! ## Identifiers -/

/-- There are no two colons in a row where only the first letter may be one. -/
theorem lastIndexOfColons_of_not_mem (first : ℕ) {rest : Text} (plain : 0x3A ∉ rest) :
    lastIndexOfColons (first :: rest) = none := by
  induction rest generalizing first with
  | nil => simp [lastIndexOfColons]
  | cons second rest ih =>
      rw [List.mem_cons, not_or] at plain
      rw [lastIndexOfColons, ih second plain.2]
      · rfl
      · intro later _ same
        exact plain.1 (List.head_eq_of_cons_eq same).symm

theorem lastIndexOfColons_cons {text : Text} {place : ℕ} (first : ℕ)
    (found : lastIndexOfColons text = some place) :
    lastIndexOfColons (first :: text) = some (place + 1) := by
  unfold lastIndexOfColons
  split
  next rest same =>
    cases same
    rw [found]
  next unit rest _ same =>
    cases same
    rw [found]
    rfl
  next same => cases same

theorem lastIndexOfColons_append (front : Text) {name : Text} (plain : 0x3A ∉ name) :
    lastIndexOfColons (front ++ 0x3A :: 0x3A :: name) = some front.length := by
  induction front with
  | nil =>
      rw [List.nil_append, lastIndexOfColons, lastIndexOfColons_of_not_mem 0x3A plain]
      rfl
  | cons unit front ih => exact lastIndexOfColons_cons unit ih

/-- An identifier is read as the contract and the token that it is made of. -/
theorem parseAssetIdentifier_append {contractId tokenName : Text} (contract : contractId ≠ [])
    (token : tokenName ≠ []) (plain : 0x3A ∉ tokenName) :
    parseAssetIdentifier (contractId ++ 0x3A :: 0x3A :: tokenName) =
      .ok (contractId, tokenName) := by
  have front : contractId.length ≠ 0 := mt List.length_eq_zero_iff.mp contract
  have back : tokenName.length ≠ 0 := mt List.length_eq_zero_iff.mp token
  rw [parseAssetIdentifier, lastIndexOfColons_append contractId plain]
  dsimp only
  rw [if_neg]
  · rw [List.take_left, List.drop_append, List.drop_of_length_le (by omega)]
    simp
  · rw [List.length_append, List.length_cons, List.length_cons]
    omega

end RiskRail.Stacks
