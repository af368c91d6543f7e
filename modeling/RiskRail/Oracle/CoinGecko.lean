import RiskRail.Engine.Position
import RiskRail.Javascript.Map
import RiskRail.Numeric.Decimal
import Mathlib.Data.List.Infix

/-!
# The CoinGecko price oracle

An asset is priced by what its symbol says it is, or by the letters `sbtc`
anywhere in its identifier.  Nothing compares the identifier with that of the
genuine asset.
-/

namespace RiskRail.Oracle

open RiskRail.Engine RiskRail.Javascript RiskRail.Numeric

/-- What the oracle is asked for. -/
structure OracleAsset where
  assetId : String
  symbol : String
deriving DecidableEq

/-- A response that passed its schema. -/
structure CoinGeckoResponse where
  usd : String → Option ℚ
  nonneg : ∀ id, ∀ price ∈ usd id, 0 ≤ price

/-- `DEFAULT_COINGECKO_IDS`. -/
def defaultCoingeckoIds : List (String × String) :=
  [("BTC", "bitcoin"), ("SBTC", "bitcoin"), ("STX", "blockstack"), ("USDC", "usd-coin"),
    ("USDCX", "usd-coin")]

/-- `text.includes(part)`. -/
def includes (text part : String) : Bool :=
  decide (part.toList <:+: text.toList)

variable (toUpperCase toLowerCase : String → String)

/-- The coin of an asset, by its symbol or by an id that tells sBTC. -/
def resolveId (asset : OracleAsset) : Option String :=
  (defaultCoingeckoIds.lookup (toUpperCase asset.symbol)).or
    (if includes (toLowerCase asset.assetId) "sbtc" then some "bitcoin" else none)

/-- The assets with the ids they are asked for under. -/
def mappedIds (assets : List OracleAsset) : OrderedMap String String :=
  .ofWrites <| assets.filterMap fun asset =>
    (resolveId toUpperCase toLowerCase asset).map fun id => (asset.assetId, id)

/-- The quotes of a response. -/
def quotes (response : CoinGeckoResponse) (assets : List OracleAsset) :
    OrderedMap String PriceLike :=
  .ofWrites <| assets.filterMap fun asset =>
    ((mappedIds toUpperCase toLowerCase assets).get asset.assetId).bind fun id =>
      (response.usd id).map fun price =>
        (asset.assetId, { assetId := asset.assetId, priceUsd := toDecimalPlaces 8 price })

/-- Without an asset to ask for there is no request; without a `response` the
request throws. -/
def getUsdPrices (response : Option CoinGeckoResponse) (assets : List OracleAsset) :
    Option PriceMap :=
  if (mappedIds toUpperCase toLowerCase assets).entries = [] then some .empty
  else
    response.map fun response =>
      let result := quotes toUpperCase toLowerCase response assets
      ⟨result.entries, result.distinct⟩

/-- The oracle has a price for the asset. -/
def Quoted (response : Option CoinGeckoResponse) (asset : OracleAsset) : Prop :=
  ∃ body ∈ response, ∃ id ∈ resolveId toUpperCase toLowerCase asset, (body.usd id).isSome = true

/-! ## What is quoted -/

variable {toUpperCase toLowerCase} {assets : List OracleAsset} {response : CoinGeckoResponse}

/-- The quote of one asset. -/
def quote (toUpperCase toLowerCase : String → String) (response : CoinGeckoResponse)
    (asset : OracleAsset) : Option (String × PriceLike) :=
  (resolveId toUpperCase toLowerCase asset).bind fun id =>
    (response.usd id).map fun price =>
      (asset.assetId, { assetId := asset.assetId, priceUsd := toDecimalPlaces 8 price })

/-- Entries made from assets under their identifiers keep the identifiers distinct. -/
theorem nodup_keys {value : Type} {entryOf : OracleAsset → Option (String × value)}
    (key : ∀ asset, ∀ entry ∈ entryOf asset, entry.1 = asset.assetId)
    (distinct : (assets.map OracleAsset.assetId).Nodup) :
    ((assets.filterMap entryOf).map Prod.fst).Nodup := by
  have sublist : ((assets.filterMap entryOf).map Prod.fst).Sublist
      (assets.map OracleAsset.assetId) := by
    clear distinct
    induction assets with
    | nil => exact .slnil
    | cons asset rest ih =>
        cases made : entryOf asset with
        | none =>
            rw [List.filterMap_cons_none made]
            exact ih.cons _
        | some entry =>
            rw [List.filterMap_cons_some made, List.map_cons, List.map_cons,
              key asset entry made]
            exact ih.cons_cons _
  exact sublist.nodup distinct

theorem get_mappedIds (distinct : (assets.map OracleAsset.assetId).Nodup) {asset : OracleAsset}
    (member : asset ∈ assets) :
    (mappedIds toUpperCase toLowerCase assets).get asset.assetId =
      resolveId toUpperCase toLowerCase asset := by
  apply Option.ext
  intro id
  rw [OrderedMap.get_eq_some_iff, mappedIds, OrderedMap.entries_ofWrites_of_nodup,
    List.mem_filterMap]
  · constructor
    · rintro ⟨other, otherMem, mapped⟩
      rcases Option.map_eq_some_iff.mp mapped with ⟨resolved, resolves, entry⟩
      have same := congrArg Prod.fst entry
      rw [← List.inj_on_of_nodup_map distinct otherMem member same, resolves]
      exact congrArg (some ∘ Prod.snd) entry
    · intro resolves
      exact ⟨asset, member, by rw [resolves]; rfl⟩
  · apply nodup_keys _ distinct
    intro other entry made
    rcases Option.map_eq_some_iff.mp made with ⟨resolved, -, rfl⟩
    rfl

theorem quote_key {asset : OracleAsset} {entry : String × PriceLike}
    (quoted : quote toUpperCase toLowerCase response asset = some entry) :
    entry.1 = asset.assetId ∧ entry.2.assetId = asset.assetId := by
  rcases Option.bind_eq_some_iff.mp quoted with ⟨id, -, priced⟩
  rcases Option.map_eq_some_iff.mp priced with ⟨price, -, rfl⟩
  exact ⟨rfl, rfl⟩

theorem answer_quote_key {answer : Option CoinGeckoResponse} {asset : OracleAsset}
    {entry : String × PriceLike}
    (quoted : (answer.bind fun body => quote toUpperCase toLowerCase body asset) = some entry) :
    entry.1 = asset.assetId ∧ entry.2.assetId = asset.assetId := by
  rcases Option.bind_eq_some_iff.mp quoted with ⟨body, -, quoted⟩
  exact quote_key quoted

/-- Of assets with distinct identifiers each is quoted by itself. -/
theorem entries_quotes (distinct : (assets.map OracleAsset.assetId).Nodup) :
    (quotes toUpperCase toLowerCase response assets).entries =
      assets.filterMap (quote toUpperCase toLowerCase response) := by
  have same : ∀ asset ∈ assets,
      (((mappedIds toUpperCase toLowerCase assets).get asset.assetId).bind fun id =>
        (response.usd id).map fun price =>
          (asset.assetId, { assetId := asset.assetId, priceUsd := toDecimalPlaces 8 price })) =
        quote toUpperCase toLowerCase response asset := by
    intro asset member
    rw [get_mappedIds distinct member]
    rfl
  rw [quotes, List.filterMap_congr same]
  apply OrderedMap.entries_ofWrites_of_nodup
  apply nodup_keys _ distinct
  intro asset entry quoted
  exact (quote_key quoted).1

/-- An asset has a quote exactly if the oracle has a price for it. -/
theorem isSome_quote_iff {answer : Option CoinGeckoResponse} {asset : OracleAsset} :
    (answer.bind fun body => quote toUpperCase toLowerCase body asset).isSome = true ↔
      Quoted toUpperCase toLowerCase answer asset := by
  cases answer with
  | none => simp [Quoted]
  | some body => simp [quote, Quoted, Option.isSome_iff_exists, Option.bind_eq_some_iff]

/-- Where nothing is asked for, nothing is quoted. -/
theorem quote_of_unmapped (distinct : (assets.map OracleAsset.assetId).Nodup)
    (unmapped : (mappedIds toUpperCase toLowerCase assets).entries = []) :
    ∀ asset ∈ assets, quote toUpperCase toLowerCase response asset = none := by
  intro asset member
  rw [quote, ← get_mappedIds distinct member, OrderedMap.get, unmapped]
  rfl

/-- The prices a caller goes on with, if it takes a failure for no prices at all. -/
theorem entries_getUsdPrices {answer : Option CoinGeckoResponse}
    (distinct : (assets.map OracleAsset.assetId).Nodup) :
    ((getUsdPrices toUpperCase toLowerCase answer assets).getD .empty).entries =
      assets.filterMap fun asset =>
        answer.bind fun body => quote toUpperCase toLowerCase body asset := by
  unfold getUsdPrices
  split
  next unmapped =>
    symm
    apply List.filterMap_eq_nil_iff.mpr
    intro asset member
    cases answer with
    | none => rfl
    | some body => exact quote_of_unmapped distinct unmapped asset member
  next =>
    cases answer with
    | none => exact (List.filterMap_eq_nil_iff.mpr fun _ _ => rfl).symm
    | some body => exact entries_quotes distinct

end RiskRail.Oracle
