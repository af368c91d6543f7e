import RiskRail.Adapters.Native
import RiskRail.Engine.Inputs
import RiskRail.Indexer.Refresh
import RiskRail.Oracle.CoinGecko

/-!
# Tokens nobody vouches for

Anyone can send a wallet a token, and its contract says what its symbol is.  The
portfolio of a wallet with such a token is compared with that of the same wallet
without it.
-/

namespace RiskRail.Indexer

open RiskRail.Adapters RiskRail.Engine RiskRail.Javascript RiskRail.Numeric RiskRail.Oracle

variable (arithmetic : Arithmetic) (toUpperCase toLowerCase : String → String)

/-- The asset as the indexer asks the oracle for it. -/
def assetEntry (asset : PositionAsset) : String × OracleAsset :=
  (asset.assetId, { assetId := asset.assetId, symbol := asset.symbol })

/-- The assets of all positions, each once. -/
def uniqueAssets (positions : List NormalizedPosition) : OrderedMap String OracleAsset :=
  .ofWrites ((positions.flatMap NormalizedPosition.assets).map assetEntry)

/-- The prices of `indexWallet`: none at all where the oracle throws. -/
def prices (response : Option CoinGeckoResponse) (positions : List NormalizedPosition) :
    PriceMap :=
  (getUsdPrices toUpperCase toLowerCase response (uniqueAssets positions).values).getD .empty

/-- What a refresh reads of a wallet: its balances, and what the other adapters return. -/
structure Holding where
  address : String
  blockHeight : ℕ
  observedAt : ℕ
  stxBalance : ℕ
  others : List AdapterPosition

/-- All positions of a wallet that holds the tokens. -/
def Holding.adapters (holding : Holding) (tokens : List FungibleToken) : List AdapterPosition :=
  nativePosition holding.address holding.blockHeight holding.observedAt holding.stxBalance tokens ::
    holding.others

/-- The positions of the holding with those tokens. -/
def Holding.positions (holding : Holding) (tokens : List FungibleToken) :
    List NormalizedPosition :=
  (holding.adapters tokens).map AdapterPosition.position

/-- The portfolio of a wallet that holds the tokens. -/
def Holding.portfolio (holding : Holding) (response : Option CoinGeckoResponse)
    (tokens : List FungibleToken) : Portfolio :=
  valuedPortfolio arithmetic toUpperCase holding.address (holding.adapters tokens)
    (prices toUpperCase toLowerCase response (holding.positions tokens))

/-- The token's asset, if it is one, has no value. -/
def LeftUnvalued (token : FungibleToken) (portfolio : Portfolio) : Prop :=
  ∀ position ∈ portfolio.positions, ∀ asset ∈ position.assets,
    asset.assetId = token.assetIdentifier → asset.valueUsd = none

/-- Nothing the token says about itself names a quoted asset. -/
def NamesNothing (response : Option CoinGeckoResponse) (positions : List NormalizedPosition)
    (token : FungibleToken) : Prop :=
  ¬Quoted toUpperCase toLowerCase response ⟨token.assetIdentifier, token.symbol⟩ ∧
    ∀ other ∈ (uniqueAssets positions).values,
      toUpperCase other.assetId = toUpperCase token.symbol →
        ¬Quoted toUpperCase toLowerCase response other

/-! ## One more asset -/

variable {arithmetic toUpperCase toLowerCase} {positions : List NormalizedPosition}
  {response : Option CoinGeckoResponse}

theorem uniqueAssets_key {entry : String × OracleAsset}
    (member : entry ∈ (uniqueAssets positions).entries) : entry.2.assetId = entry.1 := by
  rcases List.mem_map.mp (OrderedMap.mem_of_mem_ofWrites member) with ⟨asset, -, rfl⟩
  rfl

theorem nodup_uniqueAssets :
    ((uniqueAssets positions).values.map OracleAsset.assetId).Nodup := by
  have keys : (uniqueAssets positions).values.map OracleAsset.assetId =
      (uniqueAssets positions).entries.map Prod.fst := by
    rw [OrderedMap.values, List.map_map]
    apply List.map_congr_left
    exact fun entry member => uniqueAssets_key member
  rw [keys]
  exact (uniqueAssets positions).distinct

theorem prices_entries :
    (prices toUpperCase toLowerCase response positions).entries =
      (uniqueAssets positions).values.filterMap fun asset =>
        response.bind fun body => quote toUpperCase toLowerCase body asset :=
  entries_getUsdPrices nodup_uniqueAssets

/-- The prices are those of the assets that are quoted. -/
theorem exists_price_iff (holds : String → Prop) :
    (∃ entry ∈ (prices toUpperCase toLowerCase response positions).entries, holds entry.1) ↔
      ∃ asset ∈ (uniqueAssets positions).values,
        Quoted toUpperCase toLowerCase response asset ∧ holds asset.assetId := by
  rw [prices_entries]
  constructor
  · rintro ⟨entry, member, held⟩
    rcases List.mem_filterMap.mp member with ⟨asset, assetMem, quoted⟩
    refine ⟨asset, assetMem, isSome_quote_iff.mp (quoted ▸ Option.isSome_some), ?_⟩
    rwa [← (answer_quote_key quoted).1]
  · rintro ⟨asset, assetMem, quoted, held⟩
    rcases Option.isSome_iff_exists.mp (isSome_quote_iff.mpr quoted) with ⟨entry, quote_eq⟩
    refine ⟨entry, List.mem_filterMap.mpr ⟨asset, assetMem, quote_eq⟩, ?_⟩
    rwa [(answer_quote_key quote_eq).1]

theorem prices_keys : ∀ entry ∈ (prices toUpperCase toLowerCase response positions).entries,
    entry.2.assetId = entry.1 := by
  intro entry member
  rw [prices_entries] at member
  rcases List.mem_filterMap.mp member with ⟨asset, -, quoted⟩
  rw [(answer_quote_key quoted).1, (answer_quote_key quoted).2]

/-- The token is none of the assets of the positions. -/
def Foreign (token : FungibleToken) (positions : List NormalizedPosition) : Prop :=
  ∀ position ∈ positions, ∀ asset ∈ position.assets, asset.assetId ≠ token.assetIdentifier

/-- The positions of two wallets of which the first has one asset more. -/
structure OneMore (token : FungibleToken) (more less : List NormalizedPosition) : Prop where
  assets : ∃ first last,
    more.flatMap NormalizedPosition.assets = first ++ token.asset :: last ∧
      less.flatMap NormalizedPosition.assets = first ++ last
  foreign : Foreign token less

variable {token : FungibleToken} {more less : List NormalizedPosition}

theorem OneMore.assetId_ne_of_mem (oneMore : OneMore token more less) {asset : PositionAsset}
    (member : asset ∈ less.flatMap NormalizedPosition.assets) :
    asset.assetId ≠ token.assetIdentifier := by
  rcases List.mem_flatMap.mp member with ⟨position, positionMem, assetMem⟩
  exact oneMore.foreign position positionMem asset assetMem

/-- Only the further asset is written under its key. -/
theorem OneMore.asset_of_entry (oneMore : OneMore token more less) {entry : String × OracleAsset}
    (member : entry ∈ (more.flatMap NormalizedPosition.assets).map assetEntry)
    (key : entry.1 = token.assetIdentifier) : entry.2 = ⟨token.assetIdentifier, token.symbol⟩ := by
  rcases oneMore.assets with ⟨first, last, moreAssets, lessAssets⟩
  rcases List.mem_map.mp member with ⟨asset, assetMem, rfl⟩
  rw [moreAssets] at assetMem
  rcases List.mem_append.mp assetMem with inFirst | later
  · exact absurd key (oneMore.assetId_ne_of_mem (lessAssets ▸ List.mem_append_left _ inFirst))
  · rcases List.mem_cons.mp later with rfl | inLast
    · rfl
    · exact absurd key (oneMore.assetId_ne_of_mem (lessAssets ▸ List.mem_append_right _ inLast))

/-- Without its key the further asset is gone. -/
theorem OneMore.filter_entries (oneMore : OneMore token more less) :
    (uniqueAssets more).entries.filter (fun entry => entry.1 ≠ token.assetIdentifier) =
      (uniqueAssets less).entries := by
  rcases oneMore.assets with ⟨first, last, moreAssets, lessAssets⟩
  have kept : ∀ list : List PositionAsset, list ⊆ first ++ last →
      (list.map assetEntry).filter (fun entry => entry.1 ≠ token.assetIdentifier) =
        list.map assetEntry := by
    intro list subset
    apply List.filter_eq_self.mpr
    intro entry member
    rcases List.mem_map.mp member with ⟨asset, assetMem, rfl⟩
    exact decide_eq_true (oneMore.assetId_ne_of_mem (lessAssets ▸ subset assetMem))
  have dropped : (assetEntry token.asset :: last.map assetEntry).filter
        (fun entry => entry.1 ≠ token.assetIdentifier) =
      (last.map assetEntry).filter fun entry => entry.1 ≠ token.assetIdentifier :=
    List.filter_cons_of_neg fun differs => of_decide_eq_true differs rfl
  rw [uniqueAssets, OrderedMap.filter_ofWrites, uniqueAssets, moreAssets, lessAssets,
    List.map_append, List.map_cons, List.filter_append, dropped,
    kept first (List.subset_append_left _ _), kept last (List.subset_append_right _ _),
    List.map_append]

theorem OneMore.mem_values_iff (oneMore : OneMore token more less) {asset : OracleAsset} :
    asset ∈ (uniqueAssets more).values ↔
      asset = ⟨token.assetIdentifier, token.symbol⟩ ∨ asset ∈ (uniqueAssets less).values := by
  rw [OrderedMap.values, OrderedMap.values, ← oneMore.filter_entries, List.mem_map, List.mem_map]
  constructor
  · rintro ⟨entry, member, rfl⟩
    by_cases key : entry.1 = token.assetIdentifier
    · exact .inl (oneMore.asset_of_entry (OrderedMap.mem_of_mem_ofWrites member) key)
    · exact .inr ⟨entry, List.mem_filter.mpr ⟨member, decide_eq_true key⟩, rfl⟩
  · rintro (rfl | ⟨entry, member, rfl⟩)
    · refine ⟨(token.assetIdentifier, _), OrderedMap.mem_ofWrites_of_unique ?_ ?_, rfl⟩
      · rcases oneMore.assets with ⟨first, last, moreAssets, -⟩
        rw [moreAssets]
        exact List.mem_map_of_mem (List.mem_append_right _ List.mem_cons_self)
      · exact fun entry member key => oneMore.asset_of_entry member key
    · exact ⟨entry, List.mem_of_mem_filter member, rfl⟩

/-- The prices of the other assets are the same, and so is their order. -/
theorem OneMore.prices_eq (oneMore : OneMore token more less)
    (unquoted : ¬Quoted toUpperCase toLowerCase response ⟨token.assetIdentifier, token.symbol⟩) :
    prices toUpperCase toLowerCase response more =
      prices toUpperCase toLowerCase response less := by
  apply PriceMap.ext_entries
  rw [prices_entries, prices_entries, OrderedMap.values, OrderedMap.values,
    ← oneMore.filter_entries, List.filterMap_map, List.filterMap_map, List.filterMap_filter]
  apply List.filterMap_congr
  intro entry member
  split
  next => rfl
  next same =>
    have key : entry.1 = token.assetIdentifier := by simpa using same
    rw [Function.comp_apply,
      oneMore.asset_of_entry (OrderedMap.mem_of_mem_ofWrites member) key]
    rw [← isSome_quote_iff, Bool.not_eq_true, Option.isSome_eq_false_iff,
      Option.isNone_iff_eq_none] at unquoted
    exact unquoted

theorem OneMore.assetId_ne (oneMore : OneMore token more less) {asset : OracleAsset}
    (member : asset ∈ (uniqueAssets less).values) : asset.assetId ≠ token.assetIdentifier := by
  rcases List.mem_map.mp member with ⟨entry, entryMem, rfl⟩
  rw [uniqueAssets_key entryMem]
  rw [← oneMore.filter_entries] at entryMem
  exact of_decide_eq_true (List.mem_filter.mp entryMem).2

/-- The token has no price exactly if nothing it says names a quoted asset. -/
theorem OneMore.priceOf_eq_none_iff (oneMore : OneMore token more less) :
    priceOf toUpperCase (prices toUpperCase toLowerCase response more) token.asset = none ↔
      NamesNothing toUpperCase toLowerCase response less token := by
  refine (Engine.priceOf_eq_none_iff prices_keys).trans <|
    (and_congr (not_congr (exists_price_iff fun key => key = token.assetIdentifier))
      (not_congr (exists_price_iff fun key => toUpperCase key = toUpperCase token.symbol))).trans ?_
  constructor
  · rintro ⟨unquoted, unnamed⟩
    refine ⟨fun quoted => unquoted ⟨_, oneMore.mem_values_iff.mpr (.inl rfl), quoted, rfl⟩, ?_⟩
    intro other otherMem named quoted
    exact unnamed ⟨other, oneMore.mem_values_iff.mpr (.inr otherMem), quoted, named⟩
  · rintro ⟨unquoted, unnamed⟩
    constructor
    · rintro ⟨asset, member, quoted, same⟩
      rcases oneMore.mem_values_iff.mp member with rfl | other
      · exact unquoted quoted
      · exact oneMore.assetId_ne other same
    · rintro ⟨asset, member, quoted, named⟩
      rcases oneMore.mem_values_iff.mp member with rfl | other
      · exact unquoted quoted
      · exact unnamed asset other named quoted

/-! ## The wallet with and without the token -/

variable {holding : Holding} {before after : List FungibleToken}

theorem Holding.oneMore (held : 0 < token.balance)
    (foreign : Foreign token (holding.positions (before ++ after))) :
    OneMore token (holding.positions (before ++ token :: after))
      (holding.positions (before ++ after)) := by
  rcases nativeAssets_insert holding.stxBalance before after held with ⟨first, last, less, more⟩
  have assets : ∀ tokens, (holding.positions tokens).flatMap NormalizedPosition.assets =
      nativeAssets holding.stxBalance tokens ++
        (holding.others.map AdapterPosition.position).flatMap NormalizedPosition.assets :=
    fun _ => rfl
  refine ⟨⟨first, last ++ (holding.others.map AdapterPosition.position).flatMap
    NormalizedPosition.assets, ?_, ?_⟩, foreign⟩
  · rw [assets, more, List.append_assoc, List.cons_append]
  · rw [assets, less, List.append_assoc]

/-- The valued assets are those of the positions, each with its price. -/
theorem Holding.leftUnvalued_iff_assets {tokens : List FungibleToken} :
    LeftUnvalued token (holding.portfolio arithmetic toUpperCase toLowerCase response tokens) ↔
      ∀ asset ∈ (holding.positions tokens).flatMap NormalizedPosition.assets,
        asset.assetId = token.assetIdentifier →
          priceOf toUpperCase
            (prices toUpperCase toLowerCase response (holding.positions tokens)) asset = none := by
  constructor
  · intro unvalued asset member same
    rcases List.mem_flatMap.mp member with ⟨position, positionMem, assetMem⟩
    rcases List.mem_map.mp positionMem with ⟨adapter, -, rfl⟩
    apply (valueAsset_eq_none_iff (adapter.assets_none asset assetMem)).mp
    apply unvalued _ (List.mem_map_of_mem positionMem)
    · rw [valuePosition_assets]
      exact List.mem_map_of_mem assetMem
    · rw [valueAsset_assetId, same]
  · intro unpriced valued valuedMem asset member same
    rcases List.mem_map.mp valuedMem with ⟨position, positionMem, rfl⟩
    rcases List.mem_map.mp positionMem with ⟨adapter, adapterMem, rfl⟩
    rw [valuePosition_assets] at member
    rcases List.mem_map.mp member with ⟨original, originalMem, rfl⟩
    apply (valueAsset_eq_none_iff (adapter.assets_none original originalMem)).mpr
    rw [valueAsset_assetId] at same
    exact unpriced original (List.mem_flatMap.mpr ⟨_, positionMem, originalMem⟩) same

theorem Holding.leftUnvalued_iff (held : 0 < token.balance)
    (foreign : Foreign token (holding.positions (before ++ after))) :
    LeftUnvalued token (holding.portfolio arithmetic toUpperCase toLowerCase response
        (before ++ token :: after)) ↔
      NamesNothing toUpperCase toLowerCase response (holding.positions (before ++ after))
        token := by
  have oneMore := Holding.oneMore held foreign
  rw [leftUnvalued_iff_assets, ← oneMore.priceOf_eq_none_iff]
  rcases oneMore.assets with ⟨first, last, more, less⟩
  rw [more]
  constructor
  · intro unpriced
    exact unpriced token.asset (List.mem_append_right _ List.mem_cons_self) rfl
  · intro unpriced asset member same
    rcases List.mem_append.mp member with inFirst | later
    · exact absurd same (oneMore.assetId_ne_of_mem (less ▸ List.mem_append_left _ inFirst))
    · rcases List.mem_cons.mp later with rfl | inLast
      · exact unpriced
      · exact absurd same (oneMore.assetId_ne_of_mem (less ▸ List.mem_append_right _ inLast))

/-- Wallets whose prices and token values are the same have the same risk. -/
theorem Holding.sameRisk {first second : List FungibleToken}
    (same : prices toUpperCase toLowerCase response (holding.positions first) =
      prices toUpperCase toLowerCase response (holding.positions second))
    (totals : valueTotals arithmetic toUpperCase
        (prices toUpperCase toLowerCase response (holding.positions second))
        (nativeAssets holding.stxBalance first) =
      valueTotals arithmetic toUpperCase
        (prices toUpperCase toLowerCase response (holding.positions second))
        (nativeAssets holding.stxBalance second)) :
    SameRisk arithmetic toUpperCase
      (holding.portfolio arithmetic toUpperCase toLowerCase response first)
      (holding.portfolio arithmetic toUpperCase toLowerCase response second) := by
  unfold Holding.portfolio
  rw [same]
  apply sameRisk_of_riskInputs
  apply congrArg₂ List.cons
  · exact riskInputs_valuePosition totals rfl rfl rfl
  · rfl

/-- A token leaves a wallet's risk alone and is left unvalued exactly if it has no
balance or names nothing that is quoted. -/
theorem foreign_token_harmless_iff
    (foreign : Foreign token (holding.positions (before ++ after))) :
    SameRisk arithmetic toUpperCase
        (holding.portfolio arithmetic toUpperCase toLowerCase response (before ++ token :: after))
        (holding.portfolio arithmetic toUpperCase toLowerCase response (before ++ after)) ∧
      LeftUnvalued token (holding.portfolio arithmetic toUpperCase toLowerCase response
        (before ++ token :: after)) ↔
    token.balance = 0 ∨
      NamesNothing toUpperCase toLowerCase response (holding.positions (before ++ after))
        token := by
  rcases Nat.eq_zero_or_pos token.balance with empty | held
  · have sameAssets := nativeAssets_insert_zero holding.stxBalance before after empty
    have flat : (holding.positions (before ++ token :: after)).flatMap NormalizedPosition.assets =
        (holding.positions (before ++ after)).flatMap NormalizedPosition.assets :=
      congrArg (· ++ (holding.others.map AdapterPosition.position).flatMap
        NormalizedPosition.assets) sameAssets
    have samePrices : prices toUpperCase toLowerCase response
          (holding.positions (before ++ token :: after)) =
        prices toUpperCase toLowerCase response (holding.positions (before ++ after)) := by
      rw [prices, prices, uniqueAssets, uniqueAssets, flat]
    refine iff_of_true ⟨Holding.sameRisk samePrices (by rw [sameAssets]), ?_⟩ (.inl empty)
    rw [Holding.leftUnvalued_iff_assets, flat]
    intro asset member same
    rcases List.mem_flatMap.mp member with ⟨position, positionMem, assetMem⟩
    exact absurd same (foreign position positionMem asset assetMem)
  · rw [Holding.leftUnvalued_iff held foreign, or_iff_right held.ne']
    refine and_iff_right_of_imp fun unnamed => ?_
    have oneMore := Holding.oneMore held foreign
    have samePrices := oneMore.prices_eq unnamed.1
    have unpriced := oneMore.priceOf_eq_none_iff.mpr unnamed
    rcases nativeAssets_insert holding.stxBalance before after held with ⟨first, last, less, more⟩
    apply Holding.sameRisk samePrices
    rw [less, more]
    exact valueTotals_insert first last (samePrices ▸ unpriced)

/-! ## A token that calls itself STX -/

instance (token : FungibleToken) (positions : List NormalizedPosition) :
    Decidable (Foreign token positions) :=
  inferInstanceAs (Decidable (∀ position ∈ positions, ∀ asset ∈ position.assets, _))

instance (response : Option CoinGeckoResponse) (asset : OracleAsset) :
    Decidable (Quoted toUpperCase toLowerCase response asset) :=
  inferInstanceAs (Decidable (∃ body ∈ response, ∃ id ∈ resolveId _ _ asset, _))

instance (response : Option CoinGeckoResponse) (positions : List NormalizedPosition)
    (token : FungibleToken) :
    Decidable (NamesNothing toUpperCase toLowerCase response positions token) :=
  inferInstanceAs (Decidable (_ ∧ ∀ other ∈ (uniqueAssets positions).values, _ → _))

/-- What the market pays for two coins. -/
def marks : String → Option ℚ
  | "bitcoin" => some 60000
  | "blockstack" => some 2
  | _ => none

theorem marks_nonneg : ∀ id, ∀ price ∈ marks id, 0 ≤ price := by
  intro id price member
  unfold marks at member
  split at member
  · cases member
    norm_num
  · cases member
    norm_num
  · cases member

/-- A stream of one bitcoin that is locked. -/
def lockedStream : AdapterPosition where
  position :=
    { id := "bitpay:1:SP2J6ZY48GV1EZ5V2V5RB9MP66SW86PYKKNRV9EJ7"
      protocolId := "bitpay"
      type := .stream
      assets := [{
        assetId := "sBTC", symbol := "sBTC", amountAtomic := 100000000, decimals := 8,
        role := .locked }]
      liquidBps := some 0
      source := { blockHeight := 100, observedAt := 0, exact := true } }
  valueUsd_none := rfl
  collateral_none := rfl
  debtUsd_none := rfl
  liquidation_none := rfl
  valuation_none := rfl
  assets_none := by simp
  liquidBps_le := by simp

/-- A thousand STX beside the stream. -/
def streamHolder : Holding where
  address := "SP2J6ZY48GV1EZ5V2V5RB9MP66SW86PYKKNRV9EJ7"
  blockHeight := 100
  observedAt := 0
  stxBalance := 1000000000
  others := [lockedStream]

/-- A million units of a stranger's token. -/
def airdrop (symbol : String) : FungibleToken where
  assetIdentifier := "SP3FBR2AGK5H9QBDH3EEN6DF8EK8JY7RX8QJ5SVTE.gift::gift"
  balance := 1000000000000
  symbol := symbol
  decimals := 6
  exact := true

/-- The token is counted as two million dollars of liquid STX. -/
theorem airdrop_lowers_risk :
    let portfolio :=
      streamHolder.portfolio .decimalJs String.toUpper String.toLower (some ⟨marks, marks_nonneg⟩)
    let risk := fun tokens =>
      calculatePortfolioRisk .decimalJs String.toUpper (portfolio tokens).positions
    Foreign (airdrop "STX") (streamHolder.positions []) ∧
      (portfolio []).totalValueUsd = 62000 ∧
      (portfolio [airdrop "STX"]).totalValueUsd = 2062000 ∧
      (risk []).protocolConcentrationBps = 9677 ∧
      (risk [airdrop "STX"]).protocolConcentrationBps = 291 ∧
      (risk []).capitalAccessibilityBps = 323 ∧
      (risk [airdrop "STX"]).capitalAccessibilityBps = 9709 ∧
      (risk []).riskScoreBps = 5774 ∧ (risk [airdrop "STX"]).riskScoreBps = 87 ∧
      ¬SameRisk .decimalJs String.toUpper (portfolio [airdrop "STX"]) (portfolio []) := by
  intro portfolio risk
  have without : (portfolio []).totalValueUsd = 62000 := by decide +kernel
  have withAirdrop : (portfolio [airdrop "STX"]).totalValueUsd = 2062000 := by decide +kernel
  refine ⟨?_, without, withAirdrop, ?_, ?_, ?_, ?_, ?_, ?_, ?_⟩
  · decide +kernel
  · decide +kernel
  · decide +kernel
  · decide +kernel
  · decide +kernel
  · decide +kernel
  · decide +kernel
  · intro same
    have totals := same.totalValueUsd
    rw [without, withAirdrop] at totals
    norm_num at totals

/-- A symbol that names nothing. -/
theorem foreign_token_harmless_iff_gift :
    let portfolio :=
      streamHolder.portfolio .decimalJs String.toUpper String.toLower (some ⟨marks, marks_nonneg⟩)
    SameRisk .decimalJs String.toUpper (portfolio [airdrop "GIFT"]) (portfolio []) ∧
      LeftUnvalued (airdrop "GIFT") (portfolio [airdrop "GIFT"]) := by
  intro portfolio
  have foreign : Foreign (airdrop "GIFT") (streamHolder.positions ([] ++ [])) := by
    decide +kernel
  apply (foreign_token_harmless_iff foreign).mpr
  apply Or.inr
  decide +kernel

end RiskRail.Indexer
