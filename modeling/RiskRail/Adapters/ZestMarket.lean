import RiskRail.Adapters.ZestAdapter
import RiskRail.Relational.Traverse

/-!
# What the lending market holds

A market keeps loans in natural numbers.  Where the contracts answer for it, the reader and the
adapter compute what the market holds, entry by entry, and they throw exactly where an entry
cannot be read.
-/

namespace RiskRail.Adapters.Zest

open RiskRail.Javascript Text RiskRail.Stacks RiskRail.Engine RiskRail.Relational

/-! ## Values without a field of the name `type` -/

mutual

/-- No tuple in the value has a field that would be taken for a type. -/
def Bare : ClarityValue → Prop
  | .tuple fields => BareFields fields
  | .list items => BareItems items
  | .some value | .ok value | .err value => Bare value
  | .uint _ | .int _ | .bool _ | .buff _ | .stringAscii _ | .stringUtf8 _ | .principal _ | .none =>
      True

/-- Each of the items is bare. -/
def BareItems : List ClarityValue → Prop
  | [] => True
  | item :: items => Bare item ∧ BareItems items

/-- The fields are bare, and none is called `type`. -/
def BareFields : List (FieldName × ClarityValue) → Prop
  | [] => True
  | (name, value) :: fields => name.text ≠ ofString "type" ∧ Bare value ∧ BareFields fields

end

theorem untyped_of_bareFields :
    ∀ {fields : List (FieldName × ClarityValue)}, BareFields fields → Untyped fields
  | [], _ => by simp [Untyped]
  | (name, value) :: fields, bare => by
      rw [BareFields] at bare
      have rest := untyped_of_bareFields bare.2.2
      simp only [Untyped, List.forall_mem_cons] at rest ⊢
      exact ⟨bare.1, rest⟩

theorem untyped_plainFields {fields : List (FieldName × ClarityValue)} (untyped : Untyped fields)
    (type : Text) : property (ofString "type") (plainFields fields) ≠ some (.string type) := by
  have missing : field "type" fields = none := by
    unfold field
    rw [Option.map_eq_none_iff, List.find?_eq_none]
    exact fun entry member => by simpa using untyped entry member
  rw [property_plainFields, missing]
  nofun

mutual

/-- The payload of such a value holds nothing more to unwrap. -/
theorem unwrapClarity_plain : ∀ value, Bare value → unwrapClarity (plain value) = plain value
  | .uint _, _ | .int _, _ | .buff _, _ | .stringAscii _, _ | .stringUtf8 _, _ | .principal _, _ =>
      by rw [plain, unwrapClarity_string]
  | .bool _, _ => by rw [plain, unwrapClarity_bool]
  | .none, _ => by rw [plain, unwrapClarity_null]
  | .some value, bare | .ok value, bare | .err value, bare => by
      rw [Bare] at bare
      rw [plain, unwrapClarity_plain value bare]
  | .list items, bare => by
      rw [Bare] at bare
      rw [plain, unwrapClarity, unwrapItems_plainItems items bare]
  | .tuple fields, bare => by
      rw [Bare] at bare
      have untyped := untyped_plainFields (untyped_of_bareFields bare)
      rw [plain, unwrapClarity_untyped untyped, unwrapFields_plainFields fields bare,
        ownFields_plainFields]

theorem unwrapItems_plainItems :
    ∀ items, BareItems items → unwrapItems (plainItems items) = plainItems items
  | [], _ => rfl
  | item :: items, bare => by
      rw [BareItems] at bare
      rw [plainItems, unwrapItems, unwrapClarity_plain item bare.1,
        unwrapItems_plainItems items bare.2]

theorem unwrapFields_plainFields :
    ∀ fields, BareFields fields → unwrapFields (plainFields fields) = plainFields fields
  | [], _ => rfl
  | (name, value) :: fields, bare => by
      rw [BareFields] at bare
      rw [plainFields, unwrapFields, unwrapClarity_plain value bare.2.1,
        unwrapFields_plainFields fields bare.2.2]

end

theorem plainItems_eq (items : List ClarityValue) : plainItems items = items.map plain := by
  induction items with
  | nil => rfl
  | cons item items ih => rw [plainItems, ih, List.map_cons]

/-! ## What is read of a value -/

section Values

variable {fields : List (FieldName × ClarityValue)} {items : List ClarityValue}

theorem asRecord_tuple (bare : Bare (.tuple fields)) :
    asRecord (plain (.tuple fields)) = some (plainFields fields) := by
  rw [asRecord, unwrapClarity_plain _ bare, plain]

theorem get_plainFields (key : String) :
    get key (plainFields fields) = (field key fields).map plain :=
  property_plainFields key fields

theorem asList_list (bare : Bare (.list items)) :
    asList (plain (.list items)) = items.map plain := by
  rw [asList, unwrapClarity_plain _ bare, plain, plainItems_eq]

theorem asUintString_uint (n : ℕ) : asUintString (plain (.uint n)) = some (digits n) := by
  rw [asUintString, unwrapClarity_uint, plain, uintText]
  exact congrArg some (dropPrefix_digits n)

theorem asString_principal (address : Text) :
    asString (plain (.principal address)) = some address := by
  rw [asString, plain, unwrapClarity_string]

/-- An integer that a number does not hold exactly is refused. -/
theorem asNumber_uint (n : ℕ) :
    asNumber (plain (.uint n)) = if n < 2 ^ 53 then some (n : ℤ) else none := by
  rw [asNumber, asUintString_uint, Option.bind_some, number_digits, Option.bind_some]
  rcases lt_or_ge n (2 ^ 53) with safe | large
  · rw [Numeric.toDouble_of_safe safe, if_pos (isSafeInteger_of_safe safe), if_pos safe,
      Int.floor_natCast]
  · rw [isSafeInteger_toDouble_of_large large, if_neg (not_lt.mpr large)]
    rfl

theorem uintCV_natCast (n : ℕ) : uintCV n = if n ≤ maxU128 then some (.uint n) else none := by
  unfold uintCV
  by_cases small : n ≤ maxU128
  · rw [if_pos ⟨n.cast_nonneg, by exact_mod_cast small⟩, if_pos small, Int.toNat_natCast]
  · rw [if_neg fun both => small (by exact_mod_cast both.2), if_neg small]

end Values

/-! ## The market -/

/-- What the registry of assets says of one. -/
structure Listing where
  contractId : Text
  decimals : ℕ

/-- Asset ids with amounts of shares, and with scaled amounts of debt. -/
structure Loan where
  id : ℕ
  mask : ℕ
  collateral : List (ℕ × ℕ)
  debt : List (ℕ × ℕ)

/-- The loans, assets, risk groups and vaults of a market. -/
structure Market where
  loan : (address : Text) → Option Loan
  listing : (assetId : ℕ) → Option Listing
  group : (mask : ℕ) → ClarityValue
  assetsOf : (vault : Text) → (shares : ℕ) → ℕ
  index : (vault : Text) → ℕ

/-- The asset that a debt or a vault token stands for. -/
def underlyingId (assetId : ℕ) : ℤ :=
  ((known assetId).map KnownAsset.underlyingId).getD assetId

/-- The asset is a share of a vault. -/
def isZToken (assetId : ℕ) : Bool :=
  ((known assetId).map KnownAsset.zToken).getD false

/-- A scaled debt at an index, rounded up. -/
def owedUnits (scaled index : ℕ) : ℕ :=
  (scaled * index + 10 ^ 12 - 1) / 10 ^ 12

section

variable (market : Market) (contracts : Contracts)

/-- The asset as the reader should describe it. -/
def Market.info (assetId : ℕ) : Option AssetInfo :=
  if assetId ≤ maxU128 then
    (market.listing assetId).bind fun listing =>
      if listing.decimals < 2 ^ 53 then
        some
          { id := assetId
            contractId := listing.contractId
            decimals := listing.decimals
            symbol := ((known assetId).map KnownAsset.symbol).getD
              (ofString "ZEST-" ++ digits assetId)
            underlyingId := underlyingId assetId
            zToken := isZToken assetId }
      else none
  else none

/-- What shares of a vault are worth; another collateral is worth itself. -/
def Market.worth (assetId amount : ℕ) : Option ℕ :=
  if isZToken assetId then
    (contracts.vault (underlyingId assetId)).bind fun vault =>
      if amount ≤ maxU128 then some (market.assetsOf vault amount) else none
  else some amount

/-- What is owed by now, in whole units. -/
def Market.owed (assetId scaled : ℕ) : Option ℕ :=
  (contracts.vault (underlyingId assetId)).map fun vault =>
    owedUnits scaled (market.index vault)

end

/-! ## Contracts that answer for a market -/

section

variable (parameters : ClarityValue → Text) (market : Market) (contracts : Contracts)
  (callReadOnly : Call → Option Json)

/-- The contract answers with the value, which may be in a response. -/
def Answers (call : Call) (value : ClarityValue) : Prop :=
  callReadOnly call = some (cvToJSON parameters value) ∨
    callReadOnly call = some (cvToJSON parameters (.ok value))

/-- The contract answers with an error. -/
def Refuses (call : Call) : Prop :=
  ∃ reason, callReadOnly call = some (cvToJSON parameters (.err reason))

/-- A tuple with an asset id and an amount. -/
def EntryOf (amount : String) (value : ClarityValue) (entry : ℕ × ℕ) : Prop :=
  ∃ fields, value = .tuple fields ∧ Bare value ∧ field "aid" fields = some (.uint entry.1) ∧
    field amount fields = some (.uint entry.2)

/-- The value is a tuple that tells the loan. -/
def LoanOf (value : ClarityValue) (loan : Loan) : Prop :=
  ∃ fields collateral debt, value = .tuple fields ∧ Bare value ∧
    field "id" fields = some (.uint loan.id) ∧ field "mask" fields = some (.uint loan.mask) ∧
    field "collateral" fields = some (.list collateral) ∧
    field "debt" fields = some (.list debt) ∧
    List.Forall₂ (EntryOf "amount") collateral loan.collateral ∧
    List.Forall₂ (EntryOf "scaled") debt loan.debt

/-- The value is a tuple that tells the listing. -/
def ListingOf (value : ClarityValue) (listing : Listing) : Prop :=
  ∃ fields, value = .tuple fields ∧ Bare value ∧
    field "addr" fields = some (.principal listing.contractId) ∧
    field "decimals" fields = some (.uint listing.decimals)

/-- Read-only calls tell the market: refusals where there is nothing, else the values. -/
structure Serves : Prop where
  noLoan : ∀ address, market.loan address = none →
    Refuses parameters callReadOnly
      ⟨contracts.marketVault, "get-position", [.principal address, .uint maxU128], some address⟩
  loan : ∀ address, ∀ loan ∈ market.loan address, ∃ value, LoanOf value loan ∧
    Answers parameters callReadOnly
      ⟨contracts.marketVault, "get-position", [.principal address, .uint maxU128], some address⟩
      value
  group : ∀ mask sender, callReadOnly ⟨contracts.egroup, "resolve", [.uint mask], some sender⟩ =
    some (cvToJSON parameters (market.group mask))
  unlisted : ∀ assetId, market.listing assetId = none →
    Refuses parameters callReadOnly ⟨contracts.assets, "lookup", [.uint assetId], none⟩
  listed : ∀ assetId, ∀ listing ∈ market.listing assetId, ∃ value, ListingOf value listing ∧
    Answers parameters callReadOnly ⟨contracts.assets, "lookup", [.uint assetId], none⟩ value
  assetsOf : ∀ vault shares, Answers parameters callReadOnly
    ⟨vault, "convert-to-assets", [.uint shares], none⟩ (.uint (market.assetsOf vault shares))
  index : ∀ vault, Answers parameters callReadOnly ⟨vault, "get-next-index", [], none⟩
    (.uint (market.index vault))

end

section

variable {parameters : ClarityValue → Text} {market : Market} {contracts : Contracts}
  {callReadOnly : Call → Option Json} {call : Call} {value : ClarityValue}

theorem Answers.unwrap (answers : Answers parameters callReadOnly call value)
    (success : value.isErr = false) :
    ∃ raw, callReadOnly call = some raw ∧
      unwrapClarityResponse raw = { ok := true, value := some (plain value) } := by
  rcases answers with answered | answered
  · refine ⟨_, answered, ?_⟩
    rw [unwrapClarityResponse_cvToJSON, success]
    rfl
  · refine ⟨_, answered, ?_⟩
    rw [unwrapClarityResponse_cvToJSON, plain]
    rfl

theorem Refuses.unwrap (refuses : Refuses parameters callReadOnly call) :
    ∃ raw payload, callReadOnly call = some raw ∧
      unwrapClarityResponse raw = { ok := false, value := payload } := by
  obtain ⟨reason, refused⟩ := refuses
  exact ⟨_, _, refused, unwrapClarityResponse_cvToJSON _⟩

/-! ### What is read -/

theorem Serves.getAsset (serves : Serves parameters market contracts callReadOnly)
    (assetId : ℕ) : getAsset callReadOnly contracts assetId = market.info assetId := by
  unfold Zest.getAsset Market.info
  rw [uintCV_natCast]
  by_cases small : assetId ≤ maxU128
  · rw [if_pos small, if_pos small]
    cases listed : market.listing assetId with
    | none =>
        obtain ⟨raw, payload, answered, response⟩ := (serves.unlisted assetId listed).unwrap
        simp [answered, response]
    | some listing =>
        obtain ⟨value, ⟨fields, rfl, bare, addr, decimals⟩, answers⟩ :=
          serves.listed assetId listing listed
        obtain ⟨raw, answered, response⟩ := answers.unwrap rfl
        simp only [Option.bind_eq_bind, Option.bind_some, answered, response,
          asRecord_tuple bare, get_plainFields, addr, decimals, Option.map_some,
          asString_principal, asNumber_uint, bigIntText_natCast, Bool.not_true, Bool.false_eq_true,
          if_false]
        split
        · rfl
        · rfl
  · rw [if_neg small, if_neg small]
    rfl

theorem Serves.convertSharesToUnderlying
    (serves : Serves parameters market contracts callReadOnly) (assetId amount : ℕ) :
    convertSharesToUnderlying callReadOnly contracts assetId (digits amount) =
      (market.worth contracts assetId amount).map digits := by
  unfold Zest.convertSharesToUnderlying Market.worth isZToken underlyingId
  cases known (assetId : ℤ) with
  | none => rfl
  | some asset =>
      simp only [Option.map_some, Option.getD_some]
      cases asset.zToken with
      | false => rfl
      | true =>
          rw [if_neg (by decide), if_pos rfl]
          cases contracts.vault asset.underlyingId with
          | none => rfl
          | some vault =>
              obtain ⟨raw, answered, response⟩ := (serves.assetsOf vault amount).unwrap rfl
              simp only [Option.bind_eq_bind, Option.bind_some, bigInt_digits, uintCV_natCast]
              split
              · simp only [Option.bind_some, answered, response, Bool.not_true,
                  Bool.false_eq_true, if_false, asUintString_uint, Option.map_some]
              · simp only [Option.bind_none, Option.map_none]

theorem normalizedDebt_natCast (scaled index : ℕ) :
    normalizedDebt scaled index = owedUnits scaled index := by
  have unit : (scaled : ℤ) * index + indexPrecision - 1 = (scaled * index + 10 ^ 12 - 1 : ℕ) := by
    rw [indexPrecision]
    push_cast
    omega
  rw [normalizedDebt, unit, indexPrecision]
  rfl

theorem Serves.getActualDebt (serves : Serves parameters market contracts callReadOnly)
    (assetId scaled : ℕ) :
    getActualDebt callReadOnly contracts assetId (digits scaled) =
      (market.owed contracts assetId scaled).map digits := by
  unfold Zest.getActualDebt Market.owed
  rw [← underlyingId]
  cases found : contracts.vault (underlyingId assetId) with
  | none => simp [found]
  | some vault =>
      obtain ⟨raw, answered, response⟩ := (serves.index vault).unwrap rfl
      simp [found, answered, response, asUintString_uint, bigInt_digits, normalizedDebt_natCast,
        bigIntText_natCast]

/-- What is owed is rounded up by less than one unit. -/
theorem owedUnits_bounds (scaled index : ℕ) :
    scaled * index ≤ owedUnits scaled index * 10 ^ 12 ∧
      owedUnits scaled index * 10 ^ 12 < scaled * index + 10 ^ 12 := by
  have above := Nat.lt_div_mul_add (a := scaled * index + 10 ^ 12 - 1) (b := 10 ^ 12) (by decide)
  have below := Nat.div_mul_le_self (scaled * index + 10 ^ 12 - 1) (10 ^ 12)
  unfold owedUnits
  omega

/-! ### The position -/

theorem bare_of_forall₂ {amount : String} {items : List ClarityValue} {entries : List (ℕ × ℕ)}
    (entriesOf : List.Forall₂ (EntryOf amount) items entries) : Bare (.list items) := by
  rw [Bare]
  induction entriesOf with
  | nil => trivial
  | cons entryOf _ ih =>
      obtain ⟨fields, -, bare, -⟩ := entryOf
      exact ⟨bare, ih⟩

theorem readCollateral_of_entry {entry : ℕ × ℕ} (entryOf : EntryOf "amount" value entry) :
    readCollateral (plain value) =
      if entry.1 < 2 ^ 53 then some ⟨entry.1, digits entry.2⟩ else none := by
  obtain ⟨fields, rfl, bare, aid, amount⟩ := entryOf
  simp only [readCollateral, Option.bind_eq_bind, asRecord_tuple bare, Option.bind_some,
    get_plainFields, aid, amount, Option.map_some, asNumber_uint, asUintString_uint]
  split
  · rfl
  · rfl

theorem readDebt_of_entry {entry : ℕ × ℕ} (entryOf : EntryOf "scaled" value entry) :
    readDebt (plain value) =
      if entry.1 < 2 ^ 53 then some ⟨entry.1, digits entry.2⟩ else none := by
  obtain ⟨fields, rfl, bare, aid, amount⟩ := entryOf
  simp only [readDebt, Option.bind_eq_bind, asRecord_tuple bare, Option.bind_some,
    get_plainFields, aid, amount, Option.map_some, asNumber_uint, asUintString_uint]
  split
  · rfl
  · rfl

/-- The loan as the reader has it. -/
def readLoan (loan : Loan) (riskGroup : ZestRiskGroup) : PositionState :=
  { id := loan.id
    mask := digits loan.mask
    collateral := loan.collateral.map fun entry => ⟨entry.1, digits entry.2⟩
    debt := loan.debt.map fun entry => ⟨entry.1, digits entry.2⟩
    riskGroup }

/-- Every id is a number that is held exactly. -/
def SafeIds (entries : List (ℕ × ℕ)) : Prop :=
  ∀ entry ∈ entries, entry.1 < 2 ^ 53

theorem Serves.readRiskGroup (serves : Serves parameters market contracts callReadOnly)
    (mask : ℕ) (sender : Text) :
    readRiskGroup callReadOnly contracts (digits mask) sender =
      if mask ≤ maxU128 then
        getRiskGroup (digits mask) (cvToJSON parameters (market.group mask))
      else none := by
  simp only [Zest.readRiskGroup, Option.bind_eq_bind, bigInt_digits, Option.bind_some,
    uintCV_natCast]
  split
  · rw [Option.bind_some, serves.group, Option.bind_some]
  · rfl

theorem Serves.getPosition_of_none (serves : Serves parameters market contracts callReadOnly)
    {address : Text} (unknown : market.loan address = none) :
    getPosition callReadOnly contracts address = some none := by
  obtain ⟨raw, payload, answered, response⟩ := (serves.noLoan address unknown).unwrap
  simp [getPosition, answered, response]

/-- A loan is read as it is, or not at all. -/
theorem Serves.getPosition_eq_some_iff (serves : Serves parameters market contracts callReadOnly)
    {address : Text} {loan : Loan} (found : market.loan address = some loan)
    {read : Option PositionState} :
    getPosition callReadOnly contracts address = some read ↔
      loan.id < 2 ^ 53 ∧ loan.mask ≤ maxU128 ∧ SafeIds loan.collateral ∧ SafeIds loan.debt ∧
        ∃ group, getRiskGroup (digits loan.mask)
          (cvToJSON parameters (market.group loan.mask)) = some group ∧
            read = some (readLoan loan group) := by
  obtain ⟨value, ⟨fields, collateral, debt, rfl, bare, id_eq, mask_eq, collateral_eq, debt_eq,
    collateralOf, debtOf⟩, answers⟩ := serves.loan address loan found
  have bareCollateral := bare_of_forall₂ collateralOf
  have bareDebt := bare_of_forall₂ debtOf
  obtain ⟨raw, answered, response⟩ := answers.unwrap rfl
  have collateralRead : (collateral.map plain).mapM readCollateral =
      loan.collateral.mapM fun entry =>
        if entry.1 < 2 ^ 53 then some (CollateralEntry.mk entry.1 (digits entry.2)) else none :=
    mapM_eq_mapM (List.forall₂_map_left_iff.mpr
      (collateralOf.imp fun _ _ entryOf => readCollateral_of_entry entryOf))
  have debtRead : (debt.map plain).mapM readDebt = loan.debt.mapM fun entry =>
      if entry.1 < 2 ^ 53 then some (DebtEntry.mk entry.1 (digits entry.2)) else none :=
    mapM_eq_mapM (List.forall₂_map_left_iff.mpr
      (debtOf.imp fun _ _ entryOf => readDebt_of_entry entryOf))
  simp only [getPosition, Option.bind_eq_bind, answered, response, Option.bind_some,
    Bool.not_true, Bool.false_eq_true, if_false, asRecord_tuple bare, get_plainFields, id_eq,
    mask_eq, collateral_eq, debt_eq, Option.map_some, Option.getD_some, asUintString_uint,
    asNumber_uint, serves.readRiskGroup, asList_list bareCollateral, asList_list bareDebt,
    collateralRead, debtRead, Option.bind_eq_some_iff, Option.ite_none_right_eq_some,
    Option.some_inj, Option.pure_def, mapM_check_eq_some_iff]
  constructor
  · rintro ⟨group, ⟨fits, grouped⟩, _, ⟨safe, rfl⟩, _, ⟨first, rfl⟩, _, ⟨second, rfl⟩, rfl⟩
    exact ⟨safe, fits, first, second, group, grouped, rfl⟩
  · rintro ⟨safe, fits, first, second, group, grouped, rfl⟩
    exact ⟨group, ⟨fits, grouped⟩, _, ⟨safe, rfl⟩, _, ⟨first, rfl⟩, _, ⟨second, rfl⟩, rfl⟩

/-! ### The assets -/

theorem known_spec : ∀ entry ∈ knownAssets,
    0 ≤ entry.2.underlyingId ∧ (entry.2.zToken = false → entry.2.underlyingId = entry.1) := by
  simp [knownAssets, symbols]

theorem mem_of_known {assetId : ℤ} {asset : KnownAsset} (found : known assetId = some asset) :
    (assetId, asset) ∈ knownAssets := by
  obtain ⟨before, after, split, -⟩ := List.lookup_eq_some_iff.mp found
  rw [split]
  exact List.mem_append_right _ List.mem_cons_self

theorem underlyingId_nonneg (assetId : ℕ) : 0 ≤ underlyingId assetId := by
  unfold underlyingId
  cases found : known (assetId : ℤ) with
  | none => exact assetId.cast_nonneg
  | some asset => exact (known_spec _ (mem_of_known found)).1

theorem underlyingId_of_not_zToken {assetId : ℕ} (plain : isZToken assetId = false) :
    underlyingId assetId = assetId := by
  unfold isZToken at plain
  unfold underlyingId
  cases found : known (assetId : ℤ) with
  | none => rfl
  | some asset =>
      rw [found] at plain
      exact (known_spec _ (mem_of_known found)).2 plain

theorem Market.info_eq_some {assetId : ℕ} {info : AssetInfo}
    (found : market.info assetId = some info) :
    info.underlyingId = underlyingId assetId ∧ info.zToken = isZToken assetId := by
  unfold Market.info at found
  rw [Option.ite_none_right_eq_some, Option.bind_eq_some_iff] at found
  obtain ⟨-, listing, -, found⟩ := found
  rw [Option.ite_none_right_eq_some] at found
  obtain ⟨-, same⟩ := found
  cases same
  exact ⟨rfl, rfl⟩

/-- A token of a vault and what it is a share of are the same asset. -/
theorem Serves.underlying (serves : Serves parameters market contracts callReadOnly)
    {assetId : ℕ} {info : AssetInfo} (found : market.info assetId = some info) :
    underlying callReadOnly contracts info = market.info (underlyingId assetId).toNat := by
  obtain ⟨underlying_eq, zToken_eq⟩ := Market.info_eq_some found
  unfold Zest.underlying
  split
  next =>
    have named : info.underlyingId = ((underlyingId assetId).toNat : ℕ) := by
      rw [underlying_eq, Int.toNat_of_nonneg (underlyingId_nonneg assetId)]
    rw [named, serves.getAsset]
  next plain =>
    rw [zToken_eq, Bool.not_eq_true] at plain
    rw [underlyingId_of_not_zToken plain, Int.toNat_natCast, found]

/-- What the portfolio shows for an entry of a loan. -/
def entryOf (role : AssetRole) (zToken : Option Bool) (entry : ℕ × ℕ) (normalized : ℕ)
    (info underlyingInfo : AssetInfo) : ZestAsset × ProtocolAsset :=
  ({ assetId := canonicalAssetId underlyingInfo.symbol underlyingInfo.contractId
     protocolAssetId := info.contractId
     symbol := underlyingInfo.symbol
     amountAtomic := digits normalized
     decimals := underlyingInfo.decimals
     role },
    { role
      assetId := entry.1
      protocolContract := info.contractId
      underlyingAssetId := info.underlyingId
      underlyingContract := underlyingInfo.contractId
      zToken
      amountAtomic := digits entry.2
      normalizedAmountAtomic := digits normalized })

/-- A collateral is listed, and its shares are worth the amount that is shown. -/
def Market.Collateral (market : Market) (contracts : Contracts) (entry : ℕ × ℕ)
    (shown : ZestAsset × ProtocolAsset) : Prop :=
  ∃ info underlyingInfo worth, entry.1 < 2 ^ 53 ∧ market.info entry.1 = some info ∧
    market.info (underlyingId entry.1).toNat = some underlyingInfo ∧
    market.worth contracts entry.1 entry.2 = some worth ∧
    shown = entryOf .collateral (some info.zToken) entry worth info underlyingInfo

/-- A debt is listed, and the amount that is shown covers what is owed at the index of its vault,
by less than one unit more. -/
def Market.Debt (market : Market) (contracts : Contracts) (entry : ℕ × ℕ)
    (shown : ZestAsset × ProtocolAsset) : Prop :=
  ∃ info underlyingInfo vault owed, entry.1 < 2 ^ 53 ∧ market.info entry.1 = some info ∧
    market.info (underlyingId entry.1).toNat = some underlyingInfo ∧
    contracts.vault (underlyingId entry.1) = some vault ∧
    entry.2 * market.index vault ≤ owed * 10 ^ 12 ∧
    owed * 10 ^ 12 < entry.2 * market.index vault + 10 ^ 12 ∧
    shown = entryOf .debt none entry owed info underlyingInfo

theorem Serves.collateralAsset_eq_some_iff
    (serves : Serves parameters market contracts callReadOnly) {entry : ℕ × ℕ}
    {shown : ZestAsset × ProtocolAsset} :
    (entry.1 < 2 ^ 53 ∧
      collateralAsset callReadOnly contracts ⟨entry.1, digits entry.2⟩ = some shown) ↔
      market.Collateral contracts entry shown := by
  simp only [collateralAsset, Option.bind_eq_bind, serves.getAsset,
    serves.convertSharesToUnderlying, Option.bind_eq_some_iff, Option.map_eq_some_iff,
    Option.pure_def, Option.some_inj, Market.Collateral]
  constructor
  · rintro ⟨safe, info, found, _, ⟨worth, worth_eq, rfl⟩, underlyingInfo, stands, rfl⟩
    rw [serves.underlying found] at stands
    exact ⟨info, underlyingInfo, worth, safe, found, stands, worth_eq, rfl⟩
  · rintro ⟨info, underlyingInfo, worth, safe, found, stands, worth_eq, rfl⟩
    rw [← serves.underlying found] at stands
    exact ⟨safe, info, found, _, ⟨worth, worth_eq, rfl⟩, underlyingInfo, stands, rfl⟩

/-- Only one whole number of units covers a debt so closely. -/
theorem owedUnits_unique {scaled index owed : ℕ} (covered : scaled * index ≤ owed * 10 ^ 12)
    (close : owed * 10 ^ 12 < scaled * index + 10 ^ 12) : owedUnits scaled index = owed := by
  have bounds := owedUnits_bounds scaled index
  omega

theorem Serves.debtAsset_eq_some_iff (serves : Serves parameters market contracts callReadOnly)
    {entry : ℕ × ℕ} {shown : ZestAsset × ProtocolAsset} :
    (entry.1 < 2 ^ 53 ∧
      debtAsset callReadOnly contracts ⟨entry.1, digits entry.2⟩ = some shown) ↔
      market.Debt contracts entry shown := by
  simp only [debtAsset, Option.bind_eq_bind, serves.getAsset, serves.getActualDebt, Market.owed,
    Option.bind_eq_some_iff, Option.map_eq_some_iff, Option.pure_def, Option.some_inj,
    Market.Debt]
  constructor
  · rintro ⟨safe, info, found, _, ⟨_, ⟨vault, stored, rfl⟩, rfl⟩, underlyingInfo, stands, rfl⟩
    rw [serves.underlying found] at stands
    obtain ⟨covered, close⟩ := owedUnits_bounds entry.2 (market.index vault)
    exact ⟨info, underlyingInfo, vault, _, safe, found, stands, stored, covered, close, rfl⟩
  · rintro ⟨info, underlyingInfo, vault, owed, safe, found, stands, stored, covered, close, rfl⟩
    rw [← serves.underlying found] at stands
    have owed_eq := owedUnits_unique covered close
    exact ⟨safe, info, found, _, ⟨_, ⟨vault, stored, rfl⟩, congrArg digits owed_eq⟩,
      underlyingInfo, stands, rfl⟩

/-! ### Every loan -/

/-- The adapter returns what the market holds: no position for an address without a loan, and
else each collateral and each debt of the loan, in order and none left out.  A loan that cannot
be read as a whole is not returned at all. -/
theorem positions_hold_market (serves : Serves parameters market contracts callReadOnly)
    (address : Text) (blockHeight : Option ℕ) (observedAt : ℕ) (positions : List ZestPosition) :
    getPositions callReadOnly contracts address blockHeight observedAt = some positions ↔
      match market.loan address with
      | none => positions = []
      | some loan =>
          loan.id < 2 ^ 53 ∧ loan.mask ≤ maxU128 ∧ ∃ group collateral debt,
            getRiskGroup (digits loan.mask) (cvToJSON parameters (market.group loan.mask)) =
              some group ∧
            List.Forall₂ (market.Collateral contracts) loan.collateral collateral ∧
            List.Forall₂ (market.Debt contracts) loan.debt debt ∧
            positions = positionsOf contracts address (readLoan loan group) (collateral ++ debt)
              blockHeight observedAt := by
  cases found : market.loan address with
  | none => simp [getPositions, serves.getPosition_of_none found, eq_comm]
  | some loan =>
      have collaterals : ∀ shown, SafeIds loan.collateral ∧ List.Forall₂ (fun (entry : ℕ × ℕ) one =>
          collateralAsset callReadOnly contracts ⟨entry.1, digits entry.2⟩ = some one)
            loan.collateral shown ↔
              List.Forall₂ (market.Collateral contracts) loan.collateral shown := by
        intro shown
        rw [SafeIds, ← List.forall₂_and_left]
        simp only [serves.collateralAsset_eq_some_iff]
      have debts : ∀ shown, SafeIds loan.debt ∧ List.Forall₂ (fun (entry : ℕ × ℕ) one =>
          debtAsset callReadOnly contracts ⟨entry.1, digits entry.2⟩ = some one) loan.debt shown ↔
            List.Forall₂ (market.Debt contracts) loan.debt shown := by
        intro shown
        rw [SafeIds, ← List.forall₂_and_left]
        simp only [serves.debtAsset_eq_some_iff]
      simp only [getPositions, Option.bind_eq_bind, Option.bind_eq_some_iff,
        serves.getPosition_eq_some_iff found]
      constructor
      · rintro ⟨_, ⟨safe, fits, safeCollateral, safeDebt, group, grouped, rfl⟩, read⟩
        simp only [readLoan, Option.bind_eq_some_iff, mapM_eq_some_iff, Option.pure_def,
          Option.some_inj, List.forall₂_map_left_iff] at read
        obtain ⟨collateral, first, debt, second, rfl⟩ := read
        exact ⟨safe, fits, group, collateral, debt, grouped,
          (collaterals _).mp ⟨safeCollateral, first⟩, (debts _).mp ⟨safeDebt, second⟩, rfl⟩
      · rintro ⟨safe, fits, group, collateral, debt, grouped, first, second, rfl⟩
        obtain ⟨safeCollateral, first⟩ := (collaterals _).mpr first
        obtain ⟨safeDebt, second⟩ := (debts _).mpr second
        refine ⟨_, ⟨safe, fits, safeCollateral, safeDebt, group, grouped, rfl⟩, ?_⟩
        simp only [readLoan, Option.bind_eq_some_iff, mapM_eq_some_iff, Option.pure_def,
          Option.some_inj, List.forall₂_map_left_iff]
        exact ⟨collateral, first, debt, second, rfl⟩

end

/-! ## Contracts of a market -/

section

variable (parameters : ClarityValue → Text) (market : Market)

/-- An entry of a loan. -/
def entryTuple (amount : FieldName) (entry : ℕ × ℕ) : ClarityValue :=
  .tuple [(⟨ofString "aid", by decide⟩, .uint entry.1), (amount, .uint entry.2)]

/-- A loan as the vault returns it. -/
def loanTuple (loan : Loan) : ClarityValue :=
  .tuple
    [(⟨ofString "id", by decide⟩, .uint loan.id),
      (⟨ofString "mask", by decide⟩, .uint loan.mask),
      (⟨ofString "collateral", by decide⟩,
        .list (loan.collateral.map (entryTuple ⟨ofString "amount", by decide⟩))),
      (⟨ofString "debt", by decide⟩,
        .list (loan.debt.map (entryTuple ⟨ofString "scaled", by decide⟩)))]

/-- A listing as the registry of assets returns it. -/
def listingTuple (listing : Listing) : ClarityValue :=
  .tuple
    [(⟨ofString "addr", by decide⟩, .principal listing.contractId),
      (⟨ofString "decimals", by decide⟩, .uint listing.decimals)]

/-- The functions of the market's contracts, each by its name. -/
def Market.answer (call : Call) : Option Json :=
  match call.function, call.args with
  | "get-position", [.principal address, _] =>
      match market.loan address with
      | none => some (cvToJSON parameters (.err (.uint 600004)))
      | some loan => some (cvToJSON parameters (.ok (loanTuple loan)))
  | "resolve", [.uint mask] => some (cvToJSON parameters (market.group mask))
  | "lookup", [.uint assetId] =>
      match market.listing assetId with
      | none => some (cvToJSON parameters (.err (.uint 700001)))
      | some listing => some (cvToJSON parameters (.ok (listingTuple listing)))
  | "convert-to-assets", [.uint shares] =>
      some (cvToJSON parameters (.ok (.uint (market.assetsOf call.contract shares))))
  | "get-next-index", [] =>
      some (cvToJSON parameters (.uint (market.index call.contract)))
  | _, _ => none

variable {parameters market} {contracts : Contracts}

theorem bareItems_entryTuple (amount : FieldName) (typed : amount.text ≠ ofString "type")
    (entries : List (ℕ × ℕ)) : BareItems (entries.map (entryTuple amount)) := by
  induction entries with
  | nil => trivial
  | cons entry entries ih =>
      exact ⟨⟨by decide, trivial, typed, trivial, trivial⟩, ih⟩

theorem loanOf_loanTuple (loan : Loan) : LoanOf (loanTuple loan) loan := by
  refine ⟨_, _, _, rfl, ?_, rfl, rfl, rfl, rfl, ?_, ?_⟩
  · exact ⟨by decide, trivial, by decide, trivial,
      by decide, bareItems_entryTuple _ (by decide) _,
      by decide, bareItems_entryTuple _ (by decide) _, trivial⟩
  · rw [List.forall₂_map_left_iff, List.forall₂_same]
    intro entry _
    exact ⟨_, rfl, ⟨by decide, trivial, by decide, trivial, trivial⟩, rfl, rfl⟩
  · rw [List.forall₂_map_left_iff, List.forall₂_same]
    intro entry _
    exact ⟨_, rfl, ⟨by decide, trivial, by decide, trivial, trivial⟩, rfl, rfl⟩

/-- They serve the market. -/
theorem serves_answer :
    Serves parameters market contracts (market.answer parameters) where
  noLoan address unknown := ⟨.uint 600004, by simp [Market.answer, unknown]⟩
  loan address loan found := by
    rw [Option.mem_def] at found
    exact ⟨_, loanOf_loanTuple loan, .inr (by simp [Market.answer, found])⟩
  group mask sender := rfl
  unlisted assetId unknown := ⟨.uint 700001, by simp [Market.answer, unknown]⟩
  listed assetId listing found := by
    rw [Option.mem_def] at found
    refine ⟨listingTuple listing, ⟨_, rfl, ?_, rfl, rfl⟩, .inr ?_⟩
    · exact ⟨by decide, trivial, by decide, trivial, trivial⟩
    · simp [Market.answer, found]
  assetsOf vault shares := .inr rfl
  index vault := .inl rfl

end

/-- Half of a share is worth one unit more than half of one, and interest of a ninth has
accrued. -/
def smallMarket : Market :=
  { loan := fun address =>
      if address = ofString "SP1" then some ⟨7, 5, [(3, 1000)], [(6, 900)]⟩ else none
    listing := fun assetId => some ⟨ofString "SP2.token-" ++ digits assetId, 8⟩
    group := fun _ => .err (.uint 1)
    assetsOf := fun _ shares => shares + shares / 2
    index := fun _ => 1111111111111 }

/-- Contracts with a vault for sBTC and one for USDC. -/
def smallContracts : Contracts :=
  { market := none
    marketVault := ofString "SP3.vault"
    assets := ofString "SP3.assets"
    egroup := ofString "SP3.egroup"
    vaults := [(2, ofString "SP3.vault-sbtc"), (6, ofString "SP3.vault-usdc")] }

/-- A thousand shares are worth half as many units more, and of nine hundred units that were
borrowed a thousand are owed. -/
theorem positions_hold_market_small :
    ∃ position, getPositions (smallMarket.answer fun _ => []) smallContracts (ofString "SP1")
        (some 100) 0 = some [position] ∧
      position.assets.map ZestAsset.assetId = [ofString "sBTC", ofString "USDC"] ∧
      position.assets.map ZestAsset.amountAtomic = [ofString "1500", ofString "1000"] := by
  have grouped : getRiskGroup (digits 5) (cvToJSON (fun _ => []) (smallMarket.group 5)) =
      some { mask := digits 5 } := by
    have response := @unwrapClarityResponse_cvToJSON (fun _ => []) (.err (.uint 1))
    simp [getRiskGroup, smallMarket, response, ClarityValue.isErr]
  have collateral : smallMarket.Collateral smallContracts (3, 1000) _ :=
    ⟨_, _, _, by decide, rfl, rfl, rfl, rfl⟩
  have debt : smallMarket.Debt smallContracts (6, 900) _ :=
    ⟨_, _, _, 1000, by decide, rfl, rfl, rfl, by decide, by decide, rfl⟩
  have serves : Serves (fun _ => []) smallMarket smallContracts
      (smallMarket.answer fun _ => []) := serves_answer
  have read := (positions_hold_market serves (ofString "SP1") (some 100) 0 _).mpr
    ⟨by decide, by decide, _, _, _, grouped, .cons collateral .nil, .cons debt .nil, rfl⟩
  exact ⟨_, read, by decide, by decide⟩

end RiskRail.Adapters.Zest
