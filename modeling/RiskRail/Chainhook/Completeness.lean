import RiskRail.Chainhook.Ingest
import Mathlib.Data.List.Nodup
import Mathlib.Order.Bounds.Defs

/-!
# Nothing overlooked

Every principal that stands alone in a text of a delivery is found by the walk, as the
account it belongs to: the contract name of a contract principal is dropped.  What is found
stands in a text, and is found once.
-/

namespace RiskRail.Chainhook

/-! ## Texts of a value -/

/-- The text stands in the value as a whole string. -/
inductive Leaf (text : String) : Json → Prop where
  | string : Leaf text (.string text)
  | array {items : List Json} {item : Json} (member : item ∈ items) (leaf : Leaf text item) :
      Leaf text (.array items)
  | object {fields : List (String × Json)} {field : String × Json} (member : field ∈ fields)
      (leaf : Leaf text field.2) : Leaf text (.object fields)

/-- A principal is mentioned in one of the texts. -/
theorem mentions_iff_leaf {principal : String} {value : Json} :
    Mentions principal value ↔ ∃ text, Leaf text value ∧ principal ∈ principals text := by
  constructor
  · intro mentions
    induction mentions with
    | string found => exact ⟨_, .string, found⟩
    | array member _ ih =>
        obtain ⟨text, leaf, found⟩ := ih
        exact ⟨text, .array member leaf, found⟩
    | object member _ ih =>
        obtain ⟨text, leaf, found⟩ := ih
        exact ⟨text, .object member leaf, found⟩
  · rintro ⟨text, leaf, found⟩
    induction leaf with
    | string => exact .string found
    | array member _ ih => exact .array member ih
    | object member _ ih => exact .object member ih

/-- The text stands in a transaction of an applied or a rolled back block. -/
def ChainhookPayload.HasText (payload : ChainhookPayload) (text : String) : Prop :=
  ∃ block ∈ payload.applied ++ payload.rolledBack, ∃ transactions ∈ block.transactions,
    Leaf text (.array transactions)

theorem mem_addresses_iff {payload : ChainhookPayload} {principal : String} :
    principal ∈ (extractAffected payload).addresses ↔
      ∃ text, payload.HasText text ∧ principal ∈ principals text := by
  rw [mem_extractAffected_iff]
  constructor
  · rintro ⟨block, member, transactions, listed, mentions⟩
    obtain ⟨text, leaf, found⟩ := mentions_iff_leaf.mp mentions
    exact ⟨text, ⟨block, member, transactions, listed, leaf⟩, found⟩
  · rintro ⟨text, ⟨block, member, transactions, listed, leaf⟩, found⟩
    exact ⟨block, member, transactions, listed, mentions_iff_leaf.mpr ⟨text, leaf, found⟩⟩

/-! ## The account of a principal -/

/-- `value.split('.')[0]`: a standard principal itself, and the account of a contract
principal. -/
def accountOf (value : String) : String :=
  String.ofList (value.toList.takeWhile fun char => char ≠ '.')

theorem accountOf_of_standard {value : String} (standard : '.' ∉ value.toList) :
    accountOf value = value := by
  have whole : (value.toList.takeWhile fun char => char ≠ '.') = value.toList := by
    rw [List.takeWhile_eq_self_iff]
    intro char member
    rw [decide_eq_true_iff]
    rintro rfl
    exact standard member
  rw [accountOf, whole, String.ofList_toList]

theorem isBase32_ne_dot {char : Char} (digit : isBase32 char = true) : char ≠ '.' := by
  rintro rfl
  revert digit
  decide

/-- What the validator admits: an `S`, a version and 38 to 40 digits. -/
def AdmitsAddresses (validateStacksAddress : String → Bool) : Prop :=
  ∀ (kind : Char) (body : List Char),
    validateStacksAddress (String.ofList ('S' :: kind :: body)) = true →
      38 ≤ body.length ∧ body.length ≤ 40

/-- A principal is an account with a contract name or without one. -/
theorem exists_account_of_isStacksPrincipal {validateStacksAddress : String → Bool}
    (admits : AdmitsAddresses validateStacksAddress) {value : String}
    (accepted : isStacksPrincipal validateStacksAddress value = true) :
    ∃ kind text, value.toList = 'S' :: kind :: text ∧ kind ∈ ['P', 'T', 'M', 'N'] ∧
      38 ≤ (text.takeWhile isBase32).length ∧ (text.takeWhile isBase32).length ≤ 40 ∧
      isContractSuffix (text.dropWhile isBase32) = true := by
  unfold isStacksPrincipal at accepted
  split at accepted
  next kind text shape =>
    simp only [Bool.and_eq_true, decide_eq_true_eq] at accepted
    obtain ⟨⟨⟨⟨version, -⟩, -⟩, suffix⟩, valid⟩ := accepted
    have length := admits kind _ valid
    exact ⟨kind, text, shape, version, length.1, length.2, suffix⟩
  next => cases accepted

/-- A contract name is separated from the account by a dot. -/
theorem head_of_isContractSuffix {suffix : List Char} (shape : isContractSuffix suffix = true) :
    suffix = [] ∨ suffix.head? = some '.' := by
  unfold isContractSuffix at shape
  split at shape
  · exact .inl rfl
  · exact .inr rfl
  · cases shape

theorem boundary_of_isContractSuffix {suffix : List Char}
    (shape : isContractSuffix suffix = true) : suffix.head?.any isWord = false := by
  rcases head_of_isContractSuffix shape with empty | dot
  · rw [empty]
    rfl
  · rw [dot]
    rfl

theorem takeWhile_of_isContractSuffix {suffix : List Char}
    (shape : isContractSuffix suffix = true) : (suffix.takeWhile fun char => char ≠ '.') = [] := by
  rcases head_of_isContractSuffix shape with empty | dot
  · rw [empty]
    rfl
  · obtain ⟨rest, dotted⟩ := List.head?_eq_some_iff.mp dot
    rw [dotted]
    rfl

/-- Up to the dot there are the `S`, the version and the digits. -/
theorem takeWhile_account {kind : Char} {text : List Char} (version : kind ∈ ['P', 'T', 'M', 'N'])
    (suffix : isContractSuffix (text.dropWhile isBase32) = true) :
    (('S' :: kind :: text).takeWhile fun char => char ≠ '.') =
      'S' :: kind :: text.takeWhile isBase32 := by
  have letters : ∀ char ∈ ['S', 'P', 'T', 'M', 'N'], char ≠ '.' := by simp
  have undotted : ∀ char ∈ 'S' :: kind :: text.takeWhile isBase32,
      decide (char ≠ '.') = true := by
    intro char member
    rw [decide_eq_true_iff]
    rcases List.mem_cons.mp member with rfl | member
    · exact letters _ List.mem_cons_self
    · rcases List.mem_cons.mp member with rfl | member
      · exact letters _ (List.mem_cons_of_mem _ version)
      · exact isBase32_ne_dot (List.mem_takeWhile_imp member)
  have parts : 'S' :: kind :: text =
      ('S' :: kind :: text.takeWhile isBase32) ++ text.dropWhile isBase32 := by
    rw [List.cons_append, List.cons_append, List.takeWhile_append_dropWhile]
  rw [parts, List.takeWhile_append_of_pos undotted, takeWhile_of_isContractSuffix suffix,
    List.append_nil]

/-- A principal that stands alone matches as its account. -/
theorem accountOf_mem_principals {validateStacksAddress : String → Bool}
    (admits : AdmitsAddresses validateStacksAddress) {value : String}
    (accepted : isStacksPrincipal validateStacksAddress value = true) :
    accountOf value ∈ principals value := by
  obtain ⟨kind, text, shape, version, lower, upper, suffix⟩ :=
    exists_account_of_isStacksPrincipal admits accepted
  have matched : matchPrincipal none ('S' :: kind :: text) =
      some ('S' :: kind :: text.takeWhile isBase32,
        2 + (text.takeWhile isBase32).length + suffixLength (text.dropWhile isBase32)) := by
    rw [matchPrincipal]
    exact if_pos ⟨rfl, version, lower, upper, boundary_of_isContractSuffix suffix⟩
  rw [accountOf, principals, shape, takeWhile_account version suffix, matchAll, matched]
  exact List.mem_cons_self

/-! ## What is found -/

/-- A match stands in the text. -/
theorem isInfix_of_mem_matchAll {account : List Char} (skip : ℕ) (before : Option Char)
    (text : List Char) (member : account ∈ matchAll skip before text) : account <:+: text := by
  induction text generalizing skip before with
  | nil => cases skip <;> cases member
  | cons char text ih =>
      cases skip with
      | succ skip => exact (ih skip _ member).trans (List.suffix_cons char text).isInfix
      | zero =>
          rw [matchAll] at member
          split at member
          next found length matched =>
            rcases List.mem_cons.mp member with rfl | member
            · unfold matchPrincipal at matched
              split at matched
              next kind rest shape =>
                dsimp only at matched
                split at matched
                next =>
                  cases matched
                  rw [shape]
                  have body := List.takeWhile_prefix isBase32 (l := rest)
                  exact ((List.prefix_cons_inj 'S').mpr
                    ((List.prefix_cons_inj kind).mpr body)).isInfix
                next => cases matched
              next => cases matched
            · exact (ih _ _ member).trans (List.suffix_cons char text).isInfix
          next => exact (ih _ _ member).trans (List.suffix_cons char text).isInfix

theorem isInfix_of_mem_principals {text principal : String}
    (member : principal ∈ principals text) : principal.toList <:+: text.toList := by
  obtain ⟨account, found, rfl⟩ := List.mem_map.mp member
  rw [String.toList_ofList]
  exact isInfix_of_mem_matchAll 0 none text.toList found

theorem nodup_addTo {into : List String} (distinct : into.Nodup) (principal : String) :
    (addTo into principal).Nodup := by
  unfold addTo
  split
  next => exact distinct
  next missing =>
      rw [← List.concat_eq_append]
      exact distinct.concat missing

theorem nodup_foldl_addTo {into : List String} (distinct : into.Nodup) (found : List String) :
    (found.foldl addTo into).Nodup := by
  induction found generalizing into with
  | nil => exact distinct
  | cons principal found ih => exact ih (nodup_addTo distinct principal)

mutual

theorem nodup_collectPrincipals :
    (value : Json) → {into : List String} → into.Nodup → (collectPrincipals value into).Nodup
  | .null, _, distinct | .bool _, _, distinct | .number _, _, distinct => by
      rwa [collectPrincipals]
  | .string value, _, distinct => by
      rw [collectPrincipals]
      exact nodup_foldl_addTo distinct (principals value)
  | .array items, _, distinct => by
      rw [collectPrincipals]
      exact nodup_collectItems items distinct
  | .object fields, _, distinct => by
      rw [collectPrincipals]
      exact nodup_collectFields fields distinct

theorem nodup_collectItems :
    (items : List Json) → {into : List String} → into.Nodup → (collectItems items into).Nodup
  | [], _, distinct => by rwa [collectItems]
  | item :: items, _, distinct => by
      rw [collectItems]
      exact nodup_collectItems items (nodup_collectPrincipals item distinct)

theorem nodup_collectFields :
    (fields : List (String × Json)) → {into : List String} → into.Nodup →
      (collectFields fields into).Nodup
  | [], _, distinct => by rwa [collectFields]
  | field :: fields, _, distinct => by
      rw [collectFields]
      exact nodup_collectFields fields (nodup_collectPrincipals field.2 distinct)

end

/-- Every address is reported once. -/
theorem nodup_addresses (payload : ChainhookPayload) :
    (extractAffected payload).addresses.Nodup := by
  have collected : ∀ (blocks : List ChainhookBlock) {into : List String}, into.Nodup →
      (blocks.foldl ChainhookBlock.collect into).Nodup := by
    intro blocks
    induction blocks with
    | nil => exact fun distinct => distinct
    | cons block blocks ih =>
        intro into distinct
        apply ih
        unfold ChainhookBlock.collect
        split
        · exact distinct
        · exact nodup_collectPrincipals _ distinct
  exact collected _ (collected _ List.nodup_nil)

/-! ## The height -/

/-- The heights of the blocks that have one. -/
def heights (blocks : List ChainhookBlock) : List ℕ :=
  blocks.filterMap ChainhookBlock.index

theorem foldl_maxHeight_some (blocks : List ChainhookBlock) (height : ℕ) :
    blocks.foldl maxHeight (some height) = some ((heights blocks).foldl max height) := by
  induction blocks generalizing height with
  | nil => rfl
  | cons block blocks ih =>
      rw [List.foldl_cons, maxHeight, heights]
      cases index : block.index with
      | none =>
          rw [List.filterMap_cons_none index]
          exact ih height
      | some first =>
          rw [List.filterMap_cons_some index]
          exact ih (max height first)

theorem foldl_maxHeight (blocks : List ChainhookBlock) :
    blocks.foldl maxHeight none = (heights blocks).max? := by
  induction blocks with
  | nil => rfl
  | cons block blocks ih =>
      rw [List.foldl_cons, maxHeight, heights]
      cases index : block.index with
      | none =>
          rw [List.filterMap_cons_none index]
          exact ih
      | some first =>
          rw [List.filterMap_cons_some index]
          exact foldl_maxHeight_some blocks first

/-- The height of a delivery is the greatest of its applied blocks, where one has any. -/
theorem blockHeight_eq_some_iff {payload : ChainhookPayload} {height : ℕ} :
    (extractAffected payload).blockHeight = some height ↔
      IsGreatest { first | ∃ block ∈ payload.applied, block.index = some first } height := by
  have applied : ∀ first, first ∈ heights payload.applied ↔
      ∃ block ∈ payload.applied, block.index = some first := by
    intro first
    rw [heights, List.mem_filterMap]
  rw [extractAffected, foldl_maxHeight, List.max?_eq_some_iff, applied]
  simp only [applied]
  rfl

theorem blockHeight_eq_none_iff {payload : ChainhookPayload} :
    (extractAffected payload).blockHeight = none ↔
      ∀ block ∈ payload.applied, block.index = none := by
  rw [extractAffected, foldl_maxHeight, List.max?_eq_none_iff, heights,
    List.filterMap_eq_nil_iff]

/-! ## What a delivery affects -/

/-- Every principal that stands alone in a transaction of an applied or rolled back block
is reported as its account, which is the principal itself unless it names a contract.  What
is reported stands inside a text, and is reported once; a rollback is a reorganisation; and
the height is the greatest of the applied blocks. -/
theorem nothing_overlooked {validateStacksAddress : String → Bool}
    (admits : AdmitsAddresses validateStacksAddress) (payload : ChainhookPayload) :
    let affected := extractAffected payload
    (∀ address, isStacksPrincipal validateStacksAddress address = true →
      payload.HasText address →
      accountOf address ∈ affected.addresses ∧
        ('.' ∉ address.toList → address ∈ affected.addresses)) ∧
    (∀ address ∈ affected.addresses,
      ∃ text, payload.HasText text ∧ address.toList <:+: text.toList) ∧
    affected.addresses.Nodup ∧
    (affected.reorg = true ↔ payload.rolledBack ≠ []) ∧
    (∀ height, affected.blockHeight = some height ↔
      IsGreatest { first | ∃ block ∈ payload.applied, block.index = some first } height) ∧
    (affected.blockHeight = none ↔ ∀ block ∈ payload.applied, block.index = none) := by
  intro affected
  refine ⟨?_, ?_, nodup_addresses payload, decide_eq_true_iff,
    fun _ => blockHeight_eq_some_iff, blockHeight_eq_none_iff⟩
  · intro address accepted stands
    have found : accountOf address ∈ affected.addresses :=
      mem_addresses_iff.mpr ⟨address, stands, accountOf_mem_principals admits accepted⟩
    refine ⟨found, fun standard => ?_⟩
    rwa [accountOf_of_standard standard] at found
  · intro address listed
    obtain ⟨text, stands, found⟩ := mem_addresses_iff.mp listed
    exact ⟨text, stands, isInfix_of_mem_principals found⟩

/-- An address with a correct checksum. -/
def walletAddress : String :=
  "SP2J6ZY48GV1EZ5V2V5RB9MP66SW86PYKKNRV9EJ7"

/-- The validator, as far as this address is concerned. -/
def admitsWallet (address : String) : Bool :=
  address = walletAddress

theorem admitsWallet_admits : AdmitsAddresses admitsWallet := by
  intro kind body valid
  have chars := congrArg String.toList (decide_eq_true_iff.mp valid)
  rw [String.toList_ofList] at chars
  have length := congrArg List.length chars
  have known : walletAddress.toList.length = 41 := by decide +kernel
  rw [known, List.length_cons, List.length_cons] at length
  omega

/-- The call of a contract of the account. -/
def vaultCall : Json :=
  .object [("contract_identifier", .string (walletAddress ++ ".vault"))]

/-- A block with a call of a vault. -/
def vaultBlock : ChainhookBlock where
  block_identifier := some ⟨some 100, none⟩
  transactions := some [vaultCall]

/-- A payload that applies it. -/
def vaultPayload : ChainhookPayload where
  apply := some [vaultBlock]
  rollback := none
  event := none

theorem vaultPayload_hasText : vaultPayload.HasText (walletAddress ++ ".vault") :=
  ⟨vaultBlock, List.mem_cons_self, _, rfl, .array List.mem_cons_self
    (@Leaf.object _ _ ("contract_identifier", .string _) List.mem_cons_self .string)⟩

/-- The contract is a principal as well, and is not reported. -/
theorem vault_not_reported :
    ¬∀ (payload : ChainhookPayload) (address : String),
      isStacksPrincipal admitsWallet address = true → payload.HasText address →
      address ∈ (extractAffected payload).addresses := by
  intro overlooked
  exact absurd (overlooked vaultPayload _ (by decide +kernel) vaultPayload_hasText)
    (by decide +kernel)

theorem nothing_overlooked_walletAddress :
    accountOf (walletAddress ++ ".vault") ∈ (extractAffected vaultPayload).addresses :=
  ((nothing_overlooked admitsWallet_admits vaultPayload).1 (walletAddress ++ ".vault")
    (by decide +kernel) vaultPayload_hasText).1

end RiskRail.Chainhook
