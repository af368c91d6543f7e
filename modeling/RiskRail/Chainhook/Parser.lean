import Mathlib.Data.List.Basic
import Mathlib.Data.List.TakeWhile
import Mathlib.Data.Rat.Defs

/-!
# Chainhook payloads

The parser of the API: it walks the decoded transactions of every applied and
rolled back block and collects whatever looks like a Stacks principal, keeping
the account and dropping the contract name.
-/

namespace RiskRail.Chainhook

/-- A decoded JSON value. -/
inductive Json where
  | null
  | bool (value : Bool)
  | number (value : ℚ)
  | string (value : String)
  | array (items : List Json)
  | object (fields : List (String × Json))

/-! ## Principals in a text -/

/-- `[0-9A-HJKMNP-TV-Z]`. -/
def isBase32 (char : Char) : Bool :=
  char.isDigit || ('A' ≤ char && char ≤ 'H') || char ∈ ['J', 'K', 'M', 'N'] ||
    ('P' ≤ char && char ≤ 'T') || ('V' ≤ char && char ≤ 'Z')

/-- A character that a word boundary separates from one that is not. -/
def isWord (char : Char) : Bool :=
  char.isAlphanum || char = '_'

/-- The length of a contract name's part of a match: `\.[a-zA-Z]([a-zA-Z0-9]|[-_])*`
up to the last word boundary, or nothing. -/
def suffixLength : List Char → ℕ
  | '.' :: letter :: name =>
      if letter.isAlpha then
        let matched := name.takeWhile fun char => isWord char || char = '-'
        2 + (matched.reverse.dropWhile fun char => char = '-').length
      else
        0
  | _ => 0

/-- A match of `PRINCIPAL` at the head of a text, after the character before it: the
account and the length of the match.  A run of more than forty characters
has no word boundary after the fortieth. -/
def matchPrincipal (before : Option Char) : List Char → Option (List Char × ℕ)
  | 'S' :: kind :: text =>
      let body := text.takeWhile isBase32
      let after := text.dropWhile isBase32
      if before.any isWord = false ∧ kind ∈ ['P', 'T', 'M', 'N'] ∧ 38 ≤ body.length ∧
          body.length ≤ 40 ∧ after.head?.any isWord = false then
        some ('S' :: kind :: body, 2 + body.length + suffixLength after)
      else
        none
  | _ => none

/-- `matchAll`: the accounts of the matches from left to right, after skipping the
rest of the match before. -/
def matchAll : ℕ → Option Char → List Char → List (List Char)
  | _, _, [] => []
  | skip + 1, _, char :: text => matchAll skip (some char) text
  | 0, before, char :: text =>
      match matchPrincipal before (char :: text) with
      | some (account, length) => account :: matchAll (length - 1) (some char) text
      | none => matchAll 0 (some char) text

/-- The principals in a text, from left to right. -/
def principals (text : String) : List String :=
  (matchAll 0 none text.toList).map String.ofList

/-! ## The walk -/

/-- `Set.add`, in insertion order. -/
def addTo (into : List String) (principal : String) : List String :=
  if principal ∈ into then into else into ++ [principal]

mutual

/-- Every distinct standard principal mentioned anywhere in the value. -/
def collectPrincipals : Json → List String → List String
  | .string value, into => (principals value).foldl addTo into
  | .array items, into => collectItems items into
  | .object fields, into => collectFields fields into
  | .null, into | .bool _, into | .number _, into => into

/-- The principals of all items. -/
def collectItems : List Json → List String → List String
  | [], into => into
  | item :: items, into => collectItems items (collectPrincipals item into)

/-- The principals of all values; keys are not looked at. -/
def collectFields : List (String × Json) → List String → List String
  | [], into => into
  | (_, item) :: fields, into => collectFields fields (collectPrincipals item into)

end

/-- The height and the hash of a block. -/
structure BlockIdentifier where
  index : Option ℕ
  hash : Option String
deriving DecidableEq

/-- A block of a payload. -/
structure ChainhookBlock where
  block_identifier : Option BlockIdentifier
  transactions : Option (List Json)

/-- The blocks of a nested payload. -/
structure ChainhookEvent where
  apply : Option (List ChainhookBlock)
  rollback : Option (List ChainhookBlock)

/-- Chainhooks 2.0 nests the blocks under `event`. -/
structure ChainhookPayload where
  apply : Option (List ChainhookBlock)
  rollback : Option (List ChainhookBlock)
  event : Option ChainhookEvent

/-- The applied blocks, nested or not. -/
def ChainhookPayload.applied (payload : ChainhookPayload) : List ChainhookBlock :=
  ((payload.event.bind ChainhookEvent.apply).or payload.apply).getD []

/-- The blocks rolled back, nested or not. -/
def ChainhookPayload.rolledBack (payload : ChainhookPayload) : List ChainhookBlock :=
  ((payload.event.bind ChainhookEvent.rollback).or payload.rollback).getD []

/-- The height of a block, if it has one. -/
def ChainhookBlock.index (block : ChainhookBlock) : Option ℕ :=
  block.block_identifier.bind BlockIdentifier.index

/-- `collectPrincipals(block.transactions, addresses)`. -/
def ChainhookBlock.collect (into : List String) (block : ChainhookBlock) : List String :=
  match block.transactions with
  | none => into
  | some transactions => collectPrincipals (.array transactions) into

/-- Which wallets a delivery touches, and up to which block. -/
structure AffectedWallets where
  addresses : List String
  blockHeight : Option ℕ
  reorg : Bool
deriving DecidableEq

/-- The greatest index so far. -/
def maxHeight (blockHeight : Option ℕ) (block : ChainhookBlock) : Option ℕ :=
  match block.index with
  | none => blockHeight
  | some index =>
      match blockHeight with
      | none => some index
      | some height => some (max height index)

/-- The principals of all blocks, and the greatest height that is applied. -/
def extractAffected (payload : ChainhookPayload) : AffectedWallets where
  addresses := payload.rolledBack.foldl ChainhookBlock.collect
    (payload.applied.foldl ChainhookBlock.collect [])
  blockHeight := payload.applied.foldl maxHeight none
  reorg := payload.rolledBack ≠ []

/-! ## What is collected -/

/-- Some text in the value contains the principal. -/
inductive Mentions (principal : String) : Json → Prop where
  | string {value : String} (found : principal ∈ principals value) :
      Mentions principal (.string value)
  | array {items : List Json} {item : Json} (member : item ∈ items)
      (mentions : Mentions principal item) : Mentions principal (.array items)
  | object {fields : List (String × Json)} {field : String × Json} (member : field ∈ fields)
      (mentions : Mentions principal field.2) : Mentions principal (.object fields)

/-- Some transaction of the block mentions the principal. -/
def ChainhookBlock.Mentions (block : ChainhookBlock) (principal : String) : Prop :=
  ∃ transactions ∈ block.transactions, Chainhook.Mentions principal (.array transactions)

theorem mem_addTo_iff {into : List String} {principal other : String} :
    other ∈ addTo into principal ↔ other ∈ into ∨ other = principal := by
  unfold addTo
  by_cases known : principal ∈ into
  · rw [if_pos known]
    constructor
    · exact .inl
    · rintro (member | rfl)
      · exact member
      · exact known
  · simp [known]

theorem mem_foldl_addTo_iff {principal : String} (found into : List String) :
    principal ∈ found.foldl addTo into ↔ principal ∈ into ∨ principal ∈ found := by
  induction found generalizing into with
  | nil => simp
  | cons first found ih => simp [ih, mem_addTo_iff, or_assoc]

mutual

theorem mem_collectPrincipals_iff {principal : String} :
    (value : Json) → (into : List String) →
      (principal ∈ collectPrincipals value into ↔ principal ∈ into ∨ Mentions principal value)
  | .null, into => ⟨.inl, fun either => either.resolve_right fun mentions => nomatch mentions⟩
  | .bool _, into => ⟨.inl, fun either => either.resolve_right fun mentions => nomatch mentions⟩
  | .number _, into => ⟨.inl, fun either => either.resolve_right fun mentions => nomatch mentions⟩
  | .string value, into => by
      rw [collectPrincipals, mem_foldl_addTo_iff]
      constructor
      · exact Or.imp_right .string
      · exact Or.imp_right fun (.string found) => found
  | .array items, into => by
      rw [collectPrincipals, mem_collectItems_iff items into]
      constructor
      · exact Or.imp_right fun ⟨item, member, mentions⟩ => .array member mentions
      · exact Or.imp_right fun (.array member mentions) => ⟨_, member, mentions⟩
  | .object fields, into => by
      rw [collectPrincipals, mem_collectFields_iff fields into]
      constructor
      · exact Or.imp_right fun ⟨field, member, mentions⟩ => .object member mentions
      · exact Or.imp_right fun (.object member mentions) => ⟨_, member, mentions⟩

theorem mem_collectItems_iff {principal : String} :
    (items : List Json) → (into : List String) →
      (principal ∈ collectItems items into ↔
        principal ∈ into ∨ ∃ item ∈ items, Mentions principal item)
  | [], into => by simp [collectItems]
  | item :: items, into => by
      rw [collectItems, mem_collectItems_iff items, mem_collectPrincipals_iff item]
      simp [or_assoc]

theorem mem_collectFields_iff {principal : String} :
    (fields : List (String × Json)) → (into : List String) →
      (principal ∈ collectFields fields into ↔
        principal ∈ into ∨ ∃ field ∈ fields, Mentions principal field.2)
  | [], into => by simp [collectFields]
  | field :: fields, into => by
      rw [collectFields, mem_collectFields_iff fields, mem_collectPrincipals_iff field.2]
      simp [or_assoc]

end

theorem mem_foldl_collect_iff {principal : String} (blocks : List ChainhookBlock)
    (into : List String) :
    principal ∈ blocks.foldl ChainhookBlock.collect into ↔
      principal ∈ into ∨ ∃ block ∈ blocks, block.Mentions principal := by
  induction blocks generalizing into with
  | nil => simp
  | cons block blocks ih =>
      have head : principal ∈ block.collect into ↔ principal ∈ into ∨ block.Mentions principal := by
        unfold ChainhookBlock.collect ChainhookBlock.Mentions
        cases block.transactions with
        | none => simp
        | some transactions => simp [mem_collectPrincipals_iff]
      rw [List.foldl_cons, ih, head]
      simp [or_assoc]

/-- Exactly the principals mentioned in an applied or a rolled back block are
affected. -/
theorem mem_extractAffected_iff {payload : ChainhookPayload} {principal : String} :
    principal ∈ (extractAffected payload).addresses ↔
      ∃ block ∈ payload.applied ++ payload.rolledBack, block.Mentions principal := by
  simp only [extractAffected, mem_foldl_collect_iff, List.not_mem_nil, false_or, List.mem_append,
    or_and_right, exists_or]

/-! ## The shape of an account -/

theorem isBase32_of_match {before : Option Char} {text account : List Char} {length : ℕ}
    (matched : matchPrincipal before text = some (account, length)) :
    account ≠ [] ∧ ∀ char ∈ account, isBase32 char = true := by
  unfold matchPrincipal at matched
  split at matched
  next kind text =>
    dsimp only at matched
    split at matched
    next conditions =>
      cases matched
      refine ⟨by simp, ?_⟩
      have body : ∀ char ∈ text.takeWhile isBase32, isBase32 char = true :=
        fun char member => List.mem_takeWhile_imp member
      have kinds : ∀ char ∈ ['P', 'T', 'M', 'N'], isBase32 char = true := by
        intro char member
        simp only [List.mem_cons, List.not_mem_nil, or_false] at member
        rcases member with rfl | rfl | rfl | rfl <;> rfl
      intro char member
      simp only [List.mem_cons] at member
      rcases member with rfl | rfl | member
      · decide
      · exact kinds _ conditions.2.1
      · exact body char member
    next => cases matched
  next => cases matched

theorem isBase32_of_mem_matchAll {account : List Char} (skip : ℕ) (before : Option Char)
    (text : List Char) (member : account ∈ matchAll skip before text) :
    account ≠ [] ∧ ∀ char ∈ account, isBase32 char = true := by
  induction text generalizing skip before with
  | nil => cases skip <;> cases member
  | cons char text ih =>
      cases skip with
      | succ skip => exact ih skip _ member
      | zero =>
          rw [matchAll] at member
          split at member
          next account length matched =>
            rcases List.mem_cons.mp member with rfl | member
            · exact isBase32_of_match matched
            · exact ih _ _ member
          next => exact ih _ _ member

/-- An account has only the digits of its alphabet. -/
theorem isBase32_of_mem_principals {text principal : String}
    (member : principal ∈ principals text) :
    principal ≠ "" ∧ ∀ char ∈ principal.toList, isBase32 char = true := by
  rcases List.mem_map.mp member with ⟨account, accountMem, rfl⟩
  rcases isBase32_of_mem_matchAll 0 none text.toList accountMem with ⟨nonempty, digits⟩
  rw [String.toList_ofList]
  exact ⟨by simpa using nonempty, digits⟩

/-- The account is kept, the contract name dropped. -/
example :
    principals "SP2J6ZY48GV1EZ5V2V5RB9MP66SW86PYKKNRV9EJ7.risk-policy" =
      ["SP2J6ZY48GV1EZ5V2V5RB9MP66SW86PYKKNRV9EJ7"] := by
  decide +kernel

theorem Mentions.isBase32 {principal : String} {value : Json}
    (mentions : Mentions principal value) :
    principal ≠ "" ∧ ∀ char ∈ principal.toList, Chainhook.isBase32 char = true := by
  induction mentions with
  | string found => exact isBase32_of_mem_principals found
  | array _ _ ih => exact ih
  | object _ _ ih => exact ih

end RiskRail.Chainhook
