import RiskRail.Webhooks.Agreement

/-!
# Headers that both verifiers read alike

Each verifier takes the last pair of a name.  A pair without an equals sign gives the
sender's verifier an empty value and the SDK none; behind a second equals sign the
sender's verifier reads no further.  So the verifiers agree on the headers in which no bare
pair hides a signature and both read all of it, and on those that neither can accept.
-/

namespace RiskRail.Webhooks

open RiskRail.Javascript Text RiskRail.Numeric

/-! ## Pairs -/

/-- What stands behind the first equals sign. -/
def given (pair : Text) : Text :=
  trim ((pair.dropWhile fun unit => unit != 0x3D).drop 1)

theorem dropWhile_ne_append {name value : Text} (plain : 0x3D ∉ name) :
    (name ++ 0x3D :: value).dropWhile (fun unit => unit != 0x3D) = 0x3D :: value := by
  rw [List.dropWhile_append_of_pos]
  · rfl
  · intro unit member
    rw [bne_iff_ne]
    rintro rfl
    exact plain member

theorem given_append {name value : Text} (plain : 0x3D ∉ name) :
    given (name ++ 0x3D :: value) = trim value := by
  rw [given, dropWhile_ne_append plain, List.drop_one, List.tail_cons]

/-- The sender's verifier reads on to the second equals sign. -/
theorem nodePair_append {name value : Text} (plain : 0x3D ∉ name) :
    nodePair (name ++ 0x3D :: value) = (trim name, trim ((value.splitOn 0x3D).headD [])) := by
  unfold nodePair
  rw [List.splitOn_append_cons_self_of_not_mem plain]
  cases value.splitOn 0x3D <;> rfl

theorem sdkPair_append {name value : Text} (plain : 0x3D ∉ name) :
    sdkPair (name ++ 0x3D :: value) = some (trim name, trim value) := by
  have index : (name ++ 0x3D :: value).idxOf? 0x3D = some name.length := by
    rw [List.idxOf?_eq_some_iff]
    refine ⟨by simp, by simp, ?_⟩
    intro j earlier
    rw [List.getElem_append_left earlier]
    intro same
    exact plain (same ▸ List.getElem_mem earlier)
  unfold sdkPair
  rw [index, Option.map_some, List.take_left, ← List.drop_drop, List.drop_left, List.drop_one,
    List.tail_cons]

theorem nodePair_of_not_mem {pair : Text} (bare : 0x3D ∉ pair) :
    nodePair pair = (trim pair, []) := by
  unfold nodePair
  rw [List.splitOn_eq_singleton bare]
  rfl

/-- The SDK names a pair as the sender's verifier does, if it takes the pair at all. -/
theorem sdkPair_eq (pair : Text) :
    sdkPair pair = if 0x3D ∈ pair then some ((nodePair pair).1, given pair) else none := by
  split
  next marked =>
    obtain ⟨name, value, rfl, plain⟩ := List.eq_append_cons_of_mem marked
    rw [sdkPair_append plain, nodePair_append plain, given_append plain]
  next bare =>
    unfold sdkPair
    rw [List.idxOf?_eq_none_iff.mpr bare, Option.map_none]

/-- A value without an equals sign is read by both. -/
theorem nodePair_snd_eq_given {pair : Text} (marked : 0x3D ∈ pair) (plain : 0x3D ∉ given pair) :
    (nodePair pair).2 = given pair := by
  obtain ⟨name, value, rfl, first⟩ := List.eq_append_cons_of_mem marked
  rw [given_append first] at plain ⊢
  have inside : 0x3D ∉ value := fun member => plain (mem_of_mem_trim member rfl)
  rw [nodePair_append first, List.splitOn_eq_singleton inside]
  rfl

theorem not_mem_of_finiteNumber {text : Text} {x : ℚ} (read : finiteNumber text = some x) :
    0x3D ∉ text := by
  intro member
  rcases spells_of_finiteNumber read member with space | digit | plus | minus | point
  · cases space
  · exact digit rfl
  · cases plus
  · cases minus
  · cases point

theorem not_mem_of_digits {text : Text} (digits : ∀ unit ∈ text, hexDigitValue unit ≠ none) :
    0x3D ∉ text :=
  fun member => digits 0x3D member (by decide)

/-! ## The pair that counts -/

/-- The last pair with a name. -/
def lastPair (name header : Text) : Option Text :=
  (header.splitOn 0x2C).reverse.find? fun pair => (nodePair pair).1 = name

/-- The last pair with a name and an equals sign. -/
def lastGiven (name header : Text) : Option Text :=
  (header.splitOn 0x2C).reverse.find? fun pair => 0x3D ∈ pair ∧ (nodePair pair).1 = name

variable {name header secret : Text}

theorem get_nodeParts (name header : Text) :
    (nodeParts header).get name = (lastPair name header).map fun pair => (nodePair pair).2 := by
  rw [nodeParts, OrderedMap.get_ofWrites, ← List.map_reverse, List.find?_map, Option.map_map]
  rfl

theorem of_lastGiven {pair : Text} (last : lastGiven name header = some pair) :
    pair ∈ (header.splitOn 0x2C).reverse ∧ 0x3D ∈ pair ∧ (nodePair pair).1 = name := by
  unfold lastGiven at last
  have found := List.find?_some last
  exact ⟨List.mem_of_find?_eq_some last, of_decide_eq_true found⟩

theorem get_sdkParts (name header : Text) :
    (sdkParts header).get name = (lastGiven name header).map given := by
  have same (pair : Text) : (sdkPair pair).any (fun write => decide (write.1 = name)) =
      decide (0x3D ∈ pair ∧ (nodePair pair).1 = name) := by
    rw [sdkPair_eq]
    split
    next marked => simp [marked]
    next bare => simp [bare]
  rw [sdkParts, OrderedMap.get_ofWrites, ← List.filterMap_reverse, List.find?_filterMap]
  simp only [same]
  change ((lastGiven name header).bind sdkPair).map Prod.snd = _
  cases last : lastGiven name header with
  | none => rfl
  | some pair => rw [Option.bind_some, sdkPair_eq, if_pos (of_lastGiven last).2.1]; rfl

/-- The last pair counts for both if it has an equals sign. -/
theorem lastGiven_of_mem {pair : Text} (last : lastPair name header = some pair)
    (marked : 0x3D ∈ pair) : lastGiven name header = some pair := by
  obtain ⟨named, later, earlier, pairs, others⟩ := List.find?_eq_some_iff_append.mp last
  refine List.find?_eq_some_iff_append.mpr
    ⟨decide_eq_true ⟨marked, of_decide_eq_true named⟩, later, earlier, pairs, ?_⟩
  intro other member
  have unnamed := others other member
  rw [Bool.not_eq_true', decide_eq_false_iff_not] at unnamed ⊢
  exact fun both => unnamed both.2

theorem exists_lastPair {pair : Text} (last : lastGiven name header = some pair) :
    ∃ later, lastPair name header = some later := by
  rw [← Option.isSome_iff_exists, lastPair, List.find?_isSome]
  obtain ⟨member, -, named⟩ := of_lastGiven last
  exact ⟨pair, member, decide_eq_true named⟩

/-! ## Signed headers -/

/-- The text is the number of a second near which some clock can be. -/
def IsStamp (text : Text) : Prop :=
  ∃ timestamp, finiteNumber text = some timestamp ∧ Tolerable timestamp

/-- The sender's verifier can accept the header: a time, and a signature whose digits go on
for 32 bytes. -/
def NodeSigned (header : Text) : Prop :=
  ∃ stamp signature, lastPair (ofString "t") header = some stamp ∧
    lastPair (ofString "v1") header = some signature ∧ IsStamp (nodePair stamp).2 ∧
      (bufferFromHex (nodePair signature).2).length = 32

/-- The SDK can accept the header: a time, and a signature of 64 digits. -/
def SdkSigned (header : Text) : Prop :=
  ∃ stamp signature, lastGiven (ofString "t") header = some stamp ∧
    lastGiven (ofString "v1") header = some signature ∧ IsStamp (given stamp) ∧
      (given signature).length = 64 ∧ ∀ unit ∈ given signature, hexDigitValue unit ≠ none

/-- Both verifiers read the header alike, or neither can accept it.  Behind the pair that
counts for the SDK there is no bare pair of its name, unless the time is zero, which an empty
text reads as too. -/
inductive Unambiguous (secret header : Text) : Prop
  | read (keyed : secret ≠ []) (signed : SdkSigned header)
      (signature : lastPair (ofString "v1") header = lastGiven (ofString "v1") header)
      (stamp : lastPair (ofString "t") header = lastGiven (ofString "t") header ∨
        ((lastGiven (ofString "t") header).map given).bind finiteNumber = some 0)
  | unread (sdk : secret = [] ∨ ¬SdkSigned header) (node : ¬NodeSigned header)

theorem live_nodeReading_iff : (nodeReading header).Live ↔ NodeSigned header := by
  simp only [Reading.Live, NodeSigned, IsStamp, nodeReading_eq_some_iff, get_nodeParts,
    Option.bind_eq_some_iff, Option.map_eq_some_iff]
  constructor
  · rintro ⟨timestamp, mac, ⟨⟨_, ⟨stamp, last, rfl⟩, read⟩, _, ⟨signature, last', rfl⟩, bytes⟩,
      tolerated⟩
    exact ⟨stamp, signature, last, last', ⟨timestamp, read, tolerated⟩, bytes ▸ mac.length_eq⟩
  · rintro ⟨stamp, signature, last, last', ⟨timestamp, read, tolerated⟩, length_eq⟩
    exact ⟨timestamp, ⟨_, length_eq⟩,
      ⟨⟨_, ⟨stamp, last, rfl⟩, read⟩, _, ⟨signature, last', rfl⟩, rfl⟩, tolerated⟩

theorem live_sdkReading_iff :
    (sdkReading secret header).Live ↔ secret ≠ [] ∧ SdkSigned header := by
  simp only [Reading.Live, SdkSigned, IsStamp, sdkReading_eq_some_iff, get_sdkParts,
    Option.bind_eq_some_iff, Option.map_eq_some_iff]
  constructor
  · rintro ⟨timestamp, mac, ⟨keyed, ⟨_, ⟨stamp, last, rfl⟩, read⟩, _, ⟨signature, last', rfl⟩,
      bytes⟩, tolerated⟩
    obtain ⟨digits, length, -⟩ := of_hexToBytes bytes
    rw [mac.length_eq] at length
    exact ⟨keyed, stamp, signature, last, last', ⟨timestamp, read, tolerated⟩, length, digits⟩
  · rintro ⟨keyed, stamp, signature, last, last', ⟨timestamp, read, tolerated⟩, length, digits⟩
    have pairs := (hexPairs_of_digits (by rw [length]) digits).1
    rw [length] at pairs
    exact ⟨timestamp, ⟨hexPairs (given signature), by omega⟩,
      ⟨keyed, ⟨_, ⟨stamp, last, rfl⟩, read⟩, _, ⟨signature, last', rfl⟩,
        hexToBytes_of_digits (by rw [length]) digits⟩, tolerated⟩

/-- Headers that are read alike show the last pairs to both. -/
theorem last_of_nodeReading {timestamp : ℚ} {mac : Mac}
    (node : nodeReading header = some (timestamp, mac))
    (sdk : sdkReading secret header = some (timestamp, mac)) :
    lastPair (ofString "v1") header = lastGiven (ofString "v1") header ∧
      (lastPair (ofString "t") header = lastGiven (ofString "t") header ∨
        ((lastGiven (ofString "t") header).map given).bind finiteNumber = some 0) := by
  obtain ⟨read, _, found, bytes⟩ := nodeReading_eq_some_iff.mp node
  obtain ⟨-, read', -⟩ := sdkReading_eq_some_iff.mp sdk
  rw [get_nodeParts] at read found
  rw [get_sdkParts] at read'
  obtain ⟨signature, last, rfl⟩ := Option.map_eq_some_iff.mp found
  obtain ⟨_, taken, read⟩ := Option.bind_eq_some_iff.mp read
  obtain ⟨stamp, last', rfl⟩ := Option.map_eq_some_iff.mp taken
  constructor
  · by_cases marked : 0x3D ∈ signature
    · rw [last, lastGiven_of_mem last marked]
    · rw [nodePair_of_not_mem marked] at bytes
      exact absurd bytes (Mac.ne_nil mac)
  · by_cases marked : 0x3D ∈ stamp
    · exact .inl (by rw [last', lastGiven_of_mem last' marked])
    · right
      rw [nodePair_of_not_mem marked] at read
      rw [read', ← read]
      rfl

/-- What the SDK reads is what the sender's verifier reads, if the last pairs are the
same. -/
theorem nodeReading_of_sdkReading {timestamp : ℚ} {mac : Mac}
    (sdk : sdkReading secret header = some (timestamp, mac))
    (signature : lastPair (ofString "v1") header = lastGiven (ofString "v1") header)
    (stamp : lastPair (ofString "t") header = lastGiven (ofString "t") header ∨
      ((lastGiven (ofString "t") header).map given).bind finiteNumber = some 0) :
    nodeReading header = some (timestamp, mac) := by
  obtain ⟨-, read, _, found, bytes⟩ := sdkReading_eq_some_iff.mp sdk
  rw [get_sdkParts] at read found
  obtain ⟨signed, last, rfl⟩ := Option.map_eq_some_iff.mp found
  obtain ⟨digits, -, buffer⟩ := of_hexToBytes bytes
  rw [nodeReading_eq_some_iff, get_nodeParts, get_nodeParts, signature, last]
  refine ⟨?_, _, rfl, ?_⟩
  · obtain ⟨_, taken, number⟩ := Option.bind_eq_some_iff.mp read
    obtain ⟨stamped, last', rfl⟩ := Option.map_eq_some_iff.mp taken
    obtain ⟨later, final⟩ := exists_lastPair last'
    rw [final, Option.map_some, Option.bind_some]
    by_cases marked : 0x3D ∈ later
    · have same := lastGiven_of_mem final marked
      cases same.symm.trans last'
      rw [nodePair_snd_eq_given marked (not_mem_of_finiteNumber number), number]
    · rcases stamp with same | zero
      · rw [final, last'] at same
        cases same
        exact absurd (of_lastGiven last').2.1 marked
      · rw [nodePair_of_not_mem marked, ← read, zero]
        rfl
  · have same := nodePair_snd_eq_given (of_lastGiven last).2.1 (not_mem_of_digits digits)
    exact buffer.symm.trans (congrArg bufferFromHex same.symm)

/-- The readings are the same, or dead both, exactly when the header is unambiguous. -/
theorem readings_agree_iff (secret header : Text) :
    (nodeReading header = sdkReading secret header ∨
      ¬(nodeReading header).Live ∧ ¬(sdkReading secret header).Live) ↔
      Unambiguous secret header := by
  by_cases live : (sdkReading secret header).Live
  · have signed := live_sdkReading_iff.mp live
    obtain ⟨timestamp, mac, sdk, -⟩ := live
    constructor
    · rintro (same | ⟨-, dead⟩)
      · obtain ⟨signature, stamp⟩ := last_of_nodeReading (same.trans sdk) sdk
        exact .read signed.1 signed.2 signature stamp
      · exact absurd (live_sdkReading_iff.mpr signed) dead
    · rintro (⟨-, -, signature, stamp⟩ | ⟨sdk', -⟩)
      · exact .inl ((nodeReading_of_sdkReading sdk signature stamp).trans sdk.symm)
      · rcases sdk' with empty | unsigned
        · exact absurd empty signed.1
        · exact absurd signed.2 unsigned
  · have unsigned : secret = [] ∨ ¬SdkSigned header := by
      rw [or_iff_not_imp_left]
      exact fun keyed signed => live (live_sdkReading_iff.mpr ⟨keyed, signed⟩)
    constructor
    · rintro (same | ⟨dead, -⟩)
      · exact .unread unsigned fun node => live (same ▸ live_nodeReading_iff.mpr node)
      · exact .unread unsigned (fun node => dead (live_nodeReading_iff.mpr node))
    · rintro (⟨keyed, signed, -, -⟩ | ⟨-, node⟩)
      · exact absurd (live_sdkReading_iff.mpr ⟨keyed, signed⟩) live
      · exact .inr ⟨fun alive => node (live_nodeReading_iff.mp alive), live⟩

/-! ## Headers of the sender -/

theorem splitOn_signPayload (hmac : Text → Text → Mac) (body secret : Text) (timestamp : ℚ) :
    (signPayload hmac body secret timestamp).splitOn 0x2C =
      [ofString "t" ++ 0x3D :: numberText timestamp,
        ofString "v1" ++ 0x3D :: hexText (hmac secret (material timestamp body)).bytes] := by
  have front : 0x2C ∉ ofString "t" ++ 0x3D :: numberText timestamp := by
    rw [List.mem_append, List.mem_cons]
    rintro (name | mark | value)
    · revert name
      decide
    · cases mark
    · cases isNumeral_of_mem_numberText value
  have back : 0x2C ∉
      ofString "v1" ++ 0x3D :: hexText (hmac secret (material timestamp body)).bytes := by
    rw [List.mem_append, List.mem_cons]
    rintro (name | mark | value)
    · revert name
      decide
    · cases mark
    · exact hexDigitValue_of_mem_hexText value (by decide)
  have joined : signPayload hmac body secret timestamp =
      (ofString "t" ++ 0x3D :: numberText timestamp) ++ 0x2C ::
        (ofString "v1" ++ 0x3D :: hexText (hmac secret (material timestamp body)).bytes) := by
    rw [signPayload, show ofString "t=" = ofString "t" ++ [0x3D] by decide,
      show ofString ",v1=" = 0x2C :: (ofString "v1" ++ [0x3D]) by decide]
    simp only [List.append_assoc, List.cons_append, List.nil_append]
  rw [joined, List.splitOn_append_cons_self_of_not_mem front, List.splitOn_eq_singleton back]

theorem lastPair_signPayload (hmac : Text → Text → Mac) (body secret : Text) (timestamp : ℚ) :
    lastPair (ofString "t") (signPayload hmac body secret timestamp) =
        some (ofString "t" ++ 0x3D :: numberText timestamp) ∧
      lastPair (ofString "v1") (signPayload hmac body secret timestamp) =
        some (ofString "v1" ++ 0x3D :: hexText (hmac secret (material timestamp body)).bytes) := by
  have first : (nodePair (ofString "t" ++ 0x3D :: numberText timestamp)).1 = ofString "t" := by
    rw [nodePair_append (by decide)]
    exact show trim (ofString "t") = ofString "t" by decide
  have second : (nodePair (ofString "v1" ++
      0x3D :: hexText (hmac secret (material timestamp body)).bytes)).1 = ofString "v1" := by
    rw [nodePair_append (by decide)]
    exact show trim (ofString "v1") = ofString "v1" by decide
  have differ : ofString "v1" ≠ ofString "t" := by decide
  simp [lastPair, splitOn_signPayload, first, second, differ]

/-- The SDK reads the time and the signature that the sender wrote. -/
theorem sdkReading_signPayload (hmac : Text → Text → Mac) (body : Text) {secret : Text}
    {timestamp : ℚ} (double : IsBinary64 timestamp) (keyed : secret ≠ []) :
    sdkReading secret (signPayload hmac body secret timestamp) =
      some (timestamp, hmac secret (material timestamp body)) := by
  obtain ⟨stamp, signature⟩ := lastPair_signPayload hmac body secret timestamp
  rw [sdkReading_eq_some_iff, get_sdkParts, get_sdkParts, lastGiven_of_mem stamp (by simp),
    lastGiven_of_mem signature (by simp)]
  refine ⟨keyed, ?_, _, rfl, ?_⟩
  · rw [Option.map_some, Option.bind_some, given_append (by decide),
      trim_of_isNumeral fun unit => isNumeral_of_mem_numberText, finiteNumber_numberText double]
  · rw [given_append (by decide), trim_eq_self, hexToBytes_hexText]
    exact fun unit member => isSpace_of_hexDigitValue (hexDigitValue_of_mem_hexText member)

/-- The sender's verifier reads back what the sender wrote. -/
theorem nodeReading_signPayload (hmac : Text → Text → Mac) (body secret : Text) {timestamp : ℚ}
    (double : IsBinary64 timestamp) :
    nodeReading (signPayload hmac body secret timestamp) =
      some (timestamp, hmac secret (material timestamp body)) := by
  obtain ⟨stamp, signature⟩ := lastPair_signPayload hmac body secret timestamp
  have plain : 0x3D ∉ numberText timestamp := fun member => by
    cases isNumeral_of_mem_numberText member
  have digits : 0x3D ∉ hexText (hmac secret (material timestamp body)).bytes :=
    not_mem_of_digits fun unit => hexDigitValue_of_mem_hexText
  rw [nodeReading_eq_some_iff, get_nodeParts, get_nodeParts, stamp, signature]
  refine ⟨?_, _, rfl, ?_⟩
  · rw [Option.map_some, Option.bind_some, nodePair_append (by decide),
      List.splitOn_eq_singleton plain]
    change finiteNumber (trim (numberText timestamp)) = some timestamp
    rw [trim_of_isNumeral fun unit => isNumeral_of_mem_numberText, finiteNumber_numberText double]
  · dsimp only
    rw [nodePair_append (by decide), List.splitOn_eq_singleton digits]
    change _ = bufferFromHex (trim (hexText _))
    rw [trim_eq_self, (of_hexToBytes (hexToBytes_hexText _)).2.2]
    exact fun unit member => isSpace_of_hexDigitValue (hexDigitValue_of_mem_hexText member)

/-- The verifiers agree on all deliveries with a header exactly when the header is
unambiguous; what the sender signs the sender's verifier accepts, and the SDK unless the
secret is empty. -/
theorem agree_iff_unambiguous (secret : Text) :
    (∀ header,
      (∀ hmac clock body,
        verifySignature hmac clock body header secret defaultToleranceSeconds = true ↔
          verifyWebhookSignature hmac clock body header secret defaultToleranceSeconds =
            .ok true) ↔
      Unambiguous secret header) ∧
    ∀ hmac clock body timestamp, IsBinary64 timestamp →
      outOfTolerance clock timestamp defaultToleranceSeconds = false →
      verifySignature hmac clock body (signPayload hmac body secret timestamp) secret
          defaultToleranceSeconds = true ∧
        (verifyWebhookSignature hmac clock body (signPayload hmac body secret timestamp) secret
          defaultToleranceSeconds = .ok true ↔ secret ≠ []) := by
  constructor
  · intro header
    rw [verifiers_agree_iff, readings_agree_iff]
  · intro hmac clock body timestamp double tolerated
    rw [verifySignature_iff, verifyWebhookSignature_iff]
    refine ⟨⟨timestamp, _, nodeReading_signPayload hmac body secret double, tolerated, rfl⟩, ?_⟩
    constructor
    · rintro ⟨_, _, read, -⟩
      exact (sdkReading_eq_some_iff.mp read).1
    · intro keyed
      exact ⟨timestamp, _, sdkReading_signPayload hmac body double keyed, tolerated, rfl⟩

theorem length_noMac : (List.replicate 32 (0 : UInt8)).length = 32 :=
  List.length_replicate

/-- A signature of zeros. -/
def noMac : Text → Text → Mac :=
  fun _ _ => ⟨List.replicate 32 0, length_noMac⟩

/-- A time. -/
def someClock : TimeValue where
  ms := 1700000000000
  inRange := by decide

theorem agree_iff_unambiguous_now :
    verifySignature noMac someClock [] (signPayload noMac [] [0x6B] 1700000000) [0x6B]
        defaultToleranceSeconds = true ∧
      (verifyWebhookSignature noMac someClock [] (signPayload noMac [] [0x6B] 1700000000) [0x6B]
        defaultToleranceSeconds = .ok true ↔ [0x6B] ≠ ([] : Text)) :=
  (agree_iff_unambiguous [0x6B]).2 noMac someClock [] 1700000000
    (by exact_mod_cast isBinary64_intCast (n := 1700000000) (by decide)) (by decide +kernel)

/-- An equals sign behind a genuine signature. -/
theorem trailing_mark_disagrees :
    verifySignature noMac someClock []
        (signPayload noMac [] [0x6B] 1700000000 ++ [0x3D]) [0x6B] defaultToleranceSeconds = true ∧
      verifyWebhookSignature noMac someClock []
        (signPayload noMac [] [0x6B] 1700000000 ++ [0x3D]) [0x6B] defaultToleranceSeconds =
          .ok false := by
  decide +kernel

end RiskRail.Webhooks
