import RiskRail.Auth.ApiKeys
import RiskRail.Javascript.Base64
import RiskRail.Javascript.DecodeUtf8

/-!
# Secrets at rest

The worker has to sign with the secret of an endpoint, so the secret is encrypted rather than
hashed.  What is stored are three texts in base64url with points between them.  The reader
takes an empty part for a missing one, and an empty secret has no ciphertext.
-/

namespace RiskRail.Webhooks

open RiskRail.Javascript Text
open RiskRail.Auth.Bearer (longEnough)

/-- `scryptSync`, and AES-256-GCM with its tag. -/
structure Crypto where
  scrypt : (password salt : List UInt8) → (length : ℕ) → List UInt8
  encrypt : (key iv plain : List UInt8) → List UInt8 × List UInt8
  decrypt : (key iv tag data : List UInt8) → Except String (List UInt8)
  length_data : ∀ key iv plain, (encrypt key iv plain).1.length = plain.length
  length_tag : ∀ key iv plain, (encrypt key iv plain).2.length = 16
  decrypt_encrypt : ∀ key iv plain,
    decrypt key iv (encrypt key iv plain).2 (encrypt key iv plain).1 = .ok plain

/-- What `randomBytes(12)` returns. -/
structure Iv where
  bytes : List UInt8
  length_eq : bytes.length = 12

/-- The salt of the key. -/
def salt : Text :=
  ofString "rivisk.webhooks.v1"

section

variable (crypto : Crypto) (material : Option Text)

/-- `key()`, from `WEBHOOK_ENCRYPTION_KEY`. -/
def key : Except String (List UInt8) := do
  let material ←
    longEnough material "WEBHOOK_ENCRYPTION_KEY must be set to at least 32 characters"
  return crypto.scrypt (utf8Bytes material) (utf8Bytes salt) 32

/-- Returns `iv.tag.ciphertext`, all base64url. -/
def encryptSecret (iv : Iv) (plaintext : Text) : Except String Text := do
  let key ← key crypto material
  let (data, tag) := crypto.encrypt key iv.bytes (utf8Bytes plaintext)
  return base64Text iv.bytes ++ 0x2E :: (base64Text tag ++ 0x2E :: base64Text data)

/-- The three parts of what is stored, decrypted. -/
def decryptSecret (stored : Text) : Except String Text :=
  let parts := stored.splitOn 0x2E
  let iv := parts[0]?.getD []
  let tag := parts[1]?.getD []
  let data := parts[2]?.getD []
  if iv = [] ∨ tag = [] ∨ data = [] then .error "Malformed webhook secret"
  else do
    let key ← key crypto material
    let plain ← crypto.decrypt key (bufferFromBase64 iv) (bufferFromBase64 tag)
      (bufferFromBase64 data)
    return decode plain

end

variable {crypto : Crypto} {material : Option Text} {iv : Iv} {plaintext stored : Text}

theorem dot_notMem_base64Text (bytes : List UInt8) : 0x2E ∉ base64Text bytes := fun member =>
  base64Value_of_mem_base64Text member rfl

theorem base64Text_ne_nil {bytes : List UInt8} {n : ℕ} (length : bytes.length = n + 1) :
    base64Text bytes ≠ [] := by
  intro empty
  rw [base64Text_eq_nil_iff.mp empty] at length
  cases length

/-- The three parts of what is stored. -/
theorem splitOn_parts (first second third : List UInt8) :
    (base64Text first ++ 0x2E :: (base64Text second ++ 0x2E :: base64Text third)).splitOn 0x2E =
      [base64Text first, base64Text second, base64Text third] := by
  rw [List.splitOn_append_cons_self_of_not_mem (dot_notMem_base64Text first),
    List.splitOn_append_cons_self_of_not_mem (dot_notMem_base64Text second),
    List.splitOn_eq_singleton (dot_notMem_base64Text third)]

theorem encryptSecret_eq_ok_iff :
    encryptSecret crypto material iv plaintext = .ok stored ↔
      ∃ bytes, key crypto material = .ok bytes ∧
        base64Text iv.bytes ++ 0x2E ::
          (base64Text (crypto.encrypt bytes iv.bytes (utf8Bytes plaintext)).2 ++ 0x2E ::
            base64Text (crypto.encrypt bytes iv.bytes (utf8Bytes plaintext)).1) = stored := by
  unfold encryptSecret
  cases key crypto material with
  | error error => simp [bind, Except.bind]
  | ok bytes => simp [bind, Except.bind, pure, Except.pure]

/-- What is stored is read as the scalar values of the secret, if there are any. -/
theorem decryptSecret_of_encryptSecret
    (encrypted : encryptSecret crypto material iv plaintext = .ok stored) :
    decryptSecret crypto material stored =
      if plaintext = [] then .error "Malformed webhook secret"
      else .ok ((scalars plaintext).flatMap ofChar) := by
  obtain ⟨bytes, keyed, rfl⟩ := encryptSecret_eq_ok_iff.mp encrypted
  have iv_ne := base64Text_ne_nil iv.length_eq
  have tag_ne := base64Text_ne_nil (crypto.length_tag bytes iv.bytes (utf8Bytes plaintext))
  have data_iff : base64Text (crypto.encrypt bytes iv.bytes (utf8Bytes plaintext)).1 = [] ↔
      plaintext = [] := by
    rw [base64Text_eq_nil_iff, ← List.length_eq_zero_iff, crypto.length_data,
      List.length_eq_zero_iff, utf8Bytes_eq_nil_iff]
  unfold decryptSecret
  simp only [splitOn_parts, List.getElem?_cons_zero, List.getElem?_cons_succ, Option.getD_some,
    iv_ne, tag_ne, false_or, data_iff, keyed, bufferFromBase64_base64Text]
  split
  next => rfl
  next =>
    simp only [bind, Except.bind, crypto.decrypt_encrypt, pure, Except.pure]
    rw [decode_utf8Bytes]

/-- A stored secret is read back exactly if it is not empty and has no unpaired surrogate. -/
theorem decryptSecret_eq_ok_iff
    (encrypted : encryptSecret crypto material iv plaintext = .ok stored) :
    decryptSecret crypto material stored = .ok plaintext ↔
      plaintext ≠ [] ∧ WellFormed plaintext := by
  rw [decryptSecret_of_encryptSecret encrypted]
  split
  next empty => simp [empty]
  next nonempty =>
    rw [Except.ok.injEq]
    constructor
    · intro same
      exact ⟨nonempty, scalars plaintext, same.symm⟩
    · rintro ⟨-, chars, rfl⟩
      rw [scalars_flatMap]

/-! ## A cipher -/

theorem length_zeros : (List.replicate 16 (0 : UInt8)).length = 16 :=
  List.length_replicate

/-- A cipher that leaves its text as it is, under a tag of zeros. -/
def plainCrypto : Crypto where
  scrypt _ _ length := List.replicate length 0
  encrypt _ _ plain := (plain, List.replicate 16 0)
  decrypt _ _ tag data := if tag.length = 16 then .ok data else .error "Invalid tag"
  length_data _ _ _ := rfl
  length_tag _ _ _ := length_zeros
  decrypt_encrypt _ _ _ := if_pos length_zeros

/-- An initialisation vector. -/
def someIv : Iv where
  bytes := List.replicate 12 0
  length_eq := List.length_replicate

/-- A key that is long enough. -/
def someMaterial : Text :=
  List.replicate 32 0x6B

theorem decryptSecret_eq_ok_iff_plain :
    ∃ stored, encryptSecret plainCrypto (some someMaterial) someIv (ofString "whsec_é") =
        .ok stored ∧
      (decryptSecret plainCrypto (some someMaterial) stored = .ok (ofString "whsec_é") ↔
        ofString "whsec_é" ≠ [] ∧ WellFormed (ofString "whsec_é")) := by
  have keyed : key plainCrypto (some someMaterial) = .ok (List.replicate 32 0) := rfl
  have encrypted := (@encryptSecret_eq_ok_iff _ _ someIv (ofString "whsec_é") _).mpr
    ⟨_, keyed, rfl⟩
  exact ⟨_, encrypted, decryptSecret_eq_ok_iff encrypted⟩

end RiskRail.Webhooks
