import Mizan.Core.Text
import Mizan.Core.Utf8

namespace Mizan.Connections

-- The functions of the libraries that hide the key of a provider: the digest, the cipher and the
-- text encoding.
structure SecretCrypto where
  sha256 : List UInt8 → List UInt8
  encrypt : (key nonce plaintext : List UInt8) → Except String (List UInt8)
  decrypt : (key nonce ciphertext : List UInt8) → Except String (List UInt8)
  encode : List UInt8 → String
  decode : String → Except String (List UInt8)

def NONCE_BYTES : Nat := 12
def MIN_ENCRYPTED_BYTES : Nat := NONCE_BYTES + 16
def SECRET_CONTEXT : String := "provider-connection-secret-v1"

section Secrets

variable (crypto : SecretCrypto)

def nonceMaterial (providerSecret providerConnectionId : String) : String :=
  s!"{SECRET_CONTEXT}:{providerSecret}:{providerConnectionId}"

def deriveNonce (providerSecret providerConnectionId : String) : List UInt8 :=
  (crypto.sha256 (utf8 (nonceMaterial providerSecret providerConnectionId).toList)).take NONCE_BYTES

-- The key of `provider_cipher`.
def cipherKey (providerSecret : String) : List UInt8 := crypto.sha256 (utf8 providerSecret.toList)

def requireSecret (providerSecret : String) : Except AppError Unit :=
  if providerSecret = "" then
    .error (.invalidConfig "MIZAN_PROVIDER_SECRET_KEY" "provider secret key is required")
  else .ok ()

def requireConnection (providerConnectionId : String) : Except AppError Unit :=
  if trim providerConnectionId = "" then
    .error (.invalidConfig "provider_connection_id" "provider_connection_id is required")
  else .ok ()

def requireKey (key message : String) : Except AppError Unit :=
  if trim key = "" then .error (.invalidConfig "provider_connection.api_key_encrypted" message)
  else .ok ()

-- What the encryption does once its arguments have been checked.
def sealKey (providerSecret providerConnectionId apiKey : String) : Except AppError String := do
  let nonce := deriveNonce crypto providerSecret providerConnectionId
  let payload ← (crypto.encrypt (cipherKey crypto providerSecret) nonce
    (utf8 apiKey.toList)).mapError fun error =>
      .infrastructure s!"provider api key encryption failed: {error}"
  pure (crypto.encode (nonce ++ payload))

def encryptProviderApiKey (providerSecret providerConnectionId apiKey : String) :
    Except AppError String := do
  requireSecret providerSecret
  requireConnection providerConnectionId
  requireKey apiKey "api_key is required"
  sealKey crypto providerSecret providerConnectionId apiKey

-- Slices panic where the bytes are too few.
def sliceTo (count : Nat) (data : List UInt8) : Option (List UInt8) :=
  if count ≤ data.length then some (data.take count) else none

def sliceFrom (count : Nat) (data : List UInt8) : Option (List UInt8) :=
  if count ≤ data.length then some (data.drop count) else none

-- `Nonce::from_slice` panics where the length is not that of a nonce.
def nonceFromSlice (bytes : List UInt8) : Option (List UInt8) :=
  if bytes.length = NONCE_BYTES then some bytes else none

def openKey (providerSecret : String) (nonce ciphertext : List UInt8) : Except AppError String := do
  let plaintext ← (crypto.decrypt (cipherKey crypto providerSecret) nonce ciphertext).mapError
    fun error => .infrastructure s!"provider api key decryption failed: {error}"
  (fromUtf8 plaintext).mapError fun error =>
    .invalidConfig "provider_connection.api_key_encrypted"
      s!"invalid stored key format: {error.toString}"

-- Nothing when the code panics.
def decryptData (providerSecret providerConnectionId : String) (data : List UInt8) :
    Option (Except AppError String) :=
  if data.length < MIN_ENCRYPTED_BYTES then
    some (.error (.invalidConfig "provider_connection.api_key_encrypted"
      "encrypted api key is invalid"))
  else do
    let start ← sliceTo NONCE_BYTES data
    if start ≠ deriveNonce crypto providerSecret providerConnectionId then
      return .error (.invalidConfig "provider_connection.api_key_encrypted"
        "encrypted api key does not match this provider connection")
    let nonce ← nonceFromSlice start
    let ciphertext ← sliceFrom NONCE_BYTES data
    return openKey crypto providerSecret nonce ciphertext

def checkedData (providerSecret providerConnectionId encryptedApiKey : String) :
    Except AppError (List UInt8) := do
  requireSecret providerSecret
  requireConnection providerConnectionId
  requireKey encryptedApiKey "encrypted api key is required"
  (crypto.decode encryptedApiKey).mapError (.invalidConfig "provider_connection.api_key_encrypted")

def decryptProviderApiKey (providerSecret providerConnectionId encryptedApiKey : String) :
    Option (Except AppError String) :=
  match checkedData crypto providerSecret providerConnectionId encryptedApiKey with
  | .error error => some (.error error)
  | .ok data => decryptData crypto providerSecret providerConnectionId data

end Secrets

-- A digest of 32 bytes, a cipher that adds a tag of 16 bytes and takes only what it has made, and a
-- text encoding that reads back only what it writes.
structure SecretCrypto.Correct (crypto : SecretCrypto) : Prop where
  digest : ∀ bytes, (crypto.sha256 bytes).length = 32
  encrypts : ∀ key nonce plaintext, ∃ ciphertext,
    crypto.encrypt key nonce plaintext = .ok ciphertext ∧ ciphertext.length = plaintext.length + 16
  authentic : ∀ key nonce plaintext ciphertext,
    crypto.decrypt key nonce ciphertext = .ok plaintext ↔
      crypto.encrypt key nonce plaintext = .ok ciphertext
  strict : ∀ text bytes, crypto.decode text = .ok bytes ↔ crypto.encode bytes = text
  written : ∀ bytes, bytes ≠ [] → trim (crypto.encode bytes) ≠ ""

-- Two secrets have different digests, two materials have different nonces, and the cipher of one
-- secret refuses what the cipher of another secret has made of the key.
structure SecretCrypto.Apart (crypto : SecretCrypto) (secret connection apiKey : String)
    (secret' connection' : String) : Prop where
  keys : crypto.sha256 (utf8 secret.toList) = crypto.sha256 (utf8 secret'.toList) → secret = secret'
  nonces : deriveNonce crypto secret connection = deriveNonce crypto secret' connection' →
    nonceMaterial secret connection = nonceMaterial secret' connection'
  foreign : ∀ nonce ciphertext, cipherKey crypto secret ≠ cipherKey crypto secret' →
    crypto.encrypt (cipherKey crypto secret) nonce (utf8 apiKey.toList) = .ok ciphertext →
      ∃ error, crypto.decrypt (cipherKey crypto secret') nonce ciphertext = .error error

section RoundTrip

variable {crypto : SecretCrypto} {secret connection apiKey text : String}

theorem length_deriveNonce (hcorrect : crypto.Correct) :
    (deriveNonce crypto secret connection).length = NONCE_BYTES := by
  rw [deriveNonce, List.length_take, hcorrect.digest]
  rfl

theorem sealKey_eq (hcorrect : crypto.Correct) (secret connection apiKey : String) :
    ∃ payload, crypto.encrypt (cipherKey crypto secret) (deriveNonce crypto secret connection)
        (utf8 apiKey.toList) = .ok payload ∧ 16 ≤ payload.length ∧
      sealKey crypto secret connection apiKey =
        .ok (crypto.encode (deriveNonce crypto secret connection ++ payload)) := by
  obtain ⟨payload, hpayload, hlength⟩ := hcorrect.encrypts (cipherKey crypto secret)
    (deriveNonce crypto secret connection) (utf8 apiKey.toList)
  refine ⟨payload, hpayload, by omega, ?_⟩
  rw [sealKey, hpayload]
  rfl

theorem encryptProviderApiKey_eq (hsecret : secret ≠ "") (hconnection : trim connection ≠ "")
    (hkey : trim apiKey ≠ "") : encryptProviderApiKey crypto secret connection apiKey =
      sealKey crypto secret connection apiKey := by
  rw [encryptProviderApiKey, requireSecret, requireConnection, requireKey, if_neg hsecret,
    if_neg hconnection, if_neg hkey]
  rfl

-- The nonce and the rest of enough bytes are cut without a panic.
theorem decryptData_eq {data : List UInt8} (hlength : ¬data.length < MIN_ENCRYPTED_BYTES) :
    decryptData crypto secret connection data = some
      (if data.take NONCE_BYTES ≠ deriveNonce crypto secret connection then
        .error (.invalidConfig "provider_connection.api_key_encrypted"
          "encrypted api key does not match this provider connection")
      else openKey crypto secret (data.take NONCE_BYTES) (data.drop NONCE_BYTES)) := by
  have henough : NONCE_BYTES ≤ data.length := by
    rw [MIN_ENCRYPTED_BYTES] at hlength
    omega
  have hnonce : (data.take NONCE_BYTES).length = NONCE_BYTES := by
    rw [List.length_take]
    omega
  rw [decryptData, if_neg hlength, sliceTo, if_pos henough, sliceFrom, if_pos henough]
  by_cases hmatch : data.take NONCE_BYTES ≠ deriveNonce crypto secret connection
  · rw [if_pos hmatch]
    simp only [Option.bind_eq_bind, Option.bind_some, if_pos hmatch]
    rfl
  · rw [if_neg hmatch]
    simp only [Option.bind_eq_bind, Option.bind_some, if_neg hmatch, nonceFromSlice, if_pos hnonce]
    rfl

theorem decryptProviderApiKey_isSome (crypto : SecretCrypto) (secret connection text : String) :
    (decryptProviderApiKey crypto secret connection text).isSome := by
  unfold decryptProviderApiKey
  split
  · rfl
  · rename_i data _
    by_cases hlength : data.length < MIN_ENCRYPTED_BYTES
    · rw [decryptData, if_pos hlength]
      rfl
    · rw [decryptData_eq hlength]
      rfl

theorem checkedData_ok {data : List UInt8} : checkedData crypto secret connection text = .ok data ↔
    secret ≠ "" ∧ trim connection ≠ "" ∧ trim text ≠ "" ∧ crypto.decode text = .ok data := by
  constructor
  · intro h
    obtain ⟨_, hsecret, h⟩ := except_bind_eq_ok h
    obtain ⟨_, hconnection, h⟩ := except_bind_eq_ok h
    obtain ⟨_, htext, h⟩ := except_bind_eq_ok h
    refine ⟨?_, ?_, ?_, ok_of_mapError h⟩
    · rintro rfl
      cases hsecret
    · intro hblank
      rw [requireConnection, if_pos hblank] at hconnection
      cases hconnection
    · intro hblank
      rw [requireKey, if_pos hblank] at htext
      cases htext
  · rintro ⟨hsecret, hconnection, htext, hdecode⟩
    rw [checkedData, requireSecret, if_neg hsecret, requireConnection, if_neg hconnection,
      requireKey, if_neg htext, hdecode]
    rfl

theorem openKey_ok (hcorrect : crypto.Correct) {nonce ciphertext : List UInt8} :
    openKey crypto secret nonce ciphertext = .ok apiKey ↔
      crypto.encrypt (cipherKey crypto secret) nonce (utf8 apiKey.toList) = .ok ciphertext := by
  rw [← hcorrect.authentic]
  constructor
  · intro h
    obtain ⟨plaintext, hplaintext, h⟩ := except_bind_eq_ok h
    rw [← utf8_of_fromUtf8 (ok_of_mapError h)]
    exact ok_of_mapError hplaintext
  · intro h
    rw [openKey, h]
    change (fromUtf8 (utf8 apiKey.toList)).mapError _ = _
    rw [fromUtf8_utf8]
    rfl

-- What is decrypted is what the encryption makes of a key, blank or not.
theorem decryptProviderApiKey_ok (hcorrect : crypto.Correct) (hsecret : secret ≠ "")
    (hconnection : trim connection ≠ "") :
    decryptProviderApiKey crypto secret connection text = some (.ok apiKey) ↔
      sealKey crypto secret connection apiKey = .ok text := by
  obtain ⟨payload, hpayload, hlength, hseal⟩ := sealKey_eq hcorrect secret connection apiKey
  have hnonce := @length_deriveNonce crypto secret connection hcorrect
  rw [hseal]
  constructor
  · intro h
    rw [decryptProviderApiKey] at h
    split at h
    · cases h
    · rename_i data hdata
      obtain ⟨-, -, -, hdecode⟩ := checkedData_ok.mp hdata
      by_cases hshort : data.length < MIN_ENCRYPTED_BYTES
      · rw [decryptData, if_pos hshort] at h
        cases h
      · rw [decryptData_eq hshort] at h
        by_cases hmatch : data.take NONCE_BYTES ≠ deriveNonce crypto secret connection
        · rw [if_pos hmatch] at h
          cases h
        · rw [if_neg hmatch] at h
          have hopened := (openKey_ok hcorrect).mp (Option.some.inj h)
          rw [not_not.mp hmatch, hpayload] at hopened
          have hjoined : deriveNonce crypto secret connection ++ payload = data := by
            rw [Except.ok.inj hopened, ← not_not.mp hmatch, List.take_append_drop]
          rw [hjoined, (hcorrect.strict text data).mp hdecode]
  · intro h
    have htext := Except.ok.inj h
    have hdecode := (hcorrect.strict text _).mpr htext
    have hne : deriveNonce crypto secret connection ++ payload ≠ [] := by
      intro hempty
      have hzero := congrArg List.length hempty
      rw [List.length_append, List.length_nil] at hzero
      omega
    have hwritten := hcorrect.written _ hne
    rw [htext] at hwritten
    have hchecked := checkedData_ok.mpr ⟨hsecret, hconnection, hwritten, hdecode⟩
    have henough : ¬(deriveNonce crypto secret connection ++ payload).length <
        MIN_ENCRYPTED_BYTES := by
      rw [List.length_append, hnonce, MIN_ENCRYPTED_BYTES]
      omega
    have hstart : (deriveNonce crypto secret connection ++ payload).take NONCE_BYTES =
        deriveNonce crypto secret connection := by rw [← hnonce, List.take_left]
    have hrest : (deriveNonce crypto secret connection ++ payload).drop NONCE_BYTES = payload := by
      rw [← hnonce, List.drop_left]
    rw [decryptProviderApiKey, hchecked]
    simp only [decryptData_eq henough, hstart, hrest, ne_eq, not_true_eq_false, if_false,
      (openKey_ok hcorrect).mpr hpayload]

theorem exists_error_of_not_ok
    (h : ∀ apiKey, decryptProviderApiKey crypto secret connection text ≠ some (.ok apiKey)) :
    ∃ error, decryptProviderApiKey crypto secret connection text = some (.error error) := by
  obtain ⟨result, hresult⟩ := Option.isSome_iff_exists.mp
    (decryptProviderApiKey_isSome crypto secret connection text)
  cases result with
  | ok apiKey => exact absurd hresult (h apiKey)
  | error error => exact ⟨error, hresult⟩

theorem checks_of_decrypted (h : decryptProviderApiKey crypto secret connection text =
    some (.ok apiKey)) : secret ≠ "" ∧ trim connection ≠ "" := by
  rw [decryptProviderApiKey] at h
  split at h
  · cases h
  · rename_i data hdata
    obtain ⟨hsecret, hconnection, -⟩ := checkedData_ok.mp hdata
    exact ⟨hsecret, hconnection⟩

theorem nonceMaterial_injective {connection' : String}
    (h : nonceMaterial secret connection = nonceMaterial secret connection') :
    connection = connection' := by
  have hlist := congrArg String.toList h
  simp only [nonceMaterial, String.toList_append] at hlist
  exact String.toList_inj.mp (List.append_cancel_left hlist)

theorem decrypt_foreign (hcorrect : crypto.Correct) {secret' connection' : String}
    (hsealed : sealKey crypto secret connection apiKey = .ok text)
    (hother : (secret', connection') ≠ (secret, connection))
    (hapart : crypto.Apart secret connection apiKey secret' connection') :
    ∃ error, decryptProviderApiKey crypto secret' connection' text = some (.error error) := by
  refine exists_error_of_not_ok fun other h => ?_
  obtain ⟨hsecret', hconnection'⟩ := checks_of_decrypted h
  have hsealed' := (decryptProviderApiKey_ok hcorrect hsecret' hconnection').mp h
  obtain ⟨payload, hpayload, -, hseal⟩ := sealKey_eq hcorrect secret connection apiKey
  obtain ⟨payload', hpayload', -, hseal'⟩ := sealKey_eq hcorrect secret' connection' other
  have hencoded := Except.ok.inj (hseal.symm.trans hsealed)
  have hencoded' := Except.ok.inj (hseal'.symm.trans hsealed')
  have hdata := (hcorrect.strict text _).mpr hencoded
  have hdata' := (hcorrect.strict text _).mpr hencoded'
  have hbytes := Except.ok.inj (hdata.symm.trans hdata')
  have hlengths : (deriveNonce crypto secret connection).length =
      (deriveNonce crypto secret' connection').length := by
    rw [length_deriveNonce hcorrect, length_deriveNonce hcorrect]
  obtain ⟨hnonces, rfl⟩ := List.append_inj hbytes hlengths
  have hmaterial := hapart.nonces hnonces
  by_cases hsecrets : secret = secret'
  · subst hsecrets
    exact hother (by rw [nonceMaterial_injective hmaterial])
  · have hkeys : cipherKey crypto secret ≠ cipherKey crypto secret' :=
      fun hkeys => hsecrets (hapart.keys hkeys)
    obtain ⟨error, herror⟩ := hapart.foreign _ payload hkeys hpayload
    rw [hnonces, (hcorrect.authentic _ _ _ _).mpr hpayload'] at herror
    cases herror

end RoundTrip

-- A stored text is decrypted to a key exactly when it is what the encryption makes of the key, and
-- only under the secret and the connection of the key.
theorem provider_secrets_are_bound (crypto : SecretCrypto) (hcorrect : crypto.Correct) :
    (∀ secret connection apiKey, secret ≠ "" → trim connection ≠ "" → trim apiKey ≠ "" →
      ∃ text, encryptProviderApiKey crypto secret connection apiKey = .ok text ∧
        decryptProviderApiKey crypto secret connection text = some (.ok apiKey) ∧
        ∀ secret' connection', (secret', connection') ≠ (secret, connection) →
          crypto.Apart secret connection apiKey secret' connection' →
          ∃ error, decryptProviderApiKey crypto secret' connection' text = some (.error error)) ∧
    (∀ secret connection text, (∀ apiKey, sealKey crypto secret connection apiKey ≠ .ok text) →
      ∃ error, decryptProviderApiKey crypto secret connection text = some (.error error)) ∧
    ∀ secret connection text, (decryptProviderApiKey crypto secret connection text).isSome := by
  refine ⟨fun secret connection apiKey hsecret hconnection hkey => ?_,
    fun secret connection text hforeign => ?_, decryptProviderApiKey_isSome crypto⟩
  · obtain ⟨payload, -, -, hseal⟩ := sealKey_eq hcorrect secret connection apiKey
    refine ⟨_, (encryptProviderApiKey_eq hsecret hconnection hkey).trans hseal,
      (decryptProviderApiKey_ok hcorrect hsecret hconnection).mpr hseal, ?_⟩
    intro secret' connection' hother hapart
    exact decrypt_foreign hcorrect hseal hother hapart
  · refine exists_error_of_not_ok fun apiKey h => ?_
    obtain ⟨hsecret, hconnection⟩ := checks_of_decrypted h
    exact hforeign apiKey ((decryptProviderApiKey_ok hcorrect hsecret hconnection).mp h)

section Sample

def sampleSecret : String := "phase-1-secret-key"
def sampleApiKey : String := "sk-live-abc"

-- SHA-256 of the secret, and of the nonce material of the connections `c1` and `c2`.
def secretDigest : List UInt8 :=
  [0x29, 0x1F, 0xBB, 0x53, 0xCA, 0xC2, 0x21, 0xCF, 0x7F, 0xB7, 0x4C, 0x57, 0x63, 0x0C, 0x86, 0x73,
   0xF2, 0xE3, 0x4C, 0x1E, 0xEF, 0x2E, 0x99, 0x28, 0xA4, 0x34, 0x90, 0x84, 0x79, 0x3B, 0xD3, 0x27]

def firstDigest : List UInt8 :=
  [0xCD, 0x7C, 0xF3, 0xB0, 0x72, 0xD2, 0xB1, 0x13, 0x87, 0x67, 0xA3, 0x03, 0x6D, 0x08, 0x91, 0xBD,
   0x43, 0xAD, 0x76, 0xAE, 0x82, 0x05, 0xEC, 0x38, 0xE7, 0x26, 0x64, 0x91, 0x4D, 0x49, 0x20, 0xC2]

def secondDigest : List UInt8 :=
  [0x3D, 0x60, 0x9B, 0x9A, 0x62, 0x9C, 0xAC, 0x19, 0x6B, 0xDA, 0x37, 0xC6, 0x3F, 0xC3, 0x41, 0xBC,
   0x41, 0x33, 0xD6, 0x30, 0x97, 0xD8, 0x96, 0x59, 0x58, 0xE5, 0x23, 0x08, 0x92, 0x45, 0x76, 0xD2]

-- AES-256-GCM of the key under the first two digests, and the text that is stored.
def sampleCiphertext : List UInt8 :=
  [0x8A, 0xFF, 0xFE, 0x4A, 0xB8, 0xD7, 0xD3, 0x8C, 0x61, 0x87, 0x28, 0xC3, 0xC3, 0x13, 0xD7, 0xE6,
   0x38, 0xBC, 0x08, 0x8B, 0x76, 0x98, 0x30, 0x09, 0xEB, 0x8D, 0x38]

def sampleStored : String := "zXzzsHLSsROHZ6MDiv/+SrjX04xhhyjDwxPX5ji8CIt2mDAJ6404"

def sampleTag : List UInt8 := List.replicate 16 0

def sampleEncrypt (key nonce plaintext : List UInt8) : List UInt8 :=
  if key = secretDigest ∧ nonce = firstDigest.take NONCE_BYTES ∧
      plaintext = utf8 sampleApiKey.toList then sampleCiphertext
  else plaintext ++ sampleTag

def sampleEncode (bytes : List UInt8) : String :=
  if bytes = firstDigest.take NONCE_BYTES ++ sampleCiphertext then sampleStored
  else String.ofList (bytes.map fun byte => Char.ofNat (byte.toNat + 192))

-- The libraries on the sample, and simpler functions with the same laws elsewhere.
def sampleCrypto : SecretCrypto where
  sha256 bytes :=
    if bytes = utf8 sampleSecret.toList then secretDigest
    else if bytes = utf8 (nonceMaterial sampleSecret "c1").toList then firstDigest
    else if bytes = utf8 (nonceMaterial sampleSecret "c2").toList then secondDigest
    else (bytes ++ List.replicate 32 0).take 32
  encrypt key nonce plaintext := .ok (sampleEncrypt key nonce plaintext)
  decrypt key nonce ciphertext :=
    if sampleEncrypt key nonce (utf8 sampleApiKey.toList) = ciphertext then
      .ok (utf8 sampleApiKey.toList)
    else if sampleEncrypt key nonce (ciphertext.take (ciphertext.length - 16)) = ciphertext then
      .ok (ciphertext.take (ciphertext.length - 16))
    else .error "aead::Error"
  encode := sampleEncode
  decode text :=
    if text = sampleStored then .ok (firstDigest.take NONCE_BYTES ++ sampleCiphertext)
    else
      let bytes := text.toList.map fun c => UInt8.ofNat (c.toNat - 192)
      if sampleEncode bytes = text then .ok bytes else .error "Invalid symbol"

theorem sampleEncrypt_injective {key nonce plaintext plaintext' : List UInt8}
    (h : sampleEncrypt key nonce plaintext = sampleEncrypt key nonce plaintext') :
    plaintext = plaintext' := by
  have hlast : ∀ other : List UInt8, sampleCiphertext ≠ other ++ sampleTag := by
    intro other heq
    have hbyte := congrArg List.getLast? heq
    rw [sampleTag, List.getLast?_append_of_ne_nil _ (by decide)] at hbyte
    exact absurd hbyte (by decide)
  unfold sampleEncrypt at h
  split at h
  · rename_i hsample
    split at h
    · rename_i hsample'
      exact hsample.2.2.trans hsample'.2.2.symm
    · exact absurd h (hlast plaintext')
  · split at h
    · exact absurd h.symm (hlast plaintext)
    · exact List.append_cancel_right h

theorem toNat_shifted (byte : UInt8) :
    (Char.ofNat (byte.toNat + 192)).toNat = byte.toNat + 192 := by
  have hlt := byte.toNat_lt
  have hvalid : (byte.toNat + 192).isValidChar := .inl (by omega)
  rw [Char.ofNat, dif_pos hvalid]
  rfl

theorem shifted_ne_stored (bytes : List UInt8) :
    String.ofList (bytes.map fun byte => Char.ofNat (byte.toNat + 192)) ≠ sampleStored := by
  intro heq
  have hchars := congrArg String.toList heq
  rw [String.toList_ofList] at hchars
  have hmem : 'z' ∈ bytes.map fun byte => Char.ofNat (byte.toNat + 192) := by
    rw [hchars]
    decide
  obtain ⟨byte, -, hbyte⟩ := List.mem_map.mp hmem
  have hnat := congrArg Char.toNat hbyte
  rw [toNat_shifted] at hnat
  have hz : 'z'.toNat = 122 := rfl
  omega

theorem sampleCrypto_strict (text : String) (bytes : List UInt8) :
    sampleCrypto.decode text = .ok bytes ↔ sampleCrypto.encode bytes = text := by
  simp only [sampleCrypto]
  constructor
  · intro h
    split at h
    · rename_i hstored
      cases h
      rw [sampleEncode, if_pos rfl, hstored]
    · split at h
      · rename_i hencoded
        cases h
        exact hencoded
      · cases h
  · rintro rfl
    by_cases hsample : bytes = firstDigest.take NONCE_BYTES ++ sampleCiphertext
    · rw [sampleEncode, if_pos hsample, if_pos rfl, hsample]
    · have hencoded : sampleEncode bytes =
          String.ofList (bytes.map fun byte => Char.ofNat (byte.toNat + 192)) := by
        rw [sampleEncode, if_neg hsample]
      have hback : (sampleEncode bytes).toList.map (fun c => UInt8.ofNat (c.toNat - 192)) =
          bytes := by
        rw [hencoded, String.toList_ofList, List.map_map]
        have hid : ((fun c : Char => UInt8.ofNat (c.toNat - 192)) ∘ fun byte : UInt8 =>
            Char.ofNat (byte.toNat + 192)) = id := by
          funext byte
          simp only [Function.comp_apply, toNat_shifted, Nat.add_sub_cancel, UInt8.ofNat_toNat, id]
        rw [hid, List.map_id]
      have hother : sampleEncode bytes ≠ sampleStored := by
        rw [hencoded]
        exact shifted_ne_stored bytes
      rw [if_neg hother, hback, if_pos rfl]

theorem sampleCrypto_correct : sampleCrypto.Correct where
  digest bytes := by
    simp only [sampleCrypto]
    split
    · rfl
    · split
      · rfl
      · split
        · rfl
        · rw [List.length_take, List.length_append, List.length_replicate]
          omega
  encrypts key nonce plaintext := by
    refine ⟨sampleEncrypt key nonce plaintext, rfl, ?_⟩
    unfold sampleEncrypt
    split
    · rename_i hsample
      rw [hsample.2.2]
      decide +kernel
    · rw [List.length_append, sampleTag, List.length_replicate]
  authentic key nonce plaintext ciphertext := by
    have hencrypt : sampleCrypto.encrypt key nonce plaintext =
        .ok (sampleEncrypt key nonce plaintext) := rfl
    rw [hencrypt, Except.ok.injEq]
    simp only [sampleCrypto]
    constructor
    · intro h
      split at h
      · rename_i hsample
        cases h
        exact hsample
      · split at h
        · rename_i hplain
          cases h
          exact hplain
        · cases h
    · rintro rfl
      by_cases hsample : sampleEncrypt key nonce (utf8 sampleApiKey.toList) =
          sampleEncrypt key nonce plaintext
      · rw [if_pos hsample, sampleEncrypt_injective hsample]
      · have hplain : sampleEncrypt key nonce plaintext = plaintext ++ sampleTag := by
          unfold sampleEncrypt
          apply if_neg
          rintro ⟨-, -, rfl⟩
          exact hsample rfl
        have htake : (sampleEncrypt key nonce plaintext).take
            ((sampleEncrypt key nonce plaintext).length - 16) = plaintext := by
          rw [hplain, List.length_append, sampleTag, List.length_replicate, Nat.add_sub_cancel,
            List.take_left]
        rw [if_neg hsample, htake, if_pos rfl]
  strict := sampleCrypto_strict
  written bytes hne := by
    change trim (sampleEncode bytes) ≠ ""
    unfold sampleEncode
    split
    · decide +kernel
    · have hfree : ∀ c ∈ (String.ofList (bytes.map fun byte =>
          Char.ofNat (byte.toNat + 192))).toList, isWhitespace c = false := by
        intro c hc
        rw [String.toList_ofList] at hc
        obtain ⟨byte, -, rfl⟩ := List.mem_map.mp hc
        have hlt := byte.toNat_lt
        have hnat := toNat_shifted byte
        simp only [isWhitespace, hnat, Bool.or_eq_false_iff, Bool.and_eq_false_iff,
          decide_eq_false_iff_not, beq_eq_false_iff_ne]
        omega
      rw [trim_of_free hfree]
      intro hempty
      have hlist := congrArg String.toList hempty
      rw [String.toList_ofList] at hlist
      exact hne (by simpa using hlist)

theorem sample_secret_is_bound :
    encryptProviderApiKey sampleCrypto sampleSecret "c1" sampleApiKey = .ok sampleStored ∧
      decryptProviderApiKey sampleCrypto sampleSecret "c1" sampleStored = some (.ok sampleApiKey) ∧
      ∃ error, decryptProviderApiKey sampleCrypto sampleSecret "c2" sampleStored =
        some (.error error) := by
  have hstored : encryptProviderApiKey sampleCrypto sampleSecret "c1" sampleApiKey =
      .ok sampleStored := by decide +kernel
  have hnonces : deriveNonce sampleCrypto sampleSecret "c1" ≠
      deriveNonce sampleCrypto sampleSecret "c2" := by decide +kernel
  obtain ⟨text, hencrypt, hdecrypt, hforeign⟩ :=
    (provider_secrets_are_bound sampleCrypto sampleCrypto_correct).1 sampleSecret "c1" sampleApiKey
      (by decide) (by decide) (by decide +kernel)
  obtain rfl := Except.ok.inj (hencrypt.symm.trans hstored)
  exact ⟨hstored, hdecrypt, hforeign sampleSecret "c2" (by decide)
    ⟨fun _ => rfl, fun heq => absurd heq hnonces, fun _ _ hne => absurd rfl hne⟩⟩

-- The encryption refuses a blank key, but the decryption takes what it would have made of one.
theorem blank_key_is_decrypted : ∃ text,
    decryptProviderApiKey sampleCrypto sampleSecret "c1" text = some (.ok "") ∧
      ∀ apiKey, encryptProviderApiKey sampleCrypto sampleSecret "c1" apiKey ≠ .ok text := by
  obtain ⟨payload, -, -, hseal⟩ := sealKey_eq sampleCrypto_correct sampleSecret "c1" ""
  have hok : ∀ {text apiKey}, decryptProviderApiKey sampleCrypto sampleSecret "c1" text =
      some (.ok apiKey) ↔ sealKey sampleCrypto sampleSecret "c1" apiKey = .ok text :=
    decryptProviderApiKey_ok sampleCrypto_correct (by decide) (by decide)
  refine ⟨_, hok.mpr hseal, fun apiKey hencrypt => ?_⟩
  obtain ⟨_, -, hencrypt⟩ := except_bind_eq_ok hencrypt
  obtain ⟨_, -, hencrypt⟩ := except_bind_eq_ok hencrypt
  obtain ⟨_, hkey, hencrypt⟩ := except_bind_eq_ok hencrypt
  have hdecrypted := (hok.mpr hseal).symm.trans (hok.mpr hencrypt)
  obtain rfl := Except.ok.inj (Option.some.inj hdecrypted)
  rw [requireKey, if_pos (by decide)] at hkey
  cases hkey

end Sample

end Mizan.Connections
