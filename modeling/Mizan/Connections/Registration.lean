import Mizan.Connections.Create

namespace Mizan.Connections

open Json (Codec Value)

section Registration

variable {codec : Codec} {crypto : SecretCrypto} {words : Auth.Crypto}
  {surroundings : Surroundings} {actor : Uuid} {payload : ProviderConnectionCreateRequest}
  {tables : ProviderTables}

def Succeeds (codec : Codec) (crypto : SecretCrypto) (words : Auth.Crypto)
    (surroundings : Surroundings) (actor : Uuid) (payload : ProviderConnectionCreateRequest)
    (tables : ProviderTables) : Prop :=
  ∃ response after,
    createProviderConnection codec crypto words surroundings actor payload tables =
      (.ok response, after)

-- The row has no key in it, or an empty one.
def NoSecretMaterial (crypto : SecretCrypto) (key : String) (row : ProviderConnectionRow) : Prop :=
  row.apiKeyEncrypted = "" ∨ sealKey crypto key row.id "" = .ok row.apiKeyEncrypted

-- What registration is to do with a request whose mode and config are fine.
def Registers (codec : Codec) (crypto : SecretCrypto) (words : Auth.Crypto)
    (surroundings : Surroundings) (actor : Uuid) (payload : ProviderConnectionCreateRequest)
    (tables : ProviderTables) (key authMode : String) (authConfigJson : Option String) : Prop :=
  if authMode = AUTH_MODE_API_KEY then
    (Succeeds codec crypto words surroundings actor payload tables ↔
      trim (payload.baseUrl.getD "") ≠ "" ∧ trim (payload.apiKeyEncrypted.getD "") ≠ "")
  else ∃ response after row,
    createProviderConnection codec crypto words surroundings actor payload tables =
        (.ok response, after) ∧
      after.connections = tables.connections ++ [row] ∧ row.authMode = authMode ∧
      row.authConfigJson = authConfigJson ∧ NoSecretMaterial crypto key row

-- The encryption refuses a blank key whatever the rest.
theorem encryptProviderApiKey_blank {secret connection apiKey text : String}
    (hblank : trim apiKey = "") :
    encryptProviderApiKey crypto secret connection apiKey ≠ .ok text := by
  intro h
  obtain ⟨_, -, h⟩ := except_bind_eq_ok h
  obtain ⟨_, -, h⟩ := except_bind_eq_ok h
  obtain ⟨_, hkey, -⟩ := except_bind_eq_ok h
  rw [requireKey, if_pos hblank] at hkey
  cases hkey

-- Without a key there is nothing to encrypt, and the encryption refuses that.
theorem not_succeeds_of_other_mode {authMode : String}
    (hmode : normalizeAuthMode payload.authMode = .ok authMode)
    (hother : authMode ≠ AUTH_MODE_API_KEY) :
    ¬Succeeds codec crypto words surroundings actor payload tables := by
  rintro ⟨response, after, h⟩
  obtain ⟨row, -, hrow, -⟩ := create_ok.mp h
  obtain ⟨mode, -, key, encrypted, hmode', -, -, -, -, -, -, hencrypted, -⟩ := checkedRow_ok.mp hrow
  obtain rfl := Except.ok.inj (hmode.symm.trans hmode')
  rw [ProviderConnectionCreateRequest.secretMaterial, if_neg hother] at hencrypted
  exact encryptProviderApiKey_blank (by decide) hencrypted

theorem succeeds_iff_of_api_key (hcrypto : crypto.Correct) {key : String}
    (hmode : normalizeAuthMode payload.authMode = .ok AUTH_MODE_API_KEY)
    (hname : trim payload.name ≠ "") (htype : trim payload.providerType ≠ "")
    (hkey : surroundings.providerSecretKey = some key) (hkeyne : key ≠ "")
    (hfault : surroundings.insertFault = none)
    (hfree : ∀ other ∈ tables.connections,
      other.id ≠ surroundings.id.toString ∧ other.name ≠ trim payload.name) :
    Succeeds codec crypto words surroundings actor payload tables ↔
      payload.trimmedBaseUrl ≠ "" ∧ payload.secret ≠ "" := by
  constructor
  · rintro ⟨response, after, h⟩
    obtain ⟨row, -, hrow, -⟩ := create_ok.mp h
    obtain ⟨mode, -, -, -, hmode', -, -, -, hurl, hsecret, -⟩ := checkedRow_ok.mp hrow
    obtain rfl := Except.ok.inj (hmode.symm.trans hmode')
    exact ⟨hurl rfl, hsecret rfl⟩
  · rintro ⟨hurl, hsecret⟩
    have hconnection : trim surroundings.id.toString ≠ "" := by
      rw [trim_toString]
      exact Uuid.toString_ne_empty _
    have htrimmed : trim payload.secret ≠ "" := by
      rw [ProviderConnectionCreateRequest.secret, trim_trim]
      exact hsecret
    obtain ⟨payload', -, -, hseal⟩ :=
      sealKey_eq hcrypto key surroundings.id.toString payload.secret
    have hencrypted := (encryptProviderApiKey_eq hkeyne hconnection htrimmed).trans hseal
    have hmaterial : payload.secretMaterial AUTH_MODE_API_KEY = payload.secret := if_pos rfl
    rw [← hmaterial] at hencrypted
    have hconfig : normalizeAuthConfig codec AUTH_MODE_API_KEY payload.authConfigJson = .ok none :=
      if_pos rfl
    have hrow := checkedRow_ok.mpr ⟨_, none, key, _, hmode, hconfig, hname, htype, fun _ => hurl,
      fun _ => hsecret, hkey, hencrypted, rfl⟩
    exact ⟨_, _, create_ok.mpr
      ⟨_, _, hrow, insertConnection_ok.mpr ⟨hfault, hfree, rfl⟩, rfl, rfl⟩⟩

-- The code keeps what is said of registration for the mode with a key and never for another mode.
theorem registration_works_iff (codec : Codec) (crypto : SecretCrypto) (words : Auth.Crypto)
    (surroundings : Surroundings) (actor : Uuid) (payload : ProviderConnectionCreateRequest)
    (tables : ProviderTables) (key authMode : String) (authConfigJson : Option String)
    (hcrypto : crypto.Correct) (hmode : normalizeAuthMode payload.authMode = .ok authMode)
    (_hconfig : normalizeAuthConfig codec authMode payload.authConfigJson = .ok authConfigJson)
    (hname : trim payload.name ≠ "") (htype : trim payload.providerType ≠ "")
    (hkey : surroundings.providerSecretKey = some key) (hkeyne : key ≠ "")
    (hfault : surroundings.insertFault = none)
    (hfree : ∀ other ∈ tables.connections,
      other.id ≠ surroundings.id.toString ∧ other.name ≠ trim payload.name) :
    Registers codec crypto words surroundings actor payload tables key authMode authConfigJson ↔
      authMode = AUTH_MODE_API_KEY := by
  rw [Registers]
  by_cases hapi : authMode = AUTH_MODE_API_KEY
  · subst hapi
    rw [if_pos rfl, iff_true_intro rfl, iff_true]
    exact succeeds_iff_of_api_key hcrypto hmode hname htype hkey hkeyne hfault hfree
  · rw [if_neg hapi, iff_false_intro hapi, iff_false]
    rintro ⟨response, after, -, hcreated, -⟩
    exact not_succeeds_of_other_mode hmode hapi ⟨response, after, hcreated⟩

end Registration

def lowercaseCrypto : Auth.Crypto where
  toLowercase text := text
  sha256 bytes := bytes
  bcryptHash _ password := password
  bcryptVerify _ _ := .ok false

def firstRequest : Surroundings where
  providerSecretKey := some "mizan-secret"
  id := ⟨1⟩
  now := "1700000000"
  uniqueError := "UNIQUE constraint failed: provider_connections.name"
  insertFault := none
  auditFault := none

def noConnections : ProviderTables := ⟨[], []⟩

def cliPayload : ProviderConnectionCreateRequest where
  name := "gemini-cli"
  providerType := "gemini"
  baseUrl := none
  apiKeyEncrypted := none
  authMode := some "subscription_cli"
  authConfigJson := some referenceConfig
  enabled := none

-- A registration without a key, as the documents describe it, ends in the error of the encryption.
theorem cli_registration_is_refused :
    createProviderConnection referenceCodec sampleCrypto lowercaseCrypto firstRequest ⟨7⟩ cliPayload
        noConnections =
      (.error (.invalidConfig "provider_connection.api_key_encrypted" "api_key is required"),
        noConnections) := by
  decide +kernel

def openaiPayload (apiKey : String) : ProviderConnectionCreateRequest where
  name := "openai"
  providerType := "openai"
  baseUrl := some "https://api.openai.com/v1"
  apiKeyEncrypted := some apiKey
  authMode := none
  authConfigJson := none
  enabled := some true

-- A key is stored, and a blank one is refused.
theorem openai_registration_needs_a_key :
    Succeeds referenceCodec sampleCrypto lowercaseCrypto firstRequest ⟨7⟩
        (openaiPayload "sk-live") noConnections ∧
      ¬Succeeds referenceCodec sampleCrypto lowercaseCrypto firstRequest ⟨7⟩
        (openaiPayload "  ") noConnections := by
  have hkey := (registration_works_iff referenceCodec sampleCrypto lowercaseCrypto firstRequest ⟨7⟩
    (openaiPayload "sk-live") noConnections "mizan-secret" AUTH_MODE_API_KEY none
    sampleCrypto_correct (by decide +kernel) (by decide +kernel) (by decide +kernel)
    (by decide +kernel) rfl (by decide) rfl (by simp [noConnections])).mpr rfl
  have hblank := (registration_works_iff referenceCodec sampleCrypto lowercaseCrypto firstRequest
    ⟨7⟩ (openaiPayload "  ") noConnections "mizan-secret" AUTH_MODE_API_KEY none
    sampleCrypto_correct (by decide +kernel) (by decide +kernel) (by decide +kernel)
    (by decide +kernel) rfl (by decide) rfl (by simp [noConnections])).mpr rfl
  rw [Registers, if_pos rfl] at hkey hblank
  exact ⟨hkey.mpr (by decide +kernel), fun h => (hblank.mp h).2 (by decide +kernel)⟩

end Mizan.Connections
