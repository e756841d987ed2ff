import Mizan.Auth.Operations
import Mizan.Connections.AuthConfig
import Mizan.Connections.Secrets
import Mizan.Core.Hyphenated

namespace Mizan.Connections

open Json (Codec Value)

structure ProviderConnectionRow where
  id : String
  name : String
  providerType : String
  authMode : String
  authConfigJson : Option String
  baseUrl : String
  apiKeyEncrypted : String
  enabled : Bool
  createdAt : String
  updatedAt : String
deriving DecidableEq, Repr

structure AdminAuditInput where
  actorUserId : Option Uuid
  action : String
  entityType : String
  entityId : Option String
  payloadJson : Option String
deriving DecidableEq, Repr

structure ProviderTables where
  connections : List ProviderConnectionRow
  adminAuditLogs : List AdminAuditInput
deriving DecidableEq, Repr

structure ProviderConnectionCreateRequest where
  name : String
  providerType : String
  baseUrl : Option String
  apiKeyEncrypted : Option String
  authMode : Option String
  authConfigJson : Option Value
  enabled : Option Bool

structure ProviderConnectionCreateResponse where
  id : String
  name : String
  providerType : String
  authMode : String
  baseUrl : String
  enabled : Bool
deriving DecidableEq, Repr

-- What a request meets: the configured key, the id and the time it is given, the text of the
-- engine for a value that is not unique, and what else the two statements fail with.
structure Surroundings where
  providerSecretKey : Option String
  id : Uuid
  now : String
  uniqueError : String
  insertFault : Option String
  auditFault : Option String

def AUDIT_ACTION_CREATE_PROVIDER : String := "provider_connection_created"
def AUDIT_ENTITY_PROVIDER : String := "provider_connection"

-- The id is the primary key and the name is unique.
def insertConnection (surroundings : Surroundings) (row : ProviderConnectionRow)
    (tables : ProviderTables) : Except String ProviderTables :=
  match surroundings.insertFault with
  | some error => .error error
  | none =>
    if ∃ other ∈ tables.connections, other.id = row.id ∨ other.name = row.name then
      .error surroundings.uniqueError
    else .ok { tables with connections := tables.connections ++ [row] }

-- A failure to record is only logged.
def recordAdminAudit (surroundings : Surroundings) (audit : AdminAuditInput)
    (tables : ProviderTables) : ProviderTables :=
  match surroundings.auditFault with
  | some _ => tables
  | none => { tables with adminAuditLogs := tables.adminAuditLogs ++ [audit] }

def requireField (value key message : String) : Except AppError Unit :=
  if value = "" then .error (.invalidConfig key message) else .ok ()

def requireForApiKey (authMode value key message : String) : Except AppError Unit :=
  if authMode = AUTH_MODE_API_KEY then requireField value key message else .ok ()

section Create

variable (codec : Codec) (crypto : SecretCrypto) (words : Auth.Crypto)

def mapDuplicateNameError (error context : String) : AppError :=
  if Auth.isUniqueConstraintError words error then
    .invalidConfig "provider_connection.name" s!"{context} with this name already exists"
  else .infrastructure error

def requireSecretKey (providerSecretKey : Option String) : Except AppError String :=
  match providerSecretKey with
  | some key => .ok key
  | none => .error (.invalidConfig "MIZAN_PROVIDER_SECRET_KEY"
      "set MIZAN_PROVIDER_SECRET_KEY before creating provider connections")

namespace ProviderConnectionCreateRequest

variable (payload : ProviderConnectionCreateRequest)

def trimmedBaseUrl : String := trim (payload.baseUrl.getD "")

def secret : String := trim (payload.apiKeyEncrypted.getD "")

def secretMaterial (authMode : String) : String :=
  if authMode = AUTH_MODE_API_KEY then payload.secret else ""

def row (surroundings : Surroundings) (authMode : String) (authConfigJson : Option String)
    (encryptedApiKey : String) : ProviderConnectionRow where
  id := surroundings.id.toString
  name := trim payload.name
  providerType := trim payload.providerType
  authMode
  authConfigJson
  baseUrl := payload.trimmedBaseUrl
  apiKeyEncrypted := encryptedApiKey
  enabled := payload.enabled.getD true
  createdAt := surroundings.now
  updatedAt := surroundings.now

-- The row that the checks and the encryption come to.
def checkedRow (surroundings : Surroundings) : Except AppError ProviderConnectionRow := do
  let authMode ← normalizeAuthMode payload.authMode
  let authConfigJson ← normalizeAuthConfig codec authMode payload.authConfigJson
  requireField (trim payload.name) "provider_connection.name" "provider name is required"
  requireField (trim payload.providerType) "provider_connection.provider_type"
    "provider_type is required"
  requireForApiKey authMode payload.trimmedBaseUrl "provider_connection.base_url"
    "base_url is required for api_key provider connections"
  requireForApiKey authMode payload.secret "provider_connection.api_key_encrypted"
    "api_key_encrypted is required for api_key provider connections"
  let providerSecretKey ← requireSecretKey surroundings.providerSecretKey
  let encryptedApiKey ← encryptProviderApiKey crypto providerSecretKey surroundings.id.toString
    (payload.secretMaterial authMode)
  pure (payload.row surroundings authMode authConfigJson encryptedApiKey)

end ProviderConnectionCreateRequest

namespace ProviderConnectionRow

variable (row : ProviderConnectionRow)

def auditPayload : Value :=
  .object [("auth_mode", .string row.authMode), ("base_url", .string row.baseUrl),
    ("enabled", .bool row.enabled), ("name", .string row.name),
    ("provider_type", .string row.providerType),
    ("secret_material_stored", .bool (row.authMode = AUTH_MODE_API_KEY))]

def audit (actor : Uuid) : AdminAuditInput where
  actorUserId := some actor
  action := AUDIT_ACTION_CREATE_PROVIDER
  entityType := AUDIT_ENTITY_PROVIDER
  entityId := some row.id
  payloadJson := (codec.toString row.auditPayload).toOption

def response : ProviderConnectionCreateResponse where
  id := row.id
  name := row.name
  providerType := row.providerType
  authMode := row.authMode
  baseUrl := row.baseUrl
  enabled := row.enabled

end ProviderConnectionRow

def createProviderConnection (surroundings : Surroundings) (actor : Uuid)
    (payload : ProviderConnectionCreateRequest) (tables : ProviderTables) :
    Except AppError ProviderConnectionCreateResponse × ProviderTables :=
  match payload.checkedRow codec crypto surroundings with
  | .error error => (.error error, tables)
  | .ok row =>
    match insertConnection surroundings row tables with
    | .error error => (.error (mapDuplicateNameError words error "provider connection"), tables)
    | .ok inserted =>
      (.ok row.response, recordAdminAudit surroundings (row.audit codec actor) inserted)

end Create

section Results

variable {codec : Codec} {crypto : SecretCrypto} {words : Auth.Crypto}
  {surroundings : Surroundings} {actor : Uuid} {payload : ProviderConnectionCreateRequest}
  {tables : ProviderTables}

theorem requireField_ok {value key message : String} :
    requireField value key message = .ok () ↔ value ≠ "" := by
  by_cases hvalue : value = ""
  · simp [requireField, hvalue]
  · simp [requireField, hvalue]

theorem requireForApiKey_ok {authMode value key message : String} :
    requireForApiKey authMode value key message = .ok () ↔
      (authMode = AUTH_MODE_API_KEY → value ≠ "") := by
  by_cases hmode : authMode = AUTH_MODE_API_KEY
  · rw [requireForApiKey, if_pos hmode, requireField_ok]
    simp [hmode]
  · simp [requireForApiKey, hmode]

theorem requireSecretKey_ok {providerSecretKey : Option String} {key : String} :
    requireSecretKey providerSecretKey = .ok key ↔ providerSecretKey = some key := by
  cases providerSecretKey <;> simp [requireSecretKey]

-- Everything that has to hold for a row to be made, and the row.
theorem checkedRow_ok {row : ProviderConnectionRow} :
    payload.checkedRow codec crypto surroundings = .ok row ↔
      ∃ authMode authConfigJson key encryptedApiKey,
        normalizeAuthMode payload.authMode = .ok authMode ∧
        normalizeAuthConfig codec authMode payload.authConfigJson = .ok authConfigJson ∧
        trim payload.name ≠ "" ∧ trim payload.providerType ≠ "" ∧
        (authMode = AUTH_MODE_API_KEY → payload.trimmedBaseUrl ≠ "") ∧
        (authMode = AUTH_MODE_API_KEY → payload.secret ≠ "") ∧
        surroundings.providerSecretKey = some key ∧
        encryptProviderApiKey crypto key surroundings.id.toString
          (payload.secretMaterial authMode) = .ok encryptedApiKey ∧
        row = payload.row surroundings authMode authConfigJson encryptedApiKey := by
  constructor
  · intro h
    obtain ⟨authMode, hmode, h⟩ := except_bind_eq_ok h
    obtain ⟨authConfigJson, hconfig, h⟩ := except_bind_eq_ok h
    obtain ⟨_, hname, h⟩ := except_bind_eq_ok h
    obtain ⟨_, htype, h⟩ := except_bind_eq_ok h
    obtain ⟨_, hurl, h⟩ := except_bind_eq_ok h
    obtain ⟨_, hsecret, h⟩ := except_bind_eq_ok h
    obtain ⟨key, hkey, h⟩ := except_bind_eq_ok h
    obtain ⟨encryptedApiKey, hencrypted, h⟩ := except_bind_eq_ok h
    exact ⟨authMode, authConfigJson, key, encryptedApiKey, hmode, hconfig,
      requireField_ok.mp hname, requireField_ok.mp htype, requireForApiKey_ok.mp hurl,
      requireForApiKey_ok.mp hsecret, requireSecretKey_ok.mp hkey, hencrypted,
      (Except.ok.inj h).symm⟩
  · rintro ⟨authMode, authConfigJson, key, encryptedApiKey, hmode, hconfig, hname, htype, hurl,
      hsecret, hkey, hencrypted, rfl⟩
    rw [ProviderConnectionCreateRequest.checkedRow, hmode]
    change (normalizeAuthConfig codec authMode payload.authConfigJson).bind _ = _
    rw [hconfig]
    change (requireField (trim payload.name) _ _).bind _ = _
    rw [requireField_ok.mpr hname]
    change (requireField (trim payload.providerType) _ _).bind _ = _
    rw [requireField_ok.mpr htype]
    change (requireForApiKey authMode payload.trimmedBaseUrl _ _).bind _ = _
    rw [requireForApiKey_ok.mpr hurl]
    change (requireForApiKey authMode payload.secret _ _).bind _ = _
    rw [requireForApiKey_ok.mpr hsecret]
    change (requireSecretKey surroundings.providerSecretKey).bind _ = _
    rw [requireSecretKey_ok.mpr hkey]
    change (encryptProviderApiKey crypto key _ _).bind _ = _
    rw [hencrypted]
    rfl

theorem insertConnection_ok {row : ProviderConnectionRow} {inserted : ProviderTables} :
    insertConnection surroundings row tables = .ok inserted ↔
      surroundings.insertFault = none ∧
      (∀ other ∈ tables.connections, other.id ≠ row.id ∧ other.name ≠ row.name) ∧
      inserted = { tables with connections := tables.connections ++ [row] } := by
  unfold insertConnection
  split
  · simp_all
  · rename_i hfault
    split
    · rename_i hfound
      obtain ⟨other, hmem, heq⟩ := hfound
      constructor
      · intro h
        cases h
      · rintro ⟨-, hfree, -⟩
        obtain ⟨hid, hname⟩ := hfree other hmem
        exact (heq.elim hid hname).elim
    · rename_i hnone
      constructor
      · intro h
        refine ⟨hfault, fun other hmem => ?_, (Except.ok.inj h).symm⟩
        exact ⟨fun hid => hnone ⟨other, hmem, Or.inl hid⟩,
          fun hname => hnone ⟨other, hmem, Or.inr hname⟩⟩
      · rintro ⟨-, -, rfl⟩
        rfl

-- A request succeeds exactly when its row can be made and inserted.
theorem create_ok {response : ProviderConnectionCreateResponse} {after : ProviderTables} :
    createProviderConnection codec crypto words surroundings actor payload tables =
        (.ok response, after) ↔
      ∃ row inserted, payload.checkedRow codec crypto surroundings = .ok row ∧
        insertConnection surroundings row tables = .ok inserted ∧ response = row.response ∧
        after = recordAdminAudit surroundings (row.audit codec actor) inserted := by
  unfold createProviderConnection
  split
  · rename_i error hrow
    simp [hrow]
  · rename_i row hrow
    split
    · rename_i error hinsert
      simp [hrow, hinsert]
    · rename_i inserted hinsert
      simp [hrow, hinsert, eq_comm]

end Results

end Mizan.Connections
