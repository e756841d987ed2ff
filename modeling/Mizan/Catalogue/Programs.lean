import Mizan.Catalogue.Store

namespace Mizan.Catalogue

open Interleaving
open Connections (AdminAuditInput ProviderConnectionCreateRequest ProviderConnectionCreateResponse
  ProviderConnectionRow SecretCrypto Surroundings requireField)
open Json (Codec Value)

abbrev CatalogueM (α : Type) := ExceptT AppError (Prog CatalogueCommand CatalogueCommand.Response) α

def AUDIT_ACTION_DELETE_PROVIDER : String := "provider_connection_deleted"
def AUDIT_ACTION_CREATE_MODEL_ROUTE : String := "model_route_created"
def AUDIT_ACTION_DELETE_MODEL_ROUTE : String := "model_route_deleted"
def AUDIT_ENTITY_MODEL_ROUTE : String := "model_route"

structure ModelRouteCreateRequest where
  providerConnectionId : Uuid
  publicModel : String
  upstreamModel : String
  maxTokens : Option Int64
  pricingInputPer1mTokens : Option Int64
  pricingOutputPer1mTokens : Option Int64
  enabled : Option Bool
  deriving DecidableEq, Repr

structure ModelRouteCreateResponse where
  id : String
  providerConnectionId : String
  publicModel : String
  upstreamModel : String
  enabled : Bool
  deriving DecidableEq, Repr

-- The answer to a deletion, of a connection as of a route.
structure WithStatus where
  id : String
  removed : Bool
  deriving DecidableEq, Repr

def infrastructure {α : Type} : Except String α → Except AppError α :=
  Except.mapError .infrastructure

def nowV7 : CatalogueM Uuid := Prog.perform .nowV7 Except.ok

def unixTimestampString : CatalogueM String :=
  Prog.perform .nowUtcEpochSeconds fun (now : Int64) => .ok (toString now)

-- A failure to record is only logged.
def recordAudit (audit : AdminAuditInput) : CatalogueM Unit :=
  Prog.perform (.recordAdminAudit audit) fun _ => .ok ()

def refuseNegative (value : Option Int64) (key message : String) : Except AppError Unit :=
  match value with
  | some value => if value < 0 then .error (.invalidConfig key message) else .ok ()
  | none => .ok ()

namespace ModelRouteCreateRequest

variable (payload : ModelRouteCreateRequest)

def check : Except AppError Unit := do
  requireField (trim payload.publicModel) "model_route.public_model" "public_model is required"
  requireField (trim payload.upstreamModel) "model_route.upstream_model"
    "upstream_model is required"
  refuseNegative payload.maxTokens "model_route.max_tokens" "max_tokens cannot be negative"
  refuseNegative payload.pricingInputPer1mTokens "model_route.pricing_input_per_1m_tokens"
    "pricing_input_per_1m_tokens cannot be negative"
  refuseNegative payload.pricingOutputPer1mTokens "model_route.pricing_output_per_1m_tokens"
    "pricing_output_per_1m_tokens cannot be negative"

def row (id : Uuid) (now : String) : ModelRouteRow where
  id := id.toString
  providerConnectionId := payload.providerConnectionId.toString
  publicModel := trim payload.publicModel
  upstreamModel := trim payload.upstreamModel
  maxTokens := payload.maxTokens
  pricingInputPer1mTokens := payload.pricingInputPer1mTokens.getD 0
  pricingOutputPer1mTokens := payload.pricingOutputPer1mTokens.getD 0
  enabled := payload.enabled.getD true
  createdAt := now
  updatedAt := now

end ModelRouteCreateRequest

-- `Number::from` on an `i64`.
def integer (value : Int64) : Value :=
  .number (if value < 0 then .negInt value else .posInt value.toUInt64)

namespace ModelRouteRow

variable (row : ModelRouteRow)

def auditPayload : Value :=
  .object [("enabled", .bool row.enabled),
    ("max_tokens", (row.maxTokens.map integer).getD .null),
    ("pricing_input_per_1m_tokens", integer row.pricingInputPer1mTokens),
    ("pricing_output_per_1m_tokens", integer row.pricingOutputPer1mTokens),
    ("provider_connection_id", .string row.providerConnectionId),
    ("public_model", .string row.publicModel), ("upstream_model", .string row.upstreamModel)]

def response : ModelRouteCreateResponse where
  id := row.id
  providerConnectionId := row.providerConnectionId
  publicModel := row.publicModel
  upstreamModel := row.upstreamModel
  enabled := row.enabled

end ModelRouteRow

section Programs

variable (codec : Codec) (crypto : SecretCrypto) (words : Auth.Crypto)

def adminAudit (actor : Uuid) (action entityType entityId : String) (payload : Value) :
    AdminAuditInput where
  actorUserId := some actor
  action
  entityType
  entityId := some entityId
  payloadJson := (codec.toString payload).toOption

def mapDuplicateModelError (error : String) : AppError :=
  if Auth.isUniqueConstraintError words error then
    .invalidConfig "model_route.public_model" "public_model must be unique"
  else .infrastructure error

-- What the checks and the encryption of a registration read besides the request.
def readings (providerSecretKey : Option String) (id : Uuid) (now : String) : Surroundings where
  providerSecretKey
  id
  now
  uniqueError := UNIQUE_CONNECTION
  insertFault := none
  auditFault := none

def createProviderConnection (providerSecretKey : Option String) (actor : Uuid)
    (payload : ProviderConnectionCreateRequest) : CatalogueM ProviderConnectionCreateResponse := do
  let id ← nowV7
  let now ← unixTimestampString
  let row ← ExceptT.mk (pure (payload.checkedRow codec crypto (readings providerSecretKey id now)))
  Prog.perform (.insertConnection row) (Except.mapError fun error =>
    Connections.mapDuplicateNameError words error "provider connection")
  recordAudit (row.audit codec actor)
  pure row.response

def deleteProviderConnection (actor id : Uuid) : CatalogueM WithStatus := do
  let removed ← Prog.perform (.deleteConnection id) infrastructure
  if removed = 0 then throw (.notFound "provider connection not found")
  else do
    recordAudit (adminAudit codec actor AUDIT_ACTION_DELETE_PROVIDER
      Connections.AUDIT_ENTITY_PROVIDER id.toString (.object [("deleted", .bool true)]))
    pure { id := id.toString, removed := true }

def createModelRoute (actor : Uuid) (payload : ModelRouteCreateRequest) :
    CatalogueM ModelRouteCreateResponse := do
  ExceptT.mk (pure payload.check)
  let providerExists ←
    Prog.perform (.selectEnabledConnection payload.providerConnectionId) infrastructure
  if !providerExists then
    throw (.invalidConfig "model_route.provider_connection_id"
      "provider_connection_id does not exist")
  else do
    let id ← nowV7
    let now ← unixTimestampString
    let row := payload.row id now
    Prog.perform (.insertRoute row) (Except.mapError (mapDuplicateModelError words))
    recordAudit (adminAudit codec actor AUDIT_ACTION_CREATE_MODEL_ROUTE AUDIT_ENTITY_MODEL_ROUTE
      row.id row.auditPayload)
    pure row.response

def deleteModelRoute (actor id : Uuid) : CatalogueM WithStatus := do
  let removed ← Prog.perform (.deleteRoute id) infrastructure
  if removed = 0 then throw (.notFound "model route not found")
  else do
    recordAudit (adminAudit codec actor AUDIT_ACTION_DELETE_MODEL_ROUTE AUDIT_ENTITY_MODEL_ROUTE
      id.toString (.object [("deleted", .bool true)]))
    pure { id := id.toString, removed := true }

inductive CatalogueOp where
  | createProviderConnection (actor : Uuid) (payload : ProviderConnectionCreateRequest)
  | deleteProviderConnection (actor id : Uuid)
  | createModelRoute (actor : Uuid) (payload : ModelRouteCreateRequest)
  | deleteModelRoute (actor id : Uuid)

inductive CatalogueAnswer where
  | connectionCreated (response : ProviderConnectionCreateResponse)
  | routeCreated (response : ModelRouteCreateResponse)
  | removed (status : WithStatus)
  deriving DecidableEq, Repr

def CatalogueOp.program (providerSecretKey : Option String) :
    CatalogueOp → CatalogueM CatalogueAnswer
  | .createProviderConnection actor payload => do
      let response ←
        Catalogue.createProviderConnection codec crypto words providerSecretKey actor payload
      pure (.connectionCreated response)
  | .deleteProviderConnection actor id => do
      let status ← Catalogue.deleteProviderConnection codec actor id
      pure (.removed status)
  | .createModelRoute actor payload => do
      let response ← Catalogue.createModelRoute codec words actor payload
      pure (.routeCreated response)
  | .deleteModelRoute actor id => do
      let status ← Catalogue.deleteModelRoute codec actor id
      pure (.removed status)

end Programs

-- What a control plane is started with, and the crates that it uses.
structure ControlPlane where
  codec : Codec
  crypto : SecretCrypto
  words : Auth.Crypto
  providerSecretKey : Option String

def cataloguePrograms (plane : ControlPlane) (ops : Nat → CatalogueOp) (t : Nat) :
    Prog CatalogueCommand CatalogueCommand.Response (Except AppError CatalogueAnswer) :=
  ((ops t).program plane.codec plane.crypto plane.words plane.providerSecretKey).run

end Mizan.Catalogue
