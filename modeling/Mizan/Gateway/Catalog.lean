import Mizan.Daemon.Nodes
import Mizan.Daemon.Request
import Mizan.Gateway.Handler
import Mizan.Table.Join

namespace Mizan.Gateway

open Table
open Daemon (DbDaemonNode NodeCodec SeenOrder eligible parseJsonVec parseTimestamp)

def PROVIDER_AUTH_MODE_API_KEY : String := "api_key"

structure DbProviderConnection where
  id : String
  name : String
  providerType : String
  authMode : String
  apiKeyEncrypted : String
  enabled : Int64
  deriving DecidableEq, Repr

structure DbModelRoute where
  id : String
  providerConnectionId : String
  publicModel : String
  upstreamModel : String
  maxTokens : Option Int64
  pricingInputPer1mTokens : Int64
  pricingOutputPer1mTokens : Int64
  enabled : Int64
  createdAt : String
  deriving DecidableEq, Repr

-- The tables that decide what a model is served by, with the constraints that they are under.
structure Catalog where
  connections : List DbProviderConnection
  routes : List DbModelRoute
  nodes : List DbDaemonNode
  connections_key : (connections.map DbProviderConnection.id).Nodup
  routes_unique : (routes.map DbModelRoute.publicModel).Nodup

abbrev RouteRow := DbModelRoute × DbProviderConnection

def RouteRow.publicModel (row : RouteRow) : String := row.1.publicModel

def RouteRow.enabled (row : RouteRow) : Bool := row.1.enabled = 1 && row.2.enabled = 1

namespace Catalog

def routeRows (catalog : Catalog) : List RouteRow :=
  innerJoin (fun (route : DbModelRoute) (connection : DbProviderConnection) =>
    connection.id = route.providerConnectionId) catalog.routes catalog.connections

def enabledRoutes (catalog : Catalog) : List RouteRow := catalog.routeRows.filter RouteRow.enabled

theorem mem_enabledRoutes {catalog : Catalog} {row : RouteRow} :
    row ∈ catalog.enabledRoutes ↔ row.1 ∈ catalog.routes ∧ row.2 ∈ catalog.connections ∧
      row.2.id = row.1.providerConnectionId ∧ row.1.enabled = 1 ∧ row.2.enabled = 1 := by
  simp only [enabledRoutes, routeRows, List.mem_filter, mem_innerJoin, RouteRow.enabled,
    Bool.and_eq_true, decide_eq_true_eq, and_assoc]

-- A public model is the model of one route.
theorem routeRows_unique (catalog : Catalog) :
    (catalog.routeRows.map RouteRow.publicModel).Nodup := by
  have hone : ∀ route ∈ catalog.routes, (catalog.connections.filter fun connection =>
      connection.id = route.providerConnectionId).length ≤ 1 := fun route _ =>
    @length_filter_le_one _ _ catalog.connections DbProviderConnection.id _
      route.providerConnectionId catalog.connections_key fun _ _ h => of_decide_eq_true h
  have hsublist := (map_fst_innerJoin_sublist hone).map DbModelRoute.publicModel
  rw [List.map_map] at hsublist
  exact catalog.routes_unique.sublist hsublist

theorem enabledRoutes_unique (catalog : Catalog) :
    (catalog.enabledRoutes.map RouteRow.publicModel).Nodup :=
  catalog.routeRows_unique.sublist (List.filter_sublist.map RouteRow.publicModel)

end Catalog

section Resolve

variable (codec : NodeCodec)
    (decryptProviderApiKey : String → String → String → Except AppError String)

def u64TryFrom (value : Int64) : Option UInt64 :=
  if value < 0 then none else some (UInt64.ofNat value.toInt.toNat)

def routeMaxTokens : Option Int64 → Except AppError (Option UInt64)
  | none => .ok none
  | some value =>
      match u64TryFrom value with
      | none => .error (.invalidConfig "model_route.max_tokens" "max_tokens cannot be negative")
      | some value => .ok (some value)

-- What a selected row resolves to.
def resolveRow (providerSecretKey : Option String) (row : RouteRow) :
    Except AppError ResolvedModelRoute := do
  let id ← (codec.uuidParseStr row.1.id).mapError fun error =>
    .infrastructure s!"stored route id is invalid: {error}"
  let providerConnectionId ← (codec.uuidParseStr row.2.id).mapError fun error =>
    .infrastructure s!"stored provider connection id for route is invalid: {error}"
  if row.2.authMode ≠ PROVIDER_AUTH_MODE_API_KEY then
    throw (.invalidConfig "provider_connection.auth_mode"
      s!"provider auth mode `{row.2.authMode}` is registered but not runnable yet")
  else
    match providerSecretKey with
    | none =>
        throw (.invalidConfig "MIZAN_PROVIDER_SECRET_KEY"
          "set MIZAN_PROVIDER_SECRET_KEY before resolving model routes")
    | some providerSecretKey => do
        let _ ← decryptProviderApiKey providerSecretKey providerConnectionId.toString
          row.2.apiKeyEncrypted
        let maxTokens ← routeMaxTokens row.1.maxTokens
        pure
          { id
            providerConnectionId
            upstreamModel := row.1.upstreamModel
            providerType := trim row.2.providerType
            maxTokens
            inputPricePer1mTokens := row.1.pricingInputPer1mTokens
            outputPricePer1mTokens := row.1.pricingOutputPer1mTokens }

def resolveModelRoute (providerSecretKey : Option String) (requestModelField publicModel : String)
    (catalog : Catalog) : Except AppError ResolvedModelRoute :=
  match catalog.enabledRoutes.find? fun row => row.publicModel = publicModel with
  | none => .error (.invalidConfig requestModelField "model not found or disabled")
  | some row => resolveRow codec decryptProviderApiKey providerSecretKey row

end Resolve

structure PublicModelResponse where
  id : String
  object : String
  created : Int64
  ownedBy : String
  providerType : String
  upstreamModel : String
  routeId : String
  maxTokens : Option Int64
  deriving DecidableEq, Repr

def routeModels : List RouteRow → Except AppError (List PublicModelResponse)
  | [] => .ok []
  | (route, connection) :: rows => do
      let created ← parseTimestamp route.createdAt
      let data ← routeModels rows
      pure
        ({ id := route.publicModel
           object := "model"
           created
           ownedBy := connection.name
           providerType := connection.providerType
           upstreamModel := route.upstreamModel
           routeId := route.id
           maxTokens := route.maxTokens } :: data)

def daemonModel (providerFamily modelId : String) : PublicModelResponse :=
  { id := modelId
    object := "model"
    created := 0
    ownedBy := "mizan-daemon"
    providerType := providerFamily
    upstreamModel := modelId
    routeId := "daemon"
    maxTokens := none }

-- The ids that have been seen are those of `data`.
def pushDaemonModels (providerFamily : String) :
    (data : List PublicModelResponse) → (modelIds : List String) → List PublicModelResponse
  | data, [] => data
  | data, modelId :: modelIds =>
      if modelId ∈ data.map PublicModelResponse.id then
        pushDaemonModels providerFamily data modelIds
      else pushDaemonModels providerFamily (data ++ [daemonModel providerFamily modelId]) modelIds

-- A node whose list cannot be read is skipped.
def pushDaemonNodes (codec : NodeCodec) :
    (data : List PublicModelResponse) → List DbDaemonNode → List PublicModelResponse
  | data, [] => data
  | data, node :: nodes =>
      match parseJsonVec codec node.modelIdsJson "daemon_node.model_ids_json" with
      | .error _ => pushDaemonNodes codec data nodes
      | .ok modelIds =>
          pushDaemonNodes codec (pushDaemonModels (node.providerFamily.getD "") data modelIds) nodes

def hasCapacity (node : DbDaemonNode) : Bool := 0 < (node.maxConcurrency.getD 0).toInt

-- ORDER BY provider_family ASC, model_ids_json ASC
def listedKey (node : DbDaemonNode) : Lex (String × String) :=
  toLex (node.providerFamily.getD "", node.modelIdsJson)

def listedNodes (staleAfterSeconds now : Int64) (catalog : Catalog) : List DbDaemonNode :=
  ascending listedKey (catalog.nodes.filter fun node =>
    eligible (Daemon.cutoff now staleAfterSeconds) node && hasCapacity node)

def listPublicModels (codec : NodeCodec) (staleAfterSeconds now : Int64) (catalog : Catalog) :
    Except AppError (List PublicModelResponse) := do
  let data ← routeModels (ascending RouteRow.publicModel catalog.enabledRoutes)
  pure (ascending PublicModelResponse.id
    (pushDaemonNodes codec data (listedNodes staleAfterSeconds now catalog)))

end Mizan.Gateway
