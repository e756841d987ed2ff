import Mizan.Catalogue.Served

namespace Mizan.Catalogue

open Interleaving
open Connections (ProviderConnectionRow)
open Daemon (DbDaemonNode NodeCodec)
open Gateway (resolveModelRoute)
open Table (Descending innerJoin)

structure ProviderConnectionResponse where
  id : String
  name : String
  providerType : String
  authMode : String
  baseUrl : String
  enabled : Bool
  createdAt : String
  updatedAt : String
  deriving DecidableEq, Repr

structure ModelRouteResponse where
  id : String
  providerConnectionId : String
  publicModel : String
  upstreamModel : String
  maxTokens : Option Int64
  pricingInputPer1mTokens : Int64
  pricingOutputPer1mTokens : Int64
  enabled : Bool
  createdAt : String
  updatedAt : String
  providerName : Option String
  deriving DecidableEq, Repr

def connectionResponse (row : ProviderConnectionRow) : ProviderConnectionResponse where
  id := row.id
  name := row.name
  providerType := row.providerType
  authMode := row.authMode
  baseUrl := row.baseUrl
  enabled := row.enabled
  createdAt := row.createdAt
  updatedAt := row.updatedAt

def routeResponse (row : ModelRouteRow × ProviderConnectionRow) : ModelRouteResponse where
  id := row.1.id
  providerConnectionId := row.1.providerConnectionId
  publicModel := row.1.publicModel
  upstreamModel := row.1.upstreamModel
  maxTokens := row.1.maxTokens
  pricingInputPer1mTokens := row.1.pricingInputPer1mTokens
  pricingOutputPer1mTokens := row.1.pricingOutputPer1mTokens
  enabled := row.1.enabled
  createdAt := row.1.createdAt
  updatedAt := row.1.updatedAt
  providerName := some row.2.name

-- Both listings are ORDER BY created_at DESC.
def listProviderConnections (order : Descending String) (s : CatalogueState) :
    List ProviderConnectionResponse :=
  (order.arrange ProviderConnectionRow.createdAt s.connections).map connectionResponse

def partners (route : ModelRouteRow) (connection : ProviderConnectionRow) : Bool :=
  connection.id = route.providerConnectionId

def listModelRoutes (order : Descending String) (s : CatalogueState) : List ModelRouteResponse :=
  (order.arrange (fun row => row.1.createdAt) (innerJoin partners s.routes s.connections)).map
    routeResponse

-- The listings leave nothing out, and say of a route what its connection says of itself.
structure ListsEverything (order : Descending String) (s : CatalogueState) : Prop where
  connections : ((listProviderConnections order s).map ProviderConnectionResponse.id).Perm
    (s.connections.map ProviderConnectionRow.id)
  routes : ((listModelRoutes order s).map ModelRouteResponse.id).Perm
    (s.routes.map ModelRouteRow.id)
  newestFirst : (listProviderConnections order s).Pairwise fun item item' =>
    item'.createdAt ≤ item.createdAt
  newestRoutesFirst : (listModelRoutes order s).Pairwise fun item item' =>
    item'.createdAt ≤ item.createdAt
  parents : ∀ item ∈ listModelRoutes order s, ∃ parent ∈ listProviderConnections order s,
    parent.id = item.providerConnectionId ∧ item.providerName = some parent.name

-- What the two listings say of a model is what the gateway does with it.
def ListsWhatIsServed (plane : ControlPlane) (codec : NodeCodec) (order : Descending String)
    (s : CatalogueState) (catalog : Gateway.Catalog) : Prop :=
  ∀ field model, (∃ route, resolveModelRoute codec plane.decrypted plane.providerSecretKey field
      model catalog = .ok route) ↔
    ∃ item ∈ listModelRoutes order s, item.publicModel = model ∧ item.enabled = true ∧
      ∃ parent ∈ listProviderConnections order s,
        parent.id = item.providerConnectionId ∧ parent.enabled = true

section Listings

variable {plane : ControlPlane} {ops : Nat → CatalogueOp} {codec : NodeCodec} {s : CatalogueState}
  {order : Descending String}

theorem mem_listProviderConnections {item : ProviderConnectionResponse} :
    item ∈ listProviderConnections order s ↔
      ∃ connection ∈ s.connections, connectionResponse connection = item := by
  simp only [listProviderConnections, List.mem_map, order.mem_arrange]

theorem mem_listModelRoutes {item : ModelRouteResponse} : item ∈ listModelRoutes order s ↔
    ∃ route ∈ s.routes, ∃ connection ∈ s.connections,
      connection.id = route.providerConnectionId ∧ routeResponse (route, connection) = item := by
  simp only [listModelRoutes, List.mem_map, order.mem_arrange, Table.mem_innerJoin, partners,
    decide_eq_true_eq, Prod.exists]
  constructor
  · rintro ⟨route, connection, ⟨hroute, hconnection, hjoined⟩, hitem⟩
    exact ⟨route, hroute, connection, hconnection, hjoined, hitem⟩
  · rintro ⟨route, hroute, connection, hconnection, hjoined, hitem⟩
    exact ⟨route, connection, ⟨hroute, hconnection, hjoined⟩, hitem⟩

-- A route has its connection, and no other.
theorem CatalogueSound.partner (h : CatalogueSound plane ops s) :
    ∀ route ∈ s.routes, ∃ connection, s.connections.filter (partners route) = [connection] := by
  intro route hroute
  obtain ⟨connection, hconnection, hid⟩ := h.parents route hroute
  have hmem : connection ∈ s.connections.filter (partners route) :=
    List.mem_filter.mpr ⟨hconnection, decide_eq_true hid⟩
  have hone : (s.connections.filter (partners route)).length ≤ 1 :=
    Table.length_filter_le_one h.connectionIds fun _ _ hselected => of_decide_eq_true hselected
  have hpos := List.length_pos_of_mem hmem
  exact List.length_eq_one_iff.mp (by omega)

theorem ListsEverything.of_sound (h : CatalogueSound plane ops s) (order : Descending String) :
    ListsEverything order s := by
  constructor
  · rw [listProviderConnections, List.map_map]
    exact (order.perm_arrange _ _).map ProviderConnectionRow.id
  · have hfirst : (innerJoin partners s.routes s.connections).map (fun row => row.1.id) =
        s.routes.map ModelRouteRow.id := by
      rw [← congrArg (List.map ModelRouteRow.id) (Table.map_fst_innerJoin h.partner), List.map_map]
      rfl
    rw [listModelRoutes, List.map_map, ← hfirst]
    exact (order.perm_arrange _ _).map (ModelRouteResponse.id ∘ routeResponse)
  · rw [listProviderConnections, List.pairwise_map]
    exact order.pairwise_arrange ProviderConnectionRow.createdAt s.connections
  · rw [listModelRoutes, List.pairwise_map]
    exact order.pairwise_arrange (fun row : ModelRouteRow × ProviderConnectionRow =>
      row.1.createdAt) _
  · intro item hitem
    obtain ⟨route, hroute, connection, hconnection, hid, rfl⟩ := mem_listModelRoutes.mp hitem
    exact ⟨connectionResponse connection,
      mem_listProviderConnections.mpr ⟨connection, hconnection, rfl⟩, hid, rfl⟩

theorem ListsWhatIsServed.of_sound (h : CatalogueSound plane ops s) (hreads : ReadsBack codec)
    (order : Descending String) (hkeyed : Keyed s) (nodes : List DbDaemonNode) :
    ListsWhatIsServed plane codec order s (served s hkeyed nodes) := by
  intro field model
  constructor
  · rintro ⟨route, hroute⟩
    obtain ⟨row, hmem, hmodel, _⟩ := Gateway.resolves_of_ok hroute
    obtain ⟨stored, hstored, connection, hconnection, rfl, hid, henabled, henabled'⟩ :=
      mem_served hmem
    exact ⟨routeResponse (stored, connection),
      mem_listModelRoutes.mpr ⟨stored, hstored, connection, hconnection, hid, rfl⟩, hmodel,
        henabled,
      connectionResponse connection,
      mem_listProviderConnections.mpr ⟨connection, hconnection, rfl⟩, hid, henabled'⟩
  · rintro ⟨item, hitem, hmodel, henabled, parent, hparent, hid', henabled'⟩
    obtain ⟨stored, hstored, connection, hconnection, hid, rfl⟩ := mem_listModelRoutes.mp hitem
    obtain ⟨other, hother, rfl⟩ := mem_listProviderConnections.mp hparent
    have hsame : other = connection :=
      Table.eq_of_key h.connectionIds hother hconnection (hid'.trans hid.symm)
    subst hsame
    have hrow : (routeColumns stored, connectionColumns other) ∈
        (served s hkeyed nodes).enabledRoutes := by
      rw [Gateway.Catalog.mem_enabledRoutes]
      exact ⟨List.mem_map_of_mem hstored, List.mem_map_of_mem hconnection, hid,
        enabledColumn_eq_one.mpr henabled, enabledColumn_eq_one.mpr henabled'⟩
    obtain ⟨_, _, _, route, _, hroute⟩ | ⟨hnone, _⟩ :=
      @resolve_cases plane ops codec s nodes hkeyed h hreads field model
    · exact ⟨route, hroute⟩
    · exact absurd hmodel (hnone _ hrow)

theorem listings_agree_with_gateway (plane : ControlPlane) (ops : Nat → CatalogueOp)
    (codec : NodeCodec) (nowSeconds : Nat) (actions : List (Action CatalogueChoice))
    (config : CatalogueConfig) (hcrypto : plane.crypto.Correct) (hreads : ReadsBack codec)
    (hrun : CatalogueState.system.run (cataloguePrograms plane ops) actions
      (System.initial (CatalogueState.start nowSeconds)) = some config) :
    ∃ hkeyed : Keyed config.state, ∀ order nodes, ListsEverything order config.state ∧
      ListsWhatIsServed plane codec order config.state (served config.state hkeyed nodes) := by
  have hsound := CatalogueInvariant.sound (catalogue_good hrun).1 hcrypto
  refine ⟨⟨hsound.connectionIds, hsound.publicModels⟩, fun order nodes => ?_⟩
  exact ⟨ListsEverything.of_sound hsound order,
    ListsWhatIsServed.of_sound hsound hreads order _ nodes⟩

theorem sample_listings_agree : ∃ config,
    CatalogueState.system.run (cataloguePrograms samplePlane sampleOps) routedActions
      (System.initial (CatalogueState.start 1700000000)) = some config ∧
    config.state.routes.map ModelRouteRow.publicModel = ["gpt"] ∧
    ∃ hkeyed : Keyed config.state, ∀ order nodes, ListsEverything order config.state ∧
      ListsWhatIsServed samplePlane llamaCodec order config.state
        (served config.state hkeyed nodes) := by
  have hmodels : (CatalogueState.system.run (cataloguePrograms samplePlane sampleOps)
      routedActions (System.initial (CatalogueState.start 1700000000))).map (fun config =>
        config.state.routes.map ModelRouteRow.publicModel) = some ["gpt"] := by
    decide +kernel
  obtain ⟨config, hrun, hroutes⟩ := Option.map_eq_some_iff.mp hmodels
  exact ⟨config, hrun, hroutes, listings_agree_with_gateway samplePlane sampleOps llamaCodec
    1700000000 routedActions config Connections.sampleCrypto_correct llamaCodec_readsBack hrun⟩

end Listings

end Mizan.Catalogue
