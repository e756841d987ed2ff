import Mizan.Catalogue.Sound
import Mizan.Fleet.Revocation
import Mizan.Gateway.Listing

namespace Mizan.Catalogue

open Interleaving
open Connections (ProviderConnectionCreateRequest ProviderConnectionRow decryptProviderApiKey)
open Daemon (DbDaemonNode NodeCodec SeenOrder firstServing selectEligibleDaemonNode)
open Fleet (FleetChoice FleetConfig FleetOp FleetState NodesWritten fleetPrograms)
open Gateway (DbModelRoute DbProviderConnection Found Listed PassedOver ResolvedModelRoute RouteRow
  Runnable Serves listPublicModels listedNodes rankedNodes resolveModelRoute)

def enabledColumn (enabled : Bool) : Int64 := if enabled then 1 else 0

def connectionColumns (row : ProviderConnectionRow) : DbProviderConnection where
  id := row.id
  name := row.name
  providerType := row.providerType
  authMode := row.authMode
  apiKeyEncrypted := row.apiKeyEncrypted
  enabled := enabledColumn row.enabled

def routeColumns (route : ModelRouteRow) : DbModelRoute where
  id := route.id
  providerConnectionId := route.providerConnectionId
  publicModel := route.publicModel
  upstreamModel := route.upstreamModel
  maxTokens := route.maxTokens
  pricingInputPer1mTokens := route.pricingInputPer1mTokens
  pricingOutputPer1mTokens := route.pricingOutputPer1mTokens
  enabled := enabledColumn route.enabled
  createdAt := route.createdAt

structure Keyed (s : CatalogueState) : Prop where
  connectionIds : (s.connections.map ProviderConnectionRow.id).Nodup
  publicModels : (s.routes.map ModelRouteRow.publicModel).Nodup

-- The rows as the gateway reads them.
def served (s : CatalogueState) (h : Keyed s) (nodes : List DbDaemonNode) : Gateway.Catalog where
  connections := s.connections.map connectionColumns
  routes := s.routes.map routeColumns
  nodes := nodes
  connections_key := by
    rw [List.map_map]
    exact h.connectionIds
  routes_unique := by
    rw [List.map_map]
    exact h.publicModels

-- The decryption of a stored key, which never panics.
def ControlPlane.decrypted (plane : ControlPlane) (providerSecretKey id encrypted : String) :
    Except AppError String :=
  (decryptProviderApiKey plane.crypto providerSecretKey id encrypted).get
    (Connections.decryptProviderApiKey_isSome plane.crypto providerSecretKey id encrypted)

-- `uuid` and `serde_json` read back what they have written.
structure ReadsBack (codec : NodeCodec) : Prop where
  uuid : ∀ id : Uuid, codec.uuidParseStr id.toString = .ok id
  list : ∀ values text, codec.listToString values = .ok text → codec.listFromStr text = .ok values

-- What a route resolves to, as its request and that of its connection have put it.
structure ResolvedFrom (payload : ModelRouteCreateRequest)
    (connection : ProviderConnectionCreateRequest) (route : ResolvedModelRoute) : Prop where
  providerConnectionId : route.providerConnectionId = payload.providerConnectionId
  upstreamModel : route.upstreamModel = trim payload.upstreamModel
  providerType : route.providerType = trim connection.providerType
  maxTokens : route.maxTokens.map (fun value => (value.toNat : Int)) =
    payload.maxTokens.map Int64.toInt
  inputPrice : route.inputPricePer1mTokens = payload.pricingInputPer1mTokens.getD 0
  outputPrice : route.outputPricePer1mTokens = payload.pricingOutputPer1mTokens.getD 0

-- What the gateway makes of the rows: it lists exactly what it can place, and no row fails it.
structure Served (plane : ControlPlane) (codec : NodeCodec) (order : SeenOrder)
    (staleAfterSeconds now : Int64) (catalog : Gateway.Catalog) : Prop where
  listing : ∃ data, listPublicModels codec staleAfterSeconds now catalog = .ok data
  selection : ∀ model, ∃ found,
    selectEligibleDaemonNode codec order model staleAfterSeconds now catalog.nodes = .ok found
  refusal : ∀ field model error,
    resolveModelRoute codec plane.decrypted plane.providerSecretKey field model catalog =
      .error error → error = .invalidConfig field "model not found or disabled"
  listed : ∀ field model, Listed codec staleAfterSeconds now catalog model ↔
    (∃ route, resolveModelRoute codec plane.decrypted plane.providerSecretKey field model catalog =
      .ok route) ∨
    trim model = model ∧ ∃ node, selectEligibleDaemonNode codec order model staleAfterSeconds now
      catalog.nodes = .ok (some node)

-- What is resolved was asked for, and its key is the one that was handed in.
def Resolved (plane : ControlPlane) (ops : Nat → CatalogueOp) (codec : NodeCodec)
    (catalog : Gateway.Catalog) : Prop :=
  ∀ field model route,
    resolveModelRoute codec plane.decrypted plane.providerSecretKey field model catalog =
      .ok route →
    ∃ t actor payload t' actor' connection key, ops t = .createModelRoute actor payload ∧
      ops t' = .createProviderConnection actor' connection ∧ model = trim payload.publicModel ∧
      ResolvedFrom payload connection route ∧ plane.providerSecretKey = some key ∧
      ∃ row ∈ catalog.connections, row.id = route.providerConnectionId.toString ∧
        plane.decrypted key row.id row.apiKeyEncrypted = .ok connection.secret

section Routes

variable {plane : ControlPlane} {ops : Nat → CatalogueOp} {codec : NodeCodec} {s : CatalogueState}
  {nodes : List DbDaemonNode} {hkeyed : Keyed s} {row : RouteRow}

theorem enabledColumn_eq_one {enabled : Bool} : enabledColumn enabled = 1 ↔ enabled = true := by
  cases enabled with
  | true => exact ⟨fun _ => rfl, fun _ => rfl⟩
  | false => decide

-- An enabled row of the join is a route and its connection.
theorem mem_served (h : row ∈ (served s hkeyed nodes).enabledRoutes) :
    ∃ route ∈ s.routes, ∃ connection ∈ s.connections, row = (routeColumns route,
      connectionColumns connection) ∧ connection.id = route.providerConnectionId ∧
      route.enabled = true ∧ connection.enabled = true := by
  obtain ⟨hroute, hconnection, hjoined, henabled, henabled'⟩ :=
    Gateway.Catalog.mem_enabledRoutes.mp h
  obtain ⟨route, hmem, hroute⟩ := List.mem_map.mp hroute
  obtain ⟨connection, hmem', hconnection⟩ := List.mem_map.mp hconnection
  rw [← hroute] at henabled hjoined
  rw [← hconnection] at henabled' hjoined
  exact ⟨route, hmem, connection, hmem', Prod.ext hroute.symm hconnection.symm, hjoined,
    enabledColumn_eq_one.mp henabled, enabledColumn_eq_one.mp henabled'⟩

theorem decrypted_eq_ok {key id encrypted apiKey : String}
    (h : decryptProviderApiKey plane.crypto key id encrypted = some (.ok apiKey)) :
    plane.decrypted key id encrypted = .ok apiKey := by
  simp only [ControlPlane.decrypted, h, Option.get_some]

theorem routeMaxTokens_eq {maxTokens : Option Int64}
    (h : ∀ value, maxTokens = some value → 0 ≤ value) :
    ∃ limit : Option UInt64, Gateway.routeMaxTokens maxTokens = .ok limit ∧
      limit.map (fun value => (value.toNat : Int)) = maxTokens.map Int64.toInt := by
  cases maxTokens with
  | none => exact ⟨none, rfl, rfl⟩
  | some value =>
    have hnonneg : 0 ≤ value := h value rfl
    have hint : 0 ≤ value.toInt := by
      have hle := Int64.le_iff_toInt_le.mp hnonneg
      simpa using hle
    have hlt : value.toInt < 2 ^ 63 := Int64.toInt_lt value
    refine ⟨some (UInt64.ofNat value.toInt.toNat), ?_, ?_⟩
    · rw [Gateway.routeMaxTokens, Gateway.u64TryFrom, if_neg (Int64.not_lt.mpr hnonneg)]
    · have hsmall : value.toInt.toNat < 2 ^ 64 := by omega
      rw [Option.map_some, Option.map_some, UInt64.toNat_ofNat_of_lt' hsmall,
        Int.toNat_of_nonneg hint]

-- A route that was created resolves as it was asked for.
theorem resolves (hsound : CatalogueSound plane ops s) (hreads : ReadsBack codec)
    (h : row ∈ (served s hkeyed nodes).enabledRoutes) :
    ∃ route t actor payload t' actor' connection key,
      Gateway.resolveRow codec plane.decrypted plane.providerSecretKey row = .ok route ∧
      ops t = .createModelRoute actor payload ∧
      ops t' = .createProviderConnection actor' connection ∧
      row.publicModel = trim payload.publicModel ∧ ResolvedFrom payload connection route ∧
      plane.providerSecretKey = some key ∧ row.2.id = route.providerConnectionId.toString ∧
      plane.decrypted key row.2.id row.2.apiKeyEncrypted = .ok connection.secret := by
  obtain ⟨route, hroute, connection, hconnection, rfl, hparent, _, _⟩ := mem_served h
  obtain ⟨t, actor, payload, hop, hasked⟩ := hsound.routes route hroute
  obtain ⟨t', actor', request, hop', hregistered⟩ := hsound.connections connection hconnection
  obtain ⟨id, hid⟩ := hasked.id
  obtain ⟨limit, hlimit, hmax⟩ := routeMaxTokens_eq hasked.maxTokens.2
  obtain ⟨key, hkey, hsecret⟩ := hregistered.key
  have hsecret := decrypted_eq_ok hsecret
  have hconnectionId : connection.id = payload.providerConnectionId.toString :=
    hparent.trans hasked.connection
  have hreadId : codec.uuidParseStr (routeColumns route).id = .ok id := by
    rw [routeColumns, hid]
    exact hreads.uuid id
  have hreadConnection : codec.uuidParseStr (connectionColumns connection).id =
      .ok payload.providerConnectionId := by
    rw [connectionColumns, hconnectionId]
    exact hreads.uuid _
  have hmode : (connectionColumns connection).authMode = Gateway.PROVIDER_AUTH_MODE_API_KEY :=
    hregistered.authMode.1
  have hlimit : Gateway.routeMaxTokens (routeColumns route).maxTokens = .ok limit := hlimit
  have hdecrypted : plane.decrypted key payload.providerConnectionId.toString
      (connectionColumns connection).apiKeyEncrypted = .ok request.secret := by
    rw [← hconnectionId]
    exact hsecret
  have hresolved : Gateway.resolveRow codec plane.decrypted plane.providerSecretKey
      (routeColumns route, connectionColumns connection) = .ok
        { id
          providerConnectionId := payload.providerConnectionId
          upstreamModel := route.upstreamModel
          providerType := trim connection.providerType
          maxTokens := limit
          inputPricePer1mTokens := route.pricingInputPer1mTokens
          outputPricePer1mTokens := route.pricingOutputPer1mTokens } := by
    simp only [Gateway.resolveRow, hreadId, hreadConnection, hmode, hkey, hlimit, ne_eq,
      not_true_eq_false, if_false]
    change (plane.decrypted key payload.providerConnectionId.toString
      (connectionColumns connection).apiKeyEncrypted >>= fun _ => _) = _
    rw [hdecrypted]
    rfl
  refine ⟨_, t, actor, payload, t', actor', request, key, hresolved, hop, hop',
    hasked.publicModel.1, ?_, hkey, hconnectionId, hsecret⟩
  constructor
  · rfl
  · exact hasked.upstreamModel.1
  · show trim connection.providerType = trim request.providerType
    rw [hregistered.providerType.1, trim_trim]
  · show limit.map _ = payload.maxTokens.map Int64.toInt
    rw [hmax, hasked.maxTokens.1]
  · exact hasked.inputPrice.1
  · exact hasked.outputPrice.1

theorem timed (hsound : CatalogueSound plane ops s)
    (h : row ∈ (served s hkeyed nodes).enabledRoutes) : Gateway.Timed row := by
  obtain ⟨route, hroute, connection, _, rfl, _⟩ := mem_served h
  obtain ⟨t, actor, payload, _, hasked⟩ := hsound.routes route hroute
  exact hasked.stamped.2

-- A model has a route that resolves, or none.
theorem resolve_cases (hsound : CatalogueSound plane ops s) (hreads : ReadsBack codec)
    (field model : String) :
    (∃ row ∈ (served s hkeyed nodes).enabledRoutes, row.publicModel = model ∧ ∃ route,
      Gateway.resolveRow codec plane.decrypted plane.providerSecretKey row = .ok route ∧
      resolveModelRoute codec plane.decrypted plane.providerSecretKey field model
        (served s hkeyed nodes) = .ok route) ∨
    (∀ row ∈ (served s hkeyed nodes).enabledRoutes, row.publicModel ≠ model) ∧
      resolveModelRoute codec plane.decrypted plane.providerSecretKey field model
        (served s hkeyed nodes) = .error (.invalidConfig field "model not found or disabled") := by
  by_cases hroute : ∃ row ∈ (served s hkeyed nodes).enabledRoutes, row.publicModel = model
  · obtain ⟨row, hmem, rfl⟩ := hroute
    obtain ⟨route, _, _, _, _, _, _, _, hresolved, _⟩ := resolves hsound hreads hmem
    refine .inl ⟨row, hmem, rfl, route, hresolved, ?_⟩
    rw [resolveModelRoute, Gateway.find_enabledRoutes hmem]
    exact hresolved
  · have hnone : ∀ row ∈ (served s hkeyed nodes).enabledRoutes, row.publicModel ≠ model :=
      fun row hmem hmodel => hroute ⟨row, hmem, hmodel⟩
    have hfound : (served s hkeyed nodes).enabledRoutes.find?
        (fun row => row.publicModel = model) = none := by
      rw [List.find?_eq_none]
      intro row hmem
      simpa using hnone row hmem
    refine .inr ⟨hnone, ?_⟩
    rw [resolveModelRoute, hfound]

end Routes

section Nodes

-- A node as the handlers leave it once it can be given work.
structure Readable (codec : NodeCodec) (node : DbDaemonNode) : Prop where
  models : ∃ modelIds, codec.listFromStr node.modelIdsJson = .ok modelIds ∧
    Daemon.NormalList modelIds
  capacity : Gateway.hasCapacity node = true
  id : ∃ id, codec.uuidParseStr node.id = .ok id

variable {codec : NodeCodec} {order : SeenOrder} {staleAfterSeconds now : Int64} {s : FleetState}
  {modelId : String} {nodes : List DbDaemonNode}

theorem readable_of_eligible (hwritten : NodesWritten codec s) (hreads : ReadsBack codec)
    {cutoff : String} {node : DbDaemonNode} (hmem : node ∈ s.nodes)
    (heligible : Daemon.eligible cutoff node = true) : Readable codec node := by
  simp only [Daemon.eligible, Bool.and_eq_true] at heligible
  have hmax := heligible.1.2
  obtain hnone | ⟨max, modelIds, hsome, hpos, hjson, hnormal, _⟩ :=
    (hwritten.nodes.rows node hmem).advertised
  · rw [hnone] at hmax
    cases hmax
  · obtain ⟨id, hid⟩ := hwritten.ids node hmem
    refine ⟨⟨modelIds, hreads.list _ _ hjson, hnormal⟩, ?_, id, ?_⟩
    · simpa [Gateway.hasCapacity, hsome] using hpos
    · rw [hid]
      exact hreads.uuid id

theorem found_of_readable (h : ∀ node ∈ nodes, Readable codec node)
    (hserves : ∃ node ∈ nodes, Serves codec modelId node) : Found codec modelId nodes := by
  induction nodes with
  | nil =>
    obtain ⟨node, hmem, _⟩ := hserves
    exact absurd hmem List.not_mem_nil
  | cons node nodes ih =>
    have hnode := h node List.mem_cons_self
    by_cases hfirst : Serves codec modelId node
    · obtain ⟨id, hid⟩ := hnode.id
      exact .here id hfirst hid
    · obtain ⟨modelIds, hread, _⟩ := hnode.models
      have hunlisted : modelId ∉ modelIds := fun hlisted =>
        hfirst ⟨modelIds, hread, hlisted, hnode.capacity⟩
      apply Found.later ⟨modelIds, hread, .inl hunlisted⟩
      apply ih fun other hmem => h other (List.mem_cons_of_mem node hmem)
      obtain ⟨other, hmem, hother⟩ := hserves
      rcases List.mem_cons.mp hmem with rfl | hmem
      · exact absurd hother hfirst
      · exact ⟨other, hmem, hother⟩

-- Nodes that can be read do not stop the search.
theorem firstServing_of_readable (h : ∀ node ∈ nodes, Readable codec node) :
    ∃ found, firstServing codec modelId nodes = .ok found := by
  by_cases hserves : ∃ node ∈ nodes, Serves codec modelId node
  · obtain ⟨node, hnode⟩ := (found_of_readable h hserves).firstServing
    exact ⟨some node, hnode⟩
  · refine ⟨none, Gateway.firstServing_none.mpr fun node hmem => ?_⟩
    obtain ⟨modelIds, hread, _⟩ := (h node hmem).models
    refine ⟨modelIds, hread, .inl fun hlisted => hserves ⟨node, hmem, modelIds, hread, hlisted, ?_⟩⟩
    exact (h node hmem).capacity

end Nodes

section Main

variable {plane : ControlPlane} {ops : Nat → CatalogueOp} {codec : NodeCodec} {s : CatalogueState}
  {fleet : FleetState} {hkeyed : Keyed s} {order : SeenOrder} {staleAfterSeconds now : Int64}

theorem Served.of_sound (hsound : CatalogueSound plane ops s) (hwritten : NodesWritten codec fleet)
    (hreads : ReadsBack codec) (order : SeenOrder) (staleAfterSeconds now : Int64) :
    Served plane codec order staleAfterSeconds now (served s hkeyed fleet.nodes) := by
  have htimed : ∀ row ∈ (served s hkeyed fleet.nodes).enabledRoutes, Gateway.Timed row :=
    fun row hmem => timed hsound hmem
  have hranked : ∀ node ∈ rankedNodes order staleAfterSeconds now (served s hkeyed fleet.nodes),
      Readable codec node := by
    intro node hmem
    obtain ⟨hnode, heligible⟩ := List.mem_filter.mp (order.mem_of_mem_arrange hmem)
    exact readable_of_eligible hwritten hreads hnode heligible
  constructor
  · have hroutes : ∃ data, Gateway.routeModels (Table.ascending RouteRow.publicModel
        (served s hkeyed fleet.nodes).enabledRoutes) = .ok data := by
      rw [Gateway.routeModels_ok]
      intro row hmem
      exact htimed row (Table.mem_ascending.mp hmem)
    obtain ⟨data, hdata⟩ := hroutes
    rw [listPublicModels, hdata]
    exact ⟨_, rfl⟩
  · intro model
    simp only [selectEligibleDaemonNode]
    split
    · exact ⟨none, rfl⟩
    · exact firstServing_of_readable hranked
  · intro field model error herror
    obtain ⟨_, _, _, route, _, hroute⟩ | ⟨_, hrefused⟩ :=
      @resolve_cases plane ops codec s fleet.nodes hkeyed hsound hreads field model
    · rw [hroute] at herror
      cases herror
    · exact (Except.error.inj (hrefused.symm.trans herror)).symm
  · intro field model
    rw [Gateway.listed_iff]
    constructor
    · rintro ⟨_, ⟨row, hmem, hmodel⟩ | ⟨node, hmem, hserves⟩⟩
      · obtain ⟨_, _, _, route, _, hroute⟩ | ⟨hnone, _⟩ := resolve_cases hsound hreads field model
        · exact .inl ⟨route, hroute⟩
        · exact absurd hmodel (hnone row hmem)
      · rw [listedNodes, Table.mem_ascending, List.mem_filter, Bool.and_eq_true] at hmem
        obtain ⟨hnode, heligible, _⟩ := hmem
        obtain ⟨modelIds, hread, hnormal⟩ :=
          (readable_of_eligible hwritten hreads hnode heligible).models
        obtain ⟨listed, hlist, hlisted, _⟩ := id hserves
        obtain rfl := Except.ok.inj (hread.symm.trans hlist)
        obtain ⟨htrim, hne⟩ := hnormal.trimmed model hlisted
        refine .inr ⟨htrim, Gateway.selects_iff.mpr ⟨by rwa [htrim], ?_⟩⟩
        rw [htrim]
        apply found_of_readable hranked
        exact ⟨node, order.mem_arrange.mpr (List.mem_filter.mpr ⟨hnode, heligible⟩), hserves⟩
    · rintro (⟨route, hroute⟩ | ⟨htrim, hselected⟩)
      · obtain ⟨row, hmem, hmodel, _⟩ := Gateway.resolves_of_ok hroute
        exact ⟨htimed, .inl ⟨row, hmem, hmodel⟩⟩
      · obtain ⟨_, hfound⟩ := Gateway.selects_iff.mp hselected
        rw [htrim] at hfound
        exact ⟨htimed, .inr hfound.listed⟩

theorem Resolved.of_sound (hsound : CatalogueSound plane ops s) (hreads : ReadsBack codec) :
    Resolved plane ops codec (served s hkeyed fleet.nodes) := by
  intro field model route hroute
  obtain ⟨row, hmem, rfl, resolved, hrow, hok⟩ | ⟨_, hrefused⟩ :=
    @resolve_cases plane ops codec s fleet.nodes hkeyed hsound hreads field model
  · obtain rfl := Except.ok.inj (hok.symm.trans hroute)
    obtain ⟨other, t, actor, payload, t', actor', connection, key, hother, hop, hop', hmodel,
      hasked,
      hkey, hid, hsecret⟩ := resolves hsound hreads hmem
    obtain rfl := Except.ok.inj (hrow.symm.trans hother)
    exact ⟨t, actor, payload, t', actor', connection, key, hop, hop', hmodel, hasked, hkey, row.2,
      (Gateway.Catalog.mem_enabledRoutes.mp hmem).2.1, hid, hsecret⟩
  · rw [hrefused] at hroute
    cases hroute

end Main

section Samples

-- `serde_json` on the lists of the node below.
def llamaCodec : NodeCodec where
  Value := Unit
  uuidParseStr := Uuid.parseHyphenated
  listToString values :=
    if values = ["llama"] then .ok "[\"llama\"]"
    else if values = [] then .ok "[]" else .error "unexpected values"
  listFromStr text :=
    if text = "[\"llama\"]" then .ok ["llama"]
    else if text = "[]" then .ok [] else .error "expected value at line 1 column 1"
  valueToString _ := .ok "null"

theorem llamaCodec_readsBack : ReadsBack llamaCodec := by
  refine ⟨Uuid.parseHyphenated_toString, fun values text h => ?_⟩
  simp only [llamaCodec] at h
  by_cases hllama : values = ["llama"]
  · rw [if_pos hllama] at h
    obtain rfl := Except.ok.inj h
    rw [hllama]
    rfl
  · rw [if_neg hllama] at h
    by_cases hnil : values = []
    · rw [if_pos hnil] at h
      obtain rfl := Except.ok.inj h
      rw [hnil]
      rfl
    · rw [if_neg hnil] at h
      cases h

end Samples

end Mizan.Catalogue
