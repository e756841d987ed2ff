import Mizan.Gateway.Catalog

namespace Mizan.Gateway

open Table
open Daemon (DbDaemonNode NodeCodec SeenOrder eligible parseJsonVec parseTimestamp firstServing
  selectEligibleDaemonNode)

-- A route that can be called as it is stored.
structure Runnable (codec : NodeCodec) (row : RouteRow) : Prop where
  id : ∃ id, codec.uuidParseStr row.1.id = .ok id
  connectionId : ∃ id, codec.uuidParseStr row.2.id = .ok id
  authMode : row.2.authMode = PROVIDER_AUTH_MODE_API_KEY
  maxTokens : ∀ value, row.1.maxTokens = some value → 0 ≤ value

-- A node that lists the model, and has a place for a request.
def Serves (codec : NodeCodec) (modelId : String) (node : DbDaemonNode) : Prop :=
  ∃ modelIds, codec.listFromStr node.modelIdsJson = .ok modelIds ∧ modelId ∈ modelIds ∧
    hasCapacity node = true

-- A node that is left out for this model. One that cannot be read is not.
def PassedOver (codec : NodeCodec) (modelId : String) (node : DbDaemonNode) : Prop :=
  ∃ modelIds, codec.listFromStr node.modelIdsJson = .ok modelIds ∧
    (modelId ∉ modelIds ∨ (node.maxConcurrency.getD 0).toInt = 0)

-- The nodes before the first that serves the model are all left out.
inductive Found (codec : NodeCodec) (modelId : String) : List DbDaemonNode → Prop where
  | here {node : DbDaemonNode} {nodes : List DbDaemonNode} (id : Uuid)
      (hserves : Serves codec modelId node) (hid : codec.uuidParseStr node.id = .ok id) :
      Found codec modelId (node :: nodes)
  | later {node : DbDaemonNode} {nodes : List DbDaemonNode}
      (hpassed : PassedOver codec modelId node) (h : Found codec modelId nodes) :
      Found codec modelId (node :: nodes)

section Rows

variable {codec : NodeCodec} {row : RouteRow} {catalog : Catalog} {modelId : String}

theorem routeMaxTokens_ok {maxTokens : Option Int64} :
    (∃ value, routeMaxTokens maxTokens = .ok value) ↔
      ∀ value, maxTokens = some value → 0 ≤ value := by
  cases maxTokens with
  | none => simp [routeMaxTokens]
  | some value =>
      by_cases hneg : value < 0
      · simp [routeMaxTokens, u64TryFrom, hneg]
      · simp [routeMaxTokens, u64TryFrom, hneg, Int64.not_lt.mp hneg]

theorem runnable_of_resolveRow {decrypt : String → String → String → Except AppError String}
    {secret : Option String} {route : ResolvedModelRoute}
    (h : resolveRow codec decrypt secret row = .ok route) : Runnable codec row := by
  obtain ⟨id, hid, h⟩ := except_bind_eq_ok h
  obtain ⟨connectionId, hconnectionId, h⟩ := except_bind_eq_ok h
  split at h
  · cases h
  · rename_i hmode
    split at h
    · cases h
    · obtain ⟨_, _, h⟩ := except_bind_eq_ok h
      obtain ⟨maxTokens, hmax, -⟩ := except_bind_eq_ok h
      exact ⟨⟨id, ok_of_mapError hid⟩, ⟨connectionId, ok_of_mapError hconnectionId⟩,
        not_not.mp hmode, routeMaxTokens_ok.mp ⟨maxTokens, hmax⟩⟩

-- Leaving aside whether the key of the provider can be decrypted.
theorem Runnable.resolveRow (h : Runnable codec row) :
    ∃ route, resolveRow codec (fun _ _ _ => .ok "") (some "") row = .ok route := by
  obtain ⟨id, hid⟩ := h.id
  obtain ⟨connectionId, hconnectionId⟩ := h.connectionId
  obtain ⟨maxTokens, hmax⟩ := routeMaxTokens_ok.mpr h.maxTokens
  simp only [Gateway.resolveRow, hid, hconnectionId, h.authMode, hmax, ne_eq, not_true_eq_false,
    if_false]
  exact ⟨_, rfl⟩

theorem find_enabledRoutes (h : row ∈ catalog.enabledRoutes) :
    catalog.enabledRoutes.find? (fun other => other.publicModel = row.publicModel) = some row := by
  cases hfound : catalog.enabledRoutes.find? fun other => other.publicModel = row.publicModel with
  | none =>
      rw [List.find?_eq_none] at hfound
      exact absurd (decide_eq_true rfl) (hfound row h)
  | some other =>
      have hmodel := List.find?_some hfound
      simp only [decide_eq_true_eq] at hmodel
      rw [eq_of_key catalog.enabledRoutes_unique (List.mem_of_find?_eq_some hfound) h hmodel]

theorem Serves.not_passedOver {node : DbDaemonNode} (h : Serves codec modelId node) :
    ¬PassedOver codec modelId node := by
  rintro ⟨modelIds, hread, hleft⟩
  obtain ⟨modelIds', hread', hlisted, hcapacity⟩ := h
  obtain rfl := Except.ok.inj (hread.symm.trans hread')
  simp only [hasCapacity, decide_eq_true_eq] at hcapacity
  obtain hnot | hzero := hleft
  · exact hnot hlisted
  · omega

-- What the search makes of its next node: it goes on, it ends there or it fails.
theorem firstServing_step (codec : NodeCodec) (modelId : String) (node : DbDaemonNode)
    (nodes : List DbDaemonNode) :
    (PassedOver codec modelId node ∧
      firstServing codec modelId (node :: nodes) = firstServing codec modelId nodes) ∨
    (∃ id found, Serves codec modelId node ∧ codec.uuidParseStr node.id = .ok id ∧
      found.modelId = modelId ∧ firstServing codec modelId (node :: nodes) = .ok (some found)) ∨
    (¬PassedOver codec modelId node ∧
      (∀ id, Serves codec modelId node → codec.uuidParseStr node.id ≠ .ok id) ∧
      ∃ message, firstServing codec modelId (node :: nodes) =
        .error (.infrastructure message)) := by
  cases hread : codec.listFromStr node.modelIdsJson with
  | error error =>
      refine .inr (.inr ⟨?_, ?_, ?_⟩)
      · rintro ⟨modelIds, hok, _⟩
        rw [hread] at hok
        cases hok
      · rintro id ⟨modelIds, hok, _⟩
        rw [hread] at hok
        cases hok
      · simp only [firstServing, parseJsonVec, hread, Except.mapError]
        exact ⟨_, rfl⟩
  | ok modelIds =>
      have hsearch : firstServing codec modelId (node :: nodes) =
          if modelId ∉ modelIds then firstServing codec modelId nodes
          else if (node.maxConcurrency.getD 0).toInt < 0 then
            .error (.infrastructure "stored daemon max_concurrency is invalid")
          else if (node.maxConcurrency.getD 0).toInt = 0 then firstServing codec modelId nodes
          else (do
            let id ← (codec.uuidParseStr node.id).mapError fun error =>
              .infrastructure s!"stored daemon node id is invalid: {error}"
            pure (some
              { id
                providerFamily := node.providerFamily.getD ""
                modelId
                maxConcurrency := UInt32.ofNat (node.maxConcurrency.getD 0).toInt.toNat
                lastSeenAt := node.lastSeenAt.getD "" })) := by
        simp only [firstServing, parseJsonVec, hread, Except.mapError]
        rfl
      rw [hsearch]
      by_cases hlisted : modelId ∈ modelIds
      · rw [if_neg (not_not.mpr hlisted)]
        rcases lt_trichotomy (node.maxConcurrency.getD 0).toInt 0 with hneg | hzero | hpos
        · rw [if_pos hneg]
          refine .inr (.inr ⟨?_, ?_, _, rfl⟩)
          · rintro ⟨modelIds', hok, hleft⟩
            obtain rfl := Except.ok.inj (hread.symm.trans hok)
            obtain hnot | hzero := hleft
            · exact hnot hlisted
            · omega
          · rintro id ⟨_, _, _, hcapacity⟩
            simp only [hasCapacity, decide_eq_true_eq] at hcapacity
            omega
        · rw [if_neg (by omega), if_pos hzero]
          exact .inl ⟨⟨modelIds, hread, .inr hzero⟩, rfl⟩
        · rw [if_neg (by omega), if_neg (by omega)]
          have hserves : Serves codec modelId node :=
            ⟨modelIds, hread, hlisted, decide_eq_true hpos⟩
          cases hid : codec.uuidParseStr node.id with
          | ok id => exact .inr (.inl ⟨id, _, hserves, rfl, rfl, rfl⟩)
          | error error =>
              refine .inr (.inr ⟨hserves.not_passedOver, fun id _ hok => ?_, _, rfl⟩)
              cases hok
      · rw [if_pos hlisted]
        exact .inl ⟨⟨modelIds, hread, .inl hlisted⟩, rfl⟩

theorem firstServing_found {nodes : List DbDaemonNode} {node : Daemon.EligibleDaemonNode}
    (h : firstServing codec modelId nodes = .ok (some node)) :
    Found codec modelId nodes ∧ node.modelId = modelId := by
  induction nodes with
  | nil => cases h
  | cons first nodes ih =>
      obtain ⟨hpassed, hsearch⟩ | ⟨id, found, hserves, hid, hmodel, hsearch⟩ | ⟨_, _, _, hsearch⟩ :=
        firstServing_step codec modelId first nodes
      · obtain ⟨hfound, hmodel⟩ := ih (hsearch.symm.trans h)
        exact ⟨.later hpassed hfound, hmodel⟩
      · obtain rfl := Option.some.inj (Except.ok.inj (hsearch.symm.trans h))
        exact ⟨.here id hserves hid, hmodel⟩
      · rw [hsearch] at h
        cases h

theorem Found.firstServing {nodes : List DbDaemonNode} (h : Found codec modelId nodes) :
    ∃ node, firstServing codec modelId nodes = .ok (some node) := by
  induction h with
  | @here node nodes id hserves hid =>
      obtain ⟨hpassed, _⟩ | ⟨_, found, _, _, _, hsearch⟩ | ⟨_, hunserved, _⟩ :=
        firstServing_step codec modelId node nodes
      · exact absurd hpassed hserves.not_passedOver
      · exact ⟨found, hsearch⟩
      · exact absurd hid (hunserved id hserves)
  | @later node nodes hpassed _ ih =>
      obtain ⟨_, hsearch⟩ | ⟨_, _, hserves, _⟩ | ⟨hkept, _⟩ :=
        firstServing_step codec modelId node nodes
      · rw [hsearch]
        exact ih
      · exact absurd hpassed hserves.not_passedOver
      · exact absurd hpassed hkept

theorem firstServing_none {nodes : List DbDaemonNode} :
    firstServing codec modelId nodes = .ok none ↔
    ∀ node ∈ nodes, PassedOver codec modelId node := by
  induction nodes with
  | nil => simp [Daemon.firstServing]
  | cons node nodes ih =>
      rw [List.forall_mem_cons]
      obtain ⟨hpassed, hsearch⟩ | ⟨_, _, hserves, _, _, hsearch⟩ | ⟨hkept, _, _, hsearch⟩ :=
        firstServing_step codec modelId node nodes
      · rw [hsearch, ih]
        simp only [hpassed, true_and]
      · simp [hsearch, hserves.not_passedOver]
      · simp [hsearch, hkept]

theorem firstServing_error {nodes : List DbDaemonNode} {error : AppError}
    (h : firstServing codec modelId nodes = .error error) :
    ∃ message, error = .infrastructure message := by
  induction nodes with
  | nil => cases h
  | cons node nodes ih =>
      obtain ⟨_, hsearch⟩ | ⟨_, _, _, _, _, hsearch⟩ | ⟨_, _, message, hsearch⟩ :=
        firstServing_step codec modelId node nodes
      · exact ih (hsearch.symm.trans h)
      · rw [hsearch] at h
        cases h
      · exact ⟨message, (Except.error.inj (hsearch.symm.trans h)).symm⟩

end Rows

section Pushes

variable {codec : NodeCodec} {id : String}

@[simp] theorem id_daemonModel (providerFamily modelId : String) :
    (daemonModel providerFamily modelId).id = modelId := rfl

theorem mem_pushDaemonModels (providerFamily : String) (data : List PublicModelResponse)
    (modelIds : List String) :
    id ∈ (pushDaemonModels providerFamily data modelIds).map PublicModelResponse.id ↔
      id ∈ data.map PublicModelResponse.id ∨ id ∈ modelIds := by
  induction modelIds generalizing data with
  | nil => simp [pushDaemonModels]
  | cons modelId modelIds ih =>
      by_cases hseen : modelId ∈ data.map PublicModelResponse.id
      · rw [pushDaemonModels, if_pos hseen, ih, List.mem_cons]
        constructor
        · exact fun h => h.imp_right .inr
        · rintro (h | rfl | h)
          · exact .inl h
          · exact .inl hseen
          · exact .inr h
      · rw [pushDaemonModels, if_neg hseen, ih]
        simp only [List.map_append, List.mem_append, List.map_cons, List.map_nil, id_daemonModel,
          List.mem_cons, List.not_mem_nil, or_false, or_assoc]

theorem nodup_pushDaemonModels (providerFamily : String) {data : List PublicModelResponse}
    (h : (data.map PublicModelResponse.id).Nodup) (modelIds : List String) :
    ((pushDaemonModels providerFamily data modelIds).map PublicModelResponse.id).Nodup := by
  induction modelIds generalizing data with
  | nil => exact h
  | cons modelId modelIds ih =>
      by_cases hseen : modelId ∈ data.map PublicModelResponse.id
      · rw [pushDaemonModels, if_pos hseen]
        exact ih h
      · rw [pushDaemonModels, if_neg hseen]
        apply ih
        rw [List.map_append, List.nodup_append]
        refine ⟨h, List.nodup_singleton _, fun first hfirst last hlast heq => hseen ?_⟩
        rw [List.mem_singleton.mp hlast, id_daemonModel] at heq
        exact heq ▸ hfirst

theorem parseJsonVec_eq_ok {raw fieldName : String} {modelIds : List String} :
    parseJsonVec codec raw fieldName = .ok modelIds ↔ codec.listFromStr raw = .ok modelIds := by
  constructor
  · exact ok_of_mapError
  · intro h
    rw [parseJsonVec, h]
    rfl

theorem mem_pushDaemonNodes (data : List PublicModelResponse) (nodes : List DbDaemonNode) :
    id ∈ (pushDaemonNodes codec data nodes).map PublicModelResponse.id ↔
      id ∈ data.map PublicModelResponse.id ∨ ∃ node ∈ nodes, ∃ modelIds,
        codec.listFromStr node.modelIdsJson = .ok modelIds ∧ id ∈ modelIds := by
  induction nodes generalizing data with
  | nil => simp [pushDaemonNodes]
  | cons node nodes ih =>
      rw [pushDaemonNodes]
      split
      · rename_i error herror
        rw [ih]
        have hunread : ¬∃ modelIds, codec.listFromStr node.modelIdsJson = .ok modelIds ∧
            id ∈ modelIds := by
          rintro ⟨modelIds, hread, _⟩
          rw [parseJsonVec_eq_ok.mpr hread] at herror
          cases herror
        simp only [List.mem_cons, exists_eq_or_imp, hunread, false_or]
      · rename_i modelIds hread
        rw [parseJsonVec_eq_ok] at hread
        rw [ih, mem_pushDaemonModels]
        simp only [List.mem_cons, exists_eq_or_imp, hread, Except.ok.injEq, or_assoc,
          exists_eq_left']

theorem nodup_pushDaemonNodes {data : List PublicModelResponse}
    (h : (data.map PublicModelResponse.id).Nodup) (nodes : List DbDaemonNode) :
    ((pushDaemonNodes codec data nodes).map PublicModelResponse.id).Nodup := by
  induction nodes generalizing data with
  | nil => exact h
  | cons node nodes ih =>
      rw [pushDaemonNodes]
      split
      · exact ih h
      · exact ih (nodup_pushDaemonModels _ h _)

theorem map_id_routeModels {rows : List RouteRow} {data : List PublicModelResponse}
    (h : routeModels rows = .ok data) :
    data.map PublicModelResponse.id = rows.map RouteRow.publicModel := by
  induction rows generalizing data with
  | nil =>
      obtain rfl := Except.ok.inj h
      rfl
  | cons row rows ih =>
      obtain ⟨created, _, h⟩ := except_bind_eq_ok h
      obtain ⟨rest, hrest, h⟩ := except_bind_eq_ok h
      obtain rfl := Except.ok.inj h
      simp only [List.map_cons, ih hrest]
      rfl

def Timed (row : RouteRow) : Prop := ∃ created, parseTimestamp row.1.createdAt = .ok created

theorem routeModels_ok {rows : List RouteRow} :
    (∃ data, routeModels rows = .ok data) ↔ ∀ row ∈ rows, Timed row := by
  induction rows with
  | nil => simp [routeModels]
  | cons row rows ih =>
      simp only [List.mem_cons, forall_eq_or_imp, ← ih]
      constructor
      · rintro ⟨data, h⟩
        obtain ⟨created, hcreated, h⟩ := except_bind_eq_ok h
        obtain ⟨rest, hrest, h⟩ := except_bind_eq_ok h
        exact ⟨⟨created, hcreated⟩, rest, hrest⟩
      · rintro ⟨⟨created, hcreated⟩, rest, hrest⟩
        rw [routeModels, hcreated, hrest]
        exact ⟨_, rfl⟩

end Pushes

section Listing

variable {codec : NodeCodec} {order : SeenOrder} {staleAfterSeconds now : Int64}
  {catalog : Catalog}

-- The nodes that may be given work, the one seen last first.
def rankedNodes (order : SeenOrder) (staleAfterSeconds now : Int64) (catalog : Catalog) :
    List DbDaemonNode :=
  order.arrange Daemon.seenKey
    (catalog.nodes.filter (eligible (Daemon.cutoff now staleAfterSeconds)))

-- What the rows of the tables say of a model that can be called.
def Callable (codec : NodeCodec) (order : SeenOrder) (staleAfterSeconds now : Int64)
    (catalog : Catalog) (modelId : String) : Prop :=
  (∃ row ∈ catalog.enabledRoutes, row.publicModel = modelId ∧ Runnable codec row) ∨
    trim modelId ≠ "" ∧ Found codec (trim modelId) (rankedNodes order staleAfterSeconds now catalog)

-- Leaving aside whether the key of the provider can be decrypted.
def Resolves (codec : NodeCodec) (catalog : Catalog) (model : String) : Prop :=
  ∃ row ∈ catalog.enabledRoutes, row.publicModel = model ∧
    row.2.authMode = PROVIDER_AUTH_MODE_API_KEY ∧ ∃ decrypt providerSecretKey, ∀ field, ∃ route,
      resolveModelRoute codec decrypt providerSecretKey field model catalog = .ok route

def Selects (codec : NodeCodec) (order : SeenOrder) (staleAfterSeconds now : Int64)
    (catalog : Catalog) (model : String) : Prop :=
  ∃ node, selectEligibleDaemonNode codec order model staleAfterSeconds now catalog.nodes =
    .ok (some node)

def Listed (codec : NodeCodec) (staleAfterSeconds now : Int64) (catalog : Catalog)
    (model : String) : Prop :=
  ∃ data, listPublicModels codec staleAfterSeconds now catalog = .ok data ∧
    model ∈ data.map PublicModelResponse.id

structure ListedMeansDispatchable (codec : NodeCodec) (order : SeenOrder)
    (staleAfterSeconds now : Int64) (catalog : Catalog) : Prop where
  listed : ∀ model, Listed codec staleAfterSeconds now catalog model →
    Resolves codec catalog model ∨ Selects codec order staleAfterSeconds now catalog model
  resolved : ∀ decrypt providerSecretKey field model route,
    resolveModelRoute codec decrypt providerSecretKey field model catalog = .ok route →
    Listed codec staleAfterSeconds now catalog model
  selected : ∀ model node,
    selectEligibleDaemonNode codec order model staleAfterSeconds now catalog.nodes =
      .ok (some node) → Listed codec staleAfterSeconds now catalog node.modelId
  sorted : ∀ data, listPublicModels codec staleAfterSeconds now catalog = .ok data →
    (data.map PublicModelResponse.id).Pairwise (· ≤ ·) ∧
      (data.map PublicModelResponse.id).Nodup

-- Every route and every node that the listing reads can be called for what it lists.
structure Consistent (codec : NodeCodec) (order : SeenOrder) (staleAfterSeconds now : Int64)
    (catalog : Catalog) : Prop where
  timed : (∀ row ∈ catalog.enabledRoutes, Timed row) ∨
    ∀ model, ¬Callable codec order staleAfterSeconds now catalog model
  routes : (∀ row ∈ catalog.enabledRoutes, Timed row) → ∀ row ∈ catalog.enabledRoutes,
    Callable codec order staleAfterSeconds now catalog row.publicModel
  nodes : (∀ row ∈ catalog.enabledRoutes, Timed row) →
    ∀ node ∈ listedNodes staleAfterSeconds now catalog, ∀ model, Serves codec model node →
      Callable codec order staleAfterSeconds now catalog model

theorem resolves_of_ok {decrypt : String → String → String → Except AppError String}
    {providerSecretKey : Option String} {field model : String} {route : ResolvedModelRoute}
    (h : resolveModelRoute codec decrypt providerSecretKey field model catalog = .ok route) :
    ∃ row ∈ catalog.enabledRoutes, row.publicModel = model ∧ Runnable codec row := by
  rw [resolveModelRoute] at h
  split at h
  · cases h
  · rename_i row hfound
    have hmodel := List.find?_some hfound
    simp only [decide_eq_true_eq] at hmodel
    exact ⟨row, List.mem_of_find?_eq_some hfound, hmodel, runnable_of_resolveRow h⟩

theorem resolves_iff {model : String} : Resolves codec catalog model ↔
    ∃ row ∈ catalog.enabledRoutes, row.publicModel = model ∧ Runnable codec row := by
  constructor
  · rintro ⟨_, _, _, _, decrypt, secret, h⟩
    obtain ⟨route, hroute⟩ := h ""
    exact resolves_of_ok hroute
  · rintro ⟨row, hmem, rfl, hrunnable⟩
    obtain ⟨route, hroute⟩ := hrunnable.resolveRow
    refine ⟨row, hmem, rfl, hrunnable.authMode, fun _ _ _ => .ok "", some "", fun field => ?_⟩
    rw [resolveModelRoute, find_enabledRoutes hmem]
    exact ⟨route, hroute⟩

theorem selected_found {model : String} {node : Daemon.EligibleDaemonNode}
    (h : selectEligibleDaemonNode codec order model staleAfterSeconds now catalog.nodes =
      .ok (some node)) :
    trim model ≠ "" ∧ Found codec (trim model) (rankedNodes order staleAfterSeconds now catalog) ∧
      node.modelId = trim model := by
  simp only [selectEligibleDaemonNode] at h
  split at h
  · cases h
  · rename_i hne
    exact ⟨hne, firstServing_found h⟩

theorem selects_iff {model : String} : Selects codec order staleAfterSeconds now catalog model ↔
    trim model ≠ "" ∧
      Found codec (trim model) (rankedNodes order staleAfterSeconds now catalog) := by
  constructor
  · rintro ⟨node, h⟩
    obtain ⟨hne, hfound, -⟩ := selected_found h
    exact ⟨hne, hfound⟩
  · rintro ⟨hne, hfound⟩
    obtain ⟨node, hnode⟩ := hfound.firstServing
    refine ⟨node, ?_⟩
    simp only [selectEligibleDaemonNode]
    rw [if_neg hne]
    exact hnode

theorem callable_iff {model : String} : Callable codec order staleAfterSeconds now catalog model ↔
    Resolves codec catalog model ∨ Selects codec order staleAfterSeconds now catalog model := by
  rw [Callable, resolves_iff, selects_iff]

theorem listPublicModels_ok {data : List PublicModelResponse}
    (h : listPublicModels codec staleAfterSeconds now catalog = .ok data) :
    ∃ routes, routeModels (ascending RouteRow.publicModel catalog.enabledRoutes) = .ok routes ∧
      data = ascending PublicModelResponse.id
        (pushDaemonNodes codec routes (listedNodes staleAfterSeconds now catalog)) := by
  obtain ⟨routes, hroutes, h⟩ := except_bind_eq_ok h
  exact ⟨routes, hroutes, (Except.ok.inj h).symm⟩

theorem listed_iff {model : String} : Listed codec staleAfterSeconds now catalog model ↔
    (∀ row ∈ catalog.enabledRoutes, Timed row) ∧
      ((∃ row ∈ catalog.enabledRoutes, row.publicModel = model) ∨
        ∃ node ∈ listedNodes staleAfterSeconds now catalog, Serves codec model node) := by
  have hids : ∀ routes, routeModels (ascending RouteRow.publicModel catalog.enabledRoutes) =
      .ok routes → (model ∈ (ascending PublicModelResponse.id (pushDaemonNodes codec routes
        (listedNodes staleAfterSeconds now catalog))).map PublicModelResponse.id ↔
      (∃ row ∈ catalog.enabledRoutes, row.publicModel = model) ∨
        ∃ node ∈ listedNodes staleAfterSeconds now catalog, Serves codec model node) := by
    intro routes hroutes
    have hcapacity : ∀ node ∈ listedNodes staleAfterSeconds now catalog,
        hasCapacity node = true := by
      intro node hnode
      rw [listedNodes, mem_ascending, List.mem_filter, Bool.and_eq_true] at hnode
      exact hnode.2.2
    rw [((perm_ascending _ _).map _).mem_iff, mem_pushDaemonNodes, map_id_routeModels hroutes,
      List.mem_map]
    simp only [mem_ascending]
    refine or_congr_right (exists_congr fun node => and_congr_right fun hnode => ?_)
    simp only [Serves, hcapacity node hnode, and_true]
  have htimed := @routeModels_ok (ascending RouteRow.publicModel catalog.enabledRoutes)
  simp only [mem_ascending] at htimed
  rw [← htimed]
  constructor
  · rintro ⟨data, hdata, hmem⟩
    obtain ⟨routes, hroutes, rfl⟩ := listPublicModels_ok hdata
    exact ⟨⟨routes, hroutes⟩, (hids routes hroutes).mp hmem⟩
  · rintro ⟨⟨routes, hroutes⟩, h⟩
    refine ⟨_, ?_, (hids routes hroutes).mpr h⟩
    rw [listPublicModels, hroutes]
    rfl

theorem listing_sorted {data : List PublicModelResponse}
    (h : listPublicModels codec staleAfterSeconds now catalog = .ok data) :
    (data.map PublicModelResponse.id).Pairwise (· ≤ ·) ∧
      (data.map PublicModelResponse.id).Nodup := by
  obtain ⟨routes, hroutes, rfl⟩ := listPublicModels_ok h
  refine ⟨pairwise_ascending _ _, ?_⟩
  rw [((perm_ascending _ _).map _).nodup_iff]
  apply nodup_pushDaemonNodes
  rw [map_id_routeModels hroutes, ((perm_ascending _ _).map _).nodup_iff]
  exact catalog.enabledRoutes_unique

theorem Found.mem {modelId : String} {nodes : List DbDaemonNode} (h : Found codec modelId nodes) :
    ∃ node ∈ nodes, Serves codec modelId node := by
  induction h with
  | @here node nodes id hserves hid => exact ⟨node, List.mem_cons_self, hserves⟩
  | later hpassed _ ih =>
      obtain ⟨node, hnode, hserves⟩ := ih
      exact ⟨node, List.mem_cons_of_mem _ hnode, hserves⟩

-- A node that can be found is one that the listing reads.
theorem Found.listed {modelId : String}
    (h : Found codec modelId (rankedNodes order staleAfterSeconds now catalog)) :
    ∃ node ∈ listedNodes staleAfterSeconds now catalog, Serves codec modelId node := by
  obtain ⟨node, hnode, hserves⟩ := h.mem
  obtain ⟨hmem, heligible⟩ := List.mem_filter.mp (order.mem_of_mem_arrange hnode)
  obtain ⟨modelIds, hread, hlisted, hcapacity⟩ := hserves
  refine ⟨node, ?_, modelIds, hread, hlisted, hcapacity⟩
  rw [listedNodes, mem_ascending, List.mem_filter, Bool.and_eq_true]
  exact ⟨hmem, heligible, hcapacity⟩

theorem listed_means_dispatchable_iff (codec : NodeCodec) (order : SeenOrder)
    (staleAfterSeconds now : Int64) (catalog : Catalog) :
    ListedMeansDispatchable codec order staleAfterSeconds now catalog ↔
      Consistent codec order staleAfterSeconds now catalog := by
  constructor
  · intro h
    refine ⟨?_, fun htimed row hrow => ?_, fun htimed node hnode model hserves => ?_⟩
    · by_cases htimed : ∀ row ∈ catalog.enabledRoutes, Timed row
      · exact .inl htimed
      · refine .inr fun model hcallable => htimed ?_
        rw [callable_iff, resolves_iff] at hcallable
        obtain ⟨row, hmem, rfl, hrunnable⟩ | ⟨node, hnode⟩ := hcallable
        · obtain ⟨route, hroute⟩ := hrunnable.resolveRow
          have hresolved : resolveModelRoute codec (fun _ _ _ => .ok "") (some "") ""
              row.publicModel catalog = .ok route := by
            rw [resolveModelRoute, find_enabledRoutes hmem]
            exact hroute
          exact (listed_iff.mp (h.resolved _ _ _ _ _ hresolved)).1
        · exact (listed_iff.mp (h.selected model node hnode)).1
    · rw [callable_iff]
      exact h.listed _ (listed_iff.mpr ⟨htimed, .inl ⟨row, hrow, rfl⟩⟩)
    · rw [callable_iff]
      exact h.listed _ (listed_iff.mpr ⟨htimed, .inr ⟨node, hnode, hserves⟩⟩)
  · intro h
    have htimed : ∀ model, Callable codec order staleAfterSeconds now catalog model →
        ∀ row ∈ catalog.enabledRoutes, Timed row := fun model hcallable =>
      h.timed.resolve_right fun hnone => hnone model hcallable
    constructor
    · intro model hlisted
      rw [← callable_iff]
      obtain ⟨hall, ⟨row, hrow, rfl⟩ | ⟨node, hnode, hserves⟩⟩ := listed_iff.mp hlisted
      · exact h.routes hall row hrow
      · exact h.nodes hall node hnode model hserves
    · intro decrypt secret field model route hroute
      obtain ⟨row, hrow, hmodel, hrunnable⟩ := resolves_of_ok hroute
      have hcallable : Callable codec order staleAfterSeconds now catalog model :=
        .inl ⟨row, hrow, hmodel, hrunnable⟩
      exact listed_iff.mpr ⟨htimed model hcallable, .inl ⟨row, hrow, hmodel⟩⟩
    · intro model node hnode
      obtain ⟨hne, hfound, hmodel⟩ := selected_found hnode
      rw [hmodel]
      exact listed_iff.mpr ⟨htimed model (.inr ⟨hne, hfound⟩), .inr hfound.listed⟩
    · exact fun data hdata => listing_sorted hdata

-- `serde_json` on the lists of the nodes below.
def listingCodec : NodeCodec where
  Value := Unit
  uuidParseStr text :=
    if text = (Uuid.mk 1).toString then .ok ⟨1⟩
    else if text = (Uuid.mk 2).toString then .ok ⟨2⟩
    else .error "invalid length: expected length 32 for simple format, found 0"
  listToString values :=
    .ok ("[" ++ String.intercalate "," (values.map fun value => "\"" ++ value ++ "\"") ++ "]")
  listFromStr text :=
    if text = "[\"healthy-daemon-model\"]" then .ok ["healthy-daemon-model"]
    else if text = "[\"llama-3\"]" then .ok ["llama-3"]
    else .error "invalid type: map, expected a sequence at line 1 column 0"
  valueToString _ := .ok "null"

def listingNode (id : Uuid) (modelIdsJson lastSeenAt : String) : DbDaemonNode :=
  { id := id.toString, hostUserId := none, label := none, hostname := none, publicKey := none
    tokenHash := "token-" ++ id.toString, status := "active", revoked := 0, disabled := 0
    lastSeenAt := some lastSeenAt, providerFamily := some "openai-compatible", modelIdsJson
    maxConcurrency := some 4, pricingMetadataJson := none, region := none, labelsJson := "[]"
    healthStatus := some "healthy", capabilityMetadataJson := none, createdAt := "1700000000"
    updatedAt := lastSeenAt }

def corruptCatalog : Catalog where
  connections := []
  routes := []
  nodes :=
    [listingNode ⟨1⟩ "[\"healthy-daemon-model\"]" "1700000000",
      listingNode ⟨2⟩ "\x7bnot-json" "1700000001"]
  connections_key := List.nodup_nil
  routes_unique := List.nodup_nil

-- The listing skips the corrupt node, and the selection stops at it.
theorem corrupt_node_hides_listed_model :
    ¬ListedMeansDispatchable listingCodec Descending.stable 60 1700000002 corruptCatalog := by
  intro h
  have hlisted : Listed listingCodec 60 1700000002 corruptCatalog "healthy-daemon-model" := by
    rw [listed_iff]
    refine ⟨fun row hrow => absurd hrow List.not_mem_nil,
      .inr ⟨listingNode ⟨1⟩ "[\"healthy-daemon-model\"]" "1700000000", ?_,
        ["healthy-daemon-model"], rfl, List.mem_singleton_self _, rfl⟩⟩
    rw [listedNodes, mem_ascending]
    exact List.mem_filter.mpr ⟨List.mem_cons_self, by decide +kernel⟩
  have hranked : rankedNodes Descending.stable 60 1700000002 corruptCatalog =
      corruptCatalog.nodes.reverse := by
    have hall : corruptCatalog.nodes.filter (eligible (Daemon.cutoff 1700000002 60)) =
        corruptCatalog.nodes := by
      decide +kernel
    rw [rankedNodes, hall]
    exact Descending.arrange_pair _ (by decide +kernel)
  have hunread : ∀ modelIds, listingCodec.listFromStr "\x7bnot-json" ≠ .ok modelIds := by
    intro modelIds hread
    cases hread
  obtain ⟨row, hrow, _⟩ | hselects := h.listed "healthy-daemon-model" hlisted
  · cases hrow
  · obtain ⟨_, hfound⟩ := selects_iff.mp hselects
    rw [hranked] at hfound
    cases hfound with
    | here id hserves hid =>
        obtain ⟨modelIds, hread, _⟩ := hserves
        exact hunread modelIds hread
    | later hpassed _ =>
        obtain ⟨modelIds, hread, _⟩ := hpassed
        exact hunread modelIds hread

end Listing

end Mizan.Gateway
