import Mizan.Catalogue.Lifecycle

namespace Mizan.Catalogue

open Interleaving
open Connections (AUTH_MODE_API_KEY ProviderConnectionCreateRequest ProviderConnectionRow
  decryptProviderApiKey)

-- When the row was written, in the text that the listings read.
def StampedBy (createdAt updatedAt : String) : Prop :=
  updatedAt = createdAt ∧ ∃ seconds, Daemon.parseTimestamp createdAt = .ok seconds

-- What a registration leaves of its request. Its key can be had back, and no other mode is stored.
structure ConnectionOf (plane : ControlPlane) (payload : ProviderConnectionCreateRequest)
    (row : ProviderConnectionRow) : Prop where
  id : ∃ uuid : Uuid, row.id = uuid.toString
  name : row.name = trim payload.name ∧ row.name ≠ ""
  providerType : row.providerType = trim payload.providerType ∧ row.providerType ≠ ""
  authMode : row.authMode = AUTH_MODE_API_KEY ∧ row.authConfigJson = none
  baseUrl : row.baseUrl = trim (payload.baseUrl.getD "") ∧ row.baseUrl ≠ ""
  enabled : row.enabled = payload.enabled.getD true
  stamped : StampedBy row.createdAt row.updatedAt
  key : ∃ key, plane.providerSecretKey = some key ∧
    decryptProviderApiKey plane.crypto key row.id row.apiKeyEncrypted = some (.ok payload.secret)

structure RouteOf (payload : ModelRouteCreateRequest) (route : ModelRouteRow) : Prop where
  id : ∃ uuid : Uuid, route.id = uuid.toString
  connection : route.providerConnectionId = payload.providerConnectionId.toString
  publicModel : route.publicModel = trim payload.publicModel ∧ route.publicModel ≠ ""
  upstreamModel : route.upstreamModel = trim payload.upstreamModel ∧ route.upstreamModel ≠ ""
  maxTokens : route.maxTokens = payload.maxTokens ∧ ∀ value, route.maxTokens = some value →
    0 ≤ value
  inputPrice : route.pricingInputPer1mTokens = payload.pricingInputPer1mTokens.getD 0 ∧
    0 ≤ route.pricingInputPer1mTokens
  outputPrice : route.pricingOutputPer1mTokens = payload.pricingOutputPer1mTokens.getD 0 ∧
    0 ≤ route.pricingOutputPer1mTokens
  enabled : route.enabled = payload.enabled.getD true
  stamped : StampedBy route.createdAt route.updatedAt

section Rows

variable {plane : ControlPlane}

theorem stampedBy_toString (seconds : Int64) :
    StampedBy (toString seconds) (toString seconds) := by
  refine ⟨rfl, seconds, ?_⟩
  rw [Daemon.parseTimestamp, Daemon.parseI64_toString]
  rfl

theorem refuseNegative_ok {value : Option Int64} {key message : String} :
    refuseNegative value key message = .ok () ↔ ∀ number, value = some number → 0 ≤ number := by
  cases value with
  | none => simp [refuseNegative]
  | some number =>
    by_cases hnegative : number < 0
    · simp [refuseNegative, hnegative]
    · simp [refuseNegative, hnegative, Int64.not_lt.mp hnegative]

-- The checks of a route, in one statement.
theorem check_ok {payload : ModelRouteCreateRequest} (h : payload.check = .ok ()) :
    trim payload.publicModel ≠ "" ∧ trim payload.upstreamModel ≠ "" ∧
      (∀ value, payload.maxTokens = some value → 0 ≤ value) ∧
      (∀ value, payload.pricingInputPer1mTokens = some value → 0 ≤ value) ∧
      ∀ value, payload.pricingOutputPer1mTokens = some value → 0 ≤ value := by
  obtain ⟨_, hpublic, h⟩ := except_bind_eq_ok h
  obtain ⟨_, hupstream, h⟩ := except_bind_eq_ok h
  obtain ⟨_, hmax, h⟩ := except_bind_eq_ok h
  obtain ⟨_, hinput, houtput⟩ := except_bind_eq_ok h
  exact ⟨Connections.requireField_ok.mp hpublic, Connections.requireField_ok.mp hupstream,
    refuseNegative_ok.mp hmax, refuseNegative_ok.mp hinput, refuseNegative_ok.mp houtput⟩

theorem price_nonneg {price : Option Int64} (h : ∀ value, price = some value → 0 ≤ value) :
    0 ≤ price.getD 0 := by
  cases price with
  | none => decide
  | some value => exact h value rfl

theorem routeOf_routedFrom {payload : ModelRouteCreateRequest} {route : ModelRouteRow}
    (h : RoutedFrom payload route) : RouteOf payload route := by
  obtain ⟨id, seconds, hcheck, rfl⟩ := h
  obtain ⟨hpublic, hupstream, hmax, hinput, houtput⟩ := check_ok hcheck
  exact ⟨⟨id, rfl⟩, rfl, ⟨rfl, hpublic⟩, ⟨rfl, hupstream⟩, ⟨rfl, hmax⟩, ⟨rfl, price_nonneg hinput⟩,
    ⟨rfl, price_nonneg houtput⟩, rfl, stampedBy_toString seconds⟩

theorem connectionOf_registeredFrom (hcrypto : plane.crypto.Correct)
    {payload : ProviderConnectionCreateRequest} {row : ProviderConnectionRow}
    (h : RegisteredFrom plane payload row) : ConnectionOf plane payload row := by
  obtain ⟨id, seconds, hrow⟩ := h
  obtain ⟨mode, config, key, encrypted, _, hconfig, hname, htype, hurl, hsecret, hkey, hencrypted,
    rfl⟩ := Connections.checkedRow_ok.mp hrow
  -- the encryption refuses a blank key, which is what every other mode would give it
  have hapi : mode = AUTH_MODE_API_KEY := by
    by_contra hother
    rw [ProviderConnectionCreateRequest.secretMaterial, if_neg hother] at hencrypted
    exact Connections.encryptProviderApiKey_blank (by decide) hencrypted
  subst hapi
  have hconfig : config = none := by
    unfold Connections.normalizeAuthConfig at hconfig
    rw [if_pos rfl] at hconfig
    exact (Except.ok.inj hconfig).symm
  subst hconfig
  have hkeyne : key ≠ "" := by
    rintro rfl
    cases hencrypted
  have hid : (readings plane.providerSecretKey id (toString seconds)).id = id := rfl
  have hconnection : trim id.toString ≠ "" := by
    rw [trim_toString]
    exact Uuid.toString_ne_empty id
  have htrimmed : trim payload.secret ≠ "" := by
    rw [ProviderConnectionCreateRequest.secret, trim_trim]
    exact hsecret rfl
  rw [ProviderConnectionCreateRequest.secretMaterial, if_pos rfl, hid,
    Connections.encryptProviderApiKey_eq hkeyne hconnection htrimmed] at hencrypted
  exact ⟨⟨id, rfl⟩, ⟨rfl, hname⟩, ⟨rfl, htype⟩, ⟨rfl, rfl⟩, ⟨rfl, hurl rfl⟩, rfl,
    stampedBy_toString seconds, key, hkey,
    (Connections.decryptProviderApiKey_ok hcrypto hkeyne hconnection).mpr hencrypted⟩

end Rows

abbrev CatalogueConfig :=
  Config CatalogueCommand CatalogueCommand.Response (Except AppError CatalogueAnswer) CatalogueState

-- What can be read off the two tables at any moment of a run.
structure CatalogueSound (plane : ControlPlane) (ops : Nat → CatalogueOp) (s : CatalogueState) :
    Prop where
  connectionIds : (s.connections.map ProviderConnectionRow.id).Nodup
  names : (s.connections.map ProviderConnectionRow.name).Nodup
  routeIds : (s.routes.map ModelRouteRow.id).Nodup
  publicModels : (s.routes.map ModelRouteRow.publicModel).Nodup
  parents : ∀ route ∈ s.routes, ∃ connection ∈ s.connections,
    connection.id = route.providerConnectionId
  connections : ∀ row ∈ s.connections, ∃ t actor payload,
    ops t = .createProviderConnection actor payload ∧ ConnectionOf plane payload row
  routes : ∀ route ∈ s.routes, ∃ t actor payload,
    ops t = .createModelRoute actor payload ∧ RouteOf payload route

section Runs

variable {plane : ControlPlane} {ops : Nat → CatalogueOp} {s : CatalogueState}

theorem CatalogueInvariant.sound (h : CatalogueInvariant plane ops s)
    (hcrypto : plane.crypto.Correct) : CatalogueSound plane ops s := by
  refine ⟨h.connectionIds, h.names, h.routeIds, h.publicModels, h.parents, ?_, ?_⟩
  · intro row hmem
    obtain ⟨t, actor, payload, hop, hregistered⟩ := h.registered row hmem
    exact ⟨t, actor, payload, hop, connectionOf_registeredFrom hcrypto hregistered⟩
  · intro route hmem
    obtain ⟨t, actor, payload, hop, hrouted⟩ := h.routed route hmem
    exact ⟨t, actor, payload, hop, routeOf_routedFrom hrouted⟩

theorem Told.kept {op : CatalogueOp} {answer : CatalogueAnswer} {s' : CatalogueState}
    (h : Told plane op answer s) (hprogress : Progress s s') : Told plane op answer s' := by
  cases op with
  | createProviderConnection actor payload =>
    cases answer with
    | connectionCreated response =>
      obtain ⟨row, hregistered, hresponse, hkept⟩ := h
      exact ⟨row, hregistered, hresponse, hprogress.kept hkept⟩
    | routeCreated response => exact h
    | removed status => exact h
  | deleteProviderConnection actor id =>
    cases answer with
    | connectionCreated response => exact h
    | routeCreated response => exact h
    | removed status => exact ⟨h.1, hprogress.deletedConnections h.2⟩
  | createModelRoute actor payload =>
    cases answer with
    | connectionCreated response => exact h
    | routeCreated response =>
      obtain ⟨route, hrouted, hresponse, hkept⟩ := h
      exact ⟨route, hrouted, hresponse, hprogress.keptRoute hkept⟩
    | removed status => exact h
  | deleteModelRoute actor id =>
    cases answer with
    | connectionCreated response => exact h
    | routeCreated response => exact h
    | removed status => exact ⟨h.1, hprogress.deletedRoutes h.2⟩

def ToldBy (plane : ControlPlane) (op : CatalogueOp) (result : Except AppError CatalogueAnswer)
    (s : CatalogueState) : Prop :=
  ∀ answer, result = .ok answer → Told plane op answer s

theorem wrapped_spec {α : Type} {t : Nat} {op : CatalogueOp} {program : CatalogueM α}
    {wrap : α → CatalogueAnswer}
    (h : (catalogueProtocol plane ops).ewp t program (fun value s => Told plane op (wrap value) s)
      (fun _ _ => True) s) :
    (catalogueProtocol plane ops).wp t (program >>= fun value => pure (wrap value)).run
      (ToldBy plane op) s := by
  have hwhole : (catalogueProtocol plane ops).ewp t (program >>= fun value => pure (wrap value))
      (fun answer s => Told plane op answer s) (fun _ _ => True) s := by
    apply Protocol.ewp_seq h fun _ _ _ => trivial
    intro value s _ htold s' hrely _
    exact htold.kept hrely
  apply Protocol.wp_mono _ hwhole
  intro result s' _ houtcome answer hanswer
  rw [hanswer] at houtcome
  exact houtcome

theorem program_spec (t : Nat) (s : CatalogueState) :
    (catalogueProtocol plane ops).wp t (cataloguePrograms plane ops t)
    (ToldBy plane (ops t)) s := by
  unfold cataloguePrograms CatalogueOp.program
  cases hop : ops t with
  | createProviderConnection actor payload => exact wrapped_spec (createProviderConnection_spec hop)
  | deleteProviderConnection actor id => exact wrapped_spec (deleteProviderConnection_spec hop)
  | createModelRoute actor payload => exact wrapped_spec (createModelRoute_spec hop)
  | deleteModelRoute actor id => exact wrapped_spec (deleteModelRoute_spec hop)

theorem invariant_start (nowSeconds : Nat) :
    CatalogueInvariant plane ops (CatalogueState.start nowSeconds) := by
  constructor
  · exact List.nodup_nil
  · exact List.nodup_nil
  · exact List.nodup_nil
  · exact List.nodup_nil
  · exact fun _ hmem => absurd hmem List.not_mem_nil
  · exact fun _ hmem => absurd hmem List.not_mem_nil
  · exact fun _ hmem => absurd hmem List.not_mem_nil
  · exact fun _ hmem => absurd hmem List.not_mem_nil
  · exact fun _ hmem => absurd hmem List.not_mem_nil

-- Whatever the requests do to each other, every thread is where its program can be.
theorem catalogue_good {nowSeconds : Nat} {actions : List (Action CatalogueChoice)}
    {config : CatalogueConfig}
    (hrun : CatalogueState.system.run (cataloguePrograms plane ops) actions
      (System.initial (CatalogueState.start nowSeconds)) = some config) :
    (catalogueProtocol plane ops).Good (fun t => ToldBy plane (ops t)) config := by
  apply Protocol.good_run _ _ (fun t s _ _ => program_spec t s) actions hrun
  · exact Protocol.meets_allowed _ (fun _ _ _ _ => trivial) (fun _ _ => trivial) actions _
  · exact Protocol.good_initial _ (invariant_start nowSeconds) fun _ => trivial

theorem catalogue_is_sound (plane : ControlPlane) (ops : Nat → CatalogueOp) (nowSeconds : Nat)
    (actions : List (Action CatalogueChoice)) (config : CatalogueConfig)
    (hcrypto : plane.crypto.Correct)
    (hrun : CatalogueState.system.run (cataloguePrograms plane ops) actions
      (System.initial (CatalogueState.start nowSeconds)) = some config) :
    CatalogueSound plane ops config.state :=
  CatalogueInvariant.sound (catalogue_good hrun).1 hcrypto

end Runs

section Samples

def samplePlane : ControlPlane where
  codec := Connections.referenceCodec
  crypto := Connections.sampleCrypto
  words := Connections.lowercaseCrypto
  providerSecretKey := some "mizan-secret"

def openaiPayload : ProviderConnectionCreateRequest where
  name := " openai "
  providerType := "openai"
  baseUrl := some "https://api.openai.com/v1"
  apiKeyEncrypted := some " sk-live "
  authMode := none
  authConfigJson := none
  enabled := none

def gptPayload : ModelRouteCreateRequest where
  providerConnectionId := ⟨1⟩
  publicModel := "gpt"
  upstreamModel := "gpt-4o "
  maxTokens := some 4096
  pricingInputPer1mTokens := some 5
  pricingOutputPer1mTokens := none
  enabled := none

-- A connection, a route of it, the same route again, and the end of the first route.
def sampleOps : Nat → CatalogueOp
  | 0 => .createProviderConnection ⟨7⟩ openaiPayload
  | 1 => .createModelRoute ⟨7⟩ gptPayload
  | 2 => .createModelRoute ⟨7⟩ gptPayload
  | _ => .deleteModelRoute ⟨7⟩ ⟨2⟩

def routedActions : List (Action CatalogueChoice) :=
  .spawn 0 :: List.replicate 4 (.call 0 { uuid := ⟨1⟩ }) ++
    [.spawn 1, .spawn 2, .call 1 {}, .call 2 {}, .call 1 { uuid := ⟨2⟩ }, .call 2 { uuid := ⟨3⟩ },
      .call 1 {}, .call 2 {}, .call 1 {}, .call 2 {}, .call 1 {}]

theorem sample_catalogue_is_sound : ∃ config,
    CatalogueState.system.run (cataloguePrograms samplePlane sampleOps) routedActions
      (System.initial (CatalogueState.start 1700000000)) = some config ∧
    config.state.connections.map ProviderConnectionRow.name = ["openai"] ∧
    config.state.routes.map ModelRouteRow.publicModel = ["gpt"] ∧
    CatalogueSound samplePlane sampleOps config.state := by
  have hnames : (CatalogueState.system.run (cataloguePrograms samplePlane sampleOps) routedActions
      (System.initial (CatalogueState.start 1700000000))).map (fun config =>
        (config.state.connections.map ProviderConnectionRow.name,
          config.state.routes.map ModelRouteRow.publicModel)) = some (["openai"], ["gpt"]) := by
    decide +kernel
  obtain ⟨config, hrun, hrows⟩ := Option.map_eq_some_iff.mp hnames
  obtain ⟨hconnections, hroutes⟩ := Prod.mk.inj hrows
  exact ⟨config, hrun, hconnections, hroutes, catalogue_is_sound samplePlane sampleOps 1700000000
    routedActions config Connections.sampleCrypto_correct hrun⟩

end Samples

end Mizan.Catalogue
