import Mizan.Gateway.Listing
import Mizan.Interleaving.Eval

namespace Mizan.Gateway

open Interleaving Dispatch Table
open Daemon (DbDaemonNode EligibleDaemonNode NodeCodec SeenOrder eligible firstServing
  selectEligibleDaemonNode)

-- What the handler is answered by everything but the tables.
abbrev Answers := (c : HandlerCommand) → c.Response

-- The tables as they stand while a request is handled, and the time at which they are read.
structure Surroundings where
  codec : NodeCodec
  order : SeenOrder
  decryptProviderApiKey : String → String → String → Except AppError String
  providerSecretKey : Option String
  now : Int64
  catalog : Catalog

namespace Surroundings

variable (around : Surroundings)

def selectNode (modelId : String) (staleAfterSeconds : Int64) :
    Except AppError (Option EligibleDaemonNode) :=
  selectEligibleDaemonNode around.codec around.order modelId staleAfterSeconds around.now
    around.catalog.nodes

def answer (answers : Answers) : (c : HandlerCommand) → c.Response
  | .resolveModelRoute requestModelField publicModel =>
      resolveModelRoute around.codec around.decryptProviderApiKey around.providerSecretKey
        requestModelField publicModel around.catalog
  | .selectEligibleDaemonNode modelId staleAfterSeconds =>
      around.selectNode modelId staleAfterSeconds
  | c => answers c

-- The commands that have been issued are kept.
def exec (c : HandlerCommand) (answers : Answers) (issued : List HandlerCommand) :
    Option (c.Response × List HandlerCommand) :=
  some (around.answer answers c, issued ++ [c])

end Surroundings

-- The commands that call an upstream or create a dispatch job.
def HandlerCommand.startsWork : HandlerCommand → Bool
  | .chatCompletionsStream _ | .dispatchToDaemonNode _ => true
  | .gateway (.chatCompletions _) => true
  | _ => false

def Idle (issued : List HandlerCommand) : Prop := ∀ c ∈ issued, c.startsWork = false

-- The public model has a route, which is disabled itself or belongs to a disabled provider.
def RouteOff (catalog : Catalog) (publicModel : String) : Prop :=
  ∃ row ∈ catalog.routeRows, row.publicModel = publicModel ∧ row.enabled = false

def disabledError (spec : GatewayRequestSpec) : AppError :=
  .invalidConfig spec.modelField "model not found or disabled"

def refusal (error : AppError) : GatewayOutcome :=
  .response (.error (appErrorStatusCode error) (.ofAppError error))

def AnsweredAsDisabled (around : Surroundings) (config : GatewayConfig) (request : GatewayRequest) :
    Prop :=
  ∀ choices outcome issued,
    (chatCompletionsImpl config request).play around.exec choices [] = some (outcome, issued) →
    outcome = refusal (disabledError request.spec) ∧ Idle issued

-- The request is one that no node is asked to serve.
structure LeftToNoNode (around : Surroundings) (config : GatewayConfig) (request : GatewayRequest) :
    Prop where
  model : trim request.payload.model ≠ ""
  stream : request.payload.stream = false
  nodes : ∀ node ∈ around.catalog.nodes, eligible
    (Daemon.cutoff around.now (Int64.ofNat config.daemonStaleSeconds.toNat)) node = true →
    PassedOver around.codec (trim request.payload.model) node

section Tables

variable {around : Surroundings} {modelId : String} {staleAfterSeconds : Int64}

theorem resolve_of_routeOff (h : RouteOff around.catalog modelId) (field : String) :
    resolveModelRoute around.codec around.decryptProviderApiKey around.providerSecretKey field
      modelId around.catalog = .error (.invalidConfig field "model not found or disabled") := by
  obtain ⟨row, hrow, hmodel, hoff⟩ := h
  have hnone : around.catalog.enabledRoutes.find? (fun other => other.publicModel = modelId) =
      none := by
    rw [List.find?_eq_none]
    intro other hother hsame
    obtain ⟨hmem, henabled⟩ := List.mem_filter.mp hother
    have heq : other = row := eq_of_key around.catalog.routeRows_unique hmem hrow
      ((of_decide_eq_true hsame).trans hmodel.symm)
    rw [heq, hoff] at henabled
    cases henabled
  rw [resolveModelRoute, hnone]

theorem selectNode_none (hblank : trim modelId ≠ "") :
    around.selectNode modelId staleAfterSeconds = .ok none ↔
      ∀ node ∈ around.catalog.nodes, eligible (Daemon.cutoff around.now staleAfterSeconds) node =
        true → PassedOver around.codec (trim modelId) node := by
  have hselect : selectEligibleDaemonNode around.codec around.order modelId staleAfterSeconds
      around.now around.catalog.nodes = firstServing around.codec (trim modelId)
        (rankedNodes around.order staleAfterSeconds around.now around.catalog) := by
    simp only [selectEligibleDaemonNode, if_neg hblank, rankedNodes]
  have hnone := @firstServing_none around.codec (trim modelId)
    (rankedNodes around.order staleAfterSeconds around.now around.catalog)
  simp only [rankedNodes, Descending.mem_arrange, List.mem_filter, and_imp] at hnone
  rw [← hnone, Surroundings.selectNode, hselect, rankedNodes]

theorem selectNode_error {error : AppError}
    (h : around.selectNode modelId staleAfterSeconds = .error error) :
    ∃ message, error = .infrastructure message := by
  simp only [Surroundings.selectNode, selectEligibleDaemonNode] at h
  split at h
  · cases h
  · exact firstServing_error h

end Tables

section Refused

variable {around : Surroundings} {issued : List HandlerCommand}

theorem Idle.push {c : HandlerCommand} (h : Idle issued) (hc : c.startsWork = false) :
    Idle (issued ++ [c]) := by
  intro other hother
  rcases List.mem_append.mp hother with hold | hlast
  · exact h other hold
  · rw [List.mem_singleton.mp hlast]
    exact hc

theorem idle_ask {c : HandlerCommand} {response : c.Response} (hidle : Idle issued)
    (hc : c.startsWork = false) (hanswer : ∀ answers, around.answer answers c = response) :
    (Prog.ask c).Throughout around.exec Idle
      (fun response' issued => response' = response ∧ Idle issued) issued := by
  refine Prog.throughout_ask hidle fun answers response' issued' h => ?_
  obtain ⟨rfl, rfl⟩ := Prod.mk.inj (Option.some.inj h)
  exact ⟨hanswer answers, hidle.push hc⟩

theorem idle_requestIdOr (hidle : Idle issued) (header : Option Uuid) :
    (requestIdOr header).Throughout around.exec Idle (fun _ issued => Idle issued) issued := by
  cases header with
  | some id => exact hidle
  | none =>
      refine Prog.throughout_ask hidle fun answers response issued' h => ?_
      obtain ⟨_, rfl⟩ := Prod.mk.inj (Option.some.inj h)
      exact hidle.push rfl

theorem refuse_eq (log : GatewayCompletionLog) (error : AppError) :
    refuse log error = .call (.gateway .elapsedMs) fun (latencyMs : UInt64) =>
      .call (.gateway (.recordRequestLog (log.requestLogInput (appErrorStatusCode error)
        (some (errorCodeFromAppError error)) latencyMs))) fun (_ : Unit) => .ret (refusal error) :=
  rfl

theorem idle_refuse (hidle : Idle issued) (log : GatewayCompletionLog) (error : AppError) :
    (refuse log error).Throughout around.exec Idle
      (fun outcome issued => outcome = refusal error ∧ Idle issued) issued := by
  rw [refuse_eq]
  refine ⟨hidle, fun answers latencyMs issued' h => ?_⟩
  cases h
  refine ⟨hidle.push rfl, fun answers _ issued'' h => ?_⟩
  cases h
  exact ⟨rfl, (hidle.push rfl).push rfl⟩

end Refused

section Requests

variable {around : Surroundings} {config : GatewayConfig} {request : GatewayRequest}

theorem isModelRouteNotFound_disabledError
    (hspec : request.spec = CHAT_COMPLETIONS_SPEC ∨ request.spec = RESPONSES_SPEC) :
    isModelRouteNotFound (disabledError request.spec) = true := by
  obtain hspec | hspec := hspec <;> rw [hspec] <;> rfl

-- Nothing is started for a request that is left to no node.
theorem LeftToNoNode.throughout (h : LeftToNoNode around config request)
    (hspec : request.spec = CHAT_COMPLETIONS_SPEC ∨ request.spec = RESPONSES_SPEC)
    (hoff : RouteOff around.catalog (trim request.payload.model)) :
    (chatCompletionsImpl config request).Throughout around.exec Idle
      (fun outcome issued => outcome = refusal (disabledError request.spec) ∧ Idle issued) [] := by
  refine Prog.throughout_bind (idle_requestIdOr (fun c hc => absurd hc List.not_mem_nil) _) ?_
  intro requestId issued hidle
  dsimp only
  rw [if_neg h.model, if_neg (by simp [h.stream])]
  have hresolved : ∀ answers, around.answer answers (.resolveModelRoute request.spec.modelField
      (trim request.payload.model)) = (.error (disabledError request.spec) :
        Except AppError ResolvedModelRoute) := fun _ => resolve_of_routeOff hoff _
  refine Prog.throughout_bind (idle_ask hidle rfl hresolved) ?_
  rintro _ issued ⟨rfl, hidle⟩
  dsimp only
  rw [if_pos (isModelRouteNotFound_disabledError hspec), handleDaemonChatCompletion,
    if_neg (by simp [h.stream])]
  have hblank : trim (trim request.payload.model) ≠ "" := by
    rw [trim_trim]
    exact h.model
  have hnone : around.selectNode (trim request.payload.model)
      (Int64.ofNat config.daemonStaleSeconds.toNat) = .ok none := by
    rw [selectNode_none hblank, trim_trim]
    exact h.nodes
  have hselected : ∀ answers, around.answer answers (.selectEligibleDaemonNode
      (trim request.payload.model) (Int64.ofNat config.daemonStaleSeconds.toNat)) = (.ok none :
        Except AppError (Option EligibleDaemonNode)) := fun _ => hnone
  refine Prog.throughout_bind (idle_ask hidle rfl hselected) ?_
  rintro _ issued ⟨rfl, hidle⟩
  exact idle_refuse hidle _ _

-- The answers of a gateway that has no objection.
def agreeable : Answers
  | .gateway .upstreamNext => (none : Option (Except AppError ChatStreamChunk))
  | .gateway (.chatCompletions _) => (.error .unauthorized : Except AppError ChatResponse)
  | .gateway .elapsedMs => (0 : UInt64)
  | .gateway (.recordUsage _) => (.ok () : Except AppError Unit)
  | .gateway (.observeGateway _) => ()
  | .gateway (.recordRequestLog _) => ()
  | .gateway (.releaseLimitLease _) => ()
  | .nowV7 => (⟨0⟩ : Uuid)
  | .nowUtcEpochSeconds => (0 : Int64)
  | .resolveModelRoute .. => (.error .unauthorized : Except AppError ResolvedModelRoute)
  | .selectEligibleDaemonNode .. => (.ok none : Except AppError (Option EligibleDaemonNode))
  | .ensureSufficientCredit .. => (.ok () : Except AppError Unit)
  | .acquireRuntimeLimits .. => (.ok .noop : Except AppError RuntimeLimitLease)
  | .chatCompletionsStream _ => (.ok () : Except AppError Unit)
  | .dispatchToDaemonNode _ => (.ok .timedOut : Except AppError DispatchJobResult)

def Surroundings.agree (around : Surroundings) (c : HandlerCommand) (issued : List HandlerCommand) :
    c.Response × List HandlerCommand := (around.answer agreeable c, issued ++ [c])

-- What has been issued stays issued.
theorem mem_issued {α : Type} (program : Handling α) {issued : List HandlerCommand}
    {c : HandlerCommand} (h : c ∈ issued) : c ∈ (program.eval around.agree issued).2 := by
  induction program generalizing issued with
  | ret value => exact h
  | call command next ih => exact ih _ (List.mem_append_left _ h)

theorem eval_select (modelId : String) (staleAfterSeconds : Int64) (issued : List HandlerCommand) :
    ((Prog.ask (HandlerCommand.selectEligibleDaemonNode modelId staleAfterSeconds) :
      Handling (Except AppError (Option EligibleDaemonNode))).eval around.agree issued).1 =
        around.selectNode modelId staleAfterSeconds := rfl

theorem AnsweredAsDisabled.agree (h : AnsweredAsDisabled around config request) :
    ((chatCompletionsImpl config request).eval around.agree []).1 =
      refusal (disabledError request.spec) ∧
    Idle ((chatCompletionsImpl config request).eval around.agree []).2 := by
  have hexec : ∀ c issued, ∃ answers, around.exec c answers (id issued) =
      some ((around.agree c issued).1, id (around.agree c issued).2) := fun _ _ => ⟨agreeable, rfl⟩
  obtain ⟨choices, hplay⟩ := Prog.exists_play_eval id hexec (chatCompletionsImpl config request) []
  exact h choices _ _ hplay

theorem eval_refuse (log : GatewayCompletionLog) (error : AppError)
    (issued : List HandlerCommand) :
    ((refuse log error).eval around.agree issued).1 = refusal error := rfl

-- Requests that are refused for different reasons are not answered alike.
theorem refusal_status {error error' : AppError} (h : refusal error = refusal error') :
    appErrorStatusCode error = appErrorStatusCode error' := by
  simp only [refusal, GatewayOutcome.response.injEq, GatewayResponse.error.injEq] at h
  exact h.1

theorem refusal_message {error error' : AppError} (h : refusal error = refusal error') :
    error.toString = error'.toString := by
  simp only [refusal, GatewayOutcome.response.injEq, GatewayResponse.error.injEq,
    ErrorEnvelope.ofAppError, ErrorEnvelope.mk.injEq] at h
  exact h.2.2

theorem refusal_ne_disabledError
    (hspec : request.spec = CHAT_COMPLETIONS_SPEC ∨ request.spec = RESPONSES_SPEC) :
    refusal (.invalidConfig request.spec.modelField "model is required") ≠
        refusal (disabledError request.spec) ∧
      refusal (.invalidConfig request.spec.streamField
        "stream is not supported for this endpoint yet") ≠ refusal (disabledError request.spec) ∧
      refusal (.invalidConfig request.spec.streamField
        "stream is not supported for daemon-backed models yet") ≠
          refusal (disabledError request.spec) := by
  obtain hspec | hspec := hspec <;> rw [hspec] <;>
    exact ⟨fun h => absurd (refusal_message h) (by decide +kernel),
      fun h => absurd (refusal_message h) (by decide +kernel),
      fun h => absurd (refusal_message h) (by decide +kernel)⟩

theorem resolveEffectiveMaxTokens_none (requested : Option UInt64) (fieldName : String) :
    resolveEffectiveMaxTokens requested none fieldName = .ok requested := by
  cases requested <;> rfl

-- A node that is found is given the request.
theorem dispatched_issued {nodeRequest : DaemonRequest} {modelId : String}
    {maxTokens : Option UInt64} {issued : List HandlerCommand} :
    ¬Idle ((dispatchDaemonRequest config nodeRequest modelId maxTokens).eval around.agree
      issued).2 := by
  intro hidle
  rw [dispatchDaemonRequest, Prog.eval_bind] at hidle
  change Idle ((Prog.ask (HandlerCommand.acquireRuntimeLimits _ _) >>= _ : Handling _).eval
    around.agree _).2 at hidle
  rw [Prog.eval_bind] at hidle
  change Idle ((Prog.ask (HandlerCommand.dispatchToDaemonNode _) >>= _ : Handling _).eval
    around.agree _).2 at hidle
  rw [Prog.eval_bind] at hidle
  have hdispatch := hidle _ (mem_issued _ (List.mem_append_right _ (List.mem_singleton_self _)))
  cases hdispatch

theorem AnsweredAsDisabled.leftToNoNode (h : AnsweredAsDisabled around config request)
    (hspec : request.spec = CHAT_COMPLETIONS_SPEC ∨ request.spec = RESPONSES_SPEC)
    (hoff : RouteOff around.catalog (trim request.payload.model)) :
    LeftToNoNode around config request := by
  obtain ⟨houtcome, hidle⟩ := h.agree
  obtain ⟨hrequired, hendpoint, hstreamed⟩ := refusal_ne_disabledError hspec
  rw [chatCompletionsImpl, Prog.eval_bind] at houtcome hidle
  generalize (requestIdOr request.xRequestId).eval around.agree [] = opened at houtcome hidle
  dsimp only at houtcome hidle
  by_cases hmodel : trim request.payload.model = ""
  · rw [if_pos hmodel, eval_refuse] at houtcome
    exact absurd houtcome hrequired
  rw [if_neg hmodel] at houtcome hidle
  by_cases hendpointStream : ¬request.spec.allowStream = true ∧ request.payload.stream = true
  · rw [if_pos hendpointStream, eval_refuse] at houtcome
    exact absurd houtcome hendpoint
  rw [if_neg hendpointStream, Prog.eval_bind] at houtcome hidle
  have hresolved : ((Prog.ask (HandlerCommand.resolveModelRoute request.spec.modelField
      (trim request.payload.model)) : Handling _).eval around.agree opened.2).1 =
        (.error (disabledError request.spec) : Except AppError ResolvedModelRoute) :=
    resolve_of_routeOff hoff _
  rw [hresolved] at houtcome hidle
  dsimp only at houtcome hidle
  rw [if_pos (isModelRouteNotFound_disabledError hspec), handleDaemonChatCompletion]
    at houtcome hidle
  by_cases hstream : request.payload.stream = true
  · rw [if_pos hstream, eval_refuse] at houtcome
    exact absurd houtcome hstreamed
  rw [if_neg hstream, Prog.eval_bind] at houtcome hidle
  refine ⟨hmodel, eq_false_of_ne_true hstream, ?_⟩
  have hblank : trim (trim request.payload.model) ≠ "" := by
    rw [trim_trim]
    exact hmodel
  have hnone := @selectNode_none around (trim request.payload.model)
    (Int64.ofNat config.daemonStaleSeconds.toNat) hblank
  rw [trim_trim] at hnone
  rw [← hnone]
  generalize ((Prog.ask (HandlerCommand.resolveModelRoute request.spec.modelField
    (trim request.payload.model)) : Handling _).eval around.agree opened.2).2 = resolved
    at houtcome hidle
  rw [eval_select] at houtcome hidle
  cases hselect : around.selectNode (trim request.payload.model)
      (Int64.ofNat config.daemonStaleSeconds.toNat) with
  | error error =>
      rw [hselect] at houtcome
      obtain ⟨message, rfl⟩ := selectNode_error hselect
      have hstatus := refusal_status houtcome
      simp [appErrorStatusCode, disabledError] at hstatus
  | ok found =>
      cases found with
      | none => rfl
      | some node =>
          rw [hselect] at hidle
          dsimp only at hidle
          rw [resolveEffectiveMaxTokens_none] at hidle
          exact absurd hidle dispatched_issued

theorem answered_as_disabled_iff (around : Surroundings) (config : GatewayConfig)
    (request : GatewayRequest)
    (hspec : request.spec = CHAT_COMPLETIONS_SPEC ∨ request.spec = RESPONSES_SPEC)
    (hoff : RouteOff around.catalog (trim request.payload.model)) :
    AnsweredAsDisabled around config request ↔ LeftToNoNode around config request := by
  constructor
  · exact fun h => h.leftToNoNode hspec hoff
  · intro h choices outcome issued hplay
    have hpost := Prog.play_of_throughout (h.throughout hspec hoff) hplay
    exact hpost

end Requests

def openaiConnection : DbProviderConnection :=
  { id := (Uuid.mk 3).toString, name := "openai", providerType := "openai", authMode := "api_key"
    apiKeyEncrypted := "", enabled := 1 }

def disabledRoute : DbModelRoute :=
  { id := (Uuid.mk 4).toString, providerConnectionId := (Uuid.mk 3).toString
    publicModel := "healthy-daemon-model", upstreamModel := "gpt-4o", maxTokens := none
    pricingInputPer1mTokens := 1000, pricingOutputPer1mTokens := 2000, enabled := 0
    createdAt := "1700000000" }

def disabledCatalog (nodes : List DbDaemonNode) : Catalog where
  connections := [openaiConnection]
  routes := [disabledRoute]
  nodes
  connections_key := List.nodup_singleton _
  routes_unique := List.nodup_singleton _

def disabledSurroundings (nodes : List DbDaemonNode) : Surroundings where
  codec := listingCodec
  order := Descending.stable
  decryptProviderApiKey _ _ _ := .error (.invalidConfig "provider_connection.api_key_encrypted"
    "encrypted api key is required")
  providerSecretKey := some "secret"
  now := 1700000002
  catalog := disabledCatalog nodes

def disabledConfig : GatewayConfig := { limitLeaseSeconds := 30, daemonStaleSeconds := 60 }

def disabledRequest : GatewayRequest where
  identity := { userId := ⟨7⟩, apiKeyId := ⟨8⟩ }
  xRequestId := none
  xTraceId := none
  payload := { model := "healthy-daemon-model", messages := [⟨"user", "hello"⟩] }
  spec := CHAT_COMPLETIONS_SPEC

theorem disabledCatalog_routeOff (nodes : List DbDaemonNode) :
    RouteOff (disabledCatalog nodes) (trim disabledRequest.payload.model) := by
  have htrim : trim disabledRequest.payload.model = "healthy-daemon-model" := by decide +kernel
  rw [htrim]
  refine ⟨(disabledRoute, openaiConnection), mem_innerJoin.mpr ?_, rfl, rfl⟩
  exact ⟨List.mem_singleton_self _, List.mem_singleton_self _, decide_eq_true rfl⟩

-- The one node that is up serves another model.
def otherNode : DbDaemonNode := listingNode ⟨1⟩ "[\"llama-3\"]" "1700000000"

theorem disabled_route_is_off_where_no_node_serves :
    AnsweredAsDisabled (disabledSurroundings [otherNode]) disabledConfig disabledRequest := by
  have hiff := answered_as_disabled_iff (disabledSurroundings [otherNode]) disabledConfig
    disabledRequest (.inl rfl) (disabledCatalog_routeOff [otherNode])
  refine hiff.mpr ⟨by decide +kernel, rfl, fun node hnode _ => ?_⟩
  have htrim : trim disabledRequest.payload.model = "healthy-daemon-model" := by decide +kernel
  rw [List.mem_singleton.mp hnode, htrim]
  exact ⟨["llama-3"], rfl, .inl (by decide)⟩

-- A node serves the model of the disabled route.
theorem disabled_route_is_served_by_node : ¬AnsweredAsDisabled (disabledSurroundings
    [listingNode ⟨1⟩ "[\"healthy-daemon-model\"]" "1700000000"]) disabledConfig
      disabledRequest := by
  intro h
  have hleft := h.leftToNoNode (.inl rfl) (disabledCatalog_routeOff _)
  have hpassed := hleft.nodes _ (List.mem_singleton_self _) (by decide +kernel)
  have htrim : trim disabledRequest.payload.model = "healthy-daemon-model" := by decide +kernel
  have hserves : Serves listingCodec (trim disabledRequest.payload.model)
      (listingNode ⟨1⟩ "[\"healthy-daemon-model\"]" "1700000000") := by
    rw [htrim]
    exact ⟨["healthy-daemon-model"], rfl, List.mem_singleton_self _, rfl⟩
  exact hserves.not_passedOver hpassed

end Mizan.Gateway
