import Mizan.Daemon.Nodes
import Mizan.Gateway.Admission
import Mizan.Gateway.Metering
import Mizan.Interleaving.Throughout
import Mizan.Dispatch.Operations

namespace Mizan.Gateway

open Interleaving Billing Dispatch
open Daemon (EligibleDaemonNode)

def RESPONSES_PATH : String := "/v1/responses"
def CHAT_COMPLETIONS_MODEL_FIELD : String := "chat_completion.model"
def CHAT_COMPLETIONS_STREAM_FIELD : String := "chat_completion.stream"
def CHAT_COMPLETIONS_MAX_TOKENS_FIELD : String := "chat_completion.max_tokens"
def RESPONSES_MODEL_FIELD : String := "responses.model"
def RESPONSES_STREAM_FIELD : String := "responses.stream"
def RESPONSES_MAX_TOKENS_FIELD : String := "responses.max_tokens"

structure GatewayRequestSpec where
  path : String
  modelField : String
  streamField : String
  maxTokensField : String
  allowStream : Bool
  deriving DecidableEq, Repr

def CHAT_COMPLETIONS_SPEC : GatewayRequestSpec :=
  { path := CHAT_COMPLETIONS_PATH
    modelField := CHAT_COMPLETIONS_MODEL_FIELD
    streamField := CHAT_COMPLETIONS_STREAM_FIELD
    maxTokensField := CHAT_COMPLETIONS_MAX_TOKENS_FIELD
    allowStream := true }

def RESPONSES_SPEC : GatewayRequestSpec :=
  { path := RESPONSES_PATH
    modelField := RESPONSES_MODEL_FIELD
    streamField := RESPONSES_STREAM_FIELD
    maxTokensField := RESPONSES_MAX_TOKENS_FIELD
    allowStream := false }

structure ChatCompletionsRequest where
  model : String
  messages : List ChatMessage
  stream : Bool := false
  maxTokens : Option UInt64 := none
  deriving DecidableEq, Repr

structure ApiKeyIdentity where
  userId : Uuid
  apiKeyId : Uuid
  deriving DecidableEq, Repr

-- The settings that a request is served under.
structure GatewayConfig where
  limitLeaseSeconds : UInt32
  daemonStaleSeconds : UInt32
  deriving DecidableEq, Repr

structure ResolvedModelRoute where
  id : Uuid
  providerConnectionId : Uuid
  upstreamModel : String
  providerType : String
  maxTokens : Option UInt64
  inputPricePer1mTokens : Int64
  outputPricePer1mTokens : Int64
  deriving DecidableEq, Repr

def ResolvedModelRoute.routePrice (route : ResolvedModelRoute) : RoutePrice :=
  { inputMicrocreditsPer1mTokens := route.inputPricePer1mTokens
    outputMicrocreditsPer1mTokens := route.outputPricePer1mTokens }

-- What the handler asks of the rest of the gateway. Every command but those of `gateway` that
-- run to their end at once is an await.
inductive HandlerCommand where
  | gateway (command : GatewayCommand)
  | nowV7
  | nowUtcEpochSeconds
  | resolveModelRoute (requestModelField publicModel : String)
  | selectEligibleDaemonNode (modelId : String) (staleAfterSeconds : Int64)
  | ensureSufficientCredit (userId : Uuid) (usage : TokenUsage) (routePrice : RoutePrice)
  | acquireRuntimeLimits (scopes : List LimitScope) (estimatedPromptTokens : UInt64)
  | chatCompletionsStream (request : ChatRequest)
  | dispatchToDaemonNode (input : DispatchJobInput)

def HandlerCommand.Response : HandlerCommand → Type
  | .gateway command => command.Response
  | .nowV7 => Uuid
  | .nowUtcEpochSeconds => Int64
  | .resolveModelRoute .. => Except AppError ResolvedModelRoute
  | .selectEligibleDaemonNode .. => Except AppError (Option EligibleDaemonNode)
  | .ensureSufficientCredit .. => Except AppError Unit
  | .acquireRuntimeLimits .. => Except AppError RuntimeLimitLease
  | .chatCompletionsStream _ => Except AppError Unit
  | .dispatchToDaemonNode _ => Except AppError DispatchJobResult

abbrev Handling (α : Type) := Prog HandlerCommand HandlerCommand.Response α

def serving {α : Type} (program : Serving α) : Handling α :=
  program.embed HandlerCommand.gateway fun _ response => response

-- What the handler hands to the server: a finished response, or one whose body is still to be
-- polled.
inductive GatewayOutcome where
  | response (response : GatewayResponse)
  | stream (state : StreamBuildState)
  deriving DecidableEq, Repr

def isModelRouteNotFound : AppError → Bool
  | .invalidConfig key message =>
      (key = CHAT_COMPLETIONS_MODEL_FIELD || key = RESPONSES_MODEL_FIELD) &&
        message = "model not found or disabled"
  | _ => false

-- The exits that only log the request and answer with an error.
def refuse (completionLog : GatewayCompletionLog) (error : AppError) : Handling GatewayOutcome := do
  let status := appErrorStatusCode error
  serving (recordGatewayRequestCompletion completionLog status (some (errorCodeFromAppError error)))
  pure (.response (.error status (.ofAppError error)))

-- A request to the gateway, with the ids that its headers name.
structure GatewayRequest where
  identity : ApiKeyIdentity
  xRequestId : Option Uuid
  xTraceId : Option Uuid
  payload : ChatCompletionsRequest
  spec : GatewayRequestSpec
  deriving DecidableEq, Repr

-- What a daemon-backed request is, once its node is known.
structure DaemonRequest where
  identity : ApiKeyIdentity
  context : RequestContext
  completionLog : GatewayCompletionLog
  requestId : Uuid
  publicModel : String
  nodeId : Uuid
  requestMessages : List ChatMessage
  routePrice : RoutePrice
  deriving DecidableEq, Repr

namespace DaemonRequest

def billingInput (request : DaemonRequest) (usage : TokenUsage) (status : UInt16)
    (latencyMs : UInt64) : BillingInput :=
  { requestId := request.requestId
    userId := request.identity.userId
    apiKeyId := some request.identity.apiKeyId
    providerId := none
    routeId := none
    daemonNodeId := some request.nodeId
    model := request.publicModel
    usage
    statusCode := status
    latencyMs
    routePrice := request.routePrice }

def observe (request : DaemonRequest) (usage : TokenUsage) (status : UInt16) (latencyMs : UInt64) :
    Serving Unit :=
  observeGatewayMetricsWithDaemonNode request.context request.publicModel (some request.nodeId)
    usage status latencyMs request.routePrice

-- `daemon_error_response`
def errorResponse (request : DaemonRequest) (error : AppError) : Serving GatewayResponse := do
  let status := appErrorStatusCode error
  let latencyMs ← Prog.ask GatewayCommand.elapsedMs
  let usage := estimateUsage request.requestMessages ""
  let _ ← Prog.ask (GatewayCommand.recordUsage (request.billingInput usage status latencyMs))
  request.observe usage status latencyMs
  recordGatewayRequestCompletion request.completionLog status (some (errorCodeFromAppError error))
  pure (.error status (.ofAppError error))

def succeeded (request : DaemonRequest) (upstreamResponse : ChatResponse) :
    Handling GatewayResponse := do
  let usage := upstreamResponse.usage.getD
    (estimateUsage request.requestMessages upstreamResponse.content)
  let latencyMs ← serving (Prog.ask GatewayCommand.elapsedMs)
  match ← serving (Prog.ask (GatewayCommand.recordUsage (request.billingInput usage 200 latencyMs)))
    with
  | .error error =>
      let status := appErrorStatusCode error
      serving (request.observe usage status latencyMs)
      serving (recordGatewayRequestCompletion request.completionLog status
        (some (errorCodeFromAppError error)))
      pure (.error status (.ofAppError error))
  | .ok () =>
      serving (request.observe usage 200 latencyMs)
      serving (recordGatewayRequestCompletion request.completionLog 200 none)
      let id ← Prog.ask HandlerCommand.nowV7
      let created ← Prog.ask HandlerCommand.nowUtcEpochSeconds
      pure (.completion (mapToChatCompletionResponse s!"chatcmpl-{id.toString}" request.publicModel
        created upstreamResponse))

def failedError (errorCode : Option String) (errorMessage : String) : AppError :=
  let code := errorCode.getD "daemon_error"
  .provider s!"daemon dispatch failed code={code} message={redactForLogs errorMessage}"

def TIMED_OUT : AppError := .provider "daemon dispatch timed out"

-- The response to a dispatch, after which the lease is given back.
def answer (request : DaemonRequest) : Except AppError DispatchJobResult → Handling GatewayResponse
  | .ok (.succeeded upstreamResponse) => request.succeeded upstreamResponse
  | .ok (.failed errorCode errorMessage) =>
      serving (request.errorResponse (failedError errorCode errorMessage))
  | .ok .timedOut => serving (request.errorResponse TIMED_OUT)
  | .error error => serving (request.errorResponse
      (normalizeProviderError error request.context request.publicModel))

end DaemonRequest

-- The credit check or the limits refused a daemon-backed request.
def refuseDaemonRequest (request : DaemonRequest) (usage : TokenUsage) (error : AppError) :
    Handling GatewayOutcome := do
  let status := appErrorStatusCode error
  serving (recordGatewayRequestCompletion request.completionLog status
    (some (errorCodeFromAppError error)))
  let latencyMs ← serving (Prog.ask GatewayCommand.elapsedMs)
  serving (request.observe usage status latencyMs)
  pure (.response (.error status (.ofAppError error)))

def clampTimeoutSeconds (limitLeaseSeconds : UInt32) : UInt32 := min (max limitLeaseSeconds 1) 30

-- `handle_daemon_chat_completion` once it has a node and the limit on the tokens.
def dispatchDaemonRequest (config : GatewayConfig) (request : DaemonRequest) (modelId : String)
    (effectiveMaxTokens : Option UInt64) : Handling GatewayOutcome := do
  let admissionUsage := estimateAdmissionUsage request.requestMessages effectiveMaxTokens
  match ← Prog.ask (HandlerCommand.ensureSufficientCredit request.identity.userId admissionUsage
      request.routePrice) with
  | .error error =>
      refuseDaemonRequest request (estimateUsage request.requestMessages "") error
  | .ok () =>
      match ← Prog.ask (HandlerCommand.acquireRuntimeLimits
          [.apiKey request.identity.apiKeyId, .user request.identity.userId]
          admissionUsage.totalTokens) with
      | .error error => refuseDaemonRequest request admissionUsage error
      | .ok limitLease => do
          let dispatchResult ← Prog.ask (HandlerCommand.dispatchToDaemonNode
            { requestId := request.requestId
              nodeId := request.nodeId
              userId := some request.identity.userId
              apiKeyId := some request.identity.apiKeyId
              model := request.publicModel
              request :=
                { model := modelId, messages := request.requestMessages, stream := false
                  maxTokens := effectiveMaxTokens }
              timeoutSeconds := clampTimeoutSeconds config.limitLeaseSeconds })
          let response ← request.answer dispatchResult
          serving (releaseLimitLease (some limitLease))
          pure (.response response)

def handleDaemonChatCompletion (config : GatewayConfig) (request : GatewayRequest)
    (context : RequestContext) (completionLog : GatewayCompletionLog) (publicModel : String) :
    Handling GatewayOutcome := do
  if request.payload.stream then
    refuse completionLog (.invalidConfig request.spec.streamField
      "stream is not supported for daemon-backed models yet")
  else
    match ← Prog.ask (HandlerCommand.selectEligibleDaemonNode publicModel
        (Int64.ofNat config.daemonStaleSeconds.toNat)) with
    | .error error => refuse completionLog error
    | .ok none =>
        refuse completionLog
          (.invalidConfig request.spec.modelField "model not found or disabled")
    | .ok (some node) =>
        let context : RequestContext :=
          { requestId := context.requestId
            traceId := context.traceId
            userId := some request.identity.userId
            apiKeyId := some request.identity.apiKeyId
            provider := some node.providerFamily
            providerId := none
            route := some publicModel
            routeId := none
            method := some "POST"
            path := some request.spec.path
            model := some node.modelId
            streaming := false }
        let completionLog : GatewayCompletionLog :=
          { (GatewayCompletionLog.new context).withRouteAlias publicModel with
            providerAlias := some "mizan-daemon"
            daemonNodeId := some node.id }
        match resolveEffectiveMaxTokens request.payload.maxTokens none request.spec.maxTokensField
          with
        | .error error => refuse completionLog error
        | .ok effectiveMaxTokens =>
            dispatchDaemonRequest config
              { identity := request.identity
                context
                completionLog
                requestId := context.requestId
                publicModel
                nodeId := node.id
                requestMessages := request.payload.messages
                routePrice := ⟨0, 0⟩ } node.modelId effectiveMaxTokens

-- The credit check refused a route-backed request, which is metered all the same.
def refuseCredit (request : AdmittedRequest) (error : AppError) : Serving GatewayOutcome := do
  let status := appErrorStatusCode error
  let latencyMs ← Prog.ask GatewayCommand.elapsedMs
  recordGatewayRequestCompletion request.completionLog status (some (errorCodeFromAppError error))
  let usage := estimateUsage request.requestMessages ""
  let _ ← Prog.ask (GatewayCommand.recordUsage (request.billingInput usage status latencyMs))
  let observedMs ← Prog.ask GatewayCommand.elapsedMs
  observeGatewayMetrics request.context request.publicModel usage status observedMs
    request.routePrice
  pure (.response (.error status (.ofAppError error)))

def refuseLimits (request : AdmittedRequest) (usage : TokenUsage) (error : AppError) :
    Serving GatewayOutcome := do
  let status := appErrorStatusCode error
  let latencyMs ← Prog.ask GatewayCommand.elapsedMs
  recordGatewayRequestCompletion request.completionLog status (some (errorCodeFromAppError error))
  observeGatewayMetrics request.context request.publicModel usage status latencyMs
    request.routePrice
  pure (.response (.error status (.ofAppError error)))

-- The two branches that hold the lease.
def serveAdmitted (request : AdmittedRequest) (limitLease : RuntimeLimitLease) :
    Handling GatewayOutcome := do
  let request := { request with limitLease }
  if request.upstreamRequest.stream then
    match ← Prog.ask (HandlerCommand.chatCompletionsStream request.upstreamRequest) with
    | .error error => do
        let response ← serving (request.upstreamFailed error)
        pure (.response response)
    | .ok () => pure (.stream request.streamState)
  else do
    let response ← serving request.complete
    pure (.response response)

-- The rest of `chat_completions_impl` once the route and the limit on the tokens are known. No
-- lease is held yet.
def admitRequest (request : AdmittedRequest) : Handling GatewayOutcome := do
  let admissionUsage :=
    estimateAdmissionUsage request.requestMessages request.upstreamRequest.maxTokens
  match ← Prog.ask (HandlerCommand.ensureSufficientCredit request.userId admissionUsage
      request.routePrice) with
  | .error error => serving (refuseCredit request error)
  | .ok () =>
      match ← Prog.ask (HandlerCommand.acquireRuntimeLimits
          [.apiKey request.apiKeyId, .user request.userId, .provider request.providerConnectionId]
          admissionUsage.totalTokens) with
      | .error error => serving (refuseLimits request admissionUsage error)
      | .ok limitLease => serveAdmitted request limitLease

def handleRouteChatCompletion (request : GatewayRequest) (context : RequestContext)
    (publicModel : String) (route : ResolvedModelRoute) : Handling GatewayOutcome := do
  let context : RequestContext :=
    { requestId := context.requestId
      traceId := context.traceId
      userId := some request.identity.userId
      apiKeyId := some request.identity.apiKeyId
      provider := some route.providerType
      providerId := some route.providerConnectionId
      route := some publicModel
      routeId := some route.id
      method := some "POST"
      path := some request.spec.path
      model := some route.upstreamModel
      streaming := request.payload.stream }
  let resolvedCompletionLog := (GatewayCompletionLog.new context).withRouteAlias publicModel
  match resolveEffectiveMaxTokens request.payload.maxTokens route.maxTokens
      request.spec.maxTokensField with
  | .error error => refuse resolvedCompletionLog error
  | .ok effectiveMaxTokens => do
      let id ← Prog.ask HandlerCommand.nowV7
      -- The clock may answer anything, so it is asked here for what is stamped later.
      let created ← Prog.ask HandlerCommand.nowUtcEpochSeconds
      admitRequest
        { completionId := s!"chatcmpl-{id.toString}"
          publicModel
          context
          upstreamRequest :=
            { model := route.upstreamModel, messages := request.payload.messages
              stream := request.payload.stream, maxTokens := effectiveMaxTokens }
          userId := request.identity.userId
          apiKeyId := request.identity.apiKeyId
          providerConnectionId := route.providerConnectionId
          routeId := route.id
          routePrice := route.routePrice
          providerName :=
            if route.providerType.toLower = "openai" then "openai" else "openai-compatible"
          limitLease := .noop
          created }

-- `parse_request_id_header(..).unwrap_or_else(Uuid::now_v7)`
def requestIdOr : Option Uuid → Handling Uuid
  | some id => pure id
  | none => Prog.ask HandlerCommand.nowV7

def chatCompletionsImpl (config : GatewayConfig) (request : GatewayRequest) :
    Handling GatewayOutcome := do
  let requestId ← requestIdOr request.xRequestId
  let publicModel := trim request.payload.model
  let context : RequestContext :=
    { requestId
      traceId := request.xTraceId.getD requestId
      userId := some request.identity.userId
      apiKeyId := some request.identity.apiKeyId
      provider := none
      providerId := none
      route := none
      routeId := none
      method := some "POST"
      path := some request.spec.path
      model := none
      streaming := request.payload.stream }
  let unresolvedCompletionLog := (GatewayCompletionLog.new context).withRouteAlias publicModel
  if publicModel = "" then
    refuse unresolvedCompletionLog (.invalidConfig request.spec.modelField "model is required")
  else if ¬request.spec.allowStream ∧ request.payload.stream then
    refuse unresolvedCompletionLog (.invalidConfig request.spec.streamField
      "stream is not supported for this endpoint yet")
  else
    match ← Prog.ask (HandlerCommand.resolveModelRoute request.spec.modelField publicModel) with
    | .ok route => handleRouteChatCompletion request context publicModel route
    | .error error =>
        if isModelRouteNotFound error then
          handleDaemonChatCompletion config request context unresolvedCompletionLog publicModel
        else refuse unresolvedCompletionLog error

end Mizan.Gateway
