import Mizan.Interleaving.Rely
import Mizan.Core.Redaction
import Mizan.Limits.Types
import Mizan.Billing.Operations

namespace Mizan.Gateway

open Interleaving Billing

def CHAT_COMPLETIONS_PATH : String := "/v1/chat/completions"

def appErrorStatusCode : AppError → UInt16
  | .invalidConfig .. => 400
  | .notFound _ => 404
  | .unauthorized => 401
  | .forbidden => 403
  | .provider _ => 502
  | .limitExceeded _ => 429
  | .insufficientCredit => 402
  | .config .. | .infrastructure _ | .io _ => 500

def errorCodeFromAppError (error : AppError) : String := error.publicCode

def normalizeProviderError (error : AppError) (context : RequestContext) (routeAlias : String) :
    AppError :=
  let provider := context.provider.getD "unknown"
  let requestId := context.requestId.toString
  match error with
  | .infrastructure message => .provider (redactForLogs
      s!"upstream transport failure route={routeAlias} provider={provider} request_id={requestId}: {message}")
  | .provider message => .provider (redactForLogs
      s!"upstream provider error route={routeAlias} provider={provider} request_id={requestId}: {message}")
  | other => other

structure GatewayObservation where
  route : String
  provider : String
  model : String
  daemonNode : Option String
  status : UInt16
  usage : TokenUsage
  latencyMs : UInt64
  routePrice : RoutePrice
  deriving DecidableEq, Repr

structure RequestLogInput where
  requestId : Uuid
  userId : Option Uuid
  apiKeyId : Option Uuid
  providerId : Option Uuid
  routeId : Option Uuid
  daemonNodeId : Option Uuid
  method : String
  path : String
  route : Option String
  provider : Option String
  statusCode : UInt16
  latencyMs : UInt64
  errorCode : Option String
  deriving DecidableEq, Repr

structure GatewayCompletionLog where
  context : RequestContext
  routeAlias : Option String
  providerAlias : Option String
  daemonNodeId : Option Uuid
  deriving DecidableEq, Repr

namespace GatewayCompletionLog

def new (context : RequestContext) : GatewayCompletionLog :=
  { context, routeAlias := none, providerAlias := none, daemonNodeId := none }

def withRouteAlias (log : GatewayCompletionLog) (routeAlias : String) : GatewayCompletionLog :=
  { log with routeAlias := some routeAlias }

def requestLogInput (log : GatewayCompletionLog) (status : UInt16) (errorCode : Option String)
    (latencyMs : UInt64) : RequestLogInput :=
  { requestId := log.context.requestId
    userId := log.context.userId
    apiKeyId := log.context.apiKeyId
    providerId := log.context.providerId
    routeId := log.context.routeId
    daemonNodeId := log.daemonNodeId
    method := log.context.method.getD "POST"
    path := log.context.path.getD CHAT_COMPLETIONS_PATH
    route := log.context.route.or log.routeAlias
    provider := log.context.provider.or log.providerAlias
    statusCode := status
    latencyMs
    errorCode }

end GatewayCompletionLog

-- What serving a request asks of the rest of the gateway.
inductive GatewayCommand where
  | upstreamNext
  | chatCompletions (request : ChatRequest)
  | elapsedMs
  | recordUsage (input : BillingInput)
  | observeGateway (observation : GatewayObservation)
  | recordRequestLog (input : RequestLogInput)
  | releaseLimitLease (lease : RuntimeLimitLease)

def GatewayCommand.Response : GatewayCommand → Type
  | .upstreamNext => Option (Except AppError ChatStreamChunk)
  | .chatCompletions _ => Except AppError ChatResponse
  | .elapsedMs => UInt64
  | .recordUsage _ => Except AppError Unit
  | .observeGateway _ => Unit
  | .recordRequestLog _ => Unit
  | .releaseLimitLease _ => Unit

abbrev Serving (α : Type) := Prog GatewayCommand GatewayCommand.Response α

def recordGatewayRequestCompletion (log : GatewayCompletionLog) (status : UInt16)
    (errorCode : Option String) : Serving Unit := do
  let latencyMs ← Prog.ask GatewayCommand.elapsedMs
  Prog.ask (GatewayCommand.recordRequestLog (log.requestLogInput status errorCode latencyMs))

def observeGatewayMetricsWithDaemonNode (context : RequestContext) (routeAlias : String)
    (daemonNodeId : Option Uuid) (usage : TokenUsage) (status : UInt16) (latencyMs : UInt64)
    (routePrice : RoutePrice) : Serving Unit :=
  Prog.ask (GatewayCommand.observeGateway
    { route := context.route.getD routeAlias
      provider := context.provider.getD "unknown"
      model := context.model.getD "unknown"
      daemonNode := daemonNodeId.map Uuid.toString
      status
      usage
      latencyMs
      routePrice })

def observeGatewayMetrics (context : RequestContext) (routeAlias : String) (usage : TokenUsage)
    (status : UInt16) (latencyMs : UInt64) (routePrice : RoutePrice) : Serving Unit :=
  observeGatewayMetricsWithDaemonNode context routeAlias none usage status latencyMs routePrice

def releaseLimitLease : Option RuntimeLimitLease → Serving Unit
  | none => pure ()
  | some lease => Prog.ask (GatewayCommand.releaseLimitLease lease)

-- One request: what its upstream still has to say, and what has been done about it so far.
structure RequestTrace where
  upstream : List (Except AppError ChatStreamChunk)
  response : Except AppError ChatResponse
  usages : List BillingInput
  observations : List GatewayObservation
  requestLogs : List RequestLogInput
  released : List RuntimeLimitLease
  deriving Repr

structure ServingChoice where
  elapsedMs : UInt64 := 0
  recordUsage : Except AppError Unit := .ok ()

namespace RequestTrace

def start (upstream : List (Except AppError ChatStreamChunk))
    (response : Except AppError ChatResponse) : RequestTrace :=
  { upstream, response, usages := [], observations := [], requestLogs := [], released := [] }

def exec : (c : GatewayCommand) → ServingChoice → RequestTrace → c.Response × RequestTrace
  | .upstreamNext, _, trace =>
      (trace.upstream.head?, { trace with upstream := trace.upstream.tail })
  | .chatCompletions _, _, trace => (trace.response, trace)
  | .elapsedMs, choice, trace => (choice.elapsedMs, trace)
  | .recordUsage input, choice, trace =>
      (choice.recordUsage, { trace with usages := trace.usages ++ [input] })
  | .observeGateway observation, _, trace =>
      ((), { trace with observations := trace.observations ++ [observation] })
  | .recordRequestLog input, _, trace =>
      ((), { trace with requestLogs := trace.requestLogs ++ [input] })
  | .releaseLimitLease lease, _, trace =>
      ((), { trace with released := trace.released ++ [lease] })

def system : System GatewayCommand GatewayCommand.Response ServingChoice RequestTrace where
  exec _ c choice trace := some (exec c choice trace)
  env _ _ := none

-- What serving the request does, whatever the clock and the billing answer.
abbrev Serves {α : Type} (program : Serving α) (post : α → RequestTrace → Prop)
    (trace : RequestTrace) : Prop := (Protocol.alone system).wp 0 program post trace

variable {α : Type} {trace : RequestTrace}

theorem serves_ask {c : GatewayCommand} {post : c.Response → RequestTrace → Prop}
    (h : ∀ choice, post (exec c choice trace).1 (exec c choice trace).2) :
    Serves (Prog.ask c) post trace := by
  refine Protocol.alone_ask fun choice response trace' hexec => ?_
  have hchoice := h choice
  rw [Option.some.inj hexec] at hchoice
  exact hchoice

theorem serves_elapsedMs :
    Serves (Prog.ask GatewayCommand.elapsedMs) (fun _ trace' => trace' = trace) trace :=
  serves_ask fun _ => rfl

theorem serves_releaseLimitLease (lease : Option RuntimeLimitLease) :
    Serves (releaseLimitLease lease)
      (fun _ trace' => trace' = { trace with released := trace.released ++ lease.toList })
        trace := by
  cases lease with
  | none => exact Protocol.alone_ret (by simp)
  | some lease => exact serves_ask fun _ => rfl

theorem serves_recordGatewayRequestCompletion (log : GatewayCompletionLog) (status : UInt16)
    (errorCode : Option String) :
    Serves (recordGatewayRequestCompletion log status errorCode)
      (fun _ trace' => ∃ latencyMs, trace' = { trace with
        requestLogs := trace.requestLogs ++ [log.requestLogInput status errorCode latencyMs] })
      trace := by
  refine Protocol.alone_bind serves_elapsedMs ?_
  rintro latencyMs _ rfl
  exact serves_ask fun _ => ⟨latencyMs, rfl⟩

theorem serves_observeGatewayMetrics (context : RequestContext) (routeAlias : String)
    (usage : TokenUsage) (status : UInt16) (latencyMs : UInt64) (routePrice : RoutePrice) :
    Serves (observeGatewayMetrics context routeAlias usage status latencyMs routePrice)
      (fun _ trace' => ∃ observation, trace' = { trace with
        observations := trace.observations ++ [observation] }) trace :=
  serves_ask fun _ => ⟨_, rfl⟩

end RequestTrace

end Mizan.Gateway
