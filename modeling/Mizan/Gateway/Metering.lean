import Mizan.Gateway.Stream

namespace Mizan.Gateway

open Interleaving Billing RequestTrace

-- What `chat_completions_impl` knows of a request once the limits have admitted it.
structure AdmittedRequest where
  completionId : String
  publicModel : String
  context : RequestContext
  upstreamRequest : ChatRequest
  userId : Uuid
  apiKeyId : Uuid
  providerConnectionId : Uuid
  routeId : Uuid
  routePrice : RoutePrice
  providerName : String
  limitLease : RuntimeLimitLease
  created : Int64
  deriving DecidableEq, Repr

structure ChatCompletionsChoice where
  index : UInt64
  message : ChatCompletionsMessage
  finishReason : String
  deriving DecidableEq, Repr

structure ChatCompletionsUsage where
  promptTokens : UInt64
  completionTokens : UInt64
  totalTokens : UInt64
  deriving DecidableEq, Repr

structure ChatCompletionsResponse where
  id : String
  object : String
  created : Int64
  model : String
  choices : List ChatCompletionsChoice
  usage : Option ChatCompletionsUsage
  deriving DecidableEq, Repr

inductive GatewayResponse where
  | error (status : UInt16) (body : ErrorEnvelope)
  | completion (payload : ChatCompletionsResponse)
  deriving DecidableEq, Repr

def mapToChatCompletionResponse (completionId model : String) (created : Int64)
    (upstream : ChatResponse) : ChatCompletionsResponse :=
  { id := completionId
    object := "chat.completion"
    created
    model
    choices :=
      [{ index := 0
         message := { role := "assistant", content := upstream.content }
         finishReason := "stop" }]
    usage := upstream.usage.map fun usage =>
      { promptTokens := usage.promptTokens
        completionTokens := usage.completionTokens
        totalTokens := usage.totalTokens } }

namespace AdmittedRequest

def requestMessages (request : AdmittedRequest) : List ChatMessage :=
  request.upstreamRequest.messages

def completionLog (request : AdmittedRequest) : GatewayCompletionLog :=
  { (GatewayCompletionLog.new request.context).withRouteAlias request.publicModel with
    providerAlias := some request.providerName }

def billingContext (request : AdmittedRequest) : StreamBillingContext :=
  { routePrice := request.routePrice
    userId := request.userId
    apiKeyId := some request.apiKeyId
    providerId := request.providerConnectionId
    routeId := request.routeId
    limitLease := some request.limitLease }

def streamState (request : AdmittedRequest) : StreamBuildState :=
  buildStreamEvents request.completionId request.publicModel request.requestMessages
    request.context request.billingContext request.created

def billingInput (request : AdmittedRequest) (usage : TokenUsage) (status : UInt16)
    (latencyMs : UInt64) : BillingInput :=
  { requestId := request.context.requestId
    userId := request.userId
    apiKeyId := some request.apiKeyId
    providerId := some request.providerConnectionId
    routeId := some request.routeId
    daemonNodeId := none
    model := request.publicModel
    usage
    statusCode := status
    latencyMs
    routePrice := request.routePrice }

-- The upstream refused the request before it answered anything.
def upstreamFailed (request : AdmittedRequest) (error : AppError) : Serving GatewayResponse := do
  let error := normalizeProviderError error request.context request.publicModel
  let status := appErrorStatusCode error
  let latencyMs ← Prog.ask GatewayCommand.elapsedMs
  let usage := estimateUsage request.requestMessages ""
  let _ ← Prog.ask (GatewayCommand.recordUsage (request.billingInput usage status latencyMs))
  observeGatewayMetrics request.context request.publicModel usage status latencyMs
    request.routePrice
  recordGatewayRequestCompletion request.completionLog status (some (errorCodeFromAppError error))
  releaseLimitLease (some request.limitLease)
  pure (.error status (.ofAppError error))

-- The branch of `chat_completions_impl` for a request that is not streamed.
def complete (request : AdmittedRequest) : Serving GatewayResponse := do
  match ← Prog.ask (GatewayCommand.chatCompletions request.upstreamRequest) with
  | .error error => request.upstreamFailed error
  | .ok upstreamResponse =>
      let usage := upstreamResponse.usage.getD
        (estimateUsage request.requestMessages upstreamResponse.content)
      let latencyMs ← Prog.ask GatewayCommand.elapsedMs
      match ← Prog.ask (GatewayCommand.recordUsage (request.billingInput usage 200 latencyMs)) with
      | .error error =>
          let status := appErrorStatusCode error
          observeGatewayMetrics request.context request.publicModel usage status latencyMs
            request.routePrice
          recordGatewayRequestCompletion request.completionLog status
            (some (errorCodeFromAppError error))
          releaseLimitLease (some request.limitLease)
          pure (.error status (.ofAppError error))
      | .ok () =>
          observeGatewayMetrics request.context request.publicModel usage 200 latencyMs
            request.routePrice
          recordGatewayRequestCompletion request.completionLog 200 none
          releaseLimitLease (some request.limitLease)
          pure (.completion (mapToChatCompletionResponse request.completionId request.publicModel
            request.created upstreamResponse))

theorem complete_spec {request : AdmittedRequest} {trace : RequestTrace} {response : ChatResponse}
    (hresponse : trace.response = .ok response) :
    Serves request.complete
      (fun _ trace' => ∃ latencyMs, trace'.usages = trace.usages ++ [request.billingInput
        (response.usage.getD (estimateUsage request.requestMessages response.content)) 200
        latencyMs]) trace := by
  have hask : Serves (Prog.ask (GatewayCommand.chatCompletions request.upstreamRequest))
      (fun result trace' => result = .ok response ∧ trace' = trace) trace :=
    serves_ask fun _ => ⟨hresponse, rfl⟩
  refine Protocol.alone_bind hask ?_
  rintro _ trace ⟨rfl, rfl⟩
  refine Protocol.alone_bind serves_elapsedMs ?_
  rintro latencyMs trace rfl
  have hrecord : ∀ input, Serves (Prog.ask (GatewayCommand.recordUsage input))
      (fun _ trace' => trace' = { trace with usages := trace.usages ++ [input] }) trace :=
    fun input => serves_ask fun _ => rfl
  refine Protocol.alone_bind (hrecord _) ?_
  rintro result _ rfl
  cases result with
  | error error =>
      refine Protocol.alone_bind (serves_observeGatewayMetrics _ _ _ _ _ _) ?_
      rintro _ _ ⟨observation, rfl⟩
      refine Protocol.alone_bind (serves_recordGatewayRequestCompletion _ _ _) ?_
      rintro _ _ ⟨logged, rfl⟩
      refine Protocol.alone_bind (serves_releaseLimitLease _) ?_
      rintro _ _ rfl
      exact Protocol.alone_ret ⟨latencyMs, rfl⟩
  | ok =>
      refine Protocol.alone_bind (serves_observeGatewayMetrics _ _ _ _ _ _) ?_
      rintro _ _ ⟨observation, rfl⟩
      refine Protocol.alone_bind (serves_recordGatewayRequestCompletion _ _ _) ?_
      rintro _ _ ⟨logged, rfl⟩
      refine Protocol.alone_bind (serves_releaseLimitLease _) ?_
      rintro _ _ rfl
      exact Protocol.alone_ret ⟨latencyMs, rfl⟩

end AdmittedRequest

-- The request, streamed to its end, hands `input` to the billing.
def StreamBills (request : AdmittedRequest) (chunks : List ChatStreamChunk)
    (input : BillingInput) : Prop :=
  ∃ polls trace, chunks.length < polls ∧
    StreamServed request.streamState (chunks.map .ok) polls trace ∧ trace.usages = [input]

-- The request, answered at once, hands `input` to the billing.
def ResponseBills (request : AdmittedRequest) (response : ChatResponse) (input : BillingInput) :
    Prop :=
  ∃ choices result trace, request.complete.play (RequestTrace.system.exec 0) choices
    (.start [] (.ok response)) = some (result, trace) ∧ trace.usages = [input]

theorem latestUsage_afterChunks {state : StreamBuildState} {chunks : List ChatStreamChunk}
    (hchunks : ∀ chunk ∈ chunks, chunk.usage = none) :
    (state.afterChunks chunks).latestUsage = state.latestUsage := by
  induction chunks generalizing state with
  | nil => rfl
  | cons chunk chunks ih =>
      rw [List.forall_mem_cons] at hchunks
      have hrest : ((state.afterChunks [chunk]).afterChunks chunks).latestUsage =
          (state.afterChunks [chunk]).latestUsage := ih hchunks.2
      have hfirst : (state.afterChunks [chunk]).latestUsage = state.latestUsage := by
        simp [StreamBuildState.afterChunks, hchunks.1]
      exact hrest.trans hfirst

section Usage

variable {request : AdmittedRequest} {chunks : List ChatStreamChunk} {response : ChatResponse}
  {streamed billed : BillingInput}

-- Without a reported usage the stream is billed as if its answer were empty.
theorem StreamBills.input (hchunks : ∀ chunk ∈ chunks, chunk.usage = none)
    (h : StreamBills request chunks streamed) :
    ∃ latencyMs, streamed =
      request.billingInput (estimateUsage request.requestMessages "") 200 latencyMs := by
  obtain ⟨polls, trace, hpolls, hserved, husages⟩ := h
  have hpolled : (received (chunks.map .ok)).length < polls := by rwa [received_map_ok]
  obtain ⟨_, hmetered⟩ := hserved.metered rfl hpolled
  obtain ⟨latencyMs, hinput⟩ := hmetered.usages
  rw [husages, received_map_ok] at hinput
  have hstatus : request.streamState.terminalStatus (chunks.map .ok) = 200 := by
    rw [StreamBuildState.terminalStatus, failure_map_ok]
  have husage : (request.streamState.afterChunks chunks).usage =
      estimateUsage request.requestMessages "" := by
    rw [StreamBuildState.usage, latestUsage_afterChunks hchunks]
    rfl
  rw [hstatus] at hinput
  refine ⟨latencyMs, (List.singleton_inj.mp hinput).trans ?_⟩
  rw [StreamBuildState.billingInput, husage]
  rfl

theorem ResponseBills.input (hresponse : response.usage = none)
    (h : ResponseBills request response billed) :
    ∃ latencyMs, billed = request.billingInput
      (estimateUsage request.requestMessages response.content) 200 latencyMs := by
  obtain ⟨choices, result, trace, hplay, husages⟩ := h
  obtain ⟨latencyMs, hinput⟩ := Protocol.alone_play (AdmittedRequest.complete_spec rfl) hplay
  rw [husages, hresponse] at hinput
  exact ⟨latencyMs, List.singleton_inj.mp hinput⟩

theorem byteLen_eq_zero {text : String} : byteLen text = 0 ↔ text = "" := by
  refine ⟨fun h => ?_, fun h => by rw [h]; rfl⟩
  rw [← String.utf8ByteSize_eq_zero_iff]
  by_contra hne
  have hpos : byteLen text ≠ 0 := by
    unfold byteLen UInt64.ofNatClamp
    split
    · rename_i hlt
      intro heq
      have hnat := congrArg UInt64.toNat heq
      rw [UInt64.toNat_ofNatLT] at hnat
      exact hne hnat
    · decide
  exact hpos h

-- Only an empty text is estimated at no completion tokens.
theorem estimateUsage_eq_iff (messages : List ChatMessage) (text : String) :
    estimateUsage messages "" = estimateUsage messages text ↔ text = "" := by
  refine ⟨fun h => ?_, fun h => by rw [h]⟩
  have htokens := congrArg (fun usage => usage.completionTokens.toNat) h
  simp only [estimateUsage, toNat_ceilDivide_four] at htokens
  rw [show (byteLen "").toNat = 0 from rfl] at htokens
  rw [← byteLen_eq_zero]
  apply UInt64.toNat_inj.mp
  rw [show (0 : UInt64).toNat = 0 from rfl]
  omega

end Usage

theorem stream_bills_like_response_iff_empty (request : AdmittedRequest)
    (chunks : List ChatStreamChunk) (response : ChatResponse) (streamed billed : BillingInput)
    (hcontent : response.content = String.join (chunks.map ChatStreamChunk.delta))
    (hchunks : ∀ chunk ∈ chunks, chunk.usage = none) (hresponse : response.usage = none)
    (hstreamed : StreamBills request chunks streamed)
    (hbilled : ResponseBills request response billed) :
    (streamed.usage = billed.usage ∧
      usageCharge streamed.usage streamed.routePrice = usageCharge billed.usage billed.routePrice) ↔
      String.join (chunks.map ChatStreamChunk.delta) = "" := by
  obtain ⟨streamLatency, rfl⟩ := hstreamed.input hchunks
  obtain ⟨latency, rfl⟩ := hbilled.input hresponse
  rw [hcontent]
  refine ⟨fun h => (estimateUsage_eq_iff _ _).mp h.1, fun h => ?_⟩
  rw [h]
  exact ⟨rfl, rfl⟩

def helloRequest : AdmittedRequest :=
  { completionId := "chatcmpl-1", publicModel := "chat", context := helloContext
    upstreamRequest :=
      { model := "gpt-4o", messages := [{ role := "user", content := "hi" }], stream := true
        maxTokens := none }
    userId := ⟨7⟩, apiKeyId := ⟨3⟩, providerConnectionId := ⟨4⟩, routeId := ⟨5⟩
    routePrice := ⟨0, 1000000⟩, providerName := "openai", limitLease := .noop, created := 0 }

theorem helloRequest_streams (delta : String) :
    ∃ streamed, StreamBills helloRequest [{ helloChunk with delta }] streamed :=
  ⟨_, 2, _, Nat.lt_succ_self 1, ⟨List.replicate 8 {}, .error .unauthorized, rfl⟩, rfl⟩

theorem helloRequest_completes (text : String) :
    ∃ billed, ResponseBills helloRequest
      { provider := "openai", model := "gpt-4o", content := text, usage := none } billed :=
  ⟨_, List.replicate 7 {}, _, _, rfl, rfl⟩

theorem empty_answer_bills_alike :
    ∃ streamed billed, StreamBills helloRequest [{ helloChunk with delta := "" }] streamed ∧
      ResponseBills helloRequest
        { provider := "openai", model := "gpt-4o", content := "", usage := none } billed ∧
      streamed.usage = billed.usage := by
  obtain ⟨streamed, hstreamed⟩ := helloRequest_streams ""
  obtain ⟨billed, hbilled⟩ := helloRequest_completes ""
  exact ⟨streamed, billed, hstreamed, hbilled, ((stream_bills_like_response_iff_empty helloRequest
    [{ helloChunk with delta := "" }] _ streamed billed rfl (by simp [helloChunk]) rfl hstreamed
    hbilled).mpr rfl).1⟩

-- The streamed "hello" costs nothing, the same answer in one piece costs two microcredits.
theorem streamed_hello_bills_less :
    ∃ streamed billed, StreamBills helloRequest [helloChunk] streamed ∧
      ResponseBills helloRequest
        { provider := "openai", model := "gpt-4o", content := "hello", usage := none } billed ∧
      (usageCharge streamed.usage streamed.routePrice).total = 0 ∧
      (usageCharge billed.usage billed.routePrice).total = 2 :=
  ⟨_, _, ⟨2, _, by decide, ⟨List.replicate 8 {}, .error .unauthorized, rfl⟩, rfl⟩,
    ⟨List.replicate 7 {}, _, _, rfl, rfl⟩, by decide, by decide⟩

end Mizan.Gateway
