import Mizan.Gateway.Completion

namespace Mizan.Gateway

open Interleaving Billing RequestTrace

structure StreamBillingContext where
  routePrice : RoutePrice
  userId : Uuid
  apiKeyId : Option Uuid
  providerId : Uuid
  routeId : Uuid
  limitLease : Option RuntimeLimitLease
  deriving DecidableEq, Repr

structure StreamBuildState where
  completionId : String
  model : String
  routeAlias : String
  context : RequestContext
  requestMessages : List ChatMessage
  latestUsage : Option TokenUsage
  created : Int64
  routePrice : RoutePrice
  userId : Uuid
  apiKeyId : Option Uuid
  providerId : Uuid
  routeId : Uuid
  emitDone : Bool
  limitLease : Option RuntimeLimitLease
  completionLog : GatewayCompletionLog
  deriving DecidableEq, Repr

structure ChatCompletionsMessage where
  role : String
  content : String
  deriving DecidableEq, Repr

structure ChatCompletionsStreamChoice where
  index : UInt64
  delta : ChatCompletionsMessage
  finishReason : Option String
  deriving DecidableEq, Repr

structure ChatCompletionsStreamResponse where
  id : String
  object : String
  created : Int64
  model : String
  choices : List ChatCompletionsStreamChoice
  deriving DecidableEq, Repr

inductive Event where
  | data (response : ChatCompletionsStreamResponse)
  | error (envelope : ErrorEnvelope)
  | done
  deriving DecidableEq, Repr

def mapToChatCompletionStreamResponse (completionId model : String) (created : Int64)
    (upstream : ChatStreamChunk) : ChatCompletionsStreamResponse :=
  { id := completionId
    object := "chat.completion.chunk"
    created
    model
    choices :=
      [{ index := upstream.index
         delta := { role := "assistant", content := upstream.delta }
         finishReason := upstream.finishReason }] }

def buildStreamEvents (completionId model : String) (requestMessages : List ChatMessage)
    (context : RequestContext) (billing : StreamBillingContext) (created : Int64) :
    StreamBuildState :=
  { completionId
    model
    routeAlias := model
    context
    requestMessages
    latestUsage := none
    created
    routePrice := billing.routePrice
    userId := billing.userId
    apiKeyId := billing.apiKeyId
    providerId := billing.providerId
    routeId := billing.routeId
    emitDone := true
    limitLease := billing.limitLease
    completionLog := (GatewayCompletionLog.new context).withRouteAlias model }

namespace StreamBuildState

def usage (state : StreamBuildState) : TokenUsage :=
  state.latestUsage.getD (estimateUsage state.requestMessages "")

def billingInput (state : StreamBuildState) (status : UInt16) (latencyMs : UInt64) :
    BillingInput :=
  { requestId := state.context.requestId
    userId := state.userId
    apiKeyId := state.apiKeyId
    providerId := some state.providerId
    routeId := some state.routeId
    daemonNodeId := none
    model := state.model
    usage := state.usage
    statusCode := status
    latencyMs
    routePrice := state.routePrice }

-- What `latest_usage.take()`, `limit_lease.take()` and `emit_done = false` leave.
def ended (state : StreamBuildState) : StreamBuildState :=
  { state with emitDone := false, latestUsage := none, limitLease := none }

-- The two terminal branches, which differ in the status they bill and the event they end with.
def settle (state : StreamBuildState) (status : UInt16) (errorCode : Option String)
    (event : Event) : Serving (Event × StreamBuildState) := do
  let latencyMs ← Prog.ask GatewayCommand.elapsedMs
  match ← Prog.ask (GatewayCommand.recordUsage (state.billingInput status latencyMs)) with
  | .error error =>
      recordGatewayRequestCompletion state.completionLog (appErrorStatusCode error)
        (some (errorCodeFromAppError error))
      observeGatewayMetrics state.context state.routeAlias state.usage (appErrorStatusCode error)
        latencyMs state.routePrice
      releaseLimitLease state.limitLease
      pure (.error (.ofAppError error), state.ended)
  | .ok () =>
      observeGatewayMetrics state.context state.routeAlias state.usage status latencyMs
        state.routePrice
      recordGatewayRequestCompletion state.completionLog status errorCode
      releaseLimitLease state.limitLease
      pure (event, state.ended)

-- `impl Drop for StreamBuildState`
def drop (state : StreamBuildState) : Serving Unit := releaseLimitLease state.limitLease

-- One poll of the unfolded stream. A poll that returns no event has dropped the state.
def poll (state : StreamBuildState) : Serving (Option (Event × StreamBuildState)) := do
  if ¬state.emitDone then
    state.drop
    pure none
  else
    match ← Prog.ask GatewayCommand.upstreamNext with
    | some (.ok chunk) =>
        let event := Event.data (mapToChatCompletionStreamResponse state.completionId state.model
          state.created chunk)
        pure (some (event, { state with latestUsage := chunk.usage.or state.latestUsage }))
    | some (.error error) =>
        let error := normalizeProviderError error state.context state.routeAlias
        some <$> state.settle (appErrorStatusCode error) (some (errorCodeFromAppError error))
          (.error (.ofAppError error))
    | none => some <$> state.settle 200 none .done

-- The client polls up to `polls` events, and then the response body is dropped.
def serve : (polls : Nat) → StreamBuildState → Serving Unit
  | 0, state => state.drop
  | polls + 1, state => do
      match ← state.poll with
      | none => pure ()
      | some (_, state) => serve polls state

end StreamBuildState

-- The chunks that precede the first error or the end of the upstream.
def received : List (Except AppError ChatStreamChunk) → List ChatStreamChunk
  | .ok chunk :: upstream => chunk :: received upstream
  | _ => []

theorem received_cons {upstream : List (Except AppError ChatStreamChunk)} {chunk : ChatStreamChunk}
    {chunks : List ChatStreamChunk} (h : received upstream = chunk :: chunks) :
    ∃ rest, upstream = .ok chunk :: rest ∧ received rest = chunks := by
  cases upstream with
  | nil => cases h
  | cons first rest =>
      cases first with
      | error error => cases h
      | ok value =>
          cases h
          exact ⟨rest, rfl, rfl⟩

theorem received_map_ok (chunks : List ChatStreamChunk) : received (chunks.map .ok) = chunks := by
  induction chunks with
  | nil => rfl
  | cons chunk chunks ih => rw [List.map_cons, received, ih]

-- The error that ends the upstream, if one does.
def failure : List (Except AppError ChatStreamChunk) → Option AppError
  | [] => none
  | .ok _ :: upstream => failure upstream
  | .error error :: _ => some error

theorem failure_map_ok (chunks : List ChatStreamChunk) : failure (chunks.map .ok) = none := by
  induction chunks with
  | nil => rfl
  | cons chunk chunks ih => rw [List.map_cons, failure, ih]

def StreamBuildState.terminalStatus (state : StreamBuildState)
    (upstream : List (Except AppError ChatStreamChunk)) : UInt16 :=
  match failure upstream with
  | some error => appErrorStatusCode (normalizeProviderError error state.context state.routeAlias)
  | none => 200

-- The state after the chunks that were received.
def StreamBuildState.afterChunks (state : StreamBuildState) (chunks : List ChatStreamChunk) :
    StreamBuildState :=
  { state with
    latestUsage := chunks.foldl (fun latest chunk => chunk.usage.or latest) state.latestUsage }

-- One billing call, one observation and one request log more, and the lease given back.
structure Metered (state : StreamBuildState) (status : UInt16) (trace trace' : RequestTrace) :
    Prop where
  usages : ∃ latencyMs, trace'.usages = trace.usages ++ [state.billingInput status latencyMs]
  observations : ∃ observation, trace'.observations = trace.observations ++ [observation]
  requestLogs : ∃ input, trace'.requestLogs = trace.requestLogs ++ [input]
  released : trace'.released = trace.released ++ state.limitLease.toList

-- Nothing but the lease given back.
structure Abandoned (state : StreamBuildState) (trace trace' : RequestTrace) : Prop where
  usages : trace'.usages = trace.usages
  observations : trace'.observations = trace.observations
  requestLogs : trace'.requestLogs = trace.requestLogs
  released : trace'.released = trace.released ++ state.limitLease.toList

namespace StreamBuildState

variable {state : StreamBuildState} {trace : RequestTrace}

theorem settle_spec (status : UInt16) (errorCode : Option String) (event : Event) :
    Serves (state.settle status errorCode event)
      (fun result trace' => result.2 = state.ended ∧ Metered state status trace trace') trace := by
  refine Protocol.alone_bind serves_elapsedMs ?_
  rintro latencyMs trace rfl
  have hrecord : Serves (Prog.ask
    (GatewayCommand.recordUsage (state.billingInput status latencyMs)))
      (fun _ trace' => trace' =
        { trace with usages := trace.usages ++ [state.billingInput status latencyMs] }) trace :=
    serves_ask fun _ => rfl
  refine Protocol.alone_bind hrecord ?_
  rintro result _ rfl
  cases result with
  | error error =>
      refine Protocol.alone_bind (serves_recordGatewayRequestCompletion _ _ _) ?_
      rintro _ _ ⟨logged, rfl⟩
      refine Protocol.alone_bind (serves_observeGatewayMetrics _ _ _ _ _ _) ?_
      rintro _ _ ⟨observation, rfl⟩
      refine Protocol.alone_bind (serves_releaseLimitLease _) ?_
      rintro _ _ rfl
      exact Protocol.alone_ret ⟨rfl, ⟨latencyMs, rfl⟩, ⟨observation, rfl⟩, ⟨_, rfl⟩, rfl⟩
  | ok =>
      refine Protocol.alone_bind (serves_observeGatewayMetrics _ _ _ _ _ _) ?_
      rintro _ _ ⟨observation, rfl⟩
      refine Protocol.alone_bind (serves_recordGatewayRequestCompletion _ _ _) ?_
      rintro _ _ ⟨logged, rfl⟩
      refine Protocol.alone_bind (serves_releaseLimitLease _) ?_
      rintro _ _ rfl
      exact Protocol.alone_ret ⟨rfl, ⟨latencyMs, rfl⟩, ⟨observation, rfl⟩, ⟨_, rfl⟩, rfl⟩

-- A stream that has ended gives nothing back a second time.
theorem serve_ended (polls : Nat) :
    Serves (serve polls state.ended) (fun _ trace' => trace' = trace) trace := by
  have hdrop : Serves (state.ended).drop (fun _ trace' => trace' = trace) trace :=
    Protocol.alone_ret rfl
  cases polls with
  | zero => exact hdrop
  | succ polls =>
      have hpoll : Serves (state.ended).poll (fun event trace' => event = none ∧ trace' = trace)
          trace := by
        refine Protocol.alone_bind hdrop ?_
        rintro _ trace rfl
        exact Protocol.alone_ret ⟨rfl, rfl⟩
      refine Protocol.alone_bind hpoll ?_
      rintro _ trace ⟨rfl, rfl⟩
      exact Protocol.alone_ret rfl

theorem serves_upstreamNext :
    Serves (Prog.ask GatewayCommand.upstreamNext)
      (fun next trace' => next = trace.upstream.head? ∧
        trace' = { trace with upstream := trace.upstream.tail }) trace :=
  serves_ask fun _ => ⟨rfl, rfl⟩

theorem poll_chunk {chunk : ChatStreamChunk} {rest : List (Except AppError ChatStreamChunk)}
    (hopen : state.emitDone = true) (hupstream : trace.upstream = .ok chunk :: rest) :
    Serves state.poll
      (fun result trace' => (∃ event, result = some (event, state.afterChunks [chunk])) ∧
        trace' = { trace with upstream := rest }) trace := by
  unfold poll
  rw [if_neg (by simp [hopen])]
  refine Protocol.alone_bind serves_upstreamNext ?_
  rintro _ _ ⟨rfl, rfl⟩
  rw [hupstream]
  exact Protocol.alone_ret ⟨⟨_, rfl⟩, rfl⟩

theorem poll_end (hopen : state.emitDone = true) (hreceived : received trace.upstream = []) :
    Serves state.poll
      (fun result trace' => (∃ event, result = some (event, state.ended)) ∧
        Metered state (state.terminalStatus trace.upstream) trace trace') trace := by
  have hsettle : ∀ (status : UInt16) (errorCode : Option String) (event : Event)
      (upstream : List (Except AppError ChatStreamChunk)),
      Serves (some <$> state.settle status errorCode event)
        (fun result trace' => (∃ event, result = some (event, state.ended)) ∧
          Metered state status trace trace')
        { trace with upstream } := by
    intro status errorCode event upstream
    rw [map_eq_pure_bind]
    refine Protocol.alone_bind (settle_spec _ errorCode event) ?_
    rintro ⟨event', _⟩ trace' ⟨rfl, hmetered⟩
    exact Protocol.alone_ret ⟨⟨event', rfl⟩, hmetered.usages, hmetered.observations,
      hmetered.requestLogs, hmetered.released⟩
  unfold poll
  rw [if_neg (by simp [hopen])]
  refine Protocol.alone_bind serves_upstreamNext ?_
  rintro _ _ ⟨rfl, rfl⟩
  cases hupstream : trace.upstream with
  | nil => exact hsettle 200 none .done []
  | cons first rest =>
      cases first with
      | ok chunk => simp [hupstream, received] at hreceived
      | error error => exact hsettle _ _ _ rest

-- A client that polls past the received chunks meets the terminal branch; one that does not
-- leaves only the drop.
theorem serve_spec (polls : Nat) (hopen : state.emitDone = true) :
    Serves (serve polls state)
      (fun _ trace' =>
        if (received trace.upstream).length < polls then
          Metered (state.afterChunks (received trace.upstream))
            (state.terminalStatus trace.upstream) trace trace'
        else Abandoned state trace trace') trace := by
  induction polls generalizing state trace with
  | zero =>
      refine Protocol.wp_mono ?_ (serves_releaseLimitLease state.limitLease)
      rintro _ _ _ rfl
      exact ⟨rfl, rfl, rfl, rfl⟩
  | succ polls ih =>
      cases hreceived : received trace.upstream with
      | nil =>
          refine Protocol.alone_bind (poll_end hopen hreceived) ?_
          rintro _ trace' ⟨⟨event, rfl⟩, hmetered⟩
          refine Protocol.wp_mono ?_ (serve_ended polls)
          rintro _ _ _ rfl
          rw [if_pos (show ([] : List ChatStreamChunk).length < polls + 1 from Nat.succ_pos polls)]
          exact hmetered
      | cons chunk chunks =>
          obtain ⟨rest, hupstream, hrest⟩ := received_cons hreceived
          refine Protocol.alone_bind (poll_chunk hopen hupstream) ?_
          rintro _ _ ⟨⟨event, rfl⟩, rfl⟩
          refine Protocol.wp_mono ?_ (ih hopen)
          intro _ trace' _ hserved
          rw [hrest] at hserved
          simp only [List.length_cons, Nat.add_lt_add_iff_right]
          have hstatus : state.terminalStatus trace.upstream =
              (state.afterChunks [chunk]).terminalStatus rest := by
            rw [hupstream]
            rfl
          split at hserved
          · rename_i hpolled
            rw [if_pos hpolled, hstatus]
            exact ⟨hserved.usages, hserved.observations, hserved.requestLogs, hserved.released⟩
          · rename_i hpolled
            rw [if_neg hpolled]
            exact ⟨hserved.usages, hserved.observations, hserved.requestLogs, hserved.released⟩

end StreamBuildState

-- The request was billed, observed and logged, each exactly once.
structure MeteredOnce (trace : RequestTrace) : Prop where
  usages : trace.usages.length = 1
  observations : trace.observations.length = 1
  requestLogs : trace.requestLogs.length = 1

-- The whole life of a stream whose upstream was opened.
def StreamServed (state : StreamBuildState) (upstream : List (Except AppError ChatStreamChunk))
    (polls : Nat) (trace : RequestTrace) : Prop :=
  ∃ choices response, (state.serve polls).play (RequestTrace.system.exec 0) choices
    (.start upstream response) = some ((), trace)

section Served

variable {state : StreamBuildState} {upstream : List (Except AppError ChatStreamChunk)}
  {polls : Nat} {trace : RequestTrace}

theorem StreamServed.metered (hopen : state.emitDone = true)
    (hserved : StreamServed state upstream polls trace)
    (hpolled : (received upstream).length < polls) :
    ∃ response, Metered (state.afterChunks (received upstream)) (state.terminalStatus upstream)
      (.start upstream response) trace := by
  obtain ⟨choices, response, hplay⟩ := hserved
  have hspec := Protocol.alone_play (StreamBuildState.serve_spec polls hopen) hplay
  exact ⟨response, (if_pos hpolled).mp hspec⟩

theorem StreamServed.abandoned (hopen : state.emitDone = true)
    (hserved : StreamServed state upstream polls trace)
    (hpolled : ¬(received upstream).length < polls) :
    ∃ response, Abandoned state (.start upstream response) trace := by
  obtain ⟨choices, response, hplay⟩ := hserved
  have hspec := Protocol.alone_play (StreamBuildState.serve_spec polls hopen) hplay
  exact ⟨response, (if_neg hpolled).mp hspec⟩

-- However the stream ends, the lease that it was opened with is given back once.
theorem StreamServed.released (hopen : state.emitDone = true)
    (hserved : StreamServed state upstream polls trace) :
    trace.released = state.limitLease.toList := by
  by_cases hpolled : (received upstream).length < polls
  · obtain ⟨response, hmetered⟩ := hserved.metered hopen hpolled
    exact hmetered.released
  · obtain ⟨response, habandoned⟩ := hserved.abandoned hopen hpolled
    exact habandoned.released

end Served

theorem exists_streamServed (state : StreamBuildState)
    (upstream : List (Except AppError ChatStreamChunk)) (polls : Nat) :
    ∃ trace, StreamServed state upstream polls trace := by
  have hexec : ∀ (c : GatewayCommand) (trace : RequestTrace), ∃ choice response trace',
      RequestTrace.system.exec 0 c choice trace = some (response, trace') :=
    fun c trace => ⟨{}, _, _, rfl⟩
  obtain ⟨choices, _, trace, hplay⟩ := Prog.exists_play hexec (state.serve polls)
    (.start upstream (.error .unauthorized))
  exact ⟨trace, choices, .error .unauthorized, hplay⟩

theorem stream_metered_once_iff_polled_past_chunks (completionId model : String)
    (requestMessages : List ChatMessage) (context : RequestContext)
    (billing : StreamBillingContext) (created : Int64)
    (upstream : List (Except AppError ChatStreamChunk)) (polls : Nat) :
    (∃ trace, StreamServed
      (buildStreamEvents completionId model requestMessages context billing created) upstream polls
      trace) ∧
    ∀ trace, StreamServed
      (buildStreamEvents completionId model requestMessages context billing created) upstream polls
      trace → (MeteredOnce trace ↔ (received upstream).length < polls) := by
  refine ⟨exists_streamServed _ _ _, fun trace hserved => ⟨fun honce => ?_, fun hpolled => ?_⟩⟩
  · by_contra hpolled
    obtain ⟨response, habandoned⟩ := hserved.abandoned rfl hpolled
    have husages := honce.usages
    rw [habandoned.usages] at husages
    cases husages
  · obtain ⟨response, ⟨latencyMs, husages⟩, ⟨observation, hobservations⟩, ⟨input, hlogs⟩, -⟩ :=
      hserved.metered rfl hpolled
    exact ⟨by rw [husages]; rfl, by rw [hobservations]; rfl, by rw [hlogs]; rfl⟩

def helloChunk : ChatStreamChunk :=
  { index := 0, delta := "hello", finishReason := none, usage := none }

def helloContext : RequestContext :=
  { requestId := ⟨1⟩, traceId := ⟨1⟩, userId := some ⟨7⟩, apiKeyId := some ⟨3⟩
    provider := some "openai", providerId := some ⟨4⟩, route := some "chat", routeId := some ⟨5⟩
    method := some "POST", path := some CHAT_COMPLETIONS_PATH, model := some "gpt-4o"
    streaming := true }

def helloBilling : StreamBillingContext :=
  { routePrice := ⟨150000, 600000⟩, userId := ⟨7⟩, apiKeyId := some ⟨3⟩, providerId := ⟨4⟩
    routeId := ⟨5⟩, limitLease := some .noop }

def helloStream : StreamBuildState :=
  buildStreamEvents "chatcmpl-1" "chat" [{ role := "user", content := "hi" }] helloContext
    helloBilling 0

-- A client that goes on to the [DONE] event.
theorem drained_stream_metered_once :
    ∃ trace, StreamServed helloStream [.ok helloChunk] 2 trace ∧ MeteredOnce trace := by
  have hserved : StreamServed helloStream [.ok helloChunk] 2 _ :=
    ⟨List.replicate 8 {}, .error .unauthorized, rfl⟩
  exact ⟨_, hserved, ((stream_metered_once_iff_polled_past_chunks _ _ _ _ _ _ _ _).2 _ hserved).mpr
    (by decide)⟩

-- A client that has received the whole content and leaves before the [DONE] event.
theorem abandoned_stream_not_metered :
    ∃ trace, StreamServed helloStream [.ok helloChunk] 1 trace ∧ ¬MeteredOnce trace := by
  refine ⟨_, ⟨List.replicate 2 {}, .error .unauthorized, rfl⟩, fun honce => ?_⟩
  have husages := honce.usages
  cases husages

end Mizan.Gateway
