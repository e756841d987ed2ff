import Mizan.Core.Secrets
import Mizan.Dispatch.Errors
import Mizan.Dispatch.Safety
import Mizan.Gateway.Accounting
import Mizan.Providers.Request

namespace Mizan.Gateway

open Interleaving Billing Dispatch Providers

-- How an upstream or a daemon fails. The texts, the bytes and the answers that come from outside
-- are anything at all.
inductive Failure where
  | completion (fromStr : String → Except String OpenAiChatCompletionResponse) (name : String)
      (request : ChatRequest) (sent : Except String HttpResponse) (error : AppError)
      (h : chatCompletions fromStr name request sent = .error error)
  | opening (sent : Except String HttpResponse) (error : AppError)
      (h : chatCompletionsStream sent = .error error)
  | midStream (fromStr : FromStr) (byteStream : ByteStream)
      (items : List (AppResult ChatStreamChunk)) (error : AppError)
      (hyields : Yields fromStr (streamSseChunks byteStream) items) (hmem : .error error ∈ items)
  | daemon (codec : Codec) (input : DispatchJobInput) (polls : Nat)
      (result : Except AppError DispatchJobResult)
      (h : (dispatchToDaemonNode codec input polls).run.CanReturn result)
      (hfailed : ∀ response, result ≠ .ok (.succeeded response))

-- The client of some request is told of the failure in an error body or an error event. A stream
-- whose usage cannot be recorded ends with the error of the billing instead.
def Told (backend : DatabaseBackend) : Failure → String → Prop
  | .completion _ _ _ _ error _, message =>
      ∃ request lease choice choices effects effects' status envelope,
        request.upstreamRequest.stream = false ∧ choice.response = .error error ∧
        (serveAdmitted request lease).play (RequestEffects.handle backend) (choice :: choices)
          effects = some (.response (.error status envelope), effects') ∧
        envelope.message = message
  | .opening _ error _, message =>
      ∃ request lease choice choices effects effects' status envelope,
        request.upstreamRequest.stream = true ∧ choice.stream = .error error ∧
        (serveAdmitted request lease).play (RequestEffects.handle backend) (choice :: choices)
          effects = some (.response (.error status envelope), effects') ∧
        envelope.message = message
  | .midStream _ _ _ error _ _, message =>
      ∃ (state : StreamBuildState) (choice : HandlerChoice) (choices : List HandlerChoice)
        (effects effects' : RequestEffects) (state' : StreamBuildState) (envelope : ErrorEnvelope)
        (input : BillingInput),
        state.emitDone = true ∧ choice.next = some (.error error) ∧
        state.poll.play (RequestEffects.exec backend) (choice :: choices) effects =
          some (some (.error envelope, state'), effects') ∧
        effects'.usages = effects.usages ++ [(input, .ok ())] ∧ envelope.message = message
  | .daemon _ _ _ result _ _, message =>
      ∃ (request : DaemonRequest) (choices : List HandlerChoice)
        (effects effects' : RequestEffects) (status : UInt16) (envelope : ErrorEnvelope),
        (request.answer result).play (RequestEffects.handle backend) choices effects =
          some (.error status envelope, effects') ∧
        envelope.message = message

-- The code of a failure that a daemon reports has no secret in it.
def CodeClean : Failure → Prop
  | .daemon _ _ _ (.ok (.failed (some errorCode) _)) _ _ => Clean errorCode.toList
  | _ => True

section Messages

theorem toString_provider (message : String) : (AppError.provider message).toString.toList =
    "upstream provider error:".toList ++ ' ' :: message.toList := by
  have hsplit : "upstream provider error: ".toList = "upstream provider error:".toList ++
    [' '] := by
    decide
  have hmessage : (AppError.provider message).toString = "upstream provider error: " ++ message :=
    rfl
  rw [hmessage, String.toList_append, hsplit, List.append_assoc, List.singleton_append]

theorem clean_provider {message : String} :
    Clean (AppError.provider message).toString.toList ↔ Clean message.toList := by
  have hwords : Clean "upstream provider error:".toList := by decide
  rw [toString_provider, clean_append_cons (by decide)]
  exact and_iff_right hwords

-- Whatever a provider comes back with is redacted.
theorem normalizeProviderError_reported {error : AppError} (h : Reported error)
    (context : RequestContext) (routeAlias : String) :
    ∃ message, normalizeProviderError error context routeAlias =
      .provider (redactForLogs message) := by
  obtain ⟨message, rfl⟩ | ⟨message, rfl⟩ := h
  · exact ⟨_, rfl⟩
  · exact ⟨_, rfl⟩

theorem clean_normalizeProviderError {error : AppError} (h : Reported error)
    (context : RequestContext) (routeAlias : String) :
    Clean (normalizeProviderError error context routeAlias).toString.toList := by
  obtain ⟨message, hmessage⟩ := normalizeProviderError_reported h context routeAlias
  rw [hmessage, clean_provider]
  exact clean_redactForLogs message

theorem clean_normalizeDispatchError {error : AppError} (h : DispatchError error)
    (context : RequestContext) (routeAlias : String) :
    Clean (normalizeProviderError error context routeAlias).toString.toList := by
  obtain hreported | rfl := h
  · exact clean_normalizeProviderError (.inl hreported) context routeAlias
  · exact show Clean (AppError.notFound "dispatch job not found").toString.toList by decide +kernel

theorem failedError_message (errorCode : Option String) (errorMessage : String) :
    (DaemonRequest.failedError errorCode errorMessage).toString.toList =
      "upstream provider error: daemon dispatch failed code".toList ++ '=' ::
        ((errorCode.getD "daemon_error").toList ++ ' ' ::
          ("message".toList ++ '=' :: (redactForLogs errorMessage).toList)) := by
  have hmessage : (DaemonRequest.failedError errorCode errorMessage).toString =
      "upstream provider error: " ++ ("daemon dispatch failed code=" ++
        errorCode.getD "daemon_error" ++ " message=" ++ redactForLogs errorMessage) := rfl
  have hcode : "upstream provider error: ".toList ++ "daemon dispatch failed code=".toList =
      "upstream provider error: daemon dispatch failed code".toList ++ ['='] := by
    decide
  have hwords : " message=".toList = ' ' :: ("message".toList ++ ['=']) := by decide
  simp only [hmessage, String.toList_append, hwords]
  rw [← List.append_assoc, ← List.append_assoc, ← List.append_assoc, hcode]
  simp only [List.append_assoc, List.cons_append, List.nil_append]

theorem clean_failedError (errorCode : Option String) (errorMessage : String) :
    Clean (DaemonRequest.failedError errorCode errorMessage).toString.toList ↔
      Clean (errorCode.getD "daemon_error").toList := by
  have hwords : Clean "upstream provider error: daemon dispatch failed code".toList := by
    decide +kernel
  have hmessage : Clean "message".toList := by decide
  rw [failedError_message, clean_append_cons (by decide), clean_append_cons (by decide),
    clean_append_cons (by decide)]
  simp only [hwords, hmessage, clean_redactForLogs, true_and, and_true]

end Messages

section Reports

variable {backend : DatabaseBackend} {effects effects' : RequestEffects}

-- The answer of a program, whatever the rest of the gateway does.
abbrev Reports {α : Type} (backend : DatabaseBackend) (program : Serving α)
    (post : α → RequestEffects → Prop) (effects : RequestEffects) : Prop :=
  program.Throughout (RequestEffects.exec backend) (fun _ => True) post effects

theorem answers_after {α β : Type} {program : Serving α} {rest : α → Serving β}
    {post : β → RequestEffects → Prop}
    (h : ∀ value effects, Reports backend (rest value) post effects) :
    Reports backend (program >>= rest) post effects :=
  Prog.throughout_bind (Prog.throughout_trivial program effects) fun value effects _ =>
    h value effects

theorem upstreamFailed_answers (request : AdmittedRequest) (error : AppError) :
    Reports backend (request.upstreamFailed error) (fun response _ => ∃ status,
      response = .error status (.ofAppError
        (normalizeProviderError error request.context request.publicModel))) effects := by
  refine answers_after fun latencyMs effects => answers_after fun result effects => ?_
  refine answers_after fun _ effects => answers_after fun _ effects => ?_
  exact answers_after fun _ effects => ⟨_, rfl⟩

theorem errorResponse_answers (request : DaemonRequest) (error : AppError) :
    Reports backend (request.errorResponse error)
      (fun response _ => ∃ status, response = .error status (.ofAppError error)) effects := by
  refine answers_after fun latencyMs effects => answers_after fun result effects => ?_
  exact answers_after fun _ effects => answers_after fun _ effects => ⟨_, rfl⟩

-- The answer of a program of the handler that only serves.
theorem play_serving {α : Type} {program : Serving α} {post : α → RequestEffects → Prop}
    (h : Reports backend program post effects) {choices : List HandlerChoice} {value : α}
    (hplay : (serving program).play (RequestEffects.handle backend) choices effects =
      some (value, effects')) : post value effects' := by
  have hserving : (serving program).Throughout (RequestEffects.handle backend) (fun _ => True)
      post effects := Prog.throughout_embed (fun _ _ _ _ _ hanswer => hanswer) h
  exact Prog.play_of_throughout hserving hplay

theorem play_respond {program : Serving GatewayResponse}
    {post : GatewayResponse → RequestEffects → Prop} (h : Reports backend program post effects)
    {choices : List HandlerChoice} {response : GatewayResponse}
    (hplay : (serving program >>= fun response => (pure (GatewayOutcome.response response) :
      Handling GatewayOutcome)).play (RequestEffects.handle backend) choices effects =
        some (.response response, effects')) : post response effects' := by
  have hserving : (serving program).Throughout (RequestEffects.handle backend) (fun _ => True)
      post effects := Prog.throughout_embed (fun _ _ _ _ _ hanswer => hanswer) h
  have hrespond : (serving program >>= fun response => (pure (GatewayOutcome.response response) :
      Handling GatewayOutcome)).Throughout (RequestEffects.handle backend) (fun _ => True)
        (fun outcome effects => ∀ response, outcome = .response response → post response effects)
        effects :=
    Prog.throughout_bind hserving fun answer effects hanswer response heq =>
      GatewayOutcome.response.inj heq ▸ hanswer
  exact Prog.play_of_throughout hrespond hplay response rfl

theorem settle_answers (state : StreamBuildState) (status : UInt16) (errorCode : Option String)
    (event : Event) :
    Reports backend (some <$> state.settle status errorCode event) (fun polled effects' =>
      ∀ settled input, polled = some settled →
        effects'.usages = effects.usages ++ [(input, .ok ())] → settled.1 = event) effects := by
  refine Prog.throughout_map (Prog.throughout_mono (fun _ _ => trivial) ?_
    (state.handles_settle status errorCode event))
  rintro settled effects' ⟨-, input, result, log, metrics, -, -, hevent, rfl⟩ _ input' hsettled hok
  obtain rfl := Option.some.inj hsettled
  have husages : effects.usages ++ [(input, result)] = effects.usages ++ [(input', .ok ())] := hok
  rw [List.append_cancel_left_eq, List.singleton_inj, Prod.mk.injEq] at husages
  exact hevent husages.2

theorem told_unstreamed {request : AdmittedRequest} {lease : RuntimeLimitLease}
    {choice : HandlerChoice} {choices : List HandlerChoice} {status : UInt16}
    {envelope : ErrorEnvelope} {error : AppError} (hstream : request.upstreamRequest.stream = false)
    (hfailed : choice.response = .error error)
    (hplay : (serveAdmitted request lease).play (RequestEffects.handle backend) (choice :: choices)
      effects = some (.response (.error status envelope), effects')) :
    envelope = .ofAppError
      (normalizeProviderError error request.context request.publicModel) := by
  simp only [serveAdmitted, hstream, Bool.false_eq_true, if_false] at hplay
  simp only [AdmittedRequest.complete, serving, Prog.ask, Prog.bind_eq, Prog.bind_call,
    Prog.bind_ret,
    Prog.embed, Prog.play, RequestEffects.handle, RequestEffects.exec, hfailed] at hplay
  obtain ⟨_, heq⟩ := play_respond (upstreamFailed_answers _ error) hplay
  exact (GatewayResponse.error.inj heq).2

theorem told_opening {request : AdmittedRequest} {lease : RuntimeLimitLease}
    {choice : HandlerChoice} {choices : List HandlerChoice} {status : UInt16}
    {envelope : ErrorEnvelope} {error : AppError} (hstream : request.upstreamRequest.stream = true)
    (hfailed : choice.stream = .error error)
    (hplay : (serveAdmitted request lease).play (RequestEffects.handle backend) (choice :: choices)
      effects = some (.response (.error status envelope), effects')) :
    envelope = .ofAppError
      (normalizeProviderError error request.context request.publicModel) := by
  simp only [serveAdmitted, hstream, if_true, Prog.ask, Prog.bind_eq, Prog.bind_call, Prog.bind_ret,
    Prog.play, RequestEffects.handle, hfailed] at hplay
  obtain ⟨_, heq⟩ := play_respond (upstreamFailed_answers _ error) hplay
  exact (GatewayResponse.error.inj heq).2

theorem told_midStream {state state' : StreamBuildState} {choice : HandlerChoice}
    {choices : List HandlerChoice} {envelope : ErrorEnvelope} {error : AppError}
    {input : BillingInput} (hopen : state.emitDone = true)
    (hfailed : choice.next = some (.error error))
    (hplay : state.poll.play (RequestEffects.exec backend) (choice :: choices) effects =
      some (some (.error envelope, state'), effects'))
    (husages : effects'.usages = effects.usages ++ [(input, .ok ())]) :
    envelope = .ofAppError (normalizeProviderError error state.context state.routeAlias) := by
  simp only [StreamBuildState.poll, hopen, not_true_eq_false, if_false, Prog.ask, Prog.bind_eq,
    Prog.bind_call, Prog.bind_ret, Prog.play, RequestEffects.exec, hfailed] at hplay
  have hevent := Prog.play_of_throughout (settle_answers state _ _ _) hplay _ input rfl husages
  exact Event.error.inj hevent

-- The error that a failed dispatch is answered with.
def answeredError (request : DaemonRequest) : Except AppError DispatchJobResult → AppError
  | .ok (.failed errorCode errorMessage) => DaemonRequest.failedError errorCode errorMessage
  | .ok _ => DaemonRequest.TIMED_OUT
  | .error error => normalizeProviderError error request.context request.publicModel

theorem answer_eq (request : DaemonRequest) {result : Except AppError DispatchJobResult}
    (hfailed : ∀ response, result ≠ .ok (.succeeded response)) :
    request.answer result = serving (request.errorResponse (answeredError request result)) := by
  cases result with
  | error error => rfl
  | ok result =>
      cases result with
      | succeeded response => exact absurd rfl (hfailed response)
      | failed errorCode errorMessage => rfl
      | timedOut => rfl

theorem told_daemon {request : DaemonRequest} {result : Except AppError DispatchJobResult}
    {choices : List HandlerChoice} {status : UInt16} {envelope : ErrorEnvelope}
    (hfailed : ∀ response, result ≠ .ok (.succeeded response))
    (hplay : (request.answer result).play (RequestEffects.handle backend) choices effects =
      some (.error status envelope, effects')) :
    envelope = .ofAppError (answeredError request result) := by
  rw [answer_eq request hfailed] at hplay
  obtain ⟨_, heq⟩ := play_serving (errorResponse_answers request _) hplay
  exact (GatewayResponse.error.inj heq).2

-- Every command is answered somehow.
theorem exec_total (backend : DatabaseBackend) (c : GatewayCommand) (effects : RequestEffects) :
    ∃ choice response effects', RequestEffects.exec backend c choice effects =
      some (response, effects') := by
  cases c with
  | recordUsage input =>
      have hsession : ∀ c s, ∃ choice response s', Session.system.exec 0 c choice s =
          some (response, s') := fun c s => ⟨{}, _, _, rfl⟩
      obtain ⟨sql, result, session, hcall⟩ := Prog.exists_play hsession
        ((Job.recordUsage input).program backend).run (Session.idle (.ofAccounts .empty))
      have hcall : Session.call backend (.recordUsage input) sql (.ofAccounts .empty) =
          some (result, session) := hcall
      refine ⟨{ sql }, ?_⟩
      simp only [RequestEffects.exec, hcall, Option.map_some]
      exact ⟨_, _, rfl⟩
  | upstreamNext | chatCompletions | elapsedMs | observeGateway | recordRequestLog
  | releaseLimitLease =>
      exact ⟨{}, _, _, rfl⟩

theorem handle_total (backend : DatabaseBackend) (c : HandlerCommand) (effects : RequestEffects) :
    ∃ choice response effects', RequestEffects.handle backend c choice effects =
      some (response, effects') := by
  cases c with
  | gateway command => exact exec_total backend command effects
  | nowV7 | nowUtcEpochSeconds | resolveModelRoute | selectEligibleDaemonNode
  | ensureSufficientCredit | acquireRuntimeLimits | chatCompletionsStream | dispatchToDaemonNode =>
      exact ⟨{}, _, _, rfl⟩

theorem exists_told_daemon (backend : DatabaseBackend) (request : DaemonRequest)
    {result : Except AppError DispatchJobResult}
    (hfailed : ∀ response, result ≠ .ok (.succeeded response)) (effects : RequestEffects) :
    ∃ choices effects' status, (request.answer result).play (RequestEffects.handle backend) choices
      effects = some (.error status (.ofAppError (answeredError request result)), effects') := by
  obtain ⟨choices, response, effects', hplay⟩ := Prog.exists_play (handle_total backend)
    (request.answer result) effects
  have hserving := hplay
  rw [answer_eq request hfailed] at hserving
  obtain ⟨status, rfl⟩ := play_serving (errorResponse_answers request _) hserving
  exact ⟨choices, effects', status, hplay⟩

end Reports

section Main

-- A daemon-backed request, and what a gateway that has just started knows of it.
def sampleDaemonRequest : DaemonRequest :=
  let context : RequestContext :=
    { requestId := ⟨11⟩, traceId := ⟨11⟩, userId := some ⟨7⟩, apiKeyId := some ⟨8⟩
      provider := some "ollama", providerId := none, route := some "llama3.1", routeId := none
      method := some "POST", path := some CHAT_COMPLETIONS_PATH, model := some "llama3.1"
      streaming := false }
  { identity := { userId := ⟨7⟩, apiKeyId := ⟨8⟩ }, context
    completionLog := GatewayCompletionLog.new context, requestId := ⟨11⟩, publicModel := "llama3.1"
    nodeId := ⟨3⟩, requestMessages := [], routePrice := ⟨0, 0⟩ }

def freshEffects : RequestEffects := RequestEffects.start {}

theorem clean_answeredError (request : DaemonRequest) {codec : Codec} {input : DispatchJobInput}
    {polls : Nat} {result : Except AppError DispatchJobResult}
    (h : (dispatchToDaemonNode codec input polls).run.CanReturn result)
    (hfailed : ∀ response, result ≠ .ok (.succeeded response)) :
    Clean (answeredError request result).toString.toList ↔
      CodeClean (.daemon codec input polls result h hfailed) := by
  match result, h, hfailed with
  | .error error, h, _ =>
      exact iff_of_true (clean_normalizeDispatchError (dispatchError_of_canReturn h) _ _) trivial
  | .ok .timedOut, _, _ =>
      have htimedOut : Clean DaemonRequest.TIMED_OUT.toString.toList := by decide +kernel
      exact iff_of_true htimedOut trivial
  | .ok (.succeeded response), _, hfailed => exact absurd rfl (hfailed response)
  | .ok (.failed none errorMessage), _, _ =>
      exact iff_of_true ((clean_failedError none errorMessage).mpr (by decide)) trivial
  | .ok (.failed (some errorCode) errorMessage), _, _ =>
      exact clean_failedError (some errorCode) errorMessage

theorem failure_messages_clean_iff_code_clean (backend : DatabaseBackend) (failure : Failure) :
    (∀ message, Told backend failure message → Clean message.toList) ↔ CodeClean failure := by
  cases failure with
  | completion fromStr name request sent error h =>
      refine iff_of_true ?_ trivial
      rintro _ ⟨request, lease, choice, choices, _, _, _, _, hstream, hfailed, hplay, rfl⟩
      rw [told_unstreamed hstream hfailed hplay]
      exact clean_normalizeProviderError (reported_of_chatCompletions h) _ _
  | opening sent error h =>
      refine iff_of_true ?_ trivial
      rintro _ ⟨request, lease, choice, choices, _, _, _, _, hstream, hfailed, hplay, rfl⟩
      rw [told_opening hstream hfailed hplay]
      exact clean_normalizeProviderError (reported_of_chatCompletionsStream h) _ _
  | midStream fromStr byteStream items error hyields hmem =>
      refine iff_of_true ?_ trivial
      rintro _ ⟨state, choice, choices, _, _, _, _, _, hopen, hfailed, hplay, husages, rfl⟩
      rw [told_midStream hopen hfailed hplay husages]
      have hqueued : Queued (streamSseChunks byteStream) := fun next hnext =>
        absurd hnext List.not_mem_nil
      exact clean_normalizeProviderError (reported_of_yields hqueued hyields hmem) _ _
  | daemon codec input polls result h hfailed =>
      constructor
      · intro hclean
        obtain ⟨choices, effects', status, hplay⟩ :=
          exists_told_daemon backend sampleDaemonRequest hfailed freshEffects
        rw [← clean_answeredError sampleDaemonRequest h hfailed]
        exact hclean _ ⟨_, choices, _, _, status, _, hplay, rfl⟩
      · rintro hcode _ ⟨request, choices, _, _, _, _, hplay, rfl⟩
        rw [told_daemon hfailed hplay]
        exact (clean_answeredError request h hfailed).mpr hcode

-- A daemon reports a failure under a code of its own choice.
def leakedJob : DispatchJob :=
  { id := ⟨5⟩, requestId := ⟨11⟩, nodeId := ⟨3⟩, userId := none, apiKeyId := none
    model := "llama3.1", status := .failed, requestJson := sampleRequestJson, responseJson := none
    errorCode := some "sk-live-123", errorMessage := some "upstream refused sk-live-123"
    leasedAt := some "1700000001", completedAt := some "1700000002"
    deadlineAt := "1700000030", createdAt := "1700000000", updatedAt := "1700000002" }

theorem leaked_canReturn : (dispatchToDaemonNode sampleCodec sampleInput 1).run.CanReturn
    (.ok (.failed (some "sk-live-123") "upstream refused sk-live-123")) :=
  ⟨(⟨5⟩ : Uuid), (1700000000 : Int64), (1700000000 : Int64), (.ok () : Except String Unit),
    (0 : Nat), (.ok (some leakedJob) : Except String (Option DispatchJob)), rfl⟩

def leak : Failure :=
  .daemon sampleCodec sampleInput 1 _ leaked_canReturn fun response h => by cases h

-- The message is redacted and the code is not.
theorem daemon_error_code_leaks :
    ¬∀ message, Told .sqlite leak message → Clean message.toList := by
  intro hclean
  have hfailed : ∀ response, (.ok (.failed (some "sk-live-123") "upstream refused sk-live-123") :
      Except AppError DispatchJobResult) ≠ .ok (.succeeded response) := fun response h => by cases h
  obtain ⟨choices, effects', status, hplay⟩ :=
    exists_told_daemon .sqlite sampleDaemonRequest hfailed freshEffects
  have hmessage := hclean _ ⟨_, choices, _, _, status, _, hplay, rfl⟩
  have hcode := (clean_failedError (some "sk-live-123") "upstream refused sk-live-123").mp hmessage
  exact absurd hcode (by decide)

end Main

end Mizan.Gateway
