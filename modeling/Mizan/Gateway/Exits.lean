import Mizan.Gateway.Accounting

namespace Mizan.Gateway

open Interleaving Billing Dispatch

def GatewayResponse.isCompletion : GatewayResponse → Prop
  | .error .. => False
  | .completion _ => True

theorem usageDebit_of_error_status {input : BillingInput} {error : AppError}
    (h : input.statusCode = appErrorStatusCode error) (result : Except AppError Unit) :
    usageDebit input result = 0 := by
  cases result with
  | ok => rw [usageDebit, h, creditsCharged_error]
  | error => rfl

section Accounted

variable {e : RequestEffects} {metrics : MetricsRegistry} {log : RequestLogInput}
  {input : BillingInput} {result : Except AppError Unit} {answered : Prop}
  {given released : List RuntimeLimitLease}

-- Where the observation reports what the billing took.
theorem Accounted.metered
    (hcredits : metrics.credits = e.metrics.credits + usageDebit input result)
    (hreleased : released = e.released ++ given) (hanswered : answered → result = .ok ()) :
    Accounted [] given answered e { e.billed input result with
      metrics, released, requestLogs := e.requestLogs ++ [log] } := by
  refine ⟨⟨log, rfl⟩, ⟨[(input, result)], rfl, Nat.le_refl 1, fun h => ?_⟩, ⟨_, hcredits, rfl⟩,
    (List.append_nil _).symm, hreleased⟩
  exact ⟨input, by rw [hanswered h]⟩

-- Where the outcome of the billing is only logged: the request has failed already.
theorem Accounted.failed {error : AppError} {usage : TokenUsage} {routePrice : RoutePrice}
    (hstatus : input.statusCode = appErrorStatusCode error)
    (hcredits : metrics.credits =
      e.metrics.credits + creditsCharged (appErrorStatusCode error) usage routePrice)
    (hreleased : released = e.released ++ given) (hanswered : ¬answered) :
    Accounted [] given answered e { e.billed input result with
      metrics, released, requestLogs := e.requestLogs ++ [log] } := by
  rw [creditsCharged_error, ← usageDebit_of_error_status hstatus result] at hcredits
  exact Accounted.metered hcredits hreleased fun h => absurd h hanswered

-- Where nothing was billed and no credits were observed.
theorem Accounted.refused (hcredits : metrics.credits = e.metrics.credits) (hanswered : ¬answered) :
    Accounted [] [] answered e { e with metrics, requestLogs := e.requestLogs ++ [log] } := by
  refine ⟨⟨log, rfl⟩, ⟨[], (List.append_nil _).symm, Nat.zero_le 1, fun h => absurd h hanswered⟩,
    ⟨0, ?_, (Int64.add_zero _).symm⟩, (List.append_nil _).symm, (List.append_nil _).symm⟩
  rw [Int64.add_zero]
  exact hcredits

theorem Accounted.obtain {leases given : List RuntimeLimitLease} {before after : RequestEffects}
    (h : Accounted [] given answered { before with obtained := before.obtained ++ leases } after) :
    Accounted leases given answered before after :=
  ⟨h.requestLogs, h.usages, h.credits, h.obtained.trans (List.append_nil _), h.released⟩

theorem Accounted.answered_imp {obtained given : List RuntimeLimitLease} {answered' : Prop}
    {before after : RequestEffects} (h : Accounted obtained given answered before after)
    (himp : answered' → answered) : Accounted obtained given answered' before after := by
  obtain ⟨usages, husages, hlength, hpaid⟩ := h.usages
  exact ⟨h.requestLogs, ⟨usages, husages, hlength, fun h => hpaid (himp h)⟩, h.credits, h.obtained,
    h.released⟩

end Accounted

section Serving

variable {backend : DatabaseBackend} {e : RequestEffects}

namespace StreamBuildState

variable {state : StreamBuildState}

theorem settle_accounted (status : UInt16) (errorCode : Option String) (event : Event) :
    Handles backend e (state.settle status errorCode event)
      (fun settled e' => settled.2 = state.ended ∧
        Accounted [] state.limitLease.toList (settled.1 = .done) e e') e := by
  refine Prog.throughout_mono (fun _ h => h) ?_ (state.handles_settle status errorCode event)
  rintro settled e' ⟨hended, input, result, log, metrics, hcredits, hdone, -, rfl⟩
  exact ⟨hended, Accounted.metered hcredits rfl hdone⟩

-- One poll of an open stream passes a chunk on, or settles the request.
def Polled (state : StreamBuildState) (e : RequestEffects)
    (polled : Option (Event × StreamBuildState)) (e' : RequestEffects) : Prop :=
  ∃ event state', polled = some (event, state') ∧
    ((event ≠ .done ∧ state'.emitDone = true ∧ state'.limitLease = state.limitLease ∧ e' = e) ∨
      (state' = state.ended ∧ Accounted [] state.limitLease.toList (event = .done) e e'))

theorem poll_open (hopen : state.emitDone = true) :
    Handles backend e state.poll (state.Polled e) e := by
  have hsettled : ∀ (status : UInt16) (errorCode : Option String) (event : Event),
      Handles backend e (some <$> state.settle status errorCode event) (state.Polled e) e := by
    intro status errorCode event
    refine Prog.throughout_map (Prog.throughout_mono (fun _ h => h) ?_
      (settle_accounted status errorCode event))
    rintro ⟨event', state'⟩ e' ⟨hended, haccounted⟩
    exact ⟨event', state', rfl, .inr ⟨hended, haccounted⟩⟩
  unfold poll
  rw [if_neg (by simp [hopen])]
  refine Prog.throughout_bind (handles_upstreamNext ⟨rfl, rfl⟩) ?_
  rintro next _ rfl
  cases next with
  | none => exact hsettled 200 none .done
  | some result =>
      cases result with
      | error error => exact hsettled _ _ _
      | ok chunk => exact ⟨_, _, rfl, .inl ⟨by simp, hopen, rfl, rfl⟩⟩

theorem poll_ended : Handles backend e (state.ended).poll (fun polled e' => polled = none ∧ e' = e)
    e := by
  refine Prog.throughout_bind (handles_release none ⟨rfl, rfl⟩) ?_
  rintro _ e' rfl
  exact ⟨rfl, by simp⟩

-- The events of a stream that is polled until it returns `None`, if that takes no more polls.
def drain : (polls : Nat) → StreamBuildState → Serving (Option (List Event))
  | 0, _ => pure none
  | polls + 1, state => do
      match ← state.poll with
      | none => pure (some [])
      | some (event, state) => Option.map (event :: ·) <$> drain polls state

theorem drain_ended (polls : Nat) :
    Handles backend e (drain polls state.ended)
      (fun events e' => ∀ drained, events = some drained → drained = [] ∧ e' = e) e := by
  cases polls with
  | zero => exact fun drained h => by cases h
  | succ polls =>
      refine Prog.throughout_bind poll_ended ?_
      rintro _ e' ⟨rfl, rfl⟩
      intro drained h
      cases h
      exact ⟨rfl, rfl⟩

theorem drain_accounted (polls : Nat) (hopen : state.emitDone = true) :
    (drain polls state).Throughout (RequestEffects.exec backend) (fun _ => True)
      (fun events e' => ∀ drained, events = some drained →
        Accounted [] state.limitLease.toList (.done ∈ drained) e e') e := by
  induction polls generalizing state e with
  | zero => exact fun drained h => by cases h
  | succ polls ih =>
      refine Prog.throughout_bind (Prog.throughout_mono (fun _ _ => trivial) (fun _ _ h => h)
        (poll_open hopen)) ?_
      rintro _ e' ⟨event, state', rfl, ⟨hevent, hopen', hlease, rfl⟩ | ⟨rfl, haccounted⟩⟩
      · refine Prog.throughout_map (Prog.throughout_mono (fun _ h => h) ?_ (ih hopen'))
        intro events e'' hrest drained hdrained
        obtain ⟨rest, rfl, rfl⟩ := Option.map_eq_some_iff.mp hdrained
        rw [← hlease]
        refine (hrest rest rfl).answered_imp fun hmem => ?_
        exact (List.mem_cons.mp hmem).resolve_left (Ne.symm hevent)
      · refine Prog.throughout_map (Prog.throughout_mono (fun _ _ => trivial) ?_
          (drain_ended polls))
        intro events e'' hrest drained hdrained
        obtain ⟨rest, rfl, rfl⟩ := Option.map_eq_some_iff.mp hdrained
        obtain ⟨rfl, rfl⟩ := hrest rest rfl
        exact haccounted.answered_imp fun hmem => (List.mem_singleton.mp hmem).symm

end StreamBuildState

namespace AdmittedRequest

variable {request : AdmittedRequest}

theorem upstreamFailed_accounted (error : AppError) :
    Handles backend e (request.upstreamFailed error)
      (fun response e' => Accounted [] [request.limitLease] response.isCompletion e e') e := by
  refine Prog.throughout_bind (handles_elapsedMs ⟨rfl, rfl⟩) ?_
  rintro latencyMs _ rfl
  refine Prog.throughout_bind (handles_recordUsage _ ⟨rfl, rfl⟩) ?_
  rintro result _ rfl
  refine Prog.throughout_bind (handles_observe _ _ _ _ _ _ ⟨rfl, rfl⟩) ?_
  rintro _ _ ⟨metrics, hcredits, rfl⟩
  refine Prog.throughout_bind (handles_record _ _ _ ⟨rfl, rfl⟩) ?_
  rintro _ _ ⟨log, rfl⟩
  refine Prog.throughout_bind (handles_release _ ⟨rfl, rfl⟩) ?_
  rintro _ _ rfl
  exact Accounted.failed rfl hcredits rfl id

theorem complete_accounted :
    Handles backend e request.complete
      (fun response e' => Accounted [] [request.limitLease] response.isCompletion e e') e := by
  refine Prog.throughout_bind (handles_chatCompletions _ ⟨rfl, rfl⟩) ?_
  rintro answer _ rfl
  cases answer with
  | error error => exact upstreamFailed_accounted error
  | ok upstreamResponse =>
      refine Prog.throughout_bind (handles_elapsedMs ⟨rfl, rfl⟩) ?_
      rintro latencyMs _ rfl
      refine Prog.throughout_bind (handles_recordUsage _ ⟨rfl, rfl⟩) ?_
      rintro result _ rfl
      cases result with
      | error error =>
          refine Prog.throughout_bind (handles_observe _ _ _ _ _ _ ⟨rfl, rfl⟩) ?_
          rintro _ _ ⟨metrics, hcredits, rfl⟩
          refine Prog.throughout_bind (handles_record _ _ _ ⟨rfl, rfl⟩) ?_
          rintro _ _ ⟨log, rfl⟩
          refine Prog.throughout_bind (handles_release _ ⟨rfl, rfl⟩) ?_
          rintro _ _ rfl
          rw [creditsCharged_error] at hcredits
          exact Accounted.metered hcredits rfl fun h => h.elim
      | ok =>
          refine Prog.throughout_bind (handles_observe _ _ _ _ _ _ ⟨rfl, rfl⟩) ?_
          rintro _ _ ⟨metrics, hcredits, rfl⟩
          refine Prog.throughout_bind (handles_record _ _ _ ⟨rfl, rfl⟩) ?_
          rintro _ _ ⟨log, rfl⟩
          refine Prog.throughout_bind (handles_release _ ⟨rfl, rfl⟩) ?_
          rintro _ _ rfl
          exact Accounted.metered hcredits rfl fun _ => rfl

end AdmittedRequest

theorem refuseCredit_accounted {request : AdmittedRequest} (error : AppError) :
    Handles backend e (refuseCredit request error)
      (fun outcome e' => ∃ response, outcome = .response response ∧
        Accounted [] [] response.isCompletion e e') e := by
  refine Prog.throughout_bind (handles_elapsedMs ⟨rfl, rfl⟩) ?_
  rintro latencyMs _ rfl
  refine Prog.throughout_bind (handles_record _ _ _ ⟨rfl, rfl⟩) ?_
  rintro _ _ ⟨log, rfl⟩
  refine Prog.throughout_bind (handles_recordUsage _ ⟨rfl, rfl⟩) ?_
  rintro result _ rfl
  refine Prog.throughout_bind (handles_elapsedMs ⟨rfl, rfl⟩) ?_
  rintro observedMs _ rfl
  refine Prog.throughout_bind (handles_observe _ _ _ _ _ _ ⟨rfl, rfl⟩) ?_
  rintro _ _ ⟨metrics, hcredits, rfl⟩
  exact ⟨_, rfl, Accounted.failed rfl hcredits (List.append_nil _).symm id⟩

theorem refuseLimits_accounted {request : AdmittedRequest} (usage : TokenUsage) (error : AppError) :
    Handles backend e (refuseLimits request usage error)
      (fun outcome e' => ∃ response, outcome = .response response ∧
        Accounted [] [] response.isCompletion e e') e := by
  refine Prog.throughout_bind (handles_elapsedMs ⟨rfl, rfl⟩) ?_
  rintro latencyMs _ rfl
  refine Prog.throughout_bind (handles_record _ _ _ ⟨rfl, rfl⟩) ?_
  rintro _ _ ⟨log, rfl⟩
  refine Prog.throughout_bind (handles_observe _ _ _ _ _ _ ⟨rfl, rfl⟩) ?_
  rintro _ _ ⟨metrics, hcredits, rfl⟩
  rw [creditsCharged_error, Int64.add_zero] at hcredits
  exact ⟨_, rfl, Accounted.refused hcredits id⟩

namespace DaemonRequest

variable {request : DaemonRequest}

theorem errorResponse_accounted (error : AppError) :
    Handles backend e (request.errorResponse error)
      (fun response e' => Accounted [] [] response.isCompletion e e') e := by
  refine Prog.throughout_bind (handles_elapsedMs ⟨rfl, rfl⟩) ?_
  rintro latencyMs _ rfl
  refine Prog.throughout_bind (handles_recordUsage _ ⟨rfl, rfl⟩) ?_
  rintro result _ rfl
  refine Prog.throughout_bind (handles_observeDaemon _ _ _ _ _ _ _ ⟨rfl, rfl⟩) ?_
  rintro _ _ ⟨metrics, hcredits, rfl⟩
  refine Prog.throughout_bind (handles_record _ _ _ ⟨rfl, rfl⟩) ?_
  rintro _ _ ⟨log, rfl⟩
  exact Accounted.failed rfl hcredits (List.append_nil _).symm id

end DaemonRequest

end Serving

section Handling

variable {backend : DatabaseBackend} {before e : RequestEffects} {α : Type}

-- What the handler has done when it returns: it has answered, or it has handed its lease to the
-- stream that will.
def Handled (before : RequestEffects) : GatewayOutcome → RequestEffects → Prop
  | .response response, e =>
      ∃ leases, leases.length ≤ 1 ∧ Accounted leases leases response.isCompletion before e
  | .stream state, e => ∃ lease, state.limitLease = some lease ∧ state.emitDone = true ∧
      e = { before with obtained := before.obtained ++ [lease] }

-- Up to its return the handler gives nothing back.
abbrev Awaits {α : Type} (backend : DatabaseBackend) (before : RequestEffects)
    (program : Handling α) (post : α → RequestEffects → Prop) (e : RequestEffects) : Prop :=
  program.Throughout (RequestEffects.handle backend)
    (fun e' => e'.released = before.released) post e

theorem awaits_serving {program : Serving α} {post : α → RequestEffects → Prop}
    (hreleased : e.released = before.released) (h : Handles backend e program post e) :
    Awaits backend before (serving program) post e := by
  refine Prog.throughout_embed (fun c choice s response s' hexec => hexec) ?_
  exact Prog.throughout_mono (fun e' hsame => hsame.2.trans hreleased) (fun _ _ hpost => hpost) h

-- A command that changes nothing but the time.
theorem awaits_ask {c : HandlerCommand} (hreleased : e.released = before.released)
    (h : ∀ choice, ∃ response, RequestEffects.handle backend c choice e = some (response, e)) :
    Awaits backend before (Prog.ask c) (fun _ e' => e' = e) e := by
  refine ⟨hreleased, fun choice response e' hexec => ?_⟩
  obtain ⟨answer, hanswer⟩ := h choice
  rw [hanswer] at hexec
  exact (Prod.mk.inj (Option.some.inj hexec)).2.symm

theorem awaits_acquire {scopes : List LimitScope} {tokens : UInt64}
    (hreleased : e.released = before.released) :
    Awaits backend before (Prog.ask (HandlerCommand.acquireRuntimeLimits scopes tokens))
      (fun (limits : Except AppError RuntimeLimitLease) e' =>
        e' = { e with obtained := e.obtained ++ limits.toOption.toList }) e := by
  refine ⟨hreleased, fun choice response e' hexec => ?_⟩
  cases hexec
  rfl

theorem Handled.refused {response : GatewayResponse}
    (h : Accounted [] [] response.isCompletion before e) : Handled before (.response response) e :=
  ⟨[], Nat.zero_le 1, h⟩

-- A lease that was taken is given back with the answer.
theorem Handled.answered {response : GatewayResponse} {lease : RuntimeLimitLease}
    (h : Accounted [] [lease] response.isCompletion
      { before with obtained := before.obtained ++ [lease] } e) :
    Handled before (.response response) e :=
  ⟨[lease], Nat.le_refl 1, h.obtain⟩

theorem refuse_handled (log : GatewayCompletionLog) (error : AppError) :
    Awaits backend e (refuse log error) (Handled e) e := by
  refine Prog.throughout_bind (awaits_serving rfl (handles_record _ _ _ ⟨rfl, rfl⟩)) ?_
  rintro _ _ ⟨input, rfl⟩
  exact Handled.refused (Accounted.refused rfl id)

theorem refuseDaemonRequest_handled (request : DaemonRequest) (usage : TokenUsage)
    (error : AppError) : Awaits backend e (refuseDaemonRequest request usage error)
    (Handled e) e := by
  refine Prog.throughout_bind (awaits_serving rfl (handles_record _ _ _ ⟨rfl, rfl⟩)) ?_
  rintro _ _ ⟨log, rfl⟩
  refine Prog.throughout_bind (awaits_serving rfl (handles_elapsedMs ⟨rfl, rfl⟩)) ?_
  rintro latencyMs _ rfl
  refine Prog.throughout_bind (awaits_serving rfl
    (handles_observeDaemon _ _ _ _ _ _ _ ⟨rfl, rfl⟩)) ?_
  rintro _ _ ⟨metrics, hcredits, rfl⟩
  rw [creditsCharged_error, Int64.add_zero] at hcredits
  exact Handled.refused (Accounted.refused hcredits id)

theorem succeeded_accounted (request : DaemonRequest) (upstreamResponse : ChatResponse)
    (hreleased : e.released = before.released) :
    Awaits backend before (request.succeeded upstreamResponse)
      (fun response e' => Accounted [] [] response.isCompletion e e') e := by
  refine Prog.throughout_bind (awaits_serving hreleased (handles_elapsedMs ⟨rfl, rfl⟩)) ?_
  rintro latencyMs _ rfl
  refine Prog.throughout_bind (awaits_serving hreleased (handles_recordUsage _ ⟨rfl, rfl⟩)) ?_
  rintro result _ rfl
  cases result with
  | error error =>
      refine Prog.throughout_bind (awaits_serving hreleased
        (handles_observeDaemon _ _ _ _ _ _ _ ⟨rfl, rfl⟩)) ?_
      rintro _ _ ⟨metrics, hcredits, rfl⟩
      refine Prog.throughout_bind (awaits_serving hreleased (handles_record _ _ _ ⟨rfl, rfl⟩)) ?_
      rintro _ _ ⟨log, rfl⟩
      rw [creditsCharged_error] at hcredits
      exact Accounted.metered hcredits (List.append_nil _).symm fun h => h.elim
  | ok =>
      refine Prog.throughout_bind (awaits_serving hreleased
        (handles_observeDaemon _ _ _ _ _ _ _ ⟨rfl, rfl⟩)) ?_
      rintro _ _ ⟨metrics, hcredits, rfl⟩
      refine Prog.throughout_bind (awaits_serving hreleased (handles_record _ _ _ ⟨rfl, rfl⟩)) ?_
      rintro _ _ ⟨log, rfl⟩
      refine Prog.throughout_bind (awaits_ask hreleased fun _ => ⟨_, rfl⟩) ?_
      rintro id _ rfl
      refine Prog.throughout_bind (awaits_ask hreleased fun _ => ⟨_, rfl⟩) ?_
      rintro created _ rfl
      exact Accounted.metered hcredits (List.append_nil _).symm fun _ => rfl

theorem answer_accounted (request : DaemonRequest) (result : Except AppError DispatchJobResult)
    (hreleased : e.released = before.released) :
    Awaits backend before (request.answer result)
      (fun response e' => Accounted [] [] response.isCompletion e e') e := by
  have hfailed : ∀ error, Awaits backend before (serving (request.errorResponse error))
      (fun response e' => Accounted [] [] response.isCompletion e e') e :=
    fun error => awaits_serving hreleased (DaemonRequest.errorResponse_accounted error)
  cases result with
  | error error => exact hfailed _
  | ok result =>
      cases result with
      | succeeded upstreamResponse => exact succeeded_accounted request upstreamResponse hreleased
      | failed errorCode errorMessage => exact hfailed _
      | timedOut => exact hfailed _

theorem dispatchDaemonRequest_handled (config : GatewayConfig) (request : DaemonRequest)
    (modelId : String) (maxTokens : Option UInt64) :
    Awaits backend e (dispatchDaemonRequest config request modelId maxTokens) (Handled e) e := by
  refine Prog.throughout_bind (awaits_ask rfl fun _ => ⟨_, rfl⟩) ?_
  rintro credit _ rfl
  cases credit with
  | error error => exact refuseDaemonRequest_handled request _ error
  | ok =>
      refine Prog.throughout_bind (awaits_acquire rfl) ?_
      rintro limits _ rfl
      cases limits with
      | error error =>
          simp only [Except.toOption, Option.toList_none, List.append_nil]
          exact refuseDaemonRequest_handled request _ error
      | ok lease =>
          refine Prog.throughout_bind (awaits_ask rfl fun _ => ⟨_, rfl⟩) ?_
          rintro result _ rfl
          refine Prog.throughout_bind (answer_accounted request result rfl) ?_
          intro response answered haccounted
          have hnone := haccounted.released
          rw [List.append_nil] at hnone
          refine Prog.throughout_bind (awaits_serving hnone (handles_release _ ⟨rfl, rfl⟩)) ?_
          rintro _ _ rfl
          refine Handled.answered ⟨haccounted.requestLogs, haccounted.usages, haccounted.credits,
            haccounted.obtained, ?_⟩
          rw [hnone]
          rfl

theorem handleDaemonChatCompletion_handled (config : GatewayConfig) (request : GatewayRequest)
    (context : RequestContext) (log : GatewayCompletionLog) (publicModel : String) :
    Awaits backend e (handleDaemonChatCompletion config request context log publicModel)
      (Handled e) e := by
  unfold handleDaemonChatCompletion
  split
  · exact refuse_handled log _
  refine Prog.throughout_bind (awaits_ask rfl fun _ => ⟨_, rfl⟩) ?_
  rintro node _ rfl
  rcases node with error | _ | node
  · exact refuse_handled log error
  · exact refuse_handled log _
  · dsimp only
    split
    · exact refuse_handled _ _
    · exact dispatchDaemonRequest_handled config _ _ _

theorem serveAdmitted_handled (request : AdmittedRequest) (lease : RuntimeLimitLease) :
    Awaits backend e (serveAdmitted request lease) (Handled e)
      { e with obtained := e.obtained ++ [lease] } := by
  unfold serveAdmitted
  dsimp only
  split
  · refine Prog.throughout_bind (awaits_ask rfl fun _ => ⟨_, rfl⟩) ?_
    rintro result _ rfl
    cases result with
    | error error =>
        refine Prog.throughout_bind (awaits_serving rfl
          (AdmittedRequest.upstreamFailed_accounted error)) ?_
        exact fun response e' haccounted => Handled.answered haccounted
    | ok => exact ⟨lease, rfl, rfl, rfl⟩
  · refine Prog.throughout_bind (awaits_serving rfl AdmittedRequest.complete_accounted) ?_
    exact fun response e' haccounted => Handled.answered haccounted

theorem admitRequest_handled (request : AdmittedRequest) :
    Awaits backend e (admitRequest request) (Handled e) e := by
  have hrefused : ∀ {program : Serving GatewayOutcome},
      Handles backend e program (fun outcome e' => ∃ response, outcome = .response response ∧
        Accounted [] [] response.isCompletion e e') e →
      Awaits backend e (serving program) (Handled e) e := by
    intro program h
    refine Prog.throughout_mono (fun _ h => h) ?_ (awaits_serving rfl h)
    rintro _ e' ⟨response, rfl, haccounted⟩
    exact Handled.refused haccounted
  refine Prog.throughout_bind (awaits_ask rfl fun _ => ⟨_, rfl⟩) ?_
  rintro credit _ rfl
  cases credit with
  | error error => exact hrefused (refuseCredit_accounted error)
  | ok =>
      refine Prog.throughout_bind (awaits_acquire rfl) ?_
      rintro limits _ rfl
      cases limits with
      | error error =>
          simp only [Except.toOption, Option.toList_none, List.append_nil]
          exact hrefused (refuseLimits_accounted _ error)
      | ok lease => exact serveAdmitted_handled request lease

theorem handleRouteChatCompletion_handled (request : GatewayRequest) (context : RequestContext)
    (publicModel : String) (route : ResolvedModelRoute) :
    Awaits backend e (handleRouteChatCompletion request context publicModel route)
    (Handled e) e := by
  unfold handleRouteChatCompletion
  dsimp only
  split
  · exact refuse_handled _ _
  refine Prog.throughout_bind (awaits_ask rfl fun _ => ⟨_, rfl⟩) ?_
  rintro id _ rfl
  refine Prog.throughout_bind (awaits_ask rfl fun _ => ⟨_, rfl⟩) ?_
  rintro created _ rfl
  exact admitRequest_handled _

theorem requestIdOr_same (header : Option Uuid) :
    Awaits backend e (requestIdOr header) (fun _ e' => e' = e) e := by
  cases header with
  | some id => exact rfl
  | none => exact awaits_ask rfl fun _ => ⟨_, rfl⟩

theorem chatCompletionsImpl_handled (config : GatewayConfig) (request : GatewayRequest) :
    Awaits backend e (chatCompletionsImpl config request) (Handled e) e := by
  refine Prog.throughout_bind (requestIdOr_same request.xRequestId) ?_
  rintro requestId _ rfl
  dsimp only
  split
  · exact refuse_handled _ _
  split
  · exact refuse_handled _ _
  refine Prog.throughout_bind (awaits_ask rfl fun _ => ⟨_, rfl⟩) ?_
  rintro route _ rfl
  cases route with
  | ok route => exact handleRouteChatCompletion_handled request _ _ route
  | error error =>
      dsimp only
      split
      · exact handleDaemonChatCompletion_handled config request _ _ _
      · exact refuse_handled _ error

end Handling

end Mizan.Gateway
