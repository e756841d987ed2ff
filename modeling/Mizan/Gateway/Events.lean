import Mizan.Gateway.Stream
import Mizan.Interleaving.Transcript

namespace Mizan.Gateway

open Interleaving Interleaving.Prog Billing

abbrev ServingExchange := Exchange GatewayCommand GatewayCommand.Response

abbrev Upstream := List (Except AppError ChatStreamChunk)

def upstreamAnswer : ServingExchange → Option (Option (Except AppError ChatStreamChunk))
  | ⟨.upstreamNext, answer⟩ => some answer
  | _ => none

def billed : ServingExchange → Option (BillingInput × Except AppError Unit)
  | ⟨.recordUsage input, outcome⟩ => some (input, outcome)
  | _ => none

def upstreamAnswers (transcript : List ServingExchange) :
    List (Option (Except AppError ChatStreamChunk)) := transcript.filterMap upstreamAnswer

def bills (transcript : List ServingExchange) : List (BillingInput × Except AppError Unit) :=
  transcript.filterMap billed

theorem upstreamAnswers_append (before after : List ServingExchange) :
    upstreamAnswers (before ++ after) = upstreamAnswers before ++ upstreamAnswers after :=
  List.filterMap_append

theorem bills_append (before after : List ServingExchange) :
    bills (before ++ after) = bills before ++ bills after :=
  List.filterMap_append

-- The items of the upstream in order, and `None` from then on.
def Feeds : Upstream → List (Option (Except AppError ChatStreamChunk)) → Prop
  | _, [] => True
  | [], answer :: answers => answer = none ∧ Feeds [] answers
  | item :: upstream, answer :: answers => answer = some item ∧ Feeds upstream answers

-- What the upstream is asked for: the chunks before the first error or the end, and that.
def answersUntilEnd (upstream : Upstream) : List (Option (Except AppError ChatStreamChunk)) :=
  (received upstream).map (fun chunk => some (.ok chunk)) ++ [(failure upstream).map .error]

namespace StreamBuildState

-- What `polls` polls answer. After `None` there are no more.
def events : (polls : Nat) → StreamBuildState → Serving (List (Option Event))
  | 0, _ => pure []
  | polls + 1, state => do
      match ← state.poll with
      | none => pure [none]
      | some (event, state) => do
          let rest ← events polls state
          pure (some event :: rest)

def chunkEvent (state : StreamBuildState) (chunk : ChatStreamChunk) : Event :=
  .data (mapToChatCompletionStreamResponse state.completionId state.model state.created chunk)

-- The event of a terminal branch, after what the billing answered.
def settledEvent (event : Event) : Except AppError Unit → Event
  | .error error => .error (.ofAppError error)
  | .ok () => event

def lastEvent (state : StreamBuildState) (upstream : Upstream) : Event :=
  match failure upstream with
  | some error =>
      .error (.ofAppError (normalizeProviderError error state.context state.routeAlias))
  | none => .done

end StreamBuildState

section Quiet

-- Neither the upstream nor the billing is asked.
def Quiet (transcript : List ServingExchange) : Prop :=
  upstreamAnswers transcript = [] ∧ bills transcript = []

variable {transcript : List ServingExchange}

theorem quiet_nil : Quiet [] := ⟨rfl, rfl⟩

theorem quiet_append {before after : List ServingExchange} (h : Quiet before) (h' : Quiet after) :
    Quiet (before ++ after) := by
  rw [Quiet, upstreamAnswers_append, bills_append, h.1, h'.1, h.2, h'.2]
  exact ⟨rfl, rfl⟩

theorem quiet_elapsedMs {latencyMs : UInt64}
    (h : Completes (Prog.ask GatewayCommand.elapsedMs) transcript latencyMs) :
    Quiet transcript := by
  rw [completes_ask h]
  exact ⟨rfl, rfl⟩

theorem quiet_recordGatewayRequestCompletion {log : GatewayCompletionLog} {status : UInt16}
    {errorCode : Option String} {value : Unit}
    (h : Completes (recordGatewayRequestCompletion log status errorCode) transcript value) :
    Quiet transcript := by
  obtain ⟨before, after, latencyMs, rfl, hbefore, hafter⟩ := completes_bind h
  rw [completes_ask hafter]
  exact quiet_append (quiet_elapsedMs hbefore) ⟨rfl, rfl⟩

theorem quiet_observeGatewayMetrics {context : RequestContext} {routeAlias : String}
    {usage : TokenUsage} {status : UInt16} {latencyMs : UInt64} {routePrice : RoutePrice}
    {value : Unit}
    (h : Completes (observeGatewayMetrics context routeAlias usage status latencyMs routePrice)
      transcript value) : Quiet transcript := by
  rw [completes_ask h]
  exact ⟨rfl, rfl⟩

theorem quiet_releaseLimitLease {lease : Option RuntimeLimitLease} {value : Unit}
    (h : Completes (releaseLimitLease lease) transcript value) : Quiet transcript := by
  cases lease with
  | none =>
      obtain ⟨rfl, -⟩ := completes_pure h
      exact quiet_nil
  | some lease =>
      rw [completes_ask h]
      exact ⟨rfl, rfl⟩

end Quiet

namespace StreamBuildState

variable {state : StreamBuildState} {transcript : List ServingExchange}

-- The billing is asked once, and its answer decides on the event.
theorem settle_exchanges {status : UInt16} {errorCode : Option String} {event : Event}
    {result : Event × StreamBuildState}
    (h : Completes (state.settle status errorCode event) transcript result) :
    ∃ latencyMs outcome, upstreamAnswers transcript = [] ∧
      bills transcript = [(state.billingInput status latencyMs, outcome)] ∧
      result = (settledEvent event outcome, state.ended) := by
  obtain ⟨asked, rest, latencyMs, rfl, hasked, hrest⟩ := completes_bind h
  obtain ⟨recorded, rest, outcome, rfl, hrecorded, hrest⟩ := completes_bind hrest
  have hquiet := quiet_elapsedMs hasked
  have hsettled : Quiet rest ∧ result = (settledEvent event outcome, state.ended) := by
    cases outcome with
    | error error =>
        obtain ⟨logged, rest, _, rfl, hlogged, hrest⟩ := completes_bind hrest
        obtain ⟨observed, rest, _, rfl, hobserved, hrest⟩ := completes_bind hrest
        obtain ⟨released, rest, _, rfl, hreleased, hrest⟩ := completes_bind hrest
        obtain ⟨rfl, rfl⟩ := completes_pure hrest
        exact ⟨quiet_append (quiet_recordGatewayRequestCompletion hlogged) (quiet_append
          (quiet_observeGatewayMetrics hobserved) (quiet_append
            (quiet_releaseLimitLease hreleased) quiet_nil)), rfl⟩
    | ok =>
        obtain ⟨observed, rest, _, rfl, hobserved, hrest⟩ := completes_bind hrest
        obtain ⟨logged, rest, _, rfl, hlogged, hrest⟩ := completes_bind hrest
        obtain ⟨released, rest, _, rfl, hreleased, hrest⟩ := completes_bind hrest
        obtain ⟨rfl, rfl⟩ := completes_pure hrest
        exact ⟨quiet_append (quiet_observeGatewayMetrics hobserved) (quiet_append
          (quiet_recordGatewayRequestCompletion hlogged) (quiet_append
            (quiet_releaseLimitLease hreleased) quiet_nil)), rfl⟩
  obtain ⟨hrest, hresult⟩ := hsettled
  refine ⟨latencyMs, outcome, ?_, ?_, hresult⟩
  · rw [upstreamAnswers_append, upstreamAnswers_append, hquiet.1, hrest.1, completes_ask hrecorded]
    rfl
  · rw [bills_append, bills_append, hquiet.2, hrest.2, completes_ask hrecorded]
    rfl

theorem ended_exchanges (hended : state.emitDone = false)
    {result : Option (Event × StreamBuildState)} (h : Completes state.poll transcript result) :
    Quiet transcript ∧ result = none := by
  rw [poll, if_pos (by simp [hended])] at h
  obtain ⟨dropped, rest, _, rfl, hdropped, hrest⟩ := completes_bind h
  obtain ⟨rfl, rfl⟩ := completes_pure hrest
  exact ⟨quiet_append (quiet_releaseLimitLease hdropped) quiet_nil, rfl⟩

-- A poll of an open stream asks the upstream once. A chunk is passed on, anything else ends it.
theorem open_exchanges (hopen : state.emitDone = true) {result : Option (Event × StreamBuildState)}
    (h : Completes state.poll transcript result) :
    (∃ chunk, upstreamAnswers transcript = [some (.ok chunk)] ∧ bills transcript = [] ∧
      result = some (state.chunkEvent chunk, state.afterChunks [chunk])) ∨
    ∃ last : Option AppError, ∃ latencyMs outcome,
      upstreamAnswers transcript = [last.map .error] ∧
      bills transcript = [(state.billingInput (state.terminalStatus (last.map .error).toList)
        latencyMs, outcome)] ∧
      result = some (settledEvent (state.lastEvent (last.map .error).toList) outcome,
        state.ended) := by
  rw [poll, if_neg (by simp [hopen])] at h
  obtain ⟨asked, rest, answer, rfl, hasked, hrest⟩ := completes_bind h
  rw [completes_ask hasked]
  have hsettle : ∀ {status errorCode event} {result : Option (Event × StreamBuildState)}
      {transcript : List ServingExchange},
      Completes (some <$> state.settle status errorCode event) transcript result →
      ∃ latencyMs outcome, upstreamAnswers transcript = [] ∧
        bills transcript = [(state.billingInput status latencyMs, outcome)] ∧
        result = some (settledEvent event outcome, state.ended) := by
    intro status errorCode event result transcript h
    rw [map_eq_pure_bind] at h
    obtain ⟨settled, rest, ended, rfl, hsettled, hrest⟩ := completes_bind h
    obtain ⟨rfl, rfl⟩ := completes_pure hrest
    obtain ⟨latencyMs, outcome, hanswers, hbills, rfl⟩ := settle_exchanges hsettled
    rw [List.append_nil]
    exact ⟨latencyMs, outcome, hanswers, hbills, rfl⟩
  rw [upstreamAnswers_append, bills_append]
  match answer, hrest with
  | some (.ok chunk), hrest =>
      obtain ⟨rfl, rfl⟩ := completes_pure hrest
      exact .inl ⟨chunk, rfl, rfl, rfl⟩
  | some (.error error), hrest =>
      obtain ⟨latencyMs, outcome, hanswers, hbills, rfl⟩ := hsettle hrest
      refine .inr ⟨some error, latencyMs, outcome, ?_, ?_, rfl⟩
      · rw [hanswers]
        rfl
      · rw [hbills]
        rfl
  | none, hrest =>
      obtain ⟨latencyMs, outcome, hanswers, hbills, rfl⟩ := hsettle hrest
      refine .inr ⟨none, latencyMs, outcome, ?_, ?_, rfl⟩
      · rw [hanswers]
        rfl
      · rw [hbills]
        rfl

theorem events_ended {polls : Nat} (hended : state.emitDone = false) {results : List (Option Event)}
    (h : Completes (events polls state) transcript results) :
    Quiet transcript ∧ results = [none].take polls := by
  cases polls with
  | zero =>
      obtain ⟨rfl, rfl⟩ := completes_pure h
      exact ⟨quiet_nil, rfl⟩
  | succ polls =>
      obtain ⟨polled, rest, result, rfl, hpolled, hrest⟩ := completes_bind h
      obtain ⟨hquiet, rfl⟩ := ended_exchanges hended hpolled
      obtain ⟨rfl, rfl⟩ := completes_pure hrest
      exact ⟨quiet_append hquiet quiet_nil, by simp⟩

-- How the upstream begins when it has answered something that is no chunk.
theorem ended_of_feeds {upstream : Upstream} {last : Option AppError}
    {answers : List (Option (Except AppError ChatStreamChunk))}
    (h : Feeds upstream (last.map .error :: answers)) :
    received upstream = [] ∧ failure upstream = last := by
  match upstream, last, h with
  | [], none, _ => exact ⟨rfl, rfl⟩
  | .error error :: _, some _, ⟨hanswer, _⟩ =>
      cases hanswer
      exact ⟨rfl, rfl⟩

theorem failure_toList (last : Option AppError) :
    failure (last.map fun error => (.error error : Except AppError ChatStreamChunk)).toList =
      last := by
  cases last with
  | none => rfl
  | some error => rfl

-- The exchanges of a stream that is polled, over the chunks before the first error or the end.
theorem events_exchanges {polls : Nat} {upstream : Upstream} (hopen : state.emitDone = true)
    (hfeeds : Feeds upstream (upstreamAnswers transcript)) {results : List (Option Event)}
    (h : Completes (events polls state) transcript results) :
    ∃ latencyMs outcome,
      results = ((received upstream).map (fun chunk => some (state.chunkEvent chunk)) ++
        [some (settledEvent (state.lastEvent upstream) outcome), none]).take polls ∧
      upstreamAnswers transcript = (answersUntilEnd upstream).take polls ∧
      bills transcript = if (received upstream).length < polls then
        [((state.afterChunks (received upstream)).billingInput (state.terminalStatus upstream)
          latencyMs, outcome)] else [] := by
  induction polls generalizing state upstream transcript results with
  | zero =>
      obtain ⟨rfl, rfl⟩ := completes_pure h
      exact ⟨0, .ok (), rfl, rfl, rfl⟩
  | succ polls ih =>
      obtain ⟨polled, rest, result, rfl, hpolled, hrest⟩ := completes_bind h
      rw [upstreamAnswers_append] at hfeeds ⊢
      rw [bills_append]
      obtain ⟨chunk, hanswers, hbills, rfl⟩ | ⟨last, latencyMs, outcome, hanswers, hbills, rfl⟩ :=
        open_exchanges hopen hpolled
      · obtain ⟨others, ended, others', rfl, hothers, hended⟩ := completes_bind hrest
        obtain ⟨rfl, rfl⟩ := completes_pure hended
        rw [hanswers, List.append_nil] at hfeeds
        obtain ⟨upstream, rfl, hfeedsRest⟩ : ∃ others', upstream = .ok chunk :: others' ∧
            Feeds others' (upstreamAnswers others) := by
          cases upstream with
          | nil => exact absurd hfeeds.1 (by simp)
          | cons item upstream =>
              have hitem := Option.some.inj hfeeds.1
              exact ⟨upstream, by rw [hitem], hfeeds.2⟩
        obtain ⟨latencyMs, outcome, rfl, hanswers', hbills'⟩ :=
          @ih (state.afterChunks [chunk]) _ upstream hopen hfeedsRest _ hothers
        refine ⟨latencyMs, outcome, rfl, ?_, ?_⟩
        · rw [hanswers, List.append_nil, hanswers']
          rfl
        · rw [hbills, List.append_nil, hbills']
          simp only [received, List.length_cons, Nat.add_lt_add_iff_right, List.nil_append]
          rfl
      · obtain ⟨others, ended, others', rfl, hothers, hended⟩ := completes_bind hrest
        obtain ⟨rfl, rfl⟩ := completes_pure hended
        rw [hanswers] at hfeeds
        obtain ⟨hreceived, hfailure⟩ := ended_of_feeds hfeeds
        obtain ⟨hquiet, rfl⟩ := events_ended rfl hothers
        rw [List.append_nil, hquiet.1, hquiet.2, hanswers, hbills, hreceived]
        have hlast : state.lastEvent (last.map .error).toList = state.lastEvent upstream := by
          rw [lastEvent, lastEvent, failure_toList, hfailure]
        have hstatus : state.terminalStatus (last.map .error).toList =
            state.terminalStatus upstream := by
          rw [terminalStatus, terminalStatus, failure_toList, hfailure]
        refine ⟨latencyMs, outcome, ?_, ?_, ?_⟩
        · rw [hlast]
          simp
        · rw [answersUntilEnd, hreceived, hfailure]
          simp
        · rw [hstatus, if_pos (show ([] : List ChatStreamChunk).length < polls + 1 from
            Nat.succ_pos polls)]
          rfl

end StreamBuildState

-- An upstream that goes through its items, and a database that gives one answer to the billing.
def answerWith (outcome : Except AppError Unit) :
    (c : GatewayCommand) → Upstream → c.Response × Upstream
  | .upstreamNext, upstream => (upstream.head?, upstream.tail)
  | .chatCompletions _, upstream => (.error .unauthorized, upstream)
  | .elapsedMs, upstream => ((0 : UInt64), upstream)
  | .recordUsage _, upstream => (outcome, upstream)
  | .observeGateway _, upstream => ((), upstream)
  | .recordRequestLog _, upstream => ((), upstream)
  | .releaseLimitLease _, upstream => ((), upstream)

theorem feeds_converse {α : Type} (outcome : Except AppError Unit) (program : Serving α)
    (upstream : Upstream) :
    Feeds upstream (upstreamAnswers (converse (answerWith outcome) program upstream).1) ∧
      ∀ bill ∈ bills (converse (answerWith outcome) program upstream).1, bill.2 = outcome := by
  induction program generalizing upstream with
  | ret value => exact ⟨by cases upstream <;> trivial, fun _ hmem => by cases hmem⟩
  | call c next ih =>
      cases c with
      | upstreamNext =>
          cases upstream with
          | nil => exact ⟨⟨rfl, (ih none []).1⟩, (ih none []).2⟩
          | cons item upstream => exact ⟨⟨rfl, (ih (some item) upstream).1⟩, (ih _ upstream).2⟩
      | recordUsage input =>
          refine ⟨(ih outcome upstream).1, fun bill hmem => ?_⟩
          obtain rfl | hmem := List.mem_cons.mp hmem
          · rfl
          · exact (ih outcome upstream).2 bill hmem
      | chatCompletions request => exact ih _ upstream
      | elapsedMs => exact ih _ upstream
      | observeGateway observation => exact ih _ upstream
      | recordRequestLog input => exact ih _ upstream
      | releaseLimitLease lease => exact ih _ upstream

-- The chunks before the first error, one terminal event, and `None`.
theorem stream_events_protocol (completionId model : String) (requestMessages : List ChatMessage)
    (context : RequestContext) (billing : StreamBillingContext) (created : Int64)
    (upstream : Upstream) :
    (∀ polls outcome, ∃ transcript results,
      Completes (StreamBuildState.events polls
        (buildStreamEvents completionId model requestMessages context billing created)) transcript
        results ∧
      Feeds upstream (upstreamAnswers transcript) ∧ ∀ bill ∈ bills transcript, bill.2 = outcome) ∧
    ∀ polls transcript results,
      Completes (StreamBuildState.events polls
        (buildStreamEvents completionId model requestMessages context billing created)) transcript
        results →
      Feeds upstream (upstreamAnswers transcript) → (received upstream).length + 2 ≤ polls →
      ∃ terminal input outcome, bills transcript = [(input, outcome)] ∧
        results = (received upstream).map (fun chunk => some (.data
          { id := completionId, object := "chat.completion.chunk", created, model
            choices :=
              [{ index := chunk.index
                 delta := { role := "assistant", content := chunk.delta }
                 finishReason := chunk.finishReason }] })) ++ [some terminal, none] ∧
        (terminal = .done ↔ failure upstream = none ∧ outcome = .ok ()) ∧
        (terminal ≠ .done → ∃ envelope, terminal = .error envelope) ∧
        upstreamAnswers transcript = answersUntilEnd upstream := by
  refine ⟨fun polls outcome => ?_, fun polls transcript results hcompletes hfeeds hpolls => ?_⟩
  · obtain ⟨hfeeds, houtcome⟩ := feeds_converse outcome (StreamBuildState.events polls
      (buildStreamEvents completionId model requestMessages context billing created)) upstream
    exact ⟨_, _, completes_converse _ _ _, hfeeds, houtcome⟩
  · obtain ⟨latencyMs, outcome, hresults, hanswers, hbills⟩ :=
      StreamBuildState.events_exchanges rfl hfeeds hcompletes
    rw [if_pos (by omega)] at hbills
    rw [List.take_of_length_le (by simp [answersUntilEnd]; omega)] at hanswers
    rw [List.take_of_length_le (by simp; omega)] at hresults
    refine ⟨_, _, outcome, hbills, hresults, ?_, ?_, hanswers⟩
    · cases outcome with
      | error error => simp [StreamBuildState.settledEvent]
      | ok =>
          cases hfailure : failure upstream with
          | none => simp [StreamBuildState.settledEvent, StreamBuildState.lastEvent, hfailure]
          | some error =>
              simp [StreamBuildState.settledEvent, StreamBuildState.lastEvent, hfailure]
    · cases outcome with
      | error error => exact fun _ => ⟨_, rfl⟩
      | ok =>
          intro hterminal
          cases hfailure : failure upstream with
          | none =>
              simp [StreamBuildState.settledEvent, StreamBuildState.lastEvent,
                hfailure] at hterminal
          | some error =>
              have hlast : StreamBuildState.settledEvent (StreamBuildState.lastEvent
                  (buildStreamEvents completionId model requestMessages context billing created)
                  upstream) (.ok ()) = .error (.ofAppError
                    (normalizeProviderError error context model)) := by
                rw [StreamBuildState.settledEvent, StreamBuildState.lastEvent, hfailure]
                rfl
              exact ⟨_, hlast⟩

end Mizan.Gateway
