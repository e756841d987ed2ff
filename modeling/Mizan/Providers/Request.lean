import Mizan.Core.Redaction
import Mizan.Providers.Sse

namespace Mizan.Providers

structure OpenAiChatMessage where
  content : Option String
  deriving DecidableEq, Repr

structure OpenAiChoice where
  message : Option OpenAiChatMessage
  deriving DecidableEq, Repr

structure OpenAiChatCompletionResponse where
  model : Option String
  choices : List OpenAiChoice
  usage : Option OpenAiTokenUsage
  deriving DecidableEq, Repr

-- What the HTTP client makes of an answer: its status as it is printed, and its body, read at once
-- or in pieces. Either reading may fail, with a text of the client's own.
structure HttpResponse where
  status : String
  isSuccess : Bool
  text : Except String String
  bytesStream : ByteStream

def sendChatCompletionRequest : Except String HttpResponse → AppResult HttpResponse
  | .error error => .error (.infrastructure s!"upstream request failed: {error}")
  | .ok response =>
      if ¬response.isSuccess then
        let body := response.text.toOption.getD "<failed to read upstream body>"
        .error (.provider (redactForLogs
          s!"upstream provider returned status={response.status} body={body}"))
      else .ok response

def parseChatCompletionResponse (fromStr : String → Except String OpenAiChatCompletionResponse)
    (rawBody model providerName : String) : AppResult ChatResponse := do
  let response ← (fromStr rawBody).mapError fun error =>
    .infrastructure s!"failed to decode upstream chat completion response: {error}"
  match response.choices with
  | [] => .error (.provider "upstream chat completion response returned no choices")
  | firstChoice :: _ =>
      .ok
        { provider := providerName
          model := response.model.getD model
          content := (firstChoice.message.bind OpenAiChatMessage.content).getD ""
          usage := response.usage.map normalizeUsage }

def chatCompletions (fromStr : String → Except String OpenAiChatCompletionResponse) (name : String)
    (request : ChatRequest) (sent : Except String HttpResponse) : AppResult ChatResponse := do
  let upstreamResponse ← sendChatCompletionRequest sent
  let text ← upstreamResponse.text.mapError fun error =>
    .infrastructure s!"upstream chat completion response read failed: {error}"
  parseChatCompletionResponse fromStr text request.model name

def chatCompletionsStream (sent : Except String HttpResponse) : AppResult SseStreamState := do
  let upstreamResponse ← sendChatCompletionRequest sent
  pure (streamSseChunks upstreamResponse.bytesStream)

-- The kinds of error that a provider comes back with.
def Reported (error : AppError) : Prop :=
  (∃ message, error = .infrastructure message) ∨ ∃ message, error = .provider message

section Reported

variable {error : AppError}

theorem reported_of_send {sent : Except String HttpResponse}
    (h : sendChatCompletionRequest sent = .error error) : Reported error := by
  cases sent with
  | error text => exact .inl ⟨_, (Except.error.inj h).symm⟩
  | ok response =>
      simp only [sendChatCompletionRequest] at h
      split at h
      · exact .inr ⟨_, (Except.error.inj h).symm⟩
      · cases h

theorem reported_of_chatCompletionsStream {sent : Except String HttpResponse}
    (h : chatCompletionsStream sent = .error error) : Reported error := by
  cases hsent : sendChatCompletionRequest sent with
  | ok response => simp [chatCompletionsStream, hsent, bind, Except.bind, pure, Except.pure] at h
  | error other =>
      have hother : other = error := by
        simpa [chatCompletionsStream, hsent, bind, Except.bind] using h
      exact hother ▸ reported_of_send hsent

theorem reported_of_parse {fromStr : String → Except String OpenAiChatCompletionResponse}
    {rawBody model providerName : String}
    (h : parseChatCompletionResponse fromStr rawBody model providerName = .error error) :
    Reported error := by
  cases hbody : fromStr rawBody with
  | error text =>
      simp only [parseChatCompletionResponse, hbody, Except.mapError, bind, Except.bind,
        Except.error.injEq] at h
      exact .inl ⟨_, h.symm⟩
  | ok response =>
      simp only [parseChatCompletionResponse, hbody, Except.mapError, bind, Except.bind] at h
      split at h
      · exact .inr ⟨_, (Except.error.inj h).symm⟩
      · cases h

theorem reported_of_chatCompletions {fromStr : String → Except String OpenAiChatCompletionResponse}
    {name : String} {request : ChatRequest} {sent : Except String HttpResponse}
    (h : chatCompletions fromStr name request sent = .error error) : Reported error := by
  cases hsent : sendChatCompletionRequest sent with
  | error other =>
      have hother : other = error := by
        simpa [chatCompletions, hsent, bind, Except.bind] using h
      exact hother ▸ reported_of_send hsent
  | ok response =>
      cases htext : response.text with
      | error text =>
          simp only [chatCompletions, hsent, htext, Except.mapError, bind, Except.bind,
            Except.error.injEq] at h
          exact .inl ⟨_, h.symm⟩
      | ok text =>
          simp only [chatCompletions, hsent, htext, Except.mapError, bind, Except.bind] at h
          exact reported_of_parse h

end Reported

-- Nothing but chunks waits in the queue.
def Queued (state : SseStreamState) : Prop := ∀ next ∈ state.pending, next.isOk = true

-- The outcome of a step of the stream: it fails as a provider does, or leaves only chunks behind.
def Stepped : AppResult Unit × SseStreamState → Prop
  | (.error error, state) => Reported error ∧ Queued state
  | (.ok (), state) => Queued state

section Stream

variable {fromStr : FromStr} {state : SseStreamState}

theorem reported_of_parseStreamEvent {text : String} {error : AppError}
    (h : parseStreamEvent fromStr text = .error error) : Reported error := by
  simp only [parseStreamEvent] at h
  split at h
  · cases h
  · split at h
    · exact .inr ⟨_, (Except.error.inj h).symm⟩
    · split at h <;> cases h

theorem stepped_flush (h : Queued state) : Stepped (flushPendingSseEvent fromStr state) := by
  simp only [flushPendingSseEvent]
  split
  · exact h
  · split
    · rename_i error hparse
      exact ⟨reported_of_parseStreamEvent hparse, h⟩
    · intro next hnext
      rcases List.mem_append.mp hnext with hold | hchunk
      · exact h next hold
      · obtain ⟨chunk, _, rfl⟩ := List.mem_map.mp hchunk
        rfl

theorem stepped_line (h : Queued state) (rawLine : List UInt8) :
    Stepped (processSseLine fromStr state rawLine) := by
  simp only [processSseLine]
  split
  · rename_i error hline
    refine ⟨?_, h⟩
    rw [decodeLine] at hline
    cases hbytes : fromUtf8 rawLine with
    | ok line => simp [hbytes, Except.mapError] at hline
    | error other =>
        rw [hbytes] at hline
        exact .inr ⟨_, (Except.error.inj hline).symm⟩
  · split
    · exact stepped_flush h
    · split
      · exact h
      · split
        · exact h
        · exact h

-- What a pass of the loop may come to.
def Passed : Turn → Prop
  | .item (.error error) state => Reported error ∧ Queued state
  | .item (.ok _) state => Queued state
  | .again state => Queued state
  | .ended => True

theorem passed_popPending {next : AppResult ChatStreamChunk} {rest : SseStreamState}
    (h : Queued state) (hpop : popPending state = some (next, rest)) :
    Passed (.item next rest) := by
  rw [popPending] at hpop
  split at hpop
  · cases hpop
  · rename_i first pending hpending
    obtain ⟨rfl, rfl⟩ := Prod.mk.inj (Option.some.inj hpop)
    have hall : ∀ other ∈ first :: pending, other.isOk = true := hpending ▸ h
    have hrest : ∀ other ∈ pending, other.isOk = true := fun other hother =>
      hall other (List.mem_cons_of_mem first hother)
    cases first with
    | error error => cases hall _ List.mem_cons_self
    | ok chunk => exact hrest

theorem passed_finish (h : Queued state) : Passed (finish fromStr state) := by
  have hflush := @stepped_flush fromStr state h
  rw [finish]
  split
  · rename_i error after hresult
    rw [hresult] at hflush
    exact hflush
  · rename_i after hresult
    rw [hresult] at hflush
    split
    · rename_i next rest hpop
      exact passed_popPending hflush hpop
    · split
      · trivial
      · exact ⟨.inr ⟨_, rfl⟩, hflush⟩

theorem passed_endOfBytes (h : Queued state) : Passed (endOfBytes fromStr state) := by
  rw [endOfBytes]
  split
  · exact passed_finish h
  · have hline := @stepped_line fromStr { state with lineBuffer := [] } h state.lineBuffer
    split
    · rename_i error after hresult
      rw [hresult] at hline
      exact hline
    · rename_i after hresult
      rw [hresult] at hline
      exact passed_finish hline

theorem passed_turn (h : Queued state) : Passed (turn fromStr state) := by
  rw [turn]
  split
  · rename_i next rest hpop
    exact passed_popPending h hpop
  · split
    · rename_i line rest _
      have hline := @stepped_line fromStr { state with lineBuffer := rest } h line
      split
      · rename_i error after hresult
        rw [hresult] at hline
        exact hline
      · rename_i after hresult
        rw [hresult] at hline
        exact hline
    · split
      · exact h
      · exact ⟨.inl ⟨_, rfl⟩, h⟩
      · exact passed_endOfBytes h

theorem passed_loop (h : Queued state) :
    ∀ next rest, loop fromStr state = some (next, rest) → Passed (.item next rest) := by
  fun_induction loop fromStr state with
  | case1 state next rest hturn =>
      intro next' rest' hsome
      obtain ⟨rfl, rfl⟩ := Prod.mk.inj (Option.some.inj hsome)
      exact hturn ▸ passed_turn h
  | case2 state again hturn ih =>
      have hagain : Passed (.again again) := hturn ▸ passed_turn h
      exact ih hagain
  | case3 state hturn =>
      intro next rest hsome
      cases hsome

-- Every error that a stream answers is one that a provider comes back with.
theorem reported_of_yields {items : List (AppResult ChatStreamChunk)} {error : AppError}
    (hqueued : Queued state) (h : Yields fromStr state items) (hmem : .error error ∈ items) :
    Reported error := by
  induction h with
  | ended => cases hmem
  | @item state next rest items hpoll _ ih =>
      rw [poll] at hpoll
      split at hpoll
      · cases hpoll
      · have hpassed := passed_loop hqueued next rest hpoll
        rcases List.mem_cons.mp hmem with rfl | hlater
        · exact hpassed.1
        · refine ih ?_ hlater
          cases next with
          | error other => exact hpassed.2
          | ok chunk => exact hpassed

end Stream

end Mizan.Providers
