import Mizan.Gateway.Events
import Mizan.Providers.Shipped

namespace Mizan.Gateway

open Interleaving.Prog Billing Providers

-- What `serde_json` writes of the records of a stream, and what it reads of a chunk.
structure StreamCodec where
  encode : ChatCompletionsStreamResponse → String
  encodeError : ErrorEnvelope → String
  fromStr : FromStr

namespace StreamCodec

variable (codec : StreamCodec)

def eventName : Event → Option String
  | .error _ => some "error"
  | _ => none

def payload : Event → String
  | .data response => codec.encode response
  | .error envelope => codec.encodeError envelope
  | .done => DONE

-- The lines of an event: its name, its data, and the blank line that ends it.
def eventLines (event : Event) : List String :=
  (eventName event).toList.map ("event: " ++ ·) ++ ["data: " ++ codec.payload event, ""]

-- The body of `Sse::new` over the events.
def body (events : List Event) : String := terminated (events.flatMap codec.eventLines)

-- The fields of a chunk that the record of the decoder has.
def readBack (response : ChatCompletionsStreamResponse) : OpenAiChatCompletionChunk where
  choices := response.choices.map fun choice =>
    { index := choice.index
      delta := { content := some choice.delta.content }
      finishReason := choice.finishReason }
  usage := none

-- The text of an object: braces around it, and every control character escaped.
def IsObject (text : String) : Prop :=
  ∃ fields, text = "\x7b" ++ fields ++ "\x7d" ∧ ∀ c ∈ fields.toList, 0x20 ≤ c.toNat

-- A chunk is read back, and an error envelope is no chunk since it has no choices.
def Handles : Event → Prop
  | .data response => IsObject (codec.encode response) ∧
      codec.fromStr (codec.encode response) = .ok (readBack response)
  | .error envelope => IsObject (codec.encodeError envelope) ∧
      ∃ message, codec.fromStr (codec.encodeError envelope) = .error message
  | .done => True

end StreamCodec

-- A chunk that says something to the client.
def Substantial (chunk : ChatStreamChunk) : Prop :=
  chunk.delta ≠ "" ∨ chunk.finishReason.isSome

instance (chunk : ChatStreamChunk) : Decidable (Substantial chunk) :=
  inferInstanceAs (Decidable (_ ∨ _))

-- The chunks that come through, without their usage.
def relayed (chunks : List ChatStreamChunk) : List ChatStreamChunk :=
  (chunks.filter Substantial).map fun chunk => { chunk with usage := none }

section Payload

variable {text : String}

theorem trimStart_object {fields : String} (htext : text = "\x7b" ++ fields ++ "\x7d") :
    trimStart text = text := by
  have hopen : trimStart "\x7b" = "\x7b" := by decide
  rw [htext, String.append_assoc]
  exact trimStart_append hopen (by decide) _

theorem trimEnd_object {fields : String} (htext : text = "\x7b" ++ fields ++ "\x7d") :
    trimEnd text = text := by
  have hclose : trimEnd "\x7d" = "\x7d" := by decide
  rw [htext, trimEnd_append, hclose, if_neg (by decide)]

-- What stands behind `data: ` in one line and is read as it is.
structure OneLine (text : String) : Prop where
  begins : trimStart text = text
  ends : trimEnd text = text
  nonempty : text ≠ ""
  printable : ∀ c ∈ text.toList, 0x20 ≤ c.toNat

theorem oneLine_object (htext : StreamCodec.IsObject text) : OneLine text ∧ text ≠ DONE := by
  obtain ⟨fields, htext, hfields⟩ := htext
  have hchars : text.toList = '\x7b' :: (fields.toList ++ ['\x7d']) := by
    rw [htext, String.toList_append, String.toList_append, List.append_assoc]
    rfl
  refine ⟨⟨trimStart_object htext, trimEnd_object htext, ?_, ?_⟩, ?_⟩
  · rintro rfl
    cases hchars
  · rw [hchars]
    intro c hc
    simp only [List.mem_cons, List.mem_append, List.not_mem_nil, or_false] at hc
    rcases hc with rfl | hc | rfl
    · decide
    · exact hfields c hc
    · decide
  · rintro rfl
    cases hchars

theorem oneLine_done : OneLine DONE :=
  ⟨by decide, by decide, by decide, printable_of_all (by decide)⟩

theorem dataValue_data (htext : trimStart text = text) :
    dataValue ("data: " ++ text) = some text := by
  have hsplit : "data: " ++ text = "data:" ++ (" " ++ text) := by
    rw [← String.append_assoc]
    rfl
  have hbegins : trimStart ("data:" ++ (" " ++ text)) = "data:" ++ (" " ++ text) :=
    trimStart_append (by decide) (by decide) _
  have hstrip : stripPrefix ("data:" ++ (" " ++ text)) "data:" = some (" " ++ text) := by
    have hpre : "data:".toList.isPrefixOf ("data:" ++ (" " ++ text)).toList := by
      rw [String.toList_append, List.isPrefixOf_iff_prefix]
      exact List.prefix_append _ _
    rw [stripPrefix, if_pos hpre, String.toList_append, List.drop_left, String.ofList_toList]
  have hblank : trimStart (" " ++ text) = trimStart text := by
    rw [trimStart, String.toList_append]
    rfl
  rw [dataValue, hsplit, hbegins, hstrip, Option.map_some, hblank, htext]

-- An event is read as its payload, and the end of the stream is not read.
theorem payloads_event {names : List String} (hnames : "" ∉ names) (hsilent : eventData names = "")
    (htext : OneLine text) (rest : List String) :
    payloads (names ++ ["data: " ++ text, ""] ++ rest) =
      [text].filter (fun payload => payload ≠ DONE) ++ payloads rest := by
  have hcut : names ++ ["data: " ++ text, ""] ++ rest =
      (names ++ ["data: " ++ text]) ++ "" :: rest := by simp
  obtain ⟨hopen, hended⟩ := openData_block hnames
  have hraw := rawPayloads_data (dataValue_data htext.begins) htext.nonempty names
  rw [hopen, hended, hsilent, htext.ends] at hraw
  rw [hcut, payloads_cut, payloads, hraw]
  rfl

end Payload

namespace StreamCodec

variable {codec : StreamCodec} {event : Event}

theorem oneLine_payload (hhandles : codec.Handles event) : OneLine (codec.payload event) := by
  cases event with
  | data response => exact (oneLine_object hhandles.1).1
  | error envelope => exact (oneLine_object hhandles.1).1
  | done => exact oneLine_done

theorem isLine_eventLines (hhandles : codec.Handles event) :
    ∀ line ∈ codec.eventLines event, IsLine line := by
  intro line hline
  have hdata : IsLine ("data: " ++ codec.payload event) := by
    apply isLine_of_printable
    intro c hc
    rw [String.toList_append, List.mem_append] at hc
    rcases hc with hc | hc
    · exact printable_of_all (by decide) c hc
    · exact (oneLine_payload hhandles).printable c hc
  rw [eventLines, List.mem_append] at hline
  rcases hline with hname | hline
  · cases event with
    | data response => cases hname
    | error envelope =>
      obtain rfl := List.mem_singleton.mp hname
      exact isLine_of_printable (printable_of_all (by decide))
    | done => cases hname
  · simp only [List.mem_cons, List.not_mem_nil, or_false] at hline
    rcases hline with rfl | rfl
    · exact hdata
    · exact isLine_of_printable (printable_of_all (by decide))

-- What the decoder reads of an event.
def said (codec : StreamCodec) (event : Event) : List String :=
  [codec.payload event].filter fun payload => payload ≠ DONE

theorem said_object (hobject : IsObject (codec.payload event)) :
    codec.said event = [codec.payload event] := by
  have hdone := (oneLine_object hobject).2
  simp [said, hdone]

theorem names_silent (event : Event) : "" ∉ (eventName event).toList.map ("event: " ++ ·) ∧
    eventData ((eventName event).toList.map ("event: " ++ ·)) = "" := by
  have hnames : eventName event = none ∨ eventName event = some "error" := by
    cases event with
    | data response => exact .inl rfl
    | error envelope => exact .inr rfl
    | done => exact .inl rfl
  rcases hnames with hname | hname
  · rw [hname]
    decide
  · rw [hname]
    decide

theorem payloads_eventLines {events : List Event}
    (hhandles : ∀ event ∈ events, codec.Handles event) :
    payloads (events.flatMap codec.eventLines) = events.flatMap codec.said := by
  induction events with
  | nil => rfl
  | cons event events ih =>
    obtain ⟨hblank, hsilent⟩ := names_silent event
    have htext := oneLine_payload (hhandles event List.mem_cons_self)
    rw [List.flatMap_cons, List.flatMap_cons, eventLines, payloads_event hblank hsilent htext,
      ih fun other hother => hhandles other (List.mem_cons_of_mem _ hother), said]

theorem lines_body {events : List Event} (hhandles : ∀ event ∈ events, codec.Handles event) :
    lines (codec.body events) = events.flatMap codec.eventLines := by
  apply lines_terminated
  intro line hline
  obtain ⟨event, hevent, hline⟩ := List.mem_flatMap.mp hline
  exact isLine_eventLines (hhandles event hevent) line hline

theorem parseStreamEvent_read {text : String} (hone : OneLine text) (hdone : text ≠ DONE) :
    (∀ chunk, codec.fromStr text = .ok chunk → chunk.usage = none →
      parseStreamEvent codec.fromStr text = .ok (chunk.choices.filterMap (choiceChunk none))) ∧
    ∀ message, codec.fromStr text = .error message → parseStreamEvent codec.fromStr text =
      .error (.provider s!"invalid upstream stream payload: {message}") := by
  have htrim : trim text = text := by rw [trim_of_begins hone.begins, hone.ends]
  have hnot : ¬text = "[DONE]" := hdone
  constructor
  · intro chunk hread husage
    unfold parseStreamEvent
    simp only [htrim, if_neg hnot, hread, husage]
    split <;> first | rfl | contradiction
  · intro message hread
    unfold parseStreamEvent
    simp only [htrim, if_neg hnot, hread]

theorem choiceChunk_relayed (chunk : ChatStreamChunk) :
    [{ index := chunk.index, delta := { content := some chunk.delta }
       finishReason := chunk.finishReason }].filterMap (choiceChunk none) = relayed [chunk] := by
  by_cases hsaid : Substantial chunk
  · have hkeeps : ¬(chunk.delta = "" ∧ chunk.finishReason = none) := by
      rintro ⟨hdelta, hreason⟩
      rcases hsaid with hsaid | hsaid
      · exact hsaid hdelta
      · rw [hreason] at hsaid
        cases hsaid
    have hchoice : choiceChunk none { index := chunk.index, delta := { content := some chunk.delta }
                                      finishReason := chunk.finishReason } =
        some { chunk with usage := none } := by
      simp [choiceChunk, hkeeps]
    simp [relayed, hsaid, hchoice]
  · have hskips : chunk.delta = "" ∧ chunk.finishReason = none := by
      simpa [Substantial] using hsaid
    have hchoice : choiceChunk none { index := chunk.index, delta := { content := some chunk.delta }
                                      finishReason := chunk.finishReason } = none := by
      simp [choiceChunk, hskips.1, hskips.2]
    simp [relayed, hsaid, hchoice]

variable {completionId model : String} {created : Int64}

def chunkEvents (completionId model : String) (created : Int64) (chunks : List ChatStreamChunk) :
    List Event :=
  chunks.map fun chunk => .data (mapToChatCompletionStreamResponse completionId model created chunk)

-- A chunk of the upstream comes back as it was, unless it says nothing.
theorem readEvents_chunks {chunks : List ChatStreamChunk}
    (hhandles : ∀ event ∈ chunkEvents completionId model created chunks, codec.Handles event)
    (rest : List String) :
    readEvents codec.fromStr
        ((chunkEvents completionId model created chunks).flatMap codec.said ++ rest) =
      (relayed chunks ++ (readEvents codec.fromStr rest).1, (readEvents codec.fromStr rest).2) := by
  induction chunks with
  | nil => rfl
  | cons chunk chunks ih =>
    obtain ⟨hobject, hread⟩ := hhandles _ List.mem_cons_self
    obtain ⟨hone, hdone⟩ := oneLine_object hobject
    have hchunk := (parseStreamEvent_read hone hdone).1 _ hread rfl
    have hrest := ih fun event hevent => hhandles event (List.mem_cons_of_mem _ hevent)
    have hsaid : codec.said
        (.data (mapToChatCompletionStreamResponse completionId model created chunk)) =
          [codec.encode (mapToChatCompletionStreamResponse completionId model created chunk)] :=
      said_object hobject
    have hsplit : relayed (chunk :: chunks) = relayed [chunk] ++ relayed chunks := by
      rw [relayed, relayed, relayed, ← List.map_append, ← List.filter_append]
      rfl
    have hchoices : (readBack
        (mapToChatCompletionStreamResponse completionId model created chunk)).choices.filterMap
          (choiceChunk none) = relayed [chunk] := choiceChunk_relayed chunk
    rw [hchoices] at hchunk
    rw [chunkEvents, List.map_cons, List.flatMap_cons, hsaid, List.append_assoc,
      List.singleton_append, readEvents_cons, hchunk]
    rw [chunkEvents] at hrest
    simp only [hrest, hsplit, List.append_assoc]

-- What is read of the last event: nothing of the end of the stream, an error of an error.
theorem readEvents_terminal {terminal : Event} (hhandles : codec.Handles terminal)
    (hterminal : ∀ response, terminal ≠ .data response) :
    readEvents codec.fromStr (codec.said terminal) = ([], none) ∧ terminal = .done ∨
      (∃ error, readEvents codec.fromStr (codec.said terminal) = ([], some error)) ∧
        terminal ≠ .done := by
  cases terminal with
  | data response => exact absurd rfl (hterminal response)
  | done =>
    have hsaid : codec.said .done = [] := rfl
    rw [hsaid]
    exact .inl ⟨rfl, rfl⟩
  | error envelope =>
    obtain ⟨hobject, message, hread⟩ := hhandles
    obtain ⟨hone, hdone⟩ := oneLine_object hobject
    have hsaid : codec.said (.error envelope) = [codec.encodeError envelope] := said_object hobject
    have herror := (parseStreamEvent_read hone hdone).2 message hread
    have hread : readEvents codec.fromStr [codec.encodeError envelope] =
        ([], some (.provider s!"invalid upstream stream payload: {message}")) := by
      rw [readEvents_cons, herror]
    exact .inr ⟨⟨_, hsaid ▸ hread⟩, fun habsurd => by cases habsurd⟩

-- What the decoder answers to the whole body of a stream.
theorem shippedItems_body {chunks : List ChatStreamChunk} {terminal : Event}
    (hhandles : ∀ event ∈ chunkEvents completionId model created chunks ++ [terminal],
      codec.Handles event)
    (hterminal : ∀ response, terminal ≠ .data response) :
    ∃ ending, shippedItems codec.fromStr
        (codec.body (chunkEvents completionId model created chunks ++ [terminal])) =
          (relayed chunks).map .ok ++ ending ∧
      (ending = [] ↔ terminal = .done ∧ relayed chunks ≠ []) ∧
      (ending ≠ [] → ∃ error, ending = [.error error]) := by
  have hchunks : ∀ event ∈ chunkEvents completionId model created chunks, codec.Handles event :=
    fun event hevent => hhandles event (List.mem_append_left _ hevent)
  have hlast : codec.Handles terminal :=
    hhandles terminal (List.mem_append_right _ (List.mem_singleton_self _))
  have hread := readEvents_chunks hchunks (codec.said terminal)
  rw [shippedItems, lines_body hhandles, payloads_eventLines hhandles, List.flatMap_append,
    List.flatMap_singleton, hread]
  rcases readEvents_terminal hlast hterminal with ⟨hnone, hdone⟩ | ⟨⟨error, hsome⟩, hdone⟩
  · rw [hnone]
    simp only [List.append_nil]
    by_cases hempty : relayed chunks = []
    · exact ⟨[.error emptyError], by simp [hempty], by simp [hempty], fun _ => ⟨_, rfl⟩⟩
    · refine ⟨[], ?_, by simp [hdone, hempty], fun habsurd => absurd rfl habsurd⟩
      obtain ⟨first, others, hsome⟩ := List.exists_cons_of_ne_nil hempty
      rw [hsome, List.append_nil]
  · rw [hsome]
    exact ⟨[.error error], by simp, by simp [hdone], fun _ => ⟨_, rfl⟩⟩

end StreamCodec

theorem settledEvent_ne_data (state : StreamBuildState) (upstream : Upstream)
    (outcome : Except AppError Unit) (response : ChatCompletionsStreamResponse) :
    StreamBuildState.settledEvent (state.lastEvent upstream) outcome ≠ .data response := by
  intro habsurd
  cases outcome with
  | error error => cases habsurd
  | ok =>
    rw [StreamBuildState.settledEvent, StreamBuildState.lastEvent] at habsurd
    split at habsurd <;> cases habsurd

-- However the bytes of the stream are cut, its own decoder yields the chunks that say something,
-- and an error exactly when the stream has not ended well or has said nothing.
theorem stream_survives_decoder (codec : StreamCodec) (completionId model : String)
    (requestMessages : List ChatMessage) (context : RequestContext)
    (billing : StreamBillingContext) (created : Int64) (upstream : Upstream) (polls : Nat)
    (transcript : List ServingExchange) (results : List (Option Event))
    (hcompletes : Completes (StreamBuildState.events polls
      (buildStreamEvents completionId model requestMessages context billing created)) transcript
      results)
    (hfeeds : Feeds upstream (upstreamAnswers transcript))
    (hpolls : (received upstream).length + 2 ≤ polls)
    (hhandles : ∀ event, some event ∈ results → codec.Handles event) :
    ∃ terminal ending,
      results.getLast? = some none ∧ (results.filterMap id).getLast? = some terminal ∧
      (∀ chunks : List (List UInt8),
        chunks.flatten = utf8 (codec.body (results.filterMap id)).toList →
          Yields codec.fromStr (streamSseChunks (bytesIn chunks .normal))
            ((relayed (received upstream)).map .ok ++ ending)) ∧
      (ending = [] ↔ terminal = .done ∧ relayed (received upstream) ≠ []) ∧
      (ending ≠ [] → ∃ error, ending = [.error error]) := by
  obtain ⟨latencyMs, outcome, hresults, -, -⟩ :=
    StreamBuildState.events_exchanges rfl hfeeds hcompletes
  rw [List.take_of_length_le (by simp; omega)] at hresults
  generalize hterminal : StreamBuildState.settledEvent _ outcome = terminal at hresults
  have hevents : results.filterMap id =
      StreamCodec.chunkEvents completionId model created (received upstream) ++ [terminal] := by
    rw [hresults, List.filterMap_append, List.filterMap_map]
    exact congrArg (· ++ [terminal]) (congrFun List.filterMap_eq_map (received upstream))
  have hhandles' : ∀ event ∈ StreamCodec.chunkEvents completionId model created
      (received upstream) ++ [terminal], codec.Handles event := by
    intro event hevent
    rw [← hevents, List.mem_filterMap] at hevent
    obtain ⟨answer, hanswer, rfl⟩ := hevent
    exact hhandles event hanswer
  have hnodata : ∀ response, terminal ≠ .data response := by
    rw [← hterminal]
    exact settledEvent_ne_data _ _ _
  obtain ⟨ending, hitems, hending, herror⟩ := StreamCodec.shippedItems_body hhandles' hnodata
  refine ⟨terminal, ending, by simp [hresults], by rw [hevents]; simp, ?_, hending, herror⟩
  intro chunks hchunks
  rw [hevents] at hchunks
  rw [← hitems]
  exact yields_shippedItems hchunks

def newlineChunk : ChatStreamChunk :=
  { index := 1, delta := "a\nb", finishReason := some "stop", usage := none }

-- What stands between the braces of a chunk that `helloStream` sends on, by its choice.
def helloFields (choice : String) : String :=
  "\"id\":\"chatcmpl-1\",\"object\":\"chat.completion.chunk\",\"created\":0,\"model\":\"chat\"," ++
    "\"choices\":[\x7b" ++ choice ++ "\x7d]"

def newlineChoice : String :=
  "\"index\":1,\"delta\":\x7b\"role\":\"assistant\",\"content\":\"a\\nb\"\x7d," ++
    "\"finish_reason\":\"stop\""

def helloChoice : String :=
  "\"index\":0,\"delta\":\x7b\"role\":\"assistant\",\"content\":\"hello\"\x7d," ++
    "\"finish_reason\":null"

def helloResponse (chunk : ChatStreamChunk) : ChatCompletionsStreamResponse :=
  mapToChatCompletionStreamResponse "chatcmpl-1" "chat" 0 chunk

def helloCodec : StreamCodec where
  encode response :=
    "\x7b" ++ helloFields (if response = helloResponse newlineChunk then newlineChoice
      else helloChoice) ++ "\x7d"
  encodeError envelope :=
    "\x7b\"code\":\"" ++ envelope.code ++ "\",\"message\":\"" ++ envelope.message ++ "\"\x7d"
  fromStr text :=
    if text = "\x7b" ++ helloFields newlineChoice ++ "\x7d" then
      .ok (StreamCodec.readBack (helloResponse newlineChunk))
    else if text = "\x7b" ++ helloFields helloChoice ++ "\x7d" then
      .ok (StreamCodec.readBack (helloResponse helloChunk))
    else .error "missing field choices"

-- Two chunks, the second with a newline in its text.
theorem newline_survives_decoder :
    ∃ transcript results,
      Completes (StreamBuildState.events 4 helloStream) transcript results ∧
      ∀ chunks : List (List UInt8),
        chunks.flatten = utf8 (helloCodec.body (results.filterMap id)).toList →
          Yields helloCodec.fromStr (streamSseChunks (bytesIn chunks .normal))
            [.ok helloChunk, .ok newlineChunk] := by
  have hcompletes := completes_converse (answerWith (.ok ()))
    (StreamBuildState.events 4 helloStream)
    [.ok helloChunk, .ok newlineChunk]
  have hfeeds := (feeds_converse (.ok ()) (StreamBuildState.events 4 helloStream)
    [.ok helloChunk, .ok newlineChunk]).1
  have hresults : (converse (answerWith (.ok ())) (StreamBuildState.events 4 helloStream)
      [.ok helloChunk, .ok newlineChunk]).2.1 = [some (.data (helloResponse helloChunk)),
        some (.data (helloResponse newlineChunk)), some .done, none] := by decide +kernel
  have hhandles : ∀ event, some event ∈ (converse (answerWith (.ok ()))
      (StreamBuildState.events 4 helloStream) [.ok helloChunk, .ok newlineChunk]).2.1 →
        helloCodec.Handles event := by
    intro event hevent
    rw [hresults] at hevent
    simp only [List.mem_cons, Option.some.injEq, List.not_mem_nil, or_false, reduceCtorEq] at hevent
    rcases hevent with rfl | rfl | rfl
    · exact ⟨⟨helloFields helloChoice, by decide +kernel, printable_of_all (by decide +kernel)⟩,
        by decide +kernel⟩
    · exact ⟨⟨helloFields newlineChoice, by decide +kernel, printable_of_all (by decide +kernel)⟩,
        by decide +kernel⟩
    · trivial
  obtain ⟨terminal, ending, -, hterminal, hyields, hending, -⟩ := stream_survives_decoder helloCodec
    _ _ _ _ _ _ [.ok helloChunk, .ok newlineChunk] 4 _ _ hcompletes hfeeds (by decide) hhandles
  refine ⟨_, _, hcompletes, ?_⟩
  rw [hresults] at hterminal
  have hnil : ending = [] := hending.mpr ⟨(Option.some.inj hterminal).symm, by decide +kernel⟩
  intro chunks hchunks
  have hitems := hyields chunks hchunks
  rwa [hnil] at hitems

end Mizan.Gateway
