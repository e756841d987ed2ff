import Mizan.Gateway.Events
import Mizan.Providers.DataEvents

namespace Mizan.Gateway

open Interleaving.Prog Billing Providers

def emittedChoices : Option Event → List ChatCompletionsStreamChoice
  | some (.data response) => response.choices
  | _ => []

-- The text that the client has been sent under one index.
def emittedAt (index : UInt64) (results : List (Option Event)) : String :=
  String.join (((results.flatMap emittedChoices).filter fun choice =>
    choice.index = index).map fun choice => choice.delta.content)

theorem emittedAt_chunks (completionId model : String) (created : Int64) (index : UInt64)
    (chunks : List ChatStreamChunk) {terminal : Event} (hterminal : emittedChoices terminal = []) :
    emittedAt index (chunks.map (fun chunk => some
      (.data (mapToChatCompletionStreamResponse completionId model created chunk))) ++
        [some terminal, none]) = deltaAt index chunks := by
  have hnone : emittedChoices none = [] := rfl
  rw [emittedAt, List.flatMap_append, List.flatMap_cons, List.flatMap_cons, hterminal, hnone]
  induction chunks with
  | nil => rfl
  | cons chunk chunks ih =>
      by_cases hindex : chunk.index = index
      · simp [emittedChoices, mapToChatCompletionStreamResponse, deltaAt, hindex] at ih ⊢
        rw [ih]
      · simp [emittedChoices, mapToChatCompletionStreamResponse, deltaAt, hindex] at ih ⊢
        rw [ih]

theorem exists_usage_of_reported {events : List OpenAiChatCompletionChunk}
    (h : ∃ event ∈ events, event.usage.isSome) : ∃ usage, reportedUsage events = some usage := by
  obtain ⟨event, hmem, husage⟩ := h
  obtain ⟨usage, husage⟩ := Option.isSome_iff_exists.mp husage
  have hne : events.filterMap OpenAiChatCompletionChunk.usage ≠ [] :=
    List.ne_nil_of_mem (List.mem_filterMap.mpr ⟨event, hmem, husage⟩)
  exact ⟨_, List.getLast?_eq_some_getLast hne⟩

-- However the bytes are cut, a stream that ends without an error is billed with the usage of the
-- last data event that carries one, and its texts are those of its data events.
theorem reported_usage_billed (fromStr : FromStr) (chunks : List (List UInt8)) (ending : Ending)
    (completionId model : String) (requestMessages : List ChatMessage) (context : RequestContext)
    (billing : StreamBillingContext) (created : Int64) :
    (∃ items, Yields fromStr (streamSseChunks (bytesIn chunks ending)) items) ∧
    ∀ items, Yields fromStr (streamSseChunks (bytesIn chunks ending)) items →
      (∀ error, .error error ∉ items) →
      ∀ polls transcript results,
        Completes (StreamBuildState.events polls
          (buildStreamEvents completionId model requestMessages context billing created)) transcript
          results →
        Feeds items (upstreamAnswers transcript) → items.length + 2 ≤ polls →
        (∃ input outcome, bills transcript = [(input, outcome)] ∧
          ((∃ event ∈ dataEvents fromStr chunks.flatten, event.usage.isSome) →
            ∃ usage, reportedUsage (dataEvents fromStr chunks.flatten) = some usage ∧
              input.usage.promptTokens = usage.promptTokens ∧
              input.usage.completionTokens = usage.completionTokens ∧
              input.usage.totalTokens = usage.totalTokens ∧
              input.usage.estimated = usage.estimated)) ∧
        ∀ index, emittedAt index results =
          contentAt index (dataEvents fromStr chunks.flatten) := by
  refine ⟨⟨_, (stream_chunking_independent fromStr chunks ending _).mpr rfl⟩, ?_⟩
  intro items hyields hok polls transcript results hcompletes hfeeds hpolls
  obtain ⟨produced, rfl, husage, hcontent⟩ := stream_reported hyields hok
  obtain ⟨latencyMs, outcome, hresults, _, hbills⟩ :=
    StreamBuildState.events_exchanges rfl hfeeds hcompletes
  rw [received_map_ok] at hbills hresults
  rw [List.length_map] at hpolls
  rw [if_pos (by omega)] at hbills
  rw [List.take_of_length_le (by simp; omega)] at hresults
  refine ⟨⟨_, outcome, hbills, fun hreported => ?_⟩, fun index => ?_⟩
  · obtain ⟨usage, hlast⟩ := exists_usage_of_reported hreported
    have hlatest : (StreamBuildState.afterChunks (buildStreamEvents completionId model
        requestMessages context billing created) produced).latestUsage =
          some (normalizeUsage usage) := by
      rw [hlast] at husage
      exact husage
    have hbilled (status : UInt16) : (StreamBuildState.billingInput
        (StreamBuildState.afterChunks (buildStreamEvents completionId model requestMessages
          context billing created) produced) status latencyMs).usage = normalizeUsage usage := by
      simp only [StreamBuildState.billingInput, StreamBuildState.usage, hlatest, Option.getD_some]
    refine ⟨usage, hlast, ?_⟩
    rw [hbilled]
    exact ⟨rfl, rfl, rfl, rfl⟩
  · rw [hresults, ← hcontent]
    apply emittedAt_chunks
    cases outcome with
    | error error => rfl
    | ok =>
        rw [StreamBuildState.settledEvent, StreamBuildState.lastEvent, failure_map_ok]
        rfl

end Mizan.Gateway
