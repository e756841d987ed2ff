import Mizan.Providers.Agreement
import Mizan.Providers.Source

namespace Mizan.Providers

open Delimited

-- The parser of the tests says of the text what the stream answers, however the bytes are cut.
def Agree (fromStr : FromStr) (body : String) : Prop :=
  ∀ chunks : List (List UInt8), chunks.flatten = utf8 body.toList →
    match parseStreamEvents fromStr body with
    | .ok expected => Yields fromStr (streamSseChunks (bytesIn chunks .normal)) (expected.map .ok)
    | .error _ => ∃ (produced : List ChatStreamChunk) (error : AppError),
        Yields fromStr (streamSseChunks (bytesIn chunks .normal))
          (produced.map .ok ++ [.error error])

-- The chunks of the events up to the first that is not read, and its error.
def readEvents (fromStr : FromStr) (events : List String) :
    List ChatStreamChunk × Option AppError :=
  ((upToFailure (parseStreamEvent fromStr) events).1.flatten,
    (upToFailure (parseStreamEvent fromStr) events).2)

section Events

variable {fromStr : FromStr}

theorem readEvents_cons (fromStr : FromStr) (event : String) (events : List String) :
    readEvents fromStr (event :: events) =
      match parseStreamEvent fromStr event with
      | .error error => ([], some error)
      | .ok chunks =>
          (chunks ++ (readEvents fromStr events).1, (readEvents fromStr events).2) := by
  cases hevent : parseStreamEvent fromStr event with
  | error error => simp [readEvents, upToFailure_cons_error hevent]
  | ok chunks => simp [readEvents, upToFailure_cons_ok hevent]

theorem parseStreamEvent_trim (fromStr : FromStr) (event : String) :
    parseStreamEvent fromStr (trim event) = parseStreamEvent fromStr event := by
  simp only [parseStreamEvent, trim_trim]

-- An event is read by its payload, and the end of the stream says nothing.
theorem readEvents_payloads (fromStr : FromStr) (texts : List String) :
    readEvents fromStr (countedEvents texts true) = readEvents fromStr (payloads texts) := by
  rw [payloads, rawPayloads]
  generalize countedEvents texts true = events
  induction events with
  | nil => rfl
  | cons event events ih =>
    rw [readEvents_cons, List.map_cons, List.filter_cons]
    by_cases hdone : trim event = DONE
    · have hparse : parseStreamEvent fromStr event = .ok [] := by
        simp only [parseStreamEvent, hdone]
        rfl
      simp [hdone, hparse, ih]
    · simp only [ne_eq, hdone, not_false_eq_true, decide_true, if_true]
      rw [readEvents_cons, parseStreamEvent_trim, ih]

theorem mapM_parseStreamEvent (events : List String) :
    (events.mapM (parseStreamEvent fromStr)).map List.flatten =
      match (readEvents fromStr events).2 with
      | some error => .error error
      | none => .ok (readEvents fromStr events).1 := by
  induction events with
  | nil => rfl
  | cons event events ih =>
    rw [List.mapM_cons, readEvents_cons]
    cases hevent : parseStreamEvent fromStr event with
    | error error => rfl
    | ok chunks =>
      cases hrest : events.mapM (parseStreamEvent fromStr) with
      | error error =>
        rw [hrest] at ih
        cases hread : (readEvents fromStr events).2 with
        | none =>
          rw [hread] at ih
          cases ih
        | some other =>
          rw [hread] at ih
          simpa [Except.map, Bind.bind, Except.bind, hread] using ih
      | ok parsed =>
        rw [hrest] at ih
        cases hread : (readEvents fromStr events).2 with
        | some other =>
          rw [hread] at ih
          cases ih
        | none =>
          rw [hread] at ih
          simp only [Except.map, Except.ok.injEq] at ih
          simp [Except.map, Bind.bind, Except.bind, pure, Except.pure, ih]

theorem parseStreamEvents_payloads (fromStr : FromStr) (body : String) :
    parseStreamEvents fromStr body =
      match readEvents fromStr (payloads ((lines body).map trimEnd)) with
      | (_, some error) => .error error
      | (chunks, none) => if chunks.isEmpty then .error emptyError else .ok chunks := by
  rw [parseStreamEvents_eq, ← readEvents_payloads]
  have hmap := @mapM_parseStreamEvent fromStr (countedEvents ((lines body).map trimEnd) true)
  rcases hread : readEvents fromStr (countedEvents ((lines body).map trimEnd) true) with
    ⟨chunks, failure⟩
  rw [hread] at hmap
  cases hevents : (countedEvents ((lines body).map trimEnd) true).mapM
      (parseStreamEvent fromStr) with
  | error error =>
    rw [hevents] at hmap
    cases failure with
    | none => cases hmap
    | some other => exact hmap
  | ok parsed =>
    rw [hevents] at hmap
    cases failure with
    | some other => cases hmap
    | none =>
      obtain rfl := Except.ok.inj hmap
      rfl

-- What the stream answers to the bytes of a text.
def shippedItems (fromStr : FromStr) (body : String) : List (AppResult ChatStreamChunk) :=
  match readEvents fromStr (payloads (lines body)) with
  | (chunks, some error) => chunks.map .ok ++ [.error error]
  | ([], none) => [.error emptyError]
  | (chunks, none) => chunks.map .ok

theorem yields_shippedItems {chunks : List (List UInt8)} {body : String}
    (hchunks : chunks.flatten = utf8 body.toList) :
    Yields fromStr (streamSseChunks (bytesIn chunks .normal)) (shippedItems fromStr body) := by
  have hyields := expects_yields (.inr (running_new fromStr chunks .normal))
  have hitems : (streamMeaning fromStr chunks.flatten .normal).items =
      shippedItems fromStr body := by
    rw [hchunks, streamMeaning, decoded_lines, shippedItems, ← readEvents_payloads]
    simp only [eventsMeaning, readEvents, Meaning.items, Option.isNone_none, beq_self_eq_true,
      Bool.and_self, Option.or_none, Bool.false_or]
    generalize upToFailure (parseStreamEvent fromStr) (countedEvents (lines body) true) = read
    obtain ⟨parsed, failure⟩ := read
    simp only
    generalize parsed.flatten = flat
    cases failure with
    | some error => rfl
    | none =>
      cases flat with
      | nil => rfl
      | cons chunk rest =>
        simp [endingError]
  rwa [hitems] at hyields

theorem agree_of_payloads {body : String}
    (hsame : payloads ((lines body).map trimEnd) = payloads (lines body)) :
    Agree fromStr body := by
  intro chunks hchunks
  have hyields := @yields_shippedItems fromStr chunks body hchunks
  rw [shippedItems, ← hsame] at hyields
  rw [parseStreamEvents_payloads]
  rcases hread : readEvents fromStr (payloads ((lines body).map trimEnd)) with ⟨read, failure⟩
  rw [hread] at hyields
  cases failure with
  | some error => exact ⟨read, error, hyields⟩
  | none =>
    cases read with
    | nil => exact ⟨[], emptyError, hyields⟩
    | cons chunk rest => exact hyields

end Events

section Echo

-- A reader that makes a chunk of the payload itself.
def echoChoice (payload : String) : OpenAiChunkChoice where
  index := 0
  delta := { content := some payload }
  finishReason := none

def echo : FromStr := fun payload => .ok { choices := [echoChoice payload], usage := none }

def echoed (payload : String) : ChatStreamChunk where
  index := 0
  delta := payload
  finishReason := none
  usage := none

theorem payload_of_mem {texts : List String} {payload : String} (hmem : payload ∈ payloads texts) :
    trim payload = payload ∧ payload ≠ "" ∧ payload ≠ DONE := by
  obtain ⟨hraw, hdone⟩ := List.mem_filter.mp hmem
  obtain ⟨data, hdata, rfl⟩ := List.mem_map.mp hraw
  have hblank : (!(trim data).isEmpty) = true := (List.mem_filter.mp hdata).2
  refine ⟨trim_trim data, ?_, by simpa using hdone⟩
  intro hempty
  rw [hempty] at hblank
  cases hblank

theorem readEvents_echo {events : List String}
    (hevents : ∀ event ∈ events, trim event = event ∧ event ≠ "" ∧ event ≠ DONE) :
    readEvents echo events = (events.map echoed, none) := by
  induction events with
  | nil => rfl
  | cons event events ih =>
    obtain ⟨htrim, hne, hdone⟩ := hevents event List.mem_cons_self
    have hchoice : choiceChunk none (echoChoice event) = some (echoed event) := by
      simp [choiceChunk, echoChoice, hne, echoed]
    have hparse : parseStreamEvent echo event = .ok [echoed event] := by
      have hdone' : event ≠ "[DONE]" := hdone
      simp [parseStreamEvent, htrim, hdone', echo, hchoice]
    rw [readEvents_cons, hparse,
      ih fun other hother => hevents other (List.mem_cons_of_mem _ hother)]
    rfl

theorem payloads_of_agree {body : String} (hagree : Agree echo body) :
    payloads ((lines body).map trimEnd) = payloads (lines body) := by
  have hinjective : Function.Injective fun payload =>
      (Except.ok (echoed payload) : AppResult ChatStreamChunk) := by
    intro payload payload' heq
    exact congrArg ChatStreamChunk.delta (Except.ok.inj heq)
  have hagree := hagree [utf8 body.toList] (by simp)
  have hyields := @yields_shippedItems echo [utf8 body.toList] body (by simp)
  rw [parseStreamEvents_payloads, readEvents_echo fun _ => payload_of_mem] at hagree
  rw [shippedItems, readEvents_echo fun _ => payload_of_mem] at hyields
  generalize payloads ((lines body).map trimEnd) = tested at hagree ⊢
  generalize payloads (lines body) = shipped at hyields ⊢
  cases tested with
  | nil =>
    cases shipped with
    | nil => rfl
    | cons payload shipped =>
      exfalso
      obtain ⟨produced, error, herror⟩ := hagree
      have hitems : produced.map Except.ok ++ [.error error] =
          ((payload :: shipped).map echoed).map Except.ok := herror.unique hyields
      have hmem : (.error error : AppResult ChatStreamChunk) ∈
          ((payload :: shipped).map echoed).map Except.ok := by
        rw [← hitems]
        simp
      obtain ⟨chunk, -, habsurd⟩ := List.mem_map.mp hmem
      cases habsurd
  | cons payload tested =>
    have hexpected : Yields echo (streamSseChunks (bytesIn [utf8 body.toList] .normal))
        (((payload :: tested).map echoed).map .ok) := hagree
    cases shipped with
    | nil =>
      have hitems := hexpected.unique hyields
      simp at hitems
    | cons payload' shipped =>
      have hitems : ((payload :: tested).map echoed).map Except.ok =
          ((payload' :: shipped).map echoed).map Except.ok := hexpected.unique hyields
      rw [List.map_map, List.map_map] at hitems
      exact List.map_injective_iff.mpr hinjective hitems

end Echo

-- Whatever the reader of the payloads, the two parsers say the same of a text exactly when no line
-- that is blank but not empty, or has blanks behind its data, stands in the midst of an event.
theorem tested_parser_is_shipped_iff (body : String) :
    (∀ fromStr, Agree fromStr body) ↔ ∀ block ∈ blocks (lines body), Tight block := by
  rw [← payloads_eq_iff]
  exact ⟨fun hagree => payloads_of_agree (hagree echo), fun hsame _ => agree_of_payloads hsame⟩

-- Two events with a line of one blank between them.
def driftBody : String := "data: " ++ hiPayload ++ "\n \ndata: " ++ hiPayload ++ "\n\n"

def driftFromStr : FromStr := fun text =>
  if text = hiPayload then
    .ok { choices := [{ index := 0, delta := { content := some "hi" }, finishReason := none }]
          usage := none }
  else .error "trailing characters at line 2 column 1"

theorem blank_line_splits_only_in_tests :
    parseStreamEvents driftFromStr driftBody = .ok [echoed "hi", echoed "hi"] ∧
      Yields driftFromStr (streamSseChunks (bytesIn [utf8 driftBody.toList] .normal))
        [.error (.provider
          "invalid upstream stream payload: trailing characters at line 2 column 1")] := by
  refine ⟨by decide +kernel, ?_⟩
  have hitems : shippedItems driftFromStr driftBody = [.error (.provider
      "invalid upstream stream payload: trailing characters at line 2 column 1")] := by
    decide +kernel
  rw [← hitems]
  exact yields_shippedItems (by simp)

end Mizan.Providers
