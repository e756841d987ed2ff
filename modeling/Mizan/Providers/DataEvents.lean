import Mizan.Providers.Chunking

namespace Mizan.Providers

open Delimited

variable {fromStr : FromStr}

-- What one data event carries.
def decodeEvent (fromStr : FromStr) (data : String) : Option OpenAiChatCompletionChunk :=
  if trim data = "[DONE]" then none else (fromStr (trim data)).toOption

-- The data events of a stream of bytes that ends normally.
def dataEvents (fromStr : FromStr) (bytes : List UInt8) : List OpenAiChatCompletionChunk :=
  let texts := (countedLines bytes .normal).filterMap fun line => (decodeLine line).toOption
  (countedEvents texts true).filterMap (decodeEvent fromStr)

-- The usage of the last event that carries one.
def reportedUsage (events : List OpenAiChatCompletionChunk) : Option OpenAiTokenUsage :=
  (events.filterMap OpenAiChatCompletionChunk.usage).getLast?

def contentAt (index : UInt64) (events : List OpenAiChatCompletionChunk) : String :=
  String.join (((events.flatMap OpenAiChatCompletionChunk.choices).filter fun choice =>
    choice.index = index).map fun choice => choice.delta.content.getD "")

def deltaAt (index : UInt64) (chunks : List ChatStreamChunk) : String :=
  String.join ((chunks.filter fun chunk => chunk.index = index).map ChatStreamChunk.delta)

-- The usage that is left when a later one replaces an earlier one.
def latestUsage (latest : Option TokenUsage) (chunks : List ChatStreamChunk) : Option TokenUsage :=
  chunks.foldl (fun latest chunk => chunk.usage.or latest) latest

section Event

theorem deltaAt_append (index : UInt64) (chunks chunks' : List ChatStreamChunk) :
    deltaAt index (chunks ++ chunks') = deltaAt index chunks ++ deltaAt index chunks' := by
  rw [deltaAt, List.filter_append, List.map_append, String.join_append, deltaAt, deltaAt]

theorem contentAt_append (index : UInt64) (events events' : List OpenAiChatCompletionChunk) :
    contentAt index (events ++ events') = contentAt index events ++ contentAt index events' := by
  rw [contentAt, List.flatMap_append, List.filter_append, List.map_append, String.join_append,
    contentAt, contentAt]

theorem latestUsage_append (latest : Option TokenUsage) (chunks chunks' : List ChatStreamChunk) :
    latestUsage latest (chunks ++ chunks') = latestUsage (latestUsage latest chunks) chunks' :=
  List.foldl_append

-- Chunks that carry one usage between them.
theorem latestUsage_of_usage {latest usage : Option TokenUsage} {chunks : List ChatStreamChunk}
    (h : ∀ chunk ∈ chunks, chunk.usage = usage) (hnonempty : usage.isSome → chunks ≠ []) :
    latestUsage latest chunks = usage.or latest := by
  cases usage with
  | none =>
      induction chunks with
      | nil => rfl
      | cons chunk chunks ih =>
          rw [latestUsage, List.foldl_cons, h chunk List.mem_cons_self]
          exact ih (fun other hmem => h other (List.mem_cons_of_mem chunk hmem)) (by simp)
  | some usage =>
      induction chunks using List.reverseRecOn with
      | nil => exact absurd rfl (hnonempty rfl)
      | append_singleton chunks chunk _ =>
          rw [latestUsage_append]
          simp [latestUsage, h chunk (by simp)]

-- A choice that is left out has nothing to say.
theorem deltaAt_choices (usage : Option OpenAiTokenUsage) (index : UInt64)
    (choices : List OpenAiChunkChoice) :
    deltaAt index (choices.filterMap (choiceChunk usage)) =
      String.join ((choices.filter fun choice => choice.index = index).map fun choice =>
        choice.delta.content.getD "") := by
  induction choices with
  | nil => rfl
  | cons choice choices ih =>
      have hcons : ∀ chunk chunks, deltaAt index (chunk :: chunks) =
          (if chunk.index = index then chunk.delta else "") ++ deltaAt index chunks := by
        intro chunk chunks
        by_cases hindex : chunk.index = index
        · simp [deltaAt, hindex]
        · simp [deltaAt, hindex]
      have hsilent : choiceChunk usage choice = none →
          choice.delta.content.getD "" = "" := by
        intro hnone
        rw [choiceChunk] at hnone
        split at hnone
        · rename_i hblank
          simpa using hblank.1
        · cases hnone
      have hspoken : ∀ chunk, choiceChunk usage choice = some chunk →
          chunk.index = choice.index ∧ chunk.delta = choice.delta.content.getD "" := by
        intro chunk hsome
        rw [choiceChunk] at hsome
        split at hsome
        · cases hsome
        · cases hsome
          exact ⟨rfl, rfl⟩
      cases hchoice : choiceChunk usage choice with
      | none =>
          rw [List.filterMap_cons_none hchoice, ih]
          by_cases hindex : choice.index = index
          · simp [hindex, hsilent hchoice]
          · simp [hindex]
      | some chunk =>
          obtain ⟨hsame, hdelta⟩ := hspoken chunk hchoice
          rw [List.filterMap_cons_some hchoice, hcons, ih, hsame, hdelta]
          by_cases hindex : choice.index = index
          · simp [hindex]
          · simp [hindex]

theorem usage_choices {usage : Option OpenAiTokenUsage} {choices : List OpenAiChunkChoice}
    {chunk : ChatStreamChunk} (h : chunk ∈ choices.filterMap (choiceChunk usage)) :
    chunk.usage = usage.map normalizeUsage := by
  obtain ⟨choice, _, hchoice⟩ := List.mem_filterMap.mp h
  rw [choiceChunk] at hchoice
  split at hchoice
  · cases hchoice
  · cases hchoice
    rfl

theorem parseStreamEvent_reported {data : String} {chunks : List ChatStreamChunk}
    (h : parseStreamEvent fromStr data = .ok chunks) (latest : Option TokenUsage) :
    latestUsage latest chunks =
        (((decodeEvent fromStr data).bind OpenAiChatCompletionChunk.usage).map normalizeUsage).or
          latest ∧
      ∀ index, deltaAt index chunks = contentAt index (decodeEvent fromStr data).toList := by
  simp only [parseStreamEvent] at h
  by_cases hdone : trim data = "[DONE]"
  · simp only [hdone, if_true, Except.ok.injEq] at h
    subst h
    simp [decodeEvent, hdone, latestUsage, deltaAt, contentAt]
  · simp only [hdone, if_false] at h
    cases hparsed : fromStr (trim data) with
    | error error => simp [hparsed] at h
    | ok event =>
        simp only [hparsed] at h
        have hdecoded : decodeEvent fromStr data = some event := by
          simp [decodeEvent, hdone, hparsed, Except.toOption]
        have hcontent : ∀ index, deltaAt index (event.choices.filterMap (choiceChunk event.usage)) =
            contentAt index [event] := fun index => by
          simpa [contentAt] using deltaAt_choices event.usage index event.choices
        rw [hdecoded]
        split at h
        · rename_i usage hnone hsome
          cases h
          refine ⟨by simp [latestUsage, hsome], fun index => ?_⟩
          rw [Option.toList_some, ← hcontent, hnone]
          by_cases hindex : index = 0
          · simp [deltaAt, hindex]
          · simp [deltaAt, Ne.symm hindex]
        · rename_i hsome
          cases h
          refine ⟨?_, fun index => hcontent index⟩
          apply latestUsage_of_usage (fun chunk hmem => usage_choices hmem)
          intro husage hnone
          obtain ⟨usage, husage⟩ := Option.isSome_iff_exists.mp husage
          obtain ⟨raw, hraw, _⟩ := Option.map_eq_some_iff.mp husage
          exact hsome raw hnone hraw

theorem reportedUsage_append (event : Option OpenAiChatCompletionChunk)
    (events : List OpenAiChatCompletionChunk) :
    reportedUsage (event.toList ++ events) =
      (reportedUsage events).or (event.bind OpenAiChatCompletionChunk.usage) := by
  rw [reportedUsage, List.filterMap_append, List.getLast?_append]
  cases event with
  | none => rfl
  | some event =>
      rw [reportedUsage, Option.toList_some]
      cases husage : event.usage with
      | none => simp [husage]
      | some usage => simp [husage]

end Event

-- The events of a stream in which none fails.
theorem parsed_reported {texts : List String}
    (h : (upToFailure (parseStreamEvent fromStr) texts).2 = none) (latest : Option TokenUsage) :
    latestUsage latest (upToFailure (parseStreamEvent fromStr) texts).1.flatten =
        ((reportedUsage (texts.filterMap (decodeEvent fromStr))).map normalizeUsage).or latest ∧
      ∀ index, deltaAt index (upToFailure (parseStreamEvent fromStr) texts).1.flatten =
        contentAt index (texts.filterMap (decodeEvent fromStr)) := by
  induction texts generalizing latest with
  | nil => exact ⟨rfl, fun index => rfl⟩
  | cons data texts ih =>
      cases hparsed : parseStreamEvent fromStr data with
      | error error => simp [upToFailure_cons_error hparsed] at h
      | ok chunks =>
          rw [upToFailure_cons_ok hparsed] at h ⊢
          obtain ⟨husage, hcontent⟩ := parseStreamEvent_reported hparsed latest
          obtain ⟨husages, hcontents⟩ := ih h (latestUsage latest chunks)
          have hcons : (data :: texts).filterMap (decodeEvent fromStr) =
              (decodeEvent fromStr data).toList ++ texts.filterMap (decodeEvent fromStr) := by
            cases hdecoded : decodeEvent fromStr data <;> simp [hdecoded]
          rw [List.flatten_cons, hcons]
          constructor
          · rw [latestUsage_append, husages, husage, reportedUsage_append]
            cases reportedUsage (texts.filterMap (decodeEvent fromStr)) <;> simp
          · intro index
            rw [deltaAt_append, hcontent, hcontents, contentAt_append]

theorem upToFailure_none {α β ε : Type} {f : α → Except ε β} {xs : List α}
    (h : (upToFailure f xs).2 = none) :
    (upToFailure f xs).1 = xs.filterMap fun x => (f x).toOption := by
  induction xs with
  | nil => rfl
  | cons x xs ih =>
      cases hx : f x with
      | error error => simp [upToFailure_cons_error hx] at h
      | ok y =>
          rw [upToFailure_cons_ok hx] at h ⊢
          rw [ih h]
          simp [hx, Except.toOption]

-- What a stream that ends without an error reports is what its data events report.
theorem stream_reported {chunks : List (List UInt8)} {ending : Ending}
    {items : List (AppResult ChatStreamChunk)}
    (hyields : Yields fromStr (streamSseChunks (bytesIn chunks ending)) items)
    (hok : ∀ error, .error error ∉ items) :
    ∃ produced, items = produced.map .ok ∧
      latestUsage none produced =
        (reportedUsage (dataEvents fromStr chunks.flatten)).map normalizeUsage ∧
      ∀ index, deltaAt index produced = contentAt index (dataEvents fromStr chunks.flatten) := by
  rw [stream_chunking_independent] at hyields
  generalize hmeaning : streamMeaning fromStr chunks.flatten ending = meaning at hyields
  have herror : meaning.error = none := by
    by_contra hsome
    obtain ⟨error, hsome⟩ := Option.ne_none_iff_exists'.mp hsome
    exact hok error (by simp [hyields, Meaning.items, hsome])
  refine ⟨meaning.chunks, by simp [hyields, Meaning.items, herror], ?_⟩
  simp only [streamMeaning, eventsMeaning] at hmeaning
  subst hmeaning
  simp only [Option.or_eq_none_iff] at herror
  obtain ⟨⟨hparsed, hlines⟩, hending⟩ := herror
  cases ending with
  | transport error => cases hending
  | normal =>
      have htexts := upToFailure_none hlines
      simp only [hlines, Option.isNone_none, beq_self_eq_true, Bool.and_self] at hparsed ⊢
      rw [htexts] at hparsed ⊢
      obtain ⟨husage, hcontent⟩ := parsed_reported hparsed none
      rw [Option.or_none] at husage
      exact ⟨husage, hcontent⟩

end Mizan.Providers
