import Mizan.Core.Text
import Mizan.Core.Utf8
import Mizan.Delimited.Blocks
import Mizan.Providers.Types

namespace Mizan.Providers

abbrev AppResult := Except AppError

structure OpenAiTokenUsage where
  promptTokens : UInt64
  completionTokens : UInt64
  totalTokens : UInt64
  estimated : Bool
  deriving DecidableEq, Repr

structure OpenAiStreamMessage where
  content : Option String
  deriving DecidableEq, Repr

structure OpenAiChunkChoice where
  index : UInt64
  delta : OpenAiStreamMessage
  finishReason : Option String
  deriving DecidableEq, Repr

structure OpenAiChatCompletionChunk where
  choices : List OpenAiChunkChoice
  usage : Option OpenAiTokenUsage
  deriving DecidableEq, Repr

def normalizeUsage (rawUsage : OpenAiTokenUsage) : TokenUsage where
  promptTokens := rawUsage.promptTokens
  completionTokens := rawUsage.completionTokens
  totalTokens := rawUsage.totalTokens
  estimated := rawUsage.estimated

-- `serde_json::from_str` of a chunk, with the text of its error.
abbrev FromStr := String → Except String OpenAiChatCompletionChunk

def choiceChunk (usage : Option OpenAiTokenUsage) (choice : OpenAiChunkChoice) :
    Option ChatStreamChunk :=
  let delta := choice.delta.content.getD ""
  if delta.isEmpty ∧ choice.finishReason.isNone then none
  else
    some {
      index := choice.index
      delta
      finishReason := choice.finishReason
      usage := usage.map normalizeUsage }

def parseStreamEvent (fromStr : FromStr) (rawEventData : String) :
    AppResult (List ChatStreamChunk) :=
  let payload := trim rawEventData
  if payload = "[DONE]" then .ok []
  else
    match fromStr payload with
    | .error error => .error (.provider s!"invalid upstream stream payload: {error}")
    | .ok chunk =>
        match chunk.choices.filterMap (choiceChunk chunk.usage), chunk.usage with
        | [], some usage =>
            .ok [{
              index := 0
              delta := ""
              finishReason := none
              usage := some (normalizeUsage usage) }]
        | chunks, _ => .ok chunks

-- What the byte stream still answers, in order; after its last item it goes on answering `None`.
abbrev ByteStream := List (Except String (List UInt8))

structure SseStreamState where
  byteStream : ByteStream
  lineBuffer : List UInt8
  eventData : String
  pending : List (AppResult ChatStreamChunk)
  emittedAny : Bool
  finished : Bool
  deriving DecidableEq, Repr

def SseStreamState.new (byteStream : ByteStream) : SseStreamState where
  byteStream := byteStream
  lineBuffer := []
  eventData := ""
  pending := []
  emittedAny := false
  finished := false

def flushPendingSseEvent (fromStr : FromStr) (state : SseStreamState) :
    AppResult Unit × SseStreamState :=
  if (trim state.eventData).isEmpty then (.ok (), { state with eventData := "" })
  else
    let taken := { state with eventData := "" }
    match parseStreamEvent fromStr state.eventData with
    | .error error => (.error error, taken)
    | .ok chunks => (.ok (), { taken with pending := state.pending ++ chunks.map .ok })

def decodeLine (rawLine : List UInt8) : AppResult String :=
  (fromUtf8 rawLine).mapError fun error =>
    .provider s!"invalid upstream stream line: {error.toString}"

def processSseLine (fromStr : FromStr) (state : SseStreamState) (rawLine : List UInt8) :
    AppResult Unit × SseStreamState :=
  match decodeLine rawLine with
  | .error error => (.error error, state)
  | .ok line =>
      if line.isEmpty then flushPendingSseEvent fromStr state
      else
        let trimmed := trimStart line
        if (stripPrefix trimmed ":").isSome then (.ok (), state)
        else
          match stripPrefix trimmed "data:" with
          | some value =>
              let eventData :=
                if state.eventData.isEmpty then state.eventData else state.eventData.push '\n'
              (.ok (), { state with eventData := eventData ++ trimStart value })
          | none => (.ok (), state)

def newline : UInt8 := 0x0A

def stripCarriageReturn (line : List UInt8) : List UInt8 :=
  if line.getLast? = some 0x0D then line.dropLast else line

-- The line up to the first '\n' and the bytes after it.
def takeLine (lineBuffer : List UInt8) : Option (List UInt8 × List UInt8) :=
  (lineBuffer.idxOf? newline).map fun position =>
    (stripCarriageReturn (lineBuffer.take position), lineBuffer.drop (position + 1))

-- One pass through the body of the loop: an item is returned, the loop goes round again, or the
-- stream is over.
inductive Turn where
  | item (next : AppResult ChatStreamChunk) (state : SseStreamState)
  | again (state : SseStreamState)
  | ended

def fail (error : AppError) (state : SseStreamState) : Turn :=
  .item (.error error) { state with finished := true }

def popPending (state : SseStreamState) : Option (AppResult ChatStreamChunk × SseStreamState) :=
  match state.pending with
  | [] => none
  | next :: pending =>
      some (next, { state with pending, emittedAny := state.emittedAny || next.isOk })

def readFailedError (error : String) : AppError :=
  .infrastructure s!"upstream chat completion stream read failed: {error}"

def emptyError : AppError := .provider "upstream stream response was empty"

-- The last event is flushed, and without an item the stream is over.
def finish (fromStr : FromStr) (state : SseStreamState) : Turn :=
  match flushPendingSseEvent fromStr state with
  | (.error error, state) => fail error state
  | (.ok (), state) =>
      match popPending state with
      | some (next, state) => .item next state
      | none => if state.emittedAny then .ended else fail emptyError state

-- The byte stream has answered `None`.
def endOfBytes (fromStr : FromStr) (state : SseStreamState) : Turn :=
  if state.lineBuffer.isEmpty then finish fromStr state
  else
    match processSseLine fromStr { state with lineBuffer := [] } state.lineBuffer with
    | (.error error, state) => fail error state
    | (.ok (), state) => finish fromStr state

def turn (fromStr : FromStr) (state : SseStreamState) : Turn :=
  match popPending state with
  | some (next, state) => .item next state
  | none =>
      match takeLine state.lineBuffer with
      | some (line, rest) =>
          match processSseLine fromStr { state with lineBuffer := rest } line with
          | (.error error, state) => fail error state
          | (.ok (), state) => .again state
      | none =>
          match state.byteStream with
          | .ok bytes :: byteStream =>
              .again { state with byteStream, lineBuffer := state.lineBuffer ++ bytes }
          | .error error :: byteStream =>
              fail (readFailedError error) { state with byteStream }
          | [] => endOfBytes fromStr state

-- A line takes nothing from the byte stream and puts nothing back into the buffer.
theorem flushPendingSseEvent_input (fromStr : FromStr) (state : SseStreamState) :
    (flushPendingSseEvent fromStr state).2.byteStream = state.byteStream ∧
      (flushPendingSseEvent fromStr state).2.lineBuffer = state.lineBuffer := by
  simp only [flushPendingSseEvent]
  by_cases hblank : (trim state.eventData).isEmpty
  · simp [hblank]
  · simp only [hblank, Bool.false_eq_true, if_false]
    split <;> simp

theorem processSseLine_input (fromStr : FromStr) (state : SseStreamState) (line : List UInt8) :
    (processSseLine fromStr state line).2.byteStream = state.byteStream ∧
      (processSseLine fromStr state line).2.lineBuffer = state.lineBuffer := by
  simp only [processSseLine]
  split
  · simp
  · split
    · exact flushPendingSseEvent_input fromStr state
    · split
      · simp
      · split <;> simp

theorem takeLine_length {lineBuffer line rest : List UInt8}
    (h : takeLine lineBuffer = some (line, rest)) : rest.length < lineBuffer.length := by
  obtain ⟨position, hposition, heq⟩ := Option.map_eq_some_iff.mp h
  obtain ⟨hsplit, -⟩ := Delimited.eq_append_of_idxOf?_eq_some hposition
  have hrest : lineBuffer.drop (position + 1) = rest := (Prod.mk.inj heq).2
  have hlength := congrArg List.length hsplit
  rw [hrest, List.length_append, List.length_cons] at hlength
  omega

theorem finish_ne_again (fromStr : FromStr) (state next : SseStreamState) :
    finish fromStr state ≠ .again next := by
  unfold finish
  split
  · simp [fail]
  · split
    · simp
    · split <;> simp [fail]

theorem endOfBytes_ne_again (fromStr : FromStr) (state next : SseStreamState) :
    endOfBytes fromStr state ≠ .again next := by
  unfold endOfBytes
  split
  · exact finish_ne_again fromStr state next
  · split
    · simp [fail]
    · exact finish_ne_again fromStr _ next

-- What a pass that goes round again has done: a line was taken out of the buffer, or a chunk of
-- bytes was put into it.
theorem turn_again {fromStr : FromStr} {state next : SseStreamState}
    (h : turn fromStr state = .again next) :
    popPending state = none ∧
      ((∃ line rest, takeLine state.lineBuffer = some (line, rest) ∧
          processSseLine fromStr { state with lineBuffer := rest } line = (.ok (), next)) ∨
        (takeLine state.lineBuffer = none ∧ ∃ bytes byteStream,
          state.byteStream = .ok bytes :: byteStream ∧
            next = { state with byteStream, lineBuffer := state.lineBuffer ++ bytes })) := by
  unfold turn at h
  cases hpop : popPending state with
  | some popped => simp [hpop] at h
  | none =>
      simp only [hpop] at h
      cases hline : takeLine state.lineBuffer with
      | some taken =>
          simp only [hline] at h
          rcases hresult : processSseLine fromStr { state with lineBuffer := taken.2 } taken.1 with
            ⟨error | _, after⟩
          · simp [hresult, fail] at h
          · simp only [hresult, Turn.again.injEq] at h
            subst h
            exact ⟨rfl, .inl ⟨taken.1, taken.2, rfl, hresult⟩⟩
      | none =>
          simp only [hline] at h
          rcases hbytes : state.byteStream with _ | ⟨error | bytes, byteStream⟩
          · simp only [hbytes] at h
            exact absurd h (endOfBytes_ne_again fromStr state next)
          · simp [hbytes, fail] at h
          · simp only [hbytes, Turn.again.injEq] at h
            exact ⟨rfl, .inr ⟨rfl, bytes, byteStream, rfl, h.symm⟩⟩

theorem turn_again_smaller {fromStr : FromStr} {state next : SseStreamState}
    (h : turn fromStr state = .again next) :
    Prod.Lex (· < ·) (· < ·) (next.byteStream.length, next.lineBuffer.length)
      (state.byteStream.length, state.lineBuffer.length) := by
  obtain ⟨-, ⟨line, rest, hline, hnext⟩ | ⟨-, bytes, byteStream, hbytes, rfl⟩⟩ := turn_again h
  · have hinput := processSseLine_input fromStr { state with lineBuffer := rest } line
    rw [hnext] at hinput
    have hlength := takeLine_length hline
    rw [hinput.1, hinput.2]
    exact Prod.Lex.right _ hlength
  · apply Prod.Lex.left
    simp [hbytes]

def loop (fromStr : FromStr) (state : SseStreamState) :
    Option (AppResult ChatStreamChunk × SseStreamState) :=
  match _ : turn fromStr state with
  | .item next state => some (next, state)
  | .again state => loop fromStr state
  | .ended => none
termination_by (state.byteStream.length, state.lineBuffer.length)
decreasing_by
  rename_i h
  exact turn_again_smaller h

-- The closure that `stream::unfold` calls for the next item.
def poll (fromStr : FromStr) (state : SseStreamState) :
    Option (AppResult ChatStreamChunk × SseStreamState) :=
  if state.finished then none else loop fromStr state

-- The items that the stream answers to a consumer that polls it to its end.
inductive Yields (fromStr : FromStr) :
    SseStreamState → List (AppResult ChatStreamChunk) → Prop where
  | ended {state} (h : poll fromStr state = none) : Yields fromStr state []
  | item {state next rest items} (h : poll fromStr state = some (next, rest))
      (hrest : Yields fromStr rest items) : Yields fromStr state (next :: items)

theorem Yields.unique {fromStr : FromStr} {state : SseStreamState}
    {items items' : List (AppResult ChatStreamChunk)} (h : Yields fromStr state items)
    (h' : Yields fromStr state items') : items = items' := by
  induction h generalizing items' with
  | ended hover =>
      cases h' with
      | ended => rfl
      | item hitem => simp [hover] at hitem
  | item hitem _ ih =>
      cases h' with
      | ended hover => simp [hover] at hitem
      | item hitem' hrest' =>
          obtain ⟨rfl, rfl⟩ : _ = _ ∧ _ = _ := by simpa [hitem] using hitem'
          rw [ih hrest']

def streamSseChunks (byteStream : ByteStream) : SseStreamState := .new byteStream

end Mizan.Providers
