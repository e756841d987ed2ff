import Mathlib.Data.List.TakeWhile
import Mizan.Providers.Sse

namespace Mizan.Providers

open Delimited

-- How the bytes end.
inductive Ending where
  | normal
  | transport (error : String)
  deriving DecidableEq, Repr

def bytesIn (chunks : List (List UInt8)) (ending : Ending) : ByteStream :=
  chunks.map .ok ++
    match ending with
    | .normal => []
    | .transport error => [.error error]

-- A carriage return before the newline is no part of the line.
def lineContent (line : List UInt8) : List UInt8 :=
  if [0x0D] <:+ line then line.dropLast else line

-- The lines that count: after a transport error the unterminated one does not.
def countedLines (bytes : List UInt8) (ending : Ending) : List (List UInt8) :=
  (closed newline bytes).map lineContent ++
    match ending with
    | .normal => if (unfinished newline bytes).isEmpty then [] else [unfinished newline bytes]
    | .transport _ => []

theorem stripCarriageReturn_eq_lineContent (line : List UInt8) :
    stripCarriageReturn line = lineContent line := by
  rw [stripCarriageReturn, lineContent]
  simp only [List.singleton_suffix_iff_getLast?_eq_some]

-- "a\r\n\r\nb\r\r\nc\r"
example : countedLines [0x61, 0x0D, 0x0A, 0x0D, 0x0A, 0x62, 0x0D, 0x0D, 0x0A, 0x63, 0x0D] .normal =
    [[0x61], [], [0x62, 0x0D], [0x63, 0x0D]] := by decide

def dataValue (line : String) : Option String :=
  (stripPrefix (trimStart line) "data:").map trimStart

-- The data fields of an event, one a line. Empty ones before the first that is not are dropped.
def eventData (lines : List String) : String :=
  "\n".intercalate ((lines.filterMap dataValue).dropWhile String.isEmpty)

-- The data of the events that a blank line ends, and of the open one when it counts.
def countedEvents (texts : List String) (openCounts : Bool) : List String :=
  ((closed "" texts ++ if openCounts then [unfinished "" texts] else []).map eventData).filter
    fun data => !(trim data).isEmpty

structure Meaning where
  chunks : List ChatStreamChunk
  error : Option AppError
  deriving DecidableEq, Repr

def Meaning.items (meaning : Meaning) : List (AppResult ChatStreamChunk) :=
  meaning.chunks.map .ok ++ (meaning.error.map .error).toList

def endingError (ending : Ending) (emitted : Bool) : Option AppError :=
  match ending with
  | .normal => if emitted then none else some emptyError
  | .transport error => some (readFailedError error)

-- What the events say when `emitted` tells whether a chunk has come before them.
def eventsMeaning (fromStr : FromStr) (emitted : Bool) (texts : List String)
    (lineError : Option AppError) (ending : Ending) : Meaning :=
  let openCounts := lineError.isNone && ending == .normal
  let parsed := upToFailure (parseStreamEvent fromStr) (countedEvents texts openCounts)
  let chunks := parsed.1.flatten
  { chunks
    error := (parsed.2.or lineError).or (endingError ending (emitted || !chunks.isEmpty)) }

-- The meaning of the whole text, whatever chunks it came in.
def streamMeaning (fromStr : FromStr) (bytes : List UInt8) (ending : Ending) : Meaning :=
  let decoded := upToFailure decodeLine (countedLines bytes ending)
  eventsMeaning fromStr false decoded.1 decoded.2 ending

-- Flushing

def eventChunks (fromStr : FromStr) (data : String) : AppResult (List ChatStreamChunk) :=
  if (trim data).isEmpty then .ok [] else parseStreamEvent fromStr data

def appendLine (data line : String) : String :=
  match dataValue line with
  | some value => (if data.isEmpty then data else data.push '\n') ++ value
  | none => data

theorem flushPendingSseEvent_error {fromStr : FromStr} {state : SseStreamState} {error : AppError}
    (h : eventChunks fromStr state.eventData = .error error) :
    flushPendingSseEvent fromStr state = (.error error, { state with eventData := "" }) := by
  unfold eventChunks at h
  by_cases hblank : (trim state.eventData).isEmpty
  · simp [hblank] at h
  · simp only [hblank, Bool.false_eq_true, if_false] at h
    simp [flushPendingSseEvent, hblank, h]

theorem flushPendingSseEvent_ok {fromStr : FromStr} {state : SseStreamState}
    {chunks : List ChatStreamChunk} (h : eventChunks fromStr state.eventData = .ok chunks) :
    flushPendingSseEvent fromStr state =
      (.ok (), { state with eventData := "", pending := state.pending ++ chunks.map .ok }) := by
  unfold eventChunks at h
  by_cases hblank : (trim state.eventData).isEmpty
  · have hchunks : chunks = [] := by simpa [hblank] using h.symm
    simp [flushPendingSseEvent, hblank, hchunks]
  · simp only [hblank, Bool.false_eq_true, if_false] at h
    simp [flushPendingSseEvent, hblank, h]

-- A comment has no data field, so the check for it changes nothing.
theorem dataValue_eq_none_of_comment {line : String}
    (h : (stripPrefix (trimStart line) ":").isSome) : dataValue line = none := by
  generalize htrimmed : trimStart line = trimmed at h
  unfold dataValue
  rw [htrimmed]
  rcases hchars : trimmed.toList with _ | ⟨first, rest⟩
  · simp [stripPrefix, hchars]
  · have hfirst : first = ':' := by
      by_contra hne
      simp [stripPrefix, hchars, Ne.symm hne] at h
    subst hfirst
    simp [stripPrefix, hchars]

theorem decodeLine_ne_empty {line : List UInt8} {text : String} (hline : line ≠ [])
    (h : decodeLine line = .ok text) : text.isEmpty = false := by
  obtain ⟨first, bytes, rfl⟩ := List.exists_cons_of_ne_nil hline
  unfold decodeLine at h
  cases htext : fromUtf8 (first :: bytes) with
  | error error => simp [htext, Except.mapError] at h
  | ok decoded =>
      obtain rfl : decoded = text := by simpa [htext, Except.mapError] using h
      exact fromUtf8_ne_empty htext

theorem processSseLine_text {fromStr : FromStr} {state : SseStreamState} {line : List UInt8}
    {text : String} (h : decodeLine line = .ok text) (hne : text.isEmpty = false) :
    processSseLine fromStr state line =
      (.ok (), { state with eventData := appendLine state.eventData text }) := by
  simp only [processSseLine, h, hne, Bool.false_eq_true, if_false, appendLine]
  by_cases hcomment : (stripPrefix (trimStart text) ":").isSome
  · simp [hcomment, dataValue_eq_none_of_comment hcomment]
  · simp only [hcomment, Bool.false_eq_true, if_false, dataValue]
    cases stripPrefix (trimStart text) "data:" with
    | some value => simp
    | none => simp

-- The lines that are still to come, read one by one after the event data `data`.
def remaining (fromStr : FromStr) (ending : Ending) :
    (emitted : Bool) → (data : String) → List (List UInt8) → List (AppResult ChatStreamChunk)
  | emitted, data, [] =>
      match ending with
      | .transport error => [.error (readFailedError error)]
      | .normal =>
          match eventChunks fromStr data with
          | .error error => [.error error]
          | .ok chunks =>
              chunks.map .ok ++
                ((endingError .normal (emitted || !chunks.isEmpty)).map .error).toList
  | emitted, data, line :: lines =>
      match decodeLine line with
      | .error error => [.error error]
      | .ok text =>
          if text.isEmpty then
            match eventChunks fromStr data with
            | .error error => [.error error]
            | .ok chunks =>
                chunks.map .ok ++ remaining fromStr ending (emitted || !chunks.isEmpty) "" lines
          else remaining fromStr ending emitted (appendLine data text) lines

theorem remaining_text {fromStr : FromStr} {ending : Ending} {emitted : Bool} {data text : String}
    {line : List UInt8} {lines : List (List UInt8)} (hline : decodeLine line = .ok text)
    (htext : text.isEmpty = false) :
    remaining fromStr ending emitted data (line :: lines) =
      remaining fromStr ending emitted (appendLine data text) lines := by
  rw [remaining]
  simp [hline, htext]

-- Event data

theorem intercalate_ne_empty {values : List String} {value : String}
    (hvalue : value.isEmpty = false) : ("\n".intercalate (value :: values)).isEmpty = false := by
  cases values with
  | nil => simpa using hvalue
  | cons next values =>
      rw [String.intercalate_cons_cons]
      have hne : value ≠ "" := by simpa using hvalue
      simp [hne]

theorem eventData_nil : eventData [] = "" := by
  simp [eventData]

theorem eventData_append_singleton (block : List String) (text : String) :
    eventData (block ++ [text]) = appendLine (eventData block) text := by
  unfold appendLine eventData
  cases hvalue : dataValue text with
  | none => simp [List.filterMap_append, hvalue]
  | some value =>
      simp only [List.filterMap_append, List.filterMap_cons, hvalue, List.filterMap_nil]
      generalize block.filterMap dataValue = values
      rcases hkept : values.dropWhile String.isEmpty with _ | ⟨first, kept⟩
      · have hempty : ∀ value ∈ values, value.isEmpty := List.dropWhile_eq_nil_iff.mp hkept
        rw [List.dropWhile_append_of_pos hempty]
        by_cases hblank : value.isEmpty
        · have hnil : value = "" := by simpa using hblank
          simp [hnil]
        · simp [hblank]
      · have hfirst : first.isEmpty = false := by
          have hhead := List.head?_dropWhile_not String.isEmpty values
          simpa [hkept] using hhead
        have happend : (values ++ [value]).dropWhile String.isEmpty = (first :: kept) ++
          [value] := by
          rw [List.dropWhile_append, hkept]
          simp
        rw [happend, String.intercalate_append_of_ne_nil (by simp) (by simp)]
        simp only [intercalate_ne_empty hfirst, Bool.false_eq_true, if_false,
          String.intercalate_singleton]
        rfl

-- Events

theorem countedEvents_nil {block : List String} (hblock : "" ∉ block) (openCounts : Bool) :
    countedEvents block openCounts =
      if openCounts ∧ (trim (eventData block)).isEmpty = false then [eventData block] else [] := by
  simp only [countedEvents, closed_of_not_mem hblock, unfinished_of_not_mem hblock]
  cases openCounts
  · simp
  · by_cases hblank : (trim (eventData block)).isEmpty <;> simp [hblank]

theorem countedEvents_closed {block : List String} (hblock : "" ∉ block) (texts : List String)
    (openCounts : Bool) :
    countedEvents (block ++ "" :: texts) openCounts =
      (if (trim (eventData block)).isEmpty then [] else [eventData block]) ++
        countedEvents texts openCounts := by
  simp only [countedEvents, closed_append_cons hblock, unfinished_append_cons hblock,
    List.cons_append, List.map_cons, List.filter_cons]
  by_cases hblank : (trim (eventData block)).isEmpty <;> simp [hblank]

theorem eventsMeaning_event_error {fromStr : FromStr} {block : List String} {error : AppError}
    (hblock : "" ∉ block) (h : eventChunks fromStr (eventData block) = .error error)
    (emitted : Bool) (texts : List String) (lineError : Option AppError) (ending : Ending) :
    (eventsMeaning fromStr emitted (block ++ "" :: texts) lineError ending).items =
      [.error error] := by
  unfold eventChunks at h
  by_cases hblank : (trim (eventData block)).isEmpty
  · simp [hblank] at h
  · simp only [hblank, Bool.false_eq_true, if_false] at h
    simp [eventsMeaning, countedEvents_closed hblock, hblank, upToFailure_cons_error h,
      Meaning.items]

theorem eventsMeaning_event_ok {fromStr : FromStr} {block : List String}
    {chunks : List ChatStreamChunk} (hblock : "" ∉ block)
    (h : eventChunks fromStr (eventData block) = .ok chunks) (emitted : Bool)
    (texts : List String) (lineError : Option AppError) (ending : Ending) :
    (eventsMeaning fromStr emitted (block ++ "" :: texts) lineError ending).items =
      chunks.map .ok ++
        (eventsMeaning fromStr (emitted || !chunks.isEmpty) texts lineError ending).items := by
  unfold eventChunks at h
  by_cases hblank : (trim (eventData block)).isEmpty
  · have hchunks : chunks = [] := by simpa [hblank] using h.symm
    simp [eventsMeaning, countedEvents_closed hblock, hblank, hchunks]
  · simp only [hblank, Bool.false_eq_true, if_false] at h
    cases chunks <;>
      simp [eventsMeaning, countedEvents_closed hblock, hblank, upToFailure_cons_ok h,
        Meaning.items]

theorem eventsMeaning_open (fromStr : FromStr) {block : List String} (hblock : "" ∉ block)
    (emitted : Bool) (ending : Ending) :
    (eventsMeaning fromStr emitted block none ending).items =
      remaining fromStr ending emitted (eventData block) [] := by
  cases ending with
  | transport error =>
      simp [eventsMeaning, countedEvents_nil hblock, Meaning.items, remaining, endingError]
  | normal =>
      unfold remaining eventChunks
      by_cases hblank : (trim (eventData block)).isEmpty
      · simp [eventsMeaning, countedEvents_nil hblock, hblank, Meaning.items]
      · cases h : parseStreamEvent fromStr (eventData block) with
        | error error =>
            simp [eventsMeaning, countedEvents_nil hblock, hblank, upToFailure_cons_error h,
              Meaning.items]
        | ok chunks =>
            simp [eventsMeaning, countedEvents_nil hblock, hblank, upToFailure_cons_ok h,
              Meaning.items]

theorem eventsMeaning_line_error (fromStr : FromStr) {block : List String} (hblock : "" ∉ block)
    (emitted : Bool) (ending : Ending) (error : AppError) :
    (eventsMeaning fromStr emitted block (some error) ending).items = [.error error] := by
  simp [eventsMeaning, countedEvents_nil hblock, Meaning.items]

-- The induction is on the lines; `block` holds the texts of the event that is open before them.
theorem remaining_eq_items (fromStr : FromStr) (ending : Ending) (lines : List (List UInt8)) :
    ∀ (emitted : Bool) (block : List String), "" ∉ block →
      remaining fromStr ending emitted (eventData block) lines =
        (eventsMeaning fromStr emitted (block ++ (upToFailure decodeLine lines).1)
          (upToFailure decodeLine lines).2 ending).items := by
  induction lines with
  | nil =>
      intro emitted block hblock
      rw [upToFailure_nil, List.append_nil, eventsMeaning_open fromStr hblock]
  | cons line lines ih =>
      intro emitted block hblock
      cases hline : decodeLine line with
      | error error =>
          rw [upToFailure_cons_error hline, List.append_nil,
            eventsMeaning_line_error fromStr hblock]
          simp [remaining, hline]
      | ok text =>
          rw [upToFailure_cons_ok hline]
          by_cases htext : text = ""
          · subst htext
            cases hevent : eventChunks fromStr (eventData block) with
            | error error =>
                rw [eventsMeaning_event_error hblock hevent]
                simp [remaining, hline, hevent]
            | ok chunks =>
                have ih := ih (emitted || !chunks.isEmpty) [] (List.not_mem_nil)
                rw [eventData_nil, List.nil_append] at ih
                rw [eventsMeaning_event_ok hblock hevent]
                simp [remaining, hline, hevent, ih]
          · have hnext : "" ∉ block ++ [text] := by simp [hblock, Ne.symm htext]
            have ih := ih emitted (block ++ [text]) hnext
            rw [eventData_append_singleton, List.append_assoc, List.singleton_append] at ih
            simp [remaining, hline, htext, ih]

theorem remaining_eq_streamMeaning (fromStr : FromStr) (bytes : List UInt8) (ending : Ending) :
    remaining fromStr ending false "" (countedLines bytes ending) =
      (streamMeaning fromStr bytes ending).items := by
  have h := remaining_eq_items fromStr ending (countedLines bytes ending) false []
    (List.not_mem_nil)
  rw [eventData_nil, List.nil_append] at h
  rw [h, streamMeaning]

-- Lines

theorem countedLines_taken {lineBuffer line rest : List UInt8}
    (h : takeLine lineBuffer = some (line, rest)) (more : List UInt8) (ending : Ending) :
    countedLines (lineBuffer ++ more) ending = line :: countedLines (rest ++ more) ending := by
  obtain ⟨position, hposition, heq⟩ := Option.map_eq_some_iff.mp h
  obtain ⟨hsplit, hfield⟩ := eq_append_of_idxOf?_eq_some hposition
  obtain ⟨rfl, rfl⟩ := Prod.mk.inj heq
  have hbytes : lineBuffer ++ more = lineBuffer.take position ++
      newline :: (lineBuffer.drop (position + 1) ++ more) := by
    conv_lhs => rw [hsplit]
    simp
  rw [hbytes, stripCarriageReturn_eq_lineContent]
  simp only [countedLines, closed_append_cons hfield, unfinished_append_cons hfield]
  rfl

theorem countedLines_unfinished {lineBuffer : List UInt8} (h : takeLine lineBuffer = none)
    (ending : Ending) :
    countedLines lineBuffer ending =
      match ending with
      | .normal => if lineBuffer.isEmpty then [] else [lineBuffer]
      | .transport _ => [] := by
  have hfield : newline ∉ lineBuffer := by
    have hnone : lineBuffer.idxOf? newline = none := by simpa [takeLine] using h
    exact List.idxOf?_eq_none_iff.mp hnone
  simp [countedLines, closed_of_not_mem hfield, unfinished_of_not_mem hfield]

-- The simulation

-- A state in which the stream still has to answer `items`.
structure Running (fromStr : FromStr) (ending : Ending) (state : SseStreamState)
    (items : List (AppResult ChatStreamChunk)) : Prop where
  unfinished : state.finished = false
  answers : ∃ (chunks : List (List UInt8)) (produced : List ChatStreamChunk),
    state.byteStream = bytesIn chunks ending ∧ state.pending = produced.map .ok ∧
      items = produced.map .ok ++
        remaining fromStr ending (state.emittedAny || !produced.isEmpty) state.eventData
          (countedLines (state.lineBuffer ++ chunks.flatten) ending)

def Expects (fromStr : FromStr) (ending : Ending) (state : SseStreamState)
    (items : List (AppResult ChatStreamChunk)) : Prop :=
  (state.finished = true ∧ items = []) ∨ Running fromStr ending state items

theorem running_new (fromStr : FromStr) (chunks : List (List UInt8)) (ending : Ending) :
    Running fromStr ending (streamSseChunks (bytesIn chunks ending))
      (streamMeaning fromStr chunks.flatten ending).items := by
  refine ⟨rfl, chunks, [], rfl, rfl, ?_⟩
  simp [streamSseChunks, SseStreamState.new, remaining_eq_streamMeaning]

-- What a pass through the loop owes to the items that are still to come.
inductive Answers (fromStr : FromStr) (ending : Ending) :
    List (AppResult ChatStreamChunk) → Turn → Prop where
  | item {next rest after} (h : Expects fromStr ending after rest) :
      Answers fromStr ending (next :: rest) (.item next after)
  | again {items after} (h : Running fromStr ending after items) :
      Answers fromStr ending items (.again after)
  | ended : Answers fromStr ending [] .ended

variable {fromStr : FromStr} {ending : Ending} {state after : SseStreamState}
  {items : List (AppResult ChatStreamChunk)} {next : AppResult ChatStreamChunk}

theorem popPending_none (h : popPending state = none) : state.pending = [] := by
  unfold popPending at h
  split at h
  · assumption
  · simp at h

-- With nothing pending, the items are those of the lines that are left.
theorem Running.of_not_pending (h : Running fromStr ending state items)
    (hpending : state.pending = []) :
    ∃ chunks, state.byteStream = bytesIn chunks ending ∧
      items = remaining fromStr ending state.emittedAny state.eventData
        (countedLines (state.lineBuffer ++ chunks.flatten) ending) := by
  obtain ⟨_, chunks, produced, hbytes, hproduced, rfl⟩ := h
  have hnil : produced = [] := by simpa [hpending] using hproduced.symm
  subst hnil
  exact ⟨chunks, hbytes, by simp⟩

-- What a line does to a state with nothing pending, against the lines that follow it.
theorem processSseLine_remaining (fromStr : FromStr) (ending : Ending) (state : SseStreamState)
    (line : List UInt8) (hpending : state.pending = []) (lines : List (List UInt8)) :
    (∃ error, (processSseLine fromStr state line).1 = .error error ∧
        remaining fromStr ending state.emittedAny state.eventData (line :: lines) =
          [.error error]) ∨
      (∃ (data : String) (produced : List ChatStreamChunk),
        processSseLine fromStr state line =
          (.ok (), { state with
            eventData := data, pending := produced.map Except.ok }) ∧
        remaining fromStr ending state.emittedAny state.eventData (line :: lines) =
          produced.map .ok ++
            remaining fromStr ending (state.emittedAny || !produced.isEmpty) data lines) := by
  cases hline : decodeLine line with
  | error error => exact .inl ⟨error, by simp [processSseLine, hline], by simp [remaining, hline]⟩
  | ok text =>
      by_cases htext : text.isEmpty
      · have hflush : processSseLine fromStr state line = flushPendingSseEvent fromStr state := by
          simp [processSseLine, hline, htext]
        cases hevent : eventChunks fromStr state.eventData with
        | error error =>
            refine .inl ⟨error, ?_, ?_⟩
            · rw [hflush, flushPendingSseEvent_error hevent]
            · simp only [remaining, hline, htext, if_true, hevent]
        | ok chunks =>
            refine .inr ⟨"", chunks, ?_, ?_⟩
            · rw [hflush, flushPendingSseEvent_ok hevent, hpending, List.nil_append]
            · simp only [remaining, hline, htext, if_true, hevent]
      · have htext : text.isEmpty = false := by simpa using htext
        refine .inr ⟨appendLine state.eventData text, [], ?_, ?_⟩
        · rw [processSseLine_text hline htext, List.map_nil, ← hpending]
        · simp [remaining, hline, htext]

theorem fail_answers (error : AppError) :
    Answers fromStr ending [.error error] (fail error state) := by
  exact .item (.inl ⟨rfl, rfl⟩)

theorem popPending_answers (h : Running fromStr ending state items)
    (hpop : popPending state = some (next, after)) :
    Answers fromStr ending items (.item next after) := by
  obtain ⟨hfinished, chunks, produced, hbytes, hpending, rfl⟩ := h
  cases produced with
  | nil => simp [popPending, hpending] at hpop
  | cons chunk produced =>
      simp only [popPending, hpending, List.map_cons, Option.some.injEq, Prod.mk.injEq] at hpop
      obtain ⟨rfl, rfl⟩ := hpop
      refine .item (.inr ⟨hfinished, chunks, produced, hbytes, rfl, ?_⟩)
      simp [Except.isOk, Except.toBool]

theorem finish_answers (state : SseStreamState) (hfinished : state.finished = false)
    (hpending : state.pending = []) (hstream : state.byteStream = [])
    (hbuffer : state.lineBuffer = []) :
    Answers fromStr .normal (remaining fromStr .normal state.emittedAny state.eventData [])
      (finish fromStr state) := by
  unfold finish
  cases hevent : eventChunks fromStr state.eventData with
  | error error =>
      simp only [flushPendingSseEvent_error hevent, remaining, hevent]
      exact fail_answers error
  | ok chunks =>
      simp only [flushPendingSseEvent_ok hevent, hpending, List.nil_append, remaining, hevent]
      cases chunks with
      | nil =>
          by_cases hemitted : state.emittedAny
          · simp only [popPending, List.map_nil, hemitted, endingError]
            exact .ended
          · simp only [popPending, List.map_nil, hemitted, endingError]
            exact fail_answers emptyError
      | cons chunk chunks =>
          refine .item (.inr ⟨hfinished, [], chunks, by simp [hstream, bytesIn], rfl, ?_⟩)
          simp [hbuffer, countedLines_unfinished, takeLine, remaining, eventChunks, trim, trimChars,
            Except.isOk, Except.toBool, endingError]

theorem endOfBytes_answers (hfinished : state.finished = false) (hpending : state.pending = [])
    (hstream : state.byteStream = []) (hline : takeLine state.lineBuffer = none) :
    Answers fromStr .normal
      (remaining fromStr .normal state.emittedAny state.eventData
        (countedLines state.lineBuffer .normal))
      (endOfBytes fromStr state) := by
  rw [countedLines_unfinished hline]
  unfold endOfBytes
  by_cases hempty : state.lineBuffer.isEmpty
  · simp only [hempty, if_true]
    have hbuffer : state.lineBuffer = [] := by simpa using hempty
    exact finish_answers state hfinished hpending hstream hbuffer
  · simp only [hempty, Bool.false_eq_true, if_false]
    cases hdecoded : decodeLine state.lineBuffer with
    | error error =>
        simp only [processSseLine, hdecoded, remaining]
        exact fail_answers error
    | ok text =>
        have htext := decodeLine_ne_empty (by simpa using hempty) hdecoded
        rw [processSseLine_text hdecoded htext]
        rw [remaining_text hdecoded htext]
        exact finish_answers { state with
          lineBuffer := [], eventData := appendLine state.eventData text }
          hfinished hpending hstream rfl

theorem turn_answers (h : Running fromStr ending state items) :
    Answers fromStr ending items (turn fromStr state) := by
  cases hpop : popPending state with
  | some popped =>
      have hturn : turn fromStr state = .item popped.1 popped.2 := by simp [turn, hpop]
      rw [hturn]
      exact popPending_answers h hpop
  | none =>
      have hpending := popPending_none hpop
      obtain ⟨chunks, hbytes, rfl⟩ := h.of_not_pending hpending
      cases hline : takeLine state.lineBuffer with
      | some taken =>
          rw [countedLines_taken hline]
          simp only [turn, hpop, hline]
          rcases processSseLine_remaining fromStr ending { state with lineBuffer := taken.2 }
              taken.1 hpending (countedLines (taken.2 ++ chunks.flatten) ending) with
            ⟨error, herror, hremaining⟩ | ⟨data, produced, hresult, hremaining⟩
          · rw [hremaining]
            cases hresult : processSseLine fromStr { state with lineBuffer := taken.2 } taken.1 with
            | mk result after =>
                rw [hresult] at herror
                simp only at herror
                subst herror
                exact fail_answers error
          · rw [hresult]
            exact .again ⟨h.unfinished, chunks, produced, hbytes, rfl, hremaining⟩
      | none =>
          cases chunks with
          | cons bytes chunks =>
              simp only [turn, hpop, hline, hbytes, bytesIn, List.map_cons, List.cons_append]
              refine .again ⟨h.unfinished, chunks, [], rfl, hpending, ?_⟩
              simp
          | nil =>
              cases ending with
              | transport error =>
                  simp only [turn, hpop, hline, hbytes, bytesIn, List.map_nil, List.nil_append,
                    List.flatten_nil, List.append_nil, countedLines_unfinished hline, remaining]
                  exact fail_answers _
              | normal =>
                  simp only [turn, hpop, hline, hbytes, bytesIn, List.map_nil, List.flatten_nil,
                    List.append_nil]
                  exact endOfBytes_answers h.unfinished hpending hbytes hline

theorem loop_answers (h : Running fromStr ending state items) :
    (∃ next after rest, loop fromStr state = some (next, after) ∧ items = next :: rest ∧
        Expects fromStr ending after rest) ∨
      (loop fromStr state = none ∧ items = []) := by
  induction state using loop.induct fromStr with
  | case1 state next after hturn =>
      have hanswers := turn_answers h
      rw [hturn] at hanswers
      have hloop : loop fromStr state = some (next, after) := by
        rw [loop]
        split <;> simp_all
      cases hanswers with
      | item hafter => exact .inl ⟨next, after, _, hloop, rfl, hafter⟩
  | case2 state after hturn ih =>
      have hanswers := turn_answers h
      rw [hturn] at hanswers
      have hloop : loop fromStr state = loop fromStr after := by
        rw [loop]
        split <;> simp_all
      rw [hloop]
      cases hanswers with
      | again hafter => exact ih hafter
  | case3 state hturn =>
      have hanswers := turn_answers h
      rw [hturn] at hanswers
      have hloop : loop fromStr state = none := by
        rw [loop]
        split <;> simp_all
      cases hanswers with
      | ended => exact .inr ⟨hloop, rfl⟩

theorem expects_yields (h : Expects fromStr ending state items) :
    Yields fromStr state items := by
  induction items generalizing state with
  | nil =>
      rcases h with ⟨hfinished, -⟩ | hrunning
      · exact .ended (by simp [poll, hfinished])
      · rcases loop_answers hrunning with ⟨next, after, rest, -, habsurd, -⟩ | ⟨hloop, -⟩
        · simp at habsurd
        · exact .ended (by simp [poll, hrunning.unfinished, hloop])
  | cons item items ih =>
      rcases h with ⟨-, habsurd⟩ | hrunning
      · simp at habsurd
      · rcases loop_answers hrunning with ⟨next, after, rest, hloop, heq, hafter⟩ | ⟨-, habsurd⟩
        · obtain ⟨rfl, rfl⟩ := List.cons.inj heq
          exact .item (by simp [poll, hrunning.unfinished, hloop]) (ih hafter)
        · simp at habsurd

-- However the bytes are cut into chunks, the stream answers the chunks that their events mean up
-- to the first failure, then at most one error, and then it is over.
theorem stream_chunking_independent (fromStr : FromStr) (chunks : List (List UInt8))
    (ending : Ending) (items : List (AppResult ChatStreamChunk)) :
    Yields fromStr (streamSseChunks (bytesIn chunks ending)) items ↔
      items = (streamMeaning fromStr chunks.flatten ending).items := by
  have hyields := expects_yields (.inr (running_new fromStr chunks ending))
  constructor
  · intro h
    exact h.unique hyields
  · rintro rfl
    exact hyields

end Mizan.Providers
