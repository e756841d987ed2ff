import Mizan.Providers.Chunking

namespace Mizan.Providers

open Delimited

abbrev SourceAnswer := Option (Except String (List UInt8))

-- What a pass through the body of the loop asks of the byte stream.
def asked (state : SseStreamState) : List SourceAnswer :=
  if (popPending state).isNone && (takeLine state.lineBuffer).isNone then [state.byteStream.head?]
  else []

-- What the byte stream is asked in the course of so many polls. The stream itself is not polled
-- again once it is over.
def askedInPolls (fromStr : FromStr) (polls : Nat) (state : SseStreamState) : List SourceAnswer :=
  match polls with
  | 0 => []
  | polls + 1 =>
      if state.finished then []
      else
        asked state ++
          match _ : turn fromStr state with
          | .item _ state => askedInPolls fromStr polls state
          | .again state => askedInPolls fromStr (polls + 1) state
          | .ended => []
termination_by (polls, state.byteStream.length, state.lineBuffer.length)
decreasing_by
  · exact Prod.Lex.left _ _ (Nat.lt_succ_self _)
  · rename_i h
    exact Prod.Lex.right _ (turn_again_smaller h)

-- After `None` or an error there is no further answer.
def StopsAtEnd (answers : List SourceAnswer) : Prop :=
  ∀ answer ∈ answers.dropLast, ∃ bytes, answer = some (.ok bytes)

-- The chunks of the event that is open when the lines are over, unless an error comes before.
def openChunks (fromStr : FromStr) : (data : String) → List (List UInt8) → List ChatStreamChunk
  | data, [] =>
      match eventChunks fromStr data with
      | .error _ => []
      | .ok chunks => chunks
  | data, line :: lines =>
      match decodeLine line with
      | .error _ => []
      | .ok text =>
          if text.isEmpty then
            match eventChunks fromStr data with
            | .error _ => []
            | .ok _ => openChunks fromStr "" lines
          else openChunks fromStr (appendLine data text) lines

-- The ways through the body of the loop, each with what it asks of the byte stream.
inductive Pass (fromStr : FromStr) (state : SseStreamState) : List SourceAnswer → Turn → Prop where
  | pending {next rest} (hpending : state.pending = next :: rest) :
      Pass fromStr state []
        (.item next { state with pending := rest, emittedAny := state.emittedAny || next.isOk })
  | badLine {line rest error after} (hpending : state.pending = [])
      (hline : takeLine state.lineBuffer = some (line, rest))
      (hresult : processSseLine fromStr { state with lineBuffer := rest } line =
        (.error error, after)) :
      Pass fromStr state [] (fail error after)
  | line {line rest after} (hpending : state.pending = [])
      (hline : takeLine state.lineBuffer = some (line, rest))
      (hresult : processSseLine fromStr { state with lineBuffer := rest } line = (.ok (), after)) :
      Pass fromStr state [] (.again after)
  | bytes {bytes byteStream} (hpending : state.pending = [])
      (hline : takeLine state.lineBuffer = none)
      (hbytes : state.byteStream = .ok bytes :: byteStream) :
      Pass fromStr state [some (.ok bytes)]
        (.again { state with byteStream, lineBuffer := state.lineBuffer ++ bytes })
  | failed {error byteStream} (hpending : state.pending = [])
      (hline : takeLine state.lineBuffer = none)
      (hbytes : state.byteStream = .error error :: byteStream) :
      Pass fromStr state [some (.error error)]
      (fail (readFailedError error) { state with byteStream })
  | ended (hpending : state.pending = []) (hline : takeLine state.lineBuffer = none)
      (hbytes : state.byteStream = []) : Pass fromStr state [none] (endOfBytes fromStr state)

theorem pass_turn (fromStr : FromStr) (state : SseStreamState) :
    Pass fromStr state (asked state) (turn fromStr state) := by
  cases hpop : popPending state with
  | some popped =>
      have hasked : asked state = [] := by simp [asked, hpop]
      have hturn : turn fromStr state = .item popped.1 popped.2 := by simp [turn, hpop]
      rw [hasked, hturn]
      unfold popPending at hpop
      split at hpop
      · cases hpop
      · rename_i next rest hpending
        cases hpop
        exact .pending hpending
  | none =>
      have hpending := popPending_none hpop
      cases hline : takeLine state.lineBuffer with
      | some taken =>
          have hasked : asked state = [] := by simp [asked, hline]
          rw [hasked]
          rcases hresult : processSseLine fromStr { state with lineBuffer := taken.2 } taken.1 with
            ⟨error | _, after⟩
          · have hturn : turn fromStr state = fail error after := by
              simp [turn, hpop, hline, hresult]
            rw [hturn]
            exact .badLine hpending hline hresult
          · have hturn : turn fromStr state = .again after := by simp [turn, hpop, hline, hresult]
            rw [hturn]
            exact .line hpending hline hresult
      | none =>
          have hasked : asked state = [state.byteStream.head?] := by simp [asked, hpop, hline]
          rw [hasked]
          rcases hbytes : state.byteStream with _ | ⟨error | bytes, byteStream⟩
          · have hturn : turn fromStr state = endOfBytes fromStr state := by
              simp [turn, hpop, hline, hbytes]
            rw [hturn]
            exact .ended hpending hline hbytes
          · have hturn : turn fromStr state =
                fail (readFailedError error) { state with byteStream } := by
              simp [turn, hpop, hline, hbytes]
            rw [hturn]
            exact .failed hpending hline hbytes
          · have hturn : turn fromStr state =
                .again { state with byteStream, lineBuffer := state.lineBuffer ++ bytes } := by
              simp [turn, hpop, hline, hbytes]
            rw [hturn]
            exact .bytes hpending hline hbytes

section Asked

variable {fromStr : FromStr} {state after : SseStreamState} {polls : Nat}

theorem asked_finished (h : state.finished = true) : askedInPolls fromStr polls state = [] := by
  cases polls with
  | zero => rw [askedInPolls]
  | succ polls => rw [askedInPolls, if_pos h]

theorem asked_item {next : AppResult ChatStreamChunk} (h : state.finished = false)
    (hturn : turn fromStr state = .item next after) :
    askedInPolls fromStr (polls + 1) state = asked state ++ askedInPolls fromStr polls after := by
  rw [askedInPolls, if_neg (by simp [h])]
  split <;> simp_all

theorem asked_again (h : state.finished = false) (hturn : turn fromStr state = .again after) :
    askedInPolls fromStr (polls + 1) state =
      asked state ++ askedInPolls fromStr (polls + 1) after := by
  rw [askedInPolls, if_neg (by simp [h])]
  split <;> simp_all

theorem asked_ended (h : state.finished = false) (hturn : turn fromStr state = .ended) :
    askedInPolls fromStr (polls + 1) state = asked state := by
  rw [askedInPolls, if_neg (by simp [h])]
  split <;> simp_all

-- What a line does to the event that is open at the end.
theorem processSseLine_open (fromStr : FromStr) (state : SseStreamState) (line : List UInt8)
    (lines : List (List UInt8)) :
    (∃ error after, processSseLine fromStr state line = (.error error, after) ∧
        openChunks fromStr state.eventData (line :: lines) = []) ∨
      ∃ after, processSseLine fromStr state line = (.ok (), after) ∧
        after.finished = state.finished ∧
        openChunks fromStr state.eventData (line :: lines) =
          openChunks fromStr after.eventData lines := by
  cases hline : decodeLine line with
  | error error =>
      exact .inl ⟨error, state, by simp [processSseLine, hline], by simp [openChunks, hline]⟩
  | ok text =>
      by_cases htext : text.isEmpty
      · have hflush : processSseLine fromStr state line = flushPendingSseEvent fromStr state := by
          simp [processSseLine, hline, htext]
        cases hevent : eventChunks fromStr state.eventData with
        | error error =>
            refine .inl ⟨error, _, hflush.trans (flushPendingSseEvent_error hevent), ?_⟩
            simp only [openChunks, hline, htext, if_true, hevent]
        | ok chunks =>
            refine .inr ⟨_, hflush.trans (flushPendingSseEvent_ok hevent), rfl, ?_⟩
            simp only [openChunks, hline, htext, if_true, hevent]
      · have htext : text.isEmpty = false := by simpa using htext
        refine .inr ⟨_, processSseLine_text hline htext, rfl, ?_⟩
        simp [openChunks, hline, htext]

-- The end of the bytes hands out the chunks of the open event, and then it is not the end of the
-- stream.
theorem finish_open (state : SseStreamState) (hpending : state.pending = []) :
    (openChunks fromStr state.eventData [] = [] →
      ∀ next after, finish fromStr state = .item next after → after.finished = true) ∧
    (openChunks fromStr state.eventData [] ≠ [] →
      ∃ next after, finish fromStr state = .item next after ∧ after.finished = state.finished ∧
        after.byteStream = state.byteStream ∧ after.lineBuffer = state.lineBuffer) := by
  cases hevent : eventChunks fromStr state.eventData with
  | error error =>
      have hopen : openChunks fromStr state.eventData [] = [] := by simp [openChunks, hevent]
      refine ⟨fun _ next after hfinish => ?_, fun hne => absurd hopen hne⟩
      simp only [finish, flushPendingSseEvent_error hevent, fail, Turn.item.injEq] at hfinish
      rw [← hfinish.2]
  | ok chunks =>
      have hopen : openChunks fromStr state.eventData [] = chunks := by simp [openChunks, hevent]
      rw [hopen]
      cases chunks with
      | nil =>
          refine ⟨fun _ next after hfinish => ?_, fun hne => absurd rfl hne⟩
          simp only [finish, flushPendingSseEvent_ok hevent, hpending, popPending, List.map_nil,
            List.append_nil, fail] at hfinish
          split at hfinish
          · cases hfinish
          · cases hfinish
            rfl
      | cons chunk chunks =>
          refine ⟨fun hnil => absurd hnil (List.cons_ne_nil _ _), fun _ => ⟨.ok chunk, { state with
            eventData := "", pending := chunks.map .ok
            emittedAny := state.emittedAny || true }, ?_, rfl, rfl, rfl⟩⟩
          simp only [finish, flushPendingSseEvent_ok hevent, hpending, popPending, List.map_cons,
            List.nil_append]
          rfl

theorem endOfBytes_open (hpending : state.pending = []) (hline : takeLine state.lineBuffer = none) :
    (openChunks fromStr state.eventData (countedLines state.lineBuffer .normal) = [] →
      ∀ next after, endOfBytes fromStr state = .item next after → after.finished = true) ∧
    (openChunks fromStr state.eventData (countedLines state.lineBuffer .normal) ≠ [] →
      ∃ next after, endOfBytes fromStr state = .item next after ∧
        after.finished = state.finished ∧ after.byteStream = state.byteStream ∧
          after.lineBuffer = []) := by
  rw [countedLines_unfinished hline]
  by_cases hempty : state.lineBuffer.isEmpty
  · have hbuffer : state.lineBuffer = [] := by simpa using hempty
    have hend : endOfBytes fromStr state = finish fromStr state := by simp [endOfBytes, hempty]
    have hfinish := @finish_open fromStr state hpending
    rw [hbuffer] at hfinish
    simp only [hempty, if_true, hend]
    exact hfinish
  · simp only [hempty, Bool.false_eq_true, if_false]
    cases hdecoded : decodeLine state.lineBuffer with
    | error error =>
        have hopen : openChunks fromStr state.eventData [state.lineBuffer] = [] := by
          simp [openChunks, hdecoded]
        refine ⟨fun _ next after hend => ?_, fun hne => absurd hopen hne⟩
        simp only [endOfBytes, hempty, Bool.false_eq_true, if_false, processSseLine, hdecoded, fail,
          Turn.item.injEq] at hend
        rw [← hend.2]
    | ok text =>
        have htext := decodeLine_ne_empty (by simpa using hempty) hdecoded
        have hopen : openChunks fromStr state.eventData [state.lineBuffer] =
            openChunks fromStr (appendLine state.eventData text) [] := by
          simp [openChunks, hdecoded, htext]
        have hend : endOfBytes fromStr state = finish fromStr
            { state with lineBuffer := [], eventData := appendLine state.eventData text } := by
          simp only [endOfBytes, hempty, Bool.false_eq_true, if_false]
          rw [processSseLine_text hdecoded htext]
        have hfinish := @finish_open fromStr
          { state with lineBuffer := [], eventData := appendLine state.eventData text } hpending
        rw [hopen, hend]
        exact hfinish

end Asked

section Ends

variable {fromStr : FromStr} {state after : SseStreamState} {polls : Nat}

theorem stopsAtEnd_nil : StopsAtEnd [] := by
  simp [StopsAtEnd]

theorem stopsAtEnd_singleton (answer : SourceAnswer) : StopsAtEnd [answer] := by
  simp [StopsAtEnd]

theorem stopsAtEnd_cons {bytes : List UInt8} {answers : List SourceAnswer}
    (h : StopsAtEnd answers) :
    StopsAtEnd (some (.ok bytes) :: answers) := by
  cases answers with
  | nil => exact stopsAtEnd_singleton _
  | cons answer answers =>
      intro other hmem
      rw [List.dropLast_cons_cons, List.mem_cons] at hmem
      obtain rfl | hmem := hmem
      · exact ⟨bytes, rfl⟩
      · exact h other hmem

theorem not_stopsAtEnd_cons {answer : SourceAnswer} {answers : List SourceAnswer}
    (h : ¬StopsAtEnd answers) : ¬StopsAtEnd (answer :: answers) := by
  intro hstops
  apply h
  intro other hmem
  cases answers with
  | nil => cases hmem
  | cons next answers => exact hstops other (List.mem_cons_of_mem _ hmem)

-- Should the byte stream end without an error, no chunk comes from the event that is open then.
def Clean (fromStr : FromStr) (state : SseStreamState) : Prop :=
  ∀ chunks : List (List UInt8), state.byteStream = chunks.map .ok →
    openChunks fromStr state.eventData
      (countedLines (state.lineBuffer ++ chunks.flatten) .normal) = []

theorem clean_line {line rest : List UInt8} (hclean : Clean fromStr state)
    (hline : takeLine state.lineBuffer = some (line, rest))
    (hresult : processSseLine fromStr { state with lineBuffer := rest } line = (.ok (), after)) :
    Clean fromStr after ∧ after.finished = state.finished := by
  have hinput := processSseLine_input fromStr { state with lineBuffer := rest } line
  rw [hresult] at hinput
  constructor
  · intro chunks hchunks
    have hopen := hclean chunks (hinput.1.symm.trans hchunks)
    rw [countedLines_taken hline] at hopen
    obtain ⟨error, _, herror, _⟩ | ⟨_, hok, _, hsame⟩ := processSseLine_open fromStr
      { state with lineBuffer := rest } line (countedLines (rest ++ chunks.flatten) .normal)
    · rw [hresult] at herror
      cases herror
    · rw [hresult] at hok
      cases hok
      rw [hinput.2, ← hsame]
      exact hopen
  · obtain ⟨error, _, herror, _⟩ | ⟨_, hok, hfinished, _⟩ := processSseLine_open fromStr
      { state with lineBuffer := rest } line []
    · rw [hresult] at herror
      cases herror
    · rw [hresult] at hok
      cases hok
      exact hfinished

-- The induction is on the passes; the one at the end of the bytes is the last that asks.
theorem stopsAtEnd_of_clean (hclean : Clean fromStr state) :
    StopsAtEnd (askedInPolls fromStr polls state) := by
  induction polls, state using askedInPolls.induct fromStr with
  | case1 state =>
      rw [askedInPolls]
      exact stopsAtEnd_nil
  | case2 state polls hfinished =>
      rw [asked_finished hfinished]
      exact stopsAtEnd_nil
  | case3 state polls hfinished hitem hagain =>
      have hrunning : state.finished = false := eq_false_of_ne_true hfinished
      have hpass := pass_turn fromStr state
      generalize hasked : asked state = answers at hpass
      generalize hturn : turn fromStr state = result at hpass
      cases hpass with
      | pending hpending =>
          rw [asked_item hrunning hturn, hasked]
          exact hitem _ hclean
      | badLine hpending hline hresult =>
          rw [asked_item hrunning hturn, hasked, asked_finished rfl]
          exact stopsAtEnd_nil
      | line hpending hline hresult =>
          rw [asked_again hrunning hturn, hasked]
          exact hagain _ hturn (clean_line hclean hline hresult).1
      | @bytes bytes byteStream hpending hline hbytes =>
          rw [asked_again hrunning hturn, hasked]
          refine stopsAtEnd_cons (hagain _ hturn fun chunks hchunks => ?_)
          have hopen := hclean (bytes :: chunks) (by rw [hbytes, List.map_cons, ← hchunks])
          rw [List.append_assoc]
          exact hopen
      | failed hpending hline hbytes =>
          rw [asked_item hrunning hturn, hasked, asked_finished rfl]
          exact stopsAtEnd_singleton _
      | ended hpending hline hbytes =>
          have hopen := hclean [] hbytes
          rw [List.flatten_nil, List.append_nil] at hopen
          have hlast := (endOfBytes_open hpending hline).1 hopen
          cases hend : endOfBytes fromStr state with
          | item next after =>
              rw [asked_item hrunning (hturn.trans hend), hasked,
                asked_finished (hlast next after hend)]
              exact stopsAtEnd_singleton _
          | again after => exact absurd hend (endOfBytes_ne_again fromStr state after)
          | ended =>
              rw [asked_ended hrunning (hturn.trans hend), hasked]
              exact stopsAtEnd_singleton _

-- A stream that has seen the end of the bytes and has not finished asks for more.
theorem asks_again (hfinished : state.finished = false) (hbytes : state.byteStream = [])
    (hbuffer : state.lineBuffer = []) : ∃ polls, askedInPolls fromStr polls state ≠ [] := by
  generalize hpending : state.pending = pending
  induction pending generalizing state with
  | nil =>
      refine ⟨1, ?_⟩
      have hasked : asked state = [none] := by
        simp [asked, popPending, hpending, hbuffer, takeLine, hbytes]
      cases hturn : turn fromStr state with
      | item next after => simp [asked_item hfinished hturn, hasked]
      | again after => simp [asked_again hfinished hturn, hasked]
      | ended => simp [asked_ended hfinished hturn, hasked]
  | cons next rest ih =>
      have hturn : turn fromStr state = .item next
          { state with pending := rest, emittedAny := state.emittedAny || next.isOk } := by
        simp [turn, popPending, hpending]
      obtain ⟨polls, hasks⟩ := @ih
        { state with pending := rest, emittedAny := state.emittedAny || next.isOk } hfinished hbytes
          hbuffer rfl
      refine ⟨polls + 1, ?_⟩
      rw [asked_item hfinished hturn]
      exact List.append_ne_nil_of_right_ne_nil _ hasks

-- The measure is that of the passes, and the number of chunks that are pending.
theorem asks_past_end (state : SseStreamState) (chunks : List (List UInt8))
    (hfinished : state.finished = false)
    (hbytes : state.byteStream = chunks.map .ok)
    (hopen : openChunks fromStr state.eventData
      (countedLines (state.lineBuffer ++ chunks.flatten) .normal) ≠ []) :
    ∃ polls, ¬StopsAtEnd (askedInPolls fromStr polls state) := by
  have hpass := pass_turn fromStr state
  generalize hasked : asked state = answers at hpass
  generalize hturn : turn fromStr state = result at hpass
  cases hpass with
  | @pending next rest hpending =>
      obtain ⟨polls, hasks⟩ := asks_past_end
        { state with pending := rest, emittedAny := state.emittedAny || next.isOk } chunks hfinished
          hbytes hopen
      refine ⟨polls + 1, ?_⟩
      rw [asked_item hfinished hturn, hasked]
      exact hasks
  | @badLine line rest error after hpending hline hresult =>
      rw [countedLines_taken hline] at hopen
      obtain ⟨_, _, _, hnone⟩ | ⟨_, hok, _, _⟩ := processSseLine_open fromStr
        { state with lineBuffer := rest } line (countedLines (rest ++ chunks.flatten) .normal)
      · exact absurd hnone hopen
      · rw [hresult] at hok
        cases hok
  | @line line rest after hpending hline hresult =>
      have hinput := processSseLine_input fromStr { state with lineBuffer := rest } line
      rw [hresult] at hinput
      have hsource : after.byteStream = state.byteStream := hinput.1
      have hbuffer : after.lineBuffer = rest := hinput.2
      have hshorter := takeLine_length hline
      have hnext : after.finished = state.finished ∧ openChunks fromStr after.eventData
          (countedLines (after.lineBuffer ++ chunks.flatten) .normal) ≠ [] := by
        rw [countedLines_taken hline] at hopen
        obtain ⟨_, _, _, hnone⟩ | ⟨_, hok, hsame, hlines⟩ := processSseLine_open fromStr
          { state with lineBuffer := rest } line (countedLines (rest ++ chunks.flatten) .normal)
        · exact absurd hnone hopen
        · rw [hresult] at hok
          cases hok
          rw [hbuffer]
          exact ⟨hsame, fun hnone => hopen (hlines.trans hnone)⟩
      obtain ⟨polls, hasks⟩ := asks_past_end after chunks (hnext.1.trans hfinished)
        (hsource.trans hbytes) hnext.2
      cases polls with
      | zero =>
          rw [askedInPolls] at hasks
          exact absurd stopsAtEnd_nil hasks
      | succ polls =>
          refine ⟨polls + 1, ?_⟩
          rw [asked_again hfinished hturn, hasked]
          exact hasks
  | @bytes bytes byteStream hpending hline hbytes' =>
      obtain ⟨others, rfl, hothers⟩ : ∃ others, chunks = bytes :: others ∧
          byteStream = others.map .ok := by
        rw [hbytes] at hbytes'
        cases chunks with
        | nil => cases hbytes'
        | cons chunk others =>
            cases hbytes'
            exact ⟨others, rfl, rfl⟩
      have hopen' : openChunks fromStr state.eventData
          (countedLines ((state.lineBuffer ++ bytes) ++ others.flatten) .normal) ≠ [] := by
        rw [List.append_assoc]
        exact hopen
      obtain ⟨polls, hasks⟩ := asks_past_end
        { state with byteStream, lineBuffer := state.lineBuffer ++ bytes } others hfinished hothers
          hopen'
      cases polls with
      | zero =>
          rw [askedInPolls] at hasks
          exact absurd stopsAtEnd_nil hasks
      | succ polls =>
          refine ⟨polls + 1, ?_⟩
          rw [asked_again hfinished hturn, hasked]
          exact not_stopsAtEnd_cons hasks
  | @failed error byteStream hpending hline hbytes' =>
      rw [hbytes] at hbytes'
      cases chunks with
      | nil => cases hbytes'
      | cons chunk chunks => cases hbytes'
  | ended hpending hline hbytes' =>
      obtain rfl : chunks = [] := List.map_eq_nil_iff.mp (hbytes.symm.trans hbytes')
      rw [List.flatten_nil, List.append_nil] at hopen
      obtain ⟨next, after, hend, hafter, hbytes'', hbuffer⟩ :=
        (endOfBytes_open hpending hline).2 hopen
      obtain ⟨polls, hasks⟩ := @asks_again fromStr after (hafter.trans hfinished)
        (hbytes''.trans hbytes') hbuffer
      refine ⟨polls + 1, fun hstops => ?_⟩
      rw [asked_item hfinished (hturn.trans hend), hasked] at hstops
      obtain ⟨answer, answers, hanswers⟩ := List.exists_cons_of_ne_nil hasks
      rw [hanswers] at hstops
      obtain ⟨bytes, hnone⟩ := hstops none (by simp)
      cases hnone
termination_by (state.byteStream.length, state.lineBuffer.length, state.pending.length)
decreasing_by
  · exact Prod.Lex.right _ (Prod.Lex.right _ (by simp [hpending]))
  · rw [hsource, hbuffer]
    exact Prod.Lex.right _ (Prod.Lex.left _ _ hshorter)
  · exact Prod.Lex.left _ _ (by simp [hbytes'])

-- The byte stream is never polled past its end exactly if it fails, or no chunk comes from the
-- event that is open at its end.
theorem source_stops_iff (fromStr : FromStr) (byteStream : ByteStream) :
    (∀ polls, StopsAtEnd (askedInPolls fromStr polls (streamSseChunks byteStream))) ↔
      ∀ chunks : List (List UInt8), byteStream = chunks.map .ok →
        openChunks fromStr "" (countedLines chunks.flatten .normal) = [] := by
  constructor
  · intro hstops chunks hchunks
    by_contra hopen
    obtain ⟨polls, hasks⟩ := asks_past_end (streamSseChunks byteStream) chunks rfl hchunks hopen
    exact hasks (hstops polls)
  · intro hclean polls
    exact stopsAtEnd_of_clean fun chunks hchunks => hclean chunks hchunks

end Ends

def hiPayload : String :=
  "\x7b\"choices\":[\x7b\"index\":0,\"delta\":\x7b\"content\":\"hi\"\x7d\x7d]\x7d"

def hiFromStr : FromStr := fun text =>
  if text = hiPayload then
    .ok { choices := [{ index := 0, delta := { content := some "hi" }, finishReason := none }]
          usage := none }
  else .error "expected value at line 1 column 1"

def hiBytes : List UInt8 := ("data: " ++ hiPayload).toByteArray.data.toList

-- The last event has no blank line behind it: its chunk is handed out, and the byte stream is asked
-- once more.
theorem source_polled_past_end :
    ∃ polls, ¬StopsAtEnd (askedInPolls hiFromStr polls (streamSseChunks [.ok hiBytes])) :=
  asks_past_end (streamSseChunks [.ok hiBytes]) [hiBytes] rfl rfl (by decide +kernel)

end Mizan.Providers
