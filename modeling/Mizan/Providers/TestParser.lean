import Mizan.Core.Lines
import Mizan.Providers.Chunking

namespace Mizan.Providers

open Delimited

-- The loop of the parser that only the tests call. A blank line does not clear blank data.
def readLines (fromStr : FromStr) (chunks : List ChatStreamChunk) (eventData : String) :
    List String → AppResult (List ChatStreamChunk × String)
  | [] => .ok (chunks, eventData)
  | rawLine :: rest =>
      let line := trimEnd rawLine
      if line.isEmpty then
        if (trim eventData).isEmpty then readLines fromStr chunks eventData rest
        else
          match parseStreamEvent fromStr eventData with
          | .error error => .error error
          | .ok parsed => readLines fromStr (chunks ++ parsed) "" rest
      else
        let trimmed := trimStart line
        if (stripPrefix trimmed ":").isSome then readLines fromStr chunks eventData rest
        else
          match stripPrefix trimmed "data:" with
          | some value =>
              let data := if eventData.isEmpty then eventData else eventData.push '\n'
              readLines fromStr chunks (data ++ trimStart value) rest
          | none => readLines fromStr chunks eventData rest

def parseStreamEvents (fromStr : FromStr) (rawBody : String) : AppResult (List ChatStreamChunk) :=
  match readLines fromStr [] "" (lines rawBody) with
  | .error error => .error error
  | .ok (chunks, eventData) =>
      match eventChunks fromStr eventData with
      | .error error => .error error
      | .ok parsed =>
          if (chunks ++ parsed).isEmpty then .error emptyError else .ok (chunks ++ parsed)

-- The data of an event with the newline before its next line.
def separated (data : String) : String := if data.isEmpty then data else data.push '\n'

section Lines

variable {fromStr : FromStr}

theorem separated_of_ne {data : String} (hdata : data ≠ "") : separated data = data ++ "\n" := by
  rw [separated, if_neg (by simpa using hdata)]
  rfl

theorem appendLine_eq (data line : String) :
    appendLine data line =
      ((dataValue line).map fun value => separated data ++ value).getD data := by
  rw [appendLine]
  cases dataValue line <;> rfl

theorem trimStart_dataValue {line value : String} (h : dataValue line = some value) :
    trimStart value = value := by
  obtain ⟨rest, -, rfl⟩ := Option.map_eq_some_iff.mp h
  exact trimStart_trimStart rest

-- The data of an event begins with something that is not blank, when it is not empty.
theorem trimStart_eventData (block : List String) :
    trimStart (eventData block) = eventData block := by
  induction block using List.reverseRecOn with
  | nil => rfl
  | append_singleton block line ih =>
    rw [eventData_append_singleton, appendLine_eq]
    cases hvalue : dataValue line with
    | none => exact ih
    | some value =>
      change trimStart (separated (eventData block) ++ value) = separated (eventData block) ++ value
      by_cases hempty : eventData block = ""
      · rw [hempty]
        change trimStart ("" ++ value) = "" ++ value
        rw [String.empty_append, trimStart_dataValue hvalue]
      · rw [separated_of_ne hempty, String.append_assoc]
        exact trimStart_append ih hempty _

theorem eventData_eq_empty_of_blank {block : List String}
    (hblank : (trim (eventData block)).isEmpty) : eventData block = "" := by
  have hbegins := trimStart_eventData block
  rw [trim_of_begins hbegins, String.isEmpty_iff, trimEnd_eq_empty hbegins] at hblank
  exact hblank

theorem readLines_data {chunks : List ChatStreamChunk} {eventData rawLine : String}
    (hline : (trimEnd rawLine).isEmpty = false) (rest : List String) :
    readLines fromStr chunks eventData (rawLine :: rest) =
      readLines fromStr chunks (appendLine eventData (trimEnd rawLine)) rest := by
  rw [readLines]
  simp only [hline, Bool.false_eq_true, if_false, appendLine]
  by_cases hcomment : (stripPrefix (trimStart (trimEnd rawLine)) ":").isSome
  · rw [dataValue_eq_none_of_comment hcomment]
    simp [hcomment]
  · simp only [hcomment, Bool.false_eq_true, if_false, dataValue]
    cases stripPrefix (trimStart (trimEnd rawLine)) "data:" <;> rfl

-- What the parser makes of the lines: the events are cut at the lines that are blank when trimmed,
-- and read one after the other up to the first failure.
theorem readLines_eq (rawLines : List String) :
    ∀ (chunks : List ChatStreamChunk) (block : List String), "" ∉ block →
      ((readLines fromStr chunks (eventData block) rawLines).bind fun read =>
          (eventChunks fromStr read.2).map fun parsed => read.1 ++ parsed) =
        ((countedEvents (block ++ rawLines.map trimEnd) true).mapM (parseStreamEvent fromStr)).map
          fun parsed => chunks ++ parsed.flatten := by
  induction rawLines with
  | nil =>
    intro chunks block hblock
    rw [List.map_nil, List.append_nil, countedEvents_nil hblock, readLines, Except.bind,
      eventChunks]
    by_cases hblank : (trim (eventData block)).isEmpty
    · simp [hblank, Except.map, pure, Except.pure]
    · cases hparse : parseStreamEvent fromStr (eventData block) with
      | error error => simp [hblank, hparse, Except.map]
      | ok parsed => simp [hblank, hparse, Except.map]
  | cons rawLine rawLines ih =>
    intro chunks block hblock
    rw [List.map_cons]
    by_cases hline : (trimEnd rawLine).isEmpty
    · rw [String.isEmpty_iff.mp hline, countedEvents_closed hblock, readLines]
      simp only [hline, if_true]
      by_cases hblank : (trim (eventData block)).isEmpty
      · have hnext := ih chunks [] List.not_mem_nil
        rw [eventData_nil, List.nil_append] at hnext
        rw [if_pos hblank, if_pos hblank, eventData_eq_empty_of_blank hblank, hnext,
          List.nil_append]
      · rw [if_neg hblank, if_neg hblank]
        cases hparse : parseStreamEvent fromStr (eventData block) with
        | error error =>
          rw [List.singleton_append, List.mapM_cons, hparse]
          rfl
        | ok parsed =>
          have hnext := ih (chunks ++ parsed) [] List.not_mem_nil
          rw [eventData_nil, List.nil_append] at hnext
          rw [List.singleton_append, List.mapM_cons, hparse]
          simp only [hnext]
          cases (countedEvents (rawLines.map trimEnd) true).mapM (parseStreamEvent fromStr) with
          | error error => rfl
          | ok read => simp [Except.map, Bind.bind, Except.bind, pure, Except.pure]
    · have hne : (trimEnd rawLine).isEmpty = false := by simpa using hline
      have hnext : "" ∉ block ++ [trimEnd rawLine] := by
        simp only [List.mem_append, List.mem_singleton, not_or]
        refine ⟨hblock, fun heq => ?_⟩
        rw [← heq] at hne
        cases hne
      have ih := ih chunks (block ++ [trimEnd rawLine]) hnext
      rw [eventData_append_singleton, List.append_assoc, List.singleton_append] at ih
      rw [readLines_data hne, ih]

theorem parseStreamEvents_eq (fromStr : FromStr) (rawBody : String) :
    parseStreamEvents fromStr rawBody =
      ((countedEvents ((lines rawBody).map trimEnd) true).mapM (parseStreamEvent fromStr)).bind
        fun parsed => if parsed.flatten.isEmpty then .error emptyError else .ok parsed.flatten := by
  have hread := @readLines_eq fromStr (lines rawBody) [] [] List.not_mem_nil
  rw [eventData_nil, List.nil_append] at hread
  have hparser : parseStreamEvents fromStr rawBody =
      ((readLines fromStr [] "" (lines rawBody)).bind fun read =>
        (eventChunks fromStr read.2).map fun parsed => read.1 ++ parsed).bind
          fun chunks => if chunks.isEmpty then .error emptyError else .ok chunks := by
    rw [parseStreamEvents]
    cases readLines fromStr [] "" (lines rawBody) with
    | error error => rfl
    | ok read =>
      obtain ⟨chunks, eventData⟩ := read
      rw [Except.bind]
      cases hchunks : eventChunks fromStr eventData <;> simp only [hchunks] <;> rfl
  rw [hparser, hread]
  cases (countedEvents ((lines rawBody).map trimEnd) true).mapM (parseStreamEvent fromStr) <;> rfl

-- The text of every line is read, since the bytes are those of a text.
theorem decoded_lines (body : String) :
    upToFailure decodeLine (countedLines (utf8 body.toList) .normal) = (lines body, none) := by
  have hdecode : ∀ texts : List (List Char),
      upToFailure decodeLine (texts.map utf8) = (texts.map String.ofList, none) := by
    intro texts
    induction texts with
    | nil => rfl
    | cons text texts ih =>
      have hline : decodeLine (utf8 text) = .ok (String.ofList text) := by
        have hround := fromUtf8_utf8 (String.ofList text)
        rw [String.toList_ofList] at hround
        rw [decodeLine, hround]
        rfl
      rw [List.map_cons, upToFailure_cons_ok hline, ih]
      rfl
  obtain ⟨hclosed, hunfinished⟩ := utf8_fields body.toList
  have hcounted : countedLines (utf8 body.toList) .normal =
      ((closed '\n' body.toList).map dropCarriageReturn ++
        if (unfinished '\n' body.toList).isEmpty then [] else [unfinished '\n' body.toList]).map
          utf8 := by
    have hstrip : ∀ line, lineContent (utf8 line) = utf8 (dropCarriageReturn line) := by
      intro line
      rw [← stripCarriageReturn_eq_lineContent]
      exact utf8_dropCarriageReturn line
    rw [countedLines]
    change (closed (UInt8.ofNat '\n'.toNat) _).map _ ++
      (if (unfinished (UInt8.ofNat '\n'.toNat) _).isEmpty then [] else [_]) = _
    rw [hclosed, hunfinished, List.map_map, List.map_append, List.map_map]
    congr 1
    · exact List.map_congr_left fun line _ => hstrip line
    · by_cases hopen : unfinished '\n' body.toList = []
      · simp [hopen, utf8]
      · have hbytes : utf8 (unfinished '\n' body.toList) ≠ [] := by rwa [ne_eq, utf8_eq_nil]
        simp [hopen, hbytes, List.isEmpty_iff]
        exact hunfinished
  rw [hcounted, hdecode, lines]

end Lines

end Mizan.Providers
