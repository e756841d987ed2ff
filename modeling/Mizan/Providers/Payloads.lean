import Mizan.Providers.TestParser

namespace Mizan.Providers

open Delimited

def DONE : String := "[DONE]"

-- What is read of the events of the lines, one after the other.
def rawPayloads (texts : List String) : List String := (countedEvents texts true).map trim

def payloads (texts : List String) : List String :=
  (rawPayloads texts).filter fun payload => payload ≠ DONE

-- A line that only one of the two parsers takes as it is: it is blank but not empty, or there are
-- blanks behind its data.
def Loose (line : String) : Prop :=
  trimEnd line = "" ∨ ∃ value, dataValue line = some value ∧ trimEnd value ≠ value

-- No data has come before or with a loose line.
def Undisturbed (block : List String) : Prop :=
  ∀ before line after, block = before ++ line :: after → Loose line →
    eventData (before ++ [line]) = ""

-- No loose line stands between two lines with data, or has data itself with more to come.
def Tight (block : List String) : Prop :=
  ∀ before line after, block = before ++ line :: after → Loose line →
    eventData (before ++ [line]) = "" ∨ eventData after = ""

def blocks (texts : List String) : List (List String) :=
  closed "" texts ++ [unfinished "" texts]

section Data

theorem dataValue_empty : dataValue "" = none := rfl

-- The blanks behind a line are the blanks behind its data.
theorem dataValue_trimEnd (line : String) :
    dataValue (trimEnd line) = (dataValue line).map trimEnd := by
  have hlast : ∀ rest : List Char, ("data:".toList ++ rest).rdropWhile isWhitespace =
      "data:".toList ++ rest.rdropWhile isWhitespace := by
    intro rest
    rw [rdropWhile_append]
    by_cases hrest : rest.rdropWhile isWhitespace = []
    · rw [if_pos hrest, hrest]
      decide
    · rw [if_neg hrest]
  rw [dataValue, dataValue, trimStart_trimEnd, Option.map_map]
  generalize trimStart line = start
  by_cases hdata : "data:".toList.isPrefixOf start.toList
  · obtain ⟨rest, hrest⟩ := List.isPrefixOf_iff_prefix.mp hdata
    have htrimmed : (trimEnd start).toList = "data:".toList ++ rest.rdropWhile isWhitespace := by
      rw [toList_trimEnd, ← hrest, hlast]
    have hkept : stripPrefix start "data:" = some (String.ofList rest) := by
      rw [stripPrefix, if_pos hdata, ← hrest, List.drop_left]
    have hkept' : stripPrefix (trimEnd start) "data:" = some (trimEnd (String.ofList rest)) := by
      have hpre : "data:".toList.isPrefixOf (trimEnd start).toList := by
        rw [htrimmed, List.isPrefixOf_iff_prefix]
        exact List.prefix_append _ _
      rw [stripPrefix, if_pos hpre, htrimmed, List.drop_left, trimEnd, String.toList_ofList]
    rw [hkept, hkept', Option.map_some, Option.map_some, trimStart_trimEnd]
    rfl
  · have hpre : ¬"data:".toList.isPrefixOf (trimEnd start).toList := by
      intro hpre
      apply hdata
      rw [List.isPrefixOf_iff_prefix] at hpre ⊢
      rw [toList_trimEnd] at hpre
      exact hpre.trans (List.rdropWhile_prefix _ _)
    have hnone : stripPrefix start "data:" = none := if_neg hdata
    have hnone' : stripPrefix (trimEnd start) "data:" = none := if_neg hpre
    rw [hnone, hnone', Option.map_none, Option.map_none]

theorem eventData_append_of_none {line : String} (hvalue : dataValue line = none)
    (block : List String) : eventData (block ++ [line]) = eventData block := by
  rw [eventData_append_singleton, appendLine_eq, hvalue]
  rfl

theorem eventData_append_of_some {line value : String} (hvalue : dataValue line = some value)
    (block : List String) :
    eventData (block ++ [line]) = separated (eventData block) ++ value := by
  rw [eventData_append_singleton, appendLine_eq, hvalue]
  rfl

theorem separated_eq_empty {data : String} : separated data = "" ↔ data = "" := by
  by_cases hdata : data = ""
  · simp [hdata, separated]
  · rw [separated_of_ne hdata]
    simp [hdata]

theorem length_separated (data : String) :
    (separated data).length = if data = "" then 0 else data.length + 1 := by
  by_cases hdata : data = ""
  · rw [if_pos hdata, hdata]
    rfl
  · rw [if_neg hdata, separated_of_ne hdata, String.length_append]
    rfl

theorem length_separated_le (data : String) : (separated data).length ≤ data.length + 1 := by
  rw [length_separated]
  split <;> omega

theorem eventData_append_eq_empty {front back : List String} :
    eventData (front ++ back) = "" ↔ eventData front = "" ∧ eventData back = "" := by
  induction back using List.reverseRecOn with
  | nil => simp [eventData_nil]
  | append_singleton back line ih =>
    rw [← List.append_assoc]
    cases hvalue : dataValue line with
    | none => rw [eventData_append_of_none hvalue, eventData_append_of_none hvalue, ih]
    | some value =>
      rw [eventData_append_of_some hvalue, eventData_append_of_some hvalue,
        String.append_eq_empty_iff,
        String.append_eq_empty_iff, separated_eq_empty, separated_eq_empty, ih, and_assoc]

end Data

section Payloads

variable {texts : List String} {line value : String}

-- The payloads of the events that are over, and the data of the event that is open.
def endedPayloads (texts : List String) : List String :=
  (((closed "" texts).map eventData).filter fun data => !(trim data).isEmpty).map trim

def openData (texts : List String) : String := eventData (unfinished "" texts)

theorem rawPayloads_eq (texts : List String) : rawPayloads texts = endedPayloads texts ++
    if openData texts = "" then [] else [trim (openData texts)] := by
  have hcounted : countedEvents texts true = ((closed "" texts ++ [unfinished "" texts]).map
      eventData).filter fun data => !(trim data).isEmpty := rfl
  have hlast : ([openData texts].filter fun data => !(trim data).isEmpty).map trim =
      if openData texts = "" then [] else [trim (openData texts)] := by
    by_cases hopen : openData texts = ""
    · have hblank : (trim "").isEmpty := by decide
      simp [hopen, hblank]
    · have hblank : (trim (openData texts)).isEmpty = false := by
        by_contra hblank
        exact hopen (eventData_eq_empty_of_blank (Bool.not_eq_false _ ▸ hblank))
      simp [hopen, hblank]
  rw [rawPayloads, hcounted, List.map_append, List.filter_append, List.map_append,
    List.map_singleton,
    ← openData, hlast, endedPayloads]

theorem endedPayloads_blank (texts : List String) :
    endedPayloads (texts ++ [""]) = rawPayloads texts := by
  rw [endedPayloads, closed_append_separator]
  rfl

theorem openData_blank (texts : List String) : openData (texts ++ [""]) = "" := by
  rw [openData, unfinished_append_separator, eventData_nil]

theorem endedPayloads_line (hline : line ≠ "") (texts : List String) :
    endedPayloads (texts ++ [line]) = endedPayloads texts := by
  rw [endedPayloads, closed_append_of_ne hline, endedPayloads]

theorem openData_line (hline : line ≠ "") (texts : List String) :
    openData (texts ++ [line]) = appendLine (openData texts) line := by
  rw [openData, unfinished_append_of_ne hline, eventData_append_singleton, openData]

theorem trim_openData (texts : List String) : trim (openData texts) = trimEnd (openData texts) :=
  trim_of_begins (trimStart_eventData _)

-- A line without data at the end of the lines changes nothing that is read.
theorem rawPayloads_silent (hsilent : ∀ value, dataValue line = some value → value = "")
    (texts : List String) : rawPayloads (texts ++ [line]) = rawPayloads texts := by
  by_cases hline : line = ""
  · rw [hline, rawPayloads_eq, endedPayloads_blank, openData_blank, if_pos rfl, List.append_nil]
  · rw [rawPayloads_eq, rawPayloads_eq, endedPayloads_line hline]
    have hopen : openData (texts ++ [line]) = separated (openData texts) ∨
        openData (texts ++ [line]) = openData texts := by
      rw [openData_line hline, appendLine_eq]
      cases hvalue : dataValue line with
      | none => exact Or.inr rfl
      | some value =>
        rw [hsilent value hvalue]
        exact Or.inl String.append_empty
    rcases hopen with hopen | hopen
    · rw [trim_openData, trim_openData, hopen]
      by_cases hempty : openData texts = ""
      · rw [hempty]
        rfl
      · have hnewline : trimEnd "\n" = "" := by decide
        rw [separated_of_ne hempty, trimEnd_append, if_pos hnewline, if_neg hempty,
          if_neg (by simp [hempty])]
    · rw [hopen]

-- A line with data ends what is read with its data.
theorem rawPayloads_data (hvalue : dataValue line = some value) (hne : value ≠ "")
    (texts : List String) :
    rawPayloads (texts ++ [line]) =
      endedPayloads texts ++ [separated (openData texts) ++ trimEnd value] := by
  have hline : line ≠ "" := by
    rintro rfl
    cases hvalue
  have hopen : openData (texts ++ [line]) = separated (openData texts) ++ value := by
    rw [openData_line hline, appendLine_eq, hvalue]
    rfl
  have hblank : trimEnd value ≠ "" := by
    rwa [ne_eq, trimEnd_eq_empty (trimStart_dataValue hvalue)]
  have hsome : separated (openData texts) ++ value ≠ "" := by simp [hne]
  rw [rawPayloads_eq, endedPayloads_line hline, trim_openData, hopen, if_neg hsome, trimEnd_append,
    if_neg hblank]

theorem payloads_cut (texts rest : List String) :
    payloads (texts ++ "" :: rest) = payloads texts ++ payloads rest := by
  have hblock : ∀ block rest : List String, "" ∉ block →
      payloads (block ++ "" :: rest) = payloads block ++ payloads rest := by
    intro block rest hblock
    rw [payloads, payloads, payloads, rawPayloads, rawPayloads, rawPayloads,
      countedEvents_closed hblock, countedEvents_nil hblock, List.map_append, List.filter_append]
    by_cases hblank : (trim (eventData block)).isEmpty <;> simp [hblank]
  induction texts using fields_induction "" with
  | unfinished field hfield => exact hblock field rest hfield
  | ended field more hfield ih =>
    rw [List.append_assoc, List.cons_append, hblock _ _ hfield, ih, hblock _ _ hfield,
      List.append_assoc]

theorem openData_block {block : List String} (hblock : "" ∉ block) :
    openData block = eventData block ∧ endedPayloads block = [] := by
  rw [openData, endedPayloads, unfinished_of_not_mem hblock, closed_of_not_mem hblock]
  exact ⟨rfl, rfl⟩

end Payloads

end Mizan.Providers
