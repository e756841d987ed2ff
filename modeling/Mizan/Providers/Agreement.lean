import Mizan.Providers.Payloads

namespace Mizan.Providers

open Delimited

section Blocks

variable {block : List String} {line : String}

def size (texts : List String) : Nat := (texts.map String.length).sum

theorem size_append (front back : List String) : size (front ++ back) = size front + size back := by
  simp [size]

theorem size_filter_le (p : String → Bool) (texts : List String) :
    size (texts.filter p) ≤ size texts := by
  induction texts with
  | nil => simp
  | cons text texts ih =>
    rw [List.filter_cons]
    split
    · simp only [size, List.map_cons, List.sum_cons] at ih ⊢
      omega
    · simp only [size, List.map_cons, List.sum_cons] at ih ⊢
      omega

theorem undisturbed_append : Undisturbed (block ++ [line]) ↔
    Undisturbed block ∧ (Loose line → eventData (block ++ [line]) = "") := by
  constructor
  · intro hquiet
    refine ⟨fun before loose after hsplit hloose => ?_, fun hloose => ?_⟩
    · exact hquiet before loose (after ++ [line]) (by simp [hsplit]) hloose
    · exact hquiet block line [] rfl hloose
  · rintro ⟨hquiet, hlast⟩ before loose after hsplit hloose
    rcases List.eq_nil_or_concat after with rfl | ⟨front, last, rfl⟩
    · obtain ⟨rfl, hline⟩ := List.append_inj' hsplit rfl
      obtain rfl := List.singleton_inj.mp hline
      exact hlast hloose
    · have hfront : block ++ [line] = (before ++ loose :: front) ++ [last] := by simpa using hsplit
      obtain ⟨hblock, -⟩ := List.append_inj' hfront rfl
      exact hquiet before loose front hblock hloose

theorem tight_append_silent (hsilent : eventData [line] = "") :
    Tight (block ++ [line]) ↔ Tight block := by
  constructor
  · intro htight before loose after hsplit hloose
    have hnext := htight before loose (after ++ [line]) (by simp [hsplit]) hloose
    exact hnext.imp_right fun hafter => (eventData_append_eq_empty.mp hafter).1
  · intro htight before loose after hsplit hloose
    rcases List.eq_nil_or_concat after with rfl | ⟨front, last, rfl⟩
    · exact Or.inr eventData_nil
    · have hfront : block ++ [line] = (before ++ loose :: front) ++ [last] := by simpa using hsplit
      obtain ⟨hblock, hline⟩ := List.append_inj' hfront rfl
      obtain rfl := List.singleton_inj.mp hline
      refine (htight before loose front hblock hloose).imp_right fun hafter => ?_
      rw [List.concat_eq_append, eventData_append_eq_empty]
      exact ⟨hafter, hsilent⟩

theorem tight_append_data (hdata : eventData [line] ≠ "") :
    Tight (block ++ [line]) ↔ Undisturbed block := by
  constructor
  · intro htight before loose after hsplit hloose
    have hnext := htight before loose (after ++ [line]) (by simp [hsplit]) hloose
    exact hnext.resolve_right fun hafter => hdata (eventData_append_eq_empty.mp hafter).2
  · intro hquiet before loose after hsplit hloose
    rcases List.eq_nil_or_concat after with rfl | ⟨front, last, rfl⟩
    · exact Or.inr eventData_nil
    · have hfront : block ++ [line] = (before ++ loose :: front) ++ [last] := by simpa using hsplit
      obtain ⟨hblock, -⟩ := List.append_inj' hfront rfl
      exact Or.inl (hquiet before loose front hblock hloose)

-- The parser of the tests, which cuts and trims at loose lines, is where the other one is as long
-- as the lines are undisturbed, and has less data after that.
theorem undisturbed_or_behind (hblock : "" ∉ block) :
    (Undisturbed block ∧ endedPayloads (block.map trimEnd) = [] ∧
        openData (block.map trimEnd) = eventData block) ∨
      (¬Undisturbed block ∧
        size (endedPayloads (block.map trimEnd)) +
            (separated (openData (block.map trimEnd))).length <
          (separated (eventData block)).length) := by
  induction block using List.reverseRecOn with
  | nil =>
    left
    refine ⟨fun before loose after hsplit => ?_, rfl, rfl⟩
    simp at hsplit
  | append_singleton block line ih =>
    have hline : line ≠ "" := by
      rintro rfl
      exact hblock (by simp)
    have ih := ih fun hmem => hblock (by simp [hmem])
    rw [List.map_append, List.map_singleton, undisturbed_append]
    by_cases hend : trimEnd line = ""
    · have hloose : Loose line := Or.inl hend
      have hvalue : dataValue line = none := by
        have htrimmed := dataValue_trimEnd line
        rw [hend, dataValue_empty] at htrimmed
        exact Option.map_eq_none_iff.mp htrimmed.symm
      rw [hend, endedPayloads_blank, openData_blank, eventData_append_of_none hvalue,
        rawPayloads_eq]
      rcases ih with ⟨hquiet, hended, hopen⟩ | ⟨hquiet, hbehind⟩
      · rw [hended, hopen]
        by_cases hempty : eventData block = ""
        · left
          exact ⟨⟨hquiet, fun _ => hempty⟩, by simp [hempty], hempty.symm⟩
        · right
          refine ⟨fun h => hempty (h.2 hloose), ?_⟩
          have hle := length_trimEnd_le (eventData block)
          rw [if_neg hempty, List.nil_append, length_separated (eventData block), if_neg hempty,
            trim_of_begins (trimStart_eventData block)]
          simp only [size, List.map_singleton, List.sum_singleton]
          change (trimEnd (eventData block)).length + 0 < _
          omega
      · right
        refine ⟨fun h => hquiet h.1, ?_⟩
        rw [size_append]
        change _ + 0 < _
        by_cases hempty : openData (block.map trimEnd) = ""
        · rw [if_pos hempty]
          change size _ + 0 + 0 < _
          omega
        · have hle := length_trimEnd_le (openData (block.map trimEnd))
          rw [if_neg hempty, trim_openData]
          rw [length_separated (openData _), if_neg hempty] at hbehind
          simp only [size, List.map_singleton, List.sum_singleton] at hbehind ⊢
          omega
    · have htrimmed := dataValue_trimEnd line
      rw [endedPayloads_line hend, openData_line hend, appendLine_eq, htrimmed]
      cases hvalue : dataValue line with
      | none =>
        have hloose : ¬Loose line := by
          rintro (hblank | ⟨value, hsome, -⟩)
          · exact hend hblank
          · rw [hvalue] at hsome
            cases hsome
        rw [eventData_append_of_none hvalue]
        simpa [hloose] using ih
      | some value =>
        have hbegins := trimStart_dataValue hvalue
        have hloose : Loose line ↔ trimEnd value ≠ value := by
          constructor
          · rintro (hblank | ⟨other, hsome, hother⟩)
            · exact absurd hblank hend
            · rw [hvalue] at hsome
              rwa [Option.some.inj hsome]
          · intro hne
            exact Or.inr ⟨value, hvalue, hne⟩
        rw [eventData_append_of_some hvalue]
        change (_ ∧ _ ∧ separated _ ++ trimEnd value = _) ∨ (_ ∧ _ + (separated
          (separated _ ++ trimEnd value)).length < _)
        rcases ih with ⟨hquiet, hended, hopen⟩ | ⟨hquiet, hbehind⟩
        · rw [hended, hopen]
          by_cases hsame : trimEnd value = value
          · left
            exact ⟨⟨hquiet, fun h => absurd hsame (hloose.mp h)⟩, rfl, by rw [hsame]⟩
          · right
            have hne : value ≠ "" := by
              rintro rfl
              exact hsame rfl
            have hsome : separated (eventData block) ++ value ≠ "" := by simp [hne]
            refine ⟨fun h => hsome (h.2 (hloose.mpr hsame)), ?_⟩
            have hlt := length_trimEnd_lt hsame
            have hle := length_separated_le (separated (eventData block) ++ trimEnd value)
            rw [length_separated (_ ++ value), if_neg hsome]
            rw [String.length_append] at hle ⊢
            change 0 + _ < _
            omega
        · right
          refine ⟨fun h => hquiet h.1, ?_⟩
          have hlt := length_trimEnd_le value
          have hle := length_separated_le
            (separated (openData (block.map trimEnd)) ++ trimEnd value)
          have hsome : separated (eventData block) ++ value ≠ "" := by
            intro hempty
            rw [(String.append_eq_empty_iff.mp hempty).1] at hbehind
            exact absurd hbehind (Nat.not_lt_zero _)
          rw [length_separated (_ ++ value), if_neg hsome]
          rw [String.length_append] at hle ⊢
          omega

theorem payloads_silent (hsilent : ∀ value, dataValue line = some value → value = "")
    (texts : List String) : payloads (texts ++ [line]) = payloads texts := by
  rw [payloads, rawPayloads_silent hsilent, payloads]

-- The data of one block is read alike where it is tight; elsewhere the parser of the tests reads
-- less.
theorem tight_or_smaller (hblock : "" ∉ block) :
    (Tight block ∧ payloads (block.map trimEnd) = payloads block) ∨
      (¬Tight block ∧ size (payloads (block.map trimEnd)) < size (payloads block)) := by
  induction block using List.reverseRecOn with
  | nil =>
    left
    refine ⟨fun before loose after hsplit => ?_, rfl⟩
    simp at hsplit
  | append_singleton block line ih =>
    have hfront : "" ∉ block := fun hmem => hblock (by simp [hmem])
    have htrimmed := dataValue_trimEnd line
    rw [List.map_append, List.map_singleton]
    have hsingle : eventData [line] = (dataValue line).getD "" := by
      have happend := eventData_append_singleton [] line
      rw [List.nil_append, eventData_nil, appendLine_eq] at happend
      rw [happend]
      cases dataValue line with
      | none => rfl
      | some value => exact String.empty_append
    by_cases hdata : eventData [line] = ""
    · have hsilent : ∀ value, dataValue line = some value → value = "" := by
        intro value hvalue
        rw [hsingle, hvalue] at hdata
        exact hdata
      have hsilent' : ∀ value, dataValue (trimEnd line) = some value → value = "" := by
        intro value hvalue
        rw [htrimmed] at hvalue
        obtain ⟨original, horiginal, rfl⟩ := Option.map_eq_some_iff.mp hvalue
        rw [hsilent original horiginal]
        rfl
      rw [payloads_silent hsilent, payloads_silent hsilent', tight_append_silent hdata]
      exact ih hfront
    · obtain ⟨value, hvalue, hne⟩ : ∃ value, dataValue line = some value ∧ value ≠ "" := by
        cases hvalue : dataValue line with
        | none => exact absurd (by rw [hsingle, hvalue]; rfl) hdata
        | some value =>
          rw [hsingle, hvalue] at hdata
          exact ⟨value, rfl, hdata⟩
      have hblank : trimEnd value ≠ "" := by
        rwa [ne_eq, trimEnd_eq_empty (trimStart_dataValue hvalue)]
      have hvalue' : dataValue (trimEnd line) = some (trimEnd value) := by
        rw [htrimmed, hvalue]
        rfl
      obtain ⟨hopen, hended⟩ := openData_block hfront
      rw [tight_append_data hdata, payloads, payloads, rawPayloads_data hvalue hne,
        rawPayloads_data hvalue' hblank, trimEnd_trimEnd, hopen, hended, List.nil_append]
      rcases undisturbed_or_behind hfront with ⟨hquiet, hended', hopen'⟩ | ⟨hquiet, hbehind⟩
      · left
        rw [hended', hopen', List.nil_append]
        exact ⟨hquiet, rfl⟩
      · right
        refine ⟨hquiet, ?_⟩
        -- there is data before, so that the payload has a newline
        have hsome : eventData block ≠ "" := by
          intro hempty
          rw [hempty] at hbehind
          exact absurd hbehind (Nat.not_lt_zero _)
        have hdone : separated (eventData block) ++ trimEnd value ≠ DONE := by
          intro hdone
          have hnewline : '\n' ∈ (separated (eventData block) ++ trimEnd value).toList := by
            rw [separated_of_ne hsome]
            simp
          rw [hdone] at hnewline
          exact absurd hnewline (by decide)
        have hkept : [separated (eventData block) ++ trimEnd value].filter
            (fun payload => payload ≠ DONE) = [separated (eventData block) ++ trimEnd value] := by
          simp [hdone]
        have hle := size_filter_le (fun payload => payload ≠ DONE)
          (endedPayloads (block.map trimEnd) ++
            [separated (openData (block.map trimEnd)) ++ trimEnd value])
        rw [size_append] at hle
        rw [hkept]
        simp only [size, List.map_singleton, List.sum_singleton,
          String.length_append] at hle hbehind ⊢
        omega

end Blocks

section Bodies

-- The two parsers read the same exactly where every block between empty lines is tight.
theorem payloads_eq_iff (texts : List String) :
    payloads (texts.map trimEnd) = payloads texts ↔ ∀ block ∈ blocks texts, Tight block := by
  -- sizes add up, so that blocks that differ cannot make up for each other
  have hsizes : size (payloads (texts.map trimEnd)) ≤ size (payloads texts) ∧
      (size (payloads (texts.map trimEnd)) = size (payloads texts) →
        ∀ block ∈ blocks texts, Tight block) ∧
      ((∀ block ∈ blocks texts, Tight block) →
        payloads (texts.map trimEnd) = payloads texts) := by
    induction texts using fields_induction "" with
    | unfinished field hfield =>
      rw [blocks, closed_of_not_mem hfield, unfinished_of_not_mem hfield, List.nil_append]
      simp only [List.mem_singleton, forall_eq]
      rcases tight_or_smaller hfield with ⟨htight, heq⟩ | ⟨htight, hlt⟩
      · exact ⟨by rw [heq], fun _ => htight, fun _ => heq⟩
      · exact ⟨by omega, fun heq => by omega, fun h => absurd h htight⟩
    | ended field rest hfield ih =>
      obtain ⟨hle, hall, heq⟩ := ih
      have hempty : trimEnd "" = "" := rfl
      have hblocks : blocks (field ++ "" :: rest) = field :: blocks rest := by
        rw [blocks, closed_append_cons hfield, unfinished_append_cons hfield, blocks,
          List.cons_append]
      rw [List.map_append, List.map_cons, hempty, payloads_cut, payloads_cut, size_append,
        size_append, hblocks]
      simp only [List.mem_cons, forall_eq_or_imp]
      rcases tight_or_smaller hfield with ⟨htight, hsame⟩ | ⟨htight, hlt⟩
      · rw [hsame]
        exact ⟨by omega, fun h => ⟨htight, hall (by omega)⟩, fun h => by rw [heq h.2]⟩
      · exact ⟨by omega, fun h => by omega, fun h => absurd h.1 htight⟩
  exact ⟨fun heq => hsizes.2.1 (by rw [heq]), hsizes.2.2⟩

end Bodies

end Mizan.Providers
