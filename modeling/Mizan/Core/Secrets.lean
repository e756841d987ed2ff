import Mizan.Core.Redaction
import Mizan.Delimited.Infix

namespace Mizan

-- No sensitive prefix occurs in the text.
def Clean (text : List Char) : Prop :=
  ∀ sensitive ∈ SENSITIVE_PREFIXES, ¬sensitive.toList <:+: text

instance (text : List Char) : Decidable (Clean text) :=
  inferInstanceAs (Decidable (∀ sensitive ∈ SENSITIVE_PREFIXES, ¬sensitive.toList <:+: text))

-- A character that no sensitive prefix contains.
def Separates (character : Char) : Prop :=
  ∀ sensitive ∈ SENSITIVE_PREFIXES, character ∉ sensitive.toList

instance (character : Char) : Decidable (Separates character) :=
  inferInstanceAs (Decidable (∀ sensitive ∈ SENSITIVE_PREFIXES, character ∉ sensitive.toList))

theorem clean_append_cons {separator : Char} (hseparates : Separates separator)
    {before after : List Char} :
    Clean (before ++ separator :: after) ↔ Clean before ∧ Clean after := by
  simp only [Clean]
  constructor
  · intro h
    exact ⟨fun sensitive hmem hinfix => h sensitive hmem
        ((Delimited.infix_append_cons (hseparates sensitive hmem)).mpr (.inl hinfix)),
      fun sensitive hmem hinfix => h sensitive hmem
        ((Delimited.infix_append_cons (hseparates sensitive hmem)).mpr (.inr hinfix))⟩
  · rintro ⟨hbefore, hafter⟩ sensitive hmem hinfix
    rcases (Delimited.infix_append_cons (hseparates sensitive hmem)).mp hinfix with h | h
    · exact hbefore sensitive hmem h
    · exact hafter sensitive hmem h

theorem separates_of_isWhitespace {character : Char} (h : isWhitespace character = true) :
    Separates character := by
  have hprefixes : (SENSITIVE_PREFIXES.all fun sensitive =>
      sensitive.toList.all fun other => !isWhitespace other) = true := by
    decide
  intro sensitive hmem hcontains
  have hother := List.all_eq_true.mp
    (List.all_eq_true.mp hprefixes sensitive hmem) character hcontains
  rw [h] at hother
  cases hother

theorem matchingSensitivePrefix_none {text : List Char} (h : matchingSensitivePrefix text = none) :
    ∀ sensitive ∈ SENSITIVE_PREFIXES, ¬sensitive.toList <+: text := by
  intro sensitive hmem hstarts
  have hnone := List.find?_eq_none.mp h sensitive hmem
  exact hnone (List.isPrefixOf_iff_prefix.mpr hstarts)

-- The mark begins with a character that no secret has.
theorem prefix_of_redactFrom {pattern : List Char} (hfree : '[' ∉ pattern) (text : List Char)
    (h : pattern <+: redactFrom 0 false text) : pattern <+: text := by
  induction text generalizing pattern with
  | nil => exact h
  | cons character rest ih =>
      cases pattern with
      | nil => exact List.nil_prefix
      | cons first pattern =>
          simp only [redactFrom, Bool.false_and, Bool.false_eq_true, if_false] at h
          split at h
          · rename_i sensitive _
            have hmark : '[' :: "REDACTED]".toList = REDACTED.toList := by decide
            rw [← hmark, List.cons_append, List.cons_prefix_cons] at h
            exact absurd (h.1 ▸ List.mem_cons_self) hfree
          · rw [List.cons_prefix_cons] at h ⊢
            exact ⟨h.1, ih (fun hmem => hfree (List.mem_cons_of_mem first hmem)) h.2⟩

theorem sensitive_ne_nil {sensitive : String} (hmem : sensitive ∈ SENSITIVE_PREFIXES) :
    sensitive.toList ≠ [] := by
  have hempty : ∀ sensitive ∈ SENSITIVE_PREFIXES, sensitive.toList ≠ [] := by decide
  exact hempty sensitive hmem

-- No sensitive prefix begins inside the mark.
theorem infix_mark_append {sensitive : String} (hmem : sensitive ∈ SENSITIVE_PREFIXES)
    {text : List Char} (h : sensitive.toList <:+: REDACTED.toList ++ text) :
    sensitive.toList <:+: text := by
  have hmark : (SENSITIVE_PREFIXES.all fun sensitive =>
      REDACTED.toList.all fun character => sensitive.toList.head? ≠ some character) = true := by
    decide
  have hstarts : ∀ character ∈ REDACTED.toList, sensitive.toList.head? ≠ some character := by
    intro character hcharacter
    simpa using List.all_eq_true.mp (List.all_eq_true.mp hmark sensitive hmem) character hcharacter
  generalize REDACTED.toList = mark at h hstarts
  induction mark with
  | nil => exact h
  | cons character mark ih =>
      rw [List.cons_append, List.infix_cons_iff] at h
      obtain hfirst | hlater := h
      · cases hsensitive : sensitive.toList with
        | nil => exact absurd hsensitive (sensitive_ne_nil hmem)
        | cons first pattern =>
            rw [hsensitive, List.cons_prefix_cons] at hfirst
            have hhead := hstarts character List.mem_cons_self
            rw [hsensitive, hfirst.1] at hhead
            exact absurd rfl hhead
      · exact ih hlater fun other hother => hstarts other (List.mem_cons_of_mem character hother)

theorem bracket_not_mem {sensitive : String} (hmem : sensitive ∈ SENSITIVE_PREFIXES) :
    '[' ∉ sensitive.toList := by
  have hprefixes : ∀ sensitive ∈ SENSITIVE_PREFIXES, '[' ∉ sensitive.toList := by decide
  exact hprefixes sensitive hmem

theorem clean_nil : Clean [] := by decide

theorem clean_redactFrom (skip : Nat) (secret : Bool) (text : List Char) :
    Clean (redactFrom skip secret text) := by
  induction text generalizing skip secret with
  | nil => cases skip <;> exact clean_nil
  | cons character rest ih =>
      cases skip with
      | succ skip => exact ih skip true
      | zero =>
          simp only [redactFrom]
          split
          · exact ih 0 true
          · split
            · intro sensitive hmem h
              exact ih _ true sensitive hmem (infix_mark_append hmem h)
            · rename_i hnone
              intro sensitive hmem h
              obtain hfirst | hlater := List.infix_cons_iff.mp h
              · have hunmatched := matchingSensitivePrefix_none hnone sensitive hmem
                have hbracket := bracket_not_mem hmem
                generalize sensitive.toList = pattern at hfirst hunmatched hbracket
                cases pattern with
                | nil => exact hunmatched List.nil_prefix
                | cons first pattern =>
                    rw [List.cons_prefix_cons] at hfirst
                    refine hunmatched (List.cons_prefix_cons.mpr ⟨hfirst.1, ?_⟩)
                    exact prefix_of_redactFrom
                      (fun hmem => hbracket (List.mem_cons_of_mem first hmem)) rest hfirst.2
              · exact ih 0 false sensitive hmem hlater

theorem clean_redactText (segment text : List Char) : Clean (redactText segment text) := by
  induction text generalizing segment with
  | nil => exact clean_redactFrom 0 false segment
  | cons character rest ih =>
      simp only [redactText]
      split
      · rename_i hspace
        rw [clean_append_cons (separates_of_isWhitespace hspace)]
        exact ⟨clean_redactFrom 0 false segment, ih []⟩
      · exact ih (segment ++ [character])

theorem clean_redactForLogs (value : String) : Clean (redactForLogs value).toList := by
  rw [redactForLogs, String.toList_ofList]
  exact clean_redactText [] value.toList

end Mizan
