import Mizan.Core.Secrets
import Mathlib.Data.List.Find

namespace Mizan

-- A clean text is left alone.
theorem matchingSensitivePrefix_of_clean {text : List Char} (h : Clean text) :
    matchingSensitivePrefix text = none := by
  refine List.find?_eq_none.mpr fun sensitive hmem hstarts => ?_
  exact h sensitive hmem (List.isPrefixOf_iff_prefix.mp hstarts).isInfix

theorem Clean.of_part {text part : List Char} (h : Clean text) (hpart : part <:+: text) :
    Clean part :=
  fun sensitive hmem hinside => h sensitive hmem (hinside.trans hpart)

theorem redactFrom_of_clean {text : List Char} (h : Clean text) :
    redactFrom 0 false text = text := by
  induction text with
  | nil => rfl
  | cons character rest ih =>
      have hrest := ih (h.of_part (List.suffix_cons character rest).isInfix)
      simp only [redactFrom, Bool.false_and, Bool.false_eq_true, if_false,
        matchingSensitivePrefix_of_clean h, hrest]

theorem redactText_of_clean {segment text : List Char} (h : Clean (segment ++ text)) :
    redactText segment text = segment ++ text := by
  induction text generalizing segment with
  | nil =>
      rw [List.append_nil] at h ⊢
      exact redactFrom_of_clean h
  | cons character rest ih =>
      simp only [redactText]
      split
      · have hsegment := h.of_part (List.prefix_append segment (character :: rest)).isInfix
        have hrest : Clean ([] ++ rest) := h.of_part
          ((List.suffix_cons character rest).trans (List.suffix_append segment _)).isInfix
        rw [redactSegment, redactFrom_of_clean hsegment, ih hrest, List.nil_append]
      · rw [ih (by simpa using h), List.append_assoc]
        rfl

theorem redactForLogs_of_clean {value : String} (h : Clean value.toList) :
    redactForLogs value = value := by
  have hclean : Clean ([] ++ value.toList) := h
  rw [redactForLogs, redactText_of_clean hclean, List.nil_append, String.ofList_toList]

-- The whitespace goes through, and the mark adds none.
theorem filter_redactFrom {text : List Char} (skip : Nat) (secret : Bool)
    (h : ∀ character ∈ text, isWhitespace character = false) :
    (redactFrom skip secret text).filter isWhitespace = [] := by
  have hmark : REDACTED.toList.filter isWhitespace = [] := by decide
  induction text generalizing skip secret with
  | nil => cases skip <;> rfl
  | cons character rest ih =>
      have hcharacter := h character List.mem_cons_self
      have hrest := fun skip secret =>
        ih skip secret fun other hmem => h other (List.mem_cons_of_mem character hmem)
      cases skip with
      | succ skip => exact hrest skip true
      | zero =>
          simp only [redactFrom]
          split
          · exact hrest 0 true
          · split
            · rw [List.filter_append, hmark, hrest, List.append_nil]
            · rw [List.filter_cons, hcharacter, if_neg Bool.false_ne_true, hrest]

theorem filter_redactText {segment text : List Char}
    (h : ∀ character ∈ segment, isWhitespace character = false) :
    (redactText segment text).filter isWhitespace = text.filter isWhitespace := by
  induction text generalizing segment with
  | nil => exact filter_redactFrom 0 false h
  | cons character rest ih =>
      simp only [redactText]
      split
      · rename_i hspace
        rw [List.filter_append, redactSegment, filter_redactFrom 0 false h, List.nil_append,
          List.filter_cons, if_pos hspace, List.filter_cons, if_pos hspace, ih (by simp)]
      · rename_i hvisible
        have hsegment : ∀ other ∈ segment ++ [character], isWhitespace other = false := by
          intro other hmem
          rcases List.mem_append.mp hmem with hold | hnew
          · exact h other hold
          · rw [List.mem_singleton.mp hnew]
            exact eq_false_of_ne_true hvisible
        rw [ih hsegment, List.filter_cons, if_neg hvisible]

-- The characters of a secret: neither whitespace nor a boundary.
def InSecret (text : List Char) : Prop :=
  ∀ character ∈ text, isWhitespace character = false ∧ isSecretBoundary character = false

-- Once in a secret, the scanner only looks for its end.
theorem redactFrom_secret {secret rest : List Char} (h : InSecret secret) :
    redactFrom 0 true (secret ++ rest) = redactFrom 0 true rest := by
  induction secret with
  | nil => rfl
  | cons character secret ih =>
      have hcharacter := (h character List.mem_cons_self).2
      rw [List.cons_append, redactFrom, hcharacter]
      exact ih fun other hmem => h other (List.mem_cons_of_mem character hmem)

theorem redactFrom_skip {skipped rest : List Char} :
    redactFrom skipped.length true (skipped ++ rest) = redactFrom 0 true rest := by
  induction skipped with
  | nil => rfl
  | cons character skipped ih => exact ih

theorem inSecret_of_sensitive {sensitive : String} (hmem : sensitive ∈ SENSITIVE_PREFIXES) :
    InSecret sensitive.toList := by
  have hprefixes : (SENSITIVE_PREFIXES.all fun sensitive => sensitive.toList.all fun character =>
      !isWhitespace character && !isSecretBoundary character) = true := by
    decide
  intro character hcharacter
  have hall := List.all_eq_true.mp
    (List.all_eq_true.mp hprefixes sensitive hmem) character hcharacter
  simpa using hall

-- No sensitive prefix occurs inside another.
theorem eq_of_infix_sensitive {sensitive other : String} (hmem : sensitive ∈ SENSITIVE_PREFIXES)
    (hother : other ∈ SENSITIVE_PREFIXES) (h : other.toList <:+: sensitive.toList) :
    other = sensitive := by
  have hprefixes : (SENSITIVE_PREFIXES.all fun sensitive => SENSITIVE_PREFIXES.all fun other =>
      !decide (other.toList <:+: sensitive.toList) || other == sensitive) = true := by
    decide
  have hall := List.all_eq_true.mp (List.all_eq_true.mp hprefixes sensitive hmem) other hother
  simpa [h] using hall

-- A match that begins before a sensitive prefix does not reach beyond it.
theorem prefix_before_sensitive {sensitive other : String} (hmem : sensitive ∈ SENSITIVE_PREFIXES)
    (hother : other ∈ SENSITIVE_PREFIXES) {before rest : List Char} (hbefore : before ≠ []) :
    other.toList <+: before ++ sensitive.toList ++ rest ↔
      other.toList <+: before ++ sensitive.toList := by
  constructor
  · intro h
    rcases List.prefix_or_prefix_of_prefix h (List.prefix_append _ rest) with hshort | hlong
    · exact hshort
    · have hinside : sensitive.toList <:+: other.toList :=
        (List.suffix_append before _).isInfix.trans hlong.isInfix
      have heq := eq_of_infix_sensitive hother hmem hinside
      have hlength := hlong.length_le
      rw [heq, List.length_append] at hlength
      exact absurd (List.length_eq_zero_iff.mp (by omega)) hbefore
  · exact fun h => h.trans (List.prefix_append _ rest)

theorem matching_before_sensitive {sensitive : String} (hmem : sensitive ∈ SENSITIVE_PREFIXES)
    {before rest : List Char} (hbefore : before ≠ []) :
    matchingSensitivePrefix (before ++ sensitive.toList ++ rest) =
      matchingSensitivePrefix (before ++ sensitive.toList) := by
  unfold matchingSensitivePrefix
  refine List.find?_congr fun other hother => ?_
  rw [Bool.eq_iff_iff, List.isPrefixOf_iff_prefix, List.isPrefixOf_iff_prefix]
  exact prefix_before_sensitive hmem hother hbefore

theorem matching_sensitive {sensitive : String} (hmem : sensitive ∈ SENSITIVE_PREFIXES)
    (rest : List Char) : matchingSensitivePrefix (sensitive.toList ++ rest) = some sensitive := by
  unfold matchingSensitivePrefix
  cases hfound : SENSITIVE_PREFIXES.find? fun other =>
      other.toList.isPrefixOf (sensitive.toList ++ rest) with
  | none =>
      have hnone := List.find?_eq_none.mp hfound sensitive hmem
      exact absurd (List.isPrefixOf_iff_prefix.mpr (List.prefix_append _ rest)) hnone
  | some other =>
      have hother := List.mem_of_find?_eq_some hfound
      have hselected := List.find?_some hfound
      have hstarts : other.toList <+: sensitive.toList ++ rest :=
        List.isPrefixOf_iff_prefix.mp hselected
      rcases List.prefix_or_prefix_of_prefix hstarts (List.prefix_append _ rest) with h | h
      · rw [eq_of_infix_sensitive hmem hother h.isInfix]
      · rw [eq_of_infix_sensitive hother hmem h.isInfix]

-- A sensitive prefix and the secret after it leave nothing but the mark.
theorem redactFrom_sensitive {sensitive : String} (hmem : sensitive ∈ SENSITIVE_PREFIXES)
    {secret : List Char} (hsecret : InSecret secret) (rest : List Char) {skip : Nat} {inside : Bool}
    (hskip : skip ≤ sensitive.toList.length) :
    redactFrom skip inside (sensitive.toList ++ (secret ++ rest)) =
      (if skip = 0 ∧ inside = false then REDACTED.toList else []) ++ redactFrom 0 true rest := by
  have hinside := inSecret_of_sensitive hmem
  have hmatching := matching_sensitive hmem (secret ++ rest)
  have hlength : sensitive.length = sensitive.toList.length := rfl
  cases skip with
  | zero =>
      cases inside with
      | true =>
          rw [redactFrom_secret hinside, redactFrom_secret hsecret]
          simp
      | false =>
          cases hchars : sensitive.toList with
          | nil => exact absurd hchars (sensitive_ne_nil hmem)
          | cons first others =>
              have hothers : sensitive.length - 1 = others.length := by
                rw [hlength, hchars, List.length_cons, Nat.add_sub_cancel]
              rw [hchars, List.cons_append] at hmatching
              simp only [List.cons_append, redactFrom, Bool.false_and, Bool.false_eq_true, if_false,
                hmatching, hothers, and_self, if_true]
              rw [redactFrom_skip, redactFrom_secret hsecret]
  | succ skip =>
      cases hchars : sensitive.toList with
      | nil =>
          rw [hchars] at hskip
          cases hskip
      | cons first others =>
          rw [hchars, List.length_cons] at hskip
          have htaken : (others.take skip).length = skip := List.length_take_of_le (by omega)
          have hdropped : InSecret (others.drop skip) := fun character hcharacter =>
            hinside character (hchars ▸ List.mem_cons_of_mem first
              (List.mem_of_mem_drop hcharacter))
          have hpassed := @redactFrom_skip (others.take skip) (others.drop skip ++ (secret ++ rest))
          rw [htaken, ← List.append_assoc, List.take_append_drop, redactFrom_secret hdropped,
            redactFrom_secret hsecret] at hpassed
          simpa [redactFrom] using hpassed

theorem redactFrom_congr {sensitive : String} (hmem : sensitive ∈ SENSITIVE_PREFIXES)
    {secret secret' : List Char} (hsecret : InSecret secret) (hsecret' : InSecret secret')
    (rest before : List Char) {skip : Nat} {inside : Bool}
    (hskip : skip ≤ before.length + sensitive.toList.length) :
    redactFrom skip inside (before ++ (sensitive.toList ++ (secret ++ rest))) =
      redactFrom skip inside (before ++ (sensitive.toList ++ (secret' ++ rest))) := by
  induction before generalizing skip inside with
  | nil =>
      rw [List.length_nil, Nat.zero_add] at hskip
      rw [List.nil_append, List.nil_append, redactFrom_sensitive hmem hsecret rest hskip,
        redactFrom_sensitive hmem hsecret' rest hskip]
  | cons character before ih =>
      rw [List.length_cons] at hskip
      cases skip with
      | succ skip => exact ih (by omega)
      | zero =>
          have hsome : character :: before ≠ [] := List.cons_ne_nil _ _
          have hmatching := @matching_before_sensitive sensitive hmem _ (secret ++ rest) hsome
          have hmatching' := @matching_before_sensitive sensitive hmem _ (secret' ++ rest) hsome
          simp only [List.append_assoc, List.cons_append] at hmatching hmatching'
          simp only [List.cons_append, redactFrom, hmatching, hmatching']
          split
          · exact ih (by omega)
          · split
            · rename_i other hother
              have hselected := List.find?_some hother
              have hstarts : other.toList <+: character :: (before ++ sensitive.toList) :=
                List.isPrefixOf_iff_prefix.mp hselected
              have hlength := hstarts.length_le
              have hsame : other.length = other.toList.length := rfl
              rw [List.length_cons, List.length_append] at hlength
              rw [ih (by omega)]
            · rw [ih (by omega)]

theorem redactText_visible {visible : List Char}
    (h : ∀ character ∈ visible, isWhitespace character = false) (segment rest : List Char) :
    redactText segment (visible ++ rest) = redactText (segment ++ visible) rest := by
  induction visible generalizing segment with
  | nil => rw [List.nil_append, List.append_nil]
  | cons character visible ih =>
      rw [List.cons_append, redactText, h character List.mem_cons_self, if_neg Bool.false_ne_true,
        ih (fun other hmem => h other (List.mem_cons_of_mem character hmem)), List.append_assoc]
      rfl

-- Two segments that nothing behind them tells apart.
theorem redactText_congr {segment segment' : List Char}
    (h : ∀ more, redactSegment (segment ++ more) = redactSegment (segment' ++ more))
    (text more : List Char) :
    redactText (segment ++ more) text = redactText (segment' ++ more) text := by
  induction text generalizing more with
  | nil => exact h more
  | cons character text ih =>
      simp only [redactText]
      split
      · rw [h more]
      · rw [List.append_assoc, List.append_assoc, ih]

theorem redactText_secret {sensitive : String} (hmem : sensitive ∈ SENSITIVE_PREFIXES)
    {secret secret' : List Char} (hsecret : InSecret secret) (hsecret' : InSecret secret')
    (segment before after : List Char) :
    redactText segment (before ++ (sensitive.toList ++ (secret ++ after))) =
      redactText segment (before ++ (sensitive.toList ++ (secret' ++ after))) := by
  induction before generalizing segment with
  | nil =>
      have hinside := inSecret_of_sensitive hmem
      have hvisible := redactText_visible fun character hcharacter =>
        (hinside character hcharacter).1
      have hpast := fun {text} (htext : InSecret text) =>
        redactText_visible fun character hcharacter => (htext character hcharacter).1
      rw [List.nil_append, List.nil_append, hvisible, hvisible, hpast hsecret, hpast hsecret']
      have hsegments := @redactText_congr (segment ++ sensitive.toList ++ secret)
        (segment ++ sensitive.toList ++ secret') (fun more => ?_) after []
      · rw [List.append_nil, List.append_nil] at hsegments
        exact hsegments
      · simp only [List.append_assoc]
        exact redactFrom_congr hmem hsecret hsecret' more segment (Nat.zero_le _)
  | cons character before ih =>
      simp only [List.cons_append, redactText]
      split
      · rw [ih]
      · rw [ih]

-- What goes into a log has no secret in it, and what was in a secret makes no difference to it. It
-- does not matter how the secret ends.
theorem redaction_hides_secrets :
    (∀ value, Clean (redactForLogs value).toList) ∧
    (∀ value, redactForLogs (redactForLogs value) = redactForLogs value) ∧
    (∀ value, (redactForLogs value).toList.filter isWhitespace = value.toList.filter isWhitespace) ∧
    (∀ value, Clean value.toList → redactForLogs value = value) ∧
    ∀ sensitive ∈ SENSITIVE_PREFIXES, ∀ before secret secret' after : String,
      InSecret secret.toList → InSecret secret'.toList →
        redactForLogs (before ++ sensitive ++ secret ++ after) =
          redactForLogs (before ++ sensitive ++ secret' ++ after) := by
  refine ⟨clean_redactForLogs, fun value => redactForLogs_of_clean (clean_redactForLogs value),
    fun value => ?_, fun value => redactForLogs_of_clean, ?_⟩
  · rw [redactForLogs, String.toList_ofList]
    exact filter_redactText (by simp)
  · intro sensitive hmem before secret secret' after hsecret hsecret'
    have hsame := redactText_secret hmem hsecret hsecret' [] before.toList after.toList
    simp only [redactForLogs, String.toList_append, List.append_assoc, hsame]

end Mizan
