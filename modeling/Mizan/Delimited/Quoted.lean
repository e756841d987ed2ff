import Mathlib.Data.List.Infix

namespace Delimited

variable {α : Type} {mark first second : α} {body body' rest rest' : List α}

-- A text in which the mark stands for itself when it is doubled, and nowhere else.
inductive Doubled (mark : α) : List α → Prop where
  | nil : Doubled mark []
  | plain {value : α} {body : List α} (hvalue : value ≠ mark) (hbody : Doubled mark body) :
      Doubled mark (value :: body)
  | pair {body : List α} (hbody : Doubled mark body) : Doubled mark (mark :: mark :: body)

-- Either the text is open to its end, or a mark that is not doubled closes it.
theorem exists_doubled [DecidableEq α] (mark : α) (text : List α) :
    Doubled mark text ∨ ∃ body rest, Doubled mark body ∧ text = body ++ mark :: rest ∧
      rest.head? ≠ some mark := by
  induction hlength : text.length using Nat.strong_induction_on generalizing text with
  | _ length ih =>
      cases text with
      | nil => exact .inl .nil
      | cons value rest =>
          rw [List.length_cons] at hlength
          by_cases hvalue : value = mark
          · subst hvalue
            cases rest with
            | nil => exact .inr ⟨[], [], .nil, rfl, by simp⟩
            | cons next rest =>
                rw [List.length_cons] at hlength
                by_cases hnext : next = value
                · subst hnext
                  rcases ih rest.length (by omega) rest rfl with h | ⟨body, after, h, rfl, hafter⟩
                  · exact .inl (.pair h)
                  · exact .inr ⟨next :: next :: body, after, .pair h, rfl, hafter⟩
                · exact .inr ⟨[], next :: rest, .nil, rfl, by simpa using hnext⟩
          · rcases ih rest.length (by omega) rest rfl with h | ⟨body, after, h, rfl, hafter⟩
            · exact .inl (.plain hvalue h)
            · exact .inr ⟨value :: body, after, .plain hvalue h, rfl, hafter⟩

-- A text that a mark closes is closed in one place.
theorem Doubled.unique (h : Doubled mark body) (h' : Doubled mark body')
    (hrest : rest.head? ≠ some mark) (hrest' : rest'.head? ≠ some mark)
    (heq : body ++ mark :: rest = body' ++ mark :: rest') : body = body' ∧ rest = rest' := by
  induction h generalizing body' with
  | nil =>
      cases h' with
      | nil => exact ⟨rfl, (List.cons.inj heq).2⟩
      | plain hvalue _ => exact absurd (List.cons.inj heq).1.symm hvalue
      | pair _ =>
          rw [(List.cons.inj heq).2] at hrest
          exact absurd rfl hrest
  | plain hvalue _ ih =>
      cases h' with
      | nil => exact absurd (List.cons.inj heq).1 hvalue
      | plain _ h' =>
          obtain ⟨hbody, hafter⟩ := ih h' (List.cons.inj heq).2
          exact ⟨by rw [(List.cons.inj heq).1, hbody], hafter⟩
      | pair _ => exact absurd (List.cons.inj heq).1 hvalue
  | pair _ ih =>
      cases h' with
      | nil =>
          rw [← (List.cons.inj heq).2] at hrest'
          exact absurd rfl hrest'
      | plain hvalue _ => exact absurd (List.cons.inj heq).1.symm hvalue
      | pair h' =>
          obtain ⟨hbody, hafter⟩ := ih h' (List.cons.inj (List.cons.inj heq).2).2
          exact ⟨by rw [hbody], hafter⟩

theorem Doubled.ne_closed (h : Doubled mark body) (h' : Doubled mark body')
    (hrest : rest.head? ≠ some mark) : body' ≠ body ++ mark :: rest := by
  induction h generalizing body' with
  | nil =>
      rintro rfl
      cases h' with
      | plain hvalue _ => exact hvalue rfl
      | pair _ => exact hrest rfl
  | plain hvalue _ ih =>
      intro heq
      cases h' with
      | nil => cases heq
      | plain _ h' => exact ih h' (List.cons.inj heq).2
      | pair _ => exact hvalue (List.cons.inj heq).1.symm
  | pair _ ih =>
      intro heq
      cases h' with
      | nil => cases heq
      | plain hvalue _ => exact hvalue (List.cons.inj heq).1
      | pair h' => exact ih h' (List.cons.inj (List.cons.inj heq).2).2

theorem pair_infix_cons {value : α} {text : List α} : [first, second] <:+: value :: text ↔
    value = first ∧ text.head? = some second ∨ [first, second] <:+: text := by
  rw [List.infix_cons_iff, List.cons_prefix_cons, eq_comm]
  refine or_congr_left (and_congr_right fun _ => ?_)
  cases text with
  | nil => simp
  | cons next text => simp [eq_comm]

theorem head?_append_cons (body rest : List α) (value : α) :
    (body ++ value :: rest).head? = (body ++ [value]).head? := by
  cases body <;> rfl

-- Either two values never follow each other in a text, or they do for a first time.
theorem exists_first_pair [DecidableEq α] (first second : α) (text : List α) :
    ¬[first, second] <:+: text ∨ ∃ body rest, text = body ++ first :: second :: rest ∧
      ¬[first, second] <:+: body ++ [first] := by
  induction text with
  | nil => exact .inl (by simp)
  | cons value text ih =>
      by_cases hpair : value = first ∧ text.head? = some second
      · obtain ⟨rfl, hhead⟩ := hpair
        obtain ⟨rest, rfl⟩ := List.head?_eq_some_iff.mp hhead
        exact .inr ⟨[], rest, rfl, fun h => absurd h.length_le (by simp)⟩
      · rcases ih with hfree | ⟨body, rest, rfl, hfree⟩
        · exact .inl fun h => (pair_infix_cons.mp h).elim hpair hfree
        · refine .inr ⟨value :: body, rest, rfl, fun h => ?_⟩
          rw [List.cons_append, pair_infix_cons, ← head?_append_cons body (second :: rest)] at h
          exact h.elim hpair hfree

theorem first_pair_unique (h : ¬[first, second] <:+: body ++ [first])
    (h' : ¬[first, second] <:+: body' ++ [first])
    (heq : body ++ first :: second :: rest = body' ++ first :: second :: rest') :
    body = body' ∧ rest = rest' := by
  induction body generalizing body' with
  | nil =>
      cases body' with
      | nil => exact ⟨rfl, (List.cons.inj (List.cons.inj heq).2).2⟩
      | cons value body' =>
          obtain ⟨hvalue, hafter⟩ := List.cons.inj heq
          have hhead : (body' ++ [first]).head? = some second :=
            (head?_append_cons body' (second :: rest') first).symm.trans
              (congrArg List.head? hafter).symm
          exact absurd (pair_infix_cons.mpr (.inl ⟨hvalue.symm, hhead⟩)) h'
  | cons value body ih =>
      cases body' with
      | nil =>
          obtain ⟨hvalue, hafter⟩ := List.cons.inj heq
          have hhead : (body ++ [first]).head? = some second :=
            (head?_append_cons body (second :: rest) first).symm.trans (congrArg List.head? hafter)
          exact absurd (pair_infix_cons.mpr (.inl ⟨hvalue, hhead⟩)) h
      | cons value' body' =>
          obtain ⟨hvalue, hafter⟩ := List.cons.inj heq
          obtain ⟨hbody, hrest⟩ := ih (fun hin => h (pair_infix_cons.mpr (.inr hin)))
            (fun hin => h' (pair_infix_cons.mpr (.inr hin))) hafter
          exact ⟨by rw [hvalue, hbody], hrest⟩

-- Either a value does not occur in a text, or it does for a first time.
theorem exists_first [DecidableEq α] (value : α) (text : List α) :
    value ∉ text ∨ ∃ body rest, text = body ++ value :: rest ∧ value ∉ body := by
  by_cases hmem : value ∈ text
  · obtain ⟨body, rest, hbody, htext⟩ := List.eq_append_cons_of_mem hmem
    exact .inr ⟨body, rest, hbody, htext⟩
  · exact .inl hmem

theorem first_unique {value : α} (h : value ∉ body) (h' : value ∉ body')
    (heq : body ++ value :: rest = body' ++ value :: rest') : body = body' ∧ rest = rest' := by
  induction body generalizing body' with
  | nil =>
      cases body' with
      | nil => exact ⟨rfl, (List.cons.inj heq).2⟩
      | cons other body' => exact absurd ((List.cons.inj heq).1 ▸ List.mem_cons_self) h'
  | cons other body ih =>
      rw [List.mem_cons, not_or] at h
      cases body' with
      | nil => exact absurd (List.cons.inj heq).1.symm h.1
      | cons other' body' =>
          rw [List.mem_cons, not_or] at h'
          obtain ⟨hother, hafter⟩ := List.cons.inj heq
          obtain ⟨hbody, hrest⟩ := ih h.2 h'.2 hafter
          exact ⟨by rw [hother, hbody], hrest⟩

end Delimited
