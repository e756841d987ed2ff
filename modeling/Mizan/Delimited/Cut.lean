import Mizan.Delimited.Blocks

namespace Delimited

section Cut

variable {α : Type} [BEq α] [LawfulBEq α] {separator : α}

-- Induction on the separators: a list is one unfinished field, or a field that is ended and a list.
@[elab_as_elim]
theorem fields_induction {motive : List α → Prop} (separator : α)
    (unfinished : ∀ field, separator ∉ field → motive field)
    (ended : ∀ field rest, separator ∉ field → motive rest → motive (field ++ separator :: rest))
    (xs : List α) : motive xs := by
  induction hlength : xs.length using Nat.strongRecOn generalizing xs with
  | ind length ih =>
    cases hposition : xs.idxOf? separator with
    | none => exact unfinished xs (List.idxOf?_eq_none_iff.mp hposition)
    | some position =>
      obtain ⟨hsplit, hfield⟩ := eq_append_of_idxOf?_eq_some hposition
      have hrest : (xs.drop (position + 1)).length < length := by
        have hsum := congrArg List.length hsplit
        rw [List.length_append, List.length_cons] at hsum
        omega
      rw [hsplit]
      exact ended _ _ hfield (ih _ hrest _ rfl)

theorem closed_append_separator (xs : List α) :
    closed separator (xs ++ [separator]) = closed separator xs ++ [unfinished separator xs] := by
  induction xs using fields_induction separator with
  | unfinished field hfield =>
    rw [closed_append_cons hfield, closed_of_not_mem hfield, unfinished_of_not_mem hfield,
      closed_of_not_mem List.not_mem_nil]
    rfl
  | ended field rest hfield ih =>
    rw [List.append_assoc, List.cons_append, closed_append_cons hfield, ih,
      closed_append_cons hfield, unfinished_append_cons hfield, List.cons_append]

theorem unfinished_append_separator (xs : List α) :
    unfinished separator (xs ++ [separator]) = [] := by
  induction xs using fields_induction separator with
  | unfinished field hfield =>
    rw [unfinished_append_cons hfield, unfinished_of_not_mem List.not_mem_nil]
  | ended field rest hfield ih =>
    rw [List.append_assoc, List.cons_append, unfinished_append_cons hfield, ih]

theorem closed_append_of_ne {x : α} (hx : x ≠ separator) (xs : List α) :
    closed separator (xs ++ [x]) = closed separator xs := by
  induction xs using fields_induction separator with
  | unfinished field hfield =>
    have hnot : separator ∉ field ++ [x] := by simp [hfield, Ne.symm hx]
    rw [closed_of_not_mem hnot, closed_of_not_mem hfield]
  | ended field rest hfield ih =>
    rw [List.append_assoc, List.cons_append, closed_append_cons hfield, ih,
      closed_append_cons hfield]

theorem unfinished_append_of_ne {x : α} (hx : x ≠ separator) (xs : List α) :
    unfinished separator (xs ++ [x]) = unfinished separator xs ++ [x] := by
  induction xs using fields_induction separator with
  | unfinished field hfield =>
    have hnot : separator ∉ field ++ [x] := by simp [hfield, Ne.symm hx]
    rw [unfinished_of_not_mem hnot, unfinished_of_not_mem hfield]
  | ended field rest hfield ih =>
    rw [List.append_assoc, List.cons_append, unfinished_append_cons hfield, ih,
      unfinished_append_cons hfield]

end Cut

end Delimited
