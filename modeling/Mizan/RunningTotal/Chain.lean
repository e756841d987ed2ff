import Mathlib.Algebra.BigOperators.Group.List.Basic
import Mathlib.Algebra.Order.BigOperators.Group.List
import Mathlib.Algebra.Order.Group.Defs
import Mathlib.Data.List.Induction

namespace RunningTotal

variable {ι M : Type} (delta after : ι → M)

def final : M → List ι → M
  | start, [] => start
  | _, entry :: entries => final (after entry) entries

theorem final_concat (start : M) (entries : List ι) (entry : ι) :
    final after start (entries ++ [entry]) = after entry := by
  induction entries generalizing start with
  | nil => rfl
  | cons first rest ih => exact ih (after first)

variable [AddCommGroup M]

-- A journal in which every entry carries its own change and the total after it.
def Chained : M → List ι → Prop
  | _, [] => True
  | start, entry :: entries => after entry = start + delta entry ∧ Chained (after entry) entries

theorem chained_concat (start : M) (entries : List ι) (entry : ι) :
    Chained delta after start (entries ++ [entry]) ↔
      Chained delta after start entries ∧
        after entry = final after start entries + delta entry := by
  induction entries generalizing start with
  | nil => simp [Chained, final]
  | cons first rest ih => simp only [List.cons_append, Chained, final, ih, and_assoc]

-- The totals of a chained journal are the sums of its changes.
theorem final_eq_sum {start : M} {entries : List ι} (h : Chained delta after start entries) :
    final after start entries = start + (entries.map delta).sum := by
  induction entries generalizing start with
  | nil => simp [final]
  | cons first rest ih =>
      obtain ⟨hfirst, hrest⟩ := h
      calc final after (after first) rest
          = after first + (rest.map delta).sum := ih hrest
        _ = start + (delta first + (rest.map delta).sum) := by rw [hfirst, add_assoc]
        _ = start + ((first :: rest).map delta).sum := by rw [List.map_cons, List.sum_cons]

-- The changes of some entries are together within a bound where the totals after these entries
-- are, because no other change takes the total back.
theorem sum_filter_le [PartialOrder M] [IsOrderedAddMonoid M] {bound : M} {entries : List ι}
    {selected : ι → Bool} (h : Chained delta after 0 entries) (hbound : 0 ≤ bound)
    (hnonneg : ∀ entry ∈ entries, 0 ≤ delta entry)
    (hselected : ∀ entry ∈ entries, selected entry → after entry ≤ bound) :
    ((entries.filter selected).map delta).sum ≤ bound := by
  induction entries using List.reverseRecOn with
  | nil => simpa using hbound
  | append_singleton entries entry ih =>
      obtain ⟨hchained, htotal⟩ := (chained_concat delta after 0 entries entry).mp h
      by_cases hentry : selected entry
      · calc (((entries ++ [entry]).filter selected).map delta).sum
            ≤ ((entries ++ [entry]).map delta).sum := by
              refine (List.filter_sublist.map delta).sum_le_sum fun change hchange => ?_
              obtain ⟨e, he, rfl⟩ := List.mem_map.mp hchange
              exact hnonneg e he
          _ = after entry := by
              rw [htotal, final_eq_sum delta after hchained]
              simp
          _ ≤ bound := hselected entry (by simp) hentry
      · have hnone : [entry].filter selected = [] := by simp [hentry]
        rw [List.filter_append, hnone, List.append_nil]
        exact ih hchained (fun e he => hnonneg e (by simp [he]))
          fun e he => hselected e (by simp [he])

end RunningTotal
