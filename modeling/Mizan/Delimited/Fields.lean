import Mathlib.Tactic.Common

namespace Delimited

variable {α : Type} [BEq α] [LawfulBEq α]

theorem count_intercalate (separator : α) {fields : List (List α)} (hne : fields ≠ []) :
    ([separator].intercalate fields).count separator + 1 =
      fields.length + fields.flatten.count separator := by
  induction fields with
  | nil => exact absurd rfl hne
  | cons field fields ih =>
      cases fields with
      | nil => simp [List.intercalate_singleton, Nat.add_comm]
      | cons next fields =>
          have ih := ih (List.cons_ne_nil next fields)
          rw [List.intercalate_cons_cons, List.flatten_cons]
          simp only [List.count_append, List.count_singleton_self, List.length_cons] at ih ⊢
          omega

-- Fields without the separator can be read back from the joined text, whatever the fields are
-- that somebody else joined to the same text.
theorem intercalate_inj_of_not_mem {separator : α} {fields fields' : List (List α)}
    (hfree : ∀ field ∈ fields, separator ∉ field) (hlength : fields'.length = fields.length)
    (h : [separator].intercalate fields' = [separator].intercalate fields) :
    fields' = fields := by
  by_cases hne : fields = []
  · subst hne
    exact List.eq_nil_of_length_eq_zero hlength
  have hne' : fields' ≠ [] := by
    rintro rfl
    exact hne (List.eq_nil_of_length_eq_zero hlength.symm)
  have hnone : separator ∉ fields.flatten := by
    intro hmem
    obtain ⟨field, hfield, hseparator⟩ := List.mem_flatten.mp hmem
    exact hfree field hfield hseparator
  have hcount := count_intercalate separator hne
  have hcount' := count_intercalate separator hne'
  rw [List.count_eq_zero_of_not_mem hnone] at hcount
  rw [h] at hcount'
  have hnone' : separator ∉ fields'.flatten := List.count_eq_zero.mp (by omega)
  have hfree' : ∀ field ∈ fields', separator ∉ field := fun field hfield hmem =>
    hnone' (List.mem_flatten.mpr ⟨field, hfield, hmem⟩)
  rw [← List.splitOn_intercalate separator hfree' hne', h,
    List.splitOn_intercalate separator hfree hne]

end Delimited
