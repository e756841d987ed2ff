import Mathlib.Data.List.Dedup

namespace Table

variable {ρ ρ' κ : Type} {on : ρ → ρ' → Bool} {rows : List ρ} {rows' : List ρ'}

-- INNER JOIN
def innerJoin (on : ρ → ρ' → Bool) (rows : List ρ) (rows' : List ρ') : List (ρ × ρ') :=
  rows.flatMap fun row => (rows'.filter (on row)).map (row, ·)

theorem mem_innerJoin {pair : ρ × ρ'} :
    pair ∈ innerJoin on rows rows' ↔ pair.1 ∈ rows ∧ pair.2 ∈ rows' ∧ on pair.1 pair.2 = true := by
  obtain ⟨row, row'⟩ := pair
  simp only [innerJoin, List.mem_flatMap, List.mem_map, List.mem_filter, Prod.mk.injEq]
  constructor
  · rintro ⟨_, hmem, _, hpartner, rfl, rfl⟩
    exact ⟨hmem, hpartner⟩
  · rintro ⟨hmem, hpartner⟩
    exact ⟨row, hmem, row', hpartner, rfl, rfl⟩

-- A key selects at most one row.
theorem length_filter_le_one {key : ρ → κ} {selects : ρ → Bool} {value : κ}
    (hnodup : (rows.map key).Nodup)
    (hselects : ∀ row ∈ rows, selects row = true → key row = value) :
    (rows.filter selects).length ≤ 1 := by
  have hkeys : (rows.filter selects).map key =
    List.replicate (rows.filter selects).length value := by
    rw [List.eq_replicate_iff, List.length_map]
    refine ⟨rfl, fun other hother => ?_⟩
    obtain ⟨row, hrow, rfl⟩ := List.mem_map.mp hother
    obtain ⟨hmem, hselected⟩ := List.mem_filter.mp hrow
    exact hselects row hmem hselected
  have hsublist : ((rows.filter selects).map key).Sublist (rows.map key) :=
    List.filter_sublist.map key
  have hdistinct := hnodup.sublist hsublist
  rw [hkeys] at hdistinct
  exact List.nodup_replicate.mp hdistinct

-- Where every row has at most one partner, no row is joined twice.
theorem map_fst_innerJoin_sublist (hone : ∀ row ∈ rows, (rows'.filter (on row)).length ≤ 1) :
    ((innerJoin on rows rows').map Prod.fst).Sublist rows := by
  induction rows with
  | nil => exact List.Sublist.slnil
  | cons row rows ih =>
      have hrest := ih fun other hother => hone other (List.mem_cons_of_mem row hother)
      simp only [innerJoin, List.flatMap_cons, List.map_append, List.map_map] at hrest ⊢
      have hfirst := hone row List.mem_cons_self
      cases hpartners : rows'.filter (on row) with
      | nil => exact (hrest.cons row)
      | cons partner others =>
          rw [hpartners] at hfirst
          have hothers : others = [] := List.length_eq_zero_iff.mp (by simpa using hfirst)
          rw [hothers]
          exact hrest.cons_cons row

-- Where every row has exactly one partner, no row is left out either.
theorem map_fst_innerJoin (hone : ∀ row ∈ rows, ∃ partner, rows'.filter (on row) = [partner]) :
    (innerJoin on rows rows').map Prod.fst = rows := by
  induction rows with
  | nil => rfl
  | cons row rows ih =>
      have hrest := ih fun other hother => hone other (List.mem_cons_of_mem row hother)
      obtain ⟨partner, hpartner⟩ := hone row List.mem_cons_self
      simp only [innerJoin, List.flatMap_cons, List.map_append] at hrest ⊢
      rw [hrest, hpartner]
      rfl

end Table
