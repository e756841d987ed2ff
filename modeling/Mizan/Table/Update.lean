import Mathlib.Data.List.Nodup

namespace Table

variable {ρ κ : Type} {selects : ρ → Bool} {set : ρ → ρ} {rows : List ρ} {row row' : ρ}

-- UPDATE with a condition, and the number of rows that it affects.
def update (selects : ρ → Bool) (set : ρ → ρ) (rows : List ρ) : List ρ :=
  rows.map fun row => if selects row then set row else row

def affected (selects : ρ → Bool) (rows : List ρ) : Nat := rows.countP selects

theorem mem_update : row' ∈ update selects set rows ↔
    ∃ row ∈ rows, row' = if selects row then set row else row := by
  rw [update, List.mem_map]
  exact exists_congr fun row => and_congr_right fun _ => eq_comm

theorem mem_update_cases (h : row' ∈ update selects set rows) :
    (∃ row ∈ rows, selects row = true ∧ row' = set row) ∨ row' ∈ rows ∧ selects row' = false := by
  obtain ⟨row, hmem, hrow⟩ := mem_update.mp h
  split at hrow
  · rename_i hselected
    exact .inl ⟨row, hmem, hselected, hrow⟩
  · rename_i hselected
    rw [hrow]
    exact .inr ⟨hmem, eq_false_of_ne_true hselected⟩

theorem not_selected_of_affected (h : affected selects rows = 0) (hmem : row ∈ rows) :
    selects row = false :=
  eq_false_of_ne_true (List.countP_eq_zero.mp h row hmem)

-- What a row becomes.
theorem update_of_mem (h : row ∈ rows) :
    (if selects row then set row else row) ∈ update selects set rows :=
  mem_update.mpr ⟨row, h, rfl⟩

theorem map_update {key : ρ → κ} (hkey : ∀ row, key (set row) = key row) (rows : List ρ) :
    (update selects set rows).map key = rows.map key := by
  rw [update, List.map_map]
  apply List.map_congr_left
  intro row _
  rw [Function.comp_apply]
  split
  · exact hkey row
  · rfl

theorem exists_of_affected (h : affected selects rows ≠ 0) : ∃ row ∈ rows, selects row = true :=
  List.countP_pos_iff.mp (Nat.pos_of_ne_zero h)

theorem eq_of_key {key : ρ → κ} (hnodup : (rows.map key).Nodup) (h : row ∈ rows)
    (h' : row' ∈ rows) (hkey : key row = key row') : row = row' :=
  List.inj_on_of_nodup_map hnodup h h' hkey

theorem find?_eq_some_of_key {key : ρ → κ} (hnodup : (rows.map key).Nodup) (hmem : row ∈ rows)
    (hselected : selects row = true)
    (hkey : ∀ other ∈ rows, selects other = true → key other = key row) :
    rows.find? selects = some row := by
  cases hfound : rows.find? selects with
  | none => exact absurd hselected (List.find?_eq_none.mp hfound row hmem)
  | some other =>
      have hother := List.mem_of_find?_eq_some hfound
      rw [eq_of_key hnodup hother hmem (hkey other hother (List.find?_some hfound))]

end Table
