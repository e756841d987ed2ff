import Mizan.Table.Update
import Mathlib.Logic.Relation

namespace Table

variable {ρ : Type} {move : ρ → ρ → Prop} {rows rows' rows'' : List ρ}

-- No row is removed, and each makes at most one move.
def Moves (move : ρ → ρ → Prop) (rows rows' : List ρ) : Prop :=
  ∀ row ∈ rows, ∃ row' ∈ rows', move row row'

theorem Moves.refl (hrefl : ∀ row, move row row) (rows : List ρ) : Moves move rows rows :=
  fun row hmem => ⟨row, hmem, hrefl row⟩

theorem Moves.append (hrefl : ∀ row, move row row) (rows added : List ρ) :
    Moves move rows (rows ++ added) :=
  fun row hmem => ⟨row, List.mem_append_left added hmem, hrefl row⟩

theorem Moves.update (hrefl : ∀ row, move row row) {selects : ρ → Bool} {set : ρ → ρ}
    (hset : ∀ row ∈ rows, selects row = true → move row (set row)) :
    Moves move rows (update selects set rows) := by
  intro row hmem
  refine ⟨_, update_of_mem hmem, ?_⟩
  split
  · rename_i hselected
    exact hset row hmem hselected
  · exact hrefl row

-- Any number of moves of every row.
def Evolves (move : ρ → ρ → Prop) (rows rows' : List ρ) : Prop :=
  Moves (Relation.ReflTransGen move) rows rows'

theorem Moves.evolves (h : Moves move rows rows') : Evolves move rows rows' := by
  intro row hmem
  obtain ⟨row', hmem', hmove⟩ := h row hmem
  exact ⟨row', hmem', .single hmove⟩

theorem Evolves.refl (rows : List ρ) : Evolves move rows rows := Moves.refl (fun _ => .refl) rows

theorem Evolves.trans (h : Evolves move rows rows') (h' : Evolves move rows' rows'') :
    Evolves move rows rows'' := by
  intro row hmem
  obtain ⟨row', hmem', hevolves⟩ := h row hmem
  obtain ⟨row'', hmem'', hevolves'⟩ := h' row' hmem'
  exact ⟨row'', hmem'', hevolves.trans hevolves'⟩

-- A row that no move changes stays as it is.
theorem eq_of_evolves {property : ρ → Prop}
    (hfixed : ∀ row row', property row → move row row' → row' = row) {row row' : ρ}
    (h : Relation.ReflTransGen move row row') (hrow : property row) : row' = row := by
  induction h with
  | refl => rfl
  | tail _ hmove ih =>
      rw [ih] at hmove
      exact hfixed row _ hrow hmove

end Table
