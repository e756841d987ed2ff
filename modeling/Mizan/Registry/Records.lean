import Mizan.Registry.Log
import Mizan.Table.Update

namespace Registry

variable {ρ γ : Type} {granted : ρ → γ} {withdrawn : ρ → Bool} {lapsed lapsed' : γ → Prop}
  {rows : List ρ} {row : ρ} {log : List (Entry γ)} {credential : γ}

-- A table of credentials that agrees with a log of them. A row may also be withdrawn because its
-- credential has lapsed by itself, of which the log says nothing.
structure Records (granted : ρ → γ) (withdrawn : ρ → Bool) (lapsed : γ → Prop) (rows : List ρ)
    (log : List (Entry γ)) : Prop where
  issued : rows.map granted = issued log
  live : ∀ row ∈ rows, withdrawn row = false → Live log (granted row)
  kept : ∀ row ∈ rows, Live log (granted row) → withdrawn row = false ∨ lapsed (granted row)

namespace Records

theorem nil : Records granted withdrawn lapsed [] [] :=
  { issued := rfl
    live := by simp
    kept := by simp }

theorem mono (h : Records granted withdrawn lapsed rows log)
    (hlapsed : ∀ credential, lapsed credential → lapsed' credential) :
    Records granted withdrawn lapsed' rows log :=
  { issued := h.issued
    live := h.live
    kept := fun row hmem hlive => (h.kept row hmem hlive).imp id (hlapsed _) }

-- The credentials that are good are those of the rows that are not withdrawn.
theorem live_iff (h : Records granted withdrawn lapsed rows log) (hlapsed : ¬lapsed credential) :
    Live log credential ↔ ∃ row ∈ rows, granted row = credential ∧ withdrawn row = false := by
  constructor
  · intro hlive
    have hissued := hlive.mem_issued
    rw [← h.issued] at hissued
    obtain ⟨row, hmem, hrow⟩ := List.mem_map.mp hissued
    rw [← hrow] at hlive hlapsed
    exact ⟨row, hmem, hrow, (h.kept row hmem hlive).resolve_right hlapsed⟩
  · rintro ⟨row, hmem, rfl, hrow⟩
    exact h.live row hmem hrow

theorem insert (h : Records granted withdrawn lapsed rows log)
    (hfresh : ∀ other ∈ rows, granted other ≠ granted row) (hrow : withdrawn row = false) :
    Records granted withdrawn lapsed (rows ++ [row]) (log ++ [.issue (granted row)]) := by
  have hsame : ∀ other ∈ rows, Live (log ++ [.issue (granted row)]) (granted other) ↔
      Live log (granted other) := by
    intro other hmem
    rw [live_issue, or_iff_right (hfresh other hmem).symm]
  constructor
  · rw [List.map_append, h.issued, issued_append]
    rfl
  · intro other hmem hother
    rcases List.mem_append.mp hmem with hold | hnew
    · exact (hsame other hold).mpr (h.live other hold hother)
    · rw [List.mem_singleton.mp hnew]
      exact live_issue.mpr (.inl rfl)
  · intro other hmem hlive
    rcases List.mem_append.mp hmem with hold | hnew
    · exact h.kept other hold ((hsame other hold).mp hlive)
    · rw [List.mem_singleton.mp hnew]
      exact .inl hrow

variable {selects : ρ → Bool} {set : ρ → ρ} {describes : γ → Bool}

-- An update withdraws the rows that are not withdrawn and match the description.
theorem withdraw (h : Records granted withdrawn lapsed rows log)
    (hset : ∀ row, granted (set row) = granted row) (hwithdrawn : ∀ row, withdrawn (set row) = true)
    (hselects : ∀ row ∈ rows, selects row = (describes (granted row) && !withdrawn row)) :
    Records granted withdrawn lapsed (Table.update selects set rows)
      (log ++ [.withdraw describes]) := by
  constructor
  · rw [Table.map_update hset, h.issued, issued_append]
    simp [Registry.issued]
  · intro row hmem hrow
    rcases Table.mem_update_cases hmem with ⟨before, _, _, rfl⟩ | ⟨hold, hother⟩
    · rw [hwithdrawn] at hrow
      cases hrow
    · rw [hselects row hold, hrow] at hother
      exact live_withdraw.mpr ⟨h.live row hold hrow, by simpa using hother⟩
  · intro row hmem hlive
    rw [live_withdraw] at hlive
    rcases Table.mem_update_cases hmem with ⟨before, hbefore, hselected, rfl⟩ | ⟨hold, _⟩
    · rw [hset] at hlive
      rw [hselects before hbefore, hlive.2] at hselected
      cases hselected
    · exact h.kept row hold hlive.1

-- An update withdraws rows whose credentials have lapsed.
theorem lapse (h : Records granted withdrawn lapsed rows log)
    (hset : ∀ row, granted (set row) = granted row) (hwithdrawn : ∀ row, withdrawn (set row) = true)
    (hselects : ∀ row ∈ rows, selects row = true → lapsed (granted row)) :
    Records granted withdrawn lapsed (Table.update selects set rows) log := by
  constructor
  · rw [Table.map_update hset, h.issued]
  · intro row hmem hrow
    rcases Table.mem_update_cases hmem with ⟨before, _, _, rfl⟩ | ⟨hold, _⟩
    · rw [hwithdrawn] at hrow
      cases hrow
    · exact h.live row hold hrow
  · intro row hmem hlive
    rcases Table.mem_update_cases hmem with ⟨before, hbefore, hselected, rfl⟩ | ⟨hold, _⟩
    · rw [hset]
      exact .inr (hselects before hbefore hselected)
    · exact h.kept row hold hlive

end Records

end Registry
