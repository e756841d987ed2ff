import Mathlib.Data.List.Induction

namespace Registry

variable {ρ : Type}

-- What happens to credentials: one is issued, or all that match a description are withdrawn.
inductive Entry (ρ : Type) where
  | issue (credential : ρ)
  | withdraw (selects : ρ → Bool)

def issued (log : List (Entry ρ)) : List ρ :=
  log.filterMap fun
    | .issue credential => some credential
    | .withdraw _ => none

-- Issued, and not withdrawn since.
def Live (log : List (Entry ρ)) (credential : ρ) : Prop :=
  ∃ before after, log = before ++ .issue credential :: after ∧
    ∀ selects, .withdraw selects ∈ after → selects credential = false

variable {log more : List (Entry ρ)} {entry : Entry ρ} {credential other : ρ} {selects : ρ → Bool}

theorem issued_append (log more : List (Entry ρ)) :
    issued (log ++ more) = issued log ++ issued more := List.filterMap_append

theorem mem_issued : credential ∈ issued log ↔ .issue credential ∈ log := by
  rw [issued, List.mem_filterMap]
  constructor
  · rintro ⟨entry, hmem, hentry⟩
    cases entry with
    | issue other =>
        rw [← Option.some.inj hentry]
        exact hmem
    | withdraw selects => cases hentry
  · exact fun hmem => ⟨.issue credential, hmem, rfl⟩

theorem Live.mem_issued (h : Live log credential) : credential ∈ issued log := by
  obtain ⟨before, after, rfl, _⟩ := h
  rw [Registry.mem_issued]
  simp

-- What one more entry leaves of the credentials.
theorem live_concat : Live (log ++ [entry]) credential ↔
    entry = .issue credential ∨
      Live log credential ∧ ∀ selects, entry = .withdraw selects → selects credential = false := by
  constructor
  · rintro ⟨before, after, hlog, hkept⟩
    rcases List.eq_nil_or_concat after with rfl | ⟨rest, last, rfl⟩
    · exact .inl (List.singleton_inj.mp (List.append_inj' hlog rfl).2)
    · rw [List.concat_eq_append] at hlog hkept
      rw [← List.cons_append, ← List.append_assoc] at hlog
      obtain ⟨hbefore, hlast⟩ := List.append_inj' hlog rfl
      have hentry : entry = last := List.singleton_inj.mp hlast
      refine .inr ⟨⟨before, rest, hbefore, fun selects hmem => ?_⟩, fun selects hselects => ?_⟩
      · exact hkept selects (List.mem_append_left _ hmem)
      · rw [← hentry, hselects] at hkept
        exact hkept selects (List.mem_append_right _ (List.mem_singleton.mpr rfl))
  · rintro (rfl | ⟨⟨before, after, rfl, hkept⟩, hentry⟩)
    · exact ⟨log, [], rfl, by simp⟩
    · refine ⟨before, after ++ [entry], by simp, fun selects hmem => ?_⟩
      rcases List.mem_append.mp hmem with hold | hnew
      · exact hkept selects hold
      · exact hentry selects (List.mem_singleton.mp hnew).symm

theorem live_issue : Live (log ++ [.issue other]) credential ↔
    other = credential ∨ Live log credential := by
  simp [live_concat]

theorem live_withdraw : Live (log ++ [.withdraw selects]) credential ↔
    Live log credential ∧ selects credential = false := by
  simp [live_concat]

-- A credential that is not issued again does not come back.
theorem Live.of_append (h : Live (log ++ more) credential) (hmore : credential ∉ issued more) :
    Live log credential := by
  induction more using List.reverseRecOn with
  | nil => rwa [List.append_nil] at h
  | append_singleton more entry ih =>
      rw [issued_append, List.mem_append, not_or] at hmore
      rw [← List.append_assoc, live_concat] at h
      rcases h with rfl | ⟨hlive, _⟩
      · exact absurd (by simp [issued]) hmore.2
      · exact ih hlive hmore.1

theorem not_mem_issued_of_nodup (hnodup : (issued (log ++ more)).Nodup)
    (hissued : credential ∈ issued log) : credential ∉ issued more := by
  rw [issued_append, List.nodup_append] at hnodup
  exact fun hmem => hnodup.2.2 credential hissued credential hmem rfl

end Registry
