import Mizan.Interleaving.Pool

namespace Interleaving

variable {C : Type} {R : C → Type} {σ α : Type}

-- What the next command of a thread waits for: for each resource it lacks, the threads of which
-- one has to give it up.
variable (waitsFor : Nat → C → σ → List (List Nat))

-- Threads that wait, each of them for a resource that only they could give up.
def Deadlock (config : Config C R α σ) (stuck : Nat → Prop) : Prop :=
  (∃ t, stuck t) ∧ ∀ t, stuck t → ∃ c next, config.threads t = some (.call c next) ∧
    ∃ holders ∈ waitsFor t c config.state, ∀ u ∈ holders, stuck u

def DeadlockFree (config : Config C R α σ) : Prop := ∀ stuck, ¬Deadlock waitsFor config stuck

-- A thread that waits for what it holds itself.
theorem deadlock_self {waitsFor : Nat → C → σ → List (List Nat)} {config : Config C R α σ} {t : Nat}
    {c : C} {next : R c → Prog C R α} (hthread : config.threads t = some (.call c next))
    {holders : List Nat} (hmem : holders ∈ waitsFor t c config.state)
    (hown : ∀ u ∈ holders, u = t) : Deadlock waitsFor config fun u => u = t := by
  refine ⟨⟨t, rfl⟩, ?_⟩
  rintro u rfl
  exact ⟨c, next, hthread, holders, hmem, hown⟩

end Interleaving
