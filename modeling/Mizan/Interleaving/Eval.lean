import Mizan.Interleaving.Prog

namespace Interleaving

namespace Prog

variable {C : Type} {R : C → Type} {α β ε σ χ : Type}

-- A program on a machine that answers every command in one way.
def eval (handler : (c : C) → σ → R c × σ) : Prog C R α → σ → α × σ
  | .ret value, s => (value, s)
  | .call c next, s => eval handler (next (handler c s).1) (handler c s).2

variable {handler : (c : C) → σ → R c × σ}

theorem eval_bind (program : Prog C R α) (rest : α → Prog C R β) (s : σ) :
    eval handler (program >>= rest) s =
      eval handler (rest (eval handler program s).1) (eval handler program s).2 := by
  rw [bind_eq]
  induction program generalizing s with
  | ret value => rfl
  | call c next ih => simp only [bind_call, eval, ih]

-- The machine runs a program as one of the choices of a system that may answer like it.
theorem exists_play_eval {τ : Type} {exec : (c : C) → χ → τ → Option (R c × τ)} (view : σ → τ)
    (hexec : ∀ c s, ∃ choice, exec c choice (view s) = some ((handler c s).1, view (handler c s).2))
    (program : Prog C R α) (s : σ) : ∃ choices,
      play exec program choices (view s) =
        some ((eval handler program s).1, view (eval handler program s).2) := by
  induction program generalizing s with
  | ret value => exact ⟨[], rfl⟩
  | call c next ih =>
      obtain ⟨choice, hfirst⟩ := hexec c s
      obtain ⟨choices, hrest⟩ := ih (handler c s).1 (handler c s).2
      exact ⟨choice :: choices, by simp only [play, hfirst, hrest, eval]⟩

section Except

variable {program : ExceptT ε (Prog C R) α} {s s' : σ} {value : α} {error : ε}

theorem eval_pure (value : α) (s : σ) :
    eval handler (pure value : ExceptT ε (Prog C R) α).run s = (.ok value, s) := rfl

theorem eval_ok {rest : α → ExceptT ε (Prog C R) β}
    (h : eval handler program.run s = (.ok value, s')) :
    eval handler (program >>= rest).run s = eval handler (rest value).run s' := by
  rw [ExceptT.run_bind, eval_bind, h]

theorem eval_error {rest : α → ExceptT ε (Prog C R) β}
    (h : eval handler program.run s = (.error error, s')) :
    eval handler (program >>= rest).run s = (.error error, s') := by
  rw [ExceptT.run_bind, eval_bind, h]
  rfl

theorem eval_onError_ok {cleanup : Prog C R Unit}
    (h : eval handler program.run s = (.ok value, s')) :
    eval handler (onError cleanup program).run s = (.ok value, s') := by
  unfold onError
  rw [ExceptT.run_mk, eval_bind, h]
  rfl

theorem eval_onError_error {cleanup : Prog C R Unit}
    (h : eval handler program.run s = (.error error, s')) :
    eval handler (onError cleanup program).run s =
      (.error error, (eval handler cleanup s').2) := by
  unfold onError
  rw [ExceptT.run_mk, eval_bind, h]
  dsimp only
  rw [eval_bind]
  rfl

end Except

end Prog

end Interleaving
