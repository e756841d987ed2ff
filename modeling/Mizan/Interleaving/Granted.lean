import Mizan.Interleaving.Rely

namespace Interleaving

variable {C : Type} {R : C → Type} {χ σ α ε : Type}

namespace Protocol

section Granted

-- Nothing is promised, but the steps of a run meet a condition of their own.
def granted (sys : System C R χ σ) (admits : Nat → C → χ → σ → Prop) : Protocol sys :=
  { unconstrained sys with admits }

variable {sys : System C R χ σ} {admits : Nat → C → χ → σ → Prop} {t : Nat}

theorem granted_perform {c : C} {result : R c → Except ε α} {post : α → Prop}
    {failed : ε → Prop} {s : σ}
    (h : ∀ s x response s', admits t c x s → sys.exec t c x s = some (response, s') →
      outcome (fun value _ => post value) (fun error _ => failed error) (result response) s') :
    (granted sys admits).ewp t (Prog.perform c result) (fun value _ => post value)
      (fun error _ => failed error) s := by
  apply ewp_perform
  intro s₁ _ _ x response s₂ hadmits hexec
  refine ⟨⟨trivial, fun _ _ => trivial⟩, fun s₃ _ _ => ?_⟩
  have houtcome := h s₁ x response s₂ hadmits hexec
  cases hresult : result response with
  | ok value =>
    rw [hresult] at houtcome
    exact houtcome
  | error error =>
    rw [hresult] at houtcome
    exact houtcome

theorem granted_any (program : Prog C R α) (s : σ) :
    (granted sys admits).wp t program (fun _ _ => True) s := by
  induction program generalizing s with
  | ret value => exact fun _ _ _ => trivial
  | call c next ih =>
      exact fun _ _ _ _ response s'' _ _ => ⟨⟨trivial, fun _ _ => trivial⟩, ih response s''⟩

-- What one thread returns in every run that meets the condition, in any company.
theorem granted_returned (code : Nat → Prog C R α) {post : α → Prop}
    (hcode : ∀ s, (granted sys admits).wp t (code t) (fun value _ => post value) s)
    {actions : List (Action χ)} {s : σ} {config : Config C R α σ}
    (hrun : sys.run code actions (System.initial s) = some config)
    (hmeets : sys.Meets code (granted sys admits).Allowed actions (System.initial s)) {value : α}
    (hthread : config.threads t = some (.ret value)) : post value := by
  have hcodes : ∀ u s, (granted sys admits).inv s → (granted sys admits).fresh u s →
      (granted sys admits).wp u (code u) (fun value _ => u = t → post value) s := by
    intro u s _ _
    by_cases hu : u = t
    · subst hu
      exact wp_mono (fun value _ _ hpost _ => hpost) (hcode s)
    · exact wp_mono (fun _ _ _ _ habsurd => absurd habsurd hu) (granted_any (code u) s)
  have hgood := good_run code (fun u value _ => u = t → post value) hcodes actions hrun hmeets
    (good_initial _ trivial fun _ => trivial)
  exact hgood.returned hthread rfl

end Granted

end Protocol

end Interleaving
