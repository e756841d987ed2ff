import Mathlib.Tactic.Common

namespace Machine

variable {A S : Type}

-- A machine takes an action in a state, or cannot take it there.
def run (step : A → S → Option S) : List A → S → Option S
  | [], s => some s
  | action :: actions, s => (step action s).bind (run step actions)

-- Every action of the run is taken in a state where `allowed` holds of it.
def Meets (step : A → S → Option S) (allowed : A → S → Prop) : List A → S → Prop
  | [], _ => True
  | action :: actions, s =>
      allowed action s ∧ ∀ s', step action s = some s' → Meets step allowed actions s'

variable {step : A → S → Option S} {s s' : S}

theorem run_cons {action : A} {actions : List A} (h : run step (action :: actions) s = some s') :
    ∃ middle, step action s = some middle ∧ run step actions middle = some s' :=
  Option.bind_eq_some_iff.mp h

theorem meets_cons {allowed : A → S → Prop} {action : A} {actions : List A}
    (hstep : step action s = some s') :
    Meets step allowed (action :: actions) s ↔
    allowed action s ∧ Meets step allowed actions s' := by
  constructor
  · exact fun h => ⟨h.1, h.2 s' hstep⟩
  · intro h
    refine ⟨h.1, fun middle hmiddle => ?_⟩
    rw [hstep] at hmiddle
    rw [← Option.some.inj hmiddle]
    exact h.2

-- A property that every step keeps holds wherever a run leads.
theorem run_invariant {property : S → Prop}
    (hstep : ∀ action s s', property s → step action s = some s' → property s')
    (actions : List A) (hrun : run step actions s = some s') (hstart : property s) :
    property s' := by
  induction actions generalizing s with
  | nil =>
      cases hrun
      exact hstart
  | cons action actions ih =>
      obtain ⟨middle, hfirst, hrest⟩ := run_cons hrun
      exact ih hrest (hstep action s middle hstart hfirst)

end Machine
