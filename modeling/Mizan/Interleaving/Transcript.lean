import Mizan.Interleaving.Prog

namespace Interleaving

namespace Prog

variable {C : Type} {R : C → Type} {α β σ : Type}

-- What a program asked and what it was answered.
abbrev Exchange (C : Type) (R : C → Type) := Σ c : C, R c

-- The program returns the value after these exchanges, whoever answered.
inductive Completes : Prog C R α → List (Exchange C R) → α → Prop where
  | ret (value : α) : Completes (.ret value) [] value
  | call {c : C} {next : R c → Prog C R α} (response : R c) {rest : List (Exchange C R)} {value : α}
      (h : Completes (next response) rest value) :
      Completes (.call c next) (⟨c, response⟩ :: rest) value

variable {program : Prog C R α} {transcript : List (Exchange C R)} {value : α}

theorem completes_ret {result : α} (h : Completes (.ret value : Prog C R α) transcript result) :
    transcript = [] ∧ result = value := by
  cases h
  exact ⟨rfl, rfl⟩

theorem completes_pure {result : α} (h : Completes (pure value : Prog C R α) transcript result) :
    transcript = [] ∧ result = value := completes_ret h

theorem completes_ask {c : C} {response : R c} (h : Completes (ask c) transcript response) :
    transcript = [⟨c, response⟩] := by
  cases h with
  | call response h =>
      obtain ⟨rfl, rfl⟩ := completes_ret h
      rfl

theorem completes_bind {rest : α → Prog C R β} {value : β}
    (h : Completes (program >>= rest) transcript value) :
    ∃ before after result, transcript = before ++ after ∧ Completes program before result ∧
      Completes (rest result) after value := by
  rw [bind_eq] at h
  induction program generalizing transcript with
  | ret result => exact ⟨[], transcript, result, rfl, .ret result, h⟩
  | call c next ih =>
      cases h with
      | call response h =>
          obtain ⟨before, after, result, rfl, hbefore, hafter⟩ := ih response h
          exact ⟨⟨c, response⟩ :: before, after, result, rfl, .call response hbefore, hafter⟩

-- The exchanges of a program with somebody who keeps a state.
def converse (answer : (c : C) → σ → R c × σ) : Prog C R α → σ → List (Exchange C R) × α × σ
  | .ret value, state => ([], value, state)
  | .call c next, state =>
      let (response, state) := answer c state
      let (transcript, result) := converse answer (next response) state
      (⟨c, response⟩ :: transcript, result)

theorem completes_converse (answer : (c : C) → σ → R c × σ) (program : Prog C R α) (state : σ) :
    Completes program (converse answer program state).1 (converse answer program state).2.1 := by
  induction program generalizing state with
  | ret value => exact .ret value
  | call c next ih => exact .call _ (ih _ _)

end Prog

end Interleaving
