import Mathlib.Control.Basic
import Mathlib.Tactic.Common

namespace Interleaving

variable {C : Type} {R : C → Type} {α β γ ε σ χ : Type}

-- A program is a tree of commands. `next` says how the program goes on with
-- the response of its command, which is the only thing it learns about the
-- state it shares with other programs.
inductive Prog (C : Type) (R : C → Type) (α : Type) where
  | ret (value : α)
  | call (command : C) (next : R command → Prog C R α)

namespace Prog

def bind : Prog C R α → (α → Prog C R β) → Prog C R β
  | .ret value, rest => rest value
  | .call command next, rest => .call command fun response => bind (next response) rest

instance : Monad (Prog C R) where
  pure := .ret
  bind := Prog.bind

theorem bind_eq (program : Prog C R α) (rest : α → Prog C R β) :
    program >>= rest = Prog.bind program rest := rfl

@[simp] theorem bind_ret (value : α) (rest : α → Prog C R β) :
    Prog.bind (.ret value) rest = rest value := rfl

@[simp] theorem bind_call (c : C) (next : R c → Prog C R α) (rest : α → Prog C R β) :
    Prog.bind (.call c next) rest = .call c fun response => Prog.bind (next response) rest := rfl

theorem bind_ret_right (program : Prog C R α) : Prog.bind program .ret = program := by
  induction program with
  | ret value => rfl
  | call c next ih => simp only [bind_call, ih]

theorem bind_assoc (program : Prog C R α) (f : α → Prog C R β) (g : β → Prog C R γ) :
    Prog.bind (Prog.bind program f) g = Prog.bind program fun value => Prog.bind (f value) g := by
  induction program with
  | ret value => rfl
  | call c next ih => simp only [bind_call, ih]

instance : LawfulMonad (Prog C R) :=
  LawfulMonad.mk' (Prog C R)
    (fun program => by simpa [Functor.map] using bind_ret_right program)
    (fun _ _ => rfl)
    (fun program f g => bind_assoc program f g)

def ask (c : C) : Prog C R (R c) := .call c .ret

-- One command whose response may be an error, raised under the caller's words for it.
def perform (c : C) (result : R c → Except ε α) : ExceptT ε (Prog C R) α :=
  ExceptT.mk (.call c fun response => .ret (result response))

-- What an early return leaves behind: `cleanup` runs before the error reaches the caller.
def onError (cleanup : Prog C R Unit) (program : ExceptT ε (Prog C R) α) :
    ExceptT ε (Prog C R) α :=
  ExceptT.mk do
    match ← program.run with
    | .ok value => pure (.ok value)
    | .error error =>
        cleanup
        pure (.error error)

def returned : Prog C R α → Option α
  | .ret value => some value
  | .call _ _ => none

theorem eq_ret_of_returned {program : Prog C R α} {value : α} (h : program.returned = some value) :
    program = .ret value := by
  cases program with
  | ret result => rw [Option.some.inj h]
  | call c next => cases h

-- The program alone, each of its commands answered under the next of `choices`.
def play (exec : (c : C) → χ → σ → Option (R c × σ)) :
    Prog C R α → List χ → σ → Option (α × σ)
  | .ret value, [], state => some (value, state)
  | .ret _, _ :: _, _ => none
  | .call _ _, [], _ => none
  | .call c next, choice :: choices, state =>
      match exec c choice state with
      | none => none
      | some (response, state') => play exec (next response) choices state'

variable {exec : (c : C) → χ → σ → Option (R c × σ)}

variable {allowed : χ → Prop}

-- Some choices, all of them allowed, take the program from one state to another.
def Returns (exec : (c : C) → χ → σ → Option (R c × σ)) (allowed : χ → Prop)
    (program : Prog C R α) (state : σ) (value : α) (state' : σ) : Prop :=
  ∃ choices, (∀ choice ∈ choices, allowed choice) ∧
    play exec program choices state = some (value, state')

theorem play_bind {program : Prog C R α} {rest : α → Prog C R β} {before after : List χ}
    {s s' : σ} {value : α} (h : play exec program before s = some (value, s')) :
    play exec (program >>= rest) (before ++ after) s = play exec (rest value) after s' := by
  rw [bind_eq]
  induction program generalizing before s with
  | ret result =>
      cases before with
      | nil =>
          cases h
          rfl
      | cons => cases h
  | call c next ih =>
      cases before with
      | nil => cases h
      | cons choice before =>
          simp only [bind_call, List.cons_append, play] at h ⊢
          cases hexec : exec c choice s with
          | none => simp [hexec] at h
          | some result =>
              simp only [hexec] at h ⊢
              exact ih result.1 h

-- The choices of a program that goes on are those of its beginning and then those of the rest.
theorem exists_play_of_bind {program : Prog C R α} {rest : α → Prog C R β} {choices : List χ}
    {s s' : σ} {value : β} (h : play exec (program >>= rest) choices s = some (value, s')) :
    ∃ before after result middle, choices = before ++ after ∧
      play exec program before s = some (result, middle) ∧
        play exec (rest result) after middle = some (value, s') := by
  rw [bind_eq] at h
  induction program generalizing choices s with
  | ret result => exact ⟨[], choices, result, s, rfl, rfl, h⟩
  | call c next ih =>
      cases choices with
      | nil => cases h
      | cons choice choices =>
          simp only [bind_call, play] at h
          cases hexec : exec c choice s with
          | none => simp [hexec] at h
          | some answer =>
              simp only [hexec] at h
              obtain ⟨before, after, result, middle, rfl, hbefore, hafter⟩ := ih answer.1 h
              exact ⟨choice :: before, after, result, middle, rfl,
                by simp only [play, hexec, hbefore], hafter⟩

-- Where no command ever has to wait, every program returns.
theorem exists_play (hexec : ∀ c s, ∃ x response s', exec c x s = some (response, s'))
    (program : Prog C R α) (s : σ) : ∃ choices value s',
      play exec program choices s = some (value, s') := by
  induction program generalizing s with
  | ret value => exact ⟨[], value, s, rfl⟩
  | call c next ih =>
      obtain ⟨choice, response, s', hfirst⟩ := hexec c s
      obtain ⟨choices, value, s'', hrest⟩ := ih response s'
      exact ⟨choice :: choices, value, s'', by simp only [play, hfirst, hrest]⟩

theorem returns_ret (value : α) (s : σ) :
    Returns exec allowed (.ret value : Prog C R α) s value s :=
  ⟨[], by simp, rfl⟩

theorem returns_call {c : C} {next : R c → Prog C R α} {choice : χ} {response : R c} {s s' s'' : σ}
    {value : α} (hallowed : allowed choice) (hexec : exec c choice s = some (response, s'))
    (h : Returns exec allowed (next response) s' value s'') :
    Returns exec allowed (.call c next) s value s'' := by
  obtain ⟨choices, hchoices, hplay⟩ := h
  exact ⟨choice :: choices, by simpa [hallowed] using hchoices, by simp only [play, hexec, hplay]⟩

theorem returns_bind {program : Prog C R α} {rest : α → Prog C R β} {s s' s'' : σ} {value : α}
    {result : β} (h : Returns exec allowed program s value s')
    (hrest : Returns exec allowed (rest value) s' result s'') :
    Returns exec allowed (program >>= rest) s result s'' := by
  obtain ⟨before, hallowed, hbefore⟩ := h
  obtain ⟨after, hallowed', hafter⟩ := hrest
  refine ⟨before ++ after, ?_, by rw [play_bind hbefore, hafter]⟩
  intro choice hchoice
  exact (List.mem_append.mp hchoice).elim (hallowed choice) (hallowed' choice)

section Except

variable {program : ExceptT ε (Prog C R) α} {s s' s'' : σ} {value : α}

theorem returns_pure (value : α) (s : σ) :
    Returns exec allowed (pure value : ExceptT ε (Prog C R) α).run s (.ok value) s :=
      returns_ret _ s

theorem returns_perform {c : C} {result : R c → Except ε α} {choice : χ} {response : R c}
    (hallowed : allowed choice) (hexec : exec c choice s = some (response, s'))
    (hresult : result response = .ok value) :
    Returns exec allowed (perform c result).run s (.ok value) s' := by
  rw [← hresult]
  exact returns_call hallowed hexec (returns_ret _ s')

theorem returns_except_bind {rest : α → ExceptT ε (Prog C R) β} {result : Except ε β}
    (h : Returns exec allowed program.run s (.ok value) s')
    (hrest : Returns exec allowed (rest value).run s' result s'') :
    Returns exec allowed (program >>= rest).run s result s'' := by
  rw [ExceptT.run_bind]
  exact returns_bind h hrest

theorem returns_except_error {rest : α → ExceptT ε (Prog C R) β} {error : ε}
    (h : Returns exec allowed program.run s (.error error) s') :
    Returns exec allowed (program >>= rest).run s (.error error) s' := by
  rw [ExceptT.run_bind]
  exact returns_bind h (returns_ret _ s')

theorem returns_throw (error : ε) (s : σ) :
    Returns exec allowed (throw error : ExceptT ε (Prog C R) α).run s (.error error) s :=
      returns_ret _ s

theorem returns_onError_error {cleanup : Prog C R Unit} {error : ε}
    (h : Returns exec allowed program.run s (.error error) s')
    (hcleanup : Returns exec allowed cleanup s' () s'') :
    Returns exec allowed (onError cleanup program).run s (.error error) s'' :=
  returns_bind h (returns_bind hcleanup (returns_ret _ s''))

theorem returns_onError {cleanup : Prog C R Unit}
    (h : Returns exec allowed program.run s (.ok value) s') :
    Returns exec allowed (onError cleanup program).run s (.ok value) s' :=
  returns_bind h (returns_ret _ s')

-- What was played is played in order: the beginning, and the rest unless the beginning failed.
theorem exists_play_of_perform {c : C} {result : R c → Except ε α} {choices : List χ}
    {answer : Except ε α} (h : play exec (perform c result).run choices s = some (answer, s')) :
    ∃ choice response, choices = [choice] ∧ exec c choice s = some (response, s') ∧
      answer = result response := by
  have hrun : (perform c result).run = .call c fun response => .ret (result response) := rfl
  cases choices with
  | nil => cases h
  | cons choice choices =>
      simp only [hrun, play] at h
      cases hexec : exec c choice s with
      | none => simp [hexec] at h
      | some answered =>
          simp only [hexec] at h
          cases choices with
          | nil =>
              cases h
              exact ⟨choice, answered.1, rfl, hexec, rfl⟩
          | cons => cases h

theorem exists_play_of_seq {rest : α → ExceptT ε (Prog C R) β} {choices : List χ}
    {result : Except ε β} (h : play exec (program >>= rest).run choices s = some (result, s')) :
    (∃ error, result = .error error ∧ play exec program.run choices s = some (.error error, s')) ∨
    ∃ before after value middle, choices = before ++ after ∧
      play exec program.run before s = some (.ok value, middle) ∧
        play exec (rest value).run after middle = some (result, s') := by
  rw [ExceptT.run_bind] at h
  obtain ⟨before, after, answer, middle, rfl, hbefore, hafter⟩ := exists_play_of_bind h
  cases answer with
  | ok value => exact .inr ⟨before, after, value, middle, rfl, hbefore, hafter⟩
  | error error =>
      cases after with
      | nil =>
          cases hafter
          exact .inl ⟨error, rfl, by rw [List.append_nil]; exact hbefore⟩
      | cons => cases hafter

theorem exists_play_of_onError {cleanup : Prog C R Unit} {choices : List χ}
    {result : Except ε α} (h : play exec (onError cleanup program).run choices s =
      some (result, s')) :
    (∃ value, result = .ok value ∧ play exec program.run choices s = some (.ok value, s')) ∨
    ∃ before after error middle, choices = before ++ after ∧ result = .error error ∧
      play exec program.run before s = some (.error error, middle) := by
  rw [onError, ExceptT.run_mk] at h
  obtain ⟨before, after, answer, middle, rfl, hbefore, hafter⟩ := exists_play_of_bind h
  cases answer with
  | ok value =>
      cases after with
      | nil =>
          cases hafter
          exact .inl ⟨value, rfl, by rw [List.append_nil]; exact hbefore⟩
      | cons => cases hafter
  | error error =>
      obtain ⟨undone, last, _, _, rfl, _, hlast⟩ := exists_play_of_bind hafter
      cases last with
      | nil =>
          cases hlast
          exact .inr ⟨before, undone ++ [], error, middle, rfl, rfl, hbefore⟩
      | cons => cases hlast

end Except

end Prog

end Interleaving
