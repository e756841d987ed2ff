import Mizan.Interleaving.Prog
import Mathlib.Logic.Function.Basic

namespace Interleaving

variable {C : Type} {R : C → Type} {χ σ α : Type}

-- `exec` runs one command of one thread as one atomic step. `none` means that
-- the command has to wait in this state. `env` is what happens without a thread.
-- The choice decides everything that the state leaves open.
structure System (C : Type) (R : C → Type) (χ σ : Type) where
  exec : Nat → (c : C) → χ → σ → Option (R c × σ)
  env : χ → σ → Option σ

inductive Action (χ : Type) where
  | spawn (thread : Nat)
  | call (thread : Nat) (choice : χ)
  | env (choice : χ)
  deriving DecidableEq, Repr

structure Config (C : Type) (R : C → Type) (α σ : Type) where
  state : σ
  threads : Nat → Option (Prog C R α)

namespace System

variable (sys : System C R χ σ) (code : Nat → Prog C R α)

def step : Action χ → Config C R α σ → Option (Config C R α σ)
  | .spawn thread, config =>
      match config.threads thread with
      | none => some { config with threads := Function.update config.threads thread (code thread) }
      | some _ => none
  | .call thread choice, config =>
      match config.threads thread with
      | some (.call c next) =>
          match sys.exec thread c choice config.state with
          | none => none
          | some (response, state) =>
              some { state, threads := Function.update config.threads thread (next response) }
      | _ => none
  | .env choice, config =>
      (sys.env choice config.state).map fun state => { config with state }

def run : List (Action χ) → Config C R α σ → Option (Config C R α σ)
  | [], config => some config
  | action :: actions, config => (sys.step code action config).bind (run actions)

-- Every step of the run is taken in a configuration where `allowed` holds of it.
def Meets (allowed : Action χ → Config C R α σ → Prop) :
    List (Action χ) → Config C R α σ → Prop
  | [], _ => True
  | action :: actions, config =>
      allowed action config ∧
        ∀ config', sys.step code action config = some config' → Meets allowed actions config'

def initial (state : σ) : Config C R α σ := { state, threads := fun _ => none }

theorem run_append (before after : List (Action χ)) (config : Config C R α σ) :
    sys.run code (before ++ after) config =
      (sys.run code before config).bind (sys.run code after) := by
  induction before generalizing config with
  | nil => rfl
  | cons action before ih =>
      simp only [List.cons_append, run]
      cases sys.step code action config with
      | none => rfl
      | some config' => exact ih config'

-- What a thread has returned at the end of a run.
def returned (actions : List (Action χ)) (config : Config C R α σ) (t : Nat) : Option α :=
  ((sys.run code actions config).bind fun config' => config'.threads t).bind Prog.returned

theorem exists_run_of_returned {actions : List (Action χ)} {config : Config C R α σ} {t : Nat}
    {value : α} (h : sys.returned code actions config t = some value) :
    ∃ config', sys.run code actions config = some config' ∧
      config'.threads t = some (.ret value) := by
  obtain ⟨program, hprogram, hvalue⟩ := Option.bind_eq_some_iff.mp h
  obtain ⟨config', hrun, hthread⟩ := Option.bind_eq_some_iff.mp hprogram
  exact ⟨config', hrun, by rw [hthread, Prog.eq_ret_of_returned hvalue]⟩

-- A property that every allowed step keeps holds wherever an allowed run leads.
theorem run_invariant {allowed : Action χ → Config C R α σ → Prop}
    {property : Config C R α σ → Prop}
    (hstep : ∀ action config config', property config → allowed action config →
      sys.step code action config = some config' → property config')
    (actions : List (Action χ)) {config config' : Config C R α σ}
    (hrun : sys.run code actions config = some config')
    (hmeets : sys.Meets code allowed actions config) (hstart : property config) :
    property config' := by
  induction actions generalizing config with
  | nil =>
      cases hrun
      exact hstart
  | cons action actions ih =>
      obtain ⟨middle, hfirst, hrest⟩ := Option.bind_eq_some_iff.mp hrun
      exact ih hrest (hmeets.2 middle hfirst) (hstep action config middle hstart hmeets.1 hfirst)

variable {sys code} in
-- What every command and every event of the surroundings does to the state, every step does.
theorem step_relates {relation : σ → σ → Prop} (hrefl : ∀ s, relation s s)
    (hexec : ∀ t c x s response s', sys.exec t c x s = some (response, s') → relation s s')
    (henv : ∀ x s s', sys.env x s = some s' → relation s s') {action : Action χ}
    {config config' : Config C R α σ} (h : sys.step code action config = some config') :
    relation config.state config'.state := by
  cases action with
  | spawn t =>
      simp only [step] at h
      split at h
      · cases h
        exact hrefl _
      · cases h
  | env x =>
      simp only [step, Option.map_eq_some_iff] at h
      obtain ⟨state, hstate, rfl⟩ := h
      exact henv x _ _ hstate
  | call t x =>
      simp only [step] at h
      split at h
      · rename_i c next _
        cases hanswer : sys.exec t c x config.state with
        | none => simp [hanswer] at h
        | some result =>
            simp only [hanswer, Option.some.injEq] at h
            subst h
            exact hexec t c x _ result.1 result.2 hanswer
      · cases h

variable {sys code} in
theorem call_of_step {t : Nat} {x : χ} {config config' : Config C R α σ}
    (h : sys.step code (.call t x) config = some config') :
    ∃ c next response s', config.threads t = some (.call c next) ∧
      sys.exec t c x config.state = some (response, s') ∧
      config' =
        { state := s', threads := Function.update config.threads t (some (next response)) } := by
  simp only [step] at h
  split at h
  · rename_i c next hthread
    cases hanswer : sys.exec t c x config.state with
    | none => simp [hanswer] at h
    | some result =>
      simp only [hanswer, Option.some.injEq] at h
      exact ⟨c, next, result.1, result.2, hthread, hanswer, h.symm⟩
  · cases h

variable {sys code} in
theorem spawn_of_step {t : Nat} {config config' : Config C R α σ}
    (h : sys.step code (.spawn t) config = some config') :
    config.threads t = none ∧
      config' = { config with threads := Function.update config.threads t (some (code t)) } := by
  simp only [step] at h
  split at h
  · rename_i hthread
    exact ⟨hthread, (Option.some.inj h).symm⟩
  · cases h

variable {sys code} in
-- A step moves no thread but its own.
theorem threads_of_step {action : Action χ} {config config' : Config C R α σ}
    (h : sys.step code action config = some config') (t : Nat) :
    config'.threads t = config.threads t ∨ config'.threads t = some (code t) ∨
      ∃ choice c next response s', action = .call t choice ∧
        config.threads t = some (.call c next) ∧
        sys.exec t c choice config.state = some (response, s') ∧
        config'.threads t = some (next response) := by
  cases action with
  | spawn u =>
      simp only [step] at h
      split at h
      · cases h
        by_cases heq : t = u
        · subst heq
          exact .inr (.inl (Function.update_self ..))
        · exact .inl (Function.update_of_ne heq ..)
      · cases h
  | env x =>
      simp only [step, Option.map_eq_some_iff] at h
      obtain ⟨state, _, rfl⟩ := h
      exact .inl rfl
  | call u x =>
      simp only [step] at h
      split at h
      · rename_i c next hthread
        cases hanswer : sys.exec u c x config.state with
        | none => simp [hanswer] at h
        | some result =>
            simp only [hanswer, Option.some.injEq] at h
            subst h
            by_cases heq : t = u
            · subst heq
              exact .inr (.inr ⟨x, c, next, result.1, result.2, rfl, hthread, hanswer,
                Function.update_self ..⟩)
            · exact .inl (Function.update_of_ne heq ..)
      · cases h

variable {sys code} in
-- What is true of a program and of all that it can become stays true of its thread.
theorem thread_run {t : Nat} {property : Prog C R α → Prop} (hcode : property (code t))
    (hnext : ∀ c next choice s response s', property (.call c next) →
      sys.exec t c choice s = some (response, s') → property (next response))
    {actions : List (Action χ)} {config config' : Config C R α σ}
    (hrun : sys.run code actions config = some config')
    (hthread : ∀ program, config.threads t = some program → property program) :
    ∀ program, config'.threads t = some program → property program := by
  induction actions generalizing config with
  | nil =>
      cases hrun
      exact hthread
  | cons action actions ih =>
      obtain ⟨middle, hfirst, hrest⟩ := Option.bind_eq_some_iff.mp hrun
      refine ih hrest fun program hprogram => ?_
      obtain hsame | hspawned | ⟨choice, c, next, response, s', _, hcall, hexec, hafter⟩ :=
        threads_of_step hfirst t
      · rw [hsame] at hprogram
        exact hthread program hprogram
      · rw [hspawned] at hprogram
        exact Option.some.inj hprogram ▸ hcode
      · rw [hafter] at hprogram
        rw [← Option.some.inj hprogram]
        exact hnext c next choice _ response s' (hthread _ hcall) hexec

variable {sys code} in
theorem Meets.cons {allowed : Action χ → Config C R α σ → Prop} {action : Action χ}
    {actions : List (Action χ)} {config config' : Config C R α σ} (hallowed : allowed action config)
    (hstep : sys.step code action config = some config')
    (h : sys.Meets code allowed actions config') :
    sys.Meets code allowed (action :: actions) config := by
  refine ⟨hallowed, fun middle hmiddle => ?_⟩
  obtain rfl := Option.some.inj (hstep.symm.trans hmiddle)
  exact h

theorem Meets.append {allowed : Action χ → Config C R α σ → Prop} {before after : List (Action χ)}
    {config middle : Config C R α σ} (h : sys.Meets code allowed (before ++ after) config)
    (hbefore : sys.run code before config = some middle) :
    sys.Meets code allowed before config ∧ sys.Meets code allowed after middle := by
  induction before generalizing config with
  | nil =>
    cases hbefore
    exact ⟨trivial, h⟩
  | cons action before ih =>
    obtain ⟨next, hfirst, hrest⟩ := Option.bind_eq_some_iff.mp hbefore
    obtain ⟨hmeets, hafter⟩ := ih (h.2 next hfirst) hrest
    refine ⟨⟨h.1, fun other hother => ?_⟩, hafter⟩
    obtain rfl := Option.some.inj (hfirst.symm.trans hother)
    exact hmeets

-- A run can be checked step by step where the condition on its steps can.
def checks (allowed : Action χ → Config C R α σ → Bool) :
    List (Action χ) → Config C R α σ → Bool
  | [], _ => true
  | action :: actions, config => allowed action config &&
      match sys.step code action config with
      | none => true
      | some config' => checks allowed actions config'

theorem meets_of_checks {allowed : Action χ → Config C R α σ → Bool} {actions : List (Action χ)}
    {config : Config C R α σ} (h : sys.checks code allowed actions config = true) :
    sys.Meets code (fun action config => allowed action config = true) actions config := by
  induction actions generalizing config with
  | nil => trivial
  | cons action actions ih =>
      simp only [checks, Bool.and_eq_true] at h
      refine ⟨h.1, fun config' hstep => ih ?_⟩
      simpa only [hstep] using h.2

theorem meets_true (actions : List (Action χ)) (config : Config C R α σ) :
    sys.Meets code (fun _ _ => True) actions config := by
  induction actions generalizing config with
  | nil => trivial
  | cons action actions ih => exact ⟨trivial, fun config' _ => ih config'⟩

theorem Meets.imp {allowed allowed' : Action χ → Config C R α σ → Prop}
    (himp : ∀ action config, allowed action config → allowed' action config)
    (actions : List (Action χ)) (config : Config C R α σ)
    (h : sys.Meets code allowed actions config) : sys.Meets code allowed' actions config := by
  induction actions generalizing config with
  | nil => trivial
  | cons action actions ih =>
      exact ⟨himp action config h.1, fun config' hnext => ih config' (h.2 config' hnext)⟩

end System

end Interleaving
