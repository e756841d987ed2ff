import Mizan.Interleaving.Pool
import Mizan.Interleaving.Throughout

namespace Interleaving

variable {C C' : Type} {R : C → Type} {R' : C' → Type} {χ σ α β ε : Type} {allowed : C → Prop}

-- The program asks nothing but allowed commands, whatever it is answered.
def Prog.Asks (allowed : C → Prop) : Prog C R α → Prop
  | .ret _ => True
  | .call c next => allowed c ∧ ∀ response, Asks allowed (next response)

namespace Prog

theorem asks_bind {program : Prog C R α} {rest : α → Prog C R β} (h : program.Asks allowed)
    (hrest : ∀ value, (rest value).Asks allowed) : (program >>= rest).Asks allowed := by
  rw [bind_eq]
  induction program with
  | ret value => exact hrest value
  | call c next ih => exact ⟨h.1, fun response => ih response (h.2 response)⟩

theorem asks_of_forall (h : ∀ c, allowed c) (program : Prog C R α) : program.Asks allowed := by
  induction program with
  | ret value => trivial
  | call c next ih => exact ⟨h c, ih⟩

theorem asks_embed {inject : C → C'} {back : ∀ c, R' (inject c) → R c} {allowed : C' → Prop}
    {program : Prog C R α} (h : program.Asks fun c => allowed (inject c)) :
    (embed inject back program).Asks allowed := by
  induction program with
  | ret value => trivial
  | call c next ih => exact ⟨h.1, fun response => ih _ (h.2 (back c response))⟩

theorem asks_ask {c : C} (h : allowed c) : (ask c : Prog C R (R c)).Asks allowed :=
  ⟨h, fun _ => trivial⟩

theorem asks_perform {c : C} {result : R c → Except ε α} (h : allowed c) :
    (perform c result).run.Asks allowed :=
  ⟨h, fun _ => trivial⟩

theorem asks_seq {program : ExceptT ε (Prog C R) α} {rest : α → ExceptT ε (Prog C R) β}
    (h : program.run.Asks allowed) (hrest : ∀ value, (rest value).run.Asks allowed) :
    (program >>= rest).run.Asks allowed := by
  rw [ExceptT.run_bind]
  apply asks_bind h
  intro result
  cases result with
  | ok value => exact hrest value
  | error error => trivial

theorem asks_onError {cleanup : Prog C R Unit} {program : ExceptT ε (Prog C R) α}
    (hcleanup : cleanup.Asks allowed) (h : program.run.Asks allowed) :
    (onError cleanup program).run.Asks allowed := by
  apply asks_bind h
  intro result
  cases result with
  | ok value => trivial
  | error error => exact asks_bind hcleanup fun _ => trivial

end Prog

section Run

variable {sys : System C R χ σ} {code : Nat → Prog C R α} {relation : σ → σ → Prop}

-- One thread asks nothing but allowed commands from here on.
def Config.ObeysAt (allowed : C → Prop) (t : Nat) (config : Config C R α σ) : Prop :=
  ∀ program, config.threads t = some program → program.Asks allowed

-- Every thread does.
def Config.Obeys (allowed : C → Prop) (config : Config C R α σ) : Prop :=
  ∀ t, config.ObeysAt allowed t

theorem obeys_initial (state : σ) :
    (System.initial state : Config C R α σ).Obeys allowed := by
  intro t program hthread
  cases hthread

theorem obeysAt_step {t : Nat} (hcode : (code t).Asks allowed) {action : Action χ}
    {config config' : Config C R α σ} (h : config.ObeysAt allowed t)
    (hstep : sys.step code action config = some config') : config'.ObeysAt allowed t := by
  intro program hprogram
  obtain hsame | hspawned | ⟨choice, c, next, response, s', _, hcall, _, hafter⟩ :=
    System.threads_of_step hstep t
  · exact h program (hsame ▸ hprogram)
  · rw [Option.some.inj (hspawned.symm.trans hprogram)] at hcode
    exact hcode
  · have hasks := (h _ hcall).2 response
    rw [Option.some.inj (hafter.symm.trans hprogram)] at hasks
    exact hasks

theorem obeys_step (hcode : ∀ t, (code t).Asks allowed) {action : Action χ}
    {config config' : Config C R α σ} (h : config.Obeys allowed)
    (hstep : sys.step code action config = some config') : config'.Obeys allowed :=
  fun t => obeysAt_step (hcode t) (h t) hstep

theorem obeysAt_run {t : Nat} (hcode : (code t).Asks allowed) {actions : List (Action χ)}
    {config config' : Config C R α σ} (h : config.ObeysAt allowed t)
    (hrun : sys.run code actions config = some config') : config'.ObeysAt allowed t := by
  induction actions generalizing config with
  | nil =>
      cases hrun
      exact h
  | cons action actions ih =>
      obtain ⟨middle, hstep, hrest⟩ := Option.bind_eq_some_iff.mp hrun
      exact ih (obeysAt_step hcode h hstep) hrest

-- What every allowed command and every event of the surroundings does to the state, a step does.
theorem step_of_obeys (hrefl : ∀ s, relation s s)
    (hexec : ∀ t c x s response s', allowed c → sys.exec t c x s = some (response, s') →
      relation s s')
    (henv : ∀ x s s', sys.env x s = some s' → relation s s') {action : Action χ}
    {config config' : Config C R α σ} (h : config.Obeys allowed)
    (hstep : sys.step code action config = some config') :
    relation config.state config'.state := by
  cases action with
  | spawn t =>
      simp only [System.step] at hstep
      split at hstep
      · cases hstep
        exact hrefl _
      · cases hstep
  | env x =>
      simp only [System.step, Option.map_eq_some_iff] at hstep
      obtain ⟨state, hstate, rfl⟩ := hstep
      exact henv x _ _ hstate
  | call t x =>
      simp only [System.step] at hstep
      split at hstep
      · rename_i c next hthread
        cases hanswer : sys.exec t c x config.state with
        | none => simp [hanswer] at hstep
        | some result =>
            simp only [hanswer, Option.some.injEq] at hstep
            subst hstep
            exact hexec t c x _ result.1 result.2 (h t _ hthread).1 hanswer
      · cases hstep

-- What every allowed command and every event of the surroundings keeps, a run keeps.
theorem run_of_obeys {property : σ → Prop} (hcode : ∀ t, (code t).Asks allowed)
    (hexec : ∀ t c x s response s', allowed c → sys.exec t c x s = some (response, s') →
      property s → property s')
    (henv : ∀ x s s', sys.env x s = some s' → property s → property s')
    {actions : List (Action χ)} {config config' : Config C R α σ} (hstart : property config.state)
    (h : config.Obeys allowed) (hrun : sys.run code actions config = some config') :
    property config'.state ∧ config'.Obeys allowed := by
  induction actions generalizing config with
  | nil =>
      cases hrun
      exact ⟨hstart, h⟩
  | cons action actions ih =>
      obtain ⟨middle, hstep, hrest⟩ := Option.bind_eq_some_iff.mp hrun
      have hmiddle : property config.state → property middle.state :=
        @step_of_obeys _ _ _ _ _ _ _ _ (fun s s' => property s → property s') (fun _ hs => hs)
          hexec henv _ _ _ h hstep
      exact ih (hmiddle hstart) (obeys_step hcode h hstep) hrest

end Run

end Interleaving
