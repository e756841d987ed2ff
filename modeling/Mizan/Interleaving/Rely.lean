import Mizan.Interleaving.Pool

namespace Interleaving

variable {C : Type} {R : C → Type} {χ σ α β ε : Type}

-- What the threads of a system promise each other. Every step keeps `inv`, and
-- thread `t` may count on `rely t` to hold between the states around any step
-- that it does not take itself. `fresh t` is what is known of a thread that has
-- not started.
structure Protocol (sys : System C R χ σ) where
  inv : σ → Prop
  rely : Nat → σ → σ → Prop
  fresh : Nat → σ → Prop
  admits : Nat → C → χ → σ → Prop
  admitsEnv : χ → σ → Prop
  rely_refl : ∀ t s, rely t s s
  rely_trans : ∀ {t s s' s''}, rely t s s' → rely t s' s'' → rely t s s''
  fresh_rely : ∀ {t s s'}, fresh t s → rely t s s' → fresh t s'
  env_keeps : ∀ {x s s'}, inv s → admitsEnv x s → sys.env x s = some s' →
    inv s' ∧ ∀ t, rely t s s'

namespace Protocol

variable {sys : System C R χ σ} (P : Protocol sys)

-- What thread `t` must respect when it moves the state from `s` to `s'`.
def Keeps (t : Nat) (s s' : σ) : Prop := P.inv s' ∧ ∀ u, u ≠ t → P.rely u s s'

-- From `s` on, whatever the others do between any two of its commands, the
-- program respects the protocol and ends with `post`.
def wp (t : Nat) : Prog C R α → (α → σ → Prop) → σ → Prop
  | .ret value, post, s => ∀ s', P.rely t s s' → P.inv s' → post value s'
  | .call c next, post, s => ∀ s', P.rely t s s' → P.inv s' →
      ∀ x response s'', P.admits t c x s' → sys.exec t c x s' = some (response, s'') →
        P.Keeps t s' s'' ∧ wp t (next response) post s''

-- What the other threads cannot take away from thread `t`.
def Stable (t : Nat) (property : σ → Prop) : Prop :=
  ∀ {s s'}, property s → P.rely t s s' → P.inv s' → property s'

variable {P} {t : Nat}

theorem stable_true : P.Stable t fun _ => True := fun _ _ _ => trivial

theorem wp_rely {program : Prog C R α} {post : α → σ → Prop} {s s' : σ}
    (h : P.wp t program post s) (hrely : P.rely t s s') : P.wp t program post s' := by
  cases program with
  | ret value => exact fun s'' h'' hinv => h s'' (P.rely_trans hrely h'') hinv
  | call c next => exact fun s'' h'' hinv => h s'' (P.rely_trans hrely h'') hinv

-- The postcondition may be used at every state the others can lead to afterwards.
theorem wp_imp {program : Prog C R α} {post post' : α → σ → Prop}
    (himp : ∀ value s, P.inv s → (∀ s', P.rely t s s' → P.inv s' → post value s') →
      post' value s) {s : σ} (h : P.wp t program post s) : P.wp t program post' s := by
  induction program generalizing s with
  | ret value =>
      intro s' hrely hinv
      exact himp value s' hinv fun s'' h'' => h s'' (P.rely_trans hrely h'')
  | call c next ih =>
      intro s' hrely hinv x response s'' hadmits hexec
      obtain ⟨hkeeps, hnext⟩ := h s' hrely hinv x response s'' hadmits hexec
      exact ⟨hkeeps, ih response hnext⟩

theorem wp_mono {program : Prog C R α} {post post' : α → σ → Prop}
    (himp : ∀ value s, P.inv s → post value s → post' value s) {s : σ}
    (h : P.wp t program post s) : P.wp t program post' s :=
  wp_imp (fun value s hinv hpost => himp value s hinv (hpost s (P.rely_refl t s) hinv)) h

theorem wp_of_rely {program : Prog C R α} {post : α → σ → Prop} {s : σ}
    (h : ∀ s', P.rely t s s' → P.inv s' → P.wp t program post s') : P.wp t program post s := by
  cases program with
  | ret value => exact fun s' hrely hinv => h s' hrely hinv s' (P.rely_refl t s') hinv
  | call c next => exact fun s' hrely hinv => h s' hrely hinv s' (P.rely_refl t s') hinv

theorem wp_bind {program : Prog C R α} {rest : α → Prog C R β} {post : β → σ → Prop} {s : σ}
    (h : P.wp t program (fun value => P.wp t (rest value) post) s) :
    P.wp t (program >>= rest) post s := by
  rw [Prog.bind_eq]
  induction program generalizing s with
  | ret value => exact wp_of_rely h
  | call c next ih =>
      intro s' hrely hinv x response s'' hadmits hexec
      obtain ⟨hkeeps, hnext⟩ := h s' hrely hinv x response s'' hadmits hexec
      exact ⟨hkeeps, ih response hnext⟩

theorem wp_ask {c : C} {post : R c → σ → Prop} {s : σ}
    (h : ∀ s₁, P.rely t s s₁ → P.inv s₁ → ∀ x response s₂, P.admits t c x s₁ →
      sys.exec t c x s₁ = some (response, s₂) → P.Keeps t s₁ s₂ ∧
        ∀ s₃, P.rely t s₂ s₃ → P.inv s₃ → post response s₃) :
    P.wp t (Prog.ask c) post s := h

section Except

def outcome (post : α → σ → Prop) (failed : ε → σ → Prop) : Except ε α → σ → Prop
  | .ok value, s => post value s
  | .error error, s => failed error s

-- Programs that may stop with an error, with a postcondition for each outcome.
def ewp (P : Protocol sys) (t : Nat) (program : ExceptT ε (Prog C R) α) (post : α → σ → Prop)
    (failed : ε → σ → Prop) (s : σ) : Prop :=
  P.wp t program.run (outcome post failed) s

theorem ewp_mono {program : ExceptT ε (Prog C R) α} {post post' : α → σ → Prop}
    {failed failed' : ε → σ → Prop}
    (hpost : ∀ value s, P.inv s → post value s → post' value s)
    (hfailed : ∀ error s, P.inv s → failed error s → failed' error s) {s : σ}
    (h : P.ewp t program post failed s) : P.ewp t program post' failed' s := by
  refine wp_mono ?_ h
  intro result s' hinv hresult
  cases result with
  | ok value => exact hpost value s' hinv hresult
  | error error => exact hfailed error s' hinv hresult

theorem ewp_pure {value : α} {post : α → σ → Prop} {failed : ε → σ → Prop} {s : σ}
    (h : ∀ s', P.rely t s s' → P.inv s' → post value s') :
    P.ewp t (pure value) post failed s := h

theorem ewp_throw {error : ε} {post : α → σ → Prop} {failed : ε → σ → Prop} {s : σ}
    (h : ∀ s', P.rely t s s' → P.inv s' → failed error s') :
    P.ewp t (throw error) post failed s := h

theorem ewp_bind {program : ExceptT ε (Prog C R) α} {rest : α → ExceptT ε (Prog C R) β}
    {post : β → σ → Prop} {failed : ε → σ → Prop} {s : σ}
    (h : P.ewp t program (fun value => P.ewp t (rest value) post failed) failed s) :
    P.ewp t (program >>= rest) post failed s := by
  rw [ewp, ExceptT.run_bind]
  apply wp_bind
  refine wp_imp ?_ h
  intro result s' hinv hresult
  cases result with
  | ok value => exact hresult s' (P.rely_refl t s') hinv
  | error error => exact hresult

-- A step whose specification is known, then the rest.
theorem ewp_seq {program : ExceptT ε (Prog C R) α} {rest : α → ExceptT ε (Prog C R) β}
    {middle : α → σ → Prop} {post : β → σ → Prop} {failed failed' : ε → σ → Prop} {s : σ}
    (h : P.ewp t program middle failed s) (hfailed : ∀ error s, failed error s → failed' error s)
    (hrest : ∀ value s, P.inv s → middle value s → P.ewp t (rest value) post failed' s) :
    P.ewp t (program >>= rest) post failed' s :=
  ewp_bind (ewp_mono hrest (fun error s _ => hfailed error s) h)

theorem ewp_mk {result : Except ε α} {post : α → σ → Prop} {failed : ε → σ → Prop} {s : σ}
    (h : ∀ s', P.rely t s s' → P.inv s' → outcome post failed result s') :
    P.ewp t (ExceptT.mk (pure result)) post failed s := h

theorem ewp_perform {c : C} {result : R c → Except ε α} {post : α → σ → Prop}
    {failed : ε → σ → Prop} {s : σ}
    (h : ∀ s₁, P.rely t s s₁ → P.inv s₁ → ∀ x response s₂, P.admits t c x s₁ →
      sys.exec t c x s₁ = some (response, s₂) → P.Keeps t s₁ s₂ ∧
        ∀ s₃, P.rely t s₂ s₃ → P.inv s₃ → outcome post failed (result response) s₃) :
    P.ewp t (Prog.perform c result) post failed s := h

-- What holds before and after one command of the thread, at states where nobody disturbs it.
theorem ewp_atomic {c : C} {result : R c → Except ε α} {pre : σ → Prop} {post : α → σ → Prop}
    {failed : ε → σ → Prop} (hpre : P.Stable t pre) (hpost : ∀ value, P.Stable t (post value))
    (hfailed : ∀ error, P.Stable t (failed error))
    (h : ∀ s x response s', P.inv s → pre s → P.admits t c x s →
      sys.exec t c x s = some (response, s') →
      P.Keeps t s s' ∧ outcome post failed (result response) s') {s : σ} (hs : pre s) :
    P.ewp t (Prog.perform c result) post failed s := by
  refine ewp_perform fun s₁ hrely hinv x response s₂ hadmits hexec => ?_
  obtain ⟨hkeeps, houtcome⟩ := h s₁ x response s₂ hinv (hpre hs hrely hinv) hadmits hexec
  refine ⟨hkeeps, fun s₃ hrely' hinv' => ?_⟩
  cases hresult : result response with
  | ok value =>
      rw [hresult] at houtcome
      exact hpost value houtcome hrely' hinv'
  | error error =>
      rw [hresult] at houtcome
      exact hfailed error houtcome hrely' hinv'

-- An answer that is an error says nothing.
theorem ewp_answered {c : C} {result : R c → Except ε α} {pre : σ → Prop} {post : α → σ → Prop}
    (hpre : P.Stable t pre) (hpost : ∀ value, P.Stable t (post value))
    (h : ∀ s x response s', P.inv s → pre s → P.admits t c x s →
      sys.exec t c x s = some (response, s') →
      P.Keeps t s s' ∧ ∀ value, result response = .ok value → post value s') {s : σ} (hs : pre s) :
    P.ewp t (Prog.perform c result) post (fun _ _ => True) s := by
  refine ewp_atomic hpre hpost (fun _ => stable_true) ?_ hs
  intro s₁ x response s₂ hinv hs₁ hadmits hexec
  obtain ⟨hkeeps, hvalue⟩ := h s₁ x response s₂ hinv hs₁ hadmits hexec
  refine ⟨hkeeps, ?_⟩
  cases hresult : result response with
  | ok value => exact hvalue value hresult
  | error error => trivial

theorem ewp_onError {cleanup : Prog C R Unit} {program : ExceptT ε (Prog C R) α}
    {post : α → σ → Prop} {failed : ε → σ → Prop} {s : σ}
    (h : P.ewp t program post (fun error => P.wp t cleanup fun _ => failed error) s) :
    P.ewp t (Prog.onError cleanup program) post failed s := by
  apply wp_bind
  refine wp_imp ?_ h
  intro result s' hinv hresult
  cases result with
  | ok value => exact hresult
  | error error =>
      apply wp_bind
      refine wp_imp ?_ (hresult s' (P.rely_refl t s') hinv)
      intro _ s'' _ hfailed
      exact hfailed

end Except

section Runs

variable (code : Nat → Prog C R α) (post : Nat → α → σ → Prop)

-- Every thread is where its weakest precondition holds.
def Good (P : Protocol sys) (post : Nat → α → σ → Prop) (config : Config C R α σ) : Prop :=
  P.inv config.state ∧
    (∀ t, config.threads t = none → P.fresh t config.state) ∧
    ∀ t program, config.threads t = some program → P.wp t program (post t) config.state

-- The condition that the protocol puts on a step of a run.
def Allowed (P : Protocol sys) (action : Action χ) (config : Config C R α σ) : Prop :=
  match action with
  | .spawn _ => True
  | .call t x => ∀ c next, config.threads t = some (.call c next) → P.admits t c x config.state
  | .env x => P.admitsEnv x config.state

theorem good_step
    (hcode : ∀ t s, P.inv s → P.fresh t s → P.wp t (code t) (post t) s)
    (action : Action χ) (config config' : Config C R α σ) (hgood : P.Good post config)
    (hallowed : P.Allowed action config) (hstep : sys.step code action config = some config') :
    P.Good post config' := by
  obtain ⟨hinv, hfresh, hthreads⟩ := hgood
  cases action with
  | spawn t =>
      simp only [System.step] at hstep
      split at hstep
      · rename_i hnone
        cases hstep
        refine ⟨hinv, fun u hu => ?_, fun u program hu => ?_⟩
        · by_cases heq : u = t
          · simp [heq] at hu
          · exact hfresh u (by simpa [heq] using hu)
        · by_cases heq : u = t
          · subst heq
            simp only [Function.update_self, Option.some.injEq] at hu
            rw [← hu]
            exact hcode u config.state hinv (hfresh u hnone)
          · exact hthreads u program (by simpa [heq] using hu)
      · cases hstep
  | call t x =>
      simp only [System.step] at hstep
      split at hstep
      · rename_i c next hcall
        cases hexec : sys.exec t c x config.state with
        | none => simp [hexec] at hstep
        | some result =>
            obtain ⟨response, state⟩ := result
            simp only [hexec, Option.some.injEq] at hstep
            subst hstep
            obtain ⟨⟨hinv', hrely⟩, hnext⟩ := hthreads t (.call c next) hcall config.state
              (P.rely_refl t _) hinv x response state (hallowed c next hcall) hexec
            refine ⟨hinv', fun u hu => ?_, fun u program hu => ?_⟩
            · by_cases heq : u = t
              · simp [heq] at hu
              · exact P.fresh_rely (hfresh u (by simpa [heq] using hu)) (hrely u heq)
            · by_cases heq : u = t
              · subst heq
                simp only [Function.update_self, Option.some.injEq] at hu
                rw [← hu]
                exact hnext
              · exact wp_rely (hthreads u program (by simpa [heq] using hu)) (hrely u heq)
      · cases hstep
  | env x =>
      simp only [System.step, Option.map_eq_some_iff] at hstep
      obtain ⟨state, henv, rfl⟩ := hstep
      obtain ⟨hinv', hrely⟩ := P.env_keeps hinv hallowed henv
      exact ⟨hinv', fun u hu => P.fresh_rely (hfresh u hu) (hrely u),
        fun u program hu => wp_rely (hthreads u program hu) (hrely u)⟩

theorem good_run
    (hcode : ∀ t s, P.inv s → P.fresh t s → P.wp t (code t) (post t) s)
    (actions : List (Action χ)) {config config' : Config C R α σ}
    (hrun : sys.run code actions config = some config')
    (hmeets : sys.Meets code P.Allowed actions config) (hgood : P.Good post config) :
    P.Good post config' :=
  sys.run_invariant code (good_step code post hcode) actions hrun hmeets hgood

-- A protocol that puts no condition on the steps.
theorem meets_allowed (hadmits : ∀ t c x s, P.admits t c x s) (henv : ∀ x s, P.admitsEnv x s)
    (actions : List (Action χ)) (config : Config C R α σ) :
    sys.Meets code P.Allowed actions config := by
  refine System.Meets.imp sys code (fun action config _ => ?_) actions config
    (sys.meets_true code actions config)
  cases action with
  | spawn t => trivial
  | call t x => exact fun c _ _ => hadmits t c x config.state
  | env x => exact henv x config.state

theorem good_initial {s : σ} (hinv : P.inv s) (hfresh : ∀ t, P.fresh t s) :
    P.Good post (System.initial s : Config C R α σ) :=
  ⟨hinv, fun t _ => hfresh t, fun _ _ h => by cases h⟩

theorem Good.returned {post : Nat → α → σ → Prop} {config : Config C R α σ}
    (hgood : P.Good post config) {t : Nat} {value : α}
    (hthread : config.threads t = some (.ret value)) : post t value config.state :=
  hgood.2.2 t _ hthread config.state (P.rely_refl t _) hgood.1

end Runs

section Unconstrained

-- Nothing is promised, which is enough for what a program returns whatever it is answered.
def unconstrained (sys : System C R χ σ) : Protocol sys where
  inv _ := True
  rely _ _ _ := True
  fresh _ _ := True
  admits _ _ _ _ := True
  admitsEnv _ _ := True
  rely_refl _ _ := trivial
  rely_trans _ _ := trivial
  fresh_rely _ _ := trivial
  env_keeps _ _ _ := ⟨trivial, fun _ => trivial⟩

variable {sys : System C R χ σ} {t : Nat}

theorem unconstrained_perform {c : C} {result : R c → Except ε α} {post : α → Prop}
    {failed : ε → Prop} {s : σ}
    (h : ∀ s x response s', sys.exec t c x s = some (response, s') →
      outcome (fun value _ => post value) (fun error _ => failed error) (result response) s') :
    (unconstrained sys).ewp t (Prog.perform c result) (fun value _ => post value)
      (fun error _ => failed error) s := by
  refine ewp_perform fun s₁ _ _ x response s₂ _ hexec => ⟨⟨trivial, fun _ _ => trivial⟩, ?_⟩
  intro s₃ _ _
  have houtcome := h s₁ x response s₂ hexec
  cases hresult : result response with
  | ok value =>
      rw [hresult] at houtcome
      exact houtcome
  | error error =>
      rw [hresult] at houtcome
      exact houtcome

-- What every run of a program returns, in any company.
theorem unconstrained_returned (code : Nat → Prog C R α) {post : Nat → α → Prop}
    (hcode : ∀ t s, (unconstrained sys).wp t (code t) (fun value _ => post t value) s)
    {actions : List (Action χ)} {s : σ} {config : Config C R α σ}
    (hrun : sys.run code actions (System.initial s) = some config) {t : Nat} {value : α}
    (hthread : config.threads t = some (.ret value)) : post t value := by
  have hgood := good_run code (fun t value _ => post t value) (fun t s _ _ => hcode t s) actions
    hrun (meets_allowed code (fun _ _ _ _ => trivial) (fun _ _ => trivial) actions _)
    (good_initial _ trivial fun _ => trivial)
  exact hgood.returned hthread

end Unconstrained

section Alone

-- Thread 0 by itself: nothing happens between two of its commands.
def alone (sys : System C R χ σ) : Protocol sys where
  inv _ := True
  rely t s s' := t = 0 → s = s'
  fresh _ _ := True
  admits _ _ _ _ := True
  admitsEnv _ _ := False
  rely_refl _ _ _ := rfl
  rely_trans h h' ht := (h ht).trans (h' ht)
  fresh_rely h _ := h
  env_keeps _ h _ := h.elim

variable {sys : System C R χ σ}

theorem alone_ret {value : α} {post : α → σ → Prop} {s : σ} (h : post value s) :
    (alone sys).wp 0 (.ret value) post s := by
  intro s' hrely _
  rw [← hrely rfl]
  exact h

theorem alone_call {c : C} {next : R c → Prog C R α} {post : α → σ → Prop} {s : σ}
    (h : ∀ x response s', sys.exec 0 c x s = some (response, s') →
      (alone sys).wp 0 (next response) post s') : (alone sys).wp 0 (.call c next) post s := by
  intro s₁ hrely _ x response s₂ _ hexec
  obtain rfl := hrely rfl
  exact ⟨⟨trivial, fun u hu hzero => absurd hzero hu⟩, h x response s₂ hexec⟩

theorem alone_bind {program : Prog C R α} {rest : α → Prog C R β} {middle : α → σ → Prop}
    {post : β → σ → Prop} {s : σ} (h : (alone sys).wp 0 program middle s)
    (hrest : ∀ value s, middle value s → (alone sys).wp 0 (rest value) post s) :
    (alone sys).wp 0 (program >>= rest) post s :=
  wp_bind (wp_mono (fun value s _ => hrest value s) h)

theorem alone_ask {c : C} {post : R c → σ → Prop} {s : σ}
    (h : ∀ x response s', sys.exec 0 c x s = some (response, s') → post response s') :
    (alone sys).wp 0 (Prog.ask c) post s :=
  alone_call fun x response s' hexec => alone_ret (h x response s' hexec)

theorem alone_pure {value : α} {post : α → σ → Prop} {failed : ε → σ → Prop} {s : σ}
    (h : post value s) : (alone sys).ewp 0 (pure value) post failed s := alone_ret h

theorem alone_perform {c : C} {result : R c → Except ε α} {post : α → σ → Prop}
    {failed : ε → σ → Prop} {s : σ}
    (h : ∀ x response s', sys.exec 0 c x s = some (response, s') →
      outcome post failed (result response) s') :
    (alone sys).ewp 0 (Prog.perform c result) post failed s :=
  alone_call fun x response s' hexec => alone_ret (h x response s' hexec)

theorem alone_play {program : Prog C R α} {post : α → σ → Prop} {choices : List χ} {s s' : σ}
    {value : α} (h : (alone sys).wp 0 program post s)
    (hplay : program.play (sys.exec 0) choices s = some (value, s')) : post value s' := by
  induction program generalizing choices s with
  | ret result =>
      cases choices with
      | nil =>
          cases hplay
          exact h _ (fun _ => rfl) trivial
      | cons => cases hplay
  | call c next ih =>
      cases choices with
      | nil => cases hplay
      | cons x choices =>
          simp only [Prog.play] at hplay
          split at hplay
          · cases hplay
          · rename_i response s'' hexec
            exact ih response (h s (fun _ => rfl) trivial x response s'' trivial hexec).2 hplay

end Alone

end Protocol

end Interleaving
