import Mizan.Interleaving.Pool
import Mizan.Interleaving.Throughout

namespace Interleaving

variable {C : Type} {R : C → Type} {χ σ φ α β ε : Type}

-- Where a program stands after each of its own commands, and which commands it may issue there,
-- whatever the state it shares with others makes of them.
structure Typestate (C : Type) (R : C → Type) (φ : Type) where
  enabled : φ → C → Prop
  after : φ → (c : C) → R c → φ

-- What a program may return, whatever its commands are answered.
def Prog.CanReturn : Prog C R α → α → Prop
  | .ret value, result => result = value
  | .call _ next, result => ∃ response, CanReturn (next response) result

namespace Typestate

-- Every command may be issued everywhere.
def free : Typestate C R Unit := { enabled := fun _ _ => True, after := fun _ _ _ => () }

variable (T : Typestate C R φ)

def Respects (final : φ → α → Prop) : Prog C R α → φ → Prop
  | .ret value, p => final p value
  | .call c next, p =>
      T.enabled p c ∧ ∀ response, Respects final (next response) (T.after p c response)

variable {T} {p : φ}

theorem respects_bind {program : Prog C R α} {rest : α → Prog C R β} {middle : φ → α → Prop}
    {final : φ → β → Prop} (h : T.Respects middle program p)
    (hrest : ∀ p value, middle p value → T.Respects final (rest value) p) :
    T.Respects final (program >>= rest) p := by
  rw [Prog.bind_eq]
  induction program generalizing p with
  | ret value => exact hrest p value h
  | call c next ih => exact ⟨h.1, fun response => ih response (h.2 response)⟩

theorem Respects.canReturn {program : Prog C R α} {final : φ → α → Prop} {result : α}
    (h : T.Respects final program p) (hreturns : program.CanReturn result) :
    ∃ p', final p' result := by
  induction program generalizing p with
  | ret value =>
      rw [show result = value from hreturns]
      exact ⟨p, h⟩
  | call c next ih =>
      obtain ⟨response, hresponse⟩ := hreturns
      exact ih response (h.2 response) hresponse

-- What every enabled command keeps, a program that issues no other keeps too.
theorem Respects.throughout {exec : (c : C) → χ → σ → Option (R c × σ)} {frame : σ → σ → Prop}
    (hrefl : ∀ s, frame s s) (htrans : ∀ s s' s'', frame s s' → frame s' s'' → frame s s'')
    (hstep : ∀ p c choice s response s', T.enabled p c → exec c choice s = some (response, s') →
      frame s s')
    {program : Prog C R α} {final : φ → α → Prop} (h : T.Respects final program p) (s : σ) :
    program.Throughout exec (fun _ => True) (fun _ s' => frame s s') s := by
  induction program generalizing p s with
  | ret value => exact hrefl s
  | call c next ih =>
      refine ⟨trivial, fun choice response s' hexec => ?_⟩
      have hfirst := hstep p c choice s response s' h.1 hexec
      refine Prog.throughout_mono (fun _ => id) ?_ (ih response (h.2 response) s')
      exact fun _ s'' hrest => htrans s s' s'' hfirst hrest

-- A program of one kind of commands stands in a larger kind where it stood in its own.
theorem respects_embed {C' : Type} {R' : C' → Type} {T' : Typestate C' R' φ} {inject : C → C'}
    {back : ∀ c, R' (inject c) → R c} (henabled : ∀ p c, T.enabled p c → T'.enabled p (inject c))
    (hafter : ∀ p c response, T'.after p (inject c) response = T.after p c (back c response))
    {program : Prog C R α} {final : φ → α → Prop} (h : T.Respects final program p) :
    T'.Respects final (Prog.embed inject back program) p := by
  induction program generalizing p with
  | ret value => exact h
  | call c next ih =>
    refine ⟨henabled p c h.1, fun response => ?_⟩
    rw [hafter]
    exact ih _ (h.2 _)

section Except

-- What holds where a program that may stop with an error has returned.
def outcome (final : φ → α → Prop) (failed : φ → ε → Prop) : φ → Except ε α → Prop
  | p, .ok value => final p value
  | p, .error error => failed p error

variable {program : ExceptT ε (Prog C R) α} {middle final : φ → α → Prop} {failed : φ → ε → Prop}

theorem respects_pure {value : α} (h : final p value) :
    T.Respects (outcome final failed) (pure value : ExceptT ε (Prog C R) α).run p := h

theorem respects_throw {error : ε} (h : failed p error) :
    T.Respects (outcome final failed) (throw error : ExceptT ε (Prog C R) α).run p := h

theorem respects_perform {c : C} {result : R c → Except ε α} (henabled : T.enabled p c)
    (h : ∀ response, outcome final failed (T.after p c response) (result response)) :
    T.Respects (outcome final failed) (Prog.perform c result).run p :=
  ⟨henabled, h⟩

theorem respects_seq {rest : α → ExceptT ε (Prog C R) β} {last : φ → β → Prop}
    (h : T.Respects (outcome middle failed) program.run p)
    (hrest : ∀ p value, middle p value → T.Respects (outcome last failed) (rest value).run p) :
    T.Respects (outcome last failed) (program >>= rest).run p := by
  rw [ExceptT.run_bind]
  refine respects_bind h fun p result hresult => ?_
  cases result with
  | ok value => exact hrest p value hresult
  | error error => exact hresult

theorem respects_onError {cleanup : Prog C R Unit} {failed' : φ → ε → Prop}
    (h : T.Respects (outcome final failed) program.run p)
    (hcleanup : ∀ p error, failed p error →
      T.Respects (fun p' _ => failed' p' error) cleanup p) :
    T.Respects (outcome final failed') (Prog.onError cleanup program).run p := by
  refine respects_bind h fun p result hresult => ?_
  cases result with
  | ok value => exact hresult
  | error error => exact respects_bind (hcleanup p error hresult) fun p' _ hfailed => hfailed

theorem respects_mono {program : Prog C R α} {final final' : φ → α → Prop}
    (himp : ∀ p value, final p value → final' p value) (h : T.Respects final program p) :
    T.Respects final' program p := by
  induction program generalizing p with
  | ret value => exact himp p value h
  | call c next ih => exact ⟨h.1, fun response => ih response (h.2 response)⟩

end Except

section Track

-- The system with the place of each thread beside its state.
def track (sys : System C R χ σ) (T : Nat → Typestate C R φ) : System C R χ (σ × (Nat → φ)) where
  exec t c choice s := (sys.exec t c choice s.1).map fun (response, s') =>
    (response, (s', Function.update s.2 t ((T t).after (s.2 t) c response)))
  env choice s := (sys.env choice s.1).map fun s' => (s', s.2)

variable {sys : System C R χ σ} {T : Nat → Typestate C R φ} {code : Nat → Prog C R α}
  {final : Nat → φ → α → Prop} {start : φ}

-- Every thread is where its own commands have taken it.
def Placed (T : Nat → Typestate C R φ) (final : Nat → φ → α → Prop) (start : φ)
    (config : Config C R α (σ × (Nat → φ))) : Prop :=
  ∀ t, match config.threads t with
    | none => config.state.2 t = start
    | some program => (T t).Respects (final t) program (config.state.2 t)

theorem placed_step (hcode : ∀ t, (T t).Respects (final t) (code t) start) (action : Action χ)
    {config config' : Config C R α (σ × (Nat → φ))} (h : Placed T final start config)
    (hstep : (track sys T).step code action config = some config') :
    Placed T final start config' := by
  intro u
  have hu := h u
  cases action with
  | spawn t =>
      simp only [System.step] at hstep
      split at hstep
      · rename_i hnone
        cases hstep
        by_cases heq : u = t
        · subst heq
          rw [hnone] at hu
          simp only [Function.update_self, show config.state.2 u = start from hu]
          exact hcode u
        · simpa [heq] using hu
      · cases hstep
  | call t choice =>
      simp only [System.step] at hstep
      split at hstep
      · rename_i c next hthread
        split at hstep
        · cases hstep
        · rename_i response state hexec
          cases hstep
          simp only [track, Option.map_eq_some_iff, Prod.exists, Prod.mk.injEq] at hexec
          obtain ⟨response', s', -, rfl, rfl⟩ := hexec
          by_cases heq : u = t
          · subst heq
            rw [hthread] at hu
            simp only [Function.update_self]
            exact hu.2 response'
          · simpa [heq] using hu
      · cases hstep
  | env choice =>
      simp only [System.step, Option.map_eq_some_iff, track] at hstep
      obtain ⟨state, ⟨s', -, rfl⟩, rfl⟩ := hstep
      exact hu

end Track

end Typestate

end Interleaving
