import Mizan.Interleaving.Prog

namespace Interleaving

variable {C C' : Type} {R : C → Type} {R' : C' → Type} {χ σ α β : Type}

namespace Prog

-- A program of one kind of commands as a program of a larger kind.
def embed (inject : C → C') (back : ∀ c, R' (inject c) → R c) : Prog C R α → Prog C' R' α
  | .ret value => .ret value
  | .call c next => .call (inject c) fun response => embed inject back (next (back c response))

section Throughout

variable (exec : (c : C) → χ → σ → Option (R c × σ))

-- `waiting` holds whenever the program waits for an answer, and `post` when it returns. Unlike
-- a postcondition alone this says something of a program that is given up on the way.
def Throughout (waiting : σ → Prop) (post : α → σ → Prop) : Prog C R α → σ → Prop
  | .ret value, s => post value s
  | .call c next, s => waiting s ∧ ∀ choice response s',
      exec c choice s = some (response, s') → Throughout waiting post (next response) s'

variable {exec} {waiting waiting' : σ → Prop} {s : σ}

theorem throughout_mono {program : Prog C R α} {post post' : α → σ → Prop}
    (hwaiting : ∀ s, waiting s → waiting' s) (hpost : ∀ value s, post value s → post' value s)
    (h : Throughout exec waiting post program s) : Throughout exec waiting' post' program s := by
  induction program generalizing s with
  | ret value => exact hpost value s h
  | call c next ih =>
      exact ⟨hwaiting s h.1, fun choice response s' hexec =>
        ih response (h.2 choice response s' hexec)⟩

theorem throughout_trivial (program : Prog C R α) (s : σ) :
    Throughout exec (fun _ => True) (fun _ _ => True) program s := by
  induction program generalizing s with
  | ret value => trivial
  | call c next ih => exact ⟨trivial, fun _ response s' _ => ih response s'⟩

-- What every command keeps holds all along.
theorem throughout_invariant {property : σ → Prop}
    (hexec : ∀ c choice s response s', property s → exec c choice s = some (response, s') →
      property s')
    (program : Prog C R α) (h : property s) :
    Throughout exec property (fun _ => property) program s := by
  induction program generalizing s with
  | ret value => exact h
  | call c next ih =>
      exact ⟨h, fun choice response s' hanswer => ih response
        (hexec c choice s response s' h hanswer)⟩

theorem throughout_bind {program : Prog C R α} {rest : α → Prog C R β} {middle : α → σ → Prop}
    {post : β → σ → Prop} (h : Throughout exec waiting middle program s)
    (hrest : ∀ value s, middle value s → Throughout exec waiting post (rest value) s) :
    Throughout exec waiting post (program >>= rest) s := by
  rw [bind_eq]
  induction program generalizing s with
  | ret value => exact hrest value s h
  | call c next ih =>
      exact ⟨h.1, fun choice response s' hexec => ih response (h.2 choice response s' hexec)⟩

theorem throughout_ask {c : C} {post : R c → σ → Prop} (hwaiting : waiting s)
    (h : ∀ choice response s', exec c choice s = some (response, s') → post response s') :
    Throughout exec waiting post (ask c) s :=
  ⟨hwaiting, h⟩

theorem throughout_map {program : Prog C R α} {f : α → β} {post : β → σ → Prop}
    (h : Throughout exec waiting (fun value => post (f value)) program s) :
    Throughout exec waiting post (f <$> program) s := by
  rw [map_eq_pure_bind]
  exact throughout_bind h fun _ _ hvalue => hvalue

theorem play_of_throughout {program : Prog C R α} {post : α → σ → Prop} {choices : List χ}
    {value : α} {s' : σ} (h : Throughout exec waiting post program s)
    (hplay : program.play exec choices s = some (value, s')) : post value s' := by
  induction program generalizing choices s with
  | ret result =>
      cases choices with
      | nil =>
          cases hplay
          exact h
      | cons => cases hplay
  | call c next ih =>
      cases choices with
      | nil => cases hplay
      | cons choice choices =>
          simp only [play] at hplay
          split at hplay
          · cases hplay
          · rename_i response s'' hexec
            exact ih response (h.2 choice response s'' hexec) hplay

section Except

variable {ε : Type}

-- What holds where a program that may stop with an error has returned.
def ends (final : α → σ → Prop) (failed : ε → σ → Prop) : Except ε α → σ → Prop
  | .ok value, s => final value s
  | .error error, s => failed error s

variable {program : ExceptT ε (Prog C R) α} {middle final : α → σ → Prop} {failed : ε → σ → Prop}

theorem throughout_perform {c : C} {result : R c → Except ε α} {post : Except ε α → σ → Prop}
    (hwaiting : waiting s)
    (h : ∀ choice response s', exec c choice s = some (response, s') → post (result response) s') :
    Throughout exec waiting post (perform c result).run s :=
  ⟨hwaiting, h⟩

theorem throughout_seq {rest : α → ExceptT ε (Prog C R) β} {last : β → σ → Prop}
    (h : Throughout exec waiting (ends middle failed) program.run s)
    (hrest : ∀ value s, middle value s →
      Throughout exec waiting (ends last failed) (rest value).run s) :
    Throughout exec waiting (ends last failed) (program >>= rest).run s := by
  rw [ExceptT.run_bind]
  refine throughout_bind h fun result s hresult => ?_
  cases result with
  | ok value => exact hrest value s hresult
  | error error => exact hresult

end Except

end Throughout

-- Where the larger kind answers the embedded commands as the smaller kind does.
theorem throughout_embed {inject : C → C'} {back : ∀ c, R' (inject c) → R c}
    {exec : (c : C) → χ → σ → Option (R c × σ)} {exec' : (c : C') → χ → σ → Option (R' c × σ)}
    (hexec : ∀ c choice s response s', exec' (inject c) choice s = some (response, s') →
      exec c choice s = some (back c response, s'))
    {waiting : σ → Prop} {post : α → σ → Prop} {program : Prog C R α} {s : σ}
    (h : Throughout exec waiting post program s) :
    Throughout exec' waiting post (embed inject back program) s := by
  induction program generalizing s with
  | ret value => exact h
  | call c next ih =>
      exact ⟨h.1, fun choice response s' hanswer =>
        ih _ (h.2 choice _ s' (hexec c choice s response s' hanswer))⟩

end Prog

end Interleaving
