import Mathlib.Tactic.Common

namespace Interleaving

variable {σ α : Type}

-- A statement that fails may have been executed all the same.
def reply (fault : Option String) (executed : Bool) (value : α) (s s' : σ) :
    Except String α × σ :=
  match fault with
  | none => (.ok value, s')
  | some error => (.error error, if executed then s' else s)

theorem reply_cases {fault : Option String} {executed : Bool} {value : α} {s s' s'' : σ}
    {response : Except String α} (h : reply fault executed value s s' = (response, s'')) :
    (response = .ok value ∧ s'' = s') ∨
      ∃ error, response = .error error ∧ (s'' = s ∨ s'' = s') := by
  cases fault with
  | none =>
      obtain ⟨hresponse, hstate⟩ := Prod.mk.inj h
      exact .inl ⟨hresponse.symm, hstate.symm⟩
  | some error =>
      obtain ⟨hresponse, hstate⟩ := Prod.mk.inj h
      refine .inr ⟨error, hresponse.symm, ?_⟩
      by_cases hexecuted : executed
      · exact .inr (by rw [← hstate, if_pos hexecuted])
      · exact .inl (by rw [← hstate, if_neg hexecuted])

-- What both outcomes have, the state after the statement has.
@[elab_as_elim]
theorem of_reply {motive : σ → Prop} {fault : Option String} {executed : Bool} {value : α}
    {s s' s'' : σ} {response : Except String α} (hbefore : motive s) (hafter : motive s')
    (h : reply fault executed value s s' = (response, s'')) : motive s'' := by
  obtain ⟨-, rfl⟩ | ⟨error, -, rfl | rfl⟩ := reply_cases h
  · exact hafter
  · exact hbefore
  · exact hafter

theorem fault_of_reply_ok {fault : Option String} {executed : Bool} {value result : α}
    {s s' s'' : σ}
    (h : reply fault executed value s s' = (.ok result, s'')) : fault = none := by
  cases fault with
  | none => rfl
  | some error => cases (Prod.mk.inj h).1

-- A statement that a constraint may refuse.
theorem guarded_cases {refused : Bool} {error : String} {s s' : σ} {next : Except String α × σ}
    {response : Except String α}
    (h : (if refused then (.error error, s) else next) = (response, s')) :
    (refused = true ∧ s' = s) ∨ (refused = false ∧ next = (response, s')) := by
  cases refused with
  | true =>
      cases h
      exact .inl ⟨rfl, rfl⟩
  | false => exact .inr ⟨rfl, h⟩

theorem ok_of_guarded {refused : Bool} {error : String} {s s' : σ} {next : Except String α × σ}
    {value : α} (h : (if refused then (.error error, s) else next) = (.ok value, s')) :
    refused = false ∧ next = (.ok value, s') := by
  cases refused with
  | true => cases (Prod.mk.inj h).1
  | false => exact ⟨rfl, h⟩

theorem ok_of_reply {fault : Option String} {executed : Bool} {value result : α} {s s' s'' : σ}
    (h : reply fault executed value s s' = (.ok result, s'')) : result = value ∧ s'' = s' := by
  cases fault with
  | none =>
    obtain ⟨hresponse, hstate⟩ := Prod.mk.inj h
    exact ⟨(Except.ok.inj hresponse).symm, hstate.symm⟩
  | some error => cases (Prod.mk.inj h).1

-- Where a statement that fails has not been executed.
theorem unexecuted_cases {fault : Option String} {value : α} {s s' s'' : σ}
    {response : Except String α} (h : reply fault false value s s' = (response, s'')) :
    (response = .ok value ∧ s'' = s') ∨ ∃ error, response = .error error ∧ s'' = s := by
  cases fault with
  | none =>
      obtain ⟨hresponse, hstate⟩ := Prod.mk.inj h
      exact .inl ⟨hresponse.symm, hstate.symm⟩
  | some error =>
      obtain ⟨hresponse, hstate⟩ := Prod.mk.inj h
      exact .inr ⟨error, hresponse.symm, hstate.symm⟩

theorem guarded_unexecuted_cases {refused : Bool} {error : String} {fault : Option String}
    {value : α}
    {s s' s'' : σ} {response : Except String α}
    (h : (if refused then (.error error, s) else reply fault false value s s') = (response, s'')) :
    (refused = false ∧ response = .ok value ∧ s'' = s') ∨
      ∃ error, response = .error error ∧ s'' = s := by
  cases refused with
  | true =>
      obtain ⟨hresponse, hstate⟩ := Prod.mk.inj h
      exact .inr ⟨error, hresponse.symm, hstate.symm⟩
  | false =>
      rcases unexecuted_cases h with hok | herror
      · exact .inl ⟨rfl, hok⟩
      · exact .inr herror

end Interleaving
