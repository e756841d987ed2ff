import Mizan.Dispatch.Operations
import Mizan.Interleaving.Typestate

namespace Mizan.Dispatch

open Interleaving

-- The errors that `dispatch_to_daemon_node` comes back with.
def DispatchError (error : AppError) : Prop :=
  (∃ message, error = .infrastructure message) ∨ error = .notFound "dispatch job not found"

abbrev Fails {α : Type} (program : DispatchProg α) : Prop :=
  Typestate.free.Respects (Typestate.outcome (fun _ _ => True) fun _ => DispatchError)
    program.run ()

section Fails

variable {α β : Type} {codec : Codec}

theorem fails_perform {c : DispatchCommand} {result : c.Response → Except AppError α}
    (h : ∀ response error, result response = .error error → DispatchError error) :
    Fails (Prog.perform c result) := by
  refine Typestate.respects_perform trivial fun response => ?_
  cases hresult : result response with
  | ok value => trivial
  | error error => exact h response error hresult

theorem fails_infrastructure {c : DispatchCommand} (hresponse : c.Response = Except String α) :
    Fails (Prog.perform c fun response => infrastructure (hresponse ▸ response)) := by
  refine fails_perform fun response error h => ?_
  cases hanswer : (hresponse ▸ response : Except String α) with
  | ok value =>
      rw [hanswer] at h
      cases h
  | error text =>
      rw [hanswer] at h
      exact .inl ⟨text, (Except.error.inj h).symm⟩

theorem fails_ask {c : DispatchCommand} {f : c.Response → α} :
    Fails (Prog.perform c fun response => .ok (f response)) :=
  fails_perform fun _ _ h => by cases h

theorem fails_seq {program : DispatchProg α} {rest : α → DispatchProg β} (h : Fails program)
    (hrest : ∀ value, Fails (rest value)) : Fails (program >>= rest) :=
  Typestate.respects_seq h fun _ value _ => hrest value

theorem fails_pure (value : α) : Fails (pure value : DispatchProg α) := trivial

theorem fails_described (words : String) (result : Except String α) :
    Fails (described words result) := by
  cases result with
  | ok value => trivial
  | error error => exact .inl ⟨_, rfl⟩

theorem fails_createDispatchJob (input : DispatchJobInput) :
    Fails (createDispatchJob codec input) := by
  refine fails_seq fails_ask fun id => fails_seq fails_ask fun now => fails_seq fails_ask
    fun started => ?_
  refine fails_seq (fails_described _ _) fun requestJson => ?_
  exact fails_seq (fails_infrastructure rfl) fun _ => fails_pure id

theorem fails_fetchTerminalResult (jobId : Uuid) : Fails (fetchTerminalResult codec jobId) := by
  refine fails_perform fun response error h => ?_
  match response, h with
  | .error text, h => exact .inl ⟨text, (Except.error.inj h).symm⟩
  | .ok none, h => exact .inr (Except.error.inj h).symm
  | .ok (some job), h =>
      simp only [terminalResult] at h
      split at h
      · split at h
        · exact .inl ⟨_, (Except.error.inj h).symm⟩
        · split at h
          · cases h
          · exact .inl ⟨_, (Except.error.inj h).symm⟩
      all_goals cases h

theorem fails_pollDispatchResult (jobId : Uuid) (timeoutMs startedAt polls : Nat) :
    Fails (pollDispatchResult codec jobId timeoutMs startedAt polls) := by
  induction polls with
  | zero => exact fails_perform fun never => nomatch (never : Empty)
  | succ polls ih =>
      refine fails_seq (fails_fetchTerminalResult jobId) fun result => ?_
      cases result with
      | some result => exact fails_pure result
      | none =>
          refine fails_seq fails_ask fun now => ?_
          split
          · exact fails_pure _
          · exact fails_seq (fails_seq fails_ask fun _ => fails_ask) fun _ => ih

theorem fails_dispatchToDaemonNode (input : DispatchJobInput) (polls : Nat) :
    Fails (dispatchToDaemonNode codec input polls) := by
  refine fails_seq (fails_createDispatchJob input) fun jobId => ?_
  refine fails_seq (fails_seq fails_ask fun startedAt => fails_pollDispatchResult _ _ _ _)
    fun result => ?_
  split
  · refine fails_seq ?_ fun _ => fails_pure _
    exact fails_seq fails_ask fun now => fails_seq (fails_infrastructure rfl) fun _ => fails_pure _
  · exact fails_pure _

theorem dispatchError_of_canReturn {input : DispatchJobInput} {polls : Nat} {error : AppError}
    (h : (dispatchToDaemonNode codec input polls).run.CanReturn (.error error)) :
    DispatchError error := by
  obtain ⟨_, hfailed⟩ := (fails_dispatchToDaemonNode input polls).canReturn h
  exact hfailed

end Fails

end Mizan.Dispatch
