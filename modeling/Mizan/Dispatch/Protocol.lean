import Mizan.Dispatch.Invariant

namespace Mizan.Dispatch

open Interleaving

-- What any thread may count on, whatever the others do.
structure Progress (s s' : DispatchState) : Prop where
  jobs : JobsEvolve s s'
  created : s.created ⊆ s'.created
  leased : s.leased ⊆ s'.leased
  completed : s.completed ⊆ s'.completed

theorem Progress.refl (s : DispatchState) : Progress s s :=
  ⟨fun job hmem => ⟨job, hmem, .refl⟩, List.Subset.refl _, List.Subset.refl _, List.Subset.refl _⟩

theorem Progress.trans {s s' s'' : DispatchState} (h : Progress s s') (h' : Progress s' s'') :
    Progress s s'' :=
  ⟨h.jobs.trans h'.jobs, List.Subset.trans h.created h'.created,
    List.Subset.trans h.leased h'.leased, List.Subset.trans h.completed h'.completed⟩

-- The update of a job that timed out finds it without an outcome from its daemon.
def TimesOutUndecided (id : Uuid) (s : DispatchState) : Prop :=
  ∀ job ∈ s.jobs, job.id = id → job.status ≠ .succeeded ∧ job.status ≠ .failed

def dispatchProtocol (guarded : Prop) (codec : Codec) (ops : Nat → DispatchOp) :
    Protocol DispatchState.system where
  inv := JobsInvariant codec ops
  rely _ := Progress
  fresh _ _ := True
  admits t c choice s := guarded → (ops t).creates ≠ none → choice.fault = none →
    ∀ id now, c = .timeOutJob id now → TimesOutUndecided id s
  admitsEnv _ _ := True
  rely_refl _ := Progress.refl
  rely_trans := Progress.trans
  fresh_rely _ _ := trivial
  env_keeps := by
    intro choice s s' hinv _ henv
    cases henv
    exact ⟨⟨⟨hinv.created.ids, hinv.created.origin, hinv.created.once, hinv.created.stored⟩,
      ⟨hinv.leased.once, hinv.leased.stored, hinv.leased.handed⟩,
      ⟨hinv.completed.once, hinv.completed.stored, hinv.completed.results⟩⟩,
      fun _ => ⟨fun job hmem => ⟨job, hmem, .refl⟩, List.Subset.refl _, List.Subset.refl _,
        List.Subset.refl _⟩⟩

section Commands

variable {guarded : Prop} {codec : Codec} {ops : Nat → DispatchOp} {t : Nat} {s : DispatchState}
  {α : Type}

-- A statement that keeps the invariant and moves the jobs, followed or not by its answer.
theorem statement_spec {c : DispatchCommand} {result : c.Response → Except AppError α}
    {pre : DispatchState → Prop} {post : α → DispatchState → Prop}
    (hpre : (dispatchProtocol guarded codec ops).Stable t pre)
    (hpost : ∀ value, (dispatchProtocol guarded codec ops).Stable t (post value))
    (h : ∀ s choice response s', JobsInvariant codec ops s → pre s →
      (dispatchProtocol guarded codec ops).admits t c choice s →
      DispatchState.exec t c choice s = some (response, s') →
      (JobsInvariant codec ops s' ∧ Progress s s') ∧
        ∀ value, result response = .ok value → post value s') (hs : pre s) :
    (dispatchProtocol guarded codec ops).ewp t (Prog.perform c result) post
      (fun _ _ => True) s := by
  refine Protocol.ewp_answered hpre hpost (fun s choice response s' hinv hs hadmits hexec => ?_) hs
  obtain ⟨⟨hinv', hprogress⟩, hvalue⟩ := h s choice response s' hinv hs hadmits hexec
  exact ⟨⟨hinv', fun _ _ => hprogress⟩, hvalue⟩

def DispatchCommand.reads : DispatchCommand → Bool
  | .insertJob _ | .leaseJob .. | .completeJob .. | .timeOutJob .. | .timeOutExpired _ => false
  | _ => true

theorem exec_reads {c : DispatchCommand} {choice : DispatchChoice} {response : c.Response}
    {s' : DispatchState} (hreads : c.reads = true)
    (h : DispatchState.exec t c choice s = some (response, s')) : s' = s := by
  cases c with
  | nowV7 | nowUtcEpochSeconds | instantNow =>
      cases h
      rfl
  | sleepUntil instantMs =>
      simp only [DispatchState.exec] at h
      split at h
      · cases h
        rfl
      · cases h
  | selectAccepted nodeId now => exact of_reply rfl rfl (Option.some.inj h)
  | fetchJob id => exact of_reply rfl rfl (Option.some.inj h)
  | forever => cases h
  | insertJob job => cases hreads
  | leaseJob id nodeId now => cases hreads
  | completeJob id nodeId completion now => cases hreads
  | timeOutJob id now => cases hreads
  | timeOutExpired now => cases hreads

theorem read_spec {c : DispatchCommand} {result : c.Response → Except AppError α}
    {pre : DispatchState → Prop} {post : α → DispatchState → Prop} (hreads : c.reads = true)
    (hpre : (dispatchProtocol guarded codec ops).Stable t pre)
    (hpost : ∀ value, (dispatchProtocol guarded codec ops).Stable t (post value))
    (h : ∀ s choice response value, pre s →
      DispatchState.exec t c choice s = some (response, s) → result response = .ok value →
      post value s) (hs : pre s) :
    (dispatchProtocol guarded codec ops).ewp t (Prog.perform c result) post
      (fun _ _ => True) s := by
  refine statement_spec hpre hpost (fun s choice response s' hinv hs _ hexec => ?_) hs
  obtain rfl := exec_reads hreads hexec
  exact ⟨⟨hinv, Progress.refl _⟩, fun value hvalue => h _ choice response value hs hexec hvalue⟩

-- A read whose answer says nothing about the jobs.
theorem pass_spec {c : DispatchCommand} {result : c.Response → Except AppError α}
    {pre : DispatchState → Prop} (hreads : c.reads = true)
    (hpre : (dispatchProtocol guarded codec ops).Stable t pre) (hs : pre s) :
    (dispatchProtocol guarded codec ops).ewp t (Prog.perform c result) (fun _ => pre)
      (fun _ _ => True) s :=
  read_spec hreads hpre (fun _ => hpre) (fun _ _ _ _ hs _ _ => hs) hs

theorem described_spec {words : String} {result : Except String α} {pre : DispatchState → Prop}
    (hpre : (dispatchProtocol guarded codec ops).Stable t pre) (hs : pre s) :
    (dispatchProtocol guarded codec ops).ewp t (described words result)
      (fun value s => result = .ok value ∧ pre s) (fun _ _ => True) s := by
  cases result with
  | ok value => exact Protocol.ewp_pure fun s' hrely hinv => ⟨rfl, hpre hs hrely hinv⟩
  | error error => exact Protocol.ewp_throw fun _ _ _ => trivial

-- A job of the table, of which only what was written once is said.
theorem stable_origin (property : JobOrigin → Prop) :
    (dispatchProtocol guarded codec ops).Stable t
      fun s => ∃ job ∈ s.jobs, property job.origin := by
  rintro s s' ⟨job, hmem, hproperty⟩ hrely _
  have hrely : Progress s s' := hrely
  obtain ⟨job', hmem', hevolves⟩ := hrely.jobs job hmem
  refine ⟨job', hmem', ?_⟩
  rw [origin_of_evolves hevolves]
  exact hproperty

-- A job with its outcome, which stays as it is.
theorem stable_terminal (property : DispatchJob → Prop) :
    (dispatchProtocol guarded codec ops).Stable t
      fun s => ∃ job ∈ s.jobs, job.status.isTerminal = true ∧ property job := by
  rintro s s' ⟨job, hmem, hterminal, hproperty⟩ hrely _
  have hrely : Progress s s' := hrely
  obtain ⟨job', hmem', hevolves⟩ := hrely.jobs job hmem
  obtain rfl := eq_of_evolves_terminal hevolves hterminal
  exact ⟨job', hmem', hterminal, hproperty⟩

theorem stable_leased (entry : Uuid × Nat) :
    (dispatchProtocol guarded codec ops).Stable t fun s => entry ∈ s.leased := by
  intro s s' hmem hrely _
  have hrely : Progress s s' := hrely
  exact hrely.leased hmem

theorem stable_completed (entry : Uuid × Nat) :
    (dispatchProtocol guarded codec ops).Stable t fun s => entry ∈ s.completed := by
  intro s s' hmem hrely _
  have hrely : Progress s s' := hrely
  exact hrely.completed hmem

theorem stable_created (entry : Uuid × Nat) :
    (dispatchProtocol guarded codec ops).Stable t fun s => entry ∈ s.created := by
  intro s s' hmem hrely _
  have hrely : Progress s s' := hrely
  exact hrely.created hmem

theorem stable_and {property property' : DispatchState → Prop}
    (h : (dispatchProtocol guarded codec ops).Stable t property)
    (h' : (dispatchProtocol guarded codec ops).Stable t property') :
    (dispatchProtocol guarded codec ops).Stable t fun s => property s ∧ property' s :=
  fun hs hrely hinv => ⟨h hs.1 hrely hinv, h' hs.2 hrely hinv⟩

end Commands

end Mizan.Dispatch
