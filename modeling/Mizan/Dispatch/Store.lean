import Mizan.Dispatch.Operations
import Mizan.Interleaving.Fault
import Mathlib.Logic.Relation

namespace Mizan.Dispatch

open Interleaving

-- The id that is drawn; whether a statement fails, and whether it was executed all the same; the
-- order in which a query returns jobs of one second; and what passes between two steps.
structure DispatchChoice where
  uuid : Uuid := ⟨0⟩
  fault : Option String := none
  executed : Bool := false
  order : JobOrder := .stable
  elapsedMs : Nat := 0
  nowSeconds : Option Nat := none

-- The three histories say which thread has inserted, leased and completed a job.
structure DispatchState where
  jobs : List DispatchJob
  nowSeconds : Nat
  instantMs : Nat
  created : List (Uuid × Nat)
  leased : List (Uuid × Nat)
  completed : List (Uuid × Nat)
  deriving DecidableEq, Repr

namespace DispatchState

def start (nowSeconds : Nat) : DispatchState :=
  { jobs := [], nowSeconds, instantMs := 0, created := [], leased := [], completed := [] }

def insert (s : DispatchState) (t : Nat) (job : DispatchJob) : DispatchState :=
  { s with jobs := s.jobs ++ [job], created := s.created ++ [(job.id, t)] }

def lease (s : DispatchState) (t : Nat) (id nodeId : Uuid) (now : String) : DispatchState :=
  { s with
    jobs := Table.update (leasable id nodeId) (Dispatch.lease now) s.jobs
    leased :=
      if Table.affected (leasable id nodeId) s.jobs = 0 then s.leased else s.leased ++ [(id, t)] }

def complete (s : DispatchState) (t : Nat) (id nodeId : Uuid) (completion : Completion)
    (now : String) : DispatchState :=
  { s with
    jobs := Table.update (completable id nodeId) (Dispatch.complete completion now) s.jobs
    completed :=
      if Table.affected (completable id nodeId) s.jobs = 0 then s.completed
      else s.completed ++ [(id, t)] }

def timeOut (s : DispatchState) (selects : DispatchJob → Bool) (now : String) : DispatchState :=
  { s with jobs := Table.update selects (Dispatch.timeOut now) s.jobs }

def exec (t : Nat) : (c : DispatchCommand) → DispatchChoice → DispatchState →
    Option (c.Response × DispatchState)
  | .nowV7, choice, s => some (choice.uuid, s)
  | .nowUtcEpochSeconds, _, s => some (asI64 s.nowSeconds, s)
  | .instantNow, _, s => some (s.instantMs, s)
  | .sleepUntil instantMs, _, s => if instantMs ≤ s.instantMs then some ((), s) else none
  | .insertJob job, choice, s =>
      if s.jobs.any fun row => row.id = job.id then
        some (.error (choice.fault.getD UNIQUE_VIOLATION), s)
      else some (reply choice.fault choice.executed () s (s.insert t job))
  | .selectAccepted nodeId now, choice, s =>
      some (reply choice.fault choice.executed (selectAccepted choice.order nodeId now s.jobs) s s)
  | .leaseJob id nodeId now, choice, s =>
      some (reply choice.fault choice.executed (Table.affected (leasable id nodeId) s.jobs) s
        (s.lease t id nodeId now))
  | .completeJob id nodeId completion now, choice, s =>
      some (reply choice.fault choice.executed (Table.affected (completable id nodeId) s.jobs) s
        (s.complete t id nodeId completion now))
  | .fetchJob id, choice, s =>
      some (reply choice.fault choice.executed (s.jobs.find? fun job => job.id = id) s s)
  | .timeOutJob id now, choice, s =>
      some (reply choice.fault choice.executed (Table.affected (timeOutable id) s.jobs) s
        (s.timeOut (timeOutable id) now))
  | .timeOutExpired now, choice, s =>
      some (reply choice.fault choice.executed (Table.affected (expired now) s.jobs) s
        (s.timeOut (expired now) now))
  | .forever, _, _ => none

def system : Interleaving.System DispatchCommand DispatchCommand.Response DispatchChoice
    DispatchState where
  exec := exec
  env choice s := some { s with
    nowSeconds := choice.nowSeconds.getD s.nowSeconds
    instantMs := s.instantMs + choice.elapsedMs }

end DispatchState

-- The columns that are written once.
structure JobOrigin where
  id : Uuid
  requestId : Uuid
  nodeId : Uuid
  userId : Option Uuid
  apiKeyId : Option Uuid
  model : String
  requestJson : String
  deadlineAt : String
  createdAt : String
  deriving DecidableEq, Repr

def DispatchJob.origin (job : DispatchJob) : JobOrigin :=
  { id := job.id, requestId := job.requestId, nodeId := job.nodeId, userId := job.userId
    apiKeyId := job.apiKeyId, model := job.model, requestJson := job.requestJson
    deadlineAt := job.deadlineAt, createdAt := job.createdAt }

theorem JobMove.origin {job job' : DispatchJob} (h : JobMove job job') :
    job'.origin = job.origin := by
  cases h <;> rfl

-- No statement removes a job, and each moves every job at most once.
def JobsMove (s s' : DispatchState) : Prop :=
  ∀ job ∈ s.jobs, ∃ job' ∈ s'.jobs, JobMove job job'

theorem JobsMove.refl (s : DispatchState) : JobsMove s s :=
  fun job hmem => ⟨job, hmem, .refl job⟩

section Statements

variable {s s' : DispatchState} {t : Nat} {id nodeId : Uuid} {now : String}

theorem lease_move {job : DispatchJob} (h : leasable id nodeId job = true) :
    JobMove job (Dispatch.lease now job) := by
  simp only [leasable, Bool.and_eq_true, decide_eq_true_eq] at h
  exact .lease now h.2

theorem complete_move {job : DispatchJob} {completion : Completion}
    (h : completable id nodeId job = true) :
    JobMove job (Dispatch.complete completion now job) := by
  simp only [completable, Bool.and_eq_true, decide_eq_true_eq] at h
  exact .complete completion now h.2

theorem timeOutable_pending {job : DispatchJob} (h : timeOutable id job = true) :
    pending job = true := by
  simp only [timeOutable, Bool.and_eq_true] at h
  exact h.2

theorem expired_pending {job : DispatchJob} (h : expired now job = true) : pending job = true := by
  simp only [expired, Bool.and_eq_true] at h
  exact h.1

theorem update_moves {selects : DispatchJob → Bool} {set : DispatchJob → DispatchJob}
    (hmove : ∀ job, selects job = true → JobMove job (set job))
    (hjobs : s'.jobs = Table.update selects set s.jobs) : JobsMove s s' := by
  intro job hmem
  refine ⟨_, hjobs ▸ Table.update_of_mem hmem, ?_⟩
  split
  · rename_i hselected
    exact hmove job hselected
  · exact .refl job

theorem exec_moves {c : DispatchCommand} {choice : DispatchChoice} {response : c.Response}
    (h : DispatchState.exec t c choice s = some (response, s')) : JobsMove s s' := by
  have hsame := JobsMove.refl s
  cases c with
  | nowV7 | nowUtcEpochSeconds | instantNow =>
      cases h
      exact hsame
  | sleepUntil instantMs =>
      simp only [DispatchState.exec] at h
      split at h
      · cases h
        exact hsame
      · cases h
  | insertJob job =>
      simp only [DispatchState.exec] at h
      split at h
      · cases h
        exact hsame
      · exact of_reply hsame (fun row hmem => ⟨row, List.mem_append_left _ hmem, .refl row⟩)
          (Option.some.inj h)
  | selectAccepted nodeId now => exact of_reply hsame hsame (Option.some.inj h)
  | leaseJob id nodeId now =>
      exact of_reply hsame (update_moves (fun _ => lease_move) rfl) (Option.some.inj h)
  | completeJob id nodeId completion now =>
      exact of_reply hsame (update_moves (fun _ => complete_move) rfl) (Option.some.inj h)
  | fetchJob id => exact of_reply hsame hsame (Option.some.inj h)
  | timeOutJob id now =>
      exact of_reply hsame (update_moves
        (fun _ hjob => .timeOut now (timeOutable_pending hjob)) rfl) (Option.some.inj h)
  | timeOutExpired now =>
      exact of_reply hsame (update_moves (fun _ hjob => .timeOut now (expired_pending hjob)) rfl)
        (Option.some.inj h)
  | forever => cases h

end Statements

-- What becomes of a job over any number of statements.
def JobsEvolve (s s' : DispatchState) : Prop :=
  ∀ job ∈ s.jobs, ∃ job' ∈ s'.jobs, Relation.ReflTransGen JobMove job job'

theorem JobsMove.evolve {s s' : DispatchState} (h : JobsMove s s') : JobsEvolve s s' := by
  intro job hmem
  obtain ⟨job', hmem', hmove⟩ := h job hmem
  exact ⟨job', hmem', .single hmove⟩

theorem JobsEvolve.trans {s s' s'' : DispatchState} (h : JobsEvolve s s') (h' : JobsEvolve s' s'') :
    JobsEvolve s s'' := by
  intro job hmem
  obtain ⟨job', hmem', hevolves⟩ := h job hmem
  obtain ⟨job'', hmem'', hevolves'⟩ := h' job' hmem'
  exact ⟨job'', hmem'', hevolves.trans hevolves'⟩

theorem origin_of_evolves {job job' : DispatchJob} (h : Relation.ReflTransGen JobMove job job') :
    job'.origin = job.origin := by
  induction h with
  | refl => rfl
  | tail _ hmove ih => rw [hmove.origin, ih]

theorem eq_of_evolves_terminal {job job' : DispatchJob}
    (h : Relation.ReflTransGen JobMove job job') (hterminal : job.status.isTerminal = true) :
    job' = job := by
  induction h with
  | refl => rfl
  | tail _ hmove ih =>
      rw [ih] at hmove
      exact hmove.eq_of_terminal hterminal

theorem JobMove.not_accepted {job job' : DispatchJob} (h : JobMove job job')
    (hstatus : job.status ≠ .accepted) : job'.status ≠ .accepted := by
  obtain rfl | hmove := h.status
  · exact hstatus
  · exact hmove.not_accepted

end Mizan.Dispatch
