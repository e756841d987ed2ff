import Mizan.Core.Types
import Mizan.Core.Numeric
import Mizan.Providers.Types
import Mizan.Table.Order
import Mizan.Table.Update
import Mathlib.Data.String.Basic

namespace Mizan.Dispatch

inductive JobStatus where
  | accepted
  | leased
  | succeeded
  | failed
  | timedOut
  deriving DecidableEq, Repr

-- What a daemon may report of a job.
inductive CompletionStatus where
  | succeeded
  | failed
  deriving DecidableEq, Repr

def CompletionStatus.jobStatus : CompletionStatus → JobStatus
  | .succeeded => .succeeded
  | .failed => .failed

def STATUS_SUCCEEDED : String := "succeeded"
def STATUS_FAILED : String := "failed"

def CompletionStatus.toString : CompletionStatus → String
  | .succeeded => STATUS_SUCCEEDED
  | .failed => STATUS_FAILED

-- A row of migrations/0006_dispatch_jobs.sql.
structure DispatchJob where
  id : Uuid
  requestId : Uuid
  nodeId : Uuid
  userId : Option Uuid
  apiKeyId : Option Uuid
  model : String
  status : JobStatus
  requestJson : String
  responseJson : Option String
  errorCode : Option String
  errorMessage : Option String
  leasedAt : Option String
  completedAt : Option String
  deadlineAt : String
  createdAt : String
  updatedAt : String
  deriving DecidableEq, Repr

structure Completion where
  status : CompletionStatus
  responseJson : Option String
  errorCode : Option String
  errorMessage : Option String
  deriving DecidableEq, Repr

-- The rows that a statement selects, and what it makes of them.
def leasable (id nodeId : Uuid) (job : DispatchJob) : Bool :=
  job.id = id && job.nodeId = nodeId && job.status = .accepted

def lease (now : String) (job : DispatchJob) : DispatchJob :=
  { job with status := .leased, leasedAt := some now, updatedAt := now }

def completable (id nodeId : Uuid) (job : DispatchJob) : Bool :=
  job.id = id && job.nodeId = nodeId && job.status = .leased

def complete (completion : Completion) (now : String) (job : DispatchJob) : DispatchJob :=
  { job with
    status := completion.status.jobStatus
    responseJson := completion.responseJson
    errorCode := completion.errorCode
    errorMessage := completion.errorMessage
    completedAt := some now
    updatedAt := now }

def pending (job : DispatchJob) : Bool := job.status = .accepted || job.status = .leased

def timeOutable (id : Uuid) (job : DispatchJob) : Bool := job.id = id && pending job

def expired (now : String) (job : DispatchJob) : Bool := pending job && job.deadlineAt < now

def timeOut (now : String) (job : DispatchJob) : DispatchJob :=
  { job with
    status := .timedOut
    errorCode := some "timeout"
    errorMessage := some "daemon dispatch timed out"
    completedAt := some now
    updatedAt := now }

def acceptedFor (nodeId : Uuid) (now : String) (job : DispatchJob) : Bool :=
  job.nodeId = nodeId && job.status = .accepted && now ≤ job.deadlineAt

-- ORDER BY created_at ASC
abbrev JobOrder := Table.Descending Stringᵒᵈ

def selectAccepted (order : JobOrder) (nodeId : Uuid) (now : String) (jobs : List DispatchJob) :
    List DispatchJob :=
  (order.arrange (fun job => OrderDual.toDual job.createdAt)
    (jobs.filter (acceptedFor nodeId now))).take 5

def UNIQUE_VIOLATION : String := "UNIQUE constraint failed: dispatch_jobs.id"

theorem mem_of_mem_selectAccepted {order : JobOrder} {nodeId : Uuid} {now : String}
    {jobs : List DispatchJob} {job : DispatchJob} (h : job ∈ selectAccepted order nodeId now jobs) :
    job ∈ jobs ∧ job.nodeId = nodeId := by
  have harranged := order.mem_of_mem_arrange (List.mem_of_mem_take h)
  obtain ⟨hmem, haccepted⟩ := List.mem_filter.mp harranged
  simp only [acceptedFor, Bool.and_eq_true, decide_eq_true_eq] at haccepted
  exact ⟨hmem, haccepted.1.1⟩

-- The moves of a job's status.
inductive StatusMove : JobStatus → JobStatus → Prop where
  | lease : StatusMove .accepted .leased
  | succeed : StatusMove .leased .succeeded
  | fail : StatusMove .leased .failed
  | expireAccepted : StatusMove .accepted .timedOut
  | expireLeased : StatusMove .leased .timedOut

def JobStatus.isTerminal : JobStatus → Bool
  | .accepted | .leased => false
  | .succeeded | .failed | .timedOut => true

-- What a statement may do to a job: nothing, or a move that leaves alone the columns that the
-- job was created with.
inductive JobMove : DispatchJob → DispatchJob → Prop where
  | refl (job : DispatchJob) : JobMove job job
  | lease {job : DispatchJob} (now : String) (h : job.status = .accepted) :
      JobMove job (Dispatch.lease now job)
  | complete {job : DispatchJob} (completion : Completion) (now : String)
      (h : job.status = .leased) : JobMove job (Dispatch.complete completion now job)
  | timeOut {job : DispatchJob} (now : String) (h : pending job = true) :
      JobMove job (Dispatch.timeOut now job)

theorem JobMove.status {job job' : DispatchJob} (h : JobMove job job') :
    job' = job ∨ StatusMove job.status job'.status := by
  cases h with
  | refl => exact .inl rfl
  | lease now h =>
      rw [h]
      exact .inr .lease
  | complete completion now h =>
      rw [h]
      cases hstatus : completion.status with
      | succeeded =>
          refine .inr ?_
          simp [Dispatch.complete, hstatus, CompletionStatus.jobStatus, StatusMove.succeed]
      | failed =>
          refine .inr ?_
          simp [Dispatch.complete, hstatus, CompletionStatus.jobStatus, StatusMove.fail]
  | timeOut now h =>
      simp only [pending, Bool.or_eq_true, decide_eq_true_eq] at h
      obtain h | h := h
      · rw [h]
        exact .inr .expireAccepted
      · rw [h]
        exact .inr .expireLeased

theorem StatusMove.not_terminal {status status' : JobStatus} (h : StatusMove status status') :
    status.isTerminal = false := by
  cases h <;> rfl

theorem StatusMove.not_accepted {status status' : JobStatus} (h : StatusMove status status') :
    status' ≠ .accepted := by
  cases h <;> exact fun h => by cases h

theorem JobMove.eq_of_terminal {job job' : DispatchJob} (h : JobMove job job')
    (hterminal : job.status.isTerminal = true) : job' = job := by
  obtain hsame | hmove := h.status
  · exact hsame
  · rw [hmove.not_terminal] at hterminal
    cases hterminal

end Mizan.Dispatch
