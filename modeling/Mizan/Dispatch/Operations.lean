import Mizan.Dispatch.Jobs
import Mizan.Interleaving.Rely

namespace Mizan.Dispatch

open Interleaving

-- `serde_json` on the two types that are stored as text.
structure Codec where
  requestToString : ChatRequest → Except String String
  requestFromStr : String → Except String ChatRequest
  responseToString : ChatResponse → Except String String
  responseFromStr : String → Except String ChatResponse

structure Codec.RoundTrips (codec : Codec) : Prop where
  request : ∀ request text, codec.requestToString request = .ok text →
    codec.requestFromStr text = .ok request
  response : ∀ response text, codec.responseToString response = .ok text →
    codec.responseFromStr text = .ok response

structure DispatchJobInput where
  requestId : Uuid
  nodeId : Uuid
  userId : Option Uuid
  apiKeyId : Option Uuid
  model : String
  request : ChatRequest
  timeoutSeconds : UInt32
  deriving DecidableEq, Repr

structure DispatchJobLeaseResponse where
  id : Uuid
  requestId : Uuid
  model : String
  request : ChatRequest
  deadlineAt : String
  deriving DecidableEq, Repr

structure DispatchJobCompleteRequest where
  status : String
  response : Option ChatResponse
  errorCode : Option String
  errorMessage : Option String
  deriving DecidableEq, Repr

inductive DispatchJobResult where
  | succeeded (response : ChatResponse)
  | failed (errorCode : Option String) (errorMessage : String)
  | timedOut
  deriving DecidableEq, Repr

-- Each statement is one step. `forever` is a loop that goes on.
inductive DispatchCommand where
  | nowV7
  | nowUtcEpochSeconds
  | instantNow
  | sleepUntil (instantMs : Nat)
  | insertJob (job : DispatchJob)
  | selectAccepted (nodeId : Uuid) (now : String)
  | leaseJob (id nodeId : Uuid) (now : String)
  | completeJob (id nodeId : Uuid) (completion : Completion) (now : String)
  | fetchJob (id : Uuid)
  | timeOutJob (id : Uuid) (now : String)
  | timeOutExpired (now : String)
  | forever

def DispatchCommand.Response : DispatchCommand → Type
  | .nowV7 => Uuid
  | .nowUtcEpochSeconds => Int64
  | .instantNow => Nat
  | .sleepUntil _ => Unit
  | .insertJob _ => Except String Unit
  | .selectAccepted .. => Except String (List DispatchJob)
  | .leaseJob .. | .completeJob .. | .timeOutJob .. | .timeOutExpired _ => Except String Nat
  | .fetchJob _ => Except String (Option DispatchJob)
  | .forever => Empty

abbrev DispatchProg (α : Type) :=
  ExceptT AppError (Prog DispatchCommand DispatchCommand.Response) α

def infrastructure {α : Type} : Except String α → Except AppError α :=
  Except.mapError fun error => .infrastructure error

-- `serde_json` or `uuid` errors under the caller's words for them.
def described {α : Type} (words : String) : Except String α → DispatchProg α
  | .ok value => pure value
  | .error error => throw (.infrastructure s!"{words}: {error}")

def nowV7 : DispatchProg Uuid := Prog.perform .nowV7 Except.ok

def nowUtcEpochSeconds : DispatchProg Int64 := Prog.perform .nowUtcEpochSeconds Except.ok

def unixTimestampString : DispatchProg String :=
  Prog.perform .nowUtcEpochSeconds fun (now : Int64) => .ok (toString now)

def instantNow : DispatchProg Nat := Prog.perform .instantNow Except.ok

def createDispatchJob (codec : Codec) (input : DispatchJobInput) : DispatchProg Uuid := do
  let id ← nowV7
  let now ← unixTimestampString
  let started ← nowUtcEpochSeconds
  let deadlineAt := toString
    (saturatingAdd started (Int64.ofInt (max input.timeoutSeconds 1).toNat))
  let requestJson ←
    described "dispatch request encode failed" (codec.requestToString input.request)
  Prog.perform (.insertJob {
    id
    requestId := input.requestId
    nodeId := input.nodeId
    userId := input.userId
    apiKeyId := input.apiKeyId
    model := input.model
    status := .accepted
    requestJson
    responseJson := none
    errorCode := none
    errorMessage := none
    leasedAt := none
    completedAt := none
    deadlineAt
    createdAt := now
    updatedAt := now }) infrastructure
  pure id

def markExpiredJobsTimedOut : DispatchProg Unit := do
  let now ← unixTimestampString
  let _ ← Prog.perform (.timeOutExpired now) infrastructure
  pure ()

def markJobTimedOut (jobId : Uuid) : DispatchProg Unit := do
  let now ← unixTimestampString
  let _ ← Prog.perform (.timeOutJob jobId now) infrastructure
  pure ()

-- The first of the candidates whose update finds it still accepted.
def leaseFirst (codec : Codec) (nodeId : Uuid) (now : String) :
    List DispatchJob → DispatchProg (Option DispatchJobLeaseResponse)
  | [] => pure none
  | row :: rows => do
      let rowsAffected ← Prog.perform (.leaseJob row.id nodeId now) infrastructure
      if rowsAffected ≠ 1 then leaseFirst codec nodeId now rows
      else do
        let request ←
          described "stored dispatch request is invalid" (codec.requestFromStr row.requestJson)
        pure (some {
          id := row.id
          requestId := row.requestId
          model := row.model
          request
          deadlineAt := row.deadlineAt })

def leaseNextJobForNode (codec : Codec) (nodeId : Uuid) :
    DispatchProg (Option DispatchJobLeaseResponse) := do
  markExpiredJobsTimedOut
  let now ← unixTimestampString
  let rows ← Prog.perform (.selectAccepted nodeId now) infrastructure
  leaseFirst codec nodeId now rows

def completionStatus (status : String) : Option CompletionStatus :=
  if trim status = STATUS_SUCCEEDED then some .succeeded
  else if trim status = STATUS_FAILED then some .failed
  else none

def nonBlank (value : Option String) : Option String := (value.map trim).filter (· ≠ "")

def responseJson (codec : Codec) : Option ChatResponse → DispatchProg (Option String)
  | none => pure none
  | some response => do
      let text ← described "dispatch response encode failed" (codec.responseToString response)
      pure (some text)

def completeJob (codec : Codec) (nodeId jobId : Uuid) (payload : DispatchJobCompleteRequest) :
    DispatchProg String :=
  match completionStatus payload.status with
  | none => throw (.invalidConfig "dispatch_job.status" "status must be succeeded or failed")
  | some status =>
      if status = .succeeded ∧ payload.response = none then
        throw (.invalidConfig "dispatch_job.response"
          "response is required when status is succeeded")
      else do
        let responseJson ← responseJson codec payload.response
        let now ← unixTimestampString
        let rowsAffected ← Prog.perform (.completeJob jobId nodeId {
          status
          responseJson
          errorCode := payload.errorCode
          errorMessage := nonBlank payload.errorMessage } now) infrastructure
        if rowsAffected ≠ 1 then throw (.notFound "leased dispatch job not found")
        else pure status.toString

-- What a stored job says of its outcome, when it has one.
def terminalResult (codec : Codec) (job : DispatchJob) :
    Except AppError (Option DispatchJobResult) :=
  match job.status with
  | .succeeded =>
      match job.responseJson with
      | none => .error (.infrastructure "dispatch job succeeded without response_json")
      | some raw =>
          match codec.responseFromStr raw with
          | .ok response => .ok (some (.succeeded response))
          | .error error =>
              .error (.infrastructure s!"stored dispatch response is invalid: {error}")
  | .failed => .ok (some (.failed job.errorCode (job.errorMessage.getD "daemon job failed")))
  | .timedOut => .ok (some .timedOut)
  | .accepted | .leased => .ok none

def fetchTerminalResult (codec : Codec) (jobId : Uuid) : DispatchProg (Option DispatchJobResult) :=
  Prog.perform (.fetchJob jobId) fun
    | .error error => .error (.infrastructure error)
    | .ok none => .error (.notFound "dispatch job not found")
    | .ok (some job) => terminalResult codec job

def POLL_INTERVAL_MS : Nat := 100

def sleep (durationMs : Nat) : DispatchProg Unit := do
  let started ← instantNow
  Prog.perform (.sleepUntil (started + durationMs)) Except.ok

-- The loop, followed for a number of polls.
def pollDispatchResult (codec : Codec) (jobId : Uuid) (timeoutMs startedAt : Nat) :
    (polls : Nat) → DispatchProg DispatchJobResult
  | 0 => Prog.perform .forever fun never => nomatch (never : Empty)
  | polls + 1 => do
      match ← fetchTerminalResult codec jobId with
      | some result => pure result
      | none => do
          let now ← instantNow
          if now - startedAt ≥ timeoutMs then pure .timedOut
          else do
            sleep POLL_INTERVAL_MS
            pollDispatchResult codec jobId timeoutMs startedAt polls

def waitForDispatchResult (codec : Codec) (jobId : Uuid) (timeoutMs polls : Nat) :
    DispatchProg DispatchJobResult := do
  let startedAt ← instantNow
  pollDispatchResult codec jobId timeoutMs startedAt polls

def dispatchToDaemonNode (codec : Codec) (input : DispatchJobInput) (polls : Nat) :
    DispatchProg DispatchJobResult := do
  let timeoutSeconds := max input.timeoutSeconds 1
  let jobId ← createDispatchJob codec input
  match ← waitForDispatchResult codec jobId (timeoutSeconds.toNat * 1000) polls with
  | .timedOut => do
      markJobTimedOut jobId
      pure .timedOut
  | result => pure result

end Mizan.Dispatch
