import Mizan.Dispatch.Safety

namespace Mizan.Dispatch

open Interleaving

-- What the callers of `dispatch_to_daemon_node` were told agrees with what is stored.
def OutcomesAgree (codec : Codec) (config : DispatchConfig) : Prop :=
  ∀ t result, config.threads t = some (.ret (.ok (.dispatched result))) →
    ∃ id, (id, t) ∈ config.state.created ∧
      ∃ job ∈ config.state.jobs, job.id = id ∧ MatchesStored codec result job

-- The job that a thread is about to time out by its id.
def timingOut : Prog DispatchCommand DispatchCommand.Response (Except AppError DispatchAnswer) →
    Option Uuid
  | .call (.timeOutJob id _) _ => some id
  | _ => none

-- Whenever the update of `mark_job_timed_out` succeeds for the gateway, the job that it is about
-- has no outcome from its daemon yet.
def TimesOutBeforeCompletion (ops : Nat → DispatchOp) :
    Action DispatchChoice → DispatchConfig → Prop
  | .call t choice, config => (ops t).creates ≠ none → choice.fault = none →
      ∀ id, (config.threads t).bind timingOut = some id → TimesOutUndecided id config.state
  | _, _ => True

def timesOutBeforeCompletion : Action DispatchChoice → DispatchConfig → Bool
  | .call t _, config =>
      match (config.threads t).bind timingOut with
      | none => true
      | some id => config.state.jobs.all fun job =>
          job.id ≠ id || job.status ≠ .succeeded && job.status ≠ .failed
  | _, _ => true

theorem timesOutBeforeCompletion_sound {ops : Nat → DispatchOp} {action : Action DispatchChoice}
    {config : DispatchConfig} (h : timesOutBeforeCompletion action config = true) :
    TimesOutBeforeCompletion ops action config := by
  cases action with
  | spawn t => trivial
  | env choice => trivial
  | call t choice =>
      intro _ _ id hpending job hjob hid
      simp only [timesOutBeforeCompletion, hpending, List.all_eq_true] at h
      have hundecided := h job hjob
      simpa [hid] using hundecided

theorem outcomes_agree_of_times_out_before_completion (codec : Codec) (ops : Nat → DispatchOp)
    (nowSeconds : Nat) (actions : List (Action DispatchChoice)) (config : DispatchConfig)
    (hrun : DispatchState.system.run (operations codec ops) actions
      (System.initial (.start nowSeconds)) = some config)
    (hmeets : DispatchState.system.Meets (operations codec ops) (TimesOutBeforeCompletion ops)
      actions (System.initial (.start nowSeconds))) : OutcomesAgree codec config := by
  have hallowed : DispatchState.system.Meets (operations codec ops)
      (dispatchProtocol True codec ops).Allowed actions (System.initial (.start nowSeconds)) := by
    refine System.Meets.imp _ _ (fun action config h => ?_) actions _ hmeets
    cases action with
    | spawn t => trivial
    | env choice => trivial
    | call t choice =>
        rintro c next hthread _ hown hfault id now rfl
        exact h hown hfault id (by rw [hthread]; rfl)
  have hgood := operations_good True hrun hallowed
  intro t result hthread
  have hanswer : Answered True codec ops t (.dispatched result) config.state :=
    hgood.returned hthread
  obtain ⟨id, hcreated, hstored⟩ := hanswer
  have houtcome : StoredOutcome codec id result config.state := hstored fun _ => trivial
  obtain ⟨job, hjob, _, hid, hmatches⟩ := houtcome
  exact ⟨id, hcreated, job, hjob, hid, hmatches⟩

-- The gateway waits for a job of thirty seconds, which its node leases and completes.
def contestedOps : Nat → DispatchOp
  | 0 => .dispatch sampleInput 2
  | 1 => .lease ⟨3⟩
  | _ => .complete ⟨3⟩ ⟨5⟩ sampleReport

def waitSeconds (seconds : Nat) : Action DispatchChoice :=
  .env { elapsedMs := seconds * 1000, nowSeconds := some (1700000000 + seconds) }

-- The job is created and leased, and its time runs out.
def untilTimeout : List (Action DispatchChoice) :=
  .spawn 0 :: List.replicate 5 (.call 0 { uuid := ⟨5⟩ }) ++
    .spawn 1 :: List.replicate 5 (.call 1 {}) ++ [waitSeconds 30]

theorem outcomes_agree_when_never_completed : ∃ config,
    DispatchState.system.run (operations sampleCodec contestedOps)
      (untilTimeout ++ List.replicate 4 (.call 0 {})) (System.initial (.start 1700000000)) =
        some config ∧
    config.threads 0 = some (.ret (.ok (.dispatched .timedOut))) ∧
    OutcomesAgree sampleCodec config := by
  have hreturned : DispatchState.system.returned (operations sampleCodec contestedOps)
      (untilTimeout ++ List.replicate 4 (.call 0 {})) (System.initial (.start 1700000000)) 0 =
        some (.ok (.dispatched .timedOut)) := by decide +kernel
  obtain ⟨config, hrun, hthread⟩ := System.exists_run_of_returned _ _ hreturned
  have hchecks : DispatchState.system.checks (operations sampleCodec contestedOps)
      timesOutBeforeCompletion (untilTimeout ++ List.replicate 4 (.call 0 {}))
      (System.initial (.start 1700000000)) = true := by decide +kernel
  have hmeets : DispatchState.system.Meets (operations sampleCodec contestedOps)
      (TimesOutBeforeCompletion contestedOps) (untilTimeout ++ List.replicate 4 (.call 0 {}))
      (System.initial (.start 1700000000)) :=
    System.Meets.imp _ _ (fun _ _ => timesOutBeforeCompletion_sound) _ _
      (System.meets_of_checks _ _ hchecks)
  exact ⟨config, hrun, hthread, outcomes_agree_of_times_out_before_completion sampleCodec
    contestedOps 1700000000 _ config hrun hmeets⟩

-- The daemon reports between the last poll and the update, which then affects no row.
def reportedAfterLastPoll : List (Action DispatchChoice) :=
  untilTimeout ++ List.replicate 2 (.call 0 {}) ++ .spawn 2 :: List.replicate 2 (.call 2 {}) ++
    List.replicate 2 (.call 0 {})

theorem timed_out_job_is_succeeded : ∃ config,
    DispatchState.system.run (operations sampleCodec contestedOps) reportedAfterLastPoll
      (System.initial (.start 1700000000)) = some config ∧ ¬OutcomesAgree sampleCodec config := by
  have hreturned : DispatchState.system.returned (operations sampleCodec contestedOps)
      reportedAfterLastPoll (System.initial (.start 1700000000)) 0 =
        some (.ok (.dispatched .timedOut)) := by decide +kernel
  obtain ⟨config, hrun, hthread⟩ := System.exists_run_of_returned _ _ hreturned
  have hjobs : ((DispatchState.system.run (operations sampleCodec contestedOps)
      reportedAfterLastPoll (System.initial (.start 1700000000))).map
        fun config => config.state.jobs.map (·.status)) = some [.succeeded] := by decide +kernel
  rw [hrun] at hjobs
  have hjobs : config.state.jobs.map (·.status) = [.succeeded] := Option.some.inj hjobs
  refine ⟨config, hrun, fun hagree => ?_⟩
  obtain ⟨id, _, job, hjob, _, hstatus⟩ := hagree 0 .timedOut hthread
  have hstatus : job.status = .timedOut := hstatus
  have hmem : job.status ∈ config.state.jobs.map (·.status) := List.mem_map_of_mem hjob
  rw [hjobs, hstatus] at hmem
  cases List.mem_singleton.mp hmem

end Mizan.Dispatch
