import Mizan.Dispatch.Programs

namespace Mizan.Dispatch

open Interleaving

abbrev DispatchConfig :=
  Config DispatchCommand DispatchCommand.Response (Except AppError DispatchAnswer) DispatchState

def operations (codec : Codec) (ops : Nat → DispatchOp) (t : Nat) :
    Prog DispatchCommand DispatchCommand.Response (Except AppError DispatchAnswer) :=
  (runOp codec (ops t)).run

section Steps

variable {codec : Codec} {ops : Nat → DispatchOp} {config config' : DispatchConfig}

theorem step_moves {action : Action DispatchChoice}
    (h : DispatchState.system.step (operations codec ops) action config = some config') :
    JobsMove config.state config'.state := by
  refine System.step_relates JobsMove.refl (fun t c x s response s' => exec_moves) ?_ h
  intro x s s' henv
  cases henv
  exact JobsMove.refl _

theorem run_evolves (actions : List (Action DispatchChoice))
    (h : DispatchState.system.run (operations codec ops) actions config = some config') :
    JobsEvolve config.state config'.state := by
  have hstep : ∀ action middle later, JobsEvolve config.state middle.state → True →
      DispatchState.system.step (operations codec ops) action middle = some later →
      JobsEvolve config.state later.state :=
    fun _ _ _ hevolves _ hstep => hevolves.trans (step_moves hstep).evolve
  exact System.run_invariant DispatchState.system (operations codec ops) hstep actions h
    (System.meets_true _ _ actions config) fun job hmem => ⟨job, hmem, .refl⟩

theorem operations_good (guarded : Prop) {nowSeconds : Nat} {actions : List (Action DispatchChoice)}
    (hrun : DispatchState.system.run (operations codec ops) actions
      (System.initial (.start nowSeconds)) = some config)
    (hmeets : DispatchState.system.Meets (operations codec ops)
      (dispatchProtocol guarded codec ops).Allowed actions (System.initial (.start nowSeconds))) :
    (dispatchProtocol guarded codec ops).Good
      (fun t => Protocol.outcome (Answered guarded codec ops t) fun _ _ => True) config :=
  Protocol.good_run (operations codec ops) _ (fun _ _ _ _ => runOp_spec) actions hrun hmeets
    (Protocol.good_initial _ (JobsInvariant.start codec ops nowSeconds) fun _ => trivial)

end Steps

-- What holds of the jobs whenever any number of calls have got anywhere.
structure DispatchSafe (codec : Codec) (ops : Nat → DispatchOp) (config : DispatchConfig) :
    Prop where
  ids : (config.state.jobs.map (·.id)).Nodup
  moves : ∀ action next,
    DispatchState.system.step (operations codec ops) action config = some next →
    ∀ job ∈ config.state.jobs, ∃ job' ∈ next.state.jobs, job'.id = job.id ∧
      (job' = job ∨ StatusMove job.status job'.status)
  final : ∀ actions later,
    DispatchState.system.run (operations codec ops) actions config = some later →
    ∀ job ∈ config.state.jobs, job.status.isTerminal = true → job ∈ later.state.jobs
  handedOnce : ∀ t u lease lease',
    config.threads t = some (.ret (.ok (.leased (some lease)))) →
    config.threads u = some (.ret (.ok (.leased (some lease')))) → lease.id = lease'.id → t = u
  handedAsCreated : ∀ t lease, config.threads t = some (.ret (.ok (.leased (some lease)))) →
    ∃ creator input, (lease.id, creator) ∈ config.state.created ∧
      (ops creator).creates = some input ∧ ops t = .lease input.nodeId ∧
      lease.request = input.request
  completedOnce : ∀ t u nodeId nodeId' jobId payload payload' status status',
    ops t = .complete nodeId jobId payload → ops u = .complete nodeId' jobId payload' →
    config.threads t = some (.ret (.ok (.completed status))) →
    config.threads u = some (.ret (.ok (.completed status'))) → t = u
  completedByLessee : ∀ t status, config.threads t = some (.ret (.ok (.completed status))) →
    ∃ nodeId jobId payload lessee, ops t = .complete nodeId jobId payload ∧
      (jobId, lessee) ∈ config.state.leased ∧ ops lessee = .lease nodeId
  results : ∀ job ∈ config.state.jobs, job.status = .succeeded →
    ∃ t payload response text, (job.id, t) ∈ config.state.completed ∧
      ops t = .complete job.nodeId job.id payload ∧ payload.response = some response ∧
      job.responseJson = some text ∧ codec.responseFromStr text = .ok response

section Safe

variable {codec : Codec} {ops : Nat → DispatchOp} {s : DispatchState}

theorem JobsInvariant.eq_of_leased (h : JobsInvariant codec ops s) {id : Uuid} {t u : Nat}
    (ht : (id, t) ∈ s.leased) (hu : (id, u) ∈ s.leased) : t = u :=
  congrArg Prod.snd (List.inj_on_of_nodup_map h.leased.once ht hu rfl)

theorem JobsInvariant.eq_of_completed (h : JobsInvariant codec ops s) {id : Uuid} {t u : Nat}
    (ht : (id, t) ∈ s.completed) (hu : (id, u) ∈ s.completed) : t = u :=
  congrArg Prod.snd (List.inj_on_of_nodup_map h.completed.once ht hu rfl)

-- The request that is handed out is the one that the job was created with.
theorem JobsInvariant.handed_as_created (h : JobsInvariant codec ops s)
    (hcodec : codec.RoundTrips) {t : Nat} {nodeId : Uuid} {lease : DispatchJobLeaseResponse}
    (hop : ops t = .lease nodeId) (hlease : HandedOut codec t nodeId (some lease) s) :
    ∃ creator input, (lease.id, creator) ∈ s.created ∧ (ops creator).creates = some input ∧
      ops t = .lease input.nodeId ∧ lease.request = input.request := by
  obtain ⟨_, job, hjob, hof⟩ := hlease lease rfl
  obtain ⟨creator, input, hcreated, hcreates, hfrom⟩ := h.created.origin job hjob
  refine ⟨creator, input, ?_, hcreates, ?_, ?_⟩
  · rw [← hof.id]
    exact hcreated
  · rw [← hfrom.nodeId, hof.nodeId]
    exact hop
  · have hdecoded := hcodec.request _ _ hfrom.request
    exact Except.ok.inj (hof.request.symm.trans hdecoded)

-- Whoever completes a job has been handed it.
theorem JobsInvariant.completed_by_lessee (h : JobsInvariant codec ops s) {t : Nat}
    {nodeId jobId : Uuid} {payload : DispatchJobCompleteRequest}
    (hop : ops t = .complete nodeId jobId payload) (hcompleted : (jobId, t) ∈ s.completed) :
    ∃ lessee, (jobId, lessee) ∈ s.leased ∧ ops lessee = .lease nodeId := by
  obtain ⟨job, hjob, hid, hstatus, payload', hop'⟩ := h.completed.stored _ hcompleted
  have hid : job.id = jobId := hid
  obtain ⟨lessee, hleased⟩ := h.leased.handed job hjob (JobStatus.handed_of_completed hstatus)
  obtain ⟨row, hrow, hrowId, _, hlease⟩ := h.leased.stored _ hleased
  obtain rfl : row = job := Table.eq_of_key h.created.ids hrow hjob hrowId
  have hop' : ops t = .complete row.nodeId row.id payload' := hop'
  rw [hop] at hop'
  have hnode : nodeId = row.nodeId := (DispatchOp.complete.inj hop').1
  refine ⟨lessee, ?_, ?_⟩
  · rw [← hid]
    exact hleased
  · rw [hnode]
    exact hlease

end Safe

theorem dispatch_jobs_safe (codec : Codec) (hcodec : codec.RoundTrips) (ops : Nat → DispatchOp)
    (nowSeconds : Nat) (actions : List (Action DispatchChoice)) (config : DispatchConfig)
    (hrun : DispatchState.system.run (operations codec ops) actions
      (System.initial (.start nowSeconds)) = some config) : DispatchSafe codec ops config := by
  have hgood := operations_good False hrun
    (Protocol.meets_allowed _ (fun _ _ _ _ h => h.elim) (fun _ _ => trivial) actions _)
  have hinv : JobsInvariant codec ops config.state := hgood.1
  have hanswer : ∀ t answer, config.threads t = some (.ret (.ok answer)) →
      Answered False codec ops t answer config.state :=
    fun t answer hthread => hgood.returned hthread
  refine ⟨hinv.created.ids, fun action next hstep job hjob => ?_,
    fun actions later hlater job hjob hterminal => ?_, fun t u lease lease' ht hu hid => ?_,
    fun t lease ht => ?_, fun t u nodeId nodeId' jobId payload payload' _ _ hop hop' ht hu => ?_,
    fun t status ht => ?_, fun job hjob hstatus => ?_⟩
  · obtain ⟨job', hjob', hmove⟩ := step_moves hstep job hjob
    exact ⟨job', hjob', congrArg JobOrigin.id hmove.origin, hmove.status⟩
  · obtain ⟨job', hjob', hevolves⟩ := run_evolves actions hlater job hjob
    obtain rfl := eq_of_evolves_terminal hevolves hterminal
    exact hjob'
  · obtain ⟨nodeId, _, hlease⟩ := hanswer t _ ht
    obtain ⟨nodeId', _, hlease'⟩ := hanswer u _ hu
    have hleased := (hlease lease rfl).1
    rw [hid] at hleased
    exact hinv.eq_of_leased hleased (hlease' lease' rfl).1
  · obtain ⟨nodeId, hop, hlease⟩ := hanswer t _ ht
    exact hinv.handed_as_created hcodec hop hlease
  · obtain ⟨_, _, _, hopt, hcompleted⟩ := hanswer t _ ht
    obtain ⟨_, _, _, hopu, hcompleted'⟩ := hanswer u _ hu
    rw [hop] at hopt
    rw [hop'] at hopu
    cases hopt
    cases hopu
    exact hinv.eq_of_completed hcompleted hcompleted'
  · obtain ⟨nodeId, jobId, payload, hop, hcompleted⟩ := hanswer t _ ht
    obtain ⟨lessee, hlessee⟩ := hinv.completed_by_lessee hop hcompleted
    exact ⟨nodeId, jobId, payload, lessee, hop, hlessee⟩
  · obtain ⟨t, hcompleted, payload, response, text, hop, hresponse, htext, hjson⟩ :=
      hinv.completed.results job hjob hstatus
    exact ⟨t, payload, response, text, hcompleted, hop, hresponse, hjson,
      hcodec.response response text htext⟩

-- `serde_json` on one request and one response.
def sampleRequest : ChatRequest := { model := "llama3.1", messages := [], maxTokens := some 8 }

def sampleRequestJson : String :=
  "\x7b\"model\":\"llama3.1\",\"messages\":[],\"stream\":false,\"max_tokens\":8\x7d"

def sampleResponse : ChatResponse :=
  { provider := "local", model := "llama3.1", content := "hi", usage := none }

def sampleResponseJson : String :=
  "\x7b\"provider\":\"local\",\"model\":\"llama3.1\",\"content\":\"hi\",\"usage\":null\x7d"

def sampleCodec : Codec where
  requestToString request :=
    if request = sampleRequest then .ok sampleRequestJson else .error "not in the sample"
  requestFromStr text :=
    if text = sampleRequestJson then .ok sampleRequest else .error "not in the sample"
  responseToString response :=
    if response = sampleResponse then .ok sampleResponseJson else .error "not in the sample"
  responseFromStr text :=
    if text = sampleResponseJson then .ok sampleResponse else .error "not in the sample"

theorem sampleCodec_roundTrips : sampleCodec.RoundTrips := by
  constructor
  · intro request text h
    simp only [sampleCodec] at h ⊢
    split at h
    · rename_i hrequest
      cases h
      rw [if_pos rfl, hrequest]
    · cases h
  · intro response text h
    simp only [sampleCodec] at h ⊢
    split at h
    · rename_i hresponse
      cases h
      rw [if_pos rfl, hresponse]
    · cases h

def sampleInput : DispatchJobInput :=
  { requestId := ⟨11⟩, nodeId := ⟨3⟩, userId := none, apiKeyId := none, model := "llama3.1"
    request := sampleRequest, timeoutSeconds := 30 }

def sampleReport : DispatchJobCompleteRequest :=
  { status := "succeeded", response := some sampleResponse, errorCode := none
    errorMessage := none }

-- A job is created, leased and completed.
def sampleOps : Nat → DispatchOp
  | 0 => .create sampleInput
  | 1 => .lease ⟨3⟩
  | _ => .complete ⟨3⟩ ⟨5⟩ sampleReport

def sampleRun : List (Action DispatchChoice) :=
  .spawn 0 :: List.replicate 4 (.call 0 { uuid := ⟨5⟩ }) ++
    .spawn 1 :: List.replicate 5 (.call 1 {}) ++ .spawn 2 :: List.replicate 2 (.call 2 {})

theorem dispatch_jobs_safe_when_completed : ∃ config,
    DispatchState.system.run (operations sampleCodec sampleOps) sampleRun
      (System.initial (.start 1700000000)) = some config ∧
    config.threads 2 = some (.ret (.ok (.completed "succeeded"))) ∧
    DispatchSafe sampleCodec sampleOps config := by
  have hreturned : DispatchState.system.returned (operations sampleCodec sampleOps) sampleRun
      (System.initial (.start 1700000000)) 2 = some (.ok (.completed "succeeded")) := by
    decide +kernel
  obtain ⟨config, hrun, hthread⟩ := System.exists_run_of_returned _ _ hreturned
  exact ⟨config, hrun, hthread, dispatch_jobs_safe sampleCodec sampleCodec_roundTrips sampleOps
    1700000000 sampleRun config hrun⟩

end Mizan.Dispatch
