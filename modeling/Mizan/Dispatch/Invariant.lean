import Mizan.Dispatch.Store

namespace Mizan.Dispatch

inductive DispatchOp where
  | create (input : DispatchJobInput)
  | dispatch (input : DispatchJobInput) (polls : Nat)
  | lease (nodeId : Uuid)
  | complete (nodeId jobId : Uuid) (payload : DispatchJobCompleteRequest)
  | markTimedOut (jobId : Uuid)
  | markExpired
  deriving DecidableEq, Repr

def DispatchOp.creates : DispatchOp → Option DispatchJobInput
  | .create input | .dispatch input _ => some input
  | _ => none

structure CreatedFrom (codec : Codec) (input : DispatchJobInput) (origin : JobOrigin) : Prop where
  requestId : origin.requestId = input.requestId
  nodeId : origin.nodeId = input.nodeId
  userId : origin.userId = input.userId
  apiKeyId : origin.apiKeyId = input.apiKeyId
  model : origin.model = input.model
  request : codec.requestToString input.request = .ok origin.requestJson

def JobStatus.isHanded : JobStatus → Bool
  | .leased | .succeeded | .failed => true
  | .accepted | .timedOut => false

def JobStatus.isCompleted : JobStatus → Bool
  | .succeeded | .failed => true
  | .accepted | .leased | .timedOut => false

theorem JobStatus.terminal_of_completed {status : JobStatus} (h : status.isCompleted = true) :
    status.isTerminal = true := by
  cases status with
  | succeeded | failed => rfl
  | accepted | leased | timedOut => cases h

theorem JobStatus.handed_of_completed {status : JobStatus} (h : status.isCompleted = true) :
    status.isHanded = true := by
  cases status with
  | succeeded | failed => rfl
  | accepted | leased | timedOut => cases h

section Invariant

variable (codec : Codec) (ops : Nat → DispatchOp)

structure CreatedInvariant (s : DispatchState) : Prop where
  ids : (s.jobs.map (·.id)).Nodup
  origin : ∀ job ∈ s.jobs, ∃ t input, (job.id, t) ∈ s.created ∧ (ops t).creates = some input ∧
    CreatedFrom codec input job.origin
  once : (s.created.map (·.1)).Nodup
  stored : ∀ entry ∈ s.created, ∃ job ∈ s.jobs, job.id = entry.1

structure LeasedInvariant (s : DispatchState) : Prop where
  once : (s.leased.map (·.1)).Nodup
  stored : ∀ entry ∈ s.leased, ∃ job ∈ s.jobs, job.id = entry.1 ∧ job.status ≠ .accepted ∧
    ops entry.2 = .lease job.nodeId
  handed : ∀ job ∈ s.jobs, job.status.isHanded = true → ∃ t, (job.id, t) ∈ s.leased

-- The call that completed a job, and what its response was stored as.
def CompletedBy (t : Nat) (job : DispatchJob) : Prop :=
  ∃ payload response text, ops t = .complete job.nodeId job.id payload ∧
    payload.response = some response ∧ codec.responseToString response = .ok text ∧
    job.responseJson = some text

structure CompletedInvariant (s : DispatchState) : Prop where
  once : (s.completed.map (·.1)).Nodup
  stored : ∀ entry ∈ s.completed, ∃ job ∈ s.jobs, job.id = entry.1 ∧
    job.status.isCompleted = true ∧ ∃ payload, ops entry.2 = .complete job.nodeId job.id payload
  results : ∀ job ∈ s.jobs, job.status = .succeeded →
    ∃ t, (job.id, t) ∈ s.completed ∧ CompletedBy codec ops t job

structure JobsInvariant (s : DispatchState) : Prop where
  created : CreatedInvariant codec ops s
  leased : LeasedInvariant ops s
  completed : CompletedInvariant codec ops s

theorem JobsInvariant.start (nowSeconds : Nat) : JobsInvariant codec ops (.start nowSeconds) :=
  ⟨⟨List.nodup_nil, by simp [DispatchState.start], List.nodup_nil, by simp [DispatchState.start]⟩,
    ⟨List.nodup_nil, by simp [DispatchState.start], by simp [DispatchState.start]⟩,
    ⟨List.nodup_nil, by simp [DispatchState.start], by simp [DispatchState.start]⟩⟩

end Invariant

variable {codec : Codec} {ops : Nat → DispatchOp} {s s' : DispatchState} {t : Nat}
    {id nodeId : Uuid}
  {now : String} {completion : Completion}

theorem nodup_append_fresh {entries : List (Uuid × Nat)} (h : (entries.map (·.1)).Nodup)
    (hfresh : ∀ entry ∈ entries, entry.1 ≠ id) : ((entries ++ [(id, t)]).map (·.1)).Nodup := by
  rw [List.map_append, List.map_singleton]
  refine List.nodup_append'.mpr ⟨h, List.nodup_singleton _, List.disjoint_singleton.mpr ?_⟩
  intro hmem
  obtain ⟨entry, hentry, hid⟩ := List.mem_map.mp hmem
  exact hfresh entry hentry hid

section Moves

theorem CreatedInvariant.update (h : CreatedInvariant codec ops s)
    {selects : DispatchJob → Bool} {set : DispatchJob → DispatchJob}
    (hmove : ∀ job, selects job = true → JobMove job (set job))
    (horigin : ∀ job, (set job).origin = job.origin)
    (hjobs : s'.jobs = Table.update selects set s.jobs) (hcreated : s'.created = s.created) :
    CreatedInvariant codec ops s' := by
  have hid : ∀ job, (set job).id = job.id := fun job => congrArg JobOrigin.id (horigin job)
  refine ⟨?_, fun job' hmem => ?_, by rw [hcreated]; exact h.once, fun entry hentry => ?_⟩
  · rw [hjobs, Table.map_update hid]
    exact h.ids
  · rw [hjobs] at hmem
    rw [hcreated]
    obtain ⟨job, hjob, _, rfl⟩ | ⟨hjob, _⟩ := Table.mem_update_cases hmem
    · rw [hid, horigin]
      exact h.origin job hjob
    · exact h.origin job' hjob
  · rw [hcreated] at hentry
    obtain ⟨job, hjob, hid'⟩ := h.stored entry hentry
    obtain ⟨job', hjob', hmove'⟩ := update_moves hmove hjobs job hjob
    exact ⟨job', hjob', (congrArg JobOrigin.id hmove'.origin).trans hid'⟩

theorem LeasedInvariant.stored_of_moves (h : LeasedInvariant ops s) (hmoves : JobsMove s s') :
    ∀ entry ∈ s.leased, ∃ job ∈ s'.jobs, job.id = entry.1 ∧ job.status ≠ .accepted ∧
      ops entry.2 = .lease job.nodeId := by
  intro entry hentry
  obtain ⟨job, hjob, hid, hstatus, hop⟩ := h.stored entry hentry
  obtain ⟨job', hjob', hmove⟩ := hmoves job hjob
  have hnode : job'.nodeId = job.nodeId := congrArg JobOrigin.nodeId hmove.origin
  refine ⟨job', hjob', (congrArg JobOrigin.id hmove.origin).trans hid,
    hmove.not_accepted hstatus, ?_⟩
  rw [hnode]
  exact hop

theorem CompletedInvariant.stored_of_moves (h : CompletedInvariant codec ops s)
    (hmoves : JobsMove s s') : ∀ entry ∈ s.completed, ∃ job ∈ s'.jobs, job.id = entry.1 ∧
      job.status.isCompleted = true ∧
      ∃ payload, ops entry.2 = .complete job.nodeId job.id payload := by
  intro entry hentry
  obtain ⟨job, hjob, hid, hcompleted, hop⟩ := h.stored entry hentry
  obtain ⟨job', hjob', hmove⟩ := hmoves job hjob
  obtain rfl := hmove.eq_of_terminal (JobStatus.terminal_of_completed hcompleted)
  exact ⟨job', hjob', hid, hcompleted, hop⟩

end Moves

section TimeOut

variable {selects : DispatchJob → Bool}

theorem JobsInvariant.timeOut (h : JobsInvariant codec ops s)
    (hpending : ∀ job, selects job = true → pending job = true) :
    JobsInvariant codec ops (s.timeOut selects now) := by
  have hmove : ∀ job, selects job = true → JobMove job (Dispatch.timeOut now job) :=
    fun job hjob => .timeOut now (hpending job hjob)
  have hmoves : JobsMove s (s.timeOut selects now) := update_moves hmove rfl
  refine ⟨h.created.update hmove (fun _ => rfl) rfl rfl,
    ⟨h.leased.once, h.leased.stored_of_moves hmoves, fun job' hmem hhanded => ?_⟩,
    ⟨h.completed.once, h.completed.stored_of_moves hmoves, fun job' hmem hstatus => ?_⟩⟩
  · obtain ⟨job, _, _, rfl⟩ | ⟨hjob, _⟩ := Table.mem_update_cases hmem
    · cases hhanded
    · exact h.leased.handed job' hjob hhanded
  · obtain ⟨job, _, _, rfl⟩ | ⟨hjob, _⟩ := Table.mem_update_cases hmem
    · cases hstatus
    · exact h.completed.results job' hjob hstatus

end TimeOut

section Lease

-- A job that is still accepted has not been leased to anybody.
theorem JobsInvariant.not_leased (h : JobsInvariant codec ops s) {job : DispatchJob}
    (hmem : job ∈ s.jobs) (hstatus : job.status = .accepted) :
    ∀ entry ∈ s.leased, entry.1 ≠ job.id := by
  intro entry hentry hid
  obtain ⟨other, hother, hid', hstatus', _⟩ := h.leased.stored entry hentry
  obtain rfl : other = job := Table.eq_of_key h.created.ids hother hmem (hid'.trans hid)
  exact hstatus' hstatus

theorem JobsInvariant.lease (h : JobsInvariant codec ops s) (hop : ops t = .lease nodeId) :
    JobsInvariant codec ops (s.lease t id nodeId now) := by
  have hmoves : JobsMove s (s.lease t id nodeId now) := update_moves (fun _ => lease_move) rfl
  have hcompleted : CompletedInvariant codec ops (s.lease t id nodeId now) := by
    refine ⟨h.completed.once, h.completed.stored_of_moves hmoves, fun job' hmem hstatus => ?_⟩
    obtain ⟨job, _, _, rfl⟩ | ⟨hjob, _⟩ := Table.mem_update_cases hmem
    · cases hstatus
    · exact h.completed.results job' hjob hstatus
  refine ⟨h.created.update (fun _ => lease_move) (fun _ => rfl) rfl rfl, ?_, hcompleted⟩
  by_cases hzero : Table.affected (leasable id nodeId) s.jobs = 0
  · have hleased : (s.lease t id nodeId now).leased = s.leased := if_pos hzero
    refine ⟨by rw [hleased]; exact h.leased.once, by
      rw [hleased]; exact h.leased.stored_of_moves hmoves, fun job' hmem hhanded => ?_⟩
    rw [hleased]
    obtain ⟨job, hjob, hselected, _⟩ | ⟨hjob, _⟩ := Table.mem_update_cases hmem
    · rw [Table.not_selected_of_affected hzero hjob] at hselected
      cases hselected
    · exact h.leased.handed job' hjob hhanded
  · have hleased : (s.lease t id nodeId now).leased = s.leased ++ [(id, t)] := if_neg hzero
    obtain ⟨job, hjob, hselected⟩ := Table.exists_of_affected hzero
    have hupdated : Dispatch.lease now job ∈ (s.lease t id nodeId now).jobs :=
      Table.mem_update.mpr ⟨job, hjob, (if_pos hselected).symm⟩
    simp only [leasable, Bool.and_eq_true, decide_eq_true_eq] at hselected
    obtain ⟨⟨rfl, rfl⟩, hstatus⟩ := hselected
    refine ⟨?_, fun entry hentry => ?_, fun job' hmem hhanded => ?_⟩
    · rw [hleased]
      exact nodup_append_fresh h.leased.once (h.not_leased hjob hstatus)
    · rw [hleased, List.mem_append, List.mem_singleton] at hentry
      obtain hentry | rfl := hentry
      · exact h.leased.stored_of_moves hmoves entry hentry
      · exact ⟨_, hupdated, rfl, by simp [Dispatch.lease], hop⟩
    · rw [hleased]
      obtain ⟨other, hother, hselected, rfl⟩ | ⟨hother, _⟩ := Table.mem_update_cases hmem
      · simp only [leasable, Bool.and_eq_true, decide_eq_true_eq] at hselected
        refine ⟨t, List.mem_append_right _ (List.mem_singleton.mpr ?_)⟩
        exact Prod.ext hselected.1.1 rfl
      · obtain ⟨u, hu⟩ := h.leased.handed job' hother hhanded
        exact ⟨u, List.mem_append_left _ hu⟩

end Lease

section Complete

-- A job that is still leased has not been completed by anybody.
theorem JobsInvariant.not_completed (h : JobsInvariant codec ops s) {job : DispatchJob}
    (hmem : job ∈ s.jobs) (hstatus : job.status = .leased) :
    ∀ entry ∈ s.completed, entry.1 ≠ job.id := by
  intro entry hentry hid
  obtain ⟨other, hother, hid', hcompleted, _⟩ := h.completed.stored entry hentry
  obtain rfl : other = job := Table.eq_of_key h.created.ids hother hmem (hid'.trans hid)
  rw [hstatus] at hcompleted
  cases hcompleted

-- The response that a completion stores is the one that was submitted with it.
def Stores (codec : Codec) (payload : DispatchJobCompleteRequest) (completion : Completion) :
    Prop :=
  completion.status = .succeeded → ∃ response text, payload.response = some response ∧
    codec.responseToString response = .ok text ∧ completion.responseJson = some text

theorem LeasedInvariant.complete (h : LeasedInvariant ops s) :
    LeasedInvariant ops (s.complete t id nodeId completion now) := by
  refine ⟨h.once, h.stored_of_moves (update_moves (fun _ => complete_move) rfl),
    fun job' hmem hhanded => ?_⟩
  obtain ⟨job, hjob, hselected, rfl⟩ | ⟨hjob, _⟩ := Table.mem_update_cases hmem
  · simp only [completable, Bool.and_eq_true, decide_eq_true_eq] at hselected
    exact h.handed job hjob (by rw [hselected.2]; rfl)
  · exact h.handed job' hjob hhanded

theorem CompletionStatus.completed (status : CompletionStatus) :
    status.jobStatus.isCompleted = true := by
  cases status <;> rfl

theorem JobsInvariant.complete (h : JobsInvariant codec ops s)
    {payload : DispatchJobCompleteRequest} (hop : ops t = .complete nodeId id payload)
    (hstores : Stores codec payload completion) :
    JobsInvariant codec ops (s.complete t id nodeId completion now) := by
  have hmoves : JobsMove s (s.complete t id nodeId completion now) :=
    update_moves (fun _ => complete_move) rfl
  refine ⟨h.created.update (fun _ => complete_move) (fun _ => rfl) rfl rfl, h.leased.complete, ?_⟩
  by_cases hzero : Table.affected (completable id nodeId) s.jobs = 0
  · have hcompleted : (s.complete t id nodeId completion now).completed = s.completed :=
      if_pos hzero
    refine ⟨by rw [hcompleted]; exact h.completed.once, by
      rw [hcompleted]; exact h.completed.stored_of_moves hmoves, fun job' hmem hstatus => ?_⟩
    rw [hcompleted]
    obtain ⟨job, hjob, hselected, _⟩ | ⟨hjob, _⟩ := Table.mem_update_cases hmem
    · rw [Table.not_selected_of_affected hzero hjob] at hselected
      cases hselected
    · exact h.completed.results job' hjob hstatus
  · have hcompleted : (s.complete t id nodeId completion now).completed = s.completed ++
      [(id, t)] :=
      if_neg hzero
    obtain ⟨job, hjob, hselected⟩ := Table.exists_of_affected hzero
    have hupdated : Dispatch.complete completion now job ∈
        (s.complete t id nodeId completion now).jobs :=
      Table.mem_update.mpr ⟨job, hjob, (if_pos hselected).symm⟩
    simp only [completable, Bool.and_eq_true, decide_eq_true_eq] at hselected
    obtain ⟨⟨rfl, rfl⟩, hstatus⟩ := hselected
    refine ⟨?_, fun entry hentry => ?_, fun job' hmem hsucceeded => ?_⟩
    · rw [hcompleted]
      exact nodup_append_fresh h.completed.once (h.not_completed hjob hstatus)
    · rw [hcompleted, List.mem_append, List.mem_singleton] at hentry
      obtain hentry | rfl := hentry
      · exact h.completed.stored_of_moves hmoves entry hentry
      · exact ⟨_, hupdated, rfl, completion.status.completed, payload, hop⟩
    · rw [hcompleted]
      obtain ⟨other, hother, hselected, rfl⟩ | ⟨hother, _⟩ := Table.mem_update_cases hmem
      · simp only [completable, Bool.and_eq_true, decide_eq_true_eq] at hselected
        obtain rfl : other = job := Table.eq_of_key h.created.ids hother hjob hselected.1.1
        have hsucceeded' : completion.status = .succeeded := by
          cases hcompletion : completion.status with
          | succeeded => rfl
          | failed =>
              simp [Dispatch.complete, hcompletion, CompletionStatus.jobStatus] at hsucceeded
        obtain ⟨response, text, hresponse, htext, hjson⟩ := hstores hsucceeded'
        exact ⟨t, List.mem_append_right _ (List.mem_singleton.mpr rfl), payload, response, text,
          hop, hresponse, htext, hjson⟩
      · obtain ⟨u, hu, hby⟩ := h.completed.results job' hother hsucceeded
        exact ⟨u, List.mem_append_left _ hu, hby⟩

end Complete

section Insert

theorem JobsInvariant.insert (h : JobsInvariant codec ops s) {job : DispatchJob}
    {input : DispatchJobInput} (hnew : ∀ row ∈ s.jobs, row.id ≠ job.id)
    (hop : (ops t).creates = some input) (horigin : CreatedFrom codec input job.origin)
    (hstatus : job.status = .accepted) : JobsInvariant codec ops (s.insert t job) := by
  have hmoves : JobsMove s (s.insert t job) :=
    fun row hmem => ⟨row, List.mem_append_left _ hmem, .refl row⟩
  refine ⟨⟨?_, fun row hmem => ?_, ?_, fun entry hentry => ?_⟩,
    ⟨h.leased.once, h.leased.stored_of_moves hmoves, fun row hmem hhanded => ?_⟩,
    ⟨h.completed.once, h.completed.stored_of_moves hmoves, fun row hmem hsucceeded => ?_⟩⟩
  · rw [DispatchState.insert, List.map_append, List.map_singleton]
    refine List.nodup_append'.mpr ⟨h.created.ids, List.nodup_singleton _,
      List.disjoint_singleton.mpr fun hmem => ?_⟩
    obtain ⟨row, hrow, hid⟩ := List.mem_map.mp hmem
    exact hnew row hrow hid
  · obtain hmem | hmem := List.mem_append.mp hmem
    · obtain ⟨u, created, hentry, hcreated⟩ := h.created.origin row hmem
      exact ⟨u, created, List.mem_append_left _ hentry, hcreated⟩
    · obtain rfl := List.mem_singleton.mp hmem
      exact ⟨t, input, List.mem_append_right _ (List.mem_singleton.mpr rfl), hop, horigin⟩
  · refine nodup_append_fresh h.created.once fun entry hentry hid => ?_
    obtain ⟨row, hrow, hid'⟩ := h.created.stored entry hentry
    exact hnew row hrow (hid'.trans hid)
  · obtain hentry | hentry := List.mem_append.mp hentry
    · obtain ⟨row, hrow, hid⟩ := h.created.stored entry hentry
      exact ⟨row, List.mem_append_left _ hrow, hid⟩
    · obtain rfl := List.mem_singleton.mp hentry
      exact ⟨job, List.mem_append_right _ (List.mem_singleton.mpr rfl), rfl⟩
  · obtain hmem | hmem := List.mem_append.mp hmem
    · exact h.leased.handed row hmem hhanded
    · obtain rfl := List.mem_singleton.mp hmem
      rw [hstatus] at hhanded
      cases hhanded
  · obtain hmem | hmem := List.mem_append.mp hmem
    · exact h.completed.results row hmem hsucceeded
    · obtain rfl := List.mem_singleton.mp hmem
      rw [hstatus] at hsucceeded
      cases hsucceeded

end Insert

end Mizan.Dispatch
