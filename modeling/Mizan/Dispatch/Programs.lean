import Mizan.Dispatch.Protocol

namespace Mizan.Dispatch

open Interleaving

inductive DispatchAnswer where
  | created (id : Uuid)
  | dispatched (result : DispatchJobResult)
  | leased (response : Option DispatchJobLeaseResponse)
  | completed (status : String)
  | done
  deriving DecidableEq, Repr

def runOp (codec : Codec) : DispatchOp → DispatchProg DispatchAnswer
  | .create input => do
      let id ← createDispatchJob codec input
      pure (.created id)
  | .dispatch input polls => do
      let result ← dispatchToDaemonNode codec input polls
      pure (.dispatched result)
  | .lease nodeId => do
      let response ← leaseNextJobForNode codec nodeId
      pure (.leased response)
  | .complete nodeId jobId payload => do
      let status ← completeJob codec nodeId jobId payload
      pure (.completed status)
  | .markTimedOut jobId => do
      markJobTimedOut jobId
      pure .done
  | .markExpired => do
      markExpiredJobsTimedOut
      pure .done

-- What a lease response says of the job that it hands out.
structure LeaseOf (codec : Codec) (nodeId : Uuid) (response : DispatchJobLeaseResponse)
    (origin : JobOrigin) : Prop where
  id : origin.id = response.id
  nodeId : origin.nodeId = nodeId
  requestId : origin.requestId = response.requestId
  model : origin.model = response.model
  request : codec.requestFromStr origin.requestJson = .ok response.request
  deadlineAt : origin.deadlineAt = response.deadlineAt

-- The result that the gateway is given of a job agrees with what is stored.
def MatchesStored (codec : Codec) (result : DispatchJobResult) (job : DispatchJob) : Prop :=
  match result with
  | .succeeded response => job.status = .succeeded ∧
      ∃ text, job.responseJson = some text ∧ codec.responseFromStr text = .ok response
  | .failed errorCode errorMessage => job.status = .failed ∧ job.errorCode = errorCode ∧
      job.errorMessage.getD "daemon job failed" = errorMessage
  | .timedOut => job.status = .timedOut

theorem terminalResult_matches {codec : Codec} {job : DispatchJob} {result : DispatchJobResult}
    (h : terminalResult codec job = .ok (some result)) :
    job.status.isTerminal = true ∧ MatchesStored codec result job := by
  rw [terminalResult] at h
  split at h
  · rename_i hstatus
    split at h
    · cases h
    · rename_i raw hraw
      split at h
      · rename_i response hresponse
        cases h
        exact ⟨by rw [hstatus]; rfl, hstatus, raw, hraw, hresponse⟩
      · cases h
  · rename_i hstatus
    cases h
    exact ⟨by rw [hstatus]; rfl, hstatus, rfl, rfl⟩
  · rename_i hstatus
    cases h
    exact ⟨by rw [hstatus]; rfl, hstatus⟩
  · cases h
  · cases h

section Programs

variable {guarded : Prop} {codec : Codec} {ops : Nat → DispatchOp} {t : Nat} {s : DispatchState}
  {pre : DispatchState → Prop}

theorem infrastructure_ok {α : Type} {response : Except String α} {value : α}
    (h : infrastructure response = .ok value) : response = .ok value := by
  cases response with
  | ok result => exact congrArg Except.ok (Except.ok.inj h)
  | error error => cases h

theorem unixTimestampString_spec (hpre : (dispatchProtocol guarded codec ops).Stable t pre)
    (hs : pre s) : (dispatchProtocol guarded codec ops).ewp t unixTimestampString (fun _ => pre)
      (fun _ _ => True) s := pass_spec rfl hpre hs

theorem insertJob_spec {input : DispatchJobInput} {job : DispatchJob}
    (hop : (ops t).creates = some input) (horigin : CreatedFrom codec input job.origin)
    (hstatus : job.status = .accepted) :
    (dispatchProtocol guarded codec ops).ewp t (Prog.perform (.insertJob job) infrastructure)
      (fun _ s => (job.id, t) ∈ s.created ∧ ∃ row ∈ s.jobs, row.origin.id = job.id)
      (fun _ _ => True) s := by
  refine statement_spec Protocol.stable_true
    (fun _ => stable_and (stable_created _) (stable_origin fun origin => origin.id = job.id))
    (fun s choice response s' hinv _ _ hexec => ?_) trivial
  simp only [DispatchState.exec] at hexec
  split at hexec
  · cases hexec
    exact ⟨⟨hinv, Progress.refl _⟩, fun value hvalue => by cases hvalue⟩
  · rename_i hnew
    have hnew : ∀ row ∈ s.jobs, row.id ≠ job.id := by simpa using hnew
    have hinserted := hinv.insert hnew hop horigin hstatus
    have hprogress : Progress s (s.insert t job) :=
      ⟨fun row hmem => ⟨row, List.mem_append_left _ hmem, .refl⟩,
        List.subset_append_left _ _, List.Subset.refl _, List.Subset.refl _⟩
    obtain ⟨rfl, rfl⟩ | ⟨error, rfl, rfl | rfl⟩ := reply_cases (Option.some.inj hexec)
    · refine ⟨⟨hinserted, hprogress⟩, fun _ _ => ⟨?_, job, ?_, rfl⟩⟩
      · exact List.mem_append_right _ (List.mem_singleton.mpr rfl)
      · exact List.mem_append_right _ (List.mem_singleton.mpr rfl)
    · exact ⟨⟨hinv, Progress.refl _⟩, fun value hvalue => by cases hvalue⟩
    · exact ⟨⟨hinserted, hprogress⟩, fun value hvalue => by cases hvalue⟩

theorem createDispatchJob_spec {input : DispatchJobInput} (hop : (ops t).creates = some input) :
    (dispatchProtocol guarded codec ops).ewp t (createDispatchJob codec input)
      (fun id s => (id, t) ∈ s.created ∧ ∃ row ∈ s.jobs, row.origin.id = id)
      (fun _ _ => True) s := by
  refine Protocol.ewp_seq (pass_spec rfl Protocol.stable_true trivial) (fun _ _ _ => trivial)
    fun id s₁ _ _ => ?_
  refine Protocol.ewp_seq (unixTimestampString_spec Protocol.stable_true trivial)
    (fun _ _ _ => trivial)
    fun now s₂ _ _ => ?_
  refine Protocol.ewp_seq (pass_spec rfl Protocol.stable_true trivial) (fun _ _ _ => trivial)
    fun started s₃ _ _ => ?_
  refine Protocol.ewp_seq (described_spec Protocol.stable_true trivial) (fun _ _ _ => trivial)
    fun requestJson s₄ _ hrequest => ?_
  refine Protocol.ewp_seq (insertJob_spec hop ⟨rfl, rfl, rfl, rfl, rfl, hrequest.1⟩ rfl)
    (fun _ _ _ => trivial) fun _ s₅ _ hcreated => ?_
  exact Protocol.ewp_pure fun s₆ =>
    stable_and (stable_created _) (stable_origin fun origin => origin.id = id) hcreated

theorem timeOut_spec {selects : DispatchJob → Bool} {now : String} {s s' : DispatchState}
    {choice : DispatchChoice} {response : Except String Nat} (hinv : JobsInvariant codec ops s)
    (hpending : ∀ job, selects job = true → pending job = true)
    (h : some (reply choice.fault choice.executed (Table.affected selects s.jobs) s
      (s.timeOut selects now)) = some (response, s')) :
    (JobsInvariant codec ops s' ∧ Progress s s') ∧
      ∀ value, response = .ok value → choice.fault = none ∧ s' = s.timeOut selects now := by
  have hprogress : Progress s (s.timeOut selects now) :=
    ⟨JobsMove.evolve (update_moves (fun job hjob => .timeOut now (hpending job hjob)) rfl),
      List.Subset.refl _, List.Subset.refl _, List.Subset.refl _⟩
  obtain ⟨hresponse, rfl⟩ | ⟨error, rfl, rfl | rfl⟩ := reply_cases (Option.some.inj h)
  · rw [hresponse] at h
    exact ⟨⟨hinv.timeOut hpending, hprogress⟩,
      fun _ _ => ⟨fault_of_reply_ok (Option.some.inj h), rfl⟩⟩
  · exact ⟨⟨hinv, Progress.refl _⟩, fun value hvalue => by cases hvalue⟩
  · exact ⟨⟨hinv.timeOut hpending, hprogress⟩, fun value hvalue => by cases hvalue⟩

theorem markExpiredJobsTimedOut_spec :
    (dispatchProtocol guarded codec ops).ewp t markExpiredJobsTimedOut (fun _ _ => True)
      (fun _ _ => True) s := by
  refine Protocol.ewp_seq (unixTimestampString_spec Protocol.stable_true trivial)
    (fun _ _ _ => trivial)
    fun now s₁ _ _ => ?_
  have hexpire : (dispatchProtocol guarded codec ops).ewp t
      (Prog.perform (.timeOutExpired now) infrastructure : DispatchProg Nat) (fun _ _ => True)
      (fun _ _ => True) s₁ := by
    refine statement_spec Protocol.stable_true (fun _ => Protocol.stable_true)
      (fun s choice response s' hinv _ _ hexec => ?_) trivial
    exact ⟨(timeOut_spec hinv (fun _ => expired_pending) hexec).1, fun _ _ => trivial⟩
  exact Protocol.ewp_seq hexpire (fun _ _ _ => trivial) fun _ _ _ _ =>
    Protocol.ewp_pure fun _ _ _ => trivial

-- A job that had no outcome from its daemon has timed out.
theorem timeOut_timedOut {id : Uuid} {now : String} {s : DispatchState} {job : DispatchJob}
    (hmem : job ∈ s.jobs) (hid : job.id = id) (hundecided : TimesOutUndecided id s) :
    ∃ row ∈ (s.timeOut (timeOutable id) now).jobs, row.status.isTerminal = true ∧ row.id = id ∧
      row.status = .timedOut := by
  obtain ⟨hsucceeded, hfailed⟩ := hundecided job hmem hid
  refine ⟨_, Table.update_of_mem hmem, ?_⟩
  split
  · exact ⟨rfl, hid, rfl⟩
  · rename_i hselected
    have hstatus : job.status = .timedOut := by
      cases hstatus : job.status with
      | accepted => simp [timeOutable, pending, hid, hstatus] at hselected
      | leased => simp [timeOutable, pending, hid, hstatus] at hselected
      | succeeded => exact absurd hstatus hsucceeded
      | failed => exact absurd hstatus hfailed
      | timedOut => rfl
    exact ⟨by rw [hstatus]; rfl, hid, hstatus⟩

theorem stable_imp (condition : Prop) {property : DispatchState → Prop}
    (h : (dispatchProtocol guarded codec ops).Stable t property) :
    (dispatchProtocol guarded codec ops).Stable t fun s => condition → property s :=
  fun hs hrely hinv hcondition => h (hs hcondition) hrely hinv

theorem stable_timedOut (id : Uuid) : (dispatchProtocol guarded codec ops).Stable t fun s =>
    ∃ row ∈ s.jobs, row.status.isTerminal = true ∧ row.id = id ∧ row.status = .timedOut :=
  stable_terminal fun row => row.id = id ∧ row.status = .timedOut

-- `known` says that the job is the thread's own, and stored.
theorem markJobTimedOut_spec {id : Uuid} {known : Prop}
    (hpre : (dispatchProtocol guarded codec ops).Stable t pre)
    (hknown : known → (ops t).creates ≠ none ∧ ∀ s, pre s → ∃ row ∈ s.jobs, row.origin.id = id)
    (hs : pre s) :
    (dispatchProtocol guarded codec ops).ewp t (markJobTimedOut id)
      (fun _ s => pre s ∧ (guarded ∧ known → ∃ row ∈ s.jobs, row.status.isTerminal = true ∧
        row.id = id ∧ row.status = .timedOut)) (fun _ _ => True) s := by
  have hpost : (dispatchProtocol guarded codec ops).Stable t fun s => pre s ∧
      (guarded ∧ known → ∃ row ∈ s.jobs, row.status.isTerminal = true ∧ row.id = id ∧
        row.status = .timedOut) :=
    stable_and hpre (stable_imp _ (stable_timedOut id))
  refine Protocol.ewp_seq (unixTimestampString_spec hpre hs) (fun _ _ _ => trivial)
    fun now s₁ _ hs₁ => ?_
  have hupdate : (dispatchProtocol guarded codec ops).ewp t
      (Prog.perform (.timeOutJob id now) infrastructure : DispatchProg Nat)
      (fun _ s => pre s ∧ (guarded ∧ known → ∃ row ∈ s.jobs, row.status.isTerminal = true ∧
        row.id = id ∧ row.status = .timedOut)) (fun _ _ => True) s₁ := by
    refine statement_spec hpre (fun _ => hpost)
      (fun s choice response s' hinv hs hadmits hexec => ?_) hs₁
    obtain ⟨hkeeps, hstate⟩ := timeOut_spec hinv (fun _ => timeOutable_pending) hexec
    refine ⟨hkeeps, fun value hvalue => ⟨hpre hs hkeeps.2 hkeeps.1, fun hcondition => ?_⟩⟩
    obtain ⟨hown, hstored⟩ := hknown hcondition.2
    obtain ⟨job, hmem, hid⟩ := hstored s hs
    obtain ⟨hfault, hs'⟩ := hstate value (infrastructure_ok hvalue)
    rw [hs']
    exact timeOut_timedOut hmem hid (hadmits hcondition.1 hown hfault id now rfl)
  exact Protocol.ewp_seq hupdate (fun _ _ _ => trivial) fun _ _ _ hs₂ =>
    Protocol.ewp_pure fun _ => hpost hs₂

section Lease

-- The candidates are stored, whatever became of them since they were selected.
def Selected (nodeId : Uuid) (rows : List DispatchJob) (s : DispatchState) : Prop :=
  ∀ row ∈ rows, row.nodeId = nodeId ∧ ∃ job ∈ s.jobs, job.origin = row.origin

theorem Selected.progress {nodeId : Uuid} {rows : List DispatchJob} {s s' : DispatchState}
    (h : Selected nodeId rows s) (hprogress : Progress s s') : Selected nodeId rows s' := by
  intro row hrow
  obtain ⟨hnode, job, hmem, horigin⟩ := h row hrow
  obtain ⟨job', hmem', hevolves⟩ := hprogress.jobs job hmem
  exact ⟨hnode, job', hmem', (origin_of_evolves hevolves).trans horigin⟩

theorem Selected.stable {nodeId : Uuid} {rows : List DispatchJob} :
    (dispatchProtocol guarded codec ops).Stable t (Selected nodeId rows) :=
  fun hs hrely _ => Selected.progress hs hrely

theorem leaseJob_spec {nodeId : Uuid} {row : DispatchJob} {rows : List DispatchJob} {now : String}
    (hop : ops t = .lease nodeId) (hs : Selected nodeId rows s) :
    (dispatchProtocol guarded codec ops).ewp t
      (Prog.perform (.leaseJob row.id nodeId now) infrastructure : DispatchProg Nat)
      (fun rowsAffected s => Selected nodeId rows s ∧ (rowsAffected = 1 → (row.id, t) ∈ s.leased))
      (fun _ _ => True) s := by
  refine statement_spec Selected.stable (fun _ => stable_and Selected.stable
    (stable_imp _ (stable_leased _))) (fun s choice response s' hinv hs _ hexec => ?_) hs
  have hleased : JobsInvariant codec ops (s.lease t row.id nodeId now) := hinv.lease hop
  have hprogress : Progress s (s.lease t row.id nodeId now) := by
    refine ⟨JobsMove.evolve (update_moves (fun _ => lease_move) rfl), List.Subset.refl _, ?_,
      List.Subset.refl _⟩
    simp only [DispatchState.lease]
    split
    · exact List.Subset.refl _
    · exact List.subset_append_left _ _
  obtain ⟨rfl, rfl⟩ | ⟨error, rfl, rfl | rfl⟩ := reply_cases (Option.some.inj hexec)
  · refine ⟨⟨hleased, hprogress⟩, fun rowsAffected haffected =>
      ⟨hs.progress hprogress, fun hone => ?_⟩⟩
    have hvalue := Except.ok.inj (infrastructure_ok haffected)
    have hnonzero : Table.affected (leasable row.id nodeId) s.jobs ≠ 0 := by omega
    simp only [DispatchState.lease, if_neg hnonzero]
    exact List.mem_append_right _ (List.mem_singleton.mpr rfl)
  · exact ⟨⟨hinv, Progress.refl _⟩, fun value hvalue => by cases hvalue⟩
  · exact ⟨⟨hleased, hprogress⟩, fun value hvalue => by cases hvalue⟩

-- What a call of `lease_next_job_for_node` hands out.
def HandedOut (codec : Codec) (t : Nat) (nodeId : Uuid)
    (response : Option DispatchJobLeaseResponse) (s : DispatchState) : Prop :=
  ∀ lease, response = some lease → (lease.id, t) ∈ s.leased ∧
    ∃ job ∈ s.jobs, LeaseOf codec nodeId lease job.origin

theorem HandedOut.stable {nodeId : Uuid} {response : Option DispatchJobLeaseResponse} :
    (dispatchProtocol guarded codec ops).Stable t (HandedOut codec t nodeId response) :=
  fun hs hrely hinv lease hlease => ⟨stable_leased _ (hs lease hlease).1 hrely hinv,
    stable_origin (LeaseOf codec nodeId lease) (hs lease hlease).2 hrely hinv⟩

theorem leaseFirst_spec {nodeId : Uuid} {now : String} (hop : ops t = .lease nodeId)
    (rows : List DispatchJob) (hs : Selected nodeId rows s) :
    (dispatchProtocol guarded codec ops).ewp t (leaseFirst codec nodeId now rows)
      (HandedOut codec t nodeId) (fun _ _ => True) s := by
  induction rows generalizing s with
  | nil => exact Protocol.ewp_pure fun _ _ _ lease hlease => by cases hlease
  | cons row rows ih =>
      rw [leaseFirst]
      refine Protocol.ewp_seq (leaseJob_spec hop hs) (fun _ _ _ => trivial)
        fun rowsAffected s₁ _ hs₁ => ?_
      split
      · exact ih fun other hother => hs₁.1 other (List.mem_cons_of_mem row hother)
      · rename_i hone
        have hleased := hs₁.2 (not_not.mp hone)
        obtain ⟨hnode, hstored⟩ := hs₁.1 row List.mem_cons_self
        have hstable : (dispatchProtocol guarded codec ops).Stable t fun s =>
            (row.id, t) ∈ s.leased ∧ ∃ job ∈ s.jobs, job.origin = row.origin :=
          stable_and (stable_leased _) (stable_origin fun origin => origin = row.origin)
        refine Protocol.ewp_seq (described_spec hstable ⟨hleased, hstored⟩) (fun _ _ _ => trivial)
          fun request s₂ _ hs₂ => ?_
        refine Protocol.ewp_pure fun s₃ hrely hinv lease hlease => ?_
        cases hlease
        obtain ⟨hleased', job, hjob, horigin⟩ := hstable hs₂.2 hrely hinv
        refine ⟨hleased', job, hjob, ?_⟩
        rw [horigin]
        exact ⟨rfl, hnode, rfl, rfl, hs₂.1, rfl⟩

theorem leaseNextJobForNode_spec {nodeId : Uuid} (hop : ops t = .lease nodeId) :
    (dispatchProtocol guarded codec ops).ewp t (leaseNextJobForNode codec nodeId)
      (HandedOut codec t nodeId) (fun _ _ => True) s := by
  refine Protocol.ewp_seq markExpiredJobsTimedOut_spec (fun _ _ _ => trivial) fun _ s₁ _ _ => ?_
  refine Protocol.ewp_seq (unixTimestampString_spec Protocol.stable_true trivial)
    (fun _ _ _ => trivial)
    fun now s₂ _ _ => ?_
  have hselect : (dispatchProtocol guarded codec ops).ewp t
      (Prog.perform (.selectAccepted nodeId now) infrastructure : DispatchProg (List DispatchJob))
      (Selected nodeId) (fun _ _ => True) s₂ := by
    refine read_spec rfl Protocol.stable_true (fun _ => Selected.stable)
      (fun s choice response rows _ hexec hrows => ?_) trivial
    obtain rfl := infrastructure_ok hrows
    obtain ⟨hresponse, _⟩ | ⟨error, hresponse, _⟩ := reply_cases (Option.some.inj hexec)
    · obtain rfl := Except.ok.inj hresponse
      intro row hrow
      obtain ⟨hmem, hnode⟩ := mem_of_mem_selectAccepted hrow
      exact ⟨hnode, row, hmem, rfl⟩
    · cases hresponse
  exact Protocol.ewp_seq hselect (fun _ _ _ => trivial) fun rows s₃ _ hs₃ =>
    leaseFirst_spec hop rows hs₃

end Lease

section Complete

theorem responseJson_spec {response : Option ChatResponse} :
    (dispatchProtocol guarded codec ops).ewp t (responseJson codec response)
      (fun stored _ => ∀ value, response = some value →
        ∃ text, codec.responseToString value = .ok text ∧ stored = some text)
      (fun _ _ => True) s := by
  cases response with
  | none => exact Protocol.ewp_pure fun _ _ _ value hvalue => by cases hvalue
  | some value =>
      refine Protocol.ewp_seq (described_spec Protocol.stable_true trivial) (fun _ _ _ => trivial)
        fun text s₁ _ htext => Protocol.ewp_pure fun _ _ _ value' hvalue => ?_
      cases hvalue
      exact ⟨text, htext.1, rfl⟩

theorem completeStatement_spec {nodeId jobId : Uuid} {payload : DispatchJobCompleteRequest}
    {completion : Completion} {now : String} (hop : ops t = .complete nodeId jobId payload)
    (hstores : Stores codec payload completion) :
    (dispatchProtocol guarded codec ops).ewp t
      (Prog.perform (.completeJob jobId nodeId completion now) infrastructure : DispatchProg Nat)
      (fun rowsAffected s => rowsAffected = 1 → (jobId, t) ∈ s.completed) (fun _ _ => True) s := by
  refine statement_spec Protocol.stable_true (fun _ => stable_imp _ (stable_completed _))
    (fun s choice response s' hinv _ _ hexec => ?_) trivial
  have hcompleted : JobsInvariant codec ops (s.complete t jobId nodeId completion now) :=
    hinv.complete hop hstores
  have hprogress : Progress s (s.complete t jobId nodeId completion now) := by
    refine ⟨JobsMove.evolve (update_moves (fun _ => complete_move) rfl), List.Subset.refl _,
      List.Subset.refl _, ?_⟩
    simp only [DispatchState.complete]
    split
    · exact List.Subset.refl _
    · exact List.subset_append_left _ _
  obtain ⟨rfl, rfl⟩ | ⟨error, rfl, rfl | rfl⟩ := reply_cases (Option.some.inj hexec)
  · refine ⟨⟨hcompleted, hprogress⟩, fun rowsAffected haffected hone => ?_⟩
    have hvalue := Except.ok.inj (infrastructure_ok haffected)
    have hnonzero : Table.affected (completable jobId nodeId) s.jobs ≠ 0 := by omega
    simp only [DispatchState.complete, if_neg hnonzero]
    exact List.mem_append_right _ (List.mem_singleton.mpr rfl)
  · exact ⟨⟨hinv, Progress.refl _⟩, fun value hvalue => by cases hvalue⟩
  · exact ⟨⟨hcompleted, hprogress⟩, fun value hvalue => by cases hvalue⟩

theorem completeJob_spec {nodeId jobId : Uuid} {payload : DispatchJobCompleteRequest}
    (hop : ops t = .complete nodeId jobId payload) :
    (dispatchProtocol guarded codec ops).ewp t (completeJob codec nodeId jobId payload)
      (fun _ s => (jobId, t) ∈ s.completed) (fun _ _ => True) s := by
  rw [completeJob]
  split
  · exact Protocol.ewp_throw fun _ _ _ => trivial
  · rename_i status _
    split
    · exact Protocol.ewp_throw fun _ _ _ => trivial
    · rename_i hresponse
      refine Protocol.ewp_seq responseJson_spec (fun _ _ _ => trivial) fun stored s₁ _ hstored => ?_
      refine Protocol.ewp_seq (unixTimestampString_spec Protocol.stable_true trivial)
        (fun _ _ _ => trivial) fun now s₂ _ _ => ?_
      have hstores : Stores codec payload {
          status
          responseJson := stored
          errorCode := payload.errorCode
          errorMessage := nonBlank payload.errorMessage } := by
        intro hsucceeded
        cases hpayload : payload.response with
        | none => exact absurd ⟨hsucceeded, hpayload⟩ hresponse
        | some response =>
            obtain ⟨text, htext, hjson⟩ := hstored response hpayload
            exact ⟨response, text, rfl, htext, hjson⟩
      refine Protocol.ewp_seq (completeStatement_spec hop hstores) (fun _ _ _ => trivial)
        fun rowsAffected s₃ _ hs₃ => ?_
      split
      · exact Protocol.ewp_throw fun _ _ _ => trivial
      · rename_i hone
        exact Protocol.ewp_pure fun _ => stable_completed _ (hs₃ (not_not.mp hone))

end Complete

section Wait

def StoredOutcome (codec : Codec) (id : Uuid) (result : DispatchJobResult) (s : DispatchState) :
    Prop :=
  ∃ job ∈ s.jobs, job.status.isTerminal = true ∧ job.id = id ∧ MatchesStored codec result job

theorem StoredOutcome.stable {id : Uuid} {result : DispatchJobResult} :
    (dispatchProtocol guarded codec ops).Stable t (StoredOutcome codec id result) :=
  stable_terminal fun job => job.id = id ∧ MatchesStored codec result job

theorem fetchTerminalResult_spec {id : Uuid}
    (hpre : (dispatchProtocol guarded codec ops).Stable t pre) (hs : pre s) :
    (dispatchProtocol guarded codec ops).ewp t (fetchTerminalResult codec id)
      (fun found s => (∀ result, found = some result → StoredOutcome codec id result s) ∧ pre s)
      (fun _ _ => True) s := by
  have hfound : ∀ found, (dispatchProtocol guarded codec ops).Stable t fun s =>
      ∀ result, found = some result → StoredOutcome codec id result s :=
    fun _ _ _ hs hrely hinv result hresult => StoredOutcome.stable (hs result hresult) hrely hinv
  refine read_spec rfl hpre (fun found => stable_and (hfound found) hpre) ?_ hs
  intro s choice response found hs hexec hfound
  refine ⟨fun result hresult => ?_, hs⟩
  obtain ⟨hresponse, _⟩ | ⟨error, hresponse, _⟩ := reply_cases (Option.some.inj hexec)
  · subst hresponse
    cases hjob : s.jobs.find? fun job => job.id = id with
    | none =>
        rw [hjob] at hfound
        cases hfound
    | some job =>
        rw [hjob, hresult] at hfound
        obtain ⟨hterminal, hmatches⟩ := terminalResult_matches hfound
        have hid := List.find?_some hjob
        rw [decide_eq_true_eq] at hid
        exact ⟨job, List.mem_of_find?_eq_some hjob, hterminal, hid, hmatches⟩
  · subst hresponse
    cases hfound

-- A result that the loop was given is stored; it also gives up by its own clock.
theorem pollDispatchResult_spec {id : Uuid} {timeoutMs startedAt : Nat}
    (hpre : (dispatchProtocol guarded codec ops).Stable t pre) (polls : Nat) (hs : pre s) :
    (dispatchProtocol guarded codec ops).ewp t
      (pollDispatchResult codec id timeoutMs startedAt polls)
      (fun result s => (result ≠ .timedOut → StoredOutcome codec id result s) ∧ pre s)
      (fun _ _ => True) s := by
  have hpost : ∀ result, (dispatchProtocol guarded codec ops).Stable t fun s =>
      (result ≠ .timedOut → StoredOutcome codec id result s) ∧ pre s :=
    fun result => stable_and (stable_imp _ StoredOutcome.stable) hpre
  induction polls generalizing s with
  | zero =>
      refine read_spec rfl hpre hpost (fun s choice response _ _ hexec _ => ?_) hs
      cases hexec
  | succ polls ih =>
      rw [pollDispatchResult]
      refine Protocol.ewp_seq (fetchTerminalResult_spec hpre hs) (fun _ _ _ => trivial)
        fun found s₁ _ hs₁ => ?_
      cases found with
      | some result =>
          exact Protocol.ewp_pure fun _ => hpost result ⟨fun _ => hs₁.1 result rfl, hs₁.2⟩
      | none =>
          refine Protocol.ewp_seq (pass_spec rfl hpre hs₁.2) (fun _ _ _ => trivial)
            fun now s₂ _ hs₂ => ?_
          split
          · exact Protocol.ewp_pure fun _ => hpost _ ⟨fun h => absurd rfl h, hs₂⟩
          · refine Protocol.ewp_seq (Protocol.ewp_seq (pass_spec rfl hpre hs₂)
              (fun _ _ _ => trivial)
              fun started s₃ _ hs₃ => pass_spec rfl hpre hs₃) (fun _ _ _ => trivial)
              fun _ s₄ _ hs₄ => ih hs₄

theorem dispatchToDaemonNode_spec {input : DispatchJobInput} (polls : Nat)
    (hop : (ops t).creates = some input) :
    (dispatchProtocol guarded codec ops).ewp t (dispatchToDaemonNode codec input polls)
      (fun result s => ∃ id, (id, t) ∈ s.created ∧
        ((result = .timedOut → guarded) → StoredOutcome codec id result s))
      (fun _ _ => True) s := by
  have hpost : ∀ result id, (dispatchProtocol guarded codec ops).Stable t fun s =>
      (id, t) ∈ s.created ∧ ((result = .timedOut → guarded) → StoredOutcome codec id result s) :=
    fun result id => stable_and (stable_created _) (stable_imp _ StoredOutcome.stable)
  refine Protocol.ewp_seq (createDispatchJob_spec hop) (fun _ _ _ => trivial)
    fun id s₁ _ hs₁ => ?_
  have hknown : (dispatchProtocol guarded codec ops).Stable t fun s =>
      (id, t) ∈ s.created ∧ ∃ row ∈ s.jobs, row.origin.id = id :=
    stable_and (stable_created _) (stable_origin fun origin => origin.id = id)
  refine Protocol.ewp_seq (Protocol.ewp_seq (pass_spec rfl hknown hs₁) (fun _ _ _ => trivial)
    fun startedAt s₂ _ hs₂ => pollDispatchResult_spec hknown polls hs₂) (fun _ _ _ => trivial)
    fun result s₃ _ hs₃ => ?_
  cases result with
  | succeeded response =>
      exact Protocol.ewp_pure fun s' hrely hinv =>
        ⟨id, hpost _ id ⟨hs₃.2.1, fun _ => hs₃.1 (by simp)⟩ hrely hinv⟩
  | failed errorCode errorMessage =>
      exact Protocol.ewp_pure fun s' hrely hinv =>
        ⟨id, hpost _ id ⟨hs₃.2.1, fun _ => hs₃.1 (by simp)⟩ hrely hinv⟩
  | timedOut =>
      have hmark := markJobTimedOut_spec hknown
        (fun (_ : True) => ⟨by simp [hop], fun _ hs => hs.2⟩) hs₃.2
      exact Protocol.ewp_seq hmark (fun _ _ _ => trivial) fun _ s₄ _ hs₄ =>
        Protocol.ewp_pure fun s' hrely hinv =>
          ⟨id, hpost _ id ⟨hs₄.1.1, fun h => hs₄.2 ⟨h rfl, trivial⟩⟩ hrely hinv⟩

end Wait

-- What the answer of each operation says of the state it is given in.
def Answered (guarded : Prop) (codec : Codec) (ops : Nat → DispatchOp) (t : Nat)
    (answer : DispatchAnswer) (s : DispatchState) : Prop :=
  match answer with
  | .dispatched result => ∃ id, (id, t) ∈ s.created ∧
      ((result = .timedOut → guarded) → StoredOutcome codec id result s)
  | .leased response => ∃ nodeId, ops t = .lease nodeId ∧ HandedOut codec t nodeId response s
  | .completed _ => ∃ nodeId jobId payload, ops t = .complete nodeId jobId payload ∧
      (jobId, t) ∈ s.completed
  | .created _ | .done => True

theorem runOp_spec : (dispatchProtocol guarded codec ops).ewp t (runOp codec (ops t))
    (Answered guarded codec ops t) (fun _ _ => True) s := by
  cases hop : ops t with
  | create input =>
      exact Protocol.ewp_seq (createDispatchJob_spec (by rw [hop]; rfl)) (fun _ _ _ => trivial)
        fun _ _ _ _ => Protocol.ewp_pure fun _ _ _ => trivial
  | dispatch input polls =>
      refine Protocol.ewp_seq (dispatchToDaemonNode_spec polls (by rw [hop]; rfl))
        (fun _ _ _ => trivial) fun result s₁ _ hs₁ => Protocol.ewp_pure fun s' hrely hinv => ?_
      obtain ⟨id, hcreated, hstored⟩ := hs₁
      exact ⟨id, stable_created _ hcreated hrely hinv,
        stable_imp _ StoredOutcome.stable hstored hrely hinv⟩
  | lease nodeId =>
      exact Protocol.ewp_seq (leaseNextJobForNode_spec hop) (fun _ _ _ => trivial)
        fun _ _ _ hs₁ => Protocol.ewp_pure fun _ hrely hinv =>
          ⟨nodeId, hop, HandedOut.stable hs₁ hrely hinv⟩
  | complete nodeId jobId payload =>
      exact Protocol.ewp_seq (completeJob_spec hop) (fun _ _ _ => trivial)
        fun _ _ _ hs₁ => Protocol.ewp_pure fun _ hrely hinv =>
          ⟨nodeId, jobId, payload, hop, stable_completed _ hs₁ hrely hinv⟩
  | markTimedOut jobId =>
      exact Protocol.ewp_seq (markJobTimedOut_spec Protocol.stable_true
        (fun h : False => h.elim) trivial)
        (fun _ _ _ => trivial) fun _ _ _ _ => Protocol.ewp_pure fun _ _ _ => trivial
  | markExpired =>
      exact Protocol.ewp_seq markExpiredJobsTimedOut_spec (fun _ _ _ => trivial)
        fun _ _ _ _ => Protocol.ewp_pure fun _ _ _ => trivial

end Programs

end Mizan.Dispatch
