import Mizan.Daemon.Agreement
import Mizan.Dispatch.Safety
import Mizan.Fleet.System
import Mizan.Interleaving.Asks

namespace Mizan.Fleet

open Interleaving
open Daemon (DaemonCommand DaemonNodeHttpError DaemonNodeIdentity DaemonNodeRow DaemonProg
  DaemonRequest DaemonState DbDaemonNode NodeChoice NodeCodec NodeCommand NodeM NodeState
  NodesInvariant)
open Dispatch (DispatchCommand DispatchJob DispatchProg DispatchState)

variable {codec : NodeCodec}

-- The statements that leave a job leased, succeeded or failed, and the node that they do it for.
def worksFor : DispatchCommand → Option Uuid
  | .insertJob job => if job.status.isHanded then some job.nodeId else none
  | .leaseJob _ nodeId _ => some nodeId
  | .completeJob _ nodeId _ _ => some nodeId
  | _ => none

section Places

-- A request works only for a node that it has been taken for.
def workPlaces : Typestate DispatchCommand DispatchCommand.Response (List Uuid) where
  enabled known c := ∀ nodeId, worksFor c = some nodeId → nodeId ∈ known
  after known _ _ := known

def authPlaces : Typestate DaemonCommand DaemonCommand.Response (List Uuid) where
  enabled _ _ := True
  after known c response := known ++ (identifiedNode c response).toList

def places : Typestate (FleetCommand codec) FleetCommand.Response (List Uuid) where
  enabled known
    | .auth c => authPlaces.enabled known c
    | .node _ => True
    | .dispatch c => workPlaces.enabled known c
  after known
    | .auth c, response => authPlaces.after known c response
    | .node _, _ => known
    | .dispatch c, response => workPlaces.after known c response

-- Wherever it ends.
def anywhere {α : Type} : List Uuid → α → Prop := fun _ _ => True

variable {known : List Uuid} {α β : Type}

theorem respects_onNodes (program : NodeM codec α) (known : List Uuid) :
    places.Respects anywhere (onNodes program) known := by
  have hfree : ∀ (program : Prog (NodeCommand codec) NodeCommand.Response (Except AppError α))
      known,
      places.Respects anywhere
        (Prog.embed FleetCommand.node (fun _ response => response) program) known := by
    intro program
    induction program with
    | ret value => exact fun _ => trivial
    | call c next ih => exact fun known => ⟨trivial, fun response => ih response known⟩
  exact hfree program.run known

-- A program that works for none but the nodes that are known where it begins.
def WorksWithin (known : List Uuid) (program : DispatchProg α) : Prop :=
  workPlaces.Respects (Typestate.outcome (fun known' _ => known' = known) anywhere) program.run
    known

theorem within_seq {program : DispatchProg α} {rest : α → DispatchProg β}
    (h : WorksWithin known program) (hrest : ∀ value, WorksWithin known (rest value)) :
    WorksWithin known (program >>= rest) := by
  apply Typestate.respects_seq h
  intro known' value hknown
  subst hknown
  exact hrest value

theorem within_pure (value : α) : WorksWithin known (pure value) := rfl

theorem within_throw (error : AppError) : WorksWithin known (throw error : DispatchProg α) :=
  trivial

theorem within_perform {c : DispatchCommand} {result : c.Response → Except AppError α}
    (h : ∀ nodeId, worksFor c = some nodeId → nodeId ∈ known) :
    WorksWithin known (Prog.perform c result) := by
  apply Typestate.respects_perform h
  intro response
  cases result response with
  | ok value => rfl
  | error error => trivial

theorem within_pass {c : DispatchCommand} {result : c.Response → Except AppError α}
    (hpass : worksFor c = none) : WorksWithin known (Prog.perform c result) := by
  apply within_perform
  intro nodeId hworks
  rw [hpass] at hworks
  cases hworks

theorem within_described {words : String} {result : Except String α} :
    WorksWithin known (Dispatch.described words result) := by
  cases result with
  | ok value => exact within_pure value
  | error error => exact within_throw _

theorem within_markExpired : WorksWithin known Dispatch.markExpiredJobsTimedOut :=
  within_seq (within_pass rfl) fun _ => within_seq (within_pass rfl) fun _ => within_pure ()

variable {dispatchCodec : Dispatch.Codec} {nodeId : Uuid}

theorem within_leaseFirst (hknown : nodeId ∈ known) (now : String) (rows : List DispatchJob) :
    WorksWithin known (Dispatch.leaseFirst dispatchCodec nodeId now rows) := by
  induction rows with
  | nil => exact within_pure none
  | cons row rows ih =>
    have hlease : ∀ other, worksFor (.leaseJob row.id nodeId now) = some other → other ∈ known := by
      intro other hother
      obtain rfl := Option.some.inj hother
      exact hknown
    apply within_seq (within_perform hlease)
    intro rowsAffected
    by_cases hone : rowsAffected ≠ 1
    · rw [if_pos hone]
      exact ih
    · rw [if_neg hone]
      exact within_seq within_described fun request => within_pure _

theorem within_leaseNext (hknown : nodeId ∈ known) :
    WorksWithin known (Dispatch.leaseNextJobForNode dispatchCodec nodeId) := by
  apply within_seq within_markExpired
  intro _
  apply within_seq (within_pass rfl)
  intro now
  apply within_seq (within_pass rfl)
  exact within_leaseFirst hknown now

theorem within_completeJob (hknown : nodeId ∈ known) (jobId : Uuid)
    (payload : Dispatch.DispatchJobCompleteRequest) :
    WorksWithin known (Dispatch.completeJob dispatchCodec nodeId jobId payload) := by
  unfold Dispatch.completeJob
  split
  · exact within_throw _
  · rename_i status _
    split
    · exact within_throw _
    · have hencode : WorksWithin known (Dispatch.responseJson dispatchCodec payload.response) := by
        cases payload.response with
        | none => exact within_pure none
        | some response => exact within_seq within_described fun text => within_pure _
      apply within_seq hencode
      intro responseJson
      apply within_seq (within_pass rfl)
      intro now
      apply within_seq
      · apply within_perform
        intro other hother
        obtain rfl := Option.some.inj hother
        exact hknown
      · intro rowsAffected
        by_cases hone : rowsAffected ≠ 1
        · rw [if_pos hone]
          exact within_throw _
        · rw [if_neg hone]
          exact within_pure _

theorem within_poll (jobId : Uuid) (timeoutMs startedAt polls : Nat) :
    WorksWithin known
      (Dispatch.pollDispatchResult dispatchCodec jobId timeoutMs startedAt polls) := by
  induction polls with
  | zero => exact within_pass rfl
  | succ polls ih =>
    apply within_seq (within_pass rfl)
    intro result
    cases result with
    | some result => exact within_pure result
    | none =>
      apply within_seq (within_pass rfl)
      intro now
      split
      · exact within_pure _
      · have hsleep : WorksWithin known (Dispatch.sleep Dispatch.POLL_INTERVAL_MS) :=
          within_seq (within_pass rfl) fun _ => within_pass rfl
        exact within_seq hsleep fun _ => ih

-- The gateway works for no node: it creates a job, waits for it and may time it out.
theorem within_dispatch (input : Dispatch.DispatchJobInput) (polls : Nat) :
    WorksWithin known (Dispatch.dispatchToDaemonNode dispatchCodec input polls) := by
  have hcreate : WorksWithin known (Dispatch.createDispatchJob dispatchCodec input) := by
    apply within_seq (within_pass rfl)
    intro id
    apply within_seq (within_pass rfl)
    intro now
    apply within_seq (within_pass rfl)
    intro started
    apply within_seq within_described
    intro requestJson
    exact within_seq (within_pass rfl) fun _ => within_pure id
  apply within_seq hcreate
  intro jobId
  apply within_seq
  · apply within_seq (within_pass rfl)
    intro startedAt
    exact within_poll jobId _ startedAt polls
  · intro result
    cases result with
    | timedOut =>
      have hmark : WorksWithin known (Dispatch.markJobTimedOut jobId) :=
        within_seq (within_pass rfl) fun _ => within_seq (within_pass rfl) fun _ => within_pure ()
      exact within_seq hmark fun _ => within_pure _
    | succeeded response => exact within_pure _
    | failed errorCode errorMessage => exact within_pure _

-- The middleware lets a request through only as a node that it has been taken for.
theorem respects_daemonNodeAuth (sha256 : List UInt8 → List UInt8) (request : DaemonRequest)
    (known : List Uuid) :
    authPlaces.Respects
      (Typestate.outcome (fun known' authorized => authorized.identity.nodeId ∈ known') anywhere)
      (Daemon.daemonNodeAuth sha256 request).run known := by
  unfold Daemon.daemonNodeAuth
  split
  · exact Typestate.respects_throw trivial
  · rename_i authorization _
    have hresolve : authPlaces.Respects
        (Typestate.outcome (fun known' identity => identity.nodeId ∈ known') anywhere)
        (Daemon.resolveDaemonNodeIdentity sha256 authorization).run known := by
      unfold Daemon.resolveDaemonNodeIdentity
      split
      · exact Typestate.respects_throw trivial
      · apply Typestate.respects_perform trivial
        intro response
        match response with
        | .error error => trivial
        | .ok none => trivial
        | .ok (some row) => exact List.mem_append_right _ (List.mem_singleton_self row.id)
    apply Typestate.respects_seq hresolve
    intro known' identity hidentity
    have hvalidate : authPlaces.Respects
        (Typestate.outcome (fun known'' _ => identity.nodeId ∈ known'') anywhere)
        (Daemon.validateDaemonRequestSignature sha256 request identity).run known' := by
      unfold Daemon.validateDaemonRequestSignature
      apply @Typestate.respects_seq _ _ _ _ _ _ _ _ _ (fun known'' _ => identity.nodeId ∈ known'')
      · cases Daemon.requestSignature request with
        | ok signature => exact hidentity
        | error error => trivial
      · intro known'' signature hknown
        apply @Typestate.respects_seq _ _ _ _ _ _ _ _ _ (fun known'' _ => identity.nodeId ∈ known'')
        · exact Typestate.respects_perform trivial fun now => List.mem_append_left _ hknown
        · intro known'' now hknown
          split
          · exact Typestate.respects_throw trivial
          · split
            · apply Typestate.respects_perform trivial
              intro (admitted : Bool)
              cases admitted with
              | true => exact List.mem_append_left _ hknown
              | false => trivial
            · exact Typestate.respects_throw trivial
    apply Typestate.respects_seq hvalidate
    intro known'' _ hknown
    exact hknown

theorem respects_onDispatch {program : DispatchProg α} (h : WorksWithin known program) :
    places.Respects anywhere (onDispatch program : FleetProg codec _) known := by
  have hembedded : places.Respects (Typestate.outcome (fun known' _ => known' = known) anywhere)
      (onDispatch program : FleetProg codec _) known := by
    unfold onDispatch
    apply Typestate.respects_embed (T := workPlaces)
    · exact fun _ _ henabled => henabled
    · exact fun _ _ _ => rfl
    · exact h
  exact Typestate.respects_mono (fun _ _ _ => trivial) hembedded

theorem respects_authenticated {sha256 : List UInt8 → List UInt8} {request : DaemonRequest}
    {handler : DaemonNodeIdentity → FleetProg codec (FleetAnswer codec)}
    (hhandler : ∀ identity known, identity.nodeId ∈ known →
      places.Respects anywhere (handler identity) known) :
    places.Respects anywhere (authenticated sha256 request handler) known := by
  have hauth : places.Respects
      (Typestate.outcome (fun known' authorized => authorized.identity.nodeId ∈ known') anywhere)
      (onAuth (Daemon.daemonNodeAuth sha256 request) : FleetProg codec _) known := by
    unfold onAuth
    apply Typestate.respects_embed (T := authPlaces)
    · exact fun _ _ henabled => henabled
    · exact fun _ _ _ => rfl
    · exact respects_daemonNodeAuth sha256 request known
  apply Typestate.respects_bind hauth
  intro known' result hresult
  cases result with
  | error error => trivial
  | ok authorized => exact hhandler authorized.identity known' hresult

theorem respects_map {program : FleetProg codec α} {wrap : α → FleetAnswer codec}
    (h : places.Respects anywhere program known) :
    places.Respects anywhere (program >>= fun answer => pure (wrap answer)) known :=
  Typestate.respects_bind h fun _ _ _ => trivial

theorem respects_answer (program : NodeM codec (Daemon.NodeAnswer codec)) (known : List Uuid) :
    places.Respects anywhere (onNodes program >>= fun answer => pure (FleetAnswer.node answer))
      known :=
  respects_map (respects_onNodes program known)

theorem respects_program (crypto : Auth.Crypto) (op : FleetOp codec) :
    places.Respects anywhere (op.program crypto dispatchCodec) [] := by
  have hreport : ∀ (request : DaemonRequest)
      (job : DaemonNodeIdentity → NodeM codec (Daemon.NodeAnswer codec)),
      places.Respects anywhere (authenticated crypto.sha256 request fun identity =>
        onNodes (job identity) >>= fun answer => pure (FleetAnswer.node answer)) [] :=
    fun request job => respects_authenticated fun identity known _ =>
      respects_answer (job identity) known
  unfold FleetOp.program
  cases op with
  | createNode identityUserId payload =>
    exact respects_answer ((Daemon.NodeJob.create identityUserId payload).program crypto) []
  | revokeNode actorUserId nodeId =>
    exact respects_answer ((Daemon.NodeJob.revoke actorUserId nodeId).program crypto) []
  | register request payload => exact hreport request _
  | heartbeat request payload => exact hreport request _
  | ping request => exact hreport request _
  | leaseNext request =>
    apply respects_authenticated
    intro identity known hknown
    exact respects_map (respects_onDispatch (within_leaseNext hknown))
  | completeJob request jobId payload =>
    apply respects_authenticated
    intro identity known hknown
    exact respects_map (respects_onDispatch (within_completeJob hknown jobId payload))
  | dispatch input polls => exact respects_map (respects_onDispatch (within_dispatch input polls))

end Places

section States

def Revoked (s : FleetState) (nodeId : Uuid) : Prop :=
  ∃ row ∈ s.nodes, row.id = nodeId.toString ∧ row.revoked = 1

-- What a job of a revoked node has come to, it had come to before.
def StopsWork (s s' : FleetState) : Prop :=
  ∀ job ∈ s'.dispatch.jobs, Revoked s job.nodeId → job.status.isHanded = true →
    job ∈ s.dispatch.jobs

structure NodesWritten (codec : NodeCodec) (s : FleetState) : Prop where
  nodes : NodesInvariant codec s.nodeState
  ids : ∀ row ∈ s.nodes, ∃ id : Uuid, row.id = id.toString

variable {s s' : FleetState}

-- Where the row of a node comes from: it was there, and has been revoked at most, or it is new.
theorem nodes_origin {c : NodeCommand codec} {choice : NodeChoice} {before after : NodeState}
    {response : c.Response} (h : NodeState.exec c choice before = (response, after)) :
    ∀ row' ∈ after.nodes, (∃ row ∈ before.nodes, row'.id = row.id ∧
        (row'.revoked = row.revoked ∨
          ∃ nodeId now, c = .revokeNode nodeId now ∧ row.id = nodeId.toString)) ∨
      ∃ id : Uuid, row'.id = id.toString ∧ row'.revoked = 0 := by
  have hsame : ∀ row' ∈ before.nodes, (∃ row ∈ before.nodes, row'.id = row.id ∧
        (row'.revoked = row.revoked ∨
          ∃ nodeId now, c = .revokeNode nodeId now ∧ row.id = nodeId.toString)) ∨
      ∃ id : Uuid, row'.id = id.toString ∧ row'.revoked = 0 :=
    fun row' hmem => .inl ⟨row', hmem, rfl, .inl rfl⟩
  cases c with
  | userExists id => exact of_reply hsame hsame h
  | recordAdminAudit audit => exact of_reply hsame hsame h
  | nowV7 | newV4 | nowUtcEpochSeconds =>
    cases h
    exact hsame
  | insertNode new =>
    obtain ⟨_, rfl⟩ | ⟨_, hinserted⟩ := guarded_cases h
    · exact hsame
    · refine of_reply hsame ?_ hinserted
      intro row' hmem
      rcases List.mem_append.mp hmem with hold | hlast
      · exact hsame row' hold
      · rw [List.mem_singleton.mp hlast]
        exact .inr ⟨new.id, rfl, rfl⟩
  | markSeen nodeId seen =>
    refine of_reply hsame ?_ h
    intro row' hmem
    obtain ⟨row, hrow, hselected, rfl⟩ | ⟨hold, _⟩ := Table.mem_update_cases hmem
    · have hrevoked : (Daemon.markSeen seen row).revoked = row.revoked := by
        cases hcapabilities : seen.capabilities with
        | none => simp [Daemon.markSeen, Daemon.advertise, hcapabilities]
        | some columns => simp [Daemon.markSeen, Daemon.advertise, hcapabilities]
      exact .inl ⟨row, hrow, Daemon.id_markSeen seen row, .inl hrevoked⟩
    · exact hsame row' hold
  | revokeNode nodeId now =>
    refine of_reply hsame ?_ h
    intro row' hmem
    obtain ⟨row, hrow, hselected, rfl⟩ | ⟨hold, _⟩ := Table.mem_update_cases hmem
    · simp only [Daemon.unrevoked, Bool.and_eq_true, decide_eq_true_eq] at hselected
      exact .inl ⟨row, hrow, rfl, .inr ⟨nodeId, now, rfl, hselected.1⟩⟩
    · exact hsame row' hold

-- A job that is leased, succeeded or failed was so before, or the statement works for its node.
theorem jobs_origin {t : Nat} {c : DispatchCommand} {choice : Dispatch.DispatchChoice}
    {before after : DispatchState} {response : c.Response}
    (h : DispatchState.exec t c choice before = some (response, after)) :
    ∀ job ∈ after.jobs, job.status.isHanded = true →
      job ∈ before.jobs ∨ worksFor c = some job.nodeId := by
  have hsame : ∀ job ∈ before.jobs, job.status.isHanded = true →
      job ∈ before.jobs ∨ worksFor c = some job.nodeId := fun job hmem _ => .inl hmem
  have htimeOut : ∀ (selects : DispatchJob → Bool) (now : String),
      ∀ job ∈ (before.timeOut selects now).jobs, job.status.isHanded = true →
        job ∈ before.jobs ∨ worksFor c = some job.nodeId := by
    intro selects now job hmem hhanded
    obtain ⟨row, _, _, rfl⟩ | ⟨hold, _⟩ := Table.mem_update_cases hmem
    · cases hhanded
    · exact .inl hold
  cases c with
  | nowV7 | nowUtcEpochSeconds | instantNow =>
    cases h
    exact hsame
  | sleepUntil instantMs =>
    simp only [DispatchState.exec] at h
    split at h
    · cases h
      exact hsame
    · cases h
  | insertJob job =>
    simp only [DispatchState.exec] at h
    split at h
    · cases h
      exact hsame
    · refine of_reply hsame ?_ (Option.some.inj h)
      intro job' hmem hhanded
      rcases List.mem_append.mp hmem with hold | hlast
      · exact .inl hold
      · rw [List.mem_singleton.mp hlast] at hhanded ⊢
        exact .inr (if_pos hhanded)
  | selectAccepted nodeId now => exact of_reply hsame hsame (Option.some.inj h)
  | leaseJob id nodeId now =>
    refine of_reply hsame ?_ (Option.some.inj h)
    intro job hmem _
    obtain ⟨row, _, hselected, rfl⟩ | ⟨hold, _⟩ := Table.mem_update_cases hmem
    · simp only [Dispatch.leasable, Bool.and_eq_true, decide_eq_true_eq] at hselected
      exact .inr (congrArg some hselected.1.2.symm)
    · exact .inl hold
  | completeJob id nodeId completion now =>
    refine of_reply hsame ?_ (Option.some.inj h)
    intro job hmem _
    obtain ⟨row, _, hselected, rfl⟩ | ⟨hold, _⟩ := Table.mem_update_cases hmem
    · simp only [Dispatch.completable, Bool.and_eq_true, decide_eq_true_eq] at hselected
      exact .inr (congrArg some hselected.1.2.symm)
    · exact .inl hold
  | fetchJob id => exact of_reply hsame hsame (Option.some.inj h)
  | timeOutJob id now => exact of_reply hsame (htimeOut _ now) (Option.some.inj h)
  | timeOutExpired now => exact of_reply hsame (htimeOut _ now) (Option.some.inj h)
  | forever => cases h

end States

section Statements

def fleetWork : FleetCommand codec → Option Uuid
  | .dispatch c => worksFor c
  | .auth _ | .node _ => none

def identifiedBy : (c : FleetCommand codec) → c.Response → Option Uuid
  | .auth c, response => identifiedNode c response
  | .node _, _ => none
  | .dispatch _, _ => none

theorem places_after (known : List Uuid) (c : FleetCommand codec) (response : c.Response) :
    places.after known c response = known ++ (identifiedBy c response).toList := by
  cases c with
  | auth c => rfl
  | node c => exact (List.append_nil known).symm
  | dispatch c => exact (List.append_nil known).symm

theorem work_of_places {known : List Uuid} {c : FleetCommand codec} (h : places.enabled known c)
    {nodeId : Uuid} (hwork : fleetWork c = some nodeId) : nodeId ∈ known := by
  cases c with
  | auth c => cases hwork
  | node c => cases hwork
  | dispatch c => exact h nodeId hwork

variable {t : Nat} {c : FleetCommand codec} {choice : FleetChoice} {s s' : FleetState}
  {response : c.Response} {nodeId : Uuid}

theorem identified_of_exec (h : FleetState.exec t c choice s = some (response, s')) :
    s'.identified = s.identified ++ (identifiedBy c response).toList.map fun id => (t, id) := by
  cases c with
  | auth c =>
    obtain ⟨daemon, _, rfl⟩ := FleetState.exec_auth h
    rfl
  | node c =>
    obtain ⟨after, _, rfl⟩ := FleetState.exec_node h
    exact (List.append_nil _).symm
  | dispatch c =>
    obtain ⟨after, _, rfl⟩ := FleetState.exec_dispatch h
    exact (List.append_nil _).symm

theorem jobs_of_exec (h : FleetState.exec t c choice s = some (response, s')) :
    ∀ job ∈ s'.dispatch.jobs, job.status.isHanded = true →
      job ∈ s.dispatch.jobs ∨ fleetWork c = some job.nodeId := by
  cases c with
  | auth c =>
    obtain ⟨daemon, _, rfl⟩ := FleetState.exec_auth h
    exact fun job hmem _ => .inl hmem
  | node c =>
    obtain ⟨after, _, rfl⟩ := FleetState.exec_node h
    exact fun job hmem _ => .inl hmem
  | dispatch c =>
    obtain ⟨after, hexec, rfl⟩ := FleetState.exec_dispatch h
    exact jobs_origin hexec

-- What a statement leaves of the nodes: they are well formed, and those revoked stay revoked.
theorem nodes_of_exec (hs : NodesWritten codec s)
    (h : FleetState.exec t c choice s = some (response, s')) :
    NodesWritten codec s' ∧ (∀ nodeId, Revoked s nodeId → Revoked s' nodeId) ∧
      ∀ nodeId, Revoked s' nodeId →
        Revoked s nodeId ∨ ∃ now, c = .node (.revokeNode nodeId now) := by
  cases c with
  | auth c =>
    obtain ⟨daemon, _, rfl⟩ := FleetState.exec_auth h
    exact ⟨⟨⟨hs.nodes.rows, hs.nodes.ids⟩, hs.ids⟩, fun _ => id, fun _ => .inl⟩
  | dispatch c =>
    obtain ⟨after, _, rfl⟩ := FleetState.exec_dispatch h
    exact ⟨⟨⟨hs.nodes.rows, hs.nodes.ids⟩, hs.ids⟩, fun _ => id, fun _ => .inl⟩
  | node c =>
    obtain ⟨after, hexec, rfl⟩ := FleetState.exec_node h
    obtain ⟨hnodes, hmoves⟩ := hs.nodes.exec hexec
    have horigin := nodes_origin hexec
    refine ⟨⟨⟨hnodes.rows, hnodes.ids⟩, ?_⟩, ?_, ?_⟩
    · intro row' hmem
      obtain ⟨row, hrow, hid, _⟩ | ⟨id, hid, _⟩ := horigin row' hmem
      · obtain ⟨id, hwritten⟩ := hs.ids row hrow
        exact ⟨id, hid.trans hwritten⟩
      · exact ⟨id, hid⟩
    · rintro nodeId ⟨row, hrow, hid, hrevoked⟩
      obtain ⟨row', hrow', hmove⟩ := hmoves row hrow
      have hkept := hmove.revoked ((hs.nodes.rows row hrow).revoked_iff.mp hrevoked)
      subst hkept
      exact ⟨row', hrow', hid, hrevoked⟩
    · rintro nodeId ⟨row', hrow', hid, hrevoked⟩
      obtain ⟨row, hrow, hsame, hunchanged | ⟨other, now, rfl, hother⟩⟩ | ⟨id, _, hzero⟩ :=
        horigin row' hrow'
      · exact .inl ⟨row, hrow, hsame.symm.trans hid, hunchanged.symm.trans hrevoked⟩
      · have hnode : other = nodeId := Uuid.toString_inj (hother.symm.trans (hsame.symm.trans hid))
        subst hnode
        exact .inr ⟨now, rfl⟩
      · rw [hzero] at hrevoked
        cases hrevoked

-- A request is taken for a node only while the node is not revoked.
theorem identified_unrevoked (hparse : ∀ id : Uuid, codec.uuidParseStr id.toString = .ok id)
    (hs : NodesWritten codec s) (h : FleetState.exec t c choice s = some (response, s'))
    (hidentified : identifiedBy c response = some nodeId) : ¬Revoked s nodeId := by
  rintro ⟨revoked, hrevoked, hid, hone⟩
  cases c with
  | node c => cases hidentified
  | dispatch c => cases hidentified
  | auth c =>
    obtain ⟨daemon, hexec, -⟩ := FleetState.exec_auth h
    cases c with
    | nowUtcEpochSeconds => cases hidentified
    | admitNonce nonceKey expiry now => cases hidentified
    | fetchNode tokenHash =>
      obtain ⟨hresponse, -⟩ := Prod.mk.inj hexec
      subst hresponse
      cases hfault : choice.auth.fault with
      | some error => simp [identifiedBy, identifiedNode, hfault] at hidentified
      | none =>
        simp only [identifiedBy, identifiedNode, hfault, Option.map_eq_some_iff] at hidentified
        obtain ⟨found, hfound, rfl⟩ := hidentified
        obtain ⟨row, hrow, hread, hzero, _⟩ := Daemon.mem_findNode rfl hfound
        obtain ⟨written, hwritten⟩ := hs.ids row hrow
        rw [hwritten, hparse written] at hread
        obtain rfl := Except.ok.inj hread
        have hsame := Table.eq_of_key hs.nodes.ids hrow hrevoked (hwritten.trans hid.symm)
        rw [hsame, hone] at hzero
        cases hzero

end Statements

section Runs

variable {crypto : Auth.Crypto} {dispatchCodec : Dispatch.Codec} {ops : Nat → FleetOp codec}

abbrev FleetConfig (codec : NodeCodec) :=
  Config (FleetCommand codec) FleetCommand.Response (FleetAnswer codec) FleetState

-- No request that was taken for the node can still come to a statement that works for it.
def Idle (nodeId : Uuid) (config : FleetConfig codec) : Prop :=
  ∀ t, (t, nodeId) ∈ config.state.identified → ∀ program, config.threads t = some program →
    program.Asks fun c => fleetWork c ≠ some nodeId

-- A node is revoked only while none of its requests is on its way.
def RevokesIdle (action : Action FleetChoice) (config : FleetConfig codec) : Prop :=
  match action with
  | .call t _ => ∀ nodeId now next,
      config.threads t = some (.call (.node (.revokeNode nodeId now)) next) → Idle nodeId config
  | .spawn _ | .env _ => True

structure Guarded (config : FleetConfig codec) : Prop where
  written : NodesWritten codec config.state
  placed : ∀ t program, config.threads t = some program → ∃ known,
    (∀ nodeId ∈ known, (t, nodeId) ∈ config.state.identified) ∧
      places.Respects anywhere program known
  begun : ∀ t nodeId, (t, nodeId) ∈ config.state.identified → config.threads t ≠ none
  idle : ∀ nodeId, Revoked config.state nodeId → Idle nodeId config

theorem guarded_spawn {config : FleetConfig codec} {t : Nat} (h : Guarded config)
    (hnone : config.threads t = none) :
    Guarded
      { config with
        threads :=
          Function.update config.threads t (some (fleetPrograms crypto dispatchCodec ops t)) } := by
  have hother : ∀ u nodeId, (u, nodeId) ∈ config.state.identified → u ≠ t := by
    intro u nodeId hmem heq
    subst heq
    exact h.begun u nodeId hmem hnone
  constructor
  · exact h.written
  · intro u program hprogram
    by_cases heq : u = t
    · subst heq
      simp only [Function.update_self, Option.some.injEq] at hprogram
      subst hprogram
      exact ⟨[], fun _ hmem => absurd hmem List.not_mem_nil, respects_program crypto (ops u)⟩
    · simp only [Function.update_of_ne heq] at hprogram
      exact h.placed u program hprogram
  · intro u nodeId hmem
    simp only [Function.update_of_ne (hother u nodeId hmem)]
    exact h.begun u nodeId hmem
  · intro nodeId hrevoked u hmem program hprogram
    simp only [Function.update_of_ne (hother u nodeId hmem)] at hprogram
    exact h.idle nodeId hrevoked u hmem program hprogram

theorem guarded_call (hparse : ∀ id : Uuid, codec.uuidParseStr id.toString = .ok id)
    {config : FleetConfig codec} {t : Nat} {c : FleetCommand codec}
    {next : c.Response → FleetProg codec (FleetAnswer codec)} {choice : FleetChoice}
    {response : c.Response} {s' : FleetState} (h : Guarded config)
    (hallowed : RevokesIdle (.call t choice) config)
    (hthread : config.threads t = some (.call c next))
    (hexec : FleetState.exec t c choice config.state = some (response, s')) :
    Guarded
      { state := s', threads := Function.update config.threads t (some (next response)) } := by
  obtain ⟨hwritten, _, hrevoked⟩ := nodes_of_exec h.written hexec
  have hidentified := identified_of_exec hexec
  have hadded : ∀ u nodeId, (u, nodeId) ∈ s'.identified →
      (u, nodeId) ∈ config.state.identified ∨ u = t ∧ identifiedBy c response = some nodeId := by
    intro u nodeId hmem
    rw [hidentified] at hmem
    rcases List.mem_append.mp hmem with hold | hnew
    · exact .inl hold
    · simp only [List.mem_map, Option.mem_toList, Prod.mk.injEq] at hnew
      obtain ⟨id, hid, rfl, rfl⟩ := hnew
      exact .inr ⟨rfl, hid⟩
  constructor
  · exact hwritten
  · intro u program hprogram
    by_cases heq : u = t
    · subst heq
      simp only [Function.update_self, Option.some.injEq] at hprogram
      subst hprogram
      obtain ⟨known, hknown, hrespects⟩ := h.placed u _ hthread
      refine ⟨known ++ (identifiedBy c response).toList, ?_, ?_⟩
      · intro nodeId hmem
        show (u, nodeId) ∈ s'.identified
        rw [hidentified]
        rcases List.mem_append.mp hmem with hold | hnew
        · exact List.mem_append_left _ (hknown nodeId hold)
        · exact List.mem_append_right _ (List.mem_map_of_mem hnew)
      · rw [← places_after]
        exact hrespects.2 response
    · simp only [Function.update_of_ne heq] at hprogram
      obtain ⟨known, hknown, hrespects⟩ := h.placed u program hprogram
      refine ⟨known, fun nodeId hmem => ?_, hrespects⟩
      show (u, nodeId) ∈ s'.identified
      rw [hidentified]
      exact List.mem_append_left _ (hknown nodeId hmem)
  · intro u nodeId hmem
    by_cases heq : u = t
    · subst heq
      simp
    · simp only [Function.update_of_ne heq]
      rcases hadded u nodeId hmem with hold | ⟨hsame, _⟩
      · exact h.begun u nodeId hold
      · exact absurd hsame heq
  · intro nodeId hnow u hmem program hprogram
    have hidle : Idle nodeId config := by
      rcases hrevoked nodeId hnow with hbefore | ⟨now, rfl⟩
      · exact h.idle nodeId hbefore
      · exact hallowed nodeId now next hthread
    by_cases heq : u = t
    · subst heq
      simp only [Function.update_self, Option.some.injEq] at hprogram
      subst hprogram
      rcases hadded u nodeId hmem with hold | ⟨_, hnew⟩
      · exact (hidle u hold _ hthread).2 response
      · have hnot := identified_unrevoked hparse h.written hexec hnew
        rcases hrevoked nodeId hnow with hbefore | ⟨now, rfl⟩
        · exact absurd hbefore hnot
        · cases hnew
    · simp only [Function.update_of_ne heq] at hprogram
      rcases hadded u nodeId hmem with hold | ⟨hsame, _⟩
      · exact hidle u hold program hprogram
      · exact absurd hsame heq

-- What a step leaves behind: the protocol of the requests, and the work of the revoked nodes.
theorem guarded_step (hparse : ∀ id : Uuid, codec.uuidParseStr id.toString = .ok id)
    {action : Action FleetChoice} {config config' : FleetConfig codec} (h : Guarded config)
    (hallowed : RevokesIdle action config)
    (hstep : (FleetState.system codec).step (fleetPrograms crypto dispatchCodec ops) action config =
      some config') :
    Guarded config' ∧ (∀ nodeId, Revoked config.state nodeId → Revoked config'.state nodeId) ∧
      StopsWork config.state config'.state := by
  cases action with
  | spawn t =>
    obtain ⟨hnone, rfl⟩ := System.spawn_of_step hstep
    exact ⟨guarded_spawn h hnone, fun _ => id, fun _ hmem _ _ => hmem⟩
  | env choice =>
    simp only [System.step, Option.map_eq_some_iff] at hstep
    obtain ⟨state, henv, rfl⟩ := hstep
    obtain rfl := FleetState.env_system henv
    exact ⟨⟨⟨⟨h.written.nodes.rows, h.written.nodes.ids⟩, h.written.ids⟩, h.placed, h.begun,
      h.idle⟩, fun _ => id, fun _ hmem _ _ => hmem⟩
  | call t choice =>
    obtain ⟨c, next, response, s', hthread, hexec, rfl⟩ := System.call_of_step hstep
    refine ⟨guarded_call hparse h hallowed hthread hexec, (nodes_of_exec h.written hexec).2.1, ?_⟩
    intro job hmem hrevoked hhanded
    rcases jobs_of_exec hexec job hmem hhanded with hbefore | hwork
    · exact hbefore
    · -- the thread was taken for the node, so the node is idle and the statement is not one of its
      obtain ⟨known, hknown, hrespects⟩ := h.placed t _ hthread
      have hidentified := hknown _ (work_of_places hrespects.1 hwork)
      exact absurd hwork (h.idle _ hrevoked t hidentified _ hthread).1

theorem guarded_run (hparse : ∀ id : Uuid, codec.uuidParseStr id.toString = .ok id)
    {actions : List (Action FleetChoice)} {config config' : FleetConfig codec} (h : Guarded config)
    (hmeets : (FleetState.system codec).Meets (fleetPrograms crypto dispatchCodec ops) RevokesIdle
      actions config)
    (hrun : (FleetState.system codec).run (fleetPrograms crypto dispatchCodec ops) actions config =
      some config') : Guarded config' ∧ StopsWork config.state config'.state := by
  induction actions generalizing config with
  | nil =>
    cases hrun
    exact ⟨h, fun _ hmem _ _ => hmem⟩
  | cons action actions ih =>
    obtain ⟨middle, hfirst, hrest⟩ := Option.bind_eq_some_iff.mp hrun
    obtain ⟨hmiddle, hrevoked, hstops⟩ := guarded_step hparse h hmeets.1 hfirst
    obtain ⟨hlast, hlater⟩ := ih hmiddle (hmeets.2 middle hfirst) hrest
    refine ⟨hlast, fun job hmem hnode hhanded => ?_⟩
    exact hstops job (hlater job hmem (hrevoked job.nodeId hnode) hhanded) hnode hhanded

theorem guarded_start (nowSeconds : Nat) :
    Guarded (System.initial (FleetState.start nowSeconds) : FleetConfig codec) := by
  constructor
  · exact ⟨⟨fun _ hmem => absurd hmem List.not_mem_nil, List.nodup_nil⟩,
      fun _ hmem => absurd hmem List.not_mem_nil⟩
  · intro t program hthread
    cases hthread
  · intro t nodeId hmem
    exact absurd hmem List.not_mem_nil
  · intro nodeId _ t hmem
    exact absurd hmem List.not_mem_nil

-- From a commit of the revocation on, nothing is leased to a node or completed by it, provided
-- that nodes are revoked between their requests.
theorem work_stops_of_idle_revocations (crypto : Auth.Crypto) (dispatchCodec : Dispatch.Codec)
    (ops : Nat → FleetOp codec) (nowSeconds : Nat) (before after : List (Action FleetChoice))
    (config config' : FleetConfig codec)
    (hparse : ∀ id : Uuid, codec.uuidParseStr id.toString = .ok id)
    (hbefore : (FleetState.system codec).run (fleetPrograms crypto dispatchCodec ops) before
      (System.initial (FleetState.start nowSeconds)) = some config)
    (hafter : (FleetState.system codec).run (fleetPrograms crypto dispatchCodec ops) after config =
      some config')
    (hmeets : (FleetState.system codec).Meets (fleetPrograms crypto dispatchCodec ops) RevokesIdle
      (before ++ after) (System.initial (FleetState.start nowSeconds))) :
    StopsWork config.state config'.state := by
  obtain ⟨hfirst, hsecond⟩ := System.Meets.append _ _ hmeets hbefore
  obtain ⟨hguarded, -⟩ := guarded_run hparse (guarded_start nowSeconds) hfirst hbefore
  exact (guarded_run hparse hguarded hsecond hafter).2

end Runs

section Samples

def fleetCodec : NodeCodec where
  Value := Unit
  uuidParseStr := Uuid.parseHyphenated
  listToString values :=
    .ok ("[" ++ String.intercalate "," (values.map fun value => "\"" ++ value ++ "\"") ++ "]")
  listFromStr text := if text = "[]" then .ok [] else .error "expected value"
  valueToString _ := .ok "null"

def fleetCrypto : Auth.Crypto where
  toLowercase text := text
  sha256 := Daemon.clientSha256
  bcryptHash salt _ := salt
  bcryptVerify _ _ := .error "invalid hash"

def leaseRequest : DaemonRequest :=
  (Daemon.DaemonCall.lease.build Daemon.clientSha256 Daemon.mizanOrigin.url
    (Daemon.daemonToken ⟨7⟩) 1700000000 Daemon.clientNonce).arrived "/daemon/jobs/lease"

def jobOfNode : Dispatch.DispatchJobInput :=
  { Dispatch.sampleInput with nodeId := ⟨7⟩ }

-- A node is created, a job waits for it, it asks for work and is revoked.
def sampleOps : Nat → FleetOp fleetCodec
  | 0 => .createNode ⟨1⟩ { hostUserId := none, label := none, hostname := none, publicKey := none }
  | 1 => .dispatch jobOfNode 0
  | 3 => .revokeNode ⟨1⟩ ⟨7⟩
  | _ => .leaseNext leaseRequest

def askedForWork : List (Action FleetChoice) :=
  .spawn 0 :: List.replicate 6 (.call 0 { node := { uuid := ⟨7⟩ } }) ++
    .spawn 1 :: List.replicate 4 (.call 1 { dispatch := { uuid := ⟨5⟩ } }) ++
    .spawn 2 :: List.replicate 3 (.call 2 {})

def revocation : List (Action FleetChoice) := [.spawn 3, .call 3 {}, .call 3 {}]

def restOfLease : List (Action FleetChoice) := List.replicate 5 (.call 2 {})

def sampleRun (actions : List (Action FleetChoice)) : Option (FleetConfig fleetCodec) :=
  (FleetState.system fleetCodec).run (fleetPrograms fleetCrypto Dispatch.sampleCodec sampleOps)
    actions (System.initial (FleetState.start 1700000000))

-- The revocation commits between the lookup of the node and the lease, and the job is leased.
theorem revoked_node_leases : ∃ config config',
    sampleRun (askedForWork ++ revocation) = some config ∧
    (FleetState.system fleetCodec).run
        (fleetPrograms fleetCrypto Dispatch.sampleCodec sampleOps) restOfLease config =
      some config' ∧
    Revoked config.state ⟨7⟩ ∧ ¬StopsWork config.state config'.state := by
  have hrevoked : (sampleRun (askedForWork ++ revocation)).map (fun config =>
      (config.state.nodes.map fun row => (row.id, row.revoked),
        config.state.dispatch.jobs.map fun job => job.status)) =
      some ([((Uuid.mk 7).toString, 1)], [.accepted]) := by
    decide +kernel
  have hleased : (sampleRun ((askedForWork ++ revocation) ++ restOfLease)).map (fun config =>
      config.state.dispatch.jobs.map fun job => (job.nodeId, job.status)) =
      some [(⟨7⟩, .leased)] := by
    decide +kernel
  obtain ⟨config, hrun, hconfig⟩ := Option.map_eq_some_iff.mp hrevoked
  obtain ⟨config', hrest, hconfig'⟩ := Option.map_eq_some_iff.mp hleased
  have hafter := hrest
  rw [sampleRun, System.run_append, show (FleetState.system fleetCodec).run _
    (askedForWork ++ revocation) _ = some config from hrun] at hafter
  obtain ⟨hnodes, hjobs⟩ := Prod.mk.inj hconfig
  obtain ⟨row, hnode, hrow⟩ := List.map_eq_singleton_iff.mp hnodes
  obtain ⟨job, hjob, hstatus⟩ := List.map_eq_singleton_iff.mp hjobs
  obtain ⟨job', hjob', hmoved⟩ := List.map_eq_singleton_iff.mp hconfig'
  obtain ⟨hid, hrevoked⟩ := Prod.mk.inj hrow
  obtain ⟨hjobNode, hstatus'⟩ := Prod.mk.inj hmoved
  have hgone : Revoked config.state ⟨7⟩ :=
    ⟨row, by rw [hnode]; exact List.mem_singleton_self row, hid, hrevoked⟩
  refine ⟨config, config', hrun, hafter, hgone, fun hstops => ?_⟩
  have hkept := hstops job' (by rw [hjob']; exact List.mem_singleton_self job')
    (by rw [hjobNode]; exact hgone) (by rw [hstatus']; rfl)
  rw [hjob] at hkept
  rw [List.mem_singleton.mp hkept, hstatus] at hstatus'
  cases hstatus'

-- The condition on a step as a test, which is stricter: the requests of the node have returned.
def revokesIdle (action : Action FleetChoice) (config : FleetConfig codec) : Bool :=
  match action with
  | .call t _ =>
    match config.threads t with
    | some (.call (.node (.revokeNode nodeId _)) _) =>
      config.state.identified.all fun entry =>
        entry.2 ≠ nodeId || ((config.threads entry.1).bind Prog.returned).isSome
    | _ => true
  | .spawn _ | .env _ => true

theorem revokesIdle_sound {action : Action FleetChoice} {config : FleetConfig codec}
    (h : revokesIdle action config = true) : RevokesIdle action config := by
  cases action with
  | spawn t => trivial
  | env choice => trivial
  | call t choice =>
    intro nodeId now next hthread u hmem program hprogram
    simp only [revokesIdle, hthread, List.all_eq_true, Bool.or_eq_true] at h
    rcases h (u, nodeId) hmem with hother | hreturned
    · simp at hother
    · rw [hprogram] at hreturned
      obtain ⟨answer, hanswer⟩ := Option.isSome_iff_exists.mp hreturned
      rw [Prog.eq_ret_of_returned hanswer]
      trivial

-- The request has been answered when the node is revoked, and the next one is refused.
theorem work_stops_in_sample : ∃ config config',
    sampleRun (askedForWork ++ restOfLease ++ revocation) = some config ∧
    Revoked config.state ⟨7⟩ ∧
    (FleetState.system fleetCodec).run
        (fleetPrograms fleetCrypto Dispatch.sampleCodec sampleOps) [.spawn 4, .call 4 {}] config =
      some config' ∧
    StopsWork config.state config'.state := by
  have hrevoked : (sampleRun (askedForWork ++ restOfLease ++ revocation)).map (fun config =>
      config.state.nodes.map fun row => (row.id, row.revoked)) =
      some [((Uuid.mk 7).toString, 1)] := by
    decide +kernel
  have hsome : (sampleRun ((askedForWork ++ restOfLease ++ revocation) ++
      [.spawn 4, .call 4 {}])).isSome = true := by
    decide +kernel
  have hchecks : (FleetState.system fleetCodec).checks
      (fleetPrograms fleetCrypto Dispatch.sampleCodec sampleOps) revokesIdle
      ((askedForWork ++ restOfLease ++ revocation) ++ [.spawn 4, .call 4 {}])
      (System.initial (FleetState.start 1700000000)) = true := by
    decide +kernel
  obtain ⟨config, hrun, hnodes⟩ := Option.map_eq_some_iff.mp hrevoked
  obtain ⟨config', hrest⟩ := Option.isSome_iff_exists.mp hsome
  have hafter := hrest
  rw [sampleRun, System.run_append, show (FleetState.system fleetCodec).run _
    (askedForWork ++ restOfLease ++ revocation) _ = some config from hrun] at hafter
  obtain ⟨row, hnode, hrow⟩ := List.map_eq_singleton_iff.mp hnodes
  obtain ⟨hid, hone⟩ := Prod.mk.inj hrow
  refine ⟨config, config', hrun, ⟨row, by rw [hnode]; exact List.mem_singleton_self row, hid, hone⟩,
    hafter, ?_⟩
  exact work_stops_of_idle_revocations fleetCrypto Dispatch.sampleCodec sampleOps 1700000000 _ _
    config config' Uuid.parseHyphenated_toString hrun hafter (System.Meets.imp _ _
      (fun _ _ => revokesIdle_sound) _ _ (System.meets_of_checks _ _ hchecks))

end Samples

end Mizan.Fleet
