import Mizan.Daemon.NodeStore

namespace Mizan.Daemon

open Interleaving

inductive NodeJob (codec : NodeCodec) where
  | create (identityUserId : Uuid) (payload : DaemonNodeCreateRequest)
  | register (identity : DaemonNodeIdentity) (payload : DaemonRegistrationRequest codec)
  | heartbeat (identity : DaemonNodeIdentity) (payload : DaemonHeartbeatRequest codec)
  | ping (identity : DaemonNodeIdentity)
  | revoke (actorUserId nodeId : Uuid)

inductive NodeAnswer (codec : NodeCodec) where
  | created (response : DaemonNodeCreateResponse)
  | reported (report : NodeReport codec)
  | revoked (revoked : Bool)

def NodeJob.program (crypto : Auth.Crypto) {codec : NodeCodec} :
    NodeJob codec → NodeM codec (NodeAnswer codec)
  | .create identityUserId payload => do
      let response ← createDaemonNode crypto identityUserId payload
      pure (.created response)
  | .register identity payload => do
      let report ← registerDaemonNode identity payload
      pure (.reported report)
  | .heartbeat identity payload => do
      let report ← daemonHeartbeat identity payload
      pure (.reported report)
  | .ping identity => do
      let report ← daemonPing identity
      pure (.reported report)
  | .revoke actorUserId nodeId => do
      let revoked ← revokeDaemonNode actorUserId nodeId
      pure (.revoked revoked)

abbrev NodeConfig (codec : NodeCodec) :=
  Config (NodeCommand codec) NodeCommand.Response (Except AppError (NodeAnswer codec)) NodeState

def nodePrograms (crypto : Auth.Crypto) {codec : NodeCodec} (jobs : Nat → NodeJob codec) (t : Nat) :
    Prog (NodeCommand codec) NodeCommand.Response (Except AppError (NodeAnswer codec)) :=
  ((jobs t).program crypto).run

-- The moves of the status of a node.
inductive StatusMove : String → String → Prop where
  | activate : StatusMove STATUS_PENDING STATUS_ACTIVE
  | revokePending : StatusMove STATUS_PENDING STATUS_REVOKED
  | revokeActive : StatusMove STATUS_ACTIVE STATUS_REVOKED

-- What a node says of itself is well formed as soon as it says anything.
def Advertised (codec : NodeCodec) (row : DbDaemonNode) : Prop :=
  ∃ max modelIds, row.maxConcurrency = some max ∧ 0 < max.toInt ∧
    codec.listToString modelIds = .ok row.modelIdsJson ∧ NormalList modelIds ∧ modelIds ≠ []

structure NodeInvariant (codec : NodeCodec) (row : DbDaemonNode) : Prop where
  status : (row.revoked = 0 ∧ (row.status = STATUS_PENDING ∨ row.status = STATUS_ACTIVE)) ∨
    (row.revoked = 1 ∧ row.status = STATUS_REVOKED)
  advertised : row.maxConcurrency = none ∨ Advertised codec row

structure NodesInvariant (codec : NodeCodec) (s : NodeState) : Prop where
  rows : ∀ row ∈ s.nodes, NodeInvariant codec row
  ids : (s.nodes.map DbDaemonNode.id).Nodup

-- What one statement can do to a row.
structure NodeMove (row row' : DbDaemonNode) : Prop where
  id : row'.id = row.id
  status : row'.status = row.status ∨ StatusMove row.status row'.status
  revoked : row.status = STATUS_REVOKED → row' = row

theorem NodeMove.refl (row : DbDaemonNode) : NodeMove row row := ⟨rfl, .inl rfl, fun _ => rfl⟩

section Rows

variable {codec : NodeCodec} {row : DbDaemonNode}

theorem NodeInvariant.revoked_iff (h : NodeInvariant codec row) :
    row.revoked = 1 ↔ row.status = STATUS_REVOKED := by
  obtain ⟨hrevoked, hstatus⟩ | ⟨hrevoked, hstatus⟩ := h.status
  · rw [hrevoked]
    obtain hstatus | hstatus := hstatus <;> rw [hstatus] <;> decide
  · simp [hrevoked, hstatus]

theorem NodeInvariant.unrevoked (h : NodeInvariant codec row) (hrevoked : row.revoked = 0) :
    row.status = STATUS_PENDING ∨ row.status = STATUS_ACTIVE := by
  obtain ⟨_, hstatus⟩ | ⟨hone, _⟩ := h.status
  · exact hstatus
  · rw [hrevoked] at hone
    cases hone

theorem not_revoked_of_status (h : row.status = STATUS_PENDING ∨ row.status = STATUS_ACTIVE) :
    row.status ≠ STATUS_REVOKED := by
  obtain hstatus | hstatus := h <;> rw [hstatus] <;> decide

theorem invariant_new (new : NewDaemonNode) : NodeInvariant codec new.row :=
  ⟨.inl ⟨rfl, .inl rfl⟩, .inl rfl⟩

theorem NodeInvariant.markSeen (h : NodeInvariant codec row) (hrevoked : row.revoked = 0)
    (seen : NodeSeen codec) : NodeInvariant codec (Daemon.markSeen seen row) := by
  cases hcapabilities : seen.capabilities with
  | none =>
      have hmax : (Daemon.markSeen seen row).maxConcurrency = row.maxConcurrency := by
        simp [Daemon.markSeen, advertise, hcapabilities]
      have hjson : (Daemon.markSeen seen row).modelIdsJson = row.modelIdsJson := by
        simp [Daemon.markSeen, advertise, hcapabilities]
      have hflag : (Daemon.markSeen seen row).revoked = row.revoked := by
        simp [Daemon.markSeen, advertise, hcapabilities]
      refine ⟨.inl ⟨hflag.trans hrevoked, .inr rfl⟩, ?_⟩
      rw [Advertised, hmax, hjson]
      exact h.advertised
  | some columns =>
      obtain ⟨modelIds, hjson, hnormal, hne⟩ := columns.models_stored
      have hmax : (Daemon.markSeen seen row).maxConcurrency = some columns.maxConcurrency := by
        simp [Daemon.markSeen, advertise, hcapabilities]
      have htext : (Daemon.markSeen seen row).modelIdsJson = columns.modelIdsJson := by
        simp [Daemon.markSeen, advertise, hcapabilities]
      have hflag : (Daemon.markSeen seen row).revoked = row.revoked := by
        simp [Daemon.markSeen, advertise, hcapabilities]
      refine ⟨.inl ⟨hflag.trans hrevoked, .inr rfl⟩, .inr ?_⟩
      exact ⟨columns.maxConcurrency, modelIds, hmax, columns.maxConcurrency_pos,
        hjson.trans (congrArg Except.ok htext.symm), hnormal, hne⟩

theorem NodeInvariant.revoke (h : NodeInvariant codec row) (now : String) :
    NodeInvariant codec (Daemon.revoke now row) :=
  ⟨.inr ⟨rfl, rfl⟩, h.advertised⟩

theorem id_markSeen (seen : NodeSeen codec) (row : DbDaemonNode) :
    (Daemon.markSeen seen row).id = row.id := by
  cases hcapabilities : seen.capabilities <;> simp [Daemon.markSeen, advertise, hcapabilities]

theorem NodeInvariant.move_markSeen (h : NodeInvariant codec row) (hrevoked : row.revoked = 0)
    (seen : NodeSeen codec) : NodeMove row (Daemon.markSeen seen row) := by
  have hstatus := h.unrevoked hrevoked
  refine ⟨id_markSeen seen row, ?_, fun h => absurd h (not_revoked_of_status hstatus)⟩
  obtain hstatus | hstatus := hstatus
  · rw [hstatus]
    exact .inr .activate
  · rw [hstatus]
    exact .inl rfl

theorem NodeInvariant.move_revoke (h : NodeInvariant codec row) (hrevoked : row.revoked = 0)
    (now : String) : NodeMove row (Daemon.revoke now row) := by
  have hstatus := h.unrevoked hrevoked
  refine ⟨rfl, .inr ?_, fun h => absurd h (not_revoked_of_status hstatus)⟩
  obtain hstatus | hstatus := hstatus
  · rw [hstatus]
    exact .revokePending
  · rw [hstatus]
    exact .revokeActive

theorem revoked_of_unrevoked {nodeId : Uuid} (h : Daemon.unrevoked nodeId row = true) :
    row.revoked = 0 := by
  simp only [Daemon.unrevoked, Bool.and_eq_true, decide_eq_true_eq] at h
  exact h.2

theorem revoked_of_markable {nodeId : Uuid} (h : markable nodeId row = true) : row.revoked = 0 := by
  simp only [markable, Bool.and_eq_true] at h
  exact revoked_of_unrevoked h.1

end Rows

section Steps

variable {codec : NodeCodec} {s s' : NodeState}

theorem NodesInvariant.insert (h : NodesInvariant codec s) {new : NewDaemonNode}
    (hnew : s.nodes.any (NodeState.conflicts new) = false) :
    NodesInvariant codec (s.insert new) ∧ Table.Moves NodeMove s.nodes (s.insert new).nodes := by
  refine ⟨⟨fun row hmem => ?_, ?_⟩, Table.Moves.append NodeMove.refl _ _⟩
  · rcases List.mem_append.mp hmem with hold | hlast
    · exact h.rows row hold
    · rw [List.mem_singleton.mp hlast]
      exact invariant_new new
  · simp only [NodeState.insert, List.map_append, List.map_cons, List.map_nil]
    rw [List.nodup_append]
    refine ⟨h.ids, List.nodup_singleton _, fun first hfirst last hlast heq => ?_⟩
    obtain ⟨row, hrow, rfl⟩ := List.mem_map.mp hfirst
    rw [List.mem_singleton.mp hlast] at heq
    have hconflict := List.any_eq_false.mp hnew row hrow
    have hid : row.id = new.id.toString := heq
    simp [NodeState.conflicts, hid] at hconflict

theorem NodesInvariant.update (h : NodesInvariant codec s) {selects : DbDaemonNode → Bool}
    {set : DbDaemonNode → DbDaemonNode} (hid : ∀ row, (set row).id = row.id)
    (hset : ∀ row, NodeInvariant codec row → selects row = true →
      NodeInvariant codec (set row) ∧ NodeMove row (set row)) :
    NodesInvariant codec (s.update selects set) ∧
      Table.Moves NodeMove s.nodes (s.update selects set).nodes := by
  refine ⟨⟨fun row hmem => ?_, ?_⟩, Table.Moves.update NodeMove.refl fun row hmem hselected =>
    (hset row (h.rows row hmem) hselected).2⟩
  · obtain ⟨before, hbefore, hselected, rfl⟩ | ⟨hold, _⟩ := Table.mem_update_cases hmem
    · exact (hset before (h.rows before hbefore) hselected).1
    · exact h.rows row hold
  · rw [NodeState.update, Table.map_update hid]
    exact h.ids

theorem NodesInvariant.exec (h : NodesInvariant codec s) {c : NodeCommand codec}
    {choice : NodeChoice} {response : c.Response}
    (hexec : NodeState.exec c choice s = (response, s')) :
    NodesInvariant codec s' ∧ Table.Moves NodeMove s.nodes s'.nodes := by
  have hsame : NodesInvariant codec s ∧ Table.Moves NodeMove s.nodes s.nodes :=
    ⟨h, Table.Moves.refl NodeMove.refl _⟩
  cases c with
  | userExists id => exact of_reply hsame hsame hexec
  | recordAdminAudit audit => exact of_reply hsame hsame hexec
  | nowV7 | newV4 | nowUtcEpochSeconds =>
      cases hexec
      exact hsame
  | insertNode new =>
      obtain ⟨_, rfl⟩ | ⟨hfresh, hinserted⟩ := guarded_cases hexec
      · exact hsame
      · exact of_reply hsame (h.insert hfresh) hinserted
  | markSeen nodeId seen =>
      refine of_reply hsame (h.update (id_markSeen seen) fun row hrow hselected => ?_) hexec
      have hrevoked := revoked_of_markable hselected
      exact ⟨hrow.markSeen hrevoked seen, hrow.move_markSeen hrevoked seen⟩
  | revokeNode nodeId now =>
      refine of_reply hsame (@NodesInvariant.update codec s h _ (revoke now) (fun _ => rfl)
        fun row hrow hselected => ?_) hexec
      exact ⟨hrow.revoke now, hrow.move_revoke (revoked_of_unrevoked hselected) now⟩

end Steps

section Runs

variable {crypto : Auth.Crypto} {codec : NodeCodec} {jobs : Nat → NodeJob codec}
  {config config' : NodeConfig codec}

theorem nodes_step {action : Action NodeChoice} (h : NodesInvariant codec config.state)
    (hstep : (NodeState.system codec).step (nodePrograms crypto jobs) action config =
      some config') :
    NodesInvariant codec config'.state ∧
      Table.Moves NodeMove config.state.nodes config'.state.nodes := by
  refine @System.step_relates _ _ _ _ _ (NodeState.system codec) (nodePrograms crypto jobs)
    (fun s s' => NodesInvariant codec s →
      NodesInvariant codec s' ∧ Table.Moves NodeMove s.nodes s'.nodes)
    (fun s hs => ⟨hs, Table.Moves.refl NodeMove.refl _⟩) ?_ ?_ _ _ _ hstep h
  · intro t c choice s response s' hexec hs
    exact hs.exec (Option.some.inj hexec)
  · intro choice s s' henv hs
    cases henv
    exact ⟨⟨hs.rows, hs.ids⟩, Table.Moves.refl NodeMove.refl _⟩

theorem nodes_run {actions : List (Action NodeChoice)} (h : NodesInvariant codec config.state)
    (hrun : (NodeState.system codec).run (nodePrograms crypto jobs) actions config = some config') :
    NodesInvariant codec config'.state ∧
      Table.Evolves NodeMove config.state.nodes config'.state.nodes := by
  have hstep : ∀ action (middle later : NodeConfig codec),
      (NodesInvariant codec middle.state ∧
        Table.Evolves NodeMove config.state.nodes middle.state.nodes) → True →
      (NodeState.system codec).step (nodePrograms crypto jobs) action middle = some later →
      NodesInvariant codec later.state ∧
        Table.Evolves NodeMove config.state.nodes later.state.nodes := by
    intro action middle later hmiddle _ hstep
    obtain ⟨hlater, hmoves⟩ := nodes_step hmiddle.1 hstep
    exact ⟨hlater, hmiddle.2.trans hmoves.evolves⟩
  exact System.run_invariant (NodeState.system codec) (nodePrograms crypto jobs) hstep actions hrun
    (System.meets_true _ _ actions config) ⟨h, Table.Evolves.refl _⟩

end Runs

-- The rows as authentication reads them; a row whose id is no UUID authenticates nobody.
def identityRow (codec : NodeCodec) (row : DbDaemonNode) : Option DaemonNodeRow :=
  match codec.uuidParseStr row.id with
  | .ok id =>
      some { id, status := row.status, tokenHash := row.tokenHash, revoked := row.revoked ≠ 0 }
  | .error _ => none

section Queries

variable {codec : NodeCodec} {nodes : List DbDaemonNode}

theorem mem_findNode {daemon : DaemonState} {tokenHash : String} {found : DaemonNodeRow}
    (hnodes : daemon.nodes = nodes.filterMap (identityRow codec))
    (h : daemon.findNode tokenHash = some found) :
    ∃ row ∈ nodes, codec.uuidParseStr row.id = .ok found.id ∧ row.revoked = 0 ∧
      row.status ≠ STATUS_REVOKED := by
  have hselected := List.find?_some h
  have hmem := List.mem_of_find?_eq_some h
  rw [hnodes] at hmem
  obtain ⟨row, hrow, hview⟩ := List.mem_filterMap.mp hmem
  rw [identityRow] at hview
  split at hview
  · rename_i id hid
    obtain rfl := Option.some.inj hview
    simp only [Bool.and_eq_true, Bool.not_eq_true', decide_eq_true_eq, decide_eq_false_iff_not,
      not_not] at hselected
    exact ⟨row, hrow, hid, hselected.1.2, hselected.2⟩
  · cases hview

-- Nobody authenticates as a revoked node.
theorem resolved_not_revoked {sha256 : List UInt8 → List UInt8} {authorization : String} {t : Nat}
    {choices : List DaemonChoice} {daemon daemon' : DaemonState} {identity : DaemonNodeIdentity}
    (hnodes : daemon.nodes = nodes.filterMap (identityRow codec))
    (h : (resolveDaemonNodeIdentity sha256 authorization).run.play (DaemonState.system.exec t)
      choices daemon = some (.ok identity, daemon')) :
    ∃ row ∈ nodes, codec.uuidParseStr row.id = .ok identity.nodeId ∧ row.revoked = 0 ∧
      row.status ≠ STATUS_REVOKED := by
  rw [resolveDaemonNodeIdentity] at h
  split at h
  · cases choices <;> cases h
  · rename_i token _
    cases choices with
    | nil => cases h
    | cons choice choices =>
        cases choices with
        | cons => cases h
        | nil =>
            obtain ⟨hresult, rfl⟩ := Prod.mk.inj (Option.some.inj h)
            cases hfault : choice.fault with
            | some error => simp [hfault] at hresult
            | none =>
                cases hfound : daemon.findNode (hashValue sha256 token) with
                | none => simp [hfault, hfound] at hresult
                | some row =>
                    simp only [hfault, hfound, Except.ok.injEq] at hresult
                    subst hresult
                    exact mem_findNode hnodes hfound

theorem firstServing_mem {modelId : String} {rows : List DbDaemonNode} {node : EligibleDaemonNode}
    (h : firstServing codec modelId rows = .ok (some node)) :
    ∃ row ∈ rows, codec.uuidParseStr row.id = .ok node.id := by
  induction rows with
  | nil => cases h
  | cons row rows ih =>
      have hlater : firstServing codec modelId rows = .ok (some node) →
          ∃ other ∈ row :: rows, codec.uuidParseStr other.id = .ok node.id := by
        intro hrest
        obtain ⟨other, hother, hid⟩ := ih hrest
        exact ⟨other, List.mem_cons_of_mem row hother, hid⟩
      obtain ⟨modelIds, _, h⟩ := except_bind_eq_ok h
      simp only at h
      split at h
      · exact hlater h
      · split at h
        · cases h
        · split at h
          · exact hlater h
          · obtain ⟨id, hid, h⟩ := except_bind_eq_ok h
            obtain rfl := Option.some.inj (Except.ok.inj h)
            exact ⟨row, List.mem_cons_self, ok_of_mapError hid⟩

-- A node that is selected is active, and has stored what it can serve.
theorem selected_advertised {order : SeenOrder} {modelId : String} {staleAfterSeconds now : Int64}
    {node : EligibleDaemonNode} (hrows : ∀ row ∈ nodes, NodeInvariant codec row)
    (h : selectEligibleDaemonNode codec order modelId staleAfterSeconds now nodes =
      .ok (some node)) :
    ∃ row ∈ nodes, codec.uuidParseStr row.id = .ok node.id ∧ row.revoked = 0 ∧
      row.status = STATUS_ACTIVE ∧ Advertised codec row := by
  simp only [selectEligibleDaemonNode] at h
  split at h
  · cases h
  · obtain ⟨row, hmem, hid⟩ := firstServing_mem h
    obtain ⟨hnode, heligible⟩ := List.mem_filter.mp (order.mem_of_mem_arrange hmem)
    simp only [eligible, Bool.and_eq_true, decide_eq_true_eq] at heligible
    obtain ⟨⟨⟨⟨⟨⟨hstatus, hrevoked⟩, _⟩, _⟩, _⟩, hmax⟩, _⟩ := heligible
    refine ⟨row, hnode, hid, hrevoked, hstatus, ?_⟩
    obtain hnone | hadvertised := (hrows row hnode).advertised
    · rw [hnone] at hmax
      cases hmax
    · exact hadvertised

end Queries

section Refusals

variable {crypto : Auth.Crypto} {codec : NodeCodec} {jobs : Nat → NodeJob codec} {α β : Type}
  {config config' : NodeConfig codec}

-- A program that ends with an error, and reads the clock at most.
inductive Refused : Prog (NodeCommand codec) NodeCommand.Response (Except AppError α) → Prop where
  | atOnce (error : AppError) : Refused (.ret (.error error))
  | afterClock (error : AppError) :
      Refused (.call .nowUtcEpochSeconds fun (_ : Int64) => .ret (.error error))

theorem Refused.bind {program : NodeM codec α} (h : Refused program.run)
    (rest : α → NodeM codec β) : Refused (program >>= rest).run := by
  rw [ExceptT.run_bind]
  generalize program.run = run at h
  cases h with
  | atOnce error => exact .atOnce error
  | afterClock error => exact .afterClock error

theorem capabilityColumns_refuses {capabilities : NormalizedCapabilities codec}
    (h : fitsI32 capabilities.maxConcurrency = false) :
    ∃ error, capabilityColumns capabilities = .error error := by
  rw [capabilityColumns]
  split
  · exact ⟨_, rfl⟩
  · simp [h]

theorem normalizeCapabilities_max {payload : DaemonCapabilityPayload codec}
    {capabilities : NormalizedCapabilities codec}
    (h : normalizeCapabilities payload = .ok capabilities) :
    capabilities.maxConcurrency = payload.maxConcurrency := by
  simp only [normalizeCapabilities] at h
  split at h
  · cases h
  · split at h
    · cases h
    · split at h
      · cases h
      · rw [← Except.ok.inj h]

theorem markNodeSeen_refuses (nodeId : Uuid) (hostname publicKey : Option String)
    {capabilities : NormalizedCapabilities codec} {error : AppError}
    (h : capabilityColumns capabilities = .error error) :
    (markNodeSeen nodeId hostname publicKey (some capabilities)).run =
      .call .nowUtcEpochSeconds fun (_ : Int64) => .ret (.error error) := by
  simp only [markNodeSeen, h]
  rfl

-- A heartbeat whose capacity the column cannot hold comes to no UPDATE.
theorem heartbeat_refused (identity : DaemonNodeIdentity) {payload : DaemonHeartbeatRequest codec}
    (h : fitsI32 payload.capabilities.maxConcurrency = false) :
    Refused (daemonHeartbeat identity payload).run := by
  cases hnormal : normalizeCapabilities payload.capabilities with
  | error error =>
      have hrun : (daemonHeartbeat identity payload).run = .ret (.error error) := by
        rw [daemonHeartbeat, hnormal]
        rfl
      rw [hrun]
      exact .atOnce error
  | ok capabilities =>
      rw [← normalizeCapabilities_max hnormal] at h
      obtain ⟨error, hcolumns⟩ := capabilityColumns_refuses h
      rw [daemonHeartbeat, hnormal]
      change Refused (markNodeSeen identity.nodeId _ _ (some capabilities) >>= _).run
      refine Refused.bind ?_ _
      rw [markNodeSeen_refuses _ _ _ hcolumns]
      exact .afterClock error

theorem refused_next {c : NodeCommand codec}
    {next : c.Response → Prog (NodeCommand codec) NodeCommand.Response (Except AppError α)}
    (h : Refused (.call c next)) (response : c.Response) : Refused (next response) := by
  cases h
  exact .atOnce _

theorem refused_step {t : Nat} {choice : NodeChoice}
    (hthread : ∀ program, config.threads t = some program → Refused program)
    (hstep : (NodeState.system codec).step (nodePrograms crypto jobs) (.call t choice) config =
      some config') : config'.state = config.state := by
  cases hprogram : config.threads t with
  | none => simp [System.step, hprogram] at hstep
  | some program =>
      cases hthread program hprogram with
      | atOnce error => simp [System.step, hprogram] at hstep
      | afterClock error =>
          simp only [System.step, hprogram, NodeState.system, NodeState.exec,
            Option.some.injEq] at hstep
          rw [← hstep]

theorem refused_heartbeat {t : Nat} {identity : DaemonNodeIdentity}
    {payload : DaemonHeartbeatRequest codec} (hjob : jobs t = .heartbeat identity payload)
    (h : fitsI32 payload.capabilities.maxConcurrency = false) :
    Refused (nodePrograms crypto jobs t) := by
  simp only [nodePrograms, hjob, NodeJob.program]
  exact (heartbeat_refused identity h).bind _

end Refusals

section Main

variable {crypto : Auth.Crypto} {codec : NodeCodec} {jobs : Nat → NodeJob codec}

-- What is true of the nodes wherever a run of their requests leads.
structure NodesLifecycle (crypto : Auth.Crypto) {codec : NodeCodec} (jobs : Nat → NodeJob codec)
    (config : NodeConfig codec) : Prop where
  flag : ∀ row ∈ config.state.nodes, row.revoked = 1 ↔ row.status = STATUS_REVOKED
  ids : (config.state.nodes.map DbDaemonNode.id).Nodup
  moves : ∀ action config',
    (NodeState.system codec).step (nodePrograms crypto jobs) action config = some config' →
    ∀ row ∈ config.state.nodes, ∃ row' ∈ config'.state.nodes, row'.id = row.id ∧
      (row'.status = row.status ∨ StatusMove row.status row'.status)
  revoked_stays : ∀ actions config',
    (NodeState.system codec).run (nodePrograms crypto jobs) actions config = some config' →
    ∀ row ∈ config.state.nodes, row.status = STATUS_REVOKED → row ∈ config'.state.nodes
  resolved : ∀ sha256 authorization t choices daemon identity daemon',
    daemon.nodes = config.state.nodes.filterMap (identityRow codec) →
    (resolveDaemonNodeIdentity sha256 authorization).run.play (DaemonState.system.exec t) choices
      daemon = some (.ok identity, daemon') →
    ∃ row ∈ config.state.nodes, codec.uuidParseStr row.id = .ok identity.nodeId ∧
      row.status ≠ STATUS_REVOKED
  selected : ∀ order modelId staleAfterSeconds now node,
    selectEligibleDaemonNode codec order modelId staleAfterSeconds now config.state.nodes =
      .ok (some node) →
    ∃ row ∈ config.state.nodes, codec.uuidParseStr row.id = .ok node.id ∧
      row.status = STATUS_ACTIVE ∧ Advertised codec row
  too_large : ∀ t identity payload, jobs t = .heartbeat identity payload →
    Int32.maxValue.toInt < payload.capabilities.maxConcurrency.toNat →
    (∀ result, config.threads t = some (.ret result) → ∃ error, result = .error error) ∧
      ∀ choice config', (NodeState.system codec).step (nodePrograms crypto jobs) (.call t choice)
        config = some config' → config'.state = config.state

theorem fitsI32_eq_false {value : UInt32} (h : Int32.maxValue.toInt < value.toNat) :
    fitsI32 value = false := by
  have hmax : Int32.maxValue.toInt = 2 ^ 31 - 1 := by decide
  rw [hmax] at h
  simp only [fitsI32, decide_eq_false_iff_not]
  omega

theorem nodes_keep_their_lifecycle (nowSeconds : Nat) (actions : List (Action NodeChoice))
    (config : NodeConfig codec)
    (hrun : (NodeState.system codec).run (nodePrograms crypto jobs) actions
      (System.initial (NodeState.start nowSeconds)) = some config) :
    NodesLifecycle crypto jobs config := by
  have hstart : NodesInvariant codec (NodeState.start nowSeconds) :=
    ⟨fun row hmem => absurd hmem List.not_mem_nil, List.nodup_nil⟩
  obtain ⟨hnodes, -⟩ := @nodes_run crypto codec jobs
    (System.initial (NodeState.start nowSeconds)) config actions hstart hrun
  constructor
  · exact fun row hmem => (hnodes.rows row hmem).revoked_iff
  · exact hnodes.ids
  · intro action config' hstep row hmem
    obtain ⟨row', hmem', hmove⟩ := (nodes_step hnodes hstep).2 row hmem
    exact ⟨row', hmem', hmove.id, hmove.status⟩
  · intro actions config' hlater row hmem hrevoked
    obtain ⟨row', hmem', hmoves⟩ := (nodes_run hnodes hlater).2 row hmem
    have hfixed : row' = row :=
      Table.eq_of_evolves (fun _ _ h hmove => hmove.revoked h) hmoves hrevoked
    rwa [hfixed] at hmem'
  · intro sha256 authorization t choices daemon identity daemon' hview hplay
    obtain ⟨row, hmem, hid, _, hstatus⟩ := resolved_not_revoked hview hplay
    exact ⟨row, hmem, hid, hstatus⟩
  · intro order modelId staleAfterSeconds now node hselected
    obtain ⟨row, hmem, hid, _, hrow⟩ := selected_advertised hnodes.rows hselected
    exact ⟨row, hmem, hid, hrow⟩
  · intro t identity payload hjob hlarge
    have hcode : Refused (nodePrograms crypto jobs t) :=
      refused_heartbeat hjob (fitsI32_eq_false hlarge)
    have hthread : ∀ program, config.threads t = some program → Refused program :=
      System.thread_run hcode (fun _ _ _ _ response _ h _ => refused_next h response) hrun
        fun program hprogram => by cases hprogram
    constructor
    · intro result hresult
      cases hthread _ hresult with
      | atOnce error => exact ⟨error, rfl⟩
    · intro choice config' hstep
      exact refused_step hthread hstep

-- The crates on the inputs of the run below, which has no password.
def nodeCrypto : Auth.Crypto where
  toLowercase text := text
  sha256 := tabulated
    [(bytes "mizan_sk_daemon_00000000-0000-0000-0000-000000000007",
      digestOf 0x7687fd24e6ca5107f9a14fc8b77671b696247d276cfa3b8901b9fdcd874c796c)]
  bcryptHash salt _ := salt
  bcryptVerify _ _ := .error "invalid hash"

def nodeCodec : NodeCodec where
  Value := Unit
  uuidParseStr text :=
    if text = (Uuid.mk 7).toString then .ok ⟨7⟩ else .error "invalid character"
  listToString values :=
    .ok ("[" ++ String.intercalate "," (values.map fun value => "\"" ++ value ++ "\"") ++ "]")
  listFromStr text := if text = "[\"llama\"]" then .ok ["llama"] else .error "expected value"
  valueToString _ := .ok "null"

def sampleNode : DaemonNodeIdentity where
  nodeId := ⟨7⟩
  status := STATUS_PENDING
  tokenHash := "7687fd24e6ca5107f9a14fc8b77671b696247d276cfa3b8901b9fdcd874c796c"

def sampleHeartbeat : DaemonHeartbeatRequest nodeCodec where
  hostname := none
  publicKey := none
  capabilities :=
    { providerFamily := "ollama", modelIds := [" llama ", "llama"], maxConcurrency := 4
      pricingMetadata := none, region := none, labels := [], healthStatus := none
      metadata := none }

-- A node is created, reports in and is revoked before it reports in again.
def revokedJobs : Nat → NodeJob nodeCodec
  | 0 => .create ⟨1⟩ { hostUserId := none, label := none, hostname := none, publicKey := none }
  | 2 => .revoke ⟨1⟩ ⟨7⟩
  | _ => .heartbeat sampleNode sampleHeartbeat

def revokedActions : List (Action NodeChoice) :=
  [.spawn 3, .call 3 {}, .spawn 0] ++ List.replicate 6 (.call 0 { uuid := ⟨7⟩ }) ++
    [.spawn 1, .call 1 {}, .call 1 {}, .spawn 2, .call 2 {}, .call 2 {}, .call 3 {}, .call 2 {}]

theorem revoked_node_keeps_its_lifecycle : ∃ config,
    (NodeState.system nodeCodec).run (nodePrograms nodeCrypto revokedJobs) revokedActions
      (System.initial (NodeState.start 100)) = some config ∧
    config.state.nodes.map (fun row => (row.status, row.revoked, row.modelIdsJson)) =
      [("revoked", 1, "[\"llama\"]")] ∧
    NodesLifecycle nodeCrypto revokedJobs config := by
  have hnodes : ((NodeState.system nodeCodec).run (nodePrograms nodeCrypto revokedJobs)
      revokedActions (System.initial (NodeState.start 100))).map (fun config =>
        config.state.nodes.map fun row => (row.status, row.revoked, row.modelIdsJson)) =
      some [("revoked", 1, "[\"llama\"]")] := by
    decide +kernel
  obtain ⟨config, hrun, hrows⟩ := Option.map_eq_some_iff.mp hnodes
  exact ⟨config, hrun, hrows, nodes_keep_their_lifecycle 100 revokedActions config hrun⟩

end Main

end Mizan.Daemon
