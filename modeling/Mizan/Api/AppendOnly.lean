import Mizan.Api.System
import Mizan.Billing.Listing
import Mizan.Catalogue.Sound
import Mizan.Fleet.Revocation
import Mizan.Interleaving.Asks

namespace Mizan

open Interleaving

-- A reference to a row that is gone is NULL.
def reference (gone : List GoneParent) (parent : EventParent) (id : Option String) :
    Option String :=
  id.filter fun id => (parent, id) ∉ gone

section Reference

variable {gone gone' : List GoneParent} {parent : EventParent} {id : Option String}

theorem reference_nil : reference [] parent id = id := by
  cases id <;> simp [reference]

theorem reference_append :
    reference (gone ++ gone') parent id = reference gone' parent (reference gone parent id) := by
  simp only [reference, Option.filter_filter]
  congr 1
  funext other
  simp only [List.mem_append, not_or, Bool.decide_and]

theorem reference_same {other : String} :
    reference [(parent, other)] parent id = if id = some other then none else id := by
  cases id with
  | none => simp [reference]
  | some own =>
      by_cases heq : own = other
      · simp [reference, Option.filter, heq]
      · simp [reference, Option.filter, heq]

theorem reference_other {parent' : EventParent} {other : String} (h : parent ≠ parent') :
    reference [(parent', other)] parent id = id := by
  cases id with
  | none => rfl
  | some own => simp [reference, Option.filter, h]

end Reference

-- The rows that are gone are connections and routes.
def OfCatalogue (gone : List GoneParent) : Prop :=
  ∀ parent ∈ gone, parent.1 = .provider ∨ parent.1 = .route

namespace UsageEventRecord

-- All columns are kept but for the references to what is gone.
def carried (gone : List GoneParent) (row : UsageEventRecord) : UsageEventRecord :=
  { row with
    providerId := reference gone .provider row.providerId
    routeId := reference gone .route row.routeId }

theorem carried_nil (row : UsageEventRecord) : row.carried [] = row := by
  simp only [carried, reference_nil]

theorem carried_append (gone gone' : List GoneParent) (row : UsageEventRecord) :
    row.carried (gone ++ gone') = (row.carried gone).carried gone' := by
  simp only [carried, reference_append]

theorem carried_single {parent : GoneParent} (h : parent.1 = .provider ∨ parent.1 = .route)
    (row : UsageEventRecord) : row.carried [parent] = row.unlink parent.1 parent.2 := by
  obtain ⟨kind, id⟩ := parent
  rcases h with hkind | hkind
  · have hroute : reference [(.provider, id)] .route row.routeId = row.routeId :=
      reference_other (by decide)
    simp only at hkind
    subst hkind
    simp only [carried, unlink, reference_same, hroute]
    split
    · rfl
    · rfl
  · have hprovider : reference [(.route, id)] .provider row.providerId = row.providerId :=
      reference_other (by decide)
    simp only at hkind
    subst hkind
    simp only [carried, unlink, reference_same, hprovider]
    split
    · rfl
    · rfl

theorem unlinkAll_eq_carried {gone : List GoneParent} (h : OfCatalogue gone)
    (row : UsageEventRecord) : row.unlinkAll gone = row.carried gone := by
  induction gone generalizing row with
  | nil => exact (carried_nil row).symm
  | cons parent gone ih =>
      have hsplit := carried_append [parent] gone row
      rw [List.singleton_append] at hsplit
      rw [hsplit, carried_single (h parent List.mem_cons_self),
        ← ih fun other hmem => h other (List.mem_cons_of_mem parent hmem)]
      rfl

end UsageEventRecord

theorem Database.unlinkAll_accounts (gone : List GoneParent) (database : Database) :
    (database.unlinkAll gone).accounts = database.accounts := by
  induction gone generalizing database with
  | nil => rfl
  | cons parent gone ih => exact ih (database.unlink parent.1 parent.2)

theorem Database.unlinkAll_usageEvents (gone : List GoneParent) (database : Database) :
    (database.unlinkAll gone).usageEvents =
      database.usageEvents.map (UsageEventRecord.unlinkAll gone) := by
  induction gone generalizing database with
  | nil => exact (List.map_id _).symm
  | cons parent gone ih =>
      have hrest := ih (database.unlink parent.1 parent.2)
      rw [Database.unlink, List.map_map] at hrest
      exact hrest

namespace Api

open Billing (Books)
open Catalogue (CatalogueChoice CatalogueCommand CatalogueOp CatalogueState ControlPlane)
open Daemon (NodeCodec)

section Gone

theorem missing_eq_nil {before after : List String} (h : ∀ id ∈ before, id ∈ after) :
    missing before after = [] := by
  rw [missing, List.filter_eq_nil_iff]
  intro id hid
  simpa using h id hid

theorem ofCatalogue_goneRows (before after : CatalogueState) :
    OfCatalogue (goneRows before after) := by
  intro parent hparent
  rcases List.mem_append.mp hparent with hprovider | hroute
  · obtain ⟨id, -, rfl⟩ := List.mem_map.mp hprovider
    exact .inl rfl
  · obtain ⟨id, -, rfl⟩ := List.mem_map.mp hroute
    exact .inr rfl

-- Rows are added, and none is taken away.
def Extends (before after : CatalogueState) : Prop :=
  before.connections <+: after.connections ∧ before.routes <+: after.routes

theorem Extends.refl (s : CatalogueState) : Extends s s :=
  ⟨List.prefix_refl _, List.prefix_refl _⟩

theorem Extends.goneRows {before after : CatalogueState} (h : Extends before after) :
    goneRows before after = [] := by
  rw [Api.goneRows, missing_eq_nil, missing_eq_nil]
  · rfl
  · intro id hid
    exact (h.2.map _).subset hid
  · intro id hid
    exact (h.1.map _).subset hid

theorem goneRows_self (s : CatalogueState) : goneRows s s = [] := (Extends.refl s).goneRows

end Gone

variable {σ : Type} {codec : NodeCodec}

-- The ledger and the events stay in front, but for the references to what is gone.
structure Kept (books : Books σ) (gone : List GoneParent) (before after : ApiState σ) : Prop where
  ledger : (before.database books).accounts.ledger <+: (after.database books).accounts.ledger
  events : (before.database books).usageEvents.map (UsageEventRecord.carried gone) <+:
    (after.database books).usageEvents

section Kept

variable {books : Books σ} {gone gone' : List GoneParent} {s s' s'' : ApiState σ}

theorem Kept.of_isPrefix
    (hledger : (s.database books).accounts.ledger <+: (s'.database books).accounts.ledger)
    (hevents : (s.database books).usageEvents <+: (s'.database books).usageEvents) :
    Kept books [] s s' := by
  refine ⟨hledger, ?_⟩
  have hid : (s.database books).usageEvents.map (UsageEventRecord.carried []) =
      (s.database books).usageEvents := by
    rw [List.map_congr_left fun row _ => row.carried_nil, List.map_id']
  rw [hid]
  exact hevents

theorem Kept.refl (s : ApiState σ) : Kept books [] s s :=
  .of_isPrefix (List.prefix_refl _) (List.prefix_refl _)

theorem Kept.trans (h : Kept books gone s s') (h' : Kept books gone' s' s'') :
    Kept books (gone ++ gone') s s'' := by
  refine ⟨h.ledger.trans h'.ledger, ?_⟩
  have hsplit : (s.database books).usageEvents.map (UsageEventRecord.carried (gone ++ gone')) =
      ((s.database books).usageEvents.map (UsageEventRecord.carried gone)).map
        (UsageEventRecord.carried gone') := by
    rw [List.map_map]
    exact List.map_congr_left fun row _ => row.carried_append gone gone'
  rw [hsplit]
  exact (h.events.map _).trans h'.events

theorem kept_afterCatalogue (s : ApiState σ) (catalogue : CatalogueState) :
    Kept books (goneRows s.catalogue catalogue) s (s.afterCatalogue books catalogue) := by
  have hdatabase : (s.afterCatalogue books catalogue).database books =
      (s.database books).unlinkAll (goneRows s.catalogue catalogue) :=
    books.database_withDatabase _ _
  constructor
  · rw [hdatabase, Database.unlinkAll_accounts]
  · rw [hdatabase, Database.unlinkAll_usageEvents]
    have hrows : (s.database books).usageEvents.map
        (UsageEventRecord.unlinkAll (goneRows s.catalogue catalogue)) =
          (s.database books).usageEvents.map
            (UsageEventRecord.carried (goneRows s.catalogue catalogue)) :=
      List.map_congr_left fun row _ => row.unlinkAll_eq_carried (ofCatalogue_goneRows _ _)
    rw [hrows]

end Kept

-- What one step does to the accounting records and to the history of the rows that are gone.
def Moves (books : Books σ) (s s' : ApiState σ) : Prop :=
  s'.gone = s.gone ++ goneRows s.catalogue s'.catalogue ∧
    Kept books (goneRows s.catalogue s'.catalogue) s s'

section Steps

variable {books : Books σ} {crypto : Auth.Crypto} {s s' : ApiState σ}

theorem Moves.of_same (hcatalogue : goneRows s.catalogue s'.catalogue = [])
    (hgone : s'.gone = s.gone) (hkept : Kept books [] s s') : Moves books s s' := by
  rw [Moves, hcatalogue, hgone, List.append_nil]
  exact ⟨rfl, hkept⟩

theorem moves_exec {t : Nat} {c : ApiCommand codec} {choice : ApiChoice} {response : c.Response}
    (h : ApiState.exec books crypto t c choice s = some (response, s')) : Moves books s s' := by
  cases c with
  | billing c =>
      simp only [ApiState.exec, Option.map_eq_some_iff] at h
      obtain ⟨⟨answer, after⟩, hexec, hpair⟩ := h
      obtain ⟨writes, hwrites⟩ := books.exec_writes t c choice.billing s.books answer after hexec
      obtain ⟨hledger, hevents⟩ := (s.database books).prefix_applyAll writes
      cases hpair
      rw [ApiState.database, ← hwrites] at hledger hevents
      exact .of_same (goneRows_self _) rfl (.of_isPrefix hledger hevents)
  | catalogue c =>
      cases h
      exact ⟨rfl, kept_afterCatalogue s _⟩
  | auth c =>
      simp only [ApiState.exec, Option.map_eq_some_iff] at h
      obtain ⟨⟨answer, after⟩, -, hpair⟩ := h
      cases hpair
      exact .of_same (goneRows_self _) rfl (.of_isPrefix (List.prefix_refl _) (List.prefix_refl _))
  | fleet c =>
      simp only [ApiState.exec, Option.map_eq_some_iff] at h
      obtain ⟨⟨answer, after⟩, -, hpair⟩ := h
      cases hpair
      exact .of_same (goneRows_self _) rfl (.of_isPrefix (List.prefix_refl _) (List.prefix_refl _))

theorem extends_env {choice : ApiChoice}
    (h : (ApiState.system books codec crypto).env choice s = some s') :
    Extends s.catalogue s'.catalogue ∧ s'.gone = s.gone ∧ s'.database books = s.database books := by
  obtain ⟨after, hbooks, h⟩ := Option.bind_eq_some_iff.mp h
  obtain ⟨catalogue, hcatalogue, h⟩ := Option.bind_eq_some_iff.mp h
  obtain ⟨auth, -, h⟩ := Option.bind_eq_some_iff.mp h
  obtain ⟨fleet, -, h⟩ := Option.bind_eq_some_iff.mp h
  cases h
  cases hcatalogue
  exact ⟨⟨List.prefix_refl _, List.prefix_refl _⟩, rfl, books.env_keeps _ _ _ hbooks⟩

theorem moves_env {choice : ApiChoice}
    (h : (ApiState.system books codec crypto).env choice s = some s') : Moves books s s' := by
  obtain ⟨hextends, hgone, hdatabase⟩ := extends_env h
  refine .of_same hextends.goneRows hgone (.of_isPrefix ?_ ?_)
  · rw [hdatabase]
  · rw [hdatabase]

-- The statements that remove rows of the catalogue.
def Removes : ApiCommand codec → Prop
  | .catalogue (.deleteConnection _) | .catalogue (.deleteRoute _) => True
  | _ => False

theorem extends_exec {c : CatalogueCommand} {choice : CatalogueChoice}
    {catalogue after : CatalogueState} {response : c.Response}
    (hc : ¬Removes (.catalogue c : ApiCommand codec))
    (h : CatalogueState.exec c choice catalogue = (response, after)) :
    Extends catalogue after := by
  cases c with
  | insertConnection row =>
      obtain ⟨-, rfl⟩ | ⟨-, hreply⟩ := guarded_cases h
      · exact .refl after
      · have hnext : Extends catalogue (catalogue.insertConnection row) :=
          ⟨List.prefix_append _ _, List.prefix_refl _⟩
        exact of_reply (.refl _) hnext hreply
  | insertRoute row =>
      obtain ⟨-, rfl⟩ | ⟨-, h⟩ := guarded_cases h
      · exact .refl after
      · obtain ⟨-, rfl⟩ | ⟨-, hreply⟩ := guarded_cases h
        · exact .refl after
        · have hnext : Extends catalogue (catalogue.insertRoute row) :=
            ⟨List.prefix_refl _, List.prefix_append _ _⟩
          exact of_reply (.refl _) hnext hreply
  | deleteConnection id => exact absurd trivial hc
  | deleteRoute id => exact absurd trivial hc
  | selectEnabledConnection id => exact of_reply (.refl _) (.refl _) h
  | recordAdminAudit audit =>
      have hnext : Extends catalogue
          { catalogue with adminAuditLogs := catalogue.adminAuditLogs ++ [audit] } :=
        ⟨List.prefix_refl _, List.prefix_refl _⟩
      exact of_reply (.refl _) hnext h
  | nowV7 =>
      cases h
      exact .refl _
  | nowUtcEpochSeconds =>
      cases h
      exact .refl _

theorem goneRows_exec {t : Nat} {c : ApiCommand codec} {choice : ApiChoice} {response : c.Response}
    (hc : ¬Removes c) (h : ApiState.exec books crypto t c choice s = some (response, s')) :
    goneRows s.catalogue s'.catalogue = [] := by
  cases c with
  | billing c =>
      simp only [ApiState.exec, Option.map_eq_some_iff] at h
      obtain ⟨⟨answer, after⟩, -, hpair⟩ := h
      cases hpair
      exact goneRows_self _
  | catalogue c =>
      cases h
      exact (extends_exec hc rfl).goneRows
  | auth c =>
      simp only [ApiState.exec, Option.map_eq_some_iff] at h
      obtain ⟨⟨answer, after⟩, -, hpair⟩ := h
      cases hpair
      exact goneRows_self _
  | fleet c =>
      simp only [ApiState.exec, Option.map_eq_some_iff] at h
      obtain ⟨⟨answer, after⟩, -, hpair⟩ := h
      cases hpair
      exact goneRows_self _

end Steps

section Programs

variable {plane : ControlPlane} {dispatchCodec : Dispatch.Codec} {backend : DatabaseBackend}

theorem asks_createProviderConnection (actor : Uuid)
    (payload : Connections.ProviderConnectionCreateRequest) :
    (Catalogue.createProviderConnection plane.codec plane.crypto plane.words
      plane.providerSecretKey actor payload).run.Asks
        fun c => ¬Removes (.catalogue c : ApiCommand codec) := by
  unfold Catalogue.createProviderConnection
  apply Prog.asks_seq (Prog.asks_perform id)
  intro id
  apply Prog.asks_seq (Prog.asks_perform fun h => h)
  intro now
  apply Prog.asks_seq (by exact trivial)
  intro row
  apply Prog.asks_seq (Prog.asks_perform fun h => h)
  intro _
  apply Prog.asks_seq (Prog.asks_perform fun h => h)
  intro _
  trivial

theorem asks_createModelRoute (actor : Uuid) (payload : Catalogue.ModelRouteCreateRequest) :
    (Catalogue.createModelRoute plane.codec plane.words actor payload).run.Asks
      fun c => ¬Removes (.catalogue c : ApiCommand codec) := by
  unfold Catalogue.createModelRoute
  apply Prog.asks_seq (by exact trivial)
  intro _
  apply Prog.asks_seq (Prog.asks_perform fun h => h)
  intro providerExists
  split
  · trivial
  · apply Prog.asks_seq (Prog.asks_perform fun h => h)
    intro id
    apply Prog.asks_seq (Prog.asks_perform fun h => h)
    intro now
    apply Prog.asks_seq (Prog.asks_perform fun h => h)
    intro _
    apply Prog.asks_seq (Prog.asks_perform fun h => h)
    intro _
    trivial

theorem asks_program {op : ApiOp codec} (h : ¬op.deletes) :
    (op.program backend plane dispatchCodec).Asks fun c => ¬Removes c := by
  cases op with
  | billing job =>
      exact Prog.asks_bind (Prog.asks_embed (Prog.asks_of_forall (fun c => id) _)) fun _ => trivial
  | auth operation =>
      exact Prog.asks_bind (Prog.asks_embed (Prog.asks_of_forall (fun c => id) _)) fun _ => trivial
  | fleet op =>
      exact Prog.asks_bind (Prog.asks_embed (Prog.asks_of_forall (fun c => id) _)) fun _ => trivial
  | catalogue op =>
      refine Prog.asks_bind (Prog.asks_embed ?_) fun _ => trivial
      cases op with
      | createProviderConnection actor payload =>
          exact Prog.asks_seq (asks_createProviderConnection actor payload) fun _ => trivial
      | createModelRoute actor payload =>
          exact Prog.asks_seq (asks_createModelRoute actor payload) fun _ => trivial
      | deleteProviderConnection actor id => exact absurd trivial h
      | deleteModelRoute actor id => exact absurd trivial h

end Programs

section Runs

variable {books : Books σ} {crypto : Auth.Crypto} {plane : ControlPlane}
  {dispatchCodec : Dispatch.Codec} {ops : Nat → ApiOp codec}

abbrev ApiConfig (codec : NodeCodec) (σ : Type) :=
  Config (ApiCommand codec) ApiCommand.Response (ApiAnswer codec) (ApiState σ)

variable {config after : ApiConfig codec σ}

-- No thread that takes a step deletes anything.
def NoDeletion (ops : Nat → ApiOp codec) (actions : List (Action ApiChoice)) : Prop :=
  ∀ t choice, .call t choice ∈ actions → ¬(ops t).deletes

-- Every thread whose operation is no deletion asks for none.
def Orderly (ops : Nat → ApiOp codec) (config : ApiConfig codec σ) : Prop :=
  ∀ t, ¬(ops t).deletes → config.ObeysAt (fun c => ¬Removes c) t

theorem moves_step {action : Action ApiChoice}
    (h : (ApiState.system books codec crypto).step
      (apiPrograms books.backend plane dispatchCodec ops) action config = some after) :
    Moves books config.state after.state :=
  System.step_relates (fun s => .of_same (goneRows_self _) rfl (.refl s))
    (fun _ _ _ _ _ _ => moves_exec) (fun _ _ _ => moves_env) h

theorem goneRows_step {action : Action ApiChoice} (horderly : Orderly ops config)
    (hno : NoDeletion ops [action])
    (h : (ApiState.system books codec crypto).step
      (apiPrograms books.backend plane dispatchCodec ops) action config = some after) :
    goneRows config.state.catalogue after.state.catalogue = [] := by
  cases action with
  | spawn t =>
      have hspawned := System.spawn_of_step h
      rw [hspawned.2]
      exact goneRows_self _
  | env choice =>
      simp only [System.step, Option.map_eq_some_iff] at h
      obtain ⟨state, hstate, rfl⟩ := h
      exact (extends_env hstate).1.goneRows
  | call t choice =>
      obtain ⟨c, next, response, s', hthread, hexec, rfl⟩ := System.call_of_step h
      have hasks := horderly t (hno t choice List.mem_cons_self) _ hthread
      exact goneRows_exec hasks.1 hexec

theorem kept_run {actions : List (Action ApiChoice)} (horderly : Orderly ops config)
    (hrun : (ApiState.system books codec crypto).run
      (apiPrograms books.backend plane dispatchCodec ops) actions config = some after) :
    ∃ gone, after.state.gone = config.state.gone ++ gone ∧
      Kept books gone config.state after.state ∧ (NoDeletion ops actions → gone = []) := by
  induction actions generalizing config with
  | nil =>
      cases hrun
      exact ⟨[], (List.append_nil _).symm, .refl _, fun _ => rfl⟩
  | cons action actions ih =>
      obtain ⟨middle, hstep, hrest⟩ := Option.bind_eq_some_iff.mp hrun
      obtain ⟨hgone, hkept⟩ := moves_step hstep
      have hmiddle : Orderly ops middle :=
        fun t ht => obeysAt_step (asks_program ht) (horderly t ht) hstep
      obtain ⟨gone, hafter, hkept', hnone⟩ := ih hmiddle hrest
      refine ⟨goneRows config.state.catalogue middle.state.catalogue ++ gone, ?_,
        hkept.trans hkept', fun hno => ?_⟩
      · rw [hafter, hgone, List.append_assoc]
      · have hfirst : NoDeletion ops [action] := fun t choice hmem =>
          hno t choice (by rw [List.mem_singleton.mp hmem]; exact List.mem_cons_self)
        rw [goneRows_step horderly hfirst hstep, List.nil_append]
        exact hnone fun t choice hmem => hno t choice (List.mem_cons_of_mem action hmem)

-- From every reachable state on: each step takes down which connections and routes it removes, and
-- whatever happens next, the records stay as they are but for the references to those rows. A
-- stretch in which nobody deletes keeps all columns of all of them.
def AppendOnly (books : Books σ) (crypto : Auth.Crypto) (plane : ControlPlane)
    (dispatchCodec : Dispatch.Codec) (ops : Nat → ApiOp codec) (start : ApiState σ) : Prop :=
  ∀ before config, (ApiState.system books codec crypto).run
      (apiPrograms books.backend plane dispatchCodec ops) before (System.initial start) =
        some config →
    (∀ action after, (ApiState.system books codec crypto).step
        (apiPrograms books.backend plane dispatchCodec ops) action config = some after →
      after.state.gone =
        config.state.gone ++ goneRows config.state.catalogue after.state.catalogue) ∧
    ∀ actions after, (ApiState.system books codec crypto).run
        (apiPrograms books.backend plane dispatchCodec ops) actions config = some after →
      ∃ gone, after.state.gone = config.state.gone ++ gone ∧
        Kept books gone config.state after.state ∧ (NoDeletion ops actions → gone = [])

theorem appendOnly (books : Books σ) (start : ApiState σ) :
    AppendOnly books crypto plane dispatchCodec ops start := by
  intro before config hbefore
  have horderly : Orderly ops config :=
    fun t ht => obeysAt_run (asks_program ht) (obeys_initial start t) hbefore
  exact ⟨fun action after hstep => (moves_step hstep).1,
    fun actions after hrun => kept_run horderly hrun⟩

-- On both databases, for the operations of the whole server in any interleaving.
theorem accounting_records_are_append_only (crypto : Auth.Crypto) (plane : ControlPlane)
    (dispatchCodec : Dispatch.Codec) (ops : Nat → ApiOp codec) (database : Database)
    (users : Auth.AuthState) (nowSeconds : Nat) :
    AppendOnly Billing.Postgres.books crypto plane dispatchCodec ops
      (.start Billing.Postgres.books database users nowSeconds) ∧
    AppendOnly Billing.Sqlite.books crypto plane dispatchCodec ops
      (.start Billing.Sqlite.books database users nowSeconds) :=
  ⟨appendOnly _ _, appendOnly _ _⟩

end Runs

section Samples

open Billing (Postgres)
open Fleet (fleetCodec fleetCrypto)

def unansweredInput : Billing.BillingInput := { Billing.failedInput with providerId := some ⟨1⟩ }

-- A connection, a grant, a request that the connection fails to answer, and its end.
def sampleOps : Nat → ApiOp fleetCodec
  | 0 => .catalogue (.createProviderConnection ⟨7⟩ Catalogue.openaiPayload)
  | 1 => .billing (.grantCredits ⟨7⟩ ⟨8⟩ { amountMicrocredits := 5, reason := none })
  | 2 => .billing (.recordUsage unansweredInput)
  | _ => .catalogue (.deleteProviderConnection ⟨7⟩ ⟨1⟩)

def recordedActions : List (Action ApiChoice) :=
  .spawn 0 :: List.replicate 4 (.call 0 { catalogue := { uuid := ⟨1⟩ } }) ++
    .spawn 1 :: List.replicate 14 (.call 1 {}) ++ .spawn 2 :: List.replicate 3 (.call 2 {})

def deletion : List (Action ApiChoice) := .spawn 3 :: List.replicate 2 (.call 3 {})

def sampleStart : ApiState Postgres :=
  .start Billing.Postgres.books (.ofAccounts .empty) (Auth.AuthState.start 1700000000) 1700000000

def sampleRun (actions : List (Action ApiChoice)) (config : ApiConfig fleetCodec Postgres) :
    Option (ApiConfig fleetCodec Postgres) :=
  (ApiState.system Billing.Postgres.books fleetCodec fleetCrypto).run
    (apiPrograms .postgres Catalogue.samplePlane Dispatch.sampleCodec sampleOps) actions config

-- What both ends of the deletion look like.
theorem sampleRun_deletion : ∃ config after,
    sampleRun recordedActions (System.initial sampleStart) = some config ∧
    sampleRun deletion config = some after ∧
    config.state.books.database.accounts.ledger.length = 1 ∧
    config.state.books.database.usageEvents.map UsageEventRecord.providerId =
      [some (Uuid.toString ⟨1⟩)] ∧
    after.state.books.database.usageEvents.map UsageEventRecord.providerId = [none] := by
  have hends : ((sampleRun recordedActions (System.initial sampleStart)).bind fun config =>
      (sampleRun deletion config).map fun after =>
        (config.state.books.database.accounts.ledger.length,
          config.state.books.database.usageEvents.map UsageEventRecord.providerId,
          after.state.books.database.usageEvents.map UsageEventRecord.providerId)) =
      some (1, [some (Uuid.toString ⟨1⟩)], [none]) := by
    decide +kernel
  obtain ⟨config, hrecorded, hends⟩ := Option.bind_eq_some_iff.mp hends
  obtain ⟨after, hdeleted, hends⟩ := Option.map_eq_some_iff.mp hends
  obtain ⟨hledger, hends⟩ := Prod.mk.inj hends
  obtain ⟨hbefore, hafter⟩ := Prod.mk.inj hends
  exact ⟨config, after, hrecorded, hdeleted, hledger, hbefore, hafter⟩

theorem sample_records_are_kept : ∃ config after gone,
    sampleRun recordedActions (System.initial sampleStart) = some config ∧
    sampleRun deletion config = some after ∧
    config.state.books.database.accounts.ledger.length = 1 ∧
    config.state.books.database.usageEvents.length = 1 ∧
    after.state.gone = config.state.gone ++ gone ∧
    Kept Billing.Postgres.books gone config.state after.state := by
  obtain ⟨config, after, hrecorded, hdeleted, hledger, hbefore, -⟩ := sampleRun_deletion
  obtain ⟨gone, hgone, hkept, -⟩ := ((accounting_records_are_append_only fleetCrypto
    Catalogue.samplePlane Dispatch.sampleCodec sampleOps (.ofAccounts .empty)
    (Auth.AuthState.start 1700000000) 1700000000).1 recordedActions config hrecorded).2
      deletion after hdeleted
  have hlength : config.state.books.database.usageEvents.length = 1 := by
    simpa using congrArg List.length hbefore
  exact ⟨config, after, gone, hrecorded, hdeleted, hledger, hlength, hgone, hkept⟩

-- The event of the deleted connection no longer says which connection it was.
theorem event_of_deleted_connection_changes : ∃ config after,
    sampleRun recordedActions (System.initial sampleStart) = some config ∧
    sampleRun deletion config = some after ∧
    ∃ row ∈ config.state.books.database.usageEvents,
      row ∉ after.state.books.database.usageEvents := by
  obtain ⟨config, after, hrecorded, hdeleted, -, hbefore, hafter⟩ := sampleRun_deletion
  have hmem : some (Uuid.toString ⟨1⟩) ∈
      config.state.books.database.usageEvents.map UsageEventRecord.providerId := by
    rw [hbefore]
    exact List.mem_cons_self
  obtain ⟨row, hrow, hprovider⟩ := List.mem_map.mp hmem
  refine ⟨config, after, hrecorded, hdeleted, row, hrow, fun hkept => ?_⟩
  have hnone : row.providerId ∈
      after.state.books.database.usageEvents.map UsageEventRecord.providerId :=
    List.mem_map_of_mem hkept
  rw [hafter, hprovider, List.mem_singleton] at hnone
  cases hnone

end Samples

end Api

end Mizan
