import Mizan.Billing.RoundTrip

namespace Mizan

open Interleaving Table

-- The rows that an event refers to by a foreign key, every one of them ON DELETE SET NULL.
inductive EventParent where
  | user
  | apiKey
  | provider
  | route
  deriving DecidableEq, Repr

namespace UsageEventRecord

def unlink (parent : EventParent) (id : String) (row : UsageEventRecord) : UsageEventRecord :=
  match parent with
  | .user => if row.userId = some id then { row with userId := none } else row
  | .apiKey => if row.apiKeyId = some id then { row with apiKeyId := none } else row
  | .provider => if row.providerId = some id then { row with providerId := none } else row
  | .route => if row.routeId = some id then { row with routeId := none } else row

end UsageEventRecord

def Database.unlink (parent : EventParent) (id : String) (database : Database) : Database :=
  { database with usageEvents := database.usageEvents.map (UsageEventRecord.unlink parent id) }

namespace Billing

theorem Legible.unlink {row : UsageEventRecord} (h : Legible row) (parent : EventParent)
    (id : String) : Legible (row.unlink parent id) := by
  have hnone : ∃ id : Option Uuid, none = id.map Uuid.toString := ⟨none, rfl⟩
  cases parent with
  | user =>
      simp only [UsageEventRecord.unlink]
      split
      · exact { h with userId := hnone }
      · exact h
  | apiKey =>
      simp only [UsageEventRecord.unlink]
      split
      · exact { h with apiKeyId := hnone }
      · exact h
  | provider =>
      simp only [UsageEventRecord.unlink]
      split
      · exact { h with providerId := hnone }
      · exact h
  | route =>
      simp only [UsageEventRecord.unlink]
      split
      · exact { h with routeId := hnone }
      · exact h

-- What a backend holds of the tables, and what its open transactions have written.
structure TableStore (σ : Type) where
  database : σ → Database
  withDatabase : σ → Database → σ
  pending : σ → Nat → List Write

def Postgres.tables : TableStore Postgres where
  database s := s.database
  withDatabase s database := { s with database }
  pending s t := (s.txs t).getD []

def Sqlite.tables : TableStore Sqlite where
  database s := s.database
  withDatabase s database := { s with database }
  pending s t := ((s.txs t).map SqliteTx.writes).getD []

-- What happens around the calls: what the database decides, and the end of a parent.
inductive Happening where
  | database (choice : SqlChoice)
  | deleted (parent : EventParent) (id : String)
  deriving DecidableEq, Repr

section Linked

variable {σ : Type}

def linked (sys : System SqlCommand SqlCommand.Response SqlChoice σ) (tables : TableStore σ) :
    System SqlCommand SqlCommand.Response Happening σ where
  exec t c happening s :=
    match happening with
    | .database choice => sys.exec t c choice s
    | .deleted .. => none
  env happening s :=
    match happening with
    | .database choice => sys.env choice s
    | .deleted parent id => some (tables.withDatabase s ((tables.database s).unlink parent id))

-- An event is recorded in columns that can be read.
def Recording : SqlCommand → Prop
  | .insertUsageEvent row => Legible row
  | .statement (.insertUsageEvent row) => Legible row
  | _ => True

def LegibleWrites (writes : List Write) : Prop := ∀ row, Write.usageEvent row ∈ writes → Legible row

structure LegibleTables (tables : TableStore σ) (s : σ) : Prop where
  events : ∀ row ∈ (tables.database s).usageEvents, Legible row
  pending : ∀ t, LegibleWrites (tables.pending s t)

-- Where the events of a step come from: they were there, the command records them, or the
-- transaction had written them.
structure EventsMove (tables : TableStore σ) (t : Nat) (c : SqlCommand) (s s' : σ) : Prop where
  events : ∀ row ∈ (tables.database s').usageEvents, row ∈ (tables.database s).usageEvents ∨
    c = .insertUsageEvent row ∨ .usageEvent row ∈ tables.pending s t
  pending : ∀ u row, .usageEvent row ∈ tables.pending s' u →
    .usageEvent row ∈ tables.pending s u ∨ c = .statement (.insertUsageEvent row)

theorem EventsMove.refl (tables : TableStore σ) (t : Nat) (c : SqlCommand) (s : σ) :
    EventsMove tables t c s s := ⟨fun _ h => .inl h, fun _ _ h => .inl h⟩

theorem LegibleTables.move {tables : TableStore σ} {t : Nat} {c : SqlCommand} {s s' : σ}
    (h : LegibleTables tables s) (hc : Recording c) (hmove : EventsMove tables t c s s') :
    LegibleTables tables s' := by
  constructor
  · intro row hrow
    rcases hmove.events row hrow with hbefore | rfl | hpending
    · exact h.events row hbefore
    · exact hc
    · exact h.pending t row hpending
  · intro u row hrow
    rcases hmove.pending u row hrow with hbefore | rfl
    · exact h.pending u row hbefore
    · exact hc

end Linked

theorem mem_usageEvents_applyAll {database : Database} {writes : List Write}
    {row : UsageEventRecord} : row ∈ (database.applyAll writes).usageEvents ↔
      row ∈ database.usageEvents ∨ .usageEvent row ∈ writes := by
  induction writes generalizing database with
  | nil => simp [Database.applyAll]
  | cons write writes ih =>
      have hfirst : row ∈ (database.apply write).usageEvents ↔
          row ∈ database.usageEvents ∨ write = .usageEvent row := by
        cases write with
        | usageEvent other => simp [Database.apply, eq_comm]
        | wallet | ledger | balance | adminAudit => simp [Database.apply]
      have hrest := @ih (database.apply write)
      rw [hfirst] at hrest
      simpa [Database.applyAll, or_assoc, eq_comm] using hrest

-- A statement writes an event only where it records it.
theorem execute_usageEvent {statement : Statement} {accounts : Accounts} {rows : statement.Rows}
    {more : List Write} {row : UsageEventRecord} (h : statement.execute accounts = .ok (rows, more))
    (hmem : .usageEvent row ∈ more) : statement = .insertUsageEvent row := by
  cases statement with
  | selectWallet =>
      cases h
      cases hmem
  | insertWallet =>
      obtain ⟨-, rfl⟩ | ⟨-, -, rfl⟩ := execute_insertWallet h
      · cases hmem
      · simp at hmem
  | insertLedger =>
      cases h
      simp at hmem
  | updateBalance walletId balance updatedAt =>
      simp only [Statement.execute] at h
      by_cases hwallet : accounts.hasWalletId walletId
      · rw [if_pos hwallet] at h
        cases h
        simp at hmem
      · rw [if_neg hwallet] at h
        cases h
        cases hmem
  | insertUsageEvent =>
      cases h
      simpa [eq_comm] using hmem

theorem state_of_answer {σ α : Type} {choice : SqlChoice} {result : Except String (α × σ)}
    {s s' : σ} {response : Except String α}
    (h : some (answer choice result s) = some (response, s')) :
    (s' = s ∧ ∃ error, response = .error error) ∨
      choice.fault = none ∧ ∃ value, result = .ok (value, s') ∧ response = .ok value := by
  have h := Option.some.inj h
  rcases answer_cases choice result s with
    ⟨error, hanswer⟩ | ⟨value, after, hresult, hfault, hanswer⟩
  · obtain ⟨rfl, rfl⟩ := Prod.mk.inj (hanswer.symm.trans h)
    exact .inl ⟨rfl, error, rfl⟩
  · obtain ⟨rfl, rfl⟩ := Prod.mk.inj (hanswer.symm.trans h)
    exact .inr ⟨hfault, value, hresult, rfl⟩

namespace Postgres

variable {t u : Nat} {s s' : Postgres} {row : UsageEventRecord}

theorem pending_withTx (s : Postgres) (t : Nat) (tx : Option (List Write)) (u : Nat) :
    tables.pending (s.withTx t tx) u = if u = t then tx.getD [] else tables.pending s u := by
  by_cases heq : u = t
  · subst heq
    rw [if_pos rfl]
    exact congrArg (Option.getD · []) (withTx_self s u tx)
  · rw [if_neg heq]
    exact congrArg (Option.getD · []) (withTx_of_ne heq s tx)

theorem pending_close (s : Postgres) (t u : Nat) :
    tables.pending (s.close t) u = if u = t then [] else tables.pending s u :=
  pending_withTx s t none u

theorem pending_acquire (s : Postgres) (t : Nat) (writes : List Write) (statement : Statement)
    (u : Nat) : tables.pending (s.acquire t writes statement) u = tables.pending s u := by
  cases statement with
  | selectWallet owner forUpdate =>
      cases forUpdate with
      | false => rfl
      | true =>
          simp only [acquire]
          split <;> rfl
  | insertWallet row =>
      simp only [acquire]
      split <;> rfl
  | insertLedger | updateBalance | insertUsageEvent => rfl

theorem database_acquire (s : Postgres) (t : Nat) (writes : List Write) (statement : Statement) :
    (s.acquire t writes statement).database = s.database := by
  cases statement with
  | selectWallet owner forUpdate =>
      cases forUpdate with
      | false => rfl
      | true =>
          simp only [acquire]
          split <;> rfl
  | insertWallet row =>
      simp only [acquire]
      split <;> rfl
  | insertLedger | updateBalance | insertUsageEvent => rfl

theorem mem_pending_close (h : .usageEvent row ∈ tables.pending (s.close t) u) :
    .usageEvent row ∈ tables.pending s u := by
  rw [pending_close] at h
  split at h
  · cases h
  · exact h

theorem events_move {c : SqlCommand} {choice : SqlChoice} {response : c.Response}
    (h : exec t c choice s = some (response, s')) : EventsMove tables t c s s' := by
  cases c with
  | begin =>
      rcases state_of_answer h with ⟨rfl, -⟩ | ⟨-, value, hresult, -⟩
      · exact .refl tables t .begin s'
      · cases hresult
        refine ⟨fun _ hrow => .inl hrow, fun u row hrow => .inl ?_⟩
        rw [pending_withTx] at hrow
        split at hrow
        · cases hrow
        · exact hrow
  | statement statement =>
      obtain ⟨h, hwait⟩ := exec_statement h
      rcases state_of_answer h with ⟨rfl, -⟩ | ⟨hfault, value, hresult, -⟩
      · exact .refl tables t (.statement statement) s'
      · obtain ⟨writes, more, htx, -, hexecute, rfl⟩ := runStatement_ok (hwait hfault) hresult
        refine ⟨fun row hrow => .inl ?_, fun u row hrow => ?_⟩
        · change row ∈ (s.acquire t writes statement).database.usageEvents at hrow
          rw [database_acquire] at hrow
          exact hrow
        · rw [pending_withTx, pending_acquire] at hrow
          split at hrow
          · rename_i heq
            subst heq
            rcases List.mem_append.mp hrow with hbefore | hmore
            · left
              simp only [tables, htx]
              exact hbefore
            · right
              rw [execute_usageEvent hexecute hmore]
          · exact .inl hrow
  | commit =>
      simp only [exec] at h
      split at h
      · rename_i writes htx _
        cases h
        refine ⟨fun row hrow => ?_, fun u row hrow => .inl (mem_pending_close hrow)⟩
        rcases mem_usageEvents_applyAll.mp hrow with hbefore | hwritten
        · exact .inl hbefore
        · right
          right
          simp only [tables, htx]
          exact hwritten
      · cases h
        exact ⟨fun _ hrow => .inl hrow, fun u row hrow => .inl (mem_pending_close hrow)⟩
  | rollback =>
      cases h
      exact ⟨fun _ hrow => .inl hrow, fun u row hrow => .inl (mem_pending_close hrow)⟩
  | insertUsageEvent event =>
      rcases state_of_answer h with ⟨rfl, -⟩ | ⟨-, value, hresult, -⟩
      · exact .refl tables t (.insertUsageEvent event) s'
      · cases hresult
        refine ⟨fun row hrow => ?_, fun _ _ hrow => .inl hrow⟩
        rcases List.mem_append.mp hrow with hbefore | hadded
        · exact .inl hbefore
        · rw [List.mem_singleton.mp hadded]
          exact .inr (.inl rfl)
  | insertAdminAudit audit =>
      rcases state_of_answer h with ⟨rfl, -⟩ | ⟨-, value, hresult, -⟩
      · exact .refl tables t (.insertAdminAudit audit) s'
      · cases hresult
        exact ⟨fun _ hrow => .inl hrow, fun _ _ hrow => .inl hrow⟩
  | nowV7 =>
      cases h
      exact .refl tables t .nowV7 s
  | unixTimestampString =>
      cases h
      exact .refl tables t .unixTimestampString s

end Postgres

namespace Sqlite

variable {t u : Nat} {s s' : Sqlite} {row : UsageEventRecord}

theorem pending_update {txs : Nat → Option SqliteTx} (tx : Option SqliteTx)
    (htxs : s'.txs = Function.update txs t tx) (u : Nat) :
    tables.pending s' u = if u = t then (tx.map SqliteTx.writes).getD [] else
      ((txs u).map SqliteTx.writes).getD [] := by
  have hpending : tables.pending s' u = ((s'.txs u).map SqliteTx.writes).getD [] := rfl
  rw [hpending, htxs]
  by_cases heq : u = t
  · subst heq
    rw [if_pos rfl, Function.update_self]
  · rw [if_neg heq, Function.update_of_ne heq]

theorem mem_pending_close (h : .usageEvent row ∈ tables.pending (s.close t) u) :
    .usageEvent row ∈ tables.pending s u := by
  rw [pending_update none rfl] at h
  split at h
  · cases h
  · exact h

theorem events_move {c : SqlCommand} {choice : SqlChoice} {response : c.Response}
    (h : exec t c choice s = some (response, s')) : EventsMove tables t c s s' := by
  cases c with
  | begin =>
      rcases state_of_answer h with ⟨rfl, -⟩ | ⟨-, value, hresult, -⟩
      · exact .refl tables t .begin s'
      · cases hresult
        refine ⟨fun _ hrow => .inl hrow, fun u row hrow => .inl ?_⟩
        rw [pending_update (some ⟨none, []⟩) rfl] at hrow
        split at hrow
        · cases hrow
        · exact hrow
  | statement statement =>
      obtain ⟨h, -⟩ := exec_statement h
      rcases state_of_answer h with ⟨rfl, -⟩ | ⟨-, value, hresult, -⟩
      · exact .refl tables t (.statement statement) s'
      · obtain ⟨tx, more, htx, -, hexecute, rfl⟩ := runStatement_ok hresult
        refine ⟨fun row hrow => .inl hrow, fun u row hrow => ?_⟩
        rw [pending_update (some { snapshot := some (s.snapshotOf tx)
                                   writes := tx.writes ++ more }) rfl] at hrow
        split at hrow
        · rename_i heq
          subst heq
          rcases List.mem_append.mp hrow with hbefore | hmore
          · left
            simp only [tables, htx]
            exact hbefore
          · right
            rw [execute_usageEvent hexecute hmore]
        · exact .inl hrow
  | commit =>
      simp only [exec] at h
      split at h
      · rename_i tx htx _
        cases h
        refine ⟨fun row hrow => ?_, fun u row hrow => .inl (mem_pending_close hrow)⟩
        rcases mem_usageEvents_applyAll.mp hrow with hbefore | hwritten
        · exact .inl hbefore
        · right
          right
          simp only [tables, htx]
          exact hwritten
      · cases h
        exact .refl tables t .commit s
  | rollback =>
      cases h
      exact ⟨fun _ hrow => .inl hrow, fun u row hrow => .inl (mem_pending_close hrow)⟩
  | insertUsageEvent event =>
      simp only [exec] at h
      split at h
      · cases h
      · rcases state_of_answer h with ⟨rfl, -⟩ | ⟨-, value, hresult, -⟩
        · exact .refl tables t (.insertUsageEvent event) s'
        · cases hresult
          refine ⟨fun row hrow => ?_, fun _ _ hrow => .inl hrow⟩
          rcases List.mem_append.mp hrow with hbefore | hadded
          · exact .inl hbefore
          · rw [List.mem_singleton.mp hadded]
            exact .inr (.inl rfl)
  | insertAdminAudit audit =>
      simp only [exec] at h
      split at h
      · cases h
      · rcases state_of_answer h with ⟨rfl, -⟩ | ⟨-, value, hresult, -⟩
        · exact .refl tables t (.insertAdminAudit audit) s'
        · cases hresult
          exact ⟨fun _ hrow => .inl hrow, fun _ _ hrow => .inl hrow⟩
  | nowV7 =>
      cases h
      exact .refl tables t .nowV7 s
  | unixTimestampString =>
      cases h
      exact .refl tables t .unixTimestampString s

end Sqlite

section Inserts

variable {input : BillingInput} {statusCode : UInt16} {t : Nat}

theorem bindColumns_bind {execute : UsageEventRecord → Sql Unit} {rest : Unit → Sql Unit} :
    bindColumns input statusCode execute >>= rest =
      bindColumns input statusCode fun row => execute row >>= rest := by
  simp only [bindColumns, bind_assoc]

-- The insert inside a transaction, and the commit that its caller goes on to.
def insertAndCommit (input : BillingInput) (statusCode : UInt16) (message : String → String) :
    Sql Unit := do
  insertUsageEventTx input statusCode
  commitTx message

theorem insertAndCommit_eq (message : String → String) :
    insertAndCommit input statusCode message = bindColumns input statusCode fun row =>
      query (.insertUsageEvent row) (usageEventFailed input) >>= fun _ => commitTx message := by
  rw [insertAndCommit, insertUsageEventTx_eq]
  exact bindColumns_bind

theorem Postgres.records_insertUsageEvent :
    Records (Postgres.exec t) (fun s => s.database.usageEvents) (insertUsageEvent input statusCode)
      input statusCode := by
  rw [insertUsageEvent_eq]
  refine records_bindColumns ⟨fun _ _ => rfl, fun _ _ => rfl⟩ fun row choices s s' h => ?_
  obtain ⟨choice, response, -, hexec, hresult⟩ := Prog.exists_play_of_perform h
  rcases state_of_answer hexec with ⟨-, error, rfl⟩ | ⟨-, value, hinserted, -⟩
  · cases hresult
  · cases hinserted
    exact List.mem_append_right _ List.mem_cons_self

theorem Sqlite.records_insertUsageEvent :
    Records (Sqlite.exec t) (fun s => s.database.usageEvents) (insertUsageEvent input statusCode)
      input statusCode := by
  rw [insertUsageEvent_eq]
  refine records_bindColumns ⟨fun _ _ => rfl, fun _ _ => rfl⟩ fun row choices s s' h => ?_
  obtain ⟨choice, response, -, hexec, hresult⟩ := Prog.exists_play_of_perform h
  simp only [Sqlite.exec] at hexec
  split at hexec
  · cases hexec
  · rcases state_of_answer hexec with ⟨-, error, rfl⟩ | ⟨-, value, hinserted, -⟩
    · cases hresult
    · cases hinserted
      exact List.mem_append_right _ List.mem_cons_self

theorem Postgres.records_insertAndCommit {message : String → String} :
    Records (Postgres.exec t) (fun s => s.database.usageEvents)
      (insertAndCommit input statusCode message) input statusCode := by
  rw [insertAndCommit_eq]
  refine records_bindColumns ⟨fun _ _ => rfl, fun _ _ => rfl⟩ fun row choices s s' h => ?_
  obtain ⟨error, hfailed, -⟩ | ⟨before, after, value, middle, -, hinsert, hcommit⟩ :=
    Prog.exists_play_of_seq h
  · cases hfailed
  · obtain ⟨choice, response, -, hexec, hresult⟩ := Prog.exists_play_of_perform hinsert
    obtain ⟨hexec, hwait⟩ := Postgres.exec_statement hexec
    rcases state_of_answer hexec with ⟨-, error, rfl⟩ | ⟨hfault, rows, hrun, -⟩
    · cases hresult
    · obtain ⟨writes, more, htx, -, hexecute, rfl⟩ := Postgres.runStatement_ok (hwait hfault) hrun
      cases hexecute
      obtain ⟨choice, response, -, hexec, hresult⟩ := Prog.exists_play_of_perform hcommit
      simp only [Postgres.exec, Postgres.withTx_self] at hexec
      cases hcommitted : choice.fault with
      | some error =>
          rw [hcommitted] at hexec
          cases hexec
          cases hresult
      | none =>
          rw [hcommitted] at hexec
          cases hexec
          exact mem_usageEvents_applyAll.mpr (.inr (List.mem_append_right _ List.mem_cons_self))

theorem Sqlite.records_insertAndCommit {message : String → String} :
    Records (Sqlite.exec t) (fun s => s.database.usageEvents)
      (insertAndCommit input statusCode message) input statusCode := by
  rw [insertAndCommit_eq]
  refine records_bindColumns ⟨fun _ _ => rfl, fun _ _ => rfl⟩ fun row choices s s' h => ?_
  obtain ⟨error, hfailed, -⟩ | ⟨before, after, value, middle, -, hinsert, hcommit⟩ :=
    Prog.exists_play_of_seq h
  · cases hfailed
  · obtain ⟨choice, response, -, hexec, hresult⟩ := Prog.exists_play_of_perform hinsert
    obtain ⟨hexec, -⟩ := Sqlite.exec_statement hexec
    rcases state_of_answer hexec with ⟨-, error, rfl⟩ | ⟨-, rows, hrun, -⟩
    · cases hresult
    · obtain ⟨tx, more, htx, -, hexecute, rfl⟩ := Sqlite.runStatement_ok hrun
      cases hexecute
      obtain ⟨choice, response, -, hexec, hresult⟩ := Prog.exists_play_of_perform hcommit
      simp only [Sqlite.exec, Sqlite.advance_self] at hexec
      cases hcommitted : choice.fault with
      | some error =>
          rw [hcommitted] at hexec
          cases hexec
          cases hresult
      | none =>
          rw [hcommitted] at hexec
          cases hexec
          exact mem_usageEvents_applyAll.mpr (.inr (List.mem_append_right _ List.mem_cons_self))

end Inserts

-- What the programs of the billing functions ask for.
section Programs

variable {backend : DatabaseBackend}

theorem asks_query {statement : Statement} {message : String → String}
    (h : Recording (.statement statement)) : (query statement message).run.Asks Recording :=
  Prog.asks_perform h

theorem asks_ensureWalletInTx (userId : Uuid) :
    (ensureWalletInTx backend userId).run.Asks Recording := by
  have hfetch : (fetchWallet backend userId).run.Asks Recording := asks_query trivial
  refine Prog.asks_seq hfetch fun found => ?_
  cases found with
  | some pair => trivial
  | none =>
      refine Prog.asks_seq (Prog.asks_perform trivial) fun walletId => ?_
      refine Prog.asks_seq (Prog.asks_perform trivial) fun now => ?_
      refine Prog.asks_seq (asks_query trivial) fun _ => ?_
      refine Prog.asks_seq hfetch fun found => ?_
      cases found <;> trivial

theorem asks_inTx {α : Type} {body : Sql α} (h : body.run.Asks Recording) :
    (inTx body).run.Asks Recording := Prog.asks_onError ⟨trivial, fun _ => trivial⟩ h

theorem asks_ensureWallet (userId : Uuid) : (ensureWallet backend userId).run.Asks Recording := by
  refine Prog.asks_seq (Prog.asks_perform trivial) fun _ => asks_inTx ?_
  refine Prog.asks_seq (asks_ensureWalletInTx userId) fun wallet => ?_
  exact Prog.asks_seq (Prog.asks_perform trivial) fun _ => trivial

theorem asks_bindColumns {input : BillingInput} {statusCode : UInt16}
    {execute : UsageEventRecord → Sql Unit}
    (h : ∀ row, Legible row → (execute row).run.Asks Recording) :
    (bindColumns input statusCode execute).run.Asks Recording := by
  refine Prog.asks_seq (Prog.asks_perform trivial) fun now => ?_
  refine Prog.asks_seq (Prog.asks_perform trivial) fun id => ?_
  cases hrow : usageEventRow input statusCode id now with
  | ok row => exact h row (legible_usageEventRow hrow)
  | error error => trivial

theorem asks_insertUsageEvent (input : BillingInput) (statusCode : UInt16) :
    (insertUsageEvent input statusCode).run.Asks Recording := by
  rw [insertUsageEvent_eq]
  exact asks_bindColumns fun _ hlegible => Prog.asks_perform hlegible

theorem asks_insertUsageEventTx (input : BillingInput) (statusCode : UInt16) :
    (insertUsageEventTx input statusCode).run.Asks Recording := by
  rw [insertUsageEventTx_eq]
  exact asks_bindColumns fun _ hlegible => asks_query hlegible

theorem asks_postEntry (wallet : WalletRow) (requestId : Option Uuid) (delta newBalance : Int64)
    (reason : String) : (postEntry wallet requestId delta newBalance reason).run.Asks
      Recording := by
  refine Prog.asks_seq (Prog.asks_perform trivial) fun now => ?_
  refine Prog.asks_seq (Prog.asks_perform trivial) fun id => ?_
  exact Prog.asks_seq (asks_query trivial) fun _ => asks_query trivial

theorem asks_recordUsage (input : BillingInput) :
    (recordUsage backend input).run.Asks Recording := by
  unfold recordUsage
  split
  · exact asks_insertUsageEvent input input.statusCode
  · split
    · exact asks_insertUsageEvent input input.statusCode
    · refine Prog.asks_seq (Prog.asks_perform trivial) fun _ => asks_inTx ?_
      refine Prog.asks_seq (asks_ensureWalletInTx input.userId) fun wallet => ?_
      split
      · exact Prog.asks_seq (asks_insertUsageEvent _ _) fun _ => trivial
      · refine Prog.asks_seq (asks_postEntry _ _ _ _ _) fun _ => ?_
        exact Prog.asks_seq (asks_insertUsageEventTx _ _) fun _ => Prog.asks_perform trivial

theorem asks_grantCredits (userId actorUserId : Uuid) (payload : GrantRequest) :
    (grantCredits backend userId actorUserId payload).run.Asks Recording := by
  unfold grantCredits
  split
  · trivial
  · refine Prog.asks_seq (Prog.asks_perform trivial) fun _ => ?_
    have hgrant : (grantCreditsTx backend userId payload).run.Asks Recording := by
      refine Prog.asks_seq (asks_ensureWalletInTx userId) fun wallet => ?_
      refine Prog.asks_seq (asks_postEntry _ _ _ _ _) fun _ => ?_
      exact Prog.asks_seq (Prog.asks_perform trivial) fun _ => trivial
    refine Prog.asks_seq (asks_inTx hgrant) fun granted => ?_
    have haudit : (recordAdminAudit actorUserId userId payload.amountMicrocredits
        (grantReason payload)).run.Asks Recording := by
      refine Prog.asks_seq (Prog.asks_perform trivial) fun createdAt => ?_
      exact Prog.asks_seq (Prog.asks_perform trivial) fun id => Prog.asks_perform trivial
    exact Prog.asks_seq haudit fun _ => trivial

theorem asks_code (jobs : Nat → Job) (t : Nat) : (code backend jobs t).Asks Recording := by
  unfold code Job.program
  cases jobs t with
  | grantCredits userId actorUserId payload =>
      exact Prog.asks_seq (asks_grantCredits userId actorUserId payload) fun _ => trivial
  | recordUsage input => exact Prog.asks_seq (asks_recordUsage input) fun _ => trivial
  | ensureSufficientCredit userId usage price =>
      refine Prog.asks_seq ?_ fun _ => trivial
      unfold ensureSufficientCredit
      split
      · trivial
      · refine Prog.asks_seq (asks_ensureWallet userId) fun wallet => ?_
        split <;> trivial
  | ensureWallet userId => exact Prog.asks_seq (asks_ensureWallet userId) fun _ => trivial
  | getWallet userId =>
      refine Prog.asks_seq ?_ fun _ => trivial
      exact Prog.asks_seq (asks_ensureWallet userId) fun _ => trivial

end Programs

end Billing

end Mizan
