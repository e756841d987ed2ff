import Mizan.Billing.Session
import Mizan.Interleaving.Deadlock
import Mizan.Interleaving.Typestate

namespace Mizan.Billing

open Interleaving

-- The connections of the pool and the locks behind them, as far as a call can wait for them.
structure Pooled where
  database : Database
  txs : Nat → Option (List Write)
  -- The calls whose transaction has a connection.
  connections : List Nat
  -- PostgreSQL: whose FOR UPDATE or uncommitted insert locks the wallet of a user.
  walletLocks : Uuid → Option Nat
  -- SQLite: the transactions that hold SHARED, and the one that holds RESERVED.
  readers : List Nat
  writer : Option Nat

namespace Pooled

def start (database : Database) : Pooled :=
  { database, txs := fun _ => none, connections := [], walletLocks := fun _ => none, readers := [],
    writer := none }

def DATABASE_LOCKED : String := "database is locked"

def view (s : Pooled) (writes : List Write) : Accounts := s.database.accounts.applyAll writes

def walletSeen (s : Pooled) (t : Nat) (owner : Uuid) : Option WalletRecord :=
  (s.txs t).bind fun writes => (s.view writes).walletOf owner

def openTx (s : Pooled) (t : Nat) : Pooled :=
  { s with txs := Function.update s.txs t (some []), connections := s.connections ++ [t] }

def close (s : Pooled) (t : Nat) : Pooled :=
  { s with
    txs := Function.update s.txs t none
    connections := s.connections.filter fun u => u ≠ t
    walletLocks := fun owner => (s.walletLocks owner).filter fun u => u ≠ t
    readers := s.readers.filter fun u => u ≠ t
    writer := s.writer.filter fun u => u ≠ t }

-- The wallet that a statement locks under PostgreSQL. The update of a balance finds its row
-- locked by the statement that has read it.
def locksWallet (s : Pooled) (t : Nat) : Statement → Option Uuid
  | .selectWallet owner true => if (s.walletSeen t owner).isSome then some owner else none
  | .insertWallet row =>
      if (s.walletSeen t row.ownerUserId).isNone then some row.ownerUserId else none
  | _ => none

def lock (s : Pooled) (backend : DatabaseBackend) (t : Nat) (statement : Statement) : Pooled :=
  match backend with
  | .postgres =>
      match s.locksWallet t statement with
      | some owner => { s with walletLocks := Function.update s.walletLocks owner (some t) }
      | none => s
  | .sqlite =>
      { s with
        readers := t :: s.readers
        writer := if statement.reads then s.writer else some t }

section Lock

variable {s : Pooled} {backend : DatabaseBackend} {t u : Nat} {statement : Statement}

@[simp] theorem connections_lock : (s.lock backend t statement).connections = s.connections := by
  unfold lock
  cases backend with
  | sqlite => rfl
  | postgres => cases s.locksWallet t statement <;> rfl

@[simp] theorem database_lock : (s.lock backend t statement).database = s.database := by
  unfold lock
  cases backend with
  | sqlite => rfl
  | postgres => cases s.locksWallet t statement <;> rfl

theorem walletLocks_lock {owner : Uuid}
    (h : (s.lock backend t statement).walletLocks owner = some u) :
    s.walletLocks owner = some u ∨ u = t ∧ s.locksWallet t statement = some owner := by
  unfold lock at h
  cases backend with
  | sqlite => exact .inl h
  | postgres =>
      cases hlocks : s.locksWallet t statement with
      | none =>
          rw [hlocks] at h
          exact .inl h
      | some owner' =>
          simp only [hlocks] at h
          by_cases heq : owner = owner'
          · subst heq
            rw [Function.update_self] at h
            exact .inr ⟨(Option.some.inj h).symm, rfl⟩
          · rw [Function.update_of_ne heq] at h
            exact .inl h

theorem mem_readers_lock (h : u ∈ (s.lock backend t statement).readers) :
    u ∈ s.readers ∨ u = t := by
  unfold lock at h
  cases backend with
  | sqlite => exact (List.mem_cons.mp h).symm
  | postgres => cases hlocks : s.locksWallet t statement <;> simp [hlocks] at h <;> exact .inl h

theorem writer_lock (h : (s.lock backend t statement).writer = some u) :
    s.writer = some u ∨ u = t := by
  unfold lock at h
  cases backend with
  | sqlite =>
      simp only at h
      split at h
      · exact .inl h
      · exact .inr (Option.some.inj h).symm
  | postgres => cases hlocks : s.locksWallet t statement <;> simp [hlocks] at h <;> exact .inl h

end Lock

-- In rollback-journal mode a transaction that has read does not wait for RESERVED: SQLite gives
-- it up, since two such transactions could wait for each other.
def refused (s : Pooled) (backend : DatabaseBackend) (t : Nat) (statement : Statement) : Bool :=
  match backend with
  | .postgres => false
  | .sqlite => !statement.reads && s.writer.any fun u => u ≠ t

def runStatement (s : Pooled) (backend : DatabaseBackend) (t : Nat) (statement : Statement) :
    Except String (statement.Rows × Pooled) :=
  match s.txs t with
  | none => .error Session.NO_TRANSACTION
  | some writes =>
      if s.refused backend t statement then .error DATABASE_LOCKED
      else
        (statement.execute (s.view writes)).map fun (rows, more) =>
          (rows, { s.lock backend t statement with
            txs := Function.update s.txs t (some (writes ++ more)) })

def commit (s : Pooled) (t : Nat) : Except String (Unit × Pooled) :=
  match s.txs t with
  | none => .error Session.NO_TRANSACTION
  | some writes => .ok ((), { s.close t with database := s.database.applyAll writes })

-- A free connection, which any of its holders can give back.
def connectionWait (maxConnections : Nat) (s : Pooled) : List (List Nat) :=
  if maxConnections ≤ s.connections.length then [s.connections] else []

-- What a command lacks. A write of SQLite in rollback-journal mode cannot be committed before
-- every other transaction that has read or written is over.
def waitsFor (backend : DatabaseBackend) (maxConnections : Nat) (t : Nat) :
    SqlCommand → Pooled → List (List Nat)
  | .begin, s => connectionWait maxConnections s
  | .statement statement, s =>
      match backend with
      | .sqlite => []
      | .postgres =>
          ((s.locksWallet t statement).bind fun owner =>
            (s.walletLocks owner).filter fun u => u ≠ t).toList.map fun u => [u]
  | .commit, s =>
      match backend with
      | .sqlite =>
          if s.writer = some t then (s.readers.filter fun u => u ≠ t).map fun u => [u] else []
      | .postgres => []
  | .insertUsageEvent _, s | .insertAdminAudit _, s =>
      connectionWait maxConnections s ++
        match backend with
        | .sqlite => (s.readers ++ s.writer.toList).map fun u => [u]
        | .postgres => []
  | .rollback, _ | .nowV7, _ | .unixTimestampString, _ => []

-- The INSERT through the pool takes its connection and gives it back in one step.
def run (backend : DatabaseBackend) (t : Nat) :
    (c : SqlCommand) → SqlChoice → Pooled → c.Response × Pooled
  | .begin, choice, s => answer choice (.ok ((), s.openTx t)) s
  | .statement statement, choice, s => answer choice (s.runStatement backend t statement) s
  | .commit, choice, s => answer choice (s.commit t) s
  | .rollback, _, s => ((), s.close t)
  | .insertUsageEvent row, choice, s =>
      answer choice (.ok ((), { s with database := s.database.apply (.usageEvent row) })) s
  | .insertAdminAudit row, choice, s =>
      answer choice (.ok ((), { s with database := s.database.apply (.adminAudit row) })) s
  | .nowV7, choice, s => (choice.uuid, s)
  | .unixTimestampString, choice, s => (choice.timestamp, s)

-- A wait that a fault ends has run out of time.
def system (backend : DatabaseBackend) (maxConnections : Nat) :
    System SqlCommand SqlCommand.Response SqlChoice Pooled where
  exec t c choice s :=
    if choice.fault = none ∧ waitsFor backend maxConnections t c s ≠ [] then none
    else some (run backend t c choice s)
  env _ _ := none

end Pooled

-- How far a call of `record_usage` is: whether its transaction is open, whether the balance it
-- has read is below its charge, whether the event that says so is stored, and whether an INSERT
-- through the pool has failed.
structure CallPhase where
  opened : Bool := false
  short : Bool := false
  recorded : Bool := false
  failed : Bool := false
  deriving DecidableEq, Repr

def chargeOf (input : BillingInput) : Int64 := (usageCharge input.usage input.routePrice).total

def isPaymentRequired (input : BillingInput) (row : UsageEventRecord) : Bool :=
  row.statusCode = 402 && row.requestId = input.requestId.toString

def recordUsageTypestate (input : BillingInput) :
    Typestate SqlCommand SqlCommand.Response CallPhase where
  enabled p
    | .begin => p = {}
    | .statement statement => p = { opened := true } ∧
        (∀ owner forUpdate, statement = .selectWallet owner forUpdate → owner = input.userId) ∧
        ∀ row, statement = .insertWallet row → row.ownerUserId = input.userId
    | .commit => p = { opened := true }
    | .rollback => p.opened = true
    | .insertUsageEvent row => p = {} ∨
        p = { opened := true, short := true } ∧ isPaymentRequired input row = true
    | .insertAdminAudit _ => False
    | .nowV7 | .unixTimestampString => True
  after p
    | .begin, response =>
        match (response : Except String Unit) with
        | .ok _ => { p with opened := true }
        | .error _ => p
    | .statement (.selectWallet ..), response =>
        match (response : Except String (Option (Uuid × Int64))) with
        | .ok (some (_, balance)) => { p with short := balance < chargeOf input }
        | _ => p
    | .commit, response =>
        match (response : Except String Unit) with
        | .ok _ => { p with opened := false }
        | .error _ => p
    | .rollback, _ => { p with opened := false }
    | .insertUsageEvent row, response =>
        match (response : Except String Unit) with
        | .ok _ => { p with recorded := isPaymentRequired input row }
        | .error _ => { p with failed := true }
    | _, _ => p

-- The counts of the call fit the columns of `usage_events`.
structure BillingInput.Fits (input : BillingInput) : Prop where
  promptTokens : input.usage.promptTokens.toNat < 2 ^ 63
  completionTokens : input.usage.completionTokens.toNat < 2 ^ 63
  totalTokens : input.usage.totalTokens.toNat < 2 ^ 63
  latencyMs : input.latencyMs.toNat < 2 ^ 63

-- How a call ends: with its connection given back, and a call that could not pay and stored the
-- event says so.
def Ended (input : BillingInput) (p : CallPhase) (result : Except AppError Unit) : Prop :=
  p.opened = false ∧ (p.short = true → p.failed = false → input.Fits →
    p.recorded = true ∧ result = .error .insufficientCredit)

-- Where the read of the wallet leaves a call whose transaction is open.
def phaseOf (input : BillingInput) (balance : Int64) : CallPhase :=
  { opened := true, short := balance < chargeOf input }

def fetchedPhase (input : BillingInput) : Option (Uuid × Int64) → CallPhase
  | none => { opened := true }
  | some (_, balance) => phaseOf input balance

section Calls

variable {input : BillingInput} {backend : DatabaseBackend} {p : CallPhase}
  {failed : CallPhase → AppError → Prop}

theorem respects_nowV7 : (recordUsageTypestate input).Respects
    (Typestate.outcome (fun p' _ => p' = p) failed) nowV7.run p :=
  Typestate.respects_perform trivial fun _ => rfl

theorem respects_unixTimestampString : (recordUsageTypestate input).Respects
    (Typestate.outcome (fun p' _ => p' = p) failed) unixTimestampString.run p :=
  Typestate.respects_perform trivial fun _ => rfl

-- A statement that is not the read of the wallet leaves the call where it is.
theorem respects_query {statement : Statement} {message : String → String}
    (hread : statement.reads = false)
    (howner : ∀ row, statement = .insertWallet row → row.ownerUserId = input.userId)
    (hfailed : ∀ error, failed { opened := true } error) :
    (recordUsageTypestate input).Respects
      (Typestate.outcome (fun p _ => p = { opened := true }) failed)
      (query statement message).run { opened := true } := by
  refine Typestate.respects_perform ⟨rfl, fun owner forUpdate heq => ?_, howner⟩ fun response => ?_
  · subst heq
    cases hread
  · have hafter : (recordUsageTypestate input).after { opened := true } (.statement statement)
        response = { opened := true } := by
      cases statement with
      | selectWallet owner forUpdate => cases hread
      | insertWallet | insertLedger | updateBalance | insertUsageEvent => rfl
    rw [hafter]
    cases response with
    | ok rows => rfl
    | error error => exact hfailed _

theorem respects_fetchWallet (hfailed : ∀ error, failed { opened := true } error) :
    (recordUsageTypestate input).Respects
      (Typestate.outcome (fun p rows => p = fetchedPhase input rows) failed)
      (fetchWallet backend input.userId).run { opened := true } := by
  refine Typestate.respects_perform ⟨rfl, fun owner forUpdate heq => ?_, fun row heq => ?_⟩
    fun response => ?_
  · cases heq
    rfl
  · cases heq
  · cases response with
    | error error => exact hfailed _
    | ok rows => cases rows <;> rfl

theorem respects_ensureWalletInTx (hfailed : ∀ error, failed { opened := true } error) :
    (recordUsageTypestate input).Respects
      (Typestate.outcome (fun p wallet => p = phaseOf input wallet.balanceMicrocredits) failed)
      (ensureWalletInTx backend input.userId).run { opened := true } := by
  rw [ensureWalletInTx]
  refine Typestate.respects_seq (respects_fetchWallet hfailed) fun p rows hp => ?_
  subst hp
  cases rows with
  | some pair => exact Typestate.respects_pure rfl
  | none =>
      refine Typestate.respects_seq respects_nowV7 fun p walletId hp => ?_
      subst hp
      refine Typestate.respects_seq respects_unixTimestampString fun p now hp => ?_
      subst hp
      refine Typestate.respects_seq (respects_query rfl (fun row heq => ?_) hfailed)
        fun p _ hp => ?_
      · cases heq
        rfl
      · subst hp
        refine Typestate.respects_seq (respects_fetchWallet hfailed) fun p rows hp => ?_
        subst hp
        cases rows with
        | none => exact Typestate.respects_throw (hfailed _)
        | some pair => exact Typestate.respects_pure rfl

theorem usageEventRow_columns {event : BillingInput} {statusCode : UInt16} {id : Uuid}
    {now : String} {row : UsageEventRecord} (h : usageEventRow event statusCode id now = .ok row) :
    row.statusCode = Int64.ofNat statusCode.toNat ∧ row.requestId = event.requestId.toString := by
  simp only [usageEventRow, bind, Except.bind] at h
  split at h
  · cases h
  · split at h
    · cases h
    · split at h
      · cases h
      · split at h
        · cases h
        · cases h
          exact ⟨rfl, rfl⟩

theorem usageEventRow_error_of_fits {event : BillingInput} {statusCode : UInt16} {id : Uuid}
    {now : String} {error : AppError} (h : usageEventRow event statusCode id now = .error error) :
    ¬event.Fits := by
  intro hfits
  obtain ⟨row, hrow⟩ := usageEventRow_ok event hfits.promptTokens hfits.completionTokens
    hfits.totalTokens hfits.latencyMs statusCode id now
  rw [hrow] at h
  cases h

-- A statement that needs a row of `usage_events` is issued only where the columns fit.
theorem respects_usageEventRow {α : Type} {event : BillingInput} {statusCode : UInt16}
    {rest : UsageEventRecord → Sql α} {final : CallPhase → α → Prop}
    (hrow : ∀ id now row, usageEventRow event statusCode id now = .ok row →
      (recordUsageTypestate input).Respects (Typestate.outcome final failed) (rest row).run p)
    (hfailed : ¬event.Fits → ∀ error, failed p error) :
    (recordUsageTypestate input).Respects (Typestate.outcome final failed)
      (do
        let now ← unixTimestampString
        let id ← nowV7
        let row ← ExceptT.mk (pure (usageEventRow event statusCode id now))
        rest row : Sql α).run p := by
  refine Typestate.respects_seq respects_unixTimestampString fun p' now hp => ?_
  subst hp
  refine Typestate.respects_seq respects_nowV7 fun p' id hp => ?_
  subst hp
  cases hevent : usageEventRow event statusCode id now with
  | ok row => exact hrow id now row hevent
  | error error => exact hfailed (usageEventRow_error_of_fits hevent) error

theorem respects_executeUsageEvent {row : UsageEventRecord} {message : String → String}
    {final : CallPhase → Unit → Prop}
    (henabled : (recordUsageTypestate input).enabled p (.insertUsageEvent row))
    (hok : final { p with recorded := isPaymentRequired input row } ())
    (hfailed : ∀ error, failed { p with failed := true } error) :
    (recordUsageTypestate input).Respects (Typestate.outcome final failed)
      (executeUsageEvent row message).run p := by
  refine Typestate.respects_perform henabled fun response => ?_
  cases response with
  | ok value => exact hok
  | error error => exact hfailed _

def Unopened (p : CallPhase) : Prop := p.opened = false ∧ p.short = false

theorem Unopened.ended {result : Except AppError Unit} (h : Unopened p) : Ended input p result :=
  ⟨h.1, fun hshort => by simp [h.2] at hshort⟩

-- A call that opens no transaction.
theorem respects_insertUsageEvent (event : BillingInput) (statusCode : UInt16) :
    (recordUsageTypestate input).Respects (Ended input) (insertUsageEvent event statusCode).run
      {} := by
  have hrow : (recordUsageTypestate input).Respects
      (Typestate.outcome (fun p _ => Unopened p) fun p _ => Unopened p)
      (insertUsageEvent event statusCode).run {} :=
    respects_usageEventRow (fun id now row _ => respects_executeUsageEvent (.inl rfl) ⟨rfl, rfl⟩
      fun _ => ⟨rfl, rfl⟩) fun _ _ => ⟨rfl, rfl⟩
  refine Typestate.respects_mono (fun p result hresult => ?_) hrow
  cases result <;> exact Unopened.ended hresult

-- What the transaction of a call leaves behind where it stops with an error: it is open, and a
-- call that could not pay has stored the event that says so unless its INSERT has failed.
def Stopped (input : BillingInput) (p : CallPhase) (error : AppError) : Prop :=
  p.opened = true ∧ (p.short = true → p.failed = false → input.Fits →
    p.recorded = true ∧ error = .insufficientCredit)

theorem stopped_opened (error : AppError) : Stopped input { opened := true } error :=
  ⟨rfl, fun hshort => by cases hshort⟩

theorem respects_postEntry (wallet : WalletRow) (requestId : Option Uuid)
    (delta newBalance : Int64) (reason : String) :
    (recordUsageTypestate input).Respects
      (Typestate.outcome (fun p _ => p = { opened := true }) (Stopped input))
      (postEntry wallet requestId delta newBalance reason).run { opened := true } := by
  rw [postEntry]
  refine Typestate.respects_seq respects_unixTimestampString fun p now hp => ?_
  subst hp
  refine Typestate.respects_seq respects_nowV7 fun p id hp => ?_
  subst hp
  refine Typestate.respects_seq (respects_query rfl (fun row heq => by cases heq) stopped_opened)
    fun p _ hp => ?_
  subst hp
  exact respects_query rfl (fun row heq => by cases heq) stopped_opened

theorem respects_insertUsageEventTx (event : BillingInput) (statusCode : UInt16) :
    (recordUsageTypestate input).Respects
      (Typestate.outcome (fun p _ => p = { opened := true }) (Stopped input))
      (insertUsageEventTx event statusCode).run { opened := true } :=
  respects_usageEventRow
    (fun id now row _ => respects_query rfl (fun row heq => by cases heq) stopped_opened)
    fun _ => stopped_opened

theorem respects_commitTx (message : String → String) :
    (recordUsageTypestate input).Respects
      (Typestate.outcome (fun p _ => Unopened p) (Stopped input)) (commitTx message).run
      { opened := true } := by
  refine Typestate.respects_perform rfl fun response => ?_
  cases response with
  | ok value => exact ⟨rfl, rfl⟩
  | error error => exact stopped_opened _

-- The branch of a call that cannot pay: its transaction is still open when it stores the event.
theorem respects_insufficientCredit :
    (recordUsageTypestate input).Respects
      (Typestate.outcome (fun p _ => Unopened p) (Stopped input))
      (do
        insertUsageEvent { input with statusCode := PAYMENT_REQUIRED } PAYMENT_REQUIRED
        throw .insufficientCredit : Sql Unit).run { opened := true, short := true } := by
  have hinsert : (recordUsageTypestate input).Respects
      (Typestate.outcome (fun p _ => p = { opened := true, short := true, recorded := true })
        (Stopped input))
      (insertUsageEvent { input with statusCode := PAYMENT_REQUIRED } PAYMENT_REQUIRED).run
      { opened := true, short := true } := by
    refine respects_usageEventRow (fun id now row hrow => ?_) fun hunfit error => ?_
    · obtain ⟨hstatus, hrequest⟩ := usageEventRow_columns hrow
      have hpayment : isPaymentRequired input row = true := by
        simp only [isPaymentRequired, hstatus, hrequest, decide_true, Bool.and_true]
        decide
      refine respects_executeUsageEvent (.inr ⟨rfl, hpayment⟩) (by simp [hpayment]) fun _ => ?_
      exact ⟨rfl, fun _ hfailed => by cases hfailed⟩
    · refine ⟨rfl, fun _ _ hfits => absurd ?_ hunfit⟩
      exact ⟨hfits.promptTokens, hfits.completionTokens, hfits.totalTokens, hfits.latencyMs⟩
  refine Typestate.respects_seq hinsert fun p _ hp => ?_
  subst hp
  exact Typestate.respects_throw ⟨rfl, fun _ _ _ => ⟨rfl, rfl⟩⟩

theorem respects_recordUsageTx :
    (recordUsageTypestate input).Respects
      (Typestate.outcome (fun p _ => Unopened p) (Stopped input))
      (recordUsageTx backend input (chargeOf input)).run { opened := true } := by
  rw [recordUsageTx]
  refine Typestate.respects_seq (respects_ensureWalletInTx stopped_opened) fun p wallet hp => ?_
  subst hp
  by_cases hshort : wallet.balanceMicrocredits < chargeOf input
  · rw [phaseOf, decide_eq_true hshort, if_pos hshort]
    exact respects_insufficientCredit
  · rw [phaseOf, decide_eq_false hshort, if_neg hshort]
    refine Typestate.respects_seq (respects_postEntry _ _ _ _ _) fun p _ hp => ?_
    subst hp
    refine Typestate.respects_seq (respects_insertUsageEventTx _ _) fun p _ hp => ?_
    subst hp
    exact respects_commitTx _

-- A call gives its connection back on every way out.
theorem respects_recordUsage (backend : DatabaseBackend) (input : BillingInput) :
    (recordUsageTypestate input).Respects (Ended input) (recordUsage backend input).run {} := by
  rw [recordUsage]
  split
  · exact respects_insertUsageEvent _ _
  · split
    · exact respects_insertUsageEvent _ _
    · have hcall : (recordUsageTypestate input).Respects
          (Typestate.outcome (fun p _ => Unopened p) fun p error => Ended input p (.error error))
          (do
            beginTx fun error => s!"cannot open transaction for metering: {error}"
            inTx (recordUsageTx backend input (usageCharge input.usage input.routePrice).total) :
              Sql Unit).run {} := by
        have hbegin : (recordUsageTypestate input).Respects
            (Typestate.outcome (fun p _ => p = { opened := true })
              fun p error => Ended input p (.error error))
            (beginTx fun error => s!"cannot open transaction for metering: {error}").run {} := by
          refine Typestate.respects_perform rfl fun response => ?_
          cases response with
          | ok value => rfl
          | error error => exact Unopened.ended ⟨rfl, rfl⟩
        refine Typestate.respects_seq hbegin fun p _ hp => ?_
        subst hp
        refine Typestate.respects_onError respects_recordUsageTx fun p error hstopped => ?_
        refine ⟨hstopped.1, fun response => ⟨rfl, fun hshort hfailed hfits => ?_⟩⟩
        obtain ⟨hrecorded, rfl⟩ := hstopped.2 hshort hfailed hfits
        exact ⟨hrecorded, rfl⟩
      refine Typestate.respects_mono (fun p result hresult => ?_) hcall
      cases result with
      | ok value => exact Unopened.ended hresult
      | error error => exact hresult

end Calls

end Mizan.Billing
