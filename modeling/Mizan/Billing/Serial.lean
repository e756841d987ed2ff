import Mizan.Billing.Session

namespace Mizan.Billing

open Interleaving

namespace Session

def Faultless (choice : SqlChoice) : Prop := choice.fault = none

-- Some ids and times, and no failure, take the program alone from one session to another.
abbrev Returns {α : Type} (program : Sql α) (s : Session) (result : Except AppError α)
    (s' : Session) : Prop :=
  Prog.Returns (system.exec 0) Faultless program.run s result s'

abbrev Runs {α : Type} (program : Sql α) (s : Session) (value : α) (s' : Session) : Prop :=
  Returns program s (.ok value) s'

variable {α : Type} {s s' : Session} {database : Database} {writes : List Write}
  {message : String → String} {backend : DatabaseBackend}

def NO_FAULT : SqlChoice := {}

theorem runs_bind {β : Type} {program : Sql α} {rest : α → Sql β} {value : α}
    {result : Except AppError β} {s'' : Session} (h : Runs program s value s')
    (hrest : Returns (rest value) s' result s'') :
    Returns (program >>= rest) s result s'' := Prog.returns_except_bind h hrest

theorem runs_pure (value : α) (s : Session) : Runs (pure value) s value s :=
  Prog.returns_pure value s

theorem runs_perform {c : SqlCommand} {result : c.Response → Except AppError α}
    {choice : SqlChoice} {response : c.Response} {value : α}
    (hexec : system.exec 0 c choice s = some (response, s')) (hfaultless : choice.fault = none)
    (hresult : result response = .ok value) : Runs (Prog.perform c result) s value s' :=
  Prog.returns_perform hfaultless hexec hresult

theorem runs_beginTx (s : Session) : Runs (beginTx message) s () { s with tx := some [] } := by
  have hexec : system.exec 0 .begin NO_FAULT s = some (.ok (), { s with tx := some [] }) := rfl
  exact runs_perform hexec rfl rfl

theorem runs_nowV7 (id : Uuid) (s : Session) : Runs nowV7 s id s := by
  have hexec : system.exec 0 .nowV7 { uuid := id } s = some (id, s) := rfl
  exact runs_perform hexec rfl rfl

theorem runs_unixTimestampString (now : String) (s : Session) :
    Runs unixTimestampString s now s := by
  have hexec : system.exec 0 .unixTimestampString { timestamp := now } s = some (now, s) := rfl
  exact runs_perform hexec rfl rfl

theorem runs_query {statement : Statement} {rows : statement.Rows} {more after : List Write}
    (hexecute : statement.execute (database.accounts.applyAll writes) = .ok (rows, more))
    (hafter : writes ++ more = after) :
    Runs (query statement message) { database, tx := some writes } rows
      { database, tx := some after } := by
  have hexec : system.exec 0 (.statement statement) NO_FAULT { database, tx := some writes } =
      some (.ok rows, { database, tx := some after }) := by
    simp only [system, exec, answer, NO_FAULT, runStatement, hexecute, Except.map, hafter]
    rfl
  exact runs_perform hexec rfl rfl

theorem runs_executeUsageEvent (row : UsageEventRecord) (s : Session) :
    Runs (executeUsageEvent row message) s ()
      { s with database := s.database.apply (.usageEvent row) } := by
  have hexec : system.exec 0 (.insertUsageEvent row) NO_FAULT s =
      some (.ok (), { s with database := s.database.apply (.usageEvent row) }) := rfl
  exact runs_perform hexec rfl rfl

theorem runs_executeAdminAudit (row : AdminAuditRecord) (s : Session) :
    Runs (executeAdminAudit row) s ()
      { s with database := s.database.apply (.adminAudit row) } := by
  have hexec : system.exec 0 (.insertAdminAudit row) NO_FAULT s =
      some (.ok (), { s with database := s.database.apply (.adminAudit row) }) := rfl
  exact runs_perform hexec rfl rfl

theorem runs_commitTx :
    Runs (commitTx message) { database, tx := some writes } ()
      (idle (database.applyAll writes)) := by
  have hexec : system.exec 0 .commit NO_FAULT { database, tx := some writes } =
      some (.ok (), idle (database.applyAll writes)) := rfl
  exact runs_perform hexec rfl rfl

theorem runs_inTx {body : Sql α} {value : α} (h : Runs body s value s') :
    Runs (inTx body) s value s' := Prog.returns_onError h

theorem runs_fetchWallet {userId : Uuid} :
    Runs (fetchWallet backend userId) { database, tx := some writes }
      (((database.accounts.applyAll writes).walletOf userId).map fun row =>
        (row.id, row.balanceMicrocredits))
      { database, tx := some writes } := by
  exact runs_query rfl (List.append_nil writes)

theorem runs_ensureWalletInTx {userId : Uuid} {wallet : WalletRecord} {opening : List Write}
    (h : Prepared userId database.accounts wallet opening) :
    Runs (ensureWalletInTx backend userId) { database, tx := some [] } (.ofRecord wallet)
      { database, tx := some opening } := by
  have howner := h.owner
  have hview := h.walletOf
  refine runs_bind runs_fetchWallet ?_
  cases h with
  | found hwallet =>
      simp only [Accounts.applyAll_nil, hwallet, Option.map_some]
      rw [← howner]
      exact runs_pure _ _
  | @opened id now hnone hid =>
      simp only [Accounts.applyAll_nil, hnone, Option.map_none]
      refine runs_bind (runs_nowV7 id _) (runs_bind (runs_unixTimestampString now _) ?_)
      have hexecute : (Statement.insertWallet (openedWallet userId id now)).execute
          (database.accounts.applyAll []) = .ok ((), [.wallet (openedWallet userId id now)]) := by
        simp [Statement.execute, openedWallet, hnone, hid]
      refine runs_bind (runs_query hexecute rfl) (runs_bind runs_fetchWallet ?_)
      simp only [List.nil_append, hview, Option.map_some]
      exact runs_pure _ _

theorem runs_postEntry {wallet : WalletRow} {requestId : Option Uuid} {delta newBalance : Int64}
    {reason : String} (id : Uuid) (now : String)
    (hwallet : (database.accounts.applyAll writes).hasWalletId wallet.id = true) :
    Runs (postEntry wallet requestId delta newBalance reason) { database, tx := some writes } ()
      { database, tx := some (writes ++
          entryWrites wallet requestId delta newBalance reason id now) } := by
  refine runs_bind (runs_unixTimestampString now _) (runs_bind (runs_nowV7 id _) ?_)
  have hledger : (Statement.insertLedger (entryRow wallet requestId delta newBalance reason id
      now)).execute (database.accounts.applyAll writes) =
        .ok ((), [.ledger (entryRow wallet requestId delta newBalance reason id now)]) := rfl
  refine runs_bind (runs_query hledger rfl) ?_
  have hid : (database.accounts.applyAll (writes ++
      [.ledger (entryRow wallet requestId delta newBalance reason id now)])).hasWalletId
        wallet.id = true := by
    rw [Accounts.applyAll_append]
    exact hasWalletId_applyAll hwallet _
  have hbalance : (Statement.updateBalance wallet.id newBalance now).execute
      (database.accounts.applyAll (writes ++
        [.ledger (entryRow wallet requestId delta newBalance reason id now)])) =
      .ok ((), [.balance wallet.id newBalance now]) := by
    simp only [Statement.execute, hid, if_true]
  exact runs_query hbalance (List.append_assoc _ _ _)

theorem runs_recordAdminAudit {actorUserId userId : Uuid} {amount : Int64} {reason : String}
    (s : Session) : ∃ row, Runs (recordAdminAudit actorUserId userId amount reason) s ()
      { s with database := s.database.apply (.adminAudit row) } :=
  ⟨_, runs_bind (runs_unixTimestampString "0" s) (runs_bind (runs_nowV7 ⟨0⟩ s)
    (runs_executeAdminAudit _ s))⟩

theorem runs_insertUsageEvent {input : BillingInput} {statusCode : UInt16} {id : Uuid}
    {now : String} {event : UsageEventRecord}
    (hevent : usageEventRow input statusCode id now = .ok event) (s : Session) :
    Runs (insertUsageEvent input statusCode) s ()
      { s with database := s.database.apply (.usageEvent event) } := by
  refine runs_bind (runs_unixTimestampString now _) (runs_bind (runs_nowV7 id _) ?_)
  rw [hevent]
  exact runs_bind (runs_pure event _) (runs_executeUsageEvent event s)

theorem runs_insertUsageEventTx {input : BillingInput} {statusCode : UInt16} {id : Uuid}
    {now : String} {event : UsageEventRecord}
    (hevent : usageEventRow input statusCode id now = .ok event) :
    Runs (insertUsageEventTx input statusCode) { database, tx := some writes } ()
      { database, tx := some (writes ++ [.usageEvent event]) } := by
  refine runs_bind (runs_unixTimestampString now _) (runs_bind (runs_nowV7 id _) ?_)
  rw [hevent]
  have hexecute : (Statement.insertUsageEvent event).execute
      (database.accounts.applyAll writes) = .ok ((), [.usageEvent event]) := rfl
  exact runs_bind (runs_pure event _) (runs_query hexecute rfl)

end Session

-- The job run alone on `accounts`, with no command failing, leaves `accounts'`.
def SerialStep (backend : DatabaseBackend) (job : Job) (accounts accounts' : Accounts) : Prop :=
  ∃ choices result s, (∀ choice ∈ choices, choice.fault = none) ∧
    Session.call backend job choices (.ofAccounts accounts) = some (result, s) ∧
    s.database.accounts = accounts'

section SerialStep

open Session

variable {backend : DatabaseBackend} {job : Job} {accounts accounts' : Accounts}
  {wallet : WalletRecord} {opening : List Write}

theorem serialStep_of_returns {result : Except AppError JobResult} {s : Session}
    (h : Returns (job.program backend) (idle (.ofAccounts accounts)) result s)
    (haccounts : s.database.accounts = accounts') : SerialStep backend job accounts accounts' := by
  obtain ⟨choices, hfaultless, hplay⟩ := h
  exact ⟨choices, result, s, hfaultless, hplay, haccounts⟩

theorem runs_ensureWallet {userId : Uuid} (h : Prepared userId accounts wallet opening) :
    Runs (ensureWallet backend userId) (idle (.ofAccounts accounts)) (.ofRecord wallet)
      (idle ((Database.ofAccounts accounts).applyAll opening)) :=
  runs_bind (runs_beginTx _) (runs_inTx (runs_bind (runs_ensureWalletInTx h)
    (runs_bind runs_commitTx (runs_pure _ _))))

theorem hasWalletId_prepared {userId : Uuid} (h : Prepared userId accounts wallet opening) :
    (accounts.applyAll opening).hasWalletId wallet.id = true :=
  (Accounts.hasWalletId_iff _).mpr ⟨wallet, h.mem, rfl⟩

theorem runs_grantCreditsTx {userId : Uuid} {payload : GrantRequest} (id : Uuid) (now : String)
    (h : Prepared userId accounts wallet opening) :
    Runs (grantCreditsTx backend userId payload)
      { database := .ofAccounts accounts, tx := some [] }
      (.ofRecord wallet, saturatingAdd wallet.balanceMicrocredits payload.amountMicrocredits)
      (idle ((Database.ofAccounts accounts).applyAll (opening ++
        entryWrites (.ofRecord wallet) none payload.amountMicrocredits
          (saturatingAdd wallet.balanceMicrocredits payload.amountMicrocredits)
          (grantReason payload) id now))) :=
  runs_bind (runs_ensureWalletInTx h) (runs_bind (runs_postEntry id now (hasWalletId_prepared h))
    (runs_bind runs_commitTx (runs_pure _ _)))

theorem runs_recordUsageTx {input : BillingInput} {charge : Int64} {event : UsageEventRecord}
    {eventId : Uuid} {eventNow : String} (id : Uuid) (now : String)
    (h : Prepared input.userId accounts wallet opening)
    (hbalance : ¬(WalletRow.ofRecord wallet).balanceMicrocredits < charge)
    (hevent : usageEventRow input input.statusCode eventId eventNow = .ok event) :
    Runs (recordUsageTx backend input charge) { database := .ofAccounts accounts, tx := some [] } ()
      (idle ((Database.ofAccounts accounts).applyAll (opening ++
        entryWrites (.ofRecord wallet) (some input.requestId) (-charge)
          (wallet.balanceMicrocredits - charge) USAGE_CHARGE_REASON id now ++
        [.usageEvent event]))) := by
  refine runs_bind (runs_ensureWalletInTx h) ?_
  rw [if_neg hbalance]
  exact runs_bind (runs_postEntry id now (hasWalletId_prepared h))
    (runs_bind (runs_insertUsageEventTx hevent) runs_commitTx)

theorem runs_grantCredits {userId actorUserId : Uuid} {payload : GrantRequest} (id : Uuid)
    (now : String) (hamount : ¬payload.amountMicrocredits ≤ 0)
    (h : Prepared userId accounts wallet opening) :
    ∃ response s, Runs (grantCredits backend userId actorUserId payload)
      (idle (.ofAccounts accounts)) response s ∧
      s.database.accounts = accounts.applyAll (opening ++
        entryWrites (.ofRecord wallet) none payload.amountMicrocredits
          (saturatingAdd wallet.balanceMicrocredits payload.amountMicrocredits)
          (grantReason payload) id now) := by
  let newBalance := saturatingAdd wallet.balanceMicrocredits payload.amountMicrocredits
  let granted := idle ((Database.ofAccounts accounts).applyAll (opening ++
    entryWrites (.ofRecord wallet) none payload.amountMicrocredits newBalance
      (grantReason payload) id now))
  obtain ⟨row, haudit⟩ := runs_recordAdminAudit granted
  have hruns : Runs (grantCredits backend userId actorUserId payload) (idle (.ofAccounts accounts))
      { userId, walletId := wallet.id, balanceMicrocredits := newBalance,
        amountMicrocredits := payload.amountMicrocredits, reason := grantReason payload }
      { granted with database := granted.database.apply (.adminAudit row) } := by
    unfold grantCredits
    rw [if_neg hamount]
    exact runs_bind (runs_beginTx _) (runs_bind (runs_inTx (runs_grantCreditsTx id now h))
      (runs_bind haudit (runs_pure _ _)))
  exact ⟨_, _, hruns, Database.accounts_applyAll _ _⟩

theorem runs_recordUsage {input : BillingInput} {event : UsageEventRecord} {eventId : Uuid}
    {eventNow : String} (id : Uuid) (now : String) (hcharged : Charged input)
    (h : Prepared input.userId accounts wallet opening)
    (hbalance : ¬(WalletRow.ofRecord wallet).balanceMicrocredits <
      (usageCharge input.usage input.routePrice).total)
    (hevent : usageEventRow input input.statusCode eventId eventNow = .ok event) :
    ∃ s, Runs (recordUsage backend input) (idle (.ofAccounts accounts)) () s ∧
      s.database.accounts = accounts.applyAll (opening ++
        entryWrites (.ofRecord wallet) (some input.requestId)
          (-(usageCharge input.usage input.routePrice).total)
          (wallet.balanceMicrocredits - (usageCharge input.usage input.routePrice).total)
          USAGE_CHARGE_REASON id now ++ [.usageEvent event]) := by
  have htx : Runs (inTx (recordUsageTx backend input _)) _ () _ :=
    runs_inTx (runs_recordUsageTx id now h hbalance hevent)
  refine ⟨idle _, ?_, Database.accounts_applyAll (.ofAccounts accounts) _⟩
  unfold recordUsage
  rw [if_neg (not_not.mpr hcharged.1), if_neg hcharged.2]
  exact runs_bind (runs_beginTx _) htx

-- A wallet that does not cover the charge, and counts that fit into the usage event.
theorem returns_recordUsage_insufficient {input : BillingInput} {event : UsageEventRecord}
    {eventId : Uuid} {eventNow : String} (hcharged : Charged input)
    (h : Prepared input.userId accounts wallet opening)
    (hbalance : (WalletRow.ofRecord wallet).balanceMicrocredits <
      (usageCharge input.usage input.routePrice).total)
    (hevent : usageEventRow { input with statusCode := PAYMENT_REQUIRED } PAYMENT_REQUIRED eventId
      eventNow = .ok event) :
    ∃ s, Returns (recordUsage backend input) (idle (.ofAccounts accounts))
      (.error .insufficientCredit) s := by
  have hbody : Returns (recordUsageTx backend input
      (usageCharge input.usage input.routePrice).total)
      { database := .ofAccounts accounts, tx := some [] } (.error .insufficientCredit)
      { database := (Database.ofAccounts accounts).apply (.usageEvent event),
        tx := some opening } := by
    refine runs_bind (runs_ensureWalletInTx h) ?_
    rw [if_pos hbalance]
    exact runs_bind (runs_insertUsageEvent hevent _) (Prog.returns_throw _ _)
  have hrollback : Prog.Returns (system.exec 0) Faultless
      (.call .rollback fun _ => .ret () : Prog SqlCommand SqlCommand.Response Unit)
      { database := (Database.ofAccounts accounts).apply (.usageEvent event), tx := some opening }
      () (idle ((Database.ofAccounts accounts).apply (.usageEvent event))) :=
    ⟨[NO_FAULT], by simp [Faultless, NO_FAULT], rfl⟩
  refine ⟨idle ((Database.ofAccounts accounts).apply (.usageEvent event)), ?_⟩
  unfold recordUsage
  rw [if_neg (not_not.mpr hcharged.1), if_neg hcharged.2]
  exact runs_bind (runs_beginTx _) (Prog.returns_onError_error hbody hrollback)

theorem returns_ensureSufficientCredit {userId : Uuid} {usage : TokenUsage} {price : RoutePrice}
    (hcharge : ¬(usageCharge usage price).total ≤ 0)
    (h : Prepared userId accounts wallet opening) :
    ∃ result, Returns (ensureSufficientCredit backend userId usage price)
      (idle (.ofAccounts accounts)) result
      (idle ((Database.ofAccounts accounts).applyAll opening)) := by
  unfold ensureSufficientCredit
  rw [if_neg hcharge]
  by_cases hbalance : (WalletRow.ofRecord wallet).balanceMicrocredits <
      (usageCharge usage price).total
  · refine ⟨.error .insufficientCredit, runs_bind (runs_ensureWallet h) ?_⟩
    rw [if_pos hbalance]
    exact Prog.returns_throw _ _
  · refine ⟨.ok (), runs_bind (runs_ensureWallet h) ?_⟩
    rw [if_neg hbalance]
    exact runs_pure _ _

-- The step that a transaction took among others is one that its job can take alone.
theorem Effect.serialStep (h : Effect job accounts accounts') :
    SerialStep backend job accounts accounts' := by
  obtain ⟨wallet, opening, writes, hprepared, hwrites, rfl⟩ := h
  cases hwrites with
  | grant id now hamount =>
      obtain ⟨response, s, hruns, haccounts⟩ := runs_grantCredits id now hamount hprepared
      exact serialStep_of_returns (runs_bind hruns (runs_pure _ _)) haccounts
  | usage id now eventId eventNow hcharged hbalance hevent =>
      obtain ⟨s, hruns, haccounts⟩ := runs_recordUsage id now hcharged hprepared hbalance hevent
      refine serialStep_of_returns (runs_bind hruns (runs_pure _ _)) ?_
      rw [← List.append_assoc]
      exact haccounts
  | sufficient hcharge =>
      rw [List.append_nil]
      obtain ⟨result, hreturns⟩ := returns_ensureSufficientCredit hcharge hprepared
      cases result with
      | ok =>
          exact serialStep_of_returns (runs_bind hreturns (runs_pure _ _))
            (Database.accounts_applyAll _ _)
      | error =>
          exact serialStep_of_returns (Prog.returns_except_error hreturns)
            (Database.accounts_applyAll _ _)
  | ensure =>
      refine serialStep_of_returns (runs_bind (runs_ensureWallet hprepared) (runs_pure _ _)) ?_
      rw [List.append_nil]
      exact Database.accounts_applyAll _ _
  | get =>
      refine serialStep_of_returns (runs_bind (runs_bind (runs_ensureWallet hprepared)
        (runs_pure _ _)) (runs_pure _ _)) ?_
      rw [List.append_nil]
      exact Database.accounts_applyAll _ _

end SerialStep

end Mizan.Billing
