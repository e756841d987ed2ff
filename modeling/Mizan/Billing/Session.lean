import Mizan.Billing.Isolation

namespace Mizan.Billing

open Interleaving

-- The database as one call sees it when no other call is running.
structure Session where
  database : Database
  tx : Option (List Write)
  deriving DecidableEq, Repr

namespace Session

def idle (database : Database) : Session := { database, tx := none }

def NO_TRANSACTION : String := "no transaction is open"

def runStatement (s : Session) (statement : Statement) : Except String (statement.Rows × Session) :=
  match s.tx with
  | none => .error NO_TRANSACTION
  | some writes =>
      (statement.execute (s.database.accounts.applyAll writes)).map fun (rows, more) =>
        (rows, { s with tx := some (writes ++ more) })

def exec : (c : SqlCommand) → SqlChoice → Session → c.Response × Session
  | .begin, choice, s => answer choice (.ok ((), { s with tx := some [] })) s
  | .statement statement, choice, s => answer choice (s.runStatement statement) s
  | .commit, choice, s =>
      match s.tx, choice.fault with
      | some writes, none => (.ok (), idle (s.database.applyAll writes))
      | _, fault => (.error (fault.getD NO_TRANSACTION), idle s.database)
  | .rollback, _, s => ((), idle s.database)
  | .insertUsageEvent row, choice, s =>
      answer choice (.ok ((), { s with database := s.database.apply (.usageEvent row) })) s
  | .insertAdminAudit row, choice, s =>
      answer choice (.ok ((), { s with database := s.database.apply (.adminAudit row) })) s
  | .nowV7, choice, s => (choice.uuid, s)
  | .unixTimestampString, choice, s => (choice.timestamp, s)

def system : System SqlCommand SqlCommand.Response SqlChoice Session where
  exec _ c choice s := some (exec c choice s)
  env _ _ := none

-- A call of its own on an idle database.
def call (backend : DatabaseBackend) (job : Job) (choices : List SqlChoice) (database : Database) :
    Option (Except AppError JobResult × Session) :=
  (job.program backend).run.play (system.exec 0) choices (idle database)

theorem alone_perform {α : Type} {c : SqlCommand} {result : c.Response → Except AppError α}
    {post : α → Session → Prop} {failed : AppError → Session → Prop} {s : Session}
    (h : ∀ choice, Protocol.outcome post failed (result (exec c choice s).1) (exec c choice s).2) :
    (Protocol.alone system).ewp 0 (Prog.perform c result) post failed s := by
  refine Protocol.alone_perform fun choice response s' hexec => ?_
  have hchoice := h choice
  rw [Option.some.inj hexec] at hchoice
  exact hchoice

-- What a job can tell apart: everything but the audit log.
structure SameBooks (before after : Database) : Prop where
  accounts : after.accounts = before.accounts
  usageEvents : after.usageEvents = before.usageEvents

def noting (database : Database) (noted : List UsageEventRecord) : Database :=
  { database with usageEvents := database.usageEvents ++ noted }

-- The phases of a job that began on `database`.
def phase (job : Job) (database : Database) (p : Phase) (noted : List UsageEventRecord)
    (s : Session) : Prop :=
  match p with
  | .idle => s.tx = none ∧ SameBooks (noting database noted) s.database
  | .started => SameBooks (noting database noted) s.database ∧
      ∃ writes, s.tx = some writes ∧ Started job.userId database.accounts writes
  | .ready wallet writes => SameBooks (noting database noted) s.database ∧
      ∃ opening, s.tx = some (opening ++ writes) ∧
        Prepared job.userId database.accounts wallet opening
  | .settled => s.tx = none ∧ ∃ wallet opening writes,
      Prepared job.userId database.accounts wallet opening ∧
        JobWrites job (.ofRecord wallet) writes ∧
        SameBooks ((noting database noted).applyAll (opening ++ writes)) s.database

theorem SameBooks.apply {before after : Database} (h : SameBooks before after) (write : Write) :
    SameBooks (before.apply write) (after.apply write) := by
  refine ⟨congrArg (·.apply write) h.accounts, ?_⟩
  cases write with
  | usageEvent row => exact congrArg (· ++ [row]) h.usageEvents
  | wallet row => exact h.usageEvents
  | ledger row => exact h.usageEvents
  | balance walletId balance now => exact h.usageEvents
  | adminAudit row => exact h.usageEvents

theorem SameBooks.applyAll {before after : Database} (h : SameBooks before after)
    (writes : List Write) : SameBooks (before.applyAll writes) (after.applyAll writes) := by
  induction writes generalizing before after with
  | nil => exact h
  | cons write writes ih => exact ih (h.apply write)

theorem SameBooks.note {database after : Database} {noted : List UsageEventRecord}
    (h : SameBooks (noting database noted) after) (row : UsageEventRecord) :
    SameBooks (noting database (noted ++ [row])) (after.apply (.usageEvent row)) := by
  refine ⟨h.accounts, ?_⟩
  have hevents : after.usageEvents = database.usageEvents ++ noted := h.usageEvents
  show after.usageEvents ++ [row] = database.usageEvents ++ (noted ++ [row])
  rw [hevents, List.append_assoc]

theorem phase_idle (job : Job) (database : Database) :
    phase job database .idle [] (idle database) :=
  ⟨rfl, rfl, (List.append_nil _).symm⟩

theorem effect_of_settled {job : Job} {database : Database} {noted : List UsageEventRecord}
    {s : Session} (h : phase job database .settled noted s) :
    Effect job database.accounts s.database.accounts := by
  obtain ⟨-, wallet, opening, writes, hprepared, hwrites, hsame⟩ := h
  refine ⟨wallet, opening, writes, hprepared, hwrites, ?_⟩
  rw [hsame.accounts, Database.accounts_applyAll]
  rfl

theorem runStatement_ok {s s' : Session} {statement : Statement} {rows : statement.Rows}
    {writes : List Write} (htx : s.tx = some writes)
    (h : s.runStatement statement = .ok (rows, s')) :
    ∃ more, statement.execute (s.database.accounts.applyAll writes) = .ok (rows, more) ∧
      s' = { s with tx := some (writes ++ more) } := by
  simp only [runStatement, htx] at h
  cases hexecute : statement.execute (s.database.accounts.applyAll writes) with
  | error error => simp [hexecute, Except.map] at h
  | ok pair =>
      simp only [hexecute, Except.map, Except.ok.injEq, Prod.mk.injEq] at h
      obtain ⟨rfl, rfl⟩ := h
      exact ⟨pair.2, rfl, rfl⟩

def isolation (backend : DatabaseBackend) (job : Job) (database : Database) :
    Isolation (Protocol.alone system) 0 backend job where
  phase := phase job database
  seen wallet := ∃ opening, Prepared job.userId database.accounts wallet opening
  phase_rely h hrely _ := hrely rfl ▸ h
  nowV7 h := alone_perform fun _ => h
  unixTimestampString h := alone_perform fun _ => h
  executeUsageEvent := by
    intro p noted s row message hp h
    refine alone_perform fun choice => failing_answer ?_ fun error => ⟨by simp, h⟩
    intro _ s' hresult
    cases hresult
    cases p with
    | idle => exact ⟨h.1, h.2.note row⟩
    | started => exact ⟨h.1.note row, h.2⟩
    | ready wallet writes => exact ⟨h.1.note row, h.2⟩
    | settled => exact absurd rfl hp
  executeAdminAudit := by
    intro p noted s row h
    refine alone_perform fun choice => answer_state (phase job database p noted) ?_ h
    intro _ s' hresult
    cases hresult
    cases p with
    | idle => exact ⟨h.1, h.2.accounts, h.2.usageEvents⟩
    | started => exact ⟨⟨h.1.accounts, h.1.usageEvents⟩, h.2⟩
    | ready wallet writes => exact ⟨⟨h.1.accounts, h.1.usageEvents⟩, h.2⟩
    | settled =>
        obtain ⟨htx, wallet, opening, writes, hprepared, hwrites, hsame⟩ := h
        exact ⟨htx, wallet, opening, writes, hprepared, hwrites, hsame.accounts,
          hsame.usageEvents⟩
  beginTx := by
    intro noted s message h
    refine alone_perform fun choice => failing_answer ?_ fun error => ⟨by simp, h⟩
    intro _ s' hresult
    cases hresult
    exact ⟨h.2, [], rfl, .inl rfl⟩
  fetchWallet := by
    intro noted s h
    obtain ⟨hsame, writes, htx, hstarted⟩ := h
    refine alone_perform fun choice => failing_answer ?_ fun error =>
      ⟨by simp, .started, by simp, hsame, writes, htx, hstarted⟩
    intro rows s' hresult
    obtain ⟨more, hexecute, rfl⟩ := runStatement_ok htx hresult
    rw [show s.database.accounts = database.accounts from hsame.accounts] at hexecute
    cases hexecute
    cases hfound : (database.accounts.applyAll writes).walletOf job.userId with
    | none => exact ⟨hsame, writes, by rw [List.append_nil], hstarted⟩
    | some wallet =>
        have hprepared := hstarted.fetch hfound
        refine ⟨wallet, ⟨hsame, writes, rfl, hprepared⟩, ⟨writes, hprepared⟩, ?_⟩
        rw [WalletRow.ofRecord, hprepared.owner]
  insertWallet := by
    intro noted s id now message h
    obtain ⟨hsame, writes, htx, hstarted⟩ := h
    refine alone_perform fun choice => failing_answer ?_ fun error =>
      ⟨by simp, .started, by simp, hsame, writes, htx, hstarted⟩
    intro rows s' hresult
    obtain ⟨more, hexecute, rfl⟩ := runStatement_ok htx hresult
    rw [show s.database.accounts = database.accounts from hsame.accounts] at hexecute
    exact ⟨hsame, writes ++ more, rfl, hstarted.insert hexecute⟩
  write := by
    intro noted s wallet writes statement write message h htouches
    obtain ⟨hsame, opening, htx, hprepared⟩ := h
    refine alone_perform fun choice => failing_answer ?_ fun error =>
      ⟨by simp, .ready wallet writes, by simp, hsame, opening, htx, hprepared⟩
    intro rows s' hresult
    obtain ⟨more, hexecute, rfl⟩ := runStatement_ok htx hresult
    rw [show s.database.accounts = database.accounts from hsame.accounts] at hexecute
    obtain rfl := htouches.execute hprepared hexecute
    exact ⟨hsame, opening, by rw [List.append_assoc], hprepared⟩
  commitTx := by
    intro noted s wallet writes message h hwrites
    obtain ⟨hsame, opening, htx, hprepared⟩ := h
    refine alone_perform fun choice => ?_
    simp only [exec, htx]
    cases choice.fault with
    | some error => exact ⟨by simp, .idle, by simp, rfl, hsame⟩
    | none => exact ⟨rfl, wallet, opening, writes, hprepared, hwrites, hsame.applyAll _⟩
  rollback := by
    intro p noted s hp h
    refine Protocol.alone_call fun choice response s' hexec => Protocol.alone_ret ?_
    cases hexec
    cases p with
    | idle => exact ⟨rfl, h.2⟩
    | started => exact ⟨rfl, h.1⟩
    | ready => exact ⟨rfl, h.1⟩
    | settled => exact absurd rfl hp

-- A call leaves the accounts alone or takes the step of its one transaction.
theorem call_effect {backend : DatabaseBackend} {job : Job} {choices : List SqlChoice}
    {database : Database} {result : Except AppError JobResult} {s : Session}
    (h : call backend job choices database = some (result, s)) :
    s.database.accounts = database.accounts ∨ Effect job database.accounts s.database.accounts := by
  have hresult := Protocol.alone_play
    ((isolation backend job database).program_spec (phase_idle job database)) h
  have hidle (hphase : (isolation backend job database).Reached .idle s) :
      s.database.accounts = database.accounts := by
    obtain ⟨noted, -, hsame⟩ := hphase
    exact hsame.accounts
  have hsettled (hphase : (isolation backend job database).Reached .settled s) :
      Effect job database.accounts s.database.accounts := by
    obtain ⟨noted, hphase⟩ := hphase
    exact effect_of_settled hphase
  cases result with
  | error error =>
      cases job with
      | ensureSufficientCredit => exact hresult.imp hidle hsettled
      | grantCredits | recordUsage | ensureWallet | getWallet => exact .inl (hidle hresult)
  | ok value =>
      cases job with
      | recordUsage input =>
          by_cases hcharged : Charged input
          · exact .inr (hsettled (hresult.1 hcharged))
          · exact .inl (hidle (hresult.2 hcharged))
      | ensureSufficientCredit => exact hresult.imp (fun hfree => hidle hfree.2) hsettled
      | grantCredits | ensureWallet | getWallet => exact .inr (hsettled hresult)

end Session

end Mizan.Billing
