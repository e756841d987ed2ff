import Mizan.Billing.Legible

namespace Mizan

open Interleaving

namespace Accounts

theorem ledger_apply (accounts : Accounts) (write : Write) :
    accounts.ledger <+: (accounts.apply write).ledger := by
  cases write with
  | ledger row => exact List.prefix_append _ _
  | wallet | balance | usageEvent | adminAudit => exact List.prefix_refl _

end Accounts

namespace Database

theorem usageEvents_apply (database : Database) (write : Write) :
    database.usageEvents <+: (database.apply write).usageEvents := by
  cases write with
  | usageEvent row => exact List.prefix_append _ _
  | wallet | ledger | balance | adminAudit => exact List.prefix_refl _

-- Whatever is written, the entries and the events stay as they are, and in front.
theorem prefix_applyAll (database : Database) (writes : List Write) :
    database.accounts.ledger <+: (database.applyAll writes).accounts.ledger ∧
      database.usageEvents <+: (database.applyAll writes).usageEvents := by
  induction writes generalizing database with
  | nil => exact ⟨List.prefix_refl _, List.prefix_refl _⟩
  | cons write writes ih =>
      obtain ⟨hledger, hevents⟩ := ih (database.apply write)
      exact ⟨(database.accounts.ledger_apply write).trans hledger,
        (database.usageEvents_apply write).trans hevents⟩

end Database

namespace Billing

-- A backend as the rest of the server sees it: its statements leave the committed tables alone but
-- for what is written to them.
structure Books (σ : Type) where
  backend : DatabaseBackend
  system : System SqlCommand SqlCommand.Response SqlChoice σ
  tables : TableStore σ
  start : Database → σ
  database_start : ∀ database, tables.database (start database) = database
  database_withDatabase : ∀ s database, tables.database (tables.withDatabase s database) = database
  exec_writes : ∀ t c choice s response s', system.exec t c choice s = some (response, s') →
    ∃ writes, tables.database s' = (tables.database s).applyAll writes
  env_keeps : ∀ choice s s', system.env choice s = some s' → tables.database s' = tables.database s

namespace Postgres

theorem exec_writes {t : Nat} {c : SqlCommand} {choice : SqlChoice} {s s' : Postgres}
    {response : c.Response} (h : exec t c choice s = some (response, s')) :
    ∃ writes, s'.database = s.database.applyAll writes := by
  cases c with
  | begin =>
      rcases state_of_answer h with ⟨rfl, -⟩ | ⟨-, value, hresult, -⟩
      · exact ⟨[], rfl⟩
      · cases hresult
        exact ⟨[], rfl⟩
  | statement statement =>
      obtain ⟨h, hwait⟩ := exec_statement h
      rcases state_of_answer h with ⟨rfl, -⟩ | ⟨hfault, value, hresult, -⟩
      · exact ⟨[], rfl⟩
      · obtain ⟨writes, more, -, -, -, rfl⟩ := runStatement_ok (hwait hfault) hresult
        exact ⟨[], database_acquire s t writes statement⟩
  | commit =>
      simp only [exec] at h
      split at h
      · rename_i writes htx _
        cases h
        exact ⟨writes, rfl⟩
      · cases h
        exact ⟨[], rfl⟩
  | rollback =>
      cases h
      exact ⟨[], rfl⟩
  | insertUsageEvent row =>
      rcases state_of_answer h with ⟨rfl, -⟩ | ⟨-, value, hresult, -⟩
      · exact ⟨[], rfl⟩
      · cases hresult
        exact ⟨[.usageEvent row], rfl⟩
  | insertAdminAudit row =>
      rcases state_of_answer h with ⟨rfl, -⟩ | ⟨-, value, hresult, -⟩
      · exact ⟨[], rfl⟩
      · cases hresult
        exact ⟨[.adminAudit row], rfl⟩
  | nowV7 | unixTimestampString =>
      cases h
      exact ⟨[], rfl⟩

def books : Books Postgres where
  backend := .postgres
  system := system
  tables := tables
  start := start
  database_start _ := rfl
  database_withDatabase _ _ := rfl
  exec_writes _ _ _ _ _ _ h := exec_writes h
  env_keeps _ _ _ h := by
    cases h
    rfl

end Postgres

namespace Sqlite

theorem exec_writes {t : Nat} {c : SqlCommand} {choice : SqlChoice} {s s' : Sqlite}
    {response : c.Response} (h : exec t c choice s = some (response, s')) :
    ∃ writes, s'.database = s.database.applyAll writes := by
  cases c with
  | begin =>
      rcases state_of_answer h with ⟨rfl, -⟩ | ⟨-, value, hresult, -⟩
      · exact ⟨[], rfl⟩
      · cases hresult
        exact ⟨[], rfl⟩
  | statement statement =>
      obtain ⟨h, -⟩ := exec_statement h
      rcases state_of_answer h with ⟨rfl, -⟩ | ⟨-, value, hresult, -⟩
      · exact ⟨[], rfl⟩
      · obtain ⟨tx, more, -, -, -, rfl⟩ := runStatement_ok hresult
        exact ⟨[], rfl⟩
  | commit =>
      simp only [exec] at h
      split at h
      · rename_i tx htx _
        cases h
        exact ⟨tx.writes, rfl⟩
      · cases h
        exact ⟨[], rfl⟩
  | rollback =>
      cases h
      exact ⟨[], rfl⟩
  | insertUsageEvent row =>
      simp only [exec] at h
      split at h
      · cases h
      · rcases state_of_answer h with ⟨rfl, -⟩ | ⟨-, value, hresult, -⟩
        · exact ⟨[], rfl⟩
        · cases hresult
          exact ⟨[.usageEvent row], rfl⟩
  | insertAdminAudit row =>
      simp only [exec] at h
      split at h
      · cases h
      · rcases state_of_answer h with ⟨rfl, -⟩ | ⟨-, value, hresult, -⟩
        · exact ⟨[], rfl⟩
        · cases hresult
          exact ⟨[.adminAudit row], rfl⟩
  | nowV7 | unixTimestampString =>
      cases h
      exact ⟨[], rfl⟩

def books : Books Sqlite where
  backend := .sqlite
  system := system
  tables := tables
  start := start
  database_start _ := rfl
  database_withDatabase _ _ := rfl
  exec_writes _ _ _ _ _ _ h := exec_writes h
  env_keeps _ _ _ h := by
    cases h
    rfl

end Sqlite

end Billing

end Mizan
