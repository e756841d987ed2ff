import Mizan.Core.Types
import Mizan.Core.Numeric
import Mathlib.Data.List.Nodup

namespace Mizan

-- The rows of migrations/0001_initial.sql. A TEXT column that only ever holds
-- `Uuid::to_string()` and is read back with `Uuid::parse_str` holds the Uuid.

structure WalletRecord where
  id : Uuid
  ownerUserId : Uuid
  balanceMicrocredits : Int64
  createdAt : String
  updatedAt : String
  deriving DecidableEq, Repr

structure CreditLedgerRecord where
  id : Uuid
  walletId : Uuid
  requestId : Option Uuid
  requestDeltaMicrocredits : Int64
  balanceAfterMicrocredits : Int64
  reason : String
  createdAt : String
  deriving DecidableEq, Repr

structure UsageEventRecord where
  id : String
  requestId : String
  userId : Option String
  apiKeyId : Option String
  providerId : Option String
  routeId : Option String
  daemonNodeId : Option String
  model : String
  usagePromptTokens : Int64
  usageCompletionTokens : Int64
  usageTotalTokens : Int64
  usageEstimated : Int64
  statusCode : Int64
  latencyMs : Int64
  createdAt : String
  deriving DecidableEq, Repr

-- `payload_json` holds the two members of the object that is serialised into it.
structure AdminAuditRecord where
  id : Uuid
  actorUserId : Option Uuid
  action : String
  entityType : String
  entityId : Option String
  payloadAmountMicrocredits : Int64
  payloadReason : String
  createdAt : String
  deriving DecidableEq, Repr

structure Accounts where
  wallets : List WalletRecord
  ledger : List CreditLedgerRecord
  deriving DecidableEq, Repr

structure Database where
  accounts : Accounts
  usageEvents : List UsageEventRecord
  adminAuditLogs : List AdminAuditRecord
  deriving DecidableEq, Repr

-- What a statement adds to the database once its transaction has committed.
inductive Write where
  | wallet (row : WalletRecord)
  | ledger (row : CreditLedgerRecord)
  | balance (walletId : Uuid) (balanceMicrocredits : Int64) (updatedAt : String)
  | usageEvent (row : UsageEventRecord)
  | adminAudit (row : AdminAuditRecord)
  deriving DecidableEq, Repr

namespace Accounts

def empty : Accounts := { wallets := [], ledger := [] }

-- ORDER BY created_at DESC LIMIT 1
def newest : List WalletRecord → Option WalletRecord
  | [] => none
  | wallet :: wallets =>
      match newest wallets with
      | none => some wallet
      | some other => if wallet.createdAt < other.createdAt then some other else some wallet

def walletOf (accounts : Accounts) (owner : Uuid) : Option WalletRecord :=
  newest (accounts.wallets.filter fun wallet => wallet.ownerUserId = owner)

def rowsOf (accounts : Accounts) (walletId : Uuid) : List CreditLedgerRecord :=
  accounts.ledger.filter fun row => row.walletId = walletId

def hasWalletId (accounts : Accounts) (id : Uuid) : Bool :=
  accounts.wallets.any fun wallet => wallet.id = id

def apply (accounts : Accounts) : Write → Accounts
  | .wallet row => { accounts with wallets := accounts.wallets ++ [row] }
  | .ledger row => { accounts with ledger := accounts.ledger ++ [row] }
  | .balance walletId balanceMicrocredits updatedAt =>
      { accounts with
        wallets := accounts.wallets.map fun wallet =>
          if wallet.id = walletId then { wallet with balanceMicrocredits, updatedAt } else wallet }
  | .usageEvent _ => accounts
  | .adminAudit _ => accounts

def applyAll (accounts : Accounts) (writes : List Write) : Accounts := writes.foldl apply accounts

-- The primary key of `wallets` and the unique index on its owner.
structure Keyed (accounts : Accounts) : Prop where
  ids : (accounts.wallets.map WalletRecord.id).Nodup
  owners : (accounts.wallets.map WalletRecord.ownerUserId).Nodup

end Accounts

namespace Database

def ofAccounts (accounts : Accounts) : Database :=
  { accounts, usageEvents := [], adminAuditLogs := [] }

def apply (database : Database) (write : Write) : Database :=
  { accounts := database.accounts.apply write
    usageEvents :=
      match write with
      | .usageEvent row => database.usageEvents ++ [row]
      | _ => database.usageEvents
    adminAuditLogs :=
      match write with
      | .adminAudit row => database.adminAuditLogs ++ [row]
      | _ => database.adminAuditLogs }

def applyAll (database : Database) (writes : List Write) : Database := writes.foldl apply database

end Database

theorem Database.accounts_applyAll (database : Database) (writes : List Write) :
    (database.applyAll writes).accounts = database.accounts.applyAll writes := by
  induction writes generalizing database with
  | nil => rfl
  | cons write writes ih => exact ih (database.apply write)

namespace Accounts

variable {accounts : Accounts} {owner : Uuid} {wallet : WalletRecord}

@[simp] theorem applyAll_nil (accounts : Accounts) : accounts.applyAll [] = accounts := rfl

@[simp] theorem applyAll_cons (accounts : Accounts) (write : Write) (writes : List Write) :
    accounts.applyAll (write :: writes) = (accounts.apply write).applyAll writes := rfl

theorem applyAll_append (accounts : Accounts) (first second : List Write) :
    accounts.applyAll (first ++ second) = (accounts.applyAll first).applyAll second :=
  List.foldl_append

theorem newest_mem {wallets : List WalletRecord} (h : newest wallets = some wallet) :
    wallet ∈ wallets := by
  induction wallets generalizing wallet with
  | nil => cases h
  | cons first rest ih =>
      simp only [newest] at h
      split at h
      · cases h
        exact List.mem_cons_self
      · rename_i other hother
        split at h
        · cases h
          exact List.mem_cons_of_mem first (ih hother)
        · cases h
          exact List.mem_cons_self

theorem newest_eq_none {wallets : List WalletRecord} : newest wallets = none ↔ wallets = [] := by
  cases wallets with
  | nil => simp [newest]
  | cons first rest =>
      simp only [newest, reduceCtorEq, iff_false]
      split
      · simp
      · split <;> simp

theorem walletOf_mem (h : accounts.walletOf owner = some wallet) :
    wallet ∈ accounts.wallets ∧ wallet.ownerUserId = owner := by
  have hmem := newest_mem h
  simpa using hmem

theorem walletOf_eq_none :
    accounts.walletOf owner = none ↔ ∀ wallet ∈ accounts.wallets, wallet.ownerUserId ≠ owner := by
  simp [walletOf, newest_eq_none]

theorem Keyed.eq_of_owner (hkeyed : accounts.Keyed) {first second : WalletRecord}
    (hfirst : first ∈ accounts.wallets) (hsecond : second ∈ accounts.wallets)
    (howner : first.ownerUserId = second.ownerUserId) : first = second :=
  List.inj_on_of_nodup_map hkeyed.owners hfirst hsecond howner

-- Under the unique index the newest wallet of an owner is the only one.
theorem Keyed.walletOf_eq_some (hkeyed : accounts.Keyed) :
    accounts.walletOf owner = some wallet ↔
      wallet ∈ accounts.wallets ∧ wallet.ownerUserId = owner := by
  refine ⟨walletOf_mem, fun ⟨hmem, howner⟩ => ?_⟩
  cases hfound : accounts.walletOf owner with
  | none => exact absurd howner (walletOf_eq_none.mp hfound wallet hmem)
  | some other =>
      obtain ⟨hother, howner'⟩ := walletOf_mem hfound
      rw [hkeyed.eq_of_owner hother hmem (howner'.trans howner.symm)]

theorem hasWalletId_iff (id : Uuid) :
    accounts.hasWalletId id = true ↔ ∃ wallet ∈ accounts.wallets, wallet.id = id := by
  simp [hasWalletId]

theorem walletOf_apply_wallet_self {row : WalletRecord}
    (hnone : accounts.walletOf row.ownerUserId = none) :
    (accounts.apply (.wallet row)).walletOf row.ownerUserId = some row := by
  have hfilter := newest_eq_none.mp hnone
  simp [walletOf, apply, List.filter_append, hfilter, newest]

theorem ids_apply_balance (id : Uuid) (balance : Int64) (now : String) :
    (accounts.apply (.balance id balance now)).wallets.map WalletRecord.id =
      accounts.wallets.map WalletRecord.id := by
  simp only [apply, List.map_map]
  exact List.map_congr_left fun wallet _ => by
    simp only [Function.comp_apply]
    split <;> rfl

theorem owners_apply_balance (id : Uuid) (balance : Int64) (now : String) :
    (accounts.apply (.balance id balance now)).wallets.map WalletRecord.ownerUserId =
      accounts.wallets.map WalletRecord.ownerUserId := by
  simp only [apply, List.map_map]
  exact List.map_congr_left fun wallet _ => by
    simp only [Function.comp_apply]
    split <;> rfl

theorem Keyed.apply_balance (hkeyed : accounts.Keyed) (id : Uuid) (balance : Int64) (now : String) :
    (accounts.apply (.balance id balance now)).Keyed :=
  ⟨by rw [ids_apply_balance]; exact hkeyed.ids, by rw [owners_apply_balance]; exact hkeyed.owners⟩

private theorem nodup_concat_of_not_mem {ids : List Uuid} {id : Uuid} (hids : ids.Nodup)
    (hid : id ∉ ids) : (ids ++ [id]).Nodup := by
  rw [List.nodup_append]
  refine ⟨hids, List.nodup_singleton id, fun first hfirst second hsecond heq => ?_⟩
  rw [List.mem_singleton.mp hsecond] at heq
  exact hid (heq ▸ hfirst)

theorem Keyed.apply_wallet (hkeyed : accounts.Keyed) {row : WalletRecord}
    (hid : accounts.hasWalletId row.id = false)
    (howner : accounts.walletOf row.ownerUserId = none) :
    (accounts.apply (.wallet row)).Keyed := by
  have hid' : row.id ∉ accounts.wallets.map WalletRecord.id := by
    simpa [hasWalletId] using hid
  have howner' : row.ownerUserId ∉ accounts.wallets.map WalletRecord.ownerUserId := by
    simpa using walletOf_eq_none.mp howner
  constructor
  · simp only [apply, List.map_append, List.map_cons, List.map_nil]
    exact nodup_concat_of_not_mem hkeyed.ids hid'
  · simp only [apply, List.map_append, List.map_cons, List.map_nil]
    exact nodup_concat_of_not_mem hkeyed.owners howner'

end Accounts

end Mizan
