import Mizan.Billing.Operations

namespace Mizan.Billing

-- The calls that open a billing transaction.
inductive Job where
  | grantCredits (userId actorUserId : Uuid) (payload : GrantRequest)
  | recordUsage (input : BillingInput)
  | ensureSufficientCredit (userId : Uuid) (usage : TokenUsage) (routePrice : RoutePrice)
  | ensureWallet (userId : Uuid)
  | getWallet (userId : Uuid)
  deriving DecidableEq, Repr

inductive JobResult where
  | granted (response : GrantResponse)
  | recorded
  | sufficient
  | wallet (row : WalletRow)
  | response (wallet : WalletResponse)
  deriving DecidableEq, Repr

namespace Job

def program (backend : DatabaseBackend) : Job → Sql JobResult
  | .grantCredits userId actorUserId payload => do
      let response ← Billing.grantCredits backend userId actorUserId payload
      pure (.granted response)
  | .recordUsage input => do
      Billing.recordUsage backend input
      pure .recorded
  | .ensureSufficientCredit userId usage routePrice => do
      Billing.ensureSufficientCredit backend userId usage routePrice
      pure .sufficient
  | .ensureWallet userId => do
      let row ← Billing.ensureWallet backend userId
      pure (.wallet row)
  | .getWallet userId => do
      let wallet ← Billing.getWallet backend userId
      pure (.response wallet)

def userId : Job → Uuid
  | .grantCredits userId .. => userId
  | .recordUsage input => input.userId
  | .ensureSufficientCredit userId .. => userId
  | .ensureWallet userId => userId
  | .getWallet userId => userId

end Job

def WalletRow.ofRecord (wallet : WalletRecord) : WalletRow :=
  { id := wallet.id, ownerUserId := wallet.ownerUserId,
    balanceMicrocredits := wallet.balanceMicrocredits }

-- A transaction that read `accounts` has found the user's wallet, or has inserted it.
inductive Prepared (userId : Uuid) (accounts : Accounts) : WalletRecord → List Write → Prop where
  | found {wallet : WalletRecord} (hwallet : accounts.walletOf userId = some wallet) :
      Prepared userId accounts wallet []
  | opened {id : Uuid} {now : String} (hnone : accounts.walletOf userId = none)
      (hid : accounts.hasWalletId id = false) :
      Prepared userId accounts (openedWallet userId id now) [.wallet (openedWallet userId id now)]

def entryWrites (wallet : WalletRow) (requestId : Option Uuid) (delta newBalance : Int64)
    (reason : String) (id : Uuid) (now : String) : List Write :=
  [.ledger (entryRow wallet requestId delta newBalance reason id now),
    .balance wallet.id newBalance now]

def Charged (input : BillingInput) : Prop :=
  (200 ≤ input.statusCode ∧ input.statusCode ≤ 299) ∧
    ¬(usageCharge input.usage input.routePrice).total ≤ 0

-- What the transaction of a job writes once its wallet row is known.
inductive JobWrites : Job → WalletRow → List Write → Prop where
  | grant {userId actorUserId : Uuid} {payload : GrantRequest} {wallet : WalletRow} (id : Uuid)
      (now : String) (hamount : ¬payload.amountMicrocredits ≤ 0) :
      JobWrites (.grantCredits userId actorUserId payload) wallet
        (entryWrites wallet none payload.amountMicrocredits
          (saturatingAdd wallet.balanceMicrocredits payload.amountMicrocredits)
          (grantReason payload) id now)
  | usage {input : BillingInput} {wallet : WalletRow} {event : UsageEventRecord} (id : Uuid)
      (now : String) (eventId : Uuid) (eventNow : String) (hcharged : Charged input)
      (hbalance : ¬wallet.balanceMicrocredits < (usageCharge input.usage input.routePrice).total)
      (hevent : usageEventRow input input.statusCode eventId eventNow = .ok event) :
      JobWrites (.recordUsage input) wallet
        (entryWrites wallet (some input.requestId)
          (-(usageCharge input.usage input.routePrice).total)
          (wallet.balanceMicrocredits - (usageCharge input.usage input.routePrice).total)
          USAGE_CHARGE_REASON id now ++ [.usageEvent event])
  | sufficient {userId : Uuid} {usage : TokenUsage} {routePrice : RoutePrice} {wallet : WalletRow}
      (hcharge : ¬(usageCharge usage routePrice).total ≤ 0) :
      JobWrites (.ensureSufficientCredit userId usage routePrice) wallet []
  | ensure {userId : Uuid} {wallet : WalletRow} : JobWrites (.ensureWallet userId) wallet []
  | get {userId : Uuid} {wallet : WalletRow} : JobWrites (.getWallet userId) wallet []

-- One committed transaction of a job, as a step from the accounts it saw.
def Effect (job : Job) (accounts accounts' : Accounts) : Prop :=
  ∃ wallet opening writes, Prepared job.userId accounts wallet opening ∧
    JobWrites job (.ofRecord wallet) writes ∧ accounts' = accounts.applyAll (opening ++ writes)

-- The statements of a job after its wallet row touch that wallet only.
inductive Touches (wallet : WalletRecord) : Statement → Write → Prop where
  | ledger (row : CreditLedgerRecord) (hwallet : row.walletId = wallet.id) :
      Touches wallet (.insertLedger row) (.ledger row)
  | balance (balanceMicrocredits : Int64) (now : String) :
      Touches wallet (.updateBalance wallet.id balanceMicrocredits now)
        (.balance wallet.id balanceMicrocredits now)
  | usageEvent (row : UsageEventRecord) : Touches wallet (.insertUsageEvent row) (.usageEvent row)

-- The wallet is not known yet: nothing is written, or the wallet row has been.
def Started (userId : Uuid) (accounts : Accounts) (writes : List Write) : Prop :=
  writes = [] ∨ ∃ wallet, Prepared userId accounts wallet writes

namespace Prepared

variable {userId : Uuid} {accounts : Accounts} {wallet : WalletRecord} {opening : List Write}

theorem owner (h : Prepared userId accounts wallet opening) : wallet.ownerUserId = userId := by
  cases h with
  | found hwallet => exact (Accounts.walletOf_mem hwallet).2
  | opened => rfl

theorem mem (h : Prepared userId accounts wallet opening) :
    wallet ∈ (accounts.applyAll opening).wallets := by
  cases h with
  | found hwallet => exact (Accounts.walletOf_mem hwallet).1
  | opened => simp [Accounts.apply]

theorem walletOf (h : Prepared userId accounts wallet opening) :
    (accounts.applyAll opening).walletOf userId = some wallet := by
  cases h with
  | found hwallet => exact hwallet
  | opened hnone hid => exact Accounts.walletOf_apply_wallet_self hnone

theorem keyed (h : Prepared userId accounts wallet opening) (hkeyed : accounts.Keyed) :
    (accounts.applyAll opening).Keyed := by
  cases h with
  | found => exact hkeyed
  | opened hnone hid => exact hkeyed.apply_wallet hid hnone

theorem ledger (h : Prepared userId accounts wallet opening) :
    (accounts.applyAll opening).ledger = accounts.ledger := by
  cases h <;> rfl

end Prepared

theorem hasWalletId_apply {accounts : Accounts} {id : Uuid} (h : accounts.hasWalletId id = true)
    (write : Write) : (accounts.apply write).hasWalletId id = true := by
  obtain ⟨wallet, hmem, hid⟩ := (Accounts.hasWalletId_iff id).mp h
  refine (Accounts.hasWalletId_iff id).mpr ?_
  cases write with
  | wallet row => exact ⟨wallet, List.mem_append_left _ hmem, hid⟩
  | balance walletId balance now =>
      refine ⟨_, List.mem_map_of_mem hmem, ?_⟩
      split <;> exact hid
  | ledger | usageEvent | adminAudit => exact ⟨wallet, hmem, hid⟩

theorem hasWalletId_applyAll {accounts : Accounts} {id : Uuid}
    (h : accounts.hasWalletId id = true) (writes : List Write) :
    (accounts.applyAll writes).hasWalletId id = true := by
  induction writes generalizing accounts with
  | nil => exact h
  | cons write writes ih => exact ih (hasWalletId_apply h write)

section Statements

variable {userId : Uuid} {accounts : Accounts} {wallet : WalletRecord} {opening writes : List Write}

theorem Started.fetch (h : Started userId accounts writes)
    (hwallet : (accounts.applyAll writes).walletOf userId = some wallet) :
    Prepared userId accounts wallet writes := by
  obtain rfl | ⟨other, hprepared⟩ := h
  · exact .found hwallet
  · rw [hprepared.walletOf] at hwallet
    cases hwallet
    exact hprepared

theorem Started.insert {id : Uuid} {now : String} {rows : Unit} {more : List Write}
    (h : Started userId accounts writes)
    (hexecute : (Statement.insertWallet (openedWallet userId id now)).execute
      (accounts.applyAll writes) = .ok (rows, more)) :
    Started userId accounts (writes ++ more) := by
  obtain ⟨-, rfl⟩ | ⟨hnone, hid, rfl⟩ := execute_insertWallet hexecute
  · rwa [List.append_nil]
  · obtain rfl | ⟨other, hprepared⟩ := h
    · exact .inr ⟨_, .opened hnone hid⟩
    · rw [show (openedWallet userId id now).ownerUserId = userId from rfl,
        hprepared.walletOf] at hnone
      cases hnone

theorem Touches.execute {statement : Statement} {write : Write} (h : Touches wallet statement write)
    (hprepared : Prepared userId accounts wallet opening) {rows : statement.Rows}
    {more : List Write}
    (hexecute : statement.execute (accounts.applyAll (opening ++ writes)) = .ok (rows, more)) :
    more = [write] := by
  have hid : (accounts.applyAll (opening ++ writes)).hasWalletId wallet.id = true := by
    rw [Accounts.applyAll_append]
    exact hasWalletId_applyAll
      ((Accounts.hasWalletId_iff _).mpr ⟨wallet, hprepared.mem, rfl⟩) writes
  cases h with
  | ledger row hwallet =>
      cases hexecute
      rfl
  | balance balance now =>
      simp only [Statement.execute, hid, if_true] at hexecute
      cases hexecute
      rfl
  | usageEvent row =>
      cases hexecute
      rfl

end Statements

end Mizan.Billing
