import Mathlib.Data.UInt
import Mizan.Interleaving.Prog
import Mizan.Billing.Database
import Mizan.Providers.Types
import Mizan.Wallet.Charge

namespace Mizan

open Interleaving

namespace Billing

-- The statements that run inside a transaction.
inductive Statement where
  | selectWallet (ownerUserId : Uuid) (forUpdate : Bool)
  | insertWallet (row : WalletRecord)
  | insertLedger (row : CreditLedgerRecord)
  | updateBalance (walletId : Uuid) (balanceMicrocredits : Int64) (updatedAt : String)
  | insertUsageEvent (row : UsageEventRecord)
  deriving DecidableEq, Repr

def Statement.Rows : Statement → Type
  | .selectWallet .. => Option (Uuid × Int64)
  | _ => Unit

-- What a statement returns on the accounts that its transaction sees, and what it writes.
-- A collision of two drawn row ids is left to the faults of the connection, except for the
-- wallets, whose keys decide which of two concurrent inserts wins.
def Statement.execute : (statement : Statement) → Accounts →
    Except String (statement.Rows × List Write)
  | .selectWallet ownerUserId _, accounts =>
      .ok ((accounts.walletOf ownerUserId).map fun row => (row.id, row.balanceMicrocredits), [])
  | .insertWallet row, accounts =>
      -- ON CONFLICT(owner_user_id) DO NOTHING
      if (accounts.walletOf row.ownerUserId).isSome then .ok ((), [])
      else if accounts.hasWalletId row.id then .error "UNIQUE constraint failed: wallets.id"
      else .ok ((), [.wallet row])
  | .insertLedger row, _ => .ok ((), [.ledger row])
  | .updateBalance walletId balanceMicrocredits updatedAt, accounts =>
      if accounts.hasWalletId walletId then
        .ok ((), [.balance walletId balanceMicrocredits updatedAt])
      else .ok ((), [])
  | .insertUsageEvent row, _ => .ok ((), [.usageEvent row])

def Statement.reads : Statement → Bool
  | .selectWallet .. => true
  | _ => false

theorem execute_insertWallet {row : WalletRecord} {accounts : Accounts} {rows : Unit}
    {more : List Write}
    (h : (Statement.insertWallet row).execute accounts = .ok (rows, more)) :
    ((accounts.walletOf row.ownerUserId).isSome ∧ more = []) ∨
      accounts.walletOf row.ownerUserId = none ∧ accounts.hasWalletId row.id = false ∧
        more = [.wallet row] := by
  unfold Statement.execute at h
  cases hfound : accounts.walletOf row.ownerUserId with
  | some wallet =>
      simp only [hfound, Option.isSome_some, if_true] at h
      cases h
      exact .inl ⟨rfl, rfl⟩
  | none =>
      cases hid : accounts.hasWalletId row.id with
      | true => simp [hfound, hid] at h
      | false =>
          simp only [hfound, hid, Option.isSome_none, Bool.false_eq_true, if_false] at h
          cases h
          exact .inr ⟨rfl, rfl, rfl⟩

-- Everything the billing functions ask of the world. `insertUsageEvent` and
-- `insertAdminAudit` run on a connection of the pool, outside the transaction.
inductive SqlCommand where
  | begin
  | statement (statement : Statement)
  | commit
  | rollback
  | insertUsageEvent (row : UsageEventRecord)
  | insertAdminAudit (row : AdminAuditRecord)
  | nowV7
  | unixTimestampString

def SqlCommand.Response : SqlCommand → Type
  | .begin => Except String Unit
  | .statement inner => Except String inner.Rows
  | .commit => Except String Unit
  | .rollback => Unit
  | .insertUsageEvent _ => Except String Unit
  | .insertAdminAudit _ => Except String Unit
  | .nowV7 => Uuid
  | .unixTimestampString => String

-- What the database and the clock decide: whether a command fails and with which text, the
-- next id, the time, and which transaction is lost when a connection breaks.
structure SqlChoice where
  fault : Option String := none
  uuid : Uuid := ⟨0⟩
  timestamp : String := "0"
  lost : Nat := 0
  deriving DecidableEq, Repr

-- A command that fails leaves the state as it was. The choice can make any command fail.
def answer {σ α : Type} (choice : SqlChoice) (result : Except String (α × σ)) (state : σ) :
    Except String α × σ :=
  match choice.fault, result with
  | some error, _ => (.error error, state)
  | none, .ok (value, state') => (.ok value, state')
  | none, .error error => (.error error, state)

abbrev Sql (α : Type) := ExceptT AppError (Prog SqlCommand SqlCommand.Response) α

def failing {α : Type} (message : String → String) : Except String α → Except AppError α :=
  Except.mapError fun error => .infrastructure (message error)

theorem answer_state {σ α : Type} (property : σ → Prop) {choice : SqlChoice}
    {result : Except String (α × σ)} {state : σ}
    (hok : ∀ value state', result = .ok (value, state') → property state')
    (herror : property state) : property (answer choice result state).2 := by
  unfold answer
  split
  · exact herror
  · exact hok _ _ rfl
  · exact herror

theorem answer_cases {σ α : Type} (choice : SqlChoice) (result : Except String (α × σ)) (s : σ) :
    (∃ error, answer choice result s = (.error error, s)) ∨
      ∃ value s', result = .ok (value, s') ∧ choice.fault = none ∧
        answer choice result s = (.ok value, s') := by
  cases hfault : choice.fault with
  | some error => exact .inl ⟨error, by simp [answer, hfault]⟩
  | none =>
      cases result with
      | error error => exact .inl ⟨error, by simp [answer, hfault]⟩
      | ok pair => exact .inr ⟨pair.1, pair.2, rfl, rfl, by simp [answer, hfault]⟩

theorem failing_answer {σ α : Type} {property : Except AppError α → σ → Prop}
    {choice : SqlChoice} {result : Except String (α × σ)} {state : σ} {message : String → String}
    (hok : ∀ value state', result = .ok (value, state') → property (.ok value) state')
    (herror : ∀ error, property (.error (.infrastructure error)) state) :
    property (failing message (answer choice result state).1) (answer choice result state).2 := by
  cases hfault : choice.fault with
  | some error =>
      simp only [answer, hfault]
      exact herror _
  | none =>
      cases hresult : result with
      | ok pair =>
          simp only [answer, hfault]
          exact hok pair.1 pair.2 hresult
      | error error =>
          simp only [answer, hfault]
          exact herror _

def beginTx (message : String → String) : Sql Unit := Prog.perform .begin (failing message)

def query (statement : Statement) (message : String → String) : Sql statement.Rows :=
  Prog.perform (.statement statement) (failing message)

def commitTx (message : String → String) : Sql Unit := Prog.perform .commit (failing message)

-- Dropping a transaction that was not committed rolls it back.
def inTx {α : Type} (body : Sql α) : Sql α := Prog.onError (.call .rollback fun _ => .ret ()) body

def executeUsageEvent (row : UsageEventRecord) (message : String → String) : Sql Unit :=
  Prog.perform (.insertUsageEvent row) (failing message)

-- The caller of `record_admin_audit` logs its failure and goes on.
def executeAdminAudit (row : AdminAuditRecord) : Sql Unit :=
  Prog.perform (.insertAdminAudit row) fun _ => .ok ()

def nowV7 : Sql Uuid := Prog.perform .nowV7 .ok

def unixTimestampString : Sql String := Prog.perform .unixTimestampString .ok

structure WalletRow where
  id : Uuid
  ownerUserId : Uuid
  balanceMicrocredits : Int64
  deriving DecidableEq, Repr

structure GrantRequest where
  amountMicrocredits : Int64
  reason : Option String
  deriving DecidableEq, Repr

structure GrantResponse where
  userId : Uuid
  walletId : Uuid
  balanceMicrocredits : Int64
  amountMicrocredits : Int64
  reason : String
  deriving DecidableEq, Repr

structure WalletResponse where
  userId : Uuid
  balanceMicrocredits : Int64
  deriving DecidableEq, Repr

structure BillingInput where
  requestId : Uuid
  userId : Uuid
  apiKeyId : Option Uuid
  providerId : Option Uuid
  routeId : Option Uuid
  daemonNodeId : Option Uuid
  model : String
  usage : TokenUsage
  statusCode : UInt16
  latencyMs : UInt64
  routePrice : RoutePrice
  deriving DecidableEq, Repr

def AUDIT_ACTION_CREDIT_GRANT : String := "credit_granted"
def AUDIT_ENTITY_USER : String := "user"
def CREDIT_GRANT_REASON : String := "credit_grant"
def USAGE_CHARGE_REASON : String := "usage_charge"

-- `str::len` counts bytes and fits `u64` for every string that fits into memory.
def byteLen (text : String) : UInt64 := UInt64.ofNatClamp text.utf8ByteSize

def estimateUsage (promptMessages : List ChatMessage) (completionText : String) : TokenUsage :=
  let promptBytes := (promptMessages.map fun message => byteLen message.content).sum
  let completionBytes := byteLen completionText
  let promptTokens := ceilDivide promptBytes 4
  let completionTokens := ceilDivide completionBytes 4
  { promptTokens
    completionTokens
    totalTokens := saturatingAddU64 promptTokens completionTokens
    estimated := true }

-- The two texts of `lock_sql` differ in FOR UPDATE only.
def lockForUpdate : DatabaseBackend → Bool
  | .sqlite => false
  | .postgres => true

def fetchWallet (backend : DatabaseBackend) (userId : Uuid) : Sql (Option (Uuid × Int64)) :=
  query (.selectWallet userId (lockForUpdate backend)) id

def openedWallet (userId id : Uuid) (now : String) : WalletRecord :=
  { id, ownerUserId := userId, balanceMicrocredits := 0, createdAt := now, updatedAt := now }

def ensureWalletInTx (backend : DatabaseBackend) (userId : Uuid) : Sql WalletRow := do
  match ← fetchWallet backend userId with
  | some (id, balanceMicrocredits) => pure { id, ownerUserId := userId, balanceMicrocredits }
  | none =>
      let walletId ← nowV7
      let now ← unixTimestampString
      query (.insertWallet (openedWallet userId walletId now))
        fun error => s!"cannot initialize wallet: {error}"
      match ← fetchWallet backend userId with
      | none =>
          throw (.infrastructure "wallet initialization did not result in a wallet row")
      | some (id, balanceMicrocredits) =>
          pure { id, ownerUserId := userId, balanceMicrocredits }

def ensureWallet (backend : DatabaseBackend) (userId : Uuid) : Sql WalletRow := do
  beginTx id
  inTx do
    let wallet ← ensureWalletInTx backend userId
    commitTx fun error => s!"failed to persist wallet row: {error}"
    pure wallet

def getWallet (backend : DatabaseBackend) (userId : Uuid) : Sql WalletResponse := do
  let wallet ← ensureWallet backend userId
  pure { userId := wallet.ownerUserId, balanceMicrocredits := wallet.balanceMicrocredits }

def fitI64 (value : UInt64) (key message : String) : Except AppError Int64 :=
  match i64TryFrom value with
  | some value => .ok value
  | none => .error (.invalidConfig key message)

-- The columns that `insert_usage_event` and its transactional twin bind.
def usageEventRow (input : BillingInput) (statusCode : UInt16) (id : Uuid) (now : String) :
    Except AppError UsageEventRecord := do
  let usagePromptTokens ← fitI64 input.usage.promptTokens "usage.prompt_tokens"
    "prompt tokens must fit into i64"
  let usageCompletionTokens ← fitI64 input.usage.completionTokens "usage.completion_tokens"
    "completion tokens must fit into i64"
  let usageTotalTokens ← fitI64 input.usage.totalTokens "usage.total_tokens"
    "total tokens must fit into i64"
  let latencyMs ← fitI64 input.latencyMs "usage.latency_ms" "latency must fit into i64"
  pure
    { id := id.toString
      requestId := input.requestId.toString
      userId := some input.userId.toString
      apiKeyId := input.apiKeyId.map Uuid.toString
      providerId := input.providerId.map Uuid.toString
      routeId := input.routeId.map Uuid.toString
      daemonNodeId := input.daemonNodeId.map Uuid.toString
      model := input.model
      usagePromptTokens
      usageCompletionTokens
      usageTotalTokens
      usageEstimated := if input.usage.estimated then 1 else 0
      statusCode := Int64.ofNat statusCode.toNat
      latencyMs
      createdAt := now }

theorem fitI64_error {value : UInt64} {key message : String} {error : AppError}
    (h : fitI64 value key message = .error error) : error = .invalidConfig key message := by
  unfold fitI64 at h
  split at h
  · cases h
  · cases h
    rfl

theorem usageEventRow_error {input : BillingInput} {statusCode : UInt16} {id : Uuid} {now : String}
    {error : AppError} (h : usageEventRow input statusCode id now = .error error) :
    ∃ key message, error = .invalidConfig key message := by
  have hfit : ∀ {α : Type} {value : UInt64} {key message : String}
      {rest : Int64 → Except AppError α},
      (fitI64 value key message >>= rest) = .error error →
        (∃ key message, error = .invalidConfig key message) ∨
          ∃ fitted, rest fitted = .error error := by
    intro α value key message rest hbind
    cases hvalue : fitI64 value key message with
    | error error' =>
        rw [hvalue] at hbind
        cases hbind
        exact .inl ⟨key, message, fitI64_error hvalue⟩
    | ok fitted =>
        rw [hvalue] at hbind
        exact .inr ⟨fitted, hbind⟩
  unfold usageEventRow at h
  obtain herror | ⟨_, h⟩ := hfit h
  · exact herror
  obtain herror | ⟨_, h⟩ := hfit h
  · exact herror
  obtain herror | ⟨_, h⟩ := hfit h
  · exact herror
  obtain herror | ⟨_, h⟩ := hfit h
  · exact herror
  cases h

theorem fitI64_ok {value : UInt64} (key message : String) (h : value.toNat < 2 ^ 63) :
    fitI64 value key message = .ok (Int64.ofNat value.toNat) := by
  simp only [fitI64, i64TryFrom, if_pos h]

theorem usageEventRow_ok (input : BillingInput)
    (hprompt : input.usage.promptTokens.toNat < 2 ^ 63)
    (hcompletion : input.usage.completionTokens.toNat < 2 ^ 63)
    (htotal : input.usage.totalTokens.toNat < 2 ^ 63) (hlatency : input.latencyMs.toNat < 2 ^ 63)
    (statusCode : UInt16) (id : Uuid) (now : String) :
    ∃ event, usageEventRow input statusCode id now = .ok event := by
  unfold usageEventRow
  rw [fitI64_ok _ _ hprompt, fitI64_ok _ _ hcompletion, fitI64_ok _ _ htotal,
    fitI64_ok _ _ hlatency]
  exact ⟨_, rfl⟩

def usageEventFailed (input : BillingInput) (error : String) : String :=
  s!"failed to insert usage event for request_id={input.requestId.toString} : {error}"

def insertUsageEvent (input : BillingInput) (statusCode : UInt16) : Sql Unit := do
  let now ← unixTimestampString
  let id ← nowV7
  let row ← ExceptT.mk (pure (usageEventRow input statusCode id now))
  executeUsageEvent row (usageEventFailed input)

def insertUsageEventTx (input : BillingInput) (statusCode : UInt16) : Sql Unit := do
  let now ← unixTimestampString
  let id ← nowV7
  let row ← ExceptT.mk (pure (usageEventRow input statusCode id now))
  query (.insertUsageEvent row) (usageEventFailed input)

def entryRow (wallet : WalletRow) (requestId : Option Uuid) (delta newBalance : Int64)
    (reason : String) (id : Uuid) (now : String) : CreditLedgerRecord :=
  { id, walletId := wallet.id, requestId, requestDeltaMicrocredits := delta,
    balanceAfterMicrocredits := newBalance, reason, createdAt := now }

-- The ledger row and the balance that `grant_credits` and `record_usage` write alike.
def postEntry (wallet : WalletRow) (requestId : Option Uuid) (delta newBalance : Int64)
    (reason : String) : Sql Unit := do
  let now ← unixTimestampString
  let id ← nowV7
  query (.insertLedger (entryRow wallet requestId delta newBalance reason id now))
    fun error => s!"failed to create credit ledger entry: {error}"
  query (.updateBalance wallet.id newBalance now)
    fun error => s!"failed to update wallet balance: {error}"

def recordAdminAudit (actorUserId userId : Uuid) (amountMicrocredits : Int64) (reason : String) :
    Sql Unit := do
  let createdAt ← unixTimestampString
  let id ← nowV7
  executeAdminAudit
    { id, actorUserId := some actorUserId, action := AUDIT_ACTION_CREDIT_GRANT,
      entityType := AUDIT_ENTITY_USER, entityId := some userId.toString,
      payloadAmountMicrocredits := amountMicrocredits, payloadReason := reason, createdAt }

def grantReason (payload : GrantRequest) : String :=
  (payload.reason.filter fun value => trim value ≠ "").getD CREDIT_GRANT_REASON

def grantCreditsTx (backend : DatabaseBackend) (userId : Uuid) (payload : GrantRequest) :
    Sql (WalletRow × Int64) := do
  let wallet ← ensureWalletInTx backend userId
  let newBalance := saturatingAdd wallet.balanceMicrocredits payload.amountMicrocredits
  postEntry wallet none payload.amountMicrocredits newBalance (grantReason payload)
  commitTx fun error => s!"failed to commit credit grant transaction: {error}"
  pure (wallet, newBalance)

def grantCredits (backend : DatabaseBackend) (userId actorUserId : Uuid) (payload : GrantRequest) :
    Sql GrantResponse :=
  if payload.amountMicrocredits ≤ 0 then
    throw (.invalidConfig "grant.amount_microcredits"
      "amount_microcredits must be greater than 0")
  else do
    beginTx fun error => s!"failed to begin grant credits transaction: {error}"
    let (wallet, newBalance) ← inTx (grantCreditsTx backend userId payload)
    recordAdminAudit actorUserId userId payload.amountMicrocredits (grantReason payload)
    pure
      { userId
        walletId := wallet.id
        balanceMicrocredits := newBalance
        amountMicrocredits := payload.amountMicrocredits
        reason := grantReason payload }

def PAYMENT_REQUIRED : UInt16 := 402

def chargeInput (usage : TokenUsage) : UsageChargeInput :=
  { promptTokens := usage.promptTokens, completionTokens := usage.completionTokens }

def usageCharge (usage : TokenUsage) (price : RoutePrice) : UsageCharge :=
  calculateUsageCharge (chargeInput usage) price

def recordUsageTx (backend : DatabaseBackend) (input : BillingInput) (charge : Int64) :
    Sql Unit := do
  let wallet ← ensureWalletInTx backend input.userId
  if wallet.balanceMicrocredits < charge then
    insertUsageEvent { input with statusCode := PAYMENT_REQUIRED } PAYMENT_REQUIRED
    throw .insufficientCredit
  else
    let newBalance := wallet.balanceMicrocredits - charge
    postEntry wallet (some input.requestId) (-charge) newBalance USAGE_CHARGE_REASON
    insertUsageEventTx input input.statusCode
    commitTx fun error => s!"failed to commit metering transaction: {error}"

def recordUsage (backend : DatabaseBackend) (input : BillingInput) : Sql Unit :=
  if ¬(200 ≤ input.statusCode ∧ input.statusCode ≤ 299) then
    insertUsageEvent input input.statusCode
  else if (usageCharge input.usage input.routePrice).total ≤ 0 then
    insertUsageEvent input input.statusCode
  else do
    beginTx fun error => s!"cannot open transaction for metering: {error}"
    inTx (recordUsageTx backend input (usageCharge input.usage input.routePrice).total)

def ensureSufficientCredit (backend : DatabaseBackend) (userId : Uuid) (usage : TokenUsage)
    (routePrice : RoutePrice) : Sql Unit :=
  if (usageCharge usage routePrice).total ≤ 0 then pure ()
  else do
    let wallet ← ensureWallet backend userId
    if wallet.balanceMicrocredits < (usageCharge usage routePrice).total then
      throw .insufficientCredit
    else pure ()

end Billing

end Mizan
