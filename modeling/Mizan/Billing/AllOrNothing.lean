import Mizan.Billing.Session
import Mizan.Interleaving.Eval
import Mizan.Table.Update

namespace Mizan.Billing

open Interleaving

-- A database that may fail at any command, and how often it has been asked.
def answerNext (choices : Nat → SqlChoice) (c : SqlCommand) (s : Session × Nat) :
    c.Response × (Session × Nat) :=
  let result := Session.exec c (choices s.2) s.1
  (result.1, result.2, s.2 + 1)

def recordUsageOn (backend : DatabaseBackend) (choices : Nat → SqlChoice) (input : BillingInput)
    (database : Database) : Except AppError Unit × Database :=
  let result := (recordUsage backend input).run.eval (answerNext choices) (.idle database, 0)
  (result.1, result.2.1.database)

-- The columns that the row of a usage event has from its input.
structure EventOf (input : BillingInput) (statusCode : UInt16) (row : UsageEventRecord) : Prop where
  requestId : row.requestId = input.requestId.toString
  userId : row.userId = some input.userId.toString
  model : row.model = input.model
  promptTokens : row.usagePromptTokens.toInt = input.usage.promptTokens.toNat
  completionTokens : row.usageCompletionTokens.toInt = input.usage.completionTokens.toNat
  totalTokens : row.usageTotalTokens.toInt = input.usage.totalTokens.toNat
  statusCode : row.statusCode.toInt = statusCode.toNat
  latencyMs : row.latencyMs.toInt = input.latencyMs.toNat

def EventAdded (input : BillingInput) (statusCode : UInt16) (before after : Database) : Prop :=
  ∃ row, EventOf input statusCode row ∧ after.usageEvents = before.usageEvents ++ [row]

-- One ledger row of minus the charge, and the balance of the user's wallet lowered by it.
def ChargePosted (input : BillingInput) (before after : Accounts) : Prop :=
  ∃ wallet entry, before.walletOf input.userId = some wallet ∧
    after.ledger = before.ledger ++ [entry] ∧
    after.wallets = Table.update (fun row => row.id = wallet.id)
      (fun row => { row with
        balanceMicrocredits := entry.balanceAfterMicrocredits
        updatedAt := entry.createdAt }) before.wallets ∧
    entry.walletId = wallet.id ∧ entry.requestId = some input.requestId ∧
    entry.requestDeltaMicrocredits.toInt =
      -(usageCharge input.usage input.routePrice).total.toInt ∧
    entry.balanceAfterMicrocredits.toInt = wallet.balanceMicrocredits.toInt -
      (usageCharge input.usage input.routePrice).total.toInt

def AllOrNothing (input : BillingInput) (before : Database) :
    Except AppError Unit → Database → Prop
  | .ok (), after =>
      EventAdded input input.statusCode before after ∧
        (Charged input → ChargePosted input before.accounts after.accounts) ∧
        (¬Charged input → after.accounts = before.accounts)
  | .error .insufficientCredit, after =>
      EventAdded input PAYMENT_REQUIRED before after ∧ after.accounts = before.accounts
  | .error _, after =>
      after.usageEvents = before.usageEvents ∧ after.accounts = before.accounts

section Rows

variable {input : BillingInput} {statusCode : UInt16} {id : Uuid} {now : String}

theorem fitI64_value {value : UInt64} {key message : String} {fitted : Int64}
    (h : fitI64 value key message = .ok fitted) : fitted.toInt = value.toNat := by
  simp only [fitI64, i64TryFrom] at h
  by_cases hvalue : value.toNat < 2 ^ 63
  · simp only [if_pos hvalue, Except.ok.injEq] at h
    rw [← h]
    exact Int64.toInt_ofNat_of_lt hvalue
  · simp only [if_neg hvalue, reduceCtorEq] at h

theorem usageEventRow_eventOf {row : UsageEventRecord}
    (h : usageEventRow input statusCode id now = .ok row) : EventOf input statusCode row := by
  unfold usageEventRow at h
  obtain ⟨promptTokens, hprompt, h⟩ := except_bind_eq_ok h
  obtain ⟨completionTokens, hcompletion, h⟩ := except_bind_eq_ok h
  obtain ⟨totalTokens, htotal, h⟩ := except_bind_eq_ok h
  obtain ⟨latencyMs, hlatency, h⟩ := except_bind_eq_ok h
  cases h
  have hstatus : (Int64.ofNat statusCode.toNat).toInt = statusCode.toNat := by
    have hlt := statusCode.toNat_lt
    exact Int64.toInt_ofNat_of_lt (by omega)
  exact ⟨rfl, rfl, rfl, fitI64_value hprompt, fitI64_value hcompletion, fitI64_value htotal,
    hstatus, fitI64_value hlatency⟩

end Rows

section Outcome

variable {backend : DatabaseBackend} {database : Database} {input : BillingInput} {s : Session}

theorem eventAdded_of_noted {statusCode : UInt16}
    (h : (Session.isolation backend (.recordUsage input) database).Noted input statusCode s) :
    EventAdded input statusCode database s.database ∧ s.database.accounts = database.accounts := by
  obtain ⟨id, now, event, hevent, -, hsame⟩ := h
  exact ⟨⟨event, usageEventRow_eventOf hevent, hsame.usageEvents⟩, hsame.accounts⟩

-- The charge is posted to a wallet that was there before.
theorem chargePosted_of_writes {wallet : WalletRecord} {charge : Int64} {id : Uuid} {now : String}
    {row : UsageEventRecord} (hwallet : database.accounts.walletOf input.userId = some wallet)
    (hcharge : (usageCharge input.usage input.routePrice).total = charge)
    (hpositive : 0 < charge.toInt) (hbalance : charge.toInt ≤ wallet.balanceMicrocredits.toInt) :
    ChargePosted input database.accounts
      (database.accounts.applyAll (entryWrites (.ofRecord wallet) (some input.requestId) (-charge)
        (wallet.balanceMicrocredits - charge) USAGE_CHARGE_REASON id now ++
          [.usageEvent row])) := by
  refine ⟨wallet, entryRow (.ofRecord wallet) (some input.requestId) (-charge)
    (wallet.balanceMicrocredits - charge) USAGE_CHARGE_REASON id now, hwallet, rfl, ?_, rfl, rfl,
    ?_, ?_⟩
  · simp [entryWrites, Accounts.apply, Table.update, entryRow, WalletRow.ofRecord]
  · rw [hcharge]
    exact toInt_neg_of_pos hpositive
  · rw [hcharge]
    have hlower := Int64.le_toInt wallet.balanceMicrocredits
    have hupper := Int64.toInt_lt wallet.balanceMicrocredits
    exact toInt_sub_of_bounds (by omega) (by omega)

-- A wallet that was opened just now has nothing to be charged.
theorem Prepared.found_of_charge {wallet : WalletRecord} {opening : List Write}
    (h : Prepared input.userId database.accounts wallet opening) (hcharged : Charged input)
    (hbalance : ¬wallet.balanceMicrocredits < (usageCharge input.usage input.routePrice).total) :
    database.accounts.walletOf input.userId = some wallet ∧ opening = [] := by
  cases h with
  | found hwallet => exact ⟨hwallet, rfl⟩
  | opened hnone hid =>
      have hpositive := toInt_pos_of_not_le hcharged.2
      have hzero : (usageCharge input.usage input.routePrice).total.toInt ≤ 0 :=
        toInt_le_of_not_lt hbalance
      omega

theorem posted_of_settled
    (h : (Session.isolation backend (.recordUsage input) database).phase .settled [] s) :
    EventAdded input input.statusCode database s.database ∧
      ChargePosted input database.accounts s.database.accounts := by
  obtain ⟨-, wallet, opening, writes, hprepared, hwrites, hsame⟩ := h
  cases hwrites with
  | usage id now eventId eventNow hcharged hbalance hevent =>
      obtain ⟨hwallet, rfl⟩ := hprepared.found_of_charge hcharged hbalance
      have hevents : s.database.usageEvents = database.usageEvents ++ [] ++ _ := hsame.usageEvents
      rw [List.append_nil] at hevents
      refine ⟨⟨_, usageEventRow_eventOf hevent, hevents⟩, ?_⟩
      rw [hsame.accounts, Database.accounts_applyAll]
      exact chargePosted_of_writes hwallet rfl (toInt_pos_of_not_le hcharged.2)
        (toInt_le_of_not_lt hbalance)

theorem recordUsage_spec (backend : DatabaseBackend) (input : BillingInput) (database : Database) :
    (Protocol.alone Session.system).ewp 0 (recordUsage backend input)
      (fun _ s => AllOrNothing input database (.ok ()) s.database)
      (fun error s => AllOrNothing input database (.error error) s.database) (.idle database) := by
  have hidle : (Session.isolation backend (.recordUsage input) database).phase .idle []
      (.idle database) := Session.phase_idle (.recordUsage input) database
  refine Protocol.ewp_mono (fun _ s _ hs => ?_) (fun error s _ hs => ?_)
    (Isolation.recordUsage_spec hidle)
  · by_cases hcharged : Charged input
    · obtain ⟨hevent, hposted⟩ := posted_of_settled (hs.1 hcharged)
      exact ⟨hevent, fun _ => hposted, fun h => absurd hcharged h⟩
    · obtain ⟨hevent, hsame⟩ := eventAdded_of_noted (hs.2 hcharged)
      exact ⟨hevent, fun h => absurd h hcharged, fun _ => hsame⟩
  · by_cases hshort : error = .insufficientCredit
    · subst hshort
      exact eventAdded_of_noted (hs.2 rfl).2
    · obtain ⟨-, hsame⟩ := hs.1 hshort
      have hevents : s.database.usageEvents = database.usageEvents ++ [] := hsame.usageEvents
      rw [List.append_nil] at hevents
      cases error with
      | insufficientCredit => exact absurd rfl hshort
      | _ => exact ⟨hevents, hsame.accounts⟩

end Outcome

theorem record_usage_all_or_nothing (backend : DatabaseBackend) (choices : Nat → SqlChoice)
    (input : BillingInput) (database : Database) :
    AllOrNothing input database (recordUsageOn backend choices input database).1
      (recordUsageOn backend choices input database).2 := by
  have hexec : ∀ (c : SqlCommand) (s : Session × Nat), ∃ choice,
      Session.system.exec 0 c choice s.1 =
        some ((answerNext choices c s).1, (answerNext choices c s).2.1) :=
    fun c s => ⟨choices s.2, rfl⟩
  obtain ⟨script, hplay⟩ := Prog.exists_play_eval Prod.fst hexec (recordUsage backend input).run
    (.idle database, 0)
  have hresult := Protocol.alone_play (recordUsage_spec backend input database) hplay
  rw [recordUsageOn]
  cases hreturned : ((recordUsage backend input).run.eval (answerNext choices)
      (Session.idle database, 0)).1 with
  | ok value =>
      rw [hreturned] at hresult
      exact hresult
  | error error =>
      rw [hreturned] at hresult
      exact hresult

end Mizan.Billing
