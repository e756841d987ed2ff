import Mizan.Billing.Settle
import Mizan.Billing.Ledger

namespace Mizan.Billing

open Interleaving

-- What a program has left of the accounts, and whether it succeeded.
def Settles {α : Type} (result : Except AppError α × Engine) (outcome : Bool × Accounts) : Prop :=
  result.1.isOk = outcome.1 ∧ result.2.session.database.accounts = outcome.2

section Jobs

variable {backend : DatabaseBackend} {supply : Supply} {database : Database} {α β : Type}
  {program : Sql α} {e : Engine} {outcome : Bool × Accounts}

theorem settles_bind {rest : α → Sql β}
    (h : Settles (program.run.eval (Engine.handle backend supply) e) outcome)
    (hrest : ∀ value e', Settles ((rest value).run.eval (Engine.handle backend supply) e')
      (true, e'.session.database.accounts)) :
    Settles ((program >>= rest).run.eval (Engine.handle backend supply) e) outcome := by
  rcases hresult : program.run.eval (Engine.handle backend supply) e with ⟨error | value, e'⟩
  · rw [hresult] at h
    rw [Prog.eval_error hresult]
    exact h
  · rw [hresult] at h
    rw [Prog.eval_ok hresult]
    obtain ⟨hok, haccounts⟩ := hrest value e'
    exact ⟨hok.trans h.1, haccounts.trans h.2⟩

-- A rollback leaves the accounts that the transaction began with.
theorem settles_inTx (h : Settles (program.run.eval (Engine.handle backend supply) e) outcome) :
    Settles ((inTx program).run.eval (Engine.handle backend supply) e) outcome := by
  rcases hresult : program.run.eval (Engine.handle backend supply) e with ⟨error | value, e'⟩
  · rw [hresult] at h
    unfold inTx
    rw [Prog.eval_onError_error hresult]
    exact h
  · rw [hresult] at h
    unfold inTx
    rw [Prog.eval_onError_ok hresult]
    exact h

theorem prepare_hasWalletId {userId : Uuid} {accounts : Accounts} {wallet : WalletRecord}
    {opening : List Write} {asked : Nat}
    (h : prepare supply userId accounts = some (wallet, opening, asked)) :
    (accounts.applyAll opening).hasWalletId wallet.id = true := by
  unfold prepare at h
  cases hfound : accounts.walletOf userId with
  | some found =>
      simp only [hfound, Option.some.injEq, Prod.mk.injEq] at h
      obtain ⟨rfl, rfl, -⟩ := h
      exact (Accounts.hasWalletId_iff _).mpr ⟨found, (Accounts.walletOf_mem hfound).1, rfl⟩
  | none =>
      simp only [hfound] at h
      split at h
      · cases h
      · obtain ⟨rfl, rfl, -⟩ := by simpa using h
        simp [Accounts.hasWalletId_iff, Accounts.apply]

theorem settles_begin {message : String → String} {rest : Unit → Sql α}
    (h : Settles ((rest ()).run.eval (Engine.handle backend supply) (inside database [] 1))
      outcome) :
    Settles ((beginTx message >>= rest).run.eval (Engine.handle backend supply)
      { session := .idle database, asked := 0 }) outcome := by
  rw [Prog.eval_ok (eval_beginTx database message)]
  exact h

theorem settles_grantCreditsTx (userId : Uuid) (payload : GrantRequest) :
    Settles ((grantCreditsTx backend userId payload).run.eval (Engine.handle backend supply)
        (inside database [] 1))
      (match prepare supply userId database.accounts with
      | none => (false, database.accounts)
      | some (wallet, opening, asked) =>
          let newBalance := saturatingAdd wallet.balanceMicrocredits payload.amountMicrocredits
          if entryFits backend payload.amountMicrocredits newBalance then
            (true, database.accounts.applyAll (opening ++ entryAt supply asked wallet none
              payload.amountMicrocredits newBalance (grantReason payload)))
          else (false, database.accounts)) := by
  have hprepare := @eval_ensureWalletInTx backend supply database userId
  unfold grantCreditsTx
  cases hprepared : prepare supply userId database.accounts with
  | none =>
      rw [hprepared] at hprepare
      rw [Prog.eval_error hprepare]
      exact ⟨rfl, rfl⟩
  | some prepared =>
      obtain ⟨wallet, opening, asked⟩ := prepared
      rw [hprepared] at hprepare
      rw [Prog.eval_ok hprepare]
      have hpost := @eval_postEntry backend supply database opening asked wallet
        (prepare_hasWalletId hprepared) none payload.amountMicrocredits
        (saturatingAdd wallet.balanceMicrocredits payload.amountMicrocredits) (grantReason payload)
      by_cases hfits : entryFits backend payload.amountMicrocredits
          (saturatingAdd wallet.balanceMicrocredits payload.amountMicrocredits)
      · rw [if_pos hfits] at hpost
        simp only [if_pos hfits]
        refine (congrArg (Settles · _) (Prog.eval_ok hpost)).mpr ?_
        rw [Prog.eval_ok (eval_commitTx _)]
        exact ⟨rfl, Database.accounts_applyAll _ _⟩
      · rw [if_neg hfits] at hpost
        simp only [if_neg hfits]
        refine (congrArg (Settles · _) (Prog.eval_error hpost)).mpr ?_
        exact ⟨rfl, rfl⟩

theorem settles_recordUsageTx (input : BillingInput) (charge : Int64) :
    Settles ((recordUsageTx backend input charge).run.eval (Engine.handle backend supply)
        (inside database [] 1))
      (match prepare supply input.userId database.accounts with
      | none => (false, database.accounts)
      | some (wallet, opening, asked) =>
          let newBalance := wallet.balanceMicrocredits - charge
          if wallet.balanceMicrocredits < charge then (false, database.accounts)
          else if entryFits backend (-charge) newBalance && eventFits backend input then
            (true, database.accounts.applyAll (opening ++ entryAt supply asked wallet
              (some input.requestId) (-charge) newBalance USAGE_CHARGE_REASON))
          else (false, database.accounts)) := by
  have hprepare := @eval_ensureWalletInTx backend supply database input.userId
  unfold recordUsageTx
  cases hprepared : prepare supply input.userId database.accounts with
  | none =>
      rw [hprepared] at hprepare
      rw [Prog.eval_error hprepare]
      exact ⟨rfl, rfl⟩
  | some prepared =>
      obtain ⟨wallet, opening, asked⟩ := prepared
      rw [hprepared] at hprepare
      rw [Prog.eval_ok hprepare]
      by_cases hcredit : wallet.balanceMicrocredits < charge
      · have hrefused : (WalletRow.ofRecord wallet).balanceMicrocredits < charge := hcredit
        simp only [if_pos hcredit, if_pos hrefused]
        obtain ⟨result, e', hinsert, -, -, haccounts⟩ := @eval_insertUsageEvent backend supply
          { input with statusCode := PAYMENT_REQUIRED } PAYMENT_REQUIRED
          (inside database opening asked)
        cases result with
        | error error =>
            rw [Prog.eval_error hinsert]
            exact ⟨rfl, haccounts⟩
        | ok value =>
            rw [Prog.eval_ok hinsert]
            exact ⟨rfl, haccounts⟩
      · have hcovered : ¬(WalletRow.ofRecord wallet).balanceMicrocredits < charge := hcredit
        simp only [if_neg hcredit, if_neg hcovered]
        have hpost := @eval_postEntry backend supply database opening asked wallet
          (prepare_hasWalletId hprepared) (some input.requestId) (-charge)
          (wallet.balanceMicrocredits - charge) USAGE_CHARGE_REASON
        by_cases hfits : entryFits backend (-charge) (wallet.balanceMicrocredits - charge)
        · rw [if_pos hfits] at hpost
          refine (congrArg (Settles · _) (Prog.eval_ok hpost)).mpr ?_
          rcases eval_insertUsageEventTx input input.statusCode with
            ⟨hevent, row, hinsert⟩ | ⟨hevent, error, asked', hinsert⟩
          · rw [Prog.eval_ok hinsert, eval_commitTx, hfits, hevent]
            refine ⟨rfl, ?_⟩
            rw [Session.idle, Database.accounts_applyAll, Accounts.applyAll_append]
            rfl
          · rw [Prog.eval_error hinsert, hfits, hevent]
            exact ⟨rfl, rfl⟩
        · rw [if_neg hfits] at hpost
          refine (congrArg (Settles · _) (Prog.eval_error hpost)).mpr ?_
          have hunfit : entryFits backend (-charge) (wallet.balanceMicrocredits - charge) = false :=
            (Bool.not_eq_true _).mp hfits
          rw [hunfit]
          exact ⟨rfl, rfl⟩

theorem settles_insertUsageEvent (input : BillingInput) (statusCode : UInt16) (e : Engine) :
    Settles ((insertUsageEvent input statusCode).run.eval (Engine.handle backend supply) e)
      (eventFits backend input, e.session.database.accounts) := by
  obtain ⟨result, e', hinsert, hok, -, haccounts⟩ :=
    @eval_insertUsageEvent backend supply input statusCode e
  rw [hinsert]
  exact ⟨hok, haccounts⟩

theorem eval_ensureWallet (database : Database) (userId : Uuid) :
    match prepare supply userId database.accounts with
    | none => ∃ error e', (ensureWallet backend userId).run.eval (Engine.handle backend supply)
        { session := .idle database, asked := 0 } = (.error error, e') ∧
          e'.session.database = database
    | some (wallet, opening, asked) =>
        (ensureWallet backend userId).run.eval (Engine.handle backend supply)
          { session := .idle database, asked := 0 } =
            (.ok (.ofRecord wallet),
              { session := .idle (database.applyAll opening), asked := asked + 1 }) := by
  have hprepare := @eval_ensureWalletInTx backend supply database userId
  unfold ensureWallet inTx
  rw [Prog.eval_ok (eval_beginTx database _)]
  cases hprepared : prepare supply userId database.accounts with
  | none =>
      rw [hprepared] at hprepare
      exact ⟨_, _, Prog.eval_onError_error (Prog.eval_error hprepare), rfl⟩
  | some prepared =>
      rw [hprepared] at hprepare
      refine Prog.eval_onError_ok ?_
      rw [Prog.eval_ok hprepare, Prog.eval_ok (eval_commitTx _)]
      rfl

theorem settles_ensureWallet (database : Database) (userId : Uuid) :
    Settles ((ensureWallet backend userId).run.eval (Engine.handle backend supply)
        { session := .idle database, asked := 0 })
      (match prepare supply userId database.accounts with
      | none => (false, database.accounts)
      | some (_, opening, _) => (true, database.accounts.applyAll opening)) := by
  have hensure := @eval_ensureWallet backend supply database userId
  cases hprepared : prepare supply userId database.accounts with
  | none =>
      rw [hprepared] at hensure
      obtain ⟨error, e', heval, hdatabase⟩ := hensure
      rw [heval]
      exact ⟨rfl, congrArg Database.accounts hdatabase⟩
  | some prepared =>
      rw [hprepared] at hensure
      rw [hensure]
      exact ⟨rfl, Database.accounts_applyAll _ _⟩

theorem settles_ensureSufficientCredit (database : Database) (userId : Uuid) (charge : Int64) :
    Settles ((do
        let wallet ← ensureWallet backend userId
        if wallet.balanceMicrocredits < charge then throw .insufficientCredit
        else pure () : Sql Unit).run.eval (Engine.handle backend supply)
          { session := .idle database, asked := 0 })
      (match prepare supply userId database.accounts with
      | none => (false, database.accounts)
      | some (wallet, opening, _) =>
          (!decide (wallet.balanceMicrocredits < charge), database.accounts.applyAll opening)) := by
  have hensure := @eval_ensureWallet backend supply database userId
  cases hprepared : prepare supply userId database.accounts with
  | none =>
      rw [hprepared] at hensure
      obtain ⟨error, e', heval, hdatabase⟩ := hensure
      rw [Prog.eval_error heval]
      exact ⟨rfl, congrArg Database.accounts hdatabase⟩
  | some prepared =>
      obtain ⟨wallet, opening, asked⟩ := prepared
      rw [hprepared] at hensure
      rw [Prog.eval_ok hensure]
      by_cases hcredit : wallet.balanceMicrocredits < charge
      · have hrefused : (WalletRow.ofRecord wallet).balanceMicrocredits < charge := hcredit
        simp only [if_pos hrefused, hcredit]
        exact ⟨rfl, Database.accounts_applyAll _ _⟩
      · have hcovered : ¬(WalletRow.ofRecord wallet).balanceMicrocredits < charge := hcredit
        simp only [if_neg hcovered, hcredit]
        exact ⟨rfl, Database.accounts_applyAll _ _⟩

theorem settles_recordAdminAudit (actorUserId userId : Uuid) (amount : Int64) (reason : String)
    (e : Engine) :
    Settles ((recordAdminAudit actorUserId userId amount reason).run.eval
      (Engine.handle backend supply) e) (true, e.session.database.accounts) := by
  exact ⟨rfl, rfl⟩

end Jobs

theorem callOn_settle (backend : DatabaseBackend) (call : BackendCall) (database : Database) :
    ((callOn backend call database).1.isOk, (callOn backend call database).2.accounts) =
      settle backend call database.accounts := by
  suffices h : Settles ((call.job.program backend).run.eval (Engine.handle backend call.supply)
      { session := .idle database, asked := 0 }) (settle backend call database.accounts) from
    Prod.ext h.1 h.2
  unfold settle
  cases call.job with
  | grantCredits userId actorUserId payload =>
      refine settles_bind ?_ fun _ _ => ⟨rfl, rfl⟩
      unfold grantCredits
      by_cases hamount : payload.amountMicrocredits ≤ 0
      · simp only [if_pos hamount]
        exact ⟨rfl, rfl⟩
      · simp only [if_neg hamount]
        refine settles_begin (settles_bind
          (settles_inTx (settles_grantCreditsTx userId payload)) ?_)
        intro value e'
        exact settles_bind (settles_recordAdminAudit _ _ _ _ _) fun _ _ => ⟨rfl, rfl⟩
  | recordUsage input =>
      refine settles_bind ?_ fun _ _ => ⟨rfl, rfl⟩
      unfold recordUsage
      by_cases hstatus : 200 ≤ input.statusCode ∧ input.statusCode ≤ 299
      · by_cases hcharge : (usageCharge input.usage input.routePrice).total ≤ 0
        · have huncharged : ¬Charged input := fun h => h.2 hcharge
          simp only [hstatus, hcharge, huncharged]
          exact settles_insertUsageEvent input input.statusCode _
        · have hcharged : Charged input := ⟨hstatus, hcharge⟩
          simp only [hstatus, hcharge, hcharged]
          exact settles_begin (settles_inTx (settles_recordUsageTx input _))
      · have huncharged : ¬Charged input := fun h => hstatus h.1
        simp only [hstatus, huncharged]
        exact settles_insertUsageEvent input input.statusCode _
  | ensureSufficientCredit userId usage routePrice =>
      refine settles_bind ?_ fun _ _ => ⟨rfl, rfl⟩
      unfold ensureSufficientCredit
      by_cases hcharge : (usageCharge usage routePrice).total ≤ 0
      · simp only [if_pos hcharge]
        exact ⟨rfl, rfl⟩
      · simp only [if_neg hcharge]
        exact settles_ensureSufficientCredit database userId _
  | ensureWallet userId =>
      exact settles_bind (settles_ensureWallet database userId) fun _ _ => ⟨rfl, rfl⟩
  | getWallet userId =>
      refine settles_bind ?_ fun _ _ => ⟨rfl, rfl⟩
      exact settles_bind (settles_ensureWallet database userId) fun _ _ => ⟨rfl, rfl⟩

-- The outcome of every call and the accounts after it.
def history (backend : DatabaseBackend) : List BackendCall → Database → List (Bool × Accounts)
  | [], _ => []
  | call :: calls, database =>
      let result := callOn backend call database
      (result.1.isOk, result.2.accounts) :: history backend calls result.2

-- The values that a call stores on these accounts, if it gets that far, have 32 bits.
def FitsIntegers (job : Job) (accounts : Accounts) : Prop :=
  match job with
  | .grantCredits userId _ payload => payload.amountMicrocredits ≤ 0 ∨
      (balanceOf accounts userId).toInt + payload.amountMicrocredits.toInt < 2 ^ 31
  | .recordUsage input =>
      (Charged input ∧ balanceOf accounts input.userId <
        (usageCharge input.usage input.routePrice).total) ∨
      (eventFits .sqlite input = true → eventFits .postgres input = true)
  | _ => True

def EveryCallFits : List BackendCall → Database → Prop
  | [], _ => True
  | call :: calls, database => FitsIntegers call.job database.accounts ∧
      EveryCallFits calls (callOn .sqlite call database).2

-- No id that a call draws is the id of a wallet already.
def FreshIds : List BackendCall → Database → Prop
  | [], _ => True
  | call :: calls, database =>
      (∀ n, database.accounts.hasWalletId (call.supply n).1 = false) ∧
        FreshIds calls (callOn .sqlite call database).2

-- The balances that both backends can hold and neither lets fall below zero.
def SmallBalances (accounts : Accounts) : Prop :=
  ∀ wallet ∈ accounts.wallets,
    0 ≤ wallet.balanceMicrocredits.toInt ∧ wallet.balanceMicrocredits.toInt < 2 ^ 31

theorem fitsColumn_sqlite (value : Int64) : fitsColumn .sqlite value = true := by
  have hlower := Int64.le_toInt value
  have hupper := Int64.toInt_lt value
  rw [fitsColumn_iff]
  simp only [columnLimit]
  omega

theorem fitsColumn_postgres (value : Int64) :
    fitsColumn .postgres value = true ↔ -2 ^ 31 ≤ value.toInt ∧ value.toInt < 2 ^ 31 := by
  rw [fitsColumn_iff]
  simp only [columnLimit]
  omega

theorem entryFits_sqlite (delta newBalance : Int64) :
    entryFits .sqlite delta newBalance = true := by
  simp [entryFits, fitsColumn_sqlite]

theorem eventFits_sqlite {input : BillingInput} (h : eventFits .postgres input = true) :
    eventFits .sqlite input = true := by
  rw [eventFits_iff] at h ⊢
  simp only [columnLimit] at h ⊢
  omega

section Prepare

variable {supply : Supply} {userId : Uuid} {accounts : Accounts} {wallet : WalletRecord}
  {opening : List Write} {asked : Nat}

theorem prepare_isSome (hfresh : ∀ n, accounts.hasWalletId (supply n).1 = false) :
    ∃ wallet opening asked, prepare supply userId accounts = some (wallet, opening, asked) := by
  unfold prepare
  cases accounts.walletOf userId with
  | some wallet => exact ⟨wallet, [], 2, rfl⟩
  | none =>
      have hid : accounts.hasWalletId (openedWallet userId (supply 2).1 (supply 3).2).id = false :=
        hfresh 2
      simp only [hid, Bool.false_eq_true, if_false]
      exact ⟨_, _, _, rfl⟩

theorem prepared_of_prepare (h : prepare supply userId accounts = some (wallet, opening, asked)) :
    Prepared userId accounts wallet opening := by
  unfold prepare at h
  cases hfound : accounts.walletOf userId with
  | some found =>
      simp only [hfound, Option.some.injEq, Prod.mk.injEq] at h
      obtain ⟨rfl, rfl, -⟩ := h
      exact .found hfound
  | none =>
      simp only [hfound] at h
      split at h
      · cases h
      · rename_i hid
        obtain ⟨rfl, rfl, -⟩ := by simpa using h
        exact .opened hfound ((Bool.not_eq_true _).mp hid)

theorem SmallBalances.prepared (h : SmallBalances accounts)
    (hprepared : Prepared userId accounts wallet opening) :
    SmallBalances (accounts.applyAll opening) := by
  cases hprepared with
  | found => exact h
  | opened =>
      intro other hother
      rcases List.mem_append.mp hother with hold | hnew
      · exact h other hold
      · rw [List.mem_singleton.mp hnew]
        simp [openedWallet]

theorem SmallBalances.entry (h : SmallBalances accounts) {newBalance : Int64}
    (hlower : 0 ≤ newBalance.toInt) (hupper : newBalance.toInt < 2 ^ 31) (requestId : Option Uuid)
    (delta : Int64) (reason : String) :
    SmallBalances (accounts.applyAll
      (entryAt supply asked wallet requestId delta newBalance reason)) := by
  intro other hother
  simp only [entryAt, entryWrites, Accounts.applyAll_cons, Accounts.applyAll_nil, Accounts.apply,
    List.mem_map] at hother
  obtain ⟨before, hbefore, rfl⟩ := hother
  split
  · exact ⟨hlower, hupper⟩
  · exact h before hbefore

theorem SmallBalances.bounds (h : SmallBalances accounts)
    (hprepared : Prepared userId accounts wallet opening) :
    0 ≤ wallet.balanceMicrocredits.toInt ∧ wallet.balanceMicrocredits.toInt < 2 ^ 31 := by
  cases hprepared with
  | found hwallet => exact h wallet (Accounts.walletOf_mem hwallet).1
  | opened => simp [openedWallet]

end Prepare

section Agreement

variable {call : BackendCall} {accounts : Accounts}

-- A grant within `i64` fits on PostgreSQL exactly when the balance after it has 32 bits.
theorem entryFits_grant {balance amount : Int64} (hlower : 0 ≤ balance.toInt)
    (hupper : balance.toInt < 2 ^ 31) (hamount : 0 < amount.toInt) :
    entryFits .postgres amount (saturatingAdd balance amount) = true ↔
      balance.toInt + amount.toInt < 2 ^ 31 := by
  have hmax := Int64.toInt_lt amount
  rw [entryFits, Bool.and_eq_true, fitsColumn_postgres, fitsColumn_postgres, toInt_saturatingAdd]
  omega

theorem entryFits_charge {balance charge : Int64} (hupper : balance.toInt < 2 ^ 31)
    (hcharge : 0 < charge.toInt) (hcovered : charge.toInt ≤ balance.toInt) :
    entryFits .postgres (-charge) (balance - charge) = true := by
  rw [entryFits, Bool.and_eq_true, fitsColumn_postgres, fitsColumn_postgres,
    toInt_neg_of_pos hcharge, toInt_sub_of_bounds (by omega) (by omega)]
  omega

theorem settle_agrees (hsmall : SmallBalances accounts)
    (hfresh : ∀ n, accounts.hasWalletId (call.supply n).1 = false) :
    settle .sqlite call accounts = settle .postgres call accounts ↔
      FitsIntegers call.job accounts := by
  unfold settle FitsIntegers
  cases call.job with
  | grantCredits userId actorUserId payload =>
      dsimp only
      by_cases hamount : payload.amountMicrocredits ≤ 0
      · simp [hamount]
      · obtain ⟨wallet, opening, asked, hprepare⟩ := @prepare_isSome call.supply userId _ hfresh
        have hprepared := prepared_of_prepare hprepare
        obtain ⟨hlower, hupper⟩ := hsmall.bounds hprepared
        have hfits := entryFits_grant hlower hupper (toInt_pos_of_not_le hamount)
        rw [← hprepared.balance, ← hfits]
        simp only [hprepare, entryFits_sqlite, if_true, hamount, false_or]
        by_cases hpostgres : entryFits .postgres payload.amountMicrocredits
            (saturatingAdd wallet.balanceMicrocredits payload.amountMicrocredits)
        · simp [hpostgres]
        · simp [hpostgres]
  | recordUsage input =>
      dsimp only
      by_cases hcharged : Charged input
      · obtain ⟨wallet, opening, asked, hprepare⟩ :=
          @prepare_isSome call.supply input.userId _ hfresh
        have hprepared := prepared_of_prepare hprepare
        obtain ⟨-, hupper⟩ := hsmall.bounds hprepared
        rw [← hprepared.balance]
        simp only [hprepare, hcharged, true_and]
        by_cases hcredit : wallet.balanceMicrocredits <
            (usageCharge input.usage input.routePrice).total
        · simp [hcredit]
        · have hfits := entryFits_charge hupper (toInt_pos_of_not_le hcharged.2)
            (toInt_le_of_not_lt hcredit)
          simp only [hcredit, entryFits_sqlite, hfits, Bool.true_and, false_or]
          by_cases hpostgres : eventFits .postgres input
          · simp [hpostgres, eventFits_sqlite hpostgres]
          · by_cases hsqlite : eventFits .sqlite input
            · simp [hpostgres, hsqlite]
            · simp [hpostgres, hsqlite]
      · simp only [hcharged, false_and, false_or]
        by_cases hpostgres : eventFits .postgres input
        · simp [hpostgres, eventFits_sqlite hpostgres]
        · simp [hpostgres]
  | ensureSufficientCredit userId usage routePrice => simp
  | ensureWallet userId => simp
  | getWallet userId => simp

theorem SmallBalances.settle (hsmall : SmallBalances accounts)
    (hfits : FitsIntegers call.job accounts) :
    SmallBalances (settle .sqlite call accounts).2 := by
  unfold Billing.settle
  unfold FitsIntegers at hfits
  cases hjob : call.job with
  | grantCredits userId actorUserId payload =>
      rw [hjob] at hfits
      dsimp only at hfits ⊢
      by_cases hamount : payload.amountMicrocredits ≤ 0
      · simpa [hamount] using hsmall
      · simp only [hamount, if_false, false_or] at hfits ⊢
        cases hprepare : prepare call.supply userId accounts with
        | none => exact hsmall
        | some prepare =>
            obtain ⟨wallet, opening, asked⟩ := prepare
            have hprepared := prepared_of_prepare hprepare
            obtain ⟨hlower, hupper⟩ := hsmall.bounds hprepared
            have hpos := toInt_pos_of_not_le hamount
            rw [← hprepared.balance] at hfits
            simp only [entryFits_sqlite, if_true]
            rw [Accounts.applyAll_append]
            have hsum := toInt_saturatingAdd_of_lt (Int.le_of_lt hpos)
              (show wallet.balanceMicrocredits.toInt + payload.amountMicrocredits.toInt < 2 ^ 63 by
                omega)
            exact (hsmall.prepared hprepared).entry (by omega) (by omega) _ _ _
  | recordUsage input =>
      rw [hjob] at hfits
      dsimp only
      by_cases hcharged : Charged input
      · simp only [hcharged, if_true]
        cases hprepare : prepare call.supply input.userId accounts with
        | none => exact hsmall
        | some prepare =>
            obtain ⟨wallet, opening, asked⟩ := prepare
            have hprepared := prepared_of_prepare hprepare
            obtain ⟨hlower, hupper⟩ := hsmall.bounds hprepared
            have hpos := toInt_pos_of_not_le hcharged.2
            dsimp only
            by_cases hcredit : wallet.balanceMicrocredits <
                (usageCharge input.usage input.routePrice).total
            · simpa [hcredit] using hsmall
            · have hcovered := toInt_le_of_not_lt hcredit
              simp only [hcredit, if_false]
              split
              · rw [Accounts.applyAll_append]
                have hbalance := @toInt_sub_of_bounds wallet.balanceMicrocredits
                  (usageCharge input.usage input.routePrice).total (by omega) (by omega)
                exact (hsmall.prepared hprepared).entry (by omega) (by omega) _ _ _
              · exact hsmall
      · simpa [hcharged] using hsmall
  | ensureSufficientCredit userId usage routePrice =>
      dsimp only
      split
      · exact hsmall
      · cases hprepare : prepare call.supply userId accounts with
        | none => exact hsmall
        | some prepare => exact hsmall.prepared (prepared_of_prepare hprepare)
  | ensureWallet userId | getWallet userId =>
      dsimp only
      cases hprepare : prepare call.supply userId accounts with
      | none => exact hsmall
      | some prepare => exact hsmall.prepared (prepared_of_prepare hprepare)

end Agreement

-- The two backends go the same way as long as every value has 32 bits, and part at the first
-- call that stores one that has not.
theorem history_agrees (calls : List BackendCall) {sqlite postgres : Database}
    (haccounts : sqlite.accounts = postgres.accounts) (hsmall : SmallBalances sqlite.accounts)
    (hfresh : FreshIds calls sqlite) :
    history .sqlite calls sqlite = history .postgres calls postgres ↔
      EveryCallFits calls sqlite := by
  induction calls generalizing sqlite postgres with
  | nil => simp [history, EveryCallFits]
  | cons call calls ih =>
      obtain ⟨hids, hrest⟩ := hfresh
      have hsqlite := callOn_settle .sqlite call sqlite
      have hpostgres := callOn_settle .postgres call postgres
      rw [← haccounts] at hpostgres
      have hagrees := @settle_agrees call sqlite.accounts hsmall hids
      have hstep : FitsIntegers call.job sqlite.accounts →
          (history .sqlite calls (callOn .sqlite call sqlite).2 =
              history .postgres calls (callOn .postgres call postgres).2 ↔
            EveryCallFits calls (callOn .sqlite call sqlite).2) := by
        intro hfits
        have hsnd := congrArg Prod.snd hsqlite
        have hsnd' := congrArg Prod.snd hpostgres
        have hsame := congrArg Prod.snd (hagrees.mpr hfits)
        dsimp only at hsnd hsnd'
        refine ih (hsnd.trans (hsame.trans hsnd'.symm)) ?_ hrest
        rw [hsnd]
        exact hsmall.settle hfits
      simp only [history, hsqlite, hpostgres, List.cons.injEq, EveryCallFits, hagrees]
      exact and_congr_right hstep

theorem backends_agree_iff_values_fit (calls : List BackendCall)
    (hfresh : FreshIds calls (.ofAccounts .empty)) :
    history .sqlite calls (.ofAccounts .empty) = history .postgres calls (.ofAccounts .empty) ↔
      EveryCallFits calls (.ofAccounts .empty) :=
  history_agrees calls rfl (fun _ hmem => absurd hmem List.not_mem_nil) hfresh

-- Every id and time of a call is the same; those of two calls differ.
def backendCall (id : Nat) (job : Job) : BackendCall :=
  { job, supply := fun _ => (⟨BitVec.ofNat 128 id⟩, "0") }

def grantJob (amount : Int64) : Job :=
  .grantCredits ⟨7⟩ ⟨8⟩ { amountMicrocredits := amount, reason := none }

theorem backends_agree_on_grant_and_usage :
    history .sqlite [backendCall 1 (grantJob 5), backendCall 2 (usageCall 3 2).job]
        (.ofAccounts .empty) =
      history .postgres [backendCall 1 (grantJob 5), backendCall 2 (usageCall 3 2).job]
        (.ofAccounts .empty) := by
  have hsecond : (callOn .sqlite (backendCall 1 (grantJob 5))
    (.ofAccounts .empty)).2.accounts.hasWalletId
      ⟨BitVec.ofNat 128 2⟩ = false := by decide +kernel
  have hfresh : FreshIds [backendCall 1 (grantJob 5), backendCall 2 (usageCall 3 2).job]
      (.ofAccounts .empty) :=
    ⟨fun _ => rfl, fun _ => hsecond, trivial⟩
  refine (backends_agree_iff_values_fit _ hfresh).mpr ⟨.inr (by decide), .inr fun _ => ?_, trivial⟩
  decide

-- Five thousand million microcredits, five thousand credits, are more than 32 bits hold.
theorem large_grant_fails_on_postgres :
    FreshIds [backendCall 1 (grantJob 5000000000)] (.ofAccounts .empty) ∧
      (history .sqlite [backendCall 1 (grantJob 5000000000)] (.ofAccounts .empty)).map Prod.fst =
        [true] ∧
      (history .postgres [backendCall 1 (grantJob 5000000000)] (.ofAccounts .empty)).map Prod.fst =
        [false] :=
  ⟨⟨fun _ => rfl, trivial⟩, by decide +kernel, by decide +kernel⟩

end Mizan.Billing
