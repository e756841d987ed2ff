import Mizan.Billing.Columns

namespace Mizan.Billing

open Interleaving

-- The wallet that a transaction works on, what it has written to open it, and how often it has
-- asked the database by then.
def prepare (supply : Supply) (userId : Uuid) (accounts : Accounts) :
    Option (WalletRecord × List Write × Nat) :=
  match accounts.walletOf userId with
  | some wallet => some (wallet, [], 2)
  | none =>
      let wallet := openedWallet userId (supply 2).1 (supply 3).2
      if accounts.hasWalletId wallet.id then none else some (wallet, [.wallet wallet], 6)

def entryFits (backend : DatabaseBackend) (delta newBalance : Int64) : Bool :=
  fitsColumn backend delta && fitsColumn backend newBalance

-- `insert_usage_event` checks 63 bits itself; the columns may hold fewer.
def eventFits (backend : DatabaseBackend) (input : BillingInput) : Bool :=
  input.usage.promptTokens.toNat < columnLimit backend &&
    input.usage.completionTokens.toNat < columnLimit backend &&
      input.usage.totalTokens.toNat < columnLimit backend &&
        input.latencyMs.toNat < columnLimit backend

def entryAt (supply : Supply) (asked : Nat) (wallet : WalletRecord) (requestId : Option Uuid)
    (delta newBalance : Int64) (reason : String) : List Write :=
  entryWrites (.ofRecord wallet) requestId delta newBalance reason (supply (asked + 1)).1
    (supply asked).2

instance (input : BillingInput) : Decidable (Charged input) :=
  inferInstanceAs (Decidable (_ ∧ ¬_))

-- What a call settles: whether it succeeds, and the accounts that it leaves.
def settle (backend : DatabaseBackend) (call : BackendCall) (accounts : Accounts) :
    Bool × Accounts :=
  match call.job with
  | .grantCredits userId _ payload =>
      if payload.amountMicrocredits ≤ 0 then (false, accounts)
      else
        match prepare call.supply userId accounts with
        | none => (false, accounts)
        | some (wallet, opening, asked) =>
            let newBalance := saturatingAdd wallet.balanceMicrocredits payload.amountMicrocredits
            if entryFits backend payload.amountMicrocredits newBalance then
              (true, accounts.applyAll (opening ++ entryAt call.supply asked wallet none
                payload.amountMicrocredits newBalance (grantReason payload)))
            else (false, accounts)
  | .recordUsage input =>
      let charge := (usageCharge input.usage input.routePrice).total
      if Charged input then
        match prepare call.supply input.userId accounts with
        | none => (false, accounts)
        | some (wallet, opening, asked) =>
            let newBalance := wallet.balanceMicrocredits - charge
            if wallet.balanceMicrocredits < charge then (false, accounts)
            else if entryFits backend (-charge) newBalance && eventFits backend input then
              (true, accounts.applyAll (opening ++ entryAt call.supply asked wallet
                (some input.requestId) (-charge) newBalance USAGE_CHARGE_REASON))
            else (false, accounts)
      else (eventFits backend input, accounts)
  | .ensureSufficientCredit userId usage routePrice =>
      let charge := (usageCharge usage routePrice).total
      if charge ≤ 0 then (true, accounts)
      else
        match prepare call.supply userId accounts with
        | none => (false, accounts)
        | some (wallet, opening, _) =>
            (!decide (wallet.balanceMicrocredits < charge), accounts.applyAll opening)
  | .ensureWallet userId | .getWallet userId =>
      match prepare call.supply userId accounts with
      | none => (false, accounts)
      | some (_, opening, _) => (true, accounts.applyAll opening)

-- Columns

theorem fitsColumn_iff (backend : DatabaseBackend) (value : Int64) :
    fitsColumn backend value = true ↔
      -(columnLimit backend : Int) ≤ value.toInt ∧ value.toInt < columnLimit backend := by
  simp [fitsColumn]

theorem fitsColumn_zero (backend : DatabaseBackend) : fitsColumn backend 0 = true := by
  cases backend <;> decide

theorem storable_opened (backend : DatabaseBackend) (userId id : Uuid) (now : String) :
    [Write.wallet (openedWallet userId id now)].all (Write.storable backend) = true := by
  simp [Write.storable, Write.integers, openedWallet, fitsColumn_zero]

theorem columnLimit_le (backend : DatabaseBackend) : columnLimit backend ≤ 2 ^ 63 := by
  cases backend <;> decide

theorem le_columnLimit (backend : DatabaseBackend) : 2 ^ 31 ≤ columnLimit backend := by
  cases backend <;> decide

theorem fitsColumn_ofNat (backend : DatabaseBackend) {value : Nat} (h : value < 2 ^ 63) :
    fitsColumn backend (Int64.ofNat value) = decide (value < columnLimit backend) := by
  have hvalue : (Int64.ofNat value).toInt = value := Int64.toInt_ofNat_of_lt h
  have hlimit : (0 : Int) ≤ columnLimit backend := Int.natCast_nonneg _
  simp only [fitsColumn, hvalue]
  by_cases hfits : value < columnLimit backend
  · simp [hfits]
  · simp [hfits]

theorem eventFits_iff (backend : DatabaseBackend) (input : BillingInput) :
    eventFits backend input = true ↔
      input.usage.promptTokens.toNat < columnLimit backend ∧
        input.usage.completionTokens.toNat < columnLimit backend ∧
          input.usage.totalTokens.toNat < columnLimit backend ∧
            input.latencyMs.toNat < columnLimit backend := by
  simp [eventFits, and_assoc]

theorem eventFits_eq_false {backend : DatabaseBackend} {input : BillingInput}
    (h : ¬(input.usage.promptTokens.toNat < 2 ^ 63 ∧
      input.usage.completionTokens.toNat < 2 ^ 63 ∧ input.usage.totalTokens.toNat < 2 ^ 63 ∧
        input.latencyMs.toNat < 2 ^ 63)) : eventFits backend input = false := by
  have hlimit := columnLimit_le backend
  by_contra hfits
  have hbounds := (eventFits_iff backend input).mp (by simpa using hfits)
  exact h (by omega)

theorem fitI64_large {value : UInt64} (key message : String) (h : ¬value.toNat < 2 ^ 63) :
    fitI64 value key message = .error (.invalidConfig key message) := by
  simp only [fitI64, i64TryFrom, if_neg h]

-- The row of a usage event is made and stored exactly when the event fits.
theorem usageEventRow_cases (backend : DatabaseBackend) (input : BillingInput)
    (statusCode : UInt16) (id : Uuid) (now : String) :
    (∃ error, usageEventRow input statusCode id now = .error error ∧
        eventFits backend input = false) ∨
      (∃ row, usageEventRow input statusCode id now = .ok row ∧
        [Write.usageEvent row].all (Write.storable backend) = eventFits backend input) := by
  by_cases hprompt : input.usage.promptTokens.toNat < 2 ^ 63
  swap
  · have hrow : ∃ error, usageEventRow input statusCode id now = .error error := by
      unfold usageEventRow
      rw [fitI64_large _ _ hprompt]
      exact ⟨_, rfl⟩
    obtain ⟨error, hrow⟩ := hrow
    exact .inl ⟨error, hrow, eventFits_eq_false fun h => hprompt h.1⟩
  by_cases hcompletion : input.usage.completionTokens.toNat < 2 ^ 63
  swap
  · have hrow : ∃ error, usageEventRow input statusCode id now = .error error := by
      unfold usageEventRow
      rw [fitI64_ok _ _ hprompt, fitI64_large _ _ hcompletion]
      exact ⟨_, rfl⟩
    obtain ⟨error, hrow⟩ := hrow
    exact .inl ⟨error, hrow, eventFits_eq_false fun h => hcompletion h.2.1⟩
  by_cases htotal : input.usage.totalTokens.toNat < 2 ^ 63
  swap
  · have hrow : ∃ error, usageEventRow input statusCode id now = .error error := by
      unfold usageEventRow
      rw [fitI64_ok _ _ hprompt, fitI64_ok _ _ hcompletion, fitI64_large _ _ htotal]
      exact ⟨_, rfl⟩
    obtain ⟨error, hrow⟩ := hrow
    exact .inl ⟨error, hrow, eventFits_eq_false fun h => htotal h.2.2.1⟩
  by_cases hlatency : input.latencyMs.toNat < 2 ^ 63
  swap
  · have hrow : ∃ error, usageEventRow input statusCode id now = .error error := by
      unfold usageEventRow
      rw [fitI64_ok _ _ hprompt, fitI64_ok _ _ hcompletion, fitI64_ok _ _ htotal,
        fitI64_large _ _ hlatency]
      exact ⟨_, rfl⟩
    obtain ⟨error, hrow⟩ := hrow
    exact .inl ⟨error, hrow, eventFits_eq_false fun h => hlatency h.2.2.2⟩
  have hstatus : fitsColumn backend (Int64.ofNat statusCode.toNat) = true := by
    have hlt := statusCode.toNat_lt
    have hlimit := le_columnLimit backend
    rw [fitsColumn_ofNat backend (by omega)]
    exact decide_eq_true (by omega)
  have hestimated : fitsColumn backend (if input.usage.estimated then 1 else 0) = true := by
    cases backend <;> cases input.usage.estimated <;> decide
  obtain ⟨row, hrow⟩ := usageEventRow_ok input hprompt hcompletion htotal hlatency statusCode id now
  refine .inr ⟨row, hrow, ?_⟩
  unfold usageEventRow at hrow
  rw [fitI64_ok _ _ hprompt, fitI64_ok _ _ hcompletion, fitI64_ok _ _ htotal,
    fitI64_ok _ _ hlatency] at hrow
  obtain rfl := Except.ok.inj hrow
  simp [Write.storable, Write.integers, UsageEventRecord.integers, eventFits,
    fitsColumn_ofNat backend hprompt, fitsColumn_ofNat backend hcompletion,
    fitsColumn_ofNat backend htotal, fitsColumn_ofNat backend hlatency, hstatus, hestimated,
    Bool.and_assoc]

-- Evaluation

section Evaluation

variable {backend : DatabaseBackend} {supply : Supply} {database : Database} {writes : List Write}
  {asked : Nat}

theorem eval_fetchWallet (userId : Uuid) :
    (fetchWallet backend userId).run.eval (Engine.handle backend supply)
        (inside database writes asked) =
      (.ok (((database.accounts.applyAll writes).walletOf userId).map fun row =>
        (row.id, row.balanceMicrocredits)), inside database writes (asked + 1)) := by
  have h := @eval_query_ok backend supply database writes asked
    (.selectWallet userId (lockForUpdate backend)) id _ [] rfl rfl
  rw [List.append_nil] at h
  exact h

theorem eval_ensureWalletInTx (database : Database) (userId : Uuid) :
    (ensureWalletInTx backend userId).run.eval (Engine.handle backend supply)
        (inside database [] 1) =
      match prepare supply userId database.accounts with
      | some (wallet, opening, asked) => (.ok (.ofRecord wallet), inside database opening asked)
      | none =>
          (.error (.infrastructure
            "cannot initialize wallet: UNIQUE constraint failed: wallets.id"),
            inside database [] 5) := by
  unfold ensureWalletInTx prepare
  rw [Prog.eval_ok (eval_fetchWallet userId)]
  cases hfound : database.accounts.walletOf userId with
  | some wallet =>
      simp only [Accounts.applyAll_nil, hfound, Option.map_some]
      rw [Prog.eval_pure, WalletRow.ofRecord, (Accounts.walletOf_mem hfound).2]
  | none =>
      simp only [Accounts.applyAll_nil, hfound, Option.map_none]
      rw [Prog.eval_ok eval_nowV7, Prog.eval_ok eval_unixTimestampString]
      generalize hwallet : openedWallet userId (supply 2).1 (supply 3).2 = wallet
      have howner : wallet.ownerUserId = userId := by rw [← hwallet, openedWallet]
      by_cases hid : database.accounts.hasWalletId wallet.id
      · have hexecute : (Statement.insertWallet wallet).execute (database.accounts.applyAll []) =
            .error "UNIQUE constraint failed: wallets.id" := by
          simp [Statement.execute, howner, hfound, hid]
        rw [if_pos hid]
        exact Prog.eval_error (eval_query_error hexecute)
      · have hexecute : (Statement.insertWallet wallet).execute (database.accounts.applyAll []) =
            .ok ((), [.wallet wallet]) := by
          simp [Statement.execute, howner, hfound, hid]
        have hstorable : [Write.wallet wallet].all (Write.storable backend) = true := by
          rw [← hwallet]
          exact storable_opened backend userId _ _
        have hwalletOf : (database.accounts.applyAll [.wallet wallet]).walletOf userId =
            some wallet := by
          rw [← howner] at hfound ⊢
          exact Accounts.walletOf_apply_wallet_self hfound
        have hfetch := @eval_fetchWallet backend supply database [.wallet wallet] 5 userId
        rw [hwalletOf] at hfetch
        rw [if_neg hid]
        refine (Prog.eval_ok (eval_query_ok hexecute hstorable)).trans ?_
        refine (Prog.eval_ok hfetch).trans ?_
        rw [← howner]
        rfl

theorem eval_postEntry {wallet : WalletRecord}
    (hwallet : (database.accounts.applyAll writes).hasWalletId wallet.id = true)
    (requestId : Option Uuid) (delta newBalance : Int64) (reason : String) :
    (postEntry (.ofRecord wallet) requestId delta newBalance reason).run.eval
        (Engine.handle backend supply) (inside database writes asked) =
      if entryFits backend delta newBalance then
        (.ok (), inside database
          (writes ++ entryAt supply asked wallet requestId delta newBalance reason) (asked + 4))
      else
        (.error (.infrastructure s!"failed to create credit ledger entry: {OUT_OF_RANGE}"),
          inside database writes (asked + 3)) := by
  unfold postEntry
  refine (Prog.eval_ok eval_unixTimestampString).trans ?_
  refine (Prog.eval_ok eval_nowV7).trans ?_
  generalize hrow : entryRow (.ofRecord wallet) requestId delta newBalance reason
    (supply (asked + 1)).1 (supply asked).2 = row
  have hstorable : [Write.ledger row].all (Write.storable backend) =
      entryFits backend delta newBalance := by
    rw [← hrow]
    simp [Write.storable, Write.integers, entryRow, entryFits]
  have hexecute : (Statement.insertLedger row).execute (database.accounts.applyAll writes) =
      .ok ((), [.ledger row]) := rfl
  by_cases hfits : entryFits backend delta newBalance
  · rw [if_pos hfits]
    refine (Prog.eval_ok (eval_query_ok hexecute (hstorable.trans hfits))).trans ?_
    have hbalance : [Write.balance wallet.id newBalance (supply asked).2].all
        (Write.storable backend) = true := by
      simp only [entryFits, Bool.and_eq_true] at hfits
      simp [Write.storable, Write.integers, hfits.2]
    have hupdate : (Statement.updateBalance wallet.id newBalance (supply asked).2).execute
        (database.accounts.applyAll (writes ++ [.ledger row])) =
        .ok ((), [.balance wallet.id newBalance (supply asked).2]) := by
      rw [Accounts.applyAll_append]
      exact if_pos hwallet
    refine (eval_query_ok hupdate hbalance).trans ?_
    rw [List.append_assoc, ← hrow]
    rfl
  · have hunfit : entryFits backend delta newBalance = false := by simpa using hfits
    rw [if_neg hfits]
    exact Prog.eval_error (eval_query_unfit hexecute (hstorable.trans hunfit))

theorem eval_insertUsageEventTx (input : BillingInput) (statusCode : UInt16) :
    (eventFits backend input = true ∧ ∃ row, (insertUsageEventTx input statusCode).run.eval
        (Engine.handle backend supply) (inside database writes asked) =
          (.ok (), inside database (writes ++ [.usageEvent row]) (asked + 3))) ∨
      (eventFits backend input = false ∧ ∃ error asked',
        (insertUsageEventTx input statusCode).run.eval (Engine.handle backend supply)
          (inside database writes asked) = (.error error, inside database writes asked')) := by
  unfold insertUsageEventTx
  rw [Prog.eval_ok eval_unixTimestampString, Prog.eval_ok eval_nowV7]
  rcases usageEventRow_cases backend input statusCode (supply (asked + 1)).1 (supply asked).2 with
    ⟨error, hrow, hfits⟩ | ⟨row, hrow, hfits⟩
  · right
    refine ⟨hfits, error, asked + 2, ?_⟩
    rw [hrow]
    exact Prog.eval_error rfl
  · rw [hrow]
    have hexecute : (Statement.insertUsageEvent row).execute (database.accounts.applyAll writes) =
        .ok ((), [.usageEvent row]) := rfl
    cases hstored : eventFits backend input with
    | true =>
        left
        refine ⟨rfl, row, ?_⟩
        exact (Prog.eval_ok rfl).trans (eval_query_ok hexecute (hfits.trans hstored))
    | false =>
        right
        refine ⟨rfl, .infrastructure (usageEventFailed input OUT_OF_RANGE), asked + 3, ?_⟩
        exact (Prog.eval_ok rfl).trans (eval_query_unfit hexecute (hfits.trans hstored))

-- On a connection of its own the event is stored at once, if it fits.
theorem eval_insertUsageEvent (input : BillingInput) (statusCode : UInt16) (e : Engine) :
    ∃ result e', (insertUsageEvent input statusCode).run.eval (Engine.handle backend supply) e =
        (result, e') ∧ result.isOk = eventFits backend input ∧
      e'.session.tx = e.session.tx ∧
        e'.session.database.accounts = e.session.database.accounts := by
  have htime : unixTimestampString.run.eval (Engine.handle backend supply) e =
      (.ok (supply e.asked).2, { e with asked := e.asked + 1 }) := rfl
  have hid : nowV7.run.eval (Engine.handle backend supply) { e with asked := e.asked + 1 } =
      (.ok (supply (e.asked + 1)).1, { e with asked := e.asked + 2 }) := rfl
  unfold insertUsageEvent
  rw [Prog.eval_ok htime, Prog.eval_ok hid]
  rcases usageEventRow_cases backend input statusCode (supply (e.asked + 1)).1
    (supply e.asked).2 with
    ⟨error, hrow, hfits⟩ | ⟨row, hrow, hfits⟩
  · rw [hrow]
    exact ⟨.error error, _, Prog.eval_error rfl, hfits.symm, rfl, rfl⟩
  · rw [hrow]
    have hstored : (Write.usageEvent row).storable backend = eventFits backend input := by
      simpa using hfits
    have hexecute := @eval_executeUsageEvent backend supply row (usageEventFailed input)
      { e with asked := e.asked + 2 }
    rw [hstored] at hexecute
    by_cases hevent : eventFits backend input
    · rw [if_pos hevent] at hexecute
      exact ⟨.ok (), _, (Prog.eval_ok rfl).trans hexecute, hevent.symm, rfl, rfl⟩
    · rw [if_neg hevent] at hexecute
      exact ⟨.error _, _, (Prog.eval_ok rfl).trans hexecute, ((Bool.not_eq_true _).mp hevent).symm,
        rfl, rfl⟩

end Evaluation

end Mizan.Billing
