import Mizan.Billing.Session
import Mizan.RunningTotal.Chain

namespace Mizan.Billing

open Interleaving RunningTotal

def deltaOf (row : CreditLedgerRecord) : Int := row.requestDeltaMicrocredits.toInt

def afterOf (row : CreditLedgerRecord) : Int := row.balanceAfterMicrocredits.toInt

-- The ledger explains every balance, and its rows follow one another.
structure LedgerConsistent (accounts : Accounts) : Prop where
  balance : ∀ wallet ∈ accounts.wallets,
    wallet.balanceMicrocredits.toInt = ((accounts.rowsOf wallet.id).map deltaOf).sum
  chained : ∀ walletId, Chained deltaOf afterOf 0 (accounts.rowsOf walletId)

-- What every transaction keeps: the ledger never runs ahead of the balance it ends with.
structure LedgerInvariant (accounts : Accounts) : Prop where
  keyed : accounts.Keyed
  owned : ∀ row ∈ accounts.ledger, accounts.hasWalletId row.walletId = true
  chained : ∀ walletId, Chained deltaOf afterOf 0 (accounts.rowsOf walletId)
  settled : ∀ wallet ∈ accounts.wallets,
    wallet.balanceMicrocredits.toInt = final afterOf 0 (accounts.rowsOf wallet.id)

namespace LedgerInvariant

variable {accounts : Accounts}

theorem empty : LedgerInvariant .empty where
  keyed := ⟨List.nodup_nil, List.nodup_nil⟩
  owned _ h := by cases h
  chained _ := trivial
  settled _ h := by cases h

theorem consistent (h : LedgerInvariant accounts) : LedgerConsistent accounts where
  balance wallet hmem := by
    rw [h.settled wallet hmem, final_eq_sum deltaOf afterOf (h.chained wallet.id), zero_add]
  chained := h.chained

theorem rowsOf_eq_nil (h : LedgerInvariant accounts) {id : Uuid}
    (hid : accounts.hasWalletId id = false) : accounts.rowsOf id = [] := by
  unfold Accounts.rowsOf
  rw [List.filter_eq_nil_iff]
  intro row hrow heq
  have howned := h.owned row hrow
  rw [of_decide_eq_true heq, hid] at howned
  cases howned

theorem open_wallet (h : LedgerInvariant accounts) {row : WalletRecord}
    (hid : accounts.hasWalletId row.id = false) (howner : accounts.walletOf row.ownerUserId = none)
    (hbalance : row.balanceMicrocredits = 0) : LedgerInvariant (accounts.apply (.wallet row)) where
  keyed := h.keyed.apply_wallet hid howner
  owned entry hentry := hasWalletId_apply (h.owned entry hentry) _
  chained := h.chained
  settled wallet hmem := by
    have hcases : wallet ∈ accounts.wallets ∨ wallet = row := by simpa [Accounts.apply] using hmem
    obtain hold | rfl := hcases
    · exact h.settled wallet hold
    · have hnil := h.rowsOf_eq_nil hid
      rw [show (accounts.apply (.wallet wallet)).rowsOf wallet.id =
        accounts.rowsOf wallet.id from rfl,
        hnil, hbalance]
      rfl

theorem rowsOf_post (row : CreditLedgerRecord) (balance : Int64) (now : String) (walletId : Uuid) :
    (accounts.applyAll [.ledger row, .balance row.walletId balance now]).rowsOf walletId =
      if row.walletId = walletId then accounts.rowsOf walletId ++ [row]
      else accounts.rowsOf walletId := by
  simp only [Accounts.applyAll_cons, Accounts.applyAll_nil, Accounts.apply, Accounts.rowsOf,
    List.filter_append]
  split
  · rename_i heq
    simp [heq]
  · rename_i hne
    simp [hne]

-- One ledger row and the balance it announces.
theorem post (h : LedgerInvariant accounts) {wallet : WalletRecord}
    (hmem : wallet ∈ accounts.wallets)
    (row : CreditLedgerRecord) (hwallet : row.walletId = wallet.id) (now : String)
    (hsum : afterOf row = wallet.balanceMicrocredits.toInt + deltaOf row) :
    LedgerInvariant (accounts.applyAll
      [.ledger row, .balance row.walletId row.balanceAfterMicrocredits now]) where
  keyed := by
    have hledger : (accounts.apply (.ledger row)).Keyed := ⟨h.keyed.ids, h.keyed.owners⟩
    exact hledger.apply_balance _ _ _
  owned entry hentry := by
    have hcases : entry ∈ accounts.ledger ∨ entry = row := by simpa [Accounts.apply] using hentry
    apply hasWalletId_applyAll
    obtain hold | rfl := hcases
    · exact h.owned entry hold
    · exact (Accounts.hasWalletId_iff _).mpr ⟨wallet, hmem, hwallet.symm⟩
  chained walletId := by
    rw [rowsOf_post]
    split
    · rename_i heq
      rw [chained_concat]
      refine ⟨h.chained walletId, ?_⟩
      rw [hsum, h.settled wallet hmem, ← hwallet, heq]
    · exact h.chained walletId
  settled other hother := by
    rw [rowsOf_post]
    simp only [Accounts.applyAll_cons, Accounts.applyAll_nil, Accounts.apply,
      List.mem_map] at hother
    obtain ⟨before, hbefore, rfl⟩ := hother
    by_cases heq : before.id = row.walletId
    · simp only [if_pos heq, if_pos heq.symm, final_concat]
      rfl
    · simp only [if_neg heq]
      rw [if_neg (Ne.symm heq)]
      exact h.settled before hbefore

theorem prepared (h : LedgerInvariant accounts) {userId : Uuid} {wallet : WalletRecord}
    {opening : List Write} (hprepared : Prepared userId accounts wallet opening) :
    LedgerInvariant (accounts.applyAll opening) := by
  cases hprepared with
  | found => exact h
  | opened hnone hid => exact h.open_wallet hid hnone rfl

end LedgerInvariant

def balanceOf (accounts : Accounts) (userId : Uuid) : Int64 :=
  ((accounts.walletOf userId).map WalletRecord.balanceMicrocredits).getD 0

theorem Prepared.balance {userId : Uuid} {accounts : Accounts} {wallet : WalletRecord}
    {opening : List Write} (h : Prepared userId accounts wallet opening) :
    wallet.balanceMicrocredits = balanceOf accounts userId := by
  cases h with
  | found hwallet => simp [balanceOf, hwallet]
  | opened hnone hid => simp [balanceOf, hnone, openedWallet]

-- A charge that is refused for the credit exceeds the balance that the call began with.
theorem recordUsage_insufficient {backend : DatabaseBackend} {choices : List SqlChoice}
    {database : Database} {s : Session} {input : BillingInput}
    (h : Session.call backend (.recordUsage input) choices database =
      some (.error .insufficientCredit, s)) :
    Charged input ∧ balanceOf database.accounts input.userId <
      (usageCharge input.usage input.routePrice).total := by
  have hidle : (Session.isolation backend (.recordUsage input) database).phase .idle []
      (.idle database) := Session.phase_idle (.recordUsage input) database
  have hspec : (Protocol.alone Session.system).ewp 0 ((Job.recordUsage input).program backend)
      (fun _ _ => True) (fun error _ => error = .insufficientCredit → Charged input ∧
        ∃ wallet, (∃ opening, Prepared input.userId database.accounts wallet opening) ∧
          wallet.balanceMicrocredits < (usageCharge input.usage input.routePrice).total)
      (.idle database) :=
    Protocol.ewp_seq (Isolation.recordUsage_spec hidle) (fun _ _ herror h => (herror.2 h).1)
      (fun _ _ _ _ => Protocol.alone_pure trivial)
  obtain ⟨hcharged, wallet, ⟨opening, hprepared⟩, hbalance⟩ := Protocol.alone_play hspec h rfl
  rw [hprepared.balance] at hbalance
  exact ⟨hcharged, hbalance⟩

-- The grant of a job, if it is one, can be added to the balance without saturating.
def GrantFits (job : Job) (accounts : Accounts) : Prop :=
  match job with
  | .grantCredits userId _ payload =>
      (balanceOf accounts userId).toInt + payload.amountMicrocredits.toInt < 2 ^ 63
  | _ => True

instance (job : Job) (accounts : Accounts) : Decidable (GrantFits job accounts) := by
  unfold GrantFits
  split <;> infer_instance

theorem LedgerInvariant.effect {job : Job} {accounts accounts' : Accounts}
    (h : LedgerInvariant accounts) (hfits : GrantFits job accounts)
    (heffect : Effect job accounts accounts') : LedgerInvariant accounts' := by
  obtain ⟨wallet, opening, writes, hprepared, hwrites, rfl⟩ := heffect
  rw [Accounts.applyAll_append]
  have hopened := h.prepared hprepared
  cases hwrites with
  | sufficient | ensure | get => exact hopened
  | @grant userId actorUserId payload _ id now hamount =>
      refine hopened.post hprepared.mem (entryRow (.ofRecord wallet) _ _ _ _ id now) rfl now ?_
      have hpos := toInt_pos_of_not_le hamount
      have hbalance : wallet.balanceMicrocredits = balanceOf accounts userId := hprepared.balance
      have hsum : wallet.balanceMicrocredits.toInt + payload.amountMicrocredits.toInt < 2 ^ 63 := by
        rw [hbalance]
        exact hfits
      exact toInt_saturatingAdd_of_lt (Int.le_of_lt hpos) hsum
  | usage id now eventId eventNow hcharged hbalance hevent =>
      rw [Accounts.applyAll_append]
      refine hopened.post hprepared.mem (entryRow (.ofRecord wallet) _ _ _ _ id now) rfl now ?_
      have hpos := toInt_pos_of_not_le hcharged.2
      have hcovered := toInt_le_of_not_lt hbalance
      have hupper := Int64.toInt_lt wallet.balanceMicrocredits
      simp only [afterOf, deltaOf, entryRow, WalletRow.ofRecord] at hcovered ⊢
      rw [toInt_neg_of_pos hpos, toInt_sub_of_bounds (by omega) (by omega)]
      omega

structure Call where
  job : Job
  choices : List SqlChoice
  deriving DecidableEq, Repr

def callStep (backend : DatabaseBackend) (database : Database) (call : Call) : Option Database :=
  (Session.call backend call.job call.choices database).map fun (_, s) => s.database

-- One call after the other, each under its own choices of ids, times and failures.
def runCalls (backend : DatabaseBackend) : List Call → Database → Option Database
  | [], database => some database
  | call :: calls, database => (callStep backend database call).bind (runCalls backend calls)

-- In every state of the run that a grant is made in, it fits into the balance.
def EveryGrantFits (backend : DatabaseBackend) : List Call → Database → Prop
  | [], _ => True
  | call :: calls, database => GrantFits call.job database.accounts ∧
      ∀ database', callStep backend database call = some database' →
        EveryGrantFits backend calls database'

theorem LedgerInvariant.callStep {backend : DatabaseBackend} {database database' : Database}
    {call : Call} (h : LedgerInvariant database.accounts)
    (hfits : GrantFits call.job database.accounts)
    (hstep : callStep backend database call = some database') :
    LedgerInvariant database'.accounts := by
  obtain ⟨⟨result, s⟩, hcall, rfl⟩ := Option.map_eq_some_iff.mp hstep
  obtain hsame | heffect := Session.call_effect hcall
  · rw [hsame]
    exact h
  · exact h.effect hfits heffect

theorem LedgerInvariant.runCalls {backend : DatabaseBackend} (calls : List Call)
    {database database' : Database} (h : LedgerInvariant database.accounts)
    (hfits : EveryGrantFits backend calls database)
    (hrun : runCalls backend calls database = some database') :
    LedgerInvariant database'.accounts := by
  induction calls generalizing database with
  | nil =>
      cases hrun
      exact h
  | cons call calls ih =>
      obtain ⟨middle, hstep, hrest⟩ := Option.bind_eq_some_iff.mp hrun
      exact ih (h.callStep hfits.1 hstep) (hfits.2 middle hstep) hrest

theorem ledger_consistent_of_every_grant_fits (backend : DatabaseBackend) (calls : List Call)
    (database : Database)
    (hrun : runCalls backend calls (.ofAccounts .empty) = some database)
    (hfits : EveryGrantFits backend calls (.ofAccounts .empty)) :
    LedgerConsistent database.accounts :=
  (LedgerInvariant.empty.runCalls calls hfits hrun).consistent

def grantCall (amount : Int64) (id : Nat) (steps : Nat) : Call :=
  { job := .grantCredits ⟨7⟩ ⟨8⟩ { amountMicrocredits := amount, reason := none }
    choices := List.replicate steps { uuid := ⟨BitVec.ofNat 128 id⟩ } }

def usageCall (completionTokens : UInt64) (id : Nat) : Call :=
  { job := .recordUsage
      { requestId := ⟨9⟩, userId := ⟨7⟩, apiKeyId := none, providerId := none, routeId := none
        daemonNodeId := none, model := "gpt-4o"
        usage := { promptTokens := 0, completionTokens, totalTokens := completionTokens,
                   estimated := false }
        statusCode := 200, latencyMs := 12
        routePrice := { inputMicrocreditsPer1mTokens := 0
                        outputMicrocreditsPer1mTokens := 1000000 } }
    choices := List.replicate 10 { uuid := ⟨BitVec.ofNat 128 id⟩ } }

theorem ledger_consistent_after_grant_and_usage :
    ∃ database, runCalls .sqlite [grantCall 5 1 14, usageCall 3 2] (.ofAccounts .empty) =
      some database ∧ LedgerConsistent database.accounts := by
  refine ⟨_, rfl, ?_⟩
  exact ledger_consistent_of_every_grant_fits .sqlite [grantCall 5 1 14, usageCall 3 2] _ rfl
    ⟨by decide, fun _ _ => ⟨trivial, fun _ _ => trivial⟩⟩

theorem saturated_grant_breaks_ledger :
    ∃ database, runCalls .sqlite [grantCall 9223372036854775807 1 14, grantCall 1 2 10]
      (.ofAccounts .empty) = some database ∧ ¬LedgerConsistent database.accounts := by
  refine ⟨_, rfl, fun h => ?_⟩
  have hbalance := h.balance
  revert hbalance
  decide

end Mizan.Billing
