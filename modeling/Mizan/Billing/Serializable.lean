import Mizan.Billing.Ledger
import Mizan.Billing.Postgres
import Mizan.Billing.Sqlite

namespace Mizan.Billing

open Interleaving

abbrev BillingCall := Prog SqlCommand SqlCommand.Response (Except AppError JobResult)

def code (backend : DatabaseBackend) (jobs : Nat → Job) (t : Nat) : BillingCall :=
  ((jobs t).program backend).run

-- What the result of a job says about its transaction. A usage that is not charged and a charge
-- that is free need none, and a refused credit check may have opened the wallet.
def Reported (job : Job) (result : Except AppError JobResult) (committed : Prop) : Prop :=
  match job, result with
  | .recordUsage input, .ok _ => committed ↔ Charged input
  | .ensureSufficientCredit _ usage price, .ok _ => ¬(usageCharge usage price).total ≤ 0 → committed
  | .ensureSufficientCredit .., .error _ => True
  | _, .ok _ => committed
  | _, .error _ => ¬committed

theorem reported_of_outcome {σ : Type} {sys : System SqlCommand SqlCommand.Response SqlChoice σ}
    {P : Protocol sys} {t : Nat} {backend : DatabaseBackend} {job : Job}
    (iso : Isolation P t backend job) {s : σ} {committed : Prop}
    (hsettled : iso.Reached .settled s → committed) (hidle : iso.Reached .idle s → ¬committed)
    {result : Except AppError JobResult}
    (h : Protocol.outcome (fun _ => iso.Committed) (fun _ => iso.RolledBack) result s) :
    Reported job result committed := by
  cases result with
  | ok value =>
      cases job with
      | recordUsage input =>
          refine ⟨fun hcommitted => ?_, fun hcharged => hsettled (h.1 hcharged)⟩
          by_contra hcharged
          exact hidle (h.2 hcharged) hcommitted
      | ensureSufficientCredit userId usage price =>
          exact fun hcharge => h.elim (fun hfree => absurd hfree.1 hcharge) hsettled
      | grantCredits | ensureWallet | getWallet => exact hsettled h
  | error error =>
      cases job with
      | ensureSufficientCredit => trivial
      | grantCredits | recordUsage | ensureWallet | getWallet => exact hidle h

-- The committed accounts are those of the committed jobs, each run alone in the order of the
-- commits.
structure SerialOutcome (backend : DatabaseBackend) (jobs : Nat → Job)
    (initial accounts : Accounts) (order : List Nat) (threads : Nat → Option BillingCall) :
    Prop where
  keyed : accounts.Keyed
  serial : SerialRun backend jobs order initial accounts
  once : order.Nodup
  reported : ∀ t result, threads t = some (.ret result) → Reported (jobs t) result (t ∈ order)
  nonNegative : NonNegative accounts

section Runs

variable {jobs : Nat → Job} {initial : Database}

-- On a database that isolates the jobs, a run keeps its invariant and every call that has
-- returned was told the truth.
theorem run_isolated {σ : Type} {sys : System SqlCommand SqlCommand.Response SqlChoice σ}
    {P : Protocol sys} {backend : DatabaseBackend}
    (iso : ∀ t, Isolation P t backend (jobs t)) {start : σ}
    (hidle : ∀ t s, P.fresh t s → (iso t).phase .idle [] s) (hadmits : ∀ t c x s, P.admits t c x s)
    (henv : ∀ x s, P.admitsEnv x s) (hinv : P.inv start) (hfresh : ∀ t, P.fresh t start)
    {actions : List (Action SqlChoice)}
    {config : Config SqlCommand SqlCommand.Response (Except AppError JobResult) σ}
    (hrun : sys.run (code backend jobs) actions (System.initial start) = some config) :
    P.inv config.state ∧ ∀ t result, config.threads t = some (.ret result) →
      Protocol.outcome (fun _ => (iso t).Committed) (fun _ => (iso t).RolledBack) result
        config.state := by
  let post (t : Nat) := Protocol.outcome (fun _ : JobResult => (iso t).Committed)
    (fun _ : AppError => (iso t).RolledBack)
  have hcode : ∀ t s, P.inv s → P.fresh t s → P.wp t (code backend jobs t) (post t) s :=
    fun t s _ hfresh => (iso t).program_spec (hidle t s hfresh)
  have hgood := Protocol.good_run (code backend jobs) post hcode actions hrun
    (Protocol.meets_allowed _ hadmits henv actions _) (Protocol.good_initial post hinv hfresh)
  exact ⟨hgood.1, fun t result hthread => hgood.returned hthread⟩

theorem Postgres.serialOutcome (hkeyed : initial.accounts.Keyed)
    (hnonneg : NonNegative initial.accounts) {actions : List (Action SqlChoice)}
    {config : Config SqlCommand SqlCommand.Response (Except AppError JobResult) Postgres}
    (hrun : Postgres.system.run (code .postgres jobs) actions
      (System.initial (Postgres.start initial)) = some config) :
    SerialOutcome .postgres jobs initial.accounts config.state.database.accounts
      config.state.order config.threads := by
  have hstart : Postgres.Invariant jobs initial.accounts (Postgres.start initial) :=
    ⟨hkeyed, .start, List.nodup_nil, fun _ h => absurd rfl h⟩
  obtain ⟨hinv, hreturned⟩ := run_isolated (Postgres.isolation jobs initial.accounts)
    (fun _ _ h => h) (fun _ _ _ _ => trivial) (fun _ _ => trivial) hstart
    (fun _ => ⟨rfl, List.not_mem_nil⟩) hrun
  have hinv : Postgres.Invariant jobs initial.accounts config.state := hinv
  refine ⟨hinv.keyed, hinv.history.serialRun, hinv.once, fun t result hthread => ?_,
    hinv.history.nonNegative hnonneg⟩
  exact reported_of_outcome (Postgres.isolation jobs initial.accounts t)
    (fun hsettled => hsettled.elim fun _ hphase => hphase.2)
    (fun hidle => hidle.elim fun _ hphase => hphase.2) (hreturned t result hthread)

theorem Sqlite.serialOutcome (hkeyed : initial.accounts.Keyed)
    (hnonneg : NonNegative initial.accounts) {actions : List (Action SqlChoice)}
    {config : Config SqlCommand SqlCommand.Response (Except AppError JobResult) Sqlite}
    (hrun : Sqlite.system.run (code .sqlite jobs) actions
      (System.initial (Sqlite.start initial)) = some config) :
    SerialOutcome .sqlite jobs initial.accounts config.state.database.accounts
      config.state.order config.threads := by
  have hclosed : ∀ {t tx}, (Sqlite.start initial).txs t ≠ some tx := by
    intro t tx htx
    cases htx
  have hstart : Sqlite.Invariant jobs initial.accounts (Sqlite.start initial) :=
    { keyed := hkeyed, history := .start, once := List.nodup_nil
      uncommitted := fun _ h => absurd rfl h
      snapshots := fun htx _ => absurd htx hclosed
      writers := fun htx _ => absurd htx hclosed
      currents := fun htx _ _ => absurd htx hclosed }
  obtain ⟨hinv, hreturned⟩ := run_isolated (Sqlite.isolation jobs initial.accounts)
    (fun _ _ h => h) (fun _ _ _ _ => trivial) (fun _ _ => trivial) hstart
    (fun _ => ⟨rfl, List.not_mem_nil⟩) hrun
  have hinv : Sqlite.Invariant jobs initial.accounts config.state := hinv
  refine ⟨hinv.keyed, hinv.history.serialRun, hinv.once, fun t result hthread => ?_,
    hinv.history.nonNegative hnonneg⟩
  exact reported_of_outcome (Sqlite.isolation jobs initial.accounts t)
    (fun hsettled => hsettled.elim fun _ hphase => hphase.2)
    (fun hidle => hidle.elim fun _ hphase => hphase.2) (hreturned t result hthread)

end Runs

theorem concurrent_transactions_are_serial (jobs : Nat → Job) (initial : Database)
    (hkeyed : initial.accounts.Keyed) (hnonneg : NonNegative initial.accounts) :
    (∀ actions config, Postgres.system.run (code .postgres jobs) actions
        (System.initial (Postgres.start initial)) = some config →
      SerialOutcome .postgres jobs initial.accounts config.state.database.accounts
        config.state.order config.threads) ∧
    ∀ actions config, Sqlite.system.run (code .sqlite jobs) actions
        (System.initial (Sqlite.start initial)) = some config →
      SerialOutcome .sqlite jobs initial.accounts config.state.database.accounts
        config.state.order config.threads :=
  ⟨fun _ _ hrun => Postgres.serialOutcome hkeyed hnonneg hrun,
    fun _ _ hrun => Sqlite.serialOutcome hkeyed hnonneg hrun⟩

-- Two first grants to one user that race for the wallet row.
def racingGrants (t : Nat) : Job :=
  .grantCredits ⟨7⟩ ⟨8⟩ { amountMicrocredits := if t = 0 then 5 else 7, reason := none }

def racingCalls (t steps : Nat) : List (Action SqlChoice) :=
  List.replicate steps (.call t { uuid := ⟨BitVec.ofNat 128 t⟩ })

def racingActions : List (Action SqlChoice) :=
  [.spawn 0, .spawn 1] ++ racingCalls 0 2 ++ racingCalls 1 4 ++ racingCalls 0 12 ++ racingCalls 1 10

theorem racing_grants_are_serial :
    ∃ config, Postgres.system.run (code .postgres racingGrants) racingActions
        (System.initial (Postgres.start (.ofAccounts .empty))) = some config ∧
      balanceOf config.state.database.accounts ⟨7⟩ = 12 ∧
      SerialOutcome .postgres racingGrants .empty config.state.database.accounts
        config.state.order config.threads := by
  refine ⟨_, rfl, rfl, ?_⟩
  exact (concurrent_transactions_are_serial racingGrants (.ofAccounts .empty)
    ⟨List.nodup_nil, List.nodup_nil⟩ (fun _ h => by cases h)).1 racingActions _ rfl

end Mizan.Billing
