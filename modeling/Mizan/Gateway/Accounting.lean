import Mizan.Gateway.Handler
import Mizan.Gateway.Metrics
import Mizan.Billing.Session

namespace Mizan.Gateway

open Interleaving Billing Dispatch
open Daemon (EligibleDaemonNode)

-- What has been done about one request so far.
structure RequestEffects where
  obtained : List RuntimeLimitLease
  released : List RuntimeLimitLease
  requestLogs : List RequestLogInput
  usages : List (BillingInput × Except AppError Unit)
  debited : Int64
  metrics : MetricsRegistry
  deriving Repr

-- What the rest of the gateway answers. The billing runs on whatever the database holds then,
-- and any of its statements may fail.
structure HandlerChoice where
  elapsedMs : UInt64 := 0
  uuid : Uuid := ⟨0⟩
  nowSeconds : Int64 := 0
  route : Except AppError ResolvedModelRoute := .error .unauthorized
  node : Except AppError (Option EligibleDaemonNode) := .ok none
  credit : Except AppError Unit := .ok ()
  limits : Except AppError RuntimeLimitLease := .ok .noop
  stream : Except AppError Unit := .ok ()
  next : Option (Except AppError ChatStreamChunk) := none
  response : Except AppError ChatResponse := .error .unauthorized
  dispatch : Except AppError DispatchJobResult := .ok .timedOut
  database : Database := .ofAccounts .empty
  sql : List SqlChoice := []

-- What the ledger rows written since then take from their wallets.
def debits (before after : Database) : Int64 :=
  ((after.accounts.ledger.drop before.accounts.ledger.length).map fun row =>
    -row.requestDeltaMicrocredits).sum

namespace RequestEffects

def start (metrics : MetricsRegistry) : RequestEffects :=
  { obtained := [], released := [], requestLogs := [], usages := [], debited := 0, metrics }

def exec (backend : DatabaseBackend) : (c : GatewayCommand) → HandlerChoice → RequestEffects →
    Option (c.Response × RequestEffects)
  | .upstreamNext, choice, effects => some (choice.next, effects)
  | .chatCompletions _, choice, effects => some (choice.response, effects)
  | .elapsedMs, choice, effects => some (choice.elapsedMs, effects)
  | .recordUsage input, choice, effects =>
      (Session.call backend (.recordUsage input) choice.sql choice.database).map
        fun (result, session) =>
          (result.map fun _ => (), { effects with
            usages := effects.usages ++ [(input, result.map fun _ => ())]
            debited := effects.debited + debits choice.database session.database })
  | .observeGateway observation, _, effects =>
      some ((), { effects with metrics := effects.metrics.observeGateway observation })
  | .recordRequestLog input, _, effects =>
      some ((), { effects with requestLogs := effects.requestLogs ++ [input] })
  | .releaseLimitLease lease, _, effects =>
      some ((), { effects with released := effects.released ++ [lease] })

def handle (backend : DatabaseBackend) : (c : HandlerCommand) → HandlerChoice → RequestEffects →
    Option (c.Response × RequestEffects)
  | .gateway command, choice, effects => exec backend command choice effects
  | .nowV7, choice, effects => some (choice.uuid, effects)
  | .nowUtcEpochSeconds, choice, effects => some (choice.nowSeconds, effects)
  | .resolveModelRoute .., choice, effects => some (choice.route, effects)
  | .selectEligibleDaemonNode .., choice, effects => some (choice.node, effects)
  | .ensureSufficientCredit .., choice, effects => some (choice.credit, effects)
  | .acquireRuntimeLimits .., choice, effects =>
      some (choice.limits, { effects with
        obtained := effects.obtained ++ choice.limits.toOption.toList })
  | .chatCompletionsStream _, choice, effects => some (choice.stream, effects)
  | .dispatchToDaemonNode _, choice, effects => some (choice.dispatch, effects)

end RequestEffects

-- What `record_usage` takes from the wallet when it returns like this.
def usageDebit (input : BillingInput) : Except AppError Unit → Int64
  | .ok () => creditsCharged input.statusCode input.usage input.routePrice
  | .error _ => 0

def RequestEffects.billed (effects : RequestEffects) (input : BillingInput)
    (result : Except AppError Unit) : RequestEffects :=
  { effects with
    usages := effects.usages ++ [(input, result)]
    debited := effects.debited + usageDebit input result }

section Debits

variable {backend : DatabaseBackend} {input : BillingInput} {sql : List SqlChoice}
  {database : Database} {result : Except AppError JobResult} {session : Session}

theorem debits_of_same (h : session.database.accounts = database.accounts) :
    debits database session.database = 0 := by
  simp [debits, h]

theorem creditsCharged_of_charged (h : Charged input) :
    creditsCharged input.statusCode input.usage input.routePrice =
      (usageCharge input.usage input.routePrice).total := by
  rw [creditsCharged, if_pos h.1]
  exact if_neg h.2

theorem creditsCharged_of_not_charged (h : ¬Charged input) :
    creditsCharged input.statusCode input.usage input.routePrice = 0 := by
  unfold creditsCharged
  split
  · rename_i hstatus
    have hcharge : (usageCharge input.usage input.routePrice).total ≤ 0 := by
      by_contra hne
      exact h ⟨hstatus, hne⟩
    exact if_pos hcharge
  · rfl

theorem debits_of_effect
    (h : Effect (.recordUsage input) database.accounts session.database.accounts) :
    debits database session.database = (usageCharge input.usage input.routePrice).total := by
  obtain ⟨wallet, opening, writes, hprepared, hwrites, haccounts⟩ := h
  cases hwrites with
  | usage id now eventId eventNow hcharged hbalance hevent =>
      have hledger : session.database.accounts.ledger = database.accounts.ledger ++
          [entryRow (.ofRecord wallet) (some input.requestId)
            (-(usageCharge input.usage input.routePrice).total)
            ((WalletRow.ofRecord wallet).balanceMicrocredits -
              (usageCharge input.usage input.routePrice).total) USAGE_CHARGE_REASON id now] := by
        rw [haccounts, Accounts.applyAll_append, ← hprepared.ledger]
        rfl
      simp [debits, hledger, entryRow]

theorem debits_of_call
    (h : Session.call backend (.recordUsage input) sql database = some (result, session)) :
    debits database session.database = usageDebit input (result.map fun _ => ()) := by
  have hresult := Protocol.alone_play ((Session.isolation backend (.recordUsage input)
    database).program_spec (Session.phase_idle (.recordUsage input) database)) h
  have hidle (hphase : (Session.isolation backend (.recordUsage input) database).Reached .idle
      session) : debits database session.database = 0 := by
    obtain ⟨noted, -, hsame⟩ := hphase
    exact debits_of_same hsame.accounts
  cases result with
  | error error => exact hidle hresult
  | ok value =>
      by_cases hcharged : Charged input
      · obtain ⟨noted, hsettled⟩ := hresult.1 hcharged
        rw [debits_of_effect (Session.effect_of_settled hsettled)]
        exact (creditsCharged_of_charged hcharged).symm
      · rw [hidle (hresult.2 hcharged)]
        exact (creditsCharged_of_not_charged hcharged).symm

end Debits

-- No lease is taken or given back while the program waits.
def SameLeases (before e : RequestEffects) : Prop :=
  e.obtained = before.obtained ∧ e.released = before.released

-- What holds while the program waits and when it returns, whatever the gateway answers.
abbrev Handles {α : Type} (backend : DatabaseBackend) (before : RequestEffects)
    (program : Serving α) (post : α → RequestEffects → Prop) (e : RequestEffects) : Prop :=
  program.Throughout (RequestEffects.exec backend) (SameLeases before) post e

section Commands

variable {backend : DatabaseBackend} {before e : RequestEffects}

theorem handles_elapsedMs (h : SameLeases before e) :
    Handles backend before (Prog.ask GatewayCommand.elapsedMs) (fun _ e' => e' = e) e := by
  refine Prog.throughout_ask h fun choice response e' hexec => ?_
  cases hexec
  rfl

theorem handles_chatCompletions (request : ChatRequest) (h : SameLeases before e) :
    Handles backend before (Prog.ask (GatewayCommand.chatCompletions request))
      (fun _ e' => e' = e) e := by
  refine Prog.throughout_ask h fun choice response e' hexec => ?_
  cases hexec
  rfl

theorem handles_upstreamNext (h : SameLeases before e) :
    Handles backend before (Prog.ask GatewayCommand.upstreamNext) (fun _ e' => e' = e) e := by
  refine Prog.throughout_ask h fun choice response e' hexec => ?_
  cases hexec
  rfl

theorem handles_recordUsage (input : BillingInput) (h : SameLeases before e) :
    Handles backend before (Prog.ask (GatewayCommand.recordUsage input))
      (fun (result : Except AppError Unit) e' => e' = e.billed input result) e := by
  refine Prog.throughout_ask h fun choice response e' hexec => ?_
  simp only [RequestEffects.exec, Option.map_eq_some_iff] at hexec
  obtain ⟨⟨result, session⟩, hcall, hanswer⟩ := hexec
  obtain ⟨rfl, rfl⟩ := Prod.mk.inj hanswer
  rw [debits_of_call hcall]
  rfl

theorem handles_record (log : GatewayCompletionLog) (status : UInt16) (errorCode : Option String)
    (h : SameLeases before e) :
    Handles backend before (recordGatewayRequestCompletion log status errorCode)
      (fun _ e' => ∃ input, e' = { e with requestLogs := e.requestLogs ++ [input] }) e := by
  refine Prog.throughout_bind (handles_elapsedMs h) ?_
  rintro latencyMs _ rfl
  refine Prog.throughout_ask h fun choice response e' hexec => ?_
  cases hexec
  exact ⟨_, rfl⟩

theorem handles_observeDaemon (context : RequestContext) (routeAlias : String)
    (daemonNodeId : Option Uuid) (usage : TokenUsage) (status : UInt16) (latencyMs : UInt64)
    (routePrice : RoutePrice) (h : SameLeases before e) :
    Handles backend before (observeGatewayMetricsWithDaemonNode context routeAlias daemonNodeId
        usage status latencyMs routePrice)
      (fun _ e' => ∃ metrics, metrics.credits =
          e.metrics.credits + creditsCharged status usage routePrice ∧ e' = { e with metrics })
            e := by
  refine Prog.throughout_ask h fun choice response e' hexec => ?_
  cases hexec
  exact ⟨_, MetricsRegistry.credits_observeGateway _ _, rfl⟩

theorem handles_observe (context : RequestContext) (routeAlias : String) (usage : TokenUsage)
    (status : UInt16) (latencyMs : UInt64) (routePrice : RoutePrice) (h : SameLeases before e) :
    Handles backend before
      (observeGatewayMetrics context routeAlias usage status latencyMs routePrice)
      (fun _ e' => ∃ metrics, metrics.credits =
          e.metrics.credits + creditsCharged status usage routePrice ∧ e' = { e with metrics }) e :=
  handles_observeDaemon context routeAlias none usage status latencyMs routePrice h

theorem handles_release (lease : Option RuntimeLimitLease) (h : SameLeases before e) :
    Handles backend before (releaseLimitLease lease)
      (fun _ e' => e' = { e with released := e.released ++ lease.toList }) e := by
  cases lease with
  | none =>
      have hnone : e = { e with released := e.released ++
        (none : Option RuntimeLimitLease).toList } := by
        simp
      exact hnone
  | some lease =>
      refine Prog.throughout_ask h fun choice response e' hexec => ?_
      cases hexec
      rfl

-- The end of a stream. Its event is kept unless the billing fails, and then it is an error.
theorem StreamBuildState.handles_settle (state : StreamBuildState) (status : UInt16)
    (errorCode : Option String) (event : Event) :
    Handles backend e (state.settle status errorCode event) (fun settled e' =>
      settled.2 = state.ended ∧ ∃ input result log metrics,
        metrics.credits = e.metrics.credits + usageDebit input result ∧
        (settled.1 = .done → result = .ok ()) ∧ (result = .ok () → settled.1 = event) ∧
        e' = { e.billed input result with
          metrics
          released := e.released ++ state.limitLease.toList
          requestLogs := e.requestLogs ++ [log] }) e := by
  refine Prog.throughout_bind (handles_elapsedMs ⟨rfl, rfl⟩) ?_
  rintro latencyMs _ rfl
  refine Prog.throughout_bind (handles_recordUsage _ ⟨rfl, rfl⟩) ?_
  rintro result _ rfl
  cases result with
  | error error =>
      refine Prog.throughout_bind (handles_record _ _ _ ⟨rfl, rfl⟩) ?_
      rintro _ _ ⟨log, rfl⟩
      refine Prog.throughout_bind (handles_observe _ _ _ _ _ _ ⟨rfl, rfl⟩) ?_
      rintro _ _ ⟨metrics, hcredits, rfl⟩
      refine Prog.throughout_bind (handles_release _ ⟨rfl, rfl⟩) ?_
      rintro _ _ rfl
      rw [creditsCharged_error] at hcredits
      exact ⟨rfl, _, .error error, log, metrics, hcredits, fun hdone => (by cases hdone),
        fun hok => (by cases hok), rfl⟩
  | ok =>
      refine Prog.throughout_bind (handles_observe _ _ _ _ _ _ ⟨rfl, rfl⟩) ?_
      rintro _ _ ⟨metrics, hcredits, rfl⟩
      refine Prog.throughout_bind (handles_record _ _ _ ⟨rfl, rfl⟩) ?_
      rintro _ _ ⟨log, rfl⟩
      refine Prog.throughout_bind (handles_release _ ⟨rfl, rfl⟩) ?_
      rintro _ _ rfl
      exact ⟨rfl, state.billingInput status latencyMs, .ok (), log, metrics, hcredits,
        fun _ => rfl, fun _ => rfl, rfl⟩

end Commands

-- One request log, at most one billing call, the credits as they were debited, and the leases:
-- `obtained` are taken and `given` are given back. An answer with a result was paid for.
structure Accounted (obtained given : List RuntimeLimitLease) (answered : Prop)
    (before after : RequestEffects) : Prop where
  requestLogs : ∃ input, after.requestLogs = before.requestLogs ++ [input]
  usages : ∃ usages, after.usages = before.usages ++ usages ∧ usages.length ≤ 1 ∧
    (answered → ∃ input, usages = [(input, .ok ())])
  credits : ∃ amount, after.metrics.credits = before.metrics.credits + amount ∧
    after.debited = before.debited + amount
  obtained : after.obtained = before.obtained ++ obtained
  released : after.released = before.released ++ given

end Mizan.Gateway
