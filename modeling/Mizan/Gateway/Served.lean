import Mizan.Gateway.Exits

namespace Mizan.Gateway

open Interleaving Billing Dispatch

-- What the client has received of a request that ran to its end.
inductive Served where
  | response (response : GatewayResponse)
  | events (events : List Event)
  deriving DecidableEq, Repr

-- A 200 body or a `[DONE]` event.
def Served.succeeded : Served → Prop
  | .response answer => answer.isCompletion
  | .events received => .done ∈ received

-- The handler, and the stream it may leave polled until it returns `None`, if that takes no more
-- than `polls`.
def serveToEnd (config : GatewayConfig) (request : GatewayRequest) (polls : Nat) :
    Handling (Option Served) := do
  match ← chatCompletionsImpl config request with
  | .response response => pure (some (.response response))
  | .stream state => Option.map Served.events <$> serving (StreamBuildState.drain polls state)

-- The effects of one request, from its start to its end.
structure EffectsAccounted (metrics : MetricsRegistry) (served : Served) (after : RequestEffects) :
    Prop where
  requestLogs : after.requestLogs.length = 1
  usages : after.usages.length ≤ 1
  obtained : after.obtained.length ≤ 1
  released : after.released = after.obtained
  paid : served.succeeded → ∃ input, after.usages = [(input, .ok ())]
  credits : after.metrics.credits = metrics.credits + after.debited

theorem Accounted.effects {metrics : MetricsRegistry} {leases : List RuntimeLimitLease}
    {served : Served} {after : RequestEffects} (hleases : leases.length ≤ 1)
    (h : Accounted leases leases served.succeeded (.start metrics) after) :
    EffectsAccounted metrics served after := by
  obtain ⟨input, hlogs⟩ := h.requestLogs
  obtain ⟨usages, husages, hlength, hpaid⟩ := h.usages
  obtain ⟨amount, hcredits, hdebited⟩ := h.credits
  have hobtained : after.obtained = leases := h.obtained
  have hreleased : after.released = leases := h.released
  have husages : after.usages = usages := husages
  have hdebited : after.debited = amount := by rw [hdebited]; exact Int64.zero_add amount
  refine ⟨by simp [hlogs, RequestEffects.start], ?_, ?_, ?_, ?_, ?_⟩
  · rw [husages]
    exact hlength
  · rw [hobtained]
    exact hleases
  · rw [hreleased, hobtained]
  · rw [husages]
    exact hpaid
  · rw [hdebited]
    exact hcredits

theorem serveToEnd_accounted (backend : DatabaseBackend) (config : GatewayConfig)
    (request : GatewayRequest) (polls : Nat) (metrics : MetricsRegistry) :
    (serveToEnd config request polls).Throughout (RequestEffects.handle backend) (fun _ => True)
      (fun served after => ∀ result, served = some result → EffectsAccounted metrics result after)
      (.start metrics) := by
  refine Prog.throughout_bind (Prog.throughout_mono (fun _ _ => trivial) (fun _ _ h => h)
    (chatCompletionsImpl_handled config request)) ?_
  intro outcome e houtcome
  cases outcome with
  | response response =>
      obtain ⟨leases, hleases, haccounted⟩ := houtcome
      intro result hresult
      cases hresult
      exact Accounted.effects hleases haccounted
  | stream state =>
      obtain ⟨lease, hlease, hopen, rfl⟩ := houtcome
      refine Prog.throughout_map (Prog.throughout_mono (fun _ h => h) ?_
        (Prog.throughout_embed (fun c choice s response s' hexec => hexec)
          (StreamBuildState.drain_accounted polls hopen)))
      intro events after hdrained result hresult
      obtain ⟨drained, rfl, rfl⟩ := Option.map_eq_some_iff.mp hresult
      have haccounted := hdrained drained rfl
      rw [hlease] at haccounted
      have hwhole : Accounted [lease] [lease] (Served.events drained).succeeded (.start metrics)
          after := Accounted.obtain haccounted
      refine Accounted.effects ?_ hwhole
      exact Nat.le_refl 1

theorem request_effects_accounted (backend : DatabaseBackend) (config : GatewayConfig)
    (request : GatewayRequest) (polls : Nat) (metrics : MetricsRegistry)
    (choices : List HandlerChoice) (served : Served) (after : RequestEffects)
    (hplay : (serveToEnd config request polls).play (RequestEffects.handle backend) choices
      (.start metrics) = some (some served, after)) : EffectsAccounted metrics served after :=
  Prog.play_of_throughout (serveToEnd_accounted backend config request polls metrics) hplay served
    rfl

-- A streamed answer of one chunk, which reports two tokens at a million microcredits each.
def pricedRoute : ResolvedModelRoute :=
  { id := ⟨5⟩, providerConnectionId := ⟨4⟩, upstreamModel := "gpt-4o", providerType := "openai"
    maxTokens := none, inputPricePer1mTokens := 0, outputPricePer1mTokens := 1000000 }

def streamedRequest : GatewayRequest :=
  { identity := { userId := ⟨7⟩, apiKeyId := ⟨3⟩ }, xRequestId := some ⟨1⟩, xTraceId := none
    payload :=
      { model := "chat", messages := [{ role := "user", content := "hi" }], stream := true }
    spec := CHAT_COMPLETIONS_SPEC }

def servedConfig : GatewayConfig := { limitLeaseSeconds := 30, daemonStaleSeconds := 60 }

def fundedWallet : Database :=
  .ofAccounts
    { wallets := [{ id := ⟨9⟩, ownerUserId := ⟨7⟩, balanceMicrocredits := 100, createdAt := "1"
                    updatedAt := "1" }]
      ledger := [] }

def userLease : RuntimeLimitLease := { keys := [concurrencyCounterKey (.user ⟨7⟩)] }

def streamedChoices : List HandlerChoice :=
  [{ route := .ok pricedRoute }, {}, {}, {}, { limits := .ok userLease }, {},
    { next := some (.ok { index := 0, delta := "hello", finishReason := some "stop"
                          usage := some { promptTokens := 1, completionTokens := 2, totalTokens := 3
                                          estimated := false } }) }, {}, {},
    { database := fundedWallet, sql := List.replicate 10 {} }, {}, {}, {}, {}]

theorem streamed_request_accounted : ∃ served after,
    (serveToEnd servedConfig streamedRequest 4).play (RequestEffects.handle .sqlite) streamedChoices
      (.start {}) = some (some served, after) ∧ after.debited = 2 ∧
    EffectsAccounted {} served after := by
  have hplayed : ((serveToEnd servedConfig streamedRequest 4).play (RequestEffects.handle .sqlite)
      streamedChoices (.start {})).map (fun result => (result.1.isSome, result.2.debited)) =
        some (true, 2) := by decide +kernel
  obtain ⟨⟨result, after⟩, hplay, hresult⟩ := Option.map_eq_some_iff.mp hplayed
  obtain ⟨hsome, hdebited⟩ := Prod.mk.inj hresult
  obtain ⟨served, rfl⟩ := Option.isSome_iff_exists.mp hsome
  exact ⟨served, after, hplay, hdebited, request_effects_accounted .sqlite servedConfig
    streamedRequest 4 {} streamedChoices served after hplay⟩

end Mizan.Gateway
