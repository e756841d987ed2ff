import Mizan.Gateway.Completion

namespace Mizan.Gateway

open Billing

def LATENCY_BUCKETS_MS : List UInt64 := [50, 100, 250, 500, 1000, 2500, 5000]

structure GatewayLabels where
  route : String
  provider : String
  model : String
  daemonNode : String
  status : UInt16
  deriving DecidableEq, Repr

structure LatencyHistogram where
  buckets : List UInt64 := LATENCY_BUCKETS_MS.map fun _ => 0
  count : UInt64 := 0
  sumMs : UInt64 := 0
  deriving DecidableEq, Repr

structure MetricSet where
  requests : UInt64 := 0
  promptTokens : UInt64 := 0
  completionTokens : UInt64 := 0
  totalTokens : UInt64 := 0
  credits : Int64 := 0
  latency : LatencyHistogram := {}
  deriving DecidableEq, Repr

-- The shards only spread the labels over several locks.
structure MetricsRegistry where
  stats : List (GatewayLabels × MetricSet) := []
  deriving DecidableEq, Repr

def normalizeLabel (value : String) : String :=
  if trim value = "" then "unknown" else trim value

def normalizeOptionalLabel (value : Option String) : String :=
  (value.map normalizeLabel).getD "none"

def GatewayObservation.labels (observation : GatewayObservation) : GatewayLabels :=
  { route := normalizeLabel observation.route
    provider := normalizeLabel observation.provider
    model := normalizeLabel observation.model
    daemonNode := normalizeOptionalLabel observation.daemonNode
    status := observation.status }

-- The credits of a request that was answered under this status.
def creditsCharged (status : UInt16) (usage : TokenUsage) (routePrice : RoutePrice) : Int64 :=
  if 200 ≤ status ∧ status ≤ 299 then max (usageCharge usage routePrice).total 0 else 0

def LatencyHistogram.observe (latency : LatencyHistogram) (latencyMs : UInt64) : LatencyHistogram :=
  { buckets := List.zipWith
      (fun bucket count => if latencyMs ≤ bucket then count + 1 else count) LATENCY_BUCKETS_MS
      latency.buckets
    count := latency.count + 1
    sumMs := latency.sumMs + latencyMs }

-- A release build, in which the counters wrap.
def MetricSet.observe (metrics : MetricSet) (observation : GatewayObservation) : MetricSet :=
  { requests := metrics.requests + 1
    promptTokens := metrics.promptTokens + observation.usage.promptTokens
    completionTokens := metrics.completionTokens + observation.usage.completionTokens
    totalTokens := metrics.totalTokens + observation.usage.totalTokens
    credits := metrics.credits +
      creditsCharged observation.status observation.usage observation.routePrice
    latency := metrics.latency.observe observation.latencyMs }

-- `entry(labels).or_default()`
def updateEntry (labels : GatewayLabels) (change : MetricSet → MetricSet) :
    List (GatewayLabels × MetricSet) → List (GatewayLabels × MetricSet)
  | [] => [(labels, change {})]
  | (other, metrics) :: stats =>
      if other = labels then (other, change metrics) :: stats
      else (other, metrics) :: updateEntry labels change stats

namespace MetricsRegistry

def observeGateway (registry : MetricsRegistry) (observation : GatewayObservation) :
    MetricsRegistry :=
  { stats := updateEntry observation.labels (fun metrics => metrics.observe observation)
      registry.stats }

def credits (registry : MetricsRegistry) : Int64 :=
  (registry.stats.map fun (_, metrics) => metrics.credits).sum

theorem credits_observeGateway (registry : MetricsRegistry) (observation : GatewayObservation) :
    (registry.observeGateway observation).credits = registry.credits +
      creditsCharged observation.status observation.usage observation.routePrice := by
  obtain ⟨stats⟩ := registry
  simp only [observeGateway, credits]
  induction stats with
  | nil => simp [updateEntry, MetricSet.observe]
  | cons entry stats ih =>
      by_cases hlabels : entry.1 = observation.labels
      · simp only [updateEntry, if_pos hlabels, List.map_cons, List.sum_cons, MetricSet.observe]
        rw [Int64.add_assoc, Int64.add_assoc, Int64.add_comm (creditsCharged _ _ _)]
      · simp only [updateEntry, if_neg hlabels, List.map_cons, List.sum_cons, ih, Int64.add_assoc]

end MetricsRegistry

theorem creditsCharged_error {error : AppError} (usage : TokenUsage) (routePrice : RoutePrice) :
    creditsCharged (appErrorStatusCode error) usage routePrice = 0 := by
  cases error <;> rfl

end Mizan.Gateway
