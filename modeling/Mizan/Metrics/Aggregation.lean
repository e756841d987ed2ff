import Mizan.Metrics.Registry

namespace Mizan.Metrics

open Gateway hiding MetricsRegistry
open Table

-- The sum of a counter over the calls, before it wraps.
def sumOf (value : GatewayObservation → UInt64) (observed : List GatewayObservation) : Nat :=
  (observed.map fun observation => (value observation).toNat).sum

def creditSum (observed : List GatewayObservation) : Int :=
  (observed.map fun observation =>
    (creditsCharged observation.status observation.usage observation.routePrice).toInt).sum

-- The calls that took at most `bound` milliseconds.
def within (bound : UInt64) (observed : List GatewayObservation) : Nat :=
  observed.countP fun observation => observation.latencyMs ≤ bound

structure Aggregates (observed : List GatewayObservation) (metrics : MetricSet) : Prop where
  requests : metrics.requests = UInt64.ofNat observed.length
  promptTokens : metrics.promptTokens = UInt64.ofNat (sumOf (·.usage.promptTokens) observed)
  completionTokens :
    metrics.completionTokens = UInt64.ofNat (sumOf (·.usage.completionTokens) observed)
  totalTokens : metrics.totalTokens = UInt64.ofNat (sumOf (·.usage.totalTokens) observed)
  credits : metrics.credits = Int64.ofInt (creditSum observed)
  count : metrics.latency.count = UInt64.ofNat observed.length
  sumMs : metrics.latency.sumMs = UInt64.ofNat (sumOf (·.latencyMs) observed)
  buckets : metrics.latency.buckets =
    LATENCY_BUCKETS_MS.map fun bound => UInt64.ofNat (within bound observed)

section Fold

variable {observed : List GatewayObservation}

theorem counter_foldl {counter : MetricSet → UInt64} {value : GatewayObservation → UInt64}
    (hstep : ∀ metrics observation,
      counter (metrics.observe observation) = counter metrics + value observation)
    (metrics : MetricSet) (observed : List GatewayObservation) :
    counter (observed.foldl MetricSet.observe metrics) =
      counter metrics + UInt64.ofNat (sumOf value observed) := by
  induction observed generalizing metrics with
  | nil => simp [sumOf]
  | cons observation observed ih =>
      rw [List.foldl_cons, ih, hstep, sumOf, sumOf, List.map_cons, List.sum_cons, UInt64.ofNat_add,
        UInt64.ofNat_toNat, UInt64.add_assoc]

theorem sumOf_one (observed : List GatewayObservation) :
    sumOf (fun _ => 1) observed = observed.length := by
  simp [sumOf]

theorem credits_foldl (metrics : MetricSet) (observed : List GatewayObservation) :
    (observed.foldl MetricSet.observe metrics).credits =
      metrics.credits + Int64.ofInt (creditSum observed) := by
  induction observed generalizing metrics with
  | nil => simp [creditSum]
  | cons observation observed ih =>
      rw [List.foldl_cons, ih, creditSum, creditSum, List.map_cons, List.sum_cons, Int64.ofInt_add,
        Int64.ofInt_toInt, ← Int64.add_assoc]
      rfl

theorem within_append (bound : UInt64) (observed : List GatewayObservation)
    (observation : GatewayObservation) :
    UInt64.ofNat (within bound (observed ++ [observation])) =
      if observation.latencyMs ≤ bound then UInt64.ofNat (within bound observed) + 1
      else UInt64.ofNat (within bound observed) := by
  rw [within, within, List.countP_append]
  by_cases hle : observation.latencyMs ≤ bound
  · simp [hle]
  · simp [hle]

theorem buckets_foldl (observed : List GatewayObservation) :
    (observed.foldl MetricSet.observe {}).latency.buckets =
      LATENCY_BUCKETS_MS.map fun bound => UInt64.ofNat (within bound observed) := by
  induction observed using List.reverseRecOn with
  | nil => rfl
  | append_singleton observed observation ih =>
      rw [List.foldl_append, List.foldl_cons, List.foldl_nil, MetricSet.observe]
      simp only [LatencyHistogram.observe]
      rw [ih, List.zipWith_map_right, List.zipWith_self]
      simp only [within_append]

theorem aggregates_foldl (observed : List GatewayObservation) :
    Aggregates observed (observed.foldl MetricSet.observe {}) := by
  have hzero : ∀ n : UInt64, 0 + n = n := UInt64.zero_add
  constructor
  · rw [@counter_foldl MetricSet.requests (fun _ => 1) fun _ _ => rfl, sumOf_one]
    exact hzero _
  · rw [@counter_foldl MetricSet.promptTokens (·.usage.promptTokens) fun _ _ => rfl]
    exact hzero _
  · rw [@counter_foldl MetricSet.completionTokens (·.usage.completionTokens) fun _ _ => rfl]
    exact hzero _
  · rw [@counter_foldl MetricSet.totalTokens (·.usage.totalTokens) fun _ _ => rfl]
    exact hzero _
  · rw [credits_foldl]
    exact Int64.zero_add _
  · rw [@counter_foldl (fun metrics => metrics.latency.count) (fun _ => 1) fun _ _ => rfl,
      sumOf_one]
    exact hzero _
  · rw [@counter_foldl (fun metrics => metrics.latency.sumMs) (·.latencyMs) fun _ _ => rfl]
    exact hzero _
  · exact buckets_foldl observed

end Fold

section Buckets

variable {observed : List GatewayObservation} {bound bound' : UInt64}

theorem within_le_length : within bound observed ≤ observed.length := List.countP_le_length

theorem ofNat_mono {n m : Nat} (h : n ≤ m) (hm : m < UInt64.size) :
    UInt64.ofNat n ≤ UInt64.ofNat m := by
  rw [UInt64.le_iff_toNat_le, UInt64.toNat_ofNat_of_lt' hm, UInt64.toNat_ofNat_of_lt' (by omega)]
  exact h

variable {metrics : MetricSet}

theorem Aggregates.bounded (h : Aggregates observed metrics)
    (hfits : observed.length < UInt64.size) :
    ∀ bucket ∈ metrics.latency.buckets, bucket ≤ metrics.latency.count := by
  intro bucket hmem
  rw [h.buckets] at hmem
  obtain ⟨bound, _, rfl⟩ := List.mem_map.mp hmem
  rw [h.count]
  exact ofNat_mono within_le_length hfits

end Buckets

def withLabels (labels : GatewayLabels) (observations : List GatewayObservation) :
    List GatewayObservation :=
  observations.filter fun observation => observation.labels = labels

end Mizan.Metrics
