import Mathlib.Data.Prod.Lex
import Mathlib.Data.String.Basic
import Mizan.Gateway.Metrics
import Mizan.Table.Keyed
import Mizan.Table.Order

namespace Mizan.Metrics

open Gateway hiding MetricsRegistry
open Table

def METRIC_SHARDS : Nat := 16

def FNV_OFFSET_BASIS : UInt64 := 0xcbf29ce484222325

def FNV_PRIME : UInt64 := 0x00000100000001b3

structure MetricsInner where
  stats : List (GatewayLabels × MetricSet) := []

structure MetricsRegistry where
  shards : Fin METRIC_SHARDS → MetricsInner := fun _ => {}

def asBytes (s : String) : List UInt8 := s.toByteArray.data.toList

def fnv1a (hash : UInt64) (value : List UInt8) : UInt64 :=
  value.foldl (fun hash byte => (hash ^^^ byte.toUInt64) * FNV_PRIME) hash

example : fnv1a FNV_OFFSET_BASIS [0x61] = 0xaf63dc4c8601ec8c := by decide

-- `to_le_bytes` of a number that takes `width` bytes
def toLeBytes (width : Nat) (n : UInt64) : List UInt8 :=
  (List.range width).map fun place => (n >>> UInt64.ofNat (8 * place)).toUInt8

def fnv1aLenPrefixed (hash : UInt64) (value : List UInt8) : UInt64 :=
  fnv1a (fnv1a hash (toLeBytes 8 (UInt64.ofNat value.length))) value

def shardIndex (labels : GatewayLabels) : Fin METRIC_SHARDS :=
  let hash := fnv1aLenPrefixed FNV_OFFSET_BASIS (asBytes labels.route)
  let hash := fnv1aLenPrefixed hash (asBytes labels.provider)
  let hash := fnv1aLenPrefixed hash (asBytes labels.model)
  let hash := fnv1aLenPrefixed hash (asBytes labels.daemonNode)
  let hash := fnv1a hash (toLeBytes 2 labels.status.toUInt64)
  ⟨hash.toNat % METRIC_SHARDS, Nat.mod_lt _ (by decide)⟩

-- The derived order of the labels. The order of the code points is that of their UTF-8 bytes.
def rank (labels : GatewayLabels) : String ×ₗ String ×ₗ String ×ₗ String ×ₗ Nat :=
  toLex (labels.route, toLex (labels.provider, toLex (labels.model,
    toLex (labels.daemonNode, labels.status.toNat))))

-- The order in which the hash map of a shard yields its entries.
structure IterationOrder where
  arrange : List (GatewayLabels × MetricSet) → List (GatewayLabels × MetricSet)
  perm : ∀ stats, (arrange stats).Perm stats

namespace MetricsRegistry

-- A call holds the lock of one shard, so that calls at the same time are calls one after another.
def observeGateway (registry : MetricsRegistry) (observation : GatewayObservation) :
    MetricsRegistry :=
  let labels := observation.labels
  let inner := registry.shards (shardIndex labels)
  { shards := Function.update registry.shards (shardIndex labels)
      { stats := upsert labels {} (fun metrics => metrics.observe observation) inner.stats } }

def snapshot (registry : MetricsRegistry) (iteration : Fin METRIC_SHARDS → IterationOrder) :
    List (GatewayLabels × MetricSet) :=
  ascending (fun entry => rank entry.1) <| (List.finRange METRIC_SHARDS).flatMap fun shard =>
    (iteration shard).arrange (registry.shards shard).stats

end MetricsRegistry

def observeAll (observations : List GatewayObservation) : MetricsRegistry :=
  observations.foldl MetricsRegistry.observeGateway {}

-- The registry that keeps all labels in one map.
def observeUnsharded (observations : List GatewayObservation) : Gateway.MetricsRegistry :=
  observations.foldl Gateway.MetricsRegistry.observeGateway {}

abbrev Counted (stats : List (GatewayLabels × MetricSet)) (observations : List GatewayObservation) :
    Prop :=
  Tallied GatewayObservation.labels {} MetricSet.observe stats observations

-- Every shard has the tallies of the labels that hash to it.
theorem sharded_observeAll (observations : List GatewayObservation) :
    Sharded GatewayObservation.labels {} MetricSet.observe shardIndex
      (fun shard => ((observeAll observations).shards shard).stats) observations := by
  induction observations using List.reverseRecOn with
  | nil => exact fun shard => Tallied.nil
  | append_singleton observations observation ih =>
      rw [observeAll, List.foldl_append, List.foldl_cons, List.foldl_nil]
      have hupdate : ∀ (shards : Fin METRIC_SHARDS → MetricsInner) (shard : Fin METRIC_SHARDS)
          (stats : List (GatewayLabels × MetricSet)),
          (fun other => (Function.update shards shard { stats := stats } other).stats) =
            Function.update (fun other => (shards other).stats) shard stats := fun shards shard _ =>
        Function.comp_update MetricsInner.stats shards shard _
      simp only [MetricsRegistry.observeGateway, hupdate]
      exact ih.upsert observation

theorem counted_shards (iteration : Fin METRIC_SHARDS → IterationOrder)
    (observations : List GatewayObservation) :
    Counted ((List.finRange METRIC_SHARDS).flatMap fun shard =>
      (iteration shard).arrange ((observeAll observations).shards shard).stats) observations := by
  have hsharded := sharded_observeAll observations
  have harranged : Sharded GatewayObservation.labels {} MetricSet.observe shardIndex
      (fun shard => (iteration shard).arrange ((observeAll observations).shards shard).stats)
      observations := fun shard => (hsharded shard).of_perm ((iteration shard).perm _)
  exact harranged.tallied (List.nodup_finRange _) List.mem_finRange

end Mizan.Metrics
