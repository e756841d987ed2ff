import Mathlib.Data.List.ProdSigma
import Mizan.Metrics.Registry
import Mizan.TextFormat.Samples

namespace Mizan.Metrics

open Gateway hiding MetricsRegistry
open Delimited TextFormat Table

-- `str::replace` of a pattern of one character
def replaceChar (pattern : Char) (replacement value : String) : String :=
  String.ofList (value.toList.flatMap fun character =>
    if character = pattern then replacement.toList else [character])

def escapeLabel (value : String) : String :=
  replaceChar '\n' "\\n" (replaceChar QUOTE "\\\"" (replaceChar '\\' "\\\\" value))

def prometheus (labels : GatewayLabels) : String :=
  "route=\"" ++ escapeLabel labels.route ++ "\",provider=\"" ++ escapeLabel labels.provider ++
    "\",model=\"" ++ escapeLabel labels.model ++ "\",daemon_node=\"" ++
    escapeLabel labels.daemonNode ++ "\",status=\"" ++ labels.status.toNat.repr ++ "\""

-- The line of one number of a label set.
def sampleLine (name : String) (labels : GatewayLabels) (value : String) : String :=
  name ++ "\x7b" ++ prometheus labels ++ "\x7d " ++ value ++ "\n"

def bucketLine (labels : GatewayLabels) (le : String) (count : UInt64) : String :=
  "mizan_gateway_latency_ms_bucket\x7b" ++ prometheus labels ++ ",le=\"" ++ le ++ "\"\x7d " ++
    count.toNat.repr ++ "\n"

-- `push_str` of the line of every entry
def pushAll (output name : String) (stats : List (GatewayLabels × MetricSet))
    (value : MetricSet → String) : String :=
  stats.foldl (fun output (labels, metrics) => output ++ sampleLine name labels (value metrics))
    output

def appendCounter (output name help : String) (stats : List (GatewayLabels × MetricSet))
    (value : MetricSet → UInt64) : String :=
  let output := output ++ ("# HELP " ++ name ++ " " ++ help ++ "\n")
  let output := output ++ ("# TYPE " ++ name ++ " counter\n")
  pushAll output name stats fun metrics => (value metrics).toNat.repr

def pushLatency (output : String) (labels : GatewayLabels) (metrics : MetricSet) : String :=
  let output := LATENCY_BUCKETS_MS.zipIdx.foldl (fun output (bucket, idx) => output ++
    bucketLine labels bucket.toNat.repr (metrics.latency.buckets.getD idx 0)) output
  let output := output ++ bucketLine labels "+Inf" metrics.latency.count
  let output := output ++
    sampleLine "mizan_gateway_latency_ms_sum" labels metrics.latency.sumMs.toNat.repr
  output ++ sampleLine "mizan_gateway_latency_ms_count" labels metrics.latency.count.toNat.repr

-- The text of the entries of a snapshot.
def renderStats (stats : List (GatewayLabels × MetricSet)) : String :=
  let output := ""
  let output := output ++
    "# HELP mizan_gateway_requests_total Gateway requests by route, provider, model, daemon node, and status.\n"
  let output := output ++ "# TYPE mizan_gateway_requests_total counter\n"
  let output := pushAll output "mizan_gateway_requests_total" stats fun metrics =>
    metrics.requests.toNat.repr
  let output := appendCounter output "mizan_gateway_prompt_tokens_total"
    "Prompt tokens observed by the gateway." stats (·.promptTokens)
  let output := appendCounter output "mizan_gateway_completion_tokens_total"
    "Completion tokens observed by the gateway." stats (·.completionTokens)
  let output := appendCounter output "mizan_gateway_tokens_total"
    "Total tokens observed by the gateway." stats (·.totalTokens)
  let output := output ++
    "# HELP mizan_gateway_credits_charged_total Microcredits charged by the gateway.\n"
  let output := output ++ "# TYPE mizan_gateway_credits_charged_total counter\n"
  let output := pushAll output "mizan_gateway_credits_charged_total" stats fun metrics =>
    metrics.credits.toInt.repr
  let output := output ++ "# HELP mizan_gateway_latency_ms Gateway latency in milliseconds.\n"
  let output := output ++ "# TYPE mizan_gateway_latency_ms histogram\n"
  stats.foldl (fun output (labels, metrics) => pushLatency output labels metrics) output

def MetricsRegistry.renderPrometheus (registry : MetricsRegistry)
    (iteration : Fin METRIC_SHARDS → IterationOrder) : String :=
  renderStats (registry.snapshot iteration)

end Mizan.Metrics
