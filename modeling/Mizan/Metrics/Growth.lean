import Mizan.Gateway.Accounting
import Mizan.Metrics.Aggregation
import Mizan.Metrics.Distinct
import Mizan.RunningTotal.Wrapping

namespace Mizan.Metrics

open Billing
open Gateway hiding MetricsRegistry
open Table TextFormat RunningTotal

-- What the registry has under a label set with these observations.
def tallied (observed : List GatewayObservation) : MetricSet := observed.foldl MetricSet.observe {}

section Totals

def tokens (value : GatewayObservation → UInt64) (observation : GatewayObservation) : Int :=
  (value observation).toNat

def creditsAdded (observation : GatewayObservation) : Int :=
  (creditsCharged observation.status observation.usage observation.routePrice).toInt

def withinBound (bound : UInt64) (observation : GatewayObservation) : Int :=
  if observation.latencyMs ≤ bound then 1 else 0

theorem total_tokens (value : GatewayObservation → UInt64) (observed : List GatewayObservation) :
    total (tokens value) observed = sumOf value observed := by
  induction observed with
  | nil => rfl
  | cons observation observed ih =>
      simp only [total, sumOf, tokens, List.map_cons, List.sum_cons] at ih ⊢
      omega

theorem total_within (bound : UInt64) (observed : List GatewayObservation) :
    total (withinBound bound) observed = within bound observed := by
  induction observed with
  | nil => rfl
  | cons observation observed ih =>
      by_cases hle : observation.latencyMs ≤ bound
      · simp [total, within, withinBound, hle] at ih ⊢
        omega
      · simp [total, within, withinBound, hle] at ih ⊢
        omega

end Totals

section Measures

theorem wraps_of_ofNat {count : List GatewayObservation → Nat} {added : GatewayObservation → Int}
    {measured : MetricSet → UInt64} (hadded : ∀ event, 0 ≤ added event)
    (hlt : ∀ event, added event < (UInt64.size : Int))
    (hcount : ∀ observed, total added observed = count observed)
    (hvalue : ∀ observed, measured (tallied observed) = UInt64.ofNat (count observed)) :
    Wraps (fun observed => ((measured (tallied observed)).toNat : Int)) added UInt64.size := by
  apply wraps_of_emod hadded hlt
  intro observed
  rw [hvalue, hcount, UInt64.toNat_ofNat']
  rfl

theorem wraps_tokens {value : GatewayObservation → UInt64} {measured : MetricSet → UInt64}
    (hvalue : ∀ observed, measured (tallied observed) = UInt64.ofNat (sumOf value observed)) :
    Wraps (fun observed => ((measured (tallied observed)).toNat : Int)) (tokens value)
      UInt64.size := by
  refine wraps_of_ofNat (fun observation => Int.natCast_nonneg _) (fun observation => ?_)
    (total_tokens value) hvalue
  exact Int.ofNat_lt.mpr (value observation).toNat_lt

theorem wraps_requests : Wraps (fun observed => ((tallied observed).requests.toNat : Int))
    (tokens fun _ => 1) UInt64.size :=
  wraps_tokens fun observed => by rw [tallied, (aggregates_foldl observed).requests, sumOf_one]

theorem wraps_promptTokens : Wraps (fun observed => ((tallied observed).promptTokens.toNat : Int))
    (tokens (·.usage.promptTokens)) UInt64.size :=
  wraps_tokens fun observed => (aggregates_foldl observed).promptTokens

theorem wraps_completionTokens :
    Wraps (fun observed => ((tallied observed).completionTokens.toNat : Int))
      (tokens (·.usage.completionTokens)) UInt64.size :=
  wraps_tokens fun observed => (aggregates_foldl observed).completionTokens

theorem wraps_totalTokens : Wraps (fun observed => ((tallied observed).totalTokens.toNat : Int))
    (tokens (·.usage.totalTokens)) UInt64.size :=
  wraps_tokens fun observed => (aggregates_foldl observed).totalTokens

theorem wraps_count : Wraps (fun observed => ((tallied observed).latency.count.toNat : Int))
    (tokens fun _ => 1) UInt64.size :=
  @wraps_tokens (fun _ => 1) (·.latency.count) fun observed => by
    rw [tallied, (aggregates_foldl observed).count, sumOf_one]

theorem wraps_sumMs : Wraps (fun observed => ((tallied observed).latency.sumMs.toNat : Int))
    (tokens (·.latencyMs)) UInt64.size :=
  @wraps_tokens (·.latencyMs) (·.latency.sumMs) fun observed => (aggregates_foldl observed).sumMs

theorem creditsCharged_nonneg (status : UInt16) (usage : TokenUsage) (routePrice : RoutePrice) :
    0 ≤ (creditsCharged status usage routePrice).toInt := by
  unfold creditsCharged
  split
  · by_cases hle : (usageCharge usage routePrice).total ≤ 0
    · have hmax : max (usageCharge usage routePrice).total 0 = 0 := if_pos hle
      rw [hmax]
      decide
    · have hmax : max (usageCharge usage routePrice).total 0 =
        (usageCharge usage routePrice).total :=
        if_neg hle
      rw [hmax]
      rw [Int64.le_iff_toInt_le, Int64.toInt_zero] at hle
      omega
  · decide

theorem wraps_credits : Wraps (fun observed => (tallied observed).credits.toInt) creditsAdded
    (2 ^ 63 : Nat) := by
  apply wraps_of_bmod
  · exact fun observation => creditsCharged_nonneg _ _ _
  · exact fun observation =>
      (creditsCharged observation.status observation.usage observation.routePrice).toInt_lt
  · intro observed
    rw [tallied, (aggregates_foldl observed).credits, Int64.toInt_ofInt]
    rfl

theorem wraps_bucket {bucket : UInt64} {idx : Nat}
    (hmem : (bucket, idx) ∈ LATENCY_BUCKETS_MS.zipIdx) :
    Wraps (fun observed => (((tallied observed).latency.buckets.getD idx 0).toNat : Int))
      (withinBound bucket) UInt64.size := by
  have hbucket : LATENCY_BUCKETS_MS[idx]? = some bucket := List.mem_zipIdx_iff_getElem?.mp hmem
  refine @wraps_of_ofNat (within bucket) _ (fun metrics => metrics.latency.buckets.getD idx 0)
    (fun observation => ?_) (fun observation => ?_) (total_within bucket) fun observed => ?_
  · unfold withinBound
    split_ifs <;> decide
  · unfold withinBound
    split_ifs <;> decide
  · rw [tallied, (aggregates_foldl observed).buckets, List.getD_eq_getElem?_getD,
      List.getElem?_map, hbucket]
    rfl

end Measures

-- The totals that every counter of a label set can show.
structure Fits (observed : List GatewayObservation) : Prop where
  requests : observed.length < UInt64.size
  promptTokens : sumOf (·.usage.promptTokens) observed < UInt64.size
  completionTokens : sumOf (·.usage.completionTokens) observed < UInt64.size
  totalTokens : sumOf (·.usage.totalTokens) observed < UInt64.size
  credits : creditSum observed < 2 ^ 63
  latency : sumOf (·.latencyMs) observed < UInt64.size

-- The observations that have been made so far render this sample.
def Renders (observations : List GatewayObservation) (sample : Sample) : Prop :=
  ∃ iteration read,
    parseText ((observeAll observations).renderPrometheus iteration).toList = some read ∧
    sample ∈ read

-- No value of a series is smaller than a value rendered for the series before.
def OnlyGrows (observations : List GatewayObservation) : Prop :=
  ∀ earlier later, earlier <+: later → later <+: observations →
    ∀ sample sample', Renders earlier sample → Renders later sample' →
      sample.SameSeries sample' → sample.value ≤ sample'.value

section Rendered

variable {observations : List GatewayObservation} {sample : Sample}

theorem renders_iff : Renders observations sample ↔
    ∃ measure ∈ MEASURES, ∃ labels, (∃ observation ∈ observations, observation.labels = labels) ∧
      sample = measure.sample (labels, tallied (withLabels labels observations)) := by
  have hread : ∀ iteration,
      parseText ((observeAll observations).renderPrometheus iteration).toList =
        some (samples ((observeAll observations).snapshot iteration)) := fun iteration =>
    (reads_renderStats _).parseText
  have hsnapshot : ∀ iteration,
      Counted ((observeAll observations).snapshot iteration) observations := fun iteration =>
    (counted_shards iteration observations).of_perm (perm_ascending _ _)
  constructor
  · rintro ⟨iteration, read, hparse, hmem⟩
    rw [hread] at hparse
    rw [← Option.some.inj hparse, samples_eq_map_origins] at hmem
    obtain ⟨⟨measure, labels, metrics⟩, horigin, rfl⟩ := List.mem_map.mp hmem
    obtain ⟨hmeasure, hentry⟩ := mem_origins.mp horigin
    obtain ⟨hoccurs, rfl⟩ := ((hsnapshot iteration).mem_iff labels metrics).mp hentry
    exact ⟨measure, hmeasure, labels, hoccurs, rfl⟩
  · rintro ⟨measure, hmeasure, labels, hoccurs, rfl⟩
    let iteration : Fin METRIC_SHARDS → IterationOrder := fun _ => ⟨id, fun _ => .refl _⟩
    refine ⟨iteration, _, hread iteration, ?_⟩
    rw [samples_eq_map_origins]
    have hentry := ((hsnapshot iteration).mem_iff labels _).mpr ⟨hoccurs, rfl⟩
    exact List.mem_map.mpr ⟨_, mem_origins.mpr ⟨hmeasure, hentry⟩, rfl⟩

theorem withLabels_isPrefix {earlier later : List GatewayObservation} (h : earlier <+: later)
    (labels : GatewayLabels) : withLabels labels earlier <+: withLabels labels later := by
  obtain ⟨rest, rfl⟩ := h
  exact ⟨withLabels labels rest, (List.filter_append ..).symm⟩

-- Every number is a total that wraps, of what fits if the totals of the label set fit.
theorem exists_wraps {measure : Measure} (hmem : measure ∈ MEASURES) :
    ∃ added limit, Wraps (fun observed => measure.value (tallied observed)) added limit ∧
      ∀ observed, Fits observed → total added observed < limit := by
  have hlength : ∀ observed, Fits observed → total (tokens fun _ => 1) observed < UInt64.size := by
    intro observed hfits
    have hrequests := hfits.requests
    rw [total_tokens, sumOf_one]
    omega
  have hsum : ∀ {value observed}, sumOf value observed < UInt64.size →
      total (tokens value) observed < UInt64.size := by
    intro value observed hlt
    rw [total_tokens]
    omega
  simp only [MEASURES, COUNTERS, LATENCY, List.mem_append, List.mem_cons, List.not_mem_nil,
    or_false, List.mem_map] at hmem
  rcases hmem with (rfl | rfl | rfl | rfl | rfl) | ⟨⟨bucket, idx⟩, hbucket, rfl⟩ | rfl | rfl | rfl
  · exact ⟨_, _, wraps_requests, hlength⟩
  · exact ⟨_, _, wraps_promptTokens, fun _ hfits => hsum hfits.promptTokens⟩
  · exact ⟨_, _, wraps_completionTokens, fun _ hfits => hsum hfits.completionTokens⟩
  · exact ⟨_, _, wraps_totalTokens, fun _ hfits => hsum hfits.totalTokens⟩
  · exact ⟨_, _, wraps_credits, fun _ hfits => hfits.credits⟩
  · refine ⟨_, _, wraps_bucket hbucket, fun observed hfits => ?_⟩
    have hrequests := hfits.requests
    have hle := @within_le_length observed bucket
    rw [total_within]
    omega
  · exact ⟨_, _, wraps_count, hlength⟩
  · exact ⟨_, _, wraps_sumMs, fun _ hfits => hsum hfits.latency⟩
  · exact ⟨_, _, wraps_count, hlength⟩

theorem eq_of_key {measure measure' : Measure} (hmem : measure ∈ MEASURES)
    (hmem' : measure' ∈ MEASURES) (hkey : measure.key = measure'.key) : measure = measure' :=
  List.inj_on_of_nodup_map nodup_measures hmem hmem' hkey

theorem onlyGrows_of_fits (h : ∀ labels, Fits (withLabels labels observations)) :
    OnlyGrows observations := by
  intro earlier later hearlier hlater sample sample' hrenders hrenders' hsame
  obtain ⟨measure, hmem, labels, -, rfl⟩ := renders_iff.mp hrenders
  obtain ⟨measure', hmem', labels', -, rfl⟩ := renders_iff.mp hrenders'
  obtain ⟨hkey, hlabels⟩ := eq_of_sameSeries hmem hmem' hsame
  have hmeasure := eq_of_key hmem hmem' hkey
  subst hmeasure
  simp only at hlabels
  subst hlabels
  obtain ⟨added, limit, hwraps, hfits⟩ := exists_wraps hmem
  have hall := hfits _ (h labels)
  have hle := hwraps.total_mono (withLabels_isPrefix hlater labels)
  exact hwraps.value_mono (withLabels_isPrefix hearlier labels) (by omega)

theorem onlyGrows_of_append {observation : GatewayObservation}
    (h : OnlyGrows (observations ++ [observation])) : OnlyGrows observations :=
  fun earlier later hearlier hlater =>
    h earlier later hearlier (hlater.trans (List.prefix_append _ _))

-- A total that fitted still fits after an observation with which no series has fallen.
theorem total_lt_of_onlyGrows {observation : GatewayObservation}
    (h : OnlyGrows (observations ++ [observation])) {measure : Measure} (hmem : measure ∈ MEASURES)
    {added : GatewayObservation → Int} {limit : Int}
    (hwraps : Wraps (fun observed => measure.value (tallied observed)) added limit)
    (hlimit : total added (withLabels observation.labels observations) < limit) :
    total added (withLabels observation.labels observations ++ [observation]) < limit := by
  have hlater : withLabels observation.labels (observations ++ [observation]) =
      withLabels observation.labels observations ++ [observation] := by
    simp [withLabels]
  by_cases hoccurs : ∃ other ∈ observations, other.labels = observation.labels
  · have hrendered : Renders observations (measure.sample (observation.labels,
        tallied (withLabels observation.labels observations))) :=
      renders_iff.mpr ⟨measure, hmem, observation.labels, hoccurs, rfl⟩
    have hrendered' : Renders (observations ++ [observation]) (measure.sample (observation.labels,
        tallied (withLabels observation.labels observations ++ [observation]))) := by
      rw [← hlater]
      exact renders_iff.mpr ⟨measure, hmem, observation.labels, ⟨observation, by simp, rfl⟩, rfl⟩
    have hle := h _ _ (List.prefix_append _ _) (List.prefix_refl _) _ _ hrendered hrendered'
      ⟨rfl, .refl _⟩
    exact hwraps.total_lt_append hlimit hle
  · have hnone : withLabels observation.labels observations = [] := by
      rw [withLabels, List.filter_eq_nil_iff]
      intro other hother hlabels
      exact hoccurs ⟨other, hother, of_decide_eq_true hlabels⟩
    have hone := hwraps.added_lt observation
    rw [hnone, total_append, total_nil]
    omega

theorem fits_nil : Fits [] := by
  constructor <;> decide

theorem Fits.append {observation : GatewayObservation}
    (h : OnlyGrows (observations ++ [observation]))
    (hfits : Fits (withLabels observation.labels observations)) :
    Fits (withLabels observation.labels observations ++ [observation]) := by
  have hsum : ∀ (value : GatewayObservation → UInt64) observed,
      total (tokens value) observed < UInt64.size ↔ sumOf value observed < UInt64.size := by
    intro value observed
    rw [total_tokens]
    omega
  -- What a counter shows of a sum that fitted still fits.
  have hcounter : ∀ {name} {shown : MetricSet → UInt64} {value : GatewayObservation → UInt64},
      counter name shown ∈ MEASURES →
      Wraps (fun observed => ((shown (tallied observed)).toNat : Int)) (tokens value) UInt64.size →
      sumOf value (withLabels observation.labels observations) < UInt64.size →
      sumOf value (withLabels observation.labels observations ++ [observation]) < UInt64.size := by
    intro name shown value hmem hwraps hlt
    exact (hsum _ _).mp (total_lt_of_onlyGrows h hmem hwraps ((hsum _ _).mpr hlt))
  have hrequests := @hcounter "mizan_gateway_requests_total" (·.requests) (fun _ => 1)
    (by simp [MEASURES, COUNTERS]) wraps_requests (by rw [sumOf_one]; exact hfits.requests)
  have hcredits := @total_lt_of_onlyGrows _ _ h creditsCounter (by simp [MEASURES, COUNTERS]) _ _
    wraps_credits hfits.credits
  constructor
  · rwa [sumOf_one] at hrequests
  · exact @hcounter "mizan_gateway_prompt_tokens_total" (·.promptTokens) _
      (by simp [MEASURES, COUNTERS]) wraps_promptTokens hfits.promptTokens
  · exact @hcounter "mizan_gateway_completion_tokens_total" (·.completionTokens) _
      (by simp [MEASURES, COUNTERS]) wraps_completionTokens hfits.completionTokens
  · exact @hcounter "mizan_gateway_tokens_total" (·.totalTokens) _
      (by simp [MEASURES, COUNTERS]) wraps_totalTokens hfits.totalTokens
  · exact hcredits
  · exact @hcounter "mizan_gateway_latency_ms_sum" (·.latency.sumMs) _
      (by simp [MEASURES, LATENCY]) wraps_sumMs hfits.latency

theorem fits_of_onlyGrows (h : OnlyGrows observations) (labels : GatewayLabels) :
    Fits (withLabels labels observations) := by
  induction observations using List.reverseRecOn with
  | nil => exact fits_nil
  | append_singleton observations observation ih =>
      have hfits := ih (onlyGrows_of_append h)
      by_cases hlabels : observation.labels = labels
      · subst hlabels
        have hlater : withLabels observation.labels (observations ++ [observation]) =
            withLabels observation.labels observations ++ [observation] := by
          simp [withLabels]
        rw [hlater]
        exact hfits.append h
      · have hsame : withLabels labels (observations ++ [observation]) =
            withLabels labels observations := by
          simp [withLabels, hlabels]
        rw [hsame]
        exact hfits

theorem counters_grow_iff (observations : List GatewayObservation) :
    OnlyGrows observations ↔ ∀ labels, Fits (withLabels labels observations) :=
  ⟨fits_of_onlyGrows, onlyGrows_of_fits⟩

end Rendered

def chatRequest : GatewayRequest :=
  { identity := ⟨⟨7⟩, ⟨3⟩⟩, xRequestId := some ⟨1⟩, xTraceId := none
    payload := { model := "gpt", messages := [{ role := "user", content := "hi" }] }
    spec := CHAT_COMPLETIONS_SPEC }

-- An upstream that reports the largest number of prompt tokens, which the billing refuses.
def overReported : TokenUsage :=
  { promptTokens := 18446744073709551615, completionTokens := 0
    totalTokens := 18446744073709551615, estimated := false }

def overReportingUpstream : HandlerChoice :=
  { route := .ok
      { id := ⟨5⟩, providerConnectionId := ⟨4⟩, upstreamModel := "gpt-4o", providerType := "openai"
        maxTokens := none, inputPricePer1mTokens := 0, outputPricePer1mTokens := 0 }
    response := .ok
      { provider := "openai", model := "gpt-4o", content := "hello", usage := some overReported }
    sql := [{}, {}] }

def overReportedObservation : GatewayObservation :=
  { route := "gpt", provider := "openai", model := "gpt-4o", daemonNode := none, status := 400
    usage := overReported, latencyMs := 0, routePrice := ⟨0, 0⟩ }

-- The gateway serves two such requests, and the prompt tokens fall by one.
theorem counters_fall : ∃ config outcome first second,
    (chatCompletionsImpl config chatRequest).play (RequestEffects.handle .sqlite)
      (List.replicate 12 overReportingUpstream) (.start {}) = some (outcome, first) ∧
    (chatCompletionsImpl config chatRequest).play (RequestEffects.handle .sqlite)
      (List.replicate 12 overReportingUpstream) first = some (outcome, second) ∧
    first.metrics = observeUnsharded [overReportedObservation] ∧
    second.metrics = observeUnsharded [overReportedObservation, overReportedObservation] ∧
    ¬OnlyGrows [overReportedObservation, overReportedObservation] := by
  refine ⟨{ limitLeaseSeconds := 30, daemonStaleSeconds := 60 }, _, _, _, rfl, rfl, rfl, rfl, ?_⟩
  intro hgrows
  have hfits := fits_of_onlyGrows hgrows overReportedObservation.labels
  exact absurd hfits.promptTokens (by decide)

end Mizan.Metrics
