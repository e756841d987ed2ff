import Mizan.Metrics.Series

namespace Mizan.Metrics

open Gateway hiding MetricsRegistry
open Delimited TextFormat Table

-- The labels that stand in the fields of a label block.
def labelsOf (fields : List (String × String)) : Option GatewayLabels := do
  let route ← fields.lookup "route"
  let provider ← fields.lookup "provider"
  let model ← fields.lookup "model"
  let daemonNode ← fields.lookup "daemon_node"
  let status ← (← fields.lookup "status").toNat?
  if status < UInt16.size then
    some { route, provider, model, daemonNode, status := UInt16.ofNat status }
  else none

-- What a reader of the format makes of the text between the braces.
def readLabels (block : String) : Option GatewayLabels := do
  let (fields, rest) ← parseLabels block.toList.length (block.toList ++ ['\x7d'])
  if rest = [] then labelsOf fields else none

section RoundTrip

theorem fields_named (labels : GatewayLabels) :
    ∀ label ∈ fields labels, isName label.1.toList := by
  simp only [fields, List.forall_mem_cons]
  decide

theorem labelsOf_fields (labels : GatewayLabels) : labelsOf (fields labels) = some labels := by
  have hstatus : UInt16.ofNat labels.status.toNat = labels.status := UInt16.ofNat_toNat
  have hlt : labels.status.toNat < UInt16.size := labels.status.toNat_lt
  simp [labelsOf, fields, List.lookup_cons, Nat.toNat?_repr, hstatus, hlt]

theorem readLabels_prometheus (labels : GatewayLabels) :
    readLabels (prometheus labels) = some labels := by
  have hparse := @parseLabels_labelsText (fields labels) (labelsText (fields labels)).length
    (fields_named labels) (by simp [fields]) (length_le_labelsText _) []
  rw [readLabels, prometheus_toList, hparse]
  exact labelsOf_fields labels

theorem fields_injective {labels labels' : GatewayLabels} (h : fields labels = fields labels') :
    labels = labels' := by
  have hsome := labelsOf_fields labels
  rw [h, labelsOf_fields labels'] at hsome
  exact (Option.some.inj hsome).symm

end RoundTrip

section Series

def Measure.key (measure : Measure) : String × List (String × String) :=
  (measure.name, measure.extra)

def MEASURES : List Measure := COUNTERS ++ LATENCY

-- No label beside the five, or the bound of a bucket.
def Extra (extra : List (String × String)) : Prop := extra = [] ∨ ∃ le, extra = [("le", le)]

theorem extra_measures {measure : Measure} (hmem : measure ∈ MEASURES) : Extra measure.extra := by
  have hcounter : ∀ name value, Extra (counter name value).extra := fun name value => .inl rfl
  have hbucket : ∀ le count, Extra (bucketMeasure le count).extra := fun le count => .inr ⟨le, rfl⟩
  simp only [MEASURES, COUNTERS, LATENCY, List.mem_append, List.mem_cons, List.not_mem_nil,
    or_false, List.mem_map] at hmem
  rcases hmem with (rfl | rfl | rfl | rfl | rfl) | ⟨bucket, -, rfl⟩ | rfl | rfl | rfl
  · exact hcounter _ _
  · exact hcounter _ _
  · exact hcounter _ _
  · exact hcounter _ _
  · exact .inl rfl
  · exact hbucket _ _
  · exact hbucket _ _
  · exact hcounter _ _
  · exact hcounter _ _

theorem nodup_measures : (MEASURES.map Measure.key).Nodup := by
  decide

theorem eq_of_perm_fields {labels labels' : GatewayLabels} {extra extra' : List (String × String)}
    (hextra : Extra extra) (hextra' : Extra extra')
    (h : (fields labels ++ extra).Perm (fields labels' ++ extra')) :
    labels = labels' ∧ extra = extra' := by
  have hfields : ∀ labels, (fields labels).map Prod.fst =
    ["route", "provider", "model", "daemon_node", "status"] := fun _ => rfl
  have hlength := h.length_eq
  have hkeys : extra.map Prod.fst = extra'.map Prod.fst ∧
      (["route", "provider", "model", "daemon_node", "status"] ++ extra'.map Prod.fst).Nodup := by
    rcases hextra with rfl | ⟨le, rfl⟩ <;> rcases hextra' with rfl | ⟨le', rfl⟩
    · exact ⟨rfl, by decide⟩
    · simp [fields] at hlength
    · simp [fields] at hlength
    · exact ⟨rfl, by simp⟩
  have heq := Table.eq_of_perm_of_keys h (by simp only [List.map_append, hfields, hkeys.1])
    (by simpa only [List.map_append, hfields] using hkeys.2)
  have hparts := List.append_inj heq rfl
  exact ⟨fields_injective hparts.1, hparts.2⟩

theorem eq_of_sameSeries {measure measure' : Measure} {entry entry' : GatewayLabels × MetricSet}
    (hmem : measure ∈ MEASURES) (hmem' : measure' ∈ MEASURES)
    (h : (measure.sample entry).SameSeries (measure'.sample entry')) :
    measure.key = measure'.key ∧ entry.1 = entry'.1 := by
  obtain ⟨hname, hlabels⟩ := h
  obtain ⟨hentry, hextra⟩ :=
    eq_of_perm_fields (extra_measures hmem) (extra_measures hmem') hlabels
  exact ⟨Prod.ext hname hextra, hentry⟩

-- What the samples are about, in their order.
def origins (stats : List (GatewayLabels × MetricSet)) :
    List (Measure × GatewayLabels × MetricSet) :=
  COUNTERS.flatMap (fun measure => stats.map fun entry => (measure, entry)) ++
    stats.flatMap fun entry => LATENCY.map fun measure => (measure, entry)

theorem samples_eq_map_origins (stats : List (GatewayLabels × MetricSet)) :
    samples stats = (origins stats).map fun (measure, entry) => measure.sample entry := by
  simp [samples, origins, List.map_flatMap, Function.comp_def]

theorem mem_origins {stats : List (GatewayLabels × MetricSet)} {measure : Measure}
    {entry : GatewayLabels × MetricSet} :
    (measure, entry) ∈ origins stats ↔ measure ∈ MEASURES ∧ entry ∈ stats := by
  simp [origins, MEASURES]
  tauto

theorem nodup_origins {stats : List (GatewayLabels × MetricSet)}
    (h : (stats.map Prod.fst).Nodup) :
    ((origins stats).map fun origin => (origin.1.key, origin.2.1)).Nodup := by
  have hmeasures := nodup_measures
  rw [MEASURES, List.map_append, List.nodup_append'] at hmeasures
  obtain ⟨hcounters, hlatency, hdisjoint⟩ := hmeasures
  have hfirst : ((COUNTERS.flatMap fun measure => stats.map fun entry => (measure, entry)).map
      fun origin => (origin.1.key, origin.2.1)) =
        (COUNTERS.map Measure.key).product (stats.map Prod.fst) := by
    simp [List.product, List.map_flatMap, List.flatMap_map, Function.comp_def]
  have hsecond : ((stats.flatMap fun entry => LATENCY.map fun measure => (measure, entry)).map
      fun origin => (origin.1.key, origin.2.1)) =
        ((stats.map Prod.fst).product (LATENCY.map Measure.key)).map Prod.swap := by
    simp [List.product, List.map_flatMap, List.flatMap_map, Function.comp_def]
  rw [origins, List.map_append, hfirst, hsecond, List.nodup_append']
  refine ⟨hcounters.product h, (h.product hlatency).map Prod.swap_injective, ?_⟩
  rintro ⟨key, labels⟩ hmem hmem'
  obtain ⟨⟨labels', key'⟩, hlatencies, heq⟩ := List.mem_map.mp hmem'
  cases heq
  exact hdisjoint (List.mem_product.mp hmem).1 (List.mem_product.mp hlatencies).2

theorem pairwise_samples {stats : List (GatewayLabels × MetricSet)}
    (h : (stats.map Prod.fst).Nodup) :
    (samples stats).Pairwise fun sample sample' => ¬sample.SameSeries sample' := by
  rw [samples_eq_map_origins, List.pairwise_map]
  have hnodup := nodup_origins h
  rw [List.Nodup, List.pairwise_map] at hnodup
  refine hnodup.imp_of_mem fun {origin origin'} hmem hmem' hne hsame => ?_
  obtain ⟨hkey, hlabels⟩ :=
    eq_of_sameSeries (mem_origins.mp hmem).1 (mem_origins.mp hmem').1 hsame
  exact hne (Prod.ext hkey hlabels)

end Series

theorem nodup_snapshot (iteration : Fin METRIC_SHARDS → IterationOrder)
    (observations : List GatewayObservation) :
    (((observeAll observations).snapshot iteration).map Prod.fst).Nodup :=
  ((counted_shards iteration observations).of_perm (perm_ascending _ _)).nodup

theorem exposition_faithful :
    (∀ labels, readLabels (prometheus labels) = some labels) ∧
    (∀ measure ∈ MEASURES, ∀ measure' ∈ MEASURES, ∀ entry entry',
      (measure.sample entry).SameSeries (measure'.sample entry') → entry.1 = entry'.1) ∧
    ∀ observations iteration,
      parseText ((observeAll observations).renderPrometheus iteration).toList =
        some (samples ((observeAll observations).snapshot iteration)) ∧
      (samples ((observeAll observations).snapshot iteration)).Pairwise
        fun sample sample' => ¬sample.SameSeries sample' := by
  refine ⟨readLabels_prometheus, fun measure hmem measure' hmem' entry entry' hsame =>
    (eq_of_sameSeries hmem hmem' hsame).2, fun observations iteration => ?_⟩
  have hnodup := nodup_snapshot iteration observations
  exact ⟨(reads_renderStats _).parseText, pairwise_samples hnodup⟩

end Mizan.Metrics
