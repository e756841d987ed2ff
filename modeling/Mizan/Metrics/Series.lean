import Mizan.Metrics.Exposition

namespace Mizan.Metrics

open Gateway hiding MetricsRegistry
open Delimited TextFormat Table

def fields (labels : GatewayLabels) : List (String × String) :=
  [("route", labels.route), ("provider", labels.provider), ("model", labels.model),
    ("daemon_node", labels.daemonNode), ("status", labels.status.toNat.repr)]

-- A number that is rendered for every label set.
structure Measure where
  name : String
  extra : List (String × String) := []
  value : MetricSet → Int

def Measure.sample (measure : Measure) (entry : GatewayLabels × MetricSet) : Sample :=
  { name := measure.name
    labels := fields entry.1 ++ measure.extra
    value := measure.value entry.2 }

def counter (name : String) (value : MetricSet → UInt64) : Measure :=
  { name, value := fun metrics => (value metrics).toNat }

def creditsCounter : Measure :=
  { name := "mizan_gateway_credits_charged_total", value := fun metrics => metrics.credits.toInt }

def bucketMeasure (le : String) (count : MetricSet → UInt64) : Measure :=
  { counter "mizan_gateway_latency_ms_bucket" count with extra := [("le", le)] }

def COUNTERS : List Measure :=
  [counter "mizan_gateway_requests_total" (·.requests),
    counter "mizan_gateway_prompt_tokens_total" (·.promptTokens),
    counter "mizan_gateway_completion_tokens_total" (·.completionTokens),
    counter "mizan_gateway_tokens_total" (·.totalTokens), creditsCounter]

def LATENCY : List Measure :=
  (LATENCY_BUCKETS_MS.zipIdx.map fun (bucket, idx) =>
    bucketMeasure bucket.toNat.repr (·.latency.buckets.getD idx 0)) ++
    [bucketMeasure "+Inf" (·.latency.count),
      counter "mizan_gateway_latency_ms_sum" (·.latency.sumMs),
      counter "mizan_gateway_latency_ms_count" (·.latency.count)]

-- The samples of a snapshot, in the order in which they are rendered.
def samples (stats : List (GatewayLabels × MetricSet)) : List Sample :=
  COUNTERS.flatMap (fun measure => stats.map measure.sample) ++
    stats.flatMap fun entry => LATENCY.map fun measure => measure.sample entry

section Escapes

theorem escapeLabel_toList (value : String) :
    (escapeLabel value).toList = LABEL_ESCAPES.escape value.toList := by
  have hcode : LABEL_ESCAPES.encode = escapeLetter := rfl
  simp only [escapeLabel, replaceChar, String.toList_ofList, List.flatMap_assoc,
    EscapeCode.escape]
  congr 1
  funext character
  rw [EscapeCode.escapeOne, hcode]
  by_cases hmark : character = '\\'
  · subst hmark
    rfl
  by_cases hquote : character = QUOTE
  · subst hquote
    rfl
  by_cases hline : character = '\n'
  · subst hline
    rfl
  · simp [escapeLetter, hmark, hquote, hline]

theorem escape_repr (n : Nat) : LABEL_ESCAPES.escape n.repr.toList = n.repr.toList := by
  apply EscapeCode.escape_of_free
  intro character hmem
  rw [Nat.toList_repr] at hmem
  have hdigit := Nat.isDigit_of_mem_toDigits (by decide) (by decide) hmem
  have hne : ∀ other : Char, other.isDigit = false → character ≠ other := by
    rintro other hother rfl
    rw [hdigit] at hother
    exact absurd hother (by decide)
  show escapeLetter character = none
  rw [escapeLetter, if_neg (hne _ (by decide)), if_neg (hne _ (by decide)),
    if_neg (hne _ (by decide))]

theorem prometheus_toList (labels : GatewayLabels) :
    (prometheus labels).toList = labelsText (fields labels) := by
  have hroute : "route=\"".toList = "route".toList ++ ['=', QUOTE] := rfl
  have hprovider : "\",provider=\"".toList = [QUOTE, ','] ++ "provider".toList ++
    ['=', QUOTE] := rfl
  have hmodel : "\",model=\"".toList = [QUOTE, ','] ++ "model".toList ++ ['=', QUOTE] := rfl
  have hnode : "\",daemon_node=\"".toList =
    [QUOTE, ','] ++ "daemon_node".toList ++ ['=', QUOTE] := rfl
  have hstatus : "\",status=\"".toList = [QUOTE, ','] ++ "status".toList ++ ['=', QUOTE] := rfl
  have hend : "\"".toList = [QUOTE] := rfl
  unfold prometheus
  simp only [String.toList_append, escapeLabel_toList, fields, labelsText, labelText, List.map_cons,
    List.map_nil, List.intercalate_cons_cons, List.intercalate_singleton, escape_repr, hroute,
      hprovider, hmodel, hnode, hstatus, hend, List.append_assoc,
    List.cons_append, List.nil_append]

-- The labels with one more, which is written after them.
theorem labelsText_concat {labels : List (String × String)} (hne : labels ≠ [])
    (label : String × String) :
    labelsText (labels ++ [label]) = labelsText labels ++ ',' :: labelText label := by
  induction labels with
  | nil => exact absurd rfl hne
  | cons first labels ih =>
      cases labels with
      | nil => simp [labelsText, List.intercalate_cons_cons]
      | cons next labels =>
          have ih := ih (List.cons_ne_nil next labels)
          simp only [labelsText, List.cons_append, List.map_cons,
            List.intercalate_cons_cons] at ih ⊢
          rw [ih]
          simp

end Escapes

section Text

-- Appended to the output, the text adds its samples to those before it.
theorem reads_append {output text : String} {before added : List Sample}
    (houtput : Reads output.toList before) (htext : Reads text.toList added) :
    Reads (output ++ text).toList (before ++ added) := by
  rw [String.toList_append]
  exact houtput.append htext

theorem reads_foldl {α : Type} {output : String} {before : List Sample} {entries : List α}
    {push : String → α → String} {samplesOf : α → List Sample}
    (houtput : Reads output.toList before)
    (hpush : ∀ output before entry, Reads output.toList before →
      Reads (push output entry).toList (before ++ samplesOf entry)) :
    Reads (entries.foldl push output).toList (before ++ entries.flatMap samplesOf) := by
  induction entries generalizing output before with
  | nil =>
      rw [List.foldl_nil, List.flatMap_nil, List.append_nil]
      exact houtput
  | cons entry entries ih =>
      rw [List.foldl_cons, List.flatMap_cons, ← List.append_assoc]
      exact ih (hpush output before entry houtput)

def isCommentLine (line : List Char) : Bool :=
  isComment line.dropLast && line.getLast? = some '\n' && !line.dropLast.contains '\n'

theorem reads_comment_line {output line : String} {before : List Sample}
    (houtput : Reads output.toList before) (hline : isCommentLine line.toList) :
    Reads (output ++ line).toList before := by
  simp only [isCommentLine, Bool.and_eq_true, decide_eq_true_eq, Bool.not_eq_true',
    List.contains_eq_mem, decide_eq_false_iff_not] at hline
  obtain ⟨⟨hcomment, hlast⟩, hfree⟩ := hline
  have htext : line.toList.dropLast ++ ['\n'] = line.toList :=
    List.dropLast_append_getLast? '\n' hlast
  have hadded := reads_append houtput (htext ▸ reads_comment hcomment hfree)
  rwa [List.append_nil] at hadded

theorem named_sample {measure : Measure} (hname : isName measure.name.toList)
    (hextra : ∀ label ∈ measure.extra, isName label.1.toList) (entry : GatewayLabels × MetricSet) :
    (measure.sample entry).Named :=
  { name := hname
    labels := by
      intro label hmem
      have hfields : ∀ label ∈ fields entry.1, isName label.1.toList := by
        simp only [fields, List.forall_mem_cons]
        decide
      exact (List.mem_append.mp hmem).elim (hfields label) (hextra label)
    labels_ne := by simp [Measure.sample, fields] }

theorem reads_sampleLine {measure : Measure} (hname : isName measure.name.toList)
    (hextra : measure.extra = []) (entry : GatewayLabels × MetricSet) :
    Reads (sampleLine measure.name entry.1 (measure.value entry.2).repr).toList
      [measure.sample entry] := by
  have hopen : "\x7b".toList = ['\x7b'] := rfl
  have hclose : "\x7d ".toList = ['\x7d', ' '] := rfl
  have hend : "\n".toList = ['\n'] := rfl
  have htext : (sampleLine measure.name entry.1 (measure.value entry.2).repr).toList =
      sampleText (measure.sample entry) ++ ['\n'] := by
    unfold sampleLine
    simp only [String.toList_append, prometheus_toList, sampleText, Measure.sample, hextra, hopen,
      hclose, hend, List.append_nil, List.append_assoc, List.cons_append, List.nil_append]
  rw [htext]
  exact reads_sample (named_sample hname (by simp [hextra]) entry)

theorem reads_bucketLine {le : String} (hle : LABEL_ESCAPES.escape le.toList = le.toList)
    (count : MetricSet → UInt64) (entry : GatewayLabels × MetricSet) :
    Reads (bucketLine entry.1 le (count entry.2)).toList
      [(bucketMeasure le count).sample entry] := by
  have hopen : "mizan_gateway_latency_ms_bucket\x7b".toList =
    "mizan_gateway_latency_ms_bucket".toList ++ ['\x7b'] := rfl
  have hlabel : ",le=\"".toList = ',' :: ("le".toList ++ ['=', QUOTE]) := rfl
  have hclose : "\"\x7d ".toList = [QUOTE, '\x7d', ' '] := rfl
  have hend : "\n".toList = ['\n'] := rfl
  have hlabels : labelsText (fields entry.1 ++ [("le", le)]) = labelsText (fields entry.1) ++
      ',' :: ("le".toList ++ '=' :: QUOTE :: (le.toList ++ [QUOTE])) := by
    rw [labelsText_concat (by simp [fields]), labelText, hle]
  have htext : (bucketLine entry.1 le (count entry.2)).toList =
      sampleText ((bucketMeasure le count).sample entry) ++ ['\n'] := by
    unfold bucketLine
    simp only [String.toList_append, prometheus_toList, sampleText, Measure.sample, bucketMeasure,
      hlabels, hopen, hlabel, hclose, hend, List.append_assoc, List.cons_append, List.nil_append]
    rfl
  have hname : isName "mizan_gateway_latency_ms_bucket".toList := by decide
  have hextra : isName "le".toList := by decide
  rw [htext]
  refine reads_sample (@named_sample (bucketMeasure le count) hname ?_ entry)
  simpa only [bucketMeasure, List.forall_mem_singleton] using hextra

theorem reads_pushAll {output : String} {before : List Sample} {measure : Measure}
    {stats : List (GatewayLabels × MetricSet)} (houtput : Reads output.toList before)
    (hname : isName measure.name.toList) (hextra : measure.extra = []) :
    Reads (pushAll output measure.name stats fun metrics => (measure.value metrics).repr).toList
      (before ++ stats.map measure.sample) := by
  rw [← List.flatMap_singleton' (stats.map measure.sample), List.flatMap_map]
  exact reads_foldl houtput fun output before entry houtput =>
    reads_append houtput (reads_sampleLine hname hextra entry)

theorem reads_appendCounter {output : String} {before : List Sample} {name help : String}
    {stats : List (GatewayLabels × MetricSet)} {value : MetricSet → UInt64}
    (houtput : Reads output.toList before) (hname : isName name.toList)
    (hhelp : isCommentLine ("# HELP " ++ name ++ " " ++ help ++ "\n").toList)
    (htype : isCommentLine ("# TYPE " ++ name ++ " counter\n").toList) :
    Reads (appendCounter output name help stats value).toList
      (before ++ stats.map (counter name value).sample) := by
  have houtput := reads_comment_line (reads_comment_line houtput hhelp) htype
  exact @reads_pushAll _ _ (counter name value) stats houtput hname rfl

theorem reads_pushLatency {output : String} {before : List Sample}
    (entry : GatewayLabels × MetricSet) (houtput : Reads output.toList before) :
    Reads (pushLatency output entry.1 entry.2).toList
      (before ++ LATENCY.map fun measure => measure.sample entry) := by
  have hbuckets := @reads_foldl _ output before LATENCY_BUCKETS_MS.zipIdx
    (fun output (bucket, idx) => output ++
      bucketLine entry.1 bucket.toNat.repr (entry.2.latency.buckets.getD idx 0))
    (fun (bucket, idx) => [(bucketMeasure bucket.toNat.repr fun metrics =>
      metrics.latency.buckets.getD idx 0).sample entry]) houtput
    fun output before bucket houtput => reads_append houtput
      (reads_bucketLine (escape_repr _)
        (fun metrics => metrics.latency.buckets.getD bucket.2 0) entry)
  have hinf := reads_append hbuckets
    (@reads_bucketLine "+Inf" (by decide) (fun metrics => metrics.latency.count) entry)
  have hsum := reads_append hinf
    (@reads_sampleLine (counter "mizan_gateway_latency_ms_sum" (·.latency.sumMs))
      (by decide) rfl entry)
  have hcount := reads_append hsum (@reads_sampleLine
    (counter "mizan_gateway_latency_ms_count" (·.latency.count)) (by decide) rfl entry)
  simp only [List.append_assoc] at hcount
  exact hcount

theorem reads_renderStats (stats : List (GatewayLabels × MetricSet)) :
    Reads (renderStats stats).toList (samples stats) := by
  have hsamples : samples stats =
      [] ++ stats.map (counter "mizan_gateway_requests_total" (·.requests)).sample ++
        stats.map (counter "mizan_gateway_prompt_tokens_total" (·.promptTokens)).sample ++
        stats.map (counter "mizan_gateway_completion_tokens_total" (·.completionTokens)).sample ++
        stats.map (counter "mizan_gateway_tokens_total" (·.totalTokens)).sample ++
        stats.map creditsCounter.sample ++
        stats.flatMap fun entry => LATENCY.map fun measure => measure.sample entry := by
    simp [samples, COUNTERS]
  rw [hsamples]
  unfold renderStats
  refine reads_foldl ?_ fun _ _ entry houtput => reads_pushLatency entry houtput
  refine reads_comment_line (reads_comment_line ?_ (by decide +kernel)) (by decide +kernel)
  refine @reads_pushAll _ _ creditsCounter stats ?_ (by decide) rfl
  refine reads_comment_line (reads_comment_line ?_ (by decide +kernel)) (by decide +kernel)
  refine reads_appendCounter ?_ (by decide) (by decide +kernel) (by decide +kernel)
  refine reads_appendCounter ?_ (by decide) (by decide +kernel) (by decide +kernel)
  refine reads_appendCounter ?_ (by decide) (by decide +kernel) (by decide +kernel)
  refine @reads_pushAll _ _ (counter "mizan_gateway_requests_total" (·.requests)) stats ?_
    (by decide) rfl
  refine reads_comment_line (reads_comment_line ?_ (by decide +kernel)) (by decide +kernel)
  exact reads_nil

end Text

end Mizan.Metrics
