import Mathlib.Algebra.Order.BigOperators.Group.List
import SparkDashboard.Engines.Histogram
import SparkDashboard.Library.Tally

/-!
# Parsing an exposition

`parse_prometheus_text` over the samples that the exposition parser returns: each
label series is a share of the engine's total, so all but gauges are added up.
-/

namespace SparkDashboard.Engines

open Library

section Merge

variable {β : Type*} [LinearOrder β]

inductive SampleValue (β : Type*)
  | gauge (v : ℚ)
  | counter (v : ℚ)
  /-- One label set's `(less_than, count)` buckets. -/
  | histogram (buckets : List (β × ℚ))
  | summary
  | untyped (v : ℚ)

structure Sample (β : Type*) where
  metric : String
  labels : KeyedMap String String
  value : SampleValue β

namespace MetricTables

def pushGauge (t : MetricTables β) (sample : Sample β) (v : ℚ) : MetricTables β :=
  { t with gauges := t.gauges.upsert sample.metric fun series => series.getD [] ++ [⟨sample.labels, v⟩] }

def addCounter (t : MetricTables β) (name : String) (v : ℚ) : MetricTables β :=
  { t with counters := t.counters.upsert name fun total => total.getD 0 + v }

def addBuckets (t : MetricTables β) (name : String) (buckets : List (β × ℚ)) : MetricTables β :=
  { t with histograms := t.histograms.upsert name fun merged => Tally.addAll (merged.getD []) buckets }

/-- An untyped sample whose name says that it can be summed. -/
def isSummed (name : String) : Bool :=
  name.endsWith "_sum" || name.endsWith "_count" || name.endsWith "_total"

def record (t : MetricTables β) (sample : Sample β) : MetricTables β :=
  match sample.value with
  | .gauge v => t.pushGauge sample v
  | .counter v => t.addCounter sample.metric v
  | .histogram buckets => t.addBuckets sample.metric buckets
  | .summary => t
  | .untyped v => if isSummed sample.metric then t.addCounter sample.metric v else t.pushGauge sample v

end MetricTables

def mergeSamples (samples : List (Sample β)) : MetricTables β :=
  let t := samples.foldl MetricTables.record {}
  { t with histograms := t.histograms.mapKV fun _ buckets => Tally.sort buckets }

def normalized (body : String) : String :=
  ((body.replace "vllm:" "vllm_").replace "sglang:" "sglang_").replace "llamacpp:" "llamacpp_"

/-- `scrape` is the exposition parser, which drops names with colons. -/
def parsePrometheusText (scrape : String → Option (List (Sample β))) (body : String) :
    Option (MetricTables β) := (scrape (normalized body)).map mergeSamples

end Merge

section Merge

variable {β : Type*}

/-- What a sample is recorded as: an untyped one is a counter or a gauge by its name. -/
def Sample.recordedAs (sample : Sample β) : SampleValue β :=
  match sample.value with
  | .untyped v => if MetricTables.isSummed sample.metric then .counter v else .gauge v
  | value => value

theorem recordedAs_ne_untyped (sample : Sample β) (v : ℚ) : sample.recordedAs ≠ .untyped v := by
  rw [Sample.recordedAs]
  cases sample.value with
  | untyped w => by_cases hsummed : MetricTables.isSummed sample.metric <;> simp [hsummed]
  | _ => simp

/-- The series a sample adds to the gauge of this name. -/
def gaugeOf (name : String) (sample : Sample β) : Option GaugeSeries :=
  match sample.recordedAs with
  | .gauge v => if sample.metric = name then some ⟨sample.labels, v⟩ else none
  | _ => none

/-- The amount a sample adds to the counter of this name. -/
def counterOf (name : String) (sample : Sample β) : Option ℚ :=
  match sample.recordedAs with
  | .counter v => if sample.metric = name then some v else none
  | _ => none

/-- The label set's buckets that a sample adds to the histogram of this name. -/
def histogramOf (name : String) (sample : Sample β) : Option (List (β × ℚ)) :=
  match sample.recordedAs with
  | .histogram buckets => if sample.metric = name then some buckets else none
  | _ => none

variable [LinearOrder β]

theorem record_recordedAs (t : MetricTables β) (sample : Sample β) :
    t.record { sample with value := sample.recordedAs } = t.record sample := by
  rw [MetricTables.record, MetricTables.record, Sample.recordedAs]
  cases sample.value with
  | untyped v => by_cases hsummed : MetricTables.isSummed sample.metric <;> simp [hsummed, MetricTables.pushGauge]
  | _ => rfl

variable (name : String) (t : MetricTables β) (sample : Sample β)

theorem gauges_record :
    (t.record sample).gauges.lookup name =
      (gaugeOf name sample).elim (t.gauges.lookup name) fun g =>
        some ((t.gauges.lookup name).getD [] ++ [g]) := by
  rw [← record_recordedAs, gaugeOf, MetricTables.record]
  cases hvalue : sample.recordedAs with
  | gauge v => exact KeyedMap.lookup_upsert_add t.gauges _ name (fun series g => series ++ [g]) [] _
  | untyped v => exact absurd hvalue (recordedAs_ne_untyped sample v)
  | _ => rfl

theorem counters_record :
    (t.record sample).counters.lookup name =
      (counterOf name sample).elim (t.counters.lookup name) fun v =>
        some ((t.counters.lookup name).getD 0 + v) := by
  rw [← record_recordedAs, counterOf, MetricTables.record]
  cases hvalue : sample.recordedAs with
  | counter v => exact KeyedMap.lookup_upsert_add t.counters _ name (fun total v => total + v) 0 v
  | untyped v => exact absurd hvalue (recordedAs_ne_untyped sample v)
  | _ => rfl

theorem histograms_record :
    (t.record sample).histograms.lookup name =
      (histogramOf name sample).elim (t.histograms.lookup name) fun buckets =>
        some (Tally.addAll ((t.histograms.lookup name).getD []) buckets) := by
  rw [← record_recordedAs, histogramOf, MetricTables.record]
  cases hvalue : sample.recordedAs with
  | histogram buckets => exact KeyedMap.lookup_upsert_add t.histograms _ name Tally.addAll [] buckets
  | untyped v => exact absurd hvalue (recordedAs_ne_untyped sample v)
  | _ => rfl

end Merge

section Merged

variable {β : Type*} [LinearOrder β]

/-- The series of one gauge, in exposition order. -/
def gaugeSeries (samples : List (Sample β)) (name : String) : List GaugeSeries :=
  samples.filterMap (gaugeOf name)

def counterAmounts (samples : List (Sample β)) (name : String) : List ℚ :=
  samples.filterMap (counterOf name)

/-- The buckets of each label set of one histogram. -/
def labelSets (samples : List (Sample β)) (name : String) : List (List (β × ℚ)) :=
  samples.filterMap (histogramOf name)

/-- The label sets of one histogram added up bound for bound. -/
def mergedBuckets (samples : List (Sample β)) (name : String) : List (β × ℚ) :=
  Tally.sort (Tally.addAll [] (labelSets samples name).flatten)

theorem lookup_gauges (samples : List (Sample β)) (name : String) :
    (mergeSamples samples).gauges.lookup name =
      if gaugeSeries samples name = [] then none else some (gaugeSeries samples name) := by
  have hrun := KeyedMap.lookup_run MetricTables.record (fun t => t.gauges.lookup name) (fun s g => s ++ [g]) []
    (gauges_record name) {} samples
  have hfold (series : List GaugeSeries) : series.foldl (fun s g => s ++ [g]) [] = series := by
    rw [List.foldl_append_eq_append, List.nil_append, ← List.flatMap_def, List.flatMap_singleton']
  simpa [mergeSamples, gaugeSeries, hfold] using hrun

theorem lookup_counters (samples : List (Sample β)) (name : String) :
    (mergeSamples samples).counters.lookup name =
      if counterAmounts samples name = [] then none else some (counterAmounts samples name).sum := by
  have hrun := KeyedMap.lookup_run MetricTables.record (fun t => t.counters.lookup name) (fun c v => c + v) 0
    (counters_record name) {} samples
  simpa [mergeSamples, counterAmounts, List.sum_eq_foldl] using hrun

theorem lookup_histograms (samples : List (Sample β)) (name : String) :
    (mergeSamples samples).histograms.lookup name =
      if labelSets samples name = [] then none else some (mergedBuckets samples name) := by
  have hrun := KeyedMap.lookup_run MetricTables.record (fun t => t.histograms.lookup name) Tally.addAll []
    (histograms_record name) {} samples
  simp only [mergeSamples, KeyedMap.lookup_mapKV, hrun, mergedBuckets, labelSets, ← Tally.addAll_flatten]
  split
  · rfl
  · rfl

open Tally (amountAt keys)

/-- Counts that do not fall as the bound grows. -/
def Accumulates (buckets : List (β × ℚ)) : Prop :=
  ∀ le ∈ keys buckets, ∀ le' ∈ keys buckets, le ≤ le' → amountAt buckets le ≤ amountAt buckets le'

theorem nodup_addAll_flatten (series : List (List (β × ℚ))) : (keys (Tally.addAll [] series.flatten)).Nodup :=
  Tally.nodup_addAll (by exact List.nodup_nil) series.flatten

theorem ascending_mergedBuckets (samples : List (Sample β)) (name : String) :
    (mergedBuckets samples name).Pairwise fun a b => a.1 < b.1 :=
  Tally.ascending_sort (nodup_addAll_flatten _)

theorem mem_keys_mergedBuckets (samples : List (Sample β)) (name : String) (le : β) :
    le ∈ keys (mergedBuckets samples name) ↔ ∃ series ∈ labelSets samples name, le ∈ keys series := by
  have hperm := (Tally.sort_perm (Tally.addAll [] (labelSets samples name).flatten)).map Prod.fst
  have hkeys : le ∈ keys (mergedBuckets samples name) ↔
      le ∈ keys (Tally.addAll [] (labelSets samples name).flatten) := hperm.mem_iff
  rw [hkeys, Tally.mem_keys_addAll]
  simp only [keys, List.map_nil, List.not_mem_nil, false_or, List.mem_map, List.mem_flatten]
  constructor
  · rintro ⟨b, ⟨series, hseries, hb⟩, rfl⟩
    exact ⟨series, hseries, b, hb, rfl⟩
  · rintro ⟨series, hseries, b, hb, rfl⟩
    exact ⟨b, ⟨series, hseries, hb⟩, rfl⟩

theorem amountAt_mergedBuckets (samples : List (Sample β)) (name : String) (le : β) :
    amountAt (mergedBuckets samples name) le =
      ((labelSets samples name).map fun series => amountAt series le).sum := by
  rw [mergedBuckets, Tally.amountAt_perm (Tally.sort_perm _), Tally.amountAt_addAll, Tally.amountAt_nil,
    zero_add, Tally.amountAt_flatten]

theorem count_of_mem_mergedBuckets {samples : List (Sample β)} {name : String} {b : β × ℚ}
    (hb : b ∈ mergedBuckets samples name) :
    b.2 = ((labelSets samples name).map fun series => amountAt series b.1).sum := by
  rw [← amountAt_mergedBuckets, Tally.amountAt_of_mem (Tally.nodup_of_ascending (ascending_mergedBuckets _ _)) hb]

theorem mergedBuckets_perm {samples samples' : List (Sample β)} (h : samples.Perm samples') (name : String) :
    mergedBuckets samples name = mergedBuckets samples' name := by
  have hsets : (labelSets samples name).Perm (labelSets samples' name) := h.filterMap _
  refine Tally.eq_of_ascending (ascending_mergedBuckets _ _) (ascending_mergedBuckets _ _) ?_ ?_
  · intro le
    simp only [mem_keys_mergedBuckets, hsets.mem_iff]
  · intro le
    rw [amountAt_mergedBuckets, amountAt_mergedBuckets]
    exact (hsets.map _).sum_eq

/-- Label sets of the same bounds, each cumulative, are cumulative together. -/
theorem nondecreasing_mergedBuckets {samples : List (Sample β)} {name : String}
    (hshared : ∀ series ∈ labelSets samples name, ∀ series' ∈ labelSets samples name,
      ∀ le, le ∈ keys series ↔ le ∈ keys series')
    (haccumulates : ∀ series ∈ labelSets samples name, Accumulates series) :
    (mergedBuckets samples name).Pairwise fun a b => a.2 ≤ b.2 := by
  refine List.Pairwise.imp_of_mem ?_ (ascending_mergedBuckets samples name)
  intro a b ha hb hlt
  rw [count_of_mem_mergedBuckets ha, count_of_mem_mergedBuckets hb]
  obtain ⟨seriesA, hseriesA, haKey⟩ :=
    (mem_keys_mergedBuckets samples name a.1).mp (List.mem_map_of_mem ha)
  obtain ⟨seriesB, hseriesB, hbKey⟩ :=
    (mem_keys_mergedBuckets samples name b.1).mp (List.mem_map_of_mem hb)
  apply List.sum_le_sum
  intro series hseries
  exact haccumulates series hseries a.1 ((hshared series hseries seriesA hseriesA a.1).mpr haKey)
    b.1 ((hshared series hseries seriesB hseriesB b.1).mpr hbKey) hlt.le

theorem eq_nil_iff_of_perm {α : Type*} {l l' : List α} (h : l.Perm l') : l = [] ↔ l' = [] := by
  rw [← List.length_eq_zero_iff, h.length_eq, List.length_eq_zero_iff]

theorem counters_perm {samples samples' : List (Sample β)} (h : samples.Perm samples') (name : String) :
    (mergeSamples samples).counters.lookup name = (mergeSamples samples').counters.lookup name := by
  have hamounts : (counterAmounts samples name).Perm (counterAmounts samples' name) := h.filterMap _
  rw [lookup_counters, lookup_counters]
  simp only [hamounts.sum_eq, eq_nil_iff_of_perm hamounts]

theorem histograms_perm {samples samples' : List (Sample β)} (h : samples.Perm samples') (name : String) :
    (mergeSamples samples).histograms.lookup name = (mergeSamples samples').histograms.lookup name := by
  have hsets : (labelSets samples name).Perm (labelSets samples' name) := h.filterMap _
  rw [lookup_histograms, lookup_histograms]
  simp only [eq_nil_iff_of_perm hsets, mergedBuckets_perm h]

theorem gauges_perm {samples samples' : List (Sample β)} (h : samples.Perm samples') (name : String) :
    Option.Rel List.Perm ((mergeSamples samples).gauges.lookup name)
      ((mergeSamples samples').gauges.lookup name) := by
  have hseries : (gaugeSeries samples name).Perm (gaugeSeries samples' name) := h.filterMap _
  rw [lookup_gauges, lookup_gauges]
  by_cases hnil : gaugeSeries samples name = []
  · rw [if_pos hnil, if_pos ((eq_nil_iff_of_perm hseries).mp hnil)]
    exact Option.Rel.none
  · rw [if_neg hnil, if_neg fun hnil' => hnil ((eq_nil_iff_of_perm hseries).mpr hnil')]
    exact Option.Rel.some hseries

theorem mergedBuckets_of_lookup {samples : List (Sample β)} {name : String} {buckets : List (β × ℚ)}
    (h : (mergeSamples samples).histograms.lookup name = some buckets) :
    buckets = mergedBuckets samples name := by
  rw [lookup_histograms] at h
  split at h
  · cases h
  · exact (Option.some.inj h).symm

theorem exposition_merges (samples : List (Sample β)) :
    (∀ scrape body, scrape (normalized body) = some samples →
      parsePrometheusText scrape body = some (mergeSamples samples)) ∧
    (∀ samples', samples.Perm samples' →
      (∀ name, (mergeSamples samples).counters.lookup name = (mergeSamples samples').counters.lookup name) ∧
      (∀ name, (mergeSamples samples).histograms.lookup name =
        (mergeSamples samples').histograms.lookup name) ∧
      ∀ name, Option.Rel List.Perm ((mergeSamples samples).gauges.lookup name)
        ((mergeSamples samples').gauges.lookup name)) ∧
    (∀ name, (mergeSamples samples).counters.lookup name =
      if counterAmounts samples name = [] then none else some (counterAmounts samples name).sum) ∧
    (∀ name, (mergeSamples samples).histograms.lookup name = none ↔ labelSets samples name = []) ∧
    ∀ name buckets, (mergeSamples samples).histograms.lookup name = some buckets →
      (buckets.Pairwise fun a b => a.1 < b.1) ∧
      (∀ le, le ∈ keys buckets ↔ ∃ series ∈ labelSets samples name, le ∈ keys series) ∧
      (∀ b ∈ buckets, b.2 = ((labelSets samples name).map fun series => amountAt series b.1).sum) ∧
      ((∀ series ∈ labelSets samples name, ∀ series' ∈ labelSets samples name,
          ∀ le, le ∈ keys series ↔ le ∈ keys series') →
        (∀ series ∈ labelSets samples name, Accumulates series) →
        buckets.Pairwise fun a b => a.2 ≤ b.2) := by
  refine ⟨?_, ?_, lookup_counters samples, ?_, ?_⟩
  · intro scrape body hscrape
    rw [parsePrometheusText, hscrape]
    rfl
  · intro samples' hperm
    exact ⟨counters_perm hperm, histograms_perm hperm, gauges_perm hperm⟩
  · intro name
    rw [lookup_histograms]
    simp
  · intro name buckets hlookup
    rw [mergedBuckets_of_lookup hlookup]
    refine ⟨ascending_mergedBuckets samples name, mem_keys_mergedBuckets samples name, ?_, ?_⟩
    · intro b hb
      exact count_of_mem_mergedBuckets hb
    · intro hshared haccumulates
      exact nondecreasing_mergedBuckets hshared haccumulates

end Merged

end SparkDashboard.Engines
