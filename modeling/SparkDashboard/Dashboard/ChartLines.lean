import SparkDashboard.Browser.ChartData
import SparkDashboard.Library.Distinct

/-!
# Where a line ends

The line of a series ends with what the latest snapshot has of it. Where that snapshot has nothing the
line ends before.
-/

namespace SparkDashboard.Dashboard

open Browser

section Lines

variable {earlier : List MetricsSnapshot} {latest : MetricsSnapshot}

/-- A line ends with the tile's value at the latest snapshot; where the tile has none, it ends before. -/
structure Agrees (latest : MetricsSnapshot) (value : Option ℚ) (line : List DataPoint) : Prop where
  last : ∀ v, value = some v ↔ line.getLast? = some ⟨latest.timestampMs, v⟩
  past : ∀ dp ∈ line, dp.timestamp ≤ latest.timestampMs

/-- The points before the latest snapshot, and what that has. -/
def Continues (latest : MetricsSnapshot) (value : Option ℚ) (line : List DataPoint) : Prop :=
  ∃ kept, (∀ dp ∈ kept, dp.timestamp < latest.timestampMs) ∧ line = kept ++ point latest.timestampMs value

theorem timeWindowSeconds_nonneg (window : TimeWindow) : 0 ≤ timeWindowSeconds window := by
  cases window <;> decide +kernel

theorem lastIngest_concat : MetricsHistoryStore.lastIngest (earlier ++ [latest]) = latest.timestampMs := by
  rw [MetricsHistoryStore.lastIngest, List.getLast?_concat]
  rfl

theorem timestamp_of_mem_point {ts : ℚ} {value : Option ℚ} : ∀ dp ∈ point ts value, dp.timestamp = ts := by
  intro dp hdp
  cases value with
  | none => cases hdp
  | some v => rw [List.mem_singleton.mp hdp]

theorem Continues.agrees {value : Option ℚ} {line : List DataPoint} (h : Continues latest value line) :
    Agrees latest value line := by
  obtain ⟨kept, hkept, rfl⟩ := h
  refine ⟨fun v => ?_, fun dp hdp => ?_⟩
  · cases value with
    | none =>
      rw [point, Option.map_none, Option.toList_none, List.append_nil]
      exact iff_of_false (Option.some_ne_none v).symm fun hlast =>
        lt_irrefl latest.timestampMs (hkept _ (List.mem_of_getLast? hlast))
    | some w =>
      have hpoint : point latest.timestampMs (some w) = [⟨latest.timestampMs, w⟩] := rfl
      rw [hpoint, List.getLast?_concat]
      simp
  · rcases List.mem_append.mp hdp with hkept' | hnew
    · exact (hkept dp hkept').le
    · exact (timestamp_of_mem_point dp hnew).le

theorem continues_charted {old : List DataPoint} (hold : ∀ dp ∈ old, dp.timestamp < latest.timestampMs)
    (value : Option ℚ) (window : TimeWindow) :
    Continues latest value (charted (earlier ++ [latest]) (old ++ point latest.timestampMs value) window) := by
  have hopen : latest.timestampMs - timeWindowSeconds window * 1000 ≤ latest.timestampMs := by
    have hnonneg := timeWindowSeconds_nonneg window
    linarith
  cases value with
  | none =>
    refine ⟨_, ?_, (List.append_nil _).symm⟩
    intro dp hdp
    have hkept := List.mem_of_mem_drop (List.mem_filter.mp hdp).1
    rw [point, Option.map_none, Option.toList_none, List.append_nil] at hkept
    exact hold dp hkept
  | some v =>
    obtain ⟨n, hn⟩ : ∃ n, bufferCapacity = n + 1 := ⟨899, rfl⟩
    have hnew : [(⟨latest.timestampMs, v⟩ : DataPoint)].filter (fun dp =>
        decide (latest.timestampMs - timeWindowSeconds window * 1000 ≤ dp.timestamp)) = [⟨latest.timestampMs, v⟩] :=
      List.filter_eq_self.mpr fun dp hdp => by rw [List.mem_singleton.mp hdp]; exact decide_eq_true hopen
    have hpoint : point latest.timestampMs (some v) = [⟨latest.timestampMs, v⟩] := rfl
    refine ⟨(old.rtake n).filter fun dp =>
      decide (latest.timestampMs - timeWindowSeconds window * 1000 ≤ dp.timestamp), ?_, ?_⟩
    · intro dp hdp
      exact hold dp (List.mem_of_mem_drop (List.mem_filter.mp hdp).1)
    · rw [charted, lastIngest_concat, hn, hpoint, List.rtake_concat_succ, List.filter_append, hnew]

theorem timestamp_of_mem_flatMap {samples : MetricsSnapshot → List DataPoint}
    (hsamples : ∀ m, ∀ dp ∈ samples m, dp.timestamp = m.timestampMs)
    (hascending : MetricsHistoryStore.Ascending (earlier ++ [latest])) :
    ∀ dp ∈ earlier.flatMap samples, dp.timestamp < latest.timestampMs := by
  intro dp hdp
  obtain ⟨m, hm, hdp⟩ := List.mem_flatMap.mp hdp
  rw [hsamples m dp hdp]
  exact (List.pairwise_append.mp hascending.later).2.2 m hm latest (List.mem_singleton_self latest)

end Lines

section System

theorem mem_systemMetricKeys (key : MetricKey) : key ∈ systemMetricKeys := by
  cases key <;> decide

theorem placeOf_metricName (key : MetricKey) : placeOf key.name = some (.system key) := by
  have hnamed : metricKeyNamed key.name = some key := by cases key <;> decide
  rw [placeOf, hnamed]

def systemSamples (snapshots : List MetricsSnapshot) (key : MetricKey) : List DataPoint :=
  snapshots.flatMap fun m => point m.timestampMs (extractValue m key)

theorem samplesAt_log_system (snapshots : List MetricsSnapshot) (key : MetricKey) :
    samplesAt (.system key) (snapshots.flatMap written) = systemSamples snapshots key := by
  rw [samplesAt_flatMap, systemSamples]
  congr 1
  funext m
  have hsystem : samplesAt (.system key) (systemWritten m) = point m.timestampMs (extractValue m key) :=
    samplesAt_samplesOf_self (fun _ _ h => Place.system.inj h) (by decide) (mem_systemMetricKeys key)
  have hgpus : samplesAt (.system key) ((snapshotGpus m).flatMap (gpuWritten m.timestampMs)) = [] := by
    rw [samplesAt_flatMap]
    exact flatMap_nil_of_forall fun gpu _ => samplesAt_samplesOf_of_ne fun _ _ h => by cases h
  have hengine : ∀ other metrics, samplesAt (.system key) (engineWritten m.timestampMs other metrics) = [] :=
    fun _ _ => samplesAt_samplesOf_of_ne fun _ _ h => by cases h
  rw [written, samplesAt_append, samplesAt_append, samplesAt_append, hsystem, hgpus, samplesAt_flatMap, hengine,
    flatMap_nil_of_forall fun e _ => hengine _ _, List.append_nil, List.append_nil, List.append_nil]

variable {earlier : List MetricsSnapshot} {latest : MetricsSnapshot} {store : MetricsHistoryStore}
  (hingested : store.Ingested (earlier ++ [latest])) (hascending : MetricsHistoryStore.Ascending (earlier ++ [latest]))
  (window : TimeWindow)

include hingested hascending

theorem continues_system (key : MetricKey) :
    Continues latest (extractValue latest key) (store.getChartData key.name window).1 := by
  have hlatest : systemSamples (earlier ++ [latest]) key =
      systemSamples earlier key ++ point latest.timestampMs (extractValue latest key) := by
    rw [systemSamples, List.flatMap_append, List.flatMap_singleton]
    rfl
  rw [hingested.getChartData (placeOf_metricName key), samplesAt_log_system, hlatest]
  exact continues_charted (timestamp_of_mem_flatMap (fun m dp hdp => timestamp_of_mem_point dp hdp) hascending) _ window

/-- The line of a GPU of the latest snapshot, the only one there with its index. -/
theorem continues_gpu {gpu : GpuMetrics} (hgpu : gpu ∈ snapshotGpus latest)
    (hdistinct : ((snapshotGpus latest).map gpuIndexOf).Nodup) (metric : GpuSeriesMetric) :
    Continues latest (extractGpuValue gpu metric.1)
      (store.getChartData (gpuSeries metric (gpuIndexOf gpu) true) window).1 := by
  have honly : ((snapshotGpus latest).filter fun other => decide (gpuIndexOf other = gpuIndexOf gpu)) = [gpu] :=
    Library.Distinct.filter_key_eq_singleton hdistinct hgpu
  have hlatest : gpuSamples (earlier ++ [latest]) (gpuIndexOf gpu) metric =
      gpuSamples earlier (gpuIndexOf gpu) metric ++ point latest.timestampMs (extractGpuValue gpu metric.1) := by
    rw [gpuSamples, List.flatMap_append, List.flatMap_singleton, honly, List.flatMap_singleton]
    rfl
  rw [hingested.getChartData (placeOf_gpuSeries metric _), samplesAt_log_gpu, hlatest]
  refine continues_charted (timestamp_of_mem_flatMap (fun m dp hdp => ?_) hascending) _ window
  obtain ⟨other, -, hdp⟩ := List.mem_flatMap.mp hdp
  exact timestamp_of_mem_point dp hdp

end System

end SparkDashboard.Dashboard
