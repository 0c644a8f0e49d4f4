import SparkDashboard.Browser.MetricsHistory

/-!
# What a chart reads

A series key is taken apart into the place it was written to, whatever the endpoint in
it; so a chart has the last samples of its own series and no others.
-/

namespace SparkDashboard.Browser

open Dashboard (TimeWindow)
open Stepping Utf16

section Keys

theorem colon_not_mem_metricName (key : MetricKey) : 0x3A ∉ key.name := by
  cases key <;> decide

theorem colon_not_mem_seriesName (name : EngineSeriesName) : 0x3A ∉ name.name := by
  cases name <;> decide

theorem seriesName_ne_metricName (name : EngineSeriesName) {key : MetricKey} (hkey : key ∈ gpuMetricKeys) :
    name.name ≠ key.name := by
  -- Every per-GPU metric starts with a `g`, and no engine series does.
  have hseries : name.name.head? ≠ some 0x67 := by cases name <;> decide
  have hmetric : key.name.head? = some 0x67 := by
    cases key <;> first | rfl | exact absurd hkey (by decide)
  intro heq
  exact hseries (heq ▸ hmetric)

theorem not_inherited_of_mem {text : Utf16} {u : UInt16} (hmem : u ∈ text)
    (hu : u = 0x2D ∨ u = 0x3A ∨ isDigit u = true) : text ∉ inheritedNames := by
  have hletters : inheritedNames.all (·.all fun v => !(v == 0x2D || v == 0x3A || isDigit v)) = true := by decide
  intro htext
  have hnot := List.all_eq_true.mp (List.all_eq_true.mp hletters text htext) u hmem
  rcases hu with rfl | rfl | hdigit
  · cases hnot
  · cases hnot
  · simp [hdigit] at hnot

/-- No key that is looked up is inherited, so the store's plain objects are maps. -/
theorem keys_not_inherited :
    (∀ engine, engineKey engine ∉ inheritedNames) ∧ allEnginesKey ∉ inheritedNames ∧
      (∀ n, decimal n ∉ inheritedNames) ∧ (∀ name key, engineSeries name key ∉ inheritedNames) ∧
      ∀ name : EngineSeriesName, name.name ∉ inheritedNames := by
  refine ⟨fun engine => ?_, by decide, fun n => ?_, fun name key => ?_, fun name => by cases name <;> decide⟩
  · have hmem : 0x2D ∈ engineKey engine := by simp [engineKey, utf16]
    exact not_inherited_of_mem hmem (.inl rfl)
  · obtain ⟨u, hu⟩ := List.exists_mem_of_ne_nil _ (decimal_ne_nil n)
    exact not_inherited_of_mem hu (.inr (.inr (isDigit_of_mem_decimal hu)))
  · have hmem : 0x3A ∈ engineSeries name key := by simp [engineSeries, utf16]
    exact not_inherited_of_mem hmem (.inr (.inl rfl))

theorem metricKeyNamed_of_colon {text : Utf16} (h : 0x3A ∈ text) : metricKeyNamed text = none := by
  rw [metricKeyNamed, List.find?_eq_none]
  intro key _ hname
  exact colon_not_mem_metricName key (eq_of_beq hname ▸ h)

theorem engineSeriesNamed_name (name : EngineSeriesName) : engineSeriesNamed name.name = some name := by
  cases name <;> decide

theorem gpuMetricNamed_name {key : MetricKey} (hkey : key ∈ gpuMetricKeys) :
    gpuMetricKeys.find? (·.name == key.name) = some key := by
  cases key <;> first | decide | exact absurd hkey (by decide)

theorem gpuMatch_eq_some {metric gpuKey : Utf16} {key : MetricKey} (h : gpuMatch metric = some (gpuKey, key)) :
    metric = (utf16 "gpu:" ++ gpuKey) ++ 0x3A :: key.name ∧ key ∈ gpuMetricKeys := by
  rw [gpuMatch] at h
  split at h
  · rename_i hgpu
    have hdigits := List.takeWhile_append_dropWhile (p := isDigit) (l := metric.drop 4)
    simp only at h
    split at h
    · rename_i u name hrest
      split at h
      · rename_i hcolon
        obtain ⟨found, hfound, hpair⟩ := Option.map_eq_some_iff.mp h
        obtain ⟨rfl, rfl⟩ := Prod.mk.inj hpair
        have hname : found.name = name := by simpa using List.find?_some hfound
        refine ⟨?_, List.mem_of_find?_eq_some hfound⟩
        rw [hname, ← hcolon.2, ← hrest, List.append_assoc, hdigits, ← hgpu, List.take_append_drop]
      · cases h
    · cases h
  · cases h

theorem gpuMatch_of_digits {gpuKey : Utf16} (hdigits : ∀ u ∈ gpuKey, isDigit u = true) (hne : gpuKey ≠ [])
    {key : MetricKey} (hkey : key ∈ gpuMetricKeys) :
    gpuMatch ((utf16 "gpu:" ++ gpuKey) ++ 0x3A :: key.name) = some (gpuKey, key) := by
  have htake : ((utf16 "gpu:" ++ gpuKey) ++ 0x3A :: key.name).take 4 = utf16 "gpu:" := rfl
  have hdrop : ((utf16 "gpu:" ++ gpuKey) ++ 0x3A :: key.name).drop 4 = gpuKey ++ 0x3A :: key.name := rfl
  have htakeWhile : (gpuKey ++ 0x3A :: key.name).takeWhile isDigit = gpuKey := by
    rw [List.takeWhile_append_of_pos hdigits, List.takeWhile_cons_of_neg (by decide), List.append_nil]
  have hdropWhile : (gpuKey ++ 0x3A :: key.name).dropWhile isDigit = 0x3A :: key.name := by
    rw [List.dropWhile_append_of_pos hdigits, List.dropWhile_cons_of_neg (by decide)]
  rw [gpuMatch, if_pos htake, hdrop, htakeWhile, hdropWhile]
  simp only [hne, ne_eq, not_false_eq_true, and_self, if_true, gpuMetricNamed_name hkey, Option.map_some]

/-- The last colon of a series key is the one before its name. -/
theorem placeOf_engineSeries {key : Utf16} (hkey : key ≠ []) (name : EngineSeriesName) :
    placeOf (engineSeries name key) = some (.engine key name) := by
  have heq : engineSeries name key = key ++ 0x3A :: name.name := List.append_assoc key _ _
  have hlast := lastIndexOf_append_cons key (colon_not_mem_seriesName name)
  have hsystem : metricKeyNamed (key ++ 0x3A :: name.name) = none :=
    metricKeyNamed_of_colon (List.mem_append_right _ List.mem_cons_self)
  have hgpu : gpuMatch (key ++ 0x3A :: name.name) = none := by
    cases hmatch : gpuMatch (key ++ 0x3A :: name.name) with
    | none => rfl
    | some found =>
      obtain ⟨hform, hmem⟩ := gpuMatch_eq_some hmatch
      have hother := lastIndexOf_append_cons (utf16 "gpu:" ++ found.1) (colon_not_mem_metricName found.2)
      rw [← hform, hlast] at hother
      obtain ⟨-, hnames⟩ := List.append_inj hform (Option.some.inj hother)
      exact absurd (List.cons.inj hnames).2 (seriesName_ne_metricName name hmem)
  have htake : (key ++ 0x3A :: name.name).take key.length = key := List.take_left
  have hdrop : (key ++ 0x3A :: name.name).drop (key.length + 1) = name.name := by
    rw [← List.drop_drop, List.drop_left]
    rfl
  rw [heq, placeOf, hsystem, hgpu, hlast]
  simp only [List.length_pos_of_ne_nil hkey, if_true, htake, hdrop, engineSeriesNamed_name, Option.map_some]

theorem placeOf_gpuSeries (metric : GpuSeriesMetric) (gpuIndex : UInt32) :
    placeOf (gpuSeries metric gpuIndex true) = some (.gpu (decimal gpuIndex.toNat) metric.1) := by
  have heq : gpuSeries metric gpuIndex true =
      (utf16 "gpu:" ++ decimal gpuIndex.toNat) ++ 0x3A :: metric.1.name := by
    rw [gpuSeries, if_pos rfl, List.append_assoc _ (utf16 ":")]
    rfl
  have hsystem : metricKeyNamed ((utf16 "gpu:" ++ decimal gpuIndex.toNat) ++ 0x3A :: metric.1.name) = none :=
    metricKeyNamed_of_colon (List.mem_append_right _ List.mem_cons_self)
  rw [heq, placeOf, hsystem,
    gpuMatch_of_digits (fun _ hu => isDigit_of_mem_decimal hu) (decimal_ne_nil _) metric.2]

end Keys

section Samples

variable (snapshots : List MetricsSnapshot)

/-- The non-null samples of a field, of every engine with this type and endpoint. -/
def engineSamples (engine : EngineIdentity) (name : EngineSeriesName) : List DataPoint :=
  snapshots.flatMap fun m => (m.engines.filter fun e => decide (e.identity = engine)).flatMap fun e =>
    point m.timestampMs (e.metrics.bind name.sample)

def gpuSamples (index : UInt32) (metric : GpuSeriesMetric) : List DataPoint :=
  snapshots.flatMap fun m => ((snapshotGpus m).filter fun gpu => decide (gpuIndexOf gpu = index)).flatMap fun gpu =>
    point m.timestampMs (extractGpuValue gpu metric.1)

def aggregateSamples (name : EngineSeriesName) : List DataPoint :=
  snapshots.flatMap fun m => point m.timestampMs ((aggregateEngineMetrics m.engines).bind name.sample)

/-- The last samples of a series, as many as a buffer keeps, that lie in the window. -/
def charted (samples : List DataPoint) (window : TimeWindow) : List DataPoint :=
  (samples.rtake bufferCapacity).filter fun dp =>
    decide (MetricsHistoryStore.lastIngest snapshots - timeWindowSeconds window * 1000 ≤ dp.timestamp)

end Samples

theorem flatMap_ite {κ β : Type*} (p : κ → Prop) [DecidablePred p] (l : List κ) (f : κ → List β) :
    (l.flatMap fun k => if p k then f k else []) = (l.filter fun k => decide (p k)).flatMap f := by
  induction l with
  | nil => rfl
  | cons k rest ih =>
    rw [List.flatMap_cons, ih, List.filter_cons]
    by_cases h : p k
    · rw [if_pos h, if_pos (decide_eq_true h), List.flatMap_cons]
    · rw [if_neg h, if_neg (by simpa using h), List.nil_append]

theorem flatMap_nil_of_forall {κ β : Type*} {l : List κ} {f : κ → List β} (h : ∀ k ∈ l, f k = []) :
    l.flatMap f = [] := List.flatMap_eq_nil_iff.mpr h

section Places

variable (ts : ℚ) (metrics : MetricsSnapshot)

theorem samplesAt_engineWritten (key other : Utf16) (name : EngineSeriesName) (m : Option EngineMetrics) :
    samplesAt (.engine key name) (engineWritten ts other m) =
      if other = key then point ts (m.bind name.sample) else [] := by
  have hnodup : engineSeriesNames.Nodup := by decide
  have hmem : name ∈ engineSeriesNames := by cases name <;> decide
  exact samplesAt_samplesOf (fun _ _ _ _ h => Place.engine.inj h) hnodup hmem key other

theorem samplesAt_gpuWritten (gpuKey : Utf16) {key : MetricKey} (hkey : key ∈ gpuMetricKeys) (gpu : GpuMetrics) :
    samplesAt (.gpu gpuKey key) (gpuWritten ts gpu) =
      if decimal (gpuIndexOf gpu).toNat = gpuKey then point ts (extractGpuValue gpu key) else [] := by
  have hnodup : gpuMetricKeys.Nodup := by decide
  exact samplesAt_samplesOf (fun _ _ _ _ h => Place.gpu.inj h) hnodup hkey gpuKey _

theorem samplesAt_written_engine (key : Utf16) (name : EngineSeriesName) :
    samplesAt (.engine key name) (written metrics) =
      (metrics.engines.flatMap fun e =>
        if engineKey e.identity = key then point metrics.timestampMs (e.metrics.bind name.sample) else []) ++
      if allEnginesKey = key then
        point metrics.timestampMs ((aggregateEngineMetrics metrics.engines).bind name.sample) else [] := by
  have hsystem : samplesAt (.engine key name) (systemWritten metrics) = [] :=
    samplesAt_samplesOf_of_ne fun _ _ h => by cases h
  have hgpus : samplesAt (.engine key name) ((snapshotGpus metrics).flatMap (gpuWritten metrics.timestampMs)) = [] := by
    rw [samplesAt_flatMap]
    exact flatMap_nil_of_forall fun gpu _ => samplesAt_samplesOf_of_ne fun _ _ h => by cases h
  rw [written, samplesAt_append, samplesAt_append, samplesAt_append, hsystem, hgpus, samplesAt_flatMap,
    samplesAt_engineWritten, List.nil_append, List.nil_append]
  simp only [samplesAt_engineWritten]

theorem samplesAt_written_gpu (gpuKey : Utf16) {key : MetricKey} (hkey : key ∈ gpuMetricKeys) :
    samplesAt (.gpu gpuKey key) (written metrics) =
      (snapshotGpus metrics).flatMap fun gpu =>
        if decimal (gpuIndexOf gpu).toNat = gpuKey then point metrics.timestampMs (extractGpuValue gpu key) else [] := by
  have hsystem : samplesAt (.gpu gpuKey key) (systemWritten metrics) = [] :=
    samplesAt_samplesOf_of_ne fun _ _ h => by cases h
  have hengine : ∀ other m, samplesAt (.gpu gpuKey key) (engineWritten metrics.timestampMs other m) = [] :=
    fun _ _ => samplesAt_samplesOf_of_ne fun _ _ h => by cases h
  rw [written, samplesAt_append, samplesAt_append, samplesAt_append, hsystem, samplesAt_flatMap, samplesAt_flatMap,
    hengine, flatMap_nil_of_forall fun e _ => hengine _ _, List.nil_append, List.append_nil, List.append_nil]
  simp only [samplesAt_gpuWritten _ _ hkey]

end Places

theorem engineKey_ne_allEnginesKey (engine : EngineIdentity) : engineKey engine ≠ allEnginesKey := by
  intro h
  have hall : allEnginesKey = utf16 "all" ++ 0x2D :: utf16 "engines" := rfl
  rw [engineKey, List.append_assoc, hall] at h
  obtain ⟨htype, -⟩ := append_cons_inj_of_not_mem (hyphen_not_mem_engineTypeName engine.engineType) (by decide) h
  revert htype
  cases engine.engineType <;> decide

theorem samplesAt_log_engine (snapshots : List MetricsSnapshot) (engine : EngineIdentity) (name : EngineSeriesName) :
    samplesAt (.engine (engineKey engine) name) (snapshots.flatMap written) = engineSamples snapshots engine name := by
  rw [samplesAt_flatMap, engineSamples]
  congr 1
  funext m
  rw [samplesAt_written_engine, if_neg (engineKey_ne_allEnginesKey engine).symm, List.append_nil]
  simp only [engineKey_injective.eq_iff]
  exact flatMap_ite _ _ _

theorem samplesAt_log_aggregate (snapshots : List MetricsSnapshot) (name : EngineSeriesName) :
    samplesAt (.engine allEnginesKey name) (snapshots.flatMap written) = aggregateSamples snapshots name := by
  rw [samplesAt_flatMap, aggregateSamples]
  congr 1
  funext m
  rw [samplesAt_written_engine, if_pos rfl, flatMap_nil_of_forall, List.nil_append]
  intro e _
  exact if_neg (engineKey_ne_allEnginesKey e.identity)

theorem samplesAt_log_gpu (snapshots : List MetricsSnapshot) (index : UInt32) (metric : GpuSeriesMetric) :
    samplesAt (.gpu (decimal index.toNat) metric.1) (snapshots.flatMap written) = gpuSamples snapshots index metric := by
  rw [samplesAt_flatMap, gpuSamples]
  congr 1
  funext m
  rw [samplesAt_written_gpu _ _ metric.2]
  simp only [decimal_injective.eq_iff, UInt32.toNat_inj]
  exact flatMap_ite _ _ _

namespace MetricsHistoryStore

theorem Ingested.getChartData {s : MetricsHistoryStore} {snapshots : List MetricsSnapshot} (h : s.Ingested snapshots)
    {metric : Utf16} {place : Place} (hplace : placeOf metric = some place) (window : TimeWindow) :
    (s.getChartData metric window).1 = charted snapshots (samplesAt place (snapshots.flatMap written)) window := by
  have hthere := h.tracks place
  rw [MetricsHistoryStore.getChartData, resolveBuffer, hplace, Option.bind_some]
  cases hbuffer : s.series.bufferAt place with
  | none =>
    rw [hbuffer] at hthere
    rw [charted, show samplesAt place (snapshots.flatMap written) = [] from hthere, List.rtake_nil]
    rfl
  | some buffer =>
    rw [hbuffer] at hthere
    rw [charted, ← h.lastTimestamp, ← (CircularBuffer.toArray_of_represents hthere).1]
    rfl

end MetricsHistoryStore

/-- A series key shows the last samples of the engine, the aggregate or the GPU it is the key of. -/
theorem chart_data_agrees (events : List HistoryEvent)
    (hascending : MetricsHistoryStore.Ascending (events.filterMap HistoryEvent.snapshot)) (window : TimeWindow) :
    (∀ engine name,
      ((final historyStep {} events).getChartData (engineSeries name (engineKey engine)) window).1 =
        charted (events.filterMap HistoryEvent.snapshot)
          (engineSamples (events.filterMap HistoryEvent.snapshot) engine name) window) ∧
      (∀ metric index,
        ((final historyStep {} events).getChartData (gpuSeries metric index true) window).1 =
          charted (events.filterMap HistoryEvent.snapshot)
            (gpuSamples (events.filterMap HistoryEvent.snapshot) index metric) window) ∧
      ∀ name,
        ((final historyStep {} events).getChartData (engineSeries name allEnginesKey) window).1 =
          charted (events.filterMap HistoryEvent.snapshot)
            (aggregateSamples (events.filterMap HistoryEvent.snapshot) name) window := by
  have hingested := MetricsHistoryStore.ingested_final MetricsHistoryStore.ingested_new events hascending
  rw [List.nil_append] at hingested
  refine ⟨fun engine name => ?_, fun metric index => ?_, fun name => ?_⟩
  · have hkey : engineKey engine ≠ [] := by simp [engineKey, utf16]
    rw [hingested.getChartData (placeOf_engineSeries hkey name), samplesAt_log_engine]
  · rw [hingested.getChartData (placeOf_gpuSeries metric index), samplesAt_log_gpu]
  · have hkey : allEnginesKey ≠ [] := List.cons_ne_nil _ _
    rw [hingested.getChartData (placeOf_engineSeries hkey name), samplesAt_log_aggregate]

/-- A snapshot of one engine, whose endpoint is full of colons, and two GPUs. -/
def busySnapshot (timestampMs tps : ℚ) : MetricsSnapshot where
  timestampMs := timestampMs
  gpu := { index := some 0, utilizationPercent := some 10 }
  gpus := some [{ index := some 0, utilizationPercent := some 10 }, { index := some 1, utilizationPercent := some 20 }]
  cpu := ⟨50⟩
  memory := ⟨100, 40⟩
  disk := ⟨1, 2⟩
  network := ⟨3, 4⟩
  engines := [{ engineType := .vllm, endpoint := utf16 "http://[::1]:8000", metrics := some { number := fun _ => some tps } }]
  gpuEvents := []

def busyEvents : List HistoryEvent :=
  [.ingest (busySnapshot 1000 5), .read (utf16 "all-engines:tps") .fiveMinutes, .ingest (busySnapshot 400000 7)]

theorem chart_data_agrees_busy :
    (∀ engine name,
      ((final historyStep {} busyEvents).getChartData (engineSeries name (engineKey engine)) .fiveMinutes).1 =
        charted (busyEvents.filterMap HistoryEvent.snapshot)
          (engineSamples (busyEvents.filterMap HistoryEvent.snapshot) engine name) .fiveMinutes) ∧
      (∀ metric index,
        ((final historyStep {} busyEvents).getChartData (gpuSeries metric index true) .fiveMinutes).1 =
          charted (busyEvents.filterMap HistoryEvent.snapshot)
            (gpuSamples (busyEvents.filterMap HistoryEvent.snapshot) index metric) .fiveMinutes) ∧
      ∀ name,
        ((final historyStep {} busyEvents).getChartData (engineSeries name allEnginesKey) .fiveMinutes).1 =
          charted (busyEvents.filterMap HistoryEvent.snapshot)
            (aggregateSamples (busyEvents.filterMap HistoryEvent.snapshot) name) .fiveMinutes := by
  have hsnapshots : busyEvents.filterMap HistoryEvent.snapshot = [busySnapshot 1000 5, busySnapshot 400000 7] := rfl
  have hearlier : (1000 : ℚ) < 400000 := by norm_num
  refine chart_data_agrees busyEvents ⟨?_, ?_⟩ .fiveMinutes
  · intro m hm
    rw [hsnapshots] at hm
    rcases List.mem_pair.mp hm with rfl | rfl
    · exact (by norm_num : (0 : ℚ) < 1000)
    · exact (by norm_num : (0 : ℚ) < 400000)
  · rw [hsnapshots]
    exact List.pairwise_pair.mpr hearlier

end SparkDashboard.Browser
