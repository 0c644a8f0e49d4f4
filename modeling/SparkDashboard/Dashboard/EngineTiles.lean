import SparkDashboard.Browser.AggregateInclusion
import SparkDashboard.Dashboard.ChartLines
import SparkDashboard.Dashboard.EnginePanel
import SparkDashboard.Library.Distinct

/-!
# Tiles and lines

The figures of an engine panel, each with the line it draws. Both come from the same target: a tile
from the latest snapshot, a line from the history.
-/

namespace SparkDashboard.Dashboard

open Browser Stepping Utf16
open Engines (LatencyPercentiles MetricGroup)

/-- A figure with its line, or what stands in its place. -/
inductive Tile where
  | notReported
  | figure (value : Option ℚ) (line : List DataPoint)

/-- The field a tile shows, the group its panel asks about and the series of its line or trend, if any. -/
structure TileSpec where
  field : NumericEngineMetric
  group : MetricGroup
  line : Option EngineSeriesName := none

structure ThroughputFields where
  live : NumericEngineMetric
  average : NumericEngineMetric
  perRequest : NumericEngineMetric
  total : NumericEngineMetric
  perRequestGroup : MetricGroup
  liveSeries : EngineSeriesName
  averageSeries : EngineSeriesName
  perRequestSeries : EngineSeriesName

def prefill : ThroughputFields :=
  ⟨.promptTokensPerSec, .avgPromptTokensPerSec, .perRequestPromptTps, .totalPromptTokens, .ttftMean, .promptTps,
    .avgPromptTps, .perReqPromptTps⟩

def decode : ThroughputFields :=
  ⟨.tokensPerSec, .avgTokensPerSec, .perRequestTps, .totalGenerationTokens, .tpotMean, .tps, .avgTps, .perReqTps⟩

def throughputTiles (fields : ThroughputFields) : List TileSpec :=
  [⟨fields.live, .throughput, some fields.liveSeries⟩, ⟨fields.total, .throughput, none⟩,
    ⟨fields.average, .throughput, some fields.averageSeries⟩,
    ⟨fields.perRequest, fields.perRequestGroup, some fields.perRequestSeries⟩]

/-- The tiles each engine panel always has, besides latencies and goodput. -/
def PanelType.tiles : PanelType → List TileSpec
  | .enginePrefillThroughput => throughputTiles prefill
  | .engineDecodeThroughput => throughputTiles decode
  | .engineLatency =>
    [⟨.queueTimeMs, .queueTime, some .queueTime⟩, ⟨.avgBatchSize, .batchSize, some .batchSize⟩]
  | .engineRequests =>
    [⟨.activeRequests, .activeRequests, some .activeRequests⟩, ⟨.queuedRequests, .activeRequests, some .queuedRequests⟩,
      ⟨.totalRequests, .requestTotal, some .totalRequests⟩]
  | .engineCache =>
    [⟨.kvCachePercent, .kvCache, some .kvCache⟩, ⟨.prefixCacheHitRate, .prefixCache, some .prefixCacheHit⟩,
      ⟨.prefixCacheQueriesTotal, .prefixCache, none⟩]
  | _ => []

/-- Signs of memory pressure. -/
def PanelType.pressure : PanelType → List NumericEngineMetric
  | .engineRequests => [.swappedRequests, .preemptionsTotal]
  | _ => []

inductive LatencyMode where
  | avg
  | p50
  | p95
  | p99
  deriving DecidableEq, Repr

/-- The group a latency's statistic is reported in. -/
def LatencyMode.group (mode : LatencyMode) (dimension : LatencyDimension) : MetricGroup :=
  if mode = .avg then dimension.meanGroup else dimension.percentilesGroup

def pickLatencyValue (mode : LatencyMode) (avgMs : Option ℚ) (percentiles : Option LatencyPercentiles) : Option ℚ :=
  match mode with
  | .avg => avgMs
  | .p50 => percentiles.bind (·.p50Ms)
  | .p95 => percentiles.bind (·.p95Ms)
  | .p99 => percentiles.bind (·.p99Ms)

structure ReportedLatencyStatistics where
  means : Bool
  percentiles : Bool

def reportedLatencyStatistics (dimension : LatencyDimension) (reports : MetricGroup → Bool) :
    ReportedLatencyStatistics :=
  ⟨reports dimension.meanGroup, reports dimension.percentilesGroup⟩

/-- A percentile falls back to the mean, the mean to nothing. -/
def shownLatencyStatistic (mode : LatencyMode) (reported : ReportedLatencyStatistics) : Option LatencyMode :=
  if mode ≠ .avg ∧ reported.percentiles then some mode
  else if reported.means then some .avg
  else none

def latencyLabel : LatencyDimension → Utf16
  | .ttft => utf16 "TTFT"
  | .e2e => utf16 "E2E"
  | .itl => utf16 "ITL"
  | .tpot => utf16 "TPOT"

def latencyMean : LatencyDimension → NumericEngineMetric
  | .ttft => .ttftMs
  | .e2e => .e2eLatencyMs
  | .itl => .interTokenLatencyMs
  | .tpot => .tpotMs

def latencySeries : LatencyDimension → LatencyMode → EngineSeriesName
  | .ttft, .avg => .ttft
  | .ttft, .p50 => .ttftP50
  | .ttft, .p95 => .ttftP95
  | .ttft, .p99 => .ttftP99
  | .itl, .avg => .interTokenLatency
  | .itl, .p50 => .itlP50
  | .itl, .p95 => .itlP95
  | .itl, .p99 => .itlP99
  | .e2e, .avg => .e2eLatency
  | .e2e, .p50 => .e2eP50
  | .e2e, .p95 => .e2eP95
  | .e2e, .p99 => .e2eP99
  | .tpot, .avg => .tpot
  | .tpot, .p50 => .tpotP50
  | .tpot, .p95 => .tpotP95
  | .tpot, .p99 => .tpotP99

section Rendered

variable (readings : EngineReadings) (store : MetricsHistoryStore) (window : TimeWindow)

def tile (spec : TileSpec) : Tile :=
  if readings.reports spec.group then
    .figure (readings.metric.number spec.field) ((spec.line.map (readings.series store window)).getD [])
  else .notReported

/-- A tile that is hidden while its count is nought. -/
def pressureTile (field : NumericEngineMetric) : Option Tile :=
  if readings.reports .preemptions then
    match readings.metric.number field with
    | some count => if 0 < count then some (.figure (some count) []) else none
    | none => none
  else some .notReported

/-- A latency's tile under its label: a mean that stands in for a percentile says so. -/
def latencyTile (mode : LatencyMode) (dimension : LatencyDimension) : Utf16 × Tile :=
  match shownLatencyStatistic mode (reportedLatencyStatistics dimension readings.reports) with
  | none => (latencyLabel dimension, .notReported)
  | some statistic =>
    (if statistic = mode then latencyLabel dimension else latencyLabel dimension ++ utf16 " mean",
      .figure (pickLatencyValue statistic (readings.metric.number (latencyMean dimension))
        (readings.metric.percentiles dimension)) (readings.series store window (latencySeries dimension statistic)))

end Rendered

inductive SpecDecodeBody where
  | notUsed
  | notDrafted
  | figures (acceptanceRate acceptanceRateLive meanAcceptanceLength acceptedTokens draftTokens : Option ℚ)

/-- The fields that speak for a drafter. -/
def specDecodeEvidence : List NumericEngineMetric :=
  [.specDecodeDraftTokensTotal, .specDecodeDraftsTotal, .specDecodeAcceptanceRate, .specDecodeMeanAcceptanceLength]

def specDecodePanel (metric : EngineMetricReader) : SpecDecodeBody :=
  let draftTokens := metric.number .specDecodeDraftTokensTotal
  let drafts := metric.number .specDecodeDraftsTotal
  let acceptanceRate := metric.number .specDecodeAcceptanceRate
  let meanAcceptanceLength := metric.number .specDecodeMeanAcceptanceLength
  if specDecodeEvidence.all fun key => (metric.number key).isNone then .notUsed
  else if ¬(0 < draftTokens.getD 0 ∨ 0 < drafts.getD 0) ∧ acceptanceRate = none ∧ meanAcceptanceLength = none then
    .notDrafted
  else
    .figures acceptanceRate (metric.number .specDecodeAcceptanceRateLive) meanAcceptanceLength
      (metric.number .specDecodeAcceptedTokensTotal) draftTokens

theorem engineAvailability_ready {engine : ServedEngine} (h : engineAvailability engine = .ready) :
    ¬ engine.model.isNone = true ∧ ∃ metrics, engine.metrics = some metrics := by
  rw [engineAvailability] at h
  split at h
  · cases h
  · cases h
  · split at h
    · cases h
    · rename_i hmodel
      split at h
      · cases h
      · rename_i hmetrics
        exact ⟨hmodel, Option.ne_none_iff_exists'.mp fun hnone => hmetrics (Option.isNone_iff_eq_none.mpr hnone)⟩

theorem resolveEngineBinding_mem {α : Type*} {endpointOf : α → Utf16} {binding : PanelBinding} {engines : List α}
    {pageTarget : Option PageEngineTarget} {target : α}
    (h : resolveEngineBinding endpointOf binding engines pageTarget = .single (.resolved target)) :
    target ∈ engines := by
  cases binding with
  | follow =>
    cases pageTarget with
    | none => cases h
    | some named =>
      cases named with
      | all => cases h
      | engine endpoint => exact (engineAt_resolved (EngineBindingResolution.single.inj h)).1
  | engine endpoint => exact (engineAt_resolved (EngineBindingResolution.single.inj h)).1
  | gpu index => cases h
  | unreadable => cases h

theorem mem_of_useEngineTarget {binding : PanelBinding} {host : HostSnapshot} {chosen : SelectedTargets}
    {source : Option PageSource} {engine : ServedEngine} {multiEngine : Bool}
    (h : useEngineTarget binding (some host) chosen source = .resolved engine multiEngine) :
    engine.toEngineSnapshot ∈ host.metrics.engines := by
  rw [useEngineTarget] at h
  split at h
  · dsimp only at h
    split at h <;> cases h
  · rename_i target hresolved
    cases h
    rw [host.engines_eq]
    exact List.mem_map_of_mem (resolveEngineBinding_mem hresolved)
  · cases h
  · cases h
  · cases h

/-- What a panel reads its figures from, where it shows any. -/
def EnginePanelResolution.readings : EnginePanelResolution → Option EngineReadings
  | .resolved _ _ readings => some readings
  | .aggregate _ _ readings _ => some readings
  | _ => none

section Agreement

variable {earlier : List MetricsSnapshot} {latest : MetricsSnapshot}

/-- The readings are of these metrics, the latest of the engine or aggregate whose series they read. -/
structure Drawn (snapshots : List MetricsSnapshot) (latest : MetricsSnapshot) (store : MetricsHistoryStore)
    (window : TimeWindow) (readings : EngineReadings) (metrics : EngineMetrics) : Prop where
  metric : readings.metric = .of (some metrics)
  line : ∀ name, ∃ old, (∀ dp ∈ old, dp.timestamp < latest.timestampMs) ∧
    readings.series store window name = charted snapshots (old ++ point latest.timestampMs (name.sample metrics)) window

theorem Drawn.agrees {store : MetricsHistoryStore} {window : TimeWindow} {readings : EngineReadings}
    {metrics : EngineMetrics} (h : Drawn (earlier ++ [latest]) latest store window readings metrics)
    (name : EngineSeriesName) : Agrees latest (name.sample metrics) (readings.series store window name) := by
  obtain ⟨old, hold, hline⟩ := h.line name
  rw [hline]
  exact (continues_charted hold _ window).agrees

/-- Whose figures a panel shows: those of an engine of the latest snapshot, or of all of them together. -/
inductive FiguresOf (latest : MetricsSnapshot) :
    EnginePanelResolution → EngineReadings → EngineMetrics → Prop where
  | engine {engine : ServedEngine} {multiEngine : Bool} {readings : EngineReadings} {metrics : EngineMetrics}
      (listed : engine.toEngineSnapshot ∈ latest.engines) (served : engine.metrics = some metrics)
      (reports : ∀ g, readings.reports g = true ↔ g ∈ reportedMetricGroups engine.toEngineSnapshot) :
      FiguresOf latest (.resolved engine multiEngine readings) readings metrics
  | all {running total : Nat} {readings : EngineReadings} {coverage : GroupCoverage} {metrics : EngineMetrics}
      (combined : aggregateEngineMetrics latest.engines = some metrics)
      (reports : ∀ g, readings.reports g = true ↔ ∃ e ∈ latest.engines, includedIn e g = true) :
      FiguresOf latest (.aggregate running total readings coverage) readings metrics

/-- A group is covered where some engine is included in it. -/
theorem included_pos_iff (engines : List Browser.EngineSnapshot) (g : MetricGroup) :
    0 < (aggregateEngines engines).coverage.included g ↔ ∃ e ∈ engines, includedIn e g = true := by
  have hincluded : (aggregateEngines engines).coverage.included g =
      (engines.filter (includedIn · g)).length := by
    rw [aggregateEngines_eq, ← filter_runningEngines]
    rfl
  rw [hincluded, List.length_pos_iff_exists_mem]
  exact exists_congr fun e => List.mem_filter

section Targets

variable {store : MetricsHistoryStore} (hingested : store.Ingested (earlier ++ [latest]))
  (hascending : MetricsHistoryStore.Ascending (earlier ++ [latest]))

include hingested hascending

theorem drawn_engine (hdistinct : (latest.engines.map Browser.EngineSnapshot.identity).Nodup)
    {engine : Browser.EngineSnapshot} (hengine : engine ∈ latest.engines) {metrics : EngineMetrics}
    (hmetrics : engine.metrics = some metrics) (window : TimeWindow) (reports : MetricGroup → Bool) :
    Drawn (earlier ++ [latest]) latest store window ⟨.of (some metrics), engineKey engine.identity, reports⟩
      metrics := by
  refine ⟨rfl, fun name => ⟨engineSamples earlier engine.identity name, ?_, ?_⟩⟩
  · refine timestamp_of_mem_flatMap (fun m dp hdp => ?_) hascending
    obtain ⟨e, -, hdp⟩ := List.mem_flatMap.mp hdp
    exact timestamp_of_mem_point dp hdp
  · have hkey : engineKey engine.identity ≠ [] := by simp [engineKey, utf16]
    have honly : (latest.engines.filter fun e => decide (e.identity = engine.identity)) = [engine] :=
      Library.Distinct.filter_key_eq_singleton hdistinct hengine
    have hlatest : engineSamples (earlier ++ [latest]) engine.identity name =
        engineSamples earlier engine.identity name ++ point latest.timestampMs (name.sample metrics) := by
      rw [engineSamples, List.flatMap_append, List.flatMap_singleton, honly, List.flatMap_singleton, hmetrics]
      rfl
    rw [← hlatest, ← samplesAt_log_engine]
    exact hingested.getChartData (placeOf_engineSeries hkey name) window

theorem drawn_aggregate {metrics : EngineMetrics} (hmetrics : aggregateEngineMetrics latest.engines = some metrics)
    (window : TimeWindow) (reports : MetricGroup → Bool) :
    Drawn (earlier ++ [latest]) latest store window ⟨.of (some metrics), allEnginesKey, reports⟩ metrics := by
  refine ⟨rfl, fun name => ⟨aggregateSamples earlier name, ?_, ?_⟩⟩
  · exact timestamp_of_mem_flatMap (fun m dp hdp => timestamp_of_mem_point dp hdp) hascending
  · have hkey : allEnginesKey ≠ [] := List.cons_ne_nil _ _
    have hlatest : aggregateSamples (earlier ++ [latest]) name =
        aggregateSamples earlier name ++ point latest.timestampMs (name.sample metrics) := by
      rw [aggregateSamples, List.flatMap_append, List.flatMap_singleton, hmetrics]
      rfl
    rw [← hlatest, ← samplesAt_log_aggregate]
    exact hingested.getChartData (placeOf_engineSeries hkey name) window

theorem drawn_singlePanel (hdistinct : (latest.engines.map Browser.EngineSnapshot.identity).Nodup)
    {engine : ServedEngine} (hengine : engine.toEngineSnapshot ∈ latest.engines) {groups : List MetricGroup}
    {multiEngine : Bool} {readings : EngineReadings}
    (hreadings : (singlePanel groups engine multiEngine).readings = some readings) (window : TimeWindow) :
    ∃ metrics, FiguresOf latest (singlePanel groups engine multiEngine) readings metrics ∧
      Drawn (earlier ++ [latest]) latest store window readings metrics := by
  have hsays := says_singlePanel groups engine multiEngine
  cases hpanel : singlePanel groups engine multiEngine with
  | resolved target multi readings' =>
    rw [hpanel] at hreadings hsays
    obtain rfl : readings' = readings := Option.some.inj hreadings
    obtain ⟨rfl, -, hready, rfl⟩ := hsays
    obtain ⟨hmodel, metrics, hmetrics⟩ := engineAvailability_ready hready
    refine ⟨metrics, .engine hengine hmetrics fun g => List.contains_iff_mem, ?_⟩
    rw [engineMetricReader, if_neg hmodel, hmetrics]
    exact drawn_engine hingested hascending hdistinct hengine hmetrics window _
  | aggregate running total readings' coverage =>
    rw [hpanel] at hsays
    exact hsays.elim
  | _ =>
    rw [hpanel] at hreadings
    cases hreadings

theorem drawn_aggregatePanel {groups : List MetricGroup} {running total : Nat} {readings : EngineReadings}
    (hreadings : (aggregatePanel groups latest.engines running total).readings = some readings) (window : TimeWindow) :
    ∃ metrics, FiguresOf latest (aggregatePanel groups latest.engines running total) readings metrics ∧
      Drawn (earlier ++ [latest]) latest store window readings metrics := by
  rw [aggregatePanel] at hreadings ⊢
  split at hreadings
  · cases hreadings
  · rename_i metrics hmetrics
    dsimp only at hreadings ⊢
    split at hreadings
    · cases hreadings
    · rename_i hcovered
      rw [if_neg hcovered]
      cases hreadings
      refine ⟨metrics, .all hmetrics fun g => ?_, drawn_aggregate hingested hascending hmetrics window _⟩
      rw [decide_eq_true_iff]
      exact included_pos_iff latest.engines g

theorem drawn_enginePanel (hdistinct : (latest.engines.map Browser.EngineSnapshot.identity).Nodup)
    {host : HostSnapshot} (hhost : host.metrics = latest) {groups : List MetricGroup} {binding : PanelBinding}
    {chosen : SelectedTargets} {source : Option PageSource} {readings : EngineReadings}
    (hreadings : (useEnginePanel groups (some host) (useEngineTarget binding (some host) chosen source)).readings =
      some readings) (window : TimeWindow) :
    ∃ metrics,
      FiguresOf latest (useEnginePanel groups (some host) (useEngineTarget binding (some host) chosen source)) readings
        metrics ∧
      Drawn (earlier ++ [latest]) latest store window readings metrics := by
  cases htarget : useEngineTarget binding (some host) chosen source with
  | resolved engine multiEngine =>
    rw [htarget] at hreadings
    have hlisted := mem_of_useEngineTarget htarget
    rw [hhost] at hlisted
    exact drawn_singlePanel hingested hascending hdistinct hlisted hreadings window
  | aggregate running total =>
    rw [htarget] at hreadings
    subst hhost
    exact drawn_aggregatePanel hingested hascending hreadings window
  | _ =>
    rw [htarget] at hreadings
    cases hreadings

end Targets

section Shown

variable (latest : MetricsSnapshot) (metrics : EngineMetrics) (readings : EngineReadings)

/-- A tile without its figure is of a group that is not reported. -/
def TileShown (spec : TileSpec) : Tile → Prop
  | .notReported => readings.reports spec.group = false
  | .figure value line => readings.reports spec.group = true ∧ value = metrics.number spec.field ∧
    (if spec.line.isSome then Agrees latest value line else line = [])

/-- A hidden tile has nothing to tell of. -/
def PressureShown (field : NumericEngineMetric) : Option Tile → Prop
  | none => readings.reports .preemptions = true ∧ ∀ count, metrics.number field = some count → count ≤ 0
  | some .notReported => readings.reports .preemptions = false
  | some (.figure value line) => readings.reports .preemptions = true ∧ value = metrics.number field ∧ line = [] ∧
    ∃ count, value = some count ∧ 0 < count

/-- The statistic a label names is reported, and is what is shown. -/
def LatencyShown (mode : LatencyMode) (d : LatencyDimension) (label : Utf16) : Tile → Prop
  | .notReported => label = latencyLabel d ∧ readings.reports d.meanGroup = false ∧
    readings.reports (mode.group d) = false
  | .figure value line => Agrees latest value line ∧
    (label = latencyLabel d ∧ readings.reports (mode.group d) = true ∧
        value = pickLatencyValue mode (metrics.number (latencyMean d)) (metrics.percentiles d) ∨
      label = latencyLabel d ++ utf16 " mean" ∧ readings.reports (mode.group d) = false ∧
        readings.reports d.meanGroup = true ∧ value = metrics.number (latencyMean d))

/-- No drafter, a drafter that has drafted nothing, or what it has drafted. -/
def SpecDecodeShown (number : NumericEngineMetric → Option ℚ) : SpecDecodeBody → Prop
  | .notUsed => ∀ key ∈ specDecodeEvidence, number key = none
  | .notDrafted => (∃ key ∈ specDecodeEvidence, number key ≠ none) ∧
    number .specDecodeAcceptanceRate = none ∧ number .specDecodeMeanAcceptanceLength = none ∧
    ∀ key ∈ [NumericEngineMetric.specDecodeDraftTokensTotal, .specDecodeDraftsTotal],
      ∀ drafted, number key = some drafted → drafted ≤ 0
  | .figures acceptanceRate acceptanceRateLive meanAcceptanceLength acceptedTokens draftTokens =>
    acceptanceRate = number .specDecodeAcceptanceRate ∧
    acceptanceRateLive = number .specDecodeAcceptanceRateLive ∧
    meanAcceptanceLength = number .specDecodeMeanAcceptanceLength ∧
    acceptedTokens = number .specDecodeAcceptedTokensTotal ∧
    draftTokens = number .specDecodeDraftTokensTotal ∧
    ∃ key ∈ specDecodeEvidence, number key ≠ none

/-- What a panel of a type shows on a store, of the metrics it reads. -/
structure PanelShown (store : MetricsHistoryStore) (window : TimeWindow) (type : PanelType) : Prop where
  filed : ∀ spec ∈ type.tiles, spec.group = spec.field.group
  tiles : ∀ spec ∈ type.tiles, TileShown latest metrics readings spec (tile readings store window spec)
  pressure : ∀ field ∈ type.pressure,
    field.group = .preemptions ∧ PressureShown metrics readings field (pressureTile readings field)
  latencies : ∀ mode d, LatencyShown latest metrics readings mode d (latencyTile readings store window mode d).1
    (latencyTile readings store window mode d).2
  specDecode : SpecDecodeShown metrics.number (specDecodePanel readings.metric)

/-- What no engine enters into the combined figures is not among them. -/
structure Combined : Prop where
  number : ∀ key, readings.reports key.group = false → metrics.number key = none
  percentiles : ∀ d, readings.reports d.percentilesGroup = false → metrics.percentiles d = none
  buckets : ∀ d, metrics.buckets d = none
  kvCacheIsEstimated : readings.reports .kvCache = false → metrics.kvCacheIsEstimated = false
  specDecode : (∀ e ∈ latest.engines, includedIn e .speculativeDecoding = true → ∀ own, e.metrics = some own →
    specDecodePanel (.of (some own)) = .notUsed) → specDecodePanel readings.metric = .notUsed

end Shown

theorem sample_latencySeries (metrics : EngineMetrics) (d : LatencyDimension) (statistic : LatencyMode) :
    (latencySeries d statistic).sample metrics =
      pickLatencyValue statistic (metrics.number (latencyMean d)) (metrics.percentiles d) := by
  cases d <;> cases statistic <;> rfl

theorem sample_of_mem_tiles (metrics : EngineMetrics) (type : PanelType) :
    ∀ spec ∈ type.tiles, spec.group = spec.field.group ∧
      ∀ name, spec.line = some name → name.sample metrics = metrics.number spec.field := by
  cases type <;>
    simp [PanelType.tiles, throughputTiles, prefill, decode, NumericEngineMetric.group, EngineSeriesName.sample]

theorem group_of_mem_pressure {type : PanelType} {field : NumericEngineMetric} (h : field ∈ type.pressure) :
    field.group = .preemptions := by
  cases type <;> simp only [PanelType.pressure, List.mem_cons, List.not_mem_nil, or_false] at h
  rcases h with rfl | rfl <;> rfl

theorem LatencyMode.group_avg (d : LatencyDimension) : LatencyMode.group .avg d = d.meanGroup := if_pos rfl

theorem shownLatencyStatistic_cases (mode : LatencyMode) (d : LatencyDimension) (reports : MetricGroup → Bool) :
    let shown := shownLatencyStatistic mode (reportedLatencyStatistics d reports)
    (shown = some mode ∧ reports (mode.group d) = true) ∨
    (shown = some .avg ∧ mode ≠ .avg ∧ reports (mode.group d) = false ∧ reports d.meanGroup = true) ∨
    (shown = none ∧ reports (mode.group d) = false ∧ reports d.meanGroup = false) := by
  intro shown
  rcases eq_or_ne mode .avg with rfl | hne
  · have hshown : shown = if reports d.meanGroup then some .avg else none := rfl
    rw [LatencyMode.group_avg, hshown]
    cases reports d.meanGroup with
    | true => exact .inl ⟨rfl, rfl⟩
    | false => exact .inr (.inr ⟨rfl, rfl, rfl⟩)
  · have hshown : shown = if reports d.percentilesGroup then some mode
        else if reports d.meanGroup then some .avg else none := by
      simp only [shown, shownLatencyStatistic, reportedLatencyStatistics, ne_eq, hne, not_false_eq_true, true_and]
      rfl
    have hgroup : mode.group d = d.percentilesGroup := if_neg hne
    rw [hgroup, hshown]
    cases reports d.percentilesGroup with
    | true => exact .inl ⟨rfl, rfl⟩
    | false =>
      cases reports d.meanGroup with
      | true => exact .inr (.inl ⟨rfl, hne, rfl, rfl⟩)
      | false => exact .inr (.inr ⟨rfl, rfl, rfl⟩)

section PanelShown

variable {metrics : EngineMetrics} {readings : EngineReadings} {store : MetricsHistoryStore} {window : TimeWindow}
  {snapshots : List MetricsSnapshot} (hdrawn : Drawn (earlier ++ [latest]) latest store window readings metrics)

include hdrawn

theorem tileShown {type : PanelType} {spec : TileSpec} (hspec : spec ∈ type.tiles) :
    TileShown latest metrics readings spec (tile readings store window spec) := by
  rw [tile, hdrawn.metric]
  split
  · rename_i hreports
    refine ⟨hreports, rfl, ?_⟩
    cases hline : spec.line with
    | none => rfl
    | some name =>
      have hagrees := hdrawn.agrees name
      rw [(sample_of_mem_tiles metrics type spec hspec).2 name hline] at hagrees
      exact hagrees
  · rename_i hreports
    exact (Bool.not_eq_true _).mp hreports

theorem pressureShown (field : NumericEngineMetric) :
    PressureShown metrics readings field (pressureTile readings field) := by
  have hnumber : readings.metric.number field = metrics.number field := by
    rw [hdrawn.metric]
    rfl
  rw [pressureTile, hnumber]
  split
  · rename_i hreports
    cases hcount : metrics.number field with
    | none => exact ⟨hreports, fun count h => by cases hcount.symm.trans h⟩
    | some count =>
      dsimp only
      split
      · rename_i hpos
        exact ⟨hreports, hcount.symm, rfl, count, rfl, hpos⟩
      · rename_i hnot
        refine ⟨hreports, fun other hother => ?_⟩
        obtain rfl := Option.some.inj (hcount.symm.trans hother)
        exact not_lt.mp hnot
  · rename_i hreports
    exact (Bool.not_eq_true _).mp hreports

theorem latencyShown (mode : LatencyMode) (d : LatencyDimension) :
    LatencyShown latest metrics readings mode d (latencyTile readings store window mode d).1
      (latencyTile readings store window mode d).2 := by
  have hagrees : ∀ statistic, Agrees latest
      (pickLatencyValue statistic (metrics.number (latencyMean d)) (metrics.percentiles d))
      (readings.series store window (latencySeries d statistic)) := by
    intro statistic
    rw [← sample_latencySeries]
    exact hdrawn.agrees (latencySeries d statistic)
  rw [latencyTile, hdrawn.metric]
  rcases shownLatencyStatistic_cases mode d readings.reports with
    ⟨hshown, hreports⟩ | ⟨hshown, hmode, hnot, hmeans⟩ | ⟨hshown, hnot, hmeans⟩
  · rw [hshown]
    exact ⟨hagrees mode, .inl ⟨if_pos rfl, hreports, rfl⟩⟩
  · rw [hshown]
    exact ⟨hagrees .avg, .inr ⟨if_neg hmode.symm, hnot, hmeans, rfl⟩⟩
  · rw [hshown]
    exact ⟨rfl, hmeans, hnot⟩

end PanelShown

section SpecDecode

variable {metric : EngineMetricReader}

theorem exists_specDecodeEvidence (h : ¬ (specDecodeEvidence.all fun key => (metric.number key).isNone) = true) :
    ∃ key ∈ specDecodeEvidence, metric.number key ≠ none := by
  by_contra hsilent
  refine h (List.all_eq_true.mpr fun key hkey => Option.isNone_iff_eq_none.mpr ?_)
  by_contra hne
  exact hsilent ⟨key, hkey, hne⟩

theorem specDecodeShown (metric : EngineMetricReader) : SpecDecodeShown metric.number (specDecodePanel metric) := by
  rw [specDecodePanel]
  split
  · rename_i hnone
    intro key hkey
    exact Option.isNone_iff_eq_none.mp (List.all_eq_true.mp hnone key hkey)
  · rename_i hsome
    split
    · rename_i hidle
      obtain ⟨hdrafted, hrate, hlength⟩ := hidle
      rw [not_or, not_lt, not_lt] at hdrafted
      refine ⟨exists_specDecodeEvidence hsome, hrate, hlength, ?_⟩
      intro key hkey drafted hcount
      rcases List.mem_pair.mp hkey with rfl | rfl
      · have htokens := hdrafted.1
        rwa [hcount, Option.getD_some] at htokens
      · have hrounds := hdrafted.2
        rwa [hcount, Option.getD_some] at hrounds
    · exact ⟨rfl, rfl, rfl, rfl, rfl, exists_specDecodeEvidence hsome⟩

theorem specDecodePanel_notUsed_iff :
    specDecodePanel metric = .notUsed ↔ ∀ key ∈ specDecodeEvidence, metric.number key = none := by
  have hshown := specDecodeShown metric
  cases hbody : specDecodePanel metric with
  | notUsed =>
    rw [hbody] at hshown
    exact iff_of_true rfl hshown
  | notDrafted =>
    rw [hbody] at hshown
    obtain ⟨⟨key, hkey, hne⟩, -⟩ := hshown
    exact iff_of_false nofun fun hnone => hne (hnone key hkey)
  | figures acceptanceRate acceptanceRateLive meanAcceptanceLength acceptedTokens draftTokens =>
    rw [hbody] at hshown
    obtain ⟨-, -, -, -, -, key, hkey, hne⟩ := hshown
    exact iff_of_false nofun fun hnone => hne (hnone key hkey)

theorem weightedMeanOrNull_eq_none {items : List Weighted} (h : ∀ item ∈ items, item.value = none) :
    weightedMeanOrNull items = none := by
  have hpresent : items.filterMap Weighted.present = [] := by
    rw [List.filterMap_eq_nil_iff]
    intro item hitem
    rw [Weighted.present, h item hitem, Option.map_none]
  rw [weightedMeanOrNull_eq, hpresent]
  rfl

theorem sumOrNull_eq_none {values : List (Option ℚ)} (h : ∀ value ∈ values, value = none) :
    sumOrNull values = none := by
  have hpresent : values.filterMap id = [] := List.filterMap_eq_nil_iff.mpr h
  rw [sumOrNull_eq, hpresent]
  rfl

theorem withFigureOnlyEngines_eq_none {running : List Browser.EngineSnapshot} {key : NumericEngineMetric}
    (h : ∀ value ∈ getNumber running key, value = none) : withFigureOnlyEngines running none key = none := by
  apply weightedMeanOrNull_eq_none
  intro item hitem
  rcases List.mem_cons.mp hitem with rfl | hfigure
  · rfl
  · rw [← List.map_uncurry_zip_eq_zipWith] at hfigure
    obtain ⟨⟨figure, rounds⟩, hpair, rfl⟩ := List.mem_map.mp hfigure
    have hmem := (List.of_mem_zip hpair).1
    rw [← List.map_uncurry_zip_eq_zipWith] at hmem
    obtain ⟨⟨value, accepted⟩, hvalue, rfl⟩ := List.mem_map.mp hmem
    have hnone := h value (List.of_mem_zip hvalue).1
    simp only [Function.uncurry_apply_pair, hnone, ite_self]

/-- Engines of which none speaks for a drafter do not speak for one together. -/
theorem aggregateNumber_specDecode {running : List Browser.EngineSnapshot}
    (h : ∀ key ∈ specDecodeEvidence, ∀ value ∈ getNumber running key, value = none) :
    ∀ key ∈ specDecodeEvidence, aggregateNumber running key = none := by
  have htokens : specDraftTokens running = none := sumOrNull_eq_none (h _ (by decide))
  have hrounds : sumOrNull (draftRounds running) = none := sumOrNull_eq_none (h _ (by decide))
  have hpooled : pooledRounds running = none := by
    apply sumOrNull_eq_none
    intro value hvalue
    obtain ⟨⟨rounds, accepted⟩, hpair, hread⟩ := List.mem_filterMap.mp hvalue
    have hnone := h .specDecodeDraftsTotal (by decide) rounds (List.of_mem_zip hpair).1
    dsimp only at hread
    split at hread
    · rw [← Option.some.inj hread, hnone]
    · cases hread
  have hratio : ∀ num scale, ratio num none scale = none := fun num scale => by cases num <;> rfl
  intro key hkey
  simp only [specDecodeEvidence, List.mem_cons, List.not_mem_nil, or_false] at hkey
  rcases hkey with rfl | rfl | rfl | rfl
  · exact htokens
  · exact hrounds
  · rw [aggregateNumber, htokens, hratio]
    exact withFigureOnlyEngines_eq_none (h _ (by decide))
  · rw [aggregateNumber, hpooled, hratio]
    exact withFigureOnlyEngines_eq_none (h _ (by decide))

end SpecDecode

section Combined

variable {engines : List Browser.EngineSnapshot} {metrics : EngineMetrics}

theorem aggregateEngineMetrics_eq (h : aggregateEngineMetrics engines = some metrics) :
    metrics = { number := (aggregateEngines engines).number, percentiles := (aggregateEngines engines).percentiles,
                kvCacheIsEstimated := (aggregateEngines engines).kvCacheIsEstimated } := by
  rw [aggregateEngineMetrics, asEngineMetrics] at h
  split at h
  · cases h
  · exact (Option.some.inj h).symm

/-- Of a group no engine enters, the figures are those of no engines. -/
theorem sameFigures_of_not_included {g : MetricGroup} (h : ¬ ∃ e ∈ engines, includedIn e g = true) :
    SameFigures g (aggregateEngines engines) (aggregateEngines []) := by
  apply sameFigures_of_sameIncluded
  have hempty : engines.filter (includedIn · g) = [] :=
    List.filter_eq_nil_iff.mpr fun e he hincluded => h ⟨e, he, hincluded⟩
  rw [SameIncluded, hempty]
  exact List.Perm.nil

theorem specDecode_number {key : NumericEngineMetric} (h : key ∈ specDecodeEvidence) :
    key.group = .speculativeDecoding := by
  simp only [specDecodeEvidence, List.mem_cons, List.not_mem_nil, or_false] at h
  rcases h with rfl | rfl | rfl | rfl <;> rfl

theorem combined {readings : EngineReadings} (hcombined : aggregateEngineMetrics latest.engines = some metrics)
    (hmetric : readings.metric = .of (some metrics))
    (hreports : ∀ g, readings.reports g = true ↔ ∃ e ∈ latest.engines, includedIn e g = true) :
    Combined latest metrics readings := by
  have hsilent : ∀ g, readings.reports g = false → ¬ ∃ e ∈ latest.engines, includedIn e g = true :=
    fun g hg hincluded => Bool.noConfusion (hg.symm.trans ((hreports g).mpr hincluded))
  obtain rfl := aggregateEngineMetrics_eq hcombined
  refine ⟨fun key hkey => ?_, fun d hd => ?_, fun _ => rfl, fun hkv => ?_, fun hown => ?_⟩
  · exact (sameFigures_of_not_included (hsilent _ hkey)).number key rfl
  · exact (sameFigures_of_not_included (hsilent _ hd)).percentiles d rfl
  · exact (sameFigures_of_not_included (hsilent _ hkv)).kvCacheIsEstimated rfl
  · rw [hmetric, specDecodePanel_notUsed_iff]
    have hnumber : (aggregateEngines latest.engines).number = aggregateNumber (runningEngines latest.engines) := by
      rw [aggregateEngines_eq]
    intro key hkey
    show (aggregateEngines latest.engines).number key = none
    rw [hnumber]
    refine aggregateNumber_specDecode (fun key hkey value hvalue => ?_) key hkey
    obtain ⟨e, he, rfl⟩ := List.mem_map.mp hvalue
    rw [specDecode_number hkey]
    split
    · rename_i hincluded
      cases hmetrics : e.metrics with
      | none => rfl
      | some own =>
        exact specDecodePanel_notUsed_iff.mp (hown e (List.mem_of_mem_filter he) hincluded own hmetrics) key hkey
    · rfl

end Combined

/-- Whatever an engine panel shows on a live page, over any history of the store, is of an engine of the
latest snapshot or of all of them: every tile asks about the group its field is filed under and shows
the field where that is reported, its line ends with its value at the latest snapshot and, where it has
none, before; a latency is under a label that says which statistic it is; and what no engine enters into
the combined figures is null. -/
theorem tiles_and_lines_agree (events : List HistoryEvent) (earlier : List MetricsSnapshot) (host : HostSnapshot)
    (hevents : events.filterMap HistoryEvent.snapshot = earlier ++ [host.metrics])
    (hascending : MetricsHistoryStore.Ascending (earlier ++ [host.metrics]))
    (hdistinct : (host.metrics.engines.map Browser.EngineSnapshot.identity).Nodup) (type : PanelType)
    (binding : PanelBinding) (chosen : SelectedTargets) (source : Option PageSource) (window : TimeWindow) :
    let store := final historyStep {} events
    let panel := useEnginePanel type.metricGroups (some host) (useEngineTarget binding (some host) chosen source)
    ∀ readings, panel.readings = some readings → ∃ metrics, FiguresOf host.metrics panel readings metrics ∧
      PanelShown host.metrics metrics readings store window type ∧
      ∀ running total coverage, panel = .aggregate running total readings coverage →
        Combined host.metrics metrics readings := by
  intro store panel readings hreadings
  have hingested : store.Ingested (earlier ++ [host.metrics]) := by
    have hfinal := MetricsHistoryStore.ingested_final MetricsHistoryStore.ingested_new events
      (by rw [List.nil_append, hevents]; exact hascending)
    rwa [List.nil_append, hevents] at hfinal
  obtain ⟨metrics, hfigures, hdrawn⟩ := drawn_enginePanel hingested hascending hdistinct rfl hreadings window
  have hspecDecode := specDecodeShown readings.metric
  refine ⟨metrics, hfigures, ?_, ?_⟩
  · have hnumber : readings.metric.number = metrics.number := by
      rw [hdrawn.metric]
      rfl
    rw [hnumber] at hspecDecode
    exact ⟨fun spec hspec => (sample_of_mem_tiles metrics type spec hspec).1, fun spec => tileShown hdrawn,
      fun field hfield => ⟨group_of_mem_pressure hfield, pressureShown hdrawn field⟩, latencyShown hdrawn, hspecDecode⟩
  · intro running total coverage hpanel
    have hall : FiguresOf host.metrics panel readings metrics := hfigures
    rw [hpanel] at hall
    cases hall with
    | all hcombined hreports => exact combined hcombined hdrawn.metric hreports

/-- The latest of `busyEvents`, with the model its engine serves. -/
def busyHost : HostSnapshot where
  metrics := busySnapshot 400000 7
  engines := (busySnapshot 400000 7).engines.map fun e => ⟨e, some (.named "served")⟩
  engines_eq := rfl

def busyPanel : EnginePanelResolution :=
  useEnginePanel PanelType.engineDecodeThroughput.metricGroups (some busyHost)
    (useEngineTarget .follow (some busyHost) {} none)

theorem tiles_and_lines_agree_busy :
    ∃ readings metrics, busyPanel.readings = some readings ∧
      FiguresOf busyHost.metrics busyPanel readings metrics ∧
      PanelShown busyHost.metrics metrics readings (final historyStep {} busyEvents) .fiveMinutes
        .engineDecodeThroughput := by
  have hearlier : (1000 : ℚ) < 400000 := by norm_num
  have hascending : MetricsHistoryStore.Ascending ([busySnapshot 1000 5] ++ [busyHost.metrics]) := by
    refine ⟨?_, List.pairwise_pair.mpr hearlier⟩
    intro m hm
    rcases List.mem_pair.mp hm with rfl | rfl
    · exact (by norm_num : (0 : ℚ) < 1000)
    · exact (by norm_num : (0 : ℚ) < 400000)
  obtain ⟨metrics, hfigures, hshown, -⟩ := tiles_and_lines_agree busyEvents [busySnapshot 1000 5] busyHost rfl
    hascending (List.nodup_singleton _) .engineDecodeThroughput .follow {} none .fiveMinutes _ rfl
  exact ⟨_, metrics, rfl, hfigures, hshown⟩

end Agreement

end SparkDashboard.Dashboard
