import SparkDashboard.Browser.EngineAggregate
import SparkDashboard.Engines.EngineState

/-!
# Engines on the wire

What the backend publishes of an engine, as the browser gets it, and how the browser reads its
metrics. The backend blanks the fields of the groups an engine does not report; the browser files
its fields by a table of its own.
-/

namespace SparkDashboard.Browser

open Engines (HistogramBucket LatencyPercentiles MetricGroup MetricGroup.all ModelInfo keepReported)
open Utf16

/-- An engine as a panel reads it. -/
structure ServedEngine extends EngineSnapshot where
  model : Option ModelInfo := none

def numberOnWire (m : Engines.EngineMetrics) : NumericEngineMetric → Option ℚ
  | .tokensPerSec => m.tokensPerSec
  | .avgTokensPerSec => m.avgTokensPerSec
  | .perRequestTps => m.perRequestTps
  | .ttftMs => m.ttftMs
  | .activeRequests => m.activeRequests.map Nat.cast
  | .queuedRequests => m.queuedRequests.map Nat.cast
  | .kvCachePercent => m.kvCachePercent
  | .totalRequests => m.totalRequests.map Nat.cast
  | .e2eLatencyMs => m.e2eLatencyMs
  | .promptTokensPerSec => m.promptTokensPerSec
  | .avgPromptTokensPerSec => m.avgPromptTokensPerSec
  | .perRequestPromptTps => m.perRequestPromptTps
  | .swappedRequests => m.swappedRequests.map Nat.cast
  | .prefixCacheHitRate => m.prefixCacheHitRate
  | .queueTimeMs => m.queueTimeMs
  | .interTokenLatencyMs => m.interTokenLatencyMs
  | .preemptionsTotal => m.preemptionsTotal.map Nat.cast
  | .totalPromptTokens => m.totalPromptTokens.map Nat.cast
  | .totalGenerationTokens => m.totalGenerationTokens.map Nat.cast
  | .prefixCacheQueriesTotal => m.prefixCacheQueriesTotal.map Nat.cast
  | .avgBatchSize => m.avgBatchSize
  | .ttftGoodputPct => m.ttftGoodputPct
  | .itlGoodputPct => m.itlGoodputPct
  | .e2eGoodputPct => m.e2eGoodputPct
  | .tpotMs => m.tpotMs
  | .tpotGoodputPct => m.tpotGoodputPct
  | .specDecodeDraftTokensTotal => m.specDecodeDraftTokensTotal.map Nat.cast
  | .specDecodeAcceptedTokensTotal => m.specDecodeAcceptedTokensTotal.map Nat.cast
  | .specDecodeDraftsTotal => m.specDecodeDraftsTotal.map Nat.cast
  | .specDecodeAcceptanceRate => m.specDecodeAcceptanceRate
  | .specDecodeAcceptanceRateLive => m.specDecodeAcceptanceRateLive
  | .specDecodeMeanAcceptanceLength => m.specDecodeMeanAcceptanceLength

def percentilesOnWire (m : Engines.EngineMetrics) : LatencyDimension → Option LatencyPercentiles
  | .ttft => m.ttftPercentiles
  | .e2e => m.e2ePercentiles
  | .itl => m.itlPercentiles
  | .tpot => m.tpotPercentiles

def bucketsOnWire (m : Engines.EngineMetrics) : LatencyDimension → Option (List HistogramBucket)
  | .ttft => m.ttftBuckets
  | .e2e => m.e2eBuckets
  | .itl => m.itlBuckets
  | .tpot => m.tpotBuckets

def metricsOnWire (m : Engines.EngineMetrics) : EngineMetrics where
  number := numberOnWire m
  percentiles := percentilesOnWire m
  buckets := bucketsOnWire m
  kvCacheIsEstimated := m.kvCacheIsEstimated

def textOnWire (text : String) : Utf16 := ofChars text.toList

/-- The groups go in wire order, which is that of their declaration. -/
def onWire (s : Engines.EngineSnapshot) : ServedEngine where
  engineType := s.engineType
  endpoint := textOnWire s.endpoint
  status := s.status
  metricGroups := some (MetricGroup.all.filter fun g => decide (g ∈ s.metricGroups))
  metricsOff := s.metricsOff.map textOnWire
  metricsError := s.metricsError
  metrics := s.metrics.map metricsOnWire
  model := s.model

/-- Reads one field of an engine's metrics, null where there is nothing to read. -/
structure EngineMetricReader where
  number : NumericEngineMetric → Option ℚ
  percentiles : LatencyDimension → Option LatencyPercentiles
  buckets : LatencyDimension → Option (List HistogramBucket)
  kvCacheIsEstimated : Option Bool

def EngineMetricReader.of (metrics : Option EngineMetrics) : EngineMetricReader where
  number := fun key => metrics.bind (·.number key)
  percentiles := fun d => metrics.bind (·.percentiles d)
  buckets := fun d => metrics.bind (·.buckets d)
  kvCacheIsEstimated := metrics.map (·.kvCacheIsEstimated)

/-- The last metrics of an engine without a model are those of one it no longer serves. -/
def engineMetricReader (engine : ServedEngine) : EngineMetricReader :=
  .of (if engine.model.isNone then none else engine.metrics)

inductive EngineAvailability where
  | ready
  | starting
  | offline (detail : Utf16)
  deriving DecidableEq

def notRunningDetail : Utf16 := utf16 "is not running."

def noModelDetail : Utf16 := utf16 "has no model loaded."

def engineAvailability (engine : ServedEngine) : EngineAvailability :=
  match engine.status with
  | .stopped => .offline notRunningDetail
  | .error message => .offline (utf16 "reported an error: " ++ textOnWire message)
  | _ =>
    if engine.model.isNone then .offline noModelDetail
    else if engine.metrics.isNone then .starting
    else .ready

theorem mem_all (g : MetricGroup) : g ∈ MetricGroup.all := by cases g <;> decide

theorem mem_reportedMetricGroups_onWire (s : Engines.EngineSnapshot) (g : MetricGroup) :
    g ∈ reportedMetricGroups (onWire s).toEngineSnapshot ↔ g ∈ s.metricGroups := by
  show g ∈ MetricGroup.all.filter (fun g => decide (g ∈ s.metricGroups)) ↔ _
  rw [List.mem_filter, decide_eq_true_iff]
  exact and_iff_right (mem_all g)

theorem textOnWire_eq_nil {text : String} : textOnWire text = [] ↔ text = "" := by
  rw [← String.toList_eq_nil_iff, textOnWire, ofChars]
  constructor
  · intro h
    cases hchars : text.toList with
    | nil => rfl
    | cons c chars =>
      rw [hchars, List.flatMap_cons] at h
      exact absurd (List.append_eq_nil_iff.mp h).1 (charUnits_ne_nil c)
  · intro h
    rw [h]
    rfl

section Reported

variable (m : Engines.EngineMetrics) (reported : Finset MetricGroup)

theorem map_keepReported {α β : Type} (g : MetricGroup) (field : Option α) (f : α → β) :
    (keepReported reported g field).map f = if g ∈ reported then field.map f else none :=
  apply_ite (Option.map f) (g ∈ reported) field none

/-- The two tables agree: a number is blanked by the backend exactly where the browser files it. -/
theorem number_reportedOnly (key : NumericEngineMetric) :
    (metricsOnWire (m.reportedOnly reported)).number key =
      if key.group ∈ reported then (metricsOnWire m).number key else none := by
  cases key <;> first | rfl | exact map_keepReported reported _ _ _

theorem percentiles_reportedOnly (d : LatencyDimension) :
    (metricsOnWire (m.reportedOnly reported)).percentiles d =
      if d.percentilesGroup ∈ reported then (metricsOnWire m).percentiles d else none := by
  cases d <;> rfl

theorem buckets_reportedOnly (d : LatencyDimension) :
    (metricsOnWire (m.reportedOnly reported)).buckets d =
      if d.percentilesGroup ∈ reported then (metricsOnWire m).buckets d else none := by
  cases d <;> rfl

end Reported

end SparkDashboard.Browser
