import SparkDashboard.Engines.Metrics
import SparkDashboard.Library.Utf16

/-!
# Metrics snapshots as the browser reads them

One snapshot off the metrics socket, and what tells its engines and GPUs apart. Numbers
are exact rationals. The metrics of an engine go by key, as the frontend reads them.
-/

namespace SparkDashboard.Browser

open Engines (EngineStatus EngineType HistogramBucket LatencyPercentiles MetricGroup MetricsError)
open Utf16

inductive NumericEngineMetric where
  | tokensPerSec
  | avgTokensPerSec
  | perRequestTps
  | ttftMs
  | activeRequests
  | queuedRequests
  | kvCachePercent
  | totalRequests
  | e2eLatencyMs
  | promptTokensPerSec
  | avgPromptTokensPerSec
  | perRequestPromptTps
  | swappedRequests
  | prefixCacheHitRate
  | queueTimeMs
  | interTokenLatencyMs
  | preemptionsTotal
  | totalPromptTokens
  | totalGenerationTokens
  | prefixCacheQueriesTotal
  | avgBatchSize
  | ttftGoodputPct
  | itlGoodputPct
  | e2eGoodputPct
  | tpotMs
  | tpotGoodputPct
  | specDecodeDraftTokensTotal
  | specDecodeAcceptedTokensTotal
  | specDecodeDraftsTotal
  | specDecodeAcceptanceRate
  | specDecodeAcceptanceRateLive
  | specDecodeMeanAcceptanceLength
  deriving DecidableEq, Repr

inductive LatencyDimension where
  | ttft
  | e2e
  | itl
  | tpot
  deriving DecidableEq, Repr

structure EngineMetrics where
  number : NumericEngineMetric → Option ℚ := fun _ => none
  percentiles : LatencyDimension → Option LatencyPercentiles := fun _ => none
  buckets : LatencyDimension → Option (List HistogramBucket) := fun _ => none
  kvCacheIsEstimated : Bool := false

structure InferenceRequestData where
  startMs : ℚ
  endMs : ℚ
  tokensPerSec : ℚ
  ttftMs : ℚ
  deriving DecidableEq

structure EngineSnapshot where
  engineType : EngineType
  endpoint : Utf16
  status : EngineStatus := .running
  /-- Absent from a backend that does not declare its groups. -/
  metricGroups : Option (List MetricGroup) := none
  metricsOff : Option Utf16 := none
  metricsError : Option MetricsError := none
  metrics : Option EngineMetrics := none
  recentRequests : List InferenceRequestData := []

structure GpuMetrics where
  index : Option UInt32 := none
  utilizationPercent : Option ℚ := none
  memoryTotalBytes : Option ℚ := none
  memoryUsedBytes : Option ℚ := none
  temperatureCelsius : Option ℚ := none
  powerWatts : Option ℚ := none
  clockGraphicsMhz : Option ℚ := none
  fanSpeedPercent : Option ℚ := none
  pcieRxBytesPerSec : Option ℚ := none
  pcieTxBytesPerSec : Option ℚ := none
  deriving DecidableEq

structure CpuMetrics where
  aggregatePercent : ℚ
  deriving DecidableEq

structure MemoryMetrics where
  totalBytes : ℚ
  usedBytes : ℚ
  deriving DecidableEq

structure DiskMetrics where
  readBytesPerSec : ℚ
  writeBytesPerSec : ℚ
  deriving DecidableEq

structure NetworkMetrics where
  rxBytesPerSec : ℚ
  txBytesPerSec : ℚ
  deriving DecidableEq

structure GpuEventData where
  timestampMs : ℚ
  gpuIndex : Option UInt32
  eventType : Utf16
  detail : Utf16
  deriving DecidableEq

structure MetricsSnapshot where
  timestampMs : ℚ
  gpu : GpuMetrics
  gpus : Option (List GpuMetrics)
  cpu : CpuMetrics
  memory : MemoryMetrics
  disk : DiskMetrics
  network : NetworkMetrics
  engines : List EngineSnapshot
  gpuEvents : List GpuEventData

/-- An engine type as it is spelt on the wire. -/
def engineTypeName : EngineType → Utf16
  | .vllm => utf16 "Vllm"
  | .sglang => utf16 "Sglang"
  | .ollama => utf16 "Ollama"
  | .llamaCpp => utf16 "LlamaCpp"

/-- The fields of an engine snapshot that make up its identity. -/
@[ext] structure EngineIdentity where
  engineType : EngineType
  endpoint : Utf16
  deriving DecidableEq

def EngineSnapshot.identity (engine : EngineSnapshot) : EngineIdentity := ⟨engine.engineType, engine.endpoint⟩

def engineKey (engine : EngineIdentity) : Utf16 := engineTypeName engine.engineType ++ utf16 "-" ++ engine.endpoint

def gpuIndexOf (gpu : GpuMetrics) : UInt32 := gpu.index.getD 0

def snapshotGpus (snapshot : MetricsSnapshot) : List GpuMetrics :=
  match snapshot.gpus with
  | some (gpu :: rest) => gpu :: rest
  | _ => [snapshot.gpu]

theorem hyphen_not_mem_engineTypeName (engineType : EngineType) : 0x2D ∉ engineTypeName engineType := by
  cases engineType <;> decide

theorem engineTypeName_injective : Function.Injective engineTypeName := by
  intro first second h
  cases first <;> cases second <;> first | rfl | exact absurd h (by decide)

/-- The type ends at the first hyphen, so a key names one type and one endpoint. -/
theorem engineKey_injective : Function.Injective engineKey := by
  intro first second h
  rw [engineKey, engineKey, List.append_assoc, List.append_assoc] at h
  obtain ⟨htype, hendpoint⟩ := append_cons_inj_of_not_mem (hyphen_not_mem_engineTypeName first.engineType)
    (hyphen_not_mem_engineTypeName second.engineType) h
  exact EngineIdentity.ext (engineTypeName_injective htype) hendpoint

end SparkDashboard.Browser
