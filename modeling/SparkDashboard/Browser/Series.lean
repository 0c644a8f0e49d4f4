import SparkDashboard.Browser.EngineAggregate

/-!
# Series

Every series the dashboard can chart: its key, the sample a snapshot carries for it, and
the place a key stands for once it is taken apart again.
-/

namespace SparkDashboard.Browser

open Utf16

inductive MetricKey where
  | gpuUtil
  | gpuTemp
  | gpuPower
  | gpuClockGraphics
  | gpuMemory
  | gpuFan
  | gpuPcieRx
  | gpuPcieTx
  | cpuAggregate
  | memoryUsedPercent
  | diskRead
  | diskWrite
  | networkRx
  | networkTx
  deriving DecidableEq, Repr

def MetricKey.name : MetricKey → Utf16
  | .gpuUtil => utf16 "gpuUtil"
  | .gpuTemp => utf16 "gpuTemp"
  | .gpuPower => utf16 "gpuPower"
  | .gpuClockGraphics => utf16 "gpuClockGraphics"
  | .gpuMemory => utf16 "gpuMemory"
  | .gpuFan => utf16 "gpuFan"
  | .gpuPcieRx => utf16 "gpuPcieRx"
  | .gpuPcieTx => utf16 "gpuPcieTx"
  | .cpuAggregate => utf16 "cpuAggregate"
  | .memoryUsedPercent => utf16 "memoryUsedPercent"
  | .diskRead => utf16 "diskRead"
  | .diskWrite => utf16 "diskWrite"
  | .networkRx => utf16 "networkRx"
  | .networkTx => utf16 "networkTx"

def gpuMetricKeys : List MetricKey :=
  [.gpuUtil, .gpuTemp, .gpuPower, .gpuClockGraphics, .gpuMemory, .gpuFan, .gpuPcieRx, .gpuPcieTx]

def systemMetricKeys : List MetricKey :=
  gpuMetricKeys ++ [.cpuAggregate, .memoryUsedPercent, .diskRead, .diskWrite, .networkRx, .networkTx]

/-- The metrics there is a series of for each GPU. -/
abbrev GpuSeriesMetric := {key : MetricKey // key ∈ gpuMetricKeys}

def gpuSeries (metric : GpuSeriesMetric) (gpuIndex : UInt32) (multiGpu : Bool) : Utf16 :=
  if multiGpu then utf16 "gpu:" ++ decimal gpuIndex.toNat ++ utf16 ":" ++ metric.1.name else metric.1.name

inductive EngineSeriesName where
  | tps
  | avgTps
  | perReqTps
  | ttft
  | kvCache
  | prefixCacheHit
  | e2eLatency
  | promptTps
  | avgPromptTps
  | perReqPromptTps
  | queueTime
  | interTokenLatency
  | batchSize
  | ttftP50
  | ttftP95
  | ttftP99
  | itlP50
  | itlP95
  | itlP99
  | e2eP50
  | e2eP95
  | e2eP99
  | tpot
  | tpotP50
  | tpotP95
  | tpotP99
  | activeRequests
  | queuedRequests
  | totalRequests
  deriving DecidableEq, Repr

def EngineSeriesName.name : EngineSeriesName → Utf16
  | .tps => utf16 "tps"
  | .avgTps => utf16 "avgTps"
  | .perReqTps => utf16 "perReqTps"
  | .ttft => utf16 "ttft"
  | .kvCache => utf16 "kvCache"
  | .prefixCacheHit => utf16 "prefixCacheHit"
  | .e2eLatency => utf16 "e2eLatency"
  | .promptTps => utf16 "promptTps"
  | .avgPromptTps => utf16 "avgPromptTps"
  | .perReqPromptTps => utf16 "perReqPromptTps"
  | .queueTime => utf16 "queueTime"
  | .interTokenLatency => utf16 "interTokenLatency"
  | .batchSize => utf16 "batchSize"
  | .ttftP50 => utf16 "ttftP50"
  | .ttftP95 => utf16 "ttftP95"
  | .ttftP99 => utf16 "ttftP99"
  | .itlP50 => utf16 "itlP50"
  | .itlP95 => utf16 "itlP95"
  | .itlP99 => utf16 "itlP99"
  | .e2eP50 => utf16 "e2eP50"
  | .e2eP95 => utf16 "e2eP95"
  | .e2eP99 => utf16 "e2eP99"
  | .tpot => utf16 "tpot"
  | .tpotP50 => utf16 "tpotP50"
  | .tpotP95 => utf16 "tpotP95"
  | .tpotP99 => utf16 "tpotP99"
  | .activeRequests => utf16 "activeRequests"
  | .queuedRequests => utf16 "queuedRequests"
  | .totalRequests => utf16 "totalRequests"

def EngineSeriesName.sample (m : EngineMetrics) : EngineSeriesName → Option ℚ
  | .tps => m.number .tokensPerSec
  | .avgTps => m.number .avgTokensPerSec
  | .perReqTps => m.number .perRequestTps
  | .ttft => m.number .ttftMs
  | .kvCache => m.number .kvCachePercent
  | .prefixCacheHit => m.number .prefixCacheHitRate
  | .e2eLatency => m.number .e2eLatencyMs
  | .promptTps => m.number .promptTokensPerSec
  | .avgPromptTps => m.number .avgPromptTokensPerSec
  | .perReqPromptTps => m.number .perRequestPromptTps
  | .queueTime => m.number .queueTimeMs
  | .interTokenLatency => m.number .interTokenLatencyMs
  | .batchSize => m.number .avgBatchSize
  | .ttftP50 => (m.percentiles .ttft).bind (·.p50Ms)
  | .ttftP95 => (m.percentiles .ttft).bind (·.p95Ms)
  | .ttftP99 => (m.percentiles .ttft).bind (·.p99Ms)
  | .itlP50 => (m.percentiles .itl).bind (·.p50Ms)
  | .itlP95 => (m.percentiles .itl).bind (·.p95Ms)
  | .itlP99 => (m.percentiles .itl).bind (·.p99Ms)
  | .e2eP50 => (m.percentiles .e2e).bind (·.p50Ms)
  | .e2eP95 => (m.percentiles .e2e).bind (·.p95Ms)
  | .e2eP99 => (m.percentiles .e2e).bind (·.p99Ms)
  | .tpot => m.number .tpotMs
  | .tpotP50 => (m.percentiles .tpot).bind (·.p50Ms)
  | .tpotP95 => (m.percentiles .tpot).bind (·.p95Ms)
  | .tpotP99 => (m.percentiles .tpot).bind (·.p99Ms)
  | .activeRequests => m.number .activeRequests
  | .queuedRequests => m.number .queuedRequests
  | .totalRequests => m.number .totalRequests

/-- `ENGINE_SERIES`, in the order of its table. -/
def engineSeriesNames : List EngineSeriesName :=
  [.tps, .avgTps, .perReqTps, .ttft, .kvCache, .prefixCacheHit, .e2eLatency, .promptTps, .avgPromptTps,
    .perReqPromptTps, .queueTime, .interTokenLatency, .batchSize, .ttftP50, .ttftP95, .ttftP99, .itlP50,
    .itlP95, .itlP99, .e2eP50, .e2eP95, .e2eP99, .tpot, .tpotP50, .tpotP95, .tpotP99, .activeRequests,
    .queuedRequests, .totalRequests]

def engineSeries (name : EngineSeriesName) (key : Utf16) : Utf16 := key ++ utf16 ":" ++ name.name

def allEnginesKey : Utf16 := utf16 "all-engines"

def eventsSeries : Utf16 := utf16 "events"

/-- The series key of one engine's requests; `requests` alone for every engine's. -/
def requestsSeries : Option Utf16 → Utf16
  | some (u :: key) => utf16 "requests:" ++ u :: key
  | _ => utf16 "requests"

def gpuMemoryPercent (gpu : GpuMetrics) : Option ℚ :=
  match gpu.memoryUsedBytes, gpu.memoryTotalBytes with
  | some used, some total => if total = 0 then none else some (used / total * 100)
  | _, _ => none

def extractGpuValue (gpu : GpuMetrics) : MetricKey → Option ℚ
  | .gpuUtil => gpu.utilizationPercent
  | .gpuTemp => gpu.temperatureCelsius
  | .gpuPower => gpu.powerWatts
  | .gpuClockGraphics => gpu.clockGraphicsMhz
  | .gpuMemory => gpuMemoryPercent gpu
  | .gpuFan => gpu.fanSpeedPercent
  | .gpuPcieRx => gpu.pcieRxBytesPerSec
  | .gpuPcieTx => gpu.pcieTxBytesPerSec
  | _ => none

def extractValue (metrics : MetricsSnapshot) : MetricKey → Option ℚ
  | .cpuAggregate => some metrics.cpu.aggregatePercent
  | .memoryUsedPercent =>
    if 0 < metrics.memory.totalBytes then some (metrics.memory.usedBytes / metrics.memory.totalBytes * 100)
    else none
  | .diskRead => some metrics.disk.readBytesPerSec
  | .diskWrite => some metrics.disk.writeBytesPerSec
  | .networkRx => some metrics.network.rxBytesPerSec
  | .networkTx => some metrics.network.txBytesPerSec
  | key => extractGpuValue metrics.gpu key

/-- The buffer a write goes to or a series key names. -/
inductive Place where
  | system (key : MetricKey)
  | gpu (gpuKey : Utf16) (key : MetricKey)
  | engine (key : Utf16) (name : EngineSeriesName)
  deriving DecidableEq

/-- What a plain object has without being given it. -/
def inheritedNames : List Utf16 :=
  [utf16 "__defineGetter__", utf16 "__defineSetter__", utf16 "__lookupGetter__", utf16 "__lookupSetter__",
    utf16 "__proto__", utf16 "constructor", utf16 "hasOwnProperty", utf16 "isPrototypeOf",
    utf16 "propertyIsEnumerable", utf16 "toLocaleString", utf16 "toString", utf16 "valueOf"]

def metricKeyNamed (text : Utf16) : Option MetricKey := systemMetricKeys.find? (·.name == text)

def engineSeriesNamed (text : Utf16) : Option EngineSeriesName := engineSeriesNames.find? (·.name == text)

/-- `gpu:`, digits, a colon and one of the per-GPU metrics. -/
def gpuMatch (metric : Utf16) : Option (Utf16 × MetricKey) :=
  if metric.take 4 = utf16 "gpu:" then
    let digits := (metric.drop 4).takeWhile isDigit
    match (metric.drop 4).dropWhile isDigit with
    | u :: name =>
      if digits ≠ [] ∧ u = 0x3A then (gpuMetricKeys.find? (·.name == name)).map fun key => (digits, key)
      else none
    | [] => none
  else none

/-- A series key taken apart, as `resolveBuffer` does. -/
def placeOf (metric : Utf16) : Option Place :=
  match metricKeyNamed metric with
  | some key => some (.system key)
  | none =>
    match gpuMatch metric with
    | some (gpuKey, key) => some (.gpu gpuKey key)
    | none =>
      match lastIndexOf metric 0x3A with
      | some colonIndex =>
        if 0 < colonIndex then
          (engineSeriesNamed (metric.drop (colonIndex + 1))).map fun name =>
            .engine (metric.take colonIndex) name
        else none
      | none => none

end SparkDashboard.Browser
