import Mathlib.Data.Rat.Floor
import Mathlib.Data.Finset.Basic

/-!
# What an engine reports

The types of the engine contract: engine types and statuses, metric groups, model
identity, and the metrics of one poll. Readings (`f64`) are exact rationals and
counts (`u64`) are naturals reached by the saturating cast `asU64`.
-/

namespace SparkDashboard.Engines

inductive EngineType where
  | vllm
  | sglang
  | ollama
  | llamaCpp
  deriving DecidableEq, Repr

inductive DeploymentMode where
  | docker
  | native
  deriving DecidableEq, Repr

inductive EngineStatus where
  | running
  | loading
  | stopped
  | error (message : String)
  deriving DecidableEq, Repr

inductive MetricGroup where
  | throughput
  | batchSize
  | activeRequests
  | requestTotal
  | preemptions
  | queueTime
  | kvCache
  | prefixCache
  | speculativeDecoding
  | ttftMean
  | ttftPercentiles
  | e2eMean
  | e2ePercentiles
  | itlMean
  | itlPercentiles
  | tpotMean
  | tpotPercentiles
  deriving DecidableEq, Repr

/-- Every metric group, in wire order. -/
def MetricGroup.all : List MetricGroup :=
  [.throughput, .batchSize, .activeRequests, .requestTotal, .preemptions, .queueTime, .kvCache,
    .prefixCache, .speculativeDecoding, .ttftMean, .ttftPercentiles, .e2eMean, .e2ePercentiles,
    .itlMean, .itlPercentiles, .tpotMean, .tpotPercentiles]

inductive ModelMetadataError where
  | authRequired
  | unavailable
  deriving DecidableEq, Repr

inductive MetricsError where
  | authRequired
  deriving DecidableEq, Repr

structure ModelInfo where
  name : String
  parameterSize : Option String := none
  quantization : Option String := none
  precision : Option String := none
  tensorType : Option String := none
  modelType : Option String := none
  pipelineTag : Option String := none
  deriving DecidableEq, Repr

def ModelInfo.named (name : String) : ModelInfo := { name }

structure ModelResolution where
  model : Option ModelInfo := none
  metadataError : Option ModelMetadataError := none
  deriving DecidableEq, Repr

structure LoadedModel where
  name : String
  parameterSize : Option String
  quantization : Option String
  sizeBytes : Nat
  vramBytes : Nat
  contextLength : Option Nat
  expiresAt : Option String
  deriving DecidableEq, Repr

structure LatencyPercentiles where
  p50Ms : Option ℚ
  p95Ms : Option ℚ
  p99Ms : Option ℚ
  deriving DecidableEq

structure HistogramBucket where
  leSeconds : ℚ
  cumulativeCount : ℚ
  deriving DecidableEq

def ttftSloMs : ℚ := 500
def itlSloMs : ℚ := 50
def e2eSloMs : ℚ := 5000
def tpotSloMs : ℚ := 50

/-- `v as u64`: truncated, negative readings to zero, large ones to `u64::MAX`. -/
def asU64 (v : ℚ) : Nat := min ⌊v⌋.toNat (2 ^ 64 - 1)

theorem asU64_mono {a b : ℚ} (h : a ≤ b) : asU64 a ≤ asU64 b := by
  have hfloor : ⌊a⌋.toNat ≤ ⌊b⌋.toNat := Int.toNat_le_toNat (Int.floor_le_floor h)
  exact min_le_min_right _ hfloor

theorem asU64_max_zero (v : ℚ) : asU64 (max v 0) = asU64 v := by
  rcases le_total 0 v with h | h
  · rw [max_eq_left h]
  · have hfloor : ⌊v⌋ ≤ 0 := by
      have : ⌊v⌋ ≤ ⌊(0 : ℚ)⌋ := Int.floor_le_floor h
      simpa using this
    rw [max_eq_right h, asU64, asU64, Int.toNat_of_nonpos hfloor]
    simp

theorem asU64_natCast {n : Nat} (h : n < 2 ^ 64) : asU64 n = n := by
  rw [asU64, Int.floor_natCast, Int.toNat_natCast]
  omega

structure EngineMetrics where
  tokensPerSec : Option ℚ
  avgTokensPerSec : Option ℚ
  perRequestTps : Option ℚ
  ttftMs : Option ℚ
  activeRequests : Option Nat
  queuedRequests : Option Nat
  kvCachePercent : Option ℚ
  kvCacheIsEstimated : Bool
  totalRequests : Option Nat
  e2eLatencyMs : Option ℚ
  promptTokensPerSec : Option ℚ
  avgPromptTokensPerSec : Option ℚ
  perRequestPromptTps : Option ℚ
  swappedRequests : Option Nat
  prefixCacheHitRate : Option ℚ
  queueTimeMs : Option ℚ
  interTokenLatencyMs : Option ℚ
  preemptionsTotal : Option Nat
  totalPromptTokens : Option Nat
  totalGenerationTokens : Option Nat
  prefixCacheQueriesTotal : Option Nat
  avgBatchSize : Option ℚ
  ttftPercentiles : Option LatencyPercentiles
  itlPercentiles : Option LatencyPercentiles
  e2ePercentiles : Option LatencyPercentiles
  ttftGoodputPct : Option ℚ
  itlGoodputPct : Option ℚ
  e2eGoodputPct : Option ℚ
  ttftBuckets : Option (List HistogramBucket)
  itlBuckets : Option (List HistogramBucket)
  e2eBuckets : Option (List HistogramBucket)
  tpotMs : Option ℚ
  tpotPercentiles : Option LatencyPercentiles
  tpotGoodputPct : Option ℚ
  tpotBuckets : Option (List HistogramBucket)
  specDecodeDraftTokensTotal : Option Nat
  specDecodeAcceptedTokensTotal : Option Nat
  specDecodeDraftsTotal : Option Nat
  specDecodeAcceptanceRate : Option ℚ
  specDecodeAcceptanceRateLive : Option ℚ
  specDecodeMeanAcceptanceLength : Option ℚ
  warmingUp : Bool
  deriving DecidableEq

/-- A field of `group` blanked unless the engine reports that group. -/
def keepReported {α : Type} (reported : Finset MetricGroup) (group : MetricGroup) (field : Option α) :
    Option α :=
  if group ∈ reported then field else none

def EngineMetrics.reportedOnly (m : EngineMetrics) (reported : Finset MetricGroup) : EngineMetrics where
  tokensPerSec := keepReported reported .throughput m.tokensPerSec
  avgTokensPerSec := keepReported reported .throughput m.avgTokensPerSec
  promptTokensPerSec := keepReported reported .throughput m.promptTokensPerSec
  avgPromptTokensPerSec := keepReported reported .throughput m.avgPromptTokensPerSec
  totalPromptTokens := keepReported reported .throughput m.totalPromptTokens
  totalGenerationTokens := keepReported reported .throughput m.totalGenerationTokens
  avgBatchSize := keepReported reported .batchSize m.avgBatchSize
  activeRequests := keepReported reported .activeRequests m.activeRequests
  queuedRequests := keepReported reported .activeRequests m.queuedRequests
  totalRequests := keepReported reported .requestTotal m.totalRequests
  preemptionsTotal := keepReported reported .preemptions m.preemptionsTotal
  swappedRequests := keepReported reported .preemptions m.swappedRequests
  queueTimeMs := keepReported reported .queueTime m.queueTimeMs
  kvCachePercent := keepReported reported .kvCache m.kvCachePercent
  kvCacheIsEstimated := m.kvCacheIsEstimated && decide (MetricGroup.kvCache ∈ reported)
  prefixCacheHitRate := keepReported reported .prefixCache m.prefixCacheHitRate
  prefixCacheQueriesTotal := keepReported reported .prefixCache m.prefixCacheQueriesTotal
  specDecodeDraftTokensTotal := keepReported reported .speculativeDecoding m.specDecodeDraftTokensTotal
  specDecodeAcceptedTokensTotal :=
    keepReported reported .speculativeDecoding m.specDecodeAcceptedTokensTotal
  specDecodeDraftsTotal := keepReported reported .speculativeDecoding m.specDecodeDraftsTotal
  specDecodeAcceptanceRate := keepReported reported .speculativeDecoding m.specDecodeAcceptanceRate
  specDecodeAcceptanceRateLive :=
    keepReported reported .speculativeDecoding m.specDecodeAcceptanceRateLive
  specDecodeMeanAcceptanceLength :=
    keepReported reported .speculativeDecoding m.specDecodeMeanAcceptanceLength
  ttftMs := keepReported reported .ttftMean m.ttftMs
  perRequestPromptTps := keepReported reported .ttftMean m.perRequestPromptTps
  ttftPercentiles := keepReported reported .ttftPercentiles m.ttftPercentiles
  ttftBuckets := keepReported reported .ttftPercentiles m.ttftBuckets
  ttftGoodputPct := keepReported reported .ttftPercentiles m.ttftGoodputPct
  e2eLatencyMs := keepReported reported .e2eMean m.e2eLatencyMs
  e2ePercentiles := keepReported reported .e2ePercentiles m.e2ePercentiles
  e2eBuckets := keepReported reported .e2ePercentiles m.e2eBuckets
  e2eGoodputPct := keepReported reported .e2ePercentiles m.e2eGoodputPct
  interTokenLatencyMs := keepReported reported .itlMean m.interTokenLatencyMs
  itlPercentiles := keepReported reported .itlPercentiles m.itlPercentiles
  itlBuckets := keepReported reported .itlPercentiles m.itlBuckets
  itlGoodputPct := keepReported reported .itlPercentiles m.itlGoodputPct
  tpotMs := keepReported reported .tpotMean m.tpotMs
  perRequestTps := keepReported reported .tpotMean m.perRequestTps
  tpotPercentiles := keepReported reported .tpotPercentiles m.tpotPercentiles
  tpotBuckets := keepReported reported .tpotPercentiles m.tpotBuckets
  tpotGoodputPct := keepReported reported .tpotPercentiles m.tpotGoodputPct
  warmingUp := m.warmingUp

end SparkDashboard.Engines
