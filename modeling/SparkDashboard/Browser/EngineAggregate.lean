import SparkDashboard.Browser.MetricsSnapshot

/-!
# The all-engines figures

Each figure combines the running engines included in its metric group, as a sum, a
mean or a request-weighted mean.
-/

namespace SparkDashboard.Browser

open Engines (LatencyPercentiles MetricGroup MetricGroup.all)

def LatencyDimension.meanGroup : LatencyDimension → MetricGroup
  | .ttft => .ttftMean
  | .e2e => .e2eMean
  | .itl => .itlMean
  | .tpot => .tpotMean

def LatencyDimension.percentilesGroup : LatencyDimension → MetricGroup
  | .ttft => .ttftPercentiles
  | .e2e => .e2ePercentiles
  | .itl => .itlPercentiles
  | .tpot => .tpotPercentiles

def LatencyDimension.all : List LatencyDimension := [.ttft, .e2e, .itl, .tpot]

def NumericEngineMetric.group : NumericEngineMetric → MetricGroup
  | .tokensPerSec => .throughput
  | .avgTokensPerSec => .throughput
  | .promptTokensPerSec => .throughput
  | .avgPromptTokensPerSec => .throughput
  | .totalPromptTokens => .throughput
  | .totalGenerationTokens => .throughput
  | .avgBatchSize => .batchSize
  | .activeRequests => .activeRequests
  | .queuedRequests => .activeRequests
  | .totalRequests => .requestTotal
  | .swappedRequests => .preemptions
  | .preemptionsTotal => .preemptions
  | .queueTimeMs => .queueTime
  | .kvCachePercent => .kvCache
  | .prefixCacheHitRate => .prefixCache
  | .prefixCacheQueriesTotal => .prefixCache
  | .specDecodeDraftTokensTotal => .speculativeDecoding
  | .specDecodeAcceptedTokensTotal => .speculativeDecoding
  | .specDecodeDraftsTotal => .speculativeDecoding
  | .specDecodeAcceptanceRate => .speculativeDecoding
  | .specDecodeAcceptanceRateLive => .speculativeDecoding
  | .specDecodeMeanAcceptanceLength => .speculativeDecoding
  | .ttftMs => .ttftMean
  | .perRequestPromptTps => .ttftMean
  | .ttftGoodputPct => .ttftPercentiles
  | .e2eLatencyMs => .e2eMean
  | .e2eGoodputPct => .e2ePercentiles
  | .interTokenLatencyMs => .itlMean
  | .itlGoodputPct => .itlPercentiles
  | .tpotMs => .tpotMean
  | .perRequestTps => .tpotMean
  | .tpotGoodputPct => .tpotPercentiles

def reportedMetricGroups (engine : EngineSnapshot) : List MetricGroup := engine.metricGroups.getD MetricGroup.all

/-- The metrics endpoint is neither switched off nor refused; an empty launch flag is no flag. -/
def metricsReadable (engine : EngineSnapshot) : Bool :=
  (engine.metricsOff.all (· == [])) && engine.metricsError.isNone

def contributesGroup (engine : EngineSnapshot) (group : MetricGroup) : Bool :=
  decide (engine.status = .running) && metricsReadable engine && (reportedMetricGroups engine).contains group

def requestWeightedGroups : List MetricGroup :=
  (LatencyDimension.all.flatMap fun d => [d.meanGroup, d.percentilesGroup]) ++ [.queueTime]

def includedIn (engine : EngineSnapshot) (group : MetricGroup) : Bool :=
  contributesGroup engine group &&
    (!requestWeightedGroups.contains group || contributesGroup engine .requestTotal)

structure AggregateCoverage where
  running : Nat
  included : MetricGroup → Nat

def runningEngines (engines : List EngineSnapshot) : List EngineSnapshot :=
  engines.filter fun e => decide (e.status = .running)

def aggregateCoverage (engines : List EngineSnapshot) : AggregateCoverage where
  running := (runningEngines engines).length
  included := fun group => ((runningEngines engines).filter (includedIn · group)).length

structure AggregateSnapshot where
  runningCount : Nat
  totalCount : Nat
  coverage : AggregateCoverage
  number : NumericEngineMetric → Option ℚ
  percentiles : LatencyDimension → Option LatencyPercentiles
  kvCacheIsEstimated : Bool

def sumOrNull (values : List (Option ℚ)) : Option ℚ :=
  match values.filterMap id with
  | [] => none
  | present => some present.sum

def meanOrNull (values : List (Option ℚ)) : Option ℚ :=
  match values.filterMap id with
  | [] => none
  | present => some (present.sum / present.length)

structure Weighted where
  value : Option ℚ
  weight : Option ℚ

def weigh (sums : ℚ × ℚ) (item : ℚ × Option ℚ) : ℚ × ℚ :=
  match item.2 with
  | some weight => if 0 < weight then (sums.1 + weight, sums.2 + item.1 * weight) else sums
  | none => sums

/-- The mean of the present values by weight; the simple mean where none has one. -/
def weightedMeanOrNull (items : List Weighted) : Option ℚ :=
  match items.filterMap fun i => i.value.map fun value => (value, i.weight) with
  | [] => none
  | withValues =>
    let sums := withValues.foldl weigh (0, 0)
    if 0 < sums.1 then some (sums.2 / sums.1)
    else some ((withValues.map Prod.fst).sum / withValues.length)

def ratio (num den : Option ℚ) (scale : ℚ) : Option ℚ :=
  match num, den with
  | some num, some den => if 0 < den then some (num / den * scale) else none
  | _, _ => none

section Running

variable (running : List EngineSnapshot)

/-- One value a running engine: null for an engine not included in the group. -/
def get {α : Type} (group : MetricGroup) (field : EngineMetrics → Option α) : List (Option α) :=
  running.map fun e => if includedIn e group then e.metrics.bind field else none

def getNumber (key : NumericEngineMetric) : List (Option ℚ) := get running key.group (·.number key)

def weights : List (Option ℚ) := getNumber running .totalRequests

def weightedBy (key : NumericEngineMetric) : Option ℚ :=
  weightedMeanOrNull (List.zipWith Weighted.mk (getNumber running key) (weights running))

def aggregatePercentiles (perEngine : List (Option LatencyPercentiles)) (weights : List (Option ℚ)) :
    Option LatencyPercentiles :=
  if perEngine.any (·.isSome) then
    let quantile := fun key : LatencyPercentiles → Option ℚ =>
      weightedMeanOrNull (List.zipWith Weighted.mk (perEngine.map (·.bind key)) weights)
    some ⟨quantile (·.p50Ms), quantile (·.p95Ms), quantile (·.p99Ms)⟩
  else none

def specDraftTokens : Option ℚ := sumOrNull (getNumber running .specDecodeDraftTokensTotal)

def specAcceptedTokens : Option ℚ := sumOrNull (getNumber running .specDecodeAcceptedTokensTotal)

def acceptedTokens : List (Option ℚ) := getNumber running .specDecodeAcceptedTokensTotal

def draftRounds : List (Option ℚ) := getNumber running .specDecodeDraftsTotal

/-- The draft rounds of the engines that count the tokens they accept. -/
def pooledRounds : Option ℚ :=
  sumOrNull (((draftRounds running).zip (acceptedTokens running)).filterMap fun p =>
    if p.2.isSome then some p.1 else none)

def withFigureOnlyEngines (pooled : Option ℚ) (key : NumericEngineMetric) : Option ℚ :=
  let figures := List.zipWith (fun value accepted => if accepted.isNone then value else none)
    (getNumber running key) (acceptedTokens running)
  weightedMeanOrNull (⟨pooled, pooledRounds running⟩ :: List.zipWith Weighted.mk figures (draftRounds running))

def aggregateNumber : NumericEngineMetric → Option ℚ
  | .tokensPerSec => sumOrNull (getNumber running .tokensPerSec)
  | .avgTokensPerSec => sumOrNull (getNumber running .avgTokensPerSec)
  | .promptTokensPerSec => sumOrNull (getNumber running .promptTokensPerSec)
  | .avgPromptTokensPerSec => sumOrNull (getNumber running .avgPromptTokensPerSec)
  | .activeRequests => sumOrNull (getNumber running .activeRequests)
  | .queuedRequests => sumOrNull (getNumber running .queuedRequests)
  | .totalRequests => sumOrNull (getNumber running .totalRequests)
  | .swappedRequests => sumOrNull (getNumber running .swappedRequests)
  | .preemptionsTotal => sumOrNull (getNumber running .preemptionsTotal)
  | .totalPromptTokens => sumOrNull (getNumber running .totalPromptTokens)
  | .totalGenerationTokens => sumOrNull (getNumber running .totalGenerationTokens)
  | .prefixCacheQueriesTotal => sumOrNull (getNumber running .prefixCacheQueriesTotal)
  | .specDecodeDraftTokensTotal => specDraftTokens running
  | .specDecodeAcceptedTokensTotal => specAcceptedTokens running
  | .specDecodeDraftsTotal => sumOrNull (draftRounds running)
  | .specDecodeAcceptanceRate =>
    withFigureOnlyEngines running (ratio (specAcceptedTokens running) (specDraftTokens running) 100)
      .specDecodeAcceptanceRate
  | .specDecodeAcceptanceRateLive =>
    weightedMeanOrNull (List.zipWith Weighted.mk (getNumber running .specDecodeAcceptanceRateLive)
      (getNumber running .specDecodeDraftTokensTotal))
  | .specDecodeMeanAcceptanceLength =>
    withFigureOnlyEngines running (ratio (specAcceptedTokens running) (pooledRounds running) 1)
      .specDecodeMeanAcceptanceLength
  | .ttftMs => weightedBy running .ttftMs
  | .e2eLatencyMs => weightedBy running .e2eLatencyMs
  | .queueTimeMs => weightedBy running .queueTimeMs
  | .interTokenLatencyMs => weightedBy running .interTokenLatencyMs
  | .tpotMs => weightedBy running .tpotMs
  | .perRequestTps => weightedBy running .perRequestTps
  | .perRequestPromptTps => weightedBy running .perRequestPromptTps
  | .avgBatchSize => meanOrNull (getNumber running .avgBatchSize)
  | .kvCachePercent => meanOrNull (getNumber running .kvCachePercent)
  | .prefixCacheHitRate => meanOrNull (getNumber running .prefixCacheHitRate)
  | .ttftGoodputPct => weightedBy running .ttftGoodputPct
  | .itlGoodputPct => weightedBy running .itlGoodputPct
  | .e2eGoodputPct => weightedBy running .e2eGoodputPct
  | .tpotGoodputPct => weightedBy running .tpotGoodputPct

end Running

def emptySnapshot (totalCount : Nat) : AggregateSnapshot where
  runningCount := 0
  totalCount := totalCount
  coverage := aggregateCoverage []
  number := fun _ => none
  percentiles := fun _ => none
  kvCacheIsEstimated := false

def aggregateEngines (engines : List EngineSnapshot) : AggregateSnapshot :=
  let running := runningEngines engines
  if running = [] then emptySnapshot engines.length
  else
    { runningCount := running.length
      totalCount := engines.length
      coverage := aggregateCoverage engines
      number := aggregateNumber running
      percentiles := fun d => aggregatePercentiles (get running d.percentilesGroup (·.percentiles d)) (weights running)
      kvCacheIsEstimated := (get running .kvCache (fun m => some m.kvCacheIsEstimated)).contains (some true) }

/-- The aggregate as one engine's metrics, without buckets: those of different layouts do not merge. -/
def asEngineMetrics (aggregate : AggregateSnapshot) : Option EngineMetrics :=
  if aggregate.runningCount = 0 then none
  else some
    { number := aggregate.number
      percentiles := aggregate.percentiles
      kvCacheIsEstimated := aggregate.kvCacheIsEstimated }

def aggregateEngineMetrics (engines : List EngineSnapshot) : Option EngineMetrics :=
  asEngineMetrics (aggregateEngines engines)

end SparkDashboard.Browser
