import SparkDashboard.Engines.Common
import SparkDashboard.Engines.Histogram
import SparkDashboard.Engines.Warmup

/-!
# The vLLM adapter

One poll of `/metrics` against the state the adapter keeps between polls. Each
figure is read either from the scrape as it came (`raw`) or from the scrape with
the warm-up baseline subtracted (`parsed`), as the source picks field by field.
-/

namespace SparkDashboard.Engines

/-- One poll: the parsed answer, `none` when the engine could not be reached or its
answer did not parse, and the time the rates are taken at. -/
structure MetricsPoll where
  scrape : Option ParsedMetrics
  now : Instant

structure VllmAdapter where
  genRate : CounterRate := {}
  promptRate : CounterRate := {}
  /-- Previous `(accepted, draft)` speculative-decoding readings. -/
  prevSpecDecode : Option (ℚ × ℚ) := none
  warmup : WarmupTracker

namespace VllmAdapter

def warmupTriggerKey : String := "vllm_time_to_first_token_seconds_count"
def generationTokens : String := "vllm_generation_tokens_total"
def promptTokens : String := "vllm_prompt_tokens_total"
def prefixCacheQueries : String := "vllm_prefix_cache_queries_total"
def preemptions : String := "vllm_num_preemptions_total"

def new (warmupSkip : Nat) : VllmAdapter := { warmup := .new warmupSkip warmupTriggerKey }

def specCounter (raw : ParsedMetrics) (name : String) : Option ℚ :=
  (raw.counter ("vllm_spec_decode_" ++ name ++ "_total")).or (raw.counter ("vllm_spec_decode_" ++ name))

/-- Output tokens per second of one request, from the time-per-output-token sum. -/
def perRequestTps (parsed : ParsedMetrics) : Option ℚ :=
  let sum := (parsed.counter "vllm_request_time_per_output_token_seconds_sum").or
    (parsed.counter "vllm_time_per_output_token_seconds_sum")
  let count := (parsed.counter "vllm_request_time_per_output_token_seconds_count").or
    (parsed.counter "vllm_time_per_output_token_seconds_count")
  match sum, count with
  | some s, some c => if 0 < c ∧ 0 < s then some (c / s) else none
  | _, _ => none

/-- The time-per-output-token histogram this vLLM version exposes. -/
def tpotHist (parsed : ParsedMetrics) : Option String :=
  if (parsed.histograms.lookup "vllm_request_time_per_output_token_seconds").isSome then
    some "vllm_request_time_per_output_token_seconds"
  else if (parsed.histograms.lookup "vllm_time_per_output_token_seconds").isSome then
    some "vllm_time_per_output_token_seconds"
  else none

def engineMetrics (parsed raw : ParsedMetrics) (rates : RateInputs) (specLive : Option ℚ)
    (warmingUp : Bool) : EngineMetrics :=
  let counter := parsed.counter
  let blank {α : Type} (field : Option α) : Option α := if warmingUp then none else field
  let specDraft := specCounter raw "num_draft_tokens"
  let specAccepted := specCounter raw "num_accepted_tokens"
  let specDrafts := specCounter raw "num_drafts"
  { tokensPerSec := blank rates.tokensPerSec
    avgTokensPerSec := blank rates.avgTokensPerSec
    perRequestTps := blank (perRequestTps parsed)
    ttftMs := blank (meanMs (counter "vllm_time_to_first_token_seconds_sum")
      (counter "vllm_time_to_first_token_seconds_count"))
    activeRequests := (parsed.gaugeSum "vllm_num_requests_running").map asU64
    queuedRequests := (parsed.gaugeSum "vllm_num_requests_waiting").map asU64
    kvCachePercent := ((parsed.gaugeMean "vllm_kv_cache_usage_perc").or
      (parsed.gaugeMean "vllm_gpu_cache_usage_perc")).map (· * 100)
    kvCacheIsEstimated := false
    totalRequests := (raw.counter warmupTriggerKey).map asU64
    e2eLatencyMs := blank (meanMs (counter "vllm_e2e_request_latency_seconds_sum")
      (counter "vllm_e2e_request_latency_seconds_count"))
    promptTokensPerSec := blank rates.promptTokensPerSec
    avgPromptTokensPerSec := blank rates.avgPromptTokensPerSec
    perRequestPromptTps := blank (quotientOver (counter promptTokens)
      (counter "vllm_time_to_first_token_seconds_sum"))
    swappedRequests := (parsed.gaugeSum "vllm_num_requests_swapped").map asU64
    prefixCacheHitRate := (quotientOver (counter "vllm_prefix_cache_hits_total")
      (counter prefixCacheQueries)).map (· * 100)
    queueTimeMs := blank (meanMs (counter "vllm_request_queue_time_seconds_sum")
      (counter "vllm_request_queue_time_seconds_count"))
    interTokenLatencyMs := blank (meanMs (counter "vllm_inter_token_latency_seconds_sum")
      (counter "vllm_inter_token_latency_seconds_count"))
    preemptionsTotal := (raw.counter preemptions).map asU64
    totalPromptTokens := (counter promptTokens).map asU64
    totalGenerationTokens := (counter generationTokens).map asU64
    prefixCacheQueriesTotal := (counter prefixCacheQueries).map asU64
    avgBatchSize := blank (quotientOver (counter "vllm_iteration_tokens_total_sum")
      (counter "vllm_iteration_tokens_total_count"))
    ttftPercentiles := blank (percentilesMs parsed "vllm_time_to_first_token_seconds")
    itlPercentiles := blank (percentilesMs parsed "vllm_inter_token_latency_seconds")
    e2ePercentiles := blank (percentilesMs parsed "vllm_e2e_request_latency_seconds")
    ttftGoodputPct := blank (goodputPct parsed "vllm_time_to_first_token_seconds" ttftSloMs)
    itlGoodputPct := blank (goodputPct parsed "vllm_inter_token_latency_seconds" itlSloMs)
    e2eGoodputPct := blank (goodputPct parsed "vllm_e2e_request_latency_seconds" e2eSloMs)
    ttftBuckets := blank (wireBuckets parsed "vllm_time_to_first_token_seconds")
    itlBuckets := blank (wireBuckets parsed "vllm_inter_token_latency_seconds")
    e2eBuckets := blank (wireBuckets parsed "vllm_e2e_request_latency_seconds")
    tpotMs := blank (meanMs
      ((counter "vllm_request_time_per_output_token_seconds_sum").or
        (counter "vllm_time_per_output_token_seconds_sum"))
      ((counter "vllm_request_time_per_output_token_seconds_count").or
        (counter "vllm_time_per_output_token_seconds_count")))
    tpotPercentiles := blank ((tpotHist parsed).bind (percentilesMs parsed))
    tpotGoodputPct := blank ((tpotHist parsed).bind fun m => goodputPct parsed m tpotSloMs)
    tpotBuckets := blank ((tpotHist parsed).bind (wireBuckets parsed))
    specDecodeDraftTokensTotal := specDraft.map fun v => asU64 (max v 0)
    specDecodeAcceptedTokensTotal := specAccepted.map fun v => asU64 (max v 0)
    specDecodeDraftsTotal := specDrafts.map fun v => asU64 (max v 0)
    specDecodeAcceptanceRate := specAcceptanceRate specAccepted specDraft
    specDecodeAcceptanceRateLive := blank specLive
    specDecodeMeanAcceptanceLength := specMeanAcceptanceLength specAccepted specDrafts
    warmingUp }

/-- The adapter once the tracker has seen the scrape: what depends on the previous
reading is forgotten on the poll that captures the baseline. -/
def afterWarmup (a : VllmAdapter) (raw : ParsedMetrics) : VllmAdapter :=
  let out := a.warmup.observe raw
  if out.1.justTransitioned then
    ⟨a.genRate.reset, a.promptRate.reset, none, out.2⟩
  else { a with warmup := out.2 }

theorem afterWarmup_genRate (a : VllmAdapter) (raw : ParsedMetrics) :
    (a.afterWarmup raw).genRate =
      if (a.warmup.observe raw).1.justTransitioned then a.genRate.reset else a.genRate := by
  rw [afterWarmup]
  split <;> rfl

theorem afterWarmup_promptRate (a : VllmAdapter) (raw : ParsedMetrics) :
    (a.afterWarmup raw).promptRate =
      if (a.warmup.observe raw).1.justTransitioned then a.promptRate.reset else a.promptRate := by
  rw [afterWarmup]
  split <;> rfl

@[simp] theorem afterWarmup_warmup (a : VllmAdapter) (raw : ParsedMetrics) :
    (a.afterWarmup raw).warmup = (a.warmup.observe raw).2 := by
  rw [afterWarmup]
  split <;> rfl

def getMetrics (a : VllmAdapter) (poll : MetricsPoll) : Option EngineMetrics × VllmAdapter :=
  match poll.scrape with
  | none => (none, a)
  | some raw =>
    let out := (a.warmup.observe raw).1
    let a' := a.afterWarmup raw
    let gen := a'.genRate.observe (out.adjusted.counter generationTokens) poll.now
    let prompt := a'.promptRate.observe (out.adjusted.counter promptTokens) poll.now
    let specNow := match specCounter raw "num_accepted_tokens", specCounter raw "num_draft_tokens" with
      | some accepted, some draft => some (accepted, draft)
      | _, _ => none
    let rates : RateInputs := ⟨gen.1.1, prompt.1.1, gen.1.2, prompt.1.2⟩
    (some (engineMetrics out.adjusted raw rates (specLiveAcceptanceRate a'.prevSpecDecode specNow)
      out.warmingUp), ⟨gen.2, prompt.2, specNow, a'.warmup⟩)

end VllmAdapter

end SparkDashboard.Engines
