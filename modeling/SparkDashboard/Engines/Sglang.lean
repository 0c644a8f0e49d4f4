import SparkDashboard.Engines.Common
import SparkDashboard.Engines.Histogram
import SparkDashboard.Engines.Warmup

/-!
# The SGLang adapter

A scrape comes as it was answered: a status and what the shared parser made of the
body. The drafter is asked of `/server_info` once, and again a minute after a failure.
-/

namespace SparkDashboard.Engines

structure DrafterLookup where
  configured : Option Bool := none
  lastAttempt : Option Instant := none
  deriving DecidableEq

structure SglangAdapter where
  genRate : CounterRate := {}
  promptRate : CounterRate := {}
  warmup : WarmupTracker
  drafter : DrafterLookup := {}
  metricsOff : Bool := false

/-- One poll's `/metrics` answer, `none` when the server could not be reached, and what
`/server_info` would answer were it asked, with the time it is asked at. -/
structure SglangPoll where
  answer : Option (Nat × Option ParsedMetrics)
  now : Instant
  serverInfo : Option (Nat × Option Value)
  askedAt : Instant

namespace SglangAdapter

def warmupTriggerKey : String := "sglang_time_to_first_token_seconds_count"
def generationTokens : String := "sglang_generation_tokens_total"
def promptTokens : String := "sglang_prompt_tokens_total"
def drafterLookupRetry : Instant := 60

def new (warmupSkip : Nat) : SglangAdapter := { warmup := .new warmupSkip warmupTriggerKey }

def drafterInServerInfo (info : Value) : Option Bool :=
  match info.get "speculative_algorithm" with
  | some .null => some false
  | some (.string name) => some (!(name.isEmpty || name.toLower == "none"))
  | _ => none

def drafterConfigured (lookup : DrafterLookup) (serverInfo : Option (Nat × Option Value))
    (now : Instant) : Option Bool × DrafterLookup :=
  match lookup.configured with
  | some configured => (some configured, lookup)
  | none =>
    if lookup.lastAttempt.any fun last => decide (CounterRate.durationSince now last < drafterLookupRetry) then
      (none, lookup)
    else
      let configured := match serverInfo with
        | some (status, some info) => if isSuccess status then drafterInServerInfo info else none
        | _ => none
      (configured, ⟨configured, some now⟩)

/-- The per-priority breakdown series of each gauge dropped; only the totals partition
the engine. -/
def parseSglang (parsed : ParsedMetrics) : ParsedMetrics :=
  { parsed with
    gauges := KeyedMap.mapKV (fun _ series => series.filter fun g =>
      ((g.labels.lookup "priority").map String.isEmpty).getD true) parsed.gauges }

def isSglangName (name : String) : Bool := name.startsWith "sglang_"

def hasSglangSeries (parsed : ParsedMetrics) : Bool :=
  KeyedMap.any (fun name _ => isSglangName name) parsed.counters ||
    KeyedMap.any (fun name _ => isSglangName name) parsed.gauges ||
    KeyedMap.any (fun name _ => isSglangName name) parsed.histograms

/-- `(length, rate)` over the ranks that have verified a draft. -/
def specAcceptance (parsed : ParsedMetrics) : Option (ℚ × Option ℚ) :=
  let ranks := ((parsed.gauges.lookup "sglang_spec_accept_length").getD []).filter fun g => decide (0 < g.value)
  if ranks.isEmpty then none
  else
    let length := (ranks.map GaugeSeries.value).sum / (ranks.length : ℚ)
    let rates := (((parsed.gauges.lookup "sglang_spec_accept_rate").getD []).filter fun g =>
      ranks.any fun r => decide (r.labels.entries.Perm g.labels.entries)).map GaugeSeries.value
    some (length, if rates.isEmpty then none else some (rates.sum / (rates.length : ℚ)))

def metricsOffSignal (success : Bool) (code : Nat) : Option Bool :=
  if success then some false else if code = 404 then some true else none

def draftsTotal (rounds : Option ℚ) (drafter : Option Bool) : Option Nat :=
  match rounds, drafter with
  | _, some false => none
  | some rounds, _ => some (asU64 (max rounds 0))
  | none, some true => some 0
  | none, none => none

def engineMetrics (parsed raw : ParsedMetrics) (rates : RateInputs) (warmingUp : Bool)
    (drafter : Option Bool) : EngineMetrics :=
  let counter := parsed.counter
  let blank {α : Type} (field : Option α) : Option α := if warmingUp then none else field
  let acceptance := specAcceptance parsed
  { tokensPerSec := blank rates.tokensPerSec
    avgTokensPerSec := blank rates.avgTokensPerSec
    perRequestTps := none
    ttftMs := blank (meanMs (counter "sglang_time_to_first_token_seconds_sum")
      (counter "sglang_time_to_first_token_seconds_count"))
    activeRequests := (parsed.gaugeSum "sglang_num_running_reqs").map asU64
    queuedRequests := (parsed.gaugeSum "sglang_num_queue_reqs").map asU64
    kvCachePercent := ((parsed.gaugeMean "sglang_full_token_usage").or
      (parsed.gaugeMean "sglang_token_usage")).map (· * 100)
    kvCacheIsEstimated := false
    totalRequests := (raw.counter warmupTriggerKey).map asU64
    e2eLatencyMs := blank (meanMs (counter "sglang_e2e_request_latency_seconds_sum")
      (counter "sglang_e2e_request_latency_seconds_count"))
    promptTokensPerSec := blank rates.promptTokensPerSec
    avgPromptTokensPerSec := blank rates.avgPromptTokensPerSec
    perRequestPromptTps := blank (quotientOver (counter promptTokens)
      (counter "sglang_time_to_first_token_seconds_sum"))
    swappedRequests := none
    prefixCacheHitRate := (quotientOver (counter "sglang_cached_tokens_total")
      (counter promptTokens)).map (· * 100)
    queueTimeMs := blank (meanMs (counter "sglang_queue_time_seconds_sum")
      (counter "sglang_queue_time_seconds_count"))
    interTokenLatencyMs := blank (meanMs (counter "sglang_inter_token_latency_seconds_sum")
      (counter "sglang_inter_token_latency_seconds_count"))
    preemptionsTotal := none
    totalPromptTokens := (counter promptTokens).map asU64
    totalGenerationTokens := (counter generationTokens).map asU64
    prefixCacheQueriesTotal := (counter promptTokens).map asU64
    avgBatchSize := none
    ttftPercentiles := blank (percentilesMs parsed "sglang_time_to_first_token_seconds")
    itlPercentiles := blank (percentilesMs parsed "sglang_inter_token_latency_seconds")
    e2ePercentiles := blank (percentilesMs parsed "sglang_e2e_request_latency_seconds")
    ttftGoodputPct := blank (goodputPct parsed "sglang_time_to_first_token_seconds" ttftSloMs)
    itlGoodputPct := blank (goodputPct parsed "sglang_inter_token_latency_seconds" itlSloMs)
    e2eGoodputPct := blank (goodputPct parsed "sglang_e2e_request_latency_seconds" e2eSloMs)
    ttftBuckets := blank (wireBuckets parsed "sglang_time_to_first_token_seconds")
    itlBuckets := blank (wireBuckets parsed "sglang_inter_token_latency_seconds")
    e2eBuckets := blank (wireBuckets parsed "sglang_e2e_request_latency_seconds")
    tpotMs := none
    tpotPercentiles := none
    tpotGoodputPct := none
    tpotBuckets := none
    specDecodeDraftTokensTotal := none
    specDecodeAcceptedTokensTotal := none
    specDecodeDraftsTotal := draftsTotal (raw.counter "sglang_spec_verify_calls_total") drafter
    specDecodeAcceptanceRate := (acceptance.bind Prod.snd).map (· * 100)
    specDecodeAcceptanceRateLive := none
    specDecodeMeanAcceptanceLength := acceptance.map fun a => max (a.1 - 1) 0
    warmingUp }

/-- The scrape the poll carries on with, when it is one of an SGLang server. -/
def scrape (poll : SglangPoll) : Option ParsedMetrics :=
  match poll.answer with
  | some (status, body) =>
    ((if isSuccess status then body.map parseSglang else none)).filter hasSglangSeries
  | none => none

def latch (a : SglangAdapter) (poll : SglangPoll) : SglangAdapter :=
  match poll.answer with
  | some (status, _) => { a with metricsOff := (metricsOffSignal (isSuccess status) status).getD a.metricsOff }
  | none => a

def afterWarmup (a : SglangAdapter) (raw : ParsedMetrics) : SglangAdapter :=
  let out := a.warmup.observe raw
  if out.1.justTransitioned then
    { a with genRate := a.genRate.reset, promptRate := a.promptRate.reset, warmup := out.2 }
  else { a with warmup := out.2 }

theorem afterWarmup_genRate (a : SglangAdapter) (raw : ParsedMetrics) :
    (a.afterWarmup raw).genRate =
      if (a.warmup.observe raw).1.justTransitioned then a.genRate.reset else a.genRate := by
  rw [afterWarmup]
  split <;> rfl

theorem afterWarmup_promptRate (a : SglangAdapter) (raw : ParsedMetrics) :
    (a.afterWarmup raw).promptRate =
      if (a.warmup.observe raw).1.justTransitioned then a.promptRate.reset else a.promptRate := by
  rw [afterWarmup]
  split <;> rfl

@[simp] theorem afterWarmup_warmup (a : SglangAdapter) (raw : ParsedMetrics) :
    (a.afterWarmup raw).warmup = (a.warmup.observe raw).2 := by
  rw [afterWarmup]
  split <;> rfl

@[simp] theorem latch_genRate (a : SglangAdapter) (poll : SglangPoll) :
    (a.latch poll).genRate = a.genRate := by
  rw [latch]
  split <;> rfl

@[simp] theorem latch_promptRate (a : SglangAdapter) (poll : SglangPoll) :
    (a.latch poll).promptRate = a.promptRate := by
  rw [latch]
  split <;> rfl

@[simp] theorem latch_warmup (a : SglangAdapter) (poll : SglangPoll) :
    (a.latch poll).warmup = a.warmup := by
  rw [latch]
  split <;> rfl

def getMetrics (a : SglangAdapter) (poll : SglangPoll) : Option EngineMetrics × SglangAdapter :=
  match scrape poll with
  | none => (none, a.latch poll)
  | some raw =>
    let out := ((a.latch poll).warmup.observe raw).1
    let a' := (a.latch poll).afterWarmup raw
    let gen := a'.genRate.observe (out.adjusted.counter generationTokens) poll.now
    let prompt := a'.promptRate.observe (out.adjusted.counter promptTokens) poll.now
    let drafter := drafterConfigured a'.drafter poll.serverInfo poll.askedAt
    let rates : RateInputs := ⟨gen.1.1, prompt.1.1, gen.1.2, prompt.1.2⟩
    (some (engineMetrics out.adjusted raw rates out.warmingUp drafter.1),
      { a' with genRate := gen.2, promptRate := prompt.2, drafter := drafter.2 })

end SglangAdapter

end SparkDashboard.Engines
