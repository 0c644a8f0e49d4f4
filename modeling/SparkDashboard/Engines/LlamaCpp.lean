import SparkDashboard.Engines.Common
import SparkDashboard.Engines.Histogram
import SparkDashboard.Engines.ModelInfo
import SparkDashboard.Engines.Warmup

/-!
# The llama.cpp adapter

Answers come as a status and a body already parsed (`none` for text that is not JSON,
or not an exposition); a request that was refused or timed out has no answer. Every
request updates what the adapter has learned of the server on its own.
-/

namespace SparkDashboard.Engines

namespace LlamaCpp

def warmupTriggerKey : String := "llamacpp_tokens_predicted_total"
def predictedTokens : String := "llamacpp_tokens_predicted_total"
def promptTokens : String := "llamacpp_prompt_tokens_total"

inductive Role where
  | singleModel
  | router
  deriving DecidableEq, Repr

structure ServerFacts where
  role : Role
  slotsEndpoint : Bool
  deriving DecidableEq, Repr

structure Learned where
  role : Option Role := none
  slotsEndpoint : Option Bool := none
  drafter : Option Bool := none
  deriving DecidableEq, Repr

inductive MetricsAnswer where
  | on
  | off
  | refused
  | needsModel
  | transient
  deriving DecidableEq, Repr

/-- What the answered scrapes have said: one state, so never off and refused at once. -/
inductive MetricsAccess where
  | open
  | off
  | refused
  deriving DecidableEq, Repr

inductive PropsAnswer where
  | facts (facts : ServerFacts)
  | refused
  | failed
  deriving DecidableEq, Repr

inductive ModelsAnswer where
  | model (info : ModelInfo)
  | router
  | failed (error : ModelMetadataError)
  deriving DecidableEq, Repr

structure Slots where
  decodedInFlight : Nat
  speculative : Bool
  deriving DecidableEq, Repr

structure SpecCounters where
  draft : ℚ
  accepted : ℚ
  drafts : ℚ
  deriving DecidableEq

/-- An answered request: its status and its body as JSON. -/
abbrev JsonAnswer := Option (Nat × Option Value)

def metricsAnswer (status : Nat) : MetricsAnswer :=
  if isSuccess status then .on
  else if status = 501 then .off
  else if status = 401 ∨ status = 403 then .refused
  else if status = 400 then .needsModel
  else .transient

def latched (answer : MetricsAnswer) (was : MetricsAccess) (role : Option Role) : MetricsAccess :=
  let now : MetricsAccess := match answer with
    | .on | .needsModel => .open
    | .off => .off
    | .refused => .refused
    | .transient => was
  match now, role with
  | .off, some .router => .open
  | _, _ => now

def isLlamacppName (name : String) : Bool := name.startsWith "llamacpp_"

def parseLlamacpp (parsed : ParsedMetrics) : Option ParsedMetrics :=
  if KeyedMap.any (fun name _ => isLlamacppName name) parsed.counters ||
      KeyedMap.any (fun name _ => isLlamacppName name) parsed.gauges then some parsed
  else none

def parseProps (body : Value) : Option ServerFacts :=
  match body with
  | .object members =>
    let role := match (Json.member members "role").bind Json.asString with
      | some "router" => .router
      | _ => .singleModel
    some ⟨role, ((Json.member members "endpoint_slots").bind Json.asBool).getD false⟩
  | _ => none

def classifyPropsAnswer (status : Nat) (body : Option Value) : PropsAnswer :=
  if isSuccess status then
    match body.bind parseProps with
    | some facts => .facts facts
    | none => .failed
  else if status = 401 ∨ status = 403 then .refused
  else .failed

def nonEmptyTrimmed (s : String) : Option String :=
  if (trim s).isEmpty then none else some (trim s)

def modelOf (entry : Value) : Option ModelInfo :=
  match (entry.get "id").bind Json.asString with
  | none => none
  | some id =>
    let metadata := entry.get "meta"
    (nonEmptyTrimmed id).map fun name =>
      { name
        parameterSize := (((metadata.bind (·.get "n_params")).bind valueAsU64).filter (0 < ·)).map formatParamSize
        quantization := ((metadata.bind (·.get "ftype")).bind Json.asString).bind nonEmptyTrimmed }

def classifyModelsAnswer (status : Nat) (body : Option Value) : ModelsAnswer :=
  if isSuccess status then
    match (body.bind (·.get "data")).bind Json.asArray with
    | none => .failed .unavailable
    | some data =>
      if data.any fun entry => ((entry.get "status").map Json.isObject).getD false then .router
      else
        match data.head?.bind modelOf with
        | some model => .model model
        | none => .failed .unavailable
  else .failed (classifyModelsErrorStatus status)

def resolution (answer : ModelsAnswer) (hint : Option String) : ModelResolution :=
  match answer with
  | .model model => ⟨some model, none⟩
  | .router => {}
  | .failed error => ⟨hint.map ModelInfo.named, some error⟩

def slotFlag (slot : Value) (name : String) : Bool :=
  decide ((slot.get name).bind Json.asBool = some true)

def nDecoded (slot : Value) : Option Nat :=
  ((((slot.get "next_token").bind Json.asArray).bind List.head?).bind (·.get "n_decoded")).bind valueAsU64

def parseSlots (body : Value) : Option Slots :=
  body.asArray.map fun slots =>
    -- A `u64` sum, which wraps.
    ⟨((slots.filter fun slot => slotFlag slot "is_processing").filterMap nDecoded).sum % 2 ^ 64,
      slots.any fun slot => slotFlag slot "speculative"⟩

def shouldReadSlots (requestsProcessing : Option ℚ) (slotsEndpoint : Option Bool) : Bool :=
  (requestsProcessing.any fun n => decide (0 < n)) && decide (slotsEndpoint = some true)

/-- The generated-token count the generation rate is taken from; it never falls below `prev`. -/
def liveGenerated (counted : Option ℚ) (inFlight : Option Nat) (prev : Option ℚ) : Option ℚ :=
  counted.map fun counted =>
    let now : ℚ := counted + ((inFlight.getD 0 : Nat) : ℚ)
    match prev with
    | some prev => max now prev
    | none => now

def specCounters (raw : ParsedMetrics) : Option SpecCounters :=
  match raw.counter "llamacpp_spec_decode_num_draft_tokens_total",
    raw.counter "llamacpp_spec_decode_num_accepted_tokens_total",
    raw.counter "llamacpp_spec_decode_num_drafts_total" with
  | some draft, some accepted, some drafts => some ⟨draft, accepted, drafts⟩
  | _, _, _ => none

structure SpecInputs where
  drafter : Option Bool
  liveRate : Option ℚ

def lifetime (raw : ParsedMetrics) (name : String) : Option Nat :=
  (raw.counter name).map fun v => asU64 (max v 0)

def engineMetrics (parsed raw : ParsedMetrics) (rates : RateInputs) (warmingUp : Bool)
    (spec : SpecInputs) : EngineMetrics :=
  let requests := fun name => (parsed.gaugeSum name).map fun v => asU64 (max v 0)
  let blank {α : Type} (field : Option α) : Option α := if warmingUp then none else field
  -- All three are served as zero without a drafter, so zeros alone say "not speculating".
  let speculating := (specCounters raw).filter fun c =>
    decide (0 < c.draft ∨ 0 < c.accepted ∨ 0 < c.drafts ∨ spec.drafter = some true)
  let specTotal := fun value : SpecCounters → ℚ => speculating.map fun c => asU64 (max (value c) 0)
  { tokensPerSec := blank rates.tokensPerSec
    avgTokensPerSec := blank rates.avgTokensPerSec
    perRequestTps := none
    ttftMs := none
    activeRequests := requests "llamacpp_requests_processing"
    queuedRequests := requests "llamacpp_requests_deferred"
    kvCachePercent := none
    kvCacheIsEstimated := false
    totalRequests := none
    e2eLatencyMs := none
    promptTokensPerSec := blank rates.promptTokensPerSec
    avgPromptTokensPerSec := blank rates.avgPromptTokensPerSec
    perRequestPromptTps := none
    swappedRequests := none
    prefixCacheHitRate := none
    queueTimeMs := none
    interTokenLatencyMs := blank (meanMs (parsed.counter "llamacpp_tokens_predicted_seconds_total")
      (parsed.counter predictedTokens))
    preemptionsTotal := none
    totalPromptTokens := lifetime raw promptTokens
    totalGenerationTokens := lifetime raw predictedTokens
    prefixCacheQueriesTotal := none
    avgBatchSize := none
    ttftPercentiles := none
    itlPercentiles := none
    e2ePercentiles := none
    ttftGoodputPct := none
    itlGoodputPct := none
    e2eGoodputPct := none
    ttftBuckets := none
    itlBuckets := none
    e2eBuckets := none
    tpotMs := none
    tpotPercentiles := none
    tpotGoodputPct := none
    tpotBuckets := none
    specDecodeDraftTokensTotal := specTotal SpecCounters.draft
    specDecodeAcceptedTokensTotal := specTotal SpecCounters.accepted
    specDecodeDraftsTotal := specTotal SpecCounters.drafts
    specDecodeAcceptanceRate := speculating.bind fun c => specAcceptanceRate (some c.accepted) (some c.draft)
    specDecodeAcceptanceRateLive := blank (speculating.bind fun _ => spec.liveRate)
    specDecodeMeanAcceptanceLength := speculating.bind fun c =>
      specMeanAcceptanceLength (some c.accepted) (some c.drafts)
    warmingUp }

end LlamaCpp

open LlamaCpp

structure LlamaCppAdapter where
  /-- The model named on the launch command line. -/
  servedModel : Option String := none
  genRate : CounterRate := {}
  promptRate : CounterRate := {}
  warmup : WarmupTracker
  /-- The generated-token count last fed to `genRate`. -/
  generated : Option ℚ := none
  prevSpec : Option (ℚ × ℚ) := none
  learned : Learned := {}
  metricsAccess : MetricsAccess := .open

/-- One poll: the `/metrics` answer, what `/slots` would answer were it asked, and the
time the rates are taken at. -/
structure LlamaCppPoll where
  answer : Option (Nat × Option ParsedMetrics)
  slots : JsonAnswer
  now : Instant

namespace LlamaCppAdapter

def new (servedModel : Option String) : LlamaCppAdapter :=
  { servedModel, warmup := .new 0 warmupTriggerKey }

def metricsOff (a : LlamaCppAdapter) : Bool := decide (a.metricsAccess = .off)

def metricsError (a : LlamaCppAdapter) : Option MetricsError :=
  if a.metricsAccess = .refused then some .authRequired else none

def singleModelGroups : Finset MetricGroup :=
  {.throughput, .activeRequests, .speculativeDecoding, .itlMean}

def metricGroups (a : LlamaCppAdapter) : Finset MetricGroup :=
  match a.learned.role with
  | some .router => ∅
  | _ => singleModelGroups

def learnRole (a : LlamaCppAdapter) (role : Option Role) : LlamaCppAdapter :=
  match role with
  | some role => { a with learned := { a.learned with role := some role } }
  | none => a

def latch (a : LlamaCppAdapter) (answer : MetricsAnswer) : LlamaCppAdapter :=
  learnRole { a with metricsAccess := latched answer a.metricsAccess a.learned.role }
    (match answer with
      | .on => some .singleModel
      | .needsModel => some .router
      | _ => none)

def propsAnswer (answer : JsonAnswer) : PropsAnswer :=
  match answer with
  | some (status, body) => classifyPropsAnswer status body
  | none => .failed

def modelsAnswer (answer : JsonAnswer) : ModelsAnswer :=
  match answer with
  | some (status, body) => classifyModelsAnswer status body
  | none => .failed .unavailable

def learnProps (a : LlamaCppAdapter) (props : PropsAnswer) : LlamaCppAdapter :=
  match props with
  | .facts facts =>
    { a with learned := { a.learned with
        role := some facts.role, slotsEndpoint := some facts.slotsEndpoint } }
  | _ => a

def learnModels (a : LlamaCppAdapter) (models : ModelsAnswer) : LlamaCppAdapter :=
  a.learnRole (match models with
    | .model _ => some .singleModel
    | .router => some .router
    | .failed _ => none)

/-- Whether `/models` is asked after `/props` has been. -/
def asksModels (a : LlamaCppAdapter) (props : PropsAnswer) : Bool :=
  decide (props ≠ .refused ∧ (a.learnProps props).learned.role ≠ some .router)

def getModelInfo (a : LlamaCppAdapter) (props models : JsonAnswer) : ModelResolution × LlamaCppAdapter :=
  let props := propsAnswer props
  let a' := a.learnProps props
  if props = .refused then (resolution (.failed .authRequired) a.servedModel, a')
  else if a'.learned.role = some .router then ({}, a')
  else (resolution (modelsAnswer models) a.servedModel, a'.learnModels (modelsAnswer models))

/-- The state a scrape leaves before anything is read from it: on the poll that captures
the baseline, what depends on the previous reading is forgotten. -/
def afterWarmup (a : LlamaCppAdapter) (raw : ParsedMetrics) : LlamaCppAdapter :=
  let out := a.warmup.observe raw
  if out.1.justTransitioned then
    { a with
      genRate := a.genRate.reset
      promptRate := a.promptRate.reset
      warmup := out.2
      generated := none
      prevSpec := none }
  else { a with warmup := out.2 }

theorem afterWarmup_promptRate (a : LlamaCppAdapter) (raw : ParsedMetrics) :
    (a.afterWarmup raw).promptRate =
      if (a.warmup.observe raw).1.justTransitioned then a.promptRate.reset else a.promptRate := by
  rw [afterWarmup]
  split <;> rfl

theorem afterWarmup_genRate (a : LlamaCppAdapter) (raw : ParsedMetrics) :
    (a.afterWarmup raw).genRate =
      if (a.warmup.observe raw).1.justTransitioned then a.genRate.reset else a.genRate := by
  rw [afterWarmup]
  split <;> rfl

theorem afterWarmup_generated (a : LlamaCppAdapter) (raw : ParsedMetrics) :
    (a.afterWarmup raw).generated =
      if (a.warmup.observe raw).1.justTransitioned then none else a.generated := by
  rw [afterWarmup]
  split <;> rfl

@[simp] theorem afterWarmup_warmup (a : LlamaCppAdapter) (raw : ParsedMetrics) :
    (a.afterWarmup raw).warmup = (a.warmup.observe raw).2 := by
  rw [afterWarmup]
  split <;> rfl

def readSlots (answer : JsonAnswer) : Option Slots :=
  match answer with
  | some (status, body) => if isSuccess status then body.bind parseSlots else none
  | none => none

def slotsOf (a : LlamaCppAdapter) (raw : ParsedMetrics) (answer : JsonAnswer) : Option Slots :=
  if shouldReadSlots (raw.gaugeSum "llamacpp_requests_processing") a.learned.slotsEndpoint then
    readSlots answer
  else none

/-- The scrape the poll carries on with. -/
def scrape (poll : LlamaCppPoll) : Option ParsedMetrics :=
  match poll.answer with
  | some (status, body) => if metricsAnswer status = .on then body.bind parseLlamacpp else none
  | none => none

def latchPoll (a : LlamaCppAdapter) (poll : LlamaCppPoll) : LlamaCppAdapter :=
  match poll.answer with
  | some (status, _) => a.latch (metricsAnswer status)
  | none => a

theorem latchPoll_eq (a : LlamaCppAdapter) (poll : LlamaCppPoll) :
    ∃ learned access, a.latchPoll poll = { a with learned, metricsAccess := access } := by
  have hlatch : ∀ answer, ∃ learned access,
      a.latch answer = { a with learned, metricsAccess := access } := by
    intro answer
    cases answer <;> exact ⟨_, _, rfl⟩
  rw [latchPoll]
  split
  · exact hlatch _
  · exact ⟨a.learned, a.metricsAccess, rfl⟩

@[simp] theorem latchPoll_warmup (a : LlamaCppAdapter) (poll : LlamaCppPoll) :
    (a.latchPoll poll).warmup = a.warmup := by
  obtain ⟨learned, access, h⟩ := a.latchPoll_eq poll
  rw [h]

@[simp] theorem latchPoll_genRate (a : LlamaCppAdapter) (poll : LlamaCppPoll) :
    (a.latchPoll poll).genRate = a.genRate := by
  obtain ⟨learned, access, h⟩ := a.latchPoll_eq poll
  rw [h]

@[simp] theorem latchPoll_promptRate (a : LlamaCppAdapter) (poll : LlamaCppPoll) :
    (a.latchPoll poll).promptRate = a.promptRate := by
  obtain ⟨learned, access, h⟩ := a.latchPoll_eq poll
  rw [h]

@[simp] theorem latchPoll_generated (a : LlamaCppAdapter) (poll : LlamaCppPoll) :
    (a.latchPoll poll).generated = a.generated := by
  obtain ⟨learned, access, h⟩ := a.latchPoll_eq poll
  rw [h]

def getMetrics (a : LlamaCppAdapter) (poll : LlamaCppPoll) : Option EngineMetrics × LlamaCppAdapter :=
  match scrape poll with
  | none => (none, a.latchPoll poll)
  | some raw =>
    let out := ((a.latchPoll poll).warmup.observe raw).1
    let a' := (a.latchPoll poll).afterWarmup raw
    let slots := a'.slotsOf raw poll.slots
    let drafter := (slots.map Slots.speculative).or a'.learned.drafter
    let generated := liveGenerated (raw.counter predictedTokens) (slots.map Slots.decodedInFlight) a'.generated
    let gen := a'.genRate.observe generated poll.now
    let prompt := a'.promptRate.observe (raw.counter promptTokens) poll.now
    let specNow := (specCounters raw).map fun c => (c.accepted, c.draft)
    let rates : RateInputs := ⟨gen.1.1, prompt.1.1, gen.1.2, prompt.1.2⟩
    (some (engineMetrics out.adjusted raw rates out.warmingUp
        ⟨drafter, specLiveAcceptanceRate a'.prevSpec specNow⟩),
      { a' with
        genRate := gen.2
        promptRate := prompt.2
        generated := generated.or a'.generated
        prevSpec := specNow
        learned := { a'.learned with drafter } })

end LlamaCppAdapter

end SparkDashboard.Engines
