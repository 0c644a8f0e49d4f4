import SparkDashboard.Engines.EngineState
import SparkDashboard.Engines.ModelId
import SparkDashboard.Engines.ModelInfo
import SparkDashboard.Library.Stepping

/-!
# Looking a model up

An engine's model is named by its model list, or by its launch, and described by the metadata
its repository is published with. One description is kept, and a failed request for one puts
off every other for a minute.
-/

namespace SparkDashboard.Engines

open Stepping

structure HfSafetensors where
  total : Option ℕ
  /-- In the order the map iterates in. -/
  parameters : Option (List (String × ℕ))
  deriving DecidableEq, Repr

structure HfQuantizationConfig where
  bits : Option ℕ
  quantMethod : Option String
  deriving DecidableEq, Repr

structure HfConfig where
  modelType : Option String
  quantizationConfig : Option HfQuantizationConfig
  deriving DecidableEq, Repr

structure HfModelResponse where
  pipelineTag : Option String
  safetensors : Option HfSafetensors
  config : Option HfConfig
  deriving DecidableEq, Repr

def formatQuantMethod (method : String) : String :=
  match method with
  | "auto-round" => "AutoRound"
  | "gptq" => "GPTQ"
  | "awq" => "AWQ"
  | "bitsandbytes" => "BitsAndBytes"
  | "fp8" => "FP8"
  | other => other

def formatPrecision (bits : ℕ) : String := toString bits ++ "-bit precision"

/-- A float type before the integer ones that packed weights are stored in. -/
def formatTensorType (params : List (String × ℕ)) : Option String :=
  match ["BF16", "F16", "F32", "F64", "FP8"].find? fun key => params.any (·.1 = key) with
  | some key => some key
  | none => params.head?.map (·.1)

/-- What a response says of the model it was asked about. -/
def describe (modelId : String) (hf : HfModelResponse) : ModelInfo :=
  let quantConfig := hf.config.bind (·.quantizationConfig)
  { name := modelId
    parameterSize := (hf.safetensors.bind (·.total)).map formatParamSize
    quantization := (quantConfig.bind (·.quantMethod)).map formatQuantMethod
    precision := (quantConfig.bind (·.bits)).map formatPrecision
    tensorType := (hf.safetensors.bind (·.parameters)).bind formatTensorType
    modelType := hf.config.bind (·.modelType)
    pipelineTag := hf.pipelineTag }

/-- What came of a request: a status with the body as it was read, if it could be, or no answer. -/
inductive HttpReply (α : Type) where
  | answered (status : ℕ) (body : Option α)
  | failed
  deriving DecidableEq, Repr

/-- The body of a successful answer. -/
def HttpReply.accepted? {α : Type} : HttpReply α → Option α
  | .answered status body => if isSuccess status then body else none
  | .failed => none

inductive ModelsEndpointReply where
  | resolved (id : String)
  | empty
  | failed (error : ModelMetadataError)
  deriving DecidableEq, Repr

/-- The ids listed at `/v1/models`, reduced to what the name resolution cares about. -/
def modelsEndpointReply : HttpReply (List String) → ModelsEndpointReply
  | .answered status body =>
    if isSuccess status then
      match body with
      | some (id :: _) => .resolved id
      | some [] => .empty
      | none => .failed .unavailable
    else .failed (classifyModelsErrorStatus status)
  | .failed => .failed .unavailable

def resolveModelName (reply : ModelsEndpointReply) (hint : Option String) :
    Option String × Option ModelMetadataError :=
  match reply with
  | .resolved id => (some (if '/' ∈ id.toList then id else hint.getD id), none)
  | .empty => (hint, some .unavailable)
  | .failed error => (hint, some error)

/-- `normalize_model_id` over strings. -/
def normalizedId (id : String) : String := String.ofList (normalizeModelId id.toList)

def hfRetryCooldown : Instant := 60

/-- An `org/name`, and not a path on a disk. -/
def isHfName (modelId : String) : Bool :=
  decide ('/' ∈ modelId.toList) && !(modelId.toList.head?.any fun c => c = '/' ∨ c = '.' ∨ c = '~')

structure ModelResolver where
  servedModel : Option String
  hfModelCache : Option ModelInfo := none
  lastHfError : Option Instant := none
  deriving DecidableEq

/-- One look-up: how the engine's model list answers, and how the repository would. -/
structure Lookup where
  models : HttpReply (List String)
  /-- Nothing where the client for the request cannot be built. -/
  hf : Option (HttpReply HfModelResponse)
  /-- When the cooldown is looked at. -/
  checkedAt : Instant
  /-- When the request has been answered. -/
  answeredAt : Instant

structure Resolved where
  resolution : ModelResolution
  /-- The model asked for at `https://huggingface.co/api/models/`, if one was. -/
  request : Option String
  deriving DecidableEq

namespace ModelResolver

def new (servedModel : Option String) : ModelResolver := { servedModel }

def coolingDown (r : ModelResolver) (now : Instant) : Bool :=
  r.lastHfError.any fun failed => decide (EngineState.elapsed now failed < hfRetryCooldown)

/-- The metadata of the model, and the model asked for if a request was made. -/
def fetchHfModelInfo (r : ModelResolver) (modelId : String) (call : Lookup) :
    (Option ModelInfo × Option String) × ModelResolver :=
  match r.hfModelCache.filter (·.name = modelId) with
  | some cached => ((some cached, none), r)
  | none =>
    if r.coolingDown call.checkedAt then ((none, none), r)
    else if !isHfName modelId then ((none, none), r)
    else
      match call.hf with
      | none => ((none, none), r)
      | some reply =>
        match reply.accepted? with
        | some hf => ((some (describe modelId hf), some modelId), { r with hfModelCache := some (describe modelId hf) })
        | none => ((none, some modelId), { r with lastHfError := some call.answeredAt })

def resolve (r : ModelResolver) (call : Lookup) : Resolved × ModelResolver :=
  let (name, metadataError) := resolveModelName (modelsEndpointReply call.models) r.servedModel
  match name with
  | none => (⟨{ metadataError }, none⟩, r)
  | some name =>
    let modelId := normalizedId name
    let fetched := r.fetchHfModelInfo modelId call
    (⟨{ model := some (fetched.1.1.getD (.named modelId)), metadataError }, fetched.1.2⟩, fetched.2)

abbrev ResolveEntry := Entry ModelResolver Lookup Resolved

/-- The id under which a look-up asks for its model. -/
def modelId? (servedModel : Option String) (call : Lookup) : Option String :=
  (resolveModelName (modelsEndpointReply call.models) servedModel).1.map normalizedId

/-- What a look-up learned of the model it asked for. -/
def learned? (e : ResolveEntry) : Option ModelInfo :=
  match e.output.request, e.input.hf with
  | some modelId, some reply => reply.accepted?.map (describe modelId)
  | _, _ => none

/-- When the request of a look-up failed. -/
def failedAt? (e : ResolveEntry) : Option Instant :=
  match e.output.request, learned? e with
  | some _, none => some e.input.answeredAt
  | _, _ => none

/-- The resolver remembers the last description learned and the last failure, and nothing else. -/
structure Remembers (servedModel : Option String) (past : List ResolveEntry) (r : ModelResolver) : Prop where
  servedModel_eq : r.servedModel = servedModel
  cache_eq : r.hfModelCache = (past.filterMap learned?).getLast?
  error_eq : r.lastHfError = (past.filterMap failedAt?).getLast?

/-- What one look-up can do. -/
inductive Looks (r : ModelResolver) (call : Lookup) : Resolved → ModelResolver → Prop where
  | unnamed (h : modelId? r.servedModel call = none) :
      Looks r call ⟨⟨none, (resolveModelName (modelsEndpointReply call.models) r.servedModel).2⟩, none⟩ r
  | cached {modelId : String} {info : ModelInfo} (h : modelId? r.servedModel call = some modelId)
      (hcache : r.hfModelCache = some info) (hname : info.name = modelId) :
      Looks r call ⟨⟨some info, (resolveModelName (modelsEndpointReply call.models) r.servedModel).2⟩, none⟩ r
  | unasked {modelId : String} (h : modelId? r.servedModel call = some modelId)
      (hcache : r.hfModelCache.filter (·.name = modelId) = none)
      (hunasked : r.coolingDown call.checkedAt = true ∨ isHfName modelId = false ∨ call.hf = none) :
      Looks r call
        ⟨⟨some (.named modelId), (resolveModelName (modelsEndpointReply call.models) r.servedModel).2⟩, none⟩ r
  | learned {modelId : String} {reply : HttpReply HfModelResponse} {hf : HfModelResponse}
      (h : modelId? r.servedModel call = some modelId) (hcache : r.hfModelCache.filter (·.name = modelId) = none)
      (hcool : r.coolingDown call.checkedAt = false) (hname : isHfName modelId = true) (hreply : call.hf = some reply)
      (haccepted : reply.accepted? = some hf) :
      Looks r call
        ⟨⟨some (describe modelId hf), (resolveModelName (modelsEndpointReply call.models) r.servedModel).2⟩, some modelId⟩
        { r with hfModelCache := some (describe modelId hf) }
  | failed {modelId : String} {reply : HttpReply HfModelResponse}
      (h : modelId? r.servedModel call = some modelId) (hcache : r.hfModelCache.filter (·.name = modelId) = none)
      (hcool : r.coolingDown call.checkedAt = false) (hname : isHfName modelId = true) (hreply : call.hf = some reply)
      (haccepted : reply.accepted? = none) :
      Looks r call
        ⟨⟨some (.named modelId), (resolveModelName (modelsEndpointReply call.models) r.servedModel).2⟩, some modelId⟩
        { r with lastHfError := some call.answeredAt }

theorem looks (r : ModelResolver) (call : Lookup) : Looks r call (r.resolve call).1 (r.resolve call).2 := by
  rw [resolve]
  have hid : modelId? r.servedModel call =
      (resolveModelName (modelsEndpointReply call.models) r.servedModel).1.map normalizedId := rfl
  cases hname : resolveModelName (modelsEndpointReply call.models) r.servedModel with
  | mk name metadataError =>
    have herror : metadataError = (resolveModelName (modelsEndpointReply call.models) r.servedModel).2 := by rw [hname]
    rw [hname] at hid
    dsimp only
    rw [herror]
    cases name with
    | none => exact .unnamed hid
    | some name =>
      dsimp only
      rw [fetchHfModelInfo]
      cases hcache : r.hfModelCache.filter (·.name = normalizedId name) with
      | some cached =>
        obtain ⟨hsome, heq⟩ := Option.filter_eq_some_iff.mp hcache
        exact .cached hid hsome (of_decide_eq_true heq)
      | none =>
        dsimp only
        cases hcool : r.coolingDown call.checkedAt with
        | true => exact .unasked hid hcache (.inl hcool)
        | false =>
          cases hhf : isHfName (normalizedId name) with
          | false => exact .unasked hid hcache (.inr (.inl hhf))
          | true =>
            cases hreply : call.hf with
            | none => exact .unasked hid hcache (.inr (.inr hreply))
            | some reply =>
              cases haccepted : reply.accepted? with
              | some hf =>
                simp only [haccepted]
                exact .learned hid hcache hcool hhf hreply haccepted
              | none =>
                simp only [haccepted]
                exact .failed hid hcache hcool hhf hreply haccepted

/-- The description learned last, if it is of that model. -/
def lastLearned (past : List ResolveEntry) (modelId : String) : Option ModelInfo :=
  (past.filterMap learned?).getLast?.filter (·.name = modelId)

theorem filter_named {info : ModelInfo} {modelId : String} (h : info.name = modelId) :
    (some info).filter (fun info => decide (info.name = modelId)) = some info :=
  Option.filter_eq_some_iff.mpr ⟨rfl, decide_eq_true h⟩

theorem filterMap_concat {α β : Type*} (f : α → Option β) (past : List α) (a : α) :
    (past ++ [a]).filterMap f = past.filterMap f ++ (f a).toList := by
  rw [List.filterMap_append, List.filterMap_cons]
  cases f a <;> rfl

theorem Remembers.next {servedModel : Option String} {past : List ResolveEntry} {r r' : ModelResolver}
    (h : Remembers servedModel past r) {e : ResolveEntry} (hserved : r'.servedModel = r.servedModel)
    (hcache : r'.hfModelCache = (learned? e).or r.hfModelCache) (herror : r'.lastHfError = (failedAt? e).or r.lastHfError) :
    Remembers servedModel (past ++ [e]) r' := by
  have hlast : ∀ {β : Type} (f : ResolveEntry → Option β),
      ((past ++ [e]).filterMap f).getLast? = (f e).or (past.filterMap f).getLast? := by
    intro β f
    rw [filterMap_concat, List.getLast?_append]
    cases f e <;> rfl
  exact ⟨hserved.trans h.servedModel_eq, by rw [hlast, ← h.cache_eq, hcache], by rw [hlast, ← h.error_eq, herror]⟩

theorem remembers_step {servedModel : Option String} {past : List ResolveEntry} {r : ModelResolver}
    (h : Remembers servedModel past r) (call : Lookup) :
    Remembers servedModel (past ++ [entry resolve r call]) (r.resolve call).2 := by
  have hlooks := looks r call
  rw [entry]
  generalize (r.resolve call).1 = out at hlooks
  generalize (r.resolve call).2 = after at hlooks
  cases hlooks with
  | unnamed => exact h.next rfl rfl rfl
  | cached => exact h.next rfl rfl rfl
  | unasked => exact h.next rfl rfl rfl
  | @learned modelId reply hf hid hcache hcool hname hreply haccepted =>
    have hlearned : ∀ resolution after, learned? ⟨r, call, ⟨resolution, some modelId⟩, after⟩ = some (describe modelId hf) := by
      intro resolution after
      simp only [learned?, hreply, haccepted, Option.map_some]
    refine h.next rfl ?_ ?_
    · rw [hlearned]
      rfl
    · rw [failedAt?, hlearned]
      rfl
  | @failed modelId reply hid hcache hcool hname hreply haccepted =>
    have hlearned : ∀ resolution after, learned? ⟨r, call, ⟨resolution, some modelId⟩, after⟩ = none := by
      intro resolution after
      simp only [learned?, hreply, haccepted, Option.map_none]
    refine h.next rfl ?_ ?_
    · rw [hlearned]
      rfl
    · rw [failedAt?, hlearned]
      rfl

/-- The look-ups of one engine follow one another. -/
structure Ordered (calls : List Lookup) : Prop where
  within : ∀ call ∈ calls, call.checkedAt ≤ call.answeredAt
  apart : calls.Pairwise fun call later => call.answeredAt ≤ later.checkedAt

theorem Ordered.failures {servedModel : Option String} {calls : List Lookup} (h : Ordered calls)
    {earlier later : List ResolveEntry} {e : ResolveEntry}
    (hrun : trace resolve (new servedModel) calls = earlier ++ e :: later) :
    (earlier.filterMap failedAt?).Pairwise (· ≤ ·) := by
  have hinputs : (trace resolve (new servedModel) calls).Pairwise
      fun d e => d.input.answeredAt ≤ e.input.answeredAt := by
    have hcalls : calls.Pairwise fun call later => call.answeredAt ≤ later.answeredAt :=
      h.apart.imp_of_mem fun _ hlater hle => hle.trans (h.within _ hlater)
    rw [← map_input_trace resolve (new servedModel) calls, List.pairwise_map] at hcalls
    exact hcalls
  rw [hrun] at hinputs
  have hfailed : ∀ d : ResolveEntry, ∀ t, failedAt? d = some t → t = d.input.answeredAt := by
    intro d t ht
    rw [failedAt?] at ht
    split at ht
    · exact (Option.some.inj ht).symm
    · cases ht
  refine List.Pairwise.filterMap failedAt? ?_ (List.pairwise_append.mp hinputs).1
  intro d d' hle t ht t' ht'
  rw [hfailed d t ht, hfailed d' t' ht']
  exact hle

theorem coolingDown_eq_false_iff {r : ModelResolver} {failures : List Instant} (hsorted : failures.Pairwise (· ≤ ·))
    (hlast : r.lastHfError = failures.getLast?) (now : Instant) :
    r.coolingDown now = false ↔ ∀ failed ∈ failures, hfRetryCooldown ≤ now - failed := by
  have hcool : ∀ failed, EngineState.elapsed now failed < hfRetryCooldown ↔ now - failed < hfRetryCooldown := by
    intro failed
    rw [EngineState.elapsed, CounterRate.durationSince, max_lt_iff]
    exact and_iff_left (by decide +kernel)
  rw [coolingDown, hlast]
  cases failures using List.reverseRecOn with
  | nil => exact iff_of_true rfl nofun
  | append_singleton earlier last =>
    have hle := (List.pairwise_append.mp hsorted).2.2
    rw [List.getLast?_concat, Option.any_some, decide_eq_false_iff_not, hcool, not_lt]
    constructor
    · intro hpast failed hmem
      rcases List.mem_append.mp hmem with hmem | hmem
      · have hfailed := hle failed hmem last (List.mem_singleton_self last)
        linarith
      · rwa [List.mem_singleton.mp hmem]
    · intro hall
      exact hall last (List.mem_append_right _ (List.mem_singleton_self last))

/-- A request is made exactly where nothing is known of the model, no request failed within the last
minute, the name is a repository's and there is a client to ask with. -/
def Asks (servedModel : Option String) (earlier : List ResolveEntry) (call : Lookup) (modelId : String) : Prop :=
  modelId? servedModel call = some modelId ∧ lastLearned earlier modelId = none ∧
    (∀ failed ∈ earlier.filterMap failedAt?, hfRetryCooldown ≤ call.checkedAt - failed) ∧
    isHfName modelId = true ∧ call.hf.isSome = true

theorem request_iff {servedModel : Option String} {earlier : List ResolveEntry} {r : ModelResolver}
    (h : Remembers servedModel earlier r) (hsorted : (earlier.filterMap failedAt?).Pairwise (· ≤ ·)) (call : Lookup)
    (modelId : String) : (r.resolve call).1.request = some modelId ↔ Asks servedModel earlier call modelId := by
  have hlooks := looks r call
  rw [Asks, lastLearned, ← h.servedModel_eq, ← h.cache_eq, ← coolingDown_eq_false_iff hsorted h.error_eq]
  generalize (r.resolve call).1 = out at hlooks ⊢
  generalize (r.resolve call).2 = after at hlooks
  cases hlooks with
  | unnamed hid =>
    refine iff_of_false nofun ?_
    rintro ⟨hsome, -⟩
    cases hid.symm.trans hsome
  | cached hid hcache hname =>
    refine iff_of_false nofun ?_
    rintro ⟨hsome, hnone, -⟩
    obtain rfl := Option.some.inj (hid.symm.trans hsome)
    rw [hcache, filter_named hname] at hnone
    cases hnone
  | unasked hid hcache hunasked =>
    refine iff_of_false nofun ?_
    rintro ⟨hsome, -, hcool, hname, hclient⟩
    obtain rfl := Option.some.inj (hid.symm.trans hsome)
    rcases hunasked with hcooling | hpath | hnone
    · cases hcool.symm.trans hcooling
    · cases hname.symm.trans hpath
    · rw [hnone] at hclient
      cases hclient
  | learned hid hcache hcool hname hreply haccepted =>
    constructor
    · rintro ⟨⟩
      exact ⟨hid, hcache, hcool, hname, by rw [hreply]; rfl⟩
    · rintro ⟨hsome, -⟩
      exact hid.symm.trans hsome
  | failed hid hcache hcool hname hreply haccepted =>
    constructor
    · rintro ⟨⟩
      exact ⟨hid, hcache, hcool, hname, by rw [hreply]; rfl⟩
    · rintro ⟨hsome, -⟩
      exact hid.symm.trans hsome

/-- What is shown of the model is what was last learned, if that is of this model, and else its name. -/
theorem model_eq {servedModel : Option String} {earlier : List ResolveEntry} {r : ModelResolver}
    (h : Remembers servedModel earlier r) (call : Lookup) :
    (r.resolve call).1.resolution =
      ⟨(modelId? servedModel call).map fun modelId =>
        (lastLearned (earlier ++ [entry resolve r call]) modelId).getD (.named modelId),
      (resolveModelName (modelsEndpointReply call.models) servedModel).2⟩ := by
  have hlooks := looks r call
  have hafter := (remembers_step h call).cache_eq
  simp only [lastLearned]
  rw [← hafter, ← h.servedModel_eq]
  generalize (r.resolve call).1 = out at hlooks ⊢
  generalize (r.resolve call).2 = after at hlooks ⊢
  cases hlooks with
  | unnamed hid => rw [hid, Option.map_none]
  | cached hid hcache hname =>
    rw [hid, Option.map_some, hcache, filter_named hname]
    rfl
  | unasked hid hcache hunasked =>
    rw [hid, Option.map_some, hcache]
    rfl
  | @learned modelId reply hf hid hcache hcool hname hreply haccepted =>
    have hsame : (describe modelId hf).name = modelId := rfl
    rw [hid, Option.map_some, filter_named hsame]
    rfl
  | failed hid hcache hcool hname hreply haccepted =>
    rw [hid, Option.map_some, hcache]
    rfl

/-- A model that was described is asked for again only once another has been. -/
theorem exists_other_learned {earlier between : List ResolveEntry} {d : ResolveEntry} {modelId : String} {info : ModelInfo}
    (hlearned : learned? d = some info) (hname : info.name = modelId)
    (hforgotten : lastLearned (earlier ++ d :: between) modelId = none) :
    ∃ d' ∈ between, ∃ other, learned? d' = some other ∧ other.name ≠ modelId := by
  rw [lastLearned, List.filterMap_append, List.filterMap_cons_some hlearned] at hforgotten
  cases hbetween : (between.filterMap learned?).getLast? with
  | none =>
    rw [List.getLast?_eq_none_iff.mp hbetween, List.getLast?_append, List.getLast?_singleton, Option.some_or,
      filter_named hname] at hforgotten
    cases hforgotten
  | some other =>
    rw [List.getLast?_append, List.getLast?_cons, hbetween, Option.getD_some, Option.some_or] at hforgotten
    obtain ⟨d', hmem, hother⟩ := List.mem_filterMap.mp (List.mem_of_getLast? hbetween)
    refine ⟨d', hmem, other, hother, ?_⟩
    intro heq
    rw [filter_named heq] at hforgotten
    cases hforgotten

/-- Over a whole run: a look-up shows what was last learned of the model it names, never another's; it makes
a request exactly where it should; and it asks again for a model it has described only after another. -/
theorem model_lookups (servedModel : Option String) (calls : List Lookup) (h : Ordered calls) :
    ∀ earlier e later, trace resolve (new servedModel) calls = earlier ++ e :: later →
      e.output.resolution =
        ⟨(modelId? servedModel e.input).map fun modelId =>
          (lastLearned (earlier ++ [e]) modelId).getD (.named modelId),
        (resolveModelName (modelsEndpointReply e.input.models) servedModel).2⟩ ∧
      (∀ modelId, e.output.request = some modelId ↔ Asks servedModel earlier e.input modelId) ∧
      ∀ before d between info, earlier = before ++ d :: between → learned? d = some info →
        e.output.request = some info.name →
        ∃ d' ∈ between, ∃ other, learned? d' = some other ∧ other.name ≠ info.name := by
  intro earlier e later hrun
  have hremembers : Remembers servedModel [] (new servedModel) := ⟨rfl, rfl, rfl⟩
  obtain ⟨r, call, hpast, rfl⟩ := forall_split_trace (fun past r _ => Remembers servedModel past r)
    (fun past e => ∃ r call, Remembers servedModel past r ∧ e = entry resolve r call)
    (fun _ _ call _ hpast => remembers_step hpast call) (fun _ r call _ hpast => ⟨r, call, hpast, rfl⟩) []
    hremembers earlier e later hrun
  rw [List.nil_append] at hpast
  have hrequest := request_iff hpast (h.failures hrun) call
  refine ⟨model_eq hpast call, hrequest, ?_⟩
  rintro before d between info rfl hlearned hasked
  exact exists_other_learned hlearned rfl ((hrequest info.name).mp hasked).2.1

/-- A repository is asked about, and nobody answers. -/
def unansweredAt (now : Instant) : Lookup where
  models := .answered 200 (some ["org/model"])
  hf := some .failed
  checkedAt := now
  answeredAt := now

theorem ordered_unanswered : Ordered [unansweredAt 0, unansweredAt 59, unansweredAt 60] := by
  refine ⟨?_, ?_⟩
  · intro call hcall
    simp only [List.mem_cons, List.not_mem_nil, or_false] at hcall
    rcases hcall with rfl | rfl | rfl <;> exact le_refl _
  · decide +kernel

theorem model_lookups_after_cooldown :
    Asks none (trace resolve (new none) [unansweredAt 0, unansweredAt 59]) (unansweredAt 60) "org/model" :=
  ((model_lookups none [unansweredAt 0, unansweredAt 59, unansweredAt 60] ordered_unanswered
    (trace resolve (new none) [unansweredAt 0, unansweredAt 59]) _ [] rfl).2.1 "org/model").mp (by decide +kernel)

end ModelResolver

end SparkDashboard.Engines
