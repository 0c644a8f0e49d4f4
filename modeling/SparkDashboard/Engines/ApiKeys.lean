import SparkDashboard.Engines.Collector

/-!
# API keys

Each engine endpoint has the key it was given on the command line, else the provider's. Whatever the
collector asks of an endpoint carries that key and no other.
-/

namespace SparkDashboard.Engines

open Stepping DetectedEngine

structure ApiKeyResolver where
  perEndpoint : KeyedMap String String
  global : Option String

namespace ApiKeyResolver

/-- Keys are paired with URLs by position; an empty key is none. -/
def fromPairs (engineUrls engineApiKeys : List String) (global : Option String) : ApiKeyResolver where
  perEndpoint :=
    ((engineUrls.zip engineApiKeys).filter fun p => decide (p.2 ≠ "")).foldl (fun m p => m.insert p.1 p.2) ∅
  global := global.filter fun g => decide (g ≠ "")

def resolve (r : ApiKeyResolver) (endpoint : String) : Option String := (r.perEndpoint.lookup endpoint).or r.global

end ApiKeyResolver

structure RunArgs where
  engine : List String
  engineUrl : List String
  engineApiKey : List String
  providerApiKey : Option String

def RunArgs.apiKeys (args : RunArgs) : ApiKeyResolver :=
  .fromPairs args.engineUrl args.engineApiKey args.providerApiKey

/-- An engine configured by hand, with its key. -/
structure KeyedOverride extends EngineOverride where
  apiKey : Option String

def overrideType (name : String) : Option EngineType :=
  if name = "vllm" then some .vllm
  else if name = "sglang" then some .sglang
  else if name = "ollama" then some .ollama
  else if name = "llamacpp" ∨ name = "llama.cpp" ∨ name = "llama-cpp" then some .llamaCpp
  else none

/-- Each type with the URL at its position; a type that is not known is left out. -/
def engineOverrides (toLowercase : String → String) (args : RunArgs) (apiKeys : ApiKeyResolver) : List KeyedOverride :=
  (args.engine.zip args.engineUrl).filterMap fun (engine, url) =>
    (overrideType (toLowercase engine)).map fun engineType => ⟨⟨engineType, url⟩, apiKeys.resolve url⟩

/-- What an adapter is made with beside its type and endpoint. -/
structure AdapterConfig where
  modelHint : Option String
  apiKey : Option String
  deriving DecidableEq

abbrev AdapterMap := KeyedMap EngineKey AdapterConfig

/-- The collector's map, and the adapter of each of its engines. -/
structure Adapters where
  engines : EngineMap
  configs : AdapterMap

namespace Adapters

def seed (overrides : List KeyedOverride) (now : Instant) : Adapters where
  engines := Collector.seed (overrides.map KeyedOverride.toEngineOverride) now
  configs := overrides.foldl (fun configs o => configs.insert o.key ⟨none, o.apiKey⟩) ∅

/-- An adapter is made for an engine that has none. -/
def adopt (apiKeys : ApiKeyResolver) (configs : AdapterMap) (d : DetectedEngine) : AdapterMap :=
  KeyedMap.orInsert configs d.key ⟨d.servedModel, apiKeys.resolve d.endpoint⟩

/-- The endpoints of a candidate that are probed, until one answers. -/
def tried (probe : EngineType → String → Bool) (c : DetectedEngine) : List String :=
  let endpoints := c.endpoint :: c.fallbackEndpoints
  let silent := endpoints.takeWhile fun endpoint => !probe c.engineType endpoint
  silent ++ (answeringEndpoint probe c).toList

/-- A request to an endpoint, and the bearer token it carries. -/
structure Request where
  endpoint : String
  token : Option String
  deriving DecidableEq

/-- One tick of the collector, and what it asks of the endpoints. -/
def step (apiKeys : ApiKeyResolver) (a : Adapters) (tick : Tick) : List Request × Adapters :=
  let engines := (Collector.step a.engines tick).2
  match tick with
  | .detect byProcess byDocker probe _ =>
    let candidates := mergeDockerCandidates byProcess byDocker
    (candidates.flatMap fun c => (tried probe c).map fun endpoint => ⟨endpoint, apiKeys.resolve endpoint⟩,
      ⟨engines, (detectEngines byProcess byDocker probe).foldl (adopt apiKeys) a.configs⟩)
  | .poll _ _ =>
    ((KeyedMap.pairs a.configs).map fun e => ⟨e.1.2, e.2.apiKey⟩,
      ⟨engines, KeyedMap.filterMapKV (fun k config => (engines.lookup k).map fun _ => config) a.configs⟩)

end Adapters

section Resolution

theorem lookup_foldl_insert (pairs : List (String × String)) (m : KeyedMap String String) (endpoint : String) :
    (pairs.foldl (fun m p => m.insert p.1 p.2) m).lookup endpoint =
      (((pairs.filter fun p => decide (p.1 = endpoint)).getLast?).map Prod.snd).or (m.lookup endpoint) := by
  induction pairs generalizing m with
  | nil => rfl
  | cons p rest ih =>
    rw [List.foldl_cons, ih, List.filter_cons]
    by_cases h : p.1 = endpoint
    · rw [if_pos (decide_eq_true h), List.getLast?_cons, ← h, AList.lookup_insert]
      cases (rest.filter fun q => decide (q.1 = p.1)).getLast? <;> rfl
    · rw [if_neg (by simpa using h), AList.lookup_insert_ne (Ne.symm h)]

/-- The last key that is not empty among those paired with the endpoint. -/
def pairedKey (args : RunArgs) (endpoint : String) : Option String :=
  ((((args.engineUrl.zip args.engineApiKey).filter fun p => decide (p.2 ≠ "")).filter fun p =>
    decide (p.1 = endpoint)).getLast?).map Prod.snd

theorem resolve_eq (args : RunArgs) (endpoint : String) :
    args.apiKeys.resolve endpoint =
      (pairedKey args endpoint).or (args.providerApiKey.filter fun g => decide (g ≠ "")) := by
  rw [RunArgs.apiKeys, ApiKeyResolver.resolve, ApiKeyResolver.fromPairs, lookup_foldl_insert, pairedKey]
  congr 1
  exact Option.or_none

/-- Where a token comes from: the endpoint's own pairs, or the provider where there are none. -/
theorem token_source {args : RunArgs} {endpoint token : String} (h : args.apiKeys.resolve endpoint = some token) :
    token ≠ "" ∧ ((endpoint, token) ∈ args.engineUrl.zip args.engineApiKey ∨
      args.providerApiKey = some token ∧ ∀ key, (endpoint, key) ∈ args.engineUrl.zip args.engineApiKey → key = "") := by
  rw [resolve_eq] at h
  rcases Option.or_eq_some_iff.mp h with hpaired | ⟨hnone, hglobal⟩
  · obtain ⟨p, hp, rfl⟩ := Option.map_eq_some_iff.mp hpaired
    obtain ⟨hp, hendpoint⟩ := List.mem_filter.mp (List.mem_of_getLast? hp)
    obtain ⟨hp, hkey⟩ := List.mem_filter.mp hp
    have hsame : p.1 = endpoint := of_decide_eq_true hendpoint
    exact ⟨of_decide_eq_true hkey, .inl (hsame ▸ hp)⟩
  · obtain ⟨hprovider, hkey⟩ := Option.filter_eq_some_iff.mp hglobal
    refine ⟨of_decide_eq_true hkey, .inr ⟨hprovider, fun key hpair => ?_⟩⟩
    rw [pairedKey, Option.map_eq_none_iff, List.getLast?_eq_none_iff, List.filter_eq_nil_iff] at hnone
    by_contra hne
    exact hnone (endpoint, key) (List.mem_filter.mpr ⟨hpair, decide_eq_true hne⟩) (decide_eq_true rfl)

theorem apiKey_of_mem_engineOverrides {toLowercase : String → String} {args : RunArgs} {apiKeys : ApiKeyResolver}
    {o : KeyedOverride} (h : o ∈ engineOverrides toLowercase args apiKeys) : o.apiKey = apiKeys.resolve o.endpoint := by
  obtain ⟨p, -, hp⟩ := List.mem_filterMap.mp h
  obtain ⟨engineType, -, rfl⟩ := Option.map_eq_some_iff.mp hp
  rfl

end Resolution

namespace Adapters

variable {apiKeys : ApiKeyResolver} {a : Adapters}

/-- Each engine has an adapter, and each adapter the key of its endpoint. -/
structure Kept (apiKeys : ApiKeyResolver) (a : Adapters) : Prop where
  same : ∀ k, (a.configs.lookup k).isSome = (a.engines.lookup k).isSome
  keyed : ∀ k config, a.configs.lookup k = some config → config.apiKey = apiKeys.resolve k.2

theorem kept_seed {overrides : List KeyedOverride} (h : ∀ o ∈ overrides, o.apiKey = apiKeys.resolve o.endpoint)
    (now : Instant) : Kept apiKeys (seed overrides now) := by
  have hfold : ∀ (rest : List KeyedOverride) (engines : EngineMap) (configs : AdapterMap),
      (∀ o ∈ rest, o.apiKey = apiKeys.resolve o.endpoint) → Kept apiKeys ⟨engines, configs⟩ →
      Kept apiKeys ⟨(rest.map KeyedOverride.toEngineOverride).foldl
        (fun m o => m.insert o.key (.new o.engineType o.endpoint .native now)) engines,
        rest.foldl (fun configs o => configs.insert o.key ⟨none, o.apiKey⟩) configs⟩ := by
    intro rest
    induction rest with
    | nil => exact fun _ _ _ hkept => hkept
    | cons o rest ih =>
      intro engines configs hrest hkept
      obtain ⟨ho, hrest⟩ := List.forall_mem_cons.mp hrest
      refine ih _ _ hrest ⟨fun k => ?_, fun k config hconfig => ?_⟩
      · by_cases hk : k = o.key
        · rw [hk, AList.lookup_insert, AList.lookup_insert]
          rfl
        · rw [AList.lookup_insert_ne hk, AList.lookup_insert_ne hk]
          exact hkept.same k
      · by_cases hk : k = o.key
        · rw [hk, AList.lookup_insert] at hconfig
          obtain rfl := Option.some.inj hconfig
          rw [hk]
          exact ho
        · rw [AList.lookup_insert_ne hk] at hconfig
          exact hkept.keyed k config hconfig
  exact hfold overrides ∅ ∅ h ⟨fun _ => rfl, fun _ _ hconfig => by cases hconfig⟩

theorem Kept.adopt (h : Kept apiKeys a) (now : Instant) (d : DetectedEngine) :
    Kept apiKeys ⟨Collector.register a.engines now d, adopt apiKeys a.configs d⟩ := by
  refine ⟨fun k => ?_, fun k config hconfig => ?_⟩
  · show ((KeyedMap.orInsert a.configs d.key _).lookup k).isSome = _
    rw [KeyedMap.lookup_orInsert, Collector.lookup_register]
    by_cases hk : k = d.key
    · rw [if_pos hk, if_pos hk]
      rfl
    · rw [if_neg hk, if_neg hk]
      exact h.same k
  · rw [Adapters.adopt, KeyedMap.lookup_orInsert] at hconfig
    by_cases hk : k = d.key
    · rw [if_pos hk] at hconfig
      obtain rfl := Option.some.inj hconfig
      rw [hk]
      cases hprior : a.configs.lookup d.key with
      | none => rfl
      | some prior => exact h.keyed d.key prior hprior
    · rw [if_neg hk] at hconfig
      exact h.keyed k config hconfig

theorem Kept.adoptAll (h : Kept apiKeys a) (now : Instant) (detected : List DetectedEngine) :
    Kept apiKeys ⟨Collector.detect a.engines now detected, detected.foldl (Adapters.adopt apiKeys) a.configs⟩ := by
  have hfold : ∀ (rest : List DetectedEngine) (a : Adapters), Kept apiKeys a →
      Kept apiKeys ⟨rest.foldl (fun m d => Collector.register m now d) a.engines,
        rest.foldl (Adapters.adopt apiKeys) a.configs⟩ := by
    intro rest
    induction rest with
    | nil => exact fun _ hkept => hkept
    | cons d rest ih => exact fun a hkept => ih _ (hkept.adopt now d)
  obtain ⟨hsame, hkeyed⟩ := hfold detected a h
  refine ⟨fun k => ?_, hkeyed⟩
  rw [Collector.detect, Collector.clearStalePids, KeyedMap.lookup_mapKV, Option.isSome_map]
  exact hsame k

theorem Kept.step (h : Kept apiKeys a) (tick : Tick) : Kept apiKeys (Adapters.step apiKeys a tick).2 := by
  cases tick with
  | detect byProcess byDocker probe now => exact h.adoptAll now (detectEngines byProcess byDocker probe)
  | poll probes retainAt =>
    refine ⟨fun k => ?_, fun k config hconfig => ?_⟩
    · show ((KeyedMap.filterMapKV _ a.configs).lookup k).isSome = _
      rw [KeyedMap.lookup_filterMapKV]
      show _ = ((Collector.retain (Collector.polled a.engines probes) retainAt).lookup k).isSome
      cases hconfig : a.configs.lookup k with
      | some config =>
        rw [Option.bind_some, Option.isSome_map]
        rfl
      | none =>
        have hnone : a.engines.lookup k = none := by
          rw [← Option.isNone_iff_eq_none, ← Option.not_isSome, ← h.same k, hconfig]
          rfl
        rw [Collector.retain_polled_lookup, hnone]
        rfl
    · have hbefore : (KeyedMap.filterMapKV _ a.configs).lookup k = some config := hconfig
      rw [KeyedMap.lookup_filterMapKV] at hbefore
      obtain ⟨prior, hprior, hkept⟩ := Option.bind_eq_some_iff.mp hbefore
      obtain ⟨-, -, rfl⟩ := Option.map_eq_some_iff.mp hkept
      exact h.keyed k prior hprior

/-- An adapter is what it was made as for as long as its engine stays. -/
theorem config_kept (tick : Tick) {k : EngineKey} {config config' : AdapterConfig}
    (hconfig : a.configs.lookup k = some config) (hafter : (step apiKeys a tick).2.configs.lookup k = some config') :
    config' = config := by
  cases tick with
  | detect byProcess byDocker probe now =>
    have hfold : ∀ (rest : List DetectedEngine) (configs : AdapterMap), configs.lookup k = some config →
        (rest.foldl (adopt apiKeys) configs).lookup k = some config := by
      intro rest
      induction rest with
      | nil => exact fun _ hlookup => hlookup
      | cons d rest ih =>
        intro configs hlookup
        refine ih _ ?_
        rw [adopt, KeyedMap.lookup_orInsert]
        by_cases hk : k = d.key
        · rw [if_pos hk, ← hk, hlookup]
          rfl
        · rw [if_neg hk]
          exact hlookup
    exact Option.some.inj (hafter.symm.trans (hfold (detectEngines byProcess byDocker probe) a.configs hconfig))
  | poll probes retainAt =>
    have hlookup : (KeyedMap.filterMapKV _ a.configs).lookup k = some config' := hafter
    rw [KeyedMap.lookup_filterMapKV, hconfig, Option.bind_some] at hlookup
    obtain ⟨-, -, hsame⟩ := Option.map_eq_some_iff.mp hlookup
    exact hsame.symm

theorem Kept.requests (h : Kept apiKeys a) (tick : Tick) :
    ∀ r ∈ (Adapters.step apiKeys a tick).1, r.token = apiKeys.resolve r.endpoint := by
  cases tick with
  | detect byProcess byDocker probe now =>
    intro r hr
    obtain ⟨c, -, hr⟩ := List.mem_flatMap.mp hr
    obtain ⟨endpoint, -, rfl⟩ := List.mem_map.mp hr
    rfl
  | poll probes retainAt =>
    intro r hr
    obtain ⟨e, he, rfl⟩ := List.mem_map.mp hr
    obtain ⟨entry, hentry, rfl⟩ := List.mem_map.mp he
    exact h.keyed entry.1 entry.2 (KeyedMap.mem_entries_iff_lookup.mp hentry)

/-- Over a run from any command line: whatever is asked of an endpoint carries a token that was given
for it, or the provider's where none was. -/
theorem tokens_confined (toLowercase : String → String) (args : RunArgs) (started : Instant) (ticks : List Tick) :
    ∀ e ∈ trace (step args.apiKeys) (seed (engineOverrides toLowercase args args.apiKeys) started) ticks,
      (∀ r ∈ e.output, r.token = args.apiKeys.resolve r.endpoint ∧
        ∀ token, r.token = some token → token ≠ "" ∧
          ((r.endpoint, token) ∈ args.engineUrl.zip args.engineApiKey ∨
            args.providerApiKey = some token ∧
              ∀ key, (r.endpoint, key) ∈ args.engineUrl.zip args.engineApiKey → key = "")) ∧
      (∀ k, (e.after.configs.lookup k).isSome = (e.after.engines.lookup k).isSome) ∧
      ∀ k config config', e.before.configs.lookup k = some config → e.after.configs.lookup k = some config' →
        config' = config := by
  refine forall_mem_trace (fun a _ => Kept args.apiKeys a) (fun a tick _ h => h.step tick) ?_
    (kept_seed (fun o ho => apiKey_of_mem_engineOverrides ho) started)
  intro a tick _ h
  refine ⟨fun r hr => ⟨h.requests tick r hr, fun token htoken => ?_⟩, (h.step tick).same,
    fun k config config' hconfig hafter => config_kept tick hconfig hafter⟩
  exact token_source ((h.requests tick r hr).symm.trans htoken)

/-- An engine set by hand with a key of its own, beside the provider's. -/
def keyed : RunArgs := ⟨["vllm"], ["http://localhost:8000"], ["engine-key"], some "provider-key"⟩

def firstPoll : List Request :=
  (step keyed.apiKeys (seed (engineOverrides id keyed keyed.apiKeys) 0)
    (.poll (fun _ => { health := .running, now := 1 }) 1)).1

theorem tokens_confined_keyed :
    firstPoll.all (fun r => decide (r.token = keyed.apiKeys.resolve r.endpoint)) = true ∧
      firstPoll = [⟨"http://localhost:8000", some "engine-key"⟩] := by
  refine ⟨List.all_eq_true.mpr fun r hr => decide_eq_true ?_, by decide +kernel⟩
  exact ((tokens_confined id keyed 0 [.poll (fun _ => { health := .running, now := 1 }) 1] _
    (List.mem_cons_self ..)).1 r hr).1

end Adapters

end SparkDashboard.Engines
