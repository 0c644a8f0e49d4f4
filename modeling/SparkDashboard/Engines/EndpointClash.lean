import SparkDashboard.Engines.Collector

/-!
# One engine an endpoint

The map tells engines apart by type and endpoint, its readers by endpoint alone. Two of
one endpoint are published exactly when a detection pass brings a type onto an endpoint
the map, or the pass itself, has another type on.
-/

namespace SparkDashboard.Engines

open Stepping DetectedEngine

def Tick.isPoll : Tick → Bool
  | .detect .. => false
  | .poll .. => true

def Tick.detected : Tick → List DetectedEngine
  | .detect byProcess byDocker probe _ => detectEngines byProcess byDocker probe
  | .poll .. => []

def OneEnginePerEndpoint (e : Entry EngineMap Tick (Option (List EngineSnapshot))) : Prop :=
  ∀ published, e.output = some published → (published.map EngineSnapshot.endpoint).Nodup

/-- A finding is on an endpoint that an engine of another type already has. -/
def Clash (m : EngineMap) (detected : List DetectedEngine) : Prop :=
  ∃ d ∈ detected, (∃ k ∈ m, k.2 = d.endpoint ∧ k.1 ≠ d.engineType) ∨
    ∃ d' ∈ detected, d'.endpoint = d.endpoint ∧ d'.engineType ≠ d.engineType

namespace Collector

def WellKeyed (m : EngineMap) : Prop := ∀ k s, m.lookup k = some s → s.key = k

def DistinctEndpoints (m : EngineMap) : Prop := ∀ k ∈ m, ∀ k' ∈ m, k.2 = k'.2 → k = k'

theorem mem_iff_lookup {m : EngineMap} {k : EngineKey} : k ∈ m ↔ ∃ s, m.lookup k = some s := by
  rw [← AList.lookup_isSome, Option.isSome_iff_exists]

theorem wellKeyed_seed (overrides : List EngineOverride) (now : Instant) :
    WellKeyed (seed overrides now) := by
  have hfold : ∀ (rest : List EngineOverride) (m : EngineMap), WellKeyed m →
      WellKeyed (rest.foldl (fun m o => m.insert o.key (.new o.engineType o.endpoint .native now)) m) := by
    intro rest
    induction rest with
    | nil => exact fun _ h => h
    | cons o rest ih =>
      intro m h
      refine ih _ ?_
      intro k s hs
      by_cases hk : k = o.key
      · rw [hk, AList.lookup_insert] at hs
        cases hs
        exact hk.symm
      · rw [AList.lookup_insert_ne hk] at hs
        exact h k s hs
  refine hfold overrides ∅ ?_
  intro k s hs
  cases hs

theorem mem_seed {overrides : List EngineOverride} {now : Instant} {k : EngineKey}
    (h : k ∈ seed overrides now) : ∃ o ∈ overrides, o.key = k := by
  have hfold : ∀ (rest : List EngineOverride) (m : EngineMap),
      k ∈ rest.foldl (fun m o => m.insert o.key (.new o.engineType o.endpoint .native now)) m →
      k ∈ m ∨ ∃ o ∈ rest, o.key = k := by
    intro rest
    induction rest with
    | nil => exact fun _ hk => .inl hk
    | cons o rest ih =>
      intro m hk
      rcases ih _ hk with hk | ⟨o', ho', heq⟩
      · rcases (AList.mem_insert m).mp hk with rfl | hk
        · exact .inr ⟨o, List.mem_cons_self, rfl⟩
        · exact .inl hk
      · exact .inr ⟨o', List.mem_cons_of_mem o ho', heq⟩
  rcases hfold overrides ∅ h with hk | ho
  · cases hk
  · exact ho

theorem distinctEndpoints_seed {overrides : List EngineOverride} {now : Instant}
    (h : (overrides.map EngineOverride.endpoint).Nodup) : DistinctEndpoints (seed overrides now) := by
  intro k hk k' hk' heq
  obtain ⟨o, ho, rfl⟩ := mem_seed hk
  obtain ⟨o', ho', rfl⟩ := mem_seed hk'
  rw [List.inj_on_of_nodup_map h ho ho' heq]

theorem wellKeyed_register {m : EngineMap} (h : WellKeyed m) (now : Instant) (d : DetectedEngine) :
    WellKeyed (register m now d) := by
  intro k s hs
  rw [lookup_register] at hs
  by_cases hk : k = d.key
  · rw [if_pos hk] at hs
    cases hs
    rw [EngineState.key_adoptContainer, hk]
    cases hlookup : m.lookup d.key with
    | none => rfl
    | some state => exact h d.key state hlookup
  · rw [if_neg hk] at hs
    exact h k s hs

theorem wellKeyed_detect {m : EngineMap} (h : WellKeyed m) (now : Instant) (detected : List DetectedEngine) :
    WellKeyed (detect m now detected) := by
  have hfold : ∀ (rest : List DetectedEngine) (m : EngineMap), WellKeyed m →
      WellKeyed (rest.foldl (fun m d => register m now d) m) := by
    intro rest
    induction rest with
    | nil => exact fun _ h => h
    | cons d rest ih => exact fun m h => ih _ (wellKeyed_register h now d)
  intro k s hs
  rw [detect, clearStalePids, KeyedMap.lookup_mapKV] at hs
  obtain ⟨state, hstate, rfl⟩ := Option.map_eq_some_iff.mp hs
  have hkey := hfold detected m h k state hstate
  split
  · exact hkey
  · exact hkey

theorem mem_register (m : EngineMap) (now : Instant) (d : DetectedEngine) (k : EngineKey) :
    k ∈ register m now d ↔ k = d.key ∨ k ∈ m :=
  AList.mem_insert m

theorem mem_detect (m : EngineMap) (now : Instant) (detected : List DetectedEngine) (k : EngineKey) :
    k ∈ detect m now detected ↔ k ∈ m ∨ ∃ d ∈ detected, d.key = k := by
  have hfold : ∀ (rest : List DetectedEngine) (m : EngineMap),
      k ∈ rest.foldl (fun m d => register m now d) m ↔ k ∈ m ∨ ∃ d ∈ rest, d.key = k := by
    intro rest
    induction rest with
    | nil => simp
    | cons d rest ih =>
      intro m
      rw [List.foldl_cons, ih, mem_register]
      constructor
      · rintro ((rfl | hm) | ⟨d', hd', rfl⟩)
        · exact .inr ⟨d, List.mem_cons_self, rfl⟩
        · exact .inl hm
        · exact .inr ⟨d', List.mem_cons_of_mem d hd', rfl⟩
      · rintro (hm | ⟨d', hd', rfl⟩)
        · exact .inl (.inr hm)
        · rcases List.mem_cons.mp hd' with rfl | hd'
          · exact .inl (.inl rfl)
          · exact .inr ⟨d', hd', rfl⟩
  rw [← hfold detected m, ← AList.lookup_isSome, ← AList.lookup_isSome, detect, clearStalePids,
    KeyedMap.lookup_mapKV, Option.isSome_map]

/-- A detection pass keeps endpoints apart exactly where it brings no clash. -/
theorem distinctEndpoints_detect_iff {m : EngineMap} (h : DistinctEndpoints m) (now : Instant)
    (detected : List DetectedEngine) :
    DistinctEndpoints (detect m now detected) ↔ ¬ Clash m detected := by
  constructor
  · rintro hdistinct ⟨d, hd, ⟨k, hk, hendpoint, htype⟩ | ⟨d', hd', hendpoint, htype⟩⟩
    · have heq := hdistinct k ((mem_detect m now detected k).mpr (.inl hk)) d.key
        ((mem_detect m now detected d.key).mpr (.inr ⟨d, hd, rfl⟩)) hendpoint
      exact htype (congrArg Prod.fst heq)
    · have heq := hdistinct d'.key ((mem_detect m now detected d'.key).mpr (.inr ⟨d', hd', rfl⟩)) d.key
        ((mem_detect m now detected d.key).mpr (.inr ⟨d, hd, rfl⟩)) hendpoint
      exact htype (congrArg Prod.fst heq)
  · intro hclash
    have hmixed : ∀ k ∈ m, ∀ d ∈ detected, k.2 = d.endpoint → k = d.key := by
      intro k hk d hd hendpoint
      by_cases htype : k.1 = d.engineType
      · exact Prod.ext htype hendpoint
      · exact absurd ⟨d, hd, .inl ⟨k, hk, hendpoint, htype⟩⟩ hclash
    intro k hk k' hk' hendpoint
    rcases (mem_detect m now detected k).mp hk with hm | ⟨d, hd, rfl⟩
    · rcases (mem_detect m now detected k').mp hk' with hm' | ⟨d', hd', rfl⟩
      · exact h k hm k' hm' hendpoint
      · exact hmixed k hm d' hd' hendpoint
    · rcases (mem_detect m now detected k').mp hk' with hm' | ⟨d', hd', rfl⟩
      · exact (hmixed k' hm' d hd hendpoint.symm).symm
      · by_cases htype : d.engineType = d'.engineType
        · exact Prod.ext htype hendpoint
        · exact absurd ⟨d', hd', .inr ⟨d, hd, hendpoint, htype⟩⟩ hclash

theorem retain_polled_of_mem {m : EngineMap} {probes : EngineKey → Probe} {retainAt : Instant} {k : EngineKey}
    {s : EngineState} (h : (retain (polled m probes) retainAt).lookup k = some s) :
    ∃ before, m.lookup k = some before ∧ s = (before.poll (probes k)).2 := by
  rw [retain_polled_lookup] at h
  obtain ⟨before, hbefore, hs⟩ := Option.bind_eq_some_iff.mp h
  split at hs
  · cases hs
  · exact ⟨before, hbefore, (Option.some.inj hs).symm⟩

theorem wellKeyed_step {m : EngineMap} (h : WellKeyed m) (tick : Tick) : WellKeyed (step m tick).2 := by
  cases tick with
  | detect byProcess byDocker probe now => exact wellKeyed_detect h now _
  | poll probes retainAt =>
    intro k s hs
    obtain ⟨before, hbefore, rfl⟩ := retain_polled_of_mem hs
    rw [EngineState.key_poll]
    exact h k before hbefore

theorem distinctEndpoints_poll {m : EngineMap} (h : DistinctEndpoints m) (probes : EngineKey → Probe)
    (retainAt : Instant) : DistinctEndpoints (step m (.poll probes retainAt)).2 := by
  have hsub : ∀ k ∈ (step m (.poll probes retainAt)).2, k ∈ m := by
    intro k hk
    obtain ⟨s, hs⟩ := mem_iff_lookup.mp hk
    obtain ⟨before, hbefore, -⟩ := retain_polled_of_mem hs
    exact mem_iff_lookup.mpr ⟨before, hbefore⟩
  intro k hk k' hk' heq
  exact h k (hsub k hk) k' (hsub k' hk') heq

/-- What a poll publishes is told apart by endpoint exactly where the map's keys are. -/
theorem snapshots_nodup_iff {m : EngineMap} (h : WellKeyed m) (probes : EngineKey → Probe) :
    ((snapshots m probes).map EngineSnapshot.endpoint).Nodup ↔ DistinctEndpoints m := by
  have hendpoints : (snapshots m probes).map EngineSnapshot.endpoint = m.keys.map Prod.snd := by
    rw [snapshots, KeyedMap.pairs, List.map_map, List.map_map, AList.keys, List.keys, List.map_map]
    refine List.map_congr_left ?_
    rintro ⟨k, s⟩ hmem
    have hkey : ((s.poll (probes k)).1.engineType, (s.poll (probes k)).1.endpoint) = k :=
      (s.key_snapshot_poll (probes k)).trans (h k s (KeyedMap.mem_entries_iff_lookup.mp hmem))
    exact congrArg Prod.snd hkey
  rw [hendpoints]
  exact List.nodup_map_iff_inj_on m.nodupKeys

end Collector

open Collector

theorem exists_published_clash {m : EngineMap} (hkeyed : WellKeyed m) (h : ¬ DistinctEndpoints m)
    {ticks : List Tick} (hpoll : ∃ tick ∈ ticks, tick.isPoll = true) :
    ∃ e ∈ trace step m ticks, ¬ OneEnginePerEndpoint e := by
  induction ticks generalizing m with
  | nil =>
    obtain ⟨tick, htick, -⟩ := hpoll
    cases htick
  | cons tick rest ih =>
    cases tick with
    | poll probes retainAt =>
      refine ⟨_, List.mem_cons_self, ?_⟩
      intro hone
      exact h ((snapshots_nodup_iff hkeyed probes).mp (hone _ rfl))
    | detect byProcess byDocker probe now =>
      have hafter : ¬ DistinctEndpoints (detect m now (detectEngines byProcess byDocker probe)) := by
        intro hdistinct
        refine h fun k hk k' hk' heq => hdistinct k ?_ k' ?_ heq
        · exact (mem_detect m now _ k).mpr (.inl hk)
        · exact (mem_detect m now _ k').mpr (.inl hk')
      have hlater : ∃ tick ∈ rest, tick.isPoll = true := by
        obtain ⟨tick, htick, hisPoll⟩ := hpoll
        rcases List.mem_cons.mp htick with rfl | htick
        · cases hisPoll
        · exact ⟨tick, htick, hisPoll⟩
      obtain ⟨e, he, hnot⟩ := ih (wellKeyed_detect hkeyed now _) hafter hlater
      exact ⟨e, List.mem_cons_of_mem _ he, hnot⟩

theorem oneEnginePerEndpoint_of_not_isPoll {m : EngineMap} {tick : Tick} (h : tick.isPoll = false) :
    OneEnginePerEndpoint (entry step m tick) := by
  intro published hpublished
  cases tick with
  | detect byProcess byDocker probe now => cases hpublished
  | poll probes retainAt => cases h

theorem exists_poll_entry_iff {m : EngineMap} {ticks : List Tick} :
    (∃ later ∈ trace step m ticks, later.input.isPoll = true) ↔ ∃ tick ∈ ticks, tick.isPoll = true := by
  have hinputs := map_input_trace step m ticks
  constructor
  · rintro ⟨later, hlater, hpoll⟩
    refine ⟨later.input, ?_, hpoll⟩
    rw [← hinputs]
    exact List.mem_map_of_mem hlater
  · rintro ⟨tick, htick, hpoll⟩
    rw [← hinputs] at htick
    obtain ⟨later, hlater, rfl⟩ := List.mem_map.mp htick
    exact ⟨later, hlater, hpoll⟩

theorem distinctEndpoints_step_iff {m : EngineMap} (h : DistinctEndpoints m) (tick : Tick) :
    DistinctEndpoints (step m tick).2 ↔ ¬ Clash m tick.detected := by
  cases tick with
  | detect byProcess byDocker probe now => exact distinctEndpoints_detect_iff h now _
  | poll probes retainAt =>
    refine iff_of_true (distinctEndpoints_poll h probes retainAt) ?_
    rintro ⟨d, hd, -⟩
    cases hd

theorem oneEnginePerEndpoint_of_distinct {m : EngineMap} (hkeyed : WellKeyed m) (h : DistinctEndpoints m)
    (tick : Tick) : OneEnginePerEndpoint (entry step m tick) := by
  cases tick with
  | detect byProcess byDocker probe now => exact oneEnginePerEndpoint_of_not_isPoll rfl
  | poll probes retainAt =>
    intro published hpublished
    cases hpublished
    exact (snapshots_nodup_iff hkeyed probes).mpr h

theorem forall_oneEnginePerEndpoint_iff {m : EngineMap} (hkeyed : WellKeyed m) (h : DistinctEndpoints m)
    (ticks : List Tick) :
    (∀ e ∈ trace step m ticks, OneEnginePerEndpoint e) ↔
      ∀ past e rest, trace step m ticks = past ++ e :: rest → (∃ later ∈ rest, later.input.isPoll = true) →
        ¬ Clash e.before e.input.detected := by
  induction ticks generalizing m with
  | nil =>
    refine iff_of_true (fun e he => absurd he List.not_mem_nil) ?_
    intro past e rest hsplit
    exact absurd hsplit.symm (List.append_ne_nil_of_right_ne_nil past (List.cons_ne_nil e rest))
  | cons tick rest ih =>
    have hkeyed' := wellKeyed_step hkeyed tick
    have hsplits : (∀ past e after, trace step m (tick :: rest) = past ++ e :: after →
          (∃ later ∈ after, later.input.isPoll = true) → ¬ Clash e.before e.input.detected) ↔
        ((∃ later ∈ trace step (step m tick).2 rest, later.input.isPoll = true) → ¬ Clash m tick.detected) ∧
          ∀ past e after, trace step (step m tick).2 rest = past ++ e :: after →
            (∃ later ∈ after, later.input.isPoll = true) → ¬ Clash e.before e.input.detected := by
      constructor
      · intro hall
        refine ⟨hall [] _ _ rfl, fun past e after hsplit => hall (entry step m tick :: past) e after ?_⟩
        rw [trace_cons, hsplit]
        rfl
      · rintro ⟨hfirst, hrest⟩ past e after hsplit
        cases past with
        | nil =>
          obtain ⟨rfl, rfl⟩ := List.cons.inj hsplit
          exact hfirst
        | cons first past =>
          obtain ⟨-, hafter⟩ := List.cons.inj hsplit
          exact hrest past e after hafter
    rw [hsplits, trace_cons, List.forall_mem_cons]
    have hstep := distinctEndpoints_step_iff h tick
    by_cases hafter : DistinctEndpoints (step m tick).2
    · rw [ih hkeyed' hafter]
      constructor
      · exact fun hall => ⟨fun _ => hstep.mp hafter, hall.2⟩
      · exact fun hall => ⟨oneEnginePerEndpoint_of_distinct hkeyed h tick, hall.2⟩
    · by_cases hpoll : ∃ later ∈ rest, later.isPoll = true
      · refine iff_of_false ?_ ?_
        · rintro ⟨-, hrest⟩
          obtain ⟨e, he, hnot⟩ := exists_published_clash hkeyed' hafter hpoll
          exact hnot (hrest e he)
        · rintro ⟨hfirst, -⟩
          exact hafter (hstep.mpr (hfirst (exists_poll_entry_iff.mpr hpoll)))
      -- Nothing is published from here on.
      · refine iff_of_true ⟨oneEnginePerEndpoint_of_distinct hkeyed h tick, ?_⟩ ⟨?_, ?_⟩
        · intro e he
          rw [eq_entry_of_mem_trace e he]
          refine oneEnginePerEndpoint_of_not_isPoll (Bool.eq_false_iff.mpr fun hisPoll => hpoll ?_)
          exact exists_poll_entry_iff.mp ⟨e, he, hisPoll⟩
        · exact fun hlater => absurd (exists_poll_entry_iff.mp hlater) hpoll
        · rintro past e after hsplit ⟨later, hlater, hisPoll⟩
          have hmem : later ∈ trace step (step m tick).2 rest := by
            rw [hsplit]
            exact List.mem_append_right past (List.mem_cons_of_mem e hlater)
          exact absurd (exists_poll_entry_iff.mp ⟨later, hmem, hisPoll⟩) hpoll

/-- No published snapshot lists two engines on one endpoint exactly in the runs where no
detection pass that a poll follows brings a clash. -/
theorem one_engine_per_endpoint_iff (overrides : List EngineOverride)
    (hoverrides : (overrides.map EngineOverride.endpoint).Nodup) (now : Instant) (ticks : List Tick) :
    (∀ e ∈ trace step (seed overrides now) ticks, OneEnginePerEndpoint e) ↔
      ∀ past e rest, trace step (seed overrides now) ticks = past ++ e :: rest →
        (∃ later ∈ rest, later.input.isPoll = true) → ¬ Clash e.before e.input.detected :=
  forall_oneEnginePerEndpoint_iff (wellKeyed_seed overrides now) (distinctEndpoints_seed hoverrides) ticks

theorem one_engine_per_endpoint_iff_two_overrides :
    let overrides : List EngineOverride := [⟨.vllm, "http://localhost:8000"⟩, ⟨.sglang, "http://localhost:30000"⟩]
    (∀ e ∈ trace step (seed overrides 0) [.poll (fun _ => { health := .running, now := 1 }) 1],
      OneEnginePerEndpoint e) ↔
      ∀ past e rest, trace step (seed overrides 0) [.poll (fun _ => { health := .running, now := 1 }) 1] =
        past ++ e :: rest → (∃ later ∈ rest, later.input.isPoll = true) → ¬ Clash e.before e.input.detected :=
  one_engine_per_endpoint_iff _ (by decide) 0 _

/-- A vLLM server found on a port, and an SGLang server found there five seconds later. -/
def portTakenOver : List Tick :=
  [.detect [{ engineType := .vllm, endpoint := "http://localhost:8000", deploymentMode := .native, pids := [7] }]
      [] (fun type _ => decide (type = .vllm)) 0,
    .poll (fun _ => { health := .running, now := 1 }) 1,
    .detect [{ engineType := .sglang, endpoint := "http://localhost:8000", deploymentMode := .native, pids := [9] }]
      [] (fun type _ => decide (type = .sglang)) 5,
    .poll (fun key => { health := if key.1 = .sglang then .running else .error "HTTP 404", now := 6 }) 6]

theorem two_engines_on_one_endpoint :
    ¬ ∀ e ∈ trace step (seed [] 0) portTakenOver, OneEnginePerEndpoint e := by
  intro h
  have hpublished : (trace step (seed [] 0) portTakenOver).map
      (fun e => (e.output.getD []).map EngineSnapshot.endpoint) =
      [[], ["http://localhost:8000"], [], ["http://localhost:8000", "http://localhost:8000"]] := by
    decide +kernel
  have hmem : ["http://localhost:8000", "http://localhost:8000"] ∈ (trace step (seed [] 0) portTakenOver).map
      (fun e => (e.output.getD []).map EngineSnapshot.endpoint) := by
    rw [hpublished]
    decide
  obtain ⟨e, he, hendpoints⟩ := List.mem_map.mp hmem
  cases hout : e.output with
  | none =>
    rw [hout] at hendpoints
    cases hendpoints
  | some published =>
    have hnodup := h e he published hout
    rw [hout, Option.getD_some] at hendpoints
    rw [hendpoints] at hnodup
    revert hnodup
    decide

end SparkDashboard.Engines
