import SparkDashboard.Engines.Detector
import SparkDashboard.Engines.EngineState
import SparkDashboard.Library.KeyedMap
import SparkDashboard.Library.Stepping

/-!
# The engine collector loop

The map of engines, keyed by type and endpoint: seeded with the overrides, added to by
detection passes, polled and trimmed on poll ticks. The two ticks come in any order.
-/

namespace SparkDashboard.Engines

open DetectedEngine

structure EngineOverride where
  engineType : EngineType
  endpoint : String
  deriving DecidableEq, Repr

def EngineOverride.key (o : EngineOverride) : EngineKey := (o.engineType, o.endpoint)

abbrev EngineMap := KeyedMap EngineKey EngineState

inductive Tick where
  /-- A detection pass: what the two scans find and which probes answer. -/
  | detect (byProcess byDocker : List DetectedEngine) (probe : EngineType → String → Bool) (now : Instant)
  /-- A poll of every engine, each with its adapter's answers, and the time of the removals. -/
  | poll (probes : EngineKey → Probe) (retainAt : Instant)

namespace Collector

def seed (overrides : List EngineOverride) (now : Instant) : EngineMap :=
  overrides.foldl (fun m o => m.insert o.key (.new o.engineType o.endpoint .native now)) ∅

def register (m : EngineMap) (now : Instant) (d : DetectedEngine) : EngineMap :=
  let state := match m.lookup d.key with
    | some state => state
    | none => { EngineState.new d.engineType d.endpoint d.deploymentMode now with containerId := d.containerId }
  m.insert d.key (({ state with pids := d.pids }).adoptContainer d.containerId)

def clearStalePids (m : EngineMap) (detected : List EngineKey) : EngineMap :=
  KeyedMap.mapKV (fun key state => if key ∈ detected then state else { state with pids := [] }) m

def detect (m : EngineMap) (now : Instant) (detected : List DetectedEngine) : EngineMap :=
  clearStalePids (detected.foldl (fun m d => register m now d) m) (detected.map key)

def snapshots (m : EngineMap) (probes : EngineKey → Probe) : List EngineSnapshot :=
  (KeyedMap.pairs m).map fun e => (e.2.poll (probes e.1)).1

def polled (m : EngineMap) (probes : EngineKey → Probe) : EngineMap :=
  KeyedMap.mapKV (fun key state => (state.poll (probes key)).2) m

def retain (m : EngineMap) (now : Instant) : EngineMap :=
  KeyedMap.filterMapKV (fun _ state => if state.shouldRemove now then none else some state) m

/-- One tick: the snapshots it publishes, if it is a poll, and the map after it. -/
def step (m : EngineMap) : Tick → Option (List EngineSnapshot) × EngineMap
  | .detect byProcess byDocker probe now => (none, detect m now (detectEngines byProcess byDocker probe))
  | .poll probes retainAt => (some (snapshots m probes), retain (polled m probes) retainAt)

theorem lookup_register (m : EngineMap) (now : Instant) (d : DetectedEngine) (k : EngineKey) :
    (register m now d).lookup k =
      if k = d.key then
        some (({ (match m.lookup d.key with
          | some state => state
          | none => { EngineState.new d.engineType d.endpoint d.deploymentMode now with
              containerId := d.containerId }) with pids := d.pids }).adoptContainer d.containerId)
      else m.lookup k := by
  rw [register]
  by_cases h : k = d.key
  · rw [if_pos h, h]
    exact AList.lookup_insert m
  · rw [if_neg h]
    exact AList.lookup_insert_ne h

theorem register_of_some {m : EngineMap} {k : EngineKey} {s : EngineState} (h : m.lookup k = some s)
    (now : Instant) (d : DetectedEngine) :
    ∃ s', (register m now d).lookup k = some s' ∧ s'.key = s.key ∧ s'.grace = s.grace := by
  rw [lookup_register]
  by_cases hk : k = d.key
  · rw [if_pos hk, ← hk, h]
    exact ⟨_, rfl, by rw [EngineState.key_adoptContainer]; rfl, by rw [EngineState.grace_adoptContainer]; rfl⟩
  · rw [if_neg hk]
    exact ⟨s, h, rfl, rfl⟩

theorem foldl_register_of_some {m : EngineMap} {k : EngineKey} {s : EngineState} (h : m.lookup k = some s)
    (now : Instant) (detected : List DetectedEngine) :
    ∃ s', (detected.foldl (fun m d => register m now d) m).lookup k = some s' ∧ s'.key = s.key ∧
      s'.grace = s.grace := by
  induction detected generalizing m s with
  | nil => exact ⟨s, h, rfl, rfl⟩
  | cons d rest ih =>
    obtain ⟨s', hs', hkey, hgrace⟩ := register_of_some h now d
    obtain ⟨s'', hs'', hkey', hgrace'⟩ := ih hs'
    exact ⟨s'', hs'', hkey'.trans hkey, hgrace'.trans hgrace⟩

theorem detect_of_some {m : EngineMap} {k : EngineKey} {s : EngineState} (h : m.lookup k = some s)
    (now : Instant) (detected : List DetectedEngine) :
    ∃ s', (detect m now detected).lookup k = some s' ∧ s'.key = s.key ∧ s'.grace = s.grace := by
  obtain ⟨s', hs', hkey, hgrace⟩ := foldl_register_of_some h now detected
  rw [detect, clearStalePids, KeyedMap.lookup_mapKV, hs', Option.map_some]
  split
  · exact ⟨s', rfl, hkey, hgrace⟩
  · exact ⟨_, rfl, hkey, hgrace⟩

theorem retain_polled_lookup (m : EngineMap) (probes : EngineKey → Probe) (retainAt : Instant) (k : EngineKey) :
    (retain (polled m probes) retainAt).lookup k = (m.lookup k).bind fun s =>
      if (s.poll (probes k)).2.shouldRemove retainAt then none else some (s.poll (probes k)).2 := by
  rw [retain, polled, KeyedMap.lookup_filterMapKV, KeyedMap.lookup_mapKV]
  cases m.lookup k <;> rfl

theorem exists_snapshot_of_some {m : EngineMap} {k : EngineKey} {s : EngineState} (h : m.lookup k = some s)
    (probes : EngineKey → Probe) :
    (s.poll (probes k)).1 ∈ snapshots m probes := by
  rw [snapshots, KeyedMap.pairs, List.map_map]
  exact List.mem_map.mpr ⟨⟨k, s⟩, KeyedMap.mem_entries_iff_lookup.mpr h, rfl⟩

theorem seed_lookup {overrides : List EngineOverride} {o : EngineOverride} (h : o ∈ overrides) (now : Instant) :
    (seed overrides now).lookup o.key = some (.new o.engineType o.endpoint .native now) := by
  have hinsert : ∀ (m : EngineMap) (o' : EngineOverride),
      (m.insert o'.key (.new o'.engineType o'.endpoint .native now)).lookup o.key =
        if o.key = o'.key then some (.new o.engineType o.endpoint .native now) else m.lookup o.key := by
    intro m o'
    by_cases hkey : o.key = o'.key
    · obtain ⟨htype, hendpoint⟩ := Prod.mk.inj hkey
      rw [if_pos hkey, hkey, htype, hendpoint]
      exact AList.lookup_insert m
    · rw [if_neg hkey]
      exact AList.lookup_insert_ne hkey
  have hfold : ∀ (rest : List EngineOverride) (m : EngineMap),
      (o ∈ rest ∨ m.lookup o.key = some (.new o.engineType o.endpoint .native now)) →
      (rest.foldl (fun m o => m.insert o.key (.new o.engineType o.endpoint .native now)) m).lookup o.key =
        some (.new o.engineType o.endpoint .native now) := by
    intro rest
    induction rest with
    | nil =>
      rintro m (hmem | hm)
      · cases hmem
      · exact hm
    | cons o' rest ih =>
      intro m hor
      refine ih _ ?_
      rw [hinsert]
      by_cases hkey : o.key = o'.key
      · exact .inr (if_pos hkey)
      · rw [if_neg hkey]
        rcases hor with hmem | hm
        · rcases List.mem_cons.mp hmem with rfl | hmem
          · exact absurd rfl hkey
          · exact .inl hmem
        · exact .inr hm
  exact hfold overrides ∅ (.inl h)

end Collector

end SparkDashboard.Engines
