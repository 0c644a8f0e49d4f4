import SparkDashboard.Engines.Collector
import SparkDashboard.Engines.DetectionSweep
import SparkDashboard.Engines.EndpointClash

/-!
# From the scans of the host to the published engines

The collector's ticks with what the host and Docker show at each. A published engine has the
PIDs of the last pass and no older ones; the container it is tied to was found running it and
stays the same as long as the engine is kept.
-/

namespace SparkDashboard.Engines

open SparkDashboard.Library Chars Stepping DetectedEngine

/-- What a detection pass finds on the host. -/
structure Scan (ε : Type) where
  table : ProcessTable
  environ : Nat → Except ε (List UInt8)
  listed : Option (List Container)
  probe : EngineType → String → Bool

inductive HostTick (ε : Type) where
  | detect (scan : Scan ε) (now : Instant)
  | poll (probes : EngineKey → Probe) (retainAt : Instant)

variable {ε : Type}

def Scan.engines (toLowercase : Text → Text) (scan : Scan ε) : List DetectedEngine :=
  sweep toLowercase scan.table scan.environ scan.listed scan.probe

theorem Scan.distinctKeys (toLowercase : Text → Text) (scan : Scan ε) : DistinctKeys (scan.engines toLowercase) :=
  distinctKeys_sweep

namespace HostTick

def tick (toLowercase : Text → Text) : HostTick ε → Tick
  | .detect scan now =>
    .detect (detectByProcess scan.table scan.environ) (detectDockerEngines toLowercase scan.listed) scan.probe now
  | .poll probes retainAt => .poll probes retainAt

def scan? : HostTick ε → Option (Scan ε)
  | .detect scan _ => some scan
  | .poll .. => none

end HostTick

abbrev HostEntry (ε : Type) := Entry EngineMap (HostTick ε) (Option (List EngineSnapshot))

def hostStep (toLowercase : Text → Text) (m : EngineMap) (tick : HostTick ε) :
    Option (List EngineSnapshot) × EngineMap := Collector.step m (tick.tick toLowercase)

def scans (past : List (HostEntry ε)) : List (Scan ε) := past.filterMap fun e => e.input.scan?

/-- What the last of the passes found; nothing before the first. -/
def lastPass (toLowercase : Text → Text) (done : List (Scan ε)) : List DetectedEngine :=
  (done.getLast?.map (Scan.engines toLowercase)).getD []

def pidsOf (pass : List DetectedEngine) (k : EngineKey) : List Nat :=
  ((pass.find? fun d => d.key = k).map DetectedEngine.pids).getD []

namespace Collector

/-- The state of an engine a pass has found, whether it was known or not. -/
def registered (prior : Option EngineState) (now : Instant) (d : DetectedEngine) : EngineState :=
  ({ prior.getD { EngineState.new d.engineType d.endpoint d.deploymentMode now with containerId := d.containerId }
    with pids := d.pids }).adoptContainer d.containerId

theorem lookup_register_eq (m : EngineMap) (now : Instant) (d : DetectedEngine) (k : EngineKey) :
    (register m now d).lookup k = if d.key = k then some (registered (m.lookup k) now d) else m.lookup k := by
  rw [lookup_register]
  by_cases hk : k = d.key
  · rw [if_pos hk, if_pos hk.symm, hk, registered]
    cases m.lookup d.key <;> rfl
  · rw [if_neg hk, if_neg fun h => hk h.symm]

theorem lookup_foldl_register {detected : List DetectedEngine} (hdistinct : DistinctKeys detected) (m : EngineMap)
    (now : Instant) (k : EngineKey) :
    (detected.foldl (fun m d => register m now d) m).lookup k =
      match detected.find? fun d => d.key = k with
      | some d => some (registered (m.lookup k) now d)
      | none => m.lookup k := by
  induction detected generalizing m with
  | nil => rfl
  | cons d rest ih =>
    obtain ⟨hnew, hrest⟩ := List.nodup_cons.mp hdistinct
    rw [List.foldl_cons, ih hrest, lookup_register_eq]
    by_cases hk : d.key = k
    · have hlater : rest.find? (fun d => d.key = k) = none := by
        rw [List.find?_eq_none]
        intro d' hd' hd'key
        rw [hk, ← of_decide_eq_true hd'key] at hnew
        exact hnew (List.mem_map_of_mem hd')
      rw [hlater, List.find?_cons, decide_eq_true hk, if_pos hk]
    · rw [List.find?_cons, decide_eq_false hk, if_neg hk]

theorem lookup_detect {detected : List DetectedEngine} (hdistinct : DistinctKeys detected) (m : EngineMap)
    (now : Instant) (k : EngineKey) :
    (detect m now detected).lookup k =
      match detected.find? fun d => d.key = k with
      | some d => some (registered (m.lookup k) now d)
      | none => (m.lookup k).map fun s => { s with pids := [] } := by
  rw [detect, clearStalePids, KeyedMap.lookup_mapKV, lookup_foldl_register hdistinct]
  cases hfind : detected.find? fun d => d.key = k with
  | some d =>
    have hkey : d.key = k := by simpa using List.find?_some hfind
    have hmem : k ∈ detected.map key := hkey ▸ List.mem_map_of_mem (List.mem_of_find?_eq_some hfind)
    simp only [Option.map_some, if_pos hmem]
  | none =>
    have hmem : k ∉ detected.map key := by
      intro hmem
      obtain ⟨d, hd, hk⟩ := List.mem_map.mp hmem
      exact List.find?_eq_none.mp hfind d hd (decide_eq_true hk)
    simp only [if_neg hmem]

end Collector

/-- What a poll leaves of an engine as detection has set it. -/
def EngineState.found (s : EngineState) : List Nat × Option String × DeploymentMode :=
  (s.pids, s.containerId, s.deploymentMode)

namespace EngineState

theorem found_poll (s : EngineState) (probe : Probe) : (s.poll probe).2.found = s.found :=
  congrArg Prod.snd (s.detected_poll probe)

theorem found_snapshot_poll (s : EngineState) (probe : Probe) :
    ((s.poll probe).1.pids, (s.poll probe).1.containerId, (s.poll probe).1.deploymentMode) = s.found :=
  s.found_poll probe

theorem pids_adoptContainer (s : EngineState) (containerId : Option String) :
    (s.adoptContainer containerId).pids = s.pids := by
  cases containerId with
  | none => rw [adoptContainer.eq_def]; split <;> rfl
  | some id => rw [adoptContainer.eq_def]; split <;> rfl

theorem adoptContainer_of_some {s : EngineState} {id : String} (h : s.containerId = some id)
    (containerId : Option String) : s.adoptContainer containerId = s := by
  rw [adoptContainer.eq_def, h]
  rfl

theorem adoptContainer_cases {s : EngineState} {containerId : Option String} {id : String}
    (h : (s.adoptContainer containerId).containerId = some id) :
    (s.containerId = some id ∧ (s.adoptContainer containerId).deploymentMode = s.deploymentMode) ∨
      (containerId = some id ∧ (s.adoptContainer containerId).deploymentMode = .docker) := by
  cases hid : s.containerId with
  | some other =>
    rw [adoptContainer_of_some hid] at h ⊢
    exact .inl ⟨hid.symm.trans h, rfl⟩
  | none =>
    cases containerId with
    | none =>
      rw [adoptContainer.eq_def, hid] at h
      cases hid.symm.trans h
    | some other =>
      rw [adoptContainer.eq_def, hid] at h ⊢
      exact .inr ⟨h, rfl⟩

end EngineState

namespace Collector

variable {toLowercase : Text → Text}

/-- What the collector keeps of an engine once these passes are done. -/
structure Kept (toLowercase : Text → Text) (done : List (Scan ε)) (k : EngineKey) (s : EngineState) : Prop where
  key : s.key = k
  pids : s.pids = pidsOf (lastPass toLowercase done) k
  container : ∀ id, s.containerId = some id → s.deploymentMode = .docker ∧
    ∃ scan ∈ done, ∃ d ∈ scan.engines toLowercase, d.key = k ∧ d.containerId = some id

def AllKept (toLowercase : Text → Text) (done : List (Scan ε)) (m : EngineMap) : Prop :=
  ∀ k s, m.lookup k = some s → Kept toLowercase done k s

variable {done : List (Scan ε)} {m : EngineMap}

theorem lastPass_concat (done : List (Scan ε)) (scan : Scan ε) :
    lastPass toLowercase (done ++ [scan]) = scan.engines toLowercase := by
  rw [lastPass, List.getLast?_concat]
  rfl

theorem kept_registered (h : AllKept toLowercase done m) {scan : Scan ε} {d : DetectedEngine}
    (hfind : (scan.engines toLowercase).find? (fun e => e.key = d.key) = some d) (now : Instant) :
    Kept toLowercase (done ++ [scan]) d.key (registered (m.lookup d.key) now d) := by
  have hd := List.mem_of_find?_eq_some hfind
  refine ⟨?_, ?_, ?_⟩
  · rw [registered, EngineState.key_adoptContainer]
    cases hprior : m.lookup d.key with
    | none => rfl
    | some s => exact (h d.key s hprior).key
  · rw [registered, EngineState.pids_adoptContainer, lastPass_concat, pidsOf, hfind]
    rfl
  · intro id hid
    have hnew : d.containerId = some id → ∃ scan' ∈ done ++ [scan], ∃ d' ∈ scan'.engines toLowercase,
        d'.key = d.key ∧ d'.containerId = some id :=
      fun hdid => ⟨scan, List.mem_append_right _ List.mem_cons_self, d, hd, rfl, hdid⟩
    rcases EngineState.adoptContainer_cases hid with ⟨hprior, hmode⟩ | ⟨hdid, hmode⟩
    · cases hlookup : m.lookup d.key with
      | none =>
        rw [hlookup] at hprior hmode
        exact ⟨hmode.trans (container_of_swept hd hprior).1, hnew hprior⟩
      | some s =>
        rw [hlookup] at hprior hmode
        obtain ⟨hdocker, scan', hscan', hfound⟩ := (h d.key s hlookup).container id hprior
        exact ⟨hmode.trans hdocker, scan', List.mem_append_left _ hscan', hfound⟩
    · exact ⟨hmode, hnew hdid⟩

theorem allKept_detect (h : AllKept toLowercase done m) (scan : Scan ε) (now : Instant) :
    AllKept toLowercase (done ++ [scan]) (detect m now (scan.engines toLowercase)) := by
  intro k s hs
  rw [lookup_detect (scan.distinctKeys toLowercase)] at hs
  cases hfind : (scan.engines toLowercase).find? fun d => d.key = k with
  | some d =>
    have hkey : d.key = k := by simpa using List.find?_some hfind
    rw [hfind] at hs
    cases hs
    subst hkey
    exact kept_registered h hfind now
  | none =>
    rw [hfind] at hs
    obtain ⟨s₀, hs₀, rfl⟩ := Option.map_eq_some_iff.mp hs
    have hkept := h k s₀ hs₀
    refine ⟨hkept.key, ?_, ?_⟩
    · rw [lastPass_concat, pidsOf, hfind]
      rfl
    · intro id hid
      obtain ⟨hmode, scan', hscan', hfound⟩ := hkept.container id hid
      exact ⟨hmode, scan', List.mem_append_left _ hscan', hfound⟩

theorem Kept.of_found {k : EngineKey} {s s' : EngineState} (h : Kept toLowercase done k s) (hkey : s'.key = s.key)
    (hfound : s'.found = s.found) : Kept toLowercase done k s' := by
  obtain ⟨hpids, hrest⟩ := Prod.mk.inj hfound
  obtain ⟨hid, hmode⟩ := Prod.mk.inj hrest
  refine ⟨hkey.trans h.key, hpids.trans h.pids, ?_⟩
  intro id hid'
  rw [hmode]
  exact h.container id (hid.symm.trans hid')

theorem allKept_poll (h : AllKept toLowercase done m) (probes : EngineKey → Probe) (retainAt : Instant) :
    AllKept toLowercase done (retain (polled m probes) retainAt) := by
  intro k s hs
  rw [retain_polled_lookup] at hs
  obtain ⟨s₀, hs₀, hkeep⟩ := Option.bind_eq_some_iff.mp hs
  split at hkeep
  · cases hkeep
  · cases hkeep
    exact (h k s₀ hs₀).of_found (s₀.key_poll _) (s₀.found_poll _)

theorem allKept_step (h : AllKept toLowercase done m) (tick : HostTick ε) :
    AllKept toLowercase (done ++ tick.scan?.toList) (hostStep toLowercase m tick).2 := by
  cases tick with
  | detect scan now => exact allKept_detect h scan now
  | poll probes retainAt =>
    have hsame : done ++ (HostTick.poll probes retainAt : HostTick ε).scan?.toList = done := List.append_nil done
    rw [hsame]
    exact allKept_poll h probes retainAt

theorem allKept_seed (overrides : List EngineOverride) (started : Instant) :
    AllKept toLowercase ([] : List (Scan ε)) (seed overrides started) := by
  have hfold : ∀ (rest : List EngineOverride) (m : EngineMap), AllKept toLowercase ([] : List (Scan ε)) m →
      AllKept toLowercase ([] : List (Scan ε))
        (rest.foldl (fun m o => m.insert o.key (.new o.engineType o.endpoint .native started)) m) := by
    intro rest
    induction rest with
    | nil => exact fun _ h => h
    | cons o rest ih =>
      intro m h
      refine ih _ ?_
      intro k s hs
      by_cases hk : k = o.key
      · rw [hk, AList.lookup_insert] at hs
        cases hs
        refine ⟨hk.symm, rfl, ?_⟩
        intro id hid
        cases hid
      · rw [AList.lookup_insert_ne hk] at hs
        exact h k s hs
  refine hfold overrides ∅ ?_
  intro k s hs
  cases hs

/-- A container, once an engine is tied to it, is its container on every tick that keeps the engine. -/
theorem containerId_kept (m : EngineMap) (tick : HostTick ε) {k : EngineKey} {s s' : EngineState} {id : String}
    (hs : m.lookup k = some s) (hid : s.containerId = some id)
    (hs' : (hostStep toLowercase m tick).2.lookup k = some s') : s'.containerId = some id := by
  cases tick with
  | detect scan now =>
    have hlookup : (detect m now (scan.engines toLowercase)).lookup k = some s' := hs'
    rw [lookup_detect (scan.distinctKeys toLowercase), hs] at hlookup
    split at hlookup
    · cases hlookup
      have hpids : ∀ pids, ({ s with pids } : EngineState).containerId = some id := fun _ => hid
      rw [registered, Option.getD_some, EngineState.adoptContainer_of_some (hpids _)]
      exact hid
    · cases hlookup
      exact hid
  | poll probes retainAt =>
    have hlookup : (retain (polled m probes) retainAt).lookup k = some s' := hs'
    rw [retain_polled_lookup, hs, Option.bind_some] at hlookup
    split at hlookup
    · cases hlookup
    · cases hlookup
      have hfound := congrArg (fun f => f.2.1) (s.found_poll (probes k))
      exact hfound.trans hid

/-- A published engine, once these passes are done: the PIDs the last has found it with, none where that
has not found it, and as its container one from which a pass has reached this very engine. -/
structure Follows (toLowercase : Text → Text) (done : List (Scan ε)) (s : EngineSnapshot) : Prop where
  pids : s.pids = pidsOf (lastPass toLowercase done) (s.engineType, s.endpoint)
  container : ∀ id, s.containerId = some id → s.deploymentMode = .docker ∧ ∃ scan ∈ done,
    ∃ e ∈ scan.engines toLowercase, e.key = (s.engineType, s.endpoint) ∧ e.containerId = some id ∧ ∃ container,
      FoundIn toLowercase scan.listed s.engineType container ∧ container.id = some id ∧
      container.Evidence toLowercase s.engineType ∧ ∃ d, container.candidate toLowercase = some d ∧
        Reached scan.probe (mergedCandidates toLowercase scan.table scan.environ scan.listed) d e

theorem follows_snapshot {k : EngineKey} {s : EngineState} (h : Kept toLowercase done k s) (probe : Probe) :
    Follows toLowercase done (s.poll probe).1 := by
  obtain ⟨hpids, hrest⟩ := Prod.mk.inj (s.found_snapshot_poll probe)
  obtain ⟨hcontainer, hmode⟩ := Prod.mk.inj hrest
  have hkey : ((s.poll probe).1.engineType, (s.poll probe).1.endpoint) = k := (s.key_snapshot_poll probe).trans h.key
  refine ⟨hpids.trans (h.pids.trans (congrArg _ hkey.symm)), ?_⟩
  intro id hid
  obtain ⟨hdocker, scan, hscan, d, hd, hdkey, hdid⟩ := h.container id (hcontainer.symm.trans hid)
  obtain ⟨-, container, hfound, hcid, hevidence, -, candidate, hcandidate, hreached⟩ := container_of_swept hd hdid
  have htype : d.engineType = (s.poll probe).1.engineType := (Prod.mk.inj (hdkey.trans hkey.symm)).1
  rw [htype] at hfound hevidence
  exact ⟨hmode.trans hdocker, scan, hscan, d, hd, hdkey.trans hkey.symm, hdid, container, hfound, hcid, hevidence,
    candidate, hcandidate, hreached⟩

theorem follows_published (h : AllKept toLowercase done m) {tick : HostTick ε} {published : List EngineSnapshot}
    (hpublished : (hostStep toLowercase m tick).1 = some published) : ∀ s ∈ published, Follows toLowercase done s := by
  intro snapshot hsnapshot
  cases tick with
  | detect scan now => cases hpublished
  | poll probes retainAt =>
    cases hpublished
    obtain ⟨⟨k, s⟩, hentry, rfl⟩ := List.mem_map.mp hsnapshot
    obtain ⟨⟨k', s'⟩, hmem, hsame⟩ := List.mem_map.mp hentry
    obtain ⟨rfl, rfl⟩ : k' = k ∧ s' = s := Prod.mk.inj hsame
    exact follows_snapshot (h k' s' (KeyedMap.mem_entries_iff_lookup.mp hmem)) (probes k')

theorem scans_concat (past : List (HostEntry ε)) (m : EngineMap) (tick : HostTick ε) :
    scans (past ++ [entry (hostStep toLowercase) m tick]) = scans past ++ tick.scan?.toList := by
  rw [scans, List.filterMap_append]
  cases tick <;> rfl

/-- Over a run: what is published of an engine follows the passes that were, and an engine keeps its
container as long as it is kept. -/
theorem published_engines_follow_scans (toLowercase : Text → Text) (overrides : List EngineOverride)
    (started : Instant) (ticks : List (HostTick ε)) :
    ∀ earlier e later, trace (hostStep toLowercase) (seed overrides started) ticks = earlier ++ e :: later →
      (∀ published, e.output = some published → ∀ s ∈ published, Follows toLowercase (scans earlier) s) ∧
      ∀ k s s' id, e.before.lookup k = some s → s.containerId = some id → e.after.lookup k = some s' →
        s'.containerId = some id := by
  intro earlier e later hrun
  have hpreserved : ∀ (past : List (HostEntry ε)) m tick (_ : List (HostTick ε)), AllKept toLowercase (scans past) m →
      AllKept toLowercase (scans (past ++ [entry (hostStep toLowercase) m tick])) (hostStep toLowercase m tick).2 := by
    intro past m tick _ hpast
    rw [scans_concat]
    exact allKept_step hpast tick
  obtain ⟨hkept, m, tick, rfl⟩ := forall_split_trace (fun past m (_ : List (HostTick ε)) =>
    AllKept toLowercase (scans past) m)
    (fun past e => AllKept toLowercase (scans past) e.before ∧ ∃ m tick, e = entry (hostStep toLowercase) m tick)
    hpreserved (fun _ m tick _ hpast => ⟨hpast, m, tick, rfl⟩) [] (allKept_seed overrides started) earlier e later hrun
  rw [List.nil_append] at hkept
  exact ⟨fun published hpublished => follows_published hkept hpublished,
    fun k s s' id hs hid hs' => containerId_kept m tick hs hid hs'⟩

/-- A vLLM server in a container, and a pass that finds it. -/
def vllmContainer : Container where
  id := some "c0ffee"
  names := none
  image := some "vllm/vllm-openai".toList
  command := none
  ports := some [⟨8000, some 8000, none, some .tcp⟩]
  networkMode := none
  topProcesses := some [["4242".toList, "python3".toList]]
  inspectedEnv := none

def vllmScan : Scan Unit := ⟨⟨[], List.nodup_nil⟩, fun _ => .error (), some [vllmContainer], fun _ _ => true⟩

def answersAt (now : Instant) : EngineKey → Probe := fun _ => { health := .running, now }

theorem published_engines_follow_scans_container :
    ∃ s ∈ snapshots (hostStep id (seed [] 0) (.detect vllmScan 0)).2 (answersAt 1),
      (s.pids = [4242] ∧ s.containerId = some "c0ffee") ∧ Follows id [vllmScan] s := by
  have hshown : (snapshots (hostStep id (seed [] 0) (.detect vllmScan 0)).2 (answersAt 1)).any
      (fun s => decide (s.pids = [4242] ∧ s.containerId = some "c0ffee")) = true := by decide +kernel
  obtain ⟨s, hs, hfound⟩ := List.any_eq_true.mp hshown
  refine ⟨s, hs, of_decide_eq_true hfound, ?_⟩
  exact (published_engines_follow_scans id [] 0 [.detect vllmScan 0, .poll (answersAt 1) 1]
    [entry (hostStep id) (seed [] 0) (.detect vllmScan 0)]
    (entry (hostStep id) (hostStep id (seed [] 0) (.detect vllmScan 0)).2 (.poll (answersAt 1) 1)) [] rfl).1 _ rfl s hs

end Collector

end SparkDashboard.Engines
