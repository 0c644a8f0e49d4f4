import SparkDashboard.Browser.MetricsHistoryStore

/-!
# What the history store has been given

All samples of a run in one log, each with the place it was written to. Every buffer
holds the last samples of the log at its place, whatever was read in between.
-/

namespace SparkDashboard.Browser

open Dashboard (TimeWindow)
open Stepping Utf16

abbrev Written := Place × DataPoint

def samplesAt (place : Place) (log : List Written) : List DataPoint :=
  log.filterMap fun w => if w.1 = place then some w.2 else none

theorem samplesAt_append (place : Place) (first second : List Written) :
    samplesAt place (first ++ second) = samplesAt place first ++ samplesAt place second :=
  List.filterMap_append

theorem samplesAt_flatMap {κ : Type*} (place : Place) (l : List κ) (log : κ → List Written) :
    samplesAt place (l.flatMap log) = l.flatMap fun k => samplesAt place (log k) :=
  List.filterMap_flatMap

section Carried

/-- What a loop over keys writes: each value that is there, at the place of its key. -/
def samplesOf {κ : Type*} (ts : ℚ) (place : κ → Place) (value : κ → Option ℚ) (keys : List κ) : List Written :=
  keys.filterMap fun key => (value key).map fun v => (place key, ⟨ts, v⟩)

def point (ts : ℚ) (value : Option ℚ) : List DataPoint := (value.map (DataPoint.mk ts)).toList

theorem samplesAt_written (place other : Place) (ts : ℚ) (val : Option ℚ) :
    samplesAt other (val.map fun v => (place, (⟨ts, v⟩ : DataPoint))).toList =
      if place = other then point ts val else [] := by
  cases val with
  | none => exact (ite_self _).symm
  | some v =>
    by_cases h : place = other
    · simp [samplesAt, point, h]
    · simp [samplesAt, h]

variable {κ : Type*} {ts : ℚ} {place : κ → Place} {value : κ → Option ℚ} {keys : List κ}

theorem samplesOf_cons (key : κ) (rest : List κ) :
    samplesOf ts place value (key :: rest) =
      ((value key).map fun v => (place key, (⟨ts, v⟩ : DataPoint))).toList ++ samplesOf ts place value rest := by
  rw [samplesOf, List.filterMap_cons]
  cases value key with
  | none => rfl
  | some v => rfl

theorem samplesAt_samplesOf_cons (other : Place) (key : κ) (rest : List κ) :
    samplesAt other (samplesOf ts place value (key :: rest)) =
      (if place key = other then point ts (value key) else []) ++
        samplesAt other (samplesOf ts place value rest) := by
  rw [samplesOf_cons, samplesAt_append, samplesAt_written]

theorem samplesAt_samplesOf_of_ne {other : Place} (h : ∀ key ∈ keys, place key ≠ other) :
    samplesAt other (samplesOf ts place value keys) = [] := by
  induction keys with
  | nil => rfl
  | cons key rest ih =>
    obtain ⟨hkey, hrest⟩ := List.forall_mem_cons.mp h
    rw [samplesAt_samplesOf_cons, if_neg hkey, ih hrest, List.append_nil]

theorem samplesAt_samplesOf_self (hplace : Function.Injective place) (hnodup : keys.Nodup) {key : κ}
    (hkey : key ∈ keys) : samplesAt (place key) (samplesOf ts place value keys) = point ts (value key) := by
  induction keys with
  | nil => cases hkey
  | cons first rest ih =>
    obtain ⟨hfirst, hrest⟩ := List.nodup_cons.mp hnodup
    rw [samplesAt_samplesOf_cons]
    rcases List.mem_cons.mp hkey with rfl | hmem
    · have hothers : ∀ k ∈ rest, place k ≠ place key := fun k hk heq => hfirst (hplace heq ▸ hk)
      rw [if_pos rfl, samplesAt_samplesOf_of_ne hothers, List.append_nil]
    · have hne : place first ≠ place key := fun heq => hfirst (hplace heq ▸ hmem)
      rw [if_neg hne, ih hrest hmem, List.nil_append]

/-- Of loops over one set of keys, each at places of its own, only the one at the place writes there. -/
theorem samplesAt_samplesOf {γ : Type*} [DecidableEq γ] {places : γ → κ → Place}
    (hplaces : ∀ g g' k k', places g k = places g' k' → g = g' ∧ k = k') (hnodup : keys.Nodup) {key : κ}
    (hkey : key ∈ keys) (g g' : γ) :
    samplesAt (places g key) (samplesOf ts (places g') value keys) = if g' = g then point ts (value key) else [] := by
  split
  · rename_i heq
    subst heq
    exact samplesAt_samplesOf_self (fun k k' h => (hplaces _ _ k k' h).2) hnodup hkey
  · rename_i hne
    exact samplesAt_samplesOf_of_ne fun k _ h => hne (hplaces _ _ k key h).1

variable (metrics : MetricsSnapshot)

def systemWritten : List Written :=
  samplesOf metrics.timestampMs .system (extractValue metrics) systemMetricKeys

def gpuWritten (ts : ℚ) (gpu : GpuMetrics) : List Written :=
  samplesOf ts (.gpu (decimal (gpuIndexOf gpu).toNat)) (extractGpuValue gpu) gpuMetricKeys

def engineWritten (ts : ℚ) (key : Utf16) (metrics : Option EngineMetrics) : List Written :=
  samplesOf ts (.engine key) (fun name => metrics.bind name.sample) engineSeriesNames

def written : List Written :=
  systemWritten metrics ++ (snapshotGpus metrics).flatMap (gpuWritten metrics.timestampMs) ++
    metrics.engines.flatMap (fun engine =>
      engineWritten metrics.timestampMs (engineKey engine.identity) engine.metrics) ++
    engineWritten metrics.timestampMs allEnginesKey (aggregateEngineMetrics metrics.engines)

end Carried

namespace SeriesBuffers

def TracksBuffer : Option (CircularBuffer DataPoint) → List DataPoint → Prop
  | some buffer, pushed => buffer.Holds bufferCapacity pushed
  | none, pushed => pushed = []

/-- Every buffer holds the end of the log at its place; where there is none, nothing was written. -/
def Tracks (s : SeriesBuffers) (log : List Written) : Prop :=
  ∀ place, TracksBuffer (s.bufferAt place) (samplesAt place log)

theorem bufferAt_modifyAt (s : SeriesBuffers) (place other : Place)
    (f : CircularBuffer DataPoint → CircularBuffer DataPoint) :
    (s.modifyAt place f).bufferAt other =
      if other = place then (s.bufferAt place).map f else s.bufferAt other := by
  cases place with
  | system key =>
    cases other with
    | system other =>
      by_cases h : other = key
      · subst h
        simp [modifyAt, bufferAt]
      · simp [modifyAt, bufferAt, h]
    | gpu => rfl
    | engine => rfl
  | gpu gpuKey key =>
    cases other with
    | system => rfl
    | gpu =>
      simp only [Place.gpu.injEq]
      exact KeyedMap.field_modifyField _ _ _ _ _ _
    | engine => rfl
  | engine key name =>
    cases other with
    | system => rfl
    | gpu => rfl
    | engine =>
      simp only [Place.engine.injEq]
      exact KeyedMap.field_modifyField _ _ _ _ _ _

theorem isSome_bufferAt_modifyAt (s : SeriesBuffers) (place other : Place)
    (f : CircularBuffer DataPoint → CircularBuffer DataPoint) :
    ((s.modifyAt place f).bufferAt other).isSome = (s.bufferAt other).isSome := by
  rw [bufferAt_modifyAt]
  split
  · rename_i h
    rw [h, Option.isSome_map]
  · rfl

theorem Tracks.modifyAt {s : SeriesBuffers} {log log' : List Written} (h : s.Tracks log) (place : Place)
    {f : CircularBuffer DataPoint → CircularBuffer DataPoint}
    (hbuffer : ∀ buffer, s.bufferAt place = some buffer → buffer.Holds bufferCapacity (samplesAt place log) →
      (f buffer).Holds bufferCapacity (samplesAt place log'))
    (habsent : s.bufferAt place = none → samplesAt place log' = [])
    (hothers : ∀ other, other ≠ place → samplesAt other log' = samplesAt other log) :
    (s.modifyAt place f).Tracks log' := by
  intro other
  rw [bufferAt_modifyAt]
  split
  · rename_i heq
    subst heq
    have hthere := h other
    cases hat : s.bufferAt other with
    | none => exact habsent hat
    | some buffer =>
      rw [hat] at hthere
      exact hbuffer buffer hat hthere
  · rename_i hne
    rw [hothers other hne]
    exact h other

theorem Tracks.pushSample {s : SeriesBuffers} {log : List Written} (h : s.Tracks log) (ts : ℚ) {place : Place}
    (hplace : (s.bufferAt place).isSome) (val : Option ℚ) :
    (s.pushSample ts place val).Tracks (log ++ (val.map fun v => (place, (⟨ts, v⟩ : DataPoint))).toList) := by
  cases val with
  | none =>
    rw [Option.map_none, Option.toList_none, List.append_nil]
    exact h
  | some v =>
    refine h.modifyAt place ?_ ?_ ?_
    · intro buffer _ hbuffer
      rw [samplesAt_append, samplesAt_written, if_pos rfl]
      exact CircularBuffer.holds_push hbuffer _
    · intro hnone
      rw [hnone] at hplace
      cases hplace
    · intro other hne
      rw [samplesAt_append, samplesAt_written, if_neg hne.symm, List.append_nil]

theorem isSome_bufferAt_pushSample (s : SeriesBuffers) (ts : ℚ) (place other : Place) (val : Option ℚ) :
    ((s.pushSample ts place val).bufferAt other).isSome = (s.bufferAt other).isSome := by
  cases val with
  | none => rfl
  | some v => exact isSome_bufferAt_modifyAt s place other _

/-- A loop over keys whose buffers are all there writes what the log says. -/
theorem Tracks.foldl_pushSample {κ : Type*} {s : SeriesBuffers} {log : List Written} (h : s.Tracks log) (ts : ℚ)
    (place : κ → Place) (value : κ → Option ℚ) (keys : List κ)
    (hplaces : ∀ key ∈ keys, (s.bufferAt (place key)).isSome) :
    (keys.foldl (fun s key => s.pushSample ts (place key) (value key)) s).Tracks
      (log ++ samplesOf ts place value keys) := by
  induction keys generalizing s log with
  | nil => simpa [samplesOf] using h
  | cons key rest ih =>
    obtain ⟨hkey, hrest⟩ := List.forall_mem_cons.mp hplaces
    have hpushed := ih (h.pushSample ts hkey (value key)) fun k hk => by
      rw [isSome_bufferAt_pushSample]
      exact hrest k hk
    rw [List.append_assoc, ← samplesOf_cons] at hpushed
    exact hpushed

def Fills (s s' : SeriesBuffers) : Prop :=
  ∀ place, s'.bufferAt place = s.bufferAt place ∨
    s.bufferAt place = none ∧ s'.bufferAt place = some (CircularBuffer.new bufferCapacity)

theorem Tracks.fill {s s' : SeriesBuffers} {log : List Written} (h : s.Tracks log) (hfills : s.Fills s') :
    s'.Tracks log := by
  intro place
  have hthere := h place
  rcases hfills place with hsame | ⟨hnone, hnew⟩
  · rw [hsame]
    exact hthere
  · rw [hnone] at hthere
    rw [hnew, show samplesAt place log = [] from hthere]
    exact CircularBuffer.holds_new (by decide)

theorem fills_ensureGpu (s : SeriesBuffers) (gpuKey : Utf16) : s.Fills (s.ensureGpu gpuKey) := by
  intro place
  cases place with
  | system => exact Or.inl rfl
  | gpu other key => exact KeyedMap.map_lookup_orInsert s.gpuBuffers gpuKey other createBuffers (· key)
  | engine => exact Or.inl rfl

theorem fills_ensureEngine (s : SeriesBuffers) (key : Utf16) : s.Fills (s.ensureEngine key) := by
  intro place
  cases place with
  | system => exact Or.inl rfl
  | gpu => exact Or.inl rfl
  | engine other name => exact KeyedMap.map_lookup_orInsert s.engineBuffers key other createEngineBuffers (· name)

theorem isSome_bufferAt_ensureGpu (s : SeriesBuffers) (gpuKey : Utf16) (key : MetricKey) :
    ((s.ensureGpu gpuKey).bufferAt (.gpu gpuKey key)).isSome := by
  simp [bufferAt, ensureGpu, KeyedMap.lookup_orInsert]

theorem isSome_bufferAt_ensureEngine (s : SeriesBuffers) (key : Utf16) (name : EngineSeriesName) :
    ((s.ensureEngine key).bufferAt (.engine key name)).isSome := by
  simp [bufferAt, ensureEngine, KeyedMap.lookup_orInsert]

theorem Tracks.pushSystemSamples {s : SeriesBuffers} {log : List Written} (h : s.Tracks log)
    (metrics : MetricsSnapshot) :
    (s.pushSystemSamples metrics metrics.timestampMs).Tracks (log ++ systemWritten metrics) :=
  h.foldl_pushSample metrics.timestampMs .system (extractValue metrics) systemMetricKeys fun _ _ => rfl

theorem Tracks.pushGpuSamples {s : SeriesBuffers} {log : List Written} (h : s.Tracks log) (ts : ℚ)
    (gpu : GpuMetrics) : (s.pushGpuSamples gpu ts).Tracks (log ++ gpuWritten ts gpu) :=
  (h.fill (s.fills_ensureGpu _)).foldl_pushSample ts _ (extractGpuValue gpu) gpuMetricKeys
    fun key _ => s.isSome_bufferAt_ensureGpu _ key

theorem Tracks.pushEngine {s : SeriesBuffers} {log : List Written} (h : s.Tracks log) (ts : ℚ) (key : Utf16)
    (metrics : Option EngineMetrics) : (s.pushEngine key metrics ts).Tracks (log ++ engineWritten ts key metrics) := by
  cases metrics with
  | none =>
    have hnothing : engineWritten ts key none = [] := by simp [engineWritten, samplesOf]
    rw [hnothing, List.append_nil]
    exact h
  | some metrics =>
    exact (h.fill (s.fills_ensureEngine _)).foldl_pushSample ts _ (EngineSeriesName.sample metrics) engineSeriesNames
      fun name _ => s.isSome_bufferAt_ensureEngine _ name

/-- Writers that each extend the log, one after the other. -/
theorem Tracks.foldl {κ : Type*} {write : SeriesBuffers → κ → SeriesBuffers} {wrote : κ → List Written}
    (hwrite : ∀ {s : SeriesBuffers} {log : List Written}, s.Tracks log → ∀ k, (write s k).Tracks (log ++ wrote k))
    {s : SeriesBuffers} {log : List Written} (h : s.Tracks log) (l : List κ) :
    (l.foldl write s).Tracks (log ++ l.flatMap wrote) := by
  induction l generalizing s log with
  | nil => simpa using h
  | cons k rest ih =>
    have hrest := ih (hwrite h k)
    rwa [List.append_assoc] at hrest

/-- Reading leaves the answer in the buffer and the items as they are. -/
theorem Tracks.toArray {s : SeriesBuffers} {log : List Written} (h : s.Tracks log) (place : Place) :
    (s.modifyAt place (·.toArray.2)).Tracks log := by
  refine h.modifyAt place (fun buffer _ hbuffer => (CircularBuffer.toArray_of_represents hbuffer).2) ?_
    fun _ _ => rfl
  intro hnone
  have hthere := h place
  rwa [hnone] at hthere

end SeriesBuffers

namespace MetricsHistoryStore

def lastIngest (snapshots : List MetricsSnapshot) : ℚ := (snapshots.getLast?.map (·.timestampMs)).getD 0

structure Ingested (s : MetricsHistoryStore) (snapshots : List MetricsSnapshot) : Prop where
  tracks : s.series.Tracks (snapshots.flatMap written)
  lastTimestamp : s.lastTimestamp = lastIngest snapshots

theorem ingested_new : ({} : MetricsHistoryStore).Ingested [] := by
  refine ⟨fun place => ?_, rfl⟩
  cases place with
  | system key => exact CircularBuffer.holds_new (by decide)
  | gpu => rfl
  | engine => rfl

theorem Ingested.ingest {s : MetricsHistoryStore} {snapshots : List MetricsSnapshot} (h : s.Ingested snapshots)
    {metrics : MetricsSnapshot} (hnew : metrics.timestampMs ≠ lastIngest snapshots) :
    (s.ingest metrics).Ingested (snapshots ++ [metrics]) := by
  have hts : metrics.timestampMs ≠ s.lastTimestamp := by
    rw [h.lastTimestamp]
    exact hnew
  rw [MetricsHistoryStore.ingest, if_neg hts]
  refine ⟨?_, ?_⟩
  · have hsystem := h.tracks.pushSystemSamples metrics
    have hgpus := SeriesBuffers.Tracks.foldl (fun h gpu => h.pushGpuSamples metrics.timestampMs gpu) hsystem
      (snapshotGpus metrics)
    have hengines := SeriesBuffers.Tracks.foldl
      (fun h (engine : EngineSnapshot) =>
        h.pushEngine metrics.timestampMs (engineKey engine.identity) engine.metrics) hgpus metrics.engines
    have hall := hengines.pushEngine metrics.timestampMs allEnginesKey (aggregateEngineMetrics metrics.engines)
    rw [List.append_assoc, List.append_assoc, List.append_assoc] at hall
    rw [List.flatMap_append, List.flatMap_singleton, written, List.append_assoc, List.append_assoc]
    exact hall
  · rw [lastIngest, List.getLast?_concat, Option.map_some]
    rfl

theorem Ingested.read {s : MetricsHistoryStore} {snapshots : List MetricsSnapshot} (h : s.Ingested snapshots)
    (metric : Utf16) (window : TimeWindow) : (s.getChartData metric window).2.Ingested snapshots := by
  rw [getChartData]
  cases s.resolveBuffer metric with
  | none => exact h
  | some found => exact ⟨h.tracks.toArray found.1, h.lastTimestamp⟩

/-- Every timestamp is positive and later than those before it. -/
structure Ascending (snapshots : List MetricsSnapshot) : Prop where
  positive : ∀ m ∈ snapshots, 0 < m.timestampMs
  later : snapshots.Pairwise fun m m' => m.timestampMs < m'.timestampMs

theorem Ascending.new_of_append {snapshots rest : List MetricsSnapshot} {metrics : MetricsSnapshot}
    (h : Ascending (snapshots ++ metrics :: rest)) : metrics.timestampMs ≠ lastIngest snapshots := by
  rw [lastIngest]
  cases hlast : snapshots.getLast? with
  | none => exact (h.positive metrics (by simp)).ne'
  | some last =>
    have hmem : last ∈ snapshots := List.mem_of_getLast? hlast
    have hlater := (List.pairwise_append.mp h.later).2.2 last hmem metrics List.mem_cons_self
    exact hlater.ne'

/-- What reading the store keeps and a new snapshot carries on holds after any history of ascending times. -/
theorem final_of_history (P : MetricsHistoryStore → List MetricsSnapshot → Prop)
    (hread : ∀ {s : MetricsHistoryStore} {snapshots : List MetricsSnapshot} (metric : Utf16) (window : TimeWindow),
      P s snapshots → P (s.getChartData metric window).2 snapshots)
    (hingest : ∀ {s : MetricsHistoryStore} {snapshots : List MetricsSnapshot}, P s snapshots →
      ∀ {metrics : MetricsSnapshot}, metrics.timestampMs ≠ lastIngest snapshots →
        P (s.ingest metrics) (snapshots ++ [metrics]))
    {s : MetricsHistoryStore} {snapshots : List MetricsSnapshot} (h : P s snapshots) (events : List HistoryEvent)
    (hascending : Ascending (snapshots ++ events.filterMap HistoryEvent.snapshot)) :
    P (final historyStep s events) (snapshots ++ events.filterMap HistoryEvent.snapshot) := by
  induction events generalizing s snapshots with
  | nil =>
    rw [List.filterMap_nil, List.append_nil]
    exact h
  | cons event rest ih =>
    cases event with
    | ingest metrics =>
      have hsplit : snapshots ++ (HistoryEvent.ingest metrics :: rest).filterMap HistoryEvent.snapshot =
          (snapshots ++ [metrics]) ++ rest.filterMap HistoryEvent.snapshot := by
        simp [HistoryEvent.snapshot]
      rw [hsplit] at hascending ⊢
      refine ih (hingest h ?_) hascending
      rw [List.append_assoc] at hascending
      exact hascending.new_of_append
    | read metric window => exact ih (hread metric window h) hascending

theorem ingested_final {s : MetricsHistoryStore} {snapshots : List MetricsSnapshot} (h : s.Ingested snapshots)
    (events : List HistoryEvent) (hascending : Ascending (snapshots ++ events.filterMap HistoryEvent.snapshot)) :
    (final historyStep s events).Ingested (snapshots ++ events.filterMap HistoryEvent.snapshot) :=
  final_of_history Ingested (fun metric window h => h.read metric window) (fun h => h.ingest) h events hascending

end MetricsHistoryStore

end SparkDashboard.Browser
