import SparkDashboard.Browser.ChartData
import SparkDashboard.Browser.LiveMotion

/-!
# A panel reading a series

The panel reads the window anew when the series has gained data since it last did, and is told so
while the dashboard moves. What it was shown when motion stopped it goes on showing.
-/

namespace SparkDashboard.Browser

open Dashboard (TimeWindow)
open Stepping Utf16

theorem eq_append_of_lastIndexOf {text : Utf16} {u : UInt16} {i : Nat} (h : lastIndexOf text u = some i) :
    text = text.take i ++ u :: text.drop (i + 1) := by
  obtain ⟨j, hj, rfl⟩ := Option.map_eq_some_iff.mp h
  obtain ⟨hlt, hget, -⟩ := List.findIdx?_eq_some_iff_getElem.mp hj
  rw [List.length_reverse] at hlt
  rw [List.getElem_reverse, beq_iff_eq] at hget
  have hi : text.length - 1 - j < text.length := by omega
  rw [← hget, ← List.drop_eq_getElem_cons hi, List.take_append_drop]

/-- A series key that is no name every object has, and neither are its two parts: the store's plain objects
are maps on such keys. -/
def Plain (metric : Utf16) : Prop :=
  metric ∉ inheritedNames ∧ ∀ colonIndex, lastIndexOf metric 0x3A = some colonIndex →
    metric.take colonIndex ∉ inheritedNames ∧ metric.drop (colonIndex + 1) ∉ inheritedNames

abbrev SeriesKey := {metric : Utf16 // Plain metric}

theorem plain_append {before after : Utf16} (hbefore : before ∉ inheritedNames) (hafter : after ∉ inheritedNames)
    (hcolon : 0x3A ∉ after) : Plain (before ++ 0x3A :: after) := by
  refine ⟨not_inherited_of_mem (List.mem_append_right before List.mem_cons_self) (.inr (.inl rfl)), ?_⟩
  intro colonIndex hindex
  rw [lastIndexOf_append_cons before hcolon] at hindex
  obtain rfl := Option.some.inj hindex
  have hdrop : (before ++ 0x3A :: after).drop (before.length + 1) = after := by
    rw [← List.drop_drop, List.drop_left, List.drop_succ_cons, List.drop_zero]
  rw [List.take_left, hdrop]
  exact ⟨hbefore, hafter⟩

theorem metricName_not_inherited (key : MetricKey) : key.name ∉ inheritedNames := by
  cases key <;> decide

/-- The keys that panels read series by. -/
theorem plain_keys :
    (∀ key : MetricKey, Plain key.name) ∧ (∀ metric index multiGpu, Plain (gpuSeries metric index multiGpu)) ∧
      (∀ name engine, Plain (engineSeries name (engineKey engine))) ∧
      ∀ name, Plain (engineSeries name allEnginesKey) := by
  obtain ⟨hengine, hall, -, -, hname⟩ := keys_not_inherited
  have hsystem : ∀ key : MetricKey, Plain key.name := by
    intro key
    refine ⟨metricName_not_inherited key, fun colonIndex hindex => ?_⟩
    have hsplit := eq_append_of_lastIndexOf hindex
    exact absurd (hsplit ▸ List.mem_append_right _ List.mem_cons_self) (colon_not_mem_metricName key)
  have hseries : ∀ (name : EngineSeriesName) (key : Utf16), key ∉ inheritedNames → Plain (engineSeries name key) := by
    intro name key hkey
    rw [engineSeries, List.append_assoc]
    exact plain_append hkey (hname name) (colon_not_mem_seriesName name)
  refine ⟨hsystem, ?_, fun name engine => hseries name _ (hengine engine), fun name => hseries name _ hall⟩
  intro metric index multiGpu
  rw [gpuSeries]
  split
  · rw [List.append_assoc _ (utf16 ":")]
    refine plain_append ?_ (metricName_not_inherited metric.1) (colon_not_mem_metricName metric.1)
    have hcolon : 0x3A ∈ utf16 "gpu:" := by decide
    exact not_inherited_of_mem (List.mem_append_left _ hcolon) (.inr (.inl rfl))
  · exact hsystem metric.1

def MetricsHistoryStore.seriesVersion (s : MetricsHistoryStore) (series : Utf16) : Nat :=
  (s.versions.lookup series).getD 0

/-- What the last read was for, and what it found. -/
structure SeriesMemo where
  series : SeriesKey
  window : TimeWindow
  version : Nat
  data : List DataPoint

structure SeriesPanel where
  store : MetricsHistoryStore := {}
  series : SeriesKey
  window : TimeWindow
  live : Bool
  memo : SeriesMemo
  held : Held (List DataPoint)
  shown : List DataPoint

namespace SeriesPanel

variable (p : SeriesPanel)

def version : Nat := p.store.seriesVersion p.series

/-- The window is read again where the series, the window or the version is another. -/
def readWindow : SeriesMemo × MetricsHistoryStore :=
  if p.memo.series = p.series ∧ p.memo.window = p.window ∧ p.memo.version = p.version then (p.memo, p.store)
  else
    let (data, store) := p.store.getChartData p.series p.window
    (⟨p.series, p.window, p.version, data⟩, store)

/-- A render. -/
def useMetricSeries : SeriesPanel :=
  let (memo, store) := p.readWindow
  let (shown, held) := useHeldWhileFrozen memo.data (!p.live) p.held
  { p with store, memo, held, shown }

def mount (store : MetricsHistoryStore) (series : SeriesKey) (window : TimeWindow) (live : Bool) : SeriesPanel :=
  let (data, store') := store.getChartData series window
  { store := store', series, window, live, memo := ⟨series, window, store.seriesVersion series, data⟩,
    held := ⟨!live, data⟩, shown := data }

end SeriesPanel

/-- What a panel is asked to show. -/
structure SeriesAsked where
  series : SeriesKey
  window : TimeWindow
  live : Bool

def SeriesPanel.asked (p : SeriesPanel) : SeriesAsked := ⟨p.series, p.window, p.live⟩

inductive SeriesEvent where
  | ingest (metrics : MetricsSnapshot)
  /-- Another panel reads the store. -/
  | read (metric : SeriesKey) (window : TimeWindow)
  | setLive (live : Bool)
  | setSeries (series : SeriesKey)
  | setWindow (window : TimeWindow)
  /-- A render for any other reason, such as a panel being dragged. -/
  | render

namespace SeriesEvent

def snapshot : SeriesEvent → Option MetricsSnapshot
  | ingest metrics => some metrics
  | _ => none

/-- What the panel is asked once the event has come. -/
def asks (asked : SeriesAsked) : SeriesEvent → SeriesAsked
  | setLive live => { asked with live }
  | setSeries series => { asked with series }
  | setWindow window => { asked with window }
  | _ => asked

end SeriesEvent

namespace SeriesPanel

/-- Only a panel that is live listens, and a listener renders only a version it has not seen. -/
def next (p : SeriesPanel) : SeriesEvent → SeriesPanel
  | .ingest metrics =>
    let told := { p with store := p.store.ingest metrics }
    if p.live ∧ told.version ≠ p.version then told.useMetricSeries else told
  | .read metric window => { p with store := (p.store.getChartData metric window).2 }
  | .setLive live => { p with live }.useMetricSeries
  | .setSeries series => { p with series }.useMetricSeries
  | .setWindow window => { p with window }.useMetricSeries
  | .render => p.useMetricSeries

/-- What the panel shows after the event. -/
def step (p : SeriesPanel) (event : SeriesEvent) : List DataPoint × SeriesPanel := ((p.next event).shown, p.next event)

end SeriesPanel

section Keys

/-- The series key of a place. -/
def seriesKey : Place → Utf16
  | .system key => key.name
  | .gpu gpuKey key => utf16 "gpu:" ++ gpuKey ++ utf16 ":" ++ key.name
  | .engine key name => engineSeries name key

theorem name_of_metricKeyNamed {text : Utf16} {key : MetricKey} (h : metricKeyNamed text = some key) :
    (key.name == text) = true := by
  have hname := List.find?_some h
  exact hname

theorem name_of_engineSeriesNamed {text : Utf16} {name : EngineSeriesName} (h : engineSeriesNamed text = some name) :
    (name.name == text) = true := by
  have hname := List.find?_some h
  exact hname

/-- A series key that is taken apart is the key of the place found. -/
theorem seriesKey_of_placeOf {metric : Utf16} {place : Place} (h : placeOf metric = some place) :
    metric = seriesKey place := by
  rw [placeOf] at h
  split at h
  · rename_i key hkey
    obtain rfl := Option.some.inj h
    exact (eq_of_beq (name_of_metricKeyNamed hkey)).symm
  · split at h
    · rename_i gpuKey key hgpu
      obtain rfl := Option.some.inj h
      rw [(gpuMatch_eq_some hgpu).1, seriesKey, List.append_assoc _ (utf16 ":")]
      rfl
    · split at h
      · rename_i colonIndex hcolon
        split at h
        · obtain ⟨name, hname, rfl⟩ := Option.map_eq_some_iff.mp h
          have hsplit := eq_append_of_lastIndexOf hcolon
          have hnamed : name.name = metric.drop (colonIndex + 1) := eq_of_beq (name_of_engineSeriesNamed hname)
          rw [← hnamed] at hsplit
          rw [seriesKey, engineSeries, List.append_assoc]
          exact hsplit
        · cases h
      · cases h

variable (metrics : MetricsSnapshot)

theorem seriesKey_mem_changedEngine {key : Utf16} {engineMetrics : Option EngineMetrics} {w : Written} {ts : ℚ}
    (hw : w ∈ engineWritten ts key engineMetrics) : seriesKey w.1 ∈ changedEngine key engineMetrics := by
  obtain ⟨name, hname, hsample⟩ := List.mem_filterMap.mp hw
  obtain ⟨v, hv, rfl⟩ := Option.map_eq_some_iff.mp hsample
  have hbound : engineMetrics.bind name.sample = some v := hv
  refine List.mem_filterMap.mpr ⟨name, hname, ?_⟩
  rw [hbound]
  rfl

/-- Where a snapshot writes a sample, its series is among those it changes. -/
theorem seriesKey_mem_changedSeries {w : Written} (hw : w ∈ written metrics) :
    seriesKey w.1 ∈ changedSeries metrics := by
  rw [changedSeries, List.mem_eraseDups]
  rw [written] at hw
  simp only [List.mem_append, List.mem_flatMap] at hw ⊢
  rcases hw with ((hsystem | ⟨gpu, hgpu, hw⟩) | ⟨engine, hengine, hw⟩) | haggregate
  · obtain ⟨key, hkey, hsample⟩ := List.mem_filterMap.mp hsystem
    obtain ⟨v, hv, rfl⟩ := Option.map_eq_some_iff.mp hsample
    have hsome : (extractValue metrics key).isSome = true := by rw [hv]; rfl
    exact .inl (.inl (.inl (.inl (List.mem_map.mpr ⟨key, List.mem_filter.mpr ⟨hkey, hsome⟩, rfl⟩))))
  · obtain ⟨key, hkey, hsample⟩ := List.mem_filterMap.mp hw
    obtain ⟨v, hv, rfl⟩ := Option.map_eq_some_iff.mp hsample
    have hsome : (extractGpuValue gpu key).isSome = true := by rw [hv]; rfl
    exact .inl (.inl (.inl (.inr ⟨gpu, hgpu, List.mem_map.mpr ⟨key, List.mem_filter.mpr ⟨hkey, hsome⟩, rfl⟩⟩)))
  · exact .inl (.inl (.inr ⟨engine, hengine, .inl (seriesKey_mem_changedEngine hw)⟩))
  · exact .inl (.inr (seriesKey_mem_changedEngine haggregate))

/-- The samples of a series in a log; none for a key that names no place. -/
def seriesSamples (metric : Utf16) (log : List Written) : List DataPoint :=
  ((placeOf metric).map fun place => samplesAt place log).getD []

theorem seriesSamples_append (metric : Utf16) (first second : List Written) :
    seriesSamples metric (first ++ second) = seriesSamples metric first ++ seriesSamples metric second := by
  rw [seriesSamples, seriesSamples, seriesSamples]
  cases placeOf metric with
  | none => rfl
  | some place => exact samplesAt_append place first second

theorem seriesSamples_written_of_unchanged {metric : Utf16} (h : metric ∉ changedSeries metrics) :
    seriesSamples metric (written metrics) = [] := by
  rw [seriesSamples]
  cases hplace : placeOf metric with
  | none => rfl
  | some place =>
    rw [Option.map_some, Option.getD_some, samplesAt, List.filterMap_eq_nil_iff]
    intro w hw
    refine if_neg fun hat => h ?_
    rw [seriesKey_of_placeOf hplace, ← hat]
    exact seriesKey_mem_changedSeries metrics hw

end Keys

section Versions

/-- How often the snapshots have moved the version of the series. -/
def changes (series : Utf16) (snapshots : List MetricsSnapshot) : Nat :=
  (snapshots.map fun m => (changedSeries m).count series).sum

theorem changes_append (series : Utf16) (first second : List MetricsSnapshot) :
    changes series (first ++ second) = changes series first + changes series second := by
  rw [changes, changes, changes, List.map_append, List.sum_append]

/-- A version that has not moved is one of a series that gained nothing. -/
theorem unchanged_of_changes_eq_zero {series : Utf16} {snapshots : List MetricsSnapshot}
    (h : changes series snapshots = 0) : ∀ m ∈ snapshots, series ∉ changedSeries m := by
  intro m hm hmem
  have hzero := List.sum_eq_zero_iff.mp h _ (List.mem_map_of_mem hm)
  exact absurd hmem (List.count_eq_zero.mp hzero)

theorem lookup_foldl_bumpVersion (versions : KeyedMap Utf16 Nat) (changed : List Utf16) (series : Utf16) :
    ((changed.foldl bumpVersion versions).lookup series).getD 0 =
      (versions.lookup series).getD 0 + changed.count series := by
  induction changed generalizing versions with
  | nil => rfl
  | cons first rest ih =>
    rw [List.foldl_cons, ih, bumpVersion, List.count_cons]
    by_cases h : first = series
    · rw [h, AList.lookup_insert, beq_self_eq_true, if_pos rfl, Option.getD_some, Nat.add_assoc, Nat.add_comm 1]
    · rw [AList.lookup_insert_ne (Ne.symm h), beq_false_of_ne h, if_neg Bool.false_ne_true, Nat.add_zero]

/-- The store of a run of snapshots, with the versions they have moved. -/
structure Counted (s : MetricsHistoryStore) (snapshots : List MetricsSnapshot) : Prop where
  ingested : s.Ingested snapshots
  version : ∀ series, s.seriesVersion series = changes series snapshots

theorem versions_getChartData (s : MetricsHistoryStore) (metric : Utf16) (window : TimeWindow) :
    (s.getChartData metric window).2.versions = s.versions := by
  rw [MetricsHistoryStore.getChartData]
  cases s.resolveBuffer metric <;> rfl

variable {s : MetricsHistoryStore} {snapshots : List MetricsSnapshot}

theorem counted_new : Counted {} [] := ⟨MetricsHistoryStore.ingested_new, fun _ => rfl⟩

theorem Counted.read (h : Counted s snapshots) (metric : Utf16) (window : TimeWindow) :
    Counted (s.getChartData metric window).2 snapshots := by
  refine ⟨h.ingested.read metric window, fun series => ?_⟩
  rw [MetricsHistoryStore.seriesVersion, versions_getChartData]
  exact h.version series

theorem Counted.ingest (h : Counted s snapshots) {metrics : MetricsSnapshot}
    (hnew : metrics.timestampMs ≠ MetricsHistoryStore.lastIngest snapshots) :
    Counted (s.ingest metrics) (snapshots ++ [metrics]) := by
  refine ⟨h.ingested.ingest hnew, fun series => ?_⟩
  have hold : (s.versions.lookup series).getD 0 = changes series snapshots := h.version series
  rw [MetricsHistoryStore.seriesVersion, MetricsHistoryStore.ingest, if_neg (h.ingested.lastTimestamp ▸ hnew),
    changes_append, ← hold]
  exact lookup_foldl_bumpVersion s.versions (changedSeries metrics) series

/-- What a panel reads now of a series, whatever its key. -/
theorem Counted.getChartData (h : Counted s snapshots) (metric : Utf16) (window : TimeWindow) :
    (s.getChartData metric window).1 =
      charted snapshots (seriesSamples metric (snapshots.flatMap written)) window := by
  cases hplace : placeOf metric with
  | none =>
    rw [MetricsHistoryStore.getChartData, MetricsHistoryStore.resolveBuffer, seriesSamples, hplace, Option.bind_none,
      Option.map_none, Option.getD_none, charted, List.rtake_nil]
    rfl
  | some place =>
    rw [h.ingested.getChartData hplace, seriesSamples, hplace]
    rfl

theorem counted_final (h : Counted s snapshots) (events : List HistoryEvent)
    (hascending : MetricsHistoryStore.Ascending (snapshots ++ events.filterMap HistoryEvent.snapshot)) :
    Counted (final historyStep s events) (snapshots ++ events.filterMap HistoryEvent.snapshot) :=
  MetricsHistoryStore.final_of_history Counted (fun metric window h => h.read metric window) (fun h => h.ingest) h
    events hascending

end Versions

theorem MetricsHistoryStore.Ascending.of_append {first second : List MetricsSnapshot}
    (h : Ascending (first ++ second)) : Ascending first :=
  ⟨fun m hm => h.positive m (List.mem_append_left second hm), (List.pairwise_append.mp h.later).1⟩

namespace SeriesPanel

/-- What is known of a panel after the snapshots: its memo is the window as it was read after some of
them, and what it shows is that, unless it is frozen. -/
structure Kept (p : SeriesPanel) (snapshots : List MetricsSnapshot) : Prop where
  counted : Counted p.store snapshots
  memo : ∃ a b, snapshots = a ++ b ∧ p.memo.version = changes p.memo.series a ∧
    p.memo.data = charted a (seriesSamples p.memo.series (a.flatMap written)) p.memo.window
  frozen : p.held.frozen = !p.live
  shown : p.shown = if p.live then p.memo.data else p.held.value
  current : p.live = true →
    p.memo.series = p.series ∧ p.memo.window = p.window ∧ p.memo.version = p.version

variable {p : SeriesPanel} {snapshots : List MetricsSnapshot}

/-- A read is of the window as it is, unless the memo is of the version the series still has. -/
theorem readWindow_spec (hcounted : Counted p.store snapshots)
    (hmemo : ∃ a b, snapshots = a ++ b ∧ p.memo.version = changes p.memo.series a ∧
      p.memo.data = charted a (seriesSamples p.memo.series (a.flatMap written)) p.memo.window) :
    Counted p.readWindow.2 snapshots ∧ p.readWindow.2.versions = p.store.versions ∧
    p.readWindow.1.series = p.series ∧ p.readWindow.1.window = p.window ∧ p.readWindow.1.version = p.version ∧
    (∃ a b, snapshots = a ++ b ∧ p.readWindow.1.version = changes p.series a ∧
      p.readWindow.1.data = charted a (seriesSamples p.series (a.flatMap written)) p.window) ∧
    (p.memo.version ≠ p.version →
      p.readWindow.1.data = charted snapshots (seriesSamples p.series (snapshots.flatMap written)) p.window) := by
  rw [readWindow]
  split
  · rename_i hsame
    obtain ⟨hseries, hwindow, hversion⟩ := hsame
    rw [hseries, hwindow] at hmemo
    exact ⟨hcounted, rfl, hseries, hwindow, hversion, hmemo, fun hne => absurd hversion hne⟩
  · have hdata := hcounted.getChartData p.series p.window
    refine ⟨hcounted.read p.series p.window, versions_getChartData p.store p.series p.window, rfl, rfl, rfl,
      ⟨snapshots, [], (List.append_nil snapshots).symm, ?_, hdata⟩, fun _ => hdata⟩
    exact hcounted.version p.series

theorem Kept.useMetricSeries (hcounted : Counted p.store snapshots)
    (hmemo : ∃ a b, snapshots = a ++ b ∧ p.memo.version = changes p.memo.series a ∧
      p.memo.data = charted a (seriesSamples p.memo.series (a.flatMap written)) p.memo.window) :
    Kept p.useMetricSeries snapshots := by
  obtain ⟨hread, hversions, hseries, hwindow, hversion, ⟨a, b, hsplit, hchanges, hdata⟩, -⟩ :=
    readWindow_spec hcounted hmemo
  refine ⟨hread, ⟨a, b, hsplit, ?_, ?_⟩, ?_, ?_, ?_⟩
  · show p.readWindow.1.version = changes p.readWindow.1.series a
    rw [hseries]
    exact hchanges
  · show p.readWindow.1.data = charted a (seriesSamples p.readWindow.1.series (a.flatMap written)) p.readWindow.1.window
    rw [hseries, hwindow]
    exact hdata
  · exact frozen_useHeldWhileFrozen p.readWindow.1.data (!p.live) p.held
  · show (useHeldWhileFrozen p.readWindow.1.data (!p.live) p.held).1 =
      if p.live then p.readWindow.1.data else (useHeldWhileFrozen p.readWindow.1.data (!p.live) p.held).2.value
    rw [value_useHeldWhileFrozen]
    cases p.live <;> rfl
  · intro _
    refine ⟨hseries, hwindow, hversion.trans ?_⟩
    show p.store.seriesVersion p.series = p.readWindow.2.seriesVersion p.series
    rw [MetricsHistoryStore.seriesVersion, MetricsHistoryStore.seriesVersion, hversions]

theorem Kept.mount {store : MetricsHistoryStore} (h : Counted store snapshots) (series : SeriesKey)
    (window : TimeWindow) (live : Bool) : Kept (mount store series window live) snapshots := by
  have hdata := h.getChartData series window
  refine ⟨h.read series window, ⟨snapshots, [], (List.append_nil snapshots).symm, h.version series, hdata⟩, rfl,
    (ite_self _).symm, fun _ => ⟨rfl, rfl, ?_⟩⟩
  show store.seriesVersion series = (store.getChartData series window).2.seriesVersion series
  rw [MetricsHistoryStore.seriesVersion, MetricsHistoryStore.seriesVersion, versions_getChartData]

/-- A snapshot the panel is not told of, or that does not render it. -/
theorem Kept.ingest (h : Kept p snapshots) {metrics : MetricsSnapshot}
    (hcounted : Counted (p.store.ingest metrics) (snapshots ++ [metrics]))
    (hquiet : p.live = true → { p with store := p.store.ingest metrics }.version = p.version) :
    Kept { p with store := p.store.ingest metrics } (snapshots ++ [metrics]) := by
  obtain ⟨a, b, rfl, hchanges, hdata⟩ := h.memo
  refine ⟨hcounted, ⟨a, b ++ [metrics], List.append_assoc a b [metrics], hchanges, hdata⟩, h.frozen, h.shown, ?_⟩
  intro hlive
  obtain ⟨hseries, hwindow, hversion⟩ := h.current hlive
  exact ⟨hseries, hwindow, hversion.trans (hquiet hlive).symm⟩

theorem Kept.next (h : Kept p snapshots) {event : SeriesEvent} {rest : List MetricsSnapshot}
    (hascending : MetricsHistoryStore.Ascending (snapshots ++ event.snapshot.toList ++ rest)) :
    Kept (p.next event) (snapshots ++ event.snapshot.toList) := by
  cases event with
  | ingest metrics =>
    have hsnapshots : snapshots ++ (SeriesEvent.ingest metrics).snapshot.toList = snapshots ++ [metrics] := rfl
    rw [hsnapshots] at hascending ⊢
    rw [List.append_assoc] at hascending
    have hcounted := h.counted.ingest hascending.new_of_append
    show Kept (if p.live ∧ { p with store := p.store.ingest metrics }.version ≠ p.version then
      { p with store := p.store.ingest metrics }.useMetricSeries else { p with store := p.store.ingest metrics }) _
    split
    · obtain ⟨a, b, rfl, hchanges, hdata⟩ := h.memo
      exact Kept.useMetricSeries (p := { p with store := p.store.ingest metrics }) hcounted
        ⟨a, b ++ [metrics], List.append_assoc a b [metrics], hchanges, hdata⟩
    · rename_i hquiet
      exact h.ingest hcounted fun hlive => not_not.mp fun hne => hquiet ⟨hlive, hne⟩
  | read metric window =>
    simp only [SeriesEvent.snapshot, Option.toList_none, List.append_nil]
    refine ⟨h.counted.read metric window, h.memo, h.frozen, h.shown, fun hlive => ?_⟩
    obtain ⟨hseries, hwindow, hversion⟩ := h.current hlive
    refine ⟨hseries, hwindow, hversion.trans ?_⟩
    show p.store.seriesVersion p.series = (p.store.getChartData metric window).2.seriesVersion p.series
    rw [MetricsHistoryStore.seriesVersion, MetricsHistoryStore.seriesVersion, versions_getChartData]
  | setLive live =>
    simp only [SeriesEvent.snapshot, Option.toList_none, List.append_nil]
    exact Kept.useMetricSeries (p := { p with live }) h.counted h.memo
  | setSeries series =>
    simp only [SeriesEvent.snapshot, Option.toList_none, List.append_nil]
    exact Kept.useMetricSeries (p := { p with series }) h.counted h.memo
  | setWindow window =>
    simp only [SeriesEvent.snapshot, Option.toList_none, List.append_nil]
    exact Kept.useMetricSeries (p := { p with window }) h.counted h.memo
  | render =>
    simp only [SeriesEvent.snapshot, Option.toList_none, List.append_nil]
    exact Kept.useMetricSeries h.counted h.memo

theorem lastIngest_append_le {a b : List MetricsSnapshot} (h : MetricsHistoryStore.Ascending (a ++ b)) :
    MetricsHistoryStore.lastIngest a ≤ MetricsHistoryStore.lastIngest (a ++ b) := by
  cases hb : b.getLast? with
  | none => rw [List.getLast?_eq_none_iff.mp hb, List.append_nil]
  | some last =>
    have hmem : last ∈ b := List.mem_of_getLast? hb
    rw [MetricsHistoryStore.lastIngest, MetricsHistoryStore.lastIngest, List.getLast?_append, hb, Option.some_or]
    cases ha : a.getLast? with
    | none => exact (h.positive last (List.mem_append_right a hmem)).le
    | some earlier => exact ((List.pairwise_append.mp h.later).2.2 earlier (List.mem_of_getLast? ha) last hmem).le

theorem seriesSamples_of_unchanged {b : List MetricsSnapshot} {series : Utf16}
    (hunchanged : ∀ m ∈ b, series ∉ changedSeries m) : seriesSamples series (b.flatMap written) = [] := by
  induction b with
  | nil =>
    rw [seriesSamples]
    cases placeOf series <;> rfl
  | cons m rest ih =>
    obtain ⟨hm, hrest⟩ := List.forall_mem_cons.mp hunchanged
    rw [List.flatMap_cons, seriesSamples_append, seriesSamples_written_of_unchanged m hm, ih hrest]
    rfl

/-- Where nothing was gained since, what was read then has all that would be read now, and older points. -/
theorem charted_of_unchanged {a b : List MetricsSnapshot} (h : MetricsHistoryStore.Ascending (a ++ b)) {series : Utf16}
    (hunchanged : ∀ m ∈ b, series ∉ changedSeries m) (window : TimeWindow) :
    charted (a ++ b) (seriesSamples series ((a ++ b).flatMap written)) window =
      (charted a (seriesSamples series (a.flatMap written)) window).filter fun dp =>
        decide (MetricsHistoryStore.lastIngest (a ++ b) - timeWindowSeconds window * 1000 ≤ dp.timestamp) := by
  have hcutoff := lastIngest_append_le h
  rw [List.flatMap_append, seriesSamples_append, seriesSamples_of_unchanged hunchanged, List.append_nil, charted,
    charted, List.filter_filter]
  apply List.filter_congr
  intro dp _
  rw [eq_comm, Bool.and_eq_left_iff_imp, decide_eq_true_iff, decide_eq_true_iff]
  intro hnow
  linarith

/-- What a live panel shows: all that is in the window now, and no other point than the series had in
it when it last gained data. -/
theorem Kept.shown_of_live (h : Kept p snapshots) (hascending : MetricsHistoryStore.Ascending snapshots)
    (hlive : p.live = true) :
    (p.store.getChartData p.series p.window).1 =
      p.shown.filter (fun dp => decide (p.store.cutoff p.window ≤ dp.timestamp)) ∧
    ∃ a b, snapshots = a ++ b ∧ (∀ m ∈ b, p.series.1 ∉ changedSeries m) ∧
      p.shown = charted a (seriesSamples p.series (a.flatMap written)) p.window := by
  obtain ⟨a, b, hsplit, hchanges, hdata⟩ := h.memo
  obtain ⟨hseries, hwindow, hversion⟩ := h.current hlive
  have hshown : p.shown = charted a (seriesSamples p.series (a.flatMap written)) p.window := by
    rw [h.shown, if_pos hlive, hdata, hseries, hwindow]
  have hunchanged : ∀ m ∈ b, p.series.1 ∉ changedSeries m := by
    have hnow : p.version = changes p.series (a ++ b) := hsplit ▸ h.counted.version p.series
    rw [hseries, hversion, hnow, changes_append] at hchanges
    exact unchanged_of_changes_eq_zero (Nat.add_left_cancel (hchanges.trans (Nat.add_zero _).symm))
  refine ⟨?_, a, b, hsplit, hunchanged, hshown⟩
  rw [h.counted.getChartData, hshown, MetricsHistoryStore.cutoff, h.counted.ingested.lastTimestamp, hsplit]
  exact charted_of_unchanged (hsplit ▸ hascending) hunchanged p.window

/-- A render of a version not yet read reads the window as it is. -/
theorem shown_of_stale (hcounted : Counted p.store snapshots)
    (hmemo : ∃ a b, snapshots = a ++ b ∧ p.memo.version = changes p.memo.series a ∧
      p.memo.data = charted a (seriesSamples p.memo.series (a.flatMap written)) p.memo.window)
    (hlive : p.live = true) (hstale : p.memo.version ≠ p.version) :
    p.useMetricSeries.shown = (p.useMetricSeries.store.getChartData p.series p.window).1 := by
  obtain ⟨hread, -, -, -, -, -, hfresh⟩ := readWindow_spec hcounted hmemo
  have hshown : p.useMetricSeries.shown = p.readWindow.1.data := by
    show (useHeldWhileFrozen p.readWindow.1.data (!p.live) p.held).1 = p.readWindow.1.data
    rw [value_useHeldWhileFrozen, hlive]
    rfl
  rw [hshown, hfresh hstale]
  exact (hread.getChartData p.series p.window).symm

/-- A snapshot with a sample of the series is shown at once. -/
theorem Kept.shown_of_changed (h : Kept p snapshots) {metrics : MetricsSnapshot}
    (hnew : metrics.timestampMs ≠ MetricsHistoryStore.lastIngest snapshots) (hlive : p.live = true)
    (hchanged : p.series.1 ∈ changedSeries metrics) :
    (p.next (.ingest metrics)).shown =
      ((p.next (.ingest metrics)).store.getChartData p.series p.window).1 := by
  have hcounted := h.counted.ingest hnew
  have hversion : { p with store := p.store.ingest metrics }.version ≠ p.version := by
    have hmoved : 0 < (changedSeries metrics).count p.series.1 := List.count_pos_iff.mpr hchanged
    have hone : changes p.series [metrics] = (changedSeries metrics).count p.series.1 := List.sum_singleton
    show (p.store.ingest metrics).seriesVersion p.series ≠ p.store.seriesVersion p.series
    rw [hcounted.version, h.counted.version, changes_append, hone]
    omega
  have hnext : p.next (.ingest metrics) = { p with store := p.store.ingest metrics }.useMetricSeries :=
    if_pos ⟨hlive, hversion⟩
  have hstale : p.memo.version ≠ { p with store := p.store.ingest metrics }.version := by
    rw [(h.current hlive).2.2]
    exact hversion.symm
  obtain ⟨a, b, rfl, hchanges, hdata⟩ := h.memo
  rw [hnext]
  exact shown_of_stale (p := { p with store := p.store.ingest metrics }) hcounted
    ⟨a, b ++ [metrics], List.append_assoc a b [metrics], hchanges, hdata⟩ hlive hstale

/-- A frozen panel shows what it showed, whatever is ingested, read or rendered. -/
theorem Kept.shown_of_frozen (h : Kept p snapshots) (hfrozen : p.live = false) {event : SeriesEvent}
    (hstill : (p.next event).live = false) : (p.next event).shown = p.shown := by
  have hheld : p.held.frozen = true := by rw [h.frozen, hfrozen]; rfl
  have hshown : p.shown = p.held.value := by rw [h.shown, hfrozen]; rfl
  have hrender : ∀ q : SeriesPanel, q.live = false → q.held = p.held → q.useMetricSeries.shown = p.shown := by
    intro q hq hqheld
    show (useHeldWhileFrozen q.readWindow.1.data (!q.live) q.held).1 = p.shown
    rw [hq, hqheld, hshown]
    exact congrArg Prod.fst (useHeldWhileFrozen_of_frozen q.readWindow.1.data hheld)
  cases event with
  | ingest metrics =>
    have hquiet : p.next (.ingest metrics) = { p with store := p.store.ingest metrics } :=
      if_neg fun htold => by rw [hfrozen] at htold; exact Bool.false_ne_true htold.1
    rw [hquiet]
  | read metric window => rfl
  | setLive live => exact hrender { p with live } hstill rfl
  | setSeries series => exact hrender { p with series } hfrozen rfl
  | setWindow window => exact hrender { p with window } hfrozen rfl
  | render => exact hrender p hfrozen rfl

theorem asked_next (p : SeriesPanel) (event : SeriesEvent) : (p.next event).asked = event.asks p.asked := by
  cases event with
  | ingest metrics =>
    rw [next]
    split <;> rfl
  | _ => rfl

/-- What a panel shows after an event, where the store has had the snapshots. -/
structure Shows (snapshots : List MetricsSnapshot) (e : Entry SeriesPanel SeriesEvent (List DataPoint)) : Prop where
  asked : e.after.asked = e.input.asks e.before.asked
  /-- No point in the window is missing, and older ones are of the last time the series gained data. -/
  live : e.after.live = true →
    (e.after.store.getChartData e.after.series e.after.window).1 =
      e.output.filter (fun dp => decide (e.after.store.cutoff e.after.window ≤ dp.timestamp)) ∧
    ∃ a b, snapshots = a ++ b ∧ (∀ m ∈ b, e.after.series.1 ∉ changedSeries m) ∧
      e.output = charted a (seriesSamples e.after.series (a.flatMap written)) e.after.window
  gained : ∀ metrics, e.input = .ingest metrics → e.before.live = true → e.before.series.1 ∈ changedSeries metrics →
    e.output = (e.after.store.getChartData e.before.series e.before.window).1
  frozen : e.before.live = false → e.after.live = false → e.output = e.before.shown

/-- The snapshots ingested at the entries of a run. -/
def ingestedAt (past : List (Entry SeriesPanel SeriesEvent (List DataPoint))) : List MetricsSnapshot :=
  past.filterMap fun e => e.input.snapshot

theorem ingestedAt_concat (past : List (Entry SeriesPanel SeriesEvent (List DataPoint))) (p : SeriesPanel)
    (event : SeriesEvent) : ingestedAt (past ++ [entry step p event]) = ingestedAt past ++ event.snapshot.toList := by
  rw [ingestedAt, List.filterMap_append]
  cases event <;> rfl

theorem Kept.shows (h : Kept p snapshots) {event : SeriesEvent} {rest : List MetricsSnapshot}
    (hascending : MetricsHistoryStore.Ascending (snapshots ++ event.snapshot.toList ++ rest)) :
    Shows (snapshots ++ event.snapshot.toList) (entry step p event) where
  asked := asked_next p event
  live hlive := (h.next hascending).shown_of_live hascending.of_append hlive
  gained := by
    rintro metrics rfl hlive hchanged
    rw [List.append_assoc] at hascending
    exact h.shown_of_changed hascending.new_of_append hlive hchanged
  frozen hfrozen hstill := h.shown_of_frozen hfrozen hstill

def cpuAggregate : SeriesKey := ⟨MetricKey.cpuAggregate.name, plain_keys.1 .cpuAggregate⟩

def cpuPanel : SeriesPanel :=
  mount (final historyStep {} [.ingest (busySnapshot 1000 5)]) cpuAggregate .fiveMinutes true

end SeriesPanel

end SparkDashboard.Browser
