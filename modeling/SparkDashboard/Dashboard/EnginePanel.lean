import SparkDashboard.Browser.MetricsHistoryStore
import SparkDashboard.Browser.Wire
import SparkDashboard.Dashboard.Selection
import SparkDashboard.Engines.Liveness

/-!
# Engine panels

What a panel finds at the other end of its binding, from the polls of its engine to the figures or
the notice on the screen.
-/

namespace SparkDashboard.Dashboard

open Browser Stepping Utf16
open Engines (DeploymentMode EngineState EngineType LastThreeFailed MetricGroup PollEntry Probe)

/-- A snapshot with all that a panel reads of its engines. -/
structure HostSnapshot where
  metrics : MetricsSnapshot
  engines : List ServedEngine
  engines_eq : metrics.engines = engines.map ServedEngine.toEngineSnapshot

inductive EngineTargetResolution where
  | waiting
  | resolved (engine : ServedEngine) (multiEngine : Bool)
  | aggregate (running total : Nat)
  | missing (requested : Utf16)
  | unselected
  | unreadable

/-- What a panel reads off its target: metrics, the buffers its lines come from, and which groups
there are. -/
structure EngineReadings where
  metric : EngineMetricReader
  key : Utf16
  reports : MetricGroup → Bool

/-- One of the target's series over the panel's window. -/
def EngineReadings.series (readings : EngineReadings) (store : MetricsHistoryStore) (window : TimeWindow)
    (name : EngineSeriesName) : List DataPoint :=
  (store.getChartData (engineSeries name readings.key) window).1

structure GroupCoverage where
  running : Nat
  groups : List (MetricGroup × Nat)

inductive EnginePanelResolution where
  | waiting
  | resolved (engine : ServedEngine) (multiEngine : Bool) (readings : EngineReadings)
  | aggregate (running total : Nat) (readings : EngineReadings) (coverage : GroupCoverage)
  | notReported (engine : ServedEngine) (groups : List MetricGroup)
  | notReportedByAny (groups : List MetricGroup)
  | metricsOff (engine : ServedEngine) (flag : Utf16)
  | metricsRefused (engine : ServedEngine)
  | starting (engine : ServedEngine)
  | offline (engine : ServedEngine) (detail : Utf16)
  | missing (requested : Utf16)
  | unselected
  | unreadable

/-- `metricGroups` of `PANEL_TYPES`. -/
def PanelType.metricGroups : PanelType → List MetricGroup
  | .enginePrefillThroughput => [.throughput, .ttftMean]
  | .engineDecodeThroughput => [.throughput, .tpotMean]
  | .engineLatency =>
    [.ttftMean, .ttftPercentiles, .e2eMean, .e2ePercentiles, .itlMean, .itlPercentiles, .tpotMean, .tpotPercentiles,
      .queueTime]
  | .engineSloGoodput => [.ttftPercentiles, .e2ePercentiles, .itlPercentiles, .tpotPercentiles]
  | .engineRequests => [.activeRequests, .requestTotal, .preemptions]
  | .engineCache => [.kvCache, .prefixCache]
  | .engineSpecDecode => [.speculativeDecoding]
  | _ => []

def useEngineTarget (binding : PanelBinding) (snapshot : Option HostSnapshot) (chosen : SelectedTargets)
    (source : Option PageSource) : EngineTargetResolution :=
  match snapshot with
  | none => .waiting
  | some snapshot =>
    match resolveEngineBinding (fun e : ServedEngine => e.endpoint) binding snapshot.engines
        (pageSelection (some snapshot.metrics) chosen source).engineTarget with
    | .aggregate =>
      let running := (runningEngines snapshot.metrics.engines).length
      if running = 0 then .unselected else .aggregate running snapshot.engines.length
    | .single (.resolved target) => .resolved target (decide (1 < snapshot.engines.length))
    | .single (.missing requested) => .missing requested
    | .single .unselected => .unselected
    | .single .unreadable => .unreadable

/-- The panel's groups that some engine reports, each with how many do. -/
def panelCoverage (coverage : AggregateCoverage) (groups : List MetricGroup) : GroupCoverage where
  running := coverage.running
  groups := (groups.filter fun group => decide (0 < coverage.included group)).map fun group =>
    (group, coverage.included group)

def aggregatePanel (groups : List MetricGroup) (engines : List Browser.EngineSnapshot) (running total : Nat) :
    EnginePanelResolution :=
  let aggregate := aggregateEngines engines
  match asEngineMetrics aggregate with
  | none => .unselected
  | some metrics =>
    let reports := fun group => decide (0 < aggregate.coverage.included group)
    if groups ≠ [] ∧ groups.any reports = false then .notReportedByAny groups
    else
      .aggregate running total ⟨.of (some metrics), allEnginesKey, reports⟩ (panelCoverage aggregate.coverage groups)

/-- A switched-off or refused endpoint goes before all else, what is never reported before what is not yet there. -/
def singlePanel (groups : List MetricGroup) (engine : ServedEngine) (multiEngine : Bool) : EnginePanelResolution :=
  let offFlag := engine.metricsOff.getD []
  let reported := reportedMetricGroups engine.toEngineSnapshot
  if offFlag ≠ [] then .metricsOff engine offFlag
  else if engine.metricsError = some .authRequired then .metricsRefused engine
  else if groups ≠ [] ∧ groups.any reported.contains = false then .notReported engine groups
  else
    match engineAvailability engine with
    | .starting => .starting engine
    | .offline detail => .offline engine detail
    | .ready => .resolved engine multiEngine ⟨engineMetricReader engine, engineKey engine.identity, reported.contains⟩

def useEnginePanel (groups : List MetricGroup) (snapshot : Option HostSnapshot) (target : EngineTargetResolution) :
    EnginePanelResolution :=
  match target with
  | .aggregate running total =>
    aggregatePanel groups ((snapshot.map fun s => s.metrics.engines).getD []) running total
  | .resolved engine multiEngine => singlePanel groups engine multiEngine
  | .waiting => .waiting
  | .missing requested => .missing requested
  | .unselected => .unselected
  | .unreadable => .unreadable

section Notices

variable {groups : List MetricGroup} {engine : ServedEngine} {multiEngine : Bool}

/-- What the panel has got past when it comes to an engine's availability. -/
structure Asked (groups : List MetricGroup) (engine : ServedEngine) : Prop where
  on : engine.metricsOff.getD [] = []
  answered : engine.metricsError ≠ some .authRequired
  reported : groups = [] ∨ ∃ g ∈ groups, g ∈ reportedMetricGroups engine.toEngineSnapshot

theorem not_silent_iff {reported : List MetricGroup} :
    ¬(groups ≠ [] ∧ groups.any reported.contains = false) ↔ groups = [] ∨ ∃ g ∈ groups, g ∈ reported := by
  rw [not_and_or, not_not, Bool.not_eq_false, List.any_eq_true]
  simp only [List.contains_iff_mem]

/-- When a panel of one engine says what it says. -/
def Says (groups : List MetricGroup) (engine : ServedEngine) (multiEngine : Bool) : EnginePanelResolution → Prop
  | .metricsOff target flag => target = engine ∧ flag ≠ [] ∧ engine.metricsOff = some flag
  | .metricsRefused target =>
    target = engine ∧ engine.metricsOff.getD [] = [] ∧ engine.metricsError = some .authRequired
  | .notReported target named =>
    target = engine ∧ named = groups ∧ ∀ g ∈ groups, g ∉ reportedMetricGroups engine.toEngineSnapshot
  | .starting target => target = engine ∧ engineAvailability engine = .starting
  | .offline target detail => target = engine ∧ engineAvailability engine = .offline detail
  | .resolved target multi readings => target = engine ∧ multi = multiEngine ∧ engineAvailability engine = .ready ∧
    readings = ⟨engineMetricReader engine, engineKey engine.identity,
      (reportedMetricGroups engine.toEngineSnapshot).contains⟩
  | _ => False

theorem says_singlePanel (groups : List MetricGroup) (engine : ServedEngine) (multiEngine : Bool) :
    Says groups engine multiEngine (singlePanel groups engine multiEngine) := by
  rw [singlePanel]
  split
  · rename_i hoff
    refine ⟨rfl, hoff, ?_⟩
    cases hflag : engine.metricsOff with
    | none =>
      rw [hflag] at hoff
      exact absurd rfl hoff
    | some flag => rfl
  · rename_i hon
    split
    · rename_i hrefused
      exact ⟨rfl, not_not.mp hon, hrefused⟩
    · split
      · rename_i hsilent
        refine ⟨rfl, rfl, fun g hg hreported => ?_⟩
        exact not_silent_iff.mpr (.inr ⟨g, hg, hreported⟩) hsilent
      · cases havailable : engineAvailability engine with
        | starting => exact ⟨rfl, havailable⟩
        | offline detail => exact ⟨rfl, havailable⟩
        | ready => exact ⟨rfl, rfl, havailable, rfl⟩

theorem singlePanel_off {flag : Utf16} (hflag : engine.metricsOff = some flag) (hne : flag ≠ []) :
    singlePanel groups engine multiEngine = .metricsOff engine flag := by
  rw [singlePanel, hflag, Option.getD_some, if_pos hne]

theorem singlePanel_refused (hon : engine.metricsOff.getD [] = [])
    (hrefused : engine.metricsError = some .authRequired) :
    singlePanel groups engine multiEngine = .metricsRefused engine := by
  rw [singlePanel, if_neg (not_not_intro hon), if_pos hrefused]

theorem singlePanel_asked (h : Asked groups engine) :
    singlePanel groups engine multiEngine =
      match engineAvailability engine with
      | .starting => .starting engine
      | .offline detail => .offline engine detail
      | .ready => .resolved engine multiEngine ⟨engineMetricReader engine, engineKey engine.identity,
          (reportedMetricGroups engine.toEngineSnapshot).contains⟩ := by
  rw [singlePanel, if_neg (not_not_intro h.on), if_neg h.answered, if_neg (not_silent_iff.mpr h.reported)]

end Notices

section Polled

/-- The engine is up, or has only just stopped answering. -/
def TakenAsRunning (past : List PollEntry) (e : PollEntry) : Prop :=
  e.input.health = .running ∨ e.input.success = false ∧ ¬ LastThreeFailed (past ++ [e])

theorem status_final (engineType : EngineType) (endpoint : String) (mode : DeploymentMode) (created : Engines.Instant)
    (polls : List Probe) :
    (final EngineState.poll (.new engineType endpoint mode created) polls).status ∈ [.running, .stopped] := by
  have hnew : (EngineState.new engineType endpoint mode created).status ∈ [.running, .stopped] := List.mem_cons_self
  refine final_invariant (fun s : EngineState => s.status ∈ [.running, .stopped]) ?_ hnew polls
  intro s p hs
  have hgrace : (s.poll p).2.status = (s.recordProbeResult p.success p.now).status :=
    congrArg (fun g => g.2.1) (s.grace_poll p)
  rw [hgrace]
  cases hsuccess : p.success with
  | true => exact List.mem_cons_self
  | false =>
    have hfailed := congrArg (fun g => g.2.1) (s.grace_recordProbeResult_false p.now)
    change (s.recordProbeResult false p.now).status = _ at hfailed
    rw [hfailed]
    split
    · exact List.mem_cons_of_mem _ List.mem_cons_self
    · exact hs

theorem lastThreeFailed_concat {past : List PollEntry} {e : PollEntry} (h : LastThreeFailed (past ++ [e])) :
    e.input.success = false := by
  rw [Engines.lastThreeFailed_iff] at h
  cases hsuccess : e.input.success with
  | false => rfl
  | true =>
    rw [Engines.sinceSuccess_true past hsuccess] at h
    cases h

/-- What is published of an engine is that it is up, that it is loading or, once the last three polls
have failed, that it has stopped. -/
def PublishedStatus (past : List PollEntry) (e : PollEntry) : Prop :=
  (e.output.status = .running ∧ TakenAsRunning past e ∧ ¬ LastThreeFailed (past ++ [e])) ∨
  (e.output.status = .loading ∧ ¬ TakenAsRunning past e ∧ ¬ LastThreeFailed (past ++ [e])) ∨
  (e.output.status = .stopped ∧ ¬ TakenAsRunning past e ∧ LastThreeFailed (past ++ [e]))

theorem publishedStatus (engineType : EngineType) (endpoint : String) (mode : DeploymentMode)
    (created : Engines.Instant) (polls : List Probe) (p : Probe) :
    let start := EngineState.new engineType endpoint mode created
    PublishedStatus (trace EngineState.poll start polls)
      (entry EngineState.poll (final EngineState.poll start polls) p) := by
  intro start
  set past := trace EngineState.poll start polls
  set e := entry EngineState.poll (final EngineState.poll start polls) p
  have hlived := Engines.followsProbes_of_lived (e := e)
    (Engines.lived_final start (Engines.lived_new engineType endpoint mode created) polls)
  have hrecorded := status_final engineType endpoint mode created (polls ++ [p])
  rw [final_concat] at hrecorded
  have hgrace : e.after.status = (Engines.probed e).status := congrArg (fun g => g.2.1) (EngineState.grace_poll _ p)
  have hstatus : e.output.status = if p.success then p.health else (Engines.probed e).status := rfl
  cases hsuccess : p.success with
  | true =>
    have hup : ¬ LastThreeFailed (past ++ [e]) := by
      intro hdown
      cases (lastThreeFailed_concat hdown).symm.trans hsuccess
    rw [hsuccess, if_pos rfl] at hstatus
    rcases of_decide_eq_true hsuccess with hhealth | hhealth
    · exact .inl ⟨hstatus.trans hhealth, .inl hhealth, hup⟩
    · refine .inr (.inl ⟨hstatus.trans hhealth, ?_, hup⟩)
      rintro (hrunning | ⟨hfailed, -⟩)
      · cases hrunning.symm.trans hhealth
      · cases hfailed.symm.trans hsuccess
  | false =>
    rw [hsuccess, if_neg Bool.false_ne_true] at hstatus
    have hnot : p.health ≠ .running := by
      intro hhealth
      cases hsuccess.symm.trans (decide_eq_true (.inl hhealth))
    by_cases hdown : LastThreeFailed (past ++ [e])
    · refine .inr (.inr ⟨hstatus.trans (hlived.stopped.mpr hdown), ?_, hdown⟩)
      rintro (hrunning | ⟨-, hup⟩)
      · exact hnot hrunning
      · exact hup hdown
    · refine .inl ⟨?_, .inr ⟨hsuccess, hdown⟩, hdown⟩
      rw [hstatus]
      change e.after.status ∈ _ at hrecorded
      rw [hgrace] at hrecorded
      rcases List.mem_cons.mp hrecorded with hrunning | hstopped
      · exact hrunning
      · exact absurd (hlived.stopped.mp (List.mem_singleton.mp hstopped)) hdown

/-- The adapter found the metrics endpoint off and knows the flag that turns it on. -/
def SwitchedOff (p : Probe) (flag : Utf16) : Prop :=
  p.metricsOff = true ∧ p.metricsLaunchFlag.map textOnWire = some flag ∧ flag ≠ []

/-- What a panel says of its engine right after a poll, in terms of the polls. -/
structure FollowsPolls (past : List PollEntry) (e : PollEntry) (groups : List MetricGroup) (multiEngine : Bool)
    (panel : EnginePanelResolution) : Prop where
  off : ∀ flag, panel = .metricsOff (onWire e.output) flag ↔ TakenAsRunning past e ∧ SwitchedOff e.input flag
  refused : panel = .metricsRefused (onWire e.output) ↔
    TakenAsRunning past e ∧ e.input.metricsError = some .authRequired ∧ ∀ flag, ¬ SwitchedOff e.input flag
  silent : ∀ named, panel = .notReported (onWire e.output) named →
    named = groups ∧ ∀ g ∈ groups, g ∉ e.input.metricGroups
  starting : panel = .starting (onWire e.output) → ¬ LastThreeFailed (past ++ [e]) ∧ e.after.cachedModel ≠ none ∧
    (e.input.success = false ∨ e.input.metrics = none ∨ e.input.metricGroups = ∅)
  offline : ∀ detail, panel = .offline (onWire e.output) detail →
    LastThreeFailed (past ++ [e]) ∧ detail = notRunningDetail ∨
    ¬ LastThreeFailed (past ++ [e]) ∧ e.after.cachedModel = none ∧ detail = noModelDetail
  figures : ∀ readings, panel = .resolved (onWire e.output) multiEngine readings →
    e.input.success = true ∧ e.after.cachedModel ≠ none ∧ (∀ g, readings.reports g = true ↔ g ∈ e.input.metricGroups) ∧
    ∃ answered, e.input.metrics = some answered ∧
      (∀ key, readings.metric.number key =
        if key.group ∈ e.input.metricGroups then (metricsOnWire answered).number key else none) ∧
      (∀ d, readings.metric.percentiles d =
        if d.percentilesGroup ∈ e.input.metricGroups then (metricsOnWire answered).percentiles d else none) ∧
      (∀ d, readings.metric.buckets d =
        if d.percentilesGroup ∈ e.input.metricGroups then (metricsOnWire answered).buckets d else none) ∧
      readings.metric.kvCacheIsEstimated =
        some (answered.kvCacheIsEstimated && decide (MetricGroup.kvCache ∈ e.input.metricGroups))
  shown : e.input.success = true → e.input.metrics ≠ none → e.after.cachedModel ≠ none → e.input.metricGroups ≠ ∅ →
    (groups = [] ∨ ∃ g ∈ groups, g ∈ e.input.metricGroups) →
    (e.input.health = .running → e.input.metricsError = none ∧ ∀ flag, ¬ SwitchedOff e.input flag) →
    ∃ readings, panel = .resolved (onWire e.output) multiEngine readings

section Published

variable {s : EngineState} {p : Probe}

theorem metricsOff_onWire_iff {flag : Utf16} :
    (flag ≠ [] ∧ (onWire (entry EngineState.poll s p).output).metricsOff = some flag) ↔
      (entry EngineState.poll s p).output.status = .running ∧ SwitchedOff p flag := by
  have hoff : (onWire (entry EngineState.poll s p).output).metricsOff =
      (if (entry EngineState.poll s p).output.status = .running ∧ p.metricsOff then p.metricsLaunchFlag
        else none).map textOnWire := rfl
  rw [hoff, SwitchedOff]
  by_cases h : (entry EngineState.poll s p).output.status = .running ∧ p.metricsOff
  · rw [if_pos h]
    exact ⟨fun hflag => ⟨h.1, h.2, hflag.2, hflag.1⟩, fun hflag => ⟨hflag.2.2.2, hflag.2.2.1⟩⟩
  · rw [if_neg h]
    exact iff_of_false (fun hflag => by cases hflag.2) (fun hflag => h ⟨hflag.1, hflag.2.1⟩)

theorem metricsOff_onWire_nil
    (h : ∀ flag, ¬((entry EngineState.poll s p).output.status = .running ∧ SwitchedOff p flag)) :
    (onWire (entry EngineState.poll s p).output).metricsOff.getD [] = [] := by
  cases hflag : (onWire (entry EngineState.poll s p).output).metricsOff with
  | none => rfl
  | some flag =>
    by_contra hne
    exact h flag (metricsOff_onWire_iff.mp ⟨hne, hflag⟩)

theorem metricsError_onWire : (onWire (entry EngineState.poll s p).output).metricsError =
    if (entry EngineState.poll s p).output.status = .running then p.metricsError else none := rfl

/-- What there is to read is what the adapter answered at this very poll. -/
theorem metrics_onWire : (onWire (entry EngineState.poll s p).output).metrics =
    (if p.success = true ∧ p.metricGroups ≠ ∅ then p.metrics else none).map
      (fun answered => metricsOnWire (answered.reportedOnly p.metricGroups)) := by
  have hmetrics : (onWire (entry EngineState.poll s p).output).metrics =
      (((if p.success then p.metrics else none).filter fun _ => decide (p.metricGroups ≠ ∅)).map
        (·.reportedOnly p.metricGroups)).map metricsOnWire := rfl
  rw [hmetrics, Option.map_map]
  cases p.success with
  | false => rfl
  | true => cases p.metrics <;> by_cases hgroups : p.metricGroups = ∅ <;> simp [hgroups]

end Published

section Entry

variable {past : List PollEntry} {s : EngineState} {p : Probe} {groups : List MetricGroup} {multiEngine : Bool}

theorem PublishedStatus.running_iff {e : PollEntry} (h : PublishedStatus past e) :
    e.output.status = .running ↔ TakenAsRunning past e := by
  rcases h with ⟨hstatus, htaken, -⟩ | ⟨hstatus, hnot, -⟩ | ⟨hstatus, hnot, -⟩
  · exact iff_of_true hstatus htaken
  · exact iff_of_false (fun h => by cases hstatus.symm.trans h) hnot
  · exact iff_of_false (fun h => by cases hstatus.symm.trans h) hnot

theorem availability_down (h : PublishedStatus past (entry EngineState.poll s p))
    (hdown : LastThreeFailed (past ++ [entry EngineState.poll s p])) :
    engineAvailability (onWire (entry EngineState.poll s p).output) = .offline notRunningDetail := by
  rcases h with ⟨-, -, hup⟩ | ⟨-, -, hup⟩ | ⟨hstatus, -, -⟩
  · exact absurd hdown hup
  · exact absurd hdown hup
  · have hwire : (onWire (entry EngineState.poll s p).output).status = .stopped := hstatus
    rw [engineAvailability, hwire]

/-- The model a panel goes by is the one the engine's state has kept. -/
theorem availability_up (h : PublishedStatus past (entry EngineState.poll s p))
    (hup : ¬ LastThreeFailed (past ++ [entry EngineState.poll s p])) :
    engineAvailability (onWire (entry EngineState.poll s p).output) =
      if (entry EngineState.poll s p).after.cachedModel.isNone then .offline noModelDetail
      else if (onWire (entry EngineState.poll s p).output).metrics.isNone then .starting
      else .ready := by
  rcases h with ⟨hstatus, -, -⟩ | ⟨hstatus, -, -⟩ | ⟨-, -, hdown⟩
  · have hwire : (onWire (entry EngineState.poll s p).output).status = .running := hstatus
    rw [engineAvailability, hwire]
    rfl
  · have hwire : (onWire (entry EngineState.poll s p).output).status = .loading := hstatus
    rw [engineAvailability, hwire]
    rfl
  · exact absurd hdown hup

theorem metricsOff_iff (h : PublishedStatus past (entry EngineState.poll s p)) (flag : Utf16) :
    singlePanel groups (onWire (entry EngineState.poll s p).output) multiEngine =
        .metricsOff (onWire (entry EngineState.poll s p).output) flag ↔
      TakenAsRunning past (entry EngineState.poll s p) ∧ SwitchedOff p flag := by
  rw [← h.running_iff]
  constructor
  · intro hpanel
    have hsays := says_singlePanel groups (onWire (entry EngineState.poll s p).output) multiEngine
    rw [hpanel] at hsays
    exact metricsOff_onWire_iff.mp hsays.2
  · intro hoff
    obtain ⟨hne, hflag⟩ := metricsOff_onWire_iff.mpr hoff
    exact singlePanel_off hflag hne

theorem metricsRefused_iff (h : PublishedStatus past (entry EngineState.poll s p)) :
    singlePanel groups (onWire (entry EngineState.poll s p).output) multiEngine =
        .metricsRefused (onWire (entry EngineState.poll s p).output) ↔
      TakenAsRunning past (entry EngineState.poll s p) ∧ p.metricsError = some .authRequired ∧
        ∀ flag, ¬ SwitchedOff p flag := by
  rw [← h.running_iff]
  constructor
  · intro hpanel
    have hsays := says_singlePanel groups (onWire (entry EngineState.poll s p).output) multiEngine
    rw [hpanel] at hsays
    obtain ⟨-, hon, hrefused⟩ := hsays
    rw [metricsError_onWire] at hrefused
    split at hrefused
    · rename_i hstatus
      refine ⟨hstatus, hrefused, fun flag hoff => ?_⟩
      obtain ⟨hne, hflag⟩ := metricsOff_onWire_iff.mpr ⟨hstatus, hoff⟩
      rw [hflag] at hon
      exact hne hon
    · cases hrefused
  · rintro ⟨hstatus, herror, hon⟩
    refine singlePanel_refused (metricsOff_onWire_nil fun flag hoff => hon flag hoff.2) ?_
    rw [metricsError_onWire, if_pos hstatus]
    exact herror

theorem starting_only (h : PublishedStatus past (entry EngineState.poll s p))
    (hstarting : engineAvailability (onWire (entry EngineState.poll s p).output) = .starting) :
    ¬ LastThreeFailed (past ++ [entry EngineState.poll s p]) ∧
      (entry EngineState.poll s p).after.cachedModel ≠ none ∧
      (p.success = false ∨ p.metrics = none ∨ p.metricGroups = ∅) := by
  have hup : ¬ LastThreeFailed (past ++ [entry EngineState.poll s p]) := by
    intro hdown
    cases (availability_down h hdown).symm.trans hstarting
  rw [availability_up h hup] at hstarting
  split at hstarting
  · cases hstarting
  · rename_i hmodel
    split at hstarting
    · rename_i hmetrics
      refine ⟨hup, fun hnone => hmodel (Option.isNone_iff_eq_none.mpr hnone), ?_⟩
      rw [metrics_onWire, Option.isNone_map] at hmetrics
      split at hmetrics
      · exact .inr (.inl (Option.isNone_iff_eq_none.mp hmetrics))
      · rename_i hnot
        rcases not_and_or.mp hnot with hfailed | hnone
        · exact .inl ((Bool.not_eq_true _).mp hfailed)
        · exact .inr (.inr (not_not.mp hnone))
    · cases hstarting

theorem offline_only (h : PublishedStatus past (entry EngineState.poll s p)) {detail : Utf16}
    (hoffline : engineAvailability (onWire (entry EngineState.poll s p).output) = .offline detail) :
    LastThreeFailed (past ++ [entry EngineState.poll s p]) ∧ detail = notRunningDetail ∨
      ¬ LastThreeFailed (past ++ [entry EngineState.poll s p]) ∧
        (entry EngineState.poll s p).after.cachedModel = none ∧ detail = noModelDetail := by
  by_cases hdown : LastThreeFailed (past ++ [entry EngineState.poll s p])
  · rw [availability_down h hdown] at hoffline
    cases hoffline
    exact .inl ⟨hdown, rfl⟩
  · rw [availability_up h hdown] at hoffline
    split at hoffline
    · rename_i hmodel
      cases hoffline
      exact .inr ⟨hdown, Option.isNone_iff_eq_none.mp hmodel, rfl⟩
    · split at hoffline <;> cases hoffline

/-- Figures are shown where there is a model and metrics were answered at this poll. -/
theorem ready_iff (h : PublishedStatus past (entry EngineState.poll s p)) :
    engineAvailability (onWire (entry EngineState.poll s p).output) = .ready ↔
      (entry EngineState.poll s p).after.cachedModel ≠ none ∧ p.success = true ∧ p.metricGroups ≠ ∅ ∧
        p.metrics ≠ none := by
  constructor
  · intro hready
    have hup : ¬ LastThreeFailed (past ++ [entry EngineState.poll s p]) := by
      intro hdown
      cases (availability_down h hdown).symm.trans hready
    rw [availability_up h hup] at hready
    split at hready
    · cases hready
    · rename_i hmodel
      split at hready
      · cases hready
      · rename_i hmetrics
        rw [metrics_onWire, Option.isNone_map] at hmetrics
        split at hmetrics
        · rename_i hanswers
          exact ⟨fun hnone => hmodel (Option.isNone_iff_eq_none.mpr hnone), hanswers.1, hanswers.2,
            fun hnone => hmetrics (Option.isNone_iff_eq_none.mpr hnone)⟩
        · exact absurd rfl hmetrics
  · rintro ⟨hmodel, hsuccess, hgroups, hmetrics⟩
    have hup : ¬ LastThreeFailed (past ++ [entry EngineState.poll s p]) := by
      intro hdown
      cases hsuccess.symm.trans (lastThreeFailed_concat hdown)
    have hread : ¬ (onWire (entry EngineState.poll s p).output).metrics.isNone = true := by
      rw [metrics_onWire, if_pos (And.intro hsuccess hgroups), Option.isNone_map]
      exact fun hnone => hmetrics (Option.isNone_iff_eq_none.mp hnone)
    rw [availability_up h hup, if_neg (fun hnone => hmodel (Option.isNone_iff_eq_none.mp hnone)), if_neg hread]

/-- The figures are read from the reported groups of what this poll was answered. -/
theorem engineMetricReader_onWire (hsuccess : p.success = true) (hgroups : p.metricGroups ≠ ∅)
    (hmodel : (entry EngineState.poll s p).after.cachedModel ≠ none) {answered : Engines.EngineMetrics}
    (hanswered : p.metrics = some answered) :
    engineMetricReader (onWire (entry EngineState.poll s p).output) =
      .of (some (metricsOnWire (answered.reportedOnly p.metricGroups))) := by
  have hread : (onWire (entry EngineState.poll s p).output).metrics =
      some (metricsOnWire (answered.reportedOnly p.metricGroups)) := by
    rw [metrics_onWire, if_pos (And.intro hsuccess hgroups), hanswered]
    rfl
  have hserved : ¬ (onWire (entry EngineState.poll s p).output).model.isNone = true :=
    fun hnone => hmodel (Option.isNone_iff_eq_none.mp hnone)
  rw [engineMetricReader, hread, if_neg hserved]

/-- Nothing stands before the figures where the engine answered, was not refused its metrics,
has them on and reports one of the groups. -/
theorem asked_onWire (hsuccess : p.success = true)
    (hreported : groups = [] ∨ ∃ g ∈ groups, g ∈ p.metricGroups)
    (hreadable : p.health = .running → p.metricsError = none ∧ ∀ flag, ¬ SwitchedOff p flag) :
    Asked groups (onWire (entry EngineState.poll s p).output) := by
  have hhealth : (entry EngineState.poll s p).output.status = .running → p.health = .running := by
    intro hrunning
    have houtput : (entry EngineState.poll s p).output.status = if p.success then p.health else _ := rfl
    rw [hsuccess, if_pos rfl] at houtput
    exact houtput.symm.trans hrunning
  refine ⟨metricsOff_onWire_nil fun flag hoff => ?_, fun hrefused => ?_, hreported.imp_right ?_⟩
  · exact (hreadable (hhealth hoff.1)).2 flag hoff.2
  · rw [metricsError_onWire] at hrefused
    split at hrefused
    · rename_i hrunning
      cases hrefused.symm.trans (hreadable (hhealth hrunning)).1
    · cases hrefused
  · rintro ⟨g, hg, hreports⟩
    exact ⟨g, hg, (mem_reportedMetricGroups_onWire _ g).mpr hreports⟩

end Entry

/-- After every poll of every run of a new engine, whatever a panel shows: the flag that turns the
metrics on, the key that is wanting, what the engine never reports, that it is down, without a model
or not ready yet, or figures. Figures are the answers of this very poll, of reported groups alone. -/
theorem engine_panel_follows_polls (engineType : EngineType) (endpoint : String) (mode : DeploymentMode)
    (created : Engines.Instant) (polls : List Probe) (p : Probe) (groups : List MetricGroup) (multiEngine : Bool) :
    let start := EngineState.new engineType endpoint mode created
    let e := entry EngineState.poll (final EngineState.poll start polls) p
    FollowsPolls (trace EngineState.poll start polls) e groups multiEngine
      (singlePanel groups (onWire e.output) multiEngine) := by
  intro start e
  have hstatus := publishedStatus engineType endpoint mode created polls p
  have hsays := says_singlePanel groups (onWire e.output) multiEngine
  refine ⟨metricsOff_iff hstatus, metricsRefused_iff hstatus, ?_, ?_, ?_, ?_, ?_⟩
  · intro named hpanel
    rw [hpanel] at hsays
    obtain ⟨-, hnamed, hsilent⟩ := hsays
    exact ⟨hnamed, fun g hg hreported => hsilent g hg ((mem_reportedMetricGroups_onWire _ g).mpr hreported)⟩
  · intro hpanel
    rw [hpanel] at hsays
    exact starting_only hstatus hsays.2
  · intro detail hpanel
    rw [hpanel] at hsays
    exact offline_only hstatus hsays.2
  · intro readings hpanel
    rw [hpanel] at hsays
    obtain ⟨-, -, hready, rfl⟩ := hsays
    obtain ⟨hmodel, hsuccess, hgroups, hmetrics⟩ := (ready_iff hstatus).mp hready
    obtain ⟨answered, hanswered⟩ := Option.ne_none_iff_exists'.mp hmetrics
    have hreader : engineMetricReader (onWire e.output) =
        .of (some (metricsOnWire (answered.reportedOnly p.metricGroups))) :=
      engineMetricReader_onWire hsuccess hgroups hmodel hanswered
    refine ⟨hsuccess, hmodel, fun g => ?_, answered, hanswered, ?_, ?_, ?_, ?_⟩
    · rw [List.contains_iff_mem]
      exact mem_reportedMetricGroups_onWire _ g
    · rw [hreader]
      exact number_reportedOnly answered p.metricGroups
    · rw [hreader]
      exact percentiles_reportedOnly answered p.metricGroups
    · rw [hreader]
      exact buckets_reportedOnly answered p.metricGroups
    · rw [hreader]
      rfl
  · intro hsuccess hmetrics hmodel hgroups hreported hreadable
    have hasked : Asked groups (onWire e.output) := asked_onWire hsuccess hreported hreadable
    rw [singlePanel_asked hasked, (ready_iff hstatus).mpr ⟨hmodel, hsuccess, hgroups, hmetrics⟩]
    exact ⟨_, rfl⟩

end Polled

end SparkDashboard.Dashboard
