import SparkDashboard.Engines.Common
import SparkDashboard.Engines.Metrics

/-!
# The grace period of one engine

What the collector keeps of an engine between polls, and what one poll makes of its
adapter's answers. The answers are the input of a poll, with the time it runs at.
-/

namespace SparkDashboard.Engines

def modelRefreshInterval : Instant := 600
def modelUnresolvedRetry : Instant := 30
def removalGrace : Instant := 30

structure EngineState where
  engineType : EngineType
  endpoint : String
  consecutiveFailures : Nat := 0
  lastSeen : Instant
  status : EngineStatus := .running
  stoppedAt : Option Instant := none
  deploymentMode : DeploymentMode
  cachedModel : Option ModelInfo := none
  modelMetadataError : Option ModelMetadataError := none
  modelFetchedAt : Option Instant := none
  modelAttemptedAt : Option Instant := none
  pids : List Nat := []
  containerId : Option String := none
  deriving DecidableEq

structure EngineSnapshot where
  engineType : EngineType
  endpoint : String
  status : EngineStatus
  model : Option ModelInfo
  modelMetadataError : Option ModelMetadataError
  loadedModels : Option (List LoadedModel)
  metricGroups : Finset MetricGroup
  metricsOff : Option String
  metricsError : Option MetricsError
  metrics : Option EngineMetrics
  deploymentMode : DeploymentMode
  pids : List Nat
  containerId : Option String
  deriving DecidableEq

/-- What an adapter answers on one poll tick: its health, then what it is asked only
where the health allows, then what it declares of itself once asked. -/
structure Probe where
  health : EngineStatus
  modelInfo : ModelResolution := {}
  metrics : Option EngineMetrics := none
  loadedModels : Option (List LoadedModel) := none
  metricGroups : Finset MetricGroup := ∅
  metricsOff : Bool := false
  metricsLaunchFlag : Option String := none
  metricsError : Option MetricsError := none
  now : Instant

def Probe.success (p : Probe) : Bool := decide (p.health = .running ∨ p.health = .loading)

namespace EngineState

def new (engineType : EngineType) (endpoint : String) (deploymentMode : DeploymentMode) (now : Instant) :
    EngineState :=
  { engineType, endpoint, deploymentMode, lastSeen := now }

def key (s : EngineState) : EngineType × String := (s.engineType, s.endpoint)

def elapsed (now since : Instant) : Instant := CounterRate.durationSince now since

def shouldFetchModel (s : EngineState) (now : Instant) : Bool :=
  let retryDue := match s.modelAttemptedAt with
    | none => true
    | some attempted => decide (modelUnresolvedRetry ≤ elapsed now attempted)
  if s.modelMetadataError.isSome then retryDue
  else
    match s.cachedModel, s.modelFetchedAt with
    | some _, some fetched => decide (modelRefreshInterval ≤ elapsed now fetched)
    | some _, none => true
    | none, _ => retryDue

def cacheModel (s : EngineState) (resolution : ModelResolution) (now : Instant) : EngineState :=
  let attempted := { s with
    modelAttemptedAt := some now
    modelMetadataError := resolution.metadataError }
  if resolution.model.isSome then
    { attempted with cachedModel := resolution.model, modelFetchedAt := some now }
  else attempted

def invalidateModelCache (s : EngineState) : EngineState :=
  { s with cachedModel := none, modelMetadataError := none, modelFetchedAt := none, modelAttemptedAt := none }

def recordProbeResult (s : EngineState) (success : Bool) (now : Instant) : EngineState :=
  if success then
    { s with consecutiveFailures := 0, lastSeen := now, status := .running, stoppedAt := none }
  else
    let failures := (s.consecutiveFailures + 1) % 2 ^ 32
    let counted := { s with consecutiveFailures := failures }
    if 3 ≤ failures then
      let stopped := if counted.stoppedAt.isNone then
          { counted.invalidateModelCache with stoppedAt := some now }
        else counted
      { stopped with status := .stopped }
    else counted

def snapshot (s : EngineState) (probe : Probe) (status : EngineStatus) (model : Option ModelInfo)
    (metrics : Option EngineMetrics) : EngineSnapshot where
  engineType := s.engineType
  endpoint := s.endpoint
  status := status
  model := model
  modelMetadataError := s.modelMetadataError
  loadedModels := probe.loadedModels
  metricGroups := probe.metricGroups
  metricsOff := if status = .running ∧ probe.metricsOff then probe.metricsLaunchFlag else none
  metricsError := if status = .running then probe.metricsError else none
  metrics := (metrics.filter fun _ => decide (probe.metricGroups ≠ ∅)).map
    (·.reportedOnly probe.metricGroups)
  deploymentMode := s.deploymentMode
  pids := s.pids
  containerId := s.containerId

/-- The state once the model has been asked for, where it is due. -/
def refreshModel (s : EngineState) (status : EngineStatus) (probe : Probe) : EngineState :=
  if status = .running ∧ s.shouldFetchModel probe.now then s.cacheModel probe.modelInfo probe.now else s

def poll (s : EngineState) (probe : Probe) : EngineSnapshot × EngineState :=
  let recorded := s.recordProbeResult probe.success probe.now
  let status := if probe.success then probe.health else recorded.status
  let asked := recorded.refreshModel status probe
  let metrics := if probe.success then probe.metrics else none
  (asked.snapshot probe status asked.cachedModel metrics, asked)

def shouldRemove (s : EngineState) (now : Instant) : Bool :=
  match s.stoppedAt with
  | some stopped => decide (s.status = .stopped ∧ removalGrace < elapsed now stopped)
  | none => false

/-- Attach a container to an engine that had none. -/
def adoptContainer (s : EngineState) (containerId : Option String) : EngineState :=
  if s.containerId.isSome then s
  else
    match containerId with
    | none => s
    | some id => { s with containerId := some id, deploymentMode := .docker }

/-- What detection has set of an engine: its key, its processes and the container it runs in. -/
def detected (s : EngineState) : (EngineType × String) × List Nat × Option String × DeploymentMode :=
  (s.key, s.pids, s.containerId, s.deploymentMode)

/-- What the grace period reads of a state. -/
def grace (s : EngineState) : Nat × EngineStatus × Option Instant :=
  (s.consecutiveFailures, s.status, s.stoppedAt)

/-- What the refresh of the model reads and writes. -/
def modelCache (s : EngineState) :
    Option ModelInfo × Option ModelMetadataError × Option Instant × Option Instant :=
  (s.cachedModel, s.modelMetadataError, s.modelFetchedAt, s.modelAttemptedAt)

theorem modelCache_recordProbeResult (s : EngineState) (success : Bool) (now : Instant) :
    (s.recordProbeResult success now).modelCache =
      if success = false ∧ 3 ≤ (s.consecutiveFailures + 1) % 2 ^ 32 ∧ s.stoppedAt = none then
        s.invalidateModelCache.modelCache
      else s.modelCache := by
  cases success with
  | true => rfl
  | false =>
    rw [recordProbeResult, if_neg (by decide)]
    dsimp only
    by_cases hthree : 3 ≤ (s.consecutiveFailures + 1) % 2 ^ 32
    · rw [if_pos hthree]
      cases hstopped : s.stoppedAt with
      | none => exact (if_pos (And.intro rfl (And.intro hthree rfl))).symm
      | some since => simp [modelCache]
    · rw [if_neg hthree, if_neg (fun h => hthree h.2.1)]
      rfl

theorem shouldFetchModel_congr {s s' : EngineState} (h : s'.modelCache = s.modelCache) (now : Instant) :
    s'.shouldFetchModel now = s.shouldFetchModel now := by
  obtain ⟨hmodel, hrest⟩ := Prod.mk.inj h
  obtain ⟨herror, hrest⟩ := Prod.mk.inj hrest
  obtain ⟨hfetched, hattempted⟩ := Prod.mk.inj hrest
  rw [shouldFetchModel, hmodel, herror, hfetched, hattempted]
  rfl

theorem le_sub_of_le_elapsed {limit now since : Instant} (hpos : 0 < limit) (h : limit ≤ elapsed now since) :
    limit ≤ now - since :=
  (le_max_iff.mp h).resolve_right (not_le_of_gt hpos)

theorem grace_recordProbeResult_true (s : EngineState) (now : Instant) :
    (s.recordProbeResult true now).grace = (0, .running, none) := rfl

theorem grace_recordProbeResult_false (s : EngineState) (now : Instant) :
    (s.recordProbeResult false now).grace =
      if 3 ≤ (s.consecutiveFailures + 1) % 2 ^ 32 then
        ((s.consecutiveFailures + 1) % 2 ^ 32, .stopped, some (s.stoppedAt.getD now))
      else ((s.consecutiveFailures + 1) % 2 ^ 32, s.status, s.stoppedAt) := by
  rw [recordProbeResult, if_neg (by decide)]
  dsimp only
  split
  · cases hstopped : s.stoppedAt <;> simp [grace, invalidateModelCache]
  · rfl

theorem detected_recordProbeResult (s : EngineState) (success : Bool) (now : Instant) :
    (s.recordProbeResult success now).detected = s.detected := by
  rw [recordProbeResult]
  split
  · rfl
  · dsimp only
    split
    · split <;> rfl
    · rfl

theorem refreshModel_kept (s : EngineState) (status : EngineStatus) (probe : Probe) :
    (s.refreshModel status probe).detected = s.detected ∧ (s.refreshModel status probe).grace = s.grace := by
  rw [refreshModel]
  split
  · rw [cacheModel]
    dsimp only
    split <;> exact ⟨rfl, rfl⟩
  · exact ⟨rfl, rfl⟩

theorem detected_poll (s : EngineState) (probe : Probe) : (s.poll probe).2.detected = s.detected :=
  (refreshModel_kept _ _ probe).1.trans (s.detected_recordProbeResult probe.success probe.now)

@[simp] theorem key_poll (s : EngineState) (probe : Probe) : (s.poll probe).2.key = s.key :=
  congrArg Prod.fst (s.detected_poll probe)

theorem grace_poll (s : EngineState) (probe : Probe) :
    (s.poll probe).2.grace = (s.recordProbeResult probe.success probe.now).grace :=
  (refreshModel_kept _ _ probe).2

theorem key_snapshot_poll (s : EngineState) (probe : Probe) :
    ((s.poll probe).1.engineType, (s.poll probe).1.endpoint) = s.key :=
  s.key_poll probe

@[simp] theorem key_adoptContainer (s : EngineState) (containerId : Option String) :
    (s.adoptContainer containerId).key = s.key := by
  cases containerId with
  | none => rw [adoptContainer.eq_def]; split <;> rfl
  | some id => rw [adoptContainer.eq_def]; split <;> rfl

@[simp] theorem grace_adoptContainer (s : EngineState) (containerId : Option String) :
    (s.adoptContainer containerId).grace = s.grace := by
  cases containerId with
  | none => rw [adoptContainer.eq_def]; split <;> rfl
  | some id => rw [adoptContainer.eq_def]; split <;> rfl

end EngineState

end SparkDashboard.Engines
