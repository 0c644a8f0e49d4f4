import SparkDashboard.Browser.CircularBuffer
import SparkDashboard.Browser.Series
import SparkDashboard.Dashboard.Panels
import SparkDashboard.Library.KeyedMap
import SparkDashboard.Library.Stepping

/-!
# The metrics history store

Every series in a circular buffer. Writers hold a buffer by its place; readers name it by
its series key. A read leaves its answer behind in the buffer.
-/

namespace SparkDashboard.Browser

open Dashboard (TimeWindow)
open Stepping Utf16

structure DataPoint where
  timestamp : ℚ
  value : ℚ
  deriving DecidableEq

def bufferCapacity : Nat := 900

def eventBufferCapacity : Nat := 100

def requestBufferCapacity : Nat := 50

def timeWindowSeconds : TimeWindow → ℚ
  | .fiveMinutes => 300
  | .tenMinutes => 600
  | .fifteenMinutes => 900

abbrev Buffers := MetricKey → CircularBuffer DataPoint

abbrev EngineBuffers := EngineSeriesName → CircularBuffer DataPoint

def createBuffers : Buffers := fun _ => CircularBuffer.new bufferCapacity

def createEngineBuffers : EngineBuffers := fun _ => CircularBuffer.new bufferCapacity

structure SeriesBuffers where
  buffers : Buffers := createBuffers
  gpuBuffers : KeyedMap Utf16 Buffers := ∅
  engineBuffers : KeyedMap Utf16 EngineBuffers := ∅

namespace SeriesBuffers

def bufferAt (s : SeriesBuffers) : Place → Option (CircularBuffer DataPoint)
  | .system key => some (s.buffers key)
  | .gpu gpuKey key => (s.gpuBuffers.lookup gpuKey).map (· key)
  | .engine key name => (s.engineBuffers.lookup key).map (· name)

def modifyAt (s : SeriesBuffers) (place : Place) (f : CircularBuffer DataPoint → CircularBuffer DataPoint) :
    SeriesBuffers :=
  match place with
  | .system key => { s with buffers := Function.update s.buffers key (f (s.buffers key)) }
  | .gpu gpuKey key => { s with gpuBuffers := KeyedMap.modifyField s.gpuBuffers gpuKey key f }
  | .engine key name => { s with engineBuffers := KeyedMap.modifyField s.engineBuffers key name f }

/-- A value that is there goes into the buffer; null does not. -/
def pushSample (s : SeriesBuffers) (ts : ℚ) (place : Place) (val : Option ℚ) : SeriesBuffers :=
  match val with
  | some value => s.modifyAt place (·.push ⟨ts, value⟩)
  | none => s

def pushSystemSamples (s : SeriesBuffers) (metrics : MetricsSnapshot) (ts : ℚ) : SeriesBuffers :=
  systemMetricKeys.foldl (fun s key => s.pushSample ts (.system key) (extractValue metrics key)) s

def ensureGpu (s : SeriesBuffers) (gpuKey : Utf16) : SeriesBuffers :=
  { s with gpuBuffers := KeyedMap.orInsert s.gpuBuffers gpuKey createBuffers }

def pushGpuSamples (s : SeriesBuffers) (gpu : GpuMetrics) (ts : ℚ) : SeriesBuffers :=
  let gpuKey := decimal (gpuIndexOf gpu).toNat
  gpuMetricKeys.foldl (fun s key => s.pushSample ts (.gpu gpuKey key) (extractGpuValue gpu key))
    (s.ensureGpu gpuKey)

def ensureEngine (s : SeriesBuffers) (key : Utf16) : SeriesBuffers :=
  { s with engineBuffers := KeyedMap.orInsert s.engineBuffers key createEngineBuffers }

/-- One tick of a real engine's metrics, or of the all-engines aggregate. -/
def pushEngineSamples (s : SeriesBuffers) (key : Utf16) (metrics : EngineMetrics) (ts : ℚ) : SeriesBuffers :=
  engineSeriesNames.foldl (fun s name => s.pushSample ts (.engine key name) (name.sample metrics))
    (s.ensureEngine key)

def pushEngine (s : SeriesBuffers) (key : Utf16) (metrics : Option EngineMetrics) (ts : ℚ) : SeriesBuffers :=
  match metrics with
  | some metrics => s.pushEngineSamples key metrics ts
  | none => s

end SeriesBuffers

structure MetricsHistoryStore where
  series : SeriesBuffers := {}
  eventBuffer : CircularBuffer GpuEventData := CircularBuffer.new eventBufferCapacity
  requestBuffers : KeyedMap Utf16 (CircularBuffer InferenceRequestData) := ∅
  lastTimestamp : ℚ := 0
  lastSnapshot : Option MetricsSnapshot := none
  ingested : Nat := 0
  versions : KeyedMap Utf16 Nat := ∅

def pushRequests (buffers : KeyedMap Utf16 (CircularBuffer InferenceRequestData)) (engine : EngineSnapshot) :
    KeyedMap Utf16 (CircularBuffer InferenceRequestData) :=
  if engine.recentRequests = [] then buffers
  else
    let key := engineKey engine.identity
    let buffer := (buffers.lookup key).getD (CircularBuffer.new requestBufferCapacity)
    buffers.insert key (engine.recentRequests.foldl CircularBuffer.push buffer)

section Changed

variable (metrics : MetricsSnapshot)

def changedSystem : List Utf16 :=
  (systemMetricKeys.filter fun key => (extractValue metrics key).isSome).map (·.name)

def changedGpu (gpu : GpuMetrics) : List Utf16 :=
  (gpuMetricKeys.filter fun key => (extractGpuValue gpu key).isSome).map fun key =>
    utf16 "gpu:" ++ decimal (gpuIndexOf gpu).toNat ++ utf16 ":" ++ key.name

def changedEngine (key : Utf16) (metrics : Option EngineMetrics) : List Utf16 :=
  engineSeriesNames.filterMap fun name => (metrics.bind name.sample).map fun _ => engineSeries name key

def changedRequests (engine : EngineSnapshot) : List Utf16 :=
  if engine.recentRequests = [] then []
  else [requestsSeries (some (engineKey engine.identity)), requestsSeries none]

/-- The series that gain data from a snapshot, each once. -/
def changedSeries : List Utf16 :=
  (changedSystem metrics ++ (snapshotGpus metrics).flatMap changedGpu ++
    metrics.engines.flatMap (fun engine =>
      changedEngine (engineKey engine.identity) engine.metrics ++ changedRequests engine) ++
    changedEngine allEnginesKey (aggregateEngineMetrics metrics.engines) ++
    if metrics.gpuEvents = [] then [] else [eventsSeries]).eraseDups

end Changed

def bumpVersion (versions : KeyedMap Utf16 Nat) (series : Utf16) : KeyedMap Utf16 Nat :=
  versions.insert series ((versions.lookup series).getD 0 + 1)

namespace MetricsHistoryStore

/-- A snapshot with the timestamp of the last one is that one rendered again. -/
def ingest (s : MetricsHistoryStore) (metrics : MetricsSnapshot) : MetricsHistoryStore :=
  if metrics.timestampMs = s.lastTimestamp then s
  else
    let ts := metrics.timestampMs
    let system := s.series.pushSystemSamples metrics ts
    let gpus := (snapshotGpus metrics).foldl (fun b gpu => b.pushGpuSamples gpu ts) system
    let engines := metrics.engines.foldl
      (fun b engine => b.pushEngine (engineKey engine.identity) engine.metrics ts) gpus
    { series := engines.pushEngine allEnginesKey (aggregateEngineMetrics metrics.engines) ts
      eventBuffer := metrics.gpuEvents.foldl CircularBuffer.push s.eventBuffer
      requestBuffers := metrics.engines.foldl pushRequests s.requestBuffers
      lastTimestamp := ts
      lastSnapshot := some metrics
      ingested := s.ingested + 1
      versions := (changedSeries metrics).foldl bumpVersion s.versions }

def eventsPushed (s : MetricsHistoryStore) (metrics : MetricsSnapshot) : List GpuEventData :=
  if metrics.timestampMs = s.lastTimestamp then [] else metrics.gpuEvents

theorem eventBuffer_ingest (s : MetricsHistoryStore) (metrics : MetricsSnapshot) :
    (s.ingest metrics).eventBuffer = (s.eventsPushed metrics).foldl CircularBuffer.push s.eventBuffer := by
  rw [ingest, eventsPushed]
  split <;> rfl

def cutoff (s : MetricsHistoryStore) (window : TimeWindow) : ℚ :=
  s.lastTimestamp - timeWindowSeconds window * 1000

/-- The place a series key names, and the buffer there is at it. -/
def resolveBuffer (s : MetricsHistoryStore) (metric : Utf16) : Option (Place × CircularBuffer DataPoint) :=
  (placeOf metric).bind fun place => (s.series.bufferAt place).map fun buffer => (place, buffer)

def getChartData (s : MetricsHistoryStore) (metric : Utf16) (window : TimeWindow) :
    List DataPoint × MetricsHistoryStore :=
  match s.resolveBuffer metric with
  | none => ([], s)
  | some (place, buffer) =>
    (buffer.toArray.1.filter fun dp => decide (s.cutoff window ≤ dp.timestamp),
      { s with series := s.series.modifyAt place (·.toArray.2) })

end MetricsHistoryStore

inductive HistoryEvent where
  | ingest (metrics : MetricsSnapshot)
  | read (metric : Utf16) (window : TimeWindow)

namespace HistoryEvent

def snapshot : HistoryEvent → Option MetricsSnapshot
  | ingest metrics => some metrics
  | read _ _ => none

end HistoryEvent

/-- The points a read returned, and the store after the event. -/
def historyStep (s : MetricsHistoryStore) : HistoryEvent → List DataPoint × MetricsHistoryStore
  | .ingest metrics => ([], s.ingest metrics)
  | .read metric window => s.getChartData metric window

end SparkDashboard.Browser
