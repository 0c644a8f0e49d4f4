import SparkDashboard.Dashboard.Grid

/-!
# Panel types and time windows
-/

namespace SparkDashboard.Dashboard

inductive TimeWindow where
  | fiveMinutes
  | tenMinutes
  | fifteenMinutes
  deriving DecidableEq, Repr

def TimeWindow.text : TimeWindow → Utf16
  | .fiveMinutes => utf16 "5m"
  | .tenMinutes => utf16 "10m"
  | .fifteenMinutes => utf16 "15m"

def timeWindows : List TimeWindow := [.fiveMinutes, .tenMinutes, .fifteenMinutes]

def defaultTimeWindow : TimeWindow := .fiveMinutes

def readWindow : Option Value → TimeWindow
  | some (.string value) => (timeWindows.find? fun window => decide (window.text = value)).getD defaultTimeWindow
  | _ => defaultTimeWindow

inductive PanelType where
  | gpuUtilization
  | gpuTemperature
  | gpuPower
  | gpuClock
  | gpuMemory
  | gpuFan
  | gpuPcie
  | gpuEvents
  | cpuUtilization
  | cpuCores
  | memory
  | diskIo
  | networkIo
  | enginesOverview
  | engineStatus
  | enginePrefillThroughput
  | engineDecodeThroughput
  | engineLatency
  | engineSloGoodput
  | engineRequests
  | engineCache
  | engineSpecDecode
  | inferenceTimeline
  | logs
  deriving DecidableEq, Repr

/-- The type's key in `PANEL_TYPES`. -/
def PanelType.key : PanelType → Utf16
  | .gpuUtilization => utf16 "gpu-utilization"
  | .gpuTemperature => utf16 "gpu-temperature"
  | .gpuPower => utf16 "gpu-power"
  | .gpuClock => utf16 "gpu-clock"
  | .gpuMemory => utf16 "gpu-memory"
  | .gpuFan => utf16 "gpu-fan"
  | .gpuPcie => utf16 "gpu-pcie"
  | .gpuEvents => utf16 "gpu-events"
  | .cpuUtilization => utf16 "cpu-utilization"
  | .cpuCores => utf16 "cpu-cores"
  | .memory => utf16 "memory"
  | .diskIo => utf16 "disk-io"
  | .networkIo => utf16 "network-io"
  | .enginesOverview => utf16 "engines-overview"
  | .engineStatus => utf16 "engine-status"
  | .enginePrefillThroughput => utf16 "engine-prefill-throughput"
  | .engineDecodeThroughput => utf16 "engine-decode-throughput"
  | .engineLatency => utf16 "engine-latency"
  | .engineSloGoodput => utf16 "engine-slo-goodput"
  | .engineRequests => utf16 "engine-requests"
  | .engineCache => utf16 "engine-cache"
  | .engineSpecDecode => utf16 "engine-spec-decode"
  | .inferenceTimeline => utf16 "inference-timeline"
  | .logs => utf16 "logs"

/-- `PANEL_TYPE_IDS`, in palette order. -/
def panelTypes : List PanelType :=
  [.gpuUtilization, .gpuTemperature, .gpuPower, .gpuClock, .gpuMemory, .gpuFan, .gpuPcie, .gpuEvents,
    .cpuUtilization, .cpuCores, .memory, .diskIo, .networkIo, .enginesOverview, .engineStatus,
    .enginePrefillThroughput, .engineDecodeThroughput, .engineLatency, .engineSloGoodput, .engineRequests,
    .engineCache, .engineSpecDecode, .inferenceTimeline, .logs]

def defaultSize : PanelSize := ⟨3, 3⟩

/-- The one size a type's entry declares. -/
def PanelType.declaredSize : PanelType → Option PanelSize
  | .logs => some ⟨6, 4⟩
  | _ => none

def defaultPanelSize (type : Utf16) : PanelSize :=
  ((panelTypes.find? fun known => decide (known.key = type)).bind PanelType.declaredSize).getD defaultSize

theorem readWindow_text (window : TimeWindow) : readWindow (some (.string window.text)) = window := by
  cases window <;> rfl

theorem key_ne_nil (type : PanelType) : type.key ≠ [] := by
  cases type <;> exact List.cons_ne_nil _ _

theorem trimmed_key (type : PanelType) : Utf16.Trimmed type.key := by
  apply Utf16.trimmed_of_spaceless
  cases type <;> decide

end SparkDashboard.Dashboard
