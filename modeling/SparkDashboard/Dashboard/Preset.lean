import SparkDashboard.Dashboard.Schema

/-!
# The preset and the starting layouts
-/

namespace SparkDashboard.Dashboard

def panel (id : String) (type : PanelType) (x y w h : Nat) : DashboardPanel where
  id := utf16 id
  type := type.key
  title := none
  geometry := ⟨x, y, w, h⟩
  binding := .follow
  window := defaultTimeWindow

def defaultDashboardDocument : DashboardDocument where
  version := .ofNat dashboardSchemaVersion
  pages := [
    { id := utf16 "overview"
      name := utf16 "Overview"
      source := none
      panels := [
        panel "decode" .engineDecodeThroughput 0 0 6 3,
        panel "latency" .engineLatency 6 0 3 3,
        panel "requests" .engineRequests 9 0 3 3,
        panel "gpu-util" .gpuUtilization 0 3 6 3,
        panel "gpu-power" .gpuPower 6 3 3 3,
        panel "gpu-temp" .gpuTemperature 9 3 3 3,
        panel "cpu" .cpuUtilization 0 6 3 2,
        panel "memory" .memory 3 6 3 2,
        panel "disk" .diskIo 6 6 3 2,
        panel "network" .networkIo 9 6 3 2] }]

structure StartingLayout where
  name : Utf16
  panels : List DashboardPanel
  deriving DecidableEq

def legacyLayout : StartingLayout where
  name := utf16 "Legacy"
  panels := [
    panel "engine" .engineStatus 0 0 12 1,
    panel "prefill" .enginePrefillThroughput 0 1 2 3,
    panel "decode" .engineDecodeThroughput 2 1 2 3,
    panel "latency" .engineLatency 4 1 2 3,
    panel "goodput" .engineSloGoodput 6 1 2 3,
    panel "requests" .engineRequests 8 1 2 3,
    panel "cache" .engineCache 10 1 2 2,
    panel "spec-decode" .engineSpecDecode 10 3 2 1,
    panel "gpu-util" .gpuUtilization 0 4 3 2,
    panel "gpu-temp" .gpuTemperature 3 4 3 2,
    panel "gpu-power" .gpuPower 6 4 3 2,
    panel "gpu-clock" .gpuClock 9 4 3 2,
    panel "cpu" .cpuUtilization 0 6 3 2,
    panel "cpu-cores" .cpuCores 3 6 3 2,
    panel "memory" .memory 6 6 2 2,
    panel "disk" .diskIo 8 6 2 2,
    panel "network" .networkIo 10 6 2 2]

def startingLayouts : List StartingLayout := [legacyLayout]

end SparkDashboard.Dashboard
