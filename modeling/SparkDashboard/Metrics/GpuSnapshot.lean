import Mathlib.Data.List.Range
import SparkDashboard.Engines.PublishedEngines
import SparkDashboard.Library.SortDedup

/-!
# The GPUs of a snapshot

The collector opens its devices once. At every tick it reads them, adds the simulated ones and
stamps the engines the other task last published with the devices their processes are on.
-/

namespace SparkDashboard.Metrics

open SparkDashboard.Library Chars Engines Stepping

/-- What NVML answers at the start; a count is asked for twice, and `none` where that fails. -/
structure Nvml where
  deviceCount : Option Nat
  deviceCountAgain : Option Nat
  opens : Nat → Bool

structure ThrottleReasons where
  hwThermalSlowdown : Bool
  swThermalSlowdown : Bool
  hwSlowdown : Bool
  hwPowerBrakeSlowdown : Bool
  swPowerCap : Bool

/-- What NVML answers of a device at a tick, `none` where it does not. -/
structure GpuReading where
  name : Option String
  utilization : Option Nat
  memoryInfo : Option (Nat × Nat)
  temperature : Option Nat
  powerUsage : Option Nat
  powerManagementLimit : Option Nat
  enforcedPowerLimit : Option Nat
  powerManagementLimitDefault : Option Nat
  powerManagementMaxLimit : Option Nat
  clockGraphics : Option Nat
  clockSm : Option Nat
  clockMemory : Option Nat
  fanSpeed : Option Nat
  pcieReceive : Option Nat
  pcieSend : Option Nat
  throttleReasons : Option ThrottleReasons
  computeProcesses : Option (List Nat)

/-- Power is in milliwatts, as NVML reports it. -/
structure GpuMetrics where
  index : Option Nat := none
  name : Option String := none
  utilizationPercent : Option Nat := none
  memoryTotalBytes : Option Nat := none
  memoryUsedBytes : Option Nat := none
  temperatureCelsius : Option Nat := none
  powerMilliwatts : Option Nat := none
  powerLimitMilliwatts : Option Nat := none
  clockGraphicsMhz : Option Nat := none
  clockSmMhz : Option Nat := none
  clockMemoryMhz : Option Nat := none
  fanSpeedPercent : Option Nat := none
  pcieRxBytesPerSec : Option Nat := none
  pcieTxBytesPerSec : Option Nat := none

structure GpuEvent where
  timestampMs : Nat
  gpuIndex : Option Nat
  eventType : String
  detail : String

def emptyGpuMetrics : GpuMetrics := {}

/-- The first source that NVML supports; a limit of zero is none. -/
def resolvePowerLimitMw (reading : GpuReading) : Option Nat :=
  (((reading.powerManagementLimit.or reading.enforcedPowerLimit).or reading.powerManagementLimitDefault).or
    reading.powerManagementMaxLimit).filter fun mw => 0 < mw

def pcieBytesPerSec (rx tx : Option Nat) : Option Nat × Option Nat :=
  match rx, tx with
  | some rx, some tx => (some (rx * 1024), some (tx * 1024))
  | _, _ => (none, none)

def collectGpuMetricsForDevice (index : Nat) (reading : GpuReading) : GpuMetrics where
  index := some index
  name := reading.name
  utilizationPercent := reading.utilization
  memoryTotalBytes := reading.memoryInfo.map Prod.fst
  memoryUsedBytes := reading.memoryInfo.map Prod.snd
  temperatureCelsius := reading.temperature
  powerMilliwatts := reading.powerUsage
  powerLimitMilliwatts := resolvePowerLimitMw reading
  clockGraphicsMhz := reading.clockGraphics
  clockSmMhz := reading.clockSm
  clockMemoryMhz := reading.clockMemory
  fanSpeedPercent := reading.fanSpeed
  pcieRxBytesPerSec := (pcieBytesPerSec reading.pcieReceive reading.pcieSend).1
  pcieTxBytesPerSec := (pcieBytesPerSec reading.pcieReceive reading.pcieSend).2

def collectGpuMetrics (devices : List Nat) (read : Nat → GpuReading) : List GpuMetrics :=
  devices.map fun index => collectGpuMetricsForDevice index (read index)

def collectDevicePids (devices : List Nat) (read : Nat → GpuReading) : List (Nat × List Nat) :=
  devices.map fun index => (index, (read index).computeProcesses.getD [])

def gpuIndexesForPids (pids : List Nat) (devicePids : List (Nat × List Nat)) : List Nat :=
  sortDedup ((devicePids.filter fun device => device.2.any fun pid => pids.contains pid).map Prod.fst)

def throttleEvents (index timestampMs : Nat) (reasons : ThrottleReasons) : List GpuEvent :=
  (if reasons.hwThermalSlowdown || reasons.swThermalSlowdown then
    [⟨timestampMs, some index, "thermal", "Thermal throttling active"⟩] else []) ++
  (if reasons.hwSlowdown then [⟨timestampMs, some index, "throttle", "Hardware slowdown engaged"⟩] else []) ++
  (if reasons.hwPowerBrakeSlowdown then
    [⟨timestampMs, some index, "power_brake", "Power brake engaged"⟩] else []) ++
  (if reasons.swPowerCap then
    [⟨timestampMs, some index, "throttle", "Software power cap limiting clocks"⟩] else [])

def detectGpuEvents (devices : List Nat) (read : Nat → GpuReading) (timestampMs : Nat) : List GpuEvent :=
  devices.flatMap fun index => ((read index).throttleReasons.map (throttleEvents index timestampMs)).getD []

/-- The devices the collector opens, once and for all. -/
def openDevices (nvml : Option Nvml) (gpuIndex : Option Nat) : List Nat :=
  match nvml with
  | none => []
  | some n =>
    let count := n.deviceCount.getD 0
    let indexes := match gpuIndex with
      | some index => if count ≤ index then [] else [index]
      | none => List.range count
    indexes.filter n.opens

def simulatedBaseIndex (nvml : Option Nvml) : Nat := (nvml.bind Nvml.deviceCountAgain).getD 0

/-- The waves of the simulator, functions of an index and a time: all of a device but its index and
its name, and its temperature. -/
structure Waves where
  metrics : Nat → Nat → GpuMetrics
  temperature : Nat → Nat → Nat

def thermalEventCelsius : Nat := 79

/-- Indexes are 32 bits wide. -/
def simulatedIndex (base offset : Nat) : Nat := (base + offset) % 2 ^ 32

def simulatedGpus (waves : Waves) (count base timestampMs : Nat) : List GpuMetrics :=
  (List.range count).map fun offset =>
    let index := simulatedIndex base offset
    { waves.metrics index timestampMs with
      index := some index
      name := some ("Simulated GPU " ++ toString index)
      temperatureCelsius := some (waves.temperature index timestampMs) }

def simulatedGpuEvents (waves : Waves) (count base timestampMs : Nat) : List GpuEvent :=
  (List.range count).filterMap fun offset =>
    let index := simulatedIndex base offset
    if thermalEventCelsius ≤ waves.temperature index timestampMs then
      some ⟨timestampMs, some index, "thermal", "Simulated thermal throttling (GPU " ++ toString index ++ ")"⟩
    else none

/-- What the collector is started with. -/
structure GpuConfig where
  nvml : Option Nvml
  gpuIndex : Option Nat
  simulateGpus : Nat
  waves : Waves

structure StampedEngine extends EngineSnapshot where
  gpuIndexes : List Nat

/-- The part of a snapshot that the GPUs make up. -/
structure GpuSnapshot where
  timestampMs : Nat
  gpu : GpuMetrics
  gpus : List GpuMetrics
  engines : List StampedEngine
  gpuEvents : List GpuEvent

namespace GpuConfig

variable (config : GpuConfig)

def devices : List Nat := openDevices config.nvml config.gpuIndex

def base : Nat := simulatedBaseIndex config.nvml

def gpus (read : Nat → GpuReading) (timestampMs : Nat) : List GpuMetrics :=
  collectGpuMetrics config.devices read ++
    simulatedGpus config.waves config.simulateGpus config.base timestampMs

def snapshot (published : List EngineSnapshot) (read : Nat → GpuReading) (timestampMs : Nat) : GpuSnapshot where
  timestampMs
  gpu := (config.gpus read timestampMs).headD emptyGpuMetrics
  gpus := config.gpus read timestampMs
  engines := published.map fun engine =>
    { toEngineSnapshot := engine
      gpuIndexes := gpuIndexesForPids engine.pids (collectDevicePids config.devices read) }
  gpuEvents := detectGpuEvents config.devices read timestampMs ++
    simulatedGpuEvents config.waves config.simulateGpus config.base timestampMs

end GpuConfig

section Devices

theorem pairwise_openDevices (nvml : Option Nvml) (gpuIndex : Option Nat) :
    (openDevices nvml gpuIndex).Pairwise (· < ·) := by
  cases nvml with
  | none => exact .nil
  | some n =>
    refine List.Pairwise.filter _ ?_
    cases gpuIndex with
    | none => exact List.pairwise_lt_range
    | some index =>
      dsimp only
      split
      · exact .nil
      · exact List.pairwise_singleton _ _

theorem lt_of_mem_openDevices {n : Nvml} {gpuIndex : Option Nat} {i : Nat} (h : i ∈ openDevices (some n) gpuIndex) :
    i < n.deviceCount.getD 0 ∧ ∀ only, gpuIndex = some only → i = only := by
  obtain ⟨hmem, -⟩ := List.mem_filter.mp h
  cases gpuIndex with
  | none => exact ⟨List.mem_range.mp hmem, nofun⟩
  | some index =>
    dsimp only at hmem
    split at hmem
    · cases hmem
    · rename_i hlt
      obtain rfl := List.mem_singleton.mp hmem
      exact ⟨Nat.lt_of_not_le hlt, fun only honly => Option.some.inj honly⟩

/-- NVML does not report fewer devices the second time. -/
def CountsAgree (nvml : Option Nvml) : Prop :=
  ∀ n, nvml = some n → n.deviceCount.getD 0 ≤ n.deviceCountAgain.getD 0

theorem lt_base_of_mem_openDevices {nvml : Option Nvml} {gpuIndex : Option Nat} (hcounts : CountsAgree nvml) {i : Nat}
    (h : i ∈ openDevices nvml gpuIndex) : i < simulatedBaseIndex nvml := by
  cases nvml with
  | none => cases h
  | some n => exact (lt_of_mem_openDevices h).1.trans_le (hcounts n rfl)

theorem mem_gpuIndexesForPids {pids devices : List Nat} {read : Nat → GpuReading} {i : Nat} :
    i ∈ gpuIndexesForPids pids (collectDevicePids devices read) ↔
      i ∈ devices ∧ ∃ pid ∈ (read i).computeProcesses.getD [], pid ∈ pids := by
  rw [gpuIndexesForPids, mem_sortDedup, List.mem_map]
  constructor
  · rintro ⟨device, hdevice, rfl⟩
    obtain ⟨hmem, hany⟩ := List.mem_filter.mp hdevice
    obtain ⟨index, hindex, rfl⟩ := List.mem_map.mp hmem
    obtain ⟨pid, hpid, hcontains⟩ := List.any_eq_true.mp hany
    exact ⟨hindex, pid, hpid, List.contains_iff_mem.mp hcontains⟩
  · rintro ⟨hindex, pid, hpid, hmem⟩
    refine ⟨(i, (read i).computeProcesses.getD []), List.mem_filter.mpr ⟨?_, ?_⟩, rfl⟩
    · exact List.mem_map.mpr ⟨i, hindex, rfl⟩
    · exact List.any_eq_true.mpr ⟨pid, hpid, List.contains_iff_mem.mpr hmem⟩

theorem throttleEvents_at {index timestampMs : Nat} {reasons : ThrottleReasons} {event : GpuEvent}
    (h : event ∈ throttleEvents index timestampMs reasons) :
    event.timestampMs = timestampMs ∧ event.gpuIndex = some index := by
  have hif : ∀ (c : Prop) [Decidable c] (eventType detail : String),
      event ∈ (if c then [⟨timestampMs, some index, eventType, detail⟩] else [] : List GpuEvent) →
      event.timestampMs = timestampMs ∧ event.gpuIndex = some index := by
    intro c _ eventType detail hmem
    split at hmem
    · obtain rfl := List.mem_singleton.mp hmem
      exact ⟨rfl, rfl⟩
    · cases hmem
  rw [throttleEvents, List.mem_append, List.mem_append, List.mem_append] at h
  rcases h with ((h | h) | h) | h
  · exact hif _ _ _ h
  · exact hif _ _ _ h
  · exact hif _ _ _ h
  · exact hif _ _ _ h

theorem detectGpuEvents_at {devices : List Nat} {read : Nat → GpuReading} {timestampMs : Nat} {event : GpuEvent}
    (h : event ∈ detectGpuEvents devices read timestampMs) :
    event.timestampMs = timestampMs ∧ ∃ index ∈ devices, event.gpuIndex = some index := by
  obtain ⟨index, hindex, hevent⟩ := List.mem_flatMap.mp h
  cases hreasons : (read index).throttleReasons with
  | none =>
    rw [hreasons] at hevent
    cases hevent
  | some reasons =>
    rw [hreasons] at hevent
    obtain ⟨htime, hat⟩ := throttleEvents_at hevent
    exact ⟨htime, index, hindex, hat⟩

theorem simulatedGpuEvents_at {waves : Waves} {count base timestampMs : Nat} {event : GpuEvent}
    (h : event ∈ simulatedGpuEvents waves count base timestampMs) :
    event.timestampMs = timestampMs ∧ ∃ offset < count, event.gpuIndex = some (simulatedIndex base offset) := by
  obtain ⟨offset, hoffset, hevent⟩ := List.mem_filterMap.mp h
  dsimp only at hevent
  split at hevent
  · cases hevent
    exact ⟨rfl, offset, List.mem_range.mp hoffset, rfl⟩
  · cases hevent

end Devices

namespace GpuConfig

variable {config : GpuConfig}

/-- The indexes of the devices of a snapshot, the simulated ones last. -/
def indexes (config : GpuConfig) : List Nat :=
  config.devices ++ (List.range config.simulateGpus).map (simulatedIndex config.base)

theorem map_index_gpus (config : GpuConfig) (read : Nat → GpuReading) (timestampMs : Nat) :
    (config.gpus read timestampMs).map GpuMetrics.index = config.indexes.map some := by
  rw [gpus, indexes, List.map_append, List.map_append, collectGpuMetrics, simulatedGpus, List.map_map, List.map_map,
    List.map_map]
  rfl

theorem pairwise_indexes (hcounts : CountsAgree config.nvml) (hfits : config.base + config.simulateGpus ≤ 2 ^ 32) :
    config.indexes.Pairwise (· < ·) := by
  have hindex : ∀ offset ∈ List.range config.simulateGpus,
      simulatedIndex config.base offset = config.base + offset := by
    intro offset hoffset
    have hlt := List.mem_range.mp hoffset
    exact Nat.mod_eq_of_lt (by omega)
  rw [indexes, List.map_congr_left hindex]
  refine List.pairwise_append.mpr ⟨pairwise_openDevices _ _, ?_, ?_⟩
  · rw [List.pairwise_map]
    exact List.pairwise_lt_range.imp fun h => Nat.add_lt_add_left h _
  · intro i hi j hj
    obtain ⟨offset, -, rfl⟩ := List.mem_map.mp hj
    exact (lt_base_of_mem_openDevices hcounts hi).trans_le (Nat.le_add_right _ _)

theorem mem_indexes {i : Nat} :
    i ∈ config.indexes ↔
      i ∈ config.devices ∨ ∃ offset < config.simulateGpus, simulatedIndex config.base offset = i := by
  rw [indexes, List.mem_append, List.mem_map]
  simp only [List.mem_range]

theorem exists_gpu_of_mem_indexes {i : Nat} (h : i ∈ config.indexes) (read : Nat → GpuReading) (timestampMs : Nat) :
    ∃ gpu ∈ config.gpus read timestampMs, gpu.index = some i := by
  have hmem : some i ∈ (config.gpus read timestampMs).map GpuMetrics.index := by
    rw [map_index_gpus]
    exact List.mem_map_of_mem h
  exact List.mem_map.mp hmem

theorem event_index_mem {published : List EngineSnapshot} {read : Nat → GpuReading} {timestampMs : Nat}
    {event : GpuEvent} (h : event ∈ (config.snapshot published read timestampMs).gpuEvents) :
    event.timestampMs = timestampMs ∧ ∃ i ∈ config.indexes, event.gpuIndex = some i := by
  rcases List.mem_append.mp h with h | h
  · obtain ⟨htime, i, hi, hat⟩ := detectGpuEvents_at h
    exact ⟨htime, i, mem_indexes.mpr (.inl hi), hat⟩
  · obtain ⟨htime, offset, hoffset, hat⟩ := simulatedGpuEvents_at h
    exact ⟨htime, _, mem_indexes.mpr (.inr ⟨offset, hoffset, rfl⟩), hat⟩

/-- The devices of a snapshot: each index once and ascending, the simulated ones past every real one; the
flag leaves no other real device; every event is of this snapshot and of one of its devices; and an engine
is on exactly those real devices that run one of its processes. -/
theorem snapshot_gpus (config : GpuConfig) (published : List EngineSnapshot) (read : Nat → GpuReading)
    (timestampMs : Nat) :
    (config.snapshot published read timestampMs).gpus.map GpuMetrics.index = config.indexes.map some ∧
    (CountsAgree config.nvml → config.base + config.simulateGpus ≤ 2 ^ 32 →
      config.indexes.Pairwise (· < ·) ∧ ∀ i ∈ config.indexes, i < config.base ↔ i ∈ config.devices) ∧
    (∀ only, config.gpuIndex = some only → ∀ i ∈ config.devices, i = only) ∧
    (∀ event ∈ (config.snapshot published read timestampMs).gpuEvents, event.timestampMs = timestampMs ∧
      ∃ gpu ∈ (config.snapshot published read timestampMs).gpus, gpu.index.isSome ∧ gpu.index = event.gpuIndex) ∧
    ∀ engine ∈ (config.snapshot published read timestampMs).engines, engine.toEngineSnapshot ∈ published ∧
      engine.gpuIndexes.Pairwise (· < ·) ∧ ∀ i, i ∈ engine.gpuIndexes ↔
        i ∈ config.devices ∧ ∃ pid ∈ (read i).computeProcesses.getD [], pid ∈ engine.pids := by
  refine ⟨map_index_gpus config read timestampMs, ?_, ?_, ?_, ?_⟩
  · intro hcounts hfits
    refine ⟨pairwise_indexes hcounts hfits, ?_⟩
    intro i hi
    constructor
    · intro hlt
      rcases mem_indexes.mp hi with hmem | ⟨offset, hoffset, rfl⟩
      · exact hmem
      · rw [simulatedIndex, Nat.mod_eq_of_lt (by omega)] at hlt
        omega
    · exact lt_base_of_mem_openDevices hcounts
  · intro only honly i hi
    rw [devices] at hi
    cases hnvml : config.nvml with
    | none =>
      rw [hnvml] at hi
      cases hi
    | some n =>
      rw [hnvml] at hi
      exact (lt_of_mem_openDevices hi).2 only honly
  · intro event hevent
    obtain ⟨htime, i, hi, hat⟩ := event_index_mem hevent
    obtain ⟨gpu, hgpu, hindex⟩ := exists_gpu_of_mem_indexes hi read timestampMs
    refine ⟨htime, gpu, hgpu, ?_, hindex.trans hat.symm⟩
    rw [hindex]
    rfl
  · intro engine hengine
    obtain ⟨snapshot, hsnapshot, rfl⟩ := List.mem_map.mp hengine
    exact ⟨hsnapshot, pairwise_sortDedup _, fun i => mem_gpuIndexesForPids⟩

end GpuConfig

section Loops

variable {ε : Type}

/-- The two tasks: the engine collector's map and the snapshots it shares with the metrics collector. -/
structure Loops where
  engines : EngineMap
  shared : List EngineSnapshot := []

inductive LoopTick (ε : Type) where
  | engines (tick : HostTick ε)
  | metrics (read : Nat → GpuReading) (timestampMs : Nat)

def LoopTick.host? : LoopTick ε → Option (HostTick ε)
  | .engines tick => some tick
  | .metrics .. => none

def loopStep (toLowercase : Text → Text) (config : GpuConfig) (s : Loops) :
    LoopTick ε → Option GpuSnapshot × Loops
  | .engines tick =>
    let next := hostStep toLowercase s.engines tick
    (none, { engines := next.2, shared := next.1.getD s.shared })
  | .metrics read timestampMs => (some (config.snapshot s.shared read timestampMs), s)

def Loops.start (overrides : List EngineOverride) (started : Engines.Instant) : Loops :=
  { engines := Collector.seed overrides started }

abbrev LoopEntry (ε : Type) := Entry Loops (LoopTick ε) (Option GpuSnapshot)

def hostTicks (past : List (LoopEntry ε)) : List (HostTick ε) := past.filterMap fun e => e.input.host?

def passes (ticks : List (HostTick ε)) : List (Scan ε) := ticks.filterMap HostTick.scan?

/-- The ticks before the last poll; none where there is no poll. -/
def beforeLastPoll (ticks : List (HostTick ε)) : List (HostTick ε) :=
  (ticks.reverse.dropWhile fun tick => tick.scan?.isSome).tail.reverse

theorem beforeLastPoll_concat_detect (ticks : List (HostTick ε)) (scan : Scan ε) (now : Engines.Instant) :
    beforeLastPoll (ticks ++ [.detect scan now]) = beforeLastPoll ticks := by
  rw [beforeLastPoll, List.reverse_concat]
  rfl

theorem beforeLastPoll_concat_poll (ticks : List (HostTick ε)) (probes : EngineKey → Probe)
    (retainAt : Engines.Instant) : beforeLastPoll (ticks ++ [.poll probes retainAt]) = ticks := by
  rw [beforeLastPoll, List.reverse_concat]
  exact List.reverse_reverse ticks

theorem passes_concat (ticks : List (HostTick ε)) (tick : HostTick ε) :
    passes (ticks ++ [tick]) = passes ticks ++ tick.scan?.toList := by
  rw [passes, List.filterMap_append]
  cases tick <;> rfl

/-- What the engine collector, run by itself over these ticks, publishes last; nothing before its first poll. -/
def lastPublished (toLowercase : Text → Text) (m : EngineMap) (ticks : List (HostTick ε)) : List EngineSnapshot :=
  (((outputs (hostStep toLowercase) m ticks).filterMap id).getLast?).getD []

theorem lastPublished_concat (toLowercase : Text → Text) (m : EngineMap) (ticks : List (HostTick ε))
    (tick : HostTick ε) : lastPublished toLowercase m (ticks ++ [tick]) =
      ((hostStep toLowercase (final (hostStep toLowercase) m ticks) tick).1).getD
        (lastPublished toLowercase m ticks) := by
  rw [lastPublished, lastPublished, outputs, trace_concat, List.map_append, List.filterMap_append]
  cases hpublished : (hostStep toLowercase (final (hostStep toLowercase) m ticks) tick).1 with
  | none =>
    have hnone : ([entry (hostStep toLowercase) (final (hostStep toLowercase) m ticks) tick].map
        Entry.output).filterMap id = [] := by simp [entry, hpublished]
    rw [hnone, List.append_nil]
    rfl
  | some published =>
    have hsome : ([entry (hostStep toLowercase) (final (hostStep toLowercase) m ticks) tick].map
        Entry.output).filterMap id = [published] := by simp [entry, hpublished]
    rw [hsome, List.getLast?_concat]
    rfl

variable {toLowercase : Text → Text} {config : GpuConfig} {start : EngineMap}

/-- The tasks after these ticks of the engine collector, which the metrics collector leaves alone. -/
structure InStep (toLowercase : Text → Text) (start : EngineMap) (ticks : List (HostTick ε)) (s : Loops) : Prop where
  engines : s.engines = final (hostStep toLowercase) start ticks
  published : s.shared = lastPublished toLowercase start ticks
  kept : Collector.AllKept toLowercase (passes ticks) s.engines
  shared : ∀ e ∈ s.shared, Collector.Follows toLowercase (passes (beforeLastPoll ticks)) e

theorem inStep_host {ticks : List (HostTick ε)} {s : Loops} (h : InStep toLowercase start ticks s)
    (tick : HostTick ε) :
    InStep toLowercase start (ticks ++ [tick]) (loopStep toLowercase config s (.engines tick)).2 := by
  refine ⟨?_, ?_, ?_, ?_⟩
  · rw [final_concat, ← h.engines]
    rfl
  · rw [lastPublished_concat, ← h.engines, ← h.published]
    rfl
  · rw [passes_concat]
    exact Collector.allKept_step h.kept tick
  · cases tick with
    | detect scan now =>
      rw [beforeLastPoll_concat_detect]
      exact h.shared
    | poll probes retainAt =>
      rw [beforeLastPoll_concat_poll]
      have hpublished : (hostStep toLowercase s.engines (.poll probes retainAt : HostTick ε)).1 =
          some (Collector.snapshots s.engines probes) := rfl
      exact Collector.follows_published h.kept hpublished

theorem hostTicks_concat_engines (past : List (LoopEntry ε)) (s : Loops) (tick : HostTick ε) :
    hostTicks (past ++ [entry (loopStep toLowercase config) s (.engines tick)]) = hostTicks past ++ [tick] :=
  List.filterMap_append

theorem hostTicks_concat_metrics (past : List (LoopEntry ε)) (s : Loops) (read : Nat → GpuReading)
    (timestampMs : Nat) :
    hostTicks (past ++ [entry (loopStep toLowercase config) s (.metrics read timestampMs)]) = hostTicks past := by
  rw [hostTicks, List.filterMap_append]
  exact List.append_nil _

theorem inStep_step {past : List (LoopEntry ε)} {s : Loops} (h : InStep toLowercase start (hostTicks past) s)
    (tick : LoopTick ε) : InStep toLowercase start (hostTicks (past ++ [entry (loopStep toLowercase config) s tick]))
      (loopStep toLowercase config s tick).2 := by
  cases tick with
  | engines tick =>
    rw [hostTicks_concat_engines]
    exact inStep_host h tick
  | metrics read timestampMs =>
    rw [hostTicks_concat_metrics]
    exact h

/-- Over a run of the two tasks: the engines of a snapshot are those that the engine collector by itself
published last, and each is shown on exactly those real devices that run, at that tick, one of the processes
with which the last pass before that poll found it; on none where that pass did not find it. -/
theorem badges_follow_scans (toLowercase : Text → Text) (config : GpuConfig) (overrides : List EngineOverride)
    (started : Engines.Instant) (ticks : List (LoopTick ε)) :
    ∀ earlier e later, trace (loopStep toLowercase config) (Loops.start overrides started) ticks =
        earlier ++ e :: later →
      ∀ read timestampMs, e.input = .metrics read timestampMs → ∃ snapshot, e.output = some snapshot ∧
        snapshot.engines.map StampedEngine.toEngineSnapshot =
          lastPublished toLowercase (Collector.seed overrides started) (hostTicks earlier) ∧
        ∀ engine ∈ snapshot.engines,
          Collector.Follows toLowercase (passes (beforeLastPoll (hostTicks earlier))) engine.toEngineSnapshot ∧
          ∀ i, i ∈ engine.gpuIndexes ↔ i ∈ config.devices ∧ ∃ pid ∈ (read i).computeProcesses.getD [],
            pid ∈ pidsOf (lastPass toLowercase (passes (beforeLastPoll (hostTicks earlier))))
              (engine.engineType, engine.endpoint) := by
  intro earlier e later hrun read timestampMs hinput
  have hstart : InStep toLowercase (Collector.seed overrides started) (hostTicks ([] : List (LoopEntry ε)))
      (Loops.start overrides started) :=
    ⟨rfl, rfl, Collector.allKept_seed overrides started, fun _ he => absurd he List.not_mem_nil⟩
  obtain ⟨hstep, s, tick, rfl⟩ := forall_split_trace (fun past s (_ : List (LoopTick ε)) =>
    InStep toLowercase (Collector.seed overrides started) (hostTicks past) s)
    (fun past e => InStep toLowercase (Collector.seed overrides started) (hostTicks past) e.before ∧
      ∃ s tick, e = entry (loopStep toLowercase config) s tick)
    (fun _ _ tick _ hpast => inStep_step hpast tick) (fun _ s tick _ hpast => ⟨hpast, s, tick, rfl⟩) []
    hstart earlier e later hrun
  rw [List.nil_append] at hstep
  obtain rfl : tick = .metrics read timestampMs := hinput
  refine ⟨_, rfl, ?_, ?_⟩
  · rw [← hstep.published]
    exact (List.map_map ..).trans (List.map_id _)
  intro engine hengine
  obtain ⟨snapshot, hsnapshot, rfl⟩ := List.mem_map.mp hengine
  have hfollows := hstep.shared snapshot hsnapshot
  refine ⟨hfollows, ?_⟩
  intro i
  rw [mem_gpuIndexesForPids, hfollows.pids]

/-- Two devices, and a process on each. -/
def twoDevices : GpuConfig where
  nvml := some { deviceCount := some 2, deviceCountAgain := some 2, opens := fun _ => true }
  gpuIndex := none
  simulateGpus := 0
  waves := { metrics := fun _ _ => {}, temperature := fun _ _ => 0 }

def oneProcessEach (index : Nat) : GpuReading where
  name := none
  utilization := none
  memoryInfo := none
  temperature := none
  powerUsage := none
  powerManagementLimit := none
  enforcedPowerLimit := none
  powerManagementLimitDefault := none
  powerManagementMaxLimit := none
  clockGraphics := none
  clockSm := none
  clockMemory := none
  fanSpeed := none
  pcieReceive := none
  pcieSend := none
  throttleReasons := none
  computeProcesses := some [index + 4241]

/-- A pass that finds a container, then a poll. -/
def foundAndPolled : List (LoopTick Unit) :=
  [.engines (.detect Collector.vllmScan 0), .engines (.poll (Collector.answersAt 1) 1)]

theorem badges_follow_scans_found :
    ∃ snapshot, (loopStep id twoDevices (final (loopStep id twoDevices) (Loops.start [] 0) foundAndPolled)
      (.metrics oneProcessEach 1000 : LoopTick Unit)).1 = some snapshot ∧
      ∃ engine ∈ snapshot.engines, engine.containerId = some "c0ffee" ∧ ∀ i, i ∈ engine.gpuIndexes ↔ i = 1 := by
  obtain ⟨snapshot, hsnapshot, hpublished, hengines⟩ := badges_follow_scans id twoDevices [] 0
    (foundAndPolled ++ [.metrics oneProcessEach 1000])
    (trace (loopStep id twoDevices) (Loops.start [] 0) foundAndPolled)
    _ [] (trace_concat _ _ _ _) oneProcessEach 1000 rfl
  refine ⟨snapshot, hsnapshot, ?_⟩
  have hone : snapshot.engines.map (fun e => (e.containerId, e.pids)) = [(some "c0ffee", [4242])] := by
    have hfound := congrArg (List.map fun s : EngineSnapshot => (s.containerId, s.pids)) hpublished
    rw [List.map_map] at hfound
    exact hfound.trans (by decide +kernel)
  obtain ⟨engine, hengine, hfound⟩ := List.mem_map.mp (hone ▸ List.mem_singleton_self _)
  obtain ⟨hid, hpids⟩ := Prod.mk.inj hfound
  obtain ⟨hfollows, hbadges⟩ := hengines engine hengine
  refine ⟨engine, hengine, hid, fun i => ?_⟩
  have hdevices : twoDevices.devices = [0, 1] := rfl
  have hprocesses : (oneProcessEach i).computeProcesses.getD [] = [i + 4241] := rfl
  rw [hbadges, ← hfollows.pids, hpids, hdevices, hprocesses]
  simp only [exists_eq_left, List.mem_cons, List.not_mem_nil, or_false]
  omega

end Loops

end SparkDashboard.Metrics
