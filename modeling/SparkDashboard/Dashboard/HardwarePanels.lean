import SparkDashboard.Browser.GpuPower
import SparkDashboard.Browser.SumSeries
import SparkDashboard.Dashboard.ChartLines
import SparkDashboard.Dashboard.Selection

/-!
# Hardware panels

What the panels of the host and of its GPUs show: a figure on a bar, a figure alone or a pair of rates,
each with the line of its series.
-/

namespace SparkDashboard.Dashboard

open Browser Stepping Utf16

/-- A GPU as its panels read it. -/
structure ListedGpu extends GpuMetrics where
  powerLimitWatts : Option ℚ := none
  usedBytes_nonneg : ∀ used, memoryUsedBytes = some used → 0 ≤ used := by intro used h; cases h
  totalBytes_nonneg : ∀ total, memoryTotalBytes = some total → 0 ≤ total := by intro total h; cases h

structure HardwareSnapshot where
  metrics : MetricsSnapshot
  gpus : List ListedGpu
  gpus_eq : snapshotGpus metrics = gpus.map ListedGpu.toGpuMetrics

inductive GpuPanelResolution where
  | waiting
  | resolved (gpu : ListedGpu) (multiGpu : Bool)
  | missing (requested : Utf16)
  | unselected
  | unreadable

def useGpuPanel (binding : PanelBinding) (snapshot : Option HardwareSnapshot) (chosen : SelectedTargets) :
    GpuPanelResolution :=
  match snapshot with
  | none => .waiting
  | some snapshot =>
    match resolveGpuBinding (fun gpu : ListedGpu => gpuNumber gpu.toGpuMetrics) binding snapshot.gpus
        (pageSelection (some snapshot.metrics) chosen none).gpuIndex with
    | .resolved gpu => .resolved gpu (decide (1 < snapshot.gpus.length))
    | .missing requested => .missing requested
    | .unselected => .unselected
    | .unreadable => .unreadable

inductive HardwareBody where
  | notice (text : Utf16)
  /-- A figure on a bar, filled from nought to one. -/
  | gauge (label : Utf16) (shown : Int) (fill : ℚ) (line : List DataPoint)
  | headline (label : Utf16) (value : Option ℚ) (line : List DataPoint)
  | rates (label : Option Utf16) (inRate outRate : ℚ) (total inbound outbound : List DataPoint)

/-- `Math.round`. -/
def mathRound (value : ℚ) : Int := ⌊value + 1 / 2⌋

def barFill (value : ℚ) : ℚ := min (max (value / 100) 0) 1

def gaugeBody (label : Utf16) (value : ℚ) (line : List DataPoint) : HardwareBody :=
  .gauge label (mathRound value) (barFill value) line

/-- A bar of one segment, which is left out where there is nothing of it. -/
def segmentBody (label : Utf16) (value total : ℚ) (line : List DataPoint) : HardwareBody :=
  if 0 < value ∧ 0 < total then
    .gauge label (mathRound (value / total * 100)) (min 100 (value / total * 100) / 100) line
  else .gauge label 0 0 line

def ratesBody (label : Option Utf16) (inRate outRate : ℚ) (inbound outbound : List DataPoint) : HardwareBody :=
  .rates label inRate outRate (sumSeries inbound outbound) inbound outbound

section Gpu

variable (gpu : ListedGpu) (multiGpu : Bool) (store : MetricsHistoryStore) (window : TimeWindow)

def gpuLabel (metricLabel : Utf16) : Utf16 :=
  if multiGpu then utf16 "GPU " ++ decimal (gpuIndexOf gpu.toGpuMetrics).toNat else metricLabel

def gpuLine (metric : GpuSeriesMetric) : List DataPoint :=
  (store.getChartData (gpuSeries metric (gpuIndexOf gpu.toGpuMetrics) multiGpu) window).1

def gpuUtil : GpuSeriesMetric := ⟨.gpuUtil, by decide⟩
def gpuTemp : GpuSeriesMetric := ⟨.gpuTemp, by decide⟩
def gpuPower : GpuSeriesMetric := ⟨.gpuPower, by decide⟩
def gpuClockGraphics : GpuSeriesMetric := ⟨.gpuClockGraphics, by decide⟩
def gpuMemory : GpuSeriesMetric := ⟨.gpuMemory, by decide⟩
def gpuFan : GpuSeriesMetric := ⟨.gpuFan, by decide⟩
def gpuPcieRx : GpuSeriesMetric := ⟨.gpuPcieRx, by decide⟩
def gpuPcieTx : GpuSeriesMetric := ⟨.gpuPcieTx, by decide⟩

def gpuUtilizationPanel : HardwareBody :=
  gaugeBody (gpuLabel gpu multiGpu (utf16 "GPU Util")) (gpu.utilizationPercent.getD 0)
    (gpuLine gpu multiGpu store window gpuUtil)

def gpuTemperaturePanel : HardwareBody :=
  gaugeBody (gpuLabel gpu multiGpu (utf16 "GPU Temp")) (gpu.temperatureCelsius.getD 0)
    (gpuLine gpu multiGpu store window gpuTemp)

/-- The scale of the power gauge, from the limit or from what its line and its figure show. -/
def gpuPowerScale : PowerScale :=
  computePowerScale gpu.powerWatts gpu.powerLimitWatts
    (powerPeak (gpuLine gpu multiGpu store window gpuPower) gpu.powerWatts)

/-- The bar is of the scale, the figure in watts. -/
def gpuPowerPanel : HardwareBody :=
  .gauge (gpuLabel gpu multiGpu (utf16 "GPU Power")) ((gpu.powerWatts.map mathRound).getD 0)
    (barFill (gpuPowerScale gpu multiGpu store window).percent) (gpuLine gpu multiGpu store window gpuPower)

def gpuClockPanel : HardwareBody :=
  .headline (gpuLabel gpu multiGpu (utf16 "Graphics")) gpu.clockGraphicsMhz
    (gpuLine gpu multiGpu store window gpuClockGraphics)

def gpuMemoryPanel : HardwareBody :=
  match gpuMemoryPercent gpu.toGpuMetrics with
  | none => .notice (utf16 "This GPU does not report its own memory pool.")
  | some _ =>
    segmentBody (gpuLabel gpu multiGpu (utf16 "VRAM")) (gpu.memoryUsedBytes.getD 0) (gpu.memoryTotalBytes.getD 0)
      (gpuLine gpu multiGpu store window gpuMemory)

def gpuFanPanel : HardwareBody :=
  match gpu.fanSpeedPercent with
  | none => .notice (utf16 "This GPU has no fan to report.")
  | some percent =>
    gaugeBody (gpuLabel gpu multiGpu (utf16 "Fan")) percent (gpuLine gpu multiGpu store window gpuFan)

def gpuPciePanel : HardwareBody :=
  match gpu.pcieRxBytesPerSec, gpu.pcieTxBytesPerSec with
  | some rx, some tx =>
    ratesBody (some (gpuLabel gpu multiGpu (utf16 "PCIe"))) rx tx (gpuLine gpu multiGpu store window gpuPcieRx)
      (gpuLine gpu multiGpu store window gpuPcieTx)
  | _, _ => .notice (utf16 "This GPU has no PCIe link to report.")

end Gpu

section Host

variable (metrics : MetricsSnapshot) (store : MetricsHistoryStore) (window : TimeWindow)

def systemLine (key : MetricKey) : List DataPoint := (store.getChartData key.name window).1

def cpuUtilizationPanel : HardwareBody :=
  gaugeBody (utf16 "CPU") metrics.cpu.aggregatePercent (systemLine store window .cpuAggregate)

def diskIoPanel : HardwareBody :=
  ratesBody none metrics.disk.readBytesPerSec metrics.disk.writeBytesPerSec (systemLine store window .diskRead)
    (systemLine store window .diskWrite)

def networkIoPanel : HardwareBody :=
  ratesBody none metrics.network.rxBytesPerSec metrics.network.txBytesPerSec (systemLine store window .networkRx)
    (systemLine store window .networkTx)

end Host

/-- The panels that bind to a GPU and draw a line of it. -/
def gpuPanels : List (PanelType × (ListedGpu → Bool → MetricsHistoryStore → TimeWindow → HardwareBody)) :=
  [(.gpuUtilization, gpuUtilizationPanel), (.gpuTemperature, gpuTemperaturePanel), (.gpuPower, gpuPowerPanel),
    (.gpuClock, gpuClockPanel), (.gpuMemory, gpuMemoryPanel), (.gpuFan, gpuFanPanel), (.gpuPcie, gpuPciePanel)]

/-- What a panel is about: one figure, or the rates of two directions. -/
inductive Reading where
  | figure (value : Option ℚ)
  | rates (inbound outbound : Option ℚ)

def gpuReading (gpu : GpuMetrics) : PanelType → Reading
  | .gpuUtilization => .figure gpu.utilizationPercent
  | .gpuTemperature => .figure gpu.temperatureCelsius
  | .gpuPower => .figure gpu.powerWatts
  | .gpuClock => .figure gpu.clockGraphicsMhz
  | .gpuMemory => .figure (gpuMemoryPercent gpu)
  | .gpuFan => .figure gpu.fanSpeedPercent
  | .gpuPcie => .rates gpu.pcieRxBytesPerSec gpu.pcieTxBytesPerSec
  | _ => .figure none

/-- How much of its bar a figure fills, in percent. -/
def Reading.percent : Reading → ℚ
  | .figure value => value.getD 0
  | .rates _ _ => 0

/-- The power bar is of its scale, the others of their figures. -/
def gpuPercent (gpu : ListedGpu) (multiGpu : Bool) (store : MetricsHistoryStore) (window : TimeWindow) : PanelType → ℚ
  | .gpuPower => (gpuPowerScale gpu multiGpu store window).percent
  | type => (gpuReading gpu.toGpuMetrics type).percent

section Shown

variable {earlier : List MetricsSnapshot} {latest : MetricsSnapshot}

/-- Both lines end with the rates. The third has a point wherever either has one, their sum. -/
structure RatesShown (latest : MetricsSnapshot) (inRate outRate : ℚ) (total inbound outbound : List DataPoint) :
    Prop where
  inAgrees : Agrees latest (some inRate) inbound
  outAgrees : Agrees latest (some outRate) outbound
  ascending : total.Pairwise fun p q => p.timestamp < q.timestamp
  everywhere : ∀ timestamp, (∃ dp ∈ total, dp.timestamp = timestamp) ↔
    ∃ dp ∈ inbound ++ outbound, dp.timestamp = timestamp
  sums : ∀ dp ∈ total, dp.value = sumAt inbound outbound dp.timestamp
  last : total.getLast? = some ⟨latest.timestampMs, inRate + outRate⟩

/-- A figure is shown rounded, a half up, and as nought where there is none. -/
structure Rounded (value : Option ℚ) (shown : Int) : Prop where
  near : ∀ v, value = some v → (shown : ℚ) - 1 / 2 ≤ v ∧ v < shown + 1 / 2
  absent : value = none → shown = 0

/-- What a panel shows is the reading of the latest snapshot, and its line ends with it. A bar is filled
as far as its percentage goes, and no further than its ends. -/
def BodyShown (latest : MetricsSnapshot) : Reading → ℚ → HardwareBody → Prop
  | .figure value, _, .notice _ => value = none
  | .figure value, percent, .gauge _ shown fill line =>
    Agrees latest value line ∧ Rounded value shown ∧ fill = min (max (percent / 100) 0) 1
  | .figure value, _, .headline _ shown line => shown = value ∧ Agrees latest value line
  | .rates inbound outbound, _, .notice _ => inbound = none ∨ outbound = none
  | .rates inbound outbound, _, .rates _ inRate outRate total inLine outLine =>
    inbound = some inRate ∧ outbound = some outRate ∧ RatesShown latest inRate outRate total inLine outLine
  | _, _, _ => False

theorem mathRound_near (value : ℚ) : (mathRound value : ℚ) - 1 / 2 ≤ value ∧ value < mathRound value + 1 / 2 := by
  have hfloor := Int.floor_le (value + 1 / 2)
  have hlt := Int.lt_floor_add_one (value + 1 / 2)
  rw [mathRound]
  constructor <;> linarith

theorem mathRound_zero : mathRound 0 = 0 := by decide +kernel

theorem rounded (value : Option ℚ) : Rounded value (mathRound (value.getD 0)) := by
  refine ⟨?_, ?_⟩
  · rintro v rfl
    exact mathRound_near v
  · rintro rfl
    exact mathRound_zero

theorem gaugeBody_shown {reading : Option ℚ} {line : List DataPoint} (h : Continues latest reading line)
    (label : Utf16) : BodyShown latest (.figure reading) (reading.getD 0) (gaugeBody label (reading.getD 0) line) :=
  ⟨h.agrees, rounded reading, rfl⟩

theorem mem_valuesAt {line : List DataPoint} {timestamp : ℚ} :
    valuesAt line timestamp ≠ [] ↔ ∃ dp ∈ line, dp.timestamp = timestamp := by
  constructor
  · intro h
    obtain ⟨value, hvalue⟩ := List.exists_mem_of_ne_nil _ h
    obtain ⟨dp, hdp, hread⟩ := List.mem_filterMap.mp hvalue
    refine ⟨dp, hdp, ?_⟩
    by_contra hne
    rw [if_neg hne] at hread
    cases hread
  · rintro ⟨dp, hdp, htime⟩
    exact List.ne_nil_of_mem (List.mem_filterMap.mpr ⟨dp, hdp, if_pos htime⟩)

theorem valuesAt_of_continues {value : ℚ} {line : List DataPoint} (h : Continues latest (some value) line) :
    valuesAt line latest.timestampMs = [value] := by
  obtain ⟨kept, hkept, rfl⟩ := h
  have hbefore : kept.filterMap (fun p => if p.timestamp = latest.timestampMs then some p.value else none) = [] := by
    rw [List.filterMap_eq_nil_iff]
    intro dp hdp
    exact if_neg (hkept dp hdp).ne
  rw [valuesAt, List.filterMap_append, hbefore]
  simp [point]

theorem getLast?_of_greatest {points : List DataPoint} (h : points.Pairwise fun p q => p.timestamp < q.timestamp)
    {last : DataPoint} (hmem : last ∈ points) (hgreatest : ∀ dp ∈ points, dp.timestamp ≤ last.timestamp) :
    points.getLast? = some last := by
  obtain ⟨before, after, rfl⟩ := List.append_of_mem hmem
  cases after with
  | nil => exact List.getLast?_concat
  | cons next after =>
    have hnext := (List.pairwise_cons.mp (List.pairwise_append.mp h).2.1).1 next List.mem_cons_self
    have hlisted : next ∈ before ++ last :: next :: after :=
      List.mem_append_right _ (List.mem_cons_of_mem _ List.mem_cons_self)
    exact absurd (hgreatest next hlisted) (not_le.mpr hnext)

theorem ratesShown {inRate outRate : ℚ} {inbound outbound : List DataPoint}
    (hin : Continues latest (some inRate) inbound) (hout : Continues latest (some outRate) outbound) :
    RatesShown latest inRate outRate (sumSeries inbound outbound) inbound outbound := by
  have heverywhere : ∀ timestamp, (∃ dp ∈ sumSeries inbound outbound, dp.timestamp = timestamp) ↔
      ∃ dp ∈ inbound ++ outbound, dp.timestamp = timestamp := by
    intro timestamp
    constructor
    · rintro ⟨dp, hdp, rfl⟩
      rcases not_and_or.mp ((mem_sumSeries inbound outbound).mp hdp).1 with ha | hb
      · obtain ⟨p, hp, htime⟩ := mem_valuesAt.mp ha
        exact ⟨p, List.mem_append_left _ hp, htime⟩
      · obtain ⟨p, hp, htime⟩ := mem_valuesAt.mp hb
        exact ⟨p, List.mem_append_right _ hp, htime⟩
    · rintro ⟨dp, hdp, rfl⟩
      refine ⟨⟨dp.timestamp, sumAt inbound outbound dp.timestamp⟩,
        (mem_sumSeries inbound outbound).mpr ⟨?_, rfl⟩, rfl⟩
      rintro ⟨ha, hb⟩
      rcases List.mem_append.mp hdp with hmem | hmem
      · exact mem_valuesAt.mpr ⟨dp, hmem, rfl⟩ ha
      · exact mem_valuesAt.mpr ⟨dp, hmem, rfl⟩ hb
  have hsum : sumAt inbound outbound latest.timestampMs = inRate + outRate := by
    rw [sumAt, valuesAt_of_continues hin, valuesAt_of_continues hout]
    simp
  have hlast : (⟨latest.timestampMs, inRate + outRate⟩ : DataPoint) ∈ sumSeries inbound outbound := by
    refine (mem_sumSeries inbound outbound).mpr ⟨?_, hsum.symm⟩
    rintro ⟨ha, -⟩
    rw [valuesAt_of_continues hin] at ha
    cases ha
  refine ⟨hin.agrees, hout.agrees, pairwise_sumSeries inbound outbound, heverywhere, ?_, ?_⟩
  · intro dp hdp
    exact ((mem_sumSeries inbound outbound).mp hdp).2
  · refine getLast?_of_greatest (pairwise_sumSeries inbound outbound) hlast fun dp hdp => ?_
    obtain ⟨p, hp, htime⟩ := (heverywhere dp.timestamp).mp ⟨dp, hdp, rfl⟩
    rw [← htime]
    rcases List.mem_append.mp hp with hmem | hmem
    · exact hin.agrees.past p hmem
    · exact hout.agrees.past p hmem

theorem ratesBody_shown {inRate outRate : ℚ} {inbound outbound : List DataPoint} (label : Option Utf16)
    (hin : Continues latest (some inRate) inbound) (hout : Continues latest (some outRate) outbound) (percent : ℚ) :
    BodyShown latest (.rates (some inRate) (some outRate)) percent (ratesBody label inRate outRate inbound outbound) :=
  ⟨rfl, rfl, ratesShown hin hout⟩

theorem segmentBody_shown {used total : ℚ} {line : List DataPoint} (hused : 0 ≤ used) (htotal : 0 ≤ total)
    (hne : total ≠ 0) (h : Continues latest (some (used / total * 100)) line) (label : Utf16) :
    BodyShown latest (.figure (some (used / total * 100))) (used / total * 100)
      (segmentBody label used total line) := by
  have hfraction : 0 ≤ used / total := div_nonneg hused htotal
  rw [segmentBody]
  split
  · refine ⟨h.agrees, rounded (some _), ?_⟩
    have hfull : used / total * 100 / 100 = used / total := mul_div_cancel_right₀ _ (by norm_num)
    rw [hfull, max_eq_left hfraction, ← min_div_div_right (by norm_num : (0 : ℚ) ≤ 100), hfull,
      div_self (by norm_num : (100 : ℚ) ≠ 0), min_comm]
  · rename_i hnot
    have hzero : used = 0 :=
      le_antisymm (not_lt.mp fun hpos => hnot ⟨hpos, lt_of_le_of_ne htotal hne.symm⟩) hused
    refine ⟨h.agrees, ?_, ?_⟩
    · rw [hzero, zero_div, zero_mul, ← mathRound_zero]
      exact rounded (some 0)
    · rw [hzero]
      norm_num

end Shown

section GpuShown

variable {latest : MetricsSnapshot} {gpu : ListedGpu} {multiGpu : Bool} {store : MetricsHistoryStore}
  {window : TimeWindow}

theorem gpuMemoryPercent_eq_some {gpu : GpuMetrics} {percent : ℚ} (h : gpuMemoryPercent gpu = some percent) :
    ∃ used total, gpu.memoryUsedBytes = some used ∧ gpu.memoryTotalBytes = some total ∧ total ≠ 0 ∧
      percent = used / total * 100 := by
  rw [gpuMemoryPercent] at h
  split at h
  · rename_i used total hused htotal
    split at h
    · cases h
    · rename_i hne
      exact ⟨used, total, hused, htotal, hne, (Option.some.inj h).symm⟩
  · cases h

theorem gpuMemoryPanel_shown
    (hline : Continues latest (gpuMemoryPercent gpu.toGpuMetrics) (gpuLine gpu multiGpu store window gpuMemory)) :
    BodyShown latest (.figure (gpuMemoryPercent gpu.toGpuMetrics)) ((gpuMemoryPercent gpu.toGpuMetrics).getD 0)
      (gpuMemoryPanel gpu multiGpu store window) := by
  rw [gpuMemoryPanel]
  cases hpercent : gpuMemoryPercent gpu.toGpuMetrics with
  | none => rfl
  | some percent =>
    obtain ⟨used, total, hused, htotal, hne, rfl⟩ := gpuMemoryPercent_eq_some hpercent
    rw [hpercent] at hline
    simp only [hused, htotal, Option.getD_some]
    exact segmentBody_shown (gpu.usedBytes_nonneg used hused) (gpu.totalBytes_nonneg total htotal) hne hline _

theorem gpuFanPanel_shown
    (hline : Continues latest gpu.fanSpeedPercent (gpuLine gpu multiGpu store window gpuFan)) :
    BodyShown latest (.figure gpu.fanSpeedPercent) (gpu.fanSpeedPercent.getD 0)
      (gpuFanPanel gpu multiGpu store window) := by
  rw [gpuFanPanel]
  cases hfan : gpu.fanSpeedPercent with
  | none => rfl
  | some percent =>
    rw [hfan] at hline
    exact gaugeBody_shown hline _

theorem gpuPciePanel_shown
    (hrx : Continues latest gpu.pcieRxBytesPerSec (gpuLine gpu multiGpu store window gpuPcieRx))
    (htx : Continues latest gpu.pcieTxBytesPerSec (gpuLine gpu multiGpu store window gpuPcieTx)) :
    BodyShown latest (.rates gpu.pcieRxBytesPerSec gpu.pcieTxBytesPerSec) 0
      (gpuPciePanel gpu multiGpu store window) := by
  rw [gpuPciePanel]
  cases hrate : gpu.pcieRxBytesPerSec with
  | none => exact .inl rfl
  | some rx =>
    cases hother : gpu.pcieTxBytesPerSec with
    | none => exact .inr rfl
    | some tx =>
      rw [hrate] at hrx
      rw [hother] at htx
      exact ratesBody_shown _ hrx htx 0

end GpuShown

section Resolved

variable {binding : PanelBinding} {host : HardwareSnapshot} {chosen : SelectedTargets} {gpu : ListedGpu}
  {multiGpu : Bool}

theorem resolveGpuBinding_mem {α : Type*} {indexOf : α → JsNumber} {binding : PanelBinding} {gpus : List α}
    {pageGpuIndex : Option JsNumber} {target : α}
    (h : resolveGpuBinding indexOf binding gpus pageGpuIndex = .resolved target) : target ∈ gpus := by
  cases binding with
  | follow =>
    cases pageGpuIndex with
    | none => cases h
    | some index =>
      rw [resolveGpuBinding] at h
      split at h
      · cases h
      · exact (gpuAt_resolved h).1
  | gpu index => exact (gpuAt_resolved h).1
  | engine endpoint => cases h
  | unreadable => cases h

theorem useGpuPanel_resolved (h : useGpuPanel binding (some host) chosen = .resolved gpu multiGpu) :
    gpu ∈ host.gpus ∧ multiGpu = decide (1 < host.gpus.length) := by
  rw [useGpuPanel] at h
  split at h
  · rename_i target hresolved
    cases h
    exact ⟨resolveGpuBinding_mem hresolved, rfl⟩
  · cases h
  · cases h
  · cases h

/-- A host's only GPU is the primary one, whose series carry no index. -/
theorem eq_gpu_of_single (hgpu : gpu ∈ host.gpus) (hsingle : host.gpus.length ≤ 1)
    (hprimary : ∀ only, host.metrics.gpus = some [only] → only = host.metrics.gpu) :
    gpu.toGpuMetrics = host.metrics.gpu := by
  obtain ⟨only, honly⟩ := List.length_eq_one_iff.mp (le_antisymm hsingle (List.length_pos_of_mem hgpu))
  obtain rfl : gpu = only := by rw [honly] at hgpu; exact List.mem_singleton.mp hgpu
  have hlisted : snapshotGpus host.metrics = [gpu.toGpuMetrics] := by rw [host.gpus_eq, honly, List.map_singleton]
  rw [snapshotGpus] at hlisted
  split at hlisted
  · rename_i first rest hgpus
    rw [hlisted] at hgpus
    exact hprimary _ hgpus
  · exact (List.cons.inj hlisted).1.symm

theorem extractValue_gpu (metrics : MetricsSnapshot) (metric : GpuSeriesMetric) :
    extractValue metrics metric.1 = extractGpuValue metrics.gpu metric.1 := by
  obtain ⟨key, hkey⟩ := metric
  cases key <;> first | rfl | exact absurd hkey (by decide)

variable {earlier : List MetricsSnapshot} {store : MetricsHistoryStore}
  (hingested : store.Ingested (earlier ++ [host.metrics]))
  (hascending : MetricsHistoryStore.Ascending (earlier ++ [host.metrics]))
  (hdistinct : ((snapshotGpus host.metrics).map gpuIndexOf).Nodup)
  (hprimary : ∀ only, host.metrics.gpus = some [only] → only = host.metrics.gpu)
  (hgpu : gpu ∈ host.gpus) (window : TimeWindow)

include hingested hascending hdistinct hprimary hgpu

theorem continues_gpuLine (metric : GpuSeriesMetric) :
    Continues host.metrics (extractGpuValue gpu.toGpuMetrics metric.1)
      (gpuLine gpu (decide (1 < host.gpus.length)) store window metric) := by
  rw [gpuLine]
  rcases lt_or_ge 1 host.gpus.length with hmulti | hsingle
  · rw [decide_eq_true hmulti]
    have hlisted : gpu.toGpuMetrics ∈ snapshotGpus host.metrics := by
      rw [host.gpus_eq]
      exact List.mem_map_of_mem hgpu
    exact continues_gpu hingested hascending window hlisted hdistinct metric
  · rw [decide_eq_false (not_lt.mpr hsingle), eq_gpu_of_single hgpu hsingle hprimary, ← extractValue_gpu]
    exact continues_system hingested hascending window metric.1

theorem gpuPanels_shown : ∀ entry ∈ gpuPanels,
    BodyShown host.metrics (gpuReading gpu.toGpuMetrics entry.1)
      (gpuPercent gpu (decide (1 < host.gpus.length)) store window entry.1)
      (entry.2 gpu (decide (1 < host.gpus.length)) store window) := by
  have hline := continues_gpuLine hingested hascending hdistinct hprimary hgpu window
  have hgauge : ∀ metric label,
      BodyShown host.metrics (.figure (extractGpuValue gpu.toGpuMetrics metric.1))
        ((extractGpuValue gpu.toGpuMetrics metric.1).getD 0)
        (gaugeBody label ((extractGpuValue gpu.toGpuMetrics metric.1).getD 0)
          (gpuLine gpu (decide (1 < host.gpus.length)) store window metric)) :=
    fun metric label => gaugeBody_shown (hline metric) label
  have hwatts : Rounded gpu.powerWatts ((gpu.powerWatts.map mathRound).getD 0) := by
    have hrounded := rounded gpu.powerWatts
    cases hpower : gpu.powerWatts with
    | none =>
      rw [hpower, Option.getD_none, mathRound_zero] at hrounded
      exact hrounded
    | some watts =>
      rw [hpower] at hrounded
      exact hrounded
  simp only [gpuPanels, List.forall_mem_cons, List.not_mem_nil, false_imp_iff, implies_true, and_true]
  refine ⟨hgauge gpuUtil _, hgauge gpuTemp _, ?_, ?_, ?_, ?_, ?_⟩
  · exact ⟨(hline gpuPower).agrees, hwatts, rfl⟩
  · exact ⟨rfl, (hline gpuClockGraphics).agrees⟩
  · exact gpuMemoryPanel_shown (hline gpuMemory)
  · exact gpuFanPanel_shown (hline gpuFan)
  · exact gpuPciePanel_shown (hline gpuPcieRx) (hline gpuPcieTx)

theorem gpuPower_shown : PowerShown gpu.powerWatts gpu.powerLimitWatts
    (gpuLine gpu (decide (1 < host.gpus.length)) store window gpuPower)
    (gpuPowerScale gpu (decide (1 < host.gpus.length)) store window) := by
  refine powerShown fun watts hwatts => ?_
  have hline := continues_gpuLine hingested hascending hdistinct hprimary hgpu window gpuPower
  have hlast := (hline.agrees.last watts).mp hwatts
  exact ⟨_, List.mem_of_getLast? hlast, rfl⟩

end Resolved

def busyGpu : ListedGpu := { index := some 0, utilizationPercent := some 10 }

/-- The latest of `busyEvents`, whose GPUs report no limit. -/
def busyHardware : HardwareSnapshot where
  metrics := busySnapshot 400000 7
  gpus := [busyGpu, { index := some 1, utilizationPercent := some 20 }]
  gpus_eq := rfl

end SparkDashboard.Dashboard
