import SparkDashboard.Library.Stepping
import SparkDashboard.Library.KeyedMap
import SparkDashboard.Library.Json.Value
import SparkDashboard.Library.Binary64
import SparkDashboard.Engines.Metrics
import SparkDashboard.Engines.Prometheus
import SparkDashboard.Engines.Histogram
import SparkDashboard.Engines.Common
import SparkDashboard.Engines.Warmup
import SparkDashboard.Engines.Vllm
import SparkDashboard.Engines.Sglang
import SparkDashboard.Engines.ModelInfo
import SparkDashboard.Engines.LlamaCpp
import SparkDashboard.Engines.TrackedAdapter
import SparkDashboard.Engines.LifetimeTotals
import SparkDashboard.Engines.ReportedRates
import SparkDashboard.Engines.RateRecovery
import SparkDashboard.Engines.MetricsSwitchedOff
import SparkDashboard.Engines.Detector
import SparkDashboard.Engines.DetectionMerge
import SparkDashboard.Engines.EngineState
import SparkDashboard.Engines.Collector
import SparkDashboard.Engines.OverrideGrace
import SparkDashboard.Engines.EndpointClash
import SparkDashboard.Library.Disk
import SparkDashboard.Server.ConfigStore
import SparkDashboard.Server.StoreAtomicity
import SparkDashboard.Library.Utf16
import SparkDashboard.Library.Json.Numeral
import SparkDashboard.Library.Json.Quote
import SparkDashboard.Library.Json.Text
import SparkDashboard.Library.JsNumber
import SparkDashboard.Library.FreshName
import SparkDashboard.Library.WholeDocument
import SparkDashboard.Dashboard.Grid
import SparkDashboard.Dashboard.Panels
import SparkDashboard.Dashboard.Bindings
import SparkDashboard.Dashboard.Schema
import SparkDashboard.Dashboard.Preset
import SparkDashboard.Dashboard.Load
import SparkDashboard.Dashboard.Pages
import SparkDashboard.Dashboard.Editing
import SparkDashboard.Dashboard.WellFormed
import SparkDashboard.Dashboard.Closure
import SparkDashboard.Dashboard.PageChanges
import SparkDashboard.Dashboard.Tab
import SparkDashboard.Dashboard.LostEdits
import SparkDashboard.Engines.Verification
import SparkDashboard.Engines.ModelRefresh
import SparkDashboard.Engines.RatesSinceBaseline
import SparkDashboard.Server.LogStreams
import SparkDashboard.Browser.LogConnections
import SparkDashboard.Server.LogViewers
import SparkDashboard.Browser.LogStreamRuns
import SparkDashboard.Browser.Goodput
import SparkDashboard.Browser.CircularBuffer
import SparkDashboard.Browser.MetricsSnapshot
import SparkDashboard.Browser.EngineAggregate
import SparkDashboard.Browser.MetricsHistoryStore
import SparkDashboard.Browser.MetricsHistory
import SparkDashboard.Browser.ChartData
import SparkDashboard.Browser.UseMetrics
import SparkDashboard.Browser.GpuEvents
import SparkDashboard.Browser.AggregateInclusion
import SparkDashboard.Library.PrefixCode
import SparkDashboard.Library.Utf8
import SparkDashboard.Server.LogLines
import SparkDashboard.Library.UriComponent
import SparkDashboard.Dashboard.Routes
import SparkDashboard.Dashboard.UniqueIds
import SparkDashboard.Dashboard.PageIds
import SparkDashboard.Browser.MetricsSocket
import SparkDashboard.Dashboard.Drops
import SparkDashboard.Engines.LaunchPorts
import SparkDashboard.Engines.WarmupRuns
import SparkDashboard.Library.MonotoneCurve
import SparkDashboard.Engines.Percentiles
import SparkDashboard.Engines.Exposition
import SparkDashboard.Dashboard.Selection
import SparkDashboard.Dashboard.Choices
import SparkDashboard.Dashboard.FreeSlots
import SparkDashboard.Library.Chars
import SparkDashboard.Library.IpAddr
import SparkDashboard.Engines.OllamaHost
import SparkDashboard.Engines.LlamaCppLaunch
import SparkDashboard.Engines.LlamaCppListen
import SparkDashboard.Engines.ProcessLaunch
import SparkDashboard.Library.Worklist
import SparkDashboard.Engines.ProcessScan
import SparkDashboard.Dashboard.EngineRotation
import SparkDashboard.Dashboard.TabFit
import SparkDashboard.Dashboard.Migrations
import SparkDashboard.Engines.ModelId
import SparkDashboard.Browser.AggregateRange
import SparkDashboard.Metrics.DeviceNames
import SparkDashboard.Library.RelativeError
import SparkDashboard.Metrics.DiskIo
import SparkDashboard.Library.Broadcast
import SparkDashboard.Server.MetricsFanOut
import SparkDashboard.Server.LogRelay
import SparkDashboard.Engines.ModelResolver
import SparkDashboard.Engines.DetectionSweep
import SparkDashboard.Engines.PublishedEngines
import SparkDashboard.Metrics.GpuSnapshot
import SparkDashboard.Dashboard.RotationClock
import SparkDashboard.Browser.SeriesReader
import SparkDashboard.Engines.ApiKeys
import SparkDashboard.Engines.OllamaModels
import SparkDashboard.Browser.Wire
import SparkDashboard.Dashboard.EnginePanel
import SparkDashboard.Dashboard.EngineTiles
import SparkDashboard.Dashboard.GoodputTiles
import SparkDashboard.Browser.GpuPower
import SparkDashboard.Browser.SumSeries
import SparkDashboard.Dashboard.HardwarePanels
import SparkDashboard.Dashboard.SloSettings
import SparkDashboard.Dashboard.ViewingPreferences
