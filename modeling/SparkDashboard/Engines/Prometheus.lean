import Mathlib.Data.Rat.Floor
import Mathlib.Order.WithBot
import SparkDashboard.Library.KeyedMap

/-!
# A parsed metrics scrape

Metrics separated by type, each name holding its label series combined. A bucket
bound is a rational or `⊤` for `+Inf`.
-/

namespace SparkDashboard.Engines

structure GaugeSeries where
  labels : KeyedMap String String
  value : ℚ

abbrev Bucket := WithTop ℚ × ℚ

/-- The three maps of a scrape, over the bounds its histograms have. -/
structure MetricTables (β : Type*) where
  /-- Every label series of each gauge, in exposition order. -/
  gauges : KeyedMap String (List GaugeSeries) := ∅
  /-- Counters, and histogram `_sum`/`_count` samples, summed across label series. -/
  counters : KeyedMap String ℚ := ∅
  /-- `(le, cumulative count)` pairs ascending by `le`. -/
  histograms : KeyedMap String (List (β × ℚ)) := ∅

abbrev ParsedMetrics := MetricTables (WithTop ℚ)

namespace ParsedMetrics

def ofCounters (counters : List (String × ℚ)) : ParsedMetrics where
  counters := (counters.map fun c => (⟨c.1, c.2⟩ : Sigma fun _ : String => ℚ)).toAList

def counter (m : ParsedMetrics) (name : String) : Option ℚ := m.counters.lookup name

def gaugeSum (m : ParsedMetrics) (name : String) : Option ℚ :=
  match m.gauges.lookup name with
  | none => none
  | some [] => none
  | some series => some (series.map GaugeSeries.value).sum

def gaugeMean (m : ParsedMetrics) (name : String) : Option ℚ :=
  match m.gauges.lookup name with
  | none => none
  | some [] => none
  | some series => some ((series.map GaugeSeries.value).sum / series.length)

end ParsedMetrics

end SparkDashboard.Engines
