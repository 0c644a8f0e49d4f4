import Mathlib.Tactic.Linarith
import SparkDashboard.Engines.Metrics
import SparkDashboard.Engines.Prometheus

/-!
# The warm-up baseline tracker

Warming until the trigger counter has moved by `skipRequests`, active with a frozen
baseline from then on, and warming again once a baselined counter falls below it.
One lemma says what a single observation can do; runs are argued from it.
-/

namespace SparkDashboard.Engines

structure HistogramBaseline where
  counters : KeyedMap String ℚ
  histograms : KeyedMap String (List Bucket)

inductive WarmupState where
  | warming (initialTotal : Option Nat)
  | active (baseline : HistogramBaseline)

structure WarmupTracker where
  skipRequests : Nat
  triggerKey : String
  state : WarmupState

structure WarmupOutput where
  warmingUp : Bool
  justTransitioned : Bool
  adjusted : ParsedMetrics

def counterRegression (parsed : ParsedMetrics) (baseline : HistogramBaseline) : Bool :=
  KeyedMap.any (fun key baselineVal =>
    match parsed.counters.lookup key with
    | some current => decide (current < baselineVal)
    | none => false) baseline.counters

/-- Bounds compared pairwise, `+Inf` equal to `+Inf`. -/
def sameSchema (a b : List Bucket) : Bool := decide (a.map Prod.fst = b.map Prod.fst)

def subtractBaseline (parsed : ParsedMetrics) (baseline : HistogramBaseline) : ParsedMetrics where
  gauges := parsed.gauges
  counters := KeyedMap.mapKV (fun key current =>
    match baseline.counters.lookup key with
    | some b => max (current - b) 0
    | none => current) parsed.counters
  histograms := KeyedMap.filterMapKV (fun key currentBuckets =>
    match baseline.histograms.lookup key with
    | some baselineBuckets =>
      if sameSchema currentBuckets baselineBuckets then
        some (List.zipWith (fun c b => (c.1, max (c.2 - b.2) 0)) currentBuckets baselineBuckets)
      -- Schema drift: the histogram is dropped for this poll.
      else none
    | none => some currentBuckets) parsed.histograms

def HistogramBaseline.ofScrape (parsed : ParsedMetrics) : HistogramBaseline :=
  ⟨parsed.counters, parsed.histograms⟩

namespace WarmupTracker

def new (skipRequests : Nat) (triggerKey : String) : WarmupTracker :=
  ⟨skipRequests, triggerKey, .warming none⟩

def currentTotal (t : WarmupTracker) (parsed : ParsedMetrics) : Nat :=
  ((parsed.counters.lookup t.triggerKey).map asU64).getD 0

def observe (t : WarmupTracker) (parsed : ParsedMetrics) : WarmupOutput × WarmupTracker :=
  let currentTotal := t.currentTotal parsed
  match t.state with
  | .warming initialTotal =>
    let initial := initialTotal.getD currentTotal
    -- The trigger fell while still warming: the cursor starts over.
    if currentTotal < initial then
      (⟨true, false, parsed⟩, { t with state := .warming (some currentTotal) })
    else if t.skipRequests ≤ currentTotal - initial then
      let baseline := HistogramBaseline.ofScrape parsed
      (⟨false, true, subtractBaseline parsed baseline⟩, { t with state := .active baseline })
    else
      (⟨true, false, parsed⟩, { t with state := .warming (some initial) })
  | .active baseline =>
    if counterRegression parsed baseline then
      (⟨true, false, parsed⟩, { t with state := .warming (some currentTotal) })
    else (⟨false, false, subtractBaseline parsed baseline⟩, t)

end WarmupTracker

theorem counterRegression_eq_true_iff {parsed : ParsedMetrics} {baseline : HistogramBaseline} :
    counterRegression parsed baseline = true ↔
      ∃ key b v, baseline.counters.lookup key = some b ∧ parsed.counters.lookup key = some v ∧ v < b := by
  rw [counterRegression, KeyedMap.any_eq_true_iff]
  constructor
  · rintro ⟨key, b, hb, h⟩
    cases hv : parsed.counters.lookup key with
    | none => rw [hv] at h; cases h
    | some v =>
      rw [hv] at h
      exact ⟨key, b, v, hb, hv, of_decide_eq_true h⟩
  · rintro ⟨key, b, v, hb, hv, hlt⟩
    refine ⟨key, b, hb, ?_⟩
    rw [hv]
    exact decide_eq_true hlt

theorem le_of_not_counterRegression {parsed : ParsedMetrics} {baseline : HistogramBaseline}
    (h : counterRegression parsed baseline = false) {key : String} {b v : ℚ}
    (hb : baseline.counters.lookup key = some b) (hv : parsed.counters.lookup key = some v) : b ≤ v := by
  by_contra hlt
  have := counterRegression_eq_true_iff.mpr ⟨key, b, v, hb, hv, not_le.mp hlt⟩
  rw [h] at this
  cases this

theorem not_counterRegression_ofScrape (parsed : ParsedMetrics) :
    counterRegression parsed (HistogramBaseline.ofScrape parsed) = false := by
  rw [Bool.eq_false_iff]
  intro h
  obtain ⟨key, b, v, hb, hv, hlt⟩ := counterRegression_eq_true_iff.mp h
  cases hb.symm.trans hv
  exact absurd hlt (lt_irrefl b)

theorem counter_subtractBaseline {parsed : ParsedMetrics} {baseline : HistogramBaseline}
    (h : counterRegression parsed baseline = false) (key : String) :
    (subtractBaseline parsed baseline).counter key =
      (parsed.counter key).map (· - (baseline.counters.lookup key).getD 0) := by
  rw [ParsedMetrics.counter, ParsedMetrics.counter, subtractBaseline, KeyedMap.lookup_mapKV]
  cases hv : parsed.counters.lookup key with
  | none => rfl
  | some v =>
    cases hb : baseline.counters.lookup key with
    | none => simp
    | some b =>
      have hle := le_of_not_counterRegression h hb hv
      simp only [Option.map_some, Option.getD_some]
      rw [max_eq_left (by linarith)]

def WarmupTracker.baseline (t : WarmupTracker) : Option HistogramBaseline :=
  match t.state with
  | .warming _ => none
  | .active baseline => some baseline

/-- Everything one observation can do: stay warming, capture a baseline, notice a
restart, or subtract the baseline it holds. -/
theorem WarmupTracker.observe_cases (t : WarmupTracker) (parsed : ParsedMetrics) :
    (t.baseline = none ∧ (t.observe parsed).1 = ⟨true, false, parsed⟩ ∧
      (t.observe parsed).2.baseline = none) ∨
    (t.baseline = none ∧
      (t.observe parsed).1 = ⟨false, true, subtractBaseline parsed (.ofScrape parsed)⟩ ∧
      (t.observe parsed).2.baseline = some (.ofScrape parsed)) ∨
    (∃ baseline, t.baseline = some baseline ∧ counterRegression parsed baseline = true ∧
      (t.observe parsed).1 = ⟨true, false, parsed⟩ ∧ (t.observe parsed).2.baseline = none) ∨
    (∃ baseline, t.baseline = some baseline ∧ counterRegression parsed baseline = false ∧
      (t.observe parsed).1 = ⟨false, false, subtractBaseline parsed baseline⟩ ∧
      (t.observe parsed).2 = t) := by
  obtain ⟨skip, trigger, state⟩ := t
  cases state with
  | warming initialTotal =>
    simp only [WarmupTracker.observe, WarmupTracker.baseline]
    split
    · exact .inl ⟨trivial, rfl, rfl⟩
    · split
      · exact .inr (.inl ⟨trivial, rfl, rfl⟩)
      · exact .inl ⟨trivial, rfl, rfl⟩
  | active baseline =>
    simp only [WarmupTracker.observe, WarmupTracker.baseline]
    split
    · rename_i hreg
      exact .inr (.inr (.inl ⟨baseline, rfl, hreg, rfl, rfl⟩))
    · rename_i hreg
      exact .inr (.inr (.inr ⟨baseline, rfl, by simpa using hreg, rfl, rfl⟩))

theorem WarmupTracker.baseline_observe {t : WarmupTracker} {parsed : ParsedMetrics}
    {baseline : HistogramBaseline} (h : (t.observe parsed).2.baseline = some baseline) :
    t.baseline = some baseline ∨ baseline = .ofScrape parsed := by
  obtain ⟨-, -, hafter⟩ | ⟨-, -, hafter⟩ | ⟨_, -, -, -, hafter⟩ | ⟨b, hb, -, -, hafter⟩ :=
    t.observe_cases parsed
  · rw [hafter] at h
    cases h
  · rw [hafter] at h
    exact .inr (Option.some.inj h).symm
  · rw [hafter] at h
    cases h
  · rw [hafter] at h
    exact .inl h

theorem WarmupTracker.exists_baseline_of_not_warmingUp {t : WarmupTracker} {parsed : ParsedMetrics}
    (h : (t.observe parsed).1.warmingUp = false) : ∃ baseline, (t.observe parsed).2.baseline = some baseline := by
  obtain ⟨-, hout, -⟩ | ⟨-, -, hafter⟩ | ⟨_, -, -, hout, -⟩ | ⟨b, hb, -, -, hafter⟩ := t.observe_cases parsed
  · rw [hout] at h
    cases h
  · exact ⟨_, hafter⟩
  · rw [hout] at h
    cases h
  · exact ⟨b, by rw [hafter, hb]⟩

/-- What the baseline in force once the scrape has been seen holds of a counter. -/
def WarmupTracker.baselineShare (t : WarmupTracker) (parsed : ParsedMetrics) (key : String) : ℚ :=
  match (t.observe parsed).2.baseline with
  | some baseline => (baseline.counters.lookup key).getD 0
  | none => 0

theorem WarmupTracker.counter_adjusted (t : WarmupTracker) (parsed : ParsedMetrics) (key : String) :
    (t.observe parsed).1.adjusted.counter key =
      (parsed.counter key).map (· - t.baselineShare parsed key) := by
  have hzero : parsed.counter key = (parsed.counter key).map (· - 0) := by simp
  obtain ⟨-, hout, hafter⟩ | ⟨-, hout, hafter⟩ | ⟨_, -, -, hout, hafter⟩ | ⟨b, hb, hreg, hout, hafter⟩ :=
    t.observe_cases parsed
  · rw [hout, baselineShare, hafter]
    exact hzero
  · rw [hout, baselineShare, hafter]
    exact counter_subtractBaseline (not_counterRegression_ofScrape parsed) key
  · rw [hout, baselineShare, hafter]
    exact hzero
  · rw [hout, baselineShare, hafter, hb]
    exact counter_subtractBaseline hreg key

theorem WarmupTracker.baselineShare_le {t : WarmupTracker} {parsed : ParsedMetrics} {key : String} {v : ℚ}
    (hv : parsed.counter key = some v) (hpos : 0 ≤ v) : t.baselineShare parsed key ≤ v := by
  have hlookup : ∀ baseline : HistogramBaseline, counterRegression parsed baseline = false →
      (baseline.counters.lookup key).getD 0 ≤ v := by
    intro baseline hreg
    cases hb : baseline.counters.lookup key with
    | none => exact hpos
    | some b => exact le_of_not_counterRegression hreg hb hv
  obtain ⟨-, -, hafter⟩ | ⟨-, -, hafter⟩ | ⟨_, -, -, -, hafter⟩ | ⟨b, hb, hreg, -, hafter⟩ :=
    t.observe_cases parsed
  · rw [baselineShare, hafter]
    exact hpos
  · rw [baselineShare, hafter]
    exact hlookup _ (not_counterRegression_ofScrape parsed)
  · rw [baselineShare, hafter]
    exact hpos
  · rw [baselineShare, hafter, hb]
    exact hlookup b hreg

end SparkDashboard.Engines
