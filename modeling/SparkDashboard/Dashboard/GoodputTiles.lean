import SparkDashboard.Browser.Goodput
import SparkDashboard.Dashboard.EngineTiles
import SparkDashboard.Dashboard.SloSettings
import SparkDashboard.Engines.Percentiles
import SparkDashboard.Engines.Sglang
import SparkDashboard.Engines.Vllm

/-!
# Goodput tiles

The share of requests within each latency objective, read off the buckets of a latency at the panel's own
thresholds, and the backend's figure where there are none.
-/

namespace SparkDashboard.Dashboard

open Browser Utf16
open Engines (Bucket CumulativeBuckets MetricGroup ParsedMetrics SglangAdapter VllmAdapter finiteBounds goodputPct
  keepReported totalCount wireBuckets)

def SloThresholds.ms (thresholds : SloThresholds) : LatencyDimension → ℚ
  | .ttft => thresholds.ttftMs.1.value
  | .itl => thresholds.itlMs.1.value
  | .e2e => thresholds.e2eMs.1.value
  | .tpot => thresholds.tpotMs.1.value

/-- The backend's own figure, at the default threshold. -/
def goodputField : LatencyDimension → NumericEngineMetric
  | .ttft => .ttftGoodputPct
  | .itl => .itlGoodputPct
  | .e2e => .e2eGoodputPct
  | .tpot => .tpotGoodputPct

/-- The worst of those there are. -/
def combinedGoodput (ttftPct itlPct e2ePct : Option ℚ) : Option ℚ := ([ttftPct, itlPct, e2ePct].filterMap id).min?

inductive GoodputTile where
  | notReported
  | pct (value : Option ℚ)

structure GoodputPanel where
  combined : GoodputTile
  tile : LatencyDimension → GoodputTile

section Panel

variable (readings : EngineReadings) (thresholds : SloThresholds)

def goodput (d : LatencyDimension) : Option ℚ :=
  if readings.reports d.percentilesGroup then
    (recomputeGoodputPct (readings.metric.buckets d) (thresholds.ms d)).or (readings.metric.number (goodputField d))
  else none

/-- The time per output token has a tile and no part in the combined figure. -/
def goodputPanel : GoodputPanel where
  combined :=
    if ¬ readings.reports .ttftPercentiles ∧ ¬ readings.reports .itlPercentiles ∧
        ¬ readings.reports .e2ePercentiles then .notReported
    else
      .pct (combinedGoodput (goodput readings thresholds .ttft) (goodput readings thresholds .itl)
        (goodput readings thresholds .e2e))
  tile := fun d =>
    if readings.reports d.percentilesGroup then .pct (goodput readings thresholds d) else .notReported

end Panel

/-- The latencies the combined figure is about. -/
def combinedDimensions : List LatencyDimension := [.ttft, .itl, .e2e]

/-- What a goodput panel shows of its latencies: a figure for each one reported, and the worst of three. -/
structure GoodputShown (readings : EngineReadings) (panel : GoodputPanel) : Prop where
  reported : ∀ d, panel.tile d = .notReported ↔ readings.reports d.percentilesGroup = false
  combined : panel.combined = .notReported ↔ ∀ d ∈ combinedDimensions, panel.tile d = .notReported
  blank : panel.combined = .pct none ↔
    (∃ d ∈ combinedDimensions, panel.tile d ≠ .notReported) ∧
      ∀ d ∈ combinedDimensions, ∀ pct, panel.tile d ≠ .pct (some pct)
  worst : ∀ pct, panel.combined = .pct (some pct) →
    (∃ d ∈ combinedDimensions, panel.tile d = .pct (some pct)) ∧
      ∀ d ∈ combinedDimensions, ∀ other, panel.tile d = .pct (some other) → pct ≤ other

section Shown

variable {readings : EngineReadings} {thresholds : SloThresholds}

theorem tile_eq_pct_iff {d : LatencyDimension} {pct : ℚ} :
    (goodputPanel readings thresholds).tile d = .pct (some pct) ↔ goodput readings thresholds d = some pct := by
  rw [goodputPanel]
  dsimp only
  split
  · exact GoodputTile.pct.injEq _ _ ▸ Iff.rfl
  · rename_i hnot
    rw [goodput, if_neg hnot]
    exact iff_of_false nofun nofun

theorem tile_eq_notReported_iff {d : LatencyDimension} :
    (goodputPanel readings thresholds).tile d = .notReported ↔ readings.reports d.percentilesGroup = false := by
  rw [goodputPanel]
  dsimp only
  split
  · rename_i hreports
    exact iff_of_false nofun fun hnot => Bool.noConfusion (hreports.symm.trans hnot)
  · rename_i hnot
    exact iff_of_true rfl ((Bool.not_eq_true _).mp hnot)

theorem combinedGoodput_eq (readings : EngineReadings) (thresholds : SloThresholds) :
    combinedGoodput (goodput readings thresholds .ttft) (goodput readings thresholds .itl)
      (goodput readings thresholds .e2e) = (combinedDimensions.filterMap (goodput readings thresholds)).min? := by
  rw [combinedGoodput, combinedDimensions]
  congr 1

theorem combined_cases (readings : EngineReadings) (thresholds : SloThresholds) :
    ((∀ d ∈ combinedDimensions, readings.reports d.percentilesGroup = false) ∧
      (goodputPanel readings thresholds).combined = .notReported) ∨
    ((∃ d ∈ combinedDimensions, readings.reports d.percentilesGroup = true) ∧
      (goodputPanel readings thresholds).combined =
        .pct (combinedDimensions.filterMap (goodput readings thresholds)).min?) := by
  have hsilent : (¬ readings.reports .ttftPercentiles = true ∧ ¬ readings.reports .itlPercentiles = true ∧
      ¬ readings.reports .e2ePercentiles = true) ↔
      ∀ d ∈ combinedDimensions, readings.reports d.percentilesGroup = false := by
    simp only [combinedDimensions, List.forall_mem_cons, List.not_mem_nil, false_imp_iff, implies_true, and_true,
      Bool.not_eq_true]
    rfl
  rw [goodputPanel, ← combinedGoodput_eq]
  dsimp only
  split
  · rename_i hnone
    exact .inl ⟨hsilent.mp hnone, rfl⟩
  · rename_i hsome
    refine .inr ⟨?_, rfl⟩
    by_contra hnone
    refine hsome (hsilent.mpr fun d hd => (Bool.not_eq_true _).mp fun hreports => hnone ⟨d, hd, hreports⟩)

theorem goodputShown (readings : EngineReadings) (thresholds : SloThresholds) :
    GoodputShown readings (goodputPanel readings thresholds) := by
  rcases combined_cases readings thresholds with ⟨hsilent, hcombined⟩ | ⟨⟨d, hd, hreports⟩, hcombined⟩
  · refine ⟨fun d => tile_eq_notReported_iff, ?_, ?_, ?_⟩
    · exact iff_of_true hcombined fun d hd => tile_eq_notReported_iff.mpr (hsilent d hd)
    · rw [hcombined]
      refine iff_of_false nofun ?_
      rintro ⟨⟨d, hd, hshown⟩, -⟩
      exact hshown (tile_eq_notReported_iff.mpr (hsilent d hd))
    · rw [hcombined]
      exact nofun
  · have hshown : ¬ ∀ d ∈ combinedDimensions, (goodputPanel readings thresholds).tile d = .notReported :=
      fun hnone => Bool.noConfusion (hreports.symm.trans (tile_eq_notReported_iff.mp (hnone d hd)))
    refine ⟨fun d => tile_eq_notReported_iff, ?_, ?_, ?_⟩
    · rw [hcombined]
      exact iff_of_false nofun hshown
    · rw [hcombined, GoodputTile.pct.injEq, List.min?_eq_none_iff, List.filterMap_eq_nil_iff]
      constructor
      · intro hnone
        refine ⟨?_, fun d hd pct hpct => ?_⟩
        · by_contra hall
          exact hshown fun d hd => not_not.mp fun hne => hall ⟨d, hd, hne⟩
        · cases (hnone d hd).symm.trans (tile_eq_pct_iff.mp hpct)
      · rintro ⟨-, hnone⟩ d hd
        rw [Option.eq_none_iff_forall_ne_some]
        exact fun pct hpct => hnone d hd pct (tile_eq_pct_iff.mpr hpct)
    · intro pct hpct
      rw [hcombined, GoodputTile.pct.injEq, List.min?_eq_some_iff] at hpct
      obtain ⟨hmem, hleast⟩ := hpct
      obtain ⟨d, hd, hfigure⟩ := List.mem_filterMap.mp hmem
      refine ⟨⟨d, hd, tile_eq_pct_iff.mpr hfigure⟩, fun other hother value hvalue => ?_⟩
      exact hleast value (List.mem_filterMap.mpr ⟨other, hother, tile_eq_pct_iff.mp hvalue⟩)

end Shown

section Server

/-- The histogram each latency of a vLLM server is measured on. -/
def vllmHistogram (parsed : ParsedMetrics) : LatencyDimension → Option String
  | .ttft => some "vllm_time_to_first_token_seconds"
  | .itl => some "vllm_inter_token_latency_seconds"
  | .e2e => some "vllm_e2e_request_latency_seconds"
  | .tpot => VllmAdapter.tpotHist parsed

/-- The histogram each latency of an SGLang server is measured on. -/
def sglangHistogram : LatencyDimension → Option String
  | .ttft => some "sglang_time_to_first_token_seconds"
  | .itl => some "sglang_inter_token_latency_seconds"
  | .e2e => some "sglang_e2e_request_latency_seconds"
  | .tpot => none

/-- Metrics an adapter makes of a scrape, with the histograms it measures on: none while it warms up. -/
inductive Scraped (parsed : ParsedMetrics) : Engines.EngineMetrics → (LatencyDimension → Option String) → Prop where
  | vllm (raw : ParsedMetrics) (rates : Engines.RateInputs) (specLive : Option ℚ) :
      Scraped parsed (VllmAdapter.engineMetrics parsed raw rates specLive false) (vllmHistogram parsed)
  | sglang (raw : ParsedMetrics) (rates : Engines.RateInputs) (drafter : Option Bool) :
      Scraped parsed (SglangAdapter.engineMetrics parsed raw rates false drafter) sglangHistogram
  | vllmWarmingUp (raw : ParsedMetrics) (rates : Engines.RateInputs) (specLive : Option ℚ) :
      Scraped parsed (VllmAdapter.engineMetrics parsed raw rates specLive true) (fun _ => none)
  | sglangWarmingUp (raw : ParsedMetrics) (rates : Engines.RateInputs) (drafter : Option Bool) :
      Scraped parsed (SglangAdapter.engineMetrics parsed raw rates true drafter) (fun _ => none)

/-- What is read is what was answered, of the reported groups. -/
structure ReadsAnswer (readings : EngineReadings) (answered : Engines.EngineMetrics) (groups : Finset MetricGroup) :
    Prop where
  number : ∀ key : NumericEngineMetric, readings.metric.number key =
    if key.group ∈ groups then numberOnWire answered key else none
  buckets : ∀ d : LatencyDimension, readings.metric.buckets d =
    if d.percentilesGroup ∈ groups then bucketsOnWire answered d else none
  reports : ∀ g, readings.reports g = true ↔ g ∈ groups

/-- A tile is the server's goodput at the panel's threshold: its own figure at the default one, a share of
a hundred that never falls as the threshold is raised. -/
structure ServerGoodput (readings : EngineReadings) (answered : Engines.EngineMetrics) (parsed : ParsedMetrics)
    (metric : String) (raw : List Bucket) (d : LatencyDimension) : Prop where
  measured : ∀ thresholds,
    (goodputPanel readings thresholds).tile d = .pct (goodputPct parsed metric (thresholds.ms d))
  own : (goodputPanel readings defaultSlo).tile d = .pct (numberOnWire answered (goodputField d))
  shares : CumulativeBuckets raw → finiteBounds raw ≠ [] → 0 < totalCount raw → ∀ thresholds,
    ∃ pct, (goodputPanel readings thresholds).tile d = .pct (some pct) ∧ 0 ≤ pct ∧ pct ≤ 100 ∧
      ∀ looser : SloThresholds, thresholds.ms d ≤ looser.ms d →
        ∃ more, (goodputPanel readings looser).tile d = .pct (some more) ∧ pct ≤ more

/-- The buckets and the figure of a latency are of one histogram; the thresholds the backend measures at are
the panel's default ones. -/
theorem oneHistogram {parsed : ParsedMetrics} {answered : Engines.EngineMetrics}
    {histogram : LatencyDimension → Option String} (h : Scraped parsed answered histogram) (d : LatencyDimension) :
    bucketsOnWire answered d = (histogram d).bind (wireBuckets parsed) ∧
      numberOnWire answered (goodputField d) = (histogram d).bind (goodputPct parsed · (defaultSlo.ms d)) := by
  cases h <;> cases d <;> exact ⟨rfl, rfl⟩

/-- Whether there is any share does not depend on the threshold. -/
theorem fractionLe_eq_none {buckets : List Bucket} {threshold : ℚ} (h : Engines.fractionLe buckets threshold = none)
    (other : ℚ) : Engines.fractionLe buckets other = none := by
  cases buckets with
  | nil => rfl
  | cons first rest =>
    have hlast := List.getLast?_eq_some_getLast (List.cons_ne_nil first rest)
    obtain ⟨bound, cum⟩ := first
    cases bound with
    | top =>
      rw [serverFractionLe_of_overflow rfl hlast] at h ⊢
      split at h
      · rename_i hempty
        rw [if_pos hempty]
      · cases h
    | coe le =>
      rw [serverFractionLe_of_finite rfl hlast] at h ⊢
      split at h
      · rename_i hempty
        rw [if_pos hempty]
      · split at h
        · split at h <;> cases h
        · cases h

/-- What a panel reads of a published engine. -/
theorem readsAnswer_reportedOnly (answered : Engines.EngineMetrics) (groups : Finset MetricGroup) (key : Utf16) :
    ReadsAnswer ⟨.of (some (metricsOnWire (answered.reportedOnly groups))), key, fun g => decide (g ∈ groups)⟩ answered
      groups where
  number := number_reportedOnly answered groups
  buckets := buckets_reportedOnly answered groups
  reports _ := decide_eq_true_iff

section Reported

variable {readings : EngineReadings} {answered : Engines.EngineMetrics} {groups : Finset MetricGroup}
  {d : LatencyDimension} (hreads : ReadsAnswer readings answered groups) (hreported : d.percentilesGroup ∈ groups)

include hreads hreported

theorem tile_of_reported (thresholds : SloThresholds) :
    (goodputPanel readings thresholds).tile d =
      .pct ((recomputeGoodputPct (bucketsOnWire answered d) (thresholds.ms d)).or
        (numberOnWire answered (goodputField d))) := by
  have hgroup : (goodputField d).group = d.percentilesGroup := by cases d <;> rfl
  have hreports := (hreads.reports d.percentilesGroup).mpr hreported
  rw [goodputPanel]
  dsimp only
  rw [if_pos hreports, goodput, if_pos hreports, hreads.buckets, if_pos hreported, hreads.number, hgroup,
    if_pos hreported]

end Reported

section Histogram

variable {parsed : ParsedMetrics} {metric : String} {raw : List Bucket}
  (hlookup : parsed.histograms.lookup metric = some raw)

include hlookup

theorem goodputPct_eq (sloMs : ℚ) :
    goodputPct parsed metric sloMs = (Engines.fractionLe raw (sloMs / 1000)).map (· * 100) := by
  rw [goodputPct, hlookup]

theorem goodputPct_eq_none {sloMs : ℚ} (h : goodputPct parsed metric sloMs = none) (other : ℚ) :
    goodputPct parsed metric other = none := by
  rw [goodputPct_eq hlookup, Option.map_eq_none_iff] at h ⊢
  exact fractionLe_eq_none h _

/-- A share of a hundred that does not fall as the threshold is raised. -/
theorem goodputPct_shares (hcumulative : CumulativeBuckets raw) (hfinite : finiteBounds raw ≠ [])
    (htotal : 0 < totalCount raw) (sloMs : ℚ) :
    ∃ pct, goodputPct parsed metric sloMs = some pct ∧ 0 ≤ pct ∧ pct ≤ 100 ∧
      ∀ looser, sloMs ≤ looser → ∃ more, goodputPct parsed metric looser = some more ∧ pct ≤ more := by
  obtain ⟨f, hf, hnonneg, hle⟩ := Engines.fractionLe_unit hcumulative hfinite htotal (sloMs / 1000)
  refine ⟨f * 100, by rw [goodputPct_eq hlookup, hf]; rfl, by positivity, by linarith, fun looser hlooser => ?_⟩
  obtain ⟨f', hf', -, -⟩ := Engines.fractionLe_unit hcumulative hfinite htotal (looser / 1000)
  have hmono := Engines.fractionLe_mono hcumulative hfinite htotal
    (div_le_div_of_nonneg_right hlooser (by norm_num : (0 : ℚ) ≤ 1000)) hf hf'
  exact ⟨f' * 100, by rw [goodputPct_eq hlookup, hf']; rfl, by linarith⟩

theorem serverGoodput {readings : EngineReadings} {answered : Engines.EngineMetrics} {groups : Finset MetricGroup}
    {d : LatencyDimension} (hreads : ReadsAnswer readings answered groups) (hreported : d.percentilesGroup ∈ groups)
    (hbounded : ∀ b ∈ raw, Bounded b)
    (hbuckets : bucketsOnWire answered d = wireBuckets parsed metric)
    (hfigure : numberOnWire answered (goodputField d) = goodputPct parsed metric (defaultSlo.ms d)) :
    ServerGoodput readings answered parsed metric raw d := by
  have hmeasured : ∀ thresholds,
      (goodputPanel readings thresholds).tile d = .pct (goodputPct parsed metric (thresholds.ms d)) := by
    intro thresholds
    rw [tile_of_reported hreads hreported, hbuckets, recomputeGoodputPct_wireBuckets hlookup hbounded, hfigure]
    cases hpct : goodputPct parsed metric (thresholds.ms d) with
    | none => rw [goodputPct_eq_none hlookup hpct, Option.or_none]
    | some pct => rfl
  refine ⟨hmeasured, by rw [hmeasured, hfigure], fun hcumulative hfinite htotal thresholds => ?_⟩
  obtain ⟨pct, hpct, hnonneg, hle, hmono⟩ := goodputPct_shares hlookup hcumulative hfinite htotal (thresholds.ms d)
  refine ⟨pct, by rw [hmeasured, hpct], hnonneg, hle, fun looser hlooser => ?_⟩
  obtain ⟨more, hmore, hless⟩ := hmono (looser.ms d) hlooser
  exact ⟨more, by rw [hmeasured, hmore], hless⟩

end Histogram

end Server

/-- A goodput panel shows a figure for each latency reported and the worst of the three it combines. Those
of a vLLM or SGLang server are the server's own goodput at the panel's thresholds, where the scrape has the
latency's histogram. -/
theorem goodput_tiles_follow (readings : EngineReadings) :
    (∀ thresholds, GoodputShown readings (goodputPanel readings thresholds)) ∧
    ∀ (parsed : ParsedMetrics) (answered : Engines.EngineMetrics) (histogram : LatencyDimension → Option String)
      (groups : Finset MetricGroup), Scraped parsed answered histogram →
      (∀ metric raw, parsed.histograms.lookup metric = some raw → ∀ b ∈ raw, Bounded b) →
      ReadsAnswer readings answered groups → ∀ d : LatencyDimension, d.percentilesGroup ∈ groups →
        (∀ metric raw, histogram d = some metric → parsed.histograms.lookup metric = some raw →
          ServerGoodput readings answered parsed metric raw d) ∧
        ((∀ metric, histogram d = some metric → parsed.histograms.lookup metric = none) →
          numberOnWire answered (goodputField d) = none ∧
            ∀ thresholds, (goodputPanel readings thresholds).tile d = .pct none) := by
  refine ⟨goodputShown readings, fun parsed answered histogram groups hscraped hbounded hreads d hreported => ?_⟩
  obtain ⟨hbuckets, hfigure⟩ := oneHistogram hscraped d
  constructor
  · intro metric raw hmetric hlookup
    rw [hmetric, Option.bind_some] at hbuckets hfigure
    exact serverGoodput hlookup hreads hreported (hbounded metric raw hlookup) hbuckets hfigure
  · intro hmissing
    have hnone : bucketsOnWire answered d = none ∧ numberOnWire answered (goodputField d) = none := by
      cases hmetric : histogram d with
      | none =>
        rw [hmetric] at hbuckets hfigure
        exact ⟨hbuckets, hfigure⟩
      | some metric =>
        rw [hmetric, Option.bind_some] at hbuckets hfigure
        rw [hbuckets, hfigure, wireBuckets, goodputPct, hmissing metric hmetric]
        exact ⟨rfl, rfl⟩
    refine ⟨hnone.2, fun thresholds => ?_⟩
    rw [tile_of_reported hreads hreported, hnone.1, hnone.2]
    rfl

def servedScrape : ParsedMetrics := ⟨∅, ∅, AList.singleton "vllm_time_to_first_token_seconds" latencyBuckets⟩

def servedMetrics : Engines.EngineMetrics :=
  VllmAdapter.engineMetrics servedScrape servedScrape ⟨none, none, none, none⟩ none false

def servedReadings : EngineReadings :=
  ⟨.of (some (metricsOnWire (servedMetrics.reportedOnly {MetricGroup.ttftPercentiles}))), [],
    fun g => decide (g ∈ ({MetricGroup.ttftPercentiles} : Finset MetricGroup))⟩

theorem goodput_tiles_follow_served :
    ∃ raw, servedScrape.histograms.lookup "vllm_time_to_first_token_seconds" = some raw ∧
      ServerGoodput servedReadings servedMetrics servedScrape "vllm_time_to_first_token_seconds" raw .ttft := by
  have hbounded : ∀ metric raw, servedScrape.histograms.lookup metric = some raw → ∀ b ∈ raw, Bounded b := by
    intro metric raw hlookup
    have hentry := List.mem_singleton.mp (AList.mem_lookup_iff.mp (Option.mem_def.mpr hlookup))
    cases hentry
    exact bounded_latencyBuckets
  refine ⟨latencyBuckets, rfl, ?_⟩
  exact ((goodput_tiles_follow servedReadings).2 servedScrape servedMetrics (vllmHistogram servedScrape)
    {MetricGroup.ttftPercentiles} (.vllm _ _ _) hbounded (readsAnswer_reportedOnly _ _ _) .ttft
    (Finset.mem_singleton_self _)).1 _ _ rfl rfl

end SparkDashboard.Dashboard
