import Mathlib.Data.List.Forall2
import SparkDashboard.Browser.AggregateInclusion
import SparkDashboard.Library.WeightedMean

/-!
# Where the all-engines figures lie

A request-weighted figure lies among the values of the engines it covers, and the quantiles of
a combined percentile struct keep their order.
-/

namespace SparkDashboard.Browser

open Engines (LatencyPercentiles MetricGroup)
open Library

section Means

/-- What a weight counts for: one that is missing or not positive counts for nothing. -/
def countedWeight : Option ℚ → ℚ
  | some weight => if 0 < weight then weight else 0
  | none => 0

def counted (item : ℚ × Option ℚ) : ℚ × ℚ := (item.1, countedWeight item.2)

theorem countedWeight_nonneg (weight : Option ℚ) : 0 ≤ countedWeight weight := by
  cases weight with
  | none => exact le_refl 0
  | some weight =>
    rw [countedWeight]
    split
    · rename_i hpos
      exact hpos.le
    · exact le_refl 0

theorem weigh_eq (sums : ℚ × ℚ) (item : ℚ × Option ℚ) :
    weigh sums item = (sums.1 + countedWeight item.2, sums.2 + item.1 * countedWeight item.2) := by
  obtain ⟨value, weight⟩ := item
  cases weight with
  | none => simp [weigh, countedWeight]
  | some weight =>
    rw [weigh, countedWeight]
    dsimp only
    split
    · rfl
    · rw [add_zero, mul_zero, add_zero]

theorem foldl_weigh (items : List (ℚ × Option ℚ)) (sums : ℚ × ℚ) :
    items.foldl weigh sums =
      (sums.1 + WeightedMean.total (items.map counted), sums.2 + WeightedMean.weighted (items.map counted)) := by
  induction items generalizing sums with
  | nil => simp [WeightedMean.total, WeightedMean.weighted]
  | cons item items ih =>
    rw [List.foldl_cons, ih, weigh_eq]
    simp only [WeightedMean.total, WeightedMean.weighted, List.map_cons, List.sum_cons, counted, add_assoc]

theorem weightedMeanOrNull_eq_mean (items : List Weighted) :
    weightedMeanOrNull items =
      if (items.filterMap Weighted.present).isEmpty then none
      else some (WeightedMean.mean ((items.filterMap Weighted.present).map counted)) := by
  have hfst : (items.filterMap Weighted.present).map Prod.fst =
      ((items.filterMap Weighted.present).map counted).map Prod.fst := by
    rw [List.map_map]
    rfl
  rw [weightedMeanOrNull_eq, foldl_weigh, WeightedMean.mean, zero_add, zero_add, List.length_map, hfst]
  split
  · rfl
  · split
    · rfl
    · rfl

/-- Null where no value is carried, else between the smallest and the largest of them. -/
structure LiesAmong (figure : Option ℚ) (carried : List ℚ) : Prop where
  null_iff : figure = none ↔ carried = []
  between : ∀ x, figure = some x →
    ∃ low high, carried.min? = some low ∧ carried.max? = some high ∧ low ≤ x ∧ x ≤ high

theorem map_fst_present (items : List Weighted) :
    (items.filterMap Weighted.present).map Prod.fst = items.filterMap Weighted.value := by
  rw [List.map_filterMap]
  congr 1
  funext item
  rw [Weighted.present, Option.map_map]
  exact Option.map_id'

theorem liesAmong_weightedMean (items : List Weighted) :
    LiesAmong (weightedMeanOrNull items) (items.filterMap Weighted.value) := by
  have hnonneg : ∀ item ∈ (items.filterMap Weighted.present).map counted, 0 ≤ item.2 := by
    intro item hitem
    obtain ⟨present, _, rfl⟩ := List.mem_map.mp hitem
    exact countedWeight_nonneg present.2
  have hvalue : ∀ item ∈ (items.filterMap Weighted.present).map counted, item.1 ∈ items.filterMap Weighted.value := by
    intro item hitem
    obtain ⟨present, hpresent, rfl⟩ := List.mem_map.mp hitem
    rw [← map_fst_present]
    exact List.mem_map_of_mem hpresent
  rw [weightedMeanOrNull_eq_mean]
  constructor
  · rw [← map_fst_present, List.map_eq_nil_iff]
    split
    · rename_i hempty
      exact iff_of_true rfl (List.isEmpty_iff.mp hempty)
    · rename_i hempty
      exact iff_of_false nofun fun hnil => hempty (List.isEmpty_iff.mpr hnil)
  · intro x hx
    split at hx
    · cases hx
    · rename_i hempty
      obtain rfl := Option.some.inj hx
      have hne : items.filterMap Weighted.present ≠ [] := fun hnil => hempty (List.isEmpty_iff.mpr hnil)
      have hcounted : (items.filterMap Weighted.present).map counted ≠ [] := fun hnil => hne (List.map_eq_nil_iff.mp hnil)
      have hcarried : items.filterMap Weighted.value ≠ [] := by
        rw [← map_fst_present]
        exact fun hnil => hne (List.map_eq_nil_iff.mp hnil)
      obtain ⟨low, hlow⟩ := Option.isSome_iff_exists.mp (List.isSome_min?_of_ne_nil hcarried)
      obtain ⟨high, hhigh⟩ := Option.isSome_iff_exists.mp (List.isSome_max?_of_ne_nil hcarried)
      refine ⟨low, high, hlow, hhigh, ?_, ?_⟩
      · exact WeightedMean.le_mean hcounted hnonneg fun item hitem =>
          (List.min?_eq_some_iff.mp hlow).2 item.1 (hvalue item hitem)
      · exact WeightedMean.mean_le hcounted hnonneg fun item hitem =>
          (List.max?_eq_some_iff.mp hhigh).2 item.1 (hvalue item hitem)

/-- Values that are all at least as large, carried by the same items under the same weights. -/
theorem weightedMean_rel {items items' : List Weighted}
    (h : List.Forall₂ (fun item item' => Option.Rel (· ≤ ·) item.value item'.value ∧ item.weight = item'.weight)
      items items') : Option.Rel (· ≤ ·) (weightedMeanOrNull items) (weightedMeanOrNull items') := by
  have hpresent : List.Forall₂ (fun p p' => p.1 ≤ p'.1 ∧ p.2 = p'.2)
      (items.filterMap Weighted.present) (items'.filterMap Weighted.present) := by
    refine List.rel_filterMap ?_ h
    rintro ⟨value, weight⟩ ⟨value', weight'⟩ ⟨hvalue, hweight⟩
    cases hvalue with
    | none => exact .none
    | some hle => exact .some ⟨hle, hweight⟩
  have hatMost : WeightedMean.AtMost ((items.filterMap Weighted.present).map counted)
      ((items'.filterMap Weighted.present).map counted) := by
    rw [WeightedMean.AtMost, List.forall₂_map_left_iff, List.forall₂_map_right_iff]
    exact hpresent.imp fun p p' hp => ⟨hp.1, congrArg countedWeight hp.2, countedWeight_nonneg p.2⟩
  have hempty : (items.filterMap Weighted.present).isEmpty = (items'.filterMap Weighted.present).isEmpty := by
    rw [Bool.eq_iff_iff, List.isEmpty_iff_length_eq_zero, List.isEmpty_iff_length_eq_zero, hpresent.length_eq]
  rw [weightedMeanOrNull_eq_mean, weightedMeanOrNull_eq_mean, hempty]
  split
  · exact .none
  · exact .some (WeightedMean.mean_le_of_atMost hatMost)

end Means

section Figures

/-- What the engines included in the group carry. -/
def carried (engines : List EngineSnapshot) (group : MetricGroup) (field : EngineMetrics → Option ℚ) : List ℚ :=
  engines.filterMap (reading group field)

/-- A struct that is absent, all-null, or has its three quantiles in order. -/
def OrderedOrNull (percentiles : Option LatencyPercentiles) : Prop :=
  ∀ p, percentiles = some p →
    (p.p50Ms = none ∧ p.p95Ms = none ∧ p.p99Ms = none) ∨
      ∃ p50 p95 p99, p.p50Ms = some p50 ∧ p.p95Ms = some p95 ∧ p.p99Ms = some p99 ∧ p50 ≤ p95 ∧ p95 ≤ p99

/-- The latencies, the queue time, the per-request rates and the goodputs. -/
def requestWeightedMetrics : List NumericEngineMetric :=
  [.ttftMs, .e2eLatencyMs, .queueTimeMs, .interTokenLatencyMs, .tpotMs, .perRequestTps, .perRequestPromptTps,
    .ttftGoodputPct, .itlGoodputPct, .e2eGoodputPct, .tpotGoodputPct]

theorem reading_of_not_running {α : Type} {group : MetricGroup} {field : EngineMetrics → Option α} {e : EngineSnapshot}
    (h : e.status ≠ .running) : reading group field e = none := by
  apply masked_reading
  rw [includedIn, contributesGroup, decide_eq_false h, Bool.false_and, Bool.false_and, Bool.false_and]

theorem carried_runningEngines (engines : List EngineSnapshot) (group : MetricGroup)
    (field : EngineMetrics → Option ℚ) : carried (runningEngines engines) group field = carried engines group field := by
  rw [carried, carried, runningEngines, List.filterMap_filter]
  congr 1
  funext e
  by_cases h : e.status = .running
  · rw [decide_eq_true h, if_pos rfl]
  · rw [decide_eq_false h, if_neg Bool.false_ne_true, reading_of_not_running h]

theorem liesAmong_map {α : Type} (value weight : α → Option ℚ) (l : List α) :
    LiesAmong (weightedMeanOrNull (List.zipWith Weighted.mk (l.map value) (l.map weight))) (l.filterMap value) := by
  rw [List.zipWith_map, List.zipWith_self]
  have hlies := liesAmong_weightedMean (l.map fun x => ⟨value x, weight x⟩)
  rw [List.filterMap_map] at hlies
  exact hlies

theorem liesAmong_weightedBy (running : List EngineSnapshot) (key : NumericEngineMetric) :
    LiesAmong (weightedBy running key) (carried running key.group (·.number key)) :=
  liesAmong_map (reading key.group (·.number key)) (reading .requestTotal (·.number .totalRequests)) running

/-- One quantile of the combined struct, as `aggregatePercentiles` works it out. -/
def quantile (running : List EngineSnapshot) (d : LatencyDimension) (q : LatencyPercentiles → Option ℚ) : Option ℚ :=
  weightedMeanOrNull (List.zipWith Weighted.mk ((get running d.percentilesGroup (·.percentiles d)).map (·.bind q))
    (weights running))

theorem reading_bind {α β : Type} (group : MetricGroup) (field : EngineMetrics → Option α) (f : α → Option β)
    (e : EngineSnapshot) : (reading group field e).bind f = reading group (fun m => (field m).bind f) e := by
  rw [reading, reading]
  split
  · rw [Option.bind_assoc]
  · rfl

theorem liesAmong_quantile (running : List EngineSnapshot) (d : LatencyDimension) (q : LatencyPercentiles → Option ℚ) :
    LiesAmong (quantile running d q) (carried running d.percentilesGroup fun m => (m.percentiles d).bind q) := by
  have hvalue : (get running d.percentilesGroup (·.percentiles d)).map (·.bind q) =
      running.map (reading d.percentilesGroup fun m => (m.percentiles d).bind q) := by
    rw [get, List.map_map]
    exact List.map_congr_left fun e _ => reading_bind d.percentilesGroup (·.percentiles d) q e
  rw [quantile, hvalue]
  exact liesAmong_map _ (reading .requestTotal (·.number .totalRequests)) running

/-- The combined struct holds the quantiles, and where it is absent there are none. -/
theorem aggregatePercentiles_bind (running : List EngineSnapshot) (d : LatencyDimension)
    {q : LatencyPercentiles → Option ℚ} (hq : q ∈ [(·.p50Ms), (·.p95Ms), (·.p99Ms)]) :
    (aggregatePercentiles (get running d.percentilesGroup (·.percentiles d)) (weights running)).bind q =
      quantile running d q := by
  rw [aggregatePercentiles]
  split
  · simp only [List.mem_cons, List.not_mem_nil, or_false] at hq
    rcases hq with rfl | rfl | rfl
    · rfl
    · rfl
    · rfl
  · rename_i habsent
    have hnone : carried running d.percentilesGroup (fun m => (m.percentiles d).bind q) = [] := by
      rw [carried, List.filterMap_eq_nil_iff]
      intro e he
      rw [← reading_bind]
      cases hreading : reading d.percentilesGroup (·.percentiles d) e with
      | none => rfl
      | some p =>
        refine absurd (List.any_eq_true.mpr ⟨some p, ?_, rfl⟩) habsent
        rw [← hreading]
        exact List.mem_map_of_mem (f := reading d.percentilesGroup (·.percentiles d)) he
    exact ((liesAmong_quantile running d q).null_iff.mpr hnone).symm

theorem quantile_eq (running : List EngineSnapshot) (d : LatencyDimension) (q : LatencyPercentiles → Option ℚ) :
    quantile running d q = weightedMeanOrNull (running.map fun e =>
      ⟨(reading d.percentilesGroup (·.percentiles d) e).bind q, reading .requestTotal (·.number .totalRequests) e⟩) := by
  rw [quantile, get, weights, getNumber, get, List.map_map, List.zipWith_map, List.zipWith_self]
  rfl

/-- Where no engine's second quantile is below its first, neither is the combined one. -/
theorem quantile_rel {running : List EngineSnapshot} {d : LatencyDimension} {q q' : LatencyPercentiles → Option ℚ}
    (h : ∀ e ∈ running, ∀ m, e.metrics = some m → OrderedOrNull (m.percentiles d))
    (hq : ∀ p, OrderedOrNull (some p) → Option.Rel (· ≤ ·) (q p) (q' p)) :
    Option.Rel (· ≤ ·) (quantile running d q) (quantile running d q') := by
  rw [quantile_eq, quantile_eq]
  apply weightedMean_rel
  rw [List.forall₂_map_left_iff, List.forall₂_map_right_iff, List.forall₂_same]
  intro e he
  refine ⟨?_, rfl⟩
  cases hreading : reading d.percentilesGroup (·.percentiles d) e with
  | none => exact .none
  | some p =>
    apply hq
    rw [reading] at hreading
    split at hreading
    · obtain ⟨m, hm, hp⟩ := Option.bind_eq_some_iff.mp hreading
      rw [← hp]
      exact h e he m hm
    · cases hreading

theorem rel_p50_p95 {p : LatencyPercentiles} (h : OrderedOrNull (some p)) : Option.Rel (· ≤ ·) p.p50Ms p.p95Ms := by
  rcases h p rfl with ⟨h50, h95, _⟩ | ⟨p50, p95, p99, h50, h95, _, hle, _⟩
  · rw [h50, h95]
    exact .none
  · rw [h50, h95]
    exact .some hle

theorem rel_p95_p99 {p : LatencyPercentiles} (h : OrderedOrNull (some p)) : Option.Rel (· ≤ ·) p.p95Ms p.p99Ms := by
  rcases h p rfl with ⟨_, h95, h99⟩ | ⟨p50, p95, p99, _, h95, h99, _, hle⟩
  · rw [h95, h99]
    exact .none
  · rw [h95, h99]
    exact .some hle

theorem orderedOrNull_of_rel {p : LatencyPercentiles} (hlow : Option.Rel (· ≤ ·) p.p50Ms p.p95Ms)
    (hhigh : Option.Rel (· ≤ ·) p.p95Ms p.p99Ms) : OrderedOrNull (some p) := by
  obtain ⟨p50, p95, p99⟩ := p
  rintro _ ⟨⟩
  cases hlow with
  | none =>
    cases hhigh with
    | none => exact .inl ⟨rfl, rfl, rfl⟩
  | some hle =>
    cases hhigh with
    | some hle' => exact .inr ⟨_, _, _, rfl, rfl, rfl, hle, hle'⟩

/-- Structs in order or null, combined quantile by quantile, are one of the two again. -/
theorem orderedOrNull_aggregatePercentiles {running : List EngineSnapshot} {d : LatencyDimension}
    (h : ∀ e ∈ running, ∀ m, e.metrics = some m → OrderedOrNull (m.percentiles d)) :
    OrderedOrNull (aggregatePercentiles (get running d.percentilesGroup (·.percentiles d)) (weights running)) := by
  cases hp : aggregatePercentiles (get running d.percentilesGroup (·.percentiles d)) (weights running) with
  | none => exact nofun
  | some p =>
    have hquantile : ∀ q ∈ [(·.p50Ms), (·.p95Ms), (·.p99Ms)], q p = quantile running d q := by
      intro q hq
      rw [← aggregatePercentiles_bind running d hq, hp, Option.bind_some]
    have h50 := hquantile (·.p50Ms) (by simp)
    have h95 := hquantile (·.p95Ms) (by simp)
    have h99 := hquantile (·.p99Ms) (by simp)
    apply orderedOrNull_of_rel
    · rw [h50, h95]
      exact quantile_rel h fun _ => rel_p50_p95
    · rw [h95, h99]
      exact quantile_rel h fun _ => rel_p95_p99

theorem aggregateNumber_requestWeighted (running : List EngineSnapshot) {key : NumericEngineMetric}
    (h : key ∈ requestWeightedMetrics) : aggregateNumber running key = weightedBy running key := by
  cases key <;> first | rfl | exact absurd h (by decide)

theorem aggregateEngines_within (engines : List EngineSnapshot) :
    ((∀ e ∈ engines, ∀ m, e.metrics = some m → ∀ d, OrderedOrNull (m.percentiles d)) →
      ∀ d, OrderedOrNull ((aggregateEngines engines).percentiles d)) ∧
    (∀ key ∈ requestWeightedMetrics,
      LiesAmong ((aggregateEngines engines).number key) (carried engines key.group (·.number key))) ∧
    ∀ (d : LatencyDimension), ∀ q ∈ [(·.p50Ms), (·.p95Ms), (·.p99Ms)],
      LiesAmong (((aggregateEngines engines).percentiles d).bind q)
        (carried engines d.percentilesGroup fun m => (m.percentiles d).bind q) := by
  rw [aggregateEngines_eq]
  refine ⟨?_, ?_, ?_⟩
  · intro h d
    apply orderedOrNull_aggregatePercentiles
    intro e he m hm
    exact h e (List.mem_of_mem_filter he) m hm d
  · intro key hkey
    dsimp only
    rw [aggregateNumber_requestWeighted _ hkey, ← carried_runningEngines]
    exact liesAmong_weightedBy (runningEngines engines) key
  · intro d q hq
    dsimp only
    rw [aggregatePercentiles_bind _ d hq, ← carried_runningEngines]
    exact liesAmong_quantile (runningEngines engines) d q

/-- An engine with its percentiles and one without any. -/
def measuredFleet : List EngineSnapshot :=
  [{ engineType := .vllm, endpoint := [0x61],
     metrics := some { percentiles := fun _ => some ⟨some 1, some 2, some 3⟩ } },
    { engineType := .ollama, endpoint := [0x62], metrics := some {} }]

theorem aggregateEngines_within_measuredFleet :
    ∀ d, OrderedOrNull ((aggregateEngines measuredFleet).percentiles d) := by
  refine (aggregateEngines_within measuredFleet).1 fun e he m hm d p hp => ?_
  rcases List.mem_pair.mp he with rfl | rfl
  · obtain rfl := Option.some.inj hm
    obtain rfl := Option.some.inj hp
    exact .inr ⟨1, 2, 3, rfl, rfl, rfl, by norm_num, by norm_num⟩
  · obtain rfl := Option.some.inj hm
    cases hp

end Figures

end SparkDashboard.Browser
