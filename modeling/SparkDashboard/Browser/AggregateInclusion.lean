import Mathlib.Algebra.BigOperators.Group.List.Basic
import Mathlib.Tactic.Ring
import SparkDashboard.Browser.EngineAggregate

/-!
# What the all-engines figures depend on

An engine left out of a metric group gives nothing to the figures of that group, and a
figure combines what it is given in any order.
-/

namespace SparkDashboard.Browser

open Engines (LatencyPercentiles MetricGroup)

section Combining

theorem sumOrNull_eq (values : List (Option ℚ)) :
    sumOrNull values = if (values.filterMap id).isEmpty then none else some (values.filterMap id).sum := by
  rw [sumOrNull]
  cases values.filterMap id with
  | nil => rfl
  | cons v rest => rfl

theorem sumOrNull_congr {values values' : List (Option ℚ)}
    (h : (values.filterMap id).Perm (values'.filterMap id)) : sumOrNull values = sumOrNull values' := by
  rw [sumOrNull_eq, sumOrNull_eq, h.isEmpty_eq, h.sum_eq]

theorem meanOrNull_eq (values : List (Option ℚ)) :
    meanOrNull values = if (values.filterMap id).isEmpty then none
      else some ((values.filterMap id).sum / (values.filterMap id).length) := by
  rw [meanOrNull]
  cases values.filterMap id with
  | nil => rfl
  | cons v rest => rfl

theorem meanOrNull_congr {values values' : List (Option ℚ)}
    (h : (values.filterMap id).Perm (values'.filterMap id)) : meanOrNull values = meanOrNull values' := by
  rw [meanOrNull_eq, meanOrNull_eq, h.isEmpty_eq, h.sum_eq, h.length_eq]

instance : RightCommutative weigh := by
  constructor
  rintro ⟨total, sum⟩ ⟨v, w⟩ ⟨v', w'⟩
  cases w with
  | none => rfl
  | some w =>
    cases w' with
    | none => rfl
    | some w' =>
      simp only [weigh]
      split
      · split
        · exact Prod.ext (by ring) (by ring)
        · rfl
      · split
        · rfl
        · rfl

def Weighted.present (item : Weighted) : Option (ℚ × Option ℚ) := item.value.map fun value => (value, item.weight)

theorem weightedMeanOrNull_eq (items : List Weighted) :
    weightedMeanOrNull items =
      if (items.filterMap Weighted.present).isEmpty then none
      else if 0 < ((items.filterMap Weighted.present).foldl weigh (0, 0)).1 then
        some (((items.filterMap Weighted.present).foldl weigh (0, 0)).2 /
          ((items.filterMap Weighted.present).foldl weigh (0, 0)).1)
      else some (((items.filterMap Weighted.present).map Prod.fst).sum /
        (items.filterMap Weighted.present).length) := by
  have hpresent : (items.filterMap fun i => i.value.map fun value => (value, i.weight)) =
      items.filterMap Weighted.present := rfl
  rw [weightedMeanOrNull, hpresent]
  cases items.filterMap Weighted.present with
  | nil => rfl
  | cons v rest => rfl

theorem weightedMeanOrNull_congr {items items' : List Weighted}
    (h : (items.filterMap Weighted.present).Perm (items'.filterMap Weighted.present)) :
    weightedMeanOrNull items = weightedMeanOrNull items' := by
  rw [weightedMeanOrNull_eq, weightedMeanOrNull_eq, h.isEmpty_eq, h.foldl_eq, (h.map Prod.fst).sum_eq, h.length_eq]

end Combining

/-- What one engine gives to the figures of a group. -/
def reading {α : Type} (group : MetricGroup) (field : EngineMetrics → Option α) (e : EngineSnapshot) : Option α :=
  if includedIn e group then e.metrics.bind field else none

/-- The engines a group's figures cover, whatever else the lists hold. -/
def SameIncluded (group : MetricGroup) (engines engines' : List EngineSnapshot) : Prop :=
  (engines.filter (includedIn · group)).Perm (engines'.filter (includedIn · group))

/-- An engine left out gives nothing. -/
def Masked {α : Type} (group : MetricGroup) (item : EngineSnapshot → Option α) : Prop :=
  ∀ e, includedIn e group = false → item e = none

theorem masked_reading {α : Type} (group : MetricGroup) (field : EngineMetrics → Option α) :
    Masked group (reading group field) := by
  intro e he
  rw [reading, he]
  rfl

theorem Masked.bind {α β : Type} {group : MetricGroup} {item : EngineSnapshot → Option α} (h : Masked group item)
    (f : EngineSnapshot → α → Option β) : Masked group fun e => (item e).bind (f e) := by
  intro e he
  simp only [h e he, Option.bind_none]

section Included

variable {group : MetricGroup} {running running' : List EngineSnapshot}

theorem Masked.filterMap_perm {α : Type} {item : EngineSnapshot → Option α} (hmasked : Masked group item)
    (h : SameIncluded group running running') : (running.filterMap item).Perm (running'.filterMap item) := by
  have hincluded : ∀ list : List EngineSnapshot,
      (list.filter (includedIn · group)).filterMap item = list.filterMap item := by
    intro list
    rw [List.filterMap_filter]
    congr 1
    funext e
    cases he : includedIn e group with
    | true => rfl
    | false => exact (hmasked e he).symm
  rw [← hincluded running, ← hincluded running']
  exact h.filterMap item

theorem sumOrNull_map_congr {item : EngineSnapshot → Option ℚ} (hmasked : Masked group item)
    (h : SameIncluded group running running') : sumOrNull (running.map item) = sumOrNull (running'.map item) := by
  apply sumOrNull_congr
  rw [List.filterMap_map, List.filterMap_map]
  exact hmasked.filterMap_perm h

theorem meanOrNull_map_congr {item : EngineSnapshot → Option ℚ} (hmasked : Masked group item)
    (h : SameIncluded group running running') : meanOrNull (running.map item) = meanOrNull (running'.map item) := by
  apply meanOrNull_congr
  rw [List.filterMap_map, List.filterMap_map]
  exact hmasked.filterMap_perm h

theorem present_map_perm {value : EngineSnapshot → Option ℚ} (weight : EngineSnapshot → Option ℚ)
    (hmasked : Masked group value) (h : SameIncluded group running running') :
    ((running.map fun e => Weighted.mk (value e) (weight e)).filterMap Weighted.present).Perm
      ((running'.map fun e => Weighted.mk (value e) (weight e)).filterMap Weighted.present) := by
  have hitem : Masked group (Weighted.present ∘ fun e => Weighted.mk (value e) (weight e)) := by
    intro e he
    simp only [Function.comp_apply, Weighted.present, hmasked e he, Option.map_none]
  rw [List.filterMap_map, List.filterMap_map]
  exact hitem.filterMap_perm h

theorem weightedMean_map_congr {value : EngineSnapshot → Option ℚ} (weight : EngineSnapshot → Option ℚ)
    (hmasked : Masked group value) (h : SameIncluded group running running') :
    weightedMeanOrNull (List.zipWith Weighted.mk (running.map value) (running.map weight)) =
      weightedMeanOrNull (List.zipWith Weighted.mk (running'.map value) (running'.map weight)) := by
  rw [List.zipWith_map, List.zipWith_map, List.zipWith_self, List.zipWith_self]
  exact weightedMeanOrNull_congr (present_map_perm weight hmasked h)

theorem weightedBy_congr (key : NumericEngineMetric) (h : SameIncluded key.group running running') :
    weightedBy running key = weightedBy running' key :=
  weightedMean_map_congr (reading .requestTotal (·.number .totalRequests)) (masked_reading key.group (·.number key)) h

theorem pooledRounds_congr (h : SameIncluded .speculativeDecoding running running') :
    pooledRounds running = pooledRounds running' := by
  let accepted := reading .speculativeDecoding (·.number .specDecodeAcceptedTokensTotal)
  let rounds := reading .speculativeDecoding (·.number .specDecodeDraftsTotal)
  have hpooled : ∀ list : List EngineSnapshot, (((draftRounds list).zip (acceptedTokens list)).filterMap fun p =>
      if p.2.isSome then some p.1 else none).filterMap id = list.filterMap fun e => (accepted e).bind fun _ => rounds e := by
    intro list
    have hzip : (draftRounds list).zip (acceptedTokens list) = list.map fun e => (rounds e, accepted e) := by
      rw [draftRounds, acceptedTokens, List.zip, getNumber, getNumber, get, get, List.zipWith_map, List.zipWith_self]
      rfl
    rw [hzip, List.filterMap_map, List.filterMap_filterMap]
    congr 1
    funext e
    cases haccepted : accepted e with
    | none => simp [haccepted]
    | some tokens => simp [haccepted]
  apply sumOrNull_congr
  rw [hpooled, hpooled]
  exact ((masked_reading _ _).bind fun e _ => rounds e).filterMap_perm h

theorem withFigureOnlyEngines_congr {pooled pooled' : Option ℚ} {key : NumericEngineMetric} (hpooled : pooled = pooled')
    (hkey : key.group = .speculativeDecoding) (h : SameIncluded .speculativeDecoding running running') :
    withFigureOnlyEngines running pooled key = withFigureOnlyEngines running' pooled' key := by
  let accepted := reading .speculativeDecoding (·.number .specDecodeAcceptedTokensTotal)
  let rounds := reading .speculativeDecoding (·.number .specDecodeDraftsTotal)
  let figure := fun e => (reading key.group (·.number key) e).bind fun value =>
    if (accepted e).isNone then some value else none
  have hitems : ∀ list : List EngineSnapshot,
      List.zipWith Weighted.mk
          (List.zipWith (fun value accepted => if accepted.isNone then value else none) (getNumber list key)
            (acceptedTokens list))
          (draftRounds list) = list.map fun e => ⟨figure e, rounds e⟩ := by
    intro list
    rw [draftRounds, acceptedTokens, getNumber, getNumber, getNumber, get, get, get, List.zipWith_map,
      List.zipWith_self, List.zipWith_map, List.zipWith_self]
    apply List.map_congr_left
    intro e _
    congr 1
    change (if (accepted e).isNone then reading key.group (·.number key) e else none) = figure e
    simp only [figure]
    cases reading key.group (·.number key) e with
    | none => exact ite_self none
    | some value => rfl
  have hmasked : Masked .speculativeDecoding figure :=
    (hkey ▸ masked_reading key.group (·.number key) :
      Masked .speculativeDecoding (reading key.group (·.number key))).bind _
  apply weightedMeanOrNull_congr
  rw [hpooled, pooledRounds_congr h, hitems, hitems, List.filterMap_cons, List.filterMap_cons]
  have hperm := present_map_perm rounds hmasked h
  cases Weighted.present ⟨pooled', pooledRounds running'⟩ with
  | none => exact hperm
  | some first => exact hperm.cons first

theorem aggregatePercentiles_congr (d : LatencyDimension) (h : SameIncluded d.percentilesGroup running running') :
    aggregatePercentiles (get running d.percentilesGroup (·.percentiles d)) (weights running) =
      aggregatePercentiles (get running' d.percentilesGroup (·.percentiles d)) (weights running') := by
  have hmasked := masked_reading d.percentilesGroup (·.percentiles d)
  have hany : ∀ list : List EngineSnapshot, (get list d.percentilesGroup (·.percentiles d)).any (·.isSome) =
      !(list.filterMap (reading d.percentilesGroup (·.percentiles d))).isEmpty := by
    intro list
    induction list with
    | nil => rfl
    | cons e rest ih =>
      have hcons : get (e :: rest) d.percentilesGroup (·.percentiles d) =
          reading d.percentilesGroup (·.percentiles d) e :: get rest d.percentilesGroup (·.percentiles d) := rfl
      rw [hcons, List.any_cons, ih, List.filterMap_cons]
      cases reading d.percentilesGroup (·.percentiles d) e with
      | none => rfl
      | some _ => rfl
  have hquantile : ∀ key : LatencyPercentiles → Option ℚ,
      weightedMeanOrNull (List.zipWith Weighted.mk
          ((get running d.percentilesGroup (·.percentiles d)).map (·.bind key)) (weights running)) =
        weightedMeanOrNull (List.zipWith Weighted.mk
          ((get running' d.percentilesGroup (·.percentiles d)).map (·.bind key)) (weights running')) := by
    intro key
    rw [get, get, List.map_map, List.map_map]
    exact weightedMean_map_congr (reading .requestTotal (·.number .totalRequests)) (hmasked.bind fun _ => key) h
  simp only [aggregatePercentiles, hany, hquantile, (hmasked.filterMap_perm h).isEmpty_eq]

theorem aggregateNumber_congr (key : NumericEngineMetric) (h : SameIncluded key.group running running') :
    aggregateNumber running key = aggregateNumber running' key := by
  have hsum : ∀ key : NumericEngineMetric, SameIncluded key.group running running' →
      sumOrNull (getNumber running key) = sumOrNull (getNumber running' key) :=
    fun key => sumOrNull_map_congr (masked_reading key.group (·.number key))
  have hmean : ∀ key : NumericEngineMetric, SameIncluded key.group running running' →
      meanOrNull (getNumber running key) = meanOrNull (getNumber running' key) :=
    fun key => meanOrNull_map_congr (masked_reading key.group (·.number key))
  cases key with
  | specDecodeAcceptanceRate =>
    apply withFigureOnlyEngines_congr _ rfl h
    rw [specAcceptedTokens, specDraftTokens, hsum .specDecodeAcceptedTokensTotal h,
      hsum .specDecodeDraftTokensTotal h]
    rfl
  | specDecodeMeanAcceptanceLength =>
    apply withFigureOnlyEngines_congr _ rfl h
    rw [specAcceptedTokens, hsum .specDecodeAcceptedTokensTotal h, pooledRounds_congr h]
    rfl
  | specDecodeAcceptanceRateLive => exact weightedMean_map_congr _ (masked_reading _ _) h
  | _ => first | exact hsum _ h | exact weightedBy_congr _ h | exact hmean _ h

theorem kvCacheIsEstimated_congr (h : SameIncluded .kvCache running running') :
    (get running .kvCache (fun m => some m.kvCacheIsEstimated)).contains (some true) =
      (get running' .kvCache (fun m => some m.kvCacheIsEstimated)).contains (some true) := by
  have hcontains : ∀ list : List EngineSnapshot,
      (get list .kvCache (fun m => some m.kvCacheIsEstimated)).contains (some true) =
        (list.filterMap (reading .kvCache fun m => some m.kvCacheIsEstimated)).contains true := by
    intro list
    induction list with
    | nil => rfl
    | cons e rest ih =>
      have hcons : get (e :: rest) .kvCache (fun m => some m.kvCacheIsEstimated) =
          reading .kvCache (fun m => some m.kvCacheIsEstimated) e ::
            get rest .kvCache (fun m => some m.kvCacheIsEstimated) := rfl
      rw [hcons, List.contains_cons, ih, List.filterMap_cons]
      cases reading .kvCache (fun m => some m.kvCacheIsEstimated) e with
      | none => rfl
      | some _ => rfl
  rw [hcontains, hcontains]
  exact ((masked_reading _ _).filterMap_perm h).contains_eq

end Included

attribute [ext] AggregateCoverage AggregateSnapshot

/-- The figures filed under a metric group, and how many engines they cover. -/
structure SameFigures (group : MetricGroup) (a b : AggregateSnapshot) : Prop where
  number : ∀ key : NumericEngineMetric, key.group = group → a.number key = b.number key
  percentiles : ∀ d : LatencyDimension, d.percentilesGroup = group → a.percentiles d = b.percentiles d
  kvCacheIsEstimated : group = .kvCache → a.kvCacheIsEstimated = b.kvCacheIsEstimated
  included : a.coverage.included group = b.coverage.included group

section Aggregate

theorem aggregateNumber_nil (key : NumericEngineMetric) : aggregateNumber [] key = none := by
  cases key <;> rfl

/-- Over no running engine every figure is what it is on an empty snapshot. -/
theorem aggregateEngines_eq (engines : List EngineSnapshot) :
    aggregateEngines engines =
      { runningCount := (runningEngines engines).length
        totalCount := engines.length
        coverage := aggregateCoverage engines
        number := aggregateNumber (runningEngines engines)
        percentiles := fun d => aggregatePercentiles
          (get (runningEngines engines) d.percentilesGroup (·.percentiles d)) (weights (runningEngines engines))
        kvCacheIsEstimated :=
          (get (runningEngines engines) .kvCache (fun m => some m.kvCacheIsEstimated)).contains (some true) } := by
  rw [aggregateEngines]
  split
  · rename_i hnone
    have hcoverage : aggregateCoverage engines = aggregateCoverage [] := by
      rw [aggregateCoverage, hnone]
      rfl
    rw [hcoverage, hnone, funext aggregateNumber_nil]
    rfl
  · rfl

theorem filter_runningEngines (group : MetricGroup) (engines : List EngineSnapshot) :
    (runningEngines engines).filter (includedIn · group) = engines.filter (includedIn · group) := by
  rw [runningEngines, List.filter_filter]
  apply List.filter_congr
  intro e _
  cases hrunning : decide (e.status = .running) with
  | true => rw [Bool.and_true]
  | false => simp only [includedIn, contributesGroup, hrunning, Bool.false_and]

theorem sameFigures_of_sameIncluded {group : MetricGroup} {engines engines' : List EngineSnapshot}
    (h : SameIncluded group engines engines') :
    SameFigures group (aggregateEngines engines) (aggregateEngines engines') := by
  have hrunning : SameIncluded group (runningEngines engines) (runningEngines engines') := by
    rw [SameIncluded, filter_runningEngines, filter_runningEngines]
    exact h
  simp only [aggregateEngines_eq]
  constructor
  · rintro key rfl
    exact aggregateNumber_congr key hrunning
  · rintro d rfl
    exact aggregatePercentiles_congr d hrunning
  · rintro rfl
    exact kvCacheIsEstimated_congr hrunning
  · exact hrunning.length_eq

theorem aggregateEngines_perm {engines engines' : List EngineSnapshot} (h : engines.Perm engines') :
    aggregateEngines engines = aggregateEngines engines' := by
  have hrunning : (runningEngines engines).length = (runningEngines engines').length := (h.filter _).length_eq
  have hsame : ∀ group, SameFigures group (aggregateEngines engines) (aggregateEngines engines') :=
    fun group => sameFigures_of_sameIncluded (h.filter _)
  simp only [aggregateEngines_eq] at hsame ⊢
  apply AggregateSnapshot.ext
  · exact hrunning
  · exact h.length_eq
  · exact AggregateCoverage.ext hrunning (funext fun group => (hsame group).included)
  · exact funext fun key => (hsame key.group).number key rfl
  · exact funext fun d => (hsame d.percentilesGroup).percentiles d rfl
  · exact (hsame .kvCache).kvCacheIsEstimated rfl

end Aggregate

/-- The figures of a group depend on the engines it covers alone, and no figure on their order. -/
theorem aggregateEngines_depends_on_included :
    (∀ (group : MetricGroup) (engines engines' : List EngineSnapshot),
      engines.filter (includedIn · group) = engines'.filter (includedIn · group) →
        SameFigures group (aggregateEngines engines) (aggregateEngines engines')) ∧
    ∀ engines engines' : List EngineSnapshot, engines.Perm engines' →
      aggregateEngines engines = aggregateEngines engines' := by
  constructor
  · intro group engines engines' h
    exact sameFigures_of_sameIncluded (.of_eq h)
  · intro engines engines' h
    exact aggregateEngines_perm h

/-- Busy, off and stopped: the first alone is in any figure. -/
def mixedFleet : List EngineSnapshot :=
  let metrics : EngineMetrics := { number := fun _ => some 5, kvCacheIsEstimated := true }
  [{ engineType := .vllm, endpoint := [0x61], metrics := some metrics },
    { engineType := .vllm, endpoint := [0x62], metricsOff := some [0x2D], metrics := some metrics },
    { engineType := .sglang, endpoint := [0x63], status := .stopped, metrics := some metrics }]

theorem aggregateEngines_depends_on_included_mixedFleet :
    (SameFigures .ttftMean (aggregateEngines mixedFleet) (aggregateEngines (mixedFleet.take 1))) ∧
      aggregateEngines mixedFleet = aggregateEngines mixedFleet.reverse :=
  ⟨aggregateEngines_depends_on_included.1 .ttftMean mixedFleet (mixedFleet.take 1) rfl,
    aggregateEngines_depends_on_included.2 mixedFleet mixedFleet.reverse (List.reverse_perm mixedFleet).symm⟩

end SparkDashboard.Browser
