import SparkDashboard.Browser.MetricsHistoryStore
import SparkDashboard.Library.SortByKey

/-!
# The sum of two series
-/

namespace SparkDashboard.Browser

open Library

def sumMap (a b : List DataPoint) : KeyedMap ℚ ℚ :=
  b.foldl (fun m p => KeyedMap.upsert m p.timestamp fun value => value.getD 0 + p.value)
    (a.foldl (fun m p => KeyedMap.upsert m p.timestamp fun _ => p.value) ∅)

/-- One point a timestamp, in their order. -/
def sumSeries (a b : List DataPoint) : List DataPoint :=
  (sortByKey Sigma.fst (sumMap a b).entries).map fun e => ⟨e.1, e.2⟩

section Values

variable (line a b : List DataPoint) (timestamp : ℚ)

def valuesAt : List ℚ := line.filterMap fun p => if p.timestamp = timestamp then some p.value else none

/-- A series that has a timestamp twice counts once with its last value on the left, twice on the right. -/
def sumAt : ℚ := ((valuesAt a timestamp).getLast?.getD 0) + (valuesAt b timestamp).sum

theorem foldl_last (values : List ℚ) (start : ℚ) :
    values.foldl (fun _ value => value) start = values.getLast?.getD start := by
  induction values using List.reverseRecOn with
  | nil => rfl
  | append_singleton values last _ => rw [List.foldl_append, List.getLast?_concat]; rfl

theorem lookup_foldl_upsert (g : ℚ → ℚ → ℚ) (m : KeyedMap ℚ ℚ) :
    (line.foldl (fun m p => KeyedMap.upsert m p.timestamp fun value => g (value.getD 0) p.value) m).lookup timestamp =
      if valuesAt line timestamp = [] then m.lookup timestamp
      else some ((valuesAt line timestamp).foldl g ((m.lookup timestamp).getD 0)) := by
  refine KeyedMap.lookup_run _ (fun m : KeyedMap ℚ ℚ => m.lookup timestamp) g 0 (fun m p => ?_) m line
  rw [KeyedMap.lookup_upsert]
  split <;> rfl

theorem foldl_add (values : List ℚ) (start : ℚ) : values.foldl (· + ·) start = start + values.sum := by
  induction values generalizing start with
  | nil => exact (add_zero start).symm
  | cons value values ih => rw [List.foldl_cons, ih, List.sum_cons, add_assoc]

theorem lookup_sumMap :
    (sumMap a b).lookup timestamp =
      if valuesAt a timestamp = [] ∧ valuesAt b timestamp = [] then none else some (sumAt a b timestamp) := by
  have hempty : (∅ : KeyedMap ℚ ℚ).lookup timestamp = none := rfl
  have hfirst := lookup_foldl_upsert a timestamp (fun _ value => value) ∅
  rw [hempty, Option.getD_none, foldl_last] at hfirst
  rw [sumMap, lookup_foldl_upsert b timestamp (· + ·), sumAt]
  rcases eq_or_ne (valuesAt a timestamp) [] with ha | ha
  · rw [if_pos ha] at hfirst
    rw [hfirst, ha]
    rcases eq_or_ne (valuesAt b timestamp) [] with hb | hb
    · rw [if_pos hb, if_pos ⟨rfl, hb⟩]
    · rw [if_neg hb, if_neg (not_and_of_not_right _ hb), foldl_add]
      rfl
  · rw [if_neg ha] at hfirst
    rw [hfirst, if_neg (not_and_of_not_left _ ha)]
    rcases eq_or_ne (valuesAt b timestamp) [] with hb | hb
    · rw [if_pos hb, hb, List.sum_nil, add_zero]
    · rw [if_neg hb, foldl_add, Option.getD_some]

/-- A point stands at each timestamp that either series has, with what they add up to there. -/
theorem mem_sumSeries {dp : DataPoint} :
    dp ∈ sumSeries a b ↔ ¬ (valuesAt a dp.timestamp = [] ∧ valuesAt b dp.timestamp = []) ∧
      dp.value = sumAt a b dp.timestamp := by
  have hentry : dp ∈ sumSeries a b ↔ (sumMap a b).lookup dp.timestamp = some dp.value := by
    rw [sumSeries, List.mem_map, ← KeyedMap.mem_entries_iff_lookup]
    constructor
    · rintro ⟨e, he, rfl⟩
      exact (mem_sortByKey _).mp he
    · intro he
      exact ⟨⟨dp.timestamp, dp.value⟩, (mem_sortByKey _).mpr he, rfl⟩
  rw [hentry, lookup_sumMap]
  split
  · rename_i hnone
    exact iff_of_false (Option.some_ne_none _).symm fun h => h.1 hnone
  · rename_i hsome
    exact ⟨fun h => ⟨hsome, (Option.some.inj h).symm⟩, fun h => congrArg some h.2.symm⟩

theorem pairwise_sumSeries : (sumSeries a b).Pairwise fun p q => p.timestamp < q.timestamp := by
  have hperm := (perm_sortByKey Sigma.fst (sumMap a b).entries).map Sigma.fst
  have hdistinct : ((sortByKey Sigma.fst (sumMap a b).entries).map Sigma.fst).Nodup :=
    hperm.nodup_iff.mpr (sumMap a b).nodupKeys
  rw [sumSeries, List.pairwise_map]
  exact (pairwise_sortByKey Sigma.fst (sumMap a b).entries).imp₂ (fun _ _ => lt_of_le_of_ne)
    (List.pairwise_map.mp hdistinct)

end Values

end SparkDashboard.Browser
