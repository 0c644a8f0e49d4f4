import SparkDashboard.Browser.MetricsHistoryStore
import SparkDashboard.Library.NiceScale

/-!
# The scale of the power gauge

A gauge of power draw runs to the GPU's limit. Where the GPU reports none it runs to a round number
above the greatest draw there is to see.
-/

namespace SparkDashboard.Browser

inductive PowerSource where
  | limit
  | peak
  deriving DecidableEq, Repr

structure PowerScale where
  percent : ℚ
  effectiveMax : Option ℚ
  source : Option PowerSource
  deriving DecidableEq

def niceFraction (fraction : ℚ) : ℚ :=
  if fraction ≤ 1 then 1
  else if fraction ≤ 2 then 2
  else if fraction ≤ 5 then 5
  else 10

def niceCeiling (value : ℚ) : Option ℚ :=
  if value ≤ 0 then none
  else
    let magnitude := (10 : ℚ) ^ Int.log 10 value
    some (niceFraction (value / magnitude) * magnitude)

def powerPeak (history : List DataPoint) (current : Option ℚ) : Option ℚ :=
  history.foldl
    (fun peak point => if peak.all fun p => decide (p < point.value) then some point.value else peak) current

/-- The end of the gauge and where it is from: the limit if there is one, else a ceiling over the peak. -/
def effectiveMax (limit peak : Option ℚ) : Option (ℚ × PowerSource) :=
  match limit.filter fun watts => decide (0 < watts) with
  | some limit => some (limit, .limit)
  | none => ((peak.bind niceCeiling).filter fun ceiling => decide (0 < ceiling)).map fun ceiling => (ceiling, .peak)

def computePowerScale (current limit peak : Option ℚ) : PowerScale where
  percent :=
    match current, (effectiveMax limit peak).map Prod.fst with
    | some current, some effectiveMax =>
      if 0 < effectiveMax then min (max (current / effectiveMax * 100) 0) 100 else 0
    | _, _ => 0
  effectiveMax := (effectiveMax limit peak).map Prod.fst
  source := (effectiveMax limit peak).map Prod.snd

/-- The grid of the gauge's ends. -/
def oneTwoFive : Library.Steps 10 where
  steps := [1, 2, 5, 10]
  one_lt_base := by decide
  ascending := by decide
  one_le := by decide
  le_base := by decide
  one_mem := by decide
  base_mem := by decide

theorem stepFor_oneTwoFive (fraction : ℚ) : (oneTwoFive.stepFor fraction : ℚ) = niceFraction fraction := by
  have hsteps : oneTwoFive.steps = [1, 2, 5, 10] := rfl
  rw [Library.Steps.stepFor, hsteps, niceFraction]
  simp only [List.find?_cons, List.find?_nil, Nat.cast_one, Nat.cast_ofNat]
  by_cases h1 : fraction ≤ 1
  · simp [h1]
  by_cases h2 : fraction ≤ 2
  · simp [h1, h2]
  by_cases h5 : fraction ≤ 5
  · simp [h1, h2, h5]
  by_cases h10 : fraction ≤ 10
  · simp [h1, h2, h5, h10]
  · simp [h1, h2, h5, h10]

theorem niceCeiling_of_pos {value : ℚ} (h : 0 < value) : niceCeiling value = some (oneTwoFive.ceiling value) := by
  rw [niceCeiling, if_neg (not_le.mpr h), Library.Steps.ceiling, stepFor_oneTwoFive]
  rfl

theorem niceCeiling_of_nonpos {value : ℚ} (h : value ≤ 0) : niceCeiling value = none := if_pos h

/-- The ceiling is never two and a half times the number. -/
theorem ceiling_lt {value : ℚ} (h : 0 < value) : oneTwoFive.ceiling value < 5 / 2 * value := by
  have hmagnitude : (0 : ℚ) < (10 : ℚ) ^ Int.log 10 value := zpow_pos (by norm_num) _
  have hlow := Int.zpow_log_le_self (b := 10) (by decide) h
  have hfraction : 1 ≤ value / (10 : ℚ) ^ Int.log 10 value := (le_div_iff₀ hmagnitude).mpr (by rwa [one_mul])
  have hvalue : value = value / (10 : ℚ) ^ Int.log 10 value * (10 : ℚ) ^ Int.log 10 value :=
    (div_mul_cancel₀ _ hmagnitude.ne').symm
  have hstep : niceFraction (value / (10 : ℚ) ^ Int.log 10 value) < 5 / 2 * (value / (10 : ℚ) ^ Int.log 10 value) := by
    rw [niceFraction]
    split
    · linarith
    split
    · linarith
    split <;> linarith
  calc oneTwoFive.ceiling value
      = niceFraction (value / (10 : ℚ) ^ Int.log 10 value) * (10 : ℚ) ^ Int.log 10 value := by
        rw [Library.Steps.ceiling, stepFor_oneTwoFive]
        rfl
    _ < 5 / 2 * (value / (10 : ℚ) ^ Int.log 10 value) * (10 : ℚ) ^ Int.log 10 value :=
        mul_lt_mul_of_pos_right hstep hmagnitude
    _ = 5 / 2 * value := by rw [mul_assoc, ← hvalue]

/-- What the gauge and the line show of the draw. -/
def drawn (history : List DataPoint) (current : Option ℚ) : List ℚ := current.toList ++ history.map DataPoint.value

theorem powerPeak_some (history : List DataPoint) (watts : ℚ) :
    powerPeak history (some watts) = some ((history.map DataPoint.value).foldl max watts) := by
  induction history generalizing watts with
  | nil => rfl
  | cons point history ih =>
    rw [powerPeak, List.foldl_cons, List.map_cons, List.foldl_cons, ← ih, powerPeak]
    rw [Option.all_some]
    split
    · rename_i habove
      rw [max_eq_right (of_decide_eq_true habove).le]
    · rename_i hbelow
      rw [decide_eq_true_eq, not_lt] at hbelow
      rw [max_eq_left hbelow]

theorem powerPeak_eq_max? (history : List DataPoint) (current : Option ℚ) :
    powerPeak history current = (drawn history current).max? := by
  cases current with
  | some watts => exact powerPeak_some history watts
  | none =>
    cases history with
    | nil => rfl
    | cons point history => exact powerPeak_some history point.value

theorem powerPeak_eq_some_iff {history : List DataPoint} {current : Option ℚ} {peak : ℚ} :
    powerPeak history current = some peak ↔
      peak ∈ drawn history current ∧ ∀ watts ∈ drawn history current, watts ≤ peak := by
  rw [powerPeak_eq_max?, List.max?_eq_some_iff]

theorem effectiveMax_cases (limit peak : Option ℚ) :
    (∃ watts, limit = some watts ∧ 0 < watts ∧ effectiveMax limit peak = some (watts, .limit)) ∨
      (∀ watts, limit = some watts → watts ≤ 0) ∧
        ((∃ watts, peak = some watts ∧ 0 < watts ∧
            effectiveMax limit peak = some (oneTwoFive.ceiling watts, .peak)) ∨
          (∀ watts, peak = some watts → watts ≤ 0) ∧ effectiveMax limit peak = none) := by
  rw [effectiveMax]
  cases hlimit : limit.filter fun watts => decide (0 < watts) with
  | some watts =>
    obtain ⟨rfl, hpos⟩ := Option.filter_eq_some_iff.mp hlimit
    exact .inl ⟨watts, rfl, of_decide_eq_true hpos, rfl⟩
  | none =>
    refine .inr ⟨fun watts hwatts => ?_, ?_⟩
    · have hnot := Option.filter_eq_none_iff.mp hlimit watts hwatts
      rwa [decide_eq_true_eq, not_lt] at hnot
    · cases peak with
      | none => exact .inr ⟨fun watts h => (by cases h), rfl⟩
      | some watts =>
        rcases lt_or_ge 0 watts with hpos | hnonpos
        · have hceiling : 0 < oneTwoFive.ceiling watts := hpos.trans_le (oneTwoFive.isLeast_ceiling hpos).1.2
          refine .inl ⟨watts, rfl, hpos, ?_⟩
          rw [Option.bind_some, niceCeiling_of_pos hpos, Option.filter_some, if_pos (decide_eq_true hceiling)]
          rfl
        · refine .inr ⟨fun other h => (Option.some.inj h) ▸ hnonpos, ?_⟩
          rw [Option.bind_some, niceCeiling_of_nonpos hnonpos]
          rfl

theorem computePowerScale_of_some {current limit peak : Option ℚ} {last : ℚ} {source : PowerSource}
    (hmax : effectiveMax limit peak = some (last, source)) (hlast : 0 < last) :
    computePowerScale current limit peak =
      ⟨(current.map fun watts => min (max (watts / last * 100) 0) 100).getD 0, some last, some source⟩ := by
  cases current with
  | none => simp only [computePowerScale, hmax, Option.map_some, Option.map_none, Option.getD_none]
  | some watts => simp only [computePowerScale, hmax, Option.map_some, if_pos hlast, Option.getD_some]

theorem computePowerScale_of_none {current limit peak : Option ℚ} (hmax : effectiveMax limit peak = none) :
    computePowerScale current limit peak = ⟨0, none, none⟩ := by
  cases current <;> simp only [computePowerScale, hmax, Option.map_none]

/-- The gauge runs to the limit or, without one, to the least round number over all its line shows. -/
structure PowerShown (current limit : Option ℚ) (line : List DataPoint) (scale : PowerScale) : Prop where
  atLimit : ∀ watts, limit = some watts → 0 < watts →
    scale.effectiveMax = some watts ∧ scale.source = some .limit
  overPeak : (∀ watts, limit = some watts → watts ≤ 0) → ∀ last, scale.effectiveMax = some last →
    scale.source = some .peak ∧ IsLeast {g | oneTwoFive.OnGrid g ∧ ∀ dp ∈ line, dp.value ≤ g} last ∧
      (∃ dp ∈ line, last < 5 / 2 * dp.value) ∧ ∀ watts, current = some watts → watts ≤ last
  blank : scale.effectiveMax = none → scale.percent = 0 ∧ ∀ dp ∈ line, dp.value ≤ 0
  percent : ∀ last, scale.effectiveMax = some last →
    scale.percent = (current.map fun watts => min (max (watts / last * 100) 0) 100).getD 0

section Shown

variable {current limit : Option ℚ} {line : List DataPoint}

theorem powerShown_atLimit {most : ℚ} (hpos : 0 < most)
    (hmax : effectiveMax (some most) (powerPeak line current) = some (most, .limit)) :
    PowerShown current (some most) line (computePowerScale current (some most) (powerPeak line current)) := by
  rw [computePowerScale_of_some hmax hpos]
  refine ⟨?_, ?_, ?_, ?_⟩
  · rintro watts hwatts -
    exact ⟨hwatts, rfl⟩
  · intro hunlimited
    exact absurd (hunlimited most rfl) (not_le.mpr hpos)
  · intro hblank
    cases hblank
  · rintro last ⟨⟩
    rfl

variable (hcurrent : ∀ watts, current = some watts → ∃ dp ∈ line, dp.value = watts)

include hcurrent in
theorem exists_of_mem_drawn {watts : ℚ} (h : watts ∈ drawn line current) : ∃ dp ∈ line, dp.value = watts := by
  rcases List.mem_append.mp h with hmem | hmem
  · exact hcurrent watts (Option.mem_toList.mp hmem)
  · exact List.mem_map.mp hmem

theorem mem_drawn_of_mem {dp : DataPoint} (h : dp ∈ line) : dp.value ∈ drawn line current :=
  List.mem_append_right _ (List.mem_map_of_mem h)

include hcurrent in
theorem powerShown_overPeak (hnone : ∀ watts, limit = some watts → watts ≤ 0) {peak : ℚ}
    (hpeak : powerPeak line current = some peak) (hpos : 0 < peak)
    (hmax : effectiveMax limit (powerPeak line current) = some (oneTwoFive.ceiling peak, .peak)) :
    PowerShown current limit line (computePowerScale current limit (powerPeak line current)) := by
  obtain ⟨hmem, hbound⟩ := powerPeak_eq_some_iff.mp hpeak
  obtain ⟨highest, hhighest, hvalue⟩ := exists_of_mem_drawn hcurrent hmem
  have hleast := oneTwoFive.isLeast_ceiling hpos
  rw [computePowerScale_of_some hmax (hpos.trans_le hleast.1.2)]
  refine ⟨?_, ?_, ?_, ?_⟩
  · intro watts hwatts hlimit
    exact absurd (hnone watts hwatts) (not_le.mpr hlimit)
  · rintro - last ⟨⟩
    refine ⟨rfl, ⟨⟨hleast.1.1, fun dp hdp => (hbound _ (mem_drawn_of_mem hdp)).trans hleast.1.2⟩, ?_⟩, ?_, ?_⟩
    · rintro g ⟨hgrid, hg⟩
      exact hleast.2 ⟨hgrid, hvalue ▸ hg highest hhighest⟩
    · exact ⟨highest, hhighest, hvalue.symm ▸ ceiling_lt hpos⟩
    · rintro watts rfl
      exact (hbound watts (List.mem_append_left _ (List.mem_singleton_self watts))).trans hleast.1.2
  · intro hblank
    cases hblank
  · rintro last ⟨⟩
    rfl

theorem powerShown_blank (hnone : ∀ watts, limit = some watts → watts ≤ 0)
    (hnonpos : ∀ peak, powerPeak line current = some peak → peak ≤ 0)
    (hmax : effectiveMax limit (powerPeak line current) = none) :
    PowerShown current limit line (computePowerScale current limit (powerPeak line current)) := by
  rw [computePowerScale_of_none hmax]
  refine ⟨?_, ?_, ?_, ?_⟩
  · intro watts hwatts hlimit
    exact absurd (hnone watts hwatts) (not_le.mpr hlimit)
  · rintro - last ⟨⟩
  · refine fun _ => ⟨rfl, fun dp hdp => ?_⟩
    cases hpeak : powerPeak line current with
    | none =>
      rw [powerPeak_eq_max?, List.max?_eq_none_iff] at hpeak
      have hdrawn : dp.value ∈ drawn line current := mem_drawn_of_mem hdp
      rw [hpeak] at hdrawn
      cases hdrawn
    | some peak => exact ((powerPeak_eq_some_iff.mp hpeak).2 _ (mem_drawn_of_mem hdp)).trans (hnonpos peak hpeak)
  · rintro last ⟨⟩

include hcurrent in
/-- Where the line has the figure on it, nothing it shows is past the end of the gauge. -/
theorem powerShown : PowerShown current limit line (computePowerScale current limit (powerPeak line current)) := by
  rcases effectiveMax_cases limit (powerPeak line current) with
    ⟨most, rfl, hpos, hmax⟩ | ⟨hnone, ⟨peak, hpeak, hpos, hmax⟩ | ⟨hnonpos, hmax⟩⟩
  · exact powerShown_atLimit hpos hmax
  · exact powerShown_overPeak hcurrent hnone hpeak hpos hmax
  · exact powerShown_blank hnone hnonpos hmax

end Shown

end SparkDashboard.Browser
