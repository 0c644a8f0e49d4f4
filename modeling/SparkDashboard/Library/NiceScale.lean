import Mathlib.Data.Int.Log
import Mathlib.Data.List.Basic
import Mathlib.Order.Bounds.Basic

/-!
# Round scales

A positive number rounded up to a step of the power of the base it starts with. The steps, times all
powers of the base, make a grid, and what comes out is the least of it that is no less.
-/

namespace SparkDashboard.Library

/-- The steps between one and the base, ascending. -/
structure Steps (base : Nat) where
  steps : List Nat
  one_lt_base : 1 < base
  ascending : steps.Pairwise (· < ·)
  one_le : ∀ c ∈ steps, 1 ≤ c
  le_base : ∀ c ∈ steps, c ≤ base
  one_mem : 1 ∈ steps
  base_mem : base ∈ steps

namespace Steps

variable {base : Nat} (s : Steps base) {K : Type*} [Field K] [LinearOrder K]

/-- The first step a number does not exceed. -/
def stepFor (fraction : K) : Nat := (s.steps.find? fun c : Nat => decide (fraction ≤ (c : K))).getD base

def OnGrid (g : K) : Prop := ∃ c ∈ s.steps, ∃ n : Int, g = c * (base : K) ^ n

theorem stepFor_spec {fraction : K} (h : fraction ≤ base) :
    s.stepFor fraction ∈ s.steps ∧ fraction ≤ (s.stepFor fraction : K) ∧
      ∀ c ∈ s.steps, fraction ≤ (c : K) → s.stepFor fraction ≤ c := by
  rw [stepFor]
  cases hfind : s.steps.find? fun c : Nat => decide (fraction ≤ (c : K)) with
  | none => exact absurd (decide_eq_true h) (List.find?_eq_none.mp hfind base s.base_mem)
  | some step =>
    obtain ⟨hle, before, after, hsteps, hbefore⟩ := List.find?_eq_some_iff_append.mp hfind
    refine ⟨List.mem_of_find?_eq_some hfind, of_decide_eq_true hle, fun c hc hfits => ?_⟩
    have hascending := s.ascending
    rw [hsteps] at hc hascending
    rcases List.mem_append.mp hc with hc | hc
    · -- a step before the first that fits does not fit
      have hnot := hbefore c hc
      rw [decide_eq_true hfits] at hnot
      cases hnot
    · rcases List.mem_cons.mp hc with rfl | hc
      · exact le_rfl
      · exact ((List.pairwise_cons.mp (List.pairwise_append.mp hascending).2.1).1 c hc).le

variable [IsStrictOrderedRing K] [FloorSemiring K]

def ceiling (x : K) : K := s.stepFor (x / (base : K) ^ Int.log base x) * (base : K) ^ Int.log base x

/-- Nothing of the grid lies between a number and its ceiling. -/
theorem isLeast_ceiling {x : K} (hx : 0 < x) : IsLeast {g | s.OnGrid g ∧ x ≤ g} (s.ceiling x) := by
  have hone : (1 : K) ≤ base := Nat.one_le_cast.mpr s.one_lt_base.le
  have hbase : (0 : K) < base := lt_of_lt_of_le zero_lt_one hone
  have hmagnitude : (0 : K) < (base : K) ^ Int.log base x := zpow_pos hbase _
  have hlow := Int.zpow_log_le_self s.one_lt_base hx
  have hhigh : x < (base : K) * (base : K) ^ Int.log base x := by
    have hsucc := Int.lt_zpow_succ_log_self s.one_lt_base x
    rwa [zpow_add_one₀ hbase.ne', mul_comm] at hsucc
  have hfraction : x / (base : K) ^ Int.log base x ≤ base := (div_le_iff₀ hmagnitude).mpr hhigh.le
  obtain ⟨hstep, hfits, hleast⟩ := s.stepFor_spec hfraction
  refine ⟨⟨⟨_, hstep, _, rfl⟩, (div_le_iff₀ hmagnitude).mp hfits⟩, ?_⟩
  rintro g ⟨⟨c, hc, n, rfl⟩, hg⟩
  have hc' : (c : K) ≤ base := Nat.cast_le.mpr (s.le_base c hc)
  rcases lt_trichotomy n (Int.log base x) with hn | rfl | hn
  · -- a smaller power reaches `x` only where `x` is a power of the base
    have hpower : (c : K) * (base : K) ^ n ≤ (base : K) ^ Int.log base x := by
      calc (c : K) * (base : K) ^ n ≤ base * (base : K) ^ n := mul_le_mul_of_nonneg_right hc' (zpow_pos hbase n).le
        _ = (base : K) ^ (n + 1) := by rw [zpow_add_one₀ hbase.ne', mul_comm]
        _ ≤ (base : K) ^ Int.log base x := zpow_le_zpow_right₀ hone hn
    have hx' : x = (base : K) ^ Int.log base x := le_antisymm (hg.trans hpower) hlow
    have hunit : x / (base : K) ^ Int.log base x ≤ ((1 : Nat) : K) := by
      rw [div_le_iff₀ hmagnitude, Nat.cast_one, one_mul]
      exact hx'.le
    have hcast : ((s.stepFor (x / (base : K) ^ Int.log base x) : Nat) : K) ≤ 1 :=
      Nat.cast_le_one.mpr (hleast 1 s.one_mem hunit)
    calc s.ceiling x ≤ 1 * (base : K) ^ Int.log base x := mul_le_mul_of_nonneg_right hcast hmagnitude.le
      _ = x := by rw [one_mul]; exact hx'.symm
      _ ≤ c * (base : K) ^ n := hg
  · have hfits' : x / (base : K) ^ Int.log base x ≤ (c : K) := (div_le_iff₀ hmagnitude).mpr hg
    exact mul_le_mul_of_nonneg_right (Nat.cast_le.mpr (hleast c hc hfits')) hmagnitude.le
  · have hstep' : ((s.stepFor (x / (base : K) ^ Int.log base x) : Nat) : K) ≤ base :=
      Nat.cast_le.mpr (s.le_base _ hstep)
    have hcone : (1 : K) ≤ c := Nat.one_le_cast.mpr (s.one_le c hc)
    calc s.ceiling x ≤ base * (base : K) ^ Int.log base x := mul_le_mul_of_nonneg_right hstep' hmagnitude.le
      _ = (base : K) ^ (Int.log base x + 1) := by rw [zpow_add_one₀ hbase.ne', mul_comm]
      _ ≤ (base : K) ^ n := zpow_le_zpow_right₀ hone hn
      _ = 1 * (base : K) ^ n := (one_mul _).symm
      _ ≤ c * (base : K) ^ n := mul_le_mul_of_nonneg_right hcone (zpow_pos hbase n).le

end Steps

end SparkDashboard.Library
