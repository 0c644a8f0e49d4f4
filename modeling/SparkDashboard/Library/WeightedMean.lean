import Mathlib.Algebra.BigOperators.Group.List.Basic
import Mathlib.Algebra.BigOperators.Ring.List
import Mathlib.Algebra.Order.BigOperators.Group.List
import Mathlib.Algebra.Order.Field.Basic

/-!
# Weighted means

A list of values, each with its weight; the simple mean where nothing weighs anything. Larger
values under the same weights have the larger mean, so a mean lies among its values.
-/

namespace SparkDashboard.Library.WeightedMean

variable {K : Type*} [Field K] [LinearOrder K]

def total (items : List (K × K)) : K := (items.map Prod.snd).sum

def weighted (items : List (K × K)) : K := (items.map fun item => item.1 * item.2).sum

def mean (items : List (K × K)) : K :=
  if 0 < total items then weighted items / total items else (items.map Prod.fst).sum / items.length

/-- The weights of both are the same, and no value of the first is the larger. -/
def AtMost (items items' : List (K × K)) : Prop :=
  List.Forall₂ (fun item item' => item.1 ≤ item'.1 ∧ item.2 = item'.2 ∧ 0 ≤ item.2) items items'

variable {items items' : List (K × K)}

theorem total_eq_of_atMost (h : AtMost items items') : total items = total items' := by
  induction h with
  | nil => rfl
  | cons hitem _ ih =>
    rw [total, total, List.map_cons, List.map_cons, List.sum_cons, List.sum_cons, hitem.2.1]
    exact congrArg _ ih

variable [IsStrictOrderedRing K]

theorem weighted_le_of_atMost (h : AtMost items items') : weighted items ≤ weighted items' := by
  induction h with
  | nil => exact le_refl _
  | cons hitem _ ih =>
    obtain ⟨hvalue, hweight, hnonneg⟩ := hitem
    rw [weighted, weighted, List.map_cons, List.map_cons, List.sum_cons, List.sum_cons, ← hweight]
    exact add_le_add (mul_le_mul_of_nonneg_right hvalue hnonneg) ih

theorem sum_fst_le_of_atMost (h : AtMost items items') : (items.map Prod.fst).sum ≤ (items'.map Prod.fst).sum := by
  induction h with
  | nil => exact le_refl _
  | cons hitem _ ih =>
    rw [List.map_cons, List.map_cons, List.sum_cons, List.sum_cons]
    exact add_le_add hitem.1 ih

theorem mean_le_of_atMost (h : AtMost items items') : mean items ≤ mean items' := by
  rw [mean, mean, ← total_eq_of_atMost h, List.Forall₂.length_eq h]
  split
  · rename_i htotal
    exact div_le_div_of_nonneg_right (weighted_le_of_atMost h) htotal.le
  · exact div_le_div_of_nonneg_right (sum_fst_le_of_atMost h) (Nat.cast_nonneg _)

/-- The same value everywhere is the mean, whatever it weighs. -/
theorem mean_const (hne : items ≠ []) (value : K) : mean (items.map fun item => (value, item.2)) = value := by
  have hweighted : weighted (items.map fun item => (value, item.2)) = value * total items := by
    rw [weighted, total, List.map_map, ← List.sum_map_mul_left]
    rfl
  have htotal : total (items.map fun item => (value, item.2)) = total items := by
    rw [total, total, List.map_map]
    rfl
  rw [mean, hweighted, htotal, List.map_map, List.length_map]
  split
  · rename_i hpos
    exact mul_div_cancel_right₀ value hpos.ne'
  · have hlength : (items.length : K) ≠ 0 := by
      rw [Nat.cast_ne_zero]
      exact fun hzero => hne (List.length_eq_zero_iff.mp hzero)
    have hsum : (items.map (Prod.fst ∘ fun item => (value, item.2))).sum = items.length * value := by
      have hconst : (Prod.fst ∘ fun item : K × K => (value, item.2)) = fun _ => value := rfl
      rw [hconst, List.map_const', List.sum_replicate, nsmul_eq_mul]
    rw [hsum, mul_div_cancel_left₀ value hlength]

theorem le_mean (hne : items ≠ []) (hweights : ∀ item ∈ items, 0 ≤ item.2) {low : K}
    (hlow : ∀ item ∈ items, low ≤ item.1) : low ≤ mean items := by
  have hatMost : AtMost (items.map fun item => (low, item.2)) items := by
    rw [AtMost, List.forall₂_map_left_iff, List.forall₂_same]
    exact fun item hitem => ⟨hlow item hitem, rfl, hweights item hitem⟩
  exact (mean_const hne low).symm.trans_le (mean_le_of_atMost hatMost)

theorem mean_le (hne : items ≠ []) (hweights : ∀ item ∈ items, 0 ≤ item.2) {high : K}
    (hhigh : ∀ item ∈ items, item.1 ≤ high) : mean items ≤ high := by
  have hatMost : AtMost items (items.map fun item => (high, item.2)) := by
    rw [AtMost, List.forall₂_map_right_iff, List.forall₂_same]
    exact fun item hitem => ⟨hhigh item hitem, rfl, hweights item hitem⟩
  exact (mean_le_of_atMost hatMost).trans_eq (mean_const hne high)

end SparkDashboard.Library.WeightedMean
