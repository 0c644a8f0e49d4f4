import Mathlib.Data.List.Sort
import Mathlib.Data.List.Destutter

/-!
# Sorting and dropping repeats

A list sorted and then rid of equal neighbours is the ascending list of its values.
-/

namespace SparkDashboard.Library

variable {α : Type*} [LinearOrder α]

def sortDedup (values : List α) : List α := (values.insertionSort (· ≤ ·)).destutter (· ≠ ·)

theorem sortDedup_eq_dedup (values : List α) : sortDedup values = (values.insertionSort (· ≤ ·)).dedup :=
  (List.pairwise_insertionSort (· ≤ ·) values).destutter_eq_dedup

@[simp] theorem mem_sortDedup {values : List α} {value : α} : value ∈ sortDedup values ↔ value ∈ values := by
  rw [sortDedup_eq_dedup, List.mem_dedup]
  exact (List.perm_insertionSort _ values).mem_iff

theorem pairwise_sortDedup (values : List α) : (sortDedup values).Pairwise (· < ·) := by
  have hsorted : (sortDedup values).Pairwise (· ≤ ·) :=
    (List.pairwise_insertionSort (· ≤ ·) values).sublist (List.destutter_sublist _ _)
  have hnodup : (sortDedup values).Nodup := by
    rw [sortDedup_eq_dedup]
    exact List.nodup_dedup _
  exact hsorted.imp₂ (fun _ _ hle hne => lt_of_le_of_ne hle hne) hnodup

end SparkDashboard.Library
