import Mathlib.Data.List.Sort

/-!
# Sorting by a key

A stable sort. Where no two values have one key, the order they come in does not matter.
-/

namespace SparkDashboard.Library

variable {α β : Type*} [LinearOrder β] (key : α → β)

def sortByKey (values : List α) : List α := values.insertionSort fun a b => key a ≤ key b

theorem perm_sortByKey (values : List α) : (sortByKey key values).Perm values := List.perm_insertionSort _ values

@[simp] theorem mem_sortByKey {values : List α} {value : α} : value ∈ sortByKey key values ↔ value ∈ values :=
  (perm_sortByKey key values).mem_iff

theorem pairwise_sortByKey (values : List α) : (sortByKey key values).Pairwise fun a b => key a ≤ key b := by
  have htotal : Std.Total fun a b => key a ≤ key b := ⟨fun a b => le_total (key a) (key b)⟩
  have htrans : IsTrans α fun a b => key a ≤ key b := ⟨fun _ _ _ => le_trans⟩
  exact List.pairwise_insertionSort _ values

theorem sortByKey_eq_of_perm {values others : List α} (h : values.Perm others) (hdistinct : (values.map key).Nodup) :
    sortByKey key values = sortByKey key others := by
  have hperm : (sortByKey key values).Perm (sortByKey key others) :=
    (perm_sortByKey key values).trans (h.trans (perm_sortByKey key others).symm)
  refine List.Perm.eq_of_pairwise ?_ (pairwise_sortByKey key values) (pairwise_sortByKey key others) hperm
  intro a b ha hb hab hba
  have hb' : b ∈ values := h.mem_iff.mpr ((mem_sortByKey key).mp hb)
  exact List.inj_on_of_nodup_map hdistinct ((mem_sortByKey key).mp ha) hb' (le_antisymm hab hba)

end SparkDashboard.Library
