import Mathlib.Data.List.Induction
import Mathlib.Data.List.Pairwise
import Mathlib.Data.List.Nodup

/-!
# The values of a list, each once

A value stays where it first stands. Along a ranked list, a value that stands before
another is that of an item ranked no later than any item of the other.
-/

namespace SparkDashboard.Library.Distinct

universe u v

variable {α : Type u} {β : Type v} [DecidableEq α]

def pushNew (seen : List α) (value : α) : List α := if value ∈ seen then seen else seen ++ [value]

def distinct (values : List α) : List α := values.foldl pushNew []

theorem distinct_append (values : List α) (value : α) :
    distinct (values ++ [value]) = pushNew (distinct values) value := by
  rw [distinct, List.foldl_append]
  rfl

theorem mem_pushNew {seen : List α} {value other : α} : other ∈ pushNew seen value ↔ other ∈ seen ∨ other = value := by
  rw [pushNew]
  split
  · rename_i hmem
    exact ⟨.inl, fun h => h.elim id fun heq => heq ▸ hmem⟩
  · rw [List.mem_append, List.mem_singleton]

theorem mem_distinct {values : List α} {value : α} : value ∈ distinct values ↔ value ∈ values := by
  induction values using List.reverseRecOn with
  | nil => exact Iff.rfl
  | append_singleton values last ih => rw [distinct_append, mem_pushNew, ih, List.mem_append, List.mem_singleton]

theorem nodup_distinct (values : List α) : (distinct values).Nodup := by
  induction values using List.reverseRecOn with
  | nil => exact List.nodup_nil
  | append_singleton values last ih =>
    rw [distinct_append, pushNew]
    split
    · exact ih
    · rename_i hnew
      exact List.nodup_append.mpr ⟨ih, List.nodup_singleton last, fun a ha b hb heq =>
        hnew (List.mem_singleton.mp hb ▸ heq ▸ ha)⟩

/-- Every item of the second value has one of the first before it or level with it. -/
def Leads (rank : β → β → Prop) (f : β → α) (items : List β) (value other : α) : Prop :=
  ∀ item' ∈ items, f item' = other → ∃ item ∈ items, f item = value ∧ rank item item'

theorem pairwise_distinct {rank : β → β → Prop} (htrans : ∀ a b c, rank a b → rank b c → rank a c) {f : β → α}
    {items : List β} (h : items.Pairwise rank) : (distinct (items.map f)).Pairwise (Leads rank f items) := by
  induction items using List.reverseRecOn with
  | nil => exact List.Pairwise.nil
  | append_singleton items last ih =>
    rw [List.pairwise_append] at h
    obtain ⟨hitems, _, hlast⟩ := h
    have hle : ∀ item ∈ items, rank item last := fun item hitem => hlast item hitem last (List.mem_singleton_self last)
    have hold : (distinct (items.map f)).Pairwise (Leads rank f (items ++ [last])) := by
      apply (ih hitems).imp_of_mem
      intro value other hvalue hother hleads item' hitem' heq
      rcases List.mem_append.mp hitem' with hitem' | hitem'
      · obtain ⟨item, hitem, hrest⟩ := hleads item' hitem' heq
        exact ⟨item, List.mem_append_left _ hitem, hrest⟩
      · -- the last item gives `other` again: an earlier one did
        rw [List.mem_singleton] at hitem'
        obtain ⟨earlier, hearlier, hvalue'⟩ := List.mem_map.mp (mem_distinct.mp hother)
        obtain ⟨item, hitem, heq', hrank⟩ := hleads earlier hearlier hvalue'
        exact ⟨item, List.mem_append_left _ hitem, heq', hitem' ▸ htrans _ _ _ hrank (hle earlier hearlier)⟩
    rw [List.map_append, List.map_singleton, distinct_append, pushNew]
    split
    · exact hold
    · rename_i hnew
      refine List.pairwise_append.mpr ⟨hold, List.pairwise_singleton _ _, ?_⟩
      intro value hvalue other hother item' hitem' heq
      rw [List.mem_singleton] at hother
      obtain ⟨item, hitem, heq'⟩ := List.mem_map.mp (mem_distinct.mp hvalue)
      refine ⟨item, List.mem_append_left _ hitem, heq', ?_⟩
      rcases List.mem_append.mp hitem' with hitem' | hitem'
      · exact absurd (mem_distinct.mpr (List.mem_map.mpr ⟨item', hitem', heq.trans hother⟩)) hnew
      · exact List.mem_singleton.mp hitem' ▸ hle item hitem

/-- Where no two items share a key, a look-up finds all that have it. -/
theorem filter_key_eq_toList_find? {key : β → α} {items : List β} (h : (items.map key).Nodup) (k : α) :
    (items.filter fun item => key item = k) = (items.find? fun item => key item = k).toList := by
  induction items with
  | nil => rfl
  | cons item items ih =>
    rw [List.map_cons, List.nodup_cons] at h
    by_cases hkey : key item = k
    · rw [List.filter_cons_of_pos (by simp [hkey]), List.find?_cons_of_pos (by simp [hkey])]
      have hnone : (items.filter fun item => key item = k) = [] := by
        rw [List.filter_eq_nil_iff]
        intro other hother heq
        exact h.1 (List.mem_map.mpr ⟨other, hother, (of_decide_eq_true heq).trans hkey.symm⟩)
      rw [hnone]
      rfl
    · rw [List.filter_cons_of_neg (by simp [hkey]), List.find?_cons_of_neg (by simp [hkey]), ih h.2]

theorem filter_key_eq_singleton {key : β → α} {items : List β} (h : (items.map key).Nodup) {item : β}
    (hmem : item ∈ items) : (items.filter fun other => key other = key item) = [item] := by
  rw [filter_key_eq_toList_find? h]
  cases hfind : items.find? fun other => key other = key item with
  | none => exact absurd (decide_eq_true rfl) (List.find?_eq_none.mp hfind item hmem)
  | some found =>
    have hsame := List.find?_some hfind
    rw [Option.toList_some,
      List.inj_on_of_nodup_map h (List.mem_of_find?_eq_some hfind) hmem (of_decide_eq_true hsame)]

end SparkDashboard.Library.Distinct
