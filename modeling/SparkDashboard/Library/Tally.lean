import Mathlib.Algebra.BigOperators.Group.List.Basic
import Mathlib.Data.List.Sort

/-!
# Tallies

Amounts added up key by key in a list that holds each key once, and the list sorted
by its keys, which the amounts alone determine.
-/

namespace SparkDashboard.Library.Tally

variable {κ M : Type*} [DecidableEq κ] [AddCommMonoid M]

/-- The amount added to the first entry of its key, or a new entry at the end. -/
def add (entry : κ × M) : List (κ × M) → List (κ × M)
  | [] => [entry]
  | (key, amount) :: rest =>
    if key = entry.1 then (key, amount + entry.2) :: rest else (key, amount) :: add entry rest

def addAll (tally entries : List (κ × M)) : List (κ × M) := entries.foldl (fun t e => add e t) tally

def amountAt (entries : List (κ × M)) (key : κ) : M :=
  ((entries.filter fun e => e.1 = key).map Prod.snd).sum

def keys (entries : List (κ × M)) : List κ := entries.map Prod.fst

@[simp] theorem addAll_nil (tally : List (κ × M)) : addAll tally [] = tally := rfl

@[simp] theorem addAll_cons (tally : List (κ × M)) (e : κ × M) (entries : List (κ × M)) :
    addAll tally (e :: entries) = addAll (add e tally) entries := rfl

theorem addAll_append (tally entries entries' : List (κ × M)) :
    addAll tally (entries ++ entries') = addAll (addAll tally entries) entries' := List.foldl_append

@[simp] theorem amountAt_nil (key : κ) : amountAt ([] : List (κ × M)) key = 0 := rfl

theorem amountAt_cons (e : κ × M) (entries : List (κ × M)) (key : κ) :
    amountAt (e :: entries) key = (if e.1 = key then e.2 else 0) + amountAt entries key := by
  by_cases he : e.1 = key
  · simp [amountAt, he]
  · simp [amountAt, he]

theorem amountAt_perm {entries entries' : List (κ × M)} (h : entries.Perm entries') (key : κ) :
    amountAt entries key = amountAt entries' key :=
  ((h.filter _).map Prod.snd).sum_eq

theorem amountAt_of_not_mem {entries : List (κ × M)} {key : κ} (h : key ∉ keys entries) :
    amountAt entries key = 0 := by
  induction entries with
  | nil => rfl
  | cons e entries ih =>
    have hne : key ≠ e.1 := List.ne_of_not_mem_cons h
    have hrest : key ∉ keys entries := List.not_mem_of_not_mem_cons h
    rw [amountAt_cons, if_neg (Ne.symm hne), ih hrest, zero_add]

/-- In a tally each entry holds its key's whole amount. -/
theorem amountAt_of_mem {tally : List (κ × M)} (hnodup : (keys tally).Nodup) {e : κ × M}
    (he : e ∈ tally) : amountAt tally e.1 = e.2 := by
  induction tally with
  | nil => cases he
  | cons first rest ih =>
    obtain ⟨hfirst, hrest⟩ := List.nodup_cons.mp hnodup
    rw [amountAt_cons]
    rcases List.mem_cons.mp he with rfl | he
    · rw [if_pos rfl, amountAt_of_not_mem hfirst, add_zero]
    · have hne : first.1 ≠ e.1 := by
        intro heq
        rw [heq] at hfirst
        exact hfirst (List.mem_map_of_mem he)
      rw [if_neg hne, ih hrest he, zero_add]

theorem mem_iff_amountAt {tally : List (κ × M)} (hnodup : (keys tally).Nodup) (e : κ × M) :
    e ∈ tally ↔ e.1 ∈ keys tally ∧ amountAt tally e.1 = e.2 := by
  constructor
  · intro he
    exact ⟨List.mem_map_of_mem he, amountAt_of_mem hnodup he⟩
  · rintro ⟨hkey, hamount⟩
    obtain ⟨e', he', heq⟩ := List.mem_map.mp hkey
    have hamount' : amountAt tally e'.1 = e'.2 := amountAt_of_mem hnodup he'
    rw [heq, hamount] at hamount'
    have hsame : e' = e := Prod.ext heq hamount'.symm
    exact hsame ▸ he'

theorem mem_keys_add (e : κ × M) (tally : List (κ × M)) (key : κ) :
    key ∈ keys (add e tally) ↔ key = e.1 ∨ key ∈ keys tally := by
  induction tally with
  | nil => simp [add, keys]
  | cons first rest ih =>
    simp only [add]
    split
    · rename_i heq
      simp [keys, heq]
    · simp only [keys, List.map_cons, List.mem_cons] at ih ⊢
      rw [ih, or_left_comm]

theorem nodup_add {tally : List (κ × M)} (hnodup : (keys tally).Nodup) (e : κ × M) :
    (keys (add e tally)).Nodup := by
  induction tally with
  | nil => exact List.nodup_singleton e.1
  | cons first rest ih =>
    obtain ⟨hfirst, hrest⟩ := List.nodup_cons.mp hnodup
    simp only [add]
    split
    · exact hnodup
    · rename_i hne
      refine List.nodup_cons.mpr ⟨?_, ih hrest⟩
      intro hmem
      rcases (mem_keys_add e rest first.1).mp hmem with heq | hmem
      · exact hne heq
      · exact hfirst hmem

theorem amountAt_add (e : κ × M) (tally : List (κ × M)) (key : κ) :
    amountAt (add e tally) key = amountAt tally key + if e.1 = key then e.2 else 0 := by
  induction tally with
  | nil =>
    simp only [add, amountAt_cons, amountAt_nil]
    exact add_comm _ _
  | cons first rest ih =>
    simp only [add]
    split
    · rename_i heq
      rw [amountAt_cons, amountAt_cons, heq]
      by_cases hkey : e.1 = key
      · rw [if_pos hkey, if_pos hkey, if_pos hkey, add_right_comm]
      · rw [if_neg hkey, if_neg hkey, if_neg hkey, add_zero]
    · rw [amountAt_cons, amountAt_cons, ih, add_assoc]

theorem mem_keys_addAll (tally entries : List (κ × M)) (key : κ) :
    key ∈ keys (addAll tally entries) ↔ key ∈ keys tally ∨ key ∈ keys entries := by
  induction entries generalizing tally with
  | nil => simp [keys]
  | cons e entries ih =>
    have hcons : key ∈ keys (e :: entries) ↔ key = e.1 ∨ key ∈ keys entries := List.mem_cons
    rw [addAll_cons, ih, mem_keys_add, hcons, or_comm (a := key = e.1), or_assoc]

theorem nodup_addAll {tally : List (κ × M)} (hnodup : (keys tally).Nodup) (entries : List (κ × M)) :
    (keys (addAll tally entries)).Nodup := by
  induction entries generalizing tally with
  | nil => exact hnodup
  | cons e entries ih => exact ih (nodup_add hnodup e)

theorem amountAt_addAll (tally entries : List (κ × M)) (key : κ) :
    amountAt (addAll tally entries) key = amountAt tally key + amountAt entries key := by
  induction entries generalizing tally with
  | nil => simp
  | cons e entries ih => rw [addAll_cons, ih, amountAt_add, amountAt_cons, add_assoc]

theorem amountAt_append (entries entries' : List (κ × M)) (key : κ) :
    amountAt (entries ++ entries') key = amountAt entries key + amountAt entries' key := by
  simp [amountAt]

theorem amountAt_flatten (series : List (List (κ × M))) (key : κ) :
    amountAt series.flatten key = (series.map fun entries => amountAt entries key).sum := by
  induction series with
  | nil => rfl
  | cons entries series ih => rw [List.flatten_cons, amountAt_append, ih, List.map_cons, List.sum_cons]

theorem addAll_flatten (tally : List (κ × M)) (series : List (List (κ × M))) :
    series.foldl addAll tally = addAll tally series.flatten := by
  induction series generalizing tally with
  | nil => rfl
  | cons entries series ih => rw [List.foldl_cons, ih, List.flatten_cons, addAll_append]

section Sorted

variable {κ M : Type*} [LinearOrder κ] [AddCommMonoid M]

/-- Stably by key. -/
def sort (entries : List (κ × M)) : List (κ × M) := entries.insertionSort fun a b => a.1 ≤ b.1

omit [AddCommMonoid M] in
theorem sort_perm (entries : List (κ × M)) : (sort entries).Perm entries :=
  List.perm_insertionSort _ entries

omit [AddCommMonoid M] in
theorem ascending_sort {tally : List (κ × M)} (hnodup : (keys tally).Nodup) :
    (sort tally).Pairwise fun a b => a.1 < b.1 := by
  have htotal : Std.Total fun a b : κ × M => a.1 ≤ b.1 := ⟨fun a b => le_total a.1 b.1⟩
  have htrans : IsTrans (κ × M) fun a b => a.1 ≤ b.1 := ⟨fun _ _ _ hab hbc => hab.trans hbc⟩
  have hsorted : (sort tally).Pairwise fun a b => a.1 ≤ b.1 := List.pairwise_insertionSort _ tally
  have hdistinct : (sort tally).Pairwise fun a b => a.1 ≠ b.1 :=
    List.pairwise_map.mp (((sort_perm tally).map Prod.fst).nodup_iff.mpr hnodup)
  exact hsorted.imp₂ (fun a b hle hne => lt_of_le_of_ne hle hne) hdistinct

omit [AddCommMonoid M] in
theorem nodup_of_ascending {tally : List (κ × M)} (h : tally.Pairwise fun a b => a.1 < b.1) :
    (keys tally).Nodup :=
  List.pairwise_map.mpr (h.imp fun hlt => hlt.ne)

/-- Two ascending tallies of the same amounts are one list. -/
theorem eq_of_ascending {tally tally' : List (κ × M)} (h : tally.Pairwise fun a b => a.1 < b.1)
    (h' : tally'.Pairwise fun a b => a.1 < b.1) (hkeys : ∀ key, key ∈ keys tally ↔ key ∈ keys tally')
    (hamounts : ∀ key, amountAt tally key = amountAt tally' key) : tally = tally' := by
  have hantisymm : Std.Antisymm fun a b : κ × M => a.1 < b.1 :=
    ⟨fun _ _ hab hba => absurd hba hab.asymm⟩
  have hirrefl : Std.Irrefl fun a b : κ × M => a.1 < b.1 := ⟨fun a => lt_irrefl a.1⟩
  apply List.Pairwise.eq_of_mem_iff h h'
  intro e
  rw [mem_iff_amountAt (nodup_of_ascending h), mem_iff_amountAt (nodup_of_ascending h'), hkeys, hamounts]

end Sorted

end SparkDashboard.Library.Tally
