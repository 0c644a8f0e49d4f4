import Mathlib.Data.List.Iterate
import Mathlib.Data.List.Rotate

/-!
# Stepping round a list

A step that takes each place of a list to the next one, and the last to the first. As many
steps as the list is long go once through all of it.
-/

namespace SparkDashboard.Library.RoundRobin

universe u

variable {α : Type u}

/-- From every place the step leads to the next, and from the last to the first. -/
def StepsRound (step : α → α) (l : List α) : Prop :=
  ∀ i x, l[i]? = some x → l[(i + 1) % l.length]? = some (step x)

variable {step : α → α} {l : List α}

theorem getElem?_iterate (h : StepsRound step l) {i : Nat} {x : α} (hx : l[i]? = some x) (k : Nat) :
    l[(i + k) % l.length]? = some (step^[k] x) := by
  induction k with
  | zero =>
    have hi : i < l.length := (List.getElem?_eq_some_iff.mp hx).1
    rw [Nat.add_zero, Nat.mod_eq_of_lt hi]
    exact hx
  | succ k ih =>
    rw [Function.iterate_succ_apply']
    have hnext := h _ _ ih
    rwa [Nat.mod_add_mod] at hnext

theorem iterate_eq_rotate (h : StepsRound step l) {i : Nat} {x : α} (hx : l[i]? = some x) :
    List.iterate step x l.length = l.rotate i := by
  have hi : i < l.length := (List.getElem?_eq_some_iff.mp hx).1
  apply List.ext_getElem?
  intro k
  by_cases hk : k < l.length
  · have hiterate := getElem?_iterate h hx k
    rw [List.getElem?_eq_getElem (by rwa [List.length_iterate]), List.getElem_iterate,
      List.getElem?_rotate hk, Nat.add_comm k i, hiterate]
  · rw [List.getElem?_eq_none (by rw [List.length_iterate]; omega),
      List.getElem?_eq_none (by rw [List.length_rotate]; omega)]

theorem mem_iterate (h : StepsRound step l) {x : α} (hx : x ∈ l) (k : Nat) : step^[k] x ∈ l := by
  obtain ⟨i, hi⟩ := List.mem_iff_getElem?.mp hx
  exact List.mem_of_getElem? (getElem?_iterate h hi k)

/-- Any run of as many steps as the list is long goes once through the list. -/
theorem iterate_perm (h : StepsRound step l) {x : α} (hx : x ∈ l) (k : Nat) :
    (List.iterate step (step^[k] x) l.length).Perm l := by
  obtain ⟨i, hi⟩ := List.mem_iff_getElem?.mp (mem_iterate h hx k)
  rw [iterate_eq_rotate h hi]
  exact List.rotate_perm l i

theorem iterate_length (h : StepsRound step l) {x : α} (hx : x ∈ l) : step^[l.length] x = x := by
  obtain ⟨i, hi⟩ := List.mem_iff_getElem?.mp hx
  have hround := getElem?_iterate h hi l.length
  rw [Nat.add_mod_right, Nat.mod_eq_of_lt (List.getElem?_eq_some_iff.mp hi).1, hi] at hround
  exact (Option.some.inj hround).symm

end SparkDashboard.Library.RoundRobin
