import Mathlib.Data.List.Basic

/-!
# Bitmaps

Bits set by lists of indices, and the first element of an ordered list with a property.
-/

namespace SparkDashboard.Library.Bitmap

def setAll (bits : List Bool) (indices : List Nat) : List Bool := indices.foldl (fun bits i => bits.set i true) bits

theorem length_setAll (bits : List Bool) (indices : List Nat) : (setAll bits indices).length = bits.length := by
  induction indices generalizing bits with
  | nil => rfl
  | cons i indices ih =>
    change (setAll (bits.set i true) indices).length = bits.length
    rw [ih, List.length_set]

theorem getD_setAll {bits : List Bool} {i : Nat} (hi : i < bits.length) (indices : List Nat) :
    (setAll bits indices).getD i false = (bits.getD i false || decide (i ∈ indices)) := by
  induction indices generalizing bits with
  | nil => simp [setAll]
  | cons j indices ih =>
    have hset : i < (bits.set j true).length := by
      rw [List.length_set]
      exact hi
    change (setAll (bits.set j true) indices).getD i false = _
    rw [ih hset]
    by_cases hij : j = i
    · subst hij
      simp [List.getD_eq_getElem?_getD, hi]
    · have hji : i ≠ j := Ne.symm hij
      simp [List.getD_eq_getElem?_getD, hij, hji]

theorem getD_foldl_setAll {α : Type*} (indicesOf : α → List Nat) (items : List α) {bits : List Bool} {i : Nat}
    (hi : i < bits.length) :
    (items.foldl (fun bits a => setAll bits (indicesOf a)) bits).getD i false = true ↔
      bits.getD i false = true ∨ ∃ a ∈ items, i ∈ indicesOf a := by
  induction items generalizing bits with
  | nil => simp
  | cons a items ih =>
    have hset : i < (setAll bits (indicesOf a)).length := by
      rw [length_setAll]
      exact hi
    rw [List.foldl_cons, ih hset, getD_setAll hi]
    simp [or_assoc]

/-- What is found first comes before everything else that could have been found. -/
theorem find?_first {α : Type*} {p : α → Bool} {l : List α} {r : α → α → Prop} (hordered : l.Pairwise r) {a : α}
    (hfind : l.find? p = some a) {b : α} (hb : b ∈ l) (hp : p b = true) : b = a ∨ r a b := by
  obtain ⟨-, before, after, hl, hbefore⟩ := List.find?_eq_some_iff_append.mp hfind
  rw [hl] at hb hordered
  rcases List.mem_append.mp hb with hb | hb
  · have hnot := hbefore b hb
    rw [hp] at hnot
    cases hnot
  · rcases List.mem_cons.mp hb with rfl | hb
    · exact Or.inl rfl
    · exact Or.inr ((List.pairwise_cons.mp (List.pairwise_append.mp hordered).2.1).1 b hb)

end SparkDashboard.Library.Bitmap
