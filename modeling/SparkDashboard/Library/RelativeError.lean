import Mathlib.Algebra.Order.Field.Basic
import Mathlib.Tactic.Linarith
import Mathlib.Tactic.Positivity

/-!
# Relative errors

How far a computed value can be from the exact one, counted in roundings. Each multiplies or
divides by at most `1 + u`.
-/

namespace RelativeError

variable {α : Type*} [Field α] [LinearOrder α] [IsStrictOrderedRing α]

def Within (u : α) (k : Nat) (x y : α) : Prop := x ≤ (1 + u) ^ k * y ∧ y ≤ (1 + u) ^ k * x

variable {u x y z x' y' : α} {j k : Nat}

theorem Within.trans (hu : 0 ≤ u) (h : Within u j x y) (h' : Within u k y z) : Within u (j + k) x z := by
  have hpow (n : Nat) : 0 ≤ (1 + u) ^ n := by positivity
  constructor
  · calc x ≤ (1 + u) ^ j * y := h.1
      _ ≤ (1 + u) ^ j * ((1 + u) ^ k * z) := mul_le_mul_of_nonneg_left h'.1 (hpow j)
      _ = (1 + u) ^ (j + k) * z := by rw [pow_add, mul_assoc]
  · calc z ≤ (1 + u) ^ k * y := h'.2
      _ ≤ (1 + u) ^ k * ((1 + u) ^ j * x) := mul_le_mul_of_nonneg_left h.2 (hpow k)
      _ = (1 + u) ^ (j + k) * x := by rw [← mul_assoc, ← pow_add, Nat.add_comm]

theorem Within.nonneg (hu : 0 ≤ u) (hy : 0 ≤ y) (h : Within u k x y) : 0 ≤ x :=
  nonneg_of_mul_nonneg_right (hy.trans h.2) (by positivity)

theorem Within.pos (hu : 0 ≤ u) (hy : 0 < y) (h : Within u k x y) : 0 < x :=
  pos_of_mul_pos_right (hy.trans_le h.2) (by positivity)

theorem Within.add (h : Within u k x y) (h' : Within u k x' y') : Within u k (x + x') (y + y') := by
  constructor
  · rw [mul_add]
    exact add_le_add h.1 h'.1
  · rw [mul_add]
    exact add_le_add h.2 h'.2

theorem Within.mul_right {c : α} (hc : 0 ≤ c) (h : Within u k x y) : Within u k (x * c) (y * c) := by
  constructor
  · rw [← mul_assoc]
    exact mul_le_mul_of_nonneg_right h.1 hc
  · rw [← mul_assoc]
    exact mul_le_mul_of_nonneg_right h.2 hc

theorem Within.min_right {c : α} (hu : 0 ≤ u) (hc : 0 ≤ c) (h : Within u k x y) :
    Within u k (min x c) (min y c) := by
  have hpow : 0 ≤ (1 + u) ^ k := by positivity
  have hcap : c ≤ (1 + u) ^ k * c := le_mul_of_one_le_left hc (one_le_pow₀ (by linarith))
  constructor
  · rw [mul_min_of_nonneg _ _ hpow]
    exact min_le_min h.1 hcap
  · rw [mul_min_of_nonneg _ _ hpow]
    exact min_le_min h.2 hcap

theorem Within.inv (hx : 0 < x) (hy : 0 < y) (h : Within u k x y) : Within u k x⁻¹ y⁻¹ := by
  constructor
  · rw [inv_eq_one_div, div_le_iff₀ hx, mul_right_comm, ← div_eq_mul_inv, le_div_iff₀ hy, one_mul]
    exact h.2
  · rw [inv_eq_one_div, div_le_iff₀ hy, mul_right_comm, ← div_eq_mul_inv, le_div_iff₀ hx, one_mul]
    exact h.1

theorem Within.div (hu : 0 ≤ u) (hy : 0 ≤ y) (hx' : 0 < x') (hy' : 0 < y') (h : Within u j x y)
    (h' : Within u k x' y') : Within u (j + k) (x / x') (y / y') := by
  have hnum := h.mul_right (inv_nonneg.mpr hx'.le)
  have hden := (h'.inv hx' hy').mul_right hy
  rw [mul_comm x'⁻¹, mul_comm y'⁻¹] at hden
  rw [div_eq_mul_inv, div_eq_mul_inv]
  exact hnum.trans hu hden

/-- A relative error as an absolute one. -/
theorem Within.abs_sub_le {e : α} (he : e ≤ 1) (hpow : (1 + u) ^ k ≤ 1 + e) (hx : 0 ≤ x) (hy : 0 ≤ y)
    (h : Within u k x y) : |x - y| ≤ e * y := by
  have hover : x ≤ (1 + e) * y := h.1.trans (mul_le_mul_of_nonneg_right hpow hy)
  have hunder : y ≤ (1 + e) * x := h.2.trans (mul_le_mul_of_nonneg_right hpow hx)
  have hscaled : (1 - e) * y ≤ (1 - e) * ((1 + e) * x) := mul_le_mul_of_nonneg_left hunder (by linarith)
  have hsquare : 0 ≤ e ^ 2 * x := mul_nonneg (sq_nonneg e) hx
  rw [abs_sub_le_iff]
  constructor
  · linarith
  · linarith

end RelativeError
