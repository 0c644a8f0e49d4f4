import Mathlib.Algebra.Order.Field.Basic
import Mathlib.Tactic.FieldSimp
import Mathlib.Tactic.Linarith
import Mathlib.Tactic.Positivity
import Mathlib.Tactic.Ring

/-!
# Rising piecewise linear curves

A curve that starts at `(x, y)` and runs straight from point to point, its value at
an abscissa and the first abscissa at which it reaches a height.
-/

namespace SparkDashboard.Library.MonotoneCurve

variable {𝕜 : Type*}

def last (x y : 𝕜) (points : List (𝕜 × 𝕜)) : 𝕜 × 𝕜 := points.getLastD (x, y)

@[simp] theorem last_cons (x y : 𝕜) (p : 𝕜 × 𝕜) (rest : List (𝕜 × 𝕜)) :
    last x y (p :: rest) = last p.1 p.2 rest := by
  rw [last, List.getLastD_cons]
  rfl

theorem getLast?_eq_last {points : List (𝕜 × 𝕜)} (hne : points ≠ []) (x y : 𝕜) :
    points.getLast? = some (last x y points) := by
  rw [last, List.getLastD_eq_getLast?, List.getLast?_eq_some_getLast hne, Option.getD_some]

variable [LinearOrder 𝕜]

inductive Rises : 𝕜 → 𝕜 → List (𝕜 × 𝕜) → Prop
  | start (x y : 𝕜) : Rises x y []
  | point {x y x' y' : 𝕜} {rest : List (𝕜 × 𝕜)} (hx : x < x') (hy : y ≤ y')
      (hrest : Rises x' y' rest) : Rises x y ((x', y') :: rest)

theorem last_ge {x y : 𝕜} {points : List (𝕜 × 𝕜)} (hrise : Rises x y points) :
    x ≤ (last x y points).1 ∧ y ≤ (last x y points).2 := by
  induction hrise with
  | start x y => exact ⟨le_refl x, le_refl y⟩
  | point hx hy _ ih =>
    rw [last_cons]
    exact ⟨hx.le.trans ih.1, hy.trans ih.2⟩

theorem le_last {x y : 𝕜} {points : List (𝕜 × 𝕜)} (hrise : Rises x y points) {p : 𝕜 × 𝕜}
    (hp : p ∈ points) : p.1 ≤ (last x y points).1 := by
  induction hrise with
  | start x y => cases hp
  | point hx hy hrest ih =>
    rw [last_cons]
    rcases List.mem_cons.mp hp with rfl | hp
    · exact (last_ge hrest).1
    · exact ih hp

/-- What comes after some of a rising curve's points rises from the last of them. -/
theorem rises_append {x y : 𝕜} {before after : List (𝕜 × 𝕜)} (h : Rises x y (before ++ after)) :
    Rises (last x y before).1 (last x y before).2 after := by
  induction before generalizing x y with
  | nil => exact h
  | cons p before ih =>
    cases h with
    | point _ _ hrest =>
      rw [last_cons]
      exact ih hrest

variable [Field 𝕜]

/-- The value at `t`, flat past the last point. -/
def valueAt (t : 𝕜) : 𝕜 → 𝕜 → List (𝕜 × 𝕜) → 𝕜
  | _, y, [] => y
  | x, y, (x', y') :: rest =>
    if t ≤ x' then y + (t - x) / (x' - x) * (y' - y) else valueAt t x' y' rest

/-- Where the curve reaches `h`, its last abscissa when it never does. -/
def reaching (h : 𝕜) : 𝕜 → 𝕜 → List (𝕜 × 𝕜) → 𝕜
  | x, _, [] => x
  | x, y, (x', y') :: rest =>
    if h ≤ y' then
      if y' ≤ y then x' else x + (h - y) / (y' - y) * (x' - x)
    else reaching h x' y' rest

theorem valueAt_of_le {t x' : 𝕜} (ht : t ≤ x') (x y y' : 𝕜) (rest : List (𝕜 × 𝕜)) :
    valueAt t x y ((x', y') :: rest) = y + (t - x) / (x' - x) * (y' - y) := if_pos ht

theorem valueAt_of_lt {t x' : 𝕜} (ht : x' < t) (x y y' : 𝕜) (rest : List (𝕜 × 𝕜)) :
    valueAt t x y ((x', y') :: rest) = valueAt t x' y' rest := if_neg (not_le.mpr ht)

theorem reaching_of_le {h y y' : 𝕜} (hh : h ≤ y') (hy : y < y') (x x' : 𝕜) (rest : List (𝕜 × 𝕜)) :
    reaching h x y ((x', y') :: rest) = x + (h - y) / (y' - y) * (x' - x) := by
  rw [reaching, if_pos hh, if_neg (not_le.mpr hy)]

theorem reaching_of_flat {h y y' : 𝕜} (hh : h ≤ y') (hy : y' ≤ y) (x x' : 𝕜)
    (rest : List (𝕜 × 𝕜)) : reaching h x y ((x', y') :: rest) = x' := by
  rw [reaching, if_pos hh, if_pos hy]

theorem reaching_of_lt {h y' : 𝕜} (hh : y' < h) (x y x' : 𝕜) (rest : List (𝕜 × 𝕜)) :
    reaching h x y ((x', y') :: rest) = reaching h x' y' rest := if_neg (not_le.mpr hh)

theorem reaching_of_reached {h : 𝕜} {p : 𝕜 × 𝕜} (hp : h ≤ p.2) (x y : 𝕜) (rest : List (𝕜 × 𝕜)) :
    reaching h x y (p :: rest) = reaching h x y [p] := by
  rw [reaching, if_pos hp, reaching, if_pos hp]

theorem reaching_append {h : 𝕜} {before : List (𝕜 × 𝕜)} (hbefore : ∀ p ∈ before, p.2 < h) (x y : 𝕜)
    (after : List (𝕜 × 𝕜)) :
    reaching h x y (before ++ after) = reaching h (last x y before).1 (last x y before).2 after := by
  induction before generalizing x y with
  | nil => rfl
  | cons p before ih =>
    have hp := hbefore p List.mem_cons_self
    rw [List.cons_append, reaching_of_lt hp, last_cons]
    exact ih (fun r hr => hbefore r (List.mem_cons_of_mem p hr)) p.1 p.2

theorem reaching_of_never {h : 𝕜} {points : List (𝕜 × 𝕜)} (hnever : ∀ p ∈ points, p.2 < h) (x y : 𝕜) :
    reaching h x y points = (last x y points).1 := by
  have happend := reaching_append hnever x y []
  rw [List.append_nil] at happend
  exact happend

variable [IsStrictOrderedRing 𝕜] {x y : 𝕜} {points : List (𝕜 × 𝕜)}

theorem share_nonneg {a b c : 𝕜} (hab : a ≤ b) (hac : a < c) : 0 ≤ (b - a) / (c - a) :=
  div_nonneg (sub_nonneg.mpr hab) (sub_pos.mpr hac).le

theorem share_le_one {a b c : 𝕜} (hbc : b ≤ c) (hac : a < c) : (b - a) / (c - a) ≤ 1 :=
  (div_le_one (sub_pos.mpr hac)).mpr (sub_le_sub_right hbc a)

theorem share_mono {a b b' c : 𝕜} (hbb : b ≤ b') (hac : a < c) :
    (b - a) / (c - a) ≤ (b' - a) / (c - a) :=
  div_le_div_of_nonneg_right (sub_le_sub_right hbb a) (sub_pos.mpr hac).le

theorem between_of_share {s lo hi : 𝕜} (h0 : 0 ≤ s) (h1 : s ≤ 1) (hlh : lo ≤ hi) :
    lo ≤ lo + s * (hi - lo) ∧ lo + s * (hi - lo) ≤ hi := by
  have hgap : 0 ≤ hi - lo := sub_nonneg.mpr hlh
  have hbelow : s * (hi - lo) ≤ 1 * (hi - lo) := mul_le_mul_of_nonneg_right h1 hgap
  constructor
  · exact le_add_of_nonneg_right (mul_nonneg h0 hgap)
  · linarith

theorem along_mono {s s' lo hi : 𝕜} (hss : s ≤ s') (hlh : lo ≤ hi) :
    lo + s * (hi - lo) ≤ lo + s' * (hi - lo) :=
  add_le_add_right (mul_le_mul_of_nonneg_right hss (sub_nonneg.mpr hlh)) lo

theorem valueAt_between (hrise : Rises x y points) {t : 𝕜} (ht : x ≤ t) :
    y ≤ valueAt t x y points ∧ valueAt t x y points ≤ (last x y points).2 := by
  induction hrise with
  | start x y => exact ⟨le_refl y, le_refl y⟩
  | @point x y x' y' rest hx hy hrest ih =>
    rw [last_cons]
    rcases le_or_gt t x' with htx | htx
    · rw [valueAt_of_le htx]
      have hpiece := between_of_share (share_nonneg ht hx) (share_le_one htx hx) hy
      exact ⟨hpiece.1, hpiece.2.trans (last_ge hrest).2⟩
    · rw [valueAt_of_lt htx]
      have htail := ih htx.le
      exact ⟨hy.trans htail.1, htail.2⟩

theorem valueAt_mono (hrise : Rises x y points) {t t' : 𝕜} (ht : x ≤ t) (htt : t ≤ t') :
    valueAt t x y points ≤ valueAt t' x y points := by
  induction hrise with
  | start x y => exact le_refl y
  | @point x y x' y' rest hx hy hrest ih =>
    rcases le_or_gt t' x' with htx' | htx'
    · rw [valueAt_of_le htx', valueAt_of_le (htt.trans htx')]
      exact along_mono (share_mono htt hx) hy
    rw [valueAt_of_lt htx']
    rcases le_or_gt t x' with htx | htx
    · -- The pieces differ: the point between them separates the two values.
      rw [valueAt_of_le htx]
      have hpiece := between_of_share (share_nonneg ht hx) (share_le_one htx hx) hy
      exact hpiece.2.trans (valueAt_between hrest htx'.le).1
    · rw [valueAt_of_lt htx]
      exact ih htx.le

theorem reaching_between (hrise : Rises x y points) {h : 𝕜} (hh : y ≤ h) :
    x ≤ reaching h x y points ∧ reaching h x y points ≤ (last x y points).1 := by
  induction hrise with
  | start x y => exact ⟨le_refl x, le_refl x⟩
  | @point x y x' y' rest hx hy hrest ih =>
    rw [last_cons]
    rcases le_or_gt h y' with hhy | hhy
    · rcases le_or_gt y' y with hflat | hup
      · rw [reaching_of_flat hhy hflat]
        exact ⟨hx.le, (last_ge hrest).1⟩
      · rw [reaching_of_le hhy hup]
        have hpiece := between_of_share (share_nonneg hh hup) (share_le_one hhy hup) hx.le
        exact ⟨hpiece.1, hpiece.2.trans (last_ge hrest).1⟩
    · rw [reaching_of_lt hhy]
      have htail := ih hhy.le
      exact ⟨hx.le.trans htail.1, htail.2⟩

theorem reaching_le_point {h x' y' : 𝕜} {rest : List (𝕜 × 𝕜)} (hx : x < x') (hh : y ≤ h)
    (hhy : h ≤ y') : reaching h x y ((x', y') :: rest) ≤ x' := by
  rcases le_or_gt y' y with hflat | hup
  · rw [reaching_of_flat hhy hflat]
  · rw [reaching_of_le hhy hup]
    exact (between_of_share (share_nonneg hh hup) (share_le_one hhy hup) hx.le).2

theorem reaching_mono (hrise : Rises x y points) {h h' : 𝕜} (hh : y ≤ h) (hhh : h ≤ h') :
    reaching h x y points ≤ reaching h' x y points := by
  induction hrise with
  | start x y => exact le_refl x
  | @point x y x' y' rest hx hy hrest ih =>
    rcases le_or_gt h' y' with hhy' | hhy'
    · have hhy : h ≤ y' := hhh.trans hhy'
      rcases le_or_gt y' y with hflat | hup
      · rw [reaching_of_flat hhy hflat, reaching_of_flat hhy' hflat]
      · rw [reaching_of_le hhy hup, reaching_of_le hhy' hup]
        exact along_mono (share_mono hhh hup) hx.le
    rw [reaching_of_lt hhy']
    rcases le_or_gt h y' with hhy | hhy
    · exact (reaching_le_point hx hh hhy).trans (reaching_between hrest hhy'.le).1
    · rw [reaching_of_lt hhy]
      exact ih hhy.le

theorem share_of_along {a b c lo hi : 𝕜} (hac : a < c) (hlh : lo < hi) :
    a + (lo + (b - a) / (c - a) * (hi - lo) - lo) / (hi - lo) * (c - a) = b := by
  have hgap : hi - lo ≠ 0 := (sub_pos.mpr hlh).ne'
  have hwidth : c - a ≠ 0 := (sub_pos.mpr hac).ne'
  field_simp
  ring

theorem valueAt_point {x' y' : 𝕜} (hx : x < x') (rest : List (𝕜 × 𝕜)) :
    valueAt x' x y ((x', y') :: rest) = y' := by
  rw [valueAt_of_le le_rfl, div_self (sub_pos.mpr hx).ne']
  ring

theorem lt_reaching (hrise : Rises x y points) (hne : points ≠ []) {h : 𝕜} (hh : y < h) :
    x < reaching h x y points := by
  cases hrise with
  | start x y => exact absurd rfl hne
  | @point x y x' y' rest hx hy hrest =>
    rcases le_or_gt h y' with hhy | hhy
    · have hup : y < y' := hh.trans_le hhy
      have hshare : 0 < (h - y) / (y' - y) := div_pos (sub_pos.mpr hh) (sub_pos.mpr hup)
      rw [reaching_of_le hhy hup]
      exact lt_add_of_pos_right x (mul_pos hshare (sub_pos.mpr hx))
    · rw [reaching_of_lt hhy]
      exact hx.trans_le (reaching_between hrest hhy.le).1

/-- The curve is at height `h` where it reaches it, and at its last height when it never does. -/
theorem valueAt_reaching (hrise : Rises x y points) (hne : points ≠ []) {h : 𝕜} (hh : y < h) :
    valueAt (reaching h x y points) x y points = min h (last x y points).2 := by
  induction hrise with
  | start x y => exact absurd rfl hne
  | @point x y x' y' rest hx hy hrest ih =>
    rw [last_cons]
    rcases le_or_gt h y' with hhy | hhy
    · have hup : y < y' := hh.trans_le hhy
      rw [valueAt_of_le (reaching_le_point hx hh.le hhy), reaching_of_le hhy hup, share_of_along hup hx,
        min_eq_left (hhy.trans (last_ge hrest).2)]
    · rw [reaching_of_lt hhy]
      rcases rest with _ | ⟨p, rest⟩
      · calc
          valueAt (reaching h x' y' []) x y [(x', y')] = y' := valueAt_point hx []
          _ = min h (last x' y' []).2 := (min_eq_right hhy.le).symm
      · have htail : p :: rest ≠ [] := List.cons_ne_nil p rest
        rw [valueAt_of_lt (lt_reaching hrest htail hhy)]
        exact ih htail hhy

end SparkDashboard.Library.MonotoneCurve
