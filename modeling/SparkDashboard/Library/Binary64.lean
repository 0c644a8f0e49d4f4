import Mathlib.Data.Int.Log
import Mathlib.Data.Rat.Floor
import Mathlib.Tactic.Linarith
import Mathlib.Tactic.Positivity
import SparkDashboard.Library.RelativeError

/-!
# Double-precision numbers

A finite double is a rational that rounding to the nearest one leaves as it is. Zero has
one sign.
-/

namespace Binary64

open RelativeError

def roundHalfEven (q : ℚ) : Int :=
  let below := ⌊q⌋
  let rest := q - below
  if rest < 1 / 2 ∨ (rest = 1 / 2 ∧ below % 2 = 0) then below else below + 1

/-- The power of two the last place of `q` stands for. -/
def lastPlace (q : ℚ) : Int := max (Int.log 2 |q| - 52) (-1074)

/-- The double nearest to `q`, ties to even, whatever its size. -/
def nearestDouble (q : ℚ) : ℚ :=
  if q = 0 then 0 else roundHalfEven (q / 2 ^ lastPlace q) * 2 ^ lastPlace q

theorem two_zpow_pos (e : Int) : (0 : ℚ) < 2 ^ e := zpow_pos two_pos e

theorem floor_le_roundHalfEven (q : ℚ) : ⌊q⌋ ≤ roundHalfEven q := by
  simp only [roundHalfEven]
  split <;> omega

theorem roundHalfEven_le_floor (q : ℚ) : roundHalfEven q ≤ ⌊q⌋ + 1 := by
  simp only [roundHalfEven]
  split <;> omega

@[simp] theorem roundHalfEven_intCast (m : Int) : roundHalfEven m = m := by
  simp [roundHalfEven]

theorem roundHalfEven_le {q : ℚ} {m : Int} (h : q ≤ m) : roundHalfEven q ≤ m := by
  rcases lt_or_eq_of_le h with hlt | heq
  · have hfloor : ⌊q⌋ < m := Int.floor_lt.mpr hlt
    have hround := roundHalfEven_le_floor q
    omega
  · rw [heq, roundHalfEven_intCast]

theorem le_roundHalfEven {q : ℚ} {m : Int} (h : (m : ℚ) ≤ q) : m ≤ roundHalfEven q :=
  (Int.le_floor.mpr h).trans (floor_le_roundHalfEven q)

theorem abs_roundHalfEven_le (q : ℚ) : |roundHalfEven (q / 2 ^ lastPlace q)| ≤ 2 ^ 53 := by
  have hplace := two_zpow_pos (lastPlace q)
  have hbound : |q| ≤ 2 ^ 53 * 2 ^ lastPlace q := by
    have hlog : |q| < 2 ^ (Int.log 2 |q| + 1) := by
      have hlt := Int.lt_zpow_succ_log_self (b := 2) (by omega) |q|
      exact_mod_cast hlt
    refine hlog.le.trans ?_
    rw [← zpow_natCast, ← zpow_add₀ (by norm_num)]
    apply zpow_le_zpow_right₀ (by norm_num)
    have hmax : Int.log 2 |q| - 52 ≤ lastPlace q := le_max_left _ _
    push_cast
    omega
  have hquot : |q / 2 ^ lastPlace q| ≤ 2 ^ 53 := by
    rw [abs_div, abs_of_pos hplace, div_le_iff₀ hplace]
    exact hbound
  rw [abs_le] at hquot ⊢
  constructor
  · apply le_roundHalfEven
    push_cast
    exact hquot.1
  · apply roundHalfEven_le
    push_cast
    exact hquot.2

theorem nearestDouble_form (q : ℚ) :
    ∃ m e : Int, |m| ≤ 2 ^ 53 ∧ -1074 ≤ e ∧ nearestDouble q = m * 2 ^ e := by
  by_cases hzero : q = 0
  · refine ⟨0, 0, by norm_num, by norm_num, ?_⟩
    rw [nearestDouble, if_pos hzero, Int.cast_zero, zero_mul]
  · refine ⟨_, lastPlace q, abs_roundHalfEven_le q, le_max_right _ _, ?_⟩
    rw [nearestDouble, if_neg hzero]

theorem lastPlace_cases {m e : Int} (hm : |m| ≤ 2 ^ 53) (he : -1074 ≤ e) (hzero : m ≠ 0) :
    lastPlace (m * 2 ^ e) ≤ e ∨ (lastPlace (m * 2 ^ e) = e + 1 ∧ |m| = 2 ^ 53) := by
  have habs : |(m : ℚ) * 2 ^ e| = |m| * 2 ^ e := by
    rw [abs_mul, abs_of_pos (two_zpow_pos e), Int.cast_abs]
  have hm' : (0 : ℚ) < |m| := by exact_mod_cast abs_pos.mpr hzero
  have hlower : (2 : ℚ) ^ Int.log 2 |(m : ℚ) * 2 ^ e| ≤ |m| * 2 ^ e := by
    rw [← habs]
    have hself := Int.zpow_log_le_self (b := 2) (r := |(m : ℚ) * 2 ^ e|) (by omega)
      (by rw [habs]; exact mul_pos hm' (two_zpow_pos e))
    exact_mod_cast hself
  have hupper : (|m| : ℚ) * 2 ^ e ≤ 2 ^ (53 + e) := by
    rw [zpow_add₀ (by norm_num)]
    exact mul_le_mul_of_nonneg_right (by exact_mod_cast hm) (two_zpow_pos e).le
  have hlog : Int.log 2 |(m : ℚ) * 2 ^ e| ≤ 53 + e := by
    rw [← zpow_le_zpow_iff_right₀ (one_lt_two : (1 : ℚ) < 2)]
    exact hlower.trans (by exact_mod_cast hupper)
  rcases le_or_gt (lastPlace (m * 2 ^ e)) e with hle | hgt
  · exact .inl hle
  · have hplace : lastPlace (m * 2 ^ e) = Int.log 2 |(m : ℚ) * 2 ^ e| - 52 := by
      rw [lastPlace] at hgt ⊢
      omega
    have htop : Int.log 2 |(m : ℚ) * 2 ^ e| = 53 + e := by omega
    refine .inr ⟨by omega, le_antisymm hm ?_⟩
    rw [htop, zpow_add₀ (by norm_num)] at hlower
    have hcancel := le_of_mul_le_mul_right hlower (two_zpow_pos e)
    exact_mod_cast hcancel

theorem exists_whole_at_lastPlace {m e : Int} (hm : |m| ≤ 2 ^ 53) (he : -1074 ≤ e) (hzero : m ≠ 0) :
    ∃ k : Int, (m : ℚ) * 2 ^ e = k * 2 ^ lastPlace (m * 2 ^ e) := by
  rcases lastPlace_cases hm he hzero with hle | ⟨hplace, habs⟩
  · generalize lastPlace (m * 2 ^ e) = p at hle
    refine ⟨m * 2 ^ (e - p).toNat, ?_⟩
    have hpow : (2 : ℚ) ^ e = 2 ^ (e - p).toNat * 2 ^ p := by
      rw [← zpow_natCast, ← zpow_add₀ (by norm_num)]
      congr 1
      omega
    rw [hpow, Int.cast_mul, Int.cast_pow, Int.cast_ofNat, mul_assoc]
  · rw [hplace]
    have heven : m = 2 * (m / 2) := by
      rcases abs_eq (by norm_num) |>.mp habs with hpos | hneg <;> omega
    refine ⟨m / 2, ?_⟩
    rw [zpow_add₀ (by norm_num), zpow_one]
    have hcast : (m : ℚ) = 2 * ((m / 2 : Int) : ℚ) := by exact_mod_cast heven
    rw [hcast]
    ring_nf

theorem nearestDouble_of_form {m e : Int} (hm : |m| ≤ 2 ^ 53) (he : -1074 ≤ e) :
    nearestDouble (m * 2 ^ e) = m * 2 ^ e := by
  by_cases hzero : m = 0
  · rw [hzero, Int.cast_zero, zero_mul, nearestDouble, if_pos rfl]
  · obtain ⟨k, hk⟩ := exists_whole_at_lastPlace hm he hzero
    have hne : (m : ℚ) * 2 ^ e ≠ 0 :=
      mul_ne_zero (Int.cast_ne_zero.mpr hzero) (two_zpow_pos e).ne'
    rw [nearestDouble, if_neg hne]
    generalize lastPlace (m * 2 ^ e) = p at hk
    rw [hk, mul_div_cancel_right₀ _ (two_zpow_pos p).ne', roundHalfEven_intCast]

@[simp] theorem nearestDouble_idem (q : ℚ) : nearestDouble (nearestDouble q) = nearestDouble q := by
  obtain ⟨m, e, hm, he, hform⟩ := nearestDouble_form q
  rw [hform, nearestDouble_of_form hm he]

theorem nearestDouble_intCast {m : Int} (h : |m| ≤ 2 ^ 53) : nearestDouble m = m := by
  have hform := nearestDouble_of_form (e := 0) h (by norm_num)
  rwa [zpow_zero, mul_one] at hform

theorem abs_roundHalfEven_sub_le (q : ℚ) : |roundHalfEven q - q| ≤ 1 / 2 := by
  have hfloor := Int.floor_le q
  have hnext := Int.lt_floor_add_one q
  simp only [roundHalfEven]
  rw [abs_sub_le_iff]
  split
  · rename_i hrest
    have hhalf : q - ⌊q⌋ ≤ 1 / 2 := by
      rcases hrest with hlt | ⟨heq, -⟩
      · exact hlt.le
      · exact heq.le
    constructor <;> linarith
  · rename_i hrest
    have hhalf : 1 / 2 ≤ q - ⌊q⌋ := not_lt.mp fun hlt => hrest (.inl hlt)
    push_cast
    constructor <;> linarith

def roundHalfAway (q : ℚ) : Int := if 0 ≤ q then ⌊q + 1 / 2⌋ else ⌈q - 1 / 2⌉

theorem abs_roundHalfAway_sub_le (q : ℚ) : |roundHalfAway q - q| ≤ 1 / 2 := by
  rw [roundHalfAway, abs_sub_le_iff]
  split
  · have hfloor := Int.floor_le (q + 1 / 2)
    have hnext := Int.lt_floor_add_one (q + 1 / 2)
    constructor <;> linarith
  · have hceil := Int.le_ceil (q - 1 / 2)
    have hnext := Int.ceil_lt_add_one (q - 1 / 2)
    constructor <;> linarith

theorem roundHalfAway_nonneg {q : ℚ} (h : 0 ≤ q) : 0 ≤ roundHalfAway q := by
  rw [roundHalfAway, if_pos h]
  exact Int.floor_nonneg.mpr (by linarith)

section Normal

variable {q : ℚ}

/-- A number of normal size fills the 53 places of a double. -/
theorem le_div_lastPlace (h : 2 ^ (-1022 : Int) ≤ q) : 2 ^ 52 ≤ q / 2 ^ lastPlace q := by
  have hq : 0 < q := (two_zpow_pos _).trans_le h
  have hself : (2 : ℚ) ^ Int.log 2 q ≤ q := by
    have hself := Int.zpow_log_le_self (b := 2) (r := q) (by omega) hq
    exact_mod_cast hself
  have hlog : -1022 ≤ Int.log 2 q := by
    rw [← Int.zpow_le_iff_le_log (by omega) hq]
    exact_mod_cast h
  have hplace : lastPlace q = Int.log 2 q - 52 := by
    rw [lastPlace, abs_of_pos hq]
    omega
  rw [le_div_iff₀ (two_zpow_pos _), hplace, ← zpow_natCast, ← zpow_add₀ (by norm_num)]
  refine le_trans ?_ hself
  apply zpow_le_zpow_right₀ (by norm_num)
  push_cast
  omega

theorem nearestDouble_le (h : 2 ^ (-1022 : Int) ≤ q) : nearestDouble q ≤ (1 + 1 / 2 ^ 53) * q := by
  have hfull := le_div_lastPlace h
  have hround := (abs_sub_le_iff.mp (abs_roundHalfEven_sub_le (q / 2 ^ lastPlace q))).1
  have hq : q ≠ 0 := ((two_zpow_pos _).trans_le h).ne'
  rw [nearestDouble, if_neg hq, ← le_div_iff₀ (two_zpow_pos _), mul_div_assoc]
  linarith

theorem le_nearestDouble (h : 2 ^ (-1022 : Int) ≤ q) : q ≤ (1 + 1 / 2 ^ 53) * nearestDouble q := by
  have hfull : (2 : ℚ) ^ 52 ≤ roundHalfEven (q / 2 ^ lastPlace q) := by
    have hwhole := le_roundHalfEven (m := 2 ^ 52) (by exact_mod_cast le_div_lastPlace h)
    exact_mod_cast hwhole
  have hround := (abs_sub_le_iff.mp (abs_roundHalfEven_sub_le (q / 2 ^ lastPlace q))).2
  have hq : q ≠ 0 := ((two_zpow_pos _).trans_le h).ne'
  rw [nearestDouble, if_neg hq, ← mul_assoc, ← div_le_iff₀ (two_zpow_pos _)]
  linarith

end Normal

section Rounded

variable {k : Nat} {x y : ℚ}

/-- What `k` roundings can make of a number. -/
abbrev Rounded (k : Nat) (x y : ℚ) : Prop := Within (1 / 2 ^ 53) k x y

theorem pow_roundoff_le (h : k ≤ 5) : (1 + 1 / 2 ^ 53 : ℚ) ^ k ≤ 1 + 1 / 2 ^ 50 :=
  (pow_le_pow_right₀ (by norm_num) h).trans (by norm_num)

/-- Below this the places of a double run out. -/
theorem smallest_le : (2 : ℚ) ^ (-1022 : Int) ≤ 1 / 2 ^ 128 := by
  rw [one_div, ← zpow_natCast, ← zpow_neg]
  exact zpow_le_zpow_right₀ (by norm_num) (by norm_num)

theorem nearestDouble_within (h : x = 0 ∨ 2 ^ (-1022 : Int) ≤ x) : Rounded 1 (nearestDouble x) x := by
  rw [Rounded, Within, pow_one]
  rcases h with rfl | h
  · rw [nearestDouble, if_pos rfl, mul_zero]
    exact ⟨le_rfl, le_rfl⟩
  · exact ⟨nearestDouble_le h, le_nearestDouble h⟩

/-- A computation rounded once more. The number is far from the smallest doubles. -/
theorem Rounded.again (h : Rounded k x y) (hk : k ≤ 5) (hsize : y = 0 ∨ 1 / 2 ^ 100 ≤ y) :
    Rounded (1 + k) (nearestDouble x) y := by
  refine Within.trans (by norm_num) (nearestDouble_within ?_) h
  have hpow := pow_roundoff_le hk
  rcases hsize with rfl | hsize
  · left
    have hx : 0 ≤ x := h.nonneg (by norm_num) le_rfl
    obtain ⟨hle, -⟩ := h
    rw [mul_zero] at hle
    exact le_antisymm hle hx
  · right
    have hx : 0 ≤ x := h.nonneg (by norm_num) (le_trans (by positivity) hsize)
    have hdouble : 1 / 2 ^ 100 ≤ 2 * x := by
      refine hsize.trans (h.2.trans (mul_le_mul_of_nonneg_right (hpow.trans ?_) hx))
      norm_num
    refine smallest_le.trans ?_
    linarith

theorem natCast_size (n : Nat) : (n : ℚ) = 0 ∨ 1 ≤ (n : ℚ) := by
  cases n with
  | zero => exact .inl rfl
  | succ n => exact .inr (by exact_mod_cast Nat.le_add_left 1 n)

theorem nearestDouble_natCast_within (n : Nat) : Rounded 1 (nearestDouble n) n :=
  nearestDouble_within ((natCast_size n).imp_right fun h => smallest_le.trans (le_trans (by norm_num) h))

end Rounded

theorem exists_whole_tenth {m e : Int} {n : Nat} (h : -(n : Int) ≤ e) :
    ∃ k : Int, (m : ℚ) * 2 ^ e / 10 ^ (-(n : Int)) = k := by
  refine ⟨m * 2 ^ (e + n).toNat * 5 ^ n, ?_⟩
  have hpow : (2 : ℚ) ^ (e + n).toNat = 2 ^ e * 2 ^ n := by
    rw [← zpow_natCast, ← zpow_natCast, ← zpow_add₀ (by norm_num)]
    congr 1
    omega
  have hten : (10 : ℚ) ^ n = 2 ^ n * 5 ^ n := by
    rw [← mul_pow]
    norm_num
  rw [zpow_neg, zpow_natCast, div_inv_eq_mul, hten]
  push_cast
  rw [hpow]
  ring

/-- Every double is a whole number of `10 ^ -1074`. -/
theorem nearestDouble_whole (q : ℚ) : ∃ k : Int, nearestDouble q / 10 ^ (-1074 : Int) = k := by
  obtain ⟨m, e, -, he, hform⟩ := nearestDouble_form q
  rw [hform]
  exact exists_whole_tenth (n := 1074) he

end Binary64
