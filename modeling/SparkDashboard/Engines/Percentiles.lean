import SparkDashboard.Engines.Histogram
import SparkDashboard.Library.MonotoneCurve

/-!
# Percentiles and fractions of a cumulative histogram

A cumulative histogram is a rising curve through its finite buckets: a percentile is
where the curve reaches its share of the total, and a fraction is the curve's height.
-/

namespace SparkDashboard.Engines

open Library MonotoneCurve

/-- What the scrape promises of a histogram's buckets. -/
structure CumulativeBuckets (buckets : List Bucket) : Prop where
  ascending : buckets.Pairwise fun a b => a.1 < b.1
  positive : ∀ b ∈ buckets, 0 < b.1
  nonneg : ∀ b ∈ buckets, 0 ≤ b.2
  nondecreasing : buckets.Pairwise fun a b => a.2 ≤ b.2

def totalCount (buckets : List Bucket) : ℚ := (buckets.getLast?.map Prod.snd).getD 0

def finiteBounds (buckets : List Bucket) : List ℚ := buckets.filterMap finiteBound

def finiteBucket (p : ℚ × ℚ) : Bucket := ((p.1 : WithTop ℚ), p.2)

/-- The buckets are a curve's points and, past them, a final `+Inf` bucket or nothing. -/
structure Traces (x y : ℚ) (points : List (ℚ × ℚ)) (overflow buckets : List Bucket) : Prop where
  buckets_eq : buckets = points.map finiteBucket ++ overflow
  rises : Rises x y points
  overflow_cases : overflow = [] ∨ ∃ cum, overflow = [((⊤ : WithTop ℚ), cum)] ∧ (last x y points).2 ≤ cum

theorem exists_traces {buckets : List Bucket} {x y : ℚ}
    (hascending : buckets.Pairwise fun a b => a.1 < b.1)
    (hnondecreasing : buckets.Pairwise fun a b => a.2 ≤ b.2)
    (habove : ∀ b ∈ buckets, (x : WithTop ℚ) < b.1 ∧ y ≤ b.2) :
    ∃ points overflow, Traces x y points overflow buckets := by
  induction buckets generalizing x y with
  | nil => exact ⟨[], [], rfl, Rises.start x y, Or.inl rfl⟩
  | cons b rest ih =>
    obtain ⟨hb, hrest⟩ := List.pairwise_cons.mp hascending
    obtain ⟨hcum, hcums⟩ := List.pairwise_cons.mp hnondecreasing
    have hfirst := habove b (List.mem_cons_self)
    obtain ⟨le, cum⟩ := b
    cases le with
    | top =>
      -- Nothing is above `+Inf`, so it is the last bucket.
      have hnil : rest = [] := List.eq_nil_iff_forall_not_mem.mpr fun c hc => not_top_lt (hb c hc)
      subst hnil
      exact ⟨[], [((⊤ : WithTop ℚ), cum)], rfl, Rises.start x y, Or.inr ⟨cum, rfl, hfirst.2⟩⟩
    | coe le =>
      obtain ⟨points, overflow, heq, hrises, hoverflow⟩ :=
        ih hrest hcums fun c hc => ⟨hb c hc, hcum c hc⟩
      refine ⟨(le, cum) :: points, overflow, ?_, ?_, ?_⟩
      · rw [heq]
        rfl
      · exact Rises.point (WithTop.coe_lt_coe.mp hfirst.1) hfirst.2 hrises
      · rw [last_cons]
        exact hoverflow

theorem CumulativeBuckets.exists_traces {buckets : List Bucket} (h : CumulativeBuckets buckets) :
    ∃ points overflow, Traces 0 0 points overflow buckets :=
  Engines.exists_traces h.ascending h.nondecreasing fun b hb => ⟨h.positive b hb, h.nonneg b hb⟩

@[simp] theorem finiteBound_finiteBucket (p : ℚ × ℚ) : finiteBound (finiteBucket p) = some p.1 := rfl

@[simp] theorem finiteBound_top (cum : ℚ) : finiteBound ((⊤ : WithTop ℚ), cum) = none := rfl

section Traces

variable {x y : ℚ} {points : List (ℚ × ℚ)} {overflow buckets : List Bucket}

theorem finiteBounds_points (points : List (ℚ × ℚ)) :
    (points.map finiteBucket).filterMap finiteBound = points.map Prod.fst := by
  induction points with
  | nil => rfl
  | cons p points ih => simp [ih]

theorem finiteBounds_of_traces (h : Traces x y points overflow buckets) :
    finiteBounds buckets = points.map Prod.fst := by
  have hover : overflow.filterMap finiteBound = [] := by
    rcases h.overflow_cases with hnil | ⟨cum, htop, _⟩
    · rw [hnil]
      rfl
    · rw [htop]
      rfl
  rw [finiteBounds, h.buckets_eq, List.filterMap_append, finiteBounds_points, hover, List.append_nil]

theorem max?_of_rises (hrise : Rises x y points) (hne : points ≠ []) :
    (points.map Prod.fst).max? = some (last x y points).1 := by
  rw [List.max?_eq_some_iff]
  constructor
  · exact List.mem_map_of_mem (List.mem_of_getLast? (getLast?_eq_last hne x y))
  · intro bound hbound
    obtain ⟨p, hp, rfl⟩ := List.mem_map.mp hbound
    exact le_last hrise hp

theorem totalCount_overflow (points : List (ℚ × ℚ)) (cum : ℚ) :
    totalCount (points.map finiteBucket ++ [((⊤ : WithTop ℚ), cum)]) = cum := by
  rw [totalCount, List.getLast?_concat]
  rfl

theorem totalCount_points (hne : points ≠ []) (x y : ℚ) :
    totalCount (points.map finiteBucket) = (last x y points).2 := by
  rw [totalCount, List.getLast?_map, getLast?_eq_last hne x y]
  rfl

theorem totalCount_ge (h : Traces x y points overflow buckets) (hne : points ≠ []) :
    (last x y points).2 ≤ totalCount buckets := by
  rcases h.overflow_cases with hnil | ⟨cum, htop, hcum⟩
  · rw [h.buckets_eq, hnil, List.append_nil, totalCount_points hne x y]
  · rw [h.buckets_eq, htop, totalCount_overflow]
    exact hcum

theorem getLast?_of_total {buckets : List Bucket} (htotal : 0 < totalCount buckets) :
    ∃ le, buckets.getLast? = some (le, totalCount buckets) := by
  rw [totalCount] at htotal ⊢
  cases hlast : buckets.getLast? with
  | none =>
    rw [hlast] at htotal
    exact absurd htotal (lt_irrefl 0)
  | some b => exact ⟨b.1, rfl⟩

theorem percentile_of_total_zero {buckets : List Bucket} (htotal : totalCount buckets ≤ 0) (q : ℚ) :
    percentile buckets q = none := by
  rw [totalCount] at htotal
  rw [percentile]
  split
  · rfl
  cases hlast : buckets.getLast? with
  | none => rfl
  | some b =>
    rw [hlast] at htotal
    exact if_pos htotal

end Traces

section Percentile

variable {q : ℚ} {before : List (ℚ × ℚ)} {buckets : List Bucket}

theorem findIdx?_split {before : List (ℚ × ℚ)} {b : Bucket} {target : ℚ}
    (hbefore : ∀ p ∈ before, p.2 < target) (hb : target ≤ b.2) (after : List Bucket) :
    (before.map finiteBucket ++ b :: after).findIdx? (fun c => decide (target ≤ c.2)) =
      some before.length := by
  have hnone : (before.map finiteBucket).findIdx? (fun c => decide (target ≤ c.2)) = none := by
    rw [List.findIdx?_eq_none_iff]
    intro c hc
    obtain ⟨p, hp, rfl⟩ := List.mem_map.mp hc
    exact decide_eq_false (not_le.mpr (hbefore p hp))
  rw [List.findIdx?_append, hnone, List.findIdx?_cons, if_pos (decide_eq_true hb)]
  simp

theorem getElem?_split (before : List (ℚ × ℚ)) (b : Bucket) (after : List Bucket) :
    (before.map finiteBucket ++ b :: after)[before.length]? = some b := by
  rw [List.getElem?_append_right (by simp)]
  simp

/-- The lower end the interpolation starts from. -/
theorem lower_split (before : List (ℚ × ℚ)) (tail : List Bucket) :
    (if before.length = 0 then some (((0 : ℚ) : WithTop ℚ), (0 : ℚ))
      else (before.map finiteBucket ++ tail)[before.length - 1]?) =
      some (finiteBucket (last 0 0 before)) := by
  by_cases hnil : before = []
  · rw [hnil]
    rfl
  · have hpos : 0 < before.length := List.length_pos_iff.mpr hnil
    rw [if_neg hpos.ne', List.getElem?_append_left (by simp; omega), List.getElem?_map,
      ← List.getLast?_eq_getElem?, getLast?_eq_last hnil 0 0]
    rfl

theorem percentile_finite {p : ℚ × ℚ} {after : List Bucket}
    (hbuckets : buckets = before.map finiteBucket ++ finiteBucket p :: after) (h0 : 0 ≤ q) (h1 : q ≤ 1)
    (htotal : 0 < totalCount buckets) (hbefore : ∀ r ∈ before, r.2 < totalCount buckets * q)
    (hp : totalCount buckets * q ≤ p.2) (hwidth : (last 0 0 before).1 < p.1) :
    percentile buckets q =
      some (reaching (totalCount buckets * q) (last 0 0 before).1 (last 0 0 before).2 [p]) := by
  obtain ⟨bound, hlast⟩ := getLast?_of_total htotal
  have hfind : buckets.findIdx? (fun c => decide (totalCount buckets * q ≤ c.2)) = some before.length := by
    rw [hbuckets] at hbefore hp ⊢
    exact findIdx?_split hbefore (b := finiteBucket p) hp after
  have hget : buckets[before.length]? = some (finiteBucket p) := by
    rw [hbuckets, getElem?_split]
  have hlower : (if before.length = 0 then some (((0 : ℚ) : WithTop ℚ), (0 : ℚ))
      else buckets[before.length - 1]?) = some (finiteBucket (last 0 0 before)) := by
    rw [hbuckets, lower_split]
  rw [percentile, if_neg (not_or.mpr ⟨not_lt.mpr h0, not_lt.mpr h1⟩), hlast]
  simp only [if_neg (not_le.mpr htotal), hfind, hget, hlower]
  change (if p.2 - (last 0 0 before).2 ≤ 0 ∨ p.1 - (last 0 0 before).1 ≤ 0 then some p.1
    else some _) = some (reaching _ _ _ [(p.1, p.2)])
  rcases le_or_gt p.2 (last 0 0 before).2 with hflat | hup
  · rw [if_pos (Or.inl (sub_nonpos.mpr hflat)), reaching_of_flat hp hflat]
  · have hcount : ¬ p.2 - (last 0 0 before).2 ≤ 0 := not_le.mpr (sub_pos.mpr hup)
    have hgap : ¬ p.1 - (last 0 0 before).1 ≤ 0 := not_le.mpr (sub_pos.mpr hwidth)
    rw [if_neg (not_or.mpr ⟨hcount, hgap⟩), reaching_of_le hp hup]

theorem findSome?_points (hne : before ≠ []) :
    (before.map finiteBucket).reverse.findSome? finiteBound = some (last 0 0 before).1 := by
  have hlast := getLast?_eq_last hne 0 0
  rw [← List.map_reverse]
  cases hreverse : before.reverse with
  | nil => exact absurd (List.reverse_eq_nil_iff.mp hreverse) hne
  | cons p rest =>
    rw [← List.head?_reverse, hreverse, List.head?_cons, Option.some_inj] at hlast
    rw [← hlast]
    rfl

theorem percentile_overflow {cum : ℚ} {after : List Bucket}
    (hbuckets : buckets = before.map finiteBucket ++ ((⊤ : WithTop ℚ), cum) :: after) (h0 : 0 ≤ q)
    (h1 : q ≤ 1) (htotal : 0 < totalCount buckets)
    (hbefore : ∀ r ∈ before, r.2 < totalCount buckets * q) (hcum : totalCount buckets * q ≤ cum) :
    percentile buckets q = if before = [] then none else some (last 0 0 before).1 := by
  obtain ⟨bound, hlast⟩ := getLast?_of_total htotal
  have hfind : buckets.findIdx? (fun c => decide (totalCount buckets * q ≤ c.2)) = some before.length := by
    rw [hbuckets] at hbefore hcum ⊢
    exact findIdx?_split hbefore (b := ((⊤ : WithTop ℚ), cum)) hcum after
  have hget : buckets[before.length]? = some ((⊤ : WithTop ℚ), cum) := by
    rw [hbuckets, getElem?_split]
  have htake : buckets.take before.length = before.map finiteBucket := by
    rw [hbuckets, List.take_left' (by simp)]
  rw [percentile, if_neg (not_or.mpr ⟨not_lt.mpr h0, not_lt.mpr h1⟩), hlast]
  simp only [if_neg (not_le.mpr htotal), hfind, hget]
  change (buckets.take before.length).reverse.findSome? finiteBound = _
  rw [htake]
  by_cases hnil : before = []
  · rw [if_pos hnil, hnil]
    rfl
  · rw [if_neg hnil, findSome?_points hnil]

theorem percentile_eq_reaching {points : List (ℚ × ℚ)} {overflow : List Bucket}
    (h : Traces 0 0 points overflow buckets) (hne : points ≠ []) (htotal : 0 < totalCount buckets)
    (h0 : 0 ≤ q) (h1 : q ≤ 1) :
    percentile buckets q = some (reaching (totalCount buckets * q) 0 0 points) := by
  cases hfind : points.find? fun p => decide (totalCount buckets * q ≤ p.2) with
  | some p =>
    obtain ⟨hreached, before, after, hpoints, hnot⟩ := List.find?_eq_some_iff_append.mp hfind
    have hp : totalCount buckets * q ≤ p.2 := of_decide_eq_true hreached
    have hbefore : ∀ r ∈ before, r.2 < totalCount buckets * q := by
      intro r hr
      simpa using hnot r hr
    have hbuckets : buckets =
        before.map finiteBucket ++ finiteBucket p :: (after.map finiteBucket ++ overflow) := by
      rw [h.buckets_eq, hpoints]
      simp
    have hwidth : (last 0 0 before).1 < p.1 := by
      have hrises := h.rises
      rw [hpoints] at hrises
      cases rises_append hrises with
      | point hx _ _ => exact hx
    rw [percentile_finite hbuckets h0 h1 htotal hbefore hp hwidth, hpoints, reaching_append hbefore,
      reaching_of_reached hp _ _ after]
  | none =>
    have hnever : ∀ p ∈ points, p.2 < totalCount buckets * q := by
      intro p hp
      simpa using List.find?_eq_none.mp hfind p hp
    have hshare : totalCount buckets * q ≤ totalCount buckets := mul_le_of_le_one_right htotal.le h1
    rcases h.overflow_cases with hnil | ⟨cum, htop, _⟩
    · -- Without a `+Inf` bucket the last point has the total, which every share is within.
      have hend := hnever _ (List.mem_of_getLast? (getLast?_eq_last hne 0 0))
      rw [h.buckets_eq, hnil, List.append_nil] at hshare hend
      rw [totalCount_points hne 0 0] at hshare hend
      exact absurd hshare (not_le.mpr hend)
    · have hbuckets := h.buckets_eq
      rw [htop] at hbuckets
      have hcum : totalCount buckets = cum := by
        rw [hbuckets, totalCount_overflow]
      rw [hcum] at hshare
      rw [percentile_overflow hbuckets h0 h1 htotal hnever (hcum ▸ hshare), if_neg hne,
        reaching_of_never hnever]

theorem percentile_of_no_points {overflow : List Bucket} (h : Traces 0 0 [] overflow buckets) (h0 : 0 ≤ q)
    (h1 : q ≤ 1) : percentile buckets q = none := by
  rcases le_or_gt (totalCount buckets) 0 with hzero | htotal
  · exact percentile_of_total_zero hzero q
  rcases h.overflow_cases with hnil | ⟨cum, htop, _⟩
  · rw [h.buckets_eq, hnil] at htotal
    exact absurd htotal (lt_irrefl 0)
  · have hbuckets := h.buckets_eq
    rw [htop] at hbuckets
    have hcum : totalCount buckets = cum := by
      rw [hbuckets, totalCount_overflow]
    have hshare : totalCount buckets * q ≤ cum := by
      rw [hcum] at htotal ⊢
      exact mul_le_of_le_one_right htotal.le h1
    have hnone : ∀ r ∈ ([] : List (ℚ × ℚ)), r.2 < totalCount buckets * q := by
      intro r hr
      cases hr
    exact percentile_overflow hbuckets h0 h1 htotal hnone hshare

end Percentile

theorem CumulativeBuckets.totalCount_nonneg {buckets : List Bucket} (h : CumulativeBuckets buckets) :
    0 ≤ totalCount buckets := by
  rw [totalCount]
  cases hlast : buckets.getLast? with
  | none => exact le_refl 0
  | some b => exact h.nonneg b (List.mem_of_getLast? hlast)

theorem percentile_eq_none_iff {buckets : List Bucket} (h : CumulativeBuckets buckets) {q : ℚ}
    (h0 : 0 ≤ q) (h1 : q ≤ 1) :
    percentile buckets q = none ↔ totalCount buckets = 0 ∨ finiteBounds buckets = [] := by
  obtain ⟨points, overflow, htraces⟩ := h.exists_traces
  rw [finiteBounds_of_traces htraces, List.map_eq_nil_iff]
  by_cases hne : points = []
  · subst hne
    simp [percentile_of_no_points htraces h0 h1]
  rcases h.totalCount_nonneg.eq_or_lt with hzero | htotal
  · simp [percentile_of_total_zero hzero.ge, ← hzero]
  · simp [percentile_eq_reaching htraces hne htotal h0 h1, htotal.ne', hne]

theorem CumulativeBuckets.exists_curve {buckets : List Bucket} (h : CumulativeBuckets buckets)
    (hfinite : finiteBounds buckets ≠ []) : ∃ points overflow, points ≠ [] ∧ Traces 0 0 points overflow buckets := by
  obtain ⟨points, overflow, htraces⟩ := h.exists_traces
  refine ⟨points, overflow, ?_, htraces⟩
  rintro rfl
  exact hfinite (finiteBounds_of_traces htraces)

/-- Where a percentile is present, the histogram is a curve with a point and a positive total. -/
theorem exists_curve_of_percentile {buckets : List Bucket} (h : CumulativeBuckets buckets) {q v : ℚ}
    (h0 : 0 ≤ q) (h1 : q ≤ 1) (hv : percentile buckets q = some v) :
    0 < totalCount buckets ∧ ∃ points overflow, points ≠ [] ∧ Traces 0 0 points overflow buckets := by
  have hpresent : ¬ (totalCount buckets = 0 ∨ finiteBounds buckets = []) := by
    rw [← percentile_eq_none_iff h h0 h1, hv]
    exact Option.some_ne_none v
  obtain ⟨hzero, hbounds⟩ := not_or.mp hpresent
  exact ⟨lt_of_le_of_ne h.totalCount_nonneg (Ne.symm hzero), h.exists_curve hbounds⟩

theorem percentile_between {buckets : List Bucket} (h : CumulativeBuckets buckets) {q v : ℚ}
    (h0 : 0 ≤ q) (h1 : q ≤ 1) (hv : percentile buckets q = some v) :
    ∃ top, (finiteBounds buckets).max? = some top ∧ 0 ≤ v ∧ v ≤ top := by
  obtain ⟨htotal, points, overflow, hne, htraces⟩ := exists_curve_of_percentile h h0 h1 hv
  rw [percentile_eq_reaching htraces hne htotal h0 h1, Option.some_inj] at hv
  refine ⟨(last 0 0 points).1, ?_, ?_⟩
  · rw [finiteBounds_of_traces htraces, max?_of_rises htraces.rises hne]
  · rw [← hv]
    exact reaching_between htraces.rises (mul_nonneg htotal.le h0)

theorem percentile_mono {buckets : List Bucket} (h : CumulativeBuckets buckets) {q q' v v' : ℚ}
    (h0 : 0 ≤ q) (hqq : q ≤ q') (h1 : q' ≤ 1) (hv : percentile buckets q = some v)
    (hv' : percentile buckets q' = some v') : v ≤ v' := by
  obtain ⟨htotal, points, overflow, hne, htraces⟩ := exists_curve_of_percentile h h0 (hqq.trans h1) hv
  rw [percentile_eq_reaching htraces hne htotal h0 (hqq.trans h1), Option.some_inj] at hv
  rw [percentile_eq_reaching htraces hne htotal (h0.trans hqq) h1, Option.some_inj] at hv'
  rw [← hv, ← hv']
  exact reaching_mono htraces.rises (mul_nonneg htotal.le h0)
    (mul_le_mul_of_nonneg_left hqq htotal.le)

theorem percentilesMs_of_absent {parsed : ParsedMetrics} {metric : String} {buckets : List Bucket}
    (hlookup : parsed.histograms.lookup metric = some buckets)
    (h : ∀ q, 0 ≤ q → q ≤ 1 → percentile buckets q = none) : percentilesMs parsed metric = none := by
  have h50 := h (50 / 100) (by norm_num) (by norm_num)
  have h95 := h (95 / 100) (by norm_num) (by norm_num)
  have h99 := h (99 / 100) (by norm_num) (by norm_num)
  rw [percentilesMs, hlookup]
  simp [h50, h95, h99]

theorem percentilesMs_of_present {parsed : ParsedMetrics} {metric : String} {buckets : List Bucket}
    (hlookup : parsed.histograms.lookup metric = some buckets) {a b c : ℚ}
    (ha : percentile buckets (50 / 100) = some a) (hb : percentile buckets (95 / 100) = some b)
    (hc : percentile buckets (99 / 100) = some c) :
    percentilesMs parsed metric = some ⟨some (a * 1000), some (b * 1000), some (c * 1000)⟩ := by
  rw [percentilesMs, hlookup]
  simp [ha, hb, hc]

theorem percentilesMs_ordered {parsed : ParsedMetrics} {metric : String} {buckets : List Bucket}
    (hlookup : parsed.histograms.lookup metric = some buckets) (h : CumulativeBuckets buckets) :
    percentilesMs parsed metric = none ∨ ∃ p50 p95 p99,
      percentilesMs parsed metric = some ⟨some p50, some p95, some p99⟩ ∧ p50 ≤ p95 ∧ p95 ≤ p99 := by
  by_cases habsent : totalCount buckets = 0 ∨ finiteBounds buckets = []
  · exact Or.inl (percentilesMs_of_absent hlookup fun q h0 h1 =>
      (percentile_eq_none_iff h h0 h1).mpr habsent)
  have hpresent (q : ℚ) (h0 : 0 ≤ q) (h1 : q ≤ 1) : ∃ v, percentile buckets q = some v :=
    Option.ne_none_iff_exists'.mp fun hnone => habsent ((percentile_eq_none_iff h h0 h1).mp hnone)
  obtain ⟨a, ha⟩ := hpresent (50 / 100) (by norm_num) (by norm_num)
  obtain ⟨b, hb⟩ := hpresent (95 / 100) (by norm_num) (by norm_num)
  obtain ⟨c, hc⟩ := hpresent (99 / 100) (by norm_num) (by norm_num)
  have hab : a ≤ b := percentile_mono h (by norm_num) (by norm_num) (by norm_num) ha hb
  have hbc : b ≤ c := percentile_mono h (by norm_num) (by norm_num) (by norm_num) hb hc
  refine Or.inr ⟨a * 1000, b * 1000, c * 1000, percentilesMs_of_present hlookup ha hb hc, ?_, ?_⟩
  · exact mul_le_mul_of_nonneg_right hab (by norm_num)
  · exact mul_le_mul_of_nonneg_right hbc (by norm_num)

theorem percentiles_wellBehaved (buckets : List Bucket) (h : CumulativeBuckets buckets) :
    (∀ q, 0 ≤ q → q ≤ 1 →
      (percentile buckets q = none ↔ totalCount buckets = 0 ∨ finiteBounds buckets = [])) ∧
    (∀ q v, 0 ≤ q → q ≤ 1 → percentile buckets q = some v →
      ∃ top, (finiteBounds buckets).max? = some top ∧ 0 ≤ v ∧ v ≤ top) ∧
    (∀ q q' v v', 0 ≤ q → q ≤ q' → q' ≤ 1 → percentile buckets q = some v →
      percentile buckets q' = some v' → v ≤ v') ∧
    ∀ parsed : ParsedMetrics, ∀ metric, parsed.histograms.lookup metric = some buckets →
      percentilesMs parsed metric = none ∨ ∃ p50 p95 p99,
        percentilesMs parsed metric = some ⟨some p50, some p95, some p99⟩ ∧ p50 ≤ p95 ∧ p95 ≤ p99 := by
  refine ⟨?_, ?_, ?_, ?_⟩
  · intro q h0 h1
    exact percentile_eq_none_iff h h0 h1
  · intro q v h0 h1 hv
    exact percentile_between h h0 h1 hv
  · intro q q' v v' h0 hqq h1 hv hv'
    exact percentile_mono h h0 hqq h1 hv hv'
  · intro parsed metric hlookup
    exact percentilesMs_ordered hlookup h

theorem percentiles_wellBehaved_overflow :
    percentile [(((1 : ℚ) : WithTop ℚ), 2), (((2 : ℚ) : WithTop ℚ), 2), (⊤, 5)] (1 / 5) = some (1 / 2) ∧
      percentile [(((1 : ℚ) : WithTop ℚ), 2), (((2 : ℚ) : WithTop ℚ), 2), (⊤, 5)] 1 = some 2 ∧
      (1 / 2 : ℚ) ≤ 2 := by
  have hcumulative : CumulativeBuckets [(((1 : ℚ) : WithTop ℚ), 2), (((2 : ℚ) : WithTop ℚ), 2), (⊤, 5)] :=
    ⟨by decide, by decide, by decide, by decide⟩
  have hlow : percentile [(((1 : ℚ) : WithTop ℚ), 2), (((2 : ℚ) : WithTop ℚ), 2), (⊤, 5)] (1 / 5) =
      some (1 / 2) := by decide +kernel
  have hhigh : percentile [(((1 : ℚ) : WithTop ℚ), 2), (((2 : ℚ) : WithTop ℚ), 2), (⊤, 5)] 1 = some 2 := by
    decide +kernel
  exact ⟨hlow, hhigh, (percentiles_wellBehaved _ hcumulative).2.2.1 (1 / 5) 1 (1 / 2) 2 (by norm_num)
    (by norm_num) le_rfl hlow hhigh⟩

section Fraction

variable {points : List (ℚ × ℚ)} {overflow buckets : List Bucket} {total : ℚ}

theorem clampUnit_of_mem {v : ℚ} (h0 : 0 ≤ v) (h1 : v ≤ 1) : clampUnit v = v := by
  rw [clampUnit, max_eq_left h0, min_eq_left h1]

theorem clampUnit_of_nonpos {v : ℚ} (h : v ≤ 0) : clampUnit v = 0 := by
  rw [clampUnit, max_eq_right h]
  rfl

theorem clampUnit_quotient {v : ℚ} (htotal : 0 < total) (h0 : 0 ≤ v) (h1 : v ≤ total) :
    clampUnit (v / total) = v / total :=
  clampUnit_of_mem (div_nonneg h0 htotal.le) ((div_le_one htotal).mpr h1)

/-- The walk over a curve's buckets gives the curve's height, as a share of the total. -/
theorem fractionWalk_eq_valueAt {x y threshold : ℚ} (h : Traces x y points overflow buckets)
    (htotal : 0 < total) (hy : 0 ≤ y) (hx : x ≤ threshold) (hend : (last x y points).2 ≤ total)
    (hover : overflow = [] → (last x y points).2 = total) :
    fractionWalk total threshold x y buckets = valueAt threshold x y points / total := by
  obtain ⟨hbuckets, hrises, hcases⟩ := h
  subst hbuckets
  induction hrises with
  | start x y =>
    rcases hcases with hnil | ⟨cum, htop, _⟩
    · subst hnil
      have hy' : y = total := hover rfl
      change (1 : ℚ) = y / total
      rw [hy', div_self htotal.ne']
    · subst htop
      exact clampUnit_quotient htotal hy hend
  | @point x y x' y' rest hx' hy' hrest ih =>
    rw [last_cons] at hcases hend hover
    have hy'0 : 0 ≤ y' := hy.trans hy'
    rcases le_or_gt threshold x' with hle | hgt
    · have hpiece := between_of_share (share_nonneg hx hx') (share_le_one hle hx') hy'
      have hheight : y' ≤ total := (last_ge hrest).2.trans hend
      have hwidth : ¬ x' - x ≤ 0 := not_le.mpr (sub_pos.mpr hx')
      rw [valueAt_of_le hle]
      change (if threshold ≤ x' then _ else _) = _
      rw [if_pos hle]
      rcases hy'.eq_or_lt with hflat | hup
      · subst hflat
        simp only [sub_self, mul_zero, add_zero, le_refl, or_true, if_true]
        exact clampUnit_quotient htotal hy hheight
      · have hcount : ¬ y' - y ≤ 0 := not_le.mpr (sub_pos.mpr hup)
        simp only [if_neg (not_or.mpr ⟨hwidth, hcount⟩)]
        exact clampUnit_quotient htotal (hy.trans hpiece.1) (hpiece.2.trans hheight)
    · rw [valueAt_of_lt hgt]
      change (if threshold ≤ x' then _ else fractionWalk total threshold x' y' _) = _
      rw [if_neg (not_le.mpr hgt)]
      exact ih hy'0 hgt.le hend hover hcases

theorem fractionLe_first {p : ℚ × ℚ} {threshold : ℚ} (hx : 0 < p.1) (hy : 0 ≤ p.2) (htotal : 0 < total)
    (hheight : p.2 ≤ total) (ht : threshold ≤ p.1) :
    clampUnit (p.2 * clampUnit (threshold / p.1) / total) =
      valueAt (max threshold 0) 0 0 (p :: points) / total := by
  rw [valueAt_of_le (max_le ht hx.le), sub_zero, sub_zero, sub_zero, zero_add]
  rcases le_or_gt threshold 0 with hneg | hpos
  · have hquotient : threshold / p.1 ≤ 0 := div_nonpos_of_nonpos_of_nonneg hneg hx.le
    rw [clampUnit_of_nonpos hquotient, max_eq_right hneg, mul_zero, zero_div, zero_div, zero_mul, zero_div]
    rfl
  · have hshare0 : 0 ≤ threshold / p.1 := div_nonneg hpos.le hx.le
    have hshare1 : threshold / p.1 ≤ 1 := (div_le_one hx).mpr ht
    have hle : p.2 * (threshold / p.1) ≤ total := (mul_le_of_le_one_right hy hshare1).trans hheight
    rw [clampUnit_of_mem hshare0 hshare1, max_eq_left hpos.le,
      clampUnit_quotient htotal (mul_nonneg hy hshare0) hle, mul_comm]

theorem fractionLe_eq_valueAt (h : Traces 0 0 points overflow buckets) (hne : points ≠ [])
    (htotal : 0 < totalCount buckets) (threshold : ℚ) :
    fractionLe buckets threshold = some (valueAt (max threshold 0) 0 0 points / totalCount buckets) := by
  obtain ⟨bound, hlast⟩ := getLast?_of_total htotal
  have hend := totalCount_ge h hne
  have hover : overflow = [] → (last 0 0 points).2 = totalCount buckets := by
    intro hnil
    rw [h.buckets_eq, hnil, List.append_nil, totalCount_points hne 0 0]
  cases points with
  | nil => exact absurd rfl hne
  | cons p rest =>
    have hhead : buckets.head? = some (((p.1 : ℚ) : WithTop ℚ), p.2) := by
      rw [h.buckets_eq]
      rfl
    cases h.rises with
    | @point _ _ x' y' _ hx hy hrest =>
      rw [fractionLe, hlast, hhead]
      change (if totalCount buckets ≤ 0 then none else if threshold ≤ x' then
        if x' ≤ 0 then some 0 else some _ else some _) = _
      rw [if_neg (not_le.mpr htotal)]
      rcases le_or_gt threshold x' with hle | hgt
      · have hheight : y' ≤ totalCount buckets := (last_ge hrest).2.trans (last_cons 0 0 (x', y') rest ▸ hend)
        rw [if_pos hle, if_neg (not_le.mpr hx), fractionLe_first (p := (x', y')) hx hy htotal hheight hle]
      · have hpos : 0 ≤ threshold := hx.le.trans hgt.le
        rw [if_neg (not_le.mpr hgt), fractionWalk_eq_valueAt h htotal le_rfl hpos hend hover,
          max_eq_left hpos]

theorem fractionLe_unit (h : CumulativeBuckets buckets) (hfinite : finiteBounds buckets ≠ [])
    (htotal : 0 < totalCount buckets) (threshold : ℚ) :
    ∃ f, fractionLe buckets threshold = some f ∧ 0 ≤ f ∧ f ≤ 1 := by
  obtain ⟨points, overflow, hne, htraces⟩ := h.exists_curve hfinite
  have hvalue := valueAt_between htraces.rises (le_max_right threshold 0)
  refine ⟨_, fractionLe_eq_valueAt htraces hne htotal threshold, ?_, ?_⟩
  · exact div_nonneg hvalue.1 htotal.le
  · exact (div_le_one htotal).mpr (hvalue.2.trans (totalCount_ge htraces hne))

theorem fractionLe_mono (h : CumulativeBuckets buckets) (hfinite : finiteBounds buckets ≠ [])
    (htotal : 0 < totalCount buckets) {t t' f f' : ℚ} (ht : t ≤ t')
    (hf : fractionLe buckets t = some f) (hf' : fractionLe buckets t' = some f') : f ≤ f' := by
  obtain ⟨points, overflow, hne, htraces⟩ := h.exists_curve hfinite
  rw [fractionLe_eq_valueAt htraces hne htotal, Option.some_inj] at hf hf'
  rw [← hf, ← hf']
  exact div_le_div_of_nonneg_right
    (valueAt_mono htraces.rises (le_max_right t 0) (max_le_max_right 0 ht)) htotal.le

/-- The largest finite bound is that of the last finite bucket, whose count is the curve's end. -/
theorem exists_largest_finite (htraces : Traces 0 0 points overflow buckets) (hne : points ≠ []) :
    (finiteBounds buckets).max? = some (last 0 0 points).1 ∧ finiteBucket (last 0 0 points) ∈ buckets := by
  constructor
  · rw [finiteBounds_of_traces htraces, max?_of_rises htraces.rises hne]
  · rw [htraces.buckets_eq]
    exact List.mem_append_left overflow
      (List.mem_map_of_mem (List.mem_of_getLast? (getLast?_eq_last hne 0 0)))

theorem fractionLe_percentile (htraces : Traces 0 0 points overflow buckets) (hne : points ≠ [])
    (htotal : 0 < totalCount buckets) {q : ℚ} (h0 : 0 < q) (h1 : q ≤ 1) :
    ∃ v, percentile buckets q = some v ∧
      fractionLe buckets v = some (min q ((last 0 0 points).2 / totalCount buckets)) := by
  have hshare : 0 < totalCount buckets * q := mul_pos htotal h0
  refine ⟨_, percentile_eq_reaching htraces hne htotal h0.le h1, ?_⟩
  have hreach := (reaching_between htraces.rises hshare.le).1
  rw [fractionLe_eq_valueAt htraces hne htotal, max_eq_left hreach, valueAt_reaching htraces.rises hne hshare,
    ← min_div_div_right htotal.le, mul_div_cancel_left₀ q htotal.ne']

end Fraction

theorem fractionLe_inverts_percentile (buckets : List Bucket) (h : CumulativeBuckets buckets)
    (hfinite : finiteBounds buckets ≠ []) (htotal : 0 < totalCount buckets) :
    (∀ threshold, ∃ f, fractionLe buckets threshold = some f ∧ 0 ≤ f ∧ f ≤ 1) ∧
    (∀ t t' f f', t ≤ t' → fractionLe buckets t = some f → fractionLe buckets t' = some f' → f ≤ f') ∧
    ∃ top count, (finiteBounds buckets).max? = some top ∧ ((top : WithTop ℚ), count) ∈ buckets ∧
      ∀ q, 0 < q → q ≤ 1 → ∃ v, percentile buckets q = some v ∧
        fractionLe buckets v = some (min q (count / totalCount buckets)) := by
  refine ⟨?_, ?_, ?_⟩
  · intro threshold
    exact fractionLe_unit h hfinite htotal threshold
  · intro t t' f f' ht hf hf'
    exact fractionLe_mono h hfinite htotal ht hf hf'
  · obtain ⟨points, overflow, hne, htraces⟩ := h.exists_curve hfinite
    obtain ⟨hmax, hmem⟩ := exists_largest_finite htraces hne
    refine ⟨(last 0 0 points).1, (last 0 0 points).2, hmax, hmem, ?_⟩
    intro q h0 h1
    exact fractionLe_percentile htraces hne htotal h0 h1

/-- Mass beyond the last finite bound: the fraction at the top bound stops at its share. -/
theorem fractionLe_inverts_percentile_overflow :
    ∃ v, percentile [(((1 : ℚ) : WithTop ℚ), 2), (⊤, 5)] 1 = some v ∧
      fractionLe [(((1 : ℚ) : WithTop ℚ), 2), (⊤, 5)] v = some (2 / 5) := by
  have hcumulative : CumulativeBuckets [(((1 : ℚ) : WithTop ℚ), 2), (⊤, 5)] :=
    ⟨by decide, by decide, by decide, by decide⟩
  obtain ⟨top, count, hmax, hmem, hinverse⟩ :=
    (fractionLe_inverts_percentile _ hcumulative (by decide) (by decide)).2.2
  have htop : top = 1 := (Option.some.inj hmax).symm
  have hcount : count = 2 := by
    subst htop
    simpa [WithTop.coe_ne_top] using hmem
  obtain ⟨v, hv, hfraction⟩ := hinverse 1 (by norm_num) le_rfl
  refine ⟨v, hv, ?_⟩
  rw [hfraction, hcount, totalCount]
  norm_num

end SparkDashboard.Engines
