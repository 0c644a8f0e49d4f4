import Mathlib.Tactic.NormNum
import SparkDashboard.Engines.Histogram

/-!
# Goodput recomputed in the browser

The frontend's port of the fraction of observations under a threshold, over the
buckets as they were shipped, and its agreement with the server's own reading.
-/

namespace SparkDashboard.Browser

open Engines (Bucket HistogramBucket ParsedMetrics clampUnit f64Max finiteBound fractionWalk goodputPct
  wireBuckets)

/-- `Number.MAX_VALUE`, at or above which a bound is the overflow bucket. -/
def overflowLeSentinel : ℚ := (2 - 1 / 2 ^ 52) * 2 ^ 1023

def clamp (value lo hi : ℚ) : ℚ := min (max value lo) hi

/-- The loop of `fractionLe`, from the previous bound and count. -/
def walkBuckets (total thresholdSeconds : ℚ) : ℚ → ℚ → List HistogramBucket → ℚ
  | _, _, [] => 1
  | prevLe, prevCum, ⟨le, cum⟩ :: rest =>
    if overflowLeSentinel ≤ le then clamp (prevCum / total) 0 1
    else if thresholdSeconds ≤ le then
      let bucketWidth := le - prevLe
      let bucketCount := cum - prevCum
      if bucketWidth ≤ 0 ∨ bucketCount ≤ 0 then clamp (prevCum / total) 0 1
      else
        let frac := (thresholdSeconds - prevLe) / bucketWidth
        let interp := prevCum + frac * bucketCount
        clamp (interp / total) 0 1
    else walkBuckets total thresholdSeconds le cum rest

def fractionLe (buckets : Option (List HistogramBucket)) (thresholdSeconds : ℚ) : Option ℚ :=
  match buckets with
  | none => none
  | some buckets =>
    match buckets.head?, buckets.getLast? with
    | some first, some ⟨_, total⟩ =>
      if total ≤ 0 then none
      else if thresholdSeconds ≤ first.leSeconds ∧ first.leSeconds < overflowLeSentinel then
        if first.leSeconds ≤ 0 then some 0
        else
          let frac := clamp (thresholdSeconds / first.leSeconds) 0 1
          some (clamp (first.cumulativeCount * frac / total) 0 1)
      else some (walkBuckets total thresholdSeconds 0 0 buckets)
    | _, _ => none

def recomputeGoodputPct (buckets : Option (List HistogramBucket)) (thresholdMs : ℚ) : Option ℚ :=
  match fractionLe buckets (thresholdMs / 1000) with
  | none => none
  | some f => some (f * 100)

/-- A bound the wire keeps apart from the overflow bucket. -/
def Bounded (b : Bucket) : Prop := b.1 = ⊤ ∨ b.1 < (f64Max : WithTop ℚ)

/-- One bucket as `wire_buckets` ships it. -/
def shipped (b : Bucket) : HistogramBucket := ⟨(finiteBound b).getD f64Max, b.2⟩

@[simp] theorem shipped_overflow (cum : ℚ) : shipped (⊤, cum) = ⟨f64Max, cum⟩ := rfl

@[simp] theorem shipped_finite (le cum : ℚ) : shipped ((le : WithTop ℚ), cum) = ⟨le, cum⟩ := rfl

@[simp] theorem shipped_cumulativeCount (b : Bucket) : (shipped b).cumulativeCount = b.2 := rfl

theorem overflowLeSentinel_eq : overflowLeSentinel = f64Max := by
  have hexponent : 1023 = 52 + 971 := by decide
  have hmantissa : (2 - 1 / 2 ^ 52 : ℚ) * 2 ^ 52 = 2 ^ 53 - 1 := by norm_num
  rw [overflowLeSentinel, f64Max, hexponent, pow_add, ← mul_assoc, hmantissa]

theorem lt_sentinel_of_bounded {le cum : ℚ} (h : Bounded ((le : WithTop ℚ), cum)) :
    le < overflowLeSentinel := by
  rw [overflowLeSentinel_eq]
  rcases h with htop | hlt
  · exact absurd htop (WithTop.coe_ne_top)
  · exact WithTop.coe_lt_coe.mp hlt

theorem wireBuckets_of_lookup {parsed : ParsedMetrics} {metric : String} {buckets : List Bucket}
    (h : parsed.histograms.lookup metric = some buckets) :
    wireBuckets parsed metric = if buckets = [] then none else some (buckets.map shipped) := by
  rw [wireBuckets, h]
  cases buckets with
  | nil => rfl
  | cons first rest => rfl

theorem fractionWalk_overflow (total threshold prevLe prevCum cum : ℚ) (rest : List Bucket) :
    fractionWalk total threshold prevLe prevCum ((⊤, cum) :: rest) = clampUnit (prevCum / total) := rfl

theorem fractionWalk_finite (total threshold prevLe prevCum le cum : ℚ) (rest : List Bucket) :
    fractionWalk total threshold prevLe prevCum (((le : WithTop ℚ), cum) :: rest) =
      if threshold ≤ le then
        if le - prevLe ≤ 0 ∨ cum - prevCum ≤ 0 then clampUnit (prevCum / total)
        else clampUnit ((prevCum + (threshold - prevLe) / (le - prevLe) * (cum - prevCum)) / total)
      else fractionWalk total threshold le cum rest := rfl

theorem walkBuckets_shipped (total threshold : ℚ) {buckets : List Bucket}
    (hbounded : ∀ b ∈ buckets, Bounded b) (prevLe prevCum : ℚ) :
    walkBuckets total threshold prevLe prevCum (buckets.map shipped) =
      fractionWalk total threshold prevLe prevCum buckets := by
  induction buckets generalizing prevLe prevCum with
  | nil => rfl
  | cons b rest ih =>
    have hrest := ih fun b hb => hbounded b (List.mem_cons_of_mem _ hb)
    obtain ⟨bound, cum⟩ := b
    cases bound with
    | top =>
      rw [List.map_cons, shipped_overflow, walkBuckets, if_pos overflowLeSentinel_eq.le,
        fractionWalk_overflow]
      rfl
    | coe le =>
      have hlt : ¬ overflowLeSentinel ≤ le :=
        not_le.mpr (lt_sentinel_of_bounded (hbounded _ List.mem_cons_self))
      rw [List.map_cons, shipped_finite, walkBuckets, if_neg hlt, hrest, fractionWalk_finite]
      rfl

theorem fractionLe_of_ends {buckets : List HistogramBucket} {first last : HistogramBucket}
    (hfirst : buckets.head? = some first) (hlast : buckets.getLast? = some last) (threshold : ℚ) :
    fractionLe (some buckets) threshold =
      if last.cumulativeCount ≤ 0 then none
      else if threshold ≤ first.leSeconds ∧ first.leSeconds < overflowLeSentinel then
        if first.leSeconds ≤ 0 then some 0
        else some (clamp (first.cumulativeCount * clamp (threshold / first.leSeconds) 0 1 /
          last.cumulativeCount) 0 1)
      else some (walkBuckets last.cumulativeCount threshold 0 0 buckets) := by
  simp only [fractionLe, hfirst, hlast]

theorem serverFractionLe_of_overflow {buckets : List Bucket} {cum : ℚ} {last : Bucket}
    (hfirst : buckets.head? = some (⊤, cum)) (hlast : buckets.getLast? = some last) (threshold : ℚ) :
    Engines.fractionLe buckets threshold =
      if last.2 ≤ 0 then none else some (fractionWalk last.2 threshold 0 0 buckets) := by
  simp only [Engines.fractionLe, hfirst, hlast]

theorem serverFractionLe_of_finite {buckets : List Bucket} {le cum : ℚ} {last : Bucket}
    (hfirst : buckets.head? = some ((le : WithTop ℚ), cum)) (hlast : buckets.getLast? = some last)
    (threshold : ℚ) :
    Engines.fractionLe buckets threshold =
      if last.2 ≤ 0 then none
      else if threshold ≤ le then
        if le ≤ 0 then some 0 else some (clampUnit (cum * clampUnit (threshold / le) / last.2))
      else some (fractionWalk last.2 threshold 0 0 buckets) := by
  simp only [Engines.fractionLe, hfirst, hlast]

/-- The browser reads off the shipped buckets what the server reads off its own. -/
theorem fractionLe_shipped {buckets : List Bucket} (hbounded : ∀ b ∈ buckets, Bounded b)
    {first last : Bucket} (hfirst : buckets.head? = some first) (hlast : buckets.getLast? = some last)
    (threshold : ℚ) :
    fractionLe (some (buckets.map shipped)) threshold = Engines.fractionLe buckets threshold := by
  have hwalk := walkBuckets_shipped last.2 threshold hbounded 0 0
  have hfirst' : (buckets.map shipped).head? = some (shipped first) := by
    rw [List.head?_map, hfirst, Option.map_some]
  have hlast' : (buckets.map shipped).getLast? = some (shipped last) := by
    rw [List.getLast?_map, hlast, Option.map_some]
  obtain ⟨bound, cum⟩ := first
  rw [fractionLe_of_ends hfirst' hlast', shipped_cumulativeCount, hwalk]
  cases bound with
  | top =>
    have hover : ¬ (threshold ≤ f64Max ∧ f64Max < overflowLeSentinel) := fun h =>
      absurd h.2 overflowLeSentinel_eq.not_gt
    rw [serverFractionLe_of_overflow hfirst hlast, shipped_overflow, if_neg hover]
  | coe le =>
    have hlt : le < overflowLeSentinel :=
      lt_sentinel_of_bounded (hbounded _ (List.mem_of_mem_head? hfirst))
    rw [serverFractionLe_of_finite hfirst hlast, shipped_finite]
    simp only [hlt, and_true]
    rfl

section Shipped

variable {parsed : ParsedMetrics} {metric : String} {buckets : List Bucket}
  (hlookup : parsed.histograms.lookup metric = some buckets) (hbounded : ∀ b ∈ buckets, Bounded b)

include hlookup hbounded

theorem fractionLe_wireBuckets (threshold : ℚ) :
    fractionLe (wireBuckets parsed metric) threshold = Engines.fractionLe buckets threshold := by
  rw [wireBuckets_of_lookup hlookup]
  cases buckets with
  | nil => rfl
  | cons first rest =>
    rw [if_neg (List.cons_ne_nil first rest)]
    exact fractionLe_shipped hbounded rfl (List.getLast?_eq_some_getLast (List.cons_ne_nil first rest)) threshold

theorem recomputeGoodputPct_wireBuckets (sloMs : ℚ) :
    recomputeGoodputPct (wireBuckets parsed metric) sloMs = goodputPct parsed metric sloMs := by
  have hserver : goodputPct parsed metric sloMs = (Engines.fractionLe buckets (sloMs / 1000)).map (· * 100) := by
    rw [goodputPct, hlookup]
  rw [recomputeGoodputPct, fractionLe_wireBuckets hlookup hbounded, hserver]
  cases Engines.fractionLe buckets (sloMs / 1000) with
  | none => rfl
  | some f => rfl

end Shipped

/-- The browser's goodput of a shipped histogram is the server's, at every threshold. -/
theorem goodput_eq_server {parsed : ParsedMetrics} {metric : String} {buckets : List Bucket}
    (hlookup : parsed.histograms.lookup metric = some buckets) (hbounded : ∀ b ∈ buckets, Bounded b) :
    (∀ threshold, fractionLe (wireBuckets parsed metric) threshold =
      Engines.fractionLe buckets threshold) ∧
      ∀ sloMs, recomputeGoodputPct (wireBuckets parsed metric) sloMs = goodputPct parsed metric sloMs :=
  ⟨fractionLe_wireBuckets hlookup hbounded, recomputeGoodputPct_wireBuckets hlookup hbounded⟩

def latencyBuckets : List Bucket :=
  [(((1 : ℚ) : WithTop ℚ), 2), (((2 : ℚ) : WithTop ℚ), 3), (⊤, 4)]

def latencyScrape : ParsedMetrics := ⟨∅, ∅, AList.singleton "latency" latencyBuckets⟩

theorem bounded_latencyBuckets : ∀ b ∈ latencyBuckets, Bounded b := by
  have hone : ((1 : ℚ) : WithTop ℚ) < (f64Max : WithTop ℚ) := WithTop.coe_lt_coe.mpr (by decide +kernel)
  have htwo : ((2 : ℚ) : WithTop ℚ) < (f64Max : WithTop ℚ) := WithTop.coe_lt_coe.mpr (by decide +kernel)
  intro b hb
  simp only [latencyBuckets, List.mem_cons, List.not_mem_nil, or_false] at hb
  rcases hb with rfl | rfl | rfl
  · exact Or.inr hone
  · exact Or.inr htwo
  · exact Or.inl rfl

theorem goodput_eq_server_latency :
    (∀ threshold, fractionLe (wireBuckets latencyScrape "latency") threshold =
      Engines.fractionLe latencyBuckets threshold) ∧
      ∀ sloMs, recomputeGoodputPct (wireBuckets latencyScrape "latency") sloMs =
        goodputPct latencyScrape "latency" sloMs :=
  goodput_eq_server rfl bounded_latencyBuckets

end SparkDashboard.Browser
