import SparkDashboard.Engines.Metrics
import SparkDashboard.Engines.Prometheus

/-!
# Percentiles, goodput and means of cumulative histograms

Linear interpolation over `(le, cumulative count)` buckets, as the adapters read it.
-/

namespace SparkDashboard.Engines

def finiteBound : Bucket → Option ℚ
  | (⊤, _) => none
  | ((le : ℚ), _) => some le

def percentile (buckets : List Bucket) (q : ℚ) : Option ℚ :=
  if q < 0 ∨ 1 < q then none
  else
    match buckets.getLast? with
    | none => none
    | some (_, total) =>
      if total ≤ 0 then none
      else
        let target := total * q
        match buckets.findIdx? fun b => decide (target ≤ b.2) with
        | none => none
        | some idx =>
          match buckets[idx]? with
          | none => none
          -- `+Inf` cannot be interpolated: the previous finite bound stands in.
          | some (⊤, _) => (buckets.take idx).reverse.findSome? finiteBound
          | some ((le : ℚ), cum) =>
            match (if idx = 0 then some (((0 : ℚ) : WithTop ℚ), (0 : ℚ)) else buckets[idx - 1]?) with
            | none => none
            | some (⊤, _) => some le
            | some ((lowerLe : ℚ), lowerCum) =>
              let bucketWidth := le - lowerLe
              let bucketCount := cum - lowerCum
              if bucketCount ≤ 0 ∨ bucketWidth ≤ 0 then some le
              else some (lowerLe + (target - lowerCum) / bucketCount * bucketWidth)

def clampUnit (v : ℚ) : ℚ := min (max v 0) 1

/-- The walk of `fractionLe` past the first bucket, from the previous bound and count. -/
def fractionWalk (total threshold : ℚ) : ℚ → ℚ → List Bucket → ℚ
  | _, _, [] => 1
  | _, prevCum, (⊤, _) :: _ => clampUnit (prevCum / total)
  | prevLe, prevCum, ((le : ℚ), cum) :: rest =>
    if threshold ≤ le then
      let bucketWidth := le - prevLe
      let bucketCount := cum - prevCum
      if bucketWidth ≤ 0 ∨ bucketCount ≤ 0 then clampUnit (prevCum / total)
      else
        let frac := (threshold - prevLe) / bucketWidth
        clampUnit ((prevCum + frac * bucketCount) / total)
    else fractionWalk total threshold le cum rest

def fractionLe (buckets : List Bucket) (threshold : ℚ) : Option ℚ :=
  match buckets.getLast?, buckets.head? with
  | some (_, total), some first =>
    if total ≤ 0 then none
    else
      match first with
      | ((firstLe : ℚ), firstCum) =>
        if threshold ≤ firstLe then
          if firstLe ≤ 0 then some 0
          else some (clampUnit (firstCum * clampUnit (threshold / firstLe) / total))
        else some (fractionWalk total threshold 0 0 buckets)
      | (⊤, _) => some (fractionWalk total threshold 0 0 buckets)
  | _, _ => none

def percentilesMs (parsed : ParsedMetrics) (metric : String) : Option LatencyPercentiles :=
  match parsed.histograms.lookup metric with
  | none => none
  | some buckets =>
    let toMs := fun q : ℚ => (percentile buckets q).map (· * 1000)
    let p : LatencyPercentiles := ⟨toMs (50 / 100), toMs (95 / 100), toMs (99 / 100)⟩
    if p.p50Ms = none ∧ p.p95Ms = none ∧ p.p99Ms = none then none else some p

def goodputPct (parsed : ParsedMetrics) (metric : String) (sloMs : ℚ) : Option ℚ :=
  match parsed.histograms.lookup metric with
  | none => none
  | some buckets => (fractionLe buckets (sloMs / 1000)).map (· * 100)

/-- `f64::MAX`, the sentinel `+Inf` is shipped as. -/
def f64Max : ℚ := (2 ^ 53 - 1) * 2 ^ 971

def wireBuckets (parsed : ParsedMetrics) (metric : String) : Option (List HistogramBucket) :=
  match parsed.histograms.lookup metric with
  | none => none
  | some [] => none
  | some raw => some (raw.map fun b => ⟨(finiteBound b).getD f64Max, b.2⟩)

def quotientOver (numerator denominator : Option ℚ) : Option ℚ :=
  match numerator, denominator with
  | some n, some d => if 0 < d then some (n / d) else none
  | _, _ => none

def meanMs (sum count : Option ℚ) : Option ℚ :=
  match sum, count with
  | some s, some c => if 0 < c then some (s / c * 1000) else none
  | _, _ => none

end SparkDashboard.Engines
