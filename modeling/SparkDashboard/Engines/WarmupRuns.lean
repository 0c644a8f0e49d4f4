import Mathlib.Data.List.Induction
import SparkDashboard.Engines.TrackedAdapter

/-!
# Warm-up over a run without restarts

The first scrape gives the cursor, the first one whose trigger has moved far enough from it
the baseline, and every scrape from there on is reported as what has come since.
-/

namespace SparkDashboard.Engines

open Stepping

def BucketsGrow (raw later : ParsedMetrics) : Prop :=
  ∀ name (before after : List Bucket), raw.histograms.lookup name = some before →
    later.histograms.lookup name = some after → sameSchema after before = true →
      ∀ pair ∈ before.zip after, pair.1.2 ≤ pair.2.2

instance (raw later : ParsedMetrics) : Decidable (BucketsGrow raw later) :=
  decidable_of_iff _ (KeyedMap.forall_lookup_iff (P := fun before after =>
    sameSchema after before = true → ∀ pair ∈ before.zip after, pair.1.2 ≤ pair.2.2)).symm

/-- The scrapes of one process: no counter and no bucket of a histogram with the same bounds
falls from one to a later one, and the trigger is in all of them. -/
structure RestartFree (triggerKey : String) (scrapes : List ParsedMetrics) : Prop where
  trigger : ∀ parsed ∈ scrapes, (parsed.counter triggerKey).isSome = true
  counters : scrapes.Pairwise CountersGrow
  buckets : scrapes.Pairwise BucketsGrow

def triggerTotal (triggerKey : String) (parsed : ParsedMetrics) : Nat :=
  ((parsed.counter triggerKey).map asU64).getD 0

/-- The trigger has moved far enough since the first scrape. -/
def Warmed (skipRequests : Nat) (triggerKey : String) (first parsed : ParsedMetrics) : Prop :=
  triggerTotal triggerKey first + skipRequests ≤ triggerTotal triggerKey parsed

instance (skipRequests : Nat) (triggerKey : String) (first : ParsedMetrics) :
    DecidablePred (Warmed skipRequests triggerKey first) := fun _ => Nat.decLe _ _

def grownBy (current baseline : List Bucket) : List ℚ := List.zipWith (fun c b => c.2 - b.2) current baseline

def Cumulative (buckets : List Bucket) : Prop := buckets.Pairwise fun b later => b.2 ≤ later.2

/-- What is reported of a scrape once a baseline is held. -/
structure SinceBaseline (baseline parsed adjusted : ParsedMetrics) : Prop where
  gauges : adjusted.gauges = parsed.gauges
  counter : ∀ key, adjusted.counter key = (parsed.counter key).map (· - (baseline.counter key).getD 0)
  histogram : ∀ name buckets base, parsed.histograms.lookup name = some buckets →
    baseline.histograms.lookup name = some base → buckets.map Prod.fst = base.map Prod.fst →
      adjusted.histograms.lookup name = some (List.zipWith (fun c b => (c.1, c.2 - b.2)) buckets base)
  histogramNew : ∀ name, baseline.histograms.lookup name = none →
    adjusted.histograms.lookup name = parsed.histograms.lookup name
  histogramChanged : ∀ name buckets base, parsed.histograms.lookup name = some buckets →
    baseline.histograms.lookup name = some base → buckets.map Prod.fst ≠ base.map Prod.fst →
      adjusted.histograms.lookup name = none
  cumulative : ∀ name buckets base adjustedBuckets, parsed.histograms.lookup name = some buckets →
    baseline.histograms.lookup name = some base → (grownBy buckets base).IsChain (· ≤ ·) →
      adjusted.histograms.lookup name = some adjustedBuckets → Cumulative adjustedBuckets

section Subtracting

variable {parsed baseline : ParsedMetrics}

theorem countersGrow_refl (parsed : ParsedMetrics) : CountersGrow parsed parsed := by
  intro key v w hv hw
  rw [hv] at hw
  exact (Option.some.inj hw).le

theorem bucketsGrow_refl (parsed : ParsedMetrics) : BucketsGrow parsed parsed := by
  intro name before after hbefore hafter _ pair hpair
  rw [hbefore] at hafter
  cases hafter
  rw [List.zip_eq_zipWith, List.zipWith_self] at hpair
  obtain ⟨b, -, rfl⟩ := List.mem_map.mp hpair
  exact le_refl b.2

theorem lookup_subtractBaseline (parsed : ParsedMetrics) {baseline : HistogramBaseline} {name : String} {base : List Bucket}
    (h : baseline.histograms.lookup name = some base) :
    (subtractBaseline parsed baseline).histograms.lookup name = (parsed.histograms.lookup name).bind fun buckets =>
      if sameSchema buckets base then some (List.zipWith (fun c b => (c.1, max (c.2 - b.2) 0)) buckets base)
      else none := by
  rw [subtractBaseline, KeyedMap.lookup_filterMapKV]
  simp only [h]

theorem lookup_subtractBaseline_new (parsed : ParsedMetrics) {baseline : HistogramBaseline} {name : String}
    (h : baseline.histograms.lookup name = none) :
    (subtractBaseline parsed baseline).histograms.lookup name = parsed.histograms.lookup name := by
  rw [subtractBaseline, KeyedMap.lookup_filterMapKV]
  simp only [h]
  exact Option.bind_fun_some _

theorem zipWith_max_of_le {buckets base : List Bucket} (h : ∀ pair ∈ base.zip buckets, pair.1.2 ≤ pair.2.2) :
    List.zipWith (fun c b : Bucket => (c.1, max (c.2 - b.2) 0)) buckets base =
      List.zipWith (fun c b => (c.1, c.2 - b.2)) buckets base := by
  induction buckets generalizing base with
  | nil => rfl
  | cons c buckets ih =>
    cases base with
    | nil => rfl
    | cons b base =>
      have hfirst : b.2 ≤ c.2 := h (b, c) List.mem_cons_self
      rw [List.zipWith_cons_cons, List.zipWith_cons_cons, ih fun pair hpair => h pair (List.mem_cons_of_mem _ hpair),
        max_eq_left (by linarith)]

theorem not_counterRegression_of_countersGrow (h : CountersGrow baseline parsed) :
    counterRegression parsed (.ofScrape baseline) = false := by
  rw [Bool.eq_false_iff]
  intro hregression
  obtain ⟨key, b, v, hb, hv, hlt⟩ := counterRegression_eq_true_iff.mp hregression
  exact absurd hlt (not_lt.mpr (h key b v hb hv))

theorem cumulative_zipWith {buckets base : List Bucket} (h : (grownBy buckets base).IsChain (· ≤ ·)) :
    Cumulative (List.zipWith (fun c b : Bucket => (c.1, c.2 - b.2)) buckets base) := by
  have hgrown : grownBy buckets base =
      (List.zipWith (fun c b : Bucket => (c.1, c.2 - b.2)) buckets base).map Prod.snd := by
    rw [grownBy, List.map_zipWith]
  rw [hgrown, List.isChain_iff_pairwise, List.pairwise_map] at h
  exact h

theorem sinceBaseline_subtractBaseline (hcounters : CountersGrow baseline parsed)
    (hbuckets : BucketsGrow baseline parsed) :
    SinceBaseline baseline parsed (subtractBaseline parsed (.ofScrape baseline)) := by
  have hlookup : ∀ name, (HistogramBaseline.ofScrape baseline).histograms.lookup name =
      baseline.histograms.lookup name := fun _ => rfl
  have hsame : ∀ name (buckets base : List Bucket), parsed.histograms.lookup name = some buckets →
      baseline.histograms.lookup name = some base → buckets.map Prod.fst = base.map Prod.fst →
        (subtractBaseline parsed (.ofScrape baseline)).histograms.lookup name =
          some (List.zipWith (fun c b => (c.1, c.2 - b.2)) buckets base) := by
    intro name buckets base hparsed hbaseline hbounds
    have hschema : sameSchema buckets base = true := decide_eq_true hbounds
    rw [lookup_subtractBaseline parsed ((hlookup name).trans hbaseline), hparsed, Option.bind_some,
      if_pos hschema, zipWith_max_of_le (hbuckets name base buckets hbaseline hparsed hschema)]
  have hchanged : ∀ name (buckets base : List Bucket), parsed.histograms.lookup name = some buckets →
      baseline.histograms.lookup name = some base → buckets.map Prod.fst ≠ base.map Prod.fst →
        (subtractBaseline parsed (.ofScrape baseline)).histograms.lookup name = none := by
    intro name buckets base hparsed hbaseline hbounds
    have hschema : ¬ sameSchema buckets base = true := fun h => hbounds (of_decide_eq_true h)
    rw [lookup_subtractBaseline parsed ((hlookup name).trans hbaseline), hparsed, Option.bind_some,
      if_neg hschema]
  refine ⟨rfl, counter_subtractBaseline (not_counterRegression_of_countersGrow hcounters), hsame, ?_, hchanged, ?_⟩
  · exact fun name hbaseline => lookup_subtractBaseline_new parsed ((hlookup name).trans hbaseline)
  · intro name buckets base adjustedBuckets hparsed hbaseline hgrown hadjusted
    by_cases hbounds : buckets.map Prod.fst = base.map Prod.fst
    · rw [hsame name buckets base hparsed hbaseline hbounds] at hadjusted
      cases hadjusted
      exact cumulative_zipWith hgrown
    · rw [hchanged name buckets base hparsed hbaseline hbounds] at hadjusted
      cases hadjusted

end Subtracting

section OnePoll

variable (skipRequests : Nat) (triggerKey : String) (first : ParsedMetrics)

/-- The baseline once these scrapes have been seen: the first of them that has warmed. -/
def baselineScrape (before : List ParsedMetrics) : Option ParsedMetrics :=
  before.find? fun parsed => decide (Warmed skipRequests triggerKey first parsed)

def stateAfter (before : List ParsedMetrics) : WarmupState :=
  match baselineScrape skipRequests triggerKey first before with
  | some base => .active (.ofScrape base)
  | none => .warming (before.head?.map (triggerTotal triggerKey))

def reported (before : List ParsedMetrics) (parsed : ParsedMetrics) : WarmupOutput :=
  match baselineScrape skipRequests triggerKey first before with
  | some base => ⟨false, false, subtractBaseline parsed (.ofScrape base)⟩
  | none =>
    if Warmed skipRequests triggerKey first parsed then
      ⟨false, true, subtractBaseline parsed (.ofScrape parsed)⟩
    else ⟨true, false, parsed⟩

variable {skipRequests triggerKey first}

theorem baselineScrape_concat (before : List ParsedMetrics) (parsed : ParsedMetrics) :
    baselineScrape skipRequests triggerKey first (before ++ [parsed]) =
      (baselineScrape skipRequests triggerKey first before).or
        (if Warmed skipRequests triggerKey first parsed then some parsed else none) := by
  rw [baselineScrape, List.find?_append, baselineScrape, List.find?_singleton]
  simp only [decide_eq_true_eq]

theorem observe_warming {cursor : Option Nat} {parsed : ParsedMetrics}
    (hcursor : cursor.getD (triggerTotal triggerKey parsed) = triggerTotal triggerKey first)
    (hle : triggerTotal triggerKey first ≤ triggerTotal triggerKey parsed) :
    (⟨skipRequests, triggerKey, .warming cursor⟩ : WarmupTracker).observe parsed =
      if Warmed skipRequests triggerKey first parsed then
        (⟨false, true, subtractBaseline parsed (.ofScrape parsed)⟩, ⟨skipRequests, triggerKey, .active (.ofScrape parsed)⟩)
      else
        (⟨true, false, parsed⟩, ⟨skipRequests, triggerKey, .warming (some (triggerTotal triggerKey first))⟩) := by
  have htotal : (⟨skipRequests, triggerKey, .warming cursor⟩ : WarmupTracker).currentTotal parsed =
      triggerTotal triggerKey parsed := rfl
  simp only [WarmupTracker.observe, htotal, hcursor]
  rw [if_neg (Nat.not_lt.mpr hle)]
  by_cases hwarmed : Warmed skipRequests triggerKey first parsed
  · rw [if_pos hwarmed, if_pos]
    rw [Warmed] at hwarmed
    omega
  · rw [if_neg hwarmed, if_neg]
    rw [Warmed] at hwarmed
    omega

theorem observe_active {baseline : HistogramBaseline} {parsed : ParsedMetrics}
    (h : counterRegression parsed baseline = false) :
    (⟨skipRequests, triggerKey, .active baseline⟩ : WarmupTracker).observe parsed =
      (⟨false, false, subtractBaseline parsed baseline⟩, ⟨skipRequests, triggerKey, .active baseline⟩) := by
  simp only [WarmupTracker.observe, h, Bool.false_eq_true, if_false]

theorem triggerTotal_le {parsed later : ParsedMetrics} (hgrow : CountersGrow parsed later)
    (hparsed : (parsed.counter triggerKey).isSome = true) (hlater : (later.counter triggerKey).isSome = true) :
    triggerTotal triggerKey parsed ≤ triggerTotal triggerKey later := by
  obtain ⟨v, hv⟩ := Option.isSome_iff_exists.mp hparsed
  obtain ⟨w, hw⟩ := Option.isSome_iff_exists.mp hlater
  rw [triggerTotal, triggerTotal, hv, hw]
  exact asU64_mono (hgrow triggerKey v w hv hw)

theorem RestartFree.grow {scrapes before after : List ParsedMetrics} {earlier parsed : ParsedMetrics}
    (h : RestartFree triggerKey scrapes) (hsplit : scrapes = before ++ parsed :: after) (hearlier : earlier ∈ before) :
    CountersGrow earlier parsed ∧ BucketsGrow earlier parsed := by
  obtain ⟨-, hcounters, hbuckets⟩ := h
  rw [hsplit] at hcounters hbuckets
  constructor
  · exact (List.pairwise_append.mp hcounters).2.2 earlier hearlier parsed List.mem_cons_self
  · exact (List.pairwise_append.mp hbuckets).2.2 earlier hearlier parsed List.mem_cons_self

/-- A scrape of the run moves the tracker from the state after those before it to the next. -/
theorem observe_stateAfter {rest before after : List ParsedMetrics} {parsed : ParsedMetrics}
    (h : RestartFree triggerKey (first :: rest)) (hsplit : first :: rest = before ++ parsed :: after) :
    (⟨skipRequests, triggerKey, stateAfter skipRequests triggerKey first before⟩ : WarmupTracker).observe parsed =
      (reported skipRequests triggerKey first before parsed,
        ⟨skipRequests, triggerKey, stateAfter skipRequests triggerKey first (before ++ [parsed])⟩) := by
  have hhead : before.head?.getD parsed = first := by
    have hfirst := congrArg List.head? hsplit
    rw [List.head?_append, List.head?_cons, List.head?_cons, Option.or_some] at hfirst
    exact (Option.some.inj hfirst).symm
  rw [stateAfter, reported, stateAfter, baselineScrape_concat]
  cases hbase : baselineScrape skipRequests triggerKey first before with
  | some base =>
    have hmem := List.mem_of_find?_eq_some hbase
    exact observe_active (not_counterRegression_of_countersGrow (h.grow hsplit hmem).1)
  | none =>
    have hcursor : (before.head?.map (triggerTotal triggerKey)).getD (triggerTotal triggerKey parsed) =
        triggerTotal triggerKey first := by
      rw [← hhead]
      cases before <;> rfl
    have hle : triggerTotal triggerKey first ≤ triggerTotal triggerKey parsed := by
      have hparsed := h.trigger parsed (by rw [hsplit]; exact List.mem_append_right _ List.mem_cons_self)
      cases before with
      | nil => rw [← hhead]; exact Nat.le_refl _
      | cons earlier before =>
        have hsame : earlier = first := hhead
        rw [← hsame]
        refine triggerTotal_le (h.grow hsplit List.mem_cons_self).1 ?_ hparsed
        rw [hsame]
        exact h.trigger first List.mem_cons_self
    have hnext : (before ++ [parsed]).head?.map (triggerTotal triggerKey) = some (triggerTotal triggerKey first) := by
      rw [← hhead]
      cases before <;> rfl
    simp only
    rw [observe_warming hcursor hle, hnext]
    by_cases hwarmed : Warmed skipRequests triggerKey first parsed
    · simp only [if_pos hwarmed, Option.none_or]
    · simp only [if_neg hwarmed, Option.none_or]

end OnePoll

section Run

variable {skipRequests : Nat} {triggerKey : String} {first : ParsedMetrics} {rest : List ParsedMetrics}

theorem final_observe (skipRequests : Nat) (h : RestartFree triggerKey (first :: rest)) {before : List ParsedMetrics}
    (hinitial : before <+: first :: rest) :
    final WarmupTracker.observe (.new skipRequests triggerKey) before =
      ⟨skipRequests, triggerKey, stateAfter skipRequests triggerKey first before⟩ := by
  induction before using List.reverseRecOn with
  | nil => rfl
  | append_singleton before parsed ih =>
    obtain ⟨after, hafter⟩ := hinitial
    rw [List.append_assoc] at hafter
    rw [final_concat, ih ⟨_, hafter⟩, observe_stateAfter h hafter.symm]

/-- Warming lasts until the first scrape that has warmed, which is the baseline from then on. -/
structure ReportsWarmup (skipRequests : Nat) (triggerKey : String) (first : ParsedMetrics)
    (before : List ParsedMetrics) (parsed : ParsedMetrics) (output : WarmupOutput) : Prop where
  warmingUp : output.warmingUp = true ↔ ∀ q ∈ before ++ [parsed], ¬ Warmed skipRequests triggerKey first q
  justTransitioned : output.justTransitioned = true ↔
    (∀ q ∈ before, ¬ Warmed skipRequests triggerKey first q) ∧ Warmed skipRequests triggerKey first parsed
  sinceBaseline : ∀ earlier base later, before ++ [parsed] = earlier ++ base :: later →
    (∀ q ∈ earlier, ¬ Warmed skipRequests triggerKey first q) → Warmed skipRequests triggerKey first base →
      SinceBaseline base parsed output.adjusted

theorem baselineScrape_eq_none_iff {before : List ParsedMetrics} :
    baselineScrape skipRequests triggerKey first before = none ↔
      ∀ q ∈ before, ¬ Warmed skipRequests triggerKey first q := by
  rw [baselineScrape, List.find?_eq_none]
  simp only [decide_eq_true_eq]

theorem warmed_of_baselineScrape {before : List ParsedMetrics} {base : ParsedMetrics}
    (h : baselineScrape skipRequests triggerKey first before = some base) :
    Warmed skipRequests triggerKey first base := by
  obtain ⟨hwarmed, -⟩ := List.find?_eq_some_iff_append.mp h
  exact of_decide_eq_true hwarmed

theorem baselineScrape_eq_some {before earlier later : List ParsedMetrics} {base : ParsedMetrics}
    (hsplit : before = earlier ++ base :: later) (hearlier : ∀ q ∈ earlier, ¬ Warmed skipRequests triggerKey first q)
    (hbase : Warmed skipRequests triggerKey first base) :
    baselineScrape skipRequests triggerKey first before = some base := by
  rw [hsplit, baselineScrape, List.find?_append, ← baselineScrape, baselineScrape_eq_none_iff.mpr hearlier,
    Option.none_or, List.find?_cons]
  simp only [decide_eq_true hbase]

/-- What is subtracted from a scrape is the baseline once it has been seen. -/
theorem sinceBaseline_reported {before after : List ParsedMetrics} {parsed base : ParsedMetrics}
    (h : RestartFree triggerKey (first :: rest)) (hsplit : first :: rest = before ++ parsed :: after)
    (hfound : baselineScrape skipRequests triggerKey first (before ++ [parsed]) = some base) :
    SinceBaseline base parsed (reported skipRequests triggerKey first before parsed).adjusted := by
  rw [baselineScrape_concat] at hfound
  rw [reported]
  cases hbase : baselineScrape skipRequests triggerKey first before with
  | some held =>
    rw [hbase, Option.some_or, Option.some.injEq] at hfound
    rw [← hfound]
    obtain ⟨hcounters, hbuckets⟩ := h.grow hsplit (List.mem_of_find?_eq_some hbase)
    exact sinceBaseline_subtractBaseline hcounters hbuckets
  | none =>
    rw [hbase, Option.none_or] at hfound
    split at hfound
    · rename_i hwarmed
      cases hfound
      simp only [if_pos hwarmed]
      exact sinceBaseline_subtractBaseline (countersGrow_refl parsed) (bucketsGrow_refl parsed)
    · cases hfound

theorem reportsWarmup {before after : List ParsedMetrics} {parsed : ParsedMetrics}
    (h : RestartFree triggerKey (first :: rest)) (hsplit : first :: rest = before ++ parsed :: after) :
    ReportsWarmup skipRequests triggerKey first before parsed (reported skipRequests triggerKey first before parsed) := by
  have hsince : ∀ earlier base later, before ++ [parsed] = earlier ++ base :: later →
      (∀ q ∈ earlier, ¬ Warmed skipRequests triggerKey first q) → Warmed skipRequests triggerKey first base →
        SinceBaseline base parsed (reported skipRequests triggerKey first before parsed).adjusted := by
    intro earlier base later heq hearlier hbase
    exact sinceBaseline_reported h hsplit (baselineScrape_eq_some heq hearlier hbase)
  refine ⟨?_, ?_, hsince⟩ <;> rw [reported]
  · cases hbase : baselineScrape skipRequests triggerKey first before with
    | some base =>
      refine iff_of_false Bool.false_ne_true fun hnone => ?_
      exact hnone base (List.mem_append_left _ (List.mem_of_find?_eq_some hbase)) (warmed_of_baselineScrape hbase)
    | none =>
      simp only [List.forall_mem_append, List.forall_mem_singleton]
      split
      · rename_i hwarmed
        exact iff_of_false Bool.false_ne_true fun hnone => hnone.2 hwarmed
      · rename_i hwarmed
        exact iff_of_true rfl ⟨baselineScrape_eq_none_iff.mp hbase, hwarmed⟩
  · cases hbase : baselineScrape skipRequests triggerKey first before with
    | some base =>
      refine iff_of_false Bool.false_ne_true fun hnone => ?_
      exact hnone.1 base (List.mem_of_find?_eq_some hbase) (warmed_of_baselineScrape hbase)
    | none =>
      simp only
      split
      · rename_i hwarmed
        exact iff_of_true rfl ⟨baselineScrape_eq_none_iff.mp hbase, hwarmed⟩
      · rename_i hwarmed
        exact iff_of_false Bool.false_ne_true fun hnone => hwarmed hnone.2

/-- Over a run without restarts each poll reports what the scrapes so far make of it. -/
theorem warmup_without_restart (skipRequests : Nat) (h : RestartFree triggerKey (first :: rest)) :
    ∀ earlier e later,
      trace WarmupTracker.observe (.new skipRequests triggerKey) (first :: rest) = earlier ++ e :: later →
        ReportsWarmup skipRequests triggerKey first (earlier.map Entry.input) e.input e.output := by
  intro earlier e later hsplit
  obtain ⟨before, parsed, after, hscrapes, rfl, rfl, -⟩ := exists_split_of_trace_eq hsplit
  have hfinal := final_observe skipRequests h ⟨parsed :: after, hscrapes.symm⟩
  have houtput : (entry WarmupTracker.observe (final WarmupTracker.observe (.new skipRequests triggerKey) before)
      parsed).output = reported skipRequests triggerKey first before parsed := by
    rw [hfinal, entry, observe_stateAfter h hscrapes]
  rw [map_input_trace, houtput]
  exact reportsWarmup h hscrapes

def ttftScrape (requests fast : ℚ) : ParsedMetrics where
  counters := [(⟨"requests", requests⟩ : Sigma fun _ : String => ℚ)].toAList
  histograms := [(⟨"ttft", [(1, fast), (⊤, requests)]⟩ : Sigma fun _ : String => List Bucket)].toAList

theorem restartFree_ttft : RestartFree "requests" [ttftScrape 5 1, ttftScrape 6 1, ttftScrape 9 3] :=
  ⟨by decide +kernel, by decide +kernel, by decide +kernel⟩

/-- One request to skip: the second scrape is the baseline. -/
theorem warmup_without_restart_ttft :
    ReportsWarmup 1 "requests" (ttftScrape 5 1) [ttftScrape 5 1] (ttftScrape 6 1)
      (entry WarmupTracker.observe (final WarmupTracker.observe (.new 1 "requests") [ttftScrape 5 1])
        (ttftScrape 6 1)).output :=
  warmup_without_restart 1 restartFree_ttft [_] _ [_] rfl

/-- A trigger that has grown past what a `u64` holds moves no further. -/
theorem saturated_trigger_keeps_warming :
    ¬ ∀ (skipRequests : Nat) (triggerKey : String) (first : ParsedMetrics) (rest : List ParsedMetrics),
      RestartFree triggerKey (first :: rest) →
        (∀ parsed ∈ first :: rest, ∃ n : Nat, parsed.counter triggerKey = some (n : ℚ)) →
          ∀ earlier e later,
            trace WarmupTracker.observe (.new skipRequests triggerKey) (first :: rest) = earlier ++ e :: later →
              (e.output.warmingUp = true ↔ ∀ q ∈ earlier.map Entry.input ++ [e.input],
                ¬ ∃ v w, first.counter triggerKey = some v ∧ q.counter triggerKey = some w ∧ v + skipRequests ≤ w) := by
  intro h
  have hfirst : (ttftScrape (2 ^ 64) 1).counter "requests" = some ((2 ^ 64 : Nat) : ℚ) := by decide +kernel
  have hsecond : (ttftScrape (2 ^ 65) 1).counter "requests" = some ((2 ^ 65 : Nat) : ℚ) := by decide +kernel
  have hrun : RestartFree "requests" [ttftScrape (2 ^ 64) 1, ttftScrape (2 ^ 65) 1] :=
    ⟨by decide +kernel, by decide +kernel, by decide +kernel⟩
  have hwarming := (h 1 "requests" _ _ hrun (List.forall_mem_cons.mpr ⟨⟨_, hfirst⟩, List.forall_mem_cons.mpr
    ⟨⟨_, hsecond⟩, fun _ hmem => absurd hmem List.not_mem_nil⟩⟩)
    [entry WarmupTracker.observe (.new 1 "requests") (ttftScrape (2 ^ 64) 1)] _ [] rfl).mp (by decide +kernel)
  apply hwarming (ttftScrape (2 ^ 65) 1) (List.mem_append_right _ List.mem_cons_self)
  exact ⟨_, _, hfirst, hsecond, by norm_num⟩

end Run

end SparkDashboard.Engines
