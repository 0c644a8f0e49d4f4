import SparkDashboard.Engines.TrackedAdapter

/-!
# Lifetime totals

A lifetime total is meant to be the engine's own counter as scraped. Three of the
five are read from the scrape the warm-up baseline was subtracted from, so they are
that counter exactly on the polls where the baseline holds nothing of it.
-/

namespace SparkDashboard.Engines

open Stepping

inductive LifetimeTotal where
  | requests
  | preemptions
  | promptTokens
  | generationTokens
  | prefixCacheQueries
  deriving DecidableEq, Repr

def LifetimeTotal.published : LifetimeTotal → EngineMetrics → Option Nat
  | .requests => EngineMetrics.totalRequests
  | .preemptions => EngineMetrics.preemptionsTotal
  | .promptTokens => EngineMetrics.totalPromptTokens
  | .generationTokens => EngineMetrics.totalGenerationTokens
  | .prefixCacheQueries => EngineMetrics.prefixCacheQueriesTotal

/-- Where an adapter reads its totals: the counter behind each, and whether it is read
from the scrape with the baseline subtracted. -/
structure TotalsReading {σ ι : Type} (A : TrackedAdapter σ ι) where
  counterOf : LifetimeTotal → Option String
  fromAdjusted : LifetimeTotal → Bool
  published_eq : ∀ a poll raw m, A.scrape poll = some raw → (A.getMetrics a poll).1 = some m → ∀ t,
    LifetimeTotal.published t m = (counterOf t).bind fun key =>
      ((if fromAdjusted t then ((A.warmup a).observe raw).1.adjusted else raw).counter key).map asU64

def vllmTotals : TotalsReading vllmTracked where
  counterOf
    | .requests => some VllmAdapter.warmupTriggerKey
    | .preemptions => some VllmAdapter.preemptions
    | .promptTokens => some VllmAdapter.promptTokens
    | .generationTokens => some VllmAdapter.generationTokens
    | .prefixCacheQueries => some VllmAdapter.prefixCacheQueries
  fromAdjusted
    | .requests | .preemptions => false
    | .promptTokens | .generationTokens | .prefixCacheQueries => true
  published_eq := by
    intro a poll raw m hscrape hm t
    obtain ⟨scrape, now⟩ := poll
    cases hscrape
    cases hm
    cases t <;> rfl

def sglangTotals : TotalsReading sglangTracked where
  counterOf
    | .requests => some SglangAdapter.warmupTriggerKey
    | .preemptions => none
    | .promptTokens | .prefixCacheQueries => some SglangAdapter.promptTokens
    | .generationTokens => some SglangAdapter.generationTokens
  fromAdjusted
    | .requests | .preemptions => false
    | .promptTokens | .generationTokens | .prefixCacheQueries => true
  published_eq := by
    intro a poll raw m hscrape hm t
    change (SglangAdapter.getMetrics a poll).1 = some m at hm
    rw [SglangAdapter.getMetrics, show SglangAdapter.scrape poll = some raw from hscrape] at hm
    have hwarmup : sglangTracked.warmup a = (a.latch poll).warmup := (a.latch_warmup poll).symm
    rw [hwarmup]
    cases hm
    cases t <;> rfl

def llamaCppTotals : TotalsReading llamaCppTracked where
  counterOf
    | .promptTokens => some LlamaCpp.promptTokens
    | .generationTokens => some LlamaCpp.predictedTokens
    | .requests | .preemptions | .prefixCacheQueries => none
  fromAdjusted _ := false
  published_eq := by
    intro a poll raw m hscrape hm t
    change (LlamaCppAdapter.getMetrics a poll).1 = some m at hm
    rw [LlamaCppAdapter.getMetrics, show LlamaCppAdapter.scrape poll = some raw from hscrape] at hm
    have hlifetime : ∀ name, LlamaCpp.lifetime raw name = (raw.counter name).map asU64 := by
      intro name
      exact congrArg (fun f => (raw.counter name).map f) (funext asU64_max_zero)
    cases hm
    cases t <;> first | rfl | exact hlifetime _

section Continuity

variable {σ ι : Type} {A : TrackedAdapter σ ι}

/-- The published totals are the counters of the poll's own scrape. -/
def PassesThrough (R : TotalsReading A) (e : Entry σ ι (Option EngineMetrics)) : Prop :=
  ∀ raw m, A.scrape e.input = some raw → e.output = some m → ∀ t n, LifetimeTotal.published t m = some n →
    ∃ key v, R.counterOf t = some key ∧ raw.counter key = some v ∧ n = asU64 v

def TotalsGrow (e later : Entry σ ι (Option EngineMetrics)) : Prop :=
  ∀ m m', e.output = some m → later.output = some m' → ∀ t n n',
    LifetimeTotal.published t m = some n → LifetimeTotal.published t m' = some n' → n ≤ n'

/-- Every total of every poll is the counter as read, and no total falls over a stretch
in which no counter does. -/
def TotalsContinuous (R : TotalsReading A) (entries : List (Entry σ ι (Option EngineMetrics))) : Prop :=
  (∀ e ∈ entries, PassesThrough R e) ∧
    ∀ before stretch after, entries = before ++ stretch ++ after →
      stretch.Pairwise (fun e later => Grows A e.input later.input) → stretch.Pairwise TotalsGrow

/-- At this poll the baseline in force holds nothing of a counter read through it. -/
def NothingInBaseline (R : TotalsReading A) (e : Entry σ ι (Option EngineMetrics)) : Prop :=
  ∀ raw, A.scrape e.input = some raw → ∀ t key v, R.fromAdjusted t = true → R.counterOf t = some key →
    raw.counter key = some v → (A.warmup e.before).baselineShare raw key = 0

def WholeCounters (A : TrackedAdapter σ ι) (poll : ι) : Prop :=
  ∀ raw, A.scrape poll = some raw → ∀ key v, raw.counter key = some v → ∃ n : Nat, n < 2 ^ 64 ∧ v = n

theorem published_eq_share (R : TotalsReading A) {a : σ} {poll : ι} {raw : ParsedMetrics} {m : EngineMetrics}
    (hscrape : A.scrape poll = some raw) (hm : (A.getMetrics a poll).1 = some m) (t : LifetimeTotal) :
    LifetimeTotal.published t m = (R.counterOf t).bind fun key => (raw.counter key).map fun v =>
      asU64 (v - if R.fromAdjusted t then (A.warmup a).baselineShare raw key else 0) := by
  rw [R.published_eq a poll raw m hscrape hm t]
  refine congrArg (Option.bind (R.counterOf t)) (funext fun key => ?_)
  cases R.fromAdjusted t with
  | false => simp
  | true =>
    simp only [if_true]
    rw [WarmupTracker.counter_adjusted, Option.map_map]
    rfl

theorem passesThrough_of_nothingInBaseline (R : TotalsReading A) {a : σ} {poll : ι}
    (h : NothingInBaseline R (entry A.getMetrics a poll)) : PassesThrough R (entry A.getMetrics a poll) := by
  intro raw m hscrape hm t n hn
  rw [published_eq_share R hscrape hm, Option.bind_eq_some_iff] at hn
  obtain ⟨key, hkey, hn⟩ := hn
  obtain ⟨v, hv, rfl⟩ := Option.map_eq_some_iff.mp hn
  refine ⟨key, v, hkey, hv, ?_⟩
  cases hfrom : R.fromAdjusted t with
  | false => simp
  | true =>
    have hshare : (A.warmup a).baselineShare raw key = 0 := h raw hscrape t key v hfrom hkey hv
    rw [if_pos rfl, hshare, sub_zero]

theorem totalsGrow_of_passesThrough {R : TotalsReading A} {e later : Entry σ ι (Option EngineMetrics)}
    (he : PassesThrough R e) (hlater : PassesThrough R later)
    (hanswered : ∀ m, e.output = some m → ∃ raw, A.scrape e.input = some raw)
    (hanswered' : ∀ m, later.output = some m → ∃ raw, A.scrape later.input = some raw)
    (hgrows : Grows A e.input later.input) : TotalsGrow e later := by
  intro m m' hm hm' t n n' hn hn'
  obtain ⟨raw, hraw⟩ := hanswered m hm
  obtain ⟨raw', hraw'⟩ := hanswered' m' hm'
  obtain ⟨key, v, hkey, hv, rfl⟩ := he raw m hraw hm t n hn
  obtain ⟨key', v', hkey', hv', rfl⟩ := hlater raw' m' hraw' hm' t n' hn'
  cases hkey.symm.trans hkey'
  exact asU64_mono (hgrows raw hraw raw' hraw' key v v' hv hv')

theorem scrape_of_mem_trace {s : σ} {polls : List ι} {e : Entry σ ι (Option EngineMetrics)}
    (he : e ∈ A.trace s polls) : ∀ m, e.output = some m → ∃ raw, A.scrape e.input = some raw := by
  have hall : ∀ e ∈ A.trace s polls, ∀ m, e.output = some m → ∃ raw, A.scrape e.input = some raw :=
    forall_mem_trace_of_entry (fun _ _ _ h => TrackedAdapter.scrape_of_output h) s polls
  exact hall e he

theorem totalsContinuous_of_passesThrough (R : TotalsReading A) {s : σ} {polls : List ι}
    (h : ∀ e ∈ A.trace s polls, PassesThrough R e) : TotalsContinuous R (A.trace s polls) := by
  refine ⟨h, ?_⟩
  intro before stretch after hsplit hgrows
  have hmem : ∀ e ∈ stretch, e ∈ A.trace s polls := by
    intro e he
    rw [hsplit]
    exact List.mem_append_left after (List.mem_append_right before he)
  refine hgrows.imp_of_mem ?_
  intro e later he hlater hgrow
  exact totalsGrow_of_passesThrough (h e (hmem e he)) (h later (hmem later hlater))
    (scrape_of_mem_trace (hmem e he)) (scrape_of_mem_trace (hmem later hlater)) hgrow

theorem totalsContinuous_of_nothingInBaseline (R : TotalsReading A) {s : σ} {polls : List ι}
    (h : ∀ e ∈ A.trace s polls, NothingInBaseline R e) : TotalsContinuous R (A.trace s polls) := by
  refine totalsContinuous_of_passesThrough R ?_
  intro e he
  have hnothing := h e he
  rw [eq_entry_of_mem_trace e he] at hnothing ⊢
  exact passesThrough_of_nothingInBaseline R hnothing

def WholeBaseline (tracker : WarmupTracker) : Prop :=
  ∀ baseline, tracker.baseline = some baseline → ∀ key v, baseline.counters.lookup key = some v →
    ∃ n : Nat, v = n

theorem wholeBaseline_step {a : σ} {poll : ι} (ha : WholeBaseline (A.warmup a)) (hpoll : WholeCounters A poll) :
    WholeBaseline (A.warmup (A.getMetrics a poll).2) := by
  intro baseline hbaseline key v hv
  obtain hb | ⟨raw, hraw, rfl⟩ := TrackedAdapter.baseline_after hbaseline
  · exact ha baseline hb key v hv
  · obtain ⟨n, -, hn⟩ := hpoll raw hraw key v hv
    exact ⟨n, hn⟩

theorem baselineShare_whole {a : σ} {poll : ι} {raw : ParsedMetrics} (ha : WholeBaseline (A.warmup a))
    (hpoll : WholeCounters A poll) (hscrape : A.scrape poll = some raw) (key : String) :
    ∃ k : Nat, (A.warmup a).baselineShare raw key = k := by
  have hafter := wholeBaseline_step ha hpoll
  obtain ⟨-, -, -, hwarmup⟩ := A.answered a poll raw hscrape
  rw [hwarmup] at hafter
  rw [WarmupTracker.baselineShare]
  cases hb : ((A.warmup a).observe raw).2.baseline with
  | none => exact ⟨0, by norm_num⟩
  | some baseline =>
    cases hlookup : baseline.counters.lookup key with
    | none => exact ⟨0, by simp [hlookup]⟩
    | some b =>
      obtain ⟨k, hk⟩ := hafter baseline hb key b hlookup
      exact ⟨k, by simp [hlookup, hk]⟩

/-- Below `u64::MAX` taking anything off a whole counter shows. -/
theorem share_eq_zero_of_asU64_eq {n k : Nat} (hn : n < 2 ^ 64) (hle : (k : ℚ) ≤ n)
    (h : asU64 ((n : ℚ) - k) = asU64 n) : k = 0 := by
  have hkn : k ≤ n := by exact_mod_cast hle
  have hsub : ((n : ℚ) - k) = ((n - k : Nat) : ℚ) := (Nat.cast_sub hkn).symm
  rw [hsub, asU64_natCast (by omega), asU64_natCast hn] at h
  omega

theorem nothingInBaseline_of_passesThrough (R : TotalsReading A) {a : σ} {poll : ι}
    (ha : WholeBaseline (A.warmup a)) (hpoll : WholeCounters A poll)
    (h : PassesThrough R (entry A.getMetrics a poll)) : NothingInBaseline R (entry A.getMetrics a poll) := by
  intro raw hscrape t key v hfrom hkey hv
  have hscrape' : A.scrape poll = some raw := hscrape
  obtain ⟨m, hm, -, -⟩ := A.answered a poll raw hscrape'
  have hpublished := published_eq_share R hscrape' hm t
  rw [hkey, Option.bind_some, hv, Option.map_some, hfrom, if_pos rfl] at hpublished
  obtain ⟨key', v', hkey', hv', heq⟩ := h raw m hscrape hm t _ hpublished
  cases hkey.symm.trans hkey'
  cases hv.symm.trans hv'
  obtain ⟨n, hn, rfl⟩ := hpoll raw hscrape' key v hv
  obtain ⟨k, hk⟩ := baselineShare_whole ha hpoll hscrape' key
  have hle := WarmupTracker.baselineShare_le (t := A.warmup a) hv (Nat.cast_nonneg n)
  rw [hk] at heq hle
  change (A.warmup a).baselineShare raw key = 0
  rw [hk, share_eq_zero_of_asU64_eq hn hle heq]
  norm_num

theorem forall_nothingInBaseline_of_continuous (R : TotalsReading A) {s : σ} {polls : List ι}
    (hs : (A.warmup s).baseline = none) (hwhole : ∀ poll ∈ polls, WholeCounters A poll)
    (h : TotalsContinuous R (A.trace s polls)) : ∀ e ∈ A.trace s polls, NothingInBaseline R e := by
  have hboth : ∀ e ∈ A.trace s polls, PassesThrough R e → NothingInBaseline R e := by
    refine forall_mem_trace
      (fun a rest => WholeBaseline (A.warmup a) ∧ ∀ poll ∈ rest, WholeCounters A poll) ?_ ?_ ⟨?_, hwhole⟩
    · rintro a poll rest ⟨ha, hrest⟩
      exact ⟨wholeBaseline_step ha (hrest poll List.mem_cons_self),
        fun later hlater => hrest later (List.mem_cons_of_mem poll hlater)⟩
    · rintro a poll rest ⟨ha, hrest⟩
      exact nothingInBaseline_of_passesThrough R ha (hrest poll List.mem_cons_self)
    · intro baseline hbaseline
      rw [hs] at hbaseline
      cases hbaseline
  intro e he
  exact hboth e he (h.1 e he)

end Continuity

/-- For vLLM and SGLang the totals are continuous exactly where no baseline ever holds
anything of a counter they are read through; llama.cpp's always are. -/
theorem lifetime_totals_continuous_iff (warmupSkip : Nat) (servedModel : Option String)
    (vllmPolls : List MetricsPoll) (sglangPolls : List SglangPoll) (llamaCppPolls : List LlamaCppPoll) :
    (let entries := vllmTracked.trace (.new warmupSkip) vllmPolls
     ((∀ e ∈ entries, NothingInBaseline vllmTotals e) → TotalsContinuous vllmTotals entries) ∧
        ((∀ poll ∈ vllmPolls, WholeCounters vllmTracked poll) → TotalsContinuous vllmTotals entries →
          ∀ e ∈ entries, NothingInBaseline vllmTotals e)) ∧
    (let entries := sglangTracked.trace (.new warmupSkip) sglangPolls
     ((∀ e ∈ entries, NothingInBaseline sglangTotals e) → TotalsContinuous sglangTotals entries) ∧
        ((∀ poll ∈ sglangPolls, WholeCounters sglangTracked poll) → TotalsContinuous sglangTotals entries →
          ∀ e ∈ entries, NothingInBaseline sglangTotals e)) ∧
    TotalsContinuous llamaCppTotals (llamaCppTracked.trace (.new servedModel) llamaCppPolls) := by
  refine ⟨?_, ?_, ?_⟩
  · exact ⟨totalsContinuous_of_nothingInBaseline vllmTotals,
      forall_nothingInBaseline_of_continuous vllmTotals rfl⟩
  · exact ⟨totalsContinuous_of_nothingInBaseline sglangTotals,
      forall_nothingInBaseline_of_continuous sglangTotals rfl⟩
  · refine totalsContinuous_of_nothingInBaseline llamaCppTotals ?_
    intro e he raw hraw t key v hfrom
    cases hfrom

def oneRequestServed : List MetricsPoll :=
  [⟨some (.ofCounters [(VllmAdapter.warmupTriggerKey, 0), (VllmAdapter.generationTokens, 4)]), 0⟩,
    ⟨some (.ofCounters [(VllmAdapter.warmupTriggerKey, 1), (VllmAdapter.generationTokens, 10)]), 1⟩]

/-- The generated tokens are published as 4 and then, at 10, as 0. -/
theorem vllm_totals_drop_at_baseline :
    ¬ TotalsContinuous vllmTotals (vllmTracked.trace (.new 1) oneRequestServed) := by
  rintro ⟨hpasses, -⟩
  let afterFirst := (VllmAdapter.getMetrics (.new 1) oneRequestServed[0]).2
  let last := entry VllmAdapter.getMetrics afterFirst oneRequestServed[1]
  have hmem : last ∈ vllmTracked.trace (.new 1) oneRequestServed :=
    List.mem_cons_of_mem _ (List.mem_singleton.mpr rfl)
  have hpublished : last.output.bind EngineMetrics.totalGenerationTokens = some 0 := by decide +kernel
  have hcounter : last.input.scrape.bind (·.counter VllmAdapter.generationTokens) = some 10 := by
    decide +kernel
  obtain ⟨m, hm, htotal⟩ := Option.bind_eq_some_iff.mp hpublished
  obtain ⟨raw, hraw, hv⟩ := Option.bind_eq_some_iff.mp hcounter
  obtain ⟨key, v, hkey, hv', hn⟩ := hpasses last hmem raw m hraw hm .generationTokens 0 htotal
  cases hkey
  cases hv.symm.trans hv'
  have hten : asU64 10 = 10 := asU64_natCast (n := 10) (by decide)
  omega

end SparkDashboard.Engines
