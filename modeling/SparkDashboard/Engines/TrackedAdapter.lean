import SparkDashboard.Engines.LlamaCpp
import SparkDashboard.Engines.Sglang
import SparkDashboard.Engines.Vllm
import SparkDashboard.Library.Stepping

/-!
# Adapters behind a warm-up tracker

What the three adapters that scrape counters have in common: a poll that brings a
scrape runs it through the tracker, and any other poll reports nothing and leaves the
tracker alone. Arguments over runs are made once, for this interface.
-/

namespace SparkDashboard.Engines

open Stepping

structure TrackedAdapter (σ ι : Type) where
  getMetrics : σ → ι → Option EngineMetrics × σ
  warmup : σ → WarmupTracker
  scrape : ι → Option ParsedMetrics
  now : ι → Instant
  answered : ∀ a poll raw, scrape poll = some raw →
    ∃ m, (getMetrics a poll).1 = some m ∧ m.warmingUp = ((warmup a).observe raw).1.warmingUp ∧
      warmup (getMetrics a poll).2 = ((warmup a).observe raw).2
  unanswered : ∀ a poll, scrape poll = none →
    (getMetrics a poll).1 = none ∧ warmup (getMetrics a poll).2 = warmup a

namespace TrackedAdapter

variable {σ ι : Type} (A : TrackedAdapter σ ι)

def trace (s : σ) (polls : List ι) : List (Entry σ ι (Option EngineMetrics)) :=
  Stepping.trace A.getMetrics s polls

variable {A}

theorem scrape_of_output {a : σ} {poll : ι} {m : EngineMetrics} (h : (A.getMetrics a poll).1 = some m) :
    ∃ raw, A.scrape poll = some raw := by
  cases hscrape : A.scrape poll with
  | none =>
    rw [(A.unanswered a poll hscrape).1] at h
    cases h
  | some raw => exact ⟨raw, rfl⟩

theorem baseline_after {a : σ} {poll : ι} {baseline : HistogramBaseline}
    (h : (A.warmup (A.getMetrics a poll).2).baseline = some baseline) :
    (A.warmup a).baseline = some baseline ∨
      ∃ raw, A.scrape poll = some raw ∧ baseline = .ofScrape raw := by
  cases hscrape : A.scrape poll with
  | none =>
    rw [(A.unanswered a poll hscrape).2] at h
    exact .inl h
  | some raw =>
    obtain ⟨-, -, -, hwarmup⟩ := A.answered a poll raw hscrape
    rw [hwarmup] at h
    rcases WarmupTracker.baseline_observe h with hb | hb
    · exact .inl hb
    · exact .inr ⟨raw, rfl, hb⟩

end TrackedAdapter

section Growth

def CountersGrow (raw later : ParsedMetrics) : Prop :=
  ∀ key v w, raw.counter key = some v → later.counter key = some w → v ≤ w

theorem countersGrow_iff {raw later : ParsedMetrics} :
    CountersGrow raw later ↔
      ∀ c ∈ raw.counters.entries, ∀ d ∈ later.counters.entries, c.1 = d.1 → c.2 ≤ d.2 :=
  KeyedMap.forall_lookup_iff

instance (raw later : ParsedMetrics) : Decidable (CountersGrow raw later) :=
  decidable_of_iff _ countersGrow_iff.symm

variable {σ ι : Type} (A : TrackedAdapter σ ι)

def Grows (poll later : ι) : Prop :=
  ∀ raw ∈ A.scrape poll, ∀ raw' ∈ A.scrape later, CountersGrow raw raw'

instance (poll later : ι) : Decidable (Grows A poll later) :=
  inferInstanceAs (Decidable (∀ raw ∈ A.scrape poll, ∀ raw' ∈ A.scrape later, CountersGrow raw raw'))

def StrictlyIncreasing (polls : List ι) : Prop :=
  polls.Pairwise fun poll later => A.now poll < A.now later

/-- Polls of one server after another: counters only grow within a process, and a
restarted one counts from zero. -/
structure ServerRun (processes : List (List ι)) : Prop where
  times : StrictlyIncreasing A processes.flatten
  grows : ∀ polls ∈ processes, polls.Pairwise (Grows A)
  fromZero : ∀ poll ∈ processes.flatten, ∀ raw ∈ A.scrape poll, ∀ c ∈ raw.counters.entries, 0 ≤ c.2

end Growth

def vllmTracked : TrackedAdapter VllmAdapter MetricsPoll where
  getMetrics := VllmAdapter.getMetrics
  warmup := VllmAdapter.warmup
  scrape := MetricsPoll.scrape
  now := MetricsPoll.now
  answered := by
    intro a poll raw h
    obtain ⟨scrape, now⟩ := poll
    cases h
    exact ⟨_, rfl, rfl, a.afterWarmup_warmup raw⟩
  unanswered := by
    intro a poll h
    obtain ⟨scrape, now⟩ := poll
    cases h
    exact ⟨rfl, rfl⟩

def sglangTracked : TrackedAdapter SglangAdapter SglangPoll where
  getMetrics := SglangAdapter.getMetrics
  warmup := SglangAdapter.warmup
  scrape := SglangAdapter.scrape
  now := SglangPoll.now
  answered := by
    intro a poll raw h
    simp only [SglangAdapter.getMetrics, h]
    refine ⟨_, rfl, ?_, ?_⟩
    · rw [← a.latch_warmup poll]
      rfl
    · rw [SglangAdapter.afterWarmup_warmup, SglangAdapter.latch_warmup]
  unanswered := by
    intro a poll h
    simp only [SglangAdapter.getMetrics, h]
    exact ⟨trivial, a.latch_warmup poll⟩

def llamaCppTracked : TrackedAdapter LlamaCppAdapter LlamaCppPoll where
  getMetrics := LlamaCppAdapter.getMetrics
  warmup := LlamaCppAdapter.warmup
  scrape := LlamaCppAdapter.scrape
  now := LlamaCppPoll.now
  answered := by
    intro a poll raw h
    simp only [LlamaCppAdapter.getMetrics, h]
    refine ⟨_, rfl, ?_, ?_⟩
    · rw [← a.latchPoll_warmup poll]
      rfl
    · rw [LlamaCppAdapter.afterWarmup_warmup, LlamaCppAdapter.latchPoll_warmup]
  unanswered := by
    intro a poll h
    simp only [LlamaCppAdapter.getMetrics, h]
    exact ⟨trivial, a.latchPoll_warmup poll⟩

end SparkDashboard.Engines
