import SparkDashboard.Engines.TrackedAdapter

/-!
# Reported token rates

The tracker notices a restart by comparing a scrape with its baseline; a rate compares
it with the previous reading. A rate is negative exactly where the second comparison
falls and the first does not.
-/

namespace SparkDashboard.Engines

open Stepping

/-- The rate state a scrape is read against: forgotten on the poll that captures a baseline. -/
def carriedRate (tracker : WarmupTracker) (raw : ParsedMetrics) (rate : CounterRate) : CounterRate :=
  if (tracker.observe raw).1.justTransitioned then rate.reset else rate

def tokenReading (tracker : WarmupTracker) (raw : ParsedMetrics) (fromAdjusted : Bool) (key : String) :
    Option ℚ :=
  (if fromAdjusted then (tracker.observe raw).1.adjusted else raw).counter key

/-- A token counter an adapter turns into a rate, and the state it keeps for that. -/
structure RateChannel {σ ι : Type} (A : TrackedAdapter σ ι) where
  key : String
  fromAdjusted : Bool
  rate : σ → CounterRate
  published : EngineMetrics → Option ℚ
  answered : ∀ a poll raw m, A.scrape poll = some raw → (A.getMetrics a poll).1 = some m →
    published m = (if ((A.warmup a).observe raw).1.warmingUp then none
      else (carriedRate (A.warmup a) raw (rate a)).rate
        (tokenReading (A.warmup a) raw fromAdjusted key) (A.now poll)) ∧
    rate (A.getMetrics a poll).2 = ((carriedRate (A.warmup a) raw (rate a)).observe
      (tokenReading (A.warmup a) raw fromAdjusted key) (A.now poll)).2
  unanswered : ∀ a poll, A.scrape poll = none → rate (A.getMetrics a poll).2 = rate a

def vllmGeneration : RateChannel vllmTracked where
  key := VllmAdapter.generationTokens
  fromAdjusted := true
  rate := VllmAdapter.genRate
  published := EngineMetrics.tokensPerSec
  answered := by
    intro a poll raw m hscrape hm
    obtain ⟨scrape, now⟩ := poll
    cases hscrape
    cases hm
    have hrate : (a.afterWarmup raw).genRate = carriedRate (vllmTracked.warmup a) raw a.genRate :=
      a.afterWarmup_genRate raw
    rw [← hrate]
    exact ⟨rfl, rfl⟩
  unanswered := by
    intro a poll h
    obtain ⟨scrape, now⟩ := poll
    cases h
    rfl

def vllmPrompt : RateChannel vllmTracked where
  key := VllmAdapter.promptTokens
  fromAdjusted := true
  rate := VllmAdapter.promptRate
  published := EngineMetrics.promptTokensPerSec
  answered := by
    intro a poll raw m hscrape hm
    obtain ⟨scrape, now⟩ := poll
    cases hscrape
    cases hm
    have hrate : (a.afterWarmup raw).promptRate = carriedRate (vllmTracked.warmup a) raw a.promptRate :=
      a.afterWarmup_promptRate raw
    rw [← hrate]
    exact ⟨rfl, rfl⟩
  unanswered := by
    intro a poll h
    obtain ⟨scrape, now⟩ := poll
    cases h
    rfl

def sglangGeneration : RateChannel sglangTracked where
  key := SglangAdapter.generationTokens
  fromAdjusted := true
  rate := SglangAdapter.genRate
  published := EngineMetrics.tokensPerSec
  answered := by
    intro a poll raw m hscrape hm
    change SglangAdapter.scrape poll = some raw at hscrape
    have hwarmup : sglangTracked.warmup a = (a.latch poll).warmup := (a.latch_warmup poll).symm
    have hrate : ((a.latch poll).afterWarmup raw).genRate =
        carriedRate (a.latch poll).warmup raw a.genRate := by
      rw [SglangAdapter.afterWarmup_genRate, SglangAdapter.latch_genRate, carriedRate]
    rw [hwarmup, ← hrate]
    simp only [sglangTracked, SglangAdapter.getMetrics, hscrape] at hm ⊢
    cases hm
    exact ⟨rfl, rfl⟩
  unanswered := by
    intro a poll h
    change SglangAdapter.scrape poll = none at h
    simp only [sglangTracked, SglangAdapter.getMetrics, h]
    exact a.latch_genRate poll

def sglangPrompt : RateChannel sglangTracked where
  key := SglangAdapter.promptTokens
  fromAdjusted := true
  rate := SglangAdapter.promptRate
  published := EngineMetrics.promptTokensPerSec
  answered := by
    intro a poll raw m hscrape hm
    change SglangAdapter.scrape poll = some raw at hscrape
    have hwarmup : sglangTracked.warmup a = (a.latch poll).warmup := (a.latch_warmup poll).symm
    have hrate : ((a.latch poll).afterWarmup raw).promptRate =
        carriedRate (a.latch poll).warmup raw a.promptRate := by
      rw [SglangAdapter.afterWarmup_promptRate, SglangAdapter.latch_promptRate, carriedRate]
    rw [hwarmup, ← hrate]
    simp only [sglangTracked, SglangAdapter.getMetrics, hscrape] at hm ⊢
    cases hm
    exact ⟨rfl, rfl⟩
  unanswered := by
    intro a poll h
    change SglangAdapter.scrape poll = none at h
    simp only [sglangTracked, SglangAdapter.getMetrics, h]
    exact a.latch_promptRate poll

/-- Its readings are taken from the scrape as it came; a generation rate is not a
channel, being taken from a latched reading. -/
def llamaCppPrompt : RateChannel llamaCppTracked where
  key := LlamaCpp.promptTokens
  fromAdjusted := false
  rate := LlamaCppAdapter.promptRate
  published := EngineMetrics.promptTokensPerSec
  answered := by
    intro a poll raw m hscrape hm
    change LlamaCppAdapter.scrape poll = some raw at hscrape
    have hwarmup : llamaCppTracked.warmup a = (a.latchPoll poll).warmup := (a.latchPoll_warmup poll).symm
    have hrate : ((a.latchPoll poll).afterWarmup raw).promptRate =
        carriedRate (a.latchPoll poll).warmup raw a.promptRate := by
      rw [LlamaCppAdapter.afterWarmup_promptRate, LlamaCppAdapter.latchPoll_promptRate, carriedRate]
    rw [hwarmup, ← hrate]
    simp only [llamaCppTracked, LlamaCppAdapter.getMetrics, hscrape] at hm ⊢
    cases hm
    exact ⟨rfl, rfl⟩
  unanswered := by
    intro a poll h
    change LlamaCppAdapter.scrape poll = none at h
    simp only [llamaCppTracked, LlamaCppAdapter.getMetrics, h]
    exact a.latchPoll_promptRate poll

section Channel

variable {σ ι : Type} {A : TrackedAdapter σ ι}

/-- The counter's latest reading over the polls so far, counted anew from the poll that
captures a baseline. -/
def lastReading (A : TrackedAdapter σ ι) (key : String) (past : List (Entry σ ι (Option EngineMetrics))) :
    Option ℚ :=
  past.foldl (fun last e =>
    match A.scrape e.input with
    | some raw =>
      if ((A.warmup e.before).observe raw).1.justTransitioned then raw.counter key
      else (raw.counter key).or last
    | none => last) none

theorem lastReading_append (key : String) (past : List (Entry σ ι (Option EngineMetrics)))
    (e : Entry σ ι (Option EngineMetrics)) :
    lastReading A key (past ++ [e]) =
      match A.scrape e.input with
      | some raw =>
        if ((A.warmup e.before).observe raw).1.justTransitioned then raw.counter key
        else (raw.counter key).or (lastReading A key past)
      | none => lastReading A key past := by
  rw [lastReading, List.foldl_append]
  rfl

/-- The counter reads below its latest reading since the baseline, and no baselined
counter reads below the baseline. -/
def HiddenReset (A : TrackedAdapter σ ι) (key : String) (past : List (Entry σ ι (Option EngineMetrics)))
    (e : Entry σ ι (Option EngineMetrics)) : Prop :=
  ∃ raw baseline v last, A.scrape e.input = some raw ∧ (A.warmup e.before).baseline = some baseline ∧
    counterRegression raw baseline = false ∧ raw.counter key = some v ∧
    lastReading A key past = some last ∧ v < last

def NonNegative (published : EngineMetrics → Option ℚ) (e : Entry σ ι (Option EngineMetrics)) : Prop :=
  ∀ m rate, e.output = some m → published m = some rate → 0 ≤ rate

/-- What the channel's readings are counted from while `baseline` is held. -/
def RateChannel.offset (C : RateChannel A) (baseline : HistogramBaseline) : ℚ :=
  if C.fromAdjusted then (baseline.counters.lookup C.key).getD 0 else 0

structure RateChannel.Tracks (C : RateChannel A) (past : List (Entry σ ι (Option EngineMetrics))) (a : σ)
    (rest : List ι) : Prop where
  reading : ∀ baseline, (A.warmup a).baseline = some baseline →
    (C.rate a).prev.map Prod.fst = (lastReading A C.key past).map (· - C.offset baseline)
  earlier : ∀ v t, (C.rate a).prev = some (v, t) → ∀ poll ∈ rest, t < A.now poll
  increasing : rest.Pairwise fun poll later => A.now poll < A.now later

theorem RateChannel.reading_eq (C : RateChannel A) {tracker : WarmupTracker} {raw : ParsedMetrics}
    {baseline : HistogramBaseline} (h : (tracker.observe raw).2.baseline = some baseline) :
    tokenReading tracker raw C.fromAdjusted C.key = (raw.counter C.key).map (· - C.offset baseline) := by
  rw [tokenReading, offset]
  cases C.fromAdjusted with
  | false => simp
  | true =>
    simp only [if_true]
    rw [WarmupTracker.counter_adjusted, WarmupTracker.baselineShare, h]

theorem CounterRate.observe_prev (r : CounterRate) (current : Option ℚ) (now : Instant) :
    (r.observe current now).2.prev = (current.map fun v => (v, now)).or r.prev := by
  cases current <;> rfl

theorem RateChannel.tracks_step (C : RateChannel A) {past : List (Entry σ ι (Option EngineMetrics))} {a : σ}
    {poll : ι} {rest : List ι} (h : C.Tracks past a (poll :: rest)) :
    C.Tracks (past ++ [entry A.getMetrics a poll]) (A.getMetrics a poll).2 rest := by
  obtain ⟨hnow, hrest⟩ := List.pairwise_cons.mp h.increasing
  cases hscrape : A.scrape poll with
  | none =>
    obtain ⟨-, hwarmup⟩ := A.unanswered a poll hscrape
    have hlast : lastReading A C.key (past ++ [entry A.getMetrics a poll]) = lastReading A C.key past := by
      rw [lastReading_append]
      simp only [entry, hscrape]
    refine ⟨?_, ?_, hrest⟩
    · rw [hwarmup, C.unanswered a poll hscrape, hlast]
      exact h.reading
    · rw [C.unanswered a poll hscrape]
      intro v t hprev later hlater
      exact h.earlier v t hprev later (List.mem_cons_of_mem poll hlater)
  | some raw =>
    obtain ⟨m, hm, -, hwarmup⟩ := A.answered a poll raw hscrape
    obtain ⟨-, hrate⟩ := C.answered a poll raw m hscrape hm
    have hlast : lastReading A C.key (past ++ [entry A.getMetrics a poll]) =
        if ((A.warmup a).observe raw).1.justTransitioned then raw.counter C.key
        else (raw.counter C.key).or (lastReading A C.key past) := by
      rw [lastReading_append]
      simp only [entry, hscrape]
      rfl
    refine ⟨?_, ?_, hrest⟩
    · intro baseline hbaseline
      rw [hwarmup] at hbaseline
      rw [hrate, CounterRate.observe_prev, C.reading_eq hbaseline, hlast, carriedRate]
      obtain ⟨-, -, hafter⟩ | ⟨-, hout, hafter⟩ | ⟨_, -, -, -, hafter⟩ | ⟨b, hb, -, hout, hafter⟩ :=
        (A.warmup a).observe_cases raw
      · rw [hafter] at hbaseline
        cases hbaseline
      · rw [hout]
        cases raw.counter C.key <;> rfl
      · rw [hafter] at hbaseline
        cases hbaseline
      · rw [hafter] at hbaseline
        rw [hout]
        cases raw.counter C.key with
        | none => exact h.reading baseline hbaseline
        | some v => rfl
    · intro v t hprev later hlater
      rw [hrate, CounterRate.observe_prev] at hprev
      cases hreading : tokenReading (A.warmup a) raw C.fromAdjusted C.key with
      | some reading =>
        rw [hreading] at hprev
        cases hprev
        exact hnow later hlater
      | none =>
        rw [hreading, carriedRate] at hprev
        split at hprev
        · cases hprev
        · exact h.earlier v t hprev later (List.mem_cons_of_mem poll hlater)

theorem nonNegative_of_none {published : EngineMetrics → Option ℚ} {e : Entry σ ι (Option EngineMetrics)}
    (h : ∀ m, e.output = some m → published m = none) : NonNegative published e := by
  intro m rate hm hrate
  rw [h m hm] at hrate
  cases hrate

theorem not_hiddenReset_of_warming {key : String} {past : List (Entry σ ι (Option EngineMetrics))}
    {e : Entry σ ι (Option EngineMetrics)} (h : (A.warmup e.before).baseline = none) :
    ¬ HiddenReset A key past e := by
  rintro ⟨_, _, _, _, -, hbaseline, -⟩
  rw [h] at hbaseline
  cases hbaseline

theorem RateChannel.negative_iff (C : RateChannel A) {past : List (Entry σ ι (Option EngineMetrics))} {a : σ}
    {poll : ι} {rest : List ι} (h : C.Tracks past a (poll :: rest)) {baseline : HistogramBaseline}
    (hbaseline : (A.warmup a).baseline = some baseline) (reading : Option ℚ) :
    (∃ x, (C.rate a).rate (reading.map (· - C.offset baseline)) (A.now poll) = some x ∧ x < 0) ↔
      ∃ v last, reading = some v ∧ lastReading A C.key past = some last ∧ v < last := by
  have hreading := h.reading baseline hbaseline
  cases hv : reading with
  | none => simp
  | some v =>
    cases hprev : (C.rate a).prev with
    | none =>
      rw [hprev] at hreading
      have hnone : lastReading A C.key past = none := Option.map_eq_none_iff.mp hreading.symm
      simp [CounterRate.rate, hprev, hnone]
    | some p =>
      obtain ⟨prevVal, prevTime⟩ := p
      rw [hprev] at hreading
      obtain ⟨last, hlast, hoffset⟩ := Option.map_eq_some_iff.mp hreading.symm
      have htime : prevTime < A.now poll := h.earlier prevVal prevTime hprev poll List.mem_cons_self
      rw [Option.map_some, CounterRate.rate_negative_iff hprev htime, hlast]
      constructor
      · intro hlt
        exact ⟨v, last, rfl, rfl, by linarith⟩
      · rintro ⟨v', last', hv', hlast', hlt⟩
        cases hv'
        cases hlast'
        linarith

theorem RateChannel.nonNegative_iff_of_tracks (C : RateChannel A)
    {past : List (Entry σ ι (Option EngineMetrics))} {a : σ} {poll : ι} {rest : List ι}
    (h : C.Tracks past a (poll :: rest)) :
    NonNegative C.published (entry A.getMetrics a poll) ↔
      ¬ HiddenReset A C.key past (entry A.getMetrics a poll) := by
  cases hscrape : A.scrape poll with
  | none =>
    refine iff_of_true ?_ ?_
    · intro m rate hm
      cases (show (A.getMetrics a poll).1 = some m from hm).symm.trans (A.unanswered a poll hscrape).1
    · rintro ⟨raw, _, _, _, hraw, -⟩
      cases hraw.symm.trans hscrape
  | some raw =>
    obtain ⟨m, hm, -, -⟩ := A.answered a poll raw hscrape
    obtain ⟨hpublished, -⟩ := C.answered a poll raw m hscrape hm
    have honly : ∀ m', (entry A.getMetrics a poll).output = some m' → m' = m :=
      fun m' hm' => Option.some.inj (hm'.symm.trans hm)
    obtain ⟨hwarming, hout, -⟩ | ⟨hwarming, hout, -⟩ | ⟨b, hb, hreg, hout, -⟩ | ⟨b, hb, hreg, hout, hafter⟩ :=
      (A.warmup a).observe_cases raw
    · refine iff_of_true (nonNegative_of_none ?_) (not_hiddenReset_of_warming hwarming)
      intro m' hm'
      rw [honly m' hm', hpublished, hout]
      rfl
    · refine iff_of_true (nonNegative_of_none ?_) (not_hiddenReset_of_warming hwarming)
      intro m' hm'
      rw [honly m' hm', hpublished, carriedRate, hout]
      exact CounterRate.rate_reset (C.rate a) _ _
    · refine iff_of_true (nonNegative_of_none ?_) ?_
      · intro m' hm'
        rw [honly m' hm', hpublished, hout]
        rfl
      · rintro ⟨raw', b', _, _, hraw', hb', hreg', -⟩
        cases hscrape.symm.trans hraw'
        cases hb.symm.trans hb'
        rw [hreg] at hreg'
        cases hreg'
    · have hheld : ((A.warmup a).observe raw).2.baseline = some b := by rw [hafter, hb]
      have hrate : C.published m =
          (C.rate a).rate ((raw.counter C.key).map (· - C.offset b)) (A.now poll) := by
        rw [hpublished, C.reading_eq hheld, carriedRate, hout]
        rfl
      rw [← not_iff_not, not_not]
      have hnegative := C.negative_iff h hb (raw.counter C.key)
      rw [← hrate] at hnegative
      constructor
      · intro hneg
        simp only [NonNegative, not_forall, not_le] at hneg
        obtain ⟨m', x, hm', hx, hlt⟩ := hneg
        rw [honly m' hm'] at hx
        obtain ⟨v, last, hv, hlast, hvlast⟩ := hnegative.mp ⟨x, hx, hlt⟩
        exact ⟨raw, b, v, last, hscrape, hb, hreg, hv, hlast, hvlast⟩
      · rintro ⟨raw', b', v, last, hraw', -, -, hv, hlast, hvlast⟩ hnonneg
        cases hscrape.symm.trans hraw'
        obtain ⟨x, hx, hlt⟩ := hnegative.mpr ⟨v, last, hv, hlast, hvlast⟩
        exact absurd (hnonneg m x hm hx) (not_le.mpr hlt)

theorem RateChannel.tracks_nil (C : RateChannel A) {s : σ} {polls : List ι}
    (hbaseline : (A.warmup s).baseline = none) (hrate : (C.rate s).prev = none)
    (htimes : StrictlyIncreasing A polls) : C.Tracks [] s polls := by
  refine ⟨?_, ?_, htimes⟩
  · intro baseline h
    rw [hbaseline] at h
    cases h
  · intro v t h
    rw [hrate] at h
    cases h

theorem RateChannel.forall_nonNegative_iff (C : RateChannel A) {s : σ} {polls : List ι}
    (hbaseline : (A.warmup s).baseline = none) (hrate : (C.rate s).prev = none)
    (htimes : StrictlyIncreasing A polls) :
    (∀ e ∈ A.trace s polls, NonNegative C.published e) ↔
      ∀ past e rest, A.trace s polls = past ++ e :: rest → ¬ HiddenReset A C.key past e := by
  have hentry := forall_split_trace C.Tracks
    (fun past e => NonNegative C.published e ↔ ¬ HiddenReset A C.key past e)
    (fun _ _ _ _ => C.tracks_step) (fun _ _ _ _ => C.nonNegative_iff_of_tracks) []
    (C.tracks_nil hbaseline hrate htimes)
  constructor
  · intro h past e rest hsplit
    refine (hentry past e rest hsplit).mp (h e ?_)
    rw [hsplit]
    exact List.mem_append_right past List.mem_cons_self
  · intro h e he
    obtain ⟨past, rest, hsplit⟩ := List.append_of_mem he
    exact (hentry past e rest hsplit).mpr (h past e rest hsplit)

end Channel

namespace LlamaCppAdapter

def carriedGenerated (tracker : WarmupTracker) (raw : ParsedMetrics) (generated : Option ℚ) : Option ℚ :=
  if (tracker.observe raw).1.justTransitioned then none else generated

/-- The reading the generation rate is taken from on a poll that brings `raw`. -/
def fedReading (a : LlamaCppAdapter) (poll : LlamaCppPoll) (raw : ParsedMetrics) : Option ℚ :=
  LlamaCpp.liveGenerated (raw.counter LlamaCpp.predictedTokens)
    ((((a.latchPoll poll).afterWarmup raw).slotsOf raw poll.slots).map LlamaCpp.Slots.decodedInFlight)
    (carriedGenerated a.warmup raw a.generated)

theorem getMetrics_generation {a : LlamaCppAdapter} {poll : LlamaCppPoll} {raw : ParsedMetrics}
    (hscrape : scrape poll = some raw) :
    (∀ m, (a.getMetrics poll).1 = some m → m.tokensPerSec = if (a.warmup.observe raw).1.warmingUp then none
      else (carriedRate a.warmup raw a.genRate).rate (a.fedReading poll raw) poll.now) ∧
    (a.getMetrics poll).2.genRate =
      ((carriedRate a.warmup raw a.genRate).observe (a.fedReading poll raw) poll.now).2 ∧
    (a.getMetrics poll).2.generated =
      (a.fedReading poll raw).or (carriedGenerated a.warmup raw a.generated) := by
  have hrate : ((a.latchPoll poll).afterWarmup raw).genRate = carriedRate a.warmup raw a.genRate := by
    rw [afterWarmup_genRate, latchPoll_genRate, latchPoll_warmup, carriedRate]
  have hgenerated : ((a.latchPoll poll).afterWarmup raw).generated =
      carriedGenerated a.warmup raw a.generated := by
    rw [afterWarmup_generated, latchPoll_generated, latchPoll_warmup, carriedGenerated]
  rw [fedReading, ← hrate, ← hgenerated, ← a.latchPoll_warmup poll]
  simp only [getMetrics, hscrape]
  refine ⟨?_, trivial, trivial⟩
  intro m hm
  cases hm
  rfl

theorem getMetrics_unanswered {a : LlamaCppAdapter} {poll : LlamaCppPoll} (hscrape : scrape poll = none) :
    a.getMetrics poll = (none, a.latchPoll poll) := by
  rw [getMetrics, hscrape]

/-- The latch holds what the generation rate was last fed. -/
structure GenerationLatched (a : LlamaCppAdapter) (rest : List LlamaCppPoll) : Prop where
  latched : a.genRate.prev.map Prod.fst = a.generated
  earlier : ∀ v t, a.genRate.prev = some (v, t) → ∀ poll ∈ rest, t < poll.now
  increasing : StrictlyIncreasing llamaCppTracked rest

theorem carried_latched {a : LlamaCppAdapter} {rest : List LlamaCppPoll} (h : a.GenerationLatched rest)
    (raw : ParsedMetrics) :
    (carriedRate a.warmup raw a.genRate).prev.map Prod.fst = carriedGenerated a.warmup raw a.generated ∧
      ∀ v t, (carriedRate a.warmup raw a.genRate).prev = some (v, t) → ∀ poll ∈ rest, t < poll.now := by
  rw [carriedRate, carriedGenerated]
  split
  · refine ⟨by rw [CounterRate.reset]; rfl, ?_⟩
    intro v t hprev
    cases hprev
  · exact ⟨h.latched, h.earlier⟩

theorem le_fedReading {a : LlamaCppAdapter} {poll : LlamaCppPoll} {raw : ParsedMetrics} {v w : ℚ}
    (hv : carriedGenerated a.warmup raw a.generated = some v) (hw : a.fedReading poll raw = some w) : v ≤ w := by
  rw [fedReading, hv, LlamaCpp.liveGenerated] at hw
  obtain ⟨counted, -, rfl⟩ := Option.map_eq_some_iff.mp hw
  exact le_max_right _ v

theorem generationLatched_step {a : LlamaCppAdapter} {poll : LlamaCppPoll} {rest : List LlamaCppPoll}
    (h : a.GenerationLatched (poll :: rest)) : (a.getMetrics poll).2.GenerationLatched rest := by
  obtain ⟨hnow, hrest⟩ := List.pairwise_cons.mp h.increasing
  cases hscrape : scrape poll with
  | none =>
    rw [getMetrics_unanswered hscrape]
    refine ⟨?_, ?_, hrest⟩
    · rw [latchPoll_genRate, latchPoll_generated]
      exact h.latched
    · rw [latchPoll_genRate]
      intro v t hprev later hlater
      exact h.earlier v t hprev later (List.mem_cons_of_mem poll hlater)
  | some raw =>
    obtain ⟨-, hrate, hgenerated⟩ := getMetrics_generation (a := a) hscrape
    obtain ⟨hlatched, hearlier⟩ := carried_latched h raw
    refine ⟨?_, ?_, hrest⟩
    · rw [hrate, hgenerated, CounterRate.observe_prev, ← hlatched]
      cases a.fedReading poll raw <;> rfl
    · intro v t hprev later hlater
      rw [hrate, CounterRate.observe_prev] at hprev
      cases hfed : a.fedReading poll raw with
      | some w =>
        rw [hfed] at hprev
        cases hprev
        exact hnow later hlater
      | none =>
        rw [hfed] at hprev
        exact hearlier v t hprev later (List.mem_cons_of_mem poll hlater)

theorem nonNegative_of_generationLatched {a : LlamaCppAdapter} {poll : LlamaCppPoll}
    {rest : List LlamaCppPoll} (h : a.GenerationLatched (poll :: rest)) :
    NonNegative EngineMetrics.tokensPerSec (entry getMetrics a poll) := by
  intro m x hm hx
  have hm' : (a.getMetrics poll).1 = some m := hm
  cases hscrape : scrape poll with
  | none =>
    rw [getMetrics_unanswered hscrape] at hm'
    cases hm'
  | some raw =>
    obtain ⟨htokens, -, -⟩ := getMetrics_generation (a := a) hscrape
    obtain ⟨hlatched, hearlier⟩ := carried_latched h raw
    rw [htokens m hm'] at hx
    split at hx
    · cases hx
    · by_contra hneg
      cases hfed : a.fedReading poll raw with
      | none =>
        rw [hfed] at hx
        cases hx
      | some w =>
        rw [hfed] at hx
        cases hprev : (carriedRate a.warmup raw a.genRate).prev with
        | none =>
          rw [CounterRate.rate_of_prev_none hprev] at hx
          cases hx
        | some p =>
          obtain ⟨v, t⟩ := p
          have htime := hearlier v t hprev poll List.mem_cons_self
          have hlt := (CounterRate.rate_negative_iff hprev htime).mp ⟨x, hx, not_le.mp hneg⟩
          rw [hprev] at hlatched
          exact absurd (le_fedReading hlatched.symm hfed) (not_le.mpr hlt)

theorem generation_nonNegative (servedModel : Option String) {polls : List LlamaCppPoll}
    (htimes : StrictlyIncreasing llamaCppTracked polls) :
    ∀ e ∈ llamaCppTracked.trace (.new servedModel) polls, NonNegative EngineMetrics.tokensPerSec e := by
  refine forall_mem_trace GenerationLatched (fun _ _ _ => generationLatched_step)
    (fun _ _ _ => nonNegative_of_generationLatched) ⟨rfl, ?_, htimes⟩
  intro v t hprev
  cases hprev

end LlamaCppAdapter

def RatesNonNegative {σ ι : Type} (e : Entry σ ι (Option EngineMetrics)) : Prop :=
  NonNegative EngineMetrics.tokensPerSec e ∧ NonNegative EngineMetrics.promptTokensPerSec e

theorem forall_ratesNonNegative_iff {σ ι : Type} {A : TrackedAdapter σ ι} (gen prompt : RateChannel A)
    (hgen : gen.published = EngineMetrics.tokensPerSec)
    (hprompt : prompt.published = EngineMetrics.promptTokensPerSec) {s : σ} {polls : List ι}
    (hbaseline : (A.warmup s).baseline = none) (hgenRate : (gen.rate s).prev = none)
    (hpromptRate : (prompt.rate s).prev = none) (htimes : StrictlyIncreasing A polls) :
    (∀ e ∈ A.trace s polls, RatesNonNegative e) ↔
      ∀ past e rest, A.trace s polls = past ++ e :: rest →
        ¬ HiddenReset A gen.key past e ∧ ¬ HiddenReset A prompt.key past e := by
  have hgenIff := gen.forall_nonNegative_iff hbaseline hgenRate htimes
  have hpromptIff := prompt.forall_nonNegative_iff hbaseline hpromptRate htimes
  rw [hgen] at hgenIff
  rw [hprompt] at hpromptIff
  constructor
  · intro h past e rest hsplit
    exact ⟨hgenIff.mp (fun e he => (h e he).1) past e rest hsplit,
      hpromptIff.mp (fun e he => (h e he).2) past e rest hsplit⟩
  · intro h e he
    exact ⟨hgenIff.mpr (fun past e rest hsplit => (h past e rest hsplit).1) e he,
      hpromptIff.mpr (fun past e rest hsplit => (h past e rest hsplit).2) e he⟩

/-- No rate is negative exactly where no restart stays hidden from the tracker with a
token counter still short of its last reading. -/
theorem reported_rates_nonNegative_iff (warmupSkip : Nat) (servedModel : Option String)
    (vllmPolls : List MetricsPoll) (sglangPolls : List SglangPoll) (llamaCppPolls : List LlamaCppPoll) :
    (StrictlyIncreasing vllmTracked vllmPolls →
      let entries := vllmTracked.trace (.new warmupSkip) vllmPolls
      ((∀ e ∈ entries, RatesNonNegative e) ↔
        ∀ past e rest, entries = past ++ e :: rest →
          ¬ HiddenReset vllmTracked VllmAdapter.generationTokens past e ∧
          ¬ HiddenReset vllmTracked VllmAdapter.promptTokens past e)) ∧
    (StrictlyIncreasing sglangTracked sglangPolls →
      let entries := sglangTracked.trace (.new warmupSkip) sglangPolls
      ((∀ e ∈ entries, RatesNonNegative e) ↔
        ∀ past e rest, entries = past ++ e :: rest →
          ¬ HiddenReset sglangTracked SglangAdapter.generationTokens past e ∧
          ¬ HiddenReset sglangTracked SglangAdapter.promptTokens past e)) ∧
    (StrictlyIncreasing llamaCppTracked llamaCppPolls →
      let entries := llamaCppTracked.trace (.new servedModel) llamaCppPolls
      ((∀ e ∈ entries, RatesNonNegative e) ↔
        ∀ past e rest, entries = past ++ e :: rest →
          ¬ HiddenReset llamaCppTracked LlamaCpp.promptTokens past e)) := by
  refine ⟨?_, ?_, ?_⟩
  · intro htimes
    exact forall_ratesNonNegative_iff vllmGeneration vllmPrompt rfl rfl rfl rfl rfl htimes
  · intro htimes
    exact forall_ratesNonNegative_iff sglangGeneration sglangPrompt rfl rfl rfl rfl rfl htimes
  · intro htimes
    have hprompt := llamaCppPrompt.forall_nonNegative_iff (s := .new servedModel) rfl rfl htimes
    have hgen := LlamaCppAdapter.generation_nonNegative servedModel htimes
    constructor
    · intro h
      exact hprompt.mp fun e he => (h e he).2
    · intro h e he
      exact ⟨hgen e he, hprompt.mpr h e he⟩

/-- One request is served before the baseline and many after it; the process then
restarts and has served two when it is next polled. -/
def restartPastBaseline : List (List MetricsPoll) :=
  [[⟨some (.ofCounters [(VllmAdapter.warmupTriggerKey, 0), (VllmAdapter.generationTokens, 0)]), 0⟩,
    ⟨some (.ofCounters [(VllmAdapter.warmupTriggerKey, 1), (VllmAdapter.generationTokens, 10)]), 1⟩,
    ⟨some (.ofCounters [(VllmAdapter.warmupTriggerKey, 50), (VllmAdapter.generationTokens, 1000)]), 2⟩],
   [⟨some (.ofCounters [(VllmAdapter.warmupTriggerKey, 2), (VllmAdapter.generationTokens, 20)]), 3⟩]]

theorem restartPastBaseline_serverRun : ServerRun vllmTracked restartPastBaseline where
  times := by rw [StrictlyIncreasing]; decide +kernel
  grows := by decide +kernel
  fromZero := by decide +kernel

theorem reported_rates_nonNegative_iff_restart :
    (∀ e ∈ vllmTracked.trace (.new 1) restartPastBaseline.flatten, RatesNonNegative e) ↔
      ∀ past e rest, vllmTracked.trace (.new 1) restartPastBaseline.flatten = past ++ e :: rest →
        ¬ HiddenReset vllmTracked VllmAdapter.generationTokens past e ∧
        ¬ HiddenReset vllmTracked VllmAdapter.promptTokens past e :=
  (reported_rates_nonNegative_iff 1 none restartPastBaseline.flatten [] []).1
    restartPastBaseline_serverRun.times

/-- The generation rate of the last poll is -980 tokens per second. -/
theorem vllm_rate_negative_after_restart :
    ServerRun vllmTracked restartPastBaseline ∧
      ¬ ∀ e ∈ vllmTracked.trace (.new 1) restartPastBaseline.flatten, RatesNonNegative e := by
  refine ⟨restartPastBaseline_serverRun, ?_⟩
  intro h
  have hrates : (vllmTracked.trace (.new 1) restartPastBaseline.flatten).map
      (fun e => e.output.bind EngineMetrics.tokensPerSec) = [none, none, some 990, some (-980)] := by
    decide +kernel
  have hmem : some (-980 : ℚ) ∈ (vllmTracked.trace (.new 1) restartPastBaseline.flatten).map
      (fun e => e.output.bind EngineMetrics.tokensPerSec) := by
    rw [hrates]
    decide +kernel
  obtain ⟨e, he, hrate⟩ := List.mem_map.mp hmem
  obtain ⟨m, hm, hx⟩ := Option.bind_eq_some_iff.mp hrate
  have hnonneg : (0 : ℚ) ≤ -980 := (h e he).1 m (-980) hm hx
  norm_num at hnonneg

end SparkDashboard.Engines
