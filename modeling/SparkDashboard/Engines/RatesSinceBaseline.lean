import SparkDashboard.Engines.ReportedRates

/-!
# Rates on one side of a baseline

Readings taken while warming up are fed to the rates like any other, and forgotten when
the baseline is captured. What is published is made of the readings since then alone.
-/

namespace SparkDashboard.Engines

open Stepping

abbrev Reading := ℚ × Instant

/-- The rates between neighbouring readings. -/
def quotients : List Reading → List ℚ
  | earlier :: later :: rest =>
    (later.1 - earlier.1) / (later.2 - earlier.2) :: quotients (later :: rest)
  | _ => []

def positive (rates : List ℚ) : List ℚ := rates.filter (0 < ·)

def arithmeticMean (values : List ℚ) : Option ℚ :=
  if values = [] then none else some (values.sum / values.length)

theorem positive_concat (rates : List ℚ) (rate : ℚ) :
    positive (rates ++ [rate]) = if 0 < rate then positive rates ++ [rate] else positive rates := by
  rw [positive, List.filter_append, List.filter_singleton]
  by_cases hpos : 0 < rate
  · rw [if_pos hpos, decide_eq_true hpos]
    rfl
  · rw [if_neg hpos, decide_eq_false hpos]
    exact List.append_nil _

theorem quotients_concat (readings : List Reading) (later : Reading) :
    quotients (readings ++ [later]) = quotients readings ++
      (readings.getLast?.map fun last => (later.1 - last.1) / (later.2 - last.2)).toList := by
  induction readings with
  | nil => rfl
  | cons first rest ih =>
    cases rest with
    | nil => rfl
    | cons second rest => exact congrArg (_ :: ·) ih

def CounterRate.mean (r : CounterRate) : Option ℚ :=
  if 0 < r.accum.2 then some (r.accum.1 / (r.accum.2 : ℚ)) else none

section Channel

variable {σ ι : Type} {A : TrackedAdapter σ ι}

def becomesActive (A : TrackedAdapter σ ι) (e : Entry σ ι (Option EngineMetrics)) : Bool :=
  (A.warmup e.before).baseline.isNone && (A.warmup e.after).baseline.isSome

def reading (A : TrackedAdapter σ ι) (key : String) (e : Entry σ ι (Option EngineMetrics)) : Option Reading :=
  (A.scrape e.input).bind fun raw => (raw.counter key).map fun v => (v, A.now e.input)

/-- The polls of the run from the latest that went from warming to active. -/
def SinceActive (A : TrackedAdapter σ ι) (past since : List (Entry σ ι (Option EngineMetrics))) : Prop :=
  ∃ before first later, past = before ++ since ∧ since = first :: later ∧ becomesActive A first = true ∧
    ∀ e ∈ later, becomesActive A e = false

/-- The mean that goes with a channel's rate. -/
structure RateMean (C : RateChannel A) where
  mean : EngineMetrics → Option ℚ
  answered : ∀ a poll raw m, A.scrape poll = some raw → (A.getMetrics a poll).1 = some m →
    mean m = if ((A.warmup a).observe raw).1.warmingUp then none else (C.rate (A.getMetrics a poll).2).mean

/-- A rate state is made of these readings, counted from the baseline. -/
structure CounterRate.MadeOf (r : CounterRate) (readings : List Reading) (offset : ℚ) : Prop where
  prev : r.prev = readings.getLast?.map fun last => (last.1 - offset, last.2)
  accum : r.accum = ((positive (quotients readings)).sum, (positive (quotients readings)).length)

theorem CounterRate.madeOf_nil (offset : ℚ) : ({} : CounterRate).MadeOf [] offset := ⟨rfl, rfl⟩

theorem CounterRate.MadeOf.mean_eq {r : CounterRate} {readings : List Reading} {offset : ℚ}
    (h : r.MadeOf readings offset) : r.mean = arithmeticMean (positive (quotients readings)) := by
  rw [CounterRate.mean, h.accum, arithmeticMean]
  cases positive (quotients readings) with
  | nil => rfl
  | cons rate rest => simp

theorem CounterRate.accum_observe (r : CounterRate) (current : Option ℚ) (now : Instant) :
    (r.observe current now).2.accum =
      match r.rate current now with
      | some v => if 0 < v then (r.accum.1 + v, r.accum.2 + 1) else r.accum
      | none => r.accum := rfl

theorem CounterRate.MadeOf.rate_eq {r : CounterRate} {readings : List Reading} {offset : ℚ}
    (h : r.MadeOf readings offset) (v : ℚ) {now : Instant}
    (hearlier : ∀ p ∈ r.prev, p.2 < now) :
    r.rate (some (v - offset)) now =
      readings.getLast?.map fun last => (v - last.1) / (now - last.2) := by
  cases hlast : readings.getLast? with
  | none =>
    have hprev : r.prev = none := by rw [h.prev, hlast]; rfl
    rw [CounterRate.rate_of_prev_none hprev]
    rfl
  | some last =>
    have hprev : r.prev = some (last.1 - offset, last.2) := by rw [h.prev, hlast]; rfl
    rw [CounterRate.rate_of_lt hprev (hearlier (last.1 - offset, last.2) hprev), sub_sub_sub_cancel_right]
    rfl

theorem CounterRate.MadeOf.observe {r : CounterRate} {readings : List Reading} {offset : ℚ}
    (h : r.MadeOf readings offset) (v : ℚ) {now : Instant}
    (hearlier : ∀ p ∈ r.prev, p.2 < now) :
    (r.observe (some (v - offset)) now).2.MadeOf (readings ++ [(v, now)]) offset := by
  refine ⟨?_, ?_⟩
  · rw [CounterRate.observe_prev, List.getLast?_concat]
    rfl
  · have hrate := h.rate_eq v hearlier
    rw [quotients_concat]
    cases hlast : readings.getLast? with
    | none =>
      rw [hlast] at hrate
      rw [CounterRate.accum_observe, hrate]
      exact h.accum.trans (by simp)
    | some last =>
      rw [hlast] at hrate
      rw [CounterRate.accum_observe, hrate, h.accum]
      dsimp only [Option.map_some, Option.toList_some]
      rw [positive_concat]
      by_cases hpos : 0 < (v - last.1) / (now - last.2)
      · rw [if_pos hpos, if_pos hpos, List.sum_append, List.sum_singleton, List.length_append,
          List.length_singleton]
      · rw [if_neg hpos, if_neg hpos]

theorem CounterRate.MadeOf.observe_map {r : CounterRate} {readings : List Reading} {offset : ℚ}
    (h : r.MadeOf readings offset) (counter : Option ℚ) {now : Instant} (hearlier : ∀ p ∈ r.prev, p.2 < now) :
    (r.observe (counter.map (· - offset)) now).2.MadeOf
      (readings ++ (counter.map fun v => (v, now)).toList) offset := by
  cases counter with
  | none =>
    rw [Option.map_none, Option.map_none, Option.toList_none, List.append_nil]
    exact ⟨h.prev, h.accum⟩
  | some v => exact h.observe v hearlier

theorem SinceActive.append {past since : List (Entry σ ι (Option EngineMetrics))}
    (h : SinceActive A past since) {e : Entry σ ι (Option EngineMetrics)} (he : becomesActive A e = false) :
    SinceActive A (past ++ [e]) (since ++ [e]) := by
  obtain ⟨before, first, later, rfl, rfl, hfirst, hlater⟩ := h
  refine ⟨before, first, later ++ [e], List.append_assoc .., rfl, hfirst, ?_⟩
  intro d hd
  rcases List.mem_append.mp hd with hd | hd
  · exact hlater d hd
  · rw [List.mem_singleton.mp hd]
    exact he

theorem SinceActive.begin {past : List (Entry σ ι (Option EngineMetrics))}
    {e : Entry σ ι (Option EngineMetrics)} (he : becomesActive A e = true) : SinceActive A (past ++ [e]) [e] :=
  ⟨past, e, [], rfl, rfl, he, fun _ hd => absurd hd List.not_mem_nil⟩

/-- While a baseline is held, the rate is made of the readings since it was captured. -/
structure RateChannel.SinceBaseline (C : RateChannel A) (past : List (Entry σ ι (Option EngineMetrics))) (a : σ)
    (rest : List ι) : Prop where
  tracks : C.Tracks past a rest
  madeOf : ∀ baseline, (A.warmup a).baseline = some baseline → ∃ since, SinceActive A past since ∧
    (C.rate a).MadeOf (since.filterMap (reading A C.key)) (C.offset baseline)

theorem RateChannel.SinceBaseline.earlier {C : RateChannel A}
    {past : List (Entry σ ι (Option EngineMetrics))} {a : σ} {poll : ι} {rest : List ι}
    (h : C.SinceBaseline past a (poll :: rest)) : ∀ p ∈ (C.rate a).prev, p.2 < A.now poll :=
  fun p hp => h.tracks.earlier p.1 p.2 hp poll List.mem_cons_self

theorem reading_unanswered {a : σ} {poll : ι} (hscrape : A.scrape poll = none) (key : String) :
    reading A key (entry A.getMetrics a poll) = none := by
  rw [reading, entry, hscrape]
  rfl

theorem reading_answered {a : σ} {poll : ι} {raw : ParsedMetrics} (hscrape : A.scrape poll = some raw)
    (key : String) :
    reading A key (entry A.getMetrics a poll) = (raw.counter key).map fun v => (v, A.now poll) := by
  rw [reading, entry, hscrape]
  rfl

theorem filterMap_reading_append (key : String) (since : List (Entry σ ι (Option EngineMetrics)))
    (e : Entry σ ι (Option EngineMetrics)) :
    (since ++ [e]).filterMap (reading A key) = since.filterMap (reading A key) ++ (reading A key e).toList := by
  rw [List.filterMap_append]
  cases h : reading A key e <;> simp [h]

theorem RateChannel.madeOf_answered (C : RateChannel A) {a : σ} {poll : ι} {raw : ParsedMetrics}
    {baseline : HistogramBaseline} (since : List (Entry σ ι (Option EngineMetrics)))
    (hscrape : A.scrape poll = some raw) (hafter : ((A.warmup a).observe raw).2.baseline = some baseline)
    (hmade : (carriedRate (A.warmup a) raw (C.rate a)).MadeOf (since.filterMap (reading A C.key))
      (C.offset baseline))
    (hearlier : ∀ p ∈ (carriedRate (A.warmup a) raw (C.rate a)).prev, p.2 < A.now poll) :
    (C.rate (A.getMetrics a poll).2).MadeOf
      ((since ++ [entry A.getMetrics a poll]).filterMap (reading A C.key)) (C.offset baseline) := by
  obtain ⟨m, hm, -, -⟩ := A.answered a poll raw hscrape
  obtain ⟨-, hrate⟩ := C.answered a poll raw m hscrape hm
  rw [hrate, C.reading_eq hafter, filterMap_reading_append, reading_answered hscrape]
  exact hmade.observe_map _ hearlier

theorem RateChannel.published_eq (C : RateChannel A) {past since : List (Entry σ ι (Option EngineMetrics))}
    {a : σ} {poll : ι} {rest : List ι} (h : C.SinceBaseline past a (poll :: rest)) {raw : ParsedMetrics}
    (hscrape : A.scrape poll = some raw) {baseline : HistogramBaseline}
    (hmade : (C.rate a).MadeOf (since.filterMap (reading A C.key)) (C.offset baseline)) {rate : ℚ}
    (hrate : (C.rate a).rate ((raw.counter C.key).map (· - C.offset baseline)) (A.now poll) = some rate) :
    ∃ earlier last current,
      (since ++ [entry A.getMetrics a poll]).filterMap (reading A C.key) = earlier ++ [last, current] ∧
        reading A C.key (entry A.getMetrics a poll) = some current ∧
        rate = (current.1 - last.1) / (current.2 - last.2) := by
  rw [filterMap_reading_append, reading_answered hscrape]
  cases hcounter : raw.counter C.key with
  | none =>
    rw [hcounter] at hrate
    cases hrate
  | some v =>
    rw [hcounter, Option.map_some, hmade.rate_eq v h.earlier] at hrate
    obtain ⟨last, hlast, rfl⟩ := Option.map_eq_some_iff.mp hrate
    obtain ⟨earlier, hearlier⟩ := List.getLast?_eq_some_iff.mp hlast
    refine ⟨earlier, last, (v, A.now poll), ?_, rfl, rfl⟩
    rw [hearlier, List.append_assoc]
    rfl

/-- The readings a reporting poll goes by, its own among them. -/
theorem RateChannel.exists_sinceActive (C : RateChannel A) {past : List (Entry σ ι (Option EngineMetrics))}
    {a : σ} {poll : ι} {rest : List ι} (h : C.SinceBaseline past a (poll :: rest)) {raw : ParsedMetrics}
    (hscrape : A.scrape poll = some raw) {baseline : HistogramBaseline}
    (hafter : ((A.warmup a).observe raw).2.baseline = some baseline) :
    ∃ since, SinceActive A (past ++ [entry A.getMetrics a poll]) since ∧
      (C.rate (A.getMetrics a poll).2).MadeOf (since.filterMap (reading A C.key)) (C.offset baseline) ∧
      ∀ rate, (carriedRate (A.warmup a) raw (C.rate a)).rate
          ((raw.counter C.key).map (· - C.offset baseline)) (A.now poll) = some rate →
        ∃ earlier last current, since.filterMap (reading A C.key) = earlier ++ [last, current] ∧
          reading A C.key (entry A.getMetrics a poll) = some current ∧
          rate = (current.1 - last.1) / (current.2 - last.2) := by
  obtain ⟨-, -, -, hwarmup⟩ := A.answered a poll raw hscrape
  obtain ⟨-, -, hnone⟩ | ⟨hnone, hout, hafter'⟩ | ⟨_, -, -, -, hnone⟩ | ⟨b, hb, -, hout, hkept⟩ :=
    (A.warmup a).observe_cases raw
  · cases hnone.symm.trans hafter
  · have hreset : carriedRate (A.warmup a) raw (C.rate a) = {} := by rw [carriedRate, hout]; rfl
    refine ⟨[entry A.getMetrics a poll], SinceActive.begin ?_, ?_, ?_⟩
    · rw [becomesActive, entry, hnone, hwarmup, hafter']
      rfl
    · refine C.madeOf_answered [] hscrape hafter ?_ ?_
      · rw [hreset]
        exact CounterRate.madeOf_nil _
      · rw [hreset]
        intro p hp
        cases hp
    · intro rate hrate
      rw [hreset, CounterRate.rate_of_prev_none rfl] at hrate
      cases hrate
  · cases hnone.symm.trans hafter
  · have hheld : (A.warmup a).baseline = some baseline := by rwa [hkept] at hafter
    have hcarried : carriedRate (A.warmup a) raw (C.rate a) = C.rate a := by rw [carriedRate, hout]; rfl
    obtain ⟨since, hsince, hmade⟩ := h.madeOf baseline hheld
    refine ⟨since ++ [entry A.getMetrics a poll], hsince.append ?_, ?_, ?_⟩
    · rw [becomesActive, entry, hheld]
      rfl
    · refine C.madeOf_answered since hscrape hafter ?_ ?_
      · rwa [hcarried]
      · rw [hcarried]
        exact h.earlier
    · intro rate hrate
      rw [hcarried] at hrate
      exact C.published_eq h hscrape hmade hrate

theorem RateChannel.sinceBaseline_step (C : RateChannel A)
    {past : List (Entry σ ι (Option EngineMetrics))} {a : σ} {poll : ι} {rest : List ι}
    (h : C.SinceBaseline past a (poll :: rest)) :
    C.SinceBaseline (past ++ [entry A.getMetrics a poll]) (A.getMetrics a poll).2 rest := by
  refine ⟨C.tracks_step h.tracks, ?_⟩
  intro baseline hbaseline
  cases hscrape : A.scrape poll with
  | none =>
    obtain ⟨-, hwarmup⟩ := A.unanswered a poll hscrape
    rw [hwarmup] at hbaseline
    obtain ⟨since, hsince, hmade⟩ := h.madeOf baseline hbaseline
    refine ⟨since ++ [entry A.getMetrics a poll], hsince.append ?_, ?_⟩
    · rw [becomesActive, entry, hbaseline]
      rfl
    · rw [filterMap_reading_append, reading_unanswered hscrape, C.unanswered a poll hscrape]
      simpa using hmade
  | some raw =>
    obtain ⟨-, -, -, hwarmup⟩ := A.answered a poll raw hscrape
    rw [hwarmup] at hbaseline
    obtain ⟨since, hsince, hmade, -⟩ := C.exists_sinceActive h hscrape hbaseline
    exact ⟨since, hsince, hmade⟩

/-- What a poll publishes of a counter is made of its readings since the latest transition. -/
structure OneSided (A : TrackedAdapter σ ι) (key : String) (published mean : EngineMetrics → Option ℚ)
    (past : List (Entry σ ι (Option EngineMetrics))) (e : Entry σ ι (Option EngineMetrics)) : Prop where
  warming : ∀ m, e.output = some m → m.warmingUp = true → published m = none ∧ mean m = none
  active : ∀ m, e.output = some m → m.warmingUp = false → ∃ since, SinceActive A (past ++ [e]) since ∧
    (∀ rate, published m = some rate → ∃ earlier last current,
      since.filterMap (reading A key) = earlier ++ [last, current] ∧ reading A key e = some current ∧
        rate = (current.1 - last.1) / (current.2 - last.2)) ∧
    mean m = arithmeticMean (positive (quotients (since.filterMap (reading A key))))

theorem RateMean.oneSided_of_sinceBaseline {C : RateChannel A} (M : RateMean C)
    {past : List (Entry σ ι (Option EngineMetrics))} {a : σ} {poll : ι} {rest : List ι}
    (h : C.SinceBaseline past a (poll :: rest)) :
    OneSided A C.key C.published M.mean past (entry A.getMetrics a poll) := by
  cases hscrape : A.scrape poll with
  | none =>
    have hnone : (entry A.getMetrics a poll).output = none := (A.unanswered a poll hscrape).1
    refine ⟨?_, ?_⟩
    · intro m hm
      cases hm.symm.trans hnone
    · intro m hm
      cases hm.symm.trans hnone
  | some raw =>
    obtain ⟨m, hm, hwarming, -⟩ := A.answered a poll raw hscrape
    obtain ⟨hpublished, -⟩ := C.answered a poll raw m hscrape hm
    have hmean := M.answered a poll raw m hscrape hm
    refine ⟨?_, ?_⟩
    · intro m' hm' hup
      obtain rfl : m' = m := Option.some.inj (hm'.symm.trans hm)
      rw [hwarming] at hup
      rw [hpublished, hmean, if_pos hup, if_pos hup]
      exact ⟨rfl, rfl⟩
    · intro m' hm' hup
      obtain rfl : m' = m := Option.some.inj (hm'.symm.trans hm)
      rw [hwarming] at hup
      obtain ⟨baseline, hafter⟩ := WarmupTracker.exists_baseline_of_not_warmingUp hup
      obtain ⟨since, hsince, hmade, hrate⟩ := C.exists_sinceActive h hscrape hafter
      refine ⟨since, hsince, ?_, ?_⟩
      · intro rate hsome
        rw [hpublished, hup, if_neg Bool.false_ne_true, C.reading_eq hafter] at hsome
        exact hrate rate hsome
      · rw [hmean, hup, if_neg Bool.false_ne_true]
        exact hmade.mean_eq

theorem RateMean.forall_oneSided {C : RateChannel A} (M : RateMean C) {s : σ} {polls : List ι}
    (hbaseline : (A.warmup s).baseline = none) (hrate : (C.rate s).prev = none)
    (htimes : StrictlyIncreasing A polls) :
    ∀ past e rest, A.trace s polls = past ++ e :: rest → OneSided A C.key C.published M.mean past e := by
  have hstart : C.SinceBaseline [] s polls := by
    refine ⟨C.tracks_nil hbaseline hrate htimes, ?_⟩
    intro baseline hheld
    cases hheld.symm.trans hbaseline
  exact forall_split_trace C.SinceBaseline (OneSided A C.key C.published M.mean)
    (fun _ _ _ _ => C.sinceBaseline_step) (fun _ _ _ _ => M.oneSided_of_sinceBaseline) [] hstart

end Channel

def vllmGenerationMean : RateMean vllmGeneration where
  mean := EngineMetrics.avgTokensPerSec
  answered := by
    intro a poll raw m hscrape hm
    obtain ⟨scrape, now⟩ := poll
    cases hscrape
    cases hm
    rfl

def vllmPromptMean : RateMean vllmPrompt where
  mean := EngineMetrics.avgPromptTokensPerSec
  answered := by
    intro a poll raw m hscrape hm
    obtain ⟨scrape, now⟩ := poll
    cases hscrape
    cases hm
    rfl

def sglangGenerationMean : RateMean sglangGeneration where
  mean := EngineMetrics.avgTokensPerSec
  answered := by
    intro a poll raw m hscrape hm
    change SglangAdapter.scrape poll = some raw at hscrape
    have hwarmup : sglangTracked.warmup a = (a.latch poll).warmup := (a.latch_warmup poll).symm
    rw [hwarmup]
    simp only [sglangTracked, sglangGeneration, SglangAdapter.getMetrics, hscrape] at hm ⊢
    cases hm
    rfl

def sglangPromptMean : RateMean sglangPrompt where
  mean := EngineMetrics.avgPromptTokensPerSec
  answered := by
    intro a poll raw m hscrape hm
    change SglangAdapter.scrape poll = some raw at hscrape
    have hwarmup : sglangTracked.warmup a = (a.latch poll).warmup := (a.latch_warmup poll).symm
    rw [hwarmup]
    simp only [sglangTracked, sglangPrompt, SglangAdapter.getMetrics, hscrape] at hm ⊢
    cases hm
    rfl

/-- The token rates and their means, on every poll, are those of the readings on this side of the
latest baseline. -/
theorem rates_since_baseline (warmupSkip : Nat) (vllmPolls : List MetricsPoll) (sglangPolls : List SglangPoll) :
    (StrictlyIncreasing vllmTracked vllmPolls →
      ∀ past e rest, vllmTracked.trace (.new warmupSkip) vllmPolls = past ++ e :: rest →
        OneSided vllmTracked VllmAdapter.generationTokens EngineMetrics.tokensPerSec
          EngineMetrics.avgTokensPerSec past e ∧
        OneSided vllmTracked VllmAdapter.promptTokens EngineMetrics.promptTokensPerSec
          EngineMetrics.avgPromptTokensPerSec past e) ∧
    (StrictlyIncreasing sglangTracked sglangPolls →
      ∀ past e rest, sglangTracked.trace (.new warmupSkip) sglangPolls = past ++ e :: rest →
        OneSided sglangTracked SglangAdapter.generationTokens EngineMetrics.tokensPerSec
          EngineMetrics.avgTokensPerSec past e ∧
        OneSided sglangTracked SglangAdapter.promptTokens EngineMetrics.promptTokensPerSec
          EngineMetrics.avgPromptTokensPerSec past e) := by
  refine ⟨?_, ?_⟩
  · intro htimes past e rest hsplit
    exact ⟨vllmGenerationMean.forall_oneSided rfl rfl htimes past e rest hsplit,
      vllmPromptMean.forall_oneSided rfl rfl htimes past e rest hsplit⟩
  · intro htimes past e rest hsplit
    exact ⟨sglangGenerationMean.forall_oneSided rfl rfl htimes past e rest hsplit,
      sglangPromptMean.forall_oneSided rfl rfl htimes past e rest hsplit⟩

/-- A baseline, a poll without the counter, a restart and a second baseline. -/
def warmedTwice : List MetricsPoll :=
  [⟨some (.ofCounters [(VllmAdapter.warmupTriggerKey, 0), (VllmAdapter.generationTokens, 0)]), 0⟩,
    ⟨some (.ofCounters [(VllmAdapter.warmupTriggerKey, 1), (VllmAdapter.generationTokens, 10)]), 1⟩,
    ⟨some (.ofCounters [(VllmAdapter.warmupTriggerKey, 2)]), 2⟩,
    ⟨some (.ofCounters [(VllmAdapter.warmupTriggerKey, 3), (VllmAdapter.generationTokens, 30)]), 3⟩,
    ⟨some (.ofCounters [(VllmAdapter.warmupTriggerKey, 0), (VllmAdapter.generationTokens, 5)]), 4⟩,
    ⟨some (.ofCounters [(VllmAdapter.warmupTriggerKey, 1), (VllmAdapter.generationTokens, 8)]), 5⟩,
    ⟨some (.ofCounters [(VllmAdapter.warmupTriggerKey, 2), (VllmAdapter.generationTokens, 20)]), 6⟩]

example : (vllmTracked.trace (.new 1) warmedTwice).map (fun e => e.output.bind EngineMetrics.tokensPerSec) =
    [none, none, none, some 10, none, none, some 12] := by
  decide +kernel

theorem rates_since_baseline_warmedTwice :
    OneSided vllmTracked VllmAdapter.generationTokens EngineMetrics.tokensPerSec EngineMetrics.avgTokensPerSec
      (vllmTracked.trace (.new 1) (warmedTwice.take 3))
      (entry VllmAdapter.getMetrics (final VllmAdapter.getMetrics (.new 1) (warmedTwice.take 3))
        ⟨some (.ofCounters [(VllmAdapter.warmupTriggerKey, 3), (VllmAdapter.generationTokens, 30)]), 3⟩) :=
  ((rates_since_baseline 1 warmedTwice []).1 (by rw [StrictlyIncreasing]; decide +kernel) _ _ _ rfl).1

end SparkDashboard.Engines
