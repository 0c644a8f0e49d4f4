import SparkDashboard.Engines.ReportedRates

/-!
# llama.cpp's generation rate after a restart

The latch the rate is fed from is cleared only when a new baseline is captured. A
restart the tracker does not notice leaves it where the old process had got, and the
rate is short of the counter's growth until the counter has caught up.
-/

namespace SparkDashboard.Engines.LlamaCppAdapter

open Stepping

abbrev PollEntry := Entry LlamaCppAdapter LlamaCppPoll (Option EngineMetrics)

/-- The generated-token counter as an answered poll brings it. -/
def counted (poll : LlamaCppPoll) : Option ℚ := (scrape poll).bind (·.counter LlamaCpp.predictedTokens)

def lastCounted (past : List PollEntry) : Option (ℚ × Instant) :=
  past.foldl (fun last e => ((counted e.input).map fun v => (v, e.input.now)).or last) none

theorem lastCounted_append (past : List PollEntry) (e : PollEntry) :
    lastCounted (past ++ [e]) = ((counted e.input).map fun v => (v, e.input.now)).or (lastCounted past) := by
  rw [lastCounted, List.foldl_append]
  rfl

/-- The poll neither is warming up nor ends a warm-up. -/
def Steady (e : PollEntry) : Prop :=
  ∀ raw, scrape e.input = some raw → (e.before.warmup.observe raw).1.warmingUp = false ∧
    (e.before.warmup.observe raw).1.justTransitioned = false

/-- From the second answered poll on the rate is absent while warming up and the growth
of the counter over the time between the polls otherwise. -/
def Recovers (past : List PollEntry) (e : PollEntry) : Prop :=
  ∀ m v u t, e.output = some m → counted e.input = some v → lastCounted past = some (u, t) →
    (¬ Steady e → m.tokensPerSec = none) ∧
      (Steady e → m.tokensPerSec = some ((v - u) / (e.input.now - t)))

/-- The tracker has left its steady state since the restart, or the counter has caught up
with the latch the restart left behind, or it has not moved. -/
def LatchHarmless (latch : Option ℚ) (past : List PollEntry) (e : PollEntry) : Prop :=
  ∀ v u t, counted e.input = some v → lastCounted past = some (u, t) →
    (∃ seen ∈ past ++ [e], ¬ Steady seen) ∨ (∀ l, latch = some l → l ≤ u) ∨ v = u

/-- The polls of a server that has just restarted and serves tokens, `/slots` unread. -/
structure ServesAgain (a : LlamaCppAdapter) (polls : List LlamaCppPoll) : Prop where
  times : StrictlyIncreasing llamaCppTracked polls
  grows : polls.Pairwise fun poll later => ∀ u ∈ counted poll, ∀ v ∈ counted later, u ≤ v
  counts : ∀ poll ∈ polls, (scrape poll).isSome → (counted poll).isSome
  slotsUnread : ∀ e ∈ trace getMetrics a polls, ∀ raw, scrape e.input = some raw →
    ((e.before.latchPoll e.input).afterWarmup raw).slotsOf raw e.input.slots = none

theorem ServesAgain.tail {a : LlamaCppAdapter} {poll : LlamaCppPoll} {rest : List LlamaCppPoll}
    (h : ServesAgain a (poll :: rest)) : ServesAgain (a.getMetrics poll).2 rest where
  times := (List.pairwise_cons.mp h.times).2
  grows := (List.pairwise_cons.mp h.grows).2
  counts later hlater := h.counts later (List.mem_cons_of_mem poll hlater)
  slotsUnread e he := h.slotsUnread e (List.mem_cons_of_mem _ he)

def latchOver (latch : Option ℚ) (v : ℚ) : ℚ :=
  match latch with
  | some l => max v l
  | none => v

theorem max_latchOver {latch : Option ℚ} {u v : ℚ} (h : u ≤ v) :
    max v (latchOver latch u) = latchOver latch v := by
  cases latch with
  | none => exact max_eq_left h
  | some l => rw [latchOver, latchOver, ← max_assoc, max_eq_left h]

/-- The latch grows as the counter does exactly where it is the counter, or nothing grows. -/
theorem latchOver_sub_eq_iff {latch : Option ℚ} {u v : ℚ} (h : u ≤ v) :
    latchOver latch v - latchOver latch u = v - u ↔ (∀ l, latch = some l → l ≤ u) ∨ v = u := by
  cases latch with
  | none => simp [latchOver]
  | some l =>
    simp only [latchOver, Option.some.injEq, forall_eq']
    rcases le_total l u with hlu | hul
    · rw [max_eq_left hlu, max_eq_left (hlu.trans h)]
      exact iff_of_true rfl (.inl hlu)
    · rw [max_eq_right hul]
      constructor
      · intro heq
        rcases le_total l v with hlv | hvl
        · rw [max_eq_left hlv] at heq
          exact .inl (by linarith)
        · rw [max_eq_right hvl] at heq
          exact .inr (by linarith)
      · rintro (hlu | rfl)
        · rw [max_eq_left (hlu.trans h)]
          linarith
        · rw [max_eq_right hul]
          linarith

theorem fedReading_of_unread {a : LlamaCppAdapter} {poll : LlamaCppPoll} {raw : ParsedMetrics} {v : ℚ}
    (hslots : ((a.latchPoll poll).afterWarmup raw).slotsOf raw poll.slots = none)
    (hscrape : scrape poll = some raw) (hv : counted poll = some v) :
    a.fedReading poll raw = some (latchOver (carriedGenerated a.warmup raw a.generated) v) := by
  rw [counted, hscrape, Option.bind_some] at hv
  rw [fedReading, hslots, hv, LlamaCpp.liveGenerated]
  cases carriedGenerated a.warmup raw a.generated <;> simp [latchOver]

/-- What a restart and the polls since have left in the adapter. -/
structure Recovering (latch : Option ℚ) (past : List PollEntry) (a : LlamaCppAdapter)
    (rest : List LlamaCppPoll) : Prop where
  serves : ServesAgain a rest
  ahead : ∀ u t, lastCounted past = some (u, t) →
    ∀ poll ∈ rest, t < poll.now ∧ ∀ v, counted poll = some v → u ≤ v
  untouched : lastCounted past = none → a.generated = latch ∧ ∀ e ∈ past, Steady e
  held : ∀ u t, lastCounted past = some (u, t) → ∀ baseline, a.warmup.baseline = some baseline →
    ∃ l, a.generated = some l ∧ a.genRate.prev = some (l, t) ∧
      ((∃ e ∈ past, ¬ Steady e) → l = u) ∧ ((∀ e ∈ past, Steady e) → l = latchOver latch u)

section Step

variable {latch : Option ℚ} {past : List PollEntry} {a : LlamaCppAdapter} {poll : LlamaCppPoll}
  {rest : List LlamaCppPoll} {raw : ParsedMetrics} {v : ℚ}

theorem Recovering.unread (h : Recovering latch past a (poll :: rest)) (hscrape : scrape poll = some raw) :
    ((a.latchPoll poll).afterWarmup raw).slotsOf raw poll.slots = none :=
  h.serves.slotsUnread (entry getMetrics a poll) List.mem_cons_self raw hscrape

theorem Recovering.counted_eq (h : Recovering latch past a (poll :: rest))
    (hscrape : scrape poll = some raw) : ∃ v, counted poll = some v := by
  refine Option.isSome_iff_exists.mp (h.serves.counts poll List.mem_cons_self ?_)
  rw [hscrape]
  rfl

/-- A poll that neither warms up nor ends a warm-up carries the latch on. -/
theorem steady_of_observe {parsed : ParsedMetrics} (hscrape : scrape poll = some raw)
    (hout : (a.warmup.observe raw).1 = ⟨false, false, parsed⟩) :
    Steady (entry getMetrics a poll) ∧ carriedGenerated a.warmup raw a.generated = a.generated := by
  constructor
  · intro raw' hraw'
    cases hscrape.symm.trans hraw'
    rw [show (entry getMetrics a poll).before = a from rfl, hout]
    exact ⟨rfl, rfl⟩
  · rw [carriedGenerated, hout]
    rfl

theorem Recovering.fed_of_active (h : Recovering latch past a (poll :: rest))
    (hscrape : scrape poll = some raw) (hv : counted poll = some v) {baseline : HistogramBaseline}
    (hb : a.warmup.baseline = some baseline)
    (hcarried : carriedGenerated a.warmup raw a.generated = a.generated) :
    ∃ l, a.fedReading poll raw = some l ∧ ((∃ e ∈ past, ¬ Steady e) → l = v) ∧
      ((∀ e ∈ past, Steady e) → l = latchOver latch v) := by
  rw [fedReading_of_unread (h.unread hscrape) hscrape hv, hcarried]
  refine ⟨_, rfl, ?_⟩
  cases hlast : lastCounted past with
  | none =>
    obtain ⟨hgenerated, hsteady⟩ := h.untouched hlast
    refine ⟨?_, ?_⟩
    · rintro ⟨e, he, hnot⟩
      exact absurd (hsteady e he) hnot
    · intro _
      rw [hgenerated]
  | some last =>
    obtain ⟨u, t⟩ := last
    obtain ⟨l, hgenerated, -, hnoticed, hunnoticed⟩ := h.held u t hlast baseline hb
    have huv : u ≤ v := ((h.ahead u t hlast) poll List.mem_cons_self).2 v hv
    rw [hgenerated]
    refine ⟨?_, ?_⟩
    · intro hseen
      rw [hnoticed hseen]
      exact max_eq_left huv
    · intro hsteady
      rw [hunnoticed hsteady]
      exact max_latchOver huv

theorem steady_of_unanswered {e : PollEntry} (h : scrape e.input = none) : Steady e := by
  intro raw hraw
  rw [h] at hraw
  cases hraw

theorem forall_steady_append {past : List PollEntry} {e : PollEntry} (h : Steady e) :
    (∀ seen ∈ past ++ [e], Steady seen) ↔ ∀ seen ∈ past, Steady seen := by
  constructor
  · intro hall seen hseen
    exact hall seen (List.mem_append_left _ hseen)
  · intro hall seen hseen
    rcases List.mem_append.mp hseen with hseen | hseen
    · exact hall seen hseen
    · exact List.mem_singleton.mp hseen ▸ h

theorem exists_not_steady_append {past : List PollEntry} {e : PollEntry} (h : Steady e) :
    (∃ seen ∈ past ++ [e], ¬ Steady seen) ↔ ∃ seen ∈ past, ¬ Steady seen := by
  have hall : (∀ seen ∈ past ++ [e], Steady seen) ↔ ∀ seen ∈ past, Steady seen := forall_steady_append h
  rw [← not_iff_not] at hall
  simpa only [not_forall, exists_prop] using hall

theorem Recovering.step_of_unanswered (h : Recovering latch past a (poll :: rest)) (hscrape : scrape poll = none) :
    Recovering latch (past ++ [entry getMetrics a poll]) (a.getMetrics poll).2 rest := by
  have hlast : lastCounted (past ++ [entry getMetrics a poll]) = lastCounted past := by
    rw [lastCounted_append]
    simp only [entry, counted, hscrape, Option.bind_none, Option.map_none, Option.none_or]
  have hsteady : Steady (entry getMetrics a poll) := steady_of_unanswered hscrape
  refine ⟨h.serves.tail, ?_, ?_, ?_⟩
  · intro u t hlast' later hlater
    rw [hlast] at hlast'
    exact h.ahead u t hlast' later (List.mem_cons_of_mem poll hlater)
  · rw [hlast, forall_steady_append hsteady, getMetrics_unanswered hscrape, latchPoll_generated]
    exact h.untouched
  · rw [hlast, forall_steady_append hsteady, exists_not_steady_append hsteady,
      getMetrics_unanswered hscrape, latchPoll_generated, latchPoll_genRate, latchPoll_warmup]
    exact h.held

theorem Recovering.step_of_answered (h : Recovering latch past a (poll :: rest)) (hscrape : scrape poll = some raw) :
    Recovering latch (past ++ [entry getMetrics a poll]) (a.getMetrics poll).2 rest := by
  obtain ⟨hnow, -⟩ := List.pairwise_cons.mp h.serves.times
  obtain ⟨hgrows, -⟩ := List.pairwise_cons.mp h.serves.grows
  obtain ⟨v, hv⟩ := h.counted_eq hscrape
  have hlast : lastCounted (past ++ [entry getMetrics a poll]) = some (v, poll.now) := by
    rw [lastCounted_append]
    simp only [entry, hv, Option.map_some, Option.some_or]
  obtain ⟨m, hm, -, hwarmup⟩ := llamaCppTracked.answered a poll raw hscrape
  change (a.getMetrics poll).2.warmup = (a.warmup.observe raw).2 at hwarmup
  obtain ⟨-, hrate, hgenerated⟩ := getMetrics_generation (a := a) hscrape
  refine ⟨h.serves.tail, ?_, ?_, ?_⟩
  · intro u t hlast' later hlater
    cases hlast.symm.trans hlast'
    exact ⟨hnow later hlater, fun w hw => hgrows later hlater v hv w hw⟩
  · intro hnone
    cases hlast.symm.trans hnone
  · intro u t hlast' baseline hbaseline
    cases hlast.symm.trans hlast'
    rw [hwarmup] at hbaseline
    rw [hgenerated, hrate, CounterRate.observe_prev]
    obtain ⟨-, -, hafter⟩ | ⟨-, hout, hafter⟩ | ⟨_, -, -, -, hafter⟩ | ⟨b, hb, -, hout, hafter⟩ :=
      a.warmup.observe_cases raw
    · rw [hafter] at hbaseline
      cases hbaseline
    · have hnot : ¬ Steady (entry getMetrics a poll) := by
        intro hsteady
        have hfalse := (hsteady raw hscrape).2
        rw [show (entry getMetrics a poll).before = a from rfl, hout] at hfalse
        cases hfalse
      have hcarried : carriedGenerated a.warmup raw a.generated = none := by
        rw [carriedGenerated, hout]
        rfl
      refine ⟨v, ?_, ?_, fun _ => rfl, ?_⟩
      · rw [fedReading_of_unread (h.unread hscrape) hscrape hv, hcarried]
        rfl
      · rw [fedReading_of_unread (h.unread hscrape) hscrape hv, hcarried]
        rfl
      · intro hsteady
        exact absurd (hsteady _ (List.mem_append_right past (List.mem_singleton.mpr rfl))) hnot
    · rw [hafter] at hbaseline
      cases hbaseline
    · obtain ⟨hsteady, hcarried⟩ := steady_of_observe hscrape hout
      obtain ⟨l, hfed, hnoticed, hunnoticed⟩ := h.fed_of_active hscrape hv hb hcarried
      refine ⟨l, ?_, ?_, ?_, ?_⟩
      · rw [hfed]
        rfl
      · rw [hfed]
        rfl
      · intro hseen
        exact hnoticed ((exists_not_steady_append hsteady).mp hseen)
      · intro hall
        exact hunnoticed ((forall_steady_append hsteady).mp hall)

theorem Recovering.step (h : Recovering latch past a (poll :: rest)) :
    Recovering latch (past ++ [entry getMetrics a poll]) (a.getMetrics poll).2 rest := by
  cases hscrape : scrape poll with
  | none => exact h.step_of_unanswered hscrape
  | some raw => exact h.step_of_answered hscrape

theorem Recovering.recovers_iff_of_active (h : Recovering latch past a (poll :: rest))
    (hscrape : scrape poll = some raw) {m : EngineMetrics} (hm : (a.getMetrics poll).1 = some m)
    {baseline : HistogramBaseline} (hb : a.warmup.baseline = some baseline)
    (hcarried : carriedGenerated a.warmup raw a.generated = a.generated)
    (hsteady : Steady (entry getMetrics a poll))
    (hrate : m.tokensPerSec = a.genRate.rate (a.fedReading poll raw) poll.now) :
    Recovers past (entry getMetrics a poll) ↔ LatchHarmless latch past (entry getMetrics a poll) := by
  obtain ⟨v, hv⟩ := h.counted_eq hscrape
  cases hlast : lastCounted past with
  | none =>
    refine iff_of_true ?_ ?_
    · intro _ _ u t _ _ hsome
      cases hlast.symm.trans hsome
    · intro _ u t _ hsome
      cases hlast.symm.trans hsome
  | some last =>
    obtain ⟨u, t⟩ := last
    obtain ⟨htime, hgrows⟩ := h.ahead u t hlast poll List.mem_cons_self
    have huv : u ≤ v := hgrows v hv
    have hpos : poll.now - t ≠ 0 := (sub_pos.mpr htime).ne'
    obtain ⟨l, -, hprev, hnoticed, hunnoticed⟩ := h.held u t hlast baseline hb
    obtain ⟨l', hfed, hnoticed', hunnoticed'⟩ := h.fed_of_active hscrape hv hb hcarried
    have htokens : m.tokensPerSec = some ((l' - l) / (poll.now - t)) := by
      rw [hrate, hfed, CounterRate.rate_of_lt hprev htime]
    have hrecovers : Recovers past (entry getMetrics a poll) ↔ l' - l = v - u := by
      rw [← div_left_inj' hpos, ← Option.some.injEq, ← htokens]
      constructor
      · intro hrec
        exact (hrec m v u t hm hv hlast).2 hsteady
      · intro hgrowth m' v' u' t' hm' hv' hlast'
        cases hm.symm.trans hm'
        cases hv.symm.trans hv'
        cases hlast.symm.trans hlast'
        exact ⟨fun hnot => absurd hsteady hnot, fun _ => hgrowth⟩
    by_cases hseen : ∃ seen ∈ past, ¬ Steady seen
    · rw [hrecovers, hnoticed hseen, hnoticed' hseen]
      refine iff_of_true rfl ?_
      intro _ _ _ _ _
      exact .inl ((exists_not_steady_append hsteady).mpr hseen)
    · have hall : ∀ seen ∈ past, Steady seen := by
        intro seen hmem
        by_contra hnot
        exact hseen ⟨seen, hmem, hnot⟩
      rw [hrecovers, hunnoticed hall, hunnoticed' hall, latchOver_sub_eq_iff huv]
      constructor
      · intro hharmless v' u' t' hv' hlast'
        cases hv.symm.trans hv'
        cases hlast.symm.trans hlast'
        exact .inr hharmless
      · intro hharmless
        rcases hharmless v u t hv hlast with hnot | hcaught
        · exact absurd ((exists_not_steady_append hsteady).mp hnot) hseen
        · exact hcaught

theorem Recovering.recovers_iff (h : Recovering latch past a (poll :: rest)) :
    Recovers past (entry getMetrics a poll) ↔ LatchHarmless latch past (entry getMetrics a poll) := by
  cases hscrape : scrape poll with
  | none =>
    have hcounted : counted (entry getMetrics a poll).input = none := by
      change counted poll = none
      rw [counted, hscrape, Option.bind_none]
    refine iff_of_true ?_ ?_
    · intro m v u t _ hv
      cases hcounted.symm.trans hv
    · intro v u t hv
      cases hcounted.symm.trans hv
  | some raw =>
    obtain ⟨m, hm, -, -⟩ := llamaCppTracked.answered a poll raw hscrape
    obtain ⟨htokens, -, -⟩ := getMetrics_generation (a := a) hscrape
    have hpublished := htokens m hm
    have hwarm : ∀ out : WarmupOutput, (a.warmup.observe raw).1 = out →
        (out.warmingUp = true ∨ out.justTransitioned = true) → ¬ Steady (entry getMetrics a poll) := by
      rintro out hout hor hsteady
      obtain ⟨hwarming, htransition⟩ := hsteady raw hscrape
      rw [show (entry getMetrics a poll).before = a from rfl, hout] at hwarming htransition
      rcases hor with hor | hor
      · cases hwarming.symm.trans hor
      · cases htransition.symm.trans hor
    have hblank : ¬ Steady (entry getMetrics a poll) → m.tokensPerSec = none →
        (Recovers past (entry getMetrics a poll) ↔ LatchHarmless latch past (entry getMetrics a poll)) := by
      intro hnot hnone
      refine iff_of_true ?_ ?_
      · intro m' v u t hm' _ _
        cases hm.symm.trans hm'
        exact ⟨fun _ => hnone, fun hsteady => absurd hsteady hnot⟩
      · intro v u t _ _
        exact .inl ⟨_, List.mem_append_right past (List.mem_singleton.mpr rfl), hnot⟩
    obtain ⟨-, hout, -⟩ | ⟨-, hout, -⟩ | ⟨_, -, -, hout, -⟩ | ⟨b, hb, -, hout, -⟩ :=
      a.warmup.observe_cases raw
    · refine hblank (hwarm _ hout (.inl rfl)) ?_
      rw [hpublished, hout]
      rfl
    · refine hblank (hwarm _ hout (.inr rfl)) ?_
      rw [hpublished, carriedRate, hout]
      exact CounterRate.rate_reset a.genRate _ _
    · refine hblank (hwarm _ hout (.inl rfl)) ?_
      rw [hpublished, hout]
      rfl
    · obtain ⟨hsteady, hcarried⟩ := steady_of_observe hscrape hout
      have hrate : m.tokensPerSec = a.genRate.rate (a.fedReading poll raw) poll.now := by
        rw [hpublished, carriedRate, hout]
        rfl
      exact h.recovers_iff_of_active hscrape hm hb hcarried hsteady hrate

end Step

/-- After any history, with the server restarted and serving tokens: the rate recovers
at every poll exactly where the latch the restart left behind is harmless at every poll. -/
theorem generation_rate_recovers_iff (servedModel : Option String) (history polls : List LlamaCppPoll)
    (hserves : ServesAgain (final getMetrics (.new servedModel) history) polls) :
    let restarted := final getMetrics (.new servedModel) history
    (∀ past e rest, trace getMetrics restarted polls = past ++ e :: rest → Recovers past e) ↔
      ∀ past e rest, trace getMetrics restarted polls = past ++ e :: rest →
        LatchHarmless restarted.generated past e := by
  intro restarted
  have hstart : Recovering restarted.generated [] restarted polls := by
    refine ⟨hserves, ?_, ?_, ?_⟩
    · intro u t hlast
      cases hlast
    · intro _
      exact ⟨rfl, fun e he => absurd he List.not_mem_nil⟩
    · intro u t hlast
      cases hlast
  have hentry := forall_split_trace (Recovering restarted.generated)
    (fun past e => Recovers past e ↔ LatchHarmless restarted.generated past e)
    (fun _ _ _ _ h => h.step) (fun _ _ _ _ h => h.recovers_iff) [] hstart
  constructor
  · intro h past e rest hsplit
    exact (hentry past e rest hsplit).mp (h past e rest hsplit)
  · intro h past e rest hsplit
    exact (hentry past e rest hsplit).mpr (h past e rest hsplit)

def scrapeAt (predicted : ℚ) (now : Instant) : LlamaCppPoll :=
  ⟨some (200, some (.ofCounters [(LlamaCpp.predictedTokens, predicted)])), none, now⟩

theorem slotsOf_none (a : LlamaCppAdapter) (raw : ParsedMetrics) : a.slotsOf raw none = none := by
  rw [slotsOf]
  split <;> rfl

theorem slotsUnread_of_unanswered {polls : List LlamaCppPoll} (a : LlamaCppAdapter)
    (h : ∀ poll ∈ polls, poll.slots = none) :
    ∀ e ∈ trace getMetrics a polls, ∀ raw, scrape e.input = some raw →
      ((e.before.latchPoll e.input).afterWarmup raw).slotsOf raw e.input.slots = none := by
  refine forall_mem_trace (fun _ rest => ∀ poll ∈ rest, poll.slots = none) ?_ ?_ h
  · intro _ poll rest hrest later hlater
    exact hrest later (List.mem_cons_of_mem poll hlater)
  · intro s poll rest hrest raw _
    rw [show (entry getMetrics s poll).input.slots = none from hrest poll List.mem_cons_self]
    exact slotsOf_none _ raw

/-- Attached before the first token: the baseline holds zero. -/
def beforeRestart : List LlamaCppPoll := [scrapeAt 0 0, scrapeAt 100 1]

def afterRestart : List LlamaCppPoll := [scrapeAt 10 2, scrapeAt 20 3]

theorem afterRestart_servesAgain (a : LlamaCppAdapter) : ServesAgain a afterRestart where
  times := by rw [StrictlyIncreasing]; decide +kernel
  grows := by decide +kernel
  counts := by decide +kernel
  slotsUnread := slotsUnread_of_unanswered a (by decide)

theorem beforeRestart_afterRestart_serverRun : ServerRun llamaCppTracked [beforeRestart, afterRestart] where
  times := by rw [StrictlyIncreasing]; decide +kernel
  grows := by decide +kernel
  fromZero := by decide +kernel

theorem generation_rate_recovers_iff_zero_baseline :
    let restarted := final getMetrics (.new none) beforeRestart
    (∀ past e rest, trace getMetrics restarted afterRestart = past ++ e :: rest → Recovers past e) ↔
      ∀ past e rest, trace getMetrics restarted afterRestart = past ++ e :: rest →
        LatchHarmless restarted.generated past e :=
  generation_rate_recovers_iff none beforeRestart afterRestart (afterRestart_servesAgain _)

/-- The second poll after the restart reports no growth where ten tokens were generated. -/
theorem generation_rate_stuck_after_restart :
    ServerRun llamaCppTracked [beforeRestart, afterRestart] ∧
      ServesAgain (final getMetrics (.new none) beforeRestart) afterRestart ∧
      ¬ ∀ past e rest, trace getMetrics (final getMetrics (.new none) beforeRestart) afterRestart =
        past ++ e :: rest → Recovers past e := by
  refine ⟨beforeRestart_afterRestart_serverRun, afterRestart_servesAgain _, ?_⟩
  intro h
  let restarted : LlamaCppAdapter := final getMetrics (.new none) beforeRestart
  let first : PollEntry := entry getMetrics restarted (scrapeAt 10 2)
  let second : PollEntry := entry getMetrics (restarted.getMetrics (scrapeAt 10 2)).2 (scrapeAt 20 3)
  have hrate : second.output.bind EngineMetrics.tokensPerSec = some 0 := by decide +kernel
  obtain ⟨m, hm, htokens⟩ := Option.bind_eq_some_iff.mp hrate
  have hrecovers := h [first] second [] rfl m 20 10 2 hm (by decide +kernel) (by decide +kernel)
  by_cases hsteady : Steady second
  · have hten := hrecovers.2 hsteady
    rw [htokens] at hten
    revert hten
    decide +kernel
  · have hnone := hrecovers.1 hsteady
    rw [htokens] at hnone
    cases hnone

end SparkDashboard.Engines.LlamaCppAdapter
