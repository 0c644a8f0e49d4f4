import SparkDashboard.Engines.Liveness

/-!
# How often a model is asked for

The cooldown between two fetches hangs on what the first one came back with. A refresh
that finds neither a model nor an error leaves the old model's age in charge.
-/

namespace SparkDashboard.Engines

open Stepping

def polledStatus (e : PollEntry) : EngineStatus :=
  if e.input.success then e.input.health else (probed e).status

def Fetches (e : PollEntry) : Prop :=
  polledStatus e = .running ∧ (probed e).shouldFetchModel e.input.now = true

instance (e : PollEntry) : Decidable (Fetches e) := inferInstanceAs (Decidable (_ ∧ _))

theorem poll_eq_of_fetches {s : EngineState} {p : Probe} (h : Fetches (entry EngineState.poll s p)) :
    (s.poll p).2 = (s.recordProbeResult p.success p.now).cacheModel p.modelInfo p.now :=
  if_pos h

theorem poll_eq_of_not_fetches {s : EngineState} {p : Probe} (h : ¬ Fetches (entry EngineState.poll s p)) :
    (s.poll p).2 = s.recordProbeResult p.success p.now :=
  if_neg h

/-- Two fetches in a row, with no stop between them, are a retry cooldown apart. -/
def FetchesApart (entries : List PollEntry) : Prop :=
  ∀ earlier e between e' later, entries = earlier ++ e :: between ++ e' :: later →
    Fetches e → Fetches e' → (∀ d ∈ between, ¬ Fetches d ∧ entersStopped d = false) →
    modelUnresolvedRetry ≤ e'.input.now - e.input.now

/-- A fetch that came back with neither a model nor an error, while a model is held whose
refresh is due before the cooldown ends. -/
def ResolvesStale (e : PollEntry) : Prop :=
  Fetches e ∧ e.input.modelInfo = {} ∧ e.before.cachedModel.isSome = true ∧
    ∀ fetched, e.before.modelFetchedAt = some fetched →
      modelRefreshInterval - modelUnresolvedRetry < e.input.now - fetched

/-- A fetch at `t` is still on its cooldown, whatever happens but a stop. -/
structure CoolingDown (t : Instant) (s : EngineState) : Prop where
  up : s.status ≠ .stopped
  attempted : s.modelAttemptedAt = some t
  settled : s.modelMetadataError.isSome = true ∨ s.cachedModel = none ∨
    ∃ fetched, s.modelFetchedAt = some fetched ∧ t - fetched ≤ modelRefreshInterval - modelUnresolvedRetry

theorem CoolingDown.of_modelCache_eq {t : Instant} {s s' : EngineState} (h : CoolingDown t s)
    (hup : s'.status ≠ .stopped) (hcache : s'.modelCache = s.modelCache) : CoolingDown t s' := by
  obtain ⟨hmodel, hrest⟩ := Prod.mk.inj hcache
  obtain ⟨herror, hrest⟩ := Prod.mk.inj hrest
  obtain ⟨hfetched, hattempted⟩ := Prod.mk.inj hrest
  refine ⟨hup, hattempted.trans h.attempted, ?_⟩
  rw [hmodel, herror, hfetched]
  exact h.settled

theorem modelCache_probed_of_up {e : PollEntry} (hup : (probed e).status ≠ .stopped) :
    (probed e).modelCache = e.before.modelCache := by
  rw [probed, EngineState.modelCache_recordProbeResult]
  refine if_neg ?_
  rintro ⟨hfails, hthree, -⟩
  have hgrace := e.before.grace_recordProbeResult_false e.input.now
  rw [if_pos hthree] at hgrace
  rw [probed, hfails] at hup
  exact hup (congrArg (fun g => g.2.1) hgrace)

theorem probed_up_of_fetches {e : PollEntry} (h : Fetches e) : (probed e).status = .running := by
  have hstatus := h.1
  rw [polledStatus] at hstatus
  split at hstatus
  · rename_i hsuccess
    rw [probed, hsuccess]
    rfl
  · exact hstatus

theorem coolingDown_of_fetches {s : EngineState} {p : Probe} (h : Fetches (entry EngineState.poll s p))
    (hresolves : ¬ ResolvesStale (entry EngineState.poll s p)) : CoolingDown p.now (s.poll p).2 := by
  have hup : (s.recordProbeResult p.success p.now).status ≠ .stopped := by
    have hrunning := probed_up_of_fetches h
    rw [probed] at hrunning
    exact ne_of_eq_of_ne hrunning (by decide)
  obtain ⟨hmodel, hrest⟩ := Prod.mk.inj (modelCache_probed_of_up (e := entry EngineState.poll s p) hup)
  obtain ⟨-, hrest⟩ := Prod.mk.inj hrest
  obtain ⟨hfetched, -⟩ := Prod.mk.inj hrest
  rw [poll_eq_of_fetches h, EngineState.cacheModel]
  dsimp only
  split
  · refine ⟨hup, rfl, .inr (.inr ⟨p.now, rfl, ?_⟩)⟩
    rw [sub_self]
    decide +kernel
  · rename_i hnone
    refine ⟨hup, rfl, ?_⟩
    change p.modelInfo.metadataError.isSome = true ∨ (probed (entry EngineState.poll s p)).cachedModel = none ∨
      ∃ fetched, (probed (entry EngineState.poll s p)).modelFetchedAt = some fetched ∧ _
    cases herror : p.modelInfo.metadataError with
    | some error => exact .inl rfl
    | none =>
      refine .inr ?_
      rw [hmodel, hfetched]
      cases hcached : s.cachedModel with
      | none => exact .inl hcached
      | some model =>
        refine .inr ?_
        by_contra hlate
        have hempty : p.modelInfo = {} := by
          have hmodelNone : p.modelInfo.model = none := by simpa using hnone
          cases hinfo : p.modelInfo with
          | mk model error =>
            rw [hinfo] at hmodelNone herror
            cases hmodelNone
            cases herror
            rfl
        refine hresolves ⟨h, hempty, by rw [entry, hcached]; rfl, ?_⟩
        intro fetched hsome
        by_contra hle
        exact hlate ⟨fetched, hsome, not_lt.mp hle⟩

theorem CoolingDown.poll {t : Instant} {s : EngineState} (h : CoolingDown t s) {p : Probe}
    (hquiet : ¬ Fetches (entry EngineState.poll s p)) (hup : entersStopped (entry EngineState.poll s p) = false) :
    CoolingDown t (s.poll p).2 := by
  have hstatus : (s.recordProbeResult p.success p.now).status ≠ .stopped := by
    intro hstopped
    have henters : entersStopped (entry EngineState.poll s p) = true := decide_eq_true ⟨h.up, hstopped⟩
    cases hup.symm.trans henters
  rw [poll_eq_of_not_fetches hquiet]
  exact h.of_modelCache_eq hstatus (modelCache_probed_of_up (e := entry EngineState.poll s p) hstatus)

theorem CoolingDown.apart {t : Instant} {s : EngineState} (h : CoolingDown t s) {p : Probe}
    (hfetches : Fetches (entry EngineState.poll s p)) : modelUnresolvedRetry ≤ p.now - t := by
  have hup : (probed (entry EngineState.poll s p)).status ≠ .stopped :=
    ne_of_eq_of_ne (probed_up_of_fetches hfetches) (by decide)
  have hdue := hfetches.2
  rw [EngineState.shouldFetchModel_congr (modelCache_probed_of_up hup)] at hdue
  change s.shouldFetchModel p.now = true at hdue
  rw [EngineState.shouldFetchModel, h.attempted] at hdue
  have hretry : decide (modelUnresolvedRetry ≤ EngineState.elapsed p.now t) = true →
      modelUnresolvedRetry ≤ p.now - t := fun hle =>
    EngineState.le_sub_of_le_elapsed (by decide +kernel) (of_decide_eq_true hle)
  dsimp only at hdue
  split at hdue
  · exact hretry hdue
  · rename_i hclean
    rcases h.settled with herror | hnone | ⟨fetched, hfetched, hrecent⟩
    · exact absurd herror hclean
    · rw [hnone] at hdue
      exact hretry hdue
    · rw [hfetched] at hdue
      cases hcached : s.cachedModel with
      | none =>
        rw [hcached] at hdue
        exact hretry hdue
      | some model =>
        rw [hcached] at hdue
        have hold := EngineState.le_sub_of_le_elapsed (by decide +kernel) (of_decide_eq_true hdue)
        linarith

theorem CoolingDown.apart_run {t : Instant} {s : EngineState} (h : CoolingDown t s) {polls : List Probe}
    {between later : List PollEntry} {e : PollEntry} (hrun : trace EngineState.poll s polls = between ++ e :: later)
    (hquiet : ∀ d ∈ between, ¬ Fetches d ∧ entersStopped d = false) (hfetches : Fetches e) :
    modelUnresolvedRetry ≤ e.input.now - t := by
  induction polls generalizing s between with
  | nil => exact absurd hrun.symm (List.append_ne_nil_of_right_ne_nil between (List.cons_ne_nil e later))
  | cons p rest ih =>
    cases between with
    | nil =>
      obtain ⟨rfl, -⟩ := List.cons.inj hrun
      exact h.apart hfetches
    | cons first between =>
      obtain ⟨rfl, hrest⟩ := List.cons.inj hrun
      obtain ⟨hfirst, hup⟩ := hquiet _ List.mem_cons_self
      exact ih (h.poll hfirst hup) hrest fun d hd => hquiet d (List.mem_cons_of_mem _ hd)

theorem fetchesApart_of_not_resolvesStale {s : EngineState} {polls : List Probe}
    (h : ∀ e ∈ trace EngineState.poll s polls, ¬ ResolvesStale e) :
    FetchesApart (trace EngineState.poll s polls) := by
  intro earlier e between e' later hrun hfetches hfetches' hquiet
  rw [List.append_assoc, List.cons_append] at hrun
  have hmem : e ∈ trace EngineState.poll s polls := by
    rw [hrun]
    exact List.mem_append_right earlier List.mem_cons_self
  have hresolves := h e hmem
  obtain ⟨first, p, rest, -, -, rfl, hlater⟩ := exists_split_of_trace_eq hrun
  exact (coolingDown_of_fetches hfetches hresolves).apart_run hlater.symm hquiet hfetches'

def runningAt (resolution : ModelResolution) (now : Instant) : Probe :=
  { health := .running, modelInfo := resolution, now }

theorem fetches_runningAt_iff (s : EngineState) (resolution : ModelResolution) (now : Instant) :
    Fetches (entry EngineState.poll s (runningAt resolution now)) ↔ s.shouldFetchModel now = true := by
  rw [Fetches]
  exact and_iff_right rfl

theorem modelCache_of_resolvesStale {s : EngineState} {p : Probe}
    (h : ResolvesStale (entry EngineState.poll s p)) :
    (s.poll p).2.modelCache = (s.cachedModel, none, s.modelFetchedAt, some p.now) := by
  obtain ⟨hfetches, hempty, -, -⟩ := h
  change p.modelInfo = {} at hempty
  have hup : (probed (entry EngineState.poll s p)).status ≠ .stopped :=
    ne_of_eq_of_ne (probed_up_of_fetches hfetches) (by decide)
  obtain ⟨hmodel, hrest⟩ := Prod.mk.inj (modelCache_probed_of_up hup)
  obtain ⟨-, hrest⟩ := Prod.mk.inj hrest
  obtain ⟨hfetched, -⟩ := Prod.mk.inj hrest
  rw [poll_eq_of_fetches hfetches, hempty]
  change ((probed (entry EngineState.poll s p)).cachedModel, none,
    (probed (entry EngineState.poll s p)).modelFetchedAt, some p.now) = _
  rw [hmodel, hfetched]
  rfl

/-- After a fetch that resolved stale, the model can be asked for again within the cooldown. -/
theorem exists_fetch_of_resolvesStale {s : EngineState} {p : Probe}
    (h : ResolvesStale (entry EngineState.poll s p)) :
    ∃ next : Probe, p.now ≤ next.now ∧ next.now - p.now < modelUnresolvedRetry ∧
      Fetches (entry EngineState.poll (s.poll p).2 next) := by
  have hcache := modelCache_of_resolvesStale h
  obtain ⟨-, -, hcached, hstale⟩ := h
  obtain ⟨model, hmodel⟩ := Option.isSome_iff_exists.mp hcached
  change s.cachedModel = some model at hmodel
  change ∀ fetched, s.modelFetchedAt = some fetched → modelRefreshInterval - modelUnresolvedRetry < p.now - fetched
    at hstale
  obtain ⟨hmodel', hrest⟩ := Prod.mk.inj hcache
  obtain ⟨herror, hrest⟩ := Prod.mk.inj hrest
  obtain ⟨hfetched, -⟩ := Prod.mk.inj hrest
  cases hage : s.modelFetchedAt with
  | none =>
    refine ⟨runningAt {} p.now, le_refl p.now, ?_, ?_⟩
    · rw [runningAt, sub_self]
      decide +kernel
    · rw [fetches_runningAt_iff, EngineState.shouldFetchModel, herror, hmodel', hfetched, hmodel, hage]
      rfl
  | some fetched =>
    -- as soon as the model is ten minutes old
    have hlate := hstale fetched hage
    refine ⟨runningAt {} (max p.now (fetched + modelRefreshInterval)), le_max_left _ _, ?_, ?_⟩
    · rw [runningAt, sub_lt_iff_lt_add]
      refine max_lt ?_ (by linarith)
      have hpos : (0 : ℚ) < modelUnresolvedRetry := by decide +kernel
      linarith
    · rw [fetches_runningAt_iff, EngineState.shouldFetchModel, herror, hmodel', hfetched, hmodel, hage]
      refine decide_eq_true (le_max_of_le_left ?_)
      rw [le_sub_iff_add_le, add_comm]
      exact le_max_right _ _

/-- Fetches are a cooldown apart in the runs where none resolves stale; where one does, the next may follow
sooner. -/
theorem model_fetches_apart (s : EngineState) (polls : List Probe) :
    ((∀ e ∈ trace EngineState.poll s polls, ¬ ResolvesStale e) → FetchesApart (trace EngineState.poll s polls)) ∧
    ∀ e ∈ trace EngineState.poll s polls, ResolvesStale e →
      ∃ next : Probe, e.input.now ≤ next.now ∧ next.now - e.input.now < modelUnresolvedRetry ∧
        Fetches (entry EngineState.poll e.after next) := by
  refine ⟨fetchesApart_of_not_resolvesStale, ?_⟩
  intro e he hresolves
  rw [eq_entry_of_mem_trace e he] at hresolves ⊢
  exact exists_fetch_of_resolvesStale hresolves

/-- A server that named its model is a router ten minutes later. -/
def modelThenRouter : List Probe :=
  [runningAt { model := some { name := "org/model" } } 0, runningAt {} 600, runningAt {} 601]

theorem model_fetched_every_second :
    ¬ ∀ (s : EngineState) (polls : List Probe), polls.Pairwise (fun p q => p.now ≤ q.now) →
      FetchesApart (trace EngineState.poll s polls) := by
  intro h
  have hsorted : modelThenRouter.Pairwise (fun p q => p.now ≤ q.now) := by decide +kernel
  have hapart := h (EngineState.new .llamaCpp "http://localhost:8080" .native 0) modelThenRouter hsorted
    [_] _ [] _ [] rfl (by decide +kernel) (by decide +kernel) (by simp)
  exact absurd hapart (by decide +kernel)

end SparkDashboard.Engines
