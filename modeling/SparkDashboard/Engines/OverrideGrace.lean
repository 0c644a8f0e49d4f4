import SparkDashboard.Engines.Collector
import SparkDashboard.Engines.Liveness

/-!
# Overrides and the grace period

Overrides are put in the map once, before the loop, and are removed from it like any
other engine. What removes one is an outage that outlasts the grace period.
-/

namespace SparkDashboard.Engines

open Stepping

abbrev TickEntry := Entry EngineMap Tick (Option (List EngineSnapshot))

/-- The outage of an engine that has been polled on every poll tick so far. -/
def outage (k : EngineKey) (past : List TickEntry) : Outage :=
  past.foldl (fun o e =>
    match e.input with
    | .detect .. => o
    | .poll probes _ => o.next (probes k).success (probes k).now) {}

theorem outage_append (k : EngineKey) (past : List TickEntry) (e : TickEntry) :
    outage k (past ++ [e]) =
      match e.input with
      | .detect .. => outage k past
      | .poll probes _ => (outage k past).next (probes k).success (probes k).now := by
  rw [outage, List.foldl_append]
  rfl

/-- On this poll tick the outage has lasted longer than the grace period. -/
def OutlastsGrace (k : EngineKey) (past : List TickEntry) (e : TickEntry) : Prop :=
  match e.input with
  | .detect .. => False
  | .poll _ retainAt => ∃ since, (outage k (past ++ [e])).since = some since ∧
      removalGrace < EngineState.elapsed retainAt since

/-- The override is in the map after the tick, and published if it is a poll. -/
def Kept (overrides : List EngineOverride) (e : TickEntry) : Prop :=
  ∀ o ∈ overrides, o.key ∈ e.after ∧
    ∀ published, e.output = some published → ∃ s ∈ published, (s.engineType, s.endpoint) = o.key

/-- Every override is in the map under its key, its grace period tracking its outage. -/
def Held (overrides : List EngineOverride) (past : List TickEntry) (m : EngineMap) : Prop :=
  ∀ o ∈ overrides, ∃ s, m.lookup o.key = some s ∧ s.key = o.key ∧ (outage o.key past).Tracks s

theorem held_seed (overrides : List EngineOverride) (now : Instant) :
    Held overrides [] (Collector.seed overrides now) := by
  intro o ho
  refine ⟨_, Collector.seed_lookup ho now, rfl, ?_⟩
  refine ⟨fun _ => ⟨Nat.succ_pos 2, rfl, rfl⟩, ?_⟩
  intro since hsince
  cases hsince

theorem tracks_poll {k : EngineKey} {past : List TickEntry} {s : EngineState} (h : (outage k past).Tracks s)
    (m : EngineMap) (probes : EngineKey → Probe) (retainAt : Instant) :
    (outage k (past ++ [entry Collector.step m (.poll probes retainAt)])).Tracks (s.poll (probes k)).2 := by
  rw [outage_append]
  exact (h.recordProbeResult _ _).of_grace (s.grace_poll (probes k))

theorem kept_iff {overrides : List EngineOverride} {past : List TickEntry} {m : EngineMap}
    (h : Held overrides past m) (tick : Tick) :
    Kept overrides (entry Collector.step m tick) ↔
      ∀ o ∈ overrides, ¬ OutlastsGrace o.key past (entry Collector.step m tick) := by
  cases tick with
  | detect byProcess byDocker probe now =>
    refine iff_of_true ?_ fun _ _ hfalse => hfalse
    intro o ho
    obtain ⟨s, hs, -, -⟩ := h o ho
    obtain ⟨s', hs', -, -⟩ := Collector.detect_of_some hs now (detectEngines byProcess byDocker probe)
    refine ⟨AList.lookup_isSome.mp ?_, ?_⟩
    · change ((Collector.detect m now (detectEngines byProcess byDocker probe)).lookup o.key).isSome
      rw [hs']
      rfl
    · intro published hpublished
      cases hpublished
  | poll probes retainAt =>
    have hone : ∀ o ∈ overrides, (o.key ∈ (entry Collector.step m (.poll probes retainAt)).after ↔
        ¬ OutlastsGrace o.key past (entry Collector.step m (.poll probes retainAt))) := by
      intro o ho
      obtain ⟨s, hs, -, htracks⟩ := h o ho
      have hremove := (tracks_poll htracks m probes retainAt).shouldRemove_iff retainAt
      rw [← AList.lookup_isSome]
      change ((Collector.retain (Collector.polled m probes) retainAt).lookup o.key).isSome = true ↔ _
      rw [Collector.retain_polled_lookup, hs, Option.bind_some, OutlastsGrace]
      simp only [entry] at hremove ⊢
      rw [← hremove]
      cases (s.poll (probes o.key)).2.shouldRemove retainAt <;> simp
    constructor
    · intro hkept o ho
      exact (hone o ho).mp (hkept o ho).1
    · intro hnot o ho
      refine ⟨(hone o ho).mpr (hnot o ho), ?_⟩
      intro published hpublished
      cases hpublished
      obtain ⟨s, hs, hkey, -⟩ := h o ho
      exact ⟨_, Collector.exists_snapshot_of_some hs probes, (s.key_snapshot_poll (probes o.key)).trans hkey⟩

theorem held_step {overrides : List EngineOverride} {past : List TickEntry} {m : EngineMap}
    (h : Held overrides past m) {tick : Tick} (hkept : Kept overrides (entry Collector.step m tick)) :
    Held overrides (past ++ [entry Collector.step m tick]) (Collector.step m tick).2 := by
  intro o ho
  obtain ⟨s, hs, hkey, htracks⟩ := h o ho
  cases tick with
  | detect byProcess byDocker probe now =>
    obtain ⟨s', hs', hkey', hgrace⟩ := Collector.detect_of_some hs now (detectEngines byProcess byDocker probe)
    refine ⟨s', hs', hkey'.trans hkey, ?_⟩
    rw [outage_append]
    exact htracks.of_grace hgrace
  | poll probes retainAt =>
    have hmem : ((Collector.retain (Collector.polled m probes) retainAt).lookup o.key).isSome :=
      AList.lookup_isSome.mpr (hkept o ho).1
    rw [Collector.retain_polled_lookup, hs, Option.bind_some] at hmem
    cases hremove : (s.poll (probes o.key)).2.shouldRemove retainAt with
    | true =>
      rw [hremove] at hmem
      cases hmem
    | false =>
      refine ⟨(s.poll (probes o.key)).2, ?_, (s.key_poll _).trans hkey, tracks_poll htracks m probes retainAt⟩
      change (Collector.retain (Collector.polled m probes) retainAt).lookup o.key = _
      rw [Collector.retain_polled_lookup, hs, Option.bind_some, hremove]
      rfl

/-- Overrides stay in the map, and are published on every poll, exactly in the runs where
no outage of an override outlasts the grace period. -/
theorem overrides_kept_iff (overrides : List EngineOverride) (now : Instant) (ticks : List Tick) :
    (∀ e ∈ trace Collector.step (Collector.seed overrides now) ticks, Kept overrides e) ↔
      ∀ past e rest, trace Collector.step (Collector.seed overrides now) ticks = past ++ e :: rest →
        ∀ o ∈ overrides, ¬ OutlastsGrace o.key past e :=
  forall_good_iff (Held overrides) (Kept overrides)
    (fun past e => ∀ o ∈ overrides, ¬ OutlastsGrace o.key past e)
    (fun _ _ tick h => kept_iff h tick) (fun _ _ _ h hkept => held_step h hkept) []
    (held_seed overrides now) ticks

def configuredVllm : List EngineOverride := [⟨.vllm, "http://localhost:8000"⟩]

def answersAt (health : EngineStatus) (now : Instant) : Tick :=
  .poll (fun _ => { health, now }) now

/-- Down for 31 seconds from its third failed probe, and then back. -/
def outageAndRecovery : List Tick :=
  [answersAt (.error "refused") 0, answersAt (.error "refused") 1, answersAt (.error "refused") 2,
    answersAt (.error "refused") 33, answersAt .running 34]

theorem override_lost_after_outage :
    ¬ ∀ e ∈ trace Collector.step (Collector.seed configuredVllm 0) outageAndRecovery,
      Kept configuredVllm e := by
  intro h
  have hpublished : (trace Collector.step (Collector.seed configuredVllm 0) outageAndRecovery).map
      (fun e => (e.output.map List.length)) = [some 1, some 1, some 1, some 1, some 0] := by
    decide +kernel
  have hmem : some 0 ∈ (trace Collector.step (Collector.seed configuredVllm 0) outageAndRecovery).map
      (fun e => (e.output.map List.length)) := by
    rw [hpublished]
    decide
  obtain ⟨e, he, hlength⟩ := List.mem_map.mp hmem
  obtain ⟨published, hout, hzero⟩ := Option.map_eq_some_iff.mp hlength
  obtain ⟨-, hkept⟩ := h e he _ List.mem_cons_self
  obtain ⟨s, hs, -⟩ := hkept published hout
  rw [List.length_eq_zero_iff.mp hzero] at hs
  cases hs

end SparkDashboard.Engines
