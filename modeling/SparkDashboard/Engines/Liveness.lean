import Mathlib.Data.List.DropRight
import SparkDashboard.Engines.EngineState
import SparkDashboard.Library.Stepping

/-!
# The life of an engine

The third failed probe in a row stops an engine and drops its model; the first answered
one brings it back. What the grace-period fields say is read off the probes alone.
-/

namespace SparkDashboard.Engines

open Stepping

/-- Failed probes since the last answered one, and the time of the third. -/
structure Outage where
  failures : Nat := 0
  since : Option Instant := none

def Outage.next (o : Outage) (success : Bool) (now : Instant) : Outage :=
  if success then {} else ⟨o.failures + 1, if o.failures + 1 = 3 then some now else o.since⟩

/-- The grace-period fields hold the outage. -/
structure Outage.Tracks (o : Outage) (s : EngineState) : Prop where
  running : o.since = none → o.failures < 3 ∧ s.consecutiveFailures = o.failures ∧ s.stoppedAt = none
  stopped : ∀ since, o.since = some since → 3 ≤ o.failures ∧ s.stoppedAt = some since ∧ s.status = .stopped

theorem Outage.Tracks.of_grace_eq {o : Outage} {s : EngineState} {failures : Nat} {status : EngineStatus}
    {stoppedAt : Option Instant} (hgrace : s.grace = (failures, status, stoppedAt))
    (running : o.since = none → o.failures < 3 ∧ failures = o.failures ∧ stoppedAt = none)
    (stopped : ∀ since, o.since = some since → 3 ≤ o.failures ∧ stoppedAt = some since ∧ status = .stopped) :
    o.Tracks s := by
  obtain ⟨hfailures, hrest⟩ := Prod.mk.inj hgrace
  obtain ⟨hstatus, hstopped⟩ := Prod.mk.inj hrest
  refine ⟨?_, ?_⟩
  · rw [hfailures, hstopped]
    exact running
  · rw [hstopped, hstatus]
    exact stopped

theorem Outage.Tracks.of_grace {o : Outage} {s s' : EngineState} (h : o.Tracks s) (hgrace : s'.grace = s.grace) :
    o.Tracks s' :=
  of_grace_eq (hgrace.trans rfl) h.running h.stopped

theorem Outage.next_true (o : Outage) (now : Instant) : o.next true now = {} := rfl

theorem Outage.next_false (o : Outage) (now : Instant) :
    o.next false now = ⟨o.failures + 1, if o.failures + 1 = 3 then some now else o.since⟩ := rfl

theorem Outage.Tracks.recordProbeResult {o : Outage} {s : EngineState} (h : o.Tracks s) (success : Bool)
    (now : Instant) : (o.next success now).Tracks (s.recordProbeResult success now) := by
  cases success with
  | true =>
    rw [Outage.next_true]
    refine of_grace_eq (s.grace_recordProbeResult_true now) (fun _ => ⟨by decide, rfl, rfl⟩) ?_
    intro since hsince
    cases hsince
  | false =>
    have hgrace := s.grace_recordProbeResult_false now
    rw [Outage.next_false]
    cases hsince : o.since with
    | none =>
      obtain ⟨hlt, hfailures, hstopped⟩ := h.running hsince
      have hmod : (s.consecutiveFailures + 1) % 2 ^ 32 = o.failures + 1 := by
        rw [hfailures]
        omega
      rw [hmod, hstopped] at hgrace
      by_cases hthird : o.failures + 1 = 3
      · rw [if_pos (by omega)] at hgrace
        rw [if_pos hthird]
        refine of_grace_eq hgrace (fun hnone => by cases hnone) ?_
        intro since hsome
        cases hsome
        exact ⟨hthird.ge, rfl, rfl⟩
      · rw [if_neg (by omega)] at hgrace
        rw [if_neg hthird]
        refine of_grace_eq hgrace (fun _ => ⟨?_, rfl, rfl⟩) (fun since hsome => by cases hsome)
        change o.failures + 1 < 3
        omega
    | some since =>
      obtain ⟨hle, hstopped, hstatus⟩ := h.stopped since hsince
      rw [hstopped, hstatus, Option.getD_some] at hgrace
      rw [if_neg (by omega)]
      have hboth : (s.recordProbeResult false now).grace =
          ((s.consecutiveFailures + 1) % 2 ^ 32, .stopped, some since) := by
        rw [hgrace]
        split <;> rfl
      refine of_grace_eq hboth (fun hnone => by cases hnone) ?_
      intro since' hsome
      cases hsome
      refine ⟨?_, rfl, rfl⟩
      change 3 ≤ o.failures + 1
      omega

theorem Outage.Tracks.shouldRemove_iff {o : Outage} {s : EngineState} (h : o.Tracks s) (now : Instant) :
    s.shouldRemove now = true ↔
      ∃ since, o.since = some since ∧ removalGrace < EngineState.elapsed now since := by
  cases hsince : o.since with
  | none =>
    obtain ⟨-, -, hstopped⟩ := h.running hsince
    simp [EngineState.shouldRemove, hstopped]
  | some since =>
    obtain ⟨-, hstopped, hstatus⟩ := h.stopped since hsince
    simp [EngineState.shouldRemove, hstopped, hstatus]

abbrev PollEntry := Entry EngineState Probe EngineSnapshot

def probed (e : PollEntry) : EngineState := e.before.recordProbeResult e.input.success e.input.now

def entersStopped (e : PollEntry) : Bool :=
  decide (e.before.status ≠ .stopped ∧ (probed e).status = .stopped)

def sinceSuccess (past : List PollEntry) : List PollEntry := past.rtakeWhile fun e => !e.input.success

def LastThreeFailed (past : List PollEntry) : Prop :=
  ∃ failing, failing <:+ past ∧ 3 ≤ failing.length ∧ ∀ e ∈ failing, e.input.success = false

def Outage.ofPolls (past : List PollEntry) : Outage :=
  ⟨(sinceSuccess past).length, (sinceSuccess past)[2]?.map fun e => e.input.now⟩

theorem sinceSuccess_true (past : List PollEntry) {e : PollEntry} (h : e.input.success = true) :
    sinceSuccess (past ++ [e]) = [] :=
  List.rtakeWhile_concat_neg _ _ e (by rw [h]; decide)

theorem sinceSuccess_false (past : List PollEntry) {e : PollEntry} (h : e.input.success = false) :
    sinceSuccess (past ++ [e]) = sinceSuccess past ++ [e] :=
  List.rtakeWhile_concat_pos _ _ e (by rw [h]; rfl)

theorem Outage.ofPolls_append (past : List PollEntry) (e : PollEntry) :
    Outage.ofPolls (past ++ [e]) = (Outage.ofPolls past).next e.input.success e.input.now := by
  cases hsuccess : e.input.success with
  | true => rw [Outage.ofPolls, sinceSuccess_true past hsuccess]; rfl
  | false =>
    rw [Outage.ofPolls, sinceSuccess_false past hsuccess, Outage.next_false, List.length_append,
      List.length_singleton]
    refine congrArg (Outage.mk _) ?_
    change _ = if (sinceSuccess past).length + 1 = 3 then some e.input.now
      else (sinceSuccess past)[2]?.map fun d => d.input.now
    split
    · rename_i hthird
      rw [List.getElem?_append_right (by omega)]
      have hzero : 2 - (sinceSuccess past).length = 0 := by omega
      rw [hzero]
      rfl
    · rename_i hother
      rcases Nat.lt_or_gt_of_ne (show (sinceSuccess past).length ≠ 2 by omega) with hlt | hgt
      · rw [List.getElem?_eq_none (by simp; omega), List.getElem?_eq_none (by omega)]
      · rw [List.getElem?_append_left hgt]

theorem lastThreeFailed_iff (past : List PollEntry) :
    LastThreeFailed past ↔ 3 ≤ (sinceSuccess past).length := by
  constructor
  · rintro ⟨failing, ⟨earlier, rfl⟩, hthree, hfailing⟩
    have hall : ∀ e ∈ failing.reverse, (!e.input.success) = true :=
      fun e he => by rw [hfailing e (List.mem_reverse.mp he)]; rfl
    have hsplit : sinceSuccess (earlier ++ failing) = sinceSuccess earlier ++ failing := by
      rw [sinceSuccess, List.rtakeWhile, List.reverse_append, List.takeWhile_append_of_pos hall,
        List.reverse_append, List.reverse_reverse]
      rfl
    rw [hsplit, List.length_append]
    omega
  · intro hthree
    refine ⟨sinceSuccess past, List.rtakeWhile_suffix _ past, hthree, ?_⟩
    intro e he
    simpa using List.mem_rtakeWhile_imp he

/-- The state after the polls: its grace period is their outage, and it stopped once in it. -/
structure Lived (past : List PollEntry) (s : EngineState) : Prop where
  tracks : (Outage.ofPolls past).Tracks s
  stopped : s.status = .stopped → s.stoppedAt.isSome = true
  once : ((sinceSuccess past).filter entersStopped).length = if 3 ≤ (sinceSuccess past).length then 1 else 0

theorem Lived.stoppedAt_eq {past : List PollEntry} {s : EngineState} (h : Lived past s) :
    s.stoppedAt = (sinceSuccess past)[2]?.map fun e => e.input.now := by
  cases hsince : (Outage.ofPolls past).since with
  | none => exact (h.tracks.running hsince).2.2.trans hsince.symm
  | some since => exact (h.tracks.stopped since hsince).2.1.trans hsince.symm

theorem Lived.stoppedAt_isSome {past : List PollEntry} {s : EngineState} (h : Lived past s) :
    s.stoppedAt.isSome = true ↔ 3 ≤ (sinceSuccess past).length := by
  rw [h.stoppedAt_eq, Option.isSome_map]
  constructor
  · intro hsome
    obtain ⟨third, hthird⟩ := Option.isSome_iff_exists.mp hsome
    exact (List.getElem?_eq_some_iff.mp hthird).choose
  · intro hthree
    rw [List.getElem?_eq_getElem hthree]
    rfl

theorem Lived.stopped_iff {past : List PollEntry} {s : EngineState} (h : Lived past s) :
    s.status = .stopped ↔ s.stoppedAt.isSome = true := by
  refine ⟨h.stopped, fun hsome => ?_⟩
  obtain ⟨since, hsince⟩ := Option.isSome_iff_exists.mp hsome
  refine (h.tracks.stopped since ?_).2.2
  exact h.stoppedAt_eq.symm.trans hsince

theorem lived_new (engineType : EngineType) (endpoint : String) (mode : DeploymentMode) (now : Instant) :
    Lived [] (EngineState.new engineType endpoint mode now) where
  tracks := ⟨fun _ => ⟨Nat.succ_pos 2, rfl, rfl⟩, fun since hsince => by cases hsince⟩
  stopped := fun h => by cases h
  once := rfl

/-- Among the probes, only the one that makes three failures enters `Stopped`. -/
theorem Lived.entersStopped_iff {past : List PollEntry} {e : PollEntry} (h : Lived past e.before) :
    entersStopped e = true ↔ e.input.success = false ∧
      3 ≤ (e.before.consecutiveFailures + 1) % 2 ^ 32 ∧ e.before.stoppedAt = none := by
  rw [entersStopped, decide_eq_true_eq, probed, Ne, h.stopped_iff]
  cases hsuccess : e.input.success with
  | true => exact iff_of_false (fun hstopped => by cases hstopped.2) (fun hfalse => by cases hfalse.1)
  | false =>
    have hgrace := e.before.grace_recordProbeResult_false e.input.now
    by_cases hthree : 3 ≤ (e.before.consecutiveFailures + 1) % 2 ^ 32
    · rw [if_pos hthree] at hgrace
      have hstatus : (e.before.recordProbeResult false e.input.now).status = .stopped :=
        congrArg (fun g => g.2.1) hgrace
      constructor
      · rintro ⟨hnone, -⟩
        exact ⟨rfl, hthree, by simpa using hnone⟩
      · rintro ⟨-, -, hnone⟩
        exact ⟨by rw [hnone]; exact Bool.false_ne_true, hstatus⟩
    · rw [if_neg hthree] at hgrace
      have hstatus : (e.before.recordProbeResult false e.input.now).status = e.before.status :=
        congrArg (fun g => g.2.1) hgrace
      refine iff_of_false ?_ (fun hfalse => hthree hfalse.2.1)
      rw [hstatus]
      exact fun hstopped => hstopped.1 (h.stopped hstopped.2)

/-- An outage is entered by its third failure and by no other. -/
theorem Lived.entersStopped_iff_third {past : List PollEntry} {e : PollEntry} (h : Lived past e.before)
    (hfails : e.input.success = false) : entersStopped e = true ↔ (sinceSuccess past).length = 2 := by
  rw [h.entersStopped_iff]
  cases hsince : (Outage.ofPolls past).since with
  | none =>
    obtain ⟨hlt, hfailures, hstopped⟩ := h.tracks.running hsince
    change (sinceSuccess past).length < 3 at hlt
    change e.before.consecutiveFailures = (sinceSuccess past).length at hfailures
    rw [hfailures, hstopped]
    simp only [hfails, true_and, and_true]
    omega
  | some since =>
    obtain ⟨hle, hstopped, -⟩ := h.tracks.stopped since hsince
    change 3 ≤ (sinceSuccess past).length at hle
    refine iff_of_false (fun hnone => ?_) (by omega)
    cases hnone.2.2.symm.trans hstopped

theorem lived_probed {past : List PollEntry} {e : PollEntry} (h : Lived past e.before) :
    Lived (past ++ [e]) (probed e) where
  tracks := by
    rw [Outage.ofPolls_append]
    exact h.tracks.recordProbeResult e.input.success e.input.now
  stopped := by
    intro hstopped
    cases hsuccess : e.input.success with
    | true =>
      rw [probed, hsuccess] at hstopped
      cases hstopped
    | false =>
      have hgrace := e.before.grace_recordProbeResult_false e.input.now
      rw [probed, hsuccess] at hstopped ⊢
      split at hgrace
      · have hsome := congrArg (fun g => g.2.2) hgrace
        change (e.before.recordProbeResult false e.input.now).stoppedAt = some _ at hsome
        rw [hsome]
        rfl
      · have hstatus := congrArg (fun g => g.2.1) hgrace
        have hsame := congrArg (fun g => g.2.2) hgrace
        change (e.before.recordProbeResult false e.input.now).status = e.before.status at hstatus
        change (e.before.recordProbeResult false e.input.now).stoppedAt = e.before.stoppedAt at hsame
        rw [hsame]
        exact h.stopped (hstatus.symm.trans hstopped)
  once := by
    cases hsuccess : e.input.success with
    | true => rw [sinceSuccess_true past hsuccess]; rfl
    | false =>
      rw [sinceSuccess_false past hsuccess, List.filter_append, List.length_append, h.once,
        List.length_append, List.length_singleton, List.filter_singleton]
      have hthird := h.entersStopped_iff_third hsuccess
      cases henters : entersStopped e with
      | true =>
        rw [henters] at hthird
        have htwo := hthird.mp rfl
        simp [htwo]
      | false =>
        have htwo : (sinceSuccess past).length ≠ 2 := by
          intro htwo
          cases henters.symm.trans (hthird.mpr htwo)
        by_cases hle : 3 ≤ (sinceSuccess past).length
        · rw [if_pos hle, if_pos (by omega)]
          rfl
        · rw [if_neg hle, if_neg (by omega)]
          rfl

theorem Lived.of_grace_eq {past : List PollEntry} {s s' : EngineState} (h : Lived past s)
    (hgrace : s'.grace = s.grace) : Lived past s' where
  tracks := h.tracks.of_grace hgrace
  stopped := by
    have hstatus : s'.status = s.status := congrArg (fun g => g.2.1) hgrace
    have hstopped : s'.stoppedAt = s.stoppedAt := congrArg (fun g => g.2.2) hgrace
    rw [hstatus, hstopped]
    exact h.stopped
  once := h.once

theorem lived_final (s : EngineState) (h : Lived [] s) (polls : List Probe) :
    Lived (trace EngineState.poll s polls) (final EngineState.poll s polls) := by
  induction polls using List.reverseRecOn with
  | nil => exact h
  | append_singleton polls p ih =>
    rw [trace_concat, final_concat]
    exact (lived_probed ih).of_grace_eq (EngineState.grace_poll _ p)

/-- What the state says after a probe, in terms of the probes so far. -/
structure FollowsProbes (past : List PollEntry) (e : PollEntry) : Prop where
  stopped : (probed e).status = .stopped ↔ LastThreeFailed (past ++ [e])
  isSome_stoppedAt : (probed e).stoppedAt.isSome = true ↔ LastThreeFailed (past ++ [e])
  stoppedAt : (probed e).stoppedAt = (sinceSuccess (past ++ [e]))[2]?.map fun third => third.input.now
  unmoved : e.input.success = false → ∀ t, e.before.stoppedAt = some t → (probed e).stoppedAt = some t
  removed : ∀ now, (probed e).shouldRemove now = true ↔
    ∃ third, (sinceSuccess (past ++ [e]))[2]? = some third ∧ 30 < now - third.input.now
  cleared : entersStopped e = true → (probed e).modelCache = (none, none, none, none)
  kept : entersStopped e = false → (probed e).modelCache = e.before.modelCache
  once : LastThreeFailed (past ++ [e]) → ((sinceSuccess (past ++ [e])).filter entersStopped).length = 1
  never : ¬ LastThreeFailed (past ++ [e]) → (sinceSuccess (past ++ [e])).filter entersStopped = []

theorem Lived.shouldRemove_iff {past : List PollEntry} {s : EngineState} (h : Lived past s) (now : Instant) :
    s.shouldRemove now = true ↔ ∃ third, (sinceSuccess past)[2]? = some third ∧ 30 < now - third.input.now := by
  rw [h.tracks.shouldRemove_iff, Outage.ofPolls]
  simp only [Option.map_eq_some_iff]
  constructor
  · rintro ⟨since, ⟨third, hthird, rfl⟩, hlate⟩
    refine ⟨third, hthird, (lt_max_iff.mp hlate).resolve_right ?_⟩
    exact not_lt_of_ge (by decide +kernel)
  · rintro ⟨third, hthird, hlate⟩
    exact ⟨_, ⟨third, hthird, rfl⟩, lt_max_of_lt_left hlate⟩

theorem Lived.modelCache_probed {past : List PollEntry} {e : PollEntry} (h : Lived past e.before) :
    (probed e).modelCache = if entersStopped e = true then (none, none, none, none) else e.before.modelCache := by
  rw [probed, EngineState.modelCache_recordProbeResult]
  exact if_congr h.entersStopped_iff.symm rfl rfl

theorem followsProbes_of_lived {past : List PollEntry} {e : PollEntry} (h : Lived past e.before) :
    FollowsProbes past e where
  stopped := by rw [(lived_probed h).stopped_iff, (lived_probed h).stoppedAt_isSome, lastThreeFailed_iff]
  isSome_stoppedAt := by rw [(lived_probed h).stoppedAt_isSome, lastThreeFailed_iff]
  stoppedAt := (lived_probed h).stoppedAt_eq
  unmoved := by
    intro hfails t ht
    rw [(lived_probed h).stoppedAt_eq, sinceSuccess_false past hfails]
    rw [h.stoppedAt_eq] at ht
    obtain ⟨third, hthird, rfl⟩ := Option.map_eq_some_iff.mp ht
    obtain ⟨hlt, -⟩ := List.getElem?_eq_some_iff.mp hthird
    rw [List.getElem?_append_left hlt, hthird]
    rfl
  removed := (lived_probed h).shouldRemove_iff
  cleared := by
    intro henters
    rw [h.modelCache_probed, if_pos henters]
  kept := by
    intro hnot
    rw [h.modelCache_probed, if_neg (by rw [hnot]; exact Bool.false_ne_true)]
  once := by
    intro hdown
    rw [(lived_probed h).once, if_pos ((lastThreeFailed_iff _).mp hdown)]
  never := by
    intro hup
    refine List.length_eq_zero_iff.mp ?_
    rw [(lived_probed h).once, if_neg (fun hle => hup ((lastThreeFailed_iff _).mpr hle))]

/-- After every probe of every run of a new engine: `Stopped` since the third failure in a row and until
the next success, removable 30 s later, its model dropped at that failure and at no other probe. -/
theorem engine_follows_probes (engineType : EngineType) (endpoint : String) (mode : DeploymentMode)
    (start : Instant) (polls : List Probe) (p : Probe) :
    FollowsProbes (trace EngineState.poll (EngineState.new engineType endpoint mode start) polls)
      (entry EngineState.poll (final EngineState.poll (EngineState.new engineType endpoint mode start) polls) p) :=
  followsProbes_of_lived (lived_final _ (lived_new engineType endpoint mode start) polls)

end SparkDashboard.Engines
