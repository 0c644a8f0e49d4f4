import SparkDashboard.Browser.LiveMotion
import SparkDashboard.Dashboard.EngineRotation

/-!
# The clock of the rotation

Each commit of a page runs two effects: one counts down to the next step, afresh whenever what it
counts for has changed; one gives the page back to its source once the rotation has stopped. Times
are in milliseconds.
-/

namespace SparkDashboard.Dashboard

open Browser Utf16 Stepping

def withSelectedEngine (chosen : SelectedTargets) (target : Option PageEngineTarget) : SelectedTargets :=
  { chosen with engineTarget := target }

inductive RotationInterval where
  | threeSeconds | fiveSeconds | tenSeconds | twentySeconds
  deriving DecidableEq, Repr

def RotationInterval.ms : RotationInterval → Nat
  | .threeSeconds => 3000
  | .fiveSeconds => 5000
  | .tenSeconds => 10000
  | .twentySeconds => 20000

/-- What a countdown is for. -/
structure Countdown where
  running : Bool
  setting : Option RotationInterval
  currentKey : Utf16
  deriving DecidableEq

/-- A page with the rotation hook on it. `countdown` and `stopped` are what the two effects last ran
for; `timer` is when the pending timeout is due. -/
structure RotatingPage where
  setting : Option RotationInterval
  latest : Option MetricsSnapshot
  live : Bool
  source : Option PageSource
  held : Held (Option MetricsSnapshot)
  chosen : SelectedTargets := {}
  holding : Bool := false
  countdown : Option Countdown := none
  stopped : Option Bool := none
  timer : Option Nat := none

namespace RotatingPage

variable (p : RotatingPage)

def snapshot : Option MetricsSnapshot := (useHeldWhileFrozen p.latest (!p.live) p.held).1

def cycle : List PageEngineTarget := rotationCycle ((p.snapshot.map MetricsSnapshot.engines).getD [])

def available : Bool := decide (p.cycle ≠ [])

def running : Bool := p.setting.isSome && p.available && p.live

def current : Option PageEngineTarget := (pageSelection p.snapshot p.chosen p.source).engineTarget

def counting : Countdown := ⟨p.running, p.setting, rotationTargetKey p.current⟩

def isStopped : Bool := p.setting.isNone || !p.available

def latch : RotatingPage := { p with held := (useHeldWhileFrozen p.latest (!p.live) p.held).2 }

/-- An effect runs where what it depends on has changed. -/
def clockEffect (now : Nat) : RotatingPage :=
  if p.countdown = some p.counting then p
  else
    { p with
      countdown := some p.counting
      timer := if p.running then p.setting.map fun interval => now + interval.ms else none }

def releaseEffect : RotatingPage :=
  if p.stopped = some p.isStopped then p
  else if p.isStopped && p.holding then
    { p with stopped := some p.isStopped, holding := false, chosen := withSelectedEngine p.chosen none }
  else { p with stopped := some p.isStopped }

/-- A commit, and the one after it where the effects have given the page back. -/
def commit (now : Nat) : RotatingPage := ((p.latch.clockEffect now).releaseEffect).clockEffect now

def mount (setting : Option RotationInterval) (latest : Option MetricsSnapshot) (live : Bool)
    (source : Option PageSource) (start : Nat) : RotatingPage :=
  commit { setting, latest, live, source, held := ⟨!live, latest⟩ } start

end RotatingPage

/-- What a page is given from outside. -/
structure Given where
  setting : Option RotationInterval
  latest : Option MetricsSnapshot
  live : Bool
  source : Option PageSource

def RotatingPage.given (p : RotatingPage) : Given := ⟨p.setting, p.latest, p.live, p.source⟩

inductive RotationInput where
  | ingest (snapshot : MetricsSnapshot)
  | choose (setting : Option RotationInterval)
  | setLive (live : Bool)
  | setSource (source : Option PageSource)
  /-- The timeout's callback, which is not called before it is due. -/
  | elapse

/-- What a page is given once an input has come. -/
def RotationInput.gives (given : Given) : RotationInput → Given
  | .ingest snapshot => { given with latest := some snapshot }
  | .choose setting => { given with setting }
  | .setLive live => { given with live }
  | .setSource source => { given with source }
  | .elapse => given

structure RotationEvent where
  now : Nat
  input : RotationInput

namespace RotatingPage

/-- The step of the rotation: from where the page is, among the engines it shows. -/
def rotateNow (p : RotatingPage) (now : Nat) : Option PageEngineTarget × RotatingPage :=
  match nextRotationTarget p.cycle p.current with
  | none => (none, { p with timer := none })
  | some next =>
    (some next,
      commit { p with timer := none, holding := true, chosen := withSelectedEngine p.chosen (some next) } now)

def step (p : RotatingPage) (e : RotationEvent) : Option PageEngineTarget × RotatingPage :=
  match e.input with
  | .ingest snapshot => (none, commit { p with latest := some snapshot } e.now)
  | .choose setting => (none, commit { p with setting } e.now)
  | .setLive live => (none, commit { p with live } e.now)
  | .setSource source => (none, commit { p with source } e.now)
  | .elapse => if p.timer.any fun due => decide (due ≤ e.now) then p.rotateNow e.now else (none, p)

end RotatingPage

abbrev RotationEntry := Entry RotatingPage RotationEvent (Option PageEngineTarget)

namespace RotatingPage

section Effects

variable {p : RotatingPage} {now : Nat}

theorem snapshot_latch (p : RotatingPage) : p.latch.snapshot = p.snapshot :=
  useHeldWhileFrozen_again p.latest (!p.live) p.held

theorem frozen_latch (p : RotatingPage) : p.latch.held.frozen = !p.live :=
  frozen_useHeldWhileFrozen p.latest (!p.live) p.held

theorem counting_congr {q : RotatingPage} (hsetting : q.setting = p.setting) (hlive : q.live = p.live)
    (hsnapshot : q.snapshot = p.snapshot) (hchosen : q.chosen = p.chosen) (hsource : q.source = p.source) :
    q.counting = p.counting := by
  have hcycle : q.cycle = p.cycle := by rw [cycle, cycle, hsnapshot]
  have havailable : q.available = p.available := by rw [available, available, hcycle]
  rw [counting, counting, running, running, current, current, hsetting, havailable, hlive, hsnapshot, hchosen, hsource]

theorem counting_latch (p : RotatingPage) : p.latch.counting = p.counting :=
  counting_congr rfl rfl (snapshot_latch p) rfl rfl

theorem isStopped_latch (p : RotatingPage) : p.latch.isStopped = p.isStopped := by
  rw [isStopped, isStopped, available, available, cycle, cycle, snapshot_latch]
  rfl

theorem running_eq_false_of_isStopped (h : p.isStopped = true) : p.running = false := by
  rw [isStopped, Bool.or_eq_true, Option.isNone_iff_eq_none, Bool.not_eq_true'] at h
  rw [running]
  rcases h with h | h
  · rw [h]
    rfl
  · rw [h, Bool.and_false]
    rfl

/-- What the clock effect leaves as it is. -/
theorem clockEffect_eq (p : RotatingPage) (now : Nat) :
    ∃ timer, p.clockEffect now = { p with countdown := some p.counting, timer } ∧
      (timer = p.timer ∧ p.countdown = some p.counting ∨ p.countdown ≠ some p.counting ∧
        timer = if p.running then p.setting.map fun interval => now + interval.ms else none) := by
  by_cases h : p.countdown = some p.counting
  · refine ⟨p.timer, ?_, .inl ⟨rfl, h⟩⟩
    rw [clockEffect, if_pos h, ← h]
  · refine ⟨_, ?_, .inr ⟨h, rfl⟩⟩
    rw [clockEffect, if_neg h]

theorem releaseEffect_cases (p : RotatingPage) :
    p.releaseEffect = { p with stopped := some p.isStopped } ∨
      p.isStopped = true ∧ p.releaseEffect =
        { p with stopped := some p.isStopped, holding := false, chosen := withSelectedEngine p.chosen none } := by
  rw [releaseEffect]
  split
  · rename_i h
    rw [← h]
    exact .inl rfl
  · split
    · rename_i h
      exact .inr ⟨(Bool.and_eq_true_iff.mp h).1, rfl⟩
    · exact .inl rfl

/-- A commit changes nothing that it is given, and the choice only where the rotation has stopped. -/
theorem commit_eq (p : RotatingPage) (now : Nat) :
    ∃ holding chosen countdown timer, p.commit now =
      { p.latch with holding, chosen, countdown, stopped := some p.isStopped, timer } ∧
      (chosen = p.chosen ∧ holding = p.holding ∨
        p.isStopped = true ∧ holding = false ∧ chosen = withSelectedEngine p.chosen none) := by
  obtain ⟨timer, hclock, -⟩ := clockEffect_eq p.latch now
  obtain ⟨timer', hclock', -⟩ := clockEffect_eq (p.latch.clockEffect now).releaseEffect now
  have hstopped : ({ p.latch with countdown := some p.latch.counting, timer } : RotatingPage).isStopped = p.isStopped :=
    isStopped_latch p
  rw [commit, hclock']
  rcases releaseEffect_cases (p.latch.clockEffect now) with hrelease | ⟨hstop, hrelease⟩
  · rw [hrelease, hclock, hstopped]
    exact ⟨_, _, _, _, rfl, .inl ⟨rfl, rfl⟩⟩
  · rw [hclock, hstopped] at hstop
    rw [hrelease, hclock, hstopped]
    exact ⟨_, _, _, _, rfl, .inr ⟨hstop, rfl, rfl⟩⟩

theorem snapshot_commit (p : RotatingPage) (now : Nat) : (p.commit now).snapshot = p.snapshot := by
  obtain ⟨holding, chosen, countdown, timer, hcommit, -⟩ := commit_eq p now
  rw [hcommit]
  exact snapshot_latch p

theorem isStopped_commit (p : RotatingPage) (now : Nat) : (p.commit now).isStopped = p.isStopped := by
  obtain ⟨holding, chosen, countdown, timer, hcommit, -⟩ := commit_eq p now
  rw [hcommit]
  exact isStopped_latch p

theorem given_commit (p : RotatingPage) (now : Nat) : (p.commit now).given = p.given := by
  obtain ⟨holding, chosen, countdown, timer, hcommit, -⟩ := commit_eq p now
  rw [hcommit]
  rfl

theorem given_step (p : RotatingPage) (e : RotationEvent) : (p.step e).2.given = e.input.gives p.given := by
  rw [step]
  cases e.input with
  | elapse =>
    dsimp only
    split
    · rw [rotateNow]
      split
      · rfl
      · exact given_commit _ e.now
    · rfl
  | _ => exact given_commit _ e.now

theorem snapshot_of_live (h : p.live = true) : p.snapshot = p.latest := by
  rw [snapshot, value_useHeldWhileFrozen, h]
  rfl

end Effects

section Ownership

variable {p : RotatingPage} {now : Nat}

/-- The session's choice is the rotation's own, and none is left to a page that has stopped. -/
structure Ready (p : RotatingPage) : Prop where
  holding : p.holding = p.chosen.engineTarget.isSome
  given_back : p.stopped = some true → p.chosen.engineTarget = none

/-- What a commit leaves: both effects have run for what the page shows. -/
structure Settled (p : RotatingPage) : Prop where
  ready : Ready p
  frozen : p.held.frozen = !p.live
  stopped : p.stopped = some p.isStopped
  counted : p.countdown = some p.counting

theorem Ready.clockEffect (h : Ready p) (now : Nat) : Ready (p.clockEffect now) := by
  obtain ⟨timer, hclock, -⟩ := clockEffect_eq p now
  rw [hclock]
  exact ⟨h.holding, h.given_back⟩

theorem Ready.releaseEffect (h : Ready p) : Ready p.releaseEffect := by
  rw [RotatingPage.releaseEffect]
  by_cases hsame : p.stopped = some p.isStopped
  · rw [if_pos hsame]
    exact h
  · rw [if_neg hsame]
    by_cases hrelease : (p.isStopped && p.holding) = true
    · rw [if_pos hrelease]
      exact ⟨rfl, fun _ => rfl⟩
    · rw [if_neg hrelease]
      refine ⟨h.holding, fun hstopped => ?_⟩
      have hstop : p.isStopped = true := Option.some.inj hstopped
      have hnot : p.holding = false := by rwa [hstop, Bool.true_and, Bool.not_eq_true] at hrelease
      rw [h.holding, Option.isSome_eq_false_iff, Option.isNone_iff_eq_none] at hnot
      exact hnot

theorem Ready.commit (h : Ready p) (now : Nat) : Settled (p.commit now) := by
  have hready : Ready (p.commit now) :=
    Ready.clockEffect (Ready.releaseEffect (Ready.clockEffect (p := p.latch) ⟨h.holding, h.given_back⟩ now)) now
  refine ⟨hready, ?_, ?_, ?_⟩
  · obtain ⟨holding, chosen, countdown, timer, hcommit, -⟩ := commit_eq p now
    rw [hcommit]
    exact frozen_latch p
  · rw [isStopped_commit]
    obtain ⟨holding, chosen, countdown, timer, hcommit, -⟩ := commit_eq p now
    rw [hcommit]
  · obtain ⟨timer, hclock, -⟩ := clockEffect_eq (p.latch.clockEffect now).releaseEffect now
    rw [RotatingPage.commit, hclock]
    rfl

/-- A page whose rotation has stopped shows what it would without one. -/
theorem Settled.current_of_isStopped (h : Settled p) (hstop : p.isStopped = true) :
    p.current = engineTarget p.snapshot {} p.source := by
  have hnone := h.ready.given_back (by rw [h.stopped, hstop])
  show engineTarget p.snapshot p.chosen p.source = engineTarget p.snapshot {} p.source
  rw [engineTarget.eq_def, engineTarget.eq_def, hnone]

/-- A frozen page shows what it showed when it froze. -/
theorem Settled.snapshot_of_frozen (h : Settled p) (hlive : p.live = false) : p.snapshot = p.held.value := by
  have hfrozen : p.held.frozen = !p.live := h.frozen
  rw [snapshot, useHeldWhileFrozen, if_neg (not_not_intro hfrozen), hlive]
  rfl

end Ownership

section Timing

variable {p q : RotatingPage} {now start : Nat} {past : List RotationEntry}

/-- The time of the last of the entries. -/
def timeAfter (start : Nat) (past : List RotationEntry) : Nat :=
  (past.getLast?.map fun x => x.input.now).getD start

/-- A timer that is pending was set at one of the entries, and each page since has counted for the same. -/
def Armed (start : Nat) (past : List RotationEntry)
    (p : RotatingPage) : Prop :=
  ∀ due, p.timer = some due → ∃ c interval, p.countdown = some c ∧ c.running = true ∧ c.setting = some interval ∧
    ∃ a b, past = a ++ b ∧ due = timeAfter start a + interval.ms ∧ ∀ x ∈ b, x.before.counting = c

/-- Where the countdown last begun is for a rotation that runs, it is still pending. -/
def Pending (p : RotatingPage) : Prop := ∀ c, p.countdown = some c → c.running = true → p.timer.isSome = true

theorem Armed.congr (h : Armed start past p) (htimer : q.timer = p.timer) (hcountdown : q.countdown = p.countdown) :
    Armed start past q := by
  rw [Armed, htimer, hcountdown]
  exact h

theorem Armed.of_timer_none (h : p.timer = none) : Armed start past p := by
  intro due hdue
  rw [h] at hdue
  cases hdue

theorem exists_interval_of_running (h : p.running = true) : ∃ interval, p.setting = some interval := by
  rw [running, Bool.and_assoc, Bool.and_eq_true] at h
  exact Option.isSome_iff_exists.mp h.1

theorem Armed.clockEffect (h : Armed start past p) : Armed start past (p.clockEffect (timeAfter start past)) := by
  obtain ⟨timer, hclock, ⟨rfl, hsame⟩ | ⟨-, rfl⟩⟩ := clockEffect_eq p (timeAfter start past)
  · rw [hclock]
    exact h.congr rfl hsame.symm
  · rw [hclock]
    by_cases hrunning : p.running = true
    · obtain ⟨interval, hsetting⟩ := exists_interval_of_running hrunning
      intro due hdue
      rw [if_pos hrunning, hsetting, Option.map_some] at hdue
      refine ⟨p.counting, interval, rfl, hrunning, hsetting, past, [], (List.append_nil past).symm, ?_, ?_⟩
      · exact (Option.some.inj hdue).symm
      · intro x hx
        cases hx
    · exact Armed.of_timer_none (if_neg hrunning)

theorem releaseEffect_timer (p : RotatingPage) :
    p.releaseEffect.timer = p.timer ∧ p.releaseEffect.countdown = p.countdown := by
  rcases releaseEffect_cases p with hrelease | ⟨-, hrelease⟩
  · rw [hrelease]
    exact ⟨rfl, rfl⟩
  · rw [hrelease]
    exact ⟨rfl, rfl⟩

theorem Armed.commit (h : Armed start past p) : Armed start past (p.commit (timeAfter start past)) := by
  have hfirst : Armed start past (p.latch.clockEffect (timeAfter start past)) :=
    Armed.clockEffect (h.congr (q := p.latch) rfl rfl)
  obtain ⟨htimer, hcountdown⟩ := releaseEffect_timer (p.latch.clockEffect (timeAfter start past))
  exact Armed.clockEffect (hfirst.congr htimer hcountdown)

/-- One more entry keeps what is known of a timer, where the page's countdown is up to date. -/
theorem Armed.concat (h : Armed start past p) (hcounted : p.countdown = some p.counting)
    {x : RotationEntry} (hx : x.before = p) :
    Armed start (past ++ [x]) p := by
  intro due hdue
  obtain ⟨c, interval, hcountdown, hrunning, hsetting, a, b, rfl, rfl, hsame⟩ := h due hdue
  refine ⟨c, interval, hcountdown, hrunning, hsetting, a, b ++ [x], List.append_assoc a b [x], rfl, ?_⟩
  intro y hy
  rcases List.mem_append.mp hy with hy | hy
  · exact hsame y hy
  · rw [List.mem_singleton.mp hy, hx]
    exact Option.some.inj (hcounted.symm.trans hcountdown)

/-- A pending timer is one for a rotation that runs. -/
theorem Armed.running (h : Armed start past p) (hcounted : p.countdown = some p.counting)
    (htimer : p.timer ≠ none) : p.running = true := by
  obtain ⟨due, hdue⟩ := Option.ne_none_iff_exists'.mp htimer
  obtain ⟨c, -, hcountdown, hrunning, -⟩ := h due hdue
  rw [hcounted] at hcountdown
  rw [← Option.some.inj hcountdown] at hrunning
  exact hrunning

theorem Pending.clockEffect (h : Pending p ∨ p.countdown ≠ some p.counting) (now : Nat) :
    Pending (p.clockEffect now) := by
  obtain ⟨timer, hclock, ⟨rfl, hsame⟩ | ⟨hchanged, rfl⟩⟩ := clockEffect_eq p now
  · rw [hclock]
    intro c hc
    rcases h with h | h
    · exact h c (hsame.trans hc)
    · exact absurd hsame h
  · rw [hclock]
    intro c hc hrunning
    have hshown : p.running = true := by rwa [← Option.some.inj hc] at hrunning
    obtain ⟨interval, hsetting⟩ := exists_interval_of_running hshown
    show (if p.running then p.setting.map fun interval => now + interval.ms else none).isSome = true
    rw [if_pos hshown, hsetting]
    rfl

theorem Pending.commit (h : Pending p ∨ p.countdown ≠ some p.counting) (now : Nat) : Pending (p.commit now) := by
  have hfirst : Pending (p.latch.clockEffect now) := by
    apply Pending.clockEffect
    rw [counting_latch]
    exact h
  obtain ⟨htimer, hcountdown⟩ := releaseEffect_timer (p.latch.clockEffect now)
  apply Pending.clockEffect
  left
  rw [Pending, htimer, hcountdown]
  exact hfirst

end Timing

section Steps

variable {p : RotatingPage} {start : Nat} {past : List RotationEntry}

theorem timeAfter_concat (start : Nat) (past : List RotationEntry)
    (x : RotationEntry) : timeAfter start (past ++ [x]) = x.input.now := by
  rw [timeAfter, List.getLast?_concat]
  rfl

/-- All that an event does: a commit of what it changes, nothing, or the rotation's step once it is due. -/
theorem step_cases (p : RotatingPage) (e : RotationEvent) :
    (∃ setting latest live source, step p e = (none, commit { p with setting, latest, live, source } e.now) ∧
      (latest = p.latest ∨ ∃ snapshot, e.input = .ingest snapshot ∧ latest = some snapshot)) ∨
    step p e = (none, p) ∨
    ∃ due, p.timer = some due ∧ due ≤ e.now ∧ step p e = p.rotateNow e.now := by
  rw [step]
  cases e.input with
  | ingest snapshot => exact .inl ⟨p.setting, some snapshot, p.live, p.source, rfl, .inr ⟨snapshot, rfl, rfl⟩⟩
  | choose setting => exact .inl ⟨setting, p.latest, p.live, p.source, rfl, .inl rfl⟩
  | setLive live => exact .inl ⟨p.setting, p.latest, live, p.source, rfl, .inl rfl⟩
  | setSource source => exact .inl ⟨p.setting, p.latest, p.live, source, rfl, .inl rfl⟩
  | elapse =>
    right
    cases htimer : p.timer with
    | none => exact .inl rfl
    | some due =>
      by_cases hdue : due ≤ e.now
      · refine .inr ⟨due, rfl, hdue, ?_⟩
        rw [Option.any_some, decide_eq_true hdue]
        rfl
      · left
        rw [Option.any_some, decide_eq_false hdue]
        rfl

/-- What holds after the mount and after each event. -/
structure Kept (start : Nat) (past : List RotationEntry)
    (p : RotatingPage) : Prop where
  settled : Settled p
  armed : Armed start past p

/-- A step that is due is one of a rotation that runs, so there is a next target. -/
theorem Kept.rotateNow (h : Kept start past p) (htimer : p.timer ≠ none) (now : Nat) :
    p.running = true ∧ ∃ next, next ∈ p.cycle ∧ nextRotationTarget p.cycle p.current = some next ∧
      p.rotateNow now = (some next,
        commit { p with timer := none, holding := true, chosen := withSelectedEngine p.chosen (some next) } now) := by
  have hrunning := h.armed.running h.settled.counted htimer
  have havailable : p.available = true := by
    rw [running, Bool.and_eq_true, Bool.and_eq_true] at hrunning
    exact hrunning.1.2
  obtain ⟨next, hmem, hnext⟩ := nextRotationTarget_mem (of_decide_eq_true havailable) p.current
  refine ⟨hrunning, next, hmem, hnext, ?_⟩
  rw [RotatingPage.rotateNow, hnext]

theorem not_isStopped_of_running (h : p.running = true) : p.isStopped = false := by
  rw [← Bool.not_eq_true]
  intro hstop
  rw [running_eq_false_of_isStopped hstop] at h
  cases h

theorem Kept.step (h : Kept start past p) (e : RotationEvent) :
    Kept start (past ++ [entry RotatingPage.step p e]) (p.step e).2 := by
  have harmed : Armed start (past ++ [entry RotatingPage.step p e]) p := h.armed.concat h.settled.counted rfl
  have hnow : timeAfter start (past ++ [entry RotatingPage.step p e]) = e.now := timeAfter_concat start past _
  rcases step_cases p e with ⟨setting, latest, live, source, hstep, -⟩ | hstep | ⟨due, hdue, -, hstep⟩
  · rw [hstep]
    have hready : Ready { p with setting, latest, live, source } :=
      ⟨h.settled.ready.holding, h.settled.ready.given_back⟩
    refine ⟨hready.commit e.now, ?_⟩
    rw [← hnow]
    exact Armed.commit (harmed.congr rfl rfl)
  · rw [hstep]
    exact ⟨h.settled, harmed⟩
  · have htimer : p.timer ≠ none := Option.ne_none_iff_exists'.mpr ⟨due, hdue⟩
    obtain ⟨hrunning, next, -, -, hrotate⟩ := h.rotateNow htimer e.now
    rw [hstep, hrotate]
    refine ⟨Ready.commit ⟨rfl, fun hstopped => ?_⟩ e.now, ?_⟩
    · have hstop : p.isStopped = true := Option.some.inj (h.settled.stopped.symm.trans hstopped)
      rw [not_isStopped_of_running hrunning] at hstop
      cases hstop
    · rw [← hnow]
      exact Armed.commit (Armed.of_timer_none rfl)

theorem Kept.mount (setting : Option RotationInterval) (latest : Option MetricsSnapshot) (live : Bool)
    (source : Option PageSource) (start : Nat) : Kept start [] (mount setting latest live source start) := by
  have hfirst : Armed start [] ⟨setting, latest, live, source, ⟨!live, latest⟩, {}, false, none, none, none⟩ :=
    Armed.of_timer_none rfl
  exact ⟨Ready.commit ⟨rfl, fun _ => rfl⟩ start, hfirst.commit⟩

/-- After a commit the page shows its choice, where the rotation has not stopped. -/
theorem chosen_commit (p : RotatingPage) (now : Nat) :
    (p.commit now).chosen = p.chosen ∨ (p.commit now).isStopped = true := by
  rw [isStopped_commit]
  obtain ⟨holding, chosen, countdown, timer, hcommit, ⟨rfl, -⟩ | ⟨hstop, -⟩⟩ := commit_eq p now
  · rw [hcommit]
    exact .inl rfl
  · exact .inr hstop

theorem Kept.output (h : Kept start past p) {e : RotationEvent} {next : PageEngineTarget}
    (hnext : (p.step e).1 = some next) :
    ∃ interval a b, p.setting = some interval ∧ p.live = true ∧ next ∈ p.cycle ∧
      nextRotationTarget p.cycle p.current = some next ∧ (p.step e).2.current = some next ∧ past = a ++ b ∧
      timeAfter start a + interval.ms ≤ e.now ∧ ∀ x ∈ b, x.before.counting = p.counting := by
  rcases step_cases p e with ⟨setting, latest, live, source, hstep, -⟩ | hstep | ⟨due, hdue, hle, hstep⟩
  · rw [hstep] at hnext
    cases hnext
  · rw [hstep] at hnext
    cases hnext
  · have htimer : p.timer ≠ none := Option.ne_none_iff_exists'.mpr ⟨due, hdue⟩
    obtain ⟨hrunning, target, hmem, htarget, hrotate⟩ := h.rotateNow htimer e.now
    obtain ⟨c, interval, hcountdown, -, hsetting, a, b, hpast, hset, hsame⟩ := h.armed due hdue
    obtain rfl : p.counting = c := Option.some.inj (h.settled.counted.symm.trans hcountdown)
    rw [hstep, hrotate] at hnext ⊢
    obtain rfl : target = next := Option.some.inj hnext
    refine ⟨interval, a, b, hsetting, ?_, hmem, htarget, ?_, hpast, hset ▸ hle, hsame⟩
    · rw [running, Bool.and_eq_true] at hrunning
      exact hrunning.2
    · have hchosen := chosen_commit
        { p with timer := none, holding := true, chosen := withSelectedEngine p.chosen (some target) } e.now
      rcases hchosen with hchosen | hstopped
      · show engineTarget _ (RotatingPage.chosen _) _ = some target
        rw [hchosen]
        rfl
      · rw [isStopped_commit] at hstopped
        have hstop : p.isStopped = true := hstopped
        rw [not_isStopped_of_running hrunning] at hstop
        cases hstop

theorem Kept.elapse (h : Kept start past p) {due : Nat} (hdue : p.timer = some due) {e : RotationEvent}
    (helapse : e.input = .elapse) (hle : due ≤ e.now) : ∃ next, (p.step e).1 = some next := by
  obtain ⟨-, next, -, -, hrotate⟩ := h.rotateNow (Option.ne_none_iff_exists'.mpr ⟨due, hdue⟩) e.now
  have hstep : p.step e = p.rotateNow e.now := by
    rw [RotatingPage.step, helapse]
    dsimp only
    rw [hdue, Option.any_some, decide_eq_true hle, if_pos rfl]
  exact ⟨next, by rw [hstep, hrotate]⟩

theorem chosen_step (h : Kept start past p) {e : RotationEvent} (hnone : (p.step e).1 = none) :
    (p.step e).2.chosen = p.chosen ∨ (p.step e).2.isStopped = true := by
  rcases step_cases p e with ⟨setting, latest, live, source, hstep, -⟩ | hstep | ⟨due, hdue, -, hstep⟩
  · rw [hstep]
    exact chosen_commit _ e.now
  · rw [hstep]
    exact .inl rfl
  · obtain ⟨-, next, -, -, hrotate⟩ := h.rotateNow (Option.ne_none_iff_exists'.mpr ⟨due, hdue⟩) e.now
    rw [hstep, hrotate] at hnone
    cases hnone

/-- A frozen page does not rotate, and shows what it shows for as long as it is frozen. -/
theorem Kept.step_frozen (h : Kept start past p) (hlive : p.live = false) (e : RotationEvent) :
    (p.step e).1 = none ∧ ((p.step e).2.live = false → (p.step e).2.snapshot = p.snapshot) := by
  have hnone : (p.step e).1 = none := by
    cases houtput : (p.step e).1 with
    | none => rfl
    | some next =>
      obtain ⟨-, -, -, -, hlive', -⟩ := h.output houtput
      rw [hlive] at hlive'
      cases hlive'
  refine ⟨hnone, fun hlater => ?_⟩
  rcases step_cases p e with ⟨setting, latest, live, source, hstep, -⟩ | hstep | ⟨due, hdue, -, hstep⟩
  · rw [hstep] at hlater ⊢
    have hfrozen : live = false := by
      obtain ⟨holding, chosen, countdown, timer, hcommit, -⟩ := commit_eq { p with setting, latest, live, source } e.now
      rw [hcommit] at hlater
      exact hlater
    have hheld : p.held.frozen = !live := by rw [h.settled.frozen, hlive, hfrozen]
    rw [h.settled.snapshot_of_frozen hlive, snapshot_commit]
    rw [snapshot, useHeldWhileFrozen, if_neg (not_not_intro hheld), hfrozen]
    rfl
  · rw [hstep]
  · obtain ⟨-, next, -, -, hrotate⟩ := h.rotateNow (Option.ne_none_iff_exists'.mpr ⟨due, hdue⟩) e.now
    rw [hstep, hrotate] at hnone
    cases hnone

end Steps

section Distinct

variable {p : RotatingPage} {start : Nat} {past : List RotationEntry}

theorem nextRotationTarget_ne {cycle : List PageEngineTarget} (hnodup : cycle.Nodup) (htwo : 2 ≤ cycle.length)
    {current : Option PageEngineTarget} {next : PageEngineTarget} (h : nextRotationTarget cycle current = some next) :
    current ≠ some next := by
  rintro rfl
  have hcycle : cycle ≠ [] := List.length_pos_iff.mp (Nat.lt_of_lt_of_le Nat.zero_lt_two htwo)
  obtain ⟨other, hmem, hother⟩ := nextRotationTarget_mem hcycle (some next)
  obtain rfl : other = next := Option.some.inj (hother.symm.trans h)
  obtain ⟨i, hi, hget⟩ := List.mem_iff_getElem.mp hmem
  have hindex := targetIndex_of_getElem? hnodup (List.getElem?_eq_some_iff.mpr ⟨hi, hget⟩)
  rw [nextRotationTarget, if_neg (by omega), hindex] at h
  obtain ⟨hnext, hsame⟩ := List.getElem?_eq_some_iff.mp h
  have heq : (i + 1) % cycle.length = i := (List.Nodup.getElem_inj_iff hnodup).mp (hsame.trans hget.symm)
  rcases Nat.lt_or_ge (i + 1) cycle.length with hlt | hge
  · rw [Nat.mod_eq_of_lt hlt] at heq
    omega
  · have hlast : i + 1 = cycle.length := Nat.le_antisymm hi hge
    rw [hlast, Nat.mod_self] at heq
    omega

theorem rotationTargetKey_ne {current : Option PageEngineTarget} {next : PageEngineTarget} (h : current ≠ some next) :
    rotationTargetKey (some next) ≠ rotationTargetKey current := by
  intro hkey
  cases current with
  | none =>
    cases next with
    | all => exact absurd (List.cons.inj hkey).1 (by decide)
    | engine endpoint => exact absurd (List.cons.inj hkey).1 (by decide)
  | some target => exact h (by rw [rotationTargetKey_injective hkey])

/-- No two running engines of the snapshot have one endpoint. -/
def DistinctEngines (snapshot : MetricsSnapshot) : Prop :=
  ((runningEngines snapshot.engines).map EngineSnapshot.endpoint).Nodup

/-- No snapshot the page has at hand lists two running engines at one endpoint. -/
def Distinguished (p : RotatingPage) : Prop :=
  ∀ snapshot, p.latest = some snapshot ∨ p.held.value = some snapshot → DistinctEngines snapshot

theorem Distinguished.nodup_cycle (h : Distinguished p) : p.cycle.Nodup := by
  rw [cycle]
  cases hsnapshot : p.snapshot with
  | none => exact List.nodup_nil
  | some snapshot =>
    apply nodup_rotationCycle
    apply h snapshot
    rw [RotatingPage.snapshot, useHeldWhileFrozen] at hsnapshot
    split at hsnapshot
    · exact .inl hsnapshot
    · split at hsnapshot
      · exact .inr hsnapshot
      · exact .inl hsnapshot

theorem Distinguished.commit (h : Distinguished p) (now : Nat) : Distinguished (p.commit now) := by
  obtain ⟨holding, chosen, countdown, timer, hcommit, -⟩ := commit_eq p now
  rw [hcommit]
  intro snapshot hsnapshot
  apply h snapshot
  rcases hsnapshot with hsnapshot | hsnapshot
  · exact .inl hsnapshot
  · have hvalue : (useHeldWhileFrozen p.latest (!p.live) p.held).2.value = some snapshot := hsnapshot
    rw [useHeldWhileFrozen] at hvalue
    split at hvalue
    · exact .inl hvalue
    · exact .inr hvalue

theorem two_le_cycle {target : PageEngineTarget} (h : target ∈ p.cycle) : 2 ≤ p.cycle.length := by
  rw [cycle] at h ⊢
  generalize (p.snapshot.map MetricsSnapshot.engines).getD [] = engines at h ⊢
  have hmany : 2 ≤ (runningEngines engines).length := by
    rw [← Nat.not_lt]
    intro hfew
    rw [rotationCycle_eq_nil_iff.mpr hfew] at h
    cases h
  rw [rotationCycle_of_two_le hmany, List.length_cons, List.length_map]
  omega

/-- The rotation's own step begins another countdown, since it moves the page. -/
theorem Kept.pending_step (h : Kept start past p) (hpending : Pending p) (hdistinct : Distinguished p)
    (e : RotationEvent) : Pending (p.step e).2 := by
  rcases step_cases p e with ⟨setting, latest, live, source, hstep, -⟩ | hstep | ⟨due, hdue, -, hstep⟩
  · rw [hstep]
    have hstill : Pending { p with setting, latest, live, source } := hpending
    exact Pending.commit (.inl hstill) e.now
  · rw [hstep]
    exact hpending
  · obtain ⟨-, next, hmem, hnext, hrotate⟩ := h.rotateNow (Option.ne_none_iff_exists'.mpr ⟨due, hdue⟩) e.now
    have hmoved := nextRotationTarget_ne hdistinct.nodup_cycle (two_le_cycle hmem) hnext
    rw [hstep, hrotate]
    apply Pending.commit
    right
    intro hsame
    have hcounting : p.counting = RotatingPage.counting
        { p with timer := none, holding := true, chosen := withSelectedEngine p.chosen (some next) } :=
      Option.some.inj (h.settled.counted.symm.trans hsame)
    exact rotationTargetKey_ne hmoved (congrArg Countdown.currentKey hcounting).symm

theorem Distinguished.step (h : Distinguished p) {e : RotationEvent}
    (hinput : ∀ snapshot, e.input = .ingest snapshot → DistinctEngines snapshot) : Distinguished (p.step e).2 := by
  rcases step_cases p e with ⟨setting, latest, live, source, hstep, hlatest⟩ | hstep | ⟨due, -, -, hstep⟩
  · rw [hstep]
    apply Distinguished.commit
    rintro snapshot (hsnapshot | hsnapshot)
    · rcases hlatest with hlatest | ⟨ingested, hingest, hlatest⟩
      · exact h snapshot (.inl (hlatest.symm.trans hsnapshot))
      · have hsame : ingested = snapshot := Option.some.inj (hlatest.symm.trans hsnapshot)
        exact hsame ▸ hinput ingested hingest
    · exact h snapshot (.inr hsnapshot)
  · rw [hstep]
    exact h
  · rw [hstep, RotatingPage.rotateNow]
    split
    · exact h
    · apply Distinguished.commit
      exact h

/-- Where no two engines share an endpoint, a rotation that runs always has a timer pending. -/
theorem timer_of_running (hkept : Kept start [] p) (hpending : Pending p) (hdistinct : Distinguished p)
    {events : List RotationEvent}
    (hinputs : ∀ x ∈ events, ∀ snapshot, x.input = .ingest snapshot → DistinctEngines snapshot) :
    ∀ e ∈ trace step p events, e.after.running = true → e.after.timer.isSome = true := by
  refine forall_mem_trace
    (fun p rest => (∃ past, Kept start past p) ∧ Pending p ∧ Distinguished p ∧
      ∀ x ∈ rest, ∀ snapshot, x.input = RotationInput.ingest snapshot → DistinctEngines snapshot)
    ?_ ?_ ⟨⟨[], hkept⟩, hpending, hdistinct, hinputs⟩
  · rintro p x rest ⟨⟨past, hkept⟩, hpending, hdistinct, hinputs⟩
    obtain ⟨hinput, hrest⟩ := List.forall_mem_cons.mp hinputs
    exact ⟨⟨_, hkept.step x⟩, hkept.pending_step hpending hdistinct x, hdistinct.step hinput, hrest⟩
  · rintro p x rest ⟨⟨past, hkept⟩, hpending, hdistinct, -⟩ hrunning
    exact hkept.pending_step hpending hdistinct x _ (hkept.step x).settled.counted hrunning

end Distinct

/-- What each event does to a page that began at `start`, after the entries before it. -/
structure KeepsTime (start : Nat) (earlier : List RotationEntry)
    (e : RotationEntry) : Prop where
  given : e.after.given = e.input.input.gives e.before.given
  /-- A step goes to the next target, of a page that has counted for the same for the whole interval. -/
  steps : ∀ next, e.output = some next → ∃ interval a b, e.before.setting = some interval ∧ e.before.live = true ∧
    next ∈ e.before.cycle ∧ nextRotationTarget e.before.cycle e.before.current = some next ∧
    e.after.current = some next ∧ earlier = a ++ b ∧ timeAfter start a + interval.ms ≤ e.input.now ∧
    ∀ x ∈ b, x.before.counting = e.before.counting
  /-- A timeout that is called once it is due steps. -/
  elapses : ∀ due, e.before.timer = some due → e.input.input = .elapse → due ≤ e.input.now →
    ∃ next, e.output = some next
  armed : Armed start (earlier ++ [e]) e.after
  keeps : e.output = none → e.after.chosen = e.before.chosen ∨ e.after.isStopped = true
  gives_back : e.after.isStopped = true → e.after.current = engineTarget e.after.snapshot {} e.after.source
  holds_still : e.before.live = false →
    e.output = none ∧ (e.after.live = false → e.after.snapshot = e.before.snapshot)
  moves : e.after.live = true → e.after.snapshot = e.after.latest

theorem Kept.keepsTime {p : RotatingPage} {start : Nat}
    {past : List RotationEntry} (h : Kept start past p)
    (e : RotationEvent) : KeepsTime start past (entry RotatingPage.step p e) where
  given := given_step p e
  steps _ hnext := h.output hnext
  elapses _ hdue helapse hle := h.elapse hdue helapse hle
  armed := (h.step e).armed
  keeps := chosen_step h
  gives_back := (h.step e).settled.current_of_isStopped
  holds_still hlive := h.step_frozen hlive e
  moves := snapshot_of_live

end RotatingPage

end SparkDashboard.Dashboard
