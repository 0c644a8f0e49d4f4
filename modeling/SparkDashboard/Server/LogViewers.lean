import SparkDashboard.Server.LogStreams

/-!
# Viewers and streams that have ended

A task that has stopped reading still stands in the registry until it takes the lock
once more. Whoever subscribes in between is attached to a channel nobody publishes on.
-/

namespace SparkDashboard.Logs

open Stepping LogStreams

/-- The viewer is attached to a task that has not left its read loop. -/
def AttachesLive (e : StreamEntry) : Prop :=
  ∀ viewer container channel, e.input = .subscribe viewer container → e.output = some channel →
    ∃ t, e.after.tasks[channel]? = some t ∧ t.phase ≠ .left ∧ t.phase ≠ .deregistered

/-- No task of the container is between leaving its read loop and removing its entry. -/
def NoneLeaving (e : StreamEntry) : Prop :=
  ∀ viewer container, e.input = .subscribe viewer container →
    ∀ t ∈ e.before.tasks, t.container = container → t.phase ≠ .left

theorem attachesLive_of_none {s : LogStreams} (h : s.Registered) {container : String}
    (hnone : s.registry.lookup container = none) (viewer : Nat) :
    AttachesLive (entry step s (.subscribe viewer container)) ∧
      NoneLeaving (entry step s (.subscribe viewer container)) := by
  have hstep : step s (.subscribe viewer container) = (some s.tasks.length,
      ⟨s.tasks ++ [{ container, receivers := [viewer] }], s.registry.insert container s.tasks.length⟩) := by
    rw [step, subscribeContainer_of_none hnone]
  refine ⟨?_, ?_⟩
  · intro v c channel _ houtput
    rw [entry, hstep] at houtput ⊢
    obtain rfl := Option.some.inj houtput
    exact ⟨_, List.getElem?_concat_length, by simp, by simp⟩
  · intro v c hinput t ht hname hleft
    obtain ⟨rfl, rfl⟩ := Event.subscribe.inj hinput
    obtain ⟨task, htask⟩ := List.mem_iff_getElem?.mp ht
    have hruns : s.Runs container task := ⟨t, htask, hname, by simp [hleft]⟩
    cases hnone.symm.trans ((h container task).mpr hruns)

theorem attachesLive_iff_of_some {s : LogStreams} (h : s.Registered) {container : String} {channel : Nat}
    (hlookup : s.registry.lookup container = some channel) (viewer : Nat) :
    AttachesLive (entry step s (.subscribe viewer container)) ↔
      NoneLeaving (entry step s (.subscribe viewer container)) := by
  obtain ⟨t, ht, hname, hruns⟩ := (h container channel).mp hlookup
  have hstep : step s (.subscribe viewer container) =
      (some channel, { s with tasks := s.tasks.modify channel (·.attach viewer) }) := by
    rw [step, subscribeContainer_of_some hlookup]
  have hattached : (s.tasks.modify channel (·.attach viewer))[channel]? = some (t.attach viewer) := by
    rw [List.getElem?_modify_eq, ht]
    rfl
  constructor
  · intro hlive v c hinput u hu huname hleft
    obtain ⟨rfl, rfl⟩ := Event.subscribe.inj hinput
    obtain ⟨t', ht', hstays, -⟩ := hlive viewer container channel rfl (by rw [entry, hstep])
    obtain ⟨task, htask⟩ := List.mem_iff_getElem?.mp hu
    have huruns : s.Runs container task := ⟨u, htask, huname, by simp [hleft]⟩
    obtain rfl := h.eq_of_runs ⟨t, ht, hname, hruns⟩ huruns
    obtain rfl := Option.some.inj (ht.symm.trans htask)
    rw [entry, hstep] at ht'
    obtain rfl := Option.some.inj (ht'.symm.trans hattached)
    exact hstays hleft
  · intro hnone v c other hinput houtput
    rw [entry, hstep] at houtput ⊢
    obtain rfl := Option.some.inj houtput
    exact ⟨t.attach viewer, hattached,
      hnone viewer container rfl t (List.mem_of_getElem? ht) hname, hruns⟩

theorem attachesLive_iff {s : LogStreams} (h : s.Registered) (event : Event) :
    AttachesLive (entry step s event) ↔ NoneLeaving (entry step s event) := by
  cases event with
  | subscribe viewer container =>
    cases hlookup : s.registry.lookup container with
    | some channel => exact attachesLive_iff_of_some h hlookup viewer
    | none =>
      obtain ⟨hlive, hnone⟩ := attachesLive_of_none h hlookup viewer
      exact iff_of_true hlive hnone
  | leave viewer => exact iff_of_true nofun nofun
  | act task action => exact iff_of_true nofun nofun
  | remove task => exact iff_of_true nofun nofun

/-- Every viewer of a run is attached to a live stream exactly if none subscribes while a task of its
container is on its way out. -/
theorem viewers_attach_live_iff (events : List Event) :
    (∀ e ∈ trace step {} events, AttachesLive e) ↔ ∀ e ∈ trace step {} events, NoneLeaving e := by
  have hentry : ∀ e ∈ trace step {} events, (AttachesLive e ↔ NoneLeaving e) :=
    forall_mem_trace (fun s _ => s.Registered) (fun _ event _ h => registered_step h event)
      (fun _ event _ h => attachesLive_iff h event) registered_nil
  exact forall₂_congr hentry

/-- The last viewer leaves, the task finds nobody to send to, and a viewer comes before it is gone. -/
def leavingTask : List Event :=
  [.subscribe 0 "c", .act 0 (.connect none), .leave 0, .act 0 (.frame ["line"]), .act 0 .proceed]

theorem viewer_attached_to_ended_stream :
    ¬ ∀ events, ∀ e ∈ trace step {} events, AttachesLive e := by
  intro h
  have hmem : entry step (final step {} leavingTask) (.subscribe 1 "c") ∈
      trace step {} (leavingTask ++ [.subscribe 1 "c"]) := by
    rw [trace_concat]
    exact List.mem_append_right _ List.mem_cons_self
  obtain ⟨t, ht, hstays, -⟩ := h _ _ hmem 1 "c" 0 rfl (by decide)
  have hleft : (entry step (final step {} leavingTask) (.subscribe 1 "c")).after.tasks[0]? =
      some ⟨"c", .left, [1]⟩ := by decide
  obtain rfl := Option.some.inj (ht.symm.trans hleft)
  exact hstays rfl

end SparkDashboard.Logs
