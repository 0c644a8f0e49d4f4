import SparkDashboard.Library.KeyedMap
import SparkDashboard.Library.Stepping

/-!
# Container log streams

One registry entry a container, under one lock; one task an entry, which owns the
container's Docker stream and publishes its lines on a channel. Viewers, tasks and the
registry take their steps in any order.
-/

namespace SparkDashboard.Logs

open Stepping

/-- How far a stream task has come. -/
inductive Phase where
  | starting
  | reading
  /-- Lines of the current frame that are still to be sent. -/
  | sending (lines : List String)
  /-- Last lines, sent whether anyone listens or not. -/
  | closing (lines : List String)
  /-- `stream_container_logs` has returned. -/
  | left
  | deregistered
  deriving DecidableEq, Repr

/-- A stream task, and the receivers of the channel it owns. -/
structure StreamTask where
  container : String
  phase : Phase := .starting
  receivers : List Nat
  deriving DecidableEq, Repr

/-- Tasks in the order they were spawned; a channel goes by its task's position. -/
structure LogStreams where
  tasks : List StreamTask := []
  registry : KeyedMap String Nat := ∅

/-- What Docker answers a task, and the task's own progress. A frame comes as the lines
it completes, an end with the trailing partial lines. -/
inductive TaskAction where
  | connect (error : Option String)
  | frame (lines : List String)
  | streamError (error : String)
  | streamEnd (trailing : List String)
  | proceed

inductive Event where
  | subscribe (viewer : Nat) (container : String)
  | leave (viewer : Nat)
  | act (task : Nat) (action : TaskAction)
  | remove (task : Nat)

def resume : List String → Phase
  | [] => .reading
  | line :: rest => .sending (line :: rest)

/-- An action that the phase does not allow changes nothing. -/
def nextPhase (watched : Bool) : Phase → TaskAction → Phase
  | .starting, .connect none => .reading
  | .starting, .connect (some error) => .closing ["ERR:Could not connect to Docker daemon: " ++ error]
  | .reading, .frame lines => resume lines
  | .reading, .streamError error => .closing ["ERR:Log stream error: " ++ error]
  | .reading, .streamEnd trailing => .closing (trailing ++ ["LOG:Stream ended - container stopped"])
  -- `send` fails only for want of receivers: the last viewer has left.
  | .sending (_ :: rest), .proceed => if watched then resume rest else .left
  | .closing (_ :: rest), .proceed => .closing rest
  | .closing [], .proceed => .left
  | phase, _ => phase

namespace StreamTask

def act (t : StreamTask) (action : TaskAction) : StreamTask :=
  { t with phase := nextPhase (!t.receivers.isEmpty) t.phase action }

def attach (t : StreamTask) (viewer : Nat) : StreamTask := { t with receivers := t.receivers ++ [viewer] }

def detach (t : StreamTask) (viewer : Nat) : StreamTask := { t with receivers := t.receivers.filter (· ≠ viewer) }

end StreamTask

namespace LogStreams

/-- The channel the viewer is attached to: the registered one, or that of a new task. -/
def subscribeContainer (s : LogStreams) (viewer : Nat) (container : String) : Nat × LogStreams :=
  match s.registry.lookup container with
  | some channel => (channel, { s with tasks := s.tasks.modify channel (·.attach viewer) })
  | none => (s.tasks.length,
    { tasks := s.tasks ++ [{ container, receivers := [viewer] }]
      registry := s.registry.insert container s.tasks.length })

def removeStream (s : LogStreams) (container : String) : LogStreams :=
  { s with registry := s.registry.erase container }

/-- The end of `log_stream_task`. -/
def remove (s : LogStreams) (task : Nat) : LogStreams :=
  match s.tasks[task]? with
  | some t =>
    if t.phase = .left then
      { s.removeStream t.container with tasks := s.tasks.modify task fun t => { t with phase := .deregistered } }
    else s
  | none => s

def step (s : LogStreams) : Event → Option Nat × LogStreams
  | .subscribe viewer container =>
    let attached := s.subscribeContainer viewer container
    (some attached.1, attached.2)
  | .leave viewer => (none, { s with tasks := s.tasks.map (·.detach viewer) })
  | .act task action => (none, { s with tasks := s.tasks.modify task (·.act action) })
  | .remove task => (none, s.remove task)

/-- The task has been spawned for the container and has not removed its entry yet. -/
def Runs (s : LogStreams) (container : String) (task : Nat) : Prop :=
  ∃ t, s.tasks[task]? = some t ∧ t.container = container ∧ t.phase ≠ .deregistered

/-- The registry knows the running tasks, each under its container. -/
def Registered (s : LogStreams) : Prop :=
  ∀ container task, s.registry.lookup container = some task ↔ s.Runs container task

theorem registered_nil : Registered {} := by
  intro container task
  refine iff_of_false (fun h => by cases h) ?_
  rintro ⟨t, ht, -⟩
  cases ht

theorem resume_ne_deregistered (lines : List String) : resume lines ≠ .deregistered := by
  cases lines <;> exact nofun

theorem nextPhase_deregistered_iff (watched : Bool) (phase : Phase) (action : TaskAction) :
    nextPhase watched phase action = .deregistered ↔ phase = .deregistered := by
  rw [nextPhase.eq_def]
  split
  case h_6 rest =>
    refine iff_of_false ?_ nofun
    cases watched
    · exact nofun
    · exact resume_ne_deregistered rest
  case h_3 lines => exact iff_of_false (resume_ne_deregistered lines) nofun
  case h_9 => rfl
  all_goals exact iff_of_false nofun nofun

theorem runs_modify_iff {s : LogStreams} (f : StreamTask → StreamTask) (channel : Nat)
    (hcontainer : ∀ t, (f t).container = t.container)
    (hphase : ∀ t, (f t).phase = .deregistered ↔ t.phase = .deregistered) (container : String) (task : Nat) :
    Runs { s with tasks := s.tasks.modify channel f } container task ↔ s.Runs container task := by
  rw [Runs, Runs, List.getElem?_modify]
  constructor
  · rintro ⟨t, ht, hname, hruns⟩
    obtain ⟨u, hu, rfl⟩ := Option.map_eq_some_iff.mp ht
    refine ⟨u, hu, ?_⟩
    split at hname
    · rw [if_pos ‹_›, ne_eq, hphase] at hruns
      exact ⟨(hcontainer u).symm.trans hname, hruns⟩
    · rw [if_neg ‹_›] at hruns
      exact ⟨hname, hruns⟩
  · rintro ⟨u, hu, hname, hruns⟩
    refine ⟨_, Option.map_eq_some_iff.mpr ⟨u, hu, rfl⟩, ?_⟩
    split
    · exact ⟨(hcontainer u).trans hname, fun h => hruns ((hphase u).mp h)⟩
    · exact ⟨hname, hruns⟩

theorem runs_map_detach_iff {s : LogStreams} (viewer : Nat) (container : String) (task : Nat) :
    Runs { s with tasks := s.tasks.map (·.detach viewer) } container task ↔ s.Runs container task := by
  rw [Runs, Runs, List.getElem?_map]
  constructor
  · rintro ⟨t, ht, hname, hruns⟩
    obtain ⟨u, hu, rfl⟩ := Option.map_eq_some_iff.mp ht
    exact ⟨u, hu, hname, hruns⟩
  · rintro ⟨u, hu, hname, hruns⟩
    exact ⟨_, Option.map_eq_some_iff.mpr ⟨u, hu, rfl⟩, hname, hruns⟩

theorem runs_append_iff {s : LogStreams} {new : StreamTask} (hruns : new.phase ≠ .deregistered)
    (registry : KeyedMap String Nat) (container : String) (task : Nat) :
    Runs ⟨s.tasks ++ [new], registry⟩ container task ↔
      s.Runs container task ∨ (new.container = container ∧ task = s.tasks.length) := by
  rw [Runs, Runs]
  rcases Nat.lt_trichotomy task s.tasks.length with hlt | rfl | hgt
  · rw [List.getElem?_append_left hlt]
    simp [Nat.ne_of_lt hlt]
  · simp [hruns]
  · rw [List.getElem?_eq_none (by simp; omega), List.getElem?_eq_none (Nat.le_of_lt hgt)]
    simp [Nat.ne_of_gt hgt]

theorem Registered.eq_of_runs {s : LogStreams} (h : s.Registered) {container : String} {task other : Nat}
    (htask : s.Runs container task) (hother : s.Runs container other) : task = other :=
  Option.some.inj (((h container task).mpr htask).symm.trans ((h container other).mpr hother))

theorem registered_spawn {s : LogStreams} (h : s.Registered) {container : String}
    (hnone : s.registry.lookup container = none) (receivers : List Nat) :
    Registered ⟨s.tasks ++ [{ container, receivers := receivers }], s.registry.insert container s.tasks.length⟩ := by
  intro name task
  have hstarts : StreamTask.phase { container := container, receivers := receivers } ≠ .deregistered := nofun
  rw [runs_append_iff hstarts, ← h name task]
  by_cases hname : name = container
  · rw [hname, AList.lookup_insert, hnone]
    simp [eq_comm]
  · rw [AList.lookup_insert_ne hname]
    simp [Ne.symm hname]

theorem remove_of_left {s : LogStreams} {task : Nat} {t : StreamTask} (ht : s.tasks[task]? = some t)
    (hleft : t.phase = .left) : s.remove task =
      { s.removeStream t.container with
        tasks := s.tasks.modify task fun t => { t with phase := .deregistered } } := by
  rw [remove, ht]
  exact if_pos hleft

theorem remove_of_not_left {s : LogStreams} {task : Nat} (hstays : ∀ t, s.tasks[task]? = some t → t.phase ≠ .left) :
    s.remove task = s := by
  rw [remove]
  cases ht : s.tasks[task]? with
  | none => rfl
  | some t => exact if_neg (hstays t ht)

theorem runs_deregister_iff {s : LogStreams} (registry : KeyedMap String Nat) (task : Nat) (container : String)
    (other : Nat) :
    Runs ⟨s.tasks.modify task fun t => { t with phase := .deregistered }, registry⟩ container other ↔
      s.Runs container other ∧ other ≠ task := by
  rw [Runs, Runs, List.getElem?_modify]
  by_cases hsame : task = other
  · refine iff_of_false ?_ fun hne => hne.2 hsame.symm
    rintro ⟨t, ht, -, hruns⟩
    obtain ⟨u, -, rfl⟩ := Option.map_eq_some_iff.mp ht
    rw [if_pos hsame] at hruns
    exact hruns rfl
  · simp [hsame, Ne.symm hsame]

theorem registered_remove {s : LogStreams} (h : s.Registered) (task : Nat) : (s.remove task).Registered := by
  by_cases hleft : ∃ t, s.tasks[task]? = some t ∧ t.phase = .left
  · obtain ⟨t, ht, hleft⟩ := hleft
    have hruns : s.Runs t.container task := ⟨t, ht, rfl, by rw [hleft]; exact nofun⟩
    rw [remove_of_left ht hleft]
    intro container other
    rw [removeStream, runs_deregister_iff, ← h container other]
    by_cases hname : container = t.container
    · rw [hname, AList.lookup_erase, (h t.container task).mpr hruns]
      simp [eq_comm]
    · rw [AList.lookup_erase_ne hname]
      refine (and_iff_left_of_imp ?_).symm
      rintro hlookup rfl
      obtain ⟨u, hu, hcontainer, -⟩ := (h container other).mp hlookup
      obtain rfl := Option.some.inj (hu.symm.trans ht)
      exact hname hcontainer.symm
  · rw [remove_of_not_left fun t ht hphase => hleft ⟨t, ht, hphase⟩]
    exact h

theorem subscribeContainer_of_some {s : LogStreams} {container : String} {channel : Nat}
    (h : s.registry.lookup container = some channel) (viewer : Nat) :
    s.subscribeContainer viewer container =
      (channel, { s with tasks := s.tasks.modify channel (·.attach viewer) }) := by
  rw [subscribeContainer, h]

theorem subscribeContainer_of_none {s : LogStreams} {container : String}
    (h : s.registry.lookup container = none) (viewer : Nat) :
    s.subscribeContainer viewer container = (s.tasks.length,
      ⟨s.tasks ++ [{ container, receivers := [viewer] }], s.registry.insert container s.tasks.length⟩) := by
  rw [subscribeContainer, h]

theorem registered_step {s : LogStreams} (h : s.Registered) (e : Event) : (s.step e).2.Registered := by
  cases e with
  | subscribe viewer container =>
    rw [step]
    cases hlookup : s.registry.lookup container with
    | some channel =>
      rw [subscribeContainer_of_some hlookup]
      intro name task
      exact (h name task).trans
        (runs_modify_iff (·.attach viewer) channel (fun _ => rfl) (fun _ => Iff.rfl) name task).symm
    | none =>
      rw [subscribeContainer_of_none hlookup]
      exact registered_spawn h hlookup [viewer]
  | leave viewer =>
    intro name task
    exact (h name task).trans (runs_map_detach_iff viewer name task).symm
  | act channel action =>
    intro name task
    refine (h name task).trans (runs_modify_iff (·.act action) channel (fun _ => rfl) ?_ name task).symm
    exact fun t => nextPhase_deregistered_iff _ t.phase action
  | remove task => exact registered_remove h task

theorem registered_final (events : List Event) : (final step {} events).Registered :=
  final_invariant Registered (fun _ e h => registered_step h e) registered_nil events

theorem subscribe_output (s : LogStreams) (viewer : Nat) (container : String) :
    (s.step (.subscribe viewer container)).1 =
      (s.step (.subscribe viewer container)).2.registry.lookup container := by
  rw [step]
  cases hlookup : s.registry.lookup container with
  | some channel =>
    rw [subscribeContainer_of_some hlookup]
    exact hlookup.symm
  | none =>
    rw [subscribeContainer_of_none hlookup]
    exact (AList.lookup_insert s.registry).symm

theorem lookup_step {s : LogStreams} {container : String} {channel : Nat}
    (h : s.registry.lookup container = some channel) (e : Event)
    (hstands : ((s.step e).2.registry.lookup container).isSome = true) :
    (s.step e).2.registry.lookup container = some channel := by
  cases e with
  | subscribe viewer name =>
    rw [step]
    cases hlookup : s.registry.lookup name with
    | some other =>
      rw [subscribeContainer_of_some hlookup]
      exact h
    | none =>
      rw [subscribeContainer_of_none hlookup]
      have hname : container ≠ name := by
        rintro rfl
        cases h.symm.trans hlookup
      exact (AList.lookup_insert_ne hname).trans h
  | leave viewer => exact h
  | act task action => exact h
  | remove task =>
    rw [step] at hstands ⊢
    by_cases hleft : ∃ t, s.tasks[task]? = some t ∧ t.phase = .left
    · obtain ⟨t, ht, hleft⟩ := hleft
      rw [remove_of_left ht hleft] at hstands ⊢
      by_cases hname : container = t.container
      · rw [hname, removeStream, AList.lookup_erase] at hstands
        cases hstands
      · exact (AList.lookup_erase_ne hname).trans h
    · rw [remove_of_not_left fun t ht hphase => hleft ⟨t, ht, hphase⟩]
      exact h

abbrev StreamEntry := Entry LogStreams Event (Option Nat)

theorem subscribe_output_of_stands {s : LogStreams} {container : String} {channel viewer : Nat}
    (h : s.registry.lookup container = some channel) {events : List Event} {between later : List StreamEntry}
    {e : StreamEntry} (hrun : trace step s events = between ++ e :: later)
    (hstands : ∀ d ∈ between, (d.after.registry.lookup container).isSome = true)
    (hinput : e.input = .subscribe viewer container) : e.output = some channel := by
  induction events generalizing s between with
  | nil => exact absurd hrun.symm (List.append_ne_nil_of_right_ne_nil between (List.cons_ne_nil e later))
  | cons event rest ih =>
    cases between with
    | nil =>
      obtain ⟨rfl, -⟩ := List.cons.inj hrun
      change event = .subscribe viewer container at hinput
      rw [hinput, entry, step, subscribeContainer_of_some h]
    | cons first between =>
      obtain ⟨rfl, hrest⟩ := List.cons.inj hrun
      have hkept := lookup_step h event (hstands _ List.mem_cons_self)
      exact ih hkept hrest fun d hd => hstands d (List.mem_cons_of_mem _ hd)

theorem lookup_remove {s : LogStreams} (h : s.Registered) {task : Nat} {t : StreamTask}
    (ht : s.tasks[task]? = some t) (hleft : t.phase = .left) :
    s.registry.lookup t.container = some task ∧ (s.remove task).registry.lookup t.container = none ∧
      ∀ container, container ≠ t.container →
        (s.remove task).registry.lookup container = s.registry.lookup container := by
  rw [remove_of_left ht hleft]
  refine ⟨(h t.container task).mpr ⟨t, ht, rfl, by rw [hleft]; exact nofun⟩, AList.lookup_erase _ _, ?_⟩
  intro container hname
  exact AList.lookup_erase_ne hname

/-- After any run: one running task a container, an entry for it and for nothing else, and a task that
takes its own entry with it; viewers who subscribe while an entry stands share its channel. -/
theorem one_stream_per_container (events : List Event) :
    (∀ container task other, (final step {} events).Runs container task →
      (final step {} events).Runs container other → task = other) ∧
    (∀ container, ((final step {} events).registry.lookup container).isSome = true ↔
      ∃ task, (final step {} events).Runs container task) ∧
    (∀ task t, (final step {} events).tasks[task]? = some t → t.phase = .left →
      (final step {} events).registry.lookup t.container = some task ∧
      ((final step {} events).remove task).registry.lookup t.container = none ∧
      ∀ container, container ≠ t.container →
        ((final step {} events).remove task).registry.lookup container =
          (final step {} events).registry.lookup container) ∧
    ∀ earlier e between e' later container viewer viewer',
      trace step {} events = earlier ++ e :: between ++ e' :: later →
      e.input = .subscribe viewer container → e'.input = .subscribe viewer' container →
      (∀ d ∈ between, (d.after.registry.lookup container).isSome = true) → e'.output = e.output := by
  have h := registered_final events
  refine ⟨fun container task other => h.eq_of_runs, ?_, fun task t ht hleft => lookup_remove h ht hleft, ?_⟩
  · intro container
    rw [Option.isSome_iff_exists]
    exact exists_congr fun task => h container task
  · intro earlier e between e' later container viewer viewer' hrun hinput hinput' hstands
    rw [List.append_assoc, List.cons_append] at hrun
    obtain ⟨first, event, rest, -, -, rfl, hlater⟩ := exists_split_of_trace_eq hrun
    change event = .subscribe viewer container at hinput
    have houtput := subscribe_output (final step {} first) viewer container
    rw [← hinput] at houtput
    obtain ⟨channel, hchannel⟩ : ∃ channel, ((final step {} first).step event).1 = some channel := by
      rw [hinput]
      exact ⟨_, rfl⟩
    rw [hchannel] at houtput
    rw [subscribe_output_of_stands houtput.symm hlater.symm hstands hinput']
    exact hchannel.symm

end LogStreams

end SparkDashboard.Logs
