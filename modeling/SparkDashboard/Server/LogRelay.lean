import SparkDashboard.Engines.EngineState
import SparkDashboard.Library.Broadcast
import SparkDashboard.Server.LogStreams

/-!
# What a log viewer is sent

A viewer names an engine, is attached to the stream of its container, and gets a marker and
then the lines of that stream until its socket fails, it hangs up, or the stream's channel is
closed and empty. Viewers, stream tasks and the registry take their steps in any order.
-/

namespace SparkDashboard.Logs

open Stepping Broadcast Engines

variable {capacity : ℕ} {B : Interface String capacity}

def findContainer (snapshots : List EngineSnapshot) (engine : Option String) : Option String :=
  match engine with
  | some endpoint => (snapshots.find? (·.endpoint = endpoint)).bind (·.containerId)
  | none => snapshots.findSome? (·.containerId)

/-- The shared state is read up to a hundred times, until a container is found. -/
def resolveContainerId (reads : List (List EngineSnapshot)) (engine : Option String) : Option String :=
  (reads.take 100).findSome? fun snapshots => findContainer snapshots engine

def noContainer : Option String → String
  | some engine => "ERR:No container found for engine " ++ engine
  | none => "ERR:No engine container found"

def streamAttached : String := "LOG:stream attached"

/-- A receiver on the channel of a task. -/
structure Position where
  channel : ℕ
  next : ℕ
  deriving DecidableEq, Repr

structure LogRelay (B : Interface String capacity) where
  streams : LogStreams := {}
  /-- The channel of each task. -/
  channels : List B.Chan := []
  /-- In the order they connected, each for as long as its loop runs. -/
  viewers : List (Option Position) := []

inductive RelayEvent where
  | connect (engine : Option String) (reads : List (List EngineSnapshot)) (accepted : Bool)
  | act (task : ℕ) (action : TaskAction)
  | remove (task : ℕ)
  /-- The viewer's loop looks at its receiver; the socket takes a line or has failed. -/
  | receive (viewer : ℕ) (accepted : Bool)
  /-- A close frame, or an error in reading the socket. -/
  | hangUp (viewer : ℕ)

inductive ViewerOutcome where
  | refused (error : String)
  | attached
  | relayed (outcome : Outcome String)
  /-- The channel is closed and has nothing more. -/
  | closed

def ViewerOutcome.text? : ViewerOutcome → Option String
  | .refused error => some error
  | .attached => some streamAttached
  | .relayed outcome => outcome.delivered?
  | .closed => none

def ViewerOutcome.relayed? : ViewerOutcome → Option (Outcome String)
  | .relayed outcome => some outcome
  | _ => none

namespace StreamTask

/-- The line a task has at hand. -/
def line? (t : StreamTask) : TaskAction → Option String
  | .proceed =>
    match t.phase with
    | .sending (line :: _) => some line
    | .closing (line :: _) => some line
    | _ => none
  | _ => none

/-- The line that goes out on the channel: without receivers `send` keeps nothing. -/
def sends (t : StreamTask) (action : TaskAction) : Option String :=
  if t.receivers.isEmpty then none else t.line? action

end StreamTask

namespace LogRelay

def new (B : Interface String capacity) : LogRelay B := {}

def leave (s : LogRelay B) (viewer : ℕ) : LogRelay B :=
  { s with streams := (s.streams.step (.leave viewer)).2, viewers := s.viewers.set viewer none }

/-- `subscribe_container`, with the receiver the viewer comes away with. -/
def subscribe (s : LogRelay B) (viewer : ℕ) (container : String) : Position × LogRelay B :=
  let attached := s.streams.subscribeContainer viewer container
  let channels := if attached.1 < s.channels.length then s.channels else s.channels ++ [B.new]
  (⟨attached.1, (channels[attached.1]?.map B.subscribe).getD 0⟩, { s with streams := attached.2, channels })

/-- The channel is closed once the registry and the task have both dropped their senders. -/
def isClosed (s : LogRelay B) (channel : ℕ) : Bool :=
  match s.streams.tasks[channel]? with
  | some t => decide (t.phase = .deregistered)
  | none => false

def connect (s : LogRelay B) (engine : Option String) (reads : List (List EngineSnapshot)) (accepted : Bool) :
    List ViewerOutcome × LogRelay B :=
  match resolveContainerId reads engine with
  | none => (if accepted then [.refused (noContainer engine)] else [], { s with viewers := s.viewers ++ [none] })
  | some container =>
    let subscribed := s.subscribe s.viewers.length container
    let joined := { subscribed.2 with viewers := s.viewers ++ [some subscribed.1] }
    if accepted then ([.attached], joined) else ([], joined.leave s.viewers.length)

def receive (s : LogRelay B) (viewer : ℕ) (accepted : Bool) : List ViewerOutcome × LogRelay B :=
  match s.viewers[viewer]? with
  | some (some position) =>
    match s.channels[position.channel]? with
    | some channel =>
      if B.recv channel position.next = none ∧ s.isClosed position.channel then ([.closed], s.leave viewer)
      else
        let round := relayRound B channel position.next accepted
        (round.1.map .relayed, match round.2 with
          | some next => { s with viewers := s.viewers.set viewer (some { position with next }) }
          | none => s.leave viewer)
    | none => ([], s)
  | _ => ([], s)

def sentBy (s : LogRelay B) (task : ℕ) (action : TaskAction) : Option String :=
  s.streams.tasks[task]?.bind (·.sends action)

def act (s : LogRelay B) (task : ℕ) (action : TaskAction) : LogRelay B :=
  { s with
    streams := (s.streams.step (.act task action)).2
    channels := match s.sentBy task action with
      | some line => s.channels.modify task fun channel => B.send channel line
      | none => s.channels }

def step (s : LogRelay B) : RelayEvent → List (ℕ × ViewerOutcome) × LogRelay B
  | .connect engine reads accepted =>
    let connected := s.connect engine reads accepted
    (connected.1.map (s.viewers.length, ·), connected.2)
  | .act task action => ([], s.act task action)
  | .remove task => ([], { s with streams := (s.streams.step (.remove task)).2 })
  | .receive viewer accepted =>
    let received := s.receive viewer accepted
    (received.1.map (viewer, ·), received.2)
  | .hangUp viewer => ([], s.leave viewer)

/-- What no event takes from a task: its container, its end, and its receivers but for a viewer who leaves. -/
structure Kept (e : Event) (t t' : StreamTask) : Prop where
  container_eq : t'.container = t.container
  deregistered : t.phase = .deregistered → t'.phase = .deregistered
  receives : ∀ viewer ∈ t.receivers, e ≠ .leave viewer → viewer ∈ t'.receivers

theorem Kept.refl (e : Event) (t : StreamTask) : Kept e t t := ⟨rfl, id, fun _ hviewer _ => hviewer⟩

theorem kept_modify {s : LogStreams} {channel : ℕ} {t : StreamTask} (ht : s.tasks[channel]? = some t) {e : Event}
    {f : StreamTask → StreamTask} (hf : ∀ t, Kept e t (f t)) (other : ℕ) :
    ∃ t', (s.tasks.modify other f)[channel]? = some t' ∧ Kept e t t' := by
  rw [List.getElem?_modify, ht]
  by_cases hsame : other = channel
  · exact ⟨f t, congrArg some (if_pos hsame), hf t⟩
  · exact ⟨t, congrArg some (if_neg hsame), .refl e t⟩

theorem task_step {s : LogStreams} {channel : ℕ} {t : StreamTask} (ht : s.tasks[channel]? = some t) (e : Event) :
    ∃ t', (s.step e).2.tasks[channel]? = some t' ∧ Kept e t t' := by
  cases e with
  | subscribe viewer container =>
    rw [LogStreams.step]
    cases hlookup : s.registry.lookup container with
    | some other =>
      rw [LogStreams.subscribeContainer_of_some hlookup]
      exact kept_modify ht (f := (·.attach viewer))
        (fun t => ⟨rfl, id, fun _ hviewer _ => List.mem_append_left _ hviewer⟩) other
    | none =>
      rw [LogStreams.subscribeContainer_of_none hlookup]
      have hlt : channel < s.tasks.length := (List.getElem?_eq_some_iff.mp ht).1
      exact ⟨t, (List.getElem?_append_left hlt).trans ht, .refl _ t⟩
  | leave viewer =>
    refine ⟨t.detach viewer, ?_, rfl, id, ?_⟩
    · rw [LogStreams.step, List.getElem?_map, ht]
      rfl
    · intro other hother hne
      refine List.mem_filter.mpr ⟨hother, decide_eq_true ?_⟩
      rintro rfl
      exact hne rfl
  | act task action =>
    refine kept_modify ht (f := (·.act action)) (fun t => ⟨rfl, ?_, fun _ hviewer _ => hviewer⟩) task
    exact (LogStreams.nextPhase_deregistered_iff _ t.phase action).mpr
  | remove task =>
    rw [LogStreams.step]
    by_cases hleft : ∃ u, s.tasks[task]? = some u ∧ u.phase = .left
    · obtain ⟨u, hu, hphase⟩ := hleft
      rw [LogStreams.remove_of_left hu hphase]
      exact kept_modify ht (f := fun t => { t with phase := .deregistered })
        (fun t => ⟨rfl, fun _ => rfl, fun _ hviewer _ => hviewer⟩) task
    · rw [LogStreams.remove_of_not_left fun u hu hphase => hleft ⟨u, hu, hphase⟩]
      exact ⟨t, ht, .refl _ t⟩

theorem length_tasks_step_of_not_subscribe (s : LogStreams) {e : Event}
    (h : ∀ viewer container, e ≠ .subscribe viewer container) :
    (s.step e).2.tasks.length = s.tasks.length := by
  cases e with
  | subscribe viewer container => exact absurd rfl (h viewer container)
  | leave viewer => exact List.length_map _
  | act task action => exact List.length_modify _ _ _
  | remove task =>
    rw [LogStreams.step]
    by_cases hleft : ∃ u, s.tasks[task]? = some u ∧ u.phase = .left
    · obtain ⟨u, hu, hphase⟩ := hleft
      rw [LogStreams.remove_of_left hu hphase]
      exact List.length_modify _ _ _
    · rw [LogStreams.remove_of_not_left fun u hu hphase => hleft ⟨u, hu, hphase⟩]

/-- Every task has its channel, and every viewer whose loop runs is a receiver of its task. -/
structure Sound (s : LogRelay B) : Prop where
  registered : s.streams.Registered
  length_channels : s.channels.length = s.streams.tasks.length
  holds : ∀ channel ∈ s.channels, ∃ history, B.Holds channel history
  receives : ∀ (viewer : ℕ) (position : Position), s.viewers[viewer]? = some (some position) →
    ∃ t, s.streams.tasks[position.channel]? = some t ∧ viewer ∈ t.receivers

theorem sound_new : Sound (new B) :=
  ⟨LogStreams.registered_nil, rfl, nofun, fun _ _ h => nomatch h⟩

theorem Sound.leave {s : LogRelay B} (h : Sound s) (viewer : ℕ) : Sound (s.leave viewer) := by
  refine ⟨LogStreams.registered_step h.registered _, ?_, h.holds, ?_⟩
  · exact h.length_channels.trans (length_tasks_step_of_not_subscribe s.streams (e := .leave viewer) nofun).symm
  · intro other position hposition
    have hne : viewer ≠ other := by
      rintro rfl
      rw [LogRelay.leave, List.getElem?_set_self'] at hposition
      cases hslot : s.viewers[viewer]? <;> rw [hslot] at hposition <;> cases hposition
    rw [LogRelay.leave, List.getElem?_set_ne hne] at hposition
    obtain ⟨t, ht, hreceives⟩ := h.receives other position hposition
    obtain ⟨t', ht', hkept⟩ := task_step ht (.leave viewer)
    exact ⟨t', ht', hkept.receives other hreceives fun heq => hne (Event.leave.inj heq)⟩

/-- A viewer comes away with a receiver at the end of the channel of a task of that container. -/
structure Subscribed (s : LogRelay B) (viewer : ℕ) (container : String) (position : Position) (s' : LogRelay B) :
    Prop where
  streams_eq : s'.streams = (s.streams.step (.subscribe viewer container)).2
  viewers_eq : s'.viewers = s.viewers
  length_channels : s'.channels.length = s'.streams.tasks.length
  holds : ∀ channel ∈ s'.channels, ∃ history, B.Holds channel history
  channel_eq : ∃ channel, s'.channels[position.channel]? = some channel ∧ position.next = B.subscribe channel
  task_eq : ∃ t, s'.streams.tasks[position.channel]? = some t ∧ t.container = container ∧ viewer ∈ t.receivers

theorem Sound.subscribe {s : LogRelay B} (h : Sound s) (viewer : ℕ) (container : String) :
    Subscribed s viewer container (s.subscribe viewer container).1 (s.subscribe viewer container).2 := by
  rw [LogRelay.subscribe]
  cases hlookup : s.streams.registry.lookup container with
  | some other =>
    obtain ⟨t, ht, hcontainer, -⟩ := (h.registered container other).mp hlookup
    have hlt : other < s.channels.length := h.length_channels ▸ (List.getElem?_eq_some_iff.mp ht).1
    rw [LogStreams.subscribeContainer_of_some hlookup]
    dsimp only
    rw [if_pos hlt]
    refine ⟨?_, rfl, ?_, h.holds, ⟨s.channels[other], List.getElem?_eq_getElem hlt, ?_⟩, ⟨t.attach viewer, ?_, hcontainer, ?_⟩⟩
    · exact (congrArg Prod.snd (LogStreams.subscribeContainer_of_some hlookup viewer)).symm
    · exact h.length_channels.trans (List.length_modify _ _ _).symm
    · rw [List.getElem?_eq_getElem hlt]
      rfl
    · rw [List.getElem?_modify_eq, ht]
      rfl
    · exact List.mem_append_right _ (List.mem_singleton_self viewer)
  | none =>
    have hnot : ¬s.streams.tasks.length < s.channels.length := by
      rw [h.length_channels]
      exact lt_irrefl _
    have hnew : (s.channels ++ [B.new])[s.streams.tasks.length]? = some B.new := by
      rw [← h.length_channels]
      exact List.getElem?_concat_length
    rw [LogStreams.subscribeContainer_of_none hlookup]
    dsimp only
    rw [if_neg hnot, hnew]
    refine ⟨?_, rfl, ?_, ?_, ⟨B.new, hnew, rfl⟩,
      ⟨{ container, receivers := [viewer] }, List.getElem?_concat_length, rfl, List.mem_singleton_self viewer⟩⟩
    · exact (congrArg Prod.snd (LogStreams.subscribeContainer_of_none hlookup viewer)).symm
    · rw [List.length_append, List.length_append, h.length_channels]
      rfl
    · intro channel hchannel
      rcases List.mem_append.mp hchannel with hold | hnew
      · exact h.holds channel hold
      · rw [List.mem_singleton.mp hnew]
        exact ⟨[], B.holds_new⟩

theorem Sound.joined {s s' : LogRelay B} (h : Sound s) {container : String} {position : Position}
    (hsub : Subscribed s s.viewers.length container position s') :
    Sound { s' with viewers := s.viewers ++ [some position] } := by
  refine ⟨?_, hsub.length_channels, hsub.holds, ?_⟩
  · rw [hsub.streams_eq]
    exact LogStreams.registered_step h.registered _
  · intro viewer other hother
    dsimp only at hother ⊢
    by_cases hlt : viewer < s.viewers.length
    · rw [List.getElem?_append_left hlt] at hother
      obtain ⟨t, ht, hreceives⟩ := h.receives viewer other hother
      obtain ⟨t', ht', hkept⟩ := task_step ht (.subscribe s.viewers.length container)
      rw [hsub.streams_eq]
      exact ⟨t', ht', hkept.receives viewer hreceives nofun⟩
    · obtain ⟨hlength, -⟩ := List.getElem?_eq_some_iff.mp hother
      rw [List.length_append, List.length_singleton] at hlength
      obtain rfl : viewer = s.viewers.length := by omega
      rw [List.getElem?_concat_length] at hother
      obtain rfl := Option.some.inj (Option.some.inj hother)
      obtain ⟨t, ht, -, hreceives⟩ := hsub.task_eq
      exact ⟨t, ht, hreceives⟩

theorem Sound.connect {s : LogRelay B} (h : Sound s) (engine : Option String) (reads : List (List EngineSnapshot))
    (accepted : Bool) : Sound (s.connect engine reads accepted).2 := by
  rw [LogRelay.connect]
  cases resolveContainerId reads engine with
  | none =>
    refine ⟨h.registered, h.length_channels, h.holds, ?_⟩
    intro viewer position hposition
    dsimp only at hposition
    by_cases hlt : viewer < s.viewers.length
    · rw [List.getElem?_append_left hlt] at hposition
      exact h.receives viewer position hposition
    · rw [List.getElem?_append_right (not_lt.mp hlt)] at hposition
      have hmem := List.mem_of_getElem? hposition
      cases List.mem_singleton.mp hmem
  | some container =>
    have hjoined := h.joined (h.subscribe s.viewers.length container)
    cases accepted with
    | true => exact hjoined
    | false => exact hjoined.leave s.viewers.length

theorem Sound.act {s : LogRelay B} (h : Sound s) (task : ℕ) (action : TaskAction) : Sound (s.act task action) := by
  have hlength := h.length_channels.trans
    (length_tasks_step_of_not_subscribe s.streams (e := .act task action) nofun).symm
  refine ⟨LogStreams.registered_step h.registered _, ?_, ?_, ?_⟩
  · rw [LogRelay.act]
    cases s.sentBy task action with
    | none => exact hlength
    | some line => exact (List.length_modify _ _ _).trans hlength
  · intro channel hchannel
    rw [LogRelay.act] at hchannel
    cases hsent : s.sentBy task action with
    | none =>
      rw [hsent] at hchannel
      exact h.holds channel hchannel
    | some line =>
      rw [hsent] at hchannel
      obtain ⟨i, hi⟩ := List.mem_iff_getElem?.mp hchannel
      rw [List.getElem?_modify] at hi
      obtain ⟨before, hbefore, rfl⟩ := Option.map_eq_some_iff.mp hi
      obtain ⟨history, hholds⟩ := h.holds before (List.mem_of_getElem? hbefore)
      by_cases hsame : task = i
      · rw [if_pos hsame]
        exact ⟨_, B.holds_send hholds line⟩
      · rw [if_neg hsame]
        exact ⟨history, hholds⟩
  · intro viewer position hposition
    obtain ⟨t, ht, hreceives⟩ := h.receives viewer position hposition
    obtain ⟨t', ht', hkept⟩ := task_step ht (.act task action)
    exact ⟨t', ht', hkept.receives viewer hreceives nofun⟩

theorem Sound.receive {s : LogRelay B} (h : Sound s) (viewer : ℕ) (accepted : Bool) :
    Sound (s.receive viewer accepted).2 := by
  rw [LogRelay.receive]
  split
  · rename_i position hposition
    split
    · split
      · exact h.leave viewer
      · dsimp only
        split
        · refine ⟨h.registered, h.length_channels, h.holds, ?_⟩
          intro other place hplace
          dsimp only at hplace
          by_cases hsame : viewer = other
          · subst hsame
            have hlt := (List.getElem?_eq_some_iff.mp hposition).1
            rw [List.getElem?_set_self hlt] at hplace
            obtain rfl := Option.some.inj (Option.some.inj hplace)
            exact h.receives viewer position hposition
          · rw [List.getElem?_set_ne hsame] at hplace
            exact h.receives other place hplace
        · exact h.leave viewer
    · exact h
  · exact h

theorem Sound.step {s : LogRelay B} (h : Sound s) (e : RelayEvent) : Sound (s.step e).2 := by
  cases e with
  | connect engine reads accepted => exact h.connect engine reads accepted
  | act task action => exact h.act task action
  | remove task =>
    refine ⟨LogStreams.registered_step h.registered _, ?_, h.holds, ?_⟩
    · exact h.length_channels.trans (length_tasks_step_of_not_subscribe s.streams (e := .remove task) nofun).symm
    · intro viewer position hposition
      obtain ⟨t, ht, hreceives⟩ := h.receives viewer position hposition
      obtain ⟨t', ht', hkept⟩ := task_step ht (.remove task)
      exact ⟨t', ht', hkept.receives viewer hreceives nofun⟩
  | receive viewer accepted => exact h.receive viewer accepted
  | hangUp viewer => exact h.leave viewer

/-- The registry and its tasks go through a run of their own. -/
theorem streams_step (s : LogRelay B) (e : RelayEvent) :
    ∃ events, (s.step e).2.streams = final LogStreams.step s.streams events := by
  have hleave : ∀ viewer, ∃ events, (s.leave viewer).streams = final LogStreams.step s.streams events :=
    fun viewer => ⟨[.leave viewer], rfl⟩
  cases e with
  | connect engine reads accepted =>
    rw [LogRelay.step, LogRelay.connect]
    cases resolveContainerId reads engine with
    | none => exact ⟨[], rfl⟩
    | some container =>
      cases accepted with
      | true => exact ⟨[.subscribe s.viewers.length container], rfl⟩
      | false => exact ⟨[.subscribe s.viewers.length container, .leave s.viewers.length], rfl⟩
  | act task action => exact ⟨[.act task action], rfl⟩
  | remove task => exact ⟨[.remove task], rfl⟩
  | receive viewer accepted =>
    rw [LogRelay.step, LogRelay.receive]
    split
    · split
      · split
        · exact hleave viewer
        · dsimp only
          split
          · exact ⟨[], rfl⟩
          · exact hleave viewer
      · exact ⟨[], rfl⟩
    · exact ⟨[], rfl⟩
  | hangUp viewer => exact hleave viewer

theorem streams_final (s : LogRelay B) (events : List RelayEvent) :
    ∃ events', (final step s events).streams = final LogStreams.step s.streams events' := by
  induction events generalizing s with
  | nil => exact ⟨[], rfl⟩
  | cons e rest ih =>
    obtain ⟨first, hfirst⟩ := s.streams_step e
    obtain ⟨later, hlater⟩ := ih (s.step e).2
    refine ⟨first ++ later, ?_⟩
    rw [final_cons, hlater, hfirst, final_append]

theorem task_final {s : LogStreams} {channel : ℕ} {t : StreamTask} (ht : s.tasks[channel]? = some t)
    (events : List Event) :
    ∃ t', (final LogStreams.step s events).tasks[channel]? = some t' ∧ t'.container = t.container ∧
      (t.phase = .deregistered → t'.phase = .deregistered) := by
  induction events generalizing s t with
  | nil => exact ⟨t, ht, rfl, id⟩
  | cons e rest ih =>
    obtain ⟨t', ht', hkept⟩ := task_step ht e
    obtain ⟨last, hlast, hcontainer, hphase⟩ := ih ht'
    exact ⟨last, hlast, hcontainer.trans hkept.container_eq, fun h => hphase (hkept.deregistered h)⟩

theorem isClosed_iff {s : LogRelay B} {channel : ℕ} :
    s.isClosed channel = true ↔ ∃ t, s.streams.tasks[channel]? = some t ∧ t.phase = .deregistered := by
  rw [isClosed]
  cases s.streams.tasks[channel]? with
  | none => simp
  | some t => simp

theorem isClosed_step {s : LogRelay B} {channel : ℕ} (h : s.isClosed channel = true) (e : RelayEvent) :
    (s.step e).2.isClosed channel = true := by
  obtain ⟨t, ht, hphase⟩ := isClosed_iff.mp h
  obtain ⟨events, hevents⟩ := s.streams_step e
  obtain ⟨t', ht', -, hkept⟩ := task_final ht events
  exact isClosed_iff.mpr ⟨t', hevents ▸ ht', hkept hphase⟩

theorem sentBy_of_closed {s : LogRelay B} {channel : ℕ} (h : s.isClosed channel = true) (action : TaskAction) :
    s.sentBy channel action = none := by
  obtain ⟨t, ht, hphase⟩ := isClosed_iff.mp h
  rw [sentBy, ht, Option.bind_some, StreamTask.sends, StreamTask.line?.eq_def, hphase]
  cases action <;> simp

theorem sound_final (events : List RelayEvent) : Sound (final step (new B) events) :=
  final_invariant Sound (fun _ e h => h.step e) sound_new events

abbrev RelayEntry (B : Interface String capacity) := Entry (LogRelay B) RelayEvent (List (ℕ × ViewerOutcome))

/-- The line an entry puts on the channel. -/
def sentOn? (channel : ℕ) (e : RelayEntry B) : Option String :=
  match e.input with
  | .act task action => if task = channel then e.before.sentBy task action else none
  | _ => none

def sentOn (channel : ℕ) (entries : List (RelayEntry B)) : List String := entries.filterMap (sentOn? channel)

def outcomesOf (viewer : ℕ) (entries : List (RelayEntry B)) : List ViewerOutcome :=
  (entries.flatMap Entry.output).filterMap fun o => if o.1 = viewer then some o.2 else none

def relayed (outcomes : List ViewerOutcome) : List (Outcome String) := outcomes.filterMap ViewerOutcome.relayed?

def texts (outcomes : List ViewerOutcome) : List String := outcomes.filterMap ViewerOutcome.text?

theorem outcomesOf_entry_self {e : RelayEntry B} {viewer : ℕ} {outcomes : List ViewerOutcome}
    (h : e.output = outcomes.map (viewer, ·)) : outcomesOf viewer [e] = outcomes := by
  rw [outcomesOf, List.flatMap_singleton, h, List.filterMap_map]
  refine (List.filterMap_congr fun o _ => ?_).trans List.filterMap_some
  exact if_pos rfl

theorem outcomesOf_entry_other {e : RelayEntry B} {viewer other : ℕ} (hother : other ≠ viewer)
    {outcomes : List ViewerOutcome} (h : e.output = outcomes.map (other, ·)) : outcomesOf viewer [e] = [] := by
  rw [outcomesOf, List.flatMap_singleton, h, List.filterMap_map, List.filterMap_eq_nil_iff]
  exact fun o _ => if_neg hother

/-- A viewer and the relay between the channel and its socket, where the values sent since it was
attached are told from those before. -/
structure Viewing (s : LogRelay B) (viewer channel : ℕ) (relay : Relay B) (history values : List String)
    (outcomes : List ViewerOutcome) : Prop where
  known : viewer < s.viewers.length
  channel_eq : s.channels[channel]? = some relay.channel
  position_eq : ∀ position, s.viewers[viewer]? = some (some position) →
    position.channel = channel ∧ relay.next = some position.next
  following : Following relay (history ++ values) history.length (relayed outcomes)
  closed : .closed ∈ outcomes → s.isClosed channel = true ∧ s.viewers[viewer]? = some none ∧
    (delivered (relayed outcomes)).length + skipped (answered (relayed outcomes)) = values.length

section Viewing

variable {s s' : LogRelay B} {viewer channel : ℕ} {relay : Relay B} {history values : List String}
  {outcomes : List ViewerOutcome}

/-- Nothing of the viewer's or of its channel changes, or the viewer goes. -/
theorem Viewing.quiet (h : Viewing s viewer channel relay history values outcomes)
    (hclosed : s.isClosed channel = true → s'.isClosed channel = true)
    (hchannel : s'.channels[channel]? = s.channels[channel]?)
    (hviewer : s'.viewers[viewer]? = s.viewers[viewer]? ∨ s'.viewers[viewer]? = some none) :
    Viewing s' viewer channel relay history values outcomes := by
  have hslot : ∀ slot, s.viewers[viewer]? = some slot → ∃ slot', s'.viewers[viewer]? = some slot' := by
    intro slot hslot
    rcases hviewer with hsame | hgone
    · exact ⟨slot, hsame.trans hslot⟩
    · exact ⟨none, hgone⟩
  obtain ⟨slot', hslot'⟩ := hslot _ (List.getElem?_eq_getElem h.known)
  refine ⟨(List.getElem?_eq_some_iff.mp hslot').1, hchannel.trans h.channel_eq, ?_, h.following, ?_⟩
  · intro position hposition
    rcases hviewer with hsame | hgone
    · exact h.position_eq position (hsame ▸ hposition)
    · cases hgone.symm.trans hposition
  · intro hmem
    obtain ⟨hc, hgone, haccounted⟩ := h.closed hmem
    refine ⟨hclosed hc, ?_, haccounted⟩
    rcases hviewer with hsame | hgone'
    · exact hsame.trans hgone
    · exact hgone'

theorem channels_connect (s : LogRelay B) (engine : Option String) (reads : List (List EngineSnapshot))
    (accepted : Bool) : ∃ more, (s.connect engine reads accepted).2.channels = s.channels ++ more := by
  rw [LogRelay.connect]
  cases resolveContainerId reads engine with
  | none => exact ⟨[], (List.append_nil _).symm⟩
  | some container =>
    have hsubscribed : ∃ more, (s.subscribe s.viewers.length container).2.channels = s.channels ++ more := by
      rw [LogRelay.subscribe]
      dsimp only
      split
      · exact ⟨[], (List.append_nil _).symm⟩
      · exact ⟨[B.new], rfl⟩
    cases accepted <;> exact hsubscribed

theorem viewers_connect (s : LogRelay B) (engine : Option String) (reads : List (List EngineSnapshot))
    (accepted : Bool) : ∃ slot, (s.connect engine reads accepted).2.viewers = s.viewers ++ [slot] := by
  rw [LogRelay.connect]
  cases resolveContainerId reads engine with
  | none => exact ⟨none, rfl⟩
  | some container =>
    cases accepted with
    | true => exact ⟨_, rfl⟩
    | false => exact ⟨none, List.set_append_right s.viewers.length none (le_refl _) |>.trans (by simp)⟩

theorem receive_other (s : LogRelay B) {other : ℕ} (hother : other ≠ viewer) (accepted : Bool) :
    (s.receive other accepted).2.viewers[viewer]? = s.viewers[viewer]? := by
  have hset : ∀ slot, (s.viewers.set other slot)[viewer]? = s.viewers[viewer]? := fun _ =>
    List.getElem?_set_ne hother
  rw [LogRelay.receive]
  split
  · split
    · split
      · exact hset none
      · dsimp only
        split <;> exact hset _
    · rfl
  · rfl

theorem channels_receive (s : LogRelay B) (other : ℕ) (accepted : Bool) :
    (s.receive other accepted).2.channels = s.channels := by
  rw [LogRelay.receive]
  split
  · split
    · split
      · rfl
      · dsimp only
        split <;> rfl
    · rfl
  · rfl

theorem receive_of_gone (h : s.viewers[viewer]? = some none) (accepted : Bool) : s.receive viewer accepted = ([], s) := by
  rw [LogRelay.receive, h]

theorem relayed_append (first later : List ViewerOutcome) : relayed (first ++ later) = relayed first ++ relayed later :=
  List.filterMap_append

theorem relayed_map_relayed (outcomes : List (Outcome String)) : relayed (outcomes.map .relayed) = outcomes := by
  rw [relayed, List.filterMap_map]
  exact (List.filterMap_congr fun _ _ => rfl).trans List.filterMap_some

theorem Viewing.send (h : Viewing s viewer channel relay history values outcomes) {task : ℕ} {action : TaskAction} :
    ∃ relay', Viewing (s.act task action) viewer channel relay' history
      (values ++ (sentOn? channel (entry step s (.act task action))).toList) outcomes := by
  have hclosed : s.isClosed channel = true → (s.act task action).isClosed channel = true := fun hc =>
    isClosed_step hc (.act task action)
  by_cases htask : task = channel
  · subst htask
    have hsent : sentOn? task (entry step s (.act task action)) = s.sentBy task action := if_pos rfl
    rw [hsent]
    cases hline : s.sentBy task action with
    | none =>
      refine ⟨relay, ?_⟩
      rw [Option.toList_none, List.append_nil]
      apply h.quiet hclosed _ (.inl rfl)
      rw [LogRelay.act, hline]
    | some line =>
      have hstep := h.following.step (.send line)
      rw [List.append_assoc, Relay.step, List.append_nil] at hstep
      refine ⟨{ relay with channel := B.send relay.channel line }, h.known, ?_, h.position_eq, hstep, ?_⟩
      · rw [LogRelay.act, hline]
        exact (List.getElem?_modify_eq _ _ _).trans (congrArg (Option.map (B.send · line)) h.channel_eq)
      · intro hmem
        have hnone := sentBy_of_closed (h.closed hmem).1 action
        rw [hline] at hnone
        cases hnone
  · have hsent : sentOn? channel (entry step s (.act task action)) = none := if_neg htask
    rw [hsent]
    refine ⟨relay, ?_⟩
    rw [Option.toList_none, List.append_nil]
    apply h.quiet hclosed _ (.inl rfl)
    rw [LogRelay.act]
    cases s.sentBy task action with
    | none => rfl
    | some line => exact List.getElem?_modify_ne _ _ htask

theorem Viewing.receive (h : Viewing s viewer channel relay history values outcomes) (accepted : Bool) :
    ∃ relay', Viewing (s.receive viewer accepted).2 viewer channel relay' history values
      (outcomes ++ (s.receive viewer accepted).1) := by
  cases hslot : s.viewers[viewer]? with
  | none =>
    have hlt := List.getElem?_eq_none_iff.mp hslot
    exact absurd h.known (not_lt.mpr hlt)
  | some slot =>
    cases slot with
    | none =>
      rw [receive_of_gone hslot, List.append_nil]
      exact ⟨relay, h⟩
    | some position =>
      obtain ⟨rfl, hnext⟩ := h.position_eq position hslot
      have hopen : .closed ∉ outcomes := by
        intro hmem
        cases hslot.symm.trans (h.closed hmem).2.1
      have hgone : (s.viewers.set viewer none)[viewer]? = some none := List.getElem?_set_self h.known
      have hknown : ∀ slot, viewer < (s.viewers.set viewer slot).length := by
        intro slot
        rw [List.length_set]
        exact h.known
      rw [LogRelay.receive, hslot]
      dsimp only
      rw [h.channel_eq]
      dsimp only
      by_cases hends : B.recv relay.channel position.next = none ∧ s.isClosed position.channel = true
      · rw [if_pos hends]
        have hempty := (B.recv_eq_none_iff h.following.holds).mp hends.1
        have hlength := h.following.length_eq hnext
        have hrelayed : relayed (outcomes ++ [.closed]) = relayed outcomes := by
          rw [relayed_append]
          exact List.append_nil _
        refine ⟨relay, hknown none, h.channel_eq, ?_, ?_, ?_⟩
        · intro other hother
          cases hgone.symm.trans hother
        · rw [hrelayed]
          exact h.following
        · intro _
          rw [hrelayed]
          exact ⟨isClosed_step hends.2 (.hangUp viewer), hgone, by omega⟩
      · rw [if_neg hends]
        have hround := h.following.round hnext accepted
        have hrelayed : relayed (outcomes ++ (relayRound B relay.channel position.next accepted).1.map .relayed) =
            relayed outcomes ++ (relayRound B relay.channel position.next accepted).1 := by
          rw [relayed_append, relayed_map_relayed]
        have hstays : ViewerOutcome.closed ∉
            outcomes ++ (relayRound B relay.channel position.next accepted).1.map .relayed := by
          intro hmem
          rcases List.mem_append.mp hmem with hmem | hmem
          · exact hopen hmem
          · obtain ⟨_, -, heq⟩ := List.mem_map.mp hmem
            cases heq
        rw [← hrelayed] at hround
        refine ⟨_, ?_, ?_, ?_, hround, fun hmem => absurd hmem hstays⟩
        · dsimp only
          split <;> exact hknown _
        · dsimp only
          split <;> exact h.channel_eq
        · intro other hother
          dsimp only at hother ⊢
          split at hother
          · rename_i next hsome
            rw [List.getElem?_set_self h.known] at hother
            obtain rfl := Option.some.inj (Option.some.inj hother)
            exact ⟨rfl, hsome⟩
          · cases hgone.symm.trans hother

theorem Viewing.step (h : Viewing s viewer channel relay history values outcomes) (e : RelayEvent) :
    ∃ relay', Viewing (s.step e).2 viewer channel relay' history
      (values ++ (sentOn? channel (entry step s e)).toList) (outcomes ++ outcomesOf viewer [entry step s e]) := by
  have hlt : channel < s.channels.length := (List.getElem?_eq_some_iff.mp h.channel_eq).1
  have hclosed : s.isClosed channel = true → (s.step e).2.isClosed channel = true := fun hc => isClosed_step hc e
  cases e with
  | connect engine reads accepted =>
    have hnone : outcomesOf viewer [entry LogRelay.step s (.connect engine reads accepted)] = [] :=
      outcomesOf_entry_other (ne_of_gt h.known) rfl
    obtain ⟨more, hmore⟩ := s.channels_connect engine reads accepted
    obtain ⟨slot, hslot⟩ := s.viewers_connect engine reads accepted
    rw [hnone, sentOn?, entry, Option.toList_none, List.append_nil, List.append_nil]
    refine ⟨relay, h.quiet hclosed ?_ (.inl ?_)⟩
    · rw [LogRelay.step, hmore, List.getElem?_append_left hlt]
    · rw [LogRelay.step, hslot, List.getElem?_append_left h.known]
  | act task action =>
    have hnone : outcomesOf viewer [entry LogRelay.step s (.act task action)] = [] := rfl
    rw [hnone, List.append_nil]
    exact h.send
  | remove task =>
    rw [sentOn?, entry, Option.toList_none, List.append_nil]
    refine ⟨relay, ?_⟩
    have hnone : outcomesOf viewer [(⟨s, .remove task, (s.step (.remove task)).1, (s.step (.remove task)).2⟩ :
        RelayEntry B)] = [] := rfl
    rw [hnone, List.append_nil]
    exact h.quiet hclosed rfl (.inl rfl)
  | receive other accepted =>
    rw [sentOn?, entry, Option.toList_none, List.append_nil]
    by_cases hother : other = viewer
    · subst hother
      rw [outcomesOf_entry_self rfl]
      exact h.receive accepted
    · rw [outcomesOf_entry_other hother rfl, List.append_nil]
      refine ⟨relay, h.quiet hclosed ?_ (.inl (receive_other s hother accepted))⟩
      exact congrArg (·[channel]?) (channels_receive s other accepted)
  | hangUp other =>
    rw [sentOn?, entry, Option.toList_none, List.append_nil]
    have hnone : outcomesOf viewer [(⟨s, .hangUp other, (s.step (.hangUp other)).1, (s.step (.hangUp other)).2⟩ :
        RelayEntry B)] = [] := rfl
    rw [hnone, List.append_nil]
    refine ⟨relay, h.quiet hclosed rfl ?_⟩
    by_cases hother : other = viewer
    · subst hother
      exact .inr (List.getElem?_set_self h.known)
    · exact .inl (List.getElem?_set_ne hother)

theorem sentOn_append (first later : List (RelayEntry B)) :
    sentOn channel (first ++ later) = sentOn channel first ++ sentOn channel later :=
  List.filterMap_append

theorem outcomesOf_append (first later : List (RelayEntry B)) :
    outcomesOf viewer (first ++ later) = outcomesOf viewer first ++ outcomesOf viewer later := by
  rw [outcomesOf, List.flatMap_append, List.filterMap_append]
  rfl

theorem Viewing.run (h : Viewing s viewer channel relay history values outcomes) (events : List RelayEvent) :
    ∃ relay', Viewing (final LogRelay.step s events) viewer channel relay' history
      (values ++ sentOn channel (trace LogRelay.step s events))
      (outcomes ++ outcomesOf viewer (trace LogRelay.step s events)) := by
  induction events using List.reverseRecOn with
  | nil =>
    refine ⟨relay, ?_⟩
    rw [show sentOn channel (trace LogRelay.step s []) = [] from rfl,
      show outcomesOf viewer (trace LogRelay.step s []) = [] from rfl, List.append_nil, List.append_nil]
    exact h
  | append_singleton events e ih =>
    obtain ⟨relay', hbefore⟩ := ih
    obtain ⟨relay'', hafter⟩ := hbefore.step e
    refine ⟨relay'', ?_⟩
    rw [trace_concat, final_concat, sentOn_append, outcomesOf_append, ← List.append_assoc, ← List.append_assoc]
    have hlast : sentOn channel [entry LogRelay.step (final LogRelay.step s events) e] =
        (sentOn? channel (entry LogRelay.step (final LogRelay.step s events) e)).toList := by
      rw [sentOn, List.filterMap_cons]
      cases sentOn? channel (entry LogRelay.step (final LogRelay.step s events) e) <;> rfl
    rw [hlast]
    exact hafter

theorem skipped_receive (h : Viewing s viewer channel relay history values outcomes)
    (hskipped : skipped (answered (relayed outcomes)) = 0)
    (hnear : values.length ≤ (delivered (relayed outcomes)).length + capacity) (accepted : Bool) :
    skipped (answered (relayed (s.receive viewer accepted).1)) = 0 := by
  have hround := skipped_step_eq_zero h.following hskipped hnear (.round accepted)
  rw [LogRelay.receive]
  split
  · rename_i position hposition
    obtain ⟨rfl, hnext⟩ := h.position_eq position hposition
    rw [Relay.step, hnext] at hround
    rw [h.channel_eq]
    dsimp only at hround ⊢
    split
    · rfl
    · rw [relayed_map_relayed]
      exact hround
  · rfl

theorem skipped_step (h : Viewing s viewer channel relay history values outcomes)
    (hskipped : skipped (answered (relayed outcomes)) = 0)
    (hnear : values.length ≤ (delivered (relayed outcomes)).length + capacity) (e : RelayEvent) :
    skipped (answered (relayed (outcomesOf viewer [entry LogRelay.step s e]))) = 0 := by
  cases e with
  | connect engine reads accepted =>
    rw [outcomesOf_entry_other (ne_of_gt h.known) rfl]
    rfl
  | act task action => rfl
  | remove task => rfl
  | receive other accepted =>
    by_cases hother : other = viewer
    · subst hother
      rw [outcomesOf_entry_self rfl]
      exact skipped_receive h hskipped hnear accepted
    · rw [outcomesOf_entry_other hother rfl]
      rfl
  | hangUp other => rfl

/-- A viewer who is never more than the capacity behind skips no line. -/
theorem Viewing.skipped_eq_zero (h : Viewing s viewer channel relay history [] outcomes)
    (houtcomes : relayed outcomes = []) {events : List RelayEvent}
    (hnear : ∀ first rest, events = first ++ rest →
      (sentOn channel (trace LogRelay.step s first)).length ≤
        (delivered (relayed (outcomesOf viewer (trace LogRelay.step s first)))).length + capacity) :
    skipped (answered (relayed (outcomesOf viewer (trace LogRelay.step s events)))) = 0 := by
  induction events using List.reverseRecOn with
  | nil => rfl
  | append_singleton events e ih =>
    have hbefore := ih fun first rest hsplit => hnear first (rest ++ [e]) (by rw [hsplit, List.append_assoc])
    obtain ⟨relay', hrun⟩ := h.run events
    have hsame : relayed (outcomes ++ outcomesOf viewer (trace LogRelay.step s events)) =
        relayed (outcomesOf viewer (trace LogRelay.step s events)) := by
      rw [relayed_append, houtcomes, List.nil_append]
    have hstep := skipped_step hrun (hsame ▸ hbefore) (hsame ▸ hnear events [e] rfl) e
    rw [trace_concat, outcomesOf_append, relayed_append, answered, List.map_append, skipped_append]
    exact Nat.add_eq_zero_iff.mpr ⟨hbefore, hstep⟩

theorem texts_receive (s : LogRelay B) (viewer : ℕ) (accepted : Bool) :
    texts (s.receive viewer accepted).1 = delivered (relayed (s.receive viewer accepted).1) := by
  rw [LogRelay.receive]
  split
  · split
    · split
      · rfl
      · dsimp only
        rw [relayed_map_relayed, texts, List.filterMap_map]
        rfl
    · rfl
  · rfl

theorem Viewing.texts_step (h : Viewing s viewer channel relay history values outcomes) (e : RelayEvent) :
    texts (outcomesOf viewer [entry LogRelay.step s e]) =
      delivered (relayed (outcomesOf viewer [entry LogRelay.step s e])) := by
  cases e with
  | connect engine reads accepted =>
    rw [outcomesOf_entry_other (ne_of_gt h.known) rfl]
    rfl
  | act task action => rfl
  | remove task => rfl
  | receive other accepted =>
    by_cases hother : other = viewer
    · subst hother
      rw [outcomesOf_entry_self rfl]
      exact texts_receive s other accepted
    · rw [outcomesOf_entry_other hother rfl]
      rfl
  | hangUp other => rfl

theorem Viewing.texts_run (h : Viewing s viewer channel relay history values outcomes) (events : List RelayEvent) :
    texts (outcomesOf viewer (trace LogRelay.step s events)) =
      delivered (relayed (outcomesOf viewer (trace LogRelay.step s events))) := by
  induction events using List.reverseRecOn with
  | nil => rfl
  | append_singleton events e ih =>
    obtain ⟨relay', hrun⟩ := h.run events
    rw [trace_concat, outcomesOf_append, relayed_append, texts, List.filterMap_append, delivered,
      List.filterMap_append]
    exact congrArg₂ (· ++ ·) ih (hrun.texts_step e)

/-- A viewer on a closed channel does not wait. -/
theorem Viewing.receive_ne_nil (h : Viewing s viewer channel relay history values outcomes) {position : Position}
    (hposition : s.viewers[viewer]? = some (some position)) (hclosed : s.isClosed channel = true) (accepted : Bool) :
    (s.receive viewer accepted).1 ≠ [] := by
  obtain ⟨rfl, -⟩ := h.position_eq position hposition
  rw [LogRelay.receive, hposition]
  dsimp only
  rw [h.channel_eq]
  dsimp only
  split
  · exact List.cons_ne_nil _ _
  · rename_i hends
    dsimp only
    rw [ne_eq, List.map_eq_nil_iff, relayRound]
    split
    · rename_i hrecv
      exact absurd ⟨hrecv, hclosed⟩ hends
    · cases accepted <;> exact List.cons_ne_nil _ _
    · exact List.cons_ne_nil _ _

end Viewing

/-- While a viewer listens, `send` keeps every line its task takes up. -/
theorem Sound.sentBy_eq {s : LogRelay B} (h : Sound s) {viewer : ℕ} {position : Position}
    (hposition : s.viewers[viewer]? = some (some position)) (action : TaskAction) :
    s.sentBy position.channel action = (s.streams.tasks[position.channel]?).bind (·.line? action) := by
  obtain ⟨t, ht, hreceives⟩ := h.receives viewer position hposition
  have hwatched : t.receivers.isEmpty = false := by
    rw [List.isEmpty_eq_false_iff]
    exact List.ne_nil_of_mem hreceives
  rw [sentBy, ht, Option.bind_some, Option.bind_some, StreamTask.sends, hwatched]
  rfl

theorem findContainer_eq_some {snapshots : List EngineSnapshot} {engine : Option String} {container : String}
    (h : findContainer snapshots engine = some container) :
    ∃ snapshot ∈ snapshots, snapshot.containerId = some container ∧
      ∀ endpoint, engine = some endpoint → snapshot.endpoint = endpoint := by
  cases engine with
  | some endpoint =>
    obtain ⟨snapshot, hfind, hcontainer⟩ := Option.bind_eq_some_iff.mp h
    refine ⟨snapshot, List.mem_of_find?_eq_some hfind, hcontainer, ?_⟩
    rintro _ ⟨⟩
    have hendpoint := List.find?_some hfind
    exact of_decide_eq_true hendpoint
  | none =>
    obtain ⟨snapshot, hmem, hcontainer⟩ := List.exists_of_findSome?_eq_some h
    exact ⟨snapshot, hmem, hcontainer, nofun⟩

theorem viewing_connect {s : LogRelay B} (h : Sound s) {engine : Option String} {reads : List (List EngineSnapshot)}
    {container : String} (hcontainer : resolveContainerId reads engine = some container) :
    ∃ relay history, Viewing (s.step (.connect engine reads true)).2 s.viewers.length
      (s.subscribe s.viewers.length container).1.channel relay history [] [] := by
  have hsub := h.subscribe s.viewers.length container
  obtain ⟨channel, hchannel, hnext⟩ := hsub.channel_eq
  obtain ⟨history, hholds⟩ := hsub.holds channel (List.mem_of_getElem? hchannel)
  have hstep : (s.step (.connect engine reads true)).2 =
      { (s.subscribe s.viewers.length container).2 with
        viewers := s.viewers ++ [some (s.subscribe s.viewers.length container).1] } := by
    rw [LogRelay.step, LogRelay.connect, hcontainer]
    rfl
  rw [hstep]
  refine ⟨Relay.begin B channel, history, ?_, hchannel, ?_, ?_, nofun⟩
  · rw [List.length_append]
    exact Nat.lt_succ_self _
  · intro position hposition
    rw [List.getElem?_concat_length] at hposition
    obtain rfl := Option.some.inj (Option.some.inj hposition)
    exact ⟨rfl, congrArg some hnext.symm⟩
  · rw [List.append_nil]
    exact Following.begin hholds

/-- A viewer who asks for an engine is attached to the stream of a container of that engine, and gets the
marker and then what that stream sends from there on, in order, but for the lines it was told it skipped. -/
theorem log_viewer_follows_its_stream (B : Interface String capacity) (before after : List RelayEvent)
    (engine : Option String) (reads : List (List EngineSnapshot)) (container : String)
    (hcontainer : resolveContainerId reads engine = some container) :
    let viewer := (final step (new B) before).viewers.length
    let channel := ((final step (new B) before).subscribe viewer container).1.channel
    let joined := final step (new B) (before ++ [.connect engine reads true])
    let last := final step joined after
    let lines := relayed (outcomesOf viewer (trace step joined after))
    (∃ snapshots ∈ reads, ∃ snapshot ∈ snapshots, snapshot.containerId = some container ∧
      ∀ endpoint, engine = some endpoint → snapshot.endpoint = endpoint) ∧
    (∃ t, last.streams.tasks[channel]? = some t ∧ t.container = container) ∧
    texts (outcomesOf viewer (trace step (final step (new B) before) (.connect engine reads true :: after))) =
      streamAttached :: delivered lines ∧
    (delivered lines).Sublist (sentOn channel (trace step joined after)) ∧
    ((∀ first rest, after = first ++ rest → (sentOn channel (trace step joined first)).length ≤
        (delivered (relayed (outcomesOf viewer (trace step joined first)))).length + capacity) →
      delivered lines <+: sentOn channel (trace step joined after)) ∧
    (ViewerOutcome.closed ∈ outcomesOf viewer (trace step joined after) → last.isClosed channel = true ∧
      (delivered lines).length + skipped (answered lines) = (sentOn channel (trace step joined after)).length) ∧
    (∀ position, last.viewers[viewer]? = some (some position) →
      (∀ action, last.sentBy channel action = (last.streams.tasks[channel]?).bind (·.line? action)) ∧
      (last.isClosed channel = true → ∀ accepted, (last.receive viewer accepted).1 ≠ [])) ∧
    ∃ events, last.streams = final LogStreams.step {} events := by
  intro viewer channel joined last lines
  have hsound := sound_final (B := B) before
  have hjoined : joined = ((final step (new B) before).step (.connect engine reads true)).2 :=
    final_concat step (new B) before _
  obtain ⟨relay, history, hview⟩ := viewing_connect hsound hcontainer
  rw [← hjoined] at hview
  obtain ⟨relay', hlast⟩ := hview.run after
  refine ⟨?_, ?_, ?_, ?_, ?_, ?_, ?_, ?_⟩
  · obtain ⟨snapshots, hmem, hfound⟩ := List.exists_of_findSome?_eq_some hcontainer
    exact ⟨snapshots, List.mem_of_mem_take hmem, findContainer_eq_some hfound⟩
  · obtain ⟨t, ht, hname, -⟩ := (hsound.subscribe viewer container).task_eq
    obtain ⟨events, hevents⟩ := streams_final joined after
    have hstreams : joined.streams = ((final step (new B) before).subscribe viewer container).2.streams := by
      rw [hjoined, LogRelay.step, LogRelay.connect, hcontainer]
      rfl
    rw [← hstreams] at ht
    obtain ⟨t', ht', hkept, -⟩ := task_final ht events
    exact ⟨t', hevents ▸ ht', hkept.trans hname⟩
  · have hfirst : outcomesOf viewer [entry step (final step (new B) before) (.connect engine reads true)] =
        [.attached] := by
      apply outcomesOf_entry_self
      rw [entry, LogRelay.step, LogRelay.connect, hcontainer]
      rfl
    have hsplit : trace step (final step (new B) before) (.connect engine reads true :: after) =
        [entry step (final step (new B) before) (.connect engine reads true)] ++ trace step joined after := by
      rw [trace_cons, hjoined]
      rfl
    rw [hsplit, outcomesOf_append, hfirst, ← hview.texts_run after]
    rfl
  · exact hlast.following.delivered_sublist
  · intro hnear
    exact hlast.following.delivered_prefix_of_skipped_eq_zero (hview.skipped_eq_zero rfl hnear)
  · intro hclosed
    obtain ⟨hends, -, haccounted⟩ := hlast.closed hclosed
    exact ⟨hends, haccounted⟩
  · intro position hposition
    have hlastSound : Sound last := by
      have hjoinedSound : Sound joined := hjoined ▸ hsound.step _
      exact final_invariant Sound (fun _ e h => h.step e) hjoinedSound after
    refine ⟨?_, fun hclosed accepted => hlast.receive_ne_nil hposition hclosed accepted⟩
    intro action
    have hsent := hlastSound.sentBy_eq hposition action
    rwa [(hlast.position_eq position hposition).1] at hsent
  · obtain ⟨events, hevents⟩ := streams_final (new B) (before ++ [.connect engine reads true] ++ after)
    rw [final_append] at hevents
    exact ⟨events, hevents⟩

def vllmContainer : EngineSnapshot :=
  (EngineState.poll { EngineState.new .vllm "http://localhost:8000" .docker 0 with containerId := some "c" }
    { health := .running, now := 0 }).1

theorem log_viewer_follows_its_stream_vllm :
    texts (outcomesOf 0 (trace step (new (Buffer.interface String 256))
      [.connect (some "http://localhost:8000") [[], [vllmContainer]] true, .act 0 (.connect none),
        .act 0 (.frame ["ready"]), .act 0 .proceed, .receive 0 true])) = [streamAttached, "ready"] :=
  (log_viewer_follows_its_stream (Buffer.interface String 256) []
    [.act 0 (.connect none), .act 0 (.frame ["ready"]), .act 0 .proceed, .receive 0 true]
    (some "http://localhost:8000") [[], [vllmContainer]] "c" rfl).2.2.1.trans rfl

end LogRelay

end SparkDashboard.Logs
