import SparkDashboard.Library.Broadcast

/-!
# Metrics sockets

One channel carries every snapshot. Each connected client has a loop of its own, which
takes what the channel holds for it and sends it on its socket until the socket fails.
The loops and the collector take their turns in any order.
-/

namespace SparkDashboard.Ws

open Stepping Broadcast

variable {capacity : ℕ} {B : Interface String capacity}

structure FanOut (B : Interface String capacity) where
  channel : B.Chan
  /-- Where each client stands, in the order they connected, for as long as its loop runs. -/
  clients : List (Option ℕ) := []

inductive Event where
  | publish (json : String)
  | connect
  /-- A round of a client's loop, whose socket takes a message or has failed. -/
  | turn (client : ℕ) (sent : Bool)

namespace FanOut

def new (B : Interface String capacity) : FanOut B := { channel := B.new }

/-- A round of `handle_socket`. Its own sender keeps the channel open, so the loop ends only where the
socket fails. -/
def handleSocket (s : FanOut B) (client : ℕ) (sent : Bool) : List (Outcome String) × FanOut B :=
  match s.clients[client]? with
  | some (some next) =>
    let round := relayRound B s.channel next sent
    (round.1, { s with clients := s.clients.set client round.2 })
  | _ => ([], s)

def step (s : FanOut B) : Event → List (ℕ × Outcome String) × FanOut B
  | .publish json => ([], { s with channel := B.send s.channel json })
  | .connect => ([], { s with clients := s.clients ++ [some (B.subscribe s.channel)] })
  | .turn client sent =>
    let served := s.handleSocket client sent
    (served.1.map (client, ·), served.2)

/-- The client's part of what the sockets are sent. -/
def outcomesOf (client : ℕ) (outcomes : List (ℕ × Outcome String)) : List (Outcome String) :=
  outcomes.filterMap fun o => if o.1 = client then some o.2 else none

/-- What an event is to one client: another client's turn is nothing to it. -/
def viewOf (client : ℕ) : Event → Option (RelayInput String)
  | .publish json => some (.send json)
  | .connect => none
  | .turn other sent => if other = client then some (.round sent) else none

def published (events : List Event) : List String :=
  events.filterMap fun
    | .publish json => some json
    | _ => none

theorem outcomesOf_append (client : ℕ) (first later : List (ℕ × Outcome String)) :
    outcomesOf client (first ++ later) = outcomesOf client first ++ outcomesOf client later :=
  List.filterMap_append

theorem outcomesOf_map_self (client : ℕ) (outcomes : List (Outcome String)) :
    outcomesOf client (outcomes.map (client, ·)) = outcomes := by
  rw [outcomesOf, List.filterMap_map]
  refine (List.filterMap_congr fun o _ => ?_).trans List.filterMap_some
  exact if_pos rfl

theorem outcomesOf_map_other {client other : ℕ} (h : other ≠ client) (outcomes : List (Outcome String)) :
    outcomesOf client (outcomes.map (other, ·)) = [] := by
  rw [outcomesOf, List.filterMap_map, List.filterMap_eq_nil_iff]
  exact fun o _ => if_neg h

theorem sentIn_view (client : ℕ) (events : List Event) :
    sentIn (events.filterMap (viewOf client)) = published events := by
  rw [sentIn, published, List.filterMap_filterMap]
  refine List.filterMap_congr fun e _ => ?_
  cases e with
  | publish json => rfl
  | connect => rfl
  | turn other sent =>
    rw [viewOf]
    split <;> rfl

/-- The client and the channel, apart from everyone else. -/
structure Serves (s : FanOut B) (client : ℕ) (relay : Relay B) : Prop where
  channel_eq : relay.channel = s.channel
  next_eq : s.clients[client]? = some relay.next

theorem serves_handleSocket_other {s : FanOut B} {client other : ℕ} {relay : Relay B} (h : Serves s client relay)
    (hother : other ≠ client) (sent : Bool) : Serves (s.handleSocket other sent).2 client relay := by
  rw [handleSocket]
  split
  · refine ⟨h.channel_eq, ?_⟩
    exact (List.getElem?_set_ne hother).trans h.next_eq
  · exact h

theorem serves_handleSocket {s : FanOut B} {client : ℕ} {relay : Relay B} (h : Serves s client relay) (sent : Bool) :
    (s.handleSocket client sent).1 = (relay.step (.round sent)).1 ∧
      Serves (s.handleSocket client sent).2 client (relay.step (.round sent)).2 := by
  have hlt : client < s.clients.length := (List.getElem?_eq_some_iff.mp h.next_eq).1
  rw [handleSocket, Relay.step, h.next_eq]
  cases hnext : relay.next with
  | none =>
    refine ⟨rfl, h.channel_eq, ?_⟩
    exact h.next_eq
  | some next =>
    dsimp only
    rw [h.channel_eq]
    exact ⟨rfl, rfl, List.getElem?_set_self hlt⟩

/-- A step does for a client what its own view of the event does for its relay. -/
theorem step_view {s : FanOut B} {client : ℕ} {relay : Relay B} (h : Serves s client relay) (event : Event) :
    outcomesOf client (s.step event).1 = emitted Relay.step relay (viewOf client event).toList ∧
      Serves (s.step event).2 client (final Relay.step relay (viewOf client event).toList) := by
  cases event with
  | publish json =>
    refine ⟨rfl, ?_, h.next_eq⟩
    exact congrArg (B.send · json) h.channel_eq
  | connect =>
    refine ⟨rfl, h.channel_eq, ?_⟩
    have hlt : client < s.clients.length := (List.getElem?_eq_some_iff.mp h.next_eq).1
    exact (List.getElem?_append_left hlt).trans h.next_eq
  | turn other sent =>
    rw [step, viewOf]
    by_cases hother : other = client
    · subst hother
      obtain ⟨hsame, hserves⟩ := serves_handleSocket h sent
      rw [if_pos rfl]
      refine ⟨?_, hserves⟩
      rw [outcomesOf_map_self, hsame]
      exact (List.append_nil _).symm
    · rw [if_neg hother]
      exact ⟨outcomesOf_map_other hother _, serves_handleSocket_other h hother sent⟩

theorem run_view {s : FanOut B} {client : ℕ} {relay : Relay B} (h : Serves s client relay) (events : List Event) :
    outcomesOf client (emitted step s events) = emitted Relay.step relay (events.filterMap (viewOf client)) ∧
      Serves (final step s events) client (final Relay.step relay (events.filterMap (viewOf client))) := by
  induction events generalizing s relay with
  | nil => exact ⟨rfl, h⟩
  | cons event rest ih =>
    obtain ⟨hout, hserves⟩ := step_view h event
    obtain ⟨hrest, hfinal⟩ := ih hserves
    have hsplit : (event :: rest).filterMap (viewOf client) =
        (viewOf client event).toList ++ rest.filterMap (viewOf client) := by
      rw [List.filterMap_cons]
      cases viewOf client event <;> rfl
    rw [emitted_cons, outcomesOf_append, hsplit, emitted_append, final_append, hout, hrest]
    exact ⟨rfl, hfinal⟩

/-- A running loop ends where its socket fails on a message, and nowhere else. -/
theorem step_ends_iff {s : FanOut B} {client next : ℕ} {relay : Relay B} (h : Serves s client relay)
    (hnext : relay.next = some next) (event : Event) :
    (s.step event).2.clients[client]? = some none ↔
      event = .turn client false ∧ ∃ json, (s.step (.turn client true)).1 = [(client, .delivered json)] := by
  have hturn : ∀ json, (s.step (.turn client true)).1 = [(client, .delivered json)] ↔
      (relay.step (.round true)).1 = [.delivered json] := by
    intro json
    rw [step, ← (serves_handleSocket h true).1]
    dsimp only
    rw [List.map_eq_singleton_iff]
    simp
  have hrelay := fun input => Relay.step_ends_iff hnext input
  rw [(step_view h event).2.next_eq, Option.some_inj]
  simp only [hturn]
  cases hview : viewOf client event with
  | none =>
    refine iff_of_false (by rw [Option.toList_none, final_nil, hnext]; exact nofun) ?_
    rintro ⟨rfl, -⟩
    rw [viewOf, if_pos rfl] at hview
    cases hview
  | some input =>
    rw [Option.toList_some, final_cons, final_nil, hrelay]
    refine and_congr_left fun _ => ?_
    cases event with
    | publish json => cases hview; exact iff_of_false nofun nofun
    | connect => cases hview
    | turn other sent =>
      obtain ⟨rfl, hinput⟩ := Option.ite_none_right_eq_some.mp hview
      rw [← Option.some.inj hinput]
      constructor
      · rintro ⟨⟩
        rfl
      · rintro ⟨⟩
        rfl

theorem holds_final (B : Interface String capacity) (events : List Event) :
    B.Holds (final step (new B) events).channel (published events) := by
  induction events using List.reverseRecOn with
  | nil => exact B.holds_new
  | append_singleton events event ih =>
    rw [final_concat, published, List.filterMap_append]
    cases event with
    | publish json => exact B.holds_send ih json
    | connect =>
      rw [← List.append_nil (published events)] at ih
      exact ih
    | turn client sent =>
      have hkept : ((final step (new B) events).handleSocket client sent).2.channel =
          (final step (new B) events).channel := by
        rw [handleSocket]
        split <;> rfl
      rw [← List.append_nil (published events), ← hkept] at ih
      exact ih

theorem serves_connect (s : FanOut B) :
    Serves (s.step .connect).2 s.clients.length (Relay.begin B s.channel) :=
  ⟨rfl, List.getElem?_concat_length⟩

/-- Whatever everyone else does, a client is sent what was published since it connected, in order, but
for what it skipped by falling behind the channel and the message its socket failed on. -/
theorem metrics_reach_every_client (B : Interface String capacity) (before after : List Event) :
    let client := (final step (new B) before).clients.length
    let joined := final step (new B) (before ++ [.connect])
    let outcomes := outcomesOf client (emitted step joined after)
    let last := final step joined after
    (∃ place, last.clients[client]? = some place) ∧
    (delivered outcomes).Sublist (published after) ∧
    ((∀ first rest, after = first ++ rest → (published first).length ≤
        (delivered (outcomesOf client (emitted step joined first))).length + capacity) →
      delivered outcomes <+: published after) ∧
    (last.clients[client]? = some none ↔ ∃ json, .lost json ∈ outcomes) ∧
    (∀ next, last.clients[client]? = some (some next) →
      (delivered outcomes).length + skipped (answered outcomes) ≤ (published after).length ∧
      (∀ sent, (last.step (.turn client sent)).1 = [] ↔
        (delivered outcomes).length + skipped (answered outcomes) = (published after).length) ∧
      ∀ event, (last.step event).2.clients[client]? = some none ↔
        event = .turn client false ∧ ∃ json, (last.step (.turn client true)).1 = [(client, .delivered json)]) ∧
    ∀ after', after'.filterMap (viewOf client) = after.filterMap (viewOf client) →
      outcomesOf client (emitted step joined after') = outcomes := by
  intro client joined outcomes last
  have hjoined : Serves joined client (Relay.begin B (final step (new B) before).channel) := by
    have hstep : joined = ((final step (new B) before).step .connect).2 := final_concat step (new B) before .connect
    rw [hstep]
    exact serves_connect _
  have hholds := holds_final B before
  have hview := fun events => (run_view hjoined events).1
  obtain ⟨houtcomes, hlast⟩ := run_view hjoined after
  have hfollowing := following_run hholds (after.filterMap (viewOf client))
  rw [sentIn_view, ← houtcomes] at hfollowing
  refine ⟨⟨_, hlast.next_eq⟩, hfollowing.delivered_sublist, ?_, ?_, ?_, ?_⟩
  · intro hnear
    apply hfollowing.delivered_prefix_of_skipped_eq_zero
    rw [hview]
    apply skipped_eq_zero hholds
    intro first rest hsplit
    obtain ⟨events, later, rfl, rfl, -⟩ := List.filterMap_eq_append_iff.mp hsplit
    rw [sentIn_view, ← hview]
    exact hnear events later rfl
  · rw [hlast.next_eq, Option.some_inj]
    exact hfollowing.ended_iff
  · intro next hnext
    have hrelay := Option.some.inj (hlast.next_eq.symm.trans hnext)
    refine ⟨Nat.le.intro (hfollowing.length_eq hrelay), ?_, step_ends_iff hlast hrelay⟩
    intro sent
    rw [← hfollowing.waits_iff hrelay sent, ← (serves_handleSocket hlast sent).1]
    exact List.map_eq_nil_iff
  · intro after' hsame
    change outcomesOf client _ = outcomesOf client _
    rw [hview, hview, hsame]

end FanOut

end SparkDashboard.Ws
