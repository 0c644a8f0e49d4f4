import Mathlib.Data.List.DropRight
import SparkDashboard.Browser.LogConnections

/-!
# Runs of the log stream store

What holds after every run: the store's connections are the watched ones, what has left
it stays silent, and a stream's lines are the latest its connection received.
-/

namespace SparkDashboard.Browser

open Stepping Utf16

abbrev LogEntry := Entry LogStreamStore StoreEvent (List (Nat × Nat))

namespace LogStreamStore

def messageOn (c : Nat) (e : LogEntry) : Option Utf16 :=
  match e.input with
  | .socket d i (.message line) =>
    if d = c ∧ (e.before.deliverable d i (.message line)).isSome then some line else none
  | _ => none

def received (c : Nat) (past : List LogEntry) : List Utf16 := past.filterMap (messageOn c)

/-- Adding to the latest `limit` of a list and trimming gives the latest of the longer list. -/
theorem trim_rtake {α : Type} (limit : Nat) (hlimit : 0 < limit) (items : List α) (item : α) :
    (if limit < (items.rtake limit ++ [item]).length then
      (items.rtake limit ++ [item]).drop ((items.rtake limit ++ [item]).length - limit)
    else items.rtake limit ++ [item]) = (items ++ [item]).rtake limit := by
  rw [List.rtake, List.rtake, List.length_append, List.length_drop, List.length_append, List.length_singleton]
  by_cases hfull : limit ≤ items.length
  · rw [if_pos (by omega), ← List.drop_append_of_le_length (by omega), List.drop_drop]
    congr 1
    omega
  · have hall : items.length - limit = 0 := by omega
    have hone : items.length + 1 - limit = 0 := by omega
    rw [if_neg (by omega), hall, hone, List.drop_zero, List.drop_zero]

theorem received_append (c : Nat) (past : List LogEntry) (e : LogEntry) :
    received c (past ++ [e]) = received c past ++ (messageOn c e).toList := by
  rw [received, List.filterMap_append]
  cases h : messageOn c e <;> simp [received, h]

/-- Every stream holds the last lines received on its connection. -/
structure LinesKept (past : List LogEntry) (s : LogStreamStore) : Prop where
  kept : ∀ (c : Nat) (k : Connection), s.heap[c]? = some k → k.stream.lines = (received c past).rtake lineLimit
  unmade : ∀ c, s.heap.length ≤ c → received c past = []

theorem messageOn_eq_some_iff {c : Nat} {s : LogStreamStore} {event : StoreEvent} {line : Utf16} :
    messageOn c (entry step s event) = some line ↔
      ∃ i, event = .socket c i (.message line) ∧ (s.deliverable c i (.message line)).isSome = true := by
  rw [messageOn, entry]
  dsimp only
  split
  · rename_i d i text
    constructor
    · intro h
      obtain ⟨⟨rfl, hdeliverable⟩, heq⟩ := Option.ite_none_right_eq_some.mp h
      obtain rfl := Option.some.inj heq
      exact ⟨i, rfl, hdeliverable⟩
    · rintro ⟨j, heq, hdeliverable⟩
      cases heq
      exact if_pos ⟨rfl, hdeliverable⟩
  · rename_i hnot
    refine iff_of_false nofun ?_
    rintro ⟨i, rfl, -⟩
    exact hnot c i line rfl

theorem messageOn_eq_none {c : Nat} {s : LogStreamStore} {event : StoreEvent}
    (h : ∀ i line, event = .socket c i (.message line) → s.deliverable c i (.message line) = none) :
    messageOn c (entry step s event) = none := by
  refine Option.eq_none_iff_forall_ne_some.mpr fun line hline => ?_
  obtain ⟨i, heq, hdeliverable⟩ := messageOn_eq_some_iff.mp hline
  rw [h i line heq] at hdeliverable
  cases hdeliverable

theorem handle_lines (k : Connection) (stored : Bool) (i : Nat) {delivered : SocketEvent}
    (h : ∀ line, delivered ≠ .message line) : (k.handle stored i delivered).2.stream.lines = k.stream.lines := by
  cases delivered with
  | message line => exact absurd rfl (h line)
  | close =>
    rw [Connection.handle, Connection.dropped]
    split
    · split <;> rfl
    · rfl
  | _ => rfl

theorem linesKept_step {past : List LogEntry} {s : LogStreamStore} (hs : s.Kept) (h : LinesKept past s)
    (event : StoreEvent) : LinesKept (past ++ [entry step s event]) (s.step event).2 := by
  have hother : ∀ c, s.heap.length ≤ c → messageOn c (entry step s event) = none := by
    intro c hc
    refine messageOn_eq_none fun i line _ => ?_
    rw [deliverable, List.getElem?_eq_none hc]
    rfl
  refine ⟨?_, ?_⟩
  · intro c k' hk'
    rw [received_append]
    by_cases hmade : c < s.heap.length
    · have hk := List.getElem?_eq_getElem hmade
      obtain ⟨k'', hk'', hstep⟩ := heap_step hs event hk
      cases hk'.symm.trans hk''
      have hlines := h.kept c _ hk
      rcases hstep with ⟨i, delivered, rfl, hdeliverable, rfl⟩ | ⟨hnone, hstream, -⟩
      · by_cases hmessage : ∃ line, delivered = .message line
        · obtain ⟨line, rfl⟩ := hmessage
          have hline : messageOn c (entry step s (.socket c i (.message line))) = some line :=
            messageOn_eq_some_iff.mpr ⟨i, rfl, by rw [hdeliverable]; rfl⟩
          rw [hline, Connection.handle, Connection.receive]
          dsimp only [Option.toList_some]
          rw [hlines]
          exact trim_rtake lineLimit (by decide) (received c past) line
        · have hnot : ∀ line, delivered ≠ .message line := fun line heq => hmessage ⟨line, heq⟩
          have hnone : messageOn c (entry step s (.socket c i delivered)) = none :=
            messageOn_eq_none fun j line heq => absurd (StoreEvent.socket.inj heq).2.2 (hnot line)
          rw [hnone, handle_lines _ _ i hnot, hlines, Option.toList_none, List.append_nil]
      · rw [messageOn_eq_none fun i line heq => hnone i (.message line) heq, hstream, hlines,
          Option.toList_none, List.append_nil]
    · have hc := Nat.le_of_not_lt hmade
      rw [heap_step_new hs event hc hk', h.unmade c hc, hother c hc]
      rfl
  · intro c hc
    have hmade := (length_heap_le_step hs event).trans hc
    rw [received_append, h.unmade c hmade, hother c hmade]
    rfl

/-- Nothing of a connection that has left the store stirs: no socket, no timer, no listener. -/
def OrphansQuiet (e : LogEntry) : Prop :=
  ∀ (c : Nat) (k : Connection), e.before.heap[c]? = some k → e.before.connections.lookup k.endpoint ≠ some c →
    (∃ k', e.after.heap[c]? = some k' ∧ k'.sockets.length = k.sockets.length ∧ k'.timers = k.timers) ∧
    ∀ l, (c, l) ∉ e.output

theorem orphansQuiet_step {s : LogStreamStore} (h : s.Kept) (event : StoreEvent) :
    OrphansQuiet (entry step s event) := by
  intro c k hk horphan
  change s.heap[c]? = some k at hk
  have hstored : s.Stored c k = false := decide_eq_false horphan
  have hsound := h.sound c k hk
  rw [hstored] at hsound
  have hempty : k.listeners = [] := by
    by_contra hne
    cases hsound.watched.mpr hne
  obtain ⟨k', hk', hstep⟩ := heap_step h event hk
  refine ⟨⟨k', hk', ?_⟩, ?_⟩
  · rcases hstep with ⟨i, delivered, -, -, rfl⟩ | ⟨-, -, rfl | hkept⟩
    · rw [hstored]
      exact k.handle_orphan i delivered
    · exact ⟨rfl, rfl⟩
    · cases hstored.symm.trans hkept
  · intro l hl
    cases event with
    | socket d i delivered =>
      rw [entry, step] at hl
      split at hl
      · rename_i m hdeliverable
        obtain ⟨l', hl', heq⟩ := List.mem_map.mp hl
        cases heq
        obtain ⟨hm, -⟩ := deliverable_eq_some hdeliverable
        cases hk.symm.trans hm
        rw [hstored] at hl'
        have hnotified : l ∈ k.listeners := by
          cases delivered with
          | «open» => exact hl'
          | message line => exact hl'
          | close => cases hl'
          | error => cases hl'
        rw [hempty] at hnotified
        cases hnotified
      · cases hl
    | subscribe endpoint => cases hl
    | release listener =>
      rw [entry, step] at hl
      split at hl
      · split at hl <;> cases hl
      · cases hl
    | fire d t =>
      rw [entry, step] at hl
      split at hl
      · split at hl <;> cases hl
      · cases hl

/-- The state of the store and of all it ever made. -/
structure InOrder (s : LogStreamStore) : Prop where
  watched : ∀ endpoint c, s.connections.lookup endpoint = some c →
    ∃ k, s.heap[c]? = some k ∧ k.endpoint = endpoint ∧ k.listeners ≠ []
  unique : ∀ (c d : Nat) (k m : Connection), s.heap[c]? = some k → s.heap[d]? = some m →
    s.Stored c k = true → s.Stored d m = true → k.endpoint = m.endpoint → c = d
  released : ∀ endpoint, (∀ (l : Nat) (sub : Subscription) (k : Connection), s.subscriptions[l]? = some sub →
      s.heap[sub.connection]? = some k → k.endpoint = endpoint → sub.released = true) →
    ∀ (c : Nat) (k : Connection), s.heap[c]? = some k → k.endpoint = endpoint →
      (∀ t : Nat, k.timers[t]? ≠ some true) ∧
      ∀ (i : Nat) (w : Socket), k.sockets[i]? = some w → w.closed = true ∨ w.toldToClose = true
  single : ∀ (c : Nat) (k : Connection), s.heap[c]? = some k → ∀ (i j : Nat) (w v : Socket),
    k.sockets[i]? = some w → k.sockets[j]? = some v → w.closed = false → w.toldToClose = false →
    v.closed = false → v.toldToClose = false → i = j

theorem inOrder_of_kept {s : LogStreamStore} (h : s.Kept) : s.InOrder where
  watched := by
    intro endpoint c hc
    obtain ⟨k, hk, rfl⟩ := h.stored endpoint c hc
    exact ⟨k, hk, rfl, (h.sound c k hk).watched.mp (decide_eq_true hc)⟩
  unique := by
    intro c d k m _ _ hc hd hname
    have hd' := of_decide_eq_true hd
    rw [← hname] at hd'
    exact Option.some.inj ((of_decide_eq_true hc).symm.trans hd')
  released := by
    intro endpoint hreleased c k hk hname
    have hempty : k.listeners = [] := by
      refine List.eq_nil_iff_forall_not_mem.mpr fun l hl => ?_
      cases hreleased l ⟨c, false⟩ k ((h.listening c k l hk).mp hl) hk hname
    have hsound := h.sound c k hk
    have horphan : s.Stored c k = false := by
      refine Bool.eq_false_iff.mpr fun hstored => ?_
      exact hsound.watched.mp hstored hempty
    rw [horphan] at hsound
    refine ⟨?_, ?_⟩
    · intro t ht
      cases (hsound.waiting t ((hsound.armed t).mp ht)).1
    · intro i w hw
      cases hclosed : w.closed with
      | true => exact .inl rfl
      | false =>
        rcases hsound.live i w hw hclosed with hi | ⟨-, htold⟩
        · cases (hsound.current i hi).1
        · exact .inr htold
  single := by
    intro c k hk i j w v hw hv hwopen hwtold hvopen hvtold
    have hcurrent : ∀ (n : Nat) (u : Socket), k.sockets[n]? = some u → u.closed = false → u.toldToClose = false →
        k.socket = some n := by
      intro n u hu huopen hutold
      refine ((h.sound c k hk).live n u hu huopen).resolve_right fun htold => ?_
      cases hutold.symm.trans htold.2
    exact Option.some.inj ((hcurrent i w hw hwopen hwtold).symm.trans (hcurrent j v hv hvopen hvtold))

theorem linesKept_final (events : List StoreEvent) :
    LinesKept (trace step {} events) (final step {} events) := by
  induction events using List.reverseRecOn with
  | nil =>
    refine ⟨?_, fun _ _ => rfl⟩
    intro c k hk
    cases hk
  | append_singleton events event ih =>
    rw [trace_concat, final_concat]
    exact linesKept_step (kept_final events) ih event

/-- After every run the store and its connections are in order and hold the lines they should, and at
every further step whatever has left the store stays silent. -/
theorem log_stream_connections (events : List StoreEvent) (event : StoreEvent) :
    (final step {} events).InOrder ∧
    OrphansQuiet (entry step (final step {} events) event) ∧
    ∀ (c : Nat) (k : Connection), (final step {} events).heap[c]? = some k →
      k.stream.lines = (received c (trace step {} events)).rtake lineLimit :=
  ⟨inOrder_of_kept (kept_final events), orphansQuiet_step (kept_final events) event,
    (linesKept_final events).kept⟩

end LogStreamStore

end SparkDashboard.Browser
