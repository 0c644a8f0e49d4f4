import Mathlib.Algebra.Order.BigOperators.Group.List
import Mathlib.Data.Multiset.AddSub
import Mathlib.Tactic.Abel
import SparkDashboard.Browser.UseMetrics

/-!
# GPU events between the socket and the store

Every event received is pushed, on its way, or was in a snapshot that another one
replaced. Once the page has settled, none is on its way.
-/

namespace SparkDashboard.Browser

open Stepping Utf16

abbrev PageEntry := Entry MetricsPage PageEvent (List GpuEventData)

abbrev pageRun (hidden : Bool) (events : List PageEvent) : List PageEntry :=
  trace MetricsPage.step (MetricsPage.mount hidden) events

abbrev pageAfter (hidden : Bool) (events : List PageEvent) : MetricsPage :=
  final MetricsPage.step (MetricsPage.mount hidden) events

def receivedAt (p : MetricsPage) : PageEvent → Option MetricsSnapshot
  | .message i data _ => if p.hook.deliverable i (.message []) then data else none
  | _ => none

def PageEntry.received (e : PageEntry) : Option MetricsSnapshot := receivedAt e.before e.input

def flushes (p : MetricsPage) : PageEvent → Bool
  | .tick _ => !p.hidden
  | .visibility hidden _ => !hidden
  | _ => false

/-- A flush ran after the last message, with the tab visible, and React has rendered since. -/
def Settled (hidden : Bool) (events : List PageEvent) : Prop :=
  ∃ before flush between after, events = before ++ flush :: (between ++ .commit :: after) ∧
    flushes (pageAfter hidden before) flush = true ∧
    ∀ i data now, .message i data now ∉ between ++ .commit :: after

/-- Every event of every snapshot received is pushed exactly once. -/
def AllPushed (t : List PageEntry) : Prop :=
  (t.flatMap Entry.output).Perm ((t.filterMap PageEntry.received).flatMap (·.gpuEvents))

/-- No snapshot that carries GPU events is replaced by another one, in the slot or in React's queue, or
has the timestamp of the one ingested last. -/
structure NothingReplaced (e : PageEntry) : Prop where
  message : e.received.isSome → ∀ m, e.before.hook.pendingRef = some m → m.gpuEvents = []
  flush : flushes e.before e.input = true → e.before.hook.pendingRef.isSome →
    ∀ m, e.before.hook.updates.metrics = some m → m.gpuEvents = []
  commit : e.input = .commit → ∀ m, e.before.hook.updates.metrics = some m →
    m.timestampMs = e.before.store.lastTimestamp → m.gpuEvents = []

def eventsOf : Option MetricsSnapshot → Multiset GpuEventData
  | some m => m.gpuEvents
  | none => 0

/-- The events on their way, in the slot and in React's queue. -/
def onTheWay (p : MetricsPage) : Multiset GpuEventData :=
  eventsOf p.hook.pendingRef + eventsOf p.hook.updates.metrics

def lostAt (p : MetricsPage) : PageEvent → Multiset GpuEventData
  | .commit => if p.hook.updates.metrics.any (·.timestampMs = p.store.lastTimestamp) then
      eventsOf p.hook.updates.metrics else 0
  | event =>
    if (receivedAt p event).isSome then eventsOf p.hook.pendingRef
    else if flushes p event && p.hook.pendingRef.isSome then eventsOf p.hook.updates.metrics else 0

theorem eventsOf_eq_zero {m : Option MetricsSnapshot} :
    eventsOf m = 0 ↔ ∀ data, m = some data → data.gpuEvents = [] := by
  cases m with
  | none => simp [eventsOf]
  | some data => simp [eventsOf]

/-- Mounted, and nothing waits before the first snapshot has come. -/
structure Fresh (p : MetricsPage) : Prop where
  mounted : p.hook.mounted = true
  empty : p.hook.initialFlushDone = false → p.hook.pendingRef = none ∧ p.hook.updates.metrics = none

structure SameSlots (h h' : UseMetrics) : Prop where
  mounted : h'.mounted = h.mounted
  initialFlushDone : h'.initialFlushDone = h.initialFlushDone
  pendingRef : h'.pendingRef = h.pendingRef
  queued : h'.updates.metrics = h.updates.metrics

theorem SameSlots.refl (h : UseMetrics) : SameSlots h h := ⟨rfl, rfl, rfl, rfl⟩

/-- What a step of a mounted page does to the snapshots on their way. -/
inductive Moves (p : MetricsPage) (event : PageEvent) : Prop where
  | stays (received : receivedAt p event = none) (lost : lostAt p event = 0) (output : (p.step event).1 = [])
      (same : SameSlots p.hook (p.step event).2.hook)
  | receives (data : MetricsSnapshot) (now : ℚ) (received : receivedAt p event = some data)
      (lost : lostAt p event = eventsOf p.hook.pendingRef) (output : (p.step event).1 = [])
      (hook : (p.step event).2.hook = p.hook.onMessage data now)
  | flushes (data : MetricsSnapshot) (pending : p.hook.pendingRef = some data) (received : receivedAt p event = none)
      (lost : lostAt p event = eventsOf p.hook.updates.metrics) (output : (p.step event).1 = [])
      (hook : (p.step event).2.hook = ({ p.hook with pendingRef := none }.setMetrics data).setIsStale false)
  | commits (committed : event = .commit) (step : p.step event = p.commit)

theorem moves_of_guarded {p : MetricsPage} {event : PageEvent} {guard : Bool} {h : UseMetrics}
    (hstep : p.step event = if guard then ([], { p with hook := h }) else ([], p))
    (hsame : SameSlots p.hook h) (hreceived : receivedAt p event = none) (hlost : lostAt p event = 0) :
    Moves p event := by
  cases guard with
  | true => exact .stays hreceived hlost (by rw [hstep]; rfl) (by rw [hstep]; exact hsame)
  | false => exact .stays hreceived hlost (by rw [hstep]; rfl) (by rw [hstep]; exact .refl p.hook)

theorem flush_idle {h : UseMetrics} {hidden : Bool} (hidle : hidden = true ∨ h.pendingRef = none) (now : ℚ) :
    SameSlots h (h.flush hidden now) := by
  rw [UseMetrics.flush]
  split
  · exact .refl h
  · rename_i hvisible
    rw [hidle.resolve_left hvisible]
    simp only
    split
    · exact ⟨rfl, rfl, rfl, rfl⟩
    · exact .refl h

theorem moves_of_flush {p : MetricsPage} {event : PageEvent} {hidden : Bool} {now : ℚ}
    (hreceived : receivedAt p event = none) (houtput : (p.step event).1 = [])
    (hhook : (p.step event).2.hook = p.hook.flush hidden now)
    (hlost : lostAt p event = if !hidden && p.hook.pendingRef.isSome then eventsOf p.hook.updates.metrics else 0) :
    Moves p event := by
  cases hidden with
  | true => exact .stays hreceived hlost houtput (hhook ▸ flush_idle (.inl rfl) now)
  | false =>
    cases hpending : p.hook.pendingRef with
    | none =>
      rw [hpending] at hlost
      exact .stays hreceived hlost houtput (hhook ▸ flush_idle (.inr hpending) now)
    | some data =>
      refine .flushes data hpending hreceived ?_ houtput ?_
      · rw [hlost, hpending]
        rfl
      · rw [hhook, UseMetrics.flush, hpending]
        rfl

theorem lostAt_message (p : MetricsPage) (i : Nat) (data : Option MetricsSnapshot) (now : ℚ) :
    lostAt p (.message i data now) =
      if (receivedAt p (.message i data now)).isSome then eventsOf p.hook.pendingRef else 0 := by
  rw [lostAt]
  · rfl
  · intro h
    cases h

theorem step_tick {p : MetricsPage} (h : Fresh p) (now : ℚ) :
    p.step (.tick now) = ([], { p with hook := p.hook.flush p.hidden now }) := if_pos h.mounted

theorem step_visibility {p : MetricsPage} (h : Fresh p) (hidden : Bool) (now : ℚ) :
    p.step (.visibility hidden now) = ([], { p with hidden := hidden, hook := p.hook.flush hidden now }) :=
  if_pos h.mounted

theorem step_commit {p : MetricsPage} (h : Fresh p) : p.step .commit = p.commit := if_pos h.mounted

theorem moves_step {p : MetricsPage} (h : Fresh p) {event : PageEvent} (hmounted : event ≠ .unmount) :
    Moves p event := by
  cases event with
  | opened i => exact moves_of_guarded rfl ⟨rfl, rfl, rfl, rfl⟩ rfl rfl
  | error i => exact moves_of_guarded rfl ⟨rfl, rfl, rfl, rfl⟩ rfl rfl
  | closed i => exact moves_of_guarded rfl ⟨rfl, rfl, rfl, rfl⟩ rfl rfl
  | reconnect t => exact moves_of_guarded rfl ⟨rfl, rfl, rfl, rfl⟩ rfl rfl
  | message i data now =>
    cases data with
    | none =>
      have hreceived : receivedAt p (.message i none now) = none := ite_self _
      have hlost : lostAt p (.message i none now) = 0 := by
        rw [lostAt_message, hreceived]
        rfl
      exact .stays hreceived hlost rfl (.refl p.hook)
    | some data =>
      cases hdeliverable : p.hook.deliverable i (.message []) with
      | true =>
        have hreceived : receivedAt p (.message i (some data) now) = some data := if_pos hdeliverable
        have hstep : p.step (.message i (some data) now) = ([], { p with hook := p.hook.onMessage data now }) :=
          if_pos hdeliverable
        refine .receives data now hreceived ?_ (by rw [hstep]) (by rw [hstep])
        rw [lostAt_message, hreceived]
        rfl
      | false =>
        have hnot : ¬ p.hook.deliverable i (.message []) = true := by simp [hdeliverable]
        have hreceived : receivedAt p (.message i (some data) now) = none := if_neg hnot
        have hstep : p.step (.message i (some data) now) = ([], p) := if_neg hnot
        refine .stays hreceived ?_ (by rw [hstep]) (by rw [hstep]; exact .refl p.hook)
        rw [lostAt_message, hreceived]
        rfl
  | tick now => exact moves_of_flush rfl (by rw [step_tick h]) (by rw [step_tick h]) rfl
  | visibility hidden now =>
    exact moves_of_flush rfl (by rw [step_visibility h]) (by rw [step_visibility h]) rfl
  | commit => exact .commits rfl (step_commit h)
  | unmount => exact absurd rfl hmounted

theorem onMessage_of_done {h : UseMetrics} (hdone : h.initialFlushDone = true) (data : MetricsSnapshot) (now : ℚ) :
    h.onMessage data now = { h with lastMessageTime := now, pendingRef := some data } :=
  if_pos hdone

theorem onMessage_of_not_done {h : UseMetrics} (hdone : h.initialFlushDone = false) (data : MetricsSnapshot) (now : ℚ) :
    h.onMessage data now =
      ({ h with lastMessageTime := now, initialFlushDone := true, pendingRef := none }.setMetrics data).setIsStale
        false :=
  if_neg (by simp [hdone])

theorem commit_hook (p : MetricsPage) : p.commit.2.hook = p.hook.render := by
  rw [MetricsPage.commit]
  cases p.hook.updates.metrics <;> rfl

theorem commit_gives (p : MetricsPage) :
    (p.commit.1 : Multiset GpuEventData) + lostAt p .commit = eventsOf p.hook.updates.metrics := by
  rw [MetricsPage.commit, lostAt]
  cases p.hook.updates.metrics with
  | none => rfl
  | some m =>
    by_cases hseen : m.timestampMs = p.store.lastTimestamp
    · simp [MetricsHistoryStore.eventsPushed, hseen]
    · simp [MetricsHistoryStore.eventsPushed, hseen, eventsOf]

theorem fresh_step {p : MetricsPage} (h : Fresh p) {event : PageEvent} (hmounted : event ≠ .unmount) :
    Fresh (p.step event).2 := by
  cases moves_step h hmounted with
  | stays _ _ _ same =>
    refine ⟨same.mounted.trans h.mounted, fun hnot => ?_⟩
    rw [same.pendingRef, same.queued]
    exact h.empty (same.initialFlushDone ▸ hnot)
  | receives data now _ _ _ hook =>
    cases hdone : p.hook.initialFlushDone with
    | true =>
      rw [onMessage_of_done hdone] at hook
      refine ⟨hook ▸ h.mounted, fun hnot => ?_⟩
      rw [hook] at hnot
      exact absurd (hdone.symm.trans hnot) Bool.noConfusion
    | false =>
      rw [onMessage_of_not_done hdone] at hook
      refine ⟨hook ▸ h.mounted, fun hnot => ?_⟩
      rw [hook] at hnot
      cases hnot
  | flushes data pending _ _ _ hook =>
    refine ⟨hook ▸ h.mounted, fun hnot => ?_⟩
    rw [hook] at hnot
    have hempty := (h.empty hnot).1
    rw [pending] at hempty
    cases hempty
  | commits _ step =>
    have hhook : (p.step event).2.hook = p.hook.render := by rw [step, commit_hook]
    refine ⟨hhook ▸ h.mounted, fun hnot => ?_⟩
    rw [hhook] at hnot ⊢
    exact ⟨(h.empty hnot).1, rfl⟩

theorem step_conserves {p : MetricsPage} (h : Fresh p) {event : PageEvent} (hmounted : event ≠ .unmount) :
    eventsOf (receivedAt p event) + onTheWay p =
      (((p.step event).1 : Multiset GpuEventData) + lostAt p event) + onTheWay (p.step event).2 := by
  cases moves_step h hmounted with
  | stays received lost output same =>
    rw [received, lost, output, onTheWay, onTheWay, same.pendingRef, same.queued]
    rfl
  | receives data now received lost output hook =>
    rw [received, lost, output, onTheWay, onTheWay, hook]
    cases hdone : p.hook.initialFlushDone with
    | true =>
      rw [onMessage_of_done hdone]
      show eventsOf (some data) + (eventsOf p.hook.pendingRef + eventsOf p.hook.updates.metrics) =
        (0 + eventsOf p.hook.pendingRef) + (eventsOf (some data) + eventsOf p.hook.updates.metrics)
      abel
    | false =>
      obtain ⟨hpending, hqueued⟩ := h.empty hdone
      rw [onMessage_of_not_done hdone, hpending, hqueued]
      show eventsOf (some data) + (0 + 0) = (0 + 0) + (0 + eventsOf (some data))
      abel
  | flushes data pending received lost output hook =>
    rw [received, lost, output, onTheWay, onTheWay, hook, pending]
    show 0 + (eventsOf (some data) + eventsOf p.hook.updates.metrics) =
      (0 + eventsOf p.hook.updates.metrics) + (0 + eventsOf (some data))
    abel
  | commits committed step =>
    subst committed
    have hway : onTheWay p.commit.2 = eventsOf p.hook.pendingRef := by
      rw [onTheWay, commit_hook]
      exact add_zero _
    rw [step, commit_gives, hway, onTheWay]
    show 0 + (eventsOf p.hook.pendingRef + eventsOf p.hook.updates.metrics) = _
    abel

theorem nothingReplaced_iff (p : MetricsPage) (event : PageEvent) (output : List GpuEventData) (after : MetricsPage) :
    NothingReplaced ⟨p, event, output, after⟩ ↔
      ((receivedAt p event).isSome = true → eventsOf p.hook.pendingRef = 0) ∧
        (flushes p event = true → p.hook.pendingRef.isSome = true → eventsOf p.hook.updates.metrics = 0) ∧
        (event = .commit → p.hook.updates.metrics.any (·.timestampMs = p.store.lastTimestamp) = true →
          eventsOf p.hook.updates.metrics = 0) := by
  simp only [eventsOf_eq_zero]
  constructor
  · rintro ⟨message, flush, commit⟩
    refine ⟨message, flush, fun hcommit hseen m hm => commit hcommit m hm ?_⟩
    rw [hm] at hseen
    exact of_decide_eq_true hseen
  · rintro ⟨message, flush, commit⟩
    refine ⟨message, flush, fun hcommit m hm hseen => commit hcommit ?_ m hm⟩
    rw [hm]
    exact decide_eq_true hseen

theorem lostAt_eq_zero_iff (e : PageEntry) : lostAt e.before e.input = 0 ↔ NothingReplaced e := by
  obtain ⟨p, event, output, after⟩ := e
  rw [nothingReplaced_iff]
  cases event with
  | message i data now =>
    rw [lostAt_message]
    simp [flushes]
  | tick now => simp [lostAt, receivedAt, flushes]
  | visibility hidden now => simp [lostAt, receivedAt, flushes]
  | commit => simp [lostAt, receivedAt, flushes]
  | opened i => simp [lostAt, receivedAt, flushes]
  | error i => simp [lostAt, receivedAt, flushes]
  | closed i => simp [lostAt, receivedAt, flushes]
  | reconnect t => simp [lostAt, receivedAt, flushes]
  | unmount => simp [lostAt, receivedAt, flushes]

section Settling

structure Quiet (event : PageEvent) : Prop where
  mounted : event ≠ .unmount
  message : ∀ i data now, event ≠ .message i data now

theorem Quiet.received {event : PageEvent} (h : Quiet event) (p : MetricsPage) : receivedAt p event = none := by
  cases event with
  | message i data now => exact absurd rfl (h.message i data now)
  | _ => rfl

def Flushed (p : MetricsPage) : Prop := Fresh p ∧ p.hook.pendingRef = none

def Rendered (p : MetricsPage) : Prop := Flushed p ∧ p.hook.updates.metrics = none

theorem flushed_step (p : MetricsPage) (event : PageEvent) (hquiet : Quiet event) (h : Flushed p) :
    Flushed (p.step event).2 := by
  refine ⟨fresh_step h.1 hquiet.mounted, ?_⟩
  cases moves_step h.1 hquiet.mounted with
  | stays _ _ _ same => exact same.pendingRef.trans h.2
  | receives data now received _ _ _ => cases received.symm.trans (hquiet.received p)
  | flushes data pending _ _ _ _ => cases pending.symm.trans h.2
  | commits _ step =>
    rw [step, commit_hook]
    exact h.2

theorem rendered_step (p : MetricsPage) (event : PageEvent) (hquiet : Quiet event) (h : Rendered p) :
    Rendered (p.step event).2 := by
  refine ⟨flushed_step p event hquiet h.1, ?_⟩
  cases moves_step h.1.1 hquiet.mounted with
  | stays _ _ _ same => exact same.queued.trans h.2
  | receives data now received _ _ _ => cases received.symm.trans (hquiet.received p)
  | flushes data pending _ _ _ _ => cases pending.symm.trans h.1.2
  | commits _ step =>
    rw [step, commit_hook]
    rfl

theorem flush_pendingRef (h : UseMetrics) (now : ℚ) : (h.flush false now).pendingRef = none := by
  cases hpending : h.pendingRef with
  | some data =>
    rw [UseMetrics.flush, hpending]
    rfl
  | none => exact (flush_idle (.inr hpending) now).pendingRef.trans hpending

theorem flushed_of_flushes {p : MetricsPage} (h : Fresh p) {event : PageEvent} (hflush : flushes p event = true) :
    Flushed (p.step event).2 := by
  cases event with
  | tick now =>
    have hvisible : p.hidden = false := by simpa [flushes] using hflush
    refine ⟨fresh_step h (by simp), ?_⟩
    rw [step_tick h, hvisible]
    exact flush_pendingRef p.hook now
  | visibility hidden now =>
    have hvisible : hidden = false := by simpa [flushes] using hflush
    refine ⟨fresh_step h (by simp), ?_⟩
    rw [step_visibility h, hvisible]
    exact flush_pendingRef p.hook now
  | _ => cases hflush

theorem fresh_mount (hidden : Bool) : Fresh (MetricsPage.mount hidden) := ⟨rfl, fun _ => ⟨rfl, rfl⟩⟩

theorem rendered_of_settled {hidden : Bool} {events : List PageEvent} (hmounted : .unmount ∉ events)
    (h : Settled hidden events) : Rendered (pageAfter hidden events) := by
  obtain ⟨before, flush, between, after, rfl, hflush, hmessages⟩ := h
  have hquiet : ∀ event ∈ between ++ .commit :: after, Quiet event := by
    intro event hevent
    refine ⟨fun heq => hmounted ?_, fun i data now heq => hmessages i data now (heq ▸ hevent)⟩
    exact List.mem_append_right _ (List.mem_cons_of_mem _ (heq ▸ hevent))
  obtain ⟨hbetween, hafter⟩ := List.forall_mem_append.mp hquiet
  obtain ⟨hcommit, hafter⟩ := List.forall_mem_cons.mp hafter
  have hbefore : Fresh (pageAfter hidden before) := by
    have hstep : ∀ (p : MetricsPage) (event : PageEvent), event ≠ .unmount → Fresh p → Fresh (p.step event).2 :=
      fun _ _ hne h => fresh_step h hne
    refine final_invariant_of_forall Fresh hstep (fresh_mount hidden) fun event hevent heq => hmounted ?_
    exact List.mem_append_left _ (heq ▸ hevent)
  have hflushed := final_invariant_of_forall Flushed flushed_step (flushed_of_flushes hbefore hflush) hbetween
  rw [pageAfter, final_append, final_cons, final_append, final_cons]
  refine final_invariant_of_forall Rendered rendered_step ⟨flushed_step _ _ hcommit hflushed, ?_⟩ hafter
  rw [step_commit hflushed.1, commit_hook]
  rfl

end Settling

theorem eventBuffer_step (p : MetricsPage) (event : PageEvent) :
    (p.step event).2.store.eventBuffer = (p.step event).1.foldl CircularBuffer.push p.store.eventBuffer := by
  have hcommit : p.commit.2.store.eventBuffer = p.commit.1.foldl CircularBuffer.push p.store.eventBuffer := by
    rw [MetricsPage.commit]
    cases p.hook.updates.metrics with
    | none => rfl
    | some m => exact p.store.eventBuffer_ingest m
  cases event with
  | message i data now =>
    cases data with
    | none => rfl
    | some data =>
      rw [MetricsPage.step]
      split <;> rfl
  | commit =>
    rw [MetricsPage.step]
    split
    · exact hcommit
    · rfl
  | _ =>
    rw [MetricsPage.step]
    split <;> rfl

theorem eventBuffer_holds_pushed (hidden : Bool) (events : List PageEvent) :
    (pageAfter hidden events).store.eventBuffer.Holds eventBufferCapacity
      ((pageRun hidden events).flatMap Entry.output) := by
  have hfinal : ∀ (p : MetricsPage) (events : List PageEvent),
      (final MetricsPage.step p events).store.eventBuffer =
        ((trace MetricsPage.step p events).flatMap Entry.output).foldl CircularBuffer.push p.store.eventBuffer := by
    intro p events
    induction events generalizing p with
    | nil => rfl
    | cons event rest ih =>
      rw [final_cons, ih, eventBuffer_step, trace_cons, List.flatMap_cons, List.foldl_append]
      rfl
  rw [pageAfter, hfinal]
  exact CircularBuffer.holds_foldl_push (CircularBuffer.holds_new (by decide)) _

theorem sum_map_coe {κ β : Type*} (l : List κ) (f : κ → List β) :
    (l.map fun k => (f k : Multiset β)).sum = (l.flatMap f : List β) := by
  induction l with
  | nil => rfl
  | cons k rest ih => rw [List.map_cons, List.sum_cons, ih, List.flatMap_cons, Multiset.coe_add]

theorem sum_received (t : List PageEntry) :
    (t.map fun e => eventsOf e.received).sum = ((t.filterMap PageEntry.received).flatMap (·.gpuEvents) : List _) := by
  induction t with
  | nil => rfl
  | cons e rest ih =>
    rw [List.map_cons, List.sum_cons, ih, List.filterMap_cons]
    cases e.received with
    | none => exact zero_add _
    | some data => rw [List.flatMap_cons, eventsOf, Multiset.coe_add]

/-- Received is pushed, lost and on its way together. -/
theorem run_conserves (hidden : Bool) {events : List PageEvent} (hmounted : .unmount ∉ events) :
    ((pageRun hidden events).map fun e => eventsOf (PageEntry.received e)).sum =
      ((pageRun hidden events).flatMap Entry.output : List _) +
        ((pageRun hidden events).map fun e => lostAt e.before e.input).sum +
        onTheWay (pageAfter hidden events) := by
  have hrun := sum_trace_conserved (fun p rest => Fresh p ∧ .unmount ∉ rest) (fun e => eventsOf (PageEntry.received e))
    (fun e => (e.output : Multiset GpuEventData) + lostAt e.before e.input) onTheWay
    (fun p event rest h => ⟨fresh_step h.1 fun heq => h.2 (heq ▸ List.mem_cons_self),
      fun hrest => h.2 (List.mem_cons_of_mem event hrest)⟩)
    (fun p event rest h => step_conserves h.1 fun heq => h.2 (heq ▸ List.mem_cons_self))
    ⟨fresh_mount hidden, hmounted⟩
  rw [List.sum_map_add, sum_map_coe] at hrun
  exact (add_zero _).symm.trans hrun

/-- Once the page has settled, every GPU event received has been pushed exactly once if and only if no
snapshot with GPU events was ever replaced. -/
theorem gpu_events_pushed_iff (hidden : Bool) (events : List PageEvent) (hmounted : .unmount ∉ events)
    (hsettled : Settled hidden events) :
    AllPushed (pageRun hidden events) ↔ ∀ e ∈ pageRun hidden events, NothingReplaced e := by
  obtain ⟨⟨-, hpending⟩, hqueued⟩ := rendered_of_settled hmounted hsettled
  have hway : onTheWay (pageAfter hidden events) = 0 := by
    rw [onTheWay, hpending, hqueued]
    rfl
  have hrun := run_conserves hidden hmounted
  rw [hway, add_zero, sum_received] at hrun
  rw [AllPushed, ← Multiset.coe_eq_coe, hrun, left_eq_add, List.sum_eq_zero_iff]
  simp only [List.forall_mem_map, lostAt_eq_zero_iff]

def eventSnapshot (timestampMs : ℚ) (gpuEvents : List GpuEventData) : MetricsSnapshot where
  timestampMs := timestampMs
  gpu := {}
  gpus := none
  cpu := ⟨0⟩
  memory := ⟨0, 0⟩
  disk := ⟨0, 0⟩
  network := ⟨0, 0⟩
  engines := []
  gpuEvents := gpuEvents

def thermalEvent (timestampMs : ℚ) : GpuEventData where
  timestampMs := timestampMs
  gpuIndex := some 0
  eventType := utf16 "thermal"
  detail := utf16 "Thermal throttling active"

def flushedEach : List PageEvent :=
  [.opened 0, .message 0 (some (eventSnapshot 1000 [])) 1000, .commit,
    .message 0 (some (eventSnapshot 2000 [thermalEvent 2000])) 2000, .tick 2500, .commit]

theorem gpu_events_pushed_iff_flushedEach :
    AllPushed (pageRun false flushedEach) ↔ ∀ e ∈ pageRun false flushedEach, NothingReplaced e := by
  refine gpu_events_pushed_iff false flushedEach (by simp [flushedEach]) ?_
  refine ⟨flushedEach.take 4, .tick 2500, [], [], rfl, rfl, ?_⟩
  intro i data now
  simp

/-- Two snapshots between two flushes, the first of them with an event. -/
def twoBeforeFlush : List PageEvent :=
  [.opened 0, .message 0 (some (eventSnapshot 1000 [])) 1000, .commit,
    .message 0 (some (eventSnapshot 2000 [thermalEvent 2000])) 2000,
    .message 0 (some (eventSnapshot 3000 [])) 3000, .tick 3500, .commit]

def DistinctTimestamps (t : List PageEntry) : Prop :=
  (t.filterMap PageEntry.received).Pairwise fun m m' => m.timestampMs ≠ m'.timestampMs

theorem gpu_event_lost_before_flush :
    ¬ ∀ hidden events, .unmount ∉ events → Settled hidden events → DistinctTimestamps (pageRun hidden events) →
      AllPushed (pageRun hidden events) := by
  intro h
  have hsettled : Settled false twoBeforeFlush := by
    refine ⟨twoBeforeFlush.take 5, .tick 3500, [], [], rfl, rfl, ?_⟩
    intro i data now
    simp
  have hreceived : (pageRun false twoBeforeFlush).filterMap PageEntry.received =
      [eventSnapshot 1000 [], eventSnapshot 2000 [thermalEvent 2000], eventSnapshot 3000 []] := rfl
  have hdistinct : DistinctTimestamps (pageRun false twoBeforeFlush) := by
    rw [DistinctTimestamps, hreceived]
    simp [eventSnapshot]
  have hall := h false twoBeforeFlush (by simp [twoBeforeFlush]) hsettled hdistinct
  rw [AllPushed, hreceived] at hall
  have hnone : (pageRun false twoBeforeFlush).flatMap Entry.output = [] := by decide +kernel
  rw [hnone] at hall
  cases hall.symm.eq_nil

end SparkDashboard.Browser
