import SparkDashboard.Browser.LogStreamStore
import SparkDashboard.Browser.MetricsHistoryStore

/-!
# The metrics socket and the page it feeds

A snapshot off the socket waits in one slot for the next flush, which hands it to React;
once React has rendered it, the history store ingests it. Updates queued since the last
render are kept apart from the state that render left.
-/

namespace SparkDashboard.Browser

open Stepping

inductive ConnectionStatus where
  | connected
  | reconnecting
  | disconnected
  deriving DecidableEq, Repr

structure MetricsState where
  metrics : Option MetricsSnapshot := none
  connectionStatus : ConnectionStatus := .disconnected
  isStale : Bool := false

/-- The state updates queued since the last render, the last one of each. -/
structure StateUpdates where
  metrics : Option MetricsSnapshot := none
  connectionStatus : Option ConnectionStatus := none
  isStale : Option Bool := none

structure ReconnectTimer where
  delay : Nat
  armed : Bool := true
  deriving DecidableEq, Repr

/-- The hook with every socket and timer the browser made for it. -/
structure UseMetrics where
  mounted : Bool := true
  state : MetricsState := {}
  updates : StateUpdates := {}
  lastMessageTime : ℚ := 0
  /-- The current socket, by its place in `sockets`. -/
  wsRef : Option Nat := none
  sockets : List Socket := []
  /-- The last timer set, by its place in `timers`. -/
  reconnectTimeout : Option Nat := none
  timers : List ReconnectTimer := []
  attemptRef : Nat := 0
  pendingRef : Option MetricsSnapshot := none
  initialFlushDone : Bool := false

namespace UseMetrics

def connect (h : UseMetrics) : UseMetrics :=
  { h with wsRef := some h.sockets.length, sockets := h.sockets ++ [{}] }

def modifySocket (h : UseMetrics) (i : Nat) (f : Socket → Socket) : UseMetrics :=
  { h with sockets := h.sockets.modify i f }

def setMetrics (h : UseMetrics) (data : MetricsSnapshot) : UseMetrics :=
  { h with updates := { h.updates with metrics := some data } }

def setConnectionStatus (h : UseMetrics) (status : ConnectionStatus) : UseMetrics :=
  { h with updates := { h.updates with connectionStatus := some status } }

def setIsStale (h : UseMetrics) (isStale : Bool) : UseMetrics :=
  { h with updates := { h.updates with isStale := some isStale } }

def onOpen (h : UseMetrics) : UseMetrics := { h.setConnectionStatus .connected with attemptRef := 0 }

/-- The very first snapshot goes to React at once, every other one into the slot. -/
def onMessage (h : UseMetrics) (data : MetricsSnapshot) (now : ℚ) : UseMetrics :=
  let received := { h with lastMessageTime := now, pendingRef := some data }
  if h.initialFlushDone then received
  else ({ received with initialFlushDone := true, pendingRef := none }.setMetrics data).setIsStale false

def onClose (h : UseMetrics) : UseMetrics :=
  { h.setConnectionStatus .reconnecting with
    wsRef := none
    reconnectTimeout := some h.timers.length
    timers := h.timers ++ [{ delay := min (1000 * 2 ^ h.attemptRef) 10000 }]
    attemptRef := h.attemptRef + 1 }

def fire (h : UseMetrics) (t : Nat) : UseMetrics :=
  { h with timers := h.timers.modify t ({ · with armed := false }) }.connect

def flush (h : UseMetrics) (hidden : Bool) (now : ℚ) : UseMetrics :=
  if hidden then h
  else
    match h.pendingRef with
    | some data => ({ h with pendingRef := none }.setMetrics data).setIsStale false
    | none =>
      if h.state.connectionStatus = .connected ∧ 0 < h.lastMessageTime then
        h.setIsStale (decide (5000 < now - h.lastMessageTime))
      else h

def render (h : UseMetrics) : UseMetrics :=
  { h with
    updates := {}
    state :=
      { metrics := h.updates.metrics.or h.state.metrics
        connectionStatus := h.updates.connectionStatus.getD h.state.connectionStatus
        isStale := h.updates.isStale.getD h.state.isStale } }

def unmount (h : UseMetrics) : UseMetrics :=
  let closed := match h.wsRef with
    | some i => h.modifySocket i ({ · with toldToClose := true })
    | none => h
  { closed with
    mounted := false
    timers := match h.reconnectTimeout with
      | some t => h.timers.modify t ({ · with armed := false })
      | none => h.timers }

def deliverable (h : UseMetrics) (i : Nat) (event : SocketEvent) : Bool := h.sockets[i]?.any (·.allows event)

end UseMetrics

/-- The page: the hook, the store it feeds, and whether the tab is hidden. -/
structure MetricsPage where
  hook : UseMetrics
  store : MetricsHistoryStore := {}
  hidden : Bool

def MetricsPage.mount (hidden : Bool) : MetricsPage where
  hook := UseMetrics.connect {}
  hidden := hidden

inductive PageEvent where
  | opened (socket : Nat)
  /-- `none` is a message that does not parse. -/
  | message (socket : Nat) (data : Option MetricsSnapshot) (now : ℚ)
  | error (socket : Nat)
  | closed (socket : Nat)
  | reconnect (timer : Nat)
  | tick (now : ℚ)
  | visibility (hidden : Bool) (now : ℚ)
  /-- React renders what is queued, then runs the effects. -/
  | commit
  | unmount

namespace MetricsPage

/-- A queued snapshot is rendered and then ingested. -/
def commit (p : MetricsPage) : List GpuEventData × MetricsPage :=
  let rendered := { p with hook := p.hook.render }
  match p.hook.updates.metrics with
  | some metrics => (p.store.eventsPushed metrics, { rendered with store := p.store.ingest metrics })
  | none => ([], rendered)

/-- The GPU events a step pushes to the store's event buffer, and the page after it. -/
def step (p : MetricsPage) : PageEvent → List GpuEventData × MetricsPage
  | .opened i =>
    if p.hook.deliverable i .open then
      ([], { p with hook := (p.hook.modifySocket i ({ · with opened := true })).onOpen })
    else ([], p)
  | .message i data now =>
    match data with
    | some data =>
      if p.hook.deliverable i (.message []) then ([], { p with hook := p.hook.onMessage data now }) else ([], p)
    | none => ([], p)
  | .error i =>
    if p.hook.deliverable i .error then
      ([], { p with hook := p.hook.modifySocket i ({ · with toldToClose := true }) })
    else ([], p)
  | .closed i =>
    if p.hook.deliverable i .close then
      ([], { p with hook := (p.hook.modifySocket i ({ · with closed := true })).onClose })
    else ([], p)
  | .reconnect t =>
    if p.hook.timers[t]?.any (·.armed) then ([], { p with hook := p.hook.fire t }) else ([], p)
  | .tick now => if p.hook.mounted then ([], { p with hook := p.hook.flush p.hidden now }) else ([], p)
  | .visibility hidden now =>
    if p.hook.mounted then ([], { p with hidden, hook := p.hook.flush hidden now }) else ([], { p with hidden })
  | .commit => if p.hook.mounted then p.commit else ([], p)
  | .unmount => if p.hook.mounted then ([], { p with hook := p.hook.unmount }) else ([], p)

end MetricsPage

end SparkDashboard.Browser
