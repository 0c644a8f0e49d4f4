import SparkDashboard.Library.KeyedMap
import SparkDashboard.Library.Stepping
import SparkDashboard.Library.Utf16

/-!
# The log stream store

One connection an endpoint, shared by its subscribers. A connection is kept with every
socket and timer the browser made for it, since their handlers go on holding it after
the store has dropped it. An event that a socket or timer cannot have changes nothing.
-/

namespace SparkDashboard.Browser

open Stepping Utf16

def lineLimit : Nat := 1000

inductive LogStreamStatus where
  | connecting
  | connected
  | reconnecting
  | unavailable
  deriving DecidableEq, Repr

structure LogStream where
  status : LogStreamStatus := .connecting
  lines : List Utf16 := []
  deriving DecidableEq, Repr

/-- A browser's socket: whether it has opened, `close()` was called, its close event delivered. -/
structure Socket where
  opened : Bool := false
  toldToClose : Bool := false
  closed : Bool := false
  deriving DecidableEq, Repr

inductive SocketEvent where
  | open
  | message (line : Utf16)
  | close
  | error

/-- Events come in order: nothing after the close, no message before the open. -/
def Socket.allows (w : Socket) : SocketEvent → Bool
  | .open => !w.closed && !w.opened
  | .message _ => !w.closed && w.opened
  | .close => !w.closed
  | .error => !w.closed

structure Connection where
  endpoint : Utf16
  /-- The current socket, by its place in `sockets`. -/
  socket : Option Nat := none
  /-- The armed retry, by its place in `timers`. -/
  retry : Option Nat := none
  everOpened : Bool := false
  stream : LogStream := {}
  listeners : List Nat := []
  sockets : List Socket := []
  /-- Every timer set, and whether it is still armed. -/
  timers : List Bool := []
  deriving DecidableEq, Repr

namespace Connection

def connect (k : Connection) : Connection :=
  { k with socket := some k.sockets.length, sockets := k.sockets ++ [{}] }

def modifySocket (k : Connection) (i : Nat) (f : Socket → Socket) : Connection :=
  { k with sockets := k.sockets.modify i f }

def clearRetry (k : Connection) : Connection :=
  match k.retry with
  | some t => { k with timers := k.timers.set t false, retry := none }
  | none => k

def closeSocket (k : Connection) : Connection :=
  match k.socket with
  | some i => { k.modifySocket i ({ · with toldToClose := true }) with socket := none }
  | none => k

def close (k : Connection) : Connection := k.clearRetry.closeSocket

def receive (k : Connection) (line : Utf16) : Connection :=
  let lines := k.stream.lines ++ [line]
  { k with stream := { k.stream with
      lines := if lineLimit < lines.length then lines.drop (lines.length - lineLimit) else lines } }

/-- The close handler; `stored` says whether the store still has this connection. -/
def dropped (k : Connection) (stored : Bool) : Connection :=
  if stored then
    if k.everOpened then
      { k with
        socket := none
        stream := { k.stream with status := .reconnecting }
        retry := some k.timers.length
        timers := k.timers ++ [true] }
    else { k with socket := none, stream := { k.stream with status := .unavailable } }
  else { k with socket := none }

def handle (k : Connection) (stored : Bool) (i : Nat) : SocketEvent → List Nat × Connection
  | .open => (k.listeners, { k.modifySocket i ({ · with opened := true }) with
      everOpened := true
      stream := { k.stream with status := .connected } })
  | .message line => (k.listeners, k.receive line)
  | .close => (if stored then k.listeners else [],
      (k.modifySocket i ({ · with closed := true })).dropped stored)
  | .error => ([], k.modifySocket i ({ · with toldToClose := true }))

def fire (k : Connection) (t : Nat) : Connection :=
  { k with timers := k.timers.set t false, retry := none }.connect

end Connection

/-- A call of `subscribe`, by the connection its release closes over. -/
structure Subscription where
  connection : Nat
  released : Bool := false
  deriving DecidableEq, Repr

/-- `connections` is the store's map; `heap` has every connection ever made, and
`subscriptions` every call of `subscribe`, whose place in the list is its listener. -/
structure LogStreamStore where
  connections : KeyedMap Utf16 Nat := ∅
  heap : List Connection := []
  subscriptions : List Subscription := []

/-- The endpoint of an engine in a snapshot. The backend's text has no lone surrogate, on which
the `encodeURIComponent` of `connect` would throw. -/
abbrev LiveEndpoint := { endpoint : Utf16 // IsWellFormed endpoint }

inductive StoreEvent where
  | subscribe (endpoint : LiveEndpoint)
  | release (listener : Nat)
  | socket (connection socket : Nat) (event : SocketEvent)
  | fire (connection timer : Nat)

namespace LogStreamStore

def Stored (s : LogStreamStore) (c : Nat) (k : Connection) : Bool :=
  decide (s.connections.lookup k.endpoint = some c)

def put (s : LogStreamStore) (c : Nat) (k : Connection) : LogStreamStore := { s with heap := s.heap.set c k }

def subscribe (s : LogStreamStore) (endpoint : Utf16) : LogStreamStore :=
  let listener := s.subscriptions.length
  match s.connections.lookup endpoint with
  | some c =>
    { s with
      heap := s.heap.modify c fun k => { k with listeners := k.listeners ++ [listener] }
      subscriptions := s.subscriptions ++ [{ connection := c }] }
  | none =>
    let connection := Connection.connect { endpoint }
    { connections := s.connections.insert endpoint s.heap.length
      heap := s.heap ++ [{ connection with listeners := [listener] }]
      subscriptions := s.subscriptions ++ [{ connection := s.heap.length }] }

/-- The release function `subscribe` returned for the listener. -/
def release (s : LogStreamStore) (listener : Nat) (c : Nat) (k : Connection) : LogStreamStore :=
  let released := { s with
    subscriptions := s.subscriptions.modify listener ({ · with released := true }) }
  let k' := { k with listeners := k.listeners.filter (· ≠ listener) }
  if k'.listeners = [] then
    { released.put c k'.close with connections := s.connections.erase k.endpoint }
  else released.put c k'

/-- The connection of a socket that can have this event now. -/
def deliverable (s : LogStreamStore) (c i : Nat) (event : SocketEvent) : Option Connection :=
  s.heap[c]?.filter fun k => k.sockets[i]?.any (·.allows event)

/-- The listeners an event notifies, each with its connection, and the store after it. -/
def step (s : LogStreamStore) : StoreEvent → List (Nat × Nat) × LogStreamStore
  | .subscribe endpoint => ([], s.subscribe endpoint.val)
  | .release listener =>
    match s.subscriptions[listener]? with
    | some ⟨c, false⟩ =>
      match s.heap[c]? with
      | some k => ([], s.release listener c k)
      | none => ([], s)
    | _ => ([], s)
  | .socket c i event =>
    match s.deliverable c i event with
    | some k =>
      let handled := k.handle (s.Stored c k) i event
      (handled.1.map fun l => (c, l), s.put c handled.2)
    | none => ([], s)
  | .fire c t =>
    match s.heap[c]? with
    | some k => if k.timers[t]? = some true then ([], s.put c (k.fire t)) else ([], s)
    | none => ([], s)

end LogStreamStore

end SparkDashboard.Browser
