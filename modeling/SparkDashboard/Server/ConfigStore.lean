import SparkDashboard.Library.Disk
import SparkDashboard.Library.Stepping

/-!
# The configuration store and its three routes

One document under one name. A request is served in steps of one file operation each,
and the operations of the requests in flight come in any order. Any of them may fail,
a caller may hang up, and the process may die and another start on the same directory.
-/

namespace SparkDashboard.Store

abbrev Bytes := List UInt8

def maxDocumentBytes : Nat := 1024 * 1024
def documentFileName : String := "dashboards.json"

/-- `path.with_extension("tmp-{pid}-{n}")`. -/
def tmpName (pid n : Nat) : String := s!"dashboards.tmp-{pid}-{n}"

def probeName (pid n : Nat) : String := s!".write-probe-{pid}-{n}"

theorem tmpName_ne_document (pid n : Nat) : tmpName pid n ≠ documentFileName := by
  intro h
  have hlist : ("dashboards.tmp-" ++ pid.repr ++ "-" ++ n.repr).toList = "dashboards.json".toList :=
    congrArg String.toList h
  simp [String.toList_append] at hlist

theorem probeName_ne_document (pid n : Nat) : probeName pid n ≠ documentFileName := by
  intro h
  have hlist : (".write-probe-" ++ pid.repr ++ "-" ++ n.repr).toList = "dashboards.json".toList :=
    congrArg String.toList h
  simp [String.toList_append] at hlist

theorem tmpName_injective {pid n m : Nat} (h : tmpName pid n = tmpName pid m) : n = m := by
  have hlist : ("dashboards.tmp-" ++ pid.repr ++ "-" ++ n.repr).toList =
      ("dashboards.tmp-" ++ pid.repr ++ "-" ++ m.repr).toList := congrArg String.toList h
  simp only [String.toList_append, List.append_cancel_left_eq, Nat.toList_repr] at hlist
  rw [← Nat.ofDigitChars_toDigits (b := 10) (n := n) (by omega) (by omega), hlist,
    Nat.ofDigitChars_toDigits (by omega) (by omega)]

/-- How far a request has got. -/
inductive Request where
  /-- `load`, about to open the document. -/
  | opening
  | reading (inode : Nat) (got : Bytes)
  /-- `store`, its temporary file named. -/
  | creating (tmp : String) (body : Bytes)
  | writing (tmp : String) (body : Bytes) (inode written : Nat)
  /-- Its write has failed unheard, and the sync is left. -/
  | syncing (tmp : String) (body : Bytes) (written : Nat)
  /-- Synced, with as many of the body's bytes in the file as got there. -/
  | moving (tmp : String) (body : Bytes) (written : Nat)
  /-- A write that failed, about to remove its temporary file. -/
  | cleaning (tmp : String)
  /-- `delete`. -/
  | unlinking
  deriving DecidableEq, Repr

inductive Answer where
  | document (bytes : Bytes)
  | noContent
  | readFailed
  | tooLarge
  | readOnly
  | writeFailed
  deriving DecidableEq, Repr

/-- A file operation's outcome; `amount` bounds how many bytes a read or write moves. A data write may fail
unheard: `write_all` only queues it, and `sync_all` waits for it but leaves its error to a later write or
flush, of which there is none. -/
inductive Outcome where
  | ok (amount : Nat)
  | fails
  | failsUnheard
  deriving DecidableEq, Repr

/-- What `ConfigStore::new` finds of the state directory. -/
inductive Probe where
  | noDirectory
  | unwritable
  | writable (removed : Bool)
  deriving DecidableEq, Repr

inductive Event where
  | get (id : Nat)
  | put (id : Nat) (body : Bytes)
  | delete (id : Nat)
  | operation (id : Nat) (outcome : Outcome)
  /-- The caller is gone and its handler dropped. -/
  | hangUp (id : Nat)
  /-- The process dies and another starts. -/
  | restart (pid : Nat) (probe : Probe)
  deriving DecidableEq, Repr

structure Server where
  disk : Disk String UInt8
  pid : Nat
  /-- `unique_suffix`'s counter. -/
  counter : Nat
  readOnly : Bool
  requests : Nat → Option Request

namespace Server

def document (s : Server) : Option Bytes := s.disk.file documentFileName

def proceed (s : Server) (id : Nat) (request : Request) : Server :=
  { s with requests := Function.update s.requests id (some request) }

def finish (s : Server) (id : Nat) : Server := { s with requests := Function.update s.requests id none }

def withDisk (s : Server) (disk : Disk String UInt8) : Server := { s with disk }

/-- `probe_writable`: an empty file is made under a suffix of its own and taken away again. -/
def probeWritable (disk : Disk String UInt8) (pid : Nat) : Probe → Disk String UInt8
  | .writable true =>
    let probed := (disk.create (probeName pid 0)).2
    (probed.unlink (probeName pid 0)).getD probed
  | .writable false => (disk.create (probeName pid 0)).2
  | _ => disk

def isReadOnly : Probe → Bool
  | .writable _ => false
  | _ => true

/-- `ConfigStore::new` in a new process. -/
def start (disk : Disk String UInt8) (pid : Nat) (probe : Probe) : Server where
  disk := probeWritable disk pid probe
  pid := pid
  counter := if probe = .noDirectory then 0 else 1
  readOnly := isReadOnly probe
  requests _ := none

/-- A request arrives: what `put_dashboard` and `delete_dashboard` check before the store is reached. -/
def arrive (s : Server) (id : Nat) : Event → Option Answer × Server
  | .get _ => (none, s.proceed id .opening)
  | .put _ body =>
    if maxDocumentBytes < body.length then (some .tooLarge, s)
    else if s.readOnly then (some .readOnly, s)
    else (none, { s with counter := s.counter + 1 }.proceed id (.creating (tmpName s.pid s.counter) body))
  | .delete _ => if s.readOnly then (some .readOnly, s) else (none, s.proceed id .unlinking)
  | _ => (none, s)

/-- The next file operation of a request. -/
def operate (s : Server) (id : Nat) (request : Request) (outcome : Outcome) : Option Answer × Server :=
  match request, outcome with
  | .opening, .ok _ =>
    match s.disk.entries documentFileName with
    | some inode => (none, s.proceed id (.reading inode []))
    | none => (some .noContent, s.finish id)
  | .opening, _ => (some .readFailed, s.finish id)
  | .reading inode got, .ok amount =>
    let chunk := ((s.disk.contents inode).drop got.length).take (amount + 1)
    -- A read of nothing is the end of the file.
    if chunk = [] then (some (.document got), s.finish id)
    else (none, s.proceed id (.reading inode (got ++ chunk)))
  | .reading _ _, _ => (some .readFailed, s.finish id)
  | .creating tmp body, .ok _ =>
    let created := s.disk.create tmp
    (none, (s.withDisk created.2).proceed id (.writing tmp body created.1 0))
  | .creating tmp _, _ => (none, s.proceed id (.cleaning tmp))
  | .writing tmp body inode written, .ok amount =>
    let chunk := (body.drop written).take (amount + 1)
    -- Nothing left to write: the operation is the sync.
    if chunk = [] then (none, s.proceed id (.moving tmp body written))
    else (none, (s.withDisk (s.disk.write inode written chunk)).proceed id
      (.writing tmp body inode (written + chunk.length)))
  | .writing tmp body _ written, .failsUnheard =>
    if body.drop written = [] then (none, s.proceed id (.cleaning tmp))
    else (none, s.proceed id (.syncing tmp body written))
  | .writing tmp _ _ _, .fails => (none, s.proceed id (.cleaning tmp))
  | .syncing tmp body written, .ok _ => (none, s.proceed id (.moving tmp body written))
  | .syncing tmp _ _, _ => (none, s.proceed id (.cleaning tmp))
  | .moving tmp _ _, .ok _ =>
    match s.disk.rename tmp documentFileName with
    | some disk => (some .noContent, (s.withDisk disk).finish id)
    | none => (none, s.proceed id (.cleaning tmp))
  | .moving tmp _ _, _ => (none, s.proceed id (.cleaning tmp))
  | .cleaning tmp, .ok _ => (some .writeFailed, (s.withDisk ((s.disk.unlink tmp).getD s.disk)).finish id)
  | .cleaning _, _ => (some .writeFailed, s.finish id)
  | .unlinking, .ok _ =>
    (some .noContent, (s.withDisk ((s.disk.unlink documentFileName).getD s.disk)).finish id)
  | .unlinking, _ => (some .writeFailed, s.finish id)

/-- A request takes an id that none in flight has. -/
def step (s : Server) (event : Event) : Option Answer × Server :=
  match event with
  | .restart pid probe => (none, start s.disk pid probe)
  | .hangUp id => (none, s.finish id)
  | .operation id outcome =>
    match s.requests id with
    | some request => s.operate id request outcome
    | none => (none, s)
  | .get id | .put id _ | .delete id => if (s.requests id).isNone then s.arrive id event else (none, s)

end Server

end SparkDashboard.Store
