import SparkDashboard.Engines.Detector
import SparkDashboard.Engines.ProcessLaunch
import SparkDashboard.Library.Worklist

/-!
# Engines among the processes of the host

A candidate begins with its roots, the processes whose launch names its endpoint, and takes
all their descendants. The descendants of a server that runs servers of its own are roots of
nothing.
-/

namespace SparkDashboard.Engines

open SparkDashboard.Library Chars DetectedEngine

def childrenOf (tree : List (Nat × Option Nat)) (parent : Nat) : List Nat :=
  tree.filterMap fun item => if item.2 = some parent then some item.1 else none

/-- The roots and all their descendants, sorted. -/
def expandPidTree (roots : List Nat) (tree : List (Nat × Option Nat)) : List Nat :=
  ((Worklist.start roots).search (childrenOf tree) (roots.length + tree.length)).seen.insertionSort (· ≤ ·)

def ownsItsDescendants (engineType : EngineType) : Bool := decide (engineType = .ollama ∨ engineType = .llamaCpp)

def processTree (processes : List HostProcess) : List (Nat × Option Nat) := processes.map fun p => (p.pid, p.parent)

def ownerPids (processes : List HostProcess) : List Nat :=
  (processes.filter fun p => (engineOfProcess p.cmd).any ownsItsDescendants).map HostProcess.pid

def ownersChildren (processes : List HostProcess) : List Nat :=
  (processes.filter fun p => p.parent.any fun parent => (ownerPids processes).contains parent).map HostProcess.pid

def ownedPids (processes : List HostProcess) : List Nat :=
  expandPidTree (ownersChildren processes) (processTree processes)

def newCandidate (engineType : EngineType) (server : LaunchedServer) (pid : Nat) : DetectedEngine where
  engineType
  endpoint := String.ofList server.endpoint
  deploymentMode := .native
  servedModel := server.servedModel.map String.ofList
  pids := [pid]
  containerId := none
  fallbackEndpoints := server.fallbackEndpoints.map String.ofList

/-- The process joins the candidate on its endpoint, or is one. -/
def addRoot (engineType : EngineType) (server : LaunchedServer) (pid : Nat) : List DetectedEngine → List DetectedEngine
  | [] => [newCandidate engineType server pid]
  | existing :: rest =>
    if existing.key = (engineType, String.ofList server.endpoint) then
      { existing with pids := existing.pids ++ [pid] } :: rest
    else existing :: addRoot engineType server pid rest

variable {ε : Type}

def scanProcess (envOf : EnvOf ε) (owned : List Nat) (detected : List DetectedEngine) (process : HostProcess) :
    List DetectedEngine :=
  if process.pid ∈ owned then detected
  else
    match engineOfProcess process.cmd with
    | none => detected
    | some engineType =>
      match launchOf envOf process engineType with
      | none => detected
      | some server => addRoot engineType server process.pid detected

/-- The candidates with their roots only. -/
def rootedCandidates (processes : List HostProcess) (envOf : EnvOf ε) : List DetectedEngine :=
  processes.foldl (scanProcess envOf (ownedPids processes)) []

def withDescendants (processes : List HostProcess) (candidate : DetectedEngine) : DetectedEngine :=
  { candidate with pids := expandPidTree candidate.pids (processTree processes) }

def enginesFromProcesses (processes : List HostProcess) (envOf : EnvOf ε) : List DetectedEngine :=
  (rootedCandidates processes envOf).map (withDescendants processes)

/-- The second process was started by the first. -/
def ParentOf (processes : List HostProcess) (parent child : Nat) : Prop :=
  ∃ process ∈ processes, process.pid = child ∧ process.parent = some parent

/-- A proper descendant of an Ollama or llama.cpp server. -/
def DescendsFromServer (processes : List HostProcess) (pid : Nat) : Prop :=
  ∃ server ∈ processes,
    (engineOfProcess server.cmd = some .ollama ∨ engineOfProcess server.cmd = some .llamaCpp) ∧
    Relation.TransGen (ParentOf processes) server.pid pid

/-- The table gives the second process the first as its parent. -/
def Edge (tree : List (Nat × Option Nat)) (parent child : Nat) : Prop := (child, some parent) ∈ tree

theorem mem_childrenOf {tree : List (Nat × Option Nat)} {parent child : Nat} :
    child ∈ childrenOf tree parent ↔ Edge tree parent child := by
  rw [childrenOf, List.mem_filterMap]
  constructor
  · rintro ⟨⟨pid, parentPid⟩, hitem, hchild⟩
    split at hchild
    · rename_i hparent
      obtain rfl : parentPid = some parent := hparent
      obtain rfl : pid = child := Option.some.inj hchild
      exact hitem
    · cases hchild
  · intro hedge
    exact ⟨(child, some parent), hedge, if_pos rfl⟩

/-- Every child is a row of the table, so the table's length bounds the search. -/
theorem childrenOf_carrier (tree : List (Nat × Option Nat)) (parent : Nat) :
    ∀ child ∈ childrenOf tree parent, child ∈ tree.map Prod.fst :=
  fun _ hchild => List.mem_map_of_mem (mem_childrenOf.mp hchild)

theorem mem_expandPidTree_iff_edge {tree : List (Nat × Option Nat)} {roots : List Nat} {pid : Nat} :
    pid ∈ expandPidTree roots tree ↔ ∃ root ∈ roots, Relation.ReflTransGen (Edge tree) root pid := by
  have hreaches : Worklist.Reaches (childrenOf tree) = Relation.ReflTransGen (Edge tree) := by
    rw [Worklist.Reaches]
    congr 1
    funext parent child
    exact propext mem_childrenOf
  have hsearch := Worklist.mem_search (childrenOf_carrier tree) roots (x := pid)
  rw [List.length_map, hreaches] at hsearch
  rw [expandPidTree, (List.perm_insertionSort _ _).mem_iff]
  exact hsearch

theorem edge_processTree (processes : List HostProcess) : Edge (processTree processes) = ParentOf processes := by
  funext parent child
  rw [Edge, processTree, ParentOf, List.mem_map]
  simp only [Prod.mk.injEq]

theorem mem_expandPidTree {processes : List HostProcess} {roots : List Nat} {pid : Nat} :
    pid ∈ expandPidTree roots (processTree processes) ↔
      ∃ root ∈ roots, Relation.ReflTransGen (ParentOf processes) root pid := by
  rw [mem_expandPidTree_iff_edge, edge_processTree]

/-- Sorted, and each PID once. -/
theorem pairwise_expandPidTree (roots : List Nat) (tree : List (Nat × Option Nat)) :
    (expandPidTree roots tree).Pairwise (· < ·) := by
  have hnodup : (expandPidTree roots tree).Nodup :=
    (List.perm_insertionSort _ _).nodup_iff.mpr (Worklist.nodup_search _ _ _)
  have hsorted : (expandPidTree roots tree).Pairwise (· ≤ ·) := List.pairwise_insertionSort _ _
  exact hsorted.imp₂ (fun _ _ hle hne => Nat.lt_of_le_of_ne hle hne) hnodup

/-- The loop ends on every table, cyclic or not, and what it returns is what the roots reach. -/
theorem expandPidTree_spec (roots : List Nat) (tree : List (Nat × Option Nat)) :
    (∀ fuel, roots.length + tree.length ≤ fuel →
      ((Worklist.start roots).search (childrenOf tree) fuel).queue = [] ∧
      ((Worklist.start roots).search (childrenOf tree) fuel).seen.insertionSort (· ≤ ·) = expandPidTree roots tree) ∧
    (expandPidTree roots tree).Pairwise (· < ·) ∧
    ∀ pid, pid ∈ expandPidTree roots tree ↔ ∃ root ∈ roots, Relation.ReflTransGen (Edge tree) root pid := by
  refine ⟨?_, pairwise_expandPidTree roots tree, fun _ => mem_expandPidTree_iff_edge⟩
  intro fuel hfuel
  have hpending : Worklist.pending (tree.map Prod.fst) (Worklist.start roots) ≤ roots.length + tree.length := by
    have hstart := Worklist.pending_start_le (tree.map Prod.fst) roots
    rwa [List.length_map] at hstart
  have hempty := Worklist.queue_search (childrenOf_carrier tree) hpending
  rw [Worklist.search_of_le hempty hfuel]
  exact ⟨hempty, rfl⟩

/-- Two processes that are each other's children. -/
theorem expandPidTree_spec_looped :
    ((Worklist.start [1]).search (childrenOf [(1, some 2), (2, some 1)]) 3).queue = [] ∧
      ((Worklist.start [1]).search (childrenOf [(1, some 2), (2, some 1)]) 3).seen.insertionSort (· ≤ ·) =
        expandPidTree [1] [(1, some 2), (2, some 1)] :=
  (expandPidTree_spec [1] [(1, some 2), (2, some 1)]).1 3 (by decide)

theorem mem_ownerPids {processes : List HostProcess} {pid : Nat} :
    pid ∈ ownerPids processes ↔ ∃ server ∈ processes,
      (engineOfProcess server.cmd = some .ollama ∨ engineOfProcess server.cmd = some .llamaCpp) ∧ server.pid = pid := by
  rw [ownerPids, List.mem_map]
  constructor
  · rintro ⟨server, hserver, hpid⟩
    obtain ⟨hmem, howns⟩ := List.mem_filter.mp hserver
    obtain ⟨engineType, hengine, howns⟩ := (Option.any_eq_true _ _).mp howns
    refine ⟨server, hmem, ?_, hpid⟩
    rw [hengine, Option.some_inj, Option.some_inj]
    exact of_decide_eq_true howns
  · rintro ⟨server, hserver, hengine, hpid⟩
    refine ⟨server, List.mem_filter.mpr ⟨hserver, ?_⟩, hpid⟩
    rcases hengine with hengine | hengine
    · rw [hengine]
      rfl
    · rw [hengine]
      rfl

theorem mem_ownersChildren {processes : List HostProcess} {pid : Nat} :
    pid ∈ ownersChildren processes ↔ ∃ parent ∈ ownerPids processes, ParentOf processes parent pid := by
  rw [ownersChildren, List.mem_map]
  constructor
  · rintro ⟨process, hprocess, hpid⟩
    obtain ⟨hmem, howned⟩ := List.mem_filter.mp hprocess
    obtain ⟨parent, hparent, howner⟩ := (Option.any_eq_true _ _).mp howned
    exact ⟨parent, List.contains_iff_mem.mp howner, process, hmem, hpid, hparent⟩
  · rintro ⟨parent, howner, process, hprocess, hpid, hparent⟩
    refine ⟨process, List.mem_filter.mpr ⟨hprocess, ?_⟩, hpid⟩
    rw [hparent]
    exact List.contains_iff_mem.mpr howner

/-- Owned processes are those below a server that owns its descendants. -/
theorem mem_ownedPids {processes : List HostProcess} {pid : Nat} :
    pid ∈ ownedPids processes ↔ DescendsFromServer processes pid := by
  rw [ownedPids, mem_expandPidTree]
  constructor
  · rintro ⟨child, hchild, hpath⟩
    obtain ⟨parent, howner, hparent⟩ := mem_ownersChildren.mp hchild
    obtain ⟨server, hserver, hengine, rfl⟩ := mem_ownerPids.mp howner
    exact ⟨server, hserver, hengine, Relation.TransGen.head' hparent hpath⟩
  · rintro ⟨server, hserver, hengine, hpath⟩
    obtain ⟨child, hparent, hpath⟩ := Relation.TransGen.head'_iff.mp hpath
    have howner : server.pid ∈ ownerPids processes := mem_ownerPids.mpr ⟨server, hserver, hengine, rfl⟩
    exact ⟨child, mem_ownersChildren.mpr ⟨server.pid, howner, hparent⟩, hpath⟩

/-- The process is a root of a candidate on this endpoint. -/
def RootAt (detected : List DetectedEngine) (key : EngineKey) (pid : Nat) : Prop :=
  ∃ c ∈ detected, c.key = key ∧ pid ∈ c.pids

/-- The launch of the process is of this engine type and names this endpoint. -/
def LaunchesAt (envOf : EnvOf ε) (process : HostProcess) (key : EngineKey) : Prop :=
  ∃ engineType server, engineOfProcess process.cmd = some engineType ∧
    launchOf envOf process engineType = some server ∧ key = (engineType, String.ofList server.endpoint)

theorem launchesAt_iff {envOf : EnvOf ε} {process : HostProcess} {engineType : EngineType} {server : LaunchedServer}
    (hengine : engineOfProcess process.cmd = some engineType) (hlaunch : launchOf envOf process engineType = some server)
    {key : EngineKey} : LaunchesAt envOf process key ↔ key = (engineType, String.ofList server.endpoint) := by
  constructor
  · rintro ⟨engineType', server', hother, hserver, hkey⟩
    obtain rfl : engineType = engineType' := Option.some.inj (hengine.symm.trans hother)
    obtain rfl : server = server' := Option.some.inj (hlaunch.symm.trans hserver)
    exact hkey
  · exact fun hkey => ⟨engineType, server, hengine, hlaunch, hkey⟩

/-- A process is left out, or becomes a root on the endpoint of its launch. -/
theorem scanProcess_cases (envOf : EnvOf ε) (owned : List Nat) (detected : List DetectedEngine) (process : HostProcess) :
    (scanProcess envOf owned detected process = detected ∧
      ∀ key, process.pid ∉ owned → ¬LaunchesAt envOf process key) ∨
    ∃ engineType server, scanProcess envOf owned detected process = addRoot engineType server process.pid detected ∧
      process.pid ∉ owned ∧
      ∀ key, LaunchesAt envOf process key ↔ key = (engineType, String.ofList server.endpoint) := by
  rw [scanProcess]
  split
  · rename_i howned
    exact .inl ⟨rfl, fun _ hfree => absurd howned hfree⟩
  · rename_i hfree
    split
    · rename_i hengine
      refine .inl ⟨rfl, ?_⟩
      rintro key _ ⟨engineType, server, hother, _⟩
      cases hengine.symm.trans hother
    · rename_i engineType hengine
      split
      · rename_i hlaunch
        refine .inl ⟨rfl, ?_⟩
        rintro key _ ⟨engineType', server, hother, hserver, _⟩
        obtain rfl : engineType = engineType' := Option.some.inj (hengine.symm.trans hother)
        cases hlaunch.symm.trans hserver
      · rename_i server hlaunch
        exact .inr ⟨engineType, server, rfl, hfree, fun _ => launchesAt_iff hengine hlaunch⟩

theorem rootAt_cons {c : DetectedEngine} {detected : List DetectedEngine} {key : EngineKey} {pid : Nat} :
    RootAt (c :: detected) key pid ↔ (c.key = key ∧ pid ∈ c.pids) ∨ RootAt detected key pid := by
  simp only [RootAt, List.mem_cons, exists_eq_or_imp]

theorem rootAt_addRoot {engineType : EngineType} {server : LaunchedServer} {pid other : Nat}
    {detected : List DetectedEngine} {key : EngineKey} :
    RootAt (addRoot engineType server pid detected) key other ↔
      RootAt detected key other ∨ (key = (engineType, String.ofList server.endpoint) ∧ other = pid) := by
  induction detected with
  | nil =>
    rw [addRoot, rootAt_cons, or_comm]
    have hnew : (newCandidate engineType server pid).key = key ↔ key = (engineType, String.ofList server.endpoint) :=
      eq_comm
    rw [hnew]
    simp [newCandidate]
  | cons existing rest ih =>
    rw [addRoot]
    split
    · rename_i hkey
      have hpushed : ({ existing with pids := existing.pids ++ [pid] } : DetectedEngine).key = existing.key := rfl
      rw [rootAt_cons, rootAt_cons, hpushed, hkey, List.mem_append, List.mem_singleton]
      constructor
      · rintro (⟨rfl, hother | rfl⟩ | hrest)
        · exact .inl (.inl ⟨rfl, hother⟩)
        · exact .inr ⟨rfl, rfl⟩
        · exact .inl (.inr hrest)
      · rintro ((⟨rfl, hother⟩ | hrest) | ⟨rfl, rfl⟩)
        · exact .inl ⟨rfl, .inl hother⟩
        · exact .inr hrest
        · exact .inl ⟨rfl, .inr rfl⟩
    · rw [rootAt_cons, rootAt_cons, ih, or_assoc]

theorem map_key_addRoot (engineType : EngineType) (server : LaunchedServer) (pid : Nat)
    (detected : List DetectedEngine) :
    (addRoot engineType server pid detected).map key =
      (joinOnEndpoint detected (newCandidate engineType server pid)).map key := by
  induction detected with
  | nil => rfl
  | cons existing rest ih =>
    have hkey : (newCandidate engineType server pid).key = (engineType, String.ofList server.endpoint) := rfl
    rw [addRoot, joinOnEndpoint, hkey]
    split
    · rfl
    · rw [List.map_cons, List.map_cons, ih]

theorem rootAt_scanProcess {envOf : EnvOf ε} {owned : List Nat} {detected : List DetectedEngine}
    {process : HostProcess} {key : EngineKey} {pid : Nat} :
    RootAt (scanProcess envOf owned detected process) key pid ↔
      RootAt detected key pid ∨ (process.pid = pid ∧ pid ∉ owned ∧ LaunchesAt envOf process key) := by
  rcases scanProcess_cases envOf owned detected process with ⟨hsame, hnone⟩ | ⟨engineType, server, hadd, hfree, hkey⟩
  · have hleft : ¬(process.pid = pid ∧ pid ∉ owned ∧ LaunchesAt envOf process key) := by
      rintro ⟨rfl, hfree, hlaunches⟩
      exact hnone key hfree hlaunches
    rw [hsame, or_iff_left hleft]
  · rw [hadd, rootAt_addRoot, hkey]
    apply or_congr_right
    constructor
    · rintro ⟨heq, rfl⟩
      exact ⟨rfl, hfree, heq⟩
    · rintro ⟨rfl, _, heq⟩
      exact ⟨heq, rfl⟩

theorem rootAt_foldl {envOf : EnvOf ε} {owned : List Nat} {processes : List HostProcess}
    {detected : List DetectedEngine} {key : EngineKey} {pid : Nat} :
    RootAt (processes.foldl (scanProcess envOf owned) detected) key pid ↔
      RootAt detected key pid ∨
        ∃ process ∈ processes, process.pid = pid ∧ pid ∉ owned ∧ LaunchesAt envOf process key := by
  induction processes generalizing detected with
  | nil => simp
  | cons process processes ih =>
    rw [List.foldl_cons, ih, rootAt_scanProcess, or_assoc]
    simp only [List.mem_cons, exists_eq_or_imp]

theorem distinctKeys_scanProcess {envOf : EnvOf ε} {owned : List Nat} {detected : List DetectedEngine}
    (h : DistinctKeys detected) (process : HostProcess) : DistinctKeys (scanProcess envOf owned detected process) := by
  rcases scanProcess_cases envOf owned detected process with ⟨hsame, _⟩ | ⟨engineType, server, hadd, _⟩
  · rw [hsame]
    exact h
  · rw [hadd, DistinctKeys, map_key_addRoot]
    exact distinctKeys_joinOnEndpoint h _

theorem distinctKeys_foldl {envOf : EnvOf ε} {owned : List Nat} {processes : List HostProcess}
    {detected : List DetectedEngine} (h : DistinctKeys detected) :
    DistinctKeys (processes.foldl (scanProcess envOf owned) detected) := by
  induction processes generalizing detected with
  | nil => exact h
  | cons process processes ih => exact ih (distinctKeys_scanProcess h process)

theorem rootAt_rootedCandidates {envOf : EnvOf ε} {processes : List HostProcess} {key : EngineKey} {pid : Nat} :
    RootAt (rootedCandidates processes envOf) key pid ↔
      ∃ process ∈ processes, process.pid = pid ∧ ¬DescendsFromServer processes pid ∧ LaunchesAt envOf process key := by
  have hnil : ¬RootAt [] key pid := by
    rintro ⟨c, hc, _⟩
    cases hc
  rw [rootedCandidates, rootAt_foldl, or_iff_right hnil, mem_ownedPids]

theorem eq_of_pid_eq {processes : List HostProcess} (hdistinct : (processes.map HostProcess.pid).Nodup)
    {process other : HostProcess} (hprocess : process ∈ processes) (hother : other ∈ processes)
    (h : process.pid = other.pid) : process = other :=
  List.inj_on_of_nodup_map hdistinct hprocess hother h

/-- A process is a root on one endpoint. -/
theorem key_unique {envOf : EnvOf ε} {processes : List HostProcess}
    (hdistinct : (processes.map HostProcess.pid).Nodup) {key other : EngineKey} {pid : Nat}
    (hkey : RootAt (rootedCandidates processes envOf) key pid)
    (hother : RootAt (rootedCandidates processes envOf) other pid) : key = other := by
  obtain ⟨process, hprocess, hpid, _, hlaunches⟩ := rootAt_rootedCandidates.mp hkey
  obtain ⟨process', hprocess', hpid', _, hlaunches'⟩ := rootAt_rootedCandidates.mp hother
  obtain rfl := eq_of_pid_eq hdistinct hprocess hprocess' (hpid.trans hpid'.symm)
  obtain ⟨engineType, server, hengine, hlaunch, rfl⟩ := hlaunches
  exact ((launchesAt_iff hengine hlaunch).mp hlaunches').symm

theorem distinctKeys_rootedCandidates (processes : List HostProcess) (envOf : EnvOf ε) :
    DistinctKeys (rootedCandidates processes envOf) := distinctKeys_foldl List.nodup_nil

theorem enginesFromProcesses_spec {processes : List HostProcess}
    (hdistinct : (processes.map HostProcess.pid).Nodup) (envOf : EnvOf ε) :
    DistinctKeys (enginesFromProcesses processes envOf) ∧
    (∀ c ∈ rootedCandidates processes envOf, ∀ root ∈ c.pids, ¬DescendsFromServer processes root) ∧
    (∀ process ∈ processes, ∀ engineType, engineOfProcess process.cmd = some engineType →
      ¬DescendsFromServer processes process.pid → NamesEndpoint envOf process engineType →
      ∃ server, launchOf envOf process engineType = some server ∧
        ∃ c ∈ rootedCandidates processes envOf, process.pid ∈ c.pids ∧
          c.key = (engineType, String.ofList server.endpoint) ∧
          ∀ other ∈ rootedCandidates processes envOf, process.pid ∈ other.pids → other = c) ∧
    List.Forall₂ (fun c engine => engine.key = c.key ∧ engine.pids.Pairwise (· < ·) ∧
        ∀ pid, pid ∈ engine.pids ↔ ∃ root ∈ c.pids, Relation.ReflTransGen (ParentOf processes) root pid)
      (rootedCandidates processes envOf) (enginesFromProcesses processes envOf) := by
  refine ⟨?_, ?_, ?_, ?_⟩
  · have hkeys : (enginesFromProcesses processes envOf).map key = (rootedCandidates processes envOf).map key := by
      rw [enginesFromProcesses, List.map_map]
      rfl
    rw [DistinctKeys, hkeys]
    exact distinctKeys_rootedCandidates processes envOf
  · intro c hc root hroot
    obtain ⟨process, _, _, hfree, _⟩ := rootAt_rootedCandidates.mp ⟨c, hc, rfl, hroot⟩
    exact hfree
  · intro process hprocess engineType hengine hfree hnames
    obtain ⟨server, hserver⟩ := Option.isSome_iff_exists.mp ((isSome_launchOf_iff envOf process engineType).mpr hnames)
    have hroot : RootAt (rootedCandidates processes envOf) (engineType, String.ofList server.endpoint) process.pid :=
      rootAt_rootedCandidates.mpr ⟨process, hprocess, rfl, hfree, engineType, server, hengine, hserver, rfl⟩
    obtain ⟨c, hc, hkey, hpid⟩ := hroot
    refine ⟨server, hserver, c, hc, hpid, hkey, ?_⟩
    intro other hother hpid'
    have heq : other.key = c.key := key_unique hdistinct ⟨other, hother, rfl, hpid'⟩ ⟨c, hc, rfl, hpid⟩
    exact List.inj_on_of_nodup_map (distinctKeys_rootedCandidates processes envOf) hother hc heq
  · rw [enginesFromProcesses, List.forall₂_map_right_iff, List.forall₂_same]
    exact fun c _ => ⟨rfl, pairwise_expandPidTree c.pids (processTree processes), fun pid => mem_expandPidTree⟩

/-- Arguments as the operating system holds them. -/
def osStrings (args : List String) : List OsString := args.map fun arg => arg.toList.flatMap String.utf8EncodeChar

theorem enginesFromProcesses_spec_runner :
    ∃ c ∈ rootedCandidates
        [⟨10, none, osStrings ["ollama", "serve"]⟩, ⟨11, some 10, osStrings ["llama-server", "--port", "4000"]⟩]
        (fun _ _ => (.ok none : Except Unit (Option Text))),
      10 ∈ c.pids ∧ c.key = (.ollama, "http://127.0.0.1:11434") := by
  have hspec := @enginesFromProcesses_spec Unit
    [⟨10, none, osStrings ["ollama", "serve"]⟩, ⟨11, some 10, osStrings ["llama-server", "--port", "4000"]⟩]
    (by decide) (fun _ _ => .ok none)
  have hfree : ¬DescendsFromServer
      [⟨10, none, osStrings ["ollama", "serve"]⟩, ⟨11, some 10, osStrings ["llama-server", "--port", "4000"]⟩] 10 :=
    fun h => absurd (mem_ownedPids.mpr h) (by decide +kernel)
  have hengine : engineOfProcess (osStrings ["ollama", "serve"]) = some .ollama := by decide +kernel
  obtain ⟨server, hserver, c, hc, hpid, hkey, _⟩ :=
    hspec.2.2.1 _ List.mem_cons_self .ollama hengine hfree fun h => absurd h (by decide)
  refine ⟨c, hc, hpid, hkey.trans ?_⟩
  have hendpoint : server.endpoint = (OllamaHost.fromEnv none).endpoint :=
    (congrArg LaunchedServer.endpoint (Option.some.inj hserver)).symm
  rw [hendpoint]
  decide +kernel

end SparkDashboard.Engines
