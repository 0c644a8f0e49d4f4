import Mathlib.Data.String.Basic
import SparkDashboard.Engines.EngineState
import SparkDashboard.Library.SortByKey
import SparkDashboard.Library.Stepping

/-!
# What an Ollama server has loaded

The list an Ollama engine carries in place of a model: what `/api/ps` listed when it last answered
with one, in the order of the names.
-/

namespace SparkDashboard.Engines

open Library Stepping

/-- A status code, and the code with its reason as it is shown. -/
structure HttpStatus where
  code : Nat
  display : String
  deriving DecidableEq

def statusOf (result : Except String HttpStatus) : EngineStatus :=
  match result with
  | .ok status => if isSuccess status.code then .running else .error ("HTTP " ++ status.display)
  | .error e => .error e

structure PsDetails where
  parameterSize : Option String := none
  quantizationLevel : Option String := none

/-- An entry of `/api/ps`. What Ollama leaves out is `none`. -/
structure PsModel where
  name : Option String := none
  model : Option String := none
  size : Option Int := none
  sizeVram : Option Int := none
  details : Option PsDetails := none
  expiresAt : Option String := none
  contextLength : Option Int := none

def present (s : Option String) : Option String := s.filter fun s => decide (trim s ≠ "")

def isZeroTime (timestamp : String) : Bool := "0001-01-01".toList.isPrefixOf timestamp.toList

/-- The bytes of an `i64`; what is negative is none. -/
def bytes (n : Option Int) : Nat := (n.getD 0).toNat

def loadedModel (entry : PsModel) : Option LoadedModel :=
  ((present entry.name).or (present entry.model)).map fun name =>
    let details := entry.details.getD {}
    { name
      parameterSize := present details.parameterSize
      quantization := present details.quantizationLevel
      sizeBytes := bytes entry.size
      vramBytes := bytes entry.sizeVram
      contextLength := (entry.contextLength.filter fun n => decide (0 < n ∧ n < 2 ^ 32)).map Int.toNat
      expiresAt := (present entry.expiresAt).filter fun t => !isZeroTime t }

/-- `/api/ps` answered: its status, and its body where it could be read. -/
structure PsAnswer where
  status : Nat
  text : Option String

section Adapter

variable (fromStr : String → Option (List PsModel))

/-- `fromStr` reads a body as `/api/ps`'s. -/
def parsePs (body : String) : Option (List LoadedModel) :=
  (fromStr body).map fun models => sortByKey LoadedModel.name (models.filterMap loadedModel)

def readPs (answer : Option PsAnswer) : Option (List LoadedModel) :=
  answer.bind fun response => if isSuccess response.status then response.text.bind (parsePs fromStr) else none

structure OllamaAdapter where
  loaded : List LoadedModel := []

def OllamaAdapter.refreshLoadedModels (a : OllamaAdapter) (answer : Option PsAnswer) : OllamaAdapter :=
  match readPs fromStr answer with
  | some models => { loaded := models }
  | none => a

/-- What an Ollama server answers on one poll tick. -/
structure OllamaPoll where
  version : Except String HttpStatus
  /-- `none` where `/api/ps` did not answer in time. -/
  ps : Option PsAnswer
  now : Instant

structure OllamaEngine where
  state : EngineState
  adapter : OllamaAdapter := {}

def OllamaPoll.success (poll : OllamaPoll) : Bool :=
  decide (statusOf poll.version = .running ∨ statusOf poll.version = .loading)

/-- The adapter's answers to a poll, and the adapter after it. It has no metric group and no model of
its own to give. -/
def OllamaAdapter.answers (a : OllamaAdapter) (poll : OllamaPoll) : Probe × OllamaAdapter :=
  let next := if poll.success then a.refreshLoadedModels fromStr poll.ps else a
  ({ health := statusOf poll.version, loadedModels := some next.loaded, now := poll.now }, next)

def OllamaEngine.poll (engine : OllamaEngine) (poll : OllamaPoll) : EngineSnapshot × OllamaEngine :=
  let (probe, adapter) := engine.adapter.answers fromStr poll
  let (snapshot, state) := engine.state.poll probe
  (snapshot, ⟨state, adapter⟩)

def OllamaEngine.new (endpoint : String) (deploymentMode : DeploymentMode) (now : Instant) : OllamaEngine :=
  { state := EngineState.new .ollama endpoint deploymentMode now }

end Adapter

section Entries

/-- What a model on the list can say: no empty text, no zero, no time that was not set. -/
structure Told (m : LoadedModel) : Prop where
  name : trim m.name ≠ ""
  parameterSize : ∀ s, m.parameterSize = some s → trim s ≠ ""
  quantization : ∀ s, m.quantization = some s → trim s ≠ ""
  contextLength : ∀ n, m.contextLength = some n → 0 < n ∧ n < 2 ^ 32
  expiresAt : ∀ t, m.expiresAt = some t → trim t ≠ "" ∧ isZeroTime t = false

theorem present_eq_some {s : Option String} {text : String} (h : present s = some text) : trim text ≠ "" := by
  rw [present, Option.filter_eq_some_iff] at h
  exact of_decide_eq_true h.2

theorem told_of_loadedModel {entry : PsModel} {m : LoadedModel} (h : loadedModel entry = some m) : Told m := by
  obtain ⟨name, hname, rfl⟩ := Option.map_eq_some_iff.mp h
  refine ⟨?_, fun s hs => present_eq_some hs, fun s hs => present_eq_some hs, ?_, ?_⟩
  · rcases Option.or_eq_some_iff.mp hname with hname | ⟨-, hname⟩
    · exact present_eq_some hname
    · exact present_eq_some hname
  · intro n hn
    obtain ⟨k, hk, rfl⟩ := Option.map_eq_some_iff.mp hn
    rw [Option.filter_eq_some_iff] at hk
    have hrange : 0 < k ∧ k < 2 ^ 32 := of_decide_eq_true hk.2
    omega
  · intro t ht
    have hfilter : (present entry.expiresAt).filter (fun t => !isZeroTime t) = some t := ht
    rw [Option.filter_eq_some_iff] at hfilter
    exact ⟨present_eq_some hfilter.1, (Bool.not_eq_true' _).mp hfilter.2⟩

end Entries

section Listings

variable {fromStr : String → Option (List PsModel)}

/-- A list as it is shown: each model of an entry that was listed, in the order of the names. -/
theorem parsePs_spec {body : String} {models : List LoadedModel} (h : parsePs fromStr body = some models) :
    (∀ m ∈ models, Told m) ∧ models.Pairwise (fun a b => a.name ≤ b.name) ∧
      ∃ entries, fromStr body = some entries ∧ ∀ m, m ∈ models ↔ ∃ entry ∈ entries, loadedModel entry = some m := by
  obtain ⟨entries, hentries, rfl⟩ := Option.map_eq_some_iff.mp h
  have hmem : ∀ m, m ∈ sortByKey LoadedModel.name (entries.filterMap loadedModel) ↔
      ∃ entry ∈ entries, loadedModel entry = some m := by
    intro m
    rw [mem_sortByKey, List.mem_filterMap]
  refine ⟨fun m hm => ?_, pairwise_sortByKey LoadedModel.name _, entries, hentries, hmem⟩
  obtain ⟨entry, -, hentry⟩ := (hmem m).mp hm
  exact told_of_loadedModel hentry

/-- Ollama lists the models in another order each time; the list shown stays in place. -/
theorem parsePs_of_perm {body body' : String} {entries entries' : List PsModel} (h : fromStr body = some entries)
    (h' : fromStr body' = some entries') (hperm : entries.Perm entries')
    (hdistinct : ((entries.filterMap loadedModel).map LoadedModel.name).Nodup) :
    parsePs fromStr body = parsePs fromStr body' := by
  rw [parsePs, parsePs, h, h', Option.map_some, Option.map_some,
    sortByKey_eq_of_perm LoadedModel.name (hperm.filterMap loadedModel) hdistinct]

variable (fromStr)

/-- The list a poll reads, where the server is up and gives one. -/
def listing (poll : OllamaPoll) : Option (List LoadedModel) :=
  if poll.success then readPs fromStr poll.ps else none

/-- The last list the polls have read, empty before the first. -/
def lastListing (polls : List OllamaPoll) : List LoadedModel := ((polls.filterMap (listing fromStr)).getLast?).getD []

theorem lastListing_concat (polls : List OllamaPoll) (poll : OllamaPoll) :
    lastListing fromStr (polls ++ [poll]) = (listing fromStr poll).getD (lastListing fromStr polls) := by
  rw [lastListing, List.filterMap_append, List.getLast?_append, lastListing]
  cases hlisting : listing fromStr poll with
  | none =>
    have hnothing : [poll].filterMap (listing fromStr) = [] := by rw [List.filterMap_cons_none hlisting]; rfl
    rw [hnothing]
    rfl
  | some models =>
    have hone : [poll].filterMap (listing fromStr) = [models] := by rw [List.filterMap_cons_some hlisting]; rfl
    rw [hone]
    rfl

theorem loaded_answers (a : OllamaAdapter) (poll : OllamaPoll) :
    (a.answers fromStr poll).2.loaded = (listing fromStr poll).getD a.loaded := by
  rw [OllamaAdapter.answers, listing]
  dsimp only
  split
  · rw [OllamaAdapter.refreshLoadedModels]
    cases readPs fromStr poll.ps <;> rfl
  · rfl

theorem lastListing_sound (polls : List OllamaPoll) :
    (∀ m ∈ lastListing fromStr polls, Told m) ∧
      (lastListing fromStr polls).Pairwise (fun a b => a.name ≤ b.name) := by
  rw [lastListing]
  cases hlast : (polls.filterMap (listing fromStr)).getLast? with
  | none =>
    refine ⟨?_, List.Pairwise.nil⟩
    intro m hm
    cases hm
  | some models =>
    obtain ⟨poll, -, hread⟩ := List.mem_filterMap.mp (List.mem_of_getLast? hlast)
    rw [listing] at hread
    split at hread
    · rw [readPs, Option.bind_eq_some_iff] at hread
      obtain ⟨response, -, hresponse⟩ := hread
      split at hresponse
      · obtain ⟨body, -, hparse⟩ := Option.bind_eq_some_iff.mp hresponse
        obtain ⟨htold, hsorted, -⟩ := parsePs_spec hparse
        exact ⟨htold, hsorted⟩
      · cases hresponse
    · cases hread

end Listings

section Runs

variable {fromStr : String → Option (List PsModel)}

theorem loading_ne_statusOf (version : Except String HttpStatus) : statusOf version ≠ .loading := by
  rw [statusOf.eq_def]
  cases version with
  | error e => exact EngineStatus.noConfusion
  | ok status =>
    dsimp only
    split
    · exact EngineStatus.noConfusion
    · exact EngineStatus.noConfusion

/-- An Ollama engine never has a model of its own, and is running or stopped. -/
structure Modelless (s : EngineState) : Prop where
  model : s.cachedModel = none
  metadataError : s.modelMetadataError = none
  status : s.status = .running ∨ s.status = .stopped

theorem Modelless.recordProbeResult {s : EngineState} (h : Modelless s) (success : Bool) (now : Instant) :
    Modelless (s.recordProbeResult success now) := by
  have hcache := s.modelCache_recordProbeResult success now
  have hnone : (s.recordProbeResult success now).cachedModel = none ∧
      (s.recordProbeResult success now).modelMetadataError = none := by
    split at hcache
    · exact ⟨congrArg Prod.fst hcache, congrArg (fun c => c.2.1) hcache⟩
    · exact ⟨(congrArg Prod.fst hcache).trans h.model, (congrArg (fun c => c.2.1) hcache).trans h.metadataError⟩
  refine ⟨hnone.1, hnone.2, ?_⟩
  cases success with
  | true => exact .inl rfl
  | false =>
    have hgrace := congrArg (fun g => g.2.1) (s.grace_recordProbeResult_false now)
    dsimp only [EngineState.grace] at hgrace
    rw [hgrace]
    split
    · exact .inr rfl
    · exact h.status

theorem Modelless.refreshModel {s : EngineState} (h : Modelless s) (status : EngineStatus) {probe : Probe}
    (hprobe : probe.modelInfo = {}) : Modelless (s.refreshModel status probe) := by
  rw [EngineState.refreshModel]
  split
  · rw [hprobe]
    exact ⟨h.model, rfl, h.status⟩
  · exact h

/-- What is kept of an Ollama engine after the polls. -/
structure FollowsPs (fromStr : String → Option (List PsModel)) (key : EngineType × String) (polls : List OllamaPoll)
    (engine : OllamaEngine) : Prop where
  loaded : engine.adapter.loaded = lastListing fromStr polls
  modelless : Modelless engine.state
  key : engine.state.key = key

/-- The snapshot of an Ollama engine after the polls. -/
structure ShowsPs (fromStr : String → Option (List PsModel)) (key : EngineType × String) (polls : List OllamaPoll)
    (snapshot : EngineSnapshot) : Prop where
  loadedModels : snapshot.loadedModels = some (lastListing fromStr polls)
  key : (snapshot.engineType, snapshot.endpoint) = key
  status : snapshot.status = .running ∨ snapshot.status = .stopped
  model : snapshot.model = none ∧ snapshot.modelMetadataError = none
  metrics : snapshot.metrics = none ∧ snapshot.metricGroups = ∅ ∧ snapshot.metricsOff = none ∧
    snapshot.metricsError = none

theorem FollowsPs.poll {key : EngineType × String} {polls : List OllamaPoll} {engine : OllamaEngine}
    (h : FollowsPs fromStr key polls engine) (poll : OllamaPoll) :
    FollowsPs fromStr key (polls ++ [poll]) (engine.poll fromStr poll).2 ∧
      ShowsPs fromStr key (polls ++ [poll]) (engine.poll fromStr poll).1 := by
  have hloaded : (engine.adapter.answers fromStr poll).2.loaded = lastListing fromStr (polls ++ [poll]) := by
    rw [loaded_answers, h.loaded, lastListing_concat]
  generalize hprobe : (engine.adapter.answers fromStr poll).1 = probe
  have hshown : probe.loadedModels = some (lastListing fromStr (polls ++ [poll])) := by
    rw [← hprobe, ← hloaded]
    rfl
  have hhealth : probe.health = statusOf poll.version := by rw [← hprobe]; rfl
  have hnothing : probe.modelInfo = {} ∧ probe.metrics = none ∧ probe.metricGroups = ∅ ∧ probe.metricsOff = false ∧
      probe.metricsError = none := by
    rw [← hprobe]
    exact ⟨rfl, rfl, rfl, rfl, rfl⟩
  obtain ⟨hinfo, hmetrics, hgroups, hoff, herror⟩ := hnothing
  have hrecorded := h.modelless.recordProbeResult probe.success probe.now
  have hkept : Modelless (engine.state.poll probe).2 := hrecorded.refreshModel _ hinfo
  have hpoll : engine.poll fromStr poll =
      ((engine.state.poll probe).1, ⟨(engine.state.poll probe).2, (engine.adapter.answers fromStr poll).2⟩) := by
    rw [← hprobe]
    rfl
  rw [hpoll]
  refine ⟨⟨hloaded, hkept, (engine.state.key_poll probe).trans h.key⟩, hshown,
    (engine.state.key_snapshot_poll probe).trans h.key, ?_, ⟨hkept.model, hkept.metadataError⟩, ?_⟩
  · show (if probe.success then probe.health else (engine.state.recordProbeResult probe.success probe.now).status) = _ ∨
      (if probe.success then probe.health else (engine.state.recordProbeResult probe.success probe.now).status) = _
    cases hsuccess : probe.success with
    | false =>
      rw [hsuccess] at hrecorded
      exact hrecorded.status
    | true =>
      rcases of_decide_eq_true hsuccess with hrunning | hloading
      · exact .inl hrunning
      · exact absurd (hhealth.symm.trans hloading) (loading_ne_statusOf poll.version)
  · rw [EngineState.poll, EngineState.snapshot]
    dsimp only
    rw [hmetrics, hgroups, hoff, herror, ite_self, ite_self]
    exact ⟨rfl, rfl, if_neg fun hrefused => Bool.false_ne_true hrefused.2, rfl⟩

/-- Over a run of polls: the models an Ollama engine shows are those `/api/ps` last listed to a poll the
server answered, whatever polls went unanswered since; a list is the same whatever order it comes in. -/
theorem loaded_models_follow_ps (fromStr : String → Option (List PsModel)) (endpoint : String)
    (deploymentMode : DeploymentMode) (started : Instant) (polls : List OllamaPoll) :
    (∀ earlier e later,
      trace (OllamaEngine.poll fromStr) (.new endpoint deploymentMode started) polls = earlier ++ e :: later →
        ShowsPs fromStr (.ollama, endpoint) (earlier.map Entry.input ++ [e.input]) e.output ∧
        (∀ m ∈ lastListing fromStr (earlier.map Entry.input ++ [e.input]), Told m) ∧
        (lastListing fromStr (earlier.map Entry.input ++ [e.input])).Pairwise fun a b => a.name ≤ b.name) ∧
    (∀ body models, parsePs fromStr body = some models → ∃ entries, fromStr body = some entries ∧
      ∀ m, m ∈ models ↔ ∃ entry ∈ entries, loadedModel entry = some m) ∧
    ∀ body body' entries entries', fromStr body = some entries → fromStr body' = some entries' →
      entries.Perm entries' → ((entries.filterMap loadedModel).map LoadedModel.name).Nodup →
        parsePs fromStr body = parsePs fromStr body' := by
  refine ⟨?_, fun _ _ h => (parsePs_spec h).2.2, ?_⟩
  · intro earlier e later hrun
    obtain ⟨htold, hsorted⟩ := lastListing_sound fromStr (earlier.map Entry.input ++ [e.input])
    refine ⟨?_, htold, hsorted⟩
    have hstart : FollowsPs fromStr (.ollama, endpoint) [] (OllamaEngine.new endpoint deploymentMode started) :=
      ⟨rfl, ⟨rfl, rfl, .inl rfl⟩, rfl⟩
    refine forall_split_trace
      (fun past engine (_ : List OllamaPoll) => FollowsPs fromStr (.ollama, endpoint) (past.map Entry.input) engine)
      (fun past e => ShowsPs fromStr (.ollama, endpoint) (past.map Entry.input ++ [e.input]) e.output)
      ?_ ?_ [] hstart earlier e later hrun
    · intro past engine poll rest hpast
      rw [List.map_append]
      exact (hpast.poll poll).1
    · intro past engine poll rest hpast
      exact (hpast.poll poll).2
  · intro body body' entries entries' h h' hperm hdistinct
    exact parsePs_of_perm h h' hperm hdistinct

end Runs

end SparkDashboard.Engines
