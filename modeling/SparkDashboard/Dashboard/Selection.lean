import SparkDashboard.Browser.EngineAggregate
import SparkDashboard.Dashboard.Bindings

/-!
# What a panel shows on a host

A binding resolved against the targets of one snapshot. A panel that follows takes the
page's selection: the session's choice, else the page's source, else the host's default.
-/

namespace SparkDashboard.Dashboard

open Browser Utf16

inductive BindingResolution (α : Type*) where
  | resolved (target : α)
  | missing (requested : Utf16)
  | unselected
  | unreadable
  deriving DecidableEq

inductive EngineBindingResolution (α : Type*) where
  | single (resolution : BindingResolution α)
  | aggregate
  deriving DecidableEq

inductive PageEngineTarget where
  | engine (endpoint : Utf16)
  | all
  deriving DecidableEq

structure PageSelection where
  gpuIndex : Option JsNumber
  engineTarget : Option PageEngineTarget
  deriving DecidableEq

/-- What the page was pointed at in this session. -/
structure SelectedTargets where
  gpuIndex : Option JsNumber := none
  engineTarget : Option PageEngineTarget := none
  deriving DecidableEq

section Identity

variable {α : Type*}

/-- An empty endpoint names no engine. -/
def findEngineByEndpoint (endpointOf : α → Utf16) (engines : List α) (endpoint : Utf16) : Option α :=
  if endpoint = [] then none else engines.find? fun engine => decide (endpointOf engine = endpoint)

def findGpuByIndex (indexOf : α → JsNumber) (gpus : List α) (index : JsNumber) : Option α :=
  gpus.find? fun gpu => decide (indexOf gpu = index)

def gpuNumber (gpu : GpuMetrics) : JsNumber := JsNumber.ofNat (gpuIndexOf gpu).toNat

end Identity

section Resolution

variable {α : Type*}

def gpuAt (indexOf : α → JsNumber) (gpus : List α) (index : JsNumber) : BindingResolution α :=
  match findGpuByIndex indexOf gpus index with
  | some target => .resolved target
  | none => .missing (utf16 "GPU " ++ index.toText)

def resolveGpuBinding (indexOf : α → JsNumber) (binding : PanelBinding) (gpus : List α)
    (pageGpuIndex : Option JsNumber) : BindingResolution α :=
  match binding with
  | .unreadable => .unreadable
  | .engine _ => .unreadable
  | .gpu index => gpuAt indexOf gpus index
  | .follow =>
    match pageGpuIndex with
    | none => .unselected
    | some index => if gpus.isEmpty then .unselected else gpuAt indexOf gpus index

def engineAt (endpointOf : α → Utf16) (engines : List α) (endpoint : Utf16) : BindingResolution α :=
  if endpoint = [] then .unselected
  else
    match findEngineByEndpoint endpointOf engines endpoint with
    | some target => .resolved target
    | none => .missing endpoint

def resolveEngineBinding (endpointOf : α → Utf16) (binding : PanelBinding) (engines : List α)
    (pageTarget : Option PageEngineTarget) : EngineBindingResolution α :=
  match binding with
  | .unreadable => .single .unreadable
  | .gpu _ => .single .unreadable
  | .engine endpoint => .single (engineAt endpointOf engines endpoint)
  | .follow =>
    match pageTarget with
    | some .all => .aggregate
    | some (.engine endpoint) => .single (engineAt endpointOf engines endpoint)
    | none => .single .unselected

end Resolution

def reportsMetrics (engine : EngineSnapshot) : Bool :=
  metricsReadable engine && !(reportedMetricGroups engine).isEmpty

/-- The first running engine that reports metrics, else the first running one, else the first. -/
def defaultEngineEndpoint (engines : List EngineSnapshot) : Option Utf16 :=
  let running := runningEngines engines
  (((running.find? reportsMetrics).or running.head?).or engines.head?).map EngineSnapshot.endpoint

def defaultGpuIndex (snapshot : MetricsSnapshot) : Option JsNumber := (snapshotGpus snapshot).head?.map gpuNumber

def PageSource.target : PageSource → PageEngineTarget
  | .all => .all
  | .engine endpoint => .engine endpoint

def engineTarget (snapshot : Option MetricsSnapshot) (chosen : SelectedTargets) (source : Option PageSource) :
    Option PageEngineTarget :=
  match chosen.engineTarget with
  | some target => some target
  | none =>
    match source with
    | some source => some source.target
    | none => (snapshot.bind fun s => defaultEngineEndpoint s.engines).map .engine

def pageSelection (snapshot : Option MetricsSnapshot) (chosen : SelectedTargets) (source : Option PageSource) :
    PageSelection where
  gpuIndex := chosen.gpuIndex.or (snapshot.bind defaultGpuIndex)
  engineTarget := engineTarget snapshot chosen source

/-- An engine panel's resolution on a host, as `useEngineTarget` asks for it. -/
def enginePanelTarget (binding : PanelBinding) (snapshot : MetricsSnapshot) (chosen : SelectedTargets)
    (source : Option PageSource) : EngineBindingResolution EngineSnapshot :=
  resolveEngineBinding EngineSnapshot.endpoint binding snapshot.engines
    (pageSelection (some snapshot) chosen source).engineTarget

/-- A GPU panel's resolution on a host, as `useGpuPanel` asks for it. -/
def gpuPanelTarget (binding : PanelBinding) (snapshot : MetricsSnapshot) (chosen : SelectedTargets) :
    BindingResolution GpuMetrics :=
  resolveGpuBinding gpuNumber binding (snapshotGpus snapshot) (pageSelection (some snapshot) chosen none).gpuIndex

/-- The target a panel's layers of choice name: the pin, else the session's choice, else the source. -/
def namedEngine (binding : PanelBinding) (chosen : SelectedTargets) (source : Option PageSource) :
    Option PageEngineTarget :=
  match binding with
  | .engine endpoint => some (.engine endpoint)
  | .follow => chosen.engineTarget.or (source.map PageSource.target)
  | _ => none

def namedGpu (binding : PanelBinding) (chosen : SelectedTargets) : Option JsNumber :=
  match binding with
  | .gpu index => some index
  | .follow => chosen.gpuIndex
  | _ => none

section Lookup

variable {α : Type*} {endpointOf : α → Utf16} {indexOf : α → JsNumber}

theorem engineAt_resolved {engines : List α} {endpoint : Utf16} {target : α}
    (h : engineAt endpointOf engines endpoint = .resolved target) :
    target ∈ engines ∧ endpointOf target = endpoint := by
  rw [engineAt] at h
  split at h
  · cases h
  rename_i hne
  rw [findEngineByEndpoint, if_neg hne] at h
  cases hfind : engines.find? fun engine => decide (endpointOf engine = endpoint) with
  | none =>
    rw [hfind] at h
    cases h
  | some found =>
    rw [hfind] at h
    cases h
    have hsame := List.find?_some hfind
    exact ⟨List.mem_of_find?_eq_some hfind, of_decide_eq_true hsame⟩

theorem engineAt_missing {engines : List α} {endpoint : Utf16}
    (habsent : ∀ engine ∈ engines, endpointOf engine ≠ endpoint) :
    engineAt endpointOf engines endpoint = if endpoint = [] then .unselected else .missing endpoint := by
  rw [engineAt]
  split
  · rfl
  rename_i hne
  have hfind : (engines.find? fun engine => decide (endpointOf engine = endpoint)) = none := by
    rw [List.find?_eq_none]
    intro engine hengine
    simpa using habsent engine hengine
  rw [findEngineByEndpoint, if_neg hne, hfind]

/-- Only the engines of its endpoint decide what an endpoint resolves to. -/
theorem engineAt_congr {engines engines' : List α} {endpoint : Utf16}
    (h : (engines.filter fun e => decide (endpointOf e = endpoint)) =
      engines'.filter fun e => decide (endpointOf e = endpoint)) :
    engineAt endpointOf engines endpoint = engineAt endpointOf engines' endpoint := by
  have hfind : (engines.find? fun e => decide (endpointOf e = endpoint)) =
      engines'.find? fun e => decide (endpointOf e = endpoint) := by
    rw [← List.head?_filter, h, List.head?_filter]
  rw [engineAt, engineAt, findEngineByEndpoint, findEngineByEndpoint, hfind]

theorem gpuAt_resolved {gpus : List α} {index : JsNumber} {target : α}
    (h : gpuAt indexOf gpus index = .resolved target) : target ∈ gpus ∧ indexOf target = index := by
  rw [gpuAt, findGpuByIndex] at h
  cases hfind : gpus.find? fun gpu => decide (indexOf gpu = index) with
  | none =>
    rw [hfind] at h
    cases h
  | some found =>
    rw [hfind] at h
    cases h
    have hsame := List.find?_some hfind
    exact ⟨List.mem_of_find?_eq_some hfind, of_decide_eq_true hsame⟩

theorem gpuAt_missing {gpus : List α} {index : JsNumber} (habsent : ∀ gpu ∈ gpus, indexOf gpu ≠ index) :
    gpuAt indexOf gpus index = .missing (utf16 "GPU " ++ index.toText) := by
  have hfind : (gpus.find? fun gpu => decide (indexOf gpu = index)) = none := by
    rw [List.find?_eq_none]
    intro gpu hgpu
    simpa using habsent gpu hgpu
  rw [gpuAt, findGpuByIndex, hfind]

theorem gpuAt_congr {gpus gpus' : List α} {index : JsNumber}
    (h : (gpus.filter fun g => decide (indexOf g = index)) =
      gpus'.filter fun g => decide (indexOf g = index)) :
    gpuAt indexOf gpus index = gpuAt indexOf gpus' index := by
  have hfind : (gpus.find? fun g => decide (indexOf g = index)) =
      gpus'.find? fun g => decide (indexOf g = index) := by
    rw [← List.head?_filter, h, List.head?_filter]
  rw [gpuAt, gpuAt, findGpuByIndex, findGpuByIndex, hfind]

end Lookup

section Layers

variable {binding : PanelBinding} {chosen : SelectedTargets} {source : Option PageSource}

/-- The page's own target is asked for only where no layer names one. -/
theorem engineTarget_of_named {target : PageEngineTarget}
    (h : chosen.engineTarget.or (source.map PageSource.target) = some target)
    (snapshot : Option MetricsSnapshot) : engineTarget snapshot chosen source = some target := by
  rw [engineTarget.eq_def]
  cases hchosen : chosen.engineTarget with
  | some named =>
    rw [hchosen, Option.some_or] at h
    exact h
  | none =>
    rw [hchosen, Option.none_or] at h
    cases source with
    | none => cases h
    | some source => exact h

theorem enginePanelTarget_of_engine {endpoint : Utf16}
    (h : namedEngine binding chosen source = some (.engine endpoint)) (snapshot : MetricsSnapshot) :
    enginePanelTarget binding snapshot chosen source =
      .single (engineAt EngineSnapshot.endpoint snapshot.engines endpoint) := by
  cases binding with
  | follow =>
    rw [enginePanelTarget, pageSelection, engineTarget_of_named h]
    rfl
  | engine pinned =>
    cases h
    rfl
  | gpu index => cases h
  | unreadable => cases h

theorem enginePanelTarget_of_all (h : namedEngine binding chosen source = some .all)
    (snapshot : MetricsSnapshot) : enginePanelTarget binding snapshot chosen source = .aggregate := by
  cases binding with
  | follow =>
    rw [enginePanelTarget, pageSelection, engineTarget_of_named h]
    rfl
  | engine pinned => cases h
  | gpu index => cases h
  | unreadable => cases h

theorem snapshotGpus_ne_nil (snapshot : MetricsSnapshot) : snapshotGpus snapshot ≠ [] := by
  rw [snapshotGpus.eq_def]
  split <;> exact List.cons_ne_nil _ _

theorem gpuPanelTarget_of_named {index : JsNumber} (h : namedGpu binding chosen = some index)
    (snapshot : MetricsSnapshot) :
    gpuPanelTarget binding snapshot chosen = gpuAt gpuNumber (snapshotGpus snapshot) index := by
  cases binding with
  | follow =>
    have hchosen : chosen.gpuIndex = some index := h
    rw [gpuPanelTarget, pageSelection, hchosen, Option.some_or, resolveGpuBinding]
    simp [snapshotGpus_ne_nil snapshot]
  | gpu pinned =>
    cases h
    rfl
  | engine endpoint => cases h
  | unreadable => cases h

end Layers

/-- Two hosts with the same engines at one endpoint. -/
def SameEngines (endpoint : Utf16) (snapshot snapshot' : MetricsSnapshot) : Prop :=
  (snapshot.engines.filter fun e => decide (e.endpoint = endpoint)) =
    snapshot'.engines.filter fun e => decide (e.endpoint = endpoint)

/-- Two hosts with the same GPUs at one index. -/
def SameGpus (index : JsNumber) (snapshot snapshot' : MetricsSnapshot) : Prop :=
  ((snapshotGpus snapshot).filter fun g => decide (gpuNumber g = index)) =
    (snapshotGpus snapshot').filter fun g => decide (gpuNumber g = index)

section NoSubstitution

variable (binding : PanelBinding) (chosen : SelectedTargets) (source : Option PageSource)
  (snapshot : MetricsSnapshot)

theorem enginePanelTarget_follows {named : PageEngineTarget}
    (h : namedEngine binding chosen source = some named) {snapshot' : MetricsSnapshot}
    (hsame : ∀ endpoint, named = .engine endpoint → SameEngines endpoint snapshot snapshot') :
    enginePanelTarget binding snapshot chosen source = enginePanelTarget binding snapshot' chosen source := by
  cases named with
  | engine endpoint =>
    rw [enginePanelTarget_of_engine h, enginePanelTarget_of_engine h]
    exact congrArg _ (engineAt_congr (hsame endpoint rfl))
  | all => rw [enginePanelTarget_of_all h, enginePanelTarget_of_all h]

theorem enginePanelTarget_resolved {named : PageEngineTarget} (h : namedEngine binding chosen source = some named)
    {target : EngineSnapshot}
    (hresolved : enginePanelTarget binding snapshot chosen source = .single (.resolved target)) :
    target ∈ snapshot.engines ∧ named = .engine target.endpoint := by
  cases named with
  | engine endpoint =>
    rw [enginePanelTarget_of_engine h] at hresolved
    obtain ⟨hmem, hendpoint⟩ := engineAt_resolved (EngineBindingResolution.single.inj hresolved)
    exact ⟨hmem, congrArg PageEngineTarget.engine hendpoint.symm⟩
  | all =>
    rw [enginePanelTarget_of_all h] at hresolved
    cases hresolved

theorem no_silent_substitution :
    (∀ named target, namedEngine binding chosen source = some named →
      enginePanelTarget binding snapshot chosen source = .single (.resolved target) →
      target ∈ snapshot.engines ∧ named = .engine target.endpoint) ∧
    (∀ endpoint, namedEngine binding chosen source = some (.engine endpoint) →
      (∀ engine ∈ snapshot.engines, engine.endpoint ≠ endpoint) →
      enginePanelTarget binding snapshot chosen source =
        .single (if endpoint = [] then .unselected else .missing endpoint)) ∧
    (∀ endpoint, binding = .engine endpoint → ∀ snapshot' chosen' source', SameEngines endpoint snapshot snapshot' →
      enginePanelTarget binding snapshot chosen source = enginePanelTarget binding snapshot' chosen' source') ∧
    (binding = .follow → chosen.engineTarget ≠ none ∨ source ≠ none → ∀ snapshot',
      (∀ endpoint, namedEngine binding chosen source = some (.engine endpoint) →
        SameEngines endpoint snapshot snapshot') →
      enginePanelTarget binding snapshot chosen source = enginePanelTarget binding snapshot' chosen source) ∧
    (∀ index target, namedGpu binding chosen = some index →
      gpuPanelTarget binding snapshot chosen = .resolved target →
      target ∈ snapshotGpus snapshot ∧ gpuNumber target = index) ∧
    (∀ index, namedGpu binding chosen = some index → (∀ gpu ∈ snapshotGpus snapshot, gpuNumber gpu ≠ index) →
      gpuPanelTarget binding snapshot chosen = .missing (utf16 "GPU " ++ index.toText)) ∧
    (∀ index, binding = .gpu index → ∀ snapshot' chosen', SameGpus index snapshot snapshot' →
      gpuPanelTarget binding snapshot chosen = gpuPanelTarget binding snapshot' chosen') ∧
    (∀ index, binding = .follow → chosen.gpuIndex = some index → ∀ snapshot', SameGpus index snapshot snapshot' →
      gpuPanelTarget binding snapshot chosen = gpuPanelTarget binding snapshot' chosen) := by
  refine ⟨?_, ?_, ?_, ?_, ?_, ?_, ?_, ?_⟩
  · intro named target hnamed hresolved
    exact enginePanelTarget_resolved binding chosen source snapshot hnamed hresolved
  · intro endpoint hnamed habsent
    rw [enginePanelTarget_of_engine hnamed, engineAt_missing habsent]
  · rintro endpoint rfl snapshot' chosen' source' hsame
    exact congrArg _ (engineAt_congr hsame)
  · rintro rfl hpresent snapshot' hsame
    have hnamed : namedEngine .follow chosen source ≠ none := by
      intro hnone
      obtain ⟨hchosen, hsource⟩ := Option.or_eq_none_iff.mp hnone
      rcases hpresent with hpresent | hpresent
      · exact hpresent hchosen
      · exact hpresent (Option.map_eq_none_iff.mp hsource)
    obtain ⟨named, hnamed⟩ := Option.ne_none_iff_exists'.mp hnamed
    apply enginePanelTarget_follows .follow chosen source snapshot hnamed
    rintro endpoint rfl
    exact hsame endpoint hnamed
  · intro index target hnamed hresolved
    rw [gpuPanelTarget_of_named hnamed] at hresolved
    exact gpuAt_resolved hresolved
  · intro index hnamed habsent
    rw [gpuPanelTarget_of_named hnamed, gpuAt_missing habsent]
  · rintro index rfl snapshot' chosen' hsame
    exact gpuAt_congr hsame
  · rintro index rfl hchosen snapshot' hsame
    have hnamed : namedGpu .follow chosen = some index := hchosen
    rw [gpuPanelTarget_of_named hnamed, gpuPanelTarget_of_named hnamed]
    exact gpuAt_congr hsame

end NoSubstitution

/-- A host without engines. -/
def bareSnapshot : MetricsSnapshot := ⟨0, {}, none, ⟨0⟩, ⟨0, 0⟩, ⟨0, 0⟩, ⟨0, 0⟩, [], []⟩

theorem no_silent_substitution_pinned :
    enginePanelTarget (.engine (utf16 "a")) bareSnapshot {} none = .single (.missing (utf16 "a")) :=
  (no_silent_substitution (.engine (utf16 "a")) {} none bareSnapshot).2.1 (utf16 "a") rfl
    fun engine hengine => (by cases hengine)

/-- A pin to the empty endpoint names nothing that could be missing. -/
theorem missing_fails_for_empty :
    ¬ ∀ binding chosen source snapshot endpoint, namedEngine binding chosen source = some (.engine endpoint) →
      (∀ engine ∈ snapshot.engines, engine.endpoint ≠ endpoint) →
      enginePanelTarget binding snapshot chosen source = .single (.missing endpoint) := by
  intro hclaim
  have hempty := hclaim (.engine []) {} none ⟨0, {}, none, ⟨0⟩, ⟨0, 0⟩, ⟨0, 0⟩, ⟨0, 0⟩, [], []⟩ [] rfl (by simp)
  cases hempty

end SparkDashboard.Dashboard
