import SparkDashboard.Dashboard.Selection
import SparkDashboard.Dashboard.Tab

/-!
# What panels and pages can be pointed at

The options of a panel's and of a page's source control. Each keeps what it is on, also
where the host no longer has it, and an option reads back as what it stands for.
-/

namespace SparkDashboard.Dashboard

open Browser Engines Utf16

/-- The kinds of target a panel can bind to. -/
inductive TargetKind where
  | gpu
  | engine
  deriving DecidableEq

/-- `PinnedBinding`: a binding that names a concrete target. -/
inductive Pin where
  | gpu (index : JsNumber)
  | engine (endpoint : Utf16)
  deriving DecidableEq

structure BindingChoice where
  value : Utf16
  label : Utf16
  absent : Bool := false
  deriving DecidableEq

/-- What a control offers and what is selected now. -/
structure ChoiceControl where
  value : Utf16
  choices : List BindingChoice
  deriving DecidableEq

structure GpuChoiceSource where
  index : Option UInt32
  name : Option Utf16

/-- An engine as the page's control names it. -/
structure PageEngine extends EngineIdentity where
  modelName : Option Utf16
  loadedModels : Option (List Utf16)

def Pin.binding : Pin → PanelBinding
  | .gpu index => .gpu index
  | .engine endpoint => .engine endpoint

/-- `choiceOf` of `bindingChoices`. -/
def Pin.choice : Pin → Utf16
  | .gpu index => utf16 "gpu:" ++ index.toText
  | .engine endpoint => utf16 "engine:" ++ endpoint

def Pin.label : Pin → Utf16
  | .gpu index => utf16 "GPU " ++ index.toText
  | .engine endpoint => endpoint

def engineDisplayName : EngineType → Utf16
  | .vllm => utf16 "vLLM"
  | .sglang => utf16 "SGLang"
  | .ollama => utf16 "Ollama"
  | .llamaCpp => utf16 "llama.cpp"

def choiceIndex (gpu : GpuChoiceSource) : JsNumber := JsNumber.ofNat (gpu.index.getD 0).toNat

section Choices

-- `new URL(endpoint).host`, none where the endpoint is no URL.
variable (urlHost : Utf16 → Option Utf16)

def formatEndpoint (endpoint : Utf16) : Utf16 :=
  match urlHost endpoint with
  | some host => if host = [] then endpoint else host
  | none => endpoint

def engineDescription (engine : EngineIdentity) : Utf16 :=
  engineDisplayName engine.engineType ++ utf16 " " ++ formatEndpoint urlHost engine.endpoint

def followLabel : TargetKind → Utf16
  | .gpu => utf16 "Follow the page’s GPU"
  | .engine => utf16 "Follow the page’s engine"

def gpuChoice (gpu : GpuChoiceSource) : BindingChoice :=
  let pin := Pin.gpu (choiceIndex gpu)
  { value := pin.choice, label := pin.label ++ utf16 " — " ++ gpu.name.getD (utf16 "null") }

def engineChoice (engine : EngineIdentity) : BindingChoice :=
  { value := (Pin.engine engine.endpoint).choice, label := engineDescription urlHost engine }

def unreadableChoice : BindingChoice :=
  { value := utf16 "unreadable", label := utf16 "Not readable — choose a target", absent := true }

def absentChoice (pin : Pin) : BindingChoice :=
  { value := pin.choice, label := pin.label ++ utf16 " (not on this host)", absent := true }

def pinnedTarget : TargetKind → PanelBinding → Option Pin
  | .gpu, .gpu index => some (.gpu index)
  | .engine, .engine endpoint => some (.engine endpoint)
  | _, _ => none

def onThisHost (pin : Pin) (gpus : List GpuChoiceSource) (engines : List EngineIdentity) : Bool :=
  match pin with
  | .gpu index => (findGpuByIndex choiceIndex gpus index).isSome
  | .engine endpoint => (findEngineByEndpoint EngineIdentity.endpoint engines endpoint).isSome

/-- A panel that binds to nothing, the kind `none`, gets no choices. -/
def bindingChoices (kind : Option TargetKind) (binding : PanelBinding) (gpus : List GpuChoiceSource)
    (engines : List EngineIdentity) : ChoiceControl :=
  match kind with
  | none => ⟨utf16 "follow", []⟩
  | some kind =>
    let pinned := pinnedTarget kind binding
    let readable := pinned.isSome || decide (binding = .follow)
    let choices := (if readable then [] else [unreadableChoice]) ++
      { value := utf16 "follow", label := followLabel kind } ::
        (match kind with
          | .gpu => gpus.map gpuChoice
          | .engine => engines.map (engineChoice urlHost))
    match pinned with
    | some pin =>
      ⟨pin.choice, if onThisHost pin gpus engines then choices else choices ++ [absentChoice pin]⟩
    | none => ⟨if readable then utf16 "follow" else utf16 "unreadable", choices⟩

/-- A model's name without the organization before it. -/
def shortModelName (name : Utf16) : Utf16 := name.rtakeWhile fun u => u != 0x2F

def engineModelLabel (engine : PageEngine) : Option Utf16 :=
  match engine.loadedModels with
  | none =>
    match engine.modelName with
    | some name => if name = [] then none else some (shortModelName name)
    | none => none
  | some [] => some (utf16 "No model loaded")
  | some [name] => some (shortModelName name)
  | some (name :: others) =>
    some (shortModelName name ++ utf16 " +" ++ decimal others.length ++ utf16 " more")

def pageEngineChoice (engine : PageEngine) : BindingChoice :=
  { value := choiceOf (some (.engine engine.endpoint))
    label := (engineModelLabel engine).getD (utf16 "No model loaded") ++ utf16 " — " ++
      engineDescription urlHost engine.toEngineIdentity }

/-- `pageSourceChoices` with its labels. -/
def pageSourceControl (source : Option PageSource) (engines : List PageEngine) : ChoiceControl :=
  let choices : List BindingChoice :=
    { value := utf16 "auto", label := utf16 "Automatic — first serving model" } ::
      { value := utf16 "all", label := utf16 "All models — combined" } :: engines.map (pageEngineChoice urlHost)
  match source with
  | some (.engine endpoint) =>
    ⟨choiceOf source,
      if engines.any fun e => decide (e.endpoint = endpoint) then choices
      else choices ++ [{ value := choiceOf source, label := endpoint ++ utf16 " (not on this host)", absent := true }]⟩
  | _ => ⟨choiceOf source, choices⟩

end Choices

theorem splitChoice_append {kind : Utf16} (hkind : 0x3A ∉ kind) (target : Utf16) :
    splitChoice (kind ++ 0x3A :: target) = (kind, target) := by
  have hindex : (kind ++ 0x3A :: target).idxOf? 0x3A = some kind.length := by
    rw [List.idxOf?_eq_some_iff]
    refine ⟨by simp, by simp, ?_⟩
    intro j hj
    rw [List.getElem_append_left hj]
    intro hcolon
    exact hkind (hcolon ▸ List.getElem_mem hj)
  rw [splitChoice, hindex]
  simp

/-- A pin that its reader accepts. -/
def Pin.Valid (pin : Pin) : Prop := pin.binding.Readable

theorem toText_ne_nil {index : JsNumber} (h : isGpuIndex index = true) : index.toText ≠ [] := by
  cases index with
  | finite d =>
    obtain ⟨n, htext, hvalid, -⟩ := JsNumber.prints_finite d
    obtain ⟨u, tail, hcons, -⟩ :=
      JsNumber.head_whole hvalid (Numeral.fractionText n.fraction ++ Numeral.exponentText n.exponent)
    rw [JsNumber.toText, htext, Option.map_some, Option.getD_some, Numeral.text, hcons]
    simp
  | infinity negative => cases h
  | nan => cases h

theorem ofString_toText {index : JsNumber} (h : isGpuIndex index = true) :
    JsNumber.ofString index.toText = index := by
  cases index with
  | finite d => exact JsNumber.ofString_toText d
  | infinity negative => cases h
  | nan => cases h

theorem bindingFromChoice_choice {pin : Pin} (h : pin.Valid) : bindingFromChoice pin.choice = pin.binding := by
  cases pin with
  | gpu index =>
    have hindex : isGpuIndex index = true := h
    have hcolon : 0x3A ∉ utf16 "gpu" := by decide
    have hsplit : splitChoice (utf16 "gpu:" ++ index.toText) = (utf16 "gpu", index.toText) :=
      splitChoice_append hcolon index.toText
    have hnot : utf16 "gpu:" ++ index.toText ≠ utf16 "follow" := by
      intro heq
      exact absurd (congrArg (fun t => t.take 1) heq) (by simp [utf16])
    rw [Pin.choice, bindingFromChoice, if_neg hnot, hsplit]
    simp only [if_neg (toText_ne_nil hindex), if_true, ofString_toText hindex, hindex]
    rfl
  | engine endpoint =>
    have hne : endpoint ≠ [] := h
    have hcolon : 0x3A ∉ utf16 "engine" := by decide
    have hsplit : splitChoice (utf16 "engine:" ++ endpoint) = (utf16 "engine", endpoint) :=
      splitChoice_append hcolon endpoint
    have hnot : utf16 "engine:" ++ endpoint ≠ utf16 "follow" := by
      intro heq
      exact absurd (congrArg (fun t => t.take 1) heq) (by simp [utf16])
    have hkind : utf16 "engine" ≠ utf16 "gpu" := by decide
    rw [Pin.choice, bindingFromChoice, if_neg hnot, hsplit]
    simp only [if_neg hne, if_neg hkind, if_true]
    rfl

theorem bindingFromChoice_unreadable : bindingFromChoice (utf16 "unreadable") = .unreadable := by decide

/-- Following, or a pin to the kind of target the panel takes. -/
def PanelBinding.suits : TargetKind → PanelBinding → Bool
  | _, .follow => true
  | .gpu, .gpu _ => true
  | .engine, .engine _ => true
  | _, _ => false

/-- The option a panel of this kind is shown on. -/
def shownChoice (kind : TargetKind) (binding : PanelBinding) : Utf16 :=
  match pinnedTarget kind binding with
  | some pin => pin.choice
  | none => if binding = .follow then utf16 "follow" else utf16 "unreadable"

section Panels

variable {urlHost : Utf16 → Option Utf16} {kind : TargetKind} {binding : PanelBinding} {gpus : List GpuChoiceSource}
  {engines : List EngineIdentity}

theorem value_bindingChoices :
    (bindingChoices urlHost (some kind) binding gpus engines).value = shownChoice kind binding := by
  cases hpinned : pinnedTarget kind binding with
  | some pin => simp only [bindingChoices, shownChoice, hpinned]
  | none => simp [bindingChoices, shownChoice, hpinned]

theorem pinnedTarget_eq_some {pin : Pin} (h : pinnedTarget kind binding = some pin) : binding = pin.binding := by
  cases kind <;> cases binding <;> cases h <;> rfl

theorem suits_of_pinned {pin : Pin} (h : pinnedTarget kind binding = some pin) : binding.suits kind = true := by
  cases kind <;> cases binding <;> cases h <;> rfl

theorem suits_of_not_pinned (h : pinnedTarget kind binding = none) :
    binding.suits kind = decide (binding = .follow) := by
  cases kind <;> cases binding <;> first | rfl | cases h

/-- What an option stands for: nothing readable, following, or a valid pin of the panel's kind. -/
inductive Offered (kind : TargetKind) : Utf16 → Prop
  | unreadable : Offered kind (utf16 "unreadable")
  | follow : Offered kind (utf16 "follow")
  | pin (pin : Pin) (hkind : pinnedTarget kind pin.binding = some pin) (hvalid : pin.Valid) :
      Offered kind pin.choice

theorem isGpuIndex_choiceIndex (gpu : GpuChoiceSource) : isGpuIndex (choiceIndex gpu) = true := by
  have hlt : (gpu.index.getD 0).toNat < 2 ^ 32 := (gpu.index.getD 0).toNat_lt
  have hint := JsNumber.toInt_ofNat (n := (gpu.index.getD 0).toNat) (by omega)
  rw [isGpuIndex, choiceIndex, hint]
  simp

theorem shownChoice_offered {value : Utf16} (h : Offered kind value) :
    shownChoice kind (bindingFromChoice value) = value := by
  cases h with
  | unreadable =>
    rw [bindingFromChoice_unreadable, shownChoice]
    cases kind <;> rfl
  | follow => cases kind <;> rfl
  | pin pin hkind hvalid => rw [bindingFromChoice_choice hvalid, shownChoice, hkind]

/-- The options of the targets the host has. -/
def hostChoices (urlHost : Utf16 → Option Utf16) (kind : TargetKind) (gpus : List GpuChoiceSource)
    (engines : List EngineIdentity) : List BindingChoice :=
  match kind with
  | .gpu => gpus.map gpuChoice
  | .engine => engines.map (engineChoice urlHost)

theorem mem_choices {c : BindingChoice} :
    c ∈ (bindingChoices urlHost (some kind) binding gpus engines).choices ↔
      (binding.suits kind = false ∧ c = unreadableChoice) ∨ c = ⟨utf16 "follow", followLabel kind, false⟩ ∨
        c ∈ hostChoices urlHost kind gpus engines ∨
        ∃ pin, pinnedTarget kind binding = some pin ∧ onThisHost pin gpus engines = false ∧ c = absentChoice pin := by
  cases hpinned : pinnedTarget kind binding with
  | some pin =>
    have hsuits := suits_of_pinned hpinned
    by_cases hhost : onThisHost pin gpus engines <;>
      simp [bindingChoices, hpinned, hsuits, hhost, hostChoices]
  | none =>
    have hsuits := suits_of_not_pinned hpinned
    simp only [bindingChoices, hpinned, hsuits, hostChoices]
    by_cases hfollow : binding = .follow <;> simp [hfollow]

theorem offered_hostChoices (hengines : ∀ e ∈ engines, e.endpoint ≠ []) {c : BindingChoice}
    (hc : c ∈ hostChoices urlHost kind gpus engines) : Offered kind c.value := by
  cases kind with
  | gpu =>
    obtain ⟨gpu, -, rfl⟩ := List.mem_map.mp hc
    exact .pin (.gpu (choiceIndex gpu)) rfl (isGpuIndex_choiceIndex gpu)
  | engine =>
    obtain ⟨engine, hengine, rfl⟩ := List.mem_map.mp hc
    exact .pin (.engine engine.endpoint) rfl (hengines engine hengine)

theorem offered_of_mem_choices (h : binding.Readable) (hengines : ∀ e ∈ engines, e.endpoint ≠ [])
    {c : BindingChoice} (hc : c ∈ (bindingChoices urlHost (some kind) binding gpus engines).choices) :
    Offered kind c.value := by
  rcases mem_choices.mp hc with ⟨-, rfl⟩ | rfl | hhost | ⟨pin, hpinned, -, rfl⟩
  · exact .unreadable
  · exact .follow
  · exact offered_hostChoices hengines hhost
  · have hbinding := pinnedTarget_eq_some hpinned
    rw [hbinding] at h hpinned
    exact .pin pin hpinned h

theorem mem_hostChoices_of_onThisHost (urlHost : Utf16 → Option Utf16) {pin : Pin}
    (hkind : pinnedTarget kind pin.binding = some pin) (hhost : onThisHost pin gpus engines = true) :
    ∃ c ∈ hostChoices urlHost kind gpus engines, c.value = pin.choice := by
  cases pin with
  | gpu index =>
    have hgpu : kind = .gpu := by
      cases kind with
      | gpu => rfl
      | engine => cases hkind
    obtain ⟨gpu, hfind⟩ := Option.isSome_iff_exists.mp hhost
    have hindex := List.find?_some hfind
    rw [hgpu]
    exact ⟨gpuChoice gpu, List.mem_map_of_mem (List.mem_of_find?_eq_some hfind),
      congrArg (fun i => (Pin.gpu i).choice) (of_decide_eq_true hindex)⟩
  | engine endpoint =>
    have hengine : kind = .engine := by
      cases kind with
      | gpu => cases hkind
      | engine => rfl
    obtain ⟨engine, hfind⟩ := Option.isSome_iff_exists.mp hhost
    rw [findEngineByEndpoint] at hfind
    split at hfind
    · cases hfind
    have hendpoint := List.find?_some hfind
    rw [hengine]
    exact ⟨engineChoice urlHost engine, List.mem_map_of_mem (List.mem_of_find?_eq_some hfind),
      congrArg (fun e => (Pin.engine e).choice) (of_decide_eq_true hendpoint)⟩

theorem shownChoice_mem_choices (urlHost : Utf16 → Option Utf16) (kind : TargetKind) (binding : PanelBinding)
    (gpus : List GpuChoiceSource) (engines : List EngineIdentity) :
    ∃ c ∈ (bindingChoices urlHost (some kind) binding gpus engines).choices, c.value = shownChoice kind binding := by
  cases hpinned : pinnedTarget kind binding with
  | some pin =>
    have hkind : pinnedTarget kind pin.binding = some pin := pinnedTarget_eq_some hpinned ▸ hpinned
    simp only [shownChoice, hpinned]
    cases hhost : onThisHost pin gpus engines with
    | true =>
      obtain ⟨c, hc, hvalue⟩ := mem_hostChoices_of_onThisHost urlHost hkind hhost
      exact ⟨c, mem_choices.mpr (Or.inr (Or.inr (Or.inl hc))), hvalue⟩
    | false =>
      exact ⟨absentChoice pin, mem_choices.mpr (Or.inr (Or.inr (Or.inr ⟨pin, hpinned, hhost, rfl⟩))), rfl⟩
  | none =>
    simp only [shownChoice, hpinned]
    by_cases hfollow : binding = .follow
    · rw [if_pos hfollow]
      exact ⟨_, mem_choices.mpr (Or.inr (Or.inl rfl)), rfl⟩
    · have hsuits := suits_of_not_pinned hpinned
      rw [decide_eq_false hfollow] at hsuits
      rw [if_neg hfollow]
      exact ⟨unreadableChoice, mem_choices.mpr (Or.inl ⟨hsuits, rfl⟩), rfl⟩

theorem bindingFromChoice_shownChoice (h : binding.Readable) :
    bindingFromChoice (shownChoice kind binding) = if binding.suits kind then binding else .unreadable := by
  cases hpinned : pinnedTarget kind binding with
  | some pin =>
    have hbinding := pinnedTarget_eq_some hpinned
    have hvalid : pin.binding.Readable := hbinding ▸ h
    simp only [shownChoice, hpinned]
    rw [bindingFromChoice_choice hvalid, suits_of_pinned hpinned, if_pos rfl, hbinding]
  | none =>
    simp only [shownChoice, hpinned]
    rw [suits_of_not_pinned hpinned]
    by_cases hfollow : binding = .follow
    · rw [if_pos hfollow, hfollow]
      rfl
    · rw [if_neg hfollow, if_neg (by simpa using hfollow), bindingFromChoice_unreadable]

end Panels

section Pages

variable {urlHost : Utf16 → Option Utf16} {source : Option PageSource} {engines : List PageEngine}

/-- A source that its reader gives back, or automatic. -/
def ReadableSource (source : Option PageSource) : Prop := ∀ s, source = some s → s.Readable

theorem readableSource_none : ReadableSource none := by
  intro s hs
  cases hs

theorem readableSource_some {s : PageSource} (h : s.Readable) : ReadableSource (some s) := by
  intro other hother
  cases hother
  exact h

theorem pageSourceFromChoice_choiceOf (h : ReadableSource source) : pageSourceFromChoice (choiceOf source) = source := by
  cases source with
  | none => rfl
  | some s =>
    cases s with
    | all => rfl
    | engine endpoint =>
      have hne : endpoint ≠ [] := h _ rfl
      have hcolon : 0x3A ∉ utf16 "engine" := by decide
      have hsplit : splitChoice (utf16 "engine:" ++ endpoint) = (utf16 "engine", endpoint) :=
        splitChoice_append hcolon endpoint
      have hnot : utf16 "engine:" ++ endpoint ≠ utf16 "all" := by
        intro heq
        exact absurd (congrArg (fun t => t.take 1) heq) (by simp [utf16])
      rw [choiceOf, pageSourceFromChoice, if_neg hnot, hsplit]
      simp [hne]

theorem value_pageSourceControl : (pageSourceControl urlHost source engines).value = choiceOf source := by
  cases source with
  | none => rfl
  | some s => cases s <;> rfl

/-- By value the options are those the tab offers. -/
theorem values_pageSourceControl (urlHost : Utf16 → Option Utf16) (source : Option PageSource)
    (engines : List PageEngine) :
    (pageSourceControl urlHost source engines).choices.map BindingChoice.value =
      pageSourceChoices source (engines.map fun e => e.endpoint) := by
  have hvalues : (engines.map (pageEngineChoice urlHost)).map BindingChoice.value =
      (engines.map fun e => e.endpoint).map fun endpoint => choiceOf (some (.engine endpoint)) := by
    rw [List.map_map, List.map_map]
    rfl
  cases source with
  | none => simp [pageSourceControl, pageSourceChoices, hvalues]
  | some s =>
    cases s with
    | all => simp [pageSourceControl, pageSourceChoices, hvalues]
    | engine endpoint =>
      have hany : (engines.any fun e => decide (e.endpoint = endpoint)) =
          (engines.map fun e => e.endpoint).contains endpoint := by
        rw [Bool.eq_iff_iff]
        simp
      simp only [pageSourceControl, pageSourceChoices, hany]
      split <;> simp [hvalues]

theorem mem_pageSourceChoices {endpoints : List Utf16} (hendpoints : ∀ e ∈ endpoints, e ≠ [])
    (h : ReadableSource source) {value : Utf16} (hvalue : value ∈ pageSourceChoices source endpoints) :
    ∃ offered, ReadableSource offered ∧ value = choiceOf offered := by
  have hbase : value ∈ utf16 "auto" :: utf16 "all" :: endpoints.map (fun e => choiceOf (some (.engine e))) →
      ∃ offered, ReadableSource offered ∧ value = choiceOf offered := by
    intro hmem
    rcases List.mem_cons.mp hmem with rfl | hmem
    · exact ⟨none, readableSource_none, rfl⟩
    rcases List.mem_cons.mp hmem with rfl | hmem
    · exact ⟨some .all, readableSource_some trivial, rfl⟩
    · obtain ⟨endpoint, hendpoint, rfl⟩ := List.mem_map.mp hmem
      exact ⟨some (.engine endpoint), readableSource_some (hendpoints endpoint hendpoint), rfl⟩
  cases source with
  | none => exact hbase hvalue
  | some s =>
    cases s with
    | all => exact hbase hvalue
    | engine endpoint =>
      rw [pageSourceChoices] at hvalue
      split at hvalue
      · exact hbase hvalue
      · rcases List.mem_append.mp hvalue with hmem | hmem
        · exact hbase hmem
        · exact ⟨_, h, List.mem_singleton.mp hmem⟩

theorem choiceOf_mem (source : Option PageSource) (endpoints : List Utf16) :
    choiceOf source ∈ pageSourceChoices source endpoints := by
  cases source with
  | none => exact List.mem_cons_self
  | some s =>
    cases s with
    | all => exact List.mem_cons_of_mem _ List.mem_cons_self
    | engine endpoint =>
      rw [pageSourceChoices]
      split
      · rename_i hcontains
        have hmem : endpoint ∈ endpoints := by simpa using hcontains
        exact List.mem_cons_of_mem _ (List.mem_cons_of_mem _ (List.mem_map_of_mem hmem))
      · exact List.mem_append_right _ (List.mem_singleton.mpr rfl)

end Pages

theorem choices_roundTrip (urlHost : Utf16 → Option Utf16) :
    (∀ kind binding gpus engines, PanelBinding.Readable binding → (∀ e ∈ engines, e.endpoint ≠ []) →
      (bindingChoices urlHost (some kind) binding gpus engines).value ∈
        (bindingChoices urlHost (some kind) binding gpus engines).choices.map BindingChoice.value ∧
      bindingFromChoice (bindingChoices urlHost (some kind) binding gpus engines).value =
        (if binding.suits kind then binding else .unreadable) ∧
      ∀ c ∈ (bindingChoices urlHost (some kind) binding gpus engines).choices,
        (bindingChoices urlHost (some kind) (bindingFromChoice c.value) gpus engines).value = c.value) ∧
    ∀ source engines, ReadableSource source → (∀ e : PageEngine, e ∈ engines → e.endpoint ≠ []) →
      (pageSourceControl urlHost source engines).value ∈
        (pageSourceControl urlHost source engines).choices.map BindingChoice.value ∧
      pageSourceFromChoice (pageSourceControl urlHost source engines).value = source ∧
      ∀ c ∈ (pageSourceControl urlHost source engines).choices,
        (pageSourceControl urlHost (pageSourceFromChoice c.value) engines).value = c.value := by
  constructor
  · intro kind binding gpus engines hbinding hengines
    rw [value_bindingChoices]
    refine ⟨?_, bindingFromChoice_shownChoice hbinding, ?_⟩
    · obtain ⟨c, hc, hvalue⟩ := shownChoice_mem_choices urlHost kind binding gpus engines
      exact hvalue ▸ List.mem_map_of_mem hc
    · intro c hc
      rw [value_bindingChoices, shownChoice_offered (offered_of_mem_choices hbinding hengines hc)]
  · intro source engines hsource hengines
    rw [value_pageSourceControl, values_pageSourceControl]
    refine ⟨choiceOf_mem source _, pageSourceFromChoice_choiceOf hsource, ?_⟩
    intro c hc
    have hendpoints : ∀ e ∈ engines.map (fun e => e.endpoint), e ≠ [] := by
      intro endpoint hendpoint
      obtain ⟨engine, hengine, rfl⟩ := List.mem_map.mp hendpoint
      exact hengines engine hengine
    have hvalue : c.value ∈ pageSourceChoices source (engines.map fun e => e.endpoint) := by
      rw [← values_pageSourceControl urlHost]
      exact List.mem_map_of_mem hc
    obtain ⟨offered, hoffered, heq⟩ := mem_pageSourceChoices hendpoints hsource hvalue
    rw [value_pageSourceControl, heq, pageSourceFromChoice_choiceOf hoffered]

theorem choices_roundTrip_followed :
    (pageSourceControl (fun _ => none) (some .all) [⟨⟨.vllm, utf16 "a"⟩, none, none⟩]).value ∈
        (pageSourceControl (fun _ => none) (some .all) [⟨⟨.vllm, utf16 "a"⟩, none, none⟩]).choices.map
          BindingChoice.value ∧
      pageSourceFromChoice
        (pageSourceControl (fun _ => none) (some .all) [⟨⟨.vllm, utf16 "a"⟩, none, none⟩]).value = some .all := by
  have hnamed : ∀ e : PageEngine, e ∈ [⟨⟨.vllm, utf16 "a"⟩, none, none⟩] → e.endpoint ≠ [] := by
    intro e he
    rw [List.mem_singleton.mp he]
    exact List.cons_ne_nil _ _
  obtain ⟨hoffered, hread, -⟩ := (choices_roundTrip fun _ => none).2 (some .all) _ (readableSource_some trivial) hnamed
  exact ⟨hoffered, hread⟩

end SparkDashboard.Dashboard
