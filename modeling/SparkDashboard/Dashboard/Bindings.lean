import SparkDashboard.Dashboard.Grid

/-!
# What panels and pages point at

A panel's binding and a page's source as they are stored, read and picked from a list of
choices.
-/

namespace SparkDashboard.Dashboard

inductive PanelBinding where
  | follow
  | gpu (index : JsNumber)
  | engine (endpoint : Utf16)
  | unreadable
  deriving DecidableEq

/-- A page without one is on automatic. -/
inductive PageSource where
  | all
  | engine (endpoint : Utf16)
  deriving DecidableEq

def isGpuIndex (n : JsNumber) : Bool :=
  match n.toInt with
  | some i => decide (0 ≤ i)
  | none => false

def readGpu : Option Value → PanelBinding
  | some (.number index) => if isGpuIndex index then .gpu index else .unreadable
  | _ => .unreadable

def readEngine : Option Value → PanelBinding
  | some (.string endpoint) => if endpoint = [] then .unreadable else .engine endpoint
  | _ => .unreadable

def readBinding : Option Value → PanelBinding
  | none => .follow
  | some .null => .follow
  | some (.object members) =>
    match field members "kind" with
    | some (.string kind) =>
      if kind = utf16 "follow" then .follow
      else if kind = utf16 "gpu" then readGpu (field members "index")
      else if kind = utf16 "engine" then readEngine (field members "endpoint")
      else .unreadable
    | _ => .unreadable
  | some _ => .unreadable

def readSourceEndpoint : Option Value → Option PageSource
  | some (.string endpoint) => if endpoint = [] then none else some (.engine endpoint)
  | _ => none

def readPageSource : Option Value → Option PageSource
  | some (.object members) =>
    match field members "kind" with
    | some (.string kind) =>
      if kind = utf16 "all" then some .all
      else if kind = utf16 "engine" then readSourceEndpoint (field members "endpoint")
      else none
    | _ => none
  | _ => none

def kindMember (kind : String) : Utf16 × Value := (utf16 "kind", .string (utf16 kind))

def bindingValue : PanelBinding → Value
  | .follow => .object [kindMember "follow"]
  | .gpu index => .object [kindMember "gpu", (utf16 "index", .number index)]
  | .engine endpoint => .object [kindMember "engine", (utf16 "endpoint", .string endpoint)]
  | .unreadable => .object [kindMember "unreadable"]

def sourceValue : PageSource → Value
  | .all => .object [kindMember "all"]
  | .engine endpoint => .object [kindMember "engine", (utf16 "endpoint", .string endpoint)]

/-- `slice(0, i)` and `slice(i + 1)` at the first colon, whose index is -1 where there is none. -/
def splitChoice (value : Utf16) : Utf16 × Utf16 :=
  match value.idxOf? 0x3A with
  | some i => (value.take i, value.drop (i + 1))
  | none => (value.dropLast, value)

def bindingFromChoice (value : Utf16) : PanelBinding :=
  if value = utf16 "follow" then .follow
  else
    let (kind, target) := splitChoice value
    if target = [] then .unreadable
    else if kind = utf16 "gpu" then
      if isGpuIndex (JsNumber.ofString target) then .gpu (JsNumber.ofString target) else .unreadable
    else if kind = utf16 "engine" then .engine target
    else .unreadable

/-- `none` is automatic. -/
def pageSourceFromChoice (value : Utf16) : Option PageSource :=
  if value = utf16 "all" then some .all
  else
    let (kind, endpoint) := splitChoice value
    if kind = utf16 "engine" ∧ endpoint ≠ [] then some (.engine endpoint) else none

def sameSource (a b : Option PageSource) : Bool :=
  match a, b with
  | some (.engine a), some (.engine b) => decide (a = b)
  | some .all, some .all => true
  | none, none => true
  | _, _ => false

/-- A binding the reader would leave as it is. -/
def PanelBinding.Readable : PanelBinding → Prop
  | .gpu index => isGpuIndex index = true
  | .engine endpoint => endpoint ≠ []
  | _ => True

def PageSource.Readable : PageSource → Prop
  | .all => True
  | .engine endpoint => endpoint ≠ []

theorem readable_readGpu (raw : Option Value) : (readGpu raw).Readable := by
  cases raw with
  | none => trivial
  | some value =>
    cases value with
    | number index =>
      rw [readGpu]
      split
      · assumption
      · trivial
    | _ => trivial

theorem readable_readEngine (raw : Option Value) : (readEngine raw).Readable := by
  cases raw with
  | none => trivial
  | some value =>
    cases value with
    | string endpoint =>
      rw [readEngine]
      split
      · trivial
      · assumption
    | _ => trivial

theorem readable_readBinding (raw : Option Value) : (readBinding raw).Readable := by
  rw [readBinding.eq_def]
  split
  · trivial
  · trivial
  · split
    · split
      · trivial
      split
      · exact readable_readGpu _
      split
      · exact readable_readEngine _
      · trivial
    · trivial
  · trivial

theorem readable_readPageSource {raw : Option Value} {source : PageSource}
    (h : readPageSource raw = some source) : source.Readable := by
  rw [readPageSource.eq_def] at h
  split at h
  · split at h
    · split at h
      · cases h
        trivial
      split at h
      · rw [readSourceEndpoint.eq_def] at h
        split at h
        · split at h
          · cases h
          · cases h
            assumption
        · cases h
      · cases h
    · cases h
  · cases h

theorem readable_bindingFromChoice (value : Utf16) : (bindingFromChoice value).Readable := by
  simp only [bindingFromChoice]
  split
  · trivial
  split
  · trivial
  split
  · split
    · assumption
    · trivial
  split
  · assumption
  · trivial

theorem readable_pageSourceFromChoice {value : Utf16} {source : PageSource}
    (h : pageSourceFromChoice value = some source) : source.Readable := by
  simp only [pageSourceFromChoice] at h
  split at h
  · cases h
    trivial
  split at h
  · rename_i hengine
    cases h
    exact hengine.2
  · cases h

theorem readBinding_bindingValue {binding : PanelBinding} (h : binding.Readable) :
    readBinding (some (bindingValue binding)) = binding := by
  cases binding with
  | follow => rfl
  | gpu index =>
    have hread : readBinding (some (bindingValue (.gpu index))) = readGpu (some (.number index)) := rfl
    rw [hread, readGpu]
    exact if_pos h
  | engine endpoint =>
    have hread : readBinding (some (bindingValue (.engine endpoint))) =
        readEngine (some (.string endpoint)) := rfl
    rw [hread, readEngine]
    exact if_neg h
  | unreadable => rfl

theorem readPageSource_sourceValue {source : PageSource} (h : source.Readable) :
    readPageSource (some (sourceValue source)) = some source := by
  cases source with
  | all => rfl
  | engine endpoint =>
    have hread : readPageSource (some (sourceValue (.engine endpoint))) =
      readSourceEndpoint (some (.string endpoint)) := rfl
    rw [hread, readSourceEndpoint]
    exact if_neg h

end SparkDashboard.Dashboard
