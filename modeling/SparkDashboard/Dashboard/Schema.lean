import SparkDashboard.Dashboard.Bindings
import SparkDashboard.Dashboard.Panels
import SparkDashboard.Library.FreshName

/-!
# The dashboard document

How the document is read from JSON, repairing what it must, and how it is written.
-/

namespace SparkDashboard.Dashboard

open Utf16

structure DashboardPanel where
  id : Utf16
  type : Utf16
  title : Option Utf16
  geometry : PanelGeometry
  binding : PanelBinding
  window : TimeWindow
  deriving DecidableEq

structure DashboardPage where
  id : Utf16
  name : Utf16
  source : Option PageSource
  panels : List DashboardPanel
  deriving DecidableEq

structure DashboardDocument where
  version : JsNumber
  pages : List DashboardPage
  deriving DecidableEq

def dashboardSchemaVersion : Nat := 2

/-- A trimmed text, where that leaves any. -/
def readText : Option Value → Option Utf16
  | some (.string value) => if trim value = [] then none else some (trim value)
  | _ => none

/-- Empty where there is no usable id. -/
def readId (value : Option Value) : Utf16 := (readText value).getD []

/-- `page-3`: what an item without an id is called by. -/
def positionId (kind : Utf16) (position : Nat) : Utf16 := kind ++ 0x2D :: decimal (position + 1)

def numbered (base : Utf16) (n : Nat) : Utf16 := base ++ 0x2D :: decimal n

/-- `base`, or the first of `base-2`, `base-3`, … that is free. -/
def unusedId (taken : List Utf16) (base : Utf16) : Utf16 :=
  FreshName.freshOr taken base (numbered base)

section UniqueIds

variable {T : Type}

/-- Give each item an id of its own; `repair` puts it in, and what else the position fills. -/
def withUniqueIds (kind : Utf16) (idOf : T → Utf16) (repair : Nat → Utf16 → T → T) :
    Nat → List Utf16 → List T → List T
  | _, _, [] => []
  | position, taken, item :: items =>
    let base := if idOf item = [] then positionId kind position else idOf item
    let id := unusedId taken base
    repair position id item :: withUniqueIds kind idOf repair (position + 1) (id :: taken) items

end UniqueIds

def repairPanel (_ : Nat) (id : Utf16) (panel : DashboardPanel) : DashboardPanel := { panel with id }

def repairPage (position : Nat) (id : Utf16) (page : DashboardPage) : DashboardPage :=
  { page with
    id
    name := if page.name = [] then utf16 "Page " ++ decimal (position + 1) else page.name }

def uniquePanels : List DashboardPanel → List DashboardPanel :=
  withUniqueIds (utf16 "panel") DashboardPanel.id repairPanel 0 []

def uniquePages : List DashboardPage → List DashboardPage :=
  withUniqueIds (utf16 "page") DashboardPage.id repairPage 0 []

def readPanel (raw : Members) : DashboardPanel where
  id := readId (field raw "id")
  type := (readText (field raw "type")).getD []
  title := readText (field raw "title")
  geometry := readGeometry (field raw "geometry")
  binding := readBinding (field raw "binding")
  window := readWindow (field raw "window")

def records (raw : Option Value) : List Members :=
  ((raw.bind Json.asArray).getD []).filterMap Json.asObject

def readPage (raw : Members) : DashboardPage where
  id := readId (field raw "id")
  name := (readText (field raw "name")).getD []
  source := readPageSource (field raw "source")
  panels := uniquePanels ((records (field raw "panels")).map readPanel)

def parseDashboardDocument (raw : Value) : Option DashboardDocument :=
  match raw.asObject with
  | none => none
  | some members =>
    if (field members "version").bind Json.asNumber ≠ some (.ofNat dashboardSchemaVersion) then none
    else
      match (field members "pages").bind Json.asArray with
      | none => none
      | some items =>
        let pages := (items.filterMap Json.asObject).map readPage
        if pages = [] ∧ items ≠ [] then none
        else some ⟨.ofNat dashboardSchemaVersion, uniquePages pages⟩

def optionalMember (name : String) (value : Option Value) : Members :=
  match value with
  | some value => [(utf16 name, value)]
  | none => []

def panelMembers (panel : DashboardPanel) : Members :=
  [(utf16 "id", .string panel.id), (utf16 "type", .string panel.type)] ++
    optionalMember "title" (panel.title.map Json.string) ++
    [(utf16 "geometry", geometryValue panel.geometry), (utf16 "binding", bindingValue panel.binding),
      (utf16 "window", .string panel.window.text)]

def pageMembers (page : DashboardPage) : Members :=
  [(utf16 "id", .string page.id), (utf16 "name", .string page.name)] ++
    optionalMember "source" (page.source.map sourceValue) ++
    [(utf16 "panels", .array (page.panels.map fun panel => .object (panelMembers panel)))]

def documentMembers (document : DashboardDocument) : Members :=
  [(utf16 "version", .number (.ofNat dashboardSchemaVersion)),
    (utf16 "pages", .array (document.pages.map fun page => .object (pageMembers page)))]

def documentValue (document : DashboardDocument) : Value := .object (documentMembers document)

def serializeDashboardDocument (document : DashboardDocument) : Utf16 :=
  Json.write JsNumber.toNumeral (documentValue document)

end SparkDashboard.Dashboard
