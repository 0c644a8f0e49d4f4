import SparkDashboard.Dashboard.Pages

/-!
# The edits of a session

What a layout change and an operator's own edits do to a page's panels, and the document
a save writes.
-/

namespace SparkDashboard.Dashboard

open Utf16

/-- Where the grid says a panel now sits, as its library reports it. -/
structure LayoutChange where
  id : Utf16
  geometry : Value

def movedTo (changes : List LayoutChange) (id : Utf16) : Option PanelGeometry :=
  (changes.reverse.find? fun change => decide (change.id = id)).map fun change =>
    readGeometry (some change.geometry)

def applyLayoutChanges (panels : List DashboardPanel) (changes : List LayoutChange) : List DashboardPanel :=
  panels.map fun panel =>
    match movedTo changes panel.id with
    | none => panel
    | some geometry => if panel.geometry = geometry then panel else { panel with geometry }

/-- The document with one page's panels replaced: what an explicit save writes. -/
def withPagePanels (document : DashboardDocument) (pageId : Utf16) (panels : List DashboardPanel) :
    DashboardDocument :=
  mapPage document pageId fun page => { page with panels }

inductive AddPanelOutcome where
  | added (panels : List DashboardPanel) (panelId : Utf16)
  | outOfRoom

def unusedPanelId (panels : List DashboardPanel) (type : Utf16) : Utf16 :=
  unusedId (panels.map DashboardPanel.id) type

def addPanel (panels : List DashboardPanel) (type : PanelType) : AddPanelOutcome :=
  match firstFreeSlot (panels.map DashboardPanel.geometry) (defaultPanelSize type.key) with
  | none => .outOfRoom
  | some geometry =>
    let panelId := unusedPanelId panels type.key
    .added (panels ++ [⟨panelId, type.key, none, geometry, .follow, defaultTimeWindow⟩]) panelId

def removePanel (panels : List DashboardPanel) (panelId : Utf16) : List DashboardPanel :=
  panels.filter fun panel => decide (panel.id ≠ panelId)

def mapPanel (panels : List DashboardPanel) (panelId : Utf16) (edit : DashboardPanel → DashboardPanel) :
    List DashboardPanel :=
  panels.map fun panel => if panel.id = panelId then edit panel else panel

/-- A blank title is dropped. -/
def renamePanel (panels : List DashboardPanel) (panelId title : Utf16) : List DashboardPanel :=
  let trimmed := trim title
  mapPanel panels panelId fun panel => { panel with title := if trimmed = [] then none else some trimmed }

def setPanelWindow (panels : List DashboardPanel) (panelId : Utf16) (window : TimeWindow) :
    List DashboardPanel :=
  mapPanel panels panelId fun panel => { panel with window }

def repointPanel (panels : List DashboardPanel) (panelId : Utf16) (binding : PanelBinding) :
    List DashboardPanel :=
  mapPanel panels panelId fun panel => { panel with binding }

/-- An edit of a session, with the option chosen where one was. -/
inductive PanelEdit where
  | applyLayoutChanges (changes : List LayoutChange)
  | addPanel (type : PanelType)
  | removePanel (panelId : Utf16)
  | renamePanel (panelId title : Utf16)
  | setPanelWindow (panelId : Utf16) (window : TimeWindow)
  | repointPanel (panelId choice : Utf16)

def editPanels (panels : List DashboardPanel) : PanelEdit → List DashboardPanel
  | .applyLayoutChanges changes => applyLayoutChanges panels changes
  | .addPanel type =>
    match addPanel panels type with
    | .added panels _ => panels
    | .outOfRoom => panels
  | .removePanel panelId => removePanel panels panelId
  | .renamePanel panelId title => renamePanel panels panelId title
  | .setPanelWindow panelId window => setPanelWindow panels panelId window
  | .repointPanel panelId choice => repointPanel panels panelId (bindingFromChoice choice)

inductive Edit where
  | addPage (name : Option Utf16)
  | addPageFrom (layout : StartingLayout) (shipped : layout ∈ startingLayouts)
  | renamePage (pageId name : Utf16)
  | setPageSource (pageId choice : Utf16)
  | removePage (pageId : Utf16)
  | savePanels (pageId : Utf16) (edits : List PanelEdit)

def edit (tables : UnicodeTables) (document : DashboardDocument) : Edit → DashboardDocument
  | .addPage name => (addPage tables document name).document
  | .addPageFrom layout _ => (addPageFrom tables document layout).document
  | .renamePage pageId name => renamePage document pageId name
  | .setPageSource pageId choice => setPageSource document pageId (pageSourceFromChoice choice)
  | .removePage pageId =>
    match removePage document pageId with
    | .removed document _ => document
    | .lastPage => document
  | .savePanels pageId edits =>
    match findPage document pageId with
    | none => document
    | some page => withPagePanels document pageId (edits.foldl editPanels page.panels)

end SparkDashboard.Dashboard
