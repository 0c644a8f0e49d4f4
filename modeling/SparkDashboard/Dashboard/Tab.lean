import SparkDashboard.Dashboard.Load
import SparkDashboard.Dashboard.PageChanges
import SparkDashboard.Library.Stepping
import SparkDashboard.Library.WholeDocument

/-!
# One browser tab

The page list in the header, the page's configuration and its editor, each with a flag of
its own for a save under way, over the document the tab renders and what the server stores.
An operator uses whichever control is enabled, the server takes saves in the order they were
sent, and their answers come in any order.
-/

namespace SparkDashboard.Dashboard

open Utf16 WholeDocument

/-- `SaveOutcome['status']`. -/
inductive SaveStatus where
  | saved
  | readOnly
  | tooLarge
  | failed
  deriving DecidableEq, Repr

structure SaveOutcome where
  status : SaveStatus
  readOnly : Bool
  deriving DecidableEq, Repr

def SaveOutcome.isSaved (outcome : SaveOutcome) : Bool := decide (outcome.status = .saved)

/-- Who is waiting for a save: a component that is no longer mounted hears nothing. -/
inductive Control where
  | pageBar
  | pageConfig (mount : Nat)
  | editor (mount : Nat)
  deriving DecidableEq, Repr

structure Request where
  control : Control
  change : PageChange
  /-- The page the operator ends up on once it is saved. -/
  goTo : Option Utf16
  deriving DecidableEq

def Request.writes (request : Request) : Utf16 × Attribute → Option (Option Setting) := request.change.writes

/-- `GridPageEditor`, with the `PageConfig` it holds while no session is open. -/
structure Editor where
  pageId : Utf16
  mount : Nat
  session : Option (List DashboardPanel)
  saving : Bool
  config : Nat
  choosing : Bool

structure Tab where
  client : Client DashboardDocument Request SaveOutcome (Option Utf16)
  readOnly : Bool
  /-- The page the URL names, if any. -/
  pageId : Option Utf16
  narrow : Bool
  /-- `PageBar`'s flag. -/
  busy : Bool
  editor : Option Editor
  mounts : Nat

inductive Action where
  | navigate (pageId : Option Utf16)
  | resize (narrow : Bool)
  | create (layout : Option { layout : StartingLayout // layout ∈ startingLayouts })
  | rename (draft : Utf16)
  | remove
  /-- A choice of `PageConfig`, the host running engines at these endpoints. -/
  | chooseSource (endpoints : List Utf16) (choice : Utf16)
  | beginSession
  | editSession (edit : PanelEdit)
  | saveSession
  | discardSession

inductive Event where
  | act (action : Action)
  | take (outcome : SaveOutcome)
  | answer (write : Nat)

/-- The option that stands for a source. -/
def choiceOf : Option PageSource → Utf16
  | none => utf16 "auto"
  | some .all => utf16 "all"
  | some (.engine endpoint) => utf16 "engine:" ++ endpoint

/-- `pageSourceChoices`, by value: a source naming no engine of the host keeps its own option. -/
def pageSourceChoices (source : Option PageSource) (endpoints : List Utf16) : List Utf16 :=
  let choices := utf16 "auto" :: utf16 "all" :: endpoints.map fun endpoint => choiceOf (some (.engine endpoint))
  match source with
  | some (.engine endpoint) => if endpoints.contains endpoint then choices else choices ++ [choiceOf source]
  | _ => choices

/-- The page `create` makes. -/
def newPage (tables : UnicodeTables) (document : DashboardDocument) : Option StartingLayout → DashboardPage
  | none =>
    let name := unusedPageName document.pages
    ⟨unusedPageId tables document.pages name, name, none, []⟩
  | some layout =>
    let name := unusedNameFrom document.pages layout.name
    ⟨unusedPageId tables document.pages name, name, none, layout.panels⟩

namespace Tab

def document (t : Tab) : DashboardDocument := t.client.shown

def page (t : Tab) : Option DashboardPage :=
  match t.pageId with
  | none => t.document.pages.head?
  | some pageId => findPage t.document pageId

def editing (t : Tab) : Bool := t.editor.any fun editor => editor.session.isSome

/-- The editor is keyed by its page, so another page gets another editor. -/
def render (t : Tab) : Tab :=
  match t.page with
  | none => { t with editor := none }
  | some page =>
    if t.editor.any fun editor => decide (editor.pageId = page.id) then t
    else
      { t with
        editor := some ⟨page.id, t.mounts, none, false, t.mounts, false⟩
        mounts := t.mounts + 1 }

def start (stored : Option Utf16) (document : DashboardDocument) (readOnly : Bool) (pageId : Option Utf16)
    (narrow : Bool) : Tab :=
  render ⟨⟨document, stored, []⟩, readOnly, pageId, narrow, false, none, 0⟩

/-- A tab that has loaded what is stored. -/
def boot (stored : Option Utf16) (readOnly : Bool) (pageId : Option Utf16) (narrow : Bool) :
    Except SyntaxError Tab := do
  let loaded ← loadDashboardConfiguration stored dashboardMigrationPath
  pure (start stored loaded.document readOnly pageId narrow)

def save (t : Tab) (control : Control) (change : PageChange) (goTo : Option Utf16)
    (next : DashboardDocument) : Tab :=
  { t with client := t.client.send ⟨control, change, goTo⟩ next }

/-- The page `PagesMenu` acts on, while its actions are enabled. -/
def menuPage (t : Tab) : Option DashboardPage :=
  if t.readOnly || t.editing || t.busy then none else t.page

def create (tables : UnicodeTables) (t : Tab) (layout : Option StartingLayout) : Option Tab :=
  t.menuPage.map fun _ =>
    let outcome :=
      match layout with
      | none => addPage tables t.document none
      | some layout => addPageFrom tables t.document layout
    { t with busy := true }.save .pageBar (.created (newPage tables t.document layout)) outcome.pageId
      outcome.document

/-- The field submits no blank name and no name the page has, so the document is never left as it was. -/
def rename (t : Tab) (draft : Utf16) : Option Tab :=
  t.menuPage.bind fun page =>
    if trim draft = [] ∨ trim draft = page.name then none
    else
      some ({ t with busy := true }.save .pageBar (.renamed page.id (trim draft)) page.id
        (renamePage t.document page.id draft))

def remove (t : Tab) : Option Tab :=
  t.menuPage.bind fun page =>
    match removePage t.document page.id with
    | .removed next nextPageId =>
      some ({ t with busy := true }.save .pageBar (.removed page.id) nextPageId next)
    | .lastPage => none

/-- The page's editor and the page it was rendered with. -/
def mounted (t : Tab) : Option (Editor × DashboardPage) :=
  t.editor.bind fun editor => t.page.map fun page => (editor, page)

def chooseSource (t : Tab) (endpoints : List Utf16) (choice : Utf16) : Option Tab :=
  t.mounted.bind fun (editor, page) =>
    if editor.session.isSome || t.readOnly || editor.choosing then none
    else if (pageSourceChoices page.source endpoints).contains choice ∧ choice ≠ choiceOf page.source then
      some ({ t with editor := some { editor with choosing := true } }.save (.pageConfig editor.config)
        (.pointed page.id (pageSourceFromChoice choice)) none
        (setPageSource t.document page.id (pageSourceFromChoice choice)))
    else none

def beginSession (t : Tab) : Option Tab :=
  t.mounted.bind fun (editor, page) =>
    if editor.session.isSome || t.narrow then none
    else some { t with editor := some { editor with session := some page.panels } }

def editSession (t : Tab) (edit : PanelEdit) : Option Tab :=
  t.mounted.bind fun (editor, _) =>
    editor.session.map fun panels =>
      { t with editor := some { editor with session := some (editPanels panels edit) } }

def saveSession (t : Tab) : Option Tab :=
  t.mounted.bind fun (editor, page) =>
    editor.session.bind fun panels =>
      if t.readOnly || editor.saving || t.narrow then none
      else
        some ({ t with editor := some { editor with saving := true } }.save (.editor editor.mount)
          (.arranged page.id panels) none (withPagePanels t.document page.id panels))

/-- The session ends, and `PageConfig` is mounted again. -/
def closeSession (t : Tab) (editor : Editor) : Tab :=
  { t with
    editor := some { editor with session := none, config := t.mounts, choosing := false }
    mounts := t.mounts + 1 }

def discardSession (t : Tab) : Option Tab :=
  t.mounted.bind fun (editor, _) =>
    if editor.session.isNone || editor.saving then none else some (t.closeSession editor)

def act (tables : UnicodeTables) (t : Tab) : Action → Option Tab
  | .navigate pageId => some { t with pageId }.render
  | .resize narrow => some { t with narrow }
  | .create layout => t.create tables (layout.map Subtype.val)
  | .rename draft => t.rename draft
  | .remove => t.remove
  | .chooseSource endpoints choice => t.chooseSource endpoints choice
  | .beginSession => t.beginSession
  | .editSession edit => t.editSession edit
  | .saveSession => t.saveSession
  | .discardSession => t.discardSession

/-- `go`: to a page of the document the server took. -/
def go (t : Tab) (next : DashboardDocument) (pageId : Option Utf16) : Tab :=
  match pageId.bind (findPage next) with
  | some target => { t with pageId := some target.id }.render
  | none => t

/-- The control that waited for a save goes on. -/
def resume (t : Tab) (request : Request) (next : DashboardDocument) (saved : Bool) : Tab :=
  match request.control, t.editor with
  | .pageBar, _ => { if saved then t.go next request.goTo else t with busy := false }
  | .pageConfig mount, some editor =>
    if editor.config = mount then { t with editor := some { editor with choosing := false } } else t
  | .editor mount, some editor =>
    if editor.mount = mount then
      if saved then t.closeSession { editor with saving := false }
      else { t with editor := some { editor with saving := false } }
    else t
  | _, none => t

def answer (t : Tab) (write : Nat) : Option Tab :=
  (t.client.answer SaveOutcome.isSaved write).map fun (write, outcome, client) =>
    { t with client, readOnly := outcome.readOnly }.render.resume write.change write.document outcome.isSaved

def step (tables : UnicodeTables) (t : Tab) : Event → Option Tab
  | .act action => t.act tables action
  | .take outcome =>
    (t.client.take (fun next => some (serializeDashboardDocument next)) SaveOutcome.isSaved outcome).map
      fun client => { t with client }
  | .answer write => t.answer write

end Tab

end SparkDashboard.Dashboard
