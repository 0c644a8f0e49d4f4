import SparkDashboard.Dashboard.Closure

/-!
# What each page edit writes

A page has a name, a source and its panels. An edit writes some of these for one page, to a
value or to nothing, and leaves the rest of the document as it was.
-/

namespace SparkDashboard.Dashboard

open Utf16

inductive Attribute where
  | name
  | source
  | panels
  deriving DecidableEq

inductive Setting where
  | name (name : Utf16)
  | source (source : Option PageSource)
  | panels (panels : List DashboardPanel)
  deriving DecidableEq

def DashboardPage.setting (page : DashboardPage) : Attribute → Setting
  | .name => .name page.name
  | .source => .source page.source
  | .panels => .panels page.panels

/-- What a document has for an attribute of a page, if it has the page. -/
def look (document : DashboardDocument) (place : Utf16 × Attribute) : Option Setting :=
  (findPage document place.1).map fun page => page.setting place.2

inductive PageChange where
  | created (page : DashboardPage)
  | renamed (pageId name : Utf16)
  | pointed (pageId : Utf16) (source : Option PageSource)
  | arranged (pageId : Utf16) (panels : List DashboardPanel)
  | removed (pageId : Utf16)
  deriving DecidableEq

namespace PageChange

def pageId : PageChange → Utf16
  | .created page => page.id
  | .renamed pageId _ | .pointed pageId _ | .arranged pageId _ | .removed pageId => pageId

def attributes : PageChange → List Attribute
  | .renamed _ _ => [.name]
  | .pointed _ _ => [.source]
  | .arranged _ _ => [.panels]
  | .created _ | .removed _ => [.name, .source, .panels]

def value (change : PageChange) (which : Attribute) : Option Setting :=
  match change with
  | .created page => some (page.setting which)
  | .renamed _ name => some (.name name)
  | .pointed _ source => some (.source source)
  | .arranged _ panels => some (.panels panels)
  | .removed _ => none

def writes (change : PageChange) (place : Utf16 × Attribute) : Option (Option Setting) :=
  if place.1 = change.pageId ∧ place.2 ∈ change.attributes then some (change.value place.2) else none

end PageChange

section Looking

theorem findPage_mapPage (document : DashboardDocument) (pageId : Utf16) {edit : DashboardPage → DashboardPage}
    (hid : ∀ page, (edit page).id = page.id) (id : Utf16) :
    findPage (mapPage document pageId edit) id =
      if id = pageId then (findPage document id).map edit else findPage document id := by
  rw [findPage, mapPage, List.find?_map]
  have hsame : ((fun candidate : DashboardPage => decide (candidate.id = id)) ∘ fun candidate =>
      if candidate.id = pageId then edit candidate else candidate) =
      fun candidate => decide (candidate.id = id) := by
    funext candidate
    simp only [Function.comp_apply]
    split
    · rw [hid]
    · rfl
  rw [hsame]
  change (findPage document id).map _ = _
  cases hfind : findPage document id with
  | none => simp
  | some page =>
    have hpage := (mem_of_findPage hfind).2
    by_cases hid : id = pageId
    · simp [hid, hpage]
    · simp [hid, hpage]

theorem look_mapPage (change : PageChange) {document : DashboardDocument} {page : DashboardPage}
    {edit : DashboardPage → DashboardPage} (hpage : findPage document change.pageId = some page)
    (hid : ∀ page, (edit page).id = page.id)
    (hedit : ∀ which, some ((edit page).setting which) =
      if which ∈ change.attributes then change.value which else some (page.setting which))
    (place : Utf16 × Attribute) :
    look (mapPage document change.pageId edit) place = (change.writes place).getD (look document place) := by
  rw [look, findPage_mapPage document change.pageId hid, PageChange.writes]
  by_cases hplace : place.1 = change.pageId
  · rw [if_pos hplace, look, hplace, hpage]
    simp only [Option.map_some, hedit, true_and]
    split <;> rfl
  · rw [if_neg hplace, if_neg fun h => hplace h.1]
    rfl

theorem look_renamePage {document : DashboardDocument} {pageId draft : Utf16} {page : DashboardPage}
    (hpage : findPage document pageId = some page) (hname : ¬(trim draft = [] ∨ trim draft = page.name))
    (place : Utf16 × Attribute) :
    look (renamePage document pageId draft) place =
      ((PageChange.renamed pageId (trim draft)).writes place).getD (look document place) := by
  simp only [renamePage, hpage, if_neg hname]
  refine look_mapPage (.renamed pageId (trim draft)) hpage ?_ ?_ place
  · exact fun _ => rfl
  · intro which
    cases which <;> rfl

theorem eq_of_sameSource {a b : Option PageSource} (h : sameSource a b = true) : a = b := by
  rcases a with _ | _ | a <;> rcases b with _ | _ | b <;> first | rfl | cases h | skip
  rw [of_decide_eq_true h]

theorem look_setPageSource {document : DashboardDocument} {pageId : Utf16} {page : DashboardPage}
    (hpage : findPage document pageId = some page) (source : Option PageSource) (place : Utf16 × Attribute) :
    look (setPageSource document pageId source) place =
      ((PageChange.pointed pageId source).writes place).getD (look document place) := by
  simp only [setPageSource, hpage]
  split
  · rename_i hsame
    rw [PageChange.writes]
    split
    · rename_i hplace
      rw [look, show place.1 = pageId from hplace.1, hpage, List.mem_singleton.mp hplace.2]
      simp only [Option.map_some, DashboardPage.setting, eq_of_sameSource hsame]
      rfl
    · rfl
  · refine look_mapPage (.pointed pageId source) hpage ?_ ?_ place
    · exact fun _ => rfl
    · intro which
      cases which <;> rfl

theorem look_withPagePanels {document : DashboardDocument} {pageId : Utf16} {page : DashboardPage}
    (hpage : findPage document pageId = some page) (panels : List DashboardPanel) (place : Utf16 × Attribute) :
    look (withPagePanels document pageId panels) place =
      ((PageChange.arranged pageId panels).writes place).getD (look document place) := by
  refine look_mapPage (.arranged pageId panels) hpage ?_ ?_ place
  · exact fun _ => rfl
  · intro which
    cases which <;> rfl

theorem mem_attributes_created (page : DashboardPage) (which : Attribute) :
    which ∈ (PageChange.created page).attributes := by
  cases which <;> simp [PageChange.attributes]

theorem findPage_appended (tables : UnicodeTables) (document : DashboardDocument) (name : Utf16)
    (panels : List DashboardPanel) (id : Utf16) :
    findPage (appended tables document name panels).document id =
      if id = unusedPageId tables document.pages name then
        some ⟨unusedPageId tables document.pages name, name, none, panels⟩
      else findPage document id := by
  have hnew : unusedPageId tables document.pages name ∉ document.pages.map DashboardPage.id :=
    unusedId_not_mem _ _
  rw [findPage, appended, List.find?_append, List.find?_singleton]
  by_cases hid : id = unusedPageId tables document.pages name
  · have hnone : document.pages.find? (fun candidate => decide (candidate.id = id)) = none := by
      rw [List.find?_eq_none]
      intro page hpage hfound
      exact hnew (List.mem_map.mpr ⟨page, hpage, (of_decide_eq_true hfound).trans hid⟩)
    rw [hnone, if_pos hid, Option.none_or, if_pos (decide_eq_true hid.symm)]
  · rw [if_neg hid, if_neg fun hfound => hid (of_decide_eq_true hfound).symm, Option.or_none]
    rfl

theorem look_appended (tables : UnicodeTables) (document : DashboardDocument) (name : Utf16)
    (panels : List DashboardPanel) (place : Utf16 × Attribute) :
    look (appended tables document name panels).document place =
      ((PageChange.created ⟨unusedPageId tables document.pages name, name, none, panels⟩).writes place).getD
        (look document place) := by
  rw [look, findPage_appended, PageChange.writes]
  by_cases hplace : place.1 = unusedPageId tables document.pages name
  · rw [if_pos hplace, if_pos ⟨hplace, mem_attributes_created _ place.2⟩]
    rfl
  · rw [if_neg hplace, if_neg fun h => hplace h.1]
    rfl

theorem findPage_filter (pages : List DashboardPage) (pageId id : Utf16) :
    (pages.filter fun page => decide (page.id ≠ pageId)).find? (fun candidate => decide (candidate.id = id)) =
      if id = pageId then none else pages.find? fun candidate => decide (candidate.id = id) := by
  induction pages with
  | nil => rw [List.filter_nil, List.find?_nil, ite_self]
  | cons page rest ih =>
    by_cases hpage : page.id = pageId
    · rw [List.filter_cons_of_neg (by simpa using hpage), ih, List.find?_cons]
      by_cases hid : id = pageId
      · rw [if_pos hid, if_pos hid]
      · rw [if_neg hid, if_neg hid, decide_eq_false fun h => hid (h.symm.trans hpage)]
    · rw [List.filter_cons_of_pos (by simpa using hpage), List.find?_cons, ih, List.find?_cons]
      by_cases hid : id = pageId
      · rw [if_pos hid, if_pos hid, decide_eq_false fun h => hpage (h.trans hid)]
      · rw [if_neg hid, if_neg hid]

theorem mem_attributes_removed (pageId : Utf16) (which : Attribute) :
    which ∈ (PageChange.removed pageId).attributes := by
  cases which <;> simp [PageChange.attributes]

theorem look_removePage {document after : DashboardDocument} {pageId : Utf16} {nextPageId : Option Utf16}
    (hremoved : removePage document pageId = .removed after nextPageId) (place : Utf16 × Attribute) :
    look after place = ((PageChange.removed pageId).writes place).getD (look document place) := by
  rw [removePage] at hremoved
  split at hremoved
  · cases hremoved
  cases hremoved
  rw [look, findPage, findPage_filter, PageChange.writes]
  by_cases hplace : place.1 = pageId
  · rw [if_pos hplace, if_pos ⟨hplace, mem_attributes_removed pageId place.2⟩]
    rfl
  · rw [if_neg hplace, if_neg fun h => hplace h.1]
    rfl

end Looking

end SparkDashboard.Dashboard
