import SparkDashboard.Dashboard.Preset

/-!
# The page list

Making a page, naming it, choosing what it shows and throwing it away. Unicode's tables
are a parameter of the slug a new page's id is made from.
-/

namespace SparkDashboard.Dashboard

open Utf16

structure UnicodeTables where
  toLowerCase : Utf16 → Utf16
  /-- `[\p{Letter}\p{Number}]`, by code point. -/
  isLetterOrNumber : Nat → Bool
  not_letter_of_space : ∀ u, isSpace u = true → isLetterOrNumber u.toNat = false

/-- `replace(/[^\p{Letter}\p{Number}]+/gu, '-')`; the flag is whether a run is being replaced. -/
def dashed (tables : UnicodeTables) : Bool → List (Nat × Utf16) → Utf16
  | _, [] => []
  | inRun, (codePoint, units) :: rest =>
    if tables.isLetterOrNumber codePoint then units ++ dashed tables false rest
    else if inRun then dashed tables true rest
    else 0x2D :: dashed tables true rest

def pageSlug (tables : UnicodeTables) (name : Utf16) : Utf16 :=
  ((dashed tables false (codePoints (tables.toLowerCase name))).dropWhile (· == 0x2D)).rdropWhile (· == 0x2D)

structure AddPageOutcome where
  document : DashboardDocument
  pageId : Utf16

def unusedPageName (pages : List DashboardPage) : Utf16 :=
  FreshName.fresh (pages.map DashboardPage.name) (fun position => utf16 "Page " ++ decimal position)
    (pages.length + 1)

/-- `base`, or the first of `base 2`, `base 3`, … that is free. -/
def unusedNameFrom (pages : List DashboardPage) (base : Utf16) : Utf16 :=
  FreshName.freshOr (pages.map DashboardPage.name) base fun copy => base ++ 0x20 :: decimal copy

def unusedPageId (tables : UnicodeTables) (pages : List DashboardPage) (name : Utf16) : Utf16 :=
  let slug := pageSlug tables name
  unusedId (pages.map DashboardPage.id) (if slug = [] then utf16 "page" else slug)

def appended (tables : UnicodeTables) (document : DashboardDocument) (name : Utf16)
    (panels : List DashboardPanel) : AddPageOutcome :=
  let pageId := unusedPageId tables document.pages name
  { pageId, document := { document with pages := document.pages ++ [⟨pageId, name, none, panels⟩] } }

def addPage (tables : UnicodeTables) (document : DashboardDocument) (name : Option Utf16) : AddPageOutcome :=
  let trimmed := trim (name.getD [])
  appended tables document (if trimmed = [] then unusedPageName document.pages else trimmed) []

def addPageFrom (tables : UnicodeTables) (document : DashboardDocument) (layout : StartingLayout) :
    AddPageOutcome :=
  appended tables document (unusedNameFrom document.pages layout.name) layout.panels

def findPage (document : DashboardDocument) (pageId : Utf16) : Option DashboardPage :=
  document.pages.find? fun candidate => decide (candidate.id = pageId)

def mapPage (document : DashboardDocument) (pageId : Utf16) (edit : DashboardPage → DashboardPage) :
    DashboardDocument :=
  { document with
    pages := document.pages.map fun candidate => if candidate.id = pageId then edit candidate else candidate }

theorem map_id_mapPage (document : DashboardDocument) (pageId : Utf16) {edit : DashboardPage → DashboardPage}
    (hid : ∀ page, (edit page).id = page.id) :
    (mapPage document pageId edit).pages.map DashboardPage.id = document.pages.map DashboardPage.id := by
  rw [mapPage, List.map_map]
  apply List.map_congr_left
  intro page _
  simp only [Function.comp_apply]
  split
  · exact hid page
  · rfl

def renamePage (document : DashboardDocument) (pageId name : Utf16) : DashboardDocument :=
  let trimmed := trim name
  match findPage document pageId with
  | none => document
  | some page =>
    if trimmed = [] ∨ trimmed = page.name then document
    else mapPage document pageId fun candidate => { candidate with name := trimmed }

theorem map_id_renamePage (document : DashboardDocument) (pageId name : Utf16) :
    (renamePage document pageId name).pages.map DashboardPage.id = document.pages.map DashboardPage.id := by
  rw [renamePage]
  split
  · rfl
  · split
    · rfl
    · exact map_id_mapPage document pageId fun _ => rfl

/-- No source puts the page back on automatic. -/
def setPageSource (document : DashboardDocument) (pageId : Utf16) (source : Option PageSource) :
    DashboardDocument :=
  match findPage document pageId with
  | none => document
  | some page =>
    if sameSource page.source source then document
    else mapPage document pageId fun candidate => { candidate with source }

theorem map_id_setPageSource (document : DashboardDocument) (pageId : Utf16) (source : Option PageSource) :
    (setPageSource document pageId source).pages.map DashboardPage.id = document.pages.map DashboardPage.id := by
  rw [setPageSource]
  split
  · rfl
  · split
    · rfl
    · exact map_id_mapPage document pageId fun _ => rfl

inductive RemovePageOutcome where
  | removed (document : DashboardDocument) (nextPageId : Option Utf16)
  | lastPage

def removePage (document : DashboardDocument) (pageId : Utf16) : RemovePageOutcome :=
  if document.pages.length ≤ 1 then .lastPage
  else
    let position := (document.pages.findIdx? fun page => decide (page.id = pageId)).getD 0
    let pages := document.pages.filter fun page => decide (page.id ≠ pageId)
    let neighbour := (pages[position - 1]?).or pages.head?
    .removed { document with pages } (neighbour.map DashboardPage.id)

def asciiTables : UnicodeTables where
  toLowerCase s := s.map fun u => if 0x41 ≤ u ∧ u ≤ 0x5A then u + 0x20 else u
  isLetterOrNumber c := decide (0x30 ≤ c ∧ c ≤ 0x39 ∨ 0x41 ≤ c ∧ c ≤ 0x5A ∨ 0x61 ≤ c ∧ c ≤ 0x7A)
  not_letter_of_space u h := by
    rw [decide_eq_false_iff_not]
    intro hletter
    simp [isSpace, UInt16.le_iff_toNat_le, ← UInt16.toNat_inj] at h
    omega

end SparkDashboard.Dashboard
