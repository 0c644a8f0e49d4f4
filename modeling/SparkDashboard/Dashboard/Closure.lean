import SparkDashboard.Dashboard.Editing
import SparkDashboard.Dashboard.WellFormed

/-!
# Edited documents are read back as they were

Every edit of a page or of its panels keeps a document one the reader leaves alone.
-/

namespace SparkDashboard.Dashboard

open Utf16

section Slug

theorem isSpace_of_surrogate {u : UInt16} (h : isLead u = true ∨ isTrail u = true) : isSpace u = false := by
  have hrange : 0xD800 ≤ u.toNat ∧ u.toNat ≤ 0xDFFF := by
    rcases h with h | h
    · simp [isLead, UInt16.le_iff_toNat_le] at h
      omega
    · simp [isTrail, UInt16.le_iff_toNat_le] at h
      omega
  simp [isSpace, UInt16.le_iff_toNat_le, ← UInt16.toNat_inj]
  omega

theorem codePoint_of_space (s : Utf16) :
    ∀ point ∈ codePoints s, ∀ u ∈ point.2, isSpace u = true → point.1 = u.toNat := by
  induction s using codePoints.induct with
  | case1 => exact fun point h => absurd h List.not_mem_nil
  | case2 u =>
    intro point hpoint v hv _
    rw [codePoints, List.mem_singleton] at hpoint
    rw [hpoint] at hv ⊢
    rw [List.mem_singleton.mp hv]
  | case3 u v rest hpair ih =>
    intro point hpoint w hw hspace
    rw [codePoints, if_pos hpair] at hpoint
    rw [Bool.and_eq_true] at hpair
    rcases List.mem_cons.mp hpoint with rfl | hpoint
    · rcases List.mem_cons.mp hw with rfl | hw
      · rw [isSpace_of_surrogate (.inl hpair.1)] at hspace
        cases hspace
      · rw [List.mem_singleton.mp hw, isSpace_of_surrogate (.inr hpair.2)] at hspace
        cases hspace
    · exact ih point hpoint w hw hspace
  | case4 u v rest hpair ih =>
    intro point hpoint w hw hspace
    rw [codePoints, if_neg hpair] at hpoint
    rcases List.mem_cons.mp hpoint with rfl | hpoint
    · rw [List.mem_singleton.mp hw]
    · exact ih point hpoint w hw hspace

theorem not_space_dashed (tables : UnicodeTables) {points : List (Nat × Utf16)}
    (h : ∀ point ∈ points, ∀ u ∈ point.2, isSpace u = true → point.1 = u.toNat) (inRun : Bool) :
    ∀ u ∈ dashed tables inRun points, isSpace u = false := by
  induction points generalizing inRun with
  | nil =>
    intro u hu
    rw [dashed] at hu
    cases hu
  | cons point points ih =>
    obtain ⟨codePoint, units⟩ := point
    have hrest := ih fun point hpoint => h point (List.mem_cons_of_mem _ hpoint)
    intro u hu
    rw [dashed] at hu
    split at hu
    · rename_i hletter
      rcases List.mem_append.mp hu with hunits | hu
      · by_contra hspace
        rw [Bool.not_eq_false] at hspace
        have hsame : codePoint = u.toNat := h _ List.mem_cons_self u hunits hspace
        rw [hsame, tables.not_letter_of_space u hspace] at hletter
        cases hletter
      · exact hrest false u hu
    split at hu
    · exact hrest true u hu
    · rcases List.mem_cons.mp hu with rfl | hu
      · decide
      · exact hrest true u hu

theorem trimmed_pageSlug (tables : UnicodeTables) (name : Utf16) : Trimmed (pageSlug tables name) := by
  apply trimmed_of_forall
  intro u hu
  apply not_space_dashed tables (codePoint_of_space _) false
  exact (List.dropWhile_suffix _).mem ((List.rdropWhile_prefix _ _).mem hu)

end Slug

section Pages

theorem trimmed_unusedPageId (tables : UnicodeTables) (pages : List DashboardPage) (name : Utf16) :
    Trimmed (unusedPageId tables pages name) ∧ unusedPageId tables pages name ≠ [] := by
  simp only [unusedPageId]
  split
  · exact trimmed_unusedId _ (trimmed_of_spaceless (by decide)) (by decide)
  · rename_i hne
    exact trimmed_unusedId _ (trimmed_pageSlug tables name) hne

theorem trimmed_unusedPageName (pages : List DashboardPage) :
    Trimmed (unusedPageName pages) ∧ unusedPageName pages ≠ [] := by
  obtain ⟨n, hn⟩ := FreshName.exists_eq_fresh (pages.map DashboardPage.name)
    (fun position => utf16 "Page " ++ decimal position) (pages.length + 1)
  rw [unusedPageName, hn]
  exact ⟨trimmed_pageName n, List.append_ne_nil_of_right_ne_nil _ (decimal_ne_nil n)⟩

theorem trimmed_unusedNameFrom (pages : List DashboardPage) {base : Utf16} (htrimmed : Trimmed base)
    (hne : base ≠ []) : Trimmed (unusedNameFrom pages base) ∧ unusedNameFrom pages base ≠ [] :=
  trimmed_freshOr _ htrimmed hne 0x20

theorem wellFormed_appended (tables : UnicodeTables) {document : DashboardDocument} (h : WellFormed document)
    {name : Utf16} (hne : name ≠ []) (htrimmed : Trimmed name) {panels : List DashboardPanel}
    (hpanels : WellFormedPanels panels) : WellFormed (appended tables document name panels).document := by
  have hid := trimmed_unusedPageId tables document.pages name
  refine ⟨h.version, List.append_ne_nil_of_left_ne_nil h.nonempty _, ?_, ?_⟩
  · intro page hpage
    rcases List.mem_append.mp hpage with hpage | hpage
    · exact h.each page hpage
    · rw [List.mem_singleton.mp hpage]
      refine ⟨hid.2, hid.1, hne, htrimmed, ?_, hpanels⟩
      intro source hsource
      cases hsource
  · simp only [appended, List.map_append, List.map_singleton]
    exact nodup_concat_unusedId h.distinct _

/-- An edit of one page that keeps its id keeps the rest. -/
theorem wellFormed_mapPage {document : DashboardDocument} (h : WellFormed document) (pageId : Utf16)
    {edit : DashboardPage → DashboardPage} (hid : ∀ page, (edit page).id = page.id)
    (hedit : ∀ page ∈ document.pages, page.id = pageId → WellFormedPage page → WellFormedPage (edit page)) :
    WellFormed (mapPage document pageId edit) := by
  refine ⟨h.version, fun hnil => h.nonempty (List.map_eq_nil_iff.mp hnil), ?_, ?_⟩
  · intro page hpage
    obtain ⟨before, hbefore, rfl⟩ := List.mem_map.mp hpage
    split
    · exact hedit before hbefore ‹_› (h.each before hbefore)
    · exact h.each before hbefore
  · rw [map_id_mapPage document pageId hid]
    exact h.distinct

theorem wellFormed_renamePage {document : DashboardDocument} (h : WellFormed document) (pageId name : Utf16) :
    WellFormed (renamePage document pageId name) := by
  simp only [renamePage]
  split
  · exact h
  split
  · exact h
  · rename_i hname
    refine wellFormed_mapPage h pageId (fun _ => rfl) ?_
    intro page _ _ hpage
    exact ⟨hpage.idNonempty, hpage.idTrimmed, fun hnil => hname (.inl hnil), trimmed_trim name, hpage.source,
      hpage.panels⟩

theorem wellFormed_setPageSource {document : DashboardDocument} (h : WellFormed document) (pageId : Utf16)
    {source : Option PageSource} (hsource : ∀ s, source = some s → s.Readable) :
    WellFormed (setPageSource document pageId source) := by
  rw [setPageSource]
  split
  · exact h
  split
  · exact h
  · refine wellFormed_mapPage h pageId (fun _ => rfl) ?_
    intro page _ _ hpage
    exact ⟨hpage.idNonempty, hpage.idTrimmed, hpage.nameNonempty, hpage.nameTrimmed, hsource, hpage.panels⟩

/-- Of two pages or more, no two of one id, one stays. -/
theorem wellFormed_removePage {document : DashboardDocument} (h : WellFormed document) {pageId : Utf16}
    {after : DashboardDocument} {nextPageId : Option Utf16}
    (hremoved : removePage document pageId = .removed after nextPageId) : WellFormed after := by
  rw [removePage] at hremoved
  split at hremoved
  · cases hremoved
  · rename_i hmany
    cases hremoved
    refine ⟨h.version, ?_, fun page hpage => h.each page (List.mem_of_mem_filter hpage),
      h.distinct.sublist (List.filter_sublist.map _)⟩
    intro hnil
    have hall : ∀ page ∈ document.pages, page.id = pageId := by
      intro page hpage
      have hnone := List.filter_eq_nil_iff.mp hnil page hpage
      rw [decide_eq_true_eq] at hnone
      exact not_not.mp hnone
    have hdistinct := h.distinct
    rcases hpages : document.pages with _ | ⟨first, _ | ⟨second, rest⟩⟩
    · exact h.nonempty hpages
    · rw [hpages] at hmany
      exact hmany (Nat.le_refl 1)
    · rw [hpages] at hall hdistinct
      rw [List.map_cons, List.map_cons, List.nodup_cons] at hdistinct
      apply hdistinct.1
      rw [hall first List.mem_cons_self, hall second (List.mem_cons_of_mem _ List.mem_cons_self)]
      exact List.mem_cons_self

end Pages

section Panels

theorem wellFormedPanels_map {panels : List DashboardPanel} (h : WellFormedPanels panels)
    {edit : DashboardPanel → DashboardPanel} (hid : ∀ panel, (edit panel).id = panel.id)
    (hedit : ∀ panel, WellFormedPanel panel → WellFormedPanel (edit panel)) :
    WellFormedPanels (panels.map edit) := by
  constructor
  · intro panel hpanel
    obtain ⟨before, hbefore, rfl⟩ := List.mem_map.mp hpanel
    exact hedit before (h.each before hbefore)
  · rw [List.map_map, show DashboardPanel.id ∘ edit = DashboardPanel.id from funext hid]
    exact h.distinct

theorem wellFormedPanels_mapPanel {panels : List DashboardPanel} (h : WellFormedPanels panels) (panelId : Utf16)
    {edit : DashboardPanel → DashboardPanel} (hid : ∀ panel, (edit panel).id = panel.id)
    (hedit : ∀ panel, WellFormedPanel panel → WellFormedPanel (edit panel)) :
    WellFormedPanels (mapPanel panels panelId edit) := by
  apply wellFormedPanels_map h
  · intro panel
    split
    · exact hid panel
    · rfl
  · intro panel hpanel
    split
    · exact hedit panel hpanel
    · exact hpanel

theorem wellFormedPanels_applyLayoutChanges {panels : List DashboardPanel} (h : WellFormedPanels panels)
    (changes : List LayoutChange) : WellFormedPanels (applyLayoutChanges panels changes) := by
  apply wellFormedPanels_map h
  · intro panel
    split
    · rfl
    split <;> rfl
  · intro panel hpanel
    split
    · exact hpanel
    · rename_i geometry hmoved
      obtain ⟨change, -, rfl⟩ := Option.map_eq_some_iff.mp hmoved
      split
      · exact hpanel
      · exact ⟨hpanel.idNonempty, hpanel.idTrimmed, hpanel.typeTrimmed, hpanel.title, inGrid_readGeometry _,
          hpanel.readable⟩

theorem wellFormedPanels_addPanel {panels : List DashboardPanel} (h : WellFormedPanels panels)
    {type : PanelType} {after : List DashboardPanel} {panelId : Utf16} (hadded : addPanel panels type = .added after panelId) :
    WellFormedPanels after := by
  rw [addPanel] at hadded
  split at hadded
  · cases hadded
  · rename_i geometry hslot
    cases hadded
    have hid := trimmed_unusedId (panels.map DashboardPanel.id) (trimmed_key type) (key_ne_nil type)
    constructor
    · intro panel hpanel
      rcases List.mem_append.mp hpanel with hpanel | hpanel
      · exact h.each panel hpanel
      · rw [List.mem_singleton.mp hpanel]
        refine ⟨hid.2, hid.1, trimmed_key type, ?_, inGrid_firstFreeSlot hslot, trivial⟩
        intro title htitle
        cases htitle
    · rw [List.map_append, List.map_singleton]
      exact nodup_concat_unusedId h.distinct _

theorem wellFormedPanels_removePanel {panels : List DashboardPanel} (h : WellFormedPanels panels)
    (panelId : Utf16) : WellFormedPanels (removePanel panels panelId) :=
  ⟨fun panel hpanel => h.each panel (List.mem_of_mem_filter hpanel),
    h.distinct.sublist (List.filter_sublist.map _)⟩

theorem wellFormedPanels_renamePanel {panels : List DashboardPanel} (h : WellFormedPanels panels)
    (panelId title : Utf16) : WellFormedPanels (renamePanel panels panelId title) := by
  refine wellFormedPanels_mapPanel h panelId (fun _ => rfl) ?_
  intro panel hpanel
  refine ⟨hpanel.idNonempty, hpanel.idTrimmed, hpanel.typeTrimmed, ?_, hpanel.inGrid, hpanel.readable⟩
  intro stored hstored
  simp only at hstored
  split at hstored
  · cases hstored
  · rename_i hne
    cases hstored
    exact ⟨hne, trimmed_trim title⟩

theorem wellFormedPanels_editPanels {panels : List DashboardPanel} (h : WellFormedPanels panels)
    (edit : PanelEdit) : WellFormedPanels (editPanels panels edit) := by
  cases edit with
  | applyLayoutChanges changes => exact wellFormedPanels_applyLayoutChanges h changes
  | addPanel type =>
    rw [editPanels]
    split
    · rename_i after panelId hadded
      exact wellFormedPanels_addPanel h hadded
    · exact h
  | removePanel panelId => exact wellFormedPanels_removePanel h panelId
  | renamePanel panelId title => exact wellFormedPanels_renamePanel h panelId title
  | setPanelWindow panelId window =>
    refine wellFormedPanels_mapPanel h panelId (fun _ => rfl) ?_
    intro panel hpanel
    exact ⟨hpanel.idNonempty, hpanel.idTrimmed, hpanel.typeTrimmed, hpanel.title, hpanel.inGrid,
      hpanel.readable⟩
  | repointPanel panelId choice =>
    refine wellFormedPanels_mapPanel h panelId (fun _ => rfl) ?_
    intro panel hpanel
    exact ⟨hpanel.idNonempty, hpanel.idTrimmed, hpanel.typeTrimmed, hpanel.title, hpanel.inGrid,
      readable_bindingFromChoice choice⟩

theorem wellFormedPanels_session {panels : List DashboardPanel} (h : WellFormedPanels panels)
    (edits : List PanelEdit) : WellFormedPanels (edits.foldl editPanels panels) := by
  induction edits generalizing panels with
  | nil => exact h
  | cons edit edits ih => exact ih (wellFormedPanels_editPanels h edit)

theorem wellFormed_withPagePanels {document : DashboardDocument} (h : WellFormed document) (pageId : Utf16)
    {panels : List DashboardPanel} (hpanels : WellFormedPanels panels) :
    WellFormed (withPagePanels document pageId panels) := by
  refine wellFormed_mapPage h pageId (fun _ => rfl) ?_
  intro page _ _ hpage
  exact ⟨hpage.idNonempty, hpage.idTrimmed, hpage.nameNonempty, hpage.nameTrimmed, hpage.source, hpanels⟩

end Panels

theorem mem_of_findPage {document : DashboardDocument} {pageId : Utf16} {page : DashboardPage}
    (h : findPage document pageId = some page) : page ∈ document.pages ∧ page.id = pageId := by
  rw [findPage] at h
  have hid := List.find?_some h
  exact ⟨List.mem_of_find?_eq_some h, by simpa using hid⟩

/-- Every edit there is keeps a document well formed. -/
theorem wellFormed_edit (tables : UnicodeTables) {document : DashboardDocument} (h : WellFormed document)
    (change : Edit) : WellFormed (edit tables document change) := by
  cases change with
  | addPage name =>
    have hname :
        Trimmed (if trim (name.getD []) = [] then unusedPageName document.pages else trim (name.getD [])) ∧
        (if trim (name.getD []) = [] then unusedPageName document.pages else trim (name.getD [])) ≠ [] := by
      split
      · exact trimmed_unusedPageName document.pages
      · exact ⟨trimmed_trim _, ‹_›⟩
    exact wellFormed_appended tables h hname.2 hname.1 ⟨fun _ h => absurd h List.not_mem_nil, List.nodup_nil⟩
  | addPageFrom layout shipped =>
    obtain ⟨hpanels, hne, htrimmed⟩ := wellFormedPanels_startingLayout shipped
    have hname := trimmed_unusedNameFrom document.pages htrimmed hne
    exact wellFormed_appended tables h hname.2 hname.1 hpanels
  | renamePage pageId name => exact wellFormed_renamePage h pageId name
  | setPageSource pageId choice =>
    exact wellFormed_setPageSource h pageId fun source hsource => readable_pageSourceFromChoice hsource
  | removePage pageId =>
    rw [edit]
    split
    · rename_i after nextPageId hremoved
      exact wellFormed_removePage h hremoved
    · exact h
  | savePanels pageId edits =>
    rw [edit]
    split
    · exact h
    · rename_i page hfind
      exact wellFormed_withPagePanels h pageId
        (wellFormedPanels_session (h.each page (mem_of_findPage hfind).1).panels edits)

theorem wellFormed_edits (tables : UnicodeTables) {document : DashboardDocument} (h : WellFormed document)
    (edits : List Edit) : WellFormed (edits.foldl (edit tables) document) := by
  induction edits generalizing document with
  | nil => exact h
  | cons change edits ih => exact ih (wellFormed_edit tables h change)

/-- Any text loads, and whatever edits follow, the document is well formed and is loaded from
its own text exactly as it is, with no fallback, no migration and no default. -/
theorem edited_document_round_trips (tables : UnicodeTables) (stored : Option Utf16) (edits : List Edit) :
    ∃ loaded, loadDashboardConfiguration stored dashboardMigrationPath = .ok loaded ∧
      WellFormed (edits.foldl (edit tables) loaded.document) ∧
      loadDashboardConfiguration
          (some (serializeDashboardDocument (edits.foldl (edit tables) loaded.document)))
          dashboardMigrationPath =
        .ok ⟨edits.foldl (edit tables) loaded.document, false, none, false⟩ := by
  obtain ⟨loaded, hload, hformed⟩ := exists_loaded stored dashboardMigrationPath
  have hedited := wellFormed_edits tables hformed edits
  exact ⟨loaded, hload, hedited, load_serialize hedited⟩

end SparkDashboard.Dashboard
