import SparkDashboard.Dashboard.Load

/-!
# Documents the reader leaves alone

What reading a document makes sure of, and that a document it is true of is read back
from its text as it was.
-/

namespace SparkDashboard.Dashboard

open Utf16

structure WellFormedPanel (panel : DashboardPanel) : Prop where
  idNonempty : panel.id ≠ []
  idTrimmed : Trimmed panel.id
  typeTrimmed : Trimmed panel.type
  title : ∀ title, panel.title = some title → title ≠ [] ∧ Trimmed title
  inGrid : InGrid panel.geometry
  readable : panel.binding.Readable

structure WellFormedPanels (panels : List DashboardPanel) : Prop where
  each : ∀ panel ∈ panels, WellFormedPanel panel
  distinct : (panels.map DashboardPanel.id).Nodup

structure WellFormedPage (page : DashboardPage) : Prop where
  idNonempty : page.id ≠ []
  idTrimmed : Trimmed page.id
  nameNonempty : page.name ≠ []
  nameTrimmed : Trimmed page.name
  source : ∀ source, page.source = some source → source.Readable
  panels : WellFormedPanels page.panels

structure WellFormed (document : DashboardDocument) : Prop where
  version : document.version = .ofNat dashboardSchemaVersion
  nonempty : document.pages ≠ []
  each : ∀ page ∈ document.pages, WellFormedPage page
  distinct : (document.pages.map DashboardPage.id).Nodup

section Ids

theorem numbered_injective (base : Utf16) : Function.Injective (numbered base) := by
  intro n m h
  exact decimal_injective (List.cons.inj (List.append_cancel_left h)).2

theorem unusedId_not_mem (taken : List Utf16) (base : Utf16) : unusedId taken base ∉ taken :=
  FreshName.freshOr_not_mem taken base (numbered_injective base)

theorem nodup_concat_unusedId {taken : List Utf16} (h : taken.Nodup) (base : Utf16) :
    (taken ++ [unusedId taken base]).Nodup := by
  rw [List.nodup_append]
  refine ⟨h, List.nodup_singleton _, ?_⟩
  rintro id hold id' hid' rfl
  rw [List.mem_singleton.mp hid'] at hold
  exact unusedId_not_mem taken base hold

theorem unusedId_of_not_mem {taken : List Utf16} {base : Utf16} (h : base ∉ taken) :
    unusedId taken base = base := FreshName.freshOr_of_not_mem _ h

theorem trimmed_append_decimal {base : Utf16} (htrimmed : Trimmed base) (hne : base ≠ []) {mark : UInt16}
    (n : Nat) : Trimmed (base ++ mark :: decimal n) := by
  constructor
  · intro u hu
    rw [List.head?_append_of_ne_nil _ hne] at hu
    exact htrimmed.head u hu
  · intro u hu
    rw [List.getLast?_append_of_ne_nil _ (List.cons_ne_nil _ _),
      List.getLast?_cons_of_ne_nil (decimal_ne_nil n)] at hu
    exact isSpace_of_isDigit (isDigit_of_mem_decimal (List.mem_of_getLast? hu))

theorem trimmed_freshOr (taken : List Utf16) {base : Utf16} (htrimmed : Trimmed base) (hne : base ≠ [])
    (mark : UInt16) :
    Trimmed (FreshName.freshOr taken base fun n => base ++ mark :: decimal n) ∧
      (FreshName.freshOr taken base fun n => base ++ mark :: decimal n) ≠ [] := by
  rcases FreshName.freshOr_cases taken base fun n => base ++ mark :: decimal n with hbase | ⟨n, hn⟩
  · rw [hbase]
    exact ⟨htrimmed, hne⟩
  · rw [hn]
    exact ⟨trimmed_append_decimal htrimmed hne n, List.append_ne_nil_of_left_ne_nil hne _⟩

theorem trimmed_unusedId (taken : List Utf16) {base : Utf16} (htrimmed : Trimmed base) (hne : base ≠ []) :
    Trimmed (unusedId taken base) ∧ unusedId taken base ≠ [] :=
  trimmed_freshOr taken htrimmed hne 0x2D

variable {T : Type} {kind : Utf16} {idOf : T → Utf16} {repair : Nat → Utf16 → T → T}

theorem distinct_withUniqueIds (hid : ∀ position id item, idOf (repair position id item) = id)
    (position : Nat) (taken : List Utf16) (items : List T) :
    (∀ item ∈ withUniqueIds kind idOf repair position taken items, idOf item ∉ taken) ∧
    ((withUniqueIds kind idOf repair position taken items).map idOf).Nodup := by
  induction items generalizing position taken with
  | nil => exact ⟨fun item h => absurd h List.not_mem_nil, List.nodup_nil⟩
  | cons item items ih =>
    simp only [withUniqueIds]
    generalize hbase : (if idOf item = [] then positionId kind position else idOf item) = base
    obtain ⟨hnew, hnodup⟩ := ih (position + 1) (unusedId taken base :: taken)
    constructor
    · intro other hother
      rcases List.mem_cons.mp hother with rfl | hother
      · rw [hid]
        exact unusedId_not_mem taken base
      · exact fun htaken => hnew other hother (List.mem_cons_of_mem _ htaken)
    · rw [List.map_cons, List.nodup_cons, hid]
      refine ⟨?_, hnodup⟩
      intro hmem
      obtain ⟨other, hother, hsame⟩ := List.mem_map.mp hmem
      apply hnew other hother
      rw [hsame]
      exact List.mem_cons_self

theorem mem_withUniqueIds (hkind : ∀ position, Trimmed (positionId kind position)) {position : Nat}
    {taken : List Utf16} {items : List T} (hitems : ∀ item ∈ items, Trimmed (idOf item)) :
    ∀ result ∈ withUniqueIds kind idOf repair position taken items,
      ∃ position id, ∃ item ∈ items, result = repair position id item ∧ id ≠ [] ∧ Trimmed id := by
  induction items generalizing position taken with
  | nil => exact fun result h => absurd h List.not_mem_nil
  | cons item items ih =>
    intro result hresult
    simp only [withUniqueIds] at hresult
    rcases List.mem_cons.mp hresult with rfl | hresult
    · have hbase : Trimmed (if idOf item = [] then positionId kind position else idOf item) ∧
          (if idOf item = [] then positionId kind position else idOf item) ≠ [] := by
        split
        · exact ⟨hkind position, List.append_ne_nil_of_right_ne_nil _ (List.cons_ne_nil _ _)⟩
        · rename_i hne
          exact ⟨hitems item List.mem_cons_self, hne⟩
      obtain ⟨htrimmed, hne⟩ := trimmed_unusedId taken hbase.1 hbase.2
      exact ⟨position, _, item, List.mem_cons_self, rfl, hne, htrimmed⟩
    · obtain ⟨position', id, other, hother, hrepair⟩ :=
        ih (fun item h => hitems item (List.mem_cons_of_mem _ h)) result hresult
      exact ⟨position', id, other, List.mem_cons_of_mem _ hother, hrepair⟩

theorem withUniqueIds_of_distinct {position : Nat} {taken : List Utf16} {items : List T}
    (hne : ∀ item ∈ items, idOf item ≠ []) (hdistinct : (items.map idOf).Nodup)
    (hnew : ∀ item ∈ items, idOf item ∉ taken)
    (hrepair : ∀ position, ∀ item ∈ items, repair position (idOf item) item = item) :
    withUniqueIds kind idOf repair position taken items = items := by
  induction items generalizing position taken with
  | nil => rfl
  | cons item items ih =>
    rw [List.map_cons, List.nodup_cons] at hdistinct
    have hself := hne item List.mem_cons_self
    simp only [withUniqueIds, if_neg hself]
    rw [unusedId_of_not_mem (hnew item List.mem_cons_self), hrepair position item List.mem_cons_self]
    congr 1
    apply ih (fun other h => hne other (List.mem_cons_of_mem _ h)) hdistinct.2
    · intro other hother htaken
      rcases List.mem_cons.mp htaken with hsame | htaken
      · apply hdistinct.1
        rw [← hsame]
        exact List.mem_map_of_mem hother
      · exact hnew other (List.mem_cons_of_mem _ hother) htaken
    · intro position other hother
      exact hrepair position other (List.mem_cons_of_mem _ hother)

end Ids

section Reading

theorem readText_eq_some {raw : Option Value} {text : Utf16} (h : readText raw = some text) :
    text ≠ [] ∧ Trimmed text := by
  rw [readText.eq_def] at h
  split at h
  · split at h
    · cases h
    · rename_i hne
      cases h
      exact ⟨hne, trimmed_trim _⟩
  · cases h

theorem trimmed_readText_getD (raw : Option Value) : Trimmed ((readText raw).getD []) := by
  cases h : readText raw with
  | none => exact trimmed_nil
  | some text => exact (readText_eq_some h).2

theorem trimmed_positionId_panel (position : Nat) : Trimmed (positionId (utf16 "panel") position) :=
  trimmed_append_decimal (trimmed_of_spaceless (by decide)) (by decide) (position + 1)

theorem trimmed_positionId_page (position : Nat) : Trimmed (positionId (utf16 "page") position) :=
  trimmed_append_decimal (trimmed_of_spaceless (by decide)) (by decide) (position + 1)

theorem wellFormedPanels_read (raws : List Members) : WellFormedPanels (uniquePanels (raws.map readPanel)) := by
  constructor
  · intro panel hpanel
    have hitems : ∀ item ∈ raws.map readPanel, Trimmed item.id := by
      intro item hitem
      obtain ⟨raw, -, rfl⟩ := List.mem_map.mp hitem
      exact trimmed_readText_getD _
    obtain ⟨position, id, item, hitem, rfl, hne, htrimmed⟩ :=
      mem_withUniqueIds trimmed_positionId_panel hitems panel hpanel
    obtain ⟨raw, -, rfl⟩ := List.mem_map.mp hitem
    exact ⟨hne, htrimmed, trimmed_readText_getD _, fun title htitle => readText_eq_some htitle,
      inGrid_readGeometry _, readable_readBinding _⟩
  · exact (distinct_withUniqueIds (fun _ _ _ => rfl) 0 [] _).2

theorem trimmed_pageName (position : Nat) : Trimmed (utf16 "Page " ++ decimal position) := by
  have hsplit : utf16 "Page " = utf16 "Page" ++ [0x20] := rfl
  rw [hsplit, List.append_assoc]
  exact trimmed_append_decimal (trimmed_of_spaceless (by decide)) (by decide) position

theorem wellFormedPages_read (raws : List Members) :
    (∀ page ∈ uniquePages (raws.map readPage), WellFormedPage page) ∧
    ((uniquePages (raws.map readPage)).map DashboardPage.id).Nodup := by
  constructor
  · intro page hpage
    have hitems : ∀ item ∈ raws.map readPage, Trimmed item.id := by
      intro item hitem
      obtain ⟨raw, -, rfl⟩ := List.mem_map.mp hitem
      exact trimmed_readText_getD _
    obtain ⟨position, id, item, hitem, rfl, hne, htrimmed⟩ :=
      mem_withUniqueIds trimmed_positionId_page hitems page hpage
    obtain ⟨raw, -, rfl⟩ := List.mem_map.mp hitem
    refine ⟨hne, htrimmed, ?_, ?_, fun source h => readable_readPageSource h, wellFormedPanels_read _⟩
    · simp only [repairPage]
      split
      · exact List.append_ne_nil_of_right_ne_nil _ (decimal_ne_nil _)
      · assumption
    · simp only [repairPage]
      split
      · exact trimmed_pageName _
      · exact trimmed_readText_getD _
  · exact (distinct_withUniqueIds (fun _ _ _ => rfl) 0 [] _).2

theorem parseDashboardDocument_eq_some {raw : Value} {document : DashboardDocument}
    (h : parseDashboardDocument raw = some document) :
    ∃ raws : List Members, document = ⟨.ofNat dashboardSchemaVersion, uniquePages (raws.map readPage)⟩ := by
  rw [parseDashboardDocument] at h
  split at h
  · cases h
  split at h
  · cases h
  split at h
  · cases h
  · simp only at h
    split at h
    · cases h
    · cases h
      exact ⟨_, rfl⟩

def ShippedPanel (panel : DashboardPanel) : Prop :=
  panel.id ≠ [] ∧ spaceless panel.id = true ∧ spaceless panel.type = true ∧
    panel.title = none ∧ panel.binding = .follow ∧ 1 ≤ panel.geometry.w ∧ 1 ≤ panel.geometry.h ∧
    panel.geometry.x + panel.geometry.w ≤ gridColumns ∧ panel.geometry.y + panel.geometry.h ≤ gridMaxRows

instance : DecidablePred ShippedPanel := fun panel =>
  inferInstanceAs (Decidable (panel.id ≠ [] ∧ spaceless panel.id = true ∧
    spaceless panel.type = true ∧ panel.title = none ∧ panel.binding = .follow ∧
    1 ≤ panel.geometry.w ∧ 1 ≤ panel.geometry.h ∧ panel.geometry.x + panel.geometry.w ≤ gridColumns ∧
    panel.geometry.y + panel.geometry.h ≤ gridMaxRows))

theorem ShippedPanel.wellFormed {panel : DashboardPanel} (h : ShippedPanel panel) : WellFormedPanel panel := by
  obtain ⟨hne, hid, htype, htitle, hbinding, hw, hh, hright, hbottom⟩ := h
  refine ⟨hne, trimmed_of_spaceless hid, trimmed_of_spaceless htype, ?_, ⟨hw, hh, hright, hbottom⟩, ?_⟩
  · intro title h
    rw [htitle] at h
    cases h
  · rw [hbinding]
    trivial

theorem wellFormedPanels_of_shipped {panels : List DashboardPanel}
    (h : (∀ panel ∈ panels, ShippedPanel panel) ∧ (panels.map DashboardPanel.id).Nodup) :
    WellFormedPanels panels :=
  ⟨fun panel hpanel => (h.1 panel hpanel).wellFormed, h.2⟩

theorem wellFormed_preset : WellFormed defaultDashboardDocument := by
  refine ⟨rfl, List.cons_ne_nil _ _, ?_, List.nodup_singleton _⟩
  intro page hpage
  rw [List.mem_singleton.mp hpage]
  refine ⟨by decide, trimmed_of_spaceless (by decide), by decide, trimmed_of_spaceless (by decide), ?_,
    wellFormedPanels_of_shipped (by decide +kernel)⟩
  intro source h
  cases h

theorem wellFormedPanels_startingLayout {layout : StartingLayout} (h : layout ∈ startingLayouts) :
    WellFormedPanels layout.panels ∧ layout.name ≠ [] ∧ Trimmed layout.name := by
  rw [List.mem_singleton.mp h]
  exact ⟨wellFormedPanels_of_shipped (by decide +kernel), by decide, trimmed_of_spaceless (by decide)⟩

theorem wellFormed_loadDocument (document : Value) (migrated : Bool) :
    WellFormed (loadDocument document migrated).document := by
  rw [loadDocument]
  split
  · exact wellFormed_preset
  · rename_i parsed hparse
    split
    · exact wellFormed_preset
    · rename_i hne
      obtain ⟨raws, rfl⟩ := parseDashboardDocument_eq_some hparse
      obtain ⟨heach, hdistinct⟩ := wellFormedPages_read raws
      exact ⟨rfl, hne, heach, hdistinct⟩

theorem wellFormed_loadParsed (raw : Value) (path : MigrationPath) :
    WellFormed (loadParsed raw path).document := by
  rw [loadParsed]
  split
  · exact wellFormed_preset
  split
  · exact wellFormed_preset
  split
  · exact wellFormed_preset
  · exact wellFormed_loadDocument _ _
  · exact wellFormed_loadDocument _ _

theorem tryParseJson_eq (text : Utf16) :
    tryParseJson text = .ok (Json.parse JsNumber.ofNumeral text) := by
  rw [tryParseJson, jsonParse]
  cases Json.parse JsNumber.ofNumeral text with
  | none => rfl
  | some value => rfl

/-- Loading never throws, and what it loads is well formed. -/
theorem exists_loaded (stored : Option Utf16) (path : MigrationPath) :
    ∃ loaded, loadDashboardConfiguration stored path = .ok loaded ∧ WellFormed loaded.document := by
  cases stored with
  | none => exact ⟨_, rfl, wellFormed_preset⟩
  | some text =>
    rw [loadDashboardConfiguration, tryParseJson_eq]
    cases Json.parse JsNumber.ofNumeral text with
    | none => exact ⟨_, rfl, wellFormed_preset⟩
    | some raw => exact ⟨_, rfl, wellFormed_loadParsed raw path⟩

end Reading

section RoundTrip

theorem readText_string {text : Utf16} (hne : text ≠ []) (htrimmed : Trimmed text) :
    readText (some (.string text)) = some text := by
  rw [readText, trim_of_trimmed htrimmed, if_neg hne]

theorem readText_getD_string {text : Utf16} (htrimmed : Trimmed text) :
    (readText (some (.string text))).getD [] = text := by
  rw [readText, trim_of_trimmed htrimmed]
  split
  · rename_i hnil
    rw [hnil]
    rfl
  · rfl

theorem readPanel_panelMembers {panel : DashboardPanel} (h : WellFormedPanel panel) :
    readPanel (panelMembers panel) = panel := by
  obtain ⟨id, type, title, geometry, binding, window⟩ := panel
  obtain ⟨-, hid, htype, htitle, hgrid, hbinding⟩ := h
  have hread : ∀ title : Option Utf16, readPanel (panelMembers ⟨id, type, title, geometry, binding, window⟩) =
      { id := readId (some (.string id))
        type := (readText (some (.string type))).getD []
        title := readText (title.map Json.string)
        geometry := readGeometry (some (geometryValue geometry))
        binding := readBinding (some (bindingValue binding))
        window := readWindow (some (.string window.text)) } := by
    intro title
    cases title with
    | none => rfl
    | some title => rfl
  have htext : readText (title.map Json.string) = title := by
    cases title with
    | none => rfl
    | some title => exact readText_string (htitle title rfl).1 (htitle title rfl).2
  rw [hread, readId, readText_getD_string hid, readText_getD_string htype, htext,
    readGeometry_geometryValue hgrid, readBinding_bindingValue hbinding, readWindow_text]

theorem records_objects (memberss : List Members) :
    records (some (.array (memberss.map Json.object))) = memberss := by
  induction memberss with
  | nil => rfl
  | cons members memberss ih => exact congrArg (members :: ·) ih

theorem read_objects {T : Type} {read : Members → T} {write : T → Members} {items : List T}
    (h : ∀ item ∈ items, read (write item) = item) :
    (records (some (.array (items.map fun item => .object (write item))))).map read = items := by
  have hmap : (items.map fun item => (.object (write item) : Value)) = (items.map write).map Json.object := by
    rw [List.map_map]
    rfl
  rw [hmap, records_objects, List.map_map]
  exact (List.map_congr_left h).trans (List.map_id items)

theorem readPage_pageMembers {page : DashboardPage} (h : WellFormedPage page) :
    readPage (pageMembers page) = page := by
  obtain ⟨id, name, source, panels⟩ := page
  obtain ⟨-, hid, -, hname, hsource, hpanels⟩ := h
  have hread : ∀ source : Option PageSource, readPage (pageMembers ⟨id, name, source, panels⟩) =
      { id := readId (some (.string id))
        name := (readText (some (.string name))).getD []
        source := readPageSource (source.map sourceValue)
        panels := uniquePanels ((records (some (.array (panels.map fun panel =>
          .object (panelMembers panel))))).map readPanel) } := by
    intro source
    cases source with
    | none => rfl
    | some source => rfl
  have hvalue : readPageSource (source.map sourceValue) = source := by
    cases source with
    | none => rfl
    | some source => exact readPageSource_sourceValue (hsource source rfl)
  rw [hread, readId, readText_getD_string hid, readText_getD_string hname, hvalue,
    read_objects fun panel hpanel => readPanel_panelMembers (hpanels.each panel hpanel)]
  congr 1
  exact withUniqueIds_of_distinct (fun panel hpanel => (hpanels.each panel hpanel).idNonempty) hpanels.distinct
    (fun panel _ => List.not_mem_nil) (fun _ _ _ => rfl)

theorem uniquePages_of_wellFormed {pages : List DashboardPage} (heach : ∀ page ∈ pages, WellFormedPage page)
    (hdistinct : (pages.map DashboardPage.id).Nodup) : uniquePages pages = pages := by
  apply withUniqueIds_of_distinct (fun page hpage => (heach page hpage).idNonempty) hdistinct
    (fun page _ => List.not_mem_nil)
  intro position page hpage
  rw [repairPage, if_neg (heach page hpage).nameNonempty]

theorem parse_documentValue {document : DashboardDocument} (h : WellFormed document) :
    parseDashboardDocument (documentValue document) = some document := by
  obtain ⟨version, pages⟩ := document
  obtain ⟨rfl, hnonempty, heach, hdistinct⟩ := h
  have hversion : (field (documentMembers ⟨.ofNat dashboardSchemaVersion, pages⟩) "version").bind Json.asNumber =
      some (.ofNat dashboardSchemaVersion) := rfl
  have hitems : (field (documentMembers ⟨.ofNat dashboardSchemaVersion, pages⟩) "pages").bind Json.asArray =
      some (pages.map fun page => .object (pageMembers page)) := rfl
  have hpages : ((pages.map fun page => (.object (pageMembers page) : Value)).filterMap Json.asObject).map
      readPage = pages := read_objects fun page hpage => readPage_pageMembers (heach page hpage)
  have hobject : (documentValue ⟨.ofNat dashboardSchemaVersion, pages⟩).asObject =
      some (documentMembers ⟨.ofNat dashboardSchemaVersion, pages⟩) := rfl
  rw [parseDashboardDocument, hobject]
  simp only
  rw [hversion, if_neg (not_not_intro rfl), hitems]
  simp only
  rw [hpages, if_neg fun hnil => hnonempty hnil.1, uniquePages_of_wellFormed heach hdistinct]

theorem prints_ofNat {n : Nat} (h : n ≤ 2 ^ 53) :
    Json.Prints JsNumber.ofNumeral JsNumber.toNumeral (.ofNat n) := by
  obtain ⟨d, hd, -⟩ := JsNumber.ofNat_of_le h
  rw [hd]
  exact JsNumber.prints_finite d

theorem prints_gpuIndex {index : JsNumber} (h : isGpuIndex index = true) :
    Json.Prints JsNumber.ofNumeral JsNumber.toNumeral index := by
  cases index with
  | finite d => exact JsNumber.prints_finite d
  | infinity negative => cases h
  | nan => cases h

theorem numbersIn_optionalMember {p : JsNumber → Prop} {name : String} {value : Option Value}
    (h : ∀ v, value = some v → Json.NumbersIn p v) :
    ∀ member ∈ optionalMember name value, Json.NumbersIn p member.2 := by
  intro member hmember
  cases value with
  | none => cases hmember
  | some v =>
    rw [List.mem_singleton.mp hmember]
    exact h v rfl

theorem numbersIn_geometryValue {g : PanelGeometry} (h : InGrid g) :
    Json.NumbersIn (Json.Prints JsNumber.ofNumeral JsNumber.toNumeral) (geometryValue g) := by
  obtain ⟨hw, hh, hright, hbottom⟩ := h
  have hcolumns : gridColumns ≤ 2 ^ 53 := by decide
  have hrows : gridMaxRows ≤ 2 ^ 53 := by decide
  rw [geometryValue, Json.numbersIn_object, geometryMembers]
  simp only [List.forall_mem_cons, Json.NumbersIn]
  exact ⟨prints_ofNat (by omega), prints_ofNat (by omega), prints_ofNat (by omega), prints_ofNat (by omega),
    fun _ h => absurd h List.not_mem_nil⟩

theorem numbersIn_bindingValue {binding : PanelBinding} (h : binding.Readable) :
    Json.NumbersIn (Json.Prints JsNumber.ofNumeral JsNumber.toNumeral) (bindingValue binding) := by
  cases binding with
  | gpu index =>
    rw [bindingValue, Json.numbersIn_object]
    simp only [List.forall_mem_cons, kindMember, Json.NumbersIn]
    exact ⟨trivial, prints_gpuIndex h, fun _ h => absurd h List.not_mem_nil⟩
  | _ => simp [bindingValue, Json.numbersIn_object, kindMember, Json.NumbersIn]

theorem numbersIn_sourceValue {p : JsNumber → Prop} (source : PageSource) :
    Json.NumbersIn p (sourceValue source) := by
  cases source <;> simp [sourceValue, Json.numbersIn_object, kindMember, Json.NumbersIn]

theorem numbersIn_panel {panel : DashboardPanel} (h : WellFormedPanel panel) :
    Json.NumbersIn (Json.Prints JsNumber.ofNumeral JsNumber.toNumeral) (.object (panelMembers panel)) := by
  rw [Json.numbersIn_object, panelMembers]
  simp only [List.forall_mem_append, List.forall_mem_cons, Json.NumbersIn]
  refine ⟨⟨⟨trivial, trivial, ?_⟩, ?_⟩, numbersIn_geometryValue h.inGrid, numbersIn_bindingValue h.readable,
    trivial, ?_⟩
  · exact fun _ h => absurd h List.not_mem_nil
  · apply numbersIn_optionalMember
    intro value hvalue
    obtain ⟨title, -, rfl⟩ := Option.map_eq_some_iff.mp hvalue
    exact Json.numbersIn_string _ title
  · exact fun _ h => absurd h List.not_mem_nil

theorem numbersIn_page {page : DashboardPage} (h : WellFormedPage page) :
    Json.NumbersIn (Json.Prints JsNumber.ofNumeral JsNumber.toNumeral) (.object (pageMembers page)) := by
  have hpanels : Json.NumbersIn (Json.Prints JsNumber.ofNumeral JsNumber.toNumeral)
      (.array (page.panels.map fun panel => .object (panelMembers panel))) := by
    rw [Json.numbersIn_array]
    intro value hvalue
    obtain ⟨panel, hpanel, rfl⟩ := List.mem_map.mp hvalue
    exact numbersIn_panel (h.panels.each panel hpanel)
  rw [Json.numbersIn_object, pageMembers]
  simp only [List.forall_mem_append, List.forall_mem_cons]
  refine ⟨⟨⟨Json.numbersIn_string _ _, Json.numbersIn_string _ _, ?_⟩, ?_⟩, hpanels, ?_⟩
  · exact fun _ h => absurd h List.not_mem_nil
  · apply numbersIn_optionalMember
    intro value hvalue
    obtain ⟨source, -, rfl⟩ := Option.map_eq_some_iff.mp hvalue
    exact numbersIn_sourceValue source
  · exact fun _ h => absurd h List.not_mem_nil

theorem numbersIn_documentValue {document : DashboardDocument} (h : WellFormed document) :
    Json.NumbersIn (Json.Prints JsNumber.ofNumeral JsNumber.toNumeral) (documentValue document) := by
  have hpages : Json.NumbersIn (Json.Prints JsNumber.ofNumeral JsNumber.toNumeral)
      (.array (document.pages.map fun page => .object (pageMembers page))) := by
    rw [Json.numbersIn_array]
    intro value hvalue
    obtain ⟨page, hpage, rfl⟩ := List.mem_map.mp hvalue
    exact numbersIn_page (h.each page hpage)
  have hversion : Json.NumbersIn (Json.Prints JsNumber.ofNumeral JsNumber.toNumeral)
      (.number (.ofNat dashboardSchemaVersion)) := by
    rw [Json.NumbersIn]
    exact prints_ofNat (by decide)
  rw [documentValue, Json.numbersIn_object, documentMembers]
  simp only [List.forall_mem_cons]
  exact ⟨hversion, hpages, fun _ h => absurd h List.not_mem_nil⟩

theorem parse_serialize {document : DashboardDocument} (h : WellFormed document) :
    Json.parse JsNumber.ofNumeral (serializeDashboardDocument document) = some (documentValue document) :=
  Json.parse_write (numbersIn_documentValue h)

theorem documentVersion_documentValue (document : DashboardDocument) :
    documentVersion (documentValue document) = some ((dashboardSchemaVersion : Nat) : Int) := by
  have hfield : ((documentValue document).get (utf16 "version")).bind Json.asNumber =
      some (.ofNat dashboardSchemaVersion) := rfl
  rw [documentVersion, hfield]
  exact JsNumber.toInt_ofNat (by decide)

/-- A well-formed document is loaded from its text as it was, with nothing to tell the operator. -/
theorem load_serialize {document : DashboardDocument} (h : WellFormed document) :
    loadDashboardConfiguration (some (serializeDashboardDocument document)) dashboardMigrationPath =
      .ok ⟨document, false, none, false⟩ := by
  have hload : loadParsed (documentValue document) dashboardMigrationPath =
      loadDocument (documentValue document) false := by
    rw [loadParsed, documentVersion_documentValue]
    simp only [lt_irrefl, if_false, runMigrations, dashboardMigrationPath, if_true]
  rw [loadDashboardConfiguration, tryParseJson_eq, parse_serialize h]
  refine congrArg Except.ok (hload.trans ?_)
  rw [loadDocument, parse_documentValue h]
  exact if_neg h.nonempty

end RoundTrip

end SparkDashboard.Dashboard
