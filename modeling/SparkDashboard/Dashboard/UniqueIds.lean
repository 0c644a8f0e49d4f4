import SparkDashboard.Dashboard.WellFormed

/-!
# Which stored ids survive a load

The reader gives out ids in one pass over a list and knows only those before. An id that
an earlier item was given in place of one it lacked or repeated is not there any more for
the item that holds it.
-/

namespace SparkDashboard.Dashboard

open Utf16 FreshName

/-- What each item's id is made from. -/
def baseIds (kind : Utf16) : Nat → List Utf16 → List Utf16
  | _, [] => []
  | position, id :: ids =>
    (if id = [] then positionId kind position else id) :: baseIds kind (position + 1) ids

/-- The items before this position leave no `id` for it. -/
def Preempted (kind : Utf16) (ids : List Utf16) (position : Nat) (id : Utf16) : Prop :=
  Reached numbered ((baseIds kind 0 ids).take position).reverse id

section OnePass

variable {T : Type} {kind : Utf16} {idOf : T → Utf16} {repair : Nat → Utf16 → T → T}

theorem getElem?_withUniqueIds (kind : Utf16) (hid : ∀ position id item, idOf (repair position id item) = id)
    (start : Nat) (before : List Utf16) (items : List T) (position : Nat) :
    ((withUniqueIds kind idOf repair start (assigned numbered before) items)[position]?).map idOf =
      ((baseIds kind start (items.map idOf))[position]?).map
        (unusedId (assigned numbered (((baseIds kind start (items.map idOf)).take position).reverse ++ before))) := by
  induction items generalizing start before position with
  | nil => rfl
  | cons item items ih =>
    rw [withUniqueIds, List.map_cons, baseIds]
    generalize (if idOf item = [] then positionId kind start else idOf item) = base
    cases position with
    | zero =>
      rw [List.getElem?_cons_zero, Option.map_some, hid]
      rfl
    | succ position =>
      have htaken : unusedId (assigned numbered before) base :: assigned numbered before =
          assigned numbered (base :: before) := rfl
      simp only [List.getElem?_cons_succ, htaken, ih, List.take_succ_cons, List.reverse_cons, List.append_assoc]
      rfl

theorem getElem?_baseIds {start : Nat} {ids : List Utf16} {position : Nat} {id : Utf16}
    (h : ids[position]? = some id) (hne : id ≠ []) : (baseIds kind start ids)[position]? = some id := by
  induction ids generalizing start position with
  | nil => cases h
  | cons first ids ih =>
    cases position with
    | zero =>
      cases h
      rw [baseIds, if_neg hne]
      rfl
    | succ position => exact ih h

theorem withUniqueIds_keeps_iff (hid : ∀ position id item, idOf (repair position id item) = id)
    {items : List T} {position : Nat} {id : Utf16} (h : (items.map idOf)[position]? = some id) (hne : id ≠ []) :
    ((withUniqueIds kind idOf repair 0 [] items)[position]?).map idOf = some id ↔
      ¬ Preempted kind (items.map idOf) position id := by
  have hgiven := getElem?_withUniqueIds kind hid 0 [] items position
  have hnone : assigned numbered [] = [] := rfl
  rw [hnone, getElem?_baseIds h hne, List.append_nil, Option.map_some] at hgiven
  rw [hgiven, Option.some.injEq]
  exact freshOr_assigned_eq_base_iff numbered_injective

end OnePass

def storedPages (raw : Value) : List Members := records (raw.asObject.bind fun members => field members "pages")

def storedPanels (page : Members) : List Members := records (field page "panels")

def storedIds (items : List Members) : List Utf16 := items.map fun item => readId (field item "id")

theorem pages_parseDashboardDocument {raw : Value} {document : DashboardDocument}
    (h : parseDashboardDocument raw = some document) :
    document.pages = uniquePages ((storedPages raw).map readPage) := by
  rw [parseDashboardDocument] at h
  rw [storedPages, records]
  split at h
  · cases h
  · rename_i members hmembers
    split at h
    · cases h
    split at h
    · cases h
    · rename_i items hitems
      simp only at h
      split at h
      · cases h
      · cases h
        rw [hmembers, Option.bind_some, hitems]
        rfl

theorem map_id_readPage (pages : List Members) : (pages.map readPage).map DashboardPage.id = storedIds pages := by
  rw [List.map_map]
  rfl

theorem map_id_readPanel (panels : List Members) :
    (panels.map readPanel).map DashboardPanel.id = storedIds panels := by
  rw [List.map_map]
  rfl

theorem getElem?_withUniqueIds_repairPage (kind : Utf16) (start : Nat) (taken : List Utf16)
    (pages : List DashboardPage) (position : Nat) :
    ((withUniqueIds kind DashboardPage.id repairPage start taken pages)[position]?).map DashboardPage.panels =
      (pages[position]?).map DashboardPage.panels := by
  induction pages generalizing start taken position with
  | nil => rfl
  | cons page pages ih =>
    cases position with
    | zero => rfl
    | succ position => exact ih _ _ _

theorem panels_parseDashboardDocument {raw : Value} {document : DashboardDocument}
    (h : parseDashboardDocument raw = some document) (place : Nat) :
    (document.pages[place]?).map DashboardPage.panels =
      ((storedPages raw)[place]?).map fun page => uniquePanels ((storedPanels page).map readPanel) := by
  rw [pages_parseDashboardDocument h, uniquePages, getElem?_withUniqueIds_repairPage, List.getElem?_map,
    Option.map_map]
  rfl

/-- The page's id, or the panel's, is kept if and only if the items before leave it. -/
theorem parseDashboardDocument_keeps_iff {raw : Value} {document : DashboardDocument}
    (h : parseDashboardDocument raw = some document) :
    (∀ position id, (storedIds (storedPages raw))[position]? = some id → id ≠ [] →
      ((document.pages[position]?).map DashboardPage.id = some id ↔
        ¬ Preempted (utf16 "page") (storedIds (storedPages raw)) position id)) ∧
    ∀ (place : Nat) (stored : Members) (page : DashboardPage), (storedPages raw)[place]? = some stored →
      document.pages[place]? = some page →
      ∀ position id, (storedIds (storedPanels stored))[position]? = some id → id ≠ [] →
        ((page.panels[position]?).map DashboardPanel.id = some id ↔
          ¬ Preempted (utf16 "panel") (storedIds (storedPanels stored)) position id) := by
  constructor
  · intro position id hstored hne
    rw [← map_id_readPage] at hstored ⊢
    rw [pages_parseDashboardDocument h]
    exact withUniqueIds_keeps_iff (fun _ _ _ => rfl) hstored hne
  · intro place stored page hplace hpage position id hstored hne
    have hpanels := panels_parseDashboardDocument h place
    rw [hplace, hpage, Option.map_some, Option.map_some, Option.some.injEq] at hpanels
    rw [← map_id_readPanel] at hstored ⊢
    rw [hpanels]
    exact withUniqueIds_keeps_iff (fun _ _ _ => rfl) hstored hne

/-- A document whose pages have these ids, or none. -/
def pagesCalled (ids : List (Option String)) : Value :=
  .object [(utf16 "version", .number (.ofNat dashboardSchemaVersion)),
    (utf16 "pages", .array (ids.map fun id => .object (optionalMember "id" (id.map fun id => .string (utf16 id)))))]

/-- The third page keeps its id after a repeated one. -/
theorem parseDashboardDocument_keeps_night :
    ∃ document, parseDashboardDocument (pagesCalled [some "gpu", some "gpu", some "night"]) = some document ∧
      ((document.pages[2]?).map DashboardPage.id = some (utf16 "night") ↔
        ¬ Preempted (utf16 "page") (storedIds (storedPages (pagesCalled [some "gpu", some "gpu", some "night"]))) 2
          (utf16 "night")) := by
  obtain ⟨document, h⟩ := Option.isSome_iff_exists.mp
    (show (parseDashboardDocument (pagesCalled [some "gpu", some "gpu", some "night"])).isSome = true by decide +kernel)
  exact ⟨document, h, (parseDashboardDocument_keeps_iff h).1 2 (utf16 "night") (by decide) (by decide)⟩

/-- A page without an id, then the only one that is called `page-1`. -/
theorem parseDashboardDocument_takes_honest_id :
    ¬ ∀ (raw : Value) (document : DashboardDocument), parseDashboardDocument raw = some document →
      ∀ (position : Nat) (id : Utf16), (storedIds (storedPages raw))[position]? = some id → id ≠ [] →
        (storedIds (storedPages raw)).count id = 1 → (document.pages[position]?).map DashboardPage.id = some id := by
  intro h
  obtain ⟨document, hparse⟩ := Option.isSome_iff_exists.mp
    (show (parseDashboardDocument (pagesCalled [none, some "page-1"])).isSome = true by decide +kernel)
  have hkept := h _ document hparse 1 (utf16 "page-1") (by decide) (by decide) (by decide)
  have hpages : (document.pages.map DashboardPage.id)[1]? = some (utf16 "page-1-2") := by
    rw [pages_parseDashboardDocument hparse]
    decide
  rw [List.getElem?_map, hkept] at hpages
  revert hpages
  decide

end SparkDashboard.Dashboard
