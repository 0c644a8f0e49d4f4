import SparkDashboard.Dashboard.Closure

/-!
# Room for one more panel

The search for a free slot finds the first placement in reading order that overlaps no
panel, and none only where there is none; so a panel added keeps a page disjoint.
-/

namespace SparkDashboard.Dashboard

open Library Utf16

def Covers (g : PanelGeometry) (row col : Nat) : Prop :=
  g.y ≤ row ∧ row < g.y + g.h ∧ g.x ≤ col ∧ col < g.x + g.w

def Overlap (a b : PanelGeometry) : Prop := ∃ row col, Covers a row col ∧ Covers b row col

/-- A placement inside the grid of this size that overlaps none of these. -/
structure FreeFor (occupied : List PanelGeometry) (size : PanelSize) (g : PanelGeometry) : Prop where
  inGrid : InGrid g
  width : (g.w : Int) = size.w
  height : (g.h : Int) = size.h
  free : ∀ o ∈ occupied, ¬ Overlap g o

/-- By row, then by column. -/
def Precedes (a b : PanelGeometry) : Prop := a.y < b.y ∨ a.y = b.y ∧ a.x < b.x

section Search

variable {occupied : List PanelGeometry} {size : PanelSize} {g : PanelGeometry}

theorem mem_cells {x y w h i : Nat} :
    i ∈ cells x y w h ↔ ∃ row col, Covers ⟨x, y, w, h⟩ row col ∧ i = row * gridColumns + col := by
  simp only [cells, List.mem_flatMap, List.mem_map, List.mem_range'_1, Covers]
  constructor
  · rintro ⟨row, ⟨hrow, hrow'⟩, col, ⟨hcol, hcol'⟩, rfl⟩
    exact ⟨row, col, ⟨hrow, hrow', hcol, hcol'⟩, rfl⟩
  · rintro ⟨row, col, ⟨hrow, hrow', hcol, hcol'⟩, rfl⟩
    exact ⟨row, ⟨hrow, hrow'⟩, col, ⟨hcol, hcol'⟩, rfl⟩

/-- Inside the grid a cell has one index. -/
theorem index_mem_cells (h : InGrid g) {row col : Nat} (hcol : col < gridColumns) :
    row * gridColumns + col ∈ cells g.x g.y g.w g.h ↔ Covers g row col := by
  rw [mem_cells]
  constructor
  · rintro ⟨row', col', hcovers, hindex⟩
    have hcol' : col' < gridColumns := hcovers.2.2.2.trans_le h.right
    rw [gridColumns] at hindex hcol hcol'
    obtain ⟨rfl, rfl⟩ : row = row' ∧ col = col' := by omega
    exact hcovers
  · intro hcovers
    exact ⟨row, col, hcovers, rfl⟩

theorem index_lt {row col : Nat} (hrow : row < gridMaxRows) (hcol : col < gridColumns) :
    row * gridColumns + col < gridColumns * gridMaxRows := by
  rw [gridMaxRows] at hrow
  rw [gridColumns] at hcol
  rw [gridColumns, gridMaxRows]
  omega

theorem getD_occupancy (hoccupied : ∀ o ∈ occupied, InGrid o) {row col : Nat} (hrow : row < gridMaxRows)
    (hcol : col < gridColumns) :
    (occupancy occupied).getD (row * gridColumns + col) false = true ↔ ∃ o ∈ occupied, Covers o row col := by
  have hlength : row * gridColumns + col < (List.replicate (gridColumns * gridMaxRows) false).length := by
    rw [List.length_replicate]
    exact index_lt hrow hcol
  have hclear : (List.replicate (gridColumns * gridMaxRows) false).getD (row * gridColumns + col) false = false := by
    simp [List.getD_eq_getElem?_getD, index_lt hrow hcol]
  rw [occupancy, Bitmap.getD_foldl_setAll _ _ hlength, hclear]
  simp only [Bool.false_eq_true, false_or]
  refine exists_congr fun o => and_congr_right fun ho => ?_
  rw [readGeometry_geometryValue (hoccupied o ho), index_mem_cells (hoccupied o ho) hcol]

theorem isFree_iff (hoccupied : ∀ o ∈ occupied, InGrid o) (h : InGrid g) :
    isFree (occupancy occupied) g.x g.y g.w g.h = true ↔ ∀ o ∈ occupied, ¬ Overlap g o := by
  rw [isFree, List.all_eq_true]
  constructor
  · rintro hfree o ho ⟨row, col, hcovers, hoverlap⟩
    have hcol : col < gridColumns := hcovers.2.2.2.trans_le h.right
    have hrow : row < gridMaxRows := hcovers.2.1.trans_le h.bottom
    have hclear := hfree _ ((index_mem_cells h hcol).mpr hcovers)
    rw [(getD_occupancy hoccupied hrow hcol).mpr ⟨o, ho, hoverlap⟩] at hclear
    cases hclear
  · intro hfree i hi
    obtain ⟨row, col, hcovers, rfl⟩ := mem_cells.mp hi
    have hcol : col < gridColumns := hcovers.2.2.2.trans_le h.right
    have hrow : row < gridMaxRows := hcovers.2.1.trans_le h.bottom
    rw [Bool.not_eq_true', Bool.eq_false_iff]
    intro htaken
    obtain ⟨o, ho, hoverlap⟩ := (getD_occupancy hoccupied hrow hcol).mp htaken
    exact hfree o ho ⟨row, col, hcovers, hoverlap⟩

theorem slotsOf_ordered (w h : Nat) : (slotsOf w h).Pairwise Precedes := by
  rw [slotsOf, List.pairwise_flatMap]
  constructor
  · intro y _
    rw [List.pairwise_map]
    exact List.pairwise_lt_range.imp fun hlt => Or.inr ⟨rfl, hlt⟩
  · refine List.pairwise_lt_range.imp ?_
    intro y y' hlt a ha b hb
    obtain ⟨x, -, rfl⟩ := List.mem_map.mp ha
    obtain ⟨x', -, rfl⟩ := List.mem_map.mp hb
    exact Or.inl hlt

/-- A size inside the grid, as the loops over it take it. -/
theorem mem_slotsOf_of_size (h : InGrid g) (hw : (g.w : Int) = size.w) (hh : (g.h : Int) = size.h) :
    ¬ (size.w < 1 ∨ size.h < 1 ∨ gridColumns < size.w ∨ gridMaxRows < size.h) ∧
      g ∈ slotsOf size.w.toNat size.h.toNat := by
  obtain ⟨hw1, hh1, hright, hbottom⟩ := h
  refine ⟨by omega, mem_slotsOf.mpr ⟨by omega, by omega, by omega, by omega⟩⟩

theorem freeFor_of_firstFreeSlot (hoccupied : ∀ o ∈ occupied, InGrid o) (h : firstFreeSlot occupied size = some g) :
    FreeFor occupied size g := by
  have hin := inGrid_firstFreeSlot h
  rw [firstFreeSlot] at h
  split at h
  · cases h
  · rename_i hsize
    have hfree := List.find?_some h
    obtain ⟨hw, hh, -, -⟩ := mem_slotsOf.mp (List.mem_of_find?_eq_some h)
    exact ⟨hin, by omega, by omega, (isFree_iff hoccupied hin).mp hfree⟩

theorem firstFreeSlot_of_freeFor (hoccupied : ∀ o ∈ occupied, InGrid o) (h : FreeFor occupied size g) :
    ∃ found, firstFreeSlot occupied size = some found ∧ (g = found ∨ Precedes found g) := by
  obtain ⟨hsize, hmem⟩ := mem_slotsOf_of_size h.inGrid h.width h.height
  have hfree := (isFree_iff hoccupied h.inGrid).mpr h.free
  rw [firstFreeSlot, if_neg hsize]
  cases hfind : (slotsOf size.w.toNat size.h.toNat).find? fun g => isFree (occupancy occupied) g.x g.y g.w g.h with
  | none =>
    have hnone := List.find?_eq_none.mp hfind g hmem
    exact absurd hfree hnone
  | some found => exact ⟨found, rfl, Bitmap.find?_first (slotsOf_ordered _ _) hfind hmem hfree⟩

theorem firstFreeSlot_eq_none_iff (hoccupied : ∀ o ∈ occupied, InGrid o) :
    firstFreeSlot occupied size = none ↔ ¬ ∃ g, FreeFor occupied size g := by
  constructor
  · rintro hnone ⟨g, hg⟩
    obtain ⟨found, hfound, -⟩ := firstFreeSlot_of_freeFor hoccupied hg
    rw [hnone] at hfound
    cases hfound
  · intro hnot
    cases hslot : firstFreeSlot occupied size with
    | none => rfl
    | some g => exact absurd ⟨g, freeFor_of_firstFreeSlot hoccupied hslot⟩ hnot

end Search

/-- Panels inside the grid, none on another's cells, each with an id of its own. -/
structure DisjointPage (panels : List DashboardPanel) : Prop where
  inGrid : ∀ panel ∈ panels, InGrid panel.geometry
  disjoint : panels.Pairwise fun a b => ¬ Overlap a.geometry b.geometry
  distinct : (panels.map DashboardPanel.id).Nodup

section Adding

variable {panels : List DashboardPanel} {type : PanelType}

theorem inGrid_geometries (h : DisjointPage panels) : ∀ o ∈ panels.map DashboardPanel.geometry, InGrid o := by
  intro o ho
  obtain ⟨panel, hpanel, rfl⟩ := List.mem_map.mp ho
  exact h.inGrid panel hpanel

theorem addPanel_added (h : DisjointPage panels) {after : List DashboardPanel} {panelId : Utf16}
    (hadded : addPanel panels type = .added after panelId) :
    DisjointPage after ∧ ∃ panel, after = panels ++ [panel] ∧ panel.id = panelId ∧ panel.type = type.key := by
  rw [addPanel] at hadded
  split at hadded
  · cases hadded
  · rename_i geometry hslot
    cases hadded
    have hfree := freeFor_of_firstFreeSlot (inGrid_geometries h) hslot
    refine ⟨⟨?_, ?_, ?_⟩, _, rfl, rfl, rfl⟩
    · intro panel hpanel
      rcases List.mem_append.mp hpanel with hpanel | hpanel
      · exact h.inGrid panel hpanel
      · rw [List.mem_singleton.mp hpanel]
        exact hfree.inGrid
    · refine List.pairwise_append.mpr ⟨h.disjoint, List.pairwise_singleton _ _, ?_⟩
      intro old hold added hmem hoverlap
      rw [List.mem_singleton.mp hmem] at hoverlap
      obtain ⟨row, col, hcovers, hcovers'⟩ := hoverlap
      exact hfree.free old.geometry (List.mem_map_of_mem hold) ⟨row, col, hcovers', hcovers⟩
    · rw [List.map_append, List.map_singleton]
      exact nodup_concat_unusedId h.distinct _

theorem addPanel_outOfRoom_iff (h : DisjointPage panels) :
    addPanel panels type = .outOfRoom ↔
      ¬ ∃ g, FreeFor (panels.map DashboardPanel.geometry) (defaultPanelSize type.key) g := by
  rw [← firstFreeSlot_eq_none_iff (inGrid_geometries h), addPanel]
  cases firstFreeSlot (panels.map DashboardPanel.geometry) (defaultPanelSize type.key) with
  | none => exact ⟨fun _ => rfl, fun _ => rfl⟩
  | some geometry =>
    constructor
    · intro hout
      cases hout
    · intro hnone
      cases hnone

end Adding

theorem freeSlot_search :
    (∀ occupied size, (∀ o ∈ occupied, InGrid o) →
      ((∃ g, firstFreeSlot occupied size = some g) ↔ ∃ g, FreeFor occupied size g) ∧
      ∀ g, firstFreeSlot occupied size = some g →
        FreeFor occupied size g ∧ ∀ g', FreeFor occupied size g' → g' = g ∨ Precedes g g') ∧
    ∀ panels type, DisjointPage panels →
      (∀ after panelId, addPanel panels type = .added after panelId →
        DisjointPage after ∧ ∃ panel, after = panels ++ [panel] ∧ panel.id = panelId ∧ panel.type = type.key) ∧
      (addPanel panels type = .outOfRoom ↔
        ¬ ∃ g, FreeFor (panels.map DashboardPanel.geometry) (defaultPanelSize type.key) g) := by
  refine ⟨?_, ?_⟩
  · intro occupied size hoccupied
    refine ⟨⟨?_, ?_⟩, ?_⟩
    · rintro ⟨g, hg⟩
      exact ⟨g, freeFor_of_firstFreeSlot hoccupied hg⟩
    · rintro ⟨g, hg⟩
      obtain ⟨found, hfound, -⟩ := firstFreeSlot_of_freeFor hoccupied hg
      exact ⟨found, hfound⟩
    · intro g hg
      refine ⟨freeFor_of_firstFreeSlot hoccupied hg, ?_⟩
      intro g' hg'
      obtain ⟨found, hfound, hfirst⟩ := firstFreeSlot_of_freeFor hoccupied hg'
      obtain rfl : g = found := Option.some.inj (hg.symm.trans hfound)
      exact hfirst
  · intro panels type h
    refine ⟨?_, addPanel_outOfRoom_iff h⟩
    intro after panelId hadded
    exact addPanel_added h hadded

end SparkDashboard.Dashboard
