import SparkDashboard.Library.Bitmap
import SparkDashboard.Library.JsNumber

/-!
# The grid's coordinate system

Where a panel sits, and whether one more will fit.
-/

namespace SparkDashboard.Dashboard

open Library

/-- What `JSON.parse` gives. -/
abbrev Value := Json Utf16 JsNumber

abbrev Members := List (Utf16 × Value)

def field (members : Members) (name : String) : Option Value := Json.member members (utf16 name)

/-- A placement in grid cells, the origin top left. -/
structure PanelGeometry where
  x : Nat
  y : Nat
  w : Nat
  h : Nat
  deriving DecidableEq, Repr

structure PanelSize where
  w : Int
  h : Int
  deriving DecidableEq, Repr

def gridColumns : Nat := 12
def gridMaxRows : Nat := 8

def trunc (q : ℚ) : Int := q.num.tdiv q.den

/-- A whole number of cells, or `fallback` when the value is not a usable number. -/
def cell (value : Option Value) (fallback : Int) : Int :=
  match value with
  | some (.number (.finite d)) => trunc d.value
  | _ => fallback

def clamp (value lo hi : Int) : Int := min (max value lo) hi

def readGeometry (raw : Option Value) : PanelGeometry :=
  let source := (raw.bind Json.asObject).getD []
  let w := clamp (cell (field source "w") 1) 1 gridColumns
  let h := clamp (cell (field source "h") 1) 1 gridMaxRows
  { x := (clamp (cell (field source "x") 0) 0 (gridColumns - w)).toNat
    y := (clamp (cell (field source "y") 0) 0 (gridMaxRows - h)).toNat
    w := w.toNat
    h := h.toNat }

def geometryMembers (g : PanelGeometry) : Members :=
  [(utf16 "x", .number (.ofNat g.x)), (utf16 "y", .number (.ofNat g.y)),
    (utf16 "w", .number (.ofNat g.w)), (utf16 "h", .number (.ofNat g.h))]

def geometryValue (g : PanelGeometry) : Value := .object (geometryMembers g)

/-- The row-major indices of a rectangle's cells, row by row. -/
def cells (x y w h : Nat) : List Nat :=
  (List.range' y h).flatMap fun row => (List.range' x w).map fun col => row * gridColumns + col

/-- Row-major occupancy bitmap of the whole grid. -/
def occupancy (panels : List PanelGeometry) : List Bool :=
  panels.foldl
    (fun taken panel =>
      let g := readGeometry (some (geometryValue panel))
      Bitmap.setAll taken (cells g.x g.y g.w g.h))
    (List.replicate (gridColumns * gridMaxRows) false)

def isFree (taken : List Bool) (x y w h : Nat) : Bool := (cells x y w h).all fun cell => !taken.getD cell false

/-- The placements of a size in reading order. -/
def slotsOf (w h : Nat) : List PanelGeometry :=
  (List.range (gridMaxRows - h + 1)).flatMap fun y =>
    (List.range (gridColumns - w + 1)).map fun x => PanelGeometry.mk x y w h

/-- The first cell in reading order where a panel of `size` fits. -/
def firstFreeSlot (occupied : List PanelGeometry) (size : PanelSize) : Option PanelGeometry :=
  if size.w < 1 ∨ size.h < 1 ∨ gridColumns < size.w ∨ gridMaxRows < size.h then none
  else
    let taken := occupancy occupied
    (slotsOf size.w.toNat size.h.toNat).find? fun g => isFree taken g.x g.y g.w g.h

structure InGrid (g : PanelGeometry) : Prop where
  w_pos : 1 ≤ g.w
  h_pos : 1 ≤ g.h
  right : g.x + g.w ≤ gridColumns
  bottom : g.y + g.h ≤ gridMaxRows

theorem clamp_bounds {lo hi : Int} (h : lo ≤ hi) (value : Int) :
    lo ≤ clamp value lo hi ∧ clamp value lo hi ≤ hi := by
  rw [clamp]
  omega

theorem clamp_of_mem {value lo hi : Int} (hlo : lo ≤ value) (hhi : value ≤ hi) : clamp value lo hi = value := by
  rw [clamp]
  omega

theorem inGrid_readGeometry (raw : Option Value) : InGrid (readGeometry raw) := by
  simp only [readGeometry]
  generalize (raw.bind Json.asObject).getD [] = source
  obtain ⟨hw₁, hw₂⟩ := clamp_bounds (by decide : (1 : Int) ≤ gridColumns) (cell (field source "w") 1)
  obtain ⟨hh₁, hh₂⟩ := clamp_bounds (by decide : (1 : Int) ≤ gridMaxRows) (cell (field source "h") 1)
  generalize clamp (cell (field source "w") 1) 1 gridColumns = w at hw₁ hw₂
  generalize clamp (cell (field source "h") 1) 1 gridMaxRows = h at hh₁ hh₂
  obtain ⟨hx₁, hx₂⟩ := clamp_bounds (by omega : (0 : Int) ≤ gridColumns - w) (cell (field source "x") 0)
  obtain ⟨hy₁, hy₂⟩ := clamp_bounds (by omega : (0 : Int) ≤ gridMaxRows - h) (cell (field source "y") 0)
  constructor
  · simp only
    omega
  · simp only
    omega
  · simp only
    omega
  · simp only
    omega

theorem trunc_natCast (n : Nat) : trunc n = n := by
  simp [trunc]

theorem cell_ofNat {n : Nat} (h : n ≤ gridColumns) (fallback : Int) :
    cell (some (.number (.ofNat n))) fallback = n := by
  obtain ⟨d, hd, hvalue⟩ := JsNumber.ofNat_of_le (n := n) (h.trans (by decide))
  rw [hd, cell, hvalue, trunc_natCast]

theorem readGeometry_geometryValue {g : PanelGeometry} (h : InGrid g) :
    readGeometry (some (geometryValue g)) = g := by
  obtain ⟨hw, hh, hright, hbottom⟩ := h
  have hrows : gridMaxRows ≤ gridColumns := by decide
  have hx : field (geometryMembers g) "x" = some (.number (.ofNat g.x)) := rfl
  have hy : field (geometryMembers g) "y" = some (.number (.ofNat g.y)) := rfl
  have hw' : field (geometryMembers g) "w" = some (.number (.ofNat g.w)) := rfl
  have hh' : field (geometryMembers g) "h" = some (.number (.ofNat g.h)) := rfl
  have hwidth : clamp g.w 1 gridColumns = g.w := clamp_of_mem (by omega) (by omega)
  have hheight : clamp g.h 1 gridMaxRows = g.h := clamp_of_mem (by omega) (by omega)
  have hleft : clamp g.x 0 (gridColumns - g.w) = g.x := clamp_of_mem (by omega) (by omega)
  have htop : clamp g.y 0 (gridMaxRows - g.h) = g.y := clamp_of_mem (by omega) (by omega)
  simp only [readGeometry, geometryValue, Option.bind_some, Json.asObject, Option.getD_some]
  rw [hx, hy, hw', hh', cell_ofNat (by omega), cell_ofNat (by omega), cell_ofNat (by omega),
    cell_ofNat (by omega), hwidth, hheight, hleft, htop]
  simp only [Int.toNat_natCast]

theorem mem_slotsOf {w h : Nat} {g : PanelGeometry} :
    g ∈ slotsOf w h ↔ g.w = w ∧ g.h = h ∧ g.x ≤ gridColumns - w ∧ g.y ≤ gridMaxRows - h := by
  simp only [slotsOf, List.mem_flatMap, List.mem_map, List.mem_range, Nat.lt_succ_iff]
  constructor
  · rintro ⟨y, hy, x, hx, rfl⟩
    exact ⟨rfl, rfl, hx, hy⟩
  · rintro ⟨rfl, rfl, hx, hy⟩
    exact ⟨g.y, hy, g.x, hx, rfl⟩

theorem inGrid_firstFreeSlot {occupied : List PanelGeometry} {size : PanelSize} {g : PanelGeometry}
    (h : firstFreeSlot occupied size = some g) : InGrid g := by
  rw [firstFreeSlot] at h
  split at h
  · cases h
  · rename_i hsize
    obtain ⟨hw, hh, hx, hy⟩ := mem_slotsOf.mp (List.mem_of_find?_eq_some h)
    constructor <;> omega

end SparkDashboard.Dashboard
