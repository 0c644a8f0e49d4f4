import SparkDashboard.Dashboard.Grid

/-!
# Finished drags and resizes

What the pointer asked for, in cells, and whether the operator got anywhere with it. The
grid's sides keep a panel in without refusing it; only the bottom is the page being full.
-/

namespace SparkDashboard.Dashboard

structure CellSize where
  width : ℚ
  height : ℚ

structure Travel where
  dx : ℚ
  dy : ℚ

inductive Gesture where
  | move
  | resize
  deriving DecidableEq, Repr

/-- `Math.round` of the quotient of two doubles. -/
def roundedQuotient (distance size : ℚ) : Int := ⌊Binary64.nearestDouble (distance / size) + 1 / 2⌋

/-- Nothing where the grid has not been measured. Rows are not limited to the cap. -/
def requestedCells (gesture : Gesture) (before : PanelGeometry) (travel : Travel) (cell : CellSize) :
    Option PanelGeometry :=
  if cell.width ≤ 0 ∨ cell.height ≤ 0 then none
  else
    let columns := roundedQuotient travel.dx cell.width
    let rows := roundedQuotient travel.dy cell.height
    match gesture with
    | .move => some { before with x := (max 0 (before.x + columns)).toNat, y := (max 0 (before.y + rows)).toNat }
    | .resize => some { before with w := (max 1 (before.w + columns)).toNat, h := (max 1 (before.h + rows)).toNat }

inductive DropVerdict where
  | granted
  | outOfRoom
  deriving DecidableEq, Repr

def samePlacement (a b : PanelGeometry) : Bool :=
  decide (a.x = b.x) && decide (a.y = b.y) && decide (a.w = b.w) && decide (a.h = b.h)

def judgeDrop (before : PanelGeometry) (requested : Option PanelGeometry) (granted : PanelGeometry) :
    DropVerdict :=
  match requested with
  | none => .granted
  | some requested =>
    if !samePlacement before granted then .granted
    else
      let w := min requested.w gridColumns
      let asked := { requested with w, x := min requested.x (gridColumns - w) }
      if samePlacement asked before then .granted else .outOfRoom

/-- A request kept inside the columns: a moved panel by its place, a resized one by its width. -/
def keptInColumns (gesture : Gesture) (requested : PanelGeometry) : PanelGeometry :=
  match gesture with
  | .move => { requested with x := min requested.x (gridColumns - requested.w) }
  | .resize => { requested with w := max 1 (min requested.w (gridColumns - requested.x)) }

theorem samePlacement_iff {a b : PanelGeometry} :
    samePlacement a b = true ↔ a.x = b.x ∧ a.y = b.y ∧ a.w = b.w ∧ a.h = b.h := by
  simp [samePlacement, and_assoc]

/-- A panel left where it was is refused unless it asked, within the columns, for just that. -/
theorem judgeDrop_unmoved (before requested : PanelGeometry) :
    judgeDrop before (some requested) before = .granted ↔
      min requested.x (gridColumns - min requested.w gridColumns) = before.x ∧ requested.y = before.y ∧
        min requested.w gridColumns = before.w ∧ requested.h = before.h := by
  have hself : samePlacement before before = true := samePlacement_iff.mpr ⟨rfl, rfl, rfl, rfl⟩
  simp only [judgeDrop, hself, Bool.not_true, Bool.false_eq_true, if_false]
  rw [← samePlacement_iff (a := ⟨_, _, _, _⟩)]
  split
  · rename_i hsame
    exact iff_of_true rfl hsame
  · rename_i hdiffers
    exact iff_of_false (fun h => by cases h) hdiffers

theorem judgeDrop_move {before requested : PanelGeometry} (hbefore : InGrid before) {x : Nat}
    (hrequested : requested = { before with x }) (hkept : keptInColumns .move requested = before) :
    judgeDrop before (some requested) before = .granted := by
  have hx : min x (gridColumns - before.w) = before.x := by
    rw [hrequested] at hkept
    exact congrArg PanelGeometry.x hkept
  have hw : min before.w gridColumns = before.w := by
    have hright := hbefore.right
    omega
  rw [judgeDrop_unmoved, hrequested]
  simp only [hw, hx, and_self]

/-- A wider panel that the columns keep as it was ends at the right side. -/
theorem judgeDrop_resize {before requested : PanelGeometry} (hbefore : InGrid before) {w : Nat} (hwide : 1 ≤ w)
    (hrequested : requested = { before with w }) (hkept : keptInColumns .resize requested = before) :
    judgeDrop before (some requested) before = .granted ↔ before.x = 0 ∨ w ≤ before.w := by
  have hw : max 1 (min w (gridColumns - before.x)) = before.w := by
    rw [hrequested] at hkept
    exact congrArg PanelGeometry.w hkept
  obtain ⟨hpos, -, hright, -⟩ := hbefore
  rw [judgeDrop_unmoved, hrequested]
  simp only [and_true, true_and]
  rcases Nat.le_total w (gridColumns - before.x) with hinside | hpast
  · rw [Nat.min_eq_left hinside, Nat.max_eq_right hwide] at hw
    rw [Nat.min_eq_left (by omega), hw]
    omega
  · rw [Nat.min_eq_right hpast, Nat.max_eq_right (by omega)] at hw
    omega

/-- Past the grid's side only a resize to the right of a panel off the left side is refused. -/
theorem judgeDrop_granted_iff {gesture : Gesture} {before requested : PanelGeometry} {travel : Travel}
    {cell : CellSize} (hbefore : InGrid before) (h : requestedCells gesture before travel cell = some requested)
    (hy : requested.y = before.y) (hh : requested.h = before.h) (hkept : keptInColumns gesture requested = before) :
    judgeDrop before (some requested) before = .granted ↔
      gesture = .move ∨ before.x = 0 ∨ roundedQuotient travel.dx cell.width ≤ 0 := by
  rw [requestedCells] at h
  split at h
  · cases h
  · cases gesture with
    | move =>
      cases h
      simp only at hy
      exact iff_of_true (judgeDrop_move hbefore (by rw [hy]) hkept) (.inl rfl)
    | resize =>
      cases h
      simp only at hh
      have hpos := hbefore.w_pos
      rw [judgeDrop_resize (w := (max 1 (before.w + roundedQuotient travel.dx cell.width)).toNat) hbefore (by omega)
        (by rw [hh]) hkept]
      simp only [reduceCtorEq, false_or]
      omega

/-- A panel at the right side, dragged three cells past it. -/
theorem judgeDrop_granted_iff_right_side :
    judgeDrop ⟨6, 0, 6, 2⟩ (some ⟨9, 0, 6, 2⟩) ⟨6, 0, 6, 2⟩ = .granted ↔
      Gesture.move = .move ∨ 6 = 0 ∨ roundedQuotient 300 100 ≤ 0 := by
  have hrequested : requestedCells .move ⟨6, 0, 6, 2⟩ ⟨300, 10⟩ ⟨100, 80⟩ = some ⟨9, 0, 6, 2⟩ := by decide +kernel
  have hbefore : InGrid ⟨6, 0, 6, 2⟩ := ⟨by decide, by decide, by decide, by decide⟩
  exact @judgeDrop_granted_iff .move ⟨6, 0, 6, 2⟩ ⟨9, 0, 6, 2⟩ ⟨300, 10⟩ ⟨100, 80⟩ hbefore hrequested rfl rfl rfl

/-- The same panel widened by two cells. -/
theorem right_side_refused :
    ¬ ∀ (gesture : Gesture) (before requested : PanelGeometry) (travel : Travel) (cell : CellSize), InGrid before →
      requestedCells gesture before travel cell = some requested → requested.y = before.y → requested.h = before.h →
        keptInColumns gesture requested = before → judgeDrop before (some requested) before = .granted := by
  intro h
  have hgranted := h .resize ⟨6, 0, 6, 2⟩ ⟨6, 0, 8, 2⟩ ⟨200, 10⟩ ⟨100, 80⟩
    ⟨by decide, by decide, by decide, by decide⟩ (by decide +kernel) rfl rfl rfl
  revert hgranted
  decide

end SparkDashboard.Dashboard
