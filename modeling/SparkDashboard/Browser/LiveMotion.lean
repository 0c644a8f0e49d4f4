import Mathlib.Logic.Basic

/-!
# Live motion

While a page is edited the dashboard holds still: a component goes on showing what it showed when
motion stopped.
-/

namespace SparkDashboard.Browser

/-- What a frozen component goes on showing. -/
structure Held (α : Type*) where
  frozen : Bool
  value : α

variable {α : Type*}

/-- The value of a render, and the latch it leaves. -/
def useHeldWhileFrozen (live : α) (frozen : Bool) (held : Held α) : α × Held α :=
  if held.frozen ≠ frozen then (live, ⟨frozen, live⟩) else (if frozen then held.value else live, held)

theorem frozen_useHeldWhileFrozen (live : α) (frozen : Bool) (held : Held α) :
    (useHeldWhileFrozen live frozen held).2.frozen = frozen := by
  rw [useHeldWhileFrozen]
  split
  · rfl
  · rename_i h
    exact not_not.mp h

/-- A frozen component shows what is held, any other the value it is given. -/
theorem value_useHeldWhileFrozen (live : α) (frozen : Bool) (held : Held α) :
    (useHeldWhileFrozen live frozen held).1 =
      if frozen then (useHeldWhileFrozen live frozen held).2.value else live := by
  rw [useHeldWhileFrozen]
  split
  · exact (ite_self live).symm
  · rfl

/-- Once frozen, nothing it is given changes what it shows. -/
theorem useHeldWhileFrozen_of_frozen (live : α) {held : Held α} (h : held.frozen = true) :
    useHeldWhileFrozen live true held = (held.value, held) := by
  rw [useHeldWhileFrozen, if_neg (not_not_intro h)]
  rfl

/-- A second render of the same finds the latch where the first has left it. -/
theorem useHeldWhileFrozen_again (live : α) (frozen : Bool) (held : Held α) :
    (useHeldWhileFrozen live frozen (useHeldWhileFrozen live frozen held).2).1 =
      (useHeldWhileFrozen live frozen held).1 := by
  by_cases h : held.frozen = frozen
  · have hleft : (useHeldWhileFrozen live frozen held).2 = held := by rw [useHeldWhileFrozen, if_neg (not_not_intro h)]
    rw [hleft]
  · have hleft : useHeldWhileFrozen live frozen held = (live, ⟨frozen, live⟩) := by rw [useHeldWhileFrozen, if_pos h]
    rw [hleft, useHeldWhileFrozen, if_neg (not_not_intro rfl)]
    exact ite_self live

end SparkDashboard.Browser
