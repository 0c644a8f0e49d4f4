import Mathlib.Algebra.BigOperators.Group.List.Basic
import Mathlib.Algebra.Order.BigOperators.Group.List
import Mathlib.Data.List.Induction
import Mathlib.Data.List.Nodup
import Mathlib.Data.Rat.Defs
import Mathlib.Tactic.Linarith
import Mathlib.Tactic.Ring

/-!
# The tabs that fit in the header

Page tabs are placed on a strip from the front, the page being viewed before all others,
until one does not fit beside the overflow button. Widths are exact, as whole pixels are.
-/

namespace SparkDashboard.Dashboard

def tabGap : ℚ := 4

def overflowButtonWidth : ℚ := 76

structure TabLayout where
  visible : List Nat
  overflow : List Nat

def tabWidth (widths : List ℚ) (index : Nat) : ℚ := widths.getD index 0

def rowWidth (widths : List ℚ) (indices : List Nat) : ℚ :=
  if indices.length = 0 then 0
  else (indices.map (tabWidth widths)).sum + tabGap * (indices.length - 1)

/-- The tabs placed so far, in the order they were, and the width they use. -/
structure Strip where
  chosen : List Nat := []
  used : ℚ := 0

namespace Strip

def cost (widths : List ℚ) (s : Strip) (index : Nat) : ℚ :=
  tabWidth widths index + if 0 < s.chosen.length then tabGap else 0

def place (widths : List ℚ) (s : Strip) (index : Nat) : Strip where
  chosen := s.chosen ++ [index]
  used := s.used + s.cost widths index

/-- The loop over the tabs. It leaves at the first one that does not fit. -/
def fill (widths : List ℚ) (budget : ℚ) : Strip → List Nat → Strip
  | s, [] => s
  | s, index :: rest =>
    if index ∈ s.chosen then fill widths budget s rest
    else if budget < s.used + s.cost widths index then s
    else fill widths budget (s.place widths index) rest

end Strip

def activeTab (widths : List ℚ) (activeIndex : Int) : Option Nat :=
  if 0 ≤ activeIndex ∧ activeIndex < widths.length then some activeIndex.toNat else none

/-- The strip with the active tab on it, if that fits. -/
def stripWithActive (widths : List ℚ) (activeIndex : Int) (budget : ℚ) : Strip :=
  match activeTab widths activeIndex with
  | none => {}
  | some active => if tabWidth widths active ≤ budget then Strip.place widths {} active else {}

def fitTabs (widths : List ℚ) (activeIndex : Int) (available : ℚ) : TabLayout :=
  let all := List.range widths.length
  if available ≤ 0 ∨ rowWidth widths all ≤ available then ⟨all, []⟩
  else
    let budget := available - overflowButtonWidth - tabGap
    let strip := (stripWithActive widths activeIndex budget).fill widths budget all
    ⟨all.filter (· ∈ strip.chosen), all.filter (· ∉ strip.chosen)⟩

/-- The active tab, where the layout shows it. -/
def TabLayout.shownActive (layout : TabLayout) (activeIndex : Int) : List Nat :=
  layout.visible.filter fun index => decide ((index : Int) = activeIndex)

/-- A row of these tabs, one more gap and the overflow button fit. -/
def FitsBesideButton (widths : List ℚ) (available : ℚ) (indices : List Nat) : Prop :=
  rowWidth widths indices + tabGap + overflowButtonWidth ≤ available

section Rows

variable {widths : List ℚ}

theorem rowWidth_concat (widths : List ℚ) (indices : List Nat) (index : Nat) :
    rowWidth widths (indices ++ [index]) =
      rowWidth widths indices + (tabWidth widths index + if 0 < indices.length then tabGap else 0) := by
  cases indices with
  | nil => simp [rowWidth]
  | cons first rest =>
    simp [rowWidth]
    ring

theorem rowWidth_perm {first second : List Nat} (h : first.Perm second) :
    rowWidth widths first = rowWidth widths second := by
  rw [rowWidth, rowWidth, h.length_eq, (h.map (tabWidth widths)).sum_eq]

theorem tabWidth_nonneg (hwidths : ∀ w ∈ widths, 0 ≤ w) (index : Nat) : 0 ≤ tabWidth widths index := by
  rw [tabWidth, List.getD_eq_getElem?_getD]
  cases hindex : widths[index]? with
  | none => exact le_refl 0
  | some w => exact hwidths w (List.mem_of_getElem? hindex)

theorem gap_nonneg (indices : List Nat) : 0 ≤ if 0 < indices.length then tabGap else 0 := by
  split
  · rw [tabGap]
    norm_num
  · exact le_refl 0

theorem rowWidth_le_append (hwidths : ∀ w ∈ widths, 0 ≤ w) (first more : List Nat) :
    rowWidth widths first ≤ rowWidth widths (first ++ more) := by
  induction more using List.reverseRecOn with
  | nil => rw [List.append_nil]
  | append_singleton more index ih =>
    rw [← List.append_assoc, rowWidth_concat]
    have hwidth := tabWidth_nonneg hwidths index
    have hgap := gap_nonneg (first ++ more)
    linarith

theorem fitsBesideButton_iff {available : ℚ} {indices : List Nat} :
    FitsBesideButton widths available indices ↔ rowWidth widths indices ≤ available - overflowButtonWidth - tabGap := by
  rw [FitsBesideButton]
  constructor
  · intro h
    linarith
  · intro h
    linarith

theorem rowWidth_singleton (widths : List ℚ) (index : Nat) : rowWidth widths [index] = tabWidth widths index := by
  simp [rowWidth]

end Rows

namespace Strip

variable {widths : List ℚ} {budget : ℚ}

/-- What is used is the row of the chosen tabs, and it fits once there is one. -/
structure Accounted (widths : List ℚ) (budget : ℚ) (s : Strip) : Prop where
  used : s.used = rowWidth widths s.chosen
  fits : s.chosen ≠ [] → s.used ≤ budget

theorem used_add_cost {s : Strip} (h : s.Accounted widths budget) (index : Nat) :
    s.used + s.cost widths index = rowWidth widths (s.chosen ++ [index]) := by
  rw [h.used, cost, rowWidth_concat]

theorem accounted_empty (widths : List ℚ) (budget : ℚ) : Accounted widths budget {} :=
  ⟨rfl, fun h => absurd rfl h⟩

theorem accounted_place {s : Strip} (h : s.Accounted widths budget) {index : Nat}
    (hfits : s.used + s.cost widths index ≤ budget) : (s.place widths index).Accounted widths budget :=
  ⟨used_add_cost h index, fun _ => hfits⟩

/-- The loop adds a leading run of the tabs not yet placed, and stops where the next is too wide. -/
theorem fill_spec {s : Strip} (h : s.Accounted widths budget) {indices : List Nat} (hnodup : indices.Nodup) :
    (s.fill widths budget indices).Accounted widths budget ∧
    ∃ run rest, indices.filter (· ∉ s.chosen) = run ++ rest ∧
      (s.fill widths budget indices).chosen = s.chosen ++ run ∧
      ∀ next ∈ rest.head?, budget < rowWidth widths (s.chosen ++ run ++ [next]) := by
  induction indices generalizing s with
  | nil => exact ⟨h, [], [], rfl, (List.append_nil _).symm, fun next hnext => nomatch hnext⟩
  | cons index indices ih =>
    obtain ⟨hfresh, hnodup⟩ := List.nodup_cons.mp hnodup
    rw [fill]
    split
    · rename_i hplaced
      rw [List.filter_cons_of_neg (by simpa using hplaced)]
      exact ih h hnodup
    · rename_i hplaced
      rw [List.filter_cons_of_pos (by simpa using hplaced)]
      split
      · rename_i hwide
        refine ⟨h, [], _, rfl, (List.append_nil _).symm, ?_⟩
        intro next hnext
        obtain rfl : index = next := Option.some.inj hnext
        rw [List.append_nil, ← used_add_cost h]
        exact hwide
      · rename_i hroom
        obtain ⟨haccounted, run, rest, hsplit, hchosen, hnext⟩ := ih (accounted_place h (not_lt.mp hroom)) hnodup
        have hplace : (s.place widths index).chosen = s.chosen ++ [index] := rfl
        rw [hplace, List.append_assoc] at hchosen
        rw [hplace] at hsplit
        have hsame : indices.filter (· ∉ s.chosen) = indices.filter (· ∉ s.chosen ++ [index]) := by
          apply List.filter_congr
          intro other hother
          have hne : other ≠ index := fun heq => hfresh (heq ▸ hother)
          simp [hne]
        refine ⟨haccounted, index :: run, rest, ?_, hchosen, ?_⟩
        · rw [hsame, hsplit, List.cons_append]
        · intro next hmem
          have hwide := hnext next hmem
          rwa [hplace, List.append_assoc s.chosen] at hwide

end Strip

theorem stripWithActive_cases (widths : List ℚ) (activeIndex : Int) (budget : ℚ) :
    (stripWithActive widths activeIndex budget).Accounted widths budget ∧
    ((∃ active < widths.length, (active : Int) = activeIndex ∧
        (stripWithActive widths activeIndex budget).chosen = [active]) ∨
      ((stripWithActive widths activeIndex budget).chosen = [] ∧
        ∀ active < widths.length, (active : Int) = activeIndex → budget < tabWidth widths active)) := by
  rw [stripWithActive]
  split
  · rename_i hactive
    refine ⟨Strip.accounted_empty widths budget, .inr ⟨rfl, ?_⟩⟩
    rintro active hlt rfl
    rw [activeTab, if_pos ⟨Int.natCast_nonneg active, Int.ofNat_lt.mpr hlt⟩] at hactive
    cases hactive
  · rename_i active hactive
    rw [activeTab] at hactive
    split at hactive
    · rename_i hvalid
      have hindex : (active : Int) = activeIndex := by
        rw [← Option.some.inj hactive]
        exact Int.toNat_of_nonneg hvalid.1
      split
      · rename_i hfits
        have hcost : ({} : Strip).used + ({} : Strip).cost widths active ≤ budget := by
          rw [Strip.used_add_cost (Strip.accounted_empty widths budget)]
          exact (rowWidth_singleton widths active).trans_le hfits
        refine ⟨Strip.accounted_place (Strip.accounted_empty widths budget) hcost, .inl ⟨active, ?_, hindex, rfl⟩⟩
        exact Int.ofNat_lt.mp (hindex.trans_lt hvalid.2)
      · rename_i hwide
        refine ⟨Strip.accounted_empty widths budget, .inr ⟨rfl, ?_⟩⟩
        intro other _ hother
        obtain rfl : other = active := Int.ofNat_inj.mp (hother.trans hindex.symm)
        exact not_le.mp hwide
    · cases hactive

section Crowded

/-- A strip with an overflow button: the active tab if shown, then a leading run of the others. -/
structure Crowded (widths : List ℚ) (activeIndex : Int) (available : ℚ) (shown run rest : List Nat) : Prop where
  others : (List.range widths.length).filter (· ∉ shown) = run ++ rest
  visible : (fitTabs widths activeIndex available).visible = (List.range widths.length).filter (· ∈ shown ++ run)
  overflow : (fitTabs widths activeIndex available).overflow = (List.range widths.length).filter (· ∉ shown ++ run)
  fits : shown ++ run ≠ [] → FitsBesideButton widths available (shown ++ run)
  stops : ∀ next ∈ rest.head?, ¬FitsBesideButton widths available (shown ++ run ++ [next])
  active : (∃ active < widths.length, (active : Int) = activeIndex ∧ shown = [active]) ∨
    (shown = [] ∧ ∀ active < widths.length, (active : Int) = activeIndex → ¬FitsBesideButton widths available [active])

variable {widths : List ℚ} {activeIndex : Int} {available : ℚ} {shown run rest : List Nat}

theorem exists_crowded (activeIndex : Int)
    (h : ¬(available ≤ 0 ∨ rowWidth widths (List.range widths.length) ≤ available)) :
    ∃ shown run rest, Crowded widths activeIndex available shown run rest := by
  obtain ⟨haccounted, hactive⟩ := stripWithActive_cases widths activeIndex (available - overflowButtonWidth - tabGap)
  obtain ⟨hfilled, run, rest, hothers, hchosen, hstops⟩ :=
    Strip.fill_spec haccounted (List.nodup_range (n := widths.length))
  refine ⟨_, run, rest, hothers, ?_, ?_, ?_, ?_, ?_⟩
  · rw [fitTabs, if_neg h, ← hchosen]
  · rw [fitTabs, if_neg h, ← hchosen]
  · intro hne
    rw [fitsBesideButton_iff, ← hchosen, ← hfilled.used]
    exact hfilled.fits (hchosen ▸ hne)
  · intro next hnext
    rw [fitsBesideButton_iff, not_le]
    exact hstops next hnext
  · rcases hactive with ⟨active, hlt, hindex, hshown⟩ | ⟨hshown, hwide⟩
    · exact .inl ⟨active, hlt, hindex, hshown⟩
    · refine .inr ⟨hshown, ?_⟩
      intro active hlt hindex
      rw [fitsBesideButton_iff, not_le, rowWidth_singleton]
      exact hwide active hlt hindex

theorem Crowded.nodup (h : Crowded widths activeIndex available shown run rest) : (shown ++ (run ++ rest)).Nodup := by
  rw [← h.others, List.nodup_append]
  refine ⟨?_, List.nodup_range.filter _, ?_⟩
  · rcases h.active with ⟨active, _, _, rfl⟩ | ⟨rfl, _⟩
    · exact List.nodup_singleton active
    · exact List.nodup_nil
  · rintro index hshown other hother rfl
    exact of_decide_eq_true (List.mem_filter.mp hother).2 hshown

theorem Crowded.mem_range (h : Crowded widths activeIndex available shown run rest) {index : Nat}
    (hindex : index ∈ shown ++ (run ++ rest)) : index ∈ List.range widths.length := by
  rcases List.mem_append.mp hindex with hshown | hothers
  · rcases h.active with ⟨active, hlt, _, rfl⟩ | ⟨rfl, _⟩
    · rw [List.mem_singleton.mp hshown]
      exact List.mem_range.mpr hlt
    · cases hshown
  · rw [← h.others] at hothers
    exact List.mem_of_mem_filter hothers

theorem Crowded.mem_visible_iff (h : Crowded widths activeIndex available shown run rest) {index : Nat} :
    index ∈ (fitTabs widths activeIndex available).visible ↔ index ∈ shown ++ run := by
  rw [h.visible, List.mem_filter, decide_eq_true_iff, and_iff_right_iff_imp]
  intro hindex
  apply h.mem_range
  rw [← List.append_assoc]
  exact List.mem_append_left rest hindex

theorem Crowded.visible_perm (h : Crowded widths activeIndex available shown run rest) :
    (fitTabs widths activeIndex available).visible.Perm (shown ++ run) := by
  have hnodup := h.nodup
  rw [← List.append_assoc] at hnodup
  apply (List.perm_ext_iff_of_nodup ?_ (List.nodup_append.mp hnodup).1).mpr
  · exact fun _ => h.mem_visible_iff
  · rw [h.visible]
    exact List.nodup_range.filter _

/-- A run of which a longer one fits would not have stopped. -/
theorem Crowded.prefix_iff (hwidths : ∀ w ∈ widths, 0 ≤ w)
    (h : Crowded widths activeIndex available shown run rest) {p : List Nat} (hp : p <+: run ++ rest) :
    p <+: run ↔ p = [] ∨ FitsBesideButton widths available (shown ++ p) := by
  constructor
  · rintro ⟨more, rfl⟩
    by_cases hempty : p = []
    · exact .inl hempty
    · have hne : shown ++ (p ++ more) ≠ [] := by simp [hempty]
      have hfits := fitsBesideButton_iff.mp (h.fits hne)
      have hle := rowWidth_le_append hwidths (shown ++ p) more
      rw [List.append_assoc] at hle
      exact .inr (fitsBesideButton_iff.mpr (hle.trans hfits))
  · rintro (rfl | hfits)
    · exact List.nil_prefix
    · rcases List.prefix_or_prefix_of_prefix hp (List.prefix_append run rest) with hshort | ⟨more, rfl⟩
      · exact hshort
      · cases more with
        | nil => exact ⟨[], by simp⟩
        | cons next more =>
          obtain ⟨after, rfl⟩ := (List.prefix_append_right_inj run).mp hp
          have hle := rowWidth_le_append hwidths (shown ++ run ++ [next]) more
          have hsame : shown ++ run ++ [next] ++ more = shown ++ (run ++ next :: more) := by simp
          rw [hsame] at hle
          exact absurd (fitsBesideButton_iff.mpr (hle.trans (fitsBesideButton_iff.mp hfits))) (h.stops next rfl)

/-- An active tab too wide for the strip is not in the run either. -/
theorem Crowded.shownActive_eq (hwidths : ∀ w ∈ widths, 0 ≤ w)
    (h : Crowded widths activeIndex available shown run rest) :
    (fitTabs widths activeIndex available).shownActive activeIndex = shown := by
  have hmem : ∀ index, index ∈ (fitTabs widths activeIndex available).shownActive activeIndex ↔
      index ∈ shown ++ run ∧ (index : Int) = activeIndex := by
    intro index
    rw [TabLayout.shownActive, List.mem_filter, h.mem_visible_iff, decide_eq_true_iff]
  rcases h.active with ⟨active, _, hindex, rfl⟩ | ⟨rfl, hwide⟩
  · have hnodup : ((fitTabs widths activeIndex available).shownActive activeIndex).Nodup := by
      rw [TabLayout.shownActive, h.visible]
      exact (List.nodup_range.filter _).filter _
    apply List.perm_singleton.mp
    apply (List.perm_ext_iff_of_nodup hnodup (List.nodup_singleton active)).mpr
    intro index
    rw [hmem, List.mem_singleton]
    constructor
    · rintro ⟨_, heq⟩
      exact Int.ofNat_inj.mp (heq.trans hindex.symm)
    · rintro rfl
      exact ⟨List.mem_append_left run (List.mem_singleton_self index), hindex⟩
  · rw [List.eq_nil_iff_forall_not_mem]
    intro index hshown
    obtain ⟨hrun, hindex⟩ := (hmem index).mp hshown
    obtain ⟨before, after, rfl⟩ := List.append_of_mem hrun
    have hlt : index < widths.length := List.mem_range.mp (h.mem_range (List.mem_append_left rest hrun))
    have hfits := fitsBesideButton_iff.mp (h.fits (by simp))
    have hrow : rowWidth widths [index] ≤ rowWidth widths ([] ++ (before ++ index :: after)) := by
      have hperm : (before ++ index :: after).Perm ([index] ++ (before ++ after)) := List.perm_middle
      rw [List.nil_append, rowWidth_perm hperm]
      exact rowWidth_le_append hwidths [index] (before ++ after)
    exact hwide index hlt hindex (fitsBesideButton_iff.mpr (hrow.trans hfits))

theorem Crowded.run_eq (h : Crowded widths activeIndex available shown run rest) :
    (fitTabs widths activeIndex available).visible.filter (· ∉ shown) = run := by
  have hnodup := h.nodup
  obtain ⟨_, hothers, hapart⟩ := List.nodup_append.mp hnodup
  have hrest := (List.nodup_append.mp hothers).2.2
  rw [h.visible, List.filter_filter]
  have hkeep : (List.range widths.length).filter
        (fun index => decide (index ∉ shown) && decide (index ∈ shown ++ run)) =
      ((List.range widths.length).filter (· ∉ shown)).filter (· ∈ run) := by
    rw [List.filter_filter]
    apply List.filter_congr
    intro index _
    by_cases hshown : index ∈ shown
    · simp [hshown]
    · simp [hshown]
  rw [hkeep, h.others, List.filter_append]
  have hrun : run.filter (· ∈ run) = run := List.filter_eq_self.mpr fun index hindex => decide_eq_true hindex
  have hnone : rest.filter (· ∈ run) = [] := by
    rw [List.filter_eq_nil_iff]
    intro index hindex hin
    exact hrest index (of_decide_eq_true hin) index hindex rfl
  rw [hrun, hnone, List.append_nil]

theorem Crowded.overflow_ne_nil
    (hcrowded : ¬(available ≤ 0 ∨ rowWidth widths (List.range widths.length) ≤ available))
    (h : Crowded widths activeIndex available shown run rest) :
    (fitTabs widths activeIndex available).overflow ≠ [] := by
  intro hempty
  apply hcrowded
  -- all tabs are placed, and what is placed leaves room for the button
  rw [h.overflow, List.filter_eq_nil_iff] at hempty
  have hall : (List.range widths.length).filter (· ∈ shown ++ run) = List.range widths.length :=
    List.filter_eq_self.mpr fun index hindex =>
      decide_eq_true (not_not.mp fun hout => hempty index hindex (decide_eq_true hout))
  have hperm := h.visible_perm
  rw [h.visible, hall] at hperm
  by_cases hnone : shown ++ run = []
  · rw [hnone] at hperm
    rw [hperm.eq_nil]
    by_cases hroom : available ≤ 0
    · exact .inl hroom
    · exact .inr (not_le.mp hroom).le
  · have hfits := h.fits hnone
    rw [FitsBesideButton, ← rowWidth_perm hperm, tabGap, overflowButtonWidth] at hfits
    exact .inr (by linarith)

/-- The active tab has the first choice: it is shown exactly when it fits alone. -/
theorem Crowded.active_visible_iff (hwidths : ∀ w ∈ widths, 0 ≤ w)
    (h : Crowded widths activeIndex available shown run rest) {active : Nat} (hlt : active < widths.length)
    (hindex : (active : Int) = activeIndex) :
    active ∈ (fitTabs widths activeIndex available).visible ↔ FitsBesideButton widths available [active] := by
  have hshown : active ∈ (fitTabs widths activeIndex available).visible ↔ active ∈ shown := by
    rw [← h.shownActive_eq hwidths, TabLayout.shownActive, List.mem_filter, decide_eq_true_iff]
    exact (and_iff_left hindex).symm
  rw [hshown]
  rcases h.active with ⟨other, _, hother, rfl⟩ | ⟨rfl, hwide⟩
  · obtain rfl : active = other := Int.ofNat_inj.mp (hindex.trans hother.symm)
    refine iff_of_true (List.mem_singleton_self active) ?_
    have hfits := fitsBesideButton_iff.mp (h.fits (by simp))
    exact fitsBesideButton_iff.mpr ((rowWidth_le_append hwidths [active] run).trans hfits)
  · exact iff_of_false List.not_mem_nil (hwide active hlt hindex)

end Crowded

theorem overflow_eq_nil_iff (widths : List ℚ) (activeIndex : Int) (available : ℚ) :
    (fitTabs widths activeIndex available).overflow = [] ↔
      available ≤ 0 ∨ rowWidth widths (List.range widths.length) ≤ available := by
  constructor
  · intro hempty
    by_contra hcrowded
    obtain ⟨shown, run, rest, h⟩ := exists_crowded activeIndex hcrowded
    exact h.overflow_ne_nil hcrowded hempty
  · intro hroom
    rw [fitTabs, if_pos hroom]

theorem pairwise_filter_range (n : Nat) (p : Nat → Bool) : ((List.range n).filter p).Pairwise (· < ·) :=
  List.pairwise_lt_range.filter p

theorem fitTabs_filters (widths : List ℚ) (activeIndex : Int) (available : ℚ) :
    ∃ keep : Nat → Bool,
      (fitTabs widths activeIndex available).visible = (List.range widths.length).filter keep ∧
      (fitTabs widths activeIndex available).overflow = (List.range widths.length).filter fun index => !keep index := by
  rw [fitTabs]
  split
  · exact ⟨fun _ => true, by simp, by simp⟩
  · exact ⟨_, rfl, by simp⟩

/-- With an overflow button, the others on the strip are a leading run, and a leading run is on it exactly
if it fits. -/
theorem fitTabs_spec {widths : List ℚ} (hwidths : ∀ w ∈ widths, 0 < w) (activeIndex : Int) (available : ℚ) :
    ((fitTabs widths activeIndex available).visible.Pairwise (· < ·) ∧
      (fitTabs widths activeIndex available).overflow.Pairwise (· < ·) ∧
      ((fitTabs widths activeIndex available).visible ++ (fitTabs widths activeIndex available).overflow).Perm
        (List.range widths.length)) ∧
    ((fitTabs widths activeIndex available).overflow = [] ↔
      available ≤ 0 ∨ rowWidth widths (List.range widths.length) ≤ available) ∧
    ((fitTabs widths activeIndex available).overflow ≠ [] →
      ((fitTabs widths activeIndex available).visible ≠ [] →
        FitsBesideButton widths available (fitTabs widths activeIndex available).visible) ∧
      (∀ active < widths.length, (active : Int) = activeIndex →
        (active ∈ (fitTabs widths activeIndex available).visible ↔ FitsBesideButton widths available [active])) ∧
      (fitTabs widths activeIndex available).visible.filter
          (· ∉ (fitTabs widths activeIndex available).shownActive activeIndex) <+:
        (List.range widths.length).filter (· ∉ (fitTabs widths activeIndex available).shownActive activeIndex) ∧
      ∀ p, p <+: (List.range widths.length).filter
            (· ∉ (fitTabs widths activeIndex available).shownActive activeIndex) →
        (p <+: (fitTabs widths activeIndex available).visible.filter
            (· ∉ (fitTabs widths activeIndex available).shownActive activeIndex) ↔
          p = [] ∨ FitsBesideButton widths available
            ((fitTabs widths activeIndex available).shownActive activeIndex ++ p))) := by
  have hnonneg : ∀ w ∈ widths, 0 ≤ w := fun w hw => (hwidths w hw).le
  refine ⟨?_, overflow_eq_nil_iff widths activeIndex available, ?_⟩
  · obtain ⟨keep, hvisible, hoverflow⟩ := fitTabs_filters widths activeIndex available
    rw [hvisible, hoverflow]
    exact ⟨pairwise_filter_range _ _, pairwise_filter_range _ _, List.filter_append_perm keep _⟩
  · intro hoverflow
    obtain ⟨shown, run, rest, h⟩ := exists_crowded activeIndex fun hroom =>
      hoverflow ((overflow_eq_nil_iff _ _ _).mpr hroom)
    have hperm := h.visible_perm
    refine ⟨?_, fun active hlt hindex => h.active_visible_iff hnonneg hlt hindex, ?_, ?_⟩
    · intro hvisible
      rw [FitsBesideButton, rowWidth_perm hperm]
      exact h.fits fun hnone => hvisible (hnone ▸ hperm).eq_nil
    · rw [h.shownActive_eq hnonneg, h.run_eq, h.others]
      exact List.prefix_append run rest
    · intro p hp
      rw [h.shownActive_eq hnonneg] at hp ⊢
      rw [h.others] at hp
      rw [h.run_eq]
      exact h.prefix_iff hnonneg hp

/-- The page being viewed displaces a leading tab; what is on the strip leaves room for the button. -/
theorem fitTabs_spec_displaced : FitsBesideButton [100, 100, 100, 100] 284 [0, 3] := by
  have hpositive : ∀ w ∈ ([100, 100, 100, 100] : List ℚ), 0 < w := by decide +kernel
  have hoverflow : (fitTabs [100, 100, 100, 100] 3 284).overflow ≠ [] := by decide +kernel
  have hvisible : (fitTabs [100, 100, 100, 100] 3 284).visible = [0, 3] := by decide +kernel
  have hfits := ((fitTabs_spec hpositive 3 284).2.2 hoverflow).1
  rw [hvisible] at hfits
  exact hfits (List.cons_ne_nil _ _)

end SparkDashboard.Dashboard
