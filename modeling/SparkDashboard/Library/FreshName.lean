import Mathlib.Data.List.Perm.Subperm
import Mathlib.Data.List.Nodup
import Mathlib.Data.List.Range

/-!
# The first name that is free

Candidates are tried by number until one is not taken. As no two numbers give one name,
there is one among as many as are taken and one more.
-/

universe u

namespace FreshName

variable {α : Type u} [DecidableEq α]

def firstFree (taken : List α) (candidate : Nat → α) : Nat → Nat → Nat
  | 0, n => n
  | fuel + 1, n => if candidate n ∈ taken then firstFree taken candidate fuel (n + 1) else n

def fresh (taken : List α) (candidate : Nat → α) (start : Nat) : α :=
  candidate (firstFree taken candidate taken.length start)

/-- `base`, or the first candidate from the second on that is free. -/
def freshOr (taken : List α) (base : α) (candidate : Nat → α) : α :=
  if base ∈ taken then fresh taken candidate 2 else base

theorem firstFree_spec (taken : List α) (candidate : Nat → α) (fuel start : Nat) :
    (∀ n, start ≤ n → n < firstFree taken candidate fuel start → candidate n ∈ taken) ∧
    (candidate (firstFree taken candidate fuel start) ∉ taken ∨
      firstFree taken candidate fuel start = start + fuel) := by
  induction fuel generalizing start with
  | zero =>
    refine ⟨?_, .inr rfl⟩
    intro n hle hlt
    rw [firstFree] at hlt
    omega
  | succ fuel ih =>
    rw [firstFree]
    split
    · rename_i hstart
      obtain ⟨hbefore, hend⟩ := ih (start + 1)
      refine ⟨?_, hend.imp id fun heq => by omega⟩
      intro n hle hlt
      rcases Nat.eq_or_lt_of_le hle with rfl | hgt
      · exact hstart
      · exact hbefore n hgt hlt
    · rename_i hstart
      refine ⟨?_, .inl hstart⟩
      intro n hle hlt
      omega

theorem le_firstFree (taken : List α) (candidate : Nat → α) (fuel start : Nat) :
    start ≤ firstFree taken candidate fuel start := by
  induction fuel generalizing start with
  | zero => exact Nat.le_refl start
  | succ fuel ih =>
    rw [firstFree]
    split
    · exact Nat.le_of_succ_le (ih (start + 1))
    · exact Nat.le_refl start

theorem fresh_not_mem (taken : List α) {candidate : Nat → α} (h : Function.Injective candidate) (start : Nat) :
    fresh taken candidate start ∉ taken := by
  intro hmem
  obtain ⟨hbefore, hend⟩ := firstFree_spec taken candidate taken.length start
  have heq := hend.resolve_left (not_not_intro hmem)
  -- Then more distinct names are taken than there are names taken.
  have hsub : (List.range' start (taken.length + 1)).map candidate ⊆ taken := by
    intro name hname
    obtain ⟨n, hn, rfl⟩ := List.mem_map.mp hname
    rw [List.mem_range'_1] at hn
    rcases Nat.lt_or_ge n (start + taken.length) with hlt | hge
    · exact hbefore n hn.1 (by omega)
    · have hlast : n = start + taken.length := by omega
      rw [hlast, ← heq]
      exact hmem
  have hnodup : ((List.range' start (taken.length + 1)).map candidate).Nodup :=
    (List.nodup_range' 1).map h
  have hle := (hnodup.subperm hsub).length_le
  rw [List.length_map, List.length_range'] at hle
  omega

theorem exists_eq_fresh (taken : List α) (candidate : Nat → α) (start : Nat) :
    ∃ n, fresh taken candidate start = candidate n := ⟨_, rfl⟩

theorem freshOr_not_mem (taken : List α) (base : α) {candidate : Nat → α} (h : Function.Injective candidate) :
    freshOr taken base candidate ∉ taken := by
  rw [freshOr]
  split
  · exact fresh_not_mem taken h 2
  · assumption

theorem freshOr_of_not_mem {taken : List α} {base : α} (candidate : Nat → α) (h : base ∉ taken) :
    freshOr taken base candidate = base := if_neg h

theorem freshOr_cases (taken : List α) (base : α) (candidate : Nat → α) :
    freshOr taken base candidate = base ∨ ∃ n, freshOr taken base candidate = candidate n := by
  rw [freshOr]
  split
  · exact .inr (exists_eq_fresh taken candidate 2)
  · exact .inl rfl

/-- The first free name: the base, or the candidate all before which are taken. -/
theorem freshOr_eq_iff {taken : List α} {base name : α} {candidate : Nat → α} (h : Function.Injective candidate) :
    freshOr taken base candidate = name ↔
      name ∉ taken ∧ (name = base ∨ base ∈ taken ∧
        ∃ n, 2 ≤ n ∧ name = candidate n ∧ ∀ m, 2 ≤ m → m < n → candidate m ∈ taken) := by
  constructor
  · rintro rfl
    refine ⟨freshOr_not_mem taken base h, ?_⟩
    rw [freshOr]
    split
    · rename_i hbase
      obtain ⟨hbefore, -⟩ := firstFree_spec taken candidate taken.length 2
      exact .inr ⟨hbase, _, le_firstFree taken candidate taken.length 2, rfl, hbefore⟩
    · exact .inl rfl
  · rintro ⟨hfree, rfl | ⟨hbase, n, hn, rfl, hbefore⟩⟩
    · exact freshOr_of_not_mem candidate hfree
    · rw [freshOr, if_pos hbase, fresh]
      obtain ⟨hless, -⟩ := firstFree_spec taken candidate taken.length 2
      have hstop := fresh_not_mem taken h 2
      rw [fresh] at hstop
      congr 1
      apply Nat.le_antisymm
      · apply Nat.le_of_not_lt
        intro hlt
        exact hfree (hless n hn hlt)
      · apply Nat.le_of_not_lt
        intro hlt
        exact hstop (hbefore _ (le_firstFree taken candidate taken.length 2) hlt)

section Assigning

variable {candidate : α → Nat → α}

/-- The names given to items in turn, each from its base; last first. -/
def assigned (candidate : α → Nat → α) : List α → List α
  | [] => []
  | base :: before =>
    let taken := assigned candidate before
    freshOr taken base (candidate base) :: taken

/-- The names that are gone after items with these bases; last first. -/
inductive Reached (candidate : α → Nat → α) : List α → α → Prop
  | base (base : α) (before : List α) : Reached candidate (base :: before) base
  | earlier (base : α) {before : List α} {name : α} (h : Reached candidate before name) :
    Reached candidate (base :: before) name
  | numbered {base : α} {before : List α} {n : Nat} (hn : 2 ≤ n) (hbase : Reached candidate before base)
    (hbefore : ∀ m, 2 ≤ m → m < n → Reached candidate before (candidate base m)) :
    Reached candidate (base :: before) (candidate base n)

theorem mem_assigned_iff (h : ∀ base, Function.Injective (candidate base)) {bases : List α} {name : α} :
    name ∈ assigned candidate bases ↔ Reached candidate bases name := by
  induction bases generalizing name with
  | nil =>
    rw [assigned]
    constructor
    · intro hmem
      cases hmem
    · intro hreached
      cases hreached
  | cons base before ih =>
    rw [assigned, List.mem_cons, eq_comm, freshOr_eq_iff (h base)]
    constructor
    · rintro (⟨-, rfl | ⟨hbase, n, hn, rfl, hbefore⟩⟩ | hmem)
      · exact .base _ before
      · exact .numbered hn (ih.mp hbase) fun m hm hlt => ih.mp (hbefore m hm hlt)
      · exact .earlier base (ih.mp hmem)
    · intro hreached
      by_cases hmem : name ∈ assigned candidate before
      · exact .inr hmem
      · refine .inl ⟨hmem, ?_⟩
        cases hreached with
        | base => exact .inl rfl
        | earlier _ hreached => exact absurd (ih.mpr hreached) hmem
        | numbered hn hbase hbefore =>
          exact .inr ⟨ih.mpr hbase, _, hn, rfl, fun m hm hlt => ih.mpr (hbefore m hm hlt)⟩

theorem freshOr_assigned_eq_base_iff (h : ∀ base, Function.Injective (candidate base)) {before : List α}
    {base : α} : freshOr (assigned candidate before) base (candidate base) = base ↔
      ¬ Reached candidate before base := by
  rw [← mem_assigned_iff h]
  constructor
  · intro heq
    rw [← heq]
    exact freshOr_not_mem _ _ (h base)
  · exact freshOr_of_not_mem _

end Assigning

end FreshName
