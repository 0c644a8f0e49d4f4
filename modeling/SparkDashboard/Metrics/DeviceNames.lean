import Mathlib.Data.List.TakeWhile
import SparkDashboard.Library.Chars

/-!
# Whole disks by name

The names of whole block devices, told from those of their partitions by the families they
come from. A partition's traffic is already counted on its device.
-/

namespace SparkDashboard.Metrics

open SparkDashboard.Library Chars

/-- Devices that only read again what is in memory. -/
def excludedPrefixes : List Text := ["loop".toList, "ram".toList, "zram".toList]

/-- The families whose whole devices end in a number. -/
def numberedPrefixes : List Text := ["mmcblk".toList, "md".toList, "nbd".toList, "rbd".toList, "dm-".toList]

def nvmePrefix : Text := "nvme".toList

def splitLeadingDigits (s : Text) : Text × Text := (s.takeWhile Char.isDigit, s.dropWhile Char.isDigit)

/-- What follows `nvme` in the name of a namespace, `<ctrl>n<ns>`. -/
def isNamespace (rest : Text) : Bool :=
  match (splitLeadingDigits rest).2.dropPrefix? ['n'] with
  | none => false
  | some after =>
    decide ((splitLeadingDigits rest).1 ≠ [] ∧ (splitLeadingDigits after).1 ≠ [] ∧ (splitLeadingDigits after).2 = [])

/-- What follows the prefix of a numbered family. -/
def isNumber (rest : Text) : Bool := decide ((splitLeadingDigits rest).1 ≠ [] ∧ (splitLeadingDigits rest).2 = [])

def endsInDigit (name : Text) : Bool := name.getLast?.any Char.isDigit

def numberedRest (name : Text) : Option Text := numberedPrefixes.findSome? fun family => name.dropPrefix? family

def isWholeDevice (name : Text) : Bool :=
  if name.isEmpty || excludedPrefixes.any (fun excluded => excluded.isPrefixOf name) then false
  else
    match name.dropPrefix? nvmePrefix with
    | some rest => isNamespace rest
    | none =>
      match numberedRest name with
      | some rest => isNumber rest
      | none => !endsInDigit name

/-- How the kernel names a device's partitions. -/
inductive IsPartition (name : Text) : Text → Prop where
  | lettered {number : Text} (hname : endsInDigit name = false) (hne : number ≠ [])
      (hdigits : ∀ c ∈ number, c.isDigit = true) : IsPartition name (name ++ number)
  | numbered {number : Text} (hname : endsInDigit name = true) (hne : number ≠ [])
      (hdigits : ∀ c ∈ number, c.isDigit = true) : IsPartition name (name ++ 'p' :: number)

theorem splitLeadingDigits_append {digits : Text} (hdigits : ∀ c ∈ digits, c.isDigit = true) {rest : Text}
    (hrest : ∀ c, rest.head? = some c → c.isDigit = false) : splitLeadingDigits (digits ++ rest) = (digits, rest) := by
  have htake : rest.takeWhile Char.isDigit = [] := by
    cases rest with
    | nil => rfl
    | cons c rest => rw [List.takeWhile_cons, hrest c rfl, if_neg Bool.false_ne_true]
  rw [splitLeadingDigits, List.takeWhile_append_of_pos hdigits, List.dropWhile_append_of_pos hdigits, htake,
    dropWhile_eq_self hrest, List.append_nil]

theorem splitLeadingDigits_digits (s : Text) : ∀ c ∈ (splitLeadingDigits s).1, c.isDigit = true :=
  fun _ hc => List.mem_takeWhile_imp hc

theorem splitLeadingDigits_join (s : Text) : s = (splitLeadingDigits s).1 ++ (splitLeadingDigits s).2 :=
  List.takeWhile_append_dropWhile.symm

theorem isNumber_iff {rest : Text} : isNumber rest = true ↔ rest ≠ [] ∧ ∀ c ∈ rest, c.isDigit = true := by
  rw [isNumber, decide_eq_true_iff]
  constructor
  · rintro ⟨hne, hnil⟩
    have hjoin := splitLeadingDigits_join rest
    rw [hnil, List.append_nil] at hjoin
    rw [hjoin]
    exact ⟨hne, splitLeadingDigits_digits rest⟩
  · rintro ⟨hne, hdigits⟩
    have hsplit := @splitLeadingDigits_append _ hdigits [] nofun
    rw [List.append_nil] at hsplit
    rw [hsplit]
    exact ⟨hne, rfl⟩

theorem isNamespace_iff {rest : Text} :
    isNamespace rest = true ↔ ∃ ctrl ns, rest = ctrl ++ 'n' :: ns ∧ isNumber ctrl = true ∧ isNumber ns = true := by
  constructor
  · intro h
    rw [isNamespace] at h
    split at h
    · cases h
    · rename_i after hafter
      obtain ⟨hctrl, hns, hnil⟩ := of_decide_eq_true h
      have hjoin := splitLeadingDigits_join rest
      rw [dropPrefix?_eq_some.mp hafter] at hjoin
      refine ⟨_, after, hjoin, isNumber_iff.mpr ⟨hctrl, splitLeadingDigits_digits rest⟩, ?_⟩
      rw [isNumber, decide_eq_true_iff]
      exact ⟨hns, hnil⟩
  · rintro ⟨ctrl, ns, rfl, hctrl, hns⟩
    obtain ⟨hne, hdigits⟩ := isNumber_iff.mp hctrl
    have hsplit := @splitLeadingDigits_append _ hdigits ('n' :: ns) (by rintro _ ⟨⟩; rfl)
    rw [isNamespace, hsplit, dropPrefix?_singleton, if_pos rfl, decide_eq_true_iff]
    exact ⟨hne, of_decide_eq_true hns⟩

theorem endsInDigit_append {first last : Text} (h : isNumber last = true) : endsInDigit (first ++ last) = true := by
  obtain ⟨hne, hdigits⟩ := isNumber_iff.mp h
  rw [endsInDigit, List.getLast?_append, List.getLast?_eq_some_getLast hne, Option.some_or]
  exact hdigits _ (List.getLast_mem hne)

theorem exists_digit_of_endsInDigit {name : Text} (h : endsInDigit name = true) : ∃ c ∈ name, c.isDigit = true := by
  obtain ⟨c, hlast, hdigit⟩ := (Option.any_eq_true _ _).mp h
  exact ⟨c, List.mem_of_getLast? hlast, hdigit⟩

/-- A digit stands in the name, or follows it. -/
def DigitUpTo (name more : Text) : Prop :=
  (∃ c ∈ name, c.isDigit = true) ∨ ∃ c, more.head? = some c ∧ c.isDigit = true

/-- A text without digits begins the longer name only where it begins the shorter one. -/
theorem prefix_append_iff {family name more : Text} (hfamily : ∀ c ∈ family, c.isDigit = false)
    (hdigit : DigitUpTo name more) : family <+: name ++ more ↔ family <+: name := by
  constructor
  · intro h
    rcases List.prefix_or_prefix_of_prefix h (List.prefix_append name more) with hname | ⟨beyond, rfl⟩
    · exact hname
    · rcases hdigit with ⟨c, hc, hdigit⟩ | ⟨c, hc, hdigit⟩
      · cases (hfamily c (List.mem_append_left beyond hc)).symm.trans hdigit
      · cases beyond with
        | nil => exact ⟨[], by simp⟩
        | cons d beyond =>
          obtain ⟨after, rfl⟩ := (List.prefix_append_right_inj name).mp h
          obtain rfl : d = c := Option.some.inj hc
          cases (hfamily d (by simp)).symm.trans hdigit
  · exact fun h => h.trans (List.prefix_append name more)

theorem dropPrefix?_append {family name more : Text} (hfamily : ∀ c ∈ family, c.isDigit = false)
    (hdigit : DigitUpTo name more) :
    (name ++ more).dropPrefix? family = (name.dropPrefix? family).map (· ++ more) := by
  cases hname : name.dropPrefix? family with
  | some rest =>
    rw [Option.map_some, dropPrefix?_eq_some, dropPrefix?_eq_some.mp hname, List.append_assoc]
  | none =>
    rw [Option.map_none]
    cases hlong : (name ++ more).dropPrefix? family with
    | none => rfl
    | some rest =>
      obtain ⟨rest', hrest'⟩ := (prefix_append_iff hfamily hdigit).mp ⟨rest, (dropPrefix?_eq_some.mp hlong).symm⟩
      cases hname.symm.trans (dropPrefix?_eq_some.mpr hrest'.symm)

theorem no_digit_of_all {family : Text} (h : family.all (fun c => !c.isDigit) = true) :
    ∀ c ∈ family, c.isDigit = false := by
  intro c hc
  have hdigit := List.all_eq_true.mp h c hc
  rwa [Bool.not_eq_true'] at hdigit

theorem nvmePrefix_no_digit : ∀ c ∈ nvmePrefix, c.isDigit = false := no_digit_of_all (by decide)

section Partitions

variable {name more : Text}

theorem numberedRest_append (hdigit : DigitUpTo name more) :
    numberedRest (name ++ more) = (numberedRest name).map (· ++ more) := by
  have hall : numberedPrefixes.all (fun family => family.all fun c => !c.isDigit) = true := by decide
  rw [numberedRest, numberedRest]
  generalize numberedPrefixes = families at hall
  induction families with
  | nil => rfl
  | cons family families ih =>
    rw [List.all_cons, Bool.and_eq_true] at hall
    rw [List.findSome?_cons, List.findSome?_cons, dropPrefix?_append (no_digit_of_all hall.1) hdigit]
    cases name.dropPrefix? family with
    | some rest => rfl
    | none => exact ih hall.2

/-- The longer name is of the same family, if it is of any that counts. -/
theorem isWholeDevice_append (hdigit : DigitUpTo name more) (h : isWholeDevice (name ++ more) = true) :
    (∃ rest, name.dropPrefix? nvmePrefix = some rest ∧ isNamespace (rest ++ more) = true) ∨
    (name.dropPrefix? nvmePrefix = none ∧
      ∃ rest, numberedRest name = some rest ∧ isNumber (rest ++ more) = true) ∨
    (name.dropPrefix? nvmePrefix = none ∧ numberedRest name = none ∧ endsInDigit (name ++ more) = false) := by
  rw [isWholeDevice] at h
  split at h
  · cases h
  · rw [dropPrefix?_append nvmePrefix_no_digit hdigit, numberedRest_append hdigit] at h
    cases hnvme : name.dropPrefix? nvmePrefix with
    | some rest =>
      rw [hnvme] at h
      exact .inl ⟨rest, rfl, h⟩
    | none =>
      rw [hnvme] at h
      cases hnumbered : numberedRest name with
      | some rest =>
        rw [hnumbered] at h
        exact .inr (.inl ⟨rfl, rest, rfl, h⟩)
      | none =>
        rw [hnumbered] at h
        exact .inr (.inr ⟨rfl, rfl, (Bool.not_eq_true' _).mp h⟩)

/-- The three shapes of a whole device's name. -/
theorem isWholeDevice_cases (h : isWholeDevice name = true) :
    (∃ rest, name.dropPrefix? nvmePrefix = some rest ∧ isNamespace rest = true) ∨
    (name.dropPrefix? nvmePrefix = none ∧ ∃ rest, numberedRest name = some rest ∧ isNumber rest = true) ∨
    (name.dropPrefix? nvmePrefix = none ∧ numberedRest name = none ∧ endsInDigit name = false) := by
  rw [isWholeDevice] at h
  split at h
  · cases h
  · split at h
    · rename_i rest hnvme
      exact .inl ⟨rest, hnvme, h⟩
    · rename_i hnvme
      split at h
      · rename_i rest hnumbered
        exact .inr (.inl ⟨hnvme, rest, hnumbered, h⟩)
      · rename_i hnumbered
        exact .inr (.inr ⟨hnvme, hnumbered, (Bool.not_eq_true' _).mp h⟩)

theorem not_isNumber_of_mem {rest : Text} {c : Char} (hmem : c ∈ rest) (hc : c.isDigit = false) :
    isNumber rest = false := by
  rw [Bool.eq_false_iff]
  intro h
  cases ((isNumber_iff.mp h).2 c hmem).symm.trans hc

/-- The number of a partition does not continue that of a namespace. -/
theorem not_isNamespace_append {rest number : Text} (h : isNamespace rest = true) :
    isNamespace (rest ++ 'p' :: number) = false := by
  obtain ⟨ctrl, ns, rfl, hctrl, hns⟩ := isNamespace_iff.mp h
  have hsplit := @splitLeadingDigits_append _ (isNumber_iff.mp hctrl).2 ('n' :: (ns ++ 'p' :: number))
    (by rintro _ ⟨⟩; rfl)
  have hafter := @splitLeadingDigits_append _ (isNumber_iff.mp hns).2 ('p' :: number) (by rintro _ ⟨⟩; rfl)
  rw [isNamespace, List.append_assoc, List.cons_append, hsplit, dropPrefix?_singleton, if_pos rfl]
  rw [decide_eq_false_iff_not, hafter]
  rintro ⟨-, -, hnil⟩
  cases hnil

theorem exists_family_of_numberedRest {rest : Text} (h : numberedRest name = some rest) :
    ∃ family, name = family ++ rest := by
  obtain ⟨family, -, hrest⟩ := List.exists_of_findSome?_eq_some h
  exact ⟨family, dropPrefix?_eq_some.mp hrest⟩

theorem endsInDigit_of_nvme {rest : Text} (hwhole : isWholeDevice name = true)
    (hrest : name.dropPrefix? nvmePrefix = some rest) : isNamespace rest = true ∧ endsInDigit name = true := by
  rcases isWholeDevice_cases hwhole with ⟨rest', hrest', hns⟩ | ⟨hnone, -⟩ | ⟨hnone, -⟩
  · obtain rfl : rest' = rest := Option.some.inj (hrest'.symm.trans hrest)
    refine ⟨hns, ?_⟩
    obtain ⟨ctrl, ns, rfl, -, hnumber⟩ := isNamespace_iff.mp hns
    rw [dropPrefix?_eq_some.mp hrest, List.append_cons, ← List.append_assoc]
    exact endsInDigit_append hnumber
  · cases hnone.symm.trans hrest
  · cases hnone.symm.trans hrest

theorem endsInDigit_of_numbered {rest : Text} (hwhole : isWholeDevice name = true)
    (hnvme : name.dropPrefix? nvmePrefix = none) (hrest : numberedRest name = some rest) :
    endsInDigit name = true := by
  rcases isWholeDevice_cases hwhole with ⟨rest', hrest', -⟩ | ⟨-, rest', hrest', hnumber⟩ | ⟨-, hnone, -⟩
  · cases hnvme.symm.trans hrest'
  · obtain rfl : rest' = rest := Option.some.inj (hrest'.symm.trans hrest)
    obtain ⟨family, rfl⟩ := exists_family_of_numberedRest hrest
    exact endsInDigit_append hnumber
  · cases hnone.symm.trans hrest

/-- A device counted as a whole one is not counted again through a partition. -/
theorem not_isWholeDevice_of_isPartition {part : Text} (hwhole : isWholeDevice name = true)
    (hpart : IsPartition name part) : isWholeDevice part = false := by
  rw [Bool.eq_false_iff]
  intro h
  cases hpart with
  | @lettered number hname hne hdigits =>
    have hdigit : DigitUpTo name number := by
      obtain ⟨d, ds, rfl⟩ := List.exists_cons_of_ne_nil hne
      exact .inr ⟨d, rfl, hdigits d List.mem_cons_self⟩
    rcases isWholeDevice_append hdigit h with ⟨rest, hrest, -⟩ | ⟨hnvme, rest, hrest, -⟩ | ⟨-, -, hlast⟩
    · cases hname.symm.trans (endsInDigit_of_nvme hwhole hrest).2
    · cases hname.symm.trans (endsInDigit_of_numbered hwhole hnvme hrest)
    · cases hlast.symm.trans (endsInDigit_append (isNumber_iff.mpr ⟨hne, hdigits⟩))
  | @numbered number hname hne hdigits =>
    have hdigit : DigitUpTo name ('p' :: number) := .inl (exists_digit_of_endsInDigit hname)
    rcases isWholeDevice_append hdigit h with ⟨rest, hrest, hns⟩ | ⟨-, rest, -, hnumber⟩ | ⟨-, -, hlast⟩
    · cases hns.symm.trans (not_isNamespace_append (endsInDigit_of_nvme hwhole hrest).1)
    · cases hnumber.symm.trans (not_isNumber_of_mem (c := 'p') (by simp) rfl)
    · rw [List.append_cons] at hlast
      cases hlast.symm.trans (endsInDigit_append (isNumber_iff.mpr ⟨hne, hdigits⟩))

end Partitions

end SparkDashboard.Metrics
