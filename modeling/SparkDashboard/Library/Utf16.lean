import Mathlib.Data.List.DropRight
import Mathlib.Data.Nat.Digits.Lemmas
import Mathlib.Tactic.Ring

/-!
# Strings of UTF-16 code units

Any sequence of units is a string, paired surrogates or not. Numbers are written in
decimal, white space is trimmed, and a string is read as code points where it must be.
-/

abbrev Utf16 := List UInt16

/-- A text of ASCII characters. -/
def utf16 (s : String) : Utf16 := s.toList.map fun c => UInt16.ofNat c.toNat

namespace Utf16

section Decimal

def isDigit (u : UInt16) : Bool := 0x30 ≤ u && u ≤ 0x39

def digitUnit (d : Nat) : UInt16 := UInt16.ofNat (0x30 + d)

/-- The number a text of decimal digits stands for. -/
def natOf (text : Utf16) : Nat := text.foldl (fun n u => 10 * n + (u.toNat - 0x30)) 0

def decimal (n : Nat) : Utf16 := if n = 0 then [0x30] else (Nat.digits 10 n).reverse.map digitUnit

theorem toNat_digitUnit {d : Nat} (h : d < 10) : (digitUnit d).toNat = 0x30 + d := by
  rw [digitUnit, UInt16.toNat_ofNat']
  omega

theorem isDigit_iff (u : UInt16) : isDigit u = true ↔ 0x30 ≤ u.toNat ∧ u.toNat ≤ 0x39 := by
  simp [isDigit, UInt16.le_iff_toNat_le]

theorem isDigit_digitUnit {d : Nat} (h : d < 10) : isDigit (digitUnit d) = true := by
  rw [isDigit_iff, toNat_digitUnit h]
  omega

theorem foldl_natOf (text : Utf16) (n : Nat) :
    text.foldl (fun n u => 10 * n + (u.toNat - 0x30)) n = n * 10 ^ text.length + natOf text := by
  induction text generalizing n with
  | nil => simp [natOf]
  | cons u rest ih =>
    have hrest : natOf (u :: rest) = (10 * 0 + (u.toNat - 0x30)) * 10 ^ rest.length + natOf rest := ih _
    rw [List.foldl_cons, ih, hrest, List.length_cons, pow_succ]
    ring

theorem natOf_append (first second : Utf16) :
    natOf (first ++ second) = natOf first * 10 ^ second.length + natOf second := by
  rw [natOf, List.foldl_append, foldl_natOf]
  rfl

theorem natOf_singleton (u : UInt16) : natOf [u] = u.toNat - 0x30 := by
  rw [natOf, List.foldl_cons, List.foldl_nil]
  omega

theorem natOf_replicate_zero (n : Nat) : natOf (List.replicate n 0x30) = 0 := by
  induction n with
  | zero => rfl
  | succ n ih =>
    have hzero : natOf [0x30] = 0 := rfl
    rw [List.replicate_succ, ← List.singleton_append, natOf_append, ih, hzero, zero_mul]

theorem natOf_map_reverse {digits : List Nat} (h : ∀ d ∈ digits, d < 10) :
    natOf (digits.reverse.map digitUnit) = Nat.ofDigits 10 digits := by
  induction digits with
  | nil => rfl
  | cons d rest ih =>
    have hd := toNat_digitUnit (h d List.mem_cons_self)
    rw [List.reverse_cons, List.map_append, natOf_append, ih fun d' hd' => h d' (List.mem_cons_of_mem d hd'),
      List.map_singleton, natOf_singleton, hd, Nat.ofDigits_cons]
    simp only [List.length_singleton]
    push_cast
    omega

@[simp] theorem natOf_decimal (n : Nat) : natOf (decimal n) = n := by
  rw [decimal]
  split
  · simp_all [natOf]
  · rw [natOf_map_reverse fun d hd => Nat.digits_lt_base (by omega) hd, Nat.ofDigits_digits]

theorem isDigit_of_mem_decimal {n : Nat} {u : UInt16} (h : u ∈ decimal n) : isDigit u = true := by
  rw [decimal] at h
  split at h
  · rw [List.mem_singleton.mp h]
    rfl
  · obtain ⟨d, hd, rfl⟩ := List.mem_map.mp h
    exact isDigit_digitUnit (Nat.digits_lt_base (by omega) (List.mem_reverse.mp hd))

theorem decimal_ne_nil (n : Nat) : decimal n ≠ [] := by
  rw [decimal]
  split
  · exact List.cons_ne_nil _ _
  · rename_i h
    simp [Nat.digits_eq_nil_iff_eq_zero, h]

theorem decimal_injective : Function.Injective decimal := by
  intro n m h
  rw [← natOf_decimal n, h, natOf_decimal]

theorem head_decimal_ne_zero {n : Nat} (h : n ≠ 0) : (decimal n).head? ≠ some 0x30 := by
  rw [decimal, if_neg h, List.head?_map, List.head?_reverse]
  have hne : Nat.digits 10 n ≠ [] := Nat.digits_ne_nil_iff_ne_zero.mpr h
  rw [List.getLast?_eq_some_getLast hne, Option.map_some]
  intro hzero
  have hlast := Nat.getLast_digit_ne_zero 10 h
  have hlt : (Nat.digits 10 n).getLast hne < 10 := Nat.digits_lt_base (by omega) (List.getLast_mem hne)
  have hunit := congrArg UInt16.toNat (Option.some.inj hzero)
  rw [toNat_digitUnit hlt] at hunit
  have hval : (0x30 : UInt16).toNat = 48 := rfl
  omega

end Decimal

section Trim

/-- White space and line terminators. -/
def isSpace (u : UInt16) : Bool :=
  (9 ≤ u && u ≤ 13) || u == 0x20 || u == 0xA0 || u == 0x1680 || (0x2000 ≤ u && u ≤ 0x200A) ||
    u == 0x2028 || u == 0x2029 || u == 0x202F || u == 0x205F || u == 0x3000 || u == 0xFEFF

def trim (s : Utf16) : Utf16 := (s.dropWhile isSpace).rdropWhile isSpace

structure Trimmed (s : Utf16) : Prop where
  head : ∀ u, s.head? = some u → isSpace u = false
  last : ∀ u, s.getLast? = some u → isSpace u = false

theorem trimmed_nil : Trimmed [] := by
  constructor <;> intro u h <;> cases h

theorem trimmed_trim (s : Utf16) : Trimmed (trim s) := by
  constructor
  · intro u hu
    obtain ⟨tail, htail⟩ := List.rdropWhile_prefix isSpace (s.dropWhile isSpace)
    have hhead : (s.dropWhile isSpace).head? = some u := by
      rw [← htail, List.head?_append, show (List.rdropWhile isSpace (s.dropWhile isSpace)).head? = some u from hu]
      rfl
    have hnot := List.head?_dropWhile_not isSpace s
    rw [hhead] at hnot
    exact hnot
  · intro u hu
    have hne : List.rdropWhile isSpace (s.dropWhile isSpace) ≠ [] := by
      intro hnil
      rw [trim, hnil] at hu
      cases hu
    rw [trim, List.getLast?_eq_some_getLast hne] at hu
    rw [← Option.some.inj hu]
    exact Bool.eq_false_iff.mpr (List.rdropWhile_last_not isSpace _ hne)

theorem trim_of_trimmed {s : Utf16} (h : Trimmed s) : trim s = s := by
  have hdrop : s.dropWhile isSpace = s := by
    cases s with
    | nil => rfl
    | cons u rest =>
      rw [List.dropWhile_cons, h.head u rfl]
      rfl
  rw [trim, hdrop, List.rdropWhile_eq_self_iff]
  intro hne
  rw [h.last _ (List.getLast?_eq_some_getLast hne)]
  exact Bool.false_ne_true

theorem trimmed_of_forall {s : Utf16} (h : ∀ u ∈ s, isSpace u = false) : Trimmed s :=
  ⟨fun u hu => h u (List.mem_of_head? hu), fun u hu => h u (List.mem_of_getLast? hu)⟩

def spaceless (s : Utf16) : Bool := s.all fun u => !isSpace u

theorem trimmed_of_spaceless {s : Utf16} (h : spaceless s = true) : Trimmed s := by
  apply trimmed_of_forall
  intro u hu
  have hnot := List.all_eq_true.mp h u hu
  rwa [Bool.not_eq_true'] at hnot

theorem isSpace_of_isDigit {u : UInt16} (h : isDigit u = true) : isSpace u = false := by
  rw [isDigit_iff] at h
  simp [isSpace, UInt16.le_iff_toNat_le, ← UInt16.toNat_inj]
  omega

end Trim

section Separators

def lastIndexOf (text : Utf16) (u : UInt16) : Option Nat :=
  (text.reverse.findIdx? (· == u)).map fun i => text.length - 1 - i

theorem append_cons_inj_of_not_mem {u : UInt16} {first second x y : Utf16} (hfirst : u ∉ first)
    (hsecond : u ∉ second) (h : first ++ u :: x = second ++ u :: y) : first = second ∧ x = y := by
  induction first generalizing second with
  | nil =>
    cases second with
    | nil => exact ⟨rfl, (List.cons.inj h).2⟩
    | cons v rest => exact absurd ((List.cons.inj h).1 ▸ List.mem_cons_self) hsecond
  | cons v first ih =>
    cases second with
    | nil => exact absurd ((List.cons.inj h).1 ▸ List.mem_cons_self) hfirst
    | cons w second =>
      obtain ⟨rfl, hrest⟩ := List.cons.inj h
      obtain ⟨rfl, hxy⟩ := ih (fun hmem => hfirst (List.mem_cons_of_mem v hmem))
        (fun hmem => hsecond (List.mem_cons_of_mem v hmem)) hrest
      exact ⟨rfl, hxy⟩

theorem lastIndexOf_append_cons {u : UInt16} (before : Utf16) {after : Utf16} (h : u ∉ after) :
    lastIndexOf (before ++ u :: after) u = some before.length := by
  have hreverse : (before ++ u :: after).reverse = after.reverse ++ u :: before.reverse := by
    rw [List.reverse_append, List.reverse_cons, List.append_assoc]
    rfl
  have hfind : (after.reverse ++ u :: before.reverse).findIdx? (· == u) = some after.length := by
    have hnone : after.reverse.findIdx? (· == u) = none := by
      rw [List.findIdx?_eq_none_iff]
      intro v hv
      have hne : v ≠ u := fun heq => h (heq ▸ List.mem_reverse.mp hv)
      exact beq_false_of_ne hne
    rw [List.findIdx?_append, hnone, List.findIdx?_cons, beq_self_eq_true, if_pos rfl, Option.none_or,
      Option.map_some, List.length_reverse, Nat.zero_add]
  rw [lastIndexOf, hreverse, hfind, Option.map_some, List.length_append, List.length_cons]
  congr 1
  omega

end Separators

section CodePoints

def isLead (u : UInt16) : Bool := 0xD800 ≤ u && u ≤ 0xDBFF

def isTrail (u : UInt16) : Bool := 0xDC00 ≤ u && u ≤ 0xDFFF

/-- The code points of a string, each with its units; a surrogate without its pair is one. -/
def codePoints : Utf16 → List (Nat × Utf16)
  | [] => []
  | [u] => [(u.toNat, [u])]
  | u :: v :: rest =>
    if isLead u && isTrail v then
      (0x10000 + (u.toNat - 0xD800) * 0x400 + (v.toNat - 0xDC00), [u, v]) :: codePoints rest
    else (u.toNat, [u]) :: codePoints (v :: rest)

/-- A character in UTF-16. -/
def charUnits (c : Char) : Utf16 :=
  if c.toNat < 0x10000 then [UInt16.ofNat c.toNat]
  else [UInt16.ofNat (0xD800 + (c.toNat - 0x10000) / 0x400), UInt16.ofNat (0xDC00 + (c.toNat - 0x10000) % 0x400)]

def ofChars (chars : List Char) : Utf16 := chars.flatMap charUnits

/-- No surrogate is without its pair. -/
def IsWellFormed (s : Utf16) : Prop := ∃ chars, s = ofChars chars

theorem charUnits_ne_nil (c : Char) : charUnits c ≠ [] := by
  rw [charUnits]
  split <;> exact List.cons_ne_nil _ _

theorem codePoints_charUnits_append (c : Char) (rest : Utf16) :
    codePoints (charUnits c ++ rest) = (c.toNat, charUnits c) :: codePoints rest := by
  have hvalid : c.toNat < 0xD800 ∨ 0xDFFF < c.toNat ∧ c.toNat < 0x110000 := c.valid
  rw [charUnits]
  generalize c.toNat = n at hvalid
  split
  · rename_i hbmp
    have hunit : (UInt16.ofNat n).toNat = n := UInt16.toNat_ofNat_of_lt' hbmp
    cases rest with
    | nil => simp only [List.append_nil, codePoints, hunit]
    | cons v rest =>
      have hlead : isLead (UInt16.ofNat n) = false := by
        simp only [isLead, UInt16.le_iff_toNat_le, hunit, Bool.and_eq_false_iff, decide_eq_false_iff_not]
        have hlo : (0xD800 : UInt16).toNat = 0xD800 := rfl
        have hhi : (0xDBFF : UInt16).toNat = 0xDBFF := rfl
        omega
      rw [List.singleton_append, codePoints, hlead, Bool.false_and, if_neg Bool.false_ne_true, hunit]
  · rename_i hastral
    have hlead : (UInt16.ofNat (0xD800 + (n - 0x10000) / 0x400)).toNat = 0xD800 + (n - 0x10000) / 0x400 :=
      UInt16.toNat_ofNat_of_lt' (by rw [UInt16.size]; omega)
    have htrail : (UInt16.ofNat (0xDC00 + (n - 0x10000) % 0x400)).toNat = 0xDC00 + (n - 0x10000) % 0x400 :=
      UInt16.toNat_ofNat_of_lt' (by rw [UInt16.size]; omega)
    have hpair : (isLead (UInt16.ofNat (0xD800 + (n - 0x10000) / 0x400)) &&
        isTrail (UInt16.ofNat (0xDC00 + (n - 0x10000) % 0x400))) = true := by
      simp only [isLead, isTrail, UInt16.le_iff_toNat_le, hlead, htrail, Bool.and_eq_true, decide_eq_true_eq]
      have h₁ : (0xD800 : UInt16).toNat = 0xD800 := rfl
      have h₂ : (0xDBFF : UInt16).toNat = 0xDBFF := rfl
      have h₃ : (0xDC00 : UInt16).toNat = 0xDC00 := rfl
      have h₄ : (0xDFFF : UInt16).toNat = 0xDFFF := rfl
      omega
    have hnumber : 0x10000 + (0xD800 + (n - 0x10000) / 0x400 - 0xD800) * 0x400 +
        (0xDC00 + (n - 0x10000) % 0x400 - 0xDC00) = n := by
      omega
    simp only [List.cons_append, List.nil_append]
    rw [codePoints, if_pos hpair, hlead, htrail, hnumber]

theorem codePoints_ofChars (chars : List Char) :
    codePoints (ofChars chars) = chars.map fun c => (c.toNat, charUnits c) := by
  induction chars with
  | nil => rfl
  | cons c chars ih => rw [ofChars, List.flatMap_cons, codePoints_charUnits_append, ← ofChars, ih, List.map_cons]

end CodePoints

end Utf16
