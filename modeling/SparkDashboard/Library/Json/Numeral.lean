import Mathlib.Data.Rat.Floor
import SparkDashboard.Library.Utf16

/-!
# Number tokens

A token is its parts: what reading one keeps, and what writing one is given.
-/

structure Numeral where
  negative : Bool
  whole : Utf16
  /-- The digits after the point, none where there is no point. -/
  fraction : Utf16
  /-- Whether it is negative, and its digits. -/
  exponent : Option (Bool × Utf16)
  deriving DecidableEq, Repr

namespace Numeral

open Utf16

def scale (n : Numeral) : Int :=
  match n.exponent with
  | none => 0
  | some (negative, digits) => if negative then -(natOf digits : Int) else natOf digits

def magnitude (n : Numeral) : ℚ :=
  natOf (n.whole ++ n.fraction) * 10 ^ (n.scale - n.fraction.length)

def value (n : Numeral) : ℚ := if n.negative then -n.magnitude else n.magnitude

/-- The token a grammar allows: digits where digits must be, no needless leading zero. -/
structure Valid (n : Numeral) : Prop where
  wholeDigits : ∀ u ∈ n.whole, isDigit u = true
  wholeHead : n.whole = [0x30] ∨ ∃ u rest, n.whole = u :: rest ∧ u ≠ 0x30
  fractionDigits : ∀ u ∈ n.fraction, isDigit u = true
  exponentDigits : ∀ negative digits, n.exponent = some (negative, digits) →
    digits ≠ [] ∧ ∀ u ∈ digits, isDigit u = true

def signText (negative : Bool) : Utf16 := if negative then [0x2D] else []

def fractionText (digits : Utf16) : Utf16 := if digits = [] then [] else 0x2E :: digits

def exponentText : Option (Bool × Utf16) → Utf16
  | none => []
  | some (negative, digits) => 0x65 :: (if negative then 0x2D else 0x2B) :: digits

def text (n : Numeral) : Utf16 :=
  signText n.negative ++ (n.whole ++ (fractionText n.fraction ++ exponentText n.exponent))

def readDigits (text : Utf16) : Utf16 × Utf16 := (text.takeWhile isDigit, text.dropWhile isDigit)

def readDigits1 (text : Utf16) : Option (Utf16 × Utf16) :=
  if (readDigits text).1 = [] then none else some (readDigits text)

def readSign : Utf16 → Bool × Utf16
  | [] => (false, [])
  | u :: rest => if u = 0x2D then (true, rest) else (false, u :: rest)

def readWhole : Utf16 → Option (Utf16 × Utf16)
  | [] => none
  | u :: rest => if u = 0x30 then some ([u], rest) else readDigits1 (u :: rest)

def readFraction : Utf16 → Option (Utf16 × Utf16)
  | [] => some ([], [])
  | u :: rest => if u = 0x2E then readDigits1 rest else some ([], u :: rest)

/-- The sign and digits after an `e`. -/
def readExponentDigits : Utf16 → Option ((Bool × Utf16) × Utf16)
  | [] => none
  | u :: rest =>
    let signed := u = 0x2B ∨ u = 0x2D
    (readDigits1 (if signed then rest else u :: rest)).map fun (digits, rest) => ((u == 0x2D, digits), rest)

def readExponent : Utf16 → Option (Option (Bool × Utf16) × Utf16)
  | [] => some (none, [])
  | u :: rest =>
    if u = 0x65 ∨ u = 0x45 then (readExponentDigits rest).map fun (exponent, rest) => (some exponent, rest)
    else some (none, u :: rest)

def read (text : Utf16) : Option (Numeral × Utf16) :=
  (readWhole (readSign text).2).bind fun (whole, afterWhole) =>
    (readFraction afterWhole).bind fun (fraction, afterFraction) =>
      (readExponent afterFraction).map fun (exponent, rest) =>
        (⟨(readSign text).1, whole, fraction, exponent⟩, rest)

/-- What may come right after a token: nothing that could go on with it. -/
def Ends (rest : Utf16) : Prop := ∀ u, rest.head? = some u → isDigit u = false ∧ u ≠ 0x2E ∧ u ≠ 0x65 ∧ u ≠ 0x45

theorem readDigits_append {digits rest : Utf16} (hdigits : ∀ u ∈ digits, isDigit u = true)
    (hrest : ∀ u, rest.head? = some u → isDigit u = false) : readDigits (digits ++ rest) = (digits, rest) := by
  have hnone : rest.takeWhile isDigit = [] ∧ rest.dropWhile isDigit = rest := by
    cases rest with
    | nil => exact ⟨rfl, rfl⟩
    | cons u rest => simp [hrest u rfl]
  rw [readDigits, List.takeWhile_append_of_pos hdigits, List.dropWhile_append_of_pos hdigits, hnone.1, hnone.2,
    List.append_nil]

theorem readDigits1_append {digits rest : Utf16} (hne : digits ≠ []) (hdigits : ∀ u ∈ digits, isDigit u = true)
    (hrest : ∀ u, rest.head? = some u → isDigit u = false) :
    readDigits1 (digits ++ rest) = some (digits, rest) := by
  rw [readDigits1, readDigits_append hdigits hrest, if_neg hne]

theorem readExponent_text {exponent : Option (Bool × Utf16)} {rest : Utf16}
    (hdigits : ∀ negative digits, exponent = some (negative, digits) →
      digits ≠ [] ∧ ∀ u ∈ digits, isDigit u = true)
    (hrest : Ends rest) : readExponent (exponentText exponent ++ rest) = some (exponent, rest) := by
  cases exponent with
  | none =>
    cases rest with
    | nil => rfl
    | cons u rest =>
      obtain ⟨-, -, he, hE⟩ := hrest u rfl
      rw [exponentText, List.nil_append, readExponent, if_neg (by simp [he, hE])]
  | some exponent =>
    obtain ⟨negative, digits⟩ := exponent
    obtain ⟨hne, hall⟩ := hdigits negative digits rfl
    have hread := readDigits1_append hne hall fun u hu => (hrest u hu).1
    cases negative with
    | true => simp [exponentText, readExponent, readExponentDigits, hread]
    | false => simp [exponentText, readExponent, readExponentDigits, hread]

theorem readFraction_text {fraction rest : Utf16} (hdigits : ∀ u ∈ fraction, isDigit u = true)
    (hrest : ∀ u, rest.head? = some u → isDigit u = false ∧ u ≠ 0x2E) :
    readFraction (fractionText fraction ++ rest) = some (fraction, rest) := by
  rw [fractionText]
  split
  · rename_i hnil
    rw [hnil, List.nil_append]
    cases rest with
    | nil => rfl
    | cons u rest => rw [readFraction, if_neg (hrest u rfl).2]
  · rename_i hne
    rw [List.cons_append, readFraction, if_pos rfl]
    exact readDigits1_append hne hdigits fun u hu => (hrest u hu).1

theorem readWhole_text {whole rest : Utf16} (hdigits : ∀ u ∈ whole, isDigit u = true)
    (hhead : whole = [0x30] ∨ ∃ u tail, whole = u :: tail ∧ u ≠ 0x30)
    (hrest : ∀ u, rest.head? = some u → isDigit u = false) :
    readWhole (whole ++ rest) = some (whole, rest) := by
  rcases hhead with rfl | ⟨u, tail, rfl, hu⟩
  · rfl
  · rw [List.cons_append, readWhole, if_neg hu, ← List.cons_append]
    exact readDigits1_append (List.cons_ne_nil u tail) hdigits hrest

theorem readSign_text {negative : Bool} {rest : Utf16} (h : rest.head? ≠ some 0x2D) :
    readSign (signText negative ++ rest) = (negative, rest) := by
  cases negative with
  | true => rfl
  | false =>
    cases rest with
    | nil => rfl
    | cons u rest =>
      rw [signText, if_neg Bool.false_ne_true, List.nil_append, readSign, if_neg]
      rintro rfl
      exact h rfl

theorem head_exponentText (exponent : Option (Bool × Utf16)) {rest : Utf16} (hrest : Ends rest) (u : UInt16)
    (hu : (exponentText exponent ++ rest).head? = some u) : isDigit u = false ∧ u ≠ 0x2E := by
  cases exponent with
  | none => exact ⟨(hrest u hu).1, (hrest u hu).2.1⟩
  | some exponent =>
    obtain rfl : 0x65 = u := Option.some.inj hu
    decide

theorem read_text {n : Numeral} (h : n.Valid) {rest : Utf16} (hrest : Ends rest) :
    read (n.text ++ rest) = some (n, rest) := by
  have hafter := head_exponentText n.exponent hrest
  have hpoint : ∀ u, (fractionText n.fraction ++ (exponentText n.exponent ++ rest)).head? = some u →
      isDigit u = false := by
    intro u hu
    rw [fractionText] at hu
    split at hu
    · exact (hafter u hu).1
    · obtain rfl : 0x2E = u := Option.some.inj hu
      decide
  have hsign : (n.whole ++ (fractionText n.fraction ++ (exponentText n.exponent ++ rest))).head? ≠
      some 0x2D := by
    intro hminus
    rcases h.wholeHead with hzero | ⟨u, tail, hwhole, -⟩
    · rw [hzero] at hminus
      cases hminus
    · have hdigit := h.wholeDigits u (by rw [hwhole]; exact List.mem_cons_self)
      rw [hwhole] at hminus
      obtain rfl : u = 0x2D := Option.some.inj hminus
      exact absurd hdigit (by decide)
  rw [read, text, List.append_assoc, List.append_assoc, List.append_assoc, readSign_text hsign,
    readWhole_text h.wholeDigits h.wholeHead hpoint]
  simp only [Option.bind_some]
  rw [readFraction_text h.fractionDigits hafter]
  simp only [Option.bind_some]
  rw [readExponent_text h.exponentDigits hrest]
  rfl

theorem length_readSign (text : Utf16) : (readSign text).2.length ≤ text.length := by
  cases text with
  | nil => exact Nat.le_refl _
  | cons u rest =>
    rw [readSign]
    split
    · exact Nat.le_succ _
    · exact Nat.le_refl _

theorem length_readDigits1 {text digits rest : Utf16} (h : readDigits1 text = some (digits, rest)) :
    rest.length < text.length := by
  rw [readDigits1] at h
  split at h
  · cases h
  · rename_i hne
    cases h
    have hsplit := congrArg List.length (List.takeWhile_append_dropWhile (p := isDigit) (l := text))
    have hpos : 0 < (text.takeWhile isDigit).length := List.length_pos_iff.mpr hne
    rw [List.length_append] at hsplit
    omega

theorem length_readWhole {text whole rest : Utf16} (h : readWhole text = some (whole, rest)) :
    rest.length < text.length := by
  cases text with
  | nil => cases h
  | cons u tail =>
    rw [readWhole] at h
    split at h
    · cases h
      exact Nat.lt_succ_self _
    · exact length_readDigits1 h

theorem length_readFraction {text fraction rest : Utf16} (h : readFraction text = some (fraction, rest)) :
    rest.length ≤ text.length := by
  cases text with
  | nil =>
    cases h
    exact Nat.le_refl _
  | cons u tail =>
    rw [readFraction] at h
    split at h
    · have hlt := length_readDigits1 h
      rw [List.length_cons]
      omega
    · cases h
      exact Nat.le_refl _

theorem length_readExponentDigits {text rest : Utf16} {exponent : Bool × Utf16}
    (h : readExponentDigits text = some (exponent, rest)) : rest.length ≤ text.length := by
  cases text with
  | nil => cases h
  | cons u tail =>
    rw [readExponentDigits] at h
    obtain ⟨⟨digits, rest'⟩, hread, hpair⟩ := Option.map_eq_some_iff.mp h
    cases hpair
    have hlt := length_readDigits1 hread
    split at hlt
    · rw [List.length_cons]
      omega
    · exact hlt.le

theorem length_readExponent {text rest : Utf16} {exponent : Option (Bool × Utf16)}
    (h : readExponent text = some (exponent, rest)) : rest.length ≤ text.length := by
  cases text with
  | nil =>
    cases h
    exact Nat.le_refl _
  | cons u tail =>
    rw [readExponent] at h
    split at h
    · obtain ⟨⟨digits, rest'⟩, hread, hpair⟩ := Option.map_eq_some_iff.mp h
      cases hpair
      exact (length_readExponentDigits hread).trans (Nat.le_succ _)
    · cases h
      exact Nat.le_refl _

theorem length_read {text rest : Utf16} {n : Numeral} (h : read text = some (n, rest)) :
    rest.length < text.length := by
  rw [read] at h
  obtain ⟨⟨whole, afterWhole⟩, hwhole, h⟩ := Option.bind_eq_some_iff.mp h
  obtain ⟨⟨fraction, afterFraction⟩, hfraction, h⟩ := Option.bind_eq_some_iff.mp h
  obtain ⟨⟨exponent, rest'⟩, hexponent, hpair⟩ := Option.map_eq_some_iff.mp h
  cases hpair
  have h₁ := length_readSign text
  have h₂ := length_readWhole hwhole
  have h₃ := length_readFraction hfraction
  have h₄ := length_readExponent hexponent
  omega

end Numeral
