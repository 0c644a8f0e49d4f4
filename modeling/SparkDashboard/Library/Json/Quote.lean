import SparkDashboard.Library.Utf16

/-!
# Quoted strings

Written as `JSON.stringify` writes them, with a surrogate that has no pair escaped, and
read back with every escape the grammar has.
-/

universe u v

namespace Json

open Utf16

def hexDigit (d : Nat) : UInt16 := UInt16.ofNat (if d < 10 then 0x30 + d else 0x57 + d)

def unicodeEscape (u : UInt16) : Utf16 :=
  let n := u.toNat
  [0x5C, 0x75, hexDigit (n / 4096), hexDigit (n / 256 % 16), hexDigit (n / 16 % 16), hexDigit (n % 16)]

def quoteUnit (u : UInt16) : Utf16 :=
  if u = 0x08 then [0x5C, 0x62]
  else if u = 0x09 then [0x5C, 0x74]
  else if u = 0x0A then [0x5C, 0x6E]
  else if u = 0x0C then [0x5C, 0x66]
  else if u = 0x0D then [0x5C, 0x72]
  else if u = 0x22 then [0x5C, 0x22]
  else if u = 0x5C then [0x5C, 0x5C]
  else if u < 0x20 ∨ isLead u ∨ isTrail u then unicodeEscape u
  else [u]

def quoteUnits : Utf16 → Utf16
  | [] => []
  | [u] => quoteUnit u
  | u :: v :: rest =>
    if isLead u && isTrail v then u :: v :: quoteUnits rest else quoteUnit u ++ quoteUnits (v :: rest)

def quote (s : Utf16) : Utf16 := 0x22 :: (quoteUnits s ++ [0x22])

def hexValue (u : UInt16) : Option Nat :=
  let n := u.toNat
  if 0x30 ≤ n ∧ n ≤ 0x39 then some (n - 0x30)
  else if 0x41 ≤ n ∧ n ≤ 0x46 then some (n - 0x37)
  else if 0x61 ≤ n ∧ n ≤ 0x66 then some (n - 0x57)
  else none

def unescape (u : UInt16) : Option UInt16 :=
  if u = 0x22 ∨ u = 0x5C ∨ u = 0x2F then some u
  else if u = 0x62 then some 0x08
  else if u = 0x66 then some 0x0C
  else if u = 0x6E then some 0x0A
  else if u = 0x72 then some 0x0D
  else if u = 0x74 then some 0x09
  else none

/-- Where in a string the reader is. -/
inductive Inside where
  | plain
  | escape
  /-- So many digits of a `\u` escape are still to come. -/
  | hex (digits value : Nat)

/-- The rest of a string after its opening quote, and what follows it. -/
def readUnits : Inside → Utf16 → Option (Utf16 × Utf16)
  | _, [] => none
  | .plain, u :: rest =>
    if u = 0x22 then some ([], rest)
    else if u = 0x5C then readUnits .escape rest
    else if u < 0x20 then none
    else (readUnits .plain rest).map fun (s, rest) => (u :: s, rest)
  | .escape, u :: rest =>
    if u = 0x75 then readUnits (.hex 4 0) rest
    else (unescape u).bind fun w => (readUnits .plain rest).map fun (s, rest) => (w :: s, rest)
  | .hex digits value, u :: rest =>
    (hexValue u).bind fun d =>
      if digits ≤ 1 then
        (readUnits .plain rest).map fun (s, rest) => (UInt16.ofNat (16 * value + d) :: s, rest)
      else readUnits (.hex (digits - 1) (16 * value + d)) rest

theorem exists_of_map {α : Type u} {β : Type v} {read : Option (α × Utf16)} {f : α → β} {value : β}
    {rest : Utf16} (h : (read.map fun (a, rest) => (f a, rest)) = some (value, rest)) :
    ∃ a, read = some (a, rest) ∧ f a = value := by
  obtain ⟨⟨a, rest'⟩, hread, hpair⟩ := Option.map_eq_some_iff.mp h
  obtain ⟨hvalue, hrest⟩ := Prod.mk.inj hpair
  rw [hread, ← hvalue, ← hrest]
  exact ⟨a, rfl, rfl⟩

theorem hexValue_hexDigit {d : Nat} (h : d < 16) : hexValue (hexDigit d) = some d := by
  have hall : ∀ d : Fin 16, hexValue (hexDigit d) = some d.val := by decide
  exact hall ⟨d, h⟩

theorem readUnits_unicodeEscape (u : UInt16) (tail : Utf16) :
    readUnits .plain (unicodeEscape u ++ tail) =
      (readUnits .plain tail).map fun (s, rest) => (u :: s, rest) := by
  have hlt : u.toNat < 65536 := u.toNat_lt
  have h₀ := hexValue_hexDigit (d := u.toNat / 4096) (by omega)
  have h₁ := hexValue_hexDigit (d := u.toNat / 256 % 16) (by omega)
  have h₂ := hexValue_hexDigit (d := u.toNat / 16 % 16) (by omega)
  have h₃ := hexValue_hexDigit (d := u.toNat % 16) (by omega)
  have hvalue : 16 * (16 * (16 * (16 * 0 + u.toNat / 4096) + u.toNat / 256 % 16) + u.toNat / 16 % 16) +
      u.toNat % 16 = u.toNat := by
    omega
  simp only [unicodeEscape, List.cons_append, List.nil_append]
  rw [readUnits, if_neg (by decide), if_pos rfl, readUnits, if_pos rfl, readUnits, h₀, Option.bind_some,
    if_neg (by omega), readUnits, h₁, Option.bind_some, if_neg (by omega), readUnits, h₂, Option.bind_some,
    if_neg (by omega), readUnits, h₃, Option.bind_some, if_pos (by omega), hvalue, UInt16.ofNat_toNat]

theorem readUnits_quoteUnit (u : UInt16) (tail : Utf16) :
    readUnits .plain (quoteUnit u ++ tail) =
      (readUnits .plain tail).map fun (s, rest) => (u :: s, rest) := by
  rw [quoteUnit]
  split
  · subst u
    rfl
  split
  · subst u
    rfl
  split
  · subst u
    rfl
  split
  · subst u
    rfl
  split
  · subst u
    rfl
  split
  · subst u
    rfl
  split
  · subst u
    rfl
  split
  · exact readUnits_unicodeEscape u tail
  · rename_i hquote hbackslash hrest
    rw [List.singleton_append, readUnits, if_neg hquote, if_neg hbackslash, if_neg fun hlt => hrest (.inl hlt)]

theorem readUnits_surrogate {u : UInt16} (h : isLead u = true ∨ isTrail u = true) (tail : Utf16) :
    readUnits .plain (u :: tail) = (readUnits .plain tail).map fun (s, rest) => (u :: s, rest) := by
  have hle : 0xD800 ≤ u.toNat := by
    rcases h with h | h
    · simp [isLead, UInt16.le_iff_toNat_le] at h
      omega
    · simp [isTrail, UInt16.le_iff_toNat_le] at h
      omega
  have hne : ∀ v : UInt16, v.toNat < 0xD800 → u ≠ v := by
    rintro v hv rfl
    omega
  rw [readUnits, if_neg (hne 0x22 (by decide)), if_neg (hne 0x5C (by decide)), if_neg]
  rw [UInt16.lt_iff_toNat_lt]
  have hval : (0x20 : UInt16).toNat = 32 := rfl
  omega

theorem readUnits_quoteUnits (s rest : Utf16) :
    readUnits .plain (quoteUnits s ++ 0x22 :: rest) = some (s, rest) := by
  induction s using quoteUnits.induct with
  | case1 => rfl
  | case2 u =>
    rw [quoteUnits, readUnits_quoteUnit]
    rfl
  | case3 u v tail hpair ih =>
    rw [quoteUnits, if_pos hpair]
    rw [Bool.and_eq_true] at hpair
    rw [List.cons_append, List.cons_append, readUnits_surrogate (.inl hpair.1),
      readUnits_surrogate (.inr hpair.2), ih]
    rfl
  | case4 u v tail hpair ih =>
    rw [quoteUnits, if_neg hpair, List.append_assoc, readUnits_quoteUnit, ih]
    rfl

theorem length_readUnits {inside : Inside} {text s rest : Utf16} (h : readUnits inside text = some (s, rest)) :
    rest.length < text.length := by
  induction text generalizing inside s with
  | nil => cases inside <;> cases h
  | cons u tail ih =>
    rw [List.length_cons]
    have hlater : ∀ {f : Utf16 → Utf16} {inside' : Inside},
        (readUnits inside' tail).map (fun (s, rest) => (f s, rest)) = some (s, rest) →
          rest.length < tail.length + 1 := by
      intro f inside' hmap
      obtain ⟨s', hread, -⟩ := exists_of_map hmap
      exact Nat.lt_succ_of_lt (ih hread)
    cases inside with
    | plain =>
      rw [readUnits] at h
      split at h
      · cases h
        exact Nat.lt_succ_self _
      split at h
      · exact Nat.lt_succ_of_lt (ih h)
      split at h
      · cases h
      · exact hlater h
    | escape =>
      rw [readUnits] at h
      split at h
      · exact Nat.lt_succ_of_lt (ih h)
      · obtain ⟨w, -, h⟩ := Option.bind_eq_some_iff.mp h
        exact hlater h
    | hex digits value =>
      rw [readUnits] at h
      obtain ⟨d, -, h⟩ := Option.bind_eq_some_iff.mp h
      split at h
      · exact hlater h
      · exact Nat.lt_succ_of_lt (ih h)

end Json
