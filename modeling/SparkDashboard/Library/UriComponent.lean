import SparkDashboard.Library.Json.Quote
import SparkDashboard.Library.Utf8

/-!
# URI components

`encodeURIComponent` and `decodeURIComponent`: characters as the percent-escapes of their
UTF-8 octets, and the texts that decode.
-/

open Utf16

/-- The reader and the writer raise nothing else. -/
inductive URIError where
  | malformed
  deriving DecidableEq

namespace UriComponent

def upperHexDigit (d : Nat) : UInt16 := UInt16.ofNat (if d < 10 then 0x30 + d else 0x37 + d)

/-- ASCII's letters and digits, and `-_.!~*'()`. -/
def isUnescaped (u : UInt16) : Bool :=
  isDigit u || (0x41 ≤ u && u ≤ 0x5A) || (0x61 ≤ u && u ≤ 0x7A) || u == 0x2D || u == 0x5F || u == 0x2E ||
    u == 0x21 || u == 0x7E || (0x27 ≤ u && u ≤ 0x2A)

def escapeOctet (octet : UInt8) : Utf16 :=
  [0x25, upperHexDigit (octet.toNat / 16), upperHexDigit (octet.toNat % 16)]

def encodeCodePoint (codePoint : Nat) (units : Utf16) : Except URIError Utf16 :=
  if units.all isUnescaped then .ok units
  else if h : codePoint.isValidChar then
    .ok ((String.utf8EncodeChar (Char.ofNatAux codePoint h)).flatMap escapeOctet)
  else .error .malformed

def encodeCodePoints : List (Nat × Utf16) → Except URIError Utf16
  | [] => .ok []
  | (codePoint, units) :: rest => do
    let first ← encodeCodePoint codePoint units
    (encodeCodePoints rest).map (first ++ ·)

def encodeURIComponent (s : Utf16) : Except URIError Utf16 := encodeCodePoints (codePoints s)

def hexOctet (high low : UInt16) : Option UInt8 := do
  return UInt8.ofNat (16 * (← Json.hexValue high) + (← Json.hexValue low))

/-- How many octets a sequence has whose first one is `octet`, by its leading ones. -/
def sequenceLength (octet : UInt8) : Option Nat :=
  if octet < 0x80 then some 1
  else if octet < 0xC0 then none
  else if octet < 0xE0 then some 2
  else if octet < 0xF0 then some 3
  else if octet < 0xF8 then some 4
  else none

def orMalformed {α : Type} (result : Option α) : Except URIError α := result.elim (.error .malformed) .ok

/-- The text from here on, `octets` being what its sequence has so far. -/
def decodeFrom (octets : List UInt8) : Utf16 → Except URIError Utf16
  | [] => if octets = [] then .ok [] else .error .malformed
  | u :: rest =>
    if u = 0x25 then
      match rest with
      | high :: low :: rest => do
        let octet ← orMalformed (hexOctet high low)
        let length ← orMalformed ((octets ++ [octet]).head?.bind sequenceLength)
        if octets.length + 1 < length then decodeFrom (octets ++ [octet]) rest
        else
          let c ← orMalformed (Utf8.decodeChar (octets ++ [octet]))
          (decodeFrom [] rest).map (charUnits c ++ ·)
      | _ => .error .malformed
    else if octets = [] then (decodeFrom [] rest).map (u :: ·)
    else .error .malformed

def decodeURIComponent (text : Utf16) : Except URIError Utf16 := decodeFrom [] text

/-- The text is these octets, each as an escape. -/
inductive Escapes : List UInt8 → Utf16 → Prop
  | nil : Escapes [] []
  | cons {octet : UInt8} {octets : List UInt8} {high low : UInt16} {text : Utf16}
    (hoctet : hexOctet high low = some octet) (h : Escapes octets text) :
    Escapes (octet :: octets) (0x25 :: high :: low :: text)

/-- What a text stands for whose escapes spell characters. -/
inductive Escaped : Utf16 → Utf16 → Prop
  | nil : Escaped [] []
  | plain {u : UInt16} {text s : Utf16} (hu : u ≠ 0x25) (h : Escaped text s) : Escaped (u :: text) (u :: s)
  | escape {c : Char} {escapes text s : Utf16} (hc : Escapes (String.utf8EncodeChar c) escapes)
    (h : Escaped text s) : Escaped (escapes ++ text) (charUnits c ++ s)

def WellEscaped (text : Utf16) : Prop := ∃ s, Escaped text s

section Decoding

theorem map_eq_ok_iff {α β : Type} {f : α → β} {result : Except URIError α} {b : β} :
    result.map f = .ok b ↔ ∃ a, result = .ok a ∧ f a = b := by
  cases result with
  | error => simp [Except.map]
  | ok a => simp [Except.map]

theorem orMalformed_bind_eq_ok_iff {α : Type} {result : Option α} {f : α → Except URIError Utf16} {s : Utf16} :
    (orMalformed result >>= f) = .ok s ↔ ∃ a, result = some a ∧ f a = .ok s := by
  cases result with
  | none => simp [orMalformed, bind, Except.bind]
  | some a => simp [orMalformed, bind, Except.bind]

theorem sequenceLength_of_complete {octets : List UInt8} (h : Utf8.Complete octets) :
    octets.head?.bind sequenceLength = some octets.length := by
  have h80 : (0x80 : UInt8).toNat = 0x80 := rfl
  have hC0 : (0xC0 : UInt8).toNat = 0xC0 := rfl
  have hE0 : (0xE0 : UInt8).toNat = 0xE0 := rfl
  have hF0 : (0xF0 : UInt8).toNat = 0xF0 := rfl
  have hF8 : (0xF8 : UInt8).toNat = 0xF8 := rfl
  match octets with
  | [a] =>
    have ha : a.toNat < 0x80 := h
    simp only [List.head?_cons, Option.bind_some, sequenceLength, UInt8.lt_iff_toNat_lt]
    rw [if_pos (by omega)]
    rfl
  | [a, b] =>
    obtain ⟨⟨ha, -⟩, ha'⟩ := h
    simp only [List.head?_cons, Option.bind_some, sequenceLength, UInt8.lt_iff_toNat_lt]
    rw [if_neg (by omega), if_neg (by omega), if_pos (by omega)]
    rfl
  | [a, b, c] =>
    obtain ⟨-, ha, ha', -⟩ := h
    simp only [List.head?_cons, Option.bind_some, sequenceLength, UInt8.lt_iff_toNat_lt]
    rw [if_neg (by omega), if_neg (by omega), if_neg (by omega), if_pos (by omega)]
    rfl
  | [a, b, c, d] =>
    obtain ⟨⟨-, ha', -⟩, ha, -⟩ := h
    simp only [List.head?_cons, Option.bind_some, sequenceLength, UInt8.lt_iff_toNat_lt]
    rw [if_neg (by omega), if_neg (by omega), if_neg (by omega), if_neg (by omega), if_pos (by omega)]
    rfl

theorem sequenceLength_utf8EncodeChar (c : Char) :
    (String.utf8EncodeChar c).head?.bind sequenceLength = some (String.utf8EncodeChar c).length :=
  sequenceLength_of_complete (Utf8.complete_utf8EncodeChar c)

theorem decodeFrom_plain (octets : List UInt8) {u : UInt16} (hu : u ≠ 0x25) (rest : Utf16) :
    decodeFrom octets (u :: rest) =
      if octets = [] then (decodeFrom [] rest).map (u :: ·) else .error .malformed := by
  rw [decodeFrom.eq_def]
  exact if_neg hu

theorem decodeFrom_escape (octets : List UInt8) (high low : UInt16) (rest : Utf16) :
    decodeFrom octets (0x25 :: high :: low :: rest) =
      orMalformed (hexOctet high low) >>= fun octet =>
        orMalformed ((octets ++ [octet]).head?.bind sequenceLength) >>= fun length =>
          if octets.length + 1 < length then decodeFrom (octets ++ [octet]) rest
          else
            orMalformed (Utf8.decodeChar (octets ++ [octet])) >>= fun c =>
              (decodeFrom [] rest).map (charUnits c ++ ·) := rfl

theorem decodeFrom_escapes {c : Char} {more : List UInt8} {escapes : Utf16} (h : Escapes more escapes)
    {octets : List UInt8} (hne : more ≠ []) (hc : octets ++ more = String.utf8EncodeChar c) (rest : Utf16) :
    decodeFrom octets (escapes ++ rest) = (decodeFrom [] rest).map (charUnits c ++ ·) := by
  induction h generalizing octets with
  | nil => exact absurd rfl hne
  | @cons octet more high low escapes hoctet h ih =>
    have hhead : (octets ++ [octet]).head? = (String.utf8EncodeChar c).head? := by
      rw [← hc]
      cases octets <;> rfl
    have hlength := congrArg List.length hc
    rw [List.length_append, List.length_cons] at hlength
    simp only [List.cons_append]
    rw [decodeFrom_escape]
    simp only [hoctet, hhead, sequenceLength_utf8EncodeChar, orMalformed, Option.elim_some, bind, Except.bind]
    cases more with
    | nil =>
      rw [if_neg (by rw [List.length_nil] at hlength; omega), Utf8.decodeChar_eq_some_iff.mpr hc]
      cases h
      rfl
    | cons next more =>
      rw [if_pos (by rw [List.length_cons] at hlength; omega)]
      exact ih (List.cons_ne_nil _ _) (by rw [List.append_assoc]; exact hc)

theorem decodeURIComponent_of_escaped {text s : Utf16} (h : Escaped text s) : decodeURIComponent text = .ok s := by
  rw [decodeURIComponent]
  induction h with
  | nil => rfl
  | plain hu h ih =>
    rw [decodeFrom_plain [] hu, if_pos rfl, ih]
    rfl
  | escape hc h ih =>
    rw [decodeFrom_escapes hc String.utf8EncodeChar_ne_nil (List.nil_append _), ih]
    rfl

/-- The text finishes the sequence that `octets` begin, and goes on well escaped. -/
def Finishes (octets : List UInt8) (text s : Utf16) : Prop :=
  ∃ (c : Char) (more : List UInt8) (escapes text' s' : Utf16), octets ++ more = String.utf8EncodeChar c ∧
    Escapes more escapes ∧ text = escapes ++ text' ∧ s = charUnits c ++ s' ∧ Escaped text' s'

theorem Finishes.cons {octets : List UInt8} {octet : UInt8} {high low : UInt16} {text s : Utf16}
    (hoctet : hexOctet high low = some octet) (h : Finishes (octets ++ [octet]) text s) :
    Finishes octets (0x25 :: high :: low :: text) s := by
  obtain ⟨c, more, escapes, text', s', hc, hescapes, rfl, hs, htext⟩ := h
  rw [List.append_assoc] at hc
  exact ⟨c, octet :: more, _, text', s', hc, .cons hoctet hescapes, rfl, hs, htext⟩

theorem Finishes.escaped {text s : Utf16} (h : Finishes [] text s) : Escaped text s := by
  obtain ⟨c, more, escapes, text', s', hc, hescapes, rfl, rfl, htext⟩ := h
  rw [List.nil_append] at hc
  exact .escape (hc ▸ hescapes) htext

theorem decodeFrom_eq_ok {octets : List UInt8} {text s : Utf16} (h : decodeFrom octets text = .ok s) :
    octets = [] ∧ Escaped text s ∨ Finishes octets text s := by
  induction hlength : text.length using Nat.strongRecOn generalizing octets text s with
  | ind n ih =>
    match text with
    | [] =>
      rw [decodeFrom] at h
      split at h
      · rename_i hempty
        cases h
        exact .inl ⟨hempty, .nil⟩
      · cases h
    | u :: rest =>
      simp only [List.length_cons] at hlength
      by_cases hu : u = 0x25
      · subst hu
        match rest with
        | [] => cases h
        | [_] => cases h
        | high :: low :: rest =>
          simp only [List.length_cons] at hlength
          rw [decodeFrom_escape, orMalformed_bind_eq_ok_iff] at h
          obtain ⟨octet, hoctet, h⟩ := h
          rw [orMalformed_bind_eq_ok_iff] at h
          obtain ⟨length, -, h⟩ := h
          right
          apply Finishes.cons hoctet
          split at h
          · exact (ih rest.length (by omega) h rfl).resolve_left fun hnil => absurd hnil.1 (by simp)
          · rw [orMalformed_bind_eq_ok_iff] at h
            obtain ⟨c, hc, h⟩ := h
            obtain ⟨s', hrest, rfl⟩ := map_eq_ok_iff.mp h
            have htail : Escaped rest s' :=
              (ih rest.length (by omega) hrest rfl).elim And.right Finishes.escaped
            exact ⟨c, [], [], rest, s', by rw [List.append_nil]; exact Utf8.decodeChar_eq_some_iff.mp hc, .nil, rfl,
              rfl, htail⟩
      · rw [decodeFrom_plain octets hu] at h
        split at h
        · rename_i hempty
          obtain ⟨s', hrest, rfl⟩ := map_eq_ok_iff.mp h
          have htail : Escaped rest s' :=
            (ih rest.length (by omega) hrest rfl).elim And.right Finishes.escaped
          exact .inl ⟨hempty, .plain hu htail⟩
        · cases h

/-- The texts that decode are those whose escapes spell characters. -/
theorem decodeURIComponent_eq_ok_iff {text s : Utf16} : decodeURIComponent text = .ok s ↔ Escaped text s := by
  constructor
  · intro h
    exact (decodeFrom_eq_ok h).elim And.right Finishes.escaped
  · exact decodeURIComponent_of_escaped

end Decoding

section Encoding

theorem hexOctet_upperHexDigit (octet : UInt8) :
    hexOctet (upperHexDigit (octet.toNat / 16)) (upperHexDigit (octet.toNat % 16)) = some octet := by
  have hvalue : ∀ d : Fin 16, Json.hexValue (upperHexDigit d.val) = some d.val := by decide
  have hlt : octet.toNat < 256 := octet.toNat_lt
  have hhigh := hvalue ⟨octet.toNat / 16, by omega⟩
  have hlow := hvalue ⟨octet.toNat % 16, by omega⟩
  simp only at hhigh hlow
  simp only [hexOctet, hhigh, hlow, bind, Option.bind_some, pure]
  rw [show 16 * (octet.toNat / 16) + octet.toNat % 16 = octet.toNat by omega, UInt8.ofNat_toNat]

theorem escapes_flatMap (octets : List UInt8) : Escapes octets (octets.flatMap escapeOctet) := by
  induction octets with
  | nil => exact .nil
  | cons octet octets ih => exact .cons (hexOctet_upperHexDigit octet) ih

def encodeChar (c : Char) : Utf16 :=
  if (charUnits c).all isUnescaped then charUnits c else (String.utf8EncodeChar c).flatMap escapeOctet

theorem encodeCodePoint_charUnits (c : Char) : encodeCodePoint c.toNat (charUnits c) = .ok (encodeChar c) := by
  rw [encodeCodePoint, encodeChar]
  cases hall : (charUnits c).all isUnescaped with
  | true => rw [if_pos rfl, if_pos rfl]
  | false =>
    rw [if_neg Bool.false_ne_true, if_neg Bool.false_ne_true]
    exact dif_pos c.valid

theorem encodeURIComponent_ofChars (chars : List Char) :
    encodeURIComponent (ofChars chars) = .ok (chars.flatMap encodeChar) := by
  rw [encodeURIComponent, codePoints_ofChars]
  induction chars with
  | nil => rfl
  | cons c chars ih =>
    rw [List.map_cons, encodeCodePoints, encodeCodePoint_charUnits, ih]
    rfl

theorem Escaped.append_plain {units text s : Utf16} (hunits : ∀ u ∈ units, u ≠ 0x25) (h : Escaped text s) :
    Escaped (units ++ text) (units ++ s) := by
  induction units with
  | nil => exact h
  | cons u units ih =>
    exact .plain (hunits u List.mem_cons_self) (ih fun v hv => hunits v (List.mem_cons_of_mem u hv))

theorem ne_percent_of_isUnescaped {u : UInt16} (h : isUnescaped u = true) : u ≠ 0x25 := by
  rintro rfl
  cases h

theorem escaped_flatMap_encodeChar (chars : List Char) : Escaped (chars.flatMap encodeChar) (ofChars chars) := by
  induction chars with
  | nil => exact .nil
  | cons c chars ih =>
    rw [List.flatMap_cons, encodeChar, ofChars, List.flatMap_cons]
    split
    · rename_i hall
      exact ih.append_plain fun u hu => ne_percent_of_isUnescaped (List.all_eq_true.mp hall u hu)
    · exact .escape (escapes_flatMap _) ih

theorem ne_slash_of_isUnescaped {u : UInt16} (h : isUnescaped u = true) : u ≠ 0x2F := by
  rintro rfl
  cases h

theorem upperHexDigit_ne_slash {d : Nat} (h : d < 16) : upperHexDigit d ≠ 0x2F := by
  have hall : ∀ d : Fin 16, upperHexDigit d.val ≠ 0x2F := by decide
  exact hall ⟨d, h⟩

theorem slash_not_mem_encodeChar (c : Char) : 0x2F ∉ encodeChar c := by
  rw [encodeChar]
  split
  · rename_i hall
    intro hmem
    exact ne_slash_of_isUnescaped (List.all_eq_true.mp hall _ hmem) rfl
  · intro hmem
    obtain ⟨octet, -, hoctet⟩ := List.mem_flatMap.mp hmem
    have hlt : octet.toNat < 256 := octet.toNat_lt
    rw [escapeOctet, List.mem_cons, List.mem_cons, List.mem_singleton] at hoctet
    rcases hoctet with hoctet | hoctet | hoctet
    · cases hoctet
    · exact upperHexDigit_ne_slash (by omega) hoctet.symm
    · exact upperHexDigit_ne_slash (by omega) hoctet.symm

theorem encodeChar_ne_nil (c : Char) : encodeChar c ≠ [] := by
  rw [encodeChar]
  split
  · exact charUnits_ne_nil c
  · intro hempty
    obtain ⟨octet, hoctet⟩ := List.exists_mem_of_ne_nil _ (String.utf8EncodeChar_ne_nil (c := c))
    cases List.flatMap_eq_nil_iff.mp hempty octet hoctet

/-- A component is read back from what it is written as, which can stand between slashes. -/
theorem decodeURIComponent_encodeURIComponent {s : Utf16} (hwell : IsWellFormed s) (hne : s ≠ []) :
    ∃ text, encodeURIComponent s = .ok text ∧ decodeURIComponent text = .ok s ∧ text ≠ [] ∧ 0x2F ∉ text := by
  obtain ⟨chars, rfl⟩ := hwell
  refine ⟨chars.flatMap encodeChar, encodeURIComponent_ofChars chars,
    decodeURIComponent_of_escaped (escaped_flatMap_encodeChar chars), ?_, ?_⟩
  · intro hempty
    cases chars with
    | nil => exact hne rfl
    | cons c chars => exact encodeChar_ne_nil c (List.flatMap_eq_nil_iff.mp hempty c List.mem_cons_self)
  · intro hmem
    obtain ⟨c, -, hc⟩ := List.mem_flatMap.mp hmem
    exact slash_not_mem_encodeChar c hc

end Encoding

end UriComponent
