import SparkDashboard.Library.Json.Numeral
import SparkDashboard.Library.Json.Quote
import SparkDashboard.Library.Json.Value

/-!
# JSON texts

The reader spends fuel on every value and every element, and the fuel a text is given is
always enough for it. What the writer writes is read back.
-/

universe v

namespace Json

open Utf16

variable {ν : Type v}

def isBlank (u : UInt16) : Bool := u == 0x20 || u == 0x0A || u == 0x0D || u == 0x09

def skip (text : Utf16) : Utf16 := text.dropWhile isBlank

/-- What follows a mark, which blanks may stand before. -/
def after (mark : UInt16) (text : Utf16) : Option Utf16 :=
  match skip text with
  | [] => none
  | u :: rest => if u = mark then some rest else none

def dropWord (word text : Utf16) : Option Utf16 :=
  if word.isPrefixOf text then some (text.drop word.length) else none

def readKeyword (text : Utf16) : Option (Json Utf16 ν × Utf16) :=
  match dropWord (utf16 "null") text, dropWord (utf16 "true") text, dropWord (utf16 "false") text with
  | some rest, _, _ => some (.null, rest)
  | none, some rest, _ => some (.bool true, rest)
  | none, none, some rest => some (.bool false, rest)
  | none, none, none => none

section Reading

variable (ofNumeral : Numeral → ν)

def readScalar (text : Utf16) : Option (Json Utf16 ν × Utf16) :=
  match readKeyword text with
  | some found => some found
  | none => (Numeral.read text).map fun (n, rest) => (.number (ofNumeral n), rest)

mutual

def readValue : Nat → Utf16 → Option (Json Utf16 ν × Utf16)
  | 0, _ => none
  | fuel + 1, text =>
    match skip text with
    | [] => none
    | u :: rest =>
      if u = 0x22 then (readUnits .plain rest).map fun (s, rest) => (.string s, rest)
      else if u = 0x5B then
        match after 0x5D rest with
        | some rest => some (.array [], rest)
        | none => (readItems fuel rest).map fun (items, rest) => (.array items, rest)
      else if u = 0x7B then
        match after 0x7D rest with
        | some rest => some (.object [], rest)
        | none => (readMembers fuel rest).map fun (members, rest) => (.object members, rest)
      else readScalar ofNumeral (u :: rest)

def readItems : Nat → Utf16 → Option (List (Json Utf16 ν) × Utf16)
  | 0, _ => none
  | fuel + 1, text =>
    (readValue fuel text).bind fun (value, rest) =>
      match after 0x2C rest with
      | some rest => (readItems fuel rest).map fun (items, rest) => (value :: items, rest)
      | none => (after 0x5D rest).map fun rest => ([value], rest)

def readMembers : Nat → Utf16 → Option (List (Utf16 × Json Utf16 ν) × Utf16)
  | 0, _ => none
  | fuel + 1, text =>
    (after 0x22 text).bind fun rest =>
      (readUnits .plain rest).bind fun (name, rest) =>
        (after 0x3A rest).bind fun rest =>
          (readValue fuel rest).bind fun (value, rest) =>
            match after 0x2C rest with
            | some rest => (readMembers fuel rest).map fun (members, rest) => ((name, value) :: members, rest)
            | none => (after 0x7D rest).map fun rest => ([(name, value)], rest)

end

/-- `JSON.parse`. -/
def parse (text : Utf16) : Option (Json Utf16 ν) :=
  (readValue ofNumeral (2 * text.length + 1) text).bind fun (value, rest) =>
    if skip rest = [] then some value else none

end Reading

section Writing

variable (toNumeral : ν → Option Numeral)

/-- A number that has no token is written `null`. -/
def writeNumber (n : ν) : Utf16 :=
  match toNumeral n with
  | some numeral => numeral.text
  | none => utf16 "null"

mutual

/-- `JSON.stringify`. -/
def write : Json Utf16 ν → Utf16
  | .null => utf16 "null"
  | .bool true => utf16 "true"
  | .bool false => utf16 "false"
  | .number n => writeNumber toNumeral n
  | .string s => quote s
  | .array items => 0x5B :: writeItems items
  | .object members => 0x7B :: writeMembers members

def writeItems : List (Json Utf16 ν) → Utf16
  | [] => [0x5D]
  | value :: items => write value ++ writeMoreItems items

def writeMoreItems : List (Json Utf16 ν) → Utf16
  | [] => [0x5D]
  | value :: items => 0x2C :: (write value ++ writeMoreItems items)

def writeMembers : List (Utf16 × Json Utf16 ν) → Utf16
  | [] => [0x7D]
  | (name, value) :: members => quote name ++ 0x3A :: (write value ++ writeMoreMembers members)

def writeMoreMembers : List (Utf16 × Json Utf16 ν) → Utf16
  | [] => [0x7D]
  | (name, value) :: members => 0x2C :: (quote name ++ 0x3A :: (write value ++ writeMoreMembers members))

end

end Writing

section Lengths

theorem length_skip (text : Utf16) : (skip text).length ≤ text.length := List.length_dropWhile_le _ _

theorem length_after {mark : UInt16} {text rest : Utf16} (h : after mark text = some rest) :
    rest.length < text.length := by
  have hskip := length_skip text
  rw [after] at h
  cases hs : skip text with
  | nil =>
    rw [hs] at h
    cases h
  | cons u tail =>
    rw [hs] at h hskip
    simp only at h
    split at h
    · cases h
      exact hskip
    · cases h

theorem length_dropWord {word text rest : Utf16} (hword : word ≠ []) (h : dropWord word text = some rest) :
    rest.length < text.length := by
  rw [dropWord] at h
  split at h
  · rename_i hinitial
    cases h
    have hle := (List.isPrefixOf_iff_prefix.mp hinitial).length_le
    have hpos := List.length_pos_iff.mpr hword
    rw [List.length_drop]
    omega
  · cases h

theorem length_readKeyword {text rest : Utf16} {value : Json Utf16 ν}
    (h : readKeyword text = some (value, rest)) : rest.length < text.length := by
  rw [readKeyword] at h
  split at h
  · rename_i hword
    cases h
    exact length_dropWord (by decide) hword
  · rename_i hword
    cases h
    exact length_dropWord (by decide) hword
  · rename_i hword
    cases h
    exact length_dropWord (by decide) hword
  · cases h

theorem length_readScalar {ofNumeral : Numeral → ν} {text rest : Utf16} {value : Json Utf16 ν}
    (h : readScalar ofNumeral text = some (value, rest)) : rest.length < text.length := by
  rw [readScalar] at h
  split at h
  · rename_i hkeyword
    cases h
    exact length_readKeyword hkeyword
  · obtain ⟨⟨n, rest'⟩, hread, hpair⟩ := Option.map_eq_some_iff.mp h
    obtain ⟨-, rfl⟩ := Prod.mk.inj hpair
    exact Numeral.length_read hread

theorem length_read (ofNumeral : Numeral → ν) (fuel : Nat) :
    (∀ text value rest, readValue ofNumeral fuel text = some (value, rest) → rest.length < text.length) ∧
    (∀ text items rest, readItems ofNumeral fuel text = some (items, rest) → rest.length < text.length) ∧
    (∀ text members rest, readMembers ofNumeral fuel text = some (members, rest) →
      rest.length < text.length) := by
  induction fuel with
  | zero =>
    refine ⟨?_, ?_, ?_⟩
    · intro text value rest h
      cases h
    · intro text items rest h
      cases h
    · intro text members rest h
      cases h
  | succ fuel ih =>
    obtain ⟨hvalue, hitems, hmembers⟩ := ih
    refine ⟨?_, ?_, ?_⟩
    · intro text value rest h
      have hskip := length_skip text
      rw [readValue] at h
      cases hs : skip text with
      | nil =>
        rw [hs] at h
        cases h
      | cons u tail =>
        rw [hs] at h hskip
        rw [List.length_cons] at hskip
        simp only at h
        split at h
        · obtain ⟨s, hread, -⟩ := exists_of_map h
          have hlt := length_readUnits hread
          omega
        split at h
        · split at h
          · rename_i hafter
            cases h
            have hlt := length_after hafter
            omega
          · obtain ⟨items, hread, -⟩ := exists_of_map h
            have hlt := hitems _ _ _ hread
            omega
        split at h
        · split at h
          · rename_i hafter
            cases h
            have hlt := length_after hafter
            omega
          · obtain ⟨members, hread, -⟩ := exists_of_map h
            have hlt := hmembers _ _ _ hread
            omega
        · have hlt := length_readScalar h
          rw [List.length_cons] at hlt
          omega
    · intro text items rest h
      rw [readItems] at h
      obtain ⟨⟨value, afterValue⟩, hread, h⟩ := Option.bind_eq_some_iff.mp h
      have hlt := hvalue _ _ _ hread
      simp only at h
      split at h
      · rename_i hcomma
        obtain ⟨items', hmore, -⟩ := exists_of_map h
        have hlt' := length_after hcomma
        have hlt'' := hitems _ _ _ hmore
        omega
      · obtain ⟨rest', hclose, hpair⟩ := Option.map_eq_some_iff.mp h
        cases hpair
        have hlt' := length_after hclose
        omega
    · intro text members rest h
      rw [readMembers] at h
      obtain ⟨afterQuote, hquote, h⟩ := Option.bind_eq_some_iff.mp h
      obtain ⟨⟨name, afterName⟩, hname, h⟩ := Option.bind_eq_some_iff.mp h
      obtain ⟨afterColon, hcolon, h⟩ := Option.bind_eq_some_iff.mp h
      obtain ⟨⟨value, afterValue⟩, hread, h⟩ := Option.bind_eq_some_iff.mp h
      have h₁ := length_after hquote
      have h₂ := length_readUnits hname
      have h₃ := length_after hcolon
      have h₄ := hvalue _ _ _ hread
      simp only at h h₃ h₄
      split at h
      · rename_i hcomma
        obtain ⟨members', hmore, -⟩ := exists_of_map h
        have h₅ := length_after hcomma
        have h₆ := hmembers _ _ _ hmore
        omega
      · obtain ⟨rest', hclose, hpair⟩ := Option.map_eq_some_iff.mp h
        cases hpair
        have h₅ := length_after hclose
        omega

end Lengths

section Fuel

variable (ofNumeral : Numeral → ν)

theorem read_stable (fuel : Nat) :
    (∀ text, 2 * text.length + 1 ≤ fuel →
      readValue ofNumeral (fuel + 1) text = readValue ofNumeral fuel text) ∧
    (∀ text, 2 * text.length + 2 ≤ fuel →
      readItems ofNumeral (fuel + 1) text = readItems ofNumeral fuel text) ∧
    (∀ text, 2 * text.length + 1 ≤ fuel →
      readMembers ofNumeral (fuel + 1) text = readMembers ofNumeral fuel text) := by
  induction fuel with
  | zero => exact ⟨fun _ h => by omega, fun _ h => by omega, fun _ h => by omega⟩
  | succ fuel ih =>
    obtain ⟨hvalue, hitems, hmembers⟩ := ih
    have hlength := length_read ofNumeral fuel
    refine ⟨?_, ?_, ?_⟩
    · intro text hfuel
      have hskip := length_skip text
      rw [readValue, readValue]
      cases hs : skip text with
      | nil => rfl
      | cons u tail =>
        rw [hs, List.length_cons] at hskip
        simp only
        rw [hitems tail (by omega), hmembers tail (by omega)]
    · intro text hfuel
      rw [readItems, readItems, hvalue text (by omega)]
      cases hread : readValue ofNumeral fuel text with
      | none => rfl
      | some pair =>
        obtain ⟨value, rest⟩ := pair
        have hlt := hlength.1 text value rest hread
        simp only [Option.bind_some]
        cases hcomma : after 0x2C rest with
        | none => rfl
        | some rest' =>
          have hlt' := length_after hcomma
          simp only
          rw [hitems rest' (by omega)]
    · intro text hfuel
      rw [readMembers, readMembers]
      cases hquote : after 0x22 text with
      | none => rfl
      | some afterQuote =>
        have h₁ := length_after hquote
        simp only [Option.bind_some]
        cases hname : readUnits .plain afterQuote with
        | none => rfl
        | some pair =>
          obtain ⟨name, afterName⟩ := pair
          have h₂ := length_readUnits hname
          simp only [Option.bind_some]
          cases hcolon : after 0x3A afterName with
          | none => rfl
          | some afterColon =>
            have h₃ := length_after hcolon
            simp only [Option.bind_some]
            rw [hvalue afterColon (by omega)]
            cases hread : readValue ofNumeral fuel afterColon with
            | none => rfl
            | some pair =>
              obtain ⟨value, rest⟩ := pair
              have h₄ := hlength.1 afterColon value rest hread
              simp only [Option.bind_some]
              cases hcomma : after 0x2C rest with
              | none => rfl
              | some rest' =>
                have h₅ := length_after hcomma
                simp only
                rw [hmembers rest' (by omega)]

theorem readValue_of_le {fuel : Nat} {text : Utf16} (h : 2 * text.length + 1 ≤ fuel) :
    readValue ofNumeral fuel text = readValue ofNumeral (2 * text.length + 1) text := by
  induction fuel, h using Nat.le_induction with
  | base => rfl
  | succ fuel hle ih => rw [(read_stable ofNumeral fuel).1 text hle, ih]

end Fuel

section RoundTrip

mutual

/-- Every number in a value is one the predicate holds of. -/
def NumbersIn (p : ν → Prop) : Json Utf16 ν → Prop
  | .number n => p n
  | .array items => NumbersInItems p items
  | .object members => NumbersInMembers p members
  | _ => True

def NumbersInItems (p : ν → Prop) : List (Json Utf16 ν) → Prop
  | [] => True
  | value :: items => NumbersIn p value ∧ NumbersInItems p items

def NumbersInMembers (p : ν → Prop) : List (Utf16 × Json Utf16 ν) → Prop
  | [] => True
  | (_, value) :: members => NumbersIn p value ∧ NumbersInMembers p members

end

theorem numbersIn_string (p : ν → Prop) (s : Utf16) : NumbersIn p (.string s) := by
  simp [NumbersIn]

theorem numbersIn_array {p : ν → Prop} {items : List (Json Utf16 ν)} :
    NumbersIn p (.array items) ↔ ∀ value ∈ items, NumbersIn p value := by
  rw [NumbersIn]
  induction items with
  | nil => simp [NumbersInItems]
  | cons value items ih => rw [NumbersInItems, ih, List.forall_mem_cons]

theorem numbersIn_object {p : ν → Prop} {members : List (Utf16 × Json Utf16 ν)} :
    NumbersIn p (.object members) ↔ ∀ member ∈ members, NumbersIn p member.2 := by
  rw [NumbersIn]
  induction members with
  | nil => simp [NumbersInMembers]
  | cons member members ih => rw [NumbersInMembers, ih, List.forall_mem_cons]

variable {ofNumeral : Numeral → ν} {toNumeral : ν → Option Numeral}

/-- A number whose token reads as that number. -/
def Prints (ofNumeral : Numeral → ν) (toNumeral : ν → Option Numeral) (n : ν) : Prop :=
  ∃ numeral : Numeral, toNumeral n = some numeral ∧ numeral.Valid ∧ ofNumeral numeral = n

theorem skip_cons {u : UInt16} (h : isBlank u = false) (rest : Utf16) : skip (u :: rest) = u :: rest := by
  rw [skip, List.dropWhile_cons, if_neg (Bool.eq_false_iff.mp h)]

theorem after_cons {mark u : UInt16} (h : isBlank u = false) (rest : Utf16) :
    after mark (u :: rest) = if u = mark then some rest else none := by
  rw [after, skip_cons h]

theorem dropWord_cons_of_ne {w u : UInt16} (h : u ≠ w) (word rest : Utf16) :
    dropWord (w :: word) (u :: rest) = none := by
  rw [dropWord, List.isPrefixOf, beq_false_of_ne h.symm, Bool.false_and, if_neg Bool.false_ne_true]

theorem readKeyword_of_ne {u : UInt16} (hn : u ≠ 0x6E) (ht : u ≠ 0x74) (hf : u ≠ 0x66) (rest : Utf16) :
    readKeyword (ν := ν) (u :: rest) = none := by
  have hnull : dropWord (utf16 "null") (u :: rest) = none := dropWord_cons_of_ne hn _ rest
  have htrue : dropWord (utf16 "true") (u :: rest) = none := dropWord_cons_of_ne ht _ rest
  have hfalse : dropWord (utf16 "false") (u :: rest) = none := dropWord_cons_of_ne hf _ rest
  rw [readKeyword, hnull, htrue, hfalse]

theorem readValue_of_scalar {u : UInt16} (hblank : isBlank u = false) (hquote : u ≠ 0x22) (harray : u ≠ 0x5B)
    (hobject : u ≠ 0x7B) (fuel : Nat) (rest : Utf16) :
    readValue ofNumeral (fuel + 1) (u :: rest) = readScalar ofNumeral (u :: rest) := by
  rw [readValue, skip_cons hblank]
  simp only
  rw [if_neg hquote, if_neg harray, if_neg hobject]

theorem head_numeral {n : Numeral} (h : n.Valid) :
    ∃ u rest, n.text = u :: rest ∧ (u = 0x2D ∨ isDigit u = true) := by
  have hwhole : ∃ u rest, n.whole = u :: rest ∧ isDigit u = true := by
    rcases h.wholeHead with hzero | ⟨u, rest, hwhole, -⟩
    · exact ⟨0x30, [], hzero, by decide⟩
    · exact ⟨u, rest, hwhole, h.wholeDigits u (by rw [hwhole]; exact List.mem_cons_self)⟩
  obtain ⟨u, rest, hu, hdigit⟩ := hwhole
  cases hnegative : n.negative with
  | true => exact ⟨0x2D, _, by rw [Numeral.text, hnegative]; rfl, .inl rfl⟩
  | false => exact ⟨u, _, by rw [Numeral.text, hnegative, hu]; rfl, .inr hdigit⟩

theorem ne_of_numeral_head {u v : UInt16} (h : u = 0x2D ∨ isDigit u = true) (hminus : v ≠ 0x2D)
    (hdigit : isDigit v = false) : u ≠ v := by
  rintro rfl
  rcases h with rfl | h
  · exact hminus rfl
  · rw [h] at hdigit
    cases hdigit

theorem isBlank_of_numeral_head {u : UInt16} (h : u = 0x2D ∨ isDigit u = true) : isBlank u = false := by
  have hne := fun v => ne_of_numeral_head (v := v) h
  simp [isBlank, hne 0x20 (by decide) (by decide), hne 0x0A (by decide) (by decide),
    hne 0x0D (by decide) (by decide), hne 0x09 (by decide) (by decide)]

theorem readValue_number {n : ν} (h : Prints ofNumeral toNumeral n) (fuel : Nat) {rest : Utf16}
    (hrest : Numeral.Ends rest) :
    readValue ofNumeral (fuel + 1) (writeNumber toNumeral n ++ rest) = some (.number n, rest) := by
  obtain ⟨numeral, hto, hvalid, hof⟩ := h
  obtain ⟨u, tail, htext, hhead⟩ := head_numeral hvalid
  have hne := fun v => ne_of_numeral_head (v := v) hhead
  have hread := Numeral.read_text hvalid hrest
  rw [writeNumber, hto]
  simp only
  rw [htext, List.cons_append] at hread ⊢
  rw [readValue_of_scalar (isBlank_of_numeral_head hhead) (hne _ (by decide) (by decide))
      (hne _ (by decide) (by decide)) (hne _ (by decide) (by decide)), readScalar,
    readKeyword_of_ne (hne _ (by decide) (by decide)) (hne _ (by decide) (by decide))
      (hne _ (by decide) (by decide)), hread, ← hof]
  rfl

theorem readValue_string (s : Utf16) (fuel : Nat) (rest : Utf16) :
    readValue ofNumeral (fuel + 1) (quote s ++ rest) = some (.string s, rest) := by
  rw [quote, List.cons_append, List.append_assoc, readValue, skip_cons (by decide)]
  simp only [if_true]
  rw [List.singleton_append, readUnits_quoteUnits, Option.map_some]

/-- The first unit of a value: no blank, and no bracket that closes an array. -/
theorem head_write {value : Json Utf16 ν} (h : NumbersIn (Prints ofNumeral toNumeral) value) :
    ∃ u rest, write toNumeral value = u :: rest ∧ isBlank u = false ∧ u ≠ 0x5D := by
  cases value with
  | null => exact ⟨0x6E, _, rfl, by decide, by decide⟩
  | bool b =>
    cases b with
    | true => exact ⟨0x74, _, rfl, by decide, by decide⟩
    | false => exact ⟨0x66, _, rfl, by decide, by decide⟩
  | number n =>
    rw [NumbersIn] at h
    obtain ⟨numeral, hto, hvalid, -⟩ := h
    obtain ⟨u, tail, htext, hhead⟩ := head_numeral hvalid
    refine ⟨u, tail, ?_, isBlank_of_numeral_head hhead, ne_of_numeral_head hhead (by decide) (by decide)⟩
    rw [write, writeNumber, hto]
    exact htext
  | string s => exact ⟨0x22, _, by rw [write, quote], by decide, by decide⟩
  | array items => exact ⟨0x5B, _, by rw [write], by decide, by decide⟩
  | object members => exact ⟨0x7B, _, by rw [write], by decide, by decide⟩

theorem ends_of_head {u : UInt16} (h : isDigit u = false ∧ u ≠ 0x2E ∧ u ≠ 0x65 ∧ u ≠ 0x45) (rest : Utf16) :
    Numeral.Ends (u :: rest) := by
  rintro v ⟨⟩
  exact h

theorem ends_writeMoreItems (items : List (Json Utf16 ν)) (rest : Utf16) :
    Numeral.Ends (writeMoreItems toNumeral items ++ rest) := by
  cases items with
  | nil =>
    rw [writeMoreItems]
    exact ends_of_head (by decide) _
  | cons value items =>
    rw [writeMoreItems]
    exact ends_of_head (by decide) _

theorem ends_writeMoreMembers (members : List (Utf16 × Json Utf16 ν)) (rest : Utf16) :
    Numeral.Ends (writeMoreMembers toNumeral members ++ rest) := by
  cases members with
  | nil =>
    rw [writeMoreMembers]
    exact ends_of_head (by decide) _
  | cons member members =>
    rw [writeMoreMembers]
    exact ends_of_head (by decide) _

mutual

/-- A value is read back from its text, with fuel enough, whatever ends the text. -/
theorem readValue_write (value : Json Utf16 ν) (h : NumbersIn (Prints ofNumeral toNumeral) value) :
    ∃ least, ∀ fuel, least ≤ fuel → ∀ rest, Numeral.Ends rest →
      readValue ofNumeral fuel (write toNumeral value ++ rest) = some (value, rest) := by
  cases value with
  | null =>
    refine ⟨1, ?_⟩
    rintro (_ | fuel) hfuel rest -
    · omega
    · rfl
  | bool b =>
    refine ⟨1, ?_⟩
    rintro (_ | fuel) hfuel rest -
    · omega
    · cases b with
      | true => rfl
      | false => rfl
  | number n =>
    rw [NumbersIn] at h
    refine ⟨1, ?_⟩
    rintro (_ | fuel) hfuel rest hrest
    · omega
    · rw [write]
      exact readValue_number h fuel hrest
  | string s =>
    refine ⟨1, ?_⟩
    rintro (_ | fuel) hfuel rest -
    · omega
    · rw [write]
      exact readValue_string s fuel rest
  | array items =>
    rw [NumbersIn] at h
    cases items with
    | nil =>
      refine ⟨1, ?_⟩
      rintro (_ | fuel) hfuel rest -
      · omega
      · rfl
    | cons value items =>
      obtain ⟨least, hread⟩ := readItems_write value items h.1 h.2
      refine ⟨least + 1, ?_⟩
      rintro (_ | fuel) hfuel rest -
      · omega
      · obtain ⟨u, tail, hu, hblank, hclose⟩ := head_write h.1
        have hitems := hread fuel (by omega) rest
        rw [hu, List.cons_append, List.cons_append] at hitems
        rw [write, writeItems, hu, List.cons_append, List.cons_append, List.cons_append, readValue,
          skip_cons (by decide)]
        simp only
        rw [if_neg (by decide), if_pos trivial, after_cons hblank, if_neg hclose]
        simp only
        rw [hitems, Option.map_some]
  | object members =>
    rw [NumbersIn] at h
    cases members with
    | nil =>
      refine ⟨1, ?_⟩
      rintro (_ | fuel) hfuel rest -
      · omega
      · rfl
    | cons member members =>
      obtain ⟨least, hread⟩ := readMembers_write member.1 member.2 members h.1 h.2
      refine ⟨least + 1, ?_⟩
      rintro (_ | fuel) hfuel rest -
      · omega
      · have hmembers := hread fuel (by omega) rest
        rw [quote, List.cons_append, List.cons_append] at hmembers
        rw [write, writeMembers, quote, List.cons_append, List.cons_append, List.cons_append, readValue,
          skip_cons (by decide)]
        simp only
        rw [if_neg (by decide), if_neg (by decide), if_pos trivial, after_cons (by decide), if_neg (by decide)]
        simp only
        rw [hmembers, Option.map_some]
termination_by sizeOf value

theorem readItems_write (value : Json Utf16 ν) (items : List (Json Utf16 ν))
    (h : NumbersIn (Prints ofNumeral toNumeral) value)
    (hitems : NumbersInItems (Prints ofNumeral toNumeral) items) :
    ∃ least, ∀ fuel, least ≤ fuel → ∀ rest,
      readItems ofNumeral fuel (write toNumeral value ++ writeMoreItems toNumeral items ++ rest) =
        some (value :: items, rest) := by
  obtain ⟨least, hvalue⟩ := readValue_write value h
  cases items with
  | nil =>
    refine ⟨least + 1, ?_⟩
    rintro (_ | fuel) hfuel rest
    · omega
    · rw [List.append_assoc, readItems, hvalue fuel (by omega) _ (ends_writeMoreItems [] rest)]
      rfl
  | cons next items =>
    obtain ⟨least', hmore⟩ := readItems_write next items hitems.1 hitems.2
    refine ⟨max least least' + 1, ?_⟩
    rintro (_ | fuel) hfuel rest
    · omega
    · rw [List.append_assoc, readItems, hvalue fuel (by omega) _ (ends_writeMoreItems (next :: items) rest),
        Option.bind_some]
      simp only
      rw [writeMoreItems, List.cons_append, after_cons (by decide), if_pos rfl]
      simp only
      rw [hmore fuel (by omega) rest, Option.map_some]
termination_by sizeOf (value :: items)

theorem readMembers_write (name : Utf16) (value : Json Utf16 ν) (members : List (Utf16 × Json Utf16 ν))
    (h : NumbersIn (Prints ofNumeral toNumeral) value)
    (hmembers : NumbersInMembers (Prints ofNumeral toNumeral) members) :
    ∃ least, ∀ fuel, least ≤ fuel → ∀ rest,
      readMembers ofNumeral fuel
          (quote name ++ 0x3A :: (write toNumeral value ++ writeMoreMembers toNumeral members) ++ rest) =
        some ((name, value) :: members, rest) := by
  obtain ⟨least, hvalue⟩ := readValue_write value h
  have hstart : ∀ fuel, least ≤ fuel → ∀ rest,
      readMembers ofNumeral (fuel + 1)
          (quote name ++ 0x3A :: (write toNumeral value ++ writeMoreMembers toNumeral members) ++ rest) =
        match after 0x2C (writeMoreMembers toNumeral members ++ rest) with
        | some rest => (readMembers ofNumeral fuel rest).map fun (members, rest) => ((name, value) :: members, rest)
        | none => (after 0x7D (writeMoreMembers toNumeral members ++ rest)).map fun rest =>
            ([(name, value)], rest) := by
    intro fuel hfuel rest
    rw [quote, List.cons_append, List.cons_append, readMembers, after_cons (by decide), if_pos rfl,
      Option.bind_some, List.append_assoc, List.append_assoc, List.singleton_append, readUnits_quoteUnits,
      Option.bind_some]
    simp only
    rw [List.cons_append, after_cons (by decide), if_pos rfl, Option.bind_some, List.append_assoc,
      hvalue fuel hfuel _ (ends_writeMoreMembers members rest), Option.bind_some]
  cases members with
  | nil =>
    refine ⟨least + 1, ?_⟩
    rintro (_ | fuel) hfuel rest
    · omega
    · rw [hstart fuel (by omega) rest]
      rfl
  | cons next members =>
    obtain ⟨least', hmore⟩ := readMembers_write next.1 next.2 members hmembers.1 hmembers.2
    refine ⟨max least least' + 1, ?_⟩
    rintro (_ | fuel) hfuel rest
    · omega
    · rw [hstart fuel (by omega) rest, writeMoreMembers, List.cons_append, after_cons (by decide), if_pos rfl]
      simp only
      rw [hmore fuel (by omega) rest, Option.map_some]
termination_by sizeOf ((name, value) :: members)

end

/-- `JSON.parse` of what `JSON.stringify` wrote. -/
theorem parse_write {value : Json Utf16 ν} (h : NumbersIn (Prints ofNumeral toNumeral) value) :
    parse ofNumeral (write toNumeral value) = some value := by
  obtain ⟨least, hread⟩ := readValue_write value h
  have hends : Numeral.Ends [] := by
    intro u hu
    cases hu
  have hfuel := readValue_of_le ofNumeral (le_max_right least (2 * (write toNumeral value).length + 1))
  have hwhole := hread _ (le_max_left least (2 * (write toNumeral value).length + 1)) [] hends
  rw [List.append_nil, hfuel] at hwhole
  rw [parse, hwhole, Option.bind_some]
  rfl

end RoundTrip

end Json
