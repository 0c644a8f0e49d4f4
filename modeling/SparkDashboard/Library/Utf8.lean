import SparkDashboard.Library.PrefixCode

/-!
# UTF-8 octets

Which octets are the encoding of a character and which begin one, and what a stream of
octets reads as when all that is not UTF-8 is replaced. The encoding itself is the core
library's.
-/

namespace Utf8

/-- The character whose encoding these octets are. -/
def decodeChar (octets : List UInt8) : Option Char :=
  (octets.toByteArray.utf8DecodeChar? 0).filter fun c => decide (c.utf8Size = octets.length)

theorem decodeChar_eq_some_iff {octets : List UInt8} {c : Char} :
    decodeChar octets = some c ↔ octets = String.utf8EncodeChar c := by
  rw [decodeChar, Option.filter_eq_some_iff, decide_eq_true_eq]
  constructor
  · rintro ⟨hdecode, hsize⟩
    obtain ⟨rest, hrest⟩ := ByteArray.exists_of_utf8DecodeChar?_eq_some hdecode
    have hlength := congrArg ByteArray.size hrest
    rw [ByteArray.size_append, List.size_toByteArray, List.size_toByteArray, String.length_utf8EncodeChar] at hlength
    have hempty : rest = ByteArray.empty := ByteArray.size_eq_zero_iff.mp (by omega)
    rw [hempty, ByteArray.append_empty] at hrest
    exact List.toByteArray_inj.mp hrest
  · rintro rfl
    refine ⟨?_, (String.length_utf8EncodeChar c).symm⟩
    have h := ByteArray.utf8DecodeChar?_utf8EncodeChar_append (b := ByteArray.empty) (c := c)
    rwa [ByteArray.append_empty] at h

/-- An octet other than the first of an encoding. -/
def IsContinuation (b : UInt8) : Prop := 0x80 ≤ b.toNat ∧ b.toNat ≤ 0xBF

/-- The range of a second octet depends on the first. -/
def IsSecond (a b : UInt8) : Prop :=
  0xC2 ≤ a.toNat ∧ a.toNat ≤ 0xF4 ∧ IsContinuation b ∧
    (a.toNat = 0xE0 → 0xA0 ≤ b.toNat) ∧ (a.toNat = 0xED → b.toNat ≤ 0x9F) ∧
    (a.toNat = 0xF0 → 0x90 ≤ b.toNat) ∧ (a.toNat = 0xF4 → b.toNat ≤ 0x8F)

instance (b : UInt8) : Decidable (IsContinuation b) := inferInstanceAs (Decidable (_ ∧ _))

instance (a b : UInt8) : Decidable (IsSecond a b) := inferInstanceAs (Decidable (_ ∧ _))

/-- The octets begin, or are, the encoding of a character. -/
def Begins : List UInt8 → Prop
  | [a] => a.toNat < 0x80 ∨ 0xC2 ≤ a.toNat ∧ a.toNat ≤ 0xF4
  | [a, b] => IsSecond a b
  | [a, b, c] => IsSecond a b ∧ 0xE0 ≤ a.toNat ∧ IsContinuation c
  | [a, b, c, d] => IsSecond a b ∧ 0xF0 ≤ a.toNat ∧ IsContinuation c ∧ IsContinuation d
  | _ => False

instance : DecidablePred Begins
  | [] => inferInstanceAs (Decidable False)
  | [_] => inferInstanceAs (Decidable (_ ∨ _))
  | [a, b] => inferInstanceAs (Decidable (IsSecond a b))
  | [_, _, _] => inferInstanceAs (Decidable (_ ∧ _))
  | [_, _, _, _] => inferInstanceAs (Decidable (_ ∧ _))
  | _ :: _ :: _ :: _ :: _ :: _ => inferInstanceAs (Decidable False)

theorem not_begins_of_begins_concat {octets : List UInt8} {b : UInt8} (hne : octets ≠ [])
    (h : Begins (octets ++ [b])) : ¬ Begins [b] := by
  have hcontinuation : IsContinuation b := by
    match octets, hne with
    | [a], _ => exact h.2.2.1
    | [a, a₂], _ => exact h.2.2
    | [a, a₂, a₃], _ => exact h.2.2.2
    | a :: a₂ :: a₃ :: a₄ :: rest, _ => cases rest <;> exact h.elim
  obtain ⟨hlo, hhi⟩ := hcontinuation
  simp only [Begins]
  omega

theorem begins_of_begins_concat {octets : List UInt8} {b : UInt8} (hne : octets ≠ [])
    (h : Begins (octets ++ [b])) : Begins octets := by
  match octets, hne with
  | [a], _ => exact Or.inr ⟨h.1, h.2.1⟩
  | [a, a₂], _ => exact h.1
  | [a, a₂, a₃], _ =>
    obtain ⟨hsecond, hfirst, hthird, -⟩ := h
    exact ⟨hsecond, by omega, hthird⟩
  | a :: a₂ :: a₃ :: a₄ :: rest, _ => cases rest <;> exact h.elim

/-- Octets that begin an encoding and are as many as their first one asks for. -/
def Complete : List UInt8 → Prop
  | [a] => a.toNat < 0x80
  | [a, b] => IsSecond a b ∧ a.toNat < 0xE0
  | [a, b, c] => IsSecond a b ∧ 0xE0 ≤ a.toNat ∧ a.toNat < 0xF0 ∧ IsContinuation c
  | [a, b, c, d] => IsSecond a b ∧ 0xF0 ≤ a.toNat ∧ IsContinuation c ∧ IsContinuation d
  | _ => False

theorem Complete.begins {octets : List UInt8} (h : Complete octets) : Begins octets := by
  match octets with
  | [a] => exact Or.inl h
  | [a, b] => exact h.1
  | [a, b, c] => exact ⟨h.1, h.2.1, h.2.2.2⟩
  | [a, b, c, d] => exact h

theorem Complete.not_begins_concat {octets : List UInt8} (h : Complete octets) (b : UInt8) :
    ¬ Begins (octets ++ [b]) := by
  match octets with
  | [a] =>
    rintro ⟨ha, -⟩
    have ha' : a.toNat < 0x80 := h
    omega
  | [a, a₂] =>
    rintro ⟨-, ha, -⟩
    have ha' := h.2
    omega
  | [a, a₂, a₃] =>
    rintro ⟨-, ha, -⟩
    have ha' := h.2.2.1
    omega
  | [a, a₂, a₃, a₄] => exact id

theorem complete_utf8EncodeChar (c : Char) : Complete (String.utf8EncodeChar c) := by
  have hvalid : c.val.toNat < 0xD800 ∨ 0xDFFF < c.val.toNat ∧ c.val.toNat < 0x110000 := c.valid
  rw [String.utf8EncodeChar]
  generalize c.val.toNat = v at hvalid
  split
  · simp only [Complete, UInt8.toNat_ofNat']
    omega
  · split
    · simp only [Complete, IsSecond, IsContinuation, UInt8.toNat_ofNat']
      omega
    · split
      · simp only [Complete, IsSecond, IsContinuation, UInt8.toNat_ofNat']
        omega
      · simp only [Complete, IsSecond, IsContinuation, UInt8.toNat_ofNat']
        omega

theorem complete_of_decodeChar {octets : List UInt8} {c : Char} (h : decodeChar octets = some c) :
    Complete octets := by
  rw [decodeChar_eq_some_iff.mp h]
  exact complete_utf8EncodeChar c

theorem decodeChar_of_begins_concat {octets : List UInt8} {b : UInt8} (h : Begins (octets ++ [b])) :
    decodeChar octets = none := by
  cases hdecode : decodeChar octets with
  | none => rfl
  | some c => exact absurd h ((complete_of_decodeChar hdecode).not_begins_concat b)

def code : PrefixCode UInt8 Char where
  decode := decodeChar
  Begins := Begins
  decidableBegins := inferInstance
  replacement := Char.ofNat 0xFFFD
  not_begins_nil := id
  begins_of_decode h := (complete_of_decodeChar h).begins
  begins_of_concat := begins_of_begins_concat
  decode_of_concat := decodeChar_of_begins_concat
  not_begins_of_concat := not_begins_of_begins_concat

/-- Every maximal part of the octets that is no UTF-8 becomes one `U+FFFD`. -/
def fromUtf8Lossy (octets : List UInt8) : List Char := code.lossy octets

theorem exists_val_eq {v : Nat} (h : v < 0xD800 ∨ 0xDFFF < v ∧ v < 0x110000) : ∃ c : Char, c.val.toNat = v :=
  ⟨Char.ofNatAux v h, rfl⟩

theorem ofNat_eq_of_toNat_eq {b : UInt8} {n : Nat} (h : b.toNat = n) : UInt8.ofNat n = b := by
  rw [← h, UInt8.ofNat_toNat]

theorem exists_utf8EncodeChar_of_complete {octets : List UInt8} (h : Complete octets) :
    ∃ c, String.utf8EncodeChar c = octets := by
  match octets with
  | [a] =>
    have ha : a.toNat < 0x80 := h
    obtain ⟨c, hc⟩ := exists_val_eq (v := a.toNat) (by omega)
    refine ⟨c, ?_⟩
    rw [String.utf8EncodeChar, hc, if_pos (by omega), ofNat_eq_of_toNat_eq rfl]
  | [a, b] =>
    obtain ⟨⟨ha, -, ⟨hb, hb'⟩, -⟩, ha'⟩ := h
    obtain ⟨c, hc⟩ := exists_val_eq (v := (a.toNat - 0xC0) * 64 + (b.toNat - 0x80)) (by omega)
    refine ⟨c, ?_⟩
    rw [String.utf8EncodeChar, hc, if_neg (by omega), if_pos (by omega), ofNat_eq_of_toNat_eq (b := a) (by omega),
      ofNat_eq_of_toNat_eq (b := b) (by omega)]
  | [a, b, d] =>
    obtain ⟨⟨-, -, ⟨hb, hb'⟩, hE0, hED, -⟩, ha, ha', ⟨hd, hd'⟩⟩ := h
    obtain ⟨c, hc⟩ := exists_val_eq
      (v := (a.toNat - 0xE0) * 4096 + (b.toNat - 0x80) * 64 + (d.toNat - 0x80)) (by omega)
    refine ⟨c, ?_⟩
    rw [String.utf8EncodeChar, hc, if_neg (by omega), if_neg (by omega), if_pos (by omega),
      ofNat_eq_of_toNat_eq (b := a) (by omega), ofNat_eq_of_toNat_eq (b := b) (by omega),
      ofNat_eq_of_toNat_eq (b := d) (by omega)]
  | [a, b, d, e] =>
    obtain ⟨⟨-, ha', ⟨hb, hb'⟩, -, -, hF0, hF4⟩, ha, ⟨hd, hd'⟩, he, he'⟩ := h
    obtain ⟨c, hc⟩ := exists_val_eq
      (v := (a.toNat - 0xF0) * 262144 + (b.toNat - 0x80) * 4096 + (d.toNat - 0x80) * 64 + (e.toNat - 0x80))
      (by omega)
    refine ⟨c, ?_⟩
    rw [String.utf8EncodeChar, hc, if_neg (by omega), if_neg (by omega), if_neg (by omega),
      ofNat_eq_of_toNat_eq (b := a) (by omega), ofNat_eq_of_toNat_eq (b := b) (by omega),
      ofNat_eq_of_toNat_eq (b := d) (by omega), ofNat_eq_of_toNat_eq (b := e) (by omega)]

theorem isContinuation_0x80 : IsContinuation 0x80 := by decide

theorem exists_isSecond {a : UInt8} (h : 0xC2 ≤ a.toNat ∧ a.toNat ≤ 0xF4) : ∃ b, IsSecond a b := by
  by_cases hE0 : a.toNat = 0xE0
  · exact ⟨0xA0, by simp [IsSecond, IsContinuation, hE0]⟩
  · by_cases hF0 : a.toNat = 0xF0
    · exact ⟨0x90, by simp [IsSecond, IsContinuation, hF0]⟩
    · exact ⟨0x80, by simp [IsSecond, IsContinuation, hE0, hF0, h.1, h.2]⟩

theorem exists_complete_of_begins {octets : List UInt8} (h : Begins octets) : ∃ rest, Complete (octets ++ rest) := by
  match octets with
  | [a] =>
    obtain ha | ha := h
    · exact ⟨[], ha⟩
    · obtain ⟨b, hb⟩ := exists_isSecond ha
      obtain ha' | ha' | ha' : a.toNat < 0xE0 ∨ 0xE0 ≤ a.toNat ∧ a.toNat < 0xF0 ∨ 0xF0 ≤ a.toNat := by omega
      · exact ⟨[b], hb, ha'⟩
      · exact ⟨[b, 0x80], hb, ha'.1, ha'.2, isContinuation_0x80⟩
      · exact ⟨[b, 0x80, 0x80], hb, ha', isContinuation_0x80, isContinuation_0x80⟩
  | [a, b] =>
    obtain ha | ha | ha : a.toNat < 0xE0 ∨ 0xE0 ≤ a.toNat ∧ a.toNat < 0xF0 ∨ 0xF0 ≤ a.toNat := by omega
    · exact ⟨[], h, ha⟩
    · exact ⟨[0x80], h, ha.1, ha.2, isContinuation_0x80⟩
    · exact ⟨[0x80, 0x80], h, ha, isContinuation_0x80, isContinuation_0x80⟩
  | [a, b, c] =>
    obtain ⟨hsecond, ha, hc⟩ := h
    obtain ha' | ha' : a.toNat < 0xF0 ∨ 0xF0 ≤ a.toNat := by omega
    · exact ⟨[], hsecond, ha, ha', hc⟩
    · exact ⟨[0x80], hsecond, ha', hc, isContinuation_0x80⟩
  | [a, b, c, d] => exact ⟨[], h⟩

theorem begins_iff {octets : List UInt8} :
    Begins octets ↔ octets ≠ [] ∧ ∃ c : Char, octets <+: String.utf8EncodeChar c := by
  constructor
  · intro h
    refine ⟨fun hnil => by rw [hnil] at h; exact h, ?_⟩
    obtain ⟨rest, hrest⟩ := exists_complete_of_begins h
    obtain ⟨c, hc⟩ := exists_utf8EncodeChar_of_complete hrest
    exact ⟨c, rest, hc.symm⟩
  · rintro ⟨hne, c, rest, hrest⟩
    have hbegins := (complete_utf8EncodeChar c).begins
    rw [← hrest] at hbegins
    exact code.begins_of_append hne hbegins

end Utf8
