import Mathlib.Data.List.Basic

/-!
# Text as a list of characters

Trimming, cutting a text at its first or last separator, and decimal digits.
-/

namespace SparkDashboard.Library.Chars

abbrev Text := List Char

def trimMatches (p : Char → Bool) (text : Text) : Text :=
  ((text.dropWhile p).reverse.dropWhile p).reverse

/-- What stands before the first `sep` and what after it. -/
def splitOnce (sep : Text) : Text → Option (Text × Text)
  | [] => none
  | c :: rest =>
    match (c :: rest).dropPrefix? sep with
    | some after => some ([], after)
    | none => (splitOnce sep rest).map fun parts => (c :: parts.1, parts.2)

/-- The index of the last `c`. -/
def rfind (c : Char) (text : Text) : Option Nat := (text.reverse.idxOf? c).map fun i => text.length - 1 - i

/-- What stands before the last `c` and what after it. -/
def rsplitOnce (c : Char) (text : Text) : Option (Text × Text) :=
  (rfind c text).map fun i => (text.take i, text.drop (i + 1))

theorem dropWhile_eq_self {p : Char → Bool} {text : Text} (h : ∀ c, text.head? = some c → p c = false) :
    text.dropWhile p = text := by
  cases text with
  | nil => rfl
  | cons c rest =>
    have hc := h c rfl
    simp [hc]

theorem trimMatches_eq_self {p : Char → Bool} {text : Text} (hhead : ∀ c, text.head? = some c → p c = false)
    (hlast : ∀ c, text.getLast? = some c → p c = false) : trimMatches p text = text := by
  have hreverse : text.reverse.dropWhile p = text.reverse := by
    apply dropWhile_eq_self
    intro c hc
    rw [List.head?_reverse] at hc
    exact hlast c hc
  rw [trimMatches, dropWhile_eq_self hhead, hreverse, List.reverse_reverse]

theorem dropPrefix?_singleton (c x : Char) (rest : Text) :
    (x :: rest).dropPrefix? [c] = if x = c then some rest else none := by
  by_cases h : x = c
  · subst h
    simp [List.dropPrefix?]
  · have hne : (x == c) = false := by simpa using h
    simp [List.dropPrefix?, hne, h]

theorem splitOnce_singleton_cons (c x : Char) (rest : Text) :
    splitOnce [c] (x :: rest) =
      if x = c then some ([], rest) else (splitOnce [c] rest).map fun parts => (x :: parts.1, parts.2) := by
  rw [splitOnce, dropPrefix?_singleton]
  by_cases h : x = c
  · rw [if_pos h, if_pos h]
  · rw [if_neg h, if_neg h]

theorem splitOnce_append {c : Char} {before : Text} (h : c ∉ before) (after : Text) :
    splitOnce [c] (before ++ c :: after) = some (before, after) := by
  induction before with
  | nil => rw [List.nil_append, splitOnce_singleton_cons, if_pos rfl]
  | cons x before ih =>
    have hx : x ≠ c := fun hx => h (hx ▸ List.mem_cons_self)
    rw [List.cons_append, splitOnce_singleton_cons, if_neg hx, ih fun hmem => h (List.mem_cons_of_mem x hmem)]
    rfl

theorem splitOnce_eq_none_iff {c : Char} {text : Text} : splitOnce [c] text = none ↔ c ∉ text := by
  induction text with
  | nil => exact iff_of_true rfl List.not_mem_nil
  | cons x text ih =>
    rw [splitOnce_singleton_cons]
    by_cases hx : x = c
    · subst hx
      simp
    · rw [if_neg hx, Option.map_eq_none_iff, ih, List.mem_cons, not_or]
      exact ⟨fun h => ⟨fun hc => hx hc.symm, h⟩, And.right⟩

theorem splitOnce_eq_some {c : Char} {text before after : Text} (h : splitOnce [c] text = some (before, after)) :
    c ∉ before ∧ text = before ++ c :: after := by
  induction text generalizing before with
  | nil => cases h
  | cons x text ih =>
    rw [splitOnce_singleton_cons] at h
    split at h
    · rename_i hx
      cases h
      exact ⟨List.not_mem_nil, by rw [hx]; rfl⟩
    · rename_i hx
      obtain ⟨parts, hparts, heq⟩ := Option.map_eq_some_iff.mp h
      cases heq
      obtain ⟨hnot, htext⟩ := ih hparts
      refine ⟨?_, by rw [htext]; rfl⟩
      intro hmem
      rcases List.mem_cons.mp hmem with hc | hmem
      · exact hx hc.symm
      · exact hnot hmem

theorem dropPrefix?_eq_some {sep text after : Text} : text.dropPrefix? sep = some after ↔ text = sep ++ after := by
  rw [List.dropPrefix?_eq_some_iff]
  simp

/-- Where the separator does not begin the text, the first cut is one letter in. -/
theorem first_cut_cons_iff {sep : Text} {c : Char} {rest before after : Text} (hnot : ¬sep <+: c :: rest) :
    (c :: rest = before ++ (sep ++ after) ∧ ∀ i < before.length, ¬sep <+: (c :: rest).drop i) ↔
      ∃ before', before = c :: before' ∧ rest = before' ++ (sep ++ after) ∧
        ∀ i < before'.length, ¬sep <+: rest.drop i := by
  constructor
  · rintro ⟨hcut, hfirst⟩
    cases before with
    | nil => exact absurd ⟨after, hcut.symm⟩ hnot
    | cons x before =>
      obtain ⟨rfl, hrest⟩ := List.cons.inj hcut
      exact ⟨before, rfl, hrest, fun i hi => hfirst (i + 1) (Nat.succ_lt_succ hi)⟩
  · rintro ⟨before, rfl, hrest, hfirst⟩
    refine ⟨congrArg (c :: ·) hrest, ?_⟩
    intro i hi
    cases i with
    | zero => exact hnot
    | succ i => exact hfirst i (Nat.lt_of_succ_lt_succ hi)

theorem first_cut_iff_of_prefix {sep found before after : Text} :
    (sep ++ found = before ++ (sep ++ after) ∧ ∀ i < before.length, ¬sep <+: (sep ++ found).drop i) ↔
      before = [] ∧ found = after := by
  constructor
  · rintro ⟨hcut, hfirst⟩
    cases before with
    | nil => exact ⟨rfl, List.append_cancel_left hcut⟩
    | cons x before => exact absurd (List.prefix_append sep found) (hfirst 0 (Nat.succ_pos _))
  · rintro ⟨rfl, rfl⟩
    exact ⟨rfl, fun i hi => absurd hi (Nat.not_lt_zero i)⟩

/-- The cut is at the first place where the separator stands. -/
theorem splitOnce_eq_some_iff {sep : Text} (hsep : sep ≠ []) {text before after : Text} :
    splitOnce sep text = some (before, after) ↔
      text = before ++ (sep ++ after) ∧ ∀ i < before.length, ¬sep <+: text.drop i := by
  induction text generalizing before with
  | nil =>
    refine iff_of_false nofun ?_
    rintro ⟨htext, _⟩
    exact hsep (List.append_eq_nil_iff.mp (List.append_eq_nil_iff.mp htext.symm).2).1
  | cons c rest ih =>
    rw [splitOnce]
    split
    · rename_i found hfound
      rw [dropPrefix?_eq_some.mp hfound, first_cut_iff_of_prefix, Option.some_inj, Prod.mk.injEq, eq_comm]
    · rename_i hnone
      have hnot : ¬sep <+: c :: rest := by
        rintro ⟨found, hfound⟩
        rw [dropPrefix?_eq_some.mpr hfound.symm] at hnone
        cases hnone
      rw [first_cut_cons_iff hnot, Option.map_eq_some_iff]
      constructor
      · rintro ⟨parts, hparts, heq⟩
        cases heq
        exact ⟨parts.1, rfl, ih.mp hparts⟩
      · rintro ⟨before', rfl, hcut⟩
        exact ⟨(before', after), ih.mpr hcut, rfl⟩

theorem idxOf?_append {c : Char} {before : Text} (h : c ∉ before) (after : Text) :
    (before ++ c :: after).idxOf? c = some before.length := by
  rw [List.idxOf?_eq_some_iff]
  refine ⟨by simp, by simp, ?_⟩
  intro j hj
  rw [List.getElem_append_left hj]
  intro hc
  exact h (hc ▸ List.getElem_mem hj)

theorem rfind_append {c : Char} {after : Text} (h : c ∉ after) (before : Text) :
    rfind c (before ++ c :: after) = some before.length := by
  have hreverse : (before ++ c :: after).reverse = after.reverse ++ c :: before.reverse := by simp
  have hnot : c ∉ after.reverse := fun hmem => h (List.mem_reverse.mp hmem)
  rw [rfind, hreverse, idxOf?_append hnot]
  simp

theorem rsplitOnce_append {c : Char} {after : Text} (h : c ∉ after) (before : Text) :
    rsplitOnce c (before ++ c :: after) = some (before, after) := by
  rw [rsplitOnce, rfind_append h, Option.map_some, List.take_left]
  simp

theorem rsplitOnce_eq_some {c : Char} {text before after : Text} (h : rsplitOnce c text = some (before, after)) :
    c ∉ after ∧ text = before ++ c :: after := by
  by_cases hmem : c ∈ text
  · obtain ⟨first, last, hreverse, hnot⟩ := List.eq_append_cons_of_mem (List.mem_reverse.mpr hmem)
    have htext : text = last.reverse ++ c :: first.reverse := by
      rw [← List.reverse_reverse text, hreverse]
      simp
    have hlast : c ∉ first.reverse := fun hin => hnot (List.mem_reverse.mp hin)
    rw [htext, rsplitOnce_append hlast] at h
    cases h
    exact ⟨hlast, htext⟩
  · have hnone : rfind c text = none := by
      rw [rfind, Option.map_eq_none_iff, List.idxOf?_eq_none_iff]
      exact fun hin => hmem (List.mem_reverse.mp hin)
    rw [rsplitOnce, hnone] at h
    cases h

theorem not_mem_of_mem_splitOn {c : Char} {text : Text} : ∀ part ∈ text.splitOn c, c ∉ part := by
  induction text with
  | nil => simp
  | cons x text ih =>
    rw [List.splitOn_cons_eq_if_modifyHead]
    by_cases hx : x = c
    · subst hx
      simpa using ih
    · have hne : (x == c) = false := by simpa using hx
      rw [hne, if_neg Bool.false_ne_true]
      cases hparts : text.splitOn c with
      | nil => simp
      | cons first parts =>
        rw [hparts] at ih
        obtain ⟨hfirst, hrest⟩ := List.forall_mem_cons.mp ih
        rw [List.modifyHead_cons, List.forall_mem_cons]
        refine ⟨?_, hrest⟩
        intro hmem
        rcases List.mem_cons.mp hmem with hc | hmem
        · exact hx hc.symm
        · exact hfirst hmem

/-- What a text of decimal digits stands for. -/
def natOf (digits : Text) : Nat := digits.foldl (fun n c => 10 * n + (c.toNat - '0'.toNat)) 0

def decimal (n : Nat) : Text := (toString n).toList

theorem decimal_eq (n : Nat) : decimal n = Nat.toDigits 10 n := Nat.toList_repr

theorem isDigit_of_mem_decimal {n : Nat} {c : Char} (h : c ∈ decimal n) : c.isDigit = true := by
  rw [decimal_eq] at h
  exact Nat.isDigit_of_mem_toDigits (by decide) (by decide) h

theorem decimal_ne_nil (n : Nat) : decimal n ≠ [] := by
  rw [decimal_eq]
  exact Nat.toDigits_ne_nil

theorem natOf_decimal (n : Nat) : natOf (decimal n) = n := by
  rw [decimal_eq, natOf, ← Nat.ofDigitChars_eq_foldl]
  exact Nat.ofDigitChars_toDigits (by decide) (by decide)

end SparkDashboard.Library.Chars
