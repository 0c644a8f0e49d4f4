import Mathlib.Data.List.Induction
import SparkDashboard.Library.Stepping

/-!
# Lossy decoding of a self-synchronising code

A stream is read a symbol at a time. What begins a code word and is not carried to its
end is replaced as a whole, and so is a symbol that begins none. A stream that is cut
into pieces, each decoded alone, reads the same exactly if no code word is cut.
-/

universe u v

open Stepping

structure PrefixCode (β : Type u) (γ : Type v) where
  decode : List β → Option γ
  Begins : List β → Prop
  decidableBegins : DecidablePred Begins
  replacement : γ
  not_begins_nil : ¬ Begins []
  begins_of_decode : ∀ {word c}, decode word = some c → Begins word
  begins_of_concat : ∀ {word b}, word ≠ [] → Begins (word ++ [b]) → Begins word
  /-- No word is the beginning of another. -/
  decode_of_concat : ∀ {word b}, Begins (word ++ [b]) → decode word = none
  /-- A symbol that goes on with a word begins none. -/
  not_begins_of_concat : ∀ {word b}, word ≠ [] → Begins (word ++ [b]) → ¬ Begins [b]

namespace PrefixCode

variable {β : Type u} {γ : Type v} (K : PrefixCode β γ)

instance : DecidablePred K.Begins := K.decidableBegins

/-- The characters that a word read so far gives, and what of it is still pending. -/
def take (word : List β) : List γ × List β :=
  match K.decode word with
  | some c => ([c], [])
  | none => if K.Begins word then ([], word) else ([K.replacement], [])

def feed (pending : List β) (b : β) : List γ × List β :=
  if pending = [] ∨ K.Begins (pending ++ [b]) then K.take (pending ++ [b])
  else (K.replacement :: (K.take [b]).1, (K.take [b]).2)

def flush (pending : List β) : List γ := if pending = [] then [] else [K.replacement]

def decodeFrom (pending symbols : List β) : List γ :=
  emitted K.feed pending symbols ++ K.flush (final K.feed pending symbols)

def lossy (symbols : List β) : List γ := K.decodeFrom [] symbols

variable {K}

@[simp] theorem feed_nil (b : β) : K.feed [] b = K.take [b] := if_pos (Or.inl rfl)

@[simp] theorem decodeFrom_nil (pending : List β) : K.decodeFrom pending [] = K.flush pending := rfl

theorem decodeFrom_cons (pending : List β) (b : β) (rest : List β) :
    K.decodeFrom pending (b :: rest) = (K.feed pending b).1 ++ K.decodeFrom (K.feed pending b).2 rest := by
  rw [decodeFrom, emitted_cons, final_cons, List.append_assoc]
  rfl

theorem decodeFrom_append (pending first rest : List β) :
    K.decodeFrom pending (first ++ rest) =
      emitted K.feed pending first ++ K.decodeFrom (final K.feed pending first) rest := by
  rw [decodeFrom, emitted_append, final_append, List.append_assoc]
  rfl

theorem take_of_not_begins {word : List β} (h : ¬ K.Begins word) : K.take word = ([K.replacement], []) := by
  have hdecode : K.decode word = none := by
    cases hword : K.decode word with
    | none => rfl
    | some c => exact absurd (K.begins_of_decode hword) h
  rw [take, hdecode]
  exact if_neg h

theorem lossy_cons_of_not_begins {b : β} (h : ¬ K.Begins [b]) (rest : List β) :
    K.lossy (b :: rest) = K.replacement :: K.lossy rest := by
  rw [lossy, decodeFrom_cons, feed_nil, take_of_not_begins h]
  rfl

/-- What is pending is replaced where nothing carries it on. -/
theorem decodeFrom_of_not_continued {pending symbols : List β} (hne : pending ≠ [])
    (h : ∀ b, symbols.head? = some b → ¬ K.Begins (pending ++ [b])) :
    K.decodeFrom pending symbols = K.replacement :: K.lossy symbols := by
  cases symbols with
  | nil => exact if_neg hne
  | cons b rest =>
    have hfeed : K.feed pending b = (K.replacement :: (K.take [b]).1, (K.take [b]).2) :=
      if_neg (not_or.mpr ⟨hne, h b rfl⟩)
    rw [decodeFrom_cons, hfeed, lossy, decodeFrom_cons, feed_nil, List.cons_append]

theorem length_decodeFrom_of_continued {pending rest : List β} {b : β} (hne : pending ≠ [])
    (hbegins : K.Begins (pending ++ [b]))
    (hrest : ∀ word, (K.decodeFrom word rest).length ≤ (K.lossy rest).length + 1) :
    (K.decodeFrom pending (b :: rest)).length ≤ (K.lossy (b :: rest)).length := by
  have hfeed : K.feed pending b = K.take (pending ++ [b]) := if_pos (Or.inr hbegins)
  rw [decodeFrom_cons, hfeed, lossy_cons_of_not_begins (K.not_begins_of_concat hne hbegins) rest, take,
    List.length_append, List.length_cons]
  cases K.decode (pending ++ [b]) with
  | none =>
    have hword := hrest (pending ++ [b])
    simp only [if_pos hbegins, List.length_nil]
    omega
  | some c =>
    simp only [List.length_singleton]
    rw [← lossy]
    omega

theorem length_decodeFrom_le (pending symbols : List β) :
    (K.decodeFrom pending symbols).length ≤ (K.lossy symbols).length + 1 := by
  induction symbols generalizing pending with
  | nil =>
    rw [decodeFrom_nil, flush]
    split
    · exact Nat.zero_le _
    · exact Nat.le_refl 1
  | cons b rest ih =>
    by_cases hcontinued : pending ≠ [] ∧ K.Begins (pending ++ [b])
    · exact Nat.le_succ_of_le (length_decodeFrom_of_continued hcontinued.1 hcontinued.2 ih)
    · cases pending with
      | nil => exact Nat.le_succ _
      | cons first pending =>
        have hne : first :: pending ≠ [] := List.cons_ne_nil first pending
        have hnot : ∀ b', (b :: rest).head? = some b' → ¬ K.Begins (first :: pending ++ [b']) := by
          rintro b' hb' hbegins
          cases hb'
          exact hcontinued ⟨hne, hbegins⟩
        exact Nat.le_of_eq (by rw [decodeFrom_of_not_continued hne hnot, List.length_cons])

section Cuts

/-- A cut after `first` goes through a word: the end of `first` begins one, and `rest` carries it on. -/
def Splits (K : PrefixCode β γ) (first rest : List β) : Prop :=
  ∃ word b, word ≠ [] ∧ word <:+ first ∧ rest.head? = some b ∧ K.Begins (word ++ [b])

theorem begins_of_append (K : PrefixCode β γ) {word rest : List β} (hne : word ≠ [])
    (h : K.Begins (word ++ rest)) : K.Begins word := by
  induction rest generalizing word with
  | nil => rwa [List.append_nil] at h
  | cons b rest ih =>
    rw [List.append_cons] at h
    exact K.begins_of_concat hne (ih (List.append_ne_nil_of_left_ne_nil hne [b]) h)

theorem take_snd (word : List β) : (K.take word).2 = [] ∨ (K.take word).2 = word ∧ K.Begins word := by
  rw [take]
  cases K.decode word with
  | some c => exact Or.inl rfl
  | none =>
    by_cases hbegins : K.Begins word
    · simp only [if_pos hbegins]
      exact Or.inr ⟨trivial, hbegins⟩
    · simp only [if_neg hbegins]
      exact Or.inl trivial

theorem take_of_begins_concat {word : List β} {b : β} (hne : word ≠ []) (h : K.Begins (word ++ [b])) :
    K.take word = ([], word) := by
  rw [take, K.decode_of_concat h]
  exact if_pos (K.begins_of_concat hne h)

/-- What is pending begins a word, and is the end of what was read. -/
theorem pending_spec (symbols : List β) :
    final K.feed [] symbols = [] ∨
      final K.feed [] symbols <:+ symbols ∧ K.Begins (final K.feed [] symbols) := by
  induction symbols using List.reverseRecOn with
  | nil => exact Or.inl rfl
  | append_singleton symbols b ih =>
    rw [final_concat, feed]
    split
    · obtain hnil | ⟨hword, hbegins⟩ := take_snd (K := K) (final K.feed [] symbols ++ [b])
      · exact Or.inl hnil
      · rw [hword]
        refine Or.inr ⟨?_, hbegins⟩
        obtain hnil | ⟨hsuffix, -⟩ := ih
        · rw [hnil]
          exact List.suffix_append symbols [b]
        · exact (List.suffix_append_inj_of_length_eq rfl).mpr ⟨hsuffix, rfl⟩
    · obtain hnil | ⟨hword, hbegins⟩ := take_snd (K := K) [b]
      · exact Or.inl hnil
      · simp only [hword]
        exact Or.inr ⟨List.suffix_append symbols [b], hbegins⟩

/-- Whatever was pending before, the beginning of a word that ends the stream is pending then. -/
theorem pending_of_suffix {word symbols : List β} {b : β} (hne : word ≠ []) (hsuffix : word <:+ symbols)
    (h : K.Begins (word ++ [b])) : final K.feed [] symbols = word := by
  induction word using List.reverseRecOn generalizing symbols b with
  | nil => exact absurd rfl hne
  | append_singleton word x ih =>
    obtain ⟨before, rfl⟩ := hsuffix
    have htake := take_of_begins_concat hne h
    rw [← List.append_assoc, final_concat, feed]
    by_cases hword : word = []
    · subst hword
      rw [List.append_nil]
      split
      · rename_i hread
        obtain hnil | hbegins := hread
        · rw [hnil, htake]
        · obtain hnil | hpending := em (final K.feed [] before = [])
          · rw [hnil, htake]
          · exact absurd (K.begins_of_concat hne h) (K.not_begins_of_concat hpending hbegins)
      · rw [List.nil_append] at htake
        simp only [htake, List.nil_append]
    · have hbegins : K.Begins (word ++ [x]) := K.begins_of_concat hne h
      rw [ih hword (List.suffix_append before word) hbegins, if_pos (Or.inr hbegins), htake]

theorem lossy_eq (symbols : List β) :
    K.lossy symbols = emitted K.feed [] symbols ++ K.flush (final K.feed [] symbols) := rfl

theorem lossy_append_of_not_splits {first rest : List β} (h : ¬ K.Splits first rest) :
    K.lossy (first ++ rest) = K.lossy first ++ K.lossy rest := by
  rw [lossy, decodeFrom_append, lossy_eq first, List.append_assoc]
  congr 1
  obtain hnil | ⟨hsuffix, hbegins⟩ := pending_spec (K := K) first
  · rw [hnil]
    rfl
  · have hne : final K.feed [] first ≠ [] := by
      intro hnil
      rw [hnil] at hbegins
      exact K.not_begins_nil hbegins
    have hnot : ∀ b, rest.head? = some b → ¬ K.Begins (final K.feed [] first ++ [b]) :=
      fun b hb hcontinued => h ⟨_, b, hne, hsuffix, hb, hcontinued⟩
    rw [decodeFrom_of_not_continued hne hnot, flush, if_neg hne]
    rfl

/-- A word that is cut reads as more characters than it is. -/
theorem length_lossy_append_lt_of_splits {first rest : List β} (h : K.Splits first rest) :
    (K.lossy (first ++ rest)).length < (K.lossy first).length + (K.lossy rest).length := by
  obtain ⟨word, b, hne, hsuffix, hhead, hbegins⟩ := h
  obtain ⟨tail, rfl⟩ : ∃ tail, rest = b :: tail := by
    cases rest with
    | nil => cases hhead
    | cons b' tail =>
      cases hhead
      exact ⟨tail, rfl⟩
  have hle := length_decodeFrom_of_continued hne hbegins fun word => length_decodeFrom_le word tail
  rw [lossy, decodeFrom_append, lossy_eq first, pending_of_suffix hne hsuffix hbegins, flush, if_neg hne]
  simp only [List.length_append, List.length_singleton]
  omega

theorem length_lossy_append_le (first rest : List β) :
    (K.lossy (first ++ rest)).length ≤ (K.lossy first).length + (K.lossy rest).length := by
  obtain hsplits | hsplits := em (K.Splits first rest)
  · exact Nat.le_of_lt (length_lossy_append_lt_of_splits hsplits)
  · exact Nat.le_of_eq (by rw [lossy_append_of_not_splits hsplits, List.length_append])

theorem length_lossy_flatten_le (pieces : List (List β)) :
    (K.lossy pieces.flatten).length ≤ (pieces.flatMap K.lossy).length := by
  induction pieces with
  | nil => exact Nat.le_refl 0
  | cons first pieces ih =>
    rw [List.flatten_cons, List.flatMap_cons, List.length_append]
    exact Nat.le_trans (length_lossy_append_le first pieces.flatten) (Nat.add_le_add_left ih _)

theorem not_splits_nil (rest : List β) : ¬ K.Splits [] rest := by
  rintro ⟨word, -, hne, hsuffix, -⟩
  exact hne (List.suffix_nil.mp hsuffix)

theorem Splits.append_left {first rest : List β} (h : K.Splits first rest) (before : List β) :
    K.Splits (before ++ first) rest := by
  obtain ⟨word, b, hne, hsuffix, hhead, hbegins⟩ := h
  exact ⟨word, b, hne, hsuffix.trans (List.suffix_append before first), hhead, hbegins⟩

/-- A word that reaches back over a piece is cut at the piece's beginning too. -/
theorem Splits.of_append {before first rest : List β} (h : K.Splits (before ++ first) rest) :
    K.Splits first rest ∨ K.Splits before (first ++ rest) := by
  obtain ⟨word, b, hne, hsuffix, hhead, hbegins⟩ := h
  obtain hinside | ⟨begun, rfl⟩ := List.suffix_or_suffix_of_suffix hsuffix (List.suffix_append before first)
  · exact Or.inl ⟨word, b, hne, hinside, hhead, hbegins⟩
  · obtain ⟨outside, houtside⟩ := hsuffix
    rw [← List.append_assoc, List.append_cancel_right_eq] at houtside
    have hbegun : begun <:+ before := ⟨outside, houtside⟩
    cases begun with
    | nil => exact Or.inl ⟨first, b, hne, List.suffix_rfl, hhead, hbegins⟩
    | cons x begun =>
      have hne' : x :: begun ≠ [] := List.cons_ne_nil x begun
      cases first with
      | nil => exact Or.inr ⟨x :: begun, b, hne', hbegun, hhead, by rwa [List.append_nil] at hbegins⟩
      | cons y first =>
        have hword : x :: begun ++ y :: first ++ [b] = x :: begun ++ [y] ++ (first ++ [b]) := by simp
        rw [hword] at hbegins
        exact Or.inr ⟨x :: begun, y, hne', hbegun, rfl, K.begins_of_append (by simp) hbegins⟩

/-- Pieces decoded alone read as the whole stream exactly if no cut goes through a word. -/
theorem flatMap_lossy_eq_iff (pieces : List (List β)) :
    pieces.flatMap K.lossy = K.lossy pieces.flatten ↔
      ∀ earlier later, pieces = earlier ++ later → ¬ K.Splits earlier.flatten later.flatten := by
  induction pieces with
  | nil =>
    refine iff_of_true rfl ?_
    intro earlier later hpieces
    rw [(List.append_eq_nil_iff.mp hpieces.symm).1]
    exact not_splits_nil _
  | cons first pieces ih =>
    rw [List.flatMap_cons, List.flatten_cons]
    constructor
    · intro heq
      have hlength := congrArg List.length heq
      rw [List.length_append] at hlength
      have hrest := length_lossy_flatten_le (K := K) pieces
      have hcut : ¬ K.Splits first pieces.flatten := by
        intro hsplits
        have hlt := length_lossy_append_lt_of_splits hsplits
        omega
      rw [lossy_append_of_not_splits hcut, List.append_cancel_left_eq] at heq
      intro earlier later hpieces
      cases earlier with
      | nil => exact not_splits_nil _
      | cons piece earlier =>
        obtain ⟨rfl, rfl⟩ := List.cons.inj hpieces
        intro hsplits
        obtain hinner | hfirst := hsplits.of_append
        · exact ih.mp heq earlier later rfl hinner
        · rw [← List.flatten_append] at hfirst
          exact hcut hfirst
    · intro hcuts
      have hcut : ¬ K.Splits first pieces.flatten := by
        have h := hcuts [first] pieces rfl
        rwa [List.flatten_singleton] at h
      rw [lossy_append_of_not_splits hcut, ih.mpr]
      rintro earlier later rfl hsplits
      exact hcuts (first :: earlier) later rfl (hsplits.append_left first)

end Cuts

section Count

variable [DecidableEq β] [DecidableEq γ]

theorem count_take {b : β} {c : γ} (hdecode : K.decode [b] = some c) (honly : ∀ word, K.decode word = some c → word = [b])
    (hreplacement : K.replacement ≠ c) (word : List β) :
    (K.take word).1.count c = if word = [b] then 1 else 0 := by
  rw [take]
  cases hword : K.decode word with
  | some c' =>
    by_cases hc : c' = c
    · rw [hc] at hword ⊢
      rw [if_pos (honly word hword)]
      exact List.count_singleton_self
    · have hne : word ≠ [b] := by
        rintro rfl
        exact hc (Option.some.inj (hword.symm.trans hdecode))
      rw [if_neg hne]
      exact List.count_eq_zero.mpr (by simpa using Ne.symm hc)
  | none =>
    have hne : word ≠ [b] := by
      rintro rfl
      rw [hdecode] at hword
      cases hword
    rw [if_neg hne]
    change (if K.Begins word then ([], word) else ([K.replacement], [])).1.count c = 0
    split
    · rfl
    · exact List.count_eq_zero.mpr (by simpa using hreplacement.symm)

theorem count_lossy {b : β} {c : γ} (hdecode : K.decode [b] = some c) (honly : ∀ word, K.decode word = some c → word = [b])
    (hreplacement : K.replacement ≠ c) (symbols : List β) : (K.lossy symbols).count c = symbols.count b := by
  have hreplaced : ∀ rest : List γ, (K.replacement :: rest).count c = rest.count c :=
    fun rest => List.count_cons_of_ne hreplacement
  have hfeed : ∀ (pending : List β) (x : β), (K.feed pending x).1.count c = if x = b then 1 else 0 := by
    intro pending x
    rw [feed]
    split
    · rename_i hread
      rw [count_take hdecode honly hreplacement]
      obtain rfl | hbegins := hread
      · simp only [List.nil_append, List.cons.injEq, and_true]
      · cases pending with
        | nil => simp only [List.nil_append, List.cons.injEq, and_true]
        | cons first pending =>
          have hx : x ≠ b := by
            rintro rfl
            exact K.not_begins_of_concat (List.cons_ne_nil first pending) hbegins (K.begins_of_decode hdecode)
          rw [if_neg hx, if_neg (by simp)]
    · rw [hreplaced, count_take hdecode honly hreplacement]
      simp only [List.cons.injEq, and_true]
  have hfrom : ∀ pending, (K.decodeFrom pending symbols).count c = symbols.count b := by
    induction symbols with
    | nil =>
      intro pending
      rw [decodeFrom_nil, flush]
      split
      · rfl
      · exact hreplaced []
    | cons x rest ih =>
      intro pending
      rw [decodeFrom_cons, List.count_append, hfeed, ih, List.count_cons, Nat.add_comm]
      simp only [beq_iff_eq]
  exact hfrom []

end Count

end PrefixCode
