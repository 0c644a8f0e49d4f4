import Mathlib.Data.List.Basic

/-!
# Clients that write a whole document at a time

A client shows a document and writes it with one change made to it. The server takes writes
in the order they were sent, accepting or refusing each; answers come in any order, and an
accepted write is what the client shows once it is answered. A write sent while another is
unanswered does not carry the other's change.
-/

namespace WholeDocument

universe u v w x y z

variable {D : Type u} {C : Type v} {O : Type w} {S : Type x} {A : Type y} {V : Type z}

inductive Progress (O : Type w) where
  | sent
  | taken (outcome : O)
  | answered (outcome : O)

structure Write (D : Type u) (C : Type v) (O : Type w) where
  change : C
  document : D
  /-- The writes not yet answered when this one was sent. -/
  behind : List Nat
  progress : Progress O

structure Client (D : Type u) (C : Type v) (O : Type w) (S : Type x) where
  shown : D
  stored : S
  /-- In the order they were sent. -/
  writes : List (Write D C O)

def Progress.isSent : Progress O → Bool
  | .sent => true
  | _ => false

def Progress.isAnswered : Progress O → Bool
  | .answered _ => true
  | _ => false

def Progress.accepted (accepts : O → Bool) : Progress O → Bool
  | .sent => false
  | .taken outcome | .answered outcome => accepts outcome

/-- Accepted, and the client has been told. -/
def Progress.confirmed (accepts : O → Bool) : Progress O → Bool
  | .answered outcome => accepts outcome
  | _ => false

theorem Progress.confirmed_iff {accepts : O → Bool} {progress : Progress O} :
    progress.confirmed accepts = true ↔ progress.isAnswered = true ∧ progress.accepted accepts = true := by
  cases progress with
  | sent => simp [confirmed, isAnswered]
  | taken outcome => simp [confirmed, isAnswered]
  | answered outcome => simp [confirmed, isAnswered, accepted]

namespace Client

def unanswered (s : Client D C O S) : List Nat :=
  (List.range s.writes.length).filter fun i => s.writes[i]?.any fun write => !write.progress.isAnswered

def send (s : Client D C O S) (change : C) (document : D) : Client D C O S :=
  { s with writes := s.writes ++ [⟨change, document, s.unanswered, .sent⟩] }

/-- The server takes the first write it has not taken. -/
def take (encode : D → S) (accepts : O → Bool) (s : Client D C O S) (outcome : O) : Option (Client D C O S) :=
  match s.writes.findIdx? fun write => write.progress.isSent with
  | none => none
  | some i =>
    s.writes[i]?.map fun write =>
      { s with
        stored := if accepts outcome then encode write.document else s.stored
        writes := s.writes.set i { write with progress := .taken outcome } }

def answer (accepts : O → Bool) (s : Client D C O S) (i : Nat) : Option (Write D C O × O × Client D C O S) :=
  match s.writes[i]? with
  | some write =>
    match write.progress with
    | .taken outcome =>
      some (write, outcome,
        { s with
          shown := if accepts outcome then write.document else s.shown
          writes := s.writes.set i { write with progress := .answered outcome } })
    | _ => none
  | none => none

end Client

/-- The changes of the accepted writes, each at its write's place. -/
def acceptedChanges (accepts : O → Bool) (s : Client D C O S) (i : Nat) : Option C :=
  s.writes[i]?.bind fun write => if write.progress.accepted accepts then some write.change else none

def AllAnswered (s : Client D C O S) : Prop := ∀ write ∈ s.writes, write.progress.isAnswered = true

section Reflecting

variable (look : D → A → V) (writes : C → A → Option V)

/-- Whatever a change wrote and no later one wrote over is in the document. -/
def Reflects (document : D) (changes : Nat → Option C) : Prop :=
  ∀ i change a value, changes i = some change → writes change a = some value →
    (∀ j later, i < j → changes j = some later → writes later a = none) → look document a = value

def Overwrites (later earlier : C) : Prop := ∀ a, writes later a = none → writes earlier a = none

variable {look writes}

theorem Reflects.made {base document : D} {changes changes' : Nat → Option C} {j : Nat} {change : C}
    (h : Reflects look writes base changes)
    (hlook : ∀ a, look document a = (writes change a).getD (look base a))
    (hlast : ∀ i c, changes i = some c → i < j) (hj : changes' j = some change)
    (hrest : ∀ i, i ≠ j → changes' i = changes i) : Reflects look writes document changes' := by
  intro i c a value hi hvalue hlater
  rw [hlook]
  by_cases hij : i = j
  · subst hij
    rw [hj] at hi
    rw [Option.some.inj hi, hvalue]
    rfl
  · rw [hrest i hij] at hi
    rw [hlater j change (hlast i c hi) hj]
    refine h i c a value hi hvalue ?_
    intro k later hk hchange
    have hkj := hlast k later hchange
    exact hlater k later hk (by rw [hrest k (by omega), hchange])

/-- Changes written over entirely by one that is reflected need not be carried themselves. -/
theorem Reflects.of_overwritten {document : D} {changes changes' : Nat → Option C}
    (h : Reflects look writes document changes)
    (hmore : ∀ i c, changes i = some c → changes' i = some c)
    (hover : ∀ i c, changes' i = some c → changes i = some c ∨
      ∃ j later, i < j ∧ changes' j = some later ∧ Overwrites writes later c) :
    Reflects look writes document changes' := by
  intro i c a value hi hvalue hlater
  rcases hover i c hi with hcarried | ⟨j, later, hij, hj, hoverwrites⟩
  · exact h i c a value hcarried hvalue fun k later hk hchange => hlater k later hk (hmore k later hchange)
  · rw [hoverwrites a (hlater j later hij hj)] at hvalue
    cases hvalue

end Reflecting

section Latest

variable {T : Type x}

/-- The value comes from the last write of a kind, or is the first there was. -/
def Latest (p : Write D C O → Bool) (of : D → T) (first : T) (writes : List (Write D C O)) (value : T) : Prop :=
  (value = first ∧ ∀ write ∈ writes, p write = false) ∨
    ∃ (m : Nat) (write : Write D C O), writes[m]? = some write ∧ p write = true ∧ value = of write.document ∧
      ∀ (j : Nat) later, m < j → writes[j]? = some later → p later = false

variable {p : Write D C O → Bool} {of : D → T} {first value : T} {writes : List (Write D C O)}

theorem getElem?_append_one {α : Type y} {l : List α} {a b : α} {i : Nat}
    (h : (l ++ [a])[i]? = some b) : l[i]? = some b ∨ i = l.length ∧ b = a := by
  rw [List.getElem?_append] at h
  split at h
  · exact .inl h
  · rename_i hge
    rw [List.getElem?_singleton] at h
    split at h
    · exact .inr ⟨by omega, (Option.some.inj h).symm⟩
    · cases h

/-- Of two elements only the later one can be the one put last. -/
theorem getElem?_append_pair {α : Type y} {l : List α} {a b c : α} {i j : Nat} (hij : i < j)
    (hi : (l ++ [a])[i]? = some b) (hj : (l ++ [a])[j]? = some c) :
    l[i]? = some b ∧ (l[j]? = some c ∨ j = l.length ∧ c = a) := by
  have hj' := getElem?_append_one hj
  refine ⟨?_, hj'⟩
  rcases getElem?_append_one hi with hi | ⟨rfl, -⟩
  · exact hi
  · rcases hj' with hj' | ⟨rfl, -⟩
    · exact absurd (List.getElem?_eq_some_iff.mp hj').1 (by omega)
    · exact absurd hij (Nat.lt_irrefl _)

theorem getElem?_set_some {α : Type y} {l : List α} {a b c : α} {i j : Nat} (hi : l[i]? = some a)
    (h : (l.set i b)[j]? = some c) : j = i ∧ c = b ∨ j ≠ i ∧ l[j]? = some c := by
  rw [List.getElem?_set] at h
  by_cases hij : i = j
  · subst hij
    rw [if_pos rfl, if_pos (List.getElem?_eq_some_iff.mp hi).1] at h
    exact .inl ⟨rfl, (Option.some.inj h).symm⟩
  · rw [if_neg hij] at h
    exact .inr ⟨Ne.symm hij, h⟩

theorem Latest.append (h : Latest p of first writes value) {write : Write D C O} (hp : p write = false) :
    Latest p of first (writes ++ [write]) value := by
  rcases h with ⟨hvalue, hnone⟩ | ⟨m, last, hm, hlast, hvalue, hlater⟩
  · refine .inl ⟨hvalue, ?_⟩
    intro other hother
    rcases List.mem_append.mp hother with hother | hother
    · exact hnone other hother
    · rw [List.mem_singleton.mp hother, hp]
  · refine .inr ⟨m, last, ?_, hlast, hvalue, ?_⟩
    · rw [List.getElem?_append_left (List.getElem?_eq_some_iff.mp hm).1, hm]
    · intro j later hj hlater'
      rcases getElem?_append_one hlater' with hlater' | ⟨-, rfl⟩
      · exact hlater j later hj hlater'
      · exact hp

theorem Latest.set_same (h : Latest p of first writes value) {i : Nat} {write write' : Write D C O}
    (hi : writes[i]? = some write) (hp : p write' = p write) (hdocument : write'.document = write.document) :
    Latest p of first (writes.set i write') value := by
  rcases h with ⟨hvalue, hnone⟩ | ⟨m, last, hm, hlast, hvalue, hlater⟩
  · refine .inl ⟨hvalue, ?_⟩
    intro other hother
    rcases List.mem_or_eq_of_mem_set hother with hother | rfl
    · exact hnone other hother
    · rw [hp, hnone write (List.mem_of_getElem? hi)]
  · have hafter : ∀ (j : Nat) later, m < j → (writes.set i write')[j]? = some later → p later = false := by
      intro j later hj hset
      rcases getElem?_set_some hi hset with ⟨rfl, rfl⟩ | ⟨-, hset⟩
      · rw [hp, hlater j write hj hi]
      · exact hlater j later hj hset
    by_cases him : i = m
    · subst him
      obtain rfl : last = write := Option.some.inj (hm.symm.trans hi)
      refine .inr ⟨i, write', ?_, by rw [hp, hlast], by rw [hvalue, hdocument], hafter⟩
      rw [List.getElem?_set_self (List.getElem?_eq_some_iff.mp hi).1]
    · refine .inr ⟨m, last, ?_, hlast, hvalue, hafter⟩
      rw [List.getElem?_set_ne him, hm]

theorem Latest.set_last {i : Nat} {write : Write D C O} (write' : Write D C O) (hi : writes[i]? = some write)
    (hp : p write' = true) (hlater : ∀ (j : Nat) later, i < j → writes[j]? = some later → p later = false) :
    Latest p of first (writes.set i write') (of write'.document) := by
  refine .inr ⟨i, write', ?_, hp, rfl, ?_⟩
  · rw [List.getElem?_set_self (List.getElem?_eq_some_iff.mp hi).1]
  · intro j later hj hset
    rcases getElem?_set_some hi hset with ⟨rfl, rfl⟩ | ⟨-, hset⟩
    · exact absurd hj (Nat.lt_irrefl _)
    · exact hlater j later hj hset

end Latest

section Runs

variable (look : D → A → V) (writes : C → A → Option V) (encode : D → S) (accepts : O → Bool)

/-- The answer about to come is no acceptance, or everything accepted that its write was sent
behind has been answered and is written over by it. -/
def InOrder (s : Client D C O S) (i : Nat) : Prop :=
  ∀ write, s.writes[i]? = some write → write.progress.accepted accepts = true →
    ∀ k ∈ write.behind, ∀ earlier, s.writes[k]? = some earlier → earlier.progress.accepted accepts = true →
      earlier.progress.isAnswered = true ∧ Overwrites writes write.change earlier.change

/-- The changes a write's document carries: its own, and those it was not sent behind. -/
def carried (s : Client D C O S) (j : Nat) (write : Write D C O) (i : Nat) : Option C :=
  if i = j then some write.change
  else if i < j ∧ i ∉ write.behind then acceptedChanges accepts s i
  else none

def confirmedChanges (s : Client D C O S) (i : Nat) : Option C :=
  s.writes[i]?.bind fun write => if write.progress.confirmed accepts then some write.change else none

/-- What the writes of a client owe to one another. -/
structure Carrying (s : Client D C O S) : Prop where
  taken_in_order : ∀ (i j : Nat) earlier later, i < j → s.writes[i]? = some earlier →
    s.writes[j]? = some later → earlier.progress.isSent = true → later.progress.isSent = true
  answered_unless_behind : ∀ (i j : Nat) earlier later, i < j → s.writes[i]? = some earlier →
    s.writes[j]? = some later → i ∉ later.behind → earlier.progress.isAnswered = true
  overwritten_if_behind : ∀ (i j : Nat) earlier later, i < j → s.writes[i]? = some earlier →
    s.writes[j]? = some later → i ∈ later.behind → later.progress.confirmed accepts = true →
    earlier.progress.accepted accepts = true →
      earlier.progress.isAnswered = true ∧ Overwrites writes later.change earlier.change
  carries : ∀ (j : Nat) write, s.writes[j]? = some write →
    Reflects look writes write.document (carried accepts s j write)

structure Sound (shown₀ : D) (stored₀ : S) (s : Client D C O S) : Prop extends
    Carrying look writes accepts s where
  shows : Latest (fun write => write.progress.confirmed accepts) id shown₀ s.writes s.shown
  stores : Latest (fun write => write.progress.accepted accepts) encode stored₀ s.writes s.stored

variable {look writes encode accepts} {shown₀ : D} {stored₀ : S} {s : Client D C O S}

theorem confirmedChanges_eq_some {i : Nat} {change : C} :
    confirmedChanges accepts s i = some change ↔ ∃ write, s.writes[i]? = some write ∧
      write.progress.confirmed accepts = true ∧ write.change = change := by
  simp only [confirmedChanges, Option.bind_eq_some_iff, Option.ite_none_right_eq_some, Option.some.injEq]

theorem acceptedChanges_eq_some {i : Nat} {change : C} :
    acceptedChanges accepts s i = some change ↔ ∃ write, s.writes[i]? = some write ∧
      write.progress.accepted accepts = true ∧ write.change = change := by
  simp only [acceptedChanges, Option.bind_eq_some_iff, Option.ite_none_right_eq_some, Option.some.injEq]

/-- What is shown has every change confirmed so far. -/
theorem Sound.reflects_shown (h : Sound look writes encode accepts shown₀ stored₀ s) :
    Reflects look writes s.shown (confirmedChanges accepts s) := by
  rcases h.shows with ⟨-, hnone⟩ | ⟨m, write, hm, hconfirmed, hshown, hlast⟩
  · intro i change a value hi
    obtain ⟨write, hwrite, hconfirmed, -⟩ := confirmedChanges_eq_some.mp hi
    have hnot : write.progress.confirmed accepts = false := hnone write (List.mem_of_getElem? hwrite)
    rw [hconfirmed] at hnot
    cases hnot
  rw [hshown]
  refine Reflects.of_overwritten (h.carries m write hm) ?_ ?_
  · intro i change hi
    simp only [carried] at hi
    split at hi
    · rename_i him
      rw [him]
      exact confirmedChanges_eq_some.mpr ⟨write, hm, hconfirmed, Option.some.inj hi⟩
    split at hi
    · rename_i hbefore
      obtain ⟨earlier, hearlier, haccepted, hchange⟩ := acceptedChanges_eq_some.mp hi
      have hanswered := h.answered_unless_behind i m earlier write hbefore.1 hearlier hm hbefore.2
      exact confirmedChanges_eq_some.mpr
        ⟨earlier, hearlier, Progress.confirmed_iff.mpr ⟨hanswered, haccepted⟩, hchange⟩
    · cases hi
  · intro i change hi
    obtain ⟨earlier, hearlier, hconfirmed', rfl⟩ := confirmedChanges_eq_some.mp hi
    have haccepted := (Progress.confirmed_iff.mp hconfirmed').2
    have hle : i ≤ m := by
      by_contra hlt
      have hnot : earlier.progress.confirmed accepts = false := hlast i earlier (by omega) hearlier
      rw [hconfirmed'] at hnot
      cases hnot
    by_cases him : i = m
    · subst him
      obtain rfl : earlier = write := Option.some.inj (hearlier.symm.trans hm)
      exact .inl (if_pos rfl)
    have hlt : i < m := by omega
    by_cases hbehind : i ∈ write.behind
    · have hover := h.overwritten_if_behind i m earlier write hlt hearlier hm hbehind hconfirmed haccepted
      exact .inr ⟨m, write.change, hlt, confirmedChanges_eq_some.mpr ⟨write, hm, hconfirmed, rfl⟩, hover.2⟩
    · refine .inl ?_
      rw [carried, if_neg him, if_pos ⟨hlt, hbehind⟩]
      exact acceptedChanges_eq_some.mpr ⟨earlier, hearlier, haccepted, rfl⟩

theorem mem_unanswered {i : Nat} :
    i ∈ s.unanswered ↔ ∃ write, s.writes[i]? = some write ∧ write.progress.isAnswered = false := by
  simp only [Client.unanswered, List.mem_filter, List.mem_range, Option.any_eq_true, Bool.not_eq_true']
  constructor
  · exact fun h => h.2
  · rintro ⟨write, hwrite, hanswered⟩
    exact ⟨(List.getElem?_eq_some_iff.mp hwrite).1, write, hwrite, hanswered⟩

theorem acceptedChanges_eq_confirmed {i : Nat} (h : i ∉ s.unanswered) :
    acceptedChanges accepts s i = confirmedChanges accepts s i := by
  rw [acceptedChanges, confirmedChanges]
  cases hwrite : s.writes[i]? with
  | none => rfl
  | some write =>
    have hanswered : write.progress.isAnswered = true := by
      by_contra hanswered
      rw [Bool.not_eq_true] at hanswered
      exact h (mem_unanswered.mpr ⟨write, hwrite, hanswered⟩)
    have hsame : write.progress.accepted accepts = write.progress.confirmed accepts := by
      rw [Bool.eq_iff_iff, Progress.confirmed_iff]
      exact ⟨fun haccepted => ⟨hanswered, haccepted⟩, And.right⟩
    rw [Option.bind_some, Option.bind_some, hsame]

theorem acceptedChanges_send {change : C} {document : D} {i : Nat} (hi : i < s.writes.length) :
    acceptedChanges accepts (s.send change document) i = acceptedChanges accepts s i := by
  rw [acceptedChanges, acceptedChanges, Client.send, List.getElem?_append_left hi]

theorem carried_send_of_lt {change : C} {document : D} {j : Nat} (hj : j < s.writes.length)
    {write : Write D C O} : carried accepts (s.send change document) j write = carried accepts s j write := by
  funext i
  simp only [carried]
  split
  · rfl
  split
  · rename_i hbefore
    exact acceptedChanges_send (by omega)
  · rfl

theorem carried_send_last {change : C} {document : D} {i : Nat} (hne : i ≠ s.writes.length) :
    carried accepts (s.send change document) s.writes.length ⟨change, document, s.unanswered, .sent⟩ i =
      confirmedChanges accepts s i := by
  rw [carried, if_neg hne]
  split
  · rename_i hbefore
    rw [acceptedChanges_send hbefore.1]
    exact acceptedChanges_eq_confirmed hbefore.2
  · rename_i hbefore
    rw [eq_comm, ← Option.not_isSome_iff_eq_none, Option.isSome_iff_exists]
    rintro ⟨c, hc⟩
    obtain ⟨earlier, hearlier, hconfirmed, -⟩ := confirmedChanges_eq_some.mp hc
    refine hbefore ⟨(List.getElem?_eq_some_iff.mp hearlier).1, fun hbehind => ?_⟩
    obtain ⟨other, hother, hanswered⟩ := mem_unanswered.mp hbehind
    obtain rfl : other = earlier := Option.some.inj (hother.symm.trans hearlier)
    rw [(Progress.confirmed_iff.mp hconfirmed).1] at hanswered
    cases hanswered

theorem Sound.send (h : Sound look writes encode accepts shown₀ stored₀ s) {change : C} {document : D}
    (hlook : ∀ a, look document a = (writes change a).getD (look s.shown a)) :
    Sound look writes encode accepts shown₀ stored₀ (s.send change document) where
  taken_in_order i j earlier later hij hi hj hsent := by
    obtain ⟨hi, hj | ⟨-, rfl⟩⟩ := getElem?_append_pair hij hi hj
    · exact h.taken_in_order i j earlier later hij hi hj hsent
    · rfl
  answered_unless_behind i j earlier later hij hi hj hbehind := by
    obtain ⟨hi, hj | ⟨-, rfl⟩⟩ := getElem?_append_pair hij hi hj
    · exact h.answered_unless_behind i j earlier later hij hi hj hbehind
    · by_contra hanswered
      rw [Bool.not_eq_true] at hanswered
      exact hbehind (mem_unanswered.mpr ⟨earlier, hi, hanswered⟩)
  overwritten_if_behind i j earlier later hij hi hj hbehind hconfirmed haccepted := by
    obtain ⟨hi, hj | ⟨-, rfl⟩⟩ := getElem?_append_pair hij hi hj
    · exact h.overwritten_if_behind i j earlier later hij hi hj hbehind hconfirmed haccepted
    · cases hconfirmed
  carries j write hj := by
    rcases getElem?_append_one hj with hj | ⟨rfl, rfl⟩
    · rw [carried_send_of_lt (List.getElem?_eq_some_iff.mp hj).1]
      exact h.carries j write hj
    · refine h.reflects_shown.made hlook ?_ (if_pos rfl) fun i hne => carried_send_last hne
      intro i c hi
      obtain ⟨earlier, hearlier, -⟩ := confirmedChanges_eq_some.mp hi
      exact (List.getElem?_eq_some_iff.mp hearlier).1
  shows := h.shows.append rfl
  stores := h.stores.append rfl

theorem acceptedChanges_set {i : Nat} {write : Write D C O} {progress : Progress O} {t : Client D C O S}
    (hi : s.writes[i]? = some write) (ht : t.writes = s.writes.set i { write with progress }) {k : Nat}
    (hk : k = i → progress.accepted accepts = write.progress.accepted accepts) :
    acceptedChanges accepts t k = acceptedChanges accepts s k := by
  rw [acceptedChanges, acceptedChanges, ht]
  by_cases hki : k = i
  · subst hki
    rw [List.getElem?_set_self (List.getElem?_eq_some_iff.mp hi).1, hi, Option.bind_some, Option.bind_some,
      hk rfl]
  · rw [List.getElem?_set_ne (Ne.symm hki)]

theorem not_accepted_of_sent {progress : Progress O} (h : progress.isSent = true) :
    progress.accepted accepts = false := by
  cases progress with
  | sent => rfl
  | taken outcome => cases h
  | answered outcome => cases h

theorem not_answered_of_sent {progress : Progress O} (h : progress.isSent = true) :
    progress.isAnswered = false := by
  cases progress with
  | sent => rfl
  | taken outcome => cases h
  | answered outcome => cases h

/-- What a write carries had been answered for when it was sent: a write going further changes none of it. -/
theorem Carrying.carried_advance (h : Carrying look writes accepts s) {i : Nat} {write : Write D C O}
    {progress : Progress O} {t : Client D C O S} (hi : s.writes[i]? = some write)
    (ht : t.writes = s.writes.set i { write with progress })
    (hkept : write.progress.isSent = false → progress.accepted accepts = write.progress.accepted accepts)
    {j : Nat} {later later' : Write D C O} (hj : s.writes[j]? = some later')
    (hchange : later'.change = later.change) (hbehind : later'.behind = later.behind) :
    carried accepts t j later = carried accepts s j later' := by
  funext k
  rw [carried, carried, hchange, hbehind]
  split
  · rfl
  split
  · rename_i hbetween
    refine acceptedChanges_set hi ht ?_
    rintro rfl
    apply hkept
    by_contra hsent
    rw [Bool.not_eq_false] at hsent
    have hanswered := h.answered_unless_behind k j write later' hbetween.1 hi hj (hbehind ▸ hbetween.2)
    rw [not_answered_of_sent hsent] at hanswered
    cases hanswered
  · rfl

theorem Carrying.advance (h : Carrying look writes accepts s) {i : Nat} {write : Write D C O}
    {progress : Progress O} {t : Client D C O S} (hi : s.writes[i]? = some write)
    (ht : t.writes = s.writes.set i { write with progress }) (htaken : progress.isSent = false)
    (hbefore : ∀ (k : Nat) earlier, k < i → s.writes[k]? = some earlier → earlier.progress.isSent = false)
    (hmono : write.progress.isAnswered = true → progress.isAnswered = true)
    (hkept : write.progress.isSent = false → progress.accepted accepts = write.progress.accepted accepts)
    (hover : progress.confirmed accepts = true → ∀ k ∈ write.behind, ∀ earlier, s.writes[k]? = some earlier →
      earlier.progress.accepted accepts = true →
        earlier.progress.isAnswered = true ∧ Overwrites writes write.change earlier.change) :
    Carrying look writes accepts t where
  taken_in_order k j earlier later hkj hk hj hsent := by
    rw [ht] at hk hj
    rcases getElem?_set_some hi hk with ⟨-, rfl⟩ | ⟨-, hold⟩
    · rw [htaken] at hsent
      cases hsent
    rcases getElem?_set_some hi hj with ⟨rfl, -⟩ | ⟨-, hlast⟩
    · rw [hbefore k earlier hkj hold] at hsent
      cases hsent
    · exact h.taken_in_order k j earlier later hkj hold hlast hsent
  answered_unless_behind k j earlier later hkj hk hj hbehind := by
    rw [ht] at hk hj
    obtain ⟨later', hj', hsame⟩ : ∃ later', s.writes[j]? = some later' ∧ later'.behind = later.behind := by
      rcases getElem?_set_some hi hj with ⟨rfl, rfl⟩ | ⟨-, hj⟩
      · exact ⟨write, hi, rfl⟩
      · exact ⟨later, hj, rfl⟩
    rw [← hsame] at hbehind
    rcases getElem?_set_some hi hk with ⟨rfl, rfl⟩ | ⟨-, hold⟩
    · exact hmono (h.answered_unless_behind k j write later' hkj hi hj' hbehind)
    · exact h.answered_unless_behind k j earlier later' hkj hold hj' hbehind
  overwritten_if_behind k j earlier later hkj hk hj hbehind hconfirmed haccepted := by
    rw [ht] at hk hj
    rcases getElem?_set_some hi hj with ⟨rfl, rfl⟩ | ⟨-, hlast⟩
    · rcases getElem?_set_some hi hk with ⟨rfl, -⟩ | ⟨-, hold⟩
      · exact absurd hkj (Nat.lt_irrefl _)
      · exact hover hconfirmed k hbehind earlier hold haccepted
    · rcases getElem?_set_some hi hk with ⟨rfl, rfl⟩ | ⟨-, hold⟩
      · cases hsent : write.progress.isSent with
        | true =>
          have hlater := not_answered_of_sent (h.taken_in_order k j write later hkj hi hlast hsent)
          rw [(Progress.confirmed_iff.mp hconfirmed).1] at hlater
          cases hlater
        | false =>
          have haccepted' : write.progress.accepted accepts = true := (hkept hsent).symm.trans haccepted
          have hwritten := h.overwritten_if_behind k j write later hkj hi hlast hbehind hconfirmed haccepted'
          exact ⟨hmono hwritten.1, hwritten.2⟩
      · exact h.overwritten_if_behind k j earlier later hkj hold hlast hbehind hconfirmed haccepted
  carries j later hj := by
    rw [ht] at hj
    obtain ⟨later', hj', hchange, hdocument, hbehind⟩ : ∃ later', s.writes[j]? = some later' ∧
        later'.change = later.change ∧ later'.document = later.document ∧ later'.behind = later.behind := by
      rcases getElem?_set_some hi hj with ⟨rfl, rfl⟩ | ⟨-, hj⟩
      · exact ⟨write, hi, rfl, rfl, rfl⟩
      · exact ⟨later, hj, rfl, rfl, rfl⟩
    rw [h.carried_advance hi ht hkept hj' hchange hbehind, ← hdocument]
    exact h.carries j later' hj'

theorem take_eq_some {outcome : O} {t : Client D C O S} (h : s.take encode accepts outcome = some t) :
    ∃ (i : Nat) (write : Write D C O), s.writes[i]? = some write ∧ write.progress.isSent = true ∧
      (∀ (k : Nat) earlier, k < i → s.writes[k]? = some earlier → earlier.progress.isSent = false) ∧
      t = { s with
        stored := if accepts outcome then encode write.document else s.stored
        writes := s.writes.set i { write with progress := .taken outcome } } := by
  rw [Client.take] at h
  split at h
  · cases h
  · rename_i i hfind
    obtain ⟨write, hwrite, rfl⟩ := Option.map_eq_some_iff.mp h
    obtain ⟨hlt, hsent, hbefore⟩ := List.findIdx?_eq_some_iff_getElem.mp hfind
    have hi := List.getElem?_eq_some_iff.mp hwrite
    refine ⟨i, write, hwrite, hi.2 ▸ hsent, ?_, rfl⟩
    intro k earlier hk hearlier
    obtain ⟨hklt, rfl⟩ := List.getElem?_eq_some_iff.mp hearlier
    simpa using hbefore k hk

theorem Sound.take (h : Sound look writes encode accepts shown₀ stored₀ s) {outcome : O} {t : Client D C O S}
    (ht : s.take encode accepts outcome = some t) : Sound look writes encode accepts shown₀ stored₀ t := by
  obtain ⟨i, write, hi, hsent, hbefore, rfl⟩ := take_eq_some ht
  refine ⟨h.toCarrying.advance hi rfl rfl hbefore ?_ ?_ ?_, ?_, ?_⟩
  · intro hanswered
    rw [not_answered_of_sent hsent] at hanswered
    cases hanswered
  · intro htaken
    rw [hsent] at htaken
    cases htaken
  · intro hconfirmed
    cases hconfirmed
  · refine h.shows.set_same hi ?_ rfl
    cases hprogress : write.progress with
    | sent => rfl
    | taken outcome => rfl
    | answered outcome =>
      rw [hprogress] at hsent
      cases hsent
  · change Latest _ encode stored₀ _ (if accepts outcome then encode write.document else s.stored)
    by_cases haccepts : accepts outcome = true
    · rw [if_pos haccepts]
      refine Latest.set_last { write with progress := .taken outcome } hi haccepts ?_
      intro j later hj hlater
      exact not_accepted_of_sent (h.taken_in_order i j write later hj hi hlater hsent)
    · rw [if_neg haccepts]
      refine h.stores.set_same hi ?_ rfl
      rw [not_accepted_of_sent hsent]
      exact Bool.not_eq_true _ |>.mp haccepts

theorem answer_eq_some {i : Nat} {write : Write D C O} {outcome : O} {t : Client D C O S}
    (h : s.answer accepts i = some (write, outcome, t)) :
    s.writes[i]? = some write ∧ write.progress = .taken outcome ∧
      t = { s with
        shown := if accepts outcome then write.document else s.shown
        writes := s.writes.set i { write with progress := .answered outcome } } := by
  rw [Client.answer] at h
  split at h
  · rename_i found hfound
    split at h
    · rename_i taken htaken
      cases h
      exact ⟨hfound, htaken, rfl⟩
    · cases h
  · cases h

theorem Sound.answer (h : Sound look writes encode accepts shown₀ stored₀ s) {i : Nat} {write : Write D C O}
    {outcome : O} {t : Client D C O S} (ht : s.answer accepts i = some (write, outcome, t))
    (horder : InOrder writes accepts s i) : Sound look writes encode accepts shown₀ stored₀ t := by
  obtain ⟨hi, htaken, rfl⟩ := answer_eq_some ht
  have hkept : (Progress.answered outcome).accepted accepts = write.progress.accepted accepts := by
    rw [htaken]
    rfl
  have hbefore : ∀ (k : Nat) earlier, k < i → s.writes[k]? = some earlier →
      earlier.progress.isSent = false := by
    intro k earlier hk hearlier
    by_contra hsent
    rw [Bool.not_eq_false] at hsent
    have hlater := h.taken_in_order k i earlier write hk hearlier hi hsent
    rw [htaken] at hlater
    cases hlater
  refine ⟨h.toCarrying.advance hi rfl rfl hbefore (fun _ => rfl) (fun _ => hkept) ?_, ?_, ?_⟩
  · intro hconfirmed
    exact horder write hi (hkept ▸ hconfirmed)
  · change Latest _ id shown₀ _ (if accepts outcome then write.document else s.shown)
    by_cases haccepts : accepts outcome = true
    · rw [if_pos haccepts]
      refine Latest.set_last { write with progress := .answered outcome } hi haccepts ?_
      intro j later hj hlater
      -- A later write confirmed before this one was sent behind it, and would have come out of order.
      by_contra hconfirmed
      rw [Bool.not_eq_false] at hconfirmed
      have hbehind : i ∈ later.behind := by
        by_contra hbehind
        have hanswered := h.answered_unless_behind i j write later hj hi hlater hbehind
        rw [htaken] at hanswered
        cases hanswered
      have hanswered := (h.overwritten_if_behind i j write later hj hi hlater hbehind hconfirmed
        (hkept.symm.trans haccepts)).1
      rw [htaken] at hanswered
      cases hanswered
    · rw [if_neg haccepts]
      refine h.shows.set_same hi ?_ rfl
      rw [htaken]
      exact Bool.not_eq_true _ |>.mp haccepts
  · exact h.stores.set_same hi hkept rfl

theorem Sound.start (shown₀ : D) (stored₀ : S) :
    Sound look writes encode accepts shown₀ stored₀ (⟨shown₀, stored₀, []⟩ : Client D C O S) where
  taken_in_order _ _ _ _ _ h := by cases h
  answered_unless_behind _ _ _ _ _ h := by cases h
  overwritten_if_behind _ _ _ _ _ h := by cases h
  carries _ _ h := by cases h
  shows := .inl ⟨rfl, fun _ h => absurd h List.not_mem_nil⟩
  stores := .inl ⟨rfl, fun _ h => absurd h List.not_mem_nil⟩

/-- With every write answered, what is shown has every accepted change, and is what is stored. -/
theorem Sound.settled (h : Sound look writes encode accepts shown₀ stored₀ s) (hall : AllAnswered s) :
    Reflects look writes s.shown (acceptedChanges accepts s) ∧
      (s.shown = shown₀ ∧ s.stored = stored₀ ∨ s.stored = encode s.shown) := by
  have hsame : ∀ write ∈ s.writes, write.progress.confirmed accepts = write.progress.accepted accepts := by
    intro write hwrite
    rw [Bool.eq_iff_iff, Progress.confirmed_iff]
    exact ⟨And.right, fun haccepted => ⟨hall write hwrite, haccepted⟩⟩
  constructor
  · have hchanges : acceptedChanges accepts s = confirmedChanges accepts s := by
      funext i
      refine acceptedChanges_eq_confirmed fun hi => ?_
      obtain ⟨write, hwrite, hanswered⟩ := mem_unanswered.mp hi
      rw [hall write (List.mem_of_getElem? hwrite)] at hanswered
      cases hanswered
    rw [hchanges]
    exact h.reflects_shown
  rcases h.shows with ⟨hshown, hnone⟩ | ⟨m, write, hm, hconfirmed, hshown, hlast⟩
  · rcases h.stores with ⟨hstored, -⟩ | ⟨n, other, hn, haccepted, -, -⟩
    · exact .inl ⟨hshown, hstored⟩
    · have hmem := List.mem_of_getElem? hn
      exact absurd ((hsame other hmem).trans haccepted) (by simp [hnone other hmem])
  · rcases h.stores with ⟨-, hnone⟩ | ⟨n, other, hn, haccepted, hstored, hlater⟩
    · have hmem := List.mem_of_getElem? hm
      exact absurd ((hsame write hmem).symm.trans hconfirmed) (by simp [hnone write hmem])
    · have hmn : m = n := by
        rcases Nat.lt_trichotomy m n with hlt | heq | hgt
        · have hother := (hsame other (List.mem_of_getElem? hn)).trans haccepted
          exact absurd hother (by simp [hlast n other hlt hn])
        · exact heq
        · have hwrite := (hsame write (List.mem_of_getElem? hm)).symm.trans hconfirmed
          exact absurd hwrite (by simp [hlater m write hgt hm])
      subst hmn
      obtain rfl : write = other := Option.some.inj (hm.symm.trans hn)
      exact .inr (by rw [hstored, hshown]; rfl)

end Runs

end WholeDocument
