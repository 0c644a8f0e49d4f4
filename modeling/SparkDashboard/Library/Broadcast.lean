import Mathlib.Data.List.Basic
import Mathlib.Data.List.Induction
import Mathlib.Data.Nat.Basic
import SparkDashboard.Library.Stepping

/-!
# Broadcast channels

A channel keeps the last values sent, for receivers that take them at their own pace. A
receiver that has fallen behind what is kept is told how many values it missed and goes on
with the oldest kept one.
-/

namespace Broadcast

universe u

variable {α : Type u} {capacity : ℕ}

inductive Received (α : Type u) where
  | value (a : α)
  | lagged (skipped : ℕ)
  deriving DecidableEq, Repr

def Received.value? : Received α → Option α
  | .value a => some a
  | .lagged _ => none

def Received.skipped : Received α → ℕ
  | .value _ => 0
  | .lagged n => n

/-- A channel as those who use it know it: it stands for the values ever sent on it, a new receiver
starts behind the last of them, and what a receiver is given, if it need not wait, depends only on
where it stands. The last `capacity` values are kept. -/
structure Interface (α : Type u) (capacity : ℕ) where
  Chan : Type u
  new : Chan
  send : Chan → α → Chan
  subscribe : Chan → ℕ
  recv : Chan → ℕ → Option (Received α × ℕ)
  Holds : Chan → List α → Prop
  holds_new : Holds new []
  holds_send : ∀ {c history}, Holds c history → ∀ a, Holds (send c a) (history ++ [a])
  subscribe_eq : ∀ {c history}, Holds c history → subscribe c = history.length
  recv_eq : ∀ {c history}, Holds c history → ∀ next, recv c next =
    if next < history.length - capacity then
      some (.lagged (history.length - capacity - next), history.length - capacity)
    else history[next]?.map fun a => (.value a, next + 1)

/-- A bounded buffer and a count. -/
structure Buffer (α : Type u) (capacity : ℕ) where
  tail : ℕ
  /-- The last values sent, oldest first. -/
  kept : List α
  length_kept : kept.length = min tail capacity
  deriving DecidableEq, Repr

namespace Buffer

def new : Buffer α capacity := ⟨0, [], by simp⟩

theorem length_kept_send (c : Buffer α capacity) (a : α) :
    ((c.kept ++ [a]).drop (c.kept.length + 1 - capacity)).length = min (c.tail + 1) capacity := by
  have hkept := c.length_kept
  rw [List.length_drop, List.length_append, List.length_singleton]
  omega

def send (c : Buffer α capacity) (a : α) : Buffer α capacity :=
  ⟨c.tail + 1, (c.kept ++ [a]).drop (c.kept.length + 1 - capacity), c.length_kept_send a⟩

def oldest (c : Buffer α capacity) : ℕ := c.tail - c.kept.length

def recv (c : Buffer α capacity) (next : ℕ) : Option (Received α × ℕ) :=
  if next < c.oldest then some (.lagged (c.oldest - next), c.oldest)
  else c.kept[next - c.oldest]?.map fun a => (.value a, next + 1)

structure Holds (c : Buffer α capacity) (history : List α) : Prop where
  tail_eq : c.tail = history.length
  kept_eq : c.kept = history.drop (history.length - capacity)

theorem Holds.send {c : Buffer α capacity} {history : List α} (h : c.Holds history) (a : α) :
    (c.send a).Holds (history ++ [a]) := by
  have htail : (c.send a).tail = c.tail + 1 := rfl
  refine ⟨by rw [htail, h.tail_eq, List.length_append, List.length_singleton], ?_⟩
  have hlength : c.kept.length = min history.length capacity := by rw [c.length_kept, h.tail_eq]
  have hkept : c.kept ++ [a] = (history ++ [a]).drop (history.length - capacity) := by
    rw [h.kept_eq, List.drop_append_of_le_length (Nat.sub_le _ _)]
  change (c.kept ++ [a]).drop (c.kept.length + 1 - capacity) = _
  rw [hkept, List.drop_drop, List.length_append, List.length_singleton]
  congr 1
  omega

theorem Holds.recv_eq {c : Buffer α capacity} {history : List α} (h : c.Holds history) (next : ℕ) :
    c.recv next =
      if next < history.length - capacity then
        some (.lagged (history.length - capacity - next), history.length - capacity)
      else history[next]?.map fun a => (.value a, next + 1) := by
  have holdest : c.oldest = history.length - capacity := by
    have hlength := c.length_kept
    rw [oldest, h.tail_eq, hlength, h.tail_eq]
    omega
  rw [recv, holdest]
  split
  · rfl
  · rename_i hnext
    rw [h.kept_eq, List.getElem?_drop, Nat.add_sub_cancel' (Nat.le_of_not_lt hnext)]

def interface (α : Type u) (capacity : ℕ) : Interface α capacity where
  Chan := Buffer α capacity
  new := new
  send := send
  subscribe := tail
  recv := recv
  Holds := Holds
  holds_new := ⟨rfl, List.drop_nil.symm⟩
  holds_send h a := h.send a
  subscribe_eq h := h.tail_eq
  recv_eq h next := h.recv_eq next

end Buffer

namespace Interface

variable (B : Interface α capacity) {c : B.Chan} {history : List α}

/-- A receiver waits exactly when it has taken all there is. -/
theorem recv_eq_none_iff (h : B.Holds c history) {next : ℕ} : B.recv c next = none ↔ history.length ≤ next := by
  rw [B.recv_eq h]
  split
  · refine iff_of_false nofun ?_
    omega
  · rw [Option.map_eq_none_iff, List.getElem?_eq_none_iff]

/-- Only a receiver with more to take than the channel keeps is told that it lags. -/
theorem lt_of_lagged (h : B.Holds c history) {next n next' : ℕ} (hrecv : B.recv c next = some (.lagged n, next')) :
    next + capacity < history.length := by
  rw [B.recv_eq h] at hrecv
  split at hrecv
  · omega
  · obtain ⟨a, -, heq⟩ := Option.map_eq_some_iff.mp hrecv
    cases (Prod.mk.inj heq).1

end Interface

/-- The answers take the values up in order, each handed over or counted, and leave the rest. -/
inductive Accounts : List α → List (Received α) → List α → Prop where
  | done (values : List α) : Accounts values [] values
  | value (a : α) {values : List α} {answers : List (Received α)} {rest : List α}
      (h : Accounts values answers rest) : Accounts (a :: values) (.value a :: answers) rest
  | lagged (missed : List α) {values : List α} {answers : List (Received α)} {rest : List α}
      (h : Accounts values answers rest) : Accounts (missed ++ values) (.lagged missed.length :: answers) rest

def handed (answers : List (Received α)) : List α := answers.filterMap Received.value?

def skipped (answers : List (Received α)) : ℕ := answers.foldr (fun answer n => answer.skipped + n) 0

@[simp] theorem handed_value (a : α) (answers : List (Received α)) :
    handed (.value a :: answers) = a :: handed answers := rfl

@[simp] theorem handed_lagged (n : ℕ) (answers : List (Received α)) :
    handed (.lagged n :: answers) = handed answers := rfl

@[simp] theorem skipped_value (a : α) (answers : List (Received α)) :
    skipped (.value a :: answers) = skipped answers := Nat.zero_add _

@[simp] theorem skipped_lagged (n : ℕ) (answers : List (Received α)) :
    skipped (.lagged n :: answers) = n + skipped answers := rfl

theorem handed_append (first later : List (Received α)) : handed (first ++ later) = handed first ++ handed later :=
  List.filterMap_append

theorem skipped_append (first later : List (Received α)) :
    skipped (first ++ later) = skipped first + skipped later := by
  induction first with
  | nil => exact (Nat.zero_add _).symm
  | cons answer first ih => exact (congrArg (answer.skipped + ·) ih).trans (Nat.add_assoc _ _ _).symm

namespace Accounts

variable {values rest : List α} {answers : List (Received α)}

theorem handed_sublist (h : Accounts values answers rest) : (handed answers).Sublist values := by
  induction h with
  | done values => exact List.nil_sublist values
  | value a h ih => exact ih.cons_cons a
  | lagged missed h ih => exact ih.trans (List.sublist_append_right missed _)

theorem length_eq (h : Accounts values answers rest) :
    (handed answers).length + skipped answers + rest.length = values.length := by
  induction h with
  | done values => simp [handed, skipped]
  | value a h ih =>
    rw [handed_value, skipped_value, List.length_cons, List.length_cons]
    omega
  | lagged missed h ih =>
    rw [handed_lagged, skipped_lagged, List.length_append]
    omega

theorem eq_append_of_skipped_eq_zero (h : Accounts values answers rest) (hskipped : skipped answers = 0) :
    values = handed answers ++ rest := by
  induction h with
  | done values => rfl
  | value a h ih =>
    rw [skipped_value] at hskipped
    rw [ih hskipped]
    rfl
  | lagged missed h ih =>
    rw [skipped_lagged] at hskipped
    obtain ⟨hmissed, hlater⟩ := Nat.add_eq_zero_iff.mp hskipped
    rw [List.eq_nil_of_length_eq_zero hmissed, List.nil_append]
    exact ih hlater

theorem append_values (h : Accounts values answers rest) (more : List α) :
    Accounts (values ++ more) answers (rest ++ more) := by
  induction h with
  | done values => exact .done _
  | value a h ih => exact .value a ih
  | lagged missed h ih =>
    rw [List.append_assoc]
    exact .lagged missed ih

theorem append {answers' : List (Received α)} {rest' : List α} (h : Accounts values answers rest)
    (h' : Accounts rest answers' rest') : Accounts values (answers ++ answers') rest' := by
  induction h with
  | done values => exact h'
  | value a h ih => exact .value a (ih h')
  | lagged missed h ih => exact .lagged missed (ih h')

end Accounts

/-- How a receiver that subscribed at `start` and stands at `next` has fared on the channel. -/
structure Reading (history : List α) (start next : ℕ) (answers : List (Received α)) : Prop where
  start_le : start ≤ next
  next_le : next ≤ history.length
  accounts : Accounts (history.drop start) answers (history.drop next)

namespace Reading

variable {history : List α} {start next : ℕ} {answers : List (Received α)}

theorem subscribe (history : List α) : Reading history history.length history.length [] :=
  ⟨le_rfl, le_rfl, .done _⟩

theorem send (h : Reading history start next answers) (a : α) : Reading (history ++ [a]) start next answers := by
  refine ⟨h.start_le, ?_, ?_⟩
  · rw [List.length_append]
    exact Nat.le_trans h.next_le (Nat.le_add_right _ _)
  · rw [List.drop_append_of_le_length (Nat.le_trans h.start_le h.next_le), List.drop_append_of_le_length h.next_le]
    exact h.accounts.append_values [a]

theorem recv (B : Interface α capacity) {c : B.Chan} (hc : B.Holds c history)
    (h : Reading history start next answers) {received : Received α} {next' : ℕ}
    (hrecv : B.recv c next = some (received, next')) :
    Reading history start next' (answers ++ [received]) := by
  rw [B.recv_eq hc] at hrecv
  split at hrecv
  · rename_i hbehind
    obtain ⟨rfl, rfl⟩ := Prod.mk.inj (Option.some.inj hrecv)
    have hmissed : ((history.drop next).take (history.length - capacity - next)).length =
        history.length - capacity - next := by
      rw [List.length_take, List.length_drop]
      omega
    have hsplit : history.drop next =
        (history.drop next).take (history.length - capacity - next) ++ history.drop (history.length - capacity) := by
      conv_lhs => rw [← List.take_append_drop (history.length - capacity - next) (history.drop next)]
      rw [List.drop_drop, Nat.add_sub_cancel' (Nat.le_of_lt hbehind)]
    refine ⟨Nat.le_trans h.start_le (Nat.le_of_lt hbehind), Nat.sub_le _ _, h.accounts.append ?_⟩
    rw [hsplit]
    conv => enter [2, 1]; rw [← hmissed]
    exact .lagged _ (.done _)
  · obtain ⟨a, ha, heq⟩ := Option.map_eq_some_iff.mp hrecv
    obtain ⟨rfl, rfl⟩ := Prod.mk.inj heq
    obtain ⟨hlt, hget⟩ := List.getElem?_eq_some_iff.mp ha
    refine ⟨Nat.le_trans h.start_le (Nat.le_succ _), hlt, h.accounts.append ?_⟩
    rw [List.drop_eq_getElem_cons hlt, hget]
    exact .value a (.done _)

end Reading

section Relay

open Stepping

variable {B : Interface α capacity}

/-- What comes of a round: the value went on, was found missing, or was taken and not accepted. -/
inductive Outcome (α : Type u) where
  | delivered (a : α)
  | lagged (skipped : ℕ)
  | lost (a : α)
  deriving DecidableEq, Repr

def Outcome.delivered? : Outcome α → Option α
  | .delivered a => some a
  | .lagged _ => none
  | .lost _ => none

def Outcome.received : Outcome α → Received α
  | .delivered a => .value a
  | .lagged n => .lagged n
  | .lost a => .value a

/-- A round of a loop that passes on what it receives, until a value is not accepted. -/
def relayRound (B : Interface α capacity) (c : B.Chan) (next : ℕ) (accepted : Bool) : List (Outcome α) × Option ℕ :=
  match B.recv c next with
  | none => ([], some next)
  | some (.value a, next') => if accepted then ([.delivered a], some next') else ([.lost a], none)
  | some (.lagged n, next') => ([.lagged n], some next')

/-- A channel and one relay on it, which stands somewhere until it ends. -/
structure Relay (B : Interface α capacity) where
  channel : B.Chan
  next : Option ℕ

inductive RelayInput (α : Type u) where
  | send (a : α)
  | round (accepted : Bool)

def RelayInput.sent? : RelayInput α → Option α
  | .send a => some a
  | .round _ => none

def Relay.step (s : Relay B) : RelayInput α → List (Outcome α) × Relay B
  | .send a => ([], { s with channel := B.send s.channel a })
  | .round accepted =>
    match s.next with
    | some next =>
      let round := relayRound B s.channel next accepted
      (round.1, { s with next := round.2 })
    | none => ([], s)

def sentIn (inputs : List (RelayInput α)) : List α := inputs.filterMap RelayInput.sent?

def delivered (outcomes : List (Outcome α)) : List α := outcomes.filterMap Outcome.delivered?

def answered (outcomes : List (Outcome α)) : List (Received α) := outcomes.map Outcome.received

/-- A relay, where the values sent since it began are told from those before. -/
structure Following (s : Relay B) (history : List α) (start : ℕ) (outcomes : List (Outcome α)) : Prop where
  holds : B.Holds s.channel history
  reading : ∃ next, Reading history start next (answered outcomes) ∧ ∀ n, s.next = some n → n = next
  accepted : s.next.isSome = true → handed (answered outcomes) = delivered outcomes
  ended : s.next = none → ∃ a, handed (answered outcomes) = delivered outcomes ++ [a]

theorem Following.begin {c : B.Chan} {history : List α} (h : B.Holds c history) :
    Following ⟨c, some (B.subscribe c)⟩ history history.length [] := by
  refine ⟨h, ⟨history.length, Reading.subscribe history, ?_⟩, fun _ => rfl, nofun⟩
  rintro n hn
  rw [← Option.some.inj hn, B.subscribe_eq h]

theorem Following.round {s : Relay B} {history : List α} {start : ℕ} {outcomes : List (Outcome α)}
    (h : Following s history start outcomes) {next : ℕ} (hnext : s.next = some next) (accepted : Bool) :
    Following { s with next := (relayRound B s.channel next accepted).2 } history start
      (outcomes ++ (relayRound B s.channel next accepted).1) := by
  obtain ⟨_, hreading, hstands⟩ := h.reading
  obtain rfl := hstands next hnext
  have hkept := h.accepted (by rw [hnext]; rfl)
  rw [relayRound]
  cases hrecv : B.recv s.channel next with
  | none =>
    rw [List.append_nil]
    exact ⟨h.holds, ⟨next, hreading, fun n hn => (Option.some.inj hn).symm⟩, fun _ => hkept, nofun⟩
  | some pair =>
    obtain ⟨received, next'⟩ := pair
    have hmore := hreading.recv B h.holds hrecv
    cases received with
    | lagged n =>
      refine ⟨h.holds, ⟨next', ?_, fun n hn => (Option.some.inj hn).symm⟩, fun _ => ?_, nofun⟩
      · rw [answered, List.map_append]
        exact hmore
      · rw [answered, List.map_append, handed_append, delivered, List.filterMap_append]
        exact congrArg (· ++ []) hkept
    | value a =>
      have hhanded : ∀ outcome : Outcome α, outcome.received = .value a →
          handed (answered (outcomes ++ [outcome])) = delivered outcomes ++ [a] := by
        intro outcome houtcome
        rw [answered, List.map_append, handed_append, List.map_singleton, houtcome]
        exact congrArg (· ++ [a]) hkept
      cases accepted with
      | true =>
        refine ⟨h.holds, ⟨next', ?_, fun n hn => (Option.some.inj hn).symm⟩, fun _ => ?_, nofun⟩
        · rw [answered, List.map_append]
          exact hmore
        · refine (hhanded (.delivered a) rfl).trans ?_
          rw [delivered, delivered, List.filterMap_append]
          rfl
      | false =>
        refine ⟨h.holds, ⟨next', ?_, nofun⟩, nofun, fun _ => ⟨a, (hhanded (.lost a) rfl).trans ?_⟩⟩
        · rw [answered, List.map_append]
          exact hmore
        · rw [delivered, delivered, List.filterMap_append]
          exact congrArg (· ++ [a]) (List.append_nil _).symm

theorem Following.step {s : Relay B} {history : List α} {start : ℕ} {outcomes : List (Outcome α)}
    (h : Following s history start outcomes) (input : RelayInput α) :
    Following (s.step input).2 (history ++ sentIn [input]) start (outcomes ++ (s.step input).1) := by
  cases input with
  | send a =>
    obtain ⟨next, hreading, hstands⟩ := h.reading
    rw [Relay.step, List.append_nil]
    exact ⟨B.holds_send h.holds a, ⟨next, hreading.send a, hstands⟩, h.accepted, h.ended⟩
  | round accepted =>
    have hsame : history ++ sentIn [RelayInput.round accepted] = history := List.append_nil history
    rw [hsame, Relay.step]
    cases hnext : s.next with
    | none =>
      dsimp only
      rw [List.append_nil]
      exact h
    | some next => exact h.round hnext accepted

theorem Following.run {s : Relay B} {history : List α} {start : ℕ} {outcomes : List (Outcome α)}
    (h : Following s history start outcomes) (inputs : List (RelayInput α)) :
    Following (final Relay.step s inputs) (history ++ sentIn inputs) start
      (outcomes ++ emitted Relay.step s inputs) := by
  induction inputs generalizing s history outcomes with
  | nil =>
    change Following s (history ++ []) start (outcomes ++ [])
    rw [List.append_nil, List.append_nil]
    exact h
  | cons input rest ih =>
    have hrest := ih (h.step input)
    rw [List.append_assoc, List.append_assoc, ← emitted_cons, sentIn, sentIn, ← List.filterMap_append] at hrest
    exact hrest

theorem length_handed_answered (outcomes : List (Outcome α)) :
    (handed (answered outcomes)).length =
      (delivered outcomes).length + outcomes.countP (fun o => o matches .lost _) := by
  induction outcomes with
  | nil => rfl
  | cons o rest ih =>
    rw [List.countP_cons]
    cases o with
    | delivered a => exact (congrArg (· + 1) ih).trans (Nat.add_right_comm _ _ _)
    | lagged n => exact ih
    | lost a => exact congrArg (· + 1) ih

/-- A relay has ended exactly if a value it took was not accepted. -/
theorem Following.ended_iff {s : Relay B} {history : List α} {start : ℕ} {outcomes : List (Outcome α)}
    (h : Following s history start outcomes) : s.next = none ↔ ∃ a, .lost a ∈ outcomes := by
  have hcount := length_handed_answered outcomes
  have hlost : 0 < outcomes.countP (fun o => o matches .lost _) ↔ ∃ a, .lost a ∈ outcomes := by
    rw [List.countP_pos_iff]
    constructor
    · rintro ⟨o, ho, hmatches⟩
      cases o with
      | lost a => exact ⟨a, ho⟩
      | delivered a => cases hmatches
      | lagged n => cases hmatches
    · rintro ⟨a, ha⟩
      exact ⟨_, ha, rfl⟩
  rw [← hlost]
  cases hnext : s.next with
  | some next =>
    rw [h.accepted (by rw [hnext]; rfl)] at hcount
    refine iff_of_false nofun ?_
    omega
  | none =>
    obtain ⟨a, ha⟩ := h.ended hnext
    rw [ha, List.length_append, List.length_singleton] at hcount
    refine iff_of_true rfl ?_
    omega

/-- A running relay ends in a round that is not accepted and had a value to pass on, and in no other way. -/
theorem Relay.step_ends_iff {s : Relay B} {next : ℕ} (hnext : s.next = some next) (input : RelayInput α) :
    (s.step input).2.next = none ↔
      input = .round false ∧ ∃ a, (s.step (.round true)).1 = [.delivered a] := by
  cases input with
  | send a =>
    rw [Relay.step, hnext]
    exact iff_of_false nofun nofun
  | round accepted =>
    rw [Relay.step, Relay.step, hnext]
    dsimp only
    rw [relayRound, relayRound]
    cases hrecv : B.recv s.channel next with
    | none => exact iff_of_false nofun (fun h => h.2.elim nofun)
    | some pair =>
      obtain ⟨received, next'⟩ := pair
      cases received with
      | lagged n => exact iff_of_false nofun (fun h => h.2.elim nofun)
      | value a =>
        cases accepted with
        | true => exact iff_of_false nofun nofun
        | false => exact iff_of_true rfl ⟨rfl, a, rfl⟩

/-- A relay that begins on the channel as it stands. -/
def Relay.begin (B : Interface α capacity) (c : B.Chan) : Relay B := ⟨c, some (B.subscribe c)⟩

theorem following_run {c : B.Chan} {history : List α} (h : B.Holds c history) (inputs : List (RelayInput α)) :
    Following (final Relay.step (Relay.begin B c) inputs) (history ++ sentIn inputs) history.length
      (emitted Relay.step (Relay.begin B c) inputs) :=
  (Following.begin h).run inputs

section Following

variable {s : Relay B} {history values : List α} {outcomes : List (Outcome α)}

theorem Following.accounts (h : Following s (history ++ values) history.length outcomes) :
    ∃ rest, Accounts values (answered outcomes) rest ∧
      ∀ next, s.next = some next → rest = (history ++ values).drop next := by
  obtain ⟨next, hreading, hstands⟩ := h.reading
  have haccounts := hreading.accounts
  rw [List.drop_left] at haccounts
  refine ⟨_, haccounts, ?_⟩
  intro n hn
  rw [hstands n hn]

theorem Following.delivered_prefix (h : Following s (history ++ values) history.length outcomes) :
    delivered outcomes <+: handed (answered outcomes) := by
  cases hnext : s.next with
  | some next => exact (h.accepted (by rw [hnext]; rfl)) ▸ List.prefix_rfl
  | none =>
    obtain ⟨a, ha⟩ := h.ended hnext
    rw [ha]
    exact List.prefix_append _ _

theorem Following.delivered_sublist (h : Following s (history ++ values) history.length outcomes) :
    (delivered outcomes).Sublist values := by
  obtain ⟨rest, haccounts, -⟩ := h.accounts
  exact h.delivered_prefix.sublist.trans haccounts.handed_sublist

theorem Following.delivered_prefix_of_skipped_eq_zero (h : Following s (history ++ values) history.length outcomes)
    (hskipped : skipped (answered outcomes) = 0) : delivered outcomes <+: values := by
  obtain ⟨rest, haccounts, -⟩ := h.accounts
  rw [haccounts.eq_append_of_skipped_eq_zero hskipped]
  exact h.delivered_prefix.trans (List.prefix_append _ _)

/-- While the relay goes on, every value sent is delivered, skipped or still to come. -/
theorem Following.length_eq (h : Following s (history ++ values) history.length outcomes) {next : ℕ}
    (hnext : s.next = some next) :
    (delivered outcomes).length + skipped (answered outcomes) + ((history ++ values).length - next) =
      values.length := by
  obtain ⟨rest, haccounts, hrest⟩ := h.accounts
  have hlength := haccounts.length_eq
  rwa [h.accepted (by rw [hnext]; rfl), hrest next hnext, List.length_drop] at hlength

theorem Following.waits_iff (h : Following s (history ++ values) history.length outcomes) {next : ℕ}
    (hnext : s.next = some next) (accepted : Bool) :
    (s.step (.round accepted)).1 = [] ↔
      (delivered outcomes).length + skipped (answered outcomes) = values.length := by
  have hlength := h.length_eq hnext
  have hwaits : (s.step (.round accepted)).1 = [] ↔ B.recv s.channel next = none := by
    rw [Relay.step, hnext]
    dsimp only
    rw [relayRound]
    split
    · rename_i hrecv
      exact iff_of_true rfl hrecv
    · rename_i hrecv
      cases accepted <;> exact iff_of_false (List.cons_ne_nil _ _) (by rw [hrecv]; exact nofun)
    · rename_i hrecv
      exact iff_of_false (List.cons_ne_nil _ _) (by rw [hrecv]; exact nofun)
  rw [hwaits, B.recv_eq_none_iff h.holds]
  omega

end Following

theorem skipped_step_eq_zero {s : Relay B} {history values : List α} {outcomes : List (Outcome α)}
    (h : Following s (history ++ values) history.length outcomes) (hskipped : skipped (answered outcomes) = 0)
    (hnear : values.length ≤ (delivered outcomes).length + capacity) (input : RelayInput α) :
    skipped (answered (s.step input).1) = 0 := by
  cases input with
  | send a => rfl
  | round accepted =>
    rw [Relay.step]
    cases hnext : s.next with
    | none => rfl
    | some next =>
      have hlength := h.length_eq hnext
      dsimp only
      rw [relayRound]
      split
      · rfl
      · cases accepted <;> rfl
      · rename_i hrecv
        have hbehind := B.lt_of_lagged h.holds hrecv
        rw [List.length_append] at hlength hbehind
        omega

/-- A relay that never falls more than the capacity behind skips nothing. -/
theorem skipped_eq_zero {c : B.Chan} {history : List α} (h : B.Holds c history) {inputs : List (RelayInput α)}
    (hnear : ∀ first rest, inputs = first ++ rest →
      (sentIn first).length ≤ (delivered (emitted Relay.step (Relay.begin B c) first)).length + capacity) :
    skipped (answered (emitted Relay.step (Relay.begin B c) inputs)) = 0 := by
  induction inputs using List.reverseRecOn with
  | nil => rfl
  | append_singleton inputs input ih =>
    have hbefore := ih fun first rest hsplit => hnear first (rest ++ [input]) (by rw [hsplit, List.append_assoc])
    have hstep := skipped_step_eq_zero (following_run h inputs) hbefore (hnear inputs [input] rfl) input
    have hlast : emitted Relay.step (final Relay.step (Relay.begin B c) inputs) [input] =
        ((final Relay.step (Relay.begin B c) inputs).step input).1 := List.append_nil _
    rw [emitted_append, hlast, answered, List.map_append, skipped_append]
    exact Nat.add_eq_zero_iff.mpr ⟨hbefore, hstep⟩

end Relay

end Broadcast
