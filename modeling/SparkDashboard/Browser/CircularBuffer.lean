import Mathlib.Data.List.DropRight
import Mathlib.Data.Nat.ModEq
import SparkDashboard.Library.Stepping

/-!
# The circular buffer

A fixed number of slots written round and round, and the array it is read as, kept until
the next write. Against the list of everything pushed since it was last cleared, it holds the
last items, as many as it has slots, whatever was read in between.
-/

namespace SparkDashboard.Browser

variable {α : Type*}

structure CircularBuffer (α : Type*) where
  capacity : Nat
  buffer : List (Option α)
  head : Nat := 0
  count : Nat := 0
  /-- What `toArray` last returned, unless something was pushed since. -/
  cache : Option (List α) := none

namespace CircularBuffer

def new (capacity : Nat) : CircularBuffer α where
  capacity := capacity
  buffer := List.replicate capacity none

def push (b : CircularBuffer α) (item : α) : CircularBuffer α :=
  if b.count < b.capacity then
    { b with
      cache := none
      buffer := b.buffer.set ((b.head + b.count) % b.capacity) (some item)
      count := b.count + 1 }
  else
    { b with
      cache := none
      buffer := b.buffer.set b.head (some item)
      head := (b.head + 1) % b.capacity }

/-- The items from the head on. No slot among them is unset. -/
def items (b : CircularBuffer α) : List α :=
  (List.range b.count).filterMap fun i => b.buffer[(b.head + i) % b.capacity]?.join

def toArray (b : CircularBuffer α) : List α × CircularBuffer α :=
  match b.cache with
  | some cached => (cached, b)
  | none => (b.items, { b with cache := some b.items })

def length (b : CircularBuffer α) : Nat := b.count

def isFull (b : CircularBuffer α) : Bool := decide (b.count = b.capacity)

/-- The slots keep what they hold; none is read before it is set again. -/
def clear (b : CircularBuffer α) : CircularBuffer α := { b with cache := none, head := 0, count := 0 }

/-- `arr.slice(Math.max(0, arr.length - n))`, and a slice from beyond the end is empty. -/
def last (b : CircularBuffer α) (n : Int) : List α × CircularBuffer α :=
  let (arr, b) := b.toArray
  (arr.drop (max 0 (arr.length - n)).toNat, b)

structure Represents (n : Nat) (b : CircularBuffer α) (items : List α) : Prop where
  capacity : b.capacity = n
  slots : b.buffer.length = n
  head : b.head < n
  count : b.count = items.length
  fits : items.length ≤ n
  slot : ∀ i x, items[i]? = some x → b.buffer[(b.head + i) % n]? = some (some x)
  cached : ∀ c, b.cache = some c → c = items

/-- The buffer holds the last `n` of the items pushed. -/
def Holds (n : Nat) (b : CircularBuffer α) (pushed : List α) : Prop := b.Represents n (pushed.rtake n)

theorem slot_injective {n head i j : Nat} (hi : i < n) (hj : j < n)
    (h : (head + i) % n = (head + j) % n) : i = j := by
  have hmod : i ≡ j [MOD n] := Nat.ModEq.add_left_cancel' head h
  exact Nat.ModEq.eq_of_lt_of_lt hmod hi hj

theorem represents_new {n : Nat} (hn : 0 < n) : (new n : CircularBuffer α).Represents n [] where
  capacity := rfl
  slots := List.length_replicate
  head := hn
  count := rfl
  fits := Nat.zero_le n
  slot := by
    intro i x h
    cases h
  cached := by
    intro c h
    cases h

theorem mod_lt_slots {n : Nat} {b : CircularBuffer α} {items : List α} (h : b.Represents n items) (i : Nat) :
    i % n < b.buffer.length := by
  rw [h.slots]
  exact Nat.mod_lt i (Nat.zero_lt_of_lt h.head)

theorem represents_push_of_lt {n : Nat} {b : CircularBuffer α} {items : List α}
    (h : b.Represents n items) (hlt : items.length < n) (item : α) :
    (b.push item).Represents n (items ++ [item]) := by
  have hcount : b.count < b.capacity := by rw [h.count, h.capacity]; exact hlt
  rw [push, if_pos hcount, h.capacity, h.count]
  refine ⟨rfl, ?_, h.head, ?_, ?_, ?_, ?_⟩
  · rw [List.length_set, h.slots]
  · rw [List.length_append, List.length_singleton]
  · rw [List.length_append, List.length_singleton]
    exact hlt
  · intro i x hx
    rw [List.getElem?_append] at hx
    split at hx
    · rename_i hi
      have hne : (b.head + items.length) % n ≠ (b.head + i) % n := fun heq =>
        hi.ne' (slot_injective hlt (hi.trans hlt) heq)
      rw [List.getElem?_set_ne hne]
      exact h.slot i x hx
    · rename_i hi
      obtain ⟨rfl, hzero⟩ : x = item ∧ i = items.length := by
        rw [List.getElem?_singleton] at hx
        split at hx
        · exact ⟨(Option.some.inj hx).symm, by omega⟩
        · cases hx
      rw [hzero, List.getElem?_set_self (mod_lt_slots h _)]
  · intro c hc
    cases hc

theorem represents_push_of_full {n : Nat} {b : CircularBuffer α} {first : α} {items : List α}
    (h : b.Represents n (first :: items)) (hfull : (first :: items).length = n) (item : α) :
    (b.push item).Represents n (items ++ [item]) := by
  have hcount : ¬ b.count < b.capacity := by rw [h.count, h.capacity, hfull]; exact lt_irrefl n
  have hn : items.length + 1 = n := hfull
  rw [push, if_neg hcount, h.capacity]
  refine ⟨rfl, ?_, ?_, ?_, ?_, ?_, ?_⟩
  · rw [List.length_set, h.slots]
  · exact Nat.mod_lt _ (Nat.zero_lt_of_lt h.head)
  · rw [h.count, List.length_cons, List.length_append, List.length_singleton]
  · rw [List.length_append, List.length_singleton]
    exact hn.le
  · intro i x hx
    have hshift : ((b.head + 1) % n + i) % n = (b.head + (i + 1)) % n := by
      rw [Nat.mod_add_mod]
      congr 1
      omega
    rw [hshift]
    rw [List.getElem?_append] at hx
    split at hx
    · rename_i hi
      have hne : b.head ≠ (b.head + (i + 1)) % n := by
        intro heq
        have hslots : (b.head + 0) % n = (b.head + (i + 1)) % n := by
          rw [Nat.add_zero, Nat.mod_eq_of_lt h.head]
          exact heq
        have := slot_injective (by omega) (by omega) hslots
        omega
      rw [List.getElem?_set_ne hne]
      exact h.slot (i + 1) x hx
    · rename_i hi
      obtain ⟨rfl, hlast⟩ : x = item ∧ i + 1 = n := by
        rw [List.getElem?_singleton] at hx
        split at hx
        · exact ⟨(Option.some.inj hx).symm, by omega⟩
        · cases hx
      have hhead : (b.head + (i + 1)) % n = b.head := by
        rw [hlast, Nat.add_mod_right, Nat.mod_eq_of_lt h.head]
      rw [hhead, List.getElem?_set_self (by rw [h.slots]; exact h.head)]
  · intro c hc
    cases hc

theorem represents_push {n : Nat} {b : CircularBuffer α} {items : List α} (h : b.Represents n items)
    (item : α) : (b.push item).Represents n ((items ++ [item]).rtake n) := by
  rcases Nat.lt_or_eq_of_le h.fits with hlt | hfull
  · have hkeep : (items ++ [item]).rtake n = items ++ [item] := by
      rw [List.rtake, List.length_append, List.length_singleton, Nat.sub_eq_zero_of_le hlt, List.drop_zero]
    rw [hkeep]
    exact represents_push_of_lt h hlt item
  · cases items with
    | nil => exact absurd (hfull ▸ h.head) (Nat.not_lt_zero _)
    | cons first items =>
      have hshift : (first :: items ++ [item]).rtake n = items ++ [item] := by
        rw [List.rtake, List.length_append, hfull, List.length_singleton, Nat.add_sub_cancel_left]
        rfl
      rw [hshift]
      exact represents_push_of_full h hfull item

theorem filterMap_range_getElem? (l : List α) : ((List.range l.length).filterMap fun i => l[i]?) = l := by
  induction l with
  | nil => rfl
  | cons x rest ih =>
    rw [List.length_cons, List.range_succ_eq_map, List.filterMap_cons, List.filterMap_map]
    exact congrArg (x :: ·) ih

theorem items_of_represents {n : Nat} {b : CircularBuffer α} {items : List α} (h : b.Represents n items) :
    b.items = items := by
  have hread : ∀ i ∈ List.range items.length,
      b.buffer[(b.head + i) % b.capacity]?.join = items[i]? := by
    intro i hi
    have hlt : i < items.length := List.mem_range.mp hi
    rw [h.capacity, h.slot i items[i] (List.getElem?_eq_getElem hlt), List.getElem?_eq_getElem hlt]
    rfl
  rw [CircularBuffer.items, h.count, List.filterMap_congr hread, filterMap_range_getElem?]

theorem toArray_of_represents {n : Nat} {b : CircularBuffer α} {items : List α} (h : b.Represents n items) :
    b.toArray.1 = items ∧ b.toArray.2.Represents n items := by
  rw [toArray]
  cases hcache : b.cache with
  | some c => exact ⟨h.cached c hcache, h⟩
  | none =>
    refine ⟨items_of_represents h, { h with cached := ?_ }⟩
    intro c hc
    rw [← Option.some.inj hc]
    exact items_of_represents h

/-- What has been cut away before does not come back. -/
theorem rtake_concat_rtake (n : Nat) (l : List α) (x : α) : (l.rtake n ++ [x]).rtake n = (l ++ [x]).rtake n := by
  cases n with
  | zero => rw [List.rtake_zero, List.rtake_zero]
  | succ n =>
    rw [List.rtake_concat_succ, List.rtake_concat_succ]
    simp only [List.rtake_eq_reverse_take_reverse, List.reverse_reverse, List.take_take]
    rw [Nat.min_eq_left (Nat.le_succ n)]

theorem holds_new {n : Nat} (hn : 0 < n) : (new n : CircularBuffer α).Holds n [] := by
  rw [Holds, List.rtake_nil]
  exact represents_new hn

theorem holds_push {n : Nat} {b : CircularBuffer α} {pushed : List α} (h : b.Holds n pushed) (item : α) :
    (b.push item).Holds n (pushed ++ [item]) := by
  rw [Holds, ← rtake_concat_rtake]
  exact represents_push h item

theorem holds_foldl_push {n : Nat} {b : CircularBuffer α} {pushed : List α} (h : b.Holds n pushed)
    (more : List α) : (more.foldl push b).Holds n (pushed ++ more) := by
  induction more generalizing b pushed with
  | nil =>
    rw [List.append_nil]
    exact h
  | cons item rest ih =>
    have hrest := ih (holds_push h item)
    rwa [List.append_assoc] at hrest

theorem holds_clear {n : Nat} {b : CircularBuffer α} {pushed : List α} (h : b.Holds n pushed) : b.clear.Holds n [] := by
  rw [Holds, List.rtake_nil]
  refine ⟨h.capacity, h.slots, Nat.zero_lt_of_lt h.head, rfl, Nat.zero_le n, ?_, ?_⟩
  · intro i x hx
    cases hx
  · intro c hc
    cases hc

theorem toArray_of_holds {n : Nat} {b : CircularBuffer α} {pushed : List α} (h : b.Holds n pushed) :
    b.toArray.1 = pushed.rtake n ∧ b.toArray.2.Holds n pushed := toArray_of_represents h

theorem drop_eq_rtake (l : List α) (n : Int) : l.drop (max 0 (l.length - n)).toNat = l.rtake n.toNat := by
  rw [List.rtake]
  rcases Int.le_total n 0 with hn | hn
  · -- a start at or beyond the end
    rw [List.drop_eq_nil_of_le (by omega), List.drop_eq_nil_of_le (by omega)]
  · congr 1
    omega

theorem last_of_holds {n : Nat} {b : CircularBuffer α} {pushed : List α} (h : b.Holds n pushed) (k : Int) :
    (b.last k).1 = (pushed.rtake n).rtake k.toNat ∧ (b.last k).2.Holds n pushed := by
  obtain ⟨harray, hholds⟩ := toArray_of_holds h
  refine ⟨?_, hholds⟩
  have hlast : (b.last k).1 = b.toArray.1.drop (max 0 (b.toArray.1.length - k)).toNat := rfl
  rw [hlast, harray, drop_eq_rtake]

section Operations

inductive Op (α : Type*) where
  | push (item : α)
  | clear
  | toArray
  | last (n : Int)
  | length
  | isFull

inductive Answer (α : Type*) where
  | done
  | items (items : List α)
  | number (n : Nat)
  | flag (b : Bool)

def perform (b : CircularBuffer α) : Op α → Answer α × CircularBuffer α
  | .push item => (.done, b.push item)
  | .clear => (.done, b.clear)
  | .toArray => (.items b.toArray.1, b.toArray.2)
  | .last n => (.items (b.last n).1, (b.last n).2)
  | .length => (.number b.length, b)
  | .isFull => (.flag b.isFull, b)

/-- What the buffer stands for: all that was pushed since the last clear, read through its last
`capacity` items. -/
def performOnList (capacity : Nat) (pushed : List α) : Op α → Answer α × List α
  | .push item => (.done, pushed ++ [item])
  | .clear => (.done, [])
  | .toArray => (.items (pushed.rtake capacity), pushed)
  | .last n => (.items ((pushed.rtake capacity).rtake n.toNat), pushed)
  | .length => (.number (pushed.rtake capacity).length, pushed)
  | .isFull => (.flag (decide ((pushed.rtake capacity).length = capacity)), pushed)

theorem perform_of_holds {n : Nat} {b : CircularBuffer α} {pushed : List α} (h : b.Holds n pushed) (op : Op α) :
    (b.perform op).1 = (performOnList n pushed op).1 ∧ (b.perform op).2.Holds n (performOnList n pushed op).2 := by
  cases op with
  | push item => exact ⟨rfl, holds_push h item⟩
  | clear => exact ⟨rfl, holds_clear h⟩
  | toArray =>
    obtain ⟨harray, hholds⟩ := toArray_of_holds h
    exact ⟨congrArg Answer.items harray, hholds⟩
  | last k =>
    obtain ⟨hlast, hholds⟩ := last_of_holds h k
    exact ⟨congrArg Answer.items hlast, hholds⟩
  | length => exact ⟨congrArg Answer.number h.count, h⟩
  | isFull =>
    have hfull : b.isFull = decide ((pushed.rtake n).length = n) := by rw [isFull, h.count, h.capacity]
    exact ⟨congrArg Answer.flag hfull, h⟩

theorem perform_refines {n : Nat} (hn : 0 < n) (ops : List (Op α)) :
    Stepping.outputs perform (new n) ops = Stepping.outputs (performOnList n) [] ops :=
  Stepping.outputs_eq_of_simulates (Holds n) (fun _ _ op h => (perform_of_holds h op).1)
    (fun _ _ op h => (perform_of_holds h op).2) (holds_new hn) ops

/-- Two slots, written round: the array read before the third push is not read again after it. -/
theorem perform_refines_wrapped :
    Stepping.outputs perform (new 2) [.push 1, .push 2, .toArray, .push 3, .toArray, .last 1, .clear, .length] =
      [.done, .done, .items [1, 2], .done, .items [2, 3], .items [3], .done, .number 0] :=
  (perform_refines (by decide) _).trans rfl

end Operations

end CircularBuffer

end SparkDashboard.Browser
