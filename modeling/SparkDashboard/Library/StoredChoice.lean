import Mathlib.Data.List.Induction
import Mathlib.Logic.Function.Basic

/-!
# A choice kept in shared storage

Sessions that share one slot of storage. Each holds a choice of its own only while the storage would not
take it, and its views show what it read when they were last drawn.
-/

namespace SparkDashboard.Library

universe u v w x

/-- How a choice is stored and read back. Nothing stored reads as some choice too. -/
structure Codec (S : Type u) (R : Type v) where
  parse : Option R → S
  serialize : S → R
  parse_serialize : ∀ choice, parse (some (serialize choice)) = choice

namespace StoredChoice

/-- `fits` says whether the storage has room; `load` starts the session afresh; `other` is any write to the
slot that is no session's choice. -/
inductive Event (T : Type u) (P : Type v) (S : Type w) (R : Type x) where
  | choose (session : T) (next : S) (fits : Bool)
  | draw (session : T) (view : P)
  | close (session : T) (view : P)
  | load (session : T)
  | other (raw : Option R)

structure World (T : Type u) (P : Type v) (S : Type w) (R : Type x) where
  stored : Option R := none
  unstored : T → Option S := fun _ => none
  shown : T → P → Option S := fun _ _ => none

variable {T : Type u} {P : Type v} {S : Type w} {R : Type x} [DecidableEq T] (codec : Codec S R)
  (blocked : T → Bool)

/-- What a session reads: what the storage would not take, else what is stored. -/
def read (world : World T P S R) (session : T) : S :=
  (world.unstored session).getD (codec.parse (if blocked session then none else world.stored))

def keep (world : World T P S R) (session : T) (next : S) (fits : Bool) : World T P S R :=
  if fits && !blocked session then
    { world with stored := some (codec.serialize next), unstored := Function.update world.unstored session none }
  else { world with unstored := Function.update world.unstored session (some next) }

/-- Every view of the session is drawn again. -/
def notify (world : World T P S R) (session : T) : World T P S R :=
  { world with
    shown := Function.update world.shown session fun view =>
      (world.shown session view).map fun _ => read codec blocked world session }

section History

section Last

variable {ε : Type*} {α : Type*} {field : ε → Option (Option α)} {events : List ε}

/-- What the last event that sets a field leaves in it. -/
def last (field : ε → Option (Option α)) (events : List ε) : Option α :=
  (events.reverse.findSome? field).getD none

theorem last_concat (event : ε) :
    last field (events ++ [event]) = (field event).getD (last field events) := by
  rw [last, last, List.reverse_append, List.reverse_singleton, List.singleton_append, List.findSome?_cons]
  cases field event <;> rfl

theorem last_append_of_none {later : List ε} (h : ∀ event ∈ later, field event = none) :
    last field (events ++ later) = last field events := by
  induction later using List.reverseRecOn with
  | nil => rw [List.append_nil]
  | append_singleton later event ih =>
    rw [← List.append_assoc, last_concat, h event (List.mem_append_right _ (List.mem_singleton_self event)),
      Option.getD_none]
    exact ih fun other hother => h other (List.mem_append_left _ hother)

end Last

/-- What an event leaves in the slot, if it writes there. -/
def written : Event T P S R → Option (Option R)
  | .choose session next fits => if fits && !blocked session then some (some (codec.serialize next)) else none
  | .other raw => some raw
  | _ => none

/-- What an event leaves a session holding, if it changes that. -/
def held (session : T) : Event T P S R → Option (Option S)
  | .choose other next fits =>
    if other = session then some (if fits && !blocked session then none else some next) else none
  | .load other => if other = session then some none else none
  | _ => none

/-- The reading as the history has it. -/
def reading (events : List (Event T P S R)) (session : T) : S :=
  (last (held blocked session) events).getD
    (codec.parse (if blocked session then none else last (written codec blocked) events))

variable {codec blocked}

theorem reading_append {events later : List (Event T P S R)} {session : T}
    (hheld : ∀ event ∈ later, held blocked session event = none)
    (hwritten : ∀ event ∈ later, written codec blocked event = none) :
    reading codec blocked (events ++ later) session = reading codec blocked events session := by
  rw [reading, reading, last_append_of_none hheld, last_append_of_none hwritten]

theorem reading_choose (events : List (Event T P S R)) (session : T) (next : S) (fits : Bool) :
    reading codec blocked (events ++ [.choose session next fits]) session = next := by
  rw [reading, last_concat, last_concat, held, if_pos rfl, Option.getD_some, written]
  split
  · rename_i hkept
    have hopen : blocked session = false := by
      rw [Bool.and_eq_true, Bool.not_eq_true'] at hkept
      exact hkept.2
    rw [Option.getD_none, hopen, if_neg Bool.false_ne_true, Option.getD_some, codec.parse_serialize]
  · rfl

/-- A choice the storage took is what every session that holds nothing of its own reads, until the slot is
written again. -/
theorem reading_of_stored {events later : List (Event T P S R)} {chooser session : T} {next : S}
    (hopen : blocked chooser = false ∧ blocked session = false)
    (hheld : last (held blocked session) (events ++ .choose chooser next true :: later) = none)
    (hwritten : ∀ event ∈ later, written codec blocked event = none) :
    reading codec blocked (events ++ .choose chooser next true :: later) session = next := by
  rw [reading, hheld, Option.getD_none, hopen.2, if_neg Bool.false_ne_true, List.append_cons,
    last_append_of_none hwritten, last_concat, written, hopen.1]
  exact codec.parse_serialize next

@[simp] theorem read_notify (world : World T P S R) (session : T) :
    read codec blocked (notify codec blocked world session) = read codec blocked world := rfl

@[simp] theorem shown_keep (world : World T P S R) (session : T) (next : S) (fits : Bool) :
    (keep codec blocked world session next fits).shown = world.shown := by
  rw [keep]
  split <;> rfl

end History

section Runs

variable [DecidableEq P]

def step (world : World T P S R) : Event T P S R → World T P S R
  | .choose session next fits => notify codec blocked (keep codec blocked world session next fits) session
  | .draw session view =>
    { world with
      shown := Function.update world.shown session
        (Function.update (world.shown session) view (some (read codec blocked world session))) }
  | .close session view =>
    { world with
      shown := Function.update world.shown session (Function.update (world.shown session) view none) }
  | .load session =>
    { world with
      unstored := Function.update world.unstored session none
      shown := Function.update world.shown session fun _ => none }
  | .other raw => { world with stored := raw }

def run (events : List (Event T P S R)) : World T P S R := events.foldl (step codec blocked) {}

/-- Events after which a view shows something new, or nothing. -/
def redraws (session : T) (view : P) : Event T P S R → Bool
  | .choose other _ _ => other = session
  | .draw other drawn => other = session ∧ drawn = view
  | .close other closed => other = session ∧ closed = view
  | .load other => other = session
  | .other _ => false

/-- Whether an event leaves a view drawn, if it draws it or takes it away. -/
def mounted (session : T) (view : P) : Event T P S R → Option (Option Unit)
  | .draw other drawn => if other = session ∧ drawn = view then some (some ()) else none
  | .close other closed => if other = session ∧ closed = view then some none else none
  | .load other => if other = session then some none else none
  | _ => none

variable {codec blocked}

theorem stored_step (world : World T P S R) (event : Event T P S R) :
    (step codec blocked world event).stored = (written codec blocked event).getD world.stored := by
  cases event with
  | choose session next fits =>
    rw [step, notify, keep, written]
    split <;> rfl
  | other raw => rfl
  | draw session view => rfl
  | close session view => rfl
  | load session => rfl

theorem unstored_step (world : World T P S R) (event : Event T P S R) (session : T) :
    (step codec blocked world event).unstored session = (held blocked session event).getD (world.unstored session) := by
  cases event with
  | choose other next fits =>
    rw [step, notify, keep, held]
    rcases eq_or_ne other session with rfl | hne
    · rw [if_pos rfl]
      split <;> exact Function.update_self _ _ _
    · rw [if_neg hne]
      split <;> exact Function.update_of_ne hne.symm _ _
  | load other =>
    rw [step, held]
    rcases eq_or_ne other session with rfl | hne
    · rw [if_pos rfl]
      exact Function.update_self _ _ _
    · rw [if_neg hne]
      exact Function.update_of_ne hne.symm _ _
  | draw other view => rfl
  | close other view => rfl
  | other raw => rfl

theorem run_concat (events : List (Event T P S R)) (event : Event T P S R) :
    run codec blocked (events ++ [event]) = step codec blocked (run codec blocked events) event := by
  rw [run, List.foldl_append]
  rfl

theorem stored_run (events : List (Event T P S R)) :
    (run codec blocked events).stored = last (written codec blocked) events := by
  induction events using List.reverseRecOn with
  | nil => rfl
  | append_singleton events event ih => rw [run_concat, stored_step, ih, last_concat]

theorem unstored_run (events : List (Event T P S R)) (session : T) :
    (run codec blocked events).unstored session = last (held blocked session) events := by
  induction events using List.reverseRecOn with
  | nil => rfl
  | append_singleton events event ih => rw [run_concat, unstored_step, ih, last_concat]

/-- What a session reads is told by the history alone. -/
theorem read_run (events : List (Event T P S R)) (session : T) :
    read codec blocked (run codec blocked events) session = reading codec blocked events session := by
  rw [read, reading, stored_run, unstored_run]

theorem shown_choose (world : World T P S R) (session : T) (next : S) (fits : Bool) :
    (step codec blocked world (.choose session next fits)).shown =
      Function.update world.shown session fun view =>
        (world.shown session view).map fun _ =>
          read codec blocked (keep codec blocked world session next fits) session := by
  rw [step, notify, shown_keep]

theorem shown_draw (world : World T P S R) (session : T) (view : P) :
    (step codec blocked world (.draw session view)).shown =
      Function.update world.shown session
        (Function.update (world.shown session) view (some (read codec blocked world session))) := rfl

theorem shown_close (world : World T P S R) (session : T) (view : P) :
    (step codec blocked world (.close session view)).shown =
      Function.update world.shown session (Function.update (world.shown session) view none) := rfl

theorem shown_load (world : World T P S R) (session : T) :
    (step codec blocked world (.load session)).shown = Function.update world.shown session fun _ => none := rfl

theorem shown_step_of_not {session : T} {view : P} {event : Event T P S R} (h : redraws session view event = false)
    (world : World T P S R) : (step codec blocked world event).shown session view = world.shown session view := by
  cases event with
  | choose other next fits =>
    have hne : session ≠ other := fun heq => of_decide_eq_false h heq.symm
    rw [shown_choose, Function.update_of_ne hne]
  | draw other drawn =>
    rw [shown_draw]
    rcases eq_or_ne session other with rfl | hne
    · rw [Function.update_self]
      exact Function.update_of_ne (fun heq => of_decide_eq_false h ⟨rfl, heq.symm⟩) _ _
    · rw [Function.update_of_ne hne]
  | close other closed =>
    rw [shown_close]
    rcases eq_or_ne session other with rfl | hne
    · rw [Function.update_self]
      exact Function.update_of_ne (fun heq => of_decide_eq_false h ⟨rfl, heq.symm⟩) _ _
    · rw [Function.update_of_ne hne]
  | load other =>
    have hne : session ≠ other := fun heq => of_decide_eq_false h heq.symm
    rw [shown_load, Function.update_of_ne hne]
  | other raw => rfl

theorem isSome_shown_step (world : World T P S R) (event : Event T P S R) (session : T) (view : P) :
    ((step codec blocked world event).shown session view).isSome =
      ((mounted session view event).map Option.isSome).getD (world.shown session view).isSome := by
  cases hredraws : redraws session view event with
  | false =>
    rw [shown_step_of_not hredraws]
    cases event with
    | draw other drawn | close other closed | load other => rw [mounted, if_neg (of_decide_eq_false hredraws)]; rfl
    | _ => rfl
  | true =>
    cases event with
    | choose other next fits =>
      obtain rfl : other = session := of_decide_eq_true hredraws
      rw [shown_choose, Function.update_self, Option.isSome_map]
      rfl
    | draw other drawn =>
      obtain ⟨rfl, rfl⟩ := of_decide_eq_true hredraws
      rw [shown_draw, Function.update_self, Function.update_self, mounted, if_pos ⟨rfl, rfl⟩]
      rfl
    | close other closed =>
      obtain ⟨rfl, rfl⟩ := of_decide_eq_true hredraws
      rw [shown_close, Function.update_self, Function.update_self, mounted, if_pos ⟨rfl, rfl⟩]
      rfl
    | load other =>
      obtain rfl : other = session := of_decide_eq_true hredraws
      rw [shown_load, Function.update_self, mounted, if_pos rfl]
      rfl
    | other raw => cases hredraws

/-- A view shows something exactly while it is drawn. -/
theorem isSome_shown_run (events : List (Event T P S R)) (session : T) (view : P) :
    ((run codec blocked events).shown session view).isSome = (last (mounted session view) events).isSome := by
  induction events using List.reverseRecOn with
  | nil => rfl
  | append_singleton events event ih =>
    rw [run_concat, isSome_shown_step, last_concat, ih]
    cases mounted session view event <;> rfl

/-- A view drawn now shows what its session reads now. -/
theorem eq_read_of_redraws {session : T} {view : P} {event : Event T P S R} (h : redraws session view event = true)
    {world : World T P S R} {value : S} (hshown : (step codec blocked world event).shown session view = some value) :
    value = read codec blocked (step codec blocked world event) session := by
  cases event with
  | choose other next fits =>
    obtain rfl : other = session := of_decide_eq_true h
    rw [shown_choose, Function.update_self, Option.map_eq_some_iff] at hshown
    obtain ⟨-, -, hvalue⟩ := hshown
    exact hvalue.symm
  | draw other drawn =>
    obtain ⟨rfl, rfl⟩ := of_decide_eq_true h
    rw [shown_draw, Function.update_self, Function.update_self] at hshown
    exact (Option.some.inj hshown).symm
  | close other closed =>
    obtain ⟨rfl, rfl⟩ := of_decide_eq_true h
    rw [shown_close, Function.update_self, Function.update_self] at hshown
    cases hshown
  | load other =>
    obtain rfl : other = session := of_decide_eq_true h
    rw [shown_load, Function.update_self] at hshown
    cases hshown
  | other raw => cases h

/-- A view shows what its session read when the view was last drawn. -/
theorem shown_run {events : List (Event T P S R)} {session : T} {view : P} {value : S}
    (h : (run codec blocked events).shown session view = some value) :
    ∃ before event after, events = before ++ event :: after ∧ redraws session view event = true ∧
      value = reading codec blocked (before ++ [event]) session ∧
      ∀ later ∈ after, redraws session view later = false := by
  induction events using List.reverseRecOn with
  | nil => cases h
  | append_singleton events event ih =>
    rw [run_concat] at h
    cases hredraws : redraws session view event with
    | true =>
      refine ⟨events, event, [], rfl, hredraws, ?_, fun other hother => (by cases hother)⟩
      rw [← read_run, run_concat]
      exact eq_read_of_redraws hredraws h
    | false =>
      rw [shown_step_of_not hredraws] at h
      obtain ⟨before, drawn, after, rfl, hdrawn, hvalue, hafter⟩ := ih h
      refine ⟨before, drawn, after ++ [event], List.append_assoc before (drawn :: after) [event], hdrawn, hvalue, ?_⟩
      intro other hother
      rcases List.mem_append.mp hother with hmem | hmem
      · exact hafter other hmem
      · exact List.mem_singleton.mp hmem ▸ hredraws

/-- Once a session has chosen, and until it chooses or is loaded again or another writes, it and all its
views have the choice, whether or not the storage took it. -/
theorem shown_after_choose {events later : List (Event T P S R)} {session : T} {next : S} {fits : Bool}
    (hheld : ∀ event ∈ later, held blocked session event = none)
    (hwritten : ∀ event ∈ later, written codec blocked event = none) :
    reading codec blocked (events ++ .choose session next fits :: later) session = next ∧
      ∀ view value, (run codec blocked (events ++ .choose session next fits :: later)).shown session view = some value →
        value = next := by
  have hreading : ∀ kept, (∀ event ∈ kept, event ∈ later) →
      reading codec blocked (events ++ .choose session next fits :: kept) session = next := by
    intro kept hkept
    rw [List.append_cons, reading_append (fun event h => hheld event (hkept event h))
      fun event h => hwritten event (hkept event h), reading_choose]
  refine ⟨hreading later fun _ h => h, fun view value hshown => ?_⟩
  obtain ⟨before, drawn, after, hsplit, -, rfl, hafter⟩ := shown_run hshown
  have hredrawn : (.choose session next fits : Event T P S R) ∉ after := fun hmem =>
    absurd (hafter _ hmem) (by rw [redraws, decide_eq_true rfl]; exact Bool.noConfusion)
  -- The last drawing is the choice itself or comes after it.
  rcases List.append_eq_append_iff.mp hsplit with ⟨kept, rfl, hlater⟩ | ⟨kept, rfl, hchosen⟩
  · cases kept with
    | nil =>
      obtain ⟨rfl, rfl⟩ := List.cons.inj hlater
      rw [List.append_nil]
      exact hreading [] fun event h => (by cases h)
    | cons first kept =>
      obtain ⟨rfl, rfl⟩ := List.cons.inj hlater
      rw [List.append_assoc]
      exact hreading (kept ++ [drawn]) fun event h =>
        (List.mem_append.mp h).elim (List.mem_append_left _) fun hlast =>
          List.mem_append_right _ (List.mem_singleton.mp hlast ▸ List.mem_cons_self)
  · cases kept with
    | nil =>
      obtain ⟨rfl, rfl⟩ := List.cons.inj hchosen
      rw [List.append_nil] at hreading
      exact hreading [] fun event h => (by cases h)
    | cons first kept =>
      obtain ⟨rfl, rfl⟩ := List.cons.inj hchosen
      exact absurd (List.mem_append_right _ List.mem_cons_self) hredrawn

end Runs

end StoredChoice

end SparkDashboard.Library
