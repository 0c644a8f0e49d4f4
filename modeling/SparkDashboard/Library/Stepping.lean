import Mathlib.Algebra.BigOperators.Group.List.Basic
import Mathlib.Data.List.Basic

/-!
# Runs of stepping systems

A machine answers every input with an output and a next state; a guarded system
takes an event only where the event is enabled. Both are run over lists, and what
one step preserves is carried to a whole run here once.
-/

namespace Stepping

universe u v w

variable {σ : Type u} {ι : Type v} {ο : Type w}

/-- One step of a machine as an observer of the run sees it. -/
structure Entry (σ : Type u) (ι : Type v) (ο : Type w) where
  before : σ
  input : ι
  output : ο
  after : σ

def entry (step : σ → ι → ο × σ) (s : σ) (i : ι) : Entry σ ι ο :=
  ⟨s, i, (step s i).1, (step s i).2⟩

def trace (step : σ → ι → ο × σ) : σ → List ι → List (Entry σ ι ο)
  | _, [] => []
  | s, i :: rest => entry step s i :: trace step (step s i).2 rest

def final (step : σ → ι → ο × σ) (s : σ) (inputs : List ι) : σ :=
  inputs.foldl (fun t i => (step t i).2) s

@[simp] theorem trace_cons (step : σ → ι → ο × σ) (s : σ) (i : ι) (rest : List ι) :
    trace step s (i :: rest) = entry step s i :: trace step (step s i).2 rest := rfl

@[simp] theorem final_nil (step : σ → ι → ο × σ) (s : σ) : final step s [] = s := rfl

@[simp] theorem final_cons (step : σ → ι → ο × σ) (s : σ) (i : ι) (rest : List ι) :
    final step s (i :: rest) = final step (step s i).2 rest := rfl

theorem trace_append (step : σ → ι → ο × σ) (s : σ) (first rest : List ι) :
    trace step s (first ++ rest) = trace step s first ++ trace step (final step s first) rest := by
  induction first generalizing s with
  | nil => rfl
  | cons i first ih => rw [List.cons_append, trace_cons, trace_cons, ih, List.cons_append, final_cons]

theorem trace_concat (step : σ → ι → ο × σ) (s : σ) (inputs : List ι) (i : ι) :
    trace step s (inputs ++ [i]) = trace step s inputs ++ [entry step (final step s inputs) i] :=
  trace_append step s inputs [i]

theorem final_append (step : σ → ι → ο × σ) (s : σ) (first rest : List ι) :
    final step s (first ++ rest) = final step (final step s first) rest :=
  List.foldl_append

theorem final_concat (step : σ → ι → ο × σ) (s : σ) (inputs : List ι) (i : ι) :
    final step s (inputs ++ [i]) = (step (final step s inputs) i).2 :=
  final_append step s inputs [i]

theorem final_invariant {step : σ → ι → ο × σ} (Inv : σ → Prop) (preserved : ∀ s i, Inv s → Inv (step s i).2)
    {s : σ} (h : Inv s) (inputs : List ι) : Inv (final step s inputs) := by
  induction inputs generalizing s with
  | nil => exact h
  | cons i rest ih => exact ih (preserved s i h)

theorem final_invariant_of_forall {step : σ → ι → ο × σ} (Inv : σ → Prop) {Ok : ι → Prop}
    (preserved : ∀ s i, Ok i → Inv s → Inv (step s i).2) {s : σ} (h : Inv s) {inputs : List ι}
    (ok : ∀ i ∈ inputs, Ok i) : Inv (final step s inputs) := by
  induction inputs generalizing s with
  | nil => exact h
  | cons i rest ih =>
    obtain ⟨hfirst, hrest⟩ := List.forall_mem_cons.mp ok
    exact ih (preserved s i hfirst h) hrest

theorem exists_split_of_trace_eq {step : σ → ι → ο × σ} {s : σ} {inputs : List ι}
    {earlier later : List (Entry σ ι ο)} {e : Entry σ ι ο} (h : trace step s inputs = earlier ++ e :: later) :
    ∃ first i rest, inputs = first ++ i :: rest ∧ earlier = trace step s first ∧
      e = entry step (final step s first) i ∧ later = trace step (step (final step s first) i).2 rest := by
  induction inputs generalizing s earlier with
  | nil => exact absurd h.symm (List.append_ne_nil_of_right_ne_nil earlier (List.cons_ne_nil e later))
  | cons i rest ih =>
    cases earlier with
    | nil =>
      obtain ⟨rfl, rfl⟩ := List.cons.inj h
      exact ⟨[], i, rest, rfl, rfl, rfl, rfl⟩
    | cons first earlier =>
      obtain ⟨rfl, hrest⟩ := List.cons.inj h
      obtain ⟨before, j, after, rfl, rfl, rfl, rfl⟩ := ih hrest
      exact ⟨i :: before, j, after, rfl, rfl, rfl, rfl⟩

@[simp] theorem map_input_trace (step : σ → ι → ο × σ) (s : σ) (inputs : List ι) :
    (trace step s inputs).map Entry.input = inputs := by
  induction inputs generalizing s with
  | nil => rfl
  | cons i rest ih => rw [trace_cons, List.map_cons, ih]; rfl

/-- An invariant that may speak of the entries so far and of the inputs still to come
holds all along the run, and gives what it gives at every entry. -/
theorem forall_split_trace {step : σ → ι → ο × σ} (Inv : List (Entry σ ι ο) → σ → List ι → Prop)
    (Holds : List (Entry σ ι ο) → Entry σ ι ο → Prop)
    (preserved : ∀ past s i rest, Inv past s (i :: rest) →
      Inv (past ++ [entry step s i]) (step s i).2 rest)
    (gives : ∀ past s i rest, Inv past s (i :: rest) → Holds past (entry step s i))
    (past : List (Entry σ ι ο)) {s : σ} {inputs : List ι} (h : Inv past s inputs) :
    ∀ before e after, trace step s inputs = before ++ e :: after → Holds (past ++ before) e := by
  induction inputs generalizing past s with
  | nil =>
    intro before e after hsplit
    exact absurd hsplit.symm (List.append_ne_nil_of_right_ne_nil before (List.cons_ne_nil e after))
  | cons i rest ih =>
    intro before e after hsplit
    cases before with
    | nil =>
      obtain ⟨rfl, -⟩ := List.cons.inj hsplit
      rw [List.append_nil]
      exact gives past s i rest h
    | cons first before =>
      obtain ⟨rfl, hrest⟩ := List.cons.inj hsplit
      have hlater := ih _ (preserved past s i rest h) before e after hrest
      rwa [List.append_assoc] at hlater

theorem forall_mem_trace {step : σ → ι → ο × σ} (Inv : σ → List ι → Prop)
    {Holds : Entry σ ι ο → Prop}
    (preserved : ∀ s i rest, Inv s (i :: rest) → Inv (step s i).2 rest)
    (gives : ∀ s i rest, Inv s (i :: rest) → Holds (entry step s i))
    {s : σ} {inputs : List ι} (h : Inv s inputs) : ∀ e ∈ trace step s inputs, Holds e := by
  intro e he
  obtain ⟨before, after, hsplit⟩ := List.append_of_mem he
  exact forall_split_trace (fun _ => Inv) (fun _ => Holds) (fun _ => preserved) (fun _ => gives) [] h
    before e after hsplit

theorem forall_mem_trace_of_entry {step : σ → ι → ο × σ} {Holds : Entry σ ι ο → Prop}
    (gives : ∀ s i, Holds (entry step s i)) (s : σ) (inputs : List ι) :
    ∀ e ∈ trace step s inputs, Holds e :=
  forall_mem_trace (fun _ _ => True) (fun _ _ _ _ => trivial) (fun s i _ _ => gives s i) trivial

theorem eq_entry_of_mem_trace {step : σ → ι → ο × σ} {s : σ} {inputs : List ι} :
    ∀ e ∈ trace step s inputs, e = entry step e.before e.input :=
  forall_mem_trace_of_entry (fun _ _ => rfl) s inputs

/-- What one property of an entry gives at every state of the invariant, it gives along a whole run. -/
theorem forall_split_imp {step : σ → ι → ο × σ} (Inv : List (Entry σ ι ο) → σ → Prop)
    (Holds Gives : List (Entry σ ι ο) → Entry σ ι ο → Prop)
    (gives : ∀ past s i, Inv past s → Holds past (entry step s i) →
      Gives past (entry step s i) ∧ Inv (past ++ [entry step s i]) (step s i).2)
    (past : List (Entry σ ι ο)) {s : σ} {inputs : List ι} (h : Inv past s)
    (holds : ∀ before e after, trace step s inputs = before ++ e :: after → Holds (past ++ before) e) :
    ∀ before e after, trace step s inputs = before ++ e :: after → Gives (past ++ before) e := by
  induction inputs generalizing past s with
  | nil =>
    intro before e after hsplit
    exact absurd hsplit.symm (List.append_ne_nil_of_right_ne_nil before (List.cons_ne_nil e after))
  | cons i rest ih =>
    have hhere := holds [] (entry step s i) (trace step (step s i).2 rest) rfl
    rw [List.append_nil] at hhere
    obtain ⟨hgives, hnext⟩ := gives past s i h hhere
    intro before e after hsplit
    cases before with
    | nil =>
      obtain ⟨rfl, -⟩ := List.cons.inj hsplit
      rwa [List.append_nil]
    | cons first before =>
      obtain ⟨rfl, hrest⟩ := List.cons.inj hsplit
      have hlater := ih _ hnext (fun earlier e' after' h' => by
        rw [List.append_assoc]
        exact holds (entry step s i :: earlier) e' after' (congrArg (entry step s i :: ·) h')) before e after hrest
      rwa [List.append_assoc] at hlater

/-- Where each entry, as long as the invariant has lasted, is good exactly if it meets its
condition, and a good one keeps the invariant: all entries are good exactly if all meet it. -/
theorem forall_good_iff {step : σ → ι → ο × σ} (Inv : List (Entry σ ι ο) → σ → Prop)
    (Good : Entry σ ι ο → Prop) (Meets : List (Entry σ ι ο) → Entry σ ι ο → Prop)
    (good_iff : ∀ past s i, Inv past s → (Good (entry step s i) ↔ Meets past (entry step s i)))
    (keeps : ∀ past s i, Inv past s → Good (entry step s i) →
      Inv (past ++ [entry step s i]) (step s i).2)
    (past : List (Entry σ ι ο)) {s : σ} (h : Inv past s) (inputs : List ι) :
    (∀ e ∈ trace step s inputs, Good e) ↔
      ∀ before e after, trace step s inputs = before ++ e :: after → Meets (past ++ before) e := by
  induction inputs generalizing past s with
  | nil =>
    refine iff_of_true (fun e he => absurd he List.not_mem_nil) ?_
    intro before e after hsplit
    exact absurd hsplit.symm (List.append_ne_nil_of_right_ne_nil before (List.cons_ne_nil e after))
  | cons i rest ih =>
    rw [trace_cons, List.forall_mem_cons]
    constructor
    · rintro ⟨hgood, hrest⟩ before e after hsplit
      cases before with
      | nil =>
        obtain ⟨rfl, -⟩ := List.cons.inj hsplit
        rw [List.append_nil]
        exact (good_iff past s i h).mp hgood
      | cons first before =>
        obtain ⟨rfl, hafter⟩ := List.cons.inj hsplit
        have hlater := (ih _ (keeps past s i h hgood)).mp hrest before e after hafter
        rwa [List.append_assoc] at hlater
    · intro hmeets
      have hfirst := hmeets [] (entry step s i) _ rfl
      rw [List.append_nil] at hfirst
      have hgood := (good_iff past s i h).mpr hfirst
      refine ⟨hgood, (ih _ (keeps past s i h hgood)).mpr ?_⟩
      intro before e after hsplit
      have hlater := hmeets (entry step s i :: before) e after (by rw [hsplit]; rfl)
      rwa [List.append_cons] at hlater

/-- What holds at the start of a fold and not at its end is lost at a step between. -/
theorem exists_lost {step : σ → ι → σ} {P : σ → Prop} {s : σ} {inputs : List ι} (hs : P s)
    (hlost : ¬ P (inputs.foldl step s)) :
    ∃ first i rest, inputs = first ++ i :: rest ∧ P (first.foldl step s) ∧ ¬ P (step (first.foldl step s) i) := by
  induction inputs generalizing s with
  | nil => exact absurd hs hlost
  | cons i inputs ih =>
    by_cases hnext : P (step s i)
    · obtain ⟨first, j, rest, rfl, hbefore, hafter⟩ := ih hnext hlost
      exact ⟨i :: first, j, rest, rfl, hbefore, hafter⟩
    · exact ⟨[], i, inputs, rfl, hs, hnext⟩

section Simulation

variable {τ : Type u}

def outputs (step : σ → ι → ο × σ) (s : σ) (inputs : List ι) : List ο := (trace step s inputs).map Entry.output

theorem outputs_cons (step : σ → ι → ο × σ) (s : σ) (i : ι) (rest : List ι) :
    outputs step s (i :: rest) = (step s i).1 :: outputs step (step s i).2 rest := rfl

/-- The answer to an input, told from the state the inputs before it leave. -/
theorem getElem?_outputs (step : σ → ι → ο × σ) (s : σ) (first : List ι) (i : ι) (rest : List ι) :
    (outputs step s (first ++ i :: rest))[first.length]? = some (step (final step s first) i).1 := by
  induction first generalizing s with
  | nil => rfl
  | cons j first ih =>
    rw [List.cons_append, outputs_cons, List.length_cons, List.getElem?_cons_succ, final_cons]
    exact ih (step s j).2

/-- Machines whose related states answer alike and stay related answer every run alike. -/
theorem outputs_eq_of_simulates {step : σ → ι → ο × σ} {spec : τ → ι → ο × τ} (R : σ → τ → Prop)
    (answers : ∀ s t i, R s t → (step s i).1 = (spec t i).1)
    (keeps : ∀ s t i, R s t → R (step s i).2 (spec t i).2) {s : σ} {t : τ} (h : R s t) (inputs : List ι) :
    outputs step s inputs = outputs spec t inputs := by
  induction inputs generalizing s t with
  | nil => rfl
  | cons i rest ih => rw [outputs_cons, outputs_cons, answers s t i h, ih (keeps s t i h)]

end Simulation

section Emitting

variable {α : Type w}

/-- All that a machine which answers with lists gives out over a run. -/
def emitted (step : σ → ι → List α × σ) (s : σ) (inputs : List ι) : List α :=
  (trace step s inputs).flatMap Entry.output

theorem emitted_cons (step : σ → ι → List α × σ) (s : σ) (i : ι) (rest : List ι) :
    emitted step s (i :: rest) = (step s i).1 ++ emitted step (step s i).2 rest := rfl

theorem emitted_append (step : σ → ι → List α × σ) (s : σ) (first rest : List ι) :
    emitted step s (first ++ rest) = emitted step s first ++ emitted step (final step s first) rest := by
  rw [emitted, trace_append, List.flatMap_append]
  rfl

end Emitting

section Conserved

variable {M : Type*} [AddCommMonoid M]

/-- Where each step gives out what it takes in but for what is held, so does a run. -/
theorem sum_trace_conserved {step : σ → ι → ο × σ} (Inv : σ → List ι → Prop) (taken given : Entry σ ι ο → M)
    (held : σ → M) (preserved : ∀ s i rest, Inv s (i :: rest) → Inv (step s i).2 rest)
    (conserves : ∀ s i rest, Inv s (i :: rest) →
      taken (entry step s i) + held s = given (entry step s i) + held (step s i).2)
    {s : σ} {inputs : List ι} (h : Inv s inputs) :
    ((trace step s inputs).map taken).sum + held s =
      ((trace step s inputs).map given).sum + held (final step s inputs) := by
  induction inputs generalizing s with
  | nil => rfl
  | cons i rest ih =>
    rw [trace_cons, List.map_cons, List.map_cons, List.sum_cons, List.sum_cons, final_cons, add_assoc,
      add_left_comm, conserves s i rest h, add_left_comm, ih (preserved s i rest h), add_assoc]

end Conserved

section Guarded

variable {ε : Type v}

def run (step : σ → ε → Option σ) : σ → List ε → Option σ
  | s, [] => some s
  | s, e :: rest => (step s e).bind fun t => run step t rest

@[simp] theorem run_cons (step : σ → ε → Option σ) (s : σ) (e : ε) (rest : List ε) :
    run step s (e :: rest) = (step s e).bind fun t => run step t rest := rfl

/-- The invariant may use what is promised of every event of the run. -/
theorem run_invariant_of_forall {step : σ → ε → Option σ} {Inv : σ → Prop} {Ok : σ → ε → Prop}
    (preserved : ∀ s e t, Inv s → Ok s e → step s e = some t → Inv t)
    {s t : σ} {events : List ε} (hs : Inv s)
    (ok : ∀ before e after, events = before ++ e :: after → ∀ m, run step s before = some m → Ok m e)
    (h : run step s events = some t) : Inv t := by
  induction events generalizing s with
  | nil => exact (Option.some.inj h) ▸ hs
  | cons e rest ih =>
    obtain ⟨m, hm, hrest⟩ := Option.bind_eq_some_iff.mp h
    refine ih (preserved s e m hs (ok [] e rest rfl s rfl) hm) ?_ hrest
    intro before e' after hsplit k hk
    refine ok (e :: before) e' after (by rw [hsplit]; rfl) k ?_
    rw [run_cons, hm]
    exact hk

end Guarded

end Stepping
