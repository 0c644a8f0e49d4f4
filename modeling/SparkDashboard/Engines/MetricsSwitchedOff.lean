import SparkDashboard.Engines.LlamaCpp
import SparkDashboard.Library.Stepping

/-!
# A router and its metrics verdict

The role and the metrics verdict are learned from different requests, answered or not
in any order. The verdict looks at the role when it is latched; what is learned of the
role afterwards does not look back at the verdict.
-/

namespace SparkDashboard.Engines.LlamaCppAdapter

open Stepping LlamaCpp

/-- An adapter between two answers, and whether `/models` is still to be asked. -/
structure Conversation where
  adapter : LlamaCppAdapter
  modelsPending : Bool

inductive Answer where
  | props (answer : JsonAnswer)
  | models (answer : JsonAnswer)
  | metrics (poll : LlamaCppPoll)

def take (c : Conversation) : Answer → Conversation
  | .props answer =>
    ⟨c.adapter.learnProps (propsAnswer answer), c.adapter.asksModels (propsAnswer answer)⟩
  | .models answer =>
    if c.modelsPending then ⟨c.adapter.learnModels (modelsAnswer answer), false⟩ else c
  | .metrics poll => ⟨(c.adapter.getMetrics poll).2, c.modelsPending⟩

def answering (c : Conversation) (answer : Answer) : Unit × Conversation := ((), take c answer)

def started (servedModel : Option String) : Conversation := ⟨.new servedModel, false⟩

-- A whole `get_model_info` is its two answers in a row.
example (a : LlamaCppAdapter) (props models : JsonAnswer) :
    (a.getModelInfo props models).2 = (final answering ⟨a, false⟩ [.props props, .models models]).adapter := by
  simp only [final_cons, final_nil, answering, take, asksModels, getModelInfo, decide_eq_true_eq]
  by_cases hrefused : propsAnswer props = .refused
  · simp [hrefused]
  · by_cases hrouter : (a.learnProps (propsAnswer props)).learned.role = some .router
    · simp [hrefused, hrouter]
    · simp [hrefused, hrouter]

/-- The answer says the server is a router: `/props` by its role, `/models` by its list. -/
def NamesRouter (c : Conversation) : Answer → Prop
  | .props answer => ∃ facts, propsAnswer answer = .facts facts ∧ facts.role = .router
  | .models answer => c.modelsPending = true ∧ modelsAnswer answer = .router
  | .metrics _ => False

def RouterNeverOff (a : LlamaCppAdapter) : Prop := a.learned.role = some .router → a.metricsOff = false

theorem metricsOff_iff {a : LlamaCppAdapter} : a.metricsOff = true ↔ a.metricsAccess = .off := by
  rw [metricsOff, decide_eq_true_eq]

theorem not_off_and_refused (a : LlamaCppAdapter) : ¬ (a.metricsOff = true ∧ a.metricsError ≠ none) := by
  rintro ⟨hoff, herror⟩
  rw [metricsOff_iff] at hoff
  apply herror
  rw [metricsError, hoff, if_neg (by decide)]

theorem latched_of_router (answer : MetricsAnswer) (was : MetricsAccess) :
    latched answer was (some .router) ≠ .off := by
  cases answer <;> cases was <;> decide

/-- An answered scrape never leaves a known router with metrics off. -/
theorem routerNeverOff_latch (a : LlamaCppAdapter) (answer : MetricsAnswer) :
    RouterNeverOff (a.latch answer) := by
  intro hrole
  rw [Bool.eq_false_iff, ne_eq, metricsOff_iff]
  intro hoff
  have hknown : a.learned.role = some .router → False := by
    intro hrouter
    have haccess : (a.latch answer).metricsAccess = latched answer a.metricsAccess a.learned.role := by
      cases answer <;> rfl
    rw [haccess, hrouter] at hoff
    exact latched_of_router answer a.metricsAccess hoff
  cases answer with
  | on => cases hrole
  | needsModel => cases a.learned.role <;> cases hoff
  | off => exact hknown hrole
  | refused => exact hknown hrole
  | transient => exact hknown hrole

theorem getMetrics_role_access (a : LlamaCppAdapter) (poll : LlamaCppPoll) :
    (a.getMetrics poll).2.learned.role = (a.latchPoll poll).learned.role ∧
      (a.getMetrics poll).2.metricsAccess = (a.latchPoll poll).metricsAccess := by
  have hwarm : ∀ b : LlamaCppAdapter, ∀ raw, (b.afterWarmup raw).learned.role = b.learned.role ∧
      (b.afterWarmup raw).metricsAccess = b.metricsAccess := by
    intro b raw
    rw [afterWarmup]
    split <;> exact ⟨rfl, rfl⟩
  rw [getMetrics]
  split
  · exact ⟨rfl, rfl⟩
  · exact hwarm (a.latchPoll poll) _

theorem routerNeverOff_getMetrics {a : LlamaCppAdapter} (h : RouterNeverOff a) (poll : LlamaCppPoll) :
    RouterNeverOff (a.getMetrics poll).2 := by
  obtain ⟨hrole, haccess⟩ := a.getMetrics_role_access poll
  have hlatched : RouterNeverOff (a.latchPoll poll) := by
    rw [latchPoll]
    split
    · exact routerNeverOff_latch a _
    · exact h
  intro hrouter
  rw [hrole] at hrouter
  rw [metricsOff, haccess]
  exact hlatched hrouter

theorem learnProps_metricsAccess (a : LlamaCppAdapter) (props : PropsAnswer) :
    (a.learnProps props).metricsAccess = a.metricsAccess := by
  cases props <;> rfl

theorem learnModels_metricsAccess (a : LlamaCppAdapter) (models : ModelsAnswer) :
    (a.learnModels models).metricsAccess = a.metricsAccess := by
  cases models <;> rfl

theorem role_learnProps_iff (a : LlamaCppAdapter) (props : PropsAnswer) :
    (a.learnProps props).learned.role = some .router ↔
      (∃ facts, props = .facts facts ∧ facts.role = .router) ∨
        ((∀ facts, props ≠ .facts facts) ∧ a.learned.role = some .router) := by
  cases props with
  | facts facts => simp [learnProps]
  | refused => simp [learnProps]
  | failed => simp [learnProps]

theorem role_learnModels_iff (a : LlamaCppAdapter) (models : ModelsAnswer) :
    (a.learnModels models).learned.role = some .router ↔
      models = .router ∨ ((∃ error, models = .failed error) ∧ a.learned.role = some .router) := by
  cases models with
  | model info => simp [learnModels, learnRole]
  | router => simp [learnModels, learnRole]
  | failed error => simp [learnModels, learnRole]

/-- Whether one answer breaks the rule is decided by what it names and the verdict it finds. -/
theorem routerNeverOff_take_iff {c : Conversation} (h : RouterNeverOff c.adapter) (answer : Answer) :
    RouterNeverOff (take c answer).adapter ↔ ¬ (c.adapter.metricsOff = true ∧ NamesRouter c answer) := by
  cases answer with
  | props answer =>
    simp only [RouterNeverOff, take, NamesRouter, metricsOff, learnProps_metricsAccess,
      role_learnProps_iff, decide_eq_true_eq, decide_eq_false_iff_not]
    constructor
    · rintro hnever ⟨hoff, hnames⟩
      exact hnever (.inl hnames) hoff
    · rintro hnot (hnames | ⟨-, hrole⟩) hoff
      · exact hnot ⟨hoff, hnames⟩
      · exact absurd hoff (of_decide_eq_false (h hrole))
  | models answer =>
    by_cases hpending : c.modelsPending = true
    · simp only [RouterNeverOff, take, hpending, if_true, NamesRouter, metricsOff,
        learnModels_metricsAccess, role_learnModels_iff, decide_eq_true_eq, decide_eq_false_iff_not]
      constructor
      · rintro hnever ⟨hoff, -, hnames⟩
        exact hnever (.inl hnames) hoff
      · rintro hnot (hnames | ⟨-, hrole⟩) hoff
        · exact hnot ⟨hoff, trivial, hnames⟩
        · exact absurd hoff (of_decide_eq_false (h hrole))
    · have hsame : take c (.models answer) = c := by
        rw [take, if_neg hpending]
      rw [hsame]
      exact iff_of_true h fun hbad => hpending hbad.2.1
  | metrics poll =>
    exact iff_of_true (routerNeverOff_getMetrics h poll) fun hbad => hbad.2

theorem forall_routerNeverOff_iff {c : Conversation} (h : RouterNeverOff c.adapter) (answers : List Answer) :
    (∀ e ∈ trace answering c answers, RouterNeverOff e.after.adapter) ↔
      ∀ e ∈ trace answering c answers, ¬ (e.before.adapter.metricsOff = true ∧ NamesRouter e.before e.input) := by
  have hiff : (∀ e ∈ trace answering c answers, RouterNeverOff e.after.adapter) ↔
      ∀ before e after, trace answering c answers = before ++ e :: after →
        ¬ (e.before.adapter.metricsOff = true ∧ NamesRouter e.before e.input) := by
    refine forall_good_iff (fun _ d => RouterNeverOff d.adapter) (fun e => RouterNeverOff e.after.adapter)
      (fun _ e => ¬ (e.before.adapter.metricsOff = true ∧ NamesRouter e.before e.input)) ?_ ?_ [] h answers
    · intro _ d answer hd
      exact routerNeverOff_take_iff hd answer
    · intro _ _ _ _ hgood
      exact hgood
  rw [hiff]
  constructor
  · intro hall e he
    obtain ⟨before, after, hsplit⟩ := List.append_of_mem he
    exact hall before e after hsplit
  · intro hall before e after hsplit
    refine hall e ?_
    rw [hsplit]
    exact List.mem_append_right before List.mem_cons_self

/-- A router is never reported with its metrics off exactly where no `/props` or `/models`
answer names a router while they are; off and refused never hold together. -/
theorem router_never_metricsOff_iff (servedModel : Option String) (answers : List Answer) :
    ((∀ e ∈ trace answering (started servedModel) answers, RouterNeverOff e.after.adapter) ↔
      ∀ e ∈ trace answering (started servedModel) answers,
        ¬ (e.before.adapter.metricsOff = true ∧ NamesRouter e.before e.input)) ∧
    ∀ e ∈ trace answering (started servedModel) answers,
      ¬ (e.after.adapter.metricsOff = true ∧ e.after.adapter.metricsError ≠ none) := by
  refine ⟨forall_routerNeverOff_iff ?_ answers, ?_⟩
  · intro hrole
    cases hrole
  · intro e _
    exact not_off_and_refused e.after.adapter

/-- `/metrics` answers 501 while `/props` is unanswered; `/props` then names a router, and
the next scrape is not answered. -/
def verdictBeforeRole : List Answer :=
  [.props none, .models none, .metrics ⟨some (501, none), none, 0⟩,
    .props (some (200, some (.object [("role", .string "router")]))), .metrics ⟨none, none, 1⟩]

theorem router_metricsOff_after_verdict :
    ¬ ∀ e ∈ trace answering (started none) verdictBeforeRole, RouterNeverOff e.after.adapter := by
  intro h
  have hstates : (trace answering (started none) verdictBeforeRole).map
      (fun e => (e.after.adapter.learned.role, e.after.adapter.metricsOff)) =
      [(none, false), (none, false), (none, true), (some .router, true), (some .router, true)] := by
    decide +kernel
  have hmem : (some Role.router, true) ∈ (trace answering (started none) verdictBeforeRole).map
      (fun e => (e.after.adapter.learned.role, e.after.adapter.metricsOff)) := by
    rw [hstates]
    decide
  obtain ⟨e, he, hstate⟩ := List.mem_map.mp hmem
  obtain ⟨hrole, hoff⟩ := Prod.mk.inj hstate
  have hnever := h e he hrole
  rw [hoff] at hnever
  cases hnever

end SparkDashboard.Engines.LlamaCppAdapter
