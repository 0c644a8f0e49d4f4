import Mathlib.Data.List.Induction
import SparkDashboard.Browser.Wire
import SparkDashboard.Dashboard.Grid
import SparkDashboard.Library.Stepping
import SparkDashboard.Library.StoredChoice

/-!
# Latency objectives

The thresholds goodput is measured against, one set for each model of each engine, kept in the browser's
storage as JSON. A panel holds the set of the model it shows and reads it again when it shows another.
-/

namespace SparkDashboard.Dashboard

open Browser Stepping Utf16
open Library.StoredChoice (last last_concat last_append_of_none)

/-- A positive number of milliseconds. -/
abbrev Threshold := {d : Double // 0 < d.value}

structure SloThresholds where
  ttftMs : Threshold
  itlMs : Threshold
  e2eMs : Threshold
  tpotMs : Threshold
  deriving DecidableEq

section Default

def wholeThreshold (ms : Nat) (hpos : 0 < ms) (hle : |(ms : Int)| ≤ 2 ^ 53) : Threshold :=
  ⟨⟨((ms : Int) : ℚ), Binary64.nearestDouble_intCast hle, by
    have hpow : (2 : ℚ) ^ 53 < 2 ^ 1024 := pow_lt_pow_right₀ (by norm_num) (by norm_num)
    exact lt_of_le_of_lt (by exact_mod_cast hle) hpow⟩, Int.cast_pos.mpr (Int.natCast_pos.mpr hpos)⟩

def defaultSlo : SloThresholds where
  ttftMs := wholeThreshold 500 (by decide) (by decide)
  itlMs := wholeThreshold 50 (by decide) (by decide)
  e2eMs := wholeThreshold 5000 (by decide) (by decide)
  tpotMs := wholeThreshold 50 (by decide) (by decide)

end Default

section Stored

def positive : JsNumber → Option Threshold
  | .finite d => if h : 0 < d.value then some ⟨d, h⟩ else none
  | _ => none

def storedThreshold (value : Value) (name : Utf16) : Option Threshold :=
  ((value.get name).bind Json.asNumber).bind positive

/-- The three first thresholds must be there; the last may be missing. -/
def parseStored (raw : Option Utf16) : Option SloThresholds := do
  let value : Value ← raw.bind (Json.parse JsNumber.ofNumeral)
  let ttftMs ← storedThreshold value (utf16 "ttftMs")
  let itlMs ← storedThreshold value (utf16 "itlMs")
  let e2eMs ← storedThreshold value (utf16 "e2eMs")
  let tpotMs ← if (value.get (utf16 "tpotMs")).isNone then some defaultSlo.tpotMs
    else storedThreshold value (utf16 "tpotMs")
  some ⟨ttftMs, itlMs, e2eMs, tpotMs⟩

def thresholdMember (name : Utf16) (threshold : Threshold) : Utf16 × Value := (name, .number (.finite threshold.1))

def stringify (thresholds : SloThresholds) : Utf16 :=
  Json.write JsNumber.toNumeral (.object [thresholdMember (utf16 "ttftMs") thresholds.ttftMs,
    thresholdMember (utf16 "itlMs") thresholds.itlMs, thresholdMember (utf16 "e2eMs") thresholds.e2eMs,
    thresholdMember (utf16 "tpotMs") thresholds.tpotMs])

/-- As it was written before there was a fourth threshold. -/
def stringifyThree (thresholds : SloThresholds) : Utf16 :=
  Json.write JsNumber.toNumeral (.object [thresholdMember (utf16 "ttftMs") thresholds.ttftMs,
    thresholdMember (utf16 "itlMs") thresholds.itlMs, thresholdMember (utf16 "e2eMs") thresholds.e2eMs])

theorem positive_threshold (threshold : Threshold) : positive (.finite threshold.1) = some threshold :=
  dif_pos threshold.2

theorem parse_members (members : List (Utf16 × Threshold)) :
    Json.parse JsNumber.ofNumeral (Json.write JsNumber.toNumeral
      (.object (members.map fun m => thresholdMember m.1 m.2))) =
      some (.object (members.map fun m => thresholdMember m.1 m.2)) := by
  apply Json.parse_write
  rw [Json.numbersIn_object]
  intro member hmember
  obtain ⟨m, -, rfl⟩ := List.mem_map.mp hmember
  rw [thresholdMember, Json.NumbersIn]
  exact JsNumber.prints_finite m.2.1

theorem storedThreshold_of_get {value : Value} {name : Utf16} (threshold : Threshold)
    (h : value.get name = some (.number (.finite threshold.1))) : storedThreshold value name = some threshold := by
  rw [storedThreshold, h]
  exact positive_threshold threshold

/-- What is written reads back, and what was written without the fourth threshold has it at its default. -/
theorem parseStored_stringify (thresholds : SloThresholds) :
    parseStored (some (stringify thresholds)) = some thresholds ∧
      parseStored (some (stringifyThree thresholds)) = some { thresholds with tpotMs := defaultSlo.tpotMs } := by
  obtain ⟨ttftMs, itlMs, e2eMs, tpotMs⟩ := thresholds
  have hfour := parse_members [(utf16 "ttftMs", ttftMs), (utf16 "itlMs", itlMs), (utf16 "e2eMs", e2eMs),
    (utf16 "tpotMs", tpotMs)]
  have hthree := parse_members [(utf16 "ttftMs", ttftMs), (utf16 "itlMs", itlMs), (utf16 "e2eMs", e2eMs)]
  simp only [List.map_cons, List.map_nil] at hfour hthree
  constructor
  · rw [parseStored, Option.bind_some, stringify, hfour]
    simp only [Option.bind_eq_bind, Option.bind_some]
    rw [storedThreshold_of_get ttftMs rfl, storedThreshold_of_get itlMs rfl,
      storedThreshold_of_get e2eMs rfl, storedThreshold_of_get tpotMs rfl]
    rfl
  · rw [parseStored, Option.bind_some, stringifyThree, hthree]
    simp only [Option.bind_eq_bind, Option.bind_some]
    rw [storedThreshold_of_get ttftMs rfl, storedThreshold_of_get itlMs rfl,
      storedThreshold_of_get e2eMs rfl]
    rfl

end Stored

section Draft

/-- The four fields of the control, as typed. -/
structure FieldDraft where
  ttftMs : Utf16
  itlMs : Utf16
  e2eMs : Utf16
  tpotMs : Utf16

def toDraft (thresholds : SloThresholds) : FieldDraft where
  ttftMs := (JsNumber.finite thresholds.ttftMs.1).toText
  itlMs := (JsNumber.finite thresholds.itlMs.1).toText
  e2eMs := (JsNumber.finite thresholds.e2eMs.1).toText
  tpotMs := (JsNumber.finite thresholds.tpotMs.1).toText

def parseDraft (draft : FieldDraft) : Option SloThresholds := do
  let ttftMs ← positive (JsNumber.ofString draft.ttftMs)
  let itlMs ← positive (JsNumber.ofString draft.itlMs)
  let e2eMs ← positive (JsNumber.ofString draft.e2eMs)
  let tpotMs ← positive (JsNumber.ofString draft.tpotMs)
  some ⟨ttftMs, itlMs, e2eMs, tpotMs⟩

/-- The control as it opens reads as the thresholds in force. -/
theorem parseDraft_toDraft (thresholds : SloThresholds) : parseDraft (toDraft thresholds) = some thresholds := by
  rw [parseDraft, toDraft]
  simp only [JsNumber.ofString_toText, positive_threshold, Option.bind_eq_bind, Option.bind_some]

end Draft

section Keys

def storagePrefix : Utf16 := utf16 "spark-dashboard:slo"

/-- Nothing is stored for no engine or no model. -/
def storageKey (engineKey modelName : Option Utf16) : Option Utf16 :=
  match engineKey, modelName with
  | some engineKey, some modelName =>
    if engineKey = [] ∨ modelName = [] then none
    else some (storagePrefix ++ utf16 ":" ++ engineKey ++ utf16 ":" ++ modelName)
  | _, _ => none

/-- Two models share a set only where one engine's key goes on from the other's with a colon. -/
theorem storageKey_shared {engine engine' model model' key : Utf16}
    (h : storageKey (some engine) (some model) = some key)
    (h' : storageKey (some engine') (some model') = some key) :
    engine = engine' ∧ model = model' ∨
      ∃ more, engine' = engine ++ 0x3A :: more ∨ engine = engine' ++ 0x3A :: more := by
  rw [storageKey] at h h'
  split at h
  · cases h
  split at h'
  · cases h'
  have heq : engine ++ 0x3A :: model = engine' ++ 0x3A :: model' := by
    have hkeys := (Option.some.inj h).trans (Option.some.inj h').symm
    simp only [List.append_assoc] at hkeys
    exact List.append_cancel_left (List.append_cancel_left hkeys)
  rcases List.append_eq_append_iff.mp heq with ⟨between, hengine, hrest⟩ | ⟨between, hengine, hrest⟩
  · cases between with
    | nil => exact .inl ⟨(hengine.trans (List.append_nil _)).symm, (List.cons.inj hrest).2⟩
    | cons u between =>
      obtain ⟨rfl, -⟩ := List.cons.inj hrest
      exact .inr ⟨between, .inl hengine⟩
  · cases between with
    | nil => exact .inl ⟨hengine.trans (List.append_nil _), (List.cons.inj hrest).2.symm⟩
    | cons u between =>
      obtain ⟨rfl, -⟩ := List.cons.inj hrest
      exact .inr ⟨between, .inr hengine⟩

end Keys

/-- Nothing is kept for no engine and for an engine without a model. -/
def sloKey (engine : Option ServedEngine) : Option Utf16 :=
  storageKey (engine.map fun e => engineKey e.identity) ((engine.bind (·.model)).map fun model => textOnWire model.name)

/-- The hook in one panel, with its control shut where there is no model to keep settings for. -/
structure SloHook where
  key : Option Utf16
  thresholds : SloThresholds
  disabled : Bool

/-- Panels of any tabs over one storage. -/
structure SloWorld (P : Type) where
  storage : Utf16 → Option Utf16 := fun _ => none
  hooks : P → Option SloHook := fun _ => none

/-- A panel is rendered with the engine it shows, if it shows one alone. -/
inductive SloEvent (P : Type) where
  | render (panel : P) (engine : Option ServedEngine) (readable : Bool)
  | unmount (panel : P)
  | apply (panel : P) (draft : FieldDraft) (fits : Bool)
  | reset (panel : P) (works : Bool)
  | other (key : Utf16) (raw : Option Utf16)

/-- The key a step writes under and what it leaves there. -/
abbrev SloWrite := Utf16 × Option Utf16

def leaves (key : Utf16) (write : SloWrite) : Option (Option Utf16) := if write.1 = key then some write.2 else none

theorem update_eq_leaves (storage : Utf16 → Option Utf16) (key other : Utf16) (raw : Option Utf16) :
    Function.update storage key raw other = (leaves other (key, raw)).getD (storage other) := by
  rw [Function.update_apply, leaves]
  rcases eq_or_ne key other with rfl | hne
  · rw [if_pos rfl, if_pos rfl, Option.getD_some]
  · rw [if_neg hne.symm, if_neg hne, Option.getD_none]

namespace SloWorld

variable {P : Type}

def readFromStorage (world : SloWorld P) (key : Option Utf16) (readable : Bool) : Option SloThresholds :=
  match key with
  | none => none
  | some key => if readable then parseStored (world.storage key) else none

section Stepping

variable [DecidableEq P]

def put (world : SloWorld P) (panel : P) (hook : Option SloHook) : SloWorld P :=
  { world with hooks := Function.update world.hooks panel hook }

/-- A panel that shows what it showed keeps its thresholds. -/
def rendered (world : SloWorld P) (panel : P) (key : Option Utf16) (readable : Bool) : SloThresholds :=
  let load := (world.readFromStorage key readable).getD defaultSlo
  match world.hooks panel with
  | some hook => if hook.key = key then hook.thresholds else load
  | none => load

/-- The thresholds take hold whether or not the storage takes them. -/
def edit (world : SloWorld P) (panel : P) (hook : SloHook) (next : SloThresholds) (raw : Option Utf16) (stores : Bool) :
    Option SloWrite × SloWorld P :=
  let edited := world.put panel (some { hook with thresholds := next })
  match hook.key with
  | some key =>
    if stores then (some (key, raw), { edited with storage := Function.update world.storage key raw })
    else (none, edited)
  | none => (none, edited)

/-- A draft with a field that is no positive number is not applied, and defaults are not reset. -/
def step (world : SloWorld P) : SloEvent P → Option SloWrite × SloWorld P
  | .render panel engine readable =>
    (none, world.put panel (some ⟨sloKey engine, world.rendered panel (sloKey engine) readable,
      (engine.bind (·.model)).isNone⟩))
  | .unmount panel => (none, world.put panel none)
  | .apply panel draft fits =>
    match world.hooks panel, parseDraft draft with
    | some hook, some next =>
      if hook.disabled then (none, world) else world.edit panel hook next (some (stringify next)) fits
    | _, _ => (none, world)
  | .reset panel works =>
    match world.hooks panel with
    | some hook =>
      if hook.disabled ∨ hook.thresholds = defaultSlo then (none, world)
      else world.edit panel hook defaultSlo none works
    | none => (none, world)
  | .other key raw => (some (key, raw), { world with storage := Function.update world.storage key raw })

end Stepping

section Effects

/-- What a panel holds, where an event changes that. -/
inductive Changed (world : SloWorld P) (panel : P) : SloEvent P → Option SloHook → Prop where
  | rendered (engine : Option ServedEngine) (readable : Bool) :
      Changed world panel (.render panel engine readable)
        (some ⟨sloKey engine, world.rendered panel (sloKey engine) readable, (engine.bind (·.model)).isNone⟩)
  | unmounted : Changed world panel (.unmount panel) none
  | applied {hook : SloHook} {draft : FieldDraft} {next : SloThresholds} (fits : Bool)
      (held : world.hooks panel = some hook) (enabled : hook.disabled = false) (valid : parseDraft draft = some next) :
      Changed world panel (.apply panel draft fits) (some { hook with thresholds := next })
  | reset {hook : SloHook} (works : Bool) (held : world.hooks panel = some hook) (enabled : hook.disabled = false)
      (customized : hook.thresholds ≠ defaultSlo) :
      Changed world panel (.reset panel works) (some { hook with thresholds := defaultSlo })

/-- What an event writes: an applied draft, nothing at a reset, anything from elsewhere. -/
inductive Writes (world : SloWorld P) : SloEvent P → SloWrite → Prop where
  | applied {panel : P} {hook : SloHook} {draft : FieldDraft} {next : SloThresholds} {key : Utf16}
      (held : world.hooks panel = some hook) (enabled : hook.disabled = false) (valid : parseDraft draft = some next)
      (keyed : hook.key = some key) : Writes world (.apply panel draft true) (key, some (stringify next))
  | reset {panel : P} {hook : SloHook} {key : Utf16} (held : world.hooks panel = some hook)
      (enabled : hook.disabled = false) (customized : hook.thresholds ≠ defaultSlo) (keyed : hook.key = some key) :
      Writes world (.reset panel true) (key, none)
  | other (key : Utf16) (raw : Option Utf16) : Writes world (.other key raw) (key, raw)

/-- What a step does, to the storage and to the panels. -/
structure Steps (world : SloWorld P) (event : SloEvent P) (written : Option SloWrite) (next : SloWorld P) : Prop where
  writes : ∀ write, written = some write → Writes world event write
  storage : ∀ key, next.storage key = (written.bind (leaves key)).getD (world.storage key)
  hooks : ∀ panel, next.hooks panel = world.hooks panel ∨ Changed world panel event (next.hooks panel)

theorem steps_refl (world : SloWorld P) (event : SloEvent P) : Steps world event none world where
  writes := nofun
  storage _ := rfl
  hooks _ := .inl rfl

/-- One step of a run over the storage and its panels. -/
abbrev SloEntry (P : Type) := Entry (SloWorld P) (SloEvent P) (Option SloWrite)

/-- What an entry leaves under a key, if it writes there. -/
def leftUnder (key : Utf16) (e : SloEntry P) : Option (Option Utf16) := e.output.bind (leaves key)

/-- A panel shows these thresholds, as those kept under the key. -/
def Shows (world : SloWorld P) (panel : P) (key : Option Utf16) (thresholds : SloThresholds) : Prop :=
  ∃ hook, world.hooks panel = some hook ∧ hook.key = key ∧ hook.thresholds = thresholds

/-- Where a panel has its thresholds from: what was stored when it came to show the key, or its own control. -/
inductive Gives (past : List (SloEntry P)) (e : SloEntry P) (panel : P) (key : Option Utf16)
    (thresholds : SloThresholds) : Prop where
  | loaded (engine : Option ServedEngine) (readable : Bool) (input : e.input = .render panel engine readable)
      (keyed : sloKey engine = key) (new : ∀ hook, e.before.hooks panel = some hook → hook.key ≠ key)
      (stored : thresholds =
        ((if readable then key else none).bind fun k => parseStored (last (leftUnder k) past)).getD defaultSlo)
  | applied (draft : FieldDraft) (fits : Bool) (input : e.input = .apply panel draft fits)
      (valid : parseDraft draft = some thresholds)
  | reset (works : Bool) (input : e.input = .reset panel works) (default : thresholds = defaultSlo)

/-- They were given once, and have been shown since. -/
def Origin (past : List (SloEntry P)) (panel : P) (key : Option Utf16) (thresholds : SloThresholds) : Prop :=
  ∃ before e after, past = before ++ e :: after ∧ Gives before e panel key thresholds ∧
    ∀ later ∈ e :: after, Shows later.after panel key thresholds

/-- What an entry does to the settings of the panels. -/
structure Handles (e : SloEntry P) : Prop where
  writes : ∀ write, e.output = some write → Writes e.before e.input write
  renders : ∀ panel engine readable, e.input = .render panel engine readable →
    ∃ thresholds, Shows e.after panel (sloKey engine) thresholds
  applies : ∀ panel hook draft fits next, e.before.hooks panel = some hook → hook.disabled = false →
    e.input = .apply panel draft fits → parseDraft draft = some next →
      Shows e.after panel hook.key next ∧
        ∀ key, hook.key = some key → fits = true → e.output = some (key, some (stringify next))
  resets : ∀ panel hook works, e.before.hooks panel = some hook → hook.disabled = false →
    e.input = .reset panel works → hook.thresholds ≠ defaultSlo →
      Shows e.after panel hook.key defaultSlo ∧
        ∀ key, hook.key = some key → works = true → e.output = some (key, none)
  lasts : ∀ panel hook, e.before.hooks panel = some hook →
    Shows e.after panel hook.key hook.thresholds ∨ e.input = .unmount panel ∨
      (∃ engine readable, e.input = .render panel engine readable ∧ sloKey engine ≠ hook.key) ∨
      (∃ draft fits, e.input = .apply panel draft fits ∧ hook.disabled = false ∧ parseDraft draft ≠ none) ∨
      ∃ works, e.input = .reset panel works ∧ hook.disabled = false ∧ hook.thresholds ≠ defaultSlo

theorem Origin.since {past : List (SloEntry P)} {e : SloEntry P} {panel : P} {key : Option Utf16}
    {thresholds : SloThresholds} (h : Origin past panel key thresholds) (hshows : Shows e.after panel key thresholds) :
    Origin (past ++ [e]) panel key thresholds := by
  obtain ⟨before, first, after, rfl, hgives, hafter⟩ := h
  refine ⟨before, first, after ++ [e], by rw [List.append_assoc, List.cons_append], hgives, fun later hlater => ?_⟩
  rw [← List.cons_append] at hlater
  rcases List.mem_append.mp hlater with hmem | hmem
  · exact hafter later hmem
  · rw [List.mem_singleton.mp hmem]
    exact hshows

theorem Gives.origin {past : List (SloEntry P)} {e : SloEntry P} {panel : P} {key : Option Utf16}
    {thresholds : SloThresholds} (h : Gives past e panel key thresholds)
    (hshows : Shows e.after panel key thresholds) : Origin (past ++ [e]) panel key thresholds :=
  ⟨past, e, [], rfl, h, fun later hlater => by rw [List.mem_singleton.mp hlater]; exact hshows⟩

theorem rendered_of_new {world : SloWorld P} {panel : P} {key : Option Utf16}
    (hnew : ∀ hook, world.hooks panel = some hook → hook.key ≠ key) (readable : Bool) :
    world.rendered panel key readable =
      ((if readable then key else none).bind fun k => parseStored (world.storage k)).getD defaultSlo := by
  have hload : (world.readFromStorage key readable).getD defaultSlo =
      ((if readable then key else none).bind fun k => parseStored (world.storage k)).getD defaultSlo := by
    cases key <;> cases readable <;> rfl
  rw [rendered, hload]
  cases hhook : world.hooks panel with
  | none => rfl
  | some hook => exact if_neg (hnew hook hhook)

/-- A panel keeps what it shows of the same key and loads what is stored under another. -/
theorem rendered_cases (world : SloWorld P) (panel : P) (key : Option Utf16) (readable : Bool) :
    (∃ old, world.hooks panel = some old ∧ old.key = key ∧ world.rendered panel key readable = old.thresholds) ∨
    ((∀ hook, world.hooks panel = some hook → hook.key ≠ key) ∧
      world.rendered panel key readable =
        ((if readable then key else none).bind fun k => parseStored (world.storage k)).getD defaultSlo) := by
  cases hhook : world.hooks panel with
  | none =>
    have hnew : ∀ hook, world.hooks panel = some hook → hook.key ≠ key := fun hook h => by cases hhook.symm.trans h
    exact .inr ⟨nofun, rendered_of_new hnew readable⟩
  | some old =>
    rcases eq_or_ne old.key key with hkey | hkey
    · refine .inl ⟨old, rfl, hkey, ?_⟩
      simp only [rendered, hhook, hkey, if_true]
    · have hnew : ∀ hook, world.hooks panel = some hook → hook.key ≠ key := by
        intro hook h
        rwa [← Option.some.inj (hhook.symm.trans h)]
      refine .inr ⟨?_, rendered_of_new hnew readable⟩
      rintro hook ⟨⟩
      exact hkey

end Effects

section Runs

variable [DecidableEq P]

theorem hooks_put (world : SloWorld P) (panel other : P) (hook : Option SloHook) :
    (world.put panel hook).hooks other = if other = panel then hook else world.hooks other := by
  rw [put]
  exact Function.update_apply world.hooks panel hook other

/-- Nothing is written. -/
theorem steps_put {world : SloWorld P} {event : SloEvent P} {panel : P} {hook : Option SloHook}
    (hchanged : Changed world panel event hook) : Steps world event none (world.put panel hook) where
  writes := nofun
  storage _ := rfl
  hooks other := by
    rw [hooks_put]
    split
    · rename_i hpanel
      rw [hpanel]
      exact .inr hchanged
    · exact .inl rfl

theorem steps_edit {world : SloWorld P} {event : SloEvent P} {panel : P} {hook : SloHook} {next : SloThresholds}
    {raw : Option Utf16} {stores : Bool} (hchanged : Changed world panel event (some { hook with thresholds := next }))
    (hwrites : ∀ key, hook.key = some key → stores = true → Writes world event (key, raw)) :
    Steps world event (world.edit panel hook next raw stores).1 (world.edit panel hook next raw stores).2 := by
  have hput := steps_put hchanged
  obtain ⟨held, thresholds, disabled⟩ := hook
  cases held with
  | none => exact hput
  | some key =>
    cases stores with
    | false => exact hput
    | true =>
      refine ⟨?_, fun other => ?_, hput.hooks⟩
      · rintro write ⟨⟩
        exact hwrites key rfl rfl
      · exact update_eq_leaves world.storage key other raw

theorem steps_step (world : SloWorld P) (event : SloEvent P) :
    Steps world event (step world event).1 (step world event).2 := by
  cases event with
  | render panel engine readable => exact steps_put (.rendered engine readable)
  | unmount panel => exact steps_put .unmounted
  | apply panel draft fits =>
    rw [step]
    split
    · rename_i hook next hheld hvalid
      split
      · exact steps_refl _ _
      · rename_i hdisabled
        have henabled := (Bool.not_eq_true _).mp hdisabled
        refine steps_edit (.applied fits hheld henabled hvalid) ?_
        rintro key hkey rfl
        exact .applied hheld henabled hvalid hkey
    · exact steps_refl _ _
  | reset panel works =>
    rw [step]
    split
    · rename_i hook hheld
      split
      · exact steps_refl _ _
      · rename_i hnot
        obtain ⟨hdisabled, hcustomized⟩ := not_or.mp hnot
        have henabled := (Bool.not_eq_true _).mp hdisabled
        refine steps_edit (.reset works hheld henabled hcustomized) ?_
        rintro key hkey rfl
        exact .reset hheld henabled hcustomized hkey
    · exact steps_refl _ _
  | other key raw =>
    refine ⟨?_, fun other => ?_, fun _ => .inl rfl⟩
    · rintro write ⟨⟩
      exact .other key raw
    · exact update_eq_leaves world.storage key other raw

theorem storage_final (events : List (SloEvent P)) (key : Utf16) :
    (final step {} events).storage key = last (leftUnder key) (trace step {} events) := by
  induction events using List.reverseRecOn with
  | nil => rfl
  | append_singleton events event ih =>
    rw [final_concat, trace_concat, last_concat, ← ih]
    exact (steps_step _ event).storage key

/-- Thresholds on the screen have been there since they were given. -/
theorem origin_final (events : List (SloEvent P)) : ∀ panel hook, (final step {} events).hooks panel = some hook →
    Origin (trace step {} events) panel hook.key hook.thresholds := by
  induction events using List.reverseRecOn with
  | nil => exact fun panel hook h => by cases h
  | append_singleton events event ih =>
    intro panel hook hhook
    rw [final_concat] at hhook
    rw [trace_concat]
    have hshows : Shows (entry step (final step {} events) event).after panel hook.key hook.thresholds :=
      ⟨hook, hhook, rfl, rfl⟩
    rcases (steps_step (final step {} events) event).hooks panel with hsame | hchanged
    · exact (ih panel hook (hsame.symm.trans hhook)).since hshows
    · rw [hhook] at hchanged
      cases hchanged with
      | rendered engine readable =>
        rcases rendered_cases (final step {} events) panel (sloKey engine) readable with
          ⟨old, hheld, hkey, hkept⟩ | ⟨hnew, hloaded⟩
        · have horigin := ih panel old hheld
          rw [hkey, ← hkept] at horigin
          exact horigin.since hshows
        · refine Gives.origin (.loaded engine readable rfl rfl hnew ?_) hshows
          simp only [hloaded, storage_final]
      | applied fits hheld henabled hvalid => exact Gives.origin (.applied _ fits rfl hvalid) hshows
      | reset works hheld henabled hcustomized => exact Gives.origin (.reset works rfl rfl) hshows

/-- An edit is shown, and written where the panel has a key and the storage takes it. -/
theorem edit_takesHold (world : SloWorld P) (panel : P) (hook : SloHook) (next : SloThresholds) (raw : Option Utf16)
    (stores : Bool) :
    Shows (world.edit panel hook next raw stores).2 panel hook.key next ∧
      ∀ key, hook.key = some key → stores = true → (world.edit panel hook next raw stores).1 = some (key, raw) := by
  obtain ⟨key, thresholds, disabled⟩ := hook
  have hput := hooks_put world panel panel (some ⟨key, next, disabled⟩)
  rw [if_pos rfl] at hput
  cases key with
  | none => exact ⟨⟨_, hput, rfl, rfl⟩, nofun⟩
  | some key =>
    cases stores with
    | false => exact ⟨⟨_, hput, rfl, rfl⟩, fun _ _ h => Bool.noConfusion h⟩
    | true =>
      refine ⟨⟨_, hput, rfl, rfl⟩, ?_⟩
      rintro other ⟨⟩ -
      rfl

theorem handles_step (world : SloWorld P) (event : SloEvent P) : Handles (entry step world event) where
  writes := (steps_step world event).writes
  renders := by
    rintro panel engine readable rfl
    exact ⟨_, _, (hooks_put world panel panel _).trans (if_pos rfl), rfl, rfl⟩
  applies := by
    rintro panel hook draft fits next hheld henabled rfl hvalid
    have hworld : world.hooks panel = some hook := hheld
    have hstep : step world (.apply panel draft fits) = world.edit panel hook next (some (stringify next)) fits := by
      simp only [step, hworld, hvalid, henabled, Bool.false_eq_true, if_false]
    rw [entry, hstep]
    exact edit_takesHold world panel hook next _ fits
  resets := by
    rintro panel hook works hheld henabled rfl hcustomized
    have hworld : world.hooks panel = some hook := hheld
    have hstep : step world (.reset panel works) = world.edit panel hook defaultSlo none works := by
      simp only [step, hworld, henabled, hcustomized, Bool.false_eq_true, or_self, if_false]
    rw [entry, hstep]
    exact edit_takesHold world panel hook defaultSlo none works
  lasts := by
    intro panel hook hheld
    have hworld : world.hooks panel = some hook := hheld
    rcases (steps_step world event).hooks panel with hsame | hchanged
    · exact .inl ⟨hook, hsame.trans hworld, rfl, rfl⟩
    · cases hafter : (step world event).2.hooks panel with
      | none =>
        rw [hafter] at hchanged
        cases hchanged
        exact .inr (.inl rfl)
      | some next =>
        rw [hafter] at hchanged
        cases hchanged with
        | rendered engine readable =>
          rcases eq_or_ne (sloKey engine) hook.key with hkey | hkey
          · rcases rendered_cases world panel (sloKey engine) readable with ⟨old, hold, -, hkept⟩ | ⟨hnew, -⟩
            · obtain rfl := Option.some.inj (hworld.symm.trans hold)
              exact .inl ⟨_, hafter, hkey, hkept⟩
            · exact absurd hkey.symm (hnew hook hworld)
          · exact .inr (.inr (.inl ⟨engine, readable, rfl, hkey⟩))
        | applied fits held enabled valid =>
          obtain rfl := Option.some.inj (hworld.symm.trans held)
          exact .inr (.inr (.inr (.inl ⟨_, fits, rfl, enabled, fun hnone => by cases valid.symm.trans hnone⟩)))
        | reset works held enabled customized =>
          obtain rfl := Option.some.inj (hworld.symm.trans held)
          exact .inr (.inr (.inr (.inr ⟨works, rfl, enabled, customized⟩)))

/-- No panel is drawn for a model without a name. -/
def Named (events : List (SloEvent P)) : Prop :=
  ∀ panel engine readable model, .render panel (some engine) readable ∈ events → engine.model = some model →
    model.name ≠ ""

/-- A control is shut exactly where there is no key, and then the thresholds are the default ones. -/
def Shut (hook : SloHook) : Prop :=
  (hook.disabled = true ↔ hook.key = none) ∧ (hook.key = none → hook.thresholds = defaultSlo)

theorem sloKey_eq_none_iff {engine : Option ServedEngine}
    (h : ∀ served model, engine = some served → served.model = some model → model.name ≠ "") :
    sloKey engine = none ↔ (engine.bind (·.model)).isNone = true := by
  cases engine with
  | none => exact iff_of_true rfl rfl
  | some served =>
    cases hmodel : served.model with
    | none =>
      rw [sloKey, Option.bind_some, hmodel]
      exact iff_of_true rfl rfl
    | some model =>
      have hname : textOnWire model.name ≠ [] := fun hnil => h served model rfl hmodel (textOnWire_eq_nil.mp hnil)
      have hengine : engineKey served.identity ≠ [] := by simp [engineKey, utf16]
      rw [sloKey, Option.bind_some, hmodel]
      simp only [storageKey, Option.map_some, not_or.mpr ⟨hengine, hname⟩, if_false, reduceCtorEq, Option.isNone_some,
        Bool.false_eq_true]

theorem shut_final {events : List (SloEvent P)} (h : Named events) :
    ∀ panel hook, (final step {} events).hooks panel = some hook → Shut hook := by
  induction events using List.reverseRecOn with
  | nil => exact fun panel hook h => by cases h
  | append_singleton events event ih =>
    have hearlier := ih fun panel engine readable model hmem =>
      h panel engine readable model (List.mem_append_left _ hmem)
    intro panel hook hhook
    rw [final_concat] at hhook
    rcases (steps_step (final step {} events) event).hooks panel with hsame | hchanged
    · exact hearlier panel hook (hsame.symm.trans hhook)
    · rw [hhook] at hchanged
      cases hchanged with
      | rendered engine readable =>
        have hkey : sloKey engine = none ↔ (engine.bind (·.model)).isNone = true := by
          refine sloKey_eq_none_iff fun served model hserved hmodel => ?_
          subst hserved
          exact h panel served readable model (List.mem_append_right _ List.mem_cons_self) hmodel
        refine ⟨hkey.symm, fun hnone => ?_⟩
        change sloKey engine = none at hnone
        rcases rendered_cases (final step {} events) panel (sloKey engine) readable with
          ⟨old, hheld, hsame, hkept⟩ | ⟨-, hloaded⟩
        · exact hkept.trans ((hearlier panel old hheld).2 (hsame.trans hnone))
        · refine hloaded.trans ?_
          rw [hnone, ite_self, Option.bind_none, Option.getD_none]
      | applied fits held enabled valid =>
        have hshut := hearlier panel _ held
        refine ⟨hshut.1, fun hnone => ?_⟩
        exact Bool.noConfusion (enabled.symm.trans (hshut.1.mpr hnone))
      | reset works held enabled customized => exact ⟨(hearlier panel _ held).1, fun _ => rfl⟩

/-- How settings are kept over a run of any panels of any tabs. -/
structure SettingsKept (events : List (SloEvent P)) : Prop where
  storage : ∀ key, (final step {} events).storage key = last (leftUnder key) (trace step {} events)
  handles : ∀ e ∈ trace step {} events, Handles e
  shown : ∀ panel hook, (final step {} events).hooks panel = some hook →
    Origin (trace step {} events) panel hook.key hook.thresholds
  persists : ∀ before panel draft later hook key next, events = before ++ .apply panel draft true :: later →
    (final step {} before).hooks panel = some hook → hook.disabled = false → hook.key = some key →
    parseDraft draft = some next →
    (∀ e ∈ trace step (step (final step {} before) (.apply panel draft true)).2 later, leftUnder key e = none) →
    ∀ other engine, sloKey engine = some key →
      (∀ old, (final step {} events).hooks other = some old → old.key ≠ some key) →
      Shows (final step {} (events ++ [.render other engine true])) other (some key) next
  shut : Named events → ∀ panel hook, (final step {} events).hooks panel = some hook → Shut hook

theorem settingsKept (events : List (SloEvent P)) : SettingsKept events where
  storage := storage_final events
  handles := forall_mem_trace_of_entry handles_step {} events
  shown := origin_final events
  persists := by
    rintro before panel draft later hook key next rfl hheld henabled hkey hvalid huntouched other engine hengine hnew
    have hwritten : leftUnder key (entry step (final step {} before) (.apply panel draft true)) =
        some (some (stringify next)) := by
      have hhandles := handles_step (final step {} before) (.apply panel draft true)
      have houtput := (hhandles.applies panel hook draft true next hheld henabled rfl hvalid).2 key hkey rfl
      rw [leftUnder, houtput, Option.bind_some, leaves, if_pos rfl]
    have hstored : (final step {} (before ++ .apply panel draft true :: later)).storage key =
        some (stringify next) := by
      rw [storage_final, trace_append, trace_cons, List.append_cons, last_append_of_none huntouched, last_concat,
        hwritten]
      rfl
    rw [final_concat]
    rw [← hengine] at hnew
    have hrendered := rendered_of_new hnew true
    rw [if_pos rfl, hengine, Option.bind_some, hstored, (parseStored_stringify next).1, Option.getD_some] at hrendered
    refine ⟨_, (hooks_put _ other other _).trans (if_pos rfl), hengine, ?_⟩
    show rendered _ other (sloKey engine) true = next
    rw [hengine]
    exact hrendered
  shut := shut_final

end Runs

end SloWorld

def tight : SloThresholds := { defaultSlo with ttftMs := wholeThreshold 250 (by decide) (by decide) }

def tunedEngine : ServedEngine := ⟨{ engineType := .vllm, endpoint := utf16 "http://a:8000" }, some (.named "served")⟩

/-- The thresholds are tightened in a panel that is then closed. -/
def tightened : List (SloEvent Unit) :=
  [.render () (some tunedEngine) true, .apply () (toDraft tight) true] ++ [.unmount ()]

end SparkDashboard.Dashboard
