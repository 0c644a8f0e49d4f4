import SparkDashboard.Dashboard.EngineTiles
import SparkDashboard.Dashboard.RotationClock
import SparkDashboard.Library.StoredChoice

/-!
# Viewing preferences

The latency statistic shown and the interval engines rotate at. Each is one choice for all panels of a tab,
kept in the browser's storage where that takes it and in the tab where it does not.
-/

namespace SparkDashboard.Dashboard

open Library Library.StoredChoice Utf16

section LatencyModes

def latencyModes : List LatencyMode := [.avg, .p50, .p95, .p99]

def serializeLatencyMode : LatencyMode → Utf16
  | .avg => utf16 "avg"
  | .p50 => utf16 "p50"
  | .p95 => utf16 "p95"
  | .p99 => utf16 "p99"

def defaultLatencyMode : LatencyMode := .avg

def parseLatencyMode (raw : Option Utf16) : LatencyMode :=
  (raw.bind fun text => latencyModes.find? fun mode => decide (serializeLatencyMode mode = text)).getD
    defaultLatencyMode

theorem parseLatencyMode_serialize (mode : LatencyMode) :
    parseLatencyMode (some (serializeLatencyMode mode)) = mode := by
  cases mode <;> rfl

/-- What is no statistic's text reads as the mean. -/
theorem parseLatencyMode_of_unknown {raw : Option Utf16} (h : ∀ mode, raw ≠ some (serializeLatencyMode mode)) :
    parseLatencyMode raw = defaultLatencyMode := by
  rw [parseLatencyMode]
  cases raw with
  | none => rfl
  | some text =>
    have hnone : (latencyModes.find? fun mode => decide (serializeLatencyMode mode = text)) = none :=
      List.find?_eq_none.mpr fun mode _ hmode => h mode (congrArg some (of_decide_eq_true hmode).symm)
    rw [Option.bind_some, hnone]
    rfl

def latencyMode : Codec LatencyMode Utf16 where
  parse := parseLatencyMode
  serialize := serializeLatencyMode
  parse_serialize := parseLatencyMode_serialize

end LatencyModes

section Rotation

def rotationIntervals : List RotationInterval := [.threeSeconds, .fiveSeconds, .tenSeconds, .twentySeconds]

def off : Utf16 := utf16 "off"

/-- Whatever reads as the number of an interval is that interval; the rest is off. -/
def parseEngineRotation : Option Utf16 → Option RotationInterval
  | none => none
  | some raw =>
    if raw = off then none
    else rotationIntervals.find? fun interval => decide (JsNumber.ofNat interval.ms = JsNumber.ofString raw)

def serializeEngineRotation : Option RotationInterval → Utf16
  | none => off
  | some interval => (JsNumber.ofNat interval.ms).toText

theorem ofNat_ms_injective : Function.Injective fun interval : RotationInterval => JsNumber.ofNat interval.ms := by
  intro first second h
  have hle : ∀ interval : RotationInterval, interval.ms ≤ 2 ^ 53 := by
    intro interval
    cases interval <;> decide
  have hms : first.ms = second.ms := by
    have hint := congrArg JsNumber.toInt h
    rw [JsNumber.toInt_ofNat (hle first), JsNumber.toInt_ofNat (hle second)] at hint
    exact Int.ofNat_inj.mp (Option.some.inj hint)
  cases first <;> cases second <;> first | rfl | exact absurd hms (by decide)

theorem find?_rotationIntervals {number : JsNumber} {interval : RotationInterval} :
    (rotationIntervals.find? fun other => decide (JsNumber.ofNat other.ms = number)) = some interval ↔
      JsNumber.ofNat interval.ms = number := by
  constructor
  · intro h
    have hfound := List.find?_some h
    exact of_decide_eq_true hfound
  · rintro rfl
    cases hfind : rotationIntervals.find? fun other =>
        decide (JsNumber.ofNat other.ms = JsNumber.ofNat interval.ms) with
    | none =>
      have hmem : interval ∈ rotationIntervals := by cases interval <;> decide
      exact absurd (decide_eq_true rfl) (List.find?_eq_none.mp hfind interval hmem)
    | some other =>
      have hfound := List.find?_some hfind
      exact congrArg some (ofNat_ms_injective (of_decide_eq_true hfound))

theorem ofString_toText_ms (interval : RotationInterval) :
    JsNumber.ofString (JsNumber.ofNat interval.ms).toText = JsNumber.ofNat interval.ms := by
  have hle : interval.ms ≤ 2 ^ 53 := by cases interval <;> decide
  obtain ⟨d, hd, -⟩ := JsNumber.ofNat_of_le hle
  rw [hd]
  exact JsNumber.ofString_toText d

theorem ofString_off : JsNumber.ofString off = .nan := by decide

/-- A stored text is an interval exactly if JavaScript reads it as the interval's number. -/
theorem parseEngineRotation_eq_some {raw : Option Utf16} {interval : RotationInterval} :
    parseEngineRotation raw = some interval ↔
      ∃ text, raw = some text ∧ JsNumber.ofString text = JsNumber.ofNat interval.ms := by
  cases raw with
  | none => exact iff_of_false (Option.some_ne_none interval).symm fun ⟨text, h, _⟩ => Option.some_ne_none text h.symm
  | some text =>
    rw [parseEngineRotation]
    split
    · rename_i hoff
      refine iff_of_false (Option.some_ne_none interval).symm ?_
      rintro ⟨other, hother, hnumber⟩
      obtain rfl := Option.some.inj hother
      rw [hoff, ofString_off] at hnumber
      have hle : interval.ms ≤ 2 ^ 53 := by cases interval <;> decide
      obtain ⟨d, hd, -⟩ := JsNumber.ofNat_of_le hle
      rw [hd] at hnumber
      cases hnumber
    · rw [find?_rotationIntervals]
      exact ⟨fun h => ⟨text, rfl, h.symm⟩, fun ⟨other, hother, h⟩ => Option.some.inj hother ▸ h.symm⟩

def engineRotation : Codec (Option RotationInterval) Utf16 where
  parse := parseEngineRotation
  serialize := serializeEngineRotation
  parse_serialize setting := by
    cases setting with
    | none => rfl
    | some interval => exact parseEngineRotation_eq_some.mpr ⟨_, rfl, ofString_toText_ms interval⟩

end Rotation

/-- How a preference follows what is chosen and stored, over a run of any tabs with any panels. -/
structure Follows {S : Type} (preference : Codec S Utf16) {T P : Type} [DecidableEq T] [DecidableEq P]
    (blocked : T → Bool) (events : List (Event T P S Utf16)) : Prop where
  reads : ∀ tab, read preference blocked (run preference blocked events) tab = reading preference blocked events tab
  drawn : ∀ tab panel,
    ((run preference blocked events).shown tab panel).isSome = (last (mounted tab panel) events).isSome
  shows : ∀ tab panel value, (run preference blocked events).shown tab panel = some value →
    ∃ before event after, events = before ++ event :: after ∧ redraws tab panel event = true ∧
      value = reading preference blocked (before ++ [event]) tab ∧ ∀ later ∈ after, redraws tab panel later = false
  together : ∀ before tab next fits later, events = before ++ .choose tab next fits :: later →
    (∀ event ∈ later, held blocked tab event = none ∧ written preference blocked event = none) →
    read preference blocked (run preference blocked events) tab = next ∧
      ∀ panel value, (run preference blocked events).shown tab panel = some value → value = next
  persists : ∀ before chooser next later, events = before ++ .choose chooser next true :: later →
    blocked chooser = false → (∀ event ∈ later, written preference blocked event = none) →
    ∀ tab, blocked tab = false → last (held blocked tab) events = none →
      read preference blocked (run preference blocked events) tab = next

theorem follows {S : Type} (preference : Codec S Utf16) {T P : Type} [DecidableEq T] [DecidableEq P]
    (blocked : T → Bool) (events : List (Event T P S Utf16)) : Follows preference blocked events where
  reads tab := read_run events tab
  drawn := isSome_shown_run events
  shows tab panel value h := shown_run h
  together := by
    rintro before tab next fits later rfl hlater
    rw [read_run]
    exact shown_after_choose (fun event h => (hlater event h).1) fun event h => (hlater event h).2
  persists := by
    rintro before chooser next later rfl hchooser hwritten tab htab hheld
    rw [read_run]
    exact reading_of_stored ⟨hchooser, htab⟩ hheld hwritten

/-- Both preferences follow every run; what stands in storage as no statistic is the mean, and it is an interval
exactly if JavaScript reads it as one. -/
theorem preferences_follow_choices (T P : Type) [DecidableEq T] [DecidableEq P] (blocked : T → Bool) :
    (∀ events : List (Event T P LatencyMode Utf16), Follows latencyMode blocked events) ∧
    (∀ events : List (Event T P (Option RotationInterval) Utf16), Follows engineRotation blocked events) ∧
    (∀ raw, (∀ mode, raw ≠ some (serializeLatencyMode mode)) → parseLatencyMode raw = defaultLatencyMode) ∧
    ∀ raw interval, parseEngineRotation raw = some interval ↔
      ∃ text, raw = some text ∧ JsNumber.ofString text = JsNumber.ofNat interval.ms :=
  ⟨follows latencyMode blocked, follows engineRotation blocked, fun _ => parseLatencyMode_of_unknown,
    fun _ _ => parseEngineRotation_eq_some⟩

end SparkDashboard.Dashboard
