import SparkDashboard.Dashboard.Selection
import SparkDashboard.Library.RoundRobin
import SparkDashboard.Library.Stepping

/-!
# Engine rotation

A page's engine target stepping through all models and then each running engine, round and
round. Each step is taken from where the page is, among the engines running then.
-/

namespace SparkDashboard.Dashboard

open Browser Utf16 Library

def rotationCycle (engines : List EngineSnapshot) : List PageEngineTarget :=
  let running := engines.filter fun engine => decide (engine.status = .running)
  if running.length < 2 then [] else .all :: running.map fun engine => .engine engine.endpoint

def rotationTargetKey : Option PageEngineTarget → Utf16
  | none => utf16 "none"
  | some .all => utf16 "all"
  | some (.engine endpoint) => utf16 "engine:" ++ endpoint

def sameTarget (a b : PageEngineTarget) : Bool := decide (rotationTargetKey (some a) = rotationTargetKey (some b))

/-- Where the current target stands. The code's -1 is `none`. -/
def targetIndex (cycle : List PageEngineTarget) (current : Option PageEngineTarget) : Option Nat :=
  current.bind fun current => cycle.findIdx? fun target => sameTarget target current

def nextRotationTarget (cycle : List PageEngineTarget) (current : Option PageEngineTarget) :
    Option PageEngineTarget :=
  if cycle.length = 0 then none
  else
    match targetIndex cycle current with
    | none => cycle[0 % cycle.length]?
    | some i => cycle[(i + 1) % cycle.length]?

/-- One step of the rotation against the engines of the moment. Without a next target the page
keeps the one it has. -/
def rotate (current : Option PageEngineTarget) (engines : List EngineSnapshot) :
    Option PageEngineTarget × Option PageEngineTarget :=
  let next := nextRotationTarget (rotationCycle engines) current
  (next, next.or current)

theorem rotationTargetKey_injective {a b : PageEngineTarget}
    (h : rotationTargetKey (some a) = rotationTargetKey (some b)) : a = b := by
  cases a with
  | all =>
    cases b with
    | all => rfl
    | engine endpoint => exact absurd (List.cons.inj h).1 (by decide)
  | engine endpoint =>
    cases b with
    | all => exact absurd (List.cons.inj h).1 (by decide)
    | engine other => rw [List.append_cancel_left h]

theorem sameTarget_iff {a b : PageEngineTarget} : sameTarget a b = true ↔ a = b := by
  rw [sameTarget, decide_eq_true_iff]
  exact ⟨rotationTargetKey_injective, fun h => h ▸ rfl⟩

theorem rotationCycle_eq_nil_iff {engines : List EngineSnapshot} :
    rotationCycle engines = [] ↔ (runningEngines engines).length < 2 := by
  rw [rotationCycle, runningEngines]
  split
  · rename_i hfew
    exact iff_of_true rfl hfew
  · rename_i hfew
    exact iff_of_false (List.cons_ne_nil _ _) hfew

theorem rotationCycle_of_two_le {engines : List EngineSnapshot} (h : 2 ≤ (runningEngines engines).length) :
    rotationCycle engines = .all :: (runningEngines engines).map fun engine => .engine engine.endpoint :=
  if_neg (Nat.not_lt.mpr h)

theorem nodup_rotationCycle {engines : List EngineSnapshot}
    (hdistinct : ((runningEngines engines).map EngineSnapshot.endpoint).Nodup) : (rotationCycle engines).Nodup := by
  rw [rotationCycle]
  split
  · exact List.nodup_nil
  · rw [List.nodup_cons]
    constructor
    · intro hall
      obtain ⟨engine, _, hengine⟩ := List.mem_map.mp hall
      cases hengine
    · have htargets := hdistinct.map (f := PageEngineTarget.engine) fun a b hab => PageEngineTarget.engine.inj hab
      rwa [List.map_map] at htargets

theorem targetIndex_of_not_mem {cycle : List PageEngineTarget} {current : Option PageEngineTarget}
    (h : ∀ target ∈ current, target ∉ cycle) : targetIndex cycle current = none := by
  rw [targetIndex, Option.bind_eq_none_iff]
  intro target htarget
  rw [List.findIdx?_eq_none_iff]
  intro other hother
  rw [Bool.eq_false_iff, ne_eq, sameTarget_iff]
  rintro rfl
  exact h other htarget hother

theorem targetIndex_of_getElem? {cycle : List PageEngineTarget} (hnodup : cycle.Nodup) {i : Nat}
    {target : PageEngineTarget} (h : cycle[i]? = some target) : targetIndex cycle (some target) = some i := by
  obtain ⟨hi, hget⟩ := List.getElem?_eq_some_iff.mp h
  rw [targetIndex, Option.bind_some, List.findIdx?_eq_some_iff_getElem]
  refine ⟨hi, sameTarget_iff.mpr hget, ?_⟩
  intro j hj hsame
  have heq : cycle[j] = cycle[i] := (sameTarget_iff.mp hsame).trans hget.symm
  exact Nat.ne_of_lt hj ((List.Nodup.getElem_inj_iff hnodup).mp heq)

theorem nextRotationTarget_of_not_mem {cycle : List PageEngineTarget} {current : Option PageEngineTarget}
    (h : ∀ target ∈ current, target ∉ cycle) : nextRotationTarget cycle current = cycle.head? := by
  rw [nextRotationTarget, targetIndex_of_not_mem h]
  split
  · rename_i hempty
    rw [List.length_eq_zero_iff.mp hempty, List.head?_nil]
  · rw [Nat.zero_mod, List.head?_eq_getElem?]

/-- A cycle that is not empty always has a next target, whatever the current one is. -/
theorem nextRotationTarget_mem {cycle : List PageEngineTarget} (h : cycle ≠ []) (current : Option PageEngineTarget) :
    ∃ target ∈ cycle, nextRotationTarget cycle current = some target := by
  have hlength : 0 < cycle.length := List.length_pos_iff.mpr h
  have hread : ∀ i, ∃ target ∈ cycle, cycle[i % cycle.length]? = some target := by
    intro i
    have hi := Nat.mod_lt i hlength
    exact ⟨cycle[i % cycle.length], List.getElem_mem hi, List.getElem?_eq_getElem hi⟩
  rw [nextRotationTarget, if_neg hlength.ne']
  split
  · exact hread 0
  · exact hread _

theorem stepsRound_nextRotationTarget {cycle : List PageEngineTarget} (hnodup : cycle.Nodup) :
    RoundRobin.StepsRound (nextRotationTarget cycle) (cycle.map some) := by
  intro i current hcurrent
  rw [List.getElem?_map, Option.map_eq_some_iff] at hcurrent
  obtain ⟨target, htarget, rfl⟩ := hcurrent
  have hlength : 0 < cycle.length := Nat.zero_lt_of_lt (List.getElem?_eq_some_iff.mp htarget).1
  have hnext := Nat.mod_lt (i + 1) hlength
  have hstep : nextRotationTarget cycle (some target) = some cycle[(i + 1) % cycle.length] := by
    rw [nextRotationTarget, if_neg hlength.ne', targetIndex_of_getElem? hnodup htarget]
    exact List.getElem?_eq_getElem hnext
  rw [hstep, List.length_map, List.getElem?_map, List.getElem?_eq_getElem hnext, Option.map_some]

theorem rotate_output (current : Option PageEngineTarget) (engines : List EngineSnapshot) :
    (2 ≤ (runningEngines engines).length → ∃ target ∈ rotationCycle engines, (rotate current engines).1 = some target) ∧
    ((runningEngines engines).length < 2 → (rotate current engines).1 = none) := by
  constructor
  · intro hrunning
    have hcycle : rotationCycle engines ≠ [] := fun hempty => Nat.not_lt.mpr hrunning (rotationCycle_eq_nil_iff.mp hempty)
    exact nextRotationTarget_mem hcycle current
  · intro hfew
    rw [rotate, rotationCycle_eq_nil_iff.mpr hfew]
    rfl

theorem rotation_fair {engines : List EngineSnapshot} (hrunning : 2 ≤ (runningEngines engines).length)
    (hdistinct : ((runningEngines engines).map EngineSnapshot.endpoint).Nodup) :
    rotationCycle engines = .all :: (runningEngines engines).map (fun engine => .engine engine.endpoint) ∧
    (∀ target ∈ rotationCycle engines,
      (nextRotationTarget (rotationCycle engines))^[(rotationCycle engines).length] (some target) = some target ∧
      ∀ k, (List.iterate (nextRotationTarget (rotationCycle engines))
        ((nextRotationTarget (rotationCycle engines))^[k] (some target)) (rotationCycle engines).length).Perm
          ((rotationCycle engines).map some)) ∧
    (∀ current : Option PageEngineTarget, (∀ target ∈ current, target ∉ rotationCycle engines) →
      nextRotationTarget (rotationCycle engines) current = (rotationCycle engines).head?) ∧
    ∀ (start : Option PageEngineTarget) (lists : List (List EngineSnapshot)),
      ∀ e ∈ Stepping.trace rotate start lists,
        (2 ≤ (runningEngines e.input).length → ∃ target ∈ rotationCycle e.input, e.output = some target) ∧
        ((runningEngines e.input).length < 2 → e.output = none) := by
  have hround := stepsRound_nextRotationTarget (nodup_rotationCycle hdistinct)
  refine ⟨rotationCycle_of_two_le hrunning, ?_, fun _ h => nextRotationTarget_of_not_mem h, ?_⟩
  · intro target htarget
    have hmem : some target ∈ (rotationCycle engines).map some := List.mem_map_of_mem htarget
    constructor
    · have hreturn := RoundRobin.iterate_length hround hmem
      rwa [List.length_map] at hreturn
    · intro k
      have hperm := RoundRobin.iterate_perm hround hmem k
      rwa [List.length_map] at hperm
  · exact Stepping.forall_mem_trace_of_entry rotate_output

/-- Two models and all of them: three steps come back. -/
theorem rotation_fair_pair :
    (nextRotationTarget [.all, .engine (utf16 "a"), .engine (utf16 "b")])^[3] (some .all) = some .all :=
  ((@rotation_fair
    [{ engineType := .vllm, endpoint := utf16 "a" }, { engineType := .sglang, endpoint := utf16 "b" }]
    (by decide) (by decide)).2.1 .all (by decide)).1

end SparkDashboard.Dashboard
