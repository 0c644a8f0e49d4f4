import SparkDashboard.Dashboard.Load

/-!
# Bringing a document forward

The runner over any path of migrations. Its versions are JavaScript numbers, which count one
by one up to 2^53; among those it does what the runner over whole numbers does.
-/

namespace SparkDashboard.Dashboard

open JsNumber Utf16

/-- The steps one after the other, the version stamped one higher after each. -/
def stampedRun : List (Members → Members) → Int → Members → Members
  | [], _, document => document
  | step :: steps, version, document =>
    stampedRun steps (version + 1)
      (setMember (step document) "version" (.number (.ofRat (version + 1 : Int))))

def stepFrom (migrations : List DashboardMigration) (version : Int) : Option (Members → Members) :=
  (migrations.find? fun candidate => decide (candidate.fromVersion = version)).map DashboardMigration.migrate

theorem migrateFrom_succ (migrations : List DashboardMigration) (rounds : Nat) (document : Members) (version : Int) :
    migrateFrom migrations (rounds + 1) document version =
      (stepFrom migrations version).bind fun step =>
        migrateFrom migrations rounds
          (setMember (step document) "version" (.number (.ofRat (version + 1 : Int)))) (version + 1) := by
  rw [migrateFrom, stepFrom, Option.bind_map]
  rfl

theorem migrateFrom_eq_some_iff {migrations : List DashboardMigration} {rounds : Nat} {document result : Members}
    {version : Int} : migrateFrom migrations rounds document version = some result ↔
      ∃ steps, steps.length = rounds ∧
        (∀ i < rounds, stepFrom migrations (version + i) = steps[i]?) ∧ result = stampedRun steps version document := by
  induction rounds generalizing document version with
  | zero =>
    rw [migrateFrom, Option.some_inj]
    constructor
    · rintro rfl
      exact ⟨[], rfl, fun i hi => absurd hi (Nat.not_lt_zero i), rfl⟩
    · rintro ⟨steps, hlength, _, rfl⟩
      rw [List.length_eq_zero_iff.mp hlength, stampedRun]
  | succ rounds ih =>
    rw [migrateFrom_succ, Option.bind_eq_some_iff]
    constructor
    · rintro ⟨step, hstep, hrest⟩
      obtain ⟨steps, hlength, hsteps, rfl⟩ := ih.mp hrest
      refine ⟨step :: steps, congrArg (· + 1) hlength, ?_, rfl⟩
      intro i hi
      cases i with
      | zero =>
        rw [Nat.cast_zero, Int.add_zero]
        exact hstep
      | succ i =>
        have hnext := hsteps i (Nat.lt_of_succ_lt_succ hi)
        rw [Int.add_assoc, Int.add_comm 1] at hnext
        exact hnext
    · rintro ⟨steps, hlength, hsteps, rfl⟩
      cases steps with
      | nil => cases hlength
      | cons step steps =>
        have hfirst := hsteps 0 (Nat.succ_pos rounds)
        rw [Nat.cast_zero, Int.add_zero] at hfirst
        refine ⟨step, hfirst, ih.mpr ⟨steps, Nat.succ.inj hlength, ?_, rfl⟩⟩
        intro i hi
        have hnext := hsteps (i + 1) (Nat.succ_lt_succ hi)
        rw [Int.add_assoc, Int.add_comm 1]
        exact hnext

theorem migrateFrom_eq_none_iff {migrations : List DashboardMigration} {rounds : Nat} {document : Members}
    {version : Int} : migrateFrom migrations rounds document version = none ↔
      ∃ i < rounds, stepFrom migrations (version + i) = none := by
  induction rounds generalizing document version with
  | zero => simp [migrateFrom]
  | succ rounds ih =>
    rw [migrateFrom_succ]
    cases hstep : stepFrom migrations version with
    | none =>
      refine iff_of_true rfl ⟨0, Nat.succ_pos rounds, ?_⟩
      rw [Nat.cast_zero, Int.add_zero]
      exact hstep
    | some step =>
      rw [Option.bind_some, ih]
      constructor
      · rintro ⟨i, hi, hnone⟩
        refine ⟨i + 1, Nat.succ_lt_succ hi, ?_⟩
        rw [Int.add_assoc, Int.add_comm 1] at hnone
        exact hnone
      · rintro ⟨i, hi, hnone⟩
        cases i with
        | zero =>
          rw [Nat.cast_zero, Int.add_zero, hstep] at hnone
          cases hnone
        | succ i =>
          refine ⟨i, Nat.lt_of_succ_lt_succ hi, ?_⟩
          rw [Int.add_assoc, Int.add_comm 1]
          exact hnone

theorem member_setMember (members : Members) (name : String) (value : Value) :
    Json.member (setMember members name value) (utf16 name) = some value := by
  rw [Json.member, setMember, List.reverse_append, List.reverse_singleton, List.singleton_append,
    List.find?_cons_of_pos (by simp), Option.map_some]

/-- Whatever the steps did to it, the version is the one the runner stamped last. -/
theorem version_stampedRun {steps : List (Members → Members)} (h : steps ≠ []) (version : Int) (document : Members) :
    Json.member (stampedRun steps version document) (utf16 "version") =
      some (.number (.ofInt (version + steps.length))) := by
  induction steps generalizing version document with
  | nil => exact absurd rfl h
  | cons step steps ih =>
    rw [stampedRun]
    cases steps with
    | nil =>
      rw [stampedRun, member_setMember, List.length_singleton, Nat.cast_one, ofInt]
    | cons next steps =>
      rw [ih (List.cons_ne_nil next steps), List.length_cons (a := step), Nat.cast_succ, Int.add_assoc, Int.add_comm 1]

theorem asObject_eq_some_iff {raw : Value} {document : Members} :
    raw.asObject = some document ↔ raw = .object document := by
  cases raw with
  | object members =>
    rw [Json.asObject, Option.some_inj]
    exact ⟨congrArg Json.object, Json.object.inj⟩
  | _ =>
    constructor
    · rintro ⟨⟩
    · rintro ⟨⟩

/-- The three ways a run over whole numbers can end. -/
theorem runMigrations_cases (raw : Value) (n : Int) (path : MigrationPath) :
    (n = path.target ∧ runMigrations raw n path = .current raw) ∨
    (n < path.target ∧ ∃ document steps, raw = .object document ∧ steps.length = (path.target - n).toNat ∧
      (∀ i < (path.target - n).toNat, stepFrom path.migrations (n + i) = steps[i]?) ∧
      runMigrations raw n path = .migrated (.object (stampedRun steps n document)) (path.target - n).toNat) ∨
    (n ≠ path.target ∧
      ¬(n < path.target ∧ raw.isObject ∧ ∀ i < (path.target - n).toNat, (stepFrom path.migrations (n + i)).isSome) ∧
      runMigrations raw n path = .unmigratable n) := by
  rw [runMigrations]
  split
  · rename_i heq
    exact .inl ⟨heq, rfl⟩
  · rename_i hne
    split
    · rename_i hraw
      refine .inr (.inr ⟨hne, ?_, rfl⟩)
      rintro ⟨_, hobject, _⟩
      rw [Json.isObject, hraw] at hobject
      cases hobject
    · rename_i document hraw
      split
      · rename_i hnewer
        exact .inr (.inr ⟨hne, fun h => absurd h.1 (Int.not_lt.mpr hnewer.le), rfl⟩)
      · rename_i hnewer
        have hlt : n < path.target := by omega
        dsimp only
        cases hrun : migrateFrom path.migrations (path.target - n).toNat document n with
        | some result =>
          obtain ⟨steps, hlength, hsteps, rfl⟩ := migrateFrom_eq_some_iff.mp hrun
          exact .inr (.inl ⟨hlt, document, steps, asObject_eq_some_iff.mp hraw, hlength, hsteps, rfl⟩)
        | none =>
          obtain ⟨i, hi, hnone⟩ := migrateFrom_eq_none_iff.mp hrun
          refine .inr (.inr ⟨hne, ?_, rfl⟩)
          rintro ⟨_, _, hall⟩
          have hsome := hall i hi
          rw [hnone] at hsome
          cases hsome

namespace Numbered

structure DashboardMigration where
  fromVersion : JsNumber
  migrate : Members → Members

structure MigrationPath where
  migrations : List DashboardMigration
  target : JsNumber

inductive MigrationOutcome where
  | current (document : Value)
  | migrated (document : Value) (ran : Nat)
  | unmigratable (fromVersion : JsNumber)

def MigrationPath.stepFrom (path : MigrationPath) (version : JsNumber) : Option (Members → Members) :=
  (path.migrations.find? fun candidate => candidate.fromVersion.strictEq version).map DashboardMigration.migrate

/-- The loop of `runMigrations`. It is still running where there is no outcome. -/
def migrationLoop (path : MigrationPath) (fromVersion : JsNumber) :
    Nat → Members → JsNumber → Nat → Option MigrationOutcome
  | 0, _, _, _ => none
  | rounds + 1, document, version, ran =>
    if version.lt path.target then
      match path.stepFrom version with
      | none => some (.unmigratable fromVersion)
      | some step =>
        let next := version.add (.ofInt 1)
        migrationLoop path fromVersion rounds (setMember (step document) "version" (.number next)) next (ran + 1)
    else some (.migrated (.object document) ran)

def runMigrations (rounds : Nat) (raw : Value) (fromVersion : JsNumber) (path : MigrationPath) :
    Option MigrationOutcome :=
  if fromVersion.strictEq path.target then some (.current raw)
  else
    match raw.asObject with
    | none => some (.unmigratable fromVersion)
    | some document =>
      if path.target.lt fromVersion then some (.unmigratable fromVersion)
      else migrationLoop path fromVersion rounds document fromVersion 0

/-- The migration, if the version it reads is a whole number. -/
def DashboardMigration.whole (migration : DashboardMigration) : Option Dashboard.DashboardMigration :=
  migration.fromVersion.toInt.map fun n => ⟨n, migration.migrate⟩

def MigrationPath.whole (path : MigrationPath) (target : Int) : Dashboard.MigrationPath where
  migrations := path.migrations.filterMap DashboardMigration.whole
  target := target

/-- An outcome over whole numbers, for a run that began at `fromVersion`. -/
def numbered (fromVersion : JsNumber) : Dashboard.MigrationOutcome → MigrationOutcome
  | .current document => .current document
  | .migrated document ran => .migrated document ran
  | .unmigratable _ => .unmigratable fromVersion

theorem stepFrom_whole {migrations : List DashboardMigration} {version : JsNumber} {n : Int}
    (hversion : version.toInt = some n) :
    Dashboard.stepFrom (migrations.filterMap DashboardMigration.whole) n =
      (migrations.find? fun candidate => candidate.fromVersion.strictEq version).map DashboardMigration.migrate := by
  induction migrations with
  | nil => rfl
  | cons migration migrations ih =>
    rw [List.find?_cons, strictEq_of_toInt hversion, List.filterMap_cons, DashboardMigration.whole]
    cases hfrom : migration.fromVersion.toInt with
    | none => exact ih
    | some m =>
      rw [Option.map_some, Dashboard.stepFrom, List.find?_cons]
      by_cases hmn : m = n
      · simp [hmn]
      · have hne : ¬some m = some n := fun h => hmn (Option.some.inj h)
        rw [decide_eq_false hmn, decide_eq_false hne]
        exact ih

section Whole

variable {path : MigrationPath} {t : Int}

theorem migrationLoop_whole (ht : path.target.toInt = some t) (hsafe : t ≤ 2 ^ 53) (fromVersion : JsNumber)
    {k : Nat} {m : Int} (hm : -2 ^ 53 ≤ m) (hk : m + k = t) (document : Members) (ran : Nat) {rounds : Nat}
    (hrounds : k < rounds) :
    migrationLoop path fromVersion rounds document (ofInt m) ran =
      some ((migrateFrom (path.whole t).migrations k document m).elim (.unmigratable fromVersion)
        fun result => .migrated (.object result) (ran + k)) := by
  induction k generalizing m document ran rounds with
  | zero =>
    obtain ⟨rounds, rfl⟩ := Nat.exists_eq_succ_of_ne_zero (Nat.ne_of_gt hrounds)
    have hversion : (ofInt m).toInt = some m := toInt_ofInt (abs_le.mpr ⟨hm, by omega⟩)
    have hlt : ¬m < t := by omega
    rw [migrationLoop, lt_of_toInt hversion ht, decide_eq_false hlt, migrateFrom]
    rfl
  | succ k ih =>
    obtain ⟨rounds, rfl⟩ := Nat.exists_eq_succ_of_ne_zero (Nat.ne_of_gt (Nat.zero_lt_of_lt hrounds))
    have hversion : (ofInt m).toInt = some m := toInt_ofInt (abs_le.mpr ⟨hm, by omega⟩)
    have hone : (ofInt 1).toInt = some 1 := toInt_ofInt (by norm_num)
    have hlt : m < t := by omega
    have hstep : path.stepFrom (ofInt m) = Dashboard.stepFrom (path.whole t).migrations m :=
      (stepFrom_whole hversion).symm
    rw [migrationLoop, lt_of_toInt hversion ht, decide_eq_true hlt, if_pos rfl, hstep, migrateFrom_succ]
    cases Dashboard.stepFrom (path.whole t).migrations m with
    | none => rfl
    | some step =>
      rw [Option.bind_some, add_of_toInt hversion hone]
      have hrest := ih (m := m + 1) (by omega) (by omega)
        (setMember (step document) "version" (.number (ofInt (m + 1)))) (ran + 1) (Nat.lt_of_succ_lt_succ hrounds)
      rw [Nat.add_assoc, Nat.add_comm 1] at hrest
      exact hrest

/-- Among versions counted one by one the runner over JavaScript numbers ends, with the outcome
of the runner over whole numbers. -/
theorem runMigrations_whole {v : JsNumber} {n : Int} (hv : v.toInt = some n) (ht : path.target.toInt = some t)
    (hsafe : n < t → -2 ^ 53 ≤ n ∧ t ≤ 2 ^ 53) (raw : Value) {rounds : Nat} (hrounds : (t - n).toNat < rounds) :
    runMigrations rounds raw v path = some (numbered v (Dashboard.runMigrations raw n (path.whole t))) := by
  rw [runMigrations, Dashboard.runMigrations, strictEq_of_toInt ht, hv]
  have htarget : (path.whole t).target = t := rfl
  rw [htarget]
  by_cases heq : n = t
  · rw [if_pos heq, if_pos (decide_eq_true (congrArg some heq))]
    rfl
  · have hne : ¬some n = some t := fun h => heq (Option.some.inj h)
    rw [if_neg heq, decide_eq_false hne, if_neg Bool.false_ne_true]
    cases raw.asObject with
    | none => rfl
    | some document =>
      simp only [lt_of_toInt ht hv, decide_eq_true_eq]
      split
      · rfl
      · rename_i hnewer
        obtain ⟨hlow, hhigh⟩ := hsafe (by omega)
        have hloop := migrationLoop_whole ht hhigh v hlow (k := (t - n).toNat) (by omega) document 0 hrounds
        rw [ofInt_of_toInt hv, Nat.zero_add] at hloop
        rw [hloop]
        cases migrateFrom (path.whole t).migrations (t - n).toNat document n with
        | none => rfl
        | some result => rfl

end Whole

theorem runMigrations_spec {path : MigrationPath} {v : JsNumber} {n t : Int} (hv : v.toInt = some n)
    (ht : path.target.toInt = some t) (hsafe : n < t → -2 ^ 53 ≤ n ∧ t ≤ 2 ^ 53) (raw : Value) :
    ∃ outcome, (∀ rounds, (t - n).toNat < rounds → runMigrations rounds raw v path = some outcome) ∧
      ((n = t ∧ outcome = .current raw) ∨
        (n < t ∧ ∃ document steps, raw = .object document ∧ steps.length = (t - n).toNat ∧
          (∀ i < (t - n).toNat, path.stepFrom (ofInt (n + i)) = steps[i]?) ∧
          outcome = .migrated (.object (stampedRun steps n document)) (t - n).toNat ∧
          Json.member (stampedRun steps n document) (utf16 "version") = some (.number path.target)) ∨
        (n ≠ t ∧ ¬(n < t ∧ raw.isObject ∧ ∀ i < (t - n).toNat, (path.stepFrom (ofInt (n + i))).isSome) ∧
          outcome = .unmigratable v)) := by
  have hsteps : n < t → ∀ i < (t - n).toNat,
      path.stepFrom (ofInt (n + i)) = Dashboard.stepFrom (path.whole t).migrations (n + i) := by
    intro hlt i hi
    obtain ⟨hlow, hhigh⟩ := hsafe hlt
    exact (stepFrom_whole (toInt_ofInt (abs_le.mpr ⟨by omega, by omega⟩))).symm
  refine ⟨_, fun rounds hrounds => runMigrations_whole hv ht hsafe raw hrounds, ?_⟩
  rcases runMigrations_cases raw n (path.whole t) with ⟨heq, hrun⟩ | ⟨hlt, document, steps, hraw, hlength, hread, hrun⟩ |
    ⟨hne, hincomplete, hrun⟩
  · rw [hrun]
    exact .inl ⟨heq, rfl⟩
  · rw [hrun]
    have hversion : Json.member (stampedRun steps n document) (utf16 "version") = some (.number path.target) := by
      have hsome : steps ≠ [] := by
        rintro rfl
        have hzero : 0 = (t - n).toNat := hlength
        have hlt : n < t := hlt
        omega
      have hend : n + (steps.length : Int) = t := by
        have hlength : steps.length = (t - n).toNat := hlength
        have hlt : n < t := hlt
        omega
      rw [version_stampedRun hsome, hend, ofInt_of_toInt ht]
    refine .inr (.inl ⟨hlt, document, steps, hraw, hlength, ?_, rfl, hversion⟩)
    intro i hi
    rw [hsteps hlt i hi]
    exact hread i hi
  · rw [hrun]
    refine .inr (.inr ⟨hne, ?_, rfl⟩)
    rintro ⟨hlt, hobject, hall⟩
    refine hincomplete ⟨hlt, hobject, ?_⟩
    intro i hi
    rw [← hsteps hlt i hi]
    exact hall i hi

/-- Two steps, of which the second drops the version. -/
theorem runMigrations_spec_two :
    ∃ document, runMigrations 3 (.object []) (ofInt 1)
        ⟨[⟨ofInt 2, fun _ => [(utf16 "b", .null)]⟩, ⟨ofInt 1, fun document => (utf16 "a", .null) :: document⟩],
          ofInt 3⟩ = some (.migrated (.object document) 2) ∧
      Json.member document (utf16 "version") = some (.number (ofInt 3)) := by
  have hone : (ofInt 1).toInt = some 1 := by decide +kernel
  have hthree : (ofInt 3).toInt = some 3 := by decide +kernel
  obtain ⟨outcome, hruns, ⟨heq, _⟩ | ⟨_, document, steps, _, _, _, rfl, hversion⟩ | ⟨_, hincomplete, _⟩⟩ :=
    @runMigrations_spec
      ⟨[⟨ofInt 2, fun _ => [(utf16 "b", .null)]⟩, ⟨ofInt 1, fun document => (utf16 "a", .null) :: document⟩], ofInt 3⟩
      (ofInt 1) 1 3 hone hthree (by decide) (.object [])
  · cases heq
  · exact ⟨_, hruns 3 (by decide), hversion⟩
  · refine absurd ⟨by decide, rfl, ?_⟩ hincomplete
    decide +kernel

/-- A path beyond the numbers that are counted one by one. -/
def pathBeyond : MigrationPath := ⟨[⟨ofInt (2 ^ 53), id⟩], ofInt (2 ^ 53 + 2)⟩

/-- Adding one to 2^53 gives 2^53 again, so every round is the first one again. -/
theorem migrationLoop_pathBeyond (rounds : Nat) (document : Members) (ran : Nat) :
    migrationLoop pathBeyond (ofInt (2 ^ 53)) rounds document (ofInt (2 ^ 53)) ran = none := by
  have hlt : (ofInt (2 ^ 53)).lt pathBeyond.target = true := by decide +kernel
  have hsame : (ofInt (2 ^ 53)).add (ofInt 1) = ofInt (2 ^ 53) := by decide +kernel
  have hstep : pathBeyond.stepFrom (ofInt (2 ^ 53)) = some id := by
    have hfound : (ofInt (2 ^ 53)).strictEq (ofInt (2 ^ 53)) = true := by decide +kernel
    rw [MigrationPath.stepFrom, pathBeyond, List.find?_cons, hfound]
    rfl
  induction rounds generalizing document ran with
  | zero => rfl
  | succ rounds ih =>
    rw [migrationLoop, if_pos hlt, hstep]
    dsimp only
    rw [hsame]
    exact ih _ _

theorem runMigrations_pathBeyond :
    (ofInt (2 ^ 53)).toInt = some (2 ^ 53) ∧ pathBeyond.target.toInt = some (2 ^ 53 + 2) ∧
      ∀ rounds, runMigrations rounds (.object []) (ofInt (2 ^ 53)) pathBeyond = none := by
  have hne : (ofInt (2 ^ 53)).strictEq pathBeyond.target = false := by decide +kernel
  have hle : pathBeyond.target.lt (ofInt (2 ^ 53)) = false := by decide +kernel
  refine ⟨by decide +kernel, by decide +kernel, ?_⟩
  intro rounds
  rw [runMigrations, hne, if_neg Bool.false_ne_true, Json.asObject]
  dsimp only
  rw [hle, if_neg Bool.false_ne_true]
  exact migrationLoop_pathBeyond rounds [] 0

end Numbered

end SparkDashboard.Dashboard
