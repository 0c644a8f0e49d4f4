import SparkDashboard.Dashboard.Preset

/-!
# Loading what the server has stored

`JSON.parse` throws on a text that is no JSON; everything after it is a reading of the
value it gave. A document of an older version is brought forward in memory.
-/

namespace SparkDashboard.Dashboard

structure SyntaxError where
  deriving DecidableEq, Repr

/-- `JSON.parse`. -/
def jsonParse (text : Utf16) : Except SyntaxError Value :=
  match Json.parse JsNumber.ofNumeral text with
  | some value => .ok value
  | none => .error {}

structure DashboardMigration where
  fromVersion : Int
  migrate : Members → Members

/-- The migrations there are, and the version they lead to. -/
structure MigrationPath where
  migrations : List DashboardMigration
  target : Int

/-- v1 to v2: a page's source arrived, and a page of before has none. -/
def addPageSource : DashboardMigration where
  fromVersion := 1
  migrate document := document

def dashboardMigrationPath : MigrationPath where
  migrations := [addPageSource]
  target := dashboardSchemaVersion

inductive MigrationOutcome where
  | current (document : Value)
  | migrated (document : Value) (ran : Nat)
  | unmigratable (fromVersion : Int)

/-- `{ ...members, [name]: value }`. -/
def setMember (members : Members) (name : String) (value : Value) : Members :=
  members.filter (fun member => decide (member.1 ≠ utf16 name)) ++ [(utf16 name, value)]

/-- The loop of `runMigrations`, which steps the version once for each round. -/
def migrateFrom (migrations : List DashboardMigration) : Nat → Members → Int → Option Members
  | 0, document, _ => some document
  | rounds + 1, document, version =>
    (migrations.find? fun candidate => decide (candidate.fromVersion = version)).bind fun migration =>
      migrateFrom migrations rounds
        (setMember (migration.migrate document) "version" (.number (.ofRat (version + 1 : Int)))) (version + 1)

def runMigrations (raw : Value) (fromVersion : Int) (path : MigrationPath) : MigrationOutcome :=
  if fromVersion = path.target then .current raw
  else
    match raw.asObject with
    | none => .unmigratable fromVersion
    | some document =>
      if path.target < fromVersion then .unmigratable fromVersion
      else
        let rounds := (path.target - fromVersion).toNat
        match migrateFrom path.migrations rounds document fromVersion with
        | some document => .migrated (.object document) rounds
        | none => .unmigratable fromVersion

inductive ConfigurationFallbackReason where
  | newerVersion (documentVersion supportedVersion : Int)
  | unsupportedVersion (documentVersion supportedVersion : Int)
  | unreadable
  deriving DecidableEq, Repr

structure LoadedConfiguration where
  document : DashboardDocument
  isDefault : Bool
  fallback : Option ConfigurationFallbackReason
  migrated : Bool
  deriving DecidableEq

def freshConfiguration : LoadedConfiguration := ⟨defaultDashboardDocument, true, none, false⟩

def fallbackConfiguration (reason : ConfigurationFallbackReason) : LoadedConfiguration :=
  ⟨defaultDashboardDocument, true, some reason, false⟩

/-- `none` stands for a text that would not parse. -/
def tryParseJson (text : Utf16) : Except SyntaxError (Option Value) :=
  tryCatch (some <$> jsonParse text) fun _ => pure none

/-- The version a document declares, where it declares one. -/
def documentVersion (raw : Value) : Option Int :=
  ((raw.get (utf16 "version")).bind Json.asNumber).bind JsNumber.toInt

def loadDocument (document : Value) (migrated : Bool) : LoadedConfiguration :=
  match parseDashboardDocument document with
  | none => fallbackConfiguration .unreadable
  | some document => if document.pages = [] then freshConfiguration else ⟨document, false, none, migrated⟩

def loadParsed (raw : Value) (path : MigrationPath) : LoadedConfiguration :=
  match documentVersion raw with
  | none => fallbackConfiguration .unreadable
  | some version =>
    if dashboardSchemaVersion < version then
      fallbackConfiguration (.newerVersion version dashboardSchemaVersion)
    else
      match runMigrations raw version path with
      | .unmigratable _ => fallbackConfiguration (.unsupportedVersion version dashboardSchemaVersion)
      | .current document => loadDocument document false
      | .migrated document _ => loadDocument document true

/-- `stored` is the response's body, `none` when the server has nothing stored. -/
def loadDashboardConfiguration (stored : Option Utf16) (path : MigrationPath) :
    Except SyntaxError LoadedConfiguration :=
  match stored with
  | none => pure freshConfiguration
  | some stored => do
    match ← tryParseJson stored with
    | none => pure (fallbackConfiguration .unreadable)
    | some raw => pure (loadParsed raw path)

end SparkDashboard.Dashboard
