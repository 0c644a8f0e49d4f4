import SparkDashboard.Engines.LaunchPorts
import SparkDashboard.Library.Chars
import SparkDashboard.Library.FlagScan

/-!
# What a llama-server's launch says

Each setting comes from its flag, else from its environment variable. A flag given twice
counts its last value, and a long flag may be spelled with `_` for `-`.
-/

namespace SparkDashboard.Engines

open SparkDashboard.Library Chars FlagScan

/-- A setting of the launch that detection reads. -/
inductive LlamaCppSetting where
  | host
  | port
  | aliases
  | hfRepo
  | dockerRepo
  | model
  deriving DecidableEq

namespace LlamaCppSetting

def all : List LlamaCppSetting := [host, port, aliases, hfRepo, dockerRepo, model]

def flags : LlamaCppSetting → List Text
  | host => ["--host".toList]
  | port => ["--port".toList]
  | aliases => ["-a".toList, "--alias".toList]
  | hfRepo => ["-hf".toList, "-hfr".toList, "--hf-repo".toList]
  | dockerRepo => ["-dr".toList, "--docker-repo".toList]
  | model => ["-m".toList, "--model".toList]

def envVar : LlamaCppSetting → Text
  | host => "LLAMA_ARG_HOST".toList
  | port => "LLAMA_ARG_PORT".toList
  | aliases => "LLAMA_ARG_ALIAS".toList
  | hfRepo => "LLAMA_ARG_HF_REPO".toList
  | dockerRepo => "LLAMA_ARG_DOCKER_REPO".toList
  | model => "LLAMA_ARG_MODEL".toList

end LlamaCppSetting

structure LlamaCppLaunch where
  /-- An address, a comma-separated list of them, or paths of Unix sockets. -/
  host : Option Text
  port : Option UInt16
  aliases : Option Text
  hfRepo : Option Text
  dockerRepo : Option Text
  model : Option Text
  deriving DecidableEq

def longMark : Text := "--".toList

def dashed (flag : Text) : Text := flag.map fun c => if c = '_' then '-' else c

/-- The flag of an argument, and the value it holds itself. -/
def flagAndInline (arg : Text) : Text × Option Text :=
  match splitOnce ['='] arg with
  | some (flag, value) => if longMark <+: flag then (flag, some value) else (arg, none)
  | none => (arg, none)

def recognise (arg : Text) : Option (LlamaCppSetting × Option Text) :=
  let parts := flagAndInline arg
  let flag := if longMark <+: parts.1 then dashed parts.1 else parts.1
  (LlamaCppSetting.all.find? fun setting => flag ∈ setting.flags).map fun setting => (setting, parts.2)

def nonblank (value : Text) : Bool := decide (trimMatches isWhitespace value ≠ [])

def llamacppLaunch (args : List Text) (env : Text → Option Text) : LlamaCppLaunch :=
  let flags := scan recognise (fun _ => none) args
  let read := fun setting : LlamaCppSetting => ((flags setting).or (env setting.envVar)).filter nonblank
  { host := read .host
    port := (read .port).bind fun port => (parseU16 (trimMatches isWhitespace port)).map .ofNat
    aliases := read .aliases
    hfRepo := read .hfRepo
    dockerRepo := read .dockerRepo
    model := read .model }

/-- What the launch reports for a setting. -/
inductive Reported where
  | text (value : Text)
  | port (number : UInt16)
  deriving DecidableEq

def LlamaCppLaunch.get (launch : LlamaCppLaunch) : LlamaCppSetting → Option Reported
  | .host => launch.host.map .text
  | .port => launch.port.map .port
  | .aliases => launch.aliases.map .text
  | .hfRepo => launch.hfRepo.map .text
  | .dockerRepo => launch.dockerRepo.map .text
  | .model => launch.model.map .text

namespace LlamaCppSetting

/-- A value as it is given, reported for a setting. -/
def reported : LlamaCppSetting → Text → Reported
  | port, value => .port (.ofNat (natOf value))
  | _, value => .text value

/-- A value that is not blank, and for the port a decimal port number. -/
def Accepts (setting : LlamaCppSetting) (value : Text) : Prop :=
  nonblank value = true ∧ (setting = port → (∀ c ∈ value, c.isDigit = true) ∧ natOf value < 65536)

/-- What a setting is read as, given the flag's value or the variable's. -/
def readFrom (setting : LlamaCppSetting) (value : Option Text) : Option Reported :=
  match setting with
  | port => ((value.filter nonblank).bind fun port =>
      (parseU16 (trimMatches isWhitespace port)).map UInt16.ofNat).map .port
  | _ => (value.filter nonblank).map .text

/-- The arguments that set a setting: a flag and its value, or a long flag, `_` allowed for
`-`, before its value or with it. -/
inductive Spelling (setting : LlamaCppSetting) (value : Text) : List Text → Prop
  | flag {flag : Text} (hflag : flag ∈ setting.flags) : Spelling setting value [flag, value]
  | long {written : Text} (hlong : longMark <+: written) (hflag : dashed written ∈ setting.flags) :
    Spelling setting value [written, value]
  | inline {written : Text} (hlong : longMark <+: written) (hflag : dashed written ∈ setting.flags) :
    Spelling setting value [written ++ '=' :: value]

end LlamaCppSetting

open LlamaCppSetting

theorem get_llamacppLaunch (args : List Text) (env : Text → Option Text) (setting : LlamaCppSetting) :
    (llamacppLaunch args env).get setting =
      setting.readFrom ((scan recognise (fun _ => none) args setting).or (env setting.envVar)) := by
  cases setting <;> rfl

theorem find_flags {setting : LlamaCppSetting} {flag : Text} (h : flag ∈ setting.flags) :
    LlamaCppSetting.all.find? (fun other => flag ∈ other.flags) = some setting := by
  have hall : ∀ setting ∈ LlamaCppSetting.all, ∀ flag ∈ setting.flags,
      LlamaCppSetting.all.find? (fun other => flag ∈ other.flags) = some setting := by decide
  exact hall setting (by cases setting <;> decide) flag h

theorem equals_not_mem_flags {setting : LlamaCppSetting} {flag : Text} (h : flag ∈ setting.flags) : '=' ∉ flag := by
  have hall : ∀ setting ∈ LlamaCppSetting.all, ∀ flag ∈ setting.flags, '=' ∉ flag := by decide
  exact hall setting (by cases setting <;> decide) flag h

theorem equals_not_mem_written {setting : LlamaCppSetting} {written : Text} (h : dashed written ∈ setting.flags) :
    '=' ∉ written := by
  intro hmem
  exact equals_not_mem_flags h (List.mem_map.mpr ⟨'=', hmem, by decide⟩)

theorem recognise_flag {setting : LlamaCppSetting} {flag : Text} (h : flag ∈ setting.flags) :
    recognise flag = some (setting, none) := by
  have hparts : flagAndInline flag = (flag, none) := by
    rw [flagAndInline, splitOnce_eq_none_iff.mpr (equals_not_mem_flags h)]
  have hdashed : dashed flag = flag := by
    have hall : ∀ setting ∈ LlamaCppSetting.all, ∀ flag ∈ setting.flags, dashed flag = flag := by decide
    exact hall setting (by cases setting <;> decide) flag h
  simp only [recognise, hparts, hdashed, ite_self, find_flags h, Option.map_some]

theorem recognise_long {setting : LlamaCppSetting} {written : Text} (hlong : longMark <+: written)
    (h : dashed written ∈ setting.flags) : recognise written = some (setting, none) := by
  have hparts : flagAndInline written = (written, none) := by
    rw [flagAndInline, splitOnce_eq_none_iff.mpr (equals_not_mem_written h)]
  simp only [recognise, hparts, if_pos hlong, find_flags h, Option.map_some]

theorem recognise_inline {setting : LlamaCppSetting} {written : Text} (hlong : longMark <+: written)
    (h : dashed written ∈ setting.flags) (value : Text) :
    recognise (written ++ '=' :: value) = some (setting, some value) := by
  have hparts : flagAndInline (written ++ '=' :: value) = (written, some value) := by
    rw [flagAndInline, splitOnce_append (equals_not_mem_written h)]
    exact if_pos hlong
  simp only [recognise, hparts, if_pos hlong, find_flags h, Option.map_some]

theorem scan_spelling {setting : LlamaCppSetting} {value : Text} {tokens : List Text}
    (h : Spelling setting value tokens) (values : LlamaCppSetting → Option Text) :
    scan recognise values tokens = Function.update values setting (some value) := by
  cases h with
  | flag hflag =>
    rw [scan_pair (recognise_flag hflag)]
    rfl
  | long hlong hflag =>
    rw [scan_pair (recognise_long hlong hflag)]
    rfl
  | inline hlong hflag =>
    rw [scan_inline (recognise_inline hlong hflag value)]
    rfl

theorem parseU16_digits {value : Text} (hne : value ≠ []) (hdigits : ∀ c ∈ value, c.isDigit = true)
    (hlt : natOf value < 65536) : parseU16 value = some (natOf value) := by
  have hplus : value.dropPrefix? ['+'] = none := by
    cases value with
    | nil => rfl
    | cons c rest =>
      rw [dropPrefix?_singleton, if_neg]
      rintro rfl
      have := hdigits '+' List.mem_cons_self
      cases this
  have hall : value ≠ [] ∧ value.all Char.isDigit = true := ⟨hne, List.all_eq_true.mpr hdigits⟩
  rw [parseU16, hplus]
  dsimp only [Option.getD_none]
  rw [if_pos hall]
  exact if_pos hlt

theorem trimMatches_digits {value : Text} (hdigits : ∀ c ∈ value, c.isDigit = true) :
    trimMatches isWhitespace value = value := by
  apply trimMatches_eq_self
  · exact fun c hc => isWhitespace_of_isDigit (hdigits c (List.mem_of_head? hc))
  · exact fun c hc => isWhitespace_of_isDigit (hdigits c (List.mem_of_getLast? hc))

theorem readFrom_accepted {setting : LlamaCppSetting} {value : Text} (h : setting.Accepts value) :
    setting.readFrom (some value) = some (setting.reported value) := by
  obtain ⟨hblank, hport⟩ := h
  have hkept : (some value).filter nonblank = some value := Option.filter_some_pos hblank
  cases setting with
  | port =>
    obtain ⟨hdigits, hlt⟩ := hport rfl
    have htrim := trimMatches_digits hdigits
    have hne : value ≠ [] := by
      rintro rfl
      cases hblank
    rw [readFrom, hkept, Option.bind_some, htrim, parseU16_digits hne hdigits hlt]
    rfl
  | _ =>
    rw [readFrom, hkept]
    · rfl
    · exact LlamaCppSetting.noConfusion

theorem llamacppLaunch_settings (args : List Text) (env : Text → Option Text) (h : ¬Awaiting recognise args) :
    (∀ setting value tokens, Spelling setting value tokens → setting.Accepts value →
      (llamacppLaunch (args ++ tokens) env).get setting = some (setting.reported value) ∧
      ∀ other, other ≠ setting →
        (llamacppLaunch (args ++ tokens) env).get other = (llamacppLaunch args env).get other) ∧
    ∀ setting,
      (Occurs recognise setting args → ∃ value, ∀ env', (llamacppLaunch args env').get setting =
        setting.readFrom (some value)) ∧
      (¬Occurs recognise setting args → (llamacppLaunch args env).get setting =
        setting.readFrom (env setting.envVar)) := by
  refine ⟨?_, ?_⟩
  · intro setting value tokens htokens hvalue
    have hscan : scan recognise (fun _ => none) (args ++ tokens) =
        Function.update (scan recognise (fun _ => none) args) setting (some value) := by
      rw [scan_append h, scan_spelling htokens]
    refine ⟨?_, ?_⟩
    · rw [get_llamacppLaunch, hscan, Function.update_self, Option.some_or]
      exact readFrom_accepted hvalue
    · intro other hother
      rw [get_llamacppLaunch, get_llamacppLaunch, hscan, Function.update_of_ne hother]
  · intro setting
    refine ⟨?_, ?_⟩
    · intro hoccurs
      have hsome : (scan recognise (fun _ => none) args setting).isSome := isSome_scan_of_occurs h hoccurs
      obtain ⟨value, hvalue⟩ := Option.isSome_iff_exists.mp hsome
      refine ⟨value, ?_⟩
      intro env'
      rw [get_llamacppLaunch, hvalue, Option.some_or]
    · intro hnone
      rw [get_llamacppLaunch, scan_of_not_occurs hnone, Option.none_or]

/-- The model is named `--port`, which is no flag there; the port comes from its variable. -/
theorem llamacppLaunch_settings_flagLike :
    (llamacppLaunch ["-m".toList, "--port".toList, "--hf_repo=a/b".toList] (fun _ => some "8080".toList)).get .hfRepo =
      some (.text "a/b".toList) ∧
    (llamacppLaunch ["-m".toList, "--port".toList] (fun _ => some "8080".toList)).get .port = some (.port 8080) := by
  have hmodel : recognise "-m".toList = some (.model, none) := by decide
  have hpositions : ∀ {left}, FlagPosition recognise ["-m".toList, "--port".toList] left →
      left = ["-m".toList, "--port".toList] ∨ left = [] := by
    intro left hleft
    cases hleft with
    | here => exact .inl rfl
    | skip htoken => rw [hmodel] at htoken; cases htoken
    | inline htoken => rw [hmodel] at htoken; cases htoken
    | pair _ hrest =>
      cases hrest
      exact .inr rfl
  have hcomplete : ¬Awaiting recognise ["-m".toList, "--port".toList] := by
    rintro ⟨token, key, hleft, _⟩
    rcases hpositions hleft with h | h
    · cases h
    · cases h
  have hnone : ¬Occurs recognise .port ["-m".toList, "--port".toList] := by
    rintro ⟨token, rest, inline, hleft, htoken⟩
    rcases hpositions hleft with h | h
    · cases h
      rw [hmodel] at htoken
      cases htoken
    · cases h
  have hlaunch := llamacppLaunch_settings ["-m".toList, "--port".toList] (fun _ => some "8080".toList) hcomplete
  refine ⟨?_, ?_⟩
  · have hinline : Spelling .hfRepo "a/b".toList ["--hf_repo=a/b".toList] :=
      @Spelling.inline .hfRepo "a/b".toList "--hf_repo".toList (by decide) (by decide)
    exact (hlaunch.1 _ _ _ hinline ⟨by decide, fun h => absurd h (by decide)⟩).1
  · exact ((hlaunch.2 .port).2 hnone).trans (by decide)

end SparkDashboard.Engines
