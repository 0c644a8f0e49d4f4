import SparkDashboard.Engines.LlamaCppListen
import SparkDashboard.Engines.OllamaHost
import SparkDashboard.Library.Utf8
import Mathlib.Data.Char
import Mathlib.Data.List.Lex

/-!
# What the command line of a host process says

Which engine it runs, if any, and for an engine where it answers and which model it serves.
The variables of its environment are read where an engine takes them.
-/

namespace SparkDashboard.Engines

open SparkDashboard.Library Chars Utf8

abbrev OsString := List UInt8

/-- An argument that is Unicode. -/
def toStr (arg : OsString) : Option Text :=
  let text := fromUtf8Lossy arg
  if text.flatMap String.utf8EncodeChar = arg then some text else none

structure HostProcess where
  pid : Nat
  parent : Option Nat
  cmd : List OsString

def namesVllm (arg : Text) : Bool :=
  decide (arg = "vllm".toList ∨ "/vllm".toList <:+ arg ∨ "vllm.entrypoints".toList <:+: arg)

def namesSglang (arg : Text) : Bool :=
  decide (arg = "sglang".toList ∨ "/sglang".toList <:+ arg ∨ "sglang.launch_server".toList <:+: arg ∨
    "sglang.srt".toList <:+: arg)

def serverNamedBy (arg : Text) : Option EngineType :=
  if namesVllm arg then some .vllm else if namesSglang arg then some .sglang else none

/-- The last part of the path of the program. -/
def programName (args : List Text) : Option Text :=
  args.head?.map fun arg => (arg.reverse.takeWhile fun c => !"/\\".toList.contains c).reverse

def isOllamaServer (args : List Text) : Bool :=
  decide ((programName args = some "ollama".toList ∨ programName args = some "ollama.exe".toList) ∧
    args[1]? = some "serve".toList)

def isLlamaServer (args : List Text) : Bool :=
  decide (programName args = some "llama-server".toList ∨ programName args = some "llama-server.exe".toList)

def engineOfCommand (args : List Text) : Option EngineType :=
  if isOllamaServer args then some .ollama
  else if isLlamaServer args then some .llamaCpp
  else args.findSome? serverNamedBy

def engineOfProcess (cmd : List OsString) : Option EngineType := engineOfCommand (cmd.filterMap toStr)

def namesModel (val : Text) : Bool := decide (val ≠ [] ∧ val.head? ≠ some '-')

/-- A model after the flag, or one in `flag=`. -/
def modelOfFlag (flag : Text) : List Text → Option Text
  | [] => none
  | arg :: rest =>
    if arg = flag then
      match rest.head? with
      | some val => if namesModel val then some val else modelOfFlag flag rest
      | none => modelOfFlag flag rest
    else
      match arg.dropPrefix? (flag ++ ['=']) with
      | some val => if val ≠ [] then some val else modelOfFlag flag rest
      | none => modelOfFlag flag rest

def afterServe (args : List Text) : Option Text := (args.dropWhile fun arg => arg ≠ "serve".toList)[1]?

/-- The argument of the `serve` that follows an entrypoint of vLLM. -/
def servedPositional : List Text → Option Text
  | [] => none
  | arg :: rest =>
    if namesVllm arg then
      match (afterServe rest).filter namesModel with
      | some val => some val
      | none => servedPositional rest
    else servedPositional rest

def parseModelFromArgs (args : List Text) : Option Text :=
  (modelOfFlag "--model".toList args).or (servedPositional args)

def sglangModelFlags : List Text := ["--model-path".toList, "--model".toList, "--served-model-name".toList]

def parseSglangModelParts (args : List Text) : Option Text :=
  (sglangModelFlags.findSome? fun flag => modelOfFlag flag args).or ((afterServe args).filter namesModel)

/-- The alias that sorts first, else the repositories, else the path. -/
def LlamaCppLaunch.servedModel (launch : LlamaCppLaunch) : Option Text :=
  let named := launch.aliases.bind fun aliases =>
    (((aliases.splitOn ',').map (trimMatches isWhitespace)).filter fun name => name ≠ []).min?
  ((named.or launch.hfRepo).or launch.dockerRepo).or launch.model

def Endpoint.text (endpoint : Endpoint) : Text := "http://".toList ++ endpoint.host ++ ':' :: endpoint.port

/-- The endpoint of a launch, those to fall back on, and the model. -/
structure LaunchedServer where
  endpoint : Text
  fallbackEndpoints : List Text
  servedModel : Option Text

variable {ε : Type}

/-- A variable of a process's environment; an environment may be unreadable. -/
abbrev EnvOf (ε : Type) := (pid : Nat) → (name : Text) → Except ε (Option Text)

/-- The ports of a native llama-server whose launch names none. -/
def nativePorts : UInt16 × UInt16 := (9931, 8080)

def llamacppLaunchOf (envOf : EnvOf ε) (process : HostProcess) : LlamaCppLaunch :=
  llamacppLaunch (process.cmd.map fromUtf8Lossy) fun name => (envOf process.pid name).toOption.join

def launchOf (envOf : EnvOf ε) (process : HostProcess) (engineType : EngineType) : Option LaunchedServer :=
  match engineType with
  | .ollama =>
    let host := OllamaHost.fromEnv (envOf process.pid "OLLAMA_HOST".toList).toOption.join
    some ⟨host.endpoint, [], none⟩
  | .llamaCpp =>
    let launch := llamacppLaunchOf envOf process
    (launch.listen nativePorts).map fun listen => ⟨listen.endpoints.1, listen.endpoints.2, launch.servedModel⟩
  | engineType =>
    let args := process.cmd.filterMap toStr
    let defaultEndpoint : Endpoint := ⟨"localhost".toList, portText (defaultPort engineType)⟩
    let endpoint := (parseEndpointFromArgs args defaultEndpoint).getD defaultEndpoint
    let servedModel := if engineType = .vllm then parseModelFromArgs args else parseSglangModelParts args
    some ⟨endpoint.text, [], servedModel⟩

/-- The launch names a TCP endpoint: a llama-server may be bound to Unix sockets only, or to
a port picked when it binds. -/
def NamesEndpoint (envOf : EnvOf ε) (process : HostProcess) (engineType : EngineType) : Prop :=
  engineType = .llamaCpp → (llamacppLaunchOf envOf process).port ≠ some 0 ∧
    ∀ hosts, (llamacppLaunchOf envOf process).host = some hosts →
      ∃ host ∈ hosts.splitOn ',', isTcpHost (trimMatches isWhitespace host) = true

theorem isSome_launchOf_iff (envOf : EnvOf ε) (process : HostProcess) (engineType : EngineType) :
    (launchOf envOf process engineType).isSome ↔ NamesEndpoint envOf process engineType := by
  cases engineType with
  | llamaCpp =>
    rw [launchOf, Option.isSome_map, isSome_listen_iff]
    exact ⟨fun h _ => h, fun h => h rfl⟩
  | _ => exact iff_of_true rfl fun h => by cases h

end SparkDashboard.Engines
