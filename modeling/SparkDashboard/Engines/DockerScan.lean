import SparkDashboard.Engines.Detector
import SparkDashboard.Engines.ProcessLaunch
import SparkDashboard.Library.SortDedup

/-!
# Engines among the containers

The image, the command and the name of a container say which engine it runs, the name only
if one of its processes runs it. Its processes, its published ports and its environment say
where that engine answers. Lower case is the language's own and is a parameter.
-/

namespace SparkDashboard.Engines

open SparkDashboard.Library Chars Utf8

def runsEngine (command : Text) (engineType : EngineType) : Bool :=
  decide (engineOfCommand (splitWhitespace command) = some engineType)

def parseModelFor (engineType : EngineType) (cmd : Text) : Option Text :=
  match engineType with
  | .vllm => parseModelFromArgs (splitWhitespace cmd)
  | .sglang => parseSglangModelParts (splitWhitespace cmd)
  | .ollama => none
  | .llamaCpp => (llamacppLaunch (splitWhitespace cmd) fun _ => none).servedModel

section Classification

/-- A strong signal is the image or the command; a weak one is a name, which anyone can give. -/
structure ContainerClass where
  engineType : EngineType
  strongSignal : Bool
  deriving DecidableEq, Repr

def mentions (needle : String) (text : Text) : Bool := decide (needle.toList <:+: text)

/-- The reference without its tag and digest; a colon before a slash is a registry's port. -/
def imageRepository (image : Text) : Text :=
  let name := image.takeWhile (· ≠ '@')
  match rfind ':' name with
  | some colon => if '/' ∉ name.drop colon then name.take colon else name
  | none => name

def isOllamaImage (image : Text) : Bool :=
  decide (imageRepository image = "ollama/ollama".toList ∨ "/ollama/ollama".toList <:+ imageRepository image)

def llamacppSpellings : List String := ["llama.cpp", "llama-cpp", "llamacpp"]

def isLlamacppImage (image : Text) : Bool :=
  llamacppSpellings.any fun spelling => mentions spelling (imageRepository image)

/-- The one engine an image is named after, if it is named after one. -/
def engineOfImage (image : Text) : Option EngineType :=
  if isOllamaImage image then some .ollama
  else if isLlamacppImage image then some .llamaCpp
  else
    match mentions "vllm" image, mentions "sglang" image with
    | true, false => some .vllm
    | false, true => some .sglang
    | _, _ => none

/-- The engine a command line mentions; of two it is vLLM. -/
def engineMentioned (command : Text) : Option EngineType :=
  match mentions "vllm" command, mentions "sglang" command with
  | false, true => some .sglang
  | true, _ => some .vllm
  | false, false => none

/-- The engine the image and the command name, the image first, then what the command launches. -/
def strongEngine (image command : Text) : Option EngineType :=
  (engineOfImage image).or <| (engineOfCommand (splitWhitespace command)).or <|
    (engineMentioned command).or <| if mentions "vllm" image then some .vllm else none

def engineOfNames (lowerNames : List Text) : Option EngineType :=
  let named := fun needle => lowerNames.any (mentions needle)
  if named "vllm" then some .vllm
  else if named "sglang" then some .sglang
  else if named "ollama" then some .ollama
  else if (llamacppSpellings ++ ["llama-server"]).any named then some .llamaCpp
  else none

def classifyContainer (toLowercase : Text → Text) (names : List Text) (image command : Text) :
    Option ContainerClass :=
  match strongEngine image command with
  | some engineType => some ⟨engineType, true⟩
  | none => (engineOfNames (names.map toLowercase)).map fun engineType => ⟨engineType, false⟩

end Classification

section Endpoints

def ipText : IpAddr → Text
  | .v4 v4 => v4.toText
  | .v6 v6 => v6.toText

def publishedHost (host : Text) (port : UInt16) : OllamaHost := { OllamaHost.fromEnv none with host, port }

/-- Where a containerized Ollama answers from the host. -/
def ollamaContainerEndpoint (listen : OllamaHost) (networkMode : Option Text) (published : List PublishedPort) :
    Option Text :=
  if networkMode = some hostMode then some listen.endpoint
  else
    match (published.filter fun p => p.tcp && p.container == listen.port).findSome? fun p =>
        p.host.map fun host => (host, p.hostIp.getD []) with
    | some (port, ip) =>
      let host :=
        match IpAddr.parse ip with
        | some addr => if addr.isUnspecified then [] else ipText addr
        | none => ip
      some (publishedHost host port).endpoint
    | none =>
      match networkMode with
      | none => some listen.endpoint
      | some mode => if sharedMode <+: mode then some listen.endpoint else none

/-- The container's own command if that runs llama-server, else the first process that does. -/
def llamacppContainerCommand (command : Text) (processes : List Text) : Text :=
  if runsEngine command .llamaCpp then command
  else (processes.find? fun process => runsEngine process .llamaCpp).getD command

def envVarIn (entries : List (List UInt8)) (name : Text) : Option Text :=
  (entries.findSome? fun entry =>
    (entry.dropPrefix? (name.flatMap String.utf8EncodeChar)).bind fun rest =>
      rest.dropPrefix? (String.utf8EncodeChar '=')).map fromUtf8Lossy

end Endpoints

section Scan

inductive PortType where
  | empty | tcp | udp | sctp
  deriving DecidableEq, Repr

structure PortSummary where
  privatePort : UInt16
  publicPort : Option UInt16
  ip : Option Text
  typ : Option PortType

def PortSummary.published (port : PortSummary) : PublishedPort where
  container := port.privatePort
  host := port.publicPort
  hostIp := port.ip
  tcp := !decide (port.typ = some .udp ∨ port.typ = some .sctp)

/-- A listed container, with what Docker answers when asked for its processes and its
environment: `none` where it does not answer. -/
structure Container where
  id : Option String
  names : Option (List Text)
  image : Option Text
  command : Option Text
  ports : Option (List PortSummary)
  networkMode : Option Text
  topProcesses : Option (List (List Text))
  inspectedEnv : Option (List Text)

/-- `str::parse::<u32>`. -/
def parseU32 (text : Text) : Option Nat :=
  let digits := (text.dropPrefix? ['+']).getD text
  if digits ≠ [] ∧ digits.all Char.isDigit then
    let value := natOf digits
    if value < 2 ^ 32 then some value else none
  else none

def parsePidFromTopRow (row : List Text) : Option Nat :=
  row.head?.bind fun cell => parseU32 (trimMatches isWhitespace cell)

/-- Every column after the PID. -/
def topRowCommand (row : List Text) : Text := commandLine (row.drop 1)

namespace Container

variable (container : Container)

/-- Docker is asked about a container by its ID. -/
def asked {α : Type} (answer : Option (List α)) : List α :=
  if container.id.getD "" = "" then [] else answer.getD []

def top : List (List Text) := container.asked container.topProcesses

def env : List Text := container.asked container.inspectedEnv

def pids : List Nat := sortDedup (container.top.filterMap parsePidFromTopRow)

def commands : List Text := container.top.map topRowCommand

def published : List PublishedPort := (container.ports.getD []).map PortSummary.published

def envVar (name : Text) : Option Text :=
  envVarIn (container.env.map fun entry => entry.flatMap String.utf8EncodeChar) name

def classOf (toLowercase : Text → Text) : Option ContainerClass :=
  classifyContainer toLowercase (container.names.getD []) (toLowercase (container.image.getD []))
    (toLowercase (container.command.getD []))

/-- One that matched by name only has to prove itself. -/
def trusted (cls : ContainerClass) : Bool :=
  cls.strongSignal || container.commands.any fun command => runsEngine command cls.engineType

/-- The port a vLLM or SGLang server is said to be on. -/
def portOf : Option Text :=
  (((container.ports.getD []).findSome? PortSummary.publicPort).map fun port => decimal port.toNat).or <|
    (parsePortFromCommandStr (container.command.getD [])).or <|
      container.commands.findSome? parsePortFromCommandStr

/-- The ports of a containerized llama-server whose launch names none. -/
def defaultPorts : UInt16 × UInt16 := (8080, 9931)

/-- Where the host reaches the server; `none` when it does not. -/
def server (engineType : EngineType) : Option LaunchedServer :=
  let command := container.command.getD []
  match engineType with
  | .ollama =>
    let listen := OllamaHost.fromEnv (container.envVar "OLLAMA_HOST".toList)
    (ollamaContainerEndpoint listen container.networkMode container.published).map fun endpoint =>
      ⟨endpoint, [], none⟩
  | .llamaCpp =>
    let launch := llamacppLaunch (splitWhitespace (llamacppContainerCommand command container.commands))
      container.envVar
    (launch.listen defaultPorts).bind fun listen =>
      match llamacppContainerEndpoints listen container.networkMode container.published with
      | [] => none
      | endpoint :: fallbackEndpoints => some ⟨endpoint, fallbackEndpoints, launch.servedModel⟩
  | engineType =>
    let servedModel := (parseModelFor engineType command).or <|
      container.commands.findSome? (parseModelFor engineType)
    some ⟨(dockerEndpoint container.portOf (defaultPort engineType)).1.text, [], servedModel⟩

def engine (engineType : EngineType) (server : LaunchedServer) : DetectedEngine where
  engineType
  endpoint := String.ofList server.endpoint
  deploymentMode := .docker
  servedModel := server.servedModel.map String.ofList
  pids := container.pids
  containerId := container.id
  fallbackEndpoints := server.fallbackEndpoints.map String.ofList

def candidate (toLowercase : Text → Text) : Option DetectedEngine :=
  (container.classOf toLowercase).bind fun cls =>
    if container.trusted cls then (container.server cls.engineType).map (container.engine cls.engineType) else none

end Container

/-- Docker cannot be reached, or lists the running containers. -/
def detectDockerEngines (toLowercase : Text → Text) (listed : Option (List Container)) : List DetectedEngine :=
  (listed.getD []).filterMap (Container.candidate · toLowercase)

end Scan

section Evidence

/-- The image or the command names the engine. -/
def NamedBy (image command : Text) (engineType : EngineType) : Prop :=
  engineOfCommand (splitWhitespace command) = some engineType ∨
    match engineType with
    | .vllm => mentions "vllm" image = true ∨ mentions "vllm" command = true
    | .sglang => mentions "sglang" image = true ∨ mentions "sglang" command = true
    | .ollama => isOllamaImage image = true
    | .llamaCpp => isLlamacppImage image = true

def nameSpellings : EngineType → List String
  | .vllm => ["vllm"]
  | .sglang => ["sglang"]
  | .ollama => ["ollama"]
  | .llamaCpp => llamacppSpellings ++ ["llama-server"]

/-- One of the names has the engine's in it. -/
def NamedAs (lowerNames : List Text) (engineType : EngineType) : Prop :=
  ∃ name ∈ lowerNames, ∃ spelling ∈ nameSpellings engineType, mentions spelling name = true

theorem namedBy_engineOfImage {image : Text} {engineType : EngineType} (h : engineOfImage image = some engineType)
    (command : Text) : NamedBy image command engineType := by
  rw [engineOfImage] at h
  split at h
  · cases h
    exact .inr ‹_›
  · split at h
    · cases h
      exact .inr ‹_›
    · split at h
      · cases h
        exact .inr (.inl ‹_›)
      · cases h
        exact .inr (.inl ‹_›)
      · cases h

theorem namedBy_engineMentioned {command : Text} {engineType : EngineType}
    (h : engineMentioned command = some engineType) (image : Text) : NamedBy image command engineType := by
  rw [engineMentioned] at h
  split at h
  · cases h
    exact .inr (.inr ‹_›)
  · cases h
    exact .inr (.inr ‹_›)
  · cases h

theorem namedBy_strongEngine {image command : Text} {engineType : EngineType}
    (h : strongEngine image command = some engineType) : NamedBy image command engineType := by
  rw [strongEngine, Option.or_eq_some_iff] at h
  rcases h with h | ⟨-, h⟩
  · exact namedBy_engineOfImage h command
  · rcases Option.or_eq_some_iff.mp h with h | ⟨-, h⟩
    · exact .inl h
    · rcases Option.or_eq_some_iff.mp h with h | ⟨-, h⟩
      · exact namedBy_engineMentioned h image
      · split at h
        · cases h
          exact .inr (.inl ‹_›)
        · cases h

theorem not_namedBy_of_none {image command : Text} (h : strongEngine image command = none)
    (engineType : EngineType) : ¬NamedBy image command engineType := by
  rw [strongEngine, Option.or_eq_none_iff, Option.or_eq_none_iff, Option.or_eq_none_iff] at h
  obtain ⟨himage, hlaunch, hcommand, hvllm⟩ := h
  have hnoVllm : mentions "vllm" image = false := by
    by_contra hmentions
    rw [Bool.not_eq_false] at hmentions
    rw [if_pos hmentions] at hvllm
    cases hvllm
  rintro (hnamed | hnamed)
  · cases hlaunch.symm.trans hnamed
  · rw [engineOfImage] at himage
    split at himage
    · cases himage
    · split at himage
      · cases himage
      · rename_i hollama hllamacpp
        rw [hnoVllm] at himage
        rw [engineMentioned] at hcommand
        cases engineType with
        | ollama => exact hollama hnamed
        | llamaCpp => exact hllamacpp hnamed
        | vllm =>
          rcases hnamed with hnamed | hnamed
          · cases hnoVllm.symm.trans hnamed
          · rw [hnamed] at hcommand
            split at hcommand <;> simp_all
        | sglang =>
          rcases hnamed with hnamed | hnamed
          · rw [hnamed] at himage
            cases himage
          · rw [hnamed] at hcommand
            split at hcommand <;> simp_all

theorem namedAs_engineOfNames {lowerNames : List Text} {engineType : EngineType}
    (h : engineOfNames lowerNames = some engineType) : NamedAs lowerNames engineType := by
  have hnamed : ∀ spellings : List String,
      (spellings.any fun spelling => lowerNames.any (mentions spelling)) = true →
      ∃ name ∈ lowerNames, ∃ spelling ∈ spellings, mentions spelling name = true := by
    intro spellings hany
    obtain ⟨spelling, hspelling, hnames⟩ := List.any_eq_true.mp hany
    obtain ⟨name, hname, hmentions⟩ := List.any_eq_true.mp hnames
    exact ⟨name, hname, spelling, hspelling, hmentions⟩
  rw [engineOfNames] at h
  dsimp only at h
  split at h
  · cases h
    exact hnamed ["vllm"] (by rwa [List.any_cons, List.any_nil, Bool.or_false])
  · split at h
    · cases h
      exact hnamed ["sglang"] (by rwa [List.any_cons, List.any_nil, Bool.or_false])
    · split at h
      · cases h
        exact hnamed ["ollama"] (by rwa [List.any_cons, List.any_nil, Bool.or_false])
      · split at h
        · cases h
          exact hnamed _ ‹_›
        · cases h

theorem classifyContainer_cases (toLowercase : Text → Text) (names : List Text) (image command : Text) :
    (∃ engineType, classifyContainer toLowercase names image command = some ⟨engineType, true⟩ ∧
      NamedBy image command engineType) ∨
    (∀ engineType, ¬NamedBy image command engineType) ∧
      ((∃ engineType, classifyContainer toLowercase names image command = some ⟨engineType, false⟩ ∧
        NamedAs (names.map toLowercase) engineType) ∨
      classifyContainer toLowercase names image command = none) := by
  rw [classifyContainer]
  cases hstrong : strongEngine image command with
  | some engineType => exact .inl ⟨engineType, rfl, namedBy_strongEngine hstrong⟩
  | none =>
    refine .inr ⟨not_namedBy_of_none hstrong, ?_⟩
    cases hname : engineOfNames (names.map toLowercase) with
    | some engineType => exact .inl ⟨engineType, rfl, namedAs_engineOfNames hname⟩
    | none => exact .inr rfl

end Evidence

section Reachable

/-- The endpoint is the host's side of a TCP port that the container publishes. -/
def PublishedAt (published : List PublishedPort) (endpoint : Text) : Prop :=
  ∃ item ∈ published, item.tcp = true ∧ ∃ port, item.host = some port ∧ ':' :: decimal port.toNat <:+ endpoint

theorem port_suffix_joinHostPort (host : Text) (port : UInt16) :
    ':' :: decimal port.toNat <:+ joinHostPort host port := by
  rw [joinHostPort]
  split
  · exact ⟨'[' :: host ++ [']'], by simp⟩
  · exact ⟨host, rfl⟩

theorem port_suffix_endpoint (host : OllamaHost) : ':' :: decimal host.port.toNat <:+ host.endpoint :=
  (port_suffix_joinHostPort _ host.port).trans (List.suffix_append _ _)

/-- A network on which only published ports are reached from the host. -/
theorem publishedAt_ollamaContainerEndpoint {listen : OllamaHost} {networkMode : Option Text}
    {published : List PublishedPort} {endpoint : Text} (hhost : networkMode ≠ some hostMode)
    (hown : ¬AssumesHost networkMode)
    (h : ollamaContainerEndpoint listen networkMode published = some endpoint) : PublishedAt published endpoint := by
  rw [ollamaContainerEndpoint.eq_def, if_neg hhost] at h
  split at h
  · rename_i port ip hfind
    cases h
    obtain ⟨item, hitem, hmap⟩ := List.exists_of_findSome?_eq_some hfind
    obtain ⟨hmem, htcp⟩ := List.mem_filter.mp hitem
    obtain ⟨host, hport, heq⟩ := Option.map_eq_some_iff.mp hmap
    cases heq
    exact ⟨item, hmem, (Bool.and_eq_true_iff.mp htcp).1, port, hport,
      port_suffix_endpoint (publishedHost _ port)⟩
  · split at h
    · exact absurd (.inl rfl) hown
    · split at h
      · rename_i hshared
        obtain ⟨shared, rfl⟩ := hshared
        exact absurd (.inr ⟨shared, rfl⟩) hown
      · cases h

theorem publishedAt_llamacppContainerEndpoints {listen : LlamaCppListen} {networkMode : Option Text}
    {published : List PublishedPort} {endpoint : Text} (hhost : networkMode ≠ some hostMode)
    (hown : ¬AssumesHost networkMode)
    (h : endpoint ∈ llamacppContainerEndpoints listen networkMode published) : PublishedAt published endpoint := by
  rcases Classical.em (∃ container endpoint, PublishesAt published container endpoint) with hpublished | hpublished
  · rw [endpoints_of_published hhost hpublished] at h
    obtain ⟨container, hpublishes⟩ := mem_publishedEndpoints.mp h
    obtain ⟨item, hitem, htcp, hcontainer, port, hport, hendpoint⟩ := hpublishes
    have hsuffix : ':' :: decimal port.toNat <:+ llamacppEndpoint item.hostIp port := List.suffix_append _ _
    exact ⟨item, hitem, htcp, port, hport, hendpoint ▸ hsuffix⟩
  · rw [(@endpoints_of_unpublished listen _ _ hhost hpublished).2 hown] at h
    cases h

end Reachable

namespace Container

variable (toLowercase : Text → Text) (container : Container)

def NamedBy (engineType : EngineType) : Prop :=
  Engines.NamedBy (toLowercase (container.image.getD [])) (toLowercase (container.command.getD [])) engineType

def NamedAs (engineType : EngineType) : Prop :=
  Engines.NamedAs ((container.names.getD []).map toLowercase) engineType

def Runs (engineType : EngineType) : Prop :=
  ∃ row ∈ container.top, runsEngine (topRowCommand row) engineType = true

/-- Why a container is taken for an engine: what was started in it names the engine, or, where
that names none, its name does and one of its processes runs it. -/
def Evidence (engineType : EngineType) : Prop :=
  container.NamedBy toLowercase engineType ∨
    (∀ other, ¬container.NamedBy toLowercase other) ∧ container.NamedAs toLowercase engineType ∧
      container.Runs engineType

variable {toLowercase container}

theorem candidate_eq_some_iff {c : DetectedEngine} :
    container.candidate toLowercase = some c ↔ ∃ cls server, container.classOf toLowercase = some cls ∧
      container.trusted cls = true ∧ container.server cls.engineType = some server ∧
      c = container.engine cls.engineType server := by
  rw [candidate, Option.bind_eq_some_iff]
  constructor
  · rintro ⟨cls, hcls, h⟩
    split at h
    · obtain ⟨server, hserver, rfl⟩ := Option.map_eq_some_iff.mp h
      exact ⟨cls, server, hcls, ‹_›, hserver, rfl⟩
    · cases h
  · rintro ⟨cls, server, hcls, htrusted, hserver, rfl⟩
    refine ⟨cls, hcls, ?_⟩
    rw [if_pos htrusted, hserver]
    rfl

theorem runs_iff {engineType : EngineType} :
    (container.commands.any fun command => runsEngine command engineType) = true ↔ container.Runs engineType := by
  rw [commands, List.any_map, List.any_eq_true]
  rfl

theorem evidence_of_trusted {cls : ContainerClass} (hcls : container.classOf toLowercase = some cls)
    (htrusted : container.trusted cls = true) : container.Evidence toLowercase cls.engineType := by
  rw [classOf] at hcls
  have hcases := classifyContainer_cases toLowercase (container.names.getD [])
    (toLowercase (container.image.getD [])) (toLowercase (container.command.getD []))
  rw [hcls] at hcases
  rcases hcases with ⟨engineType, heq, hnamed⟩ | ⟨hnone, ⟨engineType, heq, hnamed⟩ | heq⟩
  · cases heq
    exact .inl hnamed
  · cases heq
    exact .inr ⟨hnone, hnamed, runs_iff.mp htrusted⟩
  · cases heq

theorem evidence_of_candidate {c : DetectedEngine} (h : container.candidate toLowercase = some c) :
    container.Evidence toLowercase c.engineType := by
  obtain ⟨cls, server, hcls, htrusted, -, rfl⟩ := candidate_eq_some_iff.mp h
  exact evidence_of_trusted hcls htrusted

theorem mem_pids {pid : Nat} :
    pid ∈ container.pids ↔ ∃ row ∈ container.top, parsePidFromTopRow row = some pid := by
  rw [pids, mem_sortDedup, List.mem_filterMap]

theorem published_of_server {engineType : EngineType} {server : LaunchedServer}
    (hserver : container.server engineType = some server)
    (htype : engineType = .ollama ∨ engineType = .llamaCpp) (hhost : container.networkMode ≠ some hostMode)
    (hown : ¬AssumesHost container.networkMode) :
    ∀ endpoint ∈ server.endpoint :: server.fallbackEndpoints, PublishedAt container.published endpoint := by
  rcases htype with rfl | rfl
  · obtain ⟨endpoint, hendpoint, rfl⟩ := Option.map_eq_some_iff.mp hserver
    intro other hother
    obtain rfl := List.mem_singleton.mp hother
    exact publishedAt_ollamaContainerEndpoint hhost hown hendpoint
  · obtain ⟨listen, -, hendpoints⟩ := Option.bind_eq_some_iff.mp hserver
    split at hendpoints
    · cases hendpoints
    · rename_i endpoint fallbackEndpoints heq
      cases hendpoints
      intro other hother
      rw [← heq] at hother
      exact publishedAt_llamacppContainerEndpoints hhost hown hother

theorem endpoints_engine (engineType : EngineType) (server : LaunchedServer) :
    (container.engine engineType server).endpoint :: (container.engine engineType server).fallbackEndpoints =
      (server.endpoint :: server.fallbackEndpoints).map String.ofList := rfl

/-- A vLLM or SGLang server is on its default port where no other is said. -/
theorem unreachable_cases {engineType : EngineType} (h : container.server engineType = none) :
    engineType = .ollama ∨ engineType = .llamaCpp := by
  cases engineType with
  | ollama => exact .inl rfl
  | llamaCpp => exact .inr rfl
  | vllm => cases h
  | sglang => cases h

/-- What becomes of a container: never an engine without evidence, with the processes it has and,
on a network of its own, behind a port it publishes; and never overlooked where its image or its
command names an engine, unless that is an Ollama or a llama-server the host does not reach. -/
theorem candidate_of_container (toLowercase : Text → Text) (container : Container) :
    (∀ c, container.candidate toLowercase = some c →
      c.deploymentMode = .docker ∧ c.containerId = container.id ∧ container.Evidence toLowercase c.engineType ∧
      c.pids.Pairwise (· < ·) ∧
      (∀ pid, pid ∈ c.pids ↔ ∃ row ∈ container.top, parsePidFromTopRow row = some pid) ∧
      (c.engineType = .ollama ∨ c.engineType = .llamaCpp → container.networkMode ≠ some hostMode →
        ¬AssumesHost container.networkMode → ∀ endpoint ∈ c.endpoint :: c.fallbackEndpoints,
          PublishedAt container.published endpoint.toList)) ∧
    (container.candidate toLowercase = none → ∀ engineType, container.NamedBy toLowercase engineType →
      ∃ other, (other = .ollama ∨ other = .llamaCpp) ∧ container.NamedBy toLowercase other ∧
        container.server other = none) := by
  refine ⟨?_, ?_⟩
  · intro c hc
    obtain ⟨cls, server, hcls, htrusted, hserver, rfl⟩ := candidate_eq_some_iff.mp hc
    refine ⟨rfl, rfl, evidence_of_trusted hcls htrusted, pairwise_sortDedup _, fun pid => mem_pids, ?_⟩
    intro htype hhost hown endpoint hendpoint
    have htext : endpoint.toList ∈ server.endpoint :: server.fallbackEndpoints := by
      rw [endpoints_engine] at hendpoint
      obtain ⟨text, htext, rfl⟩ := List.mem_map.mp hendpoint
      rwa [String.toList_ofList]
    exact published_of_server hserver htype hhost hown _ htext
  · intro hnone engineType hnamed
    rcases classifyContainer_cases toLowercase (container.names.getD [])
      (toLowercase (container.image.getD [])) (toLowercase (container.command.getD [])) with
      ⟨other, hcls, hother⟩ | ⟨hunnamed, -⟩
    · cases hserver : container.server other with
      | none => exact ⟨other, unreachable_cases hserver, hother, hserver⟩
      | some server =>
        cases hnone.symm.trans (candidate_eq_some_iff.mpr ⟨⟨other, true⟩, server, hcls, rfl, hserver, rfl⟩)
    · exact absurd hnamed (hunnamed engineType)

end Container

end SparkDashboard.Engines
