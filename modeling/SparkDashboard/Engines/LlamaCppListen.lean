import SparkDashboard.Engines.LlamaCppLaunch
import SparkDashboard.Library.Distinct
import SparkDashboard.Library.IpAddr

/-!
# Where a containerized llama-server answers

A launch says on which address and ports the server listens inside its container. On the
host network these are its endpoints; on any other the published ports are, those that
publish a listening port first.
-/

namespace SparkDashboard.Engines

open SparkDashboard.Library Chars Distinct

/-- A port the container has; `host` is the port of the host it is published on, if any. -/
structure PublishedPort where
  container : UInt16
  host : Option UInt16
  hostIp : Option Text
  tcp : Bool

/-- Rather than the path of a Unix socket. -/
def isTcpHost (host : Text) : Bool := decide (host ≠ []) && !(".sock".toList.isSuffixOf host) && !(host.contains '/')

structure LlamaCppListen where
  host : Option Text
  /-- The port to try first. -/
  port : UInt16
  fallbackPorts : List UInt16

/-- The first TCP address of the hosts; `none` inside for the default, outside where there is none. -/
def tcpAddress (hosts : Option Text) : Option (Option Text) :=
  match hosts with
  | none => some none
  | some hosts => (((hosts.splitOn ',').map (trimMatches isWhitespace)).find? isTcpHost).map some

/-- `none` when the launch names no TCP port to reach. -/
def LlamaCppLaunch.listen (launch : LlamaCppLaunch) (defaultPorts : UInt16 × UInt16) : Option LlamaCppListen :=
  (tcpAddress launch.host).bind fun host =>
    match launch.port with
    | some port => if port = 0 then none else some ⟨host, port, []⟩
    | none => some ⟨host, defaultPorts.1, [defaultPorts.2]⟩

/-- One bound to every interface is probed on localhost. -/
def llamacppHost (host : Text) : Text :=
  match IpAddr.parse host with
  | some ip =>
    if ip.isUnspecified then "localhost".toList
    else
      match ip with
      | .v6 v6 => '[' :: v6.toText ++ [']']
      | .v4 v4 => v4.toText
  | none => if host = [] then "localhost".toList else host

def llamacppEndpoint (host : Option Text) (port : UInt16) : Text :=
  "http://".toList ++ llamacppHost (trimMatches isBracket (host.getD [])) ++ ':' :: decimal port.toNat

namespace LlamaCppListen

/-- Every port it may be on, in the order to try them. -/
def ports (listen : LlamaCppListen) : List UInt16 := listen.port :: listen.fallbackPorts

def endpoints (listen : LlamaCppListen) : Text × List Text :=
  (llamacppEndpoint listen.host listen.port, listen.fallbackPorts.map (llamacppEndpoint listen.host))

def listening (listen : LlamaCppListen) : List Text := listen.endpoints.1 :: listen.endpoints.2

end LlamaCppListen

/-- A container port, the host port it is published on and the address of that. -/
structure PortBinding where
  container : UInt16
  port : UInt16
  hostIp : Option Text

def PublishedPort.binding (published : PublishedPort) : Option PortBinding :=
  if published.tcp then published.host.map fun port => ⟨published.container, port, published.hostIp⟩ else none

def PortBinding.endpoint (binding : PortBinding) : Text := llamacppEndpoint binding.hostIp binding.port

def usizeMax : Nat := 2 ^ 64 - 1

def positionOf (listen : LlamaCppListen) (container : UInt16) : Nat := (listen.ports.idxOf? container).getD usizeMax

def sortedBindings (listen : LlamaCppListen) (published : List PublishedPort) : List PortBinding :=
  (published.filterMap PublishedPort.binding).mergeSort fun a b =>
    decide (positionOf listen a.container ≤ positionOf listen b.container)

def publishedEndpoints (listen : LlamaCppListen) (published : List PublishedPort) : List Text :=
  distinct ((sortedBindings listen published).map PortBinding.endpoint)

def hostMode : Text := "host".toList
def sharedMode : Text := "container:".toList

def llamacppContainerEndpoints (listen : LlamaCppListen) (networkMode : Option Text) (published : List PublishedPort) :
    List Text :=
  if networkMode = some hostMode then listen.listening
  else
    let endpoints := publishedEndpoints listen published
    if endpoints ≠ [] then endpoints
    else
      match networkMode with
      | none => listen.listening
      | some mode => if sharedMode <+: mode then listen.listening else []

/-- A TCP port of the container is published at the endpoint. -/
def PublishesAt (published : List PublishedPort) (container : UInt16) (endpoint : Text) : Prop :=
  ∃ item ∈ published, item.tcp = true ∧ item.container = container ∧
    ∃ port, item.host = some port ∧ llamacppEndpoint item.hostIp port = endpoint

theorem publishesAt_iff {published : List PublishedPort} {container : UInt16} {endpoint : Text} :
    PublishesAt published container endpoint ↔
      ∃ binding ∈ published.filterMap PublishedPort.binding, binding.container = container ∧
        binding.endpoint = endpoint := by
  constructor
  · rintro ⟨item, hitem, htcp, hcontainer, port, hport, hendpoint⟩
    refine ⟨⟨item.container, port, item.hostIp⟩, List.mem_filterMap.mpr ⟨item, hitem, ?_⟩, hcontainer, hendpoint⟩
    rw [PublishedPort.binding, if_pos htcp, hport]
    rfl
  · rintro ⟨binding, hbinding, hcontainer, hendpoint⟩
    obtain ⟨item, hitem, hbinding⟩ := List.mem_filterMap.mp hbinding
    rw [PublishedPort.binding] at hbinding
    split at hbinding
    · rename_i htcp
      obtain ⟨port, hport, rfl⟩ := Option.map_eq_some_iff.mp hbinding
      exact ⟨item, hitem, htcp, hcontainer, port, hport, hendpoint⟩
    · cases hbinding

theorem mem_sortedBindings {listen : LlamaCppListen} {published : List PublishedPort} {binding : PortBinding} :
    binding ∈ sortedBindings listen published ↔ binding ∈ published.filterMap PublishedPort.binding :=
  (List.mergeSort_perm _ _).mem_iff

theorem pairwise_sortedBindings (listen : LlamaCppListen) (published : List PublishedPort) :
    (sortedBindings listen published).Pairwise fun a b =>
      positionOf listen a.container ≤ positionOf listen b.container := by
  have hsorted : (sortedBindings listen published).Pairwise fun a b =>
      decide (positionOf listen a.container ≤ positionOf listen b.container) = true := by
    apply List.pairwise_mergeSort
    · intro a b c hab hbc
      exact decide_eq_true (Nat.le_trans (of_decide_eq_true hab) (of_decide_eq_true hbc))
    · intro a b
      rw [Bool.or_eq_true, decide_eq_true_eq, decide_eq_true_eq]
      exact Nat.le_total _ _
  exact hsorted.imp of_decide_eq_true

theorem mem_publishedEndpoints {published : List PublishedPort} {listen : LlamaCppListen} {endpoint : Text} :
    endpoint ∈ publishedEndpoints listen published ↔
      ∃ container, PublishesAt published container endpoint := by
  rw [publishedEndpoints, mem_distinct, List.mem_map]
  constructor
  · rintro ⟨binding, hbinding, hendpoint⟩
    exact ⟨binding.container, publishesAt_iff.mpr ⟨binding, mem_sortedBindings.mp hbinding, rfl, hendpoint⟩⟩
  · rintro ⟨container, hpublishes⟩
    obtain ⟨binding, hbinding, _, hendpoint⟩ := publishesAt_iff.mp hpublishes
    exact ⟨binding, mem_sortedBindings.mpr hbinding, hendpoint⟩

/-- A port that is not listened on has its place after all that are. -/
theorem idxOf_le_of_positionOf_le {listen : LlamaCppListen} (hports : listen.ports.length ≤ usizeMax)
    {container other : UInt16} (h : positionOf listen container ≤ positionOf listen other) :
    listen.ports.idxOf container ≤ listen.ports.idxOf other := by
  have hposition : ∀ port, (listen.ports.idxOf port < listen.ports.length ∧
      positionOf listen port = listen.ports.idxOf port) ∨
      (listen.ports.idxOf port = listen.ports.length ∧ positionOf listen port = usizeMax) := by
    intro port
    rw [positionOf]
    cases hidx : listen.ports.idxOf? port with
    | some i =>
      have heq : listen.ports.idxOf port = i := by
        rw [List.idxOf_eq_getD_idxOf?, hidx]
        rfl
      obtain ⟨hi, _⟩ := List.idxOf?_eq_some_iff.mp hidx
      exact .inl ⟨heq ▸ hi, heq.symm⟩
    | none => exact .inr ⟨List.idxOf_eq_length (List.idxOf?_eq_none_iff.mp hidx), rfl⟩
  have hcontainer := hposition container
  have hother := hposition other
  omega

theorem decimal_injective {m n : Nat} (h : decimal m = decimal n) : m = n := by
  rw [← natOf_decimal m, h, natOf_decimal]

theorem llamacppEndpoint_injective {host : Option Text} {port other : UInt16}
    (h : llamacppEndpoint host port = llamacppEndpoint host other) : port = other := by
  have hport := (List.cons.inj (List.append_cancel_left h)).2
  exact UInt16.toNat_inj.mp (decimal_injective hport)

theorem listening_eq (listen : LlamaCppListen) :
    listen.listening = listen.ports.map (llamacppEndpoint listen.host) := rfl

theorem isSome_tcpAddress_iff (hosts : Option Text) :
    (tcpAddress hosts).isSome ↔
      ∀ text, hosts = some text → ∃ host ∈ text.splitOn ',', isTcpHost (trimMatches isWhitespace host) = true := by
  cases hosts with
  | none => exact iff_of_true rfl fun _ h => by cases h
  | some text =>
    rw [tcpAddress, Option.isSome_map, List.find?_isSome]
    constructor
    · rintro ⟨address, haddress, htcp⟩ hosts heq
      cases heq
      obtain ⟨host, hhost, rfl⟩ := List.mem_map.mp haddress
      exact ⟨host, hhost, htcp⟩
    · intro h
      obtain ⟨host, hhost, htcp⟩ := h text rfl
      exact ⟨_, List.mem_map_of_mem hhost, htcp⟩

theorem isSome_listen_iff (launch : LlamaCppLaunch) (defaultPorts : UInt16 × UInt16) :
    (launch.listen defaultPorts).isSome ↔ launch.port ≠ some 0 ∧
      ∀ hosts, launch.host = some hosts → ∃ host ∈ hosts.splitOn ',', isTcpHost (trimMatches isWhitespace host) = true := by
  rw [← isSome_tcpAddress_iff, LlamaCppLaunch.listen]
  cases tcpAddress launch.host with
  | none => simp
  | some host =>
    cases launch.port with
    | none => simp
    | some port =>
      by_cases hport : port = 0
      · simp [hport]
      · simp [hport]

/-- The port of the launch, or the defaults. -/
theorem ports_of_listen {launch : LlamaCppLaunch} {defaultPorts : UInt16 × UInt16} {listen : LlamaCppListen}
    (h : launch.listen defaultPorts = some listen) :
    (∃ port, launch.port = some port ∧ listen.ports = [port]) ∨
      (launch.port = none ∧ listen.ports = [defaultPorts.1, defaultPorts.2]) := by
  obtain ⟨host, _, h⟩ := Option.bind_eq_some_iff.mp h
  cases hport : launch.port with
  | none =>
    rw [hport] at h
    cases h
    exact .inr ⟨rfl, rfl⟩
  | some port =>
    rw [hport] at h
    dsimp only at h
    split at h
    · cases h
    · cases h
      exact .inl ⟨port, rfl, rfl⟩

theorem nodup_ports {launch : LlamaCppLaunch} {defaultPorts : UInt16 × UInt16} {listen : LlamaCppListen}
    (hdistinct : defaultPorts.1 ≠ defaultPorts.2) (h : launch.listen defaultPorts = some listen) :
    listen.ports.Nodup ∧ listen.ports.length ≤ 2 := by
  rcases ports_of_listen h with ⟨port, _, hports⟩ | ⟨_, hports⟩
  · rw [hports]
    exact ⟨List.nodup_singleton port, by simp⟩
  · rw [hports]
    exact ⟨by simp [hdistinct], by simp⟩

/-- With nothing published, the listening ports are assumed reachable as on the host network. -/
def AssumesHost (networkMode : Option Text) : Prop :=
  networkMode = none ∨ ∃ shared, networkMode = some (sharedMode ++ shared)

theorem endpoints_of_published {listen : LlamaCppListen} {networkMode : Option Text} {published : List PublishedPort}
    (hmode : networkMode ≠ some hostMode) (h : ∃ container endpoint, PublishesAt published container endpoint) :
    llamacppContainerEndpoints listen networkMode published =
      publishedEndpoints listen published := by
  obtain ⟨container, endpoint, h⟩ := h
  have hmem : endpoint ∈ publishedEndpoints listen published :=
    mem_publishedEndpoints.mpr ⟨container, h⟩
  rw [llamacppContainerEndpoints.eq_def, if_neg hmode]
  exact if_pos (List.ne_nil_of_mem hmem)

theorem endpoints_of_unpublished {listen : LlamaCppListen} {networkMode : Option Text} {published : List PublishedPort}
    (hmode : networkMode ≠ some hostMode) (h : ¬∃ container endpoint, PublishesAt published container endpoint) :
    (AssumesHost networkMode → llamacppContainerEndpoints listen networkMode published = listen.listening) ∧
    (¬AssumesHost networkMode → llamacppContainerEndpoints listen networkMode published = []) := by
  have hnil : publishedEndpoints listen published = [] := by
    rw [List.eq_nil_iff_forall_not_mem]
    intro endpoint hmem
    obtain ⟨container, hpublishes⟩ := mem_publishedEndpoints.mp hmem
    exact h ⟨container, endpoint, hpublishes⟩
  rw [llamacppContainerEndpoints.eq_def, if_neg hmode, hnil]
  dsimp only
  rw [if_neg (not_not_intro rfl)]
  cases networkMode with
  | none => exact ⟨fun _ => rfl, fun hother => absurd (.inl rfl) hother⟩
  | some mode =>
    dsimp only
    split
    · rename_i hshared
      obtain ⟨shared, rfl⟩ := hshared
      exact ⟨fun _ => rfl, fun hother => absurd (.inr ⟨shared, rfl⟩) hother⟩
    · rename_i hshared
      refine ⟨?_, fun _ => rfl⟩
      rintro (hnone | ⟨shared, hmode⟩)
      · cases hnone
      · cases hmode
        exact absurd (List.prefix_append _ _) hshared

theorem nodup_llamacppContainerEndpoints {listen : LlamaCppListen} (hports : listen.ports.Nodup)
    (networkMode : Option Text) (published : List PublishedPort) :
    (llamacppContainerEndpoints listen networkMode published).Nodup := by
  have hlistening : listen.listening.Nodup := by
    rw [listening_eq]
    exact hports.map fun _ _ h => llamacppEndpoint_injective h
  by_cases hmode : networkMode = some hostMode
  · rw [llamacppContainerEndpoints.eq_def, if_pos hmode]
    exact hlistening
  · by_cases hpublished : ∃ container endpoint, PublishesAt published container endpoint
    · rw [endpoints_of_published hmode hpublished]
      exact nodup_distinct _
    · obtain ⟨hassumed, hother⟩ := @endpoints_of_unpublished listen _ _ hmode hpublished
      by_cases hmode : AssumesHost networkMode
      · rw [hassumed hmode]
        exact hlistening
      · rw [hother hmode]
        exact List.nodup_nil

theorem pairwise_publishedEndpoints {listen : LlamaCppListen} (hports : listen.ports.length ≤ usizeMax)
    (published : List PublishedPort) :
    (publishedEndpoints listen published).Pairwise fun endpoint later =>
      ∀ other, PublishesAt published other later → ∃ container, PublishesAt published container endpoint ∧
        listen.ports.idxOf container ≤ listen.ports.idxOf other := by
  have htrans : ∀ a b c : PortBinding, positionOf listen a.container ≤ positionOf listen b.container →
      positionOf listen b.container ≤ positionOf listen c.container →
      positionOf listen a.container ≤ positionOf listen c.container := fun _ _ _ => Nat.le_trans
  have hleads := pairwise_distinct (f := PortBinding.endpoint) htrans (pairwise_sortedBindings listen published)
  apply hleads.imp
  intro endpoint later hleads other hother
  obtain ⟨binding', hbinding', rfl, hlater⟩ := publishesAt_iff.mp hother
  obtain ⟨binding, hbinding, hendpoint, hrank⟩ := hleads binding' (mem_sortedBindings.mpr hbinding') hlater
  refine ⟨binding.container, publishesAt_iff.mpr ⟨binding, mem_sortedBindings.mp hbinding, rfl, hendpoint⟩, ?_⟩
  exact idxOf_le_of_positionOf_le hports hrank

theorem llamacppContainerEndpoints_spec {launch : LlamaCppLaunch} {defaultPorts : UInt16 × UInt16}
    {listen : LlamaCppListen} (hdistinct : defaultPorts.1 ≠ defaultPorts.2)
    (hlisten : launch.listen defaultPorts = some listen) (networkMode : Option Text) (published : List PublishedPort) :
    (llamacppContainerEndpoints listen networkMode published).Nodup ∧
    (networkMode = some hostMode →
      llamacppContainerEndpoints listen networkMode published = listen.ports.map (llamacppEndpoint listen.host)) ∧
    (networkMode ≠ some hostMode → (∃ container endpoint, PublishesAt published container endpoint) →
      (∀ endpoint, endpoint ∈ llamacppContainerEndpoints listen networkMode published ↔
        ∃ container, PublishesAt published container endpoint) ∧
      (llamacppContainerEndpoints listen networkMode published).Pairwise fun endpoint later =>
        ∀ other, PublishesAt published other later → ∃ container, PublishesAt published container endpoint ∧
          listen.ports.idxOf container ≤ listen.ports.idxOf other) ∧
    (networkMode ≠ some hostMode → (¬∃ container endpoint, PublishesAt published container endpoint) →
      (AssumesHost networkMode →
        llamacppContainerEndpoints listen networkMode published = listen.ports.map (llamacppEndpoint listen.host)) ∧
      (¬AssumesHost networkMode → llamacppContainerEndpoints listen networkMode published = [])) := by
  obtain ⟨hports, hlength⟩ := nodup_ports hdistinct hlisten
  refine ⟨nodup_llamacppContainerEndpoints hports networkMode published, ?_, ?_, ?_⟩
  · intro hmode
    rw [llamacppContainerEndpoints.eq_def, if_pos hmode, listening_eq]
  · intro hmode hpublished
    rw [endpoints_of_published hmode hpublished]
    refine ⟨fun _ => mem_publishedEndpoints, ?_⟩
    exact pairwise_publishedEndpoints (Nat.le_trans hlength (by decide)) published
  · intro hmode hnone
    rw [← listening_eq]
    exact endpoints_of_unpublished hmode hnone

theorem llamacppContainerEndpoints_spec_published :
    "http://localhost:9000".toList ∈ llamacppContainerEndpoints ⟨none, 8080, [9931]⟩ (some "bridge".toList)
      [⟨5000, some 5000, none, true⟩, ⟨8080, some 9000, some "::".toList, true⟩] := by
  have hlisten : (⟨none, none, none, none, none, none⟩ : LlamaCppLaunch).listen (8080, 9931) =
      some ⟨none, 8080, [9931]⟩ := rfl
  have hpublishes : PublishesAt [⟨5000, some 5000, none, true⟩, ⟨8080, some 9000, some "::".toList, true⟩] 8080
      "http://localhost:9000".toList :=
    ⟨_, List.mem_cons_of_mem _ List.mem_cons_self, rfl, rfl, 9000, rfl, by decide +kernel⟩
  have hpublished := (llamacppContainerEndpoints_spec (by decide) hlisten (some "bridge".toList)
    [⟨5000, some 5000, none, true⟩, ⟨8080, some 9000, some "::".toList, true⟩]).2.2.1
  exact ((hpublished (by decide) ⟨_, _, hpublishes⟩).1 _).mpr ⟨_, hpublishes⟩

end SparkDashboard.Engines
