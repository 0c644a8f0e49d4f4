import SparkDashboard.Engines.Detector

/-!
# Merging loses nothing

Taking containers' processes out only moves PIDs the containers already have, and
joining only adds: what a candidate or a container brought is somewhere in the result.
-/

namespace SparkDashboard.Engines

open DetectedEngine

/-- What joining keeps of a container. -/
def identity (c : DetectedEngine) : EngineKey × DeploymentMode × List Nat := (c.key, c.deploymentMode, c.pids)

theorem identity_absorbContainerProcesses (candidates : List DetectedEngine) (container : DetectedEngine) :
    identity (absorbContainerProcesses candidates container).2 = identity container := by
  induction candidates generalizing container with
  | nil => rfl
  | cons c rest ih =>
    rw [absorbContainerProcesses]
    split
    · dsimp only
      split
      · rw [ih]
        split <;> rfl
      · exact ih container
    · exact ih container

theorem mem_absorbContainerProcesses {candidates : List DetectedEngine} {container c : DetectedEngine}
    (h : c ∈ (absorbContainerProcesses candidates container).1) :
    ∃ before ∈ candidates, c.key = before.key ∧
      ∀ pid, pid ∈ c.pids ↔ pid ∈ before.pids ∧ pid ∉ container.pids := by
  induction candidates generalizing container with
  | nil => cases h
  | cons first rest ih =>
    rw [absorbContainerProcesses] at h
    split at h
    · dsimp only at h
      split at h
      · obtain ⟨before, hmem, hkey, hiff⟩ := ih h
        refine ⟨before, List.mem_cons_of_mem first hmem, hkey, ?_⟩
        split at hiff
        · exact hiff
        · exact hiff
      · rcases List.mem_cons.mp h with rfl | hrest
        · exact ⟨first, List.mem_cons_self, rfl, fun pid => by simp⟩
        · obtain ⟨before, hmem, hkey, hiff⟩ := ih hrest
          exact ⟨before, List.mem_cons_of_mem first hmem, hkey, hiff⟩
    · rename_i hnone
      rcases List.mem_cons.mp h with rfl | hrest
      · refine ⟨c, List.mem_cons_self, rfl, ?_⟩
        intro pid
        constructor
        · intro hpid
          refine ⟨hpid, fun hcontainer => hnone ?_⟩
          exact List.any_eq_true.mpr ⟨pid, hpid, decide_eq_true hcontainer⟩
        · exact fun hpid => hpid.1
      · obtain ⟨before, hmem, hkey, hiff⟩ := ih hrest
        exact ⟨before, List.mem_cons_of_mem first hmem, hkey, hiff⟩

theorem keys_absorbContainerProcesses (candidates : List DetectedEngine) (container : DetectedEngine) :
    ((absorbContainerProcesses candidates container).1.map key).Sublist (candidates.map key) := by
  induction candidates generalizing container with
  | nil => exact List.Sublist.refl _
  | cons first rest ih =>
    rw [absorbContainerProcesses]
    split
    · dsimp only
      split
      · exact (ih _).cons first.key
      · exact (ih container).cons_cons first.key
    · exact (ih container).cons_cons first.key

theorem allPids_of_absorbContainerProcesses {candidates : List DetectedEngine} {container : DetectedEngine}
    {pid : Nat} (h : AllPids candidates pid) :
    AllPids (absorbContainerProcesses candidates container).1 pid ∨ pid ∈ container.pids := by
  induction candidates generalizing container with
  | nil =>
    obtain ⟨c, hc, -⟩ := h
    cases hc
  | cons first rest ih =>
    by_cases hcontainer : pid ∈ container.pids
    · exact .inr hcontainer
    · refine .inl ?_
      obtain ⟨c, hc, hpid⟩ := h
      rw [absorbContainerProcesses]
      rcases List.mem_cons.mp hc with rfl | hrest
      · split
        · dsimp only
          have hkept : pid ∈ c.pids.filter (· ∉ container.pids) :=
            List.mem_filter.mpr ⟨hpid, decide_eq_true hcontainer⟩
          split
          · rename_i hnil
            rw [hnil] at hkept
            cases hkept
          · exact ⟨_, List.mem_cons_self, hkept⟩
        · exact ⟨c, List.mem_cons_self, hpid⟩
      · have hlater : ∀ d : DetectedEngine, d.pids = container.pids →
            AllPids (absorbContainerProcesses rest d).1 pid := by
          intro d hd
          have hor : AllPids (absorbContainerProcesses rest d).1 pid ∨ pid ∈ d.pids := ih ⟨c, hrest, hpid⟩
          refine hor.resolve_right ?_
          rw [hd]
          exact hcontainer
        have hcons : ∀ d e : DetectedEngine, d.pids = container.pids →
            AllPids (e :: (absorbContainerProcesses rest d).1) pid := by
          intro d e hd
          obtain ⟨k, hk, hkpid⟩ := hlater d hd
          exact ⟨k, List.mem_cons_of_mem e hk, hkpid⟩
        split
        · dsimp only
          split
          · refine hlater _ ?_
            split <;> rfl
          · exact hcons container _ rfl
        · exact hcons container first rfl

theorem identity_absorbAll (candidates docker : List DetectedEngine) :
    (absorbAll candidates docker).2.map identity = docker.map identity := by
  induction docker generalizing candidates with
  | nil => rfl
  | cons container rest ih =>
    rw [absorbAll, List.map_cons, List.map_cons, ih, identity_absorbContainerProcesses]

theorem keys_absorbAll (candidates docker : List DetectedEngine) :
    ((absorbAll candidates docker).1.map key).Sublist (candidates.map key) := by
  induction docker generalizing candidates with
  | nil => exact List.Sublist.refl _
  | cons container rest ih => exact (ih _).trans (keys_absorbContainerProcesses candidates container)

theorem mem_absorbAll {candidates docker : List DetectedEngine} {c : DetectedEngine}
    (h : c ∈ (absorbAll candidates docker).1) :
    (∃ before ∈ candidates, ∀ pid, pid ∈ c.pids → pid ∈ before.pids) ∧
      ∀ d ∈ docker, ∀ pid, pid ∈ c.pids → pid ∉ d.pids := by
  induction docker generalizing candidates with
  | nil => exact ⟨⟨c, h, fun _ hpid => hpid⟩, fun d hd => absurd hd List.not_mem_nil⟩
  | cons container rest ih =>
    obtain ⟨⟨middle, hmiddle, hsub⟩, hrest⟩ := ih h
    obtain ⟨before, hbefore, -, hiff⟩ := mem_absorbContainerProcesses hmiddle
    refine ⟨⟨before, hbefore, fun pid hpid => ((hiff pid).mp (hsub pid hpid)).1⟩, ?_⟩
    intro d hd pid hpid
    rcases List.mem_cons.mp hd with rfl | hd
    · exact ((hiff pid).mp (hsub pid hpid)).2
    · exact hrest d hd pid hpid

theorem allPids_absorbAll {candidates docker : List DetectedEngine} {pid : Nat} :
    AllPids (absorbAll candidates docker).1 pid ∨ AllPids docker pid ↔
      AllPids candidates pid ∨ AllPids docker pid := by
  constructor
  · rintro (⟨c, hc, hpid⟩ | hdocker)
    · obtain ⟨⟨before, hbefore, hsub⟩, -⟩ := mem_absorbAll hc
      exact .inl ⟨before, hbefore, hsub pid hpid⟩
    · exact .inr hdocker
  · intro h
    induction docker generalizing candidates with
    | nil => exact h
    | cons container rest ih =>
      have hrest : AllPids rest pid → AllPids (container :: rest) pid := by
        rintro ⟨d, hd, hpid⟩
        exact ⟨d, List.mem_cons_of_mem container hd, hpid⟩
      rcases h with hcandidates | hdocker
      · have hor : AllPids (absorbContainerProcesses candidates container).1 pid ∨ pid ∈ container.pids :=
          allPids_of_absorbContainerProcesses hcandidates
        rcases hor with hleft | hpid
        · rcases ih (.inl hleft) with hdone | hdone
          · exact .inl hdone
          · exact .inr (hrest hdone)
        · exact .inr ⟨container, List.mem_cons_self, hpid⟩
      · exact .inr hdocker

/-- An entry stands for a container: its endpoint and type, Docker, all of its processes. -/
def Represents (candidates : List DetectedEngine) (i : EngineKey × DeploymentMode × List Nat) : Prop :=
  ∃ c ∈ candidates, c.key = i.1 ∧ c.deploymentMode = .docker ∧ ∀ pid ∈ i.2.2, pid ∈ c.pids

theorem represents_joinOnEndpoint {candidates : List DetectedEngine} {candidate : DetectedEngine}
    {i : EngineKey × DeploymentMode × List Nat} (h : Represents candidates i) :
    Represents (joinOnEndpoint candidates candidate) i := by
  obtain ⟨c, hc, hkey, hmode, hpids⟩ := h
  rcases mem_joinOnEndpoint_of_mem hc with hmem | ⟨-, hmem⟩
  · exact ⟨c, hmem, hkey, hmode, hpids⟩
  · exact ⟨_, hmem, hkey, fold_docker (.inl hmode), fun pid hpid => mem_fold_pids.mpr (.inl (hpids pid hpid))⟩

theorem represents_joined (candidates : List DetectedEngine) {candidate : DetectedEngine}
    (hmode : candidate.deploymentMode = .docker) :
    Represents (joinOnEndpoint candidates candidate) (identity candidate) := by
  obtain ⟨c, hc, rfl | ⟨existing, -, hkey, rfl⟩⟩ := exists_mem_joinOnEndpoint candidates candidate
  · exact ⟨c, hc, rfl, hmode, fun _ hpid => hpid⟩
  · exact ⟨_, hc, hkey, fold_docker (.inr hmode), fun _ hpid => mem_fold_pids.mpr (.inr hpid)⟩

/-- What joining a list of containers keeps, from the candidates it started with. -/
structure JoinsAll (candidates joined containers : List DetectedEngine) : Prop where
  distinct : DistinctKeys joined
  pids : ∀ pid, AllPids joined pid ↔ AllPids candidates pid ∨ AllPids containers pid
  represents : ∀ i ∈ containers.map identity, Represents joined i
  native : ∀ c ∈ joined, c.deploymentMode = .native → c ∈ candidates

theorem joinsAll_foldl {candidates joined done containers : List DetectedEngine}
    (h : JoinsAll candidates joined done) (hdocker : ∀ d ∈ containers, d.deploymentMode = .docker) :
    JoinsAll candidates (containers.foldl joinOnEndpoint joined) (done ++ containers) := by
  induction containers generalizing joined done with
  | nil => rwa [List.append_nil]
  | cons container rest ih =>
    have hmode := hdocker container List.mem_cons_self
    rw [List.foldl_cons, List.append_cons]
    refine ih ⟨?_, ?_, ?_, ?_⟩ fun d hd => hdocker d (List.mem_cons_of_mem container hd)
    · exact distinctKeys_joinOnEndpoint h.distinct container
    · intro pid
      rw [allPids_joinOnEndpoint, h.pids]
      simp only [AllPids, List.mem_append, List.mem_singleton, or_and_right, exists_or, exists_eq_left,
        or_assoc]
    · intro i hi
      rw [List.map_append, List.mem_append] at hi
      rcases hi with hi | hi
      · exact represents_joinOnEndpoint (h.represents i hi)
      · rw [List.map_singleton, List.mem_singleton] at hi
        rw [hi]
        exact represents_joined joined hmode
    · intro c hc hnative
      rcases mem_joinOnEndpoint hc with hmem | rfl | ⟨existing, -, -, rfl⟩
      · exact h.native c hmem hnative
      · cases hnative.symm.trans hmode
      · cases hnative.symm.trans (fold_docker (.inr hmode))

theorem joinsAll_mergeDockerCandidates {candidates docker : List DetectedEngine}
    (hkeys : DistinctKeys candidates) (hdocker : ∀ d ∈ docker, d.deploymentMode = .docker) :
    JoinsAll (absorbAll candidates docker).1 (mergeDockerCandidates candidates docker)
      (absorbAll candidates docker).2 := by
  have hstart : JoinsAll (absorbAll candidates docker).1 (absorbAll candidates docker).1 [] := by
    refine ⟨hkeys.sublist (keys_absorbAll candidates docker), ?_, ?_, fun c hc _ => hc⟩
    · intro pid
      constructor
      · exact .inl
      · rintro (h | ⟨d, hd, -⟩)
        · exact h
        · cases hd
    · intro i hi
      cases hi
  refine joinsAll_foldl hstart ?_
  intro d hd
  have hidentity : identity d ∈ docker.map identity := by
    rw [← identity_absorbAll candidates docker]
    exact List.mem_map_of_mem hd
  obtain ⟨d', hd', heq⟩ := List.mem_map.mp hidentity
  have hmode : d'.deploymentMode = d.deploymentMode := congrArg (fun i => i.2.1) heq
  rw [← hmode]
  exact hdocker d' hd'

/-- Merging keeps keys distinct and every PID, puts every container in an entry of its
own with its PIDs, and leaves no container's PID in a native entry. -/
theorem mergeDockerCandidates_loses_nothing (candidates docker : List DetectedEngine)
    (hkeys : DistinctKeys candidates) (hdocker : ∀ d ∈ docker, d.deploymentMode = .docker) :
    DistinctKeys (mergeDockerCandidates candidates docker) ∧
    (∀ pid, AllPids (mergeDockerCandidates candidates docker) pid ↔
      AllPids candidates pid ∨ AllPids docker pid) ∧
    (∀ d ∈ docker, ∃ c ∈ mergeDockerCandidates candidates docker, c.engineType = d.engineType ∧
      c.endpoint = d.endpoint ∧ c.deploymentMode = .docker ∧ ∀ pid ∈ d.pids, pid ∈ c.pids) ∧
    ∀ c ∈ mergeDockerCandidates candidates docker, c.deploymentMode = .native →
      ∀ pid ∈ c.pids, ∀ d ∈ docker, pid ∉ d.pids := by
  have hjoins := joinsAll_mergeDockerCandidates hkeys hdocker
  have hpids : ∀ pid, AllPids (absorbAll candidates docker).2 pid ↔ AllPids docker pid := by
    intro pid
    have hmap : (absorbAll candidates docker).2.map DetectedEngine.pids = docker.map DetectedEngine.pids := by
      have h := congrArg (List.map fun i => i.2.2) (identity_absorbAll candidates docker)
      rwa [List.map_map, List.map_map] at h
    have hview : ∀ l : List DetectedEngine, AllPids l pid ↔ ∃ p ∈ l.map DetectedEngine.pids, pid ∈ p := by
      intro l
      simp [AllPids]
    rw [hview, hmap, hview]
  refine ⟨hjoins.distinct, ?_, ?_, ?_⟩
  · intro pid
    rw [hjoins.pids, hpids, allPids_absorbAll]
  · intro d hd
    have hidentity : identity d ∈ (absorbAll candidates docker).2.map identity := by
      rw [identity_absorbAll]
      exact List.mem_map_of_mem hd
    obtain ⟨c, hc, hkey, hmode, hcpids⟩ := hjoins.represents _ hidentity
    obtain ⟨htype, hendpoint⟩ := Prod.mk.inj hkey
    exact ⟨c, hc, htype, hendpoint, hmode, hcpids⟩
  · intro c hc hmode pid hpid d hd
    exact (mem_absorbAll (hjoins.native c hc hmode)).2 d hd pid hpid

/-- The host scan's view of a container, and a native server it grouped with another's process. -/
def scannedHost : List DetectedEngine :=
  [{ engineType := .vllm, endpoint := "127.0.0.1:8000", deploymentMode := .native, pids := [10, 11] },
    { engineType := .sglang, endpoint := "localhost:30000", deploymentMode := .native, pids := [30, 12] }]

def scannedContainers : List DetectedEngine :=
  [{ engineType := .vllm, endpoint := "localhost:8000", deploymentMode := .docker, pids := [10, 11, 12],
     containerId := some "c1" }]

theorem mergeDockerCandidates_scanned :
    mergeDockerCandidates scannedHost scannedContainers =
      [{ engineType := .sglang, endpoint := "localhost:30000", deploymentMode := .native, pids := [30] },
        { engineType := .vllm, endpoint := "localhost:8000", deploymentMode := .docker, pids := [10, 11, 12],
          containerId := some "c1" }] ∧
    ∀ pid, AllPids (mergeDockerCandidates scannedHost scannedContainers) pid ↔
      AllPids scannedHost pid ∨ AllPids scannedContainers pid :=
  ⟨by decide, (mergeDockerCandidates_loses_nothing scannedHost scannedContainers
    (by rw [DistinctKeys]; decide) (by decide)).2.1⟩

end SparkDashboard.Engines
