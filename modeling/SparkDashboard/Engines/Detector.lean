import Mathlib.Data.List.Sort
import SparkDashboard.Engines.Metrics

/-!
# Detection candidates

How the host scan and the Docker scan are merged into one list: every container first
takes its processes out of the host scan's candidates, then joins the candidate on its
endpoint. A probe is a parameter of verification.
-/

namespace SparkDashboard.Engines

structure DetectedEngine where
  engineType : EngineType
  endpoint : String
  deploymentMode : DeploymentMode
  servedModel : Option String := none
  pids : List Nat := []
  containerId : Option String := none
  fallbackEndpoints : List String := []
  deriving DecidableEq, Repr

abbrev EngineKey := EngineType × String

namespace DetectedEngine

def key (c : DetectedEngine) : EngineKey := (c.engineType, c.endpoint)

def isDocker (c : DetectedEngine) : Bool := decide (c.deploymentMode = .docker)

def addMissing (pids more : List Nat) : List Nat :=
  more.foldl (fun acc pid => if pid ∈ acc then acc else acc ++ [pid]) pids

def fold (existing candidate : DetectedEngine) : DetectedEngine where
  engineType := existing.engineType
  endpoint := existing.endpoint
  servedModel :=
    if (candidate.isDocker && candidate.servedModel.isSome) || existing.servedModel.isNone then
      candidate.servedModel
    else existing.servedModel
  deploymentMode := if candidate.isDocker then .docker else existing.deploymentMode
  pids := (addMissing existing.pids candidate.pids).insertionSort (· ≤ ·)
  containerId := if existing.containerId.isNone then candidate.containerId else existing.containerId
  fallbackEndpoints := candidate.fallbackEndpoints.foldl (fun acc endpoint =>
    if endpoint ≠ existing.endpoint ∧ endpoint ∉ acc then acc ++ [endpoint] else acc)
    existing.fallbackEndpoints

end DetectedEngine

open DetectedEngine

def joinOnEndpoint : List DetectedEngine → DetectedEngine → List DetectedEngine
  | [], candidate => [candidate]
  | existing :: rest, candidate =>
    if existing.key = candidate.key then existing.fold candidate :: rest
    else existing :: joinOnEndpoint rest candidate

/-- The candidates left once the container has taken its processes, and the container. -/
def absorbContainerProcesses : List DetectedEngine → DetectedEngine → List DetectedEngine × DetectedEngine
  | [], container => ([], container)
  | c :: rest, container =>
    if c.pids.any (· ∈ container.pids) then
      let kept := c.pids.filter (· ∉ container.pids)
      if kept = [] then
        absorbContainerProcesses rest
          (if container.servedModel.isNone && decide (c.engineType = container.engineType) then
            { container with servedModel := c.servedModel }
          else container)
      else
        let others := absorbContainerProcesses rest container
        ({ c with pids := kept } :: others.1, others.2)
    else
      let others := absorbContainerProcesses rest container
      (c :: others.1, others.2)

def absorbAll : List DetectedEngine → List DetectedEngine → List DetectedEngine × List DetectedEngine
  | candidates, [] => (candidates, [])
  | candidates, container :: rest =>
    let absorbed := absorbContainerProcesses candidates container
    let others := absorbAll absorbed.1 rest
    (others.1, absorbed.2 :: others.2)

def mergeDockerCandidates (candidates dockerCandidates : List DetectedEngine) : List DetectedEngine :=
  let absorbed := absorbAll candidates dockerCandidates
  absorbed.2.foldl joinOnEndpoint absorbed.1

/-- The first of a candidate's endpoints that answers as its engine type. -/
def answeringEndpoint (probe : EngineType → String → Bool) (c : DetectedEngine) : Option String :=
  (c.endpoint :: c.fallbackEndpoints).find? (probe c.engineType)

def verifyCandidates (probe : EngineType → String → Bool) (candidates : List DetectedEngine) :
    List DetectedEngine :=
  candidates.foldl (fun verified c =>
    match answeringEndpoint probe c with
    | some endpoint => joinOnEndpoint verified { c with endpoint, fallbackEndpoints := [] }
    | none => verified) []

/-- The three detection layers, over what the two scans found. -/
def detectEngines (byProcess byDocker : List DetectedEngine) (probe : EngineType → String → Bool) :
    List DetectedEngine :=
  verifyCandidates probe (mergeDockerCandidates byProcess byDocker)

theorem mem_addMissing {pids more : List Nat} {pid : Nat} :
    pid ∈ addMissing pids more ↔ pid ∈ pids ∨ pid ∈ more := by
  induction more generalizing pids with
  | nil => simp [addMissing]
  | cons first rest ih =>
    have hstep : addMissing pids (first :: rest) =
        addMissing (if first ∈ pids then pids else pids ++ [first]) rest := rfl
    rw [hstep, ih]
    by_cases hmem : first ∈ pids
    · rw [if_pos hmem, List.mem_cons]
      constructor
      · rintro (h | h)
        · exact .inl h
        · exact .inr (.inr h)
      · rintro (h | rfl | h)
        · exact .inl h
        · exact .inl hmem
        · exact .inr h
    · rw [if_neg hmem, List.mem_append, List.mem_singleton, List.mem_cons, or_assoc]

@[simp] theorem fold_key (existing candidate : DetectedEngine) :
    (existing.fold candidate).key = existing.key := rfl

@[simp] theorem mem_fold_pids {existing candidate : DetectedEngine} {pid : Nat} :
    pid ∈ (existing.fold candidate).pids ↔ pid ∈ existing.pids ∨ pid ∈ candidate.pids := by
  rw [DetectedEngine.fold, (List.perm_insertionSort _ _).mem_iff, mem_addMissing]

theorem fold_docker {existing candidate : DetectedEngine}
    (h : existing.deploymentMode = .docker ∨ candidate.deploymentMode = .docker) :
    (existing.fold candidate).deploymentMode = .docker := by
  simp only [DetectedEngine.fold, isDocker, decide_eq_true_eq]
  split
  · rfl
  · exact h.resolve_right ‹_›

theorem mem_joinOnEndpoint {candidates : List DetectedEngine} {candidate c : DetectedEngine}
    (h : c ∈ joinOnEndpoint candidates candidate) :
    c ∈ candidates ∨ c = candidate ∨
      ∃ existing ∈ candidates, existing.key = candidate.key ∧ c = existing.fold candidate := by
  induction candidates with
  | nil => exact .inr (.inl (List.mem_singleton.mp h))
  | cons existing rest ih =>
    rw [joinOnEndpoint] at h
    split at h
    · rename_i hkey
      rcases List.mem_cons.mp h with rfl | hrest
      · exact .inr (.inr ⟨existing, List.mem_cons_self, hkey, rfl⟩)
      · exact .inl (List.mem_cons_of_mem existing hrest)
    · rcases List.mem_cons.mp h with rfl | hrest
      · exact .inl List.mem_cons_self
      · rcases ih hrest with hmem | rfl | ⟨other, hother, hkey, rfl⟩
        · exact .inl (List.mem_cons_of_mem existing hmem)
        · exact .inr (.inl rfl)
        · exact .inr (.inr ⟨other, List.mem_cons_of_mem existing hother, hkey, rfl⟩)

theorem exists_mem_joinOnEndpoint (candidates : List DetectedEngine) (candidate : DetectedEngine) :
    ∃ c ∈ joinOnEndpoint candidates candidate, c = candidate ∨
      ∃ existing ∈ candidates, existing.key = candidate.key ∧ c = existing.fold candidate := by
  induction candidates with
  | nil => exact ⟨candidate, List.mem_singleton.mpr rfl, .inl rfl⟩
  | cons existing rest ih =>
    rw [joinOnEndpoint]
    split
    · rename_i hkey
      exact ⟨_, List.mem_cons_self, .inr ⟨existing, List.mem_cons_self, hkey, rfl⟩⟩
    · obtain ⟨c, hc, hor⟩ := ih
      refine ⟨c, List.mem_cons_of_mem existing hc, ?_⟩
      rcases hor with rfl | ⟨other, hother, hkey, rfl⟩
      · exact .inl rfl
      · exact .inr ⟨other, List.mem_cons_of_mem existing hother, hkey, rfl⟩

theorem mem_joinOnEndpoint_of_mem {candidates : List DetectedEngine} {candidate c : DetectedEngine}
    (h : c ∈ candidates) :
    c ∈ joinOnEndpoint candidates candidate ∨
      (c.key = candidate.key ∧ c.fold candidate ∈ joinOnEndpoint candidates candidate) := by
  induction candidates with
  | nil => cases h
  | cons existing rest ih =>
    rw [joinOnEndpoint]
    split
    · rename_i hkey
      rcases List.mem_cons.mp h with rfl | hrest
      · exact .inr ⟨hkey, List.mem_cons_self⟩
      · exact .inl (List.mem_cons_of_mem _ hrest)
    · rcases List.mem_cons.mp h with rfl | hrest
      · exact .inl List.mem_cons_self
      · rcases ih hrest with hmem | ⟨hkey, hmem⟩
        · exact .inl (List.mem_cons_of_mem existing hmem)
        · exact .inr ⟨hkey, List.mem_cons_of_mem existing hmem⟩

def DistinctKeys (candidates : List DetectedEngine) : Prop := (candidates.map key).Nodup

theorem map_key_joinOnEndpoint (candidates : List DetectedEngine) (candidate : DetectedEngine) :
    (joinOnEndpoint candidates candidate).map key =
      if candidate.key ∈ candidates.map key then candidates.map key
      else candidates.map key ++ [candidate.key] := by
  induction candidates with
  | nil => rfl
  | cons existing rest ih =>
    rw [joinOnEndpoint]
    by_cases hkey : existing.key = candidate.key
    · rw [if_pos hkey, List.map_cons, fold_key, List.map_cons, if_pos]
      rw [hkey]
      exact List.mem_cons_self
    · rw [if_neg hkey, List.map_cons, ih, List.map_cons]
      have hiff : candidate.key ∈ existing.key :: rest.map key ↔ candidate.key ∈ rest.map key := by
        rw [List.mem_cons]
        exact or_iff_right fun h => hkey h.symm
      by_cases hmem : candidate.key ∈ rest.map key
      · rw [if_pos hmem, if_pos (hiff.mpr hmem)]
      · rw [if_neg hmem, if_neg fun h => hmem (hiff.mp h), List.cons_append]

theorem distinctKeys_joinOnEndpoint {candidates : List DetectedEngine} (h : DistinctKeys candidates)
    (candidate : DetectedEngine) : DistinctKeys (joinOnEndpoint candidates candidate) := by
  rw [DistinctKeys, map_key_joinOnEndpoint]
  split
  · exact h
  · rename_i hnot
    refine List.nodup_append.mpr ⟨h, List.nodup_singleton _, ?_⟩
    intro k hk k' hk' heq
    rw [heq, List.mem_singleton.mp hk'] at hk
    exact hnot hk

def AllPids (candidates : List DetectedEngine) (pid : Nat) : Prop := ∃ c ∈ candidates, pid ∈ c.pids

theorem allPids_joinOnEndpoint {candidates : List DetectedEngine} {candidate : DetectedEngine} {pid : Nat} :
    AllPids (joinOnEndpoint candidates candidate) pid ↔ AllPids candidates pid ∨ pid ∈ candidate.pids := by
  constructor
  · rintro ⟨c, hc, hpid⟩
    rcases mem_joinOnEndpoint hc with hmem | rfl | ⟨existing, hexisting, -, rfl⟩
    · exact .inl ⟨c, hmem, hpid⟩
    · exact .inr hpid
    · rcases mem_fold_pids.mp hpid with hpid | hpid
      · exact .inl ⟨existing, hexisting, hpid⟩
      · exact .inr hpid
  · rintro (⟨c, hc, hpid⟩ | hpid)
    · rcases mem_joinOnEndpoint_of_mem hc with hmem | ⟨-, hmem⟩
      · exact ⟨c, hmem, hpid⟩
      · exact ⟨_, hmem, mem_fold_pids.mpr (.inl hpid)⟩
    · obtain ⟨c, hc, rfl | ⟨existing, -, -, rfl⟩⟩ := exists_mem_joinOnEndpoint candidates candidate
      · exact ⟨c, hc, hpid⟩
      · exact ⟨_, hc, mem_fold_pids.mpr (.inr hpid)⟩

end SparkDashboard.Engines
