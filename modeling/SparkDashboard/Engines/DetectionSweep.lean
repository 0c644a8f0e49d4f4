import SparkDashboard.Engines.DetectionMerge
import SparkDashboard.Engines.DockerScan
import SparkDashboard.Engines.ProcessScan
import SparkDashboard.Engines.Verification
import SparkDashboard.Library.SortByKey

/-!
# A detection sweep

The host scan, the Docker scan, their merging and the probes, one after the other: what an
engine at the end has to do with the processes and the containers it was found among, and
that none of those is overlooked.
-/

namespace SparkDashboard.Engines

open SparkDashboard.Library Chars DetectedEngine

/-- The processes of the host, each under its PID, in no particular order. -/
structure ProcessTable where
  rows : List HostProcess
  distinct : (rows.map HostProcess.pid).Nodup

variable {ε : Type}

/-- A variable among those of a process, which stand one after the other with zeros between. -/
def processEnvVar (environ : Nat → Except ε (List UInt8)) : EnvOf ε :=
  fun pid name => (environ pid).map fun bytes => envVarIn (bytes.splitOn 0) name

def byPid (a b : HostProcess) : Prop := a.pid ≤ b.pid

instance : DecidableRel byPid := fun a b => inferInstanceAs (Decidable (a.pid ≤ b.pid))

def detectByProcess (table : ProcessTable) (environ : Nat → Except ε (List UInt8)) : List DetectedEngine :=
  enginesFromProcesses (table.rows.insertionSort byPid) (processEnvVar environ)

def sweep (toLowercase : Text → Text) (table : ProcessTable) (environ : Nat → Except ε (List UInt8))
    (listed : Option (List Container)) (probe : EngineType → String → Bool) : List DetectedEngine :=
  detectEngines (detectByProcess table environ) (detectDockerEngines toLowercase listed) probe

section Combining

/-- What holds of candidates and survives folding holds of what they join. -/
theorem forall_mem_joinOnEndpoint {P : DetectedEngine → Prop} (hfold : ∀ a b, P a → P b → a.key = b.key → P (a.fold b))
    {joined : List DetectedEngine} {candidate : DetectedEngine} (hjoined : ∀ c ∈ joined, P c)
    (hcandidate : P candidate) : ∀ c ∈ joinOnEndpoint joined candidate, P c := by
  intro c hc
  rcases mem_joinOnEndpoint hc with hmem | rfl | ⟨existing, hexisting, hkey, rfl⟩
  · exact hjoined c hmem
  · exact hcandidate
  · exact hfold existing candidate (hjoined existing hexisting) hcandidate hkey

theorem forall_mem_foldl_joinOnEndpoint {P : DetectedEngine → Prop}
    (hfold : ∀ a b, P a → P b → a.key = b.key → P (a.fold b)) {candidates joined : List DetectedEngine}
    (hjoined : ∀ c ∈ joined, P c) (hcandidates : ∀ c ∈ candidates, P c) :
    ∀ c ∈ candidates.foldl joinOnEndpoint joined, P c := by
  induction candidates generalizing joined with
  | nil => exact hjoined
  | cons candidate rest ih =>
    refine ih ?_ fun c hc => hcandidates c (List.mem_cons_of_mem candidate hc)
    exact forall_mem_joinOnEndpoint hfold hjoined (hcandidates candidate List.mem_cons_self)

def moved (c : DetectedEngine) (endpoint : String) : DetectedEngine := { c with endpoint, fallbackEndpoints := [] }

theorem forall_mem_verifyCandidates {P : DetectedEngine → Prop}
    (hfold : ∀ a b, P a → P b → a.key = b.key → P (a.fold b)) {probe : EngineType → String → Bool}
    {candidates : List DetectedEngine}
    (hmoved : ∀ c ∈ candidates, ∀ endpoint, AnswersFirstAt probe c endpoint → P (moved c endpoint)) :
    ∀ e ∈ verifyCandidates probe candidates, P e := by
  induction candidates using List.reverseRecOn with
  | nil =>
    intro e he
    cases he
  | append_singleton seen c ih =>
    have hseen := ih fun c' hc' => hmoved c' (List.mem_append_left [c] hc')
    rw [verifyCandidates_append]
    cases hanswer : answeringEndpoint probe c with
    | none => exact hseen
    | some endpoint =>
      refine forall_mem_joinOnEndpoint hfold hseen ?_
      exact hmoved c (List.mem_append_right seen List.mem_cons_self) endpoint
        (answeringEndpoint_eq_some_iff.mp hanswer)

/-- The first candidate has everything the second was found with. -/
structure Covers (e c : DetectedEngine) : Prop where
  key : e.key = c.key
  endpoints : ∀ endpoint ∈ c.endpoint :: c.fallbackEndpoints, endpoint ∈ e.endpoint :: e.fallbackEndpoints
  pids : ∀ pid ∈ c.pids, pid ∈ e.pids
  docker : c.deploymentMode = .docker → e.deploymentMode = .docker

theorem Covers.engineType {e c : DetectedEngine} (h : Covers e c) : e.engineType = c.engineType :=
  (Prod.mk.inj h.key).1

theorem Covers.refl (c : DetectedEngine) : Covers c c := ⟨rfl, fun _ h => h, fun _ h => h, fun h => h⟩

theorem Covers.trans {e d c : DetectedEngine} (h : Covers e d) (h' : Covers d c) : Covers e c where
  key := h.key.trans h'.key
  endpoints endpoint hmem := h.endpoints endpoint (h'.endpoints endpoint hmem)
  pids pid hmem := h.pids pid (h'.pids pid hmem)
  docker hmode := h.docker (h'.docker hmode)

theorem endpoints_fold {existing candidate : DetectedEngine} (hkey : existing.key = candidate.key) {endpoint : String} :
    endpoint ∈ (existing.fold candidate).endpoint :: (existing.fold candidate).fallbackEndpoints ↔
      endpoint ∈ existing.endpoint :: existing.fallbackEndpoints ∨
        endpoint ∈ candidate.endpoint :: candidate.fallbackEndpoints := by
  have hfold : ∀ (more acc : List String),
      endpoint ∈ more.foldl (fun acc endpoint =>
        if endpoint ≠ existing.endpoint ∧ endpoint ∉ acc then acc ++ [endpoint] else acc) acc ∨
        endpoint = existing.endpoint ↔
      (endpoint ∈ acc ∨ endpoint = existing.endpoint) ∨ endpoint ∈ more := by
    intro more
    induction more with
    | nil => simp
    | cons first rest ih =>
      intro acc
      rw [List.foldl_cons, ih, List.mem_cons]
      split
      · rw [List.mem_append, List.mem_singleton]
        tauto
      · rename_i hknown
        rw [not_and_or, not_not, not_not] at hknown
        constructor
        · tauto
        · rintro (hacc | rfl | hrest)
          · exact .inl hacc
          · exact .inl (hknown.symm)
          · exact .inr hrest
  have hendpoint : existing.endpoint = candidate.endpoint := (Prod.mk.inj hkey).2
  have hiff := hfold candidate.fallbackEndpoints existing.fallbackEndpoints
  rw [List.mem_cons, List.mem_cons, List.mem_cons, ← hendpoint]
  simp only [DetectedEngine.fold]
  tauto

theorem covers_fold_left {existing candidate : DetectedEngine} (hkey : existing.key = candidate.key) :
    Covers (existing.fold candidate) existing where
  key := rfl
  endpoints _ h := (endpoints_fold hkey).mpr (.inl h)
  pids _ h := mem_fold_pids.mpr (.inl h)
  docker h := fold_docker (.inl h)

theorem covers_fold_right {existing candidate : DetectedEngine} (hkey : existing.key = candidate.key) :
    Covers (existing.fold candidate) candidate where
  key := hkey
  endpoints _ h := (endpoints_fold hkey).mpr (.inr h)
  pids _ h := mem_fold_pids.mpr (.inr h)
  docker h := fold_docker (.inr h)

theorem exists_covers_joinOnEndpoint {joined : List DetectedEngine} {candidate c : DetectedEngine}
    (h : c ∈ joined ∨ c = candidate) : ∃ e ∈ joinOnEndpoint joined candidate, Covers e c := by
  rcases h with h | rfl
  · rcases mem_joinOnEndpoint_of_mem h with hmem | ⟨hkey, hmem⟩
    · exact ⟨c, hmem, .refl c⟩
    · exact ⟨_, hmem, covers_fold_left hkey⟩
  · obtain ⟨e, he, rfl | ⟨existing, -, hkey, rfl⟩⟩ := exists_mem_joinOnEndpoint joined c
    · exact ⟨e, he, .refl e⟩
    · exact ⟨_, he, covers_fold_right hkey⟩

theorem exists_covers_foldl {candidates joined : List DetectedEngine} {c : DetectedEngine}
    (h : c ∈ joined ∨ c ∈ candidates) : ∃ e ∈ candidates.foldl joinOnEndpoint joined, Covers e c := by
  induction candidates generalizing joined c with
  | nil => exact ⟨c, h.resolve_right List.not_mem_nil, .refl c⟩
  | cons candidate rest ih =>
    have hstep : (c ∈ joined ∨ c = candidate) ∨ c ∈ rest := by
      rw [List.mem_cons] at h
      tauto
    rcases hstep with hstep | hrest
    · obtain ⟨d, hd, hcovers⟩ := exists_covers_joinOnEndpoint hstep
      obtain ⟨e, he, hcovers'⟩ := ih (.inl hd)
      exact ⟨e, he, hcovers'.trans hcovers⟩
    · exact ih (.inr hrest)

theorem exists_covers_verifyCandidates {probe : EngineType → String → Bool} {candidates : List DetectedEngine}
    {c : DetectedEngine} (hc : c ∈ candidates) {endpoint : String} (hanswers : AnswersFirstAt probe c endpoint) :
    ∃ e ∈ verifyCandidates probe candidates, Covers e (moved c endpoint) := by
  induction candidates using List.reverseRecOn with
  | nil => cases hc
  | append_singleton seen last ih =>
    rw [verifyCandidates_append]
    rcases List.mem_append.mp hc with hseen | hlast
    · obtain ⟨e, he, hcovers⟩ := ih hseen
      cases answeringEndpoint probe last with
      | none => exact ⟨e, he, hcovers⟩
      | some other =>
        obtain ⟨e', he', hcovers'⟩ := @exists_covers_joinOnEndpoint _ (moved last other) _ (.inl he)
        exact ⟨e', he', hcovers'.trans hcovers⟩
    · obtain rfl := List.mem_singleton.mp hlast
      rw [answeringEndpoint_eq_some_iff.mpr hanswers]
      exact exists_covers_joinOnEndpoint (.inr rfl)

/-- How an engine comes from a candidate: by way of what that was merged into, at the first of its endpoints
to answer. -/
structure Reached (probe : EngineType → String → Bool) (merged : List DetectedEngine) (candidate e : DetectedEngine) :
    Prop where
  engineType : e.engineType = candidate.engineType
  joined : ∃ m ∈ merged, Covers m candidate ∧ AnswersFirstAt probe m e.endpoint ∧ Covers e (moved m e.endpoint)
  endpoint : probe candidate.engineType candidate.endpoint = true → e.endpoint = candidate.endpoint

variable {probe : EngineType → String → Bool} {merged : List DetectedEngine}

theorem reached_of_joined {m candidate e : DetectedEngine} (hm : m ∈ merged) (hcovers : Covers m candidate)
    (hanswers : AnswersFirstAt probe m e.endpoint) (hmoved : Covers e (moved m e.endpoint)) :
    Reached probe merged candidate e where
  engineType := hmoved.engineType.trans hcovers.engineType
  joined := ⟨m, hm, hcovers, hanswers, hmoved⟩
  endpoint := by
    intro hprobe
    obtain ⟨htype, hendpoint⟩ := Prod.mk.inj hcovers.key
    rw [← htype, ← hendpoint] at hprobe
    obtain ⟨refusing, untried, hsplit, -, hrefusing⟩ := hanswers
    cases refusing with
    | nil => exact (List.cons.inj hsplit).1.symm.trans hendpoint
    | cons first refusing =>
      obtain ⟨rfl, -⟩ := List.cons.inj hsplit
      cases (hrefusing _ List.mem_cons_self).symm.trans hprobe

theorem Reached.of_covers {candidate e e' : DetectedEngine} (h : Reached probe merged candidate e)
    (hcovers : Covers e' e) : Reached probe merged candidate e' := by
  obtain ⟨m, hm, hcandidate, hanswers, hmoved⟩ := h.joined
  have hendpoint : e.endpoint = e'.endpoint := (Prod.mk.inj hcovers.key).2.symm
  rw [hendpoint] at hanswers hmoved
  exact reached_of_joined hm hcandidate hanswers (hcovers.trans hmoved)

/-- A candidate of which one endpoint answers is not lost. -/
theorem exists_reached {candidate m : DetectedEngine} (hm : m ∈ merged) (hcovers : Covers m candidate)
    (hanswers : ∃ endpoint ∈ candidate.endpoint :: candidate.fallbackEndpoints,
      probe candidate.engineType endpoint = true) :
    ∃ e ∈ verifyCandidates probe merged, Reached probe merged candidate e := by
  obtain ⟨endpoint, hmem, hprobe⟩ := hanswers
  rw [← hcovers.engineType] at hprobe
  obtain ⟨first, hfirst⟩ := exists_answersFirstAt (hcovers.endpoints endpoint hmem) hprobe
  obtain ⟨e, he, hmoved⟩ := exists_covers_verifyCandidates hm hfirst
  have hendpoint : e.endpoint = first := (Prod.mk.inj hmoved.key).2
  subst hendpoint
  exact ⟨e, he, reached_of_joined hm hcovers hfirst hmoved⟩

theorem Reached.pids {candidate e : DetectedEngine} (h : Reached probe merged candidate e) {pid : Nat}
    (hpid : pid ∈ candidate.pids) : pid ∈ e.pids := by
  obtain ⟨m, -, hcandidate, -, hmoved⟩ := h.joined
  exact hmoved.pids pid (hcandidate.pids pid hpid)

theorem Reached.docker {candidate e : DetectedEngine} (h : Reached probe merged candidate e)
    (hmode : candidate.deploymentMode = .docker) : e.deploymentMode = .docker := by
  obtain ⟨m, -, hcandidate, -, hmoved⟩ := h.joined
  exact hmoved.docker (hcandidate.docker hmode)

end Combining

section Absorbing

/-- The candidate without the processes of a container. -/
def StrippedOf (c before : DetectedEngine) (taken : Nat → Prop) : Prop :=
  c = { before with pids := c.pids } ∧ ∀ pid, pid ∈ c.pids ↔ pid ∈ before.pids ∧ ¬taken pid

theorem strippedOf_absorbContainerProcesses {candidates : List DetectedEngine} {container c : DetectedEngine}
    (h : c ∈ (absorbContainerProcesses candidates container).1) :
    ∃ before ∈ candidates, StrippedOf c before (· ∈ container.pids) := by
  induction candidates generalizing container with
  | nil => cases h
  | cons first rest ih =>
    have hrest : ∀ d : DetectedEngine, d.pids = container.pids → c ∈ (absorbContainerProcesses rest d).1 →
        ∃ before ∈ first :: rest, StrippedOf c before (· ∈ container.pids) := by
      intro d hd hmem
      obtain ⟨before, hbefore, hstripped⟩ := ih hmem
      rw [hd] at hstripped
      exact ⟨before, List.mem_cons_of_mem first hbefore, hstripped⟩
    rw [absorbContainerProcesses] at h
    split at h
    · dsimp only at h
      split at h
      · refine hrest _ ?_ h
        split <;> rfl
      · rcases List.mem_cons.mp h with rfl | hmem
        · exact ⟨first, List.mem_cons_self, rfl, fun pid => by simp⟩
        · exact hrest container rfl hmem
    · rename_i hnone
      rcases List.mem_cons.mp h with rfl | hmem
      · refine ⟨c, List.mem_cons_self, rfl, ?_⟩
        intro pid
        constructor
        · intro hpid
          refine ⟨hpid, fun hcontainer => hnone ?_⟩
          exact List.any_eq_true.mpr ⟨pid, hpid, decide_eq_true hcontainer⟩
        · exact fun hpid => hpid.1
      · exact hrest container rfl hmem

theorem exists_strippedOf_absorbContainerProcesses {candidates : List DetectedEngine}
    {container before : DetectedEngine} (hbefore : before ∈ candidates) {pid : Nat} (hpid : pid ∈ before.pids)
    (hfree : pid ∉ container.pids) :
    ∃ c ∈ (absorbContainerProcesses candidates container).1, StrippedOf c before (· ∈ container.pids) := by
  induction candidates generalizing container with
  | nil => cases hbefore
  | cons first rest ih =>
    rw [absorbContainerProcesses]
    rcases List.mem_cons.mp hbefore with rfl | hrest
    · split
      · dsimp only
        have hkept : pid ∈ before.pids.filter (· ∉ container.pids) :=
          List.mem_filter.mpr ⟨hpid, decide_eq_true hfree⟩
        rw [if_neg (List.ne_nil_of_mem hkept)]
        exact ⟨_, List.mem_cons_self, rfl, fun pid => by simp⟩
      · rename_i hnone
        refine ⟨before, List.mem_cons_self, rfl, fun other => ⟨fun hother => ⟨hother, fun hin => hnone ?_⟩, And.left⟩⟩
        exact List.any_eq_true.mpr ⟨other, hother, decide_eq_true hin⟩
    · have hlater : ∀ d : DetectedEngine, d.pids = container.pids →
          ∃ c ∈ (absorbContainerProcesses rest d).1, StrippedOf c before (· ∈ container.pids) := by
        intro d hd
        rw [← hd] at hfree ⊢
        exact ih hrest hfree
      have hcons : ∀ d e : DetectedEngine, d.pids = container.pids →
          ∃ c ∈ e :: (absorbContainerProcesses rest d).1, StrippedOf c before (· ∈ container.pids) := by
        intro d e hd
        obtain ⟨c, hc, hstripped⟩ := hlater d hd
        exact ⟨c, List.mem_cons_of_mem e hc, hstripped⟩
      split
      · dsimp only
        split
        · refine hlater _ ?_
          split <;> rfl
        · exact hcons container _ rfl
      · exact hcons container first rfl

def InContainer (docker : List DetectedEngine) (pid : Nat) : Prop := ∃ d ∈ docker, pid ∈ d.pids

theorem StrippedOf.cons {c middle before container : DetectedEngine} {docker : List DetectedEngine}
    (h : StrippedOf c middle (InContainer docker)) (h' : StrippedOf middle before (· ∈ container.pids)) :
    StrippedOf c before (InContainer (container :: docker)) := by
  obtain ⟨heq, hpids⟩ := h
  obtain ⟨heq', hpids'⟩ := h'
  refine ⟨?_, ?_⟩
  · rw [heq, heq']
  · intro pid
    rw [hpids, hpids']
    simp only [InContainer, List.mem_cons, exists_eq_or_imp]
    rw [and_assoc, not_or]

theorem strippedOf_absorbAll {candidates docker : List DetectedEngine} {c : DetectedEngine}
    (h : c ∈ (absorbAll candidates docker).1) : ∃ before ∈ candidates, StrippedOf c before (InContainer docker) := by
  induction docker generalizing candidates with
  | nil => exact ⟨c, h, rfl, fun pid => by simp [InContainer]⟩
  | cons container rest ih =>
    obtain ⟨middle, hmiddle, hstripped⟩ := ih h
    obtain ⟨before, hbefore, hstripped'⟩ := strippedOf_absorbContainerProcesses hmiddle
    exact ⟨before, hbefore, hstripped.cons hstripped'⟩

theorem exists_strippedOf_absorbAll {candidates docker : List DetectedEngine} {before : DetectedEngine}
    (hbefore : before ∈ candidates) {pid : Nat} (hpid : pid ∈ before.pids) (hfree : ¬InContainer docker pid) :
    ∃ c ∈ (absorbAll candidates docker).1, StrippedOf c before (InContainer docker) := by
  induction docker generalizing candidates before with
  | nil => exact ⟨before, hbefore, rfl, fun pid => by simp [InContainer]⟩
  | cons container rest ih =>
    have hout : pid ∉ container.pids := fun hin => hfree ⟨container, List.mem_cons_self, hin⟩
    have hrest : ¬InContainer rest pid := by
      rintro ⟨d, hd, hin⟩
      exact hfree ⟨d, List.mem_cons_of_mem container hd, hin⟩
    obtain ⟨middle, hmiddle, hstripped⟩ := exists_strippedOf_absorbContainerProcesses hbefore hpid hout
    obtain ⟨c, hc, hstripped'⟩ := ih hmiddle ((hstripped.2 pid).mpr ⟨hpid, hout⟩) hrest
    exact ⟨c, hc, hstripped'.cons hstripped⟩

/-- Absorbing changes the model of a container and nothing else. -/
def SameButModel (d d' : DetectedEngine) : Prop := d' = { d with servedModel := d'.servedModel }

theorem sameButModel_absorbContainerProcesses (candidates : List DetectedEngine) (container : DetectedEngine) :
    SameButModel container (absorbContainerProcesses candidates container).2 := by
  induction candidates generalizing container with
  | nil => rfl
  | cons c rest ih =>
    rw [absorbContainerProcesses]
    split
    · dsimp only
      split
      · have h := ih (if container.servedModel.isNone && decide (c.engineType = container.engineType) then
          { container with servedModel := c.servedModel } else container)
        rw [SameButModel] at h ⊢
        rw [h]
        split <;> rfl
      · exact ih container
    · exact ih container

theorem exists_sameButModel_absorbAll {candidates docker : List DetectedEngine} {d : DetectedEngine} (h : d ∈ docker) :
    ∃ d' ∈ (absorbAll candidates docker).2, SameButModel d d' := by
  induction docker generalizing candidates with
  | nil => cases h
  | cons container rest ih =>
    rcases List.mem_cons.mp h with rfl | hrest
    · exact ⟨_, List.mem_cons_self, sameButModel_absorbContainerProcesses candidates d⟩
    · obtain ⟨d', hd', hsame⟩ := @ih (absorbContainerProcesses candidates container).1 hrest
      exact ⟨d', List.mem_cons_of_mem _ hd', hsame⟩

theorem sameButModel_of_mem_absorbAll {candidates docker : List DetectedEngine} {d' : DetectedEngine}
    (h : d' ∈ (absorbAll candidates docker).2) : ∃ d ∈ docker, SameButModel d d' := by
  induction docker generalizing candidates with
  | nil => cases h
  | cons container rest ih =>
    rcases List.mem_cons.mp h with rfl | hrest
    · exact ⟨container, List.mem_cons_self, sameButModel_absorbContainerProcesses candidates container⟩
    · obtain ⟨d, hd, hsame⟩ := ih hrest
      exact ⟨d, List.mem_cons_of_mem container hd, hsame⟩

end Absorbing

section Provenance

/-- Where what an engine is made of comes from, among the findings of the two scans. -/
structure Sound (host containers : List DetectedEngine) (e : DetectedEngine) : Prop where
  container : ∀ id, e.containerId = some id → e.deploymentMode = .docker ∧
    ∃ d ∈ containers, d.containerId = some id ∧ d.engineType = e.engineType ∧ ∀ pid ∈ d.pids, pid ∈ e.pids
  docker : e.deploymentMode = .docker → ∃ d ∈ containers, d.engineType = e.engineType
  native : e.deploymentMode = .native →
    (∃ h ∈ host, h.engineType = e.engineType) ∧ ∀ pid ∈ e.pids, ¬InContainer containers pid
  pids : ∀ pid ∈ e.pids, (∃ d ∈ containers, d.engineType = e.engineType ∧ pid ∈ d.pids) ∨
    ∃ h ∈ host, h.engineType = e.engineType ∧ pid ∈ h.pids

variable {host containers : List DetectedEngine}

theorem SameButModel.covers {d d' : DetectedEngine} (h : SameButModel d d') : Covers d' d := by
  rw [h]
  exact ⟨rfl, fun _ h => h, fun _ h => h, fun h => h⟩

/-- The ID a fold carries is one of its two parts'. -/
theorem containerId_fold {P : DetectedEngine → Prop} {a b : DetectedEngine} {id : String}
    (ha : a.containerId = some id → P a) (hb : b.containerId = some id → P b)
    (hleft : P a → P (a.fold b)) (hright : P b → P (a.fold b)) (h : (a.fold b).containerId = some id) :
    P (a.fold b) := by
  simp only [DetectedEngine.fold] at h
  split at h
  · exact hright (hb h)
  · exact hleft (ha h)

/-- The container a merged candidate is tied to is one that it covers. -/
theorem container_of_merged (hhost : ∀ h ∈ host, h.containerId = none) :
    ∀ m ∈ mergeDockerCandidates host containers, ∀ id, m.containerId = some id →
      ∃ d ∈ containers, d.containerId = some id ∧ Covers m d := by
  refine forall_mem_foldl_joinOnEndpoint ?_ ?_ ?_
  · intro a b ha hb hkey id
    refine @containerId_fold (fun m => ∃ d ∈ containers, d.containerId = some id ∧ Covers m d) a b id
      (ha id) (hb id) ?_ ?_
    · rintro ⟨d, hd, hid, hcovers⟩
      exact ⟨d, hd, hid, (covers_fold_left hkey).trans hcovers⟩
    · rintro ⟨d, hd, hid, hcovers⟩
      exact ⟨d, hd, hid, (covers_fold_right hkey).trans hcovers⟩
  · intro c hc id hid
    obtain ⟨before, hbefore, heq, -⟩ := strippedOf_absorbAll hc
    have hcid : c.containerId = before.containerId := by rw [heq]
    cases hid.symm.trans (hcid.trans (hhost before hbefore))
  · intro d' hd' id hid
    obtain ⟨d, hd, hsame⟩ := sameButModel_of_mem_absorbAll hd'
    have hdid : d'.containerId = d.containerId := by rw [hsame]
    exact ⟨d, hd, hdid.symm.trans hid, hsame.covers⟩

theorem docker_or_docker_of_fold {a b : DetectedEngine} (h : (a.fold b).deploymentMode = .docker) :
    a.deploymentMode = .docker ∨ b.deploymentMode = .docker := by
  simp only [DetectedEngine.fold, isDocker, decide_eq_true_eq] at h
  split at h
  · exact .inr ‹_›
  · exact .inl h

theorem native_of_fold {a b : DetectedEngine} (h : (a.fold b).deploymentMode = .native) :
    a.deploymentMode = .native ∧ b.deploymentMode = .native := by
  simp only [DetectedEngine.fold, isDocker, decide_eq_true_eq] at h
  split at h
  · cases h
  · rename_i hb
    refine ⟨h, ?_⟩
    cases hmode : b.deploymentMode with
    | docker => exact absurd hmode hb
    | native => rfl

theorem Sound.fold {a b : DetectedEngine} (ha : Sound host containers a) (hb : Sound host containers b)
    (hkey : a.key = b.key) : Sound host containers (a.fold b) where
  container := by
    intro id hid
    have htype : b.engineType = (a.fold b).engineType := (Prod.mk.inj hkey).1.symm
    simp only [DetectedEngine.fold] at hid
    split at hid
    · obtain ⟨hmode, d, hd, hdid, hdtype, hpids⟩ := hb.container id hid
      exact ⟨fold_docker (.inr hmode), d, hd, hdid, hdtype.trans htype,
        fun pid hpid => mem_fold_pids.mpr (.inr (hpids pid hpid))⟩
    · obtain ⟨hmode, d, hd, hdid, hdtype, hpids⟩ := ha.container id hid
      exact ⟨fold_docker (.inl hmode), d, hd, hdid, hdtype,
        fun pid hpid => mem_fold_pids.mpr (.inl (hpids pid hpid))⟩
  docker := by
    intro hmode
    rcases docker_or_docker_of_fold hmode with hmode | hmode
    · exact ha.docker hmode
    · obtain ⟨d, hd, htype⟩ := hb.docker hmode
      exact ⟨d, hd, htype.trans (Prod.mk.inj hkey).1.symm⟩
  native := by
    intro hmode
    obtain ⟨hamode, hbmode⟩ := native_of_fold hmode
    refine ⟨(ha.native hamode).1, ?_⟩
    intro pid hpid
    rcases mem_fold_pids.mp hpid with hpid | hpid
    · exact (ha.native hamode).2 pid hpid
    · exact (hb.native hbmode).2 pid hpid
  pids := by
    intro pid hpid
    rcases mem_fold_pids.mp hpid with hpid | hpid
    · exact ha.pids pid hpid
    · have hpids := hb.pids pid hpid
      rwa [← (Prod.mk.inj hkey).1] at hpids

theorem Sound.moved {c : DetectedEngine} (h : Sound host containers c) (endpoint : String) :
    Sound host containers (moved c endpoint) :=
  ⟨h.container, h.docker, h.native, h.pids⟩

theorem sound_stripped {c before : DetectedEngine} (hmem : before ∈ host) (hmode : before.deploymentMode = .native)
    (hid : before.containerId = none) (h : StrippedOf c before (InContainer containers)) : Sound host containers c := by
  obtain ⟨heq, hpids⟩ := h
  have hcmode : c.deploymentMode = before.deploymentMode := by rw [heq]
  have hctype : before.engineType = c.engineType := by rw [heq]
  have hcid : c.containerId = before.containerId := by rw [heq]
  refine ⟨?_, ?_, ?_, ?_⟩
  · intro id hid'
    cases hid'.symm.trans (hcid.trans hid)
  · intro hdocker
    cases hdocker.symm.trans (hcmode.trans hmode)
  · exact fun _ => ⟨⟨before, hmem, hctype⟩, fun pid hpid => ((hpids pid).mp hpid).2⟩
  · exact fun pid hpid => .inr ⟨before, hmem, hctype, ((hpids pid).mp hpid).1⟩

theorem sound_container {d d' : DetectedEngine} (hmem : d ∈ containers) (hmode : d.deploymentMode = .docker)
    (h : SameButModel d d') : Sound host containers d' := by
  have hd'mode : d'.deploymentMode = .docker := by rw [h, ← hmode]
  have htype : d.engineType = d'.engineType := by rw [h]
  have hpids : d'.pids = d.pids := by rw [h]
  have hid : d'.containerId = d.containerId := by rw [h]
  refine ⟨?_, ?_, ?_, ?_⟩
  · intro id hid'
    exact ⟨hd'mode, d, hmem, hid.symm.trans hid', htype, fun pid hpid => hpids ▸ hpid⟩
  · exact fun _ => ⟨d, hmem, htype⟩
  · intro hnative
    cases hnative.symm.trans hd'mode
  · exact fun pid hpid => .inl ⟨d, hmem, htype, hpids ▸ hpid⟩

theorem sound_mergeDockerCandidates (hhost : ∀ h ∈ host, h.deploymentMode = .native ∧ h.containerId = none)
    (hdocker : ∀ d ∈ containers, d.deploymentMode = .docker) :
    ∀ c ∈ mergeDockerCandidates host containers, Sound host containers c := by
  refine forall_mem_foldl_joinOnEndpoint (fun _ _ => Sound.fold) ?_ ?_
  · intro c hc
    obtain ⟨before, hbefore, hstripped⟩ := strippedOf_absorbAll hc
    exact sound_stripped hbefore (hhost before hbefore).1 (hhost before hbefore).2 hstripped
  · intro d' hd'
    obtain ⟨d, hd, hsame⟩ := sameButModel_of_mem_absorbAll hd'
    exact sound_container hd (hdocker d hd) hsame

end Provenance

section HostScan

variable {table : ProcessTable} {environ : Nat → Except ε (List UInt8)}

theorem perm_sorted (table : ProcessTable) : (table.rows.insertionSort byPid).Perm table.rows :=
  perm_sortByKey HostProcess.pid table.rows

/-- Sorting makes up for the order in which the table is listed. -/
theorem sorted_eq_of_perm {other : ProcessTable} (h : other.rows.Perm table.rows) :
    other.rows.insertionSort byPid = table.rows.insertionSort byPid :=
  sortByKey_eq_of_perm HostProcess.pid h other.distinct

theorem parentOf_sorted : ParentOf (table.rows.insertionSort byPid) = ParentOf table.rows := by
  funext parent child
  simp only [ParentOf, (perm_sorted table).mem_iff]

theorem descendsFromServer_sorted {pid : Nat} :
    DescendsFromServer (table.rows.insertionSort byPid) pid ↔ DescendsFromServer table.rows pid := by
  simp only [DescendsFromServer, (perm_sorted table).mem_iff, parentOf_sorted]

/-- The process is started, directly or not, by one that is itself no server's and launches the engine. -/
def StartedBy (table : ProcessTable) (engineType : EngineType) (pid : Nat) : Prop :=
  ∃ process ∈ table.rows, engineOfProcess process.cmd = some engineType ∧
    ¬DescendsFromServer table.rows process.pid ∧ Relation.ReflTransGen (ParentOf table.rows) process.pid pid

theorem native_addRoot {engineType : EngineType} {server : LaunchedServer} {pid : Nat} {detected : List DetectedEngine}
    (h : ∀ c ∈ detected, c.deploymentMode = .native ∧ c.containerId = none) :
    ∀ c ∈ addRoot engineType server pid detected, c.deploymentMode = .native ∧ c.containerId = none := by
  induction detected with
  | nil =>
    intro c hc
    obtain rfl := List.mem_singleton.mp hc
    exact ⟨rfl, rfl⟩
  | cons existing rest ih =>
    have hexisting := h existing List.mem_cons_self
    have hrest := fun c hc => h c (List.mem_cons_of_mem existing hc)
    intro c hc
    rw [addRoot] at hc
    split at hc
    · rcases List.mem_cons.mp hc with rfl | hmem
      · exact hexisting
      · exact hrest c hmem
    · rcases List.mem_cons.mp hc with rfl | hmem
      · exact hexisting
      · exact ih hrest c hmem

theorem native_of_mem_detectByProcess {c : DetectedEngine} (h : c ∈ detectByProcess table environ) :
    c.deploymentMode = .native ∧ c.containerId = none := by
  have hroots : ∀ (processes : List HostProcess) (owned : List Nat) (detected : List DetectedEngine),
      (∀ c ∈ detected, c.deploymentMode = .native ∧ c.containerId = none) →
      ∀ c ∈ processes.foldl (scanProcess (processEnvVar environ) owned) detected,
        c.deploymentMode = .native ∧ c.containerId = none := by
    intro processes owned
    induction processes with
    | nil => exact fun _ h => h
    | cons process rest ih =>
      intro detected hdetected
      refine ih _ ?_
      rcases scanProcess_cases (processEnvVar environ) owned detected process with
        ⟨hsame, -⟩ | ⟨engineType, server, hadd, -, -⟩
      · rw [hsame]
        exact hdetected
      · rw [hadd]
        exact native_addRoot hdetected
  obtain ⟨rooted, hrooted, rfl⟩ := List.mem_map.mp h
  exact hroots _ _ [] (fun c hc => absurd hc List.not_mem_nil) rooted hrooted

theorem startedBy_of_mem_pids {c : DetectedEngine} (h : c ∈ detectByProcess table environ) {pid : Nat}
    (hpid : pid ∈ c.pids) : StartedBy table c.engineType pid := by
  obtain ⟨rooted, hrooted, rfl⟩ := List.mem_map.mp h
  obtain ⟨root, hroot, hpath⟩ := mem_expandPidTree.mp hpid
  obtain ⟨process, hprocess, rfl, hfree, engineType, server, hengine, -, hkey⟩ :=
    rootAt_rootedCandidates.mp ⟨rooted, hrooted, rfl, hroot⟩
  rw [parentOf_sorted] at hpath
  refine ⟨process, (perm_sorted table).mem_iff.mp hprocess, ?_, descendsFromServer_sorted.not.mp hfree, hpath⟩
  rw [hengine]
  exact congrArg some (Prod.mk.inj hkey).1.symm

end HostScan

section Sweep

variable {toLowercase : Text → Text} {table : ProcessTable} {environ : Nat → Except ε (List UInt8)}
  {listed : Option (List Container)} {probe : EngineType → String → Bool}

theorem mem_detectDockerEngines {d : DetectedEngine} :
    d ∈ detectDockerEngines toLowercase listed ↔
      ∃ container ∈ listed.getD [], container.candidate toLowercase = some d := List.mem_filterMap

theorem engine_of_candidate {container : Container} {d : DetectedEngine}
    (h : container.candidate toLowercase = some d) :
    d.deploymentMode = .docker ∧ d.containerId = container.id ∧ d.pids = container.pids := by
  obtain ⟨cls, server, -, -, -, rfl⟩ := Container.candidate_eq_some_iff.mp h
  exact ⟨rfl, rfl, rfl⟩

/-- A container in which the scan found an engine of the type. -/
def FoundIn (toLowercase : Text → Text) (listed : Option (List Container)) (engineType : EngineType)
    (container : Container) : Prop :=
  container ∈ listed.getD [] ∧ ∃ d, container.candidate toLowercase = some d ∧ d.engineType = engineType

theorem exists_foundIn {d : DetectedEngine} {engineType : EngineType} (h : d ∈ detectDockerEngines toLowercase listed)
    (htype : d.engineType = engineType) :
    ∃ container, FoundIn toLowercase listed engineType container ∧ container.id = d.containerId ∧
      container.pids = d.pids := by
  obtain ⟨container, hmem, hcandidate⟩ := mem_detectDockerEngines.mp h
  obtain ⟨-, hid, hpids⟩ := engine_of_candidate hcandidate
  exact ⟨container, ⟨hmem, d, hcandidate, htype⟩, hid.symm, hpids.symm⟩

theorem docker_of_mem_detectDockerEngines {d : DetectedEngine} (h : d ∈ detectDockerEngines toLowercase listed) :
    d.deploymentMode = .docker := by
  obtain ⟨container, -, hcandidate⟩ := mem_detectDockerEngines.mp h
  exact (engine_of_candidate hcandidate).1

theorem sound_sweep :
    ∀ e ∈ sweep toLowercase table environ listed probe,
      Sound (detectByProcess table environ) (detectDockerEngines toLowercase listed) e := by
  have hmerged := @sound_mergeDockerCandidates (detectByProcess table environ) (detectDockerEngines toLowercase listed)
    (fun _ => native_of_mem_detectByProcess) (fun _ => docker_of_mem_detectDockerEngines)
  exact forall_mem_verifyCandidates (fun _ _ => Sound.fold) fun c hc endpoint _ => (hmerged c hc).moved endpoint

theorem answered_sweep :
    ∀ e ∈ sweep toLowercase table environ listed probe,
      probe e.engineType e.endpoint = true ∧ e.fallbackEndpoints = [] := by
  refine forall_mem_verifyCandidates ?_ ?_
  · intro a b ha hb _
    refine ⟨ha.1, ?_⟩
    rw [DetectedEngine.fold, hb.2]
    exact ha.2
  · rintro c - endpoint ⟨refusing, untried, -, hprobe, -⟩
    exact ⟨hprobe, rfl⟩

theorem distinctKeys_sweep : DistinctKeys (sweep toLowercase table environ listed probe) :=
  (verified_verifyCandidates probe _).distinct

/-- The candidates of both scans as they are probed. -/
def mergedCandidates (toLowercase : Text → Text) (table : ProcessTable) (environ : Nat → Except ε (List UInt8))
    (listed : Option (List Container)) : List DetectedEngine :=
  mergeDockerCandidates (detectByProcess table environ) (detectDockerEngines toLowercase listed)

theorem reached_container {e : DetectedEngine} (he : e ∈ sweep toLowercase table environ listed probe) {id : String}
    (hid : e.containerId = some id) :
    ∃ d ∈ detectDockerEngines toLowercase listed, d.containerId = some id ∧
      Reached probe (mergedCandidates toLowercase table environ listed) d e := by
  have hmerged := @container_of_merged (detectByProcess table environ) (detectDockerEngines toLowercase listed)
    fun _ h => (native_of_mem_detectByProcess h).2
  have hswept : ∀ e ∈ sweep toLowercase table environ listed probe, ∀ id, e.containerId = some id →
      ∃ d ∈ detectDockerEngines toLowercase listed, d.containerId = some id ∧
        Reached probe (mergedCandidates toLowercase table environ listed) d e := by
    refine forall_mem_verifyCandidates ?_ ?_
    · intro a b ha hb hkey id
      refine @containerId_fold (fun e => ∃ d ∈ detectDockerEngines toLowercase listed, d.containerId = some id ∧
        Reached probe (mergedCandidates toLowercase table environ listed) d e) a b id (ha id) (hb id) ?_ ?_
      · rintro ⟨d, hd, hdid, hreached⟩
        exact ⟨d, hd, hdid, hreached.of_covers (covers_fold_left hkey)⟩
      · rintro ⟨d, hd, hdid, hreached⟩
        exact ⟨d, hd, hdid, hreached.of_covers (covers_fold_right hkey)⟩
    · intro m hm endpoint hanswers id hid
      obtain ⟨d, hd, hdid, hcovers⟩ := hmerged m hm id hid
      exact ⟨d, hd, hdid, reached_of_joined hm hcovers hanswers (.refl _)⟩
  exact hswept e he id hid

/-- The container an engine is tied to: the engine was reached from it. -/
theorem container_of_swept {e : DetectedEngine} (he : e ∈ sweep toLowercase table environ listed probe) {id : String}
    (hid : e.containerId = some id) :
    e.deploymentMode = .docker ∧ ∃ container, FoundIn toLowercase listed e.engineType container ∧
      container.id = some id ∧ container.Evidence toLowercase e.engineType ∧ (∀ pid ∈ container.pids, pid ∈ e.pids) ∧
      ∃ d, container.candidate toLowercase = some d ∧
        Reached probe (mergedCandidates toLowercase table environ listed) d e := by
  obtain ⟨d, hd, hdid, hreached⟩ := reached_container he hid
  obtain ⟨container, hmem, hcandidate⟩ := mem_detectDockerEngines.mp hd
  obtain ⟨hmode, hcid, hpids⟩ := engine_of_candidate hcandidate
  refine ⟨hreached.docker hmode, container, ⟨hmem, d, hcandidate, hreached.engineType.symm⟩, hcid.symm.trans hdid, ?_,
    fun pid hpid => hreached.pids (hpids ▸ hpid), d, hcandidate, hreached⟩
  rw [hreached.engineType]
  exact Container.evidence_of_candidate hcandidate

/-- What a sweep returns: servers that answered, one a key; a native one shares no process with a
container and has no container's ID; the container an engine is tied to runs that engine, all its
processes are the engine's and the engine's endpoint was reached from it; and every PID comes from such
a container or from a launch of that engine on the host. -/
theorem swept_engines (toLowercase : Text → Text) (table : ProcessTable) (environ : Nat → Except ε (List UInt8))
    (listed : Option (List Container)) (probe : EngineType → String → Bool) :
    DistinctKeys (sweep toLowercase table environ listed probe) ∧
    ∀ e ∈ sweep toLowercase table environ listed probe,
      (probe e.engineType e.endpoint = true ∧ e.fallbackEndpoints = []) ∧
      (e.deploymentMode = .native → e.containerId = none ∧
        ∀ engineType container, FoundIn toLowercase listed engineType container →
          ∀ pid ∈ container.pids, pid ∉ e.pids) ∧
      (∀ id, e.containerId = some id → ∃ container, FoundIn toLowercase listed e.engineType container ∧
        container.id = some id ∧ container.Evidence toLowercase e.engineType ∧
        (∀ pid ∈ container.pids, pid ∈ e.pids) ∧
        ∃ d, container.candidate toLowercase = some d ∧
          Reached probe (mergedCandidates toLowercase table environ listed) d e) ∧
      ∀ pid ∈ e.pids,
        (∃ container, FoundIn toLowercase listed e.engineType container ∧ pid ∈ container.pids) ∨
          StartedBy table e.engineType pid := by
  refine ⟨distinctKeys_sweep, ?_⟩
  intro e he
  have hsound := sound_sweep e he
  refine ⟨answered_sweep e he, ?_, ?_, ?_⟩
  · intro hnative
    refine ⟨?_, ?_⟩
    · cases hid : e.containerId with
      | none => rfl
      | some id => cases hnative.symm.trans (hsound.container id hid).1
    · rintro engineType container ⟨hmem, d, hcandidate, -⟩ pid hpid hin
      refine (hsound.native hnative).2 pid hin ⟨d, mem_detectDockerEngines.mpr ⟨container, hmem, hcandidate⟩, ?_⟩
      rwa [(engine_of_candidate hcandidate).2.2]
  · exact fun id hid => (container_of_swept he hid).2
  · intro pid hpid
    rcases hsound.pids pid hpid with ⟨d, hd, htype, hin⟩ | ⟨h, hh, htype, hin⟩
    · obtain ⟨container, hfound, -, hcpids⟩ := exists_foundIn hd htype
      exact .inl ⟨container, hfound, hcpids ▸ hin⟩
    · exact .inr (htype ▸ startedBy_of_mem_pids hh hin)

/-- What a sweep overlooks: no container and no host server one of whose endpoints answers. Each is found
at the first endpoint to answer of the candidates merged under its endpoint, which is its own where that
answers, a host server with all its processes that are in no container. Nor does the order in which the
processes are listed matter. -/
theorem sweep_overlooks_nothing (toLowercase : Text → Text) (table : ProcessTable)
    (environ : Nat → Except ε (List UInt8)) (listed : Option (List Container)) (probe : EngineType → String → Bool) :
    (∀ container ∈ listed.getD [], ∀ d, container.candidate toLowercase = some d →
      (∃ endpoint ∈ d.endpoint :: d.fallbackEndpoints, probe d.engineType endpoint = true) →
      ∃ e ∈ sweep toLowercase table environ listed probe, e.engineType = d.engineType ∧
        e.deploymentMode = .docker ∧ (∀ pid ∈ container.pids, pid ∈ e.pids) ∧
        Reached probe (mergedCandidates toLowercase table environ listed) d e) ∧
    (∀ h ∈ detectByProcess table environ,
      (∃ pid ∈ h.pids, ¬InContainer (detectDockerEngines toLowercase listed) pid) →
      (∃ endpoint ∈ h.endpoint :: h.fallbackEndpoints, probe h.engineType endpoint = true) →
      ∃ e ∈ sweep toLowercase table environ listed probe, e.engineType = h.engineType ∧
        (∀ pid ∈ h.pids, ¬InContainer (detectDockerEngines toLowercase listed) pid → pid ∈ e.pids) ∧
        ∃ c, StrippedOf c h (InContainer (detectDockerEngines toLowercase listed)) ∧
          Reached probe (mergedCandidates toLowercase table environ listed) c e) ∧
    ∀ other : ProcessTable, other.rows.Perm table.rows →
      sweep toLowercase other environ listed probe = sweep toLowercase table environ listed probe := by
  refine ⟨?_, ?_, ?_⟩
  · intro container hmem d hcandidate hanswers
    obtain ⟨hmode, -, hpids⟩ := engine_of_candidate hcandidate
    obtain ⟨d', hd', hsame⟩ := @exists_sameButModel_absorbAll (detectByProcess table environ) _ d
      (mem_detectDockerEngines.mpr ⟨container, hmem, hcandidate⟩)
    obtain ⟨m, hm, hcovers⟩ := exists_covers_foldl (.inr hd')
    obtain ⟨e, he, hreached⟩ := exists_reached hm (hcovers.trans hsame.covers) hanswers
    exact ⟨e, he, hreached.engineType, hreached.docker hmode, fun pid hpid => hreached.pids (hpids ▸ hpid), hreached⟩
  · rintro h hh ⟨pid, hpid, hfree⟩ hanswers
    obtain ⟨c, hc, hstripped⟩ := exists_strippedOf_absorbAll hh hpid hfree
    obtain ⟨m, hm, hcovers⟩ := exists_covers_foldl (.inl hc)
    have htype : c.engineType = h.engineType := by rw [hstripped.1]
    have hendpoints : c.endpoint :: c.fallbackEndpoints = h.endpoint :: h.fallbackEndpoints := by rw [hstripped.1]
    rw [← hendpoints, ← htype] at hanswers
    obtain ⟨e, he, hreached⟩ := exists_reached hm hcovers hanswers
    refine ⟨e, he, hreached.engineType.trans htype, ?_, c, hstripped, hreached⟩
    exact fun pid hpid hfree => hreached.pids ((hstripped.2 pid).mpr ⟨hpid, hfree⟩)
  · intro other hperm
    rw [sweep, detectByProcess, sorted_eq_of_perm hperm]
    rfl

end Sweep

end SparkDashboard.Engines
