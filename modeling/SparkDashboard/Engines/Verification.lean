import SparkDashboard.Engines.Detector

/-!
# What verification returns

Each candidate is moved to the first of its endpoints that answers, where it joins
whoever was moved there before it.
-/

namespace SparkDashboard.Engines

open DetectedEngine

/-- Of the candidate's endpoints, in order, this is the first that answers. -/
def AnswersFirstAt (probe : EngineType → String → Bool) (c : DetectedEngine) (endpoint : String) : Prop :=
  ∃ refusing untried, c.endpoint :: c.fallbackEndpoints = refusing ++ endpoint :: untried ∧
    probe c.engineType endpoint = true ∧ ∀ e ∈ refusing, probe c.engineType e = false

theorem answeringEndpoint_eq_some_iff {probe : EngineType → String → Bool} {c : DetectedEngine}
    {endpoint : String} : answeringEndpoint probe c = some endpoint ↔ AnswersFirstAt probe c endpoint := by
  rw [answeringEndpoint, List.find?_eq_some_iff_append, AnswersFirstAt]
  constructor
  · rintro ⟨hprobe, refusing, untried, hsplit, hrefusing⟩
    exact ⟨refusing, untried, hsplit, hprobe, fun e he => by simpa using hrefusing e he⟩
  · rintro ⟨refusing, untried, hsplit, hprobe, hrefusing⟩
    exact ⟨hprobe, refusing, untried, hsplit, fun e he => by simpa using hrefusing e he⟩

theorem exists_answersFirstAt {probe : EngineType → String → Bool} {c : DetectedEngine} {endpoint : String}
    (hmem : endpoint ∈ c.endpoint :: c.fallbackEndpoints) (hprobe : probe c.engineType endpoint = true) :
    ∃ first, AnswersFirstAt probe c first := by
  cases hfind : answeringEndpoint probe c with
  | some first => exact ⟨first, answeringEndpoint_eq_some_iff.mp hfind⟩
  | none => exact absurd hprobe (List.find?_eq_none.mp hfind endpoint hmem)

/-- The candidate belongs to the server found under this key. -/
def BelongsTo (probe : EngineType → String → Bool) (k : EngineKey) (c : DetectedEngine) : Prop :=
  c.engineType = k.1 ∧ AnswersFirstAt probe c k.2

/-- What is verified once the `seen` candidates have been probed. -/
structure Verified (probe : EngineType → String → Bool) (seen verified : List DetectedEngine) : Prop where
  distinct : DistinctKeys verified
  complete : ∀ c ∈ seen, ∀ k, BelongsTo probe k c → ∃ e ∈ verified, e.key = k ∧ ∀ pid ∈ c.pids, pid ∈ e.pids
  sound : ∀ e ∈ verified, ∃ c ∈ seen, BelongsTo probe e.key c
  pids : ∀ e ∈ verified, ∀ pid ∈ e.pids, ∃ c ∈ seen, BelongsTo probe e.key c ∧ pid ∈ c.pids

theorem Verified.nil (probe : EngineType → String → Bool) : Verified probe [] [] where
  distinct := List.nodup_nil
  complete := by simp
  sound := by simp
  pids := by simp

theorem Verified.unreachable {probe : EngineType → String → Bool} {seen verified : List DetectedEngine}
    (h : Verified probe seen verified) {c : DetectedEngine} (hnone : answeringEndpoint probe c = none) :
    Verified probe (seen ++ [c]) verified where
  distinct := h.distinct
  complete := by
    intro c' hc' k hbelongs
    rcases List.mem_append.mp hc' with hseen | hlast
    · exact h.complete c' hseen k hbelongs
    · obtain rfl := List.mem_singleton.mp hlast
      cases hnone.symm.trans (answeringEndpoint_eq_some_iff.mpr hbelongs.2)
  sound := by
    intro e he
    obtain ⟨c', hc', hbelongs⟩ := h.sound e he
    exact ⟨c', List.mem_append_left [c] hc', hbelongs⟩
  pids := by
    intro e he pid hpid
    obtain ⟨c', hc', hbelongs⟩ := h.pids e he pid hpid
    exact ⟨c', List.mem_append_left [c] hc', hbelongs⟩

theorem Verified.join {probe : EngineType → String → Bool} {seen verified : List DetectedEngine}
    (h : Verified probe seen verified) {c moved : DetectedEngine} (hbelongs : BelongsTo probe moved.key c)
    (hpids : moved.pids = c.pids) : Verified probe (seen ++ [c]) (joinOnEndpoint verified moved) where
  distinct := distinctKeys_joinOnEndpoint h.distinct moved
  complete := by
    intro c' hc' k hbelongs'
    rcases List.mem_append.mp hc' with hseen | hlast
    · obtain ⟨e, he, hkey, hsub⟩ := h.complete c' hseen k hbelongs'
      rcases mem_joinOnEndpoint_of_mem he with hmem | ⟨-, hmem⟩
      · exact ⟨e, hmem, hkey, hsub⟩
      · exact ⟨_, hmem, hkey, fun pid hpid => mem_fold_pids.mpr (.inl (hsub pid hpid))⟩
    · obtain rfl := List.mem_singleton.mp hlast
      have hk : moved.key = k := by
        have hfirst := answeringEndpoint_eq_some_iff.mpr hbelongs.2
        rw [answeringEndpoint_eq_some_iff.mpr hbelongs'.2] at hfirst
        exact Prod.ext (hbelongs.1.symm.trans hbelongs'.1) (Option.some.inj hfirst).symm
      rw [← hpids, ← hk]
      obtain ⟨e, he, rfl | ⟨existing, -, hkey, rfl⟩⟩ := exists_mem_joinOnEndpoint verified moved
      · exact ⟨e, he, rfl, fun _ hpid => hpid⟩
      · exact ⟨_, he, hkey, fun _ hpid => mem_fold_pids.mpr (.inr hpid)⟩
  sound := by
    intro e he
    rcases mem_joinOnEndpoint he with hmem | rfl | ⟨existing, hexisting, -, rfl⟩
    · obtain ⟨c', hc', hc'belongs⟩ := h.sound e hmem
      exact ⟨c', List.mem_append_left [c] hc', hc'belongs⟩
    · exact ⟨c, List.mem_append_right seen List.mem_cons_self, hbelongs⟩
    · obtain ⟨c', hc', hc'belongs⟩ := h.sound existing hexisting
      exact ⟨c', List.mem_append_left [c] hc', hc'belongs⟩
  pids := by
    have hearlier : ∀ e ∈ verified, ∀ pid ∈ e.pids,
        ∃ c' ∈ seen ++ [c], BelongsTo probe e.key c' ∧ pid ∈ c'.pids := by
      intro e he pid hpid
      obtain ⟨c', hc', hc'belongs⟩ := h.pids e he pid hpid
      exact ⟨c', List.mem_append_left [c] hc', hc'belongs⟩
    have hlast : ∀ pid ∈ moved.pids, ∃ c' ∈ seen ++ [c], BelongsTo probe moved.key c' ∧ pid ∈ c'.pids :=
      fun pid hpid => ⟨c, List.mem_append_right seen List.mem_cons_self, hbelongs, hpids ▸ hpid⟩
    intro e he pid hpid
    rcases mem_joinOnEndpoint he with hmem | rfl | ⟨existing, hexisting, hkey, rfl⟩
    · exact hearlier e hmem pid hpid
    · exact hlast pid hpid
    · rw [fold_key]
      rcases mem_fold_pids.mp hpid with hpid | hpid
      · exact hearlier existing hexisting pid hpid
      · rw [hkey]
        exact hlast pid hpid

theorem verifyCandidates_append (probe : EngineType → String → Bool) (seen : List DetectedEngine)
    (c : DetectedEngine) : verifyCandidates probe (seen ++ [c]) =
      match answeringEndpoint probe c with
      | some endpoint =>
        joinOnEndpoint (verifyCandidates probe seen) { c with endpoint, fallbackEndpoints := [] }
      | none => verifyCandidates probe seen := by
  rw [verifyCandidates, List.foldl_append]
  rfl

theorem verified_verifyCandidates (probe : EngineType → String → Bool) (candidates : List DetectedEngine) :
    Verified probe candidates (verifyCandidates probe candidates) := by
  induction candidates using List.reverseRecOn with
  | nil => exact Verified.nil probe
  | append_singleton seen c ih =>
    rw [verifyCandidates_append]
    cases hanswer : answeringEndpoint probe c with
    | none => exact ih.unreachable hanswer
    | some endpoint => exact ih.join ⟨rfl, answeringEndpoint_eq_some_iff.mp hanswer⟩ rfl

/-- One engine a server, for every candidate with an endpoint that answers, with the PIDs of
those candidates and no others. -/
theorem verifyCandidates_complete_and_distinct (probe : EngineType → String → Bool)
    (candidates : List DetectedEngine) :
    DistinctKeys (verifyCandidates probe candidates) ∧
    (∀ c ∈ candidates, (∃ endpoint ∈ c.endpoint :: c.fallbackEndpoints, probe c.engineType endpoint = true) →
      ∃ first, AnswersFirstAt probe c first ∧ ∃ e ∈ verifyCandidates probe candidates,
        e.engineType = c.engineType ∧ e.endpoint = first ∧ ∀ pid ∈ c.pids, pid ∈ e.pids) ∧
    ∀ e ∈ verifyCandidates probe candidates,
      (∃ c ∈ candidates, c.engineType = e.engineType ∧ AnswersFirstAt probe c e.endpoint) ∧
      ∀ pid ∈ e.pids, ∃ c ∈ candidates,
        c.engineType = e.engineType ∧ AnswersFirstAt probe c e.endpoint ∧ pid ∈ c.pids := by
  have h := verified_verifyCandidates probe candidates
  refine ⟨h.distinct, ?_, ?_⟩
  · rintro c hc ⟨endpoint, hmem, hprobe⟩
    obtain ⟨first, hfirst⟩ := exists_answersFirstAt hmem hprobe
    obtain ⟨e, he, hkey, hpids⟩ := h.complete c hc (c.engineType, first) ⟨rfl, hfirst⟩
    obtain ⟨htype, hendpoint⟩ := Prod.mk.inj hkey
    exact ⟨first, hfirst, e, he, htype, hendpoint, hpids⟩
  · intro e he
    refine ⟨h.sound e he, ?_⟩
    intro pid hpid
    obtain ⟨c, hc, hbelongs, hpids⟩ := h.pids e he pid hpid
    exact ⟨c, hc, hbelongs.1, hbelongs.2, hpids⟩

end SparkDashboard.Engines
