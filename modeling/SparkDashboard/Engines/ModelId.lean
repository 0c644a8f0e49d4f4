import Mathlib.Data.List.DropRight
import SparkDashboard.Library.Chars

/-!
# Model ids that are paths

An engine started on a local directory names its model by the path. A path into the hub cache
is read back as the repository id; a trailing commit hash is dropped.
-/

namespace SparkDashboard.Engines

open SparkDashboard.Library Chars

def modelsPrefix : Text := "models--".toList

def dashes : Text := "--".toList

def snapshots : Text := "snapshots".toList

/-- The org and the name of a hub-cache segment. -/
def hubRepo (segment : Text) : Option (Text × Text) :=
  ((segment.dropPrefix? modelsPrefix).bind (splitOnce dashes)).filter fun repo => repo.1 ≠ [] ∧ repo.2 ≠ []

def isHexDigit (c : Char) : Bool := c.isDigit || ('a' ≤ c && c ≤ 'f') || ('A' ≤ c && c ≤ 'F')

def isCommitHash (last : Text) : Bool := decide (last.length = 40) && last.all isHexDigit

/-- What is above a trailing `snapshots/<commit-hash>`. -/
def snapshotDirectory (id : Text) : Option Text := do
  let (parent, last) ← rsplitOnce '/' (id.rdropWhile (· = '/'))
  if isCommitHash last then
    let (grandparent, directory) ← rsplitOnce '/' parent
    if directory = snapshots ∧ trimMatches (· = '/') grandparent ≠ [] then some grandparent else none
  else none

def normalizeModelId (id : Text) : Text :=
  if '/' ∉ id then id
  else
    match (id.splitOn '/').findSome? hubRepo with
    | some (org, name) => org ++ '/' :: name
    | none => (snapshotDirectory id).getD id

/-- `models--{org}--{name}`. -/
def hubSegment (org name : Text) : Text := modelsPrefix ++ (org ++ (dashes ++ name))

/-- An org and a name that the segment of them gives back. -/
structure HubRepo (org name : Text) : Prop where
  org_ne : org ≠ []
  name_ne : name ≠ []
  no_dashes : ¬dashes <:+: org
  no_last_dash : org.getLast? ≠ some '-'

/-- A `snapshots/<commit-hash>` at the end of the path, below some directory. -/
def EndsInSnapshot (id : Text) : Prop :=
  ∃ directory hash slashes, id = directory ++ '/' :: (snapshots ++ '/' :: (hash ++ slashes)) ∧
    isCommitHash hash = true ∧ (∀ c ∈ slashes, c = '/') ∧ ∃ c ∈ directory, c ≠ '/'

/-- The ids of repositories: a name alone, or one under an org. Neither has two dashes in a row. -/
inductive IsRepositoryId : Text → Prop where
  | bare {name : Text} (h : '/' ∉ name) : IsRepositoryId name
  | under {org name : Text} (horg : '/' ∉ org) (hname : '/' ∉ name) (hdashes : ¬dashes <:+: org)
      (hdashes' : ¬dashes <:+: name) : IsRepositoryId (org ++ '/' :: name)

theorem dashes_prefix_iff {text : Text} : dashes <+: text ↔ ∃ rest, text = '-' :: '-' :: rest := by
  constructor
  · rintro ⟨rest, rfl⟩
    exact ⟨rest, rfl⟩
  · rintro ⟨rest, rfl⟩
    exact ⟨rest, rfl⟩

/-- Two dashes begin before the separator only in the org, or where a dash ends it. -/
theorem no_dashes_before_iff {org name : Text} :
    (∀ i < org.length, ¬dashes <+: (org ++ (dashes ++ name)).drop i) ↔
      ¬dashes <:+: org ∧ org.getLast? ≠ some '-' := by
  constructor
  · intro h
    constructor
    · rintro ⟨before, after, rfl⟩
      refine h before.length ?_ ?_
      · rw [List.append_assoc, List.length_append, List.length_append]
        have hlength : dashes.length = 2 := rfl
        omega
      · rw [List.append_assoc, List.append_assoc, List.drop_left]
        exact List.prefix_append dashes _
    · intro hlast
      obtain ⟨before, rfl⟩ := List.getLast?_eq_some_iff.mp hlast
      refine h before.length (by simp) ?_
      rw [List.append_assoc, List.drop_left]
      exact ⟨'-' :: name, rfl⟩
  · rintro ⟨hinside, hlast⟩ i hi hprefix
    obtain ⟨rest, hrest⟩ := dashes_prefix_iff.mp hprefix
    have hsplit : org = org.take i ++ org.drop i := (List.take_append_drop i org).symm
    rw [List.drop_append_of_le_length hi.le] at hrest
    cases hdrop : org.drop i with
    | nil =>
      have hle := List.drop_eq_nil_iff.mp hdrop
      omega
    | cons c after =>
      rw [hdrop, List.cons_append] at hrest
      obtain ⟨rfl, htail⟩ := List.cons.inj hrest
      cases after with
      | nil =>
        apply hlast
        rw [hsplit, hdrop, List.getLast?_append, List.getLast?_singleton]
        rfl
      | cons d after =>
        obtain ⟨rfl, _⟩ := List.cons.inj htail
        refine hinside ⟨org.take i, after, ?_⟩
        rw [List.append_assoc]
        exact (hdrop ▸ hsplit).symm

theorem hubRepo_eq_some_iff {segment org name : Text} :
    hubRepo segment = some (org, name) ↔ segment = hubSegment org name ∧ HubRepo org name := by
  have hdashes : dashes ≠ [] := by decide
  rw [hubRepo, Option.filter_eq_some_iff, Option.bind_eq_some_iff, decide_eq_true_iff]
  constructor
  · rintro ⟨⟨repo, hprefix, hsplit⟩, horg, hname⟩
    obtain ⟨hrepo, hfirst⟩ := (splitOnce_eq_some_iff hdashes).mp hsplit
    rw [hrepo] at hfirst
    obtain ⟨hinside, hlast⟩ := no_dashes_before_iff.mp hfirst
    refine ⟨?_, horg, hname, hinside, hlast⟩
    rw [dropPrefix?_eq_some.mp hprefix, hrepo, hubSegment]
  · rintro ⟨rfl, h⟩
    refine ⟨⟨org ++ (dashes ++ name), dropPrefix?_eq_some.mpr rfl, ?_⟩, h.org_ne, h.name_ne⟩
    exact (splitOnce_eq_some_iff hdashes).mpr ⟨rfl, no_dashes_before_iff.mpr ⟨h.no_dashes, h.no_last_dash⟩⟩

theorem findSome?_hubRepo_eq_none {segments : List Text}
    (h : ∀ segment ∈ segments, ∀ org name, segment = hubSegment org name → ¬HubRepo org name) :
    segments.findSome? hubRepo = none := by
  rw [List.findSome?_eq_none_iff]
  intro segment hsegment
  cases hrepo : hubRepo segment with
  | none => rfl
  | some repo =>
    obtain ⟨heq, hhub⟩ := hubRepo_eq_some_iff.mp hrepo
    exact absurd hhub (h segment hsegment _ _ heq)

theorem exists_ne_of_trimMatches {p : Char → Bool} {text : Text} (h : trimMatches p text ≠ []) :
    ∃ c ∈ text, p c = false := by
  by_contra hall
  apply h
  have hdrop : text.dropWhile p = [] := by
    rw [List.dropWhile_eq_nil_iff]
    intro c hc
    cases hp : p c with
    | true => rfl
    | false => exact absurd ⟨c, hc, hp⟩ hall
  rw [trimMatches, hdrop]
  rfl

theorem endsInSnapshot_of_eq_some {id directory : Text} (h : snapshotDirectory id = some directory) :
    EndsInSnapshot id := by
  rw [snapshotDirectory, Option.bind_eq_bind, Option.bind_eq_some_iff] at h
  obtain ⟨⟨parent, hash⟩, hlast, h⟩ := h
  dsimp only at h
  split at h
  · rename_i hcommit
    rw [Option.bind_eq_some_iff] at h
    obtain ⟨⟨grandparent, last⟩, hparent, h⟩ := h
    dsimp only at h
    split at h
    · rename_i hdirectory
      obtain ⟨rfl, htrim⟩ := hdirectory
      obtain ⟨_, htrimmed⟩ := rsplitOnce_eq_some hlast
      obtain ⟨_, rfl⟩ := rsplitOnce_eq_some hparent
      obtain ⟨c, hc, hslash⟩ := exists_ne_of_trimMatches htrim
      refine ⟨grandparent, hash, id.rtakeWhile (· = '/'), ?_, hcommit, ?_, c, hc, of_decide_eq_false hslash⟩
      · have hid : id.rdropWhile (· = '/') ++ id.rtakeWhile (· = '/') = id := List.rdropWhile_append_rtakeWhile
        rw [htrimmed, List.append_assoc, List.cons_append, List.append_assoc, List.cons_append] at hid
        exact hid.symm
      · intro c hc
        have hslash : decide (c = '/') = true := List.mem_rtakeWhile_imp (p := fun c => decide (c = '/')) hc
        exact of_decide_eq_true hslash
    · cases h
  · cases h

theorem normalizeModelId_of_segment {id org name : Text} (hpath : '/' ∈ id) {before after : List Text}
    (hsegments : id.splitOn '/' = before ++ hubSegment org name :: after)
    (hfirst : ∀ segment ∈ before, ¬modelsPrefix <+: segment) (h : HubRepo org name) :
    normalizeModelId id = org ++ '/' :: name := by
  have hnone : before.findSome? hubRepo = none := by
    apply findSome?_hubRepo_eq_none
    rintro segment hsegment org' name' rfl
    exact absurd (List.prefix_append modelsPrefix _) (hfirst _ hsegment)
  have hfound : (id.splitOn '/').findSome? hubRepo = some (org, name) := by
    rw [hsegments, List.findSome?_append, hnone, Option.none_or, List.findSome?_cons,
      hubRepo_eq_some_iff.mpr ⟨rfl, h⟩]
  rw [normalizeModelId, if_neg (not_not.mpr hpath), hfound]

theorem normalizeModelId_eq_self {id : Text}
    (hsegments : ∀ segment ∈ id.splitOn '/', ∀ org name, segment = hubSegment org name → ¬HubRepo org name)
    (hsnapshot : ¬EndsInSnapshot id) : normalizeModelId id = id := by
  have hdirectory : snapshotDirectory id = none := by
    cases hdirectory : snapshotDirectory id with
    | none => rfl
    | some directory => exact absurd (endsInSnapshot_of_eq_some hdirectory) hsnapshot
  rw [normalizeModelId, findSome?_hubRepo_eq_none hsegments, hdirectory]
  split
  · rfl
  · rfl

theorem no_hubSegment_of_no_dashes {segment : Text} (h : ¬dashes <:+: segment) (org name : Text) :
    segment ≠ hubSegment org name := by
  rintro rfl
  exact h ⟨"models".toList, org ++ (dashes ++ name), rfl⟩

/-- Two segments are too few for a snapshot below a directory. -/
theorem not_endsInSnapshot_of_two {org name : Text} (horg : '/' ∉ org) (hname : '/' ∉ name) :
    ¬EndsInSnapshot (org ++ '/' :: name) := by
  rintro ⟨directory, hash, slashes, heq, _⟩
  have hcount := congrArg (List.count '/') heq
  simp only [List.count_append, List.count_cons_self, List.count_eq_zero.mpr horg, List.count_eq_zero.mpr hname] at hcount
  omega

theorem normalizeModelId_repositoryId {id : Text} (h : IsRepositoryId id) : normalizeModelId id = id := by
  cases h with
  | bare hname => rw [normalizeModelId, if_pos hname]
  | @under org name horg hname hdashes hdashes' =>
    apply normalizeModelId_eq_self
    · rw [List.splitOn_append_cons_self_of_not_mem horg, List.splitOn_eq_singleton hname]
      intro segment hsegment repoOrg repoName heq
      rcases List.mem_cons.mp hsegment with rfl | hsegment
      · exact absurd heq (no_hubSegment_of_no_dashes hdashes _ _)
      · rw [List.mem_singleton.mp hsegment] at heq
        exact absurd heq (no_hubSegment_of_no_dashes hdashes' _ _)
    · exact not_endsInSnapshot_of_two horg hname

theorem normalizeModelId_spec :
    (∀ (id org name : Text) (before after : List Text), '/' ∈ id →
      id.splitOn '/' = before ++ hubSegment org name :: after →
      (∀ segment ∈ before, ¬modelsPrefix <+: segment) → HubRepo org name →
      normalizeModelId id = org ++ '/' :: name ∧
      (¬dashes <:+: name → normalizeModelId (normalizeModelId id) = normalizeModelId id)) ∧
    (∀ id : Text, (∀ segment ∈ id.splitOn '/', ∀ org name, segment = hubSegment org name → ¬HubRepo org name) →
      ¬EndsInSnapshot id → normalizeModelId id = id) ∧
    ∀ id, IsRepositoryId id → normalizeModelId id = id := by
  refine ⟨?_, fun _ => normalizeModelId_eq_self, fun _ => normalizeModelId_repositoryId⟩
  intro id org name before after hpath hsegments hfirst h
  have hdecoded := normalizeModelId_of_segment hpath hsegments hfirst h
  refine ⟨hdecoded, ?_⟩
  intro hdashes
  have hslash : '/' ∉ hubSegment org name :=
    not_mem_of_mem_splitOn _ (hsegments ▸ List.mem_append_right before List.mem_cons_self)
  simp only [hubSegment, List.mem_append, not_or] at hslash
  rw [hdecoded]
  exact normalizeModelId_repositoryId (.under hslash.2.1 hslash.2.2.2 h.no_dashes hdashes)

end SparkDashboard.Engines
