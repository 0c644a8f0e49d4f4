import Mathlib.Data.List.AList
import Mathlib.Logic.Function.Basic

/-!
# Finite maps with one value per key

Mathlib's `AList` with a constant value type. A map is rebuilt key by key with
`filterMapKV`, and every lookup in the result is a lookup in the original.
-/

abbrev KeyedMap (κ : Type*) (ν : Type*) := AList (fun _ : κ => ν)

namespace KeyedMap

variable {κ ν ω : Type*}

def pairs (m : KeyedMap κ ν) : List (κ × ν) := m.entries.map fun e => (e.1, e.2)

theorem nodupKeys_filterMap (f : κ → ν → Option ω) {l : List (Sigma fun _ : κ => ν)}
    (h : l.NodupKeys) :
    (l.filterMap fun e => (f e.1 e.2).map fun w => (⟨e.1, w⟩ : Sigma fun _ : κ => ω)).NodupKeys := by
  induction l with
  | nil => exact List.nodupKeys_nil
  | cons e rest ih =>
    obtain ⟨hnot, hrest⟩ := List.nodupKeys_cons.mp h
    rw [List.filterMap_cons]
    cases hf : f e.1 e.2 with
    | none => simpa [hf] using ih hrest
    | some w =>
      simp only [Option.map_some]
      refine List.nodupKeys_cons.mpr ⟨?_, ih hrest⟩
      intro hmem
      obtain ⟨w', hw'⟩ := List.exists_of_mem_keys hmem
      obtain ⟨e', he', heq⟩ := List.mem_filterMap.mp hw'
      obtain ⟨w'', -, hw''⟩ := Option.map_eq_some_iff.mp heq
      have hkey : e'.1 = e.1 := congrArg (fun x : Sigma fun _ : κ => ω => x.1) hw''
      exact hnot (hkey ▸ List.mem_keys_of_mem he')

/-- Every value replaced by what `f` makes of it and its key, or dropped. -/
def filterMapKV (f : κ → ν → Option ω) (m : KeyedMap κ ν) : KeyedMap κ ω :=
  ⟨m.entries.filterMap fun e => (f e.1 e.2).map fun w => ⟨e.1, w⟩, nodupKeys_filterMap f m.nodupKeys⟩

def mapKV (f : κ → ν → ω) (m : KeyedMap κ ν) : KeyedMap κ ω :=
  filterMapKV (fun k v => some (f k v)) m

def any (p : κ → ν → Bool) (m : KeyedMap κ ν) : Bool := m.entries.any fun e => p e.1 e.2

variable [DecidableEq κ]

theorem mem_entries_iff_lookup {m : KeyedMap κ ν} {k : κ} {v : ν} :
    (⟨k, v⟩ : Sigma fun _ : κ => ν) ∈ m.entries ↔ m.lookup k = some v :=
  AList.mem_lookup_iff.symm

/-- A relation between the values two maps have for one key, over their entries. -/
theorem forall_lookup_iff {m : KeyedMap κ ν} {m' : KeyedMap κ ω} {P : ν → ω → Prop} :
    (∀ k v w, m.lookup k = some v → m'.lookup k = some w → P v w) ↔
      ∀ e ∈ m.entries, ∀ e' ∈ m'.entries, e.1 = e'.1 → P e.2 e'.2 := by
  constructor
  · rintro h ⟨k, v⟩ hv ⟨_, w⟩ hw rfl
    exact h k v w (mem_entries_iff_lookup.mp hv) (mem_entries_iff_lookup.mp hw)
  · intro h k v w hv hw
    exact h ⟨k, v⟩ (mem_entries_iff_lookup.mpr hv) ⟨k, w⟩ (mem_entries_iff_lookup.mpr hw) rfl

theorem any_eq_true_iff {p : κ → ν → Bool} {m : KeyedMap κ ν} :
    any p m = true ↔ ∃ k v, m.lookup k = some v ∧ p k v = true := by
  simp only [any, List.any_eq_true]
  constructor
  · rintro ⟨⟨k, v⟩, hmem, hp⟩
    exact ⟨k, v, mem_entries_iff_lookup.mp hmem, hp⟩
  · rintro ⟨k, v, hlookup, hp⟩
    exact ⟨⟨k, v⟩, mem_entries_iff_lookup.mpr hlookup, hp⟩

@[simp] theorem lookup_filterMapKV (f : κ → ν → Option ω) (m : KeyedMap κ ν) (k : κ) :
    (filterMapKV f m).lookup k = (m.lookup k).bind (f k) := by
  apply Option.ext
  intro w
  rw [← mem_entries_iff_lookup, Option.bind_eq_some_iff]
  simp only [filterMapKV, List.mem_filterMap, Option.map_eq_some_iff]
  constructor
  · rintro ⟨⟨k', v⟩, hmem, w', hw', heq⟩
    cases heq
    exact ⟨v, mem_entries_iff_lookup.mp hmem, hw'⟩
  · rintro ⟨v, hlookup, hw⟩
    exact ⟨⟨k, v⟩, mem_entries_iff_lookup.mpr hlookup, w, hw, rfl⟩

@[simp] theorem lookup_mapKV (f : κ → ν → ω) (m : KeyedMap κ ν) (k : κ) :
    (mapKV f m).lookup k = (m.lookup k).map (f k) := by
  rw [mapKV, lookup_filterMapKV]
  cases m.lookup k <;> rfl

section Records

variable {φ : Type*} [DecidableEq φ]

/-- One field of the record under a key, if there is one, passed through `f`. -/
def modifyField (m : KeyedMap κ (φ → ν)) (k : κ) (field : φ) (f : ν → ν) : KeyedMap κ (φ → ν) :=
  match m.lookup k with
  | some r => m.insert k (Function.update r field (f (r field)))
  | none => m

def orInsert (m : KeyedMap κ ν) (k : κ) (v : ν) : KeyedMap κ ν := if (m.lookup k).isSome then m else m.insert k v

theorem field_modifyField (m : KeyedMap κ (φ → ν)) (k k' : κ) (field field' : φ) (f : ν → ν) :
    ((modifyField m k field f).lookup k').map (· field') =
      if k' = k ∧ field' = field then ((m.lookup k).map (· field)).map f else (m.lookup k').map (· field') := by
  rw [modifyField]
  cases hlookup : m.lookup k with
  | none =>
    by_cases h : k' = k ∧ field' = field
    · rw [if_pos h, h.1]
      simp only [hlookup, Option.map_none]
    · rw [if_neg h]
  | some r =>
    by_cases hk : k' = k
    · subst hk
      rw [AList.lookup_insert, hlookup]
      by_cases hfield : field' = field
      · subst hfield
        simp
      · simp [hfield]
    · rw [AList.lookup_insert_ne hk, if_neg fun h => hk h.1]

theorem lookup_orInsert (m : KeyedMap κ ν) (k k' : κ) (v : ν) :
    (orInsert m k v).lookup k' = if k' = k then some ((m.lookup k).getD v) else m.lookup k' := by
  rw [orInsert]
  cases hlookup : m.lookup k with
  | some w =>
    by_cases hk : k' = k
    · rw [if_pos hk, hk]
      exact hlookup
    · rw [if_neg hk]
      rfl
  | none =>
    by_cases hk : k' = k
    · subst hk
      rw [if_pos rfl]
      exact AList.lookup_insert m
    · rw [if_neg hk]
      exact AList.lookup_insert_ne hk

theorem map_lookup_orInsert (m : KeyedMap κ ν) (k k' : κ) (v : ν) (g : ν → ω) :
    ((orInsert m k v).lookup k').map g = (m.lookup k').map g ∨
      (m.lookup k').map g = none ∧ ((orInsert m k v).lookup k').map g = some (g v) := by
  rw [lookup_orInsert]
  by_cases hk : k' = k
  · subst hk
    rw [if_pos rfl]
    cases m.lookup k' with
    | none => exact Or.inr ⟨rfl, rfl⟩
    | some w => exact Or.inl rfl
  · rw [if_neg hk]
    exact Or.inl rfl

end Records

section Upsert

variable {τ α β : Type*}

/-- The value under a key replaced by what `f` makes of it, or of its absence. -/
def upsert (m : KeyedMap κ ν) (k : κ) (f : Option ν → ν) : KeyedMap κ ν := m.insert k (f (m.lookup k))

theorem lookup_upsert (m : KeyedMap κ ν) (k k' : κ) (f : Option ν → ν) :
    (upsert m k f).lookup k' = if k = k' then some (f (m.lookup k')) else m.lookup k' := by
  rw [upsert]
  by_cases hk : k = k'
  · subst hk
    rw [if_pos rfl, AList.lookup_insert]
  · rw [if_neg hk, AList.lookup_insert_ne (Ne.symm hk)]

/-- What a key holds once something has been added at a key, in the form a run asks for. -/
theorem lookup_upsert_add (m : KeyedMap κ ν) (k k' : κ) (g : ν → β → ν) (d : ν) (b : β) :
    (upsert m k fun held => g (held.getD d) b).lookup k' =
      (if k = k' then some b else none).elim (m.lookup k') fun b => some (g ((m.lookup k').getD d) b) := by
  rw [lookup_upsert]
  split <;> rfl

/-- What a key holds after a run whose every step leaves it or adds what the step reads. -/
theorem lookup_run (step : τ → α → τ) (look : τ → Option ν) {read : α → Option β} (g : ν → β → ν) (d : ν)
    (hstep : ∀ t a, look (step t a) = (read a).elim (look t) fun b => some (g ((look t).getD d) b)) (t : τ)
    (items : List α) :
    look (items.foldl step t) =
      if items.filterMap read = [] then look t
      else some ((items.filterMap read).foldl g ((look t).getD d)) := by
  induction items generalizing t with
  | nil => rfl
  | cons a items ih =>
    rw [List.foldl_cons, ih, hstep]
    cases hread : read a with
    | none => simp only [Option.elim_none, List.filterMap_cons_none hread]
    | some b =>
      rw [List.filterMap_cons_some hread, if_neg (List.cons_ne_nil _ _), List.foldl_cons, Option.elim_some,
        Option.getD_some]
      split
      · rename_i hnil
        rw [hnil]
        rfl
      · rfl

end Upsert

end KeyedMap
