import Mathlib.Data.List.Basic
import Mathlib.Data.List.Nodup
import Mathlib.Logic.Relation

/-!
# What a worklist search reaches

The items seen so far, and those of them whose successors are still to be visited. Once none
are left, what was seen is what can be reached from the roots; cycles do no harm.
-/

namespace SparkDashboard.Library

universe u

/-- The end of the queue is the head of the list. -/
structure Worklist (α : Type u) where
  seen : List α
  queue : List α

namespace Worklist

variable {α : Type u} [DecidableEq α]

def visit (s : Worklist α) (item : α) : Worklist α :=
  if item ∈ s.seen then s else ⟨s.seen ++ [item], item :: s.queue⟩

def start (roots : List α) : Worklist α := roots.foldl visit ⟨[], []⟩

def search (next : α → List α) : Nat → Worklist α → Worklist α
  | 0, s => s
  | fuel + 1, s =>
    match s.queue with
    | [] => s
    | item :: queue => search next fuel ((next item).foldl visit ⟨s.seen, queue⟩)

theorem mem_seen_visit {s : Worklist α} {item x : α} : x ∈ (s.visit item).seen ↔ x ∈ s.seen ∨ x = item := by
  rw [visit]
  split
  · rename_i hitem
    exact ⟨.inl, fun h => h.elim id fun heq => heq ▸ hitem⟩
  · rw [List.mem_append, List.mem_singleton]

theorem mem_queue_visit {s : Worklist α} {item x : α} :
    x ∈ (s.visit item).queue ↔ x ∈ s.queue ∨ (x = item ∧ x ∉ s.seen) := by
  rw [visit]
  split
  · rename_i hitem
    refine ⟨.inl, ?_⟩
    rintro (h | ⟨rfl, h⟩)
    · exact h
    · exact absurd hitem h
  · rename_i hitem
    rw [List.mem_cons]
    constructor
    · rintro (rfl | h)
      · exact .inr ⟨rfl, hitem⟩
      · exact .inl h
    · rintro (h | ⟨rfl, _⟩)
      · exact .inr h
      · exact .inl rfl

theorem mem_seen_visits {s : Worklist α} {items : List α} {x : α} :
    x ∈ (items.foldl visit s).seen ↔ x ∈ s.seen ∨ x ∈ items := by
  induction items generalizing s with
  | nil => simp
  | cons item items ih => rw [List.foldl_cons, ih, mem_seen_visit, List.mem_cons, or_assoc]

theorem mem_queue_visits {s : Worklist α} {items : List α} {x : α} :
    x ∈ (items.foldl visit s).queue ↔ x ∈ s.queue ∨ (x ∈ items ∧ x ∉ s.seen) := by
  induction items generalizing s with
  | nil => simp
  | cons item items ih =>
    rw [List.foldl_cons, ih, mem_queue_visit, mem_seen_visit, List.mem_cons]
    constructor
    · rintro ((h | ⟨rfl, h⟩) | ⟨hitems, hnew⟩)
      · exact .inl h
      · exact .inr ⟨.inl rfl, h⟩
      · exact .inr ⟨.inr hitems, fun h => hnew (.inl h)⟩
    · rintro (h | ⟨rfl | hitems, hnew⟩)
      · exact .inl (.inl h)
      · exact .inl (.inr ⟨rfl, hnew⟩)
      · by_cases hx : x = item
        · exact .inl (.inr ⟨hx, hnew⟩)
        · exact .inr ⟨hitems, fun h => h.elim hnew hx⟩

theorem nodup_seen_visits {s : Worklist α} {items : List α} (h : s.seen.Nodup) :
    (items.foldl visit s).seen.Nodup := by
  induction items generalizing s with
  | nil => exact h
  | cons item items ih =>
    rw [List.foldl_cons]
    apply ih
    rw [visit]
    split
    · exact h
    · rename_i hitem
      exact List.nodup_append.mpr ⟨h, List.nodup_singleton item, fun a ha b hb heq =>
        hitem (List.mem_singleton.mp hb ▸ heq ▸ ha)⟩

variable {next : α → List α} {roots : List α}

def Reaches (next : α → List α) : α → α → Prop := Relation.ReflTransGen fun a b => b ∈ next a

/-- Only what is queued may have successors that were not seen. -/
structure Explored (next : α → List α) (roots : List α) (s : Worklist α) : Prop where
  sound : ∀ x ∈ s.seen, ∃ root ∈ roots, Reaches next root x
  queued : ∀ x ∈ s.queue, x ∈ s.seen
  started : ∀ root ∈ roots, root ∈ s.seen
  closed : ∀ x ∈ s.seen, x ∉ s.queue → ∀ y ∈ next x, y ∈ s.seen
  nodup : s.seen.Nodup

theorem explored_start (next : α → List α) (roots : List α) : Explored next roots (start roots) where
  sound := by
    intro x hx
    rcases mem_seen_visits.mp hx with hx | hx
    · cases hx
    · exact ⟨x, hx, .refl⟩
  queued := by
    intro x hx
    rcases mem_queue_visits.mp hx with hx | hx
    · cases hx
    · exact mem_seen_visits.mpr (.inr hx.1)
  started := fun _ hroot => mem_seen_visits.mpr (.inr hroot)
  closed := by
    intro x hx hqueue
    rcases mem_seen_visits.mp hx with hx | hx
    · cases hx
    · exact absurd (mem_queue_visits.mpr (.inr ⟨hx, List.not_mem_nil⟩)) hqueue
  nodup := nodup_seen_visits List.nodup_nil

theorem Explored.step {s : Worklist α} (h : Explored next roots s) {item : α} {queue : List α}
    (hqueue : s.queue = item :: queue) : Explored next roots ((next item).foldl visit ⟨s.seen, queue⟩) := by
  have hitem : item ∈ s.seen := h.queued item (hqueue ▸ List.mem_cons_self)
  constructor
  · intro x hx
    rcases mem_seen_visits.mp hx with hx | hx
    · exact h.sound x hx
    · obtain ⟨root, hroot, hpath⟩ := h.sound item hitem
      exact ⟨root, hroot, hpath.tail hx⟩
  · intro x hx
    rcases mem_queue_visits.mp hx with hx | ⟨hx, _⟩
    · exact mem_seen_visits.mpr (.inl (h.queued x (hqueue ▸ List.mem_cons_of_mem item hx)))
    · exact mem_seen_visits.mpr (.inr hx)
  · exact fun root hroot => mem_seen_visits.mpr (.inl (h.started root hroot))
  · intro x hx hleft y hy
    have hseen : x ∈ s.seen := by
      by_cases hseen : x ∈ s.seen
      · exact hseen
      · rcases mem_seen_visits.mp hx with hx | hx
        · exact hx
        · have hqueued : x ∈ ((next item).foldl visit ⟨s.seen, queue⟩).queue := mem_queue_visits.mpr (.inr ⟨hx, hseen⟩)
          exact absurd hqueued hleft
    by_cases hx : x = item
    · exact mem_seen_visits.mpr (.inr (hx ▸ hy))
    · -- off the queue before this step too, so its successors were seen
      have hnot : x ∉ s.queue := by
        intro hmem
        rcases List.mem_cons.mp (hqueue ▸ hmem) with heq | hmem
        · exact hx heq
        · exact hleft (mem_queue_visits.mpr (.inl hmem))
      exact mem_seen_visits.mpr (.inl (h.closed x hseen hnot y hy))
  · exact nodup_seen_visits h.nodup

theorem Explored.search {s : Worklist α} (h : Explored next roots s) (fuel : Nat) :
    Explored next roots (s.search next fuel) := by
  induction fuel generalizing s with
  | zero => exact h
  | succ fuel ih =>
    rw [Worklist.search]
    split
    · exact h
    · rename_i item queue hqueue
      exact ih (h.step hqueue)

/-- What is still to be popped, were everything in the carrier still to come. -/
def pending (carrier : List α) (s : Worklist α) : Nat :=
  s.queue.length + (carrier.filter fun x => x ∉ s.seen).length

theorem pending_visit_le {carrier : List α} {s : Worklist α} {item : α} (h : item ∈ carrier) :
    pending carrier (s.visit item) ≤ pending carrier s := by
  rw [visit]
  split
  · exact Nat.le_refl _
  · rename_i hitem
    have hlt : (carrier.filter fun x => x ∉ s.seen ++ [item]).length < (carrier.filter fun x => x ∉ s.seen).length := by
      have hsub : carrier.filter (fun x => x ∉ s.seen ++ [item]) =
          (carrier.filter fun x => x ∉ s.seen).filter fun x => x ≠ item := by
        rw [List.filter_filter]
        apply List.filter_congr
        intro x _
        simp [and_comm]
      rw [hsub]
      apply List.length_filter_lt_length_iff_exists.mpr
      exact ⟨item, List.mem_filter.mpr ⟨h, by simpa using hitem⟩, by simp⟩
    simp only [pending, List.length_cons]
    omega

theorem pending_visits_le {carrier : List α} {s : Worklist α} {items : List α} (h : ∀ item ∈ items, item ∈ carrier) :
    pending carrier (items.foldl visit s) ≤ pending carrier s := by
  induction items generalizing s with
  | nil => exact Nat.le_refl _
  | cons item items ih =>
    rw [List.foldl_cons]
    exact Nat.le_trans (ih fun other hother => h other (List.mem_cons_of_mem item hother))
      (pending_visit_le (h item List.mem_cons_self))

theorem queue_search {carrier : List α} (hcarrier : ∀ a, ∀ b ∈ next a, b ∈ carrier) {s : Worklist α} {fuel : Nat}
    (h : pending carrier s ≤ fuel) : (s.search next fuel).queue = [] := by
  induction fuel generalizing s with
  | zero =>
    rw [pending] at h
    have hlength : s.queue.length = 0 := by omega
    exact List.length_eq_zero_iff.mp hlength
  | succ fuel ih =>
    rw [search]
    split
    · assumption
    · rename_i item queue hqueue
      apply ih
      have hle : pending carrier ((next item).foldl visit ⟨s.seen, queue⟩) ≤ pending carrier ⟨s.seen, queue⟩ :=
        pending_visits_le (hcarrier item)
      rw [pending, hqueue, List.length_cons] at h
      have hpopped : pending carrier ⟨s.seen, queue⟩ =
          queue.length + (carrier.filter fun x => x ∉ s.seen).length := rfl
      omega

/-- Once the queue is empty, more fuel changes nothing. -/
theorem search_of_le {s : Worklist α} {fuel more : Nat} (hempty : (s.search next fuel).queue = []) (hle : fuel ≤ more) :
    s.search next more = s.search next fuel := by
  induction fuel generalizing s more with
  | zero =>
    cases more with
    | zero => rfl
    | succ more =>
      rw [search] at hempty
      rw [search, search]
      split
      · rfl
      · rename_i item queue hqueue
        cases hempty.symm.trans hqueue
  | succ fuel ih =>
    obtain ⟨more, rfl⟩ := Nat.exists_eq_succ_of_ne_zero (Nat.ne_of_gt (Nat.lt_of_lt_of_le (Nat.succ_pos fuel) hle))
    rw [search] at hempty
    rw [search, search]
    split
    · rfl
    · rename_i item queue hqueue
      rw [hqueue] at hempty
      exact ih hempty (Nat.le_of_succ_le_succ hle)

theorem length_queue_visits_le (s : Worklist α) (items : List α) :
    (items.foldl visit s).queue.length ≤ s.queue.length + items.length := by
  induction items generalizing s with
  | nil => exact Nat.le_refl _
  | cons item items ih =>
    have hvisit : (s.visit item).queue.length ≤ s.queue.length + 1 := by
      rw [visit]
      split
      · omega
      · exact Nat.le_refl _
    have hitems := ih (s.visit item)
    rw [List.foldl_cons, List.length_cons]
    omega

theorem pending_start_le (carrier roots : List α) : pending carrier (start roots) ≤ roots.length + carrier.length := by
  have hqueue := length_queue_visits_le ⟨[], []⟩ roots
  have hfilter := List.length_filter_le (fun x => decide (x ∉ (start roots).seen)) carrier
  rw [List.length_nil, Nat.zero_add] at hqueue
  exact Nat.add_le_add hqueue hfilter

theorem mem_search {carrier : List α} (hcarrier : ∀ a, ∀ b ∈ next a, b ∈ carrier) (roots : List α) {x : α} :
    x ∈ ((start roots).search next (roots.length + carrier.length)).seen ↔ ∃ root ∈ roots, Reaches next root x := by
  have hexplored := (explored_start next roots).search (roots.length + carrier.length)
  have hqueue := queue_search hcarrier (pending_start_le carrier roots)
  constructor
  · exact hexplored.sound x
  · rintro ⟨root, hroot, hpath⟩
    induction hpath with
    | refl => exact hexplored.started root hroot
    | tail _ hedge ih => exact hexplored.closed _ ih (by rw [hqueue]; exact List.not_mem_nil) _ hedge

theorem nodup_search (next : α → List α) (roots : List α) (fuel : Nat) :
    ((start roots).search next fuel).seen.Nodup := ((explored_start next roots).search fuel).nodup

end Worklist

end SparkDashboard.Library
