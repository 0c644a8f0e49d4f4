import SparkDashboard.Browser.LogStreamStore

/-!
# Connections of the log stream store

What ties a connection's socket and timer to the browser's: a connection still in the
store has at most one of the two, and one that has left it has neither.
-/

namespace SparkDashboard.Browser

open Stepping Utf16

namespace Connection

/-- A connection, in the store or not any more. -/
structure Sound (k : Connection) (stored : Bool) : Prop where
  watched : stored = true ↔ k.listeners ≠ []
  current : ∀ i, k.socket = some i → stored = true ∧ ∃ w, k.sockets[i]? = some w ∧ w.closed = false
  live : ∀ i w, k.sockets[i]? = some w → w.closed = false → k.socket = some i ∨
    (stored = false ∧ w.toldToClose = true)
  armed : ∀ t, k.timers[t]? = some true ↔ k.retry = some t
  waiting : ∀ t, k.retry = some t → stored = true ∧ k.socket = none

theorem sound_connect {k : Connection} (h : k.Sound true) (hsocket : k.socket = none) (hretry : k.retry = none) :
    k.connect.Sound true where
  watched := h.watched
  current := by
    intro i hi
    cases hi
    exact ⟨rfl, {}, List.getElem?_concat_length, rfl⟩
  live := by
    intro i w hw hopen
    refine .inl ?_
    rcases Nat.lt_trichotomy i k.sockets.length with hlt | rfl | hgt
    · rw [connect, List.getElem?_append_left hlt] at hw
      rcases h.live i w hw hopen with hi | ⟨hstored, -⟩
      · cases hi.symm.trans hsocket
      · cases hstored
    · rfl
    · rw [List.getElem?_eq_none (by rw [connect]; simp; omega)] at hw
      cases hw
  armed := h.armed
  waiting := by
    intro t ht
    cases ht.symm.trans hretry

theorem modifySocket_getElem? (k : Connection) (i j : Nat) (f : Socket → Socket) :
    (k.modifySocket i f).sockets[j]? = if i = j then k.sockets[j]?.map f else k.sockets[j]? := by
  rw [modifySocket, List.getElem?_modify]
  split
  · rfl
  · simp

/-- Nothing that the browser does to a socket short of closing it unsettles a connection. -/
theorem sound_modifySocket {k : Connection} {stored : Bool} (h : k.Sound stored) (i : Nat) {f : Socket → Socket}
    (hclosed : ∀ w, (f w).closed = w.closed) (htold : ∀ w, w.toldToClose = true → (f w).toldToClose = true) :
    (k.modifySocket i f).Sound stored where
  watched := h.watched
  current := by
    intro j hj
    obtain ⟨hstored, w, hw, hopen⟩ := h.current j hj
    rw [modifySocket_getElem?, hw]
    split
    · exact ⟨hstored, f w, rfl, (hclosed w).trans hopen⟩
    · exact ⟨hstored, w, rfl, hopen⟩
  live := by
    intro j w hw hopen
    rw [modifySocket_getElem?] at hw
    split at hw
    · obtain ⟨v, hv, rfl⟩ := Option.map_eq_some_iff.mp hw
      rcases h.live j v hv ((hclosed v).symm.trans hopen) with hj | ⟨hstored, hv'⟩
      · exact .inl hj
      · exact .inr ⟨hstored, htold v hv'⟩
    · exact h.live j w hw hopen
  armed := h.armed
  waiting := h.waiting

theorem no_retry_of_live {k : Connection} (h : k.Sound true) {i : Nat} {w : Socket} (hw : k.sockets[i]? = some w)
    (hopen : w.closed = false) : k.socket = some i ∧ k.retry = none := by
  rcases h.live i w hw hopen with hi | ⟨hstored, -⟩
  · refine ⟨hi, ?_⟩
    cases hretry : k.retry with
    | none => rfl
    | some t => cases hi.symm.trans (h.waiting t hretry).2
  · cases hstored

theorem closed_of_stored {k : Connection} (h : k.Sound true) {i : Nat} {w : Socket} (hw : k.sockets[i]? = some w)
    (hopen : w.closed = false) (j : Nat) (v : Socket)
    (hv : (k.modifySocket i ({ · with closed := true })).sockets[j]? = some v) : v.closed = true := by
  rw [modifySocket_getElem?] at hv
  split at hv
  · obtain ⟨u, -, rfl⟩ := Option.map_eq_some_iff.mp hv
    rfl
  · rename_i hother
    cases hclosed : v.closed with
    | true => rfl
    | false =>
      obtain ⟨hi, -⟩ := no_retry_of_live h hw hopen
      obtain ⟨hj, -⟩ := no_retry_of_live h hv hclosed
      exact absurd (Option.some.inj (hi.symm.trans hj)) hother

theorem sound_dropped_stored {k : Connection} (h : k.Sound true) {i : Nat} {w : Socket}
    (hw : k.sockets[i]? = some w) (hopen : w.closed = false) :
    ((k.modifySocket i ({ · with closed := true })).dropped true).Sound true := by
  obtain ⟨-, hretry⟩ := no_retry_of_live h hw hopen
  have hclosed := closed_of_stored h hw hopen
  have hnone : ∀ t, k.timers[t]? ≠ some true := fun t ht => by cases hretry.symm.trans ((h.armed t).mp ht)
  have hlive : ∀ (j : Nat) (v : Socket), (k.modifySocket i ({ · with closed := true })).sockets[j]? = some v →
      v.closed = false → (none : Option Nat) = some j ∨ (true = false ∧ v.toldToClose = true) := by
    intro j v hv hvopen
    cases hvopen.symm.trans (hclosed j v hv)
  rw [dropped, if_pos rfl]
  split
  · refine ⟨h.watched, fun j hj => (by cases hj), hlive, ?_, ?_⟩
    · intro t
      change (k.timers ++ [true])[t]? = some true ↔ some k.timers.length = some t
      rcases Nat.lt_trichotomy t k.timers.length with hlt | rfl | hgt
      · rw [List.getElem?_append_left hlt]
        exact iff_of_false (hnone t) fun heq => Nat.ne_of_gt hlt (Option.some.inj heq)
      · exact iff_of_true List.getElem?_concat_length rfl
      · rw [List.getElem?_eq_none (by simp; omega)]
        exact iff_of_false nofun fun heq => Nat.ne_of_lt hgt (Option.some.inj heq)
    · exact fun _ _ => ⟨rfl, rfl⟩
  · exact ⟨h.watched, fun j hj => (by cases hj), hlive, h.armed, fun t ht => by cases ht.symm.trans hretry⟩

theorem sound_dropped_orphan {k : Connection} (h : k.Sound false) (i : Nat) :
    ((k.modifySocket i ({ · with closed := true })).dropped false).Sound false where
  watched := h.watched
  current := fun j hj => by cases hj
  live := by
    intro j v hv hopen
    rw [dropped, if_neg Bool.false_ne_true, modifySocket_getElem?] at hv
    split at hv
    · obtain ⟨u, -, rfl⟩ := Option.map_eq_some_iff.mp hv
      cases hopen
    · rcases h.live j v hv hopen with hj | htold
      · cases (h.current j hj).1
      · exact .inr htold
  armed := h.armed
  waiting := fun t ht => by cases (h.waiting t ht).1

theorem Sound.sound_handle {k : Connection} {stored : Bool} (h : k.Sound stored) {i : Nat} {w : Socket}
    (hw : k.sockets[i]? = some w) {event : SocketEvent} (hallows : w.allows event = true) :
    (k.handle stored i event).2.Sound stored := by
  cases event with
  | «open» =>
    have hopened := sound_modifySocket h i (f := ({ · with opened := true })) (fun _ => rfl) (fun _ h => h)
    exact ⟨hopened.watched, hopened.current, hopened.live, hopened.armed, hopened.waiting⟩
  | message line => exact ⟨h.watched, h.current, h.live, h.armed, h.waiting⟩
  | close =>
    have hopen : w.closed = false := by simpa [Socket.allows] using hallows
    cases stored with
    | true => exact sound_dropped_stored h hw hopen
    | false => exact sound_dropped_orphan h i
  | error => exact sound_modifySocket h i (fun _ => rfl) (fun _ _ => rfl)

@[simp] theorem dropped_endpoint (k : Connection) (stored : Bool) : (k.dropped stored).endpoint = k.endpoint := by
  rw [dropped]
  split
  · split <;> rfl
  · rfl

@[simp] theorem dropped_listeners (k : Connection) (stored : Bool) : (k.dropped stored).listeners = k.listeners := by
  rw [dropped]
  split
  · split <;> rfl
  · rfl

theorem handle_endpoint (k : Connection) (stored : Bool) (i : Nat) (event : SocketEvent) :
    (k.handle stored i event).2.endpoint = k.endpoint := by
  cases event with
  | close => exact dropped_endpoint _ stored
  | _ => rfl

theorem handle_listeners (k : Connection) (stored : Bool) (i : Nat) (event : SocketEvent) :
    (k.handle stored i event).2.listeners = k.listeners := by
  cases event with
  | close => exact dropped_listeners _ stored
  | _ => rfl

theorem handle_orphan (k : Connection) (i : Nat) (event : SocketEvent) :
    (k.handle false i event).2.sockets.length = k.sockets.length ∧ (k.handle false i event).2.timers = k.timers := by
  cases event with
  | message line => exact ⟨rfl, rfl⟩
  | _ => exact ⟨List.length_modify .., rfl⟩

theorem armed_clear {k : Connection} {stored : Bool} (h : k.Sound stored) {t : Nat} (ht : k.retry = some t) (u : Nat) :
    (k.timers.set t false)[u]? ≠ some true := by
  rw [List.getElem?_set]
  split
  · split
    · exact nofun
    · exact nofun
  · rename_i hother
    intro hu
    exact hother (Option.some.inj (ht.symm.trans ((h.armed u).mp hu)))

theorem Sound.sound_fire {k : Connection} {stored : Bool} (h : k.Sound stored) {t : Nat} (ht : k.timers[t]? = some true) :
    (k.fire t).Sound stored := by
  have hretry := (h.armed t).mp ht
  obtain ⟨rfl, hsocket⟩ := h.waiting t hretry
  refine sound_connect ⟨h.watched, h.current, h.live, ?_, nofun⟩ hsocket rfl
  intro u
  exact iff_of_false (armed_clear h hretry u) nofun

theorem clearRetry_eq (k : Connection) : ∃ timers, k.clearRetry = { k with timers := timers, retry := none } := by
  rw [clearRetry]
  cases hretry : k.retry with
  | none =>
    refine ⟨k.timers, ?_⟩
    cases k
    cases hretry
    rfl
  | some t => exact ⟨k.timers.set t false, rfl⟩

theorem closeSocket_eq (k : Connection) : ∃ sockets, k.closeSocket = { k with sockets := sockets, socket := none } := by
  rw [closeSocket]
  cases hsocket : k.socket with
  | none =>
    refine ⟨k.sockets, ?_⟩
    cases k
    cases hsocket
    rfl
  | some i => exact ⟨_, rfl⟩

theorem close_eq (k : Connection) : ∃ timers sockets, k.close =
    { k with timers := timers, sockets := sockets, retry := none, socket := none } := by
  obtain ⟨timers, htimers⟩ := k.clearRetry_eq
  obtain ⟨sockets, hsockets⟩ := k.clearRetry.closeSocket_eq
  exact ⟨timers, sockets, by rw [close, hsockets, htimers]⟩

theorem disarmed_close {k : Connection} {stored : Bool} (h : k.Sound stored) (u : Nat) :
    k.close.timers[u]? ≠ some true := by
  obtain ⟨sockets, hsockets⟩ := k.clearRetry.closeSocket_eq
  rw [close, hsockets]
  change k.clearRetry.timers[u]? ≠ some true
  rw [clearRetry]
  cases hretry : k.retry with
  | none => exact fun hu => by cases hretry.symm.trans ((h.armed u).mp hu)
  | some t => exact armed_clear h hretry u

/-- Of a stored connection's sockets only the current one could be open, and it is told to close. -/
theorem told_close {k : Connection} (h : k.Sound true) {i : Nat} {w : Socket} (hw : k.close.sockets[i]? = some w)
    (hopen : w.closed = false) : w.toldToClose = true := by
  obtain ⟨timers, htimers⟩ := k.clearRetry_eq
  rw [close, htimers, closeSocket] at hw
  dsimp only at hw
  have honly : ∀ v, k.sockets[i]? = some v → v.closed = false → k.socket = some i :=
    fun v hv hvopen => (no_retry_of_live h hv hvopen).1
  split at hw
  · rename_i j hj
    change (k.modifySocket j ({ · with toldToClose := true })).sockets[i]? = some w at hw
    rw [modifySocket_getElem?] at hw
    split at hw
    · obtain ⟨v, -, rfl⟩ := Option.map_eq_some_iff.mp hw
      rfl
    · rename_i hother
      exact absurd (Option.some.inj (hj.symm.trans (honly w hw hopen))) hother
  · rename_i hnone
    cases hnone.symm.trans (honly w hw hopen)

theorem clearRetry_listeners (k : Connection) (listeners : List Nat) :
    ({ k with listeners := listeners } : Connection).clearRetry = { k.clearRetry with listeners := listeners } := by
  obtain ⟨_, _, retry, _, _, _, _, _⟩ := k
  cases retry <;> rfl

theorem closeSocket_listeners (k : Connection) (listeners : List Nat) :
    ({ k with listeners := listeners } : Connection).closeSocket = { k.closeSocket with listeners := listeners } := by
  obtain ⟨_, socket, _, _, _, _, _, _⟩ := k
  cases socket <;> rfl

theorem close_listeners (k : Connection) (listeners : List Nat) :
    ({ k with listeners := listeners } : Connection).close = { k.close with listeners := listeners } := by
  rw [close, clearRetry_listeners, closeSocket_listeners, close]

theorem sound_close {k : Connection} (h : k.Sound true) :
    ({ k.close with listeners := [] } : Connection).Sound false := by
  obtain ⟨timers, sockets, hclose⟩ := k.close_eq
  have hsocket : k.close.socket = none := by rw [hclose]
  have hretry : k.close.retry = none := by rw [hclose]
  refine ⟨iff_of_false nofun fun hne => hne rfl, ?_, fun i w hw hopen => .inr ⟨rfl, told_close h hw hopen⟩, ?_, ?_⟩
  · intro i hi
    cases hi.symm.trans hsocket
  · intro u
    exact iff_of_false (disarmed_close h u) fun hu => by cases hu.symm.trans hretry
  · intro t ht
    cases ht.symm.trans hretry

end Connection

namespace LogStreamStore

/-- The store and everything it ever made, in step. -/
structure Kept (s : LogStreamStore) : Prop where
  sound : ∀ (c : Nat) (k : Connection), s.heap[c]? = some k → k.Sound (s.Stored c k)
  stored : ∀ endpoint c, s.connections.lookup endpoint = some c →
    ∃ k, s.heap[c]? = some k ∧ k.endpoint = endpoint
  listening : ∀ (c : Nat) (k : Connection) (l : Nat), s.heap[c]? = some k →
    (l ∈ k.listeners ↔ s.subscriptions[l]? = some ⟨c, false⟩)
  made : ∀ (l : Nat) (sub : Subscription), s.subscriptions[l]? = some sub → sub.connection < s.heap.length

theorem kept_empty : Kept {} where
  sound := fun c k hk => by cases hk
  stored := fun endpoint c hc => by cases hc
  listening := fun c k l hk => by cases hk
  made := fun l sub hsub => by cases hsub

theorem set_getElem? {heap : List Connection} {c : Nat} {k : Connection} (hk : heap[c]? = some k) (k' : Connection)
    (d : Nat) : (heap.set c k')[d]? = if c = d then some k' else heap[d]? := by
  rw [List.getElem?_set, if_pos (List.getElem?_eq_some_iff.mp hk).choose]

theorem modify_eq_set {heap : List Connection} {c : Nat} {k : Connection} (hk : heap[c]? = some k)
    (f : Connection → Connection) : heap.modify c f = heap.set c (f k) := by
  apply List.ext_getElem?
  intro d
  rw [List.getElem?_modify, set_getElem? hk]
  split
  · rename_i hsame
    rw [← hsame, hk]
    rfl
  · simp

/-- One connection replaced, the map and the subscriptions changed no more than it accounts for. -/
theorem kept_replace {s : LogStreamStore} (h : s.Kept) {c : Nat} {k k' : Connection} (hk : s.heap[c]? = some k)
    (hendpoint : k'.endpoint = k.endpoint) {connections : KeyedMap Utf16 Nat} {subscriptions : List Subscription}
    (hsound : k'.Sound (decide (connections.lookup k.endpoint = some c)))
    (hothers : ∀ endpoint d, d ≠ c → (connections.lookup endpoint = some d ↔ s.connections.lookup endpoint = some d))
    (hmap : ∀ endpoint, connections.lookup endpoint = some c → s.connections.lookup endpoint = some c)
    (hlistening : ∀ l, l ∈ k'.listeners ↔ subscriptions[l]? = some ⟨c, false⟩)
    (hsubscriptions : ∀ (l d : Nat), d ≠ c → (subscriptions[l]? = some ⟨d, false⟩ ↔ s.subscriptions[l]? = some ⟨d, false⟩))
    (hmade : ∀ (l : Nat) (sub : Subscription), subscriptions[l]? = some sub → sub.connection < s.heap.length) :
    Kept ⟨connections, s.heap.set c k', subscriptions⟩ where
  sound := by
    intro d m hm
    rw [set_getElem? hk] at hm
    split at hm
    · rename_i hsame
      cases hm
      cases hsame
      rw [Stored, hendpoint]
      exact hsound
    · rename_i hother
      have hsame : Stored ⟨connections, s.heap.set c k', subscriptions⟩ d m = s.Stored d m :=
        decide_eq_decide.mpr (hothers m.endpoint d (Ne.symm hother))
      rw [hsame]
      exact h.sound d m hm
  stored := by
    intro endpoint d hd
    rw [set_getElem? hk]
    by_cases hsame : c = d
    · cases hsame
      obtain ⟨m, hm, hname⟩ := h.stored endpoint c (hmap endpoint hd)
      cases hk.symm.trans hm
      exact ⟨k', if_pos rfl, hendpoint.trans hname⟩
    · rw [if_neg hsame]
      exact h.stored endpoint d ((hothers endpoint d (Ne.symm hsame)).mp hd)
  listening := by
    intro d m l hm
    rw [set_getElem? hk] at hm
    split at hm
    · rename_i hsame
      cases hm
      cases hsame
      exact hlistening l
    · rename_i hother
      rw [hsubscriptions l d (Ne.symm hother)]
      exact h.listening d m l hm
  made := by
    intro l sub hsub
    rw [List.length_set]
    exact hmade l sub hsub

theorem kept_put {s : LogStreamStore} (h : s.Kept) {c : Nat} {k k' : Connection} (hk : s.heap[c]? = some k)
    (hendpoint : k'.endpoint = k.endpoint) (hlisteners : k'.listeners = k.listeners)
    (hsound : k'.Sound (s.Stored c k)) : (s.put c k').Kept :=
  kept_replace h hk hendpoint hsound (fun _ _ _ => Iff.rfl) (fun _ => id)
    (fun l => by rw [hlisteners]; exact h.listening c k l hk) (fun _ _ _ => Iff.rfl) h.made

theorem subscriptions_append_iff (subscriptions : List Subscription) (c l d : Nat) :
    (subscriptions ++ [⟨c, false⟩])[l]? = some ⟨d, false⟩ ↔
      subscriptions[l]? = some ⟨d, false⟩ ∨ (l = subscriptions.length ∧ c = d) := by
  rcases Nat.lt_trichotomy l subscriptions.length with hlt | rfl | hgt
  · rw [List.getElem?_append_left hlt]
    simp [Nat.ne_of_lt hlt]
  · simp
  · rw [List.getElem?_eq_none (by simp; omega), List.getElem?_eq_none (Nat.le_of_lt hgt)]
    simp [Nat.ne_of_gt hgt]

theorem subscriptions_release_iff (subscriptions : List Subscription) (l x d : Nat) :
    (subscriptions.modify l ({ · with released := true }))[x]? = some ⟨d, false⟩ ↔
      x ≠ l ∧ subscriptions[x]? = some ⟨d, false⟩ := by
  rw [List.getElem?_modify]
  by_cases hsame : l = x
  · refine iff_of_false ?_ fun hne => hne.1 hsame.symm
    intro hx
    obtain ⟨sub, -, hreleased⟩ := Option.map_eq_some_iff.mp hx
    rw [if_pos hsame] at hreleased
    cases hreleased
  · simp [hsame, Ne.symm hsame]

theorem stored_of_listener {s : LogStreamStore} (h : s.Kept) {c l : Nat} {k : Connection} (hk : s.heap[c]? = some k)
    (hl : l ∈ k.listeners) : s.connections.lookup k.endpoint = some c :=
  of_decide_eq_true ((h.sound c k hk).watched.mpr (List.ne_nil_of_mem hl))

theorem kept_spawn {s : LogStreamStore} (h : s.Kept) {k : Connection}
    (hnone : s.connections.lookup k.endpoint = none) (hsound : k.Sound true)
    (hlisteners : k.listeners = [s.subscriptions.length]) :
    Kept ⟨s.connections.insert k.endpoint s.heap.length, s.heap ++ [k],
      s.subscriptions ++ [{ connection := s.heap.length }]⟩ where
  sound := by
    intro d m hm
    rcases Nat.lt_trichotomy d s.heap.length with hlt | rfl | hgt
    · rw [List.getElem?_append_left hlt] at hm
      have hsame : decide ((s.connections.insert k.endpoint s.heap.length).lookup m.endpoint = some d) =
          s.Stored d m := by
        refine decide_eq_decide.mpr ?_
        by_cases hname : m.endpoint = k.endpoint
        · rw [hname, AList.lookup_insert, hnone]
          exact iff_of_false (fun hd => Nat.ne_of_gt hlt (Option.some.inj hd)) nofun
        · rw [AList.lookup_insert_ne hname]
      rw [Stored, hsame]
      exact h.sound d m hm
    · rw [List.getElem?_concat_length] at hm
      cases hm
      have hstored : decide ((s.connections.insert k.endpoint s.heap.length).lookup k.endpoint =
          some s.heap.length) = true := decide_eq_true (AList.lookup_insert s.connections)
      rw [Stored, hstored]
      exact hsound
    · rw [List.getElem?_eq_none (by simp; omega)] at hm
      cases hm
  stored := by
    intro name d hd
    by_cases hname : name = k.endpoint
    · rw [hname, AList.lookup_insert] at hd
      cases hd
      exact ⟨_, List.getElem?_concat_length, hname.symm⟩
    · rw [AList.lookup_insert_ne hname] at hd
      obtain ⟨m, hm, hendpoint⟩ := h.stored name d hd
      exact ⟨m, by rw [List.getElem?_append_left (List.getElem?_eq_some_iff.mp hm).choose, hm], hendpoint⟩
  listening := by
    intro d m l hm
    rw [subscriptions_append_iff]
    rcases Nat.lt_trichotomy d s.heap.length with hlt | rfl | hgt
    · rw [List.getElem?_append_left hlt] at hm
      rw [h.listening d m l hm]
      simp [Nat.ne_of_gt hlt]
    · rw [List.getElem?_concat_length] at hm
      cases hm
      have hfresh : s.subscriptions[l]? ≠ some ⟨s.heap.length, false⟩ :=
        fun hl => Nat.lt_irrefl _ (h.made l _ hl)
      simp [hfresh, hlisteners]
    · rw [List.getElem?_eq_none (by simp; omega)] at hm
      cases hm
  made := by
    intro l sub hsub
    rw [List.length_append, List.length_singleton]
    rcases List.mem_append.mp (List.mem_of_getElem? hsub) with hold | hnew
    · obtain ⟨i, hi⟩ := List.mem_iff_getElem?.mp hold
      exact Nat.lt_succ_of_lt (h.made i sub hi)
    · rw [List.mem_singleton.mp hnew]
      exact Nat.lt_succ_self _

theorem kept_subscribe {s : LogStreamStore} (h : s.Kept) (endpoint : Utf16) : (s.subscribe endpoint).Kept := by
  rw [subscribe]
  cases hlookup : s.connections.lookup endpoint with
  | some c =>
    obtain ⟨k, hk, rfl⟩ := h.stored endpoint c hlookup
    have hstored : s.Stored c k = true := decide_eq_true hlookup
    have hsound := h.sound c k hk
    rw [hstored] at hsound
    dsimp only
    rw [modify_eq_set hk]
    refine kept_replace h hk ?_ ?_ (fun _ _ _ => Iff.rfl) (fun _ => id) ?_ ?_ ?_
    · rfl
    · rw [decide_eq_true hlookup]
      exact ⟨iff_of_true rfl (by simp), hsound.current, hsound.live, hsound.armed, hsound.waiting⟩
    · intro l
      rw [subscriptions_append_iff, ← h.listening c k l hk]
      simp
    · intro l d hother
      rw [subscriptions_append_iff]
      simp [Ne.symm hother]
    · intro l sub hsub
      rcases List.mem_append.mp (List.mem_of_getElem? hsub) with hold | hnew
      · obtain ⟨i, hi⟩ := List.mem_iff_getElem?.mp hold
        exact h.made i sub hi
      · rw [List.mem_singleton.mp hnew]
        exact (List.getElem?_eq_some_iff.mp hk).choose
  | none =>
    have hempty : Connection.Sound { endpoint, listeners := [s.subscriptions.length] } true :=
      ⟨by simp, nofun, nofun, by simp, nofun⟩
    exact kept_spawn h hlookup (Connection.sound_connect hempty rfl rfl) rfl

theorem kept_release {s : LogStreamStore} (h : s.Kept) {l c : Nat} {k : Connection}
    (hl : s.subscriptions[l]? = some ⟨c, false⟩) (hk : s.heap[c]? = some k) : (s.release l c k).Kept := by
  have hlookup := stored_of_listener h hk ((h.listening c k l hk).mpr hl)
  have hsound := h.sound c k hk
  have hstored : s.Stored c k = true := decide_eq_true hlookup
  rw [hstored] at hsound
  have hlistening : ∀ x, x ∈ k.listeners.filter (· ≠ l) ↔
      (s.subscriptions.modify l ({ · with released := true }))[x]? = some ⟨c, false⟩ := by
    intro x
    rw [List.mem_filter, subscriptions_release_iff, h.listening c k x hk, decide_eq_true_eq, and_comm]
  have hsubscriptions : ∀ (x d : Nat), d ≠ c →
      ((s.subscriptions.modify l ({ · with released := true }))[x]? = some ⟨d, false⟩ ↔
        s.subscriptions[x]? = some ⟨d, false⟩) := by
    intro x d hother
    rw [subscriptions_release_iff]
    refine and_iff_right_of_imp ?_
    rintro hx rfl
    cases hl.symm.trans hx
    exact hother rfl
  have hmade : ∀ (x : Nat) (sub : Subscription),
      (s.subscriptions.modify l ({ · with released := true }))[x]? = some sub → sub.connection < s.heap.length := by
    intro x sub hsub
    rw [List.getElem?_modify] at hsub
    obtain ⟨old, hold, rfl⟩ := Option.map_eq_some_iff.mp hsub
    split <;> exact h.made x old hold
  rw [release]
  dsimp only
  split
  · rename_i hnone
    rw [hnone] at hlistening ⊢
    rw [Connection.close_listeners]
    refine kept_replace h hk ?_ ?_ ?_ ?_ hlistening hsubscriptions hmade
    · obtain ⟨timers, sockets, hclose⟩ := k.close_eq
      rw [hclose]
    · rw [AList.lookup_erase]
      exact Connection.sound_close hsound
    · intro endpoint d hother
      by_cases hname : endpoint = k.endpoint
      · rw [hname, AList.lookup_erase, hlookup]
        exact iff_of_false nofun fun hd => hother (Option.some.inj hd).symm
      · rw [AList.lookup_erase_ne hname]
    · intro endpoint hc
      by_cases hname : endpoint = k.endpoint
      · rw [hname, AList.lookup_erase] at hc
        cases hc
      · rwa [AList.lookup_erase_ne hname] at hc
  · rename_i hsome
    refine kept_replace h hk ?_ ?_ (fun _ _ _ => Iff.rfl) (fun _ => id) ?_ hsubscriptions hmade
    · rfl
    · rw [decide_eq_true hlookup]
      exact ⟨iff_of_true rfl hsome, hsound.current, hsound.live, hsound.armed, hsound.waiting⟩
    · exact hlistening

theorem deliverable_eq_some {s : LogStreamStore} {c i : Nat} {event : SocketEvent} {k : Connection}
    (h : s.deliverable c i event = some k) :
    s.heap[c]? = some k ∧ ∃ w, k.sockets[i]? = some w ∧ w.allows event = true := by
  obtain ⟨hk, hany⟩ := Option.filter_eq_some_iff.mp h
  exact ⟨hk, (Option.any_eq_true _ _).mp hany⟩

theorem kept_step {s : LogStreamStore} (h : s.Kept) (event : StoreEvent) : (s.step event).2.Kept := by
  cases event with
  | subscribe endpoint => exact kept_subscribe h endpoint.val
  | release l =>
    rw [step]
    split
    · rename_i c hl
      split
      · exact kept_release h hl ‹_›
      · exact h
    · exact h
  | socket c i event =>
    rw [step]
    split
    · rename_i k hdeliverable
      obtain ⟨hk, w, hw, hallows⟩ := deliverable_eq_some hdeliverable
      exact kept_put h hk (k.handle_endpoint _ i event) (k.handle_listeners _ i event)
        ((h.sound c k hk).sound_handle hw hallows)
    · exact h
  | fire c t =>
    rw [step]
    split
    · rename_i k hk
      split
      · rename_i harmed
        exact kept_put h hk rfl rfl ((h.sound c k hk).sound_fire harmed)
      · exact h
    · exact h

theorem kept_final (events : List StoreEvent) : (final step {} events).Kept :=
  final_invariant Kept (fun _ event h => kept_step h event) kept_empty events

theorem heap_release (s : LogStreamStore) (l c : Nat) (k : Connection) :
    ∃ k', (s.release l c k).heap = s.heap.set c k' ∧ k'.stream = k.stream := by
  rw [release]
  dsimp only
  split
  · obtain ⟨timers, sockets, hclose⟩ := ({ k with listeners := k.listeners.filter (· ≠ l) } : Connection).close_eq
    rw [hclose]
    exact ⟨_, rfl, rfl⟩
  · exact ⟨_, rfl, rfl⟩

/-- What an event does to the heap: nothing, one more connection, a change to one that the store
has, or the handler of one's own socket. -/
inductive HeapStep (s : LogStreamStore) (event : StoreEvent) : List Connection → Prop
  | idle (hevent : ∀ c i delivered, event = .socket c i delivered → s.deliverable c i delivered = none) :
    HeapStep s event s.heap
  | spawn {k : Connection} (hevent : ∀ c i delivered, event ≠ .socket c i delivered) (hstream : k.stream = {}) :
    HeapStep s event (s.heap ++ [k])
  | change {c : Nat} {k k' : Connection} (hevent : ∀ c i delivered, event ≠ .socket c i delivered)
      (hk : s.heap[c]? = some k) (hstored : s.Stored c k = true) (hstream : k'.stream = k.stream) :
    HeapStep s event (s.heap.set c k')
  | handle {c i : Nat} {delivered : SocketEvent} {k : Connection} (hevent : event = .socket c i delivered)
      (hdeliverable : s.deliverable c i delivered = some k) :
    HeapStep s event (s.heap.set c (k.handle (s.Stored c k) i delivered).2)

theorem heapStep {s : LogStreamStore} (h : s.Kept) (event : StoreEvent) : HeapStep s event (s.step event).2.heap := by
  cases event with
  | subscribe endpoint =>
    rw [step, subscribe]
    cases hlookup : s.connections.lookup endpoint.val with
    | some c =>
      obtain ⟨k, hk, hname⟩ := h.stored endpoint.val c hlookup
      rw [← hname] at hlookup
      dsimp only
      rw [modify_eq_set hk]
      exact .change nofun hk (decide_eq_true hlookup) rfl
    | none => exact .spawn nofun rfl
  | release l =>
    rw [step]
    split
    · rename_i c hl
      split
      · rename_i k hk
        obtain ⟨k', hrelease, hstream⟩ := heap_release s l c k
        have hstored := stored_of_listener h hk ((h.listening c k l hk).mpr hl)
        dsimp only
        rw [hrelease]
        exact .change nofun hk (decide_eq_true hstored) hstream
      · exact .idle nofun
    · exact .idle nofun
  | socket c i delivered =>
    rw [step]
    cases hdeliverable : s.deliverable c i delivered with
    | none =>
      apply HeapStep.idle
      intro c' i' delivered' heq
      obtain ⟨rfl, rfl, rfl⟩ := StoreEvent.socket.inj heq
      exact hdeliverable
    | some k => exact .handle rfl hdeliverable
  | fire c t =>
    rw [step]
    split
    · rename_i k hk
      split
      · rename_i harmed
        have hsound := h.sound c k hk
        exact .change nofun hk (hsound.waiting t ((hsound.armed t).mp harmed)).1 rfl
      · exact .idle nofun
    · exact .idle nofun

/-- What an event leaves of a connection: its own socket's handler ran, or its stream is what it
was and it is unchanged unless the store has it. -/
theorem heap_step {s : LogStreamStore} (h : s.Kept) (event : StoreEvent) {c : Nat} {k : Connection}
    (hk : s.heap[c]? = some k) :
    ∃ k', (s.step event).2.heap[c]? = some k' ∧
      ((∃ i delivered, event = .socket c i delivered ∧ s.deliverable c i delivered = some k ∧
          k' = (k.handle (s.Stored c k) i delivered).2) ∨
        ((∀ i delivered, event = .socket c i delivered → s.deliverable c i delivered = none) ∧
          k'.stream = k.stream ∧ (k' = k ∨ s.Stored c k = true))) := by
  have hstep := heapStep h event
  generalize (s.step event).2.heap = heap at hstep
  cases hstep with
  | idle hevent => exact ⟨k, hk, .inr ⟨hevent c, rfl, .inl rfl⟩⟩
  | spawn hevent =>
    refine ⟨k, ?_, .inr ⟨fun i delivered heq => absurd heq (hevent c i delivered), rfl, .inl rfl⟩⟩
    exact (List.getElem?_append_left (List.getElem?_eq_some_iff.mp hk).choose).trans hk
  | change hevent hm hstored hstream =>
    rw [set_getElem? hm]
    split
    · rename_i hsame
      cases hsame
      cases hk.symm.trans hm
      exact ⟨_, rfl, .inr ⟨fun i delivered heq => absurd heq (hevent c i delivered), hstream, .inr hstored⟩⟩
    · exact ⟨k, hk, .inr ⟨fun i delivered heq => absurd heq (hevent c i delivered), rfl, .inl rfl⟩⟩
  | handle hevent hdeliverable =>
    obtain ⟨hm, -⟩ := deliverable_eq_some hdeliverable
    rw [set_getElem? hm]
    split
    · rename_i hsame
      cases hsame
      cases hk.symm.trans hm
      exact ⟨_, rfl, .inl ⟨_, _, hevent, hdeliverable, rfl⟩⟩
    · rename_i hother
      refine ⟨k, hk, .inr ⟨?_, rfl, .inl rfl⟩⟩
      intro i' delivered' heq
      exact absurd (StoreEvent.socket.inj (hevent.symm.trans heq)).1 hother

theorem heap_step_new {s : LogStreamStore} (h : s.Kept) (event : StoreEvent) {c : Nat} {k' : Connection}
    (hc : s.heap.length ≤ c) (hk' : (s.step event).2.heap[c]? = some k') : k'.stream = {} := by
  have hnone : ∀ (d : Nat) (m : Connection), (s.heap.set d m)[c]? = none :=
    fun d m => List.getElem?_eq_none (by rw [List.length_set]; exact hc)
  have hstep := heapStep h event
  generalize (s.step event).2.heap = heap at hstep hk'
  cases hstep with
  | idle => cases (List.getElem?_eq_none hc).symm.trans hk'
  | spawn _ hstream =>
    rcases Nat.eq_or_lt_of_le hc with rfl | hlt
    · cases List.getElem?_concat_length.symm.trans hk'
      exact hstream
    · rw [List.getElem?_eq_none (by simp; omega)] at hk'
      cases hk'
  | change => cases (hnone _ _).symm.trans hk'
  | handle => cases (hnone _ _).symm.trans hk'

theorem length_heap_le_step {s : LogStreamStore} (h : s.Kept) (event : StoreEvent) :
    s.heap.length ≤ (s.step event).2.heap.length := by
  have hstep := heapStep h event
  generalize (s.step event).2.heap = heap at hstep ⊢
  cases hstep with
  | idle => exact Nat.le_refl _
  | spawn =>
    rw [List.length_append]
    exact Nat.le_add_right _ _
  | change => rw [List.length_set]
  | handle => rw [List.length_set]

end LogStreamStore

end SparkDashboard.Browser
