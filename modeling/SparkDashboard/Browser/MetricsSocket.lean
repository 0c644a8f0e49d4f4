import SparkDashboard.Browser.UseMetrics

/-!
# The lifetime of the metrics socket

The hook may be unmounted and mounted again with the refs it had. The cleanup closes the
socket and clears the timer at once, but the close event comes later, and its handler
does not ask whose event it is.
-/

namespace SparkDashboard.Browser

open Stepping

inductive MetricsEvent where
  | mount
  | page (event : PageEvent)

namespace MetricsPage

/-- A mounted page is not mounted again; the refs stay from one mount to the next. -/
def stepEvent (p : MetricsPage) : MetricsEvent → MetricsPage
  | .mount => if p.hook.mounted then p else { p with hook := { p.hook with mounted := true }.connect }
  | .page event => (p.step event).2

def unmounted (hidden : Bool) : MetricsPage where
  hook := { mounted := false }
  hidden := hidden

def after (hidden : Bool) (events : List MetricsEvent) : MetricsPage := events.foldl stepEvent (unmounted hidden)

end MetricsPage

def Socket.live (w : Socket) : Bool := !w.toldToClose && !w.closed

namespace UseMetrics

/-- The socket is connecting or open. -/
def Live (h : UseMetrics) (i : Nat) : Prop := ∃ w, h.sockets[i]? = some w ∧ w.live = true

def Armed (h : UseMetrics) (t : Nat) : Prop := ∃ r, h.timers[t]? = some r ∧ r.armed = true

/-- Where the hook stands as long as only the current socket's close is heard. -/
structure Wired (h : UseMetrics) : Prop where
  live : ∀ i, h.Live i → h.mounted = true ∧ h.wsRef = some i
  armed : ∀ t, h.Armed t → h.mounted = true ∧ h.wsRef = none ∧ h.reconnectTimeout = some t
  connected : h.mounted = true →
    (∃ i w, h.wsRef = some i ∧ h.sockets[i]? = some w ∧ w.closed = false) ∨ h.wsRef = none ∧ ∃ t, h.Armed t

section Steps

variable {h : UseMetrics}

theorem wired_unmounted : Wired { mounted := false } := by
  constructor
  · rintro i ⟨w, hw, -⟩
    cases hw
  · rintro t ⟨r, hr, -⟩
    cases hr
  · intro hmounted
    cases hmounted

theorem live_connect {i : Nat} (hlive : h.connect.Live i) : h.Live i ∨ i = h.sockets.length := by
  obtain ⟨w, hw, hwlive⟩ := hlive
  rw [connect, List.getElem?_append] at hw
  split at hw
  · exact .inl ⟨w, hw, hwlive⟩
  · rename_i hlt
    rw [List.getElem?_singleton] at hw
    split at hw
    · exact .inr (by omega)
    · cases hw

theorem wired_connect (hlive : ∀ i, ¬ h.Live i) (harmed : ∀ t, ¬ h.Armed t) (hmounted : h.mounted = true) :
    Wired h.connect := by
  constructor
  · intro i hi
    rcases live_connect hi with hi | rfl
    · exact absurd hi (hlive i)
    · exact ⟨hmounted, rfl⟩
  · intro t ht
    exact absurd ht (harmed t)
  · intro _
    refine .inl ⟨h.sockets.length, {}, rfl, ?_, rfl⟩
    rw [connect, List.getElem?_append_right (Nat.le_refl _), Nat.sub_self]
    rfl

theorem live_modifySocket {f : Socket → Socket} (hf : ∀ w, (f w).live = true → w.live = true)
    {i j : Nat} (hlive : (h.modifySocket i f).Live j) : h.Live j := by
  obtain ⟨w, hw, hwlive⟩ := hlive
  rw [modifySocket, List.getElem?_modify] at hw
  obtain ⟨before, hbefore, rfl⟩ := Option.map_eq_some_iff.mp hw
  refine ⟨before, hbefore, ?_⟩
  split at hwlive
  · exact hf before hwlive
  · exact hwlive

/-- The hook's sockets and timers, and what it knows of them. -/
structure SameWiring (h after : UseMetrics) : Prop where
  mounted : after.mounted = h.mounted
  wsRef : after.wsRef = h.wsRef
  sockets : after.sockets = h.sockets
  reconnectTimeout : after.reconnectTimeout = h.reconnectTimeout
  timers : after.timers = h.timers

theorem sameWiring_onMessage (h : UseMetrics) (data : MetricsSnapshot) (now : ℚ) :
    SameWiring h (h.onMessage data now) := by
  simp only [onMessage]
  split <;> constructor <;> rfl

theorem sameWiring_flush (h : UseMetrics) (hidden : Bool) (now : ℚ) : SameWiring h (h.flush hidden now) := by
  rw [flush]
  split
  · constructor <;> rfl
  · split
    · constructor <;> rfl
    · split <;> constructor <;> rfl

theorem sameWiring_render (h : UseMetrics) : SameWiring h h.render := by
  constructor <;> rfl

theorem Wired.of_sameWiring {after : UseMetrics} (hs : Wired h) (hsame : SameWiring h after) : Wired after := by
  obtain ⟨hmounted, hwsRef, hsockets, hreconnect, htimers⟩ := hsame
  constructor
  · rintro i ⟨w, hw, hlive⟩
    rw [hsockets] at hw
    rw [hmounted, hwsRef]
    exact hs.live i ⟨w, hw, hlive⟩
  · rintro t ⟨r, hr, harmed⟩
    rw [htimers] at hr
    rw [hmounted, hwsRef, hreconnect]
    exact hs.armed t ⟨r, hr, harmed⟩
  · intro hm
    rw [hmounted] at hm
    simp only [hwsRef, hsockets, Armed, htimers]
    exact hs.connected hm

theorem Wired.modifySocket (hs : Wired h) {f : Socket → Socket} (hlive : ∀ w, (f w).live = true → w.live = true)
    (hclosed : ∀ w, (f w).closed = w.closed) (i : Nat) : Wired (h.modifySocket i f) := by
  constructor
  · intro j hj
    exact hs.live j (live_modifySocket hlive hj)
  · exact hs.armed
  · intro hmounted
    rcases hs.connected hmounted with ⟨j, w, hj, hw, hopen⟩ | hwaiting
    · refine .inl ⟨j, if i = j then f w else w, hj, ?_, ?_⟩
      · rw [UseMetrics.modifySocket, List.getElem?_modify, hw]
        rfl
      · split
        · rw [hclosed]
          exact hopen
        · exact hopen
    · exact .inr hwaiting

theorem getElem?_modify_disarm {timers : List ReconnectTimer} {t u : Nat} {r : ReconnectTimer}
    (hr : (timers.modify t ({ · with armed := false }))[u]? = some r) (harmed : r.armed = true) :
    u ≠ t ∧ timers[u]? = some r := by
  rw [List.getElem?_modify] at hr
  obtain ⟨before, hbefore, rfl⟩ := Option.map_eq_some_iff.mp hr
  split at harmed
  · cases harmed
  · rename_i hne
    refine ⟨fun heq => hne heq.symm, ?_⟩
    rw [if_neg hne]
    exact hbefore

theorem Wired.fire (hs : Wired h) {t : Nat} (ht : h.Armed t) : Wired (h.fire t) := by
  obtain ⟨hmounted, hwsRef, hreconnect⟩ := hs.armed t ht
  apply wired_connect
  · rintro i ⟨w, hw, hlive⟩
    have hcurrent := (hs.live i ⟨w, hw, hlive⟩).2
    rw [hwsRef] at hcurrent
    cases hcurrent
  · rintro u ⟨r, hr, harmed⟩
    obtain ⟨hne, hr⟩ := getElem?_modify_disarm hr harmed
    have hlast := (hs.armed u ⟨r, hr, harmed⟩).2.2
    rw [hreconnect] at hlast
    exact hne (Option.some.inj hlast).symm
  · exact hmounted

theorem Wired.unmount (hs : Wired h) : Wired h.unmount := by
  have hlive : ∀ i, ¬ h.unmount.Live i := by
    rintro i ⟨w, hw, hwlive⟩
    cases hwsRef : h.wsRef with
    | none =>
      simp only [UseMetrics.unmount, hwsRef] at hw
      have hcurrent := (hs.live i ⟨w, hw, hwlive⟩).2
      rw [hwsRef] at hcurrent
      cases hcurrent
    | some j =>
      simp only [UseMetrics.unmount, hwsRef] at hw
      rw [UseMetrics.modifySocket, List.getElem?_modify] at hw
      obtain ⟨before, hbefore, rfl⟩ := Option.map_eq_some_iff.mp hw
      split at hwlive
      · cases hwlive
      · rename_i hne
        have hcurrent := (hs.live i ⟨before, hbefore, hwlive⟩).2
        rw [hwsRef] at hcurrent
        exact hne (Option.some.inj hcurrent)
  have harmed : ∀ t, ¬ h.unmount.Armed t := by
    rintro t ⟨r, hr, hrarmed⟩
    simp only [UseMetrics.unmount] at hr
    cases hreconnect : h.reconnectTimeout with
    | none =>
      rw [hreconnect] at hr
      have hlast := (hs.armed t ⟨r, hr, hrarmed⟩).2.2
      rw [hreconnect] at hlast
      cases hlast
    | some u =>
      rw [hreconnect] at hr
      obtain ⟨hne, hr⟩ := getElem?_modify_disarm hr hrarmed
      have hlast := (hs.armed t ⟨r, hr, hrarmed⟩).2.2
      rw [hreconnect] at hlast
      exact hne (Option.some.inj hlast).symm
  constructor
  · intro i hi
    exact absurd hi (hlive i)
  · intro t ht
    exact absurd ht (harmed t)
  · intro hmounted
    cases hmounted

theorem armed_onClose {t : Nat} (ht : h.onClose.Armed t) : h.Armed t ∨ t = h.timers.length := by
  obtain ⟨r, hr, harmed⟩ := ht
  simp only [onClose, List.getElem?_append] at hr
  split at hr
  · exact .inl ⟨r, hr, harmed⟩
  · rename_i hlt
    rw [List.getElem?_singleton] at hr
    split at hr
    · exact .inr (by omega)
    · cases hr

theorem armed_onClose_length (h : UseMetrics) : h.onClose.Armed h.timers.length := by
  refine ⟨{ delay := min (1000 * 2 ^ h.attemptRef) 10000 }, ?_, rfl⟩
  simp only [onClose]
  rw [List.getElem?_append_right (Nat.le_refl _), Nat.sub_self]
  rfl

theorem armed_onClose_of_armed {t : Nat} (ht : h.Armed t) : h.onClose.Armed t := by
  obtain ⟨r, hr, harmed⟩ := ht
  refine ⟨r, ?_, harmed⟩
  simp only [onClose]
  rw [List.getElem?_append_left (List.getElem?_eq_some_iff.mp hr).1]
  exact hr

theorem length_timers_onClose (h : UseMetrics) : h.onClose.timers.length = h.timers.length + 1 := List.length_append

/-- A socket that has not closed may close after another one. -/
theorem deliverable_close_of_ne {i j : Nat} {w : Socket} (hne : i ≠ j) (hw : h.sockets[j]? = some w)
    (hopen : w.closed = false) :
    (h.modifySocket i ({ · with closed := true })).onClose.deliverable j .close = true := by
  simp only [deliverable, onClose, setConnectionStatus, UseMetrics.modifySocket]
  rw [List.getElem?_modify_ne _ h.sockets hne, hw, Option.any_some, Socket.allows, hopen]
  rfl

/-- The current socket's close, heard while mounted, leaves the hook waiting for one timer. -/
theorem Wired.closed (hs : Wired h) {i : Nat} (hmounted : h.mounted = true) (hwsRef : h.wsRef = some i) :
    Wired ((h.modifySocket i ({ · with closed := true })).onClose) := by
  constructor
  · rintro j ⟨w, hw, hlive⟩
    simp only [onClose, setConnectionStatus] at hw
    rw [UseMetrics.modifySocket, List.getElem?_modify] at hw
    obtain ⟨before, hbefore, rfl⟩ := Option.map_eq_some_iff.mp hw
    split at hlive
    · simp [Socket.live] at hlive
    · rename_i hne
      have hcurrent := (hs.live j ⟨before, hbefore, hlive⟩).2
      rw [hwsRef] at hcurrent
      exact absurd (Option.some.inj hcurrent) hne
  · intro t ht
    rcases armed_onClose ht with ht | rfl
    · have hnone := (hs.armed t ht).2.1
      rw [hwsRef] at hnone
      cases hnone
    · exact ⟨hmounted, rfl, rfl⟩
  · exact fun _ => .inr ⟨rfl, _, armed_onClose_length _⟩

/-- What an event of the page does to the hook's sockets and timers. -/
inductive HookStep (h : UseMetrics) (event : PageEvent) : UseMetrics → Prop
  | kept {after : UseMetrics} (hsame : SameWiring h after) : HookStep h event after
  | modified {after : UseMetrics} (i : Nat) (f : Socket → Socket) (hlive : ∀ w, (f w).live = true → w.live = true)
    (hclosed : ∀ w, (f w).closed = w.closed) (hsame : SameWiring (h.modifySocket i f) after) : HookStep h event after
  | closed (i : Nat) (hevent : event = .closed i) (hdelivered : h.deliverable i .close = true) :
    HookStep h event (h.modifySocket i ({ · with closed := true })).onClose
  | fired (t : Nat) (harmed : h.Armed t) : HookStep h event (h.fire t)
  | unmounted : HookStep h event h.unmount

theorem hookStep (p : MetricsPage) (event : PageEvent) : HookStep p.hook event (p.step event).2.hook := by
  have hkept : HookStep p.hook event p.hook := .kept (by constructor <;> rfl)
  cases event with
  | opened i =>
    rw [MetricsPage.step]
    split
    · exact .modified i ({ · with opened := true }) (fun _ => id) (fun _ => rfl) (by constructor <;> rfl)
    · exact hkept
  | message i data now =>
    cases data with
    | none => exact hkept
    | some data =>
      rw [MetricsPage.step]
      split
      · exact .kept (sameWiring_onMessage _ _ _)
      · exact hkept
  | error i =>
    rw [MetricsPage.step]
    split
    · refine .modified i ({ · with toldToClose := true }) ?_ (fun _ => rfl) (by constructor <;> rfl)
      intro w hw
      cases hw
    · exact hkept
  | closed i =>
    rw [MetricsPage.step]
    split
    · rename_i hdelivered
      exact .closed i rfl hdelivered
    · exact hkept
  | reconnect t =>
    rw [MetricsPage.step]
    split
    · rename_i harmed
      exact .fired t ((Option.any_eq_true _ _).mp harmed)
    · exact hkept
  | tick now =>
    rw [MetricsPage.step]
    split
    · exact .kept (sameWiring_flush _ _ _)
    · exact hkept
  | visibility hidden now =>
    rw [MetricsPage.step]
    split
    · exact .kept (sameWiring_flush _ _ _)
    · exact hkept
  | commit =>
    rw [MetricsPage.step]
    split
    · rw [MetricsPage.commit]
      split <;> exact .kept (sameWiring_render _)
    · exact hkept
  | unmount =>
    rw [MetricsPage.step]
    split
    · exact .unmounted
    · exact hkept

/-- Only a close that is not the current socket's can upset the hook. -/
theorem HookStep.wired {event : PageEvent} {next : UseMetrics} (hstep : HookStep h event next) (hs : Wired h)
    (hcurrent : ∀ i, event = .closed i → h.deliverable i .close = true → h.mounted = true ∧ h.wsRef = some i) :
    Wired next := by
  cases hstep with
  | kept hsame => exact hs.of_sameWiring hsame
  | modified i f hlive hclosed hsame => exact (hs.modifySocket hlive hclosed i).of_sameWiring hsame
  | closed i hevent hdelivered =>
    obtain ⟨hmounted, hwsRef⟩ := hcurrent i hevent hdelivered
    exact hs.closed hmounted hwsRef
  | fired t harmed => exact hs.fire harmed
  | unmounted => exact hs.unmount

theorem HookStep.length_sockets {event : PageEvent} {next : UseMetrics} (hstep : HookStep h event next) (hs : Wired h)
    (hnext : next.mounted = false) : next.sockets.length = h.sockets.length := by
  cases hstep with
  | kept hsame => rw [hsame.sockets]
  | modified i f _ _ hsame => rw [hsame.sockets, UseMetrics.modifySocket, List.length_modify]
  | closed i _ _ => exact List.length_modify _ _ _
  | fired t harmed =>
    have hmounted : h.mounted = false := hnext
    rw [(hs.armed t harmed).1] at hmounted
    cases hmounted
  | unmounted =>
    simp only [UseMetrics.unmount]
    split
    · exact List.length_modify _ _ _
    · rfl

end Steps

end UseMetrics

open UseMetrics MetricsPage

/-- A close event comes that is not the current socket's, or comes after the unmount. -/
def LateClose (p : MetricsPage) (i : Nat) : Prop :=
  p.hook.deliverable i .close = true ∧ ¬ (p.hook.mounted = true ∧ p.hook.wsRef = some i)

/-- What one step may do to the sockets and timers. -/
structure SocketLaw (before after : UseMetrics) : Prop where
  quiet : after.mounted = false → (∀ t, ¬ after.Armed t) ∧ after.sockets.length = before.sockets.length
  oneSocket : after.mounted = true → ∀ i j, after.Live i → after.Live j → i = j
  oneTimer : after.mounted = true → ∀ t u, after.Armed t → after.Armed u → t = u

section Step

variable {p : MetricsPage}

theorem wired_stepEvent (hs : Wired p.hook) (e : MetricsEvent)
    (htimely : ∀ i, e = .page (.closed i) → ¬ LateClose p i) : Wired (p.stepEvent e).hook := by
  cases e with
  | mount =>
    rw [stepEvent]
    split
    · exact hs
    · rename_i hunmounted
      exact wired_connect (fun i hi => hunmounted (hs.live i hi).1) (fun t ht => hunmounted (hs.armed t ht).1) rfl
  | page event =>
    apply (hookStep p event).wired hs
    rintro i rfl hdelivered
    by_contra hnot
    exact htimely i rfl ⟨hdelivered, hnot⟩

/-- Only a mounted page opens a socket. -/
theorem length_sockets_stepEvent (hs : Wired p.hook) (e : MetricsEvent)
    (hafter : (p.stepEvent e).hook.mounted = false) :
    (p.stepEvent e).hook.sockets.length = p.hook.sockets.length := by
  cases e with
  | mount =>
    rw [stepEvent] at hafter
    split at hafter
    · rename_i hmounted
      rw [hmounted] at hafter
      cases hafter
    · cases hafter
  | page event => exact (hookStep p event).length_sockets hs hafter

theorem socketLaw_stepEvent (hs : Wired p.hook) {e : MetricsEvent} (hnext : Wired (p.stepEvent e).hook) :
    SocketLaw p.hook (p.stepEvent e).hook := by
  constructor
  · intro hunmounted
    refine ⟨?_, length_sockets_stepEvent hs e hunmounted⟩
    intro t ht
    have hmounted := (hnext.armed t ht).1
    rw [hunmounted] at hmounted
    cases hmounted
  · intro _ i j hi hj
    have hcurrent := (hnext.live i hi).2
    rw [(hnext.live j hj).2] at hcurrent
    exact (Option.some.inj hcurrent).symm
  · intro _ t u ht hu
    have hlast := (hnext.armed t ht).2.2
    rw [(hnext.armed u hu).2.2] at hlast
    exact (Option.some.inj hlast).symm

end Step

section Runs

def LawAlong (p : MetricsPage) (events : List MetricsEvent) : Prop :=
  ∀ before e after, events = before ++ e :: after →
    SocketLaw (before.foldl stepEvent p).hook ((before.foldl stepEvent p).stepEvent e).hook

/-- No close event of the run comes late. -/
def TimelyCloses (p : MetricsPage) (events : List MetricsEvent) : Prop :=
  ∀ before i after, events = before ++ .page (.closed i) :: after → ¬ LateClose (before.foldl stepEvent p) i

theorem wired_foldl {p : MetricsPage} {events : List MetricsEvent} (hs : Wired p.hook)
    (htimely : TimelyCloses p events) : Wired (events.foldl stepEvent p).hook := by
  induction events generalizing p with
  | nil => exact hs
  | cons e events ih =>
    rw [List.foldl_cons]
    apply ih
    · apply wired_stepEvent hs
      rintro i rfl
      exact htimely [] i events rfl
    · intro before i after hsplit
      exact htimely (e :: before) i after (by rw [hsplit]; rfl)

theorem TimelyCloses.of_prefix {p : MetricsPage} {first rest : List MetricsEvent}
    (h : TimelyCloses p (first ++ rest)) : TimelyCloses p first := by
  rintro before i after rfl
  exact h before i (after ++ rest) (by rw [List.append_assoc]; rfl)

theorem lawAlong_of_timely {p : MetricsPage} {events : List MetricsEvent} (hs : Wired p.hook)
    (htimely : TimelyCloses p events) : LawAlong p events := by
  rintro before e after rfl
  have hbefore := wired_foldl hs htimely.of_prefix
  apply socketLaw_stepEvent hbefore
  apply wired_stepEvent hbefore
  rintro i rfl
  exact htimely before i after rfl

theorem stepEvent_closed {p : MetricsPage} {i : Nat} (h : p.hook.deliverable i .close = true) :
    p.stepEvent (.page (.closed i)) =
      { p with hook := (p.hook.modifySocket i ({ · with closed := true })).onClose } := by
  rw [stepEvent, step, if_pos h]

/-- A late close breaks the law at once, or as soon as the current socket closes. -/
theorem exists_not_lawAlong {p : MetricsPage} (hs : Wired p.hook) {i : Nat} (hlate : LateClose p i) :
    ∃ more, ¬ LawAlong p (.page (.closed i) :: more) := by
  obtain ⟨hdelivered, hnot⟩ := hlate
  have hnext := stepEvent_closed hdelivered
  have harmed : (p.stepEvent (.page (.closed i))).hook.Armed p.hook.timers.length := by
    rw [hnext]
    exact armed_onClose_length _
  cases hmounted : p.hook.mounted with
  | false =>
    refine ⟨[], fun hlaw => ?_⟩
    refine ((hlaw [] _ [] rfl).quiet ?_).1 _ harmed
    rw [List.foldl_nil, hnext]
    exact hmounted
  | true =>
    have hstays : (p.stepEvent (.page (.closed i))).hook.mounted = true := by
      rw [hnext]
      exact hmounted
    rcases hs.connected hmounted with ⟨j, w, hj, hw, hopen⟩ | ⟨-, t, ht⟩
    · have hne : i ≠ j := by
        rintro rfl
        exact hnot ⟨hmounted, hj⟩
      refine ⟨[.page (.closed j)], fun hlaw => ?_⟩
      have hdelivered' : (p.stepEvent (.page (.closed i))).hook.deliverable j .close = true := by
        rw [hnext]
        exact deliverable_close_of_ne hne hw hopen
      have hlast := hlaw [.page (.closed i)] (.page (.closed j)) [] rfl
      simp only [List.foldl_cons, List.foldl_nil] at hlast
      rw [stepEvent_closed hdelivered'] at hlast
      have htwo := hlast.oneTimer hstays _ _ (armed_onClose_of_armed harmed) (armed_onClose_length _)
      have hlength : (p.stepEvent (.page (.closed i))).hook.timers.length = p.hook.timers.length + 1 := by
        rw [hnext]
        exact length_timers_onClose _
      have hsame : p.hook.timers.length = (p.stepEvent (.page (.closed i))).hook.timers.length := htwo
      omega
    · refine ⟨[], fun hlaw => ?_⟩
      have hold : (p.stepEvent (.page (.closed i))).hook.Armed t := by
        rw [hnext]
        exact armed_onClose_of_armed ht
      have hsame := (hlaw [] _ [] rfl).oneTimer hstays _ _ hold harmed
      obtain ⟨r, hr, -⟩ := ht
      have hlt := (List.getElem?_eq_some_iff.mp hr).1
      omega

/-- Sockets and timers keep to the law as long as no close comes late, and no longer than that. -/
theorem metricsSocket_lawful (hidden : Bool) {events : List MetricsEvent}
    (htimely : TimelyCloses (unmounted hidden) events) :
    LawAlong (unmounted hidden) events ∧
      ∀ i, LateClose (after hidden events) i →
        ∃ more, ¬ LawAlong (unmounted hidden) (events ++ .page (.closed i) :: more) := by
  refine ⟨lawAlong_of_timely wired_unmounted htimely, ?_⟩
  intro i hlate
  obtain ⟨more, hbroken⟩ := exists_not_lawAlong (wired_foldl wired_unmounted htimely) hlate
  refine ⟨more, fun hlaw => hbroken ?_⟩
  intro before e rest hsplit
  have hstep := hlaw (events ++ before) e rest (by rw [hsplit, List.append_assoc])
  rwa [List.foldl_append] at hstep

/-- A connection lost and taken up again before the page goes. -/
theorem metricsSocket_lawful_reconnected :
    LawAlong (unmounted false) [.mount, .page (.closed 0), .page (.reconnect 0), .page .unmount] ∧
      ∀ i, LateClose (after false [.mount, .page (.closed 0), .page (.reconnect 0), .page .unmount]) i →
        ∃ more, ¬ LawAlong (unmounted false)
          ([.mount, .page (.closed 0), .page (.reconnect 0), .page .unmount] ++ .page (.closed i) :: more) := by
  apply metricsSocket_lawful false
  intro before i after hsplit hlate
  rcases before with _ | ⟨_, _ | ⟨_, _ | ⟨_, _ | ⟨_, before⟩⟩⟩⟩ <;> simp at hsplit
  obtain ⟨rfl, rfl, -⟩ := hsplit
  exact hlate.2 ⟨rfl, rfl⟩

/-- The close of a page's only socket, heard after the unmount. -/
theorem close_after_unmount_arms :
    ¬ ∀ (hidden : Bool) (events : List MetricsEvent), LawAlong (unmounted hidden) events := by
  intro h
  have hlaw := h false [.mount, .page .unmount, .page (.closed 0)] [.mount, .page .unmount] _ [] rfl
  exact (hlaw.quiet rfl).1 0 ⟨{ delay := 1000 }, rfl, rfl⟩

end Runs

end SparkDashboard.Browser
