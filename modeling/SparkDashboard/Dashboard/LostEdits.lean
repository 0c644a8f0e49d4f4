import SparkDashboard.Dashboard.Tab

/-!
# When no accepted page edit is lost

Every control writes the rendered document with its own edit made. As long as a confirmed save
was sent behind another only where that one was refused, or was answered first and is written
over, everything the operator was told is saved is stored, and it is what the tab renders. The
three flags do not see to that: a page can be renamed while its source is saved.
-/

namespace SparkDashboard.Dashboard

open Utf16 WholeDocument

namespace Tab

/-- The session's working copy is one the reader leaves alone. -/
def SessionFormed (t : Tab) : Prop :=
  ∀ editor, t.editor = some editor → ∀ panels, editor.session = some panels → WellFormedPanels panels

/-- The document a control writes is the rendered one with the requested edit made. -/
structure Makes (t : Tab) (request : Request) (next : DashboardDocument) : Prop where
  look_eq : ∀ place, look next place = (request.writes place).getD (look t.document place)
  formed : WellFormed t.document → t.SessionFormed → WellFormed next

def Writes (t t' : Tab) : Prop :=
  t'.client = t.client ∨ ∃ request next, t'.client = t.client.send request next ∧ t.Makes request next

section Rendering

variable {t : Tab}

theorem findPage_page {page : DashboardPage} (h : t.page = some page) :
    findPage t.document page.id = some page := by
  rw [Tab.page] at h
  split at h
  · rw [findPage]
    cases hpages : t.document.pages with
    | nil =>
      rw [hpages] at h
      cases h
    | cons first rest =>
      rw [hpages] at h
      cases h
      exact List.find?_cons_of_pos (decide_eq_true rfl)
  · rw [(mem_of_findPage h).2, h]

@[simp] theorem client_render : t.render.client = t.client := by
  rw [render]
  split
  · rfl
  split
  · rfl
  · rfl

@[simp] theorem client_go (next : DashboardDocument) (pageId : Option Utf16) :
    (t.go next pageId).client = t.client := by
  rw [go]
  split
  · rw [client_render]
  · rfl

@[simp] theorem client_resume (request : Request) (next : DashboardDocument) (saved : Bool) :
    (t.resume request next saved).client = t.client := by
  rw [resume]
  split
  · cases saved with
    | true => exact client_go next request.goTo
    | false => rfl
  · split
    · rfl
    · rfl
  · split
    · split
      · rfl
      · rfl
    · rfl
  · rfl

theorem sessionFormed_of_none {editor : Editor} (hsession : editor.session = none)
    (heditor : t.editor = some editor) : t.SessionFormed := by
  intro other hother panels hpanels
  obtain rfl : editor = other := Option.some.inj (heditor.symm.trans hother)
  rw [hsession] at hpanels
  cases hpanels

theorem SessionFormed.of_editor {t' : Tab} (h : t.SessionFormed) (heditor : t'.editor = t.editor) :
    t'.SessionFormed := fun editor hother => h editor (heditor ▸ hother)

theorem SessionFormed.of_session {t' : Tab} {editor editor' : Editor} (h : t.SessionFormed)
    (heditor : t.editor = some editor) (heditor' : t'.editor = some editor')
    (hsession : editor'.session = editor.session) : t'.SessionFormed := by
  intro other hother panels hpanels
  obtain rfl : editor' = other := Option.some.inj (heditor'.symm.trans hother)
  exact h editor heditor panels (hsession ▸ hpanels)

theorem SessionFormed.render (h : t.SessionFormed) : t.render.SessionFormed := by
  rw [Tab.render]
  split
  · intro editor heditor
    cases heditor
  split
  · exact h
  · exact sessionFormed_of_none rfl rfl

theorem SessionFormed.go (h : t.SessionFormed) (next : DashboardDocument) (pageId : Option Utf16) :
    (t.go next pageId).SessionFormed := by
  rw [Tab.go]
  split
  · exact SessionFormed.render (h.of_editor rfl)
  · exact h

theorem SessionFormed.resume (h : t.SessionFormed) (request : Request) (next : DashboardDocument)
    (saved : Bool) : (t.resume request next saved).SessionFormed := by
  rw [Tab.resume]
  split
  · cases saved with
    | true => exact SessionFormed.of_editor (h.go next request.goTo) rfl
    | false => exact h.of_editor rfl
  · rename_i editor _ heditor
    split
    · exact h.of_session heditor rfl rfl
    · exact h
  · rename_i editor _ heditor
    split
    · split
      · exact sessionFormed_of_none rfl rfl
      · exact h.of_session heditor rfl rfl
    · exact h
  · exact h

end Rendering

section Acting

variable {tables : UnicodeTables} {t t' : Tab}

theorem page_of_menuPage {page : DashboardPage} (h : t.menuPage = some page) : t.page = some page := by
  rw [menuPage] at h
  split at h
  · cases h
  · exact h

theorem mounted_eq_some {editor : Editor} {page : DashboardPage} (h : t.mounted = some (editor, page)) :
    t.editor = some editor ∧ t.page = some page := by
  obtain ⟨editor', heditor, hrest⟩ := Option.bind_eq_some_iff.mp h
  obtain ⟨page', hpage, hpair⟩ := Option.map_eq_some_iff.mp hrest
  cases hpair
  exact ⟨heditor, hpage⟩

theorem makes_create (tables : UnicodeTables) (t : Tab)
    (layout : Option { layout : StartingLayout // layout ∈ startingLayouts }) (goTo : Option Utf16) :
    t.Makes ⟨.pageBar, .created (newPage tables t.document (layout.map Subtype.val)), goTo⟩
      (match layout.map Subtype.val with
        | none => addPage tables t.document none
        | some layout => addPageFrom tables t.document layout).document := by
  cases layout with
  | none =>
    refine ⟨fun place => ?_, fun h _ => wellFormed_edit tables h (.addPage none)⟩
    have hblank : trim ((none : Option Utf16).getD []) = [] := rfl
    simp only [Option.map_none, addPage, if_pos hblank]
    exact look_appended tables t.document _ [] place
  | some layout =>
    exact ⟨look_appended tables t.document _ layout.val.panels,
      fun h _ => wellFormed_edit tables h (.addPageFrom layout.val layout.property)⟩

theorem create_writes {layout : Option { layout : StartingLayout // layout ∈ startingLayouts }}
    (h : t.create tables (layout.map Subtype.val) = some t') : t.Writes t' ∧ t'.editor = t.editor := by
  obtain ⟨_, -, rfl⟩ := Option.map_eq_some_iff.mp h
  exact ⟨.inr ⟨_, _, rfl, makes_create tables t layout _⟩, rfl⟩

theorem rename_writes {draft : Utf16} (h : t.rename draft = some t') :
    t.Writes t' ∧ t'.editor = t.editor := by
  obtain ⟨page, hmenu, hrest⟩ := Option.bind_eq_some_iff.mp h
  split at hrest
  · cases hrest
  rename_i hname
  cases hrest
  have hpage := findPage_page (page_of_menuPage hmenu)
  exact ⟨.inr ⟨_, _, rfl, look_renamePage hpage hname, fun h _ => wellFormed_renamePage h page.id draft⟩, rfl⟩

theorem remove_writes (h : t.remove = some t') : t.Writes t' ∧ t'.editor = t.editor := by
  obtain ⟨page, -, hrest⟩ := Option.bind_eq_some_iff.mp h
  split at hrest
  · rename_i next nextPageId hremoved
    cases hrest
    exact ⟨.inr ⟨_, _, rfl, look_removePage hremoved, fun h _ => wellFormed_removePage h hremoved⟩, rfl⟩
  · cases hrest

theorem chooseSource_writes {endpoints : List Utf16} {choice : Utf16}
    (h : t.chooseSource endpoints choice = some t') (hsession : t.SessionFormed) :
    t.Writes t' ∧ t'.SessionFormed := by
  obtain ⟨⟨editor, page⟩, hmounted, hrest⟩ := Option.bind_eq_some_iff.mp h
  obtain ⟨heditor, hpage⟩ := mounted_eq_some hmounted
  simp only at hrest
  split at hrest
  · cases hrest
  split at hrest
  · cases hrest
    refine ⟨.inr ⟨_, _, rfl, look_setPageSource (findPage_page hpage) _, fun h _ => ?_⟩,
      hsession.of_session heditor rfl rfl⟩
    exact wellFormed_setPageSource h page.id fun source hsource => readable_pageSourceFromChoice hsource
  · cases hrest

theorem saveSession_writes (h : t.saveSession = some t') (hsession : t.SessionFormed) :
    t.Writes t' ∧ t'.SessionFormed := by
  obtain ⟨⟨editor, page⟩, hmounted, hrest⟩ := Option.bind_eq_some_iff.mp h
  obtain ⟨heditor, hpage⟩ := mounted_eq_some hmounted
  obtain ⟨panels, hpanels, hrest⟩ := Option.bind_eq_some_iff.mp hrest
  split at hrest
  · cases hrest
  cases hrest
  refine ⟨.inr ⟨_, _, rfl, look_withPagePanels (findPage_page hpage) panels, fun h hsession => ?_⟩,
    hsession.of_session heditor rfl rfl⟩
  exact wellFormed_withPagePanels h page.id (hsession editor heditor panels hpanels)

theorem beginSession_writes (h : t.beginSession = some t') (hformed : WellFormed t.document) :
    t.Writes t' ∧ t'.SessionFormed := by
  obtain ⟨⟨editor, page⟩, hmounted, hrest⟩ := Option.bind_eq_some_iff.mp h
  simp only at hrest
  split at hrest
  · cases hrest
  cases hrest
  refine ⟨.inl rfl, ?_⟩
  intro other hother panels hpanels
  cases hother
  cases hpanels
  exact (hformed.each page (mem_of_findPage (findPage_page (mounted_eq_some hmounted).2)).1).panels

theorem editSession_writes {edit : PanelEdit} (h : t.editSession edit = some t') (hsession : t.SessionFormed) :
    t.Writes t' ∧ t'.SessionFormed := by
  obtain ⟨⟨editor, page⟩, hmounted, hrest⟩ := Option.bind_eq_some_iff.mp h
  obtain ⟨panels, hpanels, rfl⟩ := Option.map_eq_some_iff.mp hrest
  refine ⟨.inl rfl, ?_⟩
  intro other hother panels' hpanels'
  cases hother
  cases hpanels'
  exact wellFormedPanels_editPanels (hsession editor (mounted_eq_some hmounted).1 panels hpanels) edit

theorem discardSession_writes (h : t.discardSession = some t') : t.Writes t' ∧ t'.SessionFormed := by
  obtain ⟨⟨editor, page⟩, -, hrest⟩ := Option.bind_eq_some_iff.mp h
  simp only at hrest
  split at hrest
  · cases hrest
  cases hrest
  exact ⟨.inl rfl, sessionFormed_of_none rfl rfl⟩

/-- Whatever control is used writes what it is for, or nothing. -/
theorem act_writes {action : Action} (h : t.act tables action = some t') (hformed : WellFormed t.document)
    (hsession : t.SessionFormed) : t.Writes t' ∧ t'.SessionFormed := by
  cases action with
  | navigate pageId =>
    cases h
    exact ⟨.inl client_render, SessionFormed.render (hsession.of_editor rfl)⟩
  | resize narrow =>
    cases h
    exact ⟨.inl rfl, hsession.of_editor rfl⟩
  | create layout => exact (create_writes h).imp_right hsession.of_editor
  | rename draft => exact (rename_writes h).imp_right hsession.of_editor
  | remove => exact (remove_writes h).imp_right hsession.of_editor
  | chooseSource endpoints choice => exact chooseSource_writes h hsession
  | beginSession => exact beginSession_writes h hformed
  | editSession edit => exact editSession_writes h hsession
  | saveSession => exact saveSession_writes h hsession
  | discardSession => exact discardSession_writes h

end Acting

section Runs

variable {tables : UnicodeTables}

/-- What a tab keeps along a run in which answers come in order. -/
structure Holds (stored₀ : Option Utf16) (document₀ : DashboardDocument) (t : Tab) : Prop where
  sound : Sound look Request.writes (fun next => some (serializeDashboardDocument next)) SaveOutcome.isSaved
    document₀ stored₀ t.client
  formed : WellFormed t.document
  writes : ∀ write ∈ t.client.writes, WellFormed write.document
  session : t.SessionFormed

/-- The next step is no answer, or one that `InOrder` allows. -/
def InOrder (t : Tab) : Event → Prop
  | .answer write => WholeDocument.InOrder Request.writes SaveOutcome.isSaved t.client write
  | _ => True

theorem Holds.act {stored₀ : Option Utf16} {document₀ : DashboardDocument} {t t' : Tab}
    (h : Holds stored₀ document₀ t) {action : Action} (hact : t.act tables action = some t') :
    Holds stored₀ document₀ t' := by
  obtain ⟨hwrites, hsession⟩ := act_writes hact h.formed h.session
  rcases hwrites with hclient | ⟨request, next, hclient, hmakes⟩
  · refine ⟨hclient ▸ h.sound, ?_, hclient ▸ h.writes, hsession⟩
    rw [document, hclient]
    exact h.formed
  · have hnext := hmakes.formed h.formed h.session
    refine ⟨hclient ▸ h.sound.send hmakes.look_eq, ?_, ?_, hsession⟩
    · rw [document, hclient]
      exact h.formed
    · rw [hclient]
      intro write hwrite
      rcases List.mem_append.mp hwrite with hwrite | hwrite
      · exact h.writes write hwrite
      · rw [List.mem_singleton.mp hwrite]
        exact hnext

theorem Holds.take {stored₀ : Option Utf16} {document₀ : DashboardDocument} {t t' : Tab}
    (h : Holds stored₀ document₀ t) {outcome : SaveOutcome} (htake : t.step tables (.take outcome) = some t') :
    Holds stored₀ document₀ t' := by
  obtain ⟨client, hclient, rfl⟩ := Option.map_eq_some_iff.mp htake
  obtain ⟨i, write, hi, -, -, rfl⟩ := take_eq_some hclient
  refine ⟨h.sound.take hclient, h.formed, ?_, h.session.of_editor rfl⟩
  intro other hother
  rcases List.mem_or_eq_of_mem_set hother with hother | rfl
  · exact h.writes other hother
  · exact h.writes write (List.mem_of_getElem? hi)

theorem Holds.answer {stored₀ : Option Utf16} {document₀ : DashboardDocument} {t t' : Tab}
    (h : Holds stored₀ document₀ t) {i : Nat} (hanswer : t.answer i = some t')
    (horder : WholeDocument.InOrder Request.writes SaveOutcome.isSaved t.client i) :
    Holds stored₀ document₀ t' := by
  obtain ⟨⟨write, outcome, client⟩, hclient, hresumed⟩ := Option.map_eq_some_iff.mp hanswer
  dsimp only at hresumed
  subst hresumed
  have hsound := h.sound.answer hclient horder
  obtain ⟨hi, -, rfl⟩ := answer_eq_some hclient
  refine ⟨?_, ?_, ?_, ?_⟩
  · rw [client_resume, client_render]
    exact hsound
  · rw [document, client_resume, client_render]
    change WellFormed (if outcome.isSaved then write.document else t.document)
    split
    · exact h.writes write (List.mem_of_getElem? hi)
    · exact h.formed
  · rw [client_resume, client_render]
    intro other hother
    rcases List.mem_or_eq_of_mem_set hother with hother | rfl
    · exact h.writes other hother
    · exact h.writes write (List.mem_of_getElem? hi)
  · apply SessionFormed.resume
    apply SessionFormed.render
    exact h.session.of_editor rfl

theorem Holds.step {stored₀ : Option Utf16} {document₀ : DashboardDocument} {t t' : Tab}
    (h : Holds stored₀ document₀ t) {event : Event} (horder : t.InOrder event)
    (hstep : t.step tables event = some t') : Holds stored₀ document₀ t' := by
  cases event with
  | act action => exact h.act hstep
  | take outcome => exact h.take hstep
  | answer i => exact h.answer hstep horder

theorem boot_eq_ok {stored : Option Utf16} {readOnly narrow : Bool} {pageId : Option Utf16} {t : Tab}
    (h : boot stored readOnly pageId narrow = .ok t) :
    ∃ loaded, loadDashboardConfiguration stored dashboardMigrationPath = .ok loaded ∧
      t = start stored loaded.document readOnly pageId narrow := by
  obtain ⟨loaded, hload, -⟩ := exists_loaded stored dashboardMigrationPath
  rw [boot, hload] at h
  cases h
  exact ⟨loaded, hload, rfl⟩

theorem Holds.start {stored : Option Utf16} {loaded : LoadedConfiguration}
    (hload : loadDashboardConfiguration stored dashboardMigrationPath = .ok loaded) (readOnly : Bool)
    (pageId : Option Utf16) (narrow : Bool) :
    Holds stored loaded.document (Tab.start stored loaded.document readOnly pageId narrow) := by
  obtain ⟨loaded', hload', hformed⟩ := exists_loaded stored dashboardMigrationPath
  obtain rfl : loaded' = loaded := Except.ok.inj (hload'.symm.trans hload)
  refine ⟨?_, ?_, ?_, SessionFormed.render ?_⟩
  · rw [Tab.start, client_render]
    exact Sound.start _ _
  · rw [document, Tab.start, client_render]
    exact hformed
  · rw [Tab.start, client_render]
    exact fun _ h => absurd h List.not_mem_nil
  · intro editor heditor
    cases heditor

/-- What is stored is what the tab renders, and it has every saved edit that no later one wrote over. -/
def Kept (t : Tab) : Prop :=
  ∃ loaded, loadDashboardConfiguration t.client.stored dashboardMigrationPath = .ok loaded ∧
    loaded.document = t.document ∧
    Reflects look Request.writes loaded.document (acceptedChanges SaveOutcome.isSaved t.client)

end Runs

/-- In a run whose answers all come in order, nothing is lost once every save is answered. -/
theorem no_edit_lost (tables : UnicodeTables) {stored : Option Utf16} {readOnly narrow : Bool}
    {pageId : Option Utf16} {opened t : Tab} {events : List Event}
    (hboot : boot stored readOnly pageId narrow = .ok opened)
    (horder : ∀ before event after, events = before ++ event :: after →
      ∀ s, Stepping.run (step tables) opened before = some s → s.InOrder event)
    (hrun : Stepping.run (step tables) opened events = some t) (hall : AllAnswered t.client) : t.Kept := by
  obtain ⟨first, hfirst, rfl⟩ := boot_eq_ok hboot
  have hholds := Stepping.run_invariant_of_forall (fun _ _ _ h ok hstep => Holds.step h ok hstep)
    (Holds.start hfirst readOnly pageId narrow) horder hrun
  obtain ⟨hreflects, hsame⟩ := hholds.sound.settled hall
  rcases hsame with ⟨hshown, hstored⟩ | hstored
  · refine ⟨first, hstored ▸ hfirst, hshown.symm, ?_⟩
    rw [← hshown]
    exact hreflects
  · refine ⟨⟨t.document, false, none, false⟩, ?_, rfl, hreflects⟩
    rw [hstored]
    exact load_serialize hholds.formed

/-- With no save sent behind another, every answer comes in order. -/
theorem inOrder_of_alone {t : Tab} (h : ∀ write ∈ t.client.writes, write.behind = []) (event : Event) :
    t.InOrder event := by
  cases event with
  | act action => trivial
  | take outcome => trivial
  | answer i =>
    intro write hwrite _ k hk
    rw [h write (List.mem_of_getElem? hwrite)] at hk
    cases hk

def saved : SaveOutcome := ⟨.saved, false⟩

theorem no_edit_lost_of_two : ∃ opened t, boot none false none false = .ok opened ∧
    Stepping.run (step asciiTables) opened
        [.act (.chooseSource [] (utf16 "all")), .take saved, .answer 0, .act (.rename (utf16 "Home")),
          .take saved, .answer 1] = some t ∧
      AllAnswered t.client ∧ t.Kept := by
  let opened := start none defaultDashboardDocument false none false
  let events : List Event := [.act (.chooseSource [] (utf16 "all")), .take saved, .answer 0,
    .act (.rename (utf16 "Home")), .take saved, .answer 1]
  have hanswered : (Stepping.run (step asciiTables) opened events).any (fun t =>
      t.client.writes.all fun write => write.progress.isAnswered) = true := by decide +kernel
  have halone : ∀ n < 6, (Stepping.run (step asciiTables) opened (events.take n)).all (fun s =>
      s.client.writes.all fun write => decide (write.behind = [])) = true := by decide +kernel
  obtain ⟨t, hrun, hall⟩ := (Option.any_eq_true _ _).mp hanswered
  have hall' : AllAnswered t.client := List.all_eq_true.mp hall
  have hboot : boot none false none false = .ok opened := rfl
  refine ⟨opened, t, hboot, hrun, hall', no_edit_lost asciiTables hboot ?_ hrun hall'⟩
  intro before event after hsplit s hs
  apply inOrder_of_alone
  have hlength : before.length < 6 := by
    have := congrArg List.length hsplit
    simp only [List.length_append, List.length_cons] at this
    change 6 = _ at this
    omega
  have hbefore : events.take before.length = before := by
    rw [show events = before ++ event :: after from hsplit, List.take_left]
  have halone' := halone before.length hlength
  rw [hbefore, hs] at halone'
  intro write hwrite
  exact of_decide_eq_true (List.all_eq_true.mp halone' write hwrite)

/-- The page is renamed while its source is saved, from a document that does not have the source. -/
theorem source_lost_to_rename : ∃ opened t, boot none false none false = .ok opened ∧
    Stepping.run (step asciiTables) opened
        [.act (.chooseSource [] (utf16 "all")), .act (.rename (utf16 "Home")), .take saved, .take saved,
          .answer 0, .answer 1] = some t ∧
      AllAnswered t.client ∧ ¬t.Kept := by
  let opened := start none defaultDashboardDocument false none false
  let source : PageChange := .pointed (utf16 "overview") (some .all)
  let name : PageChange := .renamed (utf16 "overview") (utf16 "Home")
  have hchecked : (Stepping.run (step asciiTables) opened
      [.act (.chooseSource [] (utf16 "all")), .act (.rename (utf16 "Home")), .take saved, .take saved,
        .answer 0, .answer 1]).any (fun t =>
      decide ((acceptedChanges SaveOutcome.isSaved t.client 0).map Request.change = some source) &&
      decide ((acceptedChanges SaveOutcome.isSaved t.client 1).map Request.change = some name) &&
      decide (t.client.writes.length = 2) && (t.client.writes.all fun write => write.progress.isAnswered) &&
      decide (look t.document (utf16 "overview", .source) = some (.source none))) = true := by decide +kernel
  obtain ⟨t, hrun, hfacts⟩ := (Option.any_eq_true _ _).mp hchecked
  simp only [Bool.and_eq_true, decide_eq_true_eq] at hfacts
  obtain ⟨⟨⟨⟨hsource, hname⟩, hlength⟩, hall⟩, hlook⟩ := hfacts
  refine ⟨opened, t, rfl, hrun, List.all_eq_true.mp hall, ?_⟩
  rintro ⟨loaded, -, hdocument, hreflects⟩
  obtain ⟨first, hfirst, hchange⟩ := Option.map_eq_some_iff.mp hsource
  have hwritten : first.writes (utf16 "overview", .source) = some (some (.source (some .all))) := by
    rw [Request.writes, hchange]
    decide
  have hkept := hreflects 0 first (utf16 "overview", .source) _ hfirst hwritten ?_
  · rw [hdocument, hlook] at hkept
    cases hkept
  · intro j later hj hlater
    obtain ⟨write, hwrite, -⟩ := acceptedChanges_eq_some.mp hlater
    have hj' : j = 1 := by
      have := (List.getElem?_eq_some_iff.mp hwrite).1
      omega
    rw [hj'] at hlater
    rw [hlater] at hname
    rw [Request.writes, Option.some.inj hname]
    decide

end Tab

end SparkDashboard.Dashboard
