import SparkDashboard.Dashboard.Closure
import SparkDashboard.Library.Stepping

/-!
# Page ids over a session

A new page's id is one no page of the document has. Over a run that is no law: the id of a
page that was deleted is free again.
-/

namespace SparkDashboard.Dashboard

open Utf16 FreshName Stepping

def pageIds (document : DashboardDocument) : List Utf16 := document.pages.map DashboardPage.id

def addedId (tables : UnicodeTables) (document : DashboardDocument) : Edit → Option Utf16
  | .addPage name => some (addPage tables document name).pageId
  | .addPageFrom layout _ => some (addPageFrom tables document layout).pageId
  | _ => none

def addedName (document : DashboardDocument) : Edit → Option Utf16
  | .addPage name =>
    let trimmed := trim (name.getD [])
    some (if trimmed = [] then unusedPageName document.pages else trimmed)
  | .addPageFrom layout _ => some (unusedNameFrom document.pages layout.name)
  | _ => none

def edited (tables : UnicodeTables) (document : DashboardDocument) (edits : List Edit) : DashboardDocument :=
  edits.foldl (edit tables) document

/-- The edit throws out a page the document has. -/
structure Deletes (document : DashboardDocument) (e : Edit) (id : Utf16) : Prop where
  asked : e = .removePage id
  present : id ∈ pageIds document
  notLast : 1 < document.pages.length

/-- A page of this name is called by the id, among these, or would be were it free. -/
def Makes (tables : UnicodeTables) (ids : List Utf16) (name id : Utf16) : Prop :=
  let base := if pageSlug tables name = [] then utf16 "page" else pageSlug tables name
  id = base ∨ base ∈ ids ∧ ∃ n, 2 ≤ n ∧ id = numbered base n ∧ ∀ m, 2 ≤ m → m < n → numbered base m ∈ ids

/-- No page added in a run is called as a page was that the document had before. -/
def NeverReused (tables : UnicodeTables) (document : DashboardDocument) (edits : List Edit) : Prop :=
  ∀ before e after, edits = before ++ e :: after →
    ∀ id, addedId tables (edited tables document before) e = some id →
      ∀ earlier, earlier <+: before → id ∉ pageIds (edited tables document earlier)

section OneEdit

variable (tables : UnicodeTables)

theorem unusedPageId_eq_iff {pages : List DashboardPage} {name id : Utf16} :
    unusedPageId tables pages name = id ↔
      id ∉ pages.map DashboardPage.id ∧ Makes tables (pages.map DashboardPage.id) name id :=
  freshOr_eq_iff (numbered_injective _)

theorem addedId_eq (document : DashboardDocument) (e : Edit) :
    addedId tables document e = (addedName document e).map (unusedPageId tables document.pages) := by
  cases e <;> rfl

theorem pageIds_appended (document : DashboardDocument) (name : Utf16) (panels : List DashboardPanel) :
    pageIds (appended tables document name panels).document =
      pageIds document ++ [(appended tables document name panels).pageId] := by
  simp only [pageIds, appended, List.map_append, List.map_singleton]

theorem pageIds_removePage (document : DashboardDocument) (pageId : Utf16) :
    pageIds (edit tables document (.removePage pageId)) =
      if 1 < document.pages.length then (pageIds document).filter fun id => decide (id ≠ pageId)
      else pageIds document := by
  rw [edit, removePage]
  by_cases hlast : document.pages.length ≤ 1
  · rw [if_pos hlast, if_neg (Nat.not_lt.mpr hlast)]
  · rw [if_neg hlast, if_pos (Nat.not_le.mp hlast), pageIds, pageIds, List.filter_map]
    rfl

/-- What an edit does to the ids: a page is added, deleted, or all stay. -/
theorem mem_pageIds_edit (document : DashboardDocument) (e : Edit) (id : Utf16) :
    id ∈ pageIds (edit tables document e) ↔
      id ∈ pageIds document ∧ ¬ Deletes document e id ∨ addedId tables document e = some id := by
  have hkept : ∀ {e : Edit}, (∀ id, e ≠ .removePage id) → addedId tables document e = none →
      pageIds (edit tables document e) = pageIds document →
        (id ∈ pageIds (edit tables document e) ↔
          id ∈ pageIds document ∧ ¬ Deletes document e id ∨ addedId tables document e = some id) := by
    intro e hnot hnone hsame
    rw [hsame, hnone]
    constructor
    · exact fun hid => .inl ⟨hid, fun hdeletes => hnot id hdeletes.asked⟩
    · rintro (⟨hid, -⟩ | hnone)
      · exact hid
      · cases hnone
  have hadded : ∀ {e : Edit} {name : Utf16} {panels : List DashboardPanel}, (∀ id, e ≠ .removePage id) →
      edit tables document e = (appended tables document name panels).document →
      addedId tables document e = some (appended tables document name panels).pageId →
        (id ∈ pageIds (edit tables document e) ↔
          id ∈ pageIds document ∧ ¬ Deletes document e id ∨ addedId tables document e = some id) := by
    intro e name panels hnot hedit hid
    rw [hedit, hid, pageIds_appended, List.mem_append, List.mem_singleton, Option.some.injEq, eq_comm (a := id)]
    exact or_congr_left (iff_self_and.mpr fun _ hdeletes => hnot id hdeletes.asked)
  cases e with
  | addPage name => exact hadded (by simp) rfl rfl
  | addPageFrom layout shipped => exact hadded (by simp) rfl rfl
  | renamePage pageId name => exact hkept (by simp) rfl (map_id_renamePage document pageId name)
  | setPageSource pageId choice => exact hkept (by simp) rfl (map_id_setPageSource document pageId _)
  | savePanels pageId edits =>
    apply hkept (by simp) rfl
    simp only [edit]
    split
    · rfl
    · exact map_id_mapPage document pageId fun _ => rfl
  | removePage pageId =>
    rw [pageIds_removePage]
    simp only [addedId, reduceCtorEq, or_false]
    split
    · rename_i hmany
      rw [List.mem_filter, decide_eq_true_eq]
      refine and_congr_right fun hid => not_congr ⟨?_, ?_⟩
      · rintro rfl
        exact ⟨rfl, hid, hmany⟩
      · intro hdeletes
        cases hdeletes.asked
        rfl
    · rename_i hlast
      exact iff_self_and.mpr fun _ hdeletes => hlast hdeletes.notLast

end OneEdit

section Runs

variable {tables : UnicodeTables} {document : DashboardDocument}

theorem edited_append (tables : UnicodeTables) (document : DashboardDocument) (first rest : List Edit) :
    edited tables document (first ++ rest) = edited tables (edited tables document first) rest :=
  List.foldl_append

theorem edited_concat (tables : UnicodeTables) (document : DashboardDocument) (first : List Edit) (e : Edit) :
    edited tables document (first ++ [e]) = edit tables (edited tables document first) e :=
  edited_append tables document first [e]

theorem exists_deletes {edits : List Edit} {id : Utf16} (h : id ∈ pageIds document)
    (hgone : id ∉ pageIds (edited tables document edits)) :
    ∃ first e rest, edits = first ++ e :: rest ∧ Deletes (edited tables document first) e id := by
  obtain ⟨first, e, rest, hsplit, hbefore, hafter⟩ :=
    exists_lost (P := fun document => id ∈ pageIds document) h hgone
  refine ⟨first, e, rest, hsplit, ?_⟩
  by_contra hnot
  exact hafter ((mem_pageIds_edit tables _ e id).mpr (.inl ⟨hbefore, hnot⟩))

theorem exists_added {edits : List Edit} {id : Utf16} (h : id ∉ pageIds document)
    (hcome : id ∈ pageIds (edited tables document edits)) :
    ∃ first e rest, edits = first ++ e :: rest ∧ addedId tables (edited tables document first) e = some id := by
  obtain ⟨first, e, rest, hsplit, hbefore, hafter⟩ :=
    exists_lost (P := fun document => id ∉ pageIds document) h (not_not_intro hcome)
  exact ⟨first, e, rest, hsplit,
    ((mem_pageIds_edit tables _ e id).mp (not_not.mp hafter)).resolve_left fun hkept => hbefore hkept.1⟩

/-- An id that was deleted and is there again was an added page's in between. -/
theorem exists_added_after {first rest : List Edit} {deletion : Edit} {id : Utf16}
    (hdeletes : Deletes (edited tables document first) deletion id)
    (hcurrent : id ∈ pageIds (edited tables document (first ++ deletion :: rest))) :
    ∃ middle addition later, rest = middle ++ addition :: later ∧
      addedId tables (edited tables document (first ++ [deletion] ++ middle)) addition = some id := by
  have hgone : id ∉ pageIds (edited tables document (first ++ [deletion])) := by
    rw [edited_concat, mem_pageIds_edit]
    rintro (⟨-, hnot⟩ | hadded)
    · exact hnot hdeletes
    · rw [hdeletes.asked] at hadded
      cases hadded
  rw [List.append_cons, edited_append] at hcurrent
  obtain ⟨middle, addition, later, hrest, hadded⟩ := exists_added hgone hcurrent
  rw [← edited_append] at hadded
  exact ⟨middle, addition, later, hrest, hadded⟩

/-- No id comes back if and only if no page is added whose name makes a deleted page's id. -/
theorem neverReused_iff (tables : UnicodeTables) (document : DashboardDocument) (edits : List Edit) :
    NeverReused tables document edits ↔
      ∀ before e after, edits = before ++ e :: after →
        ∀ name, addedName (edited tables document before) e = some name →
          ∀ first deletion rest, before = first ++ deletion :: rest →
            ∀ id, Deletes (edited tables document first) deletion id →
              ¬ Makes tables (pageIds (edited tables document before)) name id := by
  constructor
  · intro hnever before e after hsplit name hname first deletion rest hbefore id hdeletes hmakes
    have hearlier : id ∈ pageIds (edited tables document first) := hdeletes.present
    have hinitial : first <+: before := ⟨deletion :: rest, hbefore.symm⟩
    by_cases hcurrent : id ∈ pageIds (edited tables document before)
    · rw [hbefore] at hcurrent
      obtain ⟨middle, addition, later, hrest, hadded⟩ := exists_added_after hdeletes hcurrent
      refine hnever (first ++ [deletion] ++ middle) addition (later ++ e :: after) ?_ id hadded first ?_ hearlier
      · rw [hsplit, hbefore, hrest]
        simp only [List.append_assoc, List.cons_append, List.nil_append]
      · rw [List.append_assoc]
        exact List.prefix_append _ _
    · refine hnever before e after hsplit id ?_ first hinitial hearlier
      rw [addedId_eq, hname, Option.map_some, (unusedPageId_eq_iff tables).mpr ⟨hcurrent, hmakes⟩]
  · rintro hcondition before e after hsplit id hadded earlier ⟨rest, hrest⟩ hid
    rw [addedId_eq] at hadded
    obtain ⟨name, hname, hunused⟩ := Option.map_eq_some_iff.mp hadded
    obtain ⟨hfree, hmakes⟩ := (unusedPageId_eq_iff tables).mp hunused
    have hgone : id ∉ pageIds (edited tables (edited tables document earlier) rest) := by
      rw [← edited_append, hrest]
      exact hfree
    obtain ⟨middle, deletion, later, hmiddle, hdeletes⟩ := exists_deletes hid hgone
    rw [← edited_append] at hdeletes
    refine hcondition before e after hsplit name hname (earlier ++ middle) deletion later ?_ id hdeletes hmakes
    rw [← hrest, hmiddle, List.append_assoc]

/-- A page added, deleted and added again by the same name. -/
theorem night_reused :
    ¬ NeverReused asciiTables defaultDashboardDocument
      [.addPage (some (utf16 "Night")), .removePage (utf16 "night"), .addPage (some (utf16 "Night"))] := by
  intro hnever
  exact hnever [.addPage (some (utf16 "Night")), .removePage (utf16 "night")] (.addPage (some (utf16 "Night"))) [] rfl
    (utf16 "night") (by decide +kernel) [.addPage (some (utf16 "Night"))] ⟨[.removePage (utf16 "night")], rfl⟩
    (by decide +kernel)

end Runs

end SparkDashboard.Dashboard
