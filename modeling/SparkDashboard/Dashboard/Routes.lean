import SparkDashboard.Dashboard.Pages
import SparkDashboard.Library.UriComponent

/-!
# Routes

Which view a path names and what a page's URL is. Only the id matches; the slug after it
is ignored on the way in.
-/

namespace SparkDashboard.Dashboard

open Utf16 UriComponent

inductive Route where
  /-- Whichever page the configuration lists first. -/
  | firstPage
  | page (pageId : Utf16)
  deriving DecidableEq

def segments (pathname : Utf16) : List Utf16 := (pathname.splitOn 0x2F).filter fun segment => decide (segment ≠ [])

def pageSegment (pathname : Utf16) : Option Utf16 :=
  if (segments pathname)[0]? = some (utf16 "pages") then
    (segments pathname)[1]?.filter fun segment => decide (segment ≠ [])
  else none

def parseRoute (pathname : Utf16) : Except URIError Route :=
  match pageSegment pathname with
  | some segment => (decodeURIComponent segment).map .page
  | none => .ok .firstPage

/-- The slug is left out where it adds nothing. -/
def pagePath (tables : UnicodeTables) (page : DashboardPage) : Except URIError Utf16 :=
  (encodeURIComponent page.id).map fun component =>
    let base := utf16 "/pages/" ++ component
    let slug := pageSlug tables page.name
    if slug ≠ [] ∧ slug ≠ page.id then base ++ 0x2F :: slug else base

section Segments

theorem segments_slash (rest : Utf16) : segments (0x2F :: rest) = segments rest := by
  have hsplit : ([] ++ 0x2F :: rest).splitOn 0x2F = [] :: rest.splitOn 0x2F :=
    List.splitOn_append_cons_self_of_not_mem (by simp) rest
  rw [List.nil_append] at hsplit
  rw [segments, hsplit, List.filter_cons]
  rfl

theorem segments_append_slash {segment : Utf16} (hne : segment ≠ []) (hslash : 0x2F ∉ segment) (rest : Utf16) :
    segments (segment ++ 0x2F :: rest) = segment :: segments rest := by
  rw [segments, List.splitOn_append_cons_self_of_not_mem hslash, List.filter_cons, if_pos (decide_eq_true hne)]
  rfl

theorem segments_segment {segment : Utf16} (hne : segment ≠ []) (hslash : 0x2F ∉ segment) :
    segments segment = [segment] := by
  rw [segments, List.splitOn_eq_singleton hslash, List.filter_cons, if_pos (decide_eq_true hne)]
  rfl

theorem segments_pages (rest : Utf16) : segments (utf16 "/pages/" ++ rest) = utf16 "pages" :: segments rest := by
  have hsplit : utf16 "/pages/" ++ rest = 0x2F :: (utf16 "pages" ++ 0x2F :: rest) := rfl
  rw [hsplit, segments_slash, segments_append_slash (by decide) (by decide)]

theorem pageSegment_of_segments {pathname segment : Utf16} {rest : List Utf16} (hne : segment ≠ [])
    (h : segments pathname = utf16 "pages" :: segment :: rest) : pageSegment pathname = some segment := by
  rw [pageSegment, h, List.getElem?_cons_zero, if_pos rfl, List.getElem?_cons_succ, List.getElem?_cons_zero,
    Option.filter_some, if_pos (decide_eq_true hne)]

end Segments

section PageUrls

theorem parseRoute_pagePath (tables : UnicodeTables) {page : DashboardPage} (hid : page.id ≠ [])
    (hwell : IsWellFormed page.id) :
    ∃ path, pagePath tables page = .ok path ∧ parseRoute path = .ok (.page page.id) := by
  obtain ⟨component, hencode, hdecode, hcomponent, hslash⟩ := decodeURIComponent_encodeURIComponent hwell hid
  have hparse : ∀ {path : Utf16} {rest : List Utf16},
      segments path = utf16 "pages" :: component :: rest → parseRoute path = .ok (.page page.id) := by
    intro path rest hsegments
    rw [parseRoute, pageSegment_of_segments hcomponent hsegments]
    simp only [hdecode]
    rfl
  rw [pagePath, hencode]
  refine ⟨_, rfl, ?_⟩
  simp only
  split
  · rw [List.append_assoc]
    apply hparse
    rw [segments_pages, segments_append_slash hcomponent hslash]
  · apply hparse
    rw [segments_pages, segments_segment hcomponent hslash]

def renamePages (document : DashboardDocument) (renames : List (Utf16 × Utf16)) : DashboardDocument :=
  renames.foldl (fun document rename => renamePage document rename.1 rename.2) document

theorem map_id_renamePages (document : DashboardDocument) (renames : List (Utf16 × Utf16)) :
    (renamePages document renames).pages.map DashboardPage.id = document.pages.map DashboardPage.id := by
  induction renames generalizing document with
  | nil => rfl
  | cons rename renames ih =>
    rw [renamePages, List.foldl_cons, ← renamePages, ih, map_id_renamePage]

/-- After any renames each page's path still leads to it. -/
theorem parseRoute_pagePath_renamePages (tables : UnicodeTables) (document : DashboardDocument)
    (renames : List (Utf16 × Utf16)) {position : Nat} {page : DashboardPage}
    (hpage : document.pages[position]? = some page) (hid : page.id ≠ []) (hwell : IsWellFormed page.id) :
    ∃ renamed path, (renamePages document renames).pages[position]? = some renamed ∧
      pagePath tables renamed = .ok path ∧ parseRoute path = .ok (.page page.id) := by
  have hids := congrArg (·[position]?) (map_id_renamePages document renames)
  simp only [List.getElem?_map, hpage, Option.map_some, Option.map_eq_some_iff] at hids
  obtain ⟨renamed, hrenamed, hsame⟩ := hids
  rw [← hsame] at hid hwell
  obtain ⟨path, hpath, hparse⟩ := parseRoute_pagePath tables hid hwell
  rw [hsame] at hparse
  exact ⟨renamed, path, hrenamed, hpath, hparse⟩

/-- An id with a slash and a space in it, on a page called by two names since. -/
theorem parseRoute_pagePath_renamePages_slashed :
    ∃ renamed path, (renamePages ⟨.ofNat 2, [⟨utf16 "a/b c", utf16 "GPU", none, []⟩]⟩
        [(utf16 "a/b c", utf16 "50% idle"), (utf16 "a/b c", utf16 "Night")]).pages[0]? = some renamed ∧
      pagePath asciiTables renamed = .ok path ∧ parseRoute path = .ok (.page (utf16 "a/b c")) :=
  have hpage : (⟨.ofNat 2, [⟨utf16 "a/b c", utf16 "GPU", none, []⟩]⟩ : DashboardDocument).pages[0]? =
      some ⟨utf16 "a/b c", utf16 "GPU", none, []⟩ := rfl
  parseRoute_pagePath_renamePages asciiTables _ _ hpage (by decide) ⟨"a/b c".toList, by decide⟩

end PageUrls

section Malformed

theorem parseRoute_of_pageSegment {pathname segment : Utf16} (h : pageSegment pathname = some segment) :
    parseRoute pathname = (decodeURIComponent segment).map .page := by
  rw [parseRoute, h]

/-- A path is a route unless the segment of a page has an escape that spells nothing. -/
theorem parseRoute_total_iff (pathname : Utf16) :
    (∃ route, parseRoute pathname = .ok route ∧
        ∀ segment, pageSegment pathname = some segment → ¬ WellEscaped segment → route = .firstPage) ↔
      ∀ segment, pageSegment pathname = some segment → WellEscaped segment := by
  constructor
  · rintro ⟨route, hroute, -⟩ segment hsegment
    rw [parseRoute_of_pageSegment hsegment] at hroute
    obtain ⟨pageId, hdecode, -⟩ := map_eq_ok_iff.mp hroute
    exact ⟨pageId, decodeURIComponent_eq_ok_iff.mp hdecode⟩
  · intro hwell
    cases hsegment : pageSegment pathname with
    | none =>
      refine ⟨.firstPage, ?_, fun _ _ _ => rfl⟩
      rw [parseRoute, hsegment]
    | some segment =>
      obtain ⟨pageId, hescaped⟩ := hwell segment hsegment
      refine ⟨.page pageId, ?_, ?_⟩
      · rw [parseRoute_of_pageSegment hsegment, decodeURIComponent_of_escaped hescaped]
        rfl
      · rintro segment' hsegment' hnot
        cases hsegment'
        exact absurd ⟨pageId, hescaped⟩ hnot

theorem parseRoute_percent_alone : ¬ ∃ route, parseRoute (utf16 "/pages/100%") = .ok route := by
  have hsegment : pageSegment (utf16 "/pages/100%") = some (utf16 "100%") := by decide
  rintro ⟨route, hroute⟩
  rw [parseRoute_of_pageSegment hsegment] at hroute
  cases hroute

end Malformed

end SparkDashboard.Dashboard
