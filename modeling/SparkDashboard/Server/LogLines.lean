import Mathlib.Data.List.DropRight
import SparkDashboard.Library.Utf8

/-!
# Lines out of log frames

Docker sends a container's output in frames, which end anywhere. Each frame is read as
text by itself and appended to what the last one left unfinished; complete lines go out.
-/

namespace SparkDashboard.Logs

open Stepping Utf8

abbrev Text := List Char

def trimEndMatches (c : Char) (text : Text) : Text := text.rdropWhile (· == c)

/-- The rounds of the loop: the complete lines of a buffer, and what stays in it. -/
def drainLines (buffer : Text) : List Text × Text :=
  match hpos : buffer.findIdx? (· == '\n') with
  | some pos =>
    let more := drainLines (buffer.drop (pos + 1))
    (trimEndMatches '\n' (buffer.take (pos + 1)) :: more.1, more.2)
  | none => ([], buffer)
termination_by buffer.length
decreasing_by
  have hlt := (List.findIdx?_eq_some_iff_getElem.mp hpos).1
  rw [List.length_drop]
  omega

def prefixed (linePrefix : Option Text) (body : Text) : Text :=
  match linePrefix with
  | some p => p ++ body
  | none => body

def bufferLines (linePrefix : Option Text) (buffer : Text) (chunk : List UInt8) : List Text × Text :=
  let drained := drainLines (buffer ++ fromUtf8Lossy chunk)
  (drained.1.map (prefixed linePrefix), drained.2)

/-- The partial last line that is sent when the stream ends. -/
def flushTrailing (linePrefix : Option Text) (buffer : Text) : List Text :=
  if buffer = [] then [] else [prefixed linePrefix buffer]

def sentLines (linePrefix : Option Text) (frames : List (List UInt8)) : List Text :=
  emitted (bufferLines linePrefix) [] frames ++ flushTrailing linePrefix (final (bufferLines linePrefix) [] frames)

theorem lines_induction {P : Text → Prop} (last : ∀ text, '\n' ∉ text → P text)
    (line : ∀ body rest, '\n' ∉ body → P rest → P (body ++ '\n' :: rest)) (text : Text) : P text := by
  induction hlength : text.length using Nat.strong_induction_on generalizing text with
  | _ n ih =>
    by_cases hmem : '\n' ∈ text
    · obtain ⟨body, rest, rfl, hbody⟩ := List.eq_append_cons_of_mem hmem
      apply line body rest hbody
      apply ih rest.length _ rest rfl
      rw [← hlength, List.length_append, List.length_cons]
      omega
    · exact last text hmem

theorem findIdx?_newline_of_not_mem {text : Text} (h : '\n' ∉ text) : text.findIdx? (· == '\n') = none := by
  rw [List.findIdx?_eq_none_iff]
  intro c hc
  exact beq_false_of_ne fun heq => h (heq ▸ hc)

theorem findIdx?_newline {body : Text} (h : '\n' ∉ body) (rest : Text) :
    (body ++ '\n' :: rest).findIdx? (· == '\n') = some body.length := by
  rw [List.findIdx?_append, findIdx?_newline_of_not_mem h, List.findIdx?_cons, beq_self_eq_true,
    if_pos rfl, Option.none_or, Option.map_some, Nat.zero_add]

theorem trimEndMatches_newline {body : Text} (h : '\n' ∉ body) : trimEndMatches '\n' (body ++ ['\n']) = body := by
  have hbody : body.rdropWhile (· == '\n') = body := by
    rw [List.rdropWhile_eq_self_iff]
    intro hne heq
    exact h (beq_iff_eq.mp heq ▸ List.getLast_mem hne)
  rw [trimEndMatches, List.rdropWhile_concat_pos _ _ _ rfl, hbody]

theorem drainLines_of_not_mem {text : Text} (h : '\n' ∉ text) : drainLines text = ([], text) := by
  rw [drainLines]
  split
  · rename_i hpos
    rw [findIdx?_newline_of_not_mem h] at hpos
    cases hpos
  · rfl

theorem drainLines_newline {body : Text} (h : '\n' ∉ body) (rest : Text) :
    drainLines (body ++ '\n' :: rest) = (body :: (drainLines rest).1, (drainLines rest).2) := by
  have hfound := findIdx?_newline h rest
  rw [drainLines]
  split
  · rename_i pos hpos
    rw [hfound] at hpos
    cases hpos
    have hlength : (body ++ ['\n']).length = body.length + 1 := List.length_append
    rw [List.append_cons, List.take_left' hlength, List.drop_left' hlength, trimEndMatches_newline h]
  · rename_i hpos
    rw [hfound] at hpos
    cases hpos

theorem newline_not_mem_left (text : Text) : '\n' ∉ (drainLines text).2 := by
  induction text using lines_induction with
  | last text h =>
    rw [drainLines_of_not_mem h]
    exact h
  | line body rest hbody ih =>
    rw [drainLines_newline hbody]
    exact ih

theorem flatMap_drainLines (text : Text) :
    (drainLines text).1.flatMap (· ++ ['\n']) ++ (drainLines text).2 = text := by
  induction text using lines_induction with
  | last text h =>
    rw [drainLines_of_not_mem h]
    rfl
  | line body rest hbody ih =>
    rw [drainLines_newline hbody, List.flatMap_cons, List.append_assoc, ih, List.append_assoc]
    rfl

theorem length_drainLines (text : Text) : (drainLines text).1.length = text.count '\n' := by
  induction text using lines_induction with
  | last text h =>
    rw [drainLines_of_not_mem h]
    exact (List.count_eq_zero.mpr h).symm
  | line body rest hbody ih =>
    rw [drainLines_newline hbody, List.length_cons, ih, List.count_append, List.count_eq_zero.mpr hbody,
      List.count_cons_self, Nat.zero_add]

theorem drainLines_append (first second : Text) :
    drainLines (first ++ second) =
      ((drainLines first).1 ++ (drainLines ((drainLines first).2 ++ second)).1,
        (drainLines ((drainLines first).2 ++ second)).2) := by
  induction first using lines_induction with
  | last text h =>
    rw [drainLines_of_not_mem h]
    rfl
  | line body rest hbody ih =>
    rw [List.append_assoc, List.cons_append, drainLines_newline hbody, drainLines_newline hbody, ih]
    rfl

def linesOf (text : Text) : List Text :=
  (drainLines text).1 ++ if (drainLines text).2 = [] then [] else [(drainLines text).2]

/-- Texts with as many newlines and the same lines are the same. -/
theorem eq_of_linesOf_eq {first second : Text} (hcount : first.count '\n' = second.count '\n')
    (h : linesOf first = linesOf second) : first = second := by
  have hlength : (drainLines first).1.length = (drainLines second).1.length := by
    rw [length_drainLines, length_drainLines, hcount]
  obtain ⟨hlines, hlast⟩ := List.append_inj h hlength
  have hleft : (drainLines first).2 = (drainLines second).2 := by
    split at hlast
    · rename_i hfirst
      split at hlast
      · rename_i hsecond
        rw [hfirst, hsecond]
      · cases hlast
    · split at hlast
      · cases hlast
      · exact (List.cons.inj hlast).1
  rw [← flatMap_drainLines first, hlines, hleft, flatMap_drainLines]

section Frames

variable (linePrefix : Option Text)

theorem prefixed_injective : Function.Injective (prefixed linePrefix) := by
  cases linePrefix with
  | none => exact Function.injective_id
  | some p =>
    intro first second h
    exact List.append_cancel_left h

theorem bufferLines_frames (frames : List (List UInt8)) {buffer : Text} (h : '\n' ∉ buffer) :
    emitted (bufferLines linePrefix) buffer frames =
        (drainLines (buffer ++ frames.flatMap fromUtf8Lossy)).1.map (prefixed linePrefix) ∧
      final (bufferLines linePrefix) buffer frames = (drainLines (buffer ++ frames.flatMap fromUtf8Lossy)).2 := by
  induction frames generalizing buffer with
  | nil =>
    rw [List.flatMap_nil, List.append_nil, drainLines_of_not_mem h]
    exact ⟨rfl, rfl⟩
  | cons frame frames ih =>
    obtain ⟨hemitted, hfinal⟩ := ih (newline_not_mem_left (buffer ++ fromUtf8Lossy frame))
    rw [List.flatMap_cons, ← List.append_assoc, drainLines_append, List.map_append, emitted_cons, final_cons]
    exact ⟨congrArg _ hemitted, hfinal⟩

theorem sentLines_eq (frames : List (List UInt8)) :
    sentLines linePrefix frames = (linesOf (frames.flatMap fromUtf8Lossy)).map (prefixed linePrefix) := by
  obtain ⟨hemitted, hfinal⟩ := bufferLines_frames linePrefix frames (List.not_mem_nil (a := '\n'))
  rw [List.nil_append] at hemitted hfinal
  rw [sentLines, hemitted, hfinal, linesOf, List.map_append, flushTrailing]
  congr 1
  split
  · rfl
  · rfl

end Frames

theorem count_newline_fromUtf8Lossy (octets : List UInt8) :
    (fromUtf8Lossy octets).count '\n' = octets.count 0x0A := by
  have hdecode : code.decode [0x0A] = some '\n' := by decide
  have honly : ∀ word, code.decode word = some '\n' → word = [0x0A] := by
    intro word hword
    change decodeChar word = some '\n' at hword
    rw [decodeChar_eq_some_iff.mp hword]
    decide
  exact code.count_lossy hdecode honly (by decide) octets

/-- The octets before a cut end inside a character that the octets after it go on with. -/
def CutsCharacter (before after : List UInt8) : Prop :=
  ∃ begun b, ∃ c : Char, begun ≠ [] ∧ begun <:+ before ∧ after.head? = some b ∧
    begun ++ [b] <+: String.utf8EncodeChar c

theorem cutsCharacter_iff {before after : List UInt8} : CutsCharacter before after ↔ code.Splits before after := by
  constructor
  · rintro ⟨begun, b, c, hne, hsuffix, hhead, hinitial⟩
    exact ⟨begun, b, hne, hsuffix, hhead, begins_iff.mpr ⟨by simp, c, hinitial⟩⟩
  · rintro ⟨begun, b, hne, hsuffix, hhead, hbegins⟩
    obtain ⟨-, c, hinitial⟩ := begins_iff.mp hbegins
    exact ⟨begun, b, c, hne, hsuffix, hhead, hinitial⟩

theorem sentLines_eq_iff (linePrefix : Option Text) (frames : List (List UInt8)) :
    sentLines linePrefix frames = sentLines linePrefix [frames.flatten] ↔
      frames.flatMap fromUtf8Lossy = fromUtf8Lossy frames.flatten := by
  have hcount : (frames.flatMap fromUtf8Lossy).count '\n' = (fromUtf8Lossy frames.flatten).count '\n' := by
    rw [count_newline_fromUtf8Lossy, List.count_flatMap, List.count_flatten]
    congr 1
    exact List.map_congr_left fun frame _ => count_newline_fromUtf8Lossy frame
  rw [sentLines_eq, sentLines_eq, List.flatMap_singleton]
  constructor
  · intro h
    exact eq_of_linesOf_eq hcount ((List.map_injective_iff.mpr (prefixed_injective linePrefix)) h)
  · intro h
    rw [h]

/-- Frames give the lines of the whole stream exactly if none of them ends inside a character. -/
theorem sentLines_whole_iff (linePrefix : Option Text) (frames : List (List UInt8)) :
    sentLines linePrefix frames = sentLines linePrefix [frames.flatten] ↔
      ∀ earlier later, frames = earlier ++ later → ¬ CutsCharacter earlier.flatten later.flatten := by
  rw [sentLines_eq_iff]
  simp only [cutsCharacter_iff]
  exact code.flatMap_lossy_eq_iff frames

/-- One character in two frames is read as two replacements. -/
theorem character_lost_between_frames :
    ¬ ∀ (linePrefix : Option Text) (frames : List (List UInt8)),
      sentLines linePrefix frames = sentLines linePrefix [frames.flatten] := by
  intro h
  have htext := (sentLines_eq_iff none [[0xC3], [0xA9]]).mp (h none _)
  exact absurd htext (by decide)

end SparkDashboard.Logs
