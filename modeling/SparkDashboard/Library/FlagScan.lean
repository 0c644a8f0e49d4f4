import Mathlib.Logic.Function.Basic

/-!
# Flags and their values, scanned from the left

A token that is recognised names a key; its value stands in it, or is the token after it.
The last value of a key stays.
-/

namespace SparkDashboard.Library.FlagScan

universe u v

variable {α : Type u} {κ : Type v}

/-- Reading each flag together with its value, one comes to what is left. -/
inductive FlagPosition (recognise : α → Option (κ × Option α)) : List α → List α → Prop
  | here (tokens : List α) : FlagPosition recognise tokens tokens
  | skip {token : α} {rest left : List α} (htoken : recognise token = none)
      (h : FlagPosition recognise rest left) : FlagPosition recognise (token :: rest) left
  | inline {token value : α} {key : κ} {rest left : List α} (htoken : recognise token = some (key, some value))
      (h : FlagPosition recognise rest left) : FlagPosition recognise (token :: rest) left
  | pair {token value : α} {key : κ} {rest left : List α} (htoken : recognise token = some (key, none))
      (h : FlagPosition recognise rest left) : FlagPosition recognise (token :: value :: rest) left

/-- The last token is a flag whose value is still to come. -/
def Awaiting (recognise : α → Option (κ × Option α)) (tokens : List α) : Prop :=
  ∃ token key, FlagPosition recognise tokens [token] ∧ recognise token = some (key, none)

/-- A flag for the key stands at a flag position. -/
def Occurs (recognise : α → Option (κ × Option α)) (key : κ) (tokens : List α) : Prop :=
  ∃ token rest inline, FlagPosition recognise tokens (token :: rest) ∧ recognise token = some (key, inline)

variable {recognise : α → Option (κ × Option α)} {token value : α} {key : κ} {rest tokens : List α}

theorem awaiting_of_last (h : recognise token = some (key, none)) : Awaiting recognise [token] :=
  ⟨token, key, .here _, h⟩

theorem Awaiting.mono (hpos : ∀ left, FlagPosition recognise rest left → FlagPosition recognise tokens left)
    (h : Awaiting recognise rest) : Awaiting recognise tokens := by
  obtain ⟨token, key, hleft, htoken⟩ := h
  exact ⟨token, key, hpos _ hleft, htoken⟩

theorem Occurs.mono (hpos : ∀ left, FlagPosition recognise rest left → FlagPosition recognise tokens left)
    (h : Occurs recognise key rest) : Occurs recognise key tokens := by
  obtain ⟨token, left, inline, hleft, htoken⟩ := h
  exact ⟨token, left, inline, hpos _ hleft, htoken⟩

variable [DecidableEq κ]

def scan (recognise : α → Option (κ × Option α)) (values : κ → Option α) : List α → κ → Option α
  | [] => values
  | token :: rest =>
    match recognise token with
    | none => scan recognise values rest
    | some (key, some value) => scan recognise (Function.update values key (some value)) rest
    | some (key, none) =>
      match rest with
      | value :: rest => scan recognise (Function.update values key (some value)) rest
      | [] => values

variable {values : κ → Option α} {other : κ} {more : List α}

theorem scan_skip (h : recognise token = none) :
    scan recognise values (token :: rest) = scan recognise values rest := by
  rw [scan, h]

theorem scan_inline (h : recognise token = some (key, some value)) :
    scan recognise values (token :: rest) = scan recognise (Function.update values key (some value)) rest := by
  rw [scan, h]

theorem scan_pair (h : recognise token = some (key, none)) :
    scan recognise values (token :: value :: rest) = scan recognise (Function.update values key (some value)) rest := by
  rw [scan, h]

theorem scan_append (h : ¬Awaiting recognise tokens) :
    scan recognise values (tokens ++ more) = scan recognise (scan recognise values tokens) more := by
  fun_induction scan recognise values tokens with
  | case1 => rfl
  | case2 values token rest htoken ih =>
    rw [List.cons_append, scan_skip htoken]
    exact ih fun hrest => h (hrest.mono fun _ => .skip htoken)
  | case3 values token rest key value htoken ih =>
    rw [List.cons_append, scan_inline htoken]
    exact ih fun hrest => h (hrest.mono fun _ => .inline htoken)
  | case4 values token key htoken value rest ih =>
    rw [List.cons_append, List.cons_append, scan_pair htoken]
    exact ih fun hrest => h (hrest.mono fun _ => .pair htoken)
  | case5 values token key htoken => exact absurd (awaiting_of_last htoken) h

theorem scan_of_not_occurs (h : ¬Occurs recognise other tokens) : scan recognise values tokens other = values other := by
  fun_induction scan recognise values tokens with
  | case1 => rfl
  | case2 values token rest htoken ih => exact ih fun hrest => h (hrest.mono fun _ => .skip htoken)
  | case3 values token rest key value htoken ih =>
    have hne : other ≠ key := by
      rintro rfl
      exact h ⟨token, rest, some value, .here _, htoken⟩
    rw [ih fun hrest => h (hrest.mono fun _ => .inline htoken), Function.update_of_ne hne]
  | case4 values token key htoken value rest ih =>
    have hne : other ≠ key := by
      rintro rfl
      exact h ⟨token, value :: rest, none, .here _, htoken⟩
    rw [ih fun hrest => h (hrest.mono fun _ => .pair htoken), Function.update_of_ne hne]
  | case5 => rfl

theorem isSome_update (value : α) (h : (values key).isSome) :
    (Function.update values other (some value) key).isSome := by
  by_cases hkey : key = other
  · rw [hkey, Function.update_self]
    rfl
  · rw [Function.update_of_ne hkey]
    exact h

theorem isSome_scan (h : (values key).isSome) : (scan recognise values tokens key).isSome := by
  fun_induction scan recognise values tokens with
  | case1 => exact h
  | case2 values token rest htoken ih => exact ih h
  | case3 values token rest other value htoken ih => exact ih (isSome_update value h)
  | case4 values token other htoken value rest ih => exact ih (isSome_update value h)
  | case5 => exact h

theorem isSome_scan_of_occurs (hcomplete : ¬Awaiting recognise tokens) (h : Occurs recognise key tokens) :
    (scan recognise values tokens key).isSome := by
  obtain ⟨token, rest, inline, hpos, htoken⟩ := h
  generalize hleft : token :: rest = left at hpos
  induction hpos generalizing values with
  | here =>
    subst hleft
    cases inline with
    | some value =>
      rw [scan_inline htoken]
      exact isSome_scan (by rw [Function.update_self]; rfl)
    | none =>
      cases rest with
      | nil => exact absurd (awaiting_of_last htoken) hcomplete
      | cons value rest =>
        rw [scan_pair htoken]
        exact isSome_scan (by rw [Function.update_self]; rfl)
  | skip hskip _ ih =>
    rw [scan_skip hskip]
    exact ih (fun hrest => hcomplete (hrest.mono fun _ => .skip hskip)) hleft
  | inline hinline _ ih =>
    rw [scan_inline hinline]
    exact ih (fun hrest => hcomplete (hrest.mono fun _ => .inline hinline)) hleft
  | pair hpair _ ih =>
    rw [scan_pair hpair]
    exact ih (fun hrest => hcomplete (hrest.mono fun _ => .pair hpair)) hleft

end SparkDashboard.Library.FlagScan
