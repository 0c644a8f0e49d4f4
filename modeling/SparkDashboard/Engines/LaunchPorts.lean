import SparkDashboard.Engines.Metrics
import SparkDashboard.Engines.Common
import Mathlib.Data.List.Basic
import Mathlib.Data.List.Infix

/-!
# The port of a launch

The host scan reads the arguments of a process one flag after the other; the Docker scan
looks for a port in a container's command line. An argument is text here: one that is not
Unicode is dropped before.
-/

namespace SparkDashboard.Engines

abbrev Arg := List Char

/-- `http://host:port`. -/
structure Endpoint where
  host : Arg
  port : Arg
  deriving DecidableEq

def defaultPort : EngineType → Nat
  | .vllm => 8000
  | .sglang => 30000
  | .ollama => 11434
  | .llamaCpp => 9931

def portText (port : Nat) : Arg := (toString port).toList

def portFlag : Arg := "--port".toList
def hostFlag : Arg := "--host".toList
def portPrefix : Arg := "--port=".toList
def hostPrefix : Arg := "--host=".toList

structure EndpointFlags where
  host : Option Arg := none
  port : Option Arg := none

/-- A flag takes the argument after it, whatever that is. -/
def scanFlags (flags : EndpointFlags) : List Arg → EndpointFlags
  | [] => flags
  | arg :: rest =>
    if arg = portFlag then
      match rest with
      | val :: rest => scanFlags { flags with port := some val } rest
      | [] => flags
    else
      match arg.dropPrefix? portPrefix with
      | some val => scanFlags { flags with port := some val } rest
      | none =>
        if arg = hostFlag then
          match rest with
          | val :: rest => scanFlags { flags with host := some val } rest
          | [] => flags
        else
          match arg.dropPrefix? hostPrefix with
          | some val => scanFlags { flags with host := some val } rest
          | none => scanFlags flags rest

def parseEndpointFromArgs (args : List Arg) (defaultEndpoint : Endpoint) : Option Endpoint :=
  let flags := scanFlags {} args
  if flags.port.isSome ∨ flags.host.isSome then
    let host := flags.host.getD "localhost".toList
    let host := if host = "0.0.0.0".toList then "localhost".toList else host
    some ⟨host, flags.port.getD defaultEndpoint.port⟩
  else some defaultEndpoint

/-- `str::parse::<u16>`. -/
def parseU16 (text : Arg) : Option Nat :=
  let digits := (text.dropPrefix? ['+']).getD text
  if digits ≠ [] ∧ digits.all Char.isDigit then
    let value := digits.foldl (fun n c => 10 * n + (c.toNat - '0'.toNat)) 0
    if value < 65536 then some value else none
  else none

def splitWhitespace (text : List Char) : List Arg :=
  (text.splitOnP isWhitespace).filter fun part => decide (part ≠ [])

/-- The first value after a `--port`, or in a `--port=`, that is a port. -/
def firstPort : List Arg → Option Arg
  | [] => none
  | part :: rest =>
    if part = portFlag then
      match rest.head? with
      | some val => if (parseU16 val).isSome then some val else firstPort rest
      | none => firstPort rest
    else
      match part.dropPrefix? portPrefix with
      | some val => if (parseU16 val).isSome then some val else firstPort rest
      | none => firstPort rest

def parsePortFromCommandStr (cmd : List Char) : Option Arg := firstPort (splitWhitespace cmd)

/-- The flag is whether the port had to be assumed. -/
def dockerEndpoint (port : Option Arg) (defaultPort : Nat) : Endpoint × Bool :=
  match port with
  | some p => (⟨"localhost".toList, p⟩, false)
  | none => (⟨"localhost".toList, portText defaultPort⟩, true)

/-- Where the host scan puts a vLLM or SGLang server. -/
def hostScanEndpoint (engineType : EngineType) (args : List Arg) : Endpoint :=
  let defaultEndpoint : Endpoint := ⟨"localhost".toList, portText (defaultPort engineType)⟩
  (parseEndpointFromArgs args defaultEndpoint).getD defaultEndpoint

/-- Where the Docker scan puts one in a container that publishes no port. -/
def dockerScanEndpoint (engineType : EngineType) (cmd : List Char) : Endpoint :=
  (dockerEndpoint (parsePortFromCommandStr cmd) (defaultPort engineType)).1

def commandLine (args : List Arg) : List Char := [' '].intercalate args

section Tokens

/-- An argument that a command line shows as it is. -/
structure IsToken (arg : Arg) : Prop where
  nonempty : arg ≠ []
  unspaced : ∀ c ∈ arg, isWhitespace c = false

theorem splitWhitespace_commandLine {args : List Arg} (h : ∀ arg ∈ args, IsToken arg) :
    splitWhitespace (commandLine args) = args := by
  induction args with
  | nil => rfl
  | cons arg rest ih =>
    have harg := h arg List.mem_cons_self
    have hrest := ih fun arg hmem => h arg (List.mem_cons_of_mem _ hmem)
    cases rest with
    | nil =>
      rw [commandLine, List.intercalate_singleton, splitWhitespace, List.splitOnP_eq_singleton harg.unspaced,
        List.filter_singleton, decide_eq_true harg.nonempty]
      rfl
    | cons next rest =>
      have hline : commandLine (arg :: next :: rest) = arg ++ ' ' :: commandLine (next :: rest) := by
        rw [commandLine, List.intercalate_cons_cons, List.append_assoc]
        rfl
      rw [hline, splitWhitespace, List.splitOnP_append_cons_of_forall_mem harg.unspaced ' ' (by decide),
        List.filter_cons, if_pos (decide_eq_true harg.nonempty), ← splitWhitespace, hrest]

end Tokens

section Flags

/-- The value of the port flag that the arguments start with. -/
def portNamed : List Arg → Option Arg
  | [] => none
  | arg :: rest => if arg = portFlag then rest.head? else arg.dropPrefix? portPrefix

def TakesValue (arg : Arg) : Prop := arg = portFlag ∨ arg = hostFlag

/-- Reading each flag together with its value, one comes to what is left. -/
inductive Reaches : List Arg → List Arg → Prop
  | here (args : List Arg) : Reaches args args
  | past {flag val : Arg} {rest left : List Arg} (hflag : TakesValue flag) (h : Reaches rest left) :
    Reaches (flag :: val :: rest) left
  | on {arg : Arg} {rest left : List Arg} (harg : ¬ TakesValue arg) (h : Reaches rest left) :
    Reaches (arg :: rest) left

def IsPort (val : Arg) : Prop := (parseU16 val).isSome = true

instance : DecidablePred IsPort := fun val => inferInstanceAs (Decidable ((parseU16 val).isSome = true))

/-- The last port flag, each flag read with its value, holds this one. -/
def LastPort (args : List Arg) (val : Arg) : Prop :=
  ∃ left, Reaches args left ∧ portNamed left = some val ∧
    ∀ later, Reaches args later → later.length < left.length → portNamed later = none

/-- This is the first port after any `--port`, or in any `--port=`. -/
def FirstPort (args : List Arg) (val : Arg) : Prop :=
  ∃ left, left <:+ args ∧ portNamed left = some val ∧ IsPort val ∧
    ∀ earlier, earlier <:+ args → left.length < earlier.length → ∀ val', portNamed earlier = some val' → ¬ IsPort val'

theorem firstPort_cons (part : Arg) (rest : List Arg) :
    firstPort (part :: rest) =
      ((portNamed (part :: rest)).filter fun val => (parseU16 val).isSome).or (firstPort rest) := by
  rw [firstPort, portNamed]
  split
  · cases hval : rest.head? with
    | none => rfl
    | some val =>
      simp only [Option.filter_some]
      split <;> rfl
  · cases hval : part.dropPrefix? portPrefix with
    | none => rfl
    | some val =>
      simp only [Option.filter_some]
      split <;> rfl

theorem firstPort_eq_some {args : List Arg} {val : Arg} (h : firstPort args = some val) : FirstPort args val := by
  induction args with
  | nil => cases h
  | cons arg rest ih =>
    rw [firstPort_cons] at h
    cases hfirst : (portNamed (arg :: rest)).filter fun val => (parseU16 val).isSome with
    | some first =>
      rw [hfirst] at h
      cases h
      obtain ⟨hnamed, hport⟩ := Option.filter_eq_some_iff.mp hfirst
      refine ⟨arg :: rest, List.suffix_rfl, hnamed, hport, ?_⟩
      intro earlier hearlier hlonger
      have hle := hearlier.length_le
      omega
    | none =>
      rw [hfirst, Option.none_or] at h
      obtain ⟨left, hleft, hnamed, hport, hearlier⟩ := ih h
      refine ⟨left, hleft.trans (List.suffix_cons arg rest), hnamed, hport, ?_⟩
      intro earlier hsuffix hlonger val' hval' hport'
      rcases List.suffix_cons_iff.mp hsuffix with rfl | hsuffix
      · rw [Option.filter_eq_none_iff] at hfirst
        exact hfirst val' hval' hport'
      · exact hearlier earlier hsuffix hlonger val' hval' hport'

theorem firstPort_eq_none {args : List Arg} (h : firstPort args = none) {left : List Arg} (hleft : left <:+ args)
    {val : Arg} (hnamed : portNamed left = some val) : ¬ IsPort val := by
  induction args with
  | nil =>
    rw [List.suffix_nil.mp hleft] at hnamed
    cases hnamed
  | cons arg rest ih =>
    rw [firstPort_cons, Option.or_eq_none_iff, Option.filter_eq_none_iff] at h
    rcases List.suffix_cons_iff.mp hleft with rfl | hleft
    · exact h.1 val hnamed
    · exact ih h.2 hleft

theorem Reaches.length_le {args left : List Arg} (h : Reaches args left) : left.length ≤ args.length := by
  induction h with
  | here => exact Nat.le_refl _
  | past _ _ ih =>
    simp only [List.length_cons]
    omega
  | on _ _ ih =>
    rw [List.length_cons]
    omega

theorem reaches_past {flag : Arg} (hflag : TakesValue flag) (val : Arg) (rest left : List Arg) :
    Reaches (flag :: val :: rest) left ↔ left = flag :: val :: rest ∨ Reaches rest left := by
  constructor
  · intro h
    cases h with
    | here => exact .inl rfl
    | past _ h => exact .inr h
    | on harg => exact absurd hflag harg
  · rintro (rfl | h)
    · exact .here _
    · exact .past hflag h

theorem reaches_on {arg : Arg} (harg : ¬ TakesValue arg) (rest left : List Arg) :
    Reaches (arg :: rest) left ↔ left = arg :: rest ∨ Reaches rest left := by
  constructor
  · intro h
    cases h with
    | here => exact .inl rfl
    | past hflag => exact absurd hflag harg
    | on _ h => exact .inr h
  · rintro (rfl | h)
    · exact .here _
    · exact .on harg h

/-- The last port flag is what a scan ends with, or there is none and nothing changes. -/
def Scanned (flags : EndpointFlags) (args : List Arg) : Prop :=
  (∃ val, LastPort args val ∧ (scanFlags flags args).port = some val) ∨
    (∀ left, Reaches args left → portNamed left = none) ∧ (scanFlags flags args).port = flags.port

theorem Scanned.step {flags : EndpointFlags} (next : EndpointFlags) {args rest : List Arg}
    (hreach : ∀ left, Reaches args left ↔ left = args ∨ Reaches rest left) (hshorter : rest.length < args.length)
    (hscan : scanFlags flags args = scanFlags next rest) (hport : next.port = (portNamed args).or flags.port)
    (h : Scanned next rest) : Scanned flags args := by
  rcases h with ⟨val, ⟨left, hleft, hnamed, hlast⟩, hval⟩ | ⟨hnone, hsame⟩
  · refine .inl ⟨val, ⟨left, (hreach left).mpr (.inr hleft), hnamed, ?_⟩, hscan ▸ hval⟩
    intro later hlater hlt
    rcases (hreach later).mp hlater with rfl | hlater
    · have hle := hleft.length_le
      omega
    · exact hlast later hlater hlt
  · cases hnamed : portNamed args with
    | some val =>
      refine .inl ⟨val, ⟨args, .here args, hnamed, ?_⟩, ?_⟩
      · intro later hlater hlt
        rcases (hreach later).mp hlater with rfl | hlater
        · omega
        · exact hnone later hlater
      · rw [hscan, hsame, hport, hnamed]
        rfl
    | none =>
      refine .inr ⟨?_, ?_⟩
      · intro left hleft
        rcases (hreach left).mp hleft with rfl | hleft
        · exact hnamed
        · exact hnone left hleft
      · rw [hscan, hsame, hport, hnamed, Option.none_or]

theorem scanned_alone (flags : EndpointFlags) {flag : Arg} (hflag : TakesValue flag) : Scanned flags [flag] := by
  have hnot : flag.dropPrefix? portPrefix = none := by
    rcases hflag with rfl | rfl <;> decide
  refine .inr ⟨?_, ?_⟩
  · intro left hleft
    cases hleft with
    | here =>
      rw [portNamed, hnot]
      exact ite_self none
    | on harg => exact absurd hflag harg
  · rcases hflag with rfl | rfl <;> rfl

theorem scanned (flags : EndpointFlags) (args : List Arg) : Scanned flags args := by
  induction hlength : args.length using Nat.strongRecOn generalizing args flags with
  | ind n ih =>
    cases args with
    | nil =>
      refine .inr ⟨?_, rfl⟩
      intro left hleft
      cases hleft
      rfl
    | cons arg rest =>
      rw [List.length_cons] at hlength
      by_cases hflag : TakesValue arg
      · cases rest with
        | nil => exact scanned_alone flags hflag
        | cons val rest =>
          rw [List.length_cons] at hlength
          rcases hflag with rfl | rfl
          · exact Scanned.step { flags with port := some val } (reaches_past (.inl rfl) val rest)
              (by simp only [List.length_cons]; omega) rfl rfl (ih rest.length (by omega) _ rest rfl)
          · exact Scanned.step { flags with host := some val } (reaches_past (.inr rfl) val rest)
              (by simp only [List.length_cons]; omega) rfl rfl (ih rest.length (by omega) _ rest rfl)
      · obtain ⟨hport, hhost⟩ := not_or.mp hflag
        have hnamed : portNamed (arg :: rest) = arg.dropPrefix? portPrefix := by
          rw [portNamed, if_neg hport]
        have hlater : ∀ next, Scanned next rest := fun next => ih rest.length (by omega) next rest rfl
        cases hinitial : arg.dropPrefix? portPrefix with
        | some val =>
          refine Scanned.step { flags with port := some val } (reaches_on hflag rest)
            (Nat.lt_succ_self _) ?_ ?_ (hlater _)
          · rw [scanFlags.eq_def]
            simp only [if_neg hport, hinitial]
          · rw [hnamed, hinitial]
            rfl
        | none =>
          cases hother : arg.dropPrefix? hostPrefix with
          | some val =>
            refine Scanned.step { flags with host := some val } (reaches_on hflag rest)
              (Nat.lt_succ_self _) ?_ ?_ (hlater _)
            · rw [scanFlags.eq_def]
              simp only [if_neg hport, hinitial, if_neg hhost, hother]
            · rw [hnamed, hinitial]
              rfl
          | none =>
            refine Scanned.step flags (reaches_on hflag rest) (Nat.lt_succ_self _) ?_ ?_ (hlater flags)
            · rw [scanFlags.eq_def]
              simp only [if_neg hport, hinitial, if_neg hhost, hother]
            · rw [hnamed, hinitial]
              rfl

end Flags

section Agreement

theorem Reaches.suffix {args left : List Arg} (h : Reaches args left) : left <:+ args := by
  induction h with
  | here => exact List.suffix_rfl
  | @past flag val rest left _ _ ih => exact ih.trans ((List.suffix_cons val rest).trans (List.suffix_cons flag _))
  | on _ _ ih => exact ih.trans (List.suffix_cons _ _)

theorem eq_of_suffix_of_length {args left left' : List Arg} (h : left <:+ args) (h' : left' <:+ args)
    (hlength : left.length = left'.length) : left = left' :=
  (List.suffix_of_suffix_length_le h h' (Nat.le_of_eq hlength)).eq_of_length hlength

theorem LastPort.eq {args : List Arg} {val val' : Arg} (h : LastPort args val) (h' : LastPort args val') :
    val = val' := by
  obtain ⟨left, hleft, hnamed, hlast⟩ := h
  obtain ⟨left', hleft', hnamed', hlast'⟩ := h'
  rcases Nat.lt_trichotomy left.length left'.length with hlt | heq | hgt
  · rw [hlast' left hleft hlt] at hnamed
    cases hnamed
  · rw [eq_of_suffix_of_length hleft.suffix hleft'.suffix heq, hnamed'] at hnamed
    exact (Option.some.inj hnamed).symm
  · rw [hlast left' hleft' hgt] at hnamed'
    cases hnamed'

theorem FirstPort.eq {args : List Arg} {val val' : Arg} (h : FirstPort args val) (h' : FirstPort args val') :
    val = val' := by
  obtain ⟨left, hleft, hnamed, hport, hfirst⟩ := h
  obtain ⟨left', hleft', hnamed', hport', hfirst'⟩ := h'
  rcases Nat.lt_trichotomy left.length left'.length with hlt | heq | hgt
  · exact absurd hport' (hfirst left' hleft' hlt val' hnamed')
  · rw [eq_of_suffix_of_length hleft hleft' heq, hnamed'] at hnamed
    exact (Option.some.inj hnamed).symm
  · exact absurd hport (hfirst' left hleft hgt val hnamed)

theorem firstPort_eq_some_iff {args : List Arg} {val : Arg} : firstPort args = some val ↔ FirstPort args val := by
  constructor
  · exact firstPort_eq_some
  · intro h
    cases hfirst : firstPort args with
    | some first => rw [h.eq (firstPort_eq_some hfirst)]
    | none =>
      obtain ⟨left, hleft, hnamed, hport, -⟩ := h
      exact absurd hport (firstPort_eq_none hfirst hleft hnamed)

theorem port_scanFlags_eq_some_iff {args : List Arg} {val : Arg} :
    (scanFlags {} args).port = some val ↔ LastPort args val := by
  rcases scanned {} args with ⟨last, hlast, hscan⟩ | ⟨hnone, hscan⟩
  · rw [hscan, Option.some.injEq]
    constructor
    · rintro rfl
      exact hlast
    · exact hlast.eq
  · rw [hscan]
    constructor
    · intro h
      cases h
    · rintro ⟨left, hleft, hnamed, -⟩
      rw [hnone left hleft] at hnamed
      cases hnamed

/-- Where the last port flag holds a port, there is a first one. -/
theorem LastPort.firstPort_ne_none {args : List Arg} {val : Arg} (h : LastPort args val) (hport : IsPort val) :
    firstPort args ≠ none := by
  intro hnone
  obtain ⟨left, hleft, hnamed, -⟩ := h
  exact firstPort_eq_none hnone hleft.suffix hnamed hport

theorem port_hostScanEndpoint (engineType : EngineType) (args : List Arg) :
    (hostScanEndpoint engineType args).port =
      (scanFlags {} args).port.getD (portText (defaultPort engineType)) := by
  simp only [hostScanEndpoint, parseEndpointFromArgs]
  split
  · rfl
  · rename_i hneither
    have hnone : (scanFlags {} args).port = none := by
      cases hport : (scanFlags {} args).port with
      | none => rfl
      | some port =>
        rw [hport] at hneither
        exact absurd (.inl rfl) hneither
    rw [hnone]
    rfl

theorem port_dockerScanEndpoint (engineType : EngineType) {args : List Arg} (h : ∀ arg ∈ args, IsToken arg) :
    (dockerScanEndpoint engineType (commandLine args)).port =
      (firstPort args).getD (portText (defaultPort engineType)) := by
  rw [dockerScanEndpoint, parsePortFromCommandStr, splitWhitespace_commandLine h]
  cases firstPort args <;> rfl

theorem isPort_default (engineType : EngineType) : IsPort (portText (defaultPort engineType)) := by
  cases engineType <;> decide

/-- The last port flag read in order holds the first port after any; or none is read in order, and
the default is the only port that may stand first. -/
def LastIsFirst (default : Arg) (args : List Arg) : Prop :=
  (∃ val, LastPort args val ∧ FirstPort args val) ∨
    (∀ val, ¬ LastPort args val) ∧ ∀ val, FirstPort args val → val = default

/-- The two scans of a server see one port just where its last port flag is its first. -/
theorem scans_same_port_iff (engineType : EngineType) {args : List Arg} (h : ∀ arg ∈ args, IsToken arg) :
    (hostScanEndpoint engineType args).port = (dockerScanEndpoint engineType (commandLine args)).port ↔
      LastIsFirst (portText (defaultPort engineType)) args := by
  rw [port_hostScanEndpoint, port_dockerScanEndpoint engineType h]
  simp only [LastIsFirst, ← port_scanFlags_eq_some_iff, ← firstPort_eq_some_iff]
  cases hlast : (scanFlags {} args).port with
  | some last =>
    cases hfirst : firstPort args with
    | some first => simp [eq_comm]
    | none =>
      -- The Docker scan would have read the flag, were it to hold the default.
      have hother : last ≠ portText (defaultPort engineType) := by
        rintro rfl
        exact (port_scanFlags_eq_some_iff.mp hlast).firstPort_ne_none (isPort_default engineType) hfirst
      simp [hother]
  | none =>
    cases hfirst : firstPort args with
    | some first => simp [eq_comm]
    | none => simp

def launch (args : List String) : List Arg := args.map String.toList

theorem isToken_of_launch {args : List String}
    (h : ((launch args).all fun arg => !arg.isEmpty && arg.all (!isWhitespace ·)) = true) :
    ∀ arg ∈ launch args, IsToken arg := by
  intro arg hmem
  have harg := List.all_eq_true.mp h arg hmem
  rw [Bool.and_eq_true, List.all_eq_true] at harg
  obtain ⟨hne, hunspaced⟩ := harg
  constructor
  · rintro rfl
    cases hne
  · intro c hc
    simpa using hunspaced c hc

theorem scans_same_port_served :
    (hostScanEndpoint .sglang (launch ["sglang", "serve", "--port=30001"])).port =
        (dockerScanEndpoint .sglang (commandLine (launch ["sglang", "serve", "--port=30001"]))).port ↔
      LastIsFirst (portText (defaultPort .sglang)) (launch ["sglang", "serve", "--port=30001"]) :=
  scans_same_port_iff .sglang (isToken_of_launch (by decide))

/-- The flag given twice: the host scan reads the second, the Docker scan the first. -/
theorem scans_differ_on_repeated_flag :
    ¬ ∀ (engineType : EngineType) (args : List Arg), (∀ arg ∈ args, IsToken arg) →
      (hostScanEndpoint engineType args).port = (dockerScanEndpoint engineType (commandLine args)).port := by
  intro h
  have hsame := h .vllm (launch ["vllm", "serve", "--port", "8001", "--port", "8002"]) (isToken_of_launch (by decide))
  revert hsame
  decide

end Agreement

end SparkDashboard.Engines
