import Mathlib.Logic.Function.Basic
import Mathlib.Tactic.Common

/-!
# A directory of files

Names lead to inodes, and a file that is open goes on being its inode when its name is
given to another or taken away. A disk carries the proof that no file has two names and
no name leads to an inode that was never allocated.
-/

universe u v

namespace Disk

variable {ν : Type u} {β : Type v}

structure SoundEntries (entries : ν → Option Nat) (nextInode : Nat) : Prop where
  allocated : ∀ name i, entries name = some i → i < nextInode
  oneName : ∀ a b i, entries a = some i → entries b = some i → a = b

theorem soundEntries_none : SoundEntries (fun _ : ν => none) 0 := by
  constructor
  · intro name i h
    cases h
  · intro a b i h
    cases h

theorem SoundEntries.mono {entries : ν → Option Nat} {n m : Nat} (h : SoundEntries entries n) (hle : n ≤ m) :
    SoundEntries entries m :=
  ⟨fun name i hi => Nat.lt_of_lt_of_le (h.allocated name i hi) hle, h.oneName⟩

variable [DecidableEq ν]

theorem SoundEntries.remove {entries : ν → Option Nat} {nextInode : Nat} (h : SoundEntries entries nextInode)
    (name : ν) : SoundEntries (Function.update entries name none) nextInode := by
  have hold : ∀ a i, Function.update entries name none a = some i → entries a = some i := by
    intro a i ha
    by_cases hname : a = name
    · rw [hname, Function.update_self] at ha
      cases ha
    · rwa [Function.update_of_ne hname] at ha
  constructor
  · intro a i ha
    exact h.allocated a i (hold a i ha)
  · intro a b i ha hb
    exact h.oneName a b i (hold a i ha) (hold b i hb)

theorem SoundEntries.add {entries : ν → Option Nat} {nextInode : Nat} (h : SoundEntries entries nextInode)
    {name : ν} {i : Nat} (hlt : i < nextInode) (hfree : ∀ a, entries a = some i → a = name) :
    SoundEntries (Function.update entries name (some i)) nextInode := by
  constructor
  · intro a j ha
    by_cases hname : a = name
    · rw [hname, Function.update_self] at ha
      cases ha
      exact hlt
    · rw [Function.update_of_ne hname] at ha
      exact h.allocated a j ha
  · intro a b j ha hb
    by_cases hname : a = name
    · by_cases hname' : b = name
      · rw [hname, hname']
      · rw [hname, Function.update_self] at ha
        cases ha
        rw [Function.update_of_ne hname'] at hb
        exact hname.trans (hfree b hb).symm
    · rw [Function.update_of_ne hname] at ha
      by_cases hname' : b = name
      · rw [hname', Function.update_self] at hb
        cases hb
        exact (hfree a ha).trans hname'.symm
      · rw [Function.update_of_ne hname'] at hb
        exact h.oneName a b j ha hb

end Disk

structure Disk (ν : Type u) (β : Type v) where
  entries : ν → Option Nat
  contents : Nat → List β
  nextInode : Nat
  sound : Disk.SoundEntries entries nextInode

namespace Disk

variable {ν : Type u} {β : Type v}

def empty : Disk ν β where
  entries _ := none
  contents _ := []
  nextInode := 0
  sound := soundEntries_none

def file (d : Disk ν β) (name : ν) : Option (List β) := (d.entries name).map d.contents

def setContents (d : Disk ν β) (inode : Nat) (bytes : List β) : Disk ν β :=
  { d with contents := Function.update d.contents inode bytes }

def write (d : Disk ν β) (inode offset : Nat) (chunk : List β) : Disk ν β :=
  d.setContents inode
    ((d.contents inode).take offset ++ chunk ++ (d.contents inode).drop (offset + chunk.length))

@[simp] theorem setContents_self (d : Disk ν β) (inode : Nat) (bytes : List β) :
    (d.setContents inode bytes).contents inode = bytes := Function.update_self _ _ _

theorem setContents_of_ne (d : Disk ν β) {inode other : Nat} (h : other ≠ inode) (bytes : List β) :
    (d.setContents inode bytes).contents other = d.contents other := Function.update_of_ne h _ _

theorem write_of_ne (d : Disk ν β) {inode other : Nat} (h : other ≠ inode) (offset : Nat) (chunk : List β) :
    (d.write inode offset chunk).contents other = d.contents other := d.setContents_of_ne h _

theorem write_append (d : Disk ν β) (inode : Nat) (chunk : List β) :
    (d.write inode (d.contents inode).length chunk).contents inode = d.contents inode ++ chunk := by
  rw [write, setContents_self, List.take_length, List.drop_eq_nil_of_le (by omega), List.append_nil]

/-- At most the file under one name is another; no inode in use comes under the name. -/
structure OnlyTouches (name : ν) (d d' : Disk ν β) : Prop where
  entries : ∀ a, a ≠ name → d'.entries a = d.entries a
  contents : ∀ i, i < d.nextInode → d.entries name ≠ some i → d'.contents i = d.contents i
  names : ∀ i, i < d.nextInode → d'.entries name = some i → d.entries name = some i
  nextInode : d.nextInode ≤ d'.nextInode

theorem OnlyTouches.refl (name : ν) (d : Disk ν β) : OnlyTouches name d d :=
  ⟨fun _ _ => rfl, fun _ _ _ => rfl, fun _ _ h => h, Nat.le_refl _⟩

theorem OnlyTouches.file {name other : ν} {d d' : Disk ν β} (h : OnlyTouches name d d') (hne : other ≠ name) :
    d'.file other = d.file other := by
  rw [Disk.file, Disk.file, h.entries other hne]
  cases hother : d.entries other with
  | none => rfl
  | some i =>
    refine congrArg some (h.contents i (d.sound.allocated other i hother) ?_)
    intro hname
    exact hne (d.sound.oneName other name i hother hname)

theorem write_onlyTouches (d : Disk ν β) {name : ν} {inode : Nat} (h : d.entries name = some inode)
    (offset : Nat) (chunk : List β) : OnlyTouches name d (d.write inode offset chunk) := by
  refine ⟨fun _ _ => rfl, ?_, fun _ _ hi => hi, Nat.le_refl _⟩
  intro i _ hname
  refine d.write_of_ne ?_ offset chunk
  rintro rfl
  exact hname h

variable [DecidableEq ν]

/-- A new empty file under a name nothing is under. -/
def allocate (d : Disk ν β) (name : ν) : Disk ν β where
  entries := Function.update d.entries name (some d.nextInode)
  contents := Function.update d.contents d.nextInode []
  nextInode := d.nextInode + 1
  sound := by
    refine (d.sound.mono (Nat.le_succ _)).add (Nat.lt_succ_self _) ?_
    intro a ha
    exact absurd (d.sound.allocated a _ ha) (Nat.lt_irrefl _)

/-- Create or truncate: the inode opened for writing, and the disk. -/
def create (d : Disk ν β) (name : ν) : Nat × Disk ν β :=
  match d.entries name with
  | some i => (i, d.setContents i [])
  | none => (d.nextInode, d.allocate name)

/-- Take a name away; `none` when there is no such file. -/
def unlink (d : Disk ν β) (name : ν) : Option (Disk ν β) :=
  match d.entries name with
  | none => none
  | some _ => some
    { d with
      entries := Function.update d.entries name none
      sound := d.sound.remove name }

/-- Give a file another's name, in one step; `none` when there is no such file. -/
def rename (d : Disk ν β) (src dst : ν) : Option (Disk ν β) :=
  match h : d.entries src with
  | none => none
  | some i => some
    { d with
      entries := Function.update (Function.update d.entries src none) dst (some i)
      sound := by
        refine (d.sound.remove src).add (d.sound.allocated src i h) ?_
        intro a ha
        by_cases hsrc : a = src
        · rw [hsrc, Function.update_self] at ha
          cases ha
        · rw [Function.update_of_ne hsrc] at ha
          exact absurd (d.sound.oneName a src i ha h) hsrc }

theorem create_entries (d : Disk ν β) (name : ν) :
    (d.create name).2.entries name = some (d.create name).1 := by
  rw [create]
  cases h : d.entries name with
  | some i => exact h
  | none => exact Function.update_self _ _ _

theorem create_contents (d : Disk ν β) (name : ν) : (d.create name).2.contents (d.create name).1 = [] := by
  rw [create]
  cases h : d.entries name with
  | some i => exact d.setContents_self i []
  | none => exact Function.update_self _ _ _

theorem create_onlyTouches (d : Disk ν β) (name : ν) : OnlyTouches name d (d.create name).2 := by
  rw [create]
  cases h : d.entries name with
  | some i =>
    refine ⟨fun _ _ => rfl, ?_, fun _ _ hi => hi, Nat.le_refl _⟩
    intro j _ hname
    refine d.setContents_of_ne ?_ []
    rintro rfl
    exact hname h
  | none =>
    refine ⟨fun a ha => Function.update_of_ne ha _ _, ?_, ?_, Nat.le_succ _⟩
    · intro i hi _
      exact Function.update_of_ne (Nat.ne_of_lt hi) _ _
    · intro i hi hname
      have hnew : Function.update d.entries name (some d.nextInode) name = some i := hname
      rw [Function.update_self] at hnew
      cases hnew
      exact absurd hi (Nat.lt_irrefl _)

theorem unlink_spec {d d' : Disk ν β} {name : ν} (h : d.unlink name = some d') :
    d'.entries name = none ∧ (∀ a, a ≠ name → d'.entries a = d.entries a) ∧ d'.contents = d.contents ∧
      d'.nextInode = d.nextInode := by
  rw [unlink] at h
  cases hentry : d.entries name with
  | none =>
    rw [hentry] at h
    cases h
  | some i =>
    rw [hentry] at h
    cases h
    exact ⟨Function.update_self _ _ _, fun a ha => Function.update_of_ne ha _ _, rfl, rfl⟩

theorem unlink_onlyTouches (d : Disk ν β) (name : ν) : OnlyTouches name d ((d.unlink name).getD d) := by
  cases h : d.unlink name with
  | none => exact .refl name d
  | some d' =>
    obtain ⟨hgone, hentries, hcontents, hnext⟩ := unlink_spec h
    refine ⟨hentries, fun i _ _ => congrFun hcontents i, ?_, Nat.le_of_eq hnext.symm⟩
    intro i _ hi
    rw [Option.getD_some, hgone] at hi
    cases hi

theorem unlink_file (d : Disk ν β) (name : ν) : ((d.unlink name).getD d).file name = none := by
  cases h : d.unlink name with
  | none =>
    rw [unlink] at h
    cases hentry : d.entries name with
    | none => rw [Option.getD_none, file, hentry, Option.map_none]
    | some i =>
      rw [hentry] at h
      cases h
  | some d' => rw [Option.getD_some, file, (unlink_spec h).1, Option.map_none]

theorem rename_spec {d d' : Disk ν β} {src dst : ν} (hne : src ≠ dst) (h : d.rename src dst = some d') :
    ∃ i, d.entries src = some i ∧ d'.entries dst = some i ∧ d'.entries src = none ∧
      (∀ a, a ≠ src → a ≠ dst → d'.entries a = d.entries a) ∧ d'.contents = d.contents ∧
      d'.nextInode = d.nextInode := by
  rw [rename] at h
  split at h
  · cases h
  · rename_i i hi
    cases h
    refine ⟨i, hi, Function.update_self _ _ _, ?_, ?_, rfl, rfl⟩
    · exact (Function.update_of_ne hne _ _).trans (Function.update_self _ _ _)
    · intro a hsrc hdst
      exact (Function.update_of_ne hdst _ _).trans (Function.update_of_ne hsrc _ _)

theorem rename_file {d : Disk ν β} {src dst : ν} {bytes : List β} (hne : src ≠ dst) (h : d.file src = some bytes) :
    ∃ d', d.rename src dst = some d' ∧ d'.file dst = some bytes := by
  obtain ⟨i, hi, hbytes⟩ := Option.map_eq_some_iff.mp h
  cases hrename : d.rename src dst with
  | none =>
    rw [rename] at hrename
    split at hrename
    · rename_i hnone
      cases hi.symm.trans hnone
    · cases hrename
  | some d' =>
    obtain ⟨j, hj, hnew, -, -, hcontents, -⟩ := rename_spec hne hrename
    obtain rfl := Option.some.inj (hi.symm.trans hj)
    refine ⟨d', rfl, ?_⟩
    rw [file, hnew, Option.map_some, hcontents, hbytes]

end Disk
