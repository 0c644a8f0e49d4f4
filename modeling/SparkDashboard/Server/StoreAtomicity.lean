import SparkDashboard.Server.ConfigStore

/-!
# When the stored document is one whole document

A writer's bytes go to a file of its own until the rename; an inode the document's name
has led to is never written again. So a reader holds a whole document whatever happens
to the name meanwhile, and only a rename or a removal changes what is stored. What is renamed
is the whole document unless its write has failed unheard.
-/

namespace SparkDashboard.Store

open Stepping

/-- The temporary file a store holds or is about to take away. -/
def Request.tmp : Request → Option String
  | .creating tmp _ => some tmp
  | .writing tmp _ _ _ => some tmp
  | .syncing tmp _ _ => some tmp
  | .moving tmp _ _ => some tmp
  | .cleaning tmp => some tmp
  | _ => none

/-- The document the run began with, or the body of a PUT it has received. -/
def Whole (first : Option Bytes) (past : List Event) (bytes : Bytes) : Prop :=
  first = some bytes ∨ ∃ id, .put id bytes ∈ past

/-- What a request in flight may count on. -/
def Request.Sound (first : Option Bytes) (past : List Event) (id : Nat) (disk : Disk String UInt8) :
    Request → Prop
  | .reading inode got =>
    inode < disk.nextInode ∧ (∀ a, disk.entries a = some inode → a = documentFileName) ∧
      Whole first past (disk.contents inode) ∧ got <+: disk.contents inode
  | .creating _ body => .put id body ∈ past
  | .writing tmp body inode written =>
    .put id body ∈ past ∧ disk.entries tmp = some inode ∧ disk.contents inode = body.take written ∧
      written ≤ body.length
  | .syncing tmp body written | .moving tmp body written =>
    .put id body ∈ past ∧ disk.file tmp = some (body.take written) ∧ written ≤ body.length
  | _ => True

structure Sealed (first : Option Bytes) (past : List Event) (s : Server) : Prop where
  document : ∀ bytes, s.document = some bytes → Whole first past bytes
  requests : ∀ id r, s.requests id = some r → r.Sound first past id s.disk
  named : ∀ id r tmp, s.requests id = some r → r.tmp = some tmp → ∃ n < s.counter, tmp = tmpName s.pid n
  apart : ∀ id id' r r' tmp, s.requests id = some r → s.requests id' = some r' → r.tmp = some tmp →
    r'.tmp = some tmp → id = id'

theorem Whole.append {first : Option Bytes} {past : List Event} {bytes : Bytes} (h : Whole first past bytes)
    (later : List Event) : Whole first (past ++ later) bytes := by
  rcases h with hfirst | ⟨id, hid⟩
  · exact .inl hfirst
  · exact .inr ⟨id, List.mem_append_left later hid⟩

theorem Request.Sound.append {first : Option Bytes} {past : List Event} {id : Nat} {disk : Disk String UInt8}
    {r : Request} (h : r.Sound first past id disk) (later : List Event) :
    r.Sound first (past ++ later) id disk := by
  cases r with
  | reading inode got =>
    obtain ⟨hlt, hnames, hwhole, hgot⟩ := h
    exact ⟨hlt, hnames, hwhole.append later, hgot⟩
  | creating tmp body => exact List.mem_append_left later h
  | writing tmp body inode written => exact ⟨List.mem_append_left later h.1, h.2⟩
  | syncing tmp body written => exact ⟨List.mem_append_left later h.1, h.2⟩
  | moving tmp body written => exact ⟨List.mem_append_left later h.1, h.2⟩
  | _ => trivial

theorem Sealed.append {first : Option Bytes} {past : List Event} {s : Server} (h : Sealed first past s)
    (later : List Event) : Sealed first (past ++ later) s where
  document bytes hbytes := (h.document bytes hbytes).append later
  requests id r hr := (h.requests id r hr).append later
  named := h.named
  apart := h.apart

/-- A disk that differs at most in one temporary file and in what the document's name leads to. -/
structure Spares (tmp : Option String) (d d' : Disk String UInt8) : Prop where
  entries : ∀ a, tmp ≠ some a → a ≠ documentFileName → d'.entries a = d.entries a
  contents : ∀ i, i < d.nextInode → (∀ a, tmp = some a → d.entries a ≠ some i) →
    d'.contents i = d.contents i
  names : ∀ a i, a ≠ documentFileName → i < d.nextInode → d'.entries a = some i → d.entries a = some i
  nextInode : d.nextInode ≤ d'.nextInode

theorem Spares.refl (tmp : Option String) (d : Disk String UInt8) : Spares tmp d d :=
  ⟨fun _ _ _ => rfl, fun _ _ _ => rfl, fun _ _ _ _ h => h, Nat.le_refl _⟩

theorem Spares.of_onlyTouches {tmp : String} {d d' : Disk String UInt8} (h : Disk.OnlyTouches tmp d d') :
    Spares (some tmp) d d' := by
  refine ⟨?_, fun i hi htmp => h.contents i hi (htmp tmp rfl), ?_, h.nextInode⟩
  · intro a ha _
    exact h.entries a fun hname => ha (congrArg some hname.symm)
  · intro a i _ hi hentry
    by_cases hname : a = tmp
    · rw [hname] at hentry ⊢
      exact h.names i hi hentry
    · rwa [h.entries a hname] at hentry

theorem spares_rename {tmp : String} {d d' : Disk String UInt8} (hne : tmp ≠ documentFileName)
    (h : d.rename tmp documentFileName = some d') : Spares (some tmp) d d' := by
  obtain ⟨i, -, -, hgone, hentries, hcontents, hnext⟩ := Disk.rename_spec hne h
  refine ⟨?_, fun i _ _ => congrFun hcontents i, ?_, Nat.le_of_eq hnext.symm⟩
  · intro a ha hdocument
    exact hentries a (fun hname => ha (congrArg some hname.symm)) hdocument
  · intro a j hdocument _ hentry
    by_cases hname : a = tmp
    · rw [hname, hgone] at hentry
      cases hentry
    · rwa [hentries a hname hdocument] at hentry

theorem spares_unlink_document (d : Disk String UInt8) :
    Spares none d ((d.unlink documentFileName).getD d) := by
  cases h : d.unlink documentFileName with
  | none => exact .refl none d
  | some d' =>
    obtain ⟨-, hentries, hcontents, hnext⟩ := Disk.unlink_spec h
    refine ⟨fun a _ ha => hentries a ha, fun i _ _ => congrFun hcontents i, ?_, Nat.le_of_eq hnext.symm⟩
    intro a i ha _ hentry
    rwa [Option.getD_some, hentries a ha] at hentry

/-- What a request counts on is out of reach of the others' operations. -/
theorem Request.Sound.spared {first : Option Bytes} {past : List Event} {id : Nat} {d d' : Disk String UInt8}
    {tmp : Option String} {r : Request} (hspares : Spares tmp d d') (htmp : tmp ≠ some documentFileName)
    (hdocument : r.tmp ≠ some documentFileName) (hapart : ∀ a, r.tmp = some a → tmp ≠ some a)
    (h : r.Sound first past id d) : r.Sound first past id d' := by
  have hown : ∀ a i, r.tmp = some a → d.entries a = some i →
      d'.entries a = some i ∧ d'.contents i = d.contents i := by
    intro a i ha hi
    constructor
    · rw [hspares.entries a (hapart a ha) fun hname => hdocument (hname ▸ ha), hi]
    · apply hspares.contents i (d.sound.allocated a i hi)
      intro b hb hentry
      rw [d.sound.oneName b a i hentry hi] at hb
      exact hapart a ha hb
  have hfile : ∀ a bytes, r.tmp = some a → d.file a = some bytes → d'.file a = some bytes := by
    intro a bytes ha hbytes
    obtain ⟨i, hi, hbody⟩ := Option.map_eq_some_iff.mp hbytes
    obtain ⟨hentry', hcontents'⟩ := hown a i ha hi
    rw [Disk.file, hentry', Option.map_some, hcontents', hbody]
  cases r with
  | reading inode got =>
    obtain ⟨hlt, hnames, hwhole, hgot⟩ := h
    have hsame : d'.contents inode = d.contents inode := by
      apply hspares.contents inode hlt
      intro a ha hentry
      rw [hnames a hentry] at ha
      exact htmp ha
    refine ⟨Nat.lt_of_lt_of_le hlt hspares.nextInode, ?_, ?_, ?_⟩
    · intro a hentry
      by_contra hname
      exact hname (hnames a (hspares.names a inode hname hlt hentry))
    · rwa [hsame]
    · rwa [hsame]
  | creating tmp body => exact h
  | writing tmp body inode written =>
    obtain ⟨hput, hentry, hcontents, hle⟩ := h
    obtain ⟨hentry', hcontents'⟩ := hown tmp inode rfl hentry
    exact ⟨hput, hentry', hcontents'.trans hcontents, hle⟩
  | syncing tmp body written => exact ⟨h.1, hfile tmp _ rfl h.2.1, h.2.2⟩
  | moving tmp body written => exact ⟨h.1, hfile tmp _ rfl h.2.1, h.2.2⟩
  | _ => trivial

/-- What an operation may do to the stored document. -/
def Replaces (r : Request) (answer : Option Answer) (before after : Option Bytes) : Prop :=
  after = before ∨
    answer = some .noContent ∧
      ((∃ tmp body written, r = .moving tmp body written ∧ after = some (body.take written)) ∨
        r = .unlinking ∧ after = none)

/-- What one operation of a request comes to: the disk it leaves and how far the request is then. -/
structure Operated (first : Option Bytes) (past : List Event) (id : Nat) (disk : Disk String UInt8)
    (r : Request) (answer : Option Answer) (disk' : Disk String UInt8) (next : Option Request) : Prop where
  spares : Spares r.tmp disk disk'
  sound : ∀ q, next = some q → q.Sound first past id disk'
  tmp : ∀ q tmp, next = some q → q.tmp = some tmp → r.tmp = some tmp
  whole : ∀ bytes, answer = some (.document bytes) → Whole first past bytes
  replaces : Replaces r answer (disk.file documentFileName) (disk'.file documentFileName)

theorem Operated.of_disk_eq {first : Option Bytes} {past : List Event} {id : Nat} {disk : Disk String UInt8}
    {r : Request} {answer : Option Answer} {next : Option Request}
    (hsound : ∀ q, next = some q → q.Sound first past id disk)
    (htmp : ∀ q tmp, next = some q → q.tmp = some tmp → r.tmp = some tmp)
    (hwhole : ∀ bytes, answer = some (.document bytes) → Whole first past bytes) :
    Operated first past id disk r answer disk next :=
  ⟨.refl _ disk, hsound, htmp, hwhole, .inl rfl⟩

theorem Operated.of_answered {first : Option Bytes} {past : List Event} {id : Nat} {disk : Disk String UInt8}
    (r : Request) {answer : Answer} (h : ∀ bytes, answer ≠ .document bytes) :
    Operated first past id disk r (some answer) disk none := by
  apply Operated.of_disk_eq
  · intro q hq
    cases hq
  · intro q tmp hq
    cases hq
  · intro bytes hbytes
    exact absurd (Option.some.inj hbytes) (h bytes)

theorem Operated.of_goes_on {first : Option Bytes} {past : List Event} {id : Nat} {disk : Disk String UInt8}
    {r q : Request} (htmp : r.tmp = q.tmp) (hsound : q.Sound first past id disk) :
    Operated first past id disk r none disk (some q) := by
  apply Operated.of_disk_eq
  · rintro _ ⟨⟩
    exact hsound
  · rintro _ tmp ⟨⟩ hq
    exact htmp.trans hq
  · intro bytes hbytes
    cases hbytes

theorem Operated.of_cleaning {first : Option Bytes} {past : List Event} {id : Nat} {disk : Disk String UInt8}
    {r : Request} {tmp : String} (h : r.tmp = some tmp) :
    Operated first past id disk r none disk (some (.cleaning tmp)) := .of_goes_on h trivial

theorem Operated.of_onlyTouches {first : Option Bytes} {past : List Event} {id : Nat}
    {disk disk' : Disk String UInt8} {r : Request} {tmp : String} {answer : Option Answer}
    {next : Option Request} (hr : r.tmp = some tmp) (hdocument : tmp ≠ documentFileName)
    (honly : Disk.OnlyTouches tmp disk disk')
    (hsound : ∀ q, next = some q → q.Sound first past id disk')
    (htmp : ∀ q tmp', next = some q → q.tmp = some tmp' → tmp = tmp')
    (hanswer : ∀ bytes, answer ≠ some (.document bytes)) :
    Operated first past id disk r answer disk' next where
  spares := by
    rw [hr]
    exact .of_onlyTouches honly
  sound := hsound
  tmp q tmp' hq htmp' := hr.trans (congrArg some (htmp q tmp' hq htmp'))
  whole bytes hbytes := absurd hbytes (hanswer bytes)
  replaces := .inl (honly.file hdocument.symm)

theorem take_append_chunk (body : Bytes) (written amount : Nat) :
    body.take written ++ (body.drop written).take amount =
      body.take (written + ((body.drop written).take amount).length) := by
  have hchunk : (body.drop written).take ((body.drop written).take amount).length =
      (body.drop written).take amount := by
    rw [List.length_take, ← List.take_eq_take_min]
  rw [List.take_add, hchunk]

/-- An operation of a request in flight, whatever comes of it. -/
def OperatesSoundly (first : Option Bytes) (past : List Event) (s : Server) (id : Nat) (r : Request)
    (outcome : Outcome) : Prop :=
  ∃ disk next,
    (s.operate id r outcome).2 = { s with disk := disk, requests := Function.update s.requests id next } ∧
      Operated first past id s.disk r (s.operate id r outcome).1 disk next

namespace Server

/-- A read takes the next of the inode's bytes, or finds it has them all. -/
theorem operated_reading {first : Option Bytes} {past : List Event} {s : Server} {id inode : Nat} {got : Bytes}
    (h : (Request.reading inode got).Sound first past id s.disk) (outcome : Outcome) :
    OperatesSoundly first past s id (.reading inode got) outcome := by
  obtain ⟨hlt, hnames, hwhole, rest, hrest⟩ := h
  have hdrop : (s.disk.contents inode).drop got.length = rest := by
    rw [← hrest, List.drop_left]
  cases outcome with
  | fails | failsUnheard =>
    refine ⟨s.disk, none, rfl, .of_answered _ ?_⟩
    intro bytes hbytes
    cases hbytes
  | ok amount =>
    rw [OperatesSoundly, operate, hdrop]
    by_cases hend : rest.take (amount + 1) = []
    · rw [if_pos hend]
      refine ⟨s.disk, none, rfl, .of_disk_eq ?_ ?_ ?_⟩
      · intro q hq
        cases hq
      · intro q tmp hq
        cases hq
      · intro bytes hbytes
        cases hbytes
        rw [List.take_eq_nil_iff] at hend
        rw [hend.resolve_left (Nat.succ_ne_zero amount), List.append_nil] at hrest
        rwa [hrest]
    · rw [if_neg hend]
      refine ⟨s.disk, _, rfl, .of_disk_eq ?_ ?_ ?_⟩
      · rintro q ⟨⟩
        refine ⟨hlt, hnames, hwhole, rest.drop (amount + 1), ?_⟩
        rw [List.append_assoc, List.take_append_drop, hrest]
      · rintro q tmp ⟨⟩ htmp
        cases htmp
      · intro bytes hbytes
        cases hbytes

/-- A write appends the next of the body's bytes, or finds that the file has them all. -/
theorem operated_writing {first : Option Bytes} {past : List Event} {s : Server} {id inode written : Nat}
    {tmp : String} {body : Bytes} (hdocument : tmp ≠ documentFileName)
    (h : (Request.writing tmp body inode written).Sound first past id s.disk) (outcome : Outcome) :
    OperatesSoundly first past s id (.writing tmp body inode written) outcome := by
  obtain ⟨hput, hentry, hcontents, hle⟩ := h
  have hfile : s.disk.file tmp = some (body.take written) := by
    rw [Disk.file, hentry, Option.map_some, hcontents]
  cases outcome with
  | fails => exact ⟨s.disk, _, rfl, .of_cleaning rfl⟩
  | failsUnheard =>
    rw [OperatesSoundly, operate]
    split
    · exact ⟨s.disk, _, rfl, .of_cleaning rfl⟩
    · exact ⟨s.disk, _, rfl, .of_goes_on rfl ⟨hput, hfile, hle⟩⟩
  | ok amount =>
    rw [OperatesSoundly, operate]
    by_cases hend : (body.drop written).take (amount + 1) = []
    · rw [if_pos hend]
      exact ⟨s.disk, _, rfl, .of_goes_on rfl ⟨hput, hfile, hle⟩⟩
    · rw [if_neg hend]
      have hlength : (s.disk.contents inode).length = written := by
        rw [hcontents, List.length_take, Nat.min_eq_left hle]
      refine ⟨_, _, rfl, .of_onlyTouches rfl hdocument (s.disk.write_onlyTouches hentry _ _) ?_ ?_ ?_⟩
      · rintro q ⟨⟩
        refine ⟨hput, hentry, ?_, ?_⟩
        · have happend := s.disk.write_append inode ((body.drop written).take (amount + 1))
          rw [hlength] at happend
          rw [hcontents, take_append_chunk] at happend
          exact happend
        · rw [List.length_take, List.length_drop]
          omega
      · rintro q tmp' ⟨⟩ htmp
        exact Option.some.inj htmp
      · intro bytes hbytes
        cases hbytes

theorem operated_opening {first : Option Bytes} {past : List Event} {s : Server} (id : Nat)
    (h : ∀ bytes, s.document = some bytes → Whole first past bytes) (outcome : Outcome) :
    OperatesSoundly first past s id .opening outcome := by
  cases outcome with
  | fails | failsUnheard =>
    refine ⟨s.disk, none, rfl, .of_answered _ ?_⟩
    intro bytes hbytes
    cases hbytes
  | ok amount =>
    rw [OperatesSoundly, operate]
    cases hentry : s.disk.entries documentFileName with
    | none =>
      refine ⟨s.disk, none, rfl, .of_answered _ ?_⟩
      intro bytes hbytes
      cases hbytes
    | some inode =>
      refine ⟨s.disk, _, rfl, .of_disk_eq ?_ ?_ ?_⟩
      · rintro q ⟨⟩
        refine ⟨s.disk.sound.allocated _ _ hentry, ?_, ?_, List.nil_prefix⟩
        · intro a ha
          exact s.disk.sound.oneName a _ inode ha hentry
        · apply h
          rw [document, Disk.file, hentry, Option.map_some]
      · rintro q tmp ⟨⟩ htmp
        cases htmp
      · intro bytes hbytes
        cases hbytes

theorem operated_creating {first : Option Bytes} {past : List Event} {s : Server} {id : Nat} {tmp : String}
    {body : Bytes} (hdocument : tmp ≠ documentFileName)
    (h : (Request.creating tmp body).Sound first past id s.disk) (outcome : Outcome) :
    OperatesSoundly first past s id (.creating tmp body) outcome := by
  cases outcome with
  | fails | failsUnheard => exact ⟨s.disk, _, rfl, .of_cleaning rfl⟩
  | ok amount =>
    refine ⟨_, _, rfl, .of_onlyTouches rfl hdocument (s.disk.create_onlyTouches tmp) ?_ ?_ ?_⟩
    · rintro q ⟨⟩
      exact ⟨h, s.disk.create_entries tmp, s.disk.create_contents tmp, Nat.zero_le _⟩
    · rintro q tmp' ⟨⟩ htmp
      exact Option.some.inj htmp
    · intro bytes hbytes
      cases hbytes

theorem operated_syncing {first : Option Bytes} {past : List Event} {s : Server} {id written : Nat} {tmp : String}
    {body : Bytes} (h : (Request.syncing tmp body written).Sound first past id s.disk) (outcome : Outcome) :
    OperatesSoundly first past s id (.syncing tmp body written) outcome := by
  cases outcome with
  | fails | failsUnheard => exact ⟨s.disk, _, rfl, .of_cleaning rfl⟩
  | ok amount => exact ⟨s.disk, _, rfl, .of_goes_on rfl h⟩

/-- The rename is the one step at which what there is of a PUT's body is stored. -/
theorem operated_moving {first : Option Bytes} {past : List Event} {s : Server} {id written : Nat} {tmp : String}
    {body : Bytes} (hdocument : tmp ≠ documentFileName)
    (h : (Request.moving tmp body written).Sound first past id s.disk) (outcome : Outcome) :
    OperatesSoundly first past s id (.moving tmp body written) outcome := by
  cases outcome with
  | fails | failsUnheard => exact ⟨s.disk, _, rfl, .of_cleaning rfl⟩
  | ok amount =>
    rw [OperatesSoundly, operate]
    cases hrename : s.disk.rename tmp documentFileName with
    | none => exact ⟨s.disk, _, rfl, .of_cleaning rfl⟩
    | some disk =>
      obtain ⟨i, hentry, hnew, -, -, hcontents, -⟩ := Disk.rename_spec hdocument hrename
      refine ⟨disk, none, rfl, spares_rename hdocument hrename, ?_, ?_, ?_, ?_⟩
      · intro q hq
        cases hq
      · intro q tmp' hq
        cases hq
      · intro bytes hbytes
        cases hbytes
      · refine .inr ⟨rfl, .inl ⟨tmp, body, written, rfl, ?_⟩⟩
        have hfile := h.2.1
        rw [Disk.file, hentry] at hfile
        rw [Disk.file, hnew, hcontents]
        exact hfile

theorem operated_cleaning {first : Option Bytes} {past : List Event} (s : Server) (id : Nat) {tmp : String}
    (hdocument : tmp ≠ documentFileName) (outcome : Outcome) :
    OperatesSoundly first past s id (.cleaning tmp) outcome := by
  cases outcome with
  | fails | failsUnheard =>
    refine ⟨s.disk, none, rfl, .of_answered _ ?_⟩
    intro bytes hbytes
    cases hbytes
  | ok amount =>
    refine ⟨_, none, rfl, .of_onlyTouches rfl hdocument (s.disk.unlink_onlyTouches tmp) ?_ ?_ ?_⟩
    · intro q hq
      cases hq
    · intro q tmp' hq
      cases hq
    · intro bytes hbytes
      cases hbytes

theorem operated_unlinking {first : Option Bytes} {past : List Event} (s : Server) (id : Nat)
    (outcome : Outcome) : OperatesSoundly first past s id .unlinking outcome := by
  cases outcome with
  | fails | failsUnheard =>
    refine ⟨s.disk, none, rfl, .of_answered _ ?_⟩
    intro bytes hbytes
    cases hbytes
  | ok amount =>
    refine ⟨_, none, rfl, spares_unlink_document s.disk, ?_, ?_, ?_, ?_⟩
    · intro q hq
      cases hq
    · intro q tmp hq
      cases hq
    · intro bytes hbytes
      cases hbytes
    · exact .inr ⟨rfl, .inr ⟨rfl, s.disk.unlink_file documentFileName⟩⟩

end Server

theorem Sealed.tmp_ne_document {first : Option Bytes} {past : List Event} {s : Server}
    (h : Sealed first past s) {id : Nat} {r : Request} (hid : s.requests id = some r) :
    r.tmp ≠ some documentFileName := by
  intro htmp
  obtain ⟨n, -, hname⟩ := h.named id r documentFileName hid htmp
  exact tmpName_ne_document s.pid n hname.symm

theorem Sealed.operates {first : Option Bytes} {past : List Event} {s : Server} (h : Sealed first past s)
    {id : Nat} {r : Request} (hid : s.requests id = some r) (outcome : Outcome) :
    OperatesSoundly first past s id r outcome := by
  have hsound := h.requests id r hid
  have hdocument : ∀ tmp, r.tmp = some tmp → tmp ≠ documentFileName := by
    rintro tmp htmp rfl
    exact h.tmp_ne_document hid htmp
  cases r with
  | opening => exact s.operated_opening id h.document outcome
  | reading inode got => exact s.operated_reading hsound outcome
  | creating tmp body => exact s.operated_creating (hdocument tmp rfl) hsound outcome
  | writing tmp body inode written => exact s.operated_writing (hdocument tmp rfl) hsound outcome
  | syncing tmp body written => exact s.operated_syncing hsound outcome
  | moving tmp body written => exact s.operated_moving (hdocument tmp rfl) hsound outcome
  | cleaning tmp => exact s.operated_cleaning id (hdocument tmp rfl) outcome
  | unlinking => exact s.operated_unlinking id outcome

theorem update_eq_some {requests : Nat → Option Request} {id id' : Nat} {next : Option Request} {q : Request}
    (h : Function.update requests id next id' = some q) :
    (id' = id ∧ next = some q) ∨ (id' ≠ id ∧ requests id' = some q) := by
  by_cases hsame : id' = id
  · rw [hsame, Function.update_self] at h
    exact .inl ⟨hsame, h⟩
  · rw [Function.update_of_ne hsame] at h
    exact .inr ⟨hsame, h⟩

/-- One request moves on, over a disk that leaves the others what they count on and with a
temporary file that none of them has. -/
theorem Sealed.update {first : Option Bytes} {past : List Event} {s : Server} (h : Sealed first past s)
    {id : Nat} {next : Option Request} {disk : Disk String UInt8} {counter : Nat}
    (hdocument : ∀ bytes, disk.file documentFileName = some bytes → Whole first past bytes)
    (hothers : ∀ id' q, id' ≠ id → s.requests id' = some q → q.Sound first past id' disk)
    (hnext : ∀ q, next = some q → q.Sound first past id disk)
    (hcounter : s.counter ≤ counter)
    (hnamed : ∀ q tmp, next = some q → q.tmp = some tmp → ∃ n < counter, tmp = tmpName s.pid n)
    (hapart : ∀ q tmp, next = some q → q.tmp = some tmp →
      ∀ id' q', id' ≠ id → s.requests id' = some q' → q'.tmp ≠ some tmp) :
    Sealed first past
      { s with disk := disk, counter := counter, requests := Function.update s.requests id next } := by
  constructor
  · exact hdocument
  · intro id' q hq
    rcases update_eq_some hq with ⟨rfl, hmine⟩ | ⟨hne, hold⟩
    · exact hnext q hmine
    · exact hothers id' q hne hold
  · intro id' q tmp hq htmp
    rcases update_eq_some hq with ⟨-, hmine⟩ | ⟨-, hold⟩
    · exact hnamed q tmp hmine htmp
    · obtain ⟨n, hlt, hname⟩ := h.named id' q tmp hold htmp
      exact ⟨n, Nat.lt_of_lt_of_le hlt hcounter, hname⟩
  · intro id₁ id₂ q₁ q₂ tmp hq₁ hq₂ htmp₁ htmp₂
    rcases update_eq_some hq₁ with ⟨rfl, hmine₁⟩ | ⟨hne₁, hold₁⟩
    · rcases update_eq_some hq₂ with ⟨rfl, -⟩ | ⟨hne₂, hold₂⟩
      · rfl
      · exact absurd htmp₂ (hapart q₁ tmp hmine₁ htmp₁ id₂ q₂ hne₂ hold₂)
    · rcases update_eq_some hq₂ with ⟨rfl, hmine₂⟩ | ⟨-, hold₂⟩
      · exact absurd htmp₁ (hapart q₂ tmp hmine₂ htmp₂ id₁ q₁ hne₁ hold₁)
      · exact h.apart id₁ id₂ q₁ q₂ tmp hold₁ hold₂ htmp₁ htmp₂

theorem Sealed.operated {first : Option Bytes} {past : List Event} {s : Server} (h : Sealed first past s)
    {id : Nat} {r : Request} (hid : s.requests id = some r) {answer : Option Answer}
    {disk : Disk String UInt8} {next : Option Request}
    (ho : Operated first past id s.disk r answer disk next)
    (hwhole : ∀ bytes, disk.file documentFileName = some bytes → Whole first past bytes) :
    Sealed first past { s with disk := disk, requests := Function.update s.requests id next } := by
  apply h.update hwhole
  · intro id' q hne hq
    refine (h.requests id' q hq).spared ho.spares (h.tmp_ne_document hid) (h.tmp_ne_document hq) ?_
    intro a hqa hra
    exact hne (h.apart id' id q r a hq hid hqa hra)
  · exact ho.sound
  · exact Nat.le_refl _
  · intro q tmp hq htmp
    exact h.named id r tmp hid (ho.tmp q tmp hq htmp)
  · intro q tmp hq htmp id' q' hne hq' htmp'
    exact hne (h.apart id' id q' r tmp hq' hid htmp' (ho.tmp q tmp hq htmp))

theorem Sealed.finish {first : Option Bytes} {past : List Event} {s : Server} (h : Sealed first past s)
    (id : Nat) : Sealed first past (s.finish id) := by
  apply h.update h.document (fun id' q _ hq => h.requests id' q hq) _ (Nat.le_refl _)
  · intro q tmp hq
    cases hq
  · intro q tmp hq
    cases hq
  · intro q hq
    cases hq

theorem Sealed.proceed {first : Option Bytes} {past : List Event} {s : Server} (h : Sealed first past s)
    (id : Nat) {r : Request} (hsound : r.Sound first past id s.disk) (htmp : r.tmp = none) :
    Sealed first past (s.proceed id r) := by
  apply h.update h.document (fun id' q _ hq => h.requests id' q hq) _ (Nat.le_refl _)
  · rintro q tmp ⟨⟩ hq
    cases htmp.symm.trans hq
  · rintro q tmp ⟨⟩ hq
    cases htmp.symm.trans hq
  · rintro q ⟨⟩
    exact hsound

theorem Sealed.store {first : Option Bytes} {past : List Event} {s : Server} (h : Sealed first past s)
    (id : Nat) {body : Bytes} (hput : .put id body ∈ past) :
    Sealed first past ({ s with counter := s.counter + 1 }.proceed id
      (.creating (tmpName s.pid s.counter) body)) := by
  apply h.update h.document (fun id' q _ hq => h.requests id' q hq) _ (Nat.le_succ _)
  · rintro q tmp ⟨⟩ htmp
    exact ⟨s.counter, Nat.lt_succ_self _, (Option.some.inj htmp).symm⟩
  · rintro q tmp ⟨⟩ htmp id' q' - hq' htmp'
    obtain ⟨n, hlt, hname⟩ := h.named id' q' tmp hq' htmp'
    rw [tmpName_injective ((Option.some.inj htmp).trans hname)] at hlt
    exact Nat.lt_irrefl n hlt
  · rintro q ⟨⟩
    exact hput

theorem file_probeWritable (disk : Disk String UInt8) (pid : Nat) (probe : Probe) :
    (Server.probeWritable disk pid probe).file documentFileName = disk.file documentFileName := by
  have hcreated := (disk.create_onlyTouches (probeName pid 0)).file (probeName_ne_document pid 0).symm
  cases probe with
  | noDirectory => rfl
  | unwritable => rfl
  | writable removed =>
    cases removed with
    | false => exact hcreated
    | true =>
      have hremoved := ((disk.create (probeName pid 0)).2.unlink_onlyTouches (probeName pid 0)).file
        (probeName_ne_document pid 0).symm
      exact hremoved.trans hcreated

theorem sealed_start {first : Option Bytes} {past : List Event} {disk : Disk String UInt8}
    (h : ∀ bytes, disk.file documentFileName = some bytes → Whole first past bytes) (pid : Nat) (probe : Probe) :
    Sealed first past (Server.start disk pid probe) := by
  constructor
  · intro bytes hbytes
    exact h bytes ((file_probeWritable disk pid probe).symm.trans hbytes)
  · intro id r hr
    cases hr
  · intro id r tmp hr
    cases hr
  · intro id id' r r' tmp hr
    cases hr

/-- A file that is renamed into place has all of its body, or just what is stored there already. -/
def Delivered (e : Entry Server Event (Option Answer)) : Prop :=
  ∀ id amount tmp body written, e.input = .operation id (.ok amount) →
    e.before.requests id = some (.moving tmp body written) →
    written = body.length ∨ e.before.document = some (body.take written)

/-- What a rename answered for leaves stored. -/
theorem Delivered.stored {s : Server} {id written : Nat} {tmp : String} {body : Bytes}
    {outcome : Outcome} (h : Delivered (entry Server.step s (.operation id outcome)))
    (hid : s.requests id = some (.moving tmp body written))
    (hanswer : (s.operate id (.moving tmp body written) outcome).1 = some .noContent) :
    body.take written = body ∨ s.document = some (body.take written) := by
  cases outcome with
  | fails | failsUnheard => cases hanswer
  | ok amount =>
    rcases h id amount tmp body written rfl hid with rfl | hsame
    · exact .inl List.take_length
    · exact .inr hsame

theorem Sealed.whole_operated {first : Option Bytes} {past : List Event} {s : Server} (h : Sealed first past s)
    {id : Nat} {r : Request} (hid : s.requests id = some r) {outcome : Outcome} {disk : Disk String UInt8}
    {next : Option Request} (ho : Operated first past id s.disk r (s.operate id r outcome).1 disk next)
    (hdelivered : Delivered (entry Server.step s (.operation id outcome))) (bytes : Bytes)
    (hbytes : disk.file documentFileName = some bytes) : Whole first past bytes := by
  rcases ho.replaces with hsame | ⟨hanswer, ⟨tmp, body, written, rfl, hstored⟩ | ⟨-, hgone⟩⟩
  · exact h.document bytes (hsame.symm.trans hbytes)
  · obtain rfl := Option.some.inj (hstored.symm.trans hbytes)
    rcases hdelivered.stored hid hanswer with hall | hsame
    · rw [hall]
      exact .inr ⟨id, (h.requests id _ hid).1⟩
    · exact h.document _ hsame
  · cases hgone.symm.trans hbytes

theorem sealed_step {first : Option Bytes} {past : List Event} {s : Server} (h : Sealed first past s)
    {event : Event} (hdelivered : Delivered (entry Server.step s event)) :
    Sealed first (past ++ [event]) (s.step event).2 := by
  have hlater := h.append [event]
  have hevent : event ∈ past ++ [event] := List.mem_append_right past List.mem_cons_self
  cases event with
  | get id =>
    rw [Server.step]
    split
    · exact hlater.proceed id trivial rfl
    · exact hlater
  | put id body =>
    rw [Server.step]
    split
    · rw [Server.arrive]
      split
      · exact hlater
      · split
        · exact hlater
        · exact hlater.store id hevent
    · exact hlater
  | delete id =>
    rw [Server.step]
    split
    · rw [Server.arrive]
      split
      · exact hlater
      · exact hlater.proceed id trivial rfl
    · exact hlater
  | operation id outcome =>
    rw [Server.step]
    cases hid : s.requests id with
    | none => exact hlater
    | some r =>
      obtain ⟨disk, next, hstep, hoperated⟩ := hlater.operates hid outcome
      rw [hstep]
      exact hlater.operated hid hoperated (hlater.whole_operated hid hoperated hdelivered)
  | hangUp id => exact hlater.finish id
  | restart pid probe => exact sealed_start hlater.document pid probe

theorem Sealed.openApart {first : Option Bytes} {past : List Event} {s : Server} (h : Sealed first past s)
    (id id' : Nat) (tmp tmp' : String) (body body' : Bytes) (inode inode' written written' : Nat)
    (hne : id ≠ id') (hr : s.requests id = some (.writing tmp body inode written))
    (hr' : s.requests id' = some (.writing tmp' body' inode' written')) : inode ≠ inode' := by
  rintro rfl
  have hentry := (h.requests id _ hr).2.1
  have hentry' := (h.requests id' _ hr').2.1
  obtain rfl := s.disk.sound.oneName tmp tmp' inode hentry hentry'
  exact hne (h.apart id id' _ _ tmp hr hr' rfl rfl)

/-- What is promised of every step of the store. -/
structure StoreAtomic (first : Option Bytes) (past : List Event)
    (e : Entry Server Event (Option Answer)) : Prop where
  /-- A load gives the document the run began with or one PUT's bytes in full. -/
  loads : ∀ bytes, e.output = some (.document bytes) → Whole first past bytes
  /-- A refused request has done nothing. -/
  refused : e.output = some .tooLarge ∨ e.output = some .readOnly → e.after = e.before
  /-- The stored document changes only as a PUT of it is renamed into place or a DELETE removes it. -/
  stores : e.after.document ≠ e.before.document → e.output = some .noContent ∧ ∃ id outcome,
    e.input = .operation id outcome ∧
      ((∃ tmp body written, e.before.requests id = some (.moving tmp body written) ∧ .put id body ∈ past ∧
        e.after.document = some body) ∨
      e.before.requests id = some .unlinking ∧ e.after.document = none)
  /-- No two stores have one temporary file, by name or open. -/
  apart : ∀ id id' r r' tmp, id ≠ id' → e.after.requests id = some r → e.after.requests id' = some r' →
    r.tmp = some tmp → r'.tmp ≠ some tmp
  openApart : ∀ id id' tmp tmp' body body' inode inode' written written', id ≠ id' →
    e.after.requests id = some (.writing tmp body inode written) →
    e.after.requests id' = some (.writing tmp' body' inode' written') → inode ≠ inode'

/-- A step that answers no document and leaves the stored one. -/
theorem storeAtomic_of_kept {first : Option Bytes} {past : List Event} {s : Server} {event : Event}
    (hafter : Sealed first (past ++ [event]) (s.step event).2)
    (hloads : ∀ bytes, (s.step event).1 ≠ some (.document bytes))
    (hrefused : (s.step event).1 = some .tooLarge ∨ (s.step event).1 = some .readOnly → (s.step event).2 = s)
    (hkept : (s.step event).2.document = s.document) :
    StoreAtomic first past (entry Server.step s event) where
  loads bytes hbytes := absurd hbytes (hloads bytes)
  refused := hrefused
  stores hchanged := absurd hkept hchanged
  apart id id' r r' tmp hne hr hr' htmp htmp' := hne (hafter.apart id id' r r' tmp hr hr' htmp htmp')
  openApart := hafter.openApart

theorem operate_not_refused (s : Server) (id : Nat) (r : Request) (outcome : Outcome) :
    ¬ ((s.operate id r outcome).1 = some .tooLarge ∨ (s.operate id r outcome).1 = some .readOnly) := by
  cases outcome with
  | fails => cases r <;> simp [Server.operate]
  | failsUnheard =>
    cases r with
    | writing tmp body inode written =>
      rw [Server.operate]
      split <;> simp
    | _ => simp [Server.operate]
  | ok amount =>
    cases r with
    | opening =>
      rw [Server.operate]
      split <;> simp
    | reading inode got =>
      rw [Server.operate]
      split <;> simp
    | writing tmp body inode written =>
      rw [Server.operate]
      split <;> simp
    | moving tmp body written =>
      rw [Server.operate]
      split <;> simp
    | _ => simp [Server.operate]

theorem arrive_kept (s : Server) (id : Nat) (event : Event) :
    (∀ bytes, (s.arrive id event).1 ≠ some (.document bytes)) ∧
    ((s.arrive id event).1 ≠ none → (s.arrive id event).2 = s) ∧
    (s.arrive id event).2.document = s.document := by
  rw [Server.arrive.eq_def]
  split
  · exact ⟨fun _ h => (by cases h), fun h => absurd rfl h, rfl⟩
  · split
    · exact ⟨fun _ h => (by cases h), fun _ => rfl, rfl⟩
    · split
      · exact ⟨fun _ h => (by cases h), fun _ => rfl, rfl⟩
      · exact ⟨fun _ h => (by cases h), fun h => absurd rfl h, rfl⟩
  · split
    · exact ⟨fun _ h => (by cases h), fun _ => rfl, rfl⟩
    · exact ⟨fun _ h => (by cases h), fun h => absurd rfl h, rfl⟩
  · exact ⟨fun _ h => (by cases h), fun _ => rfl, rfl⟩

theorem storeAtomic_arrive {first : Option Bytes} {past : List Event} {s : Server} {event : Event}
    (hafter : Sealed first (past ++ [event]) (s.step event).2) {id : Nat}
    (hstep : s.step event = if (s.requests id).isNone then s.arrive id event else (none, s)) :
    StoreAtomic first past (entry Server.step s event) := by
  obtain ⟨hloads, hrefused, hkept⟩ := arrive_kept s id event
  apply storeAtomic_of_kept hafter
  · intro bytes
    rw [hstep]
    split
    · exact hloads bytes
    · intro hbytes
      cases hbytes
  · intro hanswer
    rw [hstep] at hanswer ⊢
    by_cases hnew : (s.requests id).isNone = true
    · rw [if_pos hnew] at hanswer ⊢
      apply hrefused
      intro hnone
      rw [hnone] at hanswer
      rcases hanswer with h | h
      · cases h
      · cases h
    · rw [if_neg hnew]
  · rw [hstep]
    split
    · exact hkept
    · rfl

/-- An operation of a request in progress. Only a rename and a removal change the stored document. -/
theorem storeAtomic_operation {first : Option Bytes} {past : List Event} {s : Server} (h : Sealed first past s)
    {id : Nat} {r : Request} (hid : s.requests id = some r) {outcome : Outcome}
    (hdelivered : Delivered (entry Server.step s (.operation id outcome)))
    (hafter : Sealed first (past ++ [.operation id outcome]) (s.step (.operation id outcome)).2) :
    StoreAtomic first past (entry Server.step s (.operation id outcome)) := by
  have hstep : s.step (.operation id outcome) = s.operate id r outcome := by
    rw [Server.step, hid]
  obtain ⟨disk, next, hs', ho⟩ := h.operates hid outcome
  have hdocument : (s.step (.operation id outcome)).2.document = disk.file documentFileName := by
    rw [hstep, hs', Server.document]
  refine ⟨?_, ?_, ?_, ?_, hafter.openApart⟩
  · intro bytes hbytes
    rw [entry, hstep] at hbytes
    exact ho.whole bytes hbytes
  · intro hrefused
    rw [entry, hstep] at hrefused
    exact absurd hrefused (operate_not_refused s id r outcome)
  · intro hchanged
    rcases ho.replaces with hsame | ⟨hanswer, hreplaced⟩
    · exact absurd (hdocument.trans hsame) hchanged
    · refine ⟨(congrArg Prod.fst hstep).trans hanswer, id, outcome, rfl, ?_⟩
      rcases hreplaced with ⟨tmp, body, written, rfl, hstored⟩ | ⟨rfl, hgone⟩
      · rcases hdelivered.stored hid hanswer with hall | hsame
        · rw [hall] at hstored
          exact .inl ⟨tmp, body, written, hid, (h.requests id _ hid).1, hdocument.trans hstored⟩
        · exact absurd (hdocument.trans (hstored.trans hsame.symm)) hchanged
      · exact .inr ⟨hid, hdocument.trans hgone⟩
  · intro id₁ id₂ r₁ r₂ tmp hne h₁ h₂ htmp₁ htmp₂
    exact hne (hafter.apart id₁ id₂ r₁ r₂ tmp h₁ h₂ htmp₁ htmp₂)

theorem storeAtomic_entry {first : Option Bytes} {past : List Event} {s : Server} (h : Sealed first past s)
    {event : Event} (hdelivered : Delivered (entry Server.step s event)) :
    StoreAtomic first past (entry Server.step s event) := by
  have hafter := sealed_step h hdelivered
  cases event with
  | operation id outcome =>
    cases hid : s.requests id with
    | none =>
      have hstep : s.step (.operation id outcome) = (none, s) := by
        rw [Server.step, hid]
      apply storeAtomic_of_kept hafter
      · intro bytes hbytes
        rw [hstep] at hbytes
        cases hbytes
      · intro _
        rw [hstep]
      · rw [hstep]
    | some r => exact storeAtomic_operation h hid hdelivered hafter
  | get id => exact storeAtomic_arrive hafter rfl
  | put id body => exact storeAtomic_arrive hafter rfl
  | delete id => exact storeAtomic_arrive hafter rfl
  | hangUp id =>
    apply storeAtomic_of_kept hafter
    · intro bytes hbytes
      cases hbytes
    · rintro (hanswer | hanswer) <;> cases hanswer
    · rfl
  | restart pid probe =>
    apply storeAtomic_of_kept hafter
    · intro bytes hbytes
      cases hbytes
    · rintro (hanswer | hanswer) <;> cases hanswer
    · exact file_probeWritable s.disk pid probe

/-- A step that keeps the promise has not renamed a part of a body over something else. -/
theorem delivered_of_storeAtomic {first : Option Bytes} {past : List Event} {s : Server} (h : Sealed first past s)
    {event : Event} (hatomic : StoreAtomic first past (entry Server.step s event)) :
    Delivered (entry Server.step s event) := by
  rintro id amount tmp body written rfl hmoving
  have hid : s.requests id = some (.moving tmp body written) := hmoving
  obtain ⟨-, hfile, hle⟩ := h.requests id _ hid
  have hdocument : tmp ≠ documentFileName := by
    rintro rfl
    exact h.tmp_ne_document hid rfl
  obtain ⟨disk, hrename, hmoved⟩ := Disk.rename_file hdocument hfile
  have hstep : s.step (.operation id (.ok amount)) = (some .noContent, (s.withDisk disk).finish id) := by
    simp only [Server.step, hid, Server.operate, hrename]
  have hstored : (entry Server.step s (.operation id (.ok amount))).after.document = some (body.take written) := by
    rw [entry, hstep]
    exact hmoved
  rcases eq_or_ne s.document (some (body.take written)) with hsame | hchanged
  · exact .inr hsame
  · obtain ⟨-, id', outcome, hinput, ⟨tmp', body', written', hid', -, hbody⟩ | ⟨hid', -⟩⟩ :=
      hatomic.stores (hstored ▸ hchanged.symm)
    · cases hinput
      cases hid.symm.trans hid'
      have hlength := congrArg List.length (Option.some.inj (hstored.symm.trans hbody))
      rw [List.length_take_of_le hle] at hlength
      exact .inl hlength
    · cases hinput
      cases hid.symm.trans hid'

/-- Whatever requests come, in whatever order their file operations are done, fail or are cut
off by a dying process: every load returns one whole document, only a PUT's rename and a DELETE's
removal change the stored one, and no two stores have one temporary file, exactly if no file whose
write failed unheard is renamed over anything but the bytes that did get into it. -/
theorem store_atomic_iff (disk : Disk String UInt8) (pid : Nat) (probe : Probe) (events : List Event) :
    (∀ before e after, trace Server.step (.start disk pid probe) events = before ++ e :: after →
      StoreAtomic (disk.file documentFileName) (before.map Entry.input) e) ↔
      ∀ e ∈ trace Server.step (.start disk pid probe) events, Delivered e := by
  have hstart : Sealed (disk.file documentFileName) [] (.start disk pid probe) :=
    sealed_start (fun bytes hbytes => .inl hbytes) pid probe
  constructor
  · intro hatomic e he
    obtain ⟨before, after, hsplit⟩ := List.append_of_mem he
    refine forall_split_imp (fun past s => Sealed (disk.file documentFileName) (past.map Entry.input) s)
      (fun past e => StoreAtomic (disk.file documentFileName) (past.map Entry.input) e) (fun _ e => Delivered e)
      ?_ [] hstart hatomic before e after hsplit
    intro past s event h hgood
    have hdelivered := delivered_of_storeAtomic h hgood
    rw [List.map_append]
    exact ⟨hdelivered, sealed_step h hdelivered⟩
  · intro hdelivered
    refine forall_split_imp (fun past s => Sealed (disk.file documentFileName) (past.map Entry.input) s)
      (fun _ e => Delivered e) (fun past e => StoreAtomic (disk.file documentFileName) (past.map Entry.input) e)
      ?_ [] hstart ?_
    · intro past s event h hgood
      rw [List.map_append]
      exact ⟨storeAtomic_entry h hgood, sealed_step h hgood⟩
    · intro before e after hsplit
      exact hdelivered e (hsplit ▸ List.mem_append_right before List.mem_cons_self)

/-- A disk with room for one of two bytes. -/
def tornPut : List Event :=
  [.put 0 [1, 2], .operation 0 (.ok 0), .operation 0 (.ok 0), .operation 0 .failsUnheard, .operation 0 (.ok 0),
    .operation 0 (.ok 0), .get 1, .operation 1 (.ok 0), .operation 1 (.ok 0), .operation 1 (.ok 0)]

theorem store_not_atomic_torn :
    (outputs Server.step (.start .empty 1 (.writable true)) tornPut).filterMap id = [.noContent, .document [1]] ∧
    ¬ ∀ before e after, trace Server.step (.start .empty 1 (.writable true)) tornPut = before ++ e :: after →
      StoreAtomic none (before.map Entry.input) e := by
  refine ⟨rfl, fun h => ?_⟩
  let before := trace Server.step (.start .empty 1 (.writable true)) (tornPut.dropLast)
  have hsplit := trace_concat Server.step (.start .empty 1 (.writable true)) tornPut.dropLast (.operation 1 (.ok 0))
  rcases (h before _ [] hsplit).loads [1] rfl with hfirst | ⟨id, hput⟩
  · cases hfirst
  · rw [map_input_trace] at hput
    simp [tornPut] at hput

end SparkDashboard.Store
