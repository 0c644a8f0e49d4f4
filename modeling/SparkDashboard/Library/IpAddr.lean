import SparkDashboard.Library.Chars
import Mathlib.Data.List.OfFn
import Mathlib.Order.Basic

/-!
# IP addresses as text

A read takes what it reads off the front of a text, or fails and takes nothing. An
address is its whole text. It is written in the short form: the longest run of zero groups,
the first of several, left out.
-/

namespace SparkDashboard.Library

open Chars

structure Ipv4Addr where
  octets : List UInt8
  length_eq : octets.length = 4
  deriving DecidableEq

structure Ipv6Addr where
  segments : List UInt16
  length_eq : segments.length = 8
  deriving DecidableEq

inductive IpAddr where
  | v4 (ip : Ipv4Addr)
  | v6 (ip : Ipv6Addr)
  deriving DecidableEq

namespace IpAddr

def toDigit (radix : Nat) (c : Char) : Option Nat :=
  let digit :=
    if '0' ≤ c ∧ c ≤ '9' then some (c.toNat - '0'.toNat)
    else if 'a' ≤ c ∧ c ≤ 'z' then some (c.toNat - 'a'.toNat + 10)
    else if 'A' ≤ c ∧ c ≤ 'Z' then some (c.toNat - 'A'.toNat + 10)
    else none
  digit.filter fun d => d < radix

def readGivenChar (target : Char) : Text → Option Text
  | c :: rest => if c = target then some rest else none
  | [] => none

variable {α : Type}

def readSeparator (sep : Char) (index : Nat) (inner : Text → Option (α × Text)) (text : Text) : Option (α × Text) :=
  if 0 < index then (readGivenChar sep text).bind inner else inner text

/-- A number of at most `maxDigits` digits below `bound`; more digits are no number. -/
def readNumber (radix maxDigits : Nat) (allowZeroPrefix : Bool) (bound : Nat) (text : Text) : Option (Nat × Text) :=
  let digits := text.takeWhile fun c => (toDigit radix c).isSome
  let result := digits.foldl (fun n c => n * radix + (toDigit radix c).getD 0) 0
  if digits.length = 0 ∨ maxDigits < digits.length then none
  else if allowZeroPrefix = false ∧ text.head? = some '0' ∧ 1 < digits.length then none
  else if result < bound then some (result, text.drop digits.length)
  else none

def readOctet : Text → Option (Nat × Text) := readNumber 10 3 false 256

def readIpv4Addr (text : Text) : Option (Ipv4Addr × Text) :=
  (readSeparator '.' 0 readOctet text).bind fun a =>
  (readSeparator '.' 1 readOctet a.2).bind fun b =>
  (readSeparator '.' 2 readOctet b.2).bind fun c =>
  (readSeparator '.' 3 readOctet c.2).map fun d =>
    (⟨[.ofNat a.1, .ofNat b.1, .ofNat c.1, .ofNat d.1], rfl⟩, d.2)

/-- The two groups an address embedded in one of the other kind stands for. -/
def embedded (ip : Ipv4Addr) : List UInt16 :=
  match ip.octets with
  | [a, b, c, d] => [a.toUInt16 * 256 + b.toUInt16, c.toUInt16 * 256 + d.toUInt16]
  | _ => []

structure Groups where
  groups : List UInt16
  endsInIpv4 : Bool
  rest : Text

/-- Reads from slot `index` on, of which `slots` are left. -/
def readGroups (index : Nat) : (slots : Nat) → Text → Groups
  | 0, text => ⟨[], false, text⟩
  | slots + 1, text =>
    -- an address of the other kind takes two slots
    match if slots = 0 then none else readSeparator ':' index readIpv4Addr text with
    | some (ip, rest) => ⟨embedded ip, true, rest⟩
    | none =>
      match readSeparator ':' index (readNumber 16 4 true 65536) text with
      | some (group, rest) =>
        let others := readGroups (index + 1) slots rest
        { others with groups := .ofNat group :: others.groups }
      | none => ⟨[], false, text⟩

/-- `head` from the first slot on, `tail` up to the last, zeros between them. -/
def ofHeadAndTail (head tail : List UInt16) : Ipv6Addr where
  segments := List.ofFn fun i : Fin 8 =>
    if i.val < 8 - tail.length then head.getD i.val 0 else tail.getD (i.val - (8 - tail.length)) 0
  length_eq := List.length_ofFn

def readIpv6Addr (text : Text) : Option (Ipv6Addr × Text) :=
  let head := readGroups 0 8 text
  if head.groups.length = 8 then some (ofHeadAndTail head.groups [], head.rest)
  else if head.endsInIpv4 then none
  else
    (readGivenChar ':' head.rest).bind fun rest =>
    (readGivenChar ':' rest).map fun rest =>
      let tail := readGroups 0 (8 - (head.groups.length + 1)) rest
      (ofHeadAndTail head.groups tail.groups, tail.rest)

def readIpAddr (text : Text) : Option (IpAddr × Text) :=
  match readIpv4Addr text with
  | some (ip, rest) => some (v4 ip, rest)
  | none => (readIpv6Addr text).map fun read => (v6 read.1, read.2)

def parse (text : Text) : Option IpAddr :=
  (readIpAddr text).bind fun read => if read.2 = [] then some read.1 else none

def isUnspecified : IpAddr → Bool
  | v4 ip => ip.octets.all (· = 0)
  | v6 ip => ip.segments.all (· = 0)

end IpAddr

def Ipv4Addr.toText (ip : Ipv4Addr) : Text := ['.'].intercalate (ip.octets.map fun octet => decimal octet.toNat)

namespace Ipv6Addr

def toIpv4Mapped (ip : Ipv6Addr) : Option Ipv4Addr :=
  match ip.segments with
  | [0, 0, 0, 0, 0, 0xFFFF, ab, cd] =>
    some ⟨[(ab / 256).toUInt8, ab.toUInt8, (cd / 256).toUInt8, cd.toUInt8], rfl⟩
  | _ => none

structure Span where
  start : Nat := 0
  len : Nat := 0

/-- `longest` is the longest run so far, `current` the one that ends here. -/
def widen (longest current : Span) (index : Nat) : List UInt16 → Span
  | [] => longest
  | segment :: segments =>
    if segment = 0 then
      let current : Span := ⟨if current.len = 0 then index else current.start, current.len + 1⟩
      widen (if longest.len < current.len then current else longest) current (index + 1) segments
    else widen longest {} (index + 1) segments

def zeroes (ip : Ipv6Addr) : Span := widen {} {} 0 ip.segments

def subsliceText (chunk : List UInt16) : Text :=
  [':'].intercalate (chunk.map fun segment => Nat.toDigits 16 segment.toNat)

def toText (ip : Ipv6Addr) : Text :=
  match ip.toIpv4Mapped with
  | some mapped => "::ffff:".toList ++ mapped.toText
  | none =>
    let zeroes := ip.zeroes
    if 1 < zeroes.len then
      subsliceText (ip.segments.take zeroes.start) ++ "::".toList ++
        subsliceText (ip.segments.drop (zeroes.start + zeroes.len))
    else subsliceText ip.segments

end Ipv6Addr

theorem exists_digitChar_of_mem_toDigits {b n : Nat} {c : Char} (hb : 1 < b) (h : c ∈ Nat.toDigits b n) :
    ∃ d, d < b ∧ c = d.digitChar := by
  induction n using Nat.strong_induction_on with
  | h n ih =>
    rw [Nat.toDigits_eq_if hb] at h
    by_cases hn : n < b
    · rw [if_pos hn, List.mem_singleton] at h
      exact ⟨n, hn, h⟩
    · rw [if_neg hn, List.mem_append, List.mem_singleton] at h
      rcases h with h | h
      · exact ih (n / b) (Nat.div_lt_self (by omega) hb) h
      · exact ⟨n % b, Nat.mod_lt n (by omega), h⟩

theorem slash_not_mem_toDigits {b n : Nat} (hb : 1 < b) (hle : b ≤ 16) : '/' ∉ Nat.toDigits b n := by
  intro h
  obtain ⟨d, hd, hc⟩ := exists_digitChar_of_mem_toDigits hb h
  have hnone : ∀ d < 16, '/' ≠ Nat.digitChar d := by decide
  exact hnone d (by omega) hc

theorem not_mem_intercalate {c : Char} {sep : Text} {parts : List Text} (hsep : c ∉ sep)
    (hparts : ∀ part ∈ parts, c ∉ part) : c ∉ sep.intercalate parts := by
  induction parts with
  | nil => exact List.not_mem_nil
  | cons part parts ih =>
    have hpart := hparts part List.mem_cons_self
    have hrest := ih fun other hother => hparts other (List.mem_cons_of_mem part hother)
    by_cases hparts : parts = []
    · rw [hparts, List.intercalate_singleton]
      exact hpart
    · rw [List.intercalate_cons_of_ne_nil hparts]
      simp [hpart, hsep, hrest]

theorem Ipv4Addr.slash_not_mem_toText (ip : Ipv4Addr) : '/' ∉ ip.toText := by
  apply not_mem_intercalate (by decide)
  intro part hpart
  obtain ⟨octet, _, rfl⟩ := List.mem_map.mp hpart
  rw [decimal_eq]
  exact slash_not_mem_toDigits (by decide) (by decide)

theorem Ipv6Addr.slash_not_mem_subsliceText (chunk : List UInt16) : '/' ∉ subsliceText chunk := by
  apply not_mem_intercalate (by decide)
  intro part hpart
  obtain ⟨segment, _, rfl⟩ := List.mem_map.mp hpart
  exact slash_not_mem_toDigits (by decide) (by decide)

theorem Ipv6Addr.slash_not_mem_toText (ip : Ipv6Addr) : '/' ∉ ip.toText := by
  rw [toText]
  split
  · rename_i mapped _
    simp [Ipv4Addr.slash_not_mem_toText]
  · dsimp only
    split
    · simp [slash_not_mem_subsliceText]
    · exact slash_not_mem_subsliceText ip.segments

end SparkDashboard.Library
