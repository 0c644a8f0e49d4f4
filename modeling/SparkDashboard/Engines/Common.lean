import Mathlib.Algebra.Order.Field.Basic
import Mathlib.Data.Rat.Floor
import Mathlib.Tactic.Linarith
import SparkDashboard.Library.Json.Value

/-!
# Counter rates and speculative-decoding figures

The plumbing the adapters share: how a token counter becomes a rate and a running
mean, and the JSON bodies engines answer with. Instants are rational seconds.
-/

namespace SparkDashboard.Engines

abbrev Instant := ℚ

inductive SerdeNumber where
  | posInt (n : Nat)
  | negInt (n : Int)
  | float (v : ℚ)
  deriving DecidableEq

abbrev Value := Json String SerdeNumber

def valueAsU64 : Value → Option Nat
  | .number (.posInt n) => some n
  | _ => none

/-- Unicode `White_Space`. -/
def isWhitespace (c : Char) : Bool :=
  let n := c.toNat
  (9 ≤ n && n ≤ 13) || n == 0x20 || n == 0x85 || n == 0xA0 || n == 0x1680 ||
    (0x2000 ≤ n && n ≤ 0x200A) || n == 0x2028 || n == 0x2029 || n == 0x202F || n == 0x205F || n == 0x3000

theorem isWhitespace_of_isDigit {c : Char} (h : c.isDigit = true) : isWhitespace c = false := by
  have hrange : 48 ≤ c.toNat ∧ c.toNat ≤ 57 := Char.isDigit_iff_toNat.mp h
  simp only [isWhitespace, Bool.or_eq_false_iff, Bool.and_eq_false_iff, decide_eq_false_iff_not, beq_eq_false_iff_ne]
  omega

def isBracket (c : Char) : Bool := c = '[' || c = ']'

/-- Rust's `str::trim`. -/
def trim (s : String) : String :=
  String.ofList ((s.toList.dropWhile isWhitespace).reverse.dropWhile isWhitespace).reverse

def isSuccess (status : Nat) : Bool := decide (200 ≤ status ∧ status < 300)

/-- The rates of one poll, handed to the mapping of its scrape. -/
structure RateInputs where
  tokensPerSec : Option ℚ
  promptTokensPerSec : Option ℚ
  avgTokensPerSec : Option ℚ
  avgPromptTokensPerSec : Option ℚ

structure CounterRate where
  /-- The previous reading and when it was taken. -/
  prev : Option (ℚ × Instant) := none
  /-- `(sum of rates, how many)` behind the running mean. -/
  accum : ℚ × Nat := (0, 0)
  deriving DecidableEq

namespace CounterRate

def durationSince (now earlier : Instant) : ℚ := max (now - earlier) 0

def rate (r : CounterRate) (current : Option ℚ) (now : Instant) : Option ℚ :=
  match current, r.prev with
  | some current, some (prevVal, prevTime) =>
    let elapsed := durationSince now prevTime
    if 0 < elapsed then some ((current - prevVal) / elapsed) else none
  | _, _ => none

/-- Feed the counter's reading at `now`; returns `(rate, running mean)`. -/
def observe (r : CounterRate) (current : Option ℚ) (now : Instant) :
    (Option ℚ × Option ℚ) × CounterRate :=
  let rate := r.rate current now
  let prev := match current with
    | some val => some (val, now)
    | none => r.prev
  let accum := match rate with
    | some v => if 0 < v then (r.accum.1 + v, r.accum.2 + 1) else r.accum
    | none => r.accum
  let mean := if 0 < accum.2 then some (accum.1 / (accum.2 : ℚ)) else none
  ((rate, mean), ⟨prev, accum⟩)

def reset (_ : CounterRate) : CounterRate := {}

@[simp] theorem rate_none (r : CounterRate) (now : Instant) : r.rate none now = none := rfl

theorem rate_of_prev_none {r : CounterRate} (h : r.prev = none) (current : Option ℚ) (now : Instant) :
    r.rate current now = none := by
  cases current <;> simp [rate, h]

@[simp] theorem rate_reset (r : CounterRate) (current : Option ℚ) (now : Instant) :
    r.reset.rate current now = none := by
  cases current <;> rfl

theorem durationSince_of_lt {now earlier : Instant} (h : earlier < now) :
    durationSince now earlier = now - earlier :=
  max_eq_left (by linarith)

theorem rate_of_lt {r : CounterRate} {v prevVal : ℚ} {now prevTime : Instant}
    (hprev : r.prev = some (prevVal, prevTime)) (htime : prevTime < now) :
    r.rate (some v) now = some ((v - prevVal) / (now - prevTime)) := by
  simp only [rate, hprev, durationSince_of_lt htime, sub_pos, htime, if_true]

theorem rate_negative_iff {r : CounterRate} {v prevVal : ℚ} {now prevTime : Instant}
    (hprev : r.prev = some (prevVal, prevTime)) (htime : prevTime < now) :
    (∃ x, r.rate (some v) now = some x ∧ x < 0) ↔ v < prevVal := by
  have hpos : 0 < now - prevTime := sub_pos.mpr htime
  rw [rate_of_lt hprev htime]
  constructor
  · rintro ⟨x, hx, hneg⟩
    cases hx
    by_contra hle
    exact absurd hneg (not_lt.mpr (div_nonneg (by linarith) hpos.le))
  · intro h
    exact ⟨_, rfl, div_neg_of_neg_of_pos (by linarith) hpos⟩

end CounterRate

def specAcceptanceRate (accepted draft : Option ℚ) : Option ℚ :=
  match accepted, draft with
  | some a, some d => if 0 < d ∧ 0 ≤ a then some (a / d * 100) else none
  | _, _ => none

def specMeanAcceptanceLength (accepted drafts : Option ℚ) : Option ℚ :=
  match accepted, drafts with
  | some a, some n => if 0 < n then some (a / n) else none
  | _, _ => none

/-- The acceptance rate between two `(accepted, draft)` readings; `none` when a
counter went backwards. -/
def specLiveAcceptanceRate (prev now : Option (ℚ × ℚ)) : Option ℚ :=
  match prev, now with
  | some (prevAcc, prevDraft), some (acc, draft) =>
    if prevAcc ≤ acc ∧ prevDraft ≤ draft then
      specAcceptanceRate (some (acc - prevAcc)) (some (draft - prevDraft))
    else none
  | _, _ => none

end SparkDashboard.Engines
