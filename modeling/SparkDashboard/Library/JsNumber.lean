import SparkDashboard.Library.Binary64
import SparkDashboard.Library.Json.Text

/-!
# Numbers of JavaScript

The doubles, how one is written with the fewest digits that read back as it, and how a
text is read as one. Zero and negative zero are one number, as `===` has them.
-/

structure Double where
  value : ℚ
  isDouble : Binary64.nearestDouble value = value
  inRange : |value| < 2 ^ 1024
  deriving DecidableEq

inductive JsNumber where
  | finite (d : Double)
  | infinity (negative : Bool)
  | nan
  deriving DecidableEq

namespace JsNumber

open Binary64 Utf16

def ofRat (q : ℚ) : JsNumber :=
  if h : |nearestDouble q| < 2 ^ 1024 then .finite ⟨nearestDouble q, nearestDouble_idem q, h⟩
  else .infinity (decide (q < 0))

def ofNumeral (n : Numeral) : JsNumber := ofRat n.value

section Writing

/-- What `x` rounds to in units of `10 ^ j`. -/
def tensOf (x : ℚ) (j : Int) : Int := roundHalfEven (x / 10 ^ j)

/-- The multiple of `10 ^ j` nearest to `x` of those that read back as it. Only the two around `x` can be:
where the doubles below `x` are closer together than those above, the nearer one may not. -/
def multipleAt (x : ℚ) (j : Int) : Option Int :=
  [tensOf x j, ⌊x / 10 ^ j⌋, ⌈x / 10 ^ j⌉].find? fun r => decide (nearestDouble (r * 10 ^ j) = x)

/-- The multiple of the largest unit one of whose multiples reads back as `x`. -/
def shortest (x : ℚ) : Int × Int :=
  let top := Int.log 10 |x| + 1
  (((List.range (top + 1075).toNat).map fun i => top - (i : Int)).findSome? fun j =>
    (multipleAt x j).map fun r => (r, j)).getD (tensOf x (-1074), -1074)

/-- `Number::toString`'s four ways of setting out digits times `10 ^ j`. -/
def layout (negative : Bool) (digits : Utf16) (j : Int) : Numeral :=
  let k := digits.length
  let n := j + k
  if k ≤ n ∧ n ≤ 21 then ⟨negative, digits ++ List.replicate j.toNat 0x30, [], none⟩
  else if 0 < n ∧ n ≤ 21 then ⟨negative, digits.take n.toNat, digits.drop n.toNat, none⟩
  else if -6 < n ∧ n ≤ 0 then ⟨negative, [0x30], List.replicate (-n).toNat 0x30 ++ digits, none⟩
  else ⟨negative, digits.take 1, digits.drop 1, some (decide (n - 1 < 0), decimal (n - 1).natAbs)⟩

def toNumeral : JsNumber → Option Numeral
  | .finite d =>
    if d.value = 0 then some ⟨false, [0x30], [], none⟩
    else
      let found := shortest d.value
      some (layout (decide (found.1 < 0)) (decimal found.1.natAbs) found.2)
  | _ => none

/-- `Number::toString`. -/
def toText (n : JsNumber) : Utf16 :=
  match n with
  | .infinity negative => Numeral.signText negative ++ utf16 "Infinity"
  | .nan => utf16 "NaN"
  | .finite d => ((toNumeral (.finite d)).map Numeral.text).getD []

theorem nearestDouble_multipleAt {x : ℚ} {j r : Int} (h : multipleAt x j = some r) :
    nearestDouble (r * 10 ^ j) = x := by
  rw [multipleAt] at h
  have hfound := List.find?_some h
  exact of_decide_eq_true hfound

theorem nearestDouble_shortest (d : Double) :
    nearestDouble ((shortest d.value).1 * 10 ^ (shortest d.value).2) = d.value := by
  rw [shortest]
  cases hfind : ((List.range (Int.log 10 |d.value| + 1 + 1075).toNat).map fun i =>
      Int.log 10 |d.value| + 1 - (i : Int)).findSome? fun j => (multipleAt d.value j).map fun r => (r, j) with
  | some found =>
    obtain ⟨j, -, hj⟩ := List.exists_of_findSome?_eq_some hfind
    obtain ⟨r, hr, rfl⟩ := Option.map_eq_some_iff.mp hj
    exact nearestDouble_multipleAt hr
  | none =>
    obtain ⟨k, hk⟩ := nearestDouble_whole d.value
    rw [d.isDouble] at hk
    have hvalue : (k : ℚ) * 10 ^ (-1074 : Int) = d.value := by
      rw [← hk, div_mul_cancel₀ _ (zpow_ne_zero _ (by norm_num))]
    rw [Option.getD_none, tensOf, hk, roundHalfEven_intCast, hvalue, d.isDouble]

theorem layout_magnitude (negative : Bool) {digits : Utf16} (hne : digits ≠ []) (j : Int) :
    (layout negative digits j).magnitude = natOf digits * 10 ^ j := by
  have hlength := List.length_pos_iff.mpr hne
  simp only [layout]
  split
  · rename_i h
    have hj : ((j.toNat : Nat) : Int) = j := Int.toNat_of_nonneg (by omega)
    simp only [Numeral.magnitude, Numeral.scale, List.append_nil, List.length_nil]
    rw [natOf_append, natOf_replicate_zero, List.length_replicate]
    push_cast
    rw [add_zero, mul_one, ← zpow_natCast, hj]
  split
  · simp only [Numeral.magnitude, Numeral.scale, List.take_append_drop, List.length_drop]
    congr 2
    omega
  split
  · simp only [Numeral.magnitude, Numeral.scale, List.length_append, List.length_replicate]
    have hzero : natOf [0x30] = 0 := rfl
    rw [natOf_append, hzero, zero_mul, zero_add, natOf_append, natOf_replicate_zero, zero_mul, zero_add]
    congr 2
    omega
  · have hscale : (if decide (j + digits.length - 1 < 0) = true
        then -(natOf (decimal (j + digits.length - 1).natAbs) : Int)
        else natOf (decimal (j + digits.length - 1).natAbs)) = j + digits.length - 1 := by
      rw [natOf_decimal]
      split
      · rename_i hneg
        rw [decide_eq_true_eq] at hneg
        omega
      · rename_i hpos
        rw [decide_eq_true_eq] at hpos
        omega
    simp only [Numeral.magnitude, Numeral.scale, List.take_append_drop, List.length_drop]
    rw [hscale]
    congr 2
    omega

theorem layout_negative (negative : Bool) (digits : Utf16) (j : Int) :
    (layout negative digits j).negative = negative := by
  simp only [layout]
  split
  · rfl
  split
  · rfl
  split <;> rfl

theorem layout_value (r j : Int) :
    (layout (decide (r < 0)) (decimal r.natAbs) j).value = r * 10 ^ j := by
  rw [Numeral.value, layout_magnitude _ (decimal_ne_nil _), layout_negative, natOf_decimal, Nat.cast_natAbs]
  split
  · rename_i hneg
    rw [abs_of_neg (of_decide_eq_true hneg), Int.cast_neg, neg_mul, neg_neg]
  · rename_i hpos
    rw [decide_eq_true_eq, not_lt] at hpos
    rw [abs_of_nonneg hpos]

theorem layout_valid (negative : Bool) {s : Nat} (hs : s ≠ 0) (j : Int) :
    (layout negative (decimal s) j).Valid := by
  have hdigits : ∀ u ∈ decimal s, isDigit u = true := fun u hu => isDigit_of_mem_decimal hu
  have hzeros : ∀ n, ∀ u ∈ List.replicate n (0x30 : UInt16), isDigit u = true := by
    intro n u hu
    rw [List.eq_of_mem_replicate hu]
    decide
  obtain ⟨u, rest, hu⟩ := List.exists_cons_of_ne_nil (decimal_ne_nil s)
  have hhead : u ≠ 0x30 := by
    rintro rfl
    apply head_decimal_ne_zero hs
    rw [hu]
    rfl
  simp only [layout]
  split
  · refine ⟨?_, .inr ⟨u, rest ++ List.replicate j.toNat 0x30, by rw [hu]; rfl, hhead⟩, ?_, ?_⟩
    · intro v hv
      rcases List.mem_append.mp hv with hv | hv
      · exact hdigits v hv
      · exact hzeros _ v hv
    · intro v hv
      cases hv
    · intro sign digits h
      cases h
  split
  · rename_i hsplit
    refine ⟨fun v hv => hdigits v (List.mem_of_mem_take hv), .inr ?_,
      fun v hv => hdigits v (List.mem_of_mem_drop hv), ?_⟩
    · have hpos : (j + ((decimal s).length : Int)).toNat ≠ 0 := by omega
      obtain ⟨m, hm⟩ := Nat.exists_eq_succ_of_ne_zero hpos
      exact ⟨u, rest.take m, by rw [hm, hu, List.take_succ_cons], hhead⟩
    · intro sign digits h
      cases h
  split
  · refine ⟨?_, .inl rfl, ?_, ?_⟩
    · intro v hv
      rw [List.mem_singleton.mp hv]
      decide
    · intro v hv
      rcases List.mem_append.mp hv with hv | hv
      · exact hzeros _ v hv
      · exact hdigits v hv
    · intro sign digits h
      cases h
  · refine ⟨fun v hv => hdigits v (List.mem_of_mem_take hv), .inr ⟨u, [], by rw [hu]; rfl, hhead⟩,
      fun v hv => hdigits v (List.mem_of_mem_drop hv), ?_⟩
    rintro sign digits ⟨⟩
    exact ⟨decimal_ne_nil _, fun v hv => isDigit_of_mem_decimal hv⟩

theorem ofRat_of_nearest {q : ℚ} {d : Double} (h : nearestDouble q = d.value) : ofRat q = .finite d := by
  have hrange : |nearestDouble q| < 2 ^ 1024 := by
    rw [h]
    exact d.inRange
  rw [ofRat, dif_pos hrange]
  congr

theorem prints_finite (d : Double) : Json.Prints ofNumeral toNumeral (.finite d) := by
  rw [Json.Prints, toNumeral]
  by_cases hzero : d.value = 0
  · rw [if_pos hzero]
    refine ⟨_, rfl, ⟨?_, .inl rfl, ?_, ?_⟩, ?_⟩
    · intro u hu
      rw [List.mem_singleton.mp hu]
      decide
    · intro u hu
      cases hu
    · intro sign digits h
      cases h
    · apply ofRat_of_nearest
      have hvalue : Numeral.value ⟨false, [0x30], [], none⟩ = 0 := by
        simp [Numeral.value, Numeral.magnitude, natOf]
      rw [hzero, hvalue, nearestDouble, if_pos rfl]
  · rw [if_neg hzero]
    have hround := nearestDouble_shortest d
    have hr : (shortest d.value).1 ≠ 0 := by
      intro hr
      rw [hr, Int.cast_zero, zero_mul, nearestDouble, if_pos rfl] at hround
      exact hzero hround.symm
    refine ⟨_, rfl, layout_valid _ (Int.natAbs_ne_zero.mpr hr) _, ?_⟩
    apply ofRat_of_nearest
    rw [layout_value, hround]

end Writing

section Reading

def radixValue (radix : Nat) (digits : Utf16) : Option Nat :=
  if digits = [] then none
  else digits.foldlM (fun n u => (Json.hexValue u).bind fun d => if d < radix then some (radix * n + d) else none) 0

/-- A decimal literal with its sign off. -/
def unsignedDecimal (negative : Bool) (text : Utf16) : JsNumber :=
  if text = utf16 "Infinity" then .infinity negative
  else
    let (whole, rest) := Numeral.readDigits text
    let (fraction, rest) := if rest.head? = some 0x2E then Numeral.readDigits rest.tail else ([], rest)
    if whole = [] ∧ fraction = [] then .nan
    else
      match Numeral.readExponent rest with
      | some (exponent, []) => ofNumeral ⟨negative, whole, fraction, exponent⟩
      | _ => .nan

/-- `Number(text)`. -/
def ofString (text : Utf16) : JsNumber :=
  match trim text with
  | [] => ofRat 0
  | u :: rest =>
    let radix := if u = 0x30 then radixOf rest.head? else none
    match radix with
    | some radix =>
      match radixValue radix rest.tail with
      | some n => ofRat n
      | none => .nan
    | none =>
      if u = 0x2D then unsignedDecimal true rest
      else if u = 0x2B then unsignedDecimal false rest
      else unsignedDecimal false (u :: rest)
where
  radixOf (mark : Option UInt16) : Option Nat :=
    if mark = some 0x78 ∨ mark = some 0x58 then some 16
    else if mark = some 0x6F ∨ mark = some 0x4F then some 8
    else if mark = some 0x62 ∨ mark = some 0x42 then some 2
    else none

theorem ends_nil : Numeral.Ends [] := by
  intro u hu
  cases hu

theorem head_whole {n : Numeral} (h : n.Valid) (rest : Utf16) :
    ∃ u tail, n.whole ++ rest = u :: (tail ++ rest) ∧ isDigit u = true ∧ (u = 0x30 → tail = []) := by
  rcases h.wholeHead with hzero | ⟨u, tail, hwhole, hne⟩
  · rw [hzero]
    exact ⟨0x30, [], rfl, by decide, fun _ => rfl⟩
  · have hdigit : isDigit u = true := h.wholeDigits u (hwhole ▸ List.mem_cons_self)
    rw [hwhole]
    exact ⟨u, tail, rfl, hdigit, fun hu => absurd hu hne⟩

/-- What follows the whole part of a token is not a digit. -/
theorem head_fraction (n : Numeral) (u : UInt16)
    (hu : (Numeral.fractionText n.fraction ++ Numeral.exponentText n.exponent).head? = some u) :
    isDigit u = false ∧ (n.fraction = [] → u ≠ 0x2E) ∧ u ≠ 0x78 ∧ u ≠ 0x58 ∧ u ≠ 0x6F ∧ u ≠ 0x4F ∧
      u ≠ 0x62 ∧ u ≠ 0x42 := by
  rw [Numeral.fractionText] at hu
  split at hu
  · cases hexponent : n.exponent with
    | none =>
      rw [hexponent] at hu
      cases hu
    | some exponent =>
      rw [hexponent] at hu
      obtain rfl : 0x65 = u := Option.some.inj hu
      exact ⟨by decide, fun _ => by decide, by decide⟩
  · rename_i hne
    obtain rfl : 0x2E = u := Option.some.inj hu
    exact ⟨by decide, fun hnil => absurd hnil hne, by decide⟩

theorem radixOf_eq_none {mark : Option UInt16}
    (h : ∀ u, mark = some u → u ≠ 0x78 ∧ u ≠ 0x58 ∧ u ≠ 0x6F ∧ u ≠ 0x4F ∧ u ≠ 0x62 ∧ u ≠ 0x42) :
    ofString.radixOf mark = none := by
  cases mark with
  | none => rfl
  | some u =>
    obtain ⟨hx, hX, ho, hO, hb, hB⟩ := h u rfl
    simp [ofString.radixOf, hx, hX, ho, hO, hb, hB]

theorem unsignedDecimal_text {n : Numeral} (h : n.Valid) (negative : Bool) :
    unsignedDecimal negative (n.whole ++ (Numeral.fractionText n.fraction ++ Numeral.exponentText n.exponent)) =
      ofNumeral ⟨negative, n.whole, n.fraction, n.exponent⟩ := by
  obtain ⟨u, tail, hcons, hdigit, -⟩ :=
    head_whole h (Numeral.fractionText n.fraction ++ Numeral.exponentText n.exponent)
  have hfinite : n.whole ++ (Numeral.fractionText n.fraction ++ Numeral.exponentText n.exponent) ≠
      utf16 "Infinity" := by
    intro hinfinity
    have hhead : (utf16 "Infinity").head? = some u := by
      rw [← hinfinity, hcons]
      rfl
    obtain rfl : 0x49 = u := Option.some.inj hhead
    exact absurd hdigit (by decide)
  have hwhole : n.whole ≠ [] := by
    intro hnil
    rcases h.wholeHead with hzero | ⟨u, tail, hwhole, -⟩
    · rw [hzero] at hnil
      cases hnil
    · rw [hwhole] at hnil
      cases hnil
  have hexponent : Numeral.readExponent (Numeral.exponentText n.exponent) = some (n.exponent, []) := by
    have hread := Numeral.readExponent_text h.exponentDigits ends_nil
    rwa [List.append_nil] at hread
  rw [unsignedDecimal, if_neg hfinite,
    Numeral.readDigits_append h.wholeDigits fun v hv => (head_fraction n v hv).1]
  by_cases hnil : n.fraction = []
  · have hpoint : (Numeral.exponentText n.exponent).head? ≠ some 0x2E := by
      intro hpoint
      have hhead := head_fraction n 0x2E (by rw [hnil]; exact hpoint)
      exact hhead.2.1 hnil rfl
    simp only [hnil, Numeral.fractionText, if_true, List.nil_append, if_neg hpoint, hwhole, false_and, if_false,
      hexponent]
  · have hafter : ∀ v, (Numeral.exponentText n.exponent).head? = some v → isDigit v = false := by
      intro v hv
      rw [← List.append_nil (Numeral.exponentText n.exponent)] at hv
      exact (Numeral.head_exponentText n.exponent ends_nil v hv).1
    have hdigits := Numeral.readDigits_append h.fractionDigits hafter
    simp only [Numeral.fractionText, if_neg hnil, List.cons_append, List.head?_cons, List.tail_cons, if_true,
      hdigits, hwhole, false_and, if_false, hexponent]

theorem trimmed_text {n : Numeral} (h : n.Valid) : Trimmed n.text := by
  apply trimmed_of_forall
  intro u hu
  have hdigits {digits : Utf16} (hall : ∀ v ∈ digits, isDigit v = true) (hmem : u ∈ digits) :
      isSpace u = false := isSpace_of_isDigit (hall u hmem)
  rw [Numeral.text, List.mem_append, List.mem_append, List.mem_append] at hu
  rcases hu with hsign | hwhole | hfraction | hexponent
  · cases hnegative : n.negative with
    | true =>
      rw [hnegative] at hsign
      obtain rfl : u = 0x2D := List.mem_singleton.mp hsign
      decide
    | false =>
      rw [hnegative] at hsign
      cases hsign
  · exact hdigits h.wholeDigits hwhole
  · rw [Numeral.fractionText] at hfraction
    split at hfraction
    · cases hfraction
    · rcases List.mem_cons.mp hfraction with rfl | hmem
      · decide
      · exact hdigits h.fractionDigits hmem
  · cases hexp : n.exponent with
    | none =>
      rw [hexp] at hexponent
      cases hexponent
    | some exponent =>
      rw [hexp, Numeral.exponentText] at hexponent
      rcases List.mem_cons.mp hexponent with rfl | hexponent
      · decide
      rcases List.mem_cons.mp hexponent with rfl | hmem
      · split <;> decide
      · exact hdigits (h.exponentDigits exponent.1 exponent.2 hexp).2 hmem

/-- The text of a token reads back as the number it stands for. -/
theorem ofString_text {n : Numeral} (h : n.Valid) : ofString n.text = ofNumeral n := by
  obtain ⟨u, tail, hcons, hdigit, hzero⟩ :=
    head_whole h (Numeral.fractionText n.fraction ++ Numeral.exponentText n.exponent)
  have hread := unsignedDecimal_text h n.negative
  rw [ofString, trim_of_trimmed (trimmed_text h), Numeral.text]
  cases hnegative : n.negative with
  | true =>
    rw [hnegative] at hread
    have hn : n = ⟨true, n.whole, n.fraction, n.exponent⟩ := by
      rw [← hnegative]
    rw [Numeral.signText, if_pos rfl, List.singleton_append]
    simp only [show (0x2D : UInt16) ≠ 0x30 by decide, if_false, if_true, hread]
    rw [← hn]
  | false =>
    rw [hnegative] at hread
    have hn : n = ⟨false, n.whole, n.fraction, n.exponent⟩ := by
      rw [← hnegative]
    have hradix : (if u = 0x30 then
        ofString.radixOf (tail ++ (Numeral.fractionText n.fraction ++ Numeral.exponentText n.exponent)).head?
        else none) = none := by
      split
      · rename_i hu
        rw [hzero hu, List.nil_append]
        exact radixOf_eq_none fun v hv => (head_fraction n v hv).2.2
      · rfl
    have hminus : u ≠ 0x2D := by
      rintro rfl
      exact absurd hdigit (by decide)
    have hplus : u ≠ 0x2B := by
      rintro rfl
      exact absurd hdigit (by decide)
    rw [Numeral.signText, if_neg Bool.false_ne_true, List.nil_append, hcons]
    simp only [hradix, if_neg hminus, if_neg hplus]
    rw [← hcons, hread, ← hn]

/-- A double's text reads back as it. -/
theorem ofString_toText (d : Double) : ofString (toText (.finite d)) = .finite d := by
  obtain ⟨n, htext, hvalid, hn⟩ := prints_finite d
  rw [toText, htext, Option.map_some, Option.getD_some, ofString_text hvalid, hn]

end Reading

section Integers

def toInt : JsNumber → Option Int
  | .finite d => if d.value.isInt then some d.value.num else none
  | _ => none

def ofNat (n : Nat) : JsNumber := ofRat n

def ofInt (n : Int) : JsNumber := ofRat n

theorem ofInt_of_abs_le {n : Int} (h : |n| ≤ 2 ^ 53) : ∃ d : Double, ofInt n = .finite d ∧ d.value = n := by
  have hrange : |(n : ℚ)| < 2 ^ 1024 := by
    have hpow : (2 : ℚ) ^ 53 < 2 ^ 1024 := pow_lt_pow_right₀ (by norm_num) (by norm_num)
    exact lt_of_le_of_lt (by exact_mod_cast h) hpow
  exact ⟨⟨n, nearestDouble_intCast h, hrange⟩, ofRat_of_nearest (nearestDouble_intCast h), rfl⟩

theorem toInt_eq_some_iff {v : JsNumber} {n : Int} :
    v.toInt = some n ↔ ∃ d : Double, v = .finite d ∧ d.value = n := by
  constructor
  · intro h
    rw [toInt.eq_def] at h
    split at h
    · rename_i d
      split at h
      · rename_i hint
        refine ⟨d, rfl, ?_⟩
        rw [← Option.some.inj h]
        exact (Rat.eq_num_of_isInt hint)
      · cases h
    · cases h
  · rintro ⟨d, rfl, hvalue⟩
    rw [toInt, hvalue]
    simp [Rat.isInt]

theorem toInt_ofInt {n : Int} (h : |n| ≤ 2 ^ 53) : (ofInt n).toInt = some n :=
  toInt_eq_some_iff.mpr (ofInt_of_abs_le h)

theorem ofInt_of_toInt {v : JsNumber} {n : Int} (h : v.toInt = some n) : ofInt n = v := by
  obtain ⟨d, rfl, hvalue⟩ := toInt_eq_some_iff.mp h
  apply ofRat_of_nearest
  rw [← hvalue, d.isDouble]

theorem ofNat_of_le {n : Nat} (h : n ≤ 2 ^ 53) : ∃ d : Double, ofNat n = .finite d ∧ d.value = n := by
  have hle : |(n : Int)| ≤ 2 ^ 53 := by
    rw [Nat.abs_cast]
    exact_mod_cast h
  have hcast : ofInt n = ofNat n := by rw [ofInt, ofNat, Int.cast_natCast]
  obtain ⟨d, hd, hvalue⟩ := ofInt_of_abs_le hle
  exact ⟨d, hcast ▸ hd, by rw [hvalue, Int.cast_natCast]⟩

theorem toInt_ofNat {n : Nat} (h : n ≤ 2 ^ 53) : (ofNat n).toInt = some (n : Int) := by
  obtain ⟨d, hd, hvalue⟩ := ofNat_of_le h
  exact toInt_eq_some_iff.mpr ⟨d, hd, by rw [hvalue, Int.cast_natCast]⟩

end Integers

section Operators

def add : JsNumber → JsNumber → JsNumber
  | .finite a, .finite b => ofRat (a.value + b.value)
  | .infinity a, .infinity b => if a = b then .infinity a else .nan
  | .infinity a, .finite _ => .infinity a
  | .finite _, .infinity b => .infinity b
  | _, _ => .nan

/-- `<`, with which nothing that is not a number stands in any relation. -/
def lt : JsNumber → JsNumber → Bool
  | .finite a, .finite b => decide (a.value < b.value)
  | .finite _, .infinity negative => !negative
  | .infinity negative, .finite _ => negative
  | .infinity a, .infinity b => a && !b
  | _, _ => false

/-- `===`. -/
def strictEq (a b : JsNumber) : Bool := decide (a = b ∧ a ≠ .nan)

theorem add_of_toInt {a b : JsNumber} {m n : Int} (ha : a.toInt = some m) (hb : b.toInt = some n) :
    a.add b = ofInt (m + n) := by
  obtain ⟨d, rfl, hd⟩ := toInt_eq_some_iff.mp ha
  obtain ⟨e, rfl, he⟩ := toInt_eq_some_iff.mp hb
  rw [add, hd, he, ofInt, Int.cast_add]

theorem lt_of_toInt {a b : JsNumber} {m n : Int} (ha : a.toInt = some m) (hb : b.toInt = some n) :
    a.lt b = decide (m < n) := by
  obtain ⟨d, rfl, hd⟩ := toInt_eq_some_iff.mp ha
  obtain ⟨e, rfl, he⟩ := toInt_eq_some_iff.mp hb
  rw [lt, hd, he, decide_eq_decide, Int.cast_lt]

theorem strictEq_of_toInt {a b : JsNumber} {n : Int} (hb : b.toInt = some n) :
    a.strictEq b = decide (a.toInt = some n) := by
  rw [strictEq, decide_eq_decide]
  constructor
  · rintro ⟨rfl, _⟩
    exact hb
  · intro ha
    refine ⟨(ofInt_of_toInt ha).symm.trans (ofInt_of_toInt hb), ?_⟩
    rintro rfl
    cases ha

end Operators

end JsNumber
