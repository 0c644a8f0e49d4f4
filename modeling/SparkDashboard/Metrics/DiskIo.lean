import Mathlib.Algebra.Order.Group.MinMax
import Mathlib.Data.UInt
import SparkDashboard.Library.Binary64
import SparkDashboard.Library.Distinct
import SparkDashboard.Library.Stepping
import SparkDashboard.Metrics.DeviceNames

/-!
# Disk throughput

Counters read from the kernel become bytes per second: each reading is set against the one
before it, device by device. The division is done in doubles.
-/

namespace SparkDashboard.Metrics

open SparkDashboard.Library Chars Distinct Binary64 RelativeError Stepping

/-- A length of time in nanoseconds. Its whole seconds fit 64 bits. -/
structure Duration where
  nanos : Nat
  inRange : nanos < 2 ^ 64 * 10 ^ 9

/-- The time since the monotonic clock began. -/
abbrev Instant := Duration

def saturatingDurationSince (now earlier : Instant) : Duration :=
  ⟨now.nanos - earlier.nanos, (Nat.sub_le _ _).trans_lt now.inRange⟩

def asSecsF64 (d : Duration) : ℚ :=
  nearestDouble (nearestDouble (d.nanos / 10 ^ 9 : Nat) +
    nearestDouble (nearestDouble (d.nanos % 10 ^ 9 : Nat) / 10 ^ 9))

/-- The cast saturates. -/
def asU64 (q : ℚ) : UInt64 := UInt64.ofNat (min ⌊q⌋.toNat (2 ^ 64 - 1))

def saturatingSub (a b : UInt64) : UInt64 := if b ≤ a then a - b else 0

/-- Bytes per sector, whatever the device's block size. -/
def sectorBytes : Nat := 512

def bytesPerSecond (sectors : UInt64) (elapsed : Duration) : UInt64 :=
  asU64 (roundHalfAway (nearestDouble
    (nearestDouble (nearestDouble sectors.toNat * sectorBytes) / asSecsF64 elapsed)))

/-- Cumulative sector counters of one block device. -/
structure DeviceCounters where
  name : Text
  sectorsRead : UInt64
  sectorsWritten : UInt64

structure Reading where
  takenAt : Instant
  devices : List DeviceCounters

def addGrowth (previous : List DeviceCounters) (sums : UInt64 × UInt64) (device : DeviceCounters) : UInt64 × UInt64 :=
  match previous.find? (fun d => d.name = device.name) with
  | none => sums
  | some before =>
    (sums.1 + saturatingSub device.sectorsRead before.sectorsRead,
      sums.2 + saturatingSub device.sectorsWritten before.sectorsWritten)

def ioRates (previous current : Reading) : UInt64 × UInt64 :=
  let elapsed := saturatingDurationSince current.takenAt previous.takenAt
  if elapsed.nanos = 0 then (0, 0)
  else
    let sums := current.devices.foldl (addGrowth previous.devices) (0, 0)
    (bytesPerSecond sums.1 elapsed, bytesPerSecond sums.2 elapsed)

structure DiskIoSampler where
  previous : Option Reading

namespace DiskIoSampler

def new : DiskIoSampler := ⟨none⟩

def sample (sampler : DiskIoSampler) (devices : List DeviceCounters) (now : Instant) :
    (UInt64 × UInt64) × DiskIoSampler :=
  let current : Reading := ⟨now, devices.filter fun d => isWholeDevice d.name⟩
  let rates := match sampler.previous with
    | some previous => ioRates previous current
    | none => (0, 0)
  (rates, ⟨some current⟩)

end DiskIoSampler

/-- A poll hands the sampler all that the kernel listed. -/
def poll (sampler : DiskIoSampler) (listed : Reading) : (UInt64 × UInt64) × DiskIoSampler :=
  sampler.sample listed.devices listed.takenAt

section Doubles

theorem one_nano_size {n : Nat} (h : 1 ≤ (n : ℚ)) : 1 / 2 ^ 100 ≤ (n : ℚ) / 10 ^ 9 := by
  rw [le_div_iff₀ (by norm_num)]
  exact le_trans (by norm_num) h

/-- The nanoseconds below a second are exact as a double. -/
theorem nanos_within {n : Nat} (h : n < 10 ^ 9) : Rounded 1 (nearestDouble (nearestDouble n / 10 ^ 9)) (n / 10 ^ 9) := by
  have hexact : nearestDouble (n : ℚ) = n := by
    have hcast := nearestDouble_intCast (m := n) (by rw [abs_of_nonneg] <;> omega)
    exact_mod_cast hcast
  rw [hexact]
  apply nearestDouble_within
  rcases natCast_size n with hzero | hone
  · exact .inl (by rw [hzero, zero_div])
  · exact .inr (smallest_le.trans (le_trans (by norm_num) (one_nano_size hone)))

theorem secs_add_nanos (n : Nat) : ((n / 10 ^ 9 : Nat) : ℚ) + (n % 10 ^ 9 : Nat) / 10 ^ 9 = n / 10 ^ 9 := by
  have hjoin : ((10 ^ 9 * (n / 10 ^ 9) + n % 10 ^ 9 : Nat) : ℚ) = (n : ℚ) := by rw [Nat.div_add_mod]
  rw [← hjoin, Nat.cast_add, Nat.cast_mul, add_div, Nat.cast_pow, Nat.cast_ofNat,
    mul_div_cancel_left₀ _ (by norm_num)]

theorem asSecsF64_within {d : Duration} (h : 0 < d.nanos) : Rounded 2 (asSecsF64 d) (d.nanos / 10 ^ 9) := by
  have hnanos := nanos_within (Nat.mod_lt d.nanos (by norm_num : 0 < 10 ^ 9))
  have hsum := (nearestDouble_natCast_within (d.nanos / 10 ^ 9)).add hnanos
  rw [secs_add_nanos] at hsum
  have hone : (1 : ℚ) ≤ d.nanos := by exact_mod_cast h
  exact Rounded.again (k := 1) hsum (by norm_num) (.inr (one_nano_size hone))

/-- Bytes over seconds, exactly. -/
def throughput (sectors : Nat) (elapsed : Duration) : ℚ := sectors * sectorBytes / (elapsed.nanos / 10 ^ 9)

theorem throughput_nonneg (sectors : Nat) (elapsed : Duration) : 0 ≤ throughput sectors elapsed := by
  rw [throughput]
  positivity

theorem throughput_size (sectors : Nat) {elapsed : Duration} (h : 0 < elapsed.nanos) :
    throughput sectors elapsed = 0 ∨ 1 / 2 ^ 100 ≤ throughput sectors elapsed := by
  rw [throughput]
  rcases natCast_size sectors with hzero | hone
  · exact .inl (by rw [hzero, zero_mul, zero_div])
  · right
    have hnanos : (elapsed.nanos : ℚ) ≤ 2 ^ 64 * 10 ^ 9 := by exact_mod_cast elapsed.inRange.le
    have hpos : (0 : ℚ) < elapsed.nanos := by exact_mod_cast h
    rw [sectorBytes, le_div_iff₀ (by positivity)]
    push_cast
    linarith

theorem quotient_within (sectors : Nat) {elapsed : Duration} (h : 0 < elapsed.nanos) :
    Rounded 5 (nearestDouble (nearestDouble (nearestDouble sectors * sectorBytes) / asSecsF64 elapsed))
      (throughput sectors elapsed) := by
  have hbytes : Rounded 2 (nearestDouble (nearestDouble sectors * sectorBytes)) (sectors * sectorBytes) := by
    apply Rounded.again ((nearestDouble_natCast_within sectors).mul_right (by positivity)) (by norm_num)
    have hcast := natCast_size (sectors * sectorBytes)
    rw [Nat.cast_mul] at hcast
    exact hcast.imp_right fun h => le_trans (by norm_num) h
  have hsecs := asSecsF64_within h
  have hpos : (0 : ℚ) < elapsed.nanos / 10 ^ 9 := div_pos (by exact_mod_cast h) (by norm_num)
  have hdiv := hbytes.div (by norm_num) (by positivity) (hsecs.pos (by norm_num) hpos) hpos hsecs
  exact Rounded.again (k := 4) hdiv (by norm_num) (throughput_size sectors h)

end Doubles

/-- The largest number of 64 bits. -/
def u64Max : Nat := 2 ^ 64 - 1

/-- A rate told to the nearest byte a second, but for the error of doubles. None is told that
64 bits do not hold. -/
def Reports (rate : UInt64) (exact : ℚ) : Prop :=
  |(rate.toNat : ℚ) - min exact u64Max| ≤ 1 / 2 + min exact u64Max / 2 ^ 50

theorem asU64_toNat {n : Int} (h : 0 ≤ n) : ((asU64 n).toNat : ℚ) = min (n : ℚ) u64Max := by
  obtain ⟨m, rfl⟩ := Int.eq_ofNat_of_zero_le h
  rw [asU64, Int.floor_intCast, UInt64.toNat_ofNat', Nat.mod_eq_of_lt (by omega)]
  rw [Int.toNat_natCast, Nat.cast_min]
  rfl

/-- Neither the rounding nor the cap moves a double away from a number it is close to. -/
theorem reports_of_within {q exact : ℚ} (h : Rounded 5 q exact) (hexact : 0 ≤ exact) :
    Reports (asU64 (roundHalfAway q)) exact := by
  have hq : 0 ≤ q := h.nonneg (by norm_num) hexact
  rw [Reports, asU64_toNat (roundHalfAway_nonneg hq)]
  have hround : |min (roundHalfAway q : ℚ) u64Max - min q u64Max| ≤ 1 / 2 := by
    refine (abs_min_sub_min_le_max _ _ _ _).trans ?_
    rw [sub_self, abs_zero]
    exact max_le (abs_roundHalfAway_sub_le q) (by norm_num)
  have hcap : |min q (u64Max : ℚ) - min exact u64Max| ≤ min exact u64Max / 2 ^ 50 := by
    have hmax : (0 : ℚ) ≤ u64Max := Nat.cast_nonneg _
    have habs := (h.min_right (by norm_num) hmax).abs_sub_le (e := 1 / 2 ^ 50) (by norm_num) (pow_roundoff_le le_rfl)
      (le_min hq hmax) (le_min hexact hmax)
    rwa [one_div_mul_eq_div] at habs
  calc |min (roundHalfAway q : ℚ) u64Max - min exact u64Max|
      ≤ |min (roundHalfAway q : ℚ) u64Max - min q u64Max| + |min q (u64Max : ℚ) - min exact u64Max| :=
        abs_sub_le _ _ _
    _ ≤ 1 / 2 + min exact u64Max / 2 ^ 50 := add_le_add hround hcap

theorem bytesPerSecond_reports (sectors : UInt64) {elapsed : Duration} (h : 0 < elapsed.nanos) :
    Reports (bytesPerSecond sectors elapsed) (throughput sectors.toNat elapsed) :=
  reports_of_within (quotient_within sectors.toNat h) (throughput_nonneg _ _)

example : bytesPerSecond 2200 ⟨2500000000, by norm_num⟩ = 450560 := by decide +kernel

section Counters

variable (count : DeviceCounters → UInt64) (previous : List DeviceCounters)

theorem saturatingSub_toNat (a b : UInt64) : (saturatingSub a b).toNat = a.toNat - b.toNat := by
  rw [saturatingSub]
  split
  · rename_i hle
    exact UInt64.toNat_sub_of_le a b hle
  · rename_i hgt
    rw [UInt64.le_iff_toNat_le] at hgt
    rw [UInt64.toNat_zero]
    omega

/-- What one device adds to one of the two sums. -/
def counterGrowth (device : DeviceCounters) : UInt64 :=
  match previous.find? (fun d => d.name = device.name) with
  | none => 0
  | some before => saturatingSub (count device) (count before)

theorem addGrowth_eq (sums : UInt64 × UInt64) (device : DeviceCounters) :
    addGrowth previous sums device = (sums.1 + counterGrowth DeviceCounters.sectorsRead previous device,
      sums.2 + counterGrowth DeviceCounters.sectorsWritten previous device) := by
  rw [addGrowth, counterGrowth, counterGrowth]
  cases previous.find? (fun d => d.name = device.name) with
  | none => simp
  | some before => rfl

theorem foldl_addGrowth (devices : List DeviceCounters) (sums : UInt64 × UInt64) :
    devices.foldl (addGrowth previous) sums =
      (sums.1 + (devices.map (counterGrowth DeviceCounters.sectorsRead previous)).sum,
        sums.2 + (devices.map (counterGrowth DeviceCounters.sectorsWritten previous)).sum) := by
  induction devices generalizing sums with
  | nil => simp
  | cons device devices ih =>
    rw [List.foldl_cons, ih, addGrowth_eq]
    simp only [List.map_cons, List.sum_cons, UInt64.add_assoc]

theorem ioRates_eq {p c : Reading} {elapsed : Duration} (h : saturatingDurationSince c.takenAt p.takenAt = elapsed)
    (hpos : 0 < elapsed.nanos) :
    ioRates p c =
      (bytesPerSecond (c.devices.map (counterGrowth DeviceCounters.sectorsRead p.devices)).sum elapsed,
        bytesPerSecond (c.devices.map (counterGrowth DeviceCounters.sectorsWritten p.devices)).sum elapsed) := by
  rw [ioRates, h, if_neg hpos.ne', foldl_addGrowth]
  simp only [UInt64.zero_add]

theorem toNat_sum {values : List UInt64} (h : (values.map UInt64.toNat).sum < 2 ^ 64) :
    values.sum.toNat = (values.map UInt64.toNat).sum := by
  induction values with
  | nil => rfl
  | cons value values ih =>
    rw [List.map_cons, List.sum_cons] at h
    rw [List.map_cons, List.sum_cons, List.sum_cons, UInt64.toNat_add, ih (by omega), Nat.mod_eq_of_lt h]

/-- How far a counter grew over all whole devices listed twice, one that fell back counting as
one that stood still. -/
def growth (current : List DeviceCounters) : Nat :=
  ((current.filter fun d => isWholeDevice d.name).map fun d =>
    ((previous.filter fun b => b.name = d.name).map fun b => (count d).toNat - (count b).toNat).sum).sum

variable {previous}

theorem counterGrowth_toNat (hdistinct : (previous.map DeviceCounters.name).Nodup) {device : DeviceCounters}
    (hwhole : isWholeDevice device.name = true) :
    (counterGrowth count (previous.filter fun d => isWholeDevice d.name) device).toNat =
      ((previous.filter fun b => b.name = device.name).map fun b => (count device).toNat - (count b).toNat).sum := by
  have hkept : (previous.filter fun d => isWholeDevice d.name).find? (fun d => d.name = device.name) =
      previous.find? fun d => d.name = device.name := by
    rw [List.find?_filter]
    congr 1
    funext d
    by_cases hname : d.name = device.name
    · simp [hname, hwhole]
    · simp [hname]
  rw [counterGrowth, hkept, filter_key_eq_toList_find? hdistinct]
  cases previous.find? (fun d => d.name = device.name) with
  | none => rfl
  | some before => simp [saturatingSub_toNat]

theorem sum_counterGrowth (hdistinct : (previous.map DeviceCounters.name).Nodup) {current : List DeviceCounters}
    (hrange : growth count previous current < 2 ^ 64) :
    ((current.filter fun d => isWholeDevice d.name).map
      (counterGrowth count (previous.filter fun d => isWholeDevice d.name))).sum.toNat =
        growth count previous current := by
  have hvalues : (((current.filter fun d => isWholeDevice d.name).map
      (counterGrowth count (previous.filter fun d => isWholeDevice d.name))).map UInt64.toNat).sum =
        growth count previous current := by
    rw [growth, List.map_map]
    congr 1
    apply List.map_congr_left
    intro device hdevice
    exact counterGrowth_toNat count hdistinct (List.mem_filter.mp hdevice).2
  rw [toNat_sum (by rw [hvalues]; exact hrange), hvalues]

end Counters

section Sampling

/-- The rate the two readings stand for. -/
def expected (count : DeviceCounters → UInt64) (p c : Reading) : ℚ :=
  512 * growth count p.devices c.devices / (((c.takenAt.nanos : ℚ) - p.takenAt.nanos) / 10 ^ 9)

def kept (listed : Reading) : Reading := ⟨listed.takenAt, listed.devices.filter fun d => isWholeDevice d.name⟩

@[simp] theorem poll_previous (sampler : DiskIoSampler) (listed : Reading) :
    (poll sampler listed).2 = ⟨some (kept listed)⟩ := rfl

theorem final_poll (sampler : DiskIoSampler) (before : List Reading) (p : Reading) :
    final poll sampler (before ++ [p]) = ⟨some (kept p)⟩ := by
  rw [final_concat, poll_previous]

theorem throughput_eq_expected (count : DeviceCounters → UInt64) {p c : Reading}
    (htime : p.takenAt.nanos < c.takenAt.nanos) :
    throughput (growth count p.devices c.devices) (saturatingDurationSince c.takenAt p.takenAt) = expected count p c := by
  rw [throughput, expected, saturatingDurationSince, Nat.cast_sub htime.le, mul_comm, sectorBytes, Nat.cast_ofNat]

/-- Readings taken one after the other, each of devices with names of their own. No two in a row
have counters that grew by more sectors than 64 bits count. -/
structure Admissible (listed : List Reading) : Prop where
  increasing : listed.Pairwise fun p c => p.takenAt.nanos < c.takenAt.nanos
  distinct : ∀ p ∈ listed, (p.devices.map DeviceCounters.name).Nodup
  inRange : ∀ p c, [p, c] <:+: listed →
    growth DeviceCounters.sectorsRead p.devices c.devices < 2 ^ 64 ∧
      growth DeviceCounters.sectorsWritten p.devices c.devices < 2 ^ 64

theorem ioRates_reports {listed : List Reading} {p c : Reading} (h : Admissible listed)
    (hpair : [p, c] <:+: listed) :
    Reports (ioRates (kept p) (kept c)).1 (expected DeviceCounters.sectorsRead p c) ∧
      Reports (ioRates (kept p) (kept c)).2 (expected DeviceCounters.sectorsWritten p c) := by
  have hpairs := h.increasing.sublist hpair.sublist
  have hlater : p.takenAt.nanos < c.takenAt.nanos := (List.pairwise_cons.mp hpairs).1 c List.mem_cons_self
  have hdistinct := h.distinct p (hpair.subset List.mem_cons_self)
  obtain ⟨hreadRange, hwrittenRange⟩ := h.inRange p c hpair
  have hpos : 0 < (saturatingDurationSince c.takenAt p.takenAt).nanos := Nat.sub_pos_of_lt hlater
  have hread := bytesPerSecond_reports
    ((kept c).devices.map (counterGrowth DeviceCounters.sectorsRead (kept p).devices)).sum hpos
  have hwritten := bytesPerSecond_reports
    ((kept c).devices.map (counterGrowth DeviceCounters.sectorsWritten (kept p).devices)).sum hpos
  rw [kept, kept, sum_counterGrowth _ hdistinct hreadRange, throughput_eq_expected _ hlater] at hread
  rw [kept, kept, sum_counterGrowth _ hdistinct hwrittenRange, throughput_eq_expected _ hlater] at hwritten
  rw [ioRates_eq (p := kept p) (c := kept c) rfl hpos]
  exact ⟨hread, hwritten⟩

/-- Each device counts once: no partition of one that counts does. Each reading after the first
tells what its devices moved since the one before it. -/
theorem poll_spec :
    (∀ name part, isWholeDevice name = true → IsPartition name part → isWholeDevice part = false) ∧
    ∀ listed, Admissible listed →
      (outputs poll .new listed)[0]? = listed.head?.map (fun _ => (0, 0)) ∧
      ∀ before p c after, listed = before ++ p :: c :: after →
        ∃ rates, (outputs poll .new listed)[before.length + 1]? = some rates ∧
          Reports rates.1 (expected DeviceCounters.sectorsRead p c) ∧
          Reports rates.2 (expected DeviceCounters.sectorsWritten p c) := by
  refine ⟨fun _ _ => not_isWholeDevice_of_isPartition, ?_⟩
  intro listed h
  constructor
  · cases listed with
    | nil => rfl
    | cons first listed => rfl
  · rintro before p c after rfl
    have hlast := getElem?_outputs poll .new (before ++ [p]) c after
    rw [List.append_assoc, List.length_append, List.length_singleton, List.singleton_append, final_poll] at hlast
    exact ⟨_, hlast, ioRates_reports h ⟨before, after, by simp⟩⟩

/-- A device that moves half a pebibyte within a nanosecond. -/
def suddenRead : List Reading :=
  [⟨⟨0, by norm_num⟩, [⟨"sda".toList, 0, 0⟩]⟩, ⟨⟨1, by norm_num⟩, [⟨"sda".toList, 2 ^ 40, 0⟩]⟩]

theorem suddenRead_capped :
    Admissible suddenRead ∧ ∃ rates, (outputs poll .new suddenRead)[1]? = some rates ∧
      ∃ p c, suddenRead = [p, c] ∧ 10000 * (rates.1.toNat : ℚ) < expected DeviceCounters.sectorsRead p c := by
  refine ⟨⟨?_, ?_, ?_⟩, _, rfl, _, _, rfl, ?_⟩
  · simp [suddenRead]
  · simp [suddenRead]
  · intro p c hpair
    obtain ⟨rfl, rfl⟩ : p = _ ∧ c = _ := by simpa [suddenRead] using hpair.eq_of_length rfl
    decide +kernel
  · have hgrowth : growth DeviceCounters.sectorsRead [⟨"sda".toList, 0, 0⟩] [⟨"sda".toList, 2 ^ 40, 0⟩] = 2 ^ 40 := by
      decide +kernel
    have hcapped (rate : UInt64) : (rate.toNat : ℚ) < 2 ^ 64 := by exact_mod_cast rate.toNat_lt
    rw [expected, hgrowth]
    refine (mul_lt_mul_of_pos_left (hcapped _) (by norm_num)).trans ?_
    norm_num

end Sampling

end SparkDashboard.Metrics
