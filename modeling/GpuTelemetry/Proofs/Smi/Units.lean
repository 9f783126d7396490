import GpuTelemetry.Smi.Table
import GpuTelemetry.Proofs.Decimal.Exact
import GpuTelemetry.Proofs.Decimal.Numeral
/-!
How the clocks and the memory sizes of a line become whole numbers. A field that holds a numeral stands for
the number that the double of the numeral is worth. That number is rounded and multiplied into a word, which
is exact as long as it fits; beyond that the word wraps around, and what is not a number at all, or an
infinity, becomes zero.
-/

namespace GpuTelemetry

namespace Reading

def counted (r : Reading) : List (Option ℕ) :=
  [r.coreClockMHz.map UInt32.toNat, r.memoryClockMHz.map UInt32.toNat, r.maxClockMHz.map UInt32.toNat,
    r.memoryUsedBytes.map UInt64.toNat, r.memoryTotalBytes.map UInt64.toNat]

end Reading

namespace Smi

open Decimal (parseField exists_holds_iff nearestInt64 Binary64 Holds)

def Denotes (field : Text) (q : ℚ) : Prop :=
  ∃ negative n, Holds field negative n ∧
    (Binary64.ofFloat (n.signed negative).value).value? = some q

/-- The field stands for what is not a number, or for an infinity that is not below zero. -/
def Unbounded (field : Text) : Prop :=
  ∃ negative n, Holds field negative n ∧ (Binary64.ofFloat (n.signed negative).value).Unbounded

/-- How a metric is stored: what one of its units counts, and the bits there are for the count. What is left
of the least signed word, times the unit, is nothing. -/
structure Scale where
  unit : ℕ
  bits : ℕ
  unit_pos : 0 < unit
  dvd : 2 ^ bits ∣ 2 ^ 63 * unit

namespace Scale

def megahertz : Scale := ⟨1, 32, by decide, by decide⟩

def mebibytes : Scale := ⟨2 ^ 20, 64, by decide, by decide⟩

variable (s : Scale)

/-- The metric is the rounded number in whole units, and it is there exactly when the field stands for a
number that is not below zero and whose count fits. -/
def Exact (field : Text) (metric : Option ℕ) : Prop :=
  ∀ n, metric = some n ↔
    ∃ q, Denotes field q ∧ 0 ≤ q ∧ round q * s.unit = n ∧ n < 2 ^ s.bits

def Fits (field : Text) : Prop :=
  ¬ Unbounded field ∧ ∀ q, Denotes field q → 0 ≤ q → round q * s.unit < 2 ^ s.bits

/-- What is kept of a rounded number: its count as far as there are bits for it, and nothing at all of a
number that does not fit into a signed word. -/
def kept (k : ℤ) : ℕ := if k < 2 ^ 63 then k.toNat * s.unit % 2 ^ s.bits else 0

structure Converts (field : Text) (metric : Option ℕ) : Prop where
  read : ∀ n, metric = some n ↔
    (∃ q, Denotes field q ∧ 0 ≤ q ∧ s.kept (round q) = n) ∨ (Unbounded field ∧ n = 0)
  exact_iff : s.Exact field metric ↔ s.Fits field

end Scale

variable {field : Text} {q : ℚ}

/-! ### One field -/

theorem denotes_iff : Denotes field q ↔
    ∃ x, parseField field = some x ∧ (Binary64.ofFloat x.value).value? = some q :=
  exists_holds_iff (P := fun x => (Binary64.ofFloat x.value).value? = some q)

theorem unbounded_iff : Unbounded field ↔
    ∃ x, parseField field = some x ∧ (Binary64.ofFloat x.value).Unbounded :=
  exists_holds_iff (P := fun x => (Binary64.ofFloat x.value).Unbounded)

/-- A field stands for one number at most. -/
theorem Denotes.unique {p : ℚ} (hq : Denotes field q) (hp : Denotes field p) : q = p := by
  obtain ⟨x, hx, hvalue⟩ := denotes_iff.1 hq
  obtain ⟨y, hy, hvalue'⟩ := denotes_iff.1 hp
  obtain rfl := Option.some.inj (hx.symm.trans hy)
  exact Option.some.inj (hvalue.symm.trans hvalue')

theorem Denotes.not_unbounded (hq : Denotes field q) : ¬ Unbounded field := by
  obtain ⟨x, hx, hvalue⟩ := denotes_iff.1 hq
  rw [unbounded_iff]
  rintro ⟨y, hy, hunbounded⟩
  obtain rfl := Option.some.inj (hx.symm.trans hy)
  rw [Binary64.unbounded_iff, hvalue] at hunbounded
  cases hunbounded.1

/-- The word that is read for a number: the rounded one, or the least signed word. -/
def wordOf (k : ℤ) : ℕ := if k < 2 ^ 63 then k.toNat else 2 ^ 63

/-- A number that is not below zero is rounded. -/
theorem whole?_of_denotes (hq : Denotes field q) (hpos : 0 ≤ q) :
    ∃ w, whole? field = some w ∧ w.toNat = wordOf (round q) := by
  obtain ⟨x, hx, hvalue⟩ := denotes_iff.1 hq
  have hnot : ¬ x.value < 0 := by
    rw [Binary64.lt_zero_iff]
    rintro (hinfinite | ⟨p, hp, hneg⟩)
    · rw [hinfinite] at hvalue
      cases hvalue
    · obtain rfl := Option.some.inj (hvalue.symm.trans hp)
      exact absurd hneg (not_lt.2 hpos)
  refine ⟨(nearestInt64 x.value).toUInt64, ?_, Decimal.nearestInt64_toNat hvalue hpos⟩
  rw [whole?, hx]
  exact if_neg hnot

/-- What has no bound is read as 2⁶³, the least signed word. -/
theorem whole?_of_unbounded (h : Unbounded field) :
    ∃ w, whole? field = some w ∧ w.toNat = 2 ^ 63 := by
  obtain ⟨x, hx, hunbounded⟩ := unbounded_iff.1 h
  obtain ⟨hvalue, hinfinite⟩ := Binary64.unbounded_iff.1 hunbounded
  have hnot : ¬ x.value < 0 := by
    rw [Binary64.lt_zero_iff, hvalue]
    rintro (hword | ⟨p, hp, -⟩)
    · exact hinfinite hword
    · cases hp
  refine ⟨(nearestInt64 x.value).toUInt64, ?_, ?_⟩
  · rw [whole?, hx]
    exact if_neg hnot
  · rw [Decimal.nearestInt64_of_not_finite hvalue]
    rfl

/-- No other field is read. -/
theorem denotes_or_unbounded {w : UInt64} (h : whole? field = some w) :
    (∃ q, Denotes field q ∧ 0 ≤ q) ∨ Unbounded field := by
  unfold whole? at h
  split at h
  case h_2 => cases h
  case h_1 x hx =>
    rw [Option.ite_none_left_eq_some, Binary64.lt_zero_iff, not_or] at h
    obtain ⟨⟨hinfinite, hneg⟩, -⟩ := h
    cases hvalue : (Binary64.ofFloat x.value).value? with
    | none => exact Or.inr (unbounded_iff.2 ⟨x, hx, Binary64.unbounded_iff.2 ⟨hvalue, hinfinite⟩⟩)
    | some q =>
      refine Or.inl ⟨q, denotes_iff.2 ⟨x, hx, hvalue⟩, ?_⟩
      by_contra hlt
      exact hneg ⟨q, hvalue, not_le.1 hlt⟩

/-! ### Words and counts -/

namespace Scale

variable (s : Scale)

def store (w : UInt64) : ℕ := w.toNat * s.unit % 2 ^ s.bits

theorem mul_unit_mod_of_wordOf (k : ℤ) : wordOf k * s.unit % 2 ^ s.bits = s.kept k := by
  unfold wordOf kept
  split
  · rfl
  · exact Nat.mod_eq_zero_of_dvd s.dvd

/-- A count comes from a number that is not below zero, or it is zero for want of a bound. -/
theorem read_map_store (n : ℕ) : (whole? field).map s.store = some n ↔
    (∃ q, Denotes field q ∧ 0 ≤ q ∧ s.kept (round q) = n) ∨ (Unbounded field ∧ n = 0) := by
  have hnumber {q : ℚ} (hq : Denotes field q) (hpos : 0 ≤ q) :
      (whole? field).map s.store = some (s.kept (round q)) := by
    obtain ⟨w, hw, hword⟩ := whole?_of_denotes hq hpos
    rw [hw, Option.map_some, store, hword, mul_unit_mod_of_wordOf]
  have hzero (h : Unbounded field) : (whole? field).map s.store = some 0 := by
    obtain ⟨w, hw, hword⟩ := whole?_of_unbounded h
    rw [hw, Option.map_some, store, hword, Nat.mod_eq_zero_of_dvd s.dvd]
  constructor
  · intro hn
    obtain ⟨w, hw, -⟩ := Option.map_eq_some_iff.1 hn
    rcases denotes_or_unbounded hw with ⟨q, hq, hpos⟩ | hunbounded
    · rw [hnumber hq hpos] at hn
      exact Or.inl ⟨q, hq, hpos, Option.some.inj hn⟩
    · rw [hzero hunbounded] at hn
      exact Or.inr ⟨hunbounded, (Option.some.inj hn).symm⟩
  · rintro (⟨q, hq, hpos, rfl⟩ | ⟨hunbounded, rfl⟩)
    · exact hnumber hq hpos
    · exact hzero hunbounded

theorem kept_lt (k : ℤ) : s.kept k < 2 ^ s.bits := by
  unfold kept
  split
  · exact Nat.mod_lt _ (by positivity)
  · positivity

/-- A count that fits is kept as it is. -/
theorem kept_eq_iff {k : ℤ} (hk : 0 ≤ k) :
    (s.kept k : ℤ) = k * s.unit ↔ k * s.unit < 2 ^ s.bits := by
  obtain ⟨k, rfl⟩ := Int.eq_ofNat_of_zero_le hk
  constructor
  · intro h
    rw [← h]
    exact_mod_cast s.kept_lt k
  · intro h
    have hfits : k * s.unit < 2 ^ s.bits := by exact_mod_cast h
    -- as many units as fit into the word fit into a signed word of 64 bits
    have hword : k < 2 ^ 63 := by
      by_contra hlarge
      have hle : 2 ^ 63 * s.unit ≤ k * s.unit := Nat.mul_le_mul_right _ (not_lt.1 hlarge)
      have hpos : 0 < 2 ^ 63 * s.unit := Nat.mul_pos (by decide) s.unit_pos
      exact absurd (Nat.le_of_dvd hpos s.dvd) (by omega)
    rw [kept, if_pos (by exact_mod_cast hword), Int.toNat_natCast, Nat.mod_eq_of_lt hfits]
    push_cast
    rfl

/-- Whatever a field holds, its metric is what the scale makes of it. -/
theorem converts_map_store (field : Text) : s.Converts field ((whole? field).map s.store) := by
  refine ⟨s.read_map_store, ?_⟩
  unfold Exact Fits
  simp only [read_map_store]
  constructor
  · intro h
    refine ⟨fun hunbounded => ?_, fun q hq hpos => ?_⟩
    · -- were the conversion exact, what has no bound would stand for a number
      obtain ⟨q, hq, -⟩ := (h 0).1 (Or.inr ⟨hunbounded, rfl⟩)
      exact hq.not_unbounded hunbounded
    · obtain ⟨p, hp, -, hcount, -⟩ := (h _).1 (Or.inl ⟨q, hq, hpos, rfl⟩)
      obtain rfl := hq.unique hp
      exact (s.kept_eq_iff (Decimal.round_nonneg hpos)).1 hcount.symm
  · rintro ⟨hbounded, hfits⟩ n
    constructor
    · rintro (⟨q, hq, hpos, rfl⟩ | ⟨hunbounded, -⟩)
      · have hcount := (s.kept_eq_iff (Decimal.round_nonneg hpos)).2 (hfits q hq hpos)
        exact ⟨q, hq, hpos, hcount.symm, s.kept_lt _⟩
      · exact absurd hunbounded hbounded
    · rintro ⟨q, hq, hpos, hcount, -⟩
      have hkept := (s.kept_eq_iff (Decimal.round_nonneg hpos)).2 (hfits q hq hpos)
      exact Or.inl ⟨q, hq, hpos, by exact_mod_cast hkept.trans hcount⟩

end Scale

theorem toNat_clock? (field : Text) :
    (clock? field).map UInt32.toNat = (whole? field).map Scale.megahertz.store := by
  have hcount : UInt32.toNat ∘ UInt64.toUInt32 = Scale.megahertz.store := by
    funext w
    rw [Function.comp_apply, UInt64.toNat_toUInt32, Scale.store, Scale.megahertz, Nat.mul_one]
  rw [clock?, Option.map_map, hcount]

theorem toNat_memory? (field : Text) :
    (memory? field).map UInt64.toNat = (whole? field).map Scale.mebibytes.store := by
  have hunit : bytesPerMebibyte.toNat = Scale.mebibytes.unit := by decide
  have hcount : UInt64.toNat ∘ (· * bytesPerMebibyte) = Scale.mebibytes.store := by
    funext w
    rw [Function.comp_apply, UInt64.toNat_mul, hunit, Scale.store]
    rfl
  rw [memory?, Option.map_map, hcount]

/-! ### Lines -/

def countedPlaces : List (Scale × ℕ) :=
  [(.megahertz, 4), (.megahertz, 5), (.megahertz, 6), (.mebibytes, 9), (.mebibytes, 10)]

def countedFields (line : Text) : List (Scale × Text) :=
  countedPlaces.filterMap fun p => (Text.fields 44 line)[p.2]?.map fun field => (p.1, field)

def EveryMetric (relation : Scale → Text → Option ℕ → Prop) (line : Text) (r : Reading) : Prop :=
  List.Forall₂ (fun f metric => relation f.1 f.2 metric) (countedFields line) r.counted

variable {line : Text} {r : Reading} {s : Scale}

/-- The whole metrics of a line are stored from their fields. -/
theorem counted_of_parseLine (h : parseLine line = some r) :
    r.counted = (countedFields line).map fun f => (whole? f.2).map f.1.store := by
  unfold parseLine at h
  split at h
  case h_1 hfields =>
    obtain ⟨name, _, rfl⟩ := Option.map_eq_some_iff.1 h
    simp only [Reading.counted, toNat_clock?, toNat_memory?]
    rw [countedFields, hfields]
    rfl
  case h_2 => cases h

theorem everyMetric_iff {relation : Scale → Text → Option ℕ → Prop} (h : parseLine line = some r) :
    EveryMetric relation line r ↔
      ∀ f ∈ countedFields line, relation f.1 f.2 ((whole? f.2).map f.1.store) := by
  rw [EveryMetric, counted_of_parseLine h, List.forall₂_map_right_iff, List.forall₂_same]

/-- **What becomes of the clocks and the memory sizes of a line.** A metric is there if its field stands
for a number that is not below zero, for what is not a number or for infinity. A number that fits into a
signed word is rounded and counted, and of the count as much is kept as there are bits for it; in all other
cases zero is kept. So the metric is exact, that is, the count of a number that is not below zero and has a
count that fits, and absent for all other fields, if and only if the field stands neither for what is not a
number nor for infinity, and for no number whose count does not fit. -/
theorem units_of_parseLine (h : parseLine line = some r) : EveryMetric Scale.Converts line r := by
  rw [everyMetric_iff h]
  exact fun f _ => f.1.converts_map_store f.2

def roundedLine : Text := utf8 "Card, 535.54, 45.5, [N/A], 1500.5, -3, [N/A], 1e3, 250, 0x10, 24576.25"

/-- A card with a clock that is rounded up, one that is below zero and one that is not told. -/
theorem units_of_parseLine_of_rounded : ∃ r, parseLine roundedLine = some r ∧
    r.counted = [some 1501, none, none, some 16777216, some 25769803776] ∧
    EveryMetric Scale.Converts roundedLine r := by
  have hread : (parseLine roundedLine).any (fun r =>
      r.counted = [some 1501, none, none, some 16777216, some 25769803776]) = true := by decide +kernel
  obtain ⟨r, hr, hcounted⟩ := (Option.any_eq_true _ _).1 hread
  exact ⟨r, hr, of_decide_eq_true hcounted, units_of_parseLine hr⟩

/-! ### Metrics that are not what the fields stand for -/

theorem mem_countedFields {i : ℕ} (hplace : (s, i) ∈ countedPlaces)
    (hfield : (Text.fields 44 line)[i]? = some field) : (s, field) ∈ countedFields line :=
  List.mem_filterMap.2 ⟨(s, i), hplace, Option.map_eq_some_iff.2 ⟨field, hfield, rfl⟩⟩

theorem not_exact_of_not_fits {f : Scale × Text} (h : parseLine line = some r)
    (hf : f ∈ countedFields line) (hfits : ¬ f.1.Fits f.2) : ¬ EveryMetric Scale.Exact line r := by
  intro hexact
  have hmetric := (everyMetric_iff h).1 hexact f hf
  exact hfits ((f.1.converts_map_store f.2).exact_iff.1 hmetric)

theorem denotes_of_read {m : ℕ} {e : ℤ} (h : (parseField field).any
    (fun x => Binary64.ofFloat x.value = .finite false m e) = true) : Denotes field (m * 2 ^ e) := by
  obtain ⟨x, hx, hword⟩ := (Option.any_eq_true _ _).1 h
  refine denotes_iff.2 ⟨x, hx, ?_⟩
  rw [of_decide_eq_true hword]
  rfl

theorem unbounded_of_read (h : (parseField field).any
    (fun x => Binary64.ofFloat x.value = .nan) = true) : Unbounded field := by
  obtain ⟨x, hx, hword⟩ := (Option.any_eq_true _ _).1 h
  exact unbounded_iff.2 ⟨x, hx, Or.inl (of_decide_eq_true hword)⟩

/-- The doubles of two fields that count too much, and of one that is not a number. -/
theorem large_fields_read :
    Denotes (utf8 "5000000000") ((5242880000000000 : ℕ) * 2 ^ (-20 : ℤ)) ∧
    Denotes (utf8 "17592186044416") ((4503599627370496 : ℕ) * 2 ^ (-8 : ℤ)) ∧
    Unbounded (utf8 "nan") := by
  have hread :
      (parseField (utf8 "5000000000")).any
        (fun x => Binary64.ofFloat x.value = .finite false 5242880000000000 (-20)) = true ∧
      (parseField (utf8 "17592186044416")).any
        (fun x => Binary64.ofFloat x.value = .finite false 4503599627370496 (-8)) = true ∧
      (parseField (utf8 "nan")).any (fun x => Binary64.ofFloat x.value = .nan) = true := by
    decide +kernel
  obtain ⟨hclock, hmemory, hnan⟩ := hread
  exact ⟨denotes_of_read hclock, denotes_of_read hmemory, unbounded_of_read hnan⟩

theorem not_fits_large_clock : ¬ Scale.megahertz.Fits (utf8 "5000000000") := by
  intro hfits
  have hcount := hfits.2 _ large_fields_read.1 (by positivity)
  norm_num [Scale.megahertz, round_eq] at hcount

theorem not_fits_large_memory : ¬ Scale.mebibytes.Fits (utf8 "17592186044416") := by
  intro hfits
  have hcount := hfits.2 _ large_fields_read.2.1 (by positivity)
  norm_num [Scale.mebibytes, round_eq] at hcount

theorem not_fits_nan : ¬ Scale.megahertz.Fits (utf8 "nan") :=
  fun hfits => hfits.1 large_fields_read.2.2

def largeClock : Text := utf8 "A,,,,5000000000,,,,,,"

def largeMemory : Text := utf8 "A,,,,,,,,,17592186044416,"

def nanClock : Text := utf8 "A,,,,nan,,,,,,"

/-- Of a clock that is too large another one is left, and of a memory size nothing; a clock that is not a
number is zero. -/
theorem metrics_invented :
    (∃ r, parseLine largeClock = some r ∧ r.coreClockMHz = some 705032704 ∧
      ¬ EveryMetric Scale.Exact largeClock r) ∧
    (∃ r, parseLine largeMemory = some r ∧ r.memoryUsedBytes = some 0 ∧
      ¬ EveryMetric Scale.Exact largeMemory r) ∧
    (∃ r, parseLine nanClock = some r ∧ r.coreClockMHz = some 0 ∧
      ¬ EveryMetric Scale.Exact nanClock r) := by
  -- three lines are parsed; the rest is what a scale would have made of their fields
  have hread :
      (parseLine largeClock).any (fun r => r.coreClockMHz = some 705032704) = true ∧
      (parseLine largeMemory).any (fun r => r.memoryUsedBytes = some 0) = true ∧
      (parseLine nanClock).any (fun r => r.coreClockMHz = some 0) = true := by decide +kernel
  obtain ⟨hlarge, hmemory, hnan⟩ := hread
  have hfirst : (Scale.megahertz, utf8 "5000000000") ∈ countedFields largeClock :=
    mem_countedFields List.mem_cons_self (by decide)
  have hused : (Scale.mebibytes, utf8 "17592186044416") ∈ countedFields largeMemory :=
    mem_countedFields (i := 9) (by simp [countedPlaces]) (by decide)
  have hword : (Scale.megahertz, utf8 "nan") ∈ countedFields nanClock :=
    mem_countedFields List.mem_cons_self (by decide)
  refine ⟨?_, ?_, ?_⟩
  · obtain ⟨r, hr, hclock⟩ := (Option.any_eq_true _ _).1 hlarge
    exact ⟨r, hr, of_decide_eq_true hclock, not_exact_of_not_fits hr hfirst not_fits_large_clock⟩
  · obtain ⟨r, hr, hsize⟩ := (Option.any_eq_true _ _).1 hmemory
    exact ⟨r, hr, of_decide_eq_true hsize, not_exact_of_not_fits hr hused not_fits_large_memory⟩
  · obtain ⟨r, hr, hclock⟩ := (Option.any_eq_true _ _).1 hnan
    exact ⟨r, hr, of_decide_eq_true hclock, not_exact_of_not_fits hr hword not_fits_nan⟩

end Smi

end GpuTelemetry
