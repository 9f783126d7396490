import GpuTelemetry.Proofs.Decimal.Figure
import GpuTelemetry.Proofs.Decimal.Order
import GpuTelemetry.Proofs.Reading.Json
import GpuTelemetry.Proofs.Source

namespace GpuTelemetry

open Decimal (Double Binary64 IsNan Holds parseField)

/-! ### Ranges -/

namespace Decimal

def LiesIn (x : Double) (range : Set EReal) : Prop := ∃ w ∈ (Binary64.ofFloat x.value).worth?, w ∈ range

/-- Not a number out of the range. -/
def NotOutside (x : Double) (range : Set EReal) : Prop := ∀ w ∈ (Binary64.ofFloat x.value).worth?, w ∈ range

variable {x : Double} {range : Set EReal}

theorem worth?_eq_none_iff : (Binary64.ofFloat x.value).worth? = none ↔ IsNan x.value := by
  rw [isNan_iff]
  cases Binary64.ofFloat x.value with
  | nan => exact iff_of_true rfl rfl
  | infinite negative => exact iff_of_false nofun nofun
  | finite negative m e => exact iff_of_false nofun nofun

/-- What is not a number is outside of no range, and lies in none. -/
theorem liesIn_iff : LiesIn x range ↔ NotOutside x range ∧ ¬ IsNan x.value := by
  rw [LiesIn, NotOutside, ← worth?_eq_none_iff]
  cases (Binary64.ofFloat x.value).worth? with
  | none => simp
  | some w => simp

/-- To lie in a range is not to lie outside of it and to be a number. -/
theorem forall_liesIn_iff {x : Option Double} : (∀ d ∈ x, LiesIn d range) ↔
    (∀ d ∈ x, NotOutside d range) ∧ ∀ d ∈ x, ¬ IsNan d.value := by
  simp only [liesIn_iff, forall_and]

end Decimal

open Decimal (LiesIn NotOutside)

namespace Reading

@[mk_iff]
structure InRanges (Lies : Double → Set EReal → Prop) (r : Reading) : Prop where
  temperature : ∀ x ∈ r.temperatureC, Lies x (Set.Icc (-50) 150)
  utilization : ∀ x ∈ r.utilizationPercent, Lies x (Set.Icc 0 100)
  power : ∀ x ∈ r.powerUsageW, Lies x (Set.Ici 0)
  limit : ∀ x ∈ r.powerLimitW, Lies x (Set.Ici 0)
  memory : ∀ used ∈ r.memoryUsedBytes, ∀ total ∈ r.memoryTotalBytes, used ≤ total

variable {r : Reading} {x : Option Double} {low high : Float} {a b : EReal}

/-! ### The comparisons of the check -/

/-- What is compared with a bound, in worths. -/
theorem not_lt_iff {y : Double} (hlow : (Binary64.ofFloat low).worth? = some a) :
    ¬ y.value < low ↔ NotOutside y (Set.Ici a) := by
  rw [Binary64.lt_iff, hlow, NotOutside]
  simp

theorem not_gt_iff {y : Double} (hhigh : (Binary64.ofFloat high).worth? = some b) :
    ¬ y.value > high ↔ NotOutside y (Set.Iic b) := by
  rw [gt_iff_lt, Binary64.lt_iff, hhigh, NotOutside]
  simp

theorem outside_eq_false_iff (hlow : (Binary64.ofFloat low).worth? = some a)
    (hhigh : (Binary64.ofFloat high).worth? = some b) :
    outside low high x = false ↔ ∀ d ∈ x, NotOutside d (Set.Icc a b) := by
  cases x with
  | none => exact iff_of_true rfl nofun
  | some d =>
    have hboth : NotOutside d (Set.Icc a b) ↔ NotOutside d (Set.Ici a) ∧ NotOutside d (Set.Iic b) := by
      simp only [NotOutside, ← Set.Ici_inter_Iic, Set.mem_inter_iff, forall_and]
    simp [outside, hboth, ← not_lt_iff hlow, ← not_gt_iff hhigh]

/-- The bounds of the check are the numbers they show. -/
theorem worth?_bounds : (Binary64.ofFloat (-50)).worth? = some (-50) ∧
    (Binary64.ofFloat 0).worth? = some 0 ∧ (Binary64.ofFloat 100).worth? = some 100 ∧
    (Binary64.ofFloat 150).worth? = some 150 := by
  have hfifty : Binary64.ofFloat (-50) = .finite true 7036874417766400 (-47) := by decide +kernel
  have hzero : Binary64.ofFloat 0 = .finite false 0 (-1074) := by decide +kernel
  have hhundred : Binary64.ofFloat 100 = .finite false 7036874417766400 (-46) := by decide +kernel
  have hmost : Binary64.ofFloat 150 = .finite false 5277655813324800 (-45) := by decide +kernel
  rw [Binary64.worth?_of_parts hfifty (q := (50 : ℕ)) (by norm_num),
    Binary64.worth?_of_parts hzero (q := (0 : ℕ)) (by norm_num),
    Binary64.worth?_of_parts hhundred (q := (100 : ℕ)) (by norm_num),
    Binary64.worth?_of_parts hmost (q := (150 : ℕ)) (by norm_num)]
  simp only [Binary64.ofRat_natCast]
  simp

theorem negative_eq_false_iff : negative x = false ↔ ∀ d ∈ x, NotOutside d (Set.Ici 0) := by
  obtain ⟨-, hzero, -⟩ := worth?_bounds
  cases x with
  | none => exact iff_of_true rfl nofun
  | some d => simp [negative, ← not_lt_iff hzero]

/-- A reading passes if a vendor or a name is known and none of its metrics is a number out of its range. -/
theorem isValid_iff : r.isValid = true ↔
    (r.vendor.isKnown = true ∨ r.name.isSome = true) ∧ r.InRanges NotOutside := by
  obtain ⟨hcold, hzero, hfull, hhot⟩ := worth?_bounds
  have htemperature := outside_eq_false_iff (x := r.temperatureC) hcold hhot
  have hutilization := outside_eq_false_iff (x := r.utilizationPercent) hzero hfull
  unfold isValid
  rw [Bool.and_eq_true]
  refine (and_congr_right' (c := ∀ used ∈ r.memoryUsedBytes, ∀ total ∈ r.memoryTotalBytes, used ≤ total)
    ?memory).trans ?ranges
  case memory =>
    -- the counts are compared only where both are there
    cases r.memoryUsedBytes with
    | none => exact iff_of_true rfl nofun
    | some used =>
      cases r.memoryTotalBytes with
      | none => exact iff_of_true rfl nofun
      | some total => simp
  case ranges =>
    simp only [Bool.and_eq_true, Bool.or_eq_true, Bool.not_eq_true', htemperature, hutilization,
      negative_eq_false_iff, inRanges_iff, and_assoc]

/-- Metrics that are not out of their ranges lie in them if they are numbers. -/
theorem inRanges_liesIn_iff : r.InRanges LiesIn ↔
    r.InRanges NotOutside ∧ ∀ x ∈ r.measured, ∀ d ∈ x, ¬ IsNan d.value := by
  rw [inRanges_iff, inRanges_iff, Decimal.forall_liesIn_iff, Decimal.forall_liesIn_iff,
    Decimal.forall_liesIn_iff, Decimal.forall_liesIn_iff]
  simp only [measured, List.forall_mem_cons, List.not_mem_nil, false_imp_iff, forall_true_iff, and_true]
  tauto

end Reading

/-! ### Lines of a table -/

namespace Smi

variable {line field : Text} {r : Reading}

/-- A field is read as what is not a number exactly if it holds the word for it. -/
theorem not_holds_nan_iff :
    (∀ negative, ¬ Holds field negative .nan) ↔ ∀ d ∈ parseField field, ¬ IsNan d.value := by
  constructor
  · intro hword d hd hnan
    obtain ⟨negative, n, hholds, rfl⟩ := Decimal.parseField_iff.1 hd
    rw [Decimal.isNan_signed_iff] at hnan
    subst hnan
    exact hword negative hholds
  · intro hnumber negative hholds
    apply hnumber _ (Decimal.parseField_iff.2 ⟨negative, _, hholds, rfl⟩)
    rw [Decimal.isNan_signed_iff]

/-- **A line that is read is plausible exactly when its metrics are in their ranges as far as they are numbers.**
No number out of its range passes: a temperature is from -50 to 150, a utilization from 0 to 100, power and its
limit are not below 0, be it infinite, and no more memory is used than there is. That every metric is a number
is not checked, and it is one exactly unless its field holds the word for what is not a number. -/
theorem valid_iff_numbers_in_range (h : parseLine line = some r) :
    (r.isValid = true ↔ r.InRanges NotOutside) ∧
    (r.InRanges LiesIn ↔
      r.isValid = true ∧ ∀ field ∈ numerals line, ∀ negative, ¬ Holds field negative .nan) := by
  have hknown : r.vendor.isKnown = true := by
    rw [Source.vendor_of_parseLine h]
    rfl
  have hvalid : r.isValid = true ↔ r.InRanges NotOutside := by
    rw [Reading.isValid_iff, and_iff_right (Or.inl hknown)]
  have hnumbers : (∀ x ∈ r.measured, ∀ d ∈ x, ¬ IsNan d.value) ↔
      ∀ field ∈ numerals line, ∀ negative, ¬ Holds field negative .nan := by
    rw [measured_of_parseLine h, List.forall_mem_map]
    exact forall₂_congr fun field _ => not_holds_nan_iff.symm
  refine ⟨hvalid, ?_⟩
  rw [Reading.inRanges_liesIn_iff, hvalid, hnumbers]

/-- A card whose metrics all lie in their ranges. -/
theorem valid_iff_numbers_in_range_of_card :
    ∃ r, parseLine cardLine = some r ∧ r.isValid = true ∧ r.InRanges LiesIn := by
  have hread : (parseLine cardLine).any Reading.isValid = true := by decide +kernel
  obtain ⟨r, hr, hvalid⟩ := (Option.any_eq_true _ _).1 hread
  have hnumbers : ∀ field ∈ numerals cardLine, ∀ d ∈ parseField field, ¬ IsNan d.value := by decide +kernel
  refine ⟨r, hr, hvalid, (valid_iff_numbers_in_range hr).2.2 ⟨hvalid, fun field hfield => ?_⟩⟩
  exact not_holds_nan_iff.2 (hnumbers field hfield)

/-- A temperature that is not a number passes. -/
theorem nan_passed_as_valid : ∃ r, parseLine (utf8 "A,,nan,,,,,,,,") = some r ∧ r.isValid = true ∧
    ¬ r.InRanges LiesIn := by
  have hread : (parseLine (utf8 "A,,nan,,,,,,,,")).any (fun r =>
      r.isValid && r.temperatureC.any fun d => decide (IsNan d.value)) = true := by decide +kernel
  obtain ⟨r, hr, hpasses⟩ := (Option.any_eq_true _ _).1 hread
  rw [Bool.and_eq_true, Option.any_eq_true] at hpasses
  obtain ⟨hvalid, d, hd, hnan⟩ := hpasses
  refine ⟨r, hr, hvalid, fun hranges => ?_⟩
  exact (Decimal.liesIn_iff.1 (hranges.temperature d hd)).2 (of_decide_eq_true hnan)

end Smi

end GpuTelemetry
