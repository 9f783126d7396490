import GpuTelemetry.Proofs.Decimal.Exact
import GpuTelemetry.Proofs.Decimal.Numeral

namespace GpuTelemetry.Decimal

open Float.Model (UnpackedFloat Format)
open Float.Model.UnpackedFloat (Sign Accuracy unpackExponent unpackMantissa packComponents packedNaN)

variable {u v : UnpackedFloat} {x y : Float} {n : Figure}

/-! ### Arithmetic that ends with a number -/

def IsNan (x : Float) : Prop := x.toModel.unpack = .notANumber

theorem isNan_iff : IsNan x ↔ Binary64.ofFloat x = .nan := by
  rw [IsNan, Binary64.ofFloat_eq]
  cases x.toModel.unpack with
  | notANumber => exact iff_of_true rfl rfl
  | infinity s => exact iff_of_false nofun nofun
  | zero s => exact iff_of_false nofun nofun
  | finite s m e hm => exact iff_of_false nofun nofun

instance : DecidablePred IsNan := fun x => decidable_of_iff (Binary64.ofFloat x = .nan) isNan_iff.symm

/-- The word for what is not a number has an exponent of ones alone and a mantissa that is not zero. -/
theorem packComponents_ne_packedNaN {s : Sign} {e : BitVec 11} {m : BitVec 52} (h : e ≠ -1#11 ∨ m = 0#52) :
    packComponents .binary64 s e m ≠ packedNaN .binary64 := by
  intro heq
  rcases h with hexponent | rfl
  · apply hexponent
    have hparts := congrArg unpackExponent heq
    rwa [packedNaN, UnpackedFloat.unpackExponent_packComponents,
      UnpackedFloat.unpackExponent_packComponents] at hparts
  · have hparts := congrArg unpackMantissa heq
    rw [packedNaN, UnpackedFloat.unpackMantissa_packComponents,
      UnpackedFloat.unpackMantissa_packComponents] at hparts
    exact absurd hparts (by decide)

/-- Nothing becomes or stops being a number when it is packed into 64 bits. -/
theorem isNan_pack : IsNan ⟨Float.Model.pack u⟩ ↔ u = .notANumber := by
  have hvalid : Format.binary64.Valid (UnpackedFloat.pack .binary64 u) := UnpackedFloat.valid_pack
  change UnpackedFloat.unpack .binary64 (UnpackedFloat.pack .binary64 u) = .notANumber ↔ _
  rw [UnpackedFloat.unpack_eq_notANumber_iff_of_valid hvalid]
  cases u with
  | notANumber => exact iff_of_true rfl rfl
  | infinity s => exact iff_of_false (packComponents_ne_packedNaN (Or.inr rfl)) nofun
  | zero s => exact iff_of_false (packComponents_ne_packedNaN (Or.inl (by decide))) nofun
  | finite s m e hm =>
    refine iff_of_false ?_ nofun
    unfold UnpackedFloat.pack
    dsimp only
    split
    case isTrue => exact packComponents_ne_packedNaN (Or.inr rfl)
    case isFalse hfits =>
      split
      · apply packComponents_ne_packedNaN
        -- the exponent is less than that of an infinity
        refine Or.inl fun hones => ?_
        have hbias : Format.binary64.exponentBias = 1023 := by decide
        have hword := congrArg BitVec.toNat hones
        rw [hbias] at hword hfits
        simp only [BitVec.toNat_ofNat] at hword
        change _ = (2047 : ℕ) at hword
        omega
      · exact packComponents_ne_packedNaN (Or.inl (by decide))

/-- Rounding a significand gives a number, or an infinity if that is too large. -/
theorem roundWithAccuracy_ne_nan (s : Sign) (m : ℕ) (e : ℤ) (a : Accuracy) :
    UnpackedFloat.roundWithAccuracy .binary64 s m e a ≠ .notANumber := by
  unfold UnpackedFloat.roundWithAccuracy
  dsimp only
  split
  · exact nofun
  · exact nofun

theorem isNan_neg : IsNan (-x) ↔ IsNan x := by
  apply isNan_pack.trans
  rw [IsNan]
  cases x.toModel.unpack with
  | notANumber => exact iff_of_true rfl rfl
  | infinity s => exact iff_of_false nofun nofun
  | zero s => exact iff_of_false nofun nofun
  | finite s m e hm => exact iff_of_false nofun nofun

/-- Above zero or below it, and finite. -/
def IsFinite (u : UnpackedFloat) : Prop := ∃ s m e hm, u = .finite s m e hm

instance : DecidablePred IsFinite
  | .notANumber => isFalse nofun
  | .infinity _ => isFalse nofun
  | .zero _ => isFalse nofun
  | .finite s m e hm => isTrue ⟨s, m, e, hm, rfl⟩

theorem mul_ne_nan (hu : u ≠ .notANumber) (hv : IsFinite v) : u.mul .binary64 v ≠ .notANumber := by
  obtain ⟨t, m', e', hm', rfl⟩ := hv
  cases u with
  | notANumber => exact absurd rfl hu
  | infinity s => exact nofun
  | zero s => exact nofun
  | finite s m e hm => exact roundWithAccuracy_ne_nan _ _ _ _

theorem div_ne_nan (hu : u ≠ .notANumber) (hv : IsFinite v) : u.div .binary64 v ≠ .notANumber := by
  obtain ⟨t, m', e', hm', rfl⟩ := hv
  cases u with
  | notANumber => exact absurd rfl hu
  | infinity s => exact nofun
  | zero s => exact nofun
  | finite s m e hm => exact roundWithAccuracy_ne_nan _ _ _ _

theorem not_isNan_mul (hx : ¬ IsNan x) (hy : IsFinite y.toModel.unpack) : ¬ IsNan (x * y) :=
  isNan_pack.not.2 (mul_ne_nan hx hy)

theorem not_isNan_div (hx : ¬ IsNan x) (hy : IsFinite y.toModel.unpack) : ¬ IsNan (x / y) :=
  isNan_pack.not.2 (div_ne_nan hx hy)

theorem not_isNan_toFloat (n : UInt64) : ¬ IsNan n.toFloat := by
  apply isNan_pack.not.2
  change UnpackedFloat.normalize .binary64 (n.toNat : ℤ) 0 .positive ≠ _
  unfold UnpackedFloat.normalize
  split
  · exact roundWithAccuracy_ne_nan _ _ _ _
  · exact nofun
  · exact roundWithAccuracy_ne_nan _ _ _ _

/-! ### The doubles of numerals -/

theorem isFinite_powerOfTen :
    ∀ i : Fin 23, IsFinite (Float.exactlyRepresentablePowersOfTen[i]).toModel.unpack := by
  decide +kernel

theorem ofScientific_ne_nan (m : ℕ) (e : ℤ) : UnpackedFloat.ofScientific .binary64 m e ≠ .notANumber := by
  unfold UnpackedFloat.ofScientific
  split
  · exact nofun
  · split
    · exact nofun
    · split
      · exact nofun
      · split
        · exact mul_ne_nan nofun ⟨_, _, _, _, rfl⟩
        · exact div_ne_nan nofun ⟨_, _, _, _, rfl⟩

/-- A whole number times a power of ten is rounded to a number. -/
theorem not_isNan_ofScientific (m : ℕ) (below : Bool) (e : ℕ) : ¬ IsNan (Float.ofScientific m below e) := by
  unfold Float.ofScientific
  split
  case isTrue h =>
    -- small numbers and powers are doubles themselves, and one operation is left
    have hpower := isFinite_powerOfTen ⟨e, by omega⟩
    cases below with
    | false => exact not_isNan_mul (not_isNan_toFloat _) hpower
    | true => exact not_isNan_div (not_isNan_toFloat _) hpower
  case isFalse => exact isNan_pack.not.2 (ofScientific_ne_nan _ _)

theorem not_isNan_zero : ¬ IsNan 0 := nofun

theorem not_isNan_infinity : ¬ IsNan (1 / 0) := nofun

/-- A decimal numeral has a double that is a number, whatever its exponent. -/
theorem not_isNan_ofDecimal (m : ℕ) (e : ℤ) : ¬ IsNan (ofDecimal m e) := by
  unfold ofDecimal
  dsimp only
  split
  · exact not_isNan_zero
  · split
    · exact not_isNan_infinity
    · exact not_isNan_ofScientific _ _ _

theorem not_isNan_ofBinary (m : ℕ) (e : ℤ) : ¬ IsNan (ofBinary m e) := by
  unfold ofBinary
  dsimp only
  split
  · exact not_isNan_zero
  · split
    · exact not_isNan_infinity
    · split
      · exact not_isNan_ofScientific _ _ _
      · exact not_isNan_ofScientific _ _ _

/-- Only the word for what is not a number stands for what is not a number. -/
theorem isNan_double_iff : IsNan n.double.value ↔ n = .nan := by
  cases n with
  | decimal m e => exact iff_of_false (not_isNan_ofDecimal m e) nofun
  | binary m e => exact iff_of_false (not_isNan_ofBinary m e) nofun
  | infinity => exact iff_of_false not_isNan_infinity nofun
  | nan => exact iff_of_true rfl rfl

/-- A figure has no number if it says so, with a sign as without. -/
theorem isNan_signed_iff (negative : Bool) : IsNan (n.signed negative).value ↔ n = .nan := by
  rw [← isNan_double_iff]
  cases negative with
  | false => rfl
  | true => exact isNan_neg

end GpuTelemetry.Decimal
