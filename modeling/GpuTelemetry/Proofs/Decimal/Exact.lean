import GpuTelemetry.Proofs.Decimal.Shortest
import Mathlib

namespace GpuTelemetry.Decimal

open Float.Model (UnpackedFloat Format)
open Float.Model.UnpackedFloat (Sign unpackSign unpackExponent unpackMantissa)

/-! ### The bits of a double -/

namespace Binary64

def isNegative : Sign → Bool
  | .negative => true
  | .positive => false

def ofUnpacked : UnpackedFloat → Binary64
  | .notANumber => .nan
  | .infinity s => .infinite (isNegative s)
  | .zero s => .finite (isNegative s) 0 (-1074)
  | .finite s m e _ => .finite (isNegative s) m e

section Bits

variable (b : BitVec Format.binary64.numBits)

theorem toNat_unpackExponent :
    (unpackExponent b).toNat = b.toNat / Nat.pow 2 52 % Nat.pow 2 11 := by
  rw [unpackExponent, BitVec.toNat_cast, BitVec.extractLsb_toNat, Nat.shiftRight_eq_div_pow]
  rfl

theorem toNat_unpackMantissa : (unpackMantissa b).toNat = b.toNat % Nat.pow 2 52 := by
  rw [unpackMantissa, BitVec.toNat_cast, BitVec.extractLsb_toNat]
  rfl

theorem toNat_unpackSign : (unpackSign b).toNat = (b.toNat.testBit 63).toNat := by
  rw [unpackSign, BitVec.toNat_cast, BitVec.extractLsb_toNat, Nat.toNat_testBit,
    Nat.shiftRight_eq_div_pow]
  rfl

theorem isNegative_ofBitVec : isNegative (Sign.ofBitVec (unpackSign b)) = b.toNat.testBit 63 := by
  have hsign := toNat_unpackSign b
  cases hbit : b.toNat.testBit 63 with
  | false =>
    rw [hbit] at hsign
    have hzero : unpackSign b = 0#1 := BitVec.eq_of_toNat_eq hsign
    rw [hzero]
    rfl
  | true =>
    rw [hbit] at hsign
    have hone : unpackSign b = 1#1 := BitVec.eq_of_toNat_eq hsign
    rw [hone]
    rfl

/-- The bit that a normal double does not store. -/
theorem toNat_leading_one (v : BitVec 52) : (1#1 ++ v).toNat = Nat.pow 2 52 + v.toNat := by
  rw [BitVec.toNat_append]
  exact (Nat.two_pow_add_eq_or_of_lt v.isLt 1).symm

end Bits

theorem ofFloat_eq (x : Float) : ofFloat x = ofUnpacked x.toModel.unpack := by
  obtain ⟨b, hb⟩ : ∃ b : BitVec Format.binary64.numBits, x.toModel.toBits.toBitVec = b := ⟨_, rfl⟩
  have hbits : x.toBits.toNat = b.toNat := congrArg BitVec.toNat hb
  unfold ofFloat Float.Model.unpack
  rw [hbits, hb]
  dsimp only
  rw [← toNat_unpackExponent, ← toNat_unpackMantissa, ← isNegative_ofBitVec, UnpackedFloat.unpack]
  -- the two splittings test the same numbers, one as words and one as naturals
  have hones : unpackExponent b = -1#11 ↔ (unpackExponent b).toNat = 2047 := BitVec.toNat_inj.symm
  have hzeros : unpackExponent b = 0#11 ↔ (unpackExponent b).toNat = 0 := BitVec.toNat_inj.symm
  have hnone : unpackMantissa b = 0#52 ↔ (unpackMantissa b).toNat = 0 := BitVec.toNat_inj.symm
  simp only [hones, hzeros, hnone]
  split
  · split
    · rfl
    · rfl
  · split
    case isTrue hsubnormal =>
      split
      case isTrue hzero =>
        rw [hzero]
        rfl
      case isFalse =>
        rw [hsubnormal]
        rfl
    case isFalse =>
      simp only [ofUnpacked, toNat_leading_one]
      rfl

/-! ### The worth of a double -/

def value? : Binary64 → Option ℚ
  | .finite negative m e => some (if negative then -(m * 2 ^ e) else m * 2 ^ e)
  | _ => none

/-- Not a number, or above all numbers. -/
def Unbounded (b : Binary64) : Prop := b = .nan ∨ b = .infinite false

theorem unbounded_iff {b : Binary64} : b.Unbounded ↔ b.value? = none ∧ b ≠ .infinite true := by
  cases b with
  | nan => simp [Unbounded, value?]
  | infinite negative => simp [Unbounded, value?]
  | finite negative m e => simp [Unbounded, value?]

theorem unpack_zero : (0 : Float).toModel.unpack = .zero .positive := rfl

theorem lt_iff_unpack {x y : Float} : x < y ↔ x.toModel.unpack.lt y.toModel.unpack = true := by
  change Float.lt x y = true ↔ _
  rw [Float.lt, decide_eq_true_iff]
  rfl

/-- Below zero are the numbers below zero and the infinity below. -/
theorem lt_zero_iff {x : Float} :
    x < 0 ↔ ofFloat x = .infinite true ∨ ∃ q ∈ (ofFloat x).value?, q < 0 := by
  rw [lt_iff_unpack, unpack_zero, ofFloat_eq]
  cases x.toModel.unpack with
  | notANumber => simp [UnpackedFloat.lt, UnpackedFloat.compare, ofUnpacked, value?]
  | infinity s =>
    cases s with
    | positive => simp [UnpackedFloat.lt, UnpackedFloat.compare, ofUnpacked, value?, isNegative]
    | negative => simp [UnpackedFloat.lt, UnpackedFloat.compare, ofUnpacked, isNegative]
  | zero s => simp [UnpackedFloat.lt, UnpackedFloat.compare, ofUnpacked, value?]
  | finite s m e hm =>
    have hpos : (0 : ℚ) < m * 2 ^ e := by positivity
    cases s with
    | positive =>
      simp [UnpackedFloat.lt, UnpackedFloat.compare, ofUnpacked, value?, isNegative, hpos.le]
    | negative =>
      simp [UnpackedFloat.lt, UnpackedFloat.compare, ofUnpacked, value?, isNegative, hpos]

end Binary64

/-! ### The nearest integer -/

def roundAway (q : ℚ) : ℤ := if q < 0 then -round (-q) else round q

theorem roundAway_of_nonneg {q : ℚ} (h : 0 ≤ q) : roundAway q = round q := if_neg (not_lt.2 h)

theorem roundAway_neg_of_nonneg {q : ℚ} (h : 0 ≤ q) : roundAway (-q) = -round q := by
  unfold roundAway
  rcases h.eq_or_lt with rfl | hpos
  · simp
  · rw [if_pos (neg_neg_of_pos hpos), neg_neg]

theorem ratio_value (m : ℕ) (e : ℤ) : ((ratio m e).1 : ℚ) / (ratio m e).2 = m * 2 ^ e := by
  unfold ratio
  rcases lt_or_ge e 0 with hneg | hpos
  · have hpow := zpow_of_neg (two_ne_zero' ℚ) hneg
    rw [if_pos hneg, Nat.pow_eq, Nat.cast_pow, Nat.cast_ofNat, eq_inv_of_mul_eq_one_left hpow]
    rfl
  · rw [if_neg (not_lt.2 hpos), Nat.pow_eq, Nat.cast_mul, Nat.cast_pow, Nat.cast_ofNat,
      Nat.cast_one, div_one, zpow_of_nonneg hpos]

theorem roundHalfUp_eq_round {num den : ℕ} (h : 0 < den) :
    (roundHalfUp num den : ℤ) = round ((num : ℚ) / den) := by
  have hhalf : (num : ℚ) / den + 1 / 2 = ((2 * num + den : ℕ) : ℚ) / (2 * den : ℕ) := by
    have hden : (den : ℚ) ≠ 0 := Nat.cast_ne_zero.2 h.ne'
    push_cast
    field_simp
  rw [round_eq, hhalf, Rat.floor_natCast_div_natCast]
  rfl

/-- Rounding goes to the nearest integer and, half way, away from zero. -/
theorem nearestInt?_eq (x : Float) : nearestInt? x = (Binary64.ofFloat x).value?.map roundAway := by
  unfold nearestInt?
  cases Binary64.ofFloat x with
  | nan => rfl
  | infinite negative => rfl
  | finite negative m e =>
    have hpos : (0 : ℚ) ≤ m * 2 ^ e := by positivity
    have hden : 0 < (ratio m e).2 := by
      rw [ratio_eq]
      exact (ratio_pos e).2
    -- by magnitude; the sign decides to which side a half is rounded
    have hround : (roundHalfUp (ratio m e).1 (ratio m e).2 : ℤ) = round ((m : ℚ) * 2 ^ e) := by
      rw [roundHalfUp_eq_round hden, ratio_value]
    cases negative with
    | false =>
      change some (roundHalfUp (ratio m e).1 (ratio m e).2 : ℤ) = some (roundAway (m * 2 ^ e))
      rw [roundAway_of_nonneg hpos, hround]
    | true =>
      change some (-(roundHalfUp (ratio m e).1 (ratio m e).2 : ℤ)) = some (roundAway (-(m * 2 ^ e)))
      rw [roundAway_neg_of_nonneg hpos, hround]

theorem round_nonneg {q : ℚ} (h : 0 ≤ q) : 0 ≤ round q := by
  rw [round_eq]
  exact Int.floor_nonneg.2 (by positivity)

theorem toNat_toUInt64_toInt64 {n : ℕ} (h : n < 2 ^ 63) : (n : ℤ).toInt64.toUInt64.toNat = n := by
  change (BitVec.ofInt 64 n).toNat = n
  rw [BitVec.toNat_ofInt]
  omega

/-- A worth that is not below zero, as a word: what does not fit is the least signed word. -/
theorem nearestInt64_toNat {x : Float} {q : ℚ} (hvalue : (Binary64.ofFloat x).value? = some q)
    (hpos : 0 ≤ q) : (nearestInt64 x).toUInt64.toNat =
      if round q < 2 ^ 63 then (round q).toNat else 2 ^ 63 := by
  have hmin : Int64.minValue.toInt = -2 ^ 63 := by decide
  have hmax : Int64.maxValue.toInt = 2 ^ 63 - 1 := by decide
  rw [nearestInt64, nearestInt?_eq, hvalue, Option.map_some, roundAway_of_nonneg hpos]
  dsimp only
  rw [hmin, hmax]
  obtain ⟨n, hn⟩ := Int.eq_ofNat_of_zero_le (round_nonneg hpos)
  rw [hn]
  split
  · rw [if_pos (by omega), toNat_toUInt64_toInt64 (by omega), Int.toNat_natCast]
  · rw [if_neg (by omega)]
    rfl

/-- Infinities and what is not a number give the least word. -/
theorem nearestInt64_of_not_finite {x : Float} (h : (Binary64.ofFloat x).value? = none) :
    nearestInt64 x = Int64.minValue := by
  rw [nearestInt64, nearestInt?_eq, h]
  rfl

end GpuTelemetry.Decimal
