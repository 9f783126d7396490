import GpuTelemetry.Proofs.Decimal.Exact

namespace GpuTelemetry.Decimal

open Float.Model (UnpackedFloat)
open Float.Model.UnpackedFloat (Sign)

namespace Binary64

noncomputable def ofRat (q : ℚ) : EReal := (q : ℝ)

noncomputable def worth? : Binary64 → Option EReal
  | .nan => none
  | .infinite negative => some (if negative then ⊥ else ⊤)
  | .finite negative m e => some (ofRat (if negative then -(m * 2 ^ e) else m * 2 ^ e))

theorem ofRat_lt_ofRat {p q : ℚ} : ofRat p < ofRat q ↔ p < q := by
  rw [ofRat, ofRat, EReal.coe_lt_coe_iff, Rat.cast_lt]

theorem ofRat_natCast (n : ℕ) : ofRat n = n := by
  rw [ofRat, Rat.cast_natCast]
  rfl

theorem ofRat_neg (q : ℚ) : ofRat (-q) = -ofRat q := by
  rw [ofRat, ofRat, Rat.cast_neg, EReal.coe_neg]

/-- A significand has all its bits, unless the exponent is the least one. -/
structure Canonical (m : ℕ) (e : ℤ) : Prop where
  lt : m < 2 ^ 53
  least : -1074 ≤ e
  full : 2 ^ 52 ≤ m ∨ e = -1074

variable {m m' : ℕ} {e e' : ℤ} {x y : Float} {negative : Bool}

/-! ### Finite doubles -/

/-- Every finite double has its significand in that form. -/
theorem canonical_of_finite (h : ofFloat x = .finite negative m e) : Canonical m e := by
  unfold ofFloat at h
  dsimp only at h
  have hfraction : x.toBits.toNat % Nat.pow 2 52 < 2 ^ 52 := Nat.mod_lt _ (by decide)
  split at h
  · split at h <;> cases h
  · split at h
    · cases h
      exact ⟨by omega, le_rfl, Or.inr rfl⟩
    · rename_i hbiased
      cases h
      have hpow : Nat.pow 2 52 = 2 ^ 52 := rfl
      exact ⟨by omega, by omega, Or.inl (by omega)⟩

/-- Of two significands that have all their bits the one with the greater exponent is worth more. -/
theorem Canonical.value_lt (h : Canonical m e) (h' : Canonical m' e')
    (hlt : e < e' ∨ e = e' ∧ m < m') : (m : ℚ) * 2 ^ e < m' * 2 ^ e' := by
  rcases hlt with hlt | ⟨rfl, hlt⟩
  · -- only the least exponent goes with a significand that is not full
    have hfull : 2 ^ 52 ≤ m' := by
      have hleast := h.least
      rcases h'.full with hfull | hleast'
      · exact hfull
      · omega
    -- so a step of the exponent outweighs all significands
    have hm : (m : ℚ) < 2 * m' := by
      have hbits := h.lt
      exact_mod_cast (by omega : m < 2 * m')
    calc (m : ℚ) * 2 ^ e < 2 * m' * 2 ^ e := mul_lt_mul_of_pos_right hm (by positivity)
      _ = m' * 2 ^ (e + 1) := by
        rw [zpow_add_one₀ (by norm_num)]
        ring
      _ ≤ m' * 2 ^ e' := by
        apply mul_le_mul_of_nonneg_left _ (by positivity)
        exact zpow_le_zpow_right₀ (by norm_num) hlt
  · exact mul_lt_mul_of_pos_right (by exact_mod_cast hlt) (by positivity)

/-- In that form the exponents decide, and between equal ones the significands. -/
theorem Canonical.value_lt_iff (h : Canonical m e) (h' : Canonical m' e') :
    (m : ℚ) * 2 ^ e < m' * 2 ^ e' ↔ e < e' ∨ e = e' ∧ m < m' := by
  constructor
  · intro hlt
    by_contra hnot
    have hback : e' < e ∨ e' = e ∧ m' ≤ m := by omega
    rcases hback with hback | ⟨rfl, hback⟩
    · exact lt_asymm hlt (h'.value_lt h (Or.inl hback))
    · rcases hback.lt_or_eq with hback | rfl
      · exact lt_asymm hlt (h'.value_lt h (Or.inr ⟨rfl, hback⟩))
      · exact lt_irrefl _ hlt
  · exact h.value_lt h'

/-- Exponents are compared before significands. -/
theorem Canonical.compare_eq_lt (h : Canonical m e) (h' : Canonical m' e') :
    (compare e e').then (compare m m') = .lt ↔ (m : ℚ) * 2 ^ e < m' * 2 ^ e' := by
  rw [h.value_lt_iff h', Ordering.then_eq_lt, compare_lt_iff_lt, compare_lt_iff_lt, compare_eq_iff_eq]

theorem Canonical.compare_eq_gt (h : Canonical m e) (h' : Canonical m' e') :
    (compare e e').then (compare m m') = .gt ↔ (m' : ℚ) * 2 ^ e' < m * 2 ^ e := by
  rw [h'.value_lt_iff h, Ordering.then_eq_gt, compare_gt_iff_gt, compare_gt_iff_gt, compare_eq_iff_eq,
    eq_comm (a := e)]

/-! ### All doubles -/

def Kept (u : UnpackedFloat) : Prop := ∀ s m e hm, u = .finite s m e hm → Canonical m e

theorem kept_unpack (x : Float) : Kept x.toModel.unpack := by
  intro s m e hm hx
  have hfinite : ofFloat x = .finite (isNegative s) m e := by
    rw [ofFloat_eq, hx]
    rfl
  exact canonical_of_finite hfinite

/-- The worth of a double in the parts that it is compared by. -/
theorem worth?_ofUnpacked (u : UnpackedFloat) : (ofUnpacked u).worth? = match u with
    | .notANumber => none
    | .infinity .positive => some ⊤
    | .infinity .negative => some ⊥
    | .zero _ => some (ofRat 0)
    | .finite .positive m e _ => some (ofRat (m * 2 ^ e))
    | .finite .negative m e _ => some (ofRat (-(m * 2 ^ e))) := by
  cases u with
  | notANumber => rfl
  | infinity s => cases s <;> rfl
  | zero s => cases s <;> simp [ofUnpacked, worth?]
  | finite s m e hm => cases s <;> rfl

/-- The comparison of unpacked doubles is that of their worths. -/
theorem lt_iff_of_kept {u v : UnpackedFloat} (hu : Kept u) (hv : Kept v) : u.lt v = true ↔
    ∃ a ∈ (ofUnpacked u).worth?, ∃ b ∈ (ofUnpacked v).worth?, a < b := by
  -- infinities are told apart by their signs, and any number lies between them
  have hsign : compare Sign.negative Sign.positive = .lt := rfl
  have hbot (q : ℚ) : ⊥ < ofRat q := EReal.bot_lt_coe _
  have htop (q : ℚ) : ofRat q < ⊤ := EReal.coe_lt_top _
  have hsize {m : ℕ} (hm : 0 < m) (e : ℤ) : ∃ q : ℚ, m * 2 ^ e = q ∧ 0 < q := ⟨_, rfl, by positivity⟩
  rw [worth?_ofUnpacked, worth?_ofUnpacked, UnpackedFloat.lt, beq_iff_eq]
  cases u with
  | notANumber => simp [UnpackedFloat.compare]
  | infinity s =>
    cases v with
    | notANumber => simp [UnpackedFloat.compare]
    | infinity t => cases s <;> cases t <;> simp [UnpackedFloat.compare, hsign]
    | zero t => cases s <;> simp [UnpackedFloat.compare, hbot]
    | finite t m e hm => cases s <;> cases t <;> simp [UnpackedFloat.compare, hbot]
  | zero s =>
    cases v with
    | notANumber => simp [UnpackedFloat.compare]
    | infinity t => cases t <;> simp [UnpackedFloat.compare, htop]
    | zero t => simp [UnpackedFloat.compare]
    | finite t m e hm =>
      obtain ⟨q, hq, hpos⟩ := hsize hm e
      cases t <;> simp [UnpackedFloat.compare, hq, ofRat_lt_ofRat, hpos, hpos.le]
  | finite s m e hm =>
    obtain ⟨q, hq, hpos⟩ := hsize hm e
    cases v with
    | notANumber => simp [UnpackedFloat.compare]
    | infinity t => cases s <;> cases t <;> simp [UnpackedFloat.compare, htop]
    | zero t => cases s <;> simp [UnpackedFloat.compare, hq, ofRat_lt_ofRat, hpos, hpos.le]
    | finite t m' e' hm' =>
      obtain ⟨q', hq', hpos'⟩ := hsize hm' e'
      have hlt := (hu s m e hm rfl).compare_eq_lt (hv t m' e' hm' rfl)
      have hgt := (hu s m e hm rfl).compare_eq_gt (hv t m' e' hm' rfl)
      rw [hq, hq'] at hlt hgt
      -- of two doubles below zero the one that is farther from it is worth less
      cases s <;> cases t
      · simp [UnpackedFloat.compare, hq, hq', ofRat_lt_ofRat, hgt]
      · simp [UnpackedFloat.compare, hq, hq', ofRat_lt_ofRat, (neg_neg_of_pos hpos).trans hpos']
      · simp [UnpackedFloat.compare, hq, hq', ofRat_lt_ofRat, ((neg_neg_of_pos hpos').trans hpos).le]
      · simp [UnpackedFloat.compare, hq, hq', ofRat_lt_ofRat, hlt]

/-- The worth of a double whose parts are known. -/
theorem worth?_of_parts {q : ℚ} (hparts : ofFloat x = .finite negative m e) (hq : (m : ℚ) * 2 ^ e = q) :
    (ofFloat x).worth? = some (if negative then -ofRat q else ofRat q) := by
  rw [hparts, worth?, ← hq]
  cases negative with
  | false => rfl
  | true => exact congrArg some (ofRat_neg _)

/-- Doubles are compared as their worths are; what is not a number is neither below anything nor above. -/
theorem lt_iff : x < y ↔ ∃ a ∈ (ofFloat x).worth?, ∃ b ∈ (ofFloat y).worth?, a < b := by
  rw [lt_iff_unpack, ofFloat_eq, ofFloat_eq]
  exact lt_iff_of_kept (kept_unpack x) (kept_unpack y)

end Binary64

end GpuTelemetry.Decimal
