import GpuTelemetry.Decimal.Shortest
import GpuTelemetry.Proofs.Text.Numeral
import Mathlib.Algebra.Order.Field.Basic
import Mathlib.Algebra.Order.Field.Power
import Mathlib.Data.Nat.Cast.Order.Field
import Mathlib.Tactic.Linarith
import Mathlib.Tactic.Positivity
import Mathlib.Tactic.Ring
/-!
The search for the shortest digits ends with a hit. The reals that round to a double are an interval,
and one that is longer than the steps of a decimal grid holds one of the two neighbours of the value;
with seventeen digits the steps are short enough. So the digits are never those of zero.
-/

namespace GpuTelemetry.Decimal

variable {iv : Interval} {k : ℤ} {n num den : ℕ}

/-! ### One grid -/

/-- The step of the grid of `10 ^ k`, over `gridDen k`. -/
def gridNum (k : ℤ) : ℕ := if k < 0 then 1 else Nat.pow 10 k.natAbs

def gridDen (k : ℤ) : ℕ := if k < 0 then Nat.pow 10 k.natAbs else 1

theorem gridNum_pos (k : ℤ) : 0 < gridNum k := by
  unfold gridNum
  split
  · exact Nat.one_pos
  · exact Nat.pow_pos (by decide)

theorem gridDen_pos (k : ℤ) : 0 < gridDen k := by
  unfold gridDen
  split
  · exact Nat.pow_pos (by decide)
  · exact Nat.one_pos

theorem zpow_of_neg {b : ℚ} (hb : b ≠ 0) (h : k < 0) : b ^ k * b ^ k.natAbs = 1 := by
  have hk : k = -(k.natAbs : ℤ) := by omega
  have hpow : b ^ k = (b ^ k.natAbs)⁻¹ := by rw [← zpow_natCast, ← zpow_neg, ← hk]
  rw [hpow, inv_mul_cancel₀ (pow_ne_zero _ hb)]

theorem zpow_of_nonneg {b : ℚ} (h : 0 ≤ k) : b ^ k = b ^ k.natAbs := by
  rw [← zpow_natCast, Int.natAbs_of_nonneg h]

theorem grid_step (k : ℤ) : (gridNum k : ℚ) = 10 ^ k * gridDen k := by
  unfold gridNum gridDen
  rcases lt_or_ge k 0 with hneg | hpos
  · rw [if_pos hneg, if_pos hneg, Nat.cast_one, Nat.pow_eq, Nat.cast_pow, Nat.cast_ofNat]
    exact (zpow_of_neg (by norm_num) hneg).symm
  · rw [if_neg (not_lt.2 hpos), if_neg (not_lt.2 hpos), Nat.cast_one, mul_one, Nat.pow_eq,
      Nat.cast_pow, Nat.cast_ofNat, zpow_of_nonneg hpos]

structure Interval.Proper (iv : Interval) : Prop where
  low : iv.low < iv.value
  high : iv.value < iv.high
  den : 0 < iv.den
  positive : 0 < iv.low

theorem Interval.holds_of_lt (hlow : iv.low * den < num * iv.den)
    (hhigh : num * iv.den < iv.high * den) : iv.holds num den = true := by
  unfold Interval.holds
  split
  · simp [hlow.le, hhigh.le]
  · simp [hlow, hhigh]

theorem Interval.not_holds_zero (h : iv.Proper) (hden : 0 < den) : iv.holds 0 den = false := by
  have hlow : 0 < iv.low * den := Nat.mul_pos h.positive hden
  unfold Interval.holds
  split
  · simp [hlow.ne']
  · simp

theorem roundHalfEven_eq (num den : ℕ) :
    roundHalfEven num den = num / den ∨ roundHalfEven num den = num / den + 1 := by
  unfold roundHalfEven
  dsimp only
  split
  · exact Or.inl rfl
  · split
    · exact Or.inr rfl
    · omega

def Interval.floor (iv : Interval) (k : ℤ) : ℕ := iv.value * gridDen k / (iv.den * gridNum k)

def Interval.nearer (iv : Interval) (k : ℤ) : ℕ :=
  roundHalfEven (iv.value * gridDen k) (iv.den * gridNum k)

def Interval.farther (iv : Interval) (k : ℤ) : ℕ :=
  if iv.nearer k = iv.floor k then iv.floor k + 1 else iv.floor k

def Interval.holdsAt (iv : Interval) (k : ℤ) (n : ℕ) : Bool := iv.holds (n * gridNum k) (gridDen k)

/-- The search tries the nearer neighbour first. -/
theorem Interval.onGrid_eq : iv.onGrid k =
    if iv.holdsAt k (iv.nearer k) then some (iv.nearer k)
    else if iv.holdsAt k (iv.farther k) then some (iv.farther k) else none := rfl

/-- What is found on a grid lies in the interval, so it is not zero. -/
theorem Interval.ne_zero_of_onGrid (h : iv.Proper) (hn : iv.onGrid k = some n) : n ≠ 0 := by
  have hinside : iv.holdsAt k n = true := by
    rw [Interval.onGrid_eq] at hn
    split at hn
    case isTrue hnearer =>
      obtain rfl := Option.some.inj hn
      exact hnearer
    case isFalse =>
      obtain ⟨hfarther, rfl⟩ := Option.ite_some_none_eq_some.1 hn
      exact hfarther
  rintro rfl
  rw [Interval.holdsAt, Nat.zero_mul, Interval.not_holds_zero h (gridDen_pos k)] at hinside
  cases hinside

def Interval.Wide (iv : Interval) (k : ℤ) : Prop :=
  iv.den * gridNum k + iv.low * gridDen k < iv.high * gridDen k

/-- In an interval longer than a step there is a neighbour of the value. -/
theorem Interval.floor_or_next (h : iv.Proper) (hwide : iv.Wide k) :
    iv.holdsAt k (iv.floor k) = true ∨ iv.holdsAt k (iv.floor k + 1) = true := by
  have hstep : 0 < iv.den * gridNum k := Nat.mul_pos h.den (gridNum_pos k)
  have hlow := Nat.mul_lt_mul_of_pos_right h.low (gridDen_pos k)
  have hhigh := Nat.mul_lt_mul_of_pos_right h.high (gridDen_pos k)
  have hfloor : iv.floor k * (iv.den * gridNum k) ≤ iv.value * gridDen k := Nat.div_mul_le_self _ _
  have hnext : iv.value * gridDen k < (iv.floor k + 1) * (iv.den * gridNum k) :=
    Nat.lt_mul_of_div_lt (Nat.lt_succ_self _) hstep
  have hat (n : ℕ) : n * gridNum k * iv.den = n * (iv.den * gridNum k) := by ring
  rcases Nat.lt_or_ge (iv.low * gridDen k) (iv.floor k * (iv.den * gridNum k)) with hin | hout
  · refine Or.inl (Interval.holds_of_lt ?_ ?_) <;> rw [hat]
    · exact hin
    · exact Nat.lt_of_le_of_lt hfloor hhigh
  -- the lower neighbour lies outside, so the upper one is less than the length away from the low end
  · unfold Interval.Wide at hwide
    rw [Nat.succ_mul] at hnext
    refine Or.inr (Interval.holds_of_lt ?_ ?_) <;> rw [hat, Nat.succ_mul]
    · omega
    · omega

/-- A wide interval has one of the two neighbours in it. -/
theorem Interval.onGrid_isSome (h : iv.Proper) (hwide : iv.Wide k) :
    ∃ n, iv.onGrid k = some n := by
  have hfound := Interval.floor_or_next h hwide
  rw [Interval.onGrid_eq]
  split
  case isTrue => exact ⟨_, rfl⟩
  case isFalse hnearer =>
    -- the two neighbours are the floor and the next, and one of them is inside
    have hfarther : iv.holdsAt k (iv.farther k) = true := by
      unfold Interval.farther
      rcases roundHalfEven_eq (iv.value * gridDen k) (iv.den * gridNum k) with heq | heq
      · have hfloor : iv.nearer k = iv.floor k := heq
        rw [if_pos hfloor]
        exact hfound.resolve_left (hfloor ▸ hnearer)
      · have hnext : iv.nearer k = iv.floor k + 1 := heq
        rw [if_neg (by omega)]
        exact hfound.resolve_right (hnext ▸ hnearer)
    rw [if_pos hfarther]
    exact ⟨_, rfl⟩

/-! ### The search -/

/-- If the last grid has a hit, the search ends with one. -/
theorem Interval.search_found {leading : ℤ} {precision more : ℕ}
    (hlast : ∃ n, iv.onGrid (leading - (precision + more : ℕ) + 1) = some n) :
    ∃ n k, iv.onGrid k = some n ∧ iv.search leading precision more = ⟨n, k⟩ := by
  induction more generalizing precision with
  | zero =>
    obtain ⟨n, hn⟩ := hlast
    rw [Nat.add_zero] at hn
    exact ⟨n, _, hn, by rw [Interval.search, hn, Option.getD_some]⟩
  | succ more ih =>
    rw [Interval.search]
    split
    case h_1 n hn => exact ⟨n, _, hn, rfl⟩
    case h_2 => exact ih (by rwa [Nat.add_right_comm, Nat.add_assoc])

/-! ### Seventeen digits -/

/-- The unit of the first digit is not above the number. -/
theorem pow_leadingExponent_le (hnum : 0 < num) (hden : 0 < den) :
    (10 : ℚ) ^ leadingExponent num den ≤ num / den := by
  unfold leadingExponent
  split
  case isTrue hle =>
    have hone : num / den ≠ 0 := (Nat.div_pos hle hden).ne'
    have hlength : ((Nat.toDigits 10 (num / den)).length : ℤ) - 1 =
        ((Nat.toDigits 10 (num / den)).length - 1 : ℕ) := by
      rw [Nat.cast_sub Nat.length_toDigits_pos, Nat.cast_one]
    rw [hlength, zpow_natCast]
    calc (10 : ℚ) ^ ((Nat.toDigits 10 (num / den)).length - 1) ≤ (num / den : ℕ) := by
          exact_mod_cast Text.pow_length_le hone
      _ ≤ num / den := Nat.cast_div_le
  case isFalse hlt =>
    -- a power of ten above the quotient the other way round, rounded up
    have hceil : den ≤ num * ((den + num - 1) / num) := by
      have hover := Nat.lt_mul_div_succ (den + num - 1) hnum
      rw [Nat.mul_add, Nat.mul_one] at hover
      omega
    have hpow := Text.lt_pow_length ((den + num - 1) / num - 1)
    have hle : den ≤ num * 10 ^ (Nat.toDigits 10 ((den + num - 1) / num - 1)).length :=
      hceil.trans (Nat.mul_le_mul_left num (by omega))
    rw [zpow_neg, zpow_natCast, inv_le_comm₀ (by positivity) (by positivity), inv_div,
      div_le_iff₀ (by positivity), mul_comm]
    exact_mod_cast hle

theorem ratio_pos (e : ℤ) : 0 < (ratio 1 e).1 ∧ 0 < (ratio 1 e).2 := by
  unfold ratio
  split
  · exact ⟨Nat.one_pos, Nat.pow_pos (by decide)⟩
  · exact ⟨Nat.mul_pos Nat.one_pos (Nat.pow_pos (by decide)), Nat.one_pos⟩

variable {m : ℕ} {e : ℤ}

theorem ratio_eq (m : ℕ) (e : ℤ) : ratio m e = (m * (ratio 1 e).1, (ratio 1 e).2) := by
  unfold ratio
  split
  · rw [Nat.mul_one]
  · rw [Nat.one_mul]

/-- A double other than zero lies inside of its interval, and zero does not. -/
theorem proper_of (hm : 0 < m) (e : ℤ) : (Interval.of m e).Proper := by
  obtain ⟨hulp, hden⟩ := ratio_pos e
  have hvalue : (Interval.of m e).value = 4 * (m * (ratio 1 e).1) := by
    rw [Interval.of, ratio_eq m e]
  have hle : (ratio 1 e).1 ≤ m * (ratio 1 e).1 := Nat.le_mul_of_pos_left _ hm
  refine ⟨?_, ?_, ?_, ?_⟩
  · rw [hvalue, Interval.of, ratio_eq m e]
    dsimp only
    split <;> omega
  · rw [hvalue, Interval.of, ratio_eq m e]
    dsimp only
    omega
  · rw [Interval.of, ratio_eq m e]
    exact Nat.mul_pos (by decide) hden
  · rw [Interval.of, ratio_eq m e]
    dsimp only
    split <;> omega

/-- Sixteen digits further down the value is shorter than the interval. -/
theorem value_lt_length (hlt : m < Nat.pow 2 53) (e : ℤ) :
    (Interval.of m e).value + 10 ^ 16 * (Interval.of m e).low < 10 ^ 16 * (Interval.of m e).high := by
  obtain ⟨hulp, _⟩ := ratio_pos e
  have hvalue : m * (ratio 1 e).1 ≤ Nat.pow 2 53 * (ratio 1 e).1 := Nat.mul_le_mul_right _ hlt.le
  rw [Interval.of, ratio_eq m e]
  dsimp only
  split
  case isTrue hnarrow =>
    rw [hnarrow.1]
    simp only [Nat.pow_eq] at hvalue ⊢
    omega
  case isFalse =>
    simp only [Nat.pow_eq] at hvalue
    omega

/-- With seventeen digits the interval around a double is longer than a step. -/
theorem wide_of (hm : 0 < m) (hlt : m < Nat.pow 2 53) (e : ℤ)
    (hk : k = leadingExponent (Interval.of m e).value (Interval.of m e).den - 16) :
    (Interval.of m e).Wide k := by
  have hproper := proper_of hm e
  have hpow := pow_leadingExponent_le (hproper.positive.trans hproper.low) hproper.den
  have hden : (0 : ℚ) < (Interval.of m e).den := Nat.cast_pos.2 hproper.den
  rw [le_div_iff₀ hden] at hpow
  have hlength : ((Interval.of m e).value : ℚ) + 10 ^ 16 * (Interval.of m e).low <
      10 ^ 16 * (Interval.of m e).high := by exact_mod_cast value_lt_length hlt e
  have hgrid : (0 : ℚ) < gridDen k := Nat.cast_pos.2 (gridDen_pos k)
  -- a step of the grid is the sixteenth power of a tenth of the first digit's unit
  have hstep : (10 : ℚ) ^ k * 10 ^ 16 =
      10 ^ leadingExponent (Interval.of m e).value (Interval.of m e).den := by
    rw [hk, zpow_sub₀ (by norm_num)]
    norm_num
  have hshort : (10 : ℚ) ^ k * (Interval.of m e).den + (Interval.of m e).low <
      (Interval.of m e).high := by
    rw [← hstep] at hpow
    linarith
  have hall : ((Interval.of m e).den : ℚ) * gridNum k + (Interval.of m e).low * gridDen k <
      (Interval.of m e).high * gridDen k := by
    calc ((Interval.of m e).den : ℚ) * gridNum k + (Interval.of m e).low * gridDen k
        = ((10 : ℚ) ^ k * (Interval.of m e).den + (Interval.of m e).low) * gridDen k := by
          rw [grid_step]
          ring
      _ < (Interval.of m e).high * gridDen k := mul_lt_mul_of_pos_right hshort hgrid
  exact_mod_cast hall

/-- The search for the digits of a double other than zero ends with a hit. -/
theorem search_of (hm : 0 < m) (hlt : m < Nat.pow 2 53) (e : ℤ) :
    ∃ n k, (Interval.of m e).onGrid k = some n ∧ (Interval.of m e).search
      (leadingExponent (Interval.of m e).value (Interval.of m e).den) 1 16 = ⟨n, k⟩ := by
  obtain ⟨n, hn⟩ := Interval.onGrid_isSome (proper_of hm e) (wide_of hm hlt e rfl)
  refine Interval.search_found ⟨n, ?_⟩
  rw [← hn]
  congr 1
  omega

/-- So the digits are not those of zero. -/
theorem shortest_ne_zero (hm : 0 < m) (hlt : m < Nat.pow 2 53) (e : ℤ) : (shortest m e).n ≠ 0 := by
  obtain ⟨n, k, hn, hsearch⟩ := search_of hm hlt e
  have hne : n ≠ 0 := Interval.ne_zero_of_onGrid (proper_of hm e) hn
  unfold shortest
  dsimp only
  rw [hsearch, Digits.normal]
  split
  · exact Nat.one_ne_zero
  · exact hne

end GpuTelemetry.Decimal
