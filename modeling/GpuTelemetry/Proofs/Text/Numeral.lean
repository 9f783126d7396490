import GpuTelemetry.Text.Numeral
import Mathlib.Data.Nat.Digits.Defs

namespace GpuTelemetry.Text

variable {n : ℕ}

theorem ofNat_of_lt (h : n < 10) : ofNat n = [(48 + n).toUInt8] := by
  rw [ofNat, Nat.toDigits_of_lt_base h, List.map_singleton, Nat.toNat_digitChar_of_lt_ten h]

theorem ofNat_of_le (h : 10 ≤ n) : ofNat n = ofNat (n / 10) ++ [(48 + n % 10).toUInt8] := by
  have hlt : n % 10 < 10 := Nat.mod_lt n (by decide)
  rw [ofNat, Nat.toDigits_of_base_le (by decide) h, List.map_append, List.map_singleton,
    Nat.toNat_digitChar_of_lt_ten hlt]
  rfl

theorem ofNat_ne_nil (n : ℕ) : ofNat n ≠ [] := by
  rw [ofNat, Ne, List.map_eq_nil_iff]
  exact Nat.toDigits_ne_nil

theorem digit_of_lt : ∀ d < 10, isDigit 10 (48 + d).toUInt8 = true := by decide

theorem isDigit_of_mem_ofNat : ∀ d ∈ ofNat n, isDigit 10 d = true := by
  induction n using Nat.strong_induction_on with
  | _ n ih =>
    rcases Nat.lt_or_ge n 10 with hlt | hle
    · rw [ofNat_of_lt hlt]
      exact List.forall_mem_singleton.2 (digit_of_lt n hlt)
    · rw [ofNat_of_le hle, List.forall_mem_append, List.forall_mem_singleton]
      exact ⟨ih (n / 10) (by omega), digit_of_lt _ (Nat.mod_lt n (by decide))⟩

/-- Only zero begins with a zero. -/
theorem eq_zero_of_head_ofNat (h : (ofNat n).head? = some 48) : n = 0 := by
  induction n using Nat.strong_induction_on with
  | _ n ih =>
    rcases Nat.lt_or_ge n 10 with hlt | hle
    · rw [ofNat_of_lt hlt] at h
      have hfirst : ∀ n < 10, (48 + n).toUInt8 = 48 → n = 0 := by decide
      exact hfirst n hlt (Option.some.inj h)
    · obtain ⟨b, s, hs⟩ := List.exists_cons_of_ne_nil (ofNat_ne_nil (n / 10))
      rw [ofNat_of_le hle, hs] at h
      have hzero := ih (n / 10) (by omega) (by rw [hs]; exact h)
      omega

theorem lt_pow_length (n : ℕ) : n < 10 ^ (Nat.toDigits 10 n).length :=
  (Nat.length_toDigits_le_iff (by decide) Nat.length_toDigits_pos).1 (Nat.le_refl _)

/-- A number has no more digits than it asks for. -/
theorem pow_length_le (h : n ≠ 0) : 10 ^ ((Nat.toDigits 10 n).length - 1) ≤ n := by
  by_contra hlt
  rw [Nat.not_le] at hlt
  rcases Nat.eq_zero_or_pos ((Nat.toDigits 10 n).length - 1) with hone | hmore
  · rw [hone] at hlt
    omega
  · have hle := (Nat.length_toDigits_le_iff (b := 10) (by decide) hmore).2 hlt
    omega

end GpuTelemetry.Text
